import ImageCatalog.Proofs.Json.Values
import ImageCatalog.Proofs.Outcome

set_option autoImplicit false

namespace ImageCatalog

theorem Json.Readable.mono {depth depth' : Nat} {json : Json} (readable : json.Readable depth)
    (le : depth ≤ depth') : json.Readable depth' := by
  induction readable generalizing depth' with
  | null => exact .null depth'
  | bool _ b => exact .bool depth' b
  | number _ readable => exact .number depth' readable
  | string _ s => exact .string depth' s
  | array _ ih =>
    obtain ⟨deeper, rfl⟩ := Nat.exists_eq_add_one_of_ne_zero (Nat.ne_of_gt (by omega : 0 < depth'))
    exact .array fun json mem => ih json mem (by omega)
  | object sorted _ ih =>
    obtain ⟨deeper, rfl⟩ := Nat.exists_eq_add_one_of_ne_zero (Nat.ne_of_gt (by omega : 0 < depth'))
    exact .object sorted fun member mem => ih member mem (by omega)

namespace JsonText

open Text (Decoded)

theorem readable_of_integer? {negative : Bool} {n : Nat} {k : Int}
    (found : integer? negative n = some k) : (JsonNumber.integer k).Readable := by
  rw [integer?] at found
  split at found
  · split at found
    · cases found
    · next fits =>
      obtain rfl := Option.some.inj found
      simp only [not_or, Decidable.not_not, Binary64.fitsInt64, decide_eq_true_eq,
        Int64.toInt_minValue] at fits
      exact ⟨by omega, by omega⟩
  · split at found
    · next below =>
      obtain rfl := Option.some.inj found
      rw [UInt64.size] at below
      exact ⟨by omega, by omega⟩
    · cases found

theorem readable_of_assemble {negative : Bool} {whole : List Char}
    {fraction : Option (List Char)} {exponent : Option Int} {n : JsonNumber}
    (made : assemble negative whole fraction exponent = .ok n) : n.Readable := by
  rw [assemble] at made
  dsimp only at made
  split at made
  · next k found =>
    obtain rfl := Except.ok.inj made
    split at found
    · exact readable_of_integer? found
    · cases found
  · split at made
    · next finite =>
      obtain rfl := Except.ok.inj made
      exact finite
    · cases made

theorem readable_of_number {cs rest : Decoded} {n : JsonNumber}
    (read : number cs = .ok (n, rest)) : n.Readable := by
  obtain ⟨⟨⟨whole, fraction, exponent⟩, rest'⟩, -, read⟩ := bind_eq_ok read
  obtain ⟨found, made, read⟩ := bind_eq_ok read
  cases read
  exact readable_of_assemble made

theorem forall_of_itemsFrom {α : Type} {item : Reader α} {P : α → Prop}
    (each : ∀ cs a rest, item cs = .ok (a, rest) → P a) {fuel : Nat} {cs rest : Decoded}
    {found : List α} (read : itemsFrom item fuel cs = .ok (found, rest)) : ∀ a ∈ found, P a := by
  induction fuel generalizing cs found with
  | zero => cases read
  | succ fuel ih =>
    rw [itemsFrom] at read
    split at read
    · cases read
    · next first behind result =>
      have head := each _ _ _ result
      split at read
      · obtain ⟨⟨others, after⟩, tail, same⟩ := map_eq_ok_iff.1 read
        cases same
        exact List.forall_mem_cons.2 ⟨head, ih tail⟩
      · cases read
        exact List.forall_mem_singleton.2 head
      · cases read

theorem forall_of_items {α : Type} {item : Reader α} {P : α → Prop}
    (each : ∀ cs a rest, item cs = .ok (a, rest) → P a) {cs rest : Decoded} {found : List α}
    (read : items item cs = .ok (found, rest)) : ∀ a ∈ found, P a := by
  rw [items] at read
  split at read
  · cases read
    exact fun _ mem => absurd mem List.not_mem_nil
  · exact forall_of_itemsFrom each read

theorem invariant_of_membersFrom {σ : Type} {name : Reader String}
    {member : String → σ → Reader σ} {P : σ → Prop}
    (step : ∀ key first cs next rest, P first → member key first cs = .ok (next, rest) → P next)
    {fuel : Nat} {first last : σ} {cs rest : Decoded} (start : P first)
    (read : membersFrom name member fuel first cs = .ok (last, rest)) : P last := by
  induction fuel generalizing first cs with
  | zero => cases read
  | succ fuel ih =>
    rw [membersFrom] at read
    split at read
    · cases read
    · split at read
      · cases read
      · next next behind result =>
        have held := step _ _ _ _ _ start result
        split at read
        · exact ih held read
        · cases read
          exact held
        · cases read

theorem invariant_of_members {σ : Type} {name : Reader String} {member : String → σ → Reader σ}
    {P : σ → Prop}
    (step : ∀ key first cs next rest, P first → member key first cs = .ok (next, rest) → P next)
    {first last : σ} {cs rest : Decoded} (start : P first)
    (read : members name member first cs = .ok (last, rest)) : P last := by
  rw [members] at read
  split at read
  · cases read
    exact start
  · exact invariant_of_membersFrom step start read

theorem word_eq_ok {α : Type} {result found : α} {ws : List Char} {cs rest : Decoded}
    (read : word result ws cs = .ok (found, rest)) : found = result := by
  induction ws generalizing cs with
  | nil =>
    rw [word] at read
    cases read
    rfl
  | cons w ws ih =>
    cases cs with
    | nil => cases read
    | cons c cs =>
      rw [word] at read
      split at read
      · exact ih read
      · cases read

theorem readable_of_valueWith {depth : Nat} {array object : Reader Json}
    (arrays : ∀ cs json rest, array cs = .ok (json, rest) → json.Readable depth)
    (objects : ∀ cs json rest, object cs = .ok (json, rest) → json.Readable depth)
    {cs rest : Decoded} {json : Json} (read : valueWith array object cs = .ok (json, rest)) :
    json.Readable depth := by
  rw [valueWith] at read
  split at read
  · exact word_eq_ok read ▸ .null depth
  · exact word_eq_ok read ▸ .bool depth true
  · exact word_eq_ok read ▸ .bool depth false
  · obtain ⟨⟨s, behind⟩, -, same⟩ := map_eq_ok_iff.1 read
    cases same
    exact .string depth s
  · exact arrays _ _ _ read
  · exact objects _ _ _ read
  · obtain ⟨⟨n, behind⟩, found, same⟩ := map_eq_ok_iff.1 read
    cases same
    exact .number depth (readable_of_number found)

theorem readable_of_value {depth : Nat} {cs rest : Decoded} {json : Json}
    (read : value depth cs = .ok (json, rest)) : json.Readable depth := by
  induction depth generalizing cs json rest with
  | zero => exact readable_of_valueWith (fun _ _ _ h => by cases h) (fun _ _ _ h => by cases h) read
  | succ depth ih =>
    refine readable_of_valueWith ?_ ?_ read
    · intro cs json rest read
      obtain ⟨⟨items, behind⟩, found, same⟩ := map_eq_ok_iff.1 read
      cases same
      exact .array (forall_of_items (fun cs json rest => ih) found)
    · intro cs json rest read
      obtain ⟨⟨members, behind⟩, found, same⟩ := map_eq_ok_iff.1 read
      cases same
      obtain ⟨sorted, each⟩ : Dictionary.Sorted members ∧
          ∀ member ∈ members, member.2.Readable depth := by
        -- Putting a member where its name belongs keeps the others as they are.
        refine invariant_of_members (P := fun members => Dictionary.Sorted members ∧
          ∀ member ∈ members, member.2.Readable depth) ?_ ⟨Dictionary.sorted_nil, by simp⟩ found
        rintro key first cs next rest ⟨sorted, each⟩ read
        obtain ⟨⟨json, behind⟩, found, same⟩ := map_eq_ok_iff.1 read
        cases same
        refine ⟨Dictionary.sorted_insert key json sorted, fun member mem => ?_⟩
        rcases Dictionary.mem_insert mem with rfl | mem
        · rw [afterColon] at found
          split at found
          · exact ih found
          · cases found
        · exact each member mem
      exact .object sorted each

theorem exists_of_readText {α : Type} {reader : Reader α} {text : String} {a : α}
    (read : readText reader text = .ok a) : ∃ cs rest, reader cs = .ok (a, rest) := by
  rw [readText, readAll] at read
  split at read
  · cases read
  · next rest result =>
    split at read
    · cases read
      exact ⟨_, rest, result⟩
    · cases read

end JsonText

end ImageCatalog
