import ImageCatalog.Proofs.Json.Floats
import ImageCatalog.Proofs.Json.Reading

set_option autoImplicit false

namespace ImageCatalog

/-- What text can hold, nested at most to a depth: numbers that can be read, and objects with their
members in order. -/
inductive Json.Readable : Nat → Json → Prop
  | null (depth : Nat) : Json.Readable depth .null
  | bool (depth : Nat) (b : Bool) : Json.Readable depth (.bool b)
  | number (depth : Nat) {n : JsonNumber} : n.Readable → Json.Readable depth (.number n)
  | string (depth : Nat) (s : String) : Json.Readable depth (.string s)
  | array {depth : Nat} {items : List Json} :
      (∀ json ∈ items, Json.Readable depth json) → Json.Readable (depth + 1) (.array items)
  | object {depth : Nat} {members : List (String × Json)} :
      Dictionary.Sorted members → (∀ member ∈ members, Json.Readable depth member.2) →
      Json.Readable (depth + 1) (.object members)

namespace Json

theorem Readable.isFinite {depth : Nat} {json : Json} (readable : json.Readable depth) :
    ∀ x ∈ json.floats, x.isFinite = true := by
  induction readable with
  | @number _ n readable =>
    cases n with
    | integer n => exact fun _ mem => absurd mem List.not_mem_nil
    | float x => exact List.forall_mem_singleton.2 readable
  | array _ ih => exact forall_floats_array_iff.2 ih
  | object _ _ ih => exact forall_floats_object_iff.2 ih
  | _ => exact fun _ mem => absurd mem List.not_mem_nil

theorem Readable.reread {depth : Nat} {json : Json} (readable : json.Readable depth) :
    json.reread.Readable depth := by
  induction readable with
  | null depth => exact .null depth
  | bool depth b => exact .bool depth b
  | @number depth n readable =>
    cases n with
    | integer n => exact .number depth readable
    | float x => exact .number depth (Binary64.reread_spec readable).1
  | string depth s => exact .string depth s
  | array _ ih =>
    rw [reread_array]
    exact .array (List.forall_mem_map.2 ih)
  | object sorted _ ih =>
    rw [reread_object]
    exact .object (List.pairwise_map.2 sorted) (List.forall_mem_map.2 ih)

theorem Readable.reread_eq_self_iff {depth : Nat} {json : Json} (readable : json.Readable depth) :
    json.reread = json ↔ json.ReadsBack := by
  induction readable with
  | @number _ n readable =>
    cases n with
    | integer n => simp [Json.reread, JsonNumber.reread, ReadsBack, floats]
    | float x =>
      rw [ReadsBack, floats, List.forall_mem_singleton, ← Binary64.reread_eq_self_iff readable]
      simp [Json.reread, JsonNumber.reread]
  | array _ ih =>
    rw [reread_array, readsBack_array_iff, array.injEq, map_eq_self_iff]
    exact forall₂_congr ih
  | @object _ members _ _ ih =>
    rw [reread_object, readsBack_object_iff, object.injEq, map_eq_self_iff]
    refine forall₂_congr fun member mem => ?_
    rw [← ih member mem]
    simp [Prod.ext_iff]
  | _ => simp [Json.reread, ReadsBack, floats]

end Json

namespace Dictionary

instance {α : Type} (entries : List (String × α)) : Decidable (Sorted entries) :=
  inferInstanceAs (Decidable (entries.Pairwise fun a b => a.1 < b.1))

theorem insert_eq_append {α : Type} {name : String} {value : α} {entries : List (String × α)}
    (past : ∀ entry ∈ entries, entry.1 < name) :
    insert name value entries = entries ++ [(name, value)] := by
  induction entries with
  | nil => rfl
  | cons head entries ih =>
    obtain ⟨key, other⟩ := head
    have below : key < name := past (key, other) List.mem_cons_self
    have behind : ¬name < key := fun above => String.lt_irrefl name (String.lt_trans above below)
    have differ : name ≠ key := fun same => String.lt_irrefl name (by rwa [same] at below ⊢)
    rw [insert, if_neg behind, if_neg differ,
      ih fun entry mem => past entry (List.mem_cons_of_mem _ mem)]
    rfl

theorem collect_eq_self {α : Type} {entries : List (String × α)} (sorted : Sorted entries) :
    collect entries = entries := by
  suffices ∀ found : List (String × α), Sorted (found ++ entries) →
      entries.foldl (fun found entry => insert entry.1 entry.2 found) found = found ++ entries from
    this [] sorted
  intro found
  induction entries generalizing found with
  | nil => simp
  | cons head entries ih =>
    intro ordered
    have past : ∀ entry ∈ found, entry.1 < head.1 :=
      fun entry mem => (List.pairwise_append.1 ordered).2.2 entry mem head List.mem_cons_self
    rw [List.foldl_cons, insert_eq_append past]
    have split : found ++ head :: entries = found ++ [head] ++ entries := by simp
    rw [split] at ordered ⊢
    exact ih (List.pairwise_append.1 ordered).2.1 _ ordered

end Dictionary

namespace JsonText

open Text (Decoded)

theorem startsNumber_of_number {cs : Decoded} {r : JsonNumber × Decoded}
    (read : number cs = .ok r) : startsNumber cs = true := by
  rcases cs with _ | ⟨_ | c, cs⟩
  · simp [number, numberParts, splitMinus, wholePart, digits, spanDigits, bind, Except.bind] at read
  · simp [number, numberParts, splitMinus, wholePart, digits, spanDigits, bind, Except.bind] at read
  · by_contra other
    simp only [startsNumber, Bool.or_eq_true, beq_iff_eq, not_or, Bool.not_eq_true] at other
    have zero : c ≠ '0' := by
      rintro rfl
      simp at other
    have sign : splitMinus (some c :: cs) = (false, some c :: cs) := by
      rw [splitMinus]
      rintro _ same
      simp_all
    have whole : wholePart (some c :: cs) = .error .grammar := by
      rw [wholePart]
      · simp [digits, spanDigits, other.2]
      · rintro _ same
        simp_all
    rw [number, sign] at read
    simp [numberParts, whole, bind, Except.bind] at read

theorem exists_text_number {n : JsonNumber} (readable : n.Readable) :
    ∃ c cs, n.text.toList = c :: cs ∧ (c = '-' ∨ c.isDigit = true) := by
  have starts := startsNumber_of_number (reads_number readable [] endsNumber_nil)
  generalize n.text.toList = text at starts ⊢
  rcases text with _ | ⟨c, cs⟩
  · simp [startsNumber] at starts
  · refine ⟨c, cs, rfl, ?_⟩
    simpa [startsNumber] using starts

theorem isBlank_eq_false {c : Char} (starts : c = '-' ∨ c.isDigit = true) :
    isBlank c = false := by
  rw [Bool.eq_false_iff]
  intro blank
  simp only [isBlank, Bool.or_eq_true, beq_iff_eq] at blank
  rcases blank with ((rfl | rfl) | rfl) | rfl <;> simp at starts

theorem exists_textAt {depth : Nat} {json : Json} (readable : json.Readable depth)
    (style : Json.Style) (level : Nat) :
    ∃ c cs, Json.textAt style level json = c :: cs ∧ isBlank c = false ∧ c ≠ ']' := by
  cases readable with
  | null => exact ⟨_, _, rfl, by decide, by decide⟩
  | bool _ b => cases b <;> exact ⟨_, _, rfl, by decide, by decide⟩
  | number _ readable =>
    obtain ⟨c, cs, text, starts⟩ := exists_text_number readable
    refine ⟨c, cs, by rw [Json.textAt, text], isBlank_eq_false starts, ?_⟩
    rintro rfl
    simp at starts
  | string => exact ⟨_, _, rfl, by decide, by decide⟩
  | array => exact ⟨_, _, textAt_array _ _, by decide, by decide⟩
  | object => exact ⟨_, _, textAt_object _ _, by decide, by decide⟩

theorem value_ignoresBlank (depth : Nat) : IgnoresBlank (value depth) := by
  intro cs
  cases depth <;> simp only [value, valueWith, skipBlank_skipBlank]

theorem valueWith_number {array object : Reader Json} {cs : Decoded}
    (starts : startsNumber cs = true) :
    valueWith array object cs = (number cs).map fun (n, rest) => (.number n, rest) := by
  rcases cs with _ | ⟨_ | c, cs⟩
  · simp [startsNumber] at starts
  · simp [startsNumber] at starts
  · simp only [startsNumber, Bool.or_eq_true, beq_iff_eq] at starts
    rw [valueWith, skipBlank_cons (isBlank_eq_false starts)]
    split <;> simp_all

theorem takes_addMember {depth : Nat} {style : Json.Style} (blank : BlankStyle style) {level : Nat}
    {reread : Json → Json} {found members : List (String × Json)}
    (sorted : Dictionary.Sorted (found ++ members))
    (each : ∀ member ∈ members,
      Reads (value depth) (Json.textAt style level member.2) (reread member.2)) :
    Takes (addMember (value depth)) style level found members
      (found ++ members.map fun member => (member.1, reread member.2)) := by
  induction members generalizing found with
  | nil =>
    rw [List.map_nil, List.append_nil]
    exact .nil found
  | cons member members ih =>
    obtain ⟨name, json⟩ := member
    -- Its name lies past all that were collected before, so the member is put last.
    have past : ∀ entry ∈ found, entry.1 < name :=
      fun entry mem => (List.pairwise_append.1 sorted).2.2 entry mem (name, json) List.mem_cons_self
    have read : Dictionary.Sorted (found ++ [(name, reread json)] ++ members) := by
      rw [Dictionary.Sorted, ← List.pairwise_map] at sorted ⊢
      simpa using sorted
    have split : found ++ ((name, json) :: members).map (fun member => (member.1, reread member.2)) =
        found ++ [(name, reread json)] ++
          members.map fun member => (member.1, reread member.2) := by simp
    rw [split]
    refine .cons ?_ (ih read fun member mem => each member (List.mem_cons_of_mem _ mem))
    intro rest ends
    have value := (each (name, json) List.mem_cons_self).blanks (value_ignoresBlank depth)
      blank.gap rest ends
    rw [List.map_cons, List.cons_append, addMember, afterColon, skipBlank_cons (by decide)]
    simp only [value, Except.map, Dictionary.insert_eq_append past]

/-- What is read does not depend on the white space that stands in a text. -/
theorem reads_value {style : Json.Style} (blank : BlankStyle style) {depth : Nat} {json : Json}
    (readable : json.Readable depth) (level : Nat) :
    Reads (value depth) (Json.textAt style level json) json.reread := by
  induction readable generalizing level with
  | null depth => cases depth <;> exact fun _ _ => rfl
  | bool depth b => cases depth <;> cases b <;> exact fun _ _ => rfl
  | @number depth n readable =>
    intro rest ends
    have found := reads_number readable rest ends
    have starts := startsNumber_of_number found
    cases depth <;> rw [value, Json.textAt, valueWith_number starts, found] <;> rfl
  | string depth s =>
    intro rest ends
    have found := string_read s rest
    cases depth <;> rw [value, Json.textAt, Json.stringText, List.cons_append, List.map_cons,
      List.cons_append, valueWith, skipBlank_cons (by decide)] <;>
      simp only [found, Except.map] <;> rfl
  | @array depth items readable ih =>
    intro rest ends
    have found := items_read (value_ignoresBlank depth) blank
      (fun json mem => ih json mem (level + 1))
      (fun json mem => exists_textAt (readable json mem) style (level + 1)) rest
    rw [value, textAt_array, List.map_cons, List.cons_append, valueWith,
      skipBlank_cons (by decide), Json.reread_array]
    simp only [found, Except.map]
  | @object depth members sorted readable ih =>
    intro rest ends
    have found := members_read blank
      (@takes_addMember _ _ blank _ _ [] _ sorted fun member mem => ih member mem (level + 1)) rest
    rw [value, textAt_object, List.map_cons, List.cons_append, valueWith,
      skipBlank_cons (by decide), Json.reread_object]
    simp only [found, Except.map, List.nil_append]

end JsonText

namespace Json

open JsonText (BlankStyle)

theorem parse_text {style : Style} (blank : BlankStyle style) {json : Json}
    (readable : json.Readable JsonText.depthLimit) :
    parse (text style json) = .ok json.reread := by
  apply JsonText.Reads.readText
  rw [text, String.toList_ofList]
  exact JsonText.reads_value blank readable 0

end Json

end ImageCatalog
