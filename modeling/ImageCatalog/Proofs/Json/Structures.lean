import ImageCatalog.Proofs.Json.Accepted

set_option autoImplicit false

namespace ImageCatalog

namespace JsonText

open Text (Decoded)

theorem typeMismatch_ne_ok {α : Type} {expected : String} (cs : Decoded) (r : α × Decoded) :
    typeMismatch expected cs ≠ .ok r := by
  intro read
  rw [typeMismatch] at read
  split at read <;> first | cases read | skip
  all_goals
    obtain ⟨_, -, read⟩ := bind_eq_ok read
    cases read

section Fields

variable {α β : Type} {reader : Reader α}

theorem IgnoresBlank.map (ignores : IgnoresBlank reader) (f : α × Decoded → β × Decoded) :
    IgnoresBlank fun cs => (reader cs).map f := by
  intro cs
  exact congrArg (Except.map f) (ignores cs)

theorem Reads.map {text : List Char} {a : α} (reads : Reads reader text a) (f : α → β) :
    Reads (fun cs => (reader cs).map fun (a, rest) => (f a, rest)) text (f a) := by
  intro rest ends
  dsimp only
  rw [reads rest ends]
  rfl

theorem nullable_ignoresBlank (reader : Reader α) : IgnoresBlank (nullable reader) := by
  intro cs
  rw [nullable, nullable, skipBlank_skipBlank]

theorem reads_null (reader : Reader α) : Reads (nullable reader) ['n', 'u', 'l', 'l'] none :=
  fun _ _ => rfl

theorem reads_nullable {c : Char} {cs : List Char} {a : α} (reads : Reads reader (c :: cs) a)
    (visible : isBlank c = false) (other : c ≠ 'n') : Reads (nullable reader) (c :: cs) (some a) := by
  intro rest ends
  have found := reads rest ends
  rw [List.map_cons, List.cons_append] at found ⊢
  rw [nullable, skipBlank_cons visible]
  split
  · simp_all
  · simp only [found, Except.map]

theorem exists_of_nullable {cs rest : Decoded} {found : Option α}
    (read : nullable reader cs = .ok (found, rest)) :
    ∀ a ∈ found, ∃ cs, reader cs = .ok (a, rest) := by
  intro a mem
  obtain rfl : found = some a := mem
  rw [nullable] at read
  split at read
  · exact absurd (word_eq_ok read) (by simp)
  · obtain ⟨⟨b, behind⟩, found, same⟩ := map_eq_ok_iff.1 read
    cases same
    exact ⟨_, found⟩

theorem reads_stringValue (expected s : String) :
    Reads (stringValue expected) (Json.stringText s) s := by
  intro rest _
  rw [Json.stringText, List.cons_append, List.map_cons, List.cons_append, stringValue,
    skipBlank_cons (by decide)]
  exact string_read s rest

theorem reads_signed64 (n : Int64) : Reads signed64 (integerText n.toInt).toList n := by
  intro rest ends
  have readable := JsonNumber.readable_int64 n
  have found := reads_integer readable rest ends
  obtain ⟨c, cs, text, first⟩ := exists_text_number readable
  change (integerText n.toInt).toList = c :: cs at text
  have starts := startsNumber_of_number found
  rw [text, List.map_cons, List.cons_append] at found starts ⊢
  rw [signed64, integerIn, skipBlank_cons (isBlank_eq_false first)]
  dsimp only
  rw [if_pos starts, found]
  simp only [if_pos (And.intro n.minValue_le_toInt n.toInt_le), Except.map, Int64.ofInt_toInt]

theorem sequence_ignoresBlank (item : Reader α) : IgnoresBlank (sequence item) := by
  intro cs
  rw [sequence, sequence, skipBlank_skipBlank]

theorem reads_sequence {style : Json.Style} (blank : BlankStyle style) {depth level : Nat}
    {items : List Json} (readable : ∀ json ∈ items, json.Readable depth) :
    Reads (sequence (value depth)) (Json.textAt style level (.array items))
      (items.map Json.reread) := by
  intro rest _
  rw [textAt_array, List.map_cons, List.cons_append, sequence, skipBlank_cons (by decide)]
  exact items_read (value_ignoresBlank depth) blank
    (fun json mem => reads_value blank (readable json mem) (level + 1))
    (fun json mem => exists_textAt (readable json mem) style (level + 1)) rest

theorem readable_of_sequence {depth : Nat} {cs rest : Decoded} {found : List Json}
    (read : sequence (value depth) cs = .ok (found, rest)) :
    ∀ json ∈ found, json.Readable depth := by
  rw [sequence] at read
  split at read
  · exact forall_of_items (fun _ _ _ => readable_of_value) read
  · exact absurd read (typeMismatch_ne_ok _ _)

end Fields

namespace Shape

variable {σ : Type} {shape : Shape σ}

theorem reads_member {style : Json.Style} (blank : BlankStyle style) {name : String}
    {state : σ × List String} {slot : Slot σ} (known : shape.find? name = some slot)
    (fresh : state.2.contains name = false) (ignores : IgnoresBlank (slot.read state.1))
    {text : List Char} {found : σ} (reads : Reads (slot.read state.1) text found) :
    Reads (shape.member name state) (':' :: (style.gap ++ text)) (found, name :: state.2) := by
  intro rest ends
  have value := reads.blanks ignores blank.gap rest ends
  rw [List.map_cons, List.cons_append, member, known]
  simp only [fresh, Bool.false_eq_true, if_false, afterColon,
    skipBlank_cons (show isBlank ':' = false by decide), value, Except.map]

theorem reads_object {style : Json.Style} (blankStyle : BlankStyle style) {level : Nat} {blank : σ}
    {last : σ × List String} {members : List (String × Json)}
    (takes : Takes shape.member style (level + 1) (blank, []) members last)
    (complete : shape.missing? last.2 = none) :
    Reads (shape.read blank) (Json.textAt style level (.object members)) last.1 := by
  intro rest _
  have found := members_read blankStyle takes rest
  rw [textAt_object, List.map_cons, List.cons_append, read, skipBlank_cons (by decide)]
  simp only [found, complete]

variable {P : σ → Prop}

def Preserves (shape : Shape σ) (P : σ → Prop) : Prop :=
  ∀ slot ∈ shape.slots, ∀ first cs next rest, P first → slot.read first cs = .ok (next, rest) →
    P next

theorem invariant_of_positional {slots : List (Slot σ)}
    (step : ∀ slot ∈ slots, ∀ first cs next rest, P first →
      slot.read first cs = .ok (next, rest) → P next)
    {position : Nat} {first last : σ} {cs rest : Decoded} (start : P first)
    (read : shape.positional position first slots cs = .ok (last, rest)) : P last := by
  induction slots generalizing position first cs with
  | nil =>
    rw [positional] at read
    split at read
    · cases read
      exact start
    · cases read
  | cons slot slots ih =>
    have others := fun slot' mem => step slot' (List.mem_cons_of_mem slot mem)
    rw [positional] at read
    split at read
    · cases read
    · split at read
      · cases read
      · next next behind result =>
        exact ih others (step slot List.mem_cons_self _ _ _ _ start result) read
    · split at read
      · cases read
      · exact ih others start read

theorem invariant_of_member (preserves : shape.Preserves P) {name : String}
    {first next : σ × List String} {cs rest : Decoded} (start : P first.1)
    (read : shape.member name first cs = .ok (next, rest)) : P next.1 := by
  rw [member] at read
  split at read
  · obtain ⟨_, -, same⟩ := map_eq_ok_iff.1 read
    cases same
    exact start
  · next slot known =>
    split at read
    · cases read
    · obtain ⟨⟨found, behind⟩, value, same⟩ := map_eq_ok_iff.1 read
      cases same
      rw [afterColon] at value
      split at value
      · exact preserves slot (List.mem_of_find?_eq_some known) _ _ _ _ start value
      · cases value

theorem invariant_of_read (preserves : shape.Preserves P) {blank found : σ} (start : P blank)
    {cs rest : Decoded} (result : shape.read blank cs = .ok (found, rest)) : P found := by
  rw [read] at result
  split at result
  · exact invariant_of_positional preserves start result
  · split at result
    · cases result
    · next state given behind read =>
      have held := invariant_of_members (P := fun state : σ × List String => P state.1)
        (fun _ _ _ _ _ => invariant_of_member preserves) start read
      split at result
      · cases result
      · cases result
        exact held
  · exact absurd result (typeMismatch_ne_ok _ _)

end Shape

end JsonText

end ImageCatalog
