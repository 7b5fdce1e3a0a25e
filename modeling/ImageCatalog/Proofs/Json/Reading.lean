import ImageCatalog.Json.Shape
import ImageCatalog.Proofs.Json.Numbers
import Mathlib.Data.List.DropRight

set_option autoImplicit false

namespace ImageCatalog

namespace JsonText

open Text (Decoded)

def Blanks (cs : List Char) : Prop := ∀ c ∈ cs, isBlank c = true

theorem blanks_nil : Blanks [] := fun _ mem => absurd mem List.not_mem_nil

def IgnoresBlank {α : Type} (reader : Reader α) : Prop := ∀ cs, reader (skipBlank cs) = reader cs

theorem skipBlank_skipBlank (cs : Decoded) : skipBlank (skipBlank cs) = skipBlank cs :=
  List.dropWhile_idempotent ..

theorem skipBlank_append {blanks : List Char} (all : Blanks blanks) (cs : Decoded) :
    skipBlank (blanks.map some ++ cs) = skipBlank cs := by
  induction blanks with
  | nil => rfl
  | cons c blanks ih =>
    have first : isBlank c = true := all c List.mem_cons_self
    have others := ih fun d mem => all d (List.mem_cons_of_mem c mem)
    rw [List.map_cons, List.cons_append, skipBlank, List.dropWhile_cons_of_pos]
    · exact others
    · simpa using first

theorem skipBlank_cons {c : Char} (visible : isBlank c = false) (cs : Decoded) :
    skipBlank (some c :: cs) = some c :: cs := by
  rw [skipBlank, List.dropWhile_cons_of_neg]
  simp [visible]

theorem IgnoresBlank.append {α : Type} {reader : Reader α} (ignores : IgnoresBlank reader)
    {blanks : List Char} (all : Blanks blanks) (cs : Decoded) :
    reader (blanks.map some ++ cs) = reader cs := by
  rw [← ignores (blanks.map some ++ cs), skipBlank_append all, ignores]

theorem Reads.blanks {α : Type} {reader : Reader α} (ignores : IgnoresBlank reader)
    {blanks : List Char} (all : Blanks blanks) {text : List Char} {a : α}
    (reads : Reads reader text a) : Reads reader (blanks ++ text) a := by
  intro rest ends
  rw [List.map_append, List.append_assoc, ignores.append all]
  exact reads rest ends

theorem endsNumber_append {blanks : List Char} (all : Blanks blanks) {c : Char}
    (closes : c = ',' ∨ c = ']' ∨ c = '\x7d') (rest : Decoded) :
    EndsNumber (blanks.map some ++ some c :: rest) := by
  intro d first
  have among : d = ' ' ∨ d = '\t' ∨ d = '\n' ∨ d = '\r' ∨ d = ',' ∨ d = ']' ∨ d = '\x7d' := by
    rcases blanks with _ | ⟨b, blanks⟩
    · obtain rfl : c = d := by simpa using first
      tauto
    · obtain rfl : b = d := by simpa using first
      have blank := all b List.mem_cons_self
      simp only [isBlank, Bool.or_eq_true, beq_iff_eq] at blank
      tauto
  rcases among with rfl | rfl | rfl | rfl | rfl | rfl | rfl <;> decide

theorem endsNumber_nil : EndsNumber [] := by
  intro c first
  simp at first

theorem hexValue?_hexDigit : ∀ n < 16, hexValue? (Text.hexDigit n) = some n := by decide

theorem stringBody_stringChar (c : Char) (cs : Decoded) :
    stringBody ((Json.stringChar c).map some ++ cs) = prepend c (stringBody cs) := by
  rw [Json.stringChar.eq_def]
  split
  iterate 7 rfl
  split
  · next control =>
    have high := hexValue?_hexDigit (c.toNat / 16) (by omega)
    have low := hexValue?_hexDigit (c.toNat % 16) (by omega)
    have zero : hexValue? '0' = some 0 := by decide
    have unit : codeUnit? '0' '0' (Text.hexDigit (c.toNat / 16)) (Text.hexDigit (c.toNat % 16)) =
        some c.toNat := by
      simp only [codeUnit?, zero, high, low, bind, Option.bind, pure]
      congr 1
      omega
    have notHigh : isHighSurrogate c.toNat = false := by
      rw [isHighSurrogate, decide_eq_false_iff_not]
      omega
    have notLow : isLowSurrogate c.toNat = false := by
      rw [isLowSurrogate, decide_eq_false_iff_not]
      omega
    simp only [List.map_cons, List.map_nil, List.cons_append, List.nil_append]
    rw [stringBody]
    simp only [unit, notHigh, notLow, Bool.false_eq_true, if_false, Char.ofNat_toNat]
  · next quote escape _ _ _ _ _ visible =>
    have large : ¬(c.toNat < 0x20 || c == '\\') = true := by
      simpa using ⟨Nat.not_lt.1 visible, escape⟩
    simp only [List.map_cons, List.map_nil, List.cons_append, List.nil_append]
    rw [stringBody, if_neg large]
    all_goals simp_all

theorem stringBody_flatMap (cs : List Char) (rest : Decoded) :
    stringBody ((cs.flatMap Json.stringChar).map some ++ some '"' :: rest) = .ok (cs, rest) := by
  induction cs with
  | nil => rfl
  | cons c cs ih =>
    rw [List.flatMap_cons, List.map_append, List.append_assoc, stringBody_stringChar, ih]
    rfl

theorem string_read (s : String) (rest : Decoded) :
    string ((s.toList.flatMap Json.stringChar ++ ['"']).map some ++ rest) = .ok (s, rest) := by
  rw [List.map_append, List.append_assoc]
  simp only [List.map_cons, List.map_nil, List.cons_append, List.nil_append]
  rw [string, stringBody_flatMap]
  exact congrArg (fun s => Except.ok (s, rest)) String.ofList_toList

structure BlankStyle (style : Json.Style) : Prop where
  lineBreak : ∀ level, Blanks (style.lineBreak level)
  gap : Blanks style.gap

theorem blankStyle_compact : BlankStyle .compact where
  lineBreak _ := blanks_nil
  gap := blanks_nil

theorem blankStyle_lines (indent : Nat) : BlankStyle (.lines indent) where
  lineBreak level c mem := by
    rcases List.mem_cons.1 mem with rfl | mem
    · rfl
    · rw [List.eq_of_mem_replicate mem]
      rfl
  gap c mem := by
    rw [List.mem_singleton.1 mem]
    rfl

section Containers

variable {style : Json.Style}

def arrayRest (style : Json.Style) (level : Nat) (items : List Json) : List Char :=
  if items.isEmpty then [']']
  else Json.itemsText style (level + 1) items ++ style.lineBreak level ++ [']']

def objectRest (style : Json.Style) (level : Nat) (members : List (String × Json)) : List Char :=
  if members.isEmpty then ['\x7d']
  else Json.membersText style (level + 1) members ++ style.lineBreak level ++ ['\x7d']

theorem textAt_array (level : Nat) (items : List Json) :
    Json.textAt style level (.array items) = '[' :: arrayRest style level items := by
  cases items <;> rw [Json.textAt, arrayRest] <;> rfl

theorem textAt_object (level : Nat) (members : List (String × Json)) :
    Json.textAt style level (.object members) = '\x7b' :: objectRest style level members := by
  cases members <;> rw [Json.textAt, objectRest] <;> rfl

def itemsTail (style : Json.Style) (level : Nat) (items : List Json) : List Char :=
  if items.isEmpty then [] else ',' :: Json.itemsText style level items

def membersTail (style : Json.Style) (level : Nat) (members : List (String × Json)) : List Char :=
  if members.isEmpty then [] else ',' :: Json.membersText style level members

theorem itemsText_cons (level : Nat) (item : Json) (items : List Json) :
    Json.itemsText style level (item :: items) = style.lineBreak level ++
      Json.textAt style level item ++ itemsTail style level items := by
  rw [Json.itemsText]
  rfl

theorem membersText_cons (level : Nat) (name : String) (value : Json)
    (members : List (String × Json)) :
    Json.membersText style level ((name, value) :: members) = style.lineBreak level ++
      Json.stringText name ++ ':' :: style.gap ++ Json.textAt style level value ++
        membersTail style level members := by
  rw [Json.membersText]
  rfl

theorem length_le_itemsTail (style : Json.Style) (level : Nat) (items : List Json) :
    items.length ≤ (itemsTail style level items).length := by
  induction items with
  | nil => exact Nat.zero_le _
  | cons item items ih =>
    rw [itemsTail, List.isEmpty_cons, if_neg Bool.false_ne_true, itemsText_cons]
    simp only [List.length_cons, List.length_append]
    omega

theorem length_le_membersTail (style : Json.Style) (level : Nat) (members : List (String × Json)) :
    members.length ≤ (membersTail style level members).length := by
  induction members with
  | nil => exact Nat.zero_le _
  | cons member members ih =>
    obtain ⟨name, value⟩ := member
    rw [membersTail, List.isEmpty_cons, if_neg Bool.false_ne_true, membersText_cons]
    simp only [List.length_cons, List.length_append]
    omega

theorem itemsFrom_read {item : Reader Json} (ignores : IgnoresBlank item) (blank : BlankStyle style)
    {reread : Json → Json} {level : Nat} {first : Json} {items : List Json}
    (each : ∀ json ∈ first :: items, Reads item (Json.textAt style level json) (reread json))
    {front back : List Char} (before : Blanks front) (behind : Blanks back) {fuel : Nat}
    (enough : items.length < fuel) (rest : Decoded) :
    itemsFrom item fuel ((front ++ Json.textAt style level first ++ itemsTail style level items ++
      back).map some ++ some ']' :: rest) = .ok ((first :: items).map reread, rest) := by
  -- Behind a comma another item comes first, after a line break and with less fuel.
  induction items generalizing first front fuel with
  | nil =>
    obtain ⟨fuel, rfl⟩ := Nat.exists_eq_add_one_of_ne_zero (Nat.pos_iff_ne_zero.1 enough)
    have found := (each first List.mem_cons_self).blanks ignores before _
      (endsNumber_append behind (.inr (.inl rfl)) rest)
    have close := skipBlank_append behind (some ']' :: rest)
    rw [skipBlank_cons (by decide)] at close
    simp only [itemsTail, List.isEmpty_nil, if_true, List.append_nil]
    rw [List.map_append, List.append_assoc, itemsFrom, found]
    simp only [close, List.map_cons, List.map_nil]
  | cons second items ih =>
    obtain ⟨fuel, rfl⟩ := Nat.exists_eq_add_one_of_ne_zero
      (Nat.pos_iff_ne_zero.1 (Nat.lt_of_le_of_lt (Nat.zero_le _) enough))
    have others := ih (fun json mem => each json (List.mem_cons_of_mem first mem))
      (blank.lineBreak level) (Nat.lt_of_succ_lt_succ enough)
    have found := (each first List.mem_cons_self).blanks ignores before _
      (endsNumber_append blanks_nil (.inl rfl)
        ((Json.itemsText style level (second :: items) ++ back).map some ++ some ']' :: rest))
    simp only [itemsTail, List.isEmpty_cons, Bool.false_eq_true, if_false]
    simp only [List.map_append, List.map_cons, List.map_nil, List.append_assoc, List.cons_append,
      List.nil_append] at found others ⊢
    rw [itemsFrom, found]
    simp only [skipBlank_cons (show isBlank ',' = false by decide), itemsText_cons, List.map_append,
      List.append_assoc, others]
    rfl

/-- What the members of an object make of a state, one after the other. -/
inductive Takes {σ : Type} (member : String → σ → Reader σ) (style : Json.Style) (level : Nat) :
    σ → List (String × Json) → σ → Prop
  | nil (state : σ) : Takes member style level state [] state
  | cons {first next last : σ} {name : String} {value : Json} {members : List (String × Json)} :
      Reads (member name first) (':' :: (style.gap ++ Json.textAt style level value)) next →
      Takes member style level next members last →
      Takes member style level first ((name, value) :: members) last

theorem memberName_read {front : List Char} (before : Blanks front) (name : String)
    (rest : Decoded) :
    memberName string ((front ++ Json.stringText name).map some ++ rest) = .ok (name, rest) := by
  have quote := skipBlank_cons (show isBlank '"' = false by decide)
    ((name.toList.flatMap Json.stringChar ++ ['"']).map some ++ rest)
  rw [List.map_append, List.append_assoc, memberName, skipBlank_append before, Json.stringText,
    List.cons_append, List.map_cons, List.cons_append, quote]
  exact string_read name rest

theorem membersFrom_read {σ : Type} {member : String → σ → Reader σ} (blank : BlankStyle style)
    {level : Nat} {first last : σ} {name : String} {value : Json} {members : List (String × Json)}
    (takes : Takes member style level first ((name, value) :: members) last)
    {front back : List Char} (before : Blanks front) (behind : Blanks back) {fuel : Nat}
    (enough : members.length < fuel) (rest : Decoded) :
    membersFrom string member fuel first ((front ++ Json.stringText name ++ ':' :: style.gap ++
      Json.textAt style level value ++ membersTail style level members ++ back).map some ++
        some '\x7d' :: rest) = .ok (last, rest) := by
  induction members generalizing first name value front fuel with
  | nil =>
    obtain ⟨fuel, rfl⟩ := Nat.exists_eq_add_one_of_ne_zero (Nat.pos_iff_ne_zero.1 enough)
    obtain _ | ⟨reads, _ | _⟩ := takes
    have found := reads _ (endsNumber_append behind (.inr (.inr rfl)) rest)
    have close := skipBlank_append behind (some '\x7d' :: rest)
    rw [skipBlank_cons (by decide)] at close
    have named := fun cs => memberName_read before name cs
    simp only [membersTail, List.isEmpty_nil, if_true, List.append_nil]
    simp only [List.map_append, List.map_cons, List.append_assoc, List.cons_append] at found named ⊢
    rw [membersFrom, named]
    simp only [found, close]
  | cons second members ih =>
    obtain ⟨fuel, rfl⟩ := Nat.exists_eq_add_one_of_ne_zero
      (Nat.pos_iff_ne_zero.1 (Nat.lt_of_le_of_lt (Nat.zero_le _) enough))
    obtain ⟨other, json⟩ := second
    obtain _ | ⟨reads, takes⟩ := takes
    have others := ih takes (blank.lineBreak level) (Nat.lt_of_succ_lt_succ enough)
    have found := reads _
      (endsNumber_append blanks_nil (.inl rfl)
        ((Json.membersText style level ((other, json) :: members) ++ back).map some ++
          some '\x7d' :: rest))
    have named := fun cs => memberName_read before name cs
    simp only [membersTail, List.isEmpty_cons, Bool.false_eq_true, if_false]
    rw [membersText_cons] at found ⊢
    simp only [List.map_append, List.map_cons, List.map_nil, List.append_assoc, List.cons_append,
      List.nil_append] at found others named ⊢
    rw [membersFrom, named]
    simp only [found, skipBlank_cons (show isBlank ',' = false by decide), others]

theorem members_read {σ : Type} {member : String → σ → Reader σ} (blank : BlankStyle style)
    {level : Nat} {first last : σ} {members : List (String × Json)}
    (takes : Takes member style (level + 1) first members last) (rest : Decoded) :
    JsonText.members string member first ((objectRest style level members).map some ++ rest) =
      .ok (last, rest) := by
  rcases members with _ | ⟨⟨name, value⟩, members⟩
  · obtain _ | _ := takes
    rfl
  · have enough := length_le_membersTail style (level + 1) members
    have body := fun fuel (more : members.length < fuel) =>
      membersFrom_read blank takes blanks_nil (blank.lineBreak level) more rest
    have unfolded : objectRest style level ((name, value) :: members) =
        style.lineBreak (level + 1) ++ (Json.stringText name ++ ':' :: style.gap ++
          Json.textAt style (level + 1) value ++ membersTail style (level + 1) members ++
            style.lineBreak level ++ ['\x7d']) := by
      simp [objectRest, membersText_cons]
    have quote := skipBlank_cons (show isBlank '"' = false by decide)
    rw [unfolded, List.map_append, List.append_assoc, JsonText.members,
      skipBlank_append (blank.lineBreak _)]
    simp only [Json.stringText, List.map_append, List.map_cons, List.map_nil, List.append_assoc,
      List.cons_append, List.nil_append] at body ⊢
    rw [quote]
    split
    · next same => simp at same
    · exact body _ (by simp only [List.length_cons, List.length_append, List.length_map]; omega)

/-- An array is read behind its opening bracket. No item begins with a closing bracket, as no item
could then be read. -/
theorem items_read {item : Reader Json} (ignores : IgnoresBlank item) (blank : BlankStyle style)
    {reread : Json → Json} {level : Nat} {items : List Json}
    (each : ∀ json ∈ items, Reads item (Json.textAt style (level + 1) json) (reread json))
    (opens : ∀ json ∈ items, ∃ c cs, Json.textAt style (level + 1) json = c :: cs ∧
      isBlank c = false ∧ c ≠ ']')
    (rest : Decoded) :
    JsonText.items item ((arrayRest style level items).map some ++ rest) =
      .ok (items.map reread, rest) := by
  rcases items with _ | ⟨first, items⟩
  · rfl
  · have enough := length_le_itemsTail style (level + 1) items
    have body := fun fuel (more : items.length < fuel) =>
      itemsFrom_read ignores blank each blanks_nil (blank.lineBreak level) more rest
    have unfolded : arrayRest style level (first :: items) =
        style.lineBreak (level + 1) ++ (Json.textAt style (level + 1) first ++
          itemsTail style (level + 1) items ++ style.lineBreak level ++ [']']) := by
      simp [arrayRest, itemsText_cons]
    obtain ⟨c, cs, text, visible, other⟩ := opens first List.mem_cons_self
    rw [unfolded, List.map_append, List.append_assoc, JsonText.items,
      skipBlank_append (blank.lineBreak _)]
    simp only [text, List.map_append, List.map_cons, List.map_nil, List.append_assoc,
      List.cons_append, List.nil_append] at body ⊢
    rw [skipBlank_cons visible]
    split
    · next same => simp_all
    · exact body _ (by simp only [List.length_cons, List.length_append, List.length_map]; omega)

end Containers

end JsonText

end ImageCatalog
