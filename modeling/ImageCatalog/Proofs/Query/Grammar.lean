import ImageCatalog.Proofs.Query.Items

/-! The grammar of queries. Main statement: what compiles is nothing, or terms with at most one
connective between any two neighbours; of anything else, the connective is reported that is met
first in reading; and no group of what compiles is without a term. -/

set_option autoImplicit false

namespace ImageCatalog

namespace Query

/-- A term, and then any number of terms, each with or without a connective before it. -/
inductive Sequence : List Item → Prop
  | last (t : Term) : Sequence [.term t]
  | next (t : Term) {items : List Item} : Sequence items → Sequence (.term t :: items)
  | joined (t : Term) (op : Connective) {items : List Item} : Sequence items →
      Sequence (.term t :: .connective op :: items)

def Grammatical (items : List Item) : Prop := items = [] ∨ Sequence items

/-- The misplaced connective that is to be reported: the one at the start, else the first one right
after another one, with the number of items before it, else the one at the end. -/
inductive Reported : List Item → Misplaced → Prop
  | leading (op : Connective) (items : List Item) :
      Reported (.connective op :: items) (.leading op)
  | doubled (before : List Item) (first op : Connective) (after : List Item) :
      (∃ t, before.head? = some (.term t)) →
      (before ++ [Item.connective first]).IsChain Item.Apart →
      Reported (before ++ .connective first :: .connective op :: after)
        (.doubled op (before.length + 1))
  | trailing (before : List Item) (op : Connective) : (∃ t, before.head? = some (.term t)) →
      (before ++ [Item.connective op]).IsChain Item.Apart →
      Reported (before ++ [Item.connective op]) (.trailing op)

theorem Sequence.starts {items : List Item} (sequence : Sequence items) :
    ∃ t rest, items = .term t :: rest := by
  cases sequence with
  | last t => exact ⟨t, _, rfl⟩
  | next t _ => exact ⟨t, _, rfl⟩
  | joined t _ _ => exact ⟨t, _, rfl⟩

theorem Sequence.placed {items : List Item} (sequence : Sequence items) : Placed items := by
  induction sequence with
  | last t => exact placed_term t
  | next t _ ih => exact (placed_term t).append ih
  | joined t op rest ih =>
    obtain ⟨u, after, rfl⟩ := rest.starts
    have adjoining : Placed (.term t :: .term u :: after) := (placed_term t).append ih
    exact (@placed_connective_iff [] after t u op).2 adjoining

private theorem Placed.tail {item : Item} {t : Term} {items : List Item}
    (placed : Placed (item :: .term t :: items)) : Placed (.term t :: items) where
  starts next mem := by
    cases mem
    rfl
  ends last mem := placed.ends last (by rwa [List.getLast?_cons_cons])
  apart := placed.apart.tail

theorem Placed.sequence : {items : List Item} → Placed items → items ≠ [] → Sequence items
  | [], _, nonempty => absurd rfl nonempty
  | .connective op :: items, placed, _ => by simpa [Item.isTerm] using placed.starts _ rfl
  | [.term t], _, _ => .last t
  | .term t :: .term u :: items, placed, _ => .next t (placed.tail.sequence (List.cons_ne_nil _ _))
  | [.term t, .connective op], placed, _ => by simpa [Item.isTerm] using placed.ends _ rfl
  | .term t :: .connective op :: .connective op' :: items, placed, _ => by
    have apart := placed.apart
    simp [Item.Apart, Item.isTerm] at apart
  | .term t :: .connective op :: .term u :: items, placed, _ =>
    .joined t op (((@placed_connective_iff [] items t u op).1 placed).tail.sequence
      (List.cons_ne_nil _ _))

theorem placed_iff_grammatical {items : List Item} : Placed items ↔ Grammatical items := by
  constructor
  · intro placed
    rcases eq_or_ne items [] with empty | nonempty
    · exact Or.inl empty
    · exact Or.inr (placed.sequence nonempty)
  · rintro (rfl | sequence)
    · exact placed_nil
    · exact sequence.placed

private theorem not_isChain_doubled (before : List Item) (first op : Connective) :
    ¬(before ++ [Item.connective first, .connective op]).IsChain Item.Apart := by
  rw [List.isChain_append]
  simp [Item.Apart, Item.isTerm]

private theorem length_le_of_doubled {before before' rest rest' : List Item}
    {first op first' : Connective}
    (same : before ++ .connective first :: .connective op :: rest =
      before' ++ .connective first' :: rest')
    (apart : (before' ++ [Item.connective first']).IsChain Item.Apart) :
    before'.length ≤ before.length := by
  by_contra! shorter
  have doubled : before ++ [Item.connective first, .connective op] <+:
      before' ++ .connective first' :: rest' := ⟨rest, by simp [← same]⟩
  have single : before' ++ [Item.connective first'] <+: before' ++ .connective first' :: rest' :=
    ⟨rest', by simp⟩
  obtain ⟨more, reaches⟩ := List.prefix_of_prefix_length_le doubled single (by simp; omega)
  rw [← reaches] at apart
  exact not_isChain_doubled before first op apart.left_of_append

private theorem doubled?_eq_some_iff {read items : List Item} {afterConnective : Bool}
    {m : Misplaced} (apart : read.IsChain Item.Apart)
    (last : afterConnective = true ↔ ∃ op, read.getLast? = some (.connective op)) :
    doubled? read.length afterConnective items = some m ↔ ∃ before first op after,
      read ++ items = before ++ .connective first :: .connective op :: after ∧
        (before ++ [Item.connective first]).IsChain Item.Apart ∧
          m = .doubled op (before.length + 1) := by
  induction items generalizing read afterConnective with
  | nil =>
    simp only [doubled?, reduceCtorEq, false_iff, List.append_nil]
    rintro ⟨before, first, op, after, rfl, -⟩
    have split : before ++ .connective first :: .connective op :: after =
        (before ++ [Item.connective first, .connective op]) ++ after := by simp
    rw [split] at apart
    exact not_isChain_doubled before first op apart.left_of_append
  | cons item items ih =>
    have read_cons : read ++ item :: items = (read ++ [item]) ++ items := by simp
    have length_cons : read.length + 1 = (read ++ [item]).length := by simp
    cases item with
    | term t =>
      have apart' : (read ++ [Item.term t]).IsChain Item.Apart := by
        rw [List.isChain_append]
        exact ⟨apart, List.isChain_singleton _, by simp [Item.Apart, Item.isTerm]⟩
      rw [doubled?, length_cons, read_cons]
      exact ih apart' (by simp)
    | connective op =>
      rw [doubled?]
      cases afterConnective with
      | false =>
        have apart' : (read ++ [Item.connective op]).IsChain Item.Apart := by
          rw [List.isChain_append]
          refine ⟨apart, List.isChain_singleton _, fun item mem _ _ => Or.inl ?_⟩
          cases item with
          | term t => rfl
          | connective first => exact absurd (last.2 ⟨first, mem⟩) Bool.false_ne_true
        rw [if_neg Bool.false_ne_true, length_cons, read_cons]
        exact ih apart' (by simp)
      | true =>
        obtain ⟨first, ends⟩ := last.1 rfl
        obtain ⟨before, rfl⟩ := List.getLast?_eq_some_iff.1 ends
        rw [if_pos rfl]
        constructor
        · intro found
          cases found
          exact ⟨before, first, op, items, by simp, apart, by simp⟩
        · rintro ⟨before', first', op', after, same, apart', rfl⟩
          rw [List.append_assoc, List.singleton_append] at same
          have lengths : before.length = before'.length :=
            Nat.le_antisymm (length_le_of_doubled same.symm apart) (length_le_of_doubled same apart')
          obtain ⟨rfl, rest⟩ := List.append_inj same lengths
          simp_all

theorem leading?_eq_some_iff {items : List Item} {m : Misplaced} :
    leading? items = some m ↔ ∃ op after, items = .connective op :: after ∧ m = .leading op := by
  cases items with
  | nil => simp [leading?]
  | cons item items => cases item <;> simp [leading?, eq_comm]

theorem trailing?_eq_some_iff {items : List Item} {m : Misplaced} :
    trailing? items = some m ↔
      ∃ before op, items = before ++ [Item.connective op] ∧ m = .trailing op := by
  rw [trailing?]
  rcases List.eq_nil_or_concat items with rfl | ⟨before, item, rfl⟩
  · simp
  · cases item <;> simp [eq_comm]

private theorem head?_isTerm_iff {before after : List Item} {op : Connective} :
    (∀ item ∈ (before ++ .connective op :: after).head?, item.isTerm = true) ↔
      ∃ t, before.head? = some (.term t) := by
  cases before with
  | nil => simp [Item.isTerm]
  | cons item before => cases item <;> simp [Item.isTerm]

theorem misplaced?_eq_some_iff {items : List Item} {m : Misplaced} :
    misplaced? items = some m ↔ Reported items m := by
  have doubles := @doubled?_eq_some_iff [] items false m List.isChain_nil (by simp)
  rw [misplaced?, Option.or_eq_some_iff, Option.or_eq_some_iff, leading?_eq_some_iff,
    leading?_eq_none_iff, trailing?_eq_some_iff, doubled?_eq_none_iff]
  rw [List.length_nil, List.nil_append] at doubles
  rw [doubles]
  constructor
  · rintro (⟨op, after, rfl, rfl⟩ | ⟨starts, ⟨before, first, op, after, rfl, apart, rfl⟩ |
      ⟨⟨apart, -⟩, before, op, rfl, rfl⟩⟩)
    · exact .leading op after
    · exact .doubled before first op after (head?_isTerm_iff.1 starts) apart
    · exact .trailing before op (head?_isTerm_iff.1 starts) apart
  · rintro (⟨op, after⟩ | ⟨before, first, op, after, starts, apart⟩ | ⟨before, op, starts, apart⟩)
    · exact Or.inl ⟨op, after, rfl, rfl⟩
    · exact Or.inr ⟨head?_isTerm_iff.2 starts, Or.inl ⟨before, first, op, after, rfl, apart, rfl⟩⟩
    · exact Or.inr ⟨head?_isTerm_iff.2 starts, Or.inr ⟨⟨apart, by simp⟩, before, op, rfl, rfl⟩⟩

theorem Sequence.groupsFrom_ne_nil {items : List Item} (sequence : Sequence items)
    (group : List Term) : ∀ g ∈ groupsFrom group items, g ≠ [] := by
  induction sequence generalizing group with
  | last t => simp [groupsFrom]
  | next t _ ih =>
    rw [groupsFrom]
    exact ih _
  | joined t op _ ih =>
    rw [groupsFrom]
    cases op with
    | and =>
      rw [groupsFrom]
      exact ih _
    | or =>
      rw [groupsFrom]
      intro g mem
      rcases List.mem_cons.1 mem with rfl | mem
      · simp
      · exact ih [] g mem

/-- What compiles are the grammatical items, whatever the constraints; anything else is refused for
the connective that is to be reported. What compiles has the terms between one `or` and the next for
its groups, and no group without a term. -/
theorem compile_recognizes (items : List Item) (constraints : List Intersection) :
    ((∃ p, compile ⟨items, constraints⟩ = .ok p) ↔ Grammatical items) ∧
      (∀ fault, compile ⟨items, constraints⟩ = .error fault ↔
        ∃ m, Reported items m ∧ fault = .malformedQuery m.message) ∧
      ∀ p, compile ⟨items, constraints⟩ = .ok p →
        (∀ group ∈ groups items, group ≠ []) ∧ (items ≠ [] → groups items = splitGroups items ∧
          body items = .anyOf ((groups items).map fun group => .allOf (group.map Term.predicate))) := by
  refine ⟨?_, fun fault => ?_, fun p compiled => ?_⟩
  · simp only [compile_eq_ok_iff, misplaced?_eq_none_iff, placed_iff_grammatical,
      exists_and_left, exists_eq, and_true]
  · simp only [← misplaced?_eq_some_iff]
    rw [compile]
    cases misplaced? items with
    | none => simp
    | some m => simp [eq_comm]
  · have placed := (compile_eq_ok_iff.1 compiled).1
    constructor
    · rcases placed_iff_grammatical.1 (misplaced?_eq_none_iff.1 placed) with rfl | sequence
      · simp [groups, groupsFrom]
      · exact sequence.groupsFrom_ne_nil []
    · intro nonempty
      have split := groups_eq (trailing?_of_misplaced? placed) nonempty
      refine ⟨split, ?_⟩
      rw [body, if_neg (by simp [split, splitGroups_ne_nil])]

/-- A second connective is reported with its position. Without it there are two groups. -/
theorem compile_recognizes_groups :
    let wide : Term := .compare (.ofField "width") .ge (.int 5)
    let high : Term := .compare (.ofField "height") .ge (.int 5)
    let items : List Item := [.term wide, .term high, .connective .or, .term wide]
    (∃ p, compile ⟨items, []⟩ = .ok p) ∧
      compile ⟨[.term wide, .connective .and, .connective .or, .term high], []⟩ =
        .error (.malformedQuery "logical operator or at position 2 follows another operator") ∧
      groups items = [[wide, high], [wide]] ∧ ∀ group ∈ groups items, group ≠ [] := by
  intro wide high items
  have chain : [Item.term wide, .connective .and].IsChain Item.Apart := by
    simp [Item.Apart, Item.isTerm]
  exact ⟨⟨_, rfl⟩, ((compile_recognizes _ _).2.1 _).2
    ⟨.doubled .or 2, .doubled [.term wide] .and .or [.term high] ⟨wide, rfl⟩ chain, rfl⟩, rfl,
    ((compile_recognizes items []).2.2 _ rfl).1⟩

end Query

end ImageCatalog
