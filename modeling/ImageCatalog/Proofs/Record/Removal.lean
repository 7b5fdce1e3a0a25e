import ImageCatalog.Proofs.Record.Numbering

set_option autoImplicit false

namespace ImageCatalog

section Items

variable {β : Type} {p : β → Bool} {a : β}

private theorem concat_eq_cons_iff {b : β} {l : List β} :
    l ++ [a] = b :: l ↔ ∀ c ∈ b :: l, c = a := by
  induction l generalizing b with
  | nil => simp [eq_comm]
  | cons c l ih =>
    rw [List.cons_append, List.cons.injEq, ih, List.forall_mem_cons (a := b)]
    constructor
    · rintro ⟨rfl, alike⟩
      exact ⟨alike c List.mem_cons_self, alike⟩
    · rintro ⟨rfl, alike⟩
      exact ⟨alike c List.mem_cons_self, alike⟩

/-- An item that satisfies the condition is put last and the first such item taken out: that gives
the same list iff from that item on there is only the one that is put last. -/
theorem eraseP_concat_eq_self_iff (holds : p a = true) (l : List β) :
    (l ++ [a]).eraseP p = l ↔ ∀ b ∈ l.dropWhile fun b => !p b, b = a := by
  induction l with
  | nil => simp [holds]
  | cons b l ih =>
    by_cases first : p b = true
    · rw [List.cons_append, List.eraseP_cons_of_pos first, concat_eq_cons_iff,
        List.dropWhile_cons_of_neg (by simp [first])]
    · rw [List.cons_append, List.eraseP_cons_of_neg first, List.cons.injEq, ih,
        List.dropWhile_cons_of_pos (by simp [first])]
      simp

end Items

namespace Table

variable {α : Type} [Record α] {t after : Table α} {n : RecordId} {r : α}

open Record (idOf withId)

/-- The second table is the first one without its first record with a number, which is `r`. -/
def WithoutFirst (t : Table α) (n : RecordId) (r : α) (after : Table α) : Prop :=
  ∃ before behind, t.records = before ++ r :: behind ∧ (∀ s ∈ before, idOf s ≠ n) ∧ idOf r = n ∧
    after = t.derive (before ++ behind)

theorem WithoutFirst.ne (without : t.WithoutFirst n r after) : after ≠ t := by
  obtain ⟨before, behind, records, -, -, rfl⟩ := without
  intro same
  have lengths := congrArg (fun t : Table α => t.records.length) same
  simp [derive, records] at lengths

theorem delete_cases (t : Table α) (n : RecordId) :
    n ∉ t.ids ∧ t.delete n = (none, t) ∨
      ∃ r after, t.WithoutFirst n r after ∧ t.delete n = (some r, after) := by
  rw [delete, deleteWhere]
  cases found : t.records.find? fun r => idOf r == n with
  | none =>
    have none : ∀ r ∈ t.records, ¬(idOf r == n) = true := List.find?_eq_none.1 found
    refine Or.inl ⟨?_, by rw [List.eraseP_of_forall_not none]; rfl⟩
    rintro member
    obtain ⟨r, inside, same⟩ := List.mem_map.1 member
    exact none r inside (beq_iff_eq.2 same)
  | some r =>
    obtain ⟨same, before, behind, records, others⟩ := List.find?_eq_some_iff_append.1 found
    have others : ∀ s ∈ before, ¬(idOf s == n) = true := fun s mem => by simpa using others s mem
    refine Or.inr ⟨r, t.derive (before ++ behind), ⟨before, behind, records, ?_,
      beq_iff_eq.1 same, rfl⟩, ?_⟩
    · exact fun s mem same => others s mem (beq_iff_eq.2 same)
    · rw [records, List.eraseP_append_right _ others]
      exact congrArg (fun l => (some r, t.derive (before ++ l))) (List.eraseP_cons_of_pos same)

/-- Removing the number of the record that was added gives the table back iff no record had it, or
all records from the first such one on are like the one added. -/
theorem delete_concat_eq_self_iff :
    ((t.derive (t.records ++ [r])).delete (idOf r)).2 = t ↔
      ∀ s ∈ t.records.dropWhile fun s => !(idOf s == idOf r), s = r := by
  rw [← eraseP_concat_eq_self_iff (p := fun s => idOf s == idOf r) (beq_self_eq_true _)]
  constructor
  · exact fun same => congrArg Table.records same
  · exact fun same => congrArg t.derive same

theorem delete_concat_of_fresh (fresh : idOf r ∉ t.ids) :
    ((t.derive (t.records ++ [r])).delete (idOf r)).2 = t := by
  have others : ∀ s ∈ t.records, ¬(idOf s == idOf r) = true := fun s inside same =>
    fresh (List.mem_map.2 ⟨s, inside, beq_iff_eq.1 same⟩)
  have erased : (t.records ++ [r]).eraseP (fun s => idOf s == idOf r) = t.records := by
    rw [List.eraseP_append_right _ others]
    simp
  exact congrArg t.derive erased

theorem delete_concat_of_mem (taken : idOf r ∈ t.ids) :
    ((t.derive (t.records ++ [r])).delete (idOf r)).2 =
      t.derive (t.records.eraseP (fun s => idOf s == idOf r) ++ [r]) := by
  obtain ⟨s, inside, same⟩ := List.mem_map.1 taken
  have erased : (t.records ++ [r]).eraseP (fun s => idOf s == idOf r) =
      t.records.eraseP (fun s => idOf s == idOf r) ++ [r] :=
    List.eraseP_append_left (by simpa using same) [r] inside
  exact congrArg t.derive erased

end Table

end ImageCatalog
