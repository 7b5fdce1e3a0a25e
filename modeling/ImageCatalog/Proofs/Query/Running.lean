import ImageCatalog.Proofs.Query.Selection

/-! The outcome of running a query on a table: the fault of a query that is not well formed, else
that of the first record it fails on, else the records it holds of. Every way of running a query has
this outcome, and with a fault none of them changes the table. -/

set_option autoImplicit false

namespace ImageCatalog

def Fault.of? {β : Type} : Except Fault β → Option Fault
  | .ok _ => none
  | .error fault => some fault

theorem Fault.of?_eq_none_iff {β : Type} {result : Except Fault β} :
    Fault.of? result = none ↔ ∃ b, result = .ok b := by
  cases result <;> simp [Fault.of?]

theorem Fault.of?_eq_some_iff {β : Type} {result : Except Fault β} {fault : Fault} :
    Fault.of? result = some fault ↔ result = .error fault := by
  cases result <;> simp [Fault.of?]

namespace Predicate

variable {α : Type} [Record α]

def fault? (p : Predicate) (records : List α) : Option Fault :=
  records.findSome? fun r => Fault.of? (p.eval r)

theorem fault?_eq_none_iff {p : Predicate} {rs : List α} :
    p.fault? rs = none ↔ ∀ r ∈ rs, ∃ b, p.eval r = .ok b := by
  rw [fault?, List.findSome?_eq_none_iff]
  exact forall₂_congr fun r _ => Fault.of?_eq_none_iff

theorem keep_eq_error_iff {p : Predicate} {rs : List α} {fault : Fault} :
    p.keep rs = .error fault ↔ p.fault? rs = some fault := by
  induction rs with
  | nil => simp [keep, fault?]
  | cons r rs ih =>
    rw [keep, fault?, List.findSome?_cons]
    cases value : p.eval r with
    | error first => simp [Fault.of?]
    | ok b => exact map_eq_error_iff.trans ih

theorem run_eq_error_iff {p : Predicate} {t : Table α} {fault : Fault} :
    p.run t = .error fault ↔ p.fault? t.records = some fault := by
  rw [run_eq_keep, map_eq_error_iff, keep_eq_error_iff]

theorem run_eq_ok_of_total {p : Predicate} {t : Table α}
    (total : ∀ r ∈ t.records, ∃ b, p.eval r = .ok b) :
    p.run t = .ok (t.only fun r => Outcome.holds (p.eval r)) := by
  have kept : p.keep t.records = .ok (t.records.filter fun r => Outcome.holds (p.eval r)) :=
    keep_eq_ok_iff.2 ⟨total, rfl⟩
  rw [run_eq_keep, kept]
  rfl

end Predicate

namespace Query

variable {α : Type} [Record α]

/-- The fault of a query on records: its own if it is not well formed, else that of the first record
it fails on. -/
def fault? (q : Query) (records : List α) : Option Fault :=
  match q.compile with
  | .error fault => some fault
  | .ok p => p.fault? records

theorem run_of_compile {q : Query} {p : Predicate} (compiled : q.compile = .ok p) (t : Table α) :
    q.run t = p.run t := by
  rw [run, compiled, Except.bind]

theorem run_eq_error_iff {q : Query} {t : Table α} {fault : Fault} :
    q.run t = .error fault ↔ q.fault? t.records = some fault := by
  cases compiled : q.compile with
  | error first =>
    rw [run, Query.fault?, compiled, Except.bind]
    simp
  | ok p =>
    rw [run_of_compile compiled, Predicate.run_eq_error_iff, Query.fault?, compiled]

theorem of?_run (q : Query) (t : Table α) : Fault.of? (q.run t) = q.fault? t.records := by
  cases result : q.run t with
  | error fault => exact (run_eq_error_iff.1 result).symm
  | ok kept =>
    cases faulty : q.fault? t.records with
    | none => rfl
    | some fault =>
      rw [run_eq_error_iff.2 faulty] at result
      simp at result

structure Gives (q : Query) (t kept : Table α) : Prop where
  run : q.run t = .ok kept
  compiled : ∀ p, q.compile = .ok p → p.run t = .ok kept
  select : t.select q false = (.ok kept, t)
  selectInPlace : t.select q true = (.ok kept, kept)
  retain : ∃ removed, t.retain q = (.ok removed, kept) ∧ kept.size + removed = t.size
  again : q.run kept = .ok kept

structure Refuses (q : Query) (t : Table α) (fault : Fault) : Prop where
  run : q.run t = .error fault
  compiled : ∀ p, q.compile = .ok p → p.run t = .error fault
  select : ∀ inPlace, t.select q inPlace = (.error fault, t)
  retain : t.retain q = (.error fault, t)

theorem gives_of_total {q : Query} {p : Predicate} {t : Table α} (compiled : q.compile = .ok p)
    (total : ∀ r ∈ t.records, ∃ b, p.eval r = .ok b) :
    q.Gives t (t.only fun r => Outcome.holds (p.eval r)) := by
  have result := Predicate.run_eq_ok_of_total total
  have whole : q.run t = .ok (t.only fun r => Outcome.holds (p.eval r)) := by
    rw [run_of_compile compiled, result]
  constructor
  case run => exact whole
  case compiled =>
    intro p' compiled'
    rw [← run_of_compile compiled', whole]
  case select =>
    rw [Table.select, whole]
    rfl
  case selectInPlace =>
    rw [Table.select, whole]
    rfl
  case retain =>
    have fewer : (t.only fun r => Outcome.holds (p.eval r)).size ≤ t.size :=
      List.length_filter_le _ _
    refine ⟨t.size - (t.only fun r => Outcome.holds (p.eval r)).size, ?_, by omega⟩
    rw [Table.retain, compiled]
    dsimp only
    rw [Predicate.retain, result]
    rfl
  case again => exact run_eq_self whole fun _ member => member

theorem refuses_of_fault {q : Query} {t : Table α} {fault : Fault}
    (faulty : q.fault? t.records = some fault) : q.Refuses t fault := by
  have whole : q.run t = .error fault := run_eq_error_iff.2 faulty
  have each : ∀ p, q.compile = .ok p → p.run t = .error fault := by
    intro p compiled
    rw [← run_of_compile compiled, whole]
  constructor
  case run => exact whole
  case compiled => exact each
  case select =>
    intro inPlace
    rw [Table.select, whole]
  case retain =>
    -- Without a predicate nothing is run, so the fault is the query's own.
    rw [Table.retain]
    cases compiled : q.compile with
    | error first =>
      have same : first = fault := by
        rw [Query.fault?, compiled] at faulty
        exact Option.some.inj faulty
      rw [same]
    | ok p =>
      dsimp only
      rw [Predicate.retain, each p compiled]

/-- All ways of running a query agree. Without a fault they leave the records that the query holds
of, in order and under the same policy; with one they give it and leave the table alone. A true
predicate, which is not evaluated, is no exception. -/
theorem ways_agree (q : Query) (t : Table α) :
    (match q.fault? t.records with
      | none => ∃ p, q.compile = .ok p ∧ (∀ r ∈ t.records, ∃ b, p.eval r = .ok b) ∧
          q.Gives t (t.only fun r => Outcome.holds (p.eval r))
      | some fault => q.Refuses t fault) ∧
      ∀ p : Predicate, p.run t = (p.keep t.records).map t.derive := by
  refine ⟨?_, fun p => p.run_eq_keep t⟩
  cases faulty : q.fault? t.records with
  | some fault => exact refuses_of_fault faulty
  | none =>
    cases compiled : q.compile with
    | error fault =>
      rw [Query.fault?, compiled] at faulty
      simp at faulty
    | ok p =>
      rw [Query.fault?, compiled] at faulty
      have total := Predicate.fault?_eq_none_iff.1 faulty
      exact ⟨p, rfl, total, gives_of_total compiled total⟩

/-- The second image has no width, so the first one, which is too narrow, stays too. -/
example : (Table.ofList [{ id := 1, fileName := "a.png", width := some 3 },
      { id := 2, fileName := "b.png" }] : Table Image).retain
        (empty.compare (.ofField "width") (.int 5) .ge) =
    (.error (.evaluation 2 "entity.width >= 5" (.typeMismatch "width" (some .int) none)),
      .ofList [{ id := 1, fileName := "a.png", width := some 3 },
        { id := 2, fileName := "b.png" }]) := rfl

end Query

end ImageCatalog
