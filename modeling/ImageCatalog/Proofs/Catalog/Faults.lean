import ImageCatalog.Proofs.Catalog.Filtering
import ImageCatalog.Proofs.Query.Running

set_option autoImplicit false

namespace ImageCatalog

namespace Sections

def ownFault? {α : Type} [Record α] (t : Table α) (query : Option Query) : Option Fault :=
  query.bind fun q => q.fault? t.records

/-- The faults of the queries that fail by themselves. Images come first, then licenses, categories
and annotations. -/
def ownFaults (s : Sections) (queries : SectionQueries) : List Fault :=
  [ownFault? s.images queries.images, ownFault? s.licenses queries.licenses,
    ownFault? s.categories queries.categories,
    ownFault? s.annotations queries.annotations].reduceOption

private theorem of?_applyTo {α : Type} [Record α] (t : Table α) (query : Option Query) :
    Fault.of? (applyTo t query) = ownFault? t query := by
  cases query with
  | none => rfl
  | some q => exact q.of?_run t

private theorem of?_ownParts (s : Sections) (queries : SectionQueries) :
    Fault.of? (s.ownParts queries) = (s.ownFaults queries).head? := by
  rw [ownFaults, ← of?_applyTo, ← of?_applyTo, ← of?_applyTo, ← of?_applyTo, ownParts]
  -- The queries are run in the order of the list, up to the first fault.
  rcases applyTo s.images queries.images with fault | images
  · rfl
  rcases applyTo s.licenses queries.licenses with fault | licenses
  · rfl
  rcases applyTo s.categories queries.categories with fault | categories
  · rfl
  rcases applyTo s.annotations queries.annotations with fault | annotations <;> rfl

theorem of?_filter (s : Sections) (queries : SectionQueries) :
    Fault.of? (s.filter queries) = (s.ownFaults queries).head? := by
  have linked : Fault.of? (s.filter queries) = Fault.of? (s.ownParts queries) := by
    rw [filter_eq]
    cases s.ownParts queries <;> rfl
  rw [linked, of?_ownParts]

/-- Filtering fails iff some query fails by itself, and then with the first of those faults. -/
theorem filter_eq_error_iff (s : Sections) (queries : SectionQueries) :
    (∀ fault, s.filter queries = .error fault ↔ (s.ownFaults queries).head? = some fault) ∧
      ((∃ p, s.filter queries = .ok p) ↔ s.ownFaults queries = []) := by
  rw [← List.head?_eq_none_iff, ← of?_filter]
  constructor
  · intro fault
    cases s.filter queries <;> simp [Fault.of?]
  · exact Fault.of?_eq_none_iff.symm

/-- An annotation makes filtering fail though its image has been dropped. -/
example :
    ({ images := .ofList [{ id := 1, fileName := "a.png" }]
       annotations := .ofList [{ id := 7, imageId := 1, categoryId := 3, box := default }]
       categories := .ofList [{ id := 3, name := "cat" }]
       licenses := .ofList [] } : Sections).filter
      { images := some (Query.empty.compareId (.int 2) .eq)
        annotations := some (Query.empty.compare (.ofField "area") (.int 10) .gt) } =
      .error (.evaluation 7 "entity.area > 10" (.typeMismatch "area" (some .int) none)) := rfl

end Sections

end ImageCatalog
