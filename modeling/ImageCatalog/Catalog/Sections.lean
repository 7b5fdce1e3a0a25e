import ImageCatalog.Catalog.Links

/-! The four tables of a catalog, and filtering them together: what is left refers only to records
that are left, and everything left but the licenses is referred to. -/

set_option autoImplicit false

namespace ImageCatalog

structure Sections where
  images : Table Image
  annotations : Table Annotation
  categories : Table Category
  licenses : Table License
deriving Inhabited

/-- A query for every kind that is filtered. -/
structure SectionQueries where
  images : Option Query := none
  annotations : Option Query := none
  categories : Option Query := none
  licenses : Option Query := none
deriving BEq, Inhabited

namespace Sections

def empty (policy : IdPolicy) : Sections :=
  ⟨.empty policy, .empty policy, .empty policy, .empty policy⟩

def withPolicy (s : Sections) (policy : IdPolicy) : Sections :=
  ⟨s.images.withPolicy policy, s.annotations.withPolicy policy, s.categories.withPolicy policy,
    s.licenses.withPolicy policy⟩

/-- The part of a table that an optional query leaves. -/
def applyTo {α : Type} [Record α] (t : Table α) : Option Query → Except Fault (Table α)
  | some q => q.run t
  | none => .ok t

/-- Filters every kind by its own query, the annotations also by what is left of the others; then
drops what no annotation refers to. Licenses are touched only if there is a query for them. -/
def filter (s : Sections) (queries : SectionQueries) : Except Fault Sections := do
  let images ← applyTo s.images queries.images
  let licenses ← match queries.licenses with
    | some q => (q.run s.licenses).map some
    | none => .ok none
  let categories ← applyTo s.categories queries.categories
  let annotationQuery ←
    (queries.annotations.getD {}).linkAnnotations (some images) (some categories) licenses
  let annotations ← annotationQuery.run s.annotations
  let categoryQuery ← Query.empty.linkCategories annotations none none
  let categories ← categoryQuery.run categories
  let imageQuery ← Query.empty.linkImages annotations none licenses
  let images ← imageQuery.run images
  let licenses ← match licenses with
    | some licenses => (Query.empty.linkLicenses images).bind fun q => q.run licenses
    | none => .ok s.licenses
  return { images, annotations, categories, licenses }

end Sections

end ImageCatalog
