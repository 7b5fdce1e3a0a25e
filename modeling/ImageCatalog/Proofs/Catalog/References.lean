import ImageCatalog.Proofs.Catalog.Filtering

set_option autoImplicit false

namespace ImageCatalog

theorem Annotation.isOn_iff {a : Annotation} {images : List Image}
    (bound : ∀ i ∈ images, i.id ≤ maxRecordId) :
    a.isOn images = true ↔ ∃ i ∈ images, i.id = a.imageId := by
  rw [isOn, List.any_eq_true]
  refine exists_congr fun i => and_congr_right fun member => ?_
  rw [decide_eq_true_iff, SameKey.iff_eq (bound i member)]

theorem Annotation.isOf_iff {a : Annotation} {categories : List Category}
    (bound : ∀ c ∈ categories, c.id ≤ maxRecordId) :
    a.isOf categories = true ↔ ∃ c ∈ categories, c.id = a.categoryId := by
  rw [isOf, List.any_eq_true]
  refine exists_congr fun c => and_congr_right fun member => ?_
  rw [decide_eq_true_iff, SameKey.iff_eq (bound c member)]

theorem Category.isUsedBy_iff {c : Category} {annotations : List Annotation}
    (bound : c.id ≤ maxRecordId) :
    c.isUsedBy annotations = true ↔ ∃ a ∈ annotations, a.categoryId = c.id := by
  rw [isUsedBy, List.any_eq_true]
  refine exists_congr fun a => and_congr_right fun _ => ?_
  rw [decide_eq_true_iff, SameKey.comm, SameKey.iff_eq bound, eq_comm]

theorem Image.isAnnotatedBy_iff {i : Image} {annotations : List Annotation}
    (bound : i.id ≤ maxRecordId) :
    i.isAnnotatedBy annotations = true ↔ ∃ a ∈ annotations, a.imageId = i.id := by
  rw [isAnnotatedBy, List.any_eq_true]
  refine exists_congr fun a => and_congr_right fun _ => ?_
  rw [decide_eq_true_iff, SameKey.comm, SameKey.iff_eq bound, eq_comm]

private theorem any_sameKey_iff {n : Option RecordId} {k : RecordId} (bound : k ≤ maxRecordId) :
    (n.any fun m => SameKey m k) = true ↔ n = some k := by
  cases n with
  | none => simp
  | some m =>
    rw [Option.any_some, decide_eq_true_iff, SameKey.comm, SameKey.iff_eq bound, eq_comm,
      Option.some.injEq]

theorem Image.isUnder_iff {i : Image} {licenses : List License}
    (bound : ∀ l ∈ licenses, l.id ≤ maxRecordId) :
    i.isUnder licenses = true ↔ ∃ l ∈ licenses, i.license = some l.id := by
  rw [isUnder, List.any_eq_true]
  exact exists_congr fun l => and_congr_right fun member => any_sameKey_iff (bound l member)

theorem License.isUsedBy_iff {l : License} {images : List Image} (bound : l.id ≤ maxRecordId) :
    l.isUsedBy images = true ↔ ∃ i ∈ images, i.license = some l.id := by
  rw [isUsedBy, List.any_eq_true]
  exact exists_congr fun i => and_congr_right fun _ => any_sameKey_iff bound

namespace Sections

/-- Records that can be referred to are numbered within the bound. -/
structure WithinBound (s : Sections) : Prop where
  images : ∀ i ∈ s.images.records, i.id ≤ maxRecordId
  categories : ∀ c ∈ s.categories.records, c.id ≤ maxRecordId
  licenses : ∀ l ∈ s.licenses.records, l.id ≤ maxRecordId

/-- The records that a query holds of, or all of them without a query. -/
def accepted {α : Type} [Record α] (t : Table α) (query : Option Query) : List α :=
  t.records.filter fun r => query.all fun q => q.holds r

/-- What filtering should leave of every section, from what the queries accept of each. -/
structure IsSelection (s : Sections) (queries : SectionQueries) (p : Sections) : Prop where
  annotations : p.annotations.records =
    (accepted s.annotations queries.annotations).filter fun a =>
      (∃ i ∈ accepted s.images queries.images, i.id = a.imageId ∧
        (queries.licenses.isSome →
          ∃ l ∈ accepted s.licenses queries.licenses, i.license = some l.id)) ∧
      ∃ c ∈ accepted s.categories queries.categories, c.id = a.categoryId
  categories : p.categories.records =
    (accepted s.categories queries.categories).filter fun c =>
      ∃ a ∈ p.annotations.records, a.categoryId = c.id
  images : p.images.records =
    (accepted s.images queries.images).filter fun i =>
      (∃ a ∈ p.annotations.records, a.imageId = i.id) ∧
      (queries.licenses.isSome →
        ∃ l ∈ accepted s.licenses queries.licenses, i.license = some l.id)
  licenses : p.licenses.records =
    if queries.licenses.isSome then
      (accepted s.licenses queries.licenses).filter fun l =>
        ∃ i ∈ p.images.records, i.license = some l.id
    else s.licenses.records

private theorem records_of_applyTo {α : Type} [Record α] {t kept : Table α}
    {query : Option Query} (result : applyTo t query = .ok kept) :
    kept.records = accepted t query := by
  cases query with
  | none =>
    obtain rfl : t = kept := Except.ok.inj result
    exact (List.filter_eq_self.2 fun _ _ => rfl).symm
  | some q =>
    obtain ⟨-, -, rfl⟩ := Query.run_eq_ok_iff.1 result
    rfl

namespace WithinBound

variable {own : Sections} {licensed : Bool}

theorem of_within {s t : Sections} (bound : t.WithinBound) (inside : s.Within t) :
    s.WithinBound := by
  constructor
  · exact fun i member => bound.images i (inside.images member)
  · exact fun c member => bound.categories c (inside.categories member)
  · exact fun l member => bound.licenses l (inside.licenses member)

theorem ownParts {s : Sections} {queries : SectionQueries} (bound : s.WithinBound)
    (parts : s.ownParts queries = .ok own) : own.WithinBound :=
  bound.of_within (ownParts_within parts)

theorem isUnderGiven_iff (bound : own.WithinBound) {i : Image} :
    i.isUnderGiven (own.givenLicenses licensed) = true ↔
      (licensed = true → ∃ l ∈ own.licenses.records, i.license = some l.id) := by
  cases licensed with
  | false => simp [Image.isUnderGiven, givenLicenses]
  | true => simp [Image.isUnderGiven, givenLicenses, Image.isUnder_iff bound.licenses]

theorem isOnGiven_iff (bound : own.WithinBound) {a : Annotation} :
    a.isOnGiven (some own.images) (own.givenLicenses licensed) = true ↔
      ∃ i ∈ own.images.records, i.id = a.imageId ∧
        (licensed = true → ∃ l ∈ own.licenses.records, i.license = some l.id) := by
  unfold Annotation.isOnGiven
  rw [Option.all_some, Annotation.isOn_iff]
  · refine exists_congr fun i => ?_
    rw [Table.mem_only, bound.isUnderGiven_iff, and_assoc, and_comm (b := i.id = _)]
  · exact fun i member => bound.images i (Table.mem_only.1 member).1

end WithinBound

/-- Filtering, whenever it gives a result, leaves what the references between the accepted records
select, in the order of the sections. -/
theorem filter_isSelection {s p : Sections} {queries : SectionQueries} (bound : s.WithinBound)
    (result : s.filter queries = .ok p) : s.IsSelection queries p := by
  obtain ⟨own, parts, rfl⟩ := filter_eq_ok_iff.1 result
  have inside : own.WithinBound := bound.ownParts parts
  obtain ⟨images, licenses, categories, annotations⟩ := ownParts_eq_ok_iff.1 parts
  have ownImages := records_of_applyTo images
  have ownLicenses := records_of_applyTo licenses
  have ownCategories := records_of_applyTo categories
  have ownAnnotations := records_of_applyTo annotations
  constructor
  case annotations =>
    rw [← ownAnnotations, ← ownImages, ← ownLicenses, ← ownCategories]
    refine List.filter_congr fun a _ => ?_
    rw [Bool.eq_iff_iff, decide_eq_true_iff, Bool.and_eq_true, inside.isOnGiven_iff,
      Annotation.isOf_iff inside.categories]
  case categories =>
    rw [← ownCategories]
    refine List.filter_congr fun c member => ?_
    rw [Bool.eq_iff_iff, decide_eq_true_iff]
    exact Category.isUsedBy_iff (inside.categories c member)
  case images =>
    rw [← ownImages, ← ownLicenses]
    refine List.filter_congr fun i member => ?_
    rw [Bool.eq_iff_iff, decide_eq_true_iff, Bool.and_eq_true, inside.isUnderGiven_iff, and_comm]
    exact and_congr_left' (Image.isAnnotatedBy_iff (inside.images i member))
  case licenses =>
    cases licensed : queries.licenses with
    | none =>
      rw [licensed] at licenses
      exact congrArg Table.records (Except.ok.inj licenses).symm
    | some q =>
      rw [licensed] at ownLicenses
      simp only [Option.isSome_some, if_true, ← ownLicenses]
      refine List.filter_congr fun l member => ?_
      rw [Bool.eq_iff_iff, decide_eq_true_iff]
      exact License.isUsedBy_iff (inside.licenses l member)

/-- Two images share a number, one of them under a license that will not be asked for. -/
def sharedNumber : Sections where
  images := .ofList [
    { id := 1, fileName := "a.png", license := some 4 },
    { id := 1, fileName := "b.png", license := some 5 },
    { id := 2, fileName := "c.png" }]
  annotations := .ofList [
    { id := 7, imageId := 1, categoryId := 3, box := default },
    { id := 8, imageId := 2, categoryId := 3, box := default },
    { id := 9, imageId := 1, categoryId := 6, box := default }]
  categories := .ofList [{ id := 3, name := "cat" }, { id := 6, name := "dog" }]
  licenses := .ofList [{ id := 4, name := "by" }, { id := 5, name := "nd" }]

def firstTwoUnderBy : SectionQueries where
  annotations := some (((Query.empty.compareId (.int 7) .eq).join .or).compareId (.int 8) .eq)
  licenses := some (Query.empty.compare (.ofField "name") (.string "by"))

theorem sharedNumber_isSelection :
    sharedNumber.WithinBound ∧ ∃ p, sharedNumber.filter firstTwoUnderBy = .ok p ∧
      sharedNumber.IsSelection firstTwoUnderBy p ∧
      p.images.records.map (·.fileName) = ["a.png"] := by
  have bound : sharedNumber.WithinBound := by constructor <;> decide
  exact ⟨bound, _, rfl, filter_isSelection bound rfl, rfl⟩

end Sections

end ImageCatalog
