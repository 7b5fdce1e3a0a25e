import ImageCatalog.Catalog.Sections
import ImageCatalog.Proofs.Catalog.Links

set_option autoImplicit false

namespace ImageCatalog

namespace Sections

def ownParts (s : Sections) (queries : SectionQueries) : Except Fault Sections := do
  let images ← applyTo s.images queries.images
  let licenses ← applyTo s.licenses queries.licenses
  let categories ← applyTo s.categories queries.categories
  let annotations ← applyTo s.annotations queries.annotations
  return { images, annotations, categories, licenses }

/-- The licenses that images have to be under: none are given unless licenses are filtered. -/
def givenLicenses (own : Sections) (licensed : Bool) : Option (Table License) :=
  if licensed then some own.licenses else none

/-- Keeps the annotations whose image and category are there, then what is referred to. Licenses
take part only if they are filtered. -/
def link (own : Sections) (licensed : Bool) : Sections :=
  let annotations := own.annotations.only fun a =>
    a.isOnGiven (some own.images) (own.givenLicenses licensed) && a.isOf own.categories.records
  let categories := own.categories.only fun c => c.isUsedBy annotations.records
  let images := own.images.only fun i =>
    i.isUnderGiven (own.givenLicenses licensed) && i.isAnnotatedBy annotations.records
  let licenses :=
    if licensed then own.licenses.only fun l => l.isUsedBy images.records else own.licenses
  { images, annotations, categories, licenses }

private theorem applyTo_some {α : Type} [Record α] (t : Table α) (q : Query) :
    applyTo t (some q) = q.run t := rfl

private theorem run_getD {α : Type} [Record α] (q : Option Query) (t : Table α) :
    (q.getD {}).run t = applyTo t q := by
  cases q <;> rfl

private theorem bind_run {α β : Type} [Record α] {link : Except Fault Query} {q : Query}
    {condition : α → Bool}
    (linked : ∃ i : Intersection, link = .ok (q.constrain i) ∧ i.Means condition) (t : Table α)
    (rest : Table α → Except Fault β) :
    (link >>= fun linked => linked.run t >>= rest) =
      q.run t >>= fun kept => rest (kept.only condition) := by
  obtain ⟨i, rfl, means⟩ := linked
  change (q.constrain i).run t >>= rest = _
  rw [Query.run_constrain means]
  rcases q.run t with fault | kept <;> rfl

private theorem bind_run_empty {α β : Type} [Record α] {link : Except Fault Query}
    {condition : α → Bool}
    (linked : ∃ i : Intersection, link = .ok (Query.empty.constrain i) ∧ i.Means condition)
    (t : Table α) (rest : Table α → Except Fault β) :
    (link >>= fun linked => linked.run t >>= rest) = rest (t.only condition) := by
  rw [bind_run linked, Query.run_empty]
  rfl

private theorem run_licenses (images : Table Image) (licenses : Table License) :
    ((Query.empty.linkLicenses images).bind fun q => q.run licenses) =
      .ok (licenses.only fun l => l.isUsedBy images.records) := by
  obtain ⟨i, link, means⟩ := Query.empty.linkLicenses_means images
  rw [link, Except.bind, Query.run_constrain means, Query.run_empty, Except.map]

private theorem only_isOnGiven_none (annotations : Table Annotation) :
    (annotations.only fun a => a.isOnGiven none none) = annotations :=
  Table.only_true annotations

private theorem only_isOfGiven_none (annotations : Table Annotation) :
    (annotations.only fun a => a.isOfGiven none) = annotations :=
  Table.only_true annotations

/-- The links cannot fail, so the faults are those of the queries, in this order. -/
theorem filter_eq (s : Sections) (queries : SectionQueries) :
    s.filter queries = (s.ownParts queries).map fun own => own.link queries.licenses.isSome := by
  unfold filter ownParts
  simp only [bind_run (Query.linkAnnotations_means _ _ _ _), run_getD,
    bind_run_empty (Query.linkCategories_means _ _ _ _),
    bind_run_empty (Query.linkImages_means _ _ _ _), run_licenses, only_isOnGiven_none,
    only_isOfGiven_none]
  -- Both sides run the queries in this order, so the first fault is the same.
  rcases applyTo s.images queries.images with fault | images
  · rfl
  rcases queries.licenses with _ | q
  · rcases applyTo s.categories queries.categories with fault | categories
    · rfl
    rcases applyTo s.annotations queries.annotations with fault | annotations <;> rfl
  · dsimp only [applyTo_some]
    rcases q.run s.licenses with fault | licenses
    · rfl
    rcases applyTo s.categories queries.categories with fault | categories
    · rfl
    rcases applyTo s.annotations queries.annotations with fault | annotations <;> rfl

theorem ownParts_eq_ok_iff {s own : Sections} {queries : SectionQueries} :
    s.ownParts queries = .ok own ↔
      applyTo s.images queries.images = .ok own.images ∧
      applyTo s.licenses queries.licenses = .ok own.licenses ∧
      applyTo s.categories queries.categories = .ok own.categories ∧
      applyTo s.annotations queries.annotations = .ok own.annotations := by
  obtain ⟨images, annotations, categories, licenses⟩ := own
  unfold ownParts
  rcases applyTo s.images queries.images with fault | images
  · exact ⟨nofun, nofun⟩
  rcases applyTo s.licenses queries.licenses with fault | licenses
  · exact ⟨nofun, nofun⟩
  rcases applyTo s.categories queries.categories with fault | categories
  · exact ⟨nofun, nofun⟩
  rcases applyTo s.annotations queries.annotations with fault | annotations
  · exact ⟨nofun, nofun⟩
  · constructor
    · rintro ⟨⟩
      exact ⟨rfl, rfl, rfl, rfl⟩
    · rintro ⟨⟨⟩, ⟨⟩, ⟨⟩, ⟨⟩⟩
      rfl

theorem filter_eq_ok_iff {s p : Sections} {queries : SectionQueries} :
    s.filter queries = .ok p ↔
      ∃ own, s.ownParts queries = .ok own ∧ own.link queries.licenses.isSome = p := by
  rw [filter_eq, map_eq_ok_iff]

variable {own : Sections} {licensed : Bool}

private theorem any_sameKey_iff_exists {n : Option RecordId} {k : RecordId} :
    (n.any fun m => SameKey m k) = true ↔ ∃ m ∈ n, SameKey m k := by
  simp [Option.any_eq_true]

theorem mem_annotations_link {a : Annotation} :
    a ∈ (own.link licensed).annotations.records ↔ a ∈ own.annotations.records ∧
      (∃ i ∈ own.images.records, i.isUnderGiven (own.givenLicenses licensed) = true ∧
        SameKey i.id a.imageId) ∧
      ∃ c ∈ own.categories.records, SameKey c.id a.categoryId := by
  simp only [link, Table.mem_only, Bool.and_eq_true, Annotation.isOnGiven, Option.all_some,
    Annotation.isOn, Annotation.isOf, List.any_eq_true, decide_eq_true_iff, and_assoc]

theorem mem_categories_link {c : Category} :
    c ∈ (own.link licensed).categories.records ↔ c ∈ own.categories.records ∧
      ∃ a ∈ (own.link licensed).annotations.records, SameKey a.categoryId c.id := by
  simp only [link, Table.mem_only, Category.isUsedBy, List.any_eq_true, decide_eq_true_iff]

theorem mem_images_link {i : Image} :
    i ∈ (own.link licensed).images.records ↔ i ∈ own.images.records ∧
      i.isUnderGiven (own.givenLicenses licensed) = true ∧
      ∃ a ∈ (own.link licensed).annotations.records, SameKey a.imageId i.id := by
  simp only [link, Table.mem_only, Bool.and_eq_true, Image.isAnnotatedBy, List.any_eq_true,
    decide_eq_true_iff]

theorem mem_licenses_link {l : License} :
    l ∈ (own.link true).licenses.records ↔ l ∈ own.licenses.records ∧
      ∃ i ∈ (own.link true).images.records, ∃ n ∈ i.license, SameKey n l.id := by
  simp only [link, if_true, Table.mem_only, License.isUsedBy, List.any_eq_true,
    any_sameKey_iff_exists]

theorem isUnderGiven_true_iff {i : Image} :
    i.isUnderGiven (own.givenLicenses true) = true ↔
      ∃ l ∈ own.licenses.records, ∃ n ∈ i.license, SameKey n l.id := by
  simp only [Image.isUnderGiven, givenLicenses, if_true, Option.all_some, Image.isUnder,
    List.any_eq_true, any_sameKey_iff_exists]

structure Within (s t : Sections) : Prop where
  images : s.images.records ⊆ t.images.records
  annotations : s.annotations.records ⊆ t.annotations.records
  categories : s.categories.records ⊆ t.categories.records
  licenses : s.licenses.records ⊆ t.licenses.records

theorem Within.refl (s : Sections) : s.Within s :=
  ⟨List.Subset.refl _, List.Subset.refl _, List.Subset.refl _, List.Subset.refl _⟩

theorem Within.trans {s t u : Sections} (first : s.Within t) (second : t.Within u) : s.Within u :=
  ⟨List.Subset.trans first.images second.images,
    List.Subset.trans first.annotations second.annotations,
    List.Subset.trans first.categories second.categories,
    List.Subset.trans first.licenses second.licenses⟩

theorem applyTo_subset {α : Type} [Record α] {t kept : Table α} {query : Option Query}
    (result : applyTo t query = .ok kept) : kept.records ⊆ t.records := by
  cases query with
  | none =>
    obtain rfl : t = kept := Except.ok.inj result
    exact List.Subset.refl _
  | some q => exact Query.run_subset result

theorem ownParts_within {s : Sections} {queries : SectionQueries}
    (parts : s.ownParts queries = .ok own) : own.Within s := by
  obtain ⟨images, licenses, categories, annotations⟩ := ownParts_eq_ok_iff.1 parts
  exact ⟨applyTo_subset images, applyTo_subset annotations, applyTo_subset categories,
    applyTo_subset licenses⟩

theorem link_within (own : Sections) (licensed : Bool) : (own.link licensed).Within own := by
  constructor
  case images => exact fun i member => (mem_images_link.1 member).1
  case annotations => exact fun a member => (mem_annotations_link.1 member).1
  case categories => exact fun c member => (mem_categories_link.1 member).1
  case licenses =>
    cases licensed with
    | false => exact fun l member => member
    | true => exact fun l member => (mem_licenses_link.1 member).1

end Sections

end ImageCatalog
