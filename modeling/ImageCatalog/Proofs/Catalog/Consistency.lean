import ImageCatalog.Proofs.Catalog.References

set_option autoImplicit false

namespace ImageCatalog

namespace Sections

/-- Every reference is to a record that is there, and every record is referred to. Licenses take
part only if they are filtered. -/
structure Linked (same : RecordId → RecordId → Prop) (licensed : Bool) (p : Sections) : Prop where
  imageOf : ∀ a ∈ p.annotations.records, ∃ i ∈ p.images.records, same i.id a.imageId
  categoryOf : ∀ a ∈ p.annotations.records, ∃ c ∈ p.categories.records, same c.id a.categoryId
  annotated : ∀ i ∈ p.images.records, ∃ a ∈ p.annotations.records, same a.imageId i.id
  used : ∀ c ∈ p.categories.records, ∃ a ∈ p.annotations.records, same a.categoryId c.id
  licenseOf : licensed = true →
    ∀ i ∈ p.images.records, ∃ l ∈ p.licenses.records, ∃ n ∈ i.license, same n l.id
  licenseUsed : licensed = true →
    ∀ l ∈ p.licenses.records, ∃ i ∈ p.images.records, ∃ n ∈ i.license, same n l.id

/-- Whether `n` is referred to exactly if it is the number of a record. -/
structure AgreesOn (n : RecordId) (licensed : Bool) (p : Sections) : Prop where
  images : (∃ a ∈ p.annotations.records, a.imageId = n) ↔ ∃ i ∈ p.images.records, i.id = n
  categories :
    (∃ a ∈ p.annotations.records, a.categoryId = n) ↔ ∃ c ∈ p.categories.records, c.id = n
  licenses : licensed = true →
    ((∃ i ∈ p.images.records, i.license = some n) ↔ ∃ l ∈ p.licenses.records, l.id = n)

/-- What `link` keeps refers to what it keeps: an image or category of a kept annotation is kept
because of that annotation, a license of a kept image because of that image. -/
theorem linked_link (own : Sections) (licensed : Bool) :
    (own.link licensed).Linked SameKey licensed := by
  constructor
  case imageOf =>
    intro a member
    obtain ⟨-, ⟨i, image, under, same⟩, -⟩ := mem_annotations_link.1 member
    exact ⟨i, mem_images_link.2 ⟨image, under, a, member, same.symm⟩, same⟩
  case categoryOf =>
    intro a member
    obtain ⟨-, -, c, category, same⟩ := mem_annotations_link.1 member
    exact ⟨c, mem_categories_link.2 ⟨category, a, member, same.symm⟩, same⟩
  case annotated =>
    intro i member
    exact (mem_images_link.1 member).2.2
  case used =>
    intro c member
    exact (mem_categories_link.1 member).2
  case licenseOf =>
    rintro rfl i member
    obtain ⟨l, license, n, reference, same⟩ :=
      isUnderGiven_true_iff.1 (mem_images_link.1 member).2.1
    exact ⟨l, mem_licenses_link.2 ⟨license, i, member, n, reference, same⟩, n, reference, same⟩
  case licenseUsed =>
    rintro rfl l member
    exact (mem_licenses_link.1 member).2

theorem isUnderGiven_of_linked {p : Sections} {licensed : Bool}
    (linked : p.Linked SameKey licensed) {i : Image} (member : i ∈ p.images.records) :
    i.isUnderGiven (p.givenLicenses licensed) = true := by
  cases licensed with
  | false => rfl
  | true => exact isUnderGiven_true_iff.2 (linked.licenseOf rfl i member)

theorem link_eq_self {p : Sections} {licensed : Bool} (linked : p.Linked SameKey licensed) :
    p.link licensed = p := by
  have annotations : (p.link licensed).annotations = p.annotations := by
    refine Table.only_eq_self fun a member => ?_
    obtain ⟨i, image, same⟩ := linked.imageOf a member
    have kept : a ∈ (p.link licensed).annotations.records := mem_annotations_link.2
      ⟨member, ⟨i, image, isUnderGiven_of_linked linked image, same⟩, linked.categoryOf a member⟩
    exact (Table.mem_only.1 kept).2
  have categories : (p.link licensed).categories = p.categories := by
    refine Table.only_eq_self fun c member => ?_
    have kept : c ∈ (p.link licensed).categories.records := by
      rw [mem_categories_link, annotations]
      exact ⟨member, linked.used c member⟩
    exact (Table.mem_only.1 kept).2
  have images : (p.link licensed).images = p.images := by
    refine Table.only_eq_self fun i member => ?_
    have kept : i ∈ (p.link licensed).images.records := by
      rw [mem_images_link, annotations]
      exact ⟨member, isUnderGiven_of_linked linked member, linked.annotated i member⟩
    exact (Table.mem_only.1 kept).2
  have licenses : (p.link licensed).licenses = p.licenses := by
    cases licensed with
    | false => rfl
    | true =>
      refine Table.only_eq_self fun l member => ?_
      have kept : l ∈ (p.link true).licenses.records := by
        rw [mem_licenses_link, images]
        exact ⟨member, linked.licenseUsed rfl l member⟩
      exact (Table.mem_only.1 kept).2
  calc p.link licensed
      = ⟨(p.link licensed).images, (p.link licensed).annotations, (p.link licensed).categories,
          (p.link licensed).licenses⟩ := rfl
    _ = p := by rw [images, annotations, categories, licenses]

private theorem exists_eq_of_sameKey {β : Type} {xs : List β} {key : β → RecordId} {n : RecordId}
    (found : ∃ x ∈ xs, SameKey (key x) n) (past : maxRecordId < n → ∃ x ∈ xs, key x = n) :
    ∃ x ∈ xs, key x = n := by
  rcases UInt64.le_or_lt n maxRecordId with small | large
  · obtain ⟨x, member, same⟩ := found
    exact ⟨x, member, (same.symm.eq_of_le small).symm⟩
  · exact past large

theorem Linked.agreesOn {p : Sections} {licensed : Bool} (linked : p.Linked (· = ·) licensed)
    (n : RecordId) : p.AgreesOn n licensed := by
  constructor
  case images =>
    constructor
    · rintro ⟨a, member, rfl⟩
      exact linked.imageOf a member
    · rintro ⟨i, member, rfl⟩
      exact linked.annotated i member
  case categories =>
    constructor
    · rintro ⟨a, member, rfl⟩
      exact linked.categoryOf a member
    · rintro ⟨c, member, rfl⟩
      exact linked.used c member
  case licenses =>
    intro filtered
    constructor
    · rintro ⟨i, member, reference⟩
      obtain ⟨l, license, m, mine, same⟩ := linked.licenseOf filtered i member
      rw [reference] at mine
      exact ⟨l, license, same.symm.trans (Option.some.inj mine).symm⟩
    · rintro ⟨l, member, rfl⟩
      obtain ⟨i, image, m, mine, rfl⟩ := linked.licenseUsed filtered l member
      exact ⟨i, image, mine⟩

theorem Linked.eq_of_agreesOn {p : Sections} {licensed : Bool} (linked : p.Linked SameKey licensed)
    (agrees : ∀ n, maxRecordId < n → p.AgreesOn n licensed) : p.Linked (· = ·) licensed := by
  constructor
  case imageOf =>
    intro a member
    exact exists_eq_of_sameKey (linked.imageOf a member) fun past =>
      (agrees _ past).images.1 ⟨a, member, rfl⟩
  case categoryOf =>
    intro a member
    exact exists_eq_of_sameKey (linked.categoryOf a member) fun past =>
      (agrees _ past).categories.1 ⟨a, member, rfl⟩
  case annotated =>
    intro i member
    exact exists_eq_of_sameKey (linked.annotated i member) fun past =>
      (agrees _ past).images.2 ⟨i, member, rfl⟩
  case used =>
    intro c member
    exact exists_eq_of_sameKey (linked.used c member) fun past =>
      (agrees _ past).categories.2 ⟨c, member, rfl⟩
  case licenseOf =>
    intro filtered i member
    obtain ⟨l, license, n, reference, same⟩ := linked.licenseOf filtered i member
    obtain ⟨l', license', number⟩ :=
      exists_eq_of_sameKey ⟨l, license, same.symm⟩ fun past =>
        ((agrees n past).licenses filtered).1 ⟨i, member, reference⟩
    exact ⟨l', license', n, reference, number.symm⟩
  case licenseUsed =>
    intro filtered l member
    rcases UInt64.le_or_lt l.id maxRecordId with small | large
    · obtain ⟨i, image, n, reference, same⟩ := linked.licenseUsed filtered l member
      exact ⟨i, image, n, reference, (same.symm.eq_of_le small).symm⟩
    · obtain ⟨i, image, reference⟩ := ((agrees _ large).licenses filtered).2 ⟨l, member, rfl⟩
      exact ⟨i, image, l.id, reference, rfl⟩

theorem Linked.eq_of_withinBound {p : Sections} {licensed : Bool}
    (linked : p.Linked SameKey licensed) (bound : p.WithinBound) : p.Linked (· = ·) licensed := by
  refine linked.eq_of_agreesOn fun n past => ?_
  constructor
  case images =>
    constructor
    · rintro ⟨a, member, rfl⟩
      obtain ⟨i, image, same⟩ := linked.imageOf a member
      exact ⟨i, image, same.eq_of_le (bound.images i image)⟩
    · rintro ⟨i, member, rfl⟩
      exact absurd past (UInt64.not_lt.2 (bound.images i member))
  case categories =>
    constructor
    · rintro ⟨a, member, rfl⟩
      obtain ⟨c, category, same⟩ := linked.categoryOf a member
      exact ⟨c, category, same.eq_of_le (bound.categories c category)⟩
    · rintro ⟨c, member, rfl⟩
      exact absurd past (UInt64.not_lt.2 (bound.categories c member))
  case licenses =>
    intro filtered
    constructor
    · rintro ⟨i, member, reference⟩
      obtain ⟨l, license, m, mine, same⟩ := linked.licenseOf filtered i member
      rw [reference] at mine
      obtain rfl := Option.some.inj mine
      exact ⟨l, license, same.symm.eq_of_le (bound.licenses l license)⟩
    · rintro ⟨l, member, rfl⟩
      exact absurd past (UInt64.not_lt.2 (bound.licenses l member))

/-- As long as records are numbered within the bound, what filtering leaves is consistent. -/
theorem filter_linked_of_withinBound {s p : Sections} {queries : SectionQueries}
    (bound : s.WithinBound) (result : s.filter queries = .ok p) :
    p.Linked (· = ·) queries.licenses.isSome := by
  obtain ⟨own, parts, rfl⟩ := filter_eq_ok_iff.1 result
  have inside := (link_within own queries.licenses.isSome).trans (ownParts_within parts)
  exact (linked_link own _).eq_of_withinBound (bound.of_within inside)

/-- What filtering leaves is consistent as far as numbers are told apart by their values. It is
consistent on the numbers themselves iff the numbers past the bound that are referred to are those
of the records that are left. -/
theorem filter_linked {s p : Sections} {queries : SectionQueries}
    (result : s.filter queries = .ok p) :
    p.Linked SameKey queries.licenses.isSome ∧
      (p.Linked (· = ·) queries.licenses.isSome ↔
        ∀ n, maxRecordId < n → p.AgreesOn n queries.licenses.isSome) := by
  obtain ⟨own, parts, rfl⟩ := filter_eq_ok_iff.1 result
  have linked := linked_link own queries.licenses.isSome
  exact ⟨linked, fun equal n _ => equal.agreesOn n, linked.eq_of_agreesOn⟩

/-- The annotation is on no image, but its image number is read as that of the image. -/
def mistaken : Sections where
  images := .ofList [{ id := 9223372036854775808, fileName := "a.png" }]
  annotations := .ofList
    [{ id := 1, imageId := 9223372036854775809, categoryId := 1, box := default }]
  categories := .ofList [{ id := 1, name := "cat" }]
  licenses := .ofList []

private theorem filter_mistaken : mistaken.filter {} = .ok mistaken := by
  have linked : mistaken.Linked SameKey false := by constructor <;> decide +kernel
  exact filter_eq_ok_iff.2 ⟨mistaken, rfl, link_eq_self linked⟩

/-- Both records are kept, but no image has the number that the annotation refers to. -/
theorem mistaken_not_linked :
    ∃ p, mistaken.filter {} = .ok p ∧ ¬ p.Linked (· = ·) false := by
  refine ⟨mistaken, filter_mistaken, fun linked => ?_⟩
  obtain ⟨i, member, same⟩ := linked.imageOf _ (List.mem_singleton.2 rfl)
  obtain rfl := List.mem_singleton.1 member
  exact absurd same (by decide)

theorem mistaken_filter_linked :
    mistaken.filter {} = .ok mistaken ∧ mistaken.Linked SameKey false ∧
      (mistaken.Linked (· = ·) false ↔ ∀ n, maxRecordId < n → mistaken.AgreesOn n false) :=
  ⟨filter_mistaken, filter_linked filter_mistaken⟩

theorem Linked.unlicensed {same : RecordId → RecordId → Prop} {licensed : Bool} {p : Sections}
    (linked : p.Linked same licensed) : p.Linked same false :=
  { linked with licenseOf := nofun, licenseUsed := nofun }

private theorem applyTo_eq_self {α : Type} [Record α] {query : Option Query}
    {t kept part : Table α} (result : applyTo t query = .ok kept)
    (inside : part.records ⊆ kept.records) : applyTo part query = .ok part := by
  cases query with
  | none => rfl
  | some q => exact Query.run_eq_self result inside

theorem ownParts_link {s own : Sections} {queries : SectionQueries}
    (parts : s.ownParts queries = .ok own) (licensed : Bool) :
    (own.link licensed).ownParts queries = .ok (own.link licensed) := by
  obtain ⟨images, licenses, categories, annotations⟩ := ownParts_eq_ok_iff.1 parts
  have inside := link_within own licensed
  exact ownParts_eq_ok_iff.2 ⟨applyTo_eq_self images inside.images,
    applyTo_eq_self licenses inside.licenses, applyTo_eq_self categories inside.categories,
    applyTo_eq_self annotations inside.annotations⟩

/-- Filtering what filtering left, by the same queries or by none, gives the same again. -/
theorem filter_idempotent {s p : Sections} {queries : SectionQueries}
    (result : s.filter queries = .ok p) : p.filter queries = .ok p ∧ p.filter {} = .ok p := by
  obtain ⟨own, parts, rfl⟩ := filter_eq_ok_iff.1 result
  have linked := linked_link own queries.licenses.isSome
  constructor
  · exact filter_eq_ok_iff.2 ⟨_, ownParts_link parts _, link_eq_self linked⟩
  · exact filter_eq_ok_iff.2 ⟨_, rfl, link_eq_self linked.unlicensed⟩

theorem sharedNumber_idempotent :
    ∃ p, sharedNumber.filter firstTwoUnderBy = .ok p ∧
      p.filter firstTwoUnderBy = .ok p ∧ p.filter {} = .ok p :=
  ⟨_, rfl, filter_idempotent (s := sharedNumber) rfl⟩

end Sections

end ImageCatalog
