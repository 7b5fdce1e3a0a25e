import ImageCatalog.Proofs.Catalog.Consistency

/-! Filtering a catalog in two steps, by queries for some of the kinds first and for others then. The
first step drops records that the second could have used, but none that would have been left. -/

set_option autoImplicit false

namespace ImageCatalog

namespace Table

variable {α : Type}

/-- Some of the records of a table, in the same order and under the same policy. -/
def IsPart (part whole : Table α) : Prop := ∃ condition : α → Bool, whole.only condition = part

theorem IsPart.refl (t : Table α) : t.IsPart t := ⟨_, t.only_true⟩

theorem IsPart.only {part whole : Table α} (inside : part.IsPart whole) (condition : α → Bool) :
    (part.only condition).IsPart whole := by
  obtain ⟨first, rfl⟩ := inside
  exact ⟨_, (only_only whole first condition).symm⟩

/-- The order is that of the whole table, so parts of it with the same records are the same. -/
theorem IsPart.eq_of_mem_iff {first second whole : Table α} (left : first.IsPart whole)
    (right : second.IsPart whole) (same : ∀ r, r ∈ first.records ↔ r ∈ second.records) :
    first = second := by
  obtain ⟨p, rfl⟩ := left
  obtain ⟨q, rfl⟩ := right
  refine only_congr fun r member => ?_
  have both := same r
  rw [mem_only, mem_only] at both
  rw [Bool.eq_iff_iff]
  constructor
  · exact fun holds => (both.1 ⟨member, holds⟩).2
  · exact fun holds => (both.2 ⟨member, holds⟩).2

end Table

structure Conditions where
  images : Image → Bool
  annotations : Annotation → Bool
  categories : Category → Bool
  licenses : License → Bool

namespace SectionQueries

def conditions (queries : SectionQueries) : Conditions where
  images i := queries.images.all fun q => q.holds i
  annotations a := queries.annotations.all fun q => q.holds a
  categories c := queries.categories.all fun q => q.holds c
  licenses l := queries.licenses.all fun q => q.holds l

def union (first second : SectionQueries) : SectionQueries where
  images := first.images.or second.images
  annotations := first.annotations.or second.annotations
  categories := first.categories.or second.categories
  licenses := first.licenses.or second.licenses

structure Disjoint (first second : SectionQueries) : Prop where
  images : first.images = none ∨ second.images = none
  annotations : first.annotations = none ∨ second.annotations = none
  categories : first.categories = none ∨ second.categories = none
  licenses : first.licenses = none ∨ second.licenses = none

theorem Disjoint.unlicensed {first second : SectionQueries} (disjoint : first.Disjoint second) :
    first.licenses.isSome = false ∨ second.licenses.isSome = false := by
  simpa only [Option.isSome_eq_false_iff, Option.isNone_iff_eq_none] using disjoint.licenses

theorem isSome_licenses_union (first second : SectionQueries) :
    (first.union second).licenses.isSome = (first.licenses.isSome || second.licenses.isSome) :=
  Option.isSome_or

theorem conditions_licenses_of_unlicensed {queries : SectionQueries}
    (unlicensed : queries.licenses.isSome = false) (l : License) :
    queries.conditions.licenses l = true := by
  rw [Option.isSome_eq_false_iff, Option.isNone_iff_eq_none] at unlicensed
  simp only [conditions, unlicensed, Option.all_none]

end SectionQueries

namespace Sections

def narrow (s : Sections) (conditions : Conditions) : Sections where
  images := s.images.only conditions.images
  annotations := s.annotations.only conditions.annotations
  categories := s.categories.only conditions.categories
  licenses := s.licenses.only conditions.licenses

section Linking

variable {once : Sections} {f : Conditions} {first second : Bool}

/-- Licenses are narrowed in one step at most, so the licenses that images have to be under are the
same in both orders. -/
private theorem isUnderGiven_narrow (alone : first = false ∨ second = false)
    (whole : second = false → ∀ l, f.licenses l = true) (i : Image) :
    i.isUnderGiven ((once.narrow f).givenLicenses (first || second)) = true ↔
      i.isUnderGiven (once.givenLicenses first) = true ∧
        i.isUnderGiven (((once.link first).narrow f).givenLicenses second) = true := by
  cases second with
  | true =>
    obtain rfl : first = false := by simpa using alone
    have untouched : (once.link false).licenses = once.licenses := rfl
    have unasked : i.isUnderGiven (once.givenLicenses false) = true := rfl
    rw [and_iff_right unasked]
    simp only [givenLicenses, narrow, untouched, Bool.or_true]
  | false =>
    have all : (once.narrow f).licenses = once.licenses :=
      Table.only_eq_self fun l _ => whole rfl l
    have unasked : i.isUnderGiven (((once.link first).narrow f).givenLicenses false) = true := rfl
    rw [and_iff_left unasked]
    simp only [givenLicenses, all, Bool.or_false]

theorem annotations_link_narrow (alone : first = false ∨ second = false)
    (whole : second = false → ∀ l, f.licenses l = true) :
    (((once.link first).narrow f).link second).annotations =
      ((once.narrow f).link (first || second)).annotations := by
  have left : (((once.link first).narrow f).link second).annotations.IsPart once.annotations :=
    (((Table.IsPart.refl _).only _).only _).only _
  have right : ((once.narrow f).link (first || second)).annotations.IsPart once.annotations :=
    ((Table.IsPart.refl _).only _).only _
  refine left.eq_of_mem_iff right fun a => ?_
  rw [mem_annotations_link, mem_annotations_link]
  constructor
  · rintro ⟨kept, ⟨i, image, under, same⟩, c, category, same'⟩
    obtain ⟨linked, accepted⟩ := Table.mem_only.1 kept
    obtain ⟨linkedImage, acceptedImage⟩ := Table.mem_only.1 image
    obtain ⟨linkedCategory, acceptedCategory⟩ := Table.mem_only.1 category
    obtain ⟨given, licensed, -⟩ := mem_images_link.1 linkedImage
    refine ⟨Table.mem_only.2 ⟨(mem_annotations_link.1 linked).1, accepted⟩, ?_, ?_⟩
    · exact ⟨i, Table.mem_only.2 ⟨given, acceptedImage⟩,
        (isUnderGiven_narrow alone whole i).2 ⟨licensed, under⟩, same⟩
    · exact ⟨c, Table.mem_only.2 ⟨(mem_categories_link.1 linkedCategory).1, acceptedCategory⟩, same'⟩
  · -- The image and the category are linked in the first step because of this very annotation.
    rintro ⟨kept, ⟨i, image, under, same⟩, c, category, same'⟩
    obtain ⟨given, accepted⟩ := Table.mem_only.1 kept
    obtain ⟨givenImage, acceptedImage⟩ := Table.mem_only.1 image
    obtain ⟨givenCategory, acceptedCategory⟩ := Table.mem_only.1 category
    obtain ⟨licensed, licensed'⟩ := (isUnderGiven_narrow alone whole i).1 under
    have linked : a ∈ (once.link first).annotations.records := mem_annotations_link.2
      ⟨given, ⟨i, givenImage, licensed, same⟩, c, givenCategory, same'⟩
    have linkedImage : i ∈ (once.link first).images.records :=
      mem_images_link.2 ⟨givenImage, licensed, a, linked, same.symm⟩
    have linkedCategory : c ∈ (once.link first).categories.records :=
      mem_categories_link.2 ⟨givenCategory, a, linked, same'.symm⟩
    refine ⟨Table.mem_only.2 ⟨linked, accepted⟩, ?_, ?_⟩
    · exact ⟨i, Table.mem_only.2 ⟨linkedImage, acceptedImage⟩, licensed', same⟩
    · exact ⟨c, Table.mem_only.2 ⟨linkedCategory, acceptedCategory⟩, same'⟩

private theorem mem_link_of_mem_link_narrow {a : Annotation}
    (member : a ∈ (((once.link first).narrow f).link second).annotations.records) :
    a ∈ (once.link first).annotations.records :=
  (Table.mem_only.1 (mem_annotations_link.1 member).1).1

theorem images_link_narrow (alone : first = false ∨ second = false)
    (whole : second = false → ∀ l, f.licenses l = true) :
    (((once.link first).narrow f).link second).images =
      ((once.narrow f).link (first || second)).images := by
  have left : (((once.link first).narrow f).link second).images.IsPart once.images :=
    (((Table.IsPart.refl _).only _).only _).only _
  have right : ((once.narrow f).link (first || second)).images.IsPart once.images :=
    ((Table.IsPart.refl _).only _).only _
  refine left.eq_of_mem_iff right fun i => ?_
  rw [mem_images_link, mem_images_link, ← annotations_link_narrow alone whole]
  constructor
  · rintro ⟨kept, under, annotated⟩
    obtain ⟨linked, accepted⟩ := Table.mem_only.1 kept
    obtain ⟨given, licensed, -⟩ := mem_images_link.1 linked
    exact ⟨Table.mem_only.2 ⟨given, accepted⟩,
      (isUnderGiven_narrow alone whole i).2 ⟨licensed, under⟩, annotated⟩
  · -- An annotation that is left in the end was left by the first step, and kept its image there.
    rintro ⟨kept, under, a, member, same⟩
    obtain ⟨given, accepted⟩ := Table.mem_only.1 kept
    obtain ⟨licensed, licensed'⟩ := (isUnderGiven_narrow alone whole i).1 under
    have linked : i ∈ (once.link first).images.records :=
      mem_images_link.2 ⟨given, licensed, a, mem_link_of_mem_link_narrow member, same⟩
    exact ⟨Table.mem_only.2 ⟨linked, accepted⟩, licensed', a, member, same⟩

theorem categories_link_narrow (alone : first = false ∨ second = false)
    (whole : second = false → ∀ l, f.licenses l = true) :
    (((once.link first).narrow f).link second).categories =
      ((once.narrow f).link (first || second)).categories := by
  have left : (((once.link first).narrow f).link second).categories.IsPart once.categories :=
    (((Table.IsPart.refl _).only _).only _).only _
  have right : ((once.narrow f).link (first || second)).categories.IsPart once.categories :=
    ((Table.IsPart.refl _).only _).only _
  refine left.eq_of_mem_iff right fun c => ?_
  rw [mem_categories_link, mem_categories_link, ← annotations_link_narrow alone whole]
  constructor
  · rintro ⟨kept, used⟩
    obtain ⟨linked, accepted⟩ := Table.mem_only.1 kept
    exact ⟨Table.mem_only.2 ⟨(mem_categories_link.1 linked).1, accepted⟩, used⟩
  · rintro ⟨kept, a, member, same⟩
    obtain ⟨given, accepted⟩ := Table.mem_only.1 kept
    have linked : c ∈ (once.link first).categories.records :=
      mem_categories_link.2 ⟨given, a, mem_link_of_mem_link_narrow member, same⟩
    exact ⟨Table.mem_only.2 ⟨linked, accepted⟩, a, member, same⟩

theorem licenses_link_narrow (whole : second = false → ∀ l, f.licenses l = true) :
    (((once.link false).narrow f).link second).licenses =
      ((once.narrow f).link second).licenses := by
  have images : (((once.link false).narrow f).link second).images =
      ((once.narrow f).link (false || second)).images := images_link_narrow (Or.inl rfl) whole
  cases second with
  | false => rfl
  | true =>
    calc (((once.link false).narrow f).link true).licenses
        = (once.narrow f).licenses.only fun l =>
            l.isUsedBy (((once.link false).narrow f).link true).images.records := rfl
      _ = ((once.narrow f).link true).licenses := by rw [images]; rfl

private theorem isUsedBy_of_subset {l : License} {few many : List Image} (inside : few ⊆ many)
    (used : l.isUsedBy few = true) : l.isUsedBy many = true := by
  obtain ⟨i, member, refers⟩ := List.any_eq_true.1 used
  exact List.any_eq_true.2 ⟨i, inside member, refers⟩

/-- Licenses that the first step filters may lose their last image in the second one. -/
theorem licenses_link_narrow_of_first (whole : ∀ l, f.licenses l = true) :
    ((once.narrow f).link true).licenses =
      (((once.link true).narrow f).link false).licenses.only fun l =>
        l.isUsedBy ((once.narrow f).link true).images.records := by
  have images : (((once.link true).narrow f).link false).images =
      ((once.narrow f).link (true || false)).images :=
    images_link_narrow (Or.inr rfl) fun _ => whole
  have inside : ((once.narrow f).link true).images.records ⊆ (once.link true).images.records := by
    intro i member
    have left : i ∈ (((once.link true).narrow f).link false).images.records := by
      rw [images]
      exact member
    exact (Table.mem_only.1 (mem_images_link.1 left).1).1
  have all : (once.narrow f).licenses = once.licenses := Table.only_eq_self fun l _ => whole l
  have still : ((once.link true).narrow f).licenses = (once.link true).licenses :=
    Table.only_eq_self fun l _ => whole l
  calc ((once.narrow f).link true).licenses
      = (once.narrow f).licenses.only fun l =>
          l.isUsedBy ((once.narrow f).link true).images.records := rfl
    _ = (once.licenses.only fun l => l.isUsedBy (once.link true).images.records).only fun l =>
          l.isUsedBy ((once.narrow f).link true).images.records := by
        rw [all, Table.only_only]
        refine Table.only_congr fun l _ => ?_
        cases used : l.isUsedBy ((once.narrow f).link true).images.records with
        | false => rfl
        | true => rw [isUsedBy_of_subset inside used, Bool.and_true]
    _ = ((once.link true).narrow f).licenses.only fun l =>
          l.isUsedBy ((once.narrow f).link true).images.records := by rw [still]; rfl

end Linking

private theorem applyTo_of_subset {α : Type} [Record α] {t kept part : Table α}
    {query : Option Query} (result : applyTo t query = .ok kept)
    (inside : part.records ⊆ t.records) :
    applyTo part query = .ok (part.only fun r => query.all fun q => q.holds r) := by
  cases query with
  | none => exact congrArg Except.ok part.only_true.symm
  | some q =>
    obtain ⟨placed, total, -⟩ := Query.run_eq_ok_iff.1 result
    exact Query.run_eq_ok_iff.2 ⟨placed, fun r member => total r (inside member), rfl⟩

theorem narrow_within (s : Sections) (conditions : Conditions) : (s.narrow conditions).Within s :=
  ⟨List.filter_sublist.subset, List.filter_sublist.subset, List.filter_sublist.subset,
    List.filter_sublist.subset⟩

theorem ownParts_of_within {s t own : Sections} {queries : SectionQueries}
    (parts : s.ownParts queries = .ok own) (inside : t.Within s) :
    t.ownParts queries = .ok (t.narrow queries.conditions) := by
  obtain ⟨images, licenses, categories, annotations⟩ := ownParts_eq_ok_iff.1 parts
  exact ownParts_eq_ok_iff.2 ⟨applyTo_of_subset images inside.images,
    applyTo_of_subset licenses inside.licenses, applyTo_of_subset categories inside.categories,
    applyTo_of_subset annotations inside.annotations⟩

private theorem applyTo_or {α : Type} [Record α] {t kept : Table α} {first second : Option Query}
    (alone : first = none ∨ second = none) (result : applyTo t (first.or second) = .ok kept) :
    (∃ once, applyTo t first = .ok once) ∧ ∃ once, applyTo t second = .ok once := by
  rcases alone with rfl | rfl
  · rw [Option.none_or] at result
    exact ⟨⟨t, rfl⟩, kept, result⟩
  · rw [Option.or_none] at result
    exact ⟨⟨kept, result⟩, t, rfl⟩

private theorem only_or {α : Type} [Record α] {first second : Option Query}
    (alone : first = none ∨ second = none) (t : Table α) :
    (t.only fun r => (first.or second).all fun q => q.holds r) =
      (t.only fun r => first.all fun q => q.holds r).only fun r => second.all fun q => q.holds r := by
  rcases alone with rfl | rfl
  · simp only [Option.none_or, Option.all_none, Table.only_true]
  · simp only [Option.or_none, Option.all_none, Table.only_true]

theorem ownParts_union {s own : Sections} {first second : SectionQueries}
    (disjoint : first.Disjoint second) (parts : s.ownParts (first.union second) = .ok own) :
    (∃ once, s.ownParts first = .ok once) ∧ ∃ once, s.ownParts second = .ok once := by
  obtain ⟨images, licenses, categories, annotations⟩ := ownParts_eq_ok_iff.1 parts
  obtain ⟨⟨i, images⟩, i', images'⟩ := applyTo_or disjoint.images images
  obtain ⟨⟨l, licenses⟩, l', licenses'⟩ := applyTo_or disjoint.licenses licenses
  obtain ⟨⟨c, categories⟩, c', categories'⟩ := applyTo_or disjoint.categories categories
  obtain ⟨⟨a, annotations⟩, a', annotations'⟩ := applyTo_or disjoint.annotations annotations
  exact ⟨⟨⟨i, a, c, l⟩, ownParts_eq_ok_iff.2 ⟨images, licenses, categories, annotations⟩⟩,
    ⟨i', a', c', l'⟩, ownParts_eq_ok_iff.2 ⟨images', licenses', categories', annotations'⟩⟩

theorem narrow_union {first second : SectionQueries} (disjoint : first.Disjoint second)
    (s : Sections) : s.narrow (first.union second).conditions =
      (s.narrow first.conditions).narrow second.conditions := by
  unfold narrow
  rw [Sections.mk.injEq]
  exact ⟨only_or disjoint.images s.images, only_or disjoint.annotations s.annotations,
    only_or disjoint.categories s.categories, only_or disjoint.licenses s.licenses⟩

theorem filter_steps {s p : Sections} {first second : SectionQueries}
    (disjoint : first.Disjoint second) (result : s.filter (first.union second) = .ok p) :
    p = ((s.narrow first.conditions).narrow second.conditions).link
        (first.licenses.isSome || second.licenses.isSome) ∧
      s.filter first = .ok ((s.narrow first.conditions).link first.licenses.isSome) ∧
      ((s.narrow first.conditions).link first.licenses.isSome).filter second =
        .ok ((((s.narrow first.conditions).link first.licenses.isSome).narrow
          second.conditions).link second.licenses.isSome) := by
  obtain ⟨own, parts, rfl⟩ := filter_eq_ok_iff.1 result
  -- Each query runs on its whole section, so the second ones run on what the first step leaves.
  obtain ⟨⟨once, parts₁⟩, once', parts₂⟩ := ownParts_union disjoint parts
  have both : own = (s.narrow first.conditions).narrow second.conditions := by
    have whole := ownParts_of_within parts (Within.refl s)
    rw [parts, narrow_union disjoint] at whole
    exact Except.ok.inj whole
  have inside : ((s.narrow first.conditions).link first.licenses.isSome).Within s :=
    (link_within _ _).trans (narrow_within s _)
  refine ⟨?_, ?_, ?_⟩
  · rw [both, SectionQueries.isSome_licenses_union]
  · exact filter_eq_ok_iff.2 ⟨_, ownParts_of_within parts₁ (Within.refl s), rfl⟩
  · exact filter_eq_ok_iff.2 ⟨_, ownParts_of_within parts₂ inside, rfl⟩

/-- If sections can be filtered by the queries of both at once, they can be filtered by those of the
first and the result by those of the second, and that leaves the same images, annotations and
categories. It leaves the same licenses unless the first queries filter them; then those without an
image are left over from the first step. -/
theorem filter_union {s p : Sections} {first second : SectionQueries}
    (disjoint : first.Disjoint second) (result : s.filter (first.union second) = .ok p) :
    ∃ once twice, s.filter first = .ok once ∧ once.filter second = .ok twice ∧
      twice.images = p.images ∧ twice.annotations = p.annotations ∧
      twice.categories = p.categories ∧
      (second.licenses.isSome = true ∨ first.licenses = none ∧ second.licenses = none →
        twice.licenses = p.licenses) ∧
      (first.licenses.isSome = true →
        p.licenses = twice.licenses.only fun l => l.isUsedBy p.images.records) := by
  obtain ⟨rfl, step, step'⟩ := filter_steps disjoint result
  have alone := disjoint.unlicensed
  have whole : second.licenses.isSome = false → ∀ l, second.conditions.licenses l = true :=
    SectionQueries.conditions_licenses_of_unlicensed
  refine ⟨_, _, step, step', images_link_narrow alone whole, annotations_link_narrow alone whole,
    categories_link_narrow alone whole, ?_, ?_⟩
  · intro last
    have unlicensed : first.licenses.isSome = false := by
      rcases last with licensed | ⟨none, -⟩
      · simpa [licensed] using alone
      · rw [none, Option.isSome_none]
    rw [unlicensed, Bool.false_or]
    exact licenses_link_narrow whole
  · intro licensed
    have unlicensed : second.licenses.isSome = false := by simpa [licensed] using alone
    rw [licensed, unlicensed, Bool.or_false]
    exact licenses_link_narrow_of_first (whole unlicensed)

def firstTwo : SectionQueries where
  annotations := firstTwoUnderBy.annotations

def underBy : SectionQueries where
  licenses := firstTwoUnderBy.licenses

/-- The first step leaves all images. Of the two numbered 1 the second step leaves the one under the
license. -/
theorem sharedNumber_steps :
    firstTwo.Disjoint underBy ∧ ∃ p, sharedNumber.filter (firstTwo.union underBy) = .ok p ∧
      p.images.records.map (·.fileName) = ["a.png"] ∧
      ∃ once twice, sharedNumber.filter firstTwo = .ok once ∧ once.filter underBy = .ok twice ∧
        twice.images = p.images ∧ twice.annotations = p.annotations ∧
        twice.categories = p.categories ∧ twice.licenses = p.licenses := by
  have disjoint : firstTwo.Disjoint underBy := by constructor <;> simp [firstTwo, underBy]
  refine ⟨disjoint, _, rfl, rfl, ?_⟩
  obtain ⟨once, twice, step, step', images, annotations, categories, licenses, -⟩ :=
    filter_union (s := sharedNumber) disjoint rfl
  exact ⟨once, twice, step, step', images, annotations, categories, licenses (Or.inl rfl)⟩

end Sections

end ImageCatalog
