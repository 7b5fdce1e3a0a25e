import ImageCatalog.Proofs.Catalog.References

/-! What each linking constraint keeps, by the numbers that records refer to: for every query, every
table and any of the peers absent, the linked query leaves what the query leaves, narrowed to the
records with the references asked for, and it fails as the query does. -/

set_option autoImplicit false

namespace ImageCatalog

def Image.RefersInto (i : Image) (licenses : Option (Table License)) : Prop :=
  ∀ t ∈ licenses, ∃ l ∈ t.records, i.license = some l.id

instance (i : Image) (licenses : Option (Table License)) : Decidable (i.RefersInto licenses) :=
  inferInstanceAs (Decidable (∀ t ∈ licenses, ∃ l ∈ t.records, i.license = some l.id))

/-- The annotation is on one of the images, if images are given, and that image is under one of the
licenses, if licenses are given too. -/
def Annotation.RefersInto (a : Annotation) (images : Option (Table Image))
    (licenses : Option (Table License)) : Prop :=
  ∀ t ∈ images, ∃ i ∈ t.records, i.id = a.imageId ∧ i.RefersInto licenses

instance (a : Annotation) (images : Option (Table Image)) (licenses : Option (Table License)) :
    Decidable (a.RefersInto images licenses) :=
  inferInstanceAs (Decidable (∀ t ∈ images, ∃ i ∈ t.records, i.id = a.imageId ∧
    i.RefersInto licenses))

def Annotation.BelongsTo (a : Annotation) (categories : Option (Table Category)) : Prop :=
  ∀ t ∈ categories, ∃ c ∈ t.records, c.id = a.categoryId

instance (a : Annotation) (categories : Option (Table Category)) :
    Decidable (a.BelongsTo categories) :=
  inferInstanceAs (Decidable (∀ t ∈ categories, ∃ c ∈ t.records, c.id = a.categoryId))

def Table.WithinBound {α : Type} [Record α] (t : Table α) : Prop :=
  ∀ r ∈ t.records, Record.idOf r ≤ maxRecordId

instance {α : Type} [Record α] (t : Table α) : Decidable t.WithinBound :=
  inferInstanceAs (Decidable (∀ r ∈ t.records, Record.idOf r ≤ maxRecordId))

theorem Image.isUnderGiven_iff_refersInto {i : Image} {licenses : Option (Table License)}
    (bound : ∀ t ∈ licenses, t.WithinBound) :
    i.isUnderGiven licenses = true ↔ i.RefersInto licenses := by
  rw [isUnderGiven, Option.all_eq_true]
  exact forall₂_congr fun t given => isUnder_iff (bound t given)

theorem Annotation.isOnGiven_iff_refersInto {a : Annotation} {images : Option (Table Image)}
    {licenses : Option (Table License)} (imageBound : ∀ t ∈ images, t.WithinBound)
    (licenseBound : ∀ t ∈ licenses, t.WithinBound) :
    a.isOnGiven images licenses = true ↔ a.RefersInto images licenses := by
  rw [isOnGiven, Option.all_eq_true]
  refine forall₂_congr fun t given => ?_
  have numbered : ∀ i ∈ (t.only fun i => i.isUnderGiven licenses).records, i.id ≤ maxRecordId :=
    fun i member => imageBound t given i (Table.mem_only.1 member).1
  rw [isOn_iff numbered]
  refine exists_congr fun i => ?_
  rw [Table.mem_only, Image.isUnderGiven_iff_refersInto licenseBound, and_assoc,
    and_comm (b := i.id = _)]

theorem Annotation.isOfGiven_iff_belongsTo {a : Annotation} {categories : Option (Table Category)}
    (bound : ∀ t ∈ categories, t.WithinBound) :
    a.isOfGiven categories = true ↔ a.BelongsTo categories := by
  rw [isOfGiven, Option.all_eq_true]
  exact forall₂_congr fun t given => isOf_iff (bound t given)

namespace Query

open Sections (sharedNumber)

variable {α : Type} [Record α]

/-- Running the linked query gives what running the query gives, a fault included, narrowed to the
records that satisfy the condition. -/
def Narrows (q : Query) (linked : Except Fault Query) (t : Table α) (condition : α → Prop)
    [DecidablePred condition] : Prop :=
  (linked.bind fun linked => linked.run t) = (q.run t).map fun kept => kept.only fun r => condition r

private theorem narrows_of_means {q : Query} {linked : Except Fault Query} {t : Table α}
    {means : α → Bool} {condition : α → Prop} [DecidablePred condition]
    (constrained : ∃ i : Intersection, linked = .ok (q.constrain i) ∧ i.Means means)
    (same : ∀ r ∈ t.records, means r = true ↔ condition r) : q.Narrows linked t condition := by
  obtain ⟨i, rfl, value⟩ := constrained
  rw [Narrows, Except.bind, run_constrain value]
  cases result : q.run t with
  | error fault => rfl
  | ok kept =>
    -- What the query leaves are records of the table, where both conditions are the same.
    refine congrArg Except.ok (Table.only_congr fun r member => ?_)
    rw [Bool.eq_iff_iff, decide_eq_true_iff]
    exact same r (run_subset result member)

theorem narrows_linkAnnotations (q : Query) (t : Table Annotation) {images : Option (Table Image)}
    {categories : Option (Table Category)} {licenses : Option (Table License)}
    (imageBound : ∀ t ∈ images, t.WithinBound) (categoryBound : ∀ t ∈ categories, t.WithinBound)
    (licenseBound : ∀ t ∈ licenses, t.WithinBound) :
    q.Narrows (q.linkAnnotations images categories licenses) t fun a =>
      a.RefersInto images licenses ∧ a.BelongsTo categories := by
  refine narrows_of_means (q.linkAnnotations_means images categories licenses) fun a _ => ?_
  rw [Bool.and_eq_true, Annotation.isOnGiven_iff_refersInto imageBound licenseBound,
    Annotation.isOfGiven_iff_belongsTo categoryBound]

theorem narrows_linkImages (q : Query) {t : Table Image} (bound : t.WithinBound)
    (annotations : Table Annotation) {categories : Option (Table Category)}
    {licenses : Option (Table License)} (categoryBound : ∀ t ∈ categories, t.WithinBound)
    (licenseBound : ∀ t ∈ licenses, t.WithinBound) :
    q.Narrows (q.linkImages annotations categories licenses) t fun i =>
      (∃ a ∈ annotations.records, a.imageId = i.id ∧ a.BelongsTo categories) ∧
        i.RefersInto licenses := by
  refine narrows_of_means (q.linkImages_means annotations categories licenses) fun i member => ?_
  rw [Bool.and_eq_true, Image.isUnderGiven_iff_refersInto licenseBound,
    Image.isAnnotatedBy_iff (bound i member), and_comm]
  refine and_congr_left' (exists_congr fun a => ?_)
  rw [Table.mem_only, Annotation.isOfGiven_iff_belongsTo categoryBound, and_assoc,
    and_comm (b := a.imageId = _)]

theorem narrows_linkCategories (q : Query) {t : Table Category} (bound : t.WithinBound)
    (annotations : Table Annotation) {images : Option (Table Image)}
    {licenses : Option (Table License)} (imageBound : ∀ t ∈ images, t.WithinBound)
    (licenseBound : ∀ t ∈ licenses, t.WithinBound) :
    q.Narrows (q.linkCategories annotations images licenses) t fun c =>
      ∃ a ∈ annotations.records, a.categoryId = c.id ∧ a.RefersInto images licenses := by
  refine narrows_of_means (q.linkCategories_means annotations images licenses) fun c member => ?_
  rw [Category.isUsedBy_iff (bound c member)]
  refine exists_congr fun a => ?_
  rw [Table.mem_only, Annotation.isOnGiven_iff_refersInto imageBound licenseBound, and_assoc,
    and_comm (b := a.categoryId = _)]

theorem narrows_linkLicenses (q : Query) {t : Table License} (bound : t.WithinBound)
    (images : Table Image) :
    q.Narrows (q.linkLicenses images) t fun l => ∃ i ∈ images.records, i.license = some l.id :=
  narrows_of_means (q.linkLicenses_means images) fun l member =>
    License.isUsedBy_iff (bound l member)

/-- Linking a query, whatever it asks for and whichever peers are given, narrows what it leaves of a
table to the records with the references that the peers call for. -/
theorem narrows_links (q : Query) {s : Sections} (bound : s.WithinBound)
    (annotations : Table Annotation) (used : Table Image) {images : Option (Table Image)}
    {categories : Option (Table Category)} {licenses : Option (Table License)}
    (imageBound : ∀ t ∈ images, t.WithinBound) (categoryBound : ∀ t ∈ categories, t.WithinBound)
    (licenseBound : ∀ t ∈ licenses, t.WithinBound) :
    (q.Narrows (q.linkAnnotations images categories licenses) s.annotations fun a =>
      a.RefersInto images licenses ∧ a.BelongsTo categories) ∧
    (q.Narrows (q.linkImages annotations categories licenses) s.images fun i =>
      (∃ a ∈ annotations.records, a.imageId = i.id ∧ a.BelongsTo categories) ∧
        i.RefersInto licenses) ∧
    (q.Narrows (q.linkCategories annotations images licenses) s.categories fun c =>
      ∃ a ∈ annotations.records, a.categoryId = c.id ∧ a.RefersInto images licenses) ∧
    q.Narrows (q.linkLicenses used) s.licenses fun l =>
      ∃ i ∈ used.records, i.license = some l.id :=
  ⟨q.narrows_linkAnnotations s.annotations imageBound categoryBound licenseBound,
    q.narrows_linkImages bound.images annotations categoryBound licenseBound,
    q.narrows_linkCategories bound.categories annotations imageBound licenseBound,
    q.narrows_linkLicenses bound.licenses used⟩

def firstOrSeventh : Query := ((empty.compareId (.int 1) .eq).join .or).compareId (.int 7) .eq

def onlyDogs : Table Category := .ofList [{ id := 6, name := "dog" }]

def onlyBy : Table License := .ofList [{ id := 4, name := "by" }]

/-- Both images numbered 1 have an annotation of a dog, but only one of them is under the license. -/
theorem firstOrSeventh_narrows :
    sharedNumber.WithinBound ∧ (∀ t ∈ some sharedNumber.images, t.WithinBound) ∧
    (∀ t ∈ some onlyDogs, t.WithinBound) ∧ (∀ t ∈ some onlyBy, t.WithinBound) ∧
    (firstOrSeventh.Narrows (firstOrSeventh.linkImages sharedNumber.annotations (some onlyDogs)
        (some onlyBy)) sharedNumber.images fun i =>
      (∃ a ∈ sharedNumber.annotations.records, a.imageId = i.id ∧ a.BelongsTo (some onlyDogs)) ∧
        i.RefersInto (some onlyBy)) ∧
    ((firstOrSeventh.linkImages sharedNumber.annotations (some onlyDogs) (some onlyBy)).bind
      fun linked => linked.run sharedNumber.images).map (fun t => t.records.map (·.fileName)) =
        .ok ["a.png"] := by
  have bound : sharedNumber.WithinBound := by constructor <;> decide
  have imageBound : ∀ t ∈ some sharedNumber.images, t.WithinBound := by decide
  have categoryBound : ∀ t ∈ some onlyDogs, t.WithinBound := by decide
  have licenseBound : ∀ t ∈ some onlyBy, t.WithinBound := by decide
  have narrows := narrows_links firstOrSeventh bound sharedNumber.annotations sharedNumber.images
    imageBound categoryBound licenseBound
  exact ⟨bound, imageBound, categoryBound, licenseBound, narrows.2.1, rfl⟩

end Query

end ImageCatalog
