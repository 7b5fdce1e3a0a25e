import ImageCatalog.Catalog.Links
import ImageCatalog.Proofs.Query.Semijoin
import ImageCatalog.Proofs.Value.Keys

set_option autoImplicit false

namespace ImageCatalog

namespace Image

-- The columns are reducible, so that lemmas on columns apply to fields given by name.
@[reducible] def idColumn : Column Image where
  name := "id"
  value i := .ofUInt64 i.id
  listed := by decide
  resolves _ := rfl

@[reducible] def licenseColumn : Column Image where
  name := "license"
  value i := .ofUInt64? i.license
  listed := by decide
  resolves _ := rfl

def isUnder (i : Image) (licenses : List License) : Bool :=
  licenses.any fun l => i.license.any fun n => SameKey n l.id

def isAnnotatedBy (i : Image) (annotations : List Annotation) : Bool :=
  annotations.any fun a => SameKey a.imageId i.id

end Image

namespace Annotation

@[reducible] def imageColumn : Column Annotation where
  name := "image_id"
  value a := .ofUInt64 a.imageId
  listed := by decide
  resolves _ := rfl

@[reducible] def categoryColumn : Column Annotation where
  name := "category_id"
  value a := .ofUInt64 a.categoryId
  listed := by decide
  resolves _ := rfl

def isOn (a : Annotation) (images : List Image) : Bool :=
  images.any fun i => SameKey i.id a.imageId

def isOf (a : Annotation) (categories : List Category) : Bool :=
  categories.any fun c => SameKey c.id a.categoryId

end Annotation

namespace Category

@[reducible] def idColumn : Column Category where
  name := "id"
  value c := .ofUInt64 c.id
  listed := by decide
  resolves _ := rfl

def isUsedBy (c : Category) (annotations : List Annotation) : Bool :=
  annotations.any fun a => SameKey a.categoryId c.id

end Category

namespace License

@[reducible] def idColumn : Column License where
  name := "id"
  value l := .ofUInt64 l.id
  listed := by decide
  resolves _ := rfl

def isUsedBy (l : License) (images : List Image) : Bool :=
  images.any fun i => i.license.any fun n => SameKey n l.id

end License

def Image.isUnderGiven (i : Image) (licenses : Option (Table License)) : Bool :=
  licenses.all fun t => i.isUnder t.records

/-- Whether the annotation is on one of the given images under the given licenses, if images are
given. -/
def Annotation.isOnGiven (a : Annotation) (images : Option (Table Image))
    (licenses : Option (Table License)) : Bool :=
  images.all fun t => a.isOn (t.only fun i => i.isUnderGiven licenses).records

def Annotation.isOfGiven (a : Annotation) (categories : Option (Table Category)) : Bool :=
  categories.all fun t => a.isOf t.records

private theorem meets_images (images : List Image) :
    Annotation.imageColumn.meets Image.idColumn images = fun a => a.isOn images := by
  funext a
  simp only [Column.meets, Value.answersFor_key, Annotation.isOn]

private theorem meets_categories (categories : List Category) :
    Annotation.categoryColumn.meets Category.idColumn categories = fun a => a.isOf categories := by
  funext a
  simp only [Column.meets, Value.answersFor_key, Annotation.isOf]

private theorem meets_licenses (licenses : List License) :
    Image.licenseColumn.meets License.idColumn licenses = fun i => i.isUnder licenses := by
  funext i
  simp only [Column.meets, Image.isUnder]
  congr 1
  funext l
  rw [Value.answersFor_comm, Value.answersFor_key?]

private theorem meets_annotations (annotations : List Annotation) :
    Image.idColumn.meets Annotation.imageColumn annotations =
      fun i => i.isAnnotatedBy annotations := by
  funext i
  simp only [Column.meets, Value.answersFor_key, Image.isAnnotatedBy]

private theorem meets_uses (annotations : List Annotation) :
    Category.idColumn.meets Annotation.categoryColumn annotations =
      fun c => c.isUsedBy annotations := by
  funext c
  simp only [Column.meets, Value.answersFor_key, Category.isUsedBy]

private theorem meets_licensed (images : List Image) :
    License.idColumn.meets Image.licenseColumn images = fun l => l.isUsedBy images := by
  funext l
  simp only [Column.meets, Value.answersFor_key?, License.isUsedBy]

/-- A constraint that no record fails, by the condition that it stands for. -/
def Intersection.Means {α : Type} [Record α] (i : Intersection) (condition : α → Bool) : Prop :=
  ∀ r : α, i.evaluate r = .ok (condition r)

theorem Outcome.both_ok (a b : Bool) : both (.ok a) (.ok b) = .ok (a && b) := by
  cases a <;> rfl

namespace Intersection

variable {α β : Type} [Record α] [Record β]

theorem means_true : (Intersection.mk []).Means fun _ : α => true := fun _ => rfl

theorem Means.add {i : Intersection} {condition : α → Bool} (means : i.Means condition)
    (column : Column α) (key : Column β) (peer : Table β) :
    (i.add (column.linkTo key peer)).Means fun r =>
      condition r && column.meets key peer.records r := by
  intro r
  rw [evaluate, Intersection.add, Outcome.all_append, ← evaluate, means r, Outcome.all,
    Outcome.all, column.evaluate_linkTo, Outcome.both_true, Outcome.both_ok]

def addLink? (i : Intersection) (column : Column α) (key : Column β) (peer : Option (Table β)) :
    Intersection :=
  match peer with
  | some peer => i.add (column.linkTo key peer)
  | none => i

theorem Means.addLink? {i : Intersection} {condition : α → Bool} (means : i.Means condition)
    (column : Column α) (key : Column β) (peer : Option (Table β)) :
    (i.addLink? column key peer).Means fun r =>
      condition r && peer.all fun peer => column.meets key peer.records r := by
  cases peer with
  | none =>
    intro r
    simp only [Option.all_none, Bool.and_true]
    exact means r
  | some peer => exact means.add column key peer

end Intersection

theorem licensedImages_eq (images : Table Image) (licenses : Option (Table License)) :
    licensedImages images licenses = .ok (images.only fun i => i.isUnderGiven licenses) := by
  cases licenses with
  | none => exact congrArg Except.ok (Table.only_true images).symm
  | some licenses =>
    rw [licensedImages, Image.licenseColumn.restrictToPeer_eq License.idColumn, meets_licenses]
    rfl

namespace Query

theorem linkAnnotations_means (q : Query) (images : Option (Table Image))
    (categories : Option (Table Category)) (licenses : Option (Table License)) :
    ∃ i : Intersection, q.linkAnnotations images categories licenses = .ok (q.constrain i) ∧
      i.Means fun a : Annotation => a.isOnGiven images licenses && a.isOfGiven categories := by
  refine ⟨(Intersection.addLink? {} Annotation.imageColumn Image.idColumn
    (images.map fun t => t.only fun i => i.isUnderGiven licenses)).addLink?
      Annotation.categoryColumn Category.idColumn categories, ?_, ?_⟩
  · unfold linkAnnotations
    cases images <;> cases categories <;>
      simp only [licensedImages_eq, Except.bind,
        Annotation.imageColumn.memberOf_eq Image.idColumn,
        Annotation.categoryColumn.memberOf_eq Category.idColumn] <;> rfl
  · have means := (Intersection.means_true.addLink? Annotation.imageColumn Image.idColumn
      (images.map fun t => t.only fun i => i.isUnderGiven licenses)).addLink?
        Annotation.categoryColumn Category.idColumn categories
    simpa only [meets_images, meets_categories, Bool.true_and, Option.all_map, Function.comp_def,
      Annotation.isOnGiven, Annotation.isOfGiven] using means

theorem linkImages_means (q : Query) (annotations : Table Annotation)
    (categories : Option (Table Category)) (licenses : Option (Table License)) :
    ∃ i : Intersection, q.linkImages annotations categories licenses = .ok (q.constrain i) ∧
      i.Means fun i : Image => i.isUnderGiven licenses &&
        i.isAnnotatedBy (annotations.only fun a => a.isOfGiven categories).records := by
  refine ⟨(Intersection.addLink? {} Image.licenseColumn License.idColumn licenses).add
    (Image.idColumn.linkTo Annotation.imageColumn
      (annotations.only fun a => a.isOfGiven categories)), ?_, ?_⟩
  · unfold linkImages
    cases categories <;> cases licenses <;>
      simp only [Image.licenseColumn.memberOf_eq License.idColumn,
        Image.idColumn.memberOf_eq Annotation.imageColumn,
        Annotation.categoryColumn.restrictToPeer_eq Category.idColumn, meets_categories,
        Annotation.isOfGiven, Option.all_none, Table.only_true] <;> rfl
  · have means := (Intersection.means_true.addLink? Image.licenseColumn License.idColumn
      licenses).add Image.idColumn Annotation.imageColumn
        (annotations.only fun a => a.isOfGiven categories)
    simpa only [meets_licenses, meets_annotations, Bool.true_and, Image.isUnderGiven] using means

theorem linkCategories_means (q : Query) (annotations : Table Annotation)
    (images : Option (Table Image)) (licenses : Option (Table License)) :
    ∃ i : Intersection, q.linkCategories annotations images licenses = .ok (q.constrain i) ∧
      i.Means fun c : Category =>
        c.isUsedBy (annotations.only fun a => a.isOnGiven images licenses).records := by
  refine ⟨Intersection.add {} (Category.idColumn.linkTo Annotation.categoryColumn
    (annotations.only fun a => a.isOnGiven images licenses)), ?_, ?_⟩
  · unfold linkCategories
    cases images <;>
      simp only [licensedImages_eq, Except.bind,
        Category.idColumn.memberOf_eq Annotation.categoryColumn,
        Annotation.imageColumn.restrictToPeer_eq Image.idColumn, meets_images,
        Annotation.isOnGiven, Option.all_none, Table.only_true] <;> rfl
  · have means := Intersection.means_true.add Category.idColumn Annotation.categoryColumn
      (annotations.only fun a => a.isOnGiven images licenses)
    simpa only [meets_uses, Bool.true_and] using means

theorem linkLicenses_means (q : Query) (images : Table Image) :
    ∃ i : Intersection, q.linkLicenses images = .ok (q.constrain i) ∧
      i.Means fun l : License => l.isUsedBy images.records := by
  refine ⟨Intersection.add {} (License.idColumn.linkTo Image.licenseColumn images), ?_, ?_⟩
  · unfold linkLicenses
    rw [License.idColumn.memberOf_eq Image.licenseColumn]
    rfl
  · have means := Intersection.means_true.add License.idColumn Image.licenseColumn images
    simpa only [meets_licensed, Bool.true_and] using means

end Query

end ImageCatalog
