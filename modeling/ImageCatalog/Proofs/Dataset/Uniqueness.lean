import ImageCatalog.Proofs.Catalog.Filtering
import ImageCatalog.Proofs.Catalog.Keys
import ImageCatalog.Proofs.Dataset.Filtering
import ImageCatalog.Proofs.Dataset.Replacing

/-! Datasets under the strict policy. Nothing that is done to a dataset makes two records of a kind
share a number, but its document may: entries are taken as they are. So a dataset never holds a
number twice iff none of the sections that it was read from gives one twice. -/

set_option autoImplicit false

namespace ImageCatalog

namespace Sections

structure Guarded (s : Sections) : Prop where
  images : s.images.Guarded
  annotations : s.annotations.Guarded
  categories : s.categories.Guarded
  licenses : s.licenses.Guarded

/-- In no section do two records share a number that they have been given. -/
structure DistinctIds (s : Sections) : Prop where
  images : s.images.DistinctIds
  annotations : s.annotations.DistinctIds
  categories : s.categories.DistinctIds
  licenses : s.licenses.DistinctIds

theorem guarded_empty : (empty .strict).Guarded :=
  ⟨Table.guarded_empty, Table.guarded_empty, Table.guarded_empty, Table.guarded_empty⟩

private theorem leadsTo_applyTo {α : Type} [Record α] {t kept : Table α} {query : Option Query}
    (result : applyTo t query = .ok kept) : t.LeadsTo kept := by
  cases query with
  | none =>
    obtain rfl : t = kept := Except.ok.inj result
    exact Table.LeadsTo.refl t
  | some q =>
    obtain ⟨-, -, rfl⟩ := Query.run_eq_ok_iff.1 result
    exact Table.LeadsTo.of_sublist List.filter_sublist

private theorem guarded_only {α : Type} [Record α] {t : Table α} (guarded : t.Guarded)
    (condition : α → Bool) : (t.only condition).Guarded :=
  guarded.of_leadsTo (Table.LeadsTo.of_sublist List.filter_sublist)

theorem Guarded.filter {s p : Sections} {queries : SectionQueries} (guarded : s.Guarded)
    (result : s.filter queries = .ok p) : p.Guarded := by
  obtain ⟨own, parts, rfl⟩ := filter_eq_ok_iff.1 result
  obtain ⟨images, licenses, categories, annotations⟩ := ownParts_eq_ok_iff.1 parts
  have ownLicenses := guarded.licenses.of_leadsTo (leadsTo_applyTo licenses)
  constructor
  case images => exact guarded_only (guarded.images.of_leadsTo (leadsTo_applyTo images)) _
  case annotations =>
    exact guarded_only (guarded.annotations.of_leadsTo (leadsTo_applyTo annotations)) _
  case categories =>
    exact guarded_only (guarded.categories.of_leadsTo (leadsTo_applyTo categories)) _
  case licenses =>
    rw [link]
    cases queries.licenses.isSome with
    | false => exact ownLicenses
    | true => exact guarded_only ownLicenses _

end Sections

namespace Document

def givenId? (kind : String) : Json → Option RecordId
  | .object members => ((Fields.ofObject members).recordId kind).toOption
  | _ => none

/-- Whether the entries of a section give no number twice; zero is none. -/
def NoneTwice (kind : String) (entries : List Json) : Prop :=
  ((entries.filterMap (givenId? kind)).filter (· ≠ 0)).Nodup

instance (kind : String) (entries : List Json) : Decidable (NoneTwice kind entries) :=
  inferInstanceAs (Decidable (List.Nodup _))

structure DistinctIds (document : Document) : Prop where
  images : NoneTwice "image" document.images
  annotations : NoneTwice "annotation" document.annotations
  categories : NoneTwice "category" document.categories
  licenses : NoneTwice "license" (document.licenses.getD [])

variable {α : Type} [FieldRecord α]

private theorem givenId?_of_readsAs (reads : FieldRecord.ReadsId α) {entry : Json} {r : α}
    (read : ReadsAs entry r) : givenId? (Record.kind α) entry = some (Record.idOf r) := by
  obtain ⟨members, rfl, read⟩ := read
  rw [givenId?, reads _ _ read]
  rfl

private theorem map_idOf_eq (reads : FieldRecord.ReadsId α) {entries : List Json}
    {records : List α} (pairs : List.Forall₂ ReadsAs entries records) :
    records.map Record.idOf = entries.filterMap (givenId? (Record.kind α)) := by
  induction pairs with
  | nil => rfl
  | cons first _ ih =>
    rw [List.filterMap_cons, givenId?_of_readsAs reads first, List.map_cons, ih]

private theorem decode_spec (reads : FieldRecord.ReadsId α) {sectionName : String}
    {entries : List Json} {policy : IdPolicy} {t : Table α}
    (result : decode sectionName entries policy = .ok t) :
    t.policy = policy ∧ (t.DistinctIds ↔ NoneTwice (Record.kind α) entries) := by
  obtain ⟨records, decoded, rfl⟩ := map_eq_ok_iff.1 result
  refine ⟨rfl, ?_⟩
  rw [Table.DistinctIds, NoneTwice, ← map_idOf_eq reads (forall₂_of_decodeFrom decoded)]
  rfl

theorem sections_spec {document : Document} {policy : IdPolicy} {s : Sections}
    (result : document.sections policy = .ok s) :
    (s.images.policy = policy ∧ s.annotations.policy = policy ∧ s.categories.policy = policy ∧
      s.licenses.policy = policy) ∧ (s.DistinctIds ↔ document.DistinctIds) := by
  obtain ⟨images, decodedImages, result⟩ := bind_eq_ok result
  obtain ⟨annotations, decodedAnnotations, result⟩ := bind_eq_ok result
  obtain ⟨categories, decodedCategories, result⟩ := bind_eq_ok result
  obtain ⟨licenses, decodedLicenses, result⟩ := bind_eq_ok result
  obtain rfl := Except.ok.inj result
  have ofImages := decode_spec Image.readsId decodedImages
  have ofAnnotations := decode_spec Annotation.readsId decodedAnnotations
  have ofCategories := decode_spec Category.readsId decodedCategories
  have ofLicenses := decode_spec License.readsId decodedLicenses
  refine ⟨⟨ofImages.1, ofAnnotations.1, ofCategories.1, ofLicenses.1⟩, ?_, ?_⟩
  · rintro ⟨i, a, c, l⟩
    exact ⟨ofImages.2.1 i, ofAnnotations.2.1 a, ofCategories.2.1 c, ofLicenses.2.1 l⟩
  · rintro ⟨i, a, c, l⟩
    exact ⟨ofImages.2.2 i, ofAnnotations.2.2 a, ofCategories.2.2 c, ofLicenses.2.2 l⟩

end Document

namespace Dataset

theorem sections_of_ofDocument {path : String} {document : Document} {config : DatasetConfig}
    {d : Dataset} (accepted : ofDocument path document config = .ok d) :
    document.sections config.idPolicy = .ok d.sections := by
  rw [ofDocument] at accepted
  cases read : document.sections config.idPolicy with
  | error cause => simp [read] at accepted
  | ok s =>
    rw [read] at accepted
    obtain rfl := Except.ok.inj accepted
    rfl

theorem distinctIds_ofDocument_iff {path : String} {document : Document} {config : DatasetConfig}
    {d : Dataset} (accepted : ofDocument path document config = .ok d) :
    d.sections.DistinctIds ↔ document.DistinctIds :=
  (Document.sections_spec (sections_of_ofDocument accepted)).2

theorem guarded_ofDocument {path : String} {document : Document} {config : DatasetConfig}
    {d : Dataset} (accepted : ofDocument path document config = .ok d)
    (strict : config.idPolicy = .strict) (once : document.DistinctIds) : d.sections.Guarded := by
  obtain ⟨⟨images, annotations, categories, licenses⟩, distinct⟩ :=
    Document.sections_spec (sections_of_ofDocument accepted)
  obtain ⟨i, a, c, l⟩ := distinct.2 once
  rw [strict] at images annotations categories licenses
  exact ⟨⟨images, i⟩, ⟨annotations, a⟩, ⟨categories, c⟩, ⟨licenses, l⟩⟩

/-- One operation on a dataset; the operations on a single table are those of `Table.Edit`. -/
inductive Edit where
  | images (e : Table.Edit Image)
  | annotations (e : Table.Edit Annotation)
  | categories (e : Table.Edit Category)
  | licenses (e : Table.Edit License)
  | appendWithImage (image : Image) (content : Option ByteArray)
  | updateWithImage (image : Image) (content : Option ByteArray)
  | deleteWithImage (id : RecordId) (deleteFile : Bool)
  | filter (queries : SectionQueries) (inPlace : Bool) (directory : Option String)

def edit (d : Dataset) (disk : Disk) : Edit → Dataset × Disk
  | .images e => (d.setImages (d.images.edit e), disk)
  | .annotations e =>
    ({ d with sections := { d.sections with annotations := d.sections.annotations.edit e } }, disk)
  | .categories e =>
    ({ d with sections := { d.sections with categories := d.sections.categories.edit e } }, disk)
  | .licenses e =>
    ({ d with sections := { d.sections with licenses := d.sections.licenses.edit e } }, disk)
  | .appendWithImage image content => (d.appendWithImage image content disk).2
  | .updateWithImage image content => (d.updateWithImage image content disk).2
  | .deleteWithImage id deleteFile => (d.deleteWithImage id deleteFile disk).2
  | .filter queries inPlace directory => (d.filter queries inPlace directory disk).2

def editAll (d : Dataset) (disk : Disk) (edits : List Edit) : Dataset × Disk :=
  edits.foldl (fun state e => state.1.edit state.2 e) (d, disk)

variable {d : Dataset}

/-- How a dataset comes about: empty, or from a document, given or on a disk, of which no section
gives a number twice. -/
inductive Start (config : DatasetConfig) : Dataset → Prop
  | empty (path : String) : Start config (.empty path config)
  | ofDocument {path : String} {document : Document} {d : Dataset} :
      Dataset.ofDocument path document config = .ok d → document.DistinctIds → Start config d
  | load {path : String} {document : Document} {d : Dataset} {disk : Disk} :
      (readDocument path disk).1 = .ok document → (Dataset.load path config disk).1 = .ok d →
      document.DistinctIds → Start config d

private theorem ofDocument_of_load {path : String} {config : DatasetConfig} {disk : Disk}
    {document : Document} (read : (readDocument path disk).1 = .ok document)
    (loaded : (load path config disk).1 = .ok d) : ofDocument path document config = .ok d := by
  rw [load] at loaded
  split at loaded
  · simp at loaded
  · next found after result =>
    obtain rfl : found = document := by simpa [result] using read
    exact loaded

theorem Start.guarded {config : DatasetConfig} (start : Start config d)
    (strict : config.idPolicy = .strict) : d.sections.Guarded := by
  cases start with
  | empty path =>
    rw [Dataset.empty, strict]
    exact Sections.guarded_empty
  | ofDocument accepted once => exact guarded_ofDocument accepted strict once
  | load read loaded once => exact guarded_ofDocument (ofDocument_of_load read loaded) strict once

end Dataset

end ImageCatalog
