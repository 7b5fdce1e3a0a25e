import ImageCatalog.Proofs.Catalog.Floats
import ImageCatalog.Proofs.Dataset.Uniqueness

set_option autoImplicit false

namespace ImageCatalog

namespace Dataset

private theorem ofDocument_stored {d : Dataset} (storable : d.sections.Storable)
    (faithful : ∀ a ∈ d.sections.annotations.records, ∀ json ∈ a.segmentation, json.ObjectsReadBack)
    (path : String) (config : DatasetConfig) :
    ofDocument path d.toDocument config = .ok
      { path, config, info := d.info
        sections := d.sections.stored.withPolicy config.idPolicy } := by
  have sections := Document.sections_ofSections storable faithful d.info config.idPolicy
  rw [ofDocument, toDocument, sections]
  rfl

/-- Decoding undoes encoding: a dataset whose numbers are within the bound and finite, and whose
segmentations can be held and have objects that read back from their texts, is read from its
document. -/
theorem ofDocument_toDocument {d : Dataset} (storable : d.sections.Storable)
    (finite : ∀ a ∈ d.sections.annotations.records, ∀ x ∈ a.area, x.isFinite = true)
    (faithful : ∀ a ∈ d.sections.annotations.records, ∀ json ∈ a.segmentation, json.ObjectsReadBack)
    (path : String) (config : DatasetConfig) :
    ofDocument path d.toDocument config = .ok
      { path, config, info := d.info, sections := d.sections.withPolicy config.idPolicy } := by
  rw [ofDocument_stored storable faithful, Sections.stored_eq_self finite]

private theorem parse_pretty_toDocument {d : Dataset} (storable : d.sections.Storable)
    (shallow : Document.Shallow d.sections)
    (faithful : ∀ a ∈ d.sections.annotations.records, a.ReadsBack) (indent : Nat) :
    Document.parse (d.toDocument.pretty indent) = .ok d.toDocument := by
  have readable := Document.readable_ofSections shallow d.info
  have written := Document.readsBack_ofSections storable shallow faithful d.info
  rw [toDocument, Document.parse_pretty readable,
    (Document.reread_eq_self_iff readable).2 written]

/-- Two polygons and a run-length encoding, with a negative zero among the numbers. -/
def segmented : Dataset where
  path := "coco.json"
  info := { year := some 2024, description := some "two \"objects\"" }
  sections := {
    images := { records := [{ id := 7, fileName := "a.png", width := some 640, license := some 1 }] }
    annotations := { records := [
      { id := 1, imageId := 7, categoryId := maxRecordId
        box := ⟨.zero, ⟨0x8000000000000000⟩, ⟨0x3ff8000000000000⟩, ⟨0x3ff0000000000000⟩⟩
        segmentation := some (.array [
          .array [.number (.float ⟨0x8000000000000000⟩), .number (.integer 3), .null],
          .object [("counts", .array [.number (.integer 18446744073709551615)]),
            ("size", .array [.number (.float ⟨0x4004000000000000⟩)])]])
        area := some ⟨0x8000000000000000⟩ },
      { imageId := 7, categoryId := 0, isCrowd := 1, box := ⟨.zero, .zero, .zero, .zero⟩ }] }
    categories := { records := [{ id := maxRecordId, name := "cat" }] }
    licenses := { records := [{ id := 1, name := "free" }], policy := .strict } }

theorem segmented_ofDocument :
    segmented.sections.Storable ∧
      (∀ a ∈ segmented.sections.annotations.records, ∀ x ∈ a.area, x.isFinite = true) ∧
      (∀ a ∈ segmented.sections.annotations.records, ∀ json ∈ a.segmentation,
        json.ObjectsReadBack) ∧
      ofDocument "copy.json" segmented.toDocument { idPolicy := .strict } = .ok
        { path := "copy.json", config := { idPolicy := .strict }, info := segmented.info
          sections := segmented.sections.withPolicy .strict } := by
  have counts : (Json.number (.integer 18446744073709551615)).Readable 125 :=
    .number _ ⟨by decide, by decide⟩
  have size : (Json.number (.float ⟨0x4004000000000000⟩)).Readable 125 :=
    .number _ (by decide : Binary64.isFinite _ = true)
  have encoding : (Json.object [("counts", .array [.number (.integer 18446744073709551615)]),
      ("size", .array [.number (.float ⟨0x4004000000000000⟩)])]).Storable :=
    .object (.object (by decide) (List.forall_mem_cons.2
      ⟨.array (List.forall_mem_singleton.2 counts),
        List.forall_mem_singleton.2 (.array (List.forall_mem_singleton.2 size))⟩))
  have polygon : (Json.array [.number (.float ⟨0x8000000000000000⟩), .number (.integer 3),
      .null]).Storable :=
    .array (List.forall_mem_cons.2 ⟨.float (by decide), List.forall_mem_cons.2
      ⟨.integer (by decide), List.forall_mem_singleton.2 .null⟩⟩)
  have storable : segmented.sections.Storable := by
    refine ⟨List.forall_mem_singleton.2 ⟨by decide, ?_⟩,
      List.forall_mem_cons.2 ⟨⟨by decide, by decide, by decide, by decide, ?_⟩,
        List.forall_mem_singleton.2 ⟨by decide, by decide, by decide, by decide, ?_⟩⟩,
      List.forall_mem_singleton.2 (by decide), List.forall_mem_singleton.2 (by decide)⟩
    · rintro license ⟨⟩
      decide
    · rintro json ⟨⟩
      refine ⟨.array (List.forall_mem_cons.2 ⟨polygon, List.forall_mem_singleton.2 encoding⟩), ?_⟩
      nofun
    · nofun
  have finite : ∀ a ∈ segmented.sections.annotations.records, ∀ x ∈ a.area,
      x.isFinite = true := by decide
  have faithful : ∀ a ∈ segmented.sections.annotations.records, ∀ json ∈ a.segmentation,
      json.ObjectsReadBack := by decide +kernel
  exact ⟨storable, finite, faithful,
    ofDocument_toDocument storable finite faithful "copy.json" { idPolicy := .strict }⟩

/-- A dataset that was read from a text is read again from the text it is saved as, with the same
records in the same order, if the finite numbers of its annotations read back from their texts; only
an area that is not finite comes back absent. -/
theorem reload {text : String} {document : Document} {path : String} {config : DatasetConfig}
    {d : Dataset} (parsed : Document.parse text = .ok document)
    (accepted : ofDocument path document config = .ok d)
    (faithful : ∀ a ∈ d.sections.annotations.records, a.ReadsBack) (indent : Nat) :
    ∃ saved reloaded, Document.parse (d.toDocument.pretty indent) = .ok saved ∧
      ofDocument path saved config = .ok reloaded ∧ reloaded.info = d.info ∧
      reloaded.sections.images.records = d.sections.images.records ∧
      reloaded.sections.annotations.records =
        d.sections.annotations.records.map Annotation.stored ∧
      reloaded.sections.categories.records = d.sections.categories.records ∧
      reloaded.sections.licenses.records = d.sections.licenses.records := by
  obtain ⟨storable, shallow⟩ := Document.storable_of_sections (Document.readable_of_parse parsed)
    (sections_of_ofDocument accepted)
  have saved := parse_pretty_toDocument storable shallow faithful indent
  have objects := fun a mem json given =>
    ((faithful a mem).segmentation (shallow a mem) json given).objectsReadBack
  exact ⟨_, _, saved, ofDocument_stored storable objects path config, rfl, rfl, rfl, rfl, rfl⟩

/-- An annotation whose area a text gives as infinite. -/
def unbounded : Document where
  annotations := [
    .object [("area", .string "inf"),
      ("bbox", .array [.number (.integer 0), .number (.integer 0), .number (.integer 1),
        .number (.integer 1)]),
      ("category_id", .number (.integer 1)), ("id", .number (.integer 1)),
      ("image_id", .number (.integer 1))]]

private theorem readable_unbounded : unbounded.Readable := by
  have integer : ∀ depth n, -2 ^ 63 ≤ n ∧ n < 2 ^ 64 →
      (Json.number (.integer n)).Readable depth := fun depth n fits => .number depth fits
  refine ⟨nofun, List.forall_mem_singleton.2 (.object (by decide) ?_), nofun, nofun⟩
  have one := fun depth => integer depth 1 (by decide)
  have zero := fun depth => integer depth 0 (by decide)
  simp only [List.forall_mem_cons]
  refine ⟨.string _ _, .array ?_, one _, one _, one _, nofun⟩
  simp only [List.forall_mem_cons]
  exact ⟨zero _, zero _, one _, one _, nofun⟩

private theorem parse_unbounded (indent : Nat) :
    Document.parse (unbounded.pretty indent) = .ok unbounded := by
  rw [Document.parse_pretty readable_unbounded]
  rfl

theorem unbounded_reload :
    ∃ d, Document.parse (unbounded.pretty 4) = .ok unbounded ∧
      ofDocument "coco.json" unbounded {} = .ok d ∧
      (∀ a ∈ d.sections.annotations.records, a.ReadsBack) ∧
      ∃ saved reloaded, Document.parse (d.toDocument.pretty 2) = .ok saved ∧
        ofDocument "coco.json" saved {} = .ok reloaded ∧ reloaded.info = d.info ∧
        reloaded.sections.images.records = d.sections.images.records ∧
        reloaded.sections.annotations.records =
          d.sections.annotations.records.map Annotation.stored ∧
        reloaded.sections.categories.records = d.sections.categories.records ∧
        reloaded.sections.licenses.records = d.sections.licenses.records := by
  have parsed := parse_unbounded 4
  obtain ⟨d, accepted, faithful⟩ : ∃ d, ofDocument "coco.json" unbounded {} = .ok d ∧
      ∀ a ∈ d.sections.annotations.records, a.ReadsBack := ⟨_, rfl, by decide +kernel⟩
  exact ⟨d, parsed, accepted, faithful, reload parsed accepted faithful 2⟩

/-- The infinite area is lost when the dataset is saved. -/
theorem unbounded_area_lost :
    ∃ d reloaded, Document.parse (unbounded.pretty 4) = .ok unbounded ∧
      ofDocument "coco.json" unbounded {} = .ok d ∧
      Document.parse (d.toDocument.pretty 4) = .ok d.toDocument ∧
      ofDocument "coco.json" d.toDocument {} = .ok reloaded ∧
      d.sections.annotations.records.map (·.area) = [some (.infinity false)] ∧
      reloaded.sections.annotations.records.map (·.area) = [none] := by
  have sections := sections_of_ofDocument (rfl : ofDocument "coco.json" unbounded {} = .ok _)
  obtain ⟨storable, shallow⟩ := Document.storable_of_sections readable_unbounded sections
  have saved := parse_pretty_toDocument storable shallow (by decide +kernel) 4
  exact ⟨_, _, parse_unbounded 4, rfl, saved, ofDocument_stored storable (by decide) _ _, rfl, rfl⟩

end Dataset

end ImageCatalog
