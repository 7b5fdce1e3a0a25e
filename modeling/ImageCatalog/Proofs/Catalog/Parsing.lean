import ImageCatalog.Catalog.Document
import ImageCatalog.Proofs.Json.Nesting
import ImageCatalog.Proofs.Json.Structures

set_option autoImplicit false

namespace ImageCatalog

open JsonText (Reads BlankStyle Takes IgnoresBlank)

variable {style : Json.Style}

namespace Info

theorem reads_stringJson (level : Nat) (s : Option String) :
    Reads (JsonText.nullable (JsonText.stringValue "a string"))
      (Json.textAt style level (stringJson s)) s := by
  cases s with
  | none => exact JsonText.reads_null _
  | some s =>
    exact JsonText.reads_nullable (JsonText.reads_stringValue "a string" s) (by decide) (by decide)

theorem reads_intJson (level : Nat) (n : Option Int64) :
    Reads (JsonText.nullable JsonText.signed64) (Json.textAt style level (intJson n)) n := by
  cases n with
  | none => exact JsonText.reads_null _
  | some n =>
    obtain ⟨c, cs, text, first⟩ := JsonText.exists_text_number (JsonNumber.readable_int64 n)
    have found := JsonText.reads_signed64 n
    change (integerText n.toInt).toList = c :: cs at text
    change Reads _ (integerText n.toInt).toList _
    rw [text] at found ⊢
    refine JsonText.reads_nullable found (JsonText.isBlank_eq_false first) ?_
    rintro rfl
    simp at first

theorem reads_stringMember (blank : BlankStyle style) (level : Nat) {name : String}
    {set : Info → Option String → Info} (known : shape.find? name = some (stringSlot name set))
    {given : List String} (fresh : given.contains name = false) (info : Info)
    (s : Option String) :
    Reads (shape.member name (info, given))
      (':' :: (style.gap ++ Json.textAt style level (stringJson s))) (set info s, name :: given) :=
  JsonText.Shape.reads_member blank known fresh
    ((JsonText.nullable_ignoresBlank _).map _) ((reads_stringJson level s).map (set info))

theorem reads_toJson (blank : BlankStyle style) (level : Nat) (info : Info) :
    Reads reader (Json.textAt style level info.toJson) info := by
  have year : Reads (shape.member "year" ({}, []))
      (':' :: (style.gap ++ Json.textAt style (level + 1) (intJson info.year)))
      ({ year := info.year }, ["year"]) :=
    JsonText.Shape.reads_member blank rfl rfl ((JsonText.nullable_ignoresBlank _).map _)
      ((reads_intJson (level + 1) info.year).map fun year => { ({} : Info) with year })
  have takes : Takes shape.member style (level + 1) ({}, [])
      [("year", intJson info.year), ("version", stringJson info.version),
        ("description", stringJson info.description), ("contributor", stringJson info.contributor),
        ("url", stringJson info.url), ("date_created", stringJson info.dateCreated)]
      (info, ["date_created", "url", "contributor", "description", "version", "year"]) :=
    .cons year
      (.cons (reads_stringMember blank _ rfl rfl _ info.version)
      (.cons (reads_stringMember blank _ rfl rfl _ info.description)
      (.cons (reads_stringMember blank _ rfl rfl _ info.contributor)
      (.cons (reads_stringMember blank _ rfl rfl _ info.url)
      (.cons (reads_stringMember blank _ rfl rfl _ info.dateCreated) (.nil _))))))
  exact JsonText.Shape.reads_object blank takes rfl

end Info

namespace Document

/-- How deep an entry of a section may nest, as it stands two levels deep itself. -/
def entryDepth : Nat := JsonText.depthLimit - 2

structure Readable (document : Document) : Prop where
  images : ∀ json ∈ document.images, json.Readable entryDepth
  annotations : ∀ json ∈ document.annotations, json.Readable entryDepth
  categories : ∀ json ∈ document.categories, json.Readable entryDepth
  licenses : ∀ licenses ∈ document.licenses, ∀ json ∈ licenses, json.Readable entryDepth

/-- The document that the text of a document is read as. -/
def reread (document : Document) : Document :=
  { document with
    images := document.images.map Json.reread
    annotations := document.annotations.map Json.reread
    categories := document.categories.map Json.reread
    licenses := document.licenses.map (·.map Json.reread) }

def infoJson : Option Info → Json
  | some info => info.toJson
  | none => .null

def licensesJson : Option (List Json) → Json
  | some licenses => .array licenses
  | none => .null

theorem reads_infoJson (blank : BlankStyle style) (level : Nat) (info : Option Info) :
    Reads (JsonText.nullable Info.reader) (Json.textAt style level (infoJson info)) info := by
  cases info with
  | none => exact JsonText.reads_null _
  | some info =>
    have found := Info.reads_toJson blank level info
    rw [infoJson]
    rw [Info.toJson, JsonText.textAt_object] at found ⊢
    exact JsonText.reads_nullable found (by decide) (by decide)

theorem reads_licensesJson (blank : BlankStyle style) (level : Nat) {licenses : Option (List Json)}
    (readable : ∀ entries ∈ licenses, ∀ json ∈ entries, json.Readable entryDepth) :
    Reads (JsonText.nullable entries) (Json.textAt style level (licensesJson licenses))
      (licenses.map (·.map Json.reread)) := by
  cases licenses with
  | none => exact JsonText.reads_null _
  | some licenses =>
    have found : Reads entries (Json.textAt style level (.array licenses))
        (licenses.map Json.reread) :=
      JsonText.reads_sequence blank (readable licenses rfl)
    rw [licensesJson]
    rw [JsonText.textAt_array] at found ⊢
    exact JsonText.reads_nullable found (by decide) (by decide)

theorem reads_sectionMember (blank : BlankStyle style) (level : Nat) {name : String}
    {set : Document → List Json → Document} (known : shape.find? name = some (sectionSlot name set))
    {given : List String} (fresh : given.contains name = false) (document : Document)
    {found : List Json} (readable : ∀ json ∈ found, json.Readable entryDepth) :
    Reads (shape.member name (document, given))
      (':' :: (style.gap ++ Json.textAt style level (.array found)))
      (set document (found.map Json.reread), name :: given) :=
  JsonText.Shape.reads_member blank known fresh
    ((JsonText.sequence_ignoresBlank _).map _)
    ((JsonText.reads_sequence blank readable).map (set document))

theorem reads_toJson (blank : BlankStyle style) (level : Nat) {document : Document}
    (readable : document.Readable) :
    Reads reader (Json.textAt style level document.toJson) document.reread := by
  obtain ⟨info, images, annotations, categories, licenses⟩ := document
  have first : Reads (shape.member "info" ({}, []))
      (':' :: (style.gap ++ Json.textAt style (level + 1) (infoJson info))) ({ info }, ["info"]) :=
    JsonText.Shape.reads_member blank rfl rfl ((JsonText.nullable_ignoresBlank _).map _)
      ((reads_infoJson blank (level + 1) info).map fun info => { ({} : Document) with info })
  have last : ∀ before : Document, Reads
      (shape.member "licenses" (before, ["categories", "annotations", "images", "info"]))
      (':' :: (style.gap ++ Json.textAt style (level + 1) (licensesJson licenses)))
      ({ before with licenses := licenses.map (·.map Json.reread) },
        ["licenses", "categories", "annotations", "images", "info"]) := fun before =>
    JsonText.Shape.reads_member blank rfl rfl ((JsonText.nullable_ignoresBlank _).map _)
      ((reads_licensesJson blank (level + 1) readable.licenses).map fun licenses =>
        { before with licenses })
  have takes : Takes shape.member style (level + 1) ({}, [])
      [("info", infoJson info), ("images", .array images), ("annotations", .array annotations),
        ("categories", .array categories), ("licenses", licensesJson licenses)]
      (reread { info, images, annotations, categories, licenses },
        ["licenses", "categories", "annotations", "images", "info"]) :=
    .cons first
      (.cons (reads_sectionMember blank _ rfl rfl _ readable.images)
      (.cons (reads_sectionMember blank _ rfl rfl _ readable.annotations)
      (.cons (reads_sectionMember blank _ rfl rfl _ readable.categories)
      (.cons (last _) (.nil _)))))
  have written : toJson { info, images, annotations, categories, licenses } = .object
      [("info", infoJson info), ("images", .array images), ("annotations", .array annotations),
        ("categories", .array categories), ("licenses", licensesJson licenses)] := by
    cases info <;> cases licenses <;> rfl
  rw [written]
  exact JsonText.Shape.reads_object blank takes rfl

theorem parse_pretty {document : Document} (readable : document.Readable) (indent : Nat) :
    parse (document.pretty indent) = .ok document.reread := by
  apply JsonText.Reads.readText
  rw [pretty, Json.pretty, Json.text, String.toList_ofList]
  exact reads_toJson (JsonText.blankStyle_lines indent) 0 readable

theorem preserves_readable : shape.Preserves Readable := by
  intro slot mem first cs next rest held read
  simp only [shape, List.mem_cons, List.not_mem_nil, or_false] at mem
  rcases mem with rfl | rfl | rfl | rfl | rfl <;>
    obtain ⟨⟨found, behind⟩, given, same⟩ := map_eq_ok_iff.1 read <;> cases same
  · exact ⟨held.images, held.annotations, held.categories, held.licenses⟩
  · exact { held with images := JsonText.readable_of_sequence given }
  · exact { held with annotations := JsonText.readable_of_sequence given }
  · exact { held with categories := JsonText.readable_of_sequence given }
  · refine { held with licenses := fun licenses mem => ?_ }
    obtain ⟨cs, read⟩ := JsonText.exists_of_nullable given licenses mem
    exact JsonText.readable_of_sequence read

theorem readable_of_parse {text : String} {document : Document}
    (accepted : parse text = .ok document) : document.Readable := by
  obtain ⟨cs, rest, read⟩ := JsonText.exists_of_readText accepted
  refine JsonText.Shape.invariant_of_read preserves_readable ?_ read
  exact ⟨by simp, by simp, by simp, by simp⟩

def allEntries (document : Document) : List Json :=
  document.images ++ document.annotations ++ document.categories ++ document.licenses.getD []

theorem forall_allEntries_iff {document : Document} {P : Json → Prop} :
    (∀ json ∈ document.allEntries, P json) ↔
      (∀ json ∈ document.images, P json) ∧ (∀ json ∈ document.annotations, P json) ∧
        (∀ json ∈ document.categories, P json) ∧
        ∀ licenses ∈ document.licenses, ∀ json ∈ licenses, P json := by
  have licenses : (∀ licenses ∈ document.licenses, ∀ json ∈ licenses, P json) ↔
      ∀ json ∈ document.licenses.getD [], P json := by
    cases document.licenses <;> simp
  simp only [allEntries, List.forall_mem_append, licenses, and_assoc]

/-- Document and section take two of the levels that text may nest. -/
theorem readable_iff {document : Document} :
    document.Readable ↔ ∀ json ∈ document.allEntries, json.WellFormed ∧ json.nesting ≤ 125 := by
  have depth : entryDepth = 125 := rfl
  simp only [← depth, ← Json.readable_iff, forall_allEntries_iff]
  exact ⟨fun ⟨images, annotations, categories, licenses⟩ =>
      ⟨images, annotations, categories, licenses⟩,
    fun ⟨images, annotations, categories, licenses⟩ =>
      ⟨images, annotations, categories, licenses⟩⟩

theorem reread_eq_self_iff {document : Document} (readable : document.Readable) :
    document.reread = document ↔ ∀ json ∈ document.allEntries, json.ReadsBack := by
  have each : ∀ {entries : List Json}, (∀ json ∈ entries, json.Readable entryDepth) →
      (entries.map Json.reread = entries ↔ ∀ json ∈ entries, json.ReadsBack) :=
    fun readable => map_eq_self_iff.trans
      (forall₂_congr fun json mem => (readable json mem).reread_eq_self_iff)
  have licenses : document.licenses.map (·.map Json.reread) = document.licenses ↔
      ∀ licenses ∈ document.licenses, ∀ json ∈ licenses, json.ReadsBack := by
    cases given : document.licenses with
    | none => simp
    | some licenses => simp [each (readable.licenses licenses given)]
  rw [forall_allEntries_iff, ← each readable.images, ← each readable.annotations,
    ← each readable.categories, ← licenses]
  obtain ⟨info, images, annotations, categories, licenses⟩ := document
  simp [reread]

/-- A document comes back from its indented text, with all that is present or absent in it, exactly
if its entries are well formed, nest at most 125 deep and hold floating-point numbers that read
back. -/
theorem parse_pretty_eq_ok_iff (document : Document) (indent : Nat) :
    parse (document.pretty indent) = .ok document ↔
      ∀ json ∈ document.allEntries, json.WellFormed ∧ json.nesting ≤ 125 ∧ json.ReadsBack := by
  have parts : (∀ json ∈ document.allEntries,
      json.WellFormed ∧ json.nesting ≤ 125 ∧ json.ReadsBack) ↔
        document.Readable ∧ ∀ json ∈ document.allEntries, json.ReadsBack := by
    rw [readable_iff, ← forall₂_and]
    simp only [and_assoc]
  rw [parts]
  constructor
  · intro same
    have readable := readable_of_parse same
    rw [parse_pretty readable, Except.ok.injEq] at same
    exact ⟨readable, (reread_eq_self_iff readable).1 same⟩
  · rintro ⟨readable, faithful⟩
    rw [parse_pretty readable, (reread_eq_self_iff readable).2 faithful]

end Document

end ImageCatalog
