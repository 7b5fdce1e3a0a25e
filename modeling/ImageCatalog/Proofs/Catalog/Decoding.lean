import ImageCatalog.Proofs.Catalog.Encoding
import ImageCatalog.Proofs.Catalog.Keys
import ImageCatalog.Proofs.Catalog.Parsing

set_option autoImplicit false

namespace ImageCatalog

namespace Value

/-- An integer past the signed range becomes a number of the other kind, and all else is held. -/
theorem storable_ofJson {depth : Nat} {json : Json} (readable : json.Readable depth)
    (shallow : depth ≤ JsonText.depthLimit) :
    (ofJson json).toJson.Storable ∧ (ofJson json).toJson.Readable depth := by
  induction readable with
  | null depth => exact ⟨.null, .null depth⟩
  | bool depth b => exact ⟨.bool b, .bool depth b⟩
  | string depth s => exact ⟨.string s, .string depth s⟩
  | @number depth n readable =>
    cases n with
    | float x =>
      rw [ofJson, JsonNumber.toValue, toJson, if_pos (show x.isFinite = true from readable)]
      exact ⟨.float readable, .number depth readable⟩
    | integer n =>
      by_cases fits : Binary64.fitsInt64 n = true
      · rw [ofJson, JsonNumber.toValue, if_pos fits, toJson, Binary64.toInt_ofInt_of_fits fits]
        exact ⟨.integer fits, .number depth readable⟩
      · have finite := JsonNumber.isFinite_ofInt readable
        rw [ofJson, JsonNumber.toValue, if_neg fits, toJson, if_pos finite]
        exact ⟨.float finite, .number depth finite⟩
  | @array depth items readable ih =>
    rw [ofJson, ofJsonItems_eq, toJson, toJsonItems_eq, List.map_map]
    have each := fun json mem => ih json mem (Nat.le_of_succ_le shallow)
    constructor
    · exact .array (List.forall_mem_map.2 fun json mem => (each json mem).1)
    · exact .array (List.forall_mem_map.2 fun json mem => (each json mem).2)
  | @object depth members sorted readable _ =>
    have whole := Json.Readable.object sorted readable
    have again := whole.reread
    rw [ofJson, toJson_json (whole.mono shallow)]
    rw [Json.reread_object] at again ⊢
    exact ⟨.object (again.mono shallow), again⟩

theorem toJson_ofJson_ne_null {depth : Nat} {json : Json} (readable : json.Readable depth)
    (shallow : depth ≤ JsonText.depthLimit) (present : (ofJson json).isNull = false) :
    (ofJson json).toJson ≠ .null := by
  cases readable with
  | null => cases present
  | bool => simp [ofJson, toJson]
  | string => simp [ofJson, toJson]
  | @number _ n readable =>
    cases n with
    | float x => simp [ofJson, JsonNumber.toValue, toJson, show x.isFinite = true from readable]
    | integer n =>
      rw [ofJson, JsonNumber.toValue]
      split <;> simp [toJson, JsonNumber.isFinite_ofInt readable]
  | array => simp [ofJson, toJson]
  | object sorted readable =>
    rw [ofJson, toJson_json ((Json.Readable.object sorted readable).mono shallow),
      Json.reread_object]
    exact Json.noConfusion

theorem isFinite_of_number? {depth : Nat} {json : Json} (readable : json.Readable depth)
    {x : Binary64} (number : (ofJson json).number? = some x) : x.isFinite = true := by
  cases readable with
  | @number _ n readable =>
    cases n with
    | float y =>
      obtain rfl : y = x := Option.some.inj number
      exact readable
    | integer n =>
      rw [ofJson, JsonNumber.toValue] at number
      split at number
      · obtain rfl := Option.some.inj number
        exact JsonNumber.isFinite_ofInt (JsonNumber.readable_int64 _)
      · obtain rfl := Option.some.inj number
        exact JsonNumber.isFinite_ofInt readable
  | _ => cases number

theorem exists_of_ofJson_eq_list {json : Json} {items : List Value}
    (same : ofJson json = .list items) :
    ∃ jsons, json = .array jsons ∧ items = jsons.map ofJson := by
  cases json with
  | array jsons =>
    rw [ofJson, ofJsonItems_eq] at same
    exact ⟨jsons, rfl, (Value.list.inj same).symm⟩
  | number n =>
    cases n with
    | integer n =>
      rw [ofJson, JsonNumber.toValue] at same
      split at same <;> cases same
    | float => cases same
  | _ => cases same

end Value

namespace Dictionary

theorem mem_of_find? {α : Type} {name : String} {value : α} {entries : List (String × α)}
    (found : find? name entries = some value) : (name, value) ∈ entries := by
  induction entries with
  | nil => cases found
  | cons head entries ih =>
    obtain ⟨key, other⟩ := head
    rw [find?] at found
    split at found
    · next same =>
      obtain rfl := Option.some.inj found
      exact same ▸ List.mem_cons_self
    · exact List.mem_cons_of_mem _ (ih found)

theorem mem_of_mem_collect {α : Type} {entry : String × α} {entries : List (String × α)}
    (mem : entry ∈ collect entries) : entry ∈ entries := by
  -- An entry is listed or was collected before.
  suffices ∀ found : List (String × α),
      entry ∈ entries.foldl (fun found entry => insert entry.1 entry.2 found) found →
        entry ∈ entries ∨ entry ∈ found by
    rcases this [] mem with mem | mem
    · exact mem
    · cases mem
  clear mem
  induction entries with
  | nil => exact fun found mem => Or.inr mem
  | cons head entries ih =>
    intro found mem
    rcases ih _ mem with mem | mem
    · exact Or.inl (List.mem_cons_of_mem head mem)
    · rcases mem_insert mem with rfl | mem
      · exact Or.inl List.mem_cons_self
      · exact Or.inr mem

end Dictionary

namespace Fields

variable {members : List (String × Json)}

theorem exists_of_optional? {name : String} {v : Value}
    (given : (ofObject members).optional? name = some v) :
    ∃ json, (name, json) ∈ members ∧ v = .ofJson json ∧ v.isNull = false := by
  rw [optional?, Option.filter_eq_some_iff] at given
  obtain ⟨found, present⟩ := given
  obtain ⟨⟨key, json⟩, mem, same⟩ :=
    List.mem_map.1 (Dictionary.mem_of_mem_collect (Dictionary.mem_of_find? found))
  obtain ⟨rfl, rfl⟩ := Prod.mk.inj same
  exact ⟨json, mem, rfl, by simpa using present⟩

theorem optional?_of_require {fields : Fields} {kind name : String} {v : Value}
    (found : fields.require kind name = .ok v) : fields.optional? name = some v := by
  rw [require] at found
  split at found
  · next w result =>
    obtain rfl := Except.ok.inj found
    exact result
  · cases found

end Fields

theorem Image.storable_of_ofFields {fields : Fields} {image : Image}
    (read : FieldRecord.ofFields fields = .ok image) : image.Storable := by
  obtain ⟨id, license⟩ := Image.keys_of_ofFields read
  exact ⟨Fields.le_of_recordId id, Fields.le_of_optionalKey license⟩

namespace Annotation

variable {members : List (String × Json)} {depth : Nat}

private theorem exists_of_requireList {items : List Value}
    (given : (Fields.ofObject members).requireList "annotation" "bbox" = .ok items) :
    ∃ jsons, ("bbox", .array jsons) ∈ members ∧ items = jsons.map Value.ofJson := by
  obtain ⟨v, found, list⟩ := bind_eq_ok given
  have value : v = .list items := by
    rw [Fields.readAs] at list
    cases v with
    | list others => exact congrArg Value.list (Except.ok.inj list)
    | _ => cases list
  obtain ⟨json, mem, same, -⟩ := Fields.exists_of_optional? (Fields.optional?_of_require found)
  rw [value] at same
  obtain ⟨jsons, rfl, listed⟩ := Value.exists_of_ofJson_eq_list same.symm
  exact ⟨jsons, mem, listed⟩

private theorem isFinite_of_boxNumber {json : Json} (readable : json.Readable depth)
    {x : Binary64} (read : boxNumber (.ofJson json) = .ok x) : x.isFinite = true := by
  rw [boxNumber] at read
  split at read
  · next y found =>
    obtain rfl := Except.ok.inj read
    exact Value.isFinite_of_number? readable found
  · cases read

private theorem isFinite_of_readBox (readable : ∀ member ∈ members, member.2.Readable depth)
    {box : Box} (read : readBox (Fields.ofObject members) = .ok box) :
    ∀ x ∈ box.toList, x.isFinite = true := by
  obtain ⟨items, given, read⟩ := bind_eq_ok read
  obtain ⟨jsons, mem, rfl⟩ := exists_of_requireList given
  have each : ∀ item ∈ jsons.map Value.ofJson, ∀ x, boxNumber item = .ok x →
      x.isFinite = true := by
    intro item listed x number
    obtain ⟨json, inside, rfl⟩ := List.mem_map.1 listed
    cases readable _ mem with
    | array items => exact isFinite_of_boxNumber (items json inside) number
  split at read
  · next x y width height same =>
    rw [same] at each
    obtain ⟨x', givenX, read⟩ := bind_eq_ok read
    obtain ⟨y', givenY, read⟩ := bind_eq_ok read
    obtain ⟨width', givenWidth, read⟩ := bind_eq_ok read
    obtain ⟨height', givenHeight, read⟩ := bind_eq_ok read
    cases read
    have finiteX := each x (by simp) x' givenX
    have finiteY := each y (by simp) y' givenY
    have finiteWidth := each width (by simp) width' givenWidth
    have finiteHeight := each height (by simp) height' givenHeight
    simp [Box.toList, finiteX, finiteY, finiteWidth, finiteHeight]
  · cases read

private theorem storable_of_optional? (readable : ∀ member ∈ members, member.2.Readable depth)
    (shallow : depth ≤ JsonText.depthLimit) :
    ∀ json ∈ ((Fields.ofObject members).optional? "segmentation").map Value.toJson,
      json.Storable ∧ json ≠ .null ∧ json.Readable depth := by
  intro json given
  obtain ⟨v, found, rfl⟩ := Option.map_eq_some_iff.1 given
  obtain ⟨source, mem, rfl, present⟩ := Fields.exists_of_optional? found
  have whole := readable _ mem
  obtain ⟨storable, within⟩ := Value.storable_ofJson whole shallow
  exact ⟨storable, Value.toJson_ofJson_ne_null whole shallow present, within⟩

theorem storable_of_ofFields (readable : ∀ member ∈ members, member.2.Readable depth)
    (shallow : depth ≤ JsonText.depthLimit) {a : Annotation}
    (read : FieldRecord.ofFields (Fields.ofObject members) = .ok a) :
    a.Storable ∧ ∀ json ∈ a.segmentation, json.Readable depth := by
  obtain ⟨⟨id, imageId, categoryId⟩, box, segmentation⟩ := Annotation.parts_of_ofFields read
  have each : ∀ json ∈ a.segmentation, json.Storable ∧ json ≠ .null ∧ json.Readable depth := by
    rw [segmentation]
    exact storable_of_optional? readable shallow
  constructor
  · exact ⟨Fields.le_of_recordId id, Fields.le_of_requireKey imageId,
      Fields.le_of_requireKey categoryId, isFinite_of_readBox readable box,
      fun json given => ⟨(each json given).1, (each json given).2.1⟩⟩
  · exact fun json given => (each json given).2.2

end Annotation

/-- What holds of every null, integer and string as they are written. -/
structure Json.HoldsOfPlain (P : Json → Prop) : Prop where
  null : P .null
  int : ∀ n : Int64, P (Value.int n).toJson
  string : ∀ s : String, P (.string s)

namespace Value

variable {P : Json → Prop}

theorem forall_ofOption {α : Type} {value : α → Value} (null : P .null) {a : Option α}
    (each : ∀ x ∈ a, P (value x).toJson) : P (ofOption (a.map value)).toJson := by
  cases a with
  | none => exact null
  | some x => exact each x rfl

theorem holds_ofInt64? (plain : Json.HoldsOfPlain P) (n : Option Int64) : P (ofInt64? n).toJson :=
  forall_ofOption plain.null fun n _ => plain.int n

theorem holds_ofString? (plain : Json.HoldsOfPlain P) (s : Option String) :
    P (ofString? s).toJson :=
  forall_ofOption plain.null fun s _ => plain.string s

end Value

section Written

variable {P : Json → Prop}

theorem Record.forall_written {α : Type} [Record α] {r : α}
    (each : ∀ name ∈ Record.fieldNames α, ∀ v, Record.field? r name = some v → P v.toJson) :
    ∀ member ∈ (Record.allFields r).written, P member.2 := by
  refine List.forall_mem_map.2 fun entry mem => ?_
  obtain ⟨name, listed, same⟩ := List.mem_filterMap.1 (Dictionary.mem_of_mem_collect mem)
  obtain ⟨v, given, rfl⟩ := Option.map_eq_some_iff.1 same
  exact each name listed v given

theorem Image.forall_written (plain : Json.HoldsOfPlain P) {image : Image}
    (id : P (Value.ofUInt64 image.id).toJson)
    (license : ∀ n ∈ image.license, P (Value.ofUInt64 n).toJson) :
    ∀ member ∈ (FieldRecord.toFields image).written, P member.2 := by
  refine Record.forall_written fun name listed v given => ?_
  simp only [Record.fieldNames, List.mem_cons, List.not_mem_nil, or_false] at listed
  rcases listed with rfl | rfl | rfl | rfl | rfl | rfl | rfl | rfl <;>
    obtain rfl := Option.some.inj given
  exacts [id, plain.string _, Value.holds_ofInt64? plain _, Value.holds_ofInt64? plain _,
    Value.forall_ofOption plain.null license, Value.holds_ofString? plain _,
    Value.holds_ofString? plain _, Value.holds_ofString? plain _]

theorem Category.forall_written (plain : Json.HoldsOfPlain P) {category : Category}
    (id : P (Value.ofUInt64 category.id).toJson) :
    ∀ member ∈ (FieldRecord.toFields category).written, P member.2 := by
  refine Record.forall_written fun name listed v given => ?_
  simp only [Record.fieldNames, List.mem_cons, List.not_mem_nil, or_false] at listed
  rcases listed with rfl | rfl | rfl <;> obtain rfl := Option.some.inj given
  exacts [id, plain.string _, Value.holds_ofString? plain _]

theorem License.forall_written (plain : Json.HoldsOfPlain P) {license : License}
    (id : P (Value.ofUInt64 license.id).toJson) :
    ∀ member ∈ (FieldRecord.toFields license).written, P member.2 := by
  refine Record.forall_written fun name listed v given => ?_
  simp only [Record.fieldNames, List.mem_cons, List.not_mem_nil, or_false] at listed
  rcases listed with rfl | rfl | rfl <;> obtain rfl := Option.some.inj given
  exacts [id, plain.string _, Value.holds_ofString? plain _]

theorem Annotation.forall_written (plain : Json.HoldsOfPlain P) {a : Annotation}
    (id : P (Value.ofUInt64 a.id).toJson) (imageId : P (Value.ofUInt64 a.imageId).toJson)
    (categoryId : P (Value.ofUInt64 a.categoryId).toJson)
    (segmentation : P a.segmentationValue.toJson) (area : ∀ x ∈ a.area, P (Value.float x).toJson)
    (box : P (.array (a.box.toList.map fun x => (Value.float x).toJson))) :
    ∀ member ∈ (FieldRecord.toFields a).written, P member.2 := by
  have corners : P (Value.list (a.box.toList.map Value.float)).toJson := by
    rw [Value.toJson, Value.toJsonItems_eq, List.map_map]
    exact box
  refine Record.forall_written fun name listed v given => ?_
  simp only [Record.fieldNames, List.mem_cons, List.not_mem_nil, or_false] at listed
  rcases listed with rfl | rfl | rfl | rfl | rfl | rfl | rfl <;>
    obtain rfl := Option.some.inj given
  exacts [id, imageId, categoryId, segmentation, Value.forall_ofOption plain.null area, corners,
    plain.int _]

end Written

theorem Json.HoldsOfPlain.readable (depth : Nat) :
    Json.HoldsOfPlain fun json => json.Readable depth where
  null := .null depth
  int n := .number depth (JsonNumber.readable_int64 n)
  string := .string depth

theorem Value.readable_float (depth : Nat) (x : Binary64) :
    (Value.float x).toJson.Readable depth := by
  rw [toJson]
  split
  · next finite => exact .number depth finite
  · exact .null depth

theorem Value.readable_ofUInt64 (depth : Nat) (n : UInt64) :
    (ofUInt64 n).toJson.Readable depth := by
  rw [ofUInt64]
  split
  · exact (Json.HoldsOfPlain.readable depth).int _
  · exact readable_float depth _

theorem Image.readable_toObject (image : Image) (depth : Nat) :
    (FieldRecord.toFields image).toObject.Readable (depth + 1) :=
  .object (Fields.sorted_written _) (forall_written (.readable depth)
    (Value.readable_ofUInt64 depth _) fun n _ => Value.readable_ofUInt64 depth n)

theorem Category.readable_toObject (category : Category) (depth : Nat) :
    (FieldRecord.toFields category).toObject.Readable (depth + 1) :=
  .object (Fields.sorted_written _)
    (forall_written (.readable depth) (Value.readable_ofUInt64 depth _))

theorem License.readable_toObject (license : License) (depth : Nat) :
    (FieldRecord.toFields license).toObject.Readable (depth + 1) :=
  .object (Fields.sorted_written _)
    (forall_written (.readable depth) (Value.readable_ofUInt64 depth _))

namespace Annotation

private theorem readable_segmentationValue {a : Annotation} {depth : Nat}
    (readable : ∀ json ∈ a.segmentation, json.Readable depth)
    (shallow : depth ≤ JsonText.depthLimit) : a.segmentationValue.toJson.Readable depth := by
  rw [segmentationValue]
  cases segmentation : a.segmentation with
  | none => exact .null depth
  | some json => exact (Value.storable_ofJson (readable json segmentation) shallow).2

theorem readable_toObject {a : Annotation} {depth : Nat}
    (readable : ∀ json ∈ a.segmentation, json.Readable (depth + 1))
    (shallow : depth + 1 ≤ JsonText.depthLimit) :
    (FieldRecord.toFields a).toObject.Readable (depth + 2) := by
  refine .object (Fields.sorted_written _) (forall_written (.readable (depth + 1))
    (Value.readable_ofUInt64 _ _) (Value.readable_ofUInt64 _ _) (Value.readable_ofUInt64 _ _)
    (readable_segmentationValue readable shallow) (fun x _ => Value.readable_float _ x) ?_)
  exact .array (List.forall_mem_map.2 fun x _ => Value.readable_float depth x)

end Annotation

namespace Document

variable {α : Type} [FieldRecord α]

private theorem exists_of_mem {entries : List Json} {records : List α}
    (pairs : List.Forall₂ ReadsAs entries records) :
    ∀ r ∈ records, ∃ members, .object members ∈ entries ∧
      FieldRecord.ofFields (Fields.ofObject members) = .ok r := by
  induction pairs with
  | nil => exact fun _ mem => absurd mem List.not_mem_nil
  | @cons entry r entries records first _ ih =>
    refine List.forall_mem_cons.2 ⟨?_, fun r mem => ?_⟩
    · obtain ⟨members, rfl, read⟩ := first
      exact ⟨members, List.mem_cons_self, read⟩
    · obtain ⟨members, mem, read⟩ := ih r mem
      exact ⟨members, List.mem_cons_of_mem entry mem, read⟩

private theorem exists_of_decode {sectionName : String} {entries : List Json} {policy : IdPolicy}
    {t : Table α} (readable : ∀ json ∈ entries, json.Readable entryDepth)
    (result : decode sectionName entries policy = .ok t) :
    ∀ r ∈ t.records, ∃ members : List (String × Json),
      (∀ member ∈ members, member.2.Readable (entryDepth - 1)) ∧
        FieldRecord.ofFields (Fields.ofObject members) = .ok r := by
  obtain ⟨records, found, rfl⟩ := map_eq_ok_iff.1 result
  intro r mem
  obtain ⟨members, listed, read⟩ := exists_of_mem (forall₂_of_decodeFrom found) r mem
  refine ⟨members, ?_, read⟩
  cases readable _ listed with
  | object _ each => exact each

/-- No segmentation nests deeper than it may where it stands. -/
def Shallow (s : Sections) : Prop :=
  ∀ a ∈ s.annotations.records, ∀ json ∈ a.segmentation, json.Readable (entryDepth - 1)

theorem storable_of_sections {document : Document} (readable : document.Readable)
    {policy : IdPolicy} {s : Sections} (result : document.sections policy = .ok s) :
    s.Storable ∧ Shallow s := by
  obtain ⟨images, decodedImages, result⟩ := bind_eq_ok result
  obtain ⟨annotations, decodedAnnotations, result⟩ := bind_eq_ok result
  obtain ⟨categories, decodedCategories, result⟩ := bind_eq_ok result
  obtain ⟨licenses, decodedLicenses, result⟩ := bind_eq_ok result
  cases result
  have entries : ∀ json ∈ document.licenses.getD [], json.Readable entryDepth := by
    cases given : document.licenses with
    | none => exact fun _ mem => absurd mem List.not_mem_nil
    | some entries => exact readable.licenses entries given
  have each : ∀ a ∈ annotations.records,
      a.Storable ∧ ∀ json ∈ a.segmentation, json.Readable (entryDepth - 1) := by
    intro a mem
    obtain ⟨members, each, read⟩ := exists_of_decode readable.annotations decodedAnnotations a mem
    exact Annotation.storable_of_ofFields each (by decide) read
  refine ⟨⟨?_, fun a mem => (each a mem).1, ?_, ?_⟩, fun a mem => (each a mem).2⟩
  · intro image mem
    obtain ⟨members, -, read⟩ := exists_of_decode readable.images decodedImages image mem
    exact Image.storable_of_ofFields read
  · intro category mem
    obtain ⟨members, -, read⟩ := exists_of_decode readable.categories decodedCategories category mem
    exact Category.readsId.le read
  · intro license mem
    obtain ⟨members, -, read⟩ := exists_of_decode entries decodedLicenses license mem
    exact License.readsId.le read

theorem readable_ofSections {s : Sections} (shallow : Shallow s) (info : Info) :
    (ofSections info s).Readable where
  images := List.forall_mem_map.2 fun image _ => image.readable_toObject _
  annotations := List.forall_mem_map.2 fun a mem =>
    Annotation.readable_toObject (shallow a mem) (by decide)
  categories := List.forall_mem_map.2 fun category _ => category.readable_toObject _
  licenses := by
    rintro _ ⟨⟩
    exact List.forall_mem_map.2 fun license _ => license.readable_toObject _

end Document

end ImageCatalog
