import ImageCatalog.Json.Value
import ImageCatalog.Proofs.Json.Values

set_option autoImplicit false

namespace ImageCatalog

/-- What a value of a field can hold: outside objects every integer has 64 bits with sign; an object
can be read from its text. -/
inductive Json.Storable : Json → Prop
  | null : Json.Storable .null
  | bool (b : Bool) : Json.Storable (.bool b)
  | integer {n : Int} : Binary64.fitsInt64 n = true → Json.Storable (.number (.integer n))
  | float {x : Binary64} : x.isFinite = true → Json.Storable (.number (.float x))
  | string (s : String) : Json.Storable (.string s)
  | array {items : List Json} :
      (∀ json ∈ items, Json.Storable json) → Json.Storable (.array items)
  | object {members : List (String × Json)} :
      (Json.object members).Readable JsonText.depthLimit → Json.Storable (.object members)

theorem Binary64.toInt_ofInt_of_fits {n : Int} (fits : Binary64.fitsInt64 n = true) :
    (Int64.ofInt n).toInt = n := by
  simp only [Binary64.fitsInt64, decide_eq_true_eq] at fits
  exact Int64.toInt_ofInt_of_le fits.1 (by have := fits.2; rw [Int64.toInt_maxValue] at this; omega)

namespace Value

theorem ofJsonItems_eq (items : List Json) : ofJsonItems items = items.map ofJson := by
  induction items with
  | nil => rfl
  | cons item items ih => rw [ofJsonItems, ih, List.map_cons]

theorem toJsonItems_eq (items : List Value) : toJsonItems items = items.map toJson := by
  induction items with
  | nil => rfl
  | cons item items ih => rw [toJsonItems, ih, List.map_cons]

theorem toJson_json {members : List (String × Json)}
    (readable : (Json.object members).Readable JsonText.depthLimit) :
    (Value.json (Json.object members).compact).toJson = (Json.object members).reread := by
  rw [toJson, Json.compact, Json.parse_text JsonText.blankStyle_compact readable]

theorem toJson_ofJson {json : Json} (storable : json.Storable) (faithful : json.ObjectsReadBack) :
    (ofJson json).toJson = json := by
  induction storable with
  | null => rfl
  | bool => rfl
  | @integer n fits =>
    rw [ofJson, JsonNumber.toValue, if_pos fits, toJson, Binary64.toInt_ofInt_of_fits fits]
  | @float x finite => rw [ofJson, JsonNumber.toValue, toJson, if_pos finite]
  | string => rfl
  | @array items _ ih =>
    have each := Json.objectsReadBack_array_iff.1 faithful
    rw [ofJson, ofJsonItems_eq, toJson, toJsonItems_eq, List.map_map]
    exact congrArg Json.array (map_eq_self_iff.2 fun json mem => ih json mem (each json mem))
  | object readable =>
    have faithful := List.forall_mem_singleton.1 faithful
    exact (toJson_json readable).trans (readable.reread_eq_self_iff.2 faithful)

def restored (v : Value) : Value := ofJson v.toJson

@[simp] theorem restored_int (n : Int64) : restored (.int n) = .int n := by
  have fits : Binary64.fitsInt64 n.toInt = true := by
    simp only [Binary64.fitsInt64, decide_eq_true_eq]
    exact ⟨n.minValue_le_toInt, n.toInt_le⟩
  rw [restored, toJson, ofJson, JsonNumber.toValue, if_pos fits, Int64.ofInt_toInt]

@[simp] theorem restored_float (x : Binary64) :
    restored (.float x) = if x.isFinite then .float x else .null := by
  rw [restored, toJson]
  split <;> rfl

@[simp] theorem restored_list (items : List Value) :
    restored (.list items) = .list (items.map restored) := by
  rw [restored, toJson, toJsonItems_eq, ofJson, ofJsonItems_eq, List.map_map]
  rfl

theorem restored_ofJson {json : Json} (storable : json.Storable) (faithful : json.ObjectsReadBack) :
    restored (ofJson json) = ofJson json := by
  rw [restored, toJson_ofJson storable faithful]

end Value

namespace Dictionary

theorem sorted_map {α β : Type} {entries : List (String × α)} (sorted : Sorted entries)
    (change : α → β) : Sorted (entries.map fun entry => (entry.1, change entry.2)) :=
  List.pairwise_map.2 sorted

theorem find?_map {α β : Type} (change : α → β) (name : String) (entries : List (String × α)) :
    find? name (entries.map fun entry => (entry.1, change entry.2)) =
      (find? name entries).map change := by
  induction entries with
  | nil => rfl
  | cons head entries ih =>
    rw [List.map_cons, find?, find?, ih]
    split <;> rfl

end Dictionary

namespace Fields

def restored (fields : Fields) : Fields where
  entries := fields.entries.map fun entry => (entry.1, entry.2.restored)
  sorted := Dictionary.sorted_map fields.sorted Value.restored

theorem get?_restored (fields : Fields) (name : String) :
    fields.restored.get? name = (fields.get? name).map Value.restored :=
  Dictionary.find?_map Value.restored name fields.entries

def written (fields : Fields) : List (String × Json) :=
  fields.entries.map fun entry => (entry.1, entry.2.toJson)

theorem toObject_eq (fields : Fields) : fields.toObject = .object fields.written := rfl

theorem sorted_written (fields : Fields) : Dictionary.Sorted fields.written :=
  Dictionary.sorted_map fields.sorted Value.toJson

@[ext]
theorem ext_entries {a b : Fields} (same : a.entries = b.entries) : a = b := by
  obtain ⟨entries, sorted⟩ := a
  obtain rfl : entries = b.entries := same
  rfl

theorem ofObject_written (fields : Fields) : ofObject fields.written = fields.restored := by
  have entries : fields.written.map (fun entry => (entry.1, Value.ofJson entry.2)) =
      fields.restored.entries := by
    rw [written, List.map_map]
    rfl
  ext1
  exact (congrArg Dictionary.collect entries).trans
    (Dictionary.collect_eq_self fields.restored.sorted)

end Fields

end ImageCatalog
