import ImageCatalog.Record.Basic
import ImageCatalog.Value.Digest

set_option autoImplicit false

namespace ImageCatalog

/-- Whether a table refuses a second record with the number of another one. -/
inductive IdPolicy where
  | permissive
  | strict
deriving DecidableEq, Inhabited

namespace IdPolicy

def name : IdPolicy → String
  | .permissive => "permissive"
  | .strict => "strict"

def ofName? : String → Option IdPolicy
  | "permissive" => some .permissive
  | "strict" => some .strict
  | _ => none

end IdPolicy

structure Table (α : Type) where
  records : List α
  policy : IdPolicy := .permissive
deriving Inhabited

namespace Table

variable {α : Type}

def empty (policy : IdPolicy) : Table α := { records := [], policy }

def ofList (records : List α) : Table α := { records }

def withPolicy (t : Table α) (policy : IdPolicy) : Table α := { t with policy }

/-- The table of other records under the same policy. -/
def derive (t : Table α) (records : List α) : Table α := { t with records }

def size (t : Table α) : Nat := t.records.length

def isEmpty (t : Table α) : Bool := t.records.isEmpty

/-- Tables are equal if their records are; the policy says only what may be added. -/
instance [BEq α] : BEq (Table α) := ⟨fun s t => s.records == t.records⟩

section Lookup

variable [Record α]

open Record (idOf withId field?)

/-- The greatest number in use, or zero. -/
def lastId (t : Table α) : RecordId := t.records.foldl (fun last r => max last (idOf r)) 0

def containsId (t : Table α) (n : RecordId) : Bool := t.records.any fun r => idOf r == n

def get? (t : Table α) (n : RecordId) : Option α := t.records.find? fun r => idOf r == n

def findBy? (t : Table α) (field : String) (value : Value) : Option α :=
  t.records.find? fun r => field? r field == some value

/-- Changes the first record with this number; none if there is no such record. -/
def modify? (t : Table α) (n : RecordId) (change : α → α) : Option (Table α) :=
  (t.records.findIdx? fun r => idOf r == n).map fun i => t.derive (t.records.modify i change)

/-- The record as it will be stored: one without a number gets the one after the greatest. -/
def numbered (t : Table α) (r : α) : Except Fault α :=
  if idOf r = 0 then
    let last := t.lastId
    if last.toNat + 1 ≤ maxRecordId.toNat then .ok (withId (last + 1) r)
    else .error (.idOutOfRange (Record.kind α) last)
  else if maxRecordId < idOf r then .error (.idOutOfRange (Record.kind α) (idOf r))
  else if t.policy = .strict ∧ t.containsId (idOf r) then
    .error (.duplicateId (Record.kind α) (idOf r))
  else .ok r

def append (t : Table α) (r : α) : Except Fault RecordId × Table α :=
  match t.numbered r with
  | .ok r => (.ok (idOf r), t.derive (t.records ++ [r]))
  | .error fault => (.error fault, t)

/-- Replaces the first record that has the number of `r`; none if there is no such record. -/
def update (t : Table α) (r : α) : Option RecordId × Table α :=
  match t.modify? (idOf r) fun _ => r with
  | some changed => (some (idOf r), changed)
  | none => (none, t)

def deleteWhere (t : Table α) (condition : α → Bool) : Option α × Table α :=
  (t.records.find? condition, t.derive (t.records.eraseP condition))

def delete (t : Table α) (n : RecordId) : Option α × Table α := t.deleteWhere fun r => idOf r == n

/-- The values of a field, each once, in the order of the records that first have them. -/
def uniqueValues (t : Table α) (field : String) : Except Fault (List Value) :=
  if Record.hasField α field then (t.records.mapM (Record.fieldValue field)).map Value.distinct
  else .error (.fieldNotFound (Record.kind α) field)

def idValues (t : Table α) : List Value := t.records.map fun r => Value.ofUInt64 (idOf r)

end Lookup

section Reading

variable [FieldRecord α]

def ofFields (items : List Fields) : Except Fault (Table α) :=
  (items.mapM FieldRecord.ofFields).map ofList

def toFields (t : Table α) : List Fields := t.records.map FieldRecord.toFields

end Reading

end Table

end ImageCatalog
