import ImageCatalog.Query.Compile

set_option autoImplicit false

namespace ImageCatalog

variable {α : Type} [Record α]

namespace Predicate

/-- The records on which the predicate holds, in order. -/
def keep (p : Predicate) : List α → Except Fault (List α)
  | [] => .ok []
  | r :: rs =>
    match p.eval r with
    | .error fault => .error fault
    | .ok holds => (p.keep rs).map fun kept => if holds then r :: kept else kept

/-- The part of a table on which the predicate holds; a true one is not evaluated. -/
def run (p : Predicate) (t : Table α) : Except Fault (Table α) :=
  if p.isTrue then .ok t else (p.keep t.records).map t.derive

/-- Keeps only what the predicate holds of and gives the number of records removed. All records are
looked at before the table changes. -/
def retain (p : Predicate) (t : Table α) : Except Fault Nat × Table α :=
  match p.run t with
  | .ok kept => (.ok (t.size - kept.size), t.derive kept.records)
  | .error fault => (.error fault, t)

end Predicate

namespace Query

def run (q : Query) (t : Table α) : Except Fault (Table α) := q.compile.bind fun p => p.run t

end Query

namespace Table

def retain (t : Table α) (q : Query) : Except Fault Nat × Table α :=
  match q.compile with
  | .ok p => p.retain t
  | .error fault => (.error fault, t)

/-- The part that satisfies the query, which also replaces the table if `inPlace` is set. -/
def select (t : Table α) (q : Query) (inPlace : Bool) : Except Fault (Table α) × Table α :=
  match q.run t with
  | .ok kept => (.ok kept, if inPlace then t.derive kept.records else t)
  | .error fault => (.error fault, t)

def restrict (t : Table α) (field : String) (allowed : List Value) : Except Fault (Table α) :=
  (Query.ofTerm (.member { field, values := allowed })).run t

/-- The records whose field has a value that `key` has in some record of `peer`. -/
def restrictToPeer {β : Type} [Record β] (t : Table α) (field : String) (peer : Table β)
    (key : String) : Except Fault (Table α) :=
  (peer.uniqueValues key).bind (t.restrict field)

end Table

end ImageCatalog
