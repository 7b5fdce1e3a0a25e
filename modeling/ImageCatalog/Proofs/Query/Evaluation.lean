import ImageCatalog.Catalog.Image
import ImageCatalog.Query.Compile

/-! What a query means, read off the query itself: its items in groups between the `or`s, the
groups in order, then the constraints, each looked at only as far as needed. Main statement: the
predicate of a query has this outcome on every record. -/

set_option autoImplicit false

namespace ImageCatalog

/-- The value of a condition on a record, or the fault in its place. -/
abbrev Outcome := Except Fault Bool

namespace Outcome

def both (first second : Outcome) : Outcome :=
  match first with
  | .ok true => second
  | _ => first

def either (first second : Outcome) : Outcome :=
  match first with
  | .ok false => second
  | _ => first

def all {β : Type} (value : β → Outcome) : List β → Outcome
  | [] => .ok true
  | x :: xs => both (value x) (all value xs)

def any {β : Type} (value : β → Outcome) : List β → Outcome
  | [] => .ok false
  | x :: xs => either (value x) (any value xs)

theorem both_true (o : Outcome) : both o (.ok true) = o := by
  unfold both
  split <;> rfl

theorem either_false (o : Outcome) : either o (.ok false) = o := by
  unfold either
  split <;> rfl

theorem both_assoc (a b c : Outcome) : both (both a b) c = both a (both b c) := by
  rcases a with fault | _ | _ <;> rfl

theorem all_append {β : Type} (value : β → Outcome) (xs ys : List β) :
    all value (xs ++ ys) = both (all value xs) (all value ys) := by
  induction xs with
  | nil => rfl
  | cons x xs ih => rw [List.cons_append, all, all, ih, both_assoc]

theorem all_map {β γ : Type} (value : γ → Outcome) (f : β → γ) (xs : List β) :
    all value (xs.map f) = all (fun x => value (f x)) xs := by
  induction xs with
  | nil => rfl
  | cons x xs ih => rw [List.map_cons, all, all, ih]

theorem any_map {β γ : Type} (value : γ → Outcome) (f : β → γ) (xs : List β) :
    any value (xs.map f) = any (fun x => value (f x)) xs := by
  induction xs with
  | nil => rfl
  | cons x xs ih => rw [List.map_cons, any, any, ih]

theorem all_filter {β : Type} {value : β → Outcome} {keep : β → Bool}
    (dropped : ∀ x, keep x = false → value x = .ok true) (xs : List β) :
    all value (xs.filter keep) = all value xs := by
  induction xs with
  | nil => rfl
  | cons x xs ih =>
    rw [List.filter_cons]
    split
    · rw [all, all, ih]
    · next out => rw [all, ih, dropped x (Bool.eq_false_iff.2 out), both]

end Outcome

section Meaning

variable {α : Type} [Record α]

namespace MemberTerm

def evaluate (r : α) (term : MemberTerm) : Outcome :=
  Predicate.eval r (.member (.ofField term.field) term.op (.ofList term.values))

end MemberTerm

namespace Intersection

def evaluate (r : α) (i : Intersection) : Outcome := Outcome.all (MemberTerm.evaluate r) i.terms

end Intersection

namespace Term

def evaluate (r : α) : Term → Outcome
  | .compare access op operand => Predicate.eval r (.compare access op operand)
  | .member term => term.evaluate r
  | .range access lowOp low highOp high =>
    Outcome.both (Predicate.eval r (.compare access lowOp low))
      (Predicate.eval r (.compare access highOp high))
  | .intersection i => i.evaluate r

end Term

namespace Item

def isOr : Item → Bool
  | .connective .or => true
  | _ => false

def term? : Item → Option Term
  | .term t => some t
  | .connective _ => none

end Item

namespace Query

def splitGroups (items : List Item) : List (List Term) :=
  (items.splitOnP Item.isOr).map fun group => group.filterMap Item.term?

/-- The groups in order, each a conjunction of its terms. Without items there is one group, and
nothing in it that could fail to hold. -/
def evaluateItems (r : α) (items : List Item) : Outcome :=
  Outcome.any (Outcome.all (Term.evaluate r)) (splitGroups items)

def evaluate (q : Query) (r : α) : Outcome :=
  Outcome.both (evaluateItems r q.items) (Outcome.all (Intersection.evaluate r) q.constraints)

end Query

end Meaning

namespace Predicate

variable {α : Type} [Record α] (r : α)

theorem evalAll_eq (ps : List Predicate) : evalAll r ps = Outcome.all (eval r) ps := by
  induction ps with
  | nil => rfl
  | cons p ps ih =>
    rw [evalAll, Outcome.all, ih]
    rcases eval r p with fault | _ | _ <;> rfl

theorem evalAny_eq (ps : List Predicate) : evalAny r ps = Outcome.any (eval r) ps := by
  induction ps with
  | nil => rfl
  | cons p ps ih =>
    rw [evalAny, Outcome.any, ih]
    rcases eval r p with fault | _ | _ <;> rfl

theorem eval_allOf (ps : List Predicate) : (allOf ps).eval r = Outcome.all (eval r) ps := by
  match ps with
  | [] => rfl
  | [p] => exact (Outcome.both_true _).symm
  | p :: q :: ps => exact evalAll_eq r (p :: q :: ps)

theorem eval_anyOf (ps : List Predicate) : (anyOf ps).eval r = Outcome.any (eval r) ps := by
  match ps with
  | [] => rfl
  | [p] => exact (Outcome.either_false _).symm
  | p :: q :: ps => exact evalAny_eq r (p :: q :: ps)

theorem eval_of_isTrue {p : Predicate} (constant : p.isTrue = true) : p.eval r = .ok true := by
  cases p with
  | const b => rw [eval, show b = true from constant]
  | _ => simp [isTrue] at constant

end Predicate

namespace Query

variable {α : Type} [Record α] (r : α)

private theorem eval_constraint (i : Intersection) : i.predicate.eval r = i.evaluate r := by
  rw [Intersection.predicate, Predicate.eval_allOf, Outcome.all_map]
  rfl

private theorem eval_term (term : Term) : term.predicate.eval r = term.evaluate r := by
  cases term with
  | compare access op operand => rfl
  | member term => rfl
  | range access lowOp low highOp high =>
    rw [Term.predicate, Predicate.eval, Predicate.evalAll_eq]
    rw [Outcome.all, Outcome.all, Outcome.all, Outcome.both_true]
    rfl
  | intersection i => exact eval_constraint r i

theorem splitGroups_ne_nil (items : List Item) : splitGroups items ≠ [] := by
  simp [splitGroups, List.splitOnP_ne_nil]

private theorem splitGroups_or (items : List Item) :
    splitGroups (.connective .or :: items) = [] :: splitGroups items := by
  have divides : Item.isOr (.connective .or) = true := rfl
  rw [splitGroups, List.splitOnP_cons_eq_if_modifyHead, if_pos divides]
  rfl

private theorem splitGroups_cons {item : Item} (items : List Item) (inside : item.isOr = false) :
    splitGroups (item :: items) =
      (splitGroups items).modifyHead (item.term?.toList ++ ·) := by
  rw [splitGroups, List.splitOnP_cons_eq_if_modifyHead, if_neg (by simp [inside]), splitGroups]
  cases items.splitOnP Item.isOr with
  | nil => rfl
  | cons group groups => cases item <;> simp [Item.term?, List.filterMap_cons]

private theorem trailing?_cons {item : Item} {items : List Item} (more : items ≠ []) :
    trailing? (item :: items) = trailing? items := by
  rw [trailing?, List.getLast?_cons_of_ne_nil more, trailing?]

/-- The groups of items that do not end with a connective, where `group` was read before them.
When no item is left, that group is a group only if it has a term. -/
private theorem groupsFrom_eq {items : List Item} {group : List Term}
    (ends : trailing? items = none) (nonempty : items = [] → group ≠ []) :
    groupsFrom group items = (splitGroups items).modifyHead (group ++ ·) := by
  induction items generalizing group with
  | nil => simp [groupsFrom, splitGroups, nonempty rfl]
  | cons item items ih =>
    have rest : trailing? items = none := by
      cases items with
      | nil => rfl
      | cons next items => rwa [trailing?_cons (List.cons_ne_nil _ _)] at ends
    cases item with
    | term term =>
      rw [groupsFrom, ih rest (by simp), splitGroups_cons items rfl, List.modifyHead_modifyHead]
      simp [Item.term?, Function.comp_def]
    | connective op =>
      have more : items ≠ [] := by
        rintro rfl
        simp [trailing?] at ends
      cases op with
      | and =>
        rw [groupsFrom, ih rest fun done => absurd done more, splitGroups_cons items rfl,
          List.modifyHead_modifyHead]
        simp [Item.term?, Function.comp_def]
      | or =>
        rw [groupsFrom, ih rest fun done => absurd done more, splitGroups_or]
        cases splitGroups items <;> simp

theorem groups_eq {items : List Item} (ends : trailing? items = none)
    (nonempty : items ≠ []) : groups items = splitGroups items := by
  rw [groups, groupsFrom_eq ends fun done => absurd done nonempty]
  cases splitGroups items <;> rfl

private theorem eval_body {items : List Item} (ends : trailing? items = none) :
    (body items).eval r = evaluateItems r items := by
  cases items with
  | nil => rfl
  | cons item items =>
    rw [body, groups_eq ends (List.cons_ne_nil _ _)]
    rw [if_neg (by simp [splitGroups_ne_nil]), Predicate.eval_anyOf, Outcome.any_map,
      evaluateItems]
    congr 1
    funext group
    rw [Predicate.eval_allOf, Outcome.all_map]
    congr 1
    funext term
    exact eval_term r term

theorem trailing?_of_misplaced? {items : List Item} (placed : misplaced? items = none) :
    trailing? items = none := by
  simp only [misplaced?, Option.or_eq_none_iff] at placed
  exact placed.2.2

theorem eval_compiled {q : Query} (placed : misplaced? q.items = none) :
    (Predicate.allOf ((body q.items :: q.constraints.map Intersection.predicate).filter
      fun p => !p.isTrue)).eval r = q.evaluate r := by
  have constant : ∀ p : Predicate, (!p.isTrue) = false → p.eval r = .ok true := fun p dropped =>
    Predicate.eval_of_isTrue r (by simpa using dropped)
  rw [Predicate.eval_allOf, Outcome.all_filter constant, Outcome.all,
    eval_body r (trailing?_of_misplaced? placed), Outcome.all_map, evaluate]
  congr 2
  funext i
  exact eval_constraint r i

theorem compile_eq_ok_iff {q : Query} {p : Predicate} :
    q.compile = .ok p ↔ misplaced? q.items = none ∧
      p = Predicate.allOf ((body q.items :: q.constraints.map Intersection.predicate).filter
        fun p => !p.isTrue) := by
  unfold compile
  cases misplaced? q.items with
  | some misplaced => simp
  | none =>
    constructor
    · exact fun result => ⟨rfl, (Except.ok.inj result).symm⟩
    · exact fun result => congrArg Except.ok result.2.symm

/-- On every record the predicate of a query has the outcome that the query means: the same value,
or the fault of the leaf that is met first. -/
theorem eval_eq_evaluate {q : Query} {p : Predicate} (compiled : q.compile = .ok p) (r : α) :
    p.eval r = q.evaluate r := by
  obtain ⟨placed, rfl⟩ := compile_eq_ok_iff.1 compiled
  exact eval_compiled r placed

def namedOrWide : Query where
  items := [.term (.compare (.ofField "file_name") .eq (.string "a.png")), .connective .or,
    .term (.between (.ofField "width") (.int 5) (.int 9)), .term (.intersection {})]
  constraints := [{ terms := [{ field := "license", values := [.int 4] }] }]

/-- The image has another name, so its missing width is compared and fails. -/
theorem eval_namedOrWide :
    ∃ p, namedOrWide.compile = .ok p ∧
      p.eval ({ id := 2, fileName := "b.png" } : Image) =
        namedOrWide.evaluate ({ id := 2, fileName := "b.png" } : Image) ∧
      p.eval ({ id := 2, fileName := "b.png" } : Image) =
        .error (.evaluation 2 "entity.width >= 5" (.typeMismatch "width" (some .int) none)) :=
  ⟨_, rfl, eval_eq_evaluate rfl _, rfl⟩

end Query

end ImageCatalog
