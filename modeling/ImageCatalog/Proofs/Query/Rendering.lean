import ImageCatalog.Proofs.Query.Leaves

/-! Reading the text of a predicate back, where the text of a leaf counts as one token. Main
statement: the text of a compiled query can be read in exactly one way, with `and` binding tighter
than `or`, and what is read has the same outcome on every record. It need not be the predicate
itself, as a conjunction in a conjunction stands there without parentheses. -/

set_option autoImplicit false

namespace ImageCatalog

namespace Connective

open Predicate (evalAll_eq evalAny_eq)

def node : Connective → List Predicate → Predicate
  | .and, ps => .all ps
  | .or, ps => .any ps

def join : Connective → Outcome → Outcome → Outcome
  | .and => Outcome.both
  | .or => Outcome.either

theorem join_assoc (op : Connective) (a b c : Outcome) :
    op.join (op.join a b) c = op.join a (op.join b c) := by
  cases op with
  | and => exact Outcome.both_assoc a b c
  | or => rcases a with fault | _ | _ <;> rfl

variable {α : Type} [Record α] (r : α) (op : Connective)

theorem eval_node_singleton (p : Predicate) : (op.node [p]).eval r = p.eval r := by
  cases op with
  | and => exact (evalAll_eq r [p]).trans (Outcome.both_true _)
  | or => exact (evalAny_eq r [p]).trans (Outcome.either_false _)

theorem eval_node_cons (p : Predicate) (ps : List Predicate) :
    (op.node (p :: ps)).eval r = op.join (p.eval r) ((op.node ps).eval r) := by
  cases op with
  | and =>
    rw [node, node, Predicate.eval, Predicate.eval, evalAll_eq, evalAll_eq]
    rfl
  | or =>
    rw [node, node, Predicate.eval, Predicate.eval, evalAny_eq, evalAny_eq]
    rfl

theorem eval_node_pair (p q : Predicate) :
    (op.node [p, q]).eval r = op.join (p.eval r) (q.eval r) := by
  rw [eval_node_cons, eval_node_singleton]

end Connective

namespace Predicate

/-- A token of the text of a predicate. The text of a leaf is one token, which stands for that leaf. -/
inductive Token where
  | leaf (l : Leaf)
  | const (b : Bool)
  | connective (op : Connective)
  | opening | closing

namespace Token

def piece : Token → Piece
  | .leaf l => .leaf l.text
  | .const b => .const b
  | .connective .and => .and
  | .connective .or => .or
  | .opening => .opening
  | .closing => .closing

def leaf? : Token → Option Leaf
  | .leaf l => some l
  | _ => none

end Token

mutual

def tokens : Predicate → List Token
  | .const b => [.const b]
  | .compare access op operand => [.leaf (.compare access op operand)]
  | .member access op set => [.leaf (.member access op set)]
  | .all ps => chainTokens .and ps
  | .any ps => chainTokens .or ps

def chainTokens (op : Connective) : List Predicate → List Token
  | [] => []
  | p :: ps =>
    (if op = .and ∧ p.isDisjunction then .opening :: p.tokens ++ [.closing] else p.tokens)
      ++ (if ps.isEmpty then [] else .connective op :: chainTokens op ps)

end

theorem tokens_node (op : Connective) (ps : List Predicate) :
    (op.node ps).tokens = chainTokens op ps := by
  cases op <;> rfl

mutual

theorem map_piece_tokens (p : Predicate) : p.tokens.map Token.piece = p.pieces := by
  cases p with
  | const b => rfl
  | compare access op operand => rfl
  | member access op set => rfl
  | all ps => exact (map_piece_chainTokens ps).1
  | any ps => exact (map_piece_chainTokens ps).2

theorem map_piece_chainTokens (ps : List Predicate) :
    (chainTokens .and ps).map Token.piece = conjunctPieces ps ∧
      (chainTokens .or ps).map Token.piece = disjunctPieces ps := by
  cases ps with
  | nil => exact ⟨rfl, rfl⟩
  | cons p ps =>
    obtain ⟨conjuncts, disjuncts⟩ := map_piece_chainTokens ps
    rw [chainTokens, chainTokens, conjunctPieces, disjunctPieces, ← map_piece_tokens p,
      ← conjuncts, ← disjuncts]
    constructor
    · cases p.isDisjunction <;> cases ps <;> simp [Token.piece]
    · cases ps <;> simp [Token.piece]

end

mutual

theorem filterMap_leaf?_tokens (p : Predicate) : p.tokens.filterMap Token.leaf? = p.leaves := by
  cases p with
  | const b => rfl
  | compare access op operand => rfl
  | member access op set => rfl
  | all ps => exact filterMap_leaf?_chainTokens .and ps
  | any ps => exact filterMap_leaf?_chainTokens .or ps

theorem filterMap_leaf?_chainTokens (op : Connective) (ps : List Predicate) :
    (chainTokens op ps).filterMap Token.leaf? = leavesOf ps := by
  cases ps with
  | nil => rfl
  | cons p ps =>
    have part : (if op = .and ∧ p.isDisjunction then .opening :: p.tokens ++ [.closing]
        else p.tokens).filterMap Token.leaf? = p.leaves := by
      rw [← filterMap_leaf?_tokens p]
      split <;> simp [Token.leaf?, List.filterMap_cons]
    have rest : (if ps.isEmpty then [] else .connective op :: chainTokens op ps).filterMap
        Token.leaf? = leavesOf ps := by
      rw [← filterMap_leaf?_chainTokens op ps]
      cases ps with
      | nil => rfl
      | cons p' ps => simp [Token.leaf?, List.filterMap_cons]
    rw [chainTokens, List.filterMap_append, part, rest, leavesOf]

end

/-- What a part of a text is: an operand, or operands with a connective between any two. -/
inductive Level where
  | operand
  | chain (op : Connective)

/-- What a connective stands between: `and` binds tighter than `or`. -/
def Level.below : Connective → Level
  | .and => .operand
  | .or => .chain .and

/-- What tokens are read as. An operand is a leaf, a constant or a whole text in parentheses. -/
inductive Parses : Level → List Token → Predicate → Prop
  | leaf (l : Leaf) : Parses .operand [.leaf l] l.predicate
  | const (b : Bool) : Parses .operand [.const b] (.const b)
  | group {ts : List Token} {p : Predicate} : Parses (.chain .or) ts p →
      Parses .operand (.opening :: ts ++ [.closing]) p
  | single {op : Connective} {ts : List Token} {p : Predicate} : Parses (.below op) ts p →
      Parses (.chain op) ts p
  | join {op : Connective} {ts us : List Token} {p q : Predicate} : Parses (.below op) ts p →
      Parses (.chain op) us q → Parses (.chain op) (ts ++ .connective op :: us) (op.node [p, q])

/-- Whether something of this level cannot go on with these tokens. -/
def Level.EndsBefore : Level → List Token → Prop
  | .operand, _ => True
  | .chain .and, rest => rest.head? ≠ some (.connective .and)
  | .chain .or, rest => ∀ op, rest.head? ≠ some (.connective op)

namespace Level

variable {op : Connective} {rest : List Token}

theorem EndsBefore.below (ends : EndsBefore (.chain op) rest) : EndsBefore (.below op) rest := by
  cases op with
  | and => trivial
  | or => exact ends .and

theorem endsBefore_connective : EndsBefore (.below op) (.connective op :: rest) := by
  cases op with
  | and => trivial
  | or => simp [Level.below, EndsBefore]

theorem not_endsBefore_connective : ¬EndsBefore (.chain op) (.connective op :: rest) := by
  cases op with
  | and => simp [EndsBefore]
  | or => exact fun ends => ends .or rfl

theorem endsBefore_closing (level : Level) : level.EndsBefore (.closing :: rest) := by
  rcases level with _ | _ | _ <;> simp [EndsBefore]

theorem endsBefore_nil (level : Level) : level.EndsBefore [] := by
  rcases level with _ | _ | _ <;> simp [EndsBefore]

end Level

/-- Tokens start in at most one way with something of a level that cannot go on after it. -/
theorem Parses.unique {level : Level} {ts us rest rest' : List Token} {p q : Predicate}
    (parses : Parses level ts p) (parses' : Parses level us q) (same : ts ++ rest = us ++ rest')
    (ends : level.EndsBefore rest) (ends' : level.EndsBefore rest') : ts = us ∧ p = q := by
  induction parses generalizing us rest rest' q with
  | leaf l =>
    cases parses' with
    | leaf l' => simp_all
    | const b => simp at same
    | group inner => simp at same
  | const b =>
    cases parses' with
    | leaf l => simp at same
    | const b' => simp_all
    | group inner => simp at same
  | @group ts p inner ih =>
    cases parses' with
    | leaf l => simp at same
    | const b => simp at same
    | @group us q inner' =>
      have same' : ts ++ .closing :: rest = us ++ .closing :: rest' := by simpa using same
      obtain ⟨rfl, rfl⟩ :=
        ih inner' same' (Level.endsBefore_closing _) (Level.endsBefore_closing _)
      exact ⟨rfl, rfl⟩
  | single first ih =>
    cases parses' with
    | single first' => exact ih first' same ends.below ends'.below
    | join first' others' =>
      rw [List.append_assoc] at same
      obtain ⟨rfl, -⟩ := ih first' same ends.below Level.endsBefore_connective
      rw [List.append_cancel_left same] at ends
      exact absurd ends Level.not_endsBefore_connective
  | join first others ih ihOthers =>
    rw [List.append_assoc] at same
    cases parses' with
    | single first' =>
      obtain ⟨rfl, -⟩ := ih first' same Level.endsBefore_connective ends'.below
      rw [← List.append_cancel_left same] at ends'
      exact absurd ends' Level.not_endsBefore_connective
    | join first' others' =>
      rw [List.append_assoc] at same
      obtain ⟨rfl, rfl⟩ := ih first' same Level.endsBefore_connective Level.endsBefore_connective
      have same' := List.tail_eq_of_cons_eq (List.append_cancel_left same)
      obtain ⟨rfl, rfl⟩ := ihOthers others' same' ends ends'
      exact ⟨rfl, rfl⟩

def Agrees (p q : Predicate) : Prop := ∀ (α : Type) [Record α] (r : α), p.eval r = q.eval r

/-- Reading goes to the right: what stands before a connective and what stands after it are read
together, though the part before may have that connective in it, too. -/
theorem Parses.append {op : Connective} {ts us : List Token} {p q : Predicate}
    (parses : Parses (.chain op) ts p) (parses' : Parses (.chain op) us q) :
    ∃ found, Parses (.chain op) (ts ++ .connective op :: us) found ∧
      found.Agrees (op.node [p, q]) := by
  generalize chain : Level.chain op = level at parses
  induction parses with
  | leaf l => cases chain
  | const b => cases chain
  | group inner => cases chain
  | single first =>
    cases chain
    exact ⟨_, first.join parses', fun _ _ _ => rfl⟩
  | @join op' ts ts' p p' first others ih ihOthers =>
    cases chain
    obtain ⟨found, parsesFound, agrees⟩ := ihOthers rfl
    refine ⟨op.node [p, found], ?_, fun α _ r => ?_⟩
    · rw [List.append_assoc]
      exact first.join parsesFound
    · rw [op.eval_node_pair, agrees, op.eval_node_pair, op.eval_node_pair, op.eval_node_pair,
        op.join_assoc]

inductive Populated : Predicate → Prop
  | const (b : Bool) : Populated (.const b)
  | leaf (l : Leaf) : Populated l.predicate
  | node (op : Connective) {ps : List Predicate} : ps ≠ [] → (∀ p ∈ ps, Populated p) →
      Populated (op.node ps)

theorem exists_parses_chainTokens {op : Connective} {ps : List Predicate} (nonempty : ps ≠ [])
    (parts : ∀ p ∈ ps, ∃ found, Parses (.chain op)
      (if op = .and ∧ p.isDisjunction then .opening :: p.tokens ++ [.closing] else p.tokens) found ∧
        found.Agrees p) :
    ∃ found, Parses (.chain op) (chainTokens op ps) found ∧ found.Agrees (op.node ps) := by
  induction ps with
  | nil => exact absurd rfl nonempty
  | cons p ps ih =>
    obtain ⟨first, parses, agrees⟩ := parts p List.mem_cons_self
    rw [chainTokens]
    by_cases last : ps = []
    · subst last
      refine ⟨first, by simpa using parses, fun α _ r => ?_⟩
      rw [op.eval_node_singleton, agrees]
    · obtain ⟨others, parsesOthers, agreesOthers⟩ :=
        ih last fun q mem => parts q (List.mem_cons_of_mem p mem)
      obtain ⟨found, parsesFound, agreesFound⟩ := parses.append parsesOthers
      refine ⟨found, by simpa [last] using parsesFound, fun α _ r => ?_⟩
      rw [agreesFound, op.eval_node_pair, agrees, agreesOthers, op.eval_node_cons]

/-- A whole text is read of every populated predicate. Of all but a disjunction it is read without
an `or` at the top, so that they may stand in a conjunction as they are. -/
theorem Populated.exists_parses {p : Predicate} (populated : Populated p) :
    (∃ found, Parses (.chain .or) p.tokens found ∧ found.Agrees p) ∧
      (p.isDisjunction = false → ∃ found, Parses (.chain .and) p.tokens found ∧ found.Agrees p) := by
  have whole {ts : List Token} {q : Predicate} :
      (∃ found, Parses (.chain .and) ts found ∧ found.Agrees q) →
        ∃ found, Parses (.chain .or) ts found ∧ found.Agrees q := by
    rintro ⟨found, parses, agrees⟩
    exact ⟨found, @Parses.single .or _ _ parses, agrees⟩
  induction populated with
  | const b =>
    have parses : Parses (.chain .and) [.const b] (.const b) := @Parses.single .and _ _ (.const b)
    exact ⟨whole ⟨_, parses, fun _ _ _ => rfl⟩, fun _ => ⟨_, parses, fun _ _ _ => rfl⟩⟩
  | leaf l =>
    have written : l.predicate.tokens = [.leaf l] := by cases l <;> rfl
    have parses : Parses (.chain .and) l.predicate.tokens l.predicate := by
      rw [written]
      exact @Parses.single .and _ _ (.leaf l)
    exact ⟨whole ⟨_, parses, fun _ _ _ => rfl⟩, fun _ => ⟨_, parses, fun _ _ _ => rfl⟩⟩
  | @node op ps nonempty _ ih =>
    rw [tokens_node]
    cases op with
    | and =>
      have conjunction := @exists_parses_chainTokens .and ps nonempty fun p mem => by
        cases kind : p.isDisjunction with
        | false => simpa using (ih p mem).2 kind
        | true =>
          obtain ⟨found, parses, agrees⟩ := (ih p mem).1
          exact ⟨found, by simpa using @Parses.single .and _ _ parses.group, agrees⟩
      exact ⟨whole conjunction, fun _ => conjunction⟩
    | or =>
      have disjunction := @exists_parses_chainTokens .or ps nonempty fun p mem => by
        simpa using (ih p mem).1
      exact ⟨disjunction, fun other => by cases other⟩

theorem populated_allOf {ps : List Predicate} (parts : ∀ p ∈ ps, Populated p) :
    Populated (allOf ps) := by
  match ps with
  | [] => exact .const true
  | [p] => exact parts p List.mem_cons_self
  | p :: q :: ps => exact .node .and (List.cons_ne_nil _ _) parts

theorem populated_anyOf {ps : List Predicate} (parts : ∀ p ∈ ps, Populated p) :
    Populated (anyOf ps) := by
  match ps with
  | [] => exact .const false
  | [p] => exact parts p List.mem_cons_self
  | p :: q :: ps => exact .node .or (List.cons_ne_nil _ _) parts

end Predicate

open Predicate (Populated populated_allOf populated_anyOf Token Level Parses)

theorem Intersection.populated_predicate (i : Intersection) : Populated i.predicate := by
  refine populated_allOf fun p mem => ?_
  obtain ⟨term, -, rfl⟩ := List.mem_map.1 mem
  exact .leaf (.member _ _ _)

theorem Term.populated_predicate (term : Term) : Populated term.predicate := by
  cases term with
  | compare access op operand => exact .leaf (.compare _ _ _)
  | member term => exact .leaf (.member _ _ _)
  | range access lowOp low highOp high =>
    refine .node .and (List.cons_ne_nil _ _) fun p mem => ?_
    rcases List.mem_cons.1 mem with rfl | mem
    · exact .leaf (.compare _ _ _)
    · rw [List.mem_singleton.1 mem]
      exact .leaf (.compare _ _ _)
  | intersection i => exact i.populated_predicate

namespace Query

theorem populated_body (items : List Item) : Populated (body items) := by
  rw [body]
  split
  · exact .const true
  · refine populated_anyOf fun p mem => ?_
    obtain ⟨group, -, rfl⟩ := List.mem_map.1 mem
    refine populated_allOf fun p mem => ?_
    obtain ⟨term, -, rfl⟩ := List.mem_map.1 mem
    exact term.populated_predicate

theorem populated_compile {q : Query} {p : Predicate} (compiled : q.compile = .ok p) :
    Populated p := by
  obtain ⟨-, rfl⟩ := compile_eq_ok_iff.1 compiled
  refine populated_allOf fun p mem => ?_
  rcases List.mem_cons.1 (List.mem_filter.1 mem).1 with rfl | mem
  · exact populated_body q.items
  · obtain ⟨i, -, rfl⟩ := List.mem_map.1 mem
    exact i.populated_predicate

/-- The text of a compiled query says what the query does. Taken as tokens, one for each leaf, it can
be read, and in one way only; what is read has on every record the outcome of the query, whether
that is a value or a fault. -/
theorem text_parses {q : Query} {p : Predicate} (compiled : q.compile = .ok p) :
    p.tokens.map Token.piece = p.pieces ∧ p.tokens.filterMap Token.leaf? = p.leaves ∧
      ∃ found, (∀ other, Parses (.chain .or) p.tokens other ↔ other = found) ∧
        ∀ (α : Type) [Record α] (r : α), found.eval r = p.eval r := by
  obtain ⟨found, parses, agrees⟩ := (populated_compile compiled).exists_parses.1
  refine ⟨p.map_piece_tokens, p.filterMap_leaf?_tokens, found, fun other => ?_, agrees⟩
  constructor
  · intro parses'
    exact (parses'.unique parses rfl (Level.endsBefore_nil _) (Level.endsBefore_nil _)).2
  · rintro rfl
    exact parses

/-- The disjunction stands in parentheses; the conjunction in a conjunction does not. -/
theorem namedOrWide_parses :
    ∃ p, namedOrWide.compile = .ok p ∧
      p.render = "(entity.file_name == \"a.png\" or entity.width >= 5 and entity.width <= 9 and true)"
        ++ " and entity.license in [4]" ∧
      ∃ found, (∀ other, Parses (.chain .or) p.tokens other ↔ other = found) ∧
        ∀ (α : Type) [Record α] (r : α), found.eval r = p.eval r :=
  ⟨_, rfl, rfl, (@text_parses namedOrWide _ rfl).2.2⟩

end Query

end ImageCatalog
