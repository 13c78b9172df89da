import IntScript.Evaluation.Basic
import IntScript.Proofs.Tree.Arena

namespace IntScript

def Step.sink (k : Nat) : Step → Step
  | .calculating depth type text => .calculating (depth + k) type text
  | .result depth value? => .result (depth + k) value?

namespace Eval

/-- The value of a node, where an operator asks for its left operand and then for its right one. -/
def plainNode (a : Arena) (eval : Nat → Nat → Eval (Option Int64)) (id depth : Nat) :
    Node → Eval (Option Int64)
  | .binary op left right => do
      let l ← required a eval left (depth + 1)
      let r ← required a eval right (depth + 1)
      some <$> ofExcept (op.apply l r)
  | n => node a eval id depth n

/-- Evaluation by recursion alone. A child that does not come before its parent has no outcome. -/
def plain (a : Arena) (id depth : Nat) : Eval (Option Int64) :=
  match a.node? id with
  | none => noOutcome
  | some n => do
      begin depth n
      let value? ← plainNode a (fun child depth => if child < id then plain a child depth else noOutcome)
        id depth n
      note (.result depth value?)
      pure value?
termination_by id

variable {a : Arena} {eval eval' : Nat → Nat → Eval (Option Int64)} {id depth : Nat} {n : Node}

theorem required_congr {child : Nat} (h : ∀ depth, eval child depth = eval' child depth) (depth : Nat) :
    required a eval child depth = required a eval' child depth := by
  rw [required, required, h]

theorem sequence_congr {ids : List Nat} (h : ∀ id ∈ ids, eval id depth = eval' id depth) :
    sequence (eval · depth) ids = sequence (eval' · depth) ids := by
  unfold sequence
  generalize (none : Option Int64) = value?
  induction ids generalizing value? with
  | nil => rfl
  | cons id ids ih =>
      rw [List.foldlM_cons, List.foldlM_cons]
      dsimp only
      rw [h id List.mem_cons_self]
      exact bind_congr fun value? => ih (fun i hi => h i (List.mem_cons_of_mem id hi)) value?

theorem plainNode_congr (h : ∀ child ∈ n.children, ∀ depth, eval child depth = eval' child depth) :
    plainNode a eval id depth n = plainNode a eval' id depth n := by
  cases n with
  | program statements => exact sequence_congr fun child hc => h child hc (depth + 1)
  | declaration name init? =>
      cases init? with
      | none => rfl
      | some init =>
          simp only [plainNode, node, required_congr (h init (by simp [Node.children]))]
  | assignment name value =>
      simp only [plainNode, node, required_congr (h value (by simp [Node.children]))]
  | binary op left right =>
      simp only [plainNode, required_congr (h left (by simp [Node.children])),
        required_congr (h right (by simp [Node.children]))]
  | identifier | literal => rfl

theorem child_lt (ha : a.Ordered) (hn : a.node? id = some n) {child : Nat} (hc : child ∈ n.children) :
    child < id :=
  ha id (Arena.lt_size_of_node? hn) n hn child hc

theorem plain_of_node (ha : a.Ordered) (hn : a.node? id = some n) : plain a id depth = (do
    begin depth n
    let value? ← plainNode a (plain a) id depth n
    note (.result depth value?)
    pure value?) := by
  rw [plain, hn]
  dsimp only
  rw [plainNode_congr fun child hc depth => if_pos (child_lt ha hn hc)]

theorem plain_of_none (hn : a.node? id = none) : plain a id depth = noOutcome := by
  rw [plain, hn]

theorem required_plain_binary (ha : a.Ordered) {op : Operator} {left right : Nat}
    (hn : a.node? id = some (.binary op left right)) : required a (plain a) id depth = (do
    begin depth (.binary op left right)
    let l ← required a (plain a) left (depth + 1)
    let r ← required a (plain a) right (depth + 1)
    let value ← ofExcept (op.apply l r)
    note (.result depth (some value))
    pure value) := by
  rw [required, plain_of_node ha hn]
  simp only [plainNode, bind_assoc, pure_bind, map_eq_pure_bind]

/-- From here on along the left operands, the other way to evaluate is plain recursion where a chain
asks for it: at the right operands and at the leftmost one. -/
inductive PlainAlong (a : Arena) (eval : Nat → Nat → Eval (Option Int64)) : Nat → Prop
  | operator {i op left right} (hn : a.node? i = some (.binary op left right)) (hl : PlainAlong a eval left)
      (hr : ∀ depth, eval right depth = plain a right depth) : PlainAlong a eval i
  | leftmost {i} (hn : ∀ op left right, a.node? i ≠ some (.binary op left right))
      (h : ∀ depth, eval i depth = plain a i depth) : PlainAlong a eval i

/-- Going down from a left operand and up again is evaluating it and going up from there. -/
theorem climb_descend (ha : a.Ordered) {top fuel left : Nat} (h : PlainAlong a eval left) (htop : left < top) (hf : left < fuel)
    (op : Operator) (right : Nat) {length : Nat} (spine : Spine length) :
    (do
      let down ← descend a top depth fuel left (spine.push op right)
      climb (required a eval) depth down.spine (← required a eval down.leftmost (depth + down.length))) = (do
    let value ← required a (plain a) left (depth + length + 1)
    climb (required a eval) depth (spine.push op right) value) := by
  -- One step down takes an operator from the recursion on the right and pushes it on the spine.
  induction h generalizing fuel op right length spine with
  | @operator i op' left right' hn _ hr ih =>
      obtain ⟨fuel, rfl⟩ := Nat.exists_eq_add_of_lt hf
      have hlt : left < i := child_lt ha hn (by simp [Node.children])
      rw [descend, hn, required_plain_binary ha hn]
      simp only [if_neg (Nat.ne_of_lt htop), ← Nat.add_assoc, bind_assoc, pure_bind]
      rw [ih (Nat.lt_trans hlt htop) (by omega)]
      simp only [climb, required_congr hr, ← Nat.add_assoc, if_neg (Nat.succ_ne_zero length)]
  | @leftmost i hn h =>
      obtain ⟨fuel, rfl⟩ := Nat.exists_eq_add_of_lt hf
      rw [descend]
      split
      · next op left right hb => exact absurd hb (hn op left right)
      · simp only [pure_bind, required_congr h, ← Nat.add_assoc]

theorem chain_eq (ha : a.Ordered) {op : Operator} {left right : Nat} (hn : a.node? id = some (.binary op left right))
    (hl : PlainAlong a eval left) (hr : ∀ depth, eval right depth = plain a right depth) :
    chain a (required a eval) id depth = (do
      let l ← required a (plain a) left (depth + 1)
      let r ← required a (plain a) right (depth + 1)
      ofExcept (op.apply l r)) := by
  have hlt : left < id := child_lt ha hn (by simp [Node.children])
  rw [chain, descend, hn]
  simp only [if_true]
  rw [climb_descend ha hl hlt hlt]
  simp only [climb, required_congr hr, Nat.add_zero, if_true, bind_pure]

theorem plainAlong_of_lt (ha : a.Ordered) {bound : Nat} (h : ∀ child < bound, ∀ depth, eval child depth = plain a child depth)
    (hid : id < bound) : PlainAlong a eval id := by
  induction hk : id using Nat.strongRecOn generalizing id with
  | _ k ih =>
      obtain rfl := hk
      by_cases hn : ∃ op left right, a.node? id = some (.binary op left right)
      · obtain ⟨op, left, right, hn⟩ := hn
        have hlt : left < id := child_lt ha hn (by simp [Node.children])
        have hrt : right < id := child_lt ha hn (by simp [Node.children])
        exact .operator hn (ih left hlt (by omega) rfl) (h right (by omega))
      · exact .leftmost (fun op left right hb => hn ⟨op, left, right, hb⟩) (h id hid)

theorem node_eq (ha : a.Ordered) (heval : ∀ child < id, ∀ depth, eval child depth = plain a child depth)
    (hn : a.node? id = some n) : node a eval id depth n = plainNode a (plain a) id depth n := by
  have hc : plainNode a eval id depth n = plainNode a (plain a) id depth n :=
    plainNode_congr fun child hc => heval child (child_lt ha hn hc)
  cases n with
  | program | declaration | assignment | identifier | literal => exact hc
  | binary op left right =>
      have hl : left < id := child_lt ha hn (by simp [Node.children])
      have hr : right < id := child_lt ha hn (by simp [Node.children])
      rw [node, chain_eq ha hn (plainAlong_of_lt ha heval hl) (heval right hr)]
      simp only [plainNode, map_eq_pure_bind, bind_assoc]

theorem within_plain (ha : a.Ordered) {budget : Nat} (hb : id < budget) (depth : Nat) :
    within a budget id depth = plain a id depth := by
  induction hk : id using Nat.strongRecOn generalizing id budget depth with
  | _ k ih =>
      obtain rfl := hk
      obtain ⟨budget, rfl⟩ := Nat.exists_eq_add_of_lt hb
      rw [within]
      cases hn : a.node? id with
      | none => exact (plain_of_none hn).symm
      | some n =>
          dsimp only
          rw [plain_of_node ha hn, node_eq ha (fun child hc depth => ih child hc (by omega) depth rfl) hn]

variable {α β : Type}

/-- What the steps of evaluation have in common, and what is kept when they follow each other. -/
structure Compositional (P : ∀ {α : Type}, Eval α → Prop) : Prop where
  pure {α : Type} (v : α) : P (pure v : Eval α)
  throw {α : Type} (e : EvalError) : P (throw e : Eval α)
  bind {α β : Type} {x : Eval α} {f : α → Eval β} (hx : P x) (hf : ∀ v, P (f v)) : P (x >>= f)
  note (step : Step) : P (note step)
  lookUp (name : String) : P (lookUp name)
  requireDeclared (name : String) : P (requireDeclared name)
  declare (name : String) (value? : Option Int64) : P (declare name value?)
  assign (name : String) (value : Int64) : P (assign name value)

/-- What relates the steps of evaluation to those of the same evaluation so many levels further down, and still
relates the two when more steps follow. -/
structure Parallel (k : Nat) (R : ∀ {α : Type}, Eval α → Eval α → Prop) : Prop where
  pure {α : Type} (v : α) : R (pure v : Eval α) (pure v)
  throw {α : Type} (e : EvalError) : R (throw e : Eval α) (throw e)
  bind {α β : Type} {x y : Eval α} {f g : α → Eval β} (hx : R x y) (hf : ∀ v, R (f v) (g v)) : R (x >>= f) (y >>= g)
  note (step : Step) : R (note step) (note (step.sink k))
  lookUp (name : String) : R (lookUp name) (lookUp name)
  requireDeclared (name : String) : R (requireDeclared name) (requireDeclared name)
  declare (name : String) (value? : Option Int64) : R (declare name value?) (declare name value?)
  assign (name : String) (value : Int64) : R (assign name value) (assign name value)

namespace Parallel

variable {k : Nat} {R : ∀ {α : Type}, Eval α → Eval α → Prop} (hR : Parallel k @R)
include hR

theorem ofExcept (x : Except EvalError α) : R (ofExcept x : Eval α) (ofExcept x) := by
  cases x with
  | error e => exact hR.throw e
  | ok v => exact hR.pure v

theorem map {f : α → β} {x y : Eval α} (h : R x y) : R (f <$> x) (f <$> y) := by
  rw [map_eq_pure_bind, map_eq_pure_bind]
  exact hR.bind h fun v => hR.pure (f v)

variable {depth' : Nat}

theorem required {child : Nat} (h : R (eval child depth) (eval child depth')) :
    R (required a eval child depth) (required a eval child depth') := by
  refine hR.bind h fun value? => ?_
  cases value? with
  | none => exact hR.throw _
  | some value => exact hR.pure value

theorem sequence {ids : List Nat} (h : ∀ id ∈ ids, R (eval id depth) (eval id depth')) :
    R (sequence (eval · depth) ids) (sequence (eval · depth') ids) := by
  unfold Eval.sequence
  generalize (none : Option Int64) = value?
  induction ids generalizing value? with
  | nil => exact hR.pure value?
  | cons id ids ih =>
      rw [List.foldlM_cons, List.foldlM_cons]
      exact hR.bind (h id List.mem_cons_self) (ih fun i hi => h i (List.mem_cons_of_mem id hi))

theorem plainNode (h : ∀ child ∈ n.children, R (eval child (depth + 1)) (eval child (depth' + 1))) :
    R (plainNode a eval id depth n) (plainNode a eval id depth' n) := by
  cases n with
  | program statements => exact hR.sequence h
  | declaration name init? =>
      cases init? with
      | none => exact hR.bind (hR.declare name none) fun _ => hR.pure none
      | some init =>
          refine hR.bind (hR.required (h init (by simp [Node.children]))) fun value => ?_
          exact hR.bind (hR.declare name _) fun _ => hR.pure _
  | assignment name value =>
      refine hR.bind (hR.requireDeclared name) fun _ => ?_
      refine hR.bind (hR.required (h value (by simp [Node.children]))) fun value => ?_
      exact hR.bind (hR.assign name value) fun _ => hR.pure _
  | binary op left right =>
      refine hR.bind (hR.required (h left (by simp [Node.children]))) fun l => ?_
      exact hR.bind (hR.required (h right (by simp [Node.children]))) fun r => hR.map (hR.ofExcept _)
  | identifier name =>
      rw [Eval.plainNode, Eval.plainNode, node, node]
      · exact hR.map (hR.lookUp name)
      · nofun
      · nofun
  | literal text =>
      rw [Eval.plainNode, Eval.plainNode, node, node]
      · split
        · exact hR.pure _
        · exact hR.throw _
      · nofun
      · nofun

theorem plain (ha : a.Ordered) (hid : id < a.size) (depth : Nat) : R (plain a id depth) (plain a id (depth + k)) := by
  induction hi : id using Nat.strongRecOn generalizing id depth with
  | _ i ih =>
      obtain rfl := hi
      obtain ⟨n, hn⟩ := Arena.node?_of_lt_size hid
      have hc : R (Eval.plainNode a (Eval.plain a) id depth n) (Eval.plainNode a (Eval.plain a) id (depth + k) n) := by
        refine hR.plainNode fun child hchild => ?_
        have hlt := child_lt ha hn hchild
        rw [Nat.add_right_comm]
        exact ih child hlt (Nat.lt_trans hlt hid) (depth + 1) rfl
      rw [plain_of_node ha hn, plain_of_node ha hn]
      exact hR.bind (hR.note _) fun _ => hR.bind hc fun _ => hR.bind (hR.note _) fun _ => hR.pure _

end Parallel

namespace Compositional

variable {P : ∀ {α : Type}, Eval α → Prop} (hP : Compositional @P)
include hP

theorem parallel : Parallel 0 (fun x _ => P x) where
  pure := hP.pure
  throw := hP.throw
  bind hx hf := hP.bind hx hf
  note := hP.note
  lookUp := hP.lookUp
  requireDeclared := hP.requireDeclared
  declare := hP.declare
  assign := hP.assign

/-- What all steps have and sequences keep, the evaluation of every node of a tree has. -/
theorem plain (ha : a.Ordered) (hid : id < a.size) (depth : Nat) : P (plain a id depth) :=
  hP.parallel.plain ha hid depth

end Compositional

section

variable {x : Eval α} {f : α → Eval β} {run run' : Run}

theorem run_bind_ok {v : α} (h : x.run.run run = some (.ok v, run')) : (x >>= f).run.run run = (f v).run.run run' := by
  simp [ExceptT.run_bind, h]

theorem run_bind_error {e : EvalError} (h : x.run.run run = some (.error e, run')) :
    (x >>= f).run.run run = some (.error e, run') := by
  simp [ExceptT.run_bind, h]

end

def Settles (x : Eval α) : Prop := ∀ run, ∃ outcome, x.run.run run = some outcome

theorem settles_throw (e : EvalError) : Settles (throw e : Eval α) := fun run => ⟨(.error e, run), rfl⟩

theorem Settles.bind {x : Eval α} {f : α → Eval β} (hx : Settles x) (hf : ∀ v, Settles (f v)) :
    Settles (x >>= f) := by
  intro run
  obtain ⟨⟨result, run'⟩, h⟩ := hx run
  cases result with
  | error e => exact ⟨(.error e, run'), run_bind_error h⟩
  | ok v =>
      obtain ⟨outcome, hv⟩ := hf v run'
      exact ⟨outcome, (run_bind_ok h).trans hv⟩

theorem settles_ofExcept (x : Except EvalError α) : Settles (ofExcept x : Eval α) := by
  cases x with
  | error e => exact settles_throw e
  | ok v => exact fun run => ⟨(.ok v, run), rfl⟩

theorem settles_get : Settles (get : Eval Run) := fun run => ⟨(.ok run, run), rfl⟩

theorem settles_modify (f : Run → Run) : Settles (modify f : Eval PUnit) := fun run => ⟨(.ok ⟨⟩, f run), rfl⟩

theorem settles_compositional : Compositional @Settles where
  pure v := fun run => ⟨(.ok v, run), rfl⟩
  throw := settles_throw
  bind := Settles.bind
  note _ := settles_modify _
  lookUp _ := settles_get.bind fun _ => settles_ofExcept _
  requireDeclared name := by
    refine settles_get.bind fun run => ?_
    split
    · exact fun run => ⟨(.ok ⟨⟩, run), rfl⟩
    · exact settles_throw _
  declare _ _ := settles_modify _
  assign _ _ := settles_get.bind fun _ => (settles_ofExcept _).bind fun _ => settles_modify _

theorem settles_plain (ha : a.Ordered) (hid : id < a.size) (depth : Nat) : Settles (plain a id depth) :=
  settles_compositional.plain ha hid depth

theorem evaluateNode_plain (ha : a.Ordered) (hid : id < a.size) (env : Environment) :
    (plain a id 0).run.run (.start env) = some (a.evaluateNode id env) := by
  obtain ⟨outcome, h⟩ := settles_plain ha hid 0 (.start env)
  rw [Arena.evaluateNode, within_plain ha (Nat.lt_succ_self id), h]
  rfl

/-- Evaluation along the left operands is plain recursion: in value or error, in what becomes of the
variables and in all that is noted on the way. -/
theorem within_eq_plain (a : Arena) (ha : a.Ordered) (id budget depth : Nat) (hb : id < budget) :
    within a budget id depth = plain a id depth ∧
    (id < a.size → (∀ run, ∃ outcome, (within a budget id depth).run.run run = some outcome) ∧
      ∀ env, (plain a id 0).run.run (.start env) = some (a.evaluateNode id env)) := by
  refine ⟨within_plain ha hb depth, fun hid => ⟨?_, evaluateNode_plain ha hid⟩⟩
  rw [within_plain ha hb]
  exact settles_plain ha hid depth

/-- The tree of `7 / 2 - x`. -/
def quotientLessName : Arena :=
  ((((Arena.empty.push (.literal "7")).push (.literal "2")).push (.binary .div 0 1)).push
    (.identifier "x")).push (.binary .sub 2 3)

def fiveForX : Environment := Environment.empty.declare "x" (some 5)

def quotientLessNameSteps : Array Step :=
  #[.calculating 3 .additive "-", .calculating 4 .multiplicative "/", .calculating 5 .literal "7", .result 5 (some 7),
    .calculating 5 .literal "2", .result 5 (some 2), .result 4 (some 3), .calculating 4 .identifier "x",
    .result 4 (some 5), .result 3 (some (-2))]

theorem within_eq_plain_quotient :
    quotientLessName.Ordered ∧ 4 < 5 ∧
    (within quotientLessName 5 4 3).run.run (.start fiveForX) =
      some (.ok (some (-2)), ⟨fiveForX, quotientLessNameSteps⟩) ∧
    (plain quotientLessName 4 3).run.run (.start fiveForX) =
      some (.ok (some (-2)), ⟨fiveForX, quotientLessNameSteps⟩) := by
  have hordered : quotientLessName.Ordered := by decide
  have hwithin : (within quotientLessName 5 4 3).run.run (.start fiveForX) =
      some (.ok (some (-2)), ⟨fiveForX, quotientLessNameSteps⟩) := rfl
  exact ⟨hordered, by decide, hwithin, (within_eq_plain quotientLessName hordered 4 5 3 (by decide)).1 ▸ hwithin⟩

end Eval

end IntScript
