import IntScript.Proofs.Grammar.Level

namespace IntScript.Grammar

/-- What has been read of an expression: the left part of a sum, that of a product and an operand. -/
structure Frame where
  sum? : Option (Expr × Operator)
  product? : Option (Expr × Operator)
  operand? : Option Expr

namespace Frame

def empty : Frame := ⟨none, none, none⟩

def complete (left? : Option (Expr × Operator)) (right : Expr) : Expr :=
  left?.elim right fun (left, op) => .binary op left right

def value? (f : Frame) : Option Expr := f.operand?.map (complete f.sum?)

def take (f : Frame) (e : Expr) : Frame := ⟨f.sum?, none, some (complete f.product? e)⟩

def operate (f : Frame) (op : Operator) : Frame :=
  match op.rank with
  | 0 => ⟨f.value?.map (·, op), none, none⟩
  | _ => ⟨f.sum?, f.operand?.map (·, op), none⟩

end Frame

/-- A reader that takes one token at a time, takes nothing back and has no limit of parentheses. It keeps a
frame for each open parenthesis, the innermost one first, and the statements, the last one first. -/
structure Reader where
  done : List Stmt
  declares : Bool
  target? : Option String
  frame : Frame
  outer : List Frame

namespace Reader

def start (done : List Stmt) : Reader := ⟨done, false, none, .empty, []⟩

def statement? (declares : Bool) (target? : Option String) (value? : Option Expr) : Option Stmt :=
  match declares, target?, value? with
  | true, none, some (.identifier name) => some (.declaration name none)
  | true, some name, some e => some (.declaration name (some e))
  | false, some name, some e => some (.assignment name e)
  | false, none, some e => some (.expression e)
  | _, _, _ => none

def step (r : Reader) (t : Token) : Reader :=
  match t.kind with
  | .intLiteral => { r with frame := r.frame.take (.literal t.text) }
  | .identifier => { r with frame := r.frame.take (.identifier t.text) }
  | .plus => { r with frame := r.frame.operate .add }
  | .minus => { r with frame := r.frame.operate .sub }
  | .star => { r with frame := r.frame.operate .mul }
  | .slash => { r with frame := r.frame.operate .div }
  | .leftParen => { r with frame := .empty, outer := r.frame :: r.outer }
  | .rightParen =>
      match r.outer, r.frame.value? with
      | f :: outer, some e => { r with frame := f.take e, outer }
      | _, _ => r
  | .keywordInt => { r with declares := true }
  | .assign =>
      match r.frame.value? with
      | some (.identifier name) => { r with target? := some name, frame := .empty }
      | _ => r
  | .semicolon => .start ((statement? r.declares r.target? r.frame.value?).toList ++ r.done)
  | _ => r

def run (r : Reader) (ts : List Token) : Reader := ts.foldl step r

variable {n k : Nat} {ts us : List Token} {e left right : Expr} {x : Stmt} {xs : List Stmt}

theorem run_append (r : Reader) (ts us : List Token) : r.run (ts ++ us) = (r.run ts).run us := List.foldl_append

theorem run_cons (r : Reader) (t : Token) (ts : List Token) : r.run (t :: ts) = (r.step t).run ts := rfl

theorem step_operator (r : Reader) (op : Operator) (text : String) :
    r.step ⟨op.kind, text⟩ = { r with frame := r.frame.operate op } := by
  cases op <;> rfl

def Takes (ts : List Token) (e : Expr) : Nat → Prop
  | 0 => ∀ r : Reader, ∃ f, { r with frame := .empty }.run ts = { r with frame := f } ∧ f.value? = some e
  | 1 => ∀ (r : Reader) sum?, { r with frame := ⟨sum?, none, none⟩ }.run ts = { r with frame := ⟨sum?, none, some e⟩ }
  | _ => ∀ r : Reader, r.run ts = { r with frame := r.frame.take e }

theorem Takes.lower (h : Takes ts e (k + 1)) : Takes ts e k :=
  match k, h with
  | 0, h => fun r => ⟨_, h r none, rfl⟩
  | 1, h => fun r sum? => h { r with frame := ⟨sum?, none, none⟩ }
  | _ + 2, h => h

theorem Takes.group (l r : String) (h : Takes ts e 0) : Takes (⟨.leftParen, l⟩ :: (ts ++ [⟨.rightParen, r⟩])) e 2 := by
  intro s
  obtain ⟨f, hf, he⟩ := h { s with outer := s.frame :: s.outer }
  rw [run_cons, run_append]
  refine (congrArg (fun s => run s [⟨.rightParen, r⟩]) hf).trans ?_
  simp only [run, List.foldl_cons, List.foldl_nil, step, he]

theorem Takes.binary (op : Operator) (text : String) (hl : Takes ts left op.rank) (hr : Takes us right (op.rank + 1)) :
    Takes (ts ++ ⟨op.kind, text⟩ :: us) (.binary op left right) op.rank := by
  have hsum (h : op.rank = 0) (hl : Takes ts left 0) (hr : Takes us right 1) :
      Takes (ts ++ ⟨op.kind, text⟩ :: us) (.binary op left right) 0 := by
    intro s
    obtain ⟨f, hf, he⟩ := hl s
    refine ⟨⟨some (left, op), none, some right⟩, ?_, rfl⟩
    rw [run_append, hf, run_cons, step_operator]
    simp only [Frame.operate, h, he, Option.map_some]
    exact hr s (some (left, op))
  have hproduct (h : op.rank = 1) (hl : Takes ts left 1) (hr : Takes us right 2) :
      Takes (ts ++ ⟨op.kind, text⟩ :: us) (.binary op left right) 1 := by
    intro s sum?
    rw [run_append, hl s sum?, run_cons, step_operator]
    simp only [Frame.operate, h, Option.map_some]
    exact hr { s with frame := ⟨sum?, some (left, op), none⟩ }
  cases op with
  | add | sub => exact hsum rfl hl hr
  | mul | div => exact hproduct rfl hl hr

theorem takes_of_level (hk : k ≤ 2) (h : Level n k ts e) : Takes ts e k := by
  refine level_induction (motive := fun _ k ts e => Takes ts e k) ?_ ?_ ?_ ?_ ?_ hk h
  · exact fun n text r => rfl
  · exact fun n name r => rfl
  · exact fun n l r ts e ih => ih.group l r
  · exact fun n k ts e ih => ih.lower
  · exact fun n op text ts us left right ihl ihr => ihl.binary op text ihr

theorem run_value (h : Additive n ts e) (r : Reader) (semicolon : String) :
    run { r with frame := .empty } (ts ++ [⟨.semicolon, semicolon⟩]) =
      start ((statement? r.declares r.target? (some e)).toList ++ r.done) := by
  obtain ⟨f, hf, he⟩ := takes_of_level (Nat.zero_le 2) h r
  rw [run_append, hf, ← he]
  rfl

theorem run_statement (h : Statement n ts x) (done : List Stmt) : (start done).run ts = start (x :: done) := by
  cases h with
  | declare int name semicolon => rfl
  | define int name equals semicolon h => exact run_value h ⟨done, true, some name, .empty, []⟩ semicolon
  | assign name equals semicolon h => exact run_value h ⟨done, false, some name, .empty, []⟩ semicolon
  | expression semicolon h => exact run_value h (start done) semicolon

theorem run_program (h : Program n ts xs) (done : List Stmt) : (start done).run ts = start (xs.reverse ++ done) := by
  induction h generalizing done with
  | nil => rfl
  | cons hx _ ih => rw [run_append, run_statement hx, ih, List.reverse_cons, List.append_assoc, List.singleton_append]

end Reader

variable {n m : Nat} {ts : List Token} {xs ys : List Stmt}

/-- A token list has one reading, however many parentheses may be open. -/
theorem Program.unique (h : Program n ts xs) (h' : Program m ts ys) : xs = ys := by
  have hr := (Reader.run_program h []).symm.trans (Reader.run_program h' [])
  simpa [Reader.start] using hr

end IntScript.Grammar
