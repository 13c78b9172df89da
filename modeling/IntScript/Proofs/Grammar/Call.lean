import IntScript.Grammar.Parse
import IntScript.Proofs.Grammar.Contract

namespace IntScript.Grammar

inductive Nonterminal where
  | statement | declaration | assignment | expressionStatement | additive | multiplicative | primary

def Nonterminal.rule (depth : Nat) : Nonterminal → Rule
  | statement => Grammar.statement (Grammar.additive (depth + 1))
  | declaration => Grammar.declaration (Grammar.additive (depth + 1))
  | assignment => Grammar.assignment (Grammar.additive (depth + 1))
  | expressionStatement => Grammar.expressionStatement (Grammar.additive (depth + 1))
  | additive => Grammar.additive (depth + 1)
  | multiplicative => Grammar.multiplicative (Grammar.additive depth)
  | primary => Grammar.primary (Grammar.additive depth)

/-- The operands that a chain has read, as one node, whenever it looks for an operator. -/
inductive Head (operator? : Token.Kind → Option Operator) (rule : Rule) (s : State) : Nat → State → Prop
  | first {left t} (hr : rule s = some (.node left t)) : Head operator? rule s left t
  | next {left t op right u} (h : Head operator? rule s left t) (hop : t.peekKind?.bind operator? = some op)
      (hr : rule t.advance = some (.node right u)) :
      Head operator? rule s u.arena.size { u with arena := u.arena.push (.binary op left right) }

inductive Called (c : Cursor) : Nonterminal → Nat → State → Prop
  | program {first} (hp : c.peek? = some first) : Called c .statement maxNesting (.start c)
  | calculation : Called c .additive maxNesting (.start c)
  | statement {depth s id t first} (h : Called c .statement depth s)
      (hr : Nonterminal.statement.rule depth s = some (.node id t)) (hp : t.cursor.peek? = some first) :
      Called c .statement depth t
  | declaration {depth s} (h : Called c .statement depth s) : Called c .declaration depth s
  | assignment {depth s t} (h : Called c .declaration depth s)
      (hr : Nonterminal.declaration.rule depth s = some (.absent t)) : Called c .assignment depth t
  | expressionStatement {depth s t} (h : Called c .assignment depth s)
      (hr : Nonterminal.assignment.rule depth s = some (.absent t)) : Called c .expressionStatement depth t
  | initializer {depth s} (h : Called c .declaration depth s) (hint : s.peekKind? = some .keywordInt)
      (hname : s.advance.peekKind? = some .identifier) (hequals : s.advance.advance.peekKind? = some .assign) :
      Called c .additive depth s.advance.advance.advance
  | value {depth s} (h : Called c .assignment depth s) (hname : s.peekKind? = some .identifier)
      (hequals : s.advance.peekKind? = some .assign) : Called c .additive depth s.advance.advance
  | expression {depth s} (h : Called c .expressionStatement depth s) : Called c .additive depth s
  | term {depth s} (h : Called c .additive depth s) : Called c .multiplicative depth s
  | nextTerm {depth s left t op} (h : Called c .additive depth s)
      (hh : Head Operator.additive? (Nonterminal.multiplicative.rule depth) s left t)
      (hop : t.peekKind?.bind Operator.additive? = some op) : Called c .multiplicative depth t.advance
  | factor {depth s} (h : Called c .multiplicative depth s) : Called c .primary depth s
  | nextFactor {depth s left t op} (h : Called c .multiplicative depth s)
      (hh : Head Operator.multiplicative? (Nonterminal.primary.rule depth) s left t)
      (hop : t.peekKind?.bind Operator.multiplicative? = some op) : Called c .primary depth t.advance
  | group {depth s} (h : Called c .primary (depth + 1) s) (hp : s.peekKind? = some .leftParen)
      (hn : s.nesting ≠ maxNesting) : Called c .additive depth s.enter

inductive Loop (rule : Rule) : List Nat → State → Parsed → Prop
  | finished {ids s} (hp : s.cursor.peek? = none) : Loop rule ids s (s.succeed ids.reverse)
  | next {ids s first id t p} (hp : s.cursor.peek? = some first) (hr : rule s = some (.node id t))
      (h : Loop rule (id :: ids) t p) : Loop rule ids s p
  | absent {ids s first t} (hp : s.cursor.peek? = some first) (hr : rule s = some (.absent t)) :
      Loop rule ids s (t.stop (t.cursor.fault .unknownStatement))
  | error {ids s first e t} (hp : s.cursor.peek? = some first) (hr : rule s = some (.error e t)) :
      Loop rule ids s (t.stop e)

variable {c : Cursor} {s t : State} {r : Nonterminal} {depth low : Nat} {rule : Rule} {p q : Parsed} {ids : List Nat}

theorem rule_keeps (c : Cursor) (r : Nonterminal) (depth : Nat) : Keeps c (r.rule depth) := by
  have hadditive := additive_keeps c (depth + 1)
  have hprimary : Keeps c (primary (additive depth)) := primary_keeps (additive_keeps c depth)
  cases r with
  | statement => exact statement_keeps hadditive
  | declaration => exact declaration_keeps hadditive
  | assignment => exact assignment_keeps hadditive
  | expressionStatement => exact expressionStatement_keeps hadditive
  | additive => exact hadditive
  | multiplicative => exact chain_keeps hprimary
  | primary => exact hprimary

theorem rule_answers (r : Nonterminal) (h : maxNesting ≤ low + depth) : Answers (r.rule depth) low := by
  have hadditive : Answers (additive (depth + 1)) low := additive_answers _ _ (Nat.lt_succ_of_le h)
  have hprimary : Answers (primary (additive depth)) low := primary_answers (additive_answers _ _ (by omega))
  cases r with
  | statement => exact statement_answers hadditive
  | declaration => exact declaration_answers hadditive
  | assignment => exact assignment_answers hadditive
  | expressionStatement => exact expressionStatement_answers hadditive
  | additive => exact hadditive
  | multiplicative => exact chain_answers hprimary
  | primary => exact hprimary

theorem contract_of_reachable (hs : Reachable c s) (r : Nonterminal) (h : maxNesting ≤ s.nesting + depth) :
    ∃ reply, r.rule depth s = some reply ∧ Contract s reply ∧ Reachable c reply.state := by
  obtain ⟨reply, hr, -⟩ := rule_answers r h s (Nat.le_refl _) hs.nesting_le
  exact ⟨reply, hr, (hr ▸ rule_keeps c r depth s hs).contract⟩

theorem built_of_node {id : Nat} (hs : Reachable c s) (hr : r.rule depth s = some (.node id t)) :
    Built s id t ∧ Reachable c t := by
  have hkept := rule_keeps c r depth s hs
  rw [hr] at hkept
  cases hkept with
  | node hb ht => exact ⟨hb, ht⟩

theorem same_of_absent (hs : Reachable c s) (hr : r.rule depth s = some (.absent t)) : Same s t ∧ Reachable c t := by
  have hkept := rule_keeps c r depth s hs
  rw [hr] at hkept
  cases hkept with
  | absent hsame ht => exact ⟨hsame, ht⟩

theorem Head.built {operator? : Token.Kind → Option Operator} {left : Nat} (hs : Reachable c s)
    (h : Head operator? (r.rule depth) s left t) : Built s left t ∧ Reachable c t := by
  induction h with
  | first hr => exact built_of_node hs hr
  | next _ _ hr ih =>
      obtain ⟨hb, ht⟩ := ih
      obtain ⟨hb', hu⟩ := built_of_node ht.advance hr
      exact ⟨hb.binary hb' _, hb.reachable_binary hb' hu _⟩

/-- As many parentheses may still be opened as the limit admits. -/
theorem Called.reachable (h : Called c r depth s) : Reachable c s ∧ s.nesting + depth = maxNesting := by
  induction h with
  | program | calculation => exact ⟨.start, Nat.zero_add maxNesting⟩
  | statement _ hr _ ih =>
      obtain ⟨hb, ht⟩ := built_of_node ih.1 hr
      exact ⟨ht, hb.moved.nesting ▸ ih.2⟩
  | assignment _ hr ih =>
      obtain ⟨hsame, ht⟩ := same_of_absent ih.1 hr
      exact ⟨ht, hsame.nesting ▸ ih.2⟩
  | expressionStatement _ hr ih =>
      obtain ⟨hsame, ht⟩ := same_of_absent ih.1 hr
      exact ⟨ht, hsame.nesting ▸ ih.2⟩
  | declaration _ ih | expression _ ih | term _ ih | factor _ ih => exact ih
  | initializer _ _ _ _ ih => exact ⟨ih.1.advance.advance.advance, ih.2⟩
  | value _ _ _ ih => exact ⟨ih.1.advance.advance, ih.2⟩
  | nextTerm _ hh _ ih =>
      obtain ⟨hb, ht⟩ := hh.built ih.1
      exact ⟨ht.advance, hb.moved.nesting ▸ ih.2⟩
  | nextFactor _ hh _ ih =>
      obtain ⟨hb, ht⟩ := hh.built ih.1
      exact ⟨ht.advance, hb.moved.nesting ▸ ih.2⟩
  | group _ _ hn ih => exact ⟨ih.1.advance.enter hn, State.nesting_enter ih.2⟩

theorem Loop.unique (h : Loop rule ids s p) (h' : Loop rule ids s q) : p = q := by
  induction h with
  | finished hp =>
      cases h' with
      | finished => rfl
      | next hp' | absent hp' | error hp' => exact nomatch hp.symm.trans hp'
  | next hp hr _ ih =>
      cases h' with
      | finished hp' => exact nomatch hp'.symm.trans hp
      | next _ hr' h' =>
          obtain ⟨rfl, rfl⟩ := Reply.node.inj (Option.some.inj (hr.symm.trans hr'))
          exact ih h'
      | absent _ hr' | error _ hr' => exact nomatch hr.symm.trans hr'
  | absent hp hr =>
      cases h' with
      | finished hp' => exact nomatch hp'.symm.trans hp
      | next _ hr' | error _ hr' => exact nomatch hr.symm.trans hr'
      | absent _ hr' =>
          obtain rfl := Reply.absent.inj (Option.some.inj (hr.symm.trans hr'))
          rfl
  | error hp hr =>
      cases h' with
      | finished hp' => exact nomatch hp'.symm.trans hp
      | next _ hr' | absent _ hr' => exact nomatch hr.symm.trans hr'
      | error _ hr' =>
          obtain ⟨rfl, rfl⟩ := Reply.error.inj (Option.some.inj (hr.symm.trans hr'))
          rfl

theorem Built.remaining_lt {id : Nat} (h : Built s id t) : t.cursor.remaining < s.cursor.remaining := by
  have hposition := h.position
  have hinside := h.inside
  rw [Cursor.remaining, Cursor.remaining, h.moved.tokens]
  omega

/-- Each statement takes a token, and so there is an end to them. -/
theorem loop_of_statementsFrom (hs : Reachable c s) (r : Nonterminal) (hm : maxNesting ≤ s.nesting + depth) {fuel : Nat}
    (hfuel : s.cursor.remaining ≤ fuel) (h : statementsFrom (r.rule depth) fuel ids s = some p) :
    Loop (r.rule depth) ids s p := by
  induction fuel generalizing ids s with
  | zero =>
      obtain rfl := Option.some.inj h
      refine .finished (Array.getElem?_eq_none ?_)
      rw [Cursor.remaining] at hfuel
      omega
  | succ fuel ih =>
      rw [statementsFrom] at h
      cases hp : s.cursor.peek? with
      | none =>
          rw [hp] at h
          obtain rfl := Option.some.inj h
          exact .finished hp
      | some first =>
          obtain ⟨reply, hr, hc, ht⟩ := contract_of_reachable hs r hm
          rw [hp, hr] at h
          cases hc with
          | node hb =>
              refine .next hp hr (ih ht (hb.moved.nesting ▸ hm) ?_ h)
              exact Nat.le_of_lt_succ (Nat.lt_of_lt_of_le hb.remaining_lt hfuel)
          | absent =>
              obtain rfl := Option.some.inj h
              exact .absent hp hr
          | error =>
              obtain rfl := Option.some.inj h
              exact .error hp hr

theorem loop_parseProgram (c : Cursor) : Loop (Nonterminal.statement.rule maxNesting) [] (.start c) (parseProgram c) :=
  loop_of_statementsFrom .start .statement (Nat.le_add_left _ _) (Nat.le_refl _) (Option.some_get _).symm

/-- Wherever a rule is entered in a parse, each rule keeps its contract, and the loop over statements comes to an end. -/
theorem rules_contract (c : Cursor) :
    (∀ r depth s, Called c r depth s → Reachable c s ∧ s.nesting + depth = maxNesting) ∧
    (∀ s, Reachable c s → ∀ (r : Nonterminal) (depth : Nat), maxNesting ≤ s.nesting + depth →
      ∃ reply, r.rule depth s = some reply ∧ Contract s reply ∧ Reachable c reply.state) ∧
    ∀ p, Loop (Nonterminal.statement.rule maxNesting) [] (.start c) p ↔ p = parseProgram c := by
  refine ⟨fun r depth s => Called.reachable, fun s hs r depth => contract_of_reachable hs r, fun p => ⟨fun h => ?_, ?_⟩⟩
  · exact h.unique (loop_parseProgram c)
  · rintro rfl
    exact loop_parseProgram c

def unended : Cursor := .start (tokenize "(1)")

theorem rules_contract_unended :
    Called unended .primary (maxNesting - 1) (State.start unended).enter ∧ Reachable unended (State.start unended).enter ∧
    ∃ reply, Nonterminal.statement.rule (maxNesting - 1) (State.start unended).enter = some reply ∧
      Contract (State.start unended).enter reply ∧ Reachable unended reply.state := by
  have hparen : unended.peek? = some ⟨.leftParen, "("⟩ := rfl
  have hexpression : Called unended .expressionStatement maxNesting (.start unended) :=
    .expressionStatement (.assignment (.declaration (.program hparen)) rfl) rfl
  have hcalled : Called unended .primary (maxNesting - 1) (State.start unended).enter :=
    .factor (.term (.group (.factor (.term (.expression hexpression))) rfl (by decide)))
  obtain ⟨hcalls, hcontract, -⟩ := rules_contract unended
  obtain ⟨hs, hn⟩ := hcalls _ _ _ hcalled
  exact ⟨hcalled, hs, hcontract _ hs .statement (maxNesting - 1) (Nat.le_of_eq hn.symm)⟩

end IntScript.Grammar
