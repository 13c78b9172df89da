import IntScript.Proofs.Grammar.Viable

namespace IntScript.Grammar

/-- The first token with which no program can go on, or the end, where the program is not whole. -/
def FirstFault (n : Nat) (ts : List Token) (q : Nat) : Prop :=
  (q < ts.length ∧ ¬ Viable n (ts.take (q + 1)) ∧ ∀ i < q, Viable n (ts.take (i + 1))) ∨
    (q = ts.length ∧ Viable n ts ∧ ¬ ∃ xs, Program n ts xs)

/-- After whole statements up to `p` there is a whole expression up to `q`. -/
def Unended (n : Nat) (ts : List Token) (p q : Nat) : Prop :=
  (∃ xs, Program n (ts.take p) xs) ∧ ∃ e, Additive n ((ts.take q).drop p) e

def tokenText : Option Token → String
  | some t => "'" ++ t.text ++ "'"
  | none => "end of input"

variable {n p q : Nat} {ts us : List Token} {c : Cursor} {e : ParseError}

theorem found_eq (e : ParseError) : e.found = tokenText e.token? := by
  cases h : e.token? <;> simp [ParseError.found, tokenText, h]

theorem tokens_getElem? (c : Cursor) (q : Nat) : c.tokens[c.position + q]? = c.rest[q]? := by
  simp [Cursor.rest]

theorem not_viable_take (h : FirstFault n ts q) {read rest : List Token} {t : Token}
    (hts : ts = read ++ t :: rest) (hq : read.length = q) : ¬ Viable n (read ++ [t]) := by
  rcases h with ⟨-, hv, -⟩ | ⟨he, -, -⟩
  · have ht : ts.take (q + 1) = read ++ [t] := by
      rw [hts, ← hq, List.take_length_add_append]
      rfl
    rwa [ht] at hv
  · simp [hts, ← hq] at he

theorem viable_take (h : FirstFault n ts q) {i : Nat} (hi : i < q) : Viable n (ts.take (i + 1)) := by
  rcases h with ⟨-, -, hv⟩ | ⟨-, hv, -⟩
  · exact hv i hi
  · rw [← List.take_append_drop (i + 1) ts] at hv
    exact hv.of_append

theorem FirstFault.unique {r : Nat} (hq : FirstFault n ts q) (hr : FirstFault n ts r) : q = r := by
  have hle : ∀ {q r}, FirstFault n ts q → FirstFault n ts r → r ≤ q := by
    intro q r hq hr
    by_contra hlt
    rcases hq with ⟨hl, hv, -⟩ | ⟨he, -, -⟩
    · exact hv (viable_take hr (Nat.lt_of_not_le hlt))
    · obtain ⟨hl, -, -⟩ | ⟨hl, -, -⟩ := hr <;> omega
  exact Nat.le_antisymm (hle hr hq) (hle hq hr)

/-- The place after viable tokens is the first fault if no program goes on with the next token. -/
theorem firstFault_of {read : List Token} (hts : ts = read ++ us) (hv : Viable n read)
    (hstuck : ∀ vs, vs.head? = us.head? → ¬ ∃ xs, Program n (read ++ vs) xs) :
    FirstFault n ts read.length := by
  cases us with
  | nil =>
      rw [List.append_nil] at hts
      refine .inr ⟨by rw [hts], by rwa [hts], ?_⟩
      rw [hts]
      simpa using hstuck [] rfl
  | cons t us =>
      refine .inl ⟨by simp [hts], ?_, ?_⟩
      · rintro ⟨vs, xs, hp⟩
        refine hstuck (t :: vs) rfl ⟨xs, ?_⟩
        rwa [hts, List.take_length_add_append, List.append_assoc] at hp
      · intro i hi
        have hi : ts.take (i + 1) = read.take (i + 1) := by
          rw [hts, List.take_append_of_le_length (by omega)]
        rw [hi]
        rw [← List.take_append_drop (i + 1) read] at hv
        exact hv.of_append

theorem not_program_of_error (h : (parseProgram c).result = .error e) :
    ¬ ∃ xs, Program maxNesting c.rest xs := by
  rintro ⟨xs, hxs⟩
  exact nomatch h.symm.trans (parseProgram_ok hxs)

theorem append_ne_nil_of_head? {us vs : List Token} (h : ts ++ us ≠ []) (hv : vs.head? = us.head?) :
    ts ++ vs ≠ [] := by
  cases us with
  | nil => simp_all
  | cons t us =>
      obtain ⟨ws, rfl⟩ := List.head?_eq_some_iff.1 hv
      simp

section Error

variable {n p q : Nat} {done ts us : List Token} {xs : List Stmt} {reason : ParseError.Reason} {x : Expr}
  {c : Cursor} {e : ParseError}

-- What follows the next token plays no part in a fault, so that the parser refuses every continuation.
theorem not_program_of_fault (hd : Program maxNesting done xs)
    (h : StatementFault maxNesting ts us.head? reason) (hne : ts ++ us ≠ []) :
    ¬ ∃ ys, Program maxNesting (done ++ (ts ++ us)) ys := by
  rw [← Cursor.rest_start_toArray (done ++ (ts ++ us))]
  exact not_program_of_error (parseProgram_fault hd (Cursor.rest_start_toArray _) h hne)

theorem not_program_of_unfinished (hd : Program maxNesting done xs)
    (h : Unfinished maxNesting ts us.head?) (hne : ts ++ us ≠ []) :
    ¬ ∃ ys, Program maxNesting (done ++ (ts ++ us)) ys := by
  rw [← Cursor.rest_start_toArray (done ++ (ts ++ us))]
  exact not_program_of_error (parseProgram_unfinished hd (Cursor.rest_start_toArray _) h hne)

theorem firstFault_of_statement (hd : Program n done xs) (hc : ∃ vs y, Statement n (ts ++ vs) y)
    (hstuck : ∀ vs, vs.head? = us.head? → ¬ ∃ ys, Program n (done ++ (ts ++ vs)) ys) :
    FirstFault n (done ++ (ts ++ us)) (done.length + ts.length) := by
  rw [← List.length_append]
  refine firstFault_of (List.append_assoc _ _ _).symm (viable_of_statement hd hc) ?_
  intro vs hv
  rw [List.append_assoc]
  exact hstuck vs hv

theorem firstFault_of_fault (hd : Program maxNesting done xs)
    (h : StatementFault maxNesting ts us.head? reason) (hne : ts ++ us ≠ []) :
    FirstFault maxNesting (done ++ (ts ++ us)) (done.length + ts.length) :=
  firstFault_of_statement hd (statementFault_continues h) fun _ hv =>
    not_program_of_fault hd (hv ▸ h) (append_ne_nil_of_head? hne hv)

theorem firstFault_of_unfinished (hd : Program maxNesting done xs)
    (h : Unfinished maxNesting ts us.head?) (hne : ts ++ us ≠ []) :
    FirstFault maxNesting (done ++ (ts ++ us)) (done.length + ts.length) :=
  firstFault_of_statement hd (unfinished_continues h) fun _ hv =>
    not_program_of_unfinished hd (hv ▸ h) (append_ne_nil_of_head? hne hv)

theorem not_statement_of_firstFault (hd : Program n done xs)
    (hq : FirstFault n (done ++ (ts ++ us)) (done.length + ts.length)) :
    ∀ t ∈ us.head?, ¬ ∃ vs y, Statement n ((ts ++ [t]) ++ vs) y := by
  intro t ht hy
  obtain ⟨vs, rfl⟩ := List.head?_eq_some_iff.1 ht
  have hts : done ++ (ts ++ t :: vs) = (done ++ ts) ++ t :: vs := (List.append_assoc _ _ _).symm
  refine not_viable_take hq hts List.length_append ?_
  rw [List.append_assoc]
  exact viable_of_statement hd hy

/-- A whole expression that stops at the first fault is one without a semicolon. -/
theorem unfinished_of_firstFault (hd : Program n done xs) (hx : Additive n ts x)
    (hq : FirstFault n (done ++ (ts ++ us)) (done.length + ts.length)) : Unfinished n ts us.head? := by
  have hstuck := not_statement_of_firstFault hd hq
  refine .expression hx (fun t ht => ?_) (fun t ht => ?_) ?_
  · by_contra ho
    obtain ⟨vs, y, hy⟩ := additive_further hx (Bool.not_eq_false _ ▸ ho)
    refine hstuck t ht ⟨vs ++ [⟨.semicolon, ";"⟩], .expression y, ?_⟩
    rw [← List.append_assoc]
    exact .expression ";" hy
  · by_contra hs
    obtain ⟨kind, text⟩ := t
    obtain rfl : kind = .semicolon := by simpa using hs
    exact hstuck _ ht ⟨[], _, by simpa using Statement.expression text hx⟩
  · rintro ⟨name, equals, rfl, hn⟩
    obtain ⟨vs, y, hy⟩ := additive_begins n
    exact hstuck _ hn ⟨vs ++ [⟨.semicolon, ";"⟩], _, Statement.assign name equals ";" hy⟩

theorem split_of_unended (hu : Unended n ts p q) (hq : q ≤ ts.length) :
    p ≤ q ∧ ts = ts.take p ++ ((ts.take q).drop p ++ ts.drop q) := by
  obtain ⟨-, x, hx⟩ := hu
  have hpq : p ≤ q := by
    by_contra hlt
    refine additive_ne_nil hx (List.drop_eq_nil_of_le ?_)
    rw [List.length_take]
    omega
  refine ⟨hpq, ?_⟩
  have ht : (ts.take q).take p = ts.take p := by rw [List.take_take, Nat.min_eq_left hpq]
  rw [← List.append_assoc, ← ht, List.take_append_drop, List.take_append_drop]

theorem FirstFault.le_length (h : FirstFault n ts q) : q ≤ ts.length := by
  obtain ⟨hl, -⟩ | ⟨he, -⟩ := h <;> omega

theorem parseProgram_unended (hq : FirstFault maxNesting c.rest q) (hu : Unended maxNesting c.rest p q) :
    (parseProgram c).result = .error ⟨.unknownStatement, c.position + p, c.rest[p]?⟩ := by
  obtain ⟨hpq, hs⟩ := split_of_unended hu hq.le_length
  obtain ⟨⟨xs, hd⟩, x, hx⟩ := hu
  have hl := hq.le_length
  have hp : (c.rest.take p).length = p := by rw [List.length_take]; omega
  have hq' : (c.rest.take p).length + ((c.rest.take q).drop p).length = q := by
    rw [hp, List.length_drop, List.length_take]
    omega
  rw [← hq'] at hq
  have hf : Unfinished maxNesting ((c.rest.take q).drop p) (c.rest.drop q).head? := by
    refine unfinished_of_firstFault hd hx ?_
    rwa [← hs]
  rw [parseProgram_unfinished hd hs hf (by simp [additive_ne_nil hx]), hp, List.head?_eq_getElem?]
  congr 2
  conv_rhs => rw [hs]
  rw [List.getElem?_append_right (Nat.le_of_eq hp), hp, Nat.sub_self]

theorem getElem?_length_add (done ts us : List Token) :
    (done ++ (ts ++ us))[done.length + ts.length]? = us.head? := by
  rw [← List.append_assoc, ← List.length_append, List.getElem?_append_right (Nat.le_refl _), Nat.sub_self,
    List.head?_eq_getElem?]

/-- An error stands at the first fault, unless that one comes after an expression statement that
lacks nothing but its semicolon. -/
theorem firstFault_of_error (h : (parseProgram c).result = .error e) :
    ∃ q, FirstFault maxNesting c.rest q ∧ ((¬ ∃ p, Unended maxNesting c.rest p q) →
      e.position = c.position + q ∧ e.token? = c.rest[q]?) := by
  rcases program_cases c.rest with hp | ⟨done, xs, ts, us, hs, hd, hne, ⟨reason, hf⟩ | hf⟩
  · exact absurd hp (not_program_of_error h)
  · refine ⟨done.length + ts.length, hs ▸ firstFault_of_fault hd hf hne, fun _ => ?_⟩
    obtain rfl := Except.error.inj (h.symm.trans (parseProgram_fault hd hs hf hne))
    rw [hs, getElem?_length_add]
    exact ⟨Nat.add_assoc _ _ _, rfl⟩
  · refine ⟨done.length + ts.length, hs ▸ firstFault_of_unfinished hd hf hne, fun hu => ?_⟩
    obtain rfl := Except.error.inj (h.symm.trans (parseProgram_unfinished hd hs hf hne))
    cases hf with
    | nothing => exact ⟨rfl, by rw [hs, getElem?_length_add]; rfl⟩
    | @expression _ x _ hx =>
        refine absurd ⟨done.length, ⟨xs, ?_⟩, x, ?_⟩ hu
        · rwa [hs, List.take_left]
        · rwa [hs, ← List.append_assoc, ← List.length_append, List.take_left, List.drop_left]

/-- An error names the first token with which no program can go on. Where all that was read of the
statement is a whole expression, it names the first token of that statement instead. -/
theorem error_located (c : Cursor) (e : ParseError) (h : (parseProgram c).result = .error e) :
    (∃ q, FirstFault maxNesting c.rest q) ∧ ∀ q, FirstFault maxNesting c.rest q →
      ((¬ ∃ p, Unended maxNesting c.rest p q) →
        e.position = c.position + q ∧ e.found = tokenText c.tokens[c.position + q]?) ∧
      ∀ p, Unended maxNesting c.rest p q → e.reason = .unknownStatement ∧
        e.position = c.position + p ∧ e.found = tokenText c.tokens[c.position + p]? := by
  obtain ⟨r, hr, hplain⟩ := firstFault_of_error h
  refine ⟨⟨r, hr⟩, fun q hq => ?_⟩
  obtain rfl := hr.unique hq
  refine ⟨fun hu => ?_, fun p hu => ?_⟩
  · obtain ⟨hpos, ht⟩ := hplain hu
    rw [found_eq, ht, tokens_getElem?]
    exact ⟨hpos, rfl⟩
  · obtain rfl := Except.error.inj (h.symm.trans (parseProgram_unended hr hu))
    rw [found_eq, tokens_getElem?]
    exact ⟨rfl, rfl, rfl⟩

theorem error_located_two_values :
    (parseProgram (.start (tokenize "int x; x + 1 2"))).result =
      .error ⟨.unknownStatement, 3, some ⟨.identifier, "x"⟩⟩ ∧
    (∃ q, FirstFault maxNesting (Cursor.start (tokenize "int x; x + 1 2")).rest q) ∧
    ∀ q, FirstFault maxNesting (Cursor.start (tokenize "int x; x + 1 2")).rest q →
      ((¬ ∃ p, Unended maxNesting (Cursor.start (tokenize "int x; x + 1 2")).rest p q) →
        3 = 0 + q ∧ "'x'" = tokenText (tokenize "int x; x + 1 2")[0 + q]?) ∧
      ∀ p, Unended maxNesting (Cursor.start (tokenize "int x; x + 1 2")).rest p q →
        ParseError.Reason.unknownStatement = .unknownStatement ∧
        3 = 0 + p ∧ "'x'" = tokenText (tokenize "int x; x + 1 2")[0 + p]? :=
  ⟨rfl, error_located (.start (tokenize "int x; x + 1 2"))
    ⟨.unknownStatement, 3, some ⟨.identifier, "x"⟩⟩ rfl⟩

end Error

end IntScript.Grammar
