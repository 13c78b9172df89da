import IntScript.Token.Automaton
import Mathlib.Tactic.SplitIfs

namespace IntScript

namespace Token

theorem keyword?_eq (word : String) : keyword? word =
    if word = "int" then some .keywordInt else if word = "if" then some .keywordIf
    else if word = "else" then some .keywordElse else none := by
  simp only [keyword?, keywordTable, List.find?_cons, List.find?_nil, eq_comm (b := word)]
  split_ifs <;> simp [*]

def ofWord (word : String) : Token := ⟨(keyword? word).getD .identifier, word⟩

def Kind.ofSymbol? : Char → Option Kind
  | '+' => some .plus
  | '-' => some .minus
  | '*' => some .star
  | '/' => some .slash
  | '>' => some .gt
  | '<' => some .lt
  | ';' => some .semicolon
  | '(' => some .leftParen
  | ')' => some .rightParen
  | '=' => some .assign
  | _ => none

def Kind.withEquals? : Kind → Option Kind
  | .gt => some .ge
  | .lt => some .le
  | _ => none

end Token

inductive Lexeme where
  | word (text : String)
  | number (text : String)
  | symbol (kind : Token.Kind) (text : String)
  deriving DecidableEq, Repr

namespace Lexeme

def start? (c : Char) : Option Lexeme :=
  if c.isAlpha then some (.word (String.singleton c))
  else if c.isDigit then some (.number (String.singleton c))
  else (Token.Kind.ofSymbol? c).map (.symbol · (String.singleton c))

def accepts : Lexeme → Char → Bool
  | .word _, c => c.isAlphanum
  | .number _, c => c.isDigit
  | .symbol kind _, c => c == '=' && kind.withEquals?.isSome

def extend : Lexeme → Char → Lexeme
  | .word text, c => .word (text.push c)
  | .number text, c => .number (text.push c)
  | .symbol kind text, c => .symbol (kind.withEquals?.getD kind) (text.push c)

def token : Lexeme → Token
  | .word text => .ofWord text
  | .number text => ⟨.intLiteral, text⟩
  | .symbol kind text => ⟨kind, text⟩

end Lexeme

structure Lexer where
  closed : Array Token
  lexeme : Option Lexeme
  deriving DecidableEq, Repr

namespace Lexer

def start : Lexer := ⟨#[], none⟩

def close : Lexer → Array Token
  | ⟨closed, none⟩ => closed
  | ⟨closed, some lexeme⟩ => closed.push lexeme.token

def step : Lexer → Char → Lexer
  | ⟨closed, none⟩, c => ⟨closed, Lexeme.start? c⟩
  | ⟨closed, some lexeme⟩, c =>
      if lexeme.accepts c then ⟨closed, some (lexeme.extend c)⟩
      else ⟨closed.push lexeme.token, Lexeme.start? c⟩

def run (lexer : Lexer) (cs : List Char) : Lexer := cs.foldl step lexer

end Lexer

namespace Automaton

open Token

/-- A state of the automaton stands for a lexeme. All states of a word are one lexeme, as its kind is told by its
text when it is closed. -/
inductive Tracks : State × Automaton → Lexer → Prop
  | initial (ts) : Tracks (.initial, ⟨.identifier, "", ts⟩) ⟨ts, none⟩
  | keywordPrefix (ts) {text} (hne : text ≠ "") :
      Tracks (.keywordPrefix, ⟨.identifier, text, ts⟩) ⟨ts, some (.word text)⟩
  | word (ts) {text} (hne : text ≠ "") (hk : isKeywordPrefix text = false) :
      Tracks (.word, ⟨.identifier, text, ts⟩) ⟨ts, some (.word text)⟩
  | greater (ts) {text} (hne : text ≠ "") : Tracks (.greater, ⟨.gt, text, ts⟩) ⟨ts, some (.symbol .gt text)⟩
  | less (ts) {text} (hne : text ≠ "") : Tracks (.less, ⟨.lt, text, ts⟩) ⟨ts, some (.symbol .lt text)⟩
  | number (ts) {text} (hne : text ≠ "") : Tracks (.number, ⟨.intLiteral, text, ts⟩) ⟨ts, some (.number text)⟩
  | single (ts) {kind text} (hne : text ≠ "") (hk : kind.withEquals? = none) :
      Tracks (.single, ⟨kind, text, ts⟩) ⟨ts, some (.symbol kind text)⟩

variable {a : Automaton} {s : State × Automaton} {l : Lexer} {ts : Array Token} {text : String} {kind : Kind}

theorem isKeywordPrefix_iff : isKeywordPrefix text = true ↔ ∃ entry ∈ keywordTable, text.toList <+: entry.1.toList := by
  simp [isKeywordPrefix]

/-- A word that begins no keyword begins none however it goes on. -/
theorem isKeywordPrefix_push (h : isKeywordPrefix text = false) (c : Char) : isKeywordPrefix (text.push c) = false := by
  rw [← Bool.not_eq_true, isKeywordPrefix_iff] at h ⊢
  rintro ⟨entry, hmem, hp⟩
  refine h ⟨entry, hmem, List.IsPrefix.trans ?_ hp⟩
  rw [String.toList_push]
  exact List.prefix_append _ _

theorem ofWord_of_not_prefix (h : isKeywordPrefix text = false) : ofWord text = ⟨.identifier, text⟩ := by
  have hnone : keyword? text = none := by
    rw [keyword?, Option.map_eq_none_iff, List.find?_eq_none]
    intro entry hmem he
    rw [← Bool.not_eq_true, isKeywordPrefix_iff] at h
    obtain rfl : entry.1 = text := of_decide_eq_true he
    exact h ⟨entry, hmem, List.prefix_rfl⟩
  rw [ofWord, hnone]
  rfl

theorem closeToken_of_ne (hne : text ≠ "") (kind : Kind) (ts : Array Token) :
    closeToken ⟨kind, text, ts⟩ = ⟨.identifier, "", ts.push ⟨kind, text⟩⟩ := if_neg hne

theorem commitKeyword_eq (text : String) (ts : Array Token) :
    commitKeyword ⟨.identifier, text, ts⟩ = ⟨(ofWord text).kind, text, ts⟩ := by
  rw [commitKeyword, ofWord]
  cases keyword? text <;> rfl

theorem closeToken_commitKeyword (hne : text ≠ "") (ts : Array Token) :
    (commitKeyword ⟨.identifier, text, ts⟩).closeToken = ⟨.identifier, "", ts.push (ofWord text)⟩ := by
  rw [commitKeyword_eq, closeToken_of_ne hne]
  rfl

theorem tracks_begins (c : Char) (ts : Array Token) :
    (∃ kind state, begins? c = some (kind, state) ∧
      Tracks (state, ⟨kind, String.singleton c, ts⟩) ⟨ts, Lexeme.start? c⟩) ∨
    begins? c = none ∧ Lexeme.start? c = none := by
  have hne : String.singleton c ≠ "" := by simp
  unfold begins? Lexeme.start?
  by_cases ha : c.isAlpha = true
  · refine .inl ⟨_, _, if_pos ha, ?_⟩
    rw [if_pos ha]
    split_ifs with hp
    · exact .keywordPrefix ts hne
    · exact .word ts hne (Bool.eq_false_iff.2 hp)
  · by_cases hd : c.isDigit = true
    · rw [if_neg ha, if_neg ha, if_pos hd, if_pos hd]
      exact .inl ⟨_, _, rfl, .number ts hne⟩
    · rw [if_neg ha, if_neg ha, if_neg hd, if_neg hd]
      split
      case h_1 => exact .inl ⟨_, _, rfl, .greater ts hne⟩
      case h_2 => exact .inl ⟨_, _, rfl, .less ts hne⟩
      case h_11 =>
        have hs : Kind.ofSymbol? c = none := by
          rw [Kind.ofSymbol?] <;> assumption
        rw [hs]
        exact .inr ⟨rfl, rfl⟩
      all_goals exact .inl ⟨_, _, rfl, .single ts hne rfl⟩

/-- Once the token before it is closed, a character begins the same lexeme in both. -/
theorem tracks_initToken (h : a.closeToken = ⟨.identifier, "", ts⟩) (c : Char) :
    Tracks (a.initToken c) ⟨ts, Lexeme.start? c⟩ := by
  rw [initToken, h]
  rcases tracks_begins c ts with ⟨kind, state, hb, ht⟩ | ⟨hb, hs⟩
  · rw [hb]
    exact ht
  · rw [hb, hs]
    exact .initial ts

theorem tracks_extended {m : Lexeme} {c : Char} (h : Tracks s ⟨ts, some (m.extend c)⟩) (hc : m.accepts c = true) :
    Tracks s (Lexer.step ⟨ts, some m⟩ c) := by
  rw [Lexer.step, if_pos hc]
  exact h

theorem tracks_closed {m : Lexeme} {c : Char} (h : a.closeToken = ⟨.identifier, "", ts.push m.token⟩)
    (hc : ¬ m.accepts c = true) : Tracks (a.initToken c) (Lexer.step ⟨ts, some m⟩ c) := by
  rw [Lexer.step, if_neg hc]
  exact tracks_initToken h c

theorem Tracks.step (h : Tracks s l) (c : Char) : Tracks (step s c) (l.step c) := by
  have hpush (text : String) : text.push c ≠ "" := by simp
  cases h with
  | initial ts => exact tracks_initToken rfl c
  | keywordPrefix ts hne =>
      rw [Automaton.step]
      split_ifs with hc hk
      · exact tracks_extended (.keywordPrefix ts (hpush _)) hc
      · exact tracks_extended (.word ts (hpush _) (Bool.eq_false_iff.2 hk)) hc
      · exact tracks_closed (closeToken_commitKeyword hne ts) hc
  | word ts hne hk =>
      rw [Automaton.step]
      split_ifs with hc
      · exact tracks_extended (.word ts (hpush _) (isKeywordPrefix_push hk c)) hc
      · refine tracks_closed ?_ hc
        rw [closeToken_of_ne hne, Lexeme.token, ofWord_of_not_prefix hk]
  | greater ts hne | less ts hne =>
      rw [Automaton.step]
      split_ifs with hc
      · obtain rfl := hc
        exact .single ts (hpush _) rfl
      · exact tracks_closed (closeToken_of_ne hne _ ts) (by simp [Lexeme.accepts, hc])
  | number ts hne =>
      rw [Automaton.step]
      split_ifs with hc
      · exact tracks_extended (.number ts (hpush _)) hc
      · exact tracks_closed (closeToken_of_ne hne _ ts) hc
  | single ts hne hk => exact tracks_closed (closeToken_of_ne hne _ ts) (by simp [Lexeme.accepts, hk])

theorem Tracks.run (h : Tracks s l) (cs : List Char) : Tracks (cs.foldl Automaton.step s) (l.run cs) := by
  induction cs generalizing s l with
  | nil => exact h
  | cons c cs ih => exact ih (h.step c)

theorem Tracks.finish (h : Tracks s l) : finish s = l.close := by
  cases h with
  | initial ts => rfl
  | keywordPrefix ts hne => exact congrArg tokens (closeToken_commitKeyword hne ts)
  | word ts hne hk =>
      rw [Lexer.close, Lexeme.token, ofWord_of_not_prefix hk]
      exact congrArg tokens (closeToken_of_ne hne _ ts)
  | greater ts hne | less ts hne | number ts hne | single ts hne _ => exact congrArg tokens (closeToken_of_ne hne _ ts)

end Automaton

/-- The automaton reads from every text the tokens that lexemes are closed to. -/
theorem tokenize_eq (text : String) : tokenize text = (Lexer.start.run text.toList).close :=
  ((Automaton.Tracks.initial #[]).run text.toList).finish

end IntScript
