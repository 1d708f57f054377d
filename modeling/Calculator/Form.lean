import Calculator.Chain
import Calculator.Failure
import Calculator.Group

namespace Calculator

/-- What lexemes amount to when no parentheses enclose them all. -/
inductive Form where
  | number (n : Int64)
  | chain (c : Chain)
  | malformed (f : Fault)
  deriving DecidableEq

def Form.ofChain (start : Nat) : Chain → Form
  | ⟨_, []⟩ => malformed (.missingOperator start)
  | ⟨[], l :: _⟩ => malformed (.leadingOperator l.op l.offset)
  | c => chain c

def form : List Lexeme → Form
  | [] => .malformed .endOfInput
  | [⟨.integer n, _⟩] => .number n
  | [⟨t, offset⟩] => .malformed (.unexpectedToken t offset)
  | t :: ts => .ofChain t.offset (.ofLexemes (t :: ts))

theorem Form.ofChain_eq_chain_iff {start : Nat} {c d : Chain} :
    ofChain start c = chain d ↔ c = d ∧ c.first ≠ [] ∧ c.links ≠ [] := by
  obtain ⟨first, links⟩ := c
  cases links with
  | nil => simp [ofChain]
  | cons l ls =>
      cases first with
      | nil => simp [ofChain]
      | cons t ts => simp [ofChain]

theorem form_eq_chain {ts : List Lexeme} {c : Chain} (h : form ts = .chain c) :
    Chain.ofLexemes ts = c ∧ c.first ≠ [] ∧ c.links ≠ [] := by
  unfold form at h
  split at h
  case h_1 | h_2 | h_3 => cases h
  case h_4 =>
    obtain ⟨rfl, hf, hl⟩ := Form.ofChain_eq_chain_iff.1 h
    exact ⟨rfl, hf, hl⟩

theorem lexemes_of_form_eq_chain {ts : List Lexeme} {c : Chain} (h : form ts = .chain c) : c.lexemes = ts := by
  rw [← (form_eq_chain h).1, Chain.lexemes_ofLexemes]

theorem length_first_lt {ts : List Lexeme} {c : Chain} (h : form (strip ts) = .chain c) :
    c.first.length < ts.length := by
  have hc := Chain.length_first_lt c (form_eq_chain h).2.2
  rw [lexemes_of_form_eq_chain h] at hc
  exact Nat.lt_of_lt_of_le hc (length_strip_le ts)

theorem length_operand_lt {ts : List Lexeme} {c : Chain} {l : Link} (h : form (strip ts) = .chain c)
    (hl : l ∈ c.links) : l.operand.length < ts.length := by
  have hc := Chain.length_operand_lt c hl
  rw [lexemes_of_form_eq_chain h] at hc
  exact Nat.lt_of_lt_of_le hc (length_strip_le ts)

end Calculator
