import Calculator.Proofs.Balance
import Calculator.Proofs.Derivation
import Mathlib.Control.Monad.Basic

namespace Calculator

open Logged

variable {ts : List Lexeme} {t : Lexeme} {c : Cut} {rs : List Record} {x : Except Fault Value}

def OperatorsInside (ts : List Lexeme) : Prop :=
  ∀ before op offset after, ts = before ++ ⟨.operator op, offset⟩ :: after → 0 < surplus before

theorem operatorsInside_iff : OperatorsInside ts ↔ ∀ r ∈ ranks 0 ts, 0 < r.depth := by
  constructor
  · intro h r hr
    obtain ⟨left, link, hts, rfl, _⟩ := Cut.exists_of_mem_ranks hr
    have hpos := h left link.op link.offset link.operand hts
    rwa [← depthAfter_eq_surplus] at hpos
  · rintro h before op offset after rfl
    have hpos := h _ (Cut.rankAt_mem 0 ⟨before, op, offset, after⟩)
    rwa [← depthAfter_eq_surplus]

theorem not_isGroup_of_surplus_pos (h : 0 < surplus ts) : ¬ IsGroup ts := by
  rintro ⟨start, us, stop, rfl, hb⟩
  rw [← depthAfter_eq_surplus, hb.depthAfter_group] at h
  exact absurd h (Int.lt_irrefl 0)

theorem token_eq_of_surplus_pos (h : 0 < surplus [t]) : t.token = .openParen := by
  obtain ⟨token, offset⟩ := t
  cases token with
  | openParen => rfl
  | integer | operator | closeParen | blank => simp [surplus] at h

theorem OperatorsInside.surplus_left (h : OperatorsInside c.lexemes) : 0 < surplus c.left :=
  h c.left c.link.op c.link.offset c.link.operand rfl

theorem OperatorsInside.left (h : OperatorsInside c.lexemes) : OperatorsInside c.left := by
  intro before op offset after hl
  apply h before op offset (after ++ c.link.lexemes)
  rw [Cut.lexemes, hl, List.append_assoc, List.cons_append]

/-- Lexemes that no operator outside of groups joins, and that are neither one group nor a lone lexeme, unless that is
an opening parenthesis. -/
structure Unjoined (t : Lexeme) (ts : List Lexeme) : Prop where
  not_isGroup : ¬ IsGroup (t :: ts)
  inside : OperatorsInside (t :: ts)
  opens : ts = [] → t.token = .openParen

theorem Unjoined.left (h : Unjoined t ts) (hc : c.Parts) (ht : t :: ts = c.lexemes) :
    ∃ us, c.left = t :: us ∧ Unjoined t us := by
  obtain ⟨u, us, hl⟩ := List.exists_cons_of_ne_nil hc.left_ne_nil
  have hi : OperatorsInside c.lexemes := ht ▸ h.inside
  have hpos := hi.surplus_left
  have hleft := hi.left
  rw [Cut.lexemes, hl, List.cons_append] at ht
  obtain ⟨rfl, _⟩ := List.cons.inj ht
  rw [hl] at hpos hleft
  refine ⟨us, hl, not_isGroup_of_surplus_pos hpos, hleft, ?_⟩
  rintro rfl
  exact token_eq_of_surplus_pos hpos

structure FailsAtOnce (t : Lexeme) (rs : List Record) (x : Except Fault Value) : Prop where
  outcome_eq : x = .error (.missingOperator t.offset) ∨
    t.token = .openParen ∧ x = .error (.unexpectedToken .openParen t.offset)
  steps_eq : rs = []

theorem FailsAtOnce.not_ok {v : Value} (h : FailsAtOnce t rs (.ok v)) : False := by
  rcases h.outcome_eq with h | ⟨_, h⟩ <;> cases h

/-- The part on the left is worked out first, and it fails for the same reason. -/
theorem Derives.failsAtOnce (h : Derives (t :: ts) rs x) (hu : Unjoined t ts) : FailsAtOnce t rs x := by
  generalize hus : t :: ts = us at h
  induction h generalizing ts with
  | group hi =>
      rw [← hus, inner?_eq_none_iff.2 hu.not_isGroup] at hi
      cases hi
  | nothing => cases hus
  | number n offset =>
      cases hus
      cases hu.opens rfl
  | alone u _ =>
      cases hus
      have ht := hu.opens rfl
      rw [ht]
      exact ⟨.inr ⟨ht, rfl⟩, rfl⟩
  | adjoining =>
      cases hus
      exact ⟨.inl rfl, rfl⟩
  | @leading us l ls _ _ hc =>
      have hl := Chain.lexemes_ofLexemes us
      rw [hc, ← hus] at hl
      exact absurd (hu.inside [] l.op l.offset _ hl.symm) (Int.lt_irrefl 0)
  | left hc _ ih =>
      obtain ⟨us, hl, hleft⟩ := hu.left hc hus
      exact ih hleft hl.symm
  -- In these the part on the left has a value, which such a part never has.
  | right hc _ _ ih | fails hc _ _ _ ih | step hc _ _ _ ih =>
      obtain ⟨us, hl, hleft⟩ := hu.left hc hus
      exact (ih hleft hl.symm).not_ok.elim

/-- Where no operator joins the parts of a list, nothing inside its groups is worked out. -/
theorem failsAtOnce_of_operatorsInside (hlen : 2 ≤ ts.length) (hg : ¬ IsGroup ts) (hi : OperatorsInside ts) :
    ∃ t, ts.head? = some t ∧ FailsAtOnce t (compute ts).steps (value ts) := by
  obtain ⟨t, u, us, rfl⟩ := exists_cons_cons_of_length hlen
  have hu : Unjoined t (u :: us) := ⟨hg, hi, fun h => absurd h (List.cons_ne_nil _ _)⟩
  exact ⟨t, rfl, (derives_iff.2 ⟨rfl, rfl⟩ : Derives _ _ _).failsAtOnce hu⟩

def besideQuotient : List Lexeme :=
  [⟨.openParen, 0⟩, ⟨.integer 1, 1⟩, ⟨.operator .div, 2⟩, ⟨.integer 0, 3⟩, ⟨.closeParen, 4⟩, ⟨.integer 2, 6⟩]

theorem besideQuotient_failsAtOnce :
    2 ≤ besideQuotient.length ∧ ¬ IsGroup besideQuotient ∧ OperatorsInside besideQuotient ∧
      value besideQuotient = .error (.missingOperator 0) ∧
      ∃ t, besideQuotient.head? = some t ∧ FailsAtOnce t (compute besideQuotient).steps (value besideQuotient) := by
  have hlen : 2 ≤ besideQuotient.length := by decide
  have hg : ¬ IsGroup besideQuotient := inner?_eq_none_iff.1 (by decide)
  have hi : OperatorsInside besideQuotient := operatorsInside_iff.2 (by decide)
  exact ⟨hlen, hg, hi, by decide +kernel, failsAtOnce_of_operatorsInside hlen hg hi⟩

end Calculator
