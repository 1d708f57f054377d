import Calculator.Proofs.Cut
import Calculator.Proofs.SameSteps

namespace Calculator

open Logged

theorem exists_cons_cons_of_length {ts : List Lexeme} (h : 2 ≤ ts.length) : ∃ t u us, ts = t :: u :: us := by
  obtain _ | ⟨t, _ | ⟨u, us⟩⟩ := ts
  · exact absurd h (by simp)
  · exact absurd h (by simp)
  · exact ⟨t, u, us, rfl⟩

theorem form_cons_cons (t u : Lexeme) (ts : List Lexeme) :
    form (t :: u :: ts) = .ofChain t.offset (.ofLexemes (t :: u :: ts)) := by
  obtain ⟨token, offset⟩ := t
  cases token <;> rfl

theorem form_of_leastRank?_eq_none {t u : Lexeme} {us : List Lexeme} (h : leastRank? (t :: u :: us) = none) :
    form (t :: u :: us) = .malformed (.missingOperator t.offset) := by
  rw [form_cons_cons, Chain.ofLexemes_of_leastRank?_eq_none h]
  rfl

theorem form_of_first_eq_nil {ts : List Lexeme} {l : Link} {ls : List Link} (hlen : 2 ≤ ts.length)
    (h : Chain.ofLexemes ts = ⟨[], l :: ls⟩) : form ts = .malformed (.leadingOperator l.op l.offset) := by
  obtain ⟨t, u, us, rfl⟩ := exists_cons_cons_of_length hlen
  rw [form_cons_cons, h]
  rfl

theorem form_of_ofLexemes {ts : List Lexeme} (hf : (Chain.ofLexemes ts).first ≠ [])
    (hl : (Chain.ofLexemes ts).links ≠ []) : form ts = .chain (.ofLexemes ts) := by
  have hlen := Chain.length_first_lt _ hl
  rw [Chain.lexemes_ofLexemes] at hlen
  have hpos : 0 < (Chain.ofLexemes ts).first.length := List.length_pos_iff.2 hf
  obtain ⟨t, u, us, rfl⟩ := exists_cons_cons_of_length (Nat.lt_of_le_of_lt hpos hlen)
  rw [form_cons_cons, Form.ofChain_eq_chain_iff]
  exact ⟨rfl, hf, hl⟩

theorem compute_of_inner? {ts us : List Lexeme} (h : inner? ts = some us) : compute ts = compute us := by
  rw [compute_eq, compute_eq us, strip_eq_strip h]

theorem value_of_inner? {ts us : List Lexeme} (h : inner? ts = some us) : value ts = value us :=
  congrArg outcome (compute_of_inner? h)

theorem value_strip (ts : List Lexeme) : value (strip ts) = value ts := by
  rw [value_eq, value_eq, strip_eq_self (inner?_strip ts)]

theorem value_of_form {ts : List Lexeme} {c : Chain} (hi : inner? ts = none) (h : form ts = .chain c) :
    value ts = (do
      c.links.foldlM (fun left l => do operate l.op left (← value l.operand) l.offset) (← value c.first)) := by
  rw [value_eq, strip_eq_self hi, h]

theorem value_of_leastRank?_eq_none {t u : Lexeme} {ts : List Lexeme} (hi : inner? (t :: u :: ts) = none)
    (h : leastRank? (t :: u :: ts) = none) : value (t :: u :: ts) = .error (.missingOperator t.offset) := by
  rw [value_eq, strip_eq_self hi, form_of_leastRank?_eq_none h]

theorem value_of_first_eq_nil {ts : List Lexeme} {l : Link} {ls : List Link} (hi : inner? ts = none)
    (h : Chain.ofLexemes ts = ⟨[], l :: ls⟩) (hlen : 2 ≤ ts.length) :
    value ts = .error (.leadingOperator l.op l.offset) := by
  rw [value_eq, strip_eq_self hi, form_of_first_eq_nil hlen h]

def computeChain (c : Chain) : Logged Value := do
  c.links.foldlM (fun left l => do step l.op left (← compute l.operand) l.offset) (← compute c.first)

theorem appends_computeChain (c : Chain) : Appends (computeChain c) :=
  (appends_compute c.first).bind fun left => appends_links left c.links

theorem computeChain_append (c : Chain) (l : Link) :
    computeChain (c.append [l]) = (do step l.op (← computeChain c) (← compute l.operand) l.offset) := by
  simp only [computeChain, Chain.append, List.foldlM_append, List.foldlM_cons, List.foldlM_nil, bind_assoc, bind_pure]

theorem sameSteps_computeChain {ts : List Lexeme} {c : Chain} (hi : inner? ts = none) (h : form ts = .chain c) :
    SameSteps (compute ts) (computeChain c) := by
  rw [compute_eq, strip_eq_self hi, h]
  exact sameSteps_recordSplit ts (appends_computeChain c)

theorem Cut.LastWeakest.links_ne_nil {c : Cut} (h : c.LastWeakest) : (Chain.ofLexemes c.lexemes).links ≠ [] := by
  by_cases hm : c.rank ∈ ranks 0 c.left
  · rw [h.ofLexemes_of_mem hm]
    exact List.append_ne_nil_of_right_ne_nil _ (List.cons_ne_nil _ _)
  · rw [h.ofLexemes_of_not_mem hm]
    exact List.cons_ne_nil _ _

theorem Chain.links_ofLexemes_ne_nil {ts : List Lexeme} {least : Rank} (h : leastRank? ts = some least) :
    (ofLexemes ts).links ≠ [] := by
  obtain ⟨c, rfl, hw⟩ := Cut.exists_lastWeakest h
  exact hw.links_ne_nil

namespace Cut.LastWeakest

variable {c : Cut}

/-- The parentheses around such a part would be open around the last operator too. -/
theorem inner?_left (hm : c.rank ∈ ranks 0 c.left) : inner? c.left = none := by
  cases h : inner? c.left with
  | none => rfl
  | some us =>
      obtain ⟨hd, hr⟩ := enclosed_of_inner? h
      have hpos : 0 < depthAfter 0 c.left := hr c.rank hm
      rw [hd] at hpos
      exact absurd hpos (Int.lt_irrefl 0)

/-- The fold over all operands of a chain ends in the step that belongs to the last of
its operators, and what it does before is the work on all that stands to the left. Only
the records of where that is cut are not the same. -/
theorem sameSteps (h : c.LastWeakest) (hi : inner? c.lexemes = none) (hf : (Chain.ofLexemes c.lexemes).first ≠ []) :
    SameSteps (compute c.lexemes) (do
      step c.link.op (← compute c.left) (← compute c.link.operand) c.link.offset) := by
  refine (sameSteps_computeChain hi (form_of_ofLexemes hf h.links_ne_nil)).trans ?_
  have hlast : ∀ left, Appends (do step c.link.op left (← compute c.link.operand) c.link.offset) :=
    fun left => appends_link left c.link
  by_cases hm : c.rank ∈ ranks 0 c.left
  · have hc := h.ofLexemes_of_mem hm
    rw [hc] at hf ⊢
    rw [computeChain_append]
    have hl := Chain.links_ofLexemes_ne_nil (h.leastRank?_left hm)
    exact (sameSteps_computeChain (inner?_left hm) (form_of_ofLexemes hf hl)).symm.bind fun left =>
      .of_appends (hlast left)
  · rw [h.ofLexemes_of_not_mem hm, computeChain]
    simp only [List.foldlM_cons, List.foldlM_nil, bind_pure]
    exact .of_appends ((appends_compute _).bind hlast)

theorem value_eq (h : c.LastWeakest) (hi : inner? c.lexemes = none) (hf : (Chain.ofLexemes c.lexemes).first ≠ []) :
    value c.lexemes = (do
      operate c.link.op (← value c.left) (← value c.link.operand) c.link.offset) := by
  have hs := (h.sameSteps hi hf).outcome_eq
  rw [outcome_bind fun left => appends_link left c.link] at hs
  refine hs.trans (congrArg _ (funext fun left => ?_))
  rw [outcome_bind fun right => appends_step _ _ _ _]
  exact congrArg _ (funext fun right => outcome_step _ _ _ _)

end Cut.LastWeakest

end Calculator
