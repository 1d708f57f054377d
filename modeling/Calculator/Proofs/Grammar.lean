import Calculator.Expression
import Calculator.Proofs.Agreement
import Calculator.Proofs.Operation

namespace Calculator

namespace Expression

@[simp] theorem depthAfter_lexemes (depth : Int) (e : Expression) : depthAfter depth e.lexemes = depth := by
  induction e generalizing depth with
  | number => exact Int.add_zero depth
  | group start e stop ih =>
      rw [lexemes, List.cons_append, depthAfter_cons, depthAfter_append, ih]
      exact Int.add_neg_cancel_right depth 1
  | binary op offset left right ihl ihr =>
      rw [lexemes, depthAfter_append, ihl, depthAfter_cons, ihr]
      exact Int.add_zero depth

theorem closesAtEnd_lexemes_append (e : Expression) (depth : Nat) (ts : List Lexeme) :
    closesAtEnd depth (e.lexemes ++ ts) = closesAtEnd depth ts := by
  induction e generalizing depth ts with
  | number => rfl
  | group start e stop ih =>
      rw [lexemes, List.cons_append, List.cons_append, List.append_assoc]
      exact ih (depth + 1) _
  | binary op offset left right ihl ihr =>
      rw [lexemes, List.append_assoc, ihl]
      exact ihr depth ts

theorem inner?_group (start stop : Nat) (e : Expression) : inner? (group start e stop).lexemes = some e.lexemes := by
  have hc : closesAtEnd 0 (e.lexemes ++ [⟨.closeParen, stop⟩]) = true := e.closesAtEnd_lexemes_append 0 _
  simp [lexemes, inner?, hc]

theorem le_of_mem_ranks {e : Expression} (h : e.WellFormed) {depth : Int} {r : Rank}
    (hr : r ∈ ranks depth e.lexemes) : ⟨depth, e.level⟩ ≤ r := by
  induction e generalizing depth with
  | number => cases hr
  | group start e stop ih =>
      rw [lexemes, List.cons_append, mem_ranks_cons, ranks_append, List.mem_append] at hr
      rcases hr with hr | hr | hr
      · cases hr
      · have hd : depth + 1 ≤ r.depth := by
          have he := Rank.le_def.1 (ih h hr)
          simp only [Token.nesting] at he
          omega
        exact .inl (Int.lt_of_add_one_le hd)
      · cases hr
  | binary op offset left right ihl ihr =>
      obtain ⟨hwl, hwr, hpl, hpr⟩ := h
      rw [lexemes, ranks_append, ranks_operator, List.mem_append, List.mem_cons, depthAfter_lexemes] at hr
      rcases hr with hr | rfl | hr
      · have he : depth < r.depth ∨ depth = r.depth ∧ left.level ≤ r.precedence := ihl hwl hr
        change depth < r.depth ∨ depth = r.depth ∧ op.precedence ≤ r.precedence
        omega
      · exact Std.le_refl _
      · have he : depth < r.depth ∨ depth = r.depth ∧ right.level ≤ r.precedence := ihr hwr hr
        change depth < r.depth ∨ depth = r.depth ∧ op.precedence ≤ r.precedence
        omega

def cut (op : Operator) (offset : Nat) (left right : Expression) : Cut := ⟨left.lexemes, op, offset, right.lexemes⟩

theorem lexemes_cut (op : Operator) (offset : Nat) (left right : Expression) :
    (cut op offset left right).lexemes = (binary op offset left right).lexemes := rfl

theorem rank_cut (op : Operator) (offset : Nat) (left right : Expression) :
    (cut op offset left right).rank = ⟨0, op.precedence⟩ := by
  rw [Cut.rank, cut, depthAfter_lexemes]
  rfl

theorem lastWeakest_cut {op : Operator} {offset : Nat} {left right : Expression}
    (h : (binary op offset left right).WellFormed) : (cut op offset left right).LastWeakest := by
  obtain ⟨hwl, hwr, hpl, hpr⟩ := h
  constructor
  · intro r hr
    have he := Rank.le_def.1 (le_of_mem_ranks hwl hr)
    rw [rank_cut, Rank.le_def]
    simp only at he ⊢
    omega
  · intro r hr hle
    rw [cut, depthAfter_lexemes] at hr
    have he := Rank.le_def.1 (le_of_mem_ranks hwr hr)
    rw [rank_cut, Rank.le_def] at hle
    simp only at he hle
    omega

theorem inner?_binary (op : Operator) (offset : Nat) (left right : Expression) :
    inner? (binary op offset left right).lexemes = none := by
  cases h : inner? (binary op offset left right).lexemes with
  | none => rfl
  | some us =>
      have hr := (enclosed_of_inner? h).rank_pos _ ((cut op offset left right).rankAt_mem 0)
      change 0 < (cut op offset left right).rank.depth at hr
      rw [rank_cut] at hr
      exact absurd hr (Int.lt_irrefl 0)

theorem head?_lexemes_ne (e : Expression) (op : Operator) (offset : Nat) :
    e.lexemes.head? ≠ some ⟨.operator op, offset⟩ := by
  induction e with
  | number | group => simp [lexemes]
  | binary op offset left right ihl ihr =>
      rw [lexemes, List.head?_append]
      cases hl : left.lexemes.head? with
      | none => exact absurd (List.head?_eq_none_iff.1 hl) left.lexemes_ne_nil
      | some t => rwa [hl] at ihl

theorem first_ofLexemes_ne_nil (e : Expression) (hl : (Chain.ofLexemes e.lexemes).links ≠ []) :
    (Chain.ofLexemes e.lexemes).first ≠ [] := by
  intro hf
  have he := Chain.lexemes_ofLexemes e.lexemes
  obtain ⟨l, ls, hls⟩ := List.exists_cons_of_ne_nil hl
  rw [Chain.lexemes, hf, hls] at he
  exact e.head?_lexemes_ne l.op l.offset (congrArg List.head? he).symm

/-- Cutting the lexemes takes the steps that the tree takes, in its order. -/
theorem sameSteps_lexemes {e : Expression} (h : e.WellFormed) :
    Logged.SameSteps (Calculator.compute e.lexemes) e.compute := by
  induction e with
  | number n offset =>
      rw [compute_eq, strip_eq_self rfl]
      exact .of_appends (Logged.appends_pure _)
  | group start e stop ih =>
      rw [compute_of_inner? (inner?_group start stop e)]
      exact ih h
  | binary op offset left right ihl ihr =>
      have hw := lastWeakest_cut h
      have hf := (binary op offset left right).first_ofLexemes_ne_nil hw.links_ne_nil
      rw [← lexemes_cut]
      refine (hw.sameSteps (inner?_binary op offset left right) hf).trans ?_
      exact (ihl h.1).bind fun l => (ihr h.2.1).bind fun r => .of_appends (appends_step op l r offset)

theorem value_lexemes {e : Expression} (h : e.WellFormed) : Calculator.value e.lexemes = e.value :=
  (sameSteps_lexemes h).outcome_eq.trans e.outcome_compute

theorem level_mem_ranks (e : Expression) (depth : Int) : e.level = 4 ∨ ⟨depth, e.level⟩ ∈ ranks depth e.lexemes := by
  cases e with
  | number | group => exact .inl rfl
  | binary op offset left right =>
      have hm := (cut op offset left right).rankAt_mem depth
      change op.rankAt (depthAfter depth left.lexemes) ∈ _ at hm
      rw [depthAfter_lexemes] at hm
      exact .inr hm

theorem wellFormed_binary {op : Operator} {offset : Nat} {left right : Expression} (hwl : left.WellFormed)
    (hwr : right.WellFormed) (h : (cut op offset left right).LastWeakest) :
    (binary op offset left right).WellFormed := by
  have hop := op.precedence_le_three
  refine ⟨hwl, hwr, ?_, ?_⟩
  · rcases left.level_mem_ranks 0 with hl | hl
    · omega
    · have hle := h.le_of_left _ hl
      rw [rank_cut, Rank.mk_le_mk_iff] at hle
      exact hle
  · rcases right.level_mem_ranks 0 with hr | hr
    · omega
    · have hd : depthAfter 0 (cut op offset left right).left = 0 := depthAfter_lexemes 0 left
      rw [← hd] at hr
      have hle := h.not_le_of_right _ hr
      rw [hd, rank_cut, Rank.mk_le_mk_iff] at hle
      exact Nat.lt_of_not_le hle

structure Reads (e : Expression) (ts : List Lexeme) (v : Value) : Prop where
  wellFormed : e.WellFormed
  lexemes_eq : e.lexemes = ts
  value_eq : e.value = .ok v

theorem exists_reads_of_strip {ts : List Lexeme} {v : Value} (h : ∃ e : Expression, e.Reads (strip ts) v) :
    ∃ e : Expression, e.Reads ts v := by
  fun_induction strip ts with
  | case1 ts us hi ih =>
      obtain ⟨e, hw, rfl, hv⟩ := ih h
      obtain ⟨start, stop, rfl⟩ := eq_of_inner? hi
      exact ⟨group start e stop, hw, rfl, hv⟩
  | case2 ts hi => exact h

theorem exists_reads_of_binaryValue {ts : List Lexeme} {v : Value} (h : binaryValue ts = .ok v) :
    ∃ e : Expression, e.Reads ts v := by
  fun_induction binaryValue ts generalizing v with
  | case1 | case3 | case4 | case5 => cases h
  | case2 ts n offset hs =>
      apply exists_reads_of_strip
      rw [hs]
      exact ⟨number n offset, trivial, rfl, h⟩
  | case6 ts t u us hs c hc hne ihl ihr =>
      have hw := lastWeakest_of_lastWeakest? hc
      apply exists_reads_of_strip
      rw [hs, ← lexemes_of_lastWeakest? hc]
      simp only [bind_eq_ok_iff] at h
      obtain ⟨l, hl, r, hr, hv⟩ := h
      obtain ⟨left, hwl, hleft, hvl⟩ := ihl hl
      obtain ⟨right, hwr, hright, hvr⟩ := ihr hr
      obtain ⟨_, op, offset, _⟩ := c
      obtain rfl : left.lexemes = _ := hleft
      obtain rfl : right.lexemes = _ := hright
      refine ⟨binary op offset left right, wellFormed_binary hwl hwr hw, rfl, ?_⟩
      rw [value, hvl, hvr]
      exact hv

theorem exists_reads {ts : List Lexeme} {v : Value} (h : Calculator.value ts = .ok v) :
    ∃ e : Expression, e.Reads ts v := by
  have ha := agrees_binaryValue ts
  rw [h] at ha
  apply exists_reads_of_binaryValue
  generalize binaryValue ts = y at ha
  cases ha
  rfl

theorem arithmetic_of_value_eq_error {e : Expression} {f : Fault} (h : e.value = .error f) :
    (∃ offset, f = .divisionByZero offset) ∨ ∃ op offset, f = .notANumber op offset := by
  induction e with
  | number => cases h
  | group start e stop ih => exact ih h
  | binary op offset left right ihl ihr =>
      rw [value] at h
      simp only [bind_eq_error_iff] at h
      rcases h with hl | ⟨_, _, hr | ⟨_, _, ho⟩⟩
      · exact ihl hl
      · exact ihr hr
      · exact (fault_of_operate ho).imp (fun h => ⟨_, h⟩) fun h => ⟨_, _, h⟩

end Expression

/-- Cutting at the weakest operators works out the same as the tree behind the lexemes,
faults included, and finds no fault in how they are put together. -/
theorem value_lexemes_of_wellFormed {e : Expression} (h : e.WellFormed) :
    value e.lexemes = e.value ∧
      ∀ f, value e.lexemes = .error f →
        (∃ offset, f = .divisionByZero offset) ∨ ∃ op offset, f = .notANumber op offset := by
  refine ⟨Expression.value_lexemes h, ?_⟩
  intro f hf
  rw [Expression.value_lexemes h] at hf
  exact Expression.arithmetic_of_value_eq_error hf

/-- The tree of 10-2^3^2-(7). -/
def chainedPowers : Expression :=
  .binary .sub 8
    (.binary .sub 2 (.number 10 0) (.binary .pow 6 (.binary .pow 4 (.number 2 3) (.number 3 5)) (.number 2 7)))
    (.group 9 (.number 7 10) 11)

theorem value_chainedPowers :
    chainedPowers.WellFormed ∧ value chainedPowers.lexemes = .ok (.integer (-61)) ∧
      ∀ f, value chainedPowers.lexemes = .error f →
        (∃ offset, f = .divisionByZero offset) ∨ ∃ op offset, f = .notANumber op offset := by
  have hw : chainedPowers.WellFormed := by decide
  obtain ⟨hv, hf⟩ := value_lexemes_of_wellFormed hw
  exact ⟨hw, hv.trans rfl, hf⟩

theorem value_eq_ok_iff_expression (ts : List Lexeme) :
    (∀ v, value ts = .ok v ↔ ∃ e : Expression, e.WellFormed ∧ e.lexemes = ts ∧ e.value = .ok v) ∧
      ((∀ e : Expression, e.WellFormed → e.lexemes ≠ ts) → ∃ f, value ts = .error f) := by
  constructor
  · intro v
    constructor
    · intro h
      obtain ⟨e, hw, he, hv⟩ := Expression.exists_reads h
      exact ⟨e, hw, he, hv⟩
    · rintro ⟨e, hw, rfl, hv⟩
      rw [Expression.value_lexemes hw, hv]
  · intro h
    cases hv : value ts with
    | error f => exact ⟨f, rfl⟩
    | ok v =>
        obtain ⟨e, hw, he, _⟩ := Expression.exists_reads hv
        exact absurd he (h e hw)

end Calculator
