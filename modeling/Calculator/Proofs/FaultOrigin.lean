import Calculator.Proofs.CutValue
import Calculator.Proofs.Operation

namespace Calculator

/-- What a fault says about the lexemes it is found in. -/
def Fault.PointsInto (ts : List Lexeme) : Fault → Prop
  | endOfInput => True
  | unexpectedToken t offset => ⟨t, offset⟩ ∈ ts ∧ ∀ n, t ≠ .integer n
  | missingOperator offset => ∃ t ∈ ts, t.offset = offset
  | leadingOperator op offset | notANumber op offset => ⟨.operator op, offset⟩ ∈ ts
  | divisionByZero offset => ⟨.operator .div, offset⟩ ∈ ts

theorem Fault.PointsInto.of_subset {f : Fault} {ts us : List Lexeme} (h : f.PointsInto ts) (hs : ts ⊆ us) :
    f.PointsInto us := by
  cases f with
  | endOfInput => trivial
  | unexpectedToken t offset => exact ⟨hs h.1, h.2⟩
  | missingOperator offset =>
      obtain ⟨t, ht, ho⟩ := h
      exact ⟨t, hs ht, ho⟩
  | leadingOperator | notANumber | divisionByZero => exact hs h

theorem strip_subset (ts : List Lexeme) : strip ts ⊆ ts := by
  fun_induction strip ts with
  | case1 ts us h ih =>
      obtain ⟨start, stop, rfl⟩ := eq_of_inner? h
      intro t ht
      simp [ih ht]
  | case2 ts h => exact fun _ => id

namespace Chain

variable {c : Chain} {l : Link}

theorem first_subset (c : Chain) : c.first ⊆ c.lexemes := List.subset_append_left _ _

theorem lexemes_subset_of_mem (h : l ∈ c.links) : l.lexemes ⊆ c.lexemes := by
  intro t ht
  exact List.mem_append_right _ (List.mem_flatMap.2 ⟨l, h, ht⟩)

theorem head_mem (h : l ∈ c.links) : l.head ∈ c.lexemes := lexemes_subset_of_mem h (List.mem_cons_self ..)

theorem operand_subset (h : l ∈ c.links) : l.operand ⊆ c.lexemes :=
  fun _ ht => lexemes_subset_of_mem h (List.mem_cons_of_mem _ ht)

end Chain

theorem pointsInto_of_form {ts : List Lexeme} {f : Fault} (h : form ts = .malformed f) : f.PointsInto ts := by
  obtain _ | ⟨t, _ | ⟨u, us⟩⟩ := ts
  · cases h
    trivial
  · obtain ⟨token, offset⟩ := t
    cases token with
    | integer n => cases h
    | operator | openParen | closeParen | blank =>
        cases h
        exact ⟨List.mem_singleton_self _, by simp⟩
  · rw [form_cons_cons] at h
    have hlex := Chain.lexemes_ofLexemes (t :: u :: us)
    generalize Chain.ofLexemes (t :: u :: us) = c at h hlex
    obtain ⟨first, _ | ⟨l, ls⟩⟩ := c
    · cases h
      exact ⟨t, List.mem_cons_self .., rfl⟩
    · cases first with
      | nil =>
          cases h
          rw [← hlex]
          exact Chain.head_mem (List.mem_cons_self ..)
      | cons => cases h

theorem pointsInto_of_operate {op : Operator} {left right : Value} {offset : Nat} {f : Fault} {ts : List Lexeme}
    (h : operate op left right offset = .error f) (hm : ⟨.operator op, offset⟩ ∈ ts) : f.PointsInto ts := by
  rcases fault_of_operate h with rfl | rfl
  · rw [eq_div_of_operate h] at hm
    exact hm
  · exact hm

theorem pointsInto_of_value {ts : List Lexeme} {f : Fault} (h : value ts = .error f) : f.PointsInto ts := by
  rw [value_eq] at h
  cases hc : form (strip ts) with
  | number n =>
      rw [hc] at h
      cases h
  | malformed e =>
      rw [hc] at h
      cases h
      exact (pointsInto_of_form hc).of_subset (strip_subset ts)
  | chain c =>
      rw [hc] at h
      have hsub : c.lexemes ⊆ ts := by
        rw [lexemes_of_form_eq_chain hc]
        exact strip_subset ts
      rcases bind_eq_error_iff.1 h with h | ⟨left, _, h⟩
      · exact (pointsInto_of_value h).of_subset (List.Subset.trans c.first_subset hsub)
      · obtain ⟨l, hl, h | ⟨left, right, h⟩⟩ := links_eq_error h
        · exact (pointsInto_of_value h).of_subset (List.Subset.trans (Chain.operand_subset hl) hsub)
        · exact pointsInto_of_operate h (hsub (Chain.head_mem hl))
termination_by ts.length
decreasing_by
  · exact length_first_lt hc
  · exact length_operand_lt hc hl

end Calculator
