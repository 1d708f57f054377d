import Calculator.Proofs.CutValue

namespace Calculator

theorem depthAfter_eq_add (depth : Int) (ts : List Lexeme) : depthAfter depth ts = depth + depthAfter 0 ts := by
  induction ts generalizing depth with
  | nil => exact (Int.add_zero depth).symm
  | cons t ts ih =>
      rw [depthAfter_cons, depthAfter_cons, ih, ih (0 + t.token.nesting)]
      omega

theorem depthAfter_openParen (start : Nat) (ts : List Lexeme) :
    depthAfter 0 (⟨.openParen, start⟩ :: ts) = 1 + depthAfter 0 ts := depthAfter_eq_add 1 ts

def surplus (ts : List Lexeme) : Int :=
  ts.countP (fun t => t.token = .openParen) - ts.countP (fun t => t.token = .closeParen)

theorem depthAfter_eq_surplus (ts : List Lexeme) : depthAfter 0 ts = surplus ts := by
  induction ts with
  | nil => rfl
  | cons t ts ih =>
      rw [depthAfter_cons, depthAfter_eq_add, ih, surplus, surplus, List.countP_cons, List.countP_cons]
      obtain ⟨token, offset⟩ := t
      cases token <;> simp [Token.nesting] <;> omega

/-- Every closing parenthesis has an opening one before it, and in the end none is open. -/
structure Balanced (ts : List Lexeme) : Prop where
  nonneg : ∀ us, us <+: ts → 0 ≤ depthAfter 0 us
  depthAfter_eq : depthAfter 0 ts = 0

/-- Looking for the end of a group, the scan goes past all that closes no more than it opens. -/
theorem closesAtEnd_append (depth : Nat) {ts : List Lexeme} (h : ∀ us, us <+: ts → 0 ≤ depthAfter depth us)
    (rest : List Lexeme) : closesAtEnd depth (ts ++ rest) = closesAtEnd (depthAfter depth ts).toNat rest := by
  induction ts generalizing depth with
  | nil => rfl
  | cons t ts ih =>
      have htail {d : Nat} (hd : (depth : Int) + t.token.nesting = d) : ∀ us, us <+: ts → 0 ≤ depthAfter d us := by
        intro us hus
        have ht := h (t :: us) ((List.prefix_cons_inj t).2 hus)
        rwa [depthAfter_cons, hd] at ht
      obtain ⟨token, offset⟩ := t
      cases token with
      | openParen => exact ih _ (htail rfl)
      | closeParen =>
          cases depth with
          | zero =>
              have hneg : (0 : Int) ≤ -1 := h [⟨.closeParen, offset⟩] ⟨ts, rfl⟩
              omega
          | succ depth =>
              have hd : ((depth + 1 : Nat) : Int) + Token.closeParen.nesting = depth := Int.add_sub_cancel depth 1
              rw [depthAfter_cons, hd]
              exact ih _ (htail hd)
      | integer | operator | blank =>
          have hd : (depth : Int) + 0 = depth := Int.add_zero _
          change closesAtEnd depth (ts ++ rest) = closesAtEnd (depthAfter (depth + 0) ts).toNat rest
          rw [hd]
          exact ih _ (htail hd)

namespace Balanced

variable {ts us : List Lexeme}

theorem append (ht : Balanced ts) (hu : Balanced us) : Balanced (ts ++ us) := by
  constructor
  · intro vs hv
    rcases List.prefix_or_prefix_of_prefix hv (List.prefix_append ts us) with hv' | ⟨ws, rfl⟩
    · exact ht.nonneg vs hv'
    · rw [depthAfter_append, ht.depthAfter_eq]
      exact hu.nonneg ws ((List.prefix_append_right_inj ts).1 hv)
  · rw [depthAfter_append, ht.depthAfter_eq, hu.depthAfter_eq]

theorem single {t : Lexeme} (h : t.token.nesting = 0) : Balanced [t] := by
  constructor
  · intro us hu
    rcases List.prefix_cons_iff.1 hu with rfl | ⟨vs, rfl, hv⟩
    · exact Int.le_refl 0
    · rw [List.prefix_nil.1 hv, depthAfter_cons, h]
      exact Int.le_refl 0
  · rw [depthAfter_cons, h]
    rfl

theorem depthAfter_group_pos (h : Balanced ts) {start stop : Nat} (hne : us ≠ [])
    (hp : us <+: ⟨.openParen, start⟩ :: ts ++ [⟨.closeParen, stop⟩])
    (hall : us ≠ ⟨.openParen, start⟩ :: ts ++ [⟨.closeParen, stop⟩]) : 0 < depthAfter 0 us := by
  rcases List.prefix_concat_iff.1 hp with hu | hu
  · exact absurd hu hall
  · rcases List.prefix_cons_iff.1 hu with hu | ⟨vs, rfl, hv⟩
    · exact absurd hu hne
    · have hpos := h.nonneg vs hv
      rw [depthAfter_openParen]
      omega

theorem depthAfter_group (h : Balanced ts) (start stop : Nat) :
    depthAfter 0 (⟨.openParen, start⟩ :: ts ++ [⟨.closeParen, stop⟩]) = 0 := by
  rw [depthAfter_append, depthAfter_openParen, h.depthAfter_eq]
  rfl

theorem group (h : Balanced ts) (start stop : Nat) :
    Balanced (⟨.openParen, start⟩ :: ts ++ [⟨.closeParen, stop⟩]) := by
  refine ⟨?_, h.depthAfter_group start stop⟩
  intro us hu
  by_cases hall : us = ⟨.openParen, start⟩ :: ts ++ [⟨.closeParen, stop⟩]
  · have hzero : depthAfter 0 us = 0 := by rw [hall, h.depthAfter_group]
    exact Int.le_of_eq hzero.symm
  · by_cases hne : us = []
    · rw [hne]
      exact Int.le_refl 0
    · exact Int.le_of_lt (h.depthAfter_group_pos hne hu hall)

theorem inner?_group (h : Balanced ts) (start stop : Nat) :
    inner? (⟨.openParen, start⟩ :: ts ++ [⟨.closeParen, stop⟩]) = some ts := by
  have hc : closesAtEnd 0 (ts ++ [⟨.closeParen, stop⟩]) = true := by
    have ha := closesAtEnd_append 0 h.nonneg [⟨.closeParen, stop⟩]
    rwa [Int.ofNat_zero, h.depthAfter_eq] at ha
  simp [inner?, hc]

theorem value_group (h : Balanced ts) (start stop : Nat) :
    value (⟨.openParen, start⟩ :: ts ++ [⟨.closeParen, stop⟩]) = value ts :=
  value_of_inner? (h.inner?_group start stop)

end Balanced

variable {ts us : List Lexeme}

theorem nonneg_cons {depth : Nat} {t : Lexeme} (hne : ts ≠ [])
    (h : ∀ us, us <+: ts.dropLast → 0 ≤ depthAfter (depth + t.token.nesting) us) :
    ∀ us, us <+: (t :: ts).dropLast → 0 ≤ depthAfter depth us := by
  intro us hu
  rw [List.dropLast_cons_of_ne_nil hne] at hu
  rcases List.prefix_cons_iff.1 hu with rfl | ⟨vs, rfl, hv⟩
  · exact Int.natCast_nonneg depth
  · exact h vs hv

theorem ne_nil_of_closesAtEnd {depth : Nat} (h : closesAtEnd depth ts = true) : ts ≠ [] := by
  rintro rfl
  cases h

theorem nonneg_of_closesAtEnd {depth : Nat} (h : closesAtEnd depth ts = true) :
    ∀ us, us <+: ts.dropLast → 0 ≤ depthAfter depth us := by
  fun_induction closesAtEnd depth ts with
  | case1 => cases h
  | case2 t ts depth ht ih =>
      apply nonneg_cons (ne_nil_of_closesAtEnd h)
      rw [ht]
      exact ih h
  | case3 t ts ht =>
      rw [List.isEmpty_iff.1 h]
      intro us hu
      rw [List.prefix_nil.1 hu]
      exact Int.le_refl 0
  | case4 t ts depth ht ih =>
      have hd : ((depth + 1 : Nat) : Int) + Token.closeParen.nesting = depth := Int.add_sub_cancel depth 1
      apply nonneg_cons (ne_nil_of_closesAtEnd h)
      rw [ht, hd]
      exact ih h
  | case5 t ts depth ho hz hc ih =>
      have hc' : t.token ≠ .closeParen := by
        intro ht
        cases depth with
        | zero => exact hz ht rfl
        | succ depth => exact hc depth ht rfl
      apply nonneg_cons (ne_nil_of_closesAtEnd h)
      rw [Token.nesting_eq_zero ho hc', Int.add_zero]
      exact ih h

theorem balanced_of_inner? (h : inner? ts = some us) : Balanced us := by
  obtain ⟨start, rest, rfl, rfl, hc⟩ := closesAtEnd_of_inner? h
  obtain ⟨stop, hs⟩ := closesAtEnd_eq_append hc
  refine ⟨nonneg_of_closesAtEnd hc, ?_⟩
  have hd := (enclosed_of_closesAtEnd hc).depthAfter_eq
  rw [hs, depthAfter_append, depthAfter_cons, depthAfter_nil, depthAfter_eq_add, Token.nesting] at hd
  omega

theorem inner?_eq_some_iff :
    inner? ts = some us ↔ ∃ start stop, ts = ⟨.openParen, start⟩ :: us ++ [⟨.closeParen, stop⟩] ∧ Balanced us := by
  constructor
  · intro h
    obtain ⟨start, stop, ht⟩ := eq_of_inner? h
    exact ⟨start, stop, ht, balanced_of_inner? h⟩
  · rintro ⟨start, stop, rfl, hb⟩
    exact hb.inner?_group start stop

/-- The first and the last lexeme are the two parentheses of one group. -/
def IsGroup (ts : List Lexeme) : Prop :=
  ∃ start us stop, ts = ⟨.openParen, start⟩ :: us ++ [⟨.closeParen, stop⟩] ∧ Balanced us

theorem inner?_eq_none_iff : inner? ts = none ↔ ¬ IsGroup ts := by
  rw [Option.eq_none_iff_forall_ne_some]
  constructor
  · rintro h ⟨start, us, stop, hts⟩
    exact h us (inner?_eq_some_iff.2 ⟨start, stop, hts⟩)
  · intro h us hu
    obtain ⟨start, stop, hts⟩ := inner?_eq_some_iff.1 hu
    exact h ⟨start, us, stop, hts⟩

end Calculator
