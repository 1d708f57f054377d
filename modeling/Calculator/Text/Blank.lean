namespace Calculator.Text

/-- Whether a character is in one of the closed ranges of code points, which ascend. -/
def within : List (Nat × Nat) → Char → Bool
  | [], _ => false
  | (first, last) :: ranges, c =>
      if c.toNat ≤ last then decide (first ≤ c.toNat) else within ranges c

def ascending : Nat → List (Nat × Nat) → Bool
  | _, [] => true
  | low, (first, last) :: ranges => low ≤ first && first ≤ last && ascending (last + 1) ranges

theorem le_of_ascending {low : Nat} {ranges : List (Nat × Nat)} (h : ascending low ranges) {r : Nat × Nat}
    (hr : r ∈ ranges) : low ≤ r.1 := by
  induction ranges generalizing low with
  | nil => cases hr
  | cons head ranges ih =>
      simp only [ascending, Bool.and_eq_true, decide_eq_true_eq] at h
      rcases List.mem_cons.1 hr with rfl | hr
      · exact h.1.1
      · have := ih h.2 hr
        omega

theorem within_iff {low : Nat} {ranges : List (Nat × Nat)} (h : ascending low ranges) {c : Char} :
    within ranges c ↔ ∃ r ∈ ranges, r.1 ≤ c.toNat ∧ c.toNat ≤ r.2 := by
  induction ranges generalizing low with
  | nil => simp [within]
  | cons head ranges ih =>
      simp only [ascending, Bool.and_eq_true, decide_eq_true_eq] at h
      simp only [within, List.mem_cons, exists_eq_or_imp]
      split
      next hc =>
        refine ⟨fun h => .inl ⟨of_decide_eq_true h, hc⟩, ?_⟩
        rintro (⟨h, _⟩ | ⟨r, hr, h'⟩)
        · exact decide_eq_true h
        · have := le_of_ascending h.2 hr
          omega
      next hc =>
        rw [ih h.2]
        exact ⟨.inr, fun h => h.resolve_left fun h => hc h.2⟩

/-- The code points that have the Unicode property `White_Space`, as closed ranges. -/
def blankRanges : List (Nat × Nat) :=
  [(0x9, 0xd), (0x20, 0x20), (0x85, 0x85), (0xa0, 0xa0), (0x1680, 0x1680), (0x2000, 0x200a),
    (0x2028, 0x2029), (0x202f, 0x202f), (0x205f, 0x205f), (0x3000, 0x3000)]

theorem ascending_blankRanges : ascending 0 blankRanges := by decide

def isBlank (c : Char) : Bool := within blankRanges c

end Calculator.Text
