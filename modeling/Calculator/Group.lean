import Calculator.Token

namespace Calculator

/-- Whether the group that is open here, around `depth` more of them, is closed by
the last lexeme of all. -/
def closesAtEnd : Nat → List Lexeme → Bool
  | _, [] => false
  | depth, t :: ts =>
      match t.token, depth with
      | .openParen, depth => closesAtEnd (depth + 1) ts
      | .closeParen, 0 => ts.isEmpty
      | .closeParen, depth + 1 => closesAtEnd depth ts
      | _, depth => closesAtEnd depth ts

/-- What the first and the last lexeme enclose, if they are the two parentheses of
one group. -/
def inner? : List Lexeme → Option (List Lexeme)
  | ⟨.openParen, _⟩ :: ts => if closesAtEnd 0 ts then some ts.dropLast else none
  | _ => none

theorem length_inner?_lt {ts us : List Lexeme} (h : inner? ts = some us) : us.length < ts.length := by
  unfold inner? at h
  split at h
  case h_1 =>
    split at h
    case isTrue =>
      cases h
      simp only [List.length_dropLast, List.length_cons]
      omega
    case isFalse => cases h
  case h_2 => cases h

def strip (ts : List Lexeme) : List Lexeme :=
  match _h : inner? ts with
  | some us => strip us
  | none => ts
termination_by ts.length
decreasing_by exact length_inner?_lt _h

theorem strip_eq_self {ts : List Lexeme} (h : inner? ts = none) : strip ts = ts := by
  rw [strip]
  split
  case h_1 us hu => rw [h] at hu; cases hu
  case h_2 => rfl

theorem strip_eq_strip {ts us : List Lexeme} (h : inner? ts = some us) : strip ts = strip us := by
  rw [strip]
  split
  case h_1 vs hv => rw [h] at hv; cases hv; rfl
  case h_2 hn => rw [h] at hn; cases hn

theorem inner?_strip (ts : List Lexeme) : inner? (strip ts) = none := by
  fun_induction strip ts with
  | case1 ts us h ih => exact ih
  | case2 ts h => exact h

theorem length_strip_le (ts : List Lexeme) : (strip ts).length ≤ ts.length := by
  fun_induction strip ts with
  | case1 ts us h ih => exact Nat.le_trans ih (Nat.le_of_lt (length_inner?_lt h))
  | case2 ts h => exact Nat.le_refl _

end Calculator
