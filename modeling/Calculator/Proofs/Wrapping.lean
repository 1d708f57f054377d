import Calculator.Proofs.Balance
import Calculator.Proofs.Joining
import Mathlib.Data.List.Infix

namespace Calculator

namespace Text

structure Balanced (cs : List Char) : Prop where
  count_le : ∀ ds, ds <+: cs → ds.count ')' ≤ ds.count '('
  count_eq : cs.count ')' = cs.count '('

theorem balanced_iff_inits {cs : List Char} :
    ((∀ ds ∈ cs.inits, ds.count ')' ≤ ds.count '(') ∧ cs.count ')' = cs.count '(') ↔ Balanced cs := by
  simp only [List.mem_inits]
  exact ⟨fun h => ⟨h.1, h.2⟩, fun h => ⟨h.count_le, h.count_eq⟩⟩

instance (cs : List Char) : Decidable (Balanced cs) := decidable_of_iff _ balanced_iff_inits

theorem Balanced.parens {cs : List Char} (h : Balanced cs) : Balanced ('(' :: cs ++ [')']) := by
  have heq := h.count_eq
  constructor
  · intro ds hd
    rcases List.prefix_concat_iff.1 hd with rfl | hd
    · simp only [List.cons_append, List.count_cons, List.count_append]
      simp [heq]
    · rcases List.prefix_cons_iff.1 hd with rfl | ⟨es, rfl, he⟩
      · simp
      · have hle := h.count_le es he
        simp only [List.count_cons]
        simp
        omega
  · simp only [List.cons_append, List.count_cons, List.count_append]
    simp [heq]

def excess (cs : List Char) : Int := cs.count '(' - cs.count ')'

theorem excess_append (cs ds : List Char) : excess (cs ++ ds) = excess cs + excess ds := by
  simp only [excess, List.count_append, Int.natCast_add]
  omega

theorem excess_of_not_delimiter {w : List Char} (h : ∀ c ∈ w, ¬ Delimiter c) : excess w = 0 := by
  have hopen : w.count '(' = 0 := List.count_eq_zero.2 fun hm => h _ hm (by decide)
  have hclose : w.count ')' = 0 := List.count_eq_zero.2 fun hm => h _ hm (by decide)
  rw [excess, hopen, hclose]
  rfl

theorem excess_of_isBlank {c : Char} (h : isBlank c = true) : excess [c] = 0 := by
  have hopen : c ≠ '(' := by
    rintro rfl
    revert h
    decide
  have hclose : c ≠ ')' := by
    rintro rfl
    revert h
    decide
  simp [excess, hopen, hclose]

theorem excess_of_mem_symbolTable {c : Char} {t : Token} (h : (c, t) ∈ symbolTable) : excess [c] = t.nesting := by
  have hall : ∀ s ∈ symbolTable, excess [s.1] = s.2.nesting := by decide
  exact hall (c, t) h

end Text

/-- The text goes through all the depths that the lexemes go through. -/
structure Follows (cs : List Char) (ts : List Lexeme) : Prop where
  excess_eq : Text.excess cs = depthAfter 0 ts
  exists_prefix : ∀ us, us <+: ts → ∃ ds, ds <+: cs ∧ Text.excess ds = depthAfter 0 us

namespace Follows

variable {cs ds : List Char} {ts : List Lexeme}

theorem nil : Follows [] [] := by
  refine ⟨rfl, ?_⟩
  intro us hu
  exact ⟨[], List.prefix_refl _, by rw [List.prefix_nil.1 hu]; rfl⟩

theorem skip (h : Follows cs ts) (hd : Text.excess ds = 0) : Follows (ds ++ cs) ts := by
  constructor
  · rw [Text.excess_append, hd, Int.zero_add]
    exact h.excess_eq
  · intro us hu
    obtain ⟨es, hes, he⟩ := h.exists_prefix us hu
    refine ⟨ds ++ es, (List.prefix_append_right_inj ds).2 hes, ?_⟩
    rw [Text.excess_append, hd, Int.zero_add]
    exact he

theorem read (h : Follows cs ts) {t : Lexeme} (hd : Text.excess ds = t.token.nesting) : Follows (ds ++ cs) (t :: ts) := by
  constructor
  · rw [Text.excess_append, hd, h.excess_eq, depthAfter_cons, depthAfter_eq_add (0 + _), Int.zero_add]
  · intro us hu
    rcases List.prefix_cons_iff.1 hu with rfl | ⟨vs, rfl, hv⟩
    · exact ⟨[], List.nil_prefix, rfl⟩
    · obtain ⟨es, hes, he⟩ := h.exists_prefix vs hv
      refine ⟨ds ++ es, (List.prefix_append_right_inj ds).2 hes, ?_⟩
      rw [Text.excess_append, hd, he, depthAfter_cons, depthAfter_eq_add (0 + _), Int.zero_add]

end Follows

theorem Segmented.follows {cs : List Char} {ps : List Piece} (h : Segmented cs ps) {offset : Nat} {ts : List Lexeme}
    (hs : Spells offset ps ts) : Follows cs ts := by
  induction h generalizing offset ts with
  | nil =>
      cases hs
      exact .nil
  | blank c hc h ih =>
      cases hs with
      | blank _ hs => exact (ih hs).skip (Text.excess_of_isBlank hc)
  | symbol c t ht h ih =>
      cases hs with
      | symbol _ hs => exact (ih hs).read (Text.excess_of_mem_symbolTable ht)
  | word w hne hw hnext h ih =>
      cases hs with
      | word _ n hv hn hs => exact (ih hs).read (Text.excess_of_not_delimiter hw)

theorem Text.Balanced.of_spells {cs : List Char} (h : Text.Balanced cs) {offset : Nat} {ts : List Lexeme}
    (hs : Spells offset (pieces cs) ts) : Calculator.Balanced ts := by
  obtain ⟨heq, hprefix⟩ := (segmented_pieces cs).follows hs
  constructor
  · intro us hu
    obtain ⟨ds, hd, he⟩ := hprefix us hu
    have hle := h.count_le ds hd
    rw [← he, Text.excess]
    omega
  · have hcount := h.count_eq
    rw [← heq, Text.excess]
    omega

theorem lexemes_parens (source : String) :
    lexemes ("(" ++ source ++ ")") =
      (relocateReading (1 + ·) (lexemes source)).map fun ts =>
        ⟨.openParen, 0⟩ :: ts ++ [⟨.closeParen, 1 + source.utf8ByteSize⟩] := by
  have hopen : lexemes "(" = .ok [⟨.openParen, 0⟩] := by decide +kernel
  have hclose : lexemes ")" = .ok [⟨.closeParen, 0⟩] := by decide +kernel
  have hleft : Apart "(".toList source.toList := .inr (.inr (.inl ⟨'(', rfl, by decide⟩))
  have hright : Apart ("(" ++ source).toList ")".toList := .inr (.inr (.inr ⟨')', rfl, by decide⟩))
  have hsize : "(".utf8ByteSize = 1 := by decide
  rw [lexemes_append hright, lexemes_append hleft, hopen, hclose, String.utf8ByteSize_append, hsize]
  cases lexemes source <;> rfl

theorem Failure.relocate_relocate (f g : Nat → Nat) (e : Failure) :
    (e.relocate g).relocate f = e.relocate fun offset => f (g offset) := by
  cases e with
  | literal e => rfl
  | fault e => cases e <;> rfl

theorem Failure.relocate_id (e : Failure) : e.relocate (fun offset => offset) = e := by
  cases e with
  | literal e => rfl
  | fault e => cases e <;> rfl

theorem evaluate_parens {source : String} (h : Text.Balanced source.toList) :
    evaluate ("(" ++ source ++ ")") = (evaluate source).mapError (Failure.relocate (1 + ·)) := by
  rw [evaluate_eq, evaluate_eq, lexemes_parens]
  cases hs : lexemes source with
  | error e => rfl
  | ok ts =>
      have hb : Balanced (ts.map (Lexeme.relocate (1 + ·))) := h.of_spells ((lexemes_eq_ok_iff.1 hs).add 1)
      simp only [relocateReading, Except.map, hb.value_group, value_map_relocate]
      cases value ts <;> rfl

def wrapped (k : Nat) (source : String) : String :=
  String.ofList (List.replicate k '(') ++ source ++ String.ofList (List.replicate k ')')

theorem wrapped_zero (source : String) : wrapped 0 source = source := by
  simp [wrapped]

theorem wrapped_succ (k : Nat) (source : String) : wrapped (k + 1) source = "(" ++ wrapped k source ++ ")" := by
  have hclose : List.replicate (k + 1) ')' = List.replicate k ')' ++ [')'] := List.replicate_succ'
  apply String.toList_injective
  simp [wrapped, hclose, List.replicate_succ]

theorem Text.Balanced.wrapped {source : String} (h : Text.Balanced source.toList) (k : Nat) :
    Text.Balanced (wrapped k source).toList := by
  induction k with
  | zero => rwa [wrapped_zero]
  | succ k ih =>
      rw [wrapped_succ, String.toList_append, String.toList_append]
      exact ih.parens

/-- Parentheses around a source change nothing but where it begins. -/
theorem evaluate_wrapped {source : String} (h : Text.Balanced source.toList) (k : Nat) :
    evaluate (wrapped k source) = (evaluate source).mapError (Failure.relocate (k + ·)) := by
  induction k with
  | zero =>
      rw [wrapped_zero]
      cases evaluate source with
      | ok v => rfl
      | error e => simp [Except.mapError, Failure.relocate_id]
  | succ k ih =>
      have hshift : (fun offset => 1 + (k + offset)) = (k + 1 + ·) := by
        funext offset
        omega
      rw [wrapped_succ, evaluate_parens (h.wrapped k), ih]
      cases evaluate source with
      | ok v => rfl
      | error e => simp [Except.mapError, Failure.relocate_relocate, hshift]

theorem evaluate_wrapped_twice :
    Text.Balanced "(1)+(2/0)".toList ∧ evaluate "(1)+(2/0)" = .error (.fault (.divisionByZero 6)) ∧
      evaluate "(((1)+(2/0)))" = .error (.fault (.divisionByZero 8)) := by
  have hb : Text.Balanced "(1)+(2/0)".toList := by decide
  have hbare : evaluate "(1)+(2/0)" = .error (.fault (.divisionByZero 6)) := by decide +kernel
  have h := evaluate_wrapped hb 2
  rw [show wrapped 2 "(1)+(2/0)" = "(((1)+(2/0)))" by decide, hbare] at h
  exact ⟨hb, hbare, h⟩

end Calculator
