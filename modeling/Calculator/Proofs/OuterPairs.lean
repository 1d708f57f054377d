import Calculator.Proofs.Balance
import Mathlib.Data.List.Induction

namespace Calculator

variable {ts us vs : List Lexeme} {start stop k : Nat}

/-- The depth, counted from the first lexeme on, is zero after the last one and not sooner. -/
structure ReturnsAtEnd (ts : List Lexeme) : Prop where
  depthAfter_eq : depthAfter 0 ts = 0
  depthAfter_ne : ∀ us, us <+: ts → us ≠ [] → us ≠ ts → depthAfter 0 us ≠ 0

structure PairAround (us ts : List Lexeme) : Prop where
  exists_eq : ∃ start stop, ts = ⟨.openParen, start⟩ :: us ++ [⟨.closeParen, stop⟩]
  returnsAtEnd : ReturnsAtEnd ts

theorem Token.neg_one_le_nesting (t : Token) : -1 ≤ t.nesting := by
  cases t with
  | closeParen => exact Int.le_refl (-1)
  | integer | operator | openParen | blank => simp [nesting]

/-- A depth sinks by no more than one at a lexeme, so it cannot get below zero without being zero. -/
theorem ReturnsAtEnd.depthAfter_pos
    (h : ReturnsAtEnd (⟨.openParen, start⟩ :: us ++ [⟨.closeParen, stop⟩])) (hv : vs <+: us) :
    0 < depthAfter 0 (⟨.openParen, start⟩ :: vs) := by
  induction vs using List.reverseRecOn with
  | nil => exact Int.zero_lt_one
  | append_singleton vs t ih =>
      have hpos := ih ((List.prefix_append vs [t]).trans hv)
      have hnesting := t.token.neg_one_le_nesting
      have hne : depthAfter 0 (⟨.openParen, start⟩ :: (vs ++ [t])) ≠ 0 := by
        apply h.depthAfter_ne _ _ (List.cons_ne_nil _ _)
        · intro heq
          have hlen := hv.length_le
          have hall := congrArg List.length heq
          simp only [List.length_cons, List.length_append, List.length_nil] at hlen hall
          omega
        · exact (List.prefix_cons_inj _).2 (hv.trans (List.prefix_append us _))
      rw [← List.cons_append, depthAfter_append, depthAfter_cons, depthAfter_nil] at hne ⊢
      omega

theorem returnsAtEnd_group_iff :
    ReturnsAtEnd (⟨.openParen, start⟩ :: us ++ [⟨.closeParen, stop⟩]) ↔ Balanced us := by
  constructor
  · intro h
    constructor
    · intro vs hv
      have hpos := h.depthAfter_pos hv
      rw [depthAfter_openParen] at hpos
      omega
    · have hend := h.depthAfter_eq
      rw [depthAfter_append, depthAfter_openParen, depthAfter_cons, depthAfter_nil, Token.nesting] at hend
      omega
  · intro h
    exact ⟨h.depthAfter_group start stop, fun vs hp hne hall => Int.ne_of_gt (h.depthAfter_group_pos hne hp hall)⟩

theorem inner?_eq_some_iff_pairAround : inner? ts = some us ↔ PairAround us ts := by
  rw [inner?_eq_some_iff]
  constructor
  · rintro ⟨start, stop, rfl, hb⟩
    exact ⟨⟨start, stop, rfl⟩, returnsAtEnd_group_iff.2 hb⟩
  · rintro ⟨⟨start, stop, rfl⟩, h⟩
    exact ⟨start, stop, rfl, returnsAtEnd_group_iff.1 h⟩

theorem not_exists_pairAround_iff : (¬ ∃ vs, PairAround vs ts) ↔ inner? ts = none := by
  simp only [← inner?_eq_some_iff_pairAround, Option.eq_none_iff_forall_ne_some, not_exists, ne_eq]

theorem balanced_iff_surplus : Balanced ts ↔ (∀ us, us <+: ts → 0 ≤ surplus us) ∧ surplus ts = 0 := by
  simp only [← depthAfter_eq_surplus]
  exact ⟨fun h => ⟨h.nonneg, h.depthAfter_eq⟩, fun h => ⟨h.1, h.2⟩⟩

def parenthesised (offsets : List (Nat × Nat)) (ts : List Lexeme) : List Lexeme :=
  offsets.map (fun p => ⟨.openParen, p.1⟩) ++ ts ++ (offsets.map fun p => ⟨.closeParen, p.2⟩).reverse

theorem parenthesised_nil (ts : List Lexeme) : parenthesised [] ts = ts := List.append_nil ts

theorem parenthesised_cons (start stop : Nat) (offsets : List (Nat × Nat)) (ts : List Lexeme) :
    parenthesised ((start, stop) :: offsets) ts =
      ⟨.openParen, start⟩ :: parenthesised offsets ts ++ [⟨.closeParen, stop⟩] := by
  simp [parenthesised]

/-- As many closing parentheses after lexemes as opening ones before them, each layer a matching pair. -/
def LayersAround (k : Nat) (us ts : List Lexeme) : Prop :=
  ∃ offsets, offsets.length = k ∧ ts = parenthesised offsets us ∧
    ∀ layers, layers <:+ offsets → layers ≠ [] → ReturnsAtEnd (parenthesised layers us)

theorem layersAround_zero_iff : LayersAround 0 us ts ↔ us = ts := by
  constructor
  · rintro ⟨offsets, hlen, rfl, _⟩
    rw [List.length_eq_zero_iff.1 hlen, parenthesised_nil]
  · rintro rfl
    refine ⟨[], rfl, (parenthesised_nil us).symm, ?_⟩
    intro layers hl hne
    exact absurd (List.suffix_nil.1 hl) hne

theorem layersAround_succ_iff : LayersAround (k + 1) us ts ↔ ∃ vs, PairAround vs ts ∧ LayersAround k us vs := by
  constructor
  · rintro ⟨offsets, hlen, rfl, hret⟩
    obtain ⟨⟨start, stop⟩, offsets, rfl⟩ := List.exists_cons_of_length_eq_add_one hlen
    refine ⟨parenthesised offsets us, ⟨⟨start, stop, parenthesised_cons start stop offsets us⟩, ?_⟩, ?_⟩
    · exact hret _ (List.suffix_refl _) (List.cons_ne_nil _ _)
    · exact ⟨offsets, Nat.succ.inj hlen, rfl, fun layers hl => hret layers (hl.trans (List.suffix_cons _ _))⟩
  · rintro ⟨vs, ⟨⟨start, stop, hts⟩, hpair⟩, offsets, hlen, rfl, hret⟩
    rw [← parenthesised_cons] at hts
    refine ⟨(start, stop) :: offsets, congrArg Nat.succ hlen, hts, ?_⟩
    intro layers hl hne
    rcases List.suffix_cons_iff.1 hl with rfl | hl
    · rwa [← hts]
    · exact hret layers hl hne

def peel : Nat → List Lexeme → Option (List Lexeme)
  | 0, ts => some ts
  | k + 1, ts => (inner? ts).bind (peel k)

theorem peel_succ (k : Nat) (ts : List Lexeme) : peel (k + 1) ts = (peel k ts).bind inner? := by
  induction k generalizing ts with
  | zero => exact Option.bind_fun_some (inner? ts)
  | succ k ih =>
      rw [peel, peel, Option.bind_assoc]
      exact congrArg _ (funext ih)

theorem peel_eq_some_iff : peel k ts = some us ↔ LayersAround k us ts := by
  induction k generalizing ts with
  | zero => rw [layersAround_zero_iff, peel, Option.some.injEq, eq_comm]
  | succ k ih =>
      rw [layersAround_succ_iff, peel, Option.bind_eq_some_iff]
      simp only [inner?_eq_some_iff_pairAround, ih]

theorem strip_eq_of_peel (h : peel k ts = some us) : strip us = strip ts := by
  induction k generalizing ts with
  | zero => rw [Option.some.inj h]
  | succ k ih =>
      obtain ⟨vs, hi, hp⟩ := Option.bind_eq_some_iff.1 h
      rw [ih hp, strip_eq_strip hi]

theorem exists_peel_eq_strip (ts : List Lexeme) : ∃ k, peel k ts = some (strip ts) := by
  fun_induction strip ts with
  | case1 ts us hi ih =>
      obtain ⟨k, hk⟩ := ih
      exact ⟨k + 1, by rw [peel, hi, Option.bind_some, hk]⟩
  | case2 ts hi => exact ⟨0, rfl⟩

/-- The pair that is taken off is the outer one, and what is left in the end has none. -/
structure StripsOuterPairs (ts : List Lexeme) : Prop where
  inner?_iff_pair : ∀ us, inner? ts = some us ↔ PairAround us ts
  inner?_iff_counts : ∀ us, inner? ts = some us ↔
    ∃ start stop, ts = ⟨.openParen, start⟩ :: us ++ [⟨.closeParen, stop⟩] ∧
      (∀ vs, vs <+: us → 0 ≤ surplus vs) ∧ surplus us = 0
  ends : ∃ k, LayersAround k (strip ts) ts ∧ peel k ts = some (strip ts) ∧ peel (k + 1) ts = none
  strip_iff : ∀ us, strip ts = us ↔ (¬ ∃ vs, PairAround vs us) ∧ ∃ k, LayersAround k us ts

theorem stripsOuterPairs (ts : List Lexeme) : StripsOuterPairs ts := by
  obtain ⟨k, hk⟩ := exists_peel_eq_strip ts
  have hlayers : LayersAround k (strip ts) ts := peel_eq_some_iff.1 hk
  constructor
  case inner?_iff_pair =>
    intro us
    exact inner?_eq_some_iff_pairAround
  case inner?_iff_counts =>
    intro us
    simp only [inner?_eq_some_iff, balanced_iff_surplus]
  case ends =>
    refine ⟨k, hlayers, hk, ?_⟩
    rw [peel_succ, hk, Option.bind_some, inner?_strip]
  case strip_iff =>
    intro us
    rw [not_exists_pairAround_iff]
    constructor
    · rintro rfl
      exact ⟨inner?_strip ts, k, hlayers⟩
    · rintro ⟨hi, j, hj⟩
      rw [← strip_eq_of_peel (peel_eq_some_iff.2 hj), strip_eq_self hi]

/-- The parentheses at the two ends of (1)+(2) are not a pair. -/
example : inner? [⟨.openParen, 0⟩, ⟨.integer 1, 1⟩, ⟨.closeParen, 2⟩, ⟨.operator .add, 3⟩, ⟨.openParen, 4⟩,
    ⟨.integer 2, 5⟩, ⟨.closeParen, 6⟩] = none := rfl

end Calculator
