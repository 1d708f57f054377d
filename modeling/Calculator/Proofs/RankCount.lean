import Calculator.Proofs.Cut
import Mathlib.Data.Finset.Card
import Mathlib.Data.Finset.Image

namespace Calculator

def rankCount (ts : List Lexeme) : Nat := ((sites ts).map Site.rank).toFinset.card

def Rank.deepen (k : Int) (r : Rank) : Rank := ⟨r.depth + k, r.precedence⟩

variable {ts us : List Lexeme} {least : Rank}

theorem Rank.deepen_injective (k : Int) : Function.Injective (Rank.deepen k) := by
  intro a b h
  obtain ⟨hd, hp⟩ := Rank.mk.inj h
  exact Rank.eq_of_fields (by omega) hp

theorem rankCount_eq (ts : List Lexeme) : rankCount ts = (ranks 0 ts).toFinset.card := by
  rw [rankCount, map_rank_sites]

theorem rank?_add (t : Lexeme) (depth k : Int) : rank? (t, depth + k) = (rank? (t, depth)).map (Rank.deepen k) := by
  obtain ⟨token, offset⟩ := t
  cases token <;> rfl

theorem ranks_add (depth k : Int) (ts : List Lexeme) : ranks (depth + k) ts = (ranks depth ts).map (Rank.deepen k) := by
  induction ts generalizing depth with
  | nil => rfl
  | cons t ts ih =>
      rw [ranks_cons, ranks_cons, List.map_append, rank?_add, Int.add_right_comm, ih]
      cases rank? (t, depth) <;> rfl

theorem card_ranks (depth : Int) (ts : List Lexeme) : (ranks depth ts).toFinset.card = rankCount ts := by
  have h : (ranks depth ts).toFinset = (ranks 0 ts).toFinset.image (Rank.deepen depth) := by
    rw [← Int.zero_add depth, ranks_add, Int.zero_add]
    ext r
    simp
  rw [h, Finset.card_image_of_injective _ (Rank.deepen_injective depth), rankCount_eq]

theorem rankCount_of_inner? (h : inner? ts = some us) : rankCount us = rankCount ts := by
  obtain ⟨start, stop, rfl⟩ := eq_of_inner? h
  have hr : ranks 0 (⟨.openParen, start⟩ :: us ++ [⟨.closeParen, stop⟩]) = ranks 1 us ++ [] := by
    rw [List.cons_append, ranks_cons, ranks_append]
    rfl
  rw [rankCount_eq (_ ++ _), hr, List.append_nil, card_ranks]

theorem rankCount_strip (ts : List Lexeme) : rankCount (strip ts) = rankCount ts := by
  fun_induction strip ts with
  | case1 ts us h ih => rw [ih, rankCount_of_inner? h]
  | case2 => rfl

/-- A part of lexemes whose operators have ranks that are listed, and none the rank `least`. -/
def Lacks (least : Rank) (rs : List Rank) (us : List Lexeme) : Prop :=
  ∃ depth, ranks depth us ⊆ rs ∧ least ∉ ranks depth us

theorem Lacks.mono {rs rs' : List Rank} (h : Lacks least rs us) (hs : rs ⊆ rs') : Lacks least rs' us := by
  obtain ⟨depth, hsub, hn⟩ := h
  exact ⟨depth, List.Subset.trans hsub hs, hn⟩

theorem Lacks.rankCount_lt (h : Lacks least (ranks 0 ts) us) (hm : least ∈ ranks 0 ts) : rankCount us < rankCount ts := by
  obtain ⟨depth, hsub, hn⟩ := h
  rw [← card_ranks depth us, rankCount_eq]
  apply Finset.card_lt_card
  rw [Finset.ssubset_iff_of_subset]
  · exact ⟨least, List.mem_toFinset.2 hm, fun h => hn (List.mem_toFinset.1 h)⟩
  · intro r hr
    exact List.mem_toFinset.2 (hsub (List.mem_toFinset.1 hr))

namespace Chain

/-- The first operand begins inside `depth` groups. -/
structure Parted (least : Rank) (depth : Int) (rs : List Rank) (c : Chain) : Prop where
  first_subset : ranks depth c.first ⊆ rs
  not_mem_first : least ∉ ranks depth c.first
  operand : ∀ l ∈ c.links, Lacks least rs l.operand

theorem Parted.cons {depth : Int} {c : Chain} {t : Lexeme}
    (h : Parted least (depth + t.token.nesting) (ranks (depth + t.token.nesting) ts) c) :
    Parted least depth (ranks depth (t :: ts)) (cons least (t, depth) c) := by
  have htail : ranks (depth + t.token.nesting) ts ⊆ ranks depth (t :: ts) := by
    rw [ranks_cons]
    exact List.subset_append_right _ _
  have hlinks : ∀ l ∈ c.links, Lacks least (ranks depth (t :: ts)) l.operand :=
    fun l hl => (h.operand l hl).mono htail
  by_cases hr : rank? (t, depth) = some least
  · -- The operand that has been put together so far becomes that of a link.
    have hfirst : Lacks least (ranks depth (t :: ts)) c.first :=
      ⟨_, List.Subset.trans h.first_subset htail, h.not_mem_first⟩
    obtain ⟨token, offset⟩ := t
    cases token with
    | operator op =>
        have hc : Chain.cons least (⟨.operator op, offset⟩, depth) c = ⟨[], ⟨op, offset, c.first⟩ :: c.links⟩ :=
          if_pos (Option.some.inj hr)
        rw [hc]
        refine ⟨by simp, by simp, ?_⟩
        rw [List.forall_mem_cons]
        exact ⟨hfirst, hlinks⟩
    | integer | openParen | closeParen | blank => cases hr
  · rw [cons_of_rank?_ne hr]
    refine ⟨?_, ?_, hlinks⟩
    · intro r hm
      rw [mem_ranks_cons] at hm ⊢
      exact hm.imp_right fun hm => h.first_subset hm
    · rw [mem_ranks_cons, not_or]
      exact ⟨hr, h.not_mem_first⟩

theorem parted_foldr_cons (least : Rank) (depth : Int) (ts : List Lexeme) :
    Parted least depth (ranks depth ts)
      ((runningTotal (fun t => t.token.nesting) depth ts).foldr (cons least) ⟨[], []⟩) := by
  induction ts generalizing depth with
  | nil => exact ⟨by simp, by simp, by simp⟩
  | cons t ts ih =>
      rw [runningTotal_cons, List.foldr_cons]
      exact (ih _).cons

theorem parted_ofLexemes (h : leastRank? ts = some least) : Parted least 0 (ranks 0 ts) (ofLexemes ts) := by
  rw [ofLexemes_of_leastRank? h]
  exact parted_foldr_cons least 0 ts

theorem rankCount_first_lt (h : leastRank? ts = some least) : rankCount (ofLexemes ts).first < rankCount ts := by
  have hp := parted_ofLexemes h
  have hf : Lacks least (ranks 0 ts) (ofLexemes ts).first := ⟨0, hp.first_subset, hp.not_mem_first⟩
  rw [leastRank?_eq_min?, List.min?_eq_some_iff] at h
  exact hf.rankCount_lt h.1

theorem rankCount_operand_lt (h : leastRank? ts = some least) {l : Link} (hl : l ∈ (ofLexemes ts).links) :
    rankCount l.operand < rankCount ts := by
  have ho := (parted_ofLexemes h).operand l hl
  rw [leastRank?_eq_min?, List.min?_eq_some_iff] at h
  exact ho.rankCount_lt h.1

end Chain

def flatRanks : List Rank := [⟨0, 1⟩, ⟨0, 2⟩, ⟨0, 3⟩]

theorem ranks_subset_flatRanks (h : ∀ t ∈ ts, t.token ≠ .openParen ∧ t.token ≠ .closeParen) :
    ranks 0 ts ⊆ flatRanks := by
  induction ts with
  | nil => simp
  | cons t ts ih =>
      rw [List.forall_mem_cons] at h
      obtain ⟨⟨ho, hc⟩, hts⟩ := h
      intro r hr
      rw [mem_ranks_cons, Token.nesting_eq_zero ho hc, Int.add_zero] at hr
      rcases hr with hr | hr
      · obtain ⟨token, offset⟩ := t
        cases token with
        | operator op =>
            cases hr
            cases op <;> decide
        | integer | openParen | closeParen | blank => cases hr
      · exact ih hts hr

/-- Without parentheses only the precedences tell ranks apart. -/
theorem rankCount_le_three (h : ∀ t ∈ ts, t.token ≠ .openParen ∧ t.token ≠ .closeParen) : rankCount ts ≤ 3 := by
  have hsub : (ranks 0 ts).toFinset ⊆ flatRanks.toFinset := by
    intro r hr
    exact List.mem_toFinset.2 (ranks_subset_flatRanks h (List.mem_toFinset.1 hr))
  calc rankCount ts = (ranks 0 ts).toFinset.card := rankCount_eq ts
    _ ≤ flatRanks.toFinset.card := Finset.card_le_card hsub
    _ ≤ flatRanks.length := List.toFinset_card_le flatRanks

end Calculator
