import Calculator.Proofs.CutValue
import Calculator.Proofs.Places
import Calculator.Proofs.RankCount
import Mathlib.Data.Nat.PSub

namespace Calculator

/-- Work that can also break off: where a list has no such place, where a counter cannot hold the
number, and where calls are nested too deep. -/
abbrev Checked := ExceptT Fault Option

namespace Checked

variable {α β : Type}

def breakOff : Checked α := ExceptT.mk none

def closes? (limit : Nat) : Nat → List Lexeme → Option Bool
  | depth, [] => some (depth == 0)
  | depth, t :: ts =>
      match t.token with
      | .openParen => if depth < limit then closes? limit (depth + 1) ts else none
      | .closeParen => if depth = 0 then some false else do closes? limit (← depth.ppred) ts
      | _ => closes? limit depth ts

def interior? (limit : Nat) : List Lexeme → Option (Option (List Lexeme))
  | ⟨.openParen, _⟩ :: ts =>
      match ts.getLast? with
      | some ⟨.closeParen, _⟩ => do return if ← closes? limit 0 ts.dropLast then some ts.dropLast else none
      | _ => some none
  | _ => some none

theorem length_interior?_lt {limit : Nat} {ts us : List Lexeme} (h : interior? limit ts = some (some us)) :
    us.length < ts.length := by
  unfold interior? at h
  split at h
  · split at h
    · obtain ⟨closes, _, hc⟩ := Option.bind_eq_some_iff.1 h
      split at hc
      · cases hc
        rw [List.length_dropLast, List.length_cons]
        omega
      · cases hc
    · cases h
  · cases h

def strip (limit : Nat) (ts : List Lexeme) : Option (List Lexeme) :=
  match _h : interior? limit ts with
  | none => none
  | some none => some ts
  | some (some us) => strip limit us
termination_by ts.length
decreasing_by exact length_interior?_lt _h

def splits (limit : Nat) (ts : List Lexeme) : Option (List Site) :=
  if ∀ depth ∈ ts.scanl (fun (depth : Int) (t : Lexeme) => depth + t.token.nesting) 0, depth.natAbs ≤ limit then
    some (Calculator.splits ts)
  else
    none

def slice? (ts : List Lexeme) (start stop : Nat) : Option (List Lexeme) :=
  if start ≤ stop ∧ stop ≤ ts.length then some ((ts.take stop).drop start) else none

def spans (splits : List Site) (stop : Nat) : List (Site × Nat) := splits.zip (splits.tail.map Site.index ++ [stop])

def turn (operand : List Lexeme → Checked Value) (ts : List Lexeme) (left : Value) : Site × Nat → Checked Value
  | (s, stop) => do
      let head ← (ts[s.index]? : Option Lexeme)
      let right ← operand (← slice? ts (s.index + 1) stop)
      operate s.op left right head.offset

def stripped (limit : Nat) (operand : List Lexeme → Checked Value) : List Lexeme → Checked Value
  | [] => throw .endOfInput
  | [⟨.integer n, _⟩] => return .integer n
  | [⟨t, offset⟩] => throw (.unexpectedToken t offset)
  | ts@(t :: _ :: _) => do
      match ← (splits limit ts : Option (List Site)) with
      | [] => throw (.missingOperator t.offset)
      | s :: ss =>
          if s.index = 0 then
            throw (.leadingOperator s.op t.offset)
          else
            let first ← operand (← slice? ts 0 s.index)
            (spans (s :: ss) ts.length).foldlM (turn operand ts) first

def value (limit : Nat) : Nat → List Lexeme → Checked Value
  | 0, _ => breakOff
  | levels + 1, ts => do stripped limit (value limit levels) (← strip limit ts)

variable {limit : Nat} {ts : List Lexeme}

theorem closes?_eq {depth : Nat} (h : depth + ts.length ≤ limit) (stop : Nat) :
    closes? limit depth ts = some (closesAtEnd depth (ts ++ [⟨.closeParen, stop⟩])) := by
  induction ts generalizing depth with
  | nil => cases depth <;> rfl
  | cons t ts ih =>
      rw [List.length_cons] at h
      obtain ⟨token, offset⟩ := t
      cases token with
      | openParen =>
          have hlt : depth < limit := by omega
          exact (if_pos hlt).trans (ih (by omega))
      | closeParen =>
          cases depth with
          | zero =>
              have hne : (ts ++ [(⟨.closeParen, stop⟩ : Lexeme)]).isEmpty = false := by simp
              exact congrArg some hne.symm
          | succ depth => exact ih (by omega)
      | integer | operator | blank => exact ih (by omega)

theorem closesAtEnd_eq_false {t : Lexeme} (h : t.token ≠ .closeParen) (depth : Nat) :
    closesAtEnd depth (ts ++ [t]) = false := by
  rw [Bool.eq_false_iff]
  intro hc
  obtain ⟨stop, hs⟩ := closesAtEnd_eq_append hc
  rw [List.dropLast_concat] at hs
  obtain rfl := List.singleton_inj.1 (List.append_cancel_left hs)
  exact h rfl

theorem interior?_eq (h : ts.length ≤ limit) : interior? limit ts = some (inner? ts) := by
  obtain _ | ⟨⟨token, offset⟩, ts⟩ := ts
  · rfl
  · cases token with
    | openParen =>
        rw [List.length_cons] at h
        rcases List.eq_nil_or_concat ts with rfl | ⟨us, ⟨token, stop⟩, rfl⟩
        · rfl
        · rw [List.concat_eq_append] at h ⊢
          have hlen : 0 + us.length ≤ limit := by
            rw [List.length_append] at h
            omega
          cases token with
          | closeParen => simp [interior?, inner?, closes?_eq hlen stop]
          | integer | operator | openParen | blank =>
              simp [interior?, inner?, closesAtEnd_eq_false]
    | closeParen | integer | operator | blank => rfl

theorem strip_eq (h : ts.length ≤ limit) : strip limit ts = some (Calculator.strip ts) := by
  fun_induction Calculator.strip ts with
  | case1 ts us hi ih =>
      have hlen := length_inner?_lt hi
      rw [strip, interior?_eq h, hi]
      exact ih (by omega)
  | case2 ts hi => rw [strip, interior?_eq h, hi]

theorem natAbs_le_of_mem_scanl {depth d : Int}
    (h : d ∈ ts.scanl (fun (depth : Int) (t : Lexeme) => depth + t.token.nesting) depth) :
    d.natAbs ≤ depth.natAbs + ts.length := by
  induction ts generalizing depth with
  | nil =>
      obtain rfl := List.mem_singleton.1 h
      exact Nat.le_refl _
  | cons t ts ih =>
      rw [List.scanl_cons, List.mem_cons] at h
      rw [List.length_cons]
      rcases h with rfl | h
      · omega
      · have hstep : (depth + t.token.nesting).natAbs ≤ depth.natAbs + 1 := by
          obtain ⟨token, offset⟩ := t
          cases token <;> simp only [Token.nesting] <;> omega
        have htail := ih h
        omega

theorem splits_eq (h : ts.length ≤ limit) : splits limit ts = some (Calculator.splits ts) := by
  apply if_pos
  intro depth hd
  have hle := natAbs_le_of_mem_scanl hd
  rw [Int.natAbs_zero, Nat.zero_add] at hle
  exact Nat.le_trans hle h

theorem slice?_append (us part vs : List Lexeme) :
    slice? (us ++ part ++ vs) us.length (us.length + part.length) = some part := by
  have hlen : us.length + part.length ≤ (us ++ part ++ vs).length := by
    simp
  rw [slice?, if_pos ⟨Nat.le_add_right _ _, hlen⟩]
  simp [List.take_append]

theorem tail_append_stop (l : Link) (ls : List Link) (index : Nat) :
    (runningTotal (fun l => l.lexemes.length) index (l :: ls)).tail.map Prod.snd ++
        [index + ((l :: ls).flatMap Link.lexemes).length] =
      (runningTotal (fun l => l.lexemes.length) index (l :: ls)).map fun p => p.2 + p.1.lexemes.length := by
  induction ls generalizing l index with
  | nil => simp
  | cons m ls ih =>
      have htail := ih m (index + l.lexemes.length)
      rw [runningTotal_cons, List.tail_cons, List.map_cons, List.flatMap_cons, List.length_append, ← Nat.add_assoc,
        ← htail]
      simp

theorem spans_places (least : Rank) (c : Chain) :
    spans ((c.places 0).map (Link.siteAt least)) c.lexemes.length =
      (c.places 0).map fun p => (Link.siteAt least p, p.2 + p.1.lexemes.length) := by
  obtain ⟨first, _ | ⟨l, ls⟩⟩ := c
  · rfl
  · have hindex : Site.index ∘ Link.siteAt least = Prod.snd := rfl
    rw [spans, ← List.map_tail, List.map_map, hindex, Chain.places, Nat.zero_add, Chain.lexemes, List.length_append,
      tail_append_stop, List.zip_map']

def sure (x : Except Fault α) : Checked α := ExceptT.mk (some x)

theorem sure_bind (x : Except Fault α) (f : α → Except Fault β) :
    (sure x >>= fun a => sure (f a)) = sure (x >>= f) := by
  cases x <;> rfl

theorem foldlM_eq_sure {f : β → α → Checked β} {g : β → α → Except Fault β} {xs : List α}
    (h : ∀ x ∈ xs, ∀ b, f b x = sure (g b x)) (b : β) : xs.foldlM f b = sure (xs.foldlM g b) := by
  induction xs generalizing b with
  | nil => rfl
  | cons x xs ih =>
      rw [List.forall_mem_cons] at h
      rw [List.foldlM_cons, List.foldlM_cons, h.1 b, ← sure_bind]
      exact congrArg _ (funext fun b => ih h.2 b)

variable {operand : List Lexeme → Checked Value} {least : Rank} {c : Chain}

theorem turn_eq {p : Link × Nat} (hp : p ∈ c.places 0) (h : operand p.1.operand = sure (Calculator.value p.1.operand))
    (left : Value) :
    turn operand c.lexemes left (Link.siteAt least p, p.2 + p.1.lexemes.length) =
      sure (do operate p.1.op left (← Calculator.value p.1.operand) p.1.offset) := by
  obtain ⟨l, index⟩ := p
  obtain ⟨us, vs, hc, rfl⟩ := exists_of_mem_places hp
  have hhead : c.lexemes[us.length]? = some l.head := by
    simp [hc, Link.lexemes]
  have hoperand : slice? c.lexemes (us.length + 1) (us.length + l.lexemes.length) = some l.operand := by
    have hs := slice?_append (us ++ [l.head]) l.operand vs
    rw [hc, Link.lexemes]
    simpa [Nat.add_assoc, Nat.add_comm 1] using hs
  have hturn : turn operand c.lexemes left (Link.siteAt least (l, us.length), us.length + l.lexemes.length) =
      (do operate l.op left (← operand l.operand) l.offset) := by
    simp only [turn, Link.siteAt, hhead, hoperand]
    rfl
  rw [hturn, h]
  exact sure_bind _ _

theorem foldlM_turn (least : Rank) (h : ∀ l ∈ c.links, operand l.operand = sure (Calculator.value l.operand))
    (left : Value) :
    (spans ((c.places 0).map (Link.siteAt least)) c.lexemes.length).foldlM (turn operand c.lexemes) left =
      sure (c.links.foldlM (fun left l => do operate l.op left (← Calculator.value l.operand) l.offset) left) := by
  have hfst : (c.places 0).map Prod.fst = c.links := map_fst_runningTotal _ _ _
  have hturn : ∀ p ∈ c.places 0, ∀ left,
      turn operand c.lexemes left (Link.siteAt least p, p.2 + p.1.lexemes.length) =
        sure (do operate p.1.op left (← Calculator.value p.1.operand) p.1.offset) := by
    intro p hp left
    refine turn_eq hp (h p.1 ?_) left
    rw [← hfst]
    exact List.mem_map_of_mem hp
  rw [spans_places, List.foldlM_map, foldlM_eq_sure hturn, ← hfst, List.foldlM_map]

theorem stripped_cons_cons {t u : Lexeme} (h : (t :: u :: ts).length ≤ limit) :
    stripped limit operand (t :: u :: ts) =
      (match Calculator.splits (t :: u :: ts) with
      | [] => throw (.missingOperator t.offset)
      | s :: ss =>
          if s.index = 0 then
            throw (.leadingOperator s.op t.offset)
          else do
            let first ← operand (← slice? (t :: u :: ts) 0 s.index)
            (spans (s :: ss) (t :: u :: ts).length).foldlM (turn operand (t :: u :: ts)) first) := by
  rw [stripped, splits_eq h]
  rfl

theorem stripped_of_leastRank?_eq_none {t u : Lexeme} (hi : inner? (t :: u :: ts) = none)
    (hlen : (t :: u :: ts).length ≤ limit) (hr : leastRank? (t :: u :: ts) = none) :
    stripped limit operand (t :: u :: ts) = sure (Calculator.value (t :: u :: ts)) := by
  rw [stripped_cons_cons hlen, splits_of_leastRank?_eq_none hr, value_of_leastRank?_eq_none hi hr]
  rfl

theorem splits_eq_cons {first : List Lexeme} {l : Link} {ls : List Link} (hr : leastRank? ts = some least)
    (hc : Chain.ofLexemes ts = ⟨first, l :: ls⟩) :
    ∃ ss, Calculator.splits ts = ⟨first.length, l.op, least⟩ :: ss ∧
      ⟨first.length, l.op, least⟩ :: ss = ((Chain.ofLexemes ts).places 0).map (Link.siteAt least) := by
  rw [Chain.splits_eq_places hr, hc, Chain.places, Nat.zero_add, runningTotal_cons]
  exact ⟨_, rfl, rfl⟩

theorem stripped_of_first_eq_nil {t u : Lexeme} {l : Link} {ls : List Link} (hi : inner? (t :: u :: ts) = none)
    (hlen : (t :: u :: ts).length ≤ limit) (hr : leastRank? (t :: u :: ts) = some least)
    (hc : Chain.ofLexemes (t :: u :: ts) = ⟨[], l :: ls⟩) :
    stripped limit operand (t :: u :: ts) = sure (Calculator.value (t :: u :: ts)) := by
  obtain ⟨ss, hs, _⟩ := splits_eq_cons hr hc
  have hlex := Chain.lexemes_ofLexemes (t :: u :: ts)
  rw [hc] at hlex
  have ht : l.head = t := (List.cons.inj hlex).1
  rw [stripped_cons_cons hlen, hs, value_of_first_eq_nil hi hc (by simp), ← ht]
  rfl

theorem stripped_of_first_ne_nil {t u : Lexeme} {first : List Lexeme} {l : Link} {ls : List Link}
    (hi : inner? (t :: u :: ts) = none) (hlen : (t :: u :: ts).length ≤ limit)
    (hr : leastRank? (t :: u :: ts) = some least) (hc : Chain.ofLexemes (t :: u :: ts) = ⟨first, l :: ls⟩)
    (hne : first ≠ []) (hfirst : operand first = sure (Calculator.value first))
    (hlinks : ∀ m ∈ l :: ls, operand m.operand = sure (Calculator.value m.operand)) :
    stripped limit operand (t :: u :: ts) = sure (Calculator.value (t :: u :: ts)) := by
  obtain ⟨ss, hs, hplaces⟩ := splits_eq_cons hr hc
  have hlex := Chain.lexemes_ofLexemes (t :: u :: ts)
  have hform : form (t :: u :: ts) = .chain (Chain.ofLexemes (t :: u :: ts)) := by
    apply form_of_ofLexemes
    · rw [hc]
      exact hne
    · rw [hc]
      exact List.cons_ne_nil _ _
  rw [stripped_cons_cons hlen, hs, value_of_form hi hform]
  simp only [hplaces]
  rw [hc] at hlex ⊢
  rw [← hlex]
  have hslice : slice? (Chain.lexemes ⟨first, l :: ls⟩) 0 first.length = some first := by
    have h := slice?_append [] first ((l :: ls).flatMap Link.lexemes)
    rwa [List.nil_append, List.length_nil, Nat.zero_add] at h
  have hpos : first.length ≠ 0 := fun h => hne (List.length_eq_zero_iff.1 h)
  have hfold := foldlM_turn (c := ⟨first, l :: ls⟩) least hlinks
  rw [if_neg hpos, hslice]
  change (operand first >>= fun left => _) = _
  rw [hfirst, ← sure_bind]
  exact congrArg _ (funext hfold)

theorem stripped_single (t : Lexeme) : stripped limit operand [t] = sure (Calculator.value [t]) := by
  have hi : inner? [t] = none := by
    obtain ⟨token, offset⟩ := t
    cases token <;> rfl
  rw [Calculator.value_eq, strip_eq_self hi]
  obtain ⟨token, offset⟩ := t
  cases token <;> rfl

/-- Only the values of shorter parts that lack a rank are asked for. -/
theorem stripped_eq (hi : inner? ts = none) (hlen : ts.length ≤ limit)
    (h : ∀ us : List Lexeme, us.length < ts.length → rankCount us < rankCount ts →
      operand us = sure (Calculator.value us)) :
    stripped limit operand ts = sure (Calculator.value ts) := by
  obtain _ | ⟨t, _ | ⟨u, us⟩⟩ := ts
  · rw [Calculator.value_eq, strip_eq_self hi]
    rfl
  · exact stripped_single t
  · cases hr : leastRank? (t :: u :: us) with
    | none => exact stripped_of_leastRank?_eq_none hi hlen hr
    | some least =>
        have hlinks := Chain.links_ofLexemes_ne_nil hr
        have hfirst : operand (Chain.ofLexemes (t :: u :: us)).first =
            sure (Calculator.value (Chain.ofLexemes (t :: u :: us)).first) := by
          have hlt := Chain.length_first_lt _ hlinks
          rw [Chain.lexemes_ofLexemes] at hlt
          exact h _ hlt (Chain.rankCount_first_lt hr)
        have hoperands : ∀ m ∈ (Chain.ofLexemes (t :: u :: us)).links,
            operand m.operand = sure (Calculator.value m.operand) := by
          intro m hm
          have hlt := Chain.length_operand_lt _ hm
          rw [Chain.lexemes_ofLexemes] at hlt
          exact h _ hlt (Chain.rankCount_operand_lt hr hm)
        cases hc : Chain.ofLexemes (t :: u :: us) with
        | mk first links =>
            rw [hc] at hfirst hoperands hlinks
            obtain ⟨l, ls, rfl⟩ := List.exists_cons_of_ne_nil hlinks
            obtain rfl | hne := eq_or_ne first []
            · exact stripped_of_first_eq_nil hi hlen hr hc
            · exact stripped_of_first_ne_nil hi hlen hr hc hne hfirst hoperands

/-- One rank less in an operand makes up for the level it is worked out at. -/
theorem value_eq {levels : Nat} (hlen : ts.length ≤ limit) (hlevels : rankCount ts < levels) :
    value limit levels ts = sure (Calculator.value ts) := by
  induction levels generalizing ts with
  | zero => exact absurd hlevels (Nat.not_lt_zero _)
  | succ levels ih =>
      have hs : (Calculator.strip ts).length ≤ limit := Nat.le_trans (length_strip_le ts) hlen
      rw [← rankCount_strip] at hlevels
      rw [value, strip_eq hlen, ← value_strip]
      refine stripped_eq (inner?_strip ts) hs ?_
      intro us hshort hlt
      have hus : us.length ≤ limit := Nat.le_trans (Nat.le_of_lt hshort) hs
      exact ih hus (Nat.lt_of_lt_of_le hlt (Nat.le_of_lt_succ hlevels))

end Checked

/-- No place that is looked at lies outside its list, and the calls go no deeper than there are
ranks, with one level for a part that has none. Counters that can hold the length of the list stay
in their range. -/
theorem value_within_levels {limit : Nat} {ts : List Lexeme} (h : ts.length ≤ limit) :
    (∀ levels, 1 + rankCount ts ≤ levels → (Checked.value limit levels ts).run = some (value ts)) ∧
      ((∀ t ∈ ts, t.token ≠ .openParen ∧ t.token ≠ .closeParen) →
        (Checked.value limit 4 ts).run = some (value ts)) := by
  constructor
  · intro levels hlevels
    have hlt : rankCount ts < levels := by omega
    rw [Checked.value_eq h hlt]
    rfl
  · intro hflat
    rw [Checked.value_eq h (Nat.lt_succ_of_le (rankCount_le_three hflat))]
    rfl

/-- The lexemes of 2-3*(4-1). -/
def groupedFactor : List Lexeme :=
  [⟨.integer 2, 0⟩, ⟨.operator .sub, 1⟩, ⟨.integer 3, 2⟩, ⟨.operator .mul, 3⟩, ⟨.openParen, 4⟩, ⟨.integer 4, 5⟩,
    ⟨.operator .sub, 6⟩, ⟨.integer 1, 7⟩, ⟨.closeParen, 8⟩]

theorem value_groupedFactor_within_levels :
    (Checked.value 9 4 groupedFactor).run = some (.ok (.integer (-7))) ∧
      (Checked.value 3 4 (groupedFactor.take 3)).run = some (.ok (.integer (-1))) := by
  have hgrouped : value groupedFactor = .ok (.integer (-7)) := by decide +kernel
  have hflat : value (groupedFactor.take 3) = .ok (.integer (-1)) := by decide +kernel
  have hle : groupedFactor.length ≤ 9 := by decide
  have hle' : (groupedFactor.take 3).length ≤ 3 := by decide
  rw [← hgrouped, ← hflat]
  exact ⟨(value_within_levels hle).1 4 (by decide +kernel), (value_within_levels hle').2 (by decide)⟩

example : (Checked.value 9 3 groupedFactor).run = none := by decide +kernel

end Calculator
