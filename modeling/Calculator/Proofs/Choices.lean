import Calculator.Proofs.Places
import Calculator.Proofs.PostOrder
import Mathlib.Data.List.Forall2

namespace Calculator

open Logged

def Lexeme.operator? (t : Lexeme) : Option Operator :=
  match t.token with
  | .operator op => some op
  | _ => none

def operatorPlaces (start : Nat) (ts : List Lexeme) : List (Operator × Nat) :=
  (ts.zipIdx start).filterMap fun (t, place) => t.operator?.map fun op => (op, place)

theorem operatorPlaces_operator (start : Nat) (op : Operator) (offset : Nat) (ts : List Lexeme) :
    operatorPlaces start (⟨.operator op, offset⟩ :: ts) = (op, start) :: operatorPlaces (start + 1) ts := rfl

theorem operatorPlaces_append (start : Nat) (ts us : List Lexeme) :
    operatorPlaces start (ts ++ us) = operatorPlaces start ts ++ operatorPlaces (start + ts.length) us := by
  rw [operatorPlaces, List.zipIdx_append, List.filterMap_append]
  rfl

theorem operatorPlaces_link (start : Nat) (l : Link) (ts : List Lexeme) :
    operatorPlaces start (l.lexemes ++ ts) =
      (l.op, start) :: (operatorPlaces (start + 1) l.operand ++ operatorPlaces (start + l.lexemes.length) ts) := by
  rw [operatorPlaces_append]
  rfl

theorem map_fst_operatorPlaces (start : Nat) (ts : List Lexeme) : (operatorPlaces start ts).map Prod.fst = operators ts := by
  induction ts generalizing start with
  | nil => rfl
  | cons t ts ih =>
      obtain ⟨token, offset⟩ := t
      cases token with
      | operator op => exact congrArg (op :: ·) (ih (start + 1))
      | integer | openParen | closeParen | blank => exact ih (start + 1)

theorem operatorPlaces_group (start open' close : Nat) (ts : List Lexeme) :
    operatorPlaces start (⟨.openParen, open'⟩ :: ts ++ [⟨.closeParen, close⟩]) = operatorPlaces (start + 1) ts := by
  rw [List.cons_append]
  change operatorPlaces (start + 1) (ts ++ [⟨.closeParen, close⟩]) = _
  rw [operatorPlaces_append]
  exact List.append_nil _

def Site.placeFrom (start : Nat) (s : Site) : Operator × Nat := (s.op, start + s.index)

def Link.place : Link × Nat → Operator × Nat
  | (l, index) => (l.op, index)

/-- The sites of a list that begins somewhere in a longer one are the places of its links there. -/
theorem map_placeFrom_splits {ts : List Lexeme} {least : Rank} (h : leastRank? ts = some least) (start : Nat) :
    (splits ts).map (Site.placeFrom start) = ((Chain.ofLexemes ts).places start).map Link.place := by
  rw [Chain.splits_eq_places h, Chain.places, Nat.zero_add, Chain.places, runningTotal_add, List.map_map, List.map_map]
  rfl

def Record.isSplit : Record → Bool
  | split .. => true
  | _ => false

namespace Logged

variable {α β : Type}

def splitRecords (x : Logged α) : List Record := x.records.toList.filter Record.isSplit

theorem splitRecords_bind {x : Logged α} {f : α → Logged β} (hf : ∀ a, Appends (f a)) {a : α} (h : x.outcome = .ok a) :
    (x >>= f).splitRecords = x.splitRecords ++ (f a).splitRecords := by
  simp only [splitRecords, records_bind hf, h, Array.toList_append, List.filter_append]

end Logged

theorem splitRecords_step (op : Operator) (left right : Value) (offset : Nat) :
    (step op left right offset).splitRecords = [] := by
  unfold step
  cases operate op left right offset <;> rfl

theorem splitRecords_recordSplit {ts : List Lexeme} (h : 2 ≤ ts.length) :
    (recordSplit ts).splitRecords = [.split ts.length (splits ts)] := by
  rw [recordSplit, if_neg (Nat.not_lt.2 h)]
  rfl

theorem splitRecords_links {ls : List Link} {left v : Value}
    (h : ls.foldlM (fun left (l : Link) => do operate l.op left (← value l.operand) l.offset) left = .ok v) :
    (ls.foldlM (fun left (l : Link) => do step l.op left (← compute l.operand) l.offset) left).splitRecords =
        ls.flatMap (fun l => (compute l.operand).splitRecords) ∧
      ∀ l ∈ ls, ∃ right, value l.operand = .ok right := by
  induction ls generalizing left with
  | nil => exact ⟨rfl, nofun⟩
  | cons l ls ih =>
      rw [List.foldlM_cons, bind_eq_ok_iff] at h
      obtain ⟨result, hl, h⟩ := h
      obtain ⟨right, hr, _⟩ := bind_eq_ok_iff.1 hl
      obtain ⟨ih, hall⟩ := ih h
      have hout : (do step l.op left (← compute l.operand) l.offset).outcome = .ok result := by
        rw [outcome_bind fun _ => appends_step _ _ _ _]
        simp only [outcome_step]
        exact hl
      refine ⟨?_, List.forall_mem_cons.2 ⟨⟨right, hr⟩, hall⟩⟩
      rw [List.foldlM_cons, splitRecords_bind (fun left => appends_links left ls) hout, ih,
        splitRecords_bind (fun _ => appends_step _ _ _ _) hr, splitRecords_step, List.append_nil, List.flatMap_cons]

theorem splitRecords_compute {ts : List Lexeme} {c : Chain} {v : Value} (hi : inner? ts = none)
    (hf : form ts = .chain c) (h : value ts = .ok v) :
    (compute ts).splitRecords =
        .split ts.length (splits ts) ::
          ((compute c.first).splitRecords ++ c.links.flatMap fun l => (compute l.operand).splitRecords) ∧
      (∃ left, value c.first = .ok left) ∧ ∀ l ∈ c.links, ∃ right, value l.operand = .ok right := by
  rw [value_of_form hi hf, bind_eq_ok_iff] at h
  obtain ⟨left, hleft, h⟩ := h
  obtain ⟨hrec, hall⟩ := splitRecords_links h
  have hlen : 2 ≤ ts.length := by
    have hlt := length_first_lt ((congrArg form (strip_eq_self hi)).trans hf)
    have hpos := List.length_pos_iff.2 (form_eq_chain hf).2.1
    omega
  refine ⟨?_, ⟨left, hleft⟩, hall⟩
  rw [compute_eq, strip_eq_self hi, hf,
    splitRecords_bind (fun _ => (appends_compute _).bind fun left => appends_links left c.links) (outcome_recordSplit ts),
    splitRecords_bind (fun left => appends_links left c.links) hleft, splitRecords_recordSplit hlen, hrec]
  rfl

/-- A record of the cuts in a slice, which are outside all its groups, and the places in the whole of the operators
that it names by their indexes in the slice. -/
inductive Record.ChoosesAt (whole : List Lexeme) : Record → List (Operator × Nat) → Prop
  | intro (before us after : List Lexeme) (precedence : Nat) (h : whole = before ++ us ++ after)
      (hl : leastRank? us = some ⟨0, precedence⟩) :
      ChoosesAt whole (.split us.length (splits us)) ((splits us).map (Site.placeFrom before.length))

/-- Wherever lexemes stand, the splits in them choose each of their operators once. -/
def Covered (ts : List Lexeme) : Prop :=
  ∀ before after, ∃ chosen, List.Forall₂ (Record.ChoosesAt (before ++ ts ++ after)) (compute ts).splitRecords chosen ∧
    chosen.flatten.Perm (operatorPlaces before.length ts)

theorem covered_links {ls : List Link} (h : ∀ l ∈ ls, Covered l.operand) (before after : List Lexeme) :
    ∃ chosen,
      List.Forall₂ (Record.ChoosesAt (before ++ ls.flatMap Link.lexemes ++ after))
        (ls.flatMap fun l => (compute l.operand).splitRecords) chosen ∧
      ((runningTotal (fun l => l.lexemes.length) before.length ls).map Link.place ++ chosen.flatten).Perm
        (operatorPlaces before.length (ls.flatMap Link.lexemes)) := by
  induction ls generalizing before with
  | nil => exact ⟨[], .nil, .nil⟩
  | cons l ls ih =>
      rw [List.forall_mem_cons] at h
      obtain ⟨first, hfirst, hpf⟩ := h.1 (before ++ [l.head]) (ls.flatMap Link.lexemes ++ after)
      obtain ⟨rest, hrest, hpr⟩ := ih h.2 (before ++ l.lexemes)
      have hwhole : before ++ (l :: ls).flatMap Link.lexemes ++ after =
          before ++ [l.head] ++ l.operand ++ (ls.flatMap Link.lexemes ++ after) := by
        simp [Link.lexemes]
      have hwhole' : before ++ (l :: ls).flatMap Link.lexemes ++ after =
          before ++ l.lexemes ++ ls.flatMap Link.lexemes ++ after := by
        simp
      refine ⟨first ++ rest, ?_, ?_⟩
      · rw [List.flatMap_cons]
        exact List.rel_append (hwhole ▸ hfirst) (hwhole' ▸ hrest)
      · rw [List.length_append] at hpf hpr
        rw [List.flatMap_cons, operatorPlaces_link, List.flatten_append, runningTotal_cons]
        exact ((List.perm_append_comm_assoc _ _ _).trans (hpf.append hpr)).cons (l.op, before.length)

theorem number_or_chain {ts : List Lexeme} {v : Value} (hi : inner? ts = none) (h : value ts = .ok v) :
    (∃ n offset, ts = [⟨.integer n, offset⟩]) ∨
      ∃ precedence, leastRank? ts = some ⟨0, precedence⟩ ∧ form ts = .chain (.ofLexemes ts) := by
  obtain ⟨e, hw, rfl, _⟩ := Expression.exists_reads h
  cases e with
  | number n offset => exact .inl ⟨n, offset, rfl⟩
  | group start e stop =>
      rw [Expression.inner?_group] at hi
      cases hi
  | binary op offset left right =>
      have hc := Expression.lastWeakest_cut hw
      have hr := hc.leastRank?_lexemes
      rw [Expression.rank_cut] at hr
      have hf := (Expression.binary op offset left right).first_ofLexemes_ne_nil hc.links_ne_nil
      exact .inr ⟨op.precedence, hr, form_of_ofLexemes hf hc.links_ne_nil⟩

theorem covered_single (n : Int64) (offset : Nat) : Covered [⟨.integer n, offset⟩] := by
  intro before after
  have hs : (compute [⟨.integer n, offset⟩]).splitRecords = [] := by
    rw [compute_eq, strip_eq_self rfl]
    rfl
  rw [hs]
  exact ⟨[], .nil, .nil⟩

theorem Covered.group {ts us : List Lexeme} (hi : inner? ts = some us) (h : Covered us) : Covered ts := by
  intro before after
  obtain ⟨start, stop, rfl⟩ := eq_of_inner? hi
  obtain ⟨chosen, hf, hp⟩ := h (before ++ [⟨.openParen, start⟩]) (⟨.closeParen, stop⟩ :: after)
  have hwhole : before ++ (⟨.openParen, start⟩ :: us ++ [⟨.closeParen, stop⟩]) ++ after =
      before ++ [⟨.openParen, start⟩] ++ us ++ ⟨.closeParen, stop⟩ :: after := by
    simp
  refine ⟨chosen, ?_, ?_⟩
  · rw [compute_of_inner? hi, hwhole]
    exact hf
  · rw [operatorPlaces_group]
    rwa [List.length_append] at hp

theorem Covered.chain {ts : List Lexeme} {c : Chain} {precedence : Nat} {v : Value} (hi : inner? ts = none)
    (hl : leastRank? ts = some ⟨0, precedence⟩) (hc : form ts = .chain c) (h : value ts = .ok v) (hfirst : Covered c.first)
    (hlinks : ∀ l ∈ c.links, Covered l.operand) : Covered ts := by
  intro before after
  have hlex : c.first ++ c.links.flatMap Link.lexemes = ts := lexemes_of_form_eq_chain hc
  obtain ⟨first, hf, hpf⟩ := hfirst before (c.links.flatMap Link.lexemes ++ after)
  obtain ⟨rest, hr, hpr⟩ := covered_links hlinks (before ++ c.first) after
  have hwhole : before ++ c.first ++ (c.links.flatMap Link.lexemes ++ after) = before ++ ts ++ after := by
    simp [← hlex]
  rw [hwhole] at hf
  rw [List.append_assoc _ _ after, hwhole] at hr
  refine ⟨(splits ts).map (Site.placeFrom before.length) :: (first ++ rest), ?_, ?_⟩
  · rw [(splitRecords_compute hi hc h).1]
    exact .cons (.intro before ts after precedence rfl hl) (List.rel_append hf hr)
  · -- The sites are the operators of the links; the others stand in the operands.
    rw [List.length_append] at hpr
    rw [List.flatten_cons, List.flatten_append, map_placeFrom_splits hl, (form_eq_chain hc).1, ← hlex,
      operatorPlaces_append]
    exact (List.perm_append_comm_assoc _ _ _).trans (hpf.append hpr)

theorem covered_of_value {ts : List Lexeme} {v : Value} (h : value ts = .ok v) : Covered ts := by
  cases hi : inner? ts with
  | some us => exact (covered_of_value ((value_of_inner? hi).symm.trans h)).group hi
  | none =>
      rcases number_or_chain hi h with ⟨n, offset, rfl⟩ | ⟨precedence, hl, hc⟩
      · exact covered_single n offset
      · obtain ⟨_, ⟨left, hleft⟩, hall⟩ := splitRecords_compute hi hc h
        refine .chain hi hl hc h (covered_of_value hleft) ?_
        intro l hlink
        obtain ⟨right, hright⟩ := hall l hlink
        exact covered_of_value hright
termination_by ts.length
decreasing_by
  · exact length_first_lt ((congrArg form (strip_eq_self hi)).trans hc)
  · exact length_operand_lt ((congrArg form (strip_eq_self hi)).trans hc) hlink
  · exact length_inner?_lt hi

end Calculator
