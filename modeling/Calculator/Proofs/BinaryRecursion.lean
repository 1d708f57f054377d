import Calculator.Proofs.CutValue

namespace Calculator

def cuts : List Lexeme → List Cut
  | [] => []
  | t :: ts =>
      let later := (cuts ts).map fun c => ⟨t :: c.left, c.link⟩
      match t with
      | ⟨.operator op, offset⟩ => ⟨[], ⟨op, offset, ts⟩⟩ :: later
      | _ => later

def Cut.weaker (c d : Cut) : Cut := if d.rank ≤ c.rank then d else c

/-- Goes over the operators from the left and keeps the last one that is as weak as any before. -/
def lastWeakest? (ts : List Lexeme) : Option Cut :=
  match cuts ts with
  | [] => none
  | c :: cs => some (cs.foldl Cut.weaker c)

theorem lexemes_of_mem_cuts {ts : List Lexeme} {c : Cut} (h : c ∈ cuts ts) : c.lexemes = ts := by
  induction ts generalizing c with
  | nil => cases h
  | cons t ts ih =>
      have later (h : c ∈ (cuts ts).map fun d => (⟨t :: d.left, d.link⟩ : Cut)) : c.lexemes = t :: ts := by
        obtain ⟨d, hd, rfl⟩ := List.mem_map.1 h
        exact congrArg (t :: ·) (ih hd)
      obtain ⟨token, offset⟩ := t
      cases token with
      | operator op =>
          rcases List.mem_cons.1 h with rfl | h
          · rfl
          · exact later h
      | integer | openParen | closeParen | blank => exact later h

theorem foldl_weaker_mem (c : Cut) (cs : List Cut) : cs.foldl Cut.weaker c ∈ c :: cs := by
  induction cs generalizing c with
  | nil => exact List.mem_singleton_self c
  | cons d cs ih =>
      have hw : c.weaker d = c ∨ c.weaker d = d := by
        by_cases hr : d.rank ≤ c.rank
        · exact .inr (if_pos hr)
        · exact .inl (if_neg hr)
      rw [List.foldl_cons]
      rcases List.mem_cons.1 (ih (c.weaker d)) with h | h
      · rw [h]
        rcases hw with hw | hw <;> simp [hw]
      · exact List.mem_cons_of_mem _ (List.mem_cons_of_mem _ h)

theorem lexemes_of_lastWeakest? {ts : List Lexeme} {c : Cut} (h : lastWeakest? ts = some c) : c.lexemes = ts := by
  rw [lastWeakest?] at h
  split at h
  next => cases h
  next d ds hd =>
    apply lexemes_of_mem_cuts
    rw [hd, ← Option.some.inj h]
    exact foldl_weaker_mem d ds

theorem Cut.length_left_lt (c : Cut) : c.left.length < c.lexemes.length := by
  simp only [lexemes, Link.lexemes, List.length_append, List.length_cons]
  omega

theorem Cut.two_le_length {c : Cut} (h : c.left ≠ []) : 2 ≤ c.lexemes.length := by
  have hlen := c.length_left_lt
  have hpos : 0 < c.left.length := List.length_pos_iff.2 h
  omega

theorem Cut.length_operand_lt (c : Cut) : c.link.operand.length < c.lexemes.length := by
  simp only [lexemes, Link.lexemes, List.length_append, List.length_cons]
  omega

/-- The value by a recursion on two parts, left and right of one operator. -/
def binaryValue (ts : List Lexeme) : Except Fault Value :=
  match _hs : strip ts with
  | [] => .error .endOfInput
  | [⟨.integer n, _⟩] => .ok (.integer n)
  | [⟨t, offset⟩] => .error (.unexpectedToken t offset)
  | t :: u :: us =>
      match _hc : lastWeakest? (t :: u :: us) with
      | none => .error (.missingOperator t.offset)
      | some c =>
          if c.left = [] then
            .error (.leadingOperator c.link.op t.offset)
          else do
            operate c.link.op (← binaryValue c.left) (← binaryValue c.link.operand) c.link.offset
termination_by ts.length
decreasing_by
  all_goals
    have hlen := length_strip_le ts
    rw [_hs, ← lexemes_of_lastWeakest? _hc] at hlen
  · exact Nat.lt_of_lt_of_le c.length_left_lt hlen
  · exact Nat.lt_of_lt_of_le c.length_operand_lt hlen

theorem cuts_append (left : List Lexeme) (link : Link) :
    cuts (left ++ link.lexemes) =
      (cuts left).map (fun d => ⟨d.left, ⟨d.link.op, d.link.offset, d.link.operand ++ link.lexemes⟩⟩) ++
        ⟨left, link⟩ :: (cuts link.operand).map fun d => ⟨left ++ link.head :: d.left, d.link⟩ := by
  induction left with
  | nil => rfl
  | cons t left ih =>
      obtain ⟨token, offset⟩ := t
      cases token <;> simp [cuts, ih, Function.comp_def]

theorem foldl_weaker_eq_self {c : Cut} {cs : List Cut} (h : ∀ d ∈ cs, ¬ d.rank ≤ c.rank) :
    cs.foldl Cut.weaker c = c := by
  induction cs with
  | nil => rfl
  | cons d cs ih =>
      have hd : c.weaker d = c := if_neg (h d (List.mem_cons_self ..))
      rw [List.foldl_cons, hd]
      exact ih fun e he => h e (List.mem_cons_of_mem _ he)

theorem lastWeakest?_of_cuts {ts : List Lexeme} {as bs : List Cut} {c : Cut} (h : cuts ts = as ++ c :: bs)
    (ha : ∀ a ∈ as, c.rank ≤ a.rank) (hb : ∀ b ∈ bs, ¬ b.rank ≤ c.rank) : lastWeakest? ts = some c := by
  cases as with
  | nil =>
      simp only [lastWeakest?, h, List.nil_append]
      rw [foldl_weaker_eq_self hb]
  | cons a as =>
      have hc : (as.foldl Cut.weaker a).weaker c = c := if_pos (ha _ (foldl_weaker_mem a as))
      simp only [lastWeakest?, h, List.cons_append, List.foldl_append, List.foldl_cons]
      rw [hc, foldl_weaker_eq_self hb]

theorem rankAt_mem_of_mem_cuts {ts : List Lexeme} {c : Cut} (h : c ∈ cuts ts) (depth : Int) :
    c.link.op.rankAt (depthAfter depth c.left) ∈ ranks depth ts := by
  rw [← lexemes_of_mem_cuts h]
  exact c.rankAt_mem depth

theorem Cut.LastWeakest.lastWeakest?_lexemes {c : Cut} (h : c.LastWeakest) : lastWeakest? c.lexemes = some c := by
  apply lastWeakest?_of_cuts (cuts_append c.left c.link)
  · intro a ha
    obtain ⟨d, hd, rfl⟩ := List.mem_map.1 ha
    exact h.le_of_left d.rank (rankAt_mem_of_mem_cuts hd 0)
  · intro b hb
    obtain ⟨d, hd, rfl⟩ := List.mem_map.1 hb
    have hr := rankAt_mem_of_mem_cuts hd (depthAfter 0 c.left)
    have hn : depthAfter 0 c.left + c.link.head.token.nesting = depthAfter 0 c.left := Int.add_zero _
    apply h.not_le_of_right
    rw [Cut.rank, depthAfter_append, depthAfter_cons, hn]
    exact hr

theorem lastWeakest?_eq_none {ts : List Lexeme} (h : leastRank? ts = none) : lastWeakest? ts = none := by
  cases hc : lastWeakest? ts with
  | none => rfl
  | some c =>
      have hm := c.rankAt_mem 0
      rw [lexemes_of_lastWeakest? hc] at hm
      rw [leastRank?_eq_min?, List.min?_eq_none_iff] at h
      rw [h] at hm
      cases hm

theorem lastWeakest_of_lastWeakest? {ts : List Lexeme} {c : Cut} (h : lastWeakest? ts = some c) : c.LastWeakest := by
  cases hr : leastRank? ts with
  | none =>
      rw [lastWeakest?_eq_none hr] at h
      cases h
  | some least =>
      obtain ⟨d, rfl, hd⟩ := Cut.exists_lastWeakest hr
      rw [hd.lastWeakest?_lexemes] at h
      rw [← Option.some.inj h]
      exact hd

theorem binaryValue_eq (ts : List Lexeme) :
    binaryValue ts =
      (match strip ts with
      | [] => .error .endOfInput
      | [⟨.integer n, _⟩] => .ok (.integer n)
      | [⟨t, offset⟩] => .error (.unexpectedToken t offset)
      | t :: u :: us =>
          match lastWeakest? (t :: u :: us) with
          | none => .error (.missingOperator t.offset)
          | some c =>
              if c.left = [] then
                .error (.leadingOperator c.link.op t.offset)
              else do
                operate c.link.op (← binaryValue c.left) (← binaryValue c.link.operand) c.link.offset) := by
  rw [binaryValue]
  split
  case h_1 h | h_2 h => simp only [h]
  case h_3 h => simp only [h]
  case h_4 h =>
    simp only [h]
    split
    case h_1 hc => simp only [hc]
    case h_2 hc => simp only [hc]

theorem binaryValue_strip (ts : List Lexeme) : binaryValue (strip ts) = binaryValue ts := by
  rw [binaryValue_eq, binaryValue_eq, strip_eq_self (inner?_strip ts)]

namespace Cut.LastWeakest

variable {c : Cut}

theorem binaryValue_of_left_eq_nil (h : c.LastWeakest) (hi : inner? c.lexemes = none) (hl : c.left = [])
    (hlen : 2 ≤ c.lexemes.length) :
    binaryValue c.lexemes = .error (.leadingOperator c.link.op c.link.offset) := by
  obtain ⟨t, u, us, ht⟩ := exists_cons_cons_of_length hlen
  have hhead : c.link.head = t := by
    rw [lexemes, hl, List.nil_append, Link.lexemes] at ht
    exact (List.cons.inj ht).1
  have hcut := h.lastWeakest?_lexemes
  rw [binaryValue_eq, strip_eq_self hi]
  rw [ht] at hcut ⊢
  simp only [hcut, if_pos hl]
  rw [← hhead]
  rfl

theorem binaryValue_of_left_ne_nil (h : c.LastWeakest) (hi : inner? c.lexemes = none) (hl : c.left ≠ []) :
    binaryValue c.lexemes = (do
      operate c.link.op (← binaryValue c.left) (← binaryValue c.link.operand) c.link.offset) := by
  obtain ⟨t, u, us, ht⟩ := exists_cons_cons_of_length (two_le_length hl)
  have hcut := h.lastWeakest?_lexemes
  rw [binaryValue_eq, strip_eq_self hi]
  rw [ht] at hcut ⊢
  simp only [hcut, if_neg hl]

end Cut.LastWeakest

end Calculator
