import Calculator.Proofs.CutValue

namespace Calculator

variable (f : Nat → Nat)

def Lexeme.relocate (t : Lexeme) : Lexeme := ⟨t.token, f t.offset⟩

def Link.relocate (l : Link) : Link := ⟨l.op, f l.offset, l.operand.map (Lexeme.relocate f)⟩

def Chain.relocate (c : Chain) : Chain := ⟨c.first.map (Lexeme.relocate f), c.links.map (Link.relocate f)⟩

def InvalidLiteral.relocate (e : InvalidLiteral) : InvalidLiteral := ⟨e.literal, f e.offset⟩

def Fault.relocate : Fault → Fault
  | endOfInput => endOfInput
  | unexpectedToken t offset => unexpectedToken t (f offset)
  | missingOperator offset => missingOperator (f offset)
  | leadingOperator op offset => leadingOperator op (f offset)
  | divisionByZero offset => divisionByZero (f offset)
  | notANumber op offset => notANumber op (f offset)

def Failure.relocate : Failure → Failure
  | literal e => literal (e.relocate f)
  | fault e => fault (e.relocate f)

def Form.relocate : Form → Form
  | number n => number n
  | chain c => chain (c.relocate f)
  | malformed e => malformed (e.relocate f)

theorem Failure.text_relocate (e : Failure) : (e.relocate f).text = e.text := by
  cases e with
  | literal e => rfl
  | fault e => cases e <;> rfl

@[simp] theorem Lexeme.token_relocate (t : Lexeme) : (t.relocate f).token = t.token := rfl

theorem closesAtEnd_map_relocate (depth : Nat) (ts : List Lexeme) :
    closesAtEnd depth (ts.map (Lexeme.relocate f)) = closesAtEnd depth ts := by
  induction ts generalizing depth with
  | nil => rfl
  | cons t ts ih =>
      obtain ⟨token, offset⟩ := t
      cases token with
      | closeParen => cases depth <;> simp [closesAtEnd, ih]
      | openParen | integer | operator | blank => simp [closesAtEnd, ih]

theorem inner?_map_relocate (ts : List Lexeme) :
    inner? (ts.map (Lexeme.relocate f)) = (inner? ts).map (List.map (Lexeme.relocate f)) := by
  cases ts with
  | nil => rfl
  | cons t ts =>
      obtain ⟨token, offset⟩ := t
      cases token with
      | openParen =>
          rw [List.map_cons, Lexeme.relocate, inner?, inner?, closesAtEnd_map_relocate, ← List.map_dropLast]
          split <;> rfl
      | closeParen | integer | operator | blank => rfl

theorem strip_map_relocate (ts : List Lexeme) : strip (ts.map (Lexeme.relocate f)) = (strip ts).map (Lexeme.relocate f) := by
  fun_induction strip ts with
  | case1 ts us h ih =>
      rw [← ih]
      apply strip_eq_strip
      rw [inner?_map_relocate, h]
      rfl
  | case2 ts h =>
      apply strip_eq_self
      rw [inner?_map_relocate, h]
      rfl

theorem depths_map_relocate (ts : List Lexeme) :
    depths (ts.map (Lexeme.relocate f)) = (depths ts).map fun (t, depth) => (t.relocate f, depth) :=
  runningTotal_map _ _ _ _

theorem site?_relocate (t : Lexeme) (depth : Int) (index : Nat) :
    site? ((t.relocate f, depth), index) = site? ((t, depth), index) := by
  obtain ⟨token, offset⟩ := t
  cases token <;> rfl

theorem sites_map_relocate (ts : List Lexeme) : sites (ts.map (Lexeme.relocate f)) = sites ts := by
  rw [sites, sites, depths_map_relocate, List.zipIdx_map, List.filterMap_map]
  congr 1
  apply funext
  rintro ⟨⟨t, depth⟩, index⟩
  exact site?_relocate f t depth index

theorem leastRank?_map_relocate (ts : List Lexeme) : leastRank? (ts.map (Lexeme.relocate f)) = leastRank? ts := by
  rw [leastRank?, sites_map_relocate]
  rfl

theorem splits_map_relocate (ts : List Lexeme) : splits (ts.map (Lexeme.relocate f)) = splits ts := by
  rw [splits, leastRank?_map_relocate, sites_map_relocate]
  rfl

theorem Chain.cons_relocate (least : Rank) (t : Lexeme) (depth : Int) (c : Chain) :
    cons least (t.relocate f, depth) (c.relocate f) = (cons least (t, depth) c).relocate f := by
  obtain ⟨token, offset⟩ := t
  cases token with
  | operator op => by_cases h : op.rankAt depth = least <;> simp [cons, relocate, Lexeme.relocate, Link.relocate, h]
  | openParen | closeParen | integer | blank => rfl

theorem Chain.ofLexemes_map_relocate (ts : List Lexeme) :
    ofLexemes (ts.map (Lexeme.relocate f)) = (ofLexemes ts).relocate f := by
  cases h : leastRank? ts with
  | none =>
      rw [ofLexemes_of_leastRank?_eq_none h, ofLexemes_of_leastRank?_eq_none ((leastRank?_map_relocate f ts).trans h)]
      rfl
  | some least =>
      rw [ofLexemes_of_leastRank? h, ofLexemes_of_leastRank? ((leastRank?_map_relocate f ts).trans h),
        depths_map_relocate]
      induction depths ts with
      | nil => rfl
      | cons t ts ih =>
          rw [List.map_cons, List.foldr_cons, List.foldr_cons, ih]
          exact cons_relocate f least t.1 t.2 _

theorem Form.ofChain_relocate (start : Nat) (c : Chain) :
    ofChain (f start) (c.relocate f) = (ofChain start c).relocate f := by
  obtain ⟨first, links⟩ := c
  cases links with
  | nil => rfl
  | cons l ls => cases first <;> rfl

theorem form_map_relocate (ts : List Lexeme) : form (ts.map (Lexeme.relocate f)) = (form ts).relocate f := by
  obtain _ | ⟨t, _ | ⟨u, us⟩⟩ := ts
  · rfl
  · obtain ⟨token, offset⟩ := t
    cases token <;> rfl
  · rw [form_cons_cons, ← Form.ofChain_relocate, ← Chain.ofLexemes_map_relocate]
    exact form_cons_cons _ _ _

namespace Logged

variable {α β : Type} (g : Fault → Fault)

theorem outcome_adapt (x : Logged α) : outcome (ExceptT.adapt g x) = (outcome x).mapError g := rfl

theorem records_adapt (x : Logged α) : records (ExceptT.adapt g x) = records x := rfl

theorem adapt_bind (x : Logged α) (k : α → Logged β) :
    ExceptT.adapt g (x >>= k) = (ExceptT.adapt g x >>= fun a => ExceptT.adapt g (k a) : Logged β) := by
  funext log
  change (((x >>= k).run log).1.mapError g, ((x >>= k).run log).2) = (ExceptT.adapt g x >>= _ : Logged β).run log
  rw [run_bind, run_bind]
  change _ = match ((x.run log).1.mapError g, (x.run log).2) with
    | (.ok a, log) => (ExceptT.adapt g (k a) : Logged β).run log
    | (.error e, log) => (.error e, log)
  rcases x.run log with ⟨e | a, log⟩ <;> rfl

end Logged

open Logged

theorem apply_relocate (op : Operator) (left right : Value) (offset : Nat) :
    Value.apply op left right (f offset) = (Value.apply op left right offset).mapError (Fault.relocate f) := by
  cases op with
  | pow => rfl
  | add | sub | mul | div =>
      simp only [Value.apply, Value.scalar?]
      split <;> rfl

theorem operate_relocate (op : Operator) (left right : Value) (offset : Nat) :
    operate op left right (f offset) = (operate op left right offset).mapError (Fault.relocate f) := by
  rw [operate, operate, apply_relocate]
  rcases Value.apply op left right offset with e | v
  · rfl
  · change (if v.isNaN then _ else _ : Except Fault Value) = Except.mapError _ (if v.isNaN then _ else _)
    split <;> rfl

theorem step_relocate (op : Operator) (left right : Value) (offset : Nat) :
    step op left right (f offset) = ExceptT.adapt (Fault.relocate f) (step op left right offset) := by
  rw [step, step, operate_relocate]
  cases operate op left right offset <;> rfl

theorem recordSplit_map_relocate (ts : List Lexeme) :
    recordSplit (ts.map (Lexeme.relocate f)) = ExceptT.adapt (Fault.relocate f) (recordSplit ts) := by
  rw [recordSplit, recordSplit, splits_map_relocate, List.length_map]
  split <;> rfl

theorem links_relocate (ls : List Link)
    (h : ∀ l ∈ ls, compute (l.operand.map (Lexeme.relocate f)) = ExceptT.adapt (Fault.relocate f) (compute l.operand))
    (left : Value) :
    (ls.map (Link.relocate f)).foldlM (fun left (l : Link) => do step l.op left (← compute l.operand) l.offset) left =
      ExceptT.adapt (Fault.relocate f)
        (ls.foldlM (fun left (l : Link) => do step l.op left (← compute l.operand) l.offset) left) := by
  induction ls generalizing left with
  | nil => rfl
  | cons l ls ih =>
      rw [List.forall_mem_cons] at h
      simp only [List.map_cons, List.foldlM_cons, adapt_bind, ih h.2, Link.relocate, h.1, step_relocate]

theorem compute_map_relocate (ts : List Lexeme) :
    compute (ts.map (Lexeme.relocate f)) = ExceptT.adapt (Fault.relocate f) (compute ts) := by
  rw [compute_eq, compute_eq ts, strip_map_relocate, form_map_relocate, recordSplit_map_relocate, adapt_bind]
  congr 1
  funext _
  cases hc : form (strip ts) with
  | number n => rfl
  | malformed e => rfl
  | chain c =>
      have hfirst := compute_map_relocate c.first
      have hlinks := links_relocate f c.links fun l hl => compute_map_relocate l.operand
      simp only [Form.relocate, Chain.relocate, adapt_bind, hfirst, hlinks]
termination_by ts.length
decreasing_by
  · exact length_first_lt hc
  · exact length_operand_lt hc hl

/-- Where lexemes stand decides nothing. A fault is found in the same place. -/
theorem value_map_relocate (ts : List Lexeme) :
    value (ts.map (Lexeme.relocate f)) = (value ts).mapError (Fault.relocate f) := by
  rw [value, compute_map_relocate, outcome_adapt]
  rfl

/-- Places are for the reader of a fault only. They do not decide on the value, on which fault there is, or on any
record made before it. -/
theorem run_map_relocate (ts : List Lexeme) :
    value (ts.map (Lexeme.relocate f)) = (value ts).mapError (Fault.relocate f) ∧
      (compute (ts.map (Lexeme.relocate f))).records = (compute ts).records := by
  constructor
  · exact value_map_relocate f ts
  · rw [compute_map_relocate, records_adapt]

end Calculator
