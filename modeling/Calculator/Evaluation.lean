import Calculator.Form
import Calculator.Logged
import Calculator.Value

namespace Calculator

open Logged

/-- An operation whose result counts only if it is a number. -/
def operate (op : Operator) (left right : Value) (offset : Nat) : Except Fault Value := do
  let result ← Value.apply op left right offset
  if result.isNaN then throw (.notANumber op offset) else return result

def step (op : Operator) (left right : Value) (offset : Nat) : Logged Value := do
  let result ← operate op left right offset
  record (.step left op right result)
  return result

def recordSplit (ts : List Lexeme) : Logged Unit :=
  if ts.length < 2 then pure () else record (.split ts.length (splits ts))

/-- Folds the operands of a chain from the left. Each is computed just before it is needed. -/
def compute (ts : List Lexeme) : Logged Value := do
  recordSplit (strip ts)
  match _h : form (strip ts) with
  | .number n => return .integer n
  | .malformed f => throw f
  | .chain c =>
      c.links.attach.foldlM (fun left ⟨l, _hl⟩ => do step l.op left (← compute l.operand) l.offset)
        (← compute c.first)
termination_by ts.length
decreasing_by
  · exact length_first_lt _h
  · exact length_operand_lt _h _hl

def value (ts : List Lexeme) : Except Fault Value := (compute ts).outcome

theorem appends_step (op : Operator) (left right : Value) (offset : Nat) :
    Appends (step op left right offset) :=
  (appends_lift _).bind fun _ => (appends_record _).bind fun _ => appends_pure _

theorem outcome_step (op : Operator) (left right : Value) (offset : Nat) :
    (step op left right offset).outcome = operate op left right offset := by
  unfold step
  cases operate op left right offset <;> rfl

theorem appends_recordSplit (ts : List Lexeme) : Appends (recordSplit ts) := by
  unfold recordSplit
  split
  case isTrue => exact appends_pure _
  case isFalse => exact appends_record _

theorem outcome_recordSplit (ts : List Lexeme) : (recordSplit ts).outcome = .ok () := by
  unfold recordSplit
  split <;> rfl

theorem compute_eq (ts : List Lexeme) :
    compute ts = (do
      recordSplit (strip ts)
      match form (strip ts) with
      | .number n => return .integer n
      | .malformed f => throw f
      | .chain c =>
          c.links.foldlM (fun left l => do step l.op left (← compute l.operand) l.offset) (← compute c.first)) := by
  rw [compute]
  congr 1
  funext _
  split
  case h_1 h | h_2 h => simp only [h]
  case h_3 h =>
    simp only [h]
    congr 1
    funext left
    rw [List.foldlM_subtype (g := fun left (l : Link) => do step l.op left (← compute l.operand) l.offset)
      fun _ _ _ => rfl, List.unattach_attach]

theorem appends_compute (ts : List Lexeme) : Appends (compute ts) := by
  fun_induction compute ts with
  | case1 ts ihf iho =>
      refine (appends_recordSplit _).bind fun _ => ?_
      split
      case h_1 => exact appends_pure _
      case h_2 => exact appends_throw _
      case h_3 c h =>
        exact (ihf c h).bind fun _ =>
          appends_foldlM (fun ⟨l, hl⟩ _ _ => (iho c h l hl).bind fun _ => appends_step _ _ _ _) _

theorem appends_link (left : Value) (l : Link) :
    Appends (do step l.op left (← compute l.operand) l.offset) :=
  (appends_compute _).bind fun _ => appends_step _ _ _ _

theorem appends_links (left : Value) (ls : List Link) :
    Appends (ls.foldlM (fun left (l : Link) => do step l.op left (← compute l.operand) l.offset) left) :=
  appends_foldlM (fun l _ left => appends_link left l) left

theorem outcome_links (left : Value) (ls : List Link) :
    (ls.foldlM (fun left (l : Link) => do step l.op left (← compute l.operand) l.offset) left).outcome =
      ls.foldlM (fun left (l : Link) => do operate l.op left (← value l.operand) l.offset) left := by
  rw [outcome_foldlM fun l _ left => appends_link left l]
  congr 1
  funext left l
  rw [outcome_bind fun _ => appends_step _ _ _ _]
  exact congrArg _ (funext fun right => outcome_step _ _ _ _)

theorem value_eq (ts : List Lexeme) :
    value ts =
      (match form (strip ts) with
      | .number n => .ok (.integer n)
      | .malformed f => .error f
      | .chain c => do
          c.links.foldlM (fun left l => do operate l.op left (← value l.operand) l.offset) (← value c.first)) := by
  rw [value, compute_eq, outcome_bind, outcome_recordSplit]
  · change outcome _ = _
    cases form (strip ts) with
    | number n => rfl
    | malformed f => rfl
    | chain c =>
        simp only
        rw [outcome_bind fun left => appends_links left _]
        exact congrArg _ (funext fun left => outcome_links left _)
  · intro _
    split
    case h_1 => exact appends_pure _
    case h_2 => exact appends_throw _
    case h_3 => exact (appends_compute _).bind fun left => appends_links left _

end Calculator
