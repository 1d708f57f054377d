import Calculator.Chain
import Calculator.Text.Quoted
import Calculator.Value

namespace Calculator

inductive Record where
  | tokenized (source : String) (count : Nat)
  | split (count : Nat) (splits : List Site)
  | step (left : Value) (op : Operator) (right result : Value)
  | failed (source : String) (e : Failure)
  deriving DecidableEq

namespace Record

def tuple (first second : String) : String := "(" ++ first ++ ", " ++ second ++ ")"

def siteText (s : Site) : String := tuple (Numeral.ofNat s.index) s.op.name

def rankText (r : Rank) : String := tuple (Numeral.ofInt r.depth) (Numeral.ofNat r.precedence)

def leastText : List Site → String
  | [] => "None"
  | s :: _ => "Some(" ++ rankText s.rank ++ ")"

def heading : Record → String
  | tokenized .. => "TRACE infixcalc::interpreter::lexer"
  | split .. => "TRACE infixcalc::interpreter::evaluator::split"
  | step .. => "TRACE infixcalc::interpreter::evaluator::core"
  | failed .. => "DEBUG infixcalc"

def message : Record → String
  | tokenized source count =>
      "tokenized " ++ Text.quoted source ++ " into " ++ Numeral.ofNat count ++ " tokens"
  | split count splits =>
      "split " ++ Numeral.ofNat count ++ " tokens on [" ++ ", ".intercalate (splits.map siteText) ++
        "] at rank " ++ leastText splits
  | step left op right result =>
      left.text ++ " " ++ op.text ++ " " ++ right.text ++ " = " ++ result.text
  | failed source e => Text.quoted source ++ ": " ++ e.message

def text (r : Record) : String := r.heading ++ ": " ++ r.message

end Record

/-- Work that adds records to a log and may come to a fault. The records made before a
fault stay. -/
abbrev Logged := ExceptT Fault (StateM (Array Record))

def record (r : Record) : Logged Unit := modify (·.push r)

namespace Logged

variable {α β : Type}

def outcome (x : Logged α) : Except Fault α := (x.run #[]).1

def records (x : Logged α) : Array Record := (x.run #[]).2

/-- Records are only added, and those already made decide nothing. -/
def Appends (x : Logged α) : Prop := ∀ log, x.run log = (x.outcome, log ++ x.records)

theorem run_bind (x : Logged α) (f : α → Logged β) (log : Array Record) :
    (x >>= f).run log =
      match x.run log with
      | (.ok a, log) => (f a).run log
      | (.error e, log) => (.error e, log) := by
  change (ExceptT.bindCont f (x.run log).1 : StateM (Array Record) _) (x.run log).2 = _
  rcases x.run log with ⟨_ | _, _⟩ <;> rfl

theorem appends_pure (a : α) : Appends (pure a) := fun log =>
  congrArg (Prod.mk (Except.ok a)) (@Array.append_empty _ log).symm

theorem appends_throw (f : Fault) : Appends (throw f : Logged α) := fun log =>
  congrArg (Prod.mk (Except.error f)) (@Array.append_empty _ log).symm

theorem appends_lift (x : Except Fault α) : Appends (liftM x) := fun log =>
  congrArg (Prod.mk x) (@Array.append_empty _ log).symm

theorem appends_record (r : Record) : Appends (record r) := fun _ =>
  congrArg (Prod.mk (Except.ok ())) Array.push_eq_append

theorem outcome_bind {x : Logged α} {f : α → Logged β} (hf : ∀ a, Appends (f a)) :
    (x >>= f).outcome = x.outcome >>= fun a => (f a).outcome := by
  simp only [outcome, run_bind]
  rcases x.run #[] with ⟨e | a, log⟩
  · rfl
  · change ((f a).run log).1 = (f a).outcome
    rw [hf a log]

theorem records_bind {x : Logged α} {f : α → Logged β} (hf : ∀ a, Appends (f a)) :
    (x >>= f).records =
      match x.outcome with
      | .ok a => x.records ++ (f a).records
      | .error _ => x.records := by
  simp only [records, outcome, run_bind]
  rcases x.run #[] with ⟨e | a, log⟩
  · rfl
  · change ((f a).run log).2 = log ++ (f a).records
    rw [hf a log]

theorem Appends.bind {x : Logged α} {f : α → Logged β} (hx : Appends x) (hf : ∀ a, Appends (f a)) :
    Appends (x >>= f) := fun log => by
  rw [run_bind, hx log, outcome_bind hf, records_bind hf]
  cases x.outcome with
  | ok a => exact (hf a _).trans (congrArg (Prod.mk _) Array.append_assoc)
  | error e => rfl

theorem appends_foldlM {f : β → α → Logged β} {xs : List α} (hf : ∀ x ∈ xs, ∀ b, Appends (f b x)) (b : β) :
    Appends (xs.foldlM f b) := by
  induction xs generalizing b with
  | nil => exact appends_pure b
  | cons x xs ih =>
      rw [List.foldlM_cons]
      exact (hf x (List.mem_cons_self ..) b).bind fun c => ih (fun y hy => hf y (List.mem_cons_of_mem _ hy)) c

theorem outcome_foldlM {f : β → α → Logged β} {xs : List α} (hf : ∀ x ∈ xs, ∀ b, Appends (f b x)) (b : β) :
    (xs.foldlM f b).outcome = xs.foldlM (fun b x => (f b x).outcome) b := by
  induction xs generalizing b with
  | nil => rfl
  | cons x xs ih =>
      have hxs : ∀ y ∈ xs, ∀ b, Appends (f b y) := fun y hy => hf y (List.mem_cons_of_mem _ hy)
      rw [List.foldlM_cons, List.foldlM_cons, outcome_bind fun c => appends_foldlM hxs c]
      exact congrArg _ (funext fun c => ih hxs c)

end Logged

end Calculator
