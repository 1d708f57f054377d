import Calculator.Proofs.SameSteps
import Calculator.Trace

namespace Calculator

namespace Record

def isDebug (r : Record) : Bool := "DEBUG".toList.isPrefixOf r.text.toList

def IsWork : Record → Prop
  | split .. | step .. => True
  | tokenized .. | failed .. => False

@[simp] theorem isDebug_tokenized (source : String) (count : Nat) : (tokenized source count).isDebug = false := by
  simp [isDebug, text, heading, List.isPrefixOf]

@[simp] theorem isDebug_failed (source : String) (e : Failure) : (failed source e).isDebug = true := by
  simp [isDebug, text, heading]

theorem IsWork.isDebug_eq {r : Record} (h : r.IsWork) : r.isDebug = false := by
  cases r with
  | split | step => simp [isDebug, text, heading, List.isPrefixOf]
  | tokenized | failed => exact h.elim

end Record

namespace Logged

variable {α β : Type} {p : Record → Prop}

structure Only (p : Record → Prop) (x : Logged α) : Prop where
  appends : Appends x
  all : ∀ r ∈ x.records, p r

theorem Only.bind {x : Logged α} {f : α → Logged β} (hx : Only p x) (hf : ∀ a, Only p (f a)) : Only p (x >>= f) := by
  refine ⟨hx.appends.bind fun a => (hf a).appends, ?_⟩
  intro r hr
  rw [records_bind fun a => (hf a).appends] at hr
  split at hr
  case h_1 a _ => exact (Array.mem_append.1 hr).elim (hx.all r) ((hf a).all r)
  case h_2 => exact hx.all r hr

end Logged

open Logged

/-- What a log holds after the source has been read and before a failure. -/
def workRecords (source : String) : List Record :=
  match lexemes source with
  | .ok ts => (compute ts).records.toList
  | .error _ => []

def readingRecords (source : String) : List Record :=
  match lexemes source with
  | .ok ts => [.tokenized source ts.length]
  | .error _ => []

def failureRecords (source : String) : List Record :=
  match evaluate source with
  | .ok _ => []
  | .error e => [.failed source e]

variable {source : String}

theorem toList_log (source : String) :
    (trace source).log.toList = readingRecords source ++ workRecords source ++ failureRecords source := by
  cases h : lexemes source with
  | error e =>
      have ht := trace_of_lexemes_eq_error h
      simp [readingRecords, workRecords, failureRecords, evaluate, h, ht]
  | ok ts =>
      cases hv : value ts with
      | ok v =>
          have ht := trace_of_value_eq_ok h hv
          simp [readingRecords, workRecords, failureRecords, evaluate, h, ht]
      | error f =>
          have ht := trace_of_value_eq_error h hv
          simp [readingRecords, workRecords, failureRecords, evaluate, h, ht]

theorem filter_isStep_log (source : String) :
    (trace source).log.toList.filter Record.isStep = (workRecords source).filter Record.isStep := by
  rw [toList_log, List.filter_append, List.filter_append]
  unfold readingRecords failureRecords
  cases lexemes source <;> cases evaluate source <;> simp [Record.isStep]

end Calculator
