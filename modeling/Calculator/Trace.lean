import Calculator.Evaluation
import Calculator.Source

namespace Calculator

structure Trace where
  outcome : Except Failure Value
  log : Array Record

def trace (source : String) : Trace :=
  match lexemes source with
  | .error e => ⟨.error (.literal e), #[.failed source (.literal e)]⟩
  | .ok ts =>
      match (compute ts).run #[.tokenized source ts.length] with
      | (.ok v, log) => ⟨.ok v, log⟩
      | (.error f, log) => ⟨.error (.fault f), log.push (.failed source (.fault f))⟩

def evaluate (source : String) : Except Failure Value := (trace source).outcome

theorem trace_of_lexemes_eq_error {source : String} {e : InvalidLiteral} (h : lexemes source = .error e) :
    trace source = ⟨.error (.literal e), #[.failed source (.literal e)]⟩ := by
  simp only [trace, h]

theorem trace_of_value_eq_ok {source : String} {ts : List Lexeme} {v : Value} (h : lexemes source = .ok ts)
    (hv : value ts = .ok v) :
    trace source = ⟨.ok v, #[.tokenized source ts.length] ++ (compute ts).records⟩ := by
  have hv : (compute ts).outcome = .ok v := hv
  simp only [trace, h, appends_compute ts #[.tokenized source ts.length], hv]

theorem trace_of_value_eq_error {source : String} {ts : List Lexeme} {f : Fault} (h : lexemes source = .ok ts)
    (hf : value ts = .error f) :
    trace source =
      ⟨.error (.fault f),
        (#[Record.tokenized source ts.length] ++ (compute ts).records).push (.failed source (.fault f))⟩ := by
  have hf : (compute ts).outcome = .error f := hf
  simp only [trace, h, appends_compute ts #[.tokenized source ts.length], hf]

/-- The first word that is no number decides over all that is wrong with the rest. -/
theorem evaluate_eq (source : String) :
    evaluate source =
      match lexemes source with
      | .error e => .error (.literal e)
      | .ok ts => (value ts).mapError .fault := by
  cases h : lexemes source with
  | error e => rw [evaluate, trace_of_lexemes_eq_error h]
  | ok ts =>
      cases hv : value ts with
      | error f =>
          rw [evaluate, trace_of_value_eq_error h hv]
          exact congrArg (Except.mapError Failure.fault) hv.symm
      | ok v =>
          rw [evaluate, trace_of_value_eq_ok h hv]
          exact congrArg (Except.mapError Failure.fault) hv.symm

end Calculator
