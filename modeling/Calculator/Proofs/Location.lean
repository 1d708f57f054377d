import Calculator.Proofs.FaultOrigin
import Calculator.Proofs.Position

namespace Calculator

def Fault.offset? : Fault → Option Nat
  | endOfInput => none
  | unexpectedToken _ offset | missingOperator offset | leadingOperator _ offset | divisionByZero offset
  | notANumber _ offset => some offset

def Failure.offset? : Failure → Option Nat
  | literal e => some e.offset
  | fault f => f.offset?

def Failure.PointsInto (source : String) : Failure → Prop
  | literal e => StandsAt source e.offset e.literal
  | fault .endOfInput => True
  | fault (.unexpectedToken t offset) => ∃ c, (c, t) ∈ symbolTable ∧ StandsAt source offset (String.singleton c)
  | fault (.missingOperator offset) => ∃ ts, lexemes source = .ok ts ∧ ∃ t ∈ ts, t.offset = offset
  | fault (.leadingOperator op offset) | fault (.notANumber op offset) => StandsAt source offset op.text
  | fault (.divisionByZero offset) => StandsAt source offset "/"

variable {source : String} {ts : List Lexeme} {t : Token} {offset : Nat} {f : Fault} {e : Failure}

theorem standsAt_text_of_lexemes (h : lexemes source = .ok ts) (ht : ⟨t, offset⟩ ∈ ts) (hn : ∀ n, t ≠ .integer n) :
    StandsAt source offset t.text := by
  obtain ⟨text, _, hs, rfl | ⟨n, hi⟩⟩ := standsAt_of_lexemes h ht
  · exact hs
  · exact absurd hi (hn n)

theorem standsAt_operator_of_lexemes {op : Operator} (h : lexemes source = .ok ts)
    (ht : ⟨.operator op, offset⟩ ∈ ts) : StandsAt source offset op.text := by
  have hs := standsAt_text_of_lexemes h ht (by simp)
  rwa [Token.text] at hs

theorem Fault.PointsInto.into_source (h : lexemes source = .ok ts) (hf : f.PointsInto ts) :
    (Failure.fault f).PointsInto source := by
  cases f with
  | endOfInput => trivial
  | unexpectedToken t offset =>
      obtain ⟨ht, hn⟩ := hf
      rcases (readable_of_lexemes h _ ht).symbol_or_integer with ⟨c, hc⟩ | ⟨n, hi, _⟩
      · have hs := standsAt_text_of_lexemes h ht hn
        rw [← String.ofList_toList (s := t.text), Token.text_of_mem_symbolTable hc] at hs
        exact ⟨c, hc, hs⟩
      · exact absurd hi (hn n)
  | missingOperator offset => exact ⟨ts, h, hf⟩
  | leadingOperator op offset | notANumber op offset => exact standsAt_operator_of_lexemes h hf
  | divisionByZero offset =>
      have hs := standsAt_operator_of_lexemes h hf
      rwa [show Operator.div.text = "/" by decide] at hs

theorem Fault.PointsInto.exists_lexeme (h : f.PointsInto ts) (ho : f.offset? = some offset) :
    ∃ t ∈ ts, t.offset = offset := by
  cases f with
  | endOfInput => cases ho
  | unexpectedToken t offset =>
      cases ho
      exact ⟨_, h.1, rfl⟩
  | missingOperator offset =>
      cases ho
      exact h
  | leadingOperator | notANumber | divisionByZero =>
      cases ho
      exact ⟨_, h, rfl⟩

theorem exists_standsAt_of_failure (h : evaluate source = .error e) (ho : e.offset? = some offset) :
    ∃ text, text ≠ "" ∧ StandsAt source offset text := by
  cases e with
  | literal e =>
      cases ho
      obtain ⟨hne, hs⟩ := standsAt_literal (evaluate_eq_literal_iff.1 h)
      exact ⟨e.literal, hne, hs⟩
  | fault f =>
      obtain ⟨ts, hts, hv⟩ := evaluate_eq_fault_iff.1 h
      obtain ⟨t, ht, rfl⟩ := (pointsInto_of_value hv).exists_lexeme ho
      obtain ⟨text, hne, hs, _⟩ := standsAt_of_lexemes hts ht
      exact ⟨text, hne, hs⟩

/-- The offset of a failure lies inside the source and on the edge of a character, and what the
failure names begins there. -/
theorem failure_pointsInto_source (h : evaluate source = .error e) :
    (∀ offset, e.offset? = some offset →
      offset < source.utf8ByteSize ∧ (⟨offset⟩ : String.Pos.Raw).IsValid source) ∧ e.PointsInto source := by
  constructor
  · intro offset ho
    obtain ⟨text, hne, hs⟩ := exists_standsAt_of_failure h ho
    exact ⟨hs.lt hne, hs.isValid⟩
  · cases e with
    | literal e => exact (standsAt_literal (evaluate_eq_literal_iff.1 h)).2
    | fault f =>
        obtain ⟨ts, hts, hv⟩ := evaluate_eq_fault_iff.1 h
        exact (pointsInto_of_value hv).into_source hts

theorem leadingOperator_after_ideographicSpace :
    evaluate "\u3000-1" = .error (.fault (.leadingOperator .sub 3)) ∧
      3 < "\u3000-1".utf8ByteSize ∧ (⟨3⟩ : String.Pos.Raw).IsValid "\u3000-1" ∧ StandsAt "\u3000-1" 3 "-" := by
  have h : evaluate "\u3000-1" = .error (.fault (.leadingOperator .sub 3)) := by decide +kernel
  obtain ⟨hoffset, hpoints⟩ := failure_pointsInto_source h
  obtain ⟨hlt, hvalid⟩ := hoffset 3 rfl
  exact ⟨h, hlt, hvalid, hpoints⟩

end Calculator
