import Calculator.Proofs.Location
import Calculator.Proofs.LogOutline
import Calculator.Proofs.SelfDelimiting

namespace Calculator

theorem Operator.text_injective {a b : Operator} (h : a.text = b.text) : a = b := by
  apply symbol_injective
  rw [text, text] at h
  simpa using h

namespace Token

def ofText (s : String) : Token := (s.toList.head?.bind ofSymbol?).getD blank

variable {t u : Token}

theorem ofText_text (h : ∀ n, t ≠ integer n) : ofText t.text = t := by
  cases t with
  | integer n => exact absurd rfl (h n)
  | operator op => cases op <;> decide
  | openParen | closeParen | blank => decide

theorem any_isDigit_eq_false (h : ∀ n, t ≠ integer n) : t.text.toList.any Char.isDigit = false := by
  cases t with
  | integer n => exact absurd rfl (h n)
  | operator op => cases op <;> decide
  | openParen | closeParen | blank => decide

theorem any_isDigit_iff : t.text.toList.any Char.isDigit = true ↔ ∃ n, t = integer n := by
  constructor
  · intro h
    by_contra hn
    rw [any_isDigit_eq_false (not_exists.1 hn)] at h
    cases h
  · rintro ⟨n, rfl⟩
    exact List.any_eq_true.2 (Numeral.exists_isDigit_ofInt n.toInt)

/-- Digits tell integers apart from the other tokens, of which each has a text of its own. -/
theorem text_injective (h : t.text = u.text) : t = u := by
  by_cases ht : ∃ n, t = integer n
  · have hu : ∃ n, u = integer n := by rwa [← any_isDigit_iff, ← h, any_isDigit_iff]
    obtain ⟨m, rfl⟩ := ht
    obtain ⟨n, rfl⟩ := hu
    exact congrArg integer (Int64.toInt.inj (Numeral.ofInt_injective h))
  · have hu : ¬ ∃ n, u = integer n := by rwa [← any_isDigit_iff, ← h, any_isDigit_iff]
    rw [← ofText_text (not_exists.1 ht), h, ofText_text (not_exists.1 hu)]

end Token

def place : Option Nat → String
  | none => "Error: "
  | some offset => "Error at offset " ++ Numeral.ofNat offset ++ ": "

theorem place_some_toList (offset : Nat) (cs : List Char) :
    (place (some offset)).toList ++ cs =
      "Error at offset ".toList ++ (Numeral.digits offset ++ [':'] ++ ' ' :: cs) := by
  change ("Error at offset " ++ Numeral.ofNat offset ++ ": ").toList ++ cs = _
  generalize "Error at offset " = front
  simp [Numeral.ofNat]

theorem place_none_append_ne (offset : Nat) (r s : List Char) :
    (place none).toList ++ r ≠ (place (some offset)).toList ++ s := by
  have hn : ((place none).toList ++ r)[5]? = some ':' := by
    rw [List.getElem?_append_left (by decide)]
    decide
  have hs : ((place (some offset)).toList ++ s)[5]? = some ' ' := by
    rw [place_some_toList, List.getElem?_append_left (by decide)]
    decide
  intro h
  rw [h, hs] at hn
  cases hn

theorem selfDelimiting_place : SelfDelimiting fun p => (place p).toList := by
  intro p q r s h
  cases p with
  | none =>
      cases q with
      | none => exact ⟨rfl, List.append_cancel_left h⟩
      | some n => exact absurd h (place_none_append_ne n r s)
  | some m =>
      cases q with
      | none => exact absurd h.symm (place_none_append_ne m s r)
      | some n =>
          have h : (place (some m)).toList ++ r = (place (some n)).toList ++ s := h
          rw [place_some_toList, place_some_toList] at h
          obtain ⟨rfl, hrest⟩ := Numeral.selfDelimiting_digits_colon (List.append_cancel_left h)
          exact ⟨rfl, (List.cons.inj hrest).2⟩

theorem eq_of_atOffset {m n : Nat} {d e : String} (h : atOffset m d = atOffset n e) : m = n ∧ d = e := by
  have h : place (some m) ++ d = place (some n) ++ e := h
  rw [← String.toList_inj, String.toList_append, String.toList_append] at h
  obtain ⟨hp, hd⟩ := selfDelimiting_place h
  exact ⟨Option.some.inj hp, String.toList_injective hd⟩

theorem eq_of_atOffset_around {m n : Nat} {before d e after : String}
    (h : atOffset m (before ++ d ++ after) = atOffset n (before ++ e ++ after)) : m = n ∧ d = e := by
  obtain ⟨ho, hd⟩ := eq_of_atOffset h
  exact ⟨ho, (String.append_right_inj _).1 ((String.append_left_inj _).1 hd)⟩

namespace Failure

/-- The character behind the place in a message. -/
def initial : Failure → Char
  | literal _ => '\''
  | fault .endOfInput | fault (.unexpectedToken ..) => 'U'
  | fault (.missingOperator _) => 'E'
  | fault (.leadingOperator ..) => 'O'
  | fault (.divisionByZero _) => 'D'
  | fault (.notANumber ..) => 'R'

theorem exists_message_eq (e : Failure) :
    ∃ detail, e.message = place e.offset? ++ detail ∧ detail.toList.head? = some e.initial := by
  cases e with
  | literal e => exact ⟨_, rfl, by simp [initial]⟩
  | fault f =>
      cases f with
      | endOfInput => exact ⟨"Unexpected end of input.", by decide, by decide⟩
      | unexpectedToken | missingOperator | leadingOperator | divisionByZero | notANumber =>
          exact ⟨_, rfl, by simp [initial]⟩

theorem eq_of_message {a b : Failure} (h : a.message = b.message) :
    a.offset? = b.offset? ∧ a.initial = b.initial := by
  obtain ⟨d, ha, hd⟩ := exists_message_eq a
  obtain ⟨e, hb, he⟩ := exists_message_eq b
  rw [ha, hb, ← String.toList_inj, String.toList_append, String.toList_append] at h
  obtain ⟨hp, hde⟩ := selfDelimiting_place h
  rw [hde, he] at hd
  exact ⟨hp, (Option.some.inj hd).symm⟩

theorem message_injective {a b : Failure} (h : a.message = b.message) : a = b := by
  obtain ⟨ho, hi⟩ := eq_of_message h
  revert h
  -- The place and the character behind it tell which failure it is, so only the fields are left. The
  -- messages stay out of the match, which would evaluate them.
  match a, b, ho, hi with
  | literal ⟨text, m⟩, literal ⟨text', n⟩, _, _ =>
      intro h
      obtain ⟨rfl, rfl⟩ := eq_of_atOffset_around h
      rfl
  | fault .endOfInput, fault .endOfInput, _, _ => exact fun _ => rfl
  | fault (.unexpectedToken t m), fault (.unexpectedToken u n), _, _ =>
      intro h
      obtain ⟨rfl, ht⟩ := eq_of_atOffset_around h
      rw [Token.text_injective ht]
  | fault (.missingOperator m), fault (.missingOperator n), ho, _ =>
      exact fun _ => congrArg (fault ∘ .missingOperator) (Option.some.inj ho)
  | fault (.leadingOperator op m), fault (.leadingOperator op' n), _, _ =>
      intro h
      obtain ⟨rfl, hop⟩ := eq_of_atOffset_around h
      rw [Operator.text_injective hop]
  | fault (.divisionByZero m), fault (.divisionByZero n), ho, _ =>
      exact fun _ => congrArg (fault ∘ .divisionByZero) (Option.some.inj ho)
  | fault (.notANumber op m), fault (.notANumber op' n), _, _ =>
      intro h
      obtain ⟨rfl, hop⟩ := eq_of_atOffset_around h
      rw [Operator.text_injective hop]

end Failure

namespace Record

variable {source : String} {e : Failure}

theorem failed_text_injective {s t : String} {a b : Failure} (h : (failed s a).text = (failed t b).text) :
    failed s a = failed t b := by
  have hm : (failed s a).message = (failed t b).message := (String.append_right_inj _).1 h
  simp only [message, ← String.toList_inj, String.toList_append, List.append_assoc] at hm
  obtain ⟨rfl, hd⟩ := Text.selfDelimiting_quoted hm
  rw [Failure.message_injective (String.toList_injective (List.append_cancel_left hd))]

theorem eq_failed_of_text {r : Record} (h : r.text = (failed source e).text) : r = failed source e := by
  have hd : r.isDebug = true := by
    rw [isDebug, h]
    exact isDebug_failed source e
  cases r with
  | tokenized s count => simp at hd
  | split | step =>
      rw [IsWork.isDebug_eq] at hd
      · cases hd
      · trivial
  | failed t b => exact failed_text_injective h

end Record

/-- No two failures are reported alike, and a line of the log that reports one shows its source as well. -/
theorem report_identifies_failure :
    (∀ a b : Failure, a.message = b.message ↔ a = b) ∧
      ∀ (r : Record) (source : String) (e : Failure),
        r.text = (Record.failed source e).text ↔ r = .failed source e := by
  constructor
  · intro a b
    exact ⟨Failure.message_injective, congrArg Failure.message⟩
  · intro r source e
    exact ⟨Record.eq_failed_of_text, congrArg Record.text⟩

end Calculator
