import Calculator.Proofs.Reading

namespace Calculator

def StandsAt (source : String) (offset : Nat) (text : String) : Prop :=
  ∃ before after, source = before ++ text ++ after ∧ before.utf8ByteSize = offset

variable {source text : String} {offset : Nat} {before after : List Piece} {p : Piece} {ts : List Lexeme}
  {t : Lexeme} {e : InvalidLiteral}

namespace StandsAt

theorem isValid (h : StandsAt source offset text) : (⟨offset⟩ : String.Pos.Raw).IsValid source := by
  obtain ⟨before, after, rfl, rfl⟩ := h
  rw [String.append_assoc, String.Pos.Raw.isValid_iff_exists_append]
  exact ⟨before, text ++ after, rfl, rfl⟩

theorem lt (h : StandsAt source offset text) (hne : text ≠ "") : offset < source.utf8ByteSize := by
  obtain ⟨before, after, rfl, rfl⟩ := h
  have hpos : text.utf8ByteSize ≠ 0 := fun hz => hne (String.utf8ByteSize_eq_zero_iff.1 hz)
  rw [String.utf8ByteSize_append, String.utf8ByteSize_append]
  omega

end StandsAt

theorem standsAt_of_pieces (h : pieces source.toList = before ++ p :: after) :
    StandsAt source (Piece.totalSize before) (String.ofList p.chars) := by
  refine ⟨String.ofList (before.flatMap Piece.chars), String.ofList (after.flatMap Piece.chars), ?_, rfl⟩
  have hs := chars_pieces source.toList
  rw [h, List.flatMap_append, List.flatMap_cons] at hs
  rw [← String.ofList_append, ← String.ofList_append, List.append_assoc, hs, String.ofList_toList]

theorem text_ne_empty_of_pieces (h : pieces source.toList = before ++ p :: after) : String.ofList p.chars ≠ "" := by
  have hm : p ∈ pieces source.toList := by
    rw [h]
    exact List.mem_append_right _ (List.mem_cons_self ..)
  rw [Ne, String.ofList_eq_empty_iff]
  exact (segmented_pieces source.toList).chars_ne_nil p hm

/-- What stands where a lexeme starts is its token, unless that is an integer, which can be
written in many ways. -/
theorem standsAt_of_lexemes (h : lexemes source = .ok ts) (ht : t ∈ ts) :
    ∃ text, text ≠ "" ∧ StandsAt source t.offset text ∧ (text = t.token.text ∨ ∃ n, t.token = .integer n) := by
  obtain ⟨before, p, after, hps, ho, hp⟩ := (lexemes_eq_ok_iff.1 h).comesFrom t ht
  rw [Nat.zero_add] at ho
  refine ⟨String.ofList p.chars, text_ne_empty_of_pieces hps, ?_, ?_⟩
  · rw [ho]
    exact standsAt_of_pieces hps
  · rcases hp with rfl | hn
    · exact .inl (by rw [Piece.chars, String.ofList_toList])
    · exact .inr hn

theorem standsAt_literal (h : lexemes source = .error e) : e.literal ≠ "" ∧ StandsAt source e.offset e.literal := by
  obtain ⟨before, w, after, hps, _, _, rfl⟩ := lexemes_eq_error_iff.1 h
  have hne := text_ne_empty_of_pieces hps
  have hs := standsAt_of_pieces hps
  rw [Piece.chars] at hne hs
  rw [Nat.zero_add]
  exact ⟨hne, hs⟩

theorem offset_lt_of_lexemes (h : lexemes source = .ok ts) (ht : t ∈ ts) : t.offset < source.utf8ByteSize := by
  obtain ⟨text, hne, hs, _⟩ := standsAt_of_lexemes h ht
  exact hs.lt hne

theorem offset_lt_of_lexemes_eq_error (h : lexemes source = .error e) : e.offset < source.utf8ByteSize := by
  obtain ⟨hne, hs⟩ := standsAt_literal h
  exact hs.lt hne

end Calculator
