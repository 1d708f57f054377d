import Calculator.Source
import Mathlib.Data.List.Basic

namespace Calculator

def symbolTable : List (Char × Token) :=
  [('+', .operator .add), ('-', .operator .sub), ('*', .operator .mul), ('/', .operator .div),
    ('^', .operator .pow), ('(', .openParen), (')', .closeParen)]

def Delimiter (c : Char) : Prop := Text.isBlank c = true ∨ c ∈ symbolTable.map Prod.fst

instance : DecidablePred Delimiter := fun c =>
  inferInstanceAs (Decidable (Text.isBlank c = true ∨ c ∈ symbolTable.map Prod.fst))

theorem Delimiter.of_mem {c : Char} {t : Token} (h : (c, t) ∈ symbolTable) : Delimiter c :=
  .inr (List.mem_map_of_mem h)

theorem Token.ofSymbol?_eq_some_iff {c : Char} {t : Token} : ofSymbol? c = some t ↔ (c, t) ∈ symbolTable := by
  constructor
  · intro h
    unfold ofSymbol? at h
    split at h
    case h_1 | h_2 => cases h; decide
    case h_3 =>
      obtain ⟨op, hop, rfl⟩ := Option.map_eq_some_iff.1 h
      rw [Operator.ofSymbol?_eq_some_iff] at hop
      subst hop
      cases op <;> decide
  · intro h
    simp only [symbolTable, List.mem_cons, Prod.mk.injEq, List.not_mem_nil, or_false] at h
    rcases h with ⟨rfl, rfl⟩ | ⟨rfl, rfl⟩ | ⟨rfl, rfl⟩ | ⟨rfl, rfl⟩ | ⟨rfl, rfl⟩ | ⟨rfl, rfl⟩ | ⟨rfl, rfl⟩ <;> rfl

theorem isBlank_of_mem_symbolTable {c : Char} {t : Token} (h : (c, t) ∈ symbolTable) : Text.isBlank c = false := by
  have hall : ∀ s ∈ symbolTable, Text.isBlank s.1 = false := by decide
  exact hall (c, t) h

theorem Token.ofSymbol?_eq_none {c : Char} (h : ¬ Delimiter c) : ofSymbol? c = none := by
  cases ht : ofSymbol? c with
  | none => rfl
  | some t => exact absurd (Delimiter.of_mem (ofSymbol?_eq_some_iff.1 ht)) h

/-- A text cut into blanks, symbols and words, where a word ends only at a blank, at a
symbol or at the end of the text. -/
inductive Segmented : List Char → List Piece → Prop
  | nil : Segmented [] []
  | blank (c : Char) {cs : List Char} {ps : List Piece} (hc : Text.isBlank c = true) (h : Segmented cs ps) :
      Segmented (c :: cs) (.blank c :: ps)
  | symbol (c : Char) (t : Token) {cs : List Char} {ps : List Piece} (ht : (c, t) ∈ symbolTable)
      (h : Segmented cs ps) : Segmented (c :: cs) (.symbol t :: ps)
  | word (w : List Char) {cs : List Char} {ps : List Piece} (hne : w ≠ []) (hw : ∀ c ∈ w, ¬ Delimiter c)
      (hnext : ∀ c ∈ cs.head?, Delimiter c) (h : Segmented cs ps) : Segmented (w ++ cs) (.word w :: ps)

namespace Piece

theorem cons_blank {c : Char} (hc : Text.isBlank c = true) (ps : List Piece) : cons c ps = blank c :: ps :=
  if_pos hc

theorem cons_symbol {c : Char} {t : Token} (h : (c, t) ∈ symbolTable) (ps : List Piece) :
    cons c ps = symbol t :: ps := by
  simp [cons, isBlank_of_mem_symbolTable h, Token.ofSymbol?_eq_some_iff.2 h]

theorem cons_word {c : Char} (hc : ¬ Delimiter c) (w : List Char) (ps : List Piece) :
    cons c (word w :: ps) = word (c :: w) :: ps := by
  have hb : ¬ Text.isBlank c = true := fun h => hc (.inl h)
  simp [cons, hb, Token.ofSymbol?_eq_none hc]

theorem cons_alone {c : Char} (hc : ¬ Delimiter c) {ps : List Piece} (hps : ∀ w qs, ps ≠ word w :: qs) :
    cons c ps = word [c] :: ps := by
  have hb : ¬ Text.isBlank c = true := fun h => hc (.inl h)
  cases ps with
  | nil => simp [cons, hb, Token.ofSymbol?_eq_none hc]
  | cons p ps =>
      cases p with
      | word w => exact absurd rfl (hps w ps)
      | blank | symbol => simp [cons, hb, Token.ofSymbol?_eq_none hc]

end Piece

theorem segmented_pieces (cs : List Char) : Segmented cs (pieces cs) := by
  induction cs with
  | nil => exact .nil
  | cons c cs ih =>
      change Segmented (c :: cs) (Piece.cons c (pieces cs))
      by_cases hc : Delimiter c
      · rcases hc with hb | hs
        · rw [Piece.cons_blank hb]
          exact .blank c hb ih
        · obtain ⟨⟨_, t⟩, ht, rfl⟩ := List.mem_map.1 hs
          rw [Piece.cons_symbol ht]
          exact .symbol _ t ht ih
      · have alone (hps : ∀ w qs, pieces cs ≠ .word w :: qs) (hnext : ∀ d ∈ cs.head?, Delimiter d) :
            Segmented (c :: cs) (Piece.cons c (pieces cs)) := by
          rw [Piece.cons_alone hc hps]
          exact .word [c] (List.cons_ne_nil _ _) (by simpa using hc) hnext ih
        -- `ih` tells what the rest begins with, and only a word there takes `c` in.
        generalize pieces cs = ps at ih alone ⊢
        cases ih with
        | nil => exact alone (by simp) (by simp)
        | blank d hd => exact alone (by simp) (by simpa using .inl hd)
        | symbol d t ht => exact alone (by simp) (by simpa using Delimiter.of_mem ht)
        | word w hne hw hnext h =>
            rw [Piece.cons_word hc, ← List.cons_append]
            exact .word (c :: w) (List.cons_ne_nil _ _) (by simpa using ⟨hc, hw⟩) hnext h

theorem pieces_word_append {w cs : List Char} (hne : w ≠ []) (hw : ∀ c ∈ w, ¬ Delimiter c)
    (hcs : ∀ v qs, pieces cs ≠ .word v :: qs) : pieces (w ++ cs) = .word w :: pieces cs := by
  induction w with
  | nil => exact absurd rfl hne
  | cons c w ih =>
      rw [List.forall_mem_cons] at hw
      change Piece.cons c (pieces (w ++ cs)) = _
      cases w with
      | nil => exact Piece.cons_alone hw.1 hcs
      | cons d w => rw [ih (List.cons_ne_nil _ _) hw.2, Piece.cons_word hw.1]

namespace Segmented

variable {cs : List Char} {ps : List Piece}

theorem ne_word (h : Segmented cs ps) (hcs : ∀ c ∈ cs.head?, Delimiter c) (w : List Char) (qs : List Piece) :
    ps ≠ .word w :: qs := by
  rintro rfl
  cases h with
  | word w hne hw =>
      obtain ⟨c, w, rfl⟩ := List.exists_cons_of_ne_nil hne
      exact hw c (List.mem_cons_self ..) (hcs c rfl)

theorem pieces_eq (h : Segmented cs ps) : pieces cs = ps := by
  induction h with
  | nil => rfl
  | blank c hc h ih => exact (congrArg (Piece.cons c) ih).trans (Piece.cons_blank hc _)
  | symbol c t ht h ih => exact (congrArg (Piece.cons c) ih).trans (Piece.cons_symbol ht _)
  | word w hne hw hnext h ih =>
      rw [pieces_word_append hne hw, ih]
      rw [ih]
      exact h.ne_word hnext

theorem chars_ne_nil (h : Segmented cs ps) : ∀ p ∈ ps, p.chars ≠ [] := by
  induction h with
  | nil => simp
  | blank c hc h ih =>
      rw [List.forall_mem_cons]
      exact ⟨List.cons_ne_nil _ _, ih⟩
  | symbol c t ht h ih =>
      rw [List.forall_mem_cons]
      refine ⟨?_, ih⟩
      rw [Piece.chars, Token.text_of_ofSymbol? (Token.ofSymbol?_eq_some_iff.2 ht)]
      exact List.cons_ne_nil _ _
  | word w hne hw hnext h ih =>
      rw [List.forall_mem_cons]
      exact ⟨hne, ih⟩

end Segmented

theorem segmented_iff {cs : List Char} {ps : List Piece} : Segmented cs ps ↔ pieces cs = ps := by
  constructor
  · exact Segmented.pieces_eq
  · rintro rfl
    exact segmented_pieces cs

/-- No word runs across from one text into the next. -/
def Apart (a b : List Char) : Prop :=
  a = [] ∨ b = [] ∨ (∃ c ∈ a.getLast?, Delimiter c) ∨ ∃ c ∈ b.head?, Delimiter c

theorem apart_iff_any {a b : List Char} :
    a = [] ∨ b = [] ∨ a.getLast?.any (Delimiter ·) = true ∨ b.head?.any (Delimiter ·) = true ↔ Apart a b := by
  simp only [Apart, Option.any_eq_true, decide_eq_true_eq, Option.mem_def]

instance (a b : List Char) : Decidable (Apart a b) := decidable_of_iff _ apart_iff_any

theorem Apart.of_delimiter {a b : List Char} (h : ∀ c ∈ b.head?, Delimiter c) : Apart a b := by
  cases b with
  | nil => exact .inr (.inl rfl)
  | cons c b => exact .inr (.inr (.inr ⟨c, rfl, h c rfl⟩))

theorem Apart.of_append {a b c : List Char} (h : Apart (a ++ b) c) : Apart b c := by
  by_cases hb : b = []
  · exact .inl hb
  · rcases h with h | h | h | h
    · exact .inl (List.append_eq_nil_iff.1 h).2
    · exact .inr (.inl h)
    · rw [List.getLast?_append_of_ne_nil _ hb] at h
      exact .inr (.inr (.inl h))
    · exact .inr (.inr (.inr h))

theorem Apart.delimiter_of_word {w b : List Char} (h : Apart w b) (hne : w ≠ []) (hw : ∀ c ∈ w, ¬ Delimiter c) :
    ∀ c ∈ b.head?, Delimiter c := by
  rcases h with h | rfl | ⟨c, hc, hd⟩ | ⟨c, hc, hd⟩
  · exact absurd h hne
  · simp
  · exact absurd hd (hw c (List.mem_of_getLast? hc))
  · intro d hdm
    rw [Option.mem_unique hdm hc]
    exact hd

theorem Segmented.append {a b : List Char} {ps qs : List Piece} (ha : Segmented a ps) (hb : Segmented b qs)
    (h : Apart a b) : Segmented (a ++ b) (ps ++ qs) := by
  induction ha with
  | nil => exact hb
  | blank c hc _ ih => exact .blank c hc (ih (Apart.of_append (a := [c]) h))
  | symbol c t ht _ ih => exact .symbol c t ht (ih (Apart.of_append (a := [c]) h))
  | @word w cs ps hne hw hnext _ ih =>
      rw [List.append_assoc]
      refine .word w hne hw ?_ (ih h.of_append)
      cases cs with
      | nil =>
          rw [List.append_nil] at h
          exact h.delimiter_of_word hne hw
      | cons c cs => exact hnext

theorem pieces_append {a b : List Char} (h : Apart a b) : pieces (a ++ b) = pieces a ++ pieces b :=
  ((segmented_pieces a).append (segmented_pieces b) h).pieces_eq

end Calculator
