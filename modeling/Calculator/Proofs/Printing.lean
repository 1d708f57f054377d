import Calculator.Proofs.Joining
import Mathlib.Data.List.Chain

namespace Calculator

theorem not_delimiter_of_isDigit {c : Char} (h : c.isDigit = true) : ¬ Delimiter c := by
  rintro (hb | hs)
  · obtain ⟨r, hr, hl⟩ := (Text.within_iff Text.ascending_blankRanges).1 hb
    have hc : 48 ≤ c.toNat ∧ c.toNat ≤ 57 := by
      simp only [Char.isDigit, Bool.and_eq_true, decide_eq_true_eq] at h
      exact h
    have hall : ∀ r ∈ Text.blankRanges, r.2 < 48 ∨ 57 < r.1 := by decide
    have := hall r hr
    omega
  · obtain ⟨s, hm, rfl⟩ := List.mem_map.1 hs
    have hall : ∀ s ∈ symbolTable, s.1.isDigit = false := by decide
    rw [hall s hm] at h
    cases h

namespace Token

theorem spells_text_of_mem_symbolTable {c : Char} {t : Token} (h : (c, t) ∈ symbolTable) :
    Spells 0 (pieces t.text.toList) [⟨t, 0⟩] := by
  rw [text_of_mem_symbolTable h]
  change Spells 0 (Piece.cons c []) _
  rw [Piece.cons_symbol h]
  exact .symbol t (.nil _)

theorem spells_text_integer {n : Int64} {k : Nat} (h : n.toInt = k) :
    Spells 0 (pieces (integer n).text.toList) [⟨.integer n, 0⟩] := by
  have htext : (integer n).text.toList = Numeral.digits k := by
    rw [text, h]
    exact String.toList_ofList
  have hread := Numeral.read?_digits h
  obtain ⟨hvalid, hn⟩ := Numeral.read?_eq_some_iff.1 hread
  have hseg : Segmented (Numeral.digits k ++ []) [.word (Numeral.digits k)] :=
    .word _ hvalid.ne_nil (fun c hc => not_delimiter_of_isDigit (hvalid.isDigit c hc)) (by simp) .nil
  rw [List.append_nil] at hseg
  rw [htext, hseg.pieces_eq]
  exact .word _ n hvalid hn (.nil _)

theorem Readable.lexemes_text {t : Token} (h : t.Readable) : lexemes t.text = .ok [⟨t, 0⟩] := by
  rw [lexemes_eq_ok_iff]
  rcases h.symbol_or_integer with ⟨c, hc⟩ | ⟨n, rfl, k, hk⟩
  · exact spells_text_of_mem_symbolTable hc
  · exact spells_text_integer hk

end Token

/-- A token and what stands between it and the one before. -/
structure Spaced where
  gap : String
  token : Token
  deriving DecidableEq

namespace Spaced

def text (x : Spaced) : String := x.gap ++ x.token.text

def lexemesFrom : Nat → List Spaced → List Lexeme
  | _, [] => []
  | offset, x :: xs => ⟨x.token, offset + x.gap.utf8ByteSize⟩ :: lexemesFrom (offset + x.text.utf8ByteSize) xs

def line (xs : List Spaced) (tail : String) : String := String.join (xs.map text) ++ tail

/-- Only two integers need something between them. -/
structure Separated (xs : List Spaced) (tail : String) : Prop where
  blank_gap : ∀ x ∈ xs, Blank x.gap
  blank_tail : Blank tail
  readable : ∀ x ∈ xs, x.token.Readable
  gap_ne : xs.IsChain fun x y => (∃ m, x.token = .integer m) → (∃ n, y.token = .integer n) → y.gap ≠ ""

theorem lexemesFrom_add (start offset : Nat) (xs : List Spaced) :
    lexemesFrom (start + offset) xs = (lexemesFrom offset xs).map (Lexeme.relocate (start + ·)) := by
  induction xs generalizing offset with
  | nil => rfl
  | cons x xs ih => simp [lexemesFrom, Lexeme.relocate, ← ih, Nat.add_assoc]

theorem line_cons (x : Spaced) (xs : List Spaced) (tail : String) :
    line (x :: xs) tail = x.gap ++ (x.token.text ++ line xs tail) := by
  simp [line, text, String.append_assoc]

namespace Separated

variable {x : Spaced} {xs : List Spaced} {tail : String}

theorem tail_of_cons (h : Separated (x :: xs) tail) : Separated xs tail where
  blank_gap y hy := h.blank_gap y (List.mem_cons_of_mem _ hy)
  blank_tail := h.blank_tail
  readable y hy := h.readable y (List.mem_cons_of_mem _ hy)
  gap_ne := (List.isChain_cons.1 h.gap_ne).2

theorem delimiter_after_integer (h : Separated (x :: xs) tail) (hx : ∃ n, x.token = .integer n) :
    ∀ c ∈ (line xs tail).toList.head?, Delimiter c := by
  cases xs with
  | nil =>
      rw [line, List.map_nil, String.join_nil, String.empty_append]
      intro c hc
      exact .inl (h.blank_tail c (List.mem_of_head? hc))
  | cons y ys =>
      have hm : y ∈ x :: y :: ys := List.mem_cons_of_mem _ (List.mem_cons_self ..)
      rw [line_cons, String.toList_append, String.toList_append]
      cases hgap : y.gap.toList with
      | cons c cs =>
          intro d hd
          obtain rfl : c = d := Option.some.inj hd
          exact .inl (h.blank_gap y hm c (by simp [hgap]))
      | nil =>
          rcases (h.readable y hm).symbol_or_integer with ⟨c, hc⟩ | ⟨n, hn, _⟩
          · rw [Token.text_of_mem_symbolTable hc]
            intro d hd
            obtain rfl : c = d := Option.some.inj hd
            exact .of_mem hc
          · have hne := (List.isChain_cons_cons.1 h.gap_ne).1 hx ⟨n, hn⟩
            exact absurd (String.toList_eq_nil_iff.1 hgap) hne

theorem lexemes_line (h : Separated xs tail) : lexemes (line xs tail) = .ok (lexemesFrom 0 xs) := by
  induction xs with
  | nil =>
      rw [line, List.map_nil, String.join_nil, String.empty_append, h.blank_tail.lexemes_eq]
      rfl
  | cons x xs ih =>
      have hapart : Apart x.token.text.toList (line xs tail).toList := by
        rcases (h.readable x (List.mem_cons_self ..)).symbol_or_integer with ⟨c, hc⟩ | ⟨n, hn, _⟩
        · rw [Token.text_of_mem_symbolTable hc]
          exact .inr (.inr (.inl ⟨c, rfl, .of_mem hc⟩))
        · exact .of_delimiter (h.delimiter_after_integer ⟨n, hn⟩)
      rw [line_cons, (h.blank_gap x (List.mem_cons_self ..)).lexemes_append, lexemes_append hapart,
        (h.readable x (List.mem_cons_self ..)).lexemes_text, ih h.tail_of_cons]
      change Except.ok (⟨x.token, x.gap.utf8ByteSize + 0⟩ ::
        ((lexemesFrom 0 xs).map (Lexeme.relocate (x.token.text.utf8ByteSize + ·))).map
          (Lexeme.relocate (x.gap.utf8ByteSize + ·))) = _
      rw [← lexemesFrom_add, ← lexemesFrom_add, lexemesFrom, text, String.utf8ByteSize_append]
      simp only [Nat.add_zero, Nat.zero_add]

end Separated

def single (gap : String) : List Token → List Spaced
  | [] => []
  | t :: ts => ⟨gap, t⟩ :: single " " ts

theorem mem_single {gap : String} {ts : List Token} {x : Spaced} (h : x ∈ single gap ts) :
    (x.gap = gap ∨ x.gap = " ") ∧ x.token ∈ ts := by
  induction ts generalizing gap with
  | nil => cases h
  | cons t ts ih =>
      rcases List.mem_cons.1 h with rfl | h
      · exact ⟨.inl rfl, List.mem_cons_self ..⟩
      · obtain ⟨hg, ht⟩ := ih h
        exact ⟨.inr (hg.elim id id), List.mem_cons_of_mem _ ht⟩

theorem line_single (gap : String) (t : Token) (ts : List Token) :
    line (single gap (t :: ts)) "" = gap ++ " ".intercalate ((t :: ts).map Token.text) := by
  induction ts generalizing gap t with
  | nil => simp [single, line, text]
  | cons u us ih =>
      rw [single, line_cons, ih]
      simp [String.append_assoc]

theorem line_single_empty (ts : List Token) : line (single "" ts) "" = " ".intercalate (ts.map Token.text) := by
  cases ts with
  | nil => simp [single, line]
  | cons t ts => rw [line_single, String.empty_append]

theorem isChain_single (gap : String) (ts : List Token) : (single gap ts).IsChain fun _ y => y.gap ≠ "" := by
  induction ts generalizing gap with
  | nil => exact .nil
  | cons t ts ih =>
      refine List.isChain_cons.2 ⟨?_, ih " "⟩
      intro y hy
      cases ts with
      | nil => cases hy
      | cons u us =>
          cases hy
          simp

theorem separated_single {ts : List Token} (h : ∀ t ∈ ts, t.Readable) : Separated (single "" ts) "" where
  blank_gap x hx := by
    rcases (mem_single hx).1 with hg | hg <;> rw [hg] <;> decide
  blank_tail := by decide
  readable x hx := h x.token (mem_single hx).2
  gap_ne := (isChain_single "" ts).imp fun _ _ h _ _ => h

theorem map_token_lexemesFrom (offset : Nat) (xs : List Spaced) :
    (lexemesFrom offset xs).map Lexeme.token = xs.map Spaced.token := by
  induction xs generalizing offset with
  | nil => rfl
  | cons x xs ih => rw [lexemesFrom, List.map_cons, ih, List.map_cons]

theorem map_token_single (gap : String) (ts : List Token) : (single gap ts).map Spaced.token = ts := by
  induction ts generalizing gap with
  | nil => rfl
  | cons t ts ih => rw [single, List.map_cons, ih]

theorem exists_lexemes_intercalate {ts : List Token} (h : ∀ t ∈ ts, t.Readable) :
    ∃ us, lexemes (" ".intercalate (ts.map Token.text)) = .ok us ∧ us.map Lexeme.token = ts := by
  refine ⟨lexemesFrom 0 (single "" ts), ?_, ?_⟩
  · rw [← line_single_empty, (separated_single h).lexemes_line]
  · rw [map_token_lexemesFrom, map_token_single]

end Spaced

/-- Reading undoes writing, whatever blanks the tokens are written with, and what has been read
can be written with single spaces. -/
theorem lexemes_undoes_text :
    (∀ xs tail, Spaced.Separated xs tail → lexemes (Spaced.line xs tail) = .ok (Spaced.lexemesFrom 0 xs)) ∧
      ∀ source ts, lexemes source = .ok ts →
        ∃ us, lexemes (" ".intercalate (ts.map (·.token.text))) = .ok us ∧
          us.map Lexeme.token = ts.map Lexeme.token := by
  constructor
  · intro xs tail h
    exact h.lexemes_line
  · intro source ts h
    have hread : ∀ t ∈ ts.map Lexeme.token, t.Readable := by
      simpa using readable_of_lexemes h
    simpa [Function.comp_def] using Spaced.exists_lexemes_intercalate hread

def ideographic : List Spaced :=
  [⟨"\t", .integer 7⟩, ⟨"\u3000", .integer 9223372036854775807⟩, ⟨"", .operator .pow⟩, ⟨"", .openParen⟩]

theorem lexemes_ideographic :
    Spaced.Separated ideographic "\n" ∧
      lexemes "\t7\u30009223372036854775807^(\n" =
        .ok [⟨.integer 7, 1⟩, ⟨.integer 9223372036854775807, 5⟩, ⟨.operator .pow, 24⟩, ⟨.openParen, 25⟩] ∧
      ∃ us, lexemes "7 9223372036854775807 ^ (" = .ok us ∧
        us.map Lexeme.token = [.integer 7, .integer 9223372036854775807, .operator .pow, .openParen] := by
  obtain ⟨hline, hsource⟩ := lexemes_undoes_text
  have hsep : Spaced.Separated ideographic "\n" := by
    refine ⟨by decide, by decide, ?_, ?_⟩
    · simp [ideographic, Token.Readable]
    · simp [ideographic]
  have hline' := hline ideographic "\n" hsep
  rw [show Spaced.line ideographic "\n" = "\t7\u30009223372036854775807^(\n" by decide +kernel,
    show Spaced.lexemesFrom 0 ideographic =
      [⟨.integer 7, 1⟩, ⟨.integer 9223372036854775807, 5⟩, ⟨.operator .pow, 24⟩, ⟨.openParen, 25⟩] by decide +kernel]
    at hline'
  have hprinted := hsource _ _ hline'
  rw [show " ".intercalate _ = "7 9223372036854775807 ^ (" by decide +kernel] at hprinted
  exact ⟨hsep, hline', hprinted⟩

end Calculator
