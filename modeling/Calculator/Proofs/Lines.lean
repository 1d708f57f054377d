import Calculator.Prompt
import Calculator.Proofs.Encoding

namespace Calculator.Prompt

open Text

variable {ls : List Line} {a : List UInt8} {cs : List Char}

theorem lines_cons (b : UInt8) (a : List UInt8) : lines (b :: a) = Line.cons b (lines a) := rfl

theorem Line.cons_append (b : UInt8) (h : ls ≠ []) (ms : List Line) : cons b (ls ++ ms) = cons b ls ++ ms := by
  obtain ⟨l, ls, rfl⟩ := List.exists_cons_of_ne_nil h
  by_cases hb : b = newline <;> simp [cons, hb]

theorem Line.cons_ne_nil (b : UInt8) (ls : List Line) : cons b ls ≠ [] := by
  unfold cons
  split
  · exact List.cons_ne_nil _ _
  · split <;> exact List.cons_ne_nil _ _

theorem lines_ne_nil (h : a ≠ []) : lines a ≠ [] := by
  obtain ⟨b, a, rfl⟩ := List.exists_cons_of_ne_nil h
  exact Line.cons_ne_nil b (lines a)

theorem lines_append_newline (a b : List UInt8) : lines (a ++ newline :: b) = lines (a ++ [newline]) ++ lines b := by
  induction a with
  | nil => rfl
  | cons c a ih =>
      have hne : lines (a ++ [newline]) ≠ [] := lines_ne_nil (by simp)
      rw [List.cons_append, List.cons_append, lines_cons, lines_cons, ih, Line.cons_append c hne]

theorem lines_single (h : newline ∉ a) : lines (a ++ [newline]) = [⟨a, true⟩] := by
  induction a with
  | nil => rfl
  | cons c a ih =>
      rw [List.mem_cons, not_or] at h
      rw [List.cons_append, lines_cons, ih h.2, Line.cons, if_neg (Ne.symm h.1)]

theorem lines_of_not_mem (h : newline ∉ a) (hne : a ≠ []) : lines a = [⟨a, false⟩] := by
  induction a with
  | nil => exact absurd rfl hne
  | cons c a ih =>
      rw [List.mem_cons, not_or] at h
      rw [lines_cons]
      by_cases ha : a = []
      · rw [ha, lines, List.foldr_nil, Line.cons, if_neg (Ne.symm h.1)]
      · rw [ih h.2 ha, Line.cons, if_neg (Ne.symm h.1)]

theorem foldl_keep (h : backspace ∉ cs) (kept : List Char) : cs.foldl keep kept = cs.reverse ++ kept := by
  induction cs generalizing kept with
  | nil => rfl
  | cons c cs ih =>
      rw [List.mem_cons, not_or] at h
      rw [List.foldl_cons, keep, if_neg (Ne.symm h.1), ih h.2, List.reverse_cons, List.append_assoc]
      rfl

theorem erase_ofList (h : backspace ∉ cs) : erase (String.ofList cs) = String.ofList cs := by
  rw [erase, String.toList_ofList, foldl_keep h, List.append_nil, List.reverse_reverse]

def trimReturn (cs : List Char) : List Char := if cs.getLast? = some '\r' then cs.dropLast else cs

theorem trimReturn_subset (cs : List Char) : trimReturn cs ⊆ cs := by
  unfold trimReturn
  split
  · exact List.dropLast_subset cs
  · exact List.Subset.refl cs

/-- The lines that stand between newlines. What follows the last of them is a line only if there is something. -/
def linesOfPieces : List (List Char) → List String
  | piece :: next :: pieces => erase (String.ofList (trimReturn piece)) :: linesOfPieces (next :: pieces)
  | [last] => if last = [] then [] else [erase (String.ofList last)]
  | [] => []

def textLines (s : String) : List String := linesOfPieces (s.toList.splitOn '\n')

theorem newline_mem_encodeChars_iff : newline ∈ encodeChars cs ↔ '\n' ∈ cs :=
  mem_encodeChars_iff (d := '\n') (by decide)

theorem carriageReturn_mem_utf8EncodeChar {c : Char} (h : carriageReturn ∈ String.utf8EncodeChar c) : c = '\r' :=
  eq_of_mem_utf8EncodeChar (d := '\r') (by decide) h

theorem content_ended (cs : List Char) : Line.content ⟨encodeChars cs, true⟩ = encodeChars (trimReturn cs) := by
  rcases List.eq_nil_or_concat cs with rfl | ⟨ds, c, rfl⟩
  · rfl
  · rw [List.concat_eq_append]
    by_cases hc : c = '\r'
    · subst hc
      have hb : encodeChars (ds ++ ['\r']) = encodeChars ds ++ [carriageReturn] := encodeChars_append ds ['\r']
      simp [Line.content, trimReturn, hb]
    · have hlast : (String.utf8EncodeChar c).getLast? ≠ some carriageReturn := fun h =>
        hc (carriageReturn_mem_utf8EncodeChar (List.mem_of_getLast? h))
      have hb : (encodeChars (ds ++ [c])).getLast? = (String.utf8EncodeChar c).getLast? := by
        rw [encodeChars_append, encodeChars_cons, encodeChars_nil, List.append_nil, List.getLast?_append]
        rw [List.getLast?_eq_some_getLast String.utf8EncodeChar_ne_nil]
        rfl
      simp only [Line.content, trimReturn, hb]
      simp [hlast, hc]

theorem source?_ended (cs : List Char) :
    Line.source? ⟨encodeChars cs, true⟩ = some (erase (String.ofList (trimReturn cs))) := by
  rw [Line.source?, content_ended, decode?_encodeChars]
  rfl

theorem source?_unended (cs : List Char) : Line.source? ⟨encodeChars cs, false⟩ = some (erase (String.ofList cs)) := by
  have hc : Line.content ⟨encodeChars cs, false⟩ = encodeChars cs := rfl
  rw [Line.source?, hc, decode?_encodeChars]
  rfl

/-- The lines in the bytes of a text are those between the newlines in the text. -/
theorem map_source?_lines (cs : List Char) :
    (lines (encodeChars cs)).map Line.source? = (linesOfPieces (cs.splitOn '\n')).map some := by
  by_cases h : '\n' ∈ cs
  · obtain ⟨piece, rest, hcs, hp⟩ := List.eq_append_cons_of_mem h
    have hlt : rest.length < cs.length := by
      rw [hcs, List.length_append, List.length_cons]
      omega
    have ih := map_source?_lines rest
    have hb : encodeChars (piece ++ '\n' :: rest) = encodeChars piece ++ newline :: encodeChars rest :=
      encodeChars_append piece ('\n' :: rest)
    obtain ⟨next, pieces, hrest⟩ := List.exists_cons_of_ne_nil (List.splitOn_ne_nil '\n' rest)
    rw [hrest] at ih
    rw [hcs, hb, lines_append_newline, lines_single (mt newline_mem_encodeChars_iff.1 hp),
      List.splitOn_append_cons_self_of_not_mem hp, hrest, linesOfPieces, List.map_append, ih, List.map_cons, source?_ended]
    rfl
  · rw [List.splitOn_eq_singleton h, linesOfPieces]
    by_cases hne : cs = []
    · rw [hne]
      rfl
    · have hb : encodeChars cs ≠ [] := by
        obtain ⟨c, ds, rfl⟩ := List.exists_cons_of_ne_nil hne
        simp
      rw [lines_of_not_mem (mt newline_mem_encodeChars_iff.1 h) hb, if_neg hne, List.map_singleton, source?_unended]
      rfl
termination_by cs.length

example : (lines (encode "1\r\n\n2\x083")).map Line.source? = [some "1", some "", some "3"] := by decide +kernel

end Calculator.Prompt
