import Calculator.CommandLine
import Calculator.Proofs.Lines

namespace Calculator

theorem Numeral.newline_not_mem_digits (n : Nat) : '\n' ∉ digits n := fun h =>
  absurd (isDigit_of_mem_digits h) (by decide)

theorem Numeral.newline_not_mem_ofInt (n : Int) : '\n' ∉ (ofInt n).toList := by
  cases n with
  | ofNat n =>
      rw [ofInt, ofNat, String.toList_ofList]
      exact newline_not_mem_digits n
  | negSucc n =>
      rw [ofInt, String.toList_ofList, List.mem_cons, not_or]
      exact ⟨by decide, newline_not_mem_digits (n + 1)⟩

theorem Decimal.newline_not_mem_chars (d : Decimal) : '\n' ∉ d.chars := by
  have hz (n : Nat) : '\n' ∉ zeros n := fun h => absurd (List.eq_of_mem_replicate h) (by decide)
  have hd := Numeral.newline_not_mem_digits d.digits
  simp only [chars]
  split
  · rw [List.mem_append, not_or]
    exact ⟨hd, hz _⟩
  · split
    · rw [List.mem_append, List.mem_cons, not_or, not_or]
      exact ⟨mt List.mem_of_mem_take hd, by decide, mt List.mem_of_mem_drop hd⟩
    · rw [List.cons_append, List.cons_append, List.mem_cons, List.mem_cons, List.mem_append, not_or, not_or, not_or]
      exact ⟨by decide, by decide, hz _, hd⟩

theorem Binary64.newline_not_mem_text (b : Binary64) : '\n' ∉ b.text.toList := by
  have hs : '\n' ∉ (if b.negative then "-" else "").toList := by split <;> decide
  simp only [text]
  split
  · split
    · rw [String.toList_append, List.mem_append, not_or]
      exact ⟨hs, by decide⟩
    · decide
  · split
    · rw [String.toList_append, List.mem_append, not_or]
      exact ⟨hs, by decide⟩
    · rw [String.toList_append, String.toList_ofList, List.mem_append, not_or]
      exact ⟨hs, Decimal.newline_not_mem_chars _⟩

theorem Value.newline_not_mem_text (v : Value) : '\n' ∉ v.text.toList := by
  cases v with
  | integer n => exact Numeral.newline_not_mem_ofInt n.toInt
  | real x => exact Binary64.newline_not_mem_text _

theorem Failure.newline_not_mem_text (e : Failure) : '\n' ∉ e.text.toList := by
  rw [text]
  cases e.kind <;> decide

theorem Prompt.newline_not_mem_respond (source : String) : '\n' ∉ (respond source).toList := by
  rw [respond]
  cases evaluate source with
  | ok v => exact v.newline_not_mem_text
  | error e => exact e.newline_not_mem_text

/-- What is written by two runs of which the second takes place if the first does not fail. -/
def Report.andThen (first second : Report) : Report :=
  if first.status = 0 then ⟨first.stdout ++ second.stdout, second.stderr, second.status⟩ else first

namespace Prompt

open Text

theorem serve_eq (written : String) (ls : List Line) :
    serve written ls = ⟨written ++ (serve "" ls).stdout, (serve "" ls).stderr, (serve "" ls).status⟩ := by
  induction ls generalizing written with
  | nil => simp [serve]
  | cons l ls ih =>
      rw [serve, serve]
      cases l.source? with
      | none => simp
      | some source =>
          simp only
          rw [ih, ih ("" ++ answer source), String.empty_append, String.append_assoc]

theorem serve_append (written : String) (ls ms : List Line) :
    serve written (ls ++ ms) = (serve written ls).andThen (serve "" ms) := by
  induction ls generalizing written with
  | nil => exact serve_eq written ms
  | cons l ls ih =>
      rw [List.cons_append, serve, serve]
      cases l.source? with
      | none => rfl
      | some source => exact ih _

theorem session_append (a b : List UInt8) :
    session (a ++ newline :: b) = (session (a ++ [newline])).andThen (session b) := by
  rw [session, lines_append_newline, serve_append]
  rfl

theorem serve_of_map_source? {ls : List Line} {sources : List String} (h : ls.map Line.source? = sources.map some)
    (written : String) :
    serve written ls = ⟨written ++ String.join (sources.map answer), "", 0⟩ := by
  induction sources generalizing ls written with
  | nil =>
      rw [List.map_nil, List.map_eq_nil_iff] at h
      rw [h, serve, List.map_nil, String.join_nil, String.append_empty]
  | cons source sources ih =>
      obtain ⟨l, ls, rfl, hl, hls⟩ := List.map_eq_cons_iff.1 h
      rw [serve, hl]
      simp only
      rw [ih hls, List.map_cons, String.join_cons, String.append_assoc]

theorem session_encode (s : String) : session (encode s) = ⟨String.join ((textLines s).map answer), "", 0⟩ := by
  have h := map_source?_lines s.toList
  rw [session, encode_eq, serve_of_map_source? h, String.empty_append]
  rfl

theorem splitOn_answers (sources : List String) :
    (String.join (sources.map answer)).toList.splitOn '\n' =
      sources.map (fun source => (respond source).toList) ++ [[]] := by
  induction sources with
  | nil => rfl
  | cons source sources ih =>
      have hcut : (answer source).toList = (respond source).toList ++ ['\n'] := String.toList_append
      rw [List.map_cons, String.join_cons, String.toList_append, hcut, List.append_assoc, List.cons_append, List.nil_append,
        List.splitOn_append_cons_self_of_not_mem (newline_not_mem_respond source), ih]
      rfl

/-- A session answers every line by itself: a run up to a newline, then the rest as if nothing was before it. -/
theorem session_line_by_line :
    (∀ a b, CommandLine.run [] (a ++ newline :: b) =
        (CommandLine.run [] (a ++ [newline])).andThen (CommandLine.run [] b)) ∧
      ∀ s, CommandLine.run [] (encode s) = ⟨String.join ((textLines s).map answer), "", 0⟩ ∧
        (CommandLine.run [] (encode s)).stdout.toList.splitOn '\n' =
          (textLines s).map (fun line => (respond line).toList) ++ [[]] := by
  have hrun (input : List UInt8) : CommandLine.run [] input = session input := rfl
  constructor
  · intro a b
    simp only [hrun]
    exact session_append a b
  · intro s
    have h := session_encode s
    refine ⟨h, ?_⟩
    rw [hrun, h]
    exact splitOn_answers (textLines s)

end Prompt

end Calculator
