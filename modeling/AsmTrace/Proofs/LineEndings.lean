import AsmTrace.Engine
import AsmTrace.Proofs.LineNumbers

/-!
# Line endings

A line ends at a line feed, with or without a carriage return before it, and a byte order mark in
front is dropped. So a text can be given a mark and carriage returns, and its numbered lines stay
what they are (`splitLines_withReturns`); since programs are assembled from the numbered lines, the
same program comes of it and the same run. Without carriage returns the lines are the text, cut
after its line feeds (`flatMap_splitLinesFrom`).
-/

namespace AsmTrace

namespace Text

variable {α : Type} [DecidableEq α] {lf cr : α} {rev text : List α}

/-- A text with a carriage return put before each of its line feeds. -/
def withReturns (lf cr : α) (text : List α) : List α :=
  text.flatMap fun c => if c = lf then [cr, lf] else [c]

/-- The same of a string. -/
def crlf (s : String) : String := String.ofList (withReturns '\n' '\r' s.toList)

@[simp] theorem withReturns_lf (lf cr : α) (text : List α) :
    withReturns lf cr (lf :: text) = cr :: lf :: withReturns lf cr text := by
  simp [withReturns]

theorem withReturns_cons {c : α} (h : c ≠ lf) (cr : α) (text : List α) :
    withReturns lf cr (c :: text) = c :: withReturns lf cr text := by
  simp [withReturns, h]

/-- A line without carriage returns is closed as it is. -/
theorem closeLine_of_not_mem (h : cr ∉ rev) : closeLine cr rev = rev.reverse := by
  cases rev with
  | nil => rfl
  | cons c rev =>
    have other : c ≠ cr := fun same => h (same ▸ List.mem_cons_self)
    rw [closeLine, if_neg other]

/-- Closing a line adds nothing to it. -/
theorem mem_of_mem_closeLine {c : α} (h : c ∈ closeLine cr rev) : c ∈ rev := by
  cases rev with
  | nil => cases h
  | cons d rev =>
    rw [closeLine] at h
    split at h
    · exact List.mem_cons_of_mem d (List.mem_reverse.1 h)
    · exact List.mem_reverse.1 h

/-- A carriage return before a line feed belongs to no line. -/
theorem splitLinesFrom_withReturns (ne : cr ≠ lf) (unread : cr ∉ text) (read : cr ∉ rev) :
    splitLinesFrom lf cr rev (withReturns lf cr text) = splitLinesFrom lf cr rev text := by
  induction text generalizing rev with
  | nil => rfl
  | cons c text ih =>
    have other := List.ne_of_not_mem_cons unread
    have unread := List.not_mem_of_not_mem_cons unread
    by_cases ends : c = lf
    · subst ends
      rw [withReturns_lf, splitLinesFrom_cons ne, splitLinesFrom_lf, splitLinesFrom_lf,
        closeLine, if_pos rfl, closeLine_of_not_mem read, ih unread List.not_mem_nil]
    · rw [withReturns_cons ends, splitLinesFrom_cons ends, splitLinesFrom_cons ends]
      exact ih unread (List.not_mem_cons_of_ne_of_not_mem other read)

/-- Carriage returns before line feeds make no difference to the lines. -/
theorem splitLines_withReturns (ne : cr ≠ lf) (h : cr ∉ text) :
    splitLines lf cr (withReturns lf cr text) = splitLines lf cr text :=
  splitLinesFrom_withReturns ne h List.not_mem_nil

/-- Lines have no line feeds. -/
theorem not_mem_of_mem_splitLinesFrom (read : lf ∉ rev) {line : List α}
    (h : line ∈ splitLinesFrom lf cr rev text) : lf ∉ line := by
  induction text generalizing rev with
  | nil =>
    rw [splitLinesFrom] at h
    split at h
    · cases h
    · rw [List.mem_singleton.1 h, List.mem_reverse]
      exact read
  | cons c text ih =>
    by_cases ends : c = lf
    · subst ends
      rw [splitLinesFrom_lf] at h
      rcases List.mem_cons.1 h with rfl | later
      · exact fun mem => read (mem_of_mem_closeLine mem)
      · exact ih List.not_mem_nil later
    · rw [splitLinesFrom_cons ends] at h
      exact ih (List.not_mem_cons_of_ne_of_not_mem (Ne.symm ends) read) h

/-- A text whose last line lacks its line feed. -/
def Unfinished (lf : α) (text : List α) : Prop := ∃ c, text.getLast? = some c ∧ c ≠ lf

omit [DecidableEq α] in
theorem Unfinished.append (h : Unfinished lf text) (front : List α) :
    Unfinished lf (front ++ text) := by
  obtain ⟨c, last, ne⟩ := h
  exact ⟨c, by rw [List.getLast?_append, last, Option.some_or], ne⟩

/-- The lines with a line feed after each of them are the text, or the text with the line feed that
its last line lacks. -/
theorem flatMap_splitLinesFrom (unread : cr ∉ text) (read : cr ∉ rev) (inside : lf ∉ rev) :
    (splitLinesFrom lf cr rev text).flatMap (· ++ [lf]) = rev.reverse ++ text ∨
      (splitLinesFrom lf cr rev text).flatMap (· ++ [lf]) = rev.reverse ++ text ++ [lf] ∧
        Unfinished lf (rev.reverse ++ text) := by
  induction text generalizing rev with
  | nil =>
    cases rev with
    | nil => exact .inl rfl
    | cons c rev =>
      refine .inr ⟨by simp [splitLinesFrom], c, by simp, ?_⟩
      exact (List.ne_of_not_mem_cons inside).symm
  | cons c text ih =>
    have other := List.ne_of_not_mem_cons unread
    have unread := List.not_mem_of_not_mem_cons unread
    by_cases ends : c = lf
    · subst ends
      rw [splitLinesFrom_lf, closeLine_of_not_mem read, List.flatMap_cons]
      rcases ih unread List.not_mem_nil List.not_mem_nil with whole | ⟨lacking, unfinished⟩
      · exact .inl (by simp [whole])
      · exact .inr ⟨by simp [lacking], (unfinished.append [c]).append rev.reverse⟩
    · rw [splitLinesFrom_cons ends]
      have longer := ih unread (List.not_mem_cons_of_ne_of_not_mem other read)
        (List.not_mem_cons_of_ne_of_not_mem (Ne.symm ends) inside)
      simpa using longer

/-- A line has no line feed in it. -/
theorem not_mem_of_mem_lines {s line : String} (h : line ∈ lines s) : '\n' ∉ line.toList := by
  obtain ⟨chars, mem, rfl⟩ := List.mem_map.1 h
  rw [String.toList_ofList]
  exact not_mem_of_mem_splitLinesFrom List.not_mem_nil mem

/-- A text has the same lines with either line ending. -/
theorem lines_crlf {s : String} (h : '\r' ∉ s.toList) : lines (crlf s) = lines s := by
  rw [lines, crlf, String.toList_ofList, splitLines_withReturns (by decide) h, lines]

/-- Without carriage returns, the lines with a line feed after each of them are the text, up to one
that its last line lacks. -/
theorem join_lines {s : String} (h : '\r' ∉ s.toList) :
    String.join ((lines s).map (· ++ "\n")) = s ∨
      String.join ((lines s).map (· ++ "\n")) = s ++ "\n" ∧ Unfinished '\n' s.toList := by
  have joined : (String.join ((lines s).map (· ++ "\n"))).toList =
      (splitLines '\n' '\r' s.toList).flatMap (· ++ ['\n']) := by
    simp [lines, String.toList_join, List.flatMap_map]
  rcases flatMap_splitLinesFrom h List.not_mem_nil List.not_mem_nil with
    whole | ⟨lacking, unfinished⟩
  · exact .inl (String.toList_inj.1 (joined.trans whole))
  · refine .inr ⟨String.toList_inj.1 (joined.trans ?_), unfinished⟩
    rw [String.toList_append]
    exact lacking

end Text

namespace Source

/-- The text of a source is the text it is made of, without a byte order mark. -/
theorem text_ofText (text : String) :
    (ofText text).text = text ∨ ∃ rest, text.toList = byteOrderMark :: rest ∧
      (ofText text).text = String.ofList rest := by
  unfold ofText
  split
  · next c rest chars =>
    split
    · next mark => exact .inr ⟨rest, mark ▸ chars, rfl⟩
    · exact .inl rfl
  · exact .inl rfl

/-- A mark in front is dropped. -/
@[simp] theorem ofText_mark (text : String) :
    ofText (byteOrderMark.toString ++ text) = ⟨none, text⟩ := by
  simp [ofText]

/-- Without a byte order mark it is that text. -/
theorem ofText_of_unmarked {text : String} (h : text.toList.head? ≠ some byteOrderMark) :
    ofText text = ⟨none, text⟩ := by
  unfold ofText
  split
  · next c rest chars =>
    rw [if_neg]
    rintro rfl
    exact h (by rw [chars, List.head?_cons])
  · rfl

theorem not_mem_text_ofText {text : String} {c : Char} (h : c ∉ text.toList) :
    c ∉ (ofText text).text.toList := by
  rcases text_ofText text with same | ⟨rest, chars, same⟩
  · rwa [same]
  · rw [same, String.toList_ofList]
    rw [chars] at h
    exact List.not_mem_of_not_mem_cons h

/-- A byte order mark and carriage returns make no difference to the numbered lines. -/
theorem numbered_crlf {text : String} (noReturn : '\r' ∉ text.toList)
    (unmarked : text.toList.head? ≠ some byteOrderMark) :
    (ofText (byteOrderMark.toString ++ Text.crlf text)).numbered = (ofText text).numbered := by
  rw [ofText_mark, ofText_of_unmarked unmarked]
  simp only [numbered, lines, Text.lines_crlf noReturn]

/-- Programs are assembled from numbered lines, and from nothing else. -/
theorem assemble_congr {s t : Source} (h : s.numbered = t.numbered) :
    Program.assemble s = Program.assemble t := by
  simp only [Program.assemble, Program.parse, h]

/-- A run depends on the numbered lines only. -/
theorem run_congr {s t : Source} (h : s.numbered = t.numbered) (c : Config) :
    s.run c = t.run c := by
  simp only [run, assemble_congr h]

/-- A byte order mark and carriage returns at the ends of lines do not matter: the numbered lines
are the same, so that assembling gives the same error or the same program, and running the same
error or the same trace. Of every text, the lines are those that their numbers find, none has a line
feed in it, and unless the text has carriage returns it is the lines with a line feed after each, up
to one that its last line lacks. -/
theorem line_endings (text : String) :
    ('\r' ∉ text.toList → text.toList.head? ≠ some byteOrderMark →
      (ofText (byteOrderMark.toString ++ Text.crlf text)).numbered = (ofText text).numbered ∧
      Program.assemble (ofText (byteOrderMark.toString ++ Text.crlf text)) =
        Program.assemble (ofText text) ∧
      ∀ c, (ofText (byteOrderMark.toString ++ Text.crlf text)).run c = (ofText text).run c) ∧
    (∀ n line, (ofText text).line? n = some line ↔ (n, line) ∈ (ofText text).numbered) ∧
    (∀ line ∈ (ofText text).lines, '\n' ∉ line.toList) ∧
    ('\r' ∉ text.toList →
      String.join ((ofText text).lines.map (· ++ "\n")) = (ofText text).text ∨
        String.join ((ofText text).lines.map (· ++ "\n")) = (ofText text).text ++ "\n" ∧
          Text.Unfinished '\n' (ofText text).text.toList) := by
  refine ⟨?_, fun _ _ => mem_numbered.symm, fun _ => Text.not_mem_of_mem_lines, ?_⟩
  · intro noReturn unmarked
    have same := numbered_crlf noReturn unmarked
    exact ⟨same, assemble_congr same, run_congr same⟩
  · intro noReturn
    exact Text.join_lines (not_mem_text_ofText noReturn)

/-- A blank line, and a division by zero on the last line, which has no line feed. -/
theorem line_endings_unfinished :
    ∃ text, text = "mov ax, 7\n\nidiv bx" ∧ '\r' ∉ text.toList ∧
      text.toList.head? ≠ some byteOrderMark ∧
      (ofText (byteOrderMark.toString ++ Text.crlf text)).numbered =
        [(1, "mov ax, 7"), (2, ""), (3, "idiv bx")] ∧
      ((ofText (byteOrderMark.toString ++ Text.crlf text)).run {}).mapError RunError.line? =
        .error (some 3) ∧
      String.join ((ofText text).lines.map (· ++ "\n")) = text ++ "\n" := by
  have noReturn : '\r' ∉ "mov ax, 7\n\nidiv bx".toList := by decide
  have unmarked : "mov ax, 7\n\nidiv bx".toList.head? ≠ some byteOrderMark := by decide
  obtain ⟨mended, -, -, joined⟩ := line_endings "mov ax, 7\n\nidiv bx"
  obtain ⟨numbered, -, runs⟩ := mended noReturn unmarked
  refine ⟨_, rfl, noReturn, unmarked, ?_, ?_, ?_⟩
  · rw [numbered]
    decide +kernel
  · rw [runs {}]
    decide +kernel
  · rcases joined noReturn with whole | ⟨lacking, -⟩
    · exact absurd whole (by decide +kernel)
    · exact lacking

end Source

end AsmTrace
