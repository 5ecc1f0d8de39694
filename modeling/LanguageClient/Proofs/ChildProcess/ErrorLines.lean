import LanguageClient.ChildProcess.Monitor
import LanguageClient.Proofs.Text.Split
import LanguageClient.Proofs.Text.Utf8

/-!
# `LanguageClient.Proofs.ChildProcess.ErrorLines`: what a monitor hands on

A monitor takes its bytes one at a time. What it has done after some bytes is told by their
lines alone, those that have ended and the one that has not (`feed_eq`). So it does not matter
how a stream is divided into reads. Of the lines, the first one that is no text ends the reading:
nothing behind it is handed on.

* `foldl_takeLine`: what whole lines do to a monitor.
* `reading_eq`, `exists_reading_eq`: what a stream does to it, in reads of any length.
* `monitored`: for every stream and every division, which lines are handed on, and that a monitor
  drains a stream exactly if each line of it that has ended is text.
-/

set_option autoImplicit false

namespace LanguageClient.ChildProcess.Monitor

open Text (splitOn)

variable {m : Monitor} {bytes : List UInt8} {line : List UInt8}

/-! ### What is wanted -/

/-- Whether a line is text. -/
def isText (line : List UInt8) : Bool := (Text.decode? line).isSome

/-- What is handed on for a line: its text without blanks at its ends, unless the line is no
text or blank. -/
def report? (line : List UInt8) : Option String :=
  (Text.decode? line).bind fun text =>
    if Text.trim text = [] then none else some (String.ofList (Text.trim text))

/-- The lines of a stream; the last one has not ended. -/
def linesOf (bytes : List UInt8) : List (List UInt8) := splitOn lineFeed bytes

/-- What a monitor has read when the stream has not ended. -/
def reading (reports : Bool) (chunks : List (List UInt8)) : Monitor :=
  chunks.foldl feed { reports }

/-- A monitor drains a stream: it reads to the end, and hands on every line that is text and not
blank, in order, if someone wants them. -/
structure Drains (reports : Bool) (chunks : List (List UInt8)) : Prop where
  reads : (reading reports chunks).isReading = true
  hands : (reading reports chunks).finish.lines =
    if reports then (linesOf chunks.flatten).filterMap report? else []

/-- A line is text exactly if it is the bytes of one. -/
theorem isText_iff : isText line = true ↔ ∃ text, line = Text.encode text := by
  rw [isText, Option.isSome_iff_exists]
  simp only [Text.decode?_eq_some_iff]

/-! ### Lines -/

/-- What is handed on for lines: nothing from the first one on that is no text. -/
def handed (reports : Bool) (lines : List (List UInt8)) : List String :=
  if reports then (lines.takeWhile isText).filterMap report? else []

/-- Once the reading has ended, a line does nothing. So nothing behind a bad line is handed on, even
if it is text. -/
theorem takeLine_of_ended (h : m.isReading = false) (line : List UInt8) : m.takeLine line = m := by
  simp [takeLine, h]

/-- A line is handed on if it is to be, and ends the reading if it is no text. With
`takeLine_of_ended` this is all that a line can do. -/
theorem takeLine_of_reading (h : m.isReading = true) (line : List UInt8) :
    m.takeLine line =
      { m with isReading := isText line, lines := m.lines ++ handed m.reports [line] } := by
  obtain ⟨reports, isReading, partialLine, lines⟩ := m
  obtain rfl : isReading = true := h
  cases hdecode : Text.decode? line with
  | none => simp [takeLine, isText, handed, hdecode]
  | some text =>
    by_cases hblank : Text.trim text = [] <;> cases reports <;>
      simp [takeLine, isText, handed, report?, hdecode, hblank]

/-- No number of lines is taken once the reading has ended. So a monitor stays as the bad line has
left it. -/
theorem foldl_takeLine_of_ended (h : m.isReading = false) (lines : List (List UInt8)) :
    lines.foldl takeLine m = m := by
  induction lines with
  | nil => rfl
  | cons line lines ih => rw [List.foldl_cons, takeLine_of_ended h, ih]

/-- Of lines that begin with a text, what is handed on is what there is for that text and for the
lines behind it. -/
theorem handed_cons_of_text (reports : Bool) {line : List UInt8} (h : isText line = true)
    (lines : List (List UInt8)) :
    handed reports (line :: lines) = handed reports [line] ++ handed reports lines := by
  cases reports with
  | false => simp [handed]
  | true => cases hreport : report? line <;> simp [handed, h, hreport]

/-- Of lines that begin with one that is no text, nothing behind it counts. -/
theorem handed_cons_of_not_text (reports : Bool) {line : List UInt8} (h : isText line = false)
    (lines : List (List UInt8)) : handed reports (line :: lines) = handed reports [line] := by
  simp [handed, h]

/-- Lines are handed on up to the first one that is no text; that one ends the reading. The
induction takes the first line off, which leaves a monitor that reads or one that has ended. -/
theorem foldl_takeLine (h : m.isReading = true) (lines : List (List UInt8)) :
    lines.foldl takeLine m =
      { m with isReading := lines.all isText, lines := m.lines ++ handed m.reports lines } := by
  induction lines generalizing m with
  | nil => simp [handed, ← h]
  | cons line lines ih =>
    rw [List.foldl_cons, takeLine_of_reading h]
    cases htext : isText line with
    | true =>
      have hall := handed_cons_of_text m.reports htext lines
      rw [ih rfl, List.append_assoc, ← hall, List.all_cons, htext, Bool.true_and]
    | false =>
      -- This line ends the reading, and nothing behind it is taken.
      have hone := handed_cons_of_not_text m.reports htext lines
      rw [foldl_takeLine_of_ended rfl, ← hone, List.all_cons, htext, Bool.false_and]

/-! ### Bytes -/

/-- Whole lines are taken alike whatever has come of the next one. With this the line under way can
be set aside while those before it are taken. -/
theorem foldl_takeLine_partialLine (m : Monitor) (next : List UInt8) (lines : List (List UInt8)) :
    lines.foldl takeLine { m with partialLine := next } =
      { lines.foldl takeLine m with partialLine := next } := by
  obtain ⟨reports, isReading, partialLine, before⟩ := m
  cases isReading with
  | false => rw [foldl_takeLine_of_ended rfl, foldl_takeLine_of_ended rfl]
  | true => rw [foldl_takeLine rfl, foldl_takeLine rfl]

/-- A line that begins with nothing is as it is. -/
theorem modifyHead_nil_append (lines : List (List UInt8)) :
    lines.modifyHead ([] ++ ·) = lines := by
  cases lines <;> rfl

/-- The lines that bytes make are those of the bytes, the first one behind what has come of it
before. All but the last have ended and are taken. The induction is on the bytes, and a monitor may
have part of a line from the start, so that it fits the second read of a stream as well as the
first. -/
theorem feed_eq {ended : List (List UInt8)} {last : List UInt8}
    (h : (linesOf bytes).modifyHead (m.partialLine ++ ·) = ended ++ [last]) :
    m.feed bytes = { ended.foldl takeLine m with partialLine := last } := by
  induction bytes generalizing m ended with
  | nil =>
    -- Nothing has come, so what there was of a line is still all of it.
    rw [linesOf, splitOn, List.modifyHead_cons, List.append_nil] at h
    have hsplit : [] ++ [m.partialLine] = ended ++ [last] := h
    obtain ⟨rfl, rfl⟩ := (List.append_inj' hsplit rfl).imp_right List.singleton_inj.mp
    rfl
  | cons b bytes ih =>
    rw [linesOf, Text.splitOn_cons] at h
    rw [feed, List.foldl_cons, feedByte]
    split at h
    · rename_i hb
      rw [if_pos hb]
      rw [List.modifyHead_cons, List.append_nil] at h
      cases ended with
      | nil => exact absurd (List.cons.inj h).2 (Text.splitOn_ne_nil _ _)
      | cons line ended =>
        obtain ⟨rfl, hrest⟩ := List.cons.inj h
        -- The line is taken, and the next one begins with nothing.
        have htaken : { m with partialLine := [] }.takeLine m.partialLine =
            { m.takeLine m.partialLine with partialLine := [] } :=
          foldl_takeLine_partialLine m [] [m.partialLine]
        have hlines : (linesOf bytes).modifyHead ([] ++ ·) = ended ++ [last] :=
          (modifyHead_nil_append _).trans hrest
        have hnext := ih (m := { m.takeLine m.partialLine with partialLine := [] }) hlines
        rw [foldl_takeLine_partialLine] at hnext
        rw [htaken]
        exact hnext
    · rename_i hb
      rw [if_neg hb]
      -- Any other byte belongs to the line under way.
      have hlines : (linesOf bytes).modifyHead (m.partialLine ++ [b] ++ ·) = ended ++ [last] := by
        simpa [linesOf, Function.comp_def] using h
      have hnext := ih (m := { m with partialLine := m.partialLine ++ [b] }) hlines
      rw [foldl_takeLine_partialLine] at hnext
      exact hnext

/-! ### Streams -/

/-- A stream has a last line, which nothing has ended. -/
theorem linesOf_eq_concat (bytes : List UInt8) :
    ∃ last, linesOf bytes = (linesOf bytes).dropLast ++ [last] :=
  ⟨_, (List.dropLast_concat_getLast (Text.splitOn_ne_nil lineFeed bytes)).symm⟩

/-- How a stream is divided into reads makes no difference: a monitor takes its bytes one at a time,
and remembers the line under way in between. -/
theorem reading_eq (reports : Bool) (chunks : List (List UInt8)) :
    reading reports chunks = feed { reports } chunks.flatten := by
  have hall : ∀ m : Monitor, chunks.foldl feed m = m.feed chunks.flatten := by
    induction chunks with
    | nil => exact fun m => rfl
    | cons chunk chunks ih =>
      intro m
      rw [List.foldl_cons, ih, List.flatten_cons]
      exact List.foldl_append.symm
  exact hall _

/-- A monitor that has read a stream has taken the lines of it that have ended, and holds the last
one. -/
theorem exists_reading_eq (reports : Bool) (chunks : List (List UInt8)) :
    ∃ last, linesOf chunks.flatten = (linesOf chunks.flatten).dropLast ++ [last] ∧
      reading reports chunks =
        { (linesOf chunks.flatten).dropLast.foldl takeLine { reports } with partialLine := last } := by
  obtain ⟨last, hlast⟩ := linesOf_eq_concat chunks.flatten
  refine ⟨last, hlast, ?_⟩
  rw [reading_eq]
  exact feed_eq ((modifyHead_nil_append _).trans hlast)

/-- A monitor still reads exactly if all lines that have ended are text. The one that has not ended
has not been looked at. -/
theorem isReading_reading (reports : Bool) (chunks : List (List UInt8)) :
    (reading reports chunks).isReading = (linesOf chunks.flatten).dropLast.all isText := by
  obtain ⟨last, -, hreading⟩ := exists_reading_eq reports chunks
  rw [hreading, foldl_takeLine rfl]

/-- What has been handed on while the stream goes on is what is due for the lines that have
ended. -/
theorem lines_reading (reports : Bool) (chunks : List (List UInt8)) :
    (reading reports chunks).lines = handed reports (linesOf chunks.flatten).dropLast := by
  obtain ⟨last, -, hreading⟩ := exists_reading_eq reports chunks
  rw [hreading, foldl_takeLine rfl]
  exact List.nil_append _

/-- Nothing is handed on for an empty line, and it does not end the reading. -/
theorem takeLine_nil (m : Monitor) : m.takeLine [] = m := by
  have htext : Text.decode? [] = some [] := rfl
  have hblank : Text.trim [] = [] := rfl
  simp [takeLine, htext, hblank]

/-- At the end of the stream its last line is taken too. If the reading has ended before, taking it
does nothing, as for any other line. -/
theorem lines_finish (m : Monitor) :
    m.finish.lines = ({ m with partialLine := [] }.takeLine m.partialLine).lines := by
  unfold finish
  split
  · rename_i hnone
    rw [hnone, takeLine_nil]
  · rfl

/-- What has been handed on at the end of a stream is what is due for all its lines, the last one
included. -/
theorem lines_finish_reading (reports : Bool) (chunks : List (List UInt8)) :
    (reading reports chunks).finish.lines = handed reports (linesOf chunks.flatten) := by
  obtain ⟨last, hlast, hreading⟩ := exists_reading_eq reports chunks
  have hall := congrArg (List.foldl takeLine { reports }) hlast
  rw [List.foldl_append, List.foldl_cons, List.foldl_nil] at hall
  -- The line under way is set aside while the others are read, and taken at the end.
  have htaken := foldl_takeLine_partialLine
    ((linesOf chunks.flatten).dropLast.foldl takeLine { reports }) [] [last]
  calc (reading reports chunks).finish.lines
      = ((linesOf chunks.flatten).foldl takeLine { reports }).lines := by
        have hlines := congrArg Monitor.lines htaken
        rw [lines_finish, hreading, hall]
        exact hlines
    _ = handed reports (linesOf chunks.flatten) := by
        rw [foldl_takeLine rfl]
        exact List.nil_append _

/-- A last line that is no text keeps nothing back: there is nothing behind it. This is why draining
a stream depends on all lines but the last. -/
theorem handed_of_ended (reports : Bool) {lines : List (List UInt8)}
    (h : lines.dropLast.all isText = true) :
    handed reports lines = if reports then lines.filterMap report? else [] := by
  rcases List.eq_nil_or_concat lines with rfl | ⟨ended, last, rfl⟩
  · simp [handed]
  · rw [List.concat_eq_append, List.dropLast_concat, List.all_eq_true] at h
    rw [handed, List.concat_eq_append, List.takeWhile_append_of_pos h]
    cases htext : isText last with
    | true => simp [htext]
    | false =>
      -- Nothing would have been handed on for it in any case.
      have hnone : report? last = none := by
        have hdecode : Text.decode? last = none := by simpa [isText] using htext
        simp [report?, hdecode]
      simp [htext, hnone]

/-- Exactly the streams are drained of which each line that has ended is text. From right to left
the last line does not matter, by `handed_of_ended`. -/
theorem drains_iff {reports : Bool} {chunks : List (List UInt8)} :
    Drains reports chunks ↔ (linesOf chunks.flatten).dropLast.all isText = true := by
  constructor
  · intro h
    rw [← isReading_reading reports]
    exact h.reads
  · intro h
    refine ⟨(isReading_reading reports chunks).trans h, ?_⟩
    rw [lines_finish_reading, handed_of_ended reports h]

/-- A monitor has handed on the lines that have ended, up to the first one that is no text, and at
the end of the stream its last line too. It reads on as long as each of them is text. So it drains a
stream exactly if each line of it but the last one is text, however it is divided. -/
theorem monitored (reports : Bool) (chunks : List (List UInt8)) :
    (reading reports chunks).lines = handed reports (linesOf chunks.flatten).dropLast ∧
    (reading reports chunks).finish.lines = handed reports (linesOf chunks.flatten) ∧
    (Drains reports chunks ↔
      ∀ line ∈ (linesOf chunks.flatten).dropLast, ∃ text, line = Text.encode text) := by
  refine ⟨lines_reading reports chunks, lines_finish_reading reports chunks, ?_⟩
  rw [drains_iff, List.all_eq_true]
  simp only [isText_iff]

/-- Three lines, of which the second one is no text: the third one is lost. -/
theorem undrained_of_bad_byte :
    let written : List UInt8 := [0x6F, 0x6B, 0x0A, 0xFF, 0x62, 0x0A, 0x78, 0x0A]
    ¬Drains true [written] ∧ (reading true [written]).finish.lines = ["ok"] ∧
      (linesOf written).filterMap report? = ["ok", "x"] := by
  refine ⟨fun h => ?_, by decide, by decide⟩
  exact absurd h.reads (by decide)

end LanguageClient.ChildProcess.Monitor
