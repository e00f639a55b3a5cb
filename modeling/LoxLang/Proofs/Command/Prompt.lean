import LoxLang.Proofs.Command.Scripts
import LoxLang.Proofs.Session.Splitting
import LoxLang.Text.Splitting

/-!
# What the prompt does

The prompt is written, each line of the input is run once and in order, and the prompt is written
again after each of them. Nothing that a line does ends this: complaints and runtime errors are
shown and the next line follows, and an output that works keeps working. So the program ends well,
unless the input has a line that is too long. The lines before that one are still run, the line
itself and what follows it are not, and the program fails.

`Splits` says which lines an input has, without reference to how they are found.
-/

namespace LoxLang

namespace Session

variable {session : Session} {limit : Int} {source : Text}

theorem write_of_unlimited (unlimited : session.sink = .unlimited) (text : Text) :
    session.write text = session.emit (.printed text) := by
  rcases session with ⟨_, _, _, _, _, sink, _⟩
  cases unlimited
  rfl

theorem run_unlimited (sound : session.Sound limit) (unlimited : session.sink = .unlimited)
    (source : Text) : (session.run source).1.sink = .unlimited := by
  by_cases blocked :
      (session.console.hadError || !(complaints session.limit source).isEmpty) = true
  · have alike := run_blocked sound.self blocked
    calc
      (session.run source).1.sink = (session.reportAll (complaints session.limit source)).sink :=
        congrArg (·.sink) alike.1
      _ = session.sink := reportAll_keeps (·.sink) (fun _ _ => rfl) session _
      _ = .unlimited := unlimited
  · simp only [Bool.or_eq_true, not_or, Bool.not_eq_true, Bool.not_eq_false', List.isEmpty_iff]
      at blocked
    rcases exists_compiles blocked.2 with ⟨statements, compiles⟩
    rw [run_sink sound.self blocked.1 compiles]
    exact (performance_related unlimited statements).sink.2

theorem run_returned_of_unlimited (sound : session.Sound limit)
    (unlimited : session.sink = .unlimited)
    (terminates : (session.run source).2 ≠ some .budgetSpent) : (session.run source).2 = none := by
  rw [Option.eq_none_iff_forall_ne_some]
  intro failure failed
  rcases run_failure sound failed with rfl | ⟨rfl, closed⟩
  · exact terminates failed
  · rw [run_unlimited sound unlimited] at closed
    cases closed

end Session

namespace Repl

/-- The lines of an input, without the line feeds that end them. What follows the last line feed is
a line too, unless it is empty. -/
def lines (input : Text) : List Text :=
  let parts := Text.splitOn Byte.newline input
  if parts.getLast? = some [] then parts.dropLast else parts

/-- Runs the lines after the prompt, which is written again after each of them. -/
def run (prompt : Text) (session : Session) : List Text → Session × Option Failure
  | [] => (session, none)
  | line :: rest =>
    match step session line with
    | (session, none) => run prompt (session.write prompt) rest
    | (session, some failure) => (session, some failure)

/-- The input has the lines: each is followed by a line feed and holds none, but for the last one,
which may be followed by nothing and is then not empty. -/
inductive Splits : Text → List Text → Prop
  | empty : Splits [] []
  | last {line : Text} (nonempty : line ≠ []) (unbroken : Byte.newline ∉ line) :
      Splits line [line]
  | more {line rest : Text} {found : List Text} (unbroken : Byte.newline ∉ line)
      (others : Splits rest found) : Splits (line ++ Byte.newline :: rest) (line :: found)

theorem Splits.lines_eq {input : Text} {found : List Text} (splits : Splits input found) :
    lines input = found := by
  induction splits with
  | empty => rfl
  | last nonempty unbroken => simp [lines, Text.splitOn_of_not_mem unbroken, nonempty]
  | @more line rest found unbroken others ih =>
      have parts := Text.splitOn_ne_nil Byte.newline rest
      rw [← ih]
      simp only [lines, Text.splitOn_append unbroken, List.getLast?_cons_of_ne_nil parts]
      split
      · rw [List.dropLast_cons_of_ne_nil parts]
      · rfl

/-- A byte in front begins a line or belongs to the first one. -/
theorem Splits.cons {input : Text} {found : List Text} (splits : Splits input found)
    (byte : UInt8) : ∃ found, Splits (byte :: input) found := by
  by_cases isNewline : byte = Byte.newline
  · subst isNewline
    exact ⟨[] :: found, .more List.not_mem_nil splits⟩
  · cases splits with
    | empty => exact ⟨[[byte]], .last (List.cons_ne_nil _ _) (by simpa using Ne.symm isNewline)⟩
    | last nonempty unbroken =>
        exact ⟨[byte :: input],
          .last (List.cons_ne_nil _ _) (by simp [Ne.symm isNewline, unbroken])⟩
    | @more line _ found unbroken others =>
        have whole : Byte.newline ∉ byte :: line := by simp [Ne.symm isNewline, unbroken]
        exact ⟨(byte :: line) :: found, .more whole others⟩

theorem splits_lines (input : Text) : Splits input (lines input) := by
  have exists_splits : ∃ found, Splits input found := by
    induction input with
    | nil => exact ⟨[], .empty⟩
    | cons byte input ih =>
        rcases ih with ⟨found, splits⟩
        exact splits.cons byte
  rcases exists_splits with ⟨found, splits⟩
  rwa [splits.lines_eq]

section Feeding

variable {prompt : Text} {session : Session} {serving : Serving}

theorem foldl_feed_of_failure (failed : serving.failure.isSome) (input : Text) :
    input.foldl (Serving.feed prompt) serving = serving := by
  induction input with
  | nil => rfl
  | cons byte input ih => rw [List.foldl_cons, Serving.feed, if_pos failed, ih]

/-- What has been read without a line feed is how the first line begins. -/
theorem exists_line_of_read {read : Text} (started : read ≠ []) (unbroken : Byte.newline ∉ read)
    (rest : Text) : ∃ line others, lines (read ++ rest) = line :: others ∧ read <+: line := by
  have splits := splits_lines (read ++ rest)
  generalize found : lines (read ++ rest) = found at splits
  generalize whole : read ++ rest = input at splits
  cases splits with
  | empty => exact absurd (List.append_eq_nil_iff.mp whole).1 started
  | last => exact ⟨_, [], rfl, rest, whole⟩
  | @more line tail others _ _ =>
      refine ⟨line, others, rfl, ?_⟩
      rcases List.append_eq_append_iff.mp whole with ⟨more, isLine, _⟩ | ⟨more, isRead, isTail⟩
      · exact ⟨more, isLine.symm⟩
      · cases more with
        | nil => exact ⟨[], by simpa using isRead⟩
        | cons byte more =>
            cases isTail
            exact absurd (by simp [isRead]) unbroken

theorem step_of_tooLong {line : Text} (long : tooLong ≤ line.length) :
    step session line = (session, some .lineTooLong) := by
  rw [step, if_pos long]

/-- What has been read of a line is the start of what is still to be read. -/
theorem finish_foldl_feed (read : Array UInt8) (unbroken : Byte.newline ∉ read.toList)
    (short : read.size < tooLong) (session : Session) (input : Text) :
    ((input.foldl (Serving.feed prompt) ⟨read, session, none⟩).finish prompt).result =
      run prompt session (lines (read.toList ++ input)) := by
  induction input generalizing read session with
  | nil =>
      rw [List.foldl_nil, List.append_nil, Serving.finish]
      by_cases started : read.toList = []
      · obtain rfl := Array.toList_eq_nil_iff.mp started
        rfl
      · rw [(Splits.last started unbroken).lines_eq, if_neg (by simpa using started)]
        rw [Serving.serveLine, run]
        rcases step session read.toList with ⟨after, failure⟩
        cases failure <;> rfl
  | cons byte input ih =>
      rw [List.foldl_cons, Serving.feed, if_neg (by simp)]
      by_cases isNewline : byte = Byte.newline
      · subst isNewline
        rw [if_pos rfl, (Splits.more unbroken (splits_lines input)).lines_eq, Serving.serveLine,
          run]
        -- After a line that fails the rest of the input makes no difference.
        rcases step session read.toList with ⟨after, failure⟩
        cases failure with
        | none => exact ih #[] (by simp) (by decide) (after.write prompt)
        | some failure =>
            simp only
            rw [foldl_feed_of_failure rfl]
            rfl
      · have unbrokenOn : Byte.newline ∉ (read.push byte).toList := by
          simp [unbroken, Ne.symm isNewline]
        have whole : read.toList ++ byte :: input = (read.push byte).toList ++ input := by simp
        rw [if_neg isNewline, whole]
        simp only
        split
        · rename_i long
          -- The line that begins with what was read is too long as well.
          have started : (read.push byte).toList ≠ [] := by simp
          rcases exists_line_of_read started unbrokenOn input with ⟨line, others, found, begins⟩
          have lineLong : tooLong ≤ line.length :=
            Nat.le_trans (by simpa using long) begins.length_le
          rw [found, run, step_of_tooLong lineLong, Serving.serveLine,
            step_of_tooLong (by simpa using long)]
          simp only
          rw [foldl_feed_of_failure rfl]
          rfl
        · rename_i stillShort
          exact ih (read.push byte) unbrokenOn (Nat.lt_of_not_le stillShort) session

/-- Taking the input byte by byte serves its lines. -/
theorem serve_eq_run (prompt : Text) (session : Session) (input : Text) :
    serve prompt session input = run prompt (session.write prompt) (lines input) :=
  finish_foldl_feed #[] (by simp) (by decide) (session.write prompt) input

end Feeding

/-- The session after the prompt, and each of the lines with the prompt after it. -/
def served (prompt : Text) (session : Session) (lines : List Text) : Session :=
  lines.foldl
    (fun session line => (session.runLine (withoutReturn line)).1.emit (.printed prompt))
    (session.emit (.printed prompt))

/-- None of the lines, each run after those before it, exceeds the budget. -/
def Terminates (prompt : Text) (session : Session) (lines : List Text) : Prop :=
  ∀ before line after, lines = before ++ line :: after →
    ((served prompt session before).runLine (withoutReturn line)).2 ≠ some .budgetSpent

/-- The lines before the first one that is too long. -/
def readable (lines : List Text) : List Text := lines.takeWhile (·.length < tooLong)

variable {prompt : Text} {session : Session} {limit : Int} {line : Text} {lines : List Text}

theorem served_cons (prompt : Text) (session : Session) (line : Text) (lines : List Text) :
    served prompt session (line :: lines) =
      served prompt ((session.emit (.printed prompt)).runLine (withoutReturn line)).1 lines :=
  rfl

theorem terminates_nil (prompt : Text) (session : Session) : Terminates prompt session [] := by
  intro before line after none
  simp at none

theorem terminates_cons_iff :
    Terminates prompt session (line :: lines) ↔
      ((session.emit (.printed prompt)).runLine (withoutReturn line)).2 ≠ some .budgetSpent ∧
        Terminates prompt ((session.emit (.printed prompt)).runLine (withoutReturn line)).1
          lines := by
  constructor
  · intro terminates
    refine ⟨terminates [] line lines rfl, ?_⟩
    rintro before next after rfl
    exact terminates (line :: before) next after rfl
  · rintro ⟨first, others⟩ before next after split
    cases before with
    | nil =>
        cases split
        exact first
    | cons _ before =>
        cases split
        exact others before next after rfl

instance decidableTerminates (prompt : Text) :
    (session : Session) → (lines : List Text) → Decidable (Terminates prompt session lines)
  | session, [] => isTrue (terminates_nil prompt session)
  | session, line :: lines =>
    have := decidableTerminates prompt
      ((session.emit (.printed prompt)).runLine (withoutReturn line)).1 lines
    decidable_of_iff _ terminates_cons_iff.symm

theorem run_eq_served (sound : session.Sound limit) (unlimited : session.sink = .unlimited)
    (terminates : Terminates prompt session (readable lines)) :
    run prompt (session.write prompt) lines =
      (served prompt session (readable lines),
        if ∀ line ∈ lines, line.length < tooLong then none else some .lineTooLong) := by
  induction lines generalizing session with
  | nil => simp [run, readable, served, Session.write_of_unlimited unlimited]
  | cons line rest ih =>
      by_cases short : line.length < tooLong
      · have first : readable (line :: rest) = line :: readable rest := by simp [readable, short]
        rw [first, terminates_cons_iff] at terminates
        have started : (session.emit (.printed prompt)).Sound limit := sound
        -- The run of the line returns no failure and leaves an output that works.
        have returned := Session.run_returned_of_unlimited started unlimited
          terminates.1
        have stepped : step (session.write prompt) line =
            (((session.emit (.printed prompt)).runLine (withoutReturn line)).1, none) := by
          rw [step, if_neg (Nat.not_le.mpr short), Session.write_of_unlimited unlimited]
          simp [Session.runLine, returned]
        have others := ih (Session.runLine_sound started (withoutReturn line))
          (Session.run_unlimited started unlimited _) terminates.2
        simpa [run, stepped, short, first, served_cons] using others
      · have first : readable (line :: rest) = [] := by simp [readable, short]
        simp [run, step, first, short, Nat.not_lt.mp short, served,
          Session.write_of_unlimited unlimited]

end Repl

namespace CommandLine

open Repl (Splits Terminates readable served tooLong)

variable {environment : Environment} {options : List Text} {config : Config}

theorem perform_prompt (isOptions : Options options)
    (configured : (overridesOf options).config environment.files = .ok config)
    (working : environment.sink = .unlimited) (input : Text)
    (terminates : Terminates config.prompt (sessionOf environment config)
      (readable (Repl.lines input))) :
    perform environment (options ++ [("repl" : Text)]) input =
      afterPrompt config
        (served config.prompt (sessionOf environment config) (readable (Repl.lines input)))
        (if ∀ line ∈ Repl.lines input, line.length < tooLong then none
          else some .lineTooLong) := by
  have planned := @plan_command environment _ .repl "repl" isOptions (by decide) (by decide) []
  rw [planWithFlags_nil] at planned
  have unlimited : (sessionOf environment config).sink = .unlimited :=
    (sessionOf_part (·.sink) (fun _ _ _ => rfl) environment config).trans working
  simp only [perform, planned, planCommand, withConfig, configured, Repl.serve_eq_run,
    Repl.run_eq_served (sessionOf_sound environment config) unlimited terminates]

/-- With an output that works, the prompt is written and every line of the input is run once, in
order and with the prompt after it, whatever the lines do, and the status is 0. This holds if no
line is too long. The first line that is too long ends the program with a complaint and the
status 70, after the lines before it. -/
theorem prompt_serves_lines (environment : Environment) (options : List Text) (config : Config)
    (input : Text) (isOptions : Options options)
    (configured : (overridesOf options).config environment.files = .ok config)
    (working : environment.sink = .unlimited)
    (terminates : Terminates config.prompt (sessionOf environment config)
      (readable (Repl.lines input))) :
    let outcome := perform environment (options ++ [("repl" : Text)]) input
    let after := served config.prompt (sessionOf environment config)
    ∃ found, Splits input found ∧
      ((∀ line ∈ found, line.length < tooLong) →
        outcome = (streamsOf config (after found)).finish .ok ∧ outcome.status.number = 0) ∧
      ∀ before line rest, found = before ++ line :: rest →
        (∀ line ∈ before, line.length < tooLong) → tooLong ≤ line.length →
          outcome = (streamsOf config (after before)).fail
              (.other "read input: bufio.Scanner: token too long") ∧
            outcome.status.number = 70 := by
  intro outcome after
  have performed : outcome = _ := perform_prompt isOptions configured working input terminates
  refine ⟨Repl.lines input, Repl.splits_lines input, ?_, ?_⟩
  · intro short
    have all : readable (Repl.lines input) = Repl.lines input := by simpa [readable] using short
    rw [all, if_pos short] at performed
    rw [performed]
    exact ⟨rfl, rfl⟩
  · intro before line rest found short long
    have until_long : readable (Repl.lines input) = before := by
      rw [found, readable, List.takeWhile_append_of_pos (by simpa using short)]
      simp [Nat.not_lt.mpr long]
    have notAll : ¬∀ line ∈ Repl.lines input, line.length < tooLong := by
      intro allShort
      exact Nat.not_lt.mpr long (allShort line (by simp [found]))
    rw [until_long, if_neg notAll] at performed
    rw [performed]
    exact ⟨rfl, rfl⟩

/-- A line that ends in a carriage return, one with a complaint, and one without an end that raises
a runtime error. -/
theorem prompt_serves_lines_mixed :
    let environment : Environment :=
      ⟨(FileTree.ofFiles "/home" []).toFileSystem, .unlimited, 1, false⟩
    let input : Text := "print 1;\r\n(\nprint -nil;"
    Terminates "> " (sessionOf environment {}) (readable (Repl.lines input)) ∧
      (perform environment [("repl" : Text)] input).status.number = 0 := by
  intro environment input
  have configured : (overridesOf []).config environment.files = .ok {} := by decide +kernel
  have short : ∀ line ∈ Repl.lines input, line.length < tooLong := by decide
  have terminates :
      Terminates "> " (sessionOf environment {}) (readable (Repl.lines input)) := by
    decide +kernel
  rcases prompt_serves_lines environment [] {} input ⟨rfl, rfl, rfl, rfl, rfl⟩ configured rfl
    terminates with ⟨found, splits, ends, _⟩
  rw [splits.lines_eq] at short
  exact ⟨terminates, (ends short).2⟩

theorem perform_prompt_of_long_line (isOptions : Options options)
    (configured : (overridesOf options).config environment.files = .ok config)
    (working : environment.sink = .unlimited) {line : Text} (unbroken : Byte.newline ∉ line)
    (long : tooLong ≤ line.length) :
    (perform environment (options ++ [("repl" : Text)]) line).status = .software := by
  have nonempty : line ≠ [] := List.ne_nil_of_length_pos (Nat.lt_of_lt_of_le (by decide) long)
  have found : Repl.lines line = [line] := (Splits.last nonempty unbroken).lines_eq
  have none : readable (Repl.lines line) = [] := by simp [found, readable, Nat.not_lt.mpr long]
  have terminates : Terminates config.prompt (sessionOf environment config)
      (readable (Repl.lines line)) := by
    rw [none]
    exact Repl.terminates_nil _ _
  rw [perform_prompt isOptions configured working line terminates]
  simp [found, Nat.not_lt.mpr long, afterPrompt, Streams.fail, Streams.finish]

/-- A line of blanks makes the program fail if there are enough of them. -/
theorem prompt_fails_on_long_line :
    let environment : Environment :=
      ⟨(FileTree.ofFiles "/home" []).toFileSystem, .unlimited, 1, false⟩
    (perform environment [("repl" : Text)] (List.replicate 65536 0x20)).status.number = 70 := by
  intro environment
  have configured : (overridesOf []).config environment.files = .ok {} := by decide +kernel
  have blank : Byte.newline ∉ List.replicate 65536 0x20 := fun mem =>
    absurd (List.eq_of_mem_replicate mem) (by decide)
  have failed := perform_prompt_of_long_line ⟨rfl, rfl, rfl, rfl, rfl⟩ configured rfl blank
    (Nat.le_of_eq List.length_replicate.symm)
  exact congrArg ExitStatus.number failed

end CommandLine

end LoxLang
