import LoxLang.Proofs.Parse.Agreement
import LoxLang.Proofs.Parse.Soundness

/-!
# Counting the nesting

The readers are told how deeply they stand. The same can be done with one counter that is part of
the state of the parse, which every nested construct raises when it is entered and lowers again when
it is left, whether it was read or stopped at a syntax error. Here are the readers with such a
counter. They give what the readers without it give, and unless the parse is given up they leave the
counter as they found it.

The comparison also lets the counting reader have a larger budget and earlier complaints that the
other reader does not see, so it shows that neither makes a difference to what is read.
-/

namespace LoxLang

namespace Parse

variable {α β : Type}

/-- A cursor with a counter of the nesting. -/
structure Counter where
  cursor : Cursor
  depth : Nat

/-- A reader that moves a cursor with a counter. -/
abbrev Counting := EStateM Halt Counter

namespace Counting

/-- A reader that has nothing to count. -/
def lift (reader : Reader α) : Counting α := fun counter =>
  match reader counter.cursor with
  | .ok value cursor => .ok value { counter with cursor := cursor }
  | .error halt cursor => .error halt { counter with cursor := cursor }

/-- Raises the counter for a reader and lowers it again however the reader ends. Where the limit is
passed the counter stays raised. -/
def nested (limit : Int) (reader : Counting α) : Counting α := fun counter =>
  match lift (descend limit (counter.depth + 1)) { counter with depth := counter.depth + 1 } with
  | .error halt stopped => .error halt stopped
  | .ok _ entered =>
    match reader entered with
    | .ok value left => .ok value { left with depth := left.depth - 1 }
    | .error halt left => .error halt { left with depth := left.depth - 1 }

/-- Recovers a reader from a syntax error. -/
def recovering (reader : Counting α) : Counting (Option α) := fun counter =>
  match reader counter with
  | .ok value finish => .ok (some value) finish
  | .error .misread stopped => .ok none { stopped with cursor := stopped.cursor.synchronize }
  | .error halt stopped => .error halt stopped

/-- Nothing at a token of one of the kinds and at the end, and otherwise what the reader gives,
recovered from a syntax error. -/
def attemptUnless (stops : List Token.Kind) (reader : Counting α) :
    Counting (Option (Option α)) := do
  let token ← lift peek
  if token.kind ∈ stops ∨ token.kind = .eof then
    return none
  else
    return some (← recovering reader)

/-- Reading with a counter, which stands for the depth: what the readers are told of it is not
used. -/
@[reducible] def primitives : Primitives Counting where
  exhausted := throw .exhausted
  accept kinds := lift (accept kinds)
  expect kind fault := lift (expect kind fault)
  report token fault := lift (report token fault)
  misread fault := lift (misread fault)
  nested limit _ reader := nested limit reader
  attempt := attemptUnless

/-- Reads a declaration or a statement with a counter, recovering from a syntax error in it. -/
def declaration (limit : Int) (fuel : Nat) : Counting (Option Stmt) :=
  recovering (primitives.declaration limit fuel 0)

/-- Reads a program with a counter. -/
def program (limit : Int) (fuel : Nat) (done : List Stmt) : Counting (List Stmt) :=
  primitives.program limit fuel done

end Counting

section Lift

variable {reader : Reader α} {cursor after : Cursor} {depth : Nat}

theorem Counting.lift_of_ok {value : α} (read : reader cursor = .ok value after) :
    lift reader ⟨cursor, depth⟩ = .ok value ⟨after, depth⟩ := by
  simp only [lift, read]

theorem Counting.lift_of_error {halt : Halt} (stopped : reader cursor = .error halt after) :
    lift reader ⟨cursor, depth⟩ = .error halt ⟨after, depth⟩ := by
  simp only [lift, stopped]

end Lift

namespace Cursor

/-- The cursor with earlier complaints before its own. -/
def behind (cursor : Cursor) (earlier : Array Diagnostic) : Cursor :=
  { cursor with reports := earlier ++ cursor.reports }

theorem behind_empty (cursor : Cursor) : cursor.behind #[] = cursor := by
  simp [behind]

theorem report_behind (cursor : Cursor) (earlier : Array Diagnostic) (token : Token)
    (fault : Fault) :
    (cursor.behind earlier).report token fault = (cursor.report token fault).behind earlier := by
  simp [behind, report]

theorem synchronize_behind (cursor : Cursor) (earlier : Array Diagnostic) :
    (cursor.behind earlier).synchronize = cursor.synchronize.behind earlier := by
  cases ahead : cursor.ahead <;> simp [synchronize, behind, ahead]

end Cursor

/-- The last complaint is about the token at hand. -/
def Cursor.Blames (cursor : Cursor) : Prop :=
  ∃ (reports : Array Diagnostic) (fault : Fault),
    cursor.reports = reports.push (.atToken cursor.current fault)

/-- What comes of counting, compared with reading at a depth. Only a parse that is given up leaves
the counter at another depth, and a syntax error is at the token at hand. Nothing is said where the
reader without a counter has used up its budget. -/
inductive Tracked (depth : Nat) (earlier : Array Diagnostic) :
    EStateM.Result Halt Cursor α → EStateM.Result Halt Counter α → Prop where
  | ok (value : α) (finish : Cursor) :
      Tracked depth earlier (.ok value finish) (.ok value ⟨finish.behind earlier, depth⟩)
  | misread {stopped : Cursor} (blames : stopped.Blames) :
      Tracked depth earlier (.error .misread stopped)
        (.error .misread ⟨stopped.behind earlier, depth⟩)
  | tooDeep (stopped : Cursor) (deeper : Nat) :
      Tracked depth earlier (.error .tooDeep stopped)
        (.error .tooDeep ⟨stopped.behind earlier, deeper⟩)
  | exhausted (stopped : Cursor) (outcome : EStateM.Result Halt Counter α) :
      Tracked depth earlier (.error .exhausted stopped) outcome

/-- A counting reader that does what another does at a depth. -/
def Tracks (depth : Nat) (reader : Reader α) (counting : Counting α) : Prop :=
  ∀ earlier start, Tracked depth earlier (reader start) (counting ⟨start.behind earlier, depth⟩)

namespace Tracks

variable {depth : Nat}

theorem pure (value : α) : Tracks depth (Pure.pure value) (Pure.pure value) :=
  fun _ start => .ok value start

theorem exhausted (counting : Counting α) : Tracks depth (throw .exhausted) counting :=
  fun _ start => .exhausted start _

theorem peek : Tracks depth Parse.peek (Counting.lift Parse.peek) :=
  fun _ start => .ok start.current start

theorem report (token : Token) (fault : Fault) :
    Tracks depth (Parse.report token fault) (Counting.lift (Parse.report token fault)) := by
  intro earlier start
  rw [Counting.lift_of_ok report_apply, Cursor.report_behind, report_apply]
  exact .ok () _

theorem misread (fault : Fault) :
    Tracks depth (Parse.misread fault : Reader α) (Counting.lift (Parse.misread fault)) := by
  intro earlier start
  rw [Counting.lift_of_error misread_apply, Cursor.report_behind, misread_apply]
  exact .misread ⟨start.reports, fault, rfl⟩

theorem accept (kinds : List Token.Kind) :
    Tracks depth (Parse.accept kinds) (Counting.lift (Parse.accept kinds)) := by
  intro earlier start
  by_cases mem : start.current.kind ∈ kinds
  · have memBehind : (start.behind earlier).current.kind ∈ kinds := mem
    rw [Counting.lift_of_ok (accept_of_mem memBehind), accept_of_mem mem]
    exact .ok _ start.advance
  · have notMemBehind : (start.behind earlier).current.kind ∉ kinds := mem
    rw [Counting.lift_of_ok (accept_of_not_mem notMemBehind), accept_of_not_mem mem]
    exact .ok _ start

theorem expect (kind : Token.Kind) (fault : Fault) :
    Tracks depth (Parse.expect kind fault) (Counting.lift (Parse.expect kind fault)) := by
  intro earlier start
  by_cases same : start.current.kind = kind
  · have sameBehind : (start.behind earlier).current.kind = kind := same
    rw [Counting.lift_of_ok (expect_of_kind sameBehind), expect_of_kind same]
    exact .ok _ start.advance
  · have otherBehind : (start.behind earlier).current.kind ≠ kind := same
    rw [Counting.lift_of_error (expect_of_ne otherBehind), Cursor.report_behind, expect_of_ne same]
    exact .misread ⟨start.reports, fault, rfl⟩

theorem bind {first : Reader β} {countingFirst : Counting β} {next : β → Reader α}
    {countingNext : β → Counting α} (firstTracks : Tracks depth first countingFirst)
    (nextTracks : ∀ value, Tracks depth (next value) (countingNext value)) :
    Tracks depth (first >>= next) (countingFirst >>= countingNext) := by
  intro earlier start
  have tracked := firstTracks earlier start
  change Tracked depth earlier (EStateM.bind first next start)
    (EStateM.bind countingFirst countingNext _)
  unfold EStateM.bind
  generalize first start = outcome at tracked
  generalize countingFirst _ = counted at tracked
  cases tracked with
  | ok value finish => exact nextTracks value earlier finish
  | misread blames => exact .misread blames
  | tooDeep stopped deeper => exact .tooDeep stopped deeper
  | exhausted stopped _ => exact .exhausted stopped _

theorem nested {limit : Int} {reader : Reader α} {counting : Counting α}
    (tracks : Tracks (depth + 1) reader counting) :
    Tracks depth (do descend limit (depth + 1); reader) (Counting.nested limit counting) := by
  intro earlier start
  unfold Counting.nested
  by_cases within : Within limit (depth + 1)
  · rw [bind_of_ok (descend_of_within within)]
    simp only [Counting.lift_of_ok (descend_of_within within)]
    have tracked := tracks earlier start
    generalize reader start = outcome at tracked
    generalize counting _ = counted at tracked
    cases tracked with
    | ok value finish => exact .ok value finish
    | misread blames => exact .misread blames
    | tooDeep stopped deeper => exact .tooDeep stopped (deeper - 1)
    | exhausted stopped _ => exact .exhausted stopped _
  · rw [bind_of_error (descend_of_not_within within)]
    simp only [Counting.lift_of_error (descend_of_not_within within), Cursor.report_behind]
    exact .tooDeep _ (depth + 1)

theorem recovering {reader : Reader α} {counting : Counting α}
    (tracks : Tracks depth reader counting) :
    Tracks depth (Parse.recovering reader) (Counting.recovering counting) := by
  intro earlier start
  have tracked := tracks earlier start
  unfold Parse.recovering Counting.recovering
  generalize reader start = outcome at tracked
  generalize counting _ = counted at tracked
  cases tracked with
  | ok value finish => exact .ok (some value) finish
  | @misread stopped blames =>
      simp only [Cursor.synchronize_behind]
      exact .ok none stopped.synchronize
  | tooDeep stopped deeper => exact .tooDeep stopped deeper
  | exhausted stopped _ => exact .exhausted stopped _

theorem attemptUnless {stops : List Token.Kind} {reader : Reader α} {counting : Counting α}
    (tracks : Tracks depth reader counting) :
    Tracks depth (Parse.attemptUnless stops reader) (Counting.attemptUnless stops counting) := by
  apply Tracks.bind .peek
  intro token
  split
  · exact .pure none
  · apply Tracks.bind tracks.recovering
    intro value
    exact .pure (some value)

theorem blames {reader : Reader α} {counting : Counting α} {start stopped : Cursor}
    (tracks : Tracks depth reader counting) (misread : reader start = .error .misread stopped) :
    stopped.Blames := by
  have tracked := tracks #[] start
  rw [misread] at tracked
  generalize counting _ = counted at tracked
  cases tracked with
  | misread blames => exact blames

theorem agree (limit : Int) :
    primitives.Agree Counting.primitives limit limit (· ≤ ·)
      fun _ depth _ reader counting => Tracks depth reader counting where
  pure := .pure
  bind := .bind
  spend {fuel more} le := ⟨more - 1, by omega, by omega⟩
  exhausted _ _ := .exhausted _
  accept _ := .accept _
  expect _ _ := .expect _ _
  report token _ := .report token _
  misread _ := .misread _
  nested := .nested
  attempt _ := .attemptUnless

end Tracks

section Readers

variable {limit : Int} {fuel more : Nat}

theorem declaration_tracks (le : fuel ≤ more) (depth : Nat) :
    Tracks depth (declaration limit fuel depth) (Counting.declaration limit more) :=
  .recovering ((Tracks.agree limit).declaration fuel more le depth 0)

theorem program_tracks (le : fuel ≤ more) (done : List Stmt) :
    Tracks 0 (program limit fuel done) (Counting.program limit more done) :=
  (Tracks.agree limit).program fuel more le done

end Readers

section Finishing

/-- The outcome with another cursor. -/
def onCursor {α : Type} (change : Cursor → Cursor) :
    EStateM.Result Halt Cursor α → EStateM.Result Halt Cursor α
  | .ok value cursor => .ok value (change cursor)
  | .error halt cursor => .error halt (change cursor)

/-- The outcome without the counter. -/
def Counting.forget {α : Type} : EStateM.Result Halt Counter α → EStateM.Result Halt Cursor α
  | .ok value counter => .ok value counter.cursor
  | .error halt counter => .error halt counter.cursor

/-- The budget was not used up. -/
def Finishes {α : Type} (outcome : EStateM.Result Halt Cursor α) : Prop :=
  ∀ stopped, outcome ≠ .error .exhausted stopped

variable {depth : Nat}

theorem Conduct.finishes {room takes : Nat} {meaning : α → List Token → Prop} {start : Cursor}
    {outcome : EStateM.Result Halt Cursor α} (conduct : Conduct room takes meaning start outcome)
    (short : start.ahead.length < room) : Finishes outcome := by
  rintro stopped rfl
  cases conduct with
  | exhausted leads long => omega
  | halted leads cause reported => exact cause rfl

theorem Tracked.forget_eq {earlier : Array Diagnostic} {outcome : EStateM.Result Halt Cursor α}
    {counted : EStateM.Result Halt Counter α} (tracked : Tracked depth earlier outcome counted)
    (finishes : Finishes outcome) :
    Counting.forget counted = onCursor (·.behind earlier) outcome := by
  cases tracked with
  | ok value finish => rfl
  | misread blames => rfl
  | tooDeep stopped deeper => rfl
  | exhausted stopped _ => exact absurd rfl (finishes stopped)

theorem onCursor_behind_empty (outcome : EStateM.Result Halt Cursor α) :
    onCursor (·.behind #[]) outcome = outcome := by
  cases outcome <;> simp only [onCursor, Cursor.behind_empty]

end Finishing

end Parse

open Parse

/-- The outcome of a parse as its result. -/
def Parsed.ofResult : EStateM.Result Halt Cursor (List Stmt) → Parsed
  | .ok stmts cursor => ⟨.ok stmts, cursor.reports.toList⟩
  | .error halt cursor => ⟨.error halt, cursor.reports.toList⟩

/-- Parses with a counter of the nesting. -/
def Parse.Counting.parse (limit : Int) (tokens : List Token) : Parsed :=
  let start := Cursor.ofTokens tokens
  .ofResult (forget (program limit (budget start.ahead.length) [] ⟨start, 0⟩))

theorem parse_eq_ofResult (limit : Int) (tokens : List Token) :
    parse limit tokens =
      .ofResult (program limit (budget (Cursor.ofTokens tokens).ahead.length) []
        (.ofTokens tokens)) :=
  rfl

theorem Parse.Counting.parse_eq (limit : Int) (tokens : List Token) :
    Counting.parse limit tokens = LoxLang.parse limit tokens := by
  have finishes := (parse_conduct limit tokens).finishes (Nat.lt_succ_self _)
  have tracked := @program_tracks limit (budget (Cursor.ofTokens tokens).ahead.length) _
    (Nat.le_refl _) [] #[] (.ofTokens tokens)
  rw [Cursor.behind_empty] at tracked
  rw [Counting.parse, tracked.forget_eq finishes, onCursor_behind_empty, parse_eq_ofResult]

end LoxLang
