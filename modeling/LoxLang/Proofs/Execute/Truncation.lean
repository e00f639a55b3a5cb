import LoxLang.Proofs.Execute.Footprint
import LoxLang.Proofs.Execute.Trace

/-!
# Runs on an output that breaks

A program is run twice, on an output that never fails and on one that takes only so many texts. The
two runs go side by side for as long as the second output takes what is printed: the machines differ
in the output alone. At the first text that it does not take, the second run ends, and what it has
printed stays what the first run had printed by then, whatever that run goes on to do. `Cut` says
this of two outcomes and of the statements that were begun on the way to them.

Only printing looks at the output. Everything else keeps the two runs side by side, and a failure is
passed on by every way of putting computations together.
-/

namespace LoxLang

/-- The machine with an output that takes no more texts than that in all. -/
def Machine.limited (total : Nat) (machine : Machine) : Machine :=
  { machine with sink := ⟨some (total - machine.printed.size)⟩ }

theorem Machine.limited_scopes (total : Nat) (machine : Machine) :
    (machine.limited total).scopes = machine.scopes :=
  rfl

/-- The statement begun on the machine with a limited output. -/
def Visit.limited (total : Nat) (visit : Visit) : Visit :=
  { visit with machine := visit.machine.limited total }

/-- The outcome with a limited output. -/
def Execution.limited {α : Type} (total : Nat) :
    EStateM.Result Failure Machine α → EStateM.Result Failure Machine α
  | .ok value machine => .ok value (machine.limited total)
  | .error failure machine => .error failure (machine.limited total)

/-- How a run on an output that takes `total` texts ends and what it begins, against the run on an
output that never fails. Either the texts fit and the runs differ in the output alone. Or the
limited run ends in a print statement, which finds the output full, and begins nothing after it. -/
inductive Cut {α : Type} (total : Nat) : EStateM.Result Failure Machine α → List Visit →
    EStateM.Result Failure Machine α → List Visit → Prop
  | whole {result : EStateM.Result Failure Machine α} {visits : List Visit}
      (unlimited : (final result).sink = .unlimited)
      (fits : (final result).printed.size ≤ total) :
      Cut total result visits (Execution.limited total result) (visits.map (Visit.limited total))
  | stopped {result : EStateM.Result Failure Machine α} {before later : List Visit} {value : Expr}
      {machine last : Machine} {shown : Value} {scopes : Scopes}
      (full : machine.printed.size = total)
      (evaluated : value.evaluate machine.scopes = .ok shown scopes)
      (more : machine.printed.toList ++ [shown.display] <+: (final result).printed.toList)
      (printed : last.printed = machine.printed)
      (bound : last.scopes.toList <:+ scopes.toList) :
      Cut total result (before ++ ⟨.print value, machine⟩ :: later) (.error .outputClosed last)
        ((before ++ [(⟨.print value, machine⟩ : Visit)]).map (Visit.limited total))

/-- What was printed before stays at the beginning of what is printed. -/
def Machine.Grows (before after : Machine) : Prop :=
  before.printed.toList <+: after.printed.toList

instance : Std.Refl Machine.Grows := ⟨fun _ => List.prefix_rfl⟩

instance : IsTrans Machine Machine.Grows := ⟨fun _ _ _ => List.IsPrefix.trans⟩

/-- A computation that prints nothing and does not look at the output. -/
structure Quiet {α : Type} (run : Execution α) : Prop where
  keeps : Leads (fun before after => after.printed = before.printed ∧ after.sink = before.sink) run
  limited : ∀ total machine, run (machine.limited total) = Execution.limited total (run machine)

namespace Quiet

variable {α β : Type}

theorem grows {run : Execution α} (quiet : Quiet run) : Leads Machine.Grows run := by
  intro machine
  exact ⟨[], by rw [List.append_nil, (quiet.keeps machine).1]⟩

theorem pure (value : α) : Quiet (Pure.pure value : Execution α) :=
  ⟨fun _ => ⟨rfl, rfl⟩, fun _ _ => rfl⟩

theorem throw (failure : Failure) : Quiet (MonadExcept.throw failure : Execution α) :=
  ⟨fun _ => ⟨rfl, rfl⟩, fun _ _ => rfl⟩

theorem define (name : Text) (value : Value) : Quiet (Execution.define name value) :=
  ⟨fun _ => ⟨rfl, rfl⟩, fun _ _ => rfl⟩

theorem evaluating (evaluation : Evaluation α) : Quiet (Execution.evaluating evaluation) := by
  constructor
  · intro machine
    rw [Execution.evaluating]
    cases evaluation machine.scopes <;> exact ⟨rfl, rfl⟩
  · intro total machine
    rw [Execution.evaluating, Execution.evaluating, Machine.limited_scopes]
    cases evaluation machine.scopes <;> rfl

theorem bind {first : Execution α} {next : α → Execution β} (firstQuiet : Quiet first)
    (nextQuiet : ∀ value, Quiet (next value)) : Quiet (first >>= next) := by
  constructor
  · intro machine
    have kept := firstQuiet.keeps machine
    simp only [Bind.bind, EStateM.bind]
    cases ran : first machine with
    | ok value after =>
        rw [ran] at kept
        have keptAfter := (nextQuiet value).keeps after
        exact ⟨keptAfter.1.trans kept.1, keptAfter.2.trans kept.2⟩
    | error failure after =>
        rw [ran] at kept
        exact kept
  · intro total machine
    simp only [Bind.bind, EStateM.bind, firstQuiet.limited]
    cases first machine with
    | ok value after => exact (nextQuiet value).limited total after
    | error failure after => rfl

end Quiet

theorem Sink.write?_of_room {room : Nat} (left : 0 < room) :
    (⟨some room⟩ : Sink).write? = some ⟨some (room - 1)⟩ := by
  cases room with
  | zero => cases left
  | succ room => rfl

namespace Execution

variable {machine : Machine} {sink : Sink}

theorem print_of_write? (written : machine.sink.write? = some sink) (text : Text) :
    print text machine = .ok () { machine with sink, printed := machine.printed.push text } := by
  rw [print_apply, written]
  rfl

theorem print_of_full (full : machine.sink.write? = none) (text : Text) :
    print text machine = .error .outputClosed machine := by
  rw [print_apply, full]
  rfl

theorem print_of_unlimited (unlimited : machine.sink = .unlimited) (text : Text) :
    print text machine = .ok () { machine with printed := machine.printed.push text } := by
  have written : machine.sink.write? = some machine.sink := by
    rw [unlimited]
    rfl
  exact print_of_write? written text

theorem print_limited_of_lt {total : Nat} (unlimited : machine.sink = .unlimited)
    (fewer : machine.printed.size < total) (text : Text) :
    print text (machine.limited total) = limited total (print text machine) := by
  have written : (machine.limited total).sink.write? =
      some ⟨some (total - machine.printed.size - 1)⟩ :=
    Sink.write?_of_room (Nat.sub_pos_of_lt fewer)
  rw [print_of_write? written, print_of_unlimited unlimited]
  simp [limited, Machine.limited, Nat.sub_sub]

theorem print_limited_of_eq {total : Nat} (full : machine.printed.size = total) (text : Text) :
    print text (machine.limited total) = .error .outputClosed (machine.limited total) := by
  apply print_of_full
  simp [Machine.limited, Sink.write?, full]

theorem print_grows (text : Text) : Leads Machine.Grows (print text) := by
  intro machine
  cases written : machine.sink.write? with
  | none =>
      rw [print_of_full written]
      exact List.prefix_rfl
  | some sink =>
      rw [print_of_write? written]
      exact ⟨[text], by simp [final]⟩

end Execution

/-- On an output that breaks, the computation is cut. -/
structure Traced.Breaks {α : Type} (total : Nat) (traced : Traced α) : Prop where
  grows : Leads Machine.Grows traced.run
  cut : ∀ machine : Machine, machine.sink = .unlimited → machine.printed.size ≤ total →
    Cut total (traced.run machine) (traced.visits machine)
      (traced.run (machine.limited total)) (traced.visits (machine.limited total))

namespace Cut

variable {α : Type} {total : Nat} {result cut : EStateM.Result Failure Machine α}
  {visits cutVisits : List Visit}

theorem prepend (outcomes : Cut total result visits cut cutVisits) (earlier : List Visit) :
    Cut total result (earlier ++ visits) cut
      (earlier.map (Visit.limited total) ++ cutVisits) := by
  cases outcomes with
  | whole unlimited fits =>
      rw [← List.map_append]
      exact whole unlimited fits
  | stopped full evaluated more printed bound =>
      rw [← List.map_append, ← List.append_assoc, ← List.append_assoc]
      exact stopped full evaluated more printed bound

/-- A print statement that has evaluated writes its text, or finds the output full. -/
theorem print {value : Expr} {shown : Value} {machine after : Machine}
    (evaluated : value.evaluate machine.scopes = .ok shown after.scopes)
    (samePrinted : after.printed = machine.printed) (unlimited : after.sink = .unlimited)
    (fits : machine.printed.size ≤ total) :
    Cut total (Execution.print shown.display after) [⟨.print value, machine⟩]
      (Execution.print shown.display (after.limited total))
      [⟨.print value, machine.limited total⟩] := by
  rw [← samePrinted] at fits
  rcases Nat.lt_or_eq_of_le fits with fewer | full
  · rw [Execution.print_limited_of_lt unlimited fewer, Execution.print_of_unlimited unlimited]
    exact whole unlimited (by simpa [final] using Nat.succ_le_of_lt fewer)
  · rw [Execution.print_limited_of_eq full, Execution.print_of_unlimited unlimited]
    rw [samePrinted] at full
    have more : machine.printed.toList ++ [shown.display] <+:
        (after.printed.push shown.display).toList :=
      ⟨[], by rw [List.append_nil, Array.toList_push, samePrinted]⟩
    exact @stopped _ total _ [] [] _ _ _ _ _ full evaluated more samePrinted List.suffix_rfl

theorem eq_limited (outcomes : Cut total result visits cut cutVisits)
    (fits : (final result).printed.toList.length ≤ total) :
    cut = Execution.limited total result ∧ cutVisits = visits.map (Visit.limited total) := by
  cases outcomes with
  | whole => exact ⟨rfl, rfl⟩
  | stopped full evaluated more printed bound =>
      have longer := more.length_le
      rw [List.length_append, Array.length_toList, full, List.length_singleton] at longer
      exact absurd fits (Nat.not_le_of_lt longer)

theorem exists_stopped (outcomes : Cut total result visits cut cutVisits)
    (exceeds : total < (final result).printed.toList.length) :
    ∃ last before value machine later shown scopes,
      cut = .error .outputClosed last ∧
        last.printed.toList = (final result).printed.toList.take total ∧
        last.scopes.toList <:+ scopes.toList ∧
        visits = before ++ ⟨.print value, machine⟩ :: later ∧
        cutVisits = (before ++ [(⟨.print value, machine⟩ : Visit)]).map (Visit.limited total) ∧
        value.evaluate machine.scopes = .ok shown scopes ∧
        (final result).printed.toList[total]? = some shown.display := by
  cases outcomes with
  | whole unlimited fits =>
      rw [Array.length_toList] at exceeds
      exact absurd exceeds (Nat.not_lt_of_le fits)
  | stopped full evaluated more printed bound =>
      subst full
      rcases more with ⟨rest, more⟩
      refine ⟨_, _, _, _, _, _, _, rfl, ?_, bound, rfl, rfl, evaluated, ?_⟩
      · rw [printed, ← more]
        simp
      · rw [← more]
        simp

end Cut

theorem Scopes.pop_toList_suffix (scopes : Scopes) : scopes.pop.toList <:+ scopes.toList := by
  rcases scopes with ⟨innermost, enclosing⟩
  cases enclosing with
  | nil => exact List.suffix_rfl
  | cons first others => exact List.suffix_cons _ _

namespace Traced.Breaks

variable {α β : Type} {total : Nat}

theorem silent {run : Execution α} (quiet : Quiet run) : Breaks total (.silent run) := by
  constructor
  · exact quiet.grows
  · intro machine unlimited fits
    rcases quiet.keeps machine with ⟨samePrinted, sameSink⟩
    have whole : Cut total (run machine) [] _ _ :=
      .whole (sameSink.trans unlimited) (by rwa [samePrinted])
    rwa [← quiet.limited] at whole

theorem bind {first : Traced α} {next : α → Traced β} (firstBreaks : first.Breaks total)
    (nextBreaks : ∀ value, (next value).Breaks total) : (first.bind next).Breaks total := by
  constructor
  · exact firstBreaks.grows.bind fun value => (nextBreaks value).grows
  · intro machine unlimited fits
    have outcomes := firstBreaks.cut machine unlimited fits
    simp only [Traced.bind, Bind.bind, EStateM.bind]
    generalize first.run machine = result at outcomes
    generalize first.visits machine = visits at outcomes
    generalize first.run (machine.limited total) = cut at outcomes
    generalize first.visits (machine.limited total) = cutVisits at outcomes
    cases outcomes with
    | whole unlimited fits =>
        cases result with
        | ok value after => exact ((nextBreaks value).cut after unlimited fits).prepend _
        | error failure after =>
            rw [List.append_nil]
            exact (List.append_nil _).symm ▸ .whole unlimited fits
    | stopped full evaluated more printed bound =>
        simp only [List.append_nil, List.append_assoc, List.cons_append]
        cases result with
        | ok value after =>
            exact .stopped full evaluated (more.trans ((nextBreaks value).grows after)) printed
              bound
        | error failure after => exact .stopped full evaluated more printed bound

theorem begun {execution : Traced Unit} (breaks : execution.Breaks total) (stmt : Stmt) :
    (Traced.begun stmt execution).Breaks total :=
  ⟨breaks.grows, fun machine unlimited fits => (breaks.cut machine unlimited fits).prepend [_]⟩

theorem inBlock {body : Traced Unit} (breaks : body.Breaks total) (statements : Nat) :
    (Traced.inBlock statements body).Breaks total := by
  constructor
  · intro machine
    have grown := breaks.grows (Execution.enter statements machine)
    simp only [Traced.inBlock, Execution.inBlock]
    generalize body.run (Execution.enter statements machine) = result at grown
    cases result <;> exact grown
  · intro machine unlimited fits
    have outcomes := breaks.cut (Execution.enter statements machine) unlimited fits
    have entered : Execution.enter statements (machine.limited total) =
        (Execution.enter statements machine).limited total := rfl
    simp only [Traced.inBlock, Execution.inBlock, entered]
    generalize body.run (Execution.enter statements machine) = result at outcomes
    generalize body.visits (Execution.enter statements machine) = visits at outcomes
    generalize body.run ((Execution.enter statements machine).limited total) = cut at outcomes
    generalize body.visits ((Execution.enter statements machine).limited total) = cutVisits
      at outcomes
    -- Leaving a block changes the scopes only, and drops the innermost one.
    cases outcomes with
    | whole unlimited fits => cases result <;> exact .whole unlimited fits
    | stopped full evaluated more printed bound =>
        have left := (Scopes.pop_toList_suffix _).trans bound
        cases result <;> exact .stopped full evaluated more printed left

theorem loop {condition : Execution Value} {body : Traced Unit} (quiet : Quiet condition)
    (breaks : body.Breaks total) (budget : Nat) :
    (Traced.loop condition body budget).Breaks total := by
  induction budget with
  | zero => exact silent (.throw _)
  | succ budget ih =>
      apply bind (silent quiet)
      intro value
      split
      · exact bind breaks fun _ => ih
      · exact silent (.pure ())

/-- A print statement is where a run is cut: it evaluates, and then finds the output full. -/
theorem print (budget : Nat) (value : Expr) : ((Stmt.print value).traced budget).Breaks total := by
  have run : ((Stmt.print value).traced budget).run = (Stmt.print value).execute budget :=
    Stmt.traced_run _
  constructor
  · rw [run, Stmt.execute]
    exact .bind (Quiet.evaluating value.evaluate).grows fun shown =>
      Execution.print_grows shown.display
  · intro machine unlimited fits
    rw [run]
    simp only [Stmt.execute, Bind.bind, EStateM.bind, (Quiet.evaluating value.evaluate).limited]
    have visited : ∀ start, ((Stmt.print value).traced budget).visits start =
        [⟨.print value, start⟩] := fun _ => rfl
    rw [visited, visited]
    cases evaluated : value.evaluate machine.scopes with
    | error failure scopes =>
        simp only [Execution.evaluating, evaluated]
        exact .whole unlimited fits
    | ok shown scopes =>
        simp only [Execution.evaluating, evaluated]
        exact .print evaluated rfl unlimited fits

end Traced.Breaks

namespace Stmt

variable {total : Nat}

theorem tracedAll_breaks_of_forall {budget : Nat} {stmts : List Stmt}
    (breaks : ∀ stmt ∈ stmts, (stmt.traced budget).Breaks total) :
    (tracedAll budget stmts).Breaks total := by
  induction stmts with
  | nil => exact .silent (.pure ())
  | cons first others ih =>
      rw [List.forall_mem_cons] at breaks
      exact .bind breaks.1 fun _ => ih breaks.2

theorem traced_breaks (budget : Nat) (stmt : Stmt) : (stmt.traced budget).Breaks total := by
  induction stmt with
  | missing =>
      have quiet : Quiet (missing.execute budget) := by
        rw [execute]
        exact .throw _
      exact .begun (.silent quiet) missing
  | expression value =>
      have quiet : Quiet ((expression value).execute budget) := by
        rw [execute]
        exact .bind (.evaluating _) fun _ => .pure ()
      exact .begun (.silent quiet) _
  | print value => exact .print budget value
  | declare name initial =>
      have quiet : Quiet ((declare name initial).execute budget) := by
        cases initial with
        | none =>
            rw [execute]
            exact .define _ _
        | some initial =>
            rw [execute]
            exact .bind (.evaluating _) fun _ => .define _ _
      exact .begun (.silent quiet) _
  | block body ih =>
      rw [traced]
      exact .begun (.inBlock (tracedAll_breaks_of_forall ih) _) _
  | ifThen condition consequence ih =>
      rw [traced]
      refine .begun (.bind (.silent (.evaluating _)) fun value => ?_) _
      split
      · exact ih
      · exact .silent (.pure ())
  | ifElse condition consequence alternative ih ihAlternative =>
      rw [traced]
      refine .begun (.bind (.silent (.evaluating _)) fun value => ?_) _
      split
      · exact ih
      · exact ihAlternative
  | loop condition body ih =>
      rw [traced]
      exact .begun (.loop (.evaluating _) ih budget) _

/-- Statements are cut by an output that breaks. -/
theorem tracedAll_breaks (budget : Nat) (stmts : List Stmt) :
    (tracedAll budget stmts).Breaks total :=
  tracedAll_breaks_of_forall fun stmt _ => traced_breaks budget stmt

end Stmt

end LoxLang
