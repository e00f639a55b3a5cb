import LoxLang.Proofs.Parse.Completeness
import LoxLang.Proofs.Parse.Counter

/-!
# The nesting limit

A nesting limit either makes no difference to a parse, or the parse is given up where the limit is
passed. Up to there the two parses have gone the same way, so what has been reported then is a first
part of what is reported without a limit, and one complaint about the nesting follows it.

`Curbs` says this of a reader in comparison with the same reader without a limit. It is kept by the
primitives, so it holds of every reader. To know that the reports of a parse that was given up are a
first part of those of the other, one has to know that the other, which goes on, takes none of its
reports back; that is the first half of `Curbs`.
-/

namespace LoxLang

namespace Parse

variable {α β : Type}

/-- The cursor where reading ended. -/
def finish : EStateM.Result Halt Cursor α → Cursor
  | .ok _ cursor => cursor
  | .error _ cursor => cursor

/-- The second cursor has the reports of the first and perhaps more, none of these about nesting. -/
def Cursor.Adds (start finish : Cursor) : Prop :=
  ∃ more, finish.reports.toList = start.reports.toList ++ more ∧
    ∀ report ∈ more, report.fault ≠ .nestingTooDeep

namespace Cursor.Adds

variable {start middle finish : Cursor}

theorem of_reports_eq (same : finish.reports = start.reports) : start.Adds finish :=
  ⟨[], by simp [same], by simp⟩

theorem report (cursor : Cursor) (token : Token) {fault : Fault} (other : fault ≠ .nestingTooDeep) :
    cursor.Adds (cursor.report token fault) :=
  ⟨[.atToken token fault], by simp [Cursor.report], by simpa [Diagnostic.atToken] using other⟩

theorem trans (first : start.Adds middle) (second : middle.Adds finish) : start.Adds finish := by
  rcases first with ⟨more, split, plain⟩
  rcases second with ⟨others, splitOn, plainOn⟩
  refine ⟨more ++ others, by rw [splitOn, split, List.append_assoc], ?_⟩
  exact List.forall_mem_append.mpr ⟨plain, plainOn⟩

theorem isPrefix (adds : start.Adds finish) : start.reports.toList <+: finish.reports.toList := by
  rcases adds with ⟨more, split, _⟩
  exact ⟨more, split.symm⟩

end Cursor.Adds

theorem recovering_reports (reader : Reader α) (start : Cursor) :
    (finish (recovering reader start)).reports = (finish (reader start)).reports := by
  simp only [recovering]
  cases reader start with
  | ok value middle => rfl
  | error halt stopped =>
      cases halt with
      | misread =>
          simp only [finish, Cursor.synchronize]
          split <;> rfl
      | tooDeep | exhausted => rfl

/-- A reader that keeps all reports, adds none about nesting and is not stopped by it. -/
def Unlimited (reader : Reader α) : Prop :=
  ∀ start, start.Adds (finish (reader start)) ∧
    ∀ stopped, reader start ≠ .error .tooDeep stopped

namespace Unlimited

theorem pure (value : α) : Unlimited (Pure.pure value) :=
  fun _ => ⟨.of_reports_eq rfl, fun _ same => by cases same⟩

theorem exhausted : Unlimited (throw .exhausted : Reader α) :=
  fun _ => ⟨.of_reports_eq rfl, fun _ same => by cases same⟩

theorem peek : Unlimited Parse.peek :=
  fun _ => ⟨.of_reports_eq rfl, fun _ same => by cases same⟩

theorem report (token : Token) {fault : Fault} (other : fault ≠ .nestingTooDeep) :
    Unlimited (Parse.report token fault) :=
  fun start => ⟨.report start token other, fun _ same => by cases same⟩

theorem misread {fault : Fault} (other : fault ≠ .nestingTooDeep) :
    Unlimited (Parse.misread fault : Reader α) :=
  fun start => ⟨.report start start.current other, fun _ same => by cases same⟩

theorem accept (kinds : List Token.Kind) : Unlimited (Parse.accept kinds) := by
  intro start
  by_cases mem : start.current.kind ∈ kinds
  · rw [accept_of_mem mem]
    exact ⟨.of_reports_eq rfl, fun _ same => by cases same⟩
  · rw [accept_of_not_mem mem]
    exact ⟨.of_reports_eq rfl, fun _ same => by cases same⟩

theorem expect (kind : Token.Kind) {fault : Fault} (other : fault ≠ .nestingTooDeep) :
    Unlimited (Parse.expect kind fault) := by
  intro start
  by_cases same : start.current.kind = kind
  · rw [expect_of_kind same]
    exact ⟨.of_reports_eq rfl, fun _ same => by cases same⟩
  · rw [expect_of_ne same]
    exact ⟨.report start start.current other, fun _ same => by cases same⟩

theorem bind {first : Reader β} {next : β → Reader α} (firstUnlimited : Unlimited first)
    (nextUnlimited : ∀ value, Unlimited (next value)) : Unlimited (first >>= next) := by
  intro start
  rcases firstUnlimited start with ⟨adds, goesOn⟩
  cases outcome : first start with
  | error halt stopped =>
      rw [bind_of_error outcome]
      rw [outcome] at adds goesOn
      exact ⟨adds, fun other same => by cases same; exact goesOn _ rfl⟩
  | ok value middle =>
      rw [bind_of_ok outcome]
      rw [outcome] at adds
      exact ⟨adds.trans (nextUnlimited value middle).1, (nextUnlimited value middle).2⟩

theorem recovering {reader : Reader α} (unlimited : Unlimited reader) :
    Unlimited (Parse.recovering reader) := by
  intro start
  rcases unlimited start with ⟨adds, goesOn⟩
  refine ⟨adds.trans (.of_reports_eq (recovering_reports reader start)), ?_⟩
  intro stopped same
  simp only [Parse.recovering] at same
  split at same
  · cases same
  · cases same
  · rename_i halt stop _ outcome
    cases same
    exact goesOn _ outcome

end Unlimited

/-- What a limit makes of an outcome: it stays the same, or reading stops after a first part of the
reports with a complaint about the nesting. -/
inductive Curbed : EStateM.Result Halt Cursor α → EStateM.Result Halt Cursor α → Prop
  | spared (outcome : EStateM.Result Halt Cursor α) : Curbed outcome outcome
  | stopped {stop : Cursor} {before : List Diagnostic} {token : Token}
      {outcome : EStateM.Result Halt Cursor α}
      (reports : stop.reports.toList = before ++ [.atToken token .nestingTooDeep])
      (first : before <+: (finish outcome).reports.toList) :
      Curbed (.error .tooDeep stop) outcome

/-- What a limit makes of a reader. -/
structure Curbs (reader readerOff : Reader α) : Prop where
  unlimited : Unlimited readerOff
  curbed : ∀ start, Curbed (reader start) (readerOff start)

namespace Curbs

theorem refl {reader : Reader α} (unlimited : Unlimited reader) : Curbs reader reader :=
  ⟨unlimited, fun start => .spared (reader start)⟩

theorem bind {first firstOff : Reader β} {next nextOff : β → Reader α}
    (firstCurbs : Curbs first firstOff)
    (nextCurbs : ∀ value, Curbs (next value) (nextOff value)) :
    Curbs (first >>= next) (firstOff >>= nextOff) := by
  refine ⟨.bind firstCurbs.unlimited fun value => (nextCurbs value).unlimited, ?_⟩
  intro start
  have curbed := firstCurbs.curbed start
  generalize limited : first start = outcome at curbed
  cases curbed with
  | spared _ =>
      cases outcomeOff : firstOff start with
      | ok value middle =>
          rw [bind_of_ok (limited.trans outcomeOff), bind_of_ok outcomeOff]
          exact (nextCurbs value).curbed middle
      | error halt stop =>
          rw [bind_of_error (limited.trans outcomeOff), bind_of_error outcomeOff]
          exact .spared _
  | @stopped stop before token _ reports isFirst =>
      rw [bind_of_error limited]
      cases outcomeOff : firstOff start with
      | ok value middle =>
          -- Without the limit reading goes on, and what it adds comes behind.
          rw [outcomeOff] at isFirst
          rw [bind_of_ok outcomeOff]
          exact .stopped reports
            (isFirst.trans ((nextCurbs value).unlimited middle).1.isPrefix)
      | error halt stopOff =>
          rw [outcomeOff] at isFirst
          rw [bind_of_error outcomeOff]
          exact .stopped reports isFirst

theorem recovering {reader readerOff : Reader α} (curbs : Curbs reader readerOff) :
    Curbs (Parse.recovering reader) (Parse.recovering readerOff) := by
  refine ⟨.recovering curbs.unlimited, ?_⟩
  intro start
  have curbed := curbs.curbed start
  have kept := recovering_reports readerOff start
  generalize limited : reader start = outcome at curbed
  cases curbed with
  | spared _ =>
      rw [Parse.recovering, limited]
      exact .spared _
  | stopped reports isFirst =>
      rw [← kept] at isFirst
      rw [Parse.recovering, limited]
      exact .stopped reports isFirst

theorem attemptUnless {stops : List Token.Kind} {reader readerOff : Reader α}
    (curbs : Curbs reader readerOff) :
    Curbs (Parse.attemptUnless stops reader) (Parse.attemptUnless stops readerOff) := by
  apply Curbs.bind (.refl .peek)
  intro token
  split
  · exact .refl (.pure none)
  · apply Curbs.bind curbs.recovering
    intro value
    exact .refl (.pure (some value))

variable {off : Int}

theorem descend (limit : Int) (isOff : off ≤ 0) (depth : Nat) :
    Curbs (Parse.descend limit depth) (Parse.descend off depth) := by
  have without : Parse.descend off depth = Pure.pure () :=
    funext fun start => descend_of_within (Within.of_nonpos isOff)
  rw [without]
  refine ⟨.pure (), fun start => ?_⟩
  by_cases within : Within limit depth
  · rw [descend_of_within within]
    exact .spared _
  · rw [descend_of_not_within within]
    have reports : (start.report start.current .nestingTooDeep).reports.toList =
        start.reports.toList ++ [.atToken start.current .nestingTooDeep] := by simp [Cursor.report]
    exact .stopped reports List.prefix_rfl

theorem agree (limit : Int) (isOff : off ≤ 0) :
    primitives.Agree primitives limit off (· = ·)
      fun _ depth depthOff reader readerOff => depth = depthOff → Curbs reader readerOff where
  pure value _ := .refl (.pure value)
  bind first next same := .bind (first same) fun value => next value same
  spend {fuel _} same := ⟨fuel, same.symm, rfl⟩
  exhausted same both _ := by
    rw [both same.symm]
    exact .refl .exhausted
  accept _ _ := .refl (.accept _)
  expect _ noNesting _ := .refl (.expect _ noNesting)
  report token noNesting _ := .refl (.report token noNesting)
  misread noNesting _ := .refl (.misread noNesting)
  nested {_ depth _ _ _} curbs same := by
    subst same
    exact .bind (.descend limit isOff (depth + 1)) fun _ => curbs rfl
  attempt _ curbs same := .attemptUnless (curbs same)

end Curbs

section Readers

theorem program_curbs (limit : Int) {off : Int} (isOff : off ≤ 0) (fuel : Nat)
    (done : List Stmt) : Curbs (program limit fuel done) (program off fuel done) :=
  (Curbs.agree limit isOff).program fuel fuel rfl done rfl

theorem recovering_ne_misread (reader : Reader α) (start stopped : Cursor) :
    recovering reader start ≠ .error .misread stopped := by
  intro outcome
  rw [recovering] at outcome
  split at outcome
  · cases outcome
  · cases outcome
  · rename_i recovered _
    cases outcome
    exact recovered rfl

theorem program_ne_misread (limit : Int) (fuel : Nat) (done : List Stmt) (start stopped : Cursor) :
    program limit fuel done start ≠ .error .misread stopped := by
  induction fuel generalizing done start with
  | zero =>
      intro outcome
      rw [program, Primitives.program] at outcome
      cases outcome
  | succ fuel ih =>
      intro outcome
      by_cases ended : start.current.kind = .eof
      · rw [program_of_end ended] at outcome
        cases outcome
      · rw [program_of_more ended] at outcome
        cases declared : declaration limit fuel 0 start with
        | ok stmt middle =>
            rw [bind_of_ok declared] at outcome
            exact ih _ _ outcome
        | error halt stop =>
            rw [bind_of_error declared] at outcome
            cases outcome
            exact recovering_ne_misread _ start _ declared

end Readers

end Parse

open Parse

/-- Parsing gives statements or is given up at the nesting limit. -/
theorem parse_outcome_cases (limit : Int) (tokens : List Token) :
    (∃ stmts, (parse limit tokens).outcome = .ok stmts) ∨
      (parse limit tokens).outcome = .error .tooDeep := by
  have enough := parse_outcome_ne_exhausted limit tokens
  have recovers := program_ne_misread limit
    (budget (Cursor.ofTokens tokens).ahead.length) [] (Cursor.ofTokens tokens)
  simp only [parse] at enough ⊢
  generalize program limit _ [] _ = outcome at enough recovers
  cases outcome with
  | ok stmts finish => exact Or.inl ⟨stmts, rfl⟩
  | error halt stopped =>
      cases halt with
      | misread => exact (recovers stopped rfl).elim
      | exhausted => exact (enough rfl).elim
      | tooDeep => exact Or.inr rfl

section Comparison

variable {limit off : Int} {tokens : List Token}

theorem parse_unlimited (isOff : off ≤ 0) (tokens : List Token) :
    (∃ stmts, (parse off tokens).outcome = .ok stmts) ∧
      ∀ report ∈ (parse off tokens).diagnostics, report.fault ≠ .nestingTooDeep := by
  have unlimited := (program_curbs off isOff
    (budget (Cursor.ofTokens tokens).ahead.length) []).unlimited (Cursor.ofTokens tokens)
  have cases := parse_outcome_cases off tokens
  simp only [parse] at cases ⊢
  generalize program off _ [] _ = outcome at unlimited cases
  rcases unlimited with ⟨⟨more, split, plain⟩, goesOn⟩
  -- Nothing is reported before the parse, so all that is reported was added by it.
  have added : (finish outcome).reports.toList = more := by
    rw [split]
    rfl
  rw [← added] at plain
  cases outcome with
  | ok stmts last => exact ⟨⟨stmts, rfl⟩, plain⟩
  | error halt stopped =>
      rcases cases with ⟨stmts, isOk⟩ | isTooDeep
      · cases isOk
      · cases isTooDeep
        exact (goesOn stopped rfl).elim

theorem parse_eq_or_tooDeep (isOff : off ≤ 0) (limit : Int) (tokens : List Token) :
    parse limit tokens = parse off tokens ∨
      (parse limit tokens).outcome = .error .tooDeep ∧
        ∃ before token,
          (parse limit tokens).diagnostics = before ++ [.atToken token .nestingTooDeep] ∧
          before <+: (parse off tokens).diagnostics := by
  have curbed := (program_curbs limit isOff
    (budget (Cursor.ofTokens tokens).ahead.length) []).curbed (Cursor.ofTokens tokens)
  simp only [parse]
  generalize program limit _ [] _ = outcome at curbed ⊢
  generalize program off _ [] _ = outcomeOff at curbed ⊢
  cases curbed with
  | spared _ => exact Or.inl rfl
  | @stopped stop before token _ reports isFirst =>
      refine Or.inr ⟨rfl, before, token, reports, ?_⟩
      cases outcomeOff <;> exact isFirst

/-- What parses without a complaint is given up exactly if it is nested more deeply than the limit
permits. -/
theorem parse_tooDeep_iff {stmts : List Stmt} (isOff : off ≤ 0) (positive : 1 ≤ limit)
    (parsed : parse off tokens = ⟨.ok stmts, []⟩) :
    (parse limit tokens).outcome = .error .tooDeep ↔ limit < Stmt.nestingAll stmts := by
  constructor
  · intro tooDeep
    have read := readsBody_of_parse parsed
    -- Were it within the limit, it would be read to the end.
    by_contra notDeeper
    have within : Within limit (Stmt.nestingAll stmts) := by
      unfold Within
      omega
    rw [parse_complete read.formed within read.atoms] at tooDeep
    cases tooDeep
  · intro deeper
    rcases parse_eq_or_tooDeep isOff limit tokens with same | ⟨tooDeep, _⟩
    · have within := (readsBody_of_parse (same.trans parsed)).within
      unfold Within at within
      omega
    · exact tooDeep

end Comparison

/-- A nesting limit is exact and otherwise does not show. Counting the nesting with one counter
gives the parse. Without a limit there are always statements and never a complaint about nesting.
With one, parsing gives the same, or it is given up after a first part of the reports and with one
complaint about nesting. The latter happens to what parses without complaint exactly if it is nested
more deeply than the limit. -/
theorem parse_limit_exact (limit off : Int) (positive : 1 ≤ limit) (isOff : off ≤ 0)
    (tokens : List Token) :
    Counting.parse limit tokens = parse limit tokens ∧
    ((∃ stmts, (parse off tokens).outcome = .ok stmts) ∧
      ∀ report ∈ (parse off tokens).diagnostics, report.fault ≠ .nestingTooDeep) ∧
    (parse limit tokens = parse off tokens ∨
      (parse limit tokens).outcome = .error .tooDeep ∧
        ∃ before token,
          (parse limit tokens).diagnostics = before ++ [.atToken token .nestingTooDeep] ∧
          (Diagnostic.atToken token .nestingTooDeep).fault.message = "Too much nesting." ∧
          before <+: (parse off tokens).diagnostics) ∧
    ∀ stmts, parse off tokens = ⟨.ok stmts, []⟩ →
      ((parse limit tokens).outcome = .error .tooDeep ↔ limit < Stmt.nestingAll stmts) := by
  refine ⟨Counting.parse_eq limit tokens, parse_unlimited isOff tokens, ?_,
    fun _ => parse_tooDeep_iff isOff positive⟩
  rcases parse_eq_or_tooDeep isOff limit tokens with same | ⟨tooDeep, before, token, reports, first⟩
  · exact Or.inl same
  · exact Or.inr ⟨tooDeep, before, token, reports, rfl, first⟩

/-- A statement with a literal is nested two levels deep, so a limit of one stops it. -/
theorem parse_limit_exact_literal :
    ((1 : Int) ≤ 1 ∧ (0 : Int) ≤ 0) ∧
      (parse 1 [⟨.nilKeyword, "nil", .nil, 1⟩, ⟨.semicolon, ";", .nil, 1⟩]).outcome =
        .error .tooDeep := by
  refine ⟨⟨by decide, by decide⟩, ?_⟩
  refine ((parse_limit_exact 1 0 (by decide) (by decide) _).2.2.2 [.expression (.literal .nil)]
    ?_).mpr (by decide)
  apply parse_complete
  · exact ⟨trivial, trivial⟩
  · exact Within.of_nonpos (Int.le_refl 0)
  · decide

end LoxLang
