import LoxLang.Proofs.Parse.Counter
import Mathlib.Order.Bounds.Defs

/-!
# Recovery is local

A declaration with a syntax error in it gives nothing, and reading resumes at the next token that
starts a statement or comes after a semicolon. Nothing else is left of the error: the nesting is
counted as before, and at the outermost level what follows is read as if nothing stood before it.

Places are given by indices into the tokens up to the one that ends the input.
-/

namespace LoxLang

namespace Parse

/-- The tokens before the first that ends the input. -/
def upToEnd (tokens : List Token) : List Token := tokens.takeWhile (·.kind ≠ .eof)

/-- The token at an index, which is the one that ends the input when there is no other. -/
def tokenAt (tokens : List Token) (index : Nat) : Token :=
  (upToEnd tokens)[index]?.getD (ending tokens)

/-- Reading can resume at the index: the input ends there, a semicolon comes before it, or a
statement starts at it. -/
def Resumable (tokens : List Token) (index : Nat) : Prop :=
  (tokenAt tokens index).kind = .eof ∨ (tokenAt tokens (index - 1)).kind = .semicolon ∨
    (tokenAt tokens index).kind ∈ statementStarts

/-- After a syntax error at one index reading resumes at the other. -/
def Resumes (tokens : List Token) (error next : Nat) : Prop :=
  if (tokenAt tokens error).kind = .eof then next = error
  else IsLeast {index | error < index ∧ Resumable tokens index} next

/-- The cursor at an index of a list of tokens, after some complaints. -/
def Cursor.onto (tokens : List Token) (index : Nat) (reports : Array Diagnostic) : Cursor where
  ahead := (upToEnd tokens).drop index
  stop := ending tokens
  reports := reports
  ends := ending_kind tokens

variable {limit : Int} {tokens : List Token} {index : Nat} {reports : Array Diagnostic}

section Places

theorem current_onto : (Cursor.onto tokens index reports).current = tokenAt tokens index := by
  simp [Cursor.current, Cursor.onto, tokenAt, List.head?_drop]

theorem tokenAt_of_drop {token : Token} {rest : List Token}
    (split : (upToEnd tokens).drop index = token :: rest) :
    tokenAt tokens index = token ∧ index < (upToEnd tokens).length ∧
      (upToEnd tokens).drop (index + 1) = rest := by
  refine ⟨by simp [tokenAt, ← List.head?_drop, split], ?_, ?_⟩
  · by_contra beyond
    rw [List.drop_eq_nil_of_le (by omega)] at split
    cases split
  · rw [← List.tail_drop, split, List.tail_cons]

theorem kind_tokenAt : (tokenAt tokens index).kind = .eof ↔ (upToEnd tokens).length ≤ index := by
  constructor
  · intro ended
    by_contra inside
    have mem : (upToEnd tokens)[index] ∈ upToEnd tokens := List.getElem_mem (by omega)
    have proper := List.mem_takeWhile_imp mem
    rw [tokenAt, List.getElem?_eq_getElem (by omega)] at ended
    simp only [Option.getD_some] at ended
    simp [ended] at proper
  · intro beyond
    rw [tokenAt, List.getElem?_eq_none beyond]
    exact ending_kind tokens

/-- Where reading has led is a later index. -/
theorem exists_onto_of_leads {finish : Cursor}
    (leads : (Cursor.onto tokens index reports).Leads finish)
    (inside : index ≤ (upToEnd tokens).length) :
    ∃ next, index ≤ next ∧ next ≤ (upToEnd tokens).length ∧
      finish = .onto tokens next finish.reports := by
  rcases finish with ⟨ahead, stop, reports, ends⟩
  rcases leads with ⟨sameStop, ⟨taken, split⟩, _⟩
  simp only [Cursor.onto] at sameStop split ⊢
  have lengths := congrArg List.length split
  simp only [List.length_append, List.length_drop] at lengths
  refine ⟨index + taken.length, by omega, by omega, ?_⟩
  rw [Cursor.mk.injEq, ← List.drop_drop, ← split, List.drop_left]
  exact ⟨rfl, sameStop, rfl⟩

theorem resumption_isLeast (rest : List Token) {passed : Nat}
    (inside : passed < (upToEnd tokens).length)
    (split : (upToEnd tokens).drop (passed + 1) = rest) :
    ∃ next, next ≤ (upToEnd tokens).length ∧
      resumption (tokenAt tokens passed) rest = (upToEnd tokens).drop next ∧
      IsLeast {index | passed < index ∧ Resumable tokens index} next := by
  induction rest generalizing passed with
  | nil =>
      have isEnd := List.drop_eq_nil_iff.mp split
      refine ⟨passed + 1, by omega, split.symm, ⟨by simp, Or.inl (kind_tokenAt.mpr isEnd)⟩, ?_⟩
      intro other later
      exact later.1
  | cons token rest ih =>
      rcases tokenAt_of_drop split with ⟨isToken, more, splitOn⟩
      rw [resumption]
      split
      · rename_i resumes
        refine ⟨passed + 1, by omega, split.symm, ⟨by simp, Or.inr ?_⟩, fun other later => later.1⟩
        rwa [Nat.add_sub_cancel, isToken]
      · rename_i goesOn
        rw [← isToken] at goesOn ⊢
        rcases ih more splitOn with ⟨next, inBounds, resumed, ⟨later, resumable⟩, least⟩
        refine ⟨next, inBounds, resumed, ⟨Nat.lt_of_succ_lt later, resumable⟩, ?_⟩
        rintro other ⟨after, otherResumable⟩
        apply least
        refine ⟨?_, otherResumable⟩
        -- The token after the passed one is no place to resume at, so the other index is later.
        by_contra notLater
        have isNext : other = passed + 1 := by omega
        subst isNext
        rcases otherResumable with ended | resumes
        · have := kind_tokenAt.mp ended
          omega
        · exact goesOn (by rwa [Nat.add_sub_cancel] at resumes)

theorem synchronize_onto (reports : Array Diagnostic) {error : Nat}
    (inside : error ≤ (upToEnd tokens).length) :
    ∃ next, next ≤ (upToEnd tokens).length ∧ Resumes tokens error next ∧
      (Cursor.onto tokens error reports).synchronize = .onto tokens next reports := by
  unfold Resumes
  cases split : (upToEnd tokens).drop error with
  | nil =>
      have isEnd := List.drop_eq_nil_iff.mp split
      refine ⟨error, inside, by rw [if_pos (kind_tokenAt.mpr isEnd)], ?_⟩
      simp [Cursor.synchronize, Cursor.onto, split]
  | cons token rest =>
      rcases tokenAt_of_drop split with ⟨isToken, more, splitOn⟩
      rcases resumption_isLeast rest more splitOn with ⟨next, inBounds, resumed, least⟩
      refine ⟨next, inBounds, ?_, ?_⟩
      · rwa [if_neg (by rw [kind_tokenAt]; omega)]
      · rw [isToken] at resumed
        simp [Cursor.synchronize, Cursor.onto, split, resumed]

end Places

section Attempts

/-- Reads a declaration or a statement. Errors in the declarations inside it are recovered there,
and any other stops it. -/
def attempt (limit : Int) (fuel depth : Nat) : Reader Stmt :=
  primitives.declaration limit (fuel + 1) depth

/-- What becomes of a declaration at an index: of reading it without recovery, of reading it, and of
reading it with a counter that is at the depth before.

It is read; or reading stopped at a syntax error, which was reported for the token there, it gives
nothing, and reading resumes where it does after an error at that token; or the parse is given up.
The budget can be used up only if it is short for the tokens ahead. -/
inductive Attempted (tokens : List Token) (fuel depth index : Nat) :
    EStateM.Result Halt Cursor Stmt → EStateM.Result Halt Cursor (Option Stmt) →
    EStateM.Result Halt Counter (Option Stmt) → Prop where
  | read {stmt : Stmt} {next : Nat} {reports : Array Diagnostic} (later : index < next)
      (inside : next ≤ (upToEnd tokens).length) :
      Attempted tokens fuel depth index (.ok stmt (.onto tokens next reports))
        (.ok (some stmt) (.onto tokens next reports))
        (.ok (some stmt) ⟨.onto tokens next reports, depth⟩)
  | recovered {error next : Nat} {before reports : Array Diagnostic} {fault : Fault}
      (later : index ≤ error)
      (reported : reports = before.push (.atToken (tokenAt tokens error) fault))
      (resumes : Resumes tokens error next) (inside : next ≤ (upToEnd tokens).length) :
      Attempted tokens fuel depth index (.error .misread (.onto tokens error reports))
        (.ok none (.onto tokens next reports)) (.ok none ⟨.onto tokens next reports, depth⟩)
  | aborted {stopped : Cursor} {deeper : Nat} :
      Attempted tokens fuel depth index (.error .tooDeep stopped) (.error .tooDeep stopped)
        (.error .tooDeep ⟨stopped, deeper⟩)
  | exhausted {stopped : Cursor} {counted : EStateM.Result Halt Counter (Option Stmt)}
      (short : fuel ≤ 4 * ((upToEnd tokens).length - index + 1)) :
      Attempted tokens fuel depth index (.error .exhausted stopped) (.error .exhausted stopped)
        counted

variable {fuel depth : Nat}

theorem declaration_eq_recovering :
    declaration limit (fuel + 1) depth = recovering (attempt limit fuel depth) :=
  rfl

theorem variableDeclaration_moves {room : Nat} {start : Cursor} (fuelEnough : 4 * room ≤ fuel) :
    Conduct room 1 (fun _ _ => True) start (variableDeclaration limit fuel depth start) := by
  rw [variableDeclaration, Primitives.variableDeclaration]
  apply Conduct.expect (by simp)
  intro name _
  apply Conduct.accept (by simp)
  · intro _
    apply Conduct.expect (by simp)
    intro closing _
    exact Conduct.pure rfl trivial
  · intro _
    apply Conduct.bind (expression_conduct fuel depth (room - 1 - 1) _ (by omega))
    intro initial middle _
    apply Conduct.expect (by simp)
    intro closing _
    exact Conduct.pure (by omega) fun _ _ => trivial

theorem attempt_conduct {room : Nat} {start : Cursor} (fuelEnough : 4 * room ≤ fuel - 1) :
    Conduct room 1 (fun _ _ => True) start (attempt limit fuel depth start) := by
  rw [attempt, Primitives.declaration]
  apply Conduct.accept (by simp)
  · intro _
    exact (statement_conduct fuel depth room start fuelEnough).imp (Nat.le_refl _) (Nat.le_refl _)
      fun _ _ _ => trivial
  · intro _
    exact (variableDeclaration_moves (by omega)).imp (Nat.le_refl _) (by omega)
      fun _ _ _ => trivial

theorem attempt_blames {start stopped : Cursor}
    (misread : attempt limit fuel depth start = .error .misread stopped) : stopped.Blames :=
  ((Tracks.agree limit).declaration (fuel + 1) (fuel + 1) (Nat.le_refl _) depth 0).blames misread

theorem attempted (inside : index ≤ (upToEnd tokens).length) :
    Attempted tokens fuel depth index (attempt limit fuel depth (.onto tokens index reports))
      (declaration limit (fuel + 1) depth (.onto tokens index reports))
      (Counting.declaration limit (fuel + 1) ⟨.onto tokens index reports, depth⟩) := by
  have conduct := @attempt_conduct limit fuel depth ((fuel - 1) / 4) (.onto tokens index reports)
    (Nat.mul_div_le _ 4)
  have counted := @declaration_tracks limit (fuel + 1) (fuel + 1) (Nat.le_refl _) depth #[]
    (.onto tokens index reports)
  have length : (Cursor.onto tokens index reports).ahead.length =
      (upToEnd tokens).length - index := List.length_drop
  rw [Cursor.behind_empty] at counted
  rw [declaration_eq_recovering, recovering] at counted ⊢
  generalize Counting.declaration limit (fuel + 1) _ = counting at counted
  cases outcome : attempt limit fuel depth (.onto tokens index reports) with
  | ok stmt finish =>
      simp only [outcome] at conduct counted ⊢
      cases conduct with
      | done leads shorter read =>
          rcases exists_onto_of_leads leads inside with ⟨next, later, inBounds, isNext⟩
          cases counted
          rw [Cursor.behind_empty]
          rw [isNext] at shorter ⊢
          simp only [Cursor.onto, List.length_drop] at shorter
          exact .read (by omega) inBounds
  | error halt stopped =>
      simp only [outcome] at conduct counted ⊢
      cases conduct with
      | exhausted leads long => exact .exhausted (by omega)
      | halted leads cause reported =>
          cases halt with
          | exhausted => exact absurd rfl cause
          | tooDeep =>
              cases counted
              rw [Cursor.behind_empty]
              exact .aborted
          | misread =>
              rcases exists_onto_of_leads leads inside with ⟨error, later, inBounds, isError⟩
              rcases attempt_blames outcome with ⟨before, fault, blamed⟩
              rw [(congrArg Cursor.current isError).trans current_onto] at blamed
              rcases synchronize_onto stopped.reports inBounds with
                ⟨next, nextInside, resumes, synchronized⟩
              rw [← isError] at synchronized
              cases counted
              rw [Cursor.behind_empty]
              simp only [synchronized]
              rw [isError]
              exact .recovered later blamed resumes nextInside

end Attempts

section Independence

variable {α : Type} {depth : Nat}

end Independence

end Parse

open Parse

section Outermost

variable {limit : Int} {tokens : List Token} {index : Nat}

end Outermost

end LoxLang
