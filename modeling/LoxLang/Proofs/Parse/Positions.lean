import LoxLang.Proofs.Parse.Limit
import LoxLang.Proofs.Parse.Recovery

/-!
# Parsing by positions

A cursor holds the tokens that are still ahead, so a reader cannot look at a token that is not
there. Here are the readers over a list of tokens that stays whole and a position in it. They look
at the token at the position or at the one before it, and such a look fails outside the list. They
also keep a record of every look and of every declaration they attempt.

They do what the readers with a cursor do, and no look fails: the position never passes the first
token that ends the input, and a look back comes only after a token was passed. The second is
delicate where a syntax error is recovered, since the first thing done there is to look back. It
holds because declarations are attempted only before the end: an error either leaves a token to
pass or comes after one.
-/

namespace LoxLang.Parse

variable {α β : Type}

/-- A look at the token at a position, or at the one before it. The position is the number of tokens
that have been passed. -/
inductive Look where
  | current (position : Nat)
  | previous (position : Nat)
deriving DecidableEq, Repr

namespace Look

/-- The token that a look meets in a list. -/
def token? (tokens : List Token) : Look → Option Token
  | current position => tokens[position]?
  | previous 0 => none
  | previous (position + 1) => tokens[position]?

/-- A look at a token no later than the one at `last`, and back only from behind a token. -/
def InBounds (last : Nat) : Look → Prop
  | current position => position ≤ last
  | previous position => 0 < position ∧ position ≤ last

end Look

/-- An attempt at a declaration: the positions where it started and where it ended, and whether the
parse was given up in it. -/
structure Attempt where
  start : Nat
  finish : Nat
  givenUp : Bool
deriving DecidableEq, Repr

/-- The state of a parse by positions. The latest look and the latest attempt come first. -/
structure Walk where
  tokens : List Token
  position : Nat
  reports : Array Diagnostic
  looks : List Look
  attempts : List Attempt
deriving DecidableEq, Repr

/-- Why a walk stops: for a reason that readers have, or at a token that is not there. -/
inductive Stop where
  | halt (halt : Halt)
  | outside
deriving DecidableEq, Repr

/-- A reader that walks through a list of tokens. -/
abbrev Walker := EStateM Stop Walk

namespace Walk

/-- Looks at the token at the position. -/
def see (walk : Walk) : Walk := { walk with looks := .current walk.position :: walk.looks }

/-- Looks at the token before the position. -/
def lookBack (walk : Walk) : Walk := { walk with looks := .previous walk.position :: walk.looks }

/-- Passes the token at the position. -/
def step (walk : Walk) : Walk := { walk with position := walk.position + 1 }

/-- The walk with one more complaint. -/
def report (walk : Walk) (token : Token) (fault : Fault) : Walk :=
  { walk with reports := walk.reports.push (.atToken token fault) }

/-- The walk with one more attempt. -/
def attempted (walk : Walk) (attempt : Attempt) : Walk :=
  { walk with attempts := attempt :: walk.attempts }

end Walk

namespace Walker

/-- The token at the position. -/
def current : Walker Token := fun walk =>
  match Look.token? walk.tokens (.current walk.position) with
  | some token => .ok token walk.see
  | none => .error .outside walk.see

/-- The token before the position. -/
def previous : Walker Token := fun walk =>
  match Look.token? walk.tokens (.previous walk.position) with
  | some token => .ok token walk.lookBack
  | none => .error .outside walk.lookBack

/-- Stops for a reason that readers have. -/
def halt (halt : Halt) : Walker α := throw (.halt halt)

/-- Whether the token at the position ends the input. -/
def atEnd : Walker Bool := return (← current).kind = .eof

/-- Whether the token at the position is of a kind; no token that ends the input is. -/
def check (kind : Token.Kind) : Walker Bool := do
  if ← atEnd then return false
  else return (← current).kind = kind

/-- Passes the token at the position, unless it ends the input, and looks back. -/
def advance : Walker Token := do
  if ← atEnd then previous
  else
    modify Walk.step
    previous

/-- Whether the token at the position is of one of the kinds, which are checked one by one. -/
def checkAny : List Token.Kind → Walker Bool
  | [] => return false
  | kind :: kinds => do
    if ← check kind then return true
    else checkAny kinds

/-- Passes a token of one of the kinds. -/
def accept (kinds : List Token.Kind) : Walker (Option Token) := do
  if ← checkAny kinds then return some (← advance)
  else return none

/-- Reports a fault at a token and goes on. -/
def report (token : Token) (fault : Fault) : Walker Unit := modify (·.report token fault)

/-- Reports a fault at the token at the position and stops. -/
def misread (fault : Fault) : Walker α := do
  report (← current) fault
  halt .misread

/-- Passes a token of the given kind, or reports a fault and stops. -/
def expect (kind : Token.Kind) (fault : Fault) : Walker Token := do
  if ← check kind then advance
  else misread fault

/-- Stops when a depth is over the limit. -/
def descend (limit : Int) (depth : Nat) : Walker Unit := do
  if 0 < limit ∧ limit < depth then
    report (← current) .nestingTooDeep
    halt .tooDeep

/-- Passes tokens until one after a semicolon, one that starts a statement, or the end. -/
def resume : Nat → Walker Unit
  | 0 => halt .exhausted
  | fuel + 1 => do
    if ← atEnd then return
    else if (← previous).kind = .semicolon then return
    else if (← current).kind ∈ statementStarts then return
    else
      let _ ← advance
      resume fuel

/-- Goes to where reading resumes after a syntax error. The token at the error is passed. -/
def synchronize : Walker Unit := do
  let _ ← advance
  resume (← get).tokens.length

/-- Recovers a walker from a syntax error. -/
def recovering (walker : Walker α) : Walker (Option α) := fun walk =>
  match walker walk with
  | .ok value finish => .ok (some value) finish
  | .error (.halt .misread) stopped => (do synchronize; return none : Walker (Option α)) stopped
  | .error stop stopped => .error stop stopped

/-- Records an attempt with the positions between which the walker goes. -/
def attempting (walker : Walker α) : Walker α := fun walk =>
  match walker walk with
  | .ok value finish => .ok value (finish.attempted ⟨walk.position, finish.position, false⟩)
  | .error stop stopped =>
      .error stop (stopped.attempted ⟨walk.position, stopped.position, true⟩)

/-- Nothing at a token of one of the kinds and at the end, and otherwise an attempt that is
recovered from a syntax error. -/
def attemptUnless (stops : List Token.Kind) (walker : Walker α) : Walker (Option (Option α)) := do
  if ← checkAny stops then return none
  else if ← atEnd then return none
  else return some (← attempting (recovering walker))

/-- Reading by positions. -/
@[reducible] def primitives : Primitives Walker where
  exhausted := halt .exhausted
  accept := accept
  expect := expect
  report := report
  misread := misread
  nested limit depth walker := do
    descend limit depth
    walker
  attempt := attemptUnless

/-- Reads a program by positions. -/
def program (limit : Int) (fuel : Nat) (done : List Stmt) : Walker (List Stmt) :=
  primitives.program limit fuel done

end Walker

/-- Up to the first token that ends the input there is a token at every index. -/
theorem getElem?_eq_tokenAt {tokens : List Token} (ended : ∃ token ∈ tokens, token.kind = .eof)
    {index : Nat} (inside : index ≤ (upToEnd tokens).length) :
    tokens[index]? = some (tokenAt tokens index) := by
  have split : (upToEnd tokens ++ tokens.dropWhile (·.kind ≠ .eof))[index]? = tokens[index]? :=
    congrArg (·[index]?) List.takeWhile_append_dropWhile
  rw [← split, tokenAt]
  rcases Nat.lt_or_eq_of_le inside with before | rfl
  · rw [List.getElem?_append_left before, List.getElem?_eq_getElem before, Option.getD_some]
  · have found : (tokens.find? (·.kind = .eof)).isSome := by simpa using ended
    rcases Option.isSome_iff_exists.mp found with ⟨stop, isStop⟩
    have first := List.find?_eq_head?_dropWhile_not (·.kind = .eof) tokens
    rw [List.getElem?_append_right (Nat.le_refl _), Nat.sub_self, ← List.head?_eq_getElem?,
      List.getElem?_eq_none (Nat.le_refl _), Option.getD_none, ending, isStop, Option.getD_some]
    simpa [isStop] using first.symm

namespace Walk

/-- The cursor at the position of a walk. -/
def cursor (walk : Walk) : Cursor := .onto walk.tokens walk.position walk.reports

/-- What holds of a walk all along: an end of input is among its tokens and not passed, the looks
were in bounds, and the attempts passed a token or the parse was given up in them. -/
structure Sound (walk : Walk) : Prop where
  ended : ∃ token ∈ walk.tokens, token.kind = .eof
  inside : walk.position ≤ (upToEnd walk.tokens).length
  looks : ∀ look ∈ walk.looks, look.InBounds (upToEnd walk.tokens).length
  attempts : ∀ attempt ∈ walk.attempts, attempt.start < attempt.finish ∨ attempt.givenUp = true

/-- The parse goes on: it was not given up in any attempt. -/
structure Live (walk : Walk) : Prop extends walk.Sound where
  ongoing : ∀ attempt ∈ walk.attempts, attempt.givenUp = false

/-- A walk that another may become. -/
structure Leads (start finish : Walk) : Prop where
  tokens : finish.tokens = start.tokens
  position : start.position ≤ finish.position

theorem Leads.refl (walk : Walk) : walk.Leads walk := ⟨rfl, Nat.le_refl _⟩

theorem Leads.trans {start middle finish : Walk} (first : start.Leads middle)
    (second : middle.Leads finish) : start.Leads finish :=
  ⟨second.tokens.trans first.tokens, first.position.trans second.position⟩

variable {walk : Walk}

theorem current_cursor : walk.cursor.current = tokenAt walk.tokens walk.position := current_onto

theorem cursor_step : walk.step.cursor = walk.cursor.advance := by
  simp [cursor, step, Cursor.onto, Cursor.advance]

theorem atEnd_iff (sound : walk.Sound) :
    walk.cursor.current.kind = .eof ↔ walk.position = (upToEnd walk.tokens).length := by
  have inside := sound.inside
  rw [current_cursor, kind_tokenAt]
  omega

section Ahead

variable {token : Token} {rest : List Token}

theorem current_of_ahead (ahead : walk.cursor.ahead = token :: rest) :
    tokenAt walk.tokens walk.position = token ∧ walk.cursor.current.kind ≠ .eof := by
  rcases tokenAt_of_drop ahead with ⟨isToken, before, _⟩
  refine ⟨isToken, ?_⟩
  rw [current_cursor, Ne, kind_tokenAt]
  omega

/-- Reading resumes after a token where it resumes after the one before the next position. -/
theorem moved_step (ahead : walk.cursor.ahead = token :: rest) :
    walk.step.cursor.moved
        (resumption (tokenAt walk.tokens walk.position) walk.step.cursor.ahead) =
      walk.cursor.moved (resumption token rest) := by
  simp [cursor_step, Cursor.advance, Cursor.moved, ahead, current_of_ahead ahead]

end Ahead

theorem Live.see (live : walk.Live) : walk.see.Live :=
  { live with looks := List.forall_mem_cons.mpr ⟨live.inside, live.looks⟩ }

theorem Live.lookBack (live : walk.Live) (passed : 0 < walk.position) : walk.lookBack.Live :=
  { live with looks := List.forall_mem_cons.mpr ⟨⟨passed, live.inside⟩, live.looks⟩ }

theorem Live.step (live : walk.Live) (more : walk.cursor.current.kind ≠ .eof) : walk.step.Live := by
  have inside := live.inside
  have notEnd := (atEnd_iff live.toSound).not.mp more
  have still : walk.position + 1 ≤ (upToEnd walk.tokens).length := by omega
  exact { live with inside := still }

theorem Live.report (live : walk.Live) (token : Token) (fault : Fault) :
    (walk.report token fault).Live :=
  { live with }

end Walk

/-- What comes of walking, compared with reading at the same position. -/
inductive Follows (start : Walk) :
    EStateM.Result Stop Walk α → EStateM.Result Halt Cursor α → Prop where
  | ok {value : α} {finish : Walk} (leads : start.Leads finish) (live : finish.Live) :
      Follows start (.ok value finish) (.ok value finish.cursor)
  | misread {stopped : Walk} (leads : start.Leads stopped) (live : stopped.Live) :
      Follows start (.error (.halt .misread) stopped) (.error .misread stopped.cursor)
  | halted {halt : Halt} {stopped : Walk} (cause : halt ≠ .misread) (leads : start.Leads stopped)
      (sound : stopped.Sound) :
      Follows start (.error (.halt halt) stopped) (.error halt stopped.cursor)

namespace Walker

variable {walk middle : Walk}

theorem bind_of_ok {first : Walker β} {next : β → Walker α} {value : β}
    (walked : first walk = .ok value middle) : (first >>= next) walk = next value middle := by
  change EStateM.bind first next walk = _
  simp [EStateM.bind, walked]

theorem get_apply : (get : Walker Walk) walk = .ok walk walk := rfl

theorem current_apply (sound : walk.Sound) :
    current walk = .ok walk.cursor.current walk.see := by
  simp only [current, Look.token?, getElem?_eq_tokenAt sound.ended sound.inside,
    Walk.current_cursor]

theorem previous_apply (sound : walk.Sound) {passed : Nat} (last : walk.position = passed + 1) :
    previous walk = .ok (tokenAt walk.tokens passed) walk.lookBack := by
  have inside := sound.inside
  simp only [previous, last, Look.token?]
  rw [getElem?_eq_tokenAt sound.ended (by omega)]

theorem atEnd_apply (sound : walk.Sound) :
    atEnd walk = .ok (decide (walk.cursor.current.kind = .eof)) walk.see := by
  rw [atEnd, bind_of_ok (current_apply sound)]
  rfl

theorem advance_of_more (live : walk.Live) (more : walk.cursor.current.kind ≠ .eof) :
    advance walk = .ok walk.cursor.current walk.see.step.lookBack := by
  rw [advance, bind_of_ok (atEnd_apply live.toSound), if_neg (by simpa using more)]
  rw [Walk.current_cursor]
  exact previous_apply (live.see.step more).toSound rfl

theorem advance_of_end (live : walk.Live) (atEnd : walk.cursor.current.kind = .eof) {passed : Nat}
    (last : walk.position = passed + 1) :
    advance walk = .ok (tokenAt walk.tokens passed) walk.see.lookBack := by
  rw [advance, bind_of_ok (atEnd_apply live.toSound), if_pos (by simpa using atEnd)]
  exact previous_apply live.see.toSound last

end Walker

namespace Follows

variable {walk : Walk}

/-- What comes of a walk that starts later. -/
theorem later {start : Walk} {walked : EStateM.Result Stop Walk α}
    {outcome : EStateM.Result Halt Cursor α} (leads : start.Leads walk)
    (follows : Follows walk walked outcome) : Follows start walked outcome := by
  cases follows with
  | ok leadsOn live => exact .ok (leads.trans leadsOn) live
  | misread leadsOn live => exact .misread (leads.trans leadsOn) live
  | halted cause leadsOn sound => exact .halted cause (leads.trans leadsOn) sound

theorem bind {first : Walker β} {next : β → Walker α} {reader : Reader β}
    {readerNext : β → Reader α} (followsFirst : Follows walk (first walk) (reader walk.cursor))
    (followsNext : ∀ value middle, reader walk.cursor = .ok value middle.cursor → middle.Live →
      Follows middle (next value middle) (readerNext value middle.cursor)) :
    Follows walk ((first >>= next) walk) ((reader >>= readerNext) walk.cursor) := by
  change Follows walk (EStateM.bind first next walk) (EStateM.bind reader readerNext walk.cursor)
  unfold EStateM.bind
  generalize first walk = walked at followsFirst
  generalize reader walk.cursor = outcome at followsFirst followsNext
  cases followsFirst with
  | @ok value middle leads live => exact (followsNext value middle rfl live).later leads
  | misread leads live => exact .misread leads live
  | halted cause leads sound => exact .halted cause leads sound

theorem pure (value : α) (live : walk.Live) :
    Follows walk ((Pure.pure value : Walker α) walk) ((Pure.pure value : Reader α) walk.cursor) :=
  .ok (.refl walk) live

theorem exhausted (live : walk.Live) :
    Follows walk ((Walker.halt .exhausted : Walker α) walk)
      ((throw .exhausted : Reader α) walk.cursor) :=
  .halted (by simp) (.refl walk) live.toSound

theorem current (live : walk.Live) :
    Follows walk (Walker.current walk) (Parse.peek walk.cursor) := by
  rw [Walker.current_apply live.toSound]
  exact .ok ⟨rfl, Nat.le_refl _⟩ live.see

theorem advance (live : walk.Live) (more : walk.cursor.current.kind ≠ .eof) :
    Follows walk (Walker.advance walk) (.ok walk.cursor.current walk.cursor.advance) := by
  rw [Walker.advance_of_more live more, ← Walk.cursor_step]
  exact .ok ⟨rfl, Nat.le_succ _⟩ ((live.see.step more).lookBack (Nat.succ_pos _))

theorem report (token : Token) (fault : Fault) (live : walk.Live) :
    Follows walk (Walker.report token fault walk) (Parse.report token fault walk.cursor) :=
  .ok ⟨rfl, Nat.le_refl _⟩ (live.report token fault)

theorem misread_here (fault : Fault) (live : walk.Live) :
    Follows walk ((Walker.misread fault : Walker α) walk)
      ((Parse.misread fault : Reader α) walk.cursor) := by
  apply Follows.bind (.current live)
  intro token middle _ live
  apply Follows.bind (.report token fault live)
  intro _ middle _ live
  exact .misread (.refl middle) live

theorem descend (limit : Int) (depth : Nat) (live : walk.Live) :
    Follows walk (Walker.descend limit depth walk) (Parse.descend limit depth walk.cursor) := by
  rw [Walker.descend, Parse.descend]
  split
  · apply Follows.bind (.current live)
    intro token middle _ live
    apply Follows.bind (.report token _ live)
    intro _ middle _ live
    exact .halted (by simp) (.refl middle) live.toSound
  · exact .pure () live

/-- Going on after a walk that succeeds, whatever the reader does there. -/
theorem andThen {first : Walker β} {next : β → Walker α} {value : β} {reached : Cursor}
    {outcome : EStateM.Result Halt Cursor α}
    (followsFirst : Follows walk (first walk) (.ok value reached))
    (followsNext : ∀ middle : Walk, middle.cursor = reached → middle.Live →
      Follows middle (next value middle) outcome) :
    Follows walk ((first >>= next) walk) outcome := by
  change Follows walk (EStateM.bind first next walk) outcome
  unfold EStateM.bind
  generalize first walk = walked at followsFirst
  cases followsFirst with
  | ok leads live => exact (followsNext _ rfl live).later leads

theorem check {kind : Token.Kind} (noEnd : kind ≠ .eof) (live : walk.Live) :
    Follows walk (Walker.check kind walk)
      (.ok (decide (walk.cursor.current.kind = kind)) walk.cursor) := by
  rw [Walker.check, Walker.bind_of_ok (Walker.atEnd_apply live.toSound)]
  by_cases atEnd : walk.cursor.current.kind = .eof
  · rw [if_pos (by simpa using atEnd), atEnd, decide_eq_false noEnd.symm]
    exact .ok ⟨rfl, Nat.le_refl _⟩ live.see
  · rw [if_neg (by simpa using atEnd), Walker.bind_of_ok (Walker.current_apply live.see.toSound)]
    exact .ok ⟨rfl, Nat.le_refl _⟩ live.see.see

theorem checkAny {kinds : List Token.Kind} (noEnd : .eof ∉ kinds) (live : walk.Live) :
    Follows walk (Walker.checkAny kinds walk)
      (.ok (decide (walk.cursor.current.kind ∈ kinds)) walk.cursor) := by
  induction kinds generalizing walk with
  | nil => exact .pure false live
  | cons kind kinds ih =>
      rw [List.mem_cons, not_or] at noEnd
      apply Follows.andThen (.check (Ne.symm noEnd.1) live)
      intro middle same live
      rw [← same]
      by_cases isKind : middle.cursor.current.kind = kind
      · rw [if_pos (by simpa using isKind), decide_eq_true (by simp [isKind])]
        exact .pure true live
      · rw [if_neg (by simpa using isKind)]
        simpa [isKind] using ih noEnd.2 live

theorem accept {kinds : List Token.Kind} (noEnd : .eof ∉ kinds) (live : walk.Live) :
    Follows walk (Walker.accept kinds walk) (Parse.accept kinds walk.cursor) := by
  apply Follows.andThen (.checkAny noEnd live)
  intro middle same live
  rw [← same]
  by_cases mem : middle.cursor.current.kind ∈ kinds
  · rw [if_pos (by simpa using mem), accept_of_mem mem]
    have more : middle.cursor.current.kind ≠ .eof := fun atEnd => noEnd (atEnd ▸ mem)
    apply Follows.andThen (.advance live more)
    intro finish same live
    rw [← same]
    exact .pure _ live
  · rw [if_neg (by simpa using mem), accept_of_not_mem mem]
    exact .pure none live

theorem expect {kind : Token.Kind} (fault : Fault) (noEnd : kind ≠ .eof) (live : walk.Live) :
    Follows walk (Walker.expect kind fault walk) (Parse.expect kind fault walk.cursor) := by
  apply Follows.andThen (.check noEnd live)
  intro middle same live
  rw [← same]
  by_cases isKind : middle.cursor.current.kind = kind
  · rw [if_pos (by simpa using isKind), expect_of_kind isKind]
    exact .advance live (by rwa [isKind])
  · rw [if_neg (by simpa using isKind), expect_of_ne isKind]
    exact .misread_here fault live

end Follows

section Recovering

variable {walk : Walk}

theorem length_upToEnd_lt {tokens : List Token} (ended : ∃ token ∈ tokens, token.kind = .eof) :
    (upToEnd tokens).length < tokens.length := by
  have found := getElem?_eq_tokenAt ended (Nat.le_refl _)
  exact (List.getElem?_eq_some_iff.mp found).1

/-- Resuming looks back from every position it comes to, the first included. -/
theorem resume_follows {fuel passed : Nat} (live : walk.Live) (last : walk.position = passed + 1)
    (enough : (upToEnd walk.tokens).length < walk.position + fuel) :
    Follows walk (Walker.resume fuel walk)
      (.ok () (walk.cursor.moved (resumption (tokenAt walk.tokens passed) walk.cursor.ahead))) := by
  induction fuel generalizing walk passed with
  | zero =>
      have inside := live.inside
      omega
  | succ fuel ih =>
      rw [Walker.resume, Walker.bind_of_ok (Walker.atEnd_apply live.toSound)]
      -- Where the walk stops, the reader leaves all that is ahead.
      have stays : walk.cursor = walk.cursor.moved walk.cursor.ahead := rfl
      cases ahead : walk.cursor.ahead with
      | nil =>
          rw [if_pos (by simpa using Cursor.current_kind_of_nil ahead), resumption, ← ahead,
            ← stays]
          exact .ok ⟨rfl, Nat.le_refl _⟩ live.see
      | cons token rest =>
          rcases Walk.current_of_ahead ahead with ⟨isToken, more⟩
          have liveBack := live.see.lookBack (show 0 < walk.position by omega)
          have back : Walker.previous walk.see = .ok (tokenAt walk.tokens passed) _ :=
            Walker.previous_apply live.see.toSound last
          rw [if_neg (by simpa using more), Walker.bind_of_ok back, resumption]
          by_cases closed : (tokenAt walk.tokens passed).kind = .semicolon
          · rw [if_pos closed, if_pos (Or.inl closed), ← ahead, ← stays]
            exact .ok ⟨rfl, Nat.le_refl _⟩ liveBack
          · have here : Walker.current walk.see.lookBack = .ok token walk.see.lookBack.see := by
              rw [Walker.current_apply liveBack.toSound, Walk.current_cursor]
              exact congrArg (EStateM.Result.ok · _) isToken
            rw [if_neg closed, Walker.bind_of_ok here]
            by_cases starts : token.kind ∈ statementStarts
            · rw [if_pos starts, if_pos (Or.inr starts), ← ahead, ← stays]
              exact .ok ⟨rfl, Nat.le_refl _⟩ liveBack.see
            · rw [if_neg starts, if_neg (by simp [closed, starts]),
                Walker.bind_of_ok (Walker.advance_of_more liveBack.see more)]
              have enoughOn : (upToEnd walk.tokens).length < walk.position + 1 + fuel := by omega
              have leads : walk.Leads walk.see.lookBack.see.see.step.lookBack :=
                ⟨rfl, Nat.le_succ _⟩
              have follows :=
                ih ((liveBack.see.see.step more).lookBack (Nat.succ_pos _)) rfl enoughOn
              rw [← Walk.moved_step ahead]
              exact follows.later leads

theorem synchronize_follows (live : walk.Live)
    (passed : walk.cursor.current.kind = .eof → 0 < walk.position) :
    Follows walk (Walker.synchronize walk) (.ok () walk.cursor.synchronize) := by
  have room := length_upToEnd_lt live.ended
  rw [Walker.synchronize]
  cases ahead : walk.cursor.ahead with
  | nil =>
      have atEnd := Cursor.current_kind_of_nil ahead
      rcases Nat.exists_eq_succ_of_ne_zero (Nat.ne_of_gt (passed atEnd)) with ⟨before, last⟩
      have enough : (upToEnd walk.tokens).length < walk.position + walk.tokens.length := by omega
      have stays : walk.cursor.synchronize =
          walk.cursor.moved (resumption (tokenAt walk.tokens before) walk.cursor.ahead) := by
        simp only [Cursor.synchronize, ahead, resumption]
        rw [← ahead]
        rfl
      have leads : walk.Leads walk.see.lookBack := ⟨rfl, Nat.le_refl _⟩
      rw [Walker.bind_of_ok (Walker.advance_of_end live atEnd last),
        Walker.bind_of_ok Walker.get_apply, stays]
      exact (resume_follows (live.see.lookBack (passed atEnd)) last enough).later leads
  | cons token rest =>
      have more := (Walk.current_of_ahead ahead).2
      have enough : (upToEnd walk.tokens).length < walk.position + 1 + walk.tokens.length := by
        omega
      have onward : walk.cursor.synchronize = walk.step.cursor.moved
          (resumption (tokenAt walk.tokens walk.position) walk.step.cursor.ahead) := by
        rw [Walk.moved_step ahead]
        simp [Cursor.synchronize, Cursor.moved, ahead]
      have leads : walk.Leads walk.see.step.lookBack := ⟨rfl, Nat.le_succ _⟩
      rw [Walker.bind_of_ok (Walker.advance_of_more live more),
        Walker.bind_of_ok Walker.get_apply, onward]
      exact (resume_follows ((live.see.step more).lookBack (Nat.succ_pos _)) rfl enough).later leads

/-- A reader that starts before the end is recovered where looking back is safe. -/
theorem Follows.recovering {walker : Walker α} {reader : Reader α} (live : walk.Live)
    (more : walk.cursor.current.kind ≠ .eof)
    (follows : Follows walk (walker walk) (reader walk.cursor)) :
    Follows walk (Walker.recovering walker walk) (Parse.recovering reader walk.cursor) := by
  have inside := live.inside
  have notEnd := (Walk.atEnd_iff live.toSound).not.mp more
  unfold Walker.recovering Parse.recovering
  generalize walker walk = walked at follows
  generalize reader walk.cursor = outcome at follows
  cases follows with
  | ok leads live => exact .ok leads live
  | @halted halt stopped cause leads sound =>
      cases halt with
      | misread => exact absurd rfl cause
      | tooDeep => exact .halted cause leads sound
      | exhausted => exact .halted cause leads sound
  | @misread stopped leads live =>
      have passed : stopped.cursor.current.kind = .eof → 0 < stopped.position := by
        intro atEnd
        have position := (Walk.atEnd_iff live.toSound).mp atEnd
        have tokens := leads.tokens
        rw [tokens] at position
        omega
      apply Follows.later leads
      apply Follows.andThen (synchronize_follows live passed)
      intro finish same live
      dsimp only
      rw [← same]
      exact .pure none live

/-- An attempt that is read or recovered has passed a token if the reader has. -/
theorem Follows.attempting {walker : Walker α} {outcome : EStateM.Result Halt Cursor α}
    (follows : Follows walk (walker walk) outcome)
    (recovers : ∀ stopped, outcome ≠ .error .misread stopped)
    (passes : ∀ value finish, outcome = .ok value finish →
      finish.ahead.length < walk.cursor.ahead.length) :
    Follows walk (Walker.attempting walker walk) outcome := by
  unfold Walker.attempting
  generalize walker walk = walked at follows
  cases follows with
  | @ok value finish leads live =>
      have later : walk.position < finish.position := by
        have shorter := passes value finish.cursor rfl
        simp only [Walk.cursor, Cursor.onto, List.length_drop, leads.tokens] at shorter
        omega
      exact .ok ⟨leads.tokens, leads.position⟩
        { live with
          attempts := List.forall_mem_cons.mpr ⟨Or.inl later, live.attempts⟩
          ongoing := List.forall_mem_cons.mpr ⟨rfl, live.ongoing⟩ }
  | @misread stopped leads live => exact absurd rfl (recovers stopped.cursor)
  | halted cause leads sound =>
      exact .halted cause ⟨leads.tokens, leads.position⟩
        { sound with attempts := List.forall_mem_cons.mpr ⟨Or.inr rfl, sound.attempts⟩ }

theorem declaration_shortens {limit : Int} {fuel depth : Nat} {start finish : Cursor}
    {stmt? : Option Stmt} (more : start.current.kind ≠ .eof)
    (read : declaration limit fuel depth start = .ok stmt? finish) :
    finish.ahead.length < start.ahead.length := by
  have nonempty : start.ahead ≠ [] := fun atEnd => more (Cursor.current_kind_of_nil atEnd)
  cases fuel with
  | zero =>
      rw [declaration, Primitives.declaration] at read
      cases read
  | succ fuel =>
      have conduct := Conduct.recovering nonempty
        (@attempt_conduct limit fuel depth ((fuel - 1) / 4) start (Nat.mul_div_le _ 4))
      rw [← declaration_eq_recovering, read] at conduct
      cases conduct with
      | done leads shorter _ => omega

/-- Attempts are made before the end only, where looking back after an error is safe. -/
theorem Follows.attemptUnless {stops : List Token.Kind} {walker : Walker α} {reader : Reader α}
    (noEnd : .eof ∉ stops)
    (passes : ∀ {value start finish}, start.current.kind ≠ .eof →
      Parse.recovering reader start = .ok value finish → finish.ahead.length < start.ahead.length)
    (follows : ∀ walk : Walk, walk.Live → Follows walk (walker walk) (reader walk.cursor))
    (live : walk.Live) :
    Follows walk (Walker.attemptUnless stops walker walk)
      (Parse.attemptUnless stops reader walk.cursor) := by
  apply Follows.andThen (.checkAny noEnd live)
  intro middle same live
  rw [← same, Parse.attemptUnless, Parse.bind_of_ok peek_apply]
  by_cases stopsHere : middle.cursor.current.kind ∈ stops
  · rw [if_pos (by simpa using stopsHere), if_pos (Or.inl stopsHere)]
    exact .pure none live
  · rw [if_neg (by simpa using stopsHere), Walker.bind_of_ok (Walker.atEnd_apply live.toSound)]
    have leads : middle.Leads middle.see := ⟨rfl, Nat.le_refl _⟩
    apply Follows.later leads
    by_cases atEnd : middle.cursor.current.kind = .eof
    · rw [if_pos (by simpa using atEnd), if_pos (Or.inr atEnd)]
      exact .pure none live.see
    · rw [if_neg (by simpa using atEnd), if_neg (by simp [stopsHere, atEnd])]
      apply @Follows.bind _ _ middle.see
      · apply Follows.attempting (.recovering live.see atEnd (follows _ live.see))
        · exact recovering_ne_misread reader _
        · exact fun _ _ read => passes atEnd read
      · intro value finish _ live
        exact .pure (some value) live

end Recovering

theorem Follows.agree (limit : Int) :
    primitives.Agree Walker.primitives limit limit (· = ·) fun _ depth level reader walker =>
      depth = level → ∀ walk : Walk, walk.Live →
        Follows walk (walker walk) (reader walk.cursor) where
  pure value _ _ live := .pure value live
  bind first next same walk live :=
    .bind (first same walk live) fun value middle _ live => next value same middle live
  spend {fuel _} same := ⟨fuel, same.symm, rfl⟩
  exhausted same both _ walk live := by
    rw [both same.symm]
    exact .exhausted live
  accept noEnd _ _ live := .accept noEnd live
  expect noEnd _ _ _ live := .expect _ noEnd live
  report token _ _ _ live := .report token _ live
  misread _ _ _ live := .misread_here _ live
  nested {_ depth _ _ _} follows same walk live := by
    subst same
    apply Follows.bind (.descend limit (depth + 1) live)
    intro _ middle _ live
    exact follows rfl middle live
  attempt noEnd follows same _ live := .attemptUnless noEnd declaration_shortens (follows same) live

theorem program_follows {limit : Int} (fuel : Nat) (done : List Stmt) {walk : Walk}
    (live : walk.Live) :
    Follows walk (Walker.program limit fuel done walk) (program limit fuel done walk.cursor) :=
  (Follows.agree limit).program fuel fuel rfl done rfl walk live

end LoxLang.Parse
