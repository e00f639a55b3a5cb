import LoxLang.Proofs.Parse.Positions
import LoxLang.Scan

/-!
# The parser stays within its tokens

A list of tokens is parsed by positions after it has been given an end, if it does not have one as
its last token. The parse is the same as the one with a cursor. What follows for the cursor's parse
is that it never looks past the first token that ends the input and never back from the first token,
and that the loops over declarations go forward.
-/

namespace LoxLang

namespace Parse

/-- The tokens, with one that ends the input after them unless the last of them does. -/
def closed (tokens : List Token) : List Token :=
  if tokens.getLast?.map Token.kind = some .eof then tokens
  else tokens ++ [.endOfInput ((tokens.getLast?.map Token.line).getD 1)]

/-- The first state of a parse by positions. -/
def Walk.begin (tokens : List Token) : Walk where
  tokens := closed tokens
  position := 0
  reports := #[]
  looks := []
  attempts := []

/-- What a parse by positions gives, and the state it ends in. -/
structure Retraced where
  outcome : Except Stop (List Stmt)
  finish : Walk

/-- Parses a list of tokens by positions. -/
def retrace (limit : Int) (tokens : List Token) : Retraced :=
  match Walker.program limit (budget (upToEnd tokens).length) [] (.begin tokens) with
  | .ok stmts finish => ⟨.ok stmts, finish⟩
  | .error stop finish => ⟨.error stop, finish⟩

section Closing

theorem exists_eof_mem_closed (tokens : List Token) :
    ∃ token ∈ closed tokens, token.kind = .eof := by
  unfold closed
  split
  · rename_i isClosed
    rcases Option.map_eq_some_iff.mp isClosed with ⟨last, isLast, ends⟩
    exact ⟨last, List.mem_of_getLast? isLast, ends⟩
  · exact ⟨_, List.mem_append_right _ (List.mem_singleton_self _), rfl⟩

theorem upToEnd_closed (tokens : List Token) : upToEnd (closed tokens) = upToEnd tokens := by
  unfold closed
  split
  · rfl
  · rw [upToEnd, List.takeWhile_append]
    split
    · rename_i whole
      have all : upToEnd tokens = tokens := (List.takeWhile_prefix _).eq_of_length whole
      rw [all]
      simp [Token.endOfInput]
    · rfl

theorem ending_closed (tokens : List Token) : ending (closed tokens) = ending tokens := by
  unfold closed
  split
  · rfl
  · rw [ending, ending, List.find?_append]
    cases tokens.find? (·.kind = .eof) with
    | none => simp [Token.endOfInput]
    | some stop => rfl

theorem findIdx_closed (tokens : List Token) :
    (closed tokens).findIdx (·.kind = .eof) = (upToEnd tokens).length := by
  rw [← upToEnd_closed, upToEnd, List.takeWhile_eq_take_findIdx_not, List.length_take,
    Nat.min_eq_left List.findIdx_le_length]
  simp

theorem cursor_begin (tokens : List Token) : (Walk.begin tokens).cursor = .ofTokens tokens := by
  simp only [Walk.cursor, Walk.begin, Cursor.onto, Cursor.ofTokens, upToEnd_closed, ending_closed]
  rfl

theorem begin_live (tokens : List Token) : (Walk.begin tokens).Live where
  ended := exists_eof_mem_closed tokens
  inside := Nat.zero_le _
  looks := by simp [Walk.begin]
  attempts := by simp [Walk.begin]
  ongoing := by simp [Walk.begin]

/-- What comes after a token that ends the input is out of reach. -/
theorem ofTokens_append_end (before after : List Token) {stop : Token} (ends : stop.kind = .eof) :
    Cursor.ofTokens (before ++ stop :: after) = .ofTokens (before ++ [stop]) := by
  have sameEnding : ending (before ++ stop :: after) = ending (before ++ [stop]) := by
    rw [ending, ending, List.find?_append, List.find?_append]
    cases before.find? (·.kind = .eof) <;> simp [ends]
  rw [Cursor.ofTokens, Cursor.ofTokens, Cursor.mk.injEq]
  refine ⟨?_, sameEnding, rfl⟩
  rw [List.takeWhile_append, List.takeWhile_append]
  simp [ends]

end Closing

end Parse

open Parse

theorem parse_append_end (limit : Int) (before after others : List Token) {stop : Token}
    (ends : stop.kind = .eof) :
    parse limit (before ++ stop :: others) = parse limit (before ++ stop :: after) := by
  rw [parse_eq_ofResult, parse_eq_ofResult, ofTokens_append_end before others ends,
    ofTokens_append_end before after ends]

/-- A parse by positions ends with statements or at the nesting limit, as the parse with a cursor
does. -/
theorem retrace_cases (limit : Int) (tokens : List Token) :
    (∃ stmts finish, retrace limit tokens = ⟨.ok stmts, finish⟩ ∧
      parse limit tokens = ⟨.ok stmts, finish.reports.toList⟩ ∧
      finish.tokens = closed tokens ∧ finish.Live) ∨
    ∃ finish, retrace limit tokens = ⟨.error (.halt .tooDeep), finish⟩ ∧
      parse limit tokens = ⟨.error .tooDeep, finish.reports.toList⟩ ∧
      finish.tokens = closed tokens ∧ finish.Sound := by
  have enough := parse_outcome_ne_exhausted limit tokens
  have recovers := program_ne_misread limit (budget (upToEnd tokens).length) [] (.ofTokens tokens)
  have follows := @program_follows limit (budget (upToEnd tokens).length) [] _ (begin_live tokens)
  have sameParse : parse limit tokens = .ofResult
      (program limit (budget (upToEnd tokens).length) [] (.ofTokens tokens)) :=
    parse_eq_ofResult limit tokens
  rw [cursor_begin] at follows
  rw [sameParse] at enough ⊢
  unfold retrace
  generalize Walker.program limit _ [] _ = walked at follows
  generalize program limit _ [] _ = outcome at follows recovers enough
  cases follows with
  | ok leads live => exact Or.inl ⟨_, _, rfl, rfl, leads.tokens, live⟩
  | misread leads live => exact absurd rfl (recovers _)
  | @halted halt stopped cause leads sound =>
      cases halt with
      | misread => exact absurd rfl cause
      | exhausted => exact absurd rfl enough
      | tooDeep => exact Or.inr ⟨stopped, rfl, rfl, leads.tokens, sound⟩

/-- The parser ends and stays in bounds on all tokens. Parsing by positions gives the same, so it
never looks at a token that is not there: it looks only at tokens up to the first that ends the
input, and back only after it has passed one. Every declaration that it attempts passes a token,
unless the parse is given up in it at the nesting limit. What comes after a token that ends the
input has no influence. -/
theorem parse_stays_in_bounds (limit : Int) (tokens : List Token) :
    (retrace limit tokens).outcome = (parse limit tokens).outcome.mapError Stop.halt ∧
    (retrace limit tokens).finish.reports.toList = (parse limit tokens).diagnostics ∧
    (parse limit tokens).outcome ≠ .error .exhausted ∧
    (∀ look ∈ (retrace limit tokens).finish.looks,
      look.InBounds ((closed tokens).findIdx (·.kind = .eof))) ∧
    (∀ attempt ∈ (retrace limit tokens).finish.attempts, attempt.start < attempt.finish ∨
      attempt.givenUp = true ∧ (parse limit tokens).outcome = .error .tooDeep) ∧
    ∀ before stop after others, stop.kind = .eof → tokens = before ++ stop :: after →
      parse limit (before ++ stop :: others) = parse limit tokens := by
  have unreached : ∀ before stop after others, stop.kind = .eof →
      tokens = before ++ stop :: after → parse limit (before ++ stop :: others) =
        parse limit tokens := by
    rintro before stop after others ends rfl
    exact parse_append_end limit before after others ends
  have lastIndex {finish : Walk} (same : finish.tokens = closed tokens) :
      (upToEnd finish.tokens).length = (closed tokens).findIdx (·.kind = .eof) := by
    rw [same, upToEnd_closed, findIdx_closed]
  rcases retrace_cases limit tokens with
    ⟨stmts, finish, retraced, parsed, same, live⟩ | ⟨finish, retraced, parsed, same, sound⟩
  · refine ⟨by rw [retraced, parsed]; rfl, by rw [retraced, parsed], by simp [parsed], ?_, ?_,
      unreached⟩
    · rw [retraced, ← lastIndex same]
      exact live.looks
    · intro attempt mem
      rw [retraced] at mem
      exact Or.inl ((live.attempts attempt mem).resolve_right (by simp [live.ongoing attempt mem]))
  · refine ⟨by rw [retraced, parsed]; rfl, by rw [retraced, parsed], by simp [parsed], ?_, ?_,
      unreached⟩
    · rw [retraced, ← lastIndex same]
      exact sound.looks
    · intro attempt mem
      rw [retraced] at mem
      rw [parsed]
      exact (sound.attempts attempt mem).imp_right fun givenUp => ⟨givenUp, rfl⟩

/-- In `)` the error is at the token before the end, and recovery looks back from the end. The end
is in the middle of the list, and the tokens after it are not seen. -/
theorem parse_stays_in_bounds_early_end :
    let closing : Token := ⟨.rightParen, ")", .nil, 1⟩
    let stop : Token := ⟨.eof, "", .nil, 1⟩
    let semicolon : Token := ⟨.semicolon, ";", .nil, 2⟩
    Look.previous 1 ∈ (retrace 0 [closing, stop, semicolon]).finish.looks ∧
      (Look.previous 1).InBounds 1 ∧
      (⟨0, 1, false⟩ : Attempt) ∈ (retrace 0 [closing, stop, semicolon]).finish.attempts ∧
      parse 0 [closing, stop, closing] = parse 0 [closing, stop, semicolon] := by
  intro closing stop semicolon
  have bounds := parse_stays_in_bounds 0 [closing, stop, semicolon]
  have looked : Look.previous 1 ∈ (retrace 0 [closing, stop, semicolon]).finish.looks := by
    decide +kernel
  have attempted :
      (⟨0, 1, false⟩ : Attempt) ∈ (retrace 0 [closing, stop, semicolon]).finish.attempts := by
    decide +kernel
  exact ⟨looked, bounds.2.2.2.1 _ looked, attempted,
    bounds.2.2.2.2.2 [closing] stop [semicolon] [closing] rfl rfl⟩

/-- With a limit of one level the statement `nil;` is given up at its first token. -/
theorem retrace_nil_passes_nothing :
    ∃ attempt ∈ (retrace 1 (scan "nil;").tokens).finish.attempts,
      ¬attempt.start < attempt.finish := by
  refine ⟨⟨0, 0, true⟩, ?_, by decide⟩
  decide +kernel

end LoxLang
