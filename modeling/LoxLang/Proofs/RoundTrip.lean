import Mathlib.Data.List.Forall2
import LoxLang.Proofs.Parse.Acceptance
import LoxLang.Proofs.Scan.Lexemes

/-!
# Written trees read back

A well-formed list of statements can be written down and read back. Its atoms are written one after
the other with a space between neighbours, each by a lexeme that stands for it; only numbers leave a
choice, since several numerals have the same value. Scanning gives the tokens again, on new lines,
and parsing gives the statements again. That parsing gives *these* statements is a matter of
uniqueness: whether a tree exists depends on the kinds of tokens only, and its atoms determine it.
-/

namespace LoxLang

namespace Grammar

/-- What a phrase derives depends on the kinds of the tokens only. -/
theorem Derives.of_kinds_eq {phrase : Phrase} {tokens : List Token}
    (derives : Derives phrase tokens) :
    ∀ {others : List Token}, others.map Token.kind = tokens.map Token.kind →
      Derives phrase others := by
  induction derives with
  | token isKind =>
      intro others same
      rcases List.map_eq_singleton_iff.mp same with ⟨other, rfl, sameKind⟩
      exact .token (sameKind.trans isKind)
  | rule _ ih => exact fun same => .rule (ih same)
  | seqNil =>
      intro others same
      rw [List.map_eq_nil_iff.mp same]
      exact .seqNil
  | seqCons _ _ ih ihOthers =>
      intro others same
      rw [List.map_append] at same
      rcases List.map_eq_append_iff.mp same with ⟨first, second, rfl, sameFirst, sameSecond⟩
      exact .seqCons (ih sameFirst) (ihOthers sameSecond)
  | choice mem _ ih => exact fun same => .choice mem (ih same)
  | optionalNone =>
      intro others same
      rw [List.map_eq_nil_iff.mp same]
      exact .optionalNone
  | optionalSome _ ih => exact fun same => .optionalSome (ih same)
  | manyNil =>
      intro others same
      rw [List.map_eq_nil_iff.mp same]
      exact .manyNil
  | manyCons _ _ ih ihOthers =>
      intro others same
      rw [List.map_append] at same
      rcases List.map_eq_append_iff.mp same with ⟨first, second, rfl, sameFirst, sameSecond⟩
      exact .manyCons (ih sameFirst) (ihOthers sameSecond)

end Grammar

/-- Well-formed statements are determined by their tokens. -/
theorem Stmt.eq_of_spelled {stmts others : List Stmt} {tokens : List Token}
    (formed : AllWellFormed stmts) (othersFormed : AllWellFormed others)
    (endless : ∀ token ∈ tokens, token.kind ≠ .eof)
    (spelled : tokens.map Token.atom = atomsAll stmts)
    (othersSpelled : tokens.map Token.atom = atomsAll others) : stmts = others := by
  have all : tokens.takeWhile (·.kind ≠ .eof) = tokens := by
    rw [List.takeWhile_eq_self_iff]
    simpa using endless
  have unlimited : ∀ depth, Parse.Within 0 depth := fun _ => Parse.Within.of_nonpos (Int.le_refl 0)
  have first := parse_complete formed (unlimited _) (by rw [all]; exact spelled)
  have second := parse_complete othersFormed (unlimited _) (by rw [all]; exact othersSpelled)
  rw [first, Parsed.mk.injEq, Except.ok.injEq] at second
  exact second.1

theorem Stmt.spelled_unplaced {stmts : List Stmt} {tokens : List Token}
    (spelled : tokens.map Token.atom = atomsAll stmts) :
    (tokens.map Token.unplaced).map Token.atom =
      atomsAll (stmts.map (Stmt.relocate Token.unplaced)) := by
  rw [atomsAll_relocate, ← spelled, List.map_map, List.map_map]
  exact List.map_congr_left fun token _ => Token.atom_change token rfl rfl

/-- Tokens that differ in their lines only are parsed to statements that do. -/
theorem parse_of_unplaced_eq {stmts : List Stmt} {limit : Int} {tokens others : List Token}
    (unlimited : limit ≤ 0) (formed : Stmt.AllWellFormed stmts)
    (endless : ∀ token ∈ tokens, token.kind ≠ .eof)
    (spelled : tokens.map Token.atom = Stmt.atomsAll stmts)
    (same : others.map Token.unplaced = tokens.map Token.unplaced ++ [.endOfInput 0]) :
    ∃ result, parse limit others = ⟨.ok result, []⟩ ∧
      result.map (Stmt.relocate Token.unplaced) = stmts.map (Stmt.relocate Token.unplaced) := by
  rcases List.map_eq_append_iff.mp same with ⟨body, _, rfl, sameBody, sameEnd⟩
  rcases List.map_eq_singleton_iff.mp sameEnd with ⟨last, rfl, isEnd⟩
  have lastKind : last.kind = .eof := congrArg Token.kind isEnd
  have sameKinds : body.map Token.kind = tokens.map Token.kind := by
    have kinds := congrArg (List.map Token.kind) sameBody
    rwa [List.map_map, List.map_map] at kinds
  have bodyEndless : ∀ token ∈ body, token.kind ≠ .eof := by
    intro token mem
    have kindMem : token.kind ∈ tokens.map Token.kind := sameKinds ▸ List.mem_map_of_mem mem
    rcases List.mem_map.mp kindMem with ⟨original, originalMem, sameKind⟩
    exact sameKind ▸ endless original originalMem
  have accepted : (body ++ [last]).takeWhile (·.kind ≠ .eof) = body := by
    rw [List.takeWhile_append_of_pos (by simpa using bodyEndless)]
    simp [lastKind]
  -- The kinds are those of the given statements, so the new tokens have a tree, too.
  have derives := (Grammar.derives_program_iff.mpr ⟨stmts, formed, spelled⟩).of_kinds_eq sameKinds
  rcases Grammar.derives_program_iff.mp derives with ⟨result, resultFormed, resultSpelled⟩
  refine ⟨result, ?_, ?_⟩
  · exact parse_complete resultFormed (Parse.Within.of_nonpos unlimited)
      (by rw [accepted]; exact resultSpelled)
  · have keeps : ∀ token : Token, token.unplaced.kind = token.kind := fun _ => rfl
    apply Stmt.eq_of_spelled (resultFormed.relocate keeps) (formed.relocate keeps) _
      (Stmt.spelled_unplaced resultSpelled) (sameBody ▸ Stmt.spelled_unplaced spelled)
    simpa [keeps] using bodyEndless

namespace Atom

/-- The kinds that only marks come of. -/
def marks : List Token.Kind :=
  [.leftParen, .rightParen, .leftBrace, .rightBrace, .semicolon, .equal, .printKeyword, .varKeyword,
   .ifKeyword, .elseKeyword, .whileKeyword]

/-- An atom as it comes of a token: a mark of a kind of its own, or a word that is no mark. -/
def Proper : Atom → Prop
  | mark kind => kind ∈ marks
  | word token => token.atom = .word token
  | value _ => True

/-- The lexeme stands for the atom. -/
def Writes : Atom → Text → Prop
  | mark kind, lexeme => (lexeme, kind) ∈ Token.Kind.symbols ++ Token.Kind.keywords
  | word token, lexeme => lexeme = token.lexeme
  | value .nil, lexeme => lexeme = ("nil" : Text)
  | value (.bool truth), lexeme => lexeme = Literal.boolText truth
  | value (.number number), lexeme => Token.IsNumeral lexeme ∧ Number.ofNumeral lexeme = number
  | value (.string body), lexeme => lexeme = Byte.quote :: (body ++ [Byte.quote])
  | value (.int _), _ => False

/-- The atom can be written: names and operators have their lexemes, strings hold no quote, and
numbers are the values of numerals. -/
def Lexical : Atom → Prop
  | mark _ => True
  | word token => token.Valid
  | value .nil | value (.bool _) => True
  | value (.number number) =>
    ∃ lexeme, Token.IsNumeral lexeme ∧ Number.ofNumeral lexeme = number
  | value (.string body) => Byte.quote ∉ body
  | value (.int _) => False

variable {atom : Atom} {lexeme : Text}

theorem exists_writes (proper : atom.Proper) (lexical : atom.Lexical) :
    ∃ lexeme, atom.Writes lexeme := by
  match atom with
  | mark kind =>
      have table : ∀ kind ∈ marks, ∃ entry ∈ Token.Kind.symbols ++ Token.Kind.keywords,
          entry.2 = kind := by decide
      rcases table kind proper with ⟨⟨lexeme, _⟩, mem, rfl⟩
      exact ⟨lexeme, mem⟩
  | word token => exact ⟨token.lexeme, rfl⟩
  | value .nil => exact ⟨_, rfl⟩
  | value (.bool truth) => exact ⟨_, rfl⟩
  | value (.number number) => exact lexical
  | value (.string body) => exact ⟨_, rfl⟩
  | value (.int number) => exact lexical.elim

/-- What stands for an atom is the lexeme of a valid token that becomes the atom. -/
theorem Writes.exists_token (writes : atom.Writes lexeme) (proper : atom.Proper)
    (lexical : atom.Lexical) :
    ∃ token : Token, token.Valid ∧ token.lexeme = lexeme ∧ token.atom = atom := by
  match atom with
  | mark kind =>
      simp only [Proper, marks, List.mem_cons, List.not_mem_nil, or_false] at proper
      have valid : Token.Valid ⟨kind, lexeme, .nil, 1⟩ ∧
          Token.atom ⟨kind, lexeme, .nil, 1⟩ = .mark kind := by
        rcases proper with rfl | rfl | rfl | rfl | rfl | rfl | rfl | rfl | rfl | rfl | rfl <;>
        exact ⟨⟨writes, rfl⟩, rfl⟩
      exact ⟨_, valid.1, rfl, valid.2⟩
  | word token => exact ⟨token, lexical, writes.symm, proper⟩
  | value .nil =>
      exact ⟨⟨.nilKeyword, lexeme, .nil, 1⟩, by subst writes; exact ⟨by decide, rfl⟩, rfl, rfl⟩
  | value (.bool true) =>
      exact ⟨⟨.trueKeyword, lexeme, .nil, 1⟩, by subst writes; exact ⟨by decide, rfl⟩, rfl, rfl⟩
  | value (.bool false) =>
      exact ⟨⟨.falseKeyword, lexeme, .nil, 1⟩, by subst writes; exact ⟨by decide, rfl⟩, rfl, rfl⟩
  | value (.number number) =>
      refine ⟨⟨.number, lexeme, .number number, 1⟩, ⟨writes.1, ?_⟩, rfl, rfl⟩
      rw [← writes.2]
  | value (.string body) =>
      exact ⟨⟨.string, lexeme, .string body, 1⟩, ⟨body, lexical, writes, rfl⟩, rfl, rfl⟩
  | value (.int number) => exact lexical.elim

end Atom

theorem Expr.WellFormed.proper {expr : Expr} (formed : expr.WellFormed) :
    ∀ atom ∈ expr.atoms, atom.Proper := by
  induction expr with
  | missing => exact formed.elim
  | literal payload => simp [atoms, Atom.Proper]
  | group inner ih =>
      simp only [atoms, List.forall_mem_cons, List.forall_mem_append]
      exact ⟨by simp [Atom.Proper, Atom.marks], ih formed, by simp [Atom.Proper, Atom.marks],
        by simp⟩
  | unary operator operand ih =>
      rcases formed with ⟨isOperator, operandFormed, _⟩
      exact List.forall_mem_cons.mpr ⟨Token.unary_atom isOperator, ih operandFormed⟩
  | binary left operator right ihLeft ihRight | logical left operator right ihLeft ihRight =>
      rcases formed with ⟨tier, _, mem, ⟨leftFormed, _⟩, rightFormed, _⟩
      simp only [atoms, List.forall_mem_append, List.forall_mem_cons]
      exact ⟨ihLeft leftFormed, Parse.Tier.atom_of_mem mem, ihRight rightFormed⟩
  | name token =>
      have isName : token.kind = .identifier := formed
      simp [atoms, Atom.Proper, Token.atom, isName]
  | assign target value ih =>
      rcases formed with ⟨isName, valueFormed⟩
      simp only [atoms, List.forall_mem_cons]
      exact ⟨by simp [Atom.Proper, Token.atom, isName], by simp [Atom.Proper, Atom.marks],
        ih valueFormed⟩

theorem Stmt.WellFormed.proper {stmt : Stmt} (formed : stmt.WellFormed) :
    ∀ atom ∈ stmt.atoms, atom.Proper := by
  have ofMark : ∀ kind ∈ Atom.marks, (Atom.mark kind).Proper := fun _ mem => mem
  have none : ∀ atom ∈ ([] : List Atom), atom.Proper := by simp
  induction stmt with
  | missing => exact formed.elim
  | expression value =>
      simp only [atoms, List.forall_mem_append, List.forall_mem_cons]
      exact ⟨Expr.WellFormed.proper formed, ofMark _ (by decide), none⟩
  | print value =>
      simp only [atoms, List.forall_mem_append, List.forall_mem_cons]
      exact ⟨ofMark _ (by decide), Expr.WellFormed.proper formed, ofMark _ (by decide), none⟩
  | declare name initial =>
      cases initial with
      | none =>
          have isName : name.kind = .identifier := formed
          simp [atoms, Atom.Proper, Atom.marks, Token.atom, isName]
      | some value =>
          rcases formed with ⟨isName, formed⟩
          simp only [atoms, List.forall_mem_append, List.forall_mem_cons]
          exact ⟨ofMark _ (by decide), by simp [Atom.Proper, Token.atom, isName],
            ofMark _ (by decide), formed.proper, ofMark _ (by decide), none⟩
  | block body ih =>
      rw [WellFormed, allWellFormed_iff] at formed
      have inside : ∀ atom ∈ atomsAll body, atom.Proper :=
        forall_mem_atomsAll.mpr fun stmt mem => ih stmt mem (formed stmt mem)
      simp only [atoms, List.forall_mem_append, List.forall_mem_cons]
      exact ⟨ofMark _ (by decide), inside, ofMark _ (by decide), none⟩
  | ifThen condition consequence ih =>
      rcases formed with ⟨conditionFormed, consequenceFormed, _⟩
      simp only [atoms, List.forall_mem_append, List.forall_mem_cons]
      exact ⟨ofMark _ (by decide), ofMark _ (by decide), conditionFormed.proper,
        ofMark _ (by decide), ih consequenceFormed⟩
  | ifElse condition consequence alternative ih ihAlternative =>
      rcases formed with ⟨conditionFormed, ⟨consequenceFormed, _⟩, _, alternativeFormed, _⟩
      simp only [atoms, List.forall_mem_append, List.forall_mem_cons]
      exact ⟨ofMark _ (by decide), ofMark _ (by decide), conditionFormed.proper,
        ofMark _ (by decide), ih consequenceFormed, ofMark _ (by decide),
        ihAlternative alternativeFormed⟩
  | loop condition body ih =>
      rcases formed with ⟨conditionFormed, bodyFormed, _⟩
      simp only [atoms, List.forall_mem_append, List.forall_mem_cons]
      exact ⟨ofMark _ (by decide), ofMark _ (by decide), conditionFormed.proper,
        ofMark _ (by decide), ih bodyFormed⟩

theorem Stmt.AllWellFormed.proper {stmts : List Stmt} (formed : AllWellFormed stmts) :
    ∀ atom ∈ atomsAll stmts, atom.Proper :=
  forall_mem_atomsAll.mpr fun stmt mem => (allWellFormed_iff.mp formed stmt mem).proper

theorem exists_lexemes {atoms : List Atom} (proper : ∀ atom ∈ atoms, atom.Proper)
    (lexical : ∀ atom ∈ atoms, atom.Lexical) :
    ∃ lexemes, List.Forall₂ Atom.Writes atoms lexemes := by
  induction atoms with
  | nil => exact ⟨[], .nil⟩
  | cons atom atoms ih =>
      rw [List.forall_mem_cons] at proper lexical
      rcases Atom.exists_writes proper.1 lexical.1 with ⟨lexeme, writes⟩
      rcases ih proper.2 lexical.2 with ⟨lexemes, writesAll⟩
      exact ⟨lexeme :: lexemes, .cons writes writesAll⟩

theorem exists_tokens {atoms : List Atom} {lexemes : List Text}
    (writes : List.Forall₂ Atom.Writes atoms lexemes) (proper : ∀ atom ∈ atoms, atom.Proper)
    (lexical : ∀ atom ∈ atoms, atom.Lexical) :
    ∃ tokens : List Token, (∀ token ∈ tokens, token.Valid) ∧ tokens.map Token.lexeme = lexemes ∧
      tokens.map Token.atom = atoms := by
  induction writes with
  | nil => exact ⟨[], by simp, rfl, rfl⟩
  | cons writes _ ih =>
      rw [List.forall_mem_cons] at proper lexical
      rcases writes.exists_token proper.1 lexical.1 with ⟨token, valid, rfl, rfl⟩
      rcases ih proper.2 lexical.2 with ⟨tokens, allValid, rfl, rfl⟩
      exact ⟨token :: tokens, List.forall_mem_cons.mpr ⟨valid, allValid⟩, rfl, rfl⟩

theorem Token.Valid.kind_ne_eof {token : Token} (valid : token.Valid) : token.kind ≠ .eof := by
  intro isEnd
  simp only [Valid, isEnd] at valid
  have absent : ∀ entry ∈ Kind.symbols ++ Kind.keywords, entry.2 ≠ .eof := by decide
  exact absent _ valid.1 rfl

/-- Well-formed statements whose atoms can be written can be written, and however they are written,
scanning and parsing gives them back, up to the lines of their tokens. -/
theorem parse_scan_written (stmts : List Stmt) (formed : Stmt.AllWellFormed stmts)
    (lexical : ∀ atom ∈ Stmt.atomsAll stmts, atom.Lexical) :
    (∃ lexemes, List.Forall₂ Atom.Writes (Stmt.atomsAll stmts) lexemes) ∧
    ∀ lexemes : List Text, List.Forall₂ Atom.Writes (Stmt.atomsAll stmts) lexemes →
      ∀ limit : Int, limit ≤ 0 →
        (scan (Text.join " " lexemes)).diagnostics = [] ∧
        ∃ result : List Stmt,
          parse limit (scan (Text.join " " lexemes)).tokens = ⟨.ok result, []⟩ ∧
          result.map (Stmt.relocate Token.unplaced) = stmts.map (Stmt.relocate Token.unplaced) := by
  refine ⟨exists_lexemes formed.proper lexical, ?_⟩
  intro lexemes writes limit unlimited
  rcases exists_tokens writes formed.proper lexical with ⟨tokens, valid, rfl, spelled⟩
  rcases scan_join valid with ⟨silent, same⟩
  exact ⟨silent, parse_of_unplaced_eq unlimited formed
    (fun token mem => (valid token mem).kind_ne_eof) spelled same⟩

/-- A statement with a string, an operator and a numeral is read back. -/
theorem parse_scan_written_print :
    ∃ result : List Stmt,
      parse 0 (scan "print \"x\" + 2.5 ;").tokens = ⟨.ok result, []⟩ ∧
      result.map (Stmt.relocate Token.unplaced) =
        [.print (.binary (.literal (.string "x")) ⟨.plus, "+", .nil, 0⟩
          (.literal (.number (.ofNumeral "2.5"))))] := by
  have numeral : Token.IsNumeral ("2.5" : Text) :=
    Or.inr ⟨"2", "5", ⟨by decide, List.all_eq_true.mp rfl⟩,
      ⟨by decide, List.all_eq_true.mp rfl⟩, rfl⟩
  refine ((parse_scan_written [.print (.binary (.literal (.string "x")) ⟨.plus, "+", .nil, 1⟩
    (.literal (.number (.ofNumeral "2.5"))))] ?_ ?_).2 ["print", "\"x\"", "+", "2.5", ";"] ?_ 0
    (Int.le_refl 0)).2
  · exact ⟨⟨.term, rfl, by decide, ⟨trivial, by decide⟩, trivial, by decide⟩, trivial⟩
  · simp only [Stmt.atomsAll, Stmt.atoms, Expr.atoms, List.cons_append, List.nil_append,
      List.append_nil, List.forall_mem_cons]
    have quoteless : Byte.quote ∉ ("x" : Text) := by decide
    have operator :
        (("+" : Text), Token.Kind.plus) ∈ Token.Kind.symbols ++ Token.Kind.keywords := by
      decide
    exact ⟨trivial, quoteless, ⟨operator, rfl⟩, ⟨_, numeral, rfl⟩, trivial, by simp⟩
  · have keyword : (("print" : Text), Token.Kind.printKeyword) ∈
        Token.Kind.symbols ++ Token.Kind.keywords := by decide
    have semicolon : ((";" : Text), Token.Kind.semicolon) ∈
        Token.Kind.symbols ++ Token.Kind.keywords := by decide
    exact .cons keyword (.cons rfl (.cons rfl (.cons ⟨numeral, rfl⟩ (.cons semicolon .nil))))

end LoxLang
