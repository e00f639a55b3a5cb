import LoxLang.Parse

/-!
# The grammar of the language

The grammar is given as data, one phrase of terminals, alternatives, options and repetitions for
each nonterminal, and `Derives` says which lists of tokens a phrase derives. Nothing here depends on
how sources are parsed.

The derivable lists of tokens are the least ones that the rules produce. `Derives.holds` is that
fact as an induction principle: what the rules preserve holds of everything they derive.
-/

namespace LoxLang.Grammar

/-- The nonterminals of the grammar. -/
inductive Nonterminal where
  | program | declaration | statement | expressionStatement | printStatement | ifStatement
  | whileStatement | block
  | expression | assignment | or | and | equality | comparison | term | factor | unary | primary
deriving DecidableEq, Repr

/-- What a rule of the grammar may consist of. -/
inductive Phrase where
  | token (kind : Token.Kind)
  | rule (name : Nonterminal)
  | seq (parts : List Phrase)
  | choice (options : List Phrase)
  | optional (part : Phrase)
  | many (part : Phrase)

/-- Operands of one nonterminal with operators between them. -/
def Phrase.level (operand : Nonterminal) (operators : List Token.Kind) : Phrase :=
  .seq [.rule operand, .many (.seq [.choice (operators.map .token), .rule operand])]

/-- The rules of the grammar. -/
def Nonterminal.definition : Nonterminal → Phrase
  | program => .many (.rule declaration)
  | declaration => .choice [
      .seq [.token .varKeyword, .token .identifier,
        .optional (.seq [.token .equal, .rule expression]), .token .semicolon],
      .rule statement]
  | statement => .choice [.rule expressionStatement, .rule printStatement, .rule ifStatement,
      .rule whileStatement, .rule block]
  | expressionStatement => .seq [.rule expression, .token .semicolon]
  | printStatement => .seq [.token .printKeyword, .rule expression, .token .semicolon]
  | ifStatement => .seq [.token .ifKeyword, .token .leftParen, .rule expression, .token .rightParen,
      .rule statement, .optional (.seq [.token .elseKeyword, .rule statement])]
  | whileStatement => .seq [.token .whileKeyword, .token .leftParen, .rule expression,
      .token .rightParen, .rule statement]
  | block => .seq [.token .leftBrace, .many (.rule declaration), .token .rightBrace]
  | expression => .rule assignment
  | assignment => .choice [.seq [.token .identifier, .token .equal, .rule assignment], .rule or]
  | or => .level and [.orKeyword]
  | and => .level equality [.andKeyword]
  | equality => .level comparison [.bangEqual, .equalEqual]
  | comparison => .level term [.greater, .greaterEqual, .less, .lessEqual]
  | term => .level factor [.minus, .plus]
  | factor => .level unary [.slash, .star]
  | unary => .choice [.seq [.choice [.token .bang, .token .minus], .rule unary], .rule primary]
  | primary => .choice [.token .number, .token .string, .token .trueKeyword, .token .falseKeyword,
      .token .nilKeyword, .token .identifier,
      .seq [.token .leftParen, .rule expression, .token .rightParen]]

/-- The lists of tokens that a phrase derives. -/
inductive Derives : Phrase → List Token → Prop where
  | token {kind : Token.Kind} {token : Token} (same : token.kind = kind) :
      Derives (.token kind) [token]
  | rule {name : Nonterminal} {tokens : List Token} (derives : Derives name.definition tokens) :
      Derives (.rule name) tokens
  | seqNil : Derives (.seq []) []
  | seqCons {part : Phrase} {parts : List Phrase} {tokens others : List Token}
      (derives : Derives part tokens) (derivesOthers : Derives (.seq parts) others) :
      Derives (.seq (part :: parts)) (tokens ++ others)
  | choice {option : Phrase} {options : List Phrase} {tokens : List Token} (mem : option ∈ options)
      (derives : Derives option tokens) : Derives (.choice options) tokens
  | optionalNone {part : Phrase} : Derives (.optional part) []
  | optionalSome {part : Phrase} {tokens : List Token} (derives : Derives part tokens) :
      Derives (.optional part) tokens
  | manyNil {part : Phrase} : Derives (.many part) []
  | manyCons {part : Phrase} {tokens others : List Token} (derives : Derives part tokens)
      (derivesOthers : Derives (.many part) others) : Derives (.many part) (tokens ++ others)

mutual

/-- The lists of tokens that a phrase stands for, when its nonterminals stand for given ones. -/
def Phrase.Holds (meaning : Nonterminal → List Token → Prop) : Phrase → List Token → Prop
  | token kind, tokens => ∃ token : Token, tokens = [token] ∧ token.kind = kind
  | rule name, tokens => meaning name tokens
  | seq parts, tokens => HoldsInTurn meaning parts tokens
  | choice options, tokens => HoldsOfSome meaning options tokens
  | optional part, tokens => tokens = [] ∨ part.Holds meaning tokens
  | many part, tokens =>
    ∃ pieces : List (List Token), tokens = pieces.flatten ∧
      ∀ piece ∈ pieces, part.Holds meaning piece

/-- The lists of tokens that phrases in sequence stand for. -/
def Phrase.HoldsInTurn (meaning : Nonterminal → List Token → Prop) :
    List Phrase → List Token → Prop
  | [], tokens => tokens = []
  | part :: parts, tokens =>
    ∃ first others, tokens = first ++ others ∧ part.Holds meaning first ∧
      HoldsInTurn meaning parts others

/-- The lists of tokens that one of the phrases stands for. -/
def Phrase.HoldsOfSome (meaning : Nonterminal → List Token → Prop) :
    List Phrase → List Token → Prop
  | [], _ => False
  | option :: options, tokens => option.Holds meaning tokens ∨ HoldsOfSome meaning options tokens

end

theorem Phrase.holdsOfSome_of_mem {meaning : Nonterminal → List Token → Prop} {option : Phrase}
    {options : List Phrase} {tokens : List Token} (mem : option ∈ options)
    (holds : option.Holds meaning tokens) : Phrase.HoldsOfSome meaning options tokens := by
  induction options with
  | nil => simp at mem
  | cons first options ih =>
      rcases List.mem_cons.mp mem with rfl | mem
      · exact Or.inl holds
      · exact Or.inr (ih mem)

/-- Whatever the rules of the grammar preserve holds of all that is derived. -/
theorem Derives.holds {meaning : Nonterminal → List Token → Prop}
    (preserved : ∀ name tokens, (name.definition).Holds meaning tokens → meaning name tokens)
    {phrase : Phrase} {tokens : List Token} (derives : Derives phrase tokens) :
    phrase.Holds meaning tokens := by
  induction derives with
  | token same => exact ⟨_, rfl, same⟩
  | rule _ ih => exact preserved _ _ ih
  | seqNil => rfl
  | seqCons _ _ ih ihOthers => exact ⟨_, _, rfl, ih, ihOthers⟩
  | choice mem _ ih => exact Phrase.holdsOfSome_of_mem mem ih
  | optionalNone => exact Or.inl rfl
  | optionalSome _ ih => exact Or.inr ih
  | manyNil => exact ⟨[], rfl, by simp⟩
  | @manyCons part tokens others _ _ ih ihOthers =>
      rcases ihOthers with ⟨pieces, rfl, hold⟩
      exact ⟨tokens :: pieces, rfl, by simpa using ⟨ih, hold⟩⟩

end LoxLang.Grammar
