import LoxLang.Literal

/-!
# Tokens

A token has a kind, the lexeme it was read from, a payload and the line on which it ends. The parser
decides by kinds alone. `Token.Kind.other` stands for kinds outside the language: no source yields
one, but the parser is defined on every list of tokens.
-/

namespace LoxLang

/-- The kinds of tokens. -/
inductive Token.Kind where
  | leftParen | rightParen | leftBrace | rightBrace
  | comma | dot | minus | plus | semicolon | slash | star
  | bang | bangEqual | equal | equalEqual | greater | greaterEqual | less | lessEqual
  | identifier | string | number
  | andKeyword | classKeyword | elseKeyword | falseKeyword | forKeyword | funKeyword | ifKeyword
  | nilKeyword | orKeyword | printKeyword | returnKeyword | superKeyword | thisKeyword | trueKeyword
  | varKeyword | whileKeyword
  | eof
  | other (name : String)
deriving DecidableEq, Repr

/-- A token. -/
structure Token where
  kind : Token.Kind
  lexeme : Text
  literal : Literal
  line : Int
deriving DecidableEq, Repr

namespace Token

namespace Kind

/-- The kinds of the language with their names. -/
def named : List (String × Kind) :=
  [("LEFT_PAREN", leftParen), ("RIGHT_PAREN", rightParen), ("LEFT_BRACE", leftBrace),
   ("RIGHT_BRACE", rightBrace), ("COMMA", comma), ("DOT", dot), ("MINUS", minus), ("PLUS", plus),
   ("SEMICOLON", semicolon), ("SLASH", slash), ("STAR", star), ("BANG", bang),
   ("BANG_EQUAL", bangEqual), ("EQUAL", equal), ("EQUAL_EQUAL", equalEqual), ("GREATER", greater),
   ("GREATER_EQUAL", greaterEqual), ("LESS", less), ("LESS_EQUAL", lessEqual),
   ("IDENTIFIER", identifier), ("STRING", string), ("NUMBER", number), ("AND", andKeyword),
   ("CLASS", classKeyword), ("ELSE", elseKeyword), ("FALSE", falseKeyword), ("FOR", forKeyword),
   ("FUN", funKeyword), ("IF", ifKeyword), ("NIL", nilKeyword), ("OR", orKeyword),
   ("PRINT", printKeyword), ("RETURN", returnKeyword), ("SUPER", superKeyword),
   ("THIS", thisKeyword), ("TRUE", trueKeyword), ("VAR", varKeyword), ("WHILE", whileKeyword),
   ("EOF", eof)]

/-- The name of a kind. -/
def name : Kind → String
  | other name => name
  | kind => ((named.find? fun entry => entry.2 = kind).map Prod.fst).getD ""

/-- The kind of a name. -/
def ofName (name : String) : Kind := (named.lookup name).getD (other name)

/-- The reserved words. -/
def keywords : List (Text × Kind) :=
  [("and", andKeyword), ("class", classKeyword), ("else", elseKeyword), ("false", falseKeyword),
   ("for", forKeyword), ("fun", funKeyword), ("if", ifKeyword), ("nil", nilKeyword),
   ("or", orKeyword), ("print", printKeyword), ("return", returnKeyword), ("super", superKeyword),
   ("this", thisKeyword), ("true", trueKeyword), ("var", varKeyword), ("while", whileKeyword)]

/-- The kind of a word: a keyword, or else an identifier. -/
def ofWord (word : Text) : Kind := (keywords.lookup word).getD identifier

/-- The lexemes of the operators that trees are built with. -/
def operators : List (Text × Kind) :=
  [("-", minus), ("+", plus), ("/", slash), ("*", star), ("!", bang), ("!=", bangEqual),
   ("==", equalEqual), (">", greater), (">=", greaterEqual), ("<", less), ("<=", lessEqual),
   ("and", andKeyword), ("or", orKeyword)]

end Kind

/-- A description of a token: kind, lexeme and payload. -/
def description (token : Token) : Text :=
  (token.kind.name : Text) ++ Byte.space :: (token.lexeme ++ Byte.space :: token.literal.described)

/-- The token that ends a list of tokens. -/
def endOfInput (line : Int) : Token := ⟨.eof, [], .nil, line⟩

/-- The token of an operator on the first line, if the lexeme is one. -/
def operator? (lexeme : Text) : Option Token :=
  (Kind.operators.lookup lexeme).map fun kind => ⟨kind, lexeme, .nil, 1⟩

/-- The token of a name on the first line. -/
def ofName (name : Text) : Token := ⟨.identifier, name, .nil, 1⟩

end Token

end LoxLang
