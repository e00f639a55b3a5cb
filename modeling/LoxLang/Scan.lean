import LoxLang.Diagnostic

/-!
# Scanning

A scanner goes over a source from left to right. It reads one lexeme after the other, each as long
as its lexical class allows, and looks ahead by at most two bytes. Its line goes up at two places:
at a line end between lexemes, and at a line end in a string. So a string that spans lines carries
the line of its closing quote. Faults are noted and passed over.

The loops go on while something is ahead, so they come with what they leave ahead.
-/

namespace LoxLang

/-- A scanner at work. -/
structure Scanner where
  /-- The bytes of the lexeme at hand, the last one first. -/
  passed : Text
  /-- The source from the cursor on. -/
  ahead : Text
  line : Nat
  tokens : Array Token
  diagnostics : Array Diagnostic

namespace Scanner

/-- Spaces, tabs, carriage returns and line ends separate tokens and mean nothing else. -/
def isBlank (byte : UInt8) : Bool :=
  byte = Byte.space || byte = Byte.tab || byte = Byte.carriageReturn || byte = Byte.newline

/-- Words start with a letter or an underscore. -/
def startsWord (byte : UInt8) : Bool := Byte.isLetter byte || byte = Byte.underscore

/-- Words go on with letters, underscores and digits. -/
def continuesWord (byte : UInt8) : Bool := startsWord byte || Byte.isDigit byte

/-- The symbols of one byte. -/
def single? (byte : UInt8) : Option Token.Kind :=
  match byte with
  | 0x28 => some .leftParen
  | 0x29 => some .rightParen
  | 0x7B => some .leftBrace
  | 0x7D => some .rightBrace
  | 0x2C => some .comma
  | 0x2E => some .dot
  | 0x2D => some .minus
  | 0x2B => some .plus
  | 0x3B => some .semicolon
  | 0x2A => some .star
  | 0x2F => some .slash
  | 0x21 => some .bang
  | 0x3D => some .equal
  | 0x3C => some .less
  | 0x3E => some .greater
  | _ => none

/-- The symbols of two bytes; the second byte of each is an equals sign. -/
def double? (byte : UInt8) : Option Token.Kind :=
  match byte with
  | 0x21 => some .bangEqual
  | 0x3D => some .equalEqual
  | 0x3C => some .lessEqual
  | 0x3E => some .greaterEqual
  | _ => none

/-- The lexeme at hand. -/
def lexeme (scanner : Scanner) : Text := scanner.passed.reverse

/-- The cursor has gone over a byte of the lexeme, and the given text is ahead. -/
def pass (byte : UInt8) (ahead : Text) (scanner : Scanner) : Scanner :=
  { scanner with passed := byte :: scanner.passed, ahead }

/-- Goes over the given number of bytes. -/
def skip (count : Nat) (scanner : Scanner) : Scanner :=
  { scanner with
    passed := (scanner.ahead.take count).reverse ++ scanner.passed
    ahead := scanner.ahead.drop count }

/-- The cursor has gone over a line end. -/
def countLine (scanner : Scanner) : Scanner := { scanner with line := scanner.line + 1 }

/-- Goes over bytes as long as they are of a kind. -/
def passWhile (continues : UInt8 → Bool) (scanner : Scanner) : Scanner :=
  match _ : scanner.ahead with
  | [] => scanner
  | byte :: rest =>
    if continues byte then passWhile continues (scanner.pass byte rest) else scanner
termination_by scanner.ahead.length
decreasing_by rw [‹scanner.ahead = _›]; exact Nat.lt_succ_self rest.length

/-- Goes up to the quote that closes a string, or to the end of the source. A line end on the way is
counted. -/
def passBody (scanner : Scanner) : Scanner :=
  match _ : scanner.ahead with
  | [] => scanner
  | byte :: rest =>
    if byte = Byte.quote then scanner
    else if byte = Byte.newline then passBody (scanner.pass byte rest).countLine
    else passBody (scanner.pass byte rest)
termination_by scanner.ahead.length
decreasing_by all_goals rw [‹scanner.ahead = _›]; exact Nat.lt_succ_self rest.length

/-- The lexeme at hand makes a token. -/
def add (kind : Token.Kind) (literal : Literal) (scanner : Scanner) : Scanner :=
  { scanner with tokens := scanner.tokens.push ⟨kind, scanner.lexeme, literal, scanner.line⟩ }

/-- The lexeme at hand is a fault. -/
def fail (fault : Fault) (scanner : Scanner) : Scanner :=
  { scanner with
    diagnostics := scanner.diagnostics.push ⟨.scanner, scanner.line, [], fault⟩ }

/-- Reads a string, whose opening quote has been passed. Its payload is what stands between the
quotes. -/
def string (scanner : Scanner) : Scanner :=
  let scanner := scanner.passBody
  match scanner.ahead with
  | [] => scanner.fail .unterminatedString
  | quote :: rest =>
    let scanner := scanner.pass quote rest
    scanner.add .string (.string (scanner.lexeme.drop 1).dropLast)

/-- Goes over a dot and the digits after it, if there is one. -/
def passFraction (scanner : Scanner) : Scanner :=
  match scanner.ahead with
  | dot :: digit :: _ =>
    if dot = Byte.dot && Byte.isDigit digit then (scanner.skip 1).passWhile Byte.isDigit
    else scanner
  | _ => scanner

/-- Reads a number, whose first digit has been passed. -/
def number (scanner : Scanner) : Scanner :=
  let scanner := (scanner.passWhile Byte.isDigit).passFraction
  scanner.add .number (.number (.ofNumeral scanner.lexeme))

/-- Reads a word, whose first byte has been passed. -/
def word (scanner : Scanner) : Scanner :=
  let scanner := scanner.passWhile continuesWord
  scanner.add (.ofWord scanner.lexeme) .nil

/-- Reads a symbol of one byte, which has been passed. If it is none, it belongs to a bad character,
which is passed as a whole. -/
def single (first : UInt8) (scanner : Scanner) : Scanner :=
  match single? first with
  | some kind => scanner.add kind .nil
  | none => (scanner.skip (Text.Utf8.extent first scanner.ahead)).fail .unexpectedCharacter

/-- Reads a symbol, whose first byte has been passed. One of two bytes comes before one of a single
byte. -/
def symbol (first : UInt8) (scanner : Scanner) : Scanner :=
  match double? first, scanner.ahead with
  | some kind, 0x3D :: _ => (scanner.skip 1).add kind .nil
  | _, _ => scanner.single first

/-- Reads one lexeme, whose first byte has been passed. -/
def scanToken (first : UInt8) (scanner : Scanner) : Scanner :=
  if first = Byte.newline then scanner.countLine
  else if isBlank first then scanner
  else if first = Byte.quote then scanner.string
  else if Byte.isDigit first then scanner.number
  else if startsWord first then scanner.word
  else if first = Byte.slash && scanner.ahead.head? = some Byte.slash then
    (scanner.skip 1).passWhile (· ≠ Byte.newline)
  else scanner.symbol first

section Progress

theorem skip_skip (first second : Nat) (scanner : Scanner) :
    (scanner.skip first).skip second = scanner.skip (first + second) := by
  simp only [skip, List.drop_drop, List.take_add, List.reverse_append, List.append_assoc]

theorem skip_one {byte : UInt8} {rest : Text} {scanner : Scanner}
    (ahead : scanner.ahead = byte :: rest) : scanner.skip 1 = scanner.pass byte rest := by
  simp [skip, pass, ahead]

theorem passWhile_eq (continues : UInt8 → Bool) (scanner : Scanner) :
    scanner.passWhile continues = scanner.skip (scanner.ahead.takeWhile continues).length := by
  fun_induction passWhile continues scanner with
  | case1 scanner ahead => rw [ahead]; rfl
  | case2 scanner byte rest ahead going ih =>
      rw [ih, ← skip_one ahead, skip_skip, ahead, List.takeWhile_cons_of_pos going,
        List.length_cons, Nat.add_comm, skip_one ahead]
      rfl
  | case3 scanner byte rest ahead stops =>
      rw [ahead, List.takeWhile_cons_of_neg stops]
      rfl

theorem passBody_eq (scanner : Scanner) :
    scanner.passBody =
      { scanner.skip (scanner.ahead.takeWhile (· ≠ Byte.quote)).length with
        line := scanner.line + Text.newlines (scanner.ahead.takeWhile (· ≠ Byte.quote)) } := by
  fun_induction passBody scanner with
  | case1 scanner ahead => rw [ahead]; rfl
  | case2 scanner rest ahead => rw [ahead]; rfl
  | case3 scanner rest ahead notQuote ih =>
      rw [ih, ahead, List.takeWhile_cons_of_pos (by decide)]
      simp [skip, pass, countLine, Text.newlines, ahead, Nat.add_right_comm, ← Nat.add_assoc]
  | case4 scanner byte rest ahead notQuote notNewline ih =>
      rw [ih, ahead, List.takeWhile_cons_of_pos (by simp [notQuote])]
      simp [skip, pass, Text.newlines, ahead, notNewline]

theorem length_ahead_skip_le (count : Nat) (scanner : Scanner) :
    (scanner.skip count).ahead.length ≤ scanner.ahead.length := by
  simp [skip]

theorem length_ahead_passWhile_le (continues : UInt8 → Bool) (scanner : Scanner) :
    (scanner.passWhile continues).ahead.length ≤ scanner.ahead.length := by
  rw [passWhile_eq]
  exact length_ahead_skip_le _ scanner

theorem length_ahead_string_le (scanner : Scanner) :
    scanner.string.ahead.length ≤ scanner.ahead.length := by
  have body : scanner.passBody.ahead.length ≤ scanner.ahead.length := by
    rw [passBody_eq]
    exact length_ahead_skip_le _ scanner
  simp only [string]
  split
  · exact body
  · rename_i quote rest ahead
    rw [ahead] at body
    exact Nat.le_of_succ_le body

theorem length_ahead_number_le (scanner : Scanner) :
    scanner.number.ahead.length ≤ scanner.ahead.length := by
  refine Nat.le_trans ?_ (length_ahead_passWhile_le Byte.isDigit scanner)
  unfold number passFraction
  split
  · split
    · exact Nat.le_trans (length_ahead_passWhile_le _ _) (length_ahead_skip_le 1 _)
    · exact Nat.le_refl _
  · exact Nat.le_refl _

theorem length_ahead_symbol_le (first : UInt8) (scanner : Scanner) :
    (scanner.symbol first).ahead.length ≤ scanner.ahead.length := by
  unfold symbol
  split
  · exact length_ahead_skip_le 1 scanner
  · unfold single
    split
    · exact Nat.le_refl _
    · exact length_ahead_skip_le _ scanner

/-- Reading a lexeme goes on from where it starts. -/
theorem length_ahead_scanToken_le (first : UInt8) (scanner : Scanner) :
    (scanner.scanToken first).ahead.length ≤ scanner.ahead.length := by
  unfold scanToken
  split
  · exact Nat.le_refl _
  · split
    · exact Nat.le_refl _
    · split
      · exact length_ahead_string_le scanner
      · split
        · exact length_ahead_number_le scanner
        · split
          · exact length_ahead_passWhile_le continuesWord scanner
          · split
            · exact Nat.le_trans (length_ahead_passWhile_le _ _) (length_ahead_skip_le 1 scanner)
            · exact length_ahead_symbol_le first scanner

end Progress

/-- The cursor has gone over the first byte of a new lexeme. -/
def begin (first : UInt8) (ahead : Text) (scanner : Scanner) : Scanner :=
  { scanner with passed := [first], ahead }

/-- Reads all lexemes that are ahead. -/
def run (scanner : Scanner) : Scanner :=
  match _ : scanner.ahead with
  | [] => scanner
  | first :: rest => run ((scanner.begin first rest).scanToken first)
termination_by scanner.ahead.length
decreasing_by
  rw [‹scanner.ahead = _›]
  exact Nat.lt_succ_of_le (length_ahead_scanToken_le first _)

/-- The scanner before a source. -/
def before (source : Text) : Scanner where
  passed := []
  ahead := source
  line := 1
  tokens := #[]
  diagnostics := #[]

end Scanner

/-- What scanning a source gives. -/
structure Scan where
  tokens : List Token
  diagnostics : List Diagnostic
deriving DecidableEq, Repr

/-- The tokens of a source, ended by a token for its end, and the complaints about it. -/
def scan (source : Text) : Scan :=
  let scanner := (Scanner.before source).run
  { tokens := (scanner.tokens.push (.endOfInput scanner.line)).toList
    diagnostics := scanner.diagnostics.toList }

end LoxLang
