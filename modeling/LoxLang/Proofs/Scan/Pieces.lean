import LoxLang.Scan

/-!
# The pieces of a source

A source is cut into *pieces*, each the longest that its lexical class allows at its position: a
blank, a comment, a symbol, a closed string, a number, a word, a string without its closing quote,
or a character that belongs nowhere. The tokens and the diagnostics of a source can be read off its
pieces. The line of either is one more than the number of line ends in the source up to the end of
its piece.

Cutting recurses over the bytes, leaving out those that belong to the piece just cut, so it needs no
measure: `piecesAfter 0` is the interesting instance. A source is the concatenation of its pieces.
Most facts about them follow from the equation `pieces_append`, which cuts one piece off, and the
induction `pieces_induction` over it.
-/

namespace LoxLang

open Scanner (isBlank startsWord continuesWord single? double?)

/-- The lexical classes. A symbol is told by its kind. -/
inductive Piece.Sort where
  | blank
  | comment
  | symbol (kind : Token.Kind)
  | string
  | number
  | word
  | openString
  | badCharacter
deriving DecidableEq, Repr

/-- A stretch of source in its lexical class. -/
structure Piece where
  sort : Piece.Sort
  text : Text
deriving DecidableEq, Repr

namespace Piece

/-- The digits after a dot, with the dot, if a digit follows the dot. -/
def fraction : Text → Text
  | dot :: digit :: rest =>
    if dot = Byte.dot && Byte.isDigit digit then dot :: digit :: rest.takeWhile Byte.isDigit else []
  | _ => []

/-- The number that starts with a digit: digits, and a fraction if one follows. -/
def numberAt (first : UInt8) (rest : Text) : Piece :=
  ⟨.number, first :: (rest.takeWhile Byte.isDigit ++ fraction (rest.dropWhile Byte.isDigit))⟩

/-- The string that starts with a quote: up to the next quote, or all the rest when there is none.
-/
def stringAt (first : UInt8) (rest : Text) : Piece :=
  let body := rest.takeWhile (· ≠ Byte.quote)
  if body.length < rest.length then ⟨.string, first :: (body ++ [Byte.quote])⟩
  else ⟨.openString, first :: body⟩

/-- The piece at a byte that starts no blank, string, number or word: a comment, a symbol of two
bytes, a symbol of one, or a bad character. -/
def symbolAt (first : UInt8) (rest : Text) : Piece :=
  if first = Byte.slash && rest.head? = some Byte.slash then
    ⟨.comment, first :: rest.takeWhile (· ≠ Byte.newline)⟩
  else
    match double? first, rest with
    | some kind, 0x3D :: _ => ⟨.symbol kind, [first, 0x3D]⟩
    | _, _ =>
      match single? first with
      | some kind => ⟨.symbol kind, [first]⟩
      | none => ⟨.badCharacter, first :: rest.take (Text.Utf8.extent first rest)⟩

/-- The longest piece that starts with the given byte. -/
def longest (first : UInt8) (rest : Text) : Piece :=
  if isBlank first then ⟨.blank, [first]⟩
  else if first = Byte.quote then stringAt first rest
  else if Byte.isDigit first then numberAt first rest
  else if startsWord first then
    ⟨.word, first :: rest.takeWhile continuesWord⟩
  else symbolAt first rest

/-- The payload of a closed string: what stands between its quotes. -/
def body (piece : Piece) : Text := (piece.text.drop 1).dropLast

/-- The token that a piece gives, if its class is one of tokens. -/
def token? (piece : Piece) (line : Nat) : Option Token :=
  match piece.sort with
  | .symbol kind => some ⟨kind, piece.text, .nil, line⟩
  | .string => some ⟨.string, piece.text, .string piece.body, line⟩
  | .number => some ⟨.number, piece.text, .number (.ofNumeral piece.text), line⟩
  | .word => some ⟨.ofWord piece.text, piece.text, .nil, line⟩
  | .blank | .comment | .openString | .badCharacter => none

/-- The fault that a piece is, if its class is one of faults. -/
def fault? (piece : Piece) : Option Fault :=
  match piece.sort with
  | .openString => some .unterminatedString
  | .badCharacter => some .unexpectedCharacter
  | .blank | .comment | .symbol _ | .string | .number | .word => none

/-- The diagnostic that a piece gives. -/
def diagnostic? (piece : Piece) (line : Nat) : Option Diagnostic :=
  piece.fault?.map fun fault => ⟨.scanner, line, [], fault⟩

end Piece

/-- The pieces of a source after the given number of bytes that belong to an earlier piece. -/
def piecesAfter : Nat → Text → List Piece
  | _, [] => []
  | skipped + 1, _ :: rest => piecesAfter skipped rest
  | 0, first :: rest =>
    let piece := Piece.longest first rest
    piece :: piecesAfter (piece.text.length - 1) rest

/-- The pieces of a source. -/
def pieces (source : Text) : List Piece := piecesAfter 0 source

/-- Pieces with the lines on which they end, when the first of them starts on the given line. -/
def placed (line : Nat) : List Piece → List (Piece × Nat)
  | [] => []
  | piece :: rest =>
    let last := line + piece.text.newlines
    (piece, last) :: placed last rest

namespace Piece

/-- A text has a quote after its quoteless beginning, or it is all quoteless. -/
theorem exists_quote_or_quoteless (text : Text) :
    (∃ others, text = text.takeWhile (· ≠ Byte.quote) ++ Byte.quote :: others) ∨
      text.takeWhile (· ≠ Byte.quote) = text := by
  have split : text.takeWhile (· ≠ Byte.quote) ++ text.dropWhile (· ≠ Byte.quote) = text :=
    List.takeWhile_append_dropWhile
  have stopped := List.head?_dropWhile_not (· ≠ Byte.quote) text
  cases remaining : text.dropWhile (· ≠ Byte.quote) with
  | nil =>
      rw [remaining, List.append_nil] at split
      exact Or.inr split
  | cons byte others =>
      rw [remaining] at split stopped
      have isQuote : byte = Byte.quote := by simpa using stopped
      subst isQuote
      exact Or.inl ⟨others, split.symm⟩

theorem stringAt_eq_cons (first : UInt8) (rest : Text) :
    ∃ taken, (stringAt first rest).text = first :: taken ∧ taken <+: rest := by
  rw [stringAt]
  split
  · rename_i shorter
    refine ⟨_, rfl, ?_⟩
    rcases exists_quote_or_quoteless rest with ⟨others, ends⟩ | all
    · exact ⟨others, by rw [List.append_assoc]; exact ends.symm⟩
    · rw [all] at shorter
      omega
  · exact ⟨_, rfl, List.takeWhile_prefix _⟩

theorem fraction_isPrefix (text : Text) : fraction text <+: text := by
  match text with
  | [] => simp [fraction]
  | [dot] => simp [fraction]
  | dot :: digit :: rest =>
      rw [fraction]
      split
      · simp [List.takeWhile_prefix]
      · simp

theorem numberAt_eq_cons (first : UInt8) (rest : Text) :
    ∃ taken, (numberAt first rest).text = first :: taken ∧ taken <+: rest := by
  refine ⟨_, rfl, ?_⟩
  rcases fraction_isPrefix (rest.dropWhile Byte.isDigit) with ⟨others, split⟩
  refine ⟨others, ?_⟩
  rw [List.append_assoc, split, List.takeWhile_append_dropWhile]

theorem symbolAt_eq_cons (first : UInt8) (rest : Text) :
    ∃ taken, (symbolAt first rest).text = first :: taken ∧ taken <+: rest := by
  unfold symbolAt
  split
  · exact ⟨_, rfl, List.takeWhile_prefix _⟩
  · split
    · exact ⟨_, rfl, by simp⟩
    · split
      · exact ⟨_, rfl, List.nil_prefix⟩
      · exact ⟨_, rfl, List.take_prefix _ _⟩

/-- A piece is a first part of the source at its position, and it is not empty. -/
theorem longest_eq_cons (first : UInt8) (rest : Text) :
    ∃ taken, (longest first rest).text = first :: taken ∧ taken <+: rest := by
  rw [longest]
  split
  · exact ⟨[], rfl, List.nil_prefix⟩
  · split
    · exact stringAt_eq_cons first rest
    · split
      · exact numberAt_eq_cons first rest
      · split
        · exact ⟨_, rfl, List.takeWhile_prefix _⟩
        · exact symbolAt_eq_cons first rest

end Piece

theorem piecesAfter_append (text rest : Text) :
    piecesAfter text.length (text ++ rest) = pieces rest := by
  induction text with
  | nil => rfl
  | cons byte text ih => exact ih

theorem pieces_append {first : UInt8} {taken rest : Text}
    (longest : (Piece.longest first (taken ++ rest)).text = first :: taken) :
    pieces (first :: (taken ++ rest)) = Piece.longest first (taken ++ rest) :: pieces rest := by
  rw [pieces, piecesAfter, longest]
  simp only [List.length_cons, Nat.add_sub_cancel, piecesAfter_append]

/-- Sources by their pieces: what holds at the end, and before a piece if it holds after it. -/
theorem pieces_induction {motive : Text → List Piece → Prop} (nil : motive [] [])
    (cons : ∀ first taken rest,
      (Piece.longest first (taken ++ rest)).text = first :: taken → motive rest (pieces rest) →
      motive (first :: (taken ++ rest)) (Piece.longest first (taken ++ rest) :: pieces rest))
    (source : Text) : motive source (pieces source) := by
  -- A piece is not empty, so what comes after it is shorter.
  induction size : source.length using Nat.strongRecOn generalizing source with
  | ind size ih =>
      cases source with
      | nil => exact nil
      | cons first source =>
          rcases Piece.longest_eq_cons first source with ⟨taken, longest, rest, rfl⟩
          rw [pieces_append longest]
          refine cons first taken rest longest (ih rest.length ?_ rest rfl)
          simp only [List.length_cons, List.length_append] at size
          omega

theorem pieces_flatMap_text (source : Text) : (pieces source).flatMap Piece.text = source := by
  refine pieces_induction (motive := fun source pieces => pieces.flatMap Piece.text = source)
    rfl ?_ source
  intro first taken rest longest ih
  rw [List.flatMap_cons, longest, ih, List.cons_append]

theorem exists_longest_of_mem_pieces (source : Text) :
    ∀ piece ∈ pieces source, ∃ first rest, piece = Piece.longest first rest := by
  refine pieces_induction (motive := fun _ pieces =>
    ∀ piece ∈ pieces, ∃ first rest, piece = Piece.longest first rest) (by simp) ?_ source
  intro first taken rest _ ih
  exact List.forall_mem_cons.mpr ⟨⟨_, _, rfl⟩, ih⟩

theorem Text.newlines_append (first second : Text) :
    Text.newlines (first ++ second) = first.newlines + second.newlines :=
  List.count_append

/-- The lines of pieces lie between the line of the start and the line of the end. -/
theorem line_mem_placed {start line : Nat} {piece : Piece} {pieces : List Piece}
    (mem : (piece, line) ∈ placed start pieces) :
    start ≤ line ∧ line ≤ start + Text.newlines (pieces.flatMap Piece.text) := by
  induction pieces generalizing start with
  | nil => simp [placed] at mem
  | cons first others ih =>
      rw [List.flatMap_cons, Text.newlines_append]
      rcases List.mem_cons.mp mem with same | mem
      · cases same
        omega
      · have := ih mem
        omega

theorem piece_mem_of_placed {start line : Nat} {piece : Piece} {pieces : List Piece}
    (mem : (piece, line) ∈ placed start pieces) : piece ∈ pieces := by
  induction pieces generalizing start with
  | nil => simp [placed] at mem
  | cons first others ih =>
      rcases List.mem_cons.mp mem with same | mem
      · cases same
        exact List.mem_cons_self
      · exact List.mem_cons_of_mem _ (ih mem)

theorem Piece.token?_line {piece : Piece} {line : Nat} {token : Token}
    (isToken : piece.token? line = some token) : token.line = line := by
  unfold token? at isToken
  split at isToken <;> cases isToken <;> rfl

end LoxLang
