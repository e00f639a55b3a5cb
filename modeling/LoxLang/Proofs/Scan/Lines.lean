import LoxLang.Proofs.Scan.Loop

/-!
# Scanning line by line

No piece but a string goes on across the end of a line. So where a line ends outside a string, what
stands before it and what stands after it can be scanned apart: the tokens and complaints of the two
parts follow each other, those of the second part on lines further down.

A string without its closing quote takes in the line end and all that follows, and is reported on
the last line. So the parts can be scanned apart only if the first has none.
-/

namespace LoxLang

open Scanner (isBlank startsWord continuesWord single? double?)

/-- The token that many lines further down. -/
def Token.later (lines : Nat) (token : Token) : Token := { token with line := token.line + lines }

/-- The diagnostic that many lines further down. -/
def Diagnostic.later (lines : Nat) (diagnostic : Diagnostic) : Diagnostic :=
  { diagnostic with line := diagnostic.line + lines }

namespace Text.Utf8

theorem decode?_append_newline (first : UInt8) (rest more : Text) :
    decode? first (rest ++ Byte.newline :: more) = decode? first rest := by
  have noTail : isTail Byte.newline = false := by decide
  -- A line end is below the range of the second byte, whatever the first byte is.
  have below : ∀ bound : UInt8,
      ¬(if first = bound then (0xA0 : UInt8) else 0x80) ≤ Byte.newline ∧
        ¬(if first = bound then (0x90 : UInt8) else 0x80) ≤ Byte.newline := by
    intro bound
    split <;> decide
  unfold decode?
  split
  · rfl
  · split
    · rfl
    · split
      · cases rest with
        | nil => simp [noTail]
        | cons second others => rfl
      · split
        · match rest with
          | [] => cases more <;> simp [below]
          | [second] => simp [noTail]
          | second :: third :: others => rfl
        · split
          · match rest with
            | [] => rcases more with _ | ⟨third, _ | ⟨fourth, others⟩⟩ <;> simp [below]
            | [second] => cases more <;> simp [noTail]
            | [second, third] => simp [noTail]
            | second :: third :: fourth :: others => rfl
          · rfl

theorem extent_append_newline (first : UInt8) (rest more : Text) :
    extent first (rest ++ Byte.newline :: more) = extent first rest := by
  rw [extent, extent, decode?_append_newline]

theorem extent_le_length (first : UInt8) (rest : Text) : extent first rest ≤ rest.length := by
  unfold extent decode?
  grind

end Text.Utf8

namespace Piece

variable {stop : UInt8} {inside : UInt8 → Bool}

theorem takeWhile_append_stop (stops : inside stop = false) (text more : Text) :
    (text ++ stop :: more).takeWhile inside = text.takeWhile inside := by
  induction text with
  | nil => simp [stops]
  | cons byte text ih => simp only [List.cons_append, List.takeWhile_cons, ih]

theorem dropWhile_append_stop (stops : inside stop = false) (text more : Text) :
    (text ++ stop :: more).dropWhile inside = text.dropWhile inside ++ stop :: more := by
  induction text with
  | nil => simp [stops]
  | cons byte text ih =>
      simp only [List.cons_append, List.dropWhile_cons, ih]
      split <;> rfl

theorem fraction_append_newline (text more : Text) :
    fraction (text ++ Byte.newline :: more) = fraction text := by
  have notDot : ¬Byte.newline = Byte.dot := by decide
  have notDigit : Byte.isDigit Byte.newline = false := by decide
  match text with
  | [] => cases more <;> simp [fraction, notDot]
  | [dot] => simp [fraction, notDigit]
  | dot :: digit :: rest => simp [fraction, takeWhile_append_stop notDigit]

theorem stringAt_append {first : UInt8} {rest : Text}
    (closed : (stringAt first rest).sort ≠ .openString) (more : Text) :
    stringAt first (rest ++ more) = stringAt first rest := by
  have notInside : decide (Byte.quote ≠ Byte.quote) = false := by decide
  rcases exists_quote_or_quoteless rest with ⟨others, split⟩ | quoteless
  · generalize rest.takeWhile (· ≠ Byte.quote) = body at split
    subst split
    have shorter : (body.takeWhile (· ≠ Byte.quote)).length ≤ body.length :=
      (List.takeWhile_prefix _).length_le
    rw [List.append_assoc, List.cons_append, stringAt, stringAt, takeWhile_append_stop notInside,
      takeWhile_append_stop notInside, if_pos, if_pos]
    all_goals
      simp only [List.length_append, List.length_cons]
      omega
  · rw [stringAt, quoteless, if_neg (Nat.lt_irrefl _)] at closed
    exact (closed rfl).elim

theorem symbolAt_append_newline (first : UInt8) (rest more : Text) :
    symbolAt first (rest ++ Byte.newline :: more) = symbolAt first rest := by
  have head : (rest ++ Byte.newline :: more).head? = some Byte.slash ↔
      rest.head? = some Byte.slash := by
    cases rest with
    | nil => simp [show Byte.newline ≠ Byte.slash by decide]
    | cons => rfl
  have comment : (rest ++ Byte.newline :: more).takeWhile (· ≠ Byte.newline) =
      rest.takeWhile (· ≠ Byte.newline) :=
    takeWhile_append_stop (by decide) rest more
  have taken : (rest ++ Byte.newline :: more).take (Text.Utf8.extent first rest) =
      rest.take (Text.Utf8.extent first rest) :=
    List.take_append_of_le_length (Text.Utf8.extent_le_length first rest)
  unfold symbolAt
  simp only [head, comment, Text.Utf8.extent_append_newline, taken]
  split
  · rfl
  · cases rest with
    | nil => cases double? first <;> rfl
    | cons => grind

/-- A piece that is no open string is the same if a line end comes behind what it was cut from. -/
theorem longest_append_newline {first : UInt8} {rest : Text}
    (closed : (longest first rest).sort ≠ .openString) (more : Text) :
    longest first (rest ++ Byte.newline :: more) = longest first rest := by
  have noDigit : Byte.isDigit Byte.newline = false := by decide
  have noWord : continuesWord Byte.newline = false := by decide
  unfold longest at closed ⊢
  split
  · rfl
  · rename_i notBlank
    rw [if_neg notBlank] at closed
    split
    · rename_i isQuote
      rw [if_pos isQuote] at closed
      exact stringAt_append closed _
    · split
      · rw [numberAt, numberAt, takeWhile_append_stop noDigit, dropWhile_append_stop noDigit,
          fraction_append_newline]
      · split
        · rw [takeWhile_append_stop noWord]
        · exact symbolAt_append_newline first rest more

end Piece

/-- The line end between two parts of a source is a piece of its own. -/
theorem pieces_append_newline (source more : Text)
    (closed : ∀ piece ∈ pieces source, piece.sort ≠ .openString) :
    pieces (source ++ Byte.newline :: more) =
      pieces source ++ ⟨.blank, [Byte.newline]⟩ :: pieces more := by
  revert closed
  refine pieces_induction (motive := fun source cut =>
    (∀ piece ∈ cut, piece.sort ≠ .openString) →
      pieces (source ++ Byte.newline :: more) =
        cut ++ ⟨.blank, [Byte.newline]⟩ :: pieces more) (fun _ => rfl) ?_ source
  intro first taken rest longest ih closed
  rw [List.forall_mem_cons] at closed
  have same := Piece.longest_append_newline closed.1 more
  rw [List.append_assoc] at same
  rw [List.cons_append, List.append_assoc, pieces_append (by rw [same, longest]), same,
    List.cons_append, ih closed.2]

theorem placed_append (line : Nat) (first second : List Piece) :
    placed line (first ++ second) =
      placed line first ++ placed (line + Text.newlines (first.flatMap Piece.text)) second := by
  induction first generalizing line with
  | nil => rfl
  | cons piece others ih =>
      rw [List.cons_append, placed, placed, ih, List.flatMap_cons, Text.newlines_append,
        List.cons_append, Nat.add_assoc]

theorem placed_add (line lines : Nat) (cut : List Piece) :
    placed (line + lines) cut =
      (placed line cut).map fun (piece, line) => (piece, line + lines) := by
  induction cut generalizing line with
  | nil => rfl
  | cons piece others ih =>
      have moved : line + lines + piece.text.newlines = line + piece.text.newlines + lines := by
        omega
      rw [placed, placed, moved, ih, List.map_cons]

theorem exists_placed_of_mem {piece : Piece} {cut : List Piece} (mem : piece ∈ cut) (line : Nat) :
    ∃ place, (piece, place) ∈ placed line cut := by
  induction cut generalizing line with
  | nil => simp at mem
  | cons first others ih =>
      rcases List.mem_cons.mp mem with rfl | mem
      · exact ⟨_, List.mem_cons_self⟩
      · rcases ih mem (line + first.text.newlines) with ⟨place, placedMem⟩
        exact ⟨place, List.mem_cons_of_mem _ placedMem⟩

theorem closed_of_scan {source : Text}
    (closed : ∀ diagnostic ∈ (scan source).diagnostics, diagnostic.fault ≠ .unterminatedString) :
    ∀ piece ∈ pieces source, piece.sort ≠ .openString := by
  intro piece mem isOpen
  rcases exists_placed_of_mem mem 1 with ⟨line, placedMem⟩
  have reported : ⟨.scanner, line, [], .unterminatedString⟩ ∈ (scan source).diagnostics := by
    refine mem_scan_diagnostics.mpr ⟨piece, line, placedMem, ?_⟩
    simp [Piece.diagnostic?, Piece.fault?, isOpen]
  exact closed _ reported rfl

theorem Piece.token?_add (piece : Piece) (line lines : Nat) :
    piece.token? (line + lines) = (piece.token? line).map (Token.later lines) := by
  unfold token?
  split <;> simp [Token.later]

theorem Piece.diagnostic?_add (piece : Piece) (line lines : Nat) :
    piece.diagnostic? (line + lines) = (piece.diagnostic? line).map (Diagnostic.later lines) := by
  unfold diagnostic?
  cases piece.fault? <;> simp [Diagnostic.later]

section Joined

variable {source : Text}
  (closed : ∀ diagnostic ∈ (scan source).diagnostics, diagnostic.fault ≠ .unterminatedString)
include closed

/-- What is read off the pieces of two parts of a source, when the line end between them gives
nothing. -/
theorem filterMap_placed_append_newline {α : Type} {read : Piece → Nat → Option α}
    {later : α → α} (blank : ∀ line, read ⟨.blank, [Byte.newline]⟩ line = none)
    (moves : ∀ piece line, read piece (line + (1 + source.newlines)) = (read piece line).map later)
    (more : Text) :
    (placed 1 (pieces (source ++ Byte.newline :: more))).filterMap
        (fun (piece, line) => read piece line) =
      (placed 1 (pieces source)).filterMap (fun (piece, line) => read piece line) ++
        ((placed 1 (pieces more)).filterMap fun (piece, line) => read piece line).map later := by
  have start : 1 + source.newlines + Text.newlines [Byte.newline] = 1 + (1 + source.newlines) := by
    rw [show Text.newlines [Byte.newline] = 1 from rfl]
    omega
  rw [pieces_append_newline source more (closed_of_scan closed), placed_append,
    pieces_flatMap_text, placed, start, placed_add, List.filterMap_append, List.filterMap_cons,
    List.filterMap_map, List.map_filterMap]
  simp only [blank, Function.comp_def, moves]

theorem scan_tokens_append_newline (more : Text) :
    (scan (source ++ Byte.newline :: more)).tokens =
      (scan source).tokens.dropLast ++
        (scan more).tokens.map (Token.later (1 + source.newlines)) := by
  have ends : Token.endOfInput (1 + (source ++ Byte.newline :: more).newlines : Nat) =
      (Token.endOfInput (1 + more.newlines : Nat)).later (1 + source.newlines) := by
    have lines : 1 + Text.newlines (source ++ Byte.newline :: more) =
        1 + more.newlines + (1 + source.newlines) := by
      simp only [Text.newlines, List.count_append, List.count_cons_self]
      omega
    rw [lines]
    rfl
  simp only [scan_eq]
  rw [filterMap_placed_append_newline closed (fun _ => rfl)
    (fun piece line => piece.token?_add line _) more, ends]
  simp

theorem scan_diagnostics_append_newline (more : Text) :
    (scan (source ++ Byte.newline :: more)).diagnostics =
      (scan source).diagnostics ++
        (scan more).diagnostics.map (Diagnostic.later (1 + source.newlines)) := by
  simp only [scan_eq]
  exact filterMap_placed_append_newline closed (fun _ => rfl)
    (fun piece line => piece.diagnostic?_add line _) more

end Joined

section Unclosed

variable {first : UInt8} {rest source : Text}

theorem Piece.stringAt_openString (isOpen : (stringAt first rest).sort = .openString) :
    (stringAt first rest).text = first :: rest := by
  rw [stringAt] at isOpen ⊢
  split at isOpen
  · cases isOpen
  · rename_i whole
    rw [if_neg whole]
    rcases exists_quote_or_quoteless rest with ⟨others, split⟩ | quoteless
    · have longer := congrArg List.length split
      rw [List.length_append, List.length_cons] at longer
      omega
    · rw [quoteless]

theorem Piece.longest_openString (isOpen : (longest first rest).sort = .openString) :
    (longest first rest).text = first :: rest := by
  unfold longest symbolAt at isOpen ⊢
  split at isOpen
  · cases isOpen
  · rename_i notBlank
    rw [if_neg notBlank]
    split at isOpen
    · rename_i isQuote
      rw [if_pos isQuote]
      exact stringAt_openString isOpen
    · -- No other class gives an open string.
      repeat' split at isOpen
      all_goals cases isOpen

/-- An open string ends where the source does. -/
theorem line_of_openString {start line : Nat} {piece : Piece}
    (mem : (piece, line) ∈ placed start (pieces source)) (isOpen : piece.sort = .openString) :
    line = start + source.newlines := by
  revert start
  refine pieces_induction (motive := fun source cut =>
    ∀ {start}, (piece, line) ∈ placed start cut → line = start + source.newlines)
    (fun mem => by simp [placed] at mem) ?_ source
  intro first taken rest longest ih start mem
  rw [placed, longest] at mem
  rw [← List.cons_append, Text.newlines_append]
  rcases List.mem_cons.mp mem with same | mem
  · cases same
    have text := Piece.longest_openString isOpen
    have nothing : rest = [] := by simpa [longest] using text
    rw [nothing]
    rfl
  · rw [ih mem, Nat.add_assoc]

theorem line_of_unterminatedString {diagnostic : Diagnostic}
    (mem : diagnostic ∈ (scan source).diagnostics)
    (unterminated : diagnostic.fault = .unterminatedString) :
    diagnostic.line = (1 + source.newlines : Nat) := by
  rcases mem_scan_diagnostics.mp mem with ⟨piece, line, placedMem, gives⟩
  rcases Option.map_eq_some_iff.mp gives with ⟨fault, isFault, rfl⟩
  have isOpen : piece.sort = .openString := by
    rcases piece with ⟨sort, text⟩
    simp only at unterminated
    cases sort <;> simp_all [Piece.fault?]
  rw [line_of_openString placedMem isOpen]

end Unclosed

/-- Two parts of a source with a line end between them can be scanned apart exactly if the first has
no string without its closing quote: the tokens of the first, less the end of input, are followed by
those of the second, and so are the diagnostics, all of the second part on lines further down. -/
theorem scan_append_newline_iff (source more : Text) :
    (∀ diagnostic ∈ (scan source).diagnostics, diagnostic.fault ≠ .unterminatedString) ↔
      scan (source ++ Byte.newline :: more) =
        { tokens := (scan source).tokens.dropLast ++
            (scan more).tokens.map (Token.later (1 + source.newlines))
          diagnostics := (scan source).diagnostics ++
            (scan more).diagnostics.map (Diagnostic.later (1 + source.newlines)) } := by
  constructor
  · intro closed
    rw [← scan_tokens_append_newline closed, ← scan_diagnostics_append_newline closed]
  · intro apart diagnostic mem unterminated
    -- The string would be reported on the last line of the first part and on that of the whole.
    have memWhole : diagnostic ∈ (scan (source ++ Byte.newline :: more)).diagnostics := by
      rw [apart]
      exact List.mem_append_left _ mem
    have lines := (line_of_unterminatedString mem unterminated).symm.trans
      (line_of_unterminatedString memWhole unterminated)
    rw [Text.newlines_append, Text.newlines, Text.newlines, List.count_cons_self] at lines
    omega

end LoxLang
