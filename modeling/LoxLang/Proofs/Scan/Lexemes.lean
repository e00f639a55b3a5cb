import LoxLang.Proofs.Scan.Loop
import LoxLang.Proofs.Tree.Relocation

/-!
# Lexemes

A token is *valid* if its lexeme is one of those of its kind and its payload is the one that the
lexeme means. Valid tokens, written one after the other with a space between neighbours, are scanned
as these tokens again. The space is what ends a lexeme: `Boundary` says that a space or the end
follows, and no lexeme can be continued across either.
-/

namespace LoxLang

open Scanner (isBlank startsWord continuesWord single? double?)

namespace Token

/-- The symbols with their kinds. -/
def Kind.symbols : List (Text × Kind) :=
  [("(", leftParen), (")", rightParen), ("\x7b", leftBrace), ("\x7d", rightBrace), (",", comma),
   (".", dot), ("-", minus), ("+", plus), (";", semicolon), ("/", slash), ("*", star), ("!", bang),
   ("!=", bangEqual), ("=", equal), ("==", equalEqual), (">", greater), (">=", greaterEqual),
   ("<", less), ("<=", lessEqual)]

/-- A word: a letter or underscore, and then letters, underscores and digits. -/
def IsWord (text : Text) : Prop :=
  ∃ first rest, text = first :: rest ∧ startsWord first = true ∧
    ∀ byte ∈ rest, continuesWord byte = true

/-- At least one digit, and nothing but digits. -/
def IsDigits (text : Text) : Prop := text ≠ [] ∧ ∀ byte ∈ text, Byte.isDigit byte = true

/-- A numeral: digits, or digits on both sides of a dot. -/
def IsNumeral (text : Text) : Prop :=
  IsDigits text ∨ ∃ whole part, IsDigits whole ∧ IsDigits part ∧ text = whole ++ Byte.dot :: part

/-- The lexeme is one of those of the kind, and the payload is what it means. -/
def Valid (token : Token) : Prop :=
  match token.kind with
  | .identifier =>
    IsWord token.lexeme ∧ token.lexeme ∉ Kind.keywords.map Prod.fst ∧ token.literal = .nil
  | .number => IsNumeral token.lexeme ∧ token.literal = .number (.ofNumeral token.lexeme)
  | .string =>
    ∃ body : Text, Byte.quote ∉ body ∧ token.lexeme = Byte.quote :: (body ++ [Byte.quote]) ∧
      token.literal = .string body
  | kind => (token.lexeme, kind) ∈ Kind.symbols ++ Kind.keywords ∧ token.literal = .nil

end Token

namespace Piece

/-- A space or the end. -/
def Boundary (rest : Text) : Prop := rest = [] ∨ ∃ others, rest = Byte.space :: others

/-- The text is cut off as a piece of the class wherever a boundary follows. -/
def Cut (sort : Piece.Sort) (text : Text) : Prop :=
  ∃ first taken, text = first :: taken ∧
    ∀ rest, Boundary rest → longest first (taken ++ rest) = ⟨sort, text⟩

variable {text rest : Text} {byte : UInt8}

theorem takeWhile_append_boundary {inside : UInt8 → Bool} (all : ∀ byte ∈ text, inside byte = true)
    (stops : inside Byte.space = false) (boundary : Boundary rest) :
    (text ++ rest).takeWhile inside = text := by
  rw [List.takeWhile_append_of_pos all]
  rcases boundary with rfl | ⟨others, rfl⟩
  · simp
  · simp [stops]

theorem dropWhile_append_boundary {inside : UInt8 → Bool} (all : ∀ byte ∈ text, inside byte = true)
    (stops : inside Byte.space = false) (boundary : Boundary rest) :
    (text ++ rest).dropWhile inside = rest := by
  rw [List.dropWhile_append_of_pos all]
  rcases boundary with rfl | ⟨others, rfl⟩
  · simp
  · simp [stops]

theorem apart_of_startsWord (starts : startsWord byte = true) :
    isBlank byte = false ∧ byte ≠ Byte.quote ∧ Byte.isDigit byte = false := by
  simp only [startsWord, Byte.isLetter, Byte.underscore, isBlank, Byte.space, Byte.tab,
    Byte.carriageReturn, Byte.newline, Byte.quote, Byte.isDigit] at *
  grind

theorem apart_of_isDigit (digit : Byte.isDigit byte = true) :
    isBlank byte = false ∧ byte ≠ Byte.quote := by
  simp only [isBlank, Byte.space, Byte.tab, Byte.carriageReturn, Byte.newline, Byte.quote,
    Byte.isDigit] at *
  grind

theorem cut_of_isWord (word : Token.IsWord text) : Cut .word text := by
  rcases word with ⟨first, taken, rfl, starts, continues⟩
  refine ⟨first, taken, rfl, fun rest boundary => ?_⟩
  rcases apart_of_startsWord starts with ⟨notBlank, notQuote, notDigit⟩
  simp [longest, notBlank, notQuote, notDigit, starts,
    takeWhile_append_boundary continues rfl boundary]

theorem fraction_of_boundary (boundary : Boundary rest) : fraction rest = [] := by
  rcases boundary with rfl | ⟨_ | ⟨second, others⟩, rfl⟩
  · rfl
  · rfl
  · simp [fraction, show Byte.space ≠ Byte.dot by decide]

theorem cut_of_isNumeral (numeral : Token.IsNumeral text) : Cut .number text := by
  rcases numeral with ⟨notEmpty, digits⟩ | ⟨whole, part, ⟨notEmpty, wholeDigits⟩,
    ⟨partNotEmpty, partDigits⟩, rfl⟩
  · rcases List.exists_cons_of_ne_nil notEmpty with ⟨first, taken, rfl⟩
    rw [List.forall_mem_cons] at digits
    refine ⟨first, taken, rfl, fun rest boundary => ?_⟩
    rcases apart_of_isDigit digits.1 with ⟨notBlank, notQuote⟩
    simp [longest, numberAt, notBlank, notQuote, digits.1,
      takeWhile_append_boundary digits.2 rfl boundary,
      dropWhile_append_boundary digits.2 rfl boundary, fraction_of_boundary boundary]
  · rcases List.exists_cons_of_ne_nil notEmpty with ⟨first, taken, rfl⟩
    rcases List.exists_cons_of_ne_nil partNotEmpty with ⟨second, others, rfl⟩
    rw [List.forall_mem_cons] at wholeDigits partDigits
    refine ⟨first, taken ++ Byte.dot :: second :: others, rfl, fun rest boundary => ?_⟩
    rcases apart_of_isDigit wholeDigits.1 with ⟨notBlank, notQuote⟩
    simp [longest, numberAt, notBlank, notQuote, wholeDigits.1, fraction, partDigits.1,
      List.takeWhile_append_of_pos wholeDigits.2, List.dropWhile_append_of_pos wholeDigits.2,
      show Byte.isDigit Byte.dot = false by decide,
      takeWhile_append_boundary partDigits.2 rfl boundary]

theorem cut_of_quoted (quoteless : Byte.quote ∉ text) :
    Cut .string (Byte.quote :: (text ++ [Byte.quote])) := by
  refine ⟨Byte.quote, text ++ [Byte.quote], rfl, fun rest _ => ?_⟩
  have inside : ∀ byte ∈ text, decide (byte ≠ Byte.quote) = true := by
    intro byte mem
    simpa using fun same : byte = Byte.quote => quoteless (same ▸ mem)
  have body : (text ++ Byte.quote :: rest).takeWhile (· ≠ Byte.quote) = text := by
    rw [List.takeWhile_append_of_pos inside]
    simp
  have isString : longest Byte.quote (text ++ [Byte.quote] ++ rest) =
      stringAt Byte.quote (text ++ Byte.quote :: rest) := by
    rw [List.append_assoc]
    rfl
  have shorter : text.length < (text ++ Byte.quote :: rest).length := by simp
  simp only [isString, stringAt, body, shorter, if_true]

theorem cut_of_symbol {kind : Token.Kind} (mem : (text, kind) ∈ Token.Kind.symbols) :
    Cut (.symbol kind) text := by
  simp only [Token.Kind.symbols, List.mem_cons, Prod.mk.injEq, List.not_mem_nil, or_false] at mem
  rcases mem with ⟨rfl, rfl⟩ | ⟨rfl, rfl⟩ | ⟨rfl, rfl⟩ | ⟨rfl, rfl⟩ | ⟨rfl, rfl⟩ | ⟨rfl, rfl⟩ |
    ⟨rfl, rfl⟩ | ⟨rfl, rfl⟩ | ⟨rfl, rfl⟩ | ⟨rfl, rfl⟩ | ⟨rfl, rfl⟩ | ⟨rfl, rfl⟩ | ⟨rfl, rfl⟩ |
    ⟨rfl, rfl⟩ | ⟨rfl, rfl⟩ | ⟨rfl, rfl⟩ | ⟨rfl, rfl⟩ | ⟨rfl, rfl⟩ | ⟨rfl, rfl⟩ <;>
  exact ⟨_, _, rfl, fun rest boundary => by rcases boundary with rfl | ⟨others, rfl⟩ <;> rfl⟩

theorem Cut.pieces_append {sort : Piece.Sort} (cut : Cut sort text) (boundary : Boundary rest) :
    pieces (text ++ rest) = ⟨sort, text⟩ :: pieces rest := by
  rcases cut with ⟨first, taken, rfl, cut⟩
  have longest := cut rest boundary
  rw [List.cons_append, LoxLang.pieces_append (congrArg Piece.text longest), longest]

end Piece

namespace Token

theorem ofWord_of_mem {word : Text} {kind : Kind} (mem : (word, kind) ∈ Kind.keywords) :
    IsWord word ∧ Kind.ofWord word = kind := by
  have table : ∀ entry ∈ Kind.keywords, (entry.1.head?.any startsWord = true ∧
      entry.1.all continuesWord = true) ∧ Kind.ofWord entry.1 = entry.2 := by
    decide
  rcases table _ mem with ⟨⟨starts, continues⟩, isKind⟩
  refine ⟨?_, isKind⟩
  cases word with
  | nil => simp at starts
  | cons first rest =>
      refine ⟨first, rest, rfl, by simpa using starts, ?_⟩
      simp only [List.all_cons, Bool.and_eq_true, List.all_eq_true] at continues
      exact continues.2

theorem ofWord_of_not_mem {word : Text} (notMem : word ∉ Kind.keywords.map Prod.fst) :
    Kind.ofWord word = .identifier := by
  have missing : Kind.keywords.lookup word = none := by
    rw [List.lookup_eq_none_iff]
    intro entry mem
    simpa using fun same : word = entry.1 => notMem (same ▸ List.mem_map_of_mem mem)
  rw [Kind.ofWord, missing]
  rfl

/-- A valid token is the one that its lexeme is read as. -/
theorem Valid.exists_cut {token : Token} (valid : token.Valid) :
    ∃ sort, Piece.Cut sort token.lexeme ∧
      ∀ line : Nat, Piece.token? ⟨sort, token.lexeme⟩ line = some { token with line := line } := by
  rcases token with ⟨kind, lexeme, payload, place⟩
  unfold Valid at valid
  simp only at valid
  split at valid
  · rcases valid with ⟨word, notKeyword, rfl⟩
    exact ⟨.word, Piece.cut_of_isWord word, fun line => by
      simp [Piece.token?, ofWord_of_not_mem notKeyword]⟩
  · rcases valid with ⟨numeral, rfl⟩
    exact ⟨.number, Piece.cut_of_isNumeral numeral, fun line => rfl⟩
  · rcases valid with ⟨body, quoteless, rfl, rfl⟩
    exact ⟨.string, Piece.cut_of_quoted quoteless, fun line => by simp [Piece.token?, Piece.body]⟩
  · rcases valid with ⟨mem, rfl⟩
    rcases List.mem_append.mp mem with symbol | keyword
    · exact ⟨.symbol kind, Piece.cut_of_symbol symbol, fun line => rfl⟩
    · rcases ofWord_of_mem keyword with ⟨word, isKind⟩
      exact ⟨.word, Piece.cut_of_isWord word, fun line => by simp [Piece.token?, isKind]⟩

end Token

namespace Piece

theorem token?_unplaced (piece : Piece) (line : Nat) :
    (piece.token? line).map Token.unplaced = piece.token? 0 := by
  unfold token?
  split <;> rfl

theorem fault?_of_token? {piece : Piece} {line : Nat} {token : Token}
    (isToken : piece.token? line = some token) : piece.fault? = none := by
  unfold token? at isToken
  unfold fault?
  split at isToken <;> simp_all

/-- The tokens of pieces, off their lines. -/
def tokens (pieces : List Piece) : List Token := pieces.filterMap (·.token? 0)

/-- None of the pieces is a fault. -/
def Faultless (pieces : List Piece) : Prop := ∀ piece ∈ pieces, piece.fault? = none

theorem tokens_eq_of_placed (start : Nat) (pieces : List Piece) :
    ((placed start pieces).filterMap fun (piece, line) => piece.token? line).map Token.unplaced =
      tokens pieces := by
  induction pieces generalizing start with
  | nil => rfl
  | cons piece pieces ih =>
      have first := piece.token?_unplaced (start + piece.text.newlines)
      rw [tokens] at ih ⊢
      rw [placed, List.filterMap_cons, List.filterMap_cons, ← first]
      dsimp only
      cases piece.token? (start + piece.text.newlines) with
      | none => exact ih _
      | some token => exact congrArg (token.unplaced :: ·) (ih _)

end Piece

theorem scan_tokens_unplaced (source : Text) :
    (scan source).tokens.map Token.unplaced = Piece.tokens (pieces source) ++ [.endOfInput 0] := by
  simp only [scan_eq, List.map_append, Piece.tokens_eq_of_placed]
  rfl

theorem scan_diagnostics_of_faultless {source : Text}
    (faultless : Piece.Faultless (pieces source)) :
    (scan source).diagnostics = [] := by
  simp only [scan_eq, List.filterMap_eq_nil_iff]
  rintro ⟨piece, line⟩ mem
  simp [Piece.diagnostic?, faultless piece (piece_mem_of_placed mem)]

/-- What is scanned off the lexemes of valid tokens with spaces between them, and off what follows
them after a boundary. -/
theorem pieces_join_append {tokens : List Token} {rest : Text}
    (valid : ∀ token ∈ tokens, token.Valid) (boundary : Piece.Boundary rest) :
    Piece.tokens (pieces (Text.join " " (tokens.map Token.lexeme) ++ rest)) =
        tokens.map Token.unplaced ++ Piece.tokens (pieces rest) ∧
      (Piece.Faultless (pieces rest) →
        Piece.Faultless (pieces (Text.join " " (tokens.map Token.lexeme) ++ rest))) := by
  induction tokens with
  | nil => exact ⟨rfl, id⟩
  | cons token tokens ih =>
      rw [List.forall_mem_cons] at valid
      rcases valid.1.exists_cut with ⟨sort, cut, isToken⟩
      -- The lexeme is cut off first, whether or not more tokens follow.
      have first : ∀ rest : Text, Piece.Boundary rest →
          Piece.tokens (pieces (token.lexeme ++ rest)) =
            token.unplaced :: Piece.tokens (pieces rest) ∧
          (Piece.Faultless (pieces rest) → Piece.Faultless (pieces (token.lexeme ++ rest))) := by
        intro rest boundary
        rw [cut.pieces_append boundary]
        constructor
        · rw [Piece.tokens, List.filterMap_cons, isToken 0]
          rfl
        · intro faultless
          exact List.forall_mem_cons.mpr ⟨Piece.fault?_of_token? (isToken 0), faultless⟩
      cases tokens with
      | nil => exact first rest boundary
      | cons second others =>
          rcases ih valid.2 with ⟨same, faultless⟩
          -- The space in between is a piece of its own and no token.
          have spaced : ∀ rest : Text,
              pieces (Byte.space :: rest) = ⟨.blank, [Byte.space]⟩ :: pieces rest :=
            fun rest => rfl
          have both := first
            (Byte.space :: (Text.join " " ((second :: others).map Token.lexeme) ++ rest))
            (Or.inr ⟨_, rfl⟩)
          rw [spaced] at both
          have whole : Text.join " " ((token :: second :: others).map Token.lexeme) ++ rest =
              token.lexeme ++ Byte.space ::
                (Text.join " " ((second :: others).map Token.lexeme) ++ rest) := by
            simp only [List.map_cons, Text.join, List.append_assoc]
            rfl
          rw [whole]
          refine ⟨both.1.trans (congrArg (token.unplaced :: ·) same), fun following => ?_⟩
          exact both.2 (List.forall_mem_cons.mpr ⟨rfl, faultless following⟩)

/-- Valid tokens with spaces between them are scanned as themselves, whether or not a space follows
the last of them. -/
theorem scan_join_append {tokens : List Token} {rest : Text}
    (valid : ∀ token ∈ tokens, token.Valid) (blank : rest = [] ∨ rest = [Byte.space]) :
    (scan (Text.join " " (tokens.map Token.lexeme) ++ rest)).diagnostics = [] ∧
      (scan (Text.join " " (tokens.map Token.lexeme) ++ rest)).tokens.map Token.unplaced =
        tokens.map Token.unplaced ++ [.endOfInput 0] := by
  have boundary : Piece.Boundary rest := blank.imp_right fun isSpace => ⟨[], isSpace⟩
  have nothing : Piece.tokens (pieces rest) = [] ∧ Piece.Faultless (pieces rest) := by
    rcases blank with rfl | rfl
    · exact ⟨rfl, List.forall_mem_nil _⟩
    · exact ⟨rfl, List.forall_mem_singleton.mpr rfl⟩
  rcases pieces_join_append valid boundary with ⟨same, faultless⟩
  rw [nothing.1, List.append_nil] at same
  exact ⟨scan_diagnostics_of_faultless (faultless nothing.2), by rw [scan_tokens_unplaced, same]⟩

theorem scan_join {tokens : List Token} (valid : ∀ token ∈ tokens, token.Valid) :
    (scan (Text.join " " (tokens.map Token.lexeme))).diagnostics = [] ∧
      (scan (Text.join " " (tokens.map Token.lexeme))).tokens.map Token.unplaced =
        tokens.map Token.unplaced ++ [.endOfInput 0] := by
  have alone := scan_join_append valid (Or.inl rfl)
  rwa [List.append_nil] at alone

theorem Piece.symbolAt_mem {first : UInt8} {rest : Text} {kind : Token.Kind}
    (isSymbol : (symbolAt first rest).sort = .symbol kind) :
    ((symbolAt first rest).text, kind) ∈ Token.Kind.symbols := by
  revert isSymbol
  unfold symbolAt
  split
  · simp
  · split
    · rename_i found _
      rintro ⟨⟩
      unfold double? at found
      split at found <;> cases found <;> decide
    · split
      · rename_i found
        rintro ⟨⟩
        unfold single? at found
        split at found <;> cases found <;> decide
      · simp

theorem Piece.longest_symbol_mem {first : UInt8} {rest : Text} {kind : Token.Kind}
    (isSymbol : (longest first rest).sort = .symbol kind) :
    ((longest first rest).text, kind) ∈ Token.Kind.symbols := by
  revert isSymbol
  unfold longest
  split
  · simp
  · split
    · simp only [stringAt]
      split <;> simp
    · split
      · simp [numberAt]
      · split
        · simp
        · exact symbolAt_mem

theorem Token.Kind.ofWord_cases (word : Text) :
    ofWord word = .identifier ∨ (word, ofWord word) ∈ keywords := by
  unfold ofWord
  cases found : keywords.lookup word with
  | none => exact Or.inl rfl
  | some kind =>
      rcases List.lookup_eq_some_iff.mp found with ⟨before, after, entries, _⟩
      exact Or.inr (by simp [entries])

theorem Piece.kind_ne_eof {first : UInt8} {rest : Text} {line : Nat} {token : Token}
    (isToken : (longest first rest).token? line = some token) : token.kind ≠ .eof := by
  have plain : ∀ entry ∈ Token.Kind.symbols ++ Token.Kind.keywords, entry.2 ≠ .eof := by decide
  unfold token? at isToken
  split at isToken <;> cases isToken
  · rename_i kind isSymbol
    exact plain _ (List.mem_append_left _ (longest_symbol_mem isSymbol))
  · simp
  · simp
  · rcases Token.Kind.ofWord_cases (longest first rest).text with isName | keyword
    · simp [isName]
    · exact plain _ (List.mem_append_right _ keyword)

/-- The only token of kind `eof` is the last. -/
theorem scan_tokens_takeWhile (source : Text) :
    (scan source).tokens.takeWhile (·.kind ≠ .eof) = (scan source).tokens.dropLast := by
  have before : ∀ token ∈ (placed 1 (pieces source)).filterMap
      (fun (piece, line) => piece.token? line), decide (token.kind ≠ .eof) = true := by
    intro token mem
    rcases List.mem_filterMap.mp mem with ⟨⟨piece, line⟩, placedMem, isToken⟩
    rcases exists_longest_of_mem_pieces source piece (piece_mem_of_placed placedMem) with
      ⟨first, rest, rfl⟩
    simpa using Piece.kind_ne_eof isToken
  simp only [scan_eq]
  rw [List.takeWhile_append_of_pos before, List.dropLast_concat]
  simp [Token.endOfInput]

end LoxLang
