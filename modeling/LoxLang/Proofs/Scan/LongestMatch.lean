import LoxLang.Proofs.Scan.Characters
import LoxLang.Proofs.Scan.Lexemes
import LoxLang.Proofs.Scan.Lines
import Mathlib.Data.List.Induction
import Mathlib.Data.List.TakeWhile
import Mathlib.Data.Nat.Digits.Defs

/-!
# Longest match

The lexical grammar says what a text of each class looks like and, where that matters, what follows
it. Cutting a source into pieces is longest-match scanning for that grammar: at each position the
piece is longer than every other match there, of whatever class. So there is exactly one way to cut
a source into longest matches, and tokens and complaints can be read off it.
-/

namespace LoxLang

open Scanner (isBlank startsWord continuesWord single? double?)

namespace Piece

/-- The text is a character, or a byte at which no character starts. -/
def IsCharacter (text rest : Text) : Prop :=
  (∃ char : Char, text = String.utf8EncodeChar char) ∨
    ∃ byte, text = [byte] ∧ ∀ char : Char, ¬String.utf8EncodeChar char <+: text ++ rest

/-- The text is one of the class, where the given rest of the source follows it. A character is bad
for want of anything else, so that class is left to `Matches`. -/
def Sort.Fits (text rest : Text) : Piece.Sort → Prop
  | blank => ∃ byte ∈ [Byte.space, Byte.tab, Byte.carriageReturn, Byte.newline], text = [byte]
  | comment => ∃ body, text = Byte.slash :: Byte.slash :: body ∧ Byte.newline ∉ body ∧
      (rest = [] ∨ rest.head? = some Byte.newline)
  | symbol kind => (text, kind) ∈ Token.Kind.symbols
  | string => ∃ body, Byte.quote ∉ body ∧ text = Byte.quote :: (body ++ [Byte.quote])
  | number => Token.IsNumeral text
  | word => Token.IsWord text
  | openString => ∃ body, Byte.quote ∉ body ∧ text = Byte.quote :: body ∧ rest = []
  | badCharacter => False

/-- The piece is a match at the start of the source that it makes with the rest: a text of its
class, or a character where no text of any class stands. -/
def Matches (piece : Piece) (rest : Text) : Prop :=
  piece.sort.Fits piece.text rest ∨
    piece.sort = .badCharacter ∧ IsCharacter piece.text rest ∧
      ∀ (other : Piece) (others : Text), other.text ++ others = piece.text ++ rest →
        ¬other.sort.Fits other.text others

/-- The piece is a match, and no match at its position is longer. -/
def IsLongest (piece : Piece) (rest : Text) : Prop :=
  piece.Matches rest ∧
    ∀ (other : Piece) (others : Text), other.text ++ others = piece.text ++ rest →
      other.Matches others → other.text.length ≤ piece.text.length

variable {first : UInt8} {text rest source : Text} {sort : Piece.Sort} {kind : Token.Kind}

/-- The text is what is cut off, or something longer is cut off that is no bad character. -/
def Yields (sort : Piece.Sort) (text : Text) (cut : Piece) : Prop :=
  ⟨sort, text⟩ = cut ∨ text.length < cut.text.length ∧ cut.sort ≠ .badCharacter

theorem yields_append (proper : sort ≠ .badCharacter) (extra : Text) :
    Yields sort text ⟨sort, text ++ extra⟩ := by
  cases extra with
  | nil => exact Or.inl (by rw [List.append_nil])
  | cons byte extra => exact Or.inr ⟨by simp, proper⟩

section Cutting

theorem longest_of_isBlank (blank : isBlank first = true) :
    longest first rest = ⟨.blank, [first]⟩ := by
  rw [longest, if_pos blank]

theorem longest_of_isDigit (digit : Byte.isDigit first = true) :
    longest first rest = numberAt first rest := by
  rcases apart_of_isDigit digit with ⟨notBlank, notQuote⟩
  simp [longest, notBlank, notQuote, digit]

theorem longest_of_startsWord (starts : startsWord first = true) :
    longest first rest = ⟨.word, first :: rest.takeWhile continuesWord⟩ := by
  rcases apart_of_startsWord starts with ⟨notBlank, notQuote, notDigit⟩
  simp [longest, notBlank, notQuote, notDigit, starts]

theorem longest_quote (rest : Text) : longest Byte.quote rest = stringAt Byte.quote rest := rfl

theorem longest_of_single? (isSymbol : single? first = some kind) :
    longest first rest = symbolAt first rest := by
  have apart : isBlank first = false ∧ first ≠ Byte.quote ∧ Byte.isDigit first = false ∧
      startsWord first = false := by
    unfold single? at isSymbol
    split at isSymbol <;> cases isSymbol <;> decide
  simp [longest, apart]

end Cutting

theorem mem_blanks_iff (byte : UInt8) :
    byte ∈ [Byte.space, Byte.tab, Byte.carriageReturn, Byte.newline] ↔ isBlank byte = true := by
  simp [isBlank, or_assoc]

theorem mem_symbols_iff : (text, kind) ∈ Token.Kind.symbols ↔
    (∃ byte, text = [byte] ∧ single? byte = some kind) ∨
      ∃ byte, text = [byte, 0x3D] ∧ double? byte = some kind := by
  constructor
  · intro mem
    have table : ∀ entry ∈ Token.Kind.symbols,
        (entry.1.drop 1 = [] ∧ entry.1.head?.bind single? = some entry.2) ∨
          (entry.1.drop 1 = [0x3D] ∧ entry.1.head?.bind double? = some entry.2) := by decide
    cases text with
    | nil => simpa using table _ mem
    | cons byte others => simpa using table _ mem
  · rintro (⟨byte, rfl, isSymbol⟩ | ⟨byte, rfl, isSymbol⟩)
    · unfold single? at isSymbol
      split at isSymbol <;> cases isSymbol <;> decide
    · unfold double? at isSymbol
      split at isSymbol <;> cases isSymbol <;> decide

theorem ne_of_not_mem {stop : UInt8} (absent : stop ∉ text) :
    ∀ byte ∈ text, decide (byte ≠ stop) = true := by
  intro byte mem
  simpa using fun same : byte = stop => absent (same ▸ mem)

/-- Digits before a dot end at the dot. -/
theorem digits_before_dot (digits : ∀ byte ∈ text, Byte.isDigit byte = true) (rest : Text) :
    (text ++ Byte.dot :: rest).takeWhile Byte.isDigit = text ∧
      (text ++ Byte.dot :: rest).dropWhile Byte.isDigit = Byte.dot :: rest := by
  have notDigit : Byte.isDigit Byte.dot = false := by decide
  rw [List.takeWhile_append_of_pos digits, List.dropWhile_append_of_pos digits]
  simp [notDigit]

section Fits

variable {more : Text}

theorem blank_yields (fits : Sort.Fits text rest .blank) (source : text ++ rest = first :: more) :
    Yields .blank text (longest first more) := by
  rcases fits with ⟨byte, mem, rfl⟩
  rcases List.cons_eq_cons.mp source with ⟨rfl, _⟩
  rw [longest_of_isBlank ((mem_blanks_iff _).mp mem)]
  exact Or.inl rfl

theorem comment_yields (fits : Sort.Fits text rest .comment)
    (source : text ++ rest = first :: more) : Yields .comment text (longest first more) := by
  rcases fits with ⟨body, rfl, inside, ends⟩
  simp only [List.cons_append, List.cons.injEq] at source
  rcases source with ⟨rfl, rfl⟩
  have taken : (Byte.slash :: (body ++ rest)).takeWhile (· ≠ Byte.newline) =
      Byte.slash :: body := by
    have started : Byte.newline ∉ Byte.slash :: body :=
      List.not_mem_cons_of_ne_of_not_mem (by decide) inside
    rw [← List.cons_append, List.takeWhile_append_of_pos (ne_of_not_mem started)]
    rcases rest with _ | ⟨byte, others⟩
    · simp
    · simp_all
  have isComment : longest Byte.slash (Byte.slash :: (body ++ rest)) = ⟨.comment,
      Byte.slash :: (Byte.slash :: (body ++ rest)).takeWhile (· ≠ Byte.newline)⟩ := rfl
  rw [isComment, taken]
  exact Or.inl rfl

theorem symbol_yields (fits : Sort.Fits text rest (.symbol kind))
    (source : text ++ rest = first :: more) : Yields (.symbol kind) text (longest first more) := by
  rcases mem_symbols_iff.mp fits with ⟨byte, rfl, isSymbol⟩ | ⟨byte, rfl, isSymbol⟩
  · rcases List.cons_eq_cons.mp source with ⟨rfl, _⟩
    rw [longest_of_single? isSymbol]
    unfold symbolAt
    split
    · rename_i comment
      simp only [Bool.and_eq_true, decide_eq_true_eq, List.head?_eq_some_iff] at comment
      rcases comment with ⟨rfl, others, rfl⟩
      exact Or.inr ⟨by simp [show Byte.slash ≠ Byte.newline by decide], by simp⟩
    · split
      · exact Or.inr ⟨by simp, by simp⟩
      · rw [isSymbol]
        exact Or.inl rfl
  · simp only [List.cons_append, List.nil_append, List.cons.injEq] at source
    rcases source with ⟨rfl, rfl⟩
    apply Or.inl
    unfold double? at isSymbol
    split at isSymbol <;> cases isSymbol <;> rfl

theorem string_yields (fits : Sort.Fits text rest .string) (source : text ++ rest = first :: more) :
    Yields .string text (longest first more) := by
  rcases fits with ⟨body, quoteless, rfl⟩
  simp only [List.cons_append, List.cons.injEq] at source
  rcases source with ⟨rfl, rfl⟩
  rcases cut_of_quoted quoteless with ⟨_, _, ⟨⟩, cut⟩
  have alone := cut [] (Or.inl rfl)
  rw [List.append_nil, longest_quote] at alone
  rw [longest_quote, stringAt_append (by rw [alone]; simp), alone]
  exact Or.inl rfl

theorem openString_yields (fits : Sort.Fits text rest .openString)
    (source : text ++ rest = first :: more) : Yields .openString text (longest first more) := by
  rcases fits with ⟨body, quoteless, rfl, rfl⟩
  simp only [List.append_nil, List.cons.injEq] at source
  rcases source with ⟨rfl, rfl⟩
  have whole : body.takeWhile (· ≠ Byte.quote) = body :=
    List.takeWhile_eq_self_iff.mpr (ne_of_not_mem quoteless)
  rw [longest_quote, stringAt, whole, if_neg (Nat.lt_irrefl _)]
  exact Or.inl rfl

theorem word_yields (fits : Sort.Fits text rest .word) (source : text ++ rest = first :: more) :
    Yields .word text (longest first more) := by
  rcases fits with ⟨byte, taken, rfl, starts, continues⟩
  simp only [List.cons_append, List.cons.injEq] at source
  rcases source with ⟨rfl, rfl⟩
  rw [longest_of_startsWord starts, List.takeWhile_append_of_pos continues, ← List.cons_append]
  exact yields_append (by simp) _

theorem number_yields (fits : Sort.Fits text rest .number) (source : text ++ rest = first :: more) :
    Yields .number text (longest first more) := by
  rcases fits with ⟨notEmpty, digits⟩ | ⟨whole, part, ⟨notEmpty, wholeDigits⟩,
    ⟨partNotEmpty, partDigits⟩, rfl⟩
  · rcases List.exists_cons_of_ne_nil notEmpty with ⟨byte, taken, rfl⟩
    rw [List.forall_mem_cons] at digits
    simp only [List.cons_append, List.cons.injEq] at source
    rcases source with ⟨rfl, rfl⟩
    rw [longest_of_isDigit digits.1, numberAt, List.takeWhile_append_of_pos digits.2,
      List.append_assoc, ← List.cons_append]
    exact yields_append (by simp) _
  · rcases List.exists_cons_of_ne_nil notEmpty with ⟨byte, taken, rfl⟩
    rcases List.exists_cons_of_ne_nil partNotEmpty with ⟨digit, others, rfl⟩
    rw [List.forall_mem_cons] at wholeDigits partDigits
    simp only [List.cons_append, List.append_assoc, List.cons.injEq] at source
    rcases source with ⟨rfl, rfl⟩
    rcases digits_before_dot wholeDigits.2 (digit :: (others ++ rest)) with
      ⟨wholeTaken, wholeDropped⟩
    have partTaken : fraction (Byte.dot :: digit :: (others ++ rest)) =
        Byte.dot :: digit :: (others ++ rest.takeWhile Byte.isDigit) := by
      simp [fraction, partDigits.1, List.takeWhile_append_of_pos partDigits.2]
    rw [longest_of_isDigit wholeDigits.1, numberAt, wholeTaken, wholeDropped, partTaken]
    have extended := @yields_append (byte :: (taken ++ Byte.dot :: digit :: others)) .number
      (by simp) (rest.takeWhile Byte.isDigit)
    simpa using extended

theorem Sort.Fits.yields (fits : sort.Fits text rest) (source : text ++ rest = first :: more) :
    Yields sort text (longest first more) := by
  cases sort with
  | blank => exact blank_yields fits source
  | comment => exact comment_yields fits source
  | symbol kind => exact symbol_yields fits source
  | string => exact string_yields fits source
  | number => exact number_yields fits source
  | word => exact word_yields fits source
  | openString => exact openString_yields fits source
  | badCharacter => exact fits.elim

theorem Sort.Fits.ne_nil (fits : sort.Fits text rest) : text ≠ [] := by
  rintro rfl
  cases sort with
  | symbol kind => simpa using mem_symbols_iff.mp fits
  | number => rcases fits with ⟨notEmpty, _⟩ | ⟨whole, part, _, _, ends⟩ <;> simp_all
  | _ => simp [Sort.Fits, Token.IsWord] at fits

end Fits

section Cut

variable {more : Text}

theorem not_mem_takeWhile {stop : UInt8} (text : Text) : stop ∉ text.takeWhile (· ≠ stop) := by
  intro mem
  simpa using List.mem_takeWhile_imp mem

theorem stringAt_fits (source : (stringAt Byte.quote more).text ++ rest = Byte.quote :: more) :
    (stringAt Byte.quote more).sort.Fits (stringAt Byte.quote more).text rest := by
  by_cases shorter : (more.takeWhile (· ≠ Byte.quote)).length < more.length
  · rw [stringAt, if_pos shorter]
    exact ⟨_, not_mem_takeWhile more, rfl⟩
  · rw [stringAt, if_neg shorter] at source ⊢
    have lengths := congrArg List.length source
    simp only [List.length_cons, List.length_append] at lengths
    exact ⟨_, not_mem_takeWhile more, rfl, List.eq_nil_of_length_eq_zero (by omega)⟩

theorem fraction_cases (text : Text) :
    fraction text = [] ∨ ∃ part, Token.IsDigits part ∧ fraction text = Byte.dot :: part := by
  unfold fraction
  split
  · split
    · rename_i dot digit others isFraction
      simp only [Bool.and_eq_true, decide_eq_true_eq] at isFraction
      rcases isFraction with ⟨rfl, isDigit⟩
      refine Or.inr ⟨_, ⟨List.cons_ne_nil _ _, ?_⟩, rfl⟩
      exact List.forall_mem_cons.mpr ⟨isDigit, fun byte mem => List.mem_takeWhile_imp mem⟩
    · exact Or.inl rfl
  · exact Or.inl rfl

theorem numberAt_isNumeral (digit : Byte.isDigit first = true) (more : Text) :
    Token.IsNumeral (numberAt first more).text := by
  have whole : Token.IsDigits (first :: more.takeWhile Byte.isDigit) :=
    ⟨List.cons_ne_nil _ _,
      List.forall_mem_cons.mpr ⟨digit, fun byte mem => List.mem_takeWhile_imp mem⟩⟩
  rcases fraction_cases (more.dropWhile Byte.isDigit) with none | ⟨part, digits, some⟩
  · exact Or.inl (by simpa only [numberAt, none, List.append_nil] using whole)
  · exact Or.inr ⟨_, part, whole, digits, by simp only [numberAt, some, List.cons_append]⟩

theorem symbolAt_fits (source : (symbolAt first more).text ++ rest = first :: more)
    (proper : (symbolAt first more).sort ≠ .badCharacter) :
    (symbolAt first more).sort.Fits (symbolAt first more).text rest := by
  revert source proper
  unfold symbolAt
  split
  · rename_i isComment
    intro source _
    simp only [Bool.and_eq_true, decide_eq_true_eq, List.head?_eq_some_iff] at isComment
    rcases isComment with ⟨rfl, others, rfl⟩
    have starts : (Byte.slash :: others).takeWhile (· ≠ Byte.newline) =
        Byte.slash :: others.takeWhile (· ≠ Byte.newline) := rfl
    rw [starts] at source ⊢
    have remains : rest = others.dropWhile (· ≠ Byte.newline) := by
      simp only [List.cons_append, List.cons.injEq, true_and] at source
      exact List.append_cancel_left (source.trans List.takeWhile_append_dropWhile.symm)
    refine ⟨_, rfl, not_mem_takeWhile others, ?_⟩
    have stopped := List.head?_dropWhile_not (· ≠ Byte.newline) others
    rw [← remains] at stopped
    cases rest with
    | nil => exact Or.inl rfl
    | cons byte rest => exact Or.inr (by simpa using stopped)
  · split
    · rename_i found _
      intro _ _
      exact mem_symbols_iff.mpr (Or.inr ⟨first, rfl, found⟩)
    · split
      · rename_i found
        intro _ _
        exact mem_symbols_iff.mpr (Or.inl ⟨first, rfl, found⟩)
      · intro _ proper
        exact (proper rfl).elim

/-- What is cut off is of its class, unless it is a bad character. -/
theorem longest_fits (source : (longest first more).text ++ rest = first :: more)
    (proper : (longest first more).sort ≠ .badCharacter) :
    (longest first more).sort.Fits (longest first more).text rest := by
  revert source proper
  unfold longest
  split
  · rename_i blank
    intro _ _
    exact ⟨first, (mem_blanks_iff first).mpr blank, rfl⟩
  · split
    · rename_i isQuote
      intro source _
      subst isQuote
      exact stringAt_fits source
    · split
      · rename_i digit
        intro _ _
        exact numberAt_isNumeral digit more
      · split
        · rename_i starts
          intro _ _
          exact ⟨first, _, rfl, starts, fun byte mem => List.mem_takeWhile_imp mem⟩
        · exact symbolAt_fits

theorem symbolAt_badCharacter (bad : (symbolAt first more).sort = .badCharacter) :
    symbolAt first more = ⟨.badCharacter, first :: more.take (Text.Utf8.extent first more)⟩ := by
  revert bad
  unfold symbolAt
  split
  · simp
  · split
    · simp
    · split <;> simp

theorem longest_badCharacter (bad : (longest first more).sort = .badCharacter) :
    longest first more = ⟨.badCharacter, first :: more.take (Text.Utf8.extent first more)⟩ := by
  revert bad
  unfold longest
  split
  · simp
  · split
    · simp only [stringAt]
      split <;> simp
    · split
      · simp [numberAt]
      · split
        · simp
        · exact symbolAt_badCharacter

end Cut

section Maximality

variable {more : Text} {piece : Piece}

theorem isCharacter_iff (source : text ++ rest = first :: more) :
    IsCharacter text rest ↔ text = first :: more.take (Text.Utf8.extent first more) := by
  constructor
  · rintro (⟨char, rfl⟩ | ⟨byte, rfl, none⟩)
    · exact Text.Utf8.eq_of_utf8EncodeChar_isPrefix ⟨rest, source⟩
    · rcases List.cons_eq_cons.mp source with ⟨rfl, rfl⟩
      rcases Text.Utf8.extent_cases byte rest with ⟨char, encoded⟩ | ⟨single, _⟩
      · refine (none char ?_).elim
        rw [← encoded]
        exact List.cons_prefix_cons.mpr ⟨rfl, List.take_prefix _ _⟩
      · simp [single]
  · rintro rfl
    rcases Text.Utf8.extent_cases first more with ⟨char, encoded⟩ | ⟨single, none⟩
    · exact Or.inl ⟨char, encoded⟩
    · exact Or.inr ⟨first, by simp [single], by simpa only [source] using none⟩

theorem IsCharacter.ne_nil (character : IsCharacter text rest) : text ≠ [] := by
  rcases character with ⟨char, rfl⟩ | ⟨byte, rfl, _⟩
  · rcases Text.Utf8.decode?_utf8EncodeChar char [] with ⟨first, tail, encoded, _⟩
    simp [encoded]
  · simp

theorem Matches.ne_nil (isMatch : piece.Matches rest) : piece.text ≠ [] := by
  rcases isMatch with fits | ⟨_, character, _⟩
  · exact fits.ne_nil
  · exact character.ne_nil

theorem longest_matches (source : (longest first more).text ++ rest = first :: more) :
    (longest first more).Matches rest := by
  by_cases bad : (longest first more).sort = .badCharacter
  · refine Or.inr ⟨bad, (isCharacter_iff source).mpr (by rw [longest_badCharacter bad]), ?_⟩
    intro other others same fits
    rcases fits.yields (same.trans source) with isCut | ⟨_, proper⟩
    · rw [← isCut] at bad
      simp only at bad
      rw [bad] at fits
      exact fits
    · exact proper bad
  · exact Or.inl (longest_fits source bad)

theorem Matches.eq_or_shorter (isMatch : piece.Matches rest)
    (source : piece.text ++ rest = first :: more) :
    piece = longest first more ∨ piece.text.length < (longest first more).text.length := by
  rcases isMatch with fits | ⟨bad, character, nothing⟩
  · exact (fits.yields source).imp_right And.left
  · rcases longest_eq_cons first more with ⟨taken, cut, others, rfl⟩
    have cutSource : (longest first (taken ++ others)).text ++ others =
        first :: (taken ++ others) := by
      rw [cut, List.cons_append]
    by_cases cutBad : (longest first (taken ++ others)).sort = .badCharacter
    · rcases piece with ⟨sort, text⟩
      have isText := (isCharacter_iff source).mp character
      simp only at bad isText
      exact Or.inl (by rw [longest_badCharacter cutBad, bad, isText])
    · exact (nothing _ _ (cutSource.trans source.symm) (longest_fits cutSource cutBad)).elim

/-- The longest match is the one that is cut off, and there is no other as long. -/
theorem isLongest_iff (source : piece.text ++ rest = first :: more) :
    piece.IsLongest rest ↔ piece = longest first more := by
  rcases longest_eq_cons first more with ⟨taken, cut, others, rfl⟩
  have cutSource : (longest first (taken ++ others)).text ++ others =
      first :: (taken ++ others) := by
    rw [cut, List.cons_append]
  constructor
  · rintro ⟨isMatch, longer⟩
    rcases isMatch.eq_or_shorter source with same | shorter
    · exact same
    · have := longer _ _ (cutSource.trans source.symm) (longest_matches cutSource)
      omega
  · rintro rfl
    refine ⟨longest_matches source, fun other remaining same isMatch => ?_⟩
    rcases isMatch.eq_or_shorter (same.trans source) with rfl | shorter
    · exact Nat.le_refl _
    · exact Nat.le_of_lt shorter

end Maximality

/-- The segments are those of the source, each a longest match where the one before it ends. -/
inductive Segments : Text → List Piece → Prop
  | nil : Segments [] []
  | cons {piece : Piece} {rest : Text} {segments : List Piece} (longest : piece.IsLongest rest)
      (others : Segments rest segments) : Segments (piece.text ++ rest) (piece :: segments)

theorem segments_pieces (source : Text) : Segments source (pieces source) := by
  refine pieces_induction (motive := Segments) .nil ?_ source
  intro first taken rest cut ih
  have source : (longest first (taken ++ rest)).text ++ rest = first :: (taken ++ rest) := by
    rw [cut, List.cons_append]
  rw [← source]
  exact .cons ((isLongest_iff source).mpr rfl) ih

theorem Segments.eq_pieces {segments : List Piece} (split : Segments source segments) :
    segments = pieces source := by
  induction split with
  | nil => rfl
  | @cons piece rest segments longest others ih =>
      rcases List.exists_cons_of_ne_nil longest.1.ne_nil with ⟨first, taken, text⟩
      have source : piece.text ++ rest = first :: (taken ++ rest) := by
        rw [text, List.cons_append]
      have isCut := (isLongest_iff source).mp longest
      rw [source, pieces_append (by rw [← isCut, text]), ← isCut, ih]

/-- The classes of tokens. -/
def Sort.isToken : Piece.Sort → Bool
  | symbol _ | string | number | word => true
  | blank | comment | openString | badCharacter => false

/-- What is said of the classes that belong in no source. -/
def Sort.complaint? : Piece.Sort → Option Text
  | openString => some "Unterminated string."
  | badCharacter => some "Unexpected character."
  | blank | comment | symbol _ | string | number | word => none

/-- What items give one by one is related to the items that give something. -/
theorem forall₂_filterMap {ι α : Type} {keeps : ι → Bool} {gives : ι → Option α}
    {related : ι → α → Prop} {items : List ι}
    (given : ∀ item ∈ items, keeps item = true →
      ∃ value, gives item = some value ∧ related item value)
    (notGiven : ∀ item ∈ items, keeps item = false → gives item = none) :
    List.Forall₂ related (items.filter keeps) (items.filterMap gives) := by
  induction items with
  | nil => exact .nil
  | cons item items ih =>
      rw [List.forall_mem_cons] at given notGiven
      rw [List.filterMap_cons, List.filter_cons]
      cases kept : keeps item with
      | true =>
          rcases given.1 kept with ⟨value, isGiven, holds⟩
          simp only [isGiven, if_true]
          exact .cons holds (ih given.2 notGiven.2)
      | false =>
          simp only [notGiven.1 kept, Bool.false_eq_true, if_false]
          exact ih given.2 notGiven.2

theorem map_fst_placed (start : Nat) (pieces : List Piece) :
    (placed start pieces).map Prod.fst = pieces := by
  induction pieces generalizing start with
  | nil => rfl
  | cons piece pieces ih => rw [placed, List.map_cons, ih]

theorem forall₂_filterMap_placed {α : Type} {keeps : Piece → Bool} {gives : Piece → Nat → Option α}
    {related : Piece → α → Prop} {pieces : List Piece}
    (given : ∀ piece ∈ pieces, keeps piece = true → ∀ line,
      ∃ value, gives piece line = some value ∧ related piece value)
    (notGiven : ∀ piece ∈ pieces, keeps piece = false → ∀ line, gives piece line = none)
    (start : Nat) :
    List.Forall₂ related (pieces.filter keeps)
      ((placed start pieces).filterMap fun (piece, line) => gives piece line) := by
  have kept : pieces.filter keeps =
      ((placed start pieces).filter (keeps ·.1)).map Prod.fst := by
    nth_rewrite 1 [← map_fst_placed start pieces]
    exact List.filter_map
  rw [kept, List.forall₂_map_left_iff]
  apply forall₂_filterMap
  · intro item mem
    exact fun isKept => given item.1 (piece_mem_of_placed mem) isKept item.2
  · intro item mem
    exact fun notKept => notGiven item.1 (piece_mem_of_placed mem) notKept item.2

end Piece

namespace Token

/-- The number is what the numeral rounds to: all its digits, over a power of ten for those after
the dot. -/
def Denotes (numeral : Text) (number : Number) : Prop :=
  ∃ whole part : Text, IsDigits whole ∧ (∀ byte ∈ part, Byte.isDigit byte = true) ∧
    numeral = whole ++ (if part = [] then [] else Byte.dot :: part) ∧
    number = .ofRatio (Nat.ofDigits 10 ((whole ++ part).reverse.map Byte.digitValue))
      (10 ^ part.length)

theorem toNat_eq_ofDigits (digits : Text) :
    digits.toNat = Nat.ofDigits 10 (digits.reverse.map Byte.digitValue) := by
  induction digits using List.reverseRecOn with
  | nil => rfl
  | append_singleton digits digit ih =>
      simp only [List.reverse_append, List.reverse_singleton, List.singleton_append, List.map_cons,
        Nat.ofDigits_cons, ← ih]
      simp only [Text.toNat, List.foldl_append, List.foldl_cons, List.foldl_nil]
      exact Nat.add_comm _ _

theorem denotes_ofNumeral {numeral : Text} (isNumeral : IsNumeral numeral) :
    Denotes numeral (.ofNumeral numeral) := by
  rcases isNumeral with digits | ⟨whole, part, wholeDigits, partDigits, rfl⟩
  · have taken : numeral.takeWhile Byte.isDigit = numeral :=
      List.takeWhile_eq_self_iff.mpr digits.2
    have dropped : numeral.dropWhile Byte.isDigit = [] := List.dropWhile_eq_nil_iff.mpr digits.2
    refine ⟨numeral, [], digits, by simp, by simp, ?_⟩
    simp only [Number.ofNumeral, taken, dropped, Number.ofDecimal, toNat_eq_ofDigits]
    rfl
  · rcases Piece.digits_before_dot wholeDigits.2 part with ⟨taken, dropped⟩
    refine ⟨whole, part, wholeDigits, partDigits.2, by rw [if_neg partDigits.1], ?_⟩
    simp only [Number.ofNumeral, taken, dropped, Number.ofDecimal, toNat_eq_ofDigits]
    rfl

/-- The token is the one that the lexeme means: there is no other valid one, but for its line, and
if it is a number then the one that is written. -/
def Means (token : Token) (lexeme : Text) : Prop :=
  token.lexeme = lexeme ∧ token.Valid ∧
    (∀ other : Token, other.Valid → other.lexeme = lexeme → other.unplaced = token.unplaced) ∧
    (token.kind = .number → ∃ number, token.literal = .number number ∧ Denotes lexeme number)

theorem Valid.denotes {token : Token} (valid : token.Valid) (isNumber : token.kind = .number) :
    ∃ number, token.literal = .number number ∧ Denotes token.lexeme number := by
  simp only [Valid, isNumber] at valid
  exact ⟨_, valid.2, denotes_ofNumeral valid.1⟩

theorem Valid.means {token : Token} (valid : token.Valid) : token.Means token.lexeme := by
  refine ⟨rfl, valid, fun other otherValid same => ?_, valid.denotes⟩
  -- Either token is what the common lexeme is read as when nothing follows.
  rcases valid.exists_cut with ⟨sort, ⟨first, taken, text, cut⟩, isToken⟩
  rcases otherValid.exists_cut with ⟨otherSort, ⟨otherFirst, otherTaken, otherText, otherCut⟩,
    otherIsToken⟩
  rw [same] at otherText otherCut otherIsToken
  rcases List.cons_eq_cons.mp (text.symm.trans otherText) with ⟨rfl, rfl⟩
  have sameCut := (cut [] (Or.inl rfl)).symm.trans (otherCut [] (Or.inl rfl))
  rw [sameCut] at isToken
  have sameToken := (otherIsToken 0).symm.trans (isToken 0)
  rw [unplaced, unplaced, same]
  exact Option.some.inj sameToken

theorem valid_of_plain {kind : Kind} {lexeme : Text} {line : Int}
    (mem : (lexeme, kind) ∈ Kind.symbols ++ Kind.keywords) : Valid ⟨kind, lexeme, .nil, line⟩ := by
  have plain : ∀ entry ∈ Kind.symbols ++ Kind.keywords,
      entry.2 ≠ .identifier ∧ entry.2 ≠ .number ∧ entry.2 ≠ .string := by decide
  rcases plain _ mem with ⟨notIdentifier, notNumber, notString⟩
  unfold Valid
  split
  · contradiction
  · contradiction
  · contradiction
  · exact ⟨mem, rfl⟩

theorem valid_of_isWord {word : Text} {line : Int} (isWord : IsWord word) :
    Valid ⟨.ofWord word, word, .nil, line⟩ := by
  by_cases reserved : word ∈ Kind.keywords.map Prod.fst
  · rcases List.mem_map.mp reserved with ⟨⟨_, kind⟩, mem, rfl⟩
    rw [(ofWord_of_mem mem).2]
    exact valid_of_plain (List.mem_append_right _ mem)
  · rw [ofWord_of_not_mem reserved]
    exact ⟨isWord, reserved, rfl⟩

end Token

namespace Piece

variable {piece : Piece} {rest : Text}

theorem exists_token?_of_fits (fits : piece.sort.Fits piece.text rest)
    (isToken : piece.sort.isToken = true) (line : Nat) :
    ∃ token, piece.token? line = some token ∧ token.Means piece.text := by
  rcases piece with ⟨sort, text⟩
  cases sort with
  | symbol kind =>
      exact ⟨_, rfl, (Token.valid_of_plain (List.mem_append_left _ fits)).means⟩
  | string =>
      rcases fits with ⟨body, quoteless, rfl⟩
      have valid : Token.Valid
          ⟨.string, Byte.quote :: (body ++ [Byte.quote]), .string body, line⟩ :=
        ⟨body, quoteless, rfl, rfl⟩
      exact ⟨_, by simp [token?, Piece.body], valid.means⟩
  | number =>
      have valid : Token.Valid ⟨.number, text, .number (.ofNumeral text), line⟩ := ⟨fits, rfl⟩
      exact ⟨_, rfl, valid.means⟩
  | word => exact ⟨_, rfl, (Token.valid_of_isWord fits).means⟩
  | blank | comment | openString | badCharacter => cases isToken

theorem fits_of_mem_pieces {source : Text} (mem : piece ∈ pieces source)
    (proper : piece.sort ≠ .badCharacter) : ∃ rest, piece.sort.Fits piece.text rest := by
  rcases exists_longest_of_mem_pieces source piece mem with ⟨first, more, rfl⟩
  rcases longest_eq_cons first more with ⟨taken, cut, rest, rfl⟩
  exact ⟨rest, longest_fits (by rw [cut, List.cons_append]) proper⟩

end Piece

theorem scan_tokens_forall₂ (source : Text) :
    ∃ tokens line, (scan source).tokens = tokens ++ [.endOfInput line] ∧
      List.Forall₂ (fun segment token => token.Means segment.text)
        ((pieces source).filter (·.sort.isToken)) tokens := by
  refine ⟨_, _, congrArg Scan.tokens (scan_eq source), Piece.forall₂_filterMap_placed ?_ ?_ 1⟩
  · intro piece mem isToken line
    have proper : piece.sort ≠ .badCharacter := by
      intro bad
      simp [bad, Piece.Sort.isToken] at isToken
    rcases Piece.fits_of_mem_pieces mem proper with ⟨rest, fits⟩
    exact Piece.exists_token?_of_fits fits isToken line
  · rintro ⟨sort, text⟩ _ noToken line
    cases sort with
    | blank | comment | openString | badCharacter => rfl
    | _ => cases noToken

theorem scan_tokens_valid (source : Text) :
    ∃ tokens line, (scan source).tokens = tokens ++ [.endOfInput line] ∧
      ∀ token ∈ tokens, token.Valid := by
  rcases scan_tokens_forall₂ source with ⟨tokens, line, ended, means⟩
  refine ⟨tokens, line, ended, fun token mem => ?_⟩
  rcases List.mem_iff_getElem.mp mem with ⟨index, bound, rfl⟩
  exact (means.get (by rw [means.length_eq]; exact bound) bound).2.1

theorem valid_of_mem_scan {source : Text} {token : Token} (mem : token ∈ (scan source).tokens)
    (notEnd : token.kind ≠ .eof) : token.Valid := by
  rcases scan_tokens_valid source with ⟨tokens, line, ended, valid⟩
  rw [ended, List.mem_append, List.mem_singleton] at mem
  rcases mem with mem | rfl
  · exact valid token mem
  · exact absurd rfl notEnd

theorem scan_diagnostics_forall₂ (source : Text) :
    List.Forall₂ (fun segment diagnostic => diagnostic.stage = .scanner ∧ diagnostic.place = [] ∧
        segment.sort.complaint? = some diagnostic.fault.message)
      ((pieces source).filter (·.sort.complaint?.isSome)) (scan source).diagnostics := by
  rw [scan_eq]
  refine Piece.forall₂_filterMap_placed ?_ ?_ 1
  · rintro ⟨sort, text⟩ _ isFault line
    cases sort with
    | openString | badCharacter => exact ⟨_, rfl, rfl, rfl, rfl⟩
    | _ => cases isFault
  · rintro ⟨sort, text⟩ _ noFault line
    cases sort with
    | openString | badCharacter => cases noFault
    | _ => rfl

/-- Scanning is longest-match scanning for the lexical grammar. A source has exactly one cut into
longest matches; its tokens are those that the segments of token classes mean, with the end of input
behind them, and its diagnostics are the complaints about the segments that belong in no source. -/
theorem scan_longest_match (source : Text) :
    ∃ segments : List Piece,
      (∀ others, Piece.Segments source others ↔ others = segments) ∧
      segments.flatMap Piece.text = source ∧ (∀ segment ∈ segments, segment.text ≠ []) ∧
      (∃ tokens line, (scan source).tokens = tokens ++ [.endOfInput line] ∧
        List.Forall₂ (fun segment token => token.Means segment.text)
          (segments.filter (·.sort.isToken)) tokens) ∧
      List.Forall₂ (fun segment diagnostic => diagnostic.stage = .scanner ∧ diagnostic.place = [] ∧
          segment.sort.complaint? = some diagnostic.fault.message)
        (segments.filter (·.sort.complaint?.isSome)) (scan source).diagnostics := by
  refine ⟨pieces source, ?_, pieces_flatMap_text source, ?_, scan_tokens_forall₂ source,
    scan_diagnostics_forall₂ source⟩
  · intro others
    constructor
    · exact Piece.Segments.eq_pieces
    · rintro rfl
      exact Piece.segments_pieces source
  · intro segment mem
    rcases exists_longest_of_mem_pieces source segment mem with ⟨first, rest, rfl⟩
    rcases Piece.longest_eq_cons first rest with ⟨taken, cut, _⟩
    simp [cut]

end LoxLang
