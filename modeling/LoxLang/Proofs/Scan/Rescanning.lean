import LoxLang.Proofs.Scan.LongestMatch

/-!
# Scanning tokens again

Any token may stand next to any other as long as a space is between them: the space ends every
lexeme, so neither do two lexemes merge nor does one come apart. The lexemes of a scanned source are
those of valid tokens, and so a source and its lexemes with spaces between them have the same tokens
up to their lines.
-/

namespace LoxLang

/-- The lexemes of tokens with single spaces between them. -/
def Token.spaced (tokens : List Token) : Text := Text.join " " (tokens.map Token.lexeme)

/-- The empty lexeme of the end of the input adds at most a space. -/
theorem Token.spaced_concat_endOfInput (tokens : List Token) (line : Int) :
    ∃ rest : Text, (rest = [] ∨ rest = [Byte.space]) ∧
      spaced (tokens ++ [.endOfInput line]) = spaced tokens ++ rest := by
  induction tokens with
  | nil => exact ⟨[], Or.inl rfl, rfl⟩
  | cons token tokens ih =>
      cases tokens with
      | nil => exact ⟨[Byte.space], Or.inr rfl, by simp [spaced, Text.join, endOfInput]; rfl⟩
      | cons second others =>
          rcases ih with ⟨rest, blank, joined⟩
          refine ⟨rest, blank, ?_⟩
          simp only [spaced, List.cons_append, List.map_cons, Text.join, List.append_assoc]
            at joined ⊢
          rw [joined]

/-- Valid tokens are scanned as themselves, up to their lines and without a complaint, when single
spaces stand between their lexemes. In particular this holds of the tokens of every source, with or
without the one that ends it. -/
theorem scan_spaced :
    (∀ tokens : List Token, (∀ token ∈ tokens, token.Valid) →
      (scan (Token.spaced tokens)).diagnostics = [] ∧
      (scan (Token.spaced tokens)).tokens.map Token.unplaced =
        tokens.map Token.unplaced ++ [.endOfInput 0]) ∧
    ∀ source : Text, ∀ tokens ∈ [(scan source).tokens, (scan source).tokens.dropLast],
      (scan (Token.spaced tokens)).diagnostics = [] ∧
      (scan (Token.spaced tokens)).tokens.map Token.unplaced =
        (scan source).tokens.map Token.unplaced := by
  refine ⟨fun tokens valid => scan_join valid, fun source => ?_⟩
  rcases scan_tokens_valid source with ⟨tokens, line, ended, valid⟩
  have same : (scan source).tokens.map Token.unplaced =
      tokens.map Token.unplaced ++ [.endOfInput 0] := by
    rw [ended, List.map_append]
    rfl
  rw [same, ended, List.dropLast_concat, List.forall_mem_cons, List.forall_mem_singleton]
  constructor
  · rcases Token.spaced_concat_endOfInput tokens line with ⟨rest, blank, joined⟩
    rw [joined]
    exact scan_join_append valid blank
  · exact scan_join valid

/-- Slashes that would make a comment, digits and a dot that would make one numeral, equals signs, a
string across lines and a keyword before a name that starts with it. -/
theorem scan_spaced_neighbours :
    ∃ tokens : List Token, (∀ token ∈ tokens, token.Valid) ∧
      tokens.map Token.kind = [.slash, .slash, .number, .dot, .number, .equal, .equalEqual, .string,
        .orKeyword, .identifier] ∧
      Token.spaced tokens = "/ / 1 . 5 = == \"a\n//\" or orchid" ∧
      (scan "/ / 1 . 5 = == \"a\n//\" or orchid").diagnostics = [] ∧
      (scan "/ / 1 . 5 = == \"a\n//\" or orchid").tokens.map Token.unplaced =
        tokens.map Token.unplaced ++ [.endOfInput 0] := by
  let tokens : List Token := [⟨.slash, "/", .nil, 1⟩, ⟨.slash, "/", .nil, 1⟩,
    ⟨.number, "1", .number (.ofNumeral "1"), 1⟩, ⟨.dot, ".", .nil, 1⟩,
    ⟨.number, "5", .number (.ofNumeral "5"), 1⟩, ⟨.equal, "=", .nil, 1⟩,
    ⟨.equalEqual, "==", .nil, 1⟩, ⟨.string, "\"a\n//\"", .string "a\n//", 2⟩,
    ⟨.orKeyword, "or", .nil, 2⟩, ⟨.identifier, "orchid", .nil, 2⟩]
  have word : Token.IsWord ("orchid" : Text) := ⟨_, _, rfl, by decide, by decide +kernel⟩
  have string : Token.Valid ⟨.string, "\"a\n//\"", .string "a\n//", 2⟩ :=
    ⟨"a\n//", by decide, by decide, rfl⟩
  have valid : ∀ token ∈ tokens, token.Valid := by
    simp only [tokens, List.forall_mem_cons]
    exact ⟨⟨by decide, rfl⟩, ⟨by decide, rfl⟩, ⟨Or.inl ⟨by decide, by decide +kernel⟩, rfl⟩,
      ⟨by decide, rfl⟩, ⟨Or.inl ⟨by decide, by decide +kernel⟩, rfl⟩, ⟨by decide, rfl⟩,
      ⟨by decide, rfl⟩, string, ⟨by decide, rfl⟩, ⟨word, by decide, rfl⟩, List.forall_mem_nil _⟩
  exact ⟨tokens, valid, rfl, rfl, scan_spaced.1 tokens valid⟩

end LoxLang
