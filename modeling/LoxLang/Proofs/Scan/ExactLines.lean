import LoxLang.Proofs.Scan.LongestMatch

/-!
# Lines are exact

The line of a token is the one on which it ends, and the line of a complaint is the one of the bad
character or, for a string that is never closed, the last line of the source. Both are said of the
segments of the source and of what stands before each of them: lines are counted in the source, and
no longer along the way of the scanner.
-/

namespace LoxLang

namespace Piece

/-- A segment and what stands before it in its source. -/
structure Site where
  before : Text
  segment : Piece

/-- The source up to the end of the segment. -/
def Site.upTo (site : Site) : Text := site.before ++ site.segment.text

/-- Segments that follow each other, each with what stands before it. -/
def sites (before : Text) : List Piece → List Site
  | [] => []
  | segment :: others => ⟨before, segment⟩ :: sites (before ++ segment.text) others

variable {before : Text} {segments : List Piece} {site : Site}

theorem segment_mem_of_mem_sites (mem : site ∈ sites before segments) :
    site.segment ∈ segments := by
  induction segments generalizing before with
  | nil => simp [sites] at mem
  | cons segment others ih =>
      rcases List.mem_cons.mp mem with rfl | mem
      · exact List.mem_cons_self
      · exact List.mem_cons_of_mem _ (ih mem)

theorem upTo_isPrefix_of_mem_sites (mem : site ∈ sites before segments) :
    site.upTo <+: before ++ segments.flatMap Piece.text := by
  induction segments generalizing before with
  | nil => simp [sites] at mem
  | cons segment others ih =>
      rw [List.flatMap_cons, ← List.append_assoc]
      rcases List.mem_cons.mp mem with rfl | mem
      · exact List.prefix_append _ _
      · exact ih mem

/-- The lines that are counted along the pieces are those of the source. -/
theorem placed_eq_map_sites (before : Text) (segments : List Piece) :
    placed (1 + before.newlines) segments =
      (sites before segments).map fun site => (site.segment, 1 + site.upTo.newlines) := by
  induction segments generalizing before with
  | nil => rfl
  | cons segment others ih =>
      have counted : 1 + before.newlines + segment.text.newlines =
          1 + (before ++ segment.text).newlines := by
        rw [Text.newlines_append, Nat.add_assoc]
      rw [placed, counted, ih, sites, List.map_cons]
      rfl

theorem filterMap_placed {α : Type} (gives : Piece → Nat → Option α) (segments : List Piece) :
    (placed 1 segments).filterMap (fun (piece, line) => gives piece line) =
      (sites [] segments).filterMap fun site => gives site.segment (1 + site.upTo.newlines) := by
  rw [show (1 : Nat) = 1 + Text.newlines [] from rfl, placed_eq_map_sites, List.filterMap_map]
  rfl

end Piece

namespace Piece

theorem newlines_of_badCharacter {first : UInt8} {rest : Text}
    (bad : (longest first rest).sort = .badCharacter) :
    (longest first rest).text.newlines = 0 := by
  -- A line end is a blank, so it is no bad character.
  have notNewline : first ≠ Byte.newline := by
    rintro rfl
    cases bad
  rw [longest_badCharacter bad]
  exact Text.Utf8.newlines_unit notNewline rest

end Piece

section Lines

variable {source : Text} {site : Piece.Site}

theorem exists_token_of_mem_sites (mem : site ∈ Piece.sites [] (pieces source))
    (isToken : site.segment.sort.isToken = true) :
    ∃ token, site.segment.token? (1 + site.upTo.newlines) = some token ∧
      token.Means site.segment.text ∧ token.line = (1 + site.upTo.newlines : Nat) := by
  have proper : site.segment.sort ≠ .badCharacter := by
    intro bad
    simp [bad, Piece.Sort.isToken] at isToken
  rcases Piece.fits_of_mem_pieces (Piece.segment_mem_of_mem_sites mem) proper with ⟨rest, fits⟩
  rcases Piece.exists_token?_of_fits fits isToken (1 + site.upTo.newlines) with
    ⟨token, given, means⟩
  exact ⟨token, given, means, Piece.token?_line given⟩

/-- The closing quote of a string is on the line on which the string ends. -/
theorem newlines_upTo_of_quoted {body : Text}
    (quoted : site.segment.text = Byte.quote :: (body ++ [Byte.quote])) :
    site.upTo.newlines = (site.before ++ Byte.quote :: body).newlines := by
  have closing : Text.newlines [Byte.quote] = 0 := rfl
  rw [Piece.Site.upTo, quoted, ← List.cons_append, ← List.append_assoc, Text.newlines_append,
    closing, Nat.add_zero]

theorem newlines_upTo_of_badCharacter (mem : site ∈ Piece.sites [] (pieces source))
    (bad : site.segment.sort = .badCharacter) : site.upTo.newlines = site.before.newlines := by
  rcases exists_longest_of_mem_pieces source _ (Piece.segment_mem_of_mem_sites mem) with
    ⟨first, rest, isLongest⟩
  rw [isLongest] at bad
  rw [Piece.Site.upTo, Text.newlines_append, isLongest, Piece.newlines_of_badCharacter bad,
    Nat.add_zero]

theorem newlines_upTo_of_openString (mem : site ∈ Piece.sites [] (pieces source))
    (isOpen : site.segment.sort = .openString) : site.upTo.newlines = source.newlines := by
  have placedMem : (site.segment, 1 + site.upTo.newlines) ∈ placed 1 (pieces source) := by
    have mapped := List.mem_map_of_mem
      (f := fun site : Piece.Site => (site.segment, 1 + site.upTo.newlines)) mem
    rwa [← Piece.placed_eq_map_sites] at mapped
  have line := line_of_openString placedMem isOpen
  omega

theorem scan_tokens_at_sites (source : Text) :
    ∃ tokens, (scan source).tokens = tokens ++ [.endOfInput (1 + source.newlines : Nat)] ∧
      List.Forall₂ (fun (site : Piece.Site) (token : Token) =>
          token.Means site.segment.text ∧ token.line = (1 + site.upTo.newlines : Nat))
        ((Piece.sites [] (pieces source)).filter (·.segment.sort.isToken)) tokens := by
  refine ⟨_, congrArg Scan.tokens (scan_eq source), ?_⟩
  rw [Piece.filterMap_placed Piece.token?]
  apply Piece.forall₂_filterMap
  · intro site mem isToken
    exact exists_token_of_mem_sites mem isToken
  · rintro ⟨before, sort, text⟩ _ noToken
    cases sort with
    | blank | comment | openString | badCharacter => rfl
    | _ => cases noToken

theorem scan_diagnostics_at_sites (source : Text) :
    List.Forall₂ (fun (site : Piece.Site) (diagnostic : Diagnostic) =>
        site.segment.sort.complaint? = some diagnostic.fault.message ∧
        (diagnostic.fault.message = "Unexpected character." →
          diagnostic.line = (1 + site.before.newlines : Nat)) ∧
        (diagnostic.fault.message = "Unterminated string." →
          diagnostic.line = (1 + source.newlines : Nat)))
      ((Piece.sites [] (pieces source)).filter (·.segment.sort.complaint?.isSome))
      (scan source).diagnostics := by
  have apart : Fault.message .unexpectedCharacter ≠ Fault.message .unterminatedString := by decide
  simp only [scan_eq]
  rw [Piece.filterMap_placed Piece.diagnostic?]
  apply Piece.forall₂_filterMap
  · rintro ⟨before, sort, text⟩ mem isFault
    cases sort with
    | openString =>
        have line := newlines_upTo_of_openString mem rfl
        exact ⟨_, rfl, rfl, fun other => absurd other.symm apart, fun _ => by rw [line]⟩
    | badCharacter =>
        have line := newlines_upTo_of_badCharacter mem rfl
        exact ⟨_, rfl, rfl, fun _ => by rw [line], fun other => absurd other apart⟩
    | _ => cases isFault
  · rintro ⟨before, sort, text⟩ _ noFault
    cases sort with
    | openString | badCharacter => cases noFault
    | _ => rfl

theorem placed_pairwise (start : Nat) (cut : List Piece) :
    (placed start cut).Pairwise fun first second => first.2 ≤ second.2 := by
  induction cut generalizing start with
  | nil => exact .nil
  | cons piece others ih =>
      rw [placed, List.pairwise_cons]
      exact ⟨fun later mem => (line_mem_placed mem).1, ih _⟩

theorem scan_tokens_pairwise (source : Text) :
    (scan source).tokens.Pairwise fun first second => first.line ≤ second.line := by
  rw [scan_eq, List.pairwise_append]
  refine ⟨?_, List.pairwise_singleton _ _, ?_⟩
  · apply (placed_pairwise 1 (pieces source)).filterMap
    rintro ⟨first, firstLine⟩ ⟨second, secondLine⟩ le token isToken later isLater
    rw [Piece.token?_line isToken, Piece.token?_line isLater]
    exact_mod_cast le
  · intro token mem last isLast
    rw [List.mem_singleton.mp isLast]
    have scanned : token ∈ (scan source).tokens := by
      rw [scan_eq]
      exact List.mem_append_left _ mem
    exact (line_of_mem_scan scanned).2

theorem line_of_mem_diagnostics {diagnostic : Diagnostic}
    (mem : diagnostic ∈ (scan source).diagnostics) :
    1 ≤ diagnostic.line ∧ diagnostic.line ≤ (1 + source.newlines : Nat) := by
  rcases mem_scan_diagnostics.mp mem with ⟨piece, line, placedMem, gives⟩
  rcases Option.map_eq_some_iff.mp gives with ⟨fault, _, rfl⟩
  have bounds := line_mem_placed placedMem
  rw [pieces_flatMap_text] at bounds
  simp only
  omega

end Lines

/-- Lines are exact. A source has one cut into longest matches, and each token is on the line on
which its segment ends: one more than the line ends before that, which for a string may also be
counted up to its closing quote. The end of the input is on the last line. A complaint is on the
line of the bad character, or on the last line if a string is not closed. So lines never go back,
and complaints are on lines from the first to that of the end of the input. -/
theorem scan_lines_exact (source : Text) :
    ∃ segments : List Piece,
      (∀ others, Piece.Segments source others ↔ others = segments) ∧
      (∀ site ∈ Piece.sites [] segments, site.upTo <+: source) ∧
      (∃ tokens, (scan source).tokens = tokens ++ [.endOfInput (1 + source.newlines : Nat)] ∧
        List.Forall₂ (fun (site : Piece.Site) (token : Token) =>
            token.Means site.segment.text ∧ token.line = (1 + site.upTo.newlines : Nat) ∧
            ∀ body, site.segment.text = Byte.quote :: (body ++ [Byte.quote]) →
              token.line = (1 + (site.before ++ Byte.quote :: body).newlines : Nat))
          ((Piece.sites [] segments).filter (·.segment.sort.isToken)) tokens) ∧
      List.Forall₂ (fun (site : Piece.Site) (diagnostic : Diagnostic) =>
          site.segment.sort.complaint? = some diagnostic.fault.message ∧
          (diagnostic.fault.message = "Unexpected character." →
            diagnostic.line = (1 + site.before.newlines : Nat)) ∧
          (diagnostic.fault.message = "Unterminated string." →
            diagnostic.line = (1 + source.newlines : Nat)))
        ((Piece.sites [] segments).filter (·.segment.sort.complaint?.isSome))
        (scan source).diagnostics ∧
      ((scan source).tokens.Pairwise fun first second => first.line ≤ second.line) ∧
      ∀ diagnostic ∈ (scan source).diagnostics,
        1 ≤ diagnostic.line ∧ diagnostic.line ≤ (1 + source.newlines : Nat) := by
  refine ⟨pieces source, fun others => ⟨Piece.Segments.eq_pieces, ?_⟩, ?_, ?_,
    scan_diagnostics_at_sites source, scan_tokens_pairwise source,
    fun diagnostic => line_of_mem_diagnostics⟩
  · rintro rfl
    exact Piece.segments_pieces source
  · intro site mem
    have stands := Piece.upTo_isPrefix_of_mem_sites mem
    rwa [pieces_flatMap_text] at stands
  · rcases scan_tokens_at_sites source with ⟨tokens, ended, related⟩
    refine ⟨tokens, ended, related.imp ?_⟩
    rintro site token ⟨means, line⟩
    refine ⟨means, line, fun body quoted => ?_⟩
    rw [line, newlines_upTo_of_quoted quoted]

end LoxLang
