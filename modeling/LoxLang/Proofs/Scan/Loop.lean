import LoxLang.Proofs.Scan.Characters
import LoxLang.Proofs.Scan.Pieces
import Mathlib.Data.List.TakeWhile

/-!
# The scanner reads the pieces

Each time round its loop the scanner reads one piece: it goes over the text of the piece, its line
goes up by the line ends in that text, and it adds what the piece gives. `Scanner.Reads` says so,
with one lemma for each reader. The line goes up at two places only, so it is right because no
other piece holds a line end. What a scan gives can then be read off the pieces of the source.
-/

namespace LoxLang

theorem newlines_takeWhile {inside : UInt8 → Bool} (outside : inside Byte.newline = false)
    (text : Text) : Text.newlines (text.takeWhile inside) = 0 := by
  apply List.count_eq_zero_of_not_mem
  intro mem
  rw [List.mem_takeWhile_imp mem] at outside
  cases outside

theorem Piece.newlines_fraction (text : Text) : Text.newlines (fraction text) = 0 := by
  unfold fraction
  split
  · rename_i dot digit rest
    split
    · rename_i starts
      simp only [Bool.and_eq_true, decide_eq_true_eq] at starts
      rw [starts.1, ← List.takeWhile_cons_of_pos starts.2]
      exact (List.count_cons_of_ne (by decide)).trans (newlines_takeWhile (by decide) _)
    · rfl
  · rfl

namespace Scanner

/-- From one state to the other the scanner only goes over bytes. -/
structure Moves (start finish : Scanner) : Prop where
  source : start.lexeme ++ start.ahead = finish.lexeme ++ finish.ahead
  tokens : finish.tokens = start.tokens
  diagnostics : finish.diagnostics = start.diagnostics

/-- From one state to the other the scanner reads a piece, whose first byte it has passed. -/
structure Reads (piece : Piece) (start finish : Scanner) : Prop where
  source : start.lexeme ++ start.ahead = piece.text ++ finish.ahead
  line : finish.line = start.line + piece.text.newlines
  tokens : finish.tokens.toList = start.tokens.toList ++ (piece.token? finish.line).toList
  diagnostics :
    finish.diagnostics.toList = start.diagnostics.toList ++ (piece.diagnostic? finish.line).toList

section Moving

variable {start middle finish : Scanner} {continues : UInt8 → Bool}

theorem Moves.trans (first : Moves start middle) (second : Moves middle finish) :
    Moves start finish where
  source := first.source.trans second.source
  tokens := second.tokens.trans first.tokens
  diagnostics := second.diagnostics.trans first.diagnostics

theorem lexeme_skip (count : Nat) (scanner : Scanner) :
    (scanner.skip count).lexeme = scanner.lexeme ++ scanner.ahead.take count := by
  simp [lexeme, skip]

theorem moves_skip (count : Nat) (scanner : Scanner) : Moves scanner (scanner.skip count) where
  source := by
    rw [lexeme_skip, List.append_assoc]
    exact congrArg _ (List.take_append_drop count scanner.ahead).symm
  tokens := rfl
  diagnostics := rfl

theorem moves_passWhile (scanner : Scanner) : Moves scanner (scanner.passWhile continues) := by
  rw [passWhile_eq]
  exact moves_skip _ scanner

theorem line_passWhile (scanner : Scanner) : (scanner.passWhile continues).line = scanner.line := by
  rw [passWhile_eq]
  rfl

theorem lexeme_passWhile (scanner : Scanner) :
    (scanner.passWhile continues).lexeme =
      scanner.lexeme ++ scanner.ahead.takeWhile continues := by
  rw [passWhile_eq, lexeme_skip, ← List.prefix_iff_eq_take.mp (List.takeWhile_prefix continues)]

theorem ahead_passWhile (scanner : Scanner) :
    (scanner.passWhile continues).ahead = scanner.ahead.dropWhile continues := by
  have moves : Moves scanner (scanner.passWhile continues) := moves_passWhile scanner
  have same : scanner.ahead =
      scanner.ahead.takeWhile continues ++ (scanner.passWhile continues).ahead := by
    have source := moves.source
    rw [lexeme_passWhile, List.append_assoc] at source
    exact List.append_cancel_left source
  apply List.append_cancel_left
  rw [← same, List.takeWhile_append_dropWhile]

theorem moves_passBody (scanner : Scanner) : Moves scanner scanner.passBody := by
  rw [passBody_eq]
  exact ⟨(moves_skip _ scanner).source, rfl, rfl⟩

theorem lexeme_passBody (scanner : Scanner) :
    scanner.passBody.lexeme = scanner.lexeme ++ scanner.ahead.takeWhile (· ≠ Byte.quote) := by
  rw [passBody_eq]
  refine (lexeme_skip _ scanner).trans ?_
  rw [← List.prefix_iff_eq_take.mp (List.takeWhile_prefix _)]

theorem line_passBody (scanner : Scanner) :
    scanner.passBody.line =
      scanner.line + Text.newlines (scanner.ahead.takeWhile (· ≠ Byte.quote)) := by
  rw [passBody_eq]

theorem moves_pass {byte : UInt8} {rest : Text} {scanner : Scanner}
    (ahead : scanner.ahead = byte :: rest) : Moves scanner (scanner.pass byte rest) := by
  rw [← skip_one ahead]
  exact moves_skip 1 scanner

theorem passFraction_eq (scanner : Scanner) :
    scanner.passFraction = scanner.skip (Piece.fraction scanner.ahead).length := by
  unfold passFraction
  rcases ahead : scanner.ahead with _ | ⟨dot, _ | ⟨digit, rest⟩⟩
  · rfl
  · rfl
  · simp only [Piece.fraction]
    split
    · rename_i starts
      simp only [Bool.and_eq_true, decide_eq_true_eq] at starts
      have behind : (scanner.skip 1).ahead = digit :: rest := by simp [skip, ahead]
      rw [passWhile_eq, skip_skip, behind, List.takeWhile_cons_of_pos starts.2, Nat.add_comm]
      rfl
    · rfl

theorem lexeme_passFraction (scanner : Scanner) :
    scanner.passFraction.lexeme = scanner.lexeme ++ Piece.fraction scanner.ahead := by
  rw [passFraction_eq, lexeme_skip,
    ← List.prefix_iff_eq_take.mp (Piece.fraction_isPrefix scanner.ahead)]

end Moving

section Reading

variable {first : UInt8} {piece : Piece} {start finish scanner : Scanner}

theorem Moves.reads_add {kind : Token.Kind} {literal : Literal} (moves : Moves start finish)
    (text : finish.lexeme = piece.text) (line : finish.line = start.line + piece.text.newlines)
    (given : piece.token? finish.line = some ⟨kind, piece.text, literal, finish.line⟩)
    (faultless : piece.fault? = none) : Reads piece start (finish.add kind literal) where
  source := by rw [moves.source, text]; rfl
  line := line
  tokens := by
    change (finish.tokens.push ⟨kind, finish.lexeme, literal, finish.line⟩).toList =
      _ ++ (piece.token? finish.line).toList
    rw [given, moves.tokens, text, Array.toList_push]
    rfl
  diagnostics := by
    rw [Piece.diagnostic?, faultless]
    change finish.diagnostics.toList = _ ++ []
    rw [moves.diagnostics, List.append_nil]

theorem Moves.reads_fail {fault : Fault} (moves : Moves start finish)
    (text : finish.lexeme = piece.text) (line : finish.line = start.line + piece.text.newlines)
    (tokenless : piece.token? finish.line = none) (faulty : piece.fault? = some fault) :
    Reads piece start (finish.fail fault) where
  source := by rw [moves.source, text]; rfl
  line := line
  tokens := by
    change finish.tokens.toList = _ ++ (piece.token? finish.line).toList
    rw [tokenless, moves.tokens]
    exact (List.append_nil _).symm
  diagnostics := by
    rw [Piece.diagnostic?, faulty]
    change (finish.diagnostics.push _).toList = _
    rw [moves.diagnostics, Array.toList_push]
    rfl

theorem Moves.reads (moves : Moves start finish) (text : finish.lexeme = piece.text)
    (line : finish.line = start.line + piece.text.newlines)
    (tokenless : piece.token? finish.line = none) (faultless : piece.fault? = none) :
    Reads piece start finish where
  source := by rw [moves.source, text]
  line := line
  tokens := by
    rw [tokenless, moves.tokens]
    exact (List.append_nil _).symm
  diagnostics := by
    rw [Piece.diagnostic?, faultless, moves.diagnostics]
    exact (List.append_nil _).symm

theorem newlines_cons (notNewline : first ≠ Byte.newline) (text : Text) :
    Text.newlines (first :: text) = text.newlines :=
  List.count_cons_of_ne notNewline

variable (passed : scanner.passed = [first])
include passed

theorem lexeme_eq : scanner.lexeme = [first] := by
  rw [lexeme, passed]
  rfl

theorem number_reads (notNewline : first ≠ Byte.newline) :
    Reads (Piece.numberAt first scanner.ahead) scanner scanner.number := by
  have moves : Moves scanner (scanner.passWhile Byte.isDigit).passFraction := by
    rw [passFraction_eq]
    exact (moves_passWhile scanner).trans (moves_skip _ _)
  have text : (scanner.passWhile Byte.isDigit).passFraction.lexeme =
      (Piece.numberAt first scanner.ahead).text := by
    rw [lexeme_passFraction, lexeme_passWhile, ahead_passWhile, lexeme_eq passed]
    exact List.append_assoc _ _ _
  have newlineless : Text.newlines (Piece.numberAt first scanner.ahead).text = 0 := by
    rw [Piece.numberAt, newlines_cons notNewline, Text.newlines_append,
      newlines_takeWhile (by decide), Piece.newlines_fraction]
  have line : (scanner.passWhile Byte.isDigit).passFraction.line =
      scanner.line + Text.newlines (Piece.numberAt first scanner.ahead).text := by
    rw [passFraction_eq, newlineless]
    exact line_passWhile scanner
  rw [number, text]
  exact moves.reads_add text line rfl rfl

theorem word_reads (notNewline : first ≠ Byte.newline) :
    Reads ⟨.word, first :: scanner.ahead.takeWhile continuesWord⟩ scanner scanner.word := by
  have text : (scanner.passWhile continuesWord).lexeme =
      first :: scanner.ahead.takeWhile continuesWord := by
    rw [lexeme_passWhile, lexeme_eq passed]
    rfl
  have line : (scanner.passWhile continuesWord).line =
      scanner.line + Text.newlines (first :: scanner.ahead.takeWhile continuesWord) := by
    rw [line_passWhile, newlines_cons notNewline, newlines_takeWhile (by decide)]
    rfl
  rw [word, text]
  exact (moves_passWhile scanner).reads_add text line rfl rfl

theorem comment_reads (slash : first = Byte.slash)
    (second : scanner.ahead.head? = some Byte.slash) :
    Reads ⟨.comment, first :: scanner.ahead.takeWhile (· ≠ Byte.newline)⟩ scanner
      ((scanner.skip 1).passWhile (· ≠ Byte.newline)) := by
  subst slash
  rcases List.head?_eq_some_iff.mp second with ⟨rest, ahead⟩
  have text : ((scanner.skip 1).passWhile (· ≠ Byte.newline)).lexeme =
      Byte.slash :: scanner.ahead.takeWhile (· ≠ Byte.newline) := by
    rw [lexeme_passWhile, lexeme_skip, lexeme_eq passed, ahead,
      List.takeWhile_cons_of_pos (by decide)]
    simp [skip, ahead]
  have line : ((scanner.skip 1).passWhile (· ≠ Byte.newline)).line =
      scanner.line + Text.newlines (Byte.slash :: scanner.ahead.takeWhile (· ≠ Byte.newline)) := by
    rw [line_passWhile, newlines_cons (by decide), newlines_takeWhile (by decide)]
    rfl
  exact ((moves_skip 1 scanner).trans (moves_passWhile _)).reads text line rfl rfl

/-- In a string the line goes up at each line end. -/
theorem string_reads (notNewline : first ≠ Byte.newline) :
    Reads (Piece.stringAt first scanner.ahead) scanner scanner.string := by
  have body : scanner.passBody.lexeme =
      first :: scanner.ahead.takeWhile (· ≠ Byte.quote) := by
    rw [lexeme_passBody, lexeme_eq passed]
    rfl
  have rest : scanner.ahead =
      scanner.ahead.takeWhile (· ≠ Byte.quote) ++ scanner.passBody.ahead := by
    have source := (moves_passBody scanner).source
    rw [body, lexeme_eq passed] at source
    exact List.append_cancel_left source
  unfold string
  simp only [Piece.stringAt]
  rcases Piece.exists_quote_or_quoteless scanner.ahead with ⟨others, closed⟩ | whole
  · have ahead : scanner.passBody.ahead = Byte.quote :: others :=
      List.append_cancel_left (rest.symm.trans closed)
    have shorter : (scanner.ahead.takeWhile (· ≠ Byte.quote)).length < scanner.ahead.length := by
      have lengths := congrArg List.length closed
      rw [List.length_append, List.length_cons] at lengths
      omega
    have text : (scanner.passBody.pass Byte.quote others).lexeme =
        first :: (scanner.ahead.takeWhile (· ≠ Byte.quote) ++ [Byte.quote]) := by
      rw [← skip_one ahead, lexeme_skip, body, ahead]
      rfl
    rw [if_pos shorter, ahead]
    simp only [text]
    refine ((moves_passBody scanner).trans (moves_pass ahead)).reads_add text ?_ rfl rfl
    rw [newlines_cons notNewline, Text.newlines_append]
    exact line_passBody scanner
  · have ahead : scanner.passBody.ahead = [] := by
      rw [whole] at rest
      exact List.self_eq_append_right.mp rest
    have notShorter :
        ¬(scanner.ahead.takeWhile (· ≠ Byte.quote)).length < scanner.ahead.length := by
      rw [whole]
      exact Nat.lt_irrefl _
    rw [if_neg notShorter, ahead]
    refine (moves_passBody scanner).reads_fail body ?_ rfl rfl
    rw [newlines_cons notNewline, line_passBody]

theorem symbol_reads (notNewline : first ≠ Byte.newline)
    (noComment : ¬(first = Byte.slash && scanner.ahead.head? = some Byte.slash) = true) :
    Reads (Piece.symbolAt first scanner.ahead) scanner (scanner.symbol first) := by
  unfold Piece.symbolAt
  rw [if_neg noComment]
  split
  · rename_i kind rest isDouble ahead
    have text : (scanner.skip 1).lexeme = [first, 0x3D] := by
      rw [lexeme_skip, lexeme_eq passed, ahead]
      rfl
    unfold symbol
    rw [isDouble, ahead]
    refine (moves_skip 1 scanner).reads_add text ?_ rfl rfl
    rw [newlines_cons notNewline]
    rfl
  · rename_i noDouble
    have plain : scanner.symbol first = scanner.single first := by
      unfold symbol
      split
      · rename_i kind rest isDouble ahead
        exact absurd ahead (noDouble kind rest isDouble)
      · rfl
    rw [plain, single]
    cases single? first with
    | some kind =>
        refine (moves_skip 0 scanner).reads_add (lexeme_eq passed) ?_ rfl rfl
        rw [newlines_cons notNewline]
        rfl
    | none =>
        refine (moves_skip _ scanner).reads_fail ?_ ?_ rfl rfl
        · rw [lexeme_skip, lexeme_eq passed]
          rfl
        · rw [Text.Utf8.newlines_unit notNewline]
          rfl

/-- One time round the loop. -/
theorem scanToken_reads :
    Reads (Piece.longest first scanner.ahead) scanner (scanner.scanToken first) := by
  by_cases isNewline : first = Byte.newline
  · subst isNewline
    refine ⟨?_, rfl, (List.append_nil _).symm, (List.append_nil _).symm⟩
    rw [lexeme_eq passed]
    rfl
  · rw [scanToken, if_neg isNewline, Piece.longest]
    split
    · refine (moves_skip 0 scanner).reads (lexeme_eq passed) ?_ rfl rfl
      rw [newlines_cons isNewline]
      rfl
    · split
      · exact string_reads passed isNewline
      · split
        · exact number_reads passed isNewline
        · split
          · exact word_reads passed isNewline
          · split
            · rename_i isComment
              unfold Piece.symbolAt
              rw [if_pos isComment]
              simp only [Bool.and_eq_true, decide_eq_true_eq] at isComment
              exact comment_reads passed isComment.1 isComment.2
            · rename_i noComment
              exact symbol_reads passed isNewline noComment

end Reading

section Running

variable {first : UInt8} {rest : Text} {scanner : Scanner}

theorem run_nil (ahead : scanner.ahead = []) : scanner.run = scanner := by
  rw [run]
  split
  · rfl
  · rename_i nonempty
    cases ahead.symm.trans nonempty

theorem run_cons (ahead : scanner.ahead = first :: rest) :
    scanner.run = ((scanner.begin first rest).scanToken first).run := by
  rw [run]
  split
  · rename_i empty
    cases ahead.symm.trans empty
  · rename_i nonempty
    cases ahead.symm.trans nonempty
    rfl

/-- From one state to the other the scanner reads pieces, one after the other. -/
structure ReadsAll (pieces : List Piece) (start finish : Scanner) : Prop where
  line : finish.line = start.line + Text.newlines (pieces.flatMap Piece.text)
  tokens : finish.tokens.toList = start.tokens.toList ++
    (placed start.line pieces).filterMap fun (piece, line) => piece.token? line
  diagnostics : finish.diagnostics.toList = start.diagnostics.toList ++
    (placed start.line pieces).filterMap fun (piece, line) => piece.diagnostic? line

theorem filterMap_placed_cons {α : Type} (gives : Piece → Nat → Option α) (line : Nat)
    (piece : Piece) (pieces : List Piece) :
    (placed line (piece :: pieces)).filterMap (fun (piece, line) => gives piece line) =
      (gives piece (line + piece.text.newlines)).toList ++
        (placed (line + piece.text.newlines) pieces).filterMap
          fun (piece, line) => gives piece line := by
  simp only [placed, List.filterMap_cons]
  cases gives piece (line + piece.text.newlines) <;> rfl

theorem Reads.readsAll {piece : Piece} {pieces : List Piece} {start middle finish : Scanner}
    (reads : Reads piece start middle) (others : ReadsAll pieces middle finish) :
    ReadsAll (piece :: pieces) start finish where
  line := by
    rw [others.line, reads.line, List.flatMap_cons, Text.newlines_append, Nat.add_assoc]
  tokens := by
    rw [others.tokens, reads.tokens, reads.line, filterMap_placed_cons, List.append_assoc]
  diagnostics := by
    rw [others.diagnostics, reads.diagnostics, reads.line, filterMap_placed_cons,
      List.append_assoc]

theorem run_readsAll (scanner : Scanner) :
    ReadsAll (pieces scanner.ahead) scanner scanner.run := by
  generalize ahead : scanner.ahead = source
  revert scanner
  refine pieces_induction (motive := fun source pieces =>
    ∀ scanner : Scanner, scanner.ahead = source → ReadsAll pieces scanner scanner.run) ?_ ?_ source
  · intro scanner ahead
    rw [run_nil ahead]
    exact ⟨rfl, (List.append_nil _).symm, (List.append_nil _).symm⟩
  · intro first taken rest longest ih scanner ahead
    rw [run_cons ahead]
    have reads : Reads (Piece.longest first (taken ++ rest)) (scanner.begin first (taken ++ rest))
        ((scanner.begin first (taken ++ rest)).scanToken first) :=
      @scanToken_reads first (scanner.begin first (taken ++ rest)) rfl
    have left : ((scanner.begin first (taken ++ rest)).scanToken first).ahead = rest := by
      have source : first :: (taken ++ rest) = _ := reads.source
      rw [longest] at source
      exact (List.append_cancel_left (List.cons_eq_cons.mp source).2).symm
    have all := reads.readsAll (ih _ left)
    exact ⟨all.line, all.tokens, all.diagnostics⟩

end Running

end Scanner

/-- What a scan gives is read off the pieces of the source. -/
theorem scan_eq (source : Text) :
    scan source =
      { tokens := (placed 1 (pieces source)).filterMap (fun (piece, line) => piece.token? line)
          ++ [.endOfInput (1 + source.newlines : Nat)]
        diagnostics := (placed 1 (pieces source)).filterMap
          fun (piece, line) => piece.diagnostic? line } := by
  have reads := Scanner.run_readsAll (Scanner.before source)
  have line := reads.line
  have tokens := reads.tokens
  have diagnostics := reads.diagnostics
  simp only [Scanner.before, pieces_flatMap_text, List.nil_append] at line tokens diagnostics
  simp only [scan, Scanner.before, Array.toList_push, line, tokens, diagnostics]

theorem mem_scan_diagnostics {source : Text} {diagnostic : Diagnostic} :
    diagnostic ∈ (scan source).diagnostics ↔
      ∃ piece line, (piece, line) ∈ placed 1 (pieces source) ∧
        piece.diagnostic? line = some diagnostic := by
  simp only [scan_eq, List.mem_filterMap, Prod.exists]

theorem eq_endOfInput_or_exists_piece {source : Text} {token : Token}
    (mem : token ∈ (scan source).tokens) :
    token = .endOfInput (1 + source.newlines : Nat) ∨
      ∃ piece line, (piece, line) ∈ placed 1 (pieces source) ∧ piece.token? line = some token := by
  simp only [scan_eq, List.mem_append, List.mem_filterMap, List.mem_singleton] at mem
  rcases mem with ⟨⟨piece, line⟩, placedMem, isToken⟩ | isEnd
  · exact Or.inr ⟨piece, line, placedMem, isToken⟩
  · exact Or.inl isEnd

/-- The line of a scanned token is a line of the source. -/
theorem line_of_mem_scan {source : Text} {token : Token} (mem : token ∈ (scan source).tokens) :
    1 ≤ token.line ∧ token.line ≤ 1 + source.newlines := by
  rcases eq_endOfInput_or_exists_piece mem with rfl | ⟨piece, line, placedMem, isToken⟩
  · simp only [Token.endOfInput]
    omega
  · have bounds := line_mem_placed placedMem
    rw [pieces_flatMap_text] at bounds
    rw [Piece.token?_line isToken]
    omega

end LoxLang
