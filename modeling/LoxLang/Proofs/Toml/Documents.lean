import LoxLang.Proofs.Toml.Strings
import LoxLang.Toml.Tables

/-!
# Documents of pairs

A document that has a pair on each of its lines, and nothing else, is read line by line. Reading it
finds the pairs in their order if all their values are read. A line whose value is refused ends the
document, and since something is left of it then, the whole document is refused.
-/

namespace LoxLang.Toml

open Reader Grammar

/-- The characters of keys without quotes. -/
def isBare (char : Char) : Bool :=
  within '0' '9' char || within 'A' 'Z' char || within 'a' 'z' char || char = '-' || char = '_'

/-- What is on a line: a key, and a value as it is written and as it is meant. -/
structure Entry where
  key : List Char
  written : List Char
  value : Value

namespace Entry

/-- The characters of the line, without its end. -/
def line (entry : Entry) : List Char := entry.key ++ ' ' :: '=' :: ' ' :: entry.written

/-- The key needs no quotes, and the value does not start with a blank. -/
structure WellFormed (entry : Entry) : Prop where
  nonempty : entry.key ≠ []
  bare : ∀ char ∈ entry.key, isBare char = true
  starts : ∃ first rest, entry.written = first :: rest ∧ first ≠ ' ' ∧ first ≠ '\t'

/-- The statement is the pair of the entry. -/
def Denotes (entry : Entry) (statement : Statement) : Prop :=
  ∃ keyLine line, statement = .pair (.mk (some (textOf entry.key)) keyLine entry.value line)

/-- The written value of the entry is read as what it means. -/
def Readable (reader : Reader Value) (entry : Entry) : Prop :=
  ∀ more, Reads reader (entry.written ++ '\n' :: more) (· = entry.value) ('\n' :: more)

/-- Entries, each on a line that is ended, and something behind them. -/
def lines (entries : List Entry) (last : List Char) : List Char :=
  entries.flatMap (fun entry => entry.line ++ ['\n']) ++ last

theorem lines_cons (entry : Entry) (entries : List Entry) (last : List Char) :
    lines (entry :: entries) last = entry.line ++ '\n' :: lines entries last := by
  simp [lines]

end Entry

variable {reader : Reader Value} {entry : Entry} {entries : List Entry}
  {ahead more last : List Char}

section Lines

/-- The characters ahead start like a key, or there are none. -/
def BareAhead (ahead : List Char) : Prop := ∀ first, ahead.head? = some first → isBare first = true

theorem ne_of_isBare {char other : Char} (bare : isBare char = true)
    (notBare : isBare other = false) : char ≠ other := by
  rintro rfl
  cases bare.symm.trans notBare

theorem bareAhead_line (wellFormed : entry.WellFormed) : BareAhead (entry.line ++ more) := by
  rcases wellFormed with ⟨nonempty, bare, _⟩
  intro first isFirst
  cases keyed : entry.key with
  | nil => exact (nonempty keyed).elim
  | cons initial rest =>
      rw [Entry.line, keyed] at isFirst
      cases isFirst
      exact bare first (by simp [keyed])

theorem refuses_char_of_bare (bareAhead : BareAhead ahead) {accepts : Char → Bool}
    (disjoint : ∀ char, isBare char = true → accepts char = false) :
    Refuses (char accepts) ahead := by
  cases ahead with
  | nil => exact refuses_char_nil
  | cons first rest => exact refuses_char (disjoint first (bareAhead first rfl))

theorem refuses_symbol_of_bare (bareAhead : BareAhead ahead) {wanted : Char}
    (notBare : isBare wanted = false) : Refuses (symbol wanted) ahead := by
  apply Refuses.discard
  apply refuses_char_of_bare bareAhead
  intro char bare
  simp [ne_of_isBare bare notBare]

theorem reads_noBlanks (refuses : Refuses (char fun char => char = ' ' || char = '\t') ahead) :
    Reads blanks ahead (fun _ => True) ahead :=
  have none : ReadsMany (char fun char => char = ' ' || char = '\t') ahead (· = []) ahead :=
    .stop refuses rfl
  none.many.discard.rule

theorem reads_blank {first : Char} (notSpace : first ≠ ' ') (notTab : first ≠ '\t') :
    Reads blanks (' ' :: first :: more) (fun _ => True) (first :: more) := by
  have stop : Refuses (char fun char => char = ' ' || char = '\t') (first :: more) :=
    refuses_char (by simp [notSpace, notTab])
  have blank : ∀ char ∈ [' '], (char = ' ' || char = '\t') = true := by simp
  exact (readsMany_chars blank stop).many.discard.rule

theorem reads_key (wellFormed : entry.WellFormed) :
    Reads key (entry.key ++ ' ' :: more) (· = some (textOf entry.key)) (' ' :: more) := by
  rcases wellFormed with ⟨nonempty, bare, _⟩
  cases keyed : entry.key with
  | nil => exact (nonempty keyed).elim
  | cons first rest =>
      simp only [keyed, List.forall_mem_cons] at bare
      have chars : Reads (manyOne (char isBare)) (first :: (rest ++ ' ' :: more))
          (· = first :: rest) (' ' :: more) := by
        apply ReadsMany.manyOne (reads_char bare.1)
        rintro _ rfl
        exact (readsMany_chars bare.2 (refuses_char (by decide))).imp fun _ is => by rw [is]
      have isBareKey : Reads bareKey (first :: (rest ++ ' ' :: more))
          (· = some (textOf (first :: rest))) (' ' :: more) :=
        (chars.bind fun _ is => .pure (by rw [is])).rule
      exact isBareKey.either.rule

theorem reads_pair (wellFormed : entry.WellFormed) (readable : entry.Readable reader) :
    Reads (pair reader) (entry.line ++ '\n' :: more) (fun pair => entry.Denotes (.pair pair))
      ('\n' :: more) := by
  rcases wellFormed.starts with ⟨first, rest, written, notSpace, notTab⟩
  have value := readable more
  rw [written] at value
  simp only [Entry.line, written, List.append_assoc, List.cons_append]
  apply Reads.rule
  apply reads_line.bind
  intro keyLine _
  apply (reads_key wellFormed).bind
  rintro _ rfl
  apply (reads_blank (by decide) (by decide)).bind
  intro _ _
  apply reads_symbol.bind
  intro _ _
  apply (reads_blank notSpace notTab).bind
  intro _ _
  apply value.bind
  rintro _ rfl
  exact reads_line.bind fun line _ => .pure ⟨keyLine, line, rfl⟩

theorem refuses_pair (wellFormed : entry.WellFormed)
    (refused : Refuses reader (entry.written ++ more)) :
    Refuses (pair reader) (entry.line ++ more) := by
  rcases wellFormed.starts with ⟨first, rest, written, notSpace, notTab⟩
  rw [written] at refused
  simp only [Entry.line, written, List.append_assoc, List.cons_append]
  apply Refuses.rule
  apply reads_line.bind_refuses
  intro _ _
  apply (reads_key wellFormed).bind_refuses
  intro _ _
  apply (reads_blank (by decide) (by decide)).bind_refuses
  intro _ _
  apply reads_symbol.bind_refuses
  intro _ _
  apply (reads_blank notSpace notTab).bind_refuses
  intro _ _
  exact refused.bind

theorem refuses_pair_nil : Refuses (pair reader) [] := by
  have noKey : Refuses key [] := by
    have noBare : Refuses bareKey [] := (Refuses.bind refuses_char_nil).bind.rule
    have noQuoted : Refuses quotedKey [] := (Refuses.discard refuses_char_nil).bind.rule
    exact (noBare.either noQuoted).rule
  exact (reads_line.bind_refuses fun _ _ => noKey.bind).rule

end Lines

section Statements

theorem refuses_headers (bareAhead : BareAhead ahead) :
    Refuses (rule (either (header 1) (header 2))) ahead := by
  have noHeader : ∀ brackets, Refuses (header (brackets + 1)) ahead := fun brackets =>
    (refuses_symbol_of_bare bareAhead (by decide)).bind.bind.rule
  exact ((noHeader 0).either (noHeader 1)).rule

theorem refuses_comment_of_bare (bareAhead : BareAhead ahead) : Refuses comment ahead :=
  (refuses_symbol_of_bare bareAhead (by decide)).bind.rule

theorem reads_noBlanks_of_bare (bareAhead : BareAhead ahead) :
    Reads blanks ahead (fun _ => True) ahead := by
  apply reads_noBlanks
  apply refuses_char_of_bare bareAhead
  intro char bare
  have notSpace : char ≠ ' ' := ne_of_isBare bare (by decide)
  have notTab : char ≠ '\t' := ne_of_isBare bare (by decide)
  simp [notSpace, notTab]

theorem reads_statement (wellFormed : entry.WellFormed) (readable : entry.Readable reader) :
    Reads (statements reader) (entry.line ++ '\n' :: more)
      (List.Forall₂ Entry.Denotes [entry]) ('\n' :: more) := by
  have bareAhead : BareAhead (entry.line ++ '\n' :: more) := bareAhead_line wellFormed
  have noBlanks := reads_noBlanks_of_bare bareAhead
  have lineEnd : Reads blanks ('\n' :: more) (fun _ => True) ('\n' :: more) :=
    reads_noBlanks (refuses_char (by decide))
  have noComment : Refuses comment ('\n' :: more) := (refuses_symbol (by decide)).bind.rule
  apply Reads.rule
  apply (noBlanks.bind_refuses fun _ _ => (refuses_headers bareAhead).bind).either_reads
  apply Reads.either
  apply noBlanks.bind
  intro _ _
  apply (reads_pair wellFormed readable).bind
  intro pair denotes
  apply lineEnd.bind
  intro _ _
  exact noComment.optional.discard.bind fun _ _ => .pure (.cons denotes .nil)

/-- Nothing is read where there is no pair. -/
theorem reads_noStatement (bareAhead : BareAhead ahead) (refused : Refuses (pair reader) ahead) :
    Reads (statements reader) ahead (· = []) ahead := by
  have noBlanks := reads_noBlanks_of_bare bareAhead
  apply Reads.rule
  apply (noBlanks.bind_refuses fun _ _ => (refuses_headers bareAhead).bind).either_reads
  apply (noBlanks.bind_refuses fun _ _ => refused.bind).either_reads
  apply Reads.either
  apply noBlanks.bind
  intro _ _
  exact (refuses_comment_of_bare bareAhead).optional.discard.bind fun _ _ => .pure rfl

theorem refuses_lineEnd_of_bare (bareAhead : BareAhead ahead) :
    Refuses (char isLineEnd) ahead := by
  apply refuses_char_of_bare bareAhead
  intro char bare
  have notFeed : char ≠ '\n' := ne_of_isBare bare (by decide)
  have notReturn : char ≠ '\r' := ne_of_isBare bare (by decide)
  simp [isLineEnd, notFeed, notReturn]

theorem reads_lineEnd (bareAhead : BareAhead ahead) :
    Reads lineEnds ('\n' :: ahead) (fun _ => True) ahead := by
  have feed : Reads (char isLineEnd) ('\n' :: ahead) (· = '\n') ahead := reads_char (by decide)
  exact (ReadsMany.manyOne feed fun _ _ =>
    .stop (refuses_lineEnd_of_bare bareAhead) trivial).rule

theorem refuses_lineEnds (bareAhead : BareAhead ahead) : Refuses lineEnds ahead :=
  (Refuses.bind (refuses_lineEnd_of_bare bareAhead)).rule

/-- The lines of entries are read as the entries, up to where no pair is. -/
theorem readsMany_lines (wellFormed : ∀ entry ∈ entries, entry.WellFormed)
    (readable : ∀ entry ∈ entries, entry.Readable reader) (bareLast : BareAhead last)
    (noMore : Refuses (pair reader) last) :
    ReadsMany (do
        discard lineEnds
        statements reader) ('\n' :: Entry.lines entries last)
      (fun found => List.Forall₂ Entry.Denotes entries found.flatten) last := by
  induction entries with
  | nil =>
      have nothing : Reads (do
          discard lineEnds
          statements reader) ('\n' :: last) (· = []) last :=
        (reads_lineEnd bareLast).discard.bind fun _ _ => reads_noStatement bareLast noMore
      apply ReadsMany.step nothing (by simp)
      rintro _ rfl
      exact .stop (refuses_lineEnds bareLast).discard.bind .nil
  | cons entry entries ih =>
      rw [List.forall_mem_cons] at wellFormed readable
      have first : Reads (do
          discard lineEnds
          statements reader) ('\n' :: Entry.lines (entry :: entries) last)
          (List.Forall₂ Entry.Denotes [entry]) ('\n' :: Entry.lines entries last) := by
        rw [Entry.lines_cons]
        apply (reads_lineEnd (bareAhead_line wellFormed.1)).discard.bind
        exact fun _ _ => reads_statement wellFormed.1 readable.1
      apply ReadsMany.step first
      · simp only [Entry.lines_cons, List.length_cons, List.length_append]
        omega
      · intro found denotes
        refine (ih wellFormed.2 readable.2).imp fun others denote => ?_
        exact List.rel_append denotes denote

theorem reads_document (wellFormed : ∀ entry ∈ entries, entry.WellFormed)
    (readable : ∀ entry ∈ entries, entry.Readable reader) (nonempty : entries ≠ []) :
    Reads (document reader) (Entry.lines entries []) (List.Forall₂ Entry.Denotes entries) [] := by
  have bareEnd : BareAhead [] := by
    intro first isFirst
    cases isFirst
  cases entries with
  | nil => exact (nonempty rfl).elim
  | cons entry entries =>
      rw [List.forall_mem_cons] at wellFormed readable
      rw [Entry.lines_cons]
      apply Reads.rule
      apply (reads_statement wellFormed.1 readable.1).bind
      intro found denotes
      apply (readsMany_lines wellFormed.2 readable.2 bareEnd refuses_pair_nil).many.bind
      intro others denote
      apply (refuses_lineEnds bareEnd).optional.discard.bind
      intro _ _
      apply reads_atEnd.bind
      rintro _ rfl
      exact .pure (List.rel_append denotes denote)

/-- A document is refused if something is left that is no pair. -/
theorem refuses_document_of_left {between : List Char}
    (first : Reads (statements reader) ahead (fun _ => True) between)
    (others : ReadsMany (do
        discard lineEnds
        statements reader) between (fun _ => True) last)
    (bareLast : BareAhead last) (left : last ≠ []) : Refuses (document reader) ahead := by
  have notEnd : last.isEmpty = false := by simpa using left
  apply Refuses.rule
  apply first.bind_refuses
  intro _ _
  apply others.many.bind_refuses
  intro _ _
  apply (refuses_lineEnds bareLast).optional.discard.bind_refuses
  intro _ _
  apply reads_atEnd.bind_refuses
  rintro _ rfl
  rw [notEnd]
  exact refuses_fail

theorem refuses_document (wellFormed : ∀ entry ∈ entries, entry.WellFormed)
    (readable : ∀ entry ∈ entries, entry.Readable reader) (bareLast : BareAhead last)
    (noMore : Refuses (pair reader) last) (left : last ≠ []) :
    Refuses (document reader) (Entry.lines entries last) := by
  cases entries with
  | nil =>
      have nothing := (reads_noStatement bareLast noMore).imp fun _ _ => trivial
      exact refuses_document_of_left nothing
        (.stop (refuses_lineEnds bareLast).discard.bind trivial) bareLast left
  | cons entry entries =>
      rw [List.forall_mem_cons] at wellFormed readable
      have others := (readsMany_lines wellFormed.2 readable.2 bareLast noMore).imp
        fun _ _ => trivial
      rw [Entry.lines_cons]
      exact refuses_document_of_left
        ((reads_statement wellFormed.1 readable.1).imp fun _ _ => trivial) others bareLast left

end Statements

section Tables

/-- The value is a number, or a string that is well formed. -/
def Value.IsScalar : Value → Prop
  | .integer _ | .string (some _) => True
  | .string none | .datetime | .float | .boolean | .array _ | .table _ => False

/-- The key of the root that the entry makes. -/
def Entry.Enters (entry : Entry) (node : Text × Node) : Prop :=
  ∃ line, node = (textOf entry.key, .value line entry.value)

theorem find?_add {tables : Tables} {key other : Text} (node : Node) (different : other ≠ key)
    (fresh : tables.find? Tables.root other = none) :
    (tables.add Tables.root key node).find? Tables.root other = none := by
  have apart : ((Tables.root, other) == (Tables.root, key)) = false := by simpa using different
  have absent : tables.nodes.lookup (Tables.root, other) = none := fresh
  simp only [Tables.find?, Tables.add, List.lookup_append, absent, Option.none_or,
    List.lookup_cons, List.lookup_nil, apart]

theorem atRoot_add (tables : Tables) (key : Text) (node : Node) :
    (tables.add Tables.root key node).atRoot = tables.atRoot ++ [(key, node)] := by
  simp [Tables.atRoot, Tables.add]

theorem enterPair_scalar {tables : Tables} {key : Text} {value : Value} {keyLine line : Nat}
    (scalar : value.IsScalar) (fresh : tables.find? Tables.root key = none) :
    tables.enterPair Tables.root (.mk (some key) keyLine value line) =
      .ok (tables.add Tables.root key (.value line value)) := by
  have checked : Tables.checkValue line value = .ok () := by
    match value with
    | .integer _ | .string (some _) => rfl
  match value with
  | .integer _ | .string (some _) =>
      simp only [Tables.enterPair, Tables.textOf, checked, Tables.enterValue, bind, Except.bind,
        fresh]

theorem enterAll_entries {tables : Tables} {found : List Statement}
    (denote : List.Forall₂ Entry.Denotes entries found)
    (scalar : ∀ entry ∈ entries, entry.value.IsScalar)
    (distinct : (entries.map fun entry => textOf entry.key).Nodup)
    (fresh : ∀ entry ∈ entries, tables.find? Tables.root (textOf entry.key) = none) :
    ∃ after nodes, tables.enterAll Tables.root found = .ok after ∧
      after.atRoot = tables.atRoot ++ nodes ∧ List.Forall₂ Entry.Enters entries nodes := by
  induction denote generalizing tables with
  | nil => exact ⟨tables, [], rfl, by simp, .nil⟩
  | @cons entry statement entries found denotes _ ih =>
      rcases denotes with ⟨keyLine, line, rfl⟩
      rw [List.forall_mem_cons] at scalar fresh
      rw [List.map_cons, List.nodup_cons] at distinct
      have others : ∀ other ∈ entries,
          (tables.add Tables.root (textOf entry.key) (.value line entry.value)).find? Tables.root
            (textOf other.key) = none := by
        intro other mem
        apply find?_add _ _ (fresh.2 other mem)
        intro same
        exact distinct.1 (same ▸ List.mem_map_of_mem mem)
      rcases ih scalar.2 distinct.2 others with ⟨after, nodes, entered, root, enter⟩
      refine ⟨after, (textOf entry.key, .value line entry.value) :: nodes, ?_, ?_,
        .cons ⟨line, rfl⟩ enter⟩
      · rw [Tables.enterAll, enterPair_scalar scalar.1 fresh.1]
        exact entered
      · rw [root, atRoot_add, List.append_assoc]
        rfl

end Tables

section Read

theorem statementsOf_of_ok {chars : List Char} {found : List Statement} {after : Place}
    (parsed : document (value (chars.length + 1)) (Place.start (textOf chars)) =
      .ok (found, after)) : statementsOf (textOf chars) = .ok found := by
  simp only [statementsOf, ahead_start, parsed]

theorem statementsOf_of_error {chars : List Char} {furthest : Nat}
    (failed : document (value (chars.length + 1)) (Place.start (textOf chars)) =
      .error furthest) : statementsOf (textOf chars) = .error (lineAt chars furthest) := by
  simp only [statementsOf, ahead_start, failed]

/-- A document of entries whose values are read has their keys at its root, in order. -/
theorem read_lines (wellFormed : ∀ entry ∈ entries, entry.WellFormed)
    (readable : ∀ entry ∈ entries, ∀ depth, entry.Readable (value (depth + 1)))
    (scalar : ∀ entry ∈ entries, entry.value.IsScalar)
    (distinct : (entries.map fun entry => textOf entry.key).Nodup) (nonempty : entries ≠ []) :
    ∃ nodes, read (textOf (Entry.lines entries [])) = .ok nodes ∧
      List.Forall₂ Entry.Enters entries nodes := by
  have reads : ∀ depth, Reads (document (value (depth + 1))) (Entry.lines entries [])
      (List.Forall₂ Entry.Denotes entries) [] := fun depth =>
    reads_document wellFormed (fun entry mem => readable entry mem depth) nonempty
  generalize Entry.lines entries [] = chars at reads
  rcases reads chars.length _ (ahead_start chars) with ⟨found, after, parsed, denote, _⟩
  rcases @enterAll_entries _ .empty _ denote scalar distinct (fun _ _ => rfl) with
    ⟨tables, nodes, entered, root, enter⟩
  refine ⟨nodes, ?_, enter⟩
  rw [read, statementsOf_of_ok parsed]
  simp only [entered]
  exact congrArg Except.ok root

/-- A document is malformed if its entries are followed by a line whose value is refused. -/
theorem read_refused (wellFormed : ∀ entry ∈ entries, entry.WellFormed)
    (readable : ∀ entry ∈ entries, ∀ depth, entry.Readable (value (depth + 1)))
    (entryFormed : entry.WellFormed)
    (refused : ∀ depth, Refuses (value (depth + 1)) (entry.written ++ more)) :
    ∃ line, read (textOf (Entry.lines entries (entry.line ++ more))) =
      .error ⟨line, .malformed⟩ := by
  have left : entry.line ++ more ≠ [] := by simp [Entry.line]
  have refuses : ∀ depth, Refuses (document (value (depth + 1)))
      (Entry.lines entries (entry.line ++ more)) := fun depth =>
    refuses_document wellFormed (fun entry mem => readable entry mem depth)
      (bareAhead_line entryFormed) (refuses_pair entryFormed (refused depth)) left
  generalize Entry.lines entries (entry.line ++ more) = chars at refuses
  rcases refuses chars.length _ (ahead_start chars) with ⟨furthest, failed⟩
  refine ⟨lineAt chars furthest, ?_⟩
  rw [read, statementsOf_of_error failed]

end Read

end LoxLang.Toml
