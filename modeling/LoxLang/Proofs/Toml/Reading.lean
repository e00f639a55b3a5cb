import LoxLang.Toml.Reader

/-!
# What readers read

Whether a reader succeeds, what it reads and what it leaves depend on the characters ahead alone,
but for the numbers of lines in its result; the furthest offset matters only to complaints. So
readers are described by two statements about the characters ahead: `Reads` says what is read and
what is left, and `Refuses` that the reader fails. Every way of combining readers has a rule for
each.
-/

namespace LoxLang.Toml

open Reader

variable {α β : Type}

/-- Wherever these characters are ahead, the reader reads something that is wanted and leaves the
rest of them. -/
def Reads (reader : Reader α) (ahead : List Char) (wanted : α → Prop) (rest : List Char) : Prop :=
  ∀ place : Place, place.ahead = ahead →
    ∃ result after, reader place = .ok (result, after) ∧ wanted result ∧ after.ahead = rest

/-- Wherever these characters are ahead, the reader fails. -/
def Refuses (reader : Reader α) (ahead : List Char) : Prop :=
  ∀ place : Place, place.ahead = ahead → ∃ furthest, reader place = .error furthest

/-- Repeated with any budget that suffices for these characters, the reader reads something that is
wanted and leaves the rest of them. -/
def ReadsMany (reader : Reader α) (ahead : List Char) (wanted : List α → Prop)
    (rest : List Char) : Prop :=
  ∀ budget, ahead.length ≤ budget → Reads (manyWithin reader budget) ahead wanted rest

section Sequence

variable {reader : Reader α} {next : α → Reader β} {ahead between rest : List Char}
  {wanted : α → Prop} {others : β → Prop}

theorem Reads.imp {weaker : α → Prop} (reads : Reads reader ahead wanted rest)
    (weaken : ∀ result, wanted result → weaker result) : Reads reader ahead weaker rest := by
  intro place here
  rcases reads place here with ⟨result, after, read, is, left⟩
  exact ⟨result, after, read, weaken result is, left⟩

theorem Reads.pure {result : α} (is : wanted result) :
    Reads (Pure.pure result) ahead wanted ahead :=
  fun place here => ⟨result, place, rfl, is, here⟩

theorem Reads.bind (first : Reads reader ahead wanted between)
    (second : ∀ result, wanted result → Reads (next result) between others rest) :
    Reads (reader >>= next) ahead others rest := by
  intro place here
  rcases first place here with ⟨result, after, read, is, left⟩
  rcases second result is after left with ⟨last, final, readLast, isLast, leftLast⟩
  refine ⟨last, final, ?_, isLast, leftLast⟩
  calc
    (reader >>= next) place = (reader place >>= fun (result, after) => next result after) := rfl
    _ = .ok (last, final) := by rw [read]; exact readLast

theorem Refuses.bind (refuses : Refuses reader ahead) : Refuses (reader >>= next) ahead := by
  intro place here
  rcases refuses place here with ⟨furthest, failed⟩
  refine ⟨furthest, ?_⟩
  calc
    (reader >>= next) place = (reader place >>= fun (result, after) => next result after) := rfl
    _ = .error furthest := by rw [failed]; rfl

theorem Reads.bind_refuses (first : Reads reader ahead wanted between)
    (second : ∀ result, wanted result → Refuses (next result) between) :
    Refuses (reader >>= next) ahead := by
  intro place here
  rcases first place here with ⟨result, after, read, is, left⟩
  rcases second result is after left with ⟨furthest, failed⟩
  refine ⟨furthest, ?_⟩
  calc
    (reader >>= next) place = (reader place >>= fun (result, after) => next result after) := rfl
    _ = .error furthest := by rw [read]; exact failed

theorem Reads.map {change : α → β}
    (reads : Reads reader ahead (fun result => others (change result)) rest) :
    Reads (change <$> reader) ahead others rest :=
  reads.bind fun _ is => .pure is

theorem Refuses.map {change : α → β} (refuses : Refuses reader ahead) :
    Refuses (change <$> reader) ahead :=
  @Refuses.bind _ _ reader (fun result => Pure.pure (change result)) ahead refuses

theorem Reads.discard (reads : Reads reader ahead wanted rest) :
    Reads (discard reader) ahead (fun _ => True) rest :=
  reads.bind fun _ _ => .pure trivial

theorem Refuses.discard (refuses : Refuses reader ahead) : Refuses (discard reader) ahead :=
  @Refuses.map _ _ reader ahead (fun _ => PUnit.unit) refuses

theorem Reads.rule (reads : Reads reader ahead wanted rest) :
    Reads (rule reader) ahead wanted rest := by
  intro place here
  rcases reads place here with ⟨result, after, read, is, left⟩
  simp only [Reader.rule, read]
  split
  · exact ⟨result, _, rfl, is, left⟩
  · exact ⟨result, _, rfl, is, left⟩

theorem Refuses.rule (refuses : Refuses reader ahead) : Refuses (rule reader) ahead := by
  intro place here
  rcases refuses place here with ⟨furthest, failed⟩
  exact ⟨furthest, by simp only [Reader.rule, failed]⟩

theorem reads_line : Reads line ahead (fun _ => True) ahead :=
  fun place here => ⟨place.line, place, rfl, trivial, here⟩

theorem reads_atEnd : Reads atEnd ahead (· = ahead.isEmpty) ahead :=
  fun place here => ⟨place.ahead.isEmpty, place, rfl, by rw [here], here⟩

theorem refuses_fail : Refuses (fail : Reader α) ahead := fun place _ => ⟨place.furthest, rfl⟩

end Sequence

section Characters

variable {accepts : Char → Bool} {next wanted : Char} {rest : List Char}

theorem reads_char (accepted : accepts next = true) :
    Reads (char accepts) (next :: rest) (· = next) rest := by
  intro place here
  exact ⟨next, place.after next rest, by simp [char, here, accepted], rfl, rfl⟩

theorem refuses_char (refused : accepts next = false) :
    Refuses (char accepts) (next :: rest) := by
  intro place here
  exact ⟨place.furthest, by simp [char, here, refused]⟩

theorem refuses_char_nil : Refuses (char accepts) [] := by
  intro place here
  exact ⟨place.furthest, by simp [char, here]⟩

theorem reads_symbol : Reads (symbol wanted) (wanted :: rest) (fun _ => True) rest :=
  (reads_char (by simp)).discard

theorem refuses_symbol (other : next ≠ wanted) : Refuses (symbol wanted) (next :: rest) :=
  (refuses_char (by simp [other])).discard

theorem refuses_symbols {chars : List Char} (other : next ≠ wanted) :
    Refuses (symbols (wanted :: chars)) (next :: rest) :=
  (refuses_symbol other).bind

end Characters

section Alternatives

variable {reader first second : Reader α} {readers : List (Reader α)} {ahead rest : List Char}
  {wanted : α → Prop}

theorem Reads.either (reads : Reads first ahead wanted rest) :
    Reads (either first second) ahead wanted rest := by
  intro place here
  rcases reads place here with ⟨result, after, read, is, left⟩
  exact ⟨result, after, by simp only [Reader.either, read], is, left⟩

theorem Refuses.either_reads (refuses : Refuses first ahead)
    (reads : Reads second ahead wanted rest) : Reads (either first second) ahead wanted rest := by
  intro place here
  rcases refuses place here with ⟨furthest, failed⟩
  rcases reads { place with furthest } here with ⟨result, after, read, is, left⟩
  exact ⟨result, after, by simp only [Reader.either, failed, read], is, left⟩

theorem Refuses.either (refuses : Refuses first ahead) (also : Refuses second ahead) :
    Refuses (either first second) ahead := by
  intro place here
  rcases refuses place here with ⟨furthest, failed⟩
  rcases also { place with furthest } here with ⟨furthest, failedToo⟩
  exact ⟨furthest, by simp only [Reader.either, failed, failedToo]⟩

theorem Reads.optional (reads : Reads reader ahead wanted rest) :
    Reads (optional reader) ahead (fun result => ∃ found, result = some found ∧ wanted found)
      rest :=
  (Reads.map (reads.imp fun found is => ⟨found, rfl, is⟩)).either

theorem Refuses.optional (refuses : Refuses reader ahead) :
    Reads (optional reader) ahead (· = none) ahead :=
  refuses.map.either_reads (.pure rfl)

end Alternatives

section Repetition

variable {reader : Reader α} {ahead between rest : List Char} {wanted : List α → Prop}

theorem ReadsMany.imp {weaker : List α → Prop} (reads : ReadsMany reader ahead wanted rest)
    (weaken : ∀ results, wanted results → weaker results) :
    ReadsMany reader ahead weaker rest :=
  fun budget enough => (reads budget enough).imp weaken

theorem ReadsMany.stop (refuses : Refuses reader ahead) (is : wanted []) :
    ReadsMany reader ahead wanted ahead := by
  intro budget _
  cases budget with
  | zero => exact .pure is
  | succ budget =>
      apply refuses.optional.bind
      rintro _ rfl
      exact .pure is

theorem ReadsMany.step {sort : α → Prop} (first : Reads reader ahead sort between)
    (shorter : between.length < ahead.length)
    (others : ∀ result, sort result →
      ReadsMany reader between (fun results => wanted (result :: results)) rest) :
    ReadsMany reader ahead wanted rest := by
  intro budget enough
  cases budget with
  | zero => omega
  | succ budget =>
      apply first.optional.bind
      rintro _ ⟨result, rfl, is⟩
      exact (others result is budget (by omega)).bind fun _ wanted => .pure wanted

theorem ReadsMany.many (reads : ReadsMany reader ahead wanted rest) :
    Reads (many reader) ahead wanted rest := by
  intro place here
  exact reads place.ahead.length (Nat.le_of_eq (by rw [here])) place here

theorem ReadsMany.manyOne {sort : α → Prop} (first : Reads reader ahead sort between)
    (others : ∀ result, sort result →
      ReadsMany reader between (fun results => wanted (result :: results)) rest) :
    Reads (manyOne reader) ahead wanted rest :=
  first.bind fun result is => (others result is).many.bind fun _ wanted => .pure wanted

/-- Items that are read one by one are read together, up to where the reader fails. -/
theorem readsMany_items {items : List β} {spelling : β → List Char} {result : β → α}
    (reads : ∀ item ∈ items, ∀ rest, Reads reader (spelling item ++ rest) (· = result item) rest)
    (nonempty : ∀ item ∈ items, spelling item ≠ []) (stop : Refuses reader rest) :
    ReadsMany reader (items.flatMap spelling ++ rest) (· = items.map result) rest := by
  induction items with
  | nil => exact .stop stop rfl
  | cons item items ih =>
      rw [List.forall_mem_cons] at reads nonempty
      rw [List.flatMap_cons, List.append_assoc]
      apply ReadsMany.step (reads.1 _)
      · simp [List.length_pos_iff.mpr nonempty.1]
      · rintro _ rfl
        exact (ih reads.2 nonempty.2).imp fun _ same => congrArg (_ :: ·) same

theorem readsMany_chars {accepts : Char → Bool} {chars : List Char}
    (accepted : ∀ char ∈ chars, accepts char = true) (stop : Refuses (char accepts) rest) :
    ReadsMany (char accepts) (chars ++ rest) (· = chars) rest := by
  have reads := @readsMany_items _ _ _ rest chars (fun char => [char]) id
    (fun char mem rest => reads_char (accepted char mem)) (by simp) stop
  simpa using reads

end Repetition

section Invariants

variable {reader : Reader α} {next : α → Reader β} {good : List Char → Prop}

/-- Where the characters ahead are good, the reader fails or leaves good ones. -/
def Keeps (reader : Reader α) (good : List Char → Prop) : Prop :=
  ∀ place : Place, good place.ahead → ∀ result after, reader place = .ok (result, after) →
    good after.ahead

theorem keeps_of_cases (cases : ∀ ahead, good ahead →
      Refuses reader ahead ∨ ∃ wanted rest, Reads reader ahead wanted rest ∧ good rest) :
    Keeps reader good := by
  intro place isGood result after read
  rcases cases _ isGood with refuses | ⟨wanted, rest, reads, restGood⟩
  · rcases refuses place rfl with ⟨furthest, failed⟩
    cases failed.symm.trans read
  · rcases reads place rfl with ⟨found, stop, readAlso, _, rfl⟩
    cases readAlso.symm.trans read
    exact restGood

theorem Keeps.bind (first : Keeps reader good) (second : ∀ result, Keeps (next result) good) :
    Keeps (reader >>= next) good := by
  intro place isGood last final read
  change (reader place >>= fun (result, after) => next result after) = .ok (last, final) at read
  cases started : reader place with
  | error furthest =>
      rw [started] at read
      cases read
  | ok found =>
      rw [started] at read
      exact second found.1 found.2 (first place isGood _ _ started) last final read

theorem Keeps.discard (keeps : Keeps reader good) : Keeps (discard reader) good := by
  apply @Keeps.bind _ _ reader (fun _ => Pure.pure PUnit.unit) good keeps
  rintro _ place isGood _ _ read
  cases read
  exact isGood

theorem Keeps.rule (keeps : Keeps reader good) : Keeps (rule reader) good := by
  intro place isGood result after read
  simp only [Reader.rule] at read
  split at read
  · cases read
  · next found stop inner =>
      have stopGood := keeps place isGood found stop inner
      split at read <;> cases read <;> exact stopGood

/-- What fails on all good characters fails behind a reader that leaves good ones. -/
theorem Keeps.bind_refuses (keeps : Keeps reader good) {ahead : List Char} (isGood : good ahead)
    (refuses : ∀ result rest, good rest → Refuses (next result) rest) :
    Refuses (reader >>= next) ahead := by
  intro place here
  change ∃ furthest,
    (reader place >>= fun (result, after) => next result after) = .error furthest
  cases started : reader place with
  | error furthest => exact ⟨furthest, rfl⟩
  | ok found =>
      exact refuses found.1 _ (keeps place (here ▸ isGood) _ _ started) found.2 rfl

end Invariants

end LoxLang.Toml
