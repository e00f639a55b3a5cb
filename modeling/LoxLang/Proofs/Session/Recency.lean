import LoxLang.Proofs.Scope.Names
import LoxLang.Proofs.Session.Verdict
import Mathlib.Data.List.Dedup

/-!
# What the cache remembers

The cache of a session holds the sources that were used last, as many of them as it has room for. A
compilation uses its source if the source is in the cache already, or if it is put there because no
complaint stands, neither before it nor after it.

The invariant relates the cache to the whole history of the session. `recency` lists the sources
that were ever used in the order of their latest uses, the last one first, and the cache holds the
first of them. A source is therefore found exactly if fewer different sources than the cache has
room for have been used since it was used itself.
-/

namespace LoxLang

section Recency

variable {uses before since : List Text} {source : Text}

/-- The order of sources after a use. -/
def promote (order : List Text) (source : Text) : List Text :=
  source :: order.filter (· ≠ source)

/-- The sources of a sequence of uses in the order of their latest uses, the last one first. -/
def recency (uses : List Text) : List Text := uses.foldl promote []

theorem recency_concat (uses : List Text) (source : Text) :
    recency (uses ++ [source]) = promote (recency uses) source := by
  simp [recency]

theorem mem_recency_iff : source ∈ recency uses ↔ source ∈ uses := by
  induction uses using List.reverseRecOn with
  | nil => simp [recency]
  | append_singleton uses last ih =>
      rw [recency_concat, promote, List.mem_cons, List.mem_filter, ih]
      by_cases same : source = last <;> simp [same]

theorem nodup_recency (uses : List Text) : (recency uses).Nodup := by
  induction uses using List.reverseRecOn with
  | nil => exact List.nodup_nil
  | append_singleton uses last ih =>
      rw [recency_concat, promote, List.nodup_cons]
      exact ⟨by simp, ih.filter _⟩

theorem length_recency (uses : List Text) : (recency uses).length = uses.dedup.length := by
  apply List.Perm.length_eq
  rw [List.perm_ext_iff_of_nodup (nodup_recency uses) (List.nodup_dedup uses)]
  intro source
  rw [mem_recency_iff, List.mem_dedup]

/-- Before a source come exactly the sources that were used since. -/
theorem exists_recency_eq (before : List Text) (unused : source ∉ since) :
    ∃ rest, recency (before ++ source :: since) = recency since ++ source :: rest := by
  induction since using List.reverseRecOn with
  | nil => exact ⟨(recency before).filter (· ≠ source), recency_concat before source⟩
  | append_singleton since last ih =>
      rw [List.mem_append, not_or, List.mem_singleton] at unused
      rcases ih unused.1 with ⟨rest, order⟩
      refine ⟨rest.filter (· ≠ last), ?_⟩
      rw [← List.cons_append, ← List.append_assoc, recency_concat, order, recency_concat, promote,
        promote, List.filter_append, List.filter_cons_of_pos (by simpa using unused.2),
        List.cons_append]

theorem mem_take_iff_length_lt {order rest : List Text} {room : Nat}
    (nodup : (order ++ source :: rest).Nodup) :
    source ∈ (order ++ source :: rest).take room ↔ order.length < room := by
  have earlier : source ∉ order := fun mem =>
    (List.disjoint_of_nodup_append nodup) mem List.mem_cons_self
  rw [List.take_append, List.mem_append]
  constructor
  · rintro (mem | mem)
    · exact absurd (List.mem_of_mem_take mem) earlier
    · by_contra full
      rw [Nat.sub_eq_zero_of_le (Nat.le_of_not_lt full)] at mem
      simp at mem
  · intro space
    obtain ⟨more, space⟩ := Nat.exists_eq_add_of_lt space
    refine .inr ?_
    rw [space, show order.length + more + 1 - order.length = more + 1 by omega]
    exact List.mem_cons_self

theorem exists_last_of_mem (mem : source ∈ uses) :
    ∃ before since, uses = before ++ source :: since ∧ source ∉ since := by
  rcases List.eq_append_cons_of_mem (List.mem_reverse.mpr mem) with ⟨since, before, split, unused⟩
  refine ⟨before.reverse, since.reverse, ?_, by simpa using unused⟩
  rw [← List.reverse_reverse uses, split]
  simp

/-- The source was used, and fewer different sources than there is room for have been used since it
was used last. -/
def RecentlyUsed (room : Nat) (uses : List Text) (source : Text) : Prop :=
  ∃ before since, uses = before ++ source :: since ∧ source ∉ since ∧ since.dedup.length < room

theorem mem_take_recency_iff {room : Nat} :
    source ∈ (recency uses).take room ↔ RecentlyUsed room uses source := by
  constructor
  · intro mem
    have used := mem_recency_iff.mp (List.mem_of_mem_take mem)
    rcases exists_last_of_mem used with ⟨before, since, rfl, unused⟩
    rcases exists_recency_eq before unused with ⟨rest, order⟩
    have nodup := nodup_recency (before ++ source :: since)
    rw [order] at mem nodup
    rw [mem_take_iff_length_lt nodup, length_recency] at mem
    exact ⟨before, since, rfl, unused, mem⟩
  · rintro ⟨before, since, rfl, unused, space⟩
    rcases exists_recency_eq before unused with ⟨rest, order⟩
    have nodup := nodup_recency (before ++ source :: since)
    rw [order] at nodup ⊢
    rwa [mem_take_iff_length_lt nodup, length_recency]

/-- Leaving one source out of the first ones leaves all but perhaps the last of them in place. -/
theorem take_filter_take {order : List Text} (nodup : order.Nodup) (room : Nat) (source : Text) :
    ((order.take (room + 1)).filter (· ≠ source)).take room =
      (order.filter (· ≠ source)).take room := by
  induction order generalizing room with
  | nil => simp
  | cons first rest ih =>
      rw [List.nodup_cons] at nodup
      rw [List.take_succ_cons]
      by_cases same : first = source
      · -- What follows does not hold the source any more, so nothing else is left out.
        subst same
        have kept : ∀ other ∈ rest, decide (other ≠ first) = true := fun other mem =>
          decide_eq_true fun same => nodup.1 (same ▸ mem)
        rw [List.filter_cons_of_neg (by simp), List.filter_cons_of_neg (by simp),
          List.filter_eq_self.mpr kept,
          List.filter_eq_self.mpr fun other mem => kept other (List.mem_of_mem_take mem),
          List.take_take, Nat.min_self]
      · rw [List.filter_cons_of_pos (by simpa using same),
          List.filter_cons_of_pos (by simpa using same)]
        cases room with
        | zero => simp
        | succ room => rw [List.take_succ_cons, List.take_succ_cons, ih nodup.2]

theorem take_promote_take {order : List Text} (nodup : order.Nodup) (room : Nat) (source : Text) :
    (promote (order.take room) source).take room = (promote order source).take room := by
  cases room with
  | zero => simp
  | succ room => rw [promote, promote, List.take_succ_cons, List.take_succ_cons,
      take_filter_take nodup]

end Recency

namespace Cache

variable {α : Type} {cache : Cache α} {source : Text}

/-- The sources that a cache holds, the one used last first. -/
def sources (cache : Cache α) : List Text := cache.entries.map Prod.fst

theorem isSome_find?_iff : (cache.find? source).isSome = true ↔ source ∈ cache.sources :=
  isSome_lookup_iff

theorem sources_use (cache : Cache α) (source : Text) (content : α) :
    (cache.use source content).sources = (promote cache.sources source).take cache.capacity := by
  rw [sources, use, List.map_take, List.map_cons, promote, sources, List.filter_map]
  rfl

/-- The cache has that much room and holds the sources that were used last, as many as fit. -/
structure Remembers (room : Nat) (uses : List Text) (cache : Cache α) : Prop where
  capacity : cache.capacity = room
  sources : cache.sources = (recency uses).take room

variable {room : Nat} {uses : List Text}

theorem remembers_new (size : Int) : (new size : Cache α).Remembers size.toNat [] :=
  ⟨rfl, by simp [sources, new, recency]⟩

theorem Remembers.use (remembers : cache.Remembers room uses) (source : Text) (content : α) :
    (cache.use source content).Remembers room (uses ++ [source]) := by
  refine ⟨remembers.capacity, ?_⟩
  rw [sources_use, remembers.capacity, remembers.sources, recency_concat,
    take_promote_take (nodup_recency uses)]

theorem Remembers.nodup (remembers : cache.Remembers room uses) : cache.sources.Nodup := by
  rw [remembers.sources]
  exact (nodup_recency uses).sublist (List.take_sublist _ _)

theorem Remembers.length_le (remembers : cache.Remembers room uses) :
    cache.entries.length ≤ room := by
  rw [← List.length_map Prod.fst]
  change cache.sources.length ≤ room
  rw [remembers.sources]
  exact List.length_take_le _ _

theorem Remembers.mem_iff (remembers : cache.Remembers room uses) :
    source ∈ cache.sources ↔ RecentlyUsed room uses source := by
  rw [remembers.sources, mem_take_recency_iff]

theorem mem_sources_use (positive : 0 < cache.capacity) (source : Text) (content : α) :
    source ∈ (cache.use source content).sources := by
  rw [sources_use]
  obtain ⟨room, more⟩ := Nat.exists_eq_add_of_lt positive
  rw [more, promote, List.take_succ_cons]
  exact List.mem_cons_self

theorem entries_use_subset {content : α} (found : cache.find? source = some content) :
    (cache.use source content).entries ⊆ cache.entries := by
  rcases List.lookup_eq_some_iff.mp found with ⟨before, after, entries, _⟩
  intro entry mem
  rcases List.mem_cons.mp (List.mem_of_mem_take mem) with rfl | mem
  · simp [entries]
  · exact (List.mem_filter.mp mem).1

end Cache

namespace Session

variable {session : Session} {limit : Int} {source : Text} {statements : List Stmt}

/-- The source is in the cache. -/
def Hits (session : Session) (source : Text) : Prop := (session.cache.find? source).isSome = true

instance : Decidable (session.Hits source) := inferInstanceAs (Decidable (_ = true))

/-- Compiling the source uses it: it is in the cache, or no complaint stands before and after. -/
def Uses (session : Session) (source : Text) : Prop :=
  session.Hits source ∨
    session.console.hadError = false ∧ (session.compile source).1.console.hadError = false

instance : Decidable (session.Uses source) := inferInstanceAs (Decidable (_ ∨ _ ∧ _))

/-- The sources that are used in a history, one after the other. -/
def uses (session : Session) : List (FileSystem × Step) → List Text
  | [] => []
  | (files, step) :: history =>
    (step.source? files).toList.filter (session.Uses ·) ++ uses (session.after files step).1 history

theorem uses_concat (session : Session) (history : List (FileSystem × Step)) (files : FileSystem)
    (step : Step) :
    session.uses (history ++ [(files, step)]) = session.uses history ++
      (step.source? files).toList.filter ((session.afterHistory history).Uses ·) := by
  induction history generalizing session with
  | nil =>
      rw [List.nil_append, uses, uses, uses, List.append_nil, List.nil_append]
      rfl
  | cons move history ih =>
      rw [List.cons_append, uses, ih, uses, List.append_assoc]
      rfl

section Compilation

theorem size_reportAll (session : Session) (diagnostics : List Diagnostic) :
    (session.reportAll diagnostics).events.size = session.events.size + diagnostics.length := by
  induction diagnostics generalizing session with
  | nil => rfl
  | cons diagnostic diagnostics ih =>
      have reported : (session.report diagnostic).events.size = session.events.size + 1 :=
        Array.size_push _
      change ((session.report diagnostic).reportAll diagnostics).events.size = _
      rw [ih, reported, List.length_cons]
      omega

theorem size_log (session : Session) (message : Text) (fields : List (Text × Text)) :
    (session.log message fields).events.size = session.events.size + 1 :=
  Array.size_push _

theorem lt_size_compileAnew (session : Session) (source : Text) :
    session.events.size + 1 < (session.compileAnew source).1.events.size := by
  simp only [compileAnew]
  split
  · rw [size_log, size_reportAll, size_log, size_reportAll]
    omega
  · split <;> simp only [size_log, size_reportAll] <;> omega

/-- The cache is consulted exactly if the compilation is recorded as a hit, and as nothing else. -/
theorem hits_iff_recorded :
    session.Hits source ↔ ∃ fields, (session.compile source).1.events =
      session.events.push (.logged ⟨"parse cache hit", fields⟩) := by
  rw [Hits, compile]
  cases session.cache.find? source with
  | some statements => exact iff_of_true rfl ⟨_, rfl⟩
  | none =>
      refine iff_of_false (by simp) ?_
      rintro ⟨fields, recorded⟩
      have larger := lt_size_compileAnew session source
      rw [recorded, Array.size_push] at larger
      omega

theorem compile_hadError (sound : session.Sound limit) (source : Text) :
    (session.compile source).1.console.hadError =
      (session.console.hadError || !(complaints limit source).isEmpty) :=
  (congrArg (·.console.hadError) (compile_compiled sound source).effect).trans
    (reportAll_hadError session.bare _)

theorem uses_iff (sound : session.Sound limit) :
    session.Uses source ↔ session.Hits source ∨
      session.console.hadError = false ∧ complaints limit source = [] := by
  rw [Uses, compile_hadError sound]
  cases session.console.hadError <;> simp

theorem compileAnew_cache_of_refused
    (refused : session.console.hadError = true ∨ complaints session.limit source ≠ []) :
    (session.compileAnew source).1.cache = session.cache := by
  have scannedLimit : ∀ message fields,
      ((session.reportAll (scan source).diagnostics).log message fields).limit = session.limit :=
    fun _ _ => reportAll_limit _ _
  simp only [compileAnew, scannedLimit]
  generalize parsed : parse session.limit (scan source).tokens = result
  rcases result with ⟨outcome, diagnostics⟩
  -- The session when everything has been reported, and only records follow.
  generalize told : Session.reportAll (Session.log _ _ _) diagnostics = after
  have afterCache : after.cache = session.cache := by
    rw [← told, reportAll_cache]
    exact reportAll_cache _ _
  have marked : after.console.hadError = true := by
    have scannedMark : ∀ message fields,
        ((session.reportAll (scan source).diagnostics).log message fields).console.hadError =
          (session.console.hadError || !(scan source).diagnostics.isEmpty) :=
      fun _ _ => reportAll_hadError _ _
    rw [complaints, parsed, ne_eq, List.append_eq_nil_iff, not_and_or] at refused
    rw [← told, reportAll_hadError, scannedMark]
    simpa [or_assoc] using refused
  cases outcome with
  | error halt => exact afterCache
  | ok statements =>
      have logged : ∀ message fields, (after.log message fields).console.hadError = true :=
        fun _ _ => marked
      simp only [logged, Bool.or_true, if_true]
      exact afterCache

theorem compileAnew_cache_of_compiles (unmarked : session.console.hadError = false)
    (compiles : Compiles session.limit source statements) :
    (session.compileAnew source).1.cache = session.cache.use source statements := by
  simp [compileAnew, compiles.1, compiles.2, reportAll, unmarked, log, emit]

theorem compile_cache_of_hit {content : List Stmt}
    (found : session.cache.find? source = some content) :
    (session.compile source).1.cache = session.cache.use source content := by
  simp only [compile, found]
  rfl

theorem compile_cache_of_not_uses (sound : session.Sound limit) (unused : ¬session.Uses source) :
    (session.compile source).1.cache = session.cache := by
  rcases sound with ⟨rfl, holds⟩
  rw [uses_iff ⟨rfl, holds⟩, not_or, not_and_or, Bool.not_eq_false] at unused
  rw [compile, Option.not_isSome_iff_eq_none.mp unused.1]
  exact compileAnew_cache_of_refused unused.2

theorem compile_cache_of_uses (sound : session.Sound limit) (used : session.Uses source) :
    ∃ content, (session.compile source).1.cache = session.cache.use source content := by
  rcases sound with ⟨rfl, holds⟩
  cases found : session.cache.find? source with
  | some content => exact ⟨content, compile_cache_of_hit found⟩
  | none =>
      have missed : ¬session.Hits source := by simp [Hits, found]
      rcases ((uses_iff ⟨rfl, holds⟩).mp used).resolve_left missed with ⟨unmarked, silent⟩
      rcases exists_compiles silent with ⟨statements, compiles⟩
      refine ⟨statements, ?_⟩
      rw [compile, found]
      exact compileAnew_cache_of_compiles unmarked compiles

end Compilation

section Histories

variable {room : Nat} {used : List Text}

theorem run_cache (session : Session) (source : Text) :
    (session.run source).1.cache = (session.compile source).1.cache := by
  rw [run_eq_performed]
  rcases session.compile source with ⟨after, outcome⟩
  cases outcome with
  | none => rfl
  | some statements =>
      rw [performed]
      split
      · rfl
      · exact concluded_keeps (·.cache) (fun _ _ _ => rfl) (fun _ _ => rfl) _ _

theorem run_remembers (sound : session.Sound limit) (remembers : session.cache.Remembers room used)
    (source : Text) :
    (session.run source).1.cache.Remembers room (used ++ [source].filter (session.Uses ·)) := by
  rw [run_cache]
  by_cases uses : session.Uses source
  · rcases compile_cache_of_uses sound uses with ⟨content, cached⟩
    rw [cached, List.filter_cons_of_pos (by simpa using uses)]
    exact remembers.use source content
  · rw [compile_cache_of_not_uses sound uses, List.filter_cons_of_neg (by simpa using uses),
      List.filter_nil, List.append_nil]
    exact remembers

theorem after_remembers (sound : session.Sound limit)
    (remembers : session.cache.Remembers room used) (files : FileSystem) (step : Step) :
    (session.after files step).1.cache.Remembers room
      (used ++ (step.source? files).toList.filter (session.Uses ·)) := by
  cases step with
  | run source => exact run_remembers sound remembers source
  | runLine line => exact run_remembers sound remembers line
  | runFile path =>
      simp only [after, runFile, Step.source?]
      cases files.read path with
      | error error => simpa [Except.toOption] using remembers
      | ok source =>
          -- A record in the log makes no difference to what is used.
          have alike : ∀ message fields other,
              (session.log message fields).Uses other ↔ session.Uses other := fun _ _ other => by
            rw [uses_iff sound]
            exact @uses_iff (session.log _ _) limit other sound
          have ran := @run_remembers (session.log "running file"
            [("path", path), ("bytes", Text.ofNat source.length)]) limit room used sound remembers
            source
          simpa only [alike, Except.toOption, Option.toList_some] using ran
  | reset => simpa [after, reset, Step.source?] using remembers

theorem afterHistory_remembers (sound : session.Sound limit)
    (remembers : session.cache.Remembers room []) (history : List (FileSystem × Step)) :
    (session.afterHistory history).cache.Remembers room (session.uses history) := by
  induction history using List.reverseRecOn with
  | nil => exact remembers
  | append_singleton history move ih =>
      rcases move with ⟨files, step⟩
      rw [afterHistory_concat, uses_concat]
      exact after_remembers (afterHistory_sound sound history) ih files step

end Histories

theorem compile_hits_iff (sound : session.Sound limit) (positive : 0 < session.cache.capacity) :
    (session.compile source).1.Hits source ↔ session.Uses source := by
  rw [Hits, Cache.isSome_find?_iff]
  constructor
  · intro mem
    by_contra unused
    rw [compile_cache_of_not_uses sound unused, ← Cache.isSome_find?_iff] at mem
    exact unused (.inl mem)
  · intro used
    rcases compile_cache_of_uses sound used with ⟨content, cached⟩
    rw [cached]
    exact Cache.mem_sources_use positive source content

theorem compile_entries_subset (sound : session.Sound limit)
    (refused : session.console.hadError = true ∨ complaints limit source ≠ []) :
    (session.compile source).1.cache.entries ⊆ session.cache.entries := by
  cases found : session.cache.find? source with
  | some content =>
      rw [compile_cache_of_hit found]
      exact Cache.entries_use_subset found
  | none =>
      have unused : ¬session.Uses source := by
        rw [uses_iff sound, Hits, found]
        rcases refused with marked | complained
        · simp [marked]
        · simp [complained]
      rw [compile_cache_of_not_uses sound unused]
      exact List.Subset.refl _

/-- After any history, a source is found in the cache, and its compilation is recorded as a hit,
exactly if it was used recently. The cache holds it after its compilation exactly if that is a use.
Where a complaint stands or is made nothing is added, and there are never more entries than there is
room for, nor two for one source. -/
theorem hits_iff_recentlyUsed (limit size : Int) (positive : 1 ≤ size) (budget : Nat)
    (console : Console) (sink : Sink) (history : List (FileSystem × Step)) (source : Text) :
    let start := new limit size budget console sink
    let session := start.afterHistory history
    (session.Hits source ↔ RecentlyUsed size.toNat (start.uses history) source) ∧
      (session.Hits source ↔ ∃ fields, (session.compile source).1.events =
        session.events.push (.logged ⟨"parse cache hit", fields⟩)) ∧
      ((session.compile source).1.Hits source ↔ session.Uses source) ∧
      (session.console.hadError = true ∨ complaints limit source ≠ [] →
        (session.compile source).1.cache.entries ⊆ session.cache.entries) ∧
      session.cache.entries.length ≤ size ∧ session.cache.sources.Nodup := by
  intro start session
  have startSound : start.Sound limit := new_sound ..
  have sound : session.Sound limit := afterHistory_sound startSound history
  have remembers : session.cache.Remembers size.toNat (start.uses history) :=
    afterHistory_remembers startSound (Cache.remembers_new size) history
  have space : 0 < session.cache.capacity := by
    rw [remembers.capacity]
    omega
  have atMost := remembers.length_le
  refine ⟨?_, hits_iff_recorded, compile_hits_iff sound space, compile_entries_subset sound,
    by omega, remembers.nodup⟩
  rw [Hits, Cache.isSome_find?_iff, remembers.mem_iff]

/-- Of three sources, the second with a complaint, the third is remembered and the first forgotten
where there is room for one. -/
theorem hits_iff_recentlyUsed_forgets :
    let files : FileSystem := ⟨"/", fun _ => .error .notFound⟩
    let start := new 512 1 1 (.new false) .unlimited
    let history : List (FileSystem × Step) :=
      [(files, .runLine "print 1;"), (files, .runLine "("), (files, .runLine "print 2;")]
    let session := start.afterHistory history
    start.uses history = ["print 1;", "print 2;"] ∧ session.Hits "print 2;" ∧
      ¬RecentlyUsed 1 (start.uses history) "print 1;" := by
  intro files start history session
  have used : start.uses history = ["print 1;", "print 2;"] := by decide +kernel
  have law := hits_iff_recentlyUsed 512 1 (by decide) 1 (.new false) .unlimited history
  have forgotten : ¬session.Hits "print 1;" := by decide +kernel
  refine ⟨used, (law "print 2;").1.mpr ?_, fun recent => forgotten ((law "print 1;").1.mpr recent)⟩
  exact ⟨["print 1;"], [], used, by simp, by decide⟩

end Session

end LoxLang
