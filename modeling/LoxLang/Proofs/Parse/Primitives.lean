import LoxLang.Parse

/-!
# Reading with a cursor

What each of the parser's primitive readers does to a cursor, as an equation, and the two relations
that longer readings are described with: `Within`, that the nesting limit permits a depth, and
`Cursor.Leads`, that one cursor can be reached from another by reading.
-/

namespace LoxLang.Parse

variable {α β : Type}

/-- A depth that the nesting limit permits. -/
def Within (limit : Int) (depth : Nat) : Prop := ¬(0 < limit ∧ limit < depth)

namespace Within

variable {limit : Int} {depth : Nat}

theorem of_nonpos (off : limit ≤ 0) : Within limit depth := by
  unfold Within
  omega

theorem zero : Within limit 0 := by
  unfold Within
  omega

theorem mono {shallower : Nat} (within : Within limit depth) (le : shallower ≤ depth) :
    Within limit shallower := by
  unfold Within at *
  omega

theorem both {left right : Nat} (leftWithin : Within limit (depth + left))
    (rightWithin : Within limit (depth + right)) : Within limit (depth + max left right) := by
  unfold Within at *
  omega

end Within

namespace Cursor

/-- A cursor that reading may reach from another: no token was put back and no complaint taken
back. -/
structure Leads (start finish : Cursor) : Prop where
  stop : finish.stop = start.stop
  ahead : finish.ahead <:+ start.ahead
  reports : start.reports.toList <+: finish.reports.toList

namespace Leads

variable {start middle finish : Cursor}

theorem refl (start : Cursor) : start.Leads start :=
  ⟨rfl, List.suffix_rfl, List.prefix_rfl⟩

theorem trans (first : start.Leads middle) (second : middle.Leads finish) : start.Leads finish :=
  ⟨second.stop.trans first.stop, second.ahead.trans first.ahead, first.reports.trans second.reports⟩

theorem size_le (leads : start.Leads finish) : start.reports.size ≤ finish.reports.size := by
  simpa using leads.reports.length_le

/-- Where the whole way is silent, so is its first part. -/
theorem quiet (first : start.Leads middle) (second : middle.Leads finish)
    (silent : finish.reports = start.reports) : middle.reports = start.reports := by
  have same : start.reports.toList = middle.reports.toList := by
    apply first.reports.eq_of_length_le
    simpa [silent] using second.reports.length_le
  exact (Array.toList_inj.mp same).symm

end Leads

variable {cursor : Cursor}

theorem leads_advance (cursor : Cursor) : cursor.Leads cursor.advance :=
  ⟨rfl, List.tail_suffix _, List.prefix_rfl⟩

theorem leads_report (cursor : Cursor) (token : Token) (fault : Fault) :
    cursor.Leads (cursor.report token fault) :=
  ⟨rfl, List.suffix_rfl, by simp [report]⟩

theorem current_kind_of_nil (atEnd : cursor.ahead = []) : cursor.current.kind = .eof := by
  simp [current, atEnd, cursor.ends]

theorem exists_ahead (more : cursor.current.kind ≠ .eof) :
    ∃ rest, cursor.ahead = cursor.current :: rest := by
  cases ahead : cursor.ahead with
  | nil => exact absurd (current_kind_of_nil ahead) more
  | cons token rest => exact ⟨rest, by simp [current, ahead]⟩

theorem resumption_suffix (passed : Token) (tokens : List Token) :
    resumption passed tokens <:+ tokens := by
  induction tokens generalizing passed with
  | nil => exact List.suffix_rfl
  | cons token rest ih =>
      unfold resumption
      split
      · exact List.suffix_rfl
      · exact (ih token).trans (List.suffix_cons token rest)

theorem leads_synchronize (cursor : Cursor) : cursor.Leads cursor.synchronize := by
  cases ahead : cursor.ahead with
  | nil => simpa [synchronize, ahead] using Leads.refl cursor
  | cons token rest =>
      have suffix := (resumption_suffix token rest).trans (List.suffix_cons token rest)
      exact ⟨by simp [synchronize, ahead], by simpa [synchronize, ahead] using suffix,
        by simp [synchronize, ahead]⟩

theorem synchronize_length (cursor : Cursor) :
    cursor.synchronize.ahead.length ≤ cursor.ahead.length - 1 := by
  cases ahead : cursor.ahead with
  | nil => simp [synchronize, ahead]
  | cons token rest => simpa [synchronize, ahead] using (resumption_suffix token rest).length_le

/-- The cursor with other tokens ahead of it. -/
def moved (cursor : Cursor) (rest : List Token) : Cursor := { cursor with ahead := rest }

end Cursor

section Equations

variable {cursor : Cursor}

theorem bind_of_ok {first : Reader α} {next : α → Reader β} {value : α} {middle : Cursor}
    (read : first cursor = .ok value middle) : (first >>= next) cursor = next value middle := by
  change EStateM.bind first next cursor = _
  simp [EStateM.bind, read]

theorem bind_of_error {first : Reader α} {next : α → Reader β} {halt : Halt} {middle : Cursor}
    (stopped : first cursor = .error halt middle) :
    (first >>= next) cursor = .error halt middle := by
  change EStateM.bind first next cursor = _
  simp [EStateM.bind, stopped]

theorem ok_of_bind {first : Reader α} {next : α → Reader β} {result : β} {finish : Cursor}
    (read : (first >>= next) cursor = .ok result finish) :
    ∃ value middle, first cursor = .ok value middle ∧ next value middle = .ok result finish := by
  cases outcome : first cursor with
  | error halt middle => simp [bind_of_error outcome] at read
  | ok value middle => exact ⟨value, middle, rfl, by rwa [bind_of_ok outcome] at read⟩

theorem peek_apply : peek cursor = .ok cursor.current cursor := rfl

theorem report_apply {token : Token} {fault : Fault} :
    report token fault cursor = .ok () (cursor.report token fault) := rfl

theorem misread_apply {fault : Fault} :
    (misread fault : Reader α) cursor = .error .misread (cursor.report cursor.current fault) := rfl

theorem accept_of_mem {kinds : List Token.Kind} (mem : cursor.current.kind ∈ kinds) :
    accept kinds cursor = .ok (some cursor.current) cursor.advance := by
  unfold accept
  rw [bind_of_ok peek_apply, if_pos mem]
  rfl

theorem accept_of_not_mem {kinds : List Token.Kind} (notMem : cursor.current.kind ∉ kinds) :
    accept kinds cursor = .ok none cursor := by
  unfold accept
  rw [bind_of_ok peek_apply, if_neg notMem]
  rfl

theorem expect_of_kind {kind : Token.Kind} {fault : Fault} (same : cursor.current.kind = kind) :
    expect kind fault cursor = .ok cursor.current cursor.advance := by
  unfold expect
  rw [bind_of_ok (accept_of_mem (by simp [same]))]
  rfl

theorem expect_of_ne {kind : Token.Kind} {fault : Fault} (other : cursor.current.kind ≠ kind) :
    expect kind fault cursor = .error .misread (cursor.report cursor.current fault) := by
  unfold expect
  rw [bind_of_ok (accept_of_not_mem (by simp [other]))]
  rfl

theorem descend_of_within {limit : Int} {depth : Nat} (within : Within limit depth) :
    descend limit depth cursor = .ok () cursor := by
  unfold descend
  rw [if_neg within]
  rfl

theorem descend_of_not_within {limit : Int} {depth : Nat} (tooDeep : ¬Within limit depth) :
    descend limit depth cursor =
      .error .tooDeep (cursor.report cursor.current .nestingTooDeep) := by
  unfold descend
  rw [if_pos (Classical.not_not.mp tooDeep)]
  rfl

theorem nested_of_within {limit : Int} {depth : Nat} {reader : Reader α}
    (within : Within limit depth) : primitives.nested limit depth reader cursor = reader cursor :=
  bind_of_ok (descend_of_within within)

theorem select_cons {otherwise : Reader α} {kinds : List Token.Kind} {next : Token → Reader α}
    {others : List (List Token.Kind × (Token → Reader α))} :
    primitives.select otherwise ((kinds, next) :: others) cursor =
      if cursor.current.kind ∈ kinds then next cursor.current cursor.advance
      else primitives.select otherwise others cursor := by
  rw [Primitives.select]
  by_cases mem : cursor.current.kind ∈ kinds
  · rw [bind_of_ok (accept_of_mem mem), if_pos mem]
  · rw [bind_of_ok (accept_of_not_mem mem), if_neg mem]

theorem select_nil {otherwise : Reader α} :
    primitives.select otherwise [] cursor = otherwise cursor := by
  rw [Primitives.select]

theorem ok_of_select {otherwise : Reader α} {choices : List (List Token.Kind × (Token → Reader α))}
    {result : α} {finish : Cursor}
    (read : primitives.select otherwise choices cursor = .ok result finish) :
    otherwise cursor = .ok result finish ∨
      ∃ kinds next, (kinds, next) ∈ choices ∧
        next cursor.current cursor.advance = .ok result finish := by
  induction choices with
  | nil => exact Or.inl read
  | cons choice others ih =>
      rcases choice with ⟨kinds, next⟩
      rw [select_cons] at read
      split at read
      · exact Or.inr ⟨kinds, next, List.mem_cons_self, read⟩
      · rcases ih read with other | ⟨kinds, next, mem, chosen⟩
        · exact Or.inl other
        · exact Or.inr ⟨kinds, next, List.mem_cons_of_mem _ mem, chosen⟩

section Attempts

variable {kinds : List Token.Kind} {reader : Reader α} {next : Option (Option α) → Reader β}

theorem attemptUnless_of_stop (stops : cursor.current.kind ∈ kinds ∨ cursor.current.kind = .eof) :
    (attemptUnless kinds reader >>= next) cursor = next none cursor := by
  apply bind_of_ok
  rw [attemptUnless, bind_of_ok peek_apply, if_pos stops]
  rfl

theorem attemptUnless_of_more
    (more : ¬(cursor.current.kind ∈ kinds ∨ cursor.current.kind = .eof)) :
    (attemptUnless kinds reader >>= next) cursor =
      (recovering reader >>= fun value => next (some value)) cursor := by
  cases outcome : recovering reader cursor with
  | ok value middle =>
      rw [bind_of_ok outcome]
      apply bind_of_ok
      rw [attemptUnless, bind_of_ok peek_apply, if_neg more, bind_of_ok outcome]
      rfl
  | error halt stopped =>
      rw [bind_of_error outcome]
      apply bind_of_error
      rw [attemptUnless, bind_of_ok peek_apply, if_neg more, bind_of_error outcome]

variable {limit : Int} {fuel depth : Nat} {done : List Stmt}

theorem block_of_stop
    (stops : cursor.current.kind = .rightBrace ∨ cursor.current.kind = .eof) :
    block limit (fuel + 1) depth done cursor = .ok done.reverse cursor := by
  rw [block, Primitives.block, attemptUnless_of_stop (by rwa [List.mem_singleton])]
  rfl

theorem block_of_more
    (more : ¬(cursor.current.kind = .rightBrace ∨ cursor.current.kind = .eof)) :
    block limit (fuel + 1) depth done cursor =
      (declaration limit fuel depth >>= fun stmt? =>
        block limit fuel depth (stmt?.toList ++ done)) cursor := by
  rw [block, Primitives.block, attemptUnless_of_more (by rwa [List.mem_singleton])]
  rfl

theorem program_of_end (ended : cursor.current.kind = .eof) :
    program limit (fuel + 1) done cursor = .ok done.reverse cursor := by
  rw [program, Primitives.program, attemptUnless_of_stop (Or.inr ended)]
  rfl

theorem program_of_more (more : cursor.current.kind ≠ .eof) :
    program limit (fuel + 1) done cursor =
      (declaration limit fuel 0 >>= fun stmt? =>
        program limit fuel (stmt?.toList ++ done)) cursor := by
  rw [program, Primitives.program, attemptUnless_of_more (by simpa using more)]
  rfl

end Attempts

end Equations

end LoxLang.Parse
