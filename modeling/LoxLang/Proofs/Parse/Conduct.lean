import LoxLang.Proofs.Parse.Primitives
import LoxLang.Proofs.Tree.Shape

/-!
# What readers do

Everything that the parser's readers have in common is one statement about the outcome of each,
`Conduct`. A reader only moves forward and never takes back a complaint. It runs out of budget only
on inputs that are long for it, and when it stops for another reason it has complained. When it
succeeds without a complaint, it has taken exactly the tokens of what it returns.

The statement is compositional, so each reader's instance follows its definition line by line. The
recursion of the readers is on their budget, and so are the inductions.
-/

namespace LoxLang.Parse

variable {α β : Type}

/-- What can come of reading at `start`. The budget suffices for fewer tokens than `room`, a success
takes at least `takes` of them, and one without complaint takes tokens that mean the result. -/
inductive Conduct (room takes : Nat) (meaning : α → List Token → Prop) (start : Cursor) :
    EStateM.Result Halt Cursor α → Prop where
  | done {value : α} {finish : Cursor} (leads : start.Leads finish)
      (shorter : finish.ahead.length + takes ≤ start.ahead.length)
      (read : finish.reports = start.reports →
        ∃ taken, start.ahead = taken ++ finish.ahead ∧ meaning value taken) :
      Conduct room takes meaning start (.ok value finish)
  | exhausted {finish : Cursor} (leads : start.Leads finish)
      (long : room ≤ start.ahead.length) :
      Conduct room takes meaning start (.error .exhausted finish)
  | halted {halt : Halt} {finish : Cursor} (leads : start.Leads finish)
      (cause : halt ≠ .exhausted) (reported : start.reports.size < finish.reports.size) :
      Conduct room takes meaning start (.error halt finish)

namespace Conduct

variable {room takes : Nat} {meaning : α → List Token → Prop} {start : Cursor}

theorem imp {smaller fewer : Nat} {weaker : α → List Token → Prop}
    {result : EStateM.Result Halt Cursor α} (conduct : Conduct room takes meaning start result)
    (roomLe : smaller ≤ room) (takesLe : fewer ≤ takes)
    (weaken : ∀ value taken, meaning value taken → weaker value taken) :
    Conduct smaller fewer weaker start result := by
  cases conduct with
  | done leads shorter read =>
      refine .done leads (by omega) fun silent => ?_
      rcases read silent with ⟨taken, split, means⟩
      exact ⟨taken, split, weaken _ _ means⟩
  | exhausted leads long => exact .exhausted leads (by omega)
  | halted leads cause reported => exact .halted leads cause reported

theorem pure {value : α} (takesNone : takes = 0) (means : meaning value []) :
    Conduct room takes meaning start ((Pure.pure value : Reader α) start) :=
  .done (.refl start) (by omega) fun _ => ⟨[], rfl, means⟩

theorem out_of_budget (roomNone : room = 0) :
    Conduct room takes meaning start ((throw .exhausted : Reader α) start) :=
  .exhausted (.refl start) (by omega)

theorem misread (fault : Fault) :
    Conduct room takes meaning start ((Parse.misread fault : Reader α) start) :=
  .halted (Cursor.leads_report start start.current fault) (by simp)
    (by simp [Cursor.report])

/-- Reading on from where another reader left off. What is left to show about the rest is computed
from what is to be shown about the whole. -/
theorem bind {taken : Nat} {first : Reader β} {next : β → Reader α}
    {firstMeaning : β → List Token → Prop}
    (firstConduct : Conduct room taken firstMeaning start (first start))
    (nextConduct : ∀ value middle, first start = .ok value middle →
      Conduct (room - taken) (takes - taken)
      (fun result others => ∀ before, firstMeaning value before → meaning result (before ++ others))
      middle (next value middle)) :
    Conduct room takes meaning start ((first >>= next) start) := by
  change Conduct room takes meaning start (EStateM.bind first next start)
  unfold EStateM.bind
  generalize first start = outcome at firstConduct nextConduct
  cases firstConduct with
  | exhausted leads long => exact .exhausted leads long
  | halted leads cause reported => exact .halted leads cause reported
  | @done value middle leads shorter read =>
      have conduct := nextConduct value middle rfl
      dsimp only
      generalize next value middle = outcomeOn at conduct
      cases conduct with
      | exhausted leadsOn long => exact .exhausted (leads.trans leadsOn) (by omega)
      | halted leadsOn cause reported =>
          exact .halted (leads.trans leadsOn) cause (Nat.lt_of_le_of_lt leads.size_le reported)
      | done leadsOn shorterOn readOn =>
          refine .done (leads.trans leadsOn) (by omega) fun silent => ?_
          -- Complaints are never taken back, so if none is left none was made in between.
          have quiet := leads.quiet leadsOn silent
          rcases read quiet with ⟨before, split, means⟩
          rcases readOn (silent.trans quiet.symm) with ⟨others, splitOn, continues⟩
          exact ⟨before ++ others, by rw [split, splitOn, List.append_assoc],
            continues before means⟩

theorem advance {token : Token} {rest : List Token} {result : EStateM.Result Halt Cursor α}
    (ahead : start.ahead = token :: rest)
    (conduct : Conduct (room - 1) (takes - 1) (fun value taken => meaning value (token :: taken))
      start.advance result) :
    Conduct room takes meaning start result := by
  have leads := start.leads_advance
  have length : start.ahead.length = start.advance.ahead.length + 1 := by
    simp [Cursor.advance, ahead]
  cases conduct with
  | exhausted leadsOn long => exact .exhausted (leads.trans leadsOn) (by omega)
  | halted leadsOn cause reported => exact .halted (leads.trans leadsOn) cause reported
  | done leadsOn shorter read =>
      refine .done (leads.trans leadsOn) (by omega) fun silent => ?_
      rcases read silent with ⟨taken, split, means⟩
      refine ⟨token :: taken, ?_, means⟩
      simpa [Cursor.advance, ahead] using split

theorem accept {kinds : List Token.Kind} {next : Option Token → Reader α} (noEnd : .eof ∉ kinds)
    (absent : start.current.kind ∉ kinds → Conduct room takes meaning start (next none start))
    (present : start.current.kind ∈ kinds → Conduct (room - 1) (takes - 1)
      (fun value taken => meaning value (start.current :: taken)) start.advance
      (next (some start.current) start.advance)) :
    Conduct room takes meaning start ((Parse.accept kinds >>= next) start) := by
  by_cases mem : start.current.kind ∈ kinds
  · rcases Cursor.exists_ahead (fun ended => noEnd (ended ▸ mem)) with ⟨rest, ahead⟩
    rw [bind_of_ok (accept_of_mem mem)]
    exact advance ahead (present mem)
  · rw [bind_of_ok (accept_of_not_mem mem)]
    exact absent mem

theorem expect {kind : Token.Kind} {fault : Fault} {next : Token → Reader α} (noEnd : kind ≠ .eof)
    (present : ∀ token, token.kind = kind → Conduct (room - 1) (takes - 1)
      (fun value taken => meaning value (token :: taken)) start.advance
      (next token start.advance)) :
    Conduct room takes meaning start ((Parse.expect kind fault >>= next) start) := by
  by_cases same : start.current.kind = kind
  · rcases Cursor.exists_ahead (fun ended => noEnd (same.symm.trans ended)) with ⟨rest, ahead⟩
    rw [bind_of_ok (expect_of_kind same)]
    exact advance ahead (present start.current same)
  · rw [bind_of_error (expect_of_ne same)]
    exact misread fault

theorem descend {limit : Int} {depth : Nat} {next : Unit → Reader α}
    (deeper : Within limit depth → Conduct room takes meaning start (next () start)) :
    Conduct room takes meaning start ((Parse.descend limit depth >>= next) start) := by
  by_cases within : Within limit depth
  · rw [bind_of_ok (descend_of_within within)]
    exact deeper within
  · rw [bind_of_error (descend_of_not_within within)]
    exact .halted (Cursor.leads_report _ _ _) (by simp) (by simp [Cursor.report])

theorem select {otherwise : Reader α} {choices : List (List Token.Kind × (Token → Reader α))}
    (noEnd : ∀ choice ∈ choices, .eof ∉ choice.1)
    (chosen : ∀ kinds next, (kinds, next) ∈ choices → start.current.kind ∈ kinds →
      Conduct (room - 1) (takes - 1) (fun value taken => meaning value (start.current :: taken))
        start.advance (next start.current start.advance))
    (other : Conduct room takes meaning start (otherwise start)) :
    Conduct room takes meaning start (primitives.select otherwise choices start) := by
  induction choices with
  | nil => exact other
  | cons choice others ih =>
      rcases choice with ⟨kinds, next⟩
      rw [Primitives.select]
      apply accept (noEnd _ List.mem_cons_self)
      · intro _
        apply ih fun choice mem => noEnd choice (List.mem_cons_of_mem _ mem)
        exact fun kinds next mem => chosen kinds next (List.mem_cons_of_mem _ mem)
      · exact chosen kinds next List.mem_cons_self

/-- Reading on after a complaint: whatever follows, the reading is not silent. -/
theorem complain {token : Token} {fault : Fault} {next : Unit → Reader α}
    (conduct : Conduct room takes (fun _ _ => True) (start.report token fault)
      (next () (start.report token fault))) :
    Conduct room takes meaning start ((Parse.report token fault >>= next) start) := by
  rw [bind_of_ok report_apply]
  have leads := start.leads_report token fault
  have grown : start.reports.size < (start.report token fault).reports.size := by
    simp [Cursor.report]
  generalize next () (start.report token fault) = outcome at conduct
  cases conduct with
  | exhausted leadsOn long => exact .exhausted (leads.trans leadsOn) long
  | halted leadsOn cause reported =>
      exact .halted (leads.trans leadsOn) cause (Nat.lt_trans grown reported)
  | done leadsOn shorter read =>
      refine .done (leads.trans leadsOn) shorter fun silent => ?_
      have := leadsOn.size_le
      rw [silent] at this
      omega

/-- Recovering from a syntax error passes a token even if the reader that met it took none. -/
theorem recovering {reader : Reader α} (more : start.ahead ≠ [])
    (conduct : Conduct room 1 meaning start (reader start)) :
    Conduct room 1 (fun value taken => ∃ result, value = some result ∧ meaning result taken) start
      (Parse.recovering reader start) := by
  have nonempty := List.length_pos_iff.mpr more
  simp only [Parse.recovering]
  generalize reader start = outcome at conduct
  cases conduct with
  | exhausted leads long => exact .exhausted leads long
  | done leads shorter read =>
      refine .done leads shorter fun silent => ?_
      rcases read silent with ⟨taken, split, means⟩
      exact ⟨taken, split, _, rfl, means⟩
  | @halted halt finish leads cause reported =>
      cases halt with
      | exhausted => exact absurd rfl cause
      | tooDeep => exact .halted leads cause reported
      | misread =>
          have leadsOn := finish.leads_synchronize
          have shorter := finish.synchronize_length
          have fewer := leads.ahead.length_le
          -- The error was reported before the recovery, so the reading is not silent.
          refine .done (leads.trans leadsOn) (by omega) fun silent => ?_
          have size := leadsOn.size_le
          rw [silent] at size
          omega

end Conduct

end LoxLang.Parse
