import LoxLang.Command

/-!
# From arguments to commands

Flags that are accepted can stand in front of a command: they override settings, and what follows
them is the command with its arguments, as if they were not there.
-/

namespace LoxLang

namespace Flags

variable {flags : List (Text × Kind)}

theorem parse_of_plain {argument : Text} (plain : Form.ofArgument argument = .none)
    (arguments : List Text) :
    parse flags (argument :: arguments) = { rest := argument :: arguments } := by
  rw [parse, plain]

/-- Accepted flags do not take what follows them for a value of theirs. -/
theorem parse_append {options : List Text} (accepted : (parse flags options).fault = none)
    (complete : (parse flags options).rest = []) {argument : Text}
    (plain : Form.ofArgument argument = .none) (arguments : List Text) :
    parse flags (options ++ argument :: arguments) =
      { parse flags options with rest := argument :: arguments } := by
  fun_induction parse flags options with
  | case1 => exact parse_of_plain plain arguments
  | case2 => cases complete
  | case3 option rest isStop =>
      cases complete
      simp [parse, isStop]
  | case6 giving option name kind text rest known value isValue isFlag ih =>
      simp [parse, isFlag, known, isValue, ih accepted complete, giving]
  | case8 giving option name rest known isFlag ih =>
      simp [parse, isFlag, known, ih accepted complete, giving]
  | case10 giving option name kind text rest notSwitch known value isValue isFlag ih =>
      cases kind with
      | switch => exact (notSwitch rfl).elim
      | text | number => simp [parse, isFlag, known, isValue, ih accepted complete, giving]
  -- Everywhere else a flag was refused.
  | case4 | case5 | case7 | case9 | case11 => cases accepted

end Flags

namespace CommandLine

/-- Options behind which a command can follow: flags that are accepted, with nothing left over, and
that ask neither for help nor for the version. -/
structure Options (options : List Text) : Prop where
  accepted : (Flags.parse globalFlags options).fault = none
  complete : (Flags.parse globalFlags options).rest = []
  once : (bothForms? (Flags.parse globalFlags options) "help" "h").or
    (bothForms? (Flags.parse globalFlags options) "version" "v") = none
  noHelp : wantsHelp (Flags.parse globalFlags options) = false
  noVersion : ((Flags.parse globalFlags options).isOn "version" ||
    (Flags.parse globalFlags options).isOn "v") = false

/-- The overrides in the options. -/
def overridesOf (options : List Text) : Overrides :=
  Overrides.ofFlags (Flags.parse globalFlags options)

variable {environment : Environment} {options : List Text} {command : Command} {name : Text}

theorem plan_command (isOptions : Options options) (named : Command.ofName? name = some command)
    (plain : Flags.Form.ofArgument name = .none) (arguments : List Text) :
    plan environment (options ++ name :: arguments) =
      planWithFlags environment (overridesOf options) command arguments := by
  have parsed := Flags.parse_append isOptions.accepted isOptions.complete plain arguments
  -- What the options ask for is among the flags that were given, and these are the same.
  generalize afterwards : Flags.parse globalFlags (options ++ name :: arguments) = after at parsed
  have once : (bothForms? after "help" "h").or (bothForms? after "version" "v") = none :=
    parsed ▸ isOptions.once
  have noHelp : wantsHelp after = false := parsed ▸ isOptions.noHelp
  have noVersion : (after.isOn "version" || after.isOn "v") = false := parsed ▸ isOptions.noVersion
  have accepted : after.fault = none := parsed ▸ isOptions.accepted
  have rest : after.rest = name :: arguments := by rw [parsed]
  have overrides : Overrides.ofFlags after = overridesOf options := by rw [parsed]; rfl
  simp [plan, afterwards, once, noHelp, noVersion, accepted, rest, overrides, named]

theorem planWithFlags_nil (overrides : Overrides) :
    planWithFlags environment overrides command [] =
      planCommand environment overrides command [] :=
  rfl

theorem ofArgument_of_not_looksLikeFlag {argument : Text}
    (plain : looksLikeFlag argument = false) : Flags.Form.ofArgument argument = .none := by
  have dash : Text.ofString "-" = [0x2D] := by decide
  match argument with
  | [] => rfl
  | [first] => simp [Flags.Form.ofArgument]
  | first :: second :: rest =>
      have notDash : first ≠ 0x2D := by simpa [looksLikeFlag, dash] using plain
      simp [Flags.Form.ofArgument, notDash]

theorem flagsFirst_singleton {argument : Text} (plain : looksLikeFlag argument = false) :
    flagsFirst [argument] = [argument] := by
  have notEnding : argument ≠ Text.ofString "--" := by
    rintro rfl
    exact absurd plain (by decide)
  simp [flagsFirst, notEnding, plain]

/-- A script that does not look like a flag is the one argument of its command. -/
theorem planWithFlags_singleton (overrides : Overrides) {path : Text}
    (plain : looksLikeFlag path = false) :
    planWithFlags environment overrides command [path] =
      planCommand environment overrides command [path] := by
  rw [planWithFlags, flagsFirst_singleton plain,
    Flags.parse_of_plain (ofArgument_of_not_looksLikeFlag plain)]
  rfl

end CommandLine

end LoxLang
