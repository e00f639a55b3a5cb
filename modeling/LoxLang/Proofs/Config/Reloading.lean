import LoxLang.Config.Locate
import LoxLang.Proofs.Scope.Names
import LoxLang.Proofs.Toml.Documents

/-!
# Written configurations are loaded again

A valid configuration that is written as a file in the TOML format is loaded from it unchanged, but
for the path, if its texts are portable. Two of its four texts are, because they are valid: the
names of colour modes and of log levels have letters only, in whatever case. If one of the other two
has a character or a byte whose escape TOML does not have, nothing can be loaded from the file.
-/

namespace LoxLang

open Toml (Entry)
open Toml.Grammar (textOf)

namespace Setting

/-- The characters of the key of a setting. -/
def keyChars (setting : Setting) : List Char := setting.key.map fun byte => Char.ofNat byte.toNat

theorem textOf_keyChars (setting : Setting) : textOf setting.keyChars = setting.key := by
  cases setting <;> decide

theorem keyChars_ne_nil (setting : Setting) : setting.keyChars ≠ [] := by
  cases setting <;> decide

theorem keyChars_bare (setting : Setting) :
    ∀ char ∈ setting.keyChars, Toml.isBare char = true := by
  have all : setting.keyChars.all Toml.isBare = true := by
    cases setting <;> decide
  simpa using all

theorem ofKey?_key (setting : Setting) : ofKey? setting.key = some setting := by
  cases setting <;> decide

end Setting

namespace Config

variable {config : Config} {setting : Setting}

/-- What a setting is set to, a text or a number. -/
def content (config : Config) : Setting → Text ⊕ Int
  | .prompt => .inl config.prompt
  | .historyFile => .inl config.historyFile
  | .color => .inl config.color
  | .verbosity => .inl config.verbosity
  | .maxDepth => .inr config.maxDepth
  | .parseCacheSize => .inr config.parseCacheSize

/-- The line of a setting in the file. -/
def entry (config : Config) (setting : Setting) : Entry where
  key := setting.keyChars
  written := (config.content setting).elim Text.spelled fun number => Nat.toDigits 10 number.toNat
  value := (config.content setting).elim (fun text => .string (some text)) fun number =>
    .integer (Text.ofInt number)

/-- A configuration with a setting taken from another one. -/
def adopt (source target : Config) (setting : Setting) : Config :=
  (source.content setting).elim (target.setText · setting) (target.setNumber · setting)

/-- The numbers are what settings can hold, and not negative. -/
def NumbersFit (config : Config) : Prop :=
  ∀ setting number, config.content setting = .inr number → 0 ≤ number ∧ inRange number = true

section Entries

theorem scalar_entry (config : Config) (setting : Setting) :
    (config.entry setting).value.IsScalar := by
  cases setting <;> trivial

theorem wellFormed_entry (config : Config) (setting : Setting) :
    (config.entry setting).WellFormed := by
  refine ⟨setting.keyChars_ne_nil, setting.keyChars_bare, ?_⟩
  cases isSet : config.content setting with
  | inl text => exact ⟨_, _, by rw [entry, isSet]; rfl, by decide, by decide⟩
  | inr number =>
      have numeral := Toml.isNumeral_toDigits number.toNat
      rcases List.exists_cons_of_ne_nil numeral.nonempty with ⟨first, rest, digits⟩
      have isDigit := numeral.areDigits first (by simp [digits])
      exact ⟨first, rest, by rw [entry, isSet]; exact digits,
        Toml.ne_of_within isDigit (by decide), Toml.ne_of_within isDigit (by decide)⟩

theorem ofInt_of_nonneg {number : Int} (nonneg : 0 ≤ number) :
    Text.ofInt number = Text.ofNat number.toNat := by
  rcases Int.eq_ofNat_of_zero_le nonneg with ⟨magnitude, rfl⟩
  rfl

theorem readable_entry (portable : ∀ text, config.content setting = .inl text → text.IsPortable)
    (numbers : config.NumbersFit) (depth : Nat) :
    (config.entry setting).Readable (Toml.Grammar.value (depth + 1)) := by
  intro more
  cases isSet : config.content setting with
  | inl text =>
      simp only [entry, isSet, Sum.elim_inl]
      exact Toml.reads_string (portable text isSet) depth
  | inr number =>
      simp only [entry, isSet, Sum.elim_inr, ofInt_of_nonneg (numbers setting number isSet).1,
        ← Toml.textOf_toDigits]
      exact Toml.reads_number (Toml.isNumeral_toDigits _) depth

theorem textOf_written (numbers : config.NumbersFit) :
    textOf (config.entry setting).written =
      (config.content setting).elim Text.quoted Text.ofInt := by
  cases isSet : config.content setting with
  | inl text =>
      simp only [entry, isSet, Sum.elim_inl]
      exact text.textOf_spelled
  | inr number =>
      simp only [entry, isSet, Sum.elim_inr, ofInt_of_nonneg (numbers setting number isSet).1]
      exact Toml.textOf_toDigits _

theorem textOf_lines (numbers : config.NumbersFit) (settings : List Setting) :
    textOf (Entry.lines (settings.map config.entry) []) =
      settings.flatMap fun setting =>
        line setting ((config.content setting).elim Text.quoted Text.ofInt) := by
  induction settings with
  | nil => rfl
  | cons setting settings ih =>
      have key : textOf (config.entry setting).key = setting.key := setting.textOf_keyChars
      rw [List.map_cons, Entry.lines_cons, List.flatMap_cons, ← ih, Entry.line]
      simp only [Toml.Grammar.textOf_append, Toml.Grammar.textOf_cons, key,
        textOf_written numbers, line, List.append_assoc]
      rfl

/-- The file is its entries, line by line. -/
theorem toml_eq_textOf (numbers : config.NumbersFit) :
    config.toml = textOf (Entry.lines (Setting.all.map config.entry) []) := by
  rw [textOf_lines numbers]
  simp [toml, Setting.all, content]

end Entries

section Values

theorem numberOf_ofNat (number : Nat) : numberOf (Text.ofNat number) = number := by
  have notSign : ∀ byte ∈ Text.ofNat number, byte ≠ 0x2D ∧ byte ≠ 0x2B := by
    intro byte mem
    rcases List.mem_map.mp mem with ⟨char, isChar, rfl⟩
    rcases Toml.exists_of_mem_toDigits (by omega) isChar with ⟨digit, small, rfl⟩
    clear isChar mem
    revert digit
    decide
  have value := Text.toNat_ofNat number
  generalize Text.ofNat number = digits at notSign value
  unfold numberOf
  split
  · exact absurd rfl (notSign _ (by simp)).1
  · exact absurd rfl (notSign _ (by simp)).2
  · rw [value]

theorem isNumber_eq (config : Config) (setting : Setting) :
    setting.isNumber = (config.content setting).isRight := by
  cases setting <;> rfl

theorem setFromToml_entry (numbers : config.NumbersFit) (target : Config) (setting : Setting) :
    target.setFromToml setting (config.entry setting).value =
      .ok (config.adopt target setting) := by
  have sort := isNumber_eq config setting
  cases isSet : config.content setting with
  | inl text =>
      rw [isSet] at sort
      simp [entry, adopt, isSet, setFromToml, sort]
  | inr number =>
      rw [isSet] at sort
      rcases numbers setting number isSet with ⟨nonneg, fits⟩
      have same : numberOf (Text.ofInt number) = number := by
        rw [ofInt_of_nonneg nonneg, numberOf_ofNat, Int.toNat_of_nonneg nonneg]
      simp [entry, adopt, isSet, setFromToml, sort, same, fits]

theorem setFromNode_enters (numbers : config.NumbersFit) (target : Config) {setting : Setting}
    {node : Text × Toml.Node} (enters : (config.entry setting).Enters node) :
    target.setFromNode node.1 node.2 = .ok (config.adopt target setting) := by
  rcases enters with ⟨line, rfl⟩
  have key : textOf (config.entry setting).key = setting.key := setting.textOf_keyChars
  simp only [setFromNode, key, Setting.ofKey?_key, setFromToml_entry numbers]

/-- Settings are taken one by one from the nodes of their entries. -/
theorem foldlM_setFromNode (numbers : config.NumbersFit) {settings : List Setting}
    {nodes : List (Text × Toml.Node)}
    (enter : List.Forall₂ Entry.Enters (settings.map config.entry) nodes) (target : Config) :
    nodes.foldlM (fun config (key, node) => config.setFromNode key node) target =
      .ok (settings.foldl config.adopt target) := by
  induction settings generalizing nodes target with
  | nil =>
      cases enter
      rfl
  | cons setting settings ih =>
      cases enter with
      | @cons _ node _ nodes enters others =>
          rcases node with ⟨key, node⟩
          have first : target.setFromNode key node = .ok (config.adopt target setting) :=
            setFromNode_enters numbers target enters
          simp only [List.foldlM_cons, first]
          exact ih others (config.adopt target setting)

theorem ofToml_toml (numbers : config.NumbersFit)
    (portable : ∀ setting text, config.content setting = .inl text → text.IsPortable) :
    ofToml config.toml = .ok { config with path := [] } := by
  have distinct :
      ((Setting.all.map config.entry).map fun entry => textOf entry.key).Nodup := by
    have keys : ((Setting.all.map config.entry).map fun entry => textOf entry.key) =
        Setting.all.map Setting.key := by
      rw [List.map_map]
      exact List.map_congr_left fun setting _ => setting.textOf_keyChars
    rw [keys]
    decide
  rcases Toml.read_lines (List.forall_mem_map.mpr fun setting _ => wellFormed_entry config setting)
    (List.forall_mem_map.mpr fun setting _ => readable_entry (portable setting) numbers)
    (List.forall_mem_map.mpr fun setting _ => scalar_entry config setting) distinct
    (List.cons_ne_nil _ _) with ⟨nodes, found, enter⟩
  have readAll : Toml.read config.toml = .ok nodes :=
    (congrArg Toml.read (toml_eq_textOf numbers)).trans found
  rw [ofToml, readAll]
  exact foldlM_setFromNode numbers enter {}

end Values

section Refusal

/-- A text that is not portable makes the file malformed, if it is the first such text. -/
theorem ofToml_refused (numbers : config.NumbersFit) (before after : List Setting)
    (isAll : Setting.all = before ++ setting :: after)
    (portable : ∀ earlier ∈ before, ∀ text, config.content earlier = .inl text → text.IsPortable)
    {text : Text} (isSet : config.content setting = .inl text) (foreign : ¬text.IsPortable) :
    ∃ line, ofToml config.toml = .error ⟨line, .document .malformed⟩ := by
  have lines : Entry.lines (Setting.all.map config.entry) [] =
      Entry.lines (before.map config.entry)
        ((config.entry setting).line ++ '\n' :: Entry.lines (after.map config.entry) []) := by
    rw [isAll, ← Entry.lines_cons, List.map_append, Entry.lines, List.flatMap_append]
    simp [Entry.lines]
  have refused : ∀ depth, Toml.Refuses (Toml.Grammar.value (depth + 1))
      ((config.entry setting).written ++ '\n' :: Entry.lines (after.map config.entry) []) := by
    intro depth
    simp only [entry, isSet, Sum.elim_inl]
    exact Toml.refuses_string foreign _
  rcases Toml.read_refused
    (List.forall_mem_map.mpr fun earlier _ => wellFormed_entry config earlier)
    (List.forall_mem_map.mpr fun earlier mem => readable_entry (portable earlier mem) numbers)
    (wellFormed_entry config setting) refused with ⟨line, failed⟩
  exact ⟨line, by rw [ofToml, toml_eq_textOf numbers, lines, failed]⟩

end Refusal

section Validity

/-- A text whose lower-case form has only printable characters of one byte is portable. -/
theorem isPortable_of_lowercase {text : Text}
    (printed : ∀ byte ∈ text.lowercase, 0x20 ≤ byte ∧ byte < 0x7F) : text.IsPortable := by
  intro unit mem
  by_contra foreign
  have lower : ∀ byte ∈ Text.Utf8.encode (Text.lowerCode unit.code), 0x20 ≤ byte ∧ byte < 0x7F :=
    fun byte isByte => printed byte (List.mem_flatMap.mpr ⟨unit, mem, isByte⟩)
  cases unit with
  | stray byte =>
      have replaced : ∃ byte ∈ Text.Utf8.encode (Text.lowerCode Text.Utf8.replacement),
          ¬(0x20 ≤ byte ∧ byte < 0x7F) := by decide +kernel
      rcases replaced with ⟨byte, isByte, notPrinted⟩
      exact notPrinted (lower byte isByte)
  | char code =>
      rw [Text.Utf8.Unit.IsPortable, not_or] at foreign
      have control : code < 0x80 ∧ (code < 0x20 ∨ code = 0x7F) := by omega
      have kept : ∀ code < 0x80, code < 0x20 ∨ code = 0x7F →
          ∃ byte ∈ Text.Utf8.encode (Text.lowerCode code), ¬(0x20 ≤ byte ∧ byte < 0x7F) := by
        decide +kernel
      rcases kept code control.1 control.2 with ⟨byte, isByte, notPrinted⟩
      exact notPrinted (lower byte isByte)

theorem issues_eq_nil_iff :
    config.issues = [] ↔ config.color ∈ colorModes ∧
      (Log.Level.ofName? config.verbosity).isSome = true ∧
      0 ≤ config.maxDepth ∧ 0 ≤ config.parseCacheSize := by
  simp only [issues, List.append_eq_nil_iff, List.contains_iff_mem]
  grind

theorem isPortable_color (valid : config.issues = []) : config.color.IsPortable := by
  have modes : ∀ mode ∈ colorModes, mode.IsPortable := by decide +kernel
  exact modes _ (issues_eq_nil_iff.mp valid).1

theorem isPortable_verbosity (valid : config.issues = []) : config.verbosity.IsPortable := by
  have isName := isSome_lookup_iff.mp (issues_eq_nil_iff.mp valid).2.1
  have names : ∀ name ∈ Log.Level.named.map Prod.fst, ∀ byte ∈ name,
      0x20 ≤ byte ∧ byte < 0x7F := by decide +kernel
  exact isPortable_of_lowercase (names _ isName)

theorem numbersFit (valid : config.issues = []) (depthFits : inRange config.maxDepth = true)
    (sizeFits : inRange config.parseCacheSize = true) : config.NumbersFit := by
  rcases issues_eq_nil_iff.mp valid with ⟨_, _, depthNonneg, sizeNonneg⟩
  intro setting number isSet
  cases setting <;> cases isSet
  · exact ⟨depthNonneg, depthFits⟩
  · exact ⟨sizeNonneg, sizeFits⟩

end Validity

section Load

variable {files : FileSystem} {path content : Text}

/-- Loading a file in the TOML format is reading its content and checking the settings. -/
theorem load_eq (named : path ≠ []) (found : files.find (files.absolute path) = .ok (.file content))
    (isToml : Format.ofExtension? (Path.extension (files.absolute path)) = some .toml) :
    load files path =
      match ofToml content with
      | .ok config => { config with path := files.absolute path }.validate
      | .error error => .error
        { path := files.absolute path, cause := some (.toml (files.absolute path) error) } := by
  simp only [load, named, if_false, FileSystem.findFor, found, isToml, decode, FileSystem.contentOf]
  cases ofToml content <;> rfl

/-- A valid configuration, written as a file, is loaded from it with the same settings, if its
prompt and the name of its history file are portable. If they are not, the file is malformed. -/
theorem load_toml (config : Config) (files : FileSystem) (path : Text)
    (valid : config.issues = []) (depthFits : inRange config.maxDepth = true)
    (sizeFits : inRange config.parseCacheSize = true) (named : path ≠ [])
    (isToml : Format.ofExtension? (Path.extension (files.absolute path)) = some .toml)
    (found : files.find (files.absolute path) = .ok (.file config.toml)) :
    (config.prompt.IsPortable ∧ config.historyFile.IsPortable →
      load files path = .ok { config with path := files.absolute path }) ∧
    (¬(config.prompt.IsPortable ∧ config.historyFile.IsPortable) →
      ∃ line, load files path = .error
        { path := files.absolute path
          cause := some (.toml (files.absolute path) ⟨line, .document .malformed⟩) }) := by
  have numbers := numbersFit valid depthFits sizeFits
  rw [load_eq named found isToml]
  constructor
  · rintro ⟨promptPortable, historyPortable⟩
    have portable : ∀ setting text, config.content setting = .inl text → text.IsPortable := by
      intro setting text isSet
      cases setting <;> cases isSet
      · exact promptPortable
      · exact historyPortable
      · exact isPortable_color valid
      · exact isPortable_verbosity valid
    rw [ofToml_toml numbers portable]
    exact if_pos valid
  · intro foreign
    have malformed : ∃ line, ofToml config.toml = .error ⟨line, .document .malformed⟩ := by
      by_cases promptPortable : config.prompt.IsPortable
      · have historyForeign : ¬config.historyFile.IsPortable :=
          fun historyPortable => foreign ⟨promptPortable, historyPortable⟩
        apply ofToml_refused numbers [.prompt] _ rfl _ rfl historyForeign
        intro earlier mem text isSet
        cases List.mem_singleton.mp mem
        cases isSet
        exact promptPortable
      · exact ofToml_refused numbers [] _ rfl (by simp) rfl promptPortable
    rcases malformed with ⟨line, failed⟩
    exact ⟨line, by rw [failed]⟩

/-- A prompt with a tab, a quote, a space of another kind and an accent, and a level in mixed
case. -/
theorem load_toml_mixed :
    let config : Config :=
      { prompt := "\t\"é\u00a0\"> ", historyFile := [], verbosity := "WaRn", maxDepth := 0 }
    let files := (FileTree.ofFiles "/home" [("lox.toml", config.toml)]).toFileSystem
    config.issues = [] ∧ config.prompt.IsPortable ∧
      load files "lox.toml" = .ok { config with path := "/home/lox.toml" } := by
  intro config files
  have valid : config.issues = [] := by decide +kernel
  have promptPortable : config.prompt.IsPortable := by decide +kernel
  have historyPortable : config.historyFile.IsPortable := by decide +kernel
  have place : files.absolute "lox.toml" = "/home/lox.toml" := by decide +kernel
  have loaded := (load_toml config files "lox.toml" valid (by decide) (by decide) (by decide)
    (by decide +kernel) (by decide +kernel)).1 ⟨promptPortable, historyPortable⟩
  rw [place] at loaded
  exact ⟨valid, promptPortable, loaded⟩

/-- A prompt that rings the bell is valid and can be written, but the file is malformed. -/
theorem load_toml_bell :
    let config : Config := { prompt := [0x07] }
    let files := (FileTree.ofFiles "/home" [("lox.toml", config.toml)]).toFileSystem
    config.issues = [] ∧
      load files "lox.toml" = .error
        { path := "/home/lox.toml"
          cause := some (.toml "/home/lox.toml" ⟨1, .document .malformed⟩) } := by
  decide +kernel

end Load

end Config

end LoxLang
