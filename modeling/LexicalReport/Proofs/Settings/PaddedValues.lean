import LexicalReport.Proofs.Settings.Precedence
import Mathlib.Data.List.DropRight
import Mathlib.Tactic.ByContra

/-! Blanks in the values of environment variables. Texts are read without the blanks around them,
and a blank one counts as none; so blanks around them have no part in the settings. The switch for
the log is read as it is: a word of a switch is none any more with blanks around it, and a blank
value sets nothing, but counts as a value that is no word. -/

namespace LexicalReport

namespace Text

theorem toLower_of_isBlank {c : Char} (blank : isBlank c = true) : c.toLower = c := by
  have other : ¬ ('A'.val ≤ c.val ∧ c.val ≤ 'Z'.val) := by
    rintro ⟨low, high⟩
    have low : 65 ≤ c.toNat := low
    have high : c.toNat ≤ 90 := high
    rw [isBlank, blankRanges, inRanges, if_neg (by omega), if_neg (by omega), inRanges,
      if_neg (by omega), if_neg (by omega), inRanges, if_pos (by omega)] at blank
    cases blank
  exact dif_neg other

theorem trimChars_eq_self {cs : List Char} (solid : ∀ c ∈ cs, isBlank c = false) :
    trimChars cs = cs := by
  have left : cs.dropWhile isBlank = cs :=
    List.dropWhile_eq_self_iff.mpr fun some => by simp [solid _ (List.getElem_mem some)]
  have right : cs.rdropWhile isBlank = cs :=
    List.rdropWhile_eq_self_iff.mpr fun some => by simp [solid _ (List.getLast_mem some)]
  rw [trimChars, left]
  exact right

theorem exists_isBlank {s : String} (padded : trim s ≠ s) : ∃ c ∈ s.toList, isBlank c = true := by
  by_contra none
  simp only [not_exists, not_and, Bool.not_eq_true] at none
  exact padded (by rw [trim, trimChars_eq_self none, String.ofList_toList])

end Text

namespace Environment

/-- The value of a variable without the blanks around it. A missing one counts as blank. -/
def trimmed (env : Environment) (name : String) : String :=
  Text.trim ((env name).getD "")

def Padded (env : Environment) (name : String) : Prop :=
  ∃ value ∈ env name, Text.trim value ≠ value

instance (env : Environment) (name : String) : Decidable (Padded env name) :=
  inferInstanceAs (Decidable (∃ value ∈ env name, Text.trim value ≠ value))

/-- But for blanks around them, the values of the variables for settings are the same. -/
def Alike (env other : Environment) : Prop :=
  ∀ name ∈ [logDirectory, noLog, user, format], env.trimmed name = other.trimmed name

instance (env other : Environment) : Decidable (Alike env other) :=
  inferInstanceAs (Decidable (∀ name ∈ _, _))

variable {env other : Environment} {name : String}

theorem nonEmpty?_eq (env : Environment) (name : String) :
    env.nonEmpty? name = if env.trimmed name = "" then none else some (env.trimmed name) := by
  rw [nonEmpty?, trimmed]
  cases env name with
  | none => rfl
  | some value =>
    rw [Option.map_some, Option.filter_some, Option.getD_some]
    by_cases blank : Text.trim value = "" <;> simp [blank]

theorem nonEmpty?_eq_none_iff : env.nonEmpty? name = none ↔ env.trimmed name = "" := by
  rw [nonEmpty?_eq]
  by_cases blank : env.trimmed name = "" <;> simp [blank]

theorem nonEmpty?_congr (same : env.trimmed name = other.trimmed name) :
    env.nonEmpty? name = other.nonEmpty? name := by
  rw [nonEmpty?_eq, nonEmpty?_eq, same]

theorem switchWord?_of_padded {word : String} (padded : Text.trim word ≠ word) :
    switchWord? word = none := by
  obtain ⟨c, inside, blank⟩ := Text.exists_isBlank padded
  have small : (word.map Char.toLower).toList.any Text.isBlank = true := by
    refine List.any_eq_true.mpr ⟨c, ?_, blank⟩
    rw [String.toList_map, List.mem_map]
    exact ⟨c, inside, Text.toLower_of_isBlank blank⟩
  have apart {spelling : String} (solid : spelling.toList.any Text.isBlank = false) :
      word.map Char.toLower ≠ spelling := by
    rintro rfl
    cases small.symm.trans solid
  have on : ¬ (word.map Char.toLower = "true" ∨ word.map Char.toLower = "1" ∨
      word.map Char.toLower = "yes" ∨ word.map Char.toLower = "on") := by
    rintro (same | same | same | same) <;> exact apart (by decide) same
  have off : ¬ (word.map Char.toLower = "false" ∨ word.map Char.toLower = "0" ∨
      word.map Char.toLower = "no" ∨ word.map Char.toLower = "off") := by
    rintro (same | same | same | same) <;> exact apart (by decide) same
  rw [switchWord?]
  simp only [if_neg on, if_neg off]

theorem switchWord?_of_blank {word : String} (blank : Text.trim word = "") :
    switchWord? word = none := by
  by_cases tight : Text.trim word = word
  · rw [← tight, blank]
    decide +kernel
  · exact switchWord?_of_padded tight

theorem flag?_bind_toOption (env : Environment) (name : String) :
    (env.flag? name).bind Except.toOption =
      if Padded env name then none else switchWord? (env.trimmed name) := by
  cases value : env name with
  | none =>
    have unpadded : ¬ Padded env name := by simp [Padded, value]
    rw [if_neg unpadded, trimmed, flag?, value]
    decide +kernel
  | some word =>
    have state : (env.flag? name).bind Except.toOption = switchWord? word := by
      rw [flag?, value, Option.map_some, Option.bind_some]
      cases switchWord? word <;> rfl
    have padded : Padded env name ↔ Text.trim word ≠ word := by simp [Padded, value]
    rw [state, trimmed, value, Option.getD_some]
    by_cases tight : Text.trim word = word
    · rw [if_neg (padded.not.mpr (not_not.mpr tight)), tight]
    · rw [if_pos (padded.mpr tight), switchWord?_of_padded tight]

/-- A variable that counts as unset for a text still has its value for a switch. -/
theorem flag?_of_blank (blank : env.trimmed name = "") :
    env.flag? name = (env name).map Except.error := by
  rw [flag?]
  cases value : env name with
  | none => rfl
  | some word =>
    rw [trimmed, value, Option.getD_some] at blank
    rw [Option.map_some, Option.map_some, switchWord?_of_blank blank]

end Environment

namespace Settings

open Files (FileSystem)
open Environment (Alike Padded)

variable {env other : Environment}

theorem decided_congr (alike : Alike env other)
    (switch : (env.flag? Environment.noLog).bind Except.toOption =
      (other.flag? Environment.noLog).bind Except.toOption)
    (nearer farther : Option Layer) :
    decided env nearer farther = decided other nearer farther := by
  have text {name : String}
      (member : name ∈ [Environment.logDirectory, Environment.noLog, Environment.user,
        Environment.format]) : env.nonEmpty? name = other.nonEmpty? name :=
    Environment.nonEmpty?_congr (alike name member)
  rw [decided, decided, switch, text (by simp), text (by simp), text (by simp)]

def quietFiles : FileSystem :=
  ⟨[("c.toml", .file "[log]\nenabled = false".toUTF8)], []⟩

theorem load_quietFiles (env : Environment) : load quietFiles ["c.toml"] env =
    .ok (decided env none (some { log := { enabled := some false } })) := by
  have fine : failureAt? quietFiles "c.toml" = none := by decide +kernel
  have set : layerAt? quietFiles "c.toml" = some { log := { enabled := some false } } := by
    decide +kernel
  have loaded := load_eq quietFiles (some "c.toml") none env
  simpa [fine, set] using loaded

/-- The log is on with no file and off with the quiet one, so a switch that is set shows in one of
the two. -/
theorem flag?_eq_of_load
    (bare : load ⟨[], []⟩ [] env = load ⟨[], []⟩ [] other)
    (quiet : load quietFiles ["c.toml"] env = load quietFiles ["c.toml"] other) :
    (env.flag? Environment.noLog).bind Except.toOption =
      (other.flag? Environment.noLog).bind Except.toOption := by
  rw [load_quietFiles, load_quietFiles] at quiet
  have on := congrArg (·.log.enabled) (Except.ok.inj
    (((load_eq ⟨[], []⟩ none none env).symm.trans bare).trans (load_eq ⟨[], []⟩ none none other)))
  have off := congrArg (·.log.enabled) (Except.ok.inj quiet)
  simp only [decided, first_cons, first_nil, Option.bind_none, Option.bind_some] at on off
  generalize (env.flag? Environment.noLog).bind Except.toOption = switch at on off ⊢
  generalize (other.flag? Environment.noLog).bind Except.toOption = switch' at on off ⊢
  rcases switch with _ | _ | _ <;> rcases switch' with _ | _ | _ <;>
    first | rfl | exact absurd on (by decide) | exact absurd off (by decide)

/-- Blanks around the values have no part in the settings, but for the switch: where its value is
one of its words, it must have blanks around it in both environments or in neither. And a switch
with a blank value sets nothing, but it is told. -/
theorem load_alike (alike : Alike env other) :
    ((∀ (fs : FileSystem) (home work : Option String),
        load fs (home.toList ++ work.toList) env = load fs (home.toList ++ work.toList) other) ↔
      Environment.switchWord? (env.trimmed Environment.noLog) = none ∨
        (Padded env Environment.noLog ↔ Padded other Environment.noLog)) ∧
    ∀ name, env.nonEmpty? name = none → env.flag? name = (env name).map Except.error := by
  refine ⟨?_, fun name unset =>
    Environment.flag?_of_blank (Environment.nonEmpty?_eq_none_iff.mp unset)⟩
  have word : env.trimmed Environment.noLog = other.trimmed Environment.noLog :=
    alike _ (by simp)
  have switches : (env.flag? Environment.noLog).bind Except.toOption =
      (other.flag? Environment.noLog).bind Except.toOption ↔
        Environment.switchWord? (env.trimmed Environment.noLog) = none ∨
          (Padded env Environment.noLog ↔ Padded other Environment.noLog) := by
    rw [Environment.flag?_bind_toOption, Environment.flag?_bind_toOption, ← word]
    by_cases padded : Padded env Environment.noLog <;>
      by_cases padded' : Padded other Environment.noLog <;> simp [padded, padded', eq_comm]
  rw [← switches]
  constructor
  · intro loads
    exact flag?_eq_of_load (loads _ none none) (loads quietFiles (some "c.toml") none)
  · intro switch fs home work
    rw [load_eq, load_eq, decided_congr alike switch]

theorem load_alike_padded_format :
    let env : Environment := fun name =>
      if name = Environment.format then some " JSON\t"
      else if name = Environment.noLog then some "Yes"
      else if name = Environment.user then some " " else none
    let other : Environment := fun name =>
      if name = Environment.format then some "JSON"
      else if name = Environment.noLog then some "Yes" else none
    let padded : Environment := fun name =>
      if name = Environment.format then some "JSON"
      else if name = Environment.noLog then some "Yes " else none
    Alike env other ∧ Alike env padded ∧
      (∀ fs home work, load fs (Option.toList home ++ Option.toList work) env =
        load fs (home.toList ++ work.toList) other) ∧
      (¬ ∀ fs home work, load fs (Option.toList home ++ Option.toList work) env =
        load fs (home.toList ++ work.toList) padded) ∧
      env.nonEmpty? Environment.user = none ∧
      env.flag? Environment.user = some (.error " ") := by
  intro env other padded
  have same : Alike env other := by decide +kernel
  have same' : Alike env padded := by decide +kernel
  have unset : env.nonEmpty? Environment.user = none := by decide +kernel
  refine ⟨same, same', ?_, ?_, unset, ?_⟩
  · exact (load_alike same).1.mpr (.inr (by decide +kernel))
  · intro agree
    exact absurd ((load_alike same').1.mp agree) (by decide +kernel)
  · exact (load_alike same).2 Environment.user unset

/-- A word of a switch with a blank before it is none, and a blank value is told. -/
theorem load_alike_told_blank :
    (¬ ∀ env other : Environment, Alike env other →
      ∀ (fs : FileSystem) (home work : Option String),
        load fs (home.toList ++ work.toList) env = load fs (home.toList ++ work.toList) other) ∧
    ¬ ∀ (env : Environment) (name : String), env.nonEmpty? name = none →
      env.flag? name = none := by
  constructor
  · intro whole
    let env : Environment := fun name => if name = Environment.noLog then some " yes" else none
    let other : Environment := fun name => if name = Environment.noLog then some "yes" else none
    have same := congrArg Except.toOption
      (whole env other (by decide +kernel) ⟨[], []⟩ none none)
    exact absurd same (by decide +kernel)
  · intro whole
    have told := whole (fun _ => some " ") Environment.noLog (by decide +kernel)
    cases told

end Settings

end LexicalReport
