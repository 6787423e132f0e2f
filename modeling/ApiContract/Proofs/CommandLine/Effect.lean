import ApiContract.CommandLine.Run
import ApiContract.Proofs.Generation

/-!
# What a run writes

Before a command writes anything it has an output: a file to write, with its text
(`Command.output?`). For `generate` this takes a configuration that loads, options that make sense
and a contract that is read, accepted and rendered; for `init`, a path where nothing is, or force.

## Effects

`Effect` says all that a run can do to a workspace. A command without an output leaves the workspace
as it was; one with an output writes that file, in directories that may have been made for it, and
succeeds, or fails and leaves at most directories. It is proved once for each command
(`Command.effect_run`), and what other modules need is derived from its three cases: what is at a
location afterwards (`Effect.get?_eq`), that failures change no file (`Effect.grows`), that success
means that the output was written (`Effect.exists_bytes_eq`).

## Formatters

Formatters are programs that may do anything, so this is about runs without one
(`Command.IsUnformatted`). That a command runs no formatter is a condition on the options that it
arrives at, and can be decided.

## What is assumed of writing

A workspace is written to as a whole or not at all; what a full disk or a broken run leaves behind
is not modelled.
-/

namespace ApiContract.CommandLine

open Workspace (Grows)

/-- A file to be written. -/
structure Output where
  path : FilePath
  text : String

/-! ### What a command is about to write -/

namespace Command

/-- Options, with what a command line says about a generation. -/
def generationOptions (host : Host) (options : GenerateOptions)
    (skipValidation noFormat timestamp : Bool) : GenerateOptions :=
  { options with
    skipValidation
    formatter := if noFormat then none else options.formatter
    render := { options.render with
      generatedAt := if timestamp then some host.now else options.render.generatedAt } }

/-- The options that a generation works with, if a configuration loads and makes sense. -/
def options? (host : Host) (w : Workspace) : Command → Option GenerateOptions
  | .generate config target skipValidation noFormat timestamp =>
    (Config.load host.environment w config).toOption.bind fun config ↦
      (target.options config host.now).toOption.map fun options ↦
        generationOptions host options skipValidation noFormat timestamp
  | _ => none

/-- The file that a command is about to write, unless it fails before or only reads. -/
def output? (host : Host) (w : Workspace) (command : Command) : Option Output :=
  match command with
  | .generate _ target _ _ _ =>
    (command.options? host w).bind fun options ↦
      (w.contract target.input >>= fun doc ↦
          compile doc options.toCompileOptions .standard).toOption.map fun text ↦
        ⟨options.format.artifactPath target.output, text⟩
  | .init path force =>
    if (w.at? path).isSome && !force then none else some ⟨path, ({} : Config).toTomlText⟩
  | .check _ _ | .validate _ _ _ _ => none

/-- A command that runs no formatter. -/
def IsUnformatted (host : Host) (w : Workspace) (command : Command) : Prop :=
  ∀ options ∈ command.options? host w, options.formatter = none

instance (host : Host) (w : Workspace) (command : Command) :
    Decidable (command.IsUnformatted host w) :=
  inferInstanceAs (Decidable (∀ options ∈ command.options? host w, options.formatter = none))

/-- A command that only reads. -/
def isReading : Command → Bool
  | .generate _ _ _ _ _ | .init _ _ => false
  | .check _ _ | .validate _ _ _ _ => true

end Command

/-! ### What it makes of the workspace -/

/-- What a run makes of a workspace, and how it ends, given whether it only reads and what it is
about to write. -/
inductive Effect (w : Workspace) (reading : Bool) : Option Output → Transcript → Workspace → Prop
  /-- Nothing is to be written: the run only reads, or has failed. -/
  | idle {transcript : Transcript} (hexit : reading = false → transcript.exit ≠ 0) :
      Effect w reading none transcript w
  /-- The file cannot be written. -/
  | refused {output : Output} {transcript : Transcript} {later : Workspace}
      (hexit : transcript.exit ≠ 0) (hmade : Grows w later) :
      Effect w reading (some output) transcript later
  /-- The file is written, in directories that may have been made for it. -/
  | written {output : Output} {transcript : Transcript} {between later : Workspace}
      (hexit : transcript.exit = 0) (hmade : Grows w between)
      (hwrite : between.write output.path output.text.toUTF8 = .ok later) :
      Effect w reading (some output) transcript later

namespace Effect

variable {w later : Workspace} {reading : Bool} {output? : Option Output} {transcript : Transcript}

/-- **A run changes what is at the place of its output, if it succeeds**, and elsewhere makes at
most directories where nothing was. -/
theorem get?_eq (h : Effect w reading output? transcript later) (l : Location) :
    later.get? l = w.get? l ∨
      (transcript.exit = 0 ∧ ∃ output ∈ output?, later.locate output.path = .ok l) ∨
      w.get? l = none ∧ later.get? l = some .directory := by
  cases h with
  | idle => exact .inl rfl
  | refused _ hmade => exact (hmade.get?_eq l).imp_right .inr
  | written hexit hmade hwrite =>
    obtain ⟨m, hlocate, hchange, -⟩ := Workspace.exists_of_write_eq_ok hwrite
    by_cases hl : l = m
    · subst hl
      exact .inr (.inl ⟨hexit, _, rfl, hchange.locate_eq hlocate⟩)
    · rw [hchange.others l hl]
      exact (hmade.get?_eq l).imp_right .inr

/-- A run without an output leaves the workspace as it was. -/
theorem later_eq (h : Effect w reading none transcript later) : later = w := by
  cases h
  rfl

/-- A run that fails makes at most directories. -/
theorem grows (h : Effect w reading output? transcript later) (hexit : transcript.exit ≠ 0) :
    Grows w later := by
  cases h with
  | idle => exact .refl
  | refused _ hmade => exact hmade
  | written hzero => exact absurd hzero hexit

/-- A run that is to write something and succeeds has written it. -/
theorem exists_bytes_eq (h : Effect w false output? transcript later)
    (hexit : transcript.exit = 0) :
    ∃ output ∈ output?, later.bytes output.path = .ok output.text.toUTF8 := by
  cases h with
  | idle hfailed => exact absurd hexit (hfailed rfl)
  | refused hfailed => exact absurd hexit hfailed
  | written _ _ hwrite => exact ⟨_, rfl, Workspace.bytes_of_write hwrite⟩

end Effect

variable {host : Host} {w : Workspace}

/-- A generation writes the artifact that the contract compiles to. -/
theorem effect_runGenerate {target : Target} {options : GenerateOptions}
    (hformatter : options.formatter = none) :
    Effect w false
      ((w.contract target.input >>= fun doc ↦
          compile doc options.toCompileOptions .standard).toOption.map fun text ↦
        ⟨options.format.artifactPath target.output, text⟩)
      (runGenerate host target options w).1 (runGenerate host target options w).2 := by
  rcases hcontent : w.contract target.input >>= fun doc ↦
      compile doc options.toCompileOptions .standard with failure | text
  · have hgenerate : generate host.programs target.input target.output options w =
        (.error failure, w) := by
      rw [generate, hcontent]
    rw [runGenerate, hgenerate]
    exact .idle fun _ ↦ Nat.one_ne_zero
  · have hgenerate : generate host.programs target.input target.output options w =
        emit host.programs target.output options.format text none w := by
      rw [generate, hcontent, hformatter]
    rw [runGenerate, hgenerate]
    rcases hemit : emit host.programs target.output options.format text none w with
      ⟨failure | report, later⟩
    · exact .refused Nat.one_ne_zero (grows_of_emit_eq_error hemit)
    · obtain ⟨between, hparent, hwrite, -⟩ := exists_of_emit_eq_ok hemit
      have hmade : Grows w (w.makeParent (options.format.artifactPath target.output)).2 :=
        grows_makeParent
      rw [hparent] at hmade
      exact .written rfl hmade hwrite

/-- Making a configuration writes it, or refuses to. -/
theorem effect_runInit (path : FilePath) (force : Bool) :
    Effect w false ((Command.init path force).output? host w) (runInit path force w).1
      (runInit path force w).2 := by
  rw [Command.output?, runInit]
  split
  · exact .idle fun _ ↦ Nat.one_ne_zero
  · rw [Config.save]
    split
    · exact .refused Nat.one_ne_zero .refl
    · next hwrite => exact .written rfl .refl hwrite

/-- **Without force, `init` changes nothing that is there.** -/
theorem get?_runInit_of_not_force (path : FilePath) {l : Location} (hl : w.get? l ≠ none) :
    (runInit path false w).2.get? l = w.get? l := by
  rw [runInit]
  split
  · rfl
  · next hfree =>
    have hnothing : w.at? path = none := by simpa using hfree
    rw [Config.save]
    split
    · rfl
    · next later hwrite =>
      obtain ⟨m, hlocate, hchange, -⟩ := Workspace.exists_of_write_eq_ok hwrite
      have hnew : w.get? m = none := by rwa [Workspace.at?, hlocate] at hnothing
      exact hchange.others l fun heq ↦ hl (heq ▸ hnew)

namespace Command

/-- **A command writes its output and nothing else.** -/
theorem effect_run {command : Command} (h : command.IsUnformatted host w) :
    Effect w command.isReading (command.output? host w) (command.run host w).1
      (command.run host w).2 := by
  cases command with
  | init path force => exact effect_runInit path force
  | check config target =>
    rw [output?, run, isReading]
    rcases Config.load host.environment w config with fault | config
    · exact .idle nofun
    · dsimp only
      split <;> exact .idle nofun
  | validate config input json strict =>
    rw [output?, run, isReading]
    rcases Config.load host.environment w config with fault | config <;> exact .idle nofun
  | generate config target skipValidation noFormat timestamp =>
    rw [IsUnformatted, options?] at h
    rw [output?, options?, run, isReading]
    rcases hconfig : Config.load host.environment w config with fault | config
    · exact .idle fun _ ↦ Nat.one_ne_zero
    · rw [hconfig] at h
      rcases hoptions : target.options config host.now with failure | options
      · simp only [Except.toOption, Option.bind_some, hoptions, Option.map_none, Option.bind_none]
        exact .idle fun _ ↦ Nat.one_ne_zero
      · simp only [Except.toOption, Option.bind_some, hoptions, Option.map_some] at h ⊢
        exact effect_runGenerate (h _ rfl)

end Command

end ApiContract.CommandLine
