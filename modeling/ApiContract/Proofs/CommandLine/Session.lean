import ApiContract.Proofs.CommandLine.Effect

/-!
# Which files a session changes

A session is a list of runs, one after the other, and each finds the workspace as the one before
left it: artifacts and configurations that were written may be read again.

## Steps and sessions

A `Step` is a run with the workspace that it finds. What one step keeps of the workspace is
`Step.IsContained`, and follows from its `Effect` (`Step.isContained`). `steps` lists the steps of a
session, each on what the one before made, and the statement about a whole session is an induction
over the list of runs: a location that changes is one that some step writes, or becomes a directory
where nothing was (`get?_afterAll`).

## Main result

`only_outputs_change`: in every session without a formatter, from every workspace, only locations
change at which a successful `generate` has its artifact or a successful `init` its configuration,
but for directories where nothing was. The runs in it that fail before they write, or only read,
change nothing; those that fail in writing make at most directories; `init` without force keeps what
is there.

A session of five runs, of both programs, is at the end.
-/

namespace ApiContract.CommandLine

open Workspace (Grows)

/-- A run to be made: of a program, with what it finds around it and its arguments. -/
structure Invocation where
  program : Program
  host : Host
  arguments : List String

/-- A run on a workspace. -/
structure Step where
  invocation : Invocation
  before : Workspace

namespace Step

/-- The command that the arguments give. -/
def command? (s : Step) : Option Command :=
  (Command.ofArguments s.invocation.program s.invocation.arguments).toOption

/-- What the run shows and makes of the workspace. -/
def result (s : Step) : Transcript × Workspace :=
  s.invocation.program.run s.invocation.host s.invocation.arguments s.before

/-- What the run shows. -/
abbrev transcript (s : Step) : Transcript := s.result.1

/-- The workspace after the run. -/
abbrev after (s : Step) : Workspace := s.result.2

/-- The file that the run is about to write, unless it fails before or only reads. -/
def output? (s : Step) : Option Output :=
  s.command?.bind (Command.output? s.invocation.host s.before)

/-- The run is none of `generate` and `init`. -/
def isReading (s : Step) : Bool := s.command?.all Command.isReading

/-- The run has no formatter configured. -/
def IsUnformatted (s : Step) : Prop :=
  ∀ command ∈ s.command?, command.IsUnformatted s.invocation.host s.before

instance (s : Step) : Decidable s.IsUnformatted :=
  inferInstanceAs (Decidable (∀ command ∈ s.command?, _))

/-- The run succeeds, and what it was about to write is at a location. -/
def Writes (s : Step) (l : Location) : Prop :=
  s.transcript.exit = 0 ∧ ∃ output ∈ s.output?, s.after.locate output.path = .ok l

instance (s : Step) (l : Location) : Decidable (s.Writes l) :=
  inferInstanceAs (Decidable (_ ∧ ∃ output ∈ s.output?, _))

/-- What a run keeps of the workspace. -/
structure IsContained (s : Step) : Prop where
  /-- A run that fails before it writes, or only reads, changes nothing. -/
  after_eq : s.output? = none → s.after = s.before
  /-- A run that is none of `generate` and `init` changes nothing. -/
  reading : s.isReading = true → s.after = s.before
  /-- A run that fails makes at most directories. -/
  failed : s.transcript.exit ≠ 0 → Grows s.before s.after
  /-- Without force, `init` changes nothing that is there. -/
  unforced : ∀ path, s.command? = some (.init path false) →
    ∀ l, s.before.get? l ≠ none → s.after.get? l = s.before.get? l
  /-- A `generate` or `init` that succeeds has written its output. -/
  succeeded : s.isReading = false → s.transcript.exit = 0 →
    ∃ output ∈ s.output?, s.after.bytes output.path = .ok output.text.toUTF8

variable {s : Step}

/-- A run whose arguments give a command is that command's. -/
theorem result_eq_run {command : Command} (h : s.command? = some command) :
    s.result = command.run s.invocation.host s.before := by
  rw [command?] at h
  rw [result, Program.run]
  rcases hcommand : Command.ofArguments s.invocation.program s.invocation.arguments with _ | found
  · rw [hcommand] at h
    exact absurd h nofun
  · rw [hcommand] at h
    obtain rfl : found = command := Option.some.inj h
    rfl

/-- A run whose arguments give no command changes nothing. -/
theorem result_of_command?_eq_none (h : s.command? = none) : s.result.2 = s.before := by
  rw [command?] at h
  rw [result, Program.run]
  rcases hcommand : Command.ofArguments s.invocation.program s.invocation.arguments with
    (_ | fault) | command
  · rfl
  · rfl
  · rw [hcommand] at h
    exact absurd h nofun

/-- **A run writes its output and nothing else**, where no formatter is configured. -/
theorem effect (h : s.IsUnformatted) :
    Effect s.before s.isReading s.output? s.transcript s.after := by
  rw [isReading, output?, transcript, after]
  rcases hcommand : s.command? with - | command
  · rw [result_of_command?_eq_none hcommand]
    exact .idle nofun
  · rw [result_eq_run hcommand]
    exact Command.effect_run (h command hcommand)

/-- A run that only reads is not about to write. -/
theorem output?_eq_none_of_isReading (h : s.isReading = true) : s.output? = none := by
  rw [isReading] at h
  rw [output?]
  rcases hcommand : s.command? with - | command
  · rfl
  · rw [hcommand] at h
    cases command with
    | check | validate => rfl
    | generate | init => exact absurd h Bool.false_ne_true

/-- **A run keeps all of the workspace but its output.** -/
theorem isContained (h : s.IsUnformatted) : s.IsContained := by
  have heffect := effect h
  have hidle (hnone : s.output? = none) : s.after = s.before :=
    (hnone ▸ heffect : Effect s.before s.isReading none s.transcript s.after).later_eq
  constructor
  case after_eq => exact hidle
  case reading => exact fun hreading ↦ hidle (output?_eq_none_of_isReading hreading)
  case failed => exact heffect.grows
  case unforced =>
    intro path hcommand l hl
    rw [after, result_eq_run hcommand]
    exact get?_runInit_of_not_force path hl
  case succeeded =>
    intro hwriting hexit
    rw [hwriting] at heffect
    exact heffect.exists_bytes_eq hexit

end Step

/-! ### Sessions -/

/-- The runs of a session, each on what the one before left. -/
def steps : List Invocation → Workspace → List Step
  | [], _ => []
  | invocation :: rest, w => ⟨invocation, w⟩ :: steps rest (Step.mk invocation w).after

/-- The workspace after a session. -/
def afterAll : List Invocation → Workspace → Workspace
  | [], w => w
  | invocation :: rest, w => afterAll rest (Step.mk invocation w).after

/-- **A session changes what is at the places of its outputs**, and elsewhere makes at most
directories where nothing was. -/
theorem get?_afterAll {invocations : List Invocation} {w : Workspace}
    (h : ∀ step ∈ steps invocations w, step.IsUnformatted) (l : Location) :
    (afterAll invocations w).get? l = w.get? l ∨
      (∃ step ∈ steps invocations w, step.Writes l) ∨
      w.get? l = none ∧ (afterAll invocations w).get? l = some .directory := by
  -- on the runs, over all workspaces: the rest starts from what the first one left
  induction invocations generalizing w with
  | nil => exact .inl rfl
  | cons invocation rest ih =>
    obtain ⟨hfirst, hrest⟩ := List.forall_mem_cons.1 h
    rcases (Step.effect hfirst).get?_eq l with hsame | hwrites | ⟨hnone, hdirectory⟩
    · rcases ih hrest with hlater | ⟨step, hstep, hwrites⟩ | ⟨hnone, hdirectory⟩
      · exact .inl (hlater.trans hsame)
      · exact .inr (.inl ⟨step, List.mem_cons_of_mem _ hstep, hwrites⟩)
      · exact .inr (.inr ⟨hsame.symm.trans hnone, hdirectory⟩)
    · exact .inr (.inl ⟨_, List.mem_cons_self, hwrites⟩)
    · rcases ih hrest with hlater | ⟨step, hstep, hwrites⟩ | ⟨hgone, -⟩
      · exact .inr (.inr ⟨hnone, hlater.trans hdirectory⟩)
      · exact .inr (.inl ⟨step, List.mem_cons_of_mem _ hstep, hwrites⟩)
      · exact absurd (hdirectory.symm.trans hgone) nofun

/-- **Only outputs change.** In every session without a formatter, from every workspace, a location
at which no successful `generate` has its artifact and no successful `init` its configuration holds
at the end what it held at the beginning, but for directories where nothing was. Of its runs, those
that fail before they write, or only read, leave the workspace as it is, those that fail in writing
make at most directories, `init` without force keeps what is there, and those that are to write and
succeed have written their output. -/
theorem only_outputs_change (invocations : List Invocation) (w : Workspace)
    (h : ∀ step ∈ steps invocations w, step.IsUnformatted) :
    (∀ l, (afterAll invocations w).get? l = w.get? l ∨
      (∃ step ∈ steps invocations w, step.Writes l) ∨
      w.get? l = none ∧ (afterAll invocations w).get? l = some .directory) ∧
    ∀ step ∈ steps invocations w, step.IsContained :=
  ⟨get?_afterAll h, fun step hstep ↦ Step.isContained (h step hstep)⟩

/-- A generation that is told to skip the validation, one that is not and fails in it, as the
validator does, and the configuration made once and refused the second time. -/
def petsSession : List Invocation :=
  [ (.generator, ["generate", "-i", "api/pets.json", "-o", "out/client", "--skip-validation"])
  , (.generator, ["generate", "-i", "api/pets.json", "-o", "out/client"])
  , (.validator, ["api/pets.json"])
  , (.generator, ["init"])
  , (.generator, ["init"])
  ].map fun (program, arguments) ↦
    ⟨program, ⟨⟨0, 0⟩, [], fun _ _ w ↦ (.exited 0 "", w)⟩, arguments⟩

/-- The contract is what it was, whatever the runs made of the files beside it. -/
theorem only_outputs_change_petsSession :
    (steps petsSession petsWorkspace).map (fun step ↦ step.transcript.exit) = [0, 1, 1, 0, 1] ∧
      (∀ step ∈ steps petsSession petsWorkspace, step.IsUnformatted) ∧
      (∀ step ∈ steps petsSession petsWorkspace, step.IsContained) ∧
      (afterAll petsSession petsWorkspace).get? ["api", "pets.json"] =
        petsWorkspace.get? ["api", "pets.json"] := by
  -- in one goal, so that the runs are evaluated once
  have hruns :
      (steps petsSession petsWorkspace).map (fun step ↦ step.transcript.exit) = [0, 1, 1, 0, 1] ∧
      (∀ step ∈ steps petsSession petsWorkspace, step.IsUnformatted) ∧
      ∀ step ∈ steps petsSession petsWorkspace, ¬step.Writes ["api", "pets.json"] := by
    decide +kernel
  obtain ⟨hexits, hunformatted, helsewhere⟩ := hruns
  have hcontract : (petsWorkspace.get? ["api", "pets.json"]).isSome = true := by decide +kernel
  obtain ⟨hplaces, hsteps⟩ := only_outputs_change petsSession petsWorkspace hunformatted
  refine ⟨hexits, hunformatted, hsteps, ?_⟩
  rcases hplaces ["api", "pets.json"] with hsame | ⟨step, hstep, hwrites⟩ | ⟨hnone, -⟩
  · exact hsame
  · exact absurd hwrites (helsewhere step hstep)
  · rw [hnone] at hcontract
    exact absurd hcontract Bool.false_ne_true

end ApiContract.CommandLine
