import ApiContract.Emission
import ApiContract.Proofs.Workspace

/-!
# What is emitted and what is reported of it

Emitting makes the directories above an artifact, writes the artifact, and hands it to the
formatter, if there is one. A formatter is a program: it may do anything to the workspace and end in
any way, and these two have nothing to do with each other.

## Deliveries

What becomes of the artifact that was written is said once, in three cases (`Delivery`): there is no
formatter, the formatter fails, or it succeeds and the artifact is read again. An emission that
succeeds makes a directory, writes and delivers (`exists_delivery_of_emit_eq_ok`), and statements
about it are case analyses on the delivery.

## Reports

The report is on what was written, or on what a formatter that succeeded has left.
`report_describes_iff` says for arbitrary programs when it describes the artifact as it is in the
end: if no formatter ran, if the formatter succeeded, and after one that failed exactly if what it
left cannot be told from what was written by size and checksum. A formatter may well rewrite an
artifact and fail (`report_outdated_overwritingRun`), as the program at the end does.
-/

namespace ApiContract

open Workspace (Grows)

variable {w written later : Workspace} {path output : FilePath} {programs : Programs}
  {format : OutputFormat} {content : String} {formatter : Option FormatterCommand}
  {report : EmitReport}

/-! ### Emitting -/

/-- Making the directory for a file makes at most directories. -/
theorem grows_makeParent : Grows w (w.makeParent path).2 := by
  rw [Workspace.makeParent]
  split
  · exact .refl
  · next above _ =>
    have h : Grows w (w.makeDirectories above).2 := Workspace.grows_makeDirectoriesFrom _
    split <;> next hmade => rwa [hmade] at h

/-- What becomes of an artifact that was written, with the report on it. -/
inductive Delivery (programs : Programs) (path : FilePath) (content : ByteArray)
    (written : Workspace) : Option FormatterCommand → EmitReport → Workspace → Prop
  /-- There is no formatter. -/
  | plain : Delivery programs path content written none (.ofBytes path content false) written
  /-- The formatter fails: the report is on what was written. -/
  | unformatted {command : FormatterCommand} {failure : Failure} {later : Workspace}
      (hrun : command.run programs path written = (.error failure, later)) :
      Delivery programs path content written (some command) (.ofBytes path content false) later
  /-- The formatter succeeds: the report is on what it left. -/
  | formatted {command : FormatterCommand} {left : ByteArray} {later : Workspace}
      (hrun : command.run programs path written = (.ok (), later))
      (hread : later.bytes path = .ok left) :
      Delivery programs path content written (some command) (.ofBytes path left true) later

/-- **An emission that succeeds writes the artifact where its directory is, and delivers it.** -/
theorem exists_delivery_of_emit_eq_ok
    (h : emit programs output format content formatter w = (.ok report, later)) :
    ∃ between written, w.makeParent (format.artifactPath output) = (.ok (), between) ∧
      between.write (format.artifactPath output) content.toUTF8 = .ok written ∧
      Delivery programs (format.artifactPath output) content.toUTF8 written formatter report
        later := by
  unfold emit at h
  dsimp only at h
  split at h
  · exact absurd h (by simp)
  · next between hparent =>
    split at h
    · exact absurd h (by simp)
    · next written hwrite =>
      refine ⟨between, written, hparent, hwrite, ?_⟩
      split at h
      · obtain ⟨hreport, rfl⟩ := Prod.mk.inj h
        exact Except.ok.inj hreport ▸ .plain
      · next command =>
        split at h
        · next hrun =>
          obtain ⟨hreport, rfl⟩ := Prod.mk.inj h
          exact Except.ok.inj hreport ▸ .unformatted hrun
        · next hrun =>
          split at h
          · next left hread =>
            obtain ⟨hreport, rfl⟩ := Prod.mk.inj h
            exact Except.ok.inj hreport ▸ .formatted hrun hread
          · exact absurd h (by simp)

/-- An artifact that is not formatted is written where its directory is, and reported as written. -/
theorem exists_of_emit_eq_ok
    (h : emit programs output format content none w = (.ok report, later)) :
    ∃ between, w.makeParent (format.artifactPath output) = (.ok (), between) ∧
      between.write (format.artifactPath output) content.toUTF8 = .ok later ∧
      report = .ofBytes (format.artifactPath output) content.toUTF8 false := by
  obtain ⟨between, written, hparent, hwrite, hdelivery⟩ := exists_delivery_of_emit_eq_ok h
  cases hdelivery
  exact ⟨between, hparent, hwrite, rfl⟩

/-- An artifact that cannot be written leaves at most the directories that were made for it. -/
theorem grows_of_emit_eq_error {failure : Failure}
    (h : emit programs output format content none w = (.error failure, later)) :
    Grows w later := by
  have hparent : Grows w (w.makeParent (format.artifactPath output)).2 := grows_makeParent
  unfold emit at h
  dsimp only at h
  split at h
  · next hmade =>
    rw [hmade] at hparent
    exact (Prod.mk.inj h).2 ▸ hparent
  · next hmade =>
    rw [hmade] at hparent
    split at h
    · exact (Prod.mk.inj h).2 ▸ hparent
    · exact absurd h (by simp)

/-! ### Reports -/

namespace EmitReport

/-- A report describes the file at its path: its size and its checksum are those of the file. -/
def Describes (report : EmitReport) (w : Workspace) : Prop :=
  ∃ content, w.bytes report.path = .ok content ∧ report.bytes = content.size ∧
    report.checksum = Checksum.ofBytes content

theorem describes_ofBytes {content : ByteArray} {formatted : Bool}
    (h : w.bytes path = .ok content) : (ofBytes path content formatted).Describes w :=
  ⟨content, h, rfl, rfl⟩

/-- The report on bytes describes a file exactly if size and checksum are the same. -/
theorem describes_ofBytes_iff {content : ByteArray} {formatted : Bool} :
    (ofBytes path content formatted).Describes w ↔ ∃ left, w.bytes path = .ok left ∧
      left.size = content.size ∧ Checksum.ofBytes left = Checksum.ofBytes content := by
  refine exists_congr fun left ↦ and_congr_right fun _ ↦ ?_
  exact and_congr eq_comm eq_comm

end EmitReport

/-- **A report describes the artifact as it is in the end, unless a formatter failed and left
another one.** An emission that succeeds has written the content and then run the formatter, if
there is one; the report says whether the formatter succeeded. Without a formatter, and after one
that succeeded, the report describes the artifact. Otherwise it does so if and only if an artifact
is left that has the size and the checksum of the content. -/
theorem report_describes_iff
    (h : emit programs output format content formatter w = (.ok report, later)) :
    report.path = format.artifactPath output ∧
      ∃ written : Workspace, written.bytes (format.artifactPath output) = .ok content.toUTF8 ∧
        later = (formatter.elim written fun command ↦
          (command.run programs (format.artifactPath output) written).2) ∧
        (report.formatted = true ↔ ∃ command ∈ formatter,
          (command.run programs (format.artifactPath output) written).1 = .ok ()) ∧
        (formatter = none → report.Describes later) ∧
        (report.formatted = true → report.Describes later) ∧
        (report.formatted = false → (report.Describes later ↔
          ∃ left, later.bytes (format.artifactPath output) = .ok left ∧
            left.size = content.toUTF8.size ∧
            Checksum.ofBytes left = Checksum.ofText content)) := by
  obtain ⟨between, written, -, hwrite, hdelivery⟩ := exists_delivery_of_emit_eq_ok h
  have hwritten : written.bytes (format.artifactPath output) = .ok content.toUTF8 :=
    Workspace.bytes_of_write hwrite
  cases hdelivery with
  | plain =>
    exact ⟨rfl, _, hwritten, rfl, by simp [EmitReport.ofBytes],
      fun _ ↦ EmitReport.describes_ofBytes hwritten, nofun,
      fun _ ↦ EmitReport.describes_ofBytes_iff⟩
  | unformatted hrun =>
    exact ⟨rfl, written, hwritten, by simp [hrun], by simp [hrun, EmitReport.ofBytes], nofun, nofun,
      fun _ ↦ EmitReport.describes_ofBytes_iff⟩
  | formatted hrun hread =>
    exact ⟨rfl, written, hwritten, by simp [hrun], by simp [hrun, EmitReport.ofBytes], nofun,
      fun _ ↦ EmitReport.describes_ofBytes hread, nofun⟩

/-! ### A formatter that rewrites the artifact -/

/-- A program that puts something short in the place of its last argument and exits with a code. -/
def overwriting (code : Nat) : Programs := fun _ arguments w ↦
  (.exited code "", (w.write ⟨arguments.getLastD ""⟩ "x\n".toUTF8).toOption.getD w)

/-- Emitting an artifact through that program. -/
def overwritingRun (code : Nat) : Except Failure EmitReport × Workspace :=
  emit (overwriting code) ⟨"o/types"⟩ .typescript "export type Id = string;\n"
    (some ⟨"prettier", ["--write"]⟩) {}

/-- Whether a run succeeds, says that it formatted, or did not, and reports a size, and the file
that it leaves has a size. -/
def hasOutcome (run : Except Failure EmitReport × Workspace) (formatted : Bool)
    (reported left : Nat) : Bool :=
  run.1.toOption.any fun report ↦
    report.formatted == formatted && report.bytes == reported &&
      (run.2.bytes report.path).toOption.map ByteArray.size == some left

theorem exists_of_hasOutcome {run : Except Failure EmitReport × Workspace} {formatted : Bool}
    {reported left : Nat} (h : hasOutcome run formatted reported left = true) :
    ∃ report later, run = (.ok report, later) ∧ report.formatted = formatted ∧
      report.bytes = reported ∧
      (later.bytes report.path).toOption.map ByteArray.size = some left := by
  obtain ⟨result, later⟩ := run
  cases result with
  | error _ => exact absurd h nofun
  | ok report =>
    rw [hasOutcome, Except.toOption, Option.any_some, Bool.and_eq_true, Bool.and_eq_true,
      beq_iff_eq, beq_iff_eq, beq_iff_eq] at h
    exact ⟨report, later, rfl, h.1.1, h.1.2, h.2⟩

/-- The program rewrites the artifact and succeeds: the report is on what it left. -/
theorem report_describes_iff_overwritingRun :
    ∃ report later, overwritingRun 0 = (.ok report, later) ∧ report.formatted = true ∧
      report.bytes = 2 ∧ report.Describes later := by
  have houtcome : hasOutcome (overwritingRun 0) true 2 2 = true := by decide +kernel
  obtain ⟨report, later, hrun, hformatted, hbytes, -⟩ := exists_of_hasOutcome houtcome
  obtain ⟨-, -, -, -, -, -, hdescribes, -⟩ := report_describes_iff hrun
  exact ⟨report, later, hrun, hformatted, hbytes, hdescribes hformatted⟩

/-- The program rewrites the artifact and fails: the report is on what is no longer there. -/
theorem report_outdated_overwritingRun :
    ∃ report later, overwritingRun 3 = (.ok report, later) ∧ ¬report.Describes later := by
  have houtcome : hasOutcome (overwritingRun 3) false 25 2 = true := by decide +kernel
  obtain ⟨report, later, hrun, -, hbytes, hleft⟩ := exists_of_hasOutcome houtcome
  refine ⟨report, later, hrun, ?_⟩
  rintro ⟨left, hread, hsize, -⟩
  rw [hread] at hleft
  have hshort : left.size = 2 := Option.some.inj hleft
  exact absurd (hbytes.symm.trans (hsize.trans hshort)) (by decide)

end ApiContract
