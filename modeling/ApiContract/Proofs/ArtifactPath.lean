import ApiContract.Proofs.FilePath
import ApiContract.Proofs.Generation

/-!
# Where artifacts go

An output path without an extension gets that of the format, and then it has one: the path of an
artifact is its own output path, for every format. So an artifact is generated and checked alike
whether its output is spelled with the extension or without it.

## Main result

`artifact_paths_stable`, for every path, every two formats, all options and every workspace. The
path of an artifact is stable; it keeps the components above the file, the directory and, up to the
extension, the file name. Generating at either spelling is the same run, and reports the full
spelling; a later check is told alike at either spelling, if it is in the same format, and tells
about the full one.

## Proof

Paths are reasoned about by their cut at the file name (`Proofs.FilePath`), and extensions of
formats have neither slash nor point in them. `emit`, `generate` and `check` look at an output only
through `artifactPath`, so for them the statement follows from that about paths.

Paths that name no file, such as `..` or the root, have no extension and get none; for them
everything holds because nothing changes. Whether two spellings are one file for the system, by
links or by the case of letters, is outside these statements.
-/

namespace ApiContract

namespace OutputFormat

variable {p : FilePath} {f : OutputFormat}

theorem slash_not_mem_extension (f : OutputFormat) : '/' ∉ f.extension.toList := by
  cases f <;> decide +kernel

theorem dot_not_mem_extension (f : OutputFormat) : '.' ∉ f.extension.toList := by
  cases f <;> decide +kernel

theorem artifactPath_of_extension (h : p.extension?.isSome) : f.artifactPath p = p := if_pos h

theorem artifactPath_of_no_extension (h : p.extension? = none) :
    f.artifactPath p = p.withExtension f.extension :=
  if_neg (by rw [h]; exact Bool.false_ne_true)

/-- The path of an artifact stays as it is, for every format. -/
theorem artifactPath_artifactPath (p : FilePath) (f g : OutputFormat) :
    g.artifactPath (f.artifactPath p) = f.artifactPath p := by
  cases hext : p.extension? with
  | some extension =>
    have hsome : p.extension?.isSome := Option.isSome_of_eq_some hext
    rw [artifactPath_of_extension (f := f) hsome, artifactPath_of_extension hsome]
  | none =>
    by_cases hfile : p.fileName? = none
    · rw [artifactPath_of_no_extension hext, FilePath.withExtension_of_fileName?_eq_none hfile,
        artifactPath_of_no_extension hext, FilePath.withExtension_of_fileName?_eq_none hfile]
    · rw [artifactPath_of_no_extension (f := f) hext]
      have hgiven := FilePath.extension?_withExtension hfile f.slash_not_mem_extension
        f.dot_not_mem_extension
      exact artifactPath_of_extension (Option.isSome_of_eq_some hgiven)

/-- An artifact is in the directory of its output path. -/
theorem parent?_artifactPath (p : FilePath) (f : OutputFormat) :
    (f.artifactPath p).parent? = p.parent? := by
  rw [artifactPath]
  split
  · rfl
  · exact p.parent?_withExtension f.slash_not_mem_extension

/-- An artifact has the components of its output path up to the last. -/
theorem components_artifactPath (p : FilePath) (f : OutputFormat) :
    (f.artifactPath p).components.dropLast = p.components.dropLast := by
  rw [artifactPath]
  split
  · rfl
  · exact p.components_withExtension f.slash_not_mem_extension

/-- An artifact has the file name of its output path, with the extension that was missing. -/
theorem fileName?_artifactPath (p : FilePath) (f : OutputFormat) :
    (f.artifactPath p).fileName? =
      if p.extension?.isSome then p.fileName? else p.fileName?.map (· ++ "." ++ f.extension) := by
  rw [artifactPath]
  split
  · rfl
  · exact p.fileName?_withExtension f.slash_not_mem_extension

end OutputFormat

variable {programs : Programs} {w later : Workspace} {input output : FilePath}

/-- An artifact is emitted alike at either spelling. -/
theorem emit_artifactPath {format : OutputFormat} {content : String}
    {formatter : Option FormatterCommand} :
    emit programs (format.artifactPath output) format content formatter w =
      emit programs output format content formatter w := by
  rw [emit, emit, OutputFormat.artifactPath_artifactPath]

/-- An artifact is generated alike at either spelling. -/
theorem generate_artifactPath {options : GenerateOptions} :
    generate programs input (options.format.artifactPath output) options w =
      generate programs input output options w := by
  simp only [generate, emit_artifactPath]

theorem check_artifactPath {options : CompileOptions} :
    check w input (options.format.artifactPath output) options = check w input output options := by
  rw [check, check, OutputFormat.artifactPath_artifactPath]

theorem Delivery.path_eq {path : FilePath} {content : ByteArray} {written : Workspace}
    {formatter : Option FormatterCommand} {report : EmitReport}
    (h : Delivery programs path content written formatter report later) : report.path = path := by
  cases h <;> rfl

/-- A generation reports the full spelling. -/
theorem path_of_generate_eq_ok {options : GenerateOptions} {report : EmitReport}
    (h : generate programs input output options w = (.ok report, later)) :
    report.path = options.format.artifactPath output := by
  rw [generate] at h
  split at h
  · exact absurd h (by simp)
  · obtain ⟨between, written, -, -, hdelivery⟩ := exists_delivery_of_emit_eq_ok h
    exact hdelivery.path_eq

/-- A check reports the full spelling. -/
theorem path_of_check_eq_ok {options : CompileOptions} {drift : DriftReport}
    (h : check w input output options = .ok drift) :
    drift.path = options.format.artifactPath output := by
  obtain ⟨-, expected, actual, -, -, -, rfl⟩ := check_eq_ok_iff.1 h
  rw [DriftReport.ofTexts]
  split <;> rfl

/-- **Artifact paths are stable.** The path of an artifact stays as it is for every format. It has
the components of the output path up to the last one, the same directory, and the same file name,
with the format's extension behind it if it had none. So an artifact is generated alike at either
spelling of its output and is reported at the full one. A later check tells about the same path if
it is given the full spelling, in whatever format, and in the same format it comes out alike for
either. -/
theorem artifact_paths_stable (p : FilePath) (f g : OutputFormat) :
    g.artifactPath (f.artifactPath p) = f.artifactPath p ∧
    ((f.artifactPath p).components.dropLast = p.components.dropLast ∧
      (f.artifactPath p).parent? = p.parent?) ∧
    ((f.artifactPath p).fileName? =
      if p.extension?.isSome then p.fileName? else p.fileName?.map (· ++ "." ++ f.extension)) ∧
    ∀ programs input options w, options.format = f →
      generate programs input (f.artifactPath p) options w = generate programs input p options w ∧
      ∀ report generated, generate programs input p options w = (.ok report, generated) →
        report.path = f.artifactPath p ∧
        ∀ later input' (options' : CompileOptions),
          (options'.format = f →
            check later input' report.path options' = check later input' p options') ∧
          ∀ drift, check later input' report.path options' = .ok drift →
            drift.path = report.path := by
  refine ⟨OutputFormat.artifactPath_artifactPath p f g,
    ⟨OutputFormat.components_artifactPath p f, OutputFormat.parent?_artifactPath p f⟩,
    OutputFormat.fileName?_artifactPath p f, ?_⟩
  rintro programs input options w rfl
  refine ⟨generate_artifactPath, fun report generated hgenerate ↦ ?_⟩
  have hpath := path_of_generate_eq_ok hgenerate
  refine ⟨hpath, fun later input' options' ↦ ⟨fun hformat ↦ ?_, fun drift hcheck ↦ ?_⟩⟩
  · rw [hpath, ← hformat, check_artifactPath]
  · rw [path_of_check_eq_ok hcheck, hpath, OutputFormat.artifactPath_artifactPath]

/-- The client is generated without an extension and checked with it. -/
theorem artifact_paths_stable_petsWorkspace :
    ∃ report generated, petsRun = (.ok report, generated) ∧ report.path = ⟨"out/client.ts"⟩ ∧
      check generated ⟨"api/pets.json"⟩ ⟨"out/client.ts"⟩ petsOptions.toCompileOptions =
        check generated ⟨"api/pets.json"⟩ ⟨"out/client"⟩ petsOptions.toCompileOptions := by
  obtain ⟨report, generated, hrun, -⟩ := exists_petsRun
  have hpath : OutputFormat.axios.artifactPath ⟨"out/client"⟩ = ⟨"out/client.ts"⟩ := by
    decide +kernel
  obtain ⟨-, hreport⟩ := (artifact_paths_stable ⟨"out/client"⟩ .axios .openapi).2.2.2 _
    ⟨"api/pets.json"⟩ petsOptions petsWorkspace rfl
  obtain ⟨hfull, hchecks⟩ := hreport report generated hrun
  obtain ⟨hsame, -⟩ := hchecks generated ⟨"api/pets.json"⟩ petsOptions.toCompileOptions
  rw [hfull, hpath] at hsame
  exact ⟨report, generated, hrun, hfull.trans hpath, hsame rfl⟩

end ApiContract
