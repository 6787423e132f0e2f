import ApiContract.Lint.Report
import ApiContract.Proofs.Lint.References

/-!
# Which check reports what

A report is the findings of all checks, one after the other, and says of each only its code. To
reason about one kind of finding, one has to know that no other check reports it.

## Codes of checks

Each check reports findings of its own codes: `CodesIn` with the codes of the source, one lemma for
each check, and the table of all `checks`. The lemmas follow the shape of the checks, as lists that
are put together, mapped or filtered; so there is one lemma about `CodesIn` for each such shape, and
a new check needs a line for itself and a line in the table.

## Main results

What a report says under a code that a check has for itself is what that check found
(`filter_findings`). This is used for unresolved references, for unprotected routes and for required
routes; the severity of a code decides whether it is among the errors or the warnings
(`filter_errors`, `filter_warnings`).

Which findings a *policy* can turn off is not said by the codes but by which checks look at it, and
is the subject of the module about policies.
-/

namespace ApiContract

namespace Lint

/-- The findings have no other codes than these. -/
def CodesIn (codes : List FindingCode) (found : List Finding) : Prop :=
  ∀ f ∈ found, f.code ∈ codes

section

variable {codes : List FindingCode} {found : List Finding}

theorem CodesIn.nil : CodesIn codes [] := nofun

theorem CodesIn.singleton {code : FindingCode} {path message : String} (h : code ∈ codes) :
    CodesIn codes [⟨code, path, message⟩] :=
  List.forall_mem_singleton.2 h

theorem CodesIn.mono {others : List FindingCode} (h : CodesIn codes found)
    (hothers : codes ⊆ others) : CodesIn others found :=
  fun f hf ↦ hothers (h f hf)

theorem CodesIn.append {more : List Finding} (h : CodesIn codes found)
    (hmore : CodesIn codes more) : CodesIn codes (found ++ more) :=
  List.forall_mem_append.2 ⟨h, hmore⟩

/-- Findings under a condition. -/
theorem CodesIn.ite {condition : Prop} [Decidable condition] {otherwise : List Finding}
    (h : CodesIn codes found) (hotherwise : CodesIn codes otherwise) :
    CodesIn codes (if condition then found else otherwise) := by
  split
  · exact h
  · exact hotherwise

/-- The findings of a check of each entry. -/
theorem CodesIn.flatMap {α : Type} {list : List α} {check : α → List Finding}
    (h : ∀ x ∈ list, CodesIn codes (check x)) : CodesIn codes (list.flatMap check) := by
  intro f hf
  obtain ⟨x, hx, hfound⟩ := List.mem_flatMap.1 hf
  exact h x hx f hfound

/-- One finding with one code for each entry. -/
theorem CodesIn.map {α : Type} {list : List α} {code : FindingCode} {path message : α → String}
    (h : code ∈ codes) : CodesIn codes (list.map fun x ↦ ⟨code, path x, message x⟩) := by
  intro f hf
  obtain ⟨x, -, rfl⟩ := List.mem_map.1 hf
  exact h

/-- One finding with one code for each entry that does not pass. -/
theorem CodesIn.filterMap {α : Type} {list : List α} {passes : α → Bool} {code : FindingCode}
    {path message : α → String} (h : code ∈ codes) :
    CodesIn codes
      (list.filterMap fun x ↦ if passes x then none else some ⟨code, path x, message x⟩) := by
  intro f hf
  obtain ⟨x, -, hfound⟩ := List.mem_filterMap.1 hf
  split at hfound
  · exact absurd hfound nofun
  · exact Option.some.inj hfound ▸ h

/-- Nothing is kept where none of the codes is. -/
theorem CodesIn.filter_kept_eq_nil (h : CodesIn codes found) {kept : FindingCode → Bool}
    (hkept : ∀ code ∈ codes, kept code = false) : found.filter (fun f ↦ kept f.code) = [] :=
  List.filter_eq_nil_iff.2 fun f hf ↦ Bool.eq_false_iff.1 (hkept f.code (h f hf))

/-- Nothing has a code that is none of these. -/
theorem CodesIn.filter_eq_nil (h : CodesIn codes found) {code : FindingCode}
    (hcode : code ∉ codes) : found.filter (fun f ↦ f.code == code) = [] :=
  h.filter_kept_eq_nil fun _ hother ↦ beq_false_of_ne (ne_of_mem_of_not_mem hother hcode)

/-- Everything has the one code that there is. -/
theorem CodesIn.filter_eq_self {code : FindingCode} (h : CodesIn [code] found) :
    found.filter (fun f ↦ f.code == code) = found :=
  List.filter_eq_self.2 fun f hf ↦ beq_iff_eq.2 (List.mem_singleton.1 (h f hf))

end

variable (policy : LintPolicy) (doc : Json)

/-- The codes of what is said about the metadata. -/
def metadataCodes : List FindingCode :=
  [.incompatibleVersion, .missingVersion, .invalidVersion, .missingInfo, .missingTitle,
    .missingApiVersion, .missingDescription]

/-- The check of the metadata has their codes. -/
theorem codesIn_checkMetadata : CodesIn metadataCodes (checkMetadata doc) := by
  refine .append ?_ ?_
  · unfold checkVersion
    split
    · exact .ite (.singleton (by decide)) (.singleton (by decide))
    · split
      · exact .ite .nil (.singleton (by decide))
      · exact .singleton (by decide)
  · unfold checkInfo
    split
    · exact .singleton (by decide)
    · exact (CodesIn.append (.ite (.singleton (by decide)) .nil)
        (.ite (.singleton (by decide)) .nil)).append (.ite (.singleton (by decide)) .nil)

/-- The check of the servers has two codes. -/
theorem codesIn_checkServers : CodesIn [.noServers, .missingServerUrl] (checkServers doc) := by
  unfold checkServers
  split
  · exact .singleton (by decide)
  · exact .filterMap (by decide)

theorem codesIn_checkReferences : CodesIn [.unresolvedReference] (checkReferences doc) :=
  .filterMap (by decide)

/-- The codes of what is said about one operation. -/
def operationCodes : List FindingCode :=
  [.missingSuccessResponse, .missingErrorResponse, .missingOperationId, .missingSummary,
    .missingTags, .missingRequestBody, .missingParameterName, .missingParameterLocation,
    .missingParameterSchema, .unboundPathParameter, .unusedPathParameter]

theorem codesIn_checkResponses (op : List (String × Json)) (path label : String) :
    CodesIn operationCodes (checkResponses op path label) :=
  .append (.ite .nil (.singleton (by decide))) (.ite .nil (.singleton (by decide)))

/-- What is said about the description of an operation. -/
theorem codesIn_checkDescription (method : HttpMethod) (op : List (String × Json))
    (path label : String) : CodesIn operationCodes (checkDescription method op path label) :=
  (((CodesIn.ite (.singleton (by decide)) .nil).append (.ite (.singleton (by decide)) .nil)).append
    (.ite (.singleton (by decide)) .nil)).append (.ite (.singleton (by decide)) .nil)

/-- What is said about a parameter. -/
theorem codesIn_checkParameter (parameter : List (String × Json)) (path : String) :
    CodesIn operationCodes (checkParameter parameter path) :=
  ((CodesIn.ite (.singleton (by decide)) .nil).append (.ite (.singleton (by decide)) .nil)).append
    (.ite .nil (.singleton (by decide)))

/-- What is said about placeholders and the parameters for them. -/
theorem codesIn_checkBinding (named : List String) (declared : NameSet)
    (path template label : String) :
    CodesIn operationCodes (checkBinding named declared path template label) :=
  .append (.map (by decide)) (.map (by decide))

/-- The check of the operations has their codes, and that of missing paths. -/
theorem codesIn_checkOperations :
    CodesIn (.missingPaths :: operationCodes) (checkOperations doc) := by
  unfold checkOperations
  split
  · exact .singleton (by decide)
  · refine .mono (.flatMap fun e _ ↦ ?_) (List.subset_cons_self _ _)
    exact (((codesIn_checkResponses _ _ _).append (codesIn_checkDescription _ _ _ _)).append
      (.flatMap fun _ _ ↦ codesIn_checkParameter _ _)).append (codesIn_checkBinding _ _ _ _ _)

theorem codesIn_checkCoverage : CodesIn [.missingRequiredRoute] (checkCoverage policy doc) :=
  .map (by decide)

theorem codesIn_checkSecurity : CodesIn [.unprotectedRoute] (checkSecurity policy doc) :=
  .map (by decide)

theorem codesIn_checkContentTypes :
    CodesIn [.unsupportedContentType] (checkContentTypes policy doc) :=
  .flatMap fun _ _ ↦ .map (by decide)

/-- The codes of what is said about one schema. -/
def schemaCodes : List FindingCode := [.invalidSchema, .arrayWithoutItems, .untypedSchema]

/-- What is said about a schema, at whatever depth. -/
theorem codesIn_checkSchema (levels : Nat) (entry : String × Json) :
    CodesIn schemaCodes (checkSchema levels entry) := by
  induction levels generalizing entry with
  | zero => exact .nil
  | succ levels ih =>
    obtain ⟨path, schema⟩ := entry
    cases schema with
    | object fields =>
      exact .ite .nil (.append (.append (.ite (.singleton (by decide)) .nil)
        (.ite .nil (.singleton (by decide)))) (.flatMap fun below _ ↦ ih below))
    | bool _ => exact .nil
    | _ => exact .singleton (by decide)

theorem codesIn_checkComponents : CodesIn schemaCodes (checkComponents doc) :=
  .flatMap fun _ _ ↦ codesIn_checkSchema _ _

/-! ### Findings under one code -/

/-- A choice that takes all findings of a code leaves them as they are. -/
theorem filter_code_filter {p : Finding → Bool} {code : FindingCode}
    (h : ∀ f : Finding, f.code = code → p f = true) (all : List Finding) :
    (all.filter p).filter (fun f ↦ f.code == code) = all.filter fun f ↦ f.code == code := by
  rw [List.filter_filter]
  refine List.filter_congr fun f _ ↦ ?_
  by_cases hcode : f.code = code
  · rw [h f hcode, Bool.and_true]
  · rw [beq_false_of_ne hcode, Bool.false_and]

variable {policy doc} in
/-- What a report says under the code of an error is among its errors. -/
theorem filter_errors {code : FindingCode} (h : code.severity = .error) :
    (lint policy doc).errors.filter (fun f ↦ f.code == code) =
      (findings policy doc).filter fun f ↦ f.code == code :=
  filter_code_filter (fun f hcode ↦ by simp [Finding.isError, Finding.severity, hcode, h]) _

variable {policy doc} in
/-- What a report says under the code of a warning is among its warnings. -/
theorem filter_warnings {code : FindingCode} (h : code.severity = .warning) :
    (lint policy doc).warnings.filter (fun f ↦ f.code == code) =
      (findings policy doc).filter fun f ↦ f.code == code :=
  filter_code_filter (fun f hcode ↦ by simp [Finding.isError, Finding.severity, hcode, h]) _

/-- What gives nothing may be left out. -/
theorem flatMap_filter_of_eq_nil {α β : Type} {p : α → Bool} {f : α → List β} {list : List α}
    (h : ∀ x ∈ list, p x = false → f x = []) : (list.filter p).flatMap f = list.flatMap f := by
  induction list with
  | nil => rfl
  | cons x rest ih =>
    obtain ⟨hx, hrest⟩ := List.forall_mem_cons.1 h
    rw [List.filter_cons, List.flatMap_cons, ← ih hrest]
    split
    · rfl
    · next hp => rw [hx (Bool.eq_false_iff.2 hp), List.nil_append]

/-- The checks in their order, each with the codes of its findings. -/
def checks : List (List FindingCode × List Finding) := [
  (metadataCodes, checkMetadata doc),
  ([.noServers, .missingServerUrl], checkServers doc),
  ([.unresolvedReference], checkReferences doc),
  (.missingPaths :: operationCodes, checkOperations doc),
  ([.missingRequiredRoute], checkCoverage policy doc),
  ([.unprotectedRoute], checkSecurity policy doc),
  ([.unsupportedContentType], checkContentTypes policy doc),
  (schemaCodes, checkComponents doc)]

theorem findings_eq_flatMap : findings policy doc = (checks policy doc).flatMap Prod.snd := by
  simp only [findings, checks, List.flatMap_cons, List.flatMap_nil, List.append_nil,
    List.append_assoc]

variable {policy doc}

/-- **Every check of the table has the codes that it is listed with.** -/
theorem codesIn_of_mem_checks {check : List FindingCode × List Finding}
    (h : check ∈ checks policy doc) : CodesIn check.1 check.2 := by
  revert check
  simp only [checks, List.forall_mem_cons]
  exact ⟨codesIn_checkMetadata doc, codesIn_checkServers doc, codesIn_checkReferences doc,
    codesIn_checkOperations doc, codesIn_checkCoverage policy doc, codesIn_checkSecurity policy doc,
    codesIn_checkContentTypes policy doc, codesIn_checkComponents doc, nofun⟩

/-- If a code is the only one of a single check, what has it is what that check found. -/
theorem filter_findings {code : FindingCode} {found : List Finding}
    (h : (checks policy doc).filter (fun check ↦ code ∈ check.1) = [([code], found)]) :
    (findings policy doc).filter (fun f ↦ f.code == code) = found := by
  have hmem : ([code], found) ∈ checks policy doc :=
    List.mem_of_mem_filter (h ▸ List.mem_singleton_self _)
  have hfound : CodesIn [code] found := codesIn_of_mem_checks hmem
  have hothers : ∀ check ∈ checks policy doc, decide (code ∈ check.1) = false →
      check.2.filter (fun f ↦ f.code == code) = [] := fun check hcheck hcode ↦
    (codesIn_of_mem_checks hcheck).filter_eq_nil (of_decide_eq_false hcode)
  rw [findings_eq_flatMap, List.filter_flatMap, ← flatMap_filter_of_eq_nil hothers, h,
    List.flatMap_singleton, hfound.filter_eq_self]

variable (policy doc)

/-- **The errors of a report about references are what the check of references found.** -/
theorem filter_errors_unresolvedReference :
    (lint policy doc).errors.filter (fun f ↦ f.code == .unresolvedReference) =
      checkReferences doc :=
  (filter_errors rfl).trans (filter_findings rfl)

/-- **The warnings of a report about protected prefixes are what their check found.** -/
theorem filter_warnings_unprotectedRoute :
    (lint policy doc).warnings.filter (fun f ↦ f.code == .unprotectedRoute) =
      checkSecurity policy doc :=
  (filter_warnings rfl).trans (filter_findings rfl)

/-- **The warnings of a report about required routes are what their check found.** -/
theorem filter_warnings_missingRequiredRoute :
    (lint policy doc).warnings.filter (fun f ↦ f.code == .missingRequiredRoute) =
      checkCoverage policy doc :=
  (filter_warnings rfl).trans (filter_findings rfl)

end Lint

end ApiContract
