import ApiContract.Proofs.Lint.Codes
import Mathlib.Data.List.Flatten

/-!
# What a policy decides

A policy says which routes are required, which prefixes are protected and which media types are
allowed. It should decide on these and on nothing else: whether a document is valid is not a matter
of policy.

## Main result

`Lint.policy_decides_own_warnings`, for every two policies and every document. Both reports have the
same errors, the same verdict and counts, and the same warnings of all other codes, in the same
order. If one of the policies asks for all that the other asks for, it finds all that the other
finds, in the same order.

## Proof

Three of the checks look at the policy, and what they find is warnings with codes of their own
(`codesIn_policyFindings`). So reports under two policies differ in these warnings at most
(`filter_findings_congr`). And a policy that asks for more finds all that one finds that asks for
less (`findings_sublist`): a further required route adds to what is missing, a further prefix to
what is protected, and a media type that is no longer allowed to what is unsupported.

`AsksForAllOf` compares the routes as lists, in their order and as often as they are required, for
findings come in that order; prefixes and media types are compared as sets, since each is only
looked up.
-/

namespace ApiContract

/-- A policy asks for all that another one asks for: it requires its routes, in their order,
protects its prefixes, and allows no media type that the other does not allow. -/
structure LintPolicy.AsksForAllOf (strict lenient : LintPolicy) : Prop where
  routes : lenient.requiredRoutes.Sublist strict.requiredRoutes
  prefixes : lenient.protectedPrefixes ⊆ strict.protectedPrefixes
  contentTypes : strict.allowedContentTypes ⊆ lenient.allowedContentTypes

namespace Lint

/-- The codes of the warnings that a policy decides on. -/
def policyCodes : List FindingCode :=
  [.missingRequiredRoute, .unprotectedRoute, .unsupportedContentType]

/-- What the checks find that look at the policy. -/
def policyFindings (policy : LintPolicy) (doc : Json) : List Finding :=
  checkCoverage policy doc ++ checkSecurity policy doc ++ checkContentTypes policy doc

/-- What the checks in front of those find. -/
def documentFindings (doc : Json) : List Finding :=
  checkMetadata doc ++ checkServers doc ++ checkReferences doc ++ checkOperations doc

variable (policy other strict lenient : LintPolicy) (doc : Json)

/-- The findings are those of the document, of the policy and of the components. -/
theorem findings_eq_append :
    findings policy doc = documentFindings doc ++ policyFindings policy doc ++
      checkComponents doc := by
  simp only [findings, documentFindings, policyFindings, List.append_assoc]

/-! ### Other policies -/

/-- What a policy decides on has its codes. -/
theorem codesIn_policyFindings : CodesIn policyCodes (policyFindings policy doc) :=
  (((codesIn_checkCoverage policy doc).mono (by decide)).append
    ((codesIn_checkSecurity policy doc).mono (by decide))).append
    ((codesIn_checkContentTypes policy doc).mono (by decide))

/-- **Beside the warnings that it decides on, a policy does not matter.** -/
theorem filter_findings_congr (kept : FindingCode → Bool)
    (h : ∀ code ∈ policyCodes, kept code = false) :
    (findings policy doc).filter (fun f ↦ kept f.code) =
      (findings other doc).filter fun f ↦ kept f.code := by
  have hnone (p : LintPolicy) : (policyFindings p doc).filter (fun f ↦ kept f.code) = [] :=
    (codesIn_policyFindings p doc).filter_kept_eq_nil h
  simp only [findings_eq_append, List.filter_append, hnone]

/-! ### Stricter policies -/

section

variable {strict lenient doc}

/-- More prefixes protect more paths. -/
theorem isProtected_mono (h : lenient.protectedPrefixes ⊆ strict.protectedPrefixes) {path : String}
    (hpath : isProtected lenient path = true) : isProtected strict path = true := by
  obtain ⟨beginning, hbeginning, hstarts⟩ := List.any_eq_true.1 hpath
  exact List.any_eq_true.2 ⟨beginning, h hbeginning, hstarts⟩

/-- More media types allow more. -/
theorem allowsMedia_mono (h : strict.allowedContentTypes ⊆ lenient.allowedContentTypes)
    {media : String} (hmedia : allowsMedia strict media = true) :
    allowsMedia lenient media = true := by
  obtain ⟨allowed, hallowed, hsame⟩ := List.any_eq_true.1 hmedia
  exact List.any_eq_true.2 ⟨allowed, h hallowed, hsame⟩

variable (doc)

theorem checkCoverage_sublist (h : lenient.requiredRoutes.Sublist strict.requiredRoutes) :
    (checkCoverage lenient doc).Sublist (checkCoverage strict doc) :=
  (h.filter _).map _

/-- With more prefixes, more operations lack protection. -/
theorem checkSecurity_sublist (h : lenient.protectedPrefixes ⊆ strict.protectedPrefixes) :
    (checkSecurity lenient doc).Sublist (checkSecurity strict doc) := by
  refine List.Sublist.map _ (List.monotone_filter_right _ fun e he ↦ ?_)
  rw [Bool.and_eq_true] at he ⊢
  exact ⟨isProtected_mono h he.1, he.2⟩

/-- With fewer media types, more are unsupported. -/
theorem checkContentTypes_sublist
    (h : strict.allowedContentTypes ⊆ lenient.allowedContentTypes) :
    (checkContentTypes lenient doc).Sublist (checkContentTypes strict doc) := by
  refine List.Sublist.flatMap_right _ fun e _ ↦
    List.Sublist.map _ (List.monotone_filter_right _ fun media hmedia ↦ ?_)
  rw [Bool.not_eq_true', ← Bool.not_eq_true] at hmedia ⊢
  exact fun hallowed ↦ hmedia (allowsMedia_mono h hallowed)

/-- **A policy that asks for more finds all that one finds that asks for less.** -/
theorem findings_sublist (h : strict.AsksForAllOf lenient) :
    (findings lenient doc).Sublist (findings strict doc) := by
  have hpolicy : (policyFindings lenient doc).Sublist (policyFindings strict doc) :=
    ((checkCoverage_sublist doc h.routes).append (checkSecurity_sublist doc h.prefixes)).append
      (checkContentTypes_sublist doc h.contentTypes)
  rw [findings_eq_append, findings_eq_append]
  exact (hpolicy.append_left _).append_right _

end

/-- **A policy decides on its own warnings only, and asking for more never takes one away.** Under
any two policies a document has the same errors, the same verdict, the same counts and, in the same
order, the same warnings of the codes that no policy decides on. If one of the policies asks for all
that the other asks for, the warnings under the other are found under it, in the same order. -/
theorem policy_decides_own_warnings :
    (lint policy doc).errors = (lint other doc).errors ∧
    (lint policy doc).isValid = (lint other doc).isValid ∧
    (lint policy doc).operationCount = (lint other doc).operationCount ∧
    (lint policy doc).modelCount = (lint other doc).modelCount ∧
    (lint policy doc).warnings.filter (fun f ↦ f.code ∉ policyCodes) =
      (lint other doc).warnings.filter (fun f ↦ f.code ∉ policyCodes) ∧
    (other.AsksForAllOf policy → (lint policy doc).warnings.Sublist (lint other doc).warnings) := by
  have herrors : (lint policy doc).errors = (lint other doc).errors :=
    filter_findings_congr policy other doc (fun code ↦ code.severity == .error) (by decide)
  refine ⟨herrors, congrArg List.isEmpty herrors, rfl, rfl, ?_,
    fun h ↦ (findings_sublist doc h).filter _⟩
  rw [lint, lint, List.filter_filter, List.filter_filter]
  exact filter_findings_congr policy other doc
    (fun code ↦ code ∉ policyCodes && !(code.severity == .error)) (by decide)

/-- An operation under a prefix, open to everyone, with a body in two media types. -/
def uploadsDocument : Json :=
  .object [("paths", .object [("/v1/uploads", .object [("post", .object [
    ("requestBody", .object [("content", .object [
      ("application/json", .object []), ("text/csv; header=present", .object [])])])])])])]

/-- A policy that finds one fault in the document. -/
def lenientPolicy : LintPolicy where
  requiredRoutes := [⟨.post, "/v1/uploads"⟩, ⟨.get, "/v1/health"⟩]
  protectedPrefixes := []
  allowedContentTypes := ["application/json", "text/csv"]

/-- A policy that asks for more in each of the three lists. -/
def strictPolicy : LintPolicy where
  requiredRoutes := [⟨.post, "/v1/uploads"⟩, ⟨.get, "/v1/health"⟩, ⟨.get, "/v1/uploads"⟩]
  protectedPrefixes := ["/v1/admin", "/v1/up"]
  allowedContentTypes := ["application/json"]

/-- Two policies about a document that lacks what both ask for. -/
theorem policy_decides_own_warnings_uploadsDocument :
    strictPolicy.AsksForAllOf lenientPolicy ∧
    (lint lenientPolicy uploadsDocument).warnings.Sublist
      (lint strictPolicy uploadsDocument).warnings ∧
    ((lint lenientPolicy uploadsDocument).warnings.map Finding.code).filter (· ∈ policyCodes) =
      [.missingRequiredRoute] ∧
    ((lint strictPolicy uploadsDocument).warnings.map Finding.code).filter (· ∈ policyCodes) =
      [.missingRequiredRoute, .missingRequiredRoute, .unprotectedRoute,
        .unsupportedContentType] := by
  have hmore : strictPolicy.AsksForAllOf lenientPolicy :=
    { routes := List.sublist_append_left lenientPolicy.requiredRoutes [⟨.get, "/v1/uploads"⟩]
      prefixes := List.nil_subset _
      contentTypes := by decide }
  obtain ⟨-, -, -, -, -, hsublist⟩ :=
    policy_decides_own_warnings lenientPolicy strictPolicy uploadsDocument
  exact ⟨hmore, hsublist hmore, by decide +kernel, by decide +kernel⟩

end Lint

end ApiContract
