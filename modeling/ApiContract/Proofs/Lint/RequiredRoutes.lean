import ApiContract.Proofs.Lint.Renaming
import ApiContract.Proofs.Route

/-!
# Required routes and the names of placeholders

A required route is reported unless the document has an operation with its method and a path of the
same form (`reportedRoutes_eq_filter`). The names of placeholders are meant not to matter for this.

## Main result

They do not matter where braces enclose the segment, as in `/users/{id}`, and only there.
`Lint.coverage_unchanged_iff` says so for a renaming of the document and for one of the policy:
either leaves the routes that are reported the same, up to their own names, for all documents and
policies exactly if every path that it changes is changed in enclosed segments alone.

Where something stands in front of a placeholder or behind it, as in `/exports/{name}.json`, its
name does matter: the route is reported if the document has it under another name.
`route_missed_exportsDocument` is a sound document in which that happens.

## Proof

For one direction, enclosed segments are compared without their names (`normalPath_eq_iff`), and the
operations of a renamed document are those of the document under their new paths
(`documentedRoutes_document`). For the other, one route is enough: a document with one operation and
a policy that requires it (`singleDocument`, `requiring`).

A finding is the same for two routes only if the routes are (`missingRoute_injective`); so what is
reported can be told from the warnings.
-/

namespace ApiContract

namespace Lint

/-- The warning about a required route that is not defined. -/
def missingRoute (route : Route) : Finding :=
  ⟨.missingRequiredRoute, "paths", "Required route " ++ route.display ++ " is not defined"⟩

/-- The required routes that a report says are missing. -/
def reportedRoutes (policy : LintPolicy) (doc : Json) : List Route :=
  policy.requiredRoutes.filter fun route ↦ missingRoute route ∈ (lint policy doc).warnings

/-- A route for comparison. -/
def normalRoute (route : Route) : HttpMethod × List (List Char) :=
  (route.method, normalPath route.path)

/-- Different routes are reported in different words. -/
theorem missingRoute_injective : Function.Injective missingRoute := by
  intro r s h
  have hmessage := congrArg Finding.message h
  have hdisplay := (String.append_right_inj _).1 ((String.append_left_inj _).1 hmessage)
  exact Route.display_injective hdisplay

/-- A document defines a route if one of its operations has the form of it. -/
theorem defines_iff {doc : Json} {route : Route} :
    defines doc route = true ↔ normalRoute route ∈ (documentedRoutes doc).map normalRoute := by
  rw [defines, documentedRoutes, List.any_eq_true, List.map_map, List.mem_map]
  refine exists_congr fun e ↦ and_congr_right fun _ ↦ ?_
  rw [Bool.and_eq_true, beq_iff_eq, beq_iff_eq]
  exact Prod.mk.injEq .. ▸ Iff.rfl

/-- **The routes that are reported are those that the document does not have**, up to their form. -/
theorem reportedRoutes_eq_filter (policy : LintPolicy) (doc : Json) :
    reportedRoutes policy doc = policy.requiredRoutes.filter fun route ↦
      normalRoute route ∉ (documentedRoutes doc).map normalRoute := by
  refine List.filter_congr fun route hroute ↦ decide_eq_decide.2 ?_
  calc missingRoute route ∈ (lint policy doc).warnings
    _ ↔ missingRoute route ∈ checkCoverage policy doc := by
      rw [← filter_warnings_missingRequiredRoute, List.mem_filter]
      exact (and_iff_left rfl).symm
    _ ↔ route ∈ policy.requiredRoutes.filter fun route ↦ !defines doc route :=
      List.mem_map_of_injective missingRoute_injective
    _ ↔ normalRoute route ∉ (documentedRoutes doc).map normalRoute := by
      rw [List.mem_filter, and_iff_right hroute, ← defines_iff, Bool.not_eq_true']
      exact Bool.not_eq_true _ ▸ Iff.rfl

/-! ### Other names -/

/-- A renamed route has the same form exactly if it changes in enclosed segments alone. -/
theorem normalRoute_route_eq_iff (ρ : PathRenaming) (route : Route) :
    normalRoute (ρ.route route) = normalRoute route ↔
      DiffersEnclosed route.path (ρ.rename route.path) := by
  rw [normalRoute, normalRoute, Prod.mk.injEq, ← normalPath_eq_iff (ρ.sameButNames route.path),
    eq_comm (a := normalPath route.path)]
  exact and_iff_right rfl

/-- Other names in enclosed segments of the document. -/
theorem reportedRoutes_document {ρ : TemplateRenaming} {doc : Json}
    (h : ∀ route ∈ documentedRoutes doc, DiffersEnclosed route.path (ρ.rename route.path))
    (policy : LintPolicy) : reportedRoutes policy (ρ.document doc) = reportedRoutes policy doc := by
  have hforms : (documentedRoutes (ρ.document doc)).map normalRoute =
      (documentedRoutes doc).map normalRoute := by
    rw [documentedRoutes_document, List.map_map]
    refine List.map_congr_left fun route hroute ↦ ?_
    exact (normalRoute_route_eq_iff ρ.toPathRenaming route).2 (h route hroute)
  rw [reportedRoutes_eq_filter, reportedRoutes_eq_filter, hforms]

/-- Other names in enclosed segments of the required routes. -/
theorem reportedRoutes_policy {τ : PathRenaming} {policy : LintPolicy}
    (h : ∀ route ∈ policy.requiredRoutes, DiffersEnclosed route.path (τ.rename route.path))
    (doc : Json) :
    reportedRoutes (τ.policy policy) doc = (reportedRoutes policy doc).map τ.route := by
  rw [reportedRoutes_eq_filter, reportedRoutes_eq_filter, PathRenaming.policy, List.filter_map]
  refine congrArg _ (List.filter_congr fun route hroute ↦ ?_)
  rw [Function.comp_apply, (normalRoute_route_eq_iff τ route).2 (h route hroute)]

/-! ### One operation -/

/-- A path item with one operation, of which it says nothing. -/
def singleItem (method : HttpMethod) : Json := .object [(method.key, .object [])]

/-- A document with one operation. -/
def singleDocument (route : Route) : Json :=
  .object [("paths", .object [(route.path, singleItem route.method)])]

/-- A policy that requires one route. -/
def requiring (route : Route) : LintPolicy := { requiredRoutes := [route] }

/-- The document has the one route. -/
theorem documentedRoutes_singleDocument (route : Route) :
    documentedRoutes (singleDocument route) = [route] := by
  have hentries : pathEntries (singleDocument route) =
      [(route.path, singleItem route.method)] := rfl
  have hreference : (singleItem route.method).stringAt? "$ref" = none := by
    cases route.method <;> decide
  have hmethods : methods? (singleItem route.method) = some [route.method] := by
    cases route.method <;> decide
  rw [documentedRoutes_eq_flatMap, hentries, List.flatMap_singleton, dereference?,
    followReferences, hreference]
  dsimp only
  rw [Option.bind_some, hmethods]
  rfl

/-- A document with one route has the required one exactly if both have one form. -/
theorem reportedRoutes_requiring {doc : Json} {documented : Route}
    (h : documentedRoutes doc = [documented]) (required : Route) :
    reportedRoutes (requiring required) doc = [] ↔
      normalRoute required = normalRoute documented := by
  rw [reportedRoutes_eq_filter, h, requiring, List.filter_eq_nil_iff, List.forall_mem_singleton,
    decide_eq_true_iff, not_not, List.map_singleton, List.mem_singleton]

theorem reportedRoutes_singleDocument (route : Route) :
    reportedRoutes (requiring route) (singleDocument route) = [] :=
  (reportedRoutes_requiring (documentedRoutes_singleDocument route) route).2 rfl

/-- A document with one path is told under another name only if the name is in an enclosed
segment. -/
theorem differsEnclosed_of_document {ρ : TemplateRenaming} {route : Route}
    (h : reportedRoutes (requiring route) (ρ.document (singleDocument route)) = []) :
    DiffersEnclosed route.path (ρ.rename route.path) := by
  have hdocumented : documentedRoutes (ρ.document (singleDocument route)) = [ρ.route route] := by
    rw [documentedRoutes_document, documentedRoutes_singleDocument, List.map_singleton]
  have hform := (reportedRoutes_requiring hdocumented route).1 h
  exact (normalRoute_route_eq_iff ρ.toPathRenaming route).1 hform.symm

/-- A route is found under another name only if the name is in an enclosed segment. -/
theorem differsEnclosed_of_policy {τ : PathRenaming} {route : Route}
    (h : reportedRoutes (requiring (τ.route route)) (singleDocument route) = []) :
    DiffersEnclosed route.path (τ.rename route.path) := by
  have hform :=
    (reportedRoutes_requiring (documentedRoutes_singleDocument route) (τ.route route)).1 h
  exact (normalRoute_route_eq_iff τ route).1 hform

/-- **Names of placeholders do not matter for required routes where braces enclose the segment**,
and only there: other names in a document and in a policy leave the routes that are reported the
same, up to their own names, as long as no other segment changes. -/
theorem coverage_unchanged_iff (ρ : TemplateRenaming) (τ : PathRenaming) :
    (∀ policy doc,
      (∀ route ∈ documentedRoutes doc, DiffersEnclosed route.path (ρ.rename route.path)) →
      (∀ route ∈ policy.requiredRoutes, DiffersEnclosed route.path (τ.rename route.path)) →
      reportedRoutes (τ.policy policy) (ρ.document doc) = (reportedRoutes policy doc).map τ.route) ∧
    ((∀ path, DiffersEnclosed path (ρ.rename path)) ↔
      ∀ policy doc, reportedRoutes policy (ρ.document doc) = reportedRoutes policy doc) ∧
    ((∀ path, DiffersEnclosed path (τ.rename path)) ↔
      ∀ policy doc,
        reportedRoutes (τ.policy policy) doc = (reportedRoutes policy doc).map τ.route) := by
  refine ⟨fun policy doc hdoc hpolicy ↦ ?_, ⟨fun h policy doc ↦ ?_, fun h path ↦ ?_⟩,
    ⟨fun h policy doc ↦ ?_, fun h path ↦ ?_⟩⟩
  · rw [reportedRoutes_policy hpolicy, reportedRoutes_document hdoc]
  · exact reportedRoutes_document (fun route _ ↦ h route.path) policy
  · have hsingle := h (requiring ⟨.get, path⟩) (singleDocument ⟨.get, path⟩)
    rw [reportedRoutes_singleDocument] at hsingle
    exact differsEnclosed_of_document hsingle
  · exact reportedRoutes_policy (fun route _ ↦ h route.path) doc
  · have hsingle := h (requiring ⟨.get, path⟩) (singleDocument ⟨.get, path⟩)
    rw [reportedRoutes_singleDocument, List.map_nil] at hsingle
    exact differsEnclosed_of_policy hsingle

/-- A document with one path item behind a reference to the other. -/
def usersDocument : Json :=
  .object [("paths", .object [
    ("/users/\x7bid\x7d", .object [("get", .object [])]),
    ("/people/\x7bname\x7d", .object [("$ref", .string "#/paths/~1users~1\x7bid\x7d")])])]

/-- The two paths differ in the name of a placeholder. -/
theorem sameButNames_usersPath :
    SameButNames "/users/\x7bid\x7d".toList "/users/\x7buser\x7d".toList := by
  have hpath : "/users/\x7bid\x7d".toList =
      "/users/".toList ++ '\x7b' :: ("id".toList ++ ['\x7d']) := by decide
  have hother : "/users/\x7buser\x7d".toList =
      "/users/".toList ++ '\x7b' :: ("user".toList ++ ['\x7d']) := by decide
  exact .replace hpath hother ⟨by decide, by decide, by decide, by decide⟩
    ⟨by decide, by decide, by decide, by decide⟩

/-- The id of a user under another name. -/
def userRenaming : TemplateRenaming :=
  .swap "/users/\x7bid\x7d" "/users/\x7buser\x7d" sameButNames_usersPath

/-- A policy that requires a route of the document and one that the document does not have. -/
def usersPolicy : LintPolicy :=
  { requiredRoutes := [⟨.get, "/people/\x7bname\x7d"⟩, ⟨.delete, "/users/\x7bid\x7d"⟩] }

/-- One required route is there, behind a reference, and the other is not. -/
theorem coverage_unchanged_iff_usersDocument :
    reportedRoutes usersPolicy usersDocument = [⟨.delete, "/users/\x7bid\x7d"⟩] ∧
    reportedRoutes (userRenaming.policy usersPolicy) (userRenaming.document usersDocument) =
      [⟨.delete, "/users/\x7buser\x7d"⟩] := by
  have hreported : reportedRoutes usersPolicy usersDocument =
      [⟨.delete, "/users/\x7bid\x7d"⟩] := by decide +kernel
  have hdoc : ∀ route ∈ documentedRoutes usersDocument,
      DiffersEnclosed route.path (userRenaming.rename route.path) := by decide +kernel
  have hpolicy : ∀ route ∈ usersPolicy.requiredRoutes,
      DiffersEnclosed route.path (userRenaming.rename route.path) := by decide +kernel
  have hrenamed := (coverage_unchanged_iff userRenaming userRenaming.toPathRenaming).1
    usersPolicy usersDocument hdoc hpolicy
  rw [hreported] at hrenamed
  exact ⟨hreported, hrenamed.trans (by decide +kernel)⟩

/-- A sound document with a placeholder that does not fill its segment. -/
def exportsDocument : Json :=
  .object [
    ("openapi", .string "3.0.3"),
    ("info", .object [("title", .string "Exports"), ("version", .string "1.0.0"),
      ("description", .string "Exports of a report")]),
    ("servers", .array [.object [("url", .string "https://api.test")]]),
    ("paths", .object [("/exports/\x7bname\x7d.json", .object [("get", .object [
      ("operationId", .string "getExport"), ("summary", .string "Get an export"),
      ("tags", .array [.string "exports"]),
      ("parameters", .array [.object [("name", .string "name"), ("in", .string "path"),
        ("schema", .object [("type", .string "string")])]]),
      ("responses", .object [("200", .object [("description", .string "ok")]),
        ("404", .object [("description", .string "not found")])])])])])]

/-- With the name of the document the required route is found, and with another one it is not. -/
theorem route_missed_exportsDocument :
    SameButNames "/exports/\x7bname\x7d.json".toList "/exports/\x7bid\x7d.json".toList ∧
    findings (requiring ⟨.get, "/exports/\x7bname\x7d.json"⟩) exportsDocument = [] ∧
    findings (requiring ⟨.get, "/exports/\x7bid\x7d.json"⟩) exportsDocument =
      [missingRoute ⟨.get, "/exports/\x7bid\x7d.json"⟩] ∧
    reportedRoutes (requiring ⟨.get, "/exports/\x7bname\x7d.json"⟩) exportsDocument = [] ∧
    reportedRoutes (requiring ⟨.get, "/exports/\x7bid\x7d.json"⟩) exportsDocument =
      [⟨.get, "/exports/\x7bid\x7d.json"⟩] := by
  have hpath : "/exports/\x7bname\x7d.json".toList =
      "/exports/".toList ++ '\x7b' :: ("name".toList ++ '\x7d' :: ".json".toList) := by decide
  have hother : "/exports/\x7bid\x7d.json".toList =
      "/exports/".toList ++ '\x7b' :: ("id".toList ++ '\x7d' :: ".json".toList) := by decide
  refine ⟨.replace hpath hother ⟨by decide, by decide, by decide, by decide⟩
    ⟨by decide, by decide, by decide, by decide⟩, ?_, ?_, ?_, ?_⟩
  all_goals decide +kernel

end Lint

end ApiContract
