import ApiContract.Instant
import ApiContract.Json.Fields
import ApiContract.Lint.Report

/-!
# Lint reports as JSON

A finding is an object with its code, severity, place and message, and a report is one with its
verdict, its findings in two lists, the counts of operations and models, and the moment of its
making. The moment is an argument: linting itself knows no time.
-/

namespace ApiContract

/-- A finding as JSON. -/
def Finding.toJson (f : Finding) : Json :=
  .object [("code", .string f.code.name), ("severity", .string f.severity.name),
    ("path", .string f.path), ("message", .string f.message)]

/-- A report as JSON, with the moment of its making. -/
def LintReport.toJson (report : LintReport) (madeAt : Instant) : Json :=
  .object [("valid", .bool report.isValid), ("errors", .array (report.errors.map Finding.toJson)),
    ("warnings", .array (report.warnings.map Finding.toJson)),
    ("operation_count", Json.ofNat report.operationCount),
    ("model_count", Json.ofNat report.modelCount), ("validated_at", .string (madeAt.render "Z"))]

end ApiContract
