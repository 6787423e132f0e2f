import ApiContract.Checksum.Basic
import ApiContract.Diff.Unified
import ApiContract.FilePath

/-!
# Drift

Whether an artifact is what would be generated now, told by checksums, and how it differs if not.

An artifact is up to date if its checksum is the one of the text that would be generated; the texts
themselves are compared only for the diff, which a report holds exactly if the artifact is not up to
date.
-/

namespace ApiContract

/-- How an artifact compares with what would be generated. -/
structure DriftReport where
  path : FilePath
  upToDate : Bool
  /-- The checksum of what would be generated. -/
  expected : Checksum
  /-- How to get from the artifact to what would be generated, unless it is that already. -/
  diff : Option String
  deriving DecidableEq, Repr

namespace DriftReport

/-- Compares an artifact's text with the expected one. -/
def ofTexts (path : FilePath) (actual expected : String) : DriftReport :=
  let checksum := Checksum.ofText expected
  if checksum.verify actual then ⟨path, true, checksum, none⟩
  else ⟨path, false, checksum, some (Diff.unified path.text "regenerated" actual expected)⟩

end DriftReport

end ApiContract
