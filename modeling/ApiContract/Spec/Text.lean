import ApiContract.Json.Reader
import ApiContract.Spec.Codec

/-!
# Resolved contracts as JSON text

A text is read as the tree that it writes. No record may name one of its fields twice; where a tree
is free, among listed values, a repeated key counts once.

So the check comes first, on the tree as it is written, and the tree without repeated keys is read
afterwards.
-/

namespace ApiContract

/-- A resolved contract read from JSON text. -/
def Spec.ofText? (text : String) : Option Spec :=
  match Json.verbatim text with
  | .ok tree => if RecordKind.spec.isPlain tree then Spec.ofJson? tree.withoutRepeats else none
  | .error _ => none

end ApiContract
