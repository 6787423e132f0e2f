import ApiContract.Main
import ApiContract.Spec.Text
import ApiContract.Proofs.Artifact.Erasure
import ApiContract.Proofs.Artifact.TypeNames
import ApiContract.Proofs.Projection.Members
import ApiContract.Proofs.Projection.Scope
import ApiContract.Proofs.Spec.RoundTrip
import ApiContract.Proofs.Json.Place
import ApiContract.Proofs.Json.Numbers
import ApiContract.Proofs.Lint.References
import ApiContract.Proofs.Schema.Fallback
import ApiContract.Proofs.Spec.Build
import ApiContract.Proofs.Lint.Codes
import ApiContract.Proofs.Lint.Coverage
import ApiContract.Proofs.Schema.Approximation
import ApiContract.Proofs.Schema.Ceiling
import ApiContract.Proofs.Spec.NamedReference
import ApiContract.Proofs.Generation
import ApiContract.Proofs.Lint.Parameters
import ApiContract.Proofs.Lint.Agreement
import ApiContract.Proofs.Spec.WellFormed
import ApiContract.Proofs.Artifact.Client
import ApiContract.Proofs.Artifact.PathBinding
import ApiContract.Proofs.Artifact.Hooks
import ApiContract.Proofs.Artifact.Linking
import ApiContract.Proofs.Artifact.QueryKeys
import ApiContract.Proofs.Identifier.Binding
import ApiContract.Proofs.Artifact.LocalScope
import ApiContract.Proofs.Artifact.FunctionNames
import ApiContract.Proofs.Artifact.TypeIdentifiers
import ApiContract.Proofs.Artifact.OwnNames
import ApiContract.Proofs.CommandLine.Session
import ApiContract.Proofs.Artifact.Constants
import ApiContract.Proofs.Artifact.Headings
import ApiContract.Proofs.Spec.Aliases
import ApiContract.Proofs.Schema.Height
import ApiContract.Proofs.ModelGraph.Components
import ApiContract.Proofs.Schema.Merge
import ApiContract.Proofs.Schema.Required
import ApiContract.Proofs.Schema.Unbounded
import ApiContract.Proofs.Schema.Nullability
import ApiContract.Proofs.Spec.Parameters
import ApiContract.Proofs.Json.Pointer
import ApiContract.Proofs.Lint.Suggestions
import ApiContract.Proofs.Lint.RequiredRoutes
import ApiContract.Proofs.Lint.Policy
import ApiContract.Proofs.Artifact.Grouping
import ApiContract.Proofs.Artifact.Invalidation
import ApiContract.Proofs.Projection.TemplateText
import ApiContract.Proofs.TypeScript.Regex
import ApiContract.Proofs.TypeScript.DocComment
import ApiContract.Proofs.Projection.TypeText
import ApiContract.Proofs.Identifier.Conversion
import ApiContract.Proofs.Artifact.DerivedIds
import ApiContract.Proofs.Artifact.Parentheses
import ApiContract.Proofs.Config.RoundTrip
import ApiContract.Proofs.Route
import ApiContract.Proofs.ArtifactPath
