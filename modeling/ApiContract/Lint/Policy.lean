import ApiContract.Http

/-!
# Lint policies

The three lists that a team may set for its contracts, and their defaults: routes that have to be
defined, prefixes of paths whose operations have to be protected, and media types that a request may
have.

Only three checks look at a policy, one at each list, and all that they find are warnings; what
makes a contract invalid does not depend on its team (`Proofs.Lint.Policy`).
-/

namespace ApiContract

/-- The routes that every contract required by default defines, as they are written. -/
def defaultRequiredRoutes : List String := [
  "POST /v1/auth/login",
  "POST /v1/auth/register",
  "GET /v1/products",
  "GET /v1/products/\x7bid\x7d",
  "GET /v1/health"]

/-- The path prefixes that are protected by default. -/
def defaultProtectedPrefixes : List String := ["/v1/admin", "/v1/orders", "/v1/users"]

/-- The media types that requests may have by default. -/
def defaultAllowedContentTypes : List String := [
  "application/json",
  "multipart/form-data",
  "application/x-www-form-urlencoded"]

/-- What a team asks of its contracts beyond their being sound. -/
structure LintPolicy where
  /-- Routes that a contract must define. -/
  requiredRoutes : List Route := defaultRequiredRoutes.filterMap Route.ofText?
  /-- Beginnings of paths whose operations must require authentication. -/
  protectedPrefixes : List String := defaultProtectedPrefixes
  /-- Media types that a request body may have. -/
  allowedContentTypes : List String := defaultAllowedContentTypes
  deriving DecidableEq, Repr, Inhabited

end ApiContract
