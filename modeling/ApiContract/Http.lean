import ApiContract.Text.Basic

/-!
# HTTP methods, parameter places and routes

The methods and the places of parameters are enumerations with the words that stand for them. A
method has two: its key in a path item, in small letters and read exactly, and its name in a
request, in capitals and read in any case.

A `Route` is a method with a path, read from one line such as `POST /v1/auth/login`: the method up
to the first blank, then the path without the blanks around it. A route without a path is none.
Reading and showing a route are inverse to each other (`Proofs.Route`).
-/

namespace ApiContract

/-- The methods under which a path item may hold an operation. -/
inductive HttpMethod where
  | get | put | post | delete | patch | head | options | trace
  deriving DecidableEq, Repr, Inhabited

namespace HttpMethod

/-- Every method. -/
def all : List HttpMethod := [get, put, post, delete, patch, head, options, trace]

/-- The key of an operation in a path item. -/
def key : HttpMethod → String
  | get => "get"
  | put => "put"
  | post => "post"
  | delete => "delete"
  | patch => "patch"
  | head => "head"
  | options => "options"
  | trace => "trace"

/-- The name as it stands in a request. -/
def display : HttpMethod → String
  | get => "GET"
  | put => "PUT"
  | post => "POST"
  | delete => "DELETE"
  | patch => "PATCH"
  | head => "HEAD"
  | options => "OPTIONS"
  | trace => "TRACE"

/-- The method of that name, in any case. -/
def ofName? (name : String) : Option HttpMethod :=
  all.find? fun method ↦ Text.sameIgnoringCase method.key name

/-- The method of exactly that key. -/
def ofKey? (key : String) : Option HttpMethod :=
  all.find? fun method ↦ method.key == key

/-- Methods whose requests are expected to carry a body. -/
def expectsBody : HttpMethod → Bool
  | post | put | patch => true
  | _ => false

/-- Methods that only read. -/
def isRead : HttpMethod → Bool
  | get | head | options => true
  | _ => false

end HttpMethod

/-- Where a request carries a parameter. -/
inductive ParamPlace where
  | path | query | header | cookie
  deriving DecidableEq, Repr, Inhabited

namespace ParamPlace

/-- The word for a place. -/
def name : ParamPlace → String
  | path => "path"
  | query => "query"
  | header => "header"
  | cookie => "cookie"

/-- The place with exactly that word. -/
def ofName? : String → Option ParamPlace
  | "path" => some path
  | "query" => some query
  | "header" => some header
  | "cookie" => some cookie
  | _ => none

end ParamPlace

/-- A method and a path template. -/
structure Route where
  method : HttpMethod
  path : String
  deriving DecidableEq, Repr, Inhabited

namespace Route

/-- Reads a method, blanks and a path, such as `POST /v1/auth/login`. -/
def ofText? (s : String) : Option Route :=
  let cs := (Text.trim s).toList
  match cs.dropWhile fun c ↦ !Text.isBlank c with
  | [] => none
  | _ :: path =>
    (HttpMethod.ofName? (String.ofList (cs.takeWhile fun c ↦ !Text.isBlank c))).map
      fun method ↦ ⟨method, Text.trim (String.ofList path)⟩

/-- The route as it is read. -/
def display (r : Route) : String := r.method.display ++ " " ++ r.path

end Route

end ApiContract
