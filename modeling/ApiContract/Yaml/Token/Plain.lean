import ApiContract.Yaml.Fault
import ApiContract.Yaml.Folding

/-!
# Plain values

A value without quotes goes on until a colon or comment that is set off by a blank, until an
indicator of a flow collection if it stands inside one, or until a line that is indented too little.

Whether a value may begin here and where it ends are questions about the next two characters
(`startsPlain`, `endsPlain`). A line ending inside a value makes a gap, which belongs to it only if
the value goes on behind it. The scanner has to know whether there was one, since a key may begin on
the next line only then.
-/

namespace ApiContract.Yaml

/-- Whether a plain value may begin with these characters. -/
def startsPlain (inFlow : Bool) : List Char → Bool
  | [] => false
  | c :: rest =>
    let word := !endsWord (c :: rest)
    let blankNext := (rest.head?.map isBlank).getD false
    (word && !("-?:,[]\x7b\x7d#&*!|>'\"%@\x60".toList.contains c)) ||
      (c == '-' && !blankNext) || (!inFlow && (c == '?' || c == ':') && !endsWord rest)

/-- Whether a plain value ends in front of these characters. -/
def endsPlain (inFlow : Bool) : List Char → Bool
  | [] => true
  | c :: rest => (c == ':' && endsWord rest) || (inFlow && ",[]\x7b\x7d".toList.contains c)

/-- Whether these characters are a colon that cannot stand in a flow collection. -/
def isStrayColon (inFlow : Bool) : List Char → Bool
  | ':' :: d :: _ => inFlow && ",?[]\x7b\x7d".toList.contains d
  | _ => false

/-- The rest of a plain value that must be indented by so many columns, what follows it, and whether
a line has ended before that. -/
def scanPlain (inFlow : Bool) (indent : Int) (place : Place) (f : Folding) :
    List Char → Except Fault (String × Cursor × Bool)
  | [] => .ok (f.result, ⟨place, []⟩, f.broken)
  | '\r' :: '\n' :: rest => scanPlain inFlow indent (place.below 2) (f.lineEnd '\n') rest
  | c :: rest =>
    if isBreak c then scanPlain inFlow indent place.below (f.lineEnd (breakText c)) rest
    else if isBlank c then
      if f.broken && place.column < indent && c == '\t' then .error .tabInIndentation
      else scanPlain inFlow indent place.right (f.blank c) rest
    else if f.inGap &&
        ((!inFlow && place.column < indent) || isDocumentMarker place (c :: rest) || c == '#') then
      .ok (f.result, ⟨place, c :: rest⟩, f.broken)
    else if isStrayColon inFlow (c :: rest) then .error .unexpectedColon
    else if endsPlain inFlow (c :: rest) then .ok (f.result, ⟨place, c :: rest⟩, f.broken)
    else scanPlain inFlow indent place.right (f.push c) rest

end ApiContract.Yaml
