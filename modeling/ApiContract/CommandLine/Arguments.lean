import ApiContract.Text.Basic

/-!
# Command-line arguments

Arguments are options and operands. An option has a long name and may have a letter; its value
follows it, as the next argument or in the same one (`--name=value`, `-nvalue`). After `--`
everything is an operand. What an option or an operand means is not decided here.

A flag or an option may be given once, and its value must not be empty where the rule says so. An
argument that looks like an option is not taken as the value of the one before it. Asking for help
ends the reading with `UsageEnd.help`, which is no fault; any other end names its cause, and
`UsageFault.message` words it.

`Arguments.read` goes from left to right and stops at the first operand if it is told to: that is
how the name of a command is found between options that stand in front of it and options that
follow.
-/

namespace ApiContract.CommandLine

/-- An option that a program takes. -/
inductive OptionRule where
  /-- An option without a value. -/
  | flag (name : String)
  /-- An option with a value, which may have a letter. A value that must not be empty is that of a
  path. -/
  | value (name : String) (letter : Option Char) (mayBeEmpty : Bool)
  deriving DecidableEq, Repr

/-- The long name of an option. -/
def OptionRule.name : OptionRule → String
  | flag name => name
  | value name _ _ => name

/-- The letter of an option. -/
def OptionRule.letter? : OptionRule → Option Char
  | flag _ => none
  | value _ letter _ => letter

/-- Why arguments cannot be used. -/
inductive UsageFault where
  | unexpected (argument : String)
  | repeated (name : String)
  | missingValue (name : String)
  | emptyValue (name : String)
  | needlessValue (name : String)
  | missing (name : String)
  | unknownCommand (name : String)
  deriving DecidableEq, Repr

/-- The wording of a usage fault. -/
def UsageFault.message : UsageFault → String
  | unexpected argument => "unexpected argument '" ++ argument ++ "' found"
  | repeated name => "the argument '--" ++ name ++ "' cannot be used multiple times"
  | missingValue name => "a value is required for '--" ++ name ++ "' but none was supplied"
  | emptyValue name => "a value is required for '" ++ name ++ "' but none was supplied"
  | needlessValue name => "unexpected value for '--" ++ name ++ "' found; no more were expected"
  | missing name => "the following required arguments were not provided: " ++ name
  | unknownCommand name => "unrecognized subcommand '" ++ name ++ "'"

/-- Why arguments do not say what to do. -/
inductive UsageEnd where
  /-- They ask how the program is used. -/
  | help
  | fault (fault : UsageFault)
  deriving DecidableEq, Repr

/-- What arguments say. -/
structure Arguments where
  flags : List String := []
  values : List (String × String) := []
  operands : List String := []
  deriving DecidableEq, Repr

namespace Arguments

/-- Whether a flag is there. -/
def has (found : Arguments) (name : String) : Bool := found.flags.contains name

/-- The value of an option. -/
def value? (found : Arguments) (name : String) : Option String := found.values.lookup name

/-- The value of an option that must be there. -/
def value (found : Arguments) (name : String) : Except UsageEnd String :=
  match found.value? name with
  | some value => .ok value
  | none => .error (.fault (.missing ("--" ++ name)))

/-- Whether an argument looks like an option, so that it is no value of the one before it. -/
def isOptionLike (argument : String) : Bool :=
  argument.toList.head? == some '-' && argument != "-"

/-- Takes a flag in. -/
def addFlag (found : Arguments) (name : String) : Except UsageEnd Arguments :=
  if found.has name then .error (.fault (.repeated name))
  else .ok { found with flags := name :: found.flags }

/-- Takes an option's value in. -/
def addValue (found : Arguments) (name value : String) (mayBeEmpty : Bool) :
    Except UsageEnd Arguments :=
  if (found.value? name).isSome then .error (.fault (.repeated name))
  else if value.isEmpty && !mayBeEmpty then .error (.fault (.emptyValue name))
  else .ok { found with values := (name, value) :: found.values }

/-- An argument that begins like an option. -/
inductive Shape where
  | operand
  | help
  /-- An option, and the value that the same argument gives it. -/
  | option (rule : OptionRule) (value : Option String)
  | unknown

/-- A text up to an equals sign, and what is behind it. -/
def cutAtEquals (cs : List Char) : String × Option String :=
  (String.ofList (cs.takeWhile (· ≠ '=')),
    match cs.dropWhile (· ≠ '=') with
    | [] => none
    | _ :: value => some (String.ofList value))

/-- What an argument looks like to a program with some options. -/
def shape (rules : List OptionRule) (argument : String) : Shape :=
  match argument.toList with
  | '-' :: '-' :: rest =>
    let (name, value) := cutAtEquals rest
    if name == "help" then .help
    else
      match rules.find? fun rule ↦ rule.name == name with
      | some rule => .option rule value
      | none => .unknown
  | '-' :: letter :: rest =>
    if letter = 'h' then .help
    else
      match rules.find? fun rule ↦ rule.letter? == some letter with
      | none => .unknown
      | some rule =>
        match rest with
        | [] => .option rule none
        | '=' :: value => .option rule (some (String.ofList value))
        | value => .option rule (some (String.ofList value))
  | _ => .operand

/-- Reads arguments, up to the first operand if `stopsThere`; what is left begins with that
operand. -/
def read (rules : List OptionRule) (stopsThere : Bool) :
    Arguments → List String → Except UsageEnd (Arguments × List String)
  | found, [] => .ok (found, [])
  | found, argument :: rest =>
    if argument = "--" then
      match rest with
      | operand :: _ =>
        -- Behind two dashes nothing is an option, and nothing names a command.
        if stopsThere then .error (.fault (.unexpected operand))
        else .ok ({ found with operands := found.operands ++ rest }, [])
      | [] => .ok (found, [])
    else
      match shape rules argument with
      | .operand =>
        if stopsThere then .ok (found, argument :: rest)
        else read rules stopsThere { found with operands := found.operands ++ [argument] } rest
      | .help => .error .help
      | .unknown => .error (.fault (.unexpected argument))
      | .option (.flag name) none => do read rules stopsThere (← found.addFlag name) rest
      | .option (.flag name) (some _) => .error (.fault (.needlessValue name))
      | .option (.value name _ mayBeEmpty) (some value) => do
        read rules stopsThere (← found.addValue name value mayBeEmpty) rest
      | .option (.value name _ mayBeEmpty) none =>
        match rest with
        | value :: rest =>
          -- A value that looks like an option has to stand behind an equals sign.
          if isOptionLike value then .error (.fault (.missingValue name))
          else do read rules stopsThere (← found.addValue name value mayBeEmpty) rest
        | [] => .error (.fault (.missingValue name))

end Arguments

end ApiContract.CommandLine
