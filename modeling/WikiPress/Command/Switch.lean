import WikiPress.Text.Ascii
import WikiPress.Text.Number

/-!
# Switches of a command line

The arguments of a command are switches, which begin with one or two hyphens, and the values of
switches.  Switches of one letter may be written together, and a value may be written behind its
switch, with or without an equals sign.  A switch may be given once.

## Main definitions

* `UsageError` : why arguments are not accepted.
* `Switch`, `Grammar` : what may be given.
* `Reading`, `Reading.settle` : the switches so far, and the one whose value is still open.
* `readArguments` : the switches up to the name of a subcommand.
-/

namespace WikiPress

/-- Why arguments are not accepted. -/
inductive UsageError where
  /-- There is a request for help. -/
  | helpAsked
  /-- There is a request for the version. -/
  | versionAsked
  /-- There are no arguments where a subcommand is needed. -/
  | nothingGiven
  | missingCommand
  | unknownCommand
  | unknownArgument
  /-- A value is missing, or none of those that there are. -/
  | invalidValue
  /-- A value is no number. -/
  | notNumber
  /-- A switch is given a second time. -/
  | repeated
  /-- A switch without a value is given one. -/
  | unneededValue
  deriving DecidableEq, Repr, Inhabited

namespace CommandLine

/-- What the value of a switch must be. -/
inductive ValueKind where
  | text
  /-- A text that is not empty. -/
  | path
  /-- A number of at most sixty-four bits. -/
  | number
  | oneOf (words : List String)
  deriving DecidableEq, Repr, Inhabited

/-- What a switch does. -/
inductive Effect where
  | flag
  | value (kind : ValueKind)
  | help
  | version
  deriving DecidableEq, Repr, Inhabited

/-- A switch with its long name and perhaps one of a single letter. -/
structure Switch where
  name : String
  letter : Option Char := none
  effect : Effect := .flag
  deriving DecidableEq, Repr, Inhabited

/-- What may be given to a command. -/
structure Grammar where
  switches : List Switch
  subcommands : List String := []
  deriving DecidableEq, Repr, Inhabited

/-- Whether a value is of a kind. -/
def ValueKind.check (kind : ValueKind) (v : String) : Except UsageError Unit :=
  match kind with
  | .text => .ok ()
  | .path => if v.isEmpty then .error .invalidValue else .ok ()
  | .number =>
    if (Text.readNumber? Text.mostWord v.toList).isSome then .ok () else .error .notNumber
  | .oneOf words => if words.contains v then .ok () else .error .invalidValue

/-- The switches that were read, and the last one as long as its value is open. -/
structure Reading where
  /-- The names of switches with their values, which are empty for flags. -/
  values : List (String × String) := []
  /-- A switch that is not among the values yet, with its kind and perhaps its value. -/
  pending : Option (String × ValueKind × Option String) := none
  deriving DecidableEq, Repr, Inhabited

namespace Reading

/-- The value of a switch. -/
def value? (r : Reading) (name : String) : Option String :=
  (r.values.find? (·.1 = name)).map (·.2)

/-- Whether a switch is given. -/
def has (r : Reading) (name : String) : Bool := (r.value? name).isSome

/-- The switches with one more of them. -/
def add (r : Reading) (name v : String) : Except UsageError Reading :=
  if r.has name then .error .repeated else .ok { r with values := r.values ++ [(name, v)] }

/-- The switches with the open one among them. -/
def settle (r : Reading) : Except UsageError Reading :=
  match r.pending with
  | none => .ok r
  | some (_, _, none) => .error .invalidValue
  | some (name, kind, some v) =>
    ({ r with pending := none }.add name v).bind fun r => (kind.check v).map fun _ => r

/-- Whether the next argument may be the value of a switch. -/
def awaitsValue (r : Reading) : Bool :=
  match r.pending with
  | some (_, _, none) => true
  | _ => false

/-- The open switch with its value. -/
def giveValue (r : Reading) (v : String) : Reading :=
  { r with pending := r.pending.map fun (name, kind, _) => (name, kind, some v) }

/-- The switches with an open one, behind all others. -/
def await (r : Reading) (s : Switch) (kind : ValueKind) (v : Option String) :
    Except UsageError Reading :=
  r.settle.map fun r => { r with pending := some (s.name, kind, v) }

/-- The switches with one that may have a value behind it. -/
def give (r : Reading) (s : Switch) (attached : Option String) : Except UsageError Reading :=
  match s.effect, attached with
  | .value kind, none => r.await s kind none
  | .value kind, some v => (r.await s kind (some v)).bind settle
  | _, some _ => .error .unneededValue
  | .flag, none => r.settle.bind fun r => r.add s.name ""
  | .help, none => r.settle.bind fun _ => .error .helpAsked
  | .version, none => r.settle.bind fun _ => .error .versionAsked

end Reading

/-! ### Arguments -/

/-- The long name of a switch, and what stands behind the equals sign. -/
def splitLong (s : List Char) : String × Option String :=
  let name := s.takeWhile (· ≠ '=')
  match s.drop name.length with
  | [] => (String.ofList name, none)
  | _ :: v => (String.ofList name, some (String.ofList v))

/-- The switches with one by its long name. -/
def giveLong (g : Grammar) (r : Reading) (s : List Char) : Except UsageError Reading :=
  let (name, attached) := splitLong s
  match g.switches.find? (·.name = name) with
  | some switch => r.give switch attached
  | none => .error .unknownArgument

/-- What stands behind the letter of a switch as its value. -/
def attachedValue : List Char → Option String
  | [] => none
  | '=' :: v => some (String.ofList v)
  | v => some (String.ofList v)

/-- The switches with those of a group of letters, the last of which may have a value. -/
def giveLetters (g : Grammar) (r : Reading) : List Char → Except UsageError Reading
  | [] => .ok r
  | c :: rest =>
    match g.switches.find? (·.letter = some c) with
    | none => .error .unknownArgument
    | some switch =>
      match switch.effect with
      | .value _ => r.give switch (attachedValue rest)
      | _ => (r.give switch none).bind fun r => giveLetters g r rest

/-- What is wrong with an argument that is no switch and no value. -/
def strayArgument (g : Grammar) : UsageError :=
  if g.subcommands.isEmpty then .unknownArgument else .unknownCommand

/-- What is wrong with an argument behind the two hyphens that end the switches. -/
def trailingArgument (g : Grammar) (arg : String) : UsageError :=
  if g.subcommands.contains arg then .unknownArgument else strayArgument g

/-- The switches of some arguments, up to the name of a subcommand and what follows it. -/
def readArguments (g : Grammar) (r : Reading) :
    List String → Except UsageError (Reading × Option (String × List String))
  | [] => .ok (r, none)
  | arg :: rest =>
    if !r.awaitsValue && g.subcommands.contains arg then .ok (r, some (arg, rest))
    else
      match arg.toList with
      | ['-', '-'] =>
        match rest with
        | [] => .ok (r, none)
        | next :: _ => .error (trailingArgument g next)
      | '-' :: '-' :: s => (giveLong g r s).bind fun r => readArguments g r rest
      | '-' :: c :: s => (giveLetters g r (c :: s)).bind fun r => readArguments g r rest
      | _ =>
        if r.awaitsValue then readArguments g (r.giveValue arg) rest
        else .error (strayArgument g)

end CommandLine

end WikiPress
