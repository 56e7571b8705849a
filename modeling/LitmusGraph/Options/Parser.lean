import LitmusGraph.Drawing.DrawList
import LitmusGraph.FileTree.Path
import LitmusGraph.Options.Integer
import LitmusGraph.Options.UsageError

/-!
# Reading the command line

The arguments are sorted first: each is a switch, an operand, or the mark behind which all arguments
are operands. A long name may be cut short as long as it stays unambiguous, and a value may be
joined to it with an equals sign. Short names may be joined to each other and to a value.

Then the switches are taken in order. A switch that still needs a value takes the operand behind it.
Operands that no switch takes, and arguments that look like switches but are none, are errors, but
only after everything else has been looked at.

Embedded is `parse_args` of the parser that `create_argument_parser` makes, with the type of each
argument applied to its value. The rules are those of the releases that drop an end mark given as a
value, so that nothing is left of it. Out of scope: arguments read from files, and other prefixes than
the minus sign.
-/

namespace LitmusGraph

/-- Where the drawing goes. -/
inductive Destination where
  /-- To the standard output. -/
  | standard
  /-- To a file. -/
  | file (path : Path)
  /-- Nowhere: the switch was given, but its value was an end mark. -/
  | nowhere
deriving DecidableEq

/-- What the command line asks for, apart from the path of the payload file. -/
structure Options where
  /-- Whether images can be named after the payload file; not if its value was an end mark. -/
  isNamed : Bool := true
  /-- The index of the execution; absent if the value given was an end mark. -/
  execution : Option Int := some 0
  /-- The draw list, if one is given. -/
  relations : Option (List Text) := none
  /-- Whether the draw list is the one that the execution wants shown. -/
  shown : Bool := false
  /-- Where the drawing goes. -/
  output : Destination := .standard
  /-- The format of an image, if one is asked for. -/
  format : Option Text := none
  /-- Whether to list the executions and do no more. -/
  list : Bool := false
  /-- Whether to validate the file and do no more. -/
  validateOnly : Bool := false
  /-- Whether to tell more. -/
  verbose : Bool := false
  /-- Whether to tell everything. -/
  debug : Bool := false
deriving DecidableEq

/-- A command line that was understood. -/
inductive Parsed where
  /-- The help is asked for. -/
  | help
  /-- A run on a payload file is asked for. -/
  | run (input : Path) (options : Options)
deriving DecidableEq

namespace Options

/-! ## Sorting the arguments -/

/-- A switch as an argument names it. -/
structure Mention where
  /-- The switch. -/
  switch : Switch
  /-- The name in full. -/
  name : Text
  /-- The value joined to it, if any. -/
  joined : Option Text
deriving DecidableEq

/-- What an argument is. -/
inductive Argument where
  /-- A value for a switch, or nothing of use. -/
  | operand
  /-- The mark behind which all arguments are operands. -/
  | endMark
  /-- Something that looks like a switch and is none. -/
  | unknown
  /-- A switch. -/
  | mention (m : Mention)
deriving DecidableEq

/-- The mark behind which all arguments are operands. -/
def endMark : Text := "--"

/-- The name and the value of an argument with an equals sign. -/
def assignment? (argument : Text) : Option (Text × Text) := Text.cut? '=' argument

/-- The switches that an argument may stand for when it names none in full. Behind two dashes it is
the front of a long name, perhaps with a value; behind one dash it is a short name with what is
joined to it. -/
def candidates (argument : Text) : List Mention :=
  match argument with
  | dash :: second :: joined =>
    if second = ('-' : CodePoint) then
      let (front, value) :=
        match assignment? argument with
        | some (front, value) => (front, some value)
        | none => (argument, none)
      (Switch.table.filter fun entry => front.isPrefixOf entry.1).map fun (name, switch) =>
        { switch, name, joined := value }
    else
      Switch.table.filterMap fun (name, switch) =>
        if name = [dash, second] then some { switch, name, joined := some joined }
        else if argument.isPrefixOf name then some { switch, name, joined := none }
        else none
  | _ => []

/-- Whether a text is digits, or digits around a point with some behind it. -/
def isUnsignedNumber (t : Text) : Bool :=
  let allDigits (t : Text) : Bool := !t.isEmpty && t.all (·.decimalDigit?.isSome)
  match Text.cut? '.' t with
  | none => allDigits t
  | some (whole, fraction) => (whole.isEmpty || allDigits whole) && allDigits fraction

/-- Whether an argument is a negative number, which a line feed may follow. -/
def isNegativeNumber : Text → Bool
  | [] => false
  | dash :: number =>
    dash = ('-' : CodePoint) &&
      isUnsignedNumber (if number.getLast? = some ('\n' : CodePoint) then number.dropLast else number)

/-- What an argument is, when no end mark stands in front of it. -/
def classify (argument : Text) : Except UsageError Argument :=
  if argument.head? ≠ some ('-' : CodePoint) then .ok .operand
  else
    match Switch.ofName? argument with
    | some switch => .ok (.mention { switch, name := argument, joined := none })
    | none =>
      if argument.length = 1 then .ok .operand
      else
        let assigned := (assignment? argument).bind fun (name, value) =>
          (Switch.ofName? name).map fun switch => { switch, name, joined := some value : Mention }
        match assigned, candidates argument with
        | some m, _ => .ok (.mention m)
        | none, [m] => .ok (.mention m)
        | none, [] =>
          if isNegativeNumber argument || argument.contains (' ' : CodePoint) then .ok .operand
          else .ok .unknown
        | none, several => .error (.ambiguous argument (several.map Mention.name))

/-- The arguments, each with what it is. -/
def sort : List Text → Except UsageError (List (Text × Argument))
  | [] => .ok []
  | argument :: rest =>
    if argument = endMark then .ok ((argument, .endMark) :: rest.map (·, .operand))
    else
      match classify argument with
      | .error e => .error e
      | .ok kind => (sort rest).map ((argument, kind) :: ·)

/-! ## Taking the switches -/

/-- A switch with its value, or without one. -/
abbrev Use := Switch × Option Text

/-- The switches behind a short name, each a flag but the last one. `joined` is what follows the
name: more short names, or the value of a switch that takes one. -/
def expandShort (switch : Switch) : (joined : Text) → Except UsageError (List Use)
  | [] => .ok [(switch, none)]
  | letter :: rest =>
    if switch.takesValue then .ok [(switch, some (letter :: rest))]
    else
      match Switch.ofName? [('-' : CodePoint), letter] with
      | some next => (expandShort next rest).map ((switch, none) :: ·)
      | none => .error (.unusedValue switch (letter :: rest))

/-- The switches that an argument mentions. A value joined with an equals sign may be empty; one
that a flag is given is an error, unless more short names can be read off it. -/
def expand (m : Mention) : Except UsageError (List Use) :=
  match m.joined with
  | none => .ok [(m.switch, none)]
  | some value =>
    if m.switch.takesValue then .ok [(m.switch, some value)]
    else if m.name.length = 2 && !value.isEmpty then expandShort m.switch value
    else .error (.unusedValue m.switch value)

/-- The switch at the end that still needs a value, if there is one. -/
def needsValue? (uses : List Use) : Option Switch :=
  match uses.getLast? with
  | some (switch, none) => if switch.takesValue then some switch else none
  | _ => none

/-- The uses with a value for the last one. -/
def giveValue (uses : List Use) (value : Text) : List Use :=
  match uses.getLast? with
  | some (switch, _) => uses.dropLast ++ [(switch, some value)]
  | none => []

/-- What the switches taken so far ask for. -/
structure Draft where
  /-- The payload file, if it is given. -/
  input : Option Path := none
  /-- All else. -/
  options : Options := {}

/-- Takes a switch. A value that is an end mark is dropped and leaves an empty list for a value. -/
def take (d : Draft) : Use → Except UsageError Draft
  | (.input, some value) =>
    let isNamed := value ≠ endMark
    let path := Path.ofText (if isNamed then value else "[]")
    .ok { d with input := path, options := { d.options with isNamed } }
  | (.execution, some value) =>
    if value = endMark then .ok { d with options := { d.options with execution := none } }
    else
      match Integer.ofText? value with
      | some n => .ok { d with options := { d.options with execution := some n } }
      | none => .error (.notInteger .execution value)
  | (.relations, some value) =>
    let names := if value = endMark then [] else DrawList.ofText value
    .ok { d with options := { d.options with relations := some names } }
  | (.output, some value) =>
    let output := if value = endMark then .nowhere else .file (Path.ofText value)
    .ok { d with options := { d.options with output } }
  | (.format, some value) =>
    .ok { d with options := { d.options with format := if value = endMark then none else some value } }
  | (.shown, _) => .ok { d with options := { d.options with shown := true } }
  | (.list, _) => .ok { d with options := { d.options with list := true } }
  | (.validateOnly, _) => .ok { d with options := { d.options with validateOnly := true } }
  | (.verbose, _) => .ok { d with options := { d.options with verbose := true } }
  | (.debug, _) => .ok { d with options := { d.options with debug := true } }
  | (.help, _) | (.input, none) | (.execution, none) | (.relations, none) | (.output, none)
  | (.format, none) => .ok d

/-- Whether the switches taken ask for the help. Flags alone stand in front of that one. -/
def asksHelp (uses : List Use) : Bool := uses.any (·.1 = .help)

/-- The outcome once all arguments have been looked at. -/
def finish (d : Draft) (unknown : List Text) : Except UsageError Parsed :=
  match d.input, unknown with
  | none, _ => .error .missingInput
  | some input, [] => .ok (.run input d.options)
  | some _, unknown => .error (.unknownArguments unknown)

/-- Takes the switches in order; `unknown` holds the arguments of no use so far. -/
def consume (d : Draft) (unknown : List Text) : List (Text × Argument) → Except UsageError Parsed
  | [] => finish d unknown
  | (_, .mention m) :: rest => do
    let uses ← expand m
    match needsValue? uses with
    | none =>
      if asksHelp uses then return .help
      else consume (← uses.foldlM take d) unknown rest
    | some switch =>
      match rest with
      | (value, .operand) :: rest =>
        if asksHelp uses then return .help
        else consume (← (giveValue uses value).foldlM take d) unknown rest
      | _ => throw (.missingValue switch)
  | (argument, _) :: rest => consume d (unknown ++ [argument]) rest

/-- What a command line asks for. -/
def parse (arguments : List Text) : Except UsageError Parsed := do
  consume {} [] (← sort arguments)

end Options

end LitmusGraph
