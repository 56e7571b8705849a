import LitmusGraph.Json.Basic

/-!
# Reading JSON

`Json.decode` reads a text as one JSON value. It takes a little more than the standard grammar: the
names `NaN`, `Infinity` and `-Infinity`, strings with lone surrogates written as escapes, and
repeated names in an object. It refuses all else at the first place where the text leaves the
grammar, and it sets two limits: on the digits of a whole number and on the nesting of values.

The limit on nesting is no number of this library. The decoder goes down one call for each array or
object that it is in, and the program as a whole may have only so many calls open. So how deep a text
may nest is up to the calls that are open when the decoder starts, and every reader of values takes the
levels that are left as an argument. `CommandLine.levels` says how many a run leaves.

Each reader takes the text from its place on and returns what it read with the rest. What is left
of the text stands for the place, so that readers need not count.

* The recursion of `readValue` is on the levels of nesting that are still allowed.
* A list of items is never longer than the text, which bounds the loop of `readItems`.

Embedded is `json.load` as `read_executions` calls it, on text and without any of its options. Out of
scope: a limit on digits or on open calls that was set to another value.
-/

namespace LitmusGraph

namespace Json

/-! ## What can be wrong -/

/-- How a text leaves the grammar. -/
inductive Fault where
  /-- No value starts here. -/
  | expectingValue
  /-- No member name starts here. -/
  | expectingName
  /-- The colon behind a member name is missing. -/
  | expectingColon
  /-- Neither a comma nor the closing bracket follows an item. -/
  | expectingComma
  /-- Something follows the value. -/
  | extraData
  /-- The string that starts here does not end. -/
  | unterminatedString
  /-- A control character stands in a string. -/
  | controlCharacter
  /-- No escape has this letter. -/
  | unknownEscape
  /-- A numeric escape is cut short or has other than hexadecimal digits. -/
  | malformedEscape
  /-- The text starts with a byte order mark. -/
  | byteOrderMark
deriving DecidableEq

/-- A place in a text. -/
structure Place where
  /-- The line, counted from one. -/
  line : Nat
  /-- The column, counted from one. -/
  column : Nat
  /-- The number of code points in front. -/
  index : Nat
deriving DecidableEq

/-- The kinds of value that hold others. -/
inductive Container where
  /-- An array. -/
  | array
  /-- An object. -/
  | object
deriving DecidableEq

/-- Why a text is no value. -/
inductive DecodeError where
  /-- The text leaves the grammar. -/
  | malformed (fault : Fault) (place : Place)
  /-- A whole number has too many digits. -/
  | tooManyDigits (count : Nat)
  /-- A value lies too deep, the innermost one allowed being followed by this container. -/
  | tooDeep (container : Container)
deriving DecidableEq

namespace Fault

/-- The fault in words. -/
def message : Fault → Text
  | expectingValue => "Expecting value"
  | expectingName => "Expecting property name enclosed in double quotes"
  | expectingColon => "Expecting ':' delimiter"
  | expectingComma => "Expecting ',' delimiter"
  | extraData => "Extra data"
  | unterminatedString => "Unterminated string starting at"
  | controlCharacter => "Invalid control character at"
  | unknownEscape => "Invalid \\escape"
  | malformedEscape => "Invalid \\uXXXX escape"
  | byteOrderMark => "Unexpected UTF-8 BOM (decode using utf-8-sig)"

end Fault

namespace Place

/-- The place behind a number of code points of a text. -/
def ofIndex (source : Text) (index : Nat) : Place :=
  let before : Text := source.take index
  { line := before.lineFeeds + 1
    column := (before.reverse.takeWhile (· ≠ ('\n' : CodePoint))).length + 1
    index }

/-- The place in words. -/
def message (p : Place) : Text :=
  "line " ++ Text.ofNat p.line ++ " column " ++ Text.ofNat p.column
    ++ " (char " ++ Text.ofNat p.index ++ ")"

end Place

namespace DecodeError

/-- The text of the error. -/
def message : DecodeError → Text
  | malformed fault place => fault.message ++ ": " ++ place.message
  | tooManyDigits count =>
    "Exceeds the limit (" ++ Text.ofNat Text.maxDigits
      ++ " digits) for integer string conversion: value has " ++ Text.ofNat count
      ++ " digits; use sys.set_int_max_str_digits() to increase the limit"
  | tooDeep container =>
    "maximum recursion depth exceeded while decoding a JSON "
      ++ (match container with | .array => "array" | .object => "object")
      ++ " from a unicode string"

end DecodeError

/-! ## Readers -/

/-- Why a reader stopped: like `DecodeError`, with a place given by the text from there on. -/
inductive Stop where
  /-- The text leaves the grammar where `rest` starts. -/
  | malformed (fault : Fault) (rest : Text)
  /-- A whole number has too many digits. -/
  | tooManyDigits (count : Nat)
  /-- A value lies too deep. -/
  | tooDeep (container : Container)

/-- A reader of the front of a text. -/
abbrev Reader (α : Type) := Text → Except Stop (α × Text)

/-- The blanks between the parts of a value. -/
def isGap (c : CodePoint) : Bool := [0x20, 0x09, 0x0A, 0x0D].contains c.val

/-- The text from its first code point on that is no blank. -/
def skipGap (t : Text) : Text := t.dropWhile isGap

/-! ### Strings -/

/-- What a letter behind a backslash stands for. -/
def letterEscape? (letter : CodePoint) : Option CodePoint :=
  if letter = ('"' : CodePoint) ∨ letter = ('\\' : CodePoint) ∨ letter = ('/' : CodePoint) then letter
  else if letter = ('b' : CodePoint) then some { val := 0x08 }
  else if letter = ('f' : CodePoint) then some { val := 0x0C }
  else if letter = ('n' : CodePoint) then some '\n'
  else if letter = ('r' : CodePoint) then some '\r'
  else if letter = ('t' : CodePoint) then some '\t'
  else none

/-- The number written by four hexadecimal digits. -/
def hexNumber? (a b c d : CodePoint) : Option Nat := do
  return 0x1000 * (← a.hexDigit?) + 0x100 * (← b.hexDigit?) + 0x10 * (← c.hexDigit?) + (← d.hexDigit?)

/-- Adds the code point of a numeric escape to those read, the last one first. A trailing surrogate
joins a leading one if that was the escape right in front of it. -/
def pushEscape (read : Text) (behindLead : Bool) (c : CodePoint) : Text :=
  match read with
  | lead :: before =>
    if behindLead && c.isTrailSurrogate then
      CodePoint.ofNat (0x10000 + 0x400 * (lead.val - 0xD800) + (c.val - 0xDC00)) :: before
    else c :: read
  | [] => [c]

/-- Reads a string from behind its opening quote on. `opening` is the text from that quote on,
`read` holds the code points so far, the last one first, and `behindLead` tells whether the last
one is a leading surrogate written as an escape. A numeric escape at the very end of the text is
cut short, since the closing quote is missing. -/
def readString (opening : Text) (read : Text) (behindLead : Bool) : Reader Text
  | [] => .error (.malformed .unterminatedString opening)
  | c :: rest =>
    if c = ('"' : CodePoint) then .ok (read.reverse, rest)
    else if c.val < 0x20 then .error (.malformed .controlCharacter (c :: rest))
    else if c ≠ ('\\' : CodePoint) then readString opening (c :: read) false rest
    else
      match rest with
      | [] => .error (.malformed .unterminatedString opening)
      | letter :: digits =>
        if letter = ('u' : CodePoint) then
          match digits with
          | h₁ :: h₂ :: h₃ :: h₄ :: behind =>
            match behind.isEmpty, hexNumber? h₁ h₂ h₃ h₄ with
            | false, some n =>
              let c := CodePoint.ofNat n
              readString opening (pushEscape read behindLead c) c.isLeadSurrogate behind
            | _, _ => .error (.malformed .malformedEscape (letter :: digits))
          | _ => .error (.malformed .malformedEscape (letter :: digits))
        else
          match letterEscape? letter with
          | some e => readString opening (e :: read) false digits
          | none => .error (.malformed .unknownEscape (c :: rest))

/-! ### Numbers -/

/-- The parts of a number as written. -/
structure Numeral where
  /-- Whether a minus sign stands in front. -/
  negative : Bool
  /-- The digits before the point. -/
  whole : Text
  /-- The digits behind the point, if there is one. -/
  fraction : Option Text
  /-- The power of ten, if one is given. -/
  exponent : Option Int

/-- The digits in front of a text, which must not be empty, and the rest. -/
def digits? (t : Text) : Option (Text × Text) :=
  match t.takeWhile CodePoint.isDigit with
  | [] => none
  | digits => some (digits, t.dropWhile CodePoint.isDigit)

/-- The whole part of a number: a zero alone, or digits that do not start with zero. -/
def wholePart? : Text → Option (Text × Text)
  | [] => none
  | c :: rest => if c = ('0' : CodePoint) then some ([c], rest) else digits? (c :: rest)

/-- The point and the digits behind it, if both are there. -/
def fractionPart? : Text → Option (Text × Text)
  | [] => none
  | c :: rest => if c = ('.' : CodePoint) then digits? rest else none

/-- The mark of an exponent, its sign if any and its digits, if all are there. -/
def exponentPart? : Text → Option (Int × Text)
  | [] => none
  | mark :: rest =>
    if mark = ('e' : CodePoint) ∨ mark = ('E' : CodePoint) then
      match rest with
      | [] => none
      | sign :: digits =>
        if sign = ('-' : CodePoint) then
          (digits? digits).map fun (ds, behind) => (-(ds.digitsValue : Int), behind)
        else
          (digits? (if sign = ('+' : CodePoint) then digits else rest)).map fun (ds, behind) =>
            ((ds.digitsValue : Int), behind)
    else none

/-- An optional part: absent where it cannot be read, and then nothing is consumed. -/
def optionalPart {α : Type} (part? : Text → Option (α × Text)) (t : Text) : Option α × Text :=
  match part? t with
  | some (a, rest) => (some a, rest)
  | none => (none, t)

/-- The number at the front of a text. -/
def numeral? (t : Text) : Option (Numeral × Text) := do
  let negative := t.head? = some ('-' : CodePoint)
  let (whole, rest) ← wholePart? (if negative then t.drop 1 else t)
  let (fraction, rest) := optionalPart fractionPart? rest
  let (exponent, rest) := optionalPart exponentPart? rest
  return ({ negative, whole, fraction, exponent }, rest)

/-- The value of a number. It is whole if it has neither a point nor an exponent. -/
def Numeral.value (n : Numeral) : Except Stop Json :=
  match n.fraction, n.exponent with
  | none, none =>
    if Text.maxDigits < n.whole.length then .error (.tooManyDigits n.whole.length)
    else
      let magnitude : Int := n.whole.digitsValue
      .ok (.int (if n.negative then -magnitude else magnitude))
  | fraction, exponent =>
    let fraction := fraction.getD []
    .ok (.float (.ofDecimal
      { negative := n.negative
        digits := Text.digitsValue (n.whole ++ fraction)
        exponent := exponent.getD 0 - fraction.length }))

/-! ### Values -/

/-- The values that are written as a name. -/
def names : List (Text × Json) :=
  [("null", .null), ("true", .bool true), ("false", .bool false), ("NaN", .float .nan),
    ("Infinity", .float (.infinity false)), ("-Infinity", .float (.infinity true))]

/-- Reads a value that holds no others and is no string: one of the names, or a number. -/
def readAtom : Reader Json := fun t =>
  match names.find? fun name => name.1.isPrefixOf t with
  | some (name, value) => .ok (value, t.drop name.length)
  | none =>
    match numeral? t with
    | some (n, rest) => n.value.map (·, rest)
    | none => .error (.malformed .expectingValue t)

/-- Reads items with commas between them, up to and with the closing bracket. `read` holds the
items so far, the last one first; `bound` is at least the length of the text. -/
def readItems {α : Type} (item : Reader α) (close : CodePoint) : (bound : Nat) → List α → Reader (List α)
  | 0, _, t => .error (.malformed .expectingComma t)
  | bound + 1, read, t =>
    match item t with
    | .error e => .error e
    | .ok (a, rest) =>
      match skipGap rest with
      | [] => .error (.malformed .expectingComma [])
      | c :: behind =>
        if c = close then .ok ((a :: read).reverse, behind)
        else if c = (',' : CodePoint) then readItems item close bound (a :: read) (skipGap behind)
        else .error (.malformed .expectingComma (c :: behind))

/-- Reads the inside of an array or object, from behind its opening bracket on. -/
def readBody {α : Type} (item : Reader α) (close : CodePoint) (bound : Nat) : Reader (List α) := fun t =>
  let t := skipGap t
  if t.head? = some close then .ok ([], t.drop 1) else readItems item close bound [] t

/-- Reads a member of an object. -/
def readMember (value : Reader Json) : Reader (Text × Json)
  | [] => .error (.malformed .expectingName [])
  | c :: rest =>
    if c = ('"' : CodePoint) then
      match readString (c :: rest) [] false rest with
      | .error e => .error e
      | .ok (name, behind) =>
        match skipGap behind with
        | [] => .error (.malformed .expectingColon [])
        | colon :: behind =>
          if colon = (':' : CodePoint) then (value (skipGap behind)).map fun (v, rest) => ((name, v), rest)
          else .error (.malformed .expectingColon (colon :: behind))
    else .error (.malformed .expectingName (c :: rest))

/-- Reads a value. `bound` is at least the length of the text, and the last number is that of the
levels of nesting still allowed. -/
def readValue (bound : Nat) : (levels : Nat) → Reader Json
  | _, [] => .error (.malformed .expectingValue [])
  | levels, c :: rest =>
    if c = ('"' : CodePoint) then
      (readString (c :: rest) [] false rest).map fun (t, behind) => (.string t, behind)
    else if c = ('[' : CodePoint) then
      match levels with
      | 0 => .error (.tooDeep .array)
      | levels + 1 =>
        (readBody (readValue bound levels) ']' bound rest).map fun (items, behind) =>
          (.array items, behind)
    else if c = ('{' : CodePoint) then
      match levels with
      | 0 => .error (.tooDeep .object)
      | levels + 1 =>
        (readBody (readMember (readValue bound levels)) '}' bound rest).map fun (members, behind) =>
          (.object (Members.ofList members), behind)
    else readAtom (c :: rest)

/-- Reads a whole text: one value, blanks around it. -/
def readDocument (levels : Nat) (t : Text) : Except Stop Json :=
  if t.head? = some ({ val := 0xFEFF } : CodePoint) then .error (.malformed .byteOrderMark t)
  else
    match readValue t.length levels (skipGap t) with
    | .error e => .error e
    | .ok (value, rest) =>
      match skipGap rest with
      | [] => .ok value
      | c :: behind => .error (.malformed .extraData (c :: behind))

/-- The error of a reader that stopped, with its place in the whole text. -/
def Stop.locate (source : Text) : Stop → DecodeError
  | malformed fault rest => .malformed fault (.ofIndex source (source.length - rest.length))
  | tooManyDigits count => .tooManyDigits count
  | tooDeep container => .tooDeep container

/-- The value that a text holds, if it nests no deeper than the levels that are left. -/
def decode (levels : Nat) (source : Text) : Except DecodeError Json :=
  (readDocument levels source).mapError (·.locate source)

end Json

end LitmusGraph
