/-!
# Text

A text is a list of code points. Payloads may hold surrogates that stand alone, which no `Char`
can hold, so code points are a type of their own: every number below `0x110000`. Literals are
written as ordinary characters and strings and coerced.

* `Text.ofNat`, `Text.ofInt` and `Text.ofHex` are the digits of numbers.
* `Text.writeInt` writes a number, unless it has more digits than the limit allows. That limit,
  `Text.maxDigits`, holds in both directions: of a text with more digits, no number is read.
* `Text.lineFeeds` counts line feeds, `Text.join` joins texts with a separator, and `Text.cut?`
  cuts a text at the first occurrence of a code point.

What the program does with strings is embedded here and in the other modules of `Text`, each for the
operations that its functions use. Out of scope: that the limit on digits can be set to another value.
-/

namespace LitmusGraph

/-- A code point. Surrogates are code points like any other and may stand alone. -/
structure CodePoint where
  /-- The number of the code point. -/
  val : Nat
  /-- Code points end at U+10FFFF. -/
  val_lt : val < 0x110000 := by decide
deriving DecidableEq

namespace CodePoint

instance : Inhabited CodePoint := ⟨{ val := 0 }⟩

/-- The code point of a character. -/
def ofChar (c : Char) : CodePoint where
  val := c.toNat
  val_lt := by
    have h := c.valid
    have e : c.val.toNat = c.toNat := rfl
    simp only [UInt32.isValidChar, Nat.isValidChar, e] at h
    omega

/-- The code point that ends texts in the file system. -/
def nul : CodePoint := { val := 0 }

instance : Coe Char CodePoint := ⟨ofChar⟩

/-- The code point with a number, or U+FFFD for a number beyond the last code point. -/
def ofNat (n : Nat) : CodePoint :=
  if h : n < 0x110000 then { val := n, val_lt := h } else { val := 0xFFFD }

@[simp] theorem val_ofChar (c : Char) : (ofChar c).val = c.toNat := rfl

theorem val_ofNat {n : Nat} (h : n < 0x110000) : (ofNat n).val = n := by simp [ofNat, h]

theorem ext_val {a b : CodePoint} (h : a.val = b.val) : a = b := by
  cases a; cases b; simp_all

/-- A leading surrogate, U+D800 to U+DBFF. -/
def isLeadSurrogate (c : CodePoint) : Bool := 0xD800 ≤ c.val && c.val < 0xDC00

/-- A trailing surrogate, U+DC00 to U+DFFF. -/
def isTrailSurrogate (c : CodePoint) : Bool := 0xDC00 ≤ c.val && c.val < 0xE000

/-- A surrogate of either kind. -/
def isSurrogate (c : CodePoint) : Bool := 0xD800 ≤ c.val && c.val < 0xE000

/-- One of the digits 0 to 9 of the ASCII range. -/
def isDigit (c : CodePoint) : Bool := 0x30 ≤ c.val && c.val ≤ 0x39

/-- The value of a hexadecimal digit of the ASCII range, in either case. -/
def hexDigit? (c : CodePoint) : Option Nat :=
  if 0x30 ≤ c.val && c.val ≤ 0x39 then some (c.val - 0x30)
  else if 0x41 ≤ c.val && c.val ≤ 0x46 then some (c.val - 0x37)
  else if 0x61 ≤ c.val && c.val ≤ 0x66 then some (c.val - 0x57)
  else none

end CodePoint

/-- A text: its code points in order. -/
abbrev Text := List CodePoint

namespace Text

instance : LawfulBEq Text := inferInstance

/-- The text of a string literal. -/
def ofString (s : String) : Text := s.toList.map CodePoint.ofChar

instance : Coe String Text := ⟨ofString⟩

/-- The decimal digits of a number, without leading zeros. -/
def ofNat (n : Nat) : Text := (Nat.toDigits 10 n).map CodePoint.ofChar

/-- A number in decimal, a minus sign in front when it is negative. -/
def ofInt : Int → Text
  | .ofNat n => ofNat n
  | .negSucc n => ('-' : CodePoint) :: ofNat (n + 1)

/-- The greatest number of digits of a whole number that is read from a text or written as one. -/
def maxDigits : Nat := 4300

/-- A whole number can be written if it does not have too many digits. The sign does not count. -/
def IsWritable (n : Int) : Prop := (ofNat n.natAbs).length ≤ maxDigits

instance : DecidablePred IsWritable := fun _ => inferInstanceAs (Decidable (_ ≤ maxDigits))

/-- The error that a whole number has too many digits to be written. -/
structure TooManyDigits where
deriving DecidableEq

/-- The text of the error. -/
def TooManyDigits.message (_ : TooManyDigits) : Text :=
  "Exceeds the limit (" ++ Text.ofNat maxDigits
    ++ " digits) for integer string conversion; use sys.set_int_max_str_digits() to increase the limit"

/-- A number in decimal, unless it has too many digits. -/
def writeInt (n : Int) : Except TooManyDigits Text :=
  if IsWritable n then .ok (ofInt n) else .error {}

/-- The lower-case hexadecimal digits of a number, padded with zeros to a width. -/
def ofHex (width n : Nat) : Text :=
  let digits := (Nat.toDigits 16 n).map CodePoint.ofChar
  List.replicate (width - digits.length) ('0' : CodePoint) ++ digits

/-- The number of line feeds. -/
def lineFeeds (t : Text) : Nat := t.count ('\n' : CodePoint)

/-- The texts one after the other, `sep` between neighbours. -/
def join (sep : Text) (parts : List Text) : Text := sep.intercalate parts

/-- The value of a run of ASCII digits. -/
def digitsValue (t : Text) : Nat := t.foldl (fun n c => 10 * n + (c.val - 0x30)) 0

/-- The text before and after the first occurrence of a code point, if it occurs. -/
def cut? (c : CodePoint) (t : Text) : Option (Text × Text) :=
  match t.dropWhile (· != c) with
  | [] => none
  | _ :: rest => some (t.takeWhile (· != c), rest)

end Text

end LitmusGraph
