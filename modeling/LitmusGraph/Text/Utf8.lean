import LitmusGraph.Text.Basic

/-!
# UTF-8

`encode` writes a text as bytes and refuses surrogates; `decode` reads bytes and refuses whatever
`encode` cannot have written. Each refusal names the place: a run of surrogates by the positions of
its code points, a bad sequence by the positions of its bytes.

`decode` is a small state machine. Between code points it waits for a lead byte; inside one it
knows how many bytes are still due and which range the next one must lie in. The range of the
second byte rules out overlong forms, surrogates and numbers beyond U+10FFFF.

Embedded is the encoding of the payload file and of the drawing that `read_executions` and
`write_output` open, of the standard output, and of the standard error with surrogates escaped. Out of
scope: files with another encoding.
-/

namespace LitmusGraph

/-- A sequence of bytes, such as the content of a file. -/
abbrev Bytes := List UInt8

namespace Utf8

/-! ## Writing -/

/-- The first surrogates of a text that has some: the first run of neighbours. -/
structure EncodeError where
  /-- The position of the first surrogate. -/
  first : Nat
  /-- The position of the last surrogate of the run. -/
  last : Nat
  /-- The first surrogate. -/
  codePoint : CodePoint
deriving DecidableEq

namespace EncodeError

/-- The text of the error. -/
def message (e : EncodeError) : Text :=
  if e.first = e.last then
    "'utf-8' codec can't encode character '\\u" ++ Text.ofHex 4 e.codePoint.val
      ++ "' in position " ++ Text.ofNat e.first ++ ": surrogates not allowed"
  else
    "'utf-8' codec can't encode characters in position " ++ Text.ofNat e.first ++ "-"
      ++ Text.ofNat e.last ++ ": surrogates not allowed"

end EncodeError

/-- The bytes of one code point that is no surrogate. -/
def encodeCodePoint (c : CodePoint) : Bytes :=
  let n := c.val
  if n < 0x80 then [n.toUInt8]
  else if n < 0x800 then [(0xC0 + n / 0x40).toUInt8, (0x80 + n % 0x40).toUInt8]
  else if n < 0x10000 then
    [(0xE0 + n / 0x1000).toUInt8, (0x80 + n / 0x40 % 0x40).toUInt8, (0x80 + n % 0x40).toUInt8]
  else
    [(0xF0 + n / 0x40000).toUInt8, (0x80 + n / 0x1000 % 0x40).toUInt8,
      (0x80 + n / 0x40 % 0x40).toUInt8, (0x80 + n % 0x40).toUInt8]

/-- The first surrogate of a text that is refused, if there is one, with those right behind it. -/
def firstRefused? (refused : CodePoint → Bool) (t : Text) : Option EncodeError :=
  match t.dropWhile (!refused ·) with
  | [] => none
  | c :: rest =>
    let first := (t.takeWhile (!refused ·)).length
    some { first, last := first + (rest.takeWhile CodePoint.isSurrogate).length, codePoint := c }

/-- The first run of surrogates of a text, if it has any. -/
def firstSurrogates? (t : Text) : Option EncodeError := firstRefused? CodePoint.isSurrogate t

/-- The bytes of a text without surrogates. -/
def encode (t : Text) : Except EncodeError Bytes :=
  match firstSurrogates? t with
  | some e => .error e
  | none => .ok (t.flatMap encodeCodePoint)

/-- The text with each surrogate written out by its number, so that it can be encoded. -/
def escapeSurrogates (t : Text) : Text :=
  t.flatMap fun c => if c.isSurrogate then "\\u" ++ Text.ofHex 4 c.val else [c]

/-! ## Reading -/

/-- What is wrong with a sequence of bytes. -/
inductive Fault where
  /-- No code point starts with this byte. -/
  | invalidStart
  /-- The byte behind the sequence does not continue it. -/
  | invalidContinuation
  /-- The bytes end inside a code point. -/
  | unexpectedEnd
deriving DecidableEq

/-- A sequence of bytes that is no code point. -/
structure DecodeError where
  /-- The position of its first byte. -/
  first : Nat
  /-- The position of its last byte. -/
  last : Nat
  /-- Its first byte. -/
  byte : UInt8
  /-- What is wrong with it. -/
  fault : Fault
deriving DecidableEq

namespace Fault

/-- The reason in words. -/
def message : Fault → Text
  | invalidStart => "invalid start byte"
  | invalidContinuation => "invalid continuation byte"
  | unexpectedEnd => "unexpected end of data"

end Fault

namespace DecodeError

/-- The text of the error. -/
def message (e : DecodeError) : Text :=
  let place : Text :=
    if e.first = e.last then
      "byte 0x" ++ Text.ofHex 2 e.byte.toNat ++ " in position " ++ Text.ofNat e.first
    else "bytes in position " ++ Text.ofNat e.first ++ "-" ++ Text.ofNat e.last
  "'utf-8' codec can't decode " ++ place ++ ": " ++ e.fault.message

end DecodeError

/-- A code point of which some bytes have been read. -/
structure Pending where
  /-- The position of its lead byte. -/
  first : Nat
  /-- Its lead byte. -/
  lead : UInt8
  /-- The number of bytes still due. -/
  due : Nat
  /-- The least byte that may come next. -/
  least : Nat
  /-- The greatest byte that may come next. -/
  most : Nat
  /-- The number made up by the bytes read. -/
  value : Nat

/-- The code point that a lead byte opens: how many bytes follow, the range of the second and the
bits that the lead byte holds. -/
def Pending.ofLead? (first : Nat) (lead : UInt8) : Option Pending :=
  let n := lead.toNat
  let opens (due least most value : Nat) : Option Pending :=
    some { first, lead, due, least, most, value }
  if n < 0xC2 then none
  else if n < 0xE0 then opens 1 0x80 0xBF (n - 0xC0)
  else if n = 0xE0 then opens 2 0xA0 0xBF 0
  else if n = 0xED then opens 2 0x80 0x9F 0xD
  else if n < 0xF0 then opens 2 0x80 0xBF (n - 0xE0)
  else if n = 0xF0 then opens 3 0x90 0xBF 0
  else if n < 0xF4 then opens 3 0x80 0xBF (n - 0xF0)
  else if n = 0xF4 then opens 3 0x80 0x8F 4
  else none

/-- Reads on from position `pos`; `read` holds the code points so far, the last one first. -/
def decodeFrom (read : Text) (pos : Nat) (pending : Option Pending) : Bytes → Except DecodeError Text
  | [] =>
    match pending with
    | none => .ok read.reverse
    | some p => .error { first := p.first, last := pos - 1, byte := p.lead, fault := .unexpectedEnd }
  | b :: rest =>
    match pending with
    | none =>
      if b.toNat < 0x80 then decodeFrom (CodePoint.ofNat b.toNat :: read) (pos + 1) none rest
      else
        match Pending.ofLead? pos b with
        | none => .error { first := pos, last := pos, byte := b, fault := .invalidStart }
        | some p => decodeFrom read (pos + 1) (some p) rest
    | some p =>
      if p.least ≤ b.toNat ∧ b.toNat ≤ p.most then
        let value := 0x40 * p.value + (b.toNat - 0x80)
        if p.due = 1 then decodeFrom (CodePoint.ofNat value :: read) (pos + 1) none rest
        else
          decodeFrom read (pos + 1)
            (some { p with due := p.due - 1, least := 0x80, most := 0xBF, value }) rest
      else
        .error { first := p.first, last := pos - 1, byte := p.lead, fault := .invalidContinuation }

/-- The text that a sequence of bytes encodes. -/
def decode (bytes : Bytes) : Except DecodeError Text := decodeFrom [] 0 none bytes

end Utf8

end LitmusGraph
