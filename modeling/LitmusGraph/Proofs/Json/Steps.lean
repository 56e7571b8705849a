import LitmusGraph.Json.Reader

/-!
# How the readers of values go on

A list of items is an item and what stands behind it, a member is a name and what stands behind that,
and a value is told by its first code point. With these equations a reader is followed in the order of
the text, one reader behind the other.

* `readOn` reads on behind what was read.
* `readItems_succ`, `readMember_cons`, `readValue_nil`, `readValue_cons`: the readers of lists, members
  and values.
-/

namespace LitmusGraph

namespace Json

/-- Reads on behind what was read. -/
def readOn {α β : Type} (r : Except Stop (α × Text)) (next : α → Reader β) :
    Except Stop (β × Text) :=
  match r with
  | .error e => .error e
  | .ok (a, rest) => next a rest

section Items

variable {α : Type} {item : Reader α} {close : CodePoint}

/-- Reads on behind an item. -/
def readBehindItem (item : Reader α) (close : CodePoint) (bound : Nat) (read : List α) :
    Reader (List α) := fun t =>
  match skipGap t with
  | [] => .error (.malformed .expectingComma [])
  | c :: behind =>
    if c = close then .ok (read.reverse, behind)
    else if c = (',' : CodePoint) then readItems item close bound read (skipGap behind)
    else .error (.malformed .expectingComma (c :: behind))

theorem readItems_succ (bound : Nat) (read : List α) (t : Text) :
    readItems item close (bound + 1) read t =
      readOn (item t) fun a => readBehindItem item close bound (a :: read) := rfl

/-- The closing bracket ends the items. -/
theorem readBehindItem_close (hclose : isGap close = false) (bound : Nat) (read : List α) (t : Text) :
    readBehindItem item close bound read (close :: t) = .ok (read.reverse, t) := by
  have hgap : skipGap (close :: t) = close :: t := List.dropWhile_cons_of_neg (by simp [hclose])
  unfold readBehindItem
  rw [hgap]
  exact if_pos rfl

/-- A comma goes in front of an item. -/
theorem readBehindItem_comma (hclose : (',' : CodePoint) ≠ close) (bound : Nat) (read : List α)
    (t : Text) :
    readBehindItem item close bound read ((',' : CodePoint) :: t) =
      readItems item close bound read (skipGap t) := by
  have hgap : skipGap ((',' : CodePoint) :: t) = (',' : CodePoint) :: t :=
    List.dropWhile_cons_of_neg (by decide)
  unfold readBehindItem
  rw [hgap]
  dsimp only
  rw [if_neg hclose, if_pos rfl]

end Items

/-- Reads the colon and the value behind a member name. -/
def readBehindName (value : Reader Json) (name : Text) : Reader (Text × Json) := fun t =>
  match skipGap t with
  | [] => .error (.malformed .expectingColon [])
  | colon :: behind =>
    if colon = (':' : CodePoint) then (value (skipGap behind)).map fun (v, rest) => ((name, v), rest)
    else .error (.malformed .expectingColon (colon :: behind))

theorem readMember_cons (value : Reader Json) (c : CodePoint) (t : Text) :
    readMember value (c :: t) =
      if c = ('"' : CodePoint) then readOn (readString (c :: t) [] false t) (readBehindName value)
      else .error (.malformed .expectingName (c :: t)) := by
  unfold readMember
  dsimp only
  cases readString (c :: t) [] false t <;> rfl

theorem readValue_nil (b levels : Nat) :
    readValue b levels [] = .error (.malformed .expectingValue []) := by
  cases levels <;> rfl

theorem readValue_cons (b levels : Nat) (c : CodePoint) (t : Text) :
    readValue b levels (c :: t) =
      if c = ('"' : CodePoint) then
        (readString (c :: t) [] false t).map fun (t, behind) => (.string t, behind)
      else if c = ('[' : CodePoint) then
        match levels with
        | 0 => .error (.tooDeep .array)
        | levels + 1 =>
          (readBody (readValue b levels) ']' b t).map fun (items, behind) => (.array items, behind)
      else if c = ('{' : CodePoint) then
        match levels with
        | 0 => .error (.tooDeep .object)
        | levels + 1 =>
          (readBody (readMember (readValue b levels)) '}' b t).map fun (members, behind) =>
            (.object (Members.ofList members), behind)
      else readAtom (c :: t) := by
  cases levels <;> rfl

end Json

end LitmusGraph
