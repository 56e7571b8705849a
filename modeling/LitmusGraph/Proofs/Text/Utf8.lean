import LitmusGraph.Text.Utf8
import Mathlib.Data.List.DropRight

/-!
# UTF-8 is read as it is written

A sequence of bytes is read as a text exactly if it is what is written of that text: nothing is
refused that can be written, no overlong form, surrogate or number beyond the last code point gets
through, and two texts never have the same bytes.

`Pending.Completes` says which bytes complete a code point behind its lead byte, and what number it
then has. The reading machine takes in just those (`decodeFrom_of_completes`,
`exists_completes_of_decodeFrom`), so that what is left is arithmetic on each width.

Results:
* `encode_eq_ok_iff`: the texts that can be written are those without surrogates.
* `exists_encode_of_completes`, `opens_encodeCodePoint`: a lead byte and the bytes that complete it
  are the bytes of a code point, and the other way round.
* `decode_eq_ok_iff`: reading bytes undoes writing text.
-/

namespace LitmusGraph

namespace Utf8

/-! ## Texts that can be encoded -/

/-- A text can be encoded: no surrogate is in it. -/
def Encodable (t : Text) : Prop := ∀ c ∈ t, c.isSurrogate = false

instance (t : Text) : Decidable (Encodable t) :=
  inferInstanceAs (Decidable (∀ c ∈ t, c.isSurrogate = false))

theorem firstRefused?_eq_none_iff {refused : CodePoint → Bool} {t : Text} :
    firstRefused? refused t = none ↔ ∀ c ∈ t, refused c = false := by
  have hiff : t.dropWhile (!refused ·) = [] ↔ ∀ c ∈ t, refused c = false := by
    simp [List.dropWhile_eq_nil_iff]
  rw [← hiff]
  unfold firstRefused?
  cases t.dropWhile (!refused ·) with
  | nil => simp
  | cons c rest => simp

theorem firstSurrogates?_eq_none_iff {t : Text} : firstSurrogates? t = none ↔ Encodable t :=
  firstRefused?_eq_none_iff

theorem encode_eq_ok_iff {t : Text} {bytes : Bytes} :
    encode t = .ok bytes ↔ Encodable t ∧ bytes = t.flatMap encodeCodePoint := by
  rw [← firstSurrogates?_eq_none_iff]
  unfold encode
  cases firstSurrogates? t with
  | none => simp [eq_comm]
  | some e => simp

theorem Encodable.encode_eq {t : Text} (h : Encodable t) :
    encode t = .ok (t.flatMap encodeCodePoint) :=
  encode_eq_ok_iff.mpr ⟨h, rfl⟩

/-- A text that cannot be encoded is refused. -/
theorem exists_encode_eq_error {t : Text} (h : ¬ Encodable t) : ∃ e, encode t = .error e := by
  cases hencode : encode t with
  | ok bytes => exact absurd (encode_eq_ok_iff.mp hencode).1 h
  | error e => exact ⟨e, rfl⟩

/-! ## Pending code points -/

namespace Pending

/-- A byte may come next. -/
def Fits (p : Pending) (b : UInt8) : Prop := p.least ≤ b.toNat ∧ b.toNat ≤ p.most

instance (p : Pending) (b : UInt8) : Decidable (p.Fits b) := instDecidableAnd

/-- What is pending behind one more byte. -/
def next (p : Pending) (b : UInt8) : Pending :=
  { p with due := p.due - 1, least := 0x80, most := 0xBF, value := 0x40 * p.value + (b.toNat - 0x80) }

/-- The bytes that are still due, all of them, and the number of the code point that they complete. -/
inductive Completes : Pending → Bytes → Nat → Prop where
  /-- The last byte. -/
  | last {p : Pending} {b : UInt8} (fits : p.Fits b) (due : p.due = 1) :
    Completes p [b] (p.next b).value
  /-- A byte with more to come. -/
  | more {p : Pending} {b : UInt8} {tail : Bytes} {n : Nat} (fits : p.Fits b) (due : p.due ≠ 1)
    (rest : Completes (p.next b) tail n) : Completes p (b :: tail) n

end Pending

theorem decodeFrom_none_cons (read : Text) (pos : Nat) (b : UInt8) (rest : Bytes) :
    decodeFrom read pos none (b :: rest) =
      if b.toNat < 0x80 then decodeFrom (CodePoint.ofNat b.toNat :: read) (pos + 1) none rest
      else
        match Pending.ofLead? pos b with
        | none => .error { first := pos, last := pos, byte := b, fault := .invalidStart }
        | some p => decodeFrom read (pos + 1) (some p) rest :=
  rfl

theorem decodeFrom_some_cons (read : Text) (pos : Nat) (p : Pending) (b : UInt8) (rest : Bytes) :
    decodeFrom read pos (some p) (b :: rest) =
      if p.Fits b then
        if p.due = 1 then decodeFrom (CodePoint.ofNat (p.next b).value :: read) (pos + 1) none rest
        else decodeFrom read (pos + 1) (some (p.next b)) rest
      else .error { first := p.first, last := pos - 1, byte := p.lead, fault := .invalidContinuation } :=
  rfl

/-- The bytes that complete a code point are read as that code point. -/
theorem decodeFrom_of_completes {p : Pending} {tail : Bytes} {n : Nat} (h : p.Completes tail n)
    (read : Text) (pos : Nat) (rest : Bytes) :
    ∃ pos', decodeFrom read pos (some p) (tail ++ rest) =
      decodeFrom (CodePoint.ofNat n :: read) pos' none rest := by
  induction h generalizing pos with
  | last fits due =>
    refine ⟨pos + 1, ?_⟩
    rw [List.singleton_append, decodeFrom_some_cons, if_pos fits, if_pos due]
  | more fits due _ ih =>
    obtain ⟨pos', hrest⟩ := ih (pos + 1)
    refine ⟨pos', ?_⟩
    rw [List.cons_append, decodeFrom_some_cons, if_pos fits, if_neg due, hrest]

/-- Behind a pending code point, bytes are read only if they complete it. -/
theorem exists_completes_of_decodeFrom {read t : Text} {pos : Nat} {p : Pending} {bytes : Bytes}
    (h : decodeFrom read pos (some p) bytes = .ok t) :
    ∃ tail rest n pos', bytes = tail ++ rest ∧ p.Completes tail n ∧
      decodeFrom (CodePoint.ofNat n :: read) pos' none rest = .ok t := by
  induction bytes generalizing pos p with
  | nil => exact nomatch h
  | cons b bytes ih =>
    rw [decodeFrom_some_cons] at h
    by_cases hfits : p.Fits b
    · rw [if_pos hfits] at h
      by_cases hdue : p.due = 1
      · rw [if_pos hdue] at h
        exact ⟨[b], bytes, _, pos + 1, rfl, .last hfits hdue, h⟩
      · rw [if_neg hdue] at h
        obtain ⟨tail, rest, n, pos', rfl, hcompletes, hrest⟩ := ih h
        exact ⟨b :: tail, rest, n, pos', rfl, .more hfits hdue hcompletes, hrest⟩
    · rw [if_neg hfits] at h
      exact nomatch h

/-- The last byte of a code point completes it. -/
theorem completes_iff_of_due_one {p : Pending} {tail : Bytes} {n : Nat} (hdue : p.due = 1) :
    p.Completes tail n ↔ ∃ b, tail = [b] ∧ p.Fits b ∧ n = (p.next b).value := by
  constructor
  · intro h
    cases h with
    | @last _ b fits due => exact ⟨b, rfl, fits, rfl⟩
    | more fits due rest => exact absurd hdue due
  · rintro ⟨b, rfl, fits, hn⟩
    rw [hn]
    exact .last fits hdue

/-- Another byte of a code point goes in front of what completes it then. -/
theorem completes_iff_of_due_ne {p : Pending} {tail : Bytes} {n : Nat} (hdue : p.due ≠ 1) :
    p.Completes tail n ↔
      ∃ b rest, tail = b :: rest ∧ p.Fits b ∧ (p.next b).Completes rest n := by
  constructor
  · intro h
    cases h with
    | last fits due => exact absurd due hdue
    | @more _ b tail _ fits due rest => exact ⟨b, tail, rfl, fits, rest⟩
  · rintro ⟨b, rest, rfl, fits, h⟩
    exact .more fits hdue h

/-- What a lead byte opens: one, two or three bytes are still due, the first of them in a range that
depends on the lead byte. -/
theorem ofLead?_eq_some_iff {first : Nat} {b : UInt8} {p : Pending} :
    Pending.ofLead? first b = some p ↔ p.first = first ∧ p.lead = b ∧
      (p.due = 1 ∧ 0xC2 ≤ b.toNat ∧ b.toNat < 0xE0 ∧ p.value = b.toNat - 0xC0 ∧
          p.least = 0x80 ∧ p.most = 0xBF ∨
        p.due = 2 ∧ 0xE0 ≤ b.toNat ∧ b.toNat < 0xF0 ∧ p.value = b.toNat - 0xE0 ∧
          p.least = (if b.toNat = 0xE0 then 0xA0 else 0x80) ∧
          p.most = (if b.toNat = 0xED then 0x9F else 0xBF) ∨
        p.due = 3 ∧ 0xF0 ≤ b.toNat ∧ b.toNat < 0xF5 ∧ p.value = b.toNat - 0xF0 ∧
          p.least = (if b.toNat = 0xF0 then 0x90 else 0x80) ∧
          p.most = (if b.toNat = 0xF4 then 0x8F else 0xBF)) := by
  obtain ⟨pfirst, plead, due, least, most, value⟩ := p
  unfold Pending.ofLead?
  grind

/-! ## Numbers as bytes -/

theorem toUInt8_eq {n : Nat} {b : UInt8} (h : n = b.toNat) : n.toUInt8 = b := by
  rw [h, Nat.toUInt8_eq, UInt8.ofNat_toNat]

theorem toNat_toUInt8 {n : Nat} (h : n < 0x100) : n.toUInt8.toNat = n := by
  rw [Nat.toUInt8_eq, UInt8.toNat_ofNat']
  omega

/-! ## Code points of several bytes -/

/-- A code point that is no surrogate. -/
theorem isSurrogate_eq_false_iff {c : CodePoint} :
    c.isSurrogate = false ↔ ¬ (0xD800 ≤ c.val ∧ c.val < 0xE000) := by
  simp [CodePoint.isSurrogate]

section Width

variable {first : Nat} {b : UInt8} {p : Pending} {tail : Bytes} {n : Nat} {c : CodePoint}

/-- Two bytes are those of a code point. -/
theorem exists_encode_of_due_one (hlead : Pending.ofLead? first b = some p) (hdue : p.due = 1)
    (h : p.Completes tail n) :
    ∃ c : CodePoint, c.val = n ∧ c.isSurrogate = false ∧ encodeCodePoint c = b :: tail := by
  obtain ⟨-, -, hrange⟩ := ofLead?_eq_some_iff.mp hlead
  obtain ⟨-, hlow, hhigh, hvalue, hleast, hmost⟩ := hrange.resolve_right (by omega)
  obtain ⟨b₂, rfl, fits, hn⟩ := (completes_iff_of_due_one hdue).mp h
  simp only [Pending.Fits, Pending.next, hleast, hmost, hvalue] at fits hn
  refine ⟨⟨n, by omega⟩, rfl, isSurrogate_eq_false_iff.mpr ?_, ?_⟩
  · show ¬ (0xD800 ≤ n ∧ n < 0xE000)
    omega
  · unfold encodeCodePoint
    simp only
    rw [if_neg (by omega), if_pos (by omega)]
    rw [toUInt8_eq (b := b) (by omega), toUInt8_eq (b := b₂) (by omega)]

/-- Three bytes are those of a code point. -/
theorem exists_encode_of_due_two (hlead : Pending.ofLead? first b = some p) (hdue : p.due = 2)
    (h : p.Completes tail n) :
    ∃ c : CodePoint, c.val = n ∧ c.isSurrogate = false ∧ encodeCodePoint c = b :: tail := by
  obtain ⟨-, -, hrange⟩ := ofLead?_eq_some_iff.mp hlead
  obtain ⟨-, hlow, hhigh, hvalue, hleast, hmost⟩ :=
    (hrange.resolve_left (by omega)).resolve_right (by omega)
  obtain ⟨b₂, rest, rfl, fits, h⟩ := (completes_iff_of_due_ne (by omega)).mp h
  obtain ⟨b₃, rfl, fits₃, hn⟩ := (completes_iff_of_due_one (by simp [Pending.next, hdue])).mp h
  simp only [Pending.Fits, Pending.next, hleast, hmost, hvalue] at fits fits₃ hn
  -- The range of the second byte keeps out the numbers that need fewer bytes and the surrogates.
  have hsecond : 0x80 ≤ b₂.toNat ∧ b₂.toNat ≤ 0xBF ∧ (b.toNat = 0xE0 → 0xA0 ≤ b₂.toNat) ∧
      (b.toNat = 0xED → b₂.toNat ≤ 0x9F) := by
    split_ifs at fits <;> omega
  refine ⟨⟨n, by omega⟩, rfl, isSurrogate_eq_false_iff.mpr ?_, ?_⟩
  · show ¬ (0xD800 ≤ n ∧ n < 0xE000)
    omega
  · unfold encodeCodePoint
    simp only
    rw [if_neg (by omega), if_neg (by omega), if_pos (by omega)]
    rw [toUInt8_eq (b := b) (by omega), toUInt8_eq (b := b₂) (by omega),
      toUInt8_eq (b := b₃) (by omega)]

/-- Four bytes are those of a code point. -/
theorem exists_encode_of_due_three (hlead : Pending.ofLead? first b = some p) (hdue : p.due = 3)
    (h : p.Completes tail n) :
    ∃ c : CodePoint, c.val = n ∧ c.isSurrogate = false ∧ encodeCodePoint c = b :: tail := by
  obtain ⟨-, -, hrange⟩ := ofLead?_eq_some_iff.mp hlead
  obtain ⟨-, hlow, hhigh, hvalue, hleast, hmost⟩ :=
    (hrange.resolve_left (by omega)).resolve_left (by omega)
  obtain ⟨b₂, rest, rfl, fits, h⟩ := (completes_iff_of_due_ne (by omega)).mp h
  obtain ⟨b₃, rest, rfl, fits₃, h⟩ :=
    (completes_iff_of_due_ne (by simp [Pending.next, hdue])).mp h
  obtain ⟨b₄, rfl, fits₄, hn⟩ := (completes_iff_of_due_one (by simp [Pending.next, hdue])).mp h
  simp only [Pending.Fits, Pending.next, hleast, hmost, hvalue] at fits fits₃ fits₄ hn
  -- Here it keeps out the numbers that need fewer bytes and those beyond the last code point.
  have hsecond : 0x80 ≤ b₂.toNat ∧ b₂.toNat ≤ 0xBF ∧ (b.toNat = 0xF0 → 0x90 ≤ b₂.toNat) ∧
      (b.toNat = 0xF4 → b₂.toNat ≤ 0x8F) := by
    split_ifs at fits <;> omega
  refine ⟨⟨n, by omega⟩, rfl, isSurrogate_eq_false_iff.mpr ?_, ?_⟩
  · show ¬ (0xD800 ≤ n ∧ n < 0xE000)
    omega
  · unfold encodeCodePoint
    simp only
    rw [if_neg (by omega), if_neg (by omega), if_neg (by omega)]
    rw [toUInt8_eq (b := b) (by omega), toUInt8_eq (b := b₂) (by omega),
      toUInt8_eq (b := b₃) (by omega), toUInt8_eq (b := b₄) (by omega)]

/-- **A lead byte and the bytes that complete it** are the bytes of a code point. -/
theorem exists_encode_of_completes (hlead : Pending.ofLead? first b = some p)
    (h : p.Completes tail n) :
    ∃ c : CodePoint, c.val = n ∧ c.isSurrogate = false ∧ encodeCodePoint c = b :: tail := by
  obtain ⟨-, -, hone | htwo | hthree⟩ := ofLead?_eq_some_iff.mp hlead
  · exact exists_encode_of_due_one hlead hone.1 h
  · exact exists_encode_of_due_two hlead htwo.1 h
  · exact exists_encode_of_due_three hlead hthree.1 h

/-- The bytes of a code point: a lead byte, and those that complete it. -/
def Opens (first : Nat) (bytes : Bytes) (n : Nat) : Prop :=
  ∃ b tail p, bytes = b :: tail ∧ 0x80 ≤ b.toNat ∧ Pending.ofLead? first b = some p ∧
    p.Completes tail n

theorem opens_two (hlow : 0x80 ≤ c.val) (hhigh : c.val < 0x800) :
    Opens first [(0xC0 + c.val / 0x40).toUInt8, (0x80 + c.val % 0x40).toUInt8] c.val := by
  have hb := toNat_toUInt8 (n := 0xC0 + c.val / 0x40) (by omega)
  have hb₂ := toNat_toUInt8 (n := 0x80 + c.val % 0x40) (by omega)
  refine ⟨_, _, ⟨first, _, 1, 0x80, 0xBF, _⟩, rfl, by omega, ofLead?_eq_some_iff.mpr
    ⟨rfl, rfl, .inl ⟨rfl, by omega, by omega, rfl, rfl, rfl⟩⟩, ?_⟩
  refine (completes_iff_of_due_one rfl).mpr ⟨_, rfl, ?_, ?_⟩
  · simp only [Pending.Fits]
    omega
  · simp only [Pending.next]
    omega

theorem opens_three (hlow : 0x800 ≤ c.val) (hhigh : c.val < 0x10000)
    (hscalar : c.isSurrogate = false) :
    Opens first [(0xE0 + c.val / 0x1000).toUInt8, (0x80 + c.val / 0x40 % 0x40).toUInt8,
      (0x80 + c.val % 0x40).toUInt8] c.val := by
  rw [isSurrogate_eq_false_iff] at hscalar
  have hb := toNat_toUInt8 (n := 0xE0 + c.val / 0x1000) (by omega)
  have hb₂ := toNat_toUInt8 (n := 0x80 + c.val / 0x40 % 0x40) (by omega)
  have hb₃ := toNat_toUInt8 (n := 0x80 + c.val % 0x40) (by omega)
  generalize (0xE0 + c.val / 0x1000).toUInt8 = b at hb ⊢
  refine ⟨b, _, ⟨first, b, 2, if b.toNat = 0xE0 then 0xA0 else 0x80,
    if b.toNat = 0xED then 0x9F else 0xBF, _⟩, rfl, by omega, ofLead?_eq_some_iff.mpr
    ⟨rfl, rfl, .inr (.inl ⟨rfl, by omega, by omega, rfl, rfl, rfl⟩)⟩, ?_⟩
  refine (completes_iff_of_due_ne (by simp)).mpr ⟨_, _, rfl, ?_, ?_⟩
  · simp only [Pending.Fits]
    split_ifs <;> omega
  refine (completes_iff_of_due_one rfl).mpr ⟨_, rfl, ?_, ?_⟩
  · simp only [Pending.Fits, Pending.next]
    omega
  · simp only [Pending.next]
    omega

theorem opens_four (hlow : 0x10000 ≤ c.val) :
    Opens first [(0xF0 + c.val / 0x40000).toUInt8, (0x80 + c.val / 0x1000 % 0x40).toUInt8,
      (0x80 + c.val / 0x40 % 0x40).toUInt8, (0x80 + c.val % 0x40).toUInt8] c.val := by
  have hlt := c.val_lt
  have hb := toNat_toUInt8 (n := 0xF0 + c.val / 0x40000) (by omega)
  have hb₂ := toNat_toUInt8 (n := 0x80 + c.val / 0x1000 % 0x40) (by omega)
  have hb₃ := toNat_toUInt8 (n := 0x80 + c.val / 0x40 % 0x40) (by omega)
  have hb₄ := toNat_toUInt8 (n := 0x80 + c.val % 0x40) (by omega)
  generalize (0xF0 + c.val / 0x40000).toUInt8 = b at hb ⊢
  refine ⟨b, _, ⟨first, b, 3, if b.toNat = 0xF0 then 0x90 else 0x80,
    if b.toNat = 0xF4 then 0x8F else 0xBF, _⟩, rfl, by omega, ofLead?_eq_some_iff.mpr
    ⟨rfl, rfl, .inr (.inr ⟨rfl, by omega, by omega, rfl, rfl, rfl⟩)⟩, ?_⟩
  refine (completes_iff_of_due_ne (by simp)).mpr ⟨_, _, rfl, ?_, ?_⟩
  · simp only [Pending.Fits]
    split_ifs <;> omega
  refine (completes_iff_of_due_ne (by simp [Pending.next])).mpr ⟨_, _, rfl, ?_, ?_⟩
  · simp only [Pending.Fits, Pending.next]
    omega
  refine (completes_iff_of_due_one rfl).mpr ⟨_, rfl, ?_, ?_⟩
  · simp only [Pending.Fits, Pending.next]
    omega
  · simp only [Pending.next]
    omega

/-- **The bytes of a code point of several bytes** are a lead byte and those that complete it. -/
theorem opens_encodeCodePoint (first : Nat) (hscalar : c.isSurrogate = false) (hlong : 0x80 ≤ c.val) :
    Opens first (encodeCodePoint c) c.val := by
  unfold encodeCodePoint
  simp only
  rw [if_neg (by omega)]
  by_cases htwo : c.val < 0x800
  · rw [if_pos htwo]
    exact opens_two hlong htwo
  rw [if_neg htwo]
  by_cases hthree : c.val < 0x10000
  · rw [if_pos hthree]
    exact opens_three (by omega) hthree hscalar
  · rw [if_neg hthree]
    exact opens_four (by omega)

end Width

/-! ## Whole texts -/

/-- The bytes of a code point are read as that code point. -/
theorem decodeFrom_encodeCodePoint {c : CodePoint} (hscalar : c.isSurrogate = false) (read : Text)
    (pos : Nat) (rest : Bytes) :
    ∃ pos', decodeFrom read pos none (encodeCodePoint c ++ rest) =
      decodeFrom (c :: read) pos' none rest := by
  have hc : CodePoint.ofNat c.val = c := CodePoint.ext_val (CodePoint.val_ofNat c.val_lt)
  by_cases hlong : 0x80 ≤ c.val
  · obtain ⟨b, tail, p, hbytes, hb, hlead, hcompletes⟩ := opens_encodeCodePoint pos hscalar hlong
    obtain ⟨pos', hread⟩ := decodeFrom_of_completes hcompletes read (pos + 1) rest
    refine ⟨pos', ?_⟩
    rw [hc] at hread
    rw [hbytes, List.cons_append, decodeFrom_none_cons, if_neg (by omega), hlead]
    exact hread
  · refine ⟨pos + 1, ?_⟩
    have hb := toNat_toUInt8 (n := c.val) (by omega)
    unfold encodeCodePoint
    simp only
    rw [if_pos (by omega), List.singleton_append, decodeFrom_none_cons, hb, if_pos (by omega), hc]

/-- What is read starts with the bytes of a code point. -/
theorem exists_encodeCodePoint_of_decodeFrom {read t : Text} {pos : Nat} {b : UInt8} {rest : Bytes}
    (h : decodeFrom read pos none (b :: rest) = .ok t) :
    ∃ c bytes pos', CodePoint.isSurrogate c = false ∧ b :: rest = encodeCodePoint c ++ bytes ∧
      decodeFrom (c :: read) pos' none bytes = .ok t := by
  rw [decodeFrom_none_cons] at h
  by_cases hb : b.toNat < 0x80
  · rw [if_pos hb] at h
    have hval : (CodePoint.ofNat b.toNat).val = b.toNat := CodePoint.val_ofNat (by omega)
    refine ⟨CodePoint.ofNat b.toNat, rest, pos + 1, isSurrogate_eq_false_iff.mpr (by omega), ?_, h⟩
    unfold encodeCodePoint
    simp only
    rw [if_pos (by omega), toUInt8_eq hval, List.singleton_append]
  · rw [if_neg hb] at h
    split at h
    · exact nomatch h
    next p hlead =>
    obtain ⟨tail, bytes, n, pos', rfl, hcompletes, hrest⟩ := exists_completes_of_decodeFrom h
    obtain ⟨c, hn, hscalar, hencode⟩ := exists_encode_of_completes hlead hcompletes
    have hc : CodePoint.ofNat n = c := CodePoint.ext_val (by rw [← hn, CodePoint.val_ofNat c.val_lt])
    rw [hc] at hrest
    exact ⟨c, bytes, pos', hscalar, by rw [hencode, List.cons_append], hrest⟩

theorem encodeCodePoint_ne_nil (c : CodePoint) : encodeCodePoint c ≠ [] := by
  unfold encodeCodePoint
  simp only
  split_ifs <;> exact List.cons_ne_nil _ _

/-- The bytes of a text are read as that text. -/
theorem decodeFrom_flatMap_encodeCodePoint {t : Text} (h : Encodable t) (read : Text) (pos : Nat) :
    decodeFrom read pos none (t.flatMap encodeCodePoint) = .ok (read.reverse ++ t) := by
  induction t generalizing read pos with
  | nil =>
    rw [List.append_nil]
    rfl
  | cons c t ih =>
    obtain ⟨hc, ht⟩ := List.forall_mem_cons.mp h
    obtain ⟨pos', hread⟩ := decodeFrom_encodeCodePoint hc read pos (t.flatMap encodeCodePoint)
    rw [List.flatMap_cons, hread, ih ht, List.reverse_cons, List.append_assoc, List.singleton_append]

/-- What is read as a text is the bytes of that text. -/
theorem exists_text_of_decodeFrom {read t : Text} {pos : Nat} {bytes : Bytes}
    (h : decodeFrom read pos none bytes = .ok t) :
    ∃ s, Encodable s ∧ bytes = s.flatMap encodeCodePoint ∧ t = read.reverse ++ s := by
  induction hlength : bytes.length using Nat.strong_induction_on generalizing bytes read pos with
  | _ length ih =>
  cases bytes with
  | nil => exact ⟨[], List.forall_mem_nil _, rfl, by rw [List.append_nil]; exact (Except.ok.inj h).symm⟩
  | cons b rest =>
    obtain ⟨c, bytes, pos', hc, hbytes, hrest⟩ := exists_encodeCodePoint_of_decodeFrom h
    have hshorter : bytes.length < length := by
      have hpos := List.length_pos_iff.mpr (encodeCodePoint_ne_nil c)
      rw [← hlength, hbytes, List.length_append]
      omega
    obtain ⟨s, hs, rfl, rfl⟩ := ih _ hshorter hrest rfl
    refine ⟨c :: s, List.forall_mem_cons.mpr ⟨hc, hs⟩, hbytes, ?_⟩
    rw [List.reverse_cons, List.append_assoc, List.singleton_append]

/-- **Reading bytes undoes writing text**, and nothing else can be read. -/
theorem decode_eq_ok_iff {bytes : Bytes} {t : Text} : decode bytes = .ok t ↔ encode t = .ok bytes := by
  rw [encode_eq_ok_iff]
  constructor
  · intro h
    obtain ⟨s, hs, rfl, rfl⟩ := exists_text_of_decodeFrom h
    exact ⟨hs, rfl⟩
  · rintro ⟨h, rfl⟩
    exact decodeFrom_flatMap_encodeCodePoint h [] 0

end Utf8

end LitmusGraph
