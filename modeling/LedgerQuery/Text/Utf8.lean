/-!
# UTF-8

Characters as sequences of one to four octets.  Octets are natural numbers here.  Reading replaces
every octet that begins no well-formed sequence by the replacement character; what was written is
read back as it was.
-/

namespace LedgerQuery.Text.Utf8

/-- The octets of a code point. -/
def octets (n : Nat) : List Nat :=
  if n < 0x80 then [n]
  else if n < 0x800 then [0xC0 + n / 0x40, 0x80 + n % 0x40]
  else if n < 0x10000 then [0xE0 + n / 0x1000, 0x80 + n / 0x40 % 0x40, 0x80 + n % 0x40]
  else
    [0xF0 + n / 0x40000, 0x80 + n / 0x1000 % 0x40, 0x80 + n / 0x40 % 0x40, 0x80 + n % 0x40]

/-- The octets of a text. -/
def encode (cs : List Char) : List Nat :=
  cs.flatMap fun c => octets c.toNat

/-- Whether an octet continues a sequence. -/
def isTail (octet : Nat) : Bool :=
  0x80 ≤ octet && octet < 0xC0

/-- What stands for octets that are no character. -/
def replacement : Char :=
  Char.ofNat 0xFFFD

/-- The code point that a sequence of two octets spells. -/
def two? (a b : Nat) : Option Nat :=
  let n := (a - 0xC0) * 0x40 + (b - 0x80)
  if 0xC0 ≤ a ∧ a < 0xE0 ∧ isTail b ∧ 0x80 ≤ n then some n else none

/-- The code point that a sequence of three octets spells. -/
def three? (a b c : Nat) : Option Nat :=
  let n := (a - 0xE0) * 0x1000 + (b - 0x80) * 0x40 + (c - 0x80)
  if 0xE0 ≤ a ∧ a < 0xF0 ∧ isTail b ∧ isTail c ∧ 0x800 ≤ n ∧ n.isValidChar then some n else none

/-- The code point that a sequence of four octets spells. -/
def four? (a b c d : Nat) : Option Nat :=
  let n := (a - 0xF0) * 0x40000 + (b - 0x80) * 0x1000 + (c - 0x80) * 0x40 + (d - 0x80)
  if 0xF0 ≤ a ∧ a < 0xF8 ∧ isTail b ∧ isTail c ∧ isTail d ∧ 0x10000 ≤ n ∧ n.isValidChar then
    some n
  else none

/-- The first character of a sequence of octets and how many octets after the first it takes. -/
def first (a : Nat) (rest : List Nat) : Char × Nat :=
  if a < 0x80 then (Char.ofNat a, 0)
  else
    match rest with
    | b :: more =>
      match two? a b with
      | some n => (Char.ofNat n, 1)
      | none =>
        match more with
        | c :: more =>
          match three? a b c with
          | some n => (Char.ofNat n, 2)
          | none =>
            match more with
            | d :: _ =>
              match four? a b c d with
              | some n => (Char.ofNat n, 3)
              | none => (replacement, 0)
            | [] => (replacement, 0)
        | [] => (replacement, 0)
    | [] => (replacement, 0)

/-- The characters of a sequence of octets, of which the first `skip` are used up. -/
def decodeFrom : (skip : Nat) → List Nat → List Char
  | _, [] => []
  | skip + 1, _ :: rest => decodeFrom skip rest
  | 0, a :: rest => (first a rest).1 :: decodeFrom (first a rest).2 rest

/-- The characters of a sequence of octets. -/
def decode (octets : List Nat) : List Char :=
  decodeFrom 0 octets

end LedgerQuery.Text.Utf8
