import LedgerQuery.Value.Basic

/-!
# Equality and order of values

Two values are equal when they stand for the same thing: `1`, `true` and `1.0` are one number, an
operator is the text of its word, and sequences and mappings are equal when their parts are.
Equality is decided on a canonical spelling, a list of atoms.  Only values without a list or mapping
inside can serve as a key.  The number that is none equals nothing.

Values of one kind are ordered: numbers by size, texts by code point, bytes and sequences from their
first difference on.
-/

namespace LedgerQuery

open Numeral (Binary64)

/-- One symbol of the canonical spelling of a value. -/
inductive Atom where
  | null
  | number (n : Int)
  /-- A floating point number that is not whole. -/
  | fraction (x : Binary64)
  | nan
  | text (s : String)
  | bytes (b : List UInt8)
  | entity (id : EntityId)
  | tuple (size : Nat)
  | list (size : Nat)
  | map (size : Nat)
  deriving DecidableEq, Repr

namespace Value

/-- The symbol of a floating point number. -/
def atomOfFloat (x : Binary64) : Atom :=
  match x.reading with
  | .nan => .nan
  | .infinite _ => .fraction x
  | .finite negative significand exponent =>
    let (p, q) := Binary64.ratio significand exponent
    if p % q = 0 then .number (Binary64.truncate negative significand exponent) else .fraction x

mutual

/-- The canonical spelling of a value. -/
def spelling : Value → List Atom
  | null => [.null]
  | bool b => [.number (if b then 1 else 0)]
  | int n => [.number n]
  | float x => [atomOfFloat x]
  | text s => [.text s]
  | bytes b => [.bytes b]
  | list items => .list items.length :: spellingItems items
  | tuple items => .tuple items.length :: spellingItems items
  | operator o => [.text o.word]
  | entity id => [.entity id]
  | pair o v => .tuple 2 :: .text o.word :: spelling v
  | cursor v inclusive primary =>
    .tuple 3 :: (spelling v ++
      [.number (if inclusive then 1 else 0), .number (if primary then 1 else 0)])
  | map entries =>
    -- The order of the entries does not count.
    .map entries.length ::
      ((spellingEntries entries).mergeSort fun a b => a.1 ≤ b.1).flatMap fun entry =>
        .text entry.1 :: entry.2

/-- The spellings of a sequence, one after the other. -/
def spellingItems : List Value → List Atom
  | [] => []
  | v :: vs => spelling v ++ spellingItems vs

/-- The spellings of the entries of a mapping. -/
def spellingEntries : List (String × Value) → List (String × List Atom)
  | [] => []
  | (key, v) :: rest => (key, spelling v) :: spellingEntries rest

end

mutual

/-- Whether a value can serve as a key: it holds no list and no mapping. -/
def isKey : Value → Bool
  | list _ | map _ => false
  | tuple items => areKeys items
  | pair _ v => isKey v
  | cursor v _ _ => isKey v
  | _ => true

/-- Whether all values of a sequence can serve as keys. -/
def areKeys : List Value → Bool
  | [] => true
  | v :: vs => isKey v && areKeys vs

end

/-- Whether two values are equal. -/
def equal (a b : Value) : Bool :=
  a.spelling == b.spelling && !a.spelling.contains .nan

/-- The numeric value of a number as a signed quotient; `none` for an infinity or no number. -/
def ratio? : Value → Option (Int × Nat)
  | bool b => some (if b then 1 else 0, 1)
  | int n => some (n, 1)
  | float x =>
    match x.reading with
    | .finite negative significand exponent =>
      some (Binary64.signedRatio negative significand exponent)
    | _ => none
  | _ => none

/-- Whether a value is a number. -/
def isNumber : Value → Bool
  | bool _ | int _ | float _ => true
  | _ => false

/-- The reading of a number that has no quotient. -/
def reading? : Value → Option Binary64.Reading
  | float x => some x.reading
  | _ => none

/-- Whether one number is smaller than another. -/
def lessNumber (a b : Value) : Bool :=
  match a.ratio?, b.ratio? with
  | some (p, q), some (r, s) => p * s < r * q
  | some _, none => b.reading? == some (.infinite false)
  | none, some _ => a.reading? == some (.infinite true)
  | none, none =>
    a.reading? == some (.infinite true) && b.reading? == some (.infinite false)

/-- Whether a list of bytes comes before another. -/
def lessBytes : List UInt8 → List UInt8 → Bool
  | _, [] => false
  | [], _ :: _ => true
  | a :: as, b :: bs => if a = b then lessBytes as bs else a < b

/-- The fields of a value that has a fixed number of them. -/
def fields? : Value → Option (List Value)
  | tuple items => some items
  | pair o v => some [operator o, v]
  | cursor v inclusive primary => some [v, bool inclusive, bool primary]
  | _ => none

/-- Whether a value that holds no others comes before another of its kind. -/
def lessPlain (a b : Value) : Except Fault Bool :=
  match a, b with
  | bytes a, bytes b => .ok (lessBytes a b)
  | _, _ =>
    if a.isNumber && b.isNumber then .ok (lessNumber a b)
    else
      match a.asText?, b.asText? with
      | some s, some t => .ok (s < t)
      | _, _ => .error .mistyped

/-- Whether a sequence of values that hold no others comes before another sequence. -/
def lessPlainItems : List Value → List Value → Except Fault Bool
  | _, [] => .ok false
  | [], _ :: _ => .ok true
  | a :: as, b :: bs => if a.equal b then lessPlainItems as bs else lessPlain a b

mutual

/-- Whether a value comes before another of its kind; a pair and a cursor are compared field by
field. -/
def less : Value → Value → Except Fault Bool
  | list as, list bs => lessItems as bs
  | tuple as, b =>
    match b.fields? with
    | some bs => lessItems as bs
    | none => .error .mistyped
  | pair o v, b =>
    match b.fields? with
    | some (w :: x :: rest) =>
      if equal (operator o) w then
        if v.equal x then .ok !rest.isEmpty else less v x
      else lessPlain (operator o) w
    | some [w] => if equal (operator o) w then .ok false else lessPlain (operator o) w
    | some [] => .ok false
    | none => .error .mistyped
  | cursor v inclusive primary, b =>
    match b.fields? with
    | some (w :: rest) =>
      if v.equal w then lessPlainItems [bool inclusive, bool primary] rest else less v w
    | some [] => .ok false
    | none => .error .mistyped
  | a, b => lessPlain a b

/-- Whether a sequence comes before another: its first element that differs does, or it ends
first. -/
def lessItems : List Value → List Value → Except Fault Bool
  | _, [] => .ok false
  | [], _ :: _ => .ok true
  | a :: as, b :: bs => if a.equal b then lessItems as bs else less a b

end

/-- A number moved by an integer. -/
def shift (v : Value) (step : Int) : Except Fault Value :=
  match v with
  | bool b => .ok (.int ((if b then 1 else 0) + step))
  | int n => .ok (.int (n + step))
  | float x => .ok (.float (x.shift step))
  | _ => .error .mistyped

@[simp]
theorem less_int (a b : Int) : less (.int a) (.int b) = .ok (decide (a < b)) := by
  simp [less, lessPlain, isNumber, lessNumber, ratio?]

@[simp]
theorem equal_int (a b : Int) : equal (.int a) (.int b) = decide (a = b) := by
  rw [Bool.eq_iff_iff]
  simp [equal, spelling]

@[simp]
theorem shift_int (n step : Int) : shift (.int n) step = .ok (.int (n + step)) := rfl

/-! Truth values count as the numbers one and zero. -/

theorem spelling_of_integer {v : Value} {n : Int} (read : v.integer = .ok n) :
    v.spelling = [.number n] := by
  cases v <;> cases read <;> rfl

theorem less_of_integer
    {v w : Value} {m n : Int} (first : v.integer = .ok m) (second : w.integer = .ok n) :
    v.less w = .ok (decide (m < n)) := by
  cases v <;> cases first <;> cases w <;> cases second <;>
    simp [less, lessPlain, isNumber, lessNumber, ratio?]

theorem equal_of_integer
    {v w : Value} {m n : Int} (first : v.integer = .ok m) (second : w.integer = .ok n) :
    v.equal w = decide (m = n) := by
  rw [Bool.eq_iff_iff]
  simp [equal, spelling_of_integer first, spelling_of_integer second]

theorem shift_of_integer {v : Value} {n : Int} (read : v.integer = .ok n) (step : Int) :
    v.shift step = .ok (.int (n + step)) := by
  cases v <;> cases read <;> rfl

end Value

end LedgerQuery
