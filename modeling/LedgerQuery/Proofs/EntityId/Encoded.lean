import LedgerQuery.Proofs.Value.Parts
import LedgerQuery.Value.Order
import Mathlib

/-!
# Encoded entity ids

The fields of an id stand side by side in its encoded number: ten bits of shard,
sixteen of realm and thirty-eight of number.  So they are joined by shifts alone
and found again by shifts and masks, also in a number that is negative or too
large to be an id.  The main statement is that ids and the numbers of sixty-four
bits correspond to each other, and that the order of the numbers is the order by
shard, then realm, then number.
-/

namespace LedgerQuery.EntityId

/-! ## Ids of three fields -/

variable {shard realm num : Int} {id : EntityId}

theorem isSome_make?_iff :
    (make? shard realm num).isSome = true ↔
      (0 ≤ shard ∧ shard < (1 <<< 10 : Nat)) ∧ (0 ≤ realm ∧ realm < (1 <<< 16 : Nat)) ∧
        (0 ≤ num ∧ num < (1 <<< 38 : Nat)) := by
  rw [make?]
  split
  · next fits => exact iff_of_true rfl fits
  · next outside => exact iff_of_false Bool.false_ne_true outside

/-- The components of an id can be written. -/
theorem all_isWritable_of_isSome_make? (made : (make? shard realm num).isSome = true) :
    [shard, realm, num].all Numeral.isWritable = true := by
  have fits := isSome_make?_iff.mp made
  rw [List.all_cons, List.all_cons, List.all_cons, List.all_nil,
    Numeral.isWritable_of_lt 4 (by decide) (by norm_num; omega),
    Numeral.isWritable_of_lt 5 (by decide) (by norm_num; omega),
    Numeral.isWritable_of_lt 12 (by decide) (by norm_num; omega)]
  rfl

theorem make?_eq_some_iff :
    make? shard realm num = some id ↔
      (id.shard : Int) = shard ∧ (id.realm : Int) = realm ∧ (id.num : Int) = num := by
  constructor
  · intro made
    rw [make?] at made
    split at made
    · next fits =>
      cases made
      exact ⟨Int.toNat_of_nonneg fits.1.1, Int.toNat_of_nonneg fits.2.1.1,
        Int.toNat_of_nonneg fits.2.2.1⟩
    · cases made
  · rintro ⟨rfl, rfl, rfl⟩
    have shard := id.shard_lt
    have realm := id.realm_lt
    have num := id.num_lt
    rw [make?, dif_pos (by omega)]
    rfl

theorem make_eq_ok_iff :
    make shard realm num = .ok id ↔
      (id.shard : Int) = shard ∧ (id.realm : Int) = realm ∧ (id.num : Int) = num := by
  rw [← make?_eq_some_iff, make]
  cases make? shard realm num with
  | none =>
    refine iff_of_false ?_ nofun
    dsimp only
    split <;> exact nofun
  | some made => rw [Except.ok.injEq, Option.some.injEq]

/-- Three components without an id are named by the fault where all of them can be written. -/
theorem make_of_make?_eq_none (refused : make? shard realm num = none) :
    make shard realm num =
      if [shard, realm, num].all Numeral.isWritable then
        .error (.argument (.entityRange shard realm num))
      else .error (.unreadable .writeLimit) := by
  rw [make, refused]

/-! ## Fields side by side -/

theorem encoded_eq (id : EntityId) :
    id.encoded = id.shard * 2 ^ 54 + id.realm * 2 ^ 38 + id.num := by
  rw [encoded, Nat.shiftLeft_eq, Nat.shiftLeft_eq]

/-- No field reaches into another, so their sum is their union bit by bit. -/
theorem encoded_eq_or (id : EntityId) :
    id.encoded = id.shard <<< 54 ||| id.realm <<< 38 ||| id.num := by
  have realm : id.realm < 2 ^ 16 := id.realm_lt
  have num : id.num < 2 ^ 38 := id.num_lt
  calc
    id.encoded = (id.shard <<< 16 + id.realm) <<< 38 + id.num := by
      rw [encoded_eq, Nat.shiftLeft_eq, Nat.shiftLeft_eq]
      omega
    _ = (id.shard <<< 16 ||| id.realm) <<< 38 ||| id.num := by
      rw [Nat.shiftLeft_add_eq_or_of_lt num, Nat.shiftLeft_add_eq_or_of_lt realm]
    _ = id.shard <<< 54 ||| id.realm <<< 38 ||| id.num := by
      rw [Nat.shiftLeft_or_distrib, ← Nat.shiftLeft_add]

/-- An id takes sixty-four bits. -/
theorem encoded_le (id : EntityId) : id.encoded ≤ (1 <<< 64) - 1 := by
  have shard := id.shard_lt
  have realm := id.realm_lt
  have num := id.num_lt
  rw [encoded_eq]
  omega

/-- A mask of ones takes the remainder, also of a negative number, whose bits go on with ones. -/
theorem land_mask (n : Int) (width : Nat) :
    n.land (2 ^ width - 1 : Nat) = n % (2 ^ width : Nat) := by
  cases n with
  | ofNat m =>
    show ((m &&& (2 ^ width - 1) : Nat) : Int) = _
    rw [Nat.and_two_pow_sub_one_eq_mod]
    rfl
  | negSucc m =>
    have below : m % 2 ^ width < 2 ^ width := Nat.mod_lt m (Nat.two_pow_pos width)
    have complement : Nat.ldiff (2 ^ width - 1) m = 2 ^ width - (m % 2 ^ width + 1) := by
      apply Nat.eq_of_testBit_eq
      intro i
      rw [Nat.testBit_ldiff, Nat.testBit_two_pow_sub_one, Nat.testBit_two_pow_sub_succ below,
        Nat.testBit_mod_two_pow]
      cases decide (i < width) <;> rfl
    show ((Nat.ldiff (2 ^ width - 1) m : Nat) : Int) = _
    rw [complement, Int.negSucc_emod m (by exact_mod_cast Nat.two_pow_pos width)]
    push_cast [Nat.cast_sub (Nat.succ_le_of_lt below)]
    ring

/-- The fields of a number are found by shifts and masks. -/
theorem ofEncoded_eq_masks (n : Int) :
    ofEncoded n =
      make (n >>> (54 : Nat)) ((n >>> (38 : Nat)).land (2 ^ 16 - 1 : Nat))
        (n.land (2 ^ 38 - 1 : Nat)) := by
  rw [land_mask, land_mask, Int.shiftRight_eq_div_pow, Int.shiftRight_eq_div_pow]
  rfl

/-! ## Ids and numbers -/

theorem ofEncoded_eq_quotients (n : Int) :
    ofEncoded n = make (n / 2 ^ 54) (n / 2 ^ 38 % 2 ^ 16) (n % 2 ^ 38) :=
  rfl

theorem ofEncoded_eq_ok_iff {n : Int} : ofEncoded n = .ok id ↔ (id.encoded : Int) = n := by
  have shard := id.shard_lt
  have realm := id.realm_lt
  have num := id.num_lt
  rw [ofEncoded_eq_quotients, make_eq_ok_iff, encoded_eq]
  omega

/-- Only the shard can be out of range, and it is where the number takes more than sixty-four
bits. -/
theorem isSome_make?_quotients_iff {n : Int} :
    (make? (n / 2 ^ 54) (n / 2 ^ 38 % 2 ^ 16) (n % 2 ^ 38)).isSome = true ↔
      0 ≤ n ∧ n < 2 ^ 64 := by
  rw [isSome_make?_iff]
  omega

/-- The fields below the shard are short, so a number without an id is refused with its fields
unless its shard is too long. -/
theorem ofEncoded_of_not_inRange {n : Int} (outside : ¬(0 ≤ n ∧ n < 2 ^ 64)) :
    ofEncoded n =
      if Numeral.isWritable (n / 2 ^ 54) then
        .error (.argument (.entityRange (n / 2 ^ 54) (n / 2 ^ 38 % 2 ^ 16) (n % 2 ^ 38)))
      else .error (.unreadable .writeLimit) := by
  have refused := mt isSome_make?_quotients_iff.mp outside
  have realm : Numeral.isWritable (n / 2 ^ 38 % 2 ^ 16) = true :=
    Numeral.isWritable_of_lt 5 (by decide) (by norm_num; omega)
  have num : Numeral.isWritable (n % 2 ^ 38) = true :=
    Numeral.isWritable_of_lt 12 (by decide) (by norm_num; omega)
  rw [Option.not_isSome_iff_eq_none] at refused
  rw [ofEncoded_eq_quotients, make_of_make?_eq_none refused, List.all_cons, List.all_cons,
    List.all_cons, List.all_nil, realm, num, Bool.and_true, Bool.and_true, Bool.and_true]

theorem ofEncoded_of_long_shard
    {shard : Int} (long : ¬(Value.int shard).IsShowable) :
    ofEncoded (shard * 2 ^ 54) = .error (.unreadable .writeLimit) := by
  have quotient : shard * 2 ^ 54 / 2 ^ 54 = shard := Int.mul_ediv_cancel shard (by decide)
  have unwritable : ¬Numeral.isWritable shard = true :=
    mt (Value.isWritable_iff (.int shard)).mp long
  have outside : ¬(0 ≤ shard * 2 ^ 54 ∧ shard * 2 ^ 54 < 2 ^ 64) := by
    intro inRange
    exact unwritable (Numeral.isWritable_of_lt 4 (by decide) (by norm_num; omega))
  rw [ofEncoded_of_not_inRange outside, quotient, if_neg unwritable]

/-- An encoded number belongs to one id only. -/
theorem encoded_injective : Function.Injective encoded := by
  intro a b same
  have read : ofEncoded a.encoded = .ok b := ofEncoded_eq_ok_iff.mpr (congrArg Nat.cast same.symm)
  exact Except.ok.inj ((ofEncoded_eq_ok_iff.mpr rfl).symm.trans read)

theorem encoded_eq_iff {a b : EntityId} :
    a.encoded = b.encoded ↔ a.shard = b.shard ∧ a.realm = b.realm ∧ a.num = b.num := by
  rw [encoded_injective.eq_iff, EntityId.mk.injEq]

/-- Ids are equal as values when their encoded numbers are. -/
theorem equal_iff_encoded {a b : EntityId} :
    Value.equal (.entity a) (.entity b) = true ↔ a.encoded = b.encoded := by
  rw [encoded_injective.eq_iff]
  simp [Value.equal, Value.spelling]

theorem encoded_lt_iff {a b : EntityId} :
    a.encoded < b.encoded ↔
      toLex (a.shard, toLex (a.realm, a.num)) < toLex (b.shard, toLex (b.realm, b.num)) := by
  have realms := And.intro a.realm_lt b.realm_lt
  have nums := And.intro a.num_lt b.num_lt
  rw [encoded_eq, encoded_eq, Prod.Lex.toLex_lt_toLex, Prod.Lex.toLex_lt_toLex]
  dsimp only
  omega

/--
Ids and the numbers of sixty-four bits correspond to each other.  The fields of
an id are joined by shifts, and those of any number are found by shifts and
masks.  An id is found again in its encoded number.  A number is that of an id
exactly when it takes no more than sixty-four bits, and otherwise it is refused
with its fields.  Ids are equal, also as values, exactly when their numbers are,
and so exactly when all fields are; and their numbers are ordered like the
fields, from the shard down to the number.  A shard of too many digits cannot be
named, and the number is then refused for that.
-/
theorem encoded_correspondence :
    (∀ id : EntityId, id.encoded = id.shard <<< 54 ||| id.realm <<< 38 ||| id.num) ∧
      (∀ n : Int, ofEncoded n =
        make (n >>> (54 : Nat)) ((n >>> (38 : Nat)).land (2 ^ 16 - 1 : Nat))
          (n.land (2 ^ 38 - 1 : Nat))) ∧
      (∀ id : EntityId, ofEncoded id.encoded = .ok id) ∧
      (∀ n : Int,
        (0 ≤ n ∧ n < 2 ^ 64) ∧ (∃ id, ofEncoded n = .ok id ∧ (id.encoded : Int) = n) ∨
          ¬(0 ≤ n ∧ n < 2 ^ 64) ∧ (n / 2 ^ 54).natAbs < Nat.pow 10 digitLimit ∧ ofEncoded n =
            .error (.argument (.entityRange (n / 2 ^ 54) (n / 2 ^ 38 % 2 ^ 16) (n % 2 ^ 38))) ∨
          ¬(0 ≤ n ∧ n < 2 ^ 64) ∧ Nat.pow 10 digitLimit ≤ (n / 2 ^ 54).natAbs ∧
            ofEncoded n = .error (.unreadable .writeLimit)) ∧
      ∀ a b : EntityId,
        (a = b ↔ a.encoded = b.encoded) ∧
          (Value.equal (.entity a) (.entity b) = true ↔ a.encoded = b.encoded) ∧
          (a.encoded = b.encoded ↔ a.shard = b.shard ∧ a.realm = b.realm ∧ a.num = b.num) ∧
          (a.encoded < b.encoded ↔
            toLex (a.shard, toLex (a.realm, a.num)) < toLex (b.shard, toLex (b.realm, b.num))) := by
  refine ⟨encoded_eq_or, ofEncoded_eq_masks, fun id => ofEncoded_eq_ok_iff.mpr rfl, ?_, ?_⟩
  · intro n
    by_cases inRange : 0 ≤ n ∧ n < 2 ^ 64
    · rcases Option.isSome_iff_exists.mp (isSome_make?_quotients_iff.mpr inRange) with ⟨id, made⟩
      have read : ofEncoded n = .ok id := make_eq_ok_iff.mpr (make?_eq_some_iff.mp made)
      exact Or.inl ⟨inRange, id, read, ofEncoded_eq_ok_iff.mp read⟩
    · have refused := ofEncoded_of_not_inRange inRange
      by_cases short : Numeral.isWritable (n / 2 ^ 54) = true
      · rw [if_pos short] at refused
        exact Or.inr (Or.inl ⟨inRange, Numeral.isWritable_iff.mp short, refused⟩)
      · rw [if_neg short] at refused
        exact Or.inr (Or.inr
          ⟨inRange, Nat.le_of_not_lt (mt Numeral.isWritable_iff.mpr short), refused⟩)
  · intro a b
    exact ⟨encoded_injective.eq_iff.symm, equal_iff_encoded, encoded_eq_iff, encoded_lt_iff⟩

/-- The number with nothing below the least shard that is too long: it is refused, but no argument
is blamed. -/
theorem ofEncoded_refuted :
    let n : Int := 10 ^ digitLimit * 2 ^ 54
    ¬(0 ≤ n ∧ n < 2 ^ 64) ∧ ofEncoded n = .error (.unreadable .writeLimit) ∧
      ¬∃ cause, ofEncoded n = .error (.argument cause) := by
  intro n
  have refused : ofEncoded n = .error (.unreadable .writeLimit) :=
    ofEncoded_of_long_shard Value.not_isShowable_pow
  refine ⟨?_, refused, ?_⟩
  · intro inRange
    rcases Option.isSome_iff_exists.mp (isSome_make?_quotients_iff.mpr inRange) with ⟨id, made⟩
    cases refused.symm.trans (make_eq_ok_iff.mpr (make?_eq_some_iff.mp made))
  · rintro ⟨cause, blamed⟩
    cases refused.symm.trans blamed

/-- The least numbers that have no id: one below zero, and one of sixty-five bits. -/
example :
    ofEncoded (-1) = .error (.argument (.entityRange (-1) 65535 274877906943)) ∧
      ofEncoded 18446744073709551616 = .error (.argument (.entityRange 1024 0 0)) := by
  decide +kernel

end LedgerQuery.EntityId
