import LedgerQuery.EntityId.Text
import LedgerQuery.Proofs.EntityId.Encoded
import LedgerQuery.Proofs.Numeral.Run
import LedgerQuery.Proofs.Outcome

/-!
# Texts of entity ids

A text spells an id when it is a run of digits, or three runs with points
between them, each of a limited length and with a number that fits its field;
one line feed may stand at the end.  The digits may belong to any script and may
begin with zeros.  The main statement is that the reader takes exactly these
texts, refuses all others in the same way, and reads back what is written.
-/

namespace LedgerQuery.EntityId

open Numeral (isRun value decimal signedDecimal)
open Text (line)

/-! ## Spelling -/

/-- A text spells an id; shard and realm come from the configuration where the text has none. -/
inductive Spells (config : Config) : List Char → EntityId → Prop where
  | number {num : List Char} {id : EntityId} (run : isRun 1 12 num = true)
      (shard_eq : (id.shard : Int) = config.shard) (realm_eq : (id.realm : Int) = config.realm)
      (num_eq : id.num = value num) :
      Spells config num id
  | full {shard realm num : List Char} {id : EntityId} (shardRun : isRun 1 4 shard = true)
      (realmRun : isRun 1 5 realm = true) (numRun : isRun 1 12 num = true)
      (shard_eq : id.shard = value shard) (realm_eq : id.realm = value realm)
      (num_eq : id.num = value num) :
      Spells config (['.'].intercalate [shard, realm, num]) id

theorem splitOn_number {num : List Char} (run : isRun 1 12 num = true) :
    num.splitOn '.' = [num] :=
  List.splitOn_eq_singleton (Numeral.notMem_of_isRun run (by decide))

theorem splitOn_full
    {shard realm num : List Char} (shardRun : isRun 1 4 shard = true)
    (realmRun : isRun 1 5 realm = true) (numRun : isRun 1 12 num = true) :
    (['.'].intercalate [shard, realm, num]).splitOn '.' = [shard, realm, num] := by
  apply List.splitOn_intercalate _ _ (List.cons_ne_nil _ _)
  rw [List.forall_mem_cons, List.forall_mem_cons, List.forall_mem_singleton]
  exact ⟨Numeral.notMem_of_isRun shardRun (by decide), Numeral.notMem_of_isRun realmRun (by decide),
    Numeral.notMem_of_isRun numRun (by decide)⟩

/-- A text has the components of a bare number or those that it gives itself. -/
theorem components?_cases
    {config : Config} {s : String} {shard realm num : Int}
    (read : components? config s = some (shard, realm, num)) :
    (isRun 1 12 (line s.toList) = true ∧ shard = config.shard ∧ realm = config.realm ∧
        num = value (line s.toList)) ∨
      ∃ shardDigits realmDigits numDigits,
        line s.toList = ['.'].intercalate [shardDigits, realmDigits, numDigits] ∧
        isRun 1 4 shardDigits = true ∧ isRun 1 5 realmDigits = true ∧
        isRun 1 12 numDigits = true ∧
        shard = value shardDigits ∧ realm = value realmDigits ∧ num = value numDigits := by
  have joined : ['.'].intercalate ((line s.toList).splitOn '.') = line s.toList :=
    List.intercalate_splitOn '.'
  rw [components?.eq_def] at read
  split at read
  · next digits pieces =>
    rw [pieces, List.intercalate_singleton] at joined
    split at read
    · next run =>
      cases read
      exact Or.inl ⟨joined ▸ run, rfl, rfl, joined ▸ rfl⟩
    · cases read
  · next shardDigits realmDigits numDigits pieces =>
    rw [pieces] at joined
    split at read
    · next runs =>
      simp only [Bool.and_eq_true] at runs
      cases read
      exact Or.inr ⟨_, _, _, joined.symm, runs.1.1, runs.1.2, runs.2, rfl, rfl, rfl⟩
    · cases read
  · cases read

/-- The reader finds an id exactly in the texts that spell it. -/
theorem ofText?_eq_some_iff {config : Config} {s : String} {id : EntityId} :
    ofText? config s = some id ↔ Spells config (line s.toList) id := by
  rw [ofText?, Option.bind_eq_some_iff]
  constructor
  · rintro ⟨⟨shard, realm, num⟩, read, made⟩
    rcases make?_eq_some_iff.mp made with ⟨shard_eq, realm_eq, num_eq⟩
    rcases components?_cases read with
      ⟨run, rfl, rfl, rfl⟩ | ⟨_, _, _, pieces, shardRun, realmRun, numRun, rfl, rfl, rfl⟩
    · exact .number run shard_eq realm_eq (Int.ofNat.inj num_eq)
    · rw [pieces]
      exact .full shardRun realmRun numRun (Int.ofNat.inj shard_eq) (Int.ofNat.inj realm_eq)
        (Int.ofNat.inj num_eq)
  · intro spelled
    refine ⟨(id.shard, id.realm, id.num), ?_, make?_eq_some_iff.mpr ⟨rfl, rfl, rfl⟩⟩
    rw [components?]
    generalize line s.toList = cs at spelled ⊢
    cases spelled with
    | number run shard_eq realm_eq num_eq =>
      rw [splitOn_number run]
      dsimp only
      rw [if_pos run, shard_eq, realm_eq, num_eq]
    | full shardRun realmRun numRun shard_eq realm_eq num_eq =>
      rw [splitOn_full shardRun realmRun numRun]
      dsimp only
      rw [shardRun, realmRun, numRun, shard_eq, realm_eq, num_eq]
      rfl

/-- Whether a text spells an id does not depend on the configuration, as long as its shard and realm
are in range. -/
theorem Spells.exists_of_inRange
    {known config : Config} (shard : 0 ≤ config.shard ∧ config.shard < 1024)
    (realm : 0 ≤ config.realm ∧ config.realm < 65536)
    {cs : List Char} {id : EntityId} (spelled : Spells known cs id) :
    ∃ id, Spells config cs id := by
  cases spelled with
  | number run _ _ num_eq =>
    have fits : (make? config.shard config.realm id.num).isSome = true := by
      have num := id.num_lt
      rw [isSome_make?_iff]
      omega
    rcases Option.isSome_iff_exists.mp fits with ⟨found, made⟩
    rcases make?_eq_some_iff.mp made with ⟨shard_eq, realm_eq, same⟩
    exact ⟨found, .number run shard_eq realm_eq ((Int.ofNat.inj same).trans num_eq)⟩
  | full shardRun realmRun numRun shard_eq realm_eq num_eq =>
    exact ⟨id, .full shardRun realmRun numRun shard_eq realm_eq num_eq⟩

/-! ## Written ids -/

theorem toList_text (id : EntityId) :
    id.text.toList = ['.'].intercalate [decimal id.shard, decimal id.realm, decimal id.num] := by
  simp [text, Numeral.write, List.intercalate]

/-- The text of an id spells it, whatever the configuration is. -/
theorem spells_text (config : Config) (id : EntityId) : Spells config (line id.text.toList) id := by
  have whole : line id.text.toList = id.text.toList := by
    have written : id.text.toList =
        (decimal id.shard ++ '.' :: decimal id.realm ++ ['.']) ++ decimal id.num := by
      simp [text, Numeral.write]
    rw [written, Numeral.line_append_decimal]
  have shard : id.shard < 1024 := id.shard_lt
  have realm : id.realm < 65536 := id.realm_lt
  have num : id.num < 274877906944 := id.num_lt
  rw [whole, toList_text]
  exact .full ((Numeral.isRun_decimal_iff (by decide)).mpr (by omega))
    ((Numeral.isRun_decimal_iff (by decide)).mpr (by omega))
    ((Numeral.isRun_decimal_iff (by decide)).mpr (by omega))
    (Numeral.value_decimal _).symm (Numeral.value_decimal _).symm (Numeral.value_decimal _).symm

/-- A written integer spells the ids of this number with the shard and realm of the
configuration. -/
theorem spells_writeInt_iff {config : Config} {num : Int} {id : EntityId} :
    Spells config (line (Numeral.writeInt num).toList) id ↔
      (id.shard : Int) = config.shard ∧ (id.realm : Int) = config.realm ∧ (id.num : Int) = num := by
  rw [Numeral.line_writeInt]
  constructor
  · intro spelled
    generalize written : signedDecimal num = cs at spelled
    cases spelled with
    | number run shard_eq realm_eq num_eq =>
      rw [← written] at run num_eq
      have nonneg := ((Numeral.isRun_signedDecimal_iff (by decide)).mp run).1
      rw [num_eq, Numeral.value_signedDecimal nonneg]
      exact ⟨shard_eq, realm_eq, rfl⟩
    | full =>
      -- There is no point in a written integer.
      have point : '.' ∈ signedDecimal num := by
        rw [written]
        simp [List.intercalate]
      exact absurd point (Numeral.notMem_signedDecimal (by decide) (by decide))
  · rintro ⟨shard_eq, realm_eq, rfl⟩
    have num : id.num < 274877906944 := id.num_lt
    refine .number ?_ shard_eq realm_eq (Numeral.value_decimal _).symm
    exact (Numeral.isRun_decimal_iff (by decide)).mpr (by omega)

/-! ## Reading -/

theorem parse_of_components?_eq_none
    {config : Config} {s : String} (unread : components? config s = none)
    (param : Option String) :
    parse config param (.text s) = .error (.invalidParameter (reportName param)) := by
  rw [parse, Value.written_text, ok_bind, unread]

theorem parse_of_components?_eq_some
    {config : Config} {s : String} {shard realm num : Int}
    (read : components? config s = some (shard, realm, num)) (param : Option String) :
    parse config param (.text s) = (make shard realm num).mapError (refusal param) := by
  rw [parse, Value.written_text, ok_bind, read]

theorem parse_eq_ok_iff {config : Config} {param : Option String} {s : String} {id : EntityId} :
    parse config param (.text s) = .ok id ↔ Spells config (line s.toList) id := by
  rw [← ofText?_eq_some_iff, ofText?]
  cases read : components? config s with
  | none =>
    rw [parse_of_components?_eq_none read]
    exact iff_of_false nofun nofun
  | some fields =>
    rw [parse_of_components?_eq_some read, mapError_eq_ok, make_eq_ok_iff, ← make?_eq_some_iff]
    rfl

/-- An id is read from the text of a value. -/
theorem parse_plain
    {v : Value} (showable : v.IsShowable) (config : Config) (param : Option String) :
    parse config param (.text v.plain) = parse config param v := by
  rw [parse, parse, Value.written_text, Value.written_of_isShowable showable]

theorem parse_of_not_isShowable
    {v : Value} (overlong : ¬v.IsShowable) (config : Config) (param : Option String) :
    parse config param v = .error (.unreadable .writeLimit) := by
  rw [parse, Value.written_of_not_isShowable overlong]
  rfl

theorem notMem_of_ofText?
    {config : Config} {s : String} {id : EntityId} (read : ofText? config s = some id)
    {c : Char} (noDigit : Text.isDigit c = false) (noPoint : c ≠ '.') (noFeed : c ≠ '\n') :
    c ∉ s.toList := by
  have spelled := ofText?_eq_some_iff.mp read
  have absent : c ∉ line s.toList := by
    generalize line s.toList = cs at spelled
    cases spelled with
    | number run => exact Numeral.notMem_of_isRun run noDigit
    | full shardRun realmRun numRun =>
      simp [List.intercalate, Numeral.notMem_of_isRun shardRun noDigit,
        Numeral.notMem_of_isRun realmRun noDigit, Numeral.notMem_of_isRun numRun noDigit, noPoint]
  rcases Text.eq_line_or s.toList with same | same
  · rwa [same]
  · rw [same]
    simp [absent, noFeed]

/-- A value whose text is an id can be written: a number has no more than twelve digits, and there
are no brackets and colons in the text. -/
theorem isShowable_of_ofText?
    {config : Config} {v : Value} {id : EntityId} (read : ofText? config v.plain = some id) :
    v.IsShowable := by
  cases kind : v.isInt with
  | true =>
    rcases Value.isInt_iff.mp kind with ⟨n, rfl⟩
    have num_eq := (spells_writeInt_iff.mp (ofText?_eq_some_iff.mp read)).2.2
    have num : id.num < 274877906944 := id.num_lt
    have short : n.natAbs < Nat.pow 10 12 := by norm_num; omega
    exact Value.isShowable_int_of_lt 12 (by decide) short
  | false =>
    rcases Value.parts_eq_nil_or_mem_plain kind with atom | ⟨c, mark, member⟩
    · exact Value.isShowable_of_parts_eq_nil kind atom
    · have others : ∀ c ∈ ['[', '(', '\x7b', ':'],
          Text.isDigit c = false ∧ c ≠ '.' ∧ c ≠ '\n' := by
        rw [List.forall_mem_cons, List.forall_mem_cons, List.forall_mem_cons,
          List.forall_mem_singleton]
        decide
      rcases others c mark with ⟨noDigit, noPoint, noFeed⟩
      exact absurd member (notMem_of_ofText? read noDigit noPoint noFeed)

/-- A bare number is completed with a shard or a realm of too many digits. -/
def IsOverlong (config : Config) (cs : List Char) : Prop :=
  isRun 1 12 cs = true ∧
    (Nat.pow 10 digitLimit ≤ config.shard.natAbs ∨ Nat.pow 10 digitLimit ≤ config.realm.natAbs)

/-- The number that a short run of digits spells can be written. -/
theorem isWritable_value
    {cs : List Char} {most : Nat} (few : most ≤ digitLimit) (run : isRun 1 most cs = true) :
    Numeral.isWritable (value cs) = true :=
  Numeral.isWritable_of_lt most few (Numeral.value_lt (Numeral.length_le_of_isRun run))

/-- The components of a text can be written unless they come from the configuration. -/
theorem all_isWritable_of_components?
    {config : Config} {s : String} {shard realm num : Int}
    (read : components? config s = some (shard, realm, num)) :
    [shard, realm, num].all Numeral.isWritable = true ↔ ¬IsOverlong config (line s.toList) := by
  rcases components?_cases read with
    ⟨run, rfl, rfl, rfl⟩ | ⟨_, _, _, pieces, shardRun, realmRun, numRun, rfl, rfl, rfl⟩
  · have num := isWritable_value (by decide) run
    simp only [IsOverlong, List.all_cons, List.all_nil, Bool.and_eq_true, num, run,
      Numeral.isWritable_iff, and_true, true_and, not_or, Nat.not_le]
  · have shard := isWritable_value (by decide) shardRun
    have realm := isWritable_value (by decide) realmRun
    have num := isWritable_value (by decide) numRun
    have point : '.' ∈ line s.toList := by
      rw [pieces]
      simp [List.intercalate]
    apply iff_of_true
    · rw [List.all_cons, List.all_cons, List.all_cons, List.all_nil, shard, realm, num]
      rfl
    · rintro ⟨run, -⟩
      exact Numeral.notMem_of_isRun run (by decide) point

/-- A text that spells no id is refused as an invalid parameter, unless it is a bare number
completed with one that is too long. -/
theorem parse_of_not_spells
    {config : Config} {s : String} (unread : ¬∃ id, Spells config (line s.toList) id)
    (short : ¬IsOverlong config (line s.toList)) (param : Option String) :
    parse config param (.text s) = .error (.invalidParameter (reportName param)) := by
  have nothing : ofText? config s = none := by
    rw [Option.eq_none_iff_forall_ne_some]
    intro id found
    exact unread ⟨id, ofText?_eq_some_iff.mp found⟩
  cases read : components? config s with
  | none => exact parse_of_components?_eq_none read param
  | some fields =>
    rw [ofText?, read, Option.bind_some] at nothing
    rw [parse_of_components?_eq_some read, make_of_make?_eq_none nothing,
      if_pos ((all_isWritable_of_components? read).mpr short)]
    rfl

theorem parse_of_isOverlong
    {config : Config} {s : String} (overlong : IsOverlong config (line s.toList))
    (param : Option String) :
    parse config param (.text s) = .error (.unreadable .writeLimit) := by
  have read : components? config s =
      some (config.shard, config.realm, (value (line s.toList) : Int)) := by
    rw [components?, splitOn_number overlong.1]
    exact if_pos overlong.1
  have unwritable := mt (all_isWritable_of_components? read).mp (not_not.mpr overlong)
  have nothing := mt all_isWritable_of_isSome_make? unwritable
  rw [Option.not_isSome_iff_eq_none] at nothing
  rw [parse_of_components?_eq_some read, make_of_make?_eq_none nothing, if_neg unwritable]
  rfl

/--
Reading undoes writing, under every configuration and for every parameter.  The
text of an id is read as the id.  A written integer is read as the id of this
number with the shard and realm of the configuration exactly when these three
are in range.  A text that spells an id is read as this id, whose own text is
read as the same under the standard configuration; a text that spells none is
refused as an invalid parameter.  Only the fault of a bare number that would be
completed with a shard or realm of too many digits is another one.
-/
theorem parse_roundTrip (config : Config) (param : Option String) :
    (∀ id : EntityId, parse config param (.text id.text) = .ok id) ∧
      (∀ num : Int,
        (∃ id, parse config param (.text (Numeral.writeInt num)) = .ok id ∧
            (id.shard : Int) = config.shard ∧ (id.realm : Int) = config.realm ∧
            (id.num : Int) = num) ↔
          (0 ≤ config.shard ∧ config.shard ≤ 1023) ∧ (0 ≤ config.realm ∧ config.realm ≤ 65535) ∧
            (0 ≤ num ∧ num ≤ 2 ^ 38 - 1)) ∧
      ∀ s : String,
        (∃ id, Spells config (line s.toList) id ∧ parse config param (.text s) = .ok id ∧
            parse .standard none (.text id.text) = .ok id) ∨
          (¬∃ id, Spells config (line s.toList) id) ∧ ¬IsOverlong config (line s.toList) ∧
            parse config param (.text s) = .error (.invalidParameter (reportName param)) ∨
          (¬∃ id, Spells config (line s.toList) id) ∧ IsOverlong config (line s.toList) ∧
            parse config param (.text s) = .error (.unreadable .writeLimit) := by
  refine ⟨?_, ?_, ?_⟩
  · intro id
    exact parse_eq_ok_iff.mpr (spells_text config id)
  · intro num
    constructor
    · rintro ⟨id, -, shard_eq, realm_eq, num_eq⟩
      have shard := id.shard_lt
      have realm := id.realm_lt
      have num := id.num_lt
      omega
    · intro inRange
      have fits : (make? config.shard config.realm num).isSome = true := by
        rw [isSome_make?_iff]
        omega
      rcases Option.isSome_iff_exists.mp fits with ⟨id, made⟩
      have fields := make?_eq_some_iff.mp made
      exact ⟨id, parse_eq_ok_iff.mpr (spells_writeInt_iff.mpr fields), fields⟩
  · intro s
    by_cases spelled : ∃ id, Spells config (line s.toList) id
    · rcases spelled with ⟨id, spelled⟩
      exact Or.inl ⟨id, spelled, parse_eq_ok_iff.mpr spelled,
        parse_eq_ok_iff.mpr (spells_text .standard id)⟩
    · by_cases overlong : IsOverlong config (line s.toList)
      · exact Or.inr (Or.inr ⟨spelled, overlong, parse_of_isOverlong overlong param⟩)
      · exact Or.inr (Or.inl ⟨spelled, overlong, parse_of_not_spells spelled overlong param⟩)

/-- A bare number under a configuration whose shard is the least number of too many digits. -/
theorem parse_refuted :
    let config : Config := { shard := 10 ^ digitLimit }
    parse config none (.text "5") = .error (.unreadable .writeLimit) ∧
      (¬∃ id, parse config none (.text "5") = .ok id) ∧
      ¬∃ cause, parse config none (.text "5") = .error (.argument cause) := by
  intro config
  have long : Nat.pow 10 digitLimit ≤ config.shard.natAbs :=
    Nat.le_of_not_lt (mt Value.isShowable_int_iff.mpr Value.not_isShowable_pow)
  have overlong : IsOverlong config (line "5".toList) := ⟨by decide, Or.inl long⟩
  rw [parse_of_isOverlong overlong]
  exact ⟨rfl, nofun, nofun⟩

/-- Zeros in front, digits of another script and a line feed at the end. -/
example :
    ofText? .standard "0000.00001.٣٤\n" = some ⟨0, 1, 34, by decide, by decide, by decide⟩ := by
  decide +kernel

end LedgerQuery.EntityId
