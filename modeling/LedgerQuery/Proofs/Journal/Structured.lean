import LedgerQuery.Journal.Record
import LedgerQuery.Proofs.Json.Printable

/-!
# Records as JSON

The JSON form of a record is one line, which is read back as one object.  No name
stands in it twice.  Under each name it says what the fields of the record say,
and what the record says of itself where no field has the name; an exception comes
over both.
-/

namespace LedgerQuery

namespace Record

/-! ## Setting members -/

section Members

variable {members fields : List (String × Value)} {name : String} {v : Value}

theorem lookup_cons (entry : String × Value) (rest : List (String × Value)) (name : String) :
    (entry :: rest).lookup name = if name = entry.1 then some entry.2 else rest.lookup name := by
  rw [List.lookup_cons]
  by_cases same : name = entry.1
  · rw [if_pos same, beq_iff_eq.mpr same]
  · rw [if_neg same, beq_eq_false_iff_ne.mpr same]

theorem lookup_eq_none_of_notMem (absent : name ∉ members.map Prod.fst) :
    members.lookup name = none := by
  induction members with
  | nil => rfl
  | cons entry rest ih =>
    rw [List.map_cons, List.mem_cons, not_or] at absent
    rw [lookup_cons, if_neg absent.1, ih absent.2]

/-- Only the name that is set has another value. -/
theorem lookup_setMember (members : List (String × Value)) (name other : String) (v : Value) :
    (setMember members name v).lookup other =
      if other = name then some v else members.lookup other := by
  induction members with
  | nil => exact lookup_cons (name, v) [] other
  | cons entry rest ih =>
    rw [setMember]
    by_cases set : entry.1 = name
    · rw [if_pos set, lookup_cons, lookup_cons, set]
      split <;> rfl
    · rw [if_neg set, lookup_cons, ih, lookup_cons]
      by_cases first : other = entry.1
      · rw [if_pos first, if_pos first, if_neg (first ▸ set)]
      · rw [if_neg first, if_neg first]

/-- A name that is new comes last, and no other name moves. -/
theorem keys_setMember (members : List (String × Value)) (name : String) (v : Value) :
    (setMember members name v).map Prod.fst =
      if name ∈ members.map Prod.fst then members.map Prod.fst
      else members.map Prod.fst ++ [name] := by
  induction members with
  | nil => rfl
  | cons entry rest ih =>
    rw [setMember]
    by_cases set : entry.1 = name
    · simp [set]
    · have known : name ∈ (entry :: rest).map Prod.fst ↔ name ∈ rest.map Prod.fst := by
        rw [List.map_cons, List.mem_cons, or_iff_right (Ne.symm set)]
      rw [if_neg set, List.map_cons, ih]
      simp only [known]
      split <;> rfl

theorem nodup_keys_setMember (distinct : (members.map Prod.fst).Nodup) :
    ((setMember members name v).map Prod.fst).Nodup := by
  rw [keys_setMember]
  split
  · exact distinct
  · next new =>
    rw [← List.concat_eq_append]
    exact distinct.concat new

theorem forall_mem_setMember
    {p : Value → Prop} (each : ∀ entry ∈ members, p entry.2) (set : p v) :
    ∀ entry ∈ setMember members name v, p entry.2 := by
  induction members with
  | nil => exact List.forall_mem_singleton.mpr set
  | cons entry rest ih =>
    obtain ⟨first, others⟩ := List.forall_mem_cons.mp each
    rw [setMember]
    split
    · exact List.forall_mem_cons.mpr ⟨set, others⟩
    · exact List.forall_mem_cons.mpr ⟨first, ih others⟩

theorem setMembers_cons (entry : String × Value) :
    setMembers members (entry :: fields) =
      setMembers (setMember members entry.1 entry.2) fields := rfl

/-- Fields with different names come over the members. -/
theorem lookup_setMembers (distinct : (fields.map Prod.fst).Nodup) (name : String) :
    (setMembers members fields).lookup name = (fields.lookup name).or (members.lookup name) := by
  induction fields generalizing members with
  | nil => rfl
  | cons entry fields ih =>
    obtain ⟨new, distinct⟩ := List.nodup_cons.mp distinct
    rw [setMembers_cons, ih distinct, lookup_setMember, lookup_cons]
    by_cases same : name = entry.1
    · rw [if_pos same, if_pos same, same, lookup_eq_none_of_notMem new]
      rfl
    · rw [if_neg same, if_neg same]

theorem nodup_keys_setMembers (distinct : (members.map Prod.fst).Nodup) :
    ((setMembers members fields).map Prod.fst).Nodup := by
  induction fields generalizing members with
  | nil => exact distinct
  | cons entry fields ih => exact ih (nodup_keys_setMember distinct)

theorem forall_mem_setMembers
    {p : Value → Prop} (each : ∀ entry ∈ members, p entry.2) (set : ∀ entry ∈ fields, p entry.2) :
    ∀ entry ∈ setMembers members fields, p entry.2 := by
  induction fields generalizing members with
  | nil => exact each
  | cons entry fields ih =>
    obtain ⟨first, others⟩ := List.forall_mem_cons.mp set
    exact ih (forall_mem_setMember each first) others

end Members

/-! ## What a record says -/

/-- What a record says of itself under a name; the id of the request is one that is not empty. -/
def own (current : Option String) (message : String) (r : Record) : String → Option Value
  | "timestamp" => some (.text r.time)
  | "level" => some (.text r.level)
  | "logger" => some (.text r.logger)
  | "message" => some (.text message)
  | "function" => some r.function
  | "line" => some r.line
  | "request_id" => (current.filter fun id => id ≠ "").map .text
  | _ => none

/-- What a record says under a name: what its fields say comes over what it says of itself, and an
exception over both. -/
def told (current : Option String) (message : String) (r : Record) (name : String) : Option Value :=
  let said := (r.fields.lookup name).or (r.own current message name)
  match r.exception with
  | some e => if name = "exception" then some (.text e) else said
  | none => said

theorem present_eq_filter (s : Option String) : present s = s.filter fun id => id ≠ "" := by
  rw [present.eq_def]
  split
  · rfl
  · next filled =>
    cases s with
    | none => rfl
    | some id =>
      have notEmpty : id ≠ "" := fun empty => filled (congrArg some empty)
      rw [Option.filter_some, if_pos (decide_eq_true notEmpty)]

section Base

variable (current : Option String) (message : String) (r : Record)

theorem keys_baseMembers :
    (r.baseMembers current message).map Prod.fst =
      ["timestamp", "level", "logger", "message", "function", "line"] ++
        ((present current).map fun _ => "request_id").toList := by
  rw [baseMembers]
  cases present current <;> rfl

theorem nodup_keys_baseMembers : ((r.baseMembers current message).map Prod.fst).Nodup := by
  rw [keys_baseMembers]
  cases present current with
  | none => decide
  | some id => exact (by decide : ["timestamp", "level", "logger", "message", "function", "line",
      "request_id"].Nodup)

theorem lookup_baseMembers (name : String) :
    (r.baseMembers current message).lookup name = r.own current message name := by
  rw [own.eq_def]
  split
  case h_7 =>
    rw [← present_eq_filter, baseMembers]
    cases present current <;> rfl
  case h_8 timestamp level logger messageName function line request =>
    apply lookup_eq_none_of_notMem
    intro member
    rw [keys_baseMembers] at member
    cases present current <;>
      simp_all
  all_goals rfl

theorem isExact_text (s : String) : (Value.text s).IsExact :=
  .intro nofun nofun

theorem isExact_baseMembers (function : r.function.IsExact) (line : r.line.IsExact) :
    ∀ entry ∈ r.baseMembers current message, entry.2.IsExact := by
  have request : ∀ entry ∈ ((present current).map fun id => ("request_id", Value.text id)).toList,
      entry.2.IsExact := by
    intro entry member
    obtain ⟨id, -, rfl⟩ := Option.map_eq_some_iff.mp (Option.mem_toList.mp member)
    exact isExact_text id
  simp only [baseMembers, List.forall_mem_append, List.forall_mem_cons]
  exact ⟨⟨isExact_text _, isExact_text _, isExact_text _, isExact_text _, function, line,
    List.forall_mem_nil _⟩, request⟩

end Base

theorem lookup_content (members : List (String × Value)) (name : String) :
    (members.map Json.contentMember).lookup name =
      (members.lookup name).map Json.content := by
  induction members with
  | nil => rfl
  | cons entry rest ih =>
    rw [List.map_cons, lookup_cons, lookup_cons, ih, Json.contentMember]
    split <;> rfl

/-! ## The members of a record -/

section Whole

variable {current : Option String} {message : String} {r : Record}
  {members : List (String × Value)}

/-- A message without arguments stands as it is, whatever is in it. -/
theorem text_eq_of_args_eq_nil (plain : r.args = []) : r.text = .ok r.message := by
  rw [Record.text, plain]
  rfl

theorem members_eq (filled : r.text = .ok message) :
    r.members current = .ok
      (match r.exception with
        | some e =>
          setMember (setMembers (r.baseMembers current message) r.fields) "exception" (.text e)
        | none => setMembers (r.baseMembers current message) r.fields) := by
  rw [Record.members, filled]
  rfl

theorem exists_members
    (filled : r.text = .ok message) (distinct : (r.fields.map Prod.fst).Nodup)
    (fields : ∀ entry ∈ r.fields, entry.2.IsExact) (function : r.function.IsExact)
    (line : r.line.IsExact) (current : Option String) :
    ∃ members, r.members current = .ok members ∧ (members.map Prod.fst).Nodup ∧
      (∀ entry ∈ members, entry.2.IsExact) ∧
      ∀ name, members.lookup name = r.told current message name := by
  have exact := forall_mem_setMembers (isExact_baseMembers current message r function line) fields
  have once : ((setMembers (r.baseMembers current message) r.fields).map Prod.fst).Nodup :=
    nodup_keys_setMembers (nodup_keys_baseMembers current message r)
  have said (name : String) :
      (setMembers (r.baseMembers current message) r.fields).lookup name =
        (r.fields.lookup name).or (r.own current message name) := by
    rw [lookup_setMembers distinct, lookup_baseMembers]
  rw [members_eq filled]
  cases raised : r.exception with
  | none =>
    refine ⟨_, rfl, once, exact, fun name => ?_⟩
    simp only [told, raised, said]
  | some e =>
    refine ⟨_, rfl, nodup_keys_setMember once, forall_mem_setMember exact (isExact_text e),
      fun name => ?_⟩
    simp only [told, raised, lookup_setMember, said]

/--
The JSON form of a record whose message can be filled in is one line without
control characters.  It is read back as one object, in which no name stands
twice and which says under every name what the record says under it: the members
that every record has, with the id of the request where that is not empty, come
under the fields, and these under an exception.  Nothing, truth values, whole
numbers and texts are read as they are.  What is more, the fields can hold any
values but finite floating point numbers.
-/
theorem json_wellFormed
    (filled : r.text = .ok message) (distinct : (r.fields.map Prod.fst).Nodup)
    (fields : ∀ entry ∈ r.fields, entry.2.IsExact) (function : r.function.IsExact)
    (line : r.line.IsExact) (current : Option String) :
    ∃ written, r.json current = .ok written ∧ (∀ c ∈ written.toList, 0x20 ≤ c.toNat) ∧
      ∃ members, Json.read? written = some (.map members) ∧ (members.map Prod.fst).Nodup ∧
        ∀ name, members.lookup name = (r.told current message name).map Json.content := by
  obtain ⟨members, made, once, exact, said⟩ :=
    exists_members filled distinct fields function line current
  have whole : (Value.map members).IsExact := .intro nofun (List.forall_mem_map.mpr exact)
  refine ⟨Json.text (.map members), by rw [json, made]; rfl, ?_,
    members.map Json.contentMember, ?_, ?_, ?_⟩
  · rw [Json.text, String.toList_ofList]
    exact Json.isPrintable_write whole
  · rw [Json.read?_text whole, Json.content, Json.contentMembers_eq]
  · rw [List.map_map]
    exact once
  · intro name
    rw [lookup_content, said]

end Whole

/-- A message that looks like the end of a record and the beginning of another one, and fields with
the names of other members, the id of a request among them. -/
theorem json_wellFormed_forged :
    let message := "dropped\"\x7d\n\x7b\"level\":\"INFO\x01"
    let r : Record := {
      logger := "mirrorql.\\core", level := "DEBUG", message := message, line := .int 10,
      fields := [("level", .text "\r\n"), ("bound", .int (-9223372036854775809)), ("key", .null),
        ("request_id", .bool true), ("operator", .operator .gt)] }
    r.text = .ok message ∧ (r.fields.map Prod.fst).Nodup ∧
      (∀ entry ∈ r.fields, entry.2.IsExact) ∧ r.function.IsExact ∧ r.line.IsExact ∧
      ∃ written, r.json (some "") = .ok written ∧ (∀ c ∈ written.toList, 0x20 ≤ c.toNat) ∧
        ∃ members, Json.read? written = some (.map members) ∧ (members.map Prod.fst).Nodup ∧
          members.lookup "message" = some (.text message) ∧
          members.lookup "level" = some (.text "\r\n") ∧
          members.lookup "request_id" = some (.bool true) ∧
          members.lookup "operator" = some (.text "gt") ∧
          members.lookup "exception" = none := by
  intro message r
  have distinct : (r.fields.map Prod.fst).Nodup := by decide
  have fields : ∀ entry ∈ r.fields, entry.2.IsExact := by
    simp only [r, List.forall_mem_cons]
    exact ⟨.intro nofun nofun, .intro nofun nofun, .intro nofun nofun, .intro nofun nofun,
      .intro nofun nofun, List.forall_mem_nil _⟩
  have function : r.function.IsExact := .intro nofun nofun
  have line : r.line.IsExact := .intro nofun nofun
  have filled : r.text = .ok message := text_eq_of_args_eq_nil rfl
  obtain ⟨written, made, oneLine, members, read, once, told⟩ :=
    json_wellFormed filled distinct fields function line (some "")
  refine ⟨filled, distinct, fields, function, line, written, made, oneLine, members, read, once, ?_⟩
  simp only [told]
  exact ⟨rfl, rfl, rfl, rfl, rfl⟩

end Record

end LedgerQuery
