import LedgerQuery.Proofs.Clause.Balance
import LedgerQuery.Proofs.Distinct
import LedgerQuery.Proofs.Search
import LedgerQuery.Proofs.Value.Parts

/-!
# Retained criteria

The criteria of a parameter are taken one after the other: a criterion may be
refused, its value may be dropped, or it is bound in another form and joins the
criteria retained before unless it is among them.  What holds of one such step
is said once; from it follow what is retained where every criterion is bound,
and where a fault of the compiler comes from.
-/

namespace LedgerQuery

theorem criteria_texts (tokens : List String) :
    criteria (.list (tokens.map .text)) =
      .ok (tokens.map fun s => ((Token.parse s).operator, .text (Token.parse s).value)) := by
  have read : ∀ v ∈ tokens.map Value.text, Criterion.read v = .ok (.ofElement v) :=
    List.forall_mem_map.mpr fun _ _ => rfl
  show (tokens.map Value.text).mapM Criterion.read = _
  rw [mapM_of_forall_ok read, List.map_map]
  rfl

theorem mistyped_of_givenValues
    {raw : Value} {fault : Fault} (failed : givenValues raw = .error fault) :
    fault = .mistyped := by
  cases raw <;> cases failed
  all_goals rfl

theorem Criterion.fault_of_read
    {v : Value} {fault : Fault} (failed : read v = .error fault) :
    fault = .unreadable .writeLimit := by
  rw [read.eq_def] at failed
  split at failed
  · cases failed
  · exact (Value.ifWritable_eq_error_iff.mp failed).2

/-- A query value without criteria is one that does not hold several values, or holds one that
cannot be written. -/
theorem fault_of_criteria
    {raw : Value} {fault : Fault} (failed : criteria raw = .error fault) :
    fault = .mistyped ∨ fault = .unreadable .writeLimit := by
  rw [criteria] at failed
  cases held : givenValues raw with
  | error other =>
    rw [held] at failed
    cases failed
    exact Or.inl (mistyped_of_givenValues held)
  | ok items =>
    rw [held, ok_bind] at failed
    rcases mapM_eq_error_iff.mp failed with ⟨_, v, _, -, unread, -⟩
    exact Or.inr (Criterion.fault_of_read unread)

/-- The rule accepts a criterion and binds its value in another form. -/
structure ClauseRule.Binds (rule : ClauseRule) (c bound : Criterion) : Prop where
  allowed : rule.allows c.1 = true
  operator : bound.1 = c.1
  encoded : encodeWith rule.encoder c.2 = .ok bound.2
  retained : bound.2 ≠ .null
  isKey : bound.2.isKey = true

section Retain

variable {rule : ClauseRule}

/-! ## One criterion -/

/-- An accepted criterion is encoded; unless its value is dropped, it joins the retained ones. -/
theorem retain_cons_of_allowed
    {c : Criterion} (allowed : rule.allows c.1 = true) (seen rest : List Criterion) :
    (retain rule seen (c :: rest)).result =
      Criterion.encoded rule.encoder c >>= fun key =>
        (retain rule (if key.2.isNull then seen else addNew seen key) rest).result := by
  rw [retain, if_pos allowed, Traced.result_bind, Traced.result_lift, Criterion.encoded]
  cases encodeWith rule.encoder c.2 with
  | error fault => rfl
  | ok v =>
    rw [ok_bind, ok_bind]
    split
    · rfl
    · next present =>
      have kept : ¬v.isNull = true := fun missing => present (Value.isNull_iff.mp missing)
      rw [Traced.result_bind, Traced.result_lift, Criterion.checked]
      split
      · rw [ok_bind, ok_bind, if_neg kept]
      · rfl

theorem retain_cons_of_binds
    {c bound : Criterion} (binds : rule.Binds c bound) (seen rest : List Criterion) :
    (retain rule seen (c :: rest)).result = (retain rule (addNew seen bound) rest).result := by
  have encoded : Criterion.encoded rule.encoder c = .ok bound := by
    rw [Criterion.encoded, binds.encoded, ← binds.operator]
    exact if_pos binds.isKey
  have present : ¬bound.2.isNull = true :=
    fun missing => binds.retained (Value.isNull_iff.mp missing)
  rw [retain_cons_of_allowed binds.allowed, encoded, ok_bind, if_neg present]

theorem retain_cons_of_dropped
    {c : Criterion} (allowed : rule.allows c.1 = true)
    (encoded : encodeWith rule.encoder c.2 = .ok .null) (seen rest : List Criterion) :
    (retain rule seen (c :: rest)).result = (retain rule seen rest).result := by
  rw [retain_cons_of_allowed allowed, Criterion.encoded, encoded]
  rfl

theorem ClauseRule.fault_of_reportName
    {c : Criterion} {fault : Fault} (failed : rule.reportName c = .error fault) :
    fault = .unreadable .writeLimit := by
  rw [reportName] at failed
  split at failed
  · exact (Value.ifWritable_eq_error_iff.mp failed).2
  · exact (Value.ifWritable_eq_error_iff.mp failed).2
  · cases failed

/-- A refused criterion is reported by name, or cannot be written. -/
theorem exists_retain_cons_of_not_allowed
    {c : Criterion} (refused : ¬rule.allows c.1 = true) (seen rest : List Criterion) :
    ∃ fault, (retain rule seen (c :: rest)).result = .error fault ∧
      ∀ cause, fault ≠ .clause cause := by
  have result : (retain rule seen (c :: rest)).result =
      rule.reportName c >>= fun name => .error (.invalidParameter name) := by
    rw [retain, if_neg refused, Traced.result_bind, Traced.result_report, ok_bind,
      Traced.result_bind, Traced.result_lift]
    rfl
  rw [result]
  cases named : rule.reportName c with
  | error fault =>
    cases rule.fault_of_reportName named
    exact ⟨_, rfl, fun _ same => by cases same⟩
  | ok name => exact ⟨_, rfl, fun _ same => by cases same⟩

/-- The value of a criterion cannot be encoded, or the criterion fails otherwise, is dropped or is
bound. -/
theorem retain_cons_cases (rule : ClauseRule) (seen : List Criterion) (c : Criterion)
    (rest : List Criterion) :
    (∃ fault, encodeWith rule.encoder c.2 = .error fault ∧
        (retain rule seen (c :: rest)).result = .error fault) ∨
      (∃ fault, (retain rule seen (c :: rest)).result = .error fault ∧
        ∀ cause, fault ≠ .clause cause) ∨
      (retain rule seen (c :: rest)).result = (retain rule seen rest).result ∨
      ∃ bound, rule.Binds c bound := by
  by_cases allowed : rule.allows c.1 = true
  · cases encoded : encodeWith rule.encoder c.2 with
    | error fault =>
      refine Or.inl ⟨fault, rfl, ?_⟩
      rw [retain_cons_of_allowed allowed, Criterion.encoded, encoded]
      rfl
    | ok v =>
      by_cases missing : v = .null
      · rw [missing] at encoded
        exact Or.inr (Or.inr (Or.inl (retain_cons_of_dropped allowed encoded seen rest)))
      cases isKey : v.isKey with
      | true =>
        refine Or.inr (Or.inr (Or.inr ⟨(c.1, v), ?_⟩))
        exact ⟨allowed, rfl, encoded, missing, isKey⟩
      | false =>
        have refused : Criterion.checked (c.1, v) = .error .mistyped :=
          if_neg (Bool.eq_false_iff.mp isKey)
        refine Or.inr (Or.inl ⟨.mistyped, ?_, nofun⟩)
        rw [retain_cons_of_allowed allowed, Criterion.encoded, encoded, ok_bind, refused]
        rfl
  · exact Or.inr (Or.inl (exists_retain_cons_of_not_allowed allowed seen rest))

theorem mem_addNew {seen : List Criterion} {bound c : Criterion} (member : c ∈ addNew seen bound) :
    c ∈ seen ∨ c = bound := by
  rw [addNew] at member
  split at member
  · exact Or.inl member
  · exact (List.mem_append.mp member).imp_right List.mem_singleton.mp

theorem exists_mem_addNew (seen : List Criterion) (bound : Criterion) :
    ∃ r ∈ addNew seen bound, r = bound ∨ r.same bound = true := by
  rw [addNew]
  split
  · next repeated =>
    rcases List.any_eq_true.mp repeated with ⟨r, member, same⟩
    exact ⟨r, member, Or.inr same⟩
  · exact ⟨bound, List.mem_append_right seen List.mem_cons_self, Or.inl rfl⟩

theorem mem_addNew_of_mem {seen : List Criterion} {r : Criterion} (member : r ∈ seen)
    (bound : Criterion) : r ∈ addNew seen bound := by
  rw [addNew]
  split
  · exact member
  · exact List.mem_append_left [bound] member

/-- What one criterion leaves to retain is retained after it, on top of all that was there. -/
theorem exists_wider_of_retain_cons
    {seen found retained : List Criterion} {c : Criterion}
    (kept : (retain rule seen (c :: found)).result = .ok retained) :
    ∃ wider, (∀ r ∈ seen, r ∈ wider) ∧ (retain rule wider found).result = .ok retained := by
  rcases retain_cons_cases rule seen c found with
    ⟨_, -, failed⟩ | ⟨_, failed, -⟩ | dropped | ⟨bound, binds⟩
  · rw [failed] at kept
    cases kept
  · rw [failed] at kept
    cases kept
  · rw [dropped] at kept
    exact ⟨seen, fun _ => id, kept⟩
  · rw [retain_cons_of_binds binds] at kept
    exact ⟨addNew seen bound, fun _ member => mem_addNew_of_mem member bound, kept⟩

/-! ## All criteria -/

/-- Every retained criterion was retained before or is bound to one of the criteria. -/
theorem binds_of_mem_retain
    {seen found retained : List Criterion} (kept : (retain rule seen found).result = .ok retained)
    {bound : Criterion} (member : bound ∈ retained) :
    bound ∈ seen ∨ ∃ c ∈ found, rule.Binds c bound := by
  induction found generalizing seen with
  | nil =>
    cases kept
    exact Or.inl member
  | cons c found ih =>
    have later : (∃ d ∈ found, rule.Binds d bound) → ∃ d ∈ c :: found, rule.Binds d bound := by
      rintro ⟨d, inside, binds⟩
      exact ⟨d, List.mem_cons_of_mem c inside, binds⟩
    rcases retain_cons_cases rule seen c found with
      ⟨_, -, failed⟩ | ⟨_, failed, -⟩ | dropped | ⟨first, binds⟩
    · rw [failed] at kept
      cases kept
    · rw [failed] at kept
      cases kept
    · rw [dropped] at kept
      exact (ih kept).imp_right later
    · rw [retain_cons_of_binds binds] at kept
      rcases ih kept with inSeen | bindsLater
      · rcases mem_addNew inSeen with inSeen | rfl
        · exact Or.inl inSeen
        · exact Or.inr ⟨c, List.mem_cons_self, binds⟩
      · exact Or.inr (later bindsLater)

theorem mem_retain_of_mem
    {seen found retained : List Criterion} (kept : (retain rule seen found).result = .ok retained)
    {r : Criterion} (member : r ∈ seen) :
    r ∈ retained := by
  induction found generalizing seen with
  | nil =>
    cases kept
    exact member
  | cons c found ih =>
    rcases exists_wider_of_retain_cons kept with ⟨wider, subset, kept⟩
    exact ih kept (subset r member)

/-- What a criterion is bound to is retained, or something is that asks for the same. -/
theorem exists_mem_retain_of_binds
    {seen found retained : List Criterion} (kept : (retain rule seen found).result = .ok retained)
    {c bound : Criterion} (member : c ∈ found) (binds : rule.Binds c bound) :
    ∃ r ∈ retained, r = bound ∨ r.same bound = true := by
  induction found generalizing seen with
  | nil => cases member
  | cons first found ih =>
    rcases List.mem_cons.mp member with rfl | later
    · rw [retain_cons_of_binds binds] at kept
      rcases exists_mem_addNew seen bound with ⟨r, inside, same⟩
      exact ⟨r, mem_retain_of_mem kept inside, same⟩
    · rcases exists_wider_of_retain_cons kept with ⟨wider, -, kept⟩
      exact ih kept later

/-- Where every criterion is accepted and has a bound form that can serve as a key, what is retained
is a list of criteria. -/
theorem exists_retain
    {found : List Criterion}
    (bound : ∀ c ∈ found, rule.allows c.1 = true ∧
      ∃ v, encodeWith rule.encoder c.2 = .ok v ∧ v.isKey = true)
    (seen : List Criterion) :
    ∃ retained, (retain rule seen found).result = .ok retained := by
  induction found generalizing seen with
  | nil => exact ⟨seen, rfl⟩
  | cons c found ih =>
    rw [List.forall_mem_cons] at bound
    rcases bound with ⟨⟨allowed, v, encoded, isKey⟩, others⟩
    by_cases missing : v = .null
    · rw [missing] at encoded
      rw [retain_cons_of_dropped allowed encoded]
      exact ih others seen
    · have binds : rule.Binds c (c.1, v) := ⟨allowed, rfl, encoded, missing, isKey⟩
      rw [retain_cons_of_binds binds]
      exact ih others (addNew seen (c.1, v))

/-- A fault of the compiler in a conversion of a criterion is one of the encoder. -/
theorem encode_of_retain_clause
    {seen found : List Criterion} {fault : ClauseFault}
    (failed : (retain rule seen found).result = .error (.clause fault)) :
    ∃ c ∈ found, encodeWith rule.encoder c.2 = .error (.clause fault) := by
  induction found generalizing seen with
  | nil => cases failed
  | cons c found ih =>
    have later : (∃ d ∈ found, encodeWith rule.encoder d.2 = .error (.clause fault)) →
        ∃ d ∈ c :: found, encodeWith rule.encoder d.2 = .error (.clause fault) := by
      rintro ⟨d, inside, raised⟩
      exact ⟨d, List.mem_cons_of_mem c inside, raised⟩
    rcases retain_cons_cases rule seen c found with
      ⟨_, raised, same⟩ | ⟨_, same, otherwise⟩ | dropped | ⟨first, binds⟩
    · rw [same] at failed
      cases failed
      exact ⟨c, List.mem_cons_self, raised⟩
    · rw [same] at failed
      cases failed
      exact absurd rfl (otherwise fault)
    · rw [dropped] at failed
      exact later (ih failed)
    · rw [retain_cons_of_binds binds] at failed
      exact later (ih failed)

/-- Where every criterion is bound, nothing is dropped but repetitions. -/
theorem result_retain
    {found bounds : List Criterion}
    (binds : List.Forall₂ rule.Binds found bounds) (seen : List Criterion) :
    (retain rule seen found).result = .ok (bounds.foldl addNew seen) := by
  induction binds generalizing seen with
  | nil => rfl
  | @cons c bound found bounds first _ ih =>
    rw [retain_cons_of_binds first, ih]
    rfl

end Retain

/-! ## Distinct criteria -/

/-- The values of a kind can be keys, none of them is nothing, and only the same are equal. -/
structure Value.IsKeyKind {α : Type} (value : α → Value) : Prop where
  faithful : ∀ a b, (value a).equal (value b) = true ↔ a = b
  isKey : ∀ a, (value a).isKey = true
  present : ∀ a, value a ≠ .null

theorem Value.isKeyKind_int : IsKeyKind Value.int where
  faithful := by simp
  isKey := fun _ => rfl
  present := fun _ => Value.noConfusion

theorem Value.isKeyKind_text : IsKeyKind Value.text where
  faithful := by simp [equal, spelling]
  isKey := fun _ => rfl
  present := fun _ => Value.noConfusion

/-- A value of a kind with its operator, as a criterion. -/
def Criterion.ofKind {α : Type} (value : α → Value) (b : Operator × α) : Criterion :=
  (b.1, value b.2)

theorem Criterion.same_ofKind
    {α : Type} {value : α → Value} (kind : Value.IsKeyKind value) (a b : Operator × α) :
    (ofKind value a).same (ofKind value b) = true ↔ a = b := by
  rw [same, Bool.and_eq_true, beq_iff_eq]
  show a.1 = b.1 ∧ (value a.2).equal (value b.2) = true ↔ a = b
  rw [kind.faithful, Prod.ext_iff]

/-- Where every criterion is bound, the clause is assembled from the distinct bound criteria. -/
theorem result_compile_of_binds
    {rule : ClauseRule} {raw : Value} {found : List Criterion} (read : criteria raw = .ok found)
    {α : Type} {criterion : α → Criterion}
    (faithful : ∀ a b, (criterion a).same (criterion b) = true ↔ a = b)
    {bounds : List α} (binds : List.Forall₂ rule.Binds found (bounds.map criterion)) :
    ∃ distinct : List α, (∀ a, a ∈ distinct ↔ a ∈ bounds) ∧
      (compile rule raw).result = assemble rule (distinct.map criterion) := by
  refine ⟨firstOccurrences Criterion.same criterion bounds, ?_, ?_⟩
  · intro a
    exact mem_firstOccurrences faithful
  · rw [result_compile, read, ok_bind, result_retain binds, ok_bind, foldl_addNew,
      newOccurrences_nothing_seen, firstOccurrences_map]
    rfl

end LedgerQuery
