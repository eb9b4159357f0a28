import LedgerQuery.Proofs.Outcome

/-!
# Searches

A search goes through a list from its front and ends at the first element that it
cannot pass.  What it finds is therefore a matter of the elements in front of the
one that stops it, and of the order only where some element cannot be passed.
-/

namespace LedgerQuery

section Reaches

variable {α : Type} {passes stops : α → Prop} {item : α} {items : List α}

/-- An element stops a search, and the search passes everything in front of it. -/
def Reaches (passes stops : α → Prop) (items : List α) : Prop :=
  ∃ before item after, items = before ++ item :: after ∧ stops item ∧
    ∀ other ∈ before, passes other

theorem not_reaches_nil : ¬Reaches passes stops [] := by
  rintro ⟨before, item, after, impossible, -, -⟩
  cases before <;> cases impossible

theorem reaches_cons_iff :
    Reaches passes stops (item :: items) ↔
      stops item ∨ (passes item ∧ Reaches passes stops items) := by
  constructor
  · rintro ⟨before, found, after, split, stopped, passed⟩
    cases before with
    | nil =>
      cases split
      exact Or.inl stopped
    | cons first before =>
      cases split
      rw [List.forall_mem_cons] at passed
      exact Or.inr ⟨passed.1, before, found, after, rfl, stopped, passed.2⟩
  · rintro (stopped | ⟨passed, before, found, after, rfl, stopped, others⟩)
    · refine ⟨[], item, items, rfl, stopped, ?_⟩
      intro other impossible
      cases impossible
    · exact ⟨item :: before, found, after, rfl, stopped,
        List.forall_mem_cons.mpr ⟨passed, others⟩⟩

theorem reaches_congr
    {passes' stops' : α → Prop}
    (samePasses : ∀ item ∈ items, passes' item ↔ passes item)
    (sameStops : ∀ item ∈ items, stops' item ↔ stops item) :
    Reaches passes' stops' items ↔ Reaches passes stops items := by
  induction items with
  | nil => exact iff_of_false not_reaches_nil not_reaches_nil
  | cons item items ih =>
    rw [List.forall_mem_cons] at samePasses sameStops
    rw [reaches_cons_iff, reaches_cons_iff, samePasses.1, sameStops.1,
      ih samePasses.2 sameStops.2]

theorem Reaches.imp
    {stops' : α → Prop} (reached : Reaches passes stops items)
    (stronger : ∀ item, stops item → stops' item) :
    Reaches passes stops' items := by
  rcases reached with ⟨before, item, after, split, stopped, passed⟩
  exact ⟨before, item, after, split, stronger item stopped, passed⟩

/-- What a search does not come to makes no difference to it. -/
theorem reaches_congr_of_not_reaches
    {stops' other : α → Prop} (unreached : ¬Reaches passes other items)
    (same : ∀ item ∈ items, ¬other item → (stops' item ↔ stops item)) :
    Reaches passes stops' items ↔ Reaches passes stops items := by
  have sameThere {before after : List α} {item : α} (split : items = before ++ item :: after)
      (passed : ∀ other ∈ before, passes other) : stops' item ↔ stops item := by
    apply same item (by simp [split])
    intro stopped
    exact unreached ⟨before, item, after, split, stopped, passed⟩
  constructor
  · rintro ⟨before, item, after, split, stopped, passed⟩
    exact ⟨before, item, after, split, (sameThere split passed).mp stopped, passed⟩
  · rintro ⟨before, item, after, split, stopped, passed⟩
    exact ⟨before, item, after, split, (sameThere split passed).mpr stopped, passed⟩

/-- A search stops at the first element that may stop it. -/
theorem reaches_iff_first :
    Reaches (fun item => passes item ∧ ¬stops item) stops items ↔ Reaches passes stops items := by
  induction items with
  | nil => exact iff_of_false not_reaches_nil not_reaches_nil
  | cons item items ih =>
    rw [reaches_cons_iff, reaches_cons_iff, ih]
    by_cases stopped : stops item
    · exact iff_of_true (Or.inl stopped) (Or.inl stopped)
    · rw [and_iff_left stopped]

theorem reaches_exists_iff {β : Type} {stops : β → α → Prop} :
    Reaches passes (fun item => ∃ b, stops b item) items ↔
      ∃ b, Reaches passes (stops b) items := by
  constructor
  · rintro ⟨before, item, after, split, ⟨b, stopped⟩, passed⟩
    exact ⟨b, before, item, after, split, stopped, passed⟩
  · rintro ⟨b, before, item, after, split, stopped, passed⟩
    exact ⟨before, item, after, split, ⟨b, stopped⟩, passed⟩

/-- Of two kinds of elements that stop a search, one is met first. -/
theorem reaches_of_exists
    {breaks : α → Prop} (found : ∃ item ∈ items, stops item)
    (unbroken : ¬Reaches (fun item => ¬stops item) (fun item => breaks item ∧ ¬stops item) items) :
    Reaches (fun item => ¬breaks item) stops items := by
  induction items with
  | nil =>
    rcases found with ⟨item, impossible, -⟩
    cases impossible
  | cons item items ih =>
    rw [reaches_cons_iff] at unbroken ⊢
    by_cases stopped : stops item
    · exact Or.inl stopped
    · rcases found with ⟨other, member, stoppedThere⟩
      rcases List.mem_cons.mp member with rfl | later
      · exact absurd stoppedThere stopped
      · right
        constructor
        · intro broken
          exact unbroken (Or.inl ⟨broken, stopped⟩)
        · exact ih ⟨other, later, stoppedThere⟩ fun broken => unbroken (Or.inr ⟨stopped, broken⟩)

/-- A search that passes everything finds whatever is there. -/
theorem reaches_iff_exists
    (passable : (∃ item ∈ items, stops item) → ∀ item ∈ items, passes item) :
    Reaches passes stops items ↔ ∃ item ∈ items, stops item := by
  constructor
  · rintro ⟨before, item, after, rfl, stopped, -⟩
    exact ⟨item, by simp, stopped⟩
  · rintro ⟨item, member, stopped⟩
    have passed := passable ⟨item, member, stopped⟩
    rcases List.append_of_mem member with ⟨before, after, rfl⟩
    exact ⟨before, item, after, rfl, stopped, fun other inside =>
      passed other (List.mem_append_left _ inside)⟩

end Reaches

/-- A sequence of steps ends with the fault of the first step that fails. -/
theorem mapM_eq_error_iff
    {ε α β : Type} {make : α → Except ε β} {items : List α} {fault : ε} :
    items.mapM make = .error fault ↔
      Reaches (fun a => ∃ b, make a = .ok b) (fun a => make a = .error fault) items := by
  induction items with
  | nil =>
    apply iff_of_false _ not_reaches_nil
    intro impossible
    cases impossible
  | cons a items ih =>
    rw [reaches_cons_iff, ← ih, List.mapM_cons]
    cases make a with
    | error first =>
      constructor
      · intro failed
        cases failed
        exact Or.inl rfl
      · rintro (same | ⟨⟨b, impossible⟩, -⟩)
        · cases same
          rfl
        · cases impossible
    | ok b =>
      rw [ok_bind]
      cases items.mapM make with
      | error later => simp [Bind.bind, Except.bind]
      | ok others =>
        apply iff_of_false
        · intro impossible
          cases impossible
        · rintro (impossible | ⟨-, impossible⟩) <;> cases impossible

/-- Steps that fail in one way only fail together as one of them does. -/
theorem mapM_eq_error_of_mem
    {ε α β : Type} {make : α → Except ε β} {items : List α} {fault : ε}
    (each : ∀ a ∈ items, ∀ other, make a = .error other → other = fault)
    {a : α} (member : a ∈ items) (failed : make a = .error fault) :
    items.mapM make = .error fault := by
  induction items with
  | nil => cases member
  | cons first items ih =>
    rw [List.forall_mem_cons] at each
    rw [List.mapM_cons]
    cases made : make first with
    | error other =>
      rw [each.1 other made]
      rfl
    | ok b =>
      rcases List.mem_cons.mp member with rfl | later
      · cases made.symm.trans failed
      · rw [ok_bind, ih each.2 later]
        rfl

end LedgerQuery
