import LedgerQuery.Journal.Event

/-!
# Computations that report events

A traced computation yields the events that it reported, in order, and its result or the fault that
ended it.  The events never influence the result: the result of a sequence of steps is the sequence
of the results.
-/

namespace LedgerQuery

/-- A result with the events reported on the way. -/
structure Traced (α : Type) where
  events : List Event
  result : Except Fault α

namespace Traced

variable {α β : Type}

/-- A result without events. -/
def lift (result : Except Fault α) : Traced α :=
  ⟨[], result⟩

/-- Report an event. -/
def report (event : Event) : Traced Unit :=
  ⟨[event], .ok ()⟩

/-- End with a fault. -/
def fail (fault : Fault) : Traced α :=
  ⟨[], .error fault⟩

/-- One computation after another; a fault ends both. -/
def andThen (first : Traced α) (second : α → Traced β) : Traced β :=
  match first.result with
  | .error fault => ⟨first.events, .error fault⟩
  | .ok a => ⟨first.events ++ (second a).events, (second a).result⟩

/-- The result, a fault included, as a result of its own: the computation after it goes on. -/
def attempt (step : Traced α) : Traced (Except Fault α) :=
  ⟨step.events, .ok step.result⟩

instance : Monad Traced where
  pure a := ⟨[], .ok a⟩
  bind := andThen

instance : MonadLift (Except Fault) Traced where
  monadLift := lift

@[simp]
theorem result_pure (a : α) : (pure a : Traced α).result = .ok a := rfl

@[simp]
theorem result_lift (result : Except Fault α) : (lift result).result = result := rfl

@[simp]
theorem result_monadLift (result : Except Fault α) :
    (MonadLift.monadLift result : Traced α).result = result := rfl

@[simp]
theorem result_fail (fault : Fault) : (fail fault : Traced α).result = .error fault := rfl

@[simp]
theorem result_report (event : Event) : (report event).result = .ok () := rfl

@[simp]
theorem result_bind (first : Traced α) (second : α → Traced β) :
    (first >>= second).result = first.result >>= fun a => (second a).result := by
  show (andThen first second).result = _
  unfold andThen
  cases first.result <;> rfl

end Traced

end LedgerQuery
