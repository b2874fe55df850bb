import StyleTokens.Event

/-!
Results with what was reported on the way to them.

* `Reported`: events in order, and a value or a failure;
* `Reported.tell`, `Reported.ofExcept`: an event, and a result without any;
* `Reported.outcome_bind`: what a sequence of two steps gives;
* `Reported.outcome_mapM`: what the steps for the elements of a list give.
-/

namespace StyleTokens

/-- Events in order, and a value or a failure. -/
structure Reported (ε α : Type) where
  events : List Event
  outcome : Except ε α

namespace Reported

variable {ε ε' α β : Type}

/-- A value without events. -/
def pure (a : α) : Reported ε α := ⟨[], .ok a⟩

/-- One step after another; a failure ends the run and keeps what was reported. -/
def bind (x : Reported ε α) (f : α → Reported ε β) : Reported ε β :=
  match x.outcome with
  | .ok a => ⟨x.events ++ (f a).events, (f a).outcome⟩
  | .error e => ⟨x.events, .error e⟩

instance : Monad (Reported ε) where
  pure := pure
  bind := bind

/-- A step that adds nothing to the events. -/
theorem bind_pure_id (x : Reported ε α) : x.bind pure = x := by
  obtain ⟨events, outcome⟩ := x
  cases outcome with
  | ok a => exact congrArg (Reported.mk · (.ok a)) (List.append_nil events)
  | error e => rfl

theorem bind_bind {γ : Type} (x : Reported ε α) (f : α → Reported ε β) (g : β → Reported ε γ) :
    (x.bind f).bind g = x.bind fun a => (f a).bind g := by
  obtain ⟨events, outcome⟩ := x
  cases outcome with
  | error e => rfl
  | ok a =>
    simp only [bind]
    cases (f a).outcome <;> simp only [List.append_assoc]

instance : LawfulMonad (Reported ε) :=
  LawfulMonad.mk' (Reported ε) bind_pure_id (fun _ _ => rfl) bind_bind

/-- Events alone. -/
def tell (events : List Event) : Reported ε Unit := ⟨events, .ok ()⟩

/-- A result without events. -/
def ofExcept (r : Except ε α) : Reported ε α := ⟨[], r⟩

/-- The same run with failures seen differently. -/
def mapError (f : ε → ε') (x : Reported ε α) : Reported ε' α := ⟨x.events, x.outcome.mapError f⟩

@[simp] theorem outcome_pure (a : α) : (Pure.pure a : Reported ε α).outcome = .ok a := rfl

@[simp] theorem outcome_tell (events : List Event) :
    (tell events : Reported ε Unit).outcome = .ok () := rfl

@[simp] theorem outcome_ofExcept (r : Except ε α) : (ofExcept r).outcome = r := rfl

@[simp] theorem outcome_mapError (f : ε → ε') (x : Reported ε α) :
    (x.mapError f).outcome = x.outcome.mapError f := rfl

/-- The result of two steps is that of the steps without their events. -/
@[simp] theorem outcome_bind (x : Reported ε α) (f : α → Reported ε β) :
    (x >>= f).outcome = x.outcome >>= fun a => (f a).outcome := by
  obtain ⟨events, outcome⟩ := x
  cases outcome <;> rfl

/-- The result of steps for the elements of a list is that of the steps without their events. -/
theorem outcome_mapM (f : α → Reported ε β) (xs : List α) :
    (xs.mapM f).outcome = xs.mapM fun x => (f x).outcome := by
  induction xs with
  | nil => rfl
  | cons x xs ih => simp only [List.mapM_cons, outcome_bind, ih, outcome_pure]; rfl

end Reported

end StyleTokens
