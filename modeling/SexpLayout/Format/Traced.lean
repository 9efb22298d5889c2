import SexpLayout.Layout.Gap
import SexpLayout.Text.Basic

/-!
# Traced computations

Formatting reports what it does as it goes.  A `Traced` computation has the events reported so far
next to its outcome, so the events before a failure are kept, in order.
-/

namespace SexpLayout

inductive Event where
  /-- A form was laid out: the mode, the name of its head, and how many breaks could be folded. -/
  | laidOut (mode : Mode) (head : Text) (breaks : Nat)
  /-- A document was formatted, with so many lists at its top. -/
  | formatted (forms : Nat)
  /-- A file was left alone. -/
  | unchanged (path : Text)
  /-- A file was written. -/
  | reformatted (path : Text)
  deriving DecidableEq, Repr

/-- A computation that may fail with an `ε`, with the events reported on the way. -/
structure Traced (ε α : Type) where
  events : List Event
  outcome : Except ε α

namespace Traced

variable {ε α β : Type}

def ofExcept (x : Except ε α) : Traced ε α := ⟨[], x⟩

def emit (e : Event) : Traced ε Unit := ⟨[e], .ok ()⟩

/-- Goes on with the value, if there is one; the events add up. -/
def andThen (x : Traced ε α) (f : α → Traced ε β) : Traced ε β :=
  match x.outcome with
  | .ok a =>
    let y := f a
    ⟨x.events ++ y.events, y.outcome⟩
  | .error e => ⟨x.events, .error e⟩

instance : Monad (Traced ε) where
  pure a := ⟨[], .ok a⟩
  bind := andThen

@[simp] theorem outcome_pure (a : α) : (pure a : Traced ε α).outcome = .ok a := rfl

@[simp] theorem outcome_ofExcept (x : Except ε α) : (ofExcept x).outcome = x := rfl

@[simp] theorem ofExcept_ok_bind (a : α) (f : α → Traced ε β) :
    (ofExcept (.ok a) >>= f) = f a := rfl

@[simp] theorem ofExcept_error_bind (e : ε) (f : α → Traced ε β) :
    (ofExcept (.error e) >>= f) = ofExcept (.error e) := rfl

/-- The outcome does not depend on the events. -/
@[simp] theorem outcome_bind (x : Traced ε α) (f : α → Traced ε β) :
    (x >>= f).outcome = x.outcome >>= fun a => (f a).outcome := by
  show (andThen x f).outcome = _
  unfold andThen
  cases x.outcome <;> rfl

theorem bind_eq_andThen (x : Traced ε α) (f : α → Traced ε β) : x >>= f = x.andThen f := rfl

instance : LawfulMonad (Traced ε) :=
  LawfulMonad.mk' _
    (by
      rintro α ⟨events, outcome⟩
      cases outcome with
      | ok a => exact congrArg (Traced.mk · (.ok a)) (List.append_nil events)
      | error e => rfl)
    (by
      intro α β a f
      rfl)
    (by
      rintro α β γ ⟨events, outcome⟩ f g
      simp only [bind_eq_andThen]
      cases outcome with
      | error e => rfl
      | ok a =>
        simp only [andThen]
        cases (f a).outcome with
        | error e => rfl
        | ok b => simp)

end Traced

end SexpLayout
