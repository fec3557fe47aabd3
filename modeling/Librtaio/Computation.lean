import Mathlib.Order.Defs.Unbundled

/-!
# Computations that can be left

A computation works on a state and may be left before its end, by an exception or
worse. What it did to the state before that is not undone.
-/

namespace Librtaio

/-- A computation of an `α` on a state `σ` that an exit of type `ε` may leave. -/
def Exec (ε σ α : Type) : Type := σ → Except ε α × σ

namespace Exec

variable {ε σ α β : Type}

instance : Monad (Exec ε σ) where
  pure a := fun f => (.ok a, f)
  bind x k := fun f =>
    match x f with
    | (.ok a, f) => k a f
    | (.error exit, f) => (.error exit, f)

def lift (x : Except ε α) : Exec ε σ α := fun f => (x, f)

/-- How a computation ended, if it did not return. -/
def raised : Except ε α → Option ε
  | .ok _ => none
  | .error exit => some exit

@[simp] theorem pure_run (a : α) (f : σ) : (pure a : Exec ε σ α) f = (.ok a, f) := rfl

@[simp] theorem lift_ok_bind (a : α) (k : α → Exec ε σ β) (f : σ) :
    (lift (.ok a) >>= k) f = k a f := rfl

@[simp] theorem lift_error_bind (exit : ε) (k : α → Exec ε σ β) (f : σ) :
    (lift (.error exit) >>= k) f = (.error exit, f) := rfl

variable {x : Exec ε σ α} {f f' : σ}

theorem bind_of_ok {a : α} (h : x f = (.ok a, f')) (k : α → Exec ε σ β) :
    (x >>= k) f = k a f' := by
  change (match x f with | (.ok a, f) => k a f | (.error exit, f) => (.error exit, f)) = _
  rw [h]

theorem bind_of_error {exit : ε} (h : x f = (.error exit, f')) (k : α → Exec ε σ β) :
    (x >>= k) f = (.error exit, f') := by
  change (match x f with | (.ok a, f) => k a f | (.error exit, f) => (.error exit, f)) = _
  rw [h]

/-! ### What a computation keeps -/

/-- The computation takes every state to one that is related to it. -/
def Keeps (R : σ → σ → Prop) (x : Exec ε σ α) : Prop := ∀ f, R f (x f).2

namespace Keeps

variable {R : σ → σ → Prop}

theorem pure [Std.Refl R] (a : α) : Keeps R (Pure.pure a : Exec ε σ α) := fun f => refl f

theorem lift [Std.Refl R] (x : Except ε α) : Keeps R (Exec.lift x : Exec ε σ α) := fun f => refl f

theorem bind [IsTrans σ R] {x : Exec ε σ α} {k : α → Exec ε σ β} (hx : Keeps R x)
    (hk : ∀ a, Keeps R (k a)) : Keeps R (x >>= k) := by
  intro f
  have hfirst := hx f
  rcases hrun : x f with ⟨exit | a, f'⟩ <;> rw [hrun] at hfirst
  · rw [bind_of_error hrun]
    exact hfirst
  · rw [bind_of_ok hrun]
    exact IsTrans.trans _ _ _ hfirst (hk a f')

theorem ite {p : Prop} [Decidable p] {x y : Exec ε σ α} (hx : Keeps R x) (hy : Keeps R y) :
    Keeps R (if p then x else y) := by
  split
  · exact hx
  · exact hy

end Keeps

/-! ### Computations that are watched -/

/-- How a watched computation is left: as by itself, or because it was to go on in a state that it
must not work on. -/
inductive Watched (ε : Type) where
  | exit (exit : ε)
  | misused

/-- The computation, if it starts in a live state. -/
def watch (live : σ → Bool) (x : Exec ε σ α) : Exec (Watched ε) σ α := fun f =>
  if live f then ((x f).1.mapError .exit, (x f).2) else (.error .misused, f)

/-- From `f` on, the watched computation does what the other does. -/
def SameFrom (f : σ) (x : Exec ε σ α) (y : Exec (Watched ε) σ α) : Prop :=
  y f = ((x f).1.mapError .exit, (x f).2)

namespace SameFrom

variable {live : σ → Bool} {y : Exec (Watched ε) σ α} {k : α → Exec ε σ β}
  {k' : α → Exec (Watched ε) σ β}

theorem ne_misused (h : SameFrom f x y) : (y f).1 ≠ .error .misused := by
  rw [h]
  intro hmisused
  cases hx : (x f).1 with
  | error exit =>
    rw [hx] at hmisused
    cases (Except.error.inj hmisused : Watched.exit exit = .misused)
  | ok a =>
    rw [hx] at hmisused
    cases hmisused

theorem pure (a : α) : SameFrom f (Pure.pure a : Exec ε σ α) (Pure.pure a) := rfl

theorem watch (hlive : live f = true) : SameFrom f x (watch live x) := if_pos hlive

theorem bind (hx : SameFrom f x y)
    (hk : ∀ a f', x f = (.ok a, f') → SameFrom f' (k a) (k' a)) :
    SameFrom f (x >>= k) (y >>= k') := by
  rcases hrun : x f with ⟨exit | a, f'⟩
  · rw [SameFrom, hrun] at hx
    rw [SameFrom, bind_of_error hrun, bind_of_error hx]
    rfl
  · have hy : y f = (.ok a, f') := by rw [hx, hrun]; rfl
    rw [SameFrom, bind_of_ok hrun, bind_of_ok hy]
    exact hk a f' hrun

theorem ite {p : Prop} [Decidable p] {x' : Exec ε σ α} {y' : Exec (Watched ε) σ α}
    (h : SameFrom f x y) (h' : SameFrom f x' y') :
    SameFrom f (if p then x else x') (if p then y else y') := by
  split
  · exact h
  · exact h'

/-- A part that leaves a live state live. -/
theorem watch_bind (hlive : live f = true) (hkeep : Keeps (fun f f' => live f' = live f) x)
    (hk : ∀ a f', live f' = true → SameFrom f' (k a) (k' a)) :
    SameFrom f (x >>= k) (Exec.watch live x >>= k') := by
  refine (SameFrom.watch hlive).bind ?_
  intro a f' hrun
  have hlive' := hkeep f
  rw [hrun, hlive] at hlive'
  exact hk a f' hlive'

end SameFrom

end Exec

/-! ### Computations side by side -/

/-- Two computations that fail alike, or return results in a relation. -/
inductive Agree {ε α β : Type} (R : α → β → Prop) : Except ε α → Except ε β → Prop where
  | error (e : ε) : Agree R (.error e) (.error e)
  | ok {a : α} {b : β} (h : R a b) : Agree R (.ok a) (.ok b)

namespace Agree

variable {ε α β γ δ : Type} {R : α → β → Prop} {S : γ → δ → Prop}

theorem refl (x : Except ε α) : Agree Eq x x := by
  cases x with
  | error e => exact .error e
  | ok a => exact .ok rfl

theorem bind {x : Except ε α} {y : Except ε β} (h : Agree R x y) {f : α → Except ε γ}
    {g : β → Except ε δ} (hfg : ∀ a b, R a b → Agree S (f a) (g b)) :
    Agree S (x >>= f) (y >>= g) := by
  cases h with
  | error e => exact .error e
  | ok h => exact hfg _ _ h

end Agree

namespace Exec

variable {ε σ α β γ : Type}

/-- From related states two computations come to the same result, and to related states. -/
def Coupled (R : σ → σ → Prop) (x y : Exec ε σ α) : Prop :=
  ∀ f f', R f f' → (x f).1 = (y f').1 ∧ R (x f).2 (y f').2

namespace Coupled

variable {R : σ → σ → Prop} {x y : Exec ε σ α}

theorem pure (a : α) : Coupled R (Pure.pure a : Exec ε σ α) (Pure.pure a) := fun _ _ h => ⟨rfl, h⟩

theorem lift (x : Except ε α) : Coupled R (Exec.lift x) (Exec.lift x) := fun _ _ h => ⟨rfl, h⟩

theorem bind {k k' : α → Exec ε σ β} (h : Coupled R x y) (hk : ∀ a, Coupled R (k a) (k' a)) :
    Coupled R (x >>= k) (y >>= k') := by
  intro f f' hf
  obtain ⟨hresult, hstate⟩ := h f f' hf
  rcases hx : x f with ⟨exit | a, g⟩ <;> rcases hy : y f' with ⟨exit' | a', g'⟩ <;>
    rw [hx, hy] at hresult hstate
  · cases hresult
    rw [bind_of_error hx, bind_of_error hy]
    exact ⟨rfl, hstate⟩
  · cases hresult
  · cases hresult
  · cases hresult
    rw [bind_of_ok hx, bind_of_ok hy]
    exact hk a g g' hstate

/-- What is lifted may have different results, if what follows does not tell them apart. -/
theorem lift_bind {Q : α → β → Prop} {x : Except ε α} {y : Except ε β} {k : α → Exec ε σ γ}
    {k' : β → Exec ε σ γ} (h : Agree Q x y) (hk : ∀ a b, Q a b → Coupled R (k a) (k' b)) :
    Coupled R (Exec.lift x >>= k) (Exec.lift y >>= k') := by
  cases h with
  | error e => exact fun _ _ hf => ⟨rfl, hf⟩
  | ok h => exact hk _ _ h

theorem ite {p : Prop} [Decidable p] {x' y' : Exec ε σ α} (h : Coupled R x y)
    (h' : Coupled R x' y') : Coupled R (if p then x else x') (if p then y else y') := by
  split
  · exact h
  · exact h'

end Coupled

end Exec

end Librtaio
