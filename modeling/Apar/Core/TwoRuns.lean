/-
Two runs of computations side by side. A library: nothing here is about payments.

`Alike R Q` says that two runs end alike: both return, with values related by `Q`, or both raise the same exception, and
their states are related by `R`. `TwoRuns R Q` says it of two computations from any related states. With a relation
that reads only part of a state, it says that the rest has no influence.

- `TwoRuns.bind`: composition.
- `TwoRuns.turns`: a loop whose turns run alike runs alike.
- `ReturnAlike`: pure computations that both return or both raise, whatever they raise.
-/
import Apar.Core.Exec

namespace Apar.Exec

variable {ε σ τ α β γ δ : Type}

/-- two ends of a run, alike -/
inductive Alike (R : σ → τ → Prop) (Q : α → β → Prop) : EStateM.Result ε σ α → EStateM.Result ε τ β → Prop where
  | ok {a : α} {b : β} {s : σ} {t : τ} : Q a b → R s t → Alike R Q (.ok a s) (.ok b t)
  | error {e : ε} {s : σ} {t : τ} : R s t → Alike R Q (.error e s) (.error e t)

theorem Alike.mono {R R' : σ → τ → Prop} {Q : α → β → Prop} {x : EStateM.Result ε σ α} {y : EStateM.Result ε τ β}
    (h : Alike R Q x y) (hR : ∀ s t, R s t → R' s t) : Alike R' Q x y := by
  cases h with
  | ok hab hst => exact .ok hab (hR _ _ hst)
  | error hst => exact .error (hR _ _ hst)

/-- two computations that end alike from related states -/
def TwoRuns (R : σ → τ → Prop) (Q : α → β → Prop) (x : EStateM ε σ α) (y : EStateM ε τ β) : Prop :=
  ∀ s t, R s t → Alike R Q (x s) (y t)

variable {R : σ → τ → Prop} {Q : α → β → Prop} {P : γ → δ → Prop}

theorem TwoRuns.bind {x : EStateM ε σ α} {y : EStateM ε τ β} {f : α → EStateM ε σ γ} {g : β → EStateM ε τ δ}
    (hxy : TwoRuns R Q x y) (hfg : ∀ a b, Q a b → TwoRuns R P (f a) (g b)) : TwoRuns R P (x >>= f) (y >>= g) := by
  intro s t hst
  rw [bind_run, bind_run]
  have h := hxy s t hst
  generalize x s = rx at h
  generalize y t = ry at h
  cases h with
  | ok hab hst' => exact hfg _ _ hab _ _ hst'
  | error hst' => exact .error hst'

theorem TwoRuns.pure {a : α} {b : β} (h : Q a b) :
    TwoRuns R Q (Pure.pure a : EStateM ε σ α) (Pure.pure b : EStateM ε τ β) := fun _ _ hst => .ok h hst

theorem TwoRuns.get : TwoRuns R R (get : EStateM ε σ σ) (get : EStateM ε τ τ) := fun _ _ hst => .ok hst hst

theorem TwoRuns.modify {f : σ → σ} {g : τ → τ} (h : ∀ s t, R s t → R (f s) (g t)) :
    TwoRuns R Eq (modify f : EStateM ε σ PUnit) (modify g : EStateM ε τ PUnit) := fun s t hst => .ok rfl (h s t hst)

/-- two pure computations that agree -/
inductive AgreeUpTo (Q : α → β → Prop) : Except ε α → Except ε β → Prop where
  | ok {a : α} {b : β} : Q a b → AgreeUpTo Q (.ok a) (.ok b)
  | error {e : ε} : AgreeUpTo Q (.error e) (.error e)

theorem AgreeUpTo.refl (x : Except ε α) : AgreeUpTo Eq x x := by
  cases x with
  | ok a => exact .ok rfl
  | error e => exact .error

theorem TwoRuns.raising {x : Except ε α} {y : Except ε β} (h : AgreeUpTo Q x y) :
    TwoRuns R Q (Exec.raising x) (Exec.raising y) := by
  cases h with
  | ok hab => exact TwoRuns.pure hab
  | error => exact fun _ _ hst => .error hst

/-- two pure computations that both return, with related values, or both raise -/
inductive ReturnAlike (Q : α → β → Prop) : Except ε α → Except ε β → Prop where
  | ok {a : α} {b : β} : Q a b → ReturnAlike Q (.ok a) (.ok b)
  | error {e e' : ε} : ReturnAlike Q (.error e) (.error e')

theorem ReturnAlike.bind {x : Except ε α} {y : Except ε β} {f : α → Except ε γ} {g : β → Except ε δ}
    (hxy : ReturnAlike Q x y) (hfg : ∀ a b, Q a b → ReturnAlike P (f a) (g b)) :
    ReturnAlike P (x >>= f) (y >>= g) := by
  cases hxy with
  | ok hab => exact hfg _ _ hab
  | error => exact .error

theorem ReturnAlike.check {c d : Bool} {e e' : ε} (h : c = d) :
    ReturnAlike (fun _ _ => True) (Exec.check c e) (Exec.check d e') := by
  subst h
  cases c with
  | true => exact .ok trivial
  | false => exact .error

/-- of two computations that end alike, one returns where the other does -/
theorem ReturnAlike.of_ok {a : α} {y : Except ε β} (h : ReturnAlike Q (.ok a : Except ε α) y) :
    ∃ b, y = .ok b ∧ Q a b := by
  cases h with
  | ok hab => exact ⟨_, rfl, hab⟩

theorem ReturnAlike.of_ok_right {x : Except ε α} {b : β} (h : ReturnAlike Q x (.ok b : Except ε β)) :
    ∃ a, x = .ok a ∧ Q a b := by
  cases h with
  | ok hab => exact ⟨_, rfl, hab⟩

/-- the first turns of a loop that counts up -/
def turns (step : ℕ → EStateM ε σ PUnit) : ℕ → EStateM ε σ PUnit
  | 0 => Pure.pure ⟨⟩
  | n + 1 => turns step n >>= fun _ => step n

theorem TwoRuns.turns {f : ℕ → EStateM ε σ PUnit} {g : ℕ → EStateM ε τ PUnit} (h : ∀ n, TwoRuns R Eq (f n) (g n))
    (n : ℕ) : TwoRuns R Eq (Exec.turns f n) (Exec.turns g n) := by
  induction n with
  | zero => exact TwoRuns.pure rfl
  | succ n ih => exact ih.bind fun _ _ _ => h n

end Apar.Exec
