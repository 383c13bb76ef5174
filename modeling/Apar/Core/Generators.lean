/-
Generator functions: computations that yield items while they run, and then return or raise. A library: nothing here is
about payments.

A generator is what it yields and how it ends (`Gen`): the items before an exception have been yielded. A generator that
consumes another one, item by item, runs its own steps between the other's (`each`), so an exception of either comes after
what was yielded before it.

- `bind_eq_ok`: the two parts of a run that returns.
- `each_ok`: an invariant of the items consumed and the items yielded, along a run that returns; `each_total`: a run whose
  every step can be made returns.
-/
import Mathlib.Tactic

namespace Apar

/-- a run of a generator function: what it yields, and what it returns or raises -/
structure Gen (ε α β : Type) where
  items : List α
  result : Except ε β

namespace Gen

variable {ε α β γ σ : Type}

def bind (x : Gen ε α β) (f : β → Gen ε α γ) : Gen ε α γ :=
  match x.result with
  | .ok b => ⟨x.items ++ (f b).items, (f b).result⟩
  | .error e => ⟨x.items, .error e⟩

instance : Monad (Gen ε α) where
  pure b := ⟨[], .ok b⟩
  bind := bind

/-- `yield a` -/
def emit (a : α) : Gen ε α Unit := ⟨[a], .ok ()⟩

/-- `if p: yield a` -/
def emitIf (p : Prop) [Decidable p] (a : α) : Gen ε α Unit := if p then emit a else pure ()

/-- a computation that yields nothing -/
def lift (x : Except ε β) : Gen ε α β := ⟨[], x⟩

/-- `raise e` -/
def raise (e : ε) : Gen ε α β := ⟨[], .error e⟩

def eachItem (body : σ → γ → Gen ε α σ) : List γ → σ → Gen ε α σ
  | [], s => pure s
  | c :: cs, s => do
    let s ← body s c
    eachItem body cs s

/-- `for c in g: body`, with the variables of the loop as a state -/
def each (g : Gen ε γ Unit) (body : σ → γ → Gen ε α σ) (s : σ) : Gen ε α σ := do
  let s ← eachItem body g.items s
  lift (g.result.map fun _ => s)

variable {out : List α} {I : List γ → List α → σ → Prop} {body : σ → γ → Gen ε α σ}

@[simp] theorem pure_eq_ok {b b' : β} : (pure b : Gen ε α β) = ⟨out, .ok b'⟩ ↔ out = [] ∧ b = b' := by
  show (⟨[], .ok b⟩ : Gen ε α β) = _ ↔ _
  rw [Gen.mk.injEq, Except.ok.injEq, eq_comm (a := [])]

@[simp] theorem emit_eq_ok {a : α} {u : Unit} : (emit a : Gen ε α Unit) = ⟨out, .ok u⟩ ↔ out = [a] := by
  rw [emit, Gen.mk.injEq, eq_comm (a := [a])]
  simp

@[simp] theorem lift_eq_ok {x : Except ε β} {b : β} : (lift x : Gen ε α β) = ⟨out, .ok b⟩ ↔ out = [] ∧ x = .ok b := by
  rw [lift, Gen.mk.injEq, eq_comm (a := [])]

@[simp] theorem raise_eq_ok {e : ε} {b : β} : (raise e : Gen ε α β) = ⟨out, .ok b⟩ ↔ False := by
  simp [raise]

theorem bind_eq_ok {x : Gen ε α β} {f : β → Gen ε α γ} {c : γ} :
    (x >>= f) = ⟨out, .ok c⟩ ↔ ∃ xs b ys, x = ⟨xs, .ok b⟩ ∧ f b = ⟨ys, .ok c⟩ ∧ out = xs ++ ys := by
  obtain ⟨xs, r⟩ := x
  show Gen.bind _ f = _ ↔ _
  cases r with
  | error e => simp [Gen.bind]
  | ok b =>
    simp only [Gen.bind, Gen.mk.injEq, Except.ok.injEq]
    constructor
    · rintro ⟨rfl, hc⟩
      exact ⟨xs, b, (f b).items, ⟨rfl, rfl⟩, by rw [← hc], rfl⟩
    · rintro ⟨xs, b, ys, ⟨rfl, rfl⟩, hf, rfl⟩
      simp [hf]

theorem lift_bind_eq_ok {x : Except ε β} {f : β → Gen ε α γ} {c : γ} :
    (lift x >>= f) = ⟨out, .ok c⟩ ↔ ∃ b, x = .ok b ∧ f b = ⟨out, .ok c⟩ := by
  rw [bind_eq_ok]
  constructor
  · rintro ⟨xs, b, ys, hx, hf, rfl⟩
    obtain ⟨rfl, hok⟩ := lift_eq_ok.1 hx
    exact ⟨b, hok, hf⟩
  · rintro ⟨b, hx, hf⟩
    exact ⟨[], b, out, lift_eq_ok.2 ⟨rfl, hx⟩, hf, rfl⟩

theorem emit_bind_eq_ok {a : α} {f : Unit → Gen ε α γ} {c : γ} :
    (emit a >>= f) = ⟨out, .ok c⟩ ↔ ∃ ys, f () = ⟨ys, .ok c⟩ ∧ out = a :: ys := by
  rw [bind_eq_ok]
  constructor
  · rintro ⟨xs, b, ys, hx, hf, rfl⟩
    exact ⟨ys, hf, by rw [emit_eq_ok.1 hx, List.singleton_append]⟩
  · rintro ⟨ys, hf, rfl⟩
    exact ⟨[a], (), ys, rfl, hf, rfl⟩

theorem emitIf_eq_ok {p : Prop} [Decidable p] {a : α} {u : Unit} :
    (emitIf p a : Gen ε α Unit) = ⟨out, .ok u⟩ ↔ out = if p then [a] else [] := by
  unfold emitIf
  split_ifs with h
  · exact emit_eq_ok
  · rw [pure_eq_ok]
    simp

theorem eachItem_ok (hstep : ∀ cs as s c out s', I cs as s → body s c = ⟨out, .ok s'⟩ → I (cs ++ [c]) (as ++ out) s')
    {cs : List γ} :
    ∀ {done : List γ} {as : List α} {s : σ} {out : List α} {s' : σ}, I done as s →
      eachItem body cs s = ⟨out, .ok s'⟩ → I (done ++ cs) (as ++ out) s' := by
  induction cs with
  | nil =>
    intro done as s out s' hI h
    obtain ⟨rfl, rfl⟩ := pure_eq_ok.1 h
    simpa using hI
  | cons c cs ih =>
    intro done as s out s' hI h
    obtain ⟨xs, s₁, ys, hbody, hrest, rfl⟩ := bind_eq_ok.1 h
    have := ih (hstep _ _ _ _ _ _ hI hbody) hrest
    simpa using this

/-- **An invariant along a loop that returns** -/
theorem each_ok {g : Gen ε γ Unit} {s s' : σ} (hI : I [] [] s)
    (hstep : ∀ cs as s c out s', I cs as s → body s c = ⟨out, .ok s'⟩ → I (cs ++ [c]) (as ++ out) s')
    (h : each g body s = ⟨out, .ok s'⟩) : g.result = .ok () ∧ I g.items out s' := by
  obtain ⟨xs, s₁, ys, hitems, hlift, rfl⟩ := bind_eq_ok.1 h
  obtain ⟨rfl, hresult⟩ := lift_eq_ok.1 hlift
  have hend := eachItem_ok hstep hI hitems
  cases hg : g.result with
  | error e => rw [hg] at hresult; cases hresult
  | ok u =>
    rw [hg] at hresult
    cases hresult
    simpa using hend

/-- **A loop whose every step can be made returns.** -/
theorem each_total {g : Gen ε γ Unit} {s : σ} (hI : I [] [] s)
    (hstep : ∀ cs c rest as s, g.items = cs ++ c :: rest → I cs as s →
      ∃ out s', body s c = ⟨out, .ok s'⟩ ∧ I (cs ++ [c]) (as ++ out) s') (hg : g.result = .ok ()) :
    ∃ out s', each g body s = ⟨out, .ok s'⟩ ∧ I g.items out s' := by
  have key : ∀ (rest done : List γ) (as : List α) (s : σ), g.items = done ++ rest → I done as s →
      ∃ out s', eachItem body rest s = ⟨out, .ok s'⟩ ∧ I (done ++ rest) (as ++ out) s' := by
    intro rest
    induction rest with
    | nil => exact fun done as s _ h => ⟨[], s, pure_eq_ok.2 ⟨rfl, rfl⟩, by simpa using h⟩
    | cons c rest ih =>
      intro done as s hitems h
      obtain ⟨xs, s₁, hbody, h₁⟩ := hstep done c rest as s hitems h
      obtain ⟨ys, s', hrest, h'⟩ := ih (done ++ [c]) (as ++ xs) s₁ (by simpa using hitems) h₁
      exact ⟨xs ++ ys, s', bind_eq_ok.2 ⟨xs, s₁, ys, hbody, hrest, rfl⟩, by simpa using h'⟩
  obtain ⟨out, s', hitems, h⟩ := key g.items [] [] s rfl hI
  refine ⟨out, s', bind_eq_ok.2 ⟨out, s', [], hitems, lift_eq_ok.2 ⟨rfl, ?_⟩, by simp⟩, by simpa using h⟩
  rw [hg]
  rfl

end Gen

end Apar
