/-
Computations that read and write a state and may raise, as Python methods do: `EStateM`, where an exception keeps the
writes made before it. A library: what a successful run of a composed computation says about its parts.

- `bind_eq_ok` peels one step off a successful run, `bind_eq_error` off a failing one; `raising_eq_ok`, `get_eq_ok`, `set_eq_ok`, `throw_eq_ok` and
  `guard_eq_ok` are the steps.
- `except_bind_eq_ok` is the same for a pure `Except` computation, `mapM_eq_ok` for one over a list.
- `Within R` and `FailsWithin R` say what a computation can leave behind, returning or raising; `FailsWithin.bind` puts
  the steps that cannot write before those that can.
-/
import Mathlib.Tactic

namespace Apar.Exec

variable {ε σ α β : Type}

/-- run a pure fallible computation -/
def raising (x : Except ε α) : EStateM ε σ α :=
  match x with
  | .ok a => pure a
  | .error e => throw e

/-- `if not c: raise e` -/
def guard (c : Bool) (e : ε) : EStateM ε σ Unit := if c then pure () else throw e

/-- run a computation on a part of the state -/
def zoom {τ : Type} (part : σ → τ) (put : τ → σ → σ) (act : EStateM ε τ α) : EStateM ε σ α := fun s =>
  match act (part s) with
  | .ok a t => .ok a (put t s)
  | .error e t => .error e (put t s)

/-- `try: act() except Exception: cleanup(); raise` -/
def onError (act : EStateM ε σ α) (cleanup : EStateM ε σ Unit) : EStateM ε σ α := fun s =>
  match act s with
  | .ok a t => .ok a t
  | .error e t =>
    match cleanup t with
    | .ok _ u => .error e u
    | .error e' u => .error e' u

/-- `if not c: raise e`, in a pure computation -/
def check (c : Bool) (e : ε) : Except ε Unit := if c then .ok () else .error e

theorem bind_run (x : EStateM ε σ α) (f : α → EStateM ε σ β) (s : σ) :
    (x >>= f) s =
      match x s with
      | .ok a t => f a t
      | .error e t => .error e t := by
  show EStateM.bind x f s = _
  unfold EStateM.bind
  cases x s <;> rfl

variable {s t s' : σ} {e : ε} {b a : α} {x : Except ε α} {f : α → Except ε β} {xs : List α}

theorem bind_eq_ok {x : EStateM ε σ α} {f : α → EStateM ε σ β} {b : β} :
    (x >>= f) s = .ok b t ↔ ∃ a u, x s = .ok a u ∧ f a u = .ok b t := by
  show EStateM.bind x f s = _ ↔ _
  unfold EStateM.bind
  cases x s with
  | ok a u => simp
  | error e u => simp

theorem bind_eq_error {x : EStateM ε σ α} {f : α → EStateM ε σ β} :
    (x >>= f) s = .error e t ↔ x s = .error e t ∨ ∃ a u, x s = .ok a u ∧ f a u = .error e t := by
  show EStateM.bind x f s = _ ↔ _
  unfold EStateM.bind
  cases x s with
  | ok a u => simp
  | error e' u => simp

@[simp] theorem get_eq_error : (get : EStateM ε σ σ) s = .error e t ↔ False := by
  change EStateM.Result.ok s s = .error e t ↔ _
  simp

@[simp] theorem pure_eq_ok : (pure a : EStateM ε σ α) s = .ok b t ↔ a = b ∧ s = t := by
  show EStateM.Result.ok a s = .ok b t ↔ _
  simp

@[simp] theorem throw_eq_ok : (throw e : EStateM ε σ α) s = .ok b t ↔ False := by
  show EStateM.Result.error e s = .ok b t ↔ _
  simp

@[simp] theorem get_eq_ok {b : σ} : (get : EStateM ε σ σ) s = .ok b t ↔ s = b ∧ s = t := by
  show EStateM.Result.ok s s = .ok b t ↔ _
  simp

@[simp] theorem set_eq_ok {u : σ} {b : PUnit} : (set u : EStateM ε σ PUnit) s = .ok b t ↔ u = t := by
  show EStateM.Result.ok _ u = .ok b t ↔ _
  simp

@[simp] theorem raising_eq_ok : (raising x : EStateM ε σ α) s = .ok b t ↔ x = .ok b ∧ s = t := by
  cases x <;> simp [raising]

@[simp] theorem guard_eq_ok {c : Bool} {b : Unit} : (guard c e : EStateM ε σ Unit) s = .ok b t ↔ c = true ∧ s = t := by
  cases c <;> simp [guard]

@[simp] theorem guard_eq_error {c : Bool} {e' : ε} :
    (guard c e : EStateM ε σ Unit) s = .error e' t ↔ c = false ∧ e = e' ∧ s = t := by
  cases c with
  | true => simp [guard, pure, EStateM.pure]
  | false =>
    show EStateM.Result.error e s = .error e' t ↔ _
    simp

@[simp] theorem raising_eq_error : (raising x : EStateM ε σ α) s = .error e t ↔ x = .error e ∧ s = t := by
  cases x with
  | ok a => simp [raising, pure, EStateM.pure]
  | error e' =>
    show EStateM.Result.error e' s = .error e t ↔ _
    simp

@[simp] theorem pure_eq_error : (pure a : EStateM ε σ α) s = .error e t ↔ False := by
  change EStateM.Result.ok a s = .error e t ↔ _
  simp

theorem zoom_eq_ok {τ : Type} {part : σ → τ} {put : τ → σ → σ} {act : EStateM ε τ α} :
    zoom part put act s = .ok a s' ↔ ∃ t, act (part s) = .ok a t ∧ s' = put t s := by
  unfold zoom
  cases act (part s) with
  | ok b t => simp [eq_comm]
  | error e t => simp

@[simp] theorem onError_eq_ok {act : EStateM ε σ α} {cleanup : EStateM ε σ Unit} :
    onError act cleanup s = .ok a s' ↔ act s = .ok a s' := by
  unfold onError
  cases act s with
  | ok b t => rfl
  | error e t => cases hc : cleanup t <;> simp [hc]

@[simp] theorem check_eq_ok {c : Bool} {b : Unit} : check c e = .ok b ↔ c = true := by
  cases c <;> simp [check]

theorem except_bind_eq_ok {b : β} : (x >>= f) = .ok b ↔ ∃ a, x = .ok a ∧ f a = .ok b := by
  cases x with
  | ok a => simp [bind, Except.bind]
  | error e => simp [bind, Except.bind]

theorem except_ok_bind (a : α) (f : α → Except ε β) : (Except.ok a >>= f) = f a := rfl

@[simp] theorem except_pure_eq_ok : (pure a : Except ε α) = .ok b ↔ a = b := by
  simp [pure, Except.pure]

@[simp] theorem except_throw_eq_ok : (throw e : Except ε α) = .ok b ↔ False := by
  simp [throw, throwThe, MonadExceptOf.throw]

theorem mapM_eq_ok {ys : List β} : xs.mapM f = .ok ys ↔ List.Forall₂ (fun x y => f x = .ok y) xs ys := by
  induction xs generalizing ys with
  | nil =>
    rw [List.mapM_nil, except_pure_eq_ok, List.forall₂_nil_left_iff]
    exact eq_comm
  | cons x xs ih =>
    simp only [List.mapM_cons, except_bind_eq_ok, except_pure_eq_ok, List.forall₂_cons_left_iff, ih]
    constructor
    · rintro ⟨y, hy, zs, hzs, rfl⟩
      exact ⟨y, zs, hy, hzs, rfl⟩
    · rintro ⟨y, zs, hy, hzs, rfl⟩
      exact ⟨y, hy, zs, hzs, rfl⟩

theorem mapM_eq_ok_map {g : α → β} {P : α → Prop} (h : ∀ x ∈ xs, ∀ y, f x = .ok y ↔ P x ∧ y = g x) {ys : List β} :
    xs.mapM f = .ok ys ↔ (∀ x ∈ xs, P x) ∧ ys = xs.map g := by
  induction xs generalizing ys with
  | nil =>
    rw [List.mapM_nil, except_pure_eq_ok, List.map_nil]
    simp [eq_comm]
  | cons x xs ih =>
    have ih := @ih fun x hx => h x (List.mem_cons_of_mem _ hx)
    simp only [List.mapM_cons, except_bind_eq_ok, h x List.mem_cons_self, ih, except_pure_eq_ok, List.forall_mem_cons,
      List.map_cons]
    constructor
    · intro ⟨y, ⟨hx, hy⟩, zs, ⟨hxs, hzs⟩, hys⟩
      exact ⟨⟨hx, hxs⟩, by rw [← hys, hy, hzs]⟩
    · intro ⟨⟨hx, hxs⟩, hys⟩
      exact ⟨_, ⟨hx, rfl⟩, _, ⟨hxs, rfl⟩, hys.symm⟩

/-- a computation that succeeds on every element succeeds on the list -/
theorem mapM_exists_ok {P : α → β → Prop} (h : ∀ x ∈ xs, ∃ y, f x = .ok y ∧ P x y) :
    ∃ ys, xs.mapM f = .ok ys ∧ List.Forall₂ P xs ys := by
  induction xs with
  | nil => exact ⟨[], rfl, List.Forall₂.nil⟩
  | cons x xs ih =>
    obtain ⟨y, hy, hP⟩ := h x (by simp)
    obtain ⟨ys, hys, hPs⟩ := ih fun z hz => h z (by simp [hz])
    refine ⟨y :: ys, ?_, List.Forall₂.cons hP hPs⟩
    rw [mapM_eq_ok] at hys ⊢
    exact List.Forall₂.cons hy hys

/-- a check that passes on every element passes on the list -/
theorem forM_eq_ok {f : α → Except ε PUnit} (h : ∀ x ∈ xs, f x = .ok ⟨⟩) : xs.forM f = .ok ⟨⟩ := by
  induction xs with
  | nil => rfl
  | cons x xs ih =>
    have hrest := ih fun y hy => h y (by simp [hy])
    show (f x >>= fun _ => xs.forM f) = .ok ⟨⟩
    rw [h x (by simp)]
    exact hrest

/-- a check that passes on the list passes on every element -/
theorem forM_mem {f : α → Except ε Unit} {u : Unit} (h : xs.forM f = .ok u) {x : α} (hx : x ∈ xs) : f x = .ok () := by
  induction xs with
  | nil => cases hx
  | cons y ys ih =>
    change (f y >>= fun _ => ys.forM f) = .ok u at h
    obtain ⟨_, hy, hys⟩ := except_bind_eq_ok.1 h
    rcases List.mem_cons.1 hx with rfl | hx
    · exact hy
    · exact ih hys hx

/-- **An invariant along a loop that succeeds** -/
theorem foldlM_invariant {f : σ → α → Except ε σ} {I : List α → σ → Prop}
    (hstep : ∀ done s x s', I done s → f s x = .ok s' → I (done ++ [x]) s') :
    ∀ {done : List α} {s s' : σ}, I done s → xs.foldlM f s = .ok s' → I (done ++ xs) s' := by
  induction xs with
  | nil =>
    intro done s s' hI h
    cases h
    simpa using hI
  | cons x xs ih =>
    intro done s s' hI h
    rw [List.foldlM_cons] at h
    obtain ⟨s₁, hx, hrest⟩ := except_bind_eq_ok.1 h
    simpa using ih (hstep done s x s₁ hI hx) hrest

/-- a loop whose turns all succeed -/
theorem foldlM_exists_ok {f : σ → α → Except ε σ} (h : ∀ s, ∀ x ∈ xs, ∃ t, f s x = .ok t) (s : σ) :
    ∃ t, xs.foldlM f s = .ok t := by
  induction xs generalizing s with
  | nil => exact ⟨s, rfl⟩
  | cons x xs ih =>
    obtain ⟨t, ht⟩ := h s x List.mem_cons_self
    obtain ⟨u, hu⟩ := ih (fun s y hy => h s y (List.mem_cons_of_mem _ hy)) t
    exact ⟨u, by rw [List.foldlM_cons, ht, except_ok_bind, hu]⟩

/-- a step that does what another one does where that one succeeds -/
theorem foldlM_ok_mono {f g : σ → α → Except ε σ} (h : ∀ s x t, f s x = .ok t → g s x = .ok t)
    (hfold : xs.foldlM f s = .ok t) : xs.foldlM g s = .ok t := by
  induction xs generalizing s with
  | nil => exact hfold
  | cons x xs ih =>
    rw [List.foldlM_cons] at hfold ⊢
    obtain ⟨s', hs', hrest⟩ := except_bind_eq_ok.1 hfold
    exact except_bind_eq_ok.2 ⟨s', h s x s' hs', ih hrest⟩

/-- **What a loop comes to**: every turn keeps the invariant or fails in a known way. -/
theorem foldlM_outcome {f : σ → α → Except ε σ} {I : List α → σ → Prop} {E : ε → Prop}
    (hstep : ∀ done x rest s, xs = done ++ x :: rest → I done s →
      (∃ s', f s x = .ok s' ∧ I (done ++ [x]) s') ∨ ∃ e, f s x = .error e ∧ E e) (hs : I [] s) :
    (∃ s', xs.foldlM f s = .ok s' ∧ I xs s') ∨ ∃ e, xs.foldlM f s = .error e ∧ E e := by
  have hrun : ∀ rest done s, xs = done ++ rest → I done s →
      (∃ s', rest.foldlM f s = .ok s' ∧ I xs s') ∨ ∃ e, rest.foldlM f s = .error e ∧ E e := by
    intro rest
    induction rest with
    | nil =>
      intro done s hxs hI
      rw [hxs, List.append_nil]
      exact .inl ⟨s, rfl, hI⟩
    | cons x rest ih =>
      intro done s hxs hI
      rw [List.foldlM_cons]
      rcases hstep done x rest s hxs hI with ⟨s', hs', hI'⟩ | ⟨e, he, hE⟩
      · rw [hs']
        exact ih (done ++ [x]) s' (by rw [hxs, List.append_assoc]; rfl) hI'
      · rw [he]
        exact .inr ⟨e, rfl, hE⟩
  exact hrun xs [] s rfl hs

/-- whatever a pure computation raises is of a kind -/
def Raises (P : ε → Prop) (x : Except ε α) : Prop := ∀ e, x = .error e → P e

theorem Raises.ok {P : ε → Prop} (a : α) : Raises P (.ok a : Except ε α) := fun _ h => by cases h

theorem Raises.error {P : ε → Prop} {e : ε} (h : P e) : Raises P (.error e : Except ε α) := fun _ he => by
  cases he
  exact h

theorem Raises.check {P : ε → Prop} {c : Bool} {e : ε} (h : P e) : Raises P (check c e) := by
  cases c with
  | true => exact Raises.ok ()
  | false => exact Raises.error h

theorem Raises.bind {P : ε → Prop} (hx : Raises P x) (hf : ∀ a, Raises P (f a)) : Raises P (x >>= f) := by
  intro e h
  cases x with
  | ok a => exact hf a e h
  | error e' =>
    cases h
    exact hx _ rfl

theorem Raises.bind_of_ok {P : ε → Prop} (hx : Raises P x) (hf : ∀ a, x = .ok a → Raises P (f a)) :
    Raises P (x >>= f) := by
  intro e h
  cases x with
  | ok a => exact hf a rfl e h
  | error e' =>
    cases h
    exact hx _ rfl

/-! ## Lists -/

theorem forall₂_mem_left {R : α → β → Prop} {ys : List β} (h : List.Forall₂ R xs ys) {x : α} (hx : x ∈ xs) :
    ∃ y ∈ ys, R x y := by
  induction h with
  | nil => cases hx
  | cons hxy _ ih =>
    rcases List.mem_cons.1 hx with rfl | hx
    · exact ⟨_, by simp, hxy⟩
    · obtain ⟨y, hy, hR⟩ := ih hx
      exact ⟨y, by simp [hy], hR⟩

theorem forall₂_mem_right {R : α → β → Prop} {ys : List β} (h : List.Forall₂ R xs ys) {y : β} (hy : y ∈ ys) :
    ∃ x ∈ xs, R x y := forall₂_mem_left h.flip hy

theorem mapM_congr_mem {g : α → Except ε β} (h : ∀ x ∈ xs, f x = g x) : xs.mapM f = xs.mapM g := by
  induction xs with
  | nil => rfl
  | cons x xs ih =>
    rw [List.mapM_cons, List.mapM_cons, h x (by simp), ih fun y hy => h y (by simp [hy])]

/-- rebuilding every element of a list changes nothing -/
theorem mapM_self {f : α → Except ε α} (h : ∀ x ∈ xs, f x = .ok x) : xs.mapM f = .ok xs := by
  rw [mapM_eq_ok, List.forall₂_same]
  exact h

theorem mapM_map_self {f : α → β} {g : β → Except ε α} (h : ∀ x ∈ xs, g (f x) = .ok x) :
    (xs.map f).mapM g = .ok xs := by
  rw [mapM_eq_ok, List.forall₂_map_left_iff, List.forall₂_same]
  exact h

/-- a list that is read has every element read -/
theorem mapM_map_mem {γ : Type} {f : α → β} {g : β → Except ε γ} {ys : List γ} (h : (xs.map f).mapM g = .ok ys) {x : α}
    (hx : x ∈ xs) : ∃ y, g (f x) = .ok y := by
  rw [mapM_eq_ok] at h
  obtain ⟨y, -, hy⟩ := forall₂_mem_left h (List.mem_map_of_mem hx)
  exact ⟨y, hy⟩

theorem mapM_eq_map {f : α → Except ε α} {ys : List α} (h : xs.mapM f = .ok ys) :
    ∃ g : α → α, ys = xs.map g ∧ ∀ x ∈ xs, f x = .ok (g x) := by
  have hall := mapM_eq_ok.1 h
  refine ⟨fun x => (f x).toOption.getD x, ?_, ?_⟩
  · clear h
    induction hall with
    | nil => rfl
    | cons hy _ ih =>
      rw [List.map_cons, ← ih, hy]
      rfl
  · intro x hx
    obtain ⟨y, -, hy⟩ := forall₂_mem_left hall hx
    simp only [hy, Except.toOption, Option.getD_some]

/-! ## What a computation leaves behind -/

/-- returning or raising, the state is related to the one before -/
structure Within (R : σ → σ → Prop) (x : EStateM ε σ α) : Prop where
  ok : ∀ {s a s'}, x s = .ok a s' → R s s'
  error : ∀ {s e s'}, x s = .error e s' → R s s'

/-- raising, the state is related to the one before -/
def FailsWithin (R : σ → σ → Prop) (x : EStateM ε σ α) : Prop := ∀ s e s', x s = .error e s' → R s s'

section Within

variable {R : σ → σ → Prop}

theorem Within.failsWithin {x : EStateM ε σ α} (hx : Within R x) : FailsWithin R x := fun _ _ _ => hx.error

variable {f : α → EStateM ε σ β}

theorem Within.bind [IsTrans σ R] {x : EStateM ε σ α} (hx : Within R x) (hf : ∀ a, Within R (f a)) :
    Within R (x >>= f) := by
  constructor
  · intro s b s' h
    obtain ⟨a, u, hxs, hfs⟩ := bind_eq_ok.1 h
    exact IsTrans.trans _ _ _ (hx.ok hxs) ((hf a).ok hfs)
  · intro s e s' h
    rcases bind_eq_error.1 h with hxs | ⟨a, u, hxs, hfs⟩
    · exact hx.error hxs
    · exact IsTrans.trans _ _ _ (hx.ok hxs) ((hf a).error hfs)

theorem FailsWithin.bind [IsTrans σ R] {x : EStateM ε σ α} (hx : Within R x) (hf : ∀ a, FailsWithin R (f a)) :
    FailsWithin R (x >>= f) := by
  intro s e s' h
  rcases bind_eq_error.1 h with hxs | ⟨a, u, hxs, hfs⟩
  · exact hx.error hxs
  · exact IsTrans.trans _ _ _ (hx.ok hxs) (hf a _ _ _ hfs)

theorem Within.zoom {τ : Type} {part : σ → τ} {put : τ → σ → σ} (hput : ∀ t s, R s (put t s)) (act : EStateM ε τ α) :
    Within R (zoom part put act) := by
  constructor
  · intro s a s' h
    obtain ⟨t, -, rfl⟩ := zoom_eq_ok.1 h
    exact hput t s
  · intro s e s' h
    unfold Exec.zoom at h
    cases hact : act (part s) with
    | ok a t => simp [hact] at h
    | error e' t =>
      simp only [hact, EStateM.Result.error.injEq] at h
      exact h.2 ▸ hput t s

theorem FailsWithin.onError [IsTrans σ R] {act : EStateM ε σ α} {cleanup : EStateM ε σ Unit} (hact : FailsWithin R act)
    (hclean : Within R cleanup) : FailsWithin R (onError act cleanup) := by
  intro s e s' h
  unfold Exec.onError at h
  cases ha : act s with
  | ok a t => simp [ha] at h
  | error e' t =>
    cases hc : cleanup t with
    | ok u v =>
      simp only [ha, hc, EStateM.Result.error.injEq] at h
      exact h.2 ▸ IsTrans.trans _ _ _ (hact _ _ _ ha) (hclean.ok hc)
    | error e'' v =>
      simp only [ha, hc, EStateM.Result.error.injEq] at h
      exact h.2 ▸ IsTrans.trans _ _ _ (hact _ _ _ ha) (hclean.error hc)

theorem Within.onError [IsTrans σ R] {act : EStateM ε σ α} {cleanup : EStateM ε σ Unit} (hact : Within R act)
    (hclean : Within R cleanup) : Within R (onError act cleanup) :=
  ⟨fun h => hact.ok (onError_eq_ok.1 h), fun h => FailsWithin.onError hact.failsWithin hclean _ _ _ h⟩

/-- a pure step that fails writes nothing, and one that succeeds hands its result on -/
theorem FailsWithin.raising_bind [Std.Refl R] {x : Except ε α} (hf : ∀ a, x = .ok a → FailsWithin R (f a)) :
    FailsWithin R (raising x >>= f) := by
  intro s e s' h
  rcases bind_eq_error.1 h with hx | ⟨a, u, hx, hfs⟩
  · rw [raising_eq_error] at hx
    exact hx.2 ▸ refl s
  · rw [raising_eq_ok] at hx
    obtain ⟨hx, rfl⟩ := hx
    exact hf a hx _ _ _ hfs

variable [Std.Refl R]

theorem Within.get : Within R (get : EStateM ε σ σ) := by
  constructor
  · intro s a s' h
    exact (get_eq_ok.1 h).2 ▸ refl s
  · intro s e s' h
    exact (get_eq_error.1 h).elim

theorem Within.pure (a : α) : Within R (pure a : EStateM ε σ α) := by
  constructor
  · intro s b s' h
    exact (pure_eq_ok.1 h).2 ▸ refl s
  · intro s e s' h
    cases h

theorem Within.throw (e : ε) : Within R (throw e : EStateM ε σ α) := by
  constructor
  · intro s b s' h
    exact (throw_eq_ok.1 h).elim
  · intro s e' s' h
    cases h
    exact refl s

theorem Within.raising (x : Except ε α) : Within R (raising x : EStateM ε σ α) := by
  cases x with
  | ok a => exact Within.pure a
  | error e => exact Within.throw e

theorem Within.guard (c : Bool) (e : ε) : Within R (guard c e : EStateM ε σ Unit) := by
  cases c with
  | true => exact Within.pure ()
  | false => exact Within.throw e

end Within

@[simp] theorem modify_eq_ok {f : σ → σ} {u : PUnit} : (modify f : EStateM ε σ PUnit) s = .ok u s' ↔ f s = s' := by
  change EStateM.Result.ok _ (f s) = .ok u s' ↔ _
  simp

@[simp] theorem modify_eq_error {f : σ → σ} : (modify f : EStateM ε σ PUnit) s = .error e s' ↔ False := by
  change EStateM.Result.ok _ (f s) = .error e s' ↔ _
  simp

end Apar.Exec
