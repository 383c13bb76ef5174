/-
Calls that share a state and are interleaved step by step. A library: nothing here is about payments.

A program is a `start` state for the arguments of a call and a `step` of a call on the shared state, given an input of
its environment (a random token, the outcome of a system call). A world is the shared state and the local states of all
calls begun so far. A run begins calls and lets them take steps, in any order; a call may stop for ever at any point.

- `Outline.Valid.run`: a proof outline (an assertion about the shared state, one about each call, one about each two
  calls) that every step keeps holds in every world of every run.
- `Calls.run_rel`: a transitive relation that every step keeps relates the shared states of a run.
- `run_progress`: a call whose measure each of its steps lowers is done after as many steps.
- `total_run_pos`: tokens that steps hand over but do not destroy.
-/
import Mathlib.Tactic

namespace Apar

/-- the atomic steps of calls of type `L` on a shared state `S`; a step knows the number of its call -/
structure Calls (S L A I : Type) where
  start : A → L
  step : ℕ → I → S → L → S × L

namespace Calls

structure World (S L : Type) where
  shared : S
  calls : List L

inductive Action (A I : Type) where
  | call (args : A)
  | step (i : ℕ) (input : I)

variable {S L A I : Type} (c : Calls S L A I)

def act (w : World S L) : Action A I → World S L
  | .call args => { w with calls := w.calls ++ [c.start args] }
  | .step i input =>
    match w.calls[i]? with
    | none => w
    | some l => ⟨(c.step i input w.shared l).1, w.calls.set i (c.step i input w.shared l).2⟩

def run (w : World S L) (actions : List (Action A I)) : World S L := actions.foldl c.act w

@[simp] theorem run_nil (w : World S L) : c.run w [] = w := rfl

@[simp] theorem run_cons (w : World S L) (a : Action A I) (actions : List (Action A I)) :
    c.run w (a :: actions) = c.run (c.act w a) actions := rfl

theorem act_cases (w : World S L) (a : Action A I) :
    c.act w a = w ∨ (∃ args, a = .call args ∧ c.act w a = ⟨w.shared, w.calls ++ [c.start args]⟩) ∨
    ∃ i input l, a = .step i input ∧ w.calls[i]? = some l ∧
      c.act w a = ⟨(c.step i input w.shared l).1, w.calls.set i (c.step i input w.shared l).2⟩ := by
  cases a with
  | call args => exact Or.inr (Or.inl ⟨args, rfl, rfl⟩)
  | step i input =>
    cases hl : w.calls[i]? with
    | none => exact Or.inl (by rw [act, hl])
    | some l => exact Or.inr (Or.inr ⟨i, input, l, rfl, hl, by rw [act, hl]⟩)

theorem run_invariant {P : World S L → Prop} (hact : ∀ w a, P w → P (c.act w a)) {w : World S L} (h : P w)
    (actions : List (Action A I)) : P (c.run w actions) := by
  induction actions generalizing w with
  | nil => exact h
  | cons a actions ih => exact ih (hact w a h)

/-! ## Proof outlines -/

/-- the local state of a call after another call took a step, or after it took one itself -/
theorem getElem?_set_cases {calls : List L} {i j : ℕ} {l m : L} (h : (calls.set i l)[j]? = some m) :
    (i = j ∧ m = l) ∨ (i ≠ j ∧ calls[j]? = some m) := by
  rw [List.getElem?_set] at h
  split_ifs at h with hij hlt
  · exact Or.inl ⟨hij, (Option.some.inj h).symm⟩
  · exact Or.inr ⟨hij, h⟩

theorem getElem?_append_cases {calls : List L} {j : ℕ} {l m : L} (h : (calls ++ [l])[j]? = some m) :
    (j = calls.length ∧ m = l) ∨ calls[j]? = some m := by
  rcases lt_trichotomy j calls.length with hlt | rfl | hgt
  · exact Or.inr (by rwa [List.getElem?_append_left hlt] at h)
  · rw [List.getElem?_append_right le_rfl, Nat.sub_self] at h
    exact Or.inl ⟨rfl, (Option.some.inj h).symm⟩
  · rw [List.getElem?_eq_none (by simp; omega)] at h
    cases h

/-- assertions about the shared state, each call, and each two calls -/
structure Outline (S L : Type) where
  shared : S → Prop
  call : S → ℕ → L → Prop
  pair : S → L → L → Prop

namespace Outline

structure Holds (o : Outline S L) (w : World S L) : Prop where
  shared : o.shared w.shared
  call : ∀ {i : ℕ} {l : L}, w.calls[i]? = some l → o.call w.shared i l
  pair : ∀ {i j : ℕ} {l m : L}, i ≠ j → w.calls[i]? = some l → w.calls[j]? = some m → o.pair w.shared l m

/-- every step of a call keeps the assertions about the call itself, the others, and two others -/
structure Valid (o : Outline S L) (c : Calls S L A I) : Prop where
  start : ∀ s i args, o.shared s → o.call s i (c.start args)
  startPair : ∀ s args l, o.pair s (c.start args) l ∧ o.pair s l (c.start args)
  own : ∀ i input s l, o.shared s → o.call s i l →
    o.shared (c.step i input s l).1 ∧ o.call (c.step i input s l).1 i (c.step i input s l).2
  other : ∀ i input s l j m, o.shared s → o.call s i l → o.call s j m → i ≠ j → o.pair s l m → o.pair s m l →
    o.call (c.step i input s l).1 j m ∧ o.pair (c.step i input s l).1 (c.step i input s l).2 m ∧
      o.pair (c.step i input s l).1 m (c.step i input s l).2
  others : ∀ i input s l m n, o.shared s → o.call s i l → o.pair s m n → o.pair (c.step i input s l).1 m n

variable {c}

theorem Valid.act {o : Outline S L} (hv : o.Valid c) {w : World S L} (h : o.Holds w) (a : Action A I) :
    o.Holds (c.act w a) := by
  rcases c.act_cases w a with heq | ⟨args, _, heq⟩ | ⟨i, input, l, _, hl, heq⟩
  · rwa [heq]
  · rw [heq]
    refine ⟨h.shared, fun {j m} hm => ?_, fun {j k m n} hjk hm hn => ?_⟩
    · rcases getElem?_append_cases hm with ⟨_, rfl⟩ | hm'
      · exact hv.start _ _ _ h.shared
      · exact h.call hm'
    · rcases getElem?_append_cases hm with ⟨_, rfl⟩ | hm'
      · exact (hv.startPair _ _ _).1
      · rcases getElem?_append_cases hn with ⟨_, rfl⟩ | hn'
        · exact (hv.startPair _ _ _).2
        · exact h.pair hjk hm' hn'
  · rw [heq]
    have hcall := h.call hl
    have hown := hv.own i input w.shared l h.shared hcall
    have hother := fun {j : ℕ} {m : L} (hij : i ≠ j) (hm : w.calls[j]? = some m) =>
      hv.other i input w.shared l j m h.shared hcall (h.call hm) hij (h.pair hij hl hm) (h.pair hij.symm hm hl)
    refine ⟨hown.1, fun {j m} hm => ?_, fun {j k m n} hjk hm hn => ?_⟩
    · rcases getElem?_set_cases hm with ⟨rfl, rfl⟩ | ⟨hij, hm'⟩
      · exact hown.2
      · exact (hother hij hm').1
    · rcases getElem?_set_cases hm with ⟨rfl, rfl⟩ | ⟨hij, hm'⟩
      · rcases getElem?_set_cases hn with ⟨rfl, _⟩ | ⟨hik, hn'⟩
        · exact absurd rfl hjk
        · exact (hother hik hn').2.1
      · rcases getElem?_set_cases hn with ⟨rfl, rfl⟩ | ⟨hik, hn'⟩
        · exact (hother hij hm').2.2
        · exact hv.others i input w.shared l m n h.shared hcall (h.pair hjk hm' hn')

/-- **A valid outline holds in every run.** -/
theorem Valid.run {o : Outline S L} (hv : o.Valid c) {w : World S L} (h : o.Holds w) (actions : List (Action A I)) :
    o.Holds (c.run w actions) :=
  c.run_invariant (P := o.Holds) (fun _ a hw => hv.act hw a) h actions

end Outline

theorem run_rel {o : Outline S L} (hv : o.Valid c) {R : S → S → Prop} (hrefl : ∀ s, R s s)
    (htrans : ∀ {s t u}, R s t → R t u → R s u)
    (hstep : ∀ i input s l, o.shared s → o.call s i l → R s (c.step i input s l).1) {w : World S L} (h : o.Holds w)
    (actions : List (Action A I)) : R w.shared (c.run w actions).shared := by
  induction actions generalizing w with
  | nil => exact hrefl _
  | cons a actions ih =>
    refine htrans ?_ (ih (hv.act h a))
    rcases c.act_cases w a with heq | ⟨args, _, heq⟩ | ⟨i, input, l, _, hl, heq⟩
    · rw [heq]
      exact hrefl _
    · rw [heq]
      exact hrefl _
    · rw [heq]
      exact hstep i input w.shared l h.shared (h.call hl)

/-! ## Progress -/

/-- the inputs of the steps that a run gives to a call -/
def inputs (i : ℕ) (actions : List (Action A I)) : List I :=
  actions.filterMap fun
    | .call _ => none
    | .step j input => if i = j then some input else none

theorem inputs_step (i j : ℕ) (input : I) (actions : List (Action A I)) :
    inputs i (.step j input :: actions) = if i = j then input :: inputs i actions else inputs i actions := by
  rw [inputs, List.filterMap_cons]
  dsimp only
  split_ifs <;> rfl

/-- **Progress of one call.** Its own steps, on inputs that are `fair`, lower a measure down to zero and keep an assertion
that the steps of the others keep as well. -/
theorem run_progress {o : Outline S L} (hv : o.Valid c) {i : ℕ} (fair : I → Prop) (P : S → L → Prop) (left : L → ℕ)
    (hown : ∀ input s l, fair input → o.shared s → o.call s i l → P s l →
      P (c.step i input s l).1 (c.step i input s l).2 ∧ left (c.step i input s l).2 ≤ left l - 1)
    (hother : ∀ j input s k l, o.shared s → o.call s j k → P s l → P (c.step j input s k).1 l)
    {w : World S L} (h : o.Holds w) {l : L} (hl : w.calls[i]? = some l) (hP : P w.shared l) (actions : List (Action A I))
    (hfair : ∀ input ∈ inputs i actions, fair input) :
    ∃ l', (c.run w actions).calls[i]? = some l' ∧ P (c.run w actions).shared l' ∧
      left l' ≤ left l - (inputs i actions).length := by
  induction actions generalizing w l with
  | nil => exact ⟨l, hl, hP, le_rfl⟩
  | cons a actions ih =>
    have hnext := hv.act h a
    cases a with
    | call args =>
      have hlt : i < w.calls.length := (List.getElem?_eq_some_iff.1 hl).1
      refine ih hnext ?_ hP hfair
      show (w.calls ++ [c.start args])[i]? = some l
      rwa [List.getElem?_append_left hlt]
    | step j input =>
      cases hk : w.calls[j]? with
      | none =>
        have hij : i ≠ j := by
          rintro rfl
          rw [hk] at hl
          cases hl
        have hact : c.act w (.step j input) = w := by rw [act, hk]
        rw [inputs_step, if_neg hij] at hfair ⊢
        rw [run_cons, hact]
        exact ih h hl hP hfair
      | some k =>
        have hact : c.act w (.step j input) = ⟨(c.step j input w.shared k).1, w.calls.set j (c.step j input w.shared k).2⟩ := by
          rw [act, hk]
        rw [hact] at hnext
        rw [run_cons, hact]
        by_cases hij : i = j
        · subst hij
          obtain rfl := Option.some.inj (hk.symm.trans hl)
          rw [inputs_step, if_pos rfl] at hfair ⊢
          have hstep := hown input w.shared k (hfair input List.mem_cons_self) h.shared (h.call hl) hP
          have hlt : i < w.calls.length := (List.getElem?_eq_some_iff.1 hl).1
          rcases ih hnext (List.getElem?_set_self hlt) hstep.1 (fun x hx => hfair x (List.mem_cons_of_mem _ hx)) with
            ⟨l', hl', hP', hle⟩
          refine ⟨l', hl', hP', hle.trans ?_⟩
          rw [List.length_cons]
          omega
        · rw [inputs_step, if_neg hij] at hfair ⊢
          refine ih hnext ?_ (hother j input w.shared k l h.shared (h.call hk) hP) hfair
          show (w.calls.set j _)[i]? = some l
          rwa [List.getElem?_set_ne (Ne.symm hij)]

/-! ## Tokens -/

/-- the tokens of a world: those that are free and those that calls hold -/
def total (free : S → ℕ) (held : L → ℕ) (w : World S L) : ℕ := free w.shared + (w.calls.map held).sum

variable {c} {free : S → ℕ} {held : L → ℕ}

theorem sum_set {calls : List L} {i : ℕ} {l : L} (h : calls[i]? = some l) (l' : L) :
    ((calls.set i l').map held).sum + held l = (calls.map held).sum + held l' := by
  induction calls generalizing i with
  | nil => cases h
  | cons x calls ih =>
    cases i with
    | zero =>
      cases Option.some.inj h
      simp only [List.set_cons_zero, List.map_cons, List.sum_cons]
      omega
    | succ i =>
      have := ih (i := i) h
      simp only [List.set_cons_succ, List.map_cons, List.sum_cons]
      omega

theorem held_le_sum {calls : List L} {i : ℕ} {l : L} (h : calls[i]? = some l) : held l ≤ (calls.map held).sum :=
  List.le_sum_of_mem (List.mem_map_of_mem (List.mem_of_getElem? h))

theorem total_act (hstart : ∀ args, held (c.start args) = 0) (w : World S L) (a : Action A I) :
    total free held (c.act w a) = total free held w ∨
    ∃ i input l, w.calls[i]? = some l ∧ total free held (c.act w a) + (free w.shared + held l) =
      total free held w + (free (c.step i input w.shared l).1 + held (c.step i input w.shared l).2) := by
  rcases c.act_cases w a with heq | ⟨args, _, heq⟩ | ⟨i, input, l, _, hl, heq⟩
  · exact Or.inl (by rw [heq])
  · left
    rw [heq]
    simp [total, hstart]
  · right
    refine ⟨i, input, l, hl, ?_⟩
    have hset : _ + held l = _ + held _ := sum_set hl (c.step i input w.shared l).2
    rw [heq]
    simp only [total]
    omega

/-- **Steps that destroy no last token.** -/
theorem total_run_pos {o : Outline S L} (hv : o.Valid c) (hstart : ∀ args, held (c.start args) = 0)
    (hstep : ∀ i input s l, o.shared s → o.call s i l → 0 < free s + held l →
      0 < free (c.step i input s l).1 + held (c.step i input s l).2)
    {w : World S L} (hw : o.Holds w) (h : 0 < total free held w) (actions : List (Action A I)) :
    0 < total free held (c.run w actions) := by
  refine (c.run_invariant (P := fun w' => o.Holds w' ∧ 0 < total free held w') (fun w' a h => ⟨hv.act h.1 a, ?_⟩) ⟨hw, h⟩
    actions).2
  rcases total_act hstart w' a with heq | ⟨i, input, l, hl, heq⟩
  · rw [heq]
    exact h.2
  · have hstep' := hstep i input w'.shared l h.1.shared (h.1.call hl)
    have hle : free w'.shared + held l ≤ total free held w' := Nat.add_le_add_left (held_le_sum hl) _
    have := h.2
    omega

end Calls

end Apar
