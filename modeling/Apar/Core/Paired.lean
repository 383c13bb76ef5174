/-
Lists paired element by element, each in an order of its own. A library: nothing here is about payments.

`Paired ps xs ys` says that `xs` and `ys` are the two sides of some of the pairs `ps`. Two runs over the same data under
different names hold paired lists, and what a run reads off a list without looking at names or order is the same on
both sides.

- `Paired.filter`: selections that agree on every pair keep lists paired.
- `Paired.map_perm`: what the two sides show alike is the same multiset.
- `Paired.card_map`: a renaming that is injective on the pairs keeps the number of distinct names.
- `Paired.mem_iff`: over distinct elements, paired lists hold the same pairs.
-/
import Apar.Core.Exec

namespace Apar

variable {α β γ κ : Type}

/-- two lists are the two sides of some of the pairs, each in any order -/
def Paired (ps : List (α × β)) (xs : List α) (ys : List β) : Prop :=
  ∃ qs : List (α × β), (∀ q ∈ qs, q ∈ ps) ∧ xs.Perm (qs.map Prod.fst) ∧ ys.Perm (qs.map Prod.snd)

theorem max?_of_perm [LinearOrder γ] {xs ys : List γ} (h : xs.Perm ys) : xs.max? = ys.max? := by
  cases hy : ys.max? with
  | none =>
    rw [List.max?_eq_none_iff] at hy ⊢
    subst hy
    exact h.eq_nil
  | some m =>
    rw [List.max?_eq_some_iff] at hy ⊢
    exact ⟨h.mem_iff.2 hy.1, fun b hb => hy.2 b (h.mem_iff.1 hb)⟩

theorem min?_of_perm [LinearOrder γ] {xs ys : List γ} (h : xs.Perm ys) : xs.min? = ys.min? := by
  cases hy : ys.min? with
  | none =>
    rw [List.min?_eq_none_iff] at hy ⊢
    subst hy
    exact h.eq_nil
  | some m =>
    rw [List.min?_eq_some_iff] at hy ⊢
    exact ⟨h.mem_iff.2 hy.1, fun b hb => hy.2 b (h.mem_iff.1 hb)⟩

/-- what every element gives, in whatever order they are asked -/
theorem mapM_of_perm {f : α → Option β} {xs ys : List α} (h : xs.Perm ys) {us : List β} (hx : xs.mapM f = some us) :
    ∃ vs, ys.mapM f = some vs ∧ us.Perm vs := by
  induction h generalizing us with
  | nil => exact ⟨us, hx, .refl _⟩
  | cons x _ ih =>
    simp only [List.mapM_cons, Option.bind_eq_bind, Option.bind_eq_some_iff, Option.pure_def, Option.some.injEq] at hx ⊢
    obtain ⟨u, hu, us', hus', rfl⟩ := hx
    obtain ⟨vs, hvs, hperm⟩ := ih hus'
    exact ⟨u :: vs, ⟨u, hu, vs, hvs, rfl⟩, hperm.cons u⟩
  | swap x y l =>
    simp only [List.mapM_cons, Option.bind_eq_bind, Option.bind_eq_some_iff, Option.pure_def, Option.some.injEq] at hx ⊢
    obtain ⟨u, hu, _, ⟨v, hv, us', hus', rfl⟩, rfl⟩ := hx
    exact ⟨v :: u :: us', ⟨v, hv, _, ⟨u, hu, us', hus', rfl⟩, rfl⟩, .swap _ _ _⟩
  | trans _ _ ih₁ ih₂ =>
    obtain ⟨vs, hvs, hperm⟩ := ih₁ hx
    obtain ⟨ws, hws, hperm'⟩ := ih₂ hvs
    exact ⟨ws, hws, hperm.trans hperm'⟩

namespace Paired

variable {ps : List (α × β)} {xs : List α} {ys : List β}

theorem sides : Paired ps (ps.map Prod.fst) (ps.map Prod.snd) := ⟨ps, fun _ h => h, .refl _, .refl _⟩

theorem of_perm {xs' : List α} {ys' : List β} (h : Paired ps xs ys) (hx : xs'.Perm xs) (hy : ys'.Perm ys) :
    Paired ps xs' ys' := by
  obtain ⟨qs, hqs, hfst, hsnd⟩ := h
  exact ⟨qs, hqs, hx.trans hfst, hy.trans hsnd⟩

theorem filter (h : Paired ps xs ys) {p : α → Bool} {q : β → Bool} (hpq : ∀ r ∈ ps, p r.1 = q r.2) :
    Paired ps (xs.filter p) (ys.filter q) := by
  obtain ⟨qs, hqs, hfst, hsnd⟩ := h
  refine ⟨qs.filter fun r => p r.1, fun r hr => hqs r (List.mem_of_mem_filter hr), ?_, ?_⟩
  · have := hfst.filter p
    rwa [List.filter_map] at this
  · have hsame : qs.filter (fun r => p r.1) = qs.filter (q ∘ Prod.snd) :=
      List.filter_congr fun r hr => hpq r (hqs r hr)
    have := hsnd.filter q
    rwa [List.filter_map, ← hsame] at this

theorem length_eq (h : Paired ps xs ys) : ys.length = xs.length := by
  obtain ⟨qs, -, hfst, hsnd⟩ := h
  rw [hfst.length_eq, hsnd.length_eq, List.length_map, List.length_map]

/-- what the two sides show alike is the same up to order -/
theorem map_perm (h : Paired ps xs ys) {f : α → γ} {g : β → γ} (hfg : ∀ r ∈ ps, f r.1 = g r.2) :
    (ys.map g).Perm (xs.map f) := by
  obtain ⟨qs, hqs, hfst, hsnd⟩ := h
  have hsame : (qs.map Prod.snd).map g = (qs.map Prod.fst).map f := by
    rw [List.map_map, List.map_map]
    exact List.map_congr_left fun r hr => (hfg r (hqs r hr)).symm
  exact (hsnd.map g).trans (hsame ▸ (hfst.map f).symm)

theorem mem_left (h : Paired ps xs ys) {x : α} (hx : x ∈ xs) : ∃ r ∈ ps, r.1 = x := by
  obtain ⟨qs, hqs, hfst, -⟩ := h
  obtain ⟨r, hr, rfl⟩ := List.mem_map.1 (hfst.mem_iff.1 hx)
  exact ⟨r, hqs r hr, rfl⟩

theorem mem_right (h : Paired ps xs ys) {y : β} (hy : y ∈ ys) : ∃ r ∈ ps, r.2 = y := by
  obtain ⟨qs, hqs, -, hsnd⟩ := h
  obtain ⟨r, hr, rfl⟩ := List.mem_map.1 (hsnd.mem_iff.1 hy)
  exact ⟨r, hqs r hr, rfl⟩

/-- over distinct elements, paired lists hold the same pairs -/
theorem mem_iff (h : Paired ps xs ys) (hleft : (ps.map Prod.fst).Nodup) (hright : (ps.map Prod.snd).Nodup)
    {r : α × β} (hr : r ∈ ps) : r.1 ∈ xs ↔ r.2 ∈ ys := by
  obtain ⟨qs, hqs, hfst, hsnd⟩ := h
  rw [hfst.mem_iff, hsnd.mem_iff, List.mem_map, List.mem_map]
  constructor
  · rintro ⟨q, hq, heq⟩
    exact ⟨q, hq, by rw [List.inj_on_of_nodup_map hleft (hqs q hq) hr heq]⟩
  · rintro ⟨q, hq, heq⟩
    exact ⟨q, hq, by rw [List.inj_on_of_nodup_map hright (hqs q hq) hr heq]⟩

/-- the names on one side are the renamed names of the other -/
theorem toFinset_map [DecidableEq κ] (h : Paired ps xs ys) {f : α → κ} {g : β → κ} {ν : κ → κ}
    (hν : ∀ r ∈ ps, g r.2 = ν (f r.1)) : (ys.map g).toFinset = (xs.map f).toFinset.image ν := by
  have hperm := h.map_perm (f := fun x => ν (f x)) (g := g) fun r hr => (hν r hr).symm
  rw [List.toFinset_eq_of_perm _ _ hperm]
  ext k
  simp

/-- an injective renaming keeps the number of distinct names -/
theorem card_map [DecidableEq κ] (h : Paired ps xs ys) {f : α → κ} {g : β → κ} {ν : κ → κ} {names : Set κ}
    (hν : ∀ r ∈ ps, g r.2 = ν (f r.1)) (hnames : ∀ r ∈ ps, f r.1 ∈ names) (hinj : Set.InjOn ν names) :
    (ys.map g).toFinset.card = (xs.map f).toFinset.card := by
  rw [h.toFinset_map hν]
  refine Finset.card_image_of_injOn (hinj.mono ?_)
  intro k hk
  obtain ⟨x, hx, rfl⟩ := List.mem_map.1 (List.mem_toFinset.1 hk)
  obtain ⟨r, hr, rfl⟩ := h.mem_left hx
  exact hnames r hr

end Paired

end Apar
