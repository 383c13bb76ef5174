/-
JSON trees: induction, sorting of dict items, equality up to the order of items. A library: nothing here is about
payments.

- `JsonTree.all_list`, `all_dict`: a property of every node, one level at a time.
- `sorted_sorted`, `all_sorted`: sorting is idempotent and keeps what does not depend on the order of items.
- `sorted_equal`: a tree with distinct keys equals its sorted form; `Equal.symm`, `Equal.trans`.
-/
import Apar.Core.JsonText

namespace Apar

namespace JsonTree

variable {F : Type}

/-- induction over a tree, the parts of a container by membership -/
@[elab_as_elim] theorem induct {P : JsonTree F → Prop} (null : P .null) (bool : ∀ b, P (.bool b)) (int : ∀ n, P (.int n))
    (float : ∀ x, P (.float x)) (str : ∀ s, P (.str s)) (list : ∀ xs, (∀ x ∈ xs, P x) → P (.list xs))
    (dict : ∀ items, (∀ p ∈ items, P p.2) → P (.dict items)) : ∀ t, P t
  | .null => null
  | .bool b => bool b
  | .int n => int n
  | .float x => float x
  | .str s => str s
  | .list xs => list xs fun x _ => induct null bool int float str list dict x
  | .dict items => dict items fun p hp => by
    have : sizeOf p.2 < sizeOf items := by
      have := List.sizeOf_lt_of_mem hp
      obtain ⟨k, x⟩ := p
      simp only [Prod.mk.sizeOf_spec] at this ⊢
      omega
    exact induct null bool int float str list dict p.2

/-! ## Properties of every node -/

theorem all_congr_mem {α : Type} {f g : α → Bool} {xs : List α} (h : ∀ x ∈ xs, f x = g x) : xs.all f = xs.all g := by
  rw [Bool.eq_iff_iff, List.all_eq_true, List.all_eq_true]
  exact forall₂_congr fun x hx => by rw [h x hx]

theorem allElems_eq (p : JsonTree F → Bool) (xs : List (JsonTree F)) : allElems p xs = xs.all (all p) := by
  induction xs with
  | nil => rw [allElems, List.all_nil]
  | cons x xs ih => rw [allElems, List.all_cons, ih]

theorem allItems_eq (p : JsonTree F → Bool) (items : List (PyStr × JsonTree F)) :
    allItems p items = items.all fun i => all p i.2 := by
  induction items with
  | nil => rw [allItems, List.all_nil]
  | cons i items ih => rw [allItems, List.all_cons, ih]

@[simp] theorem all_list (p : JsonTree F → Bool) (xs : List (JsonTree F)) :
    all p (.list xs) = (p (.list xs) && xs.all (all p)) := by
  rw [all, allElems_eq]

@[simp] theorem all_dict (p : JsonTree F → Bool) (items : List (PyStr × JsonTree F)) :
    all p (.dict items) = (p (.dict items) && items.all fun i => all p i.2) := by
  rw [all, allItems_eq]

@[simp] theorem all_null (p : JsonTree F → Bool) : all p .null = p .null := by simp [all]

@[simp] theorem all_bool (p : JsonTree F → Bool) (b : Bool) : all p (.bool b) = p (.bool b) := by simp [all]

@[simp] theorem all_int (p : JsonTree F → Bool) (n : ℤ) : all p (.int n) = p (.int n) := by simp [all]

@[simp] theorem all_float (p : JsonTree F → Bool) (x : F) : all p (.float x) = p (.float x) := by simp [all]

@[simp] theorem all_str (p : JsonTree F → Bool) (s : PyStr) : all p (.str s) = p (.str s) := by simp [all]

/-! ## Sorting -/

theorem sortedElems_eq (xs : List (JsonTree F)) : sortedElems xs = xs.map sorted := by
  induction xs with
  | nil => rw [sortedElems, List.map_nil]
  | cons x xs ih => rw [sortedElems, List.map_cons, ih]

theorem sortedItems_eq (items : List (PyStr × JsonTree F)) : sortedItems items = items.map fun i => (i.1, sorted i.2) := by
  induction items with
  | nil => rw [sortedItems, List.map_nil]
  | cons i items ih => rw [sortedItems, List.map_cons, ih]

@[simp] theorem sorted_list (xs : List (JsonTree F)) : sorted (.list xs) = .list (xs.map sorted) := by
  rw [sorted, sortedElems_eq]

@[simp] theorem sorted_dict (items : List (PyStr × JsonTree F)) :
    sorted (.dict items) = .dict (sortBy Prod.fst (items.map fun i => (i.1, sorted i.2))) := by
  rw [sorted, sortedItems_eq]

/-- sorting twice is sorting once -/
@[simp] theorem sorted_sorted (t : JsonTree F) : t.sorted.sorted = t.sorted := by
  induction t using induct with
  | null | bool | int | float | str => simp [sorted]
  | list xs ih =>
    rw [sorted_list, sorted_list, List.map_map]
    congr 1
    exact List.map_congr_left ih
  | dict items ih =>
    rw [sorted_dict, sorted_dict]
    have hmap : (sortBy Prod.fst (items.map fun i => (i.1, sorted i.2))).map (fun i => (i.1, sorted i.2)) =
        sortBy Prod.fst (items.map fun i => (i.1, sorted i.2)) := by
      refine (List.map_congr_left ?_).trans (List.map_id _)
      intro i hi
      obtain ⟨j, hj, rfl⟩ := List.mem_map.1 ((mem_sortBy).1 hi)
      simp only [id_eq, ih j hj]
    rw [hmap, sortBy_of_sorted (sortBy_sorted _ _)]

/-- sorting keeps a property of nodes that does not depend on the order of items or on what is below them -/
theorem all_sorted {p : JsonTree F → Bool} (hlist : ∀ xs ys, p (.list xs) = p (.list ys))
    (hdict : ∀ items items' : List (PyStr × JsonTree F), (items.map Prod.fst).Perm (items'.map Prod.fst) →
      p (.dict items) = p (.dict items'))
    (t : JsonTree F) : all p t.sorted = all p t := by
  induction t using induct with
  | null | bool | int | float | str => simp [sorted]
  | list xs ih =>
    rw [sorted_list, all_list, all_list, hlist (xs.map sorted) xs, List.all_map]
    congr 1
    exact all_congr_mem ih
  | dict items ih =>
    have hperm := sortBy_perm Prod.fst (items.map fun i : PyStr × JsonTree F => (i.1, sorted i.2))
    have hkeys : ((sortBy Prod.fst (items.map fun i => (i.1, sorted i.2))).map Prod.fst).Perm (items.map Prod.fst) := by
      have := hperm.map Prod.fst
      rwa [List.map_map] at this
    rw [sorted_dict, all_dict, all_dict, hdict _ items hkeys, hperm.all_eq, List.all_map]
    congr 1
    exact all_congr_mem ih

theorem distinctKeys_sorted (t : JsonTree F) : t.sorted.distinctKeys = t.distinctKeys :=
  all_sorted (fun _ _ => rfl) (fun _ _ h => decide_eq_decide.2 h.nodup_iff) t

theorem intsFit_sorted (limit : Option ℕ) (t : JsonTree F) : t.sorted.intsFit limit = t.intsFit limit :=
  all_sorted (fun _ _ => rfl) (fun _ _ _ => rfl) t

/-- a property of every float of the tree -/
def floats (p : F → Bool) : JsonTree F → Bool :=
  all fun
    | .float x => p x
    | _ => true

theorem floats_sorted (p : F → Bool) (t : JsonTree F) : t.sorted.floats p = t.floats p :=
  all_sorted (fun _ _ => rfl) (fun _ _ _ => rfl) t

/-- a property of every string of the tree, key or value -/
def strings (p : PyStr → Bool) : JsonTree F → Bool :=
  all fun
    | .str s => p s
    | .dict items => items.all fun i => p i.1
    | _ => true

theorem strings_sorted (p : PyStr → Bool) (t : JsonTree F) : t.sorted.strings p = t.strings p := by
  refine all_sorted (fun _ _ => rfl) ?_ t
  intro items items' h
  have := h.all_eq (f := p)
  rwa [List.all_map, List.all_map] at this

/-! ## Spellings -/

/-- the text is the one under the ASCII spelling -/
theorem dumpWith_quote [FloatText F] (t : JsonTree F) : t.dumpWith JsonText.quote = t.dump := by
  have helems : ∀ xs : List (JsonTree F), (∀ x ∈ xs, x.dumpWith JsonText.quote = x.dump) →
      dumpElemsWith JsonText.quote xs = dumpElems xs := by
    intro xs h
    induction xs with
    | nil => rw [dumpElemsWith, dumpElems]
    | cons x xs ih => rw [dumpElemsWith, dumpElems, h x (by simp), ih fun y hy => h y (by simp [hy])]
  have hitems : ∀ items : List (PyStr × JsonTree F), (∀ i ∈ items, i.2.dumpWith JsonText.quote = i.2.dump) →
      dumpItemsWith JsonText.quote items = dumpItems items := by
    intro items h
    induction items with
    | nil => rw [dumpItemsWith, dumpItems]
    | cons i items ih => rw [dumpItemsWith, dumpItems, h i (by simp), ih fun j hj => h j (by simp [hj])]
  induction t using induct with
  | null => rw [dumpWith, dump]
  | bool b => cases b <;> rw [dumpWith, dump]
  | int n => rw [dumpWith, dump]
  | float x => rw [dumpWith, dump]
  | str s => rw [dumpWith, dump]
  | list xs ih =>
    cases xs with
    | nil => rw [dumpWith, dump]
    | cons x xs => rw [dumpWith, dump, ih x (by simp), helems xs fun y hy => ih y (by simp [hy])]
  | dict items ih =>
    cases items with
    | nil => rw [dumpWith, dump]
    | cons i items => rw [dumpWith, dump, ih i (by simp), hitems items fun j hj => ih j (by simp [hj])]

/-! ## Equality -/

theorem Equal.refl (t : JsonTree F) (h : t.distinctKeys) : Equal t t := by
  induction t using induct with
  | null => exact .null
  | bool b => exact .bool b
  | int n => exact .int n
  | float x => exact .float x
  | str s => exact .str s
  | list xs ih =>
    simp only [distinctKeys, all_list, Bool.true_and, List.all_eq_true] at h
    refine .list rfl ?_
    intro i x y hx hy
    have hmem := List.mem_of_getElem? hx
    rw [hx] at hy
    cases hy
    exact ih x hmem (h x hmem)
  | dict items ih =>
    simp only [distinctKeys, all_dict, Bool.and_eq_true, decide_eq_true_eq, List.all_eq_true] at h
    refine .dict (fun _ => Iff.rfl) ?_
    intro k x y hx hy
    have hxy : ((k, x) : PyStr × JsonTree F) = (k, y) := List.inj_on_of_nodup_map h.1 hx hy rfl
    cases hxy
    exact ih _ hx (h.2 _ hx)

theorem Equal.symm {a b : JsonTree F} (h : Equal a b) : Equal b a := by
  induction h with
  | null => exact .null
  | bool b => exact .bool b
  | int n => exact .int n
  | float x => exact .float x
  | str s => exact .str s
  | list hlen _ ih => exact .list hlen.symm fun i x y hx hy => ih i y x hy hx
  | dict hkeys _ ih => exact .dict (fun k => (hkeys k).symm) fun k x y hx hy => ih k y x hy hx

theorem Equal.trans {a b c : JsonTree F} (h : Equal a b) (h' : Equal b c) : Equal a c := by
  induction h generalizing c with
  | null | bool | int | float | str => exact h'
  | @list xs ys hlen _ ih =>
    cases h' with
    | list hlen' h' =>
      refine .list (hlen.trans hlen') ?_
      intro i x z hx hz
      have hi : i < ys.length := hlen ▸ (List.getElem?_eq_some_iff.1 hx).1
      exact ih i x _ hx (List.getElem?_eq_getElem hi) (h' i _ z (List.getElem?_eq_getElem hi) hz)
  | @dict xs ys hkeys _ ih =>
    cases h' with
    | dict hkeys' h' =>
      refine .dict (fun k => (hkeys k).trans (hkeys' k)) ?_
      intro k x z hx hz
      obtain ⟨⟨k', y⟩, hy, rfl⟩ := List.mem_map.1 ((hkeys k).1 (List.mem_map.2 ⟨_, hx, rfl⟩))
      exact ih _ x y hx hy (h' _ y z hy hz)

/-- **A tree equals its sorted form.** -/
theorem sorted_equal (t : JsonTree F) (h : t.distinctKeys) : Equal t.sorted t := by
  induction t using induct with
  | null | bool | int | float | str =>
    simp only [sorted]
    exact .refl _ h
  | list xs ih =>
    simp only [distinctKeys, all_list, Bool.true_and, List.all_eq_true] at h
    rw [sorted_list]
    refine .list (by rw [List.length_map]) ?_
    intro i x y hx hy
    rw [List.getElem?_map, hy] at hx
    cases hx
    exact ih y (List.mem_of_getElem? hy) (h y (List.mem_of_getElem? hy))
  | dict items ih =>
    simp only [distinctKeys, all_dict, Bool.and_eq_true, decide_eq_true_eq, List.all_eq_true] at h
    rw [sorted_dict]
    refine .dict ?_ ?_
    · intro k
      have hmem := ((sortBy_perm Prod.fst (items.map fun i : PyStr × JsonTree F => (i.1, sorted i.2))).map Prod.fst).mem_iff
        (a := k)
      rw [hmem, List.map_map]
      rfl
    · intro k x y hx hy
      obtain ⟨⟨k', z⟩, hz, heq⟩ := List.mem_map.1 ((mem_sortBy).1 hx)
      cases heq
      have hzy : ((k', z) : PyStr × JsonTree F) = (k', y) := List.inj_on_of_nodup_map h.1 hz hy rfl
      cases hzy
      exact ih _ hz (h.2 _ hz)

/-- equal trees have the same strings -/
theorem Equal.pairFree {a b : JsonTree F} (h : Equal a b) (ha : a.pairFree) : b.pairFree := by
  induction h with
  | null | bool | int | float | str => exact ha
  | @list xs ys hlen _ ih =>
    simp only [JsonTree.pairFree, all_list, Bool.true_and, List.all_eq_true] at ha ⊢
    intro y hy
    obtain ⟨i, hi, rfl⟩ := List.mem_iff_getElem.1 hy
    have hi' : i < xs.length := hlen ▸ hi
    exact ih i _ _ (List.getElem?_eq_getElem hi') (List.getElem?_eq_getElem hi) (ha _ (List.getElem_mem hi'))
  | @dict xs ys hkeys _ ih =>
    simp only [JsonTree.pairFree, all_dict, Bool.and_eq_true, List.all_eq_true] at ha ⊢
    have key : ∀ p ∈ ys, ∃ x, (p.1, x) ∈ xs := by
      intro p hp
      obtain ⟨⟨k, x⟩, hx, hk⟩ := List.mem_map.1 ((hkeys p.1).2 (List.mem_map.2 ⟨p, hp, rfl⟩))
      exact ⟨x, hk ▸ hx⟩
    refine ⟨?_, ?_⟩
    · intro p hp
      obtain ⟨x, hx⟩ := key p hp
      exact ha.1 (p.1, x) hx
    · intro p hp
      obtain ⟨x, hx⟩ := key p hp
      exact ih p.1 x p.2 hx hp (ha.2 _ hx)

end JsonTree

end Apar
