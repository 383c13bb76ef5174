/-
Rows indexed by a key: of two rows with one key the later is kept, in the place of the first. A library: nothing here
is about payments.

- `get?_byKey`: what is kept under a key is the last of its rows.
- `values_map`: rewriting rows without their keys rewrites what is kept.
-/
import Apar.Core.Dict

namespace Apar

namespace Indexing

variable {α κ : Type} [DecidableEq κ] (key : α → κ)

/-- `{key(row): row for row in rows}` -/
def byKey (rows : List α) : Dict κ α := Dict.ofList (rows.map fun r => (key r, r))

variable {key}

variable {xs rows : List α}

theorem find?_of_nodup_keys (hn : (xs.map key).Nodup) {x : α} (hx : x ∈ xs) :
    xs.find? (fun y => key y = key x) = some x := by
  induction xs with
  | nil => cases hx
  | cons y ys ih =>
    rw [List.map_cons, List.nodup_cons] at hn
    rcases List.mem_cons.1 hx with rfl | hx
    · rw [List.find?_cons_of_pos (by simp)]
    · have hne : key y ≠ key x := fun h => hn.1 (h ▸ List.mem_map_of_mem hx)
      rw [List.find?_cons_of_neg (by simpa using hne), ih hn.2 hx]

theorem byKey_snoc (rows : List α) (r : α) : byKey key (rows ++ [r]) = (byKey key rows).set (key r) r := by
  simp [byKey, Dict.ofList]

theorem get?_byKey (rows : List α) (k : κ) : (byKey key rows).get? k = (rows.filter fun r => key r = k).getLast? := by
  induction rows using List.reverseRecOn with
  | nil => rfl
  | append_singleton rows r ih =>
    rw [byKey_snoc, Dict.get?_set, ih, List.filter_append]
    by_cases h : key r = k
    · rw [if_pos h.symm, List.filter_singleton, decide_eq_true h, cond_true, List.getLast?_append]
      rfl
    · rw [if_neg (Ne.symm h), List.filter_singleton, decide_eq_false h, cond_false, List.append_nil]

theorem mem_of_mem_values {r : α} (h : r ∈ (byKey key rows).values) : r ∈ rows := by
  obtain ⟨p, hp, rfl⟩ := List.mem_map.1 h
  have hget := Dict.get?_eq_some.2 hp
  rw [get?_byKey] at hget
  exact List.mem_of_mem_filter (List.mem_of_getLast? hget)

theorem items_byKey (rows : List α) : (byKey key rows).items = (byKey key rows).values.map fun r => (key r, r) := by
  unfold Dict.values
  rw [List.map_map]
  refine (List.map_id _).symm.trans (List.map_congr_left fun p hp => ?_)
  have hget := Dict.get?_eq_some.2 hp
  rw [get?_byKey] at hget
  have hkey := (List.mem_filter.1 (List.mem_of_getLast? hget)).2
  exact Prod.ext (of_decide_eq_true hkey).symm rfl

/-- what is kept has distinct keys -/
theorem values_nodup (rows : List α) : ((byKey key rows).values.map key).Nodup := by
  have h := (byKey key rows).nodup
  rw [items_byKey, List.map_map] at h
  exact h

theorem mem_values {r : α} :
    r ∈ (byKey key rows).values ↔ (rows.filter fun r' => key r' = key r).getLast? = some r := by
  rw [← get?_byKey, Dict.get?_eq_some, items_byKey, List.mem_map]
  constructor
  · exact fun h => ⟨r, h, rfl⟩
  · rintro ⟨r', hr', heq⟩
    rw [Prod.mk.injEq] at heq
    exact heq.2 ▸ hr'

theorem filter_of_nodup (h : (rows.map key).Nodup) {r : α} (hr : r ∈ rows) :
    (rows.filter fun r' => key r' = key r) = [r] := by
  induction rows with
  | nil => cases hr
  | cons x rows ih =>
    rw [List.map_cons, List.nodup_cons] at h
    rcases List.mem_cons.1 hr with rfl | hr
    · have hnone : (rows.filter fun r' => key r' = key r) = [] := by
        refine List.filter_eq_nil_iff.2 fun y hy => ?_
        rw [decide_eq_true_eq]
        exact fun heq => h.1 (heq ▸ List.mem_map_of_mem hy)
      rw [List.filter_cons_of_pos (by simp), hnone]
    · have hne : key x ≠ key r := fun heq => h.1 (heq ▸ List.mem_map_of_mem hr)
      rw [List.filter_cons_of_neg (by simpa using hne), ih h.2 hr]

omit [DecidableEq κ] in
theorem eq_of_map_eq {ys : List α} (hn : (rows.map key).Nodup) (hx : ∀ x ∈ xs, x ∈ rows) (hy : ∀ y ∈ ys, y ∈ rows)
    (h : xs.map key = ys.map key) : xs = ys := by
  induction xs generalizing ys with
  | nil => exact (List.map_eq_nil_iff.1 h.symm).symm
  | cons x xs ih =>
    cases ys with
    | nil => cases h
    | cons y ys =>
      rw [List.map_cons, List.map_cons, List.cons.injEq] at h
      rw [List.inj_on_of_nodup_map hn (hx x (by simp)) (hy y (by simp)) h.1,
        ih (fun x hx' => hx x (by simp [hx'])) (fun y hy' => hy y (by simp [hy'])) h.2]

theorem set_map {β : Type} (f : α → β) (k : κ) (v : α) (l : List (κ × α)) :
    Assoc.set k (f v) (l.map fun p => (p.1, f p.2)) = (Assoc.set k v l).map fun p => (p.1, f p.2) := by
  induction l with
  | nil => rfl
  | cons p l ih =>
    rw [List.map_cons, Assoc.set, Assoc.set]
    split_ifs
    · rfl
    · rw [ih, List.map_cons]

/-- **Rewriting rows without their keys rewrites what is kept.** -/
theorem values_map {g : α → α} (hg : ∀ r ∈ rows, key (g r) = key r) :
    (byKey key (rows.map g)).values = (byKey key rows).values.map g := by
  have hitems : (byKey key (rows.map g)).items = (byKey key rows).items.map fun p => (p.1, g p.2) := by
    induction rows using List.reverseRecOn with
    | nil => rfl
    | append_singleton rows r ih =>
      rw [List.map_append, List.map_singleton, byKey_snoc, byKey_snoc]
      show Assoc.set _ _ _ = List.map _ (Assoc.set _ _ _)
      rw [ih fun r' hr' => hg r' (by simp [hr']), hg r (by simp), set_map]
  unfold Dict.values
  rw [hitems, List.map_map, List.map_map]
  rfl

end Indexing

end Apar
