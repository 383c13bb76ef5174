/-
Insertion-ordered dictionaries with distinct keys, as Python's `dict`. A library: nothing here is about payments.

A `Dict` carries the distinctness of its keys, so a lookup and a membership in `items` say the same thing
(`get?_eq_some`). Assigning to a present key keeps its place, assigning to a new key appends it.

- `get?_set`: an assignment changes exactly one key.
- `sum_set`: what an assignment does to a sum over the items; `sum_keys`: such a sum, key by key.
-/
import Mathlib.Tactic
import Mathlib.Algebra.BigOperators.Group.List.Basic

namespace Apar

/-! ## Association lists -/

namespace Assoc

variable {κ α : Type} [DecidableEq κ]

def get? (k : κ) : List (κ × α) → Option α
  | [] => none
  | (k', v) :: t => if k' = k then some v else get? k t

/-- `d[k] = v`: in place when the key is there, at the end when it is new -/
def set (k : κ) (v : α) : List (κ × α) → List (κ × α)
  | [] => [(k, v)]
  | (k', v') :: t => if k' = k then (k, v) :: t else (k', v') :: set k v t

def erase (k : κ) (l : List (κ × α)) : List (κ × α) := l.filter fun p => p.1 ≠ k

variable {l : List (κ × α)}

theorem mem_of_get? {k : κ} {v : α} (h : get? k l = some v) : (k, v) ∈ l := by
  induction l with
  | nil => cases h
  | cons p t ih =>
    obtain ⟨k', v'⟩ := p
    simp only [get?] at h
    split_ifs at h with hk
    · cases h; subst hk; exact List.mem_cons_self
    · exact List.mem_cons_of_mem _ (ih h)

theorem get?_of_mem {k : κ} {v : α} (hn : (l.map Prod.fst).Nodup) (h : (k, v) ∈ l) : get? k l = some v := by
  induction l with
  | nil => cases h
  | cons p t ih =>
    obtain ⟨k', v'⟩ := p
    simp only [List.map_cons, List.nodup_cons] at hn
    rcases List.mem_cons.1 h with h | h
    · cases h; simp [get?]
    · have hk : k' ≠ k := by
        rintro rfl; exact hn.1 (List.mem_map.2 ⟨(k', v), h, rfl⟩)
      simp [get?, hk, ih hn.2 h]

theorem get?_eq_none {k : κ} : get? k l = none ↔ k ∉ l.map Prod.fst := by
  induction l with
  | nil => simp [get?]
  | cons p t ih =>
    obtain ⟨k', v'⟩ := p
    by_cases hk : k' = k
    · simp [get?, hk]
    · have hk' : k ≠ k' := fun h => hk h.symm
      simp only [get?, hk, if_false, ih, List.map_cons, List.mem_cons, hk', false_or]

theorem get?_set (k k' : κ) (v : α) (l : List (κ × α)) :
    get? k' (set k v l) = if k' = k then some v else get? k' l := by
  induction l with
  | nil => by_cases h : k = k' <;> simp [set, get?, h, eq_comm]
  | cons p t ih =>
    obtain ⟨k₀, v₀⟩ := p
    by_cases h0 : k₀ = k
    · subst h0
      by_cases h : k₀ = k'
      · simp [set, get?, h]
      · have h' : k' ≠ k₀ := fun e => h e.symm
        simp [set, get?, h, h']
    · by_cases h : k₀ = k'
      · subst h; simp [set, get?, h0]
      · simp [set, get?, h0, h, ih]

theorem keys_set (k : κ) (v : α) (l : List (κ × α)) :
    (set k v l).map Prod.fst = if k ∈ l.map Prod.fst then l.map Prod.fst else l.map Prod.fst ++ [k] := by
  induction l with
  | nil => simp [set]
  | cons p t ih =>
    obtain ⟨k', v'⟩ := p
    by_cases hk : k' = k
    · simp [set, hk]
    · simp only [set, hk, if_false, List.map_cons, ih, List.mem_cons, eq_comm (a := k), false_or]
      split_ifs <;> simp

theorem nodup_set (k : κ) (v : α) (hn : (l.map Prod.fst).Nodup) : ((set k v l).map Prod.fst).Nodup := by
  rw [keys_set]
  split_ifs with hk
  · exact hn
  · exact List.nodup_append.2 ⟨hn, List.nodup_singleton k, by
      intro a ha b hb hab; simp only [List.mem_singleton] at hb; subst hb hab; exact hk ha⟩

theorem get?_erase (k k' : κ) (l : List (κ × α)) :
    get? k' (erase k l) = if k' = k then none else get? k' l := by
  induction l with
  | nil => simp [erase, get?]
  | cons p t ih =>
    obtain ⟨k₀, v₀⟩ := p
    by_cases h0 : k₀ = k
    · subst h0
      have he : erase k₀ ((k₀, v₀) :: t) = erase k₀ t := by simp [erase]
      rw [he, ih]
      by_cases h : k' = k₀
      · simp [h]
      · have h' : k₀ ≠ k' := fun e => h e.symm
        simp [h, get?, h']
    · have he : erase k ((k₀, v₀) :: t) = (k₀, v₀) :: erase k t := by simp [erase, h0]
      rw [he]
      by_cases h : k₀ = k'
      · subst h; simp [get?, h0]
      · simp [get?, h, ih]

/-- what an assignment does to a sum over the items -/
theorem sum_set {M : Type} [AddCommGroup M] (f : κ × α → M) (k : κ) (v : α) (l : List (κ × α)) :
    ((set k v l).map f).sum = (l.map f).sum - ((get? k l).map fun w => f (k, w)).getD 0 + f (k, v) := by
  induction l with
  | nil => simp [set, get?]
  | cons p t ih =>
    obtain ⟨k', v'⟩ := p
    by_cases hk : k' = k
    · subst hk; simp [set, get?]; abel
    · simp only [set, hk, if_false, List.map_cons, List.sum_cons, get?, ih]; abel

theorem get?_map {β : Type} (f : α → β) (k : κ) (l : List (κ × α)) :
    get? k (l.map fun p => (p.1, f p.2)) = (get? k l).map f := by
  induction l with
  | nil => rfl
  | cons p t ih =>
    obtain ⟨k', v'⟩ := p
    by_cases hk : k' = k
    · simp [get?, hk]
    · simp [get?, hk, ih]

/-- a sum over the items of one key has at most one term -/
theorem sum_get? {M : Type} [AddCommMonoid M] (f : α → M) (k : κ) (hn : (l.map Prod.fst).Nodup) :
    (l.map fun p => if p.1 = k then f p.2 else 0).sum = ((get? k l).map f).getD 0 := by
  induction l with
  | nil => rfl
  | cons p t ih =>
    obtain ⟨k', v'⟩ := p
    simp only [List.map_cons, List.nodup_cons] at hn
    rcases eq_or_ne k' k with rfl | hk
    · have hnone : get? k' t = none := get?_eq_none.2 hn.1
      rw [List.map_cons, List.sum_cons, ih hn.2, hnone]
      simp [get?]
    · rw [List.map_cons, List.sum_cons, ih hn.2]
      simp [get?, hk]

/-- a sum over keys that include every key of the items is the sum over the items -/
theorem sum_keys {M : Type} [AddCommMonoid M] (f : κ → α → M) (hn : (l.map Prod.fst).Nodup) {s : Finset κ}
    (hs : ∀ k ∈ l.map Prod.fst, k ∈ s) : ∑ k ∈ s, ((get? k l).map (f k)).getD 0 = (l.map fun p => f p.1 p.2).sum := by
  induction l with
  | nil => simp [get?]
  | cons p t ih =>
    obtain ⟨k', v⟩ := p
    simp only [List.map_cons, List.nodup_cons, List.mem_cons] at hn hs
    have hnone : get? k' t = none := get?_eq_none.2 hn.1
    have hterm : ∀ k ∈ s, ((get? k ((k', v) :: t)).map (f k)).getD 0 =
        (if k = k' then f k' v else 0) + ((get? k t).map (f k)).getD 0 := by
      intro k _
      rcases eq_or_ne k k' with rfl | hk
      · simp [get?, hnone]
      · simp [get?, hk, hk.symm]
    rw [Finset.sum_congr rfl hterm, Finset.sum_add_distrib, ih hn.2 fun k hk => hs k (.inr hk), Finset.sum_ite_eq',
      if_pos (hs k' (.inl rfl)), List.map_cons, List.sum_cons]

/-- an assignment to a new key appends it -/
theorem set_of_not_mem {k : κ} {v : α} (h : k ∉ l.map Prod.fst) : set k v l = l ++ [(k, v)] := by
  induction l with
  | nil => rfl
  | cons p t ih =>
    obtain ⟨k', v'⟩ := p
    simp only [List.map_cons, List.mem_cons, not_or] at h
    simp [set, Ne.symm h.1, ih h.2]

end Assoc

/-! ## Dictionaries -/

/-- a dictionary: items in insertion order, keys distinct -/
structure Dict (κ α : Type) where
  items : List (κ × α)
  nodup : (items.map Prod.fst).Nodup

namespace Dict

variable {κ α : Type}

def empty : Dict κ α := ⟨[], by simp⟩

instance : EmptyCollection (Dict κ α) := ⟨empty⟩

@[simp] theorem items_empty : (∅ : Dict κ α).items = [] := rfl

variable [DecidableEq κ]

def get? (d : Dict κ α) (k : κ) : Option α := Assoc.get? k d.items

def getD (d : Dict κ α) (k : κ) (v : α) : α := (d.get? k).getD v

def set (d : Dict κ α) (k : κ) (v : α) : Dict κ α := ⟨Assoc.set k v d.items, Assoc.nodup_set k v d.nodup⟩

def keys (d : Dict κ α) : List κ := d.items.map Prod.fst

def values (d : Dict κ α) : List α := d.items.map Prod.snd

/-- `{k: v for k, v in d.items() if p(k, v)}` -/
def filter (d : Dict κ α) (p : κ × α → Bool) : Dict κ α :=
  ⟨d.items.filter p, d.nodup.sublist (List.filter_sublist.map _)⟩

/-- a dictionary display or comprehension: later items overwrite earlier ones -/
def ofList (l : List (κ × α)) : Dict κ α := l.foldl (fun d p => d.set p.1 p.2) ∅

@[simp] theorem get?_empty (k : κ) : (∅ : Dict κ α).get? k = none := rfl

theorem get?_set (d : Dict κ α) (k k' : κ) (v : α) : (d.set k v).get? k' = if k' = k then some v else d.get? k' :=
  Assoc.get?_set k k' v d.items

@[simp] theorem get?_set_self (d : Dict κ α) (k : κ) (v : α) : (d.set k v).get? k = some v := by simp [get?_set]

theorem get?_set_of_ne (d : Dict κ α) {k k' : κ} (v : α) (h : k' ≠ k) : (d.set k v).get? k' = d.get? k' := by
  simp [get?_set, h]

variable {d d' : Dict κ α}

theorem get?_eq_some {k : κ} {v : α} : d.get? k = some v ↔ (k, v) ∈ d.items :=
  ⟨Assoc.mem_of_get?, Assoc.get?_of_mem d.nodup⟩

theorem get?_eq_none {d : Dict κ α} {k : κ} : d.get? k = none ↔ k ∉ d.keys := Assoc.get?_eq_none

theorem mem_keys {k : κ} : k ∈ d.keys ↔ ∃ v, d.get? k = some v := by
  rw [← not_iff_not, ← get?_eq_none, Option.eq_none_iff_forall_ne_some]
  simp

theorem getD_set (d : Dict κ α) (k k' : κ) (v w : α) :
    (d.set k v).getD k' w = if k' = k then v else d.getD k' w := by
  unfold getD
  rw [get?_set]
  split_ifs <;> rfl

theorem keys_set (d : Dict κ α) (k : κ) (v : α) : (d.set k v).keys = if k ∈ d.keys then d.keys else d.keys ++ [k] :=
  Assoc.keys_set k v d.items

/-- a display with distinct keys is its own items -/
theorem items_ofList {l : List (κ × α)} (hn : (l.map Prod.fst).Nodup) : (ofList l).items = l := by
  have key : ∀ (l : List (κ × α)) (d : Dict κ α), ((d.items ++ l).map Prod.fst).Nodup →
      (l.foldl (fun d p => d.set p.1 p.2) d).items = d.items ++ l := by
    intro l
    induction l with
    | nil => intro d _; simp
    | cons p t ih =>
      intro d hd
      have hp : p.1 ∉ d.items.map Prod.fst := by
        rw [List.map_append, List.nodup_append] at hd
        intro hmem
        exact hd.2.2 p.1 hmem p.1 (by simp) rfl
      have hset : (d.set p.1 p.2).items = d.items ++ [p] := Assoc.set_of_not_mem hp
      rw [List.foldl_cons, ih _ (by rw [hset]; simpa using hd), hset]
      simp
  exact key l ∅ hn

/-- what a display holds was given to it -/
theorem mem_of_get?_ofList {l : List (κ × α)} {k : κ} {v : α} (h : (ofList l).get? k = some v) : (k, v) ∈ l := by
  have key : ∀ (l : List (κ × α)) (d : Dict κ α), (l.foldl (fun d p => d.set p.1 p.2) d).get? k = some v →
      (k, v) ∈ l ∨ d.get? k = some v := by
    intro l
    induction l with
    | nil => exact fun d hd => .inr hd
    | cons p t ih =>
      intro d hd
      rcases ih _ hd with hmem | hset
      · exact .inl (List.mem_cons_of_mem _ hmem)
      · rw [get?_set] at hset
        split_ifs at hset with hk
        · rw [Option.some.injEq] at hset
          exact .inl (List.mem_cons.2 (.inl (Prod.ext hk hset.symm)))
        · exact .inr hset
  exact (key l ∅ h).resolve_right nofun

theorem sum_set {M : Type} [AddCommGroup M] (f : κ × α → M) (d : Dict κ α) (k : κ) (v : α) :
    ((d.set k v).items.map f).sum = (d.items.map f).sum - ((d.get? k).map fun w => f (k, w)).getD 0 + f (k, v) :=
  Assoc.sum_set f k v d.items

/-- two dictionaries with the same lookups have the same items, up to order -/
theorem perm_of_get? (h : ∀ k, d.get? k = d'.get? k) : d.items.Perm d'.items := by
  have hn : ∀ e : Dict κ α, e.items.Nodup := fun e => List.Nodup.of_map _ e.nodup
  refine (List.perm_ext_iff_of_nodup (hn d) (hn d')).2 fun p => ?_
  obtain ⟨k, v⟩ := p
  rw [← get?_eq_some, ← get?_eq_some, h]

/-- a dictionary that holds every item of another, and no other key, has the same lookups -/
theorem get?_of_items (hkeys : d'.keys.Perm d.keys) (h : ∀ p ∈ d.items, d'.get? p.1 = some p.2) (k : κ) :
    d'.get? k = d.get? k := by
  cases hk : d.get? k with
  | some v => exact h (k, v) (get?_eq_some.1 hk)
  | none =>
    rw [get?_eq_none] at hk ⊢
    exact fun hmem => hk (hkeys.mem_iff.1 hmem)

end Dict

end Apar
