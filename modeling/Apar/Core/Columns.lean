/-
Columns by name where names repeat: each wanted name takes the first position of that name that is not taken yet. A
library: nothing here is about payments.

- `firstFree_eq_some`: what the first free position of a name is.
- `resolve_eq_iff`: names resolve to the positions they were read from exactly when no other position of a name stands
  before one of them.
- `select_names`, `select_sorted`: the positions that a rule on a second list picks.
-/
import Mathlib.Data.List.Range
import Apar.Core.Exec

namespace Apar

open Exec

namespace Columns

variable {α β : Type} [DecidableEq α]

/-- the first position of a name that is not taken -/
def firstFree (names : List α) (taken : List ℕ) (name : α) : Option ℕ :=
  (List.range names.length).find? fun i => decide (names[i]? = some name) && !taken.contains i

/-- the positions of the wanted names, each the first that is not taken; the error is a name without one -/
def resolve (names : List α) : List ℕ → List α → Except α (List ℕ)
  | _, [] => .ok []
  | taken, name :: wanted =>
    match firstFree names taken name with
    | none => .error name
    | some i => do
      let rest ← resolve names (i :: taken) wanted
      pure (i :: rest)

/-- the positions whose entry of a second list passes -/
def select (p : β → Bool) (groups : List β) : List ℕ := (groups.zipIdx.filter fun g => p g.1).map Prod.snd

theorem firstFree_eq_some {names : List α} {taken : List ℕ} {name : α} {i : ℕ} :
    firstFree names taken name = some i ↔
      names[i]? = some name ∧ i ∉ taken ∧ ∀ j < i, names[j]? = some name → j ∈ taken := by
  have hlt : names[i]? = some name → i < names.length := fun h => (List.getElem?_eq_some_iff.1 h).1
  unfold firstFree
  rw [List.find?_range_eq_some]
  simp only [Bool.and_eq_true, decide_eq_true_eq, Bool.not_eq_true', List.contains_eq_mem, decide_eq_false_iff_not,
    List.mem_range, Bool.and_eq_false_iff, Bool.not_eq_false']
  constructor
  · intro ⟨⟨hname, hfree⟩, _, hbefore⟩
    exact ⟨hname, hfree, fun j hj hsame => (hbefore j hj).resolve_left fun hne => hne hsame⟩
  · intro ⟨hname, hfree, hbefore⟩
    refine ⟨⟨hname, hfree⟩, hlt hname, fun j hj => ?_⟩
    by_cases hsame : names[j]? = some name
    · exact Or.inr (hbefore j hj hsame)
    · exact Or.inl hsame

/-- **Names that resolve to where they were read.** -/
theorem resolve_eq_iff {names : List α} (taken : List ℕ) {wanted : List α} {positions : List ℕ}
    (h : List.Forall₂ (fun name i => names[i]? = some name) wanted positions) (hsorted : positions.Pairwise (· < ·))
    (hfree : ∀ i ∈ positions, i ∉ taken) :
    resolve names taken wanted = .ok positions ↔
      ∀ j ∈ positions, ∀ i < j, names[i]? = names[j]? → i ∈ taken ∨ i ∈ positions := by
  induction h generalizing taken with
  | nil => simp [resolve]
  | @cons name a wanted positions hname h ih =>
    have hlater : ∀ {i}, i ∈ positions → a < i := fun hi => List.rel_of_pairwise_cons hsorted hi
    have hstep := ih (a :: taken) hsorted.of_cons fun i hi => by
      rw [List.mem_cons, not_or]
      exact ⟨(hlater hi).ne', hfree i (List.mem_cons_of_mem a hi)⟩
    have hsplit : resolve names taken (name :: wanted) = .ok (a :: positions) ↔
        firstFree names taken name = some a ∧ resolve names (a :: taken) wanted = .ok positions := by
      rw [resolve]
      cases hfirst : firstFree names taken name with
      | none => simp
      | some i =>
        simp only [except_bind_eq_ok, except_pure_eq_ok, List.cons.injEq, Option.some.injEq]
        constructor
        · rintro ⟨rest, hrest, hia, heq⟩
          subst hia heq
          exact ⟨rfl, hrest⟩
        · rintro ⟨hia, hrest⟩
          subst hia
          exact ⟨positions, hrest, rfl, rfl⟩
    rw [hsplit, hstep, firstFree_eq_some]
    constructor
    · rintro ⟨⟨_, _, hbefore⟩, hrest⟩ j hj i hij hsame
      rcases List.mem_cons.1 hj with rfl | hj
      · exact Or.inl (hbefore i hij (hsame.trans hname))
      · rcases hrest j hj i hij hsame with hi | hi
        · rcases List.mem_cons.1 hi with rfl | hi
          · exact Or.inr List.mem_cons_self
          · exact Or.inl hi
        · exact Or.inr (List.mem_cons_of_mem a hi)
    · intro hall
      refine ⟨⟨hname, hfree a List.mem_cons_self, fun j hj hsame => ?_⟩, fun j hj i hij hsame => ?_⟩
      · rcases hall a List.mem_cons_self j hj (hsame.trans hname.symm) with hmem | hmem
        · exact hmem
        · rcases List.mem_cons.1 hmem with rfl | hmem
          · exact absurd hj (lt_irrefl j)
          · exact absurd (hlater hmem) (not_lt.2 hj.le)
      · rcases hall j (List.mem_cons_of_mem a hj) i hij hsame with hi | hi
        · exact Or.inl (List.mem_cons_of_mem a hi)
        · rcases List.mem_cons.1 hi with rfl | hi
          · exact Or.inl List.mem_cons_self
          · exact Or.inr hi

theorem resolve_self (names : List α) : resolve names [] names = .ok (List.range names.length) := by
  have hread : List.Forall₂ (fun name i => names[i]? = some name) names (List.range names.length) := by
    rw [List.forall₂_iff_get]
    refine ⟨by simp, fun i h₁ h₂ => ?_⟩
    simp
  refine (resolve_eq_iff [] hread List.pairwise_lt_range (by simp)).2 fun j hj i hij _ => Or.inr ?_
  rw [List.mem_range] at hj ⊢
  exact hij.trans hj

/-! ## Positions of a second list -/

theorem mem_select {p : β → Bool} {groups : List β} {i : ℕ} : i ∈ select p groups ↔ ∃ g, groups[i]? = some g ∧ p g := by
  simp [select, List.mem_zipIdx_iff_getElem?]

theorem select_sorted (p : β → Bool) (groups : List β) : (select p groups).Pairwise (· < ·) := by
  refine List.Pairwise.sublist (List.filter_sublist.map _) ?_
  rw [List.zipIdx_map_snd]
  exact List.pairwise_lt_range'

omit [DecidableEq α] in
/-- the names beside the entries that pass stand at their positions -/
theorem select_names (p : β → Bool) {names : List α} {groups : List β} (h : names.length = groups.length) :
    List.Forall₂ (fun name i => names[i]? = some name) (((names.zip groups).filter fun g => p g.2).map Prod.fst)
      (select p groups) := by
  -- the same of the part of the lists from `k` on
  have hfrom : ∀ (full : List α) (k : ℕ), (∀ i, names[i]? = full[k + i]?) →
      List.Forall₂ (fun name i => full[i]? = some name) (((names.zip groups).filter fun g => p g.2).map Prod.fst)
        (((groups.zipIdx k).filter fun g => p g.1).map Prod.snd) := by
    induction names generalizing groups with
    | nil =>
      intro full k _
      cases groups with
      | nil => exact List.Forall₂.nil
      | cons g groups => cases h
    | cons name names ih =>
      intro full k hfull
      cases groups with
      | nil => cases h
      | cons g groups =>
        have htail := ih (Nat.succ.inj h) full (k + 1) fun i => by
          rw [Nat.add_assoc, Nat.add_comm 1 i, ← hfull (i + 1), List.getElem?_cons_succ]
        have hhead := hfull 0
        rw [List.zip_cons_cons, List.zipIdx_cons]
        by_cases hg : p g = true
        · simp only [List.filter_cons, hg, if_true, List.map_cons]
          exact List.Forall₂.cons hhead.symm htail
        · simp only [List.filter_cons, hg]
          exact htail
  exact hfrom names 0 fun i => by rw [Nat.zero_add]

end Columns

end Apar
