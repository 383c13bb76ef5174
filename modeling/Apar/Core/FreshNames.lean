/-
New names for old ones. A library: nothing here is about payments.

- `exists_injective_extension`: a renaming of finitely many names is part of an injective one of all names.
- `exists_fresh`: of more candidates than there are taken names, one is not taken.
-/
import Mathlib.Tactic
import Mathlib.SetTheory.Cardinal.Arithmetic

namespace Apar

namespace FreshNames

/-- **A renaming of finitely many names** is part of an injective renaming of all. -/
theorem exists_injective_extension {V : Type} [Infinite V] {ρ : V → V} {S : Set V} (hS : S.Finite) (h : Set.InjOn ρ S) :
    ∃ σ : V → V, Function.Injective σ ∧ ∀ v ∈ S, σ v = ρ v := by
  classical
  have hsmall : Cardinal.mk (ρ '' S) < Cardinal.mk V :=
    (Cardinal.mk_lt_aleph0_iff.2 (hS.image ρ).to_subtype).trans_le (Cardinal.infinite_iff.1 inferInstance)
  obtain ⟨e⟩ := Cardinal.eq.1 (Cardinal.mk_compl_of_infinite (ρ '' S) hsmall)
  refine ⟨fun v => if v ∈ S then ρ v else (e.symm v : V), fun v w hvw => ?_, fun v hv => if_pos hv⟩
  -- the names outside go to names that no name of the set has
  have hout : ∀ x y, x ∈ S → ρ x ≠ (e.symm y : V) := fun x y hx heq => (e.symm y).2 ⟨x, hx, heq⟩
  dsimp only at hvw
  by_cases hv : v ∈ S
  · by_cases hw : w ∈ S
    · rw [if_pos hv, if_pos hw] at hvw
      exact h hv hw hvw
    · rw [if_pos hv, if_neg hw] at hvw
      exact absurd hvw (hout v w hv)
  · by_cases hw : w ∈ S
    · rw [if_neg hv, if_pos hw] at hvw
      exact absurd hvw.symm (hout w v hw)
    · rw [if_neg hv, if_neg hw] at hvw
      exact e.symm.injective (Subtype.ext hvw)

/-- **One candidate is new** among more candidates than taken names. -/
theorem exists_fresh {V : Type} [DecidableEq V] {candidate : ℕ → V} {taken : List V}
    (h : Set.InjOn candidate (Set.Iic taken.length)) : ∃ n ≤ taken.length, candidate n ∉ taken := by
  by_contra hall
  push Not at hall
  have hsub : (Finset.range (taken.length + 1)).image candidate ⊆ taken.toFinset := by
    intro v hv
    obtain ⟨n, hn, rfl⟩ := Finset.mem_image.1 hv
    exact List.mem_toFinset.2 (hall n (Nat.lt_succ_iff.1 (Finset.mem_range.1 hn)))
  have hcard := Finset.card_le_card hsub
  rw [Finset.card_image_of_injOn (fun m hm n hn heq => h (Nat.lt_succ_iff.1 (Finset.mem_range.1 hm))
    (Nat.lt_succ_iff.1 (Finset.mem_range.1 hn)) heq), Finset.card_range] at hcard
  exact absurd (hcard.trans taken.toFinset_card_le) (Nat.not_succ_le_self _)

end FreshNames

end Apar
