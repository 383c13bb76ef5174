/-
Levels with public values: each level of a quantity has one value that stands for it in public, and a value is decoded
by a search for the level it stands for. A library: nothing here is about payments.

The search goes through the levels in order and takes the first one whose value is the given one, so a level whose value
another level has before it can never be reached.

- `decode_eq_ok`: a value that is decoded is the public value of its level.
- `noAliases_of_distinct`: when the public values of the levels are distinct, every level has exactly one value that is
  decoded to it, and no value stands for two levels.
-/
import Apar.Core.Exec

namespace Apar

namespace Levels

open Exec

variable {ε κ α : Type}

/-- the first level whose value is the given one -/
def decode (candidate : κ → Except ε α) (same : α → α → Bool) (missing : ε) (value : α) : List κ → Except ε κ
  | [] => .error missing
  | level :: rest => do
    let standing ← candidate level
    if same value standing then pure level else decode candidate same missing value rest

variable {candidate : κ → Except ε α} {same : α → α → Bool} {missing : ε} {levels : List κ}

theorem decode_eq_ok {value : α} {k : κ} (h : decode candidate same missing value levels = .ok k) :
    k ∈ levels ∧ ∃ c, candidate k = .ok c ∧ same value c = true := by
  induction levels with
  | nil => cases h
  | cons level rest ih =>
    obtain ⟨c, hc, hrest⟩ := except_bind_eq_ok.1 h
    split_ifs at hrest with hsame
    · rw [except_pure_eq_ok] at hrest
      subst hrest
      exact ⟨List.mem_cons_self, c, hc, hsame⟩
    · obtain ⟨hmem, hstanding⟩ := ih hrest
      exact ⟨List.mem_cons_of_mem _ hmem, hstanding⟩

/-- the levels have public values, no two of them the same -/
structure Distinct (candidate : κ → Except ε α) (same : α → α → Bool) (levels : List κ) : Prop where
  total : ∀ k ∈ levels, ∃ c, candidate k = .ok c
  inj : ∀ j ∈ levels, ∀ k ∈ levels, ∀ c d, candidate j = .ok c → candidate k = .ok d → same c d = true → j = k

/-- a value that stands for a level is decoded to it -/
theorem decode_public (hsame : Equivalence fun a b => same a b = true) (h : Distinct candidate same levels) {k : κ}
    (hk : k ∈ levels) {c value : α} (hc : candidate k = .ok c) (hvalue : same value c = true) :
    decode candidate same missing value levels = .ok k := by
  induction levels with
  | nil => cases hk
  | cons level rest ih =>
    obtain ⟨d, hd⟩ := h.total level List.mem_cons_self
    rw [decode, hd, except_ok_bind]
    by_cases heq : same value d = true
    · have hlevel : level = k :=
        h.inj level List.mem_cons_self k hk d c hd hc (hsame.trans (hsame.symm heq) hvalue)
      rw [if_pos heq, hlevel]
      rfl
    · rw [if_neg heq]
      refine ih ⟨fun j hj => h.total j (List.mem_cons_of_mem _ hj), fun i hi j hj =>
        h.inj i (List.mem_cons_of_mem _ hi) j (List.mem_cons_of_mem _ hj)⟩ ?_
      rcases List.mem_cons.1 hk with rfl | hk
      · rw [hc, Except.ok.injEq] at hd
        exact absurd (hd ▸ hvalue) heq
      · exact hk

/-- every level has exactly one public value, up to the sameness of values, and values that are the same stand for the
same level -/
structure NoAliases (same : α → α → Bool) (allowed : α → Prop) (decoded : α → Except ε κ) (levels : List κ) : Prop where
  exists_value : ∀ k ∈ levels, ∃ value, allowed value ∧ decoded value = .ok k
  unique : ∀ k v w, decoded v = .ok k → decoded w = .ok k → same v w = true
  is_level : ∀ v k, decoded v = .ok k → k ∈ levels
  congr : ∀ v w, same v w = true → decoded v = decoded w

theorem decode_congr (hsame : Equivalence fun a b => same a b = true) {v w : α} (h : same v w = true) :
    decode candidate same missing v levels = decode candidate same missing w levels := by
  induction levels with
  | nil => rfl
  | cons level rest ih =>
    rw [decode, decode]
    refine congrArg _ (funext fun c => ?_)
    have hboth : same v c = same w c := by
      rw [Bool.eq_iff_iff]
      exact ⟨hsame.trans (hsame.symm h), hsame.trans h⟩
    rw [hboth, ih]

/-- **Distinct values, no aliases** -/
theorem noAliases_of_distinct (hsame : Equivalence fun a b => same a b = true) (h : Distinct candidate same levels)
    {allowed : α → Prop} (hallowed : ∀ k ∈ levels, ∀ c, candidate k = .ok c → allowed c) :
    NoAliases same allowed (fun value => decode candidate same missing value levels) levels where
  exists_value k hk := by
    obtain ⟨c, hc⟩ := h.total k hk
    exact ⟨c, hallowed k hk c hc, decode_public hsame h hk hc (hsame.refl c)⟩
  unique k v w hv hw := by
    obtain ⟨-, c, hc, hvc⟩ := decode_eq_ok hv
    obtain ⟨-, d, hd, hwd⟩ := decode_eq_ok hw
    rw [hc, Except.ok.injEq] at hd
    exact hsame.trans hvc (hsame.symm (hd ▸ hwd))
  is_level v k hv := (decode_eq_ok hv).1
  congr v w hvw := decode_congr hsame hvw

end Levels

end Apar
