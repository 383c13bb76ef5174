/-
Two orders of paths: part by part, and by the text that joins the parts with a separator. A library: nothing here is about
payments.

A part is a list over an ordered alphabet, the separator is a letter no part has.
- `Conflict p q`: where the paths first differ, the part of `p` is a directory and an initial piece of the part of `q`, which
  goes on with a letter below the separator.
- `text_lt`: of two paths without a conflict, the one that comes first also has the first text.
- `Conflict.text_lt`: in a conflict, the path that comes first has the last text.
- `texts_sorted_iff`: a list of paths in order has its texts in order exactly when no two of its paths are in conflict.
-/
import Mathlib.Tactic
import Mathlib.Data.List.Lex

namespace Apar

namespace PathOrder

variable {α : Type} [LinearOrder α]

/-! ## Lists that differ -/

/-- one of two lists is an initial piece of the other, or they differ somewhere first -/
theorem split (xs ys : List α) :
    xs <+: ys ∨ ys <+: xs ∨ ∃ w a b r s, a ≠ b ∧ xs = w ++ a :: r ∧ ys = w ++ b :: s := by
  induction xs generalizing ys with
  | nil => exact .inl ys.nil_prefix
  | cons x xs ih =>
    cases ys with
    | nil => exact .inr (.inl (List.nil_prefix))
    | cons y ys =>
      by_cases hxy : x = y
      · subst hxy
        rcases ih ys with h | h | ⟨w, a, b, r, s, hab, rfl, rfl⟩
        · exact .inl (List.cons_prefix_cons.2 ⟨rfl, h⟩)
        · exact .inr (.inl (List.cons_prefix_cons.2 ⟨rfl, h⟩))
        · exact .inr (.inr ⟨x :: w, a, b, r, s, hab, rfl, rfl⟩)
      · exact .inr (.inr ⟨[], x, y, xs, ys, hxy, rfl, rfl⟩)

variable {w xs ys : List α}

theorem append_cons_lt {r s : List α} {a b : α} (h : a < b) : w ++ a :: r < w ++ b :: s :=
  List.append_left_lt (List.cons_lt_cons_iff.2 (.inl h))

theorem append_lt_append_iff : w ++ xs < w ++ ys ↔ xs < ys := by
  induction w with
  | nil => rfl
  | cons a w ih => simp only [List.cons_append, List.cons_lt_cons_iff, lt_irrefl, true_and, false_or, ih]

theorem lt_append_cons (xs : List α) (a : α) (ys : List α) : xs < xs ++ a :: ys := by
  have h : xs ++ [] < xs ++ a :: ys := List.append_left_lt (List.nil_lt_cons a ys)
  rwa [List.append_nil] at h

theorem lt_of_prefixed (h : xs <+: ys) (hne : xs ≠ ys) : xs < ys := by
  obtain ⟨t, rfl⟩ := h
  cases t with
  | nil => exact absurd xs.append_nil.symm hne
  | cons a t => exact lt_append_cons xs a t

theorem not_lt_of_prefixed (h : ys <+: xs) : ¬xs < ys := by
  by_cases heq : ys = xs
  · rw [heq]
    exact lt_irrefl _
  · exact (lt_of_prefixed h heq).not_gt

theorem map_lt_map_iff {β : Type} [LinearOrder β] {f : α → β} (hf : StrictMono f) : xs.map f < ys.map f ↔ xs < ys := by
  induction xs generalizing ys with
  | nil => cases ys <;> simp
  | cons x xs ih =>
    cases ys with
    | nil => simp
    | cons y ys => simp only [List.map_cons, List.cons_lt_cons_iff, hf.lt_iff_lt, hf.injective.eq_iff, ih]

/-! ## Texts of paths -/

variable {sep : α}

/-- `sep.join(parts)` -/
def text (sep : α) (p : List (List α)) : List α := [sep].intercalate p

omit [LinearOrder α] in
theorem text_cons (x : List α) (p : List (List α)) : text sep (x :: p) = x ++ p.flatMap (sep :: ·) := by
  induction p generalizing x with
  | nil => simp [text]
  | cons y p ih =>
    have hjoin : text sep (x :: y :: p) = x ++ [sep] ++ text sep (y :: p) := List.intercalate_cons_cons
    rw [hjoin, ih, List.flatMap_cons]
    simp

omit [LinearOrder α] in
theorem text_append (w : List (List α)) (x : List α) (r : List (List α)) :
    text sep (w ++ x :: r) = w.flatMap (· ++ [sep]) ++ (x ++ r.flatMap (sep :: ·)) := by
  induction w with
  | nil => exact text_cons x r
  | cons y w ih =>
    cases w with
    | nil =>
      rw [List.singleton_append, text_cons, List.flatMap_cons, List.flatMap_singleton]
      simp
    | cons z w =>
      have hjoin : text sep (y :: ((z :: w) ++ x :: r)) = y ++ [sep] ++ text sep ((z :: w) ++ x :: r) :=
        List.intercalate_cons_cons
      rw [List.cons_append, hjoin, ih, ← List.append_assoc]
      rfl

/-- at the parts where two paths first differ, `p` goes down a directory whose name starts the name in `q`, and the rest of
that name starts below the separator -/
def Conflict (sep : α) (p q : List (List α)) : Prop :=
  ∃ w x c z r s, r ≠ [] ∧ c < sep ∧ p = w ++ x :: r ∧ q = w ++ (x ++ c :: z) :: s

variable {p q : List (List α)}

/-- a conflict puts the path that comes first last -/
theorem Conflict.lt (h : Conflict sep p q) : p < q := by
  obtain ⟨w, x, c, z, r, s, -, -, rfl, rfl⟩ := h
  exact append_cons_lt (lt_append_cons x c z)

theorem Conflict.text_lt (h : Conflict sep p q) : text sep q < text sep p := by
  obtain ⟨w, x, c, z, r, s, hr, hc, rfl, rfl⟩ := h
  obtain ⟨y, r, rfl⟩ := List.exists_cons_of_ne_nil hr
  rw [text_append, text_append, List.flatMap_cons, List.append_assoc x]
  exact List.append_left_lt (List.append_left_lt (List.cons_lt_cons_iff.2 (.inl hc)))

/-- the text of a path below a path -/
theorem text_lt_of_prefixed (hp : p ≠ []) (h : p <+: q) (hne : p ≠ q) : text sep p < text sep q := by
  obtain ⟨t, rfl⟩ := h
  obtain ⟨x, p, rfl⟩ := List.exists_cons_of_ne_nil hp
  cases t with
  | nil => exact absurd (List.append_nil _).symm hne
  | cons y t =>
    rw [List.cons_append, text_cons, text_cons, List.flatMap_append, List.flatMap_cons, ← List.append_assoc]
    exact lt_append_cons _ _ _

/-- **Two paths in order, and not in conflict, have their texts in order.** -/
theorem text_lt (hp : p ≠ []) (hsep : ∀ y ∈ q, sep ∉ y) (h : p < q) (hno : ¬Conflict sep p q) :
    text sep p < text sep q := by
  rcases split p q with hpre | hpre | ⟨w, x, y, r, s, hxy, rfl, rfl⟩
  · exact text_lt_of_prefixed hp hpre h.ne
  · exact absurd h (not_lt_of_prefixed hpre)
  have hlt : x < y := by
    rcases List.cons_lt_cons_iff.1 (append_lt_append_iff.1 h) with hlt | ⟨heq, -⟩
    · exact hlt
    · exact absurd heq hxy
  rw [text_append, text_append]
  refine List.append_left_lt ?_
  rcases split x y with hpre | hpre | ⟨u, a, b, x', y', hab, rfl, rfl⟩
  · -- the name in `p` starts the name in `q`
    obtain ⟨t, rfl⟩ := hpre
    cases t with
    | nil => exact absurd x.append_nil.symm hxy
    | cons c z =>
      rw [List.append_assoc]
      refine List.append_left_lt ?_
      cases r with
      | nil => exact List.nil_lt_cons _ _
      | cons y' r =>
        have hcs : c ≠ sep := fun heq => hsep _ (List.mem_append_right _ List.mem_cons_self) (by simp [heq])
        have hc : ¬c < sep := fun hc => hno ⟨w, x, c, z, y' :: r, s, List.cons_ne_nil _ _, hc, rfl, rfl⟩
        rw [List.flatMap_cons]
        exact List.cons_lt_cons_iff.2 (.inl (lt_of_le_of_ne (not_lt.1 hc) hcs.symm))
  · exact absurd hlt (not_lt_of_prefixed hpre)
  · have hab' : a < b := by
      rcases List.cons_lt_cons_iff.1 (append_lt_append_iff.1 hlt) with h | ⟨heq, -⟩
      · exact h
      · exact absurd heq hab
    rw [List.append_assoc, List.append_assoc]
    exact append_cons_lt hab'

omit [LinearOrder α] in
theorem pairwise_or {R : α → α → Prop} (h : xs.Pairwise R) {x y : α} (hx : x ∈ xs) (hy : y ∈ xs) :
    x = y ∨ R x y ∨ R y x := by
  obtain ⟨i, hi, rfl⟩ := List.getElem_of_mem hx
  obtain ⟨j, hj, rfl⟩ := List.getElem_of_mem hy
  rw [List.pairwise_iff_getElem] at h
  rcases lt_trichotomy i j with hij | rfl | hij
  · exact .inr (.inl (h i j hi hj hij))
  · exact .inl rfl
  · exact .inr (.inr (h j i hj hi hij))

/-- **The texts of paths in order are in order exactly when no two of the paths are in conflict.** -/
theorem texts_sorted_iff {ps : List (List (List α))} (hps : ps.Pairwise (· < ·)) (hne : ∀ p ∈ ps, p ≠ [])
    (hsep : ∀ p ∈ ps, ∀ y ∈ p, sep ∉ y) :
    (ps.map (text sep)).Pairwise (· < ·) ↔ ∀ p ∈ ps, ∀ q ∈ ps, ¬Conflict sep p q := by
  rw [List.pairwise_map]
  constructor
  · intro h p hp q hq hconflict
    rcases pairwise_or (hps.and h) hp hq with heq | ⟨-, htext⟩ | ⟨hlt, -⟩
    · exact hconflict.lt.ne heq
    · exact lt_asymm hconflict.text_lt htext
    · exact lt_asymm hconflict.lt hlt
  · intro hno
    refine List.Pairwise.imp_of_mem ?_ hps
    intro p q hp hq hlt
    exact text_lt (hne p hp) (hsep q hq) hlt (hno p hp q hq)

end PathOrder

end Apar
