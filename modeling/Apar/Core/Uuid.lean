/-
UUID text: its order and how it parses. A library: nothing here is about payments.

- `formatUuid_lt`: UUID texts are ordered as the integers they stand for, across the dashes.
- `parseUuid_formatUuid`: the text of a 128-bit integer parses to that integer.
-/
import Apar.Core.Digest

namespace Apar

namespace Uuid

/-! ## Order -/

/-- the last `k` hexadecimal digits of an integer, the most significant first -/
def digits (k n : ℕ) : List Char := (List.range k).map fun i => hexChar (n / 16 ^ (k - 1 - i) % 16)

theorem hexDigits_eq (n : ℕ) : hexDigits n = digits 32 n := rfl

theorem digits_succ (k n : ℕ) : digits (k + 1) n = hexChar (n / 16 ^ k % 16) :: digits k n := by
  unfold digits
  rw [List.range_succ_eq_map, List.map_cons, List.map_map, Nat.add_sub_cancel, Nat.sub_zero]
  refine congrArg _ (List.map_congr_left fun i hi => ?_)
  rw [List.mem_range] at hi
  rw [Function.comp_apply, Nat.succ_eq_add_one, Nat.add_comm i 1, ← Nat.sub_sub]

theorem hexChar_lt {m n : ℕ} (h : m < n) (hn : n < 16) : hexChar m < hexChar n := by
  have key : ∀ b < 16, ∀ a < b, hexChar a < hexChar b := by decide
  exact key n hn m h

/-- digits are ordered as what they leave of the integers -/
theorem digits_lt {m n : ℕ} : ∀ {k : ℕ}, m % 16 ^ k < n % 16 ^ k → digits k m < digits k n
  | 0, h => by simp [Nat.mod_one] at h
  | k + 1, h => by
    rw [digits_succ, digits_succ, List.cons_lt_cons_iff]
    rw [Nat.mod_pow_succ, Nat.mod_pow_succ] at h
    have hm := Nat.mod_lt m (show 0 < 16 ^ k by positivity)
    have hn := Nat.mod_lt n (show 0 < 16 ^ k by positivity)
    rcases lt_trichotomy (m / 16 ^ k % 16) (n / 16 ^ k % 16) with hlt | heq | hgt
    · exact .inl (hexChar_lt hlt (Nat.mod_lt _ (by norm_num)))
    · refine .inr ⟨congrArg hexChar heq, digits_lt ?_⟩
      rw [heq] at h
      exact Nat.lt_of_add_lt_add_right h
    · exfalso
      have hle : 16 ^ k * (n / 16 ^ k % 16 + 1) ≤ 16 ^ k * (m / 16 ^ k % 16) := Nat.mul_le_mul_left _ hgt
      rw [Nat.mul_add, Nat.mul_one] at hle
      omega

/-- texts are ordered by their first parts, and by the rest where those agree -/
theorem append_lt_iff : ∀ {xs ys us vs : List Char}, xs.length = ys.length →
    (xs ++ us < ys ++ vs ↔ xs < ys ∨ xs = ys ∧ us < vs)
  | [], [], us, vs, _ => by simp
  | x :: xs, y :: ys, us, vs, h => by
    have ih := @append_lt_iff xs ys us vs (by simpa using h)
    simp only [List.cons_append, List.cons_lt_cons_iff, ih, List.cons.injEq]
    tauto

/-- a character both texts have in one place does not change their order -/
theorem cons_lt_iff {c : Char} {us vs : List Char} : c :: us < c :: vs ↔ us < vs := by
  rw [List.cons_lt_cons_iff]
  simp

theorem dashed_lt {a b : List Char} (ha : a.length = 32) (hb : b.length = 32) (h : a < b) : dashed a < dashed b := by
  have split : ∀ l : List Char, l = l.take 8 ++ ((l.drop 8).take 4 ++ ((l.drop 12).take 4 ++
      ((l.drop 16).take 4 ++ l.drop 20))) := by
    intro l
    have e : ∀ i j, (l.drop i).take j ++ l.drop (i + j) = l.drop i := by
      intro i j
      rw [← List.drop_drop]
      exact List.take_append_drop j _
    rw [e 16 4, e 12 4, e 8 4, List.take_append_drop]
  have hlen : ∀ i j, ((a.drop i).take j).length = ((b.drop i).take j).length := by
    intro i j
    simp [ha, hb]
  have hfirst : (a.take 8).length = (b.take 8).length := by simp [ha, hb]
  rw [split a, split b, append_lt_iff hfirst, append_lt_iff (hlen 8 4), append_lt_iff (hlen 12 4),
    append_lt_iff (hlen 16 4)] at h
  unfold dashed
  rw [append_lt_iff hfirst, cons_lt_iff, append_lt_iff (hlen 8 4), cons_lt_iff, append_lt_iff (hlen 12 4),
    cons_lt_iff, append_lt_iff (hlen 16 4), cons_lt_iff]
  exact h

/-- **UUID text keeps the order** of 128-bit integers -/
theorem formatUuid_lt {m n : ℕ} (hn : n < 2 ^ 128) (h : m < n) : formatUuid m < formatUuid n := by
  have e : (16 : ℕ) ^ 32 = 2 ^ 128 := by norm_num
  have hdigits : hexDigits m < hexDigits n := by
    rw [hexDigits_eq, hexDigits_eq]
    refine digits_lt ?_
    rwa [e, Nat.mod_eq_of_lt hn, Nat.mod_eq_of_lt (h.trans hn)]
  show (formatUuid m).toList < (formatUuid n).toList
  simpa [formatUuid] using dashed_lt (length_hexDigits m) (length_hexDigits n) hdigits

/-! ## Parsing -/

theorem mem_hexDigits {n : ℕ} {c : Char} (h : c ∈ hexDigits n) : ∃ a < 16, c = hexChar a := by
  obtain ⟨i, -, rfl⟩ := List.mem_map.1 h
  exact ⟨_, Nat.mod_lt _ (by norm_num), rfl⟩

/-- the characters of a UUID text are digits and dashes -/
theorem mem_dashed {ds : List Char} {c : Char} (h : c ∈ dashed ds) : c ∈ ds ∨ c = '-' := by
  unfold dashed at h
  simp only [List.mem_append, List.mem_cons] at h
  rcases h with h | h | h | h | h | h | h | h | h
  · exact .inl (List.mem_of_mem_take h)
  · exact .inr h
  · exact .inl (List.mem_of_mem_drop (List.mem_of_mem_take h))
  · exact .inr h
  · exact .inl (List.mem_of_mem_drop (List.mem_of_mem_take h))
  · exact .inr h
  · exact .inl (List.mem_of_mem_drop (List.mem_of_mem_take h))
  · exact .inr h
  · exact .inl (List.mem_of_mem_drop h)

/-- a pattern whose first character is absent is nowhere to be removed -/
theorem removeAll_of_notMem {p : Char} {ps : List Char} :
    ∀ {cs : List Char}, p ∉ cs → removeAll (p :: ps) 0 cs = cs
  | [], _ => rfl
  | c :: cs, h => by
    rw [List.mem_cons, not_or] at h
    have hno : ((p :: ps).isPrefixOf (c :: cs)) = false := by
      simp [List.isPrefixOf, h.1]
    rw [removeAll, hno, removeAll_of_notMem h.2]
    rfl

theorem dropWhile_of_notMem {f : Char → Bool} {cs : List Char} (h : ∀ c ∈ cs, f c = false) : cs.dropWhile f = cs := by
  cases cs with
  | nil => rfl
  | cons c cs => exact List.dropWhile_cons_of_neg (by simp [h c (by simp)])

/-- without its dashes a UUID text is its digits -/
theorem filter_dashed {ds : List Char} (h : '-' ∉ ds) : (dashed ds).filter (· ≠ '-') = ds := by
  have hkeep : ∀ {l : List Char}, (∀ c ∈ l, c ∈ ds) → l.filter (· ≠ '-') = l := by
    intro l hl
    rw [List.filter_eq_self]
    intro c hc
    exact decide_eq_true fun hdash => h (hdash ▸ hl c hc)
  have hdrop : ∀ i j, ((ds.drop i).take j).filter (· ≠ '-') = (ds.drop i).take j := fun i j =>
    hkeep fun c hc => List.mem_of_mem_drop (List.mem_of_mem_take hc)
  have e : ∀ i j, (ds.drop i).take j ++ ds.drop (i + j) = ds.drop i := by
    intro i j
    rw [← List.drop_drop]
    exact List.take_append_drop j _
  unfold dashed
  simp only [List.filter_append, List.filter_cons, hdrop, ne_eq, not_true_eq_false, decide_false, Bool.false_eq_true,
    if_false]
  have hfirst := hkeep fun c (hc : c ∈ ds.take 8) => List.mem_of_mem_take hc
  have hlast := hkeep fun c (hc : c ∈ ds.drop 20) => List.mem_of_mem_drop hc
  simp only [ne_eq] at hfirst hlast
  rw [hfirst, hlast, e 16 4, e 12 4, e 8 4, List.take_append_drop]

theorem foldl_digits {n : ℕ} : ∀ {k acc : ℕ}, (digits k n).foldl
    (fun acc c => acc.bind fun m => (hexValue c).map (16 * m + ·)) (some acc) = some (acc * 16 ^ k + n % 16 ^ k)
  | 0, acc => by simp [digits, Nat.mod_one]
  | k + 1, acc => by
    have hvalue : ∀ a < 16, hexValue (hexChar a) = some a := by decide
    rw [digits_succ, List.foldl_cons, Option.bind_some, hvalue _ (Nat.mod_lt _ (by norm_num)), Option.map_some,
      foldl_digits, Nat.mod_pow_succ]
    refine congrArg some ?_
    ring

/-- **UUID text parses back.** -/
theorem parseUuid_formatUuid {n : ℕ} (hn : n < 2 ^ 128) : parseUuid (formatUuid n) = some n := by
  have hdigit : ∀ c ∈ hexDigits n, c ≠ '-' ∧ c ≠ 'u' ∧ c ≠ '{' ∧ c ≠ '}' := by
    intro c hc
    obtain ⟨a, ha, rfl⟩ := mem_hexDigits hc
    have key : ∀ a < 16, hexChar a ≠ '-' ∧ hexChar a ≠ 'u' ∧ hexChar a ≠ '{' ∧ hexChar a ≠ '}' := by decide
    exact key a ha
  have hchar : ∀ c ∈ dashed (hexDigits n), c ≠ 'u' ∧ c ≠ '{' ∧ c ≠ '}' := by
    intro c hc
    rcases mem_dashed hc with hc | rfl
    · exact (hdigit c hc).2
    · decide
  have hu : 'u' ∉ dashed (hexDigits n) := fun h => (hchar _ h).1 rfl
  have hbrace : ∀ c ∈ dashed (hexDigits n), (c == '{' || c == '}') = false := by
    intro c hc
    simp [(hchar c hc).2]
  have hdash : '-' ∉ hexDigits n := fun h => (hdigit _ h).1 rfl
  have e : (16 : ℕ) ^ 32 = 2 ^ 128 := by norm_num
  have hread : (hexDigits n).foldl (fun acc c => acc.bind fun m => (hexValue c).map (16 * m + ·)) (some 0) = some n := by
    rw [hexDigits_eq, foldl_digits, e, Nat.mod_eq_of_lt hn, Nat.zero_mul, Nat.zero_add]
  have hurn : removeAll "urn:".toList 0 (formatUuid n).toList = dashed (hexDigits n) := by
    have htext : (formatUuid n).toList = dashed (hexDigits n) := String.toList_ofList
    rw [htext]
    exact removeAll_of_notMem hu
  have huuid : removeAll "uuid:".toList 0 (dashed (hexDigits n)) = dashed (hexDigits n) := removeAll_of_notMem hu
  have hreverse : ∀ c ∈ (dashed (hexDigits n)).reverse, (c == '{' || c == '}') = false := fun c hc =>
    hbrace c (List.mem_reverse.1 hc)
  unfold parseUuid
  simp only [hurn, huuid, dropWhile_of_notMem hbrace, dropWhile_of_notMem hreverse, List.reverse_reverse,
    filter_dashed hdash, length_hexDigits, if_true, hread]

end Uuid

end Apar
