/-
Slots of one length with a capacity, given out in the order of arrival. A library: nothing here is about payments.

The slots start at the multiples of a period. The allocator keeps the last slot it gave out and how often it has, and gives the
last slot again while it is not before the arrival and has room, otherwise the first slot from the arrival on that is later.

- `ceil_le_iff`: the first slot from a time on.
- `Filled` is the invariant of the allocator, which `place_filled` keeps.
- `place_earliest`: what is given is the earliest slot from the arrival on, not before what was given, with room.
- `allocate_spec`: the same of every arrival of a run.
- `inService_le`: no more are in service at any time than the capacity.
-/
import Mathlib.Tactic

namespace Apar

namespace Slots

/-- the first multiple of the period that is not before -/
def ceil (period t : ℤ) : ℤ := (t + period - 1) / period * period

/-- the slot given, and how often it has been: from the last slot and its uses, to an arrival -/
def place (period : ℤ) (capacity : ℕ) (last : Option (ℤ × ℕ)) (arrival : ℤ) : ℤ × ℕ :=
  match last with
  | none => (ceil period arrival, 1)
  | some (slot, uses) =>
    if arrival ≤ slot ∧ uses < capacity then (slot, uses + 1) else (max (ceil period arrival) (slot + period), 1)

/-- the slots given to the arrivals -/
def allocate (period : ℤ) (capacity : ℕ) : Option (ℤ × ℕ) → List ℤ → List ℤ
  | _, [] => []
  | last, arrival :: arrivals =>
    let given := place period capacity last arrival
    given.1 :: allocate period capacity (some given) arrivals

variable {period : ℤ} {capacity : ℕ}

/-! ## The grid -/

theorem dvd_ceil (period t : ℤ) : period ∣ ceil period t := dvd_mul_left _ _

theorem le_ceil (hperiod : 0 < period) (t : ℤ) : t ≤ ceil period t := by
  have hlt := Int.lt_ediv_add_one_mul_self (t + period - 1) hperiod
  have hmul : ((t + period - 1) / period + 1) * period = ceil period t + period := by
    rw [ceil, add_mul, one_mul]
  omega

theorem ceil_le_iff (hperiod : 0 < period) {t slot : ℤ} (hslot : period ∣ slot) : ceil period t ≤ slot ↔ t ≤ slot := by
  constructor
  · exact (le_ceil hperiod t).trans
  · intro ht
    obtain ⟨k, rfl⟩ := hslot
    rw [ceil, mul_comm period k]
    refine mul_le_mul_of_nonneg_right ?_ hperiod.le
    have hlt : (t + period - 1) / period < k + 1 := by
      rw [Int.ediv_lt_iff_lt_mul hperiod, add_mul, one_mul, mul_comm k period]
      omega
    omega

theorem ceil_add_mul (hperiod : 0 < period) (t k : ℤ) : ceil period (t + k * period) = ceil period t + k * period := by
  have hshift : t + k * period + period - 1 = t + period - 1 + k * period := by ring
  rw [ceil, hshift, Int.add_mul_ediv_right _ _ hperiod.ne', add_mul, ← ceil]

/-- two slots are a period apart -/
theorem add_period_le {slot slot' : ℤ} (h : period ∣ slot) (h' : period ∣ slot') (hlt : slot < slot') :
    slot + period ≤ slot' := by
  have := Int.le_of_dvd (by omega) (dvd_sub h' h)
  omega

/-! ## The allocator -/

/-- a slot from the arrival on, not before what was given, with room -/
def Free (period : ℤ) (capacity : ℕ) (given : List ℤ) (arrival slot : ℤ) : Prop :=
  period ∣ slot ∧ arrival ≤ slot ∧ (∀ g ∈ given, g ≤ slot) ∧ given.count slot < capacity

/-- what the last slot and its uses say of what was given -/
def Filled (period : ℤ) (capacity : ℕ) (given : List ℤ) (last : Option (ℤ × ℕ)) : Prop :=
  match last with
  | none => given = []
  | some (slot, uses) => period ∣ slot ∧ slot ∈ given ∧ (∀ g ∈ given, g ≤ slot) ∧ given.count slot = uses ∧ uses ≤ capacity

theorem le_place (hperiod : 0 < period) (last : Option (ℤ × ℕ)) (arrival : ℤ) :
    arrival ≤ (place period capacity last arrival).1 := by
  cases last with
  | none => exact le_ceil hperiod arrival
  | some last =>
    obtain ⟨slot, uses⟩ := last
    unfold place
    dsimp only
    split_ifs with hroom
    · exact hroom.1
    · exact (le_ceil hperiod arrival).trans (le_max_left _ _)

variable {given : List ℤ} {last : Option (ℤ × ℕ)}

theorem place_free (hperiod : 0 < period) (hcapacity : 0 < capacity) (hfilled : Filled period capacity given last)
    (arrival : ℤ) : Free period capacity given arrival (place period capacity last arrival).1 := by
  cases last with
  | none =>
    cases (hfilled : given = [])
    exact ⟨dvd_ceil _ _, le_ceil hperiod _, nofun, hcapacity⟩
  | some last =>
    obtain ⟨slot, uses⟩ := last
    obtain ⟨hslot, -, hle, hcount, -⟩ := hfilled
    unfold place
    dsimp only
    split_ifs with hroom
    · exact ⟨hslot, hroom.1, hle, hcount ▸ hroom.2⟩
    · -- a slot after the last is empty
      have hafter : slot < max (ceil period arrival) (slot + period) := lt_max_of_lt_right (by omega)
      have hdvd : period ∣ max (ceil period arrival) (slot + period) := by
        rcases max_choice (ceil period arrival) (slot + period) with h | h
        · rw [h]
          exact dvd_ceil _ _
        · rw [h]
          exact dvd_add hslot dvd_rfl
      refine ⟨hdvd, (le_ceil hperiod _).trans (le_max_left _ _), fun g hg => (hle g hg).trans hafter.le, ?_⟩
      · rw [List.count_eq_zero_of_not_mem fun hmem => absurd (hle _ hmem) (not_le.2 hafter)]
        exact hcapacity

/-- **What is given is the earliest slot that can be.** -/
theorem place_earliest (hperiod : 0 < period) (hcapacity : 0 < capacity) (hfilled : Filled period capacity given last)
    (arrival : ℤ) :
    IsLeast {slot | Free period capacity given arrival slot} (place period capacity last arrival).1 := by
  refine ⟨place_free hperiod hcapacity hfilled arrival, ?_⟩
  rintro free ⟨hfree, harrival, hge, hroom⟩
  cases last with
  | none => exact (ceil_le_iff hperiod hfree).2 harrival
  | some last =>
    obtain ⟨slot, uses⟩ := last
    obtain ⟨hslot, hmem, -, hcount, -⟩ := hfilled
    have hle := hge slot hmem
    unfold place
    dsimp only
    split_ifs with htaken
    · exact hle
    · refine max_le ((ceil_le_iff hperiod hfree).2 harrival) (add_period_le hslot hfree (lt_of_le_of_ne hle ?_))
      -- the last slot itself is before the arrival or full
      rintro rfl
      exact htaken ⟨harrival, hcount ▸ hroom⟩

/-- the uses that are kept are those of the slot -/
theorem place_uses (hperiod : 0 < period) (hfilled : Filled period capacity given last) (arrival : ℤ) :
    (place period capacity last arrival).2 = given.count (place period capacity last arrival).1 + 1 := by
  cases last with
  | none =>
    cases (hfilled : given = [])
    rfl
  | some last =>
    obtain ⟨slot, uses⟩ := last
    obtain ⟨-, -, hle, hcount, -⟩ := hfilled
    unfold place
    dsimp only
    split_ifs with htaken
    · rw [hcount]
    · have hnew : max (ceil period arrival) (slot + period) ∉ given := fun hmem =>
        absurd (hle _ hmem) (not_le.2 (lt_max_of_lt_right (by omega)))
      rw [List.count_eq_zero_of_not_mem hnew]

theorem place_filled (hperiod : 0 < period) (hcapacity : 0 < capacity) (hfilled : Filled period capacity given last)
    (arrival : ℤ) :
    Filled period capacity (given ++ [(place period capacity last arrival).1]) (some (place period capacity last arrival)) := by
  obtain ⟨hdvd, -, hge, hroom⟩ := place_free hperiod hcapacity hfilled arrival
  have huses := place_uses hperiod hfilled arrival
  generalize place period capacity last arrival = given' at hdvd hge hroom huses
  obtain ⟨slot, uses⟩ := given'
  dsimp only at hdvd hge hroom huses
  refine ⟨hdvd, by simp, ?_, ?_, ?_⟩
  · intro g hg
    rcases List.mem_append.1 hg with hg | hg
    · exact hge g hg
    · exact (List.mem_singleton.1 hg).le
  · rw [List.count_append, List.count_singleton_self, huses]
  · omega

theorem length_allocate (last : Option (ℤ × ℕ)) (arrivals : List ℤ) :
    (allocate period capacity last arrivals).length = arrivals.length := by
  induction arrivals generalizing last with
  | nil => rfl
  | cons arrival arrivals ih => rw [allocate, List.length_cons, List.length_cons, ih]

/-- **Every arrival of a run is given the earliest slot that it can be.** -/
theorem allocate_spec (hperiod : 0 < period) (hcapacity : 0 < capacity) {given : List ℤ} {last : Option (ℤ × ℕ)}
    (hfilled : Filled period capacity given last) {arrivals : List ℤ} {i : ℕ} {arrival slot : ℤ}
    (harrival : arrivals[i]? = some arrival) (hslot : (allocate period capacity last arrivals)[i]? = some slot) :
    IsLeast {s | Free period capacity (given ++ (allocate period capacity last arrivals).take i) arrival s} slot := by
  induction arrivals generalizing given last i with
  | nil => cases harrival
  | cons first arrivals ih =>
    rw [allocate] at hslot ⊢
    cases i with
    | zero =>
      cases harrival
      cases hslot
      rw [List.take_zero, List.append_nil]
      exact place_earliest hperiod hcapacity hfilled arrival
    | succ i =>
      have hrest := ih (place_filled hperiod hcapacity hfilled first) harrival hslot
      rwa [List.append_assoc] at hrest

/-- what a run gives is in order, and no slot is given too often -/
theorem allocate_bounded (hperiod : 0 < period) (hcapacity : 0 < capacity) (arrivals : List ℤ) :
    (allocate period capacity none arrivals).Pairwise (· ≤ ·) ∧ (∀ slot ∈ allocate period capacity none arrivals, period ∣ slot) ∧
      ∀ slot, (allocate period capacity none arrivals).count slot ≤ capacity := by
  have hspec := fun i arrival slot => @allocate_spec period capacity hperiod hcapacity [] none rfl arrivals i arrival slot
  have hlength := @length_allocate period capacity none arrivals
  generalize allocate period capacity none arrivals = slots at hspec hlength
  have hfree : ∀ i slot, slots[i]? = some slot → ∃ arrival, Free period capacity (slots.take i) arrival slot := by
    intro i slot hslot
    have hi : i < arrivals.length := hlength ▸ (List.getElem?_eq_some_iff.1 hslot).1
    exact ⟨arrivals[i], (hspec i arrivals[i] slot (List.getElem?_eq_getElem hi) hslot).1⟩
  refine ⟨?_, ?_, ?_⟩
  · rw [List.pairwise_iff_getElem]
    intro i j hi hj hij
    obtain ⟨-, -, -, hge, -⟩ := hfree j _ (List.getElem?_eq_getElem hj)
    exact hge _ (List.mem_take_iff_getElem.2 ⟨i, by omega, rfl⟩)
  · intro slot hslot
    obtain ⟨i, hi, rfl⟩ := List.mem_iff_getElem.1 hslot
    obtain ⟨-, hdvd, -⟩ := hfree i _ (List.getElem?_eq_getElem hi)
    exact hdvd
  · -- the first slots of the run, one more at a time
    intro slot
    have hcount : ∀ n, (slots.take n).count slot ≤ capacity := by
      intro n
      induction n with
      | zero => exact Nat.zero_le _
      | succ n ih =>
        by_cases hn : n < slots.length
        · rw [List.take_succ_eq_append_getElem hn, List.count_append]
          by_cases heq : slots[n] = slot
          · obtain ⟨-, -, -, -, hroom⟩ := hfree n _ (List.getElem?_eq_getElem hn)
            rw [heq] at hroom ⊢
            rw [List.count_singleton_self]
            exact hroom
          · rw [List.count_singleton, if_neg (by simpa using heq)]
            exact ih
        · rw [List.take_of_length_le (by omega)]
          rwa [List.take_of_length_le (by omega)] at ih
    have := hcount slots.length
    rwa [List.take_length] at this

/-- **No more are in service at a time than the capacity.** -/
theorem inService_le {slots : List ℤ} (hperiod : 0 < period) (hgrid : ∀ slot ∈ slots, period ∣ slot)
    (hcount : ∀ slot, slots.count slot ≤ capacity) (t : ℚ) :
    slots.countP (fun slot : ℤ => (slot : ℚ) ≤ t && t < (slot : ℚ) + period) ≤ capacity := by
  have hpositive : (0 : ℚ) < period := by exact_mod_cast hperiod
  -- whoever is in service at a time has the slot of that time
  refine le_trans ?_ (hcount (⌊t / period⌋ * period))
  rw [List.count]
  refine List.countP_mono_left fun slot hslot hservice => ?_
  obtain ⟨k, rfl⟩ := hgrid slot hslot
  simp only [Bool.and_eq_true, decide_eq_true_eq] at hservice
  obtain ⟨hstart, hend⟩ := hservice
  push_cast at hstart hend
  have hfloor : ⌊t / period⌋ = k := by
    rw [Int.floor_eq_iff, le_div_iff₀ hpositive, div_lt_iff₀ hpositive]
    constructor <;> linarith
  rw [hfloor, mul_comm, beq_self_eq_true]

end Slots

end Apar
