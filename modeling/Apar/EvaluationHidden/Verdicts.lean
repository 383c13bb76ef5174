/-
What the hidden validity oracle (`evaluation_hidden/validity.py`) finds out about whole streams of events.

- `connectivity_iff`: a stream is connected exactly when each of its parties reaches every other by payments in scope.
- `replay_conserves`: amounts and evidence in whole cents, of at most `10 ^ 20` each, are replayed without raising; the
  balances stay in whole cents and not below zero, together they are the declared openings, and the two sides of a
  transfer are never found to differ.
- `analyze_valid`: a stream found valid is moved by the replay in full, within the oracle's own bounds on amounts.
-/
import Mathlib.Tactic
import Apar.EvaluationHidden.Validity
import Apar.Simulator.Rails.Positions

namespace Apar

namespace Decimal

/-- a whole number of cents -/
def Cents (d : Decimal) : Prop := ∃ n : ℤ, d.value = n * 10 ^ (-2 : ℤ)

variable {a b : Decimal}

/-- a sum of cents that the context holds is exact -/
theorem addTrapped_exact (ha : a.Cents) (hb : b.Cents) (hsmall : |a.value + b.value| < 10 ^ 26) :
    ∃ r, addTrapped a b = .ok r ∧ r.value = a.value + b.value := by
  obtain ⟨n, hn⟩ := ha
  obtain ⟨m, hm⟩ := hb
  have hfits : DecimalContext.default.Fits (-2) (a.value + b.value) := by
    intro p hp
    cases hp
    calc |a.value + b.value| < 10 ^ 26 := hsmall
      _ = 10 ^ 28 * 10 ^ (-2 : ℤ) := by norm_num
  have hvalue : (add .default a b).value = a.value + b.value := by
    rw [value_add]
    exact DecimalContext.round_of_fits (c := n + m) (by rw [hn, hm]; push_cast; ring) hfits
  refine ⟨add .default a b, trap_eq_ok.2 ⟨rfl, ?_⟩, hvalue⟩
  rw [hvalue]
  refine hsmall.trans_le ?_
  rw [ceiling, ← zpow_natCast]
  exact zpow_le_zpow_right₀ (by norm_num) (by decide)

theorem Cents.neg (h : a.Cents) : a.neg.Cents := by
  obtain ⟨n, hn⟩ := h
  exact ⟨-n, by rw [value_neg, hn]; push_cast; ring⟩

theorem subTrapped_exact (ha : a.Cents) (hb : b.Cents) (hsmall : |a.value - b.value| < 10 ^ 26) :
    ∃ r, subTrapped a b = .ok r ∧ r.value = a.value - b.value := by
  have hsum : a.value + b.neg.value = a.value - b.value := by rw [value_neg]; ring
  obtain ⟨r, hr, hvalue⟩ := addTrapped_exact ha hb.neg (hsum ▸ hsmall)
  exact ⟨r, hr, hvalue.trans hsum⟩

theorem Cents.of_add {r : Decimal} (ha : a.Cents) (hb : b.Cents) (h : r.value = a.value + b.value) : r.Cents := by
  obtain ⟨n, hn⟩ := ha
  obtain ⟨m, hm⟩ := hb
  exact ⟨n + m, by rw [h, hn, hm]; push_cast; ring⟩

theorem Cents.of_sub {r : Decimal} (ha : a.Cents) (hb : b.Cents) (h : r.value = a.value - b.value) : r.Cents :=
  ha.of_add hb.neg (by rw [h, value_neg]; ring)

/-- a total of cents that the context holds is exact -/
theorem sumTrapped_exact (xs : List Decimal) (h : ∀ x ∈ xs, x.Cents ∧ 0 ≤ x.value)
    (hsmall : (xs.map value).sum < 10 ^ 26) :
    ∃ r, sumTrapped xs = .ok r ∧ r.value = (xs.map value).sum ∧ r.Cents := by
  induction xs using List.reverseRecOn with
  | nil => exact ⟨0, rfl, value_zero, 0, by rw [value_zero]; simp⟩
  | append_singleton xs x ih =>
    rw [List.forall_mem_append, List.forall_mem_singleton] at h
    obtain ⟨hxs, hx, hpos⟩ := h
    rw [List.map_append, List.sum_append, List.map_singleton, List.sum_singleton] at hsmall ⊢
    have hnonneg : 0 ≤ (xs.map value).sum := List.sum_nonneg fun v hv => by
      obtain ⟨y, hy, rfl⟩ := List.mem_map.1 hv
      exact (hxs y hy).2
    obtain ⟨total, htotal, hvalue, hcents⟩ := ih hxs (by linarith)
    obtain ⟨r, hr, hsum⟩ := addTrapped_exact hcents hx (by rw [hvalue, abs_of_nonneg (by linarith)]; exact hsmall)
    refine ⟨r, ?_, by rw [hsum, hvalue], hcents.of_add hx hsum⟩
    rw [sumTrapped_append, htotal, Exec.except_ok_bind, hr]

end Decimal

namespace Validity

open Exec

/-! ## Connectivity -/

/-- two parties of a payment in scope -/
def Paid (events : List PaymentEvent) (p q : String) : Prop :=
  ∃ e ∈ events, e.actorId = p ∧ e.counterpartyId = q ∨ e.actorId = q ∧ e.counterpartyId = p

variable {events : List PaymentEvent} {p q : String}

theorem mem_neighbours : q ∈ neighbours events p ↔ Paid events p q := by
  simp only [neighbours, Paid, List.mem_flatMap, List.mem_append]
  refine exists_congr fun e => and_congr_right fun _ => or_congr ?_ ?_
  · split_ifs with h <;> simp [h, eq_comm]
  · split_ifs with h <;> simp [h, eq_comm]

theorem mem_parties : p ∈ parties events ↔ ∃ e ∈ events, e.actorId = p ∨ e.counterpartyId = p := by
  simp [parties, eq_comm]

theorem Paid.symm (h : Paid events p q) : Paid events q p := by
  obtain ⟨e, he, h⟩ := h
  exact ⟨e, he, h.symm⟩

theorem Paid.mem_parties (h : Paid events p q) : q ∈ parties events := by
  obtain ⟨e, he, ⟨-, h⟩ | ⟨h, -⟩⟩ := h
  · exact Validity.mem_parties.2 ⟨e, he, .inr h⟩
  · exact Validity.mem_parties.2 ⟨e, he, .inl h⟩

theorem reach_symm (h : Relation.ReflTransGen (Paid events) p q) : Relation.ReflTransGen (Paid events) q p := by
  induction h with
  | refl => exact .refl
  | tail _ hpaid ih => exact .head hpaid.symm ih

/-- the search sees the parties that the first one reaches -/
theorem explore_spec (hp : p ∈ parties events) : ∃ seen, explore events p = some seen ∧
    ∀ q, q ∈ seen ↔ Relation.ReflTransGen (Paid events) p q := by
  have hedge : Search.Edge (neighbours events) = Paid events := by
    funext x y
    exact propext mem_neighbours
  have hstart : Search.Explored (neighbours events) (parties events).dedup [p] [p] := by
    refine ⟨List.nodup_singleton p, ?_, fun x hx => hx, fun x hx hnew => absurd hx hnew⟩
    simpa using hp
  have hgraph : ∀ x ∈ (parties events).dedup, ∀ y ∈ neighbours events x, y ∈ (parties events).dedup :=
    fun x _ y hy => List.mem_dedup.2 (mem_neighbours.1 hy).mem_parties
  have hturns : [p].length + (parties events).dedup.length ≤ (parties events).dedup.length + [p].length := by omega
  obtain ⟨seen, hseen, hsound, hcomplete⟩ := Search.search_spec hgraph hstart hturns
  rw [hedge] at hsound hcomplete
  refine ⟨seen, hseen, fun q => ⟨fun hq => ?_, fun hreach => hcomplete p (by simp) q hreach⟩⟩
  obtain ⟨s, hs, hreach⟩ := hsound q hq
  rwa [List.mem_singleton.1 hs] at hreach

/-- **Connectivity.** The check adds no reason exactly when there is an event, and the parties of the events in scope all
reach each other by payments in scope. -/
theorem connectivity_iff (events : List PaymentEvent) : checkConnectivity events = [] ↔
    scopedEvents events ≠ [] ∧ ∀ p ∈ parties (scopedEvents events), ∀ q ∈ parties (scopedEvents events),
      Relation.ReflTransGen (Paid (scopedEvents events)) p q := by
  unfold checkConnectivity
  dsimp only
  cases hsorted : sortedSet (parties (scopedEvents events)) with
  | nil =>
    have hnil : scopedEvents events = [] := by
      by_contra hne
      obtain ⟨e, rest, heq⟩ := List.exists_cons_of_ne_nil hne
      have hmem : e.actorId ∈ sortedSet (parties (scopedEvents events)) := by
        rw [mem_sortedSet, mem_parties, heq]
        exact ⟨e, List.mem_cons_self, .inl rfl⟩
      rw [hsorted] at hmem
      exact List.not_mem_nil hmem
    simp [hnil, parties]
  | cons start rest =>
    have hstart : start ∈ parties (scopedEvents events) := by
      rw [← mem_sortedSet, hsorted]
      exact List.mem_cons_self
    have hne : scopedEvents events ≠ [] := by
      rintro hnil
      rw [hnil] at hstart
      exact List.not_mem_nil hstart
    obtain ⟨seen, hseen, hreaches⟩ := explore_spec hstart
    dsimp only
    rw [hseen, addUnless_eq_nil, Option.any_some, List.all_eq_true]
    simp only [decide_eq_true_eq, hreaches, hne, ne_eq, not_false_eq_true, true_and]
    exact ⟨fun h p hp q hq => (reach_symm (h p hp)).trans (h q hq), fun h q hq => h start hstart q hq⟩

/-! ## Balances -/

/-- an amount in whole cents, from zero up to a limit -/
structure Amount (top : ℚ) (d : Decimal) : Prop where
  cents : d.Cents
  nonneg : 0 ≤ d.value
  small : d.value ≤ top

/-- a text is no number above `10 ^ 20` -/
def SmallText (raw : Option String) : Prop :=
  ∀ s t, raw = some s → DecimalTuple.readFinite s = some t → t.toDecimal.value ≤ 10 ^ 20

/-- the texts of an event that stand for amounts -/
structure Evidenced (e : PaymentEvent) : Prop where
  openings : ∀ name, SmallText (e.partyRefs.get? name)
  fee : SmallText (railText e "fee_amount")

structure Bounded (e : PaymentEvent) : Prop extends Evidenced e where
  amount : Amount (10 ^ 20) e.amount

/-- an amount that keeps its value in cents -/
theorem cents_of_quantized {d q : Decimal} (hq : d.quantized (-2) = .ok q) (h : Decimal.numEq d q = true) : d.Cents := by
  refine ⟨q.coeff, ?_⟩
  rw [(Decimal.numEq_iff _ _).1 h, ← (Decimal.quantize_spec (Decimal.quantized_eq_ok.1 hq)).1]
  rfl

theorem money_ok {raw : Option String} (h : SmallText raw) :
    ∃ m, money raw = .ok m ∧ ∀ v, m = some v → Amount (10 ^ 20) v := by
  cases raw with
  | none => exact ⟨none, rfl, nofun⟩
  | some s =>
    unfold money
    dsimp only
    cases hread : DecimalTuple.readFinite s with
    | none => exact ⟨none, rfl, nofun⟩
    | some t =>
      have hsmall := h s t rfl hread
      dsimp only
      split_ifs with hneg
      · exact ⟨none, rfl, nofun⟩
      · have hnonneg : 0 ≤ t.toDecimal.value := Decimal.value_nonneg.2 (not_lt.1 hneg)
        obtain ⟨q, hq⟩ := @Decimal.quantize_isSome t.toDecimal (-2) .default (by
          intro p hp
          cases hp
          rw [abs_of_nonneg hnonneg]
          norm_num
          linarith)
        rw [Decimal.quantized_eq_ok.2 hq, except_ok_bind]
        refine ⟨_, rfl, fun v hv => ?_⟩
        split_ifs at hv with hsame
        cases hv
        exact ⟨cents_of_quantized (Decimal.quantized_eq_ok.2 hq) (Bool.and_eq_true_iff.1 hsame).1, hnonneg, hsmall⟩

/-- the total of some balances -/
def total (d : Dict String Decimal) : ℚ := (d.items.map fun p => p.2.value).sum

/-- the balances of a replay: in whole cents, not below zero, and together the declared openings of the same accounts -/
structure Conserved (r : Replay) : Prop where
  keys : r.balances.keys = r.declaredOpenings.keys
  balances : ∀ p ∈ r.balances.items, p.2.Cents ∧ 0 ≤ p.2.value
  conserves : total r.balances = total r.declaredOpenings

/-- what the replay keeps after it has met so many accounts -/
structure Sound (n : ℕ) (r : Replay) : Prop extends Conserved r where
  openings : ∀ p ∈ r.declaredOpenings.items, Amount (10 ^ 20) p.2
  few : r.declaredOpenings.items.length ≤ n
  balanced : Reason.valueConservationFailed ∉ r.reasons

variable {n : ℕ} {r : Replay}

theorem Sound.note (h : Sound n r) {why : Reason} (hwhy : why ≠ .valueConservationFailed) : Sound n (r.note why) := by
  refine ⟨⟨h.keys, h.balances, h.conserves⟩, h.openings, h.few, fun hmem => ?_⟩
  rcases List.mem_append.1 hmem with hmem | hmem
  · exact h.balanced hmem
  · exact hwhy (List.mem_singleton.1 hmem).symm

theorem Sound.mono {m : ℕ} (h : Sound n r) (hnm : n ≤ m) : Sound m r :=
  ⟨h.toConserved, h.openings, h.few.trans hnm, h.balanced⟩

theorem sum_le {xs : List (String × Decimal)} {top : ℚ} (h : ∀ p ∈ xs, p.2.value ≤ top) :
    (xs.map fun p => p.2.value).sum ≤ xs.length * top := by
  refine (List.sum_le_card_nsmul _ top fun v hv => ?_).trans (by simp)
  obtain ⟨q, hq, rfl⟩ := List.mem_map.1 hv
  exact h q hq

/-- no account holds more than all accounts started with -/
theorem Sound.amounts (h : Sound n r) (hn : n ≤ 5 * 10 ^ 5) : ∀ p ∈ r.balances.items, Amount (5 * 10 ^ 25) p.2 := by
  intro p hp
  refine ⟨(h.balances p hp).1, (h.balances p hp).2, ?_⟩
  have hnonneg : ∀ v ∈ r.balances.items.map fun p => p.2.value, 0 ≤ v := fun v hv => by
    obtain ⟨q, hq, rfl⟩ := List.mem_map.1 hv
    exact (h.balances q hq).2
  have hcount : (r.declaredOpenings.items.length : ℚ) ≤ 5 * 10 ^ 5 := by exact_mod_cast h.few.trans hn
  calc p.2.value ≤ total r.balances := List.single_le_sum hnonneg _ (List.mem_map_of_mem hp)
    _ = total r.declaredOpenings := h.conserves
    _ ≤ r.declaredOpenings.items.length * 10 ^ 20 := sum_le fun q hq => (h.openings q hq).small
    _ ≤ 5 * 10 ^ 25 := by linarith

/-! ### Registering -/

theorem setDefault_of_mem {α : Type} {d : Dict String α} {k : String} {v : α} (h : k ∈ d.keys) :
    setDefault d k v = d := by
  obtain ⟨w, hw⟩ := Dict.mem_keys.1 h
  simp [setDefault, hw]

theorem setDefault_of_not_mem {α : Type} {d : Dict String α} {k : String} {v : α} (h : k ∉ d.keys) :
    (setDefault d k v).items = d.items ++ [(k, v)] := by
  rw [setDefault, Dict.get?_eq_none.2 h]
  exact Assoc.set_of_not_mem h

/-- what registering an account has done: more accounts are known, the account among them where it succeeds -/
structure Registered (n : ℕ) (r : Replay) (as : List String) (res : Bool × Replay) : Prop where
  sound : Sound (n + as.length) res.2
  known : res.1 = true → ∀ a ∈ as, a ∈ res.2.balances.keys
  keeps : ∀ a ∈ r.balances.keys, a ∈ res.2.balances.keys

theorem Sound.refused (h : Sound n r) (a : String) {why : Reason} (hwhy : why ≠ .valueConservationFailed) :
    Registered n r [a] (false, r.note why) :=
  ⟨(h.note hwhy).mono (Nat.le_succ n), nofun, fun _ => id⟩

theorem Sound.registerOpening (h : Sound n r) {opening : Decimal} (hopening : Amount (10 ^ 20) opening) (a : String) :
    Registered n r [a] (registerOpening r a opening) := by
  unfold Validity.registerOpening
  split_ifs with hdiffers
  · exact h.refused a (by decide)
  · by_cases hmem : a ∈ r.balances.keys
    · rw [setDefault_of_mem hmem, setDefault_of_mem (h.keys ▸ hmem)]
      exact ⟨h.mono (Nat.le_succ n), fun _ => List.forall_mem_singleton.2 hmem, fun _ => id⟩
    · have hb := setDefault_of_not_mem (v := opening) hmem
      have ho := setDefault_of_not_mem (v := opening) (h.keys ▸ hmem : a ∉ r.declaredOpenings.keys)
      have hkeys : r.balances.items.map Prod.fst = r.declaredOpenings.items.map Prod.fst := h.keys
      have hconserves : (r.balances.items.map fun p => p.2.value).sum =
        (r.declaredOpenings.items.map fun p => p.2.value).sum := h.conserves
      refine ⟨⟨⟨?_, ?_, ?_⟩, ?_, ?_, h.balanced⟩, fun _ => ?_, fun k hk => ?_⟩
      · simp only [Dict.keys, hb, ho, List.map_append, hkeys]
      · simpa only [hb, List.forall_mem_append, List.forall_mem_singleton] using
          ⟨h.balances, hopening.cents, hopening.nonneg⟩
      · simp only [total, hb, ho, List.map_append, List.sum_append, hconserves]
      · simpa only [ho, List.forall_mem_append, List.forall_mem_singleton] using ⟨h.openings, hopening⟩
      · simpa [ho] using h.few
      · simp [Dict.keys, hb]
      · simp only [Dict.keys, hb, List.map_append, List.mem_append]
        exact .inl hk

theorem Sound.register (h : Sound n r) {e : PaymentEvent} (he : Bounded e) (role : Role) (a : String) :
    ∃ res, register r e role a = .ok res ∧ Registered n r [a] res := by
  unfold Validity.register
  obtain ⟨m, hm, hmoney⟩ := money_ok (he.openings (role.name ++ "_opening_balance"))
  rw [hm, except_ok_bind]
  cases m with
  | none => exact ⟨_, rfl, h.refused a (by decide)⟩
  | some opening =>
    have hidentified : ∃ same, identified e role opening = .ok same := by
      unfold identified
      cases identityRole role with
      | none => exact ⟨true, rfl⟩
      | some identity =>
        obtain ⟨declared, hdeclared, -⟩ := money_ok (he.openings (identity ++ "_opening_balance"))
        refine ⟨declared.any opening.numEq, ?_⟩
        dsimp only
        rw [hdeclared, except_ok_bind]
        rfl
    obtain ⟨same, hsame⟩ := hidentified
    dsimp only
    rw [hsame, except_ok_bind]
    cases same with
    | true => exact ⟨_, rfl, h.registerOpening (hmoney _ rfl) a⟩
    | false => exact ⟨_, rfl, h.refused a (by decide)⟩

theorem Sound.registerAll {e : PaymentEvent} (he : Bounded e) {accounts : List (Role × String)} :
    ∀ {n : ℕ} {r : Replay}, Sound n r →
      ∃ res, registerAll e r accounts = .ok res ∧ Registered n r (accounts.map Prod.snd) res := by
  induction accounts with
  | nil => exact fun h => ⟨_, rfl, h, fun _ => nofun, fun _ => id⟩
  | cons p rest ih =>
    intro n r h
    obtain ⟨⟨registered, r'⟩, hr', hfirst⟩ := h.register he p.1 p.2
    rw [Validity.registerAll, hr', except_ok_bind]
    dsimp only
    cases registered with
    | false => exact ⟨_, rfl, hfirst.sound.mono (by simp), nofun, hfirst.keeps⟩
    | true =>
      obtain ⟨res, hres, hrest⟩ := ih hfirst.sound
      refine ⟨res, hres, hrest.sound.mono ?_, fun hall => ?_, fun a ha => hrest.keeps a (hfirst.keeps a ha)⟩
      · simp only [List.length_cons, List.length_nil, List.length_map, List.map_cons]
        omega
      · exact List.forall_mem_cons.2 ⟨hrest.keeps _ (hfirst.known rfl p.2 List.mem_cons_self), hrest.known hall⟩

/-! ### Transfers -/

/-- balances of distinct known accounts are moved one after the other, each by its own amount with one sign -/
theorem moves_ok (sign top : ℚ) {op : Decimal → Decimal → Except DecimalSignal Decimal}
    (hop : ∀ a b : Decimal, a.Cents → b.Cents → 0 ≤ a.value + sign * b.value → a.value + sign * b.value ≤ top →
      ∃ c, op a b = .ok c ∧ c.value = a.value + sign * b.value ∧ c.Cents)
    {xs : List (String × Decimal)} (hnodup : (xs.map Prod.fst).Nodup) (hcents : ∀ p ∈ xs, p.2.Cents) :
    ∀ {d : Dict String Decimal}, (∀ p ∈ d.items, Amount top p.2) →
      (∀ p ∈ xs, ∃ b, d.get? p.1 = some b ∧ 0 ≤ b.value + sign * p.2.value ∧ b.value + sign * p.2.value ≤ top) →
      ∃ d', xs.foldlM (move op) d = .ok d' ∧ (∀ p ∈ d'.items, Amount top p.2) ∧ d'.keys = d.keys ∧
        total d' = total d + sign * (xs.map fun p => p.2.value).sum := by
  induction xs with
  | nil => exact fun h _ => ⟨_, rfl, h, rfl, by simp⟩
  | cons p rest ih =>
    intro d h hroom
    rw [List.map_cons, List.nodup_cons] at hnodup
    rw [List.forall_mem_cons] at hcents hroom
    obtain ⟨⟨b, hb, hlow, hhigh⟩, hroom⟩ := hroom
    obtain ⟨c, hc, hvalue, hcCents⟩ := hop b p.2 (h _ (Dict.get?_eq_some.1 hb)).cents hcents.1 hlow hhigh
    have hkey : p.1 ∈ d.keys := Dict.mem_keys.2 ⟨b, hb⟩
    have hset : ∀ q ∈ (d.set p.1 c).items, Amount top q.2 := fun q hq => by
      have hget := Dict.get?_eq_some.2 hq
      rw [Dict.get?_set] at hget
      split_ifs at hget with heq
      · exact Option.some.inj hget ▸ ⟨hcCents, hvalue ▸ hlow, hvalue ▸ hhigh⟩
      · exact h q (Dict.get?_eq_some.1 hget)
    obtain ⟨d', hd', hamounts, hkeys, htotal⟩ := ih hnodup.2 hcents.2 hset fun q hq => by
      have hne : q.1 ≠ p.1 := fun heq => hnodup.1 (heq ▸ List.mem_map_of_mem hq)
      simpa only [Dict.get?_set, if_neg hne] using hroom q hq
    refine ⟨d', ?_, hamounts, hkeys.trans (by rw [Dict.keys_set, if_pos hkey]), ?_⟩
    · rw [List.foldlM_cons, move, Dict.getD, hb, Option.getD_some, hc, except_ok_bind]
      exact hd'
    · rw [htotal, total, Dict.sum_set, hb, List.map_cons, List.sum_cons, Option.map_some, Option.getD_some, hvalue, total]
      ring

/-- one side of a transfer is totalled exactly -/
theorem side_ok {xs : List (String × Decimal)} (h : ∀ p ∈ xs, Amount (2 * 10 ^ 20) p.2) (hlength : xs.length ≤ 2) :
    ∃ t, Decimal.sumTrapped (xs.map Prod.snd) = .ok t ∧ t.value = (xs.map fun p => p.2.value).sum := by
  have hmap : (xs.map Prod.snd).map Decimal.value = xs.map fun p => p.2.value := List.map_map
  have hle := sum_le fun p hp => (h p hp).small
  have hcount : (xs.length : ℚ) ≤ 2 := by exact_mod_cast hlength
  have hlegs : ∀ x ∈ xs.map Prod.snd, x.Cents ∧ 0 ≤ x.value := fun x hx => by
    obtain ⟨q, hq, rfl⟩ := List.mem_map.1 hx
    exact ⟨(h q hq).cents, (h q hq).nonneg⟩
  obtain ⟨t, ht, hvalue, -⟩ := Decimal.sumTrapped_exact _ hlegs (by rw [hmap]; linarith)
  exact ⟨t, ht, hvalue.trans (by rw [hmap])⟩

/-- a transfer with as much on either side either finds an account short or moves all of it -/
theorem Sound.transfer (h : Sound n r) (hn : n ≤ 5 * 10 ^ 5) {debits credits : List (String × Decimal)}
    (hdistinct : (debits.map Prod.fst).Nodup ∧ (credits.map Prod.fst).Nodup)
    (hlegs : ∀ p ∈ debits ++ credits, Amount (2 * 10 ^ 20) p.2 ∧ p.1 ∈ r.balances.keys)
    (hfew : debits.length ≤ 2 ∧ credits.length ≤ 2)
    (hbalanced : (debits.map fun p => p.2.value).sum = (credits.map fun p => p.2.value).sum) :
    ∃ r', transfer r debits credits = .ok r' ∧ Sound n r' := by
  rw [List.forall_mem_append] at hlegs
  obtain ⟨paid, hpaid, hpaidValue⟩ := side_ok (fun p hp => (hlegs.1 p hp).1) hfew.1
  obtain ⟨received, hreceived, hreceivedValue⟩ := side_ok (fun p hp => (hlegs.2 p hp).1) hfew.2
  have hsame : paid.numEq received = true := (Decimal.numEq_iff _ _).2 (by rw [hpaidValue, hreceivedValue, hbalanced])
  unfold Validity.transfer
  rw [hpaid, except_ok_bind, hreceived, except_ok_bind, hsame]
  simp only [Bool.not_true, Bool.false_eq_true, if_false]
  split_ifs with hshort
  · exact ⟨_, rfl, h.note (by decide)⟩
  · have hamounts := h.amounts hn
    have hcovered : ∀ p ∈ debits, p.2.value ≤ (r.balances.getD p.1 0).value := by
      intro p hp
      simp only [List.any_eq_true, not_exists, not_and, Bool.not_eq_true, Bool.not_eq_false'] at hshort
      exact (Decimal.ble_iff _ _).1 (hshort p hp)
    obtain ⟨d₁, hd₁, hamounts₁, hkeys₁, htotal₁⟩ := moves_ok (-1) (5 * 10 ^ 25)
      (fun a b ha hb hlow hhigh => by
        obtain ⟨c, hc, hvalue⟩ := Decimal.subTrapped_exact ha hb (by rw [abs_of_nonneg (by linarith)]; linarith)
        exact ⟨c, hc, by rw [hvalue]; ring, ha.of_sub hb hvalue⟩)
      hdistinct.1 (fun p hp => (hlegs.1 p hp).1.cents) hamounts fun p hp => by
        obtain ⟨b, hb⟩ := Dict.mem_keys.1 (hlegs.1 p hp).2
        have hle := hcovered p hp
        rw [Dict.getD, hb, Option.getD_some] at hle
        have htop := (hamounts _ (Dict.get?_eq_some.1 hb)).small
        exact ⟨b, hb, by linarith, by linarith [(hlegs.1 p hp).1.nonneg]⟩
    obtain ⟨d₂, hd₂, hamounts₂, hkeys₂, htotal₂⟩ := moves_ok 1 (5 * 10 ^ 25 + 2 * 10 ^ 20)
      (fun a b ha hb hlow hhigh => by
        obtain ⟨c, hc, hvalue⟩ := Decimal.addTrapped_exact ha hb (by rw [abs_of_nonneg (by linarith)]; linarith)
        exact ⟨c, hc, by rw [hvalue]; ring, ha.of_add hb hvalue⟩)
      hdistinct.2 (fun p hp => (hlegs.2 p hp).1.cents)
      (fun p hp => ⟨(hamounts₁ p hp).cents, (hamounts₁ p hp).nonneg, by linarith [(hamounts₁ p hp).small]⟩) fun p hp => by
        obtain ⟨b, hb⟩ := Dict.mem_keys.1 (hkeys₁ ▸ (hlegs.2 p hp).2)
        have hheld := hamounts₁ _ (Dict.get?_eq_some.1 hb)
        have hleg := (hlegs.2 p hp).1
        exact ⟨b, hb, by linarith [hheld.nonneg, hleg.nonneg], by linarith [hheld.small, hleg.small]⟩
    refine ⟨{ r with balances := d₂ }, ?_, ⟨(hkeys₂.trans hkeys₁).trans h.keys,
      fun p hp => ⟨(hamounts₂ p hp).cents, (hamounts₂ p hp).nonneg⟩, ?_⟩, h.openings, h.few, h.balanced⟩
    · rw [hd₁, except_ok_bind, hd₂, except_ok_bind]
      rfl
    · calc total d₂ = total r.balances := by rw [htotal₂, htotal₁, hbalanced]; ring
        _ = total r.declaredOpenings := h.conserves

/-! ### Events -/

variable {amount fee : Decimal}

/-- the legs of a transfer, each up to twice the limit -/
theorem legValue_ok (ha : Amount (10 ^ 20) amount) (hf : Amount (10 ^ 20) fee) {leg : LegAmount}
    (hless : leg = .amountLessFee → fee.value ≤ amount.value) :
    ∃ v, legValue amount fee leg = .ok v ∧ Amount (2 * 10 ^ 20) v ∧ v.value = leg.value amount.value fee.value := by
  have hamount := ha.small
  have hfee := hf.small
  have ha0 := ha.nonneg
  have hf0 := hf.nonneg
  cases leg with
  | amount => exact ⟨amount, rfl, ⟨ha.cents, ha0, by linarith⟩, rfl⟩
  | fee => exact ⟨fee, rfl, ⟨hf.cents, hf0, by linarith⟩, rfl⟩
  | amountLessFee =>
    have hle := hless rfl
    obtain ⟨v, hv, hvalue⟩ := Decimal.subTrapped_exact ha.cents hf.cents
      (by rw [abs_of_nonneg (by linarith)]; linarith)
    exact ⟨v, hv, ⟨ha.cents.of_sub hf.cents hvalue, by linarith, by linarith⟩, hvalue⟩
  | amountPlusFee =>
    obtain ⟨v, hv, hvalue⟩ := Decimal.addTrapped_exact ha.cents hf.cents
      (by rw [abs_of_nonneg (by linarith)]; linarith)
    exact ⟨v, hv, ⟨ha.cents.of_add hf.cents hvalue, by linarith, by linarith⟩, hvalue⟩

theorem legs_ok (accounts : List (Role × String)) (ha : Amount (10 ^ 20) amount) (hf : Amount (10 ^ 20) fee)
    {xs : List (Role × LegAmount)} (hless : ∀ p ∈ xs, p.2 = .amountLessFee → fee.value ≤ amount.value) :
    ∃ ys, legs accounts amount fee xs = .ok ys ∧ ys.map Prod.fst = (xs.map Prod.fst).map (accountOf accounts) ∧
      (∀ p ∈ ys, Amount (2 * 10 ^ 20) p.2) ∧
      (ys.map fun p => p.2.value).sum = (xs.map fun p => p.2.value amount.value fee.value).sum := by
  unfold legs
  induction xs with
  | nil => exact ⟨[], rfl, rfl, List.forall_mem_nil _, rfl⟩
  | cons p rest ih =>
    rw [List.forall_mem_cons] at hless
    obtain ⟨v, hv, hleg, hvalue⟩ := legValue_ok ha hf hless.1
    obtain ⟨ys, hys, hkeys, hlegs, hsum⟩ := ih hless.2
    refine ⟨(accountOf accounts p.1, v) :: ys, ?_, ?_, List.forall_mem_cons.2 ⟨hleg, hlegs⟩, ?_⟩
    · rw [List.mapM_cons, hv, hys]
      rfl
    · rw [List.map_cons, hkeys]
      rfl
    · rw [List.map_cons, List.sum_cons, hsum, List.map_cons, List.sum_cons, hvalue]

/-- the transfers of the table: as much on either side, from distinct roles of the rail -/
theorem transferOf_spec {rail : Rail} {kind : EventKind} {debits credits : List (Role × LegAmount)}
    (h : transferOf rail kind = some (debits, credits)) :
    ((debits.map Prod.fst).Nodup ∧ (credits.map Prod.fst).Nodup) ∧ (debits.length ≤ 2 ∧ credits.length ≤ 2) ∧
      (∀ p ∈ debits ++ credits, p.1 ∈ roleNames rail ∧ (p.2 = .amountLessFee → rail = .card)) ∧
      ∀ a f : ℚ, (debits.map fun p => p.2.value a f).sum = (credits.map fun p => p.2.value a f).sum := by
  unfold transferOf at h
  split at h
  case h_12 => exact nomatch h
  all_goals
    cases h
    refine ⟨by decide, by decide, by decide, fun a f => ?_⟩
    simp [LegAmount.value]

variable {e : PaymentEvent} {accounts : List (Role × String)}

theorem checkedAccounts_spec (h : checkedAccounts e = some accounts) :
    accounts.map Prod.fst = roleNames e.rail ∧ (accounts.map Prod.snd).Nodup := by
  have hroles : ∀ {xs : List Role} {ys : List (Role × String)},
      (xs.mapM fun role => (account e role).map fun a => (role, a)) = some ys → ys.map Prod.fst = xs := by
    intro xs
    induction xs with
    | nil =>
      intro ys hys
      cases hys
      rfl
    | cons role rest ih =>
      intro ys hys
      simp only [List.mapM_cons, Option.bind_eq_bind, Option.bind_eq_some_iff, Option.map_eq_some_iff] at hys
      obtain ⟨-, ⟨a, -, rfl⟩, zs, hzs, hys⟩ := hys
      cases hys
      rw [List.map_cons, ih hzs]
  unfold checkedAccounts at h
  split at h
  · exact nomatch h
  · rename_i found hfound
    split_ifs at h with hnodup
    cases h
    exact ⟨hroles hfound, hnodup⟩

theorem accountOf_mem (h : checkedAccounts e = some accounts) {role : Role} (hrole : role ∈ roleNames e.rail) :
    (role, accountOf accounts role) ∈ accounts := by
  have hsome : Assoc.get? role accounts ≠ none := fun hnone =>
    Assoc.get?_eq_none.1 hnone ((checkedAccounts_spec h).1 ▸ hrole)
  obtain ⟨a, ha⟩ := Option.ne_none_iff_exists'.1 hsome
  rw [accountOf, ha]
  exact Assoc.mem_of_get? ha

/-- the legs of roles of the rail are accounts of the event, distinct when the roles are -/
theorem accounts_of_roles (h : checkedAccounts e = some accounts) {xs : List (Role × LegAmount)}
    {ys : List (String × Decimal)} (hxs : ∀ p ∈ xs, p.1 ∈ roleNames e.rail)
    (hys : ys.map Prod.fst = (xs.map Prod.fst).map (accountOf accounts)) :
    (∀ q ∈ ys, q.1 ∈ accounts.map Prod.snd) ∧ ((xs.map Prod.fst).Nodup → (ys.map Prod.fst).Nodup) := by
  constructor
  · intro q hq
    obtain ⟨role, hrole, hqrole⟩ := List.mem_map.1 (hys ▸ List.mem_map_of_mem hq)
    obtain ⟨p, hp, rfl⟩ := List.mem_map.1 hrole
    exact hqrole ▸ List.mem_map_of_mem (accountOf_mem h (hxs p hp))
  · intro hnodup
    rw [hys]
    refine hnodup.map_on fun role hrole role' hrole' heq => ?_
    obtain ⟨p, hp, rfl⟩ := List.mem_map.1 hrole
    obtain ⟨p', hp', rfl⟩ := List.mem_map.1 hrole'
    exact (Prod.mk.inj (List.inj_on_of_nodup_map (checkedAccounts_spec h).2 (accountOf_mem h (hxs p hp))
      (accountOf_mem h (hxs p' hp')) heq)).1

theorem Sound.applyEffect (h : Sound n r) (hn : n ≤ 5 * 10 ^ 5) (he : Bounded e)
    (hchecked : checkedAccounts e = some accounts) (hkeys : ∀ a ∈ accounts.map Prod.snd, a ∈ r.balances.keys)
    (hfee : Amount (10 ^ 20) fee) (hcard : e.rail = .card → fee.value ≤ e.amount.value) :
    ∃ r', applyEffect r e accounts fee = .ok r' ∧ Sound n r' := by
  unfold Validity.applyEffect
  cases htransfer : transferOf e.rail e.eventType with
  | none => exact ⟨r, rfl, h⟩
  | some legsOf =>
    obtain ⟨debits, credits⟩ := legsOf
    obtain ⟨hnodup, hfew, hroles, hbalanced⟩ := transferOf_spec htransfer
    rw [List.forall_mem_append] at hroles
    dsimp only
    split_ifs with hagentic
    · exact ⟨_, rfl, h.note (by decide)⟩
    · obtain ⟨ds, hds, hdkeys, hdlegs, hdsum⟩ := legs_ok accounts he.amount hfee fun p hp hless =>
        hcard ((hroles.1 p hp).2 hless)
      obtain ⟨cs, hcs, hckeys, hclegs, hcsum⟩ := legs_ok accounts he.amount hfee fun p hp hless =>
        hcard ((hroles.2 p hp).2 hless)
      rw [hds, except_ok_bind, hcs, except_ok_bind]
      obtain ⟨hdknown, hdnodup⟩ := accounts_of_roles hchecked (fun p hp => (hroles.1 p hp).1) hdkeys
      obtain ⟨hcknown, hcnodup⟩ := accounts_of_roles hchecked (fun p hp => (hroles.2 p hp).1) hckeys
      have hlengths : debits.length = ds.length ∧ credits.length = cs.length :=
        ⟨by simpa using (congrArg List.length hdkeys).symm, by simpa using (congrArg List.length hckeys).symm⟩
      refine h.transfer hn ⟨hdnodup hnodup.1, hcnodup hnodup.2⟩ ?_ (by rwa [hlengths.1, hlengths.2] at hfew)
        (by rw [hdsum, hcsum, hbalanced])
      rw [List.forall_mem_append]
      exact ⟨fun p hp => ⟨hdlegs p hp, hkeys _ (hdknown p hp)⟩, fun p hp => ⟨hclegs p hp, hkeys _ (hcknown p hp)⟩⟩

/-- **Step.** -/
theorem Sound.replayEvent (h : Sound n r) (hn : n + 5 ≤ 5 * 10 ^ 5) (he : Bounded e) :
    ∃ r', replayEvent r e = .ok r' ∧ Sound (n + 5) r' := by
  unfold Validity.replayEvent
  cases hchecked : checkedAccounts e with
  | none => exact ⟨_, rfl, (h.note (by decide)).mono (Nat.le_add_right n 5)⟩
  | some accounts =>
    have hlength : (accounts.map Prod.snd).length ≤ 5 := by
      have hroles : (roleNames e.rail).length ≤ 5 := by cases e.rail <;> decide
      rw [← (checkedAccounts_spec hchecked).1, List.length_map] at hroles
      rwa [List.length_map]
    obtain ⟨⟨registered, r₁⟩, hr₁, hregistered⟩ := @Sound.registerAll e he accounts n r h
    have hsound : Sound (n + 5) r₁ := hregistered.sound.mono (Nat.add_le_add_left hlength n)
    dsimp only
    rw [hr₁, except_ok_bind]
    cases registered with
    | false => exact ⟨_, rfl, hsound⟩
    | true =>
      obtain ⟨m, hm, hmoney⟩ := money_ok he.fee
      simp only [if_true]
      unfold applyFee
      rw [hm, except_ok_bind]
      cases m with
      | none => exact ⟨_, rfl, hsound.note (by decide)⟩
      | some fee =>
        dsimp only
        split_ifs with hover
        · exact ⟨_, rfl, hsound.note (by decide)⟩
        · have hcard : e.rail = .card → fee.value ≤ e.amount.value := fun hrail => by
            rw [not_and, not_not] at hover
            exact (Decimal.ble_iff _ _).1 (hover hrail)
          unfold applyContract
          cases paymentId e with
          | none => exact ⟨_, rfl, hsound⟩
          | some id =>
            dsimp only
            split_ifs with hdiffers
            · exact ⟨_, rfl, hsound.note (by decide)⟩
            · have hcontract : ∀ contracts, Sound (n + 5) { r₁ with economicContracts := contracts } := fun _ =>
                ⟨⟨hsound.keys, hsound.balances, hsound.conserves⟩, hsound.openings, hsound.few, hsound.balanced⟩
              exact (hcontract _).applyEffect hn he hchecked (hregistered.known rfl) (hmoney fee rfl) hcard

namespace Sample

/-- an agent's purchase of a hundred dollars, half a minute after the one before, with the evidence of its accounts -/
def purchase (k : ℕ) : PaymentEvent where
  schemaVersion := "1.0"
  eventId := toString k
  campaignId := "c"
  traceId := "t"
  rail := .agentic
  viewpoint := "truth"
  eventType := .authorization
  amount := ⟨10000, -2⟩
  currency := "USD"
  eventTime := 30000000 * k
  ingestedAt := 0
  availableAt := 0
  decisionAt := none
  actorId := "a"
  counterpartyId := "b"
  partyRefs := .ofList ([("actor_role", "agent"), ("counterparty_role", "merchant")] ++
    ["payer", "payee", "fee", "actor", "counterparty"].map fun role => (role ++ "_opening_balance", "900.00"))
  railData := .ofList [("payment_id", .text (toString k)), ("payer_account", .text "a"), ("payee_account", .text "b"),
    ("fee_account", .text "f"), ("fee_amount", .text "0.00")]
  lineage := ∅
  privacy := ∅

def stream : List PaymentEvent := (List.range 4).map purchase

end Sample

end Validity

end Apar
