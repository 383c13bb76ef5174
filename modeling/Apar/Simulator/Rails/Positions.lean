/-
What a lifecycle state says about the ledger.

A `PositionTable` assigns to every lifecycle state and account role the value a payment in that state has moved onto the
role's account, as a function of its amount and fee; its `step` field says that every transition's ledger effect is the
difference of the two states' positions. For any rail with such a table:

- `effect_entry`: an accepted posting of an effect moves exactly the effect's legs, with no rounding.
- `calls_inv`: over any run, the ledger entries of a payment add up to the position of its stored state, and all
  entries add up to the positions of all payments.
- `run_balances`: while the ledger's additions are exact, every balance is the opening balance plus those positions.
-/
import Mathlib.Algebra.BigOperators.Group.Finset.Basic
import Apar.Simulator.Rails.Lifecycle

namespace Apar

open Exec

/-! ## Positions -/

/-- the value of a leg for an amount and a fee -/
def LegAmount.value (a f : ℚ) : LegAmount → ℚ
  | amount => a
  | fee => f
  | amountLessFee => a - f
  | amountPlusFee => a + f

section Legs

variable {R : Type} [DecidableEq R]

/-- the value a list of legs puts on a role -/
def legsOn (l : List (R × LegAmount)) (r : R) (a f : ℚ) : ℚ :=
  (l.map fun p => if p.1 = r then p.2.value a f else 0).sum

/-- the net value an effect puts on a role -/
def effectOn (effect : Option (Posting R)) (r : R) (a f : ℚ) : ℚ :=
  match effect with
  | none => 0
  | some posting => legsOn posting.credit r a f - legsOn posting.debit r a f

end Legs

/-- the positions of a rail: by state, role, amount and fee -/
structure PositionTable {S O R : Type} [DecidableEq R] (L : Lifecycle S O R) where
  position : S → R → ℚ → ℚ → ℚ
  created : ∀ r a f, position L.created r a f = 0
  step : ∀ {st o next kind effect}, L.transition st o = some (next, kind, effect) →
    ∀ r a f, position next r a f = position st r a f + effectOn effect r a f
  /-- no role is debited or credited twice by an effect, or both -/
  legs_nodup : ∀ {st o next kind posting}, L.transition st o = some (next, kind, some posting) →
    ((posting.debit ++ posting.credit).map Prod.fst).Nodup
  roles : ∀ r, r ∈ L.roles

section Positions

variable {S O R : Type} [Fintype R] [DecidableEq R] {L : Lifecycle S O R}

/-- the value a payment has moved onto an account in a currency -/
def positionOn (T : PositionTable L) (state : PaymentState S R) (account currency : String) : ℚ :=
  if currency = state.opening.currency then
    ∑ r, if state.opening.accounts r = account then
      T.position state.state r state.opening.amount.value state.opening.fee.value else 0
  else 0

/-- the event id an entry id starts with -/
def entryEventId (entry : LedgerEntry) : String := String.ofList (entry.entryId.toList.takeWhile (· ≠ ':'))

/-- the ledger entries posted with an event of a payment -/
def paymentEntries {κ σ α : Type} (s : Engine κ σ α) (paymentId : String) : List LedgerEntry :=
  s.ledger.entries.filter fun entry =>
    s.events.any fun e => e.eventId = entryEventId entry && e.paymentId? = some paymentId

/-! ## The legs of an effect -/

variable {ctx : DecimalContext} {o : Opening R} {s s' : Engine (Command O) (PaymentState S R) Unit}

omit [Fintype R] in
theorem accounts_injective (T : PositionTable L) (h : L.Canonical ctx o) : Function.Injective o.accounts := by
  intro r r' hr
  exact List.inj_on_of_nodup_map h.accounts (T.roles r) (T.roles r') hr

omit [Fintype R] [DecidableEq R] in
/-- a leg that the ledger could quantise was computed and posted exactly -/
theorem leg_exact (h : L.Canonical ctx o) {k : ℕ} (hk : currencyExponent? o.currency = some k) {leg : LegAmount}
    {q : Decimal} (hq : (leg.eval ctx o).quantize ctx (-k) = some q) :
    q.value = leg.value o.amount.value o.fee.value := by
  obtain ⟨k', hk', hamount, -⟩ := Lifecycle.money_eq_ok h.amount
  obtain ⟨k'', hk'', hfee, -⟩ := Lifecycle.money_eq_ok h.fee
  rw [hk] at hk' hk''
  cases hk'
  cases hk''
  have hae := (Decimal.quantize_spec hamount).1
  have hfe := (Decimal.quantize_spec hfee).1
  have hvalue : ∀ c : ℤ, (⟨o.amount.coeff + c, -(k : ℤ)⟩ : Decimal).value =
      o.amount.value + (⟨c, -(k : ℤ)⟩ : Decimal).value := by
    intro c
    simp only [Decimal.value, hae, Int.cast_add]
    ring
  cases leg with
  | amount =>
    rw [LegAmount.eval, hamount, Option.some.injEq] at hq
    rw [← hq, LegAmount.value]
  | fee =>
    rw [LegAmount.eval, hfee, Option.some.injEq] at hq
    rw [← hq, LegAmount.value]
  | amountLessFee =>
    have hneg : o.fee.neg.exp = -(k : ℤ) := hfe
    rw [Decimal.quantize_add hae hneg hq, hvalue, LegAmount.value, sub_eq_add_neg, ← Decimal.value_neg]
    simp [Decimal.value, hfe, Decimal.neg]
  | amountPlusFee =>
    rw [Decimal.quantize_add hae hfe hq, hvalue, LegAmount.value]
    simp [Decimal.value, hfe]

omit [Fintype R] in
theorem items_legs (T : PositionTable L) (h : L.Canonical ctx o) {l : List (R × LegAmount)}
    (hl : (l.map Prod.fst).Nodup) :
    (Lifecycle.legs ctx o l).items = l.map fun p => (o.accounts p.1, p.2.eval ctx o) := by
  unfold Lifecycle.legs
  rw [Dict.items_ofList]
  have := hl.map (accounts_injective T h)
  rwa [List.map_map] at this ⊢

/-- the normalised legs of an effect, summed over the roles that sit on an account -/
theorem legValue_legs (T : PositionTable L) (h : L.Canonical ctx o) {l : List (R × LegAmount)}
    (hl : (l.map Prod.fst).Nodup) {legs' : Dict String Decimal}
    (hlegs : Ledger.normalizeDict ctx o.currency (Lifecycle.legs ctx o l) = .ok legs') (account : String) :
    Ledger.legValue legs' account =
      ∑ r, if o.accounts r = account then legsOn l r o.amount.value o.fee.value else 0 := by
  have hkeys : ((l.map fun p => (o.accounts p.1, p.2)).map Prod.fst).Nodup := by
    have := hl.map (accounts_injective T h)
    rwa [List.map_map] at this ⊢
  have hitems : (Lifecycle.legs ctx o l).items =
      (l.map fun p => (o.accounts p.1, p.2)).map fun p => (p.1, p.2.eval ctx o) := by
    rw [items_legs T h hl, List.map_map]
    rfl
  -- the posted value of the account, by the leg that names it
  have hposted : Ledger.legValue legs' account =
      ((Assoc.get? account (l.map fun p => (o.accounts p.1, p.2))).map
        (LegAmount.value o.amount.value o.fee.value)).getD 0 := by
    have hnorm := Ledger.normalizeDict_items hlegs
    rw [hitems] at hnorm
    unfold Ledger.legValue Dict.getD
    cases hget : legs'.get? account with
    | none =>
      have hnone : account ∉ (l.map fun p => (o.accounts p.1, p.2)).map Prod.fst := by
        have := Assoc.get?_eq_none.1 hget
        rw [Ledger.normalizeLegs_keys hnorm] at this
        simpa [List.map_map, Function.comp_def] using this
      simp [Assoc.get?_eq_none.2 hnone]
    | some q =>
      obtain ⟨amount, hamount, -, -, hq⟩ := Ledger.normalizeLegs_get? hnorm hget
      rw [Assoc.get?_map] at hamount
      obtain ⟨leg, hleg, rfl⟩ := Option.map_eq_some_iff.1 hamount
      obtain ⟨k, hk, hquant⟩ := Ledger.quantizeAmount_eq_ok.1 hq
      simp [hleg, leg_exact h hk hquant]
  rw [hposted, ← Assoc.sum_get? _ account hkeys]
  -- both sides are sums over the legs
  clear hposted hitems hkeys hlegs hl
  induction l with
  | nil => simp [legsOn]
  | cons p rest ih =>
    have hsplit : ∀ r, legsOn (p :: rest) r o.amount.value o.fee.value =
        (if p.1 = r then p.2.value o.amount.value o.fee.value else 0) +
          legsOn rest r o.amount.value o.fee.value := by
      intro r
      simp [legsOn]
    simp only [List.map_cons, List.sum_cons, ih, hsplit]
    have hone : (∑ r, if o.accounts r = account then
        (if p.1 = r then p.2.value o.amount.value o.fee.value else 0) else 0) =
        if o.accounts p.1 = account then p.2.value o.amount.value o.fee.value else 0 := by
      rw [Finset.sum_eq_single p.1]
      · simp
      · intro r _ hr
        simp [hr.symm]
      · intro hr
        exact absurd (Finset.mem_univ _) hr
    rw [← hone, ← Finset.sum_add_distrib]
    refine Finset.sum_congr rfl fun r _ => ?_
    split_ifs <;> simp

theorem entryEventId_of {p n : ℕ} {suffix : String} {entry : LedgerEntry}
    (h : entry.entryId = Engine.uuidAt p n ++ ":" ++ suffix) : entryEventId entry = Engine.uuidAt p n := by
  have hno : ∀ c ∈ (Engine.uuidAt p n).toList, decide (c ≠ ':') = true := by
    intro c hc
    rw [decide_eq_true_eq]
    rintro rfl
    exact Uuid.formatUuid_no_colon _ hc
  unfold entryEventId
  rw [h, String.append_assoc, String.toList_append, List.takeWhile_append_of_pos hno]
  simp

/-- **What an effect posts.** The ledger gains at most one entry, under the event's id; it debits and credits no account
twice and moves exactly the effect's legs. -/
theorem effect_entry (T : PositionTable L) (h : L.Canonical ctx o) {st next : S} {op : O} {kind : EventKind}
    {effect : Option (Posting R)} (hlegal : L.transition st op = some (next, kind, effect)) {p n : ℕ}
    {before after : Ledger} (hpost : Lifecycle.Posts ctx o (Engine.uuidAt p n) before after effect) :
    ∃ entries, after.entries = before.entries ++ entries ∧
      (∀ entry ∈ entries, entryEventId entry = Engine.uuidAt p n) ∧ Ledger.OneSided entries ∧
      (∀ account currency, Ledger.netEffect entries account currency =
        if currency = o.currency then
          ∑ r, if o.accounts r = account then effectOn effect r o.amount.value o.fee.value else 0 else 0) ∧
      ∀ opening, Ledger.Posted ctx opening before → Ledger.Posted ctx opening after := by
  cases effect with
  | none =>
    have hsame : after = before := hpost
    subst hsame
    exact ⟨[], by simp, by simp, by simp [Ledger.OneSided], by simp [effectOn], fun _ hb => hb⟩
  | some posting =>
    obtain ⟨debits, credits, k, -, hdebits, hcredits, -, -, hentries, -, -⟩ := Ledger.post_spec hpost
    have hnodup := T.legs_nodup hlegal
    rw [List.map_append, List.nodup_append] at hnodup
    refine ⟨_, hentries, ?_, ?_, ?_, fun opening hb => Ledger.post_posted hb hpost⟩
    · intro entry hentry
      rw [List.mem_singleton] at hentry
      subst hentry
      exact entryEventId_of rfl
    · intro entry hentry account
      rw [List.mem_singleton] at hentry
      subst hentry
      by_contra hboth
      rw [not_or, Dict.get?_eq_none, Dict.get?_eq_none, not_not, not_not, Ledger.normalizeDict_keys hdebits,
        Ledger.normalizeDict_keys hcredits] at hboth
      simp only [Dict.keys, Lifecycle.effectEntry, items_legs T h hnodup.1, items_legs T h hnodup.2.1, List.map_map,
        List.mem_map, Function.comp_apply] at hboth
      obtain ⟨⟨d, hd, hda⟩, ⟨c, hc, hca⟩⟩ := hboth
      have hrole : d.1 = c.1 := accounts_injective T h (hda.trans hca.symm)
      exact hnodup.2.2 d.1 (List.mem_map_of_mem hd) c.1 (List.mem_map_of_mem hc) hrole
    · intro account currency
      rw [Ledger.netEffect_singleton]
      unfold Ledger.entryEffect
      rcases eq_or_ne currency o.currency with rfl | hc
      · simp only [Lifecycle.effectEntry, if_true]
        rw [legValue_legs T h hnodup.2.1 hcredits, legValue_legs T h hnodup.1 hdebits, ← Finset.sum_sub_distrib]
        refine Finset.sum_congr rfl fun r _ => ?_
        split_ifs
        · rfl
        · simp
      · simp [Lifecycle.effectEntry, hc, hc.symm]

/-! ## Runs -/

/-- the positions of a transition: the state it starts from, plus its effect -/
theorem positionOn_advance [Sha256] [DecidableEq S] (T : PositionTable L) {emitted : List PaymentEvent}
    (t : Lifecycle.Transition L ctx s s' emitted) (account currency : String) :
    positionOn T t.updated account currency = positionOn T t.state account currency +
      if currency = t.state.opening.currency then
        ∑ r, if t.state.opening.accounts r = account then
          effectOn t.effect r t.state.opening.amount.value t.state.opening.fee.value else 0 else 0 := by
  have hopening : t.updated.opening = t.state.opening := rfl
  have hnext : t.updated.state = t.next := rfl
  unfold positionOn
  rw [hopening, hnext]
  split_ifs with hc
  · rw [← Finset.sum_add_distrib]
    refine Finset.sum_congr rfl fun r _ => ?_
    rw [T.step t.legal]
    split_ifs
    · rfl
    · simp
  · simp

theorem positionOn_created (T : PositionTable L) {state : PaymentState S R} (h : state.state = L.created)
    (account currency : String) : positionOn T state account currency = 0 := by
  simp [positionOn, h, T.created]

/-- the position of the payment stored under an id, zero when there is none -/
def storedPosition (T : PositionTable L) (s : Engine (Command O) (PaymentState S R) Unit)
    (paymentId account currency : String) : ℚ :=
  ((s.entityState.get? paymentId).map fun state => positionOn T state account currency).getD 0

/-- the run invariant of a lifecycle rail -/
structure Inv (T : PositionTable L) (ctx : DecimalContext) (opening : Ledger)
    (s : Engine (Command O) (PaymentState S R) Unit) : Prop where
  posted : Ledger.Posted ctx opening s.ledger
  one_sided : Ledger.OneSided s.ledger.entries
  prefix_lt : s.uuidPrefix < 2 ^ 80
  sequence_le : s.uuidSequence ≤ 2 ^ 48
  issued : ∀ e ∈ s.events, ∃ n < s.uuidSequence, e.eventId = Engine.uuidAt s.uuidPrefix n
  named : ∀ entry ∈ s.ledger.entries, ∃ e ∈ s.events, entryEventId entry = e.eventId
  net : ∀ paymentId account currency, Ledger.netEffect (paymentEntries s paymentId) account currency =
    storedPosition T s paymentId account currency
  total : ∀ account currency, Ledger.netEffect s.ledger.entries account currency =
    (s.entityState.items.map fun p => positionOn T p.2 account currency).sum

theorem inv_fresh (T : PositionTable L) {opening : Dict AccountReference Decimal} {allow : List AccountReference}
    {ledger : Ledger} (hledger : Ledger.create ctx opening allow = .ok ledger) (rail : Rail) (viewpoint : String)
    {uuidPrefix : ℕ} (hhead : uuidPrefix < 2 ^ 80) (start : Time) :
    Inv T ctx ledger (Engine.fresh rail viewpoint uuidPrefix start ledger ()) := by
  obtain ⟨hposted, hentries⟩ := Ledger.create_posted hledger
  refine ⟨hposted, ?_, hhead, by simp [Engine.fresh], by simp [Engine.fresh], ?_, ?_, ?_⟩
  · simp [Engine.fresh, hentries, Ledger.OneSided]
  · simp [Engine.fresh, hentries]
  · simp [Engine.fresh, hentries, paymentEntries, storedPosition]
  · simp [Engine.fresh, hentries]

theorem Inv.books {T : PositionTable L} {ctx : DecimalContext} {opening : Ledger}
    {s s' : Engine (Command O) (PaymentState S R) Unit} (hs : Inv T ctx opening s)
    (h : Lifecycle.Advanced s s' s.ledger s.entityState s.events s.uuidSequence) : Inv T ctx opening s' := by
  have hentries : ∀ paymentId, paymentEntries s' paymentId = paymentEntries s paymentId := by
    intro paymentId
    unfold paymentEntries
    rw [h.ledger, h.events]
  refine ⟨?_, ?_, ?_, ?_, ?_, ?_, ?_, ?_⟩
  · exact h.ledger ▸ hs.posted
  · exact h.ledger ▸ hs.one_sided
  · exact h.uuidPrefix ▸ hs.prefix_lt
  · exact h.uuidSequence ▸ hs.sequence_le
  · rw [h.events, h.uuidSequence, h.uuidPrefix]
    exact hs.issued
  · rw [h.events, h.ledger]
    exact hs.named
  · intro paymentId account currency
    rw [hentries, hs.net]
    unfold storedPosition
    rw [h.entityState]
  · rw [h.ledger, h.entityState]
    exact hs.total

/-- an appended event and the entries posted under its id leave every other payment's entries as they were -/
theorem paymentEntries_append {κ σ α : Type} {s s' : Engine κ σ α} {e : PaymentEvent} {entries : List LedgerEntry}
    (hledger : s'.ledger.entries = s.ledger.entries ++ entries) (hevents : s'.events = s.events ++ [e])
    (hnamed : ∀ entry ∈ s.ledger.entries, entryEventId entry ≠ e.eventId)
    (hnew : ∀ entry ∈ entries, entryEventId entry = e.eventId)
    (hfresh : ∀ e' ∈ s.events, e'.eventId ≠ e.eventId) (paymentId : String) :
    paymentEntries s' paymentId =
      paymentEntries s paymentId ++ if e.paymentId? = some paymentId then entries else [] := by
  unfold paymentEntries
  rw [hledger, hevents, List.filter_append]
  congr 1
  · refine List.filter_congr fun entry hentry => ?_
    have hne : (e.eventId = entryEventId entry) = False := eq_false (hnamed entry hentry).symm
    simp [List.any_append, hne]
  · have hold : ∀ entry ∈ entries, (s.events.any fun e' => e'.eventId = entryEventId entry &&
        e'.paymentId? = some paymentId) = false := by
      intro entry hentry
      rw [List.any_eq_false]
      intro e' he'
      simp [hnew entry hentry, hfresh e' he']
    split_ifs with hp
    · rw [List.filter_eq_self]
      intro entry hentry
      simp [List.any_append, hnew entry hentry, hp]
    · rw [List.filter_eq_nil_iff]
      intro entry hentry
      rw [List.any_append, hold entry hentry]
      simp [hp]

/-- **Step.** A transition keeps the invariant. -/
theorem Inv.advance [Sha256] [DecidableEq S] {T : PositionTable L} {opening : Ledger}
    {s₁ : Engine (Command O) (PaymentState S R) Unit} {emitted : List PaymentEvent} (hs : Inv T ctx opening s)
    (t : Lifecycle.Transition L ctx s s₁ emitted)
    (h : Lifecycle.Advanced s s' t.ledger (s.entityState.set t.canonical.paymentId t.updated) (s.events ++ [t.event])
      (s.uuidSequence + 1)) : Inv T ctx opening s' := by
  obtain ⟨hcanonical, hid, -⟩ := Lifecycle.validatedState_spec t.valid
  obtain ⟨entries, hentries, hnamed, hone, hnet, hposted⟩ := effect_entry T hcanonical t.legal t.posted
  have heventId : t.event.eventId = Engine.uuidAt s.uuidPrefix s.uuidSequence := rfl
  have hpaymentId : t.event.paymentId? = some t.canonical.paymentId := by
    rw [← hid]
    exact Lifecycle.event_paymentId ..
  -- the new event id is fresh
  have hfresh : ∀ e ∈ s.events, e.eventId ≠ t.event.eventId := by
    intro e he heq
    obtain ⟨n, hn, hen⟩ := hs.issued e he
    rw [heventId, hen] at heq
    have hseq := t.sequence
    have := Engine.uuidAt_inj hs.prefix_lt (by omega) hseq heq
    omega
  have hnamed' : ∀ entry ∈ s.ledger.entries, entryEventId entry ≠ t.event.eventId := by
    intro entry hentry heq
    obtain ⟨e, he, hname⟩ := hs.named entry hentry
    exact hfresh e he (hname ▸ heq)
  have hledger : s'.ledger.entries = s.ledger.entries ++ entries := h.ledger ▸ hentries
  -- the position of the state the transition starts from
  have hbefore : ∀ account currency, storedPosition T s t.canonical.paymentId account currency =
      positionOn T t.state account currency := by
    intro account currency
    unfold storedPosition
    rcases t.loaded_cases with hget | ⟨hget, hcreated⟩
    · rw [hget]
      rfl
    · rw [hget, positionOn_created T hcreated]
      rfl
  refine ⟨?_, ?_, ?_, ?_, ?_, ?_, ?_, ?_⟩
  · rw [h.ledger]
    exact hposted opening hs.posted
  · intro entry hentry
    rw [hledger, List.mem_append] at hentry
    rcases hentry with hentry | hentry
    · exact hs.one_sided entry hentry
    · exact hone entry hentry
  · exact h.uuidPrefix ▸ hs.prefix_lt
  · rw [h.uuidSequence]
    exact t.sequence
  · rw [h.events, h.uuidSequence, h.uuidPrefix]
    intro e he
    rw [List.mem_append, List.mem_singleton] at he
    rcases he with he | rfl
    · obtain ⟨n, hn, hen⟩ := hs.issued e he
      exact ⟨n, by omega, hen⟩
    · exact ⟨s.uuidSequence, by omega, heventId⟩
  · rw [hledger, h.events]
    intro entry hentry
    rw [List.mem_append] at hentry
    rcases hentry with hentry | hentry
    · obtain ⟨e, he, hname⟩ := hs.named entry hentry
      exact ⟨e, List.mem_append_left _ he, hname⟩
    · exact ⟨t.event, by simp, (hnamed entry hentry).trans heventId.symm⟩
  · intro paymentId account currency
    rw [paymentEntries_append hledger h.events hnamed' hnamed hfresh, Ledger.netEffect_append, hs.net, hpaymentId]
    unfold storedPosition
    rw [h.entityState, Dict.get?_set]
    rcases eq_or_ne paymentId t.canonical.paymentId with rfl | hp
    · have := hbefore account currency
      unfold storedPosition at this
      rw [this]
      simp only [if_true, hnet, Option.map_some, Option.getD_some, positionOn_advance]
    · simp [hp, hp.symm]
  · intro account currency
    rw [hledger, Ledger.netEffect_append, hs.total, h.entityState, hnet,
      Dict.sum_set (fun p => positionOn T p.2 account currency), positionOn_advance, ← hbefore]
    unfold storedPosition
    ring

/-- what a turn of the rail keeps -/
theorem inv_preserved [Sha256] [DecidableEq S] (T : PositionTable L) (ctx : DecimalContext) (opening : Ledger) :
    Engine.Preserved (L.adapter ctx) (Inv T ctx opening) where
  books := by
    intro s s' hs hsame
    refine hs.books ?_
    rw [hsame]
    exact ⟨rfl, rfl, rfl, rfl, rfl⟩
  init := by
    intro s s' u hs hinit
    rw [Lifecycle.init_spec hinit]
    exact hs
  turn := by
    intro s s₁ s' command emitted hs hhandle happend
    rcases Lifecycle.turn_spec hhandle happend with hsame | ⟨t, hadvanced⟩
    · exact hs.books hsame
    · exact hs.advance t hadvanced

/-- **Balances.** While the ledger's additions are exact, a balance is its opening balance plus the positions of all
payments. -/
theorem Inv.balances {T : PositionTable L} {opening : Ledger} (hs : Inv T ctx opening s)
    (hexact : Ledger.Exact ctx opening s.ledger.entries) {account currency : String} {k : ℕ}
    (hk : currencyExponent? currency = some k) :
    (s.ledger.balance account currency).value = (opening.balance account currency).value +
      (s.entityState.items.map fun p => positionOn T p.2 account currency).sum := by
  rw [← hs.total]
  exact (hs.posted.balance_eq hexact hs.one_sided account currency k hk).1

end Positions

end Apar
