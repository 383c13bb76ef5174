/-
When a population is generated, and what its benign commands do.

- `balances_items`: every entity account has its opening balance, beside the accounts of the rails.
- `activity_ok`: an activity between entities with accounts is scheduled, with the three commands of a covered transfer.
- `generate_made`: from eleven benign entities on a population comes out, closed and within its horizon.
- `Made.commandsRun`: and its benign commands run.
- `generate_fails`: with nine or ten, which the count check admits, a payer is looked up in vain.
- `population_total_iff`: the exact condition for a population that is closed and whose commands run.
-/
import Apar.Generators.PopulationGraph

namespace Apar

open Exec Population Engine Lifecycle

namespace PopulationGenerator

variable {g : PopulationGenerator} {bundle : ScenarioBundle}

/-! ## Accounts -/

/-- entities whose accounts are named after them, under distinct ids -/
structure Named (entities : List Entity) : Prop where
  ids : (entities.map Entity.entityId).Nodup
  canonical : ∀ e ∈ entities, Canonical e.entityId
  accounts : ∀ e ∈ entities, ∀ account, e.accountId = some account → account = "acct:" ++ e.entityId

theorem filterMap_sublist_map {α β : Type} {f : α → Option β} {h : α → β} :
    ∀ {xs : List α}, (∀ x ∈ xs, ∀ y, f x = some y → y = h x) → (xs.filterMap f).Sublist (xs.map h)
  | [], _ => .slnil
  | x :: xs, hf => by
    have ih := filterMap_sublist_map fun y hy => hf y (List.mem_cons_of_mem x hy)
    rw [List.map_cons]
    cases hx : f x with
    | none =>
      rw [List.filterMap_cons_none hx]
      exact ih.cons _
    | some y =>
      rw [List.filterMap_cons_some hx, hf x List.mem_cons_self y hx]
      exact ih.cons_cons _

theorem acct_inj {a b : String} (h : "acct:" ++ a = "acct:" ++ b) : a = b := by
  have hlists := congrArg String.toList h
  rw [String.toList_append, String.toList_append] at hlists
  exact String.toList_inj.1 (List.append_cancel_left hlists)

theorem acct_ne_system {a : String} : "acct:" ++ a ∉ systemAccounts := by
  intro h
  have hheads : ∀ account ∈ systemAccounts, account.toList[1]? ≠ "acct:".toList[1]? ∨ account.toList[0]? ≠ "acct:".toList[0]? := by
    decide
  have hname : ("acct:" ++ a).toList = "acct:".toList ++ a.toList := String.toList_append
  rcases hheads _ h with hne | hne
  · rw [hname] at hne
    exact hne rfl
  · rw [hname] at hne
    exact hne rfl

variable {entities benign illicit : List Entity} {specs : List ActivitySpec}

theorem Named.accounts_nodup (h : Named entities) : (entities.filterMap Entity.accountId).Nodup := by
  refine List.Nodup.sublist (filterMap_sublist_map h.accounts) ?_
  have hids : entities.map (fun e => "acct:" ++ e.entityId) = (entities.map Entity.entityId).map ("acct:" ++ ·) := by
    rw [List.map_map]
    rfl
  rw [hids]
  exact h.ids.map fun _ _ => acct_inj

/-- **Opening balances.** Every entity account has its balance, and so has every account of the rails. -/
theorem Named.balances_items (h : Named entities) : (balances entities).items =
    entities.filterMap (fun e => e.accountId.map fun account => (account, openingBalance e)) ++
      systemAccounts.map fun account => (account, ⟨0, -2⟩) := by
  refine Dict.items_ofList ?_
  have hkeys : (entities.filterMap fun e => e.accountId.map fun account => (account, openingBalance e)).map Prod.fst =
      entities.filterMap Entity.accountId := by
    rw [List.map_filterMap]
    refine congrArg (List.filterMap · entities) (funext fun e => ?_)
    cases e.accountId <;> rfl
  have hsystem : (systemAccounts.map fun account => (account, (⟨0, -2⟩ : Decimal))).map Prod.fst = systemAccounts := by
    rw [List.map_map]
    exact List.map_id _
  rw [List.map_append, hkeys, hsystem]
  refine List.nodup_append.2 ⟨h.accounts_nodup, by decide, ?_⟩
  intro a ha b hb hab
  obtain ⟨e, he, haccount⟩ := List.mem_filterMap.1 ha
  rw [h.accounts e he a haccount] at hab
  exact acct_ne_system (hab ▸ hb)

theorem Named.balance (h : Named entities) {e : Entity} (he : e ∈ entities) {account : String}
    (haccount : e.accountId = some account) : (balances entities).get? account = some (openingBalance e) := by
  rw [Dict.get?_eq_some, h.balances_items]
  refine List.mem_append_left _ (List.mem_filterMap.2 ⟨e, he, ?_⟩)
  rw [haccount]
  rfl

theorem openingBalance_cents (e : Entity) : ∃ cents : ℕ, cents ≤ 1000000 ∧ openingBalance e = ⟨cents, -2⟩ := by
  unfold openingBalance
  split_ifs
  · exact ⟨0, by norm_num, rfl⟩
  · exact ⟨500000, by norm_num, rfl⟩
  · exact ⟨1000000, by norm_num, rfl⟩

theorem canonicalAmount_cents {cents : ℕ} (h : cents < 10 ^ 28) : canonicalAmount ⟨cents, -2⟩ = true := by
  have hquantize : (⟨cents, -2⟩ : Decimal).quantize .default (-2) = some ⟨cents, -2⟩ := Decimal.quantize_cents h
  rw [canonicalAmount, hquantize, Option.any_some, Decimal.ble_cents, Bool.true_and, Decimal.numEq_iff]

theorem Named.balances_rows (h : Named entities) {p : String × Decimal} (hp : p ∈ (balances entities).items) :
    p.1 ≠ "" ∧ ∃ cents : ℕ, cents ≤ 1000000 ∧ p.2 = ⟨cents, -2⟩ := by
  rw [h.balances_items] at hp
  rcases List.mem_append.1 hp with hp | hp
  · obtain ⟨e, he, hrow⟩ := List.mem_filterMap.1 hp
    obtain ⟨account, haccount, rfl⟩ := Option.map_eq_some_iff.1 hrow
    refine ⟨?_, openingBalance_cents e⟩
    rw [h.accounts e he account haccount]
    exact account_ne
  · obtain ⟨account, haccount, rfl⟩ := List.mem_map.1 hp
    have hnames : ∀ account ∈ systemAccounts, account ≠ "" := by decide
    exact ⟨hnames account haccount, 0, by norm_num, rfl⟩

/-- the accounts of the entities that have one -/
theorem accounts_ok (h : Named entities) {institution : Entity} (hmem : institution ∈ entities)
    (hbenign : institution.illicit = false) (hrole : institution.role = .institution) :
    ∃ accounts institutionId, PopulationGenerator.accounts entities = .ok accounts ∧
      institutionId ∈ entities.map Entity.entityId ∧
      List.Forall₂ (fun (p : Entity × String) account => account =
        ⟨p.2, p.1.entityId, institutionId, "USD", openingBalance p.1⟩)
        (entities.filterMap fun e => e.accountId.map fun account => (e, account)) accounts := by
  have hin : institution ∈ entities.filter fun e => !e.illicit := List.mem_filter.2 ⟨hmem, by rw [hbenign]; rfl⟩
  obtain ⟨bank, hbank, -, hnext⟩ := next_of_mem (p := fun e : Entity => e.role = .institution) hin (by simpa using hrole)
  have hbankmem : bank ∈ entities := List.mem_of_mem_filter hbank
  have hrows : ∃ accounts, PopulationGenerator.accounts entities = .ok accounts ∧
      List.Forall₂ (fun (p : Entity × String) account => account =
        ⟨p.2, p.1.entityId, bank.entityId, "USD", openingBalance p.1⟩)
        (entities.filterMap fun e => e.accountId.map fun account => (e, account)) accounts := by
    simp only [PopulationGenerator.accounts, hnext, except_ok_bind]
    apply mapM_exists_ok
    intro p hp
    obtain ⟨e, he, hrow⟩ := List.mem_filterMap.1 hp
    obtain ⟨account, haccount, rfl⟩ := Option.map_eq_some_iff.1 hrow
    obtain ⟨cents, hcents, hbalance⟩ := openingBalance_cents e
    have hne : account ≠ "" := by
      rw [h.accounts e he account haccount]
      exact account_ne
    refine ⟨_, ?_, rfl⟩
    simp only [h.balance he haccount, Account.create, except_bind_eq_ok, except_pure_eq_ok, text_eq_ok,
      require_eq_ok, decide_eq_true_eq, and_true]
    refine ⟨(), hne, (), uuidText_canonical (h.canonical e he), (), uuidText_canonical (h.canonical bank hbankmem), (),
      trivial, (), ?_⟩
    rw [hbalance]
    exact canonicalAmount_cents (by omega)
  obtain ⟨accounts, haccounts, hall⟩ := hrows
  exact ⟨accounts, bank.entityId, haccounts, List.mem_map_of_mem hbankmem, hall⟩

/-! ## Activities -/

/-- what picking gives to the activities -/
structure Specified (benign : List Entity) (specs : List ActivitySpec) : Prop where
  shifts : ∀ s ∈ specs, s.shift ≠ ""
  actors : ∀ s ∈ specs, s.actor ∈ benign ∧ s.actor.role ∈ [EntityRole.victim, .consumer]
  counterparties : ∀ s ∈ specs, s.counterparty ∈ benign ∧ s.counterparty.role ∈ [EntityRole.beneficiary, .merchant]
  places : ∀ s ∈ specs, s.device ∈ benign ∧ s.location ∈ benign
  distinct : specs.Pairwise fun s t => s.actor.entityId ≠ t.actor.entityId
  length : specs.length = 4

theorem activitySpecs_ok {c : Cast} (h : Picked benign illicit c) (hids : (benign.map Entity.entityId).Nodup)
    (hpayers : 4 ≤ c.payers.length) : ∃ specs, activitySpecs c = .ok specs ∧ Specified benign specs := by
  have hmerchant : 0 < c.merchants.length := List.length_pos_iff.2 h.merchants.1
  have hlocation : 0 < c.locations.length := List.length_pos_iff.2 h.locations.1
  obtain ⟨otherMerchant, hotherMerchant, hlastMerchant⟩ := lastItem_of_ne h.merchants.1
  obtain ⟨otherLocation, hotherLocation, hlastLocation⟩ := lastItem_of_ne h.locations.1
  obtain ⟨otherDevice, hotherDevice, hlastDevice⟩ := lastItem_of_ne h.devices.1
  have hlocated := h.locations.2 _ (List.getElem_mem hlocation)
  have hmerchant' := h.merchants.2 _ (List.getElem_mem hmerchant)
  have hmembers : ∀ e ∈ c.payers, e ∈ benign ∧ e.role ∈ [EntityRole.victim, .consumer] := by
    intro e he
    rw [h.payers, List.mem_filter, decide_eq_true_eq] at he
    exact he
  have hpayer : ∀ i (hi : i < c.payers.length),
      c.payers[i] ∈ benign ∧ c.payers[i].role ∈ [EntityRole.victim, .consumer] := fun i hi =>
    hmembers _ (List.getElem_mem hi)
  have hnodup : (c.payers.map Entity.entityId).Nodup := by
    rw [h.payers]
    exact hids.sublist (List.filter_sublist.map _)
  have hdistinct := List.pairwise_iff_getElem.1 (List.pairwise_map.1 hnodup)
  have h0 : 0 < c.payers.length := by omega
  have h1 : 1 < c.payers.length := by omega
  have h2 : 2 < c.payers.length := by omega
  have h3 : 3 < c.payers.length := by omega
  refine ⟨_, by
    simp only [activitySpecs, item_of_lt h0, item_of_lt h1, item_of_lt h2, item_of_lt h3, item_of_lt hmerchant,
      item_of_lt hlocation, hlastDevice, hlastLocation, hlastMerchant, except_ok_bind]
    rfl, ?_⟩
  have hspec : ∀ {P : ActivitySpec → Prop},
      P ⟨"shared_device", c.payers[0], c.beneficiary, c.device, c.locations[0]⟩ →
      P ⟨"shared_beneficiary", c.payers[1], c.beneficiary, otherDevice, c.locations[0]⟩ →
      P ⟨"travel", c.payers[2], c.merchants[0], otherDevice, otherLocation⟩ →
      P ⟨"new_merchant", c.payers[3], otherMerchant, c.device, otherLocation⟩ → ∀ s ∈ [
        ActivitySpec.mk "shared_device" c.payers[0] c.beneficiary c.device c.locations[0],
        ⟨"shared_beneficiary", c.payers[1], c.beneficiary, otherDevice, c.locations[0]⟩,
        ⟨"travel", c.payers[2], c.merchants[0], otherDevice, otherLocation⟩,
        ⟨"new_merchant", c.payers[3], otherMerchant, c.device, otherLocation⟩], P s := by
    intro P p0 p1 p2 p3 s hs
    simp only [List.mem_cons, List.not_mem_nil, or_false] at hs
    rcases hs with rfl | rfl | rfl | rfl
    · exact p0
    · exact p1
    · exact p2
    · exact p3
  refine ⟨hspec (by simp) (by simp) (by simp) (by simp), hspec (hpayer 0 h0) (hpayer 1 h1) (hpayer 2 h2) (hpayer 3 h3), ?_,
    hspec ⟨h.device, hlocated⟩ ⟨h.devices.2 _ hotherDevice, hlocated⟩
      ⟨h.devices.2 _ hotherDevice, h.locations.2 _ hotherLocation⟩ ⟨h.device, h.locations.2 _ hotherLocation⟩, ?_, rfl⟩
  · refine hspec ⟨h.beneficiary.1, by simp [h.beneficiary.2]⟩ ⟨h.beneficiary.1, by simp [h.beneficiary.2]⟩
      ⟨hmerchant'.1, by simp [hmerchant'.2]⟩ ⟨(h.merchants.2 _ hotherMerchant).1, by simp [(h.merchants.2 _ hotherMerchant).2]⟩
  · simp only [List.pairwise_cons, List.mem_cons, List.not_mem_nil, or_false, forall_eq_or_imp, forall_eq]
    exact ⟨⟨hdistinct 0 1 h0 h1 (by decide), hdistinct 0 2 h0 h2 (by decide), hdistinct 0 3 h0 h3 (by decide)⟩,
      ⟨hdistinct 1 2 h1 h2 (by decide), hdistinct 1 3 h1 h3 (by decide)⟩, hdistinct 2 3 h2 h3 (by decide),
      fun _ hno => hno.elim, .nil⟩

theorem activitySpecs_payers {c : Cast} (h : activitySpecs c = .ok specs) : 4 ≤ c.payers.length := by
  simp only [activitySpecs, except_bind_eq_ok] at h
  obtain ⟨_, -, _, -, _, -, _, -, _, -, _, -, _, -, payer, hpayer, -⟩ := h
  exact (List.getElem?_eq_some_iff.1 (item_eq_ok.1 hpayer)).1

/-- with fewer than four payers, one of them is looked up in vain -/
theorem activitySpecs_fails {c : Cast} (h : c.payers.length < 4) : activitySpecs c = .error .indexError := by
  have hitem : ∀ (xs : List Entity) i, Raises (· = .indexError) (item xs i) := by
    intro xs i
    unfold item
    cases xs[i]? with
    | some x => exact .ok x
    | none => exact .error rfl
  have hlast : ∀ xs : List Entity, Raises (· = .indexError) (lastItem xs) := by
    intro xs
    unfold lastItem
    cases xs.getLast? with
    | some x => exact .ok x
    | none => exact .error rfl
  have hraises : Raises (· = .indexError) (activitySpecs c) :=
    .bind (hitem _ _) fun _ => .bind (hitem _ _) fun _ => .bind (hitem _ _) fun _ => .bind (hlast _) fun _ =>
      .bind (hitem _ _) fun _ => .bind (hitem _ _) fun _ => .bind (hlast _) fun _ => .bind (hitem _ _) fun _ =>
        .bind (hlast _) fun _ => .ok _
  cases hspecs : activitySpecs c with
  | ok specs => exact absurd (activitySpecs_payers hspecs) (by omega)
  | error e => rw [hraises e hspecs]

/-- an activity's payment as a transfer -/
def transferOf (g : PopulationGenerator) (bundle : ScenarioBundle) (index draw : ℕ) (spec : ActivitySpec) : Transfer where
  paymentId := g.paymentId bundle index
  opening := {
    amount := ⟨((100 * (5 + draw) : ℕ) : ℤ), -2⟩
    currency := "USD"
    accounts := fun
      | .payer => "acct:" ++ spec.actor.entityId
      | .payee => "acct:" ++ spec.counterparty.entityId
      | .fee => "a2a:fees"
      | .frozen => "a2a:frozen"
    actorId := spec.actor.entityId
    counterpartyId := spec.counterparty.entityId
    campaignId := g.identifier bundle "benign:campaign"
    traceId := g.identifier bundle (indexedName "benign" "trace" index)
    fee := ⟨0, -2⟩ }
  amount := 100 * (5 + draw)
  fee := 0
  openKey := "a2a.initiate:" ++ g.paymentId bundle index
  acceptKey := "a2a.accept" ++ ":" ++ g.paymentId bundle index ++ ":campaign:" ++ g.identifier bundle "benign:campaign"
  postKey := "a2a.post" ++ ":" ++ g.paymentId bundle index ++ ":campaign:" ++ g.identifier bundle "benign:campaign"

theorem drawnAmount_ok {draw : ℕ} (h : draw < 16) : drawnAmount draw = .ok ⟨((100 * (5 + draw) : ℕ) : ℤ), -2⟩ := by
  have hrescale : (⟨((5 + draw : ℕ) : ℤ), 0⟩ : Decimal).rescale (-2) = ((100 * (5 + draw) : ℕ) : ℤ) := by
    simp [Decimal.rescale, Decimal.scaled, mul_comm]
  have hquantize : (⟨((5 + draw : ℕ) : ℤ), 0⟩ : Decimal).quantize .default (-2) =
      some ⟨((100 * (5 + draw) : ℕ) : ℤ), -2⟩ := by
    show (if ((⟨((5 + draw : ℕ) : ℤ), 0⟩ : Decimal).rescale (-2)).natAbs < 10 ^ 28 then _ else _) = _
    rw [hrescale, if_pos (by omega)]
  rw [drawnAmount, hquantize]

theorem prefixed_ne {a b : String} (h : a ≠ "") : a ++ b ≠ "" := by
  intro hempty
  have hlists := congrArg String.toList hempty
  rw [String.toList_append] at hlists
  apply h
  apply String.toList_inj.1
  exact (List.append_eq_nil_iff.1 hlists).1

/-- keys of different operations differ -/
theorem keys_ne {a b s t : String} (i : ℕ) (ha : i < a.toList.length) (hb : i < b.toList.length)
    (h : a.toList[i]? ≠ b.toList[i]?) : a ++ s ≠ b ++ t := by
  intro hsame
  have hlists := congrArg (fun w : String => w.toList[i]?) hsame
  simp only [String.toList_append, List.getElem?_append_left ha, List.getElem?_append_left hb] at hlists
  exact h hlists

variable {spec : ActivitySpec} {index draw : ℕ}

theorem transferOf_valid (hdraw : draw < 16) (hactor : Canonical spec.actor.entityId)
    (hcounterparty : Canonical spec.counterparty.entityId) (hdiffer : spec.actor.entityId ≠ spec.counterparty.entityId) :
    (transferOf g bundle index draw spec).Valid := by
  have hpayment : g.paymentId bundle index ≠ "" := prefixed_ne (by decide)
  have haccounts : a2aRail.checkAccounts (transferOf g bundle index draw spec).opening.accounts = .ok () := by
    have hpayee : "acct:" ++ spec.actor.entityId ≠ "acct:" ++ spec.counterparty.entityId := fun h => hdiffer (acct_inj h)
    have hsystem : ∀ {a account : String}, account ∈ systemAccounts → "acct:" ++ a ≠ account := by
      rintro a account h rfl
      exact acct_ne_system h
    simp only [checkAccounts, except_bind_eq_ok, check_eq_ok, decide_eq_true_eq]
    refine ⟨(), forM_eq_ok fun role _ => ?_, ?_⟩
    · simp only [checkText, check_eq_ok, decide_eq_true_eq]
      cases role with
      | payer => exact account_ne
      | payee => exact account_ne
      | fee => show "a2a:fees" ≠ ""; decide
      | frozen => show "a2a:frozen" ≠ ""; decide
    · show ["acct:" ++ spec.actor.entityId, "acct:" ++ spec.counterparty.entityId, "a2a:fees", "a2a:frozen"].Nodup
      simp only [List.nodup_cons, List.mem_cons, List.not_mem_nil, or_false, not_or]
      exact ⟨⟨hpayee, hsystem (by decide), hsystem (by decide)⟩, ⟨hsystem (by decide), hsystem (by decide)⟩, by decide,
        not_false, .nil⟩
  refine ⟨?_, rfl, rfl, rfl, ?_, ?_, ?_⟩
  · exact openingRequest_cents rfl rfl rfl (by show 0 < 100 * (5 + draw); omega)
      (by show 100 * (5 + draw) < 10 ^ 28; omega) (Nat.zero_le _) haccounts (hactor.checked _) (hcounterparty.checked _)
      ((identifier_canonical g bundle _).checked _) ((identifier_canonical g bundle _).checked _) hpayment
      (prefixed_ne (by decide))
  · show ["a2a.initiate:" ++ _, "a2a.accept" ++ _ ++ _ ++ _ ++ _, "a2a.post" ++ _ ++ _ ++ _ ++ _].Nodup
    simp only [List.nodup_cons, List.mem_cons, List.not_mem_nil, or_false, not_or, String.append_assoc]
    exact ⟨⟨keys_ne 4 (by decide) (by decide) (by decide), keys_ne 4 (by decide) (by decide) (by decide)⟩,
      keys_ne 4 (by decide) (by decide) (by decide), not_false, .nil⟩
  · show "a2a.accept" ++ _ ++ _ ++ _ ++ _ ≠ ""
    simp only [String.append_assoc]
    exact prefixed_ne (by decide)
  · show "a2a.post" ++ _ ++ _ ++ _ ++ _ ≠ ""
    simp only [String.append_assoc]
    exact prefixed_ne (by decide)

theorem transferOf_initiate (hdraw : draw < 16) (h : (transferOf g bundle index draw spec).Valid) :
    initiate (g.paymentId bundle index) ⟨((100 * (5 + draw) : ℕ) : ℤ), -2⟩ ("acct:" ++ spec.actor.entityId)
      ("acct:" ++ spec.counterparty.entityId) spec.actor.entityId spec.counterparty.entityId
      (g.identifier bundle "benign:campaign") (g.identifier bundle (indexedName "benign" "trace" index)) =
      .ok ⟨.initiateA2A, g.paymentId bundle index, "a2a.initiate:" ++ g.paymentId bundle index,
        some (transferOf g bundle index draw spec).opening⟩ := by
  obtain ⟨hcurrency, _, _, -, -, -, hid, haccounts, hactor, hcounterparty, hcampaign, htrace, hkey, -⟩ :=
    openingRequest_eq_ok.1 h.opening
  have hzero : money .default "fee" 0 "USD" false = .ok ⟨0, -2⟩ := by decide
  rw [initiate, lifted_eq_ok]
  refine openingRequest_eq_ok.2 ⟨hcurrency, ⟨((100 * (5 + draw) : ℕ) : ℤ), -2⟩, ⟨0, -2⟩, ?_, hzero, rfl, hid, haccounts,
    hactor, hcounterparty, hcampaign, htrace, hkey, rfl⟩
  exact money_cents (by omega) fun _ => by omega

theorem transferOf_followups (h : (transferOf g bundle index draw spec).Valid) :
    followup .acceptA2A (g.paymentId bundle index) (g.identifier bundle "benign:campaign") =
        .ok ⟨.acceptA2A, g.paymentId bundle index, (transferOf g bundle index draw spec).acceptKey, none⟩ ∧
      followup .postA2A (g.paymentId bundle index) (g.identifier bundle "benign:campaign") =
        .ok ⟨.postA2A, g.paymentId bundle index, (transferOf g bundle index draw spec).postKey, none⟩ := by
  obtain ⟨-, _, _, -, -, -, hid, -⟩ := openingRequest_eq_ok.1 h.opening
  have haccept := h.acceptKey
  have hpost := h.postKey
  simp only [followup, lifted_eq_ok, followupRequest, checkText, except_bind_eq_ok, check_eq_ok, except_pure_eq_ok,
    decide_eq_true_eq]
  exact ⟨⟨(), hid, (), haccept, rfl⟩, (), hid, (), hpost, rfl⟩

/-- the time within which all activities are scheduled -/
theorem later_ok {start : Time} {delta : ℤ} (h : start + delta ≤ lastTime) : later start delta = .ok (start + delta) := by
  rw [later, if_pos h]

theorem later_eq_ok {start t : Time} {delta : ℤ} (h : later start delta = .ok t) :
    start + delta ≤ lastTime ∧ t = start + delta := by
  unfold later at h
  split_ifs at h with hle
  · exact ⟨hle, (Except.ok.inj h).symm⟩

/-- an activity that is scheduled: who takes part, when, and the commands of its transfer -/
structure Scheduled (g : PopulationGenerator) (bundle : ScenarioBundle) (index call : ℕ) (spec : ActivitySpec)
    (scheduled : Activity × List (Request A2AOperation A2ARole)) : Prop where
  within : bundle.simulationStart ≤ scheduled.1.scheduledAt ∧
    scheduled.1.scheduledAt ≤ bundle.simulationStart + (10 * (index + 1) + 4) * microsecondsPerMinute
  members : [scheduled.1.actorId, scheduled.1.counterpartyId, scheduled.1.deviceId, scheduled.1.merchantLocationId] =
    [spec.actor, spec.counterparty, spec.device, spec.location].map Entity.entityId
  valid : (transferOf g bundle index ((g.draws bundle).integers (call + 1) 16) spec).Valid
  requests : scheduled.2 = (transferOf g bundle index ((g.draws bundle).integers (call + 1) 16) spec).requests

/-- **An activity is scheduled**, whatever is drawn, if its latest time is one. -/
theorem activity_ok {call : ℕ} (hshift : spec.shift ≠ "")
    (hcanonical : ∀ e ∈ [spec.actor, spec.counterparty, spec.device, spec.location], Canonical e.entityId)
    (hactor : spec.actor.accountId = some ("acct:" ++ spec.actor.entityId))
    (hcounterparty : spec.counterparty.accountId = some ("acct:" ++ spec.counterparty.entityId))
    (hdiffer : spec.actor.entityId ≠ spec.counterparty.entityId)
    (hlast : bundle.simulationStart + (10 * (index + 1) + 4) * microsecondsPerMinute ≤ lastTime) :
    ∃ scheduled, g.activity bundle index call spec = .ok scheduled ∧ Scheduled g bundle index call spec scheduled := by
  have hminutes := (g.draws bundle).lt call 5 (by decide)
  have hdraw := (g.draws bundle).lt (call + 1) 16 (by decide)
  simp only [List.mem_cons, List.not_mem_nil, or_false, forall_eq_or_imp, forall_eq] at hcanonical
  obtain ⟨hactorId, hcounterpartyId, hdeviceId, hlocationId⟩ := hcanonical
  have hvalid : (transferOf g bundle index _ spec).Valid := transferOf_valid hdraw hactorId hcounterpartyId hdiffer
  obtain ⟨haccept, hpost⟩ := transferOf_followups hvalid
  have hbound : bundle.simulationStart + ((10 * (index + 1) + (g.draws bundle).integers call 5 : ℕ) : ℤ) *
      microsecondsPerMinute ≤ bundle.simulationStart + (10 * (index + 1) + 4) * microsecondsPerMinute := by
    apply Int.add_le_add_left
    apply Int.mul_le_mul_of_nonneg_right ?_ (by decide)
    push_cast
    omega
  have hpayment : g.paymentId bundle index ≠ "" := prefixed_ne (by decide)
  refine ⟨(⟨g.identifier bundle (indexedName "benign" "activity" index), spec.shift, _, spec.actor.entityId,
    spec.counterparty.entityId, spec.device.entityId, spec.location.entityId, g.paymentId bundle index⟩,
    (transferOf g bundle index ((g.draws bundle).integers (call + 1) 16) spec).requests), ?_, ⟨⟨?_, hbound⟩, rfl, hvalid,
    rfl⟩⟩
  · simp only [activity, later_ok (hbound.trans hlast), drawnAmount_ok hdraw, accountText, hactor, hcounterparty,
      transferOf_initiate hdraw hvalid, haccept, hpost, except_ok_bind, Activity.create, except_bind_eq_ok,
      except_pure_eq_ok, text_eq_ok]
    exact ⟨_, ⟨(), uuidText_canonical (identifier_canonical g bundle _), (), hshift, (), uuidText_canonical hactorId, (),
      uuidText_canonical hcounterpartyId, (), uuidText_canonical hdeviceId, (), uuidText_canonical hlocationId, (),
      hpayment, rfl⟩, rfl⟩
  · apply Int.le_add_of_nonneg_right
    exact Int.mul_nonneg (Int.natCast_nonneg _) (by decide)

/-! ## A population -/

/-- the names of the payments -/
def paymentNames : List String := (List.range 4).map (indexedName "benign" "payment")

/-- names whose identifiers a population tells apart -/
def ownNames (bundle : ScenarioBundle) : Set String := {name | name ∈ entityNames bundle ∨ name ∈ paymentNames}

/-- `uuid5` does not collide on the names of entities and payments -/
def CollisionFree (g : PopulationGenerator) (bundle : ScenarioBundle) : Prop :=
  Set.InjOn (g.uuid5.value (g.namespaceOf bundle)) (ownNames bundle)

/-- a closed population: distinct ids, a connected graph, funded accounts and activities within the horizon -/
structure Closed (p : Population) : Prop where
  ids : (p.entities.map Entity.entityId).Nodup
  connected : ∀ a ∈ p.entities, ∀ b ∈ p.entities, Relation.ReflTransGen (Linked p.relationships) a.entityId b.entityId
  funded : ∀ e ∈ p.entities, ∀ account, e.accountId = some account → ∃ amount institution,
    p.openingBalances.get? account = some amount ∧ ⟨account, e.entityId, institution, "USD", amount⟩ ∈ p.accounts
  horizon : ∀ a ∈ p.benignActivities, p.generatedAt ≤ a.scheduledAt ∧ a.scheduledAt ≤ p.horizonEnd

/-- the benign commands run in list order from the opening balances, whenever they are due -/
def CommandsRun [Sha256] (p : Population) : Prop :=
  ∃ ledger, Ledger.create .default (Ledger.openingOf p.openingBalances) [] = .ok ledger ∧
    ∀ (viewpoint : String) (head b6 b7 b8 b9 : ℕ) (start : Time) (plan : List (Planned (Command A2AOperation))),
      plan.map (fun c => c.2.2) = p.benignCommands → (∀ c ∈ plan, start ≤ c.1) → plan.Pairwise Planned.Before →
      ∃ s, afterCalls (a2aRail.adapter .default)
          (Engine.fresh .a2a viewpoint (versionedPrefix head b6 b7 b8 b9) start ledger ())
          (plan.map Planned.call ++ [.run plan.length none]) = s ∧
        s.failure = none ∧ s.events.length = p.benignCommands.length

theorem Peopled.named (h : Peopled g bundle benign illicit) (huuid : CollisionFree g bundle) :
    Named (benign ++ illicit) := by
  refine ⟨h.nodup (huuid.mono fun name hname => .inl hname), fun e he => h.canonical he, ?_⟩
  have key : ∀ {e : Entity}, e.accountId = accountOf e.role e.entityId → ∀ account, e.accountId = some account →
      account = "acct:" ++ e.entityId := by
    intro e he account haccount
    rw [he, accountOf] at haccount
    split_ifs at haccount
    exact (Option.some.inj haccount).symm
  intro e he
  rcases List.mem_append.1 he with he | he
  · obtain ⟨_, -, hbuilt⟩ := forall₂_mem_right h.benign he
    exact key hbuilt.accountId
  · obtain ⟨_, -, hbuilt⟩ := forall₂_mem_right h.illicit he
    exact key hbuilt.accountId

theorem Peopled.account (h : Peopled g bundle benign illicit) {e : Entity} (he : e ∈ benign)
    (hrole : e.role ∉ [EntityRole.device, .compromisedCredential]) : e.accountId = some ("acct:" ++ e.entityId) := by
  obtain ⟨_, -, hbuilt⟩ := forall₂_mem_right h.benign he
  rw [hbuilt.accountId, accountOf, if_neg hrole]

/-- the transfers of the activities -/
def transfers (g : PopulationGenerator) (bundle : ScenarioBundle) (specs : List ActivitySpec) : List Transfer :=
  specs.zipIdx.map fun p =>
    transferOf g bundle p.2 ((g.draws bundle).integers (entityDraws bundle + 2 * p.2 + 1) 16) p.1

/-- the commands of the activities are those of their transfers -/
theorem scheduled_requests {call : ℕ} {specs : List (ActivitySpec × ℕ)}
    {activities : List (Activity × List (Request A2AOperation A2ARole))}
    (h : List.Forall₂ (fun q scheduled => Scheduled g bundle q.2 (call + 2 * q.2) q.1 scheduled) specs activities) :
    activities.flatMap Prod.snd =
      (specs.map fun q => transferOf g bundle q.2 ((g.draws bundle).integers (call + 2 * q.2 + 1) 16) q.1).flatMap
        Transfer.requests := by
  induction h with
  | nil => rfl
  | cons hfirst _ ih => rw [List.map_cons, List.flatMap_cons, List.flatMap_cons, hfirst.requests, ih]

/-- what is known of the participants of an activity -/
theorem Specified.participants (hpeople : Peopled g bundle benign illicit) (huuid : CollisionFree g bundle)
    (h : Specified benign specs) {s t : ActivitySpec} (hs : s ∈ specs) (ht : t ∈ specs) :
    s.actor.accountId = some ("acct:" ++ s.actor.entityId) ∧
      t.counterparty.accountId = some ("acct:" ++ t.counterparty.entityId) ∧
      s.actor.entityId ≠ t.counterparty.entityId := by
  have hnamed := hpeople.named huuid
  obtain ⟨hactor, hactorRole⟩ := h.actors s hs
  obtain ⟨hcounterparty, hcounterpartyRole⟩ := h.counterparties t ht
  simp only [List.mem_cons, List.not_mem_nil, or_false] at hactorRole hcounterpartyRole
  refine ⟨hpeople.account hactor ?_, hpeople.account hcounterparty ?_, fun hsame => ?_⟩
  · rcases hactorRole with hr | hr <;> rw [hr] <;> decide
  · rcases hcounterpartyRole with hr | hr <;> rw [hr] <;> decide
  · have hentity := List.inj_on_of_nodup_map hnamed.ids (List.mem_append_left _ hactor)
      (List.mem_append_left _ hcounterparty) hsame
    rw [hentity] at hactorRole
    rcases hactorRole with hr | hr <;> rcases hcounterpartyRole with hr' | hr' <;> rw [hr] at hr' <;> cases hr'

theorem Specified.indexed (h : Specified benign specs) {q : ActivitySpec × ℕ} (hq : q ∈ specs.zipIdx) :
    q.1 ∈ specs ∧ q.2 < 4 := by
  have hget : specs[q.2]? = some q.1 := List.mem_zipIdx_iff_getElem?.1 hq
  rw [← h.length]
  exact ⟨List.mem_of_getElem? hget, (List.getElem?_eq_some_iff.1 hget).1⟩

/-- **All four activities are scheduled**, within an hour, if that hour ends in time. -/
theorem activities_ok (hpeople : Peopled g bundle benign illicit) (huuid : CollisionFree g bundle)
    (h : Specified benign specs) (hhour : bundle.simulationStart + 60 * microsecondsPerMinute ≤ lastTime) :
    ∃ activities, specs.zipIdx.mapM (fun q => g.activity bundle q.2 (entityDraws bundle + 2 * q.2) q.1) = .ok activities ∧
      activities.flatMap Prod.snd = (transfers g bundle specs).flatMap Transfer.requests ∧
      ∀ a ∈ activities.map Prod.fst, (∀ id ∈ [a.actorId, a.counterpartyId, a.deviceId, a.merchantLocationId],
        id ∈ (benign ++ illicit).map Entity.entityId) ∧ bundle.simulationStart ≤ a.scheduledAt ∧
        a.scheduledAt ≤ bundle.simulationStart + 60 * microsecondsPerMinute := by
  have hnamed := hpeople.named huuid
  have hminutes : ∀ index : ℕ, index < 4 → bundle.simulationStart + (10 * (index + 1) + 4) * microsecondsPerMinute ≤
      bundle.simulationStart + 60 * microsecondsPerMinute := by
    intro index hindex
    apply Int.add_le_add_left
    apply Int.mul_le_mul_of_nonneg_right ?_ (by decide)
    omega
  obtain ⟨activities, hactivities, hscheduled⟩ := mapM_exists_ok
    (f := fun (q : ActivitySpec × ℕ) => g.activity bundle q.2 (entityDraws bundle + 2 * q.2) q.1)
    (P := fun q scheduled => Scheduled g bundle q.2 (entityDraws bundle + 2 * q.2) q.1 scheduled)
    fun (q : ActivitySpec × ℕ) (hq : q ∈ specs.zipIdx) => by
      obtain ⟨hmem, hindex⟩ := h.indexed hq
      obtain ⟨hactor, hcounterparty, hdiffer⟩ := h.participants hpeople huuid hmem hmem
      have hplaces := h.places _ hmem
      refine activity_ok (h.shifts _ hmem) ?_ hactor hcounterparty hdiffer ((hminutes q.2 hindex).trans hhour)
      simp only [List.mem_cons, List.not_mem_nil, or_false, forall_eq_or_imp, forall_eq]
      exact ⟨hnamed.canonical _ (List.mem_append_left _ (h.actors _ hmem).1),
        hnamed.canonical _ (List.mem_append_left _ (h.counterparties _ hmem).1),
        hnamed.canonical _ (List.mem_append_left _ hplaces.1), hnamed.canonical _ (List.mem_append_left _ hplaces.2)⟩
  refine ⟨activities, hactivities, scheduled_requests hscheduled, fun a ha => ?_⟩
  obtain ⟨scheduled, hmem, rfl⟩ := List.mem_map.1 ha
  obtain ⟨q, hq, hone⟩ := forall₂_mem_right hscheduled hmem
  obtain ⟨hs, hindex⟩ := h.indexed hq
  refine ⟨fun id hid => ?_, hone.within.1, hone.within.2.trans (hminutes q.2 hindex)⟩
  rw [hone.members] at hid
  simp only [List.map_cons, List.map_nil, List.mem_cons, List.not_mem_nil, or_false] at hid
  rcases hid with rfl | rfl | rfl | rfl
  · exact List.mem_map_of_mem (List.mem_append_left _ (h.actors _ hs).1)
  · exact List.mem_map_of_mem (List.mem_append_left _ (h.counterparties _ hs).1)
  · exact List.mem_map_of_mem (List.mem_append_left _ (h.places _ hs).1)
  · exact List.mem_map_of_mem (List.mem_append_left _ (h.places _ hs).2)

theorem paymentId_inj (huuid : CollisionFree g bundle) {i j : ℕ} (hi : i < 4) (hj : j < 4)
    (h : g.paymentId bundle i = g.paymentId bundle j) : i = j := by
  have hlists := congrArg String.toList h
  rw [paymentId, paymentId, String.toList_append, String.toList_append] at hlists
  have hids := String.toList_inj.1 (List.append_cancel_left hlists)
  have hname : ∀ {k : ℕ}, k < 4 → indexedName "benign" "payment" k ∈ ownNames bundle := fun hk =>
    .inr (List.mem_map_of_mem (List.mem_range.2 hk))
  exact indexedName_inj (identifier_inj huuid (hname hi) (hname hj) hids)

/-- **The transfers are ready**: their payers are four entities that hold what they pay, and no one pays them. -/
theorem transfers_ready (hpeople : Peopled g bundle benign illicit) (huuid : CollisionFree g bundle)
    (h : Specified benign specs) {p : ℕ} {ledger : Ledger} (hentries : ledger.entryIds = [])
    (hbalances : ∀ account amount, (balances (benign ++ illicit)).get? account = some amount →
      ledger.balance account "USD" = amount) : Transfer.Ready p ⟨ledger, ∅, [], 0⟩ (transfers g bundle specs) := by
  have hnamed := hpeople.named huuid
  have hdraw : ∀ index, (g.draws bundle).integers (entityDraws bundle + 2 * index + 1) 16 < 16 := fun index =>
    (g.draws bundle).lt _ 16 (by decide)
  refine ⟨?_, ?_, ?_, ?_, fun t _ => rfl, ?_⟩
  · intro t ht
    obtain ⟨q, hq, rfl⟩ := List.mem_map.1 ht
    obtain ⟨hmem, -⟩ := h.indexed hq
    exact transferOf_valid (hdraw q.2) (hnamed.canonical _ (List.mem_append_left _ (h.actors _ hmem).1))
      (hnamed.canonical _ (List.mem_append_left _ (h.counterparties _ hmem).1))
      (h.participants hpeople huuid hmem hmem).2.2
  · rw [transfers, List.pairwise_map]
    have hindexed : specs.zipIdx.Pairwise fun q r => q.2 ≠ r.2 := by
      have hnodup : (specs.zipIdx.map Prod.snd).Nodup := by
        rw [List.zipIdx_map_snd]
        exact List.nodup_range'
      exact List.pairwise_map.1 hnodup
    have hactors : specs.zipIdx.Pairwise fun q r => q.1.actor.entityId ≠ r.1.actor.entityId := by
      have hdistinct := h.distinct
      rw [← List.zipIdx_map_fst 0 specs, List.pairwise_map] at hdistinct
      exact hdistinct
    refine (hindexed.and hactors).imp_of_mem fun {q r} hq hr hne => ?_
    obtain ⟨hmem, hindex⟩ := h.indexed hq
    obtain ⟨hmem', hindex'⟩ := h.indexed hr
    refine ⟨fun hsame => hne.1 (paymentId_inj huuid hindex hindex' hsame), fun hsame => hne.2 (acct_inj hsame).symm, ?_⟩
    intro hpaid
    rcases List.mem_cons.1 hpaid with hpayee | hfee
    · exact (h.participants hpeople huuid hmem' hmem).2.2 (acct_inj hpayee)
    · rw [List.mem_singleton] at hfee
      have hsystem : "acct:" ++ r.1.actor.entityId ∈ systemAccounts := by
        have hname : "acct:" ++ r.1.actor.entityId = "a2a:fees" := hfee
        rw [hname]
        decide
      exact acct_ne_system hsystem
  · rw [transfers, List.length_map, List.length_zipIdx, h.length]
    norm_num
  · rw [hentries]
    exact fun _ hid => absurd hid List.not_mem_nil
  · intro t ht
    obtain ⟨q, hq, rfl⟩ := List.mem_map.1 ht
    obtain ⟨hmem, -⟩ := h.indexed hq
    obtain ⟨hactor, hactorRole⟩ := h.actors _ hmem
    have hopening : openingBalance q.1.actor = ⟨((1000000 : ℕ) : ℤ), -2⟩ := by
      obtain ⟨_, -, hbuilt⟩ := forall₂_mem_right hpeople.benign hactor
      simp only [List.mem_cons, List.not_mem_nil, or_false] at hactorRole
      rw [openingBalance, hbuilt.illicit, if_neg, if_neg (by decide)]
      · rfl
      · rcases hactorRole with hr | hr <;> rw [hr] <;> decide
    refine ⟨1000000, ?_, ?_, by norm_num⟩
    · rw [← hopening]
      exact hbalances _ _ (hnamed.balance (List.mem_append_left _ hactor) (h.participants hpeople huuid hmem hmem).1)
    · have := hdraw q.2
      show 100 * (5 + _) + 0 ≤ 1000000
      omega

theorem get?_sorted {α : Type} (d : Dict String α) (k : String) : (sorted d).get? k = d.get? k := by
  have hkeys : (sorted d).keys.Perm d.keys := (sortBy_perm Prod.fst d.items).map Prod.fst
  apply Dict.get?_of_items hkeys
  intro p hp
  exact Dict.get?_eq_some.2 (mem_sortBy.2 hp)

/-- the checks of a population, one by one -/
theorem create_ok {p : Population} (hscenario : p.scenarioId ≠ "") (hbundle : p.bundle.scenarioId = p.scenarioId)
    (htimes : p.generatedAt < p.horizonEnd) (hentities : p.entities ≠ []) (hids : (p.entities.map Entity.entityId).Nodup)
    (hedges : ∀ edge ∈ p.relationships,
      edge.sourceId ∈ p.entities.map Entity.entityId ∧ edge.targetId ∈ p.entities.map Entity.entityId)
    (haccounts : ∀ account ∈ p.accounts, account.ownerEntityId ∈ p.entities.map Entity.entityId ∧
      account.institutionEntityId ∈ p.entities.map Entity.entityId)
    (hbalances : ∀ balance ∈ p.openingBalances.items, balance.1 ≠ "" ∧ canonicalAmount balance.2 = true)
    (hdeclared : ∀ account ∈ p.entities.filterMap Entity.accountId, account ∈ p.openingBalances.keys)
    (hcontrols : ∀ control ∈ p.benignControls, control ≠ "") (hsorted : p.benignControls = sortedSet p.benignControls)
    (hactivities : ∀ a ∈ p.benignActivities,
      (∀ id ∈ [a.actorId, a.counterpartyId, a.deviceId, a.merchantLocationId], id ∈ p.entities.map Entity.entityId) ∧
        p.generatedAt ≤ a.scheduledAt ∧ a.scheduledAt ≤ p.horizonEnd) :
    p.create = .ok { p with openingBalances := sorted p.openingBalances } := by
  have hnonempty : (!p.entities.isEmpty) = true := by simpa using hentities
  simp only [Population.create, except_bind_eq_ok, except_pure_eq_ok, text_eq_ok, require_eq_ok, check_eq_ok,
    decide_eq_true_eq]
  refine ⟨(), hscenario, (), hbundle, (), htimes, (), hnonempty, (), hids, (), forM_eq_ok fun edge hedge => ?_, (),
    forM_eq_ok fun account haccount => ?_, (), forM_eq_ok fun balance hbalance => ?_, (), ?_, (),
    forM_eq_ok fun control hcontrol => text_eq_ok.2 (hcontrols control hcontrol), (), hsorted, (),
    forM_eq_ok fun a ha => ?_, trivial⟩
  · rw [require_eq_ok, decide_eq_true_eq]
    exact hedges edge hedge
  · simp only [except_bind_eq_ok, require_eq_ok, decide_eq_true_eq]
    exact ⟨(), haccounts account haccount⟩
  · simp only [except_bind_eq_ok, text_eq_ok, require_eq_ok]
    exact ⟨(), hbalances balance hbalance⟩
  · rw [List.all_eq_true]
    exact fun account haccount => List.contains_iff_mem.2 (hdeclared account haccount)
  · obtain ⟨hknown, hwithin⟩ := hactivities a ha
    simp only [except_bind_eq_ok, require_eq_ok, decide_eq_true_eq, List.all_eq_true, List.contains_iff_mem]
    exact ⟨(), hknown, hwithin⟩

/-- the shifts, which are the benign controls -/
def controls : List String := ["new_merchant", "shared_beneficiary", "shared_device", "travel"]

theorem controls_sorted : controls = sortedSet controls := by
  have hdedup : controls.dedup = controls := List.dedup_eq_self.2 (by decide)
  have hsorted : controls.Pairwise (· ≤ ·) := by decide
  rw [sortedSet, hdedup, List.Pairwise.insertionSort_eq hsorted]

/-- what the generator may be asked for -/
structure Askable (bundle : ScenarioBundle) : Prop where
  counts : 11 ≤ bundle.benignEntityCount
  named : bundle.scenarioId ≠ ""
  seeded : 0 ≤ bundle.seed
  ends : bundle.simulationStart + 60 * bundle.durationHours * microsecondsPerMinute ≤ lastTime

/-- how a population was made -/
structure Made (g : PopulationGenerator) (bundle : ScenarioBundle) (benign illicit : List Entity)
    (specs : List ActivitySpec) (p : Population) : Prop where
  people : Peopled g bundle benign illicit
  entities : p.entities = benign ++ illicit
  specified : Specified benign specs
  openingBalances : p.openingBalances = sorted (balances (benign ++ illicit))
  benignCommands : p.benignCommands = ((transfers g bundle specs).flatMap Transfer.requests).map a2aRail.constructed

/-- **A population comes out**, and is closed. -/
theorem generate_made (h : Askable bundle) (hillicit : 8 ≤ bundle.illicitEntityCount) (huuid : CollisionFree g bundle) :
    ∃ population benign illicit specs, g.generate bundle = .ok population ∧
      Made g bundle benign illicit specs population ∧ Closed population := by
  have hnine : 9 ≤ bundle.benignEntityCount := le_trans (by norm_num) h.counts
  obtain ⟨benign, illicit, hentities, hpeople⟩ := entities_ok g bundle
  have hnamed := hpeople.named huuid
  obtain ⟨c, hcast, hpicked⟩ := cast_ok hpeople hnine
  have hpayers : 4 ≤ c.payers.length := by
    rw [hpicked.payers]
    exact hpeople.payers_length.2 h.counts
  obtain ⟨links, hlinks, hring⟩ := populationLinks_ok hnamed.canonical
  obtain ⟨others, hothers, hothersIn⟩ := castLinks_ok hpicked hnamed.canonical (by omega)
  have hbenignIds : (benign.map Entity.entityId).Nodup := by
    have hids := hnamed.ids
    rw [List.map_append] at hids
    exact hids.of_append_left
  obtain ⟨specs, hspecs, hspecified⟩ := activitySpecs_ok hpicked hbenignIds hpayers
  obtain ⟨institution, hinstitution, hrole⟩ := hpeople.exists_role hnine (k := 7) .institution rfl
  have hlegit : institution.illicit = false := by
    obtain ⟨_, -, hbuilt⟩ := forall₂_mem_right hpeople.benign hinstitution
    exact hbuilt.illicit
  obtain ⟨accounts, institutionId, haccounts, hinstitutionId, hall⟩ :=
    accounts_ok hnamed (List.mem_append_left _ hinstitution) hlegit hrole
  -- the first hour holds every activity
  have hhour : bundle.simulationStart + 60 * microsecondsPerMinute ≤
      bundle.simulationStart + 60 * bundle.durationHours * microsecondsPerMinute := by
    have hlasts := bundle.lasts
    apply Int.add_le_add_left
    apply Int.mul_le_mul_of_nonneg_right ?_ (by decide)
    omega
  obtain ⟨activities, hactivities, hrequests, hscheduled⟩ := activities_ok hpeople huuid hspecified (hhour.trans h.ends)
  have hactivity : ∀ a ∈ activities.map Prod.fst,
      (∀ id ∈ [a.actorId, a.counterpartyId, a.deviceId, a.merchantLocationId],
        id ∈ (benign ++ illicit).map Entity.entityId) ∧ bundle.simulationStart ≤ a.scheduledAt ∧
      a.scheduledAt ≤ bundle.simulationStart + 60 * bundle.durationHours * microsecondsPerMinute := by
    intro a ha
    obtain ⟨hknown, hafter, hbefore⟩ := hscheduled a ha
    exact ⟨hknown, hafter, hbefore.trans hhour⟩
  have hhorizon : bundle.simulationStart <
      bundle.simulationStart + 60 * bundle.durationHours * microsecondsPerMinute := by
    apply lt_of_lt_of_le ?_ hhour
    exact Int.lt_add_of_pos_right _ (by decide)
  let population : Population := {
    scenarioId := bundle.scenarioId
    bundle := bundle
    seed := g.seed
    generatedAt := bundle.simulationStart
    horizonEnd := bundle.simulationStart + 60 * bundle.durationHours * microsecondsPerMinute
    entities := benign ++ illicit
    relationships := links ++ others
    accounts := accounts
    openingBalances := balances (benign ++ illicit)
    benignControls := controls
    benignActivities := activities.map Prod.fst
    benignCommands := (activities.flatMap Prod.snd).map a2aRail.constructed }
  have hcontrols : ∀ control ∈ controls, control ≠ "" := by decide
  have hcreate : population.create = .ok { population with openingBalances := sorted population.openingBalances } := by
    refine create_ok h.named rfl hhorizon (List.ne_nil_of_mem (List.mem_append_left illicit hinstitution)) hnamed.ids ?_ ?_ ?_ ?_
      hcontrols controls_sorted hactivity
    · intro edge hedge
      rcases List.mem_append.1 hedge with hedge | hedge
      · obtain ⟨q, hq, following, hfollowing, -, rfl⟩ := forall₂_mem_right hring hedge
        have hget : (benign ++ illicit)[q.2]? = some q.1 := List.mem_zipIdx_iff_getElem?.1 hq
        exact ⟨List.mem_map_of_mem (List.mem_of_getElem? hget), List.mem_map_of_mem hfollowing⟩
      · exact hothersIn edge hedge
    · intro account haccount
      obtain ⟨q, hq, rfl⟩ := forall₂_mem_right hall haccount
      obtain ⟨e, he, hrow⟩ := List.mem_filterMap.1 hq
      obtain ⟨name, -, rfl⟩ := Option.map_eq_some_iff.1 hrow
      exact ⟨List.mem_map_of_mem he, hinstitutionId⟩
    · intro balance hbalance
      obtain ⟨hne, cents, hcents, hamount⟩ := hnamed.balances_rows hbalance
      refine ⟨hne, ?_⟩
      rw [hamount]
      exact canonicalAmount_cents (by omega)
    · intro account haccount
      obtain ⟨e, he, hname⟩ := List.mem_filterMap.1 haccount
      exact Dict.mem_keys.2 ⟨_, hnamed.balance he hname⟩
  have hcommands : (activities.flatMap Prod.snd).map a2aRail.constructed =
      ((transfers g bundle specs).flatMap Transfer.requests).map a2aRail.constructed := by
    rw [hrequests]
  refine ⟨{ population with openingBalances := sorted population.openingBalances }, benign, illicit, specs, ?_,
    ⟨hpeople, rfl, hspecified, rfl, hcommands⟩, ⟨hnamed.ids, ?_, ?_, ?_⟩⟩
  · have hcounts : (9 ≤ bundle.benignEntityCount ∧ 8 ≤ bundle.illicitEntityCount) := ⟨hnine, hillicit⟩
    have hready : ∀ message, require (decide (9 ≤ bundle.benignEntityCount ∧ 8 ≤ bundle.illicitEntityCount)) message =
        .ok () := fun message => require_eq_ok.2 (decide_eq_true hcounts)
    have hseed : ∀ message, require (decide (0 ≤ bundle.seed)) message = .ok () := fun message =>
      require_eq_ok.2 (decide_eq_true h.seeded)
    simp only [generate, hready, hseed, hentities, hlinks, hcast, hothers, haccounts, hspecs, hactivities,
      later_ok h.ends, except_ok_bind]
    exact hcreate
  · exact fun a ha b hb => links_connected hring ha hb
  · intro e he account haccount
    have hbalance := hnamed.balance he haccount
    refine ⟨openingBalance e, institutionId, ?_, ?_⟩
    · show (sorted (balances (benign ++ illicit))).get? account = _
      rw [get?_sorted, hbalance]
    · have hmem : (e, account) ∈ (benign ++ illicit).filterMap fun e => e.accountId.map fun account => (e, account) :=
        List.mem_filterMap.2 ⟨e, he, by rw [haccount]; rfl⟩
      obtain ⟨row, hrow, rfl⟩ := forall₂_mem_left hall hmem
      exact hrow
  · exact fun a ha => (hactivity a ha).2

/-- **The benign commands run**, from the opening balances of the population. -/
theorem Made.commandsRun [Sha256] (hdigest : ∀ j, isDigestText (Sha256.hexdigest j) = true) {p : Population}
    (h : Made g bundle benign illicit specs p) (huuid : CollisionFree g bundle) : CommandsRun p := by
  have hnamed := h.people.named huuid
  have hrows : ∀ row ∈ p.openingBalances.items, row.1 ≠ "" ∧ ∃ cents : ℕ, cents < 10 ^ 28 ∧ row.2 = ⟨cents, -2⟩ := by
    intro row hrow
    rw [h.openingBalances] at hrow
    obtain ⟨hne, cents, hcents, hamount⟩ := hnamed.balances_rows (mem_sortBy.1 hrow)
    exact ⟨hne, cents, by omega, hamount⟩
  obtain ⟨ledger, hledger, hentries, hget⟩ := Ledger.create_cents hrows
  refine ⟨ledger, hledger, fun viewpoint head b6 b7 b8 b9 start plan hplan hnow horder => ?_⟩
  have hready := transfers_ready (p := versionedPrefix head b6 b7 b8 b9) h.people huuid h.specified hentries
    fun account amount hbalance => hget account amount (by rw [h.openingBalances, get?_sorted, hbalance])
  have hcommands := hplan.trans h.benignCommands
  obtain ⟨s, hrun, hhealthy, hevents⟩ := transfers_carried hdigest viewpoint head b6 b7 b8 b9 hready hcommands hnow horder
  refine ⟨s, hrun, hhealthy, ?_⟩
  rw [hevents, ← hplan, List.length_map]

/-- **The lookup that fails.** With nine or ten benign entities the count check passes, and a payer is looked up in
vain. -/
theorem generate_fails (hcounts : 9 ≤ bundle.benignEntityCount ∧ 8 ≤ bundle.illicitEntityCount)
    (hfew : bundle.benignEntityCount < 11) (hseeded : 0 ≤ bundle.seed) (huuid : CollisionFree g bundle) :
    g.generate bundle = .error .indexError := by
  obtain ⟨benign, illicit, hentities, hpeople⟩ := entities_ok g bundle
  have hnamed := hpeople.named huuid
  obtain ⟨c, hcast, hpicked⟩ := cast_ok hpeople hcounts.1
  have hpayers : c.payers.length < 4 := by
    rw [hpicked.payers, ← not_le, hpeople.payers_length, not_le]
    exact hfew
  obtain ⟨links, hlinks, -⟩ := populationLinks_ok hnamed.canonical
  have hready : ∀ message, require (decide (9 ≤ bundle.benignEntityCount ∧ 8 ≤ bundle.illicitEntityCount)) message =
      .ok () := fun message => require_eq_ok.2 (decide_eq_true hcounts)
  have hseed : ∀ message, require (decide (0 ≤ bundle.seed)) message = .ok () := fun message =>
    require_eq_ok.2 (decide_eq_true hseeded)
  simp only [generate, hready, hseed, hentities, hlinks, hcast, except_ok_bind]
  by_cases hthree : 3 ≤ c.payers.length
  · obtain ⟨others, hothers, -⟩ := castLinks_ok hpicked hnamed.canonical hthree
    obtain ⟨institution, hinstitution, hrole⟩ := hpeople.exists_role hcounts.1 (k := 7) .institution rfl
    have hlegit : institution.illicit = false := by
      obtain ⟨_, -, hbuilt⟩ := forall₂_mem_right hpeople.benign hinstitution
      exact hbuilt.illicit
    obtain ⟨accounts, _, haccounts, -, -⟩ := accounts_ok hnamed (List.mem_append_left _ hinstitution) hlegit hrole
    simp only [hothers, haccounts, activitySpecs_fails hpayers, except_ok_bind]
    rfl
  · rw [castLinks_fails hpicked hnamed.canonical (by omega)]
    rfl

/-- what a population that comes out was asked for -/
theorem askable_of_ok {population : Population} (h : g.generate bundle = .ok population) : Askable bundle := by
  obtain ⟨benign, illicit, hentities, hpeople⟩ := entities_ok g bundle
  simp only [generate, hentities, except_bind_eq_ok, require_eq_ok, decide_eq_true_eq] at h
  obtain ⟨_, hcounts, _, hseeded, _, hsame, links, -, c, hcast, _, -, _, -, specs, hspecs, _, -, horizonEnd, hlater, hcreate⟩ := h
  obtain ⟨c', hcast', hpicked⟩ := cast_ok hpeople hcounts.1
  rw [← Except.ok.inj hsame, hcast'] at hcast
  have hpayers := activitySpecs_payers hspecs
  rw [← Except.ok.inj hcast, hpicked.payers] at hpayers
  simp only [Population.create, except_bind_eq_ok, text_eq_ok] at hcreate
  obtain ⟨_, hnamed, -⟩ := hcreate
  exact ⟨hpeople.payers_length.1 hpayers, hnamed, hseeded, (later_eq_ok hlater).1⟩

end PopulationGenerator

open PopulationGenerator

/-- **Population generation.** A bundle that passes the count check gets a population, closed, funded, within its horizon
and with benign commands that run, exactly when it asks for eleven benign entities, has a name and a non-negative seed, and
ends before the calendar does. -/
theorem population_total_iff [Sha256] (hdigest : ∀ j, isDigestText (Sha256.hexdigest j) = true) (g : PopulationGenerator)
    (bundle : ScenarioBundle) (hcounts : 9 ≤ bundle.benignEntityCount ∧ 8 ≤ bundle.illicitEntityCount)
    (huuid : CollisionFree g bundle) :
    (∃ population, g.generate bundle = .ok population ∧ Closed population ∧ CommandsRun population) ↔
      11 ≤ bundle.benignEntityCount ∧ bundle.scenarioId ≠ "" ∧ 0 ≤ bundle.seed ∧
        bundle.simulationStart + 60 * bundle.durationHours * microsecondsPerMinute ≤ lastTime := by
  refine ⟨fun ⟨population, hok, _⟩ => ?_, fun ⟨hmany, hnamed, hseeded, hends⟩ => ?_⟩
  · have hasked := askable_of_ok hok
    exact ⟨hasked.counts, hasked.named, hasked.seeded, hasked.ends⟩
  · obtain ⟨population, benign, illicit, specs, hok, hmade, hclosed⟩ :=
      generate_made ⟨hmany, hnamed, hseeded, hends⟩ hcounts.2 huuid
    exact ⟨population, hok, hclosed, hmade.commandsRun hdigest huuid⟩

namespace PopulationGenerator

/-- names read as numbers to the base 128 -/
def sampleUuid5 : Uuid5 where
  value _ name := name.toList.foldl (fun n c => 128 * n + c.toNat) 0 % 2 ^ 128
  lt _ _ := Nat.mod_lt _ (by norm_num)

/-- every draw is zero -/
def sampleGenerator : PopulationGenerator := ⟨7, sampleUuid5, fun _ _ => 0, fun _ => ⟨fun _ _ => 0, fun _ _ h => h⟩⟩

/-- an hour with so many benign entities and eight illicit ones -/
def sampleBundle (benign : ℕ) : ScenarioBundle := ⟨"scenario", benign, 8, 1, 7, 0, by decide⟩

theorem sample_collisionFree {benign : ℕ} (hbenign : benign ≤ 11) : CollisionFree sampleGenerator (sampleBundle benign) := by
  have hnodup : ((entityNames (sampleBundle 11) ++ paymentNames).map
      (sampleUuid5.value (sampleGenerator.namespaceOf (sampleBundle benign)))).Nodup := by
    show ((entityNames (sampleBundle 11) ++ paymentNames).map
      fun name => name.toList.foldl (fun n c => 128 * n + c.toNat) 0 % 2 ^ 128).Nodup
    decide +kernel
  have hnames : ∀ name ∈ ownNames (sampleBundle benign), name ∈ entityNames (sampleBundle 11) ++ paymentNames := by
    rintro name (hname | hname)
    · refine List.mem_append_left _ ?_
      rcases List.mem_append.1 hname with hname | hname
      · exact List.mem_append_left _ (List.map_subset _ (List.range_subset.2 hbenign) hname)
      · exact List.mem_append_right _ hname
    · exact List.mem_append_right _ hname
  exact fun a ha b hb hab => List.inj_on_of_nodup_map hnodup (hnames a ha) (hnames b hb) hab

end PopulationGenerator

theorem population_total_sample : letI := Card.sampleDigest
    ∃ population, sampleGenerator.generate (sampleBundle 11) = .ok population ∧ Closed population ∧ CommandsRun population :=
  letI := Card.sampleDigest
  (population_total_iff Card.sampleDigest_text sampleGenerator (sampleBundle 11) (by decide)
    (sample_collisionFree le_rfl)).2 (by decide)

/-- **Nine benign entities are not enough.** They pass the count check; the third payer is looked up in vain. -/
theorem population_lookup_fails : 9 ≤ (sampleBundle 9).benignEntityCount ∧ 8 ≤ (sampleBundle 9).illicitEntityCount ∧
    CollisionFree sampleGenerator (sampleBundle 9) ∧
    sampleGenerator.generate (sampleBundle 9) = .error .indexError := by
  have hfree : CollisionFree sampleGenerator (sampleBundle 9) := sample_collisionFree (by norm_num)
  exact ⟨le_rfl, le_rfl, hfree, generate_fails (by decide) (by decide) (by decide) hfree⟩

end Apar
