/-
Runs of the ledger: any sequence of `post` calls, accepted or rejected, on a ledger just opened.

`postStep` is `Ledger.post` statement by statement, with the three writes at its end. The legs are quantised in one
context and the amounts added in another, so that additions can be taken as exact while quantising still refuses what
the decimal context cannot hold. `postStep_eq` says that with one context for both it is `Ledger.post`.

- `Conserved`: the invariant. `conserved_postStep` is the step, `conserved_afterPosts` the run.
- `ledger_conserves`: balances are openings plus entries, totals stay, no account without credit is overdrawn, entry ids
  are distinct, and a post that raises changes nothing.
-/
import Apar.Core.DecimalRounding
import Apar.Simulator.Ledger

namespace Apar

open Exec

namespace Ledger

/-! ## Model -/

/-- `Ledger.post` as its statements run -/
def postStep (quantum ctx : DecimalContext) (entry : LedgerEntry) : EStateM SimError Ledger Unit := do
  let l ← get
  guard (notBlank entry.entryId) (.valueError "entry_id must not be empty")
  guard (!l.entryIds.contains entry.entryId) (.valueError ("duplicate ledger entry_id: " ++ entry.entryId))
  let _ ← raising (currencyExponent entry.currency)
  let debits ← raising (normalizeDict quantum entry.currency entry.debit)
  let credits ← raising (normalizeDict quantum entry.currency entry.credit)
  guard ((Decimal.sum ctx debits.values).numEq (Decimal.sum ctx credits.values))
    (.valueError "debits must equal credits")
  -- the new balances are a copy until every debit has passed
  let debited ← raising (debitLegs ctx l.allowCredit entry.currency debits.items l.balances)
  let newBalances := creditLegs ctx entry.currency credits.items debited
  modify fun l => { l with balances := newBalances }
  modify fun l => { l with entries := l.entries ++ [⟨entry.entryId, debits, credits, entry.currency⟩] }
  modify fun l => { l with entryIds := entry.entryId :: l.entryIds }

/-- the ledger after a `post` call, whether it returned or raised -/
def afterPost (quantum ctx : DecimalContext) (l : Ledger) (entry : LedgerEntry) : Ledger :=
  match postStep quantum ctx entry l with
  | .ok _ l' => l'
  | .error _ l' => l'

def afterPosts (quantum ctx : DecimalContext) (l : Ledger) (entries : List LedgerEntry) : Ledger :=
  entries.foldl (afterPost quantum ctx) l

/-- `_totals_by_currency` -/
def totalsByCurrency (ctx : DecimalContext) (balances : Dict (String × String) Decimal) : Dict String Decimal :=
  balances.items.foldl (fun totals p => totals.set p.1.2 (Decimal.add ctx (totals.getD p.1.2 0) p.2)) ∅

/-- `assert_conserved`, given the totals recorded at the opening -/
def assertConserved (ctx : DecimalContext) (openingTotals : Dict String Decimal) (l : Ledger) : Except SimError Unit :=
  let currentTotals := totalsByCurrency ctx l.balances
  (currentTotals.keys ++ openingTotals.keys).dedup.forM fun currency =>
    check ((currentTotals.getD currency 0).numEq (openingTotals.getD currency 0))
      (.assertionError ("ledger value is not conserved for currency: " ++ currency))

/-- the sum of the balances in a currency -/
def total (balances : Dict (String × String) Decimal) (currency : String) : ℚ :=
  (balances.items.map fun p => if p.1.2 = currency then p.2.value else 0).sum

/-! ## One call -/

variable {entry : LedgerEntry} {quantum ctx : DecimalContext} {allow : List AccountReference}

/-- a `post` that returns passed every check and made its three writes -/
theorem postStep_eq_ok {l l' : Ledger} {u : Unit} :
    postStep quantum ctx entry l = .ok u l' ↔
      notBlank entry.entryId = true ∧ entry.entryId ∉ l.entryIds ∧ (∃ k, currencyExponent entry.currency = .ok k) ∧
        ∃ debits, normalizeDict quantum entry.currency entry.debit = .ok debits ∧
          ∃ credits, normalizeDict quantum entry.currency entry.credit = .ok credits ∧
            (Decimal.sum ctx debits.values).numEq (Decimal.sum ctx credits.values) = true ∧
            ∃ debited, debitLegs ctx l.allowCredit entry.currency debits.items l.balances = .ok debited ∧
              l' = ⟨l.allowCredit, creditLegs ctx entry.currency credits.items debited,
                l.entries ++ [⟨entry.entryId, debits, credits, entry.currency⟩], entry.entryId :: l.entryIds⟩ := by
  simp only [postStep, bind_eq_ok, get_eq_ok, guard_eq_ok, raising_eq_ok, modify_eq_ok, Bool.not_eq_true',
    List.contains_eq_mem, decide_eq_false_iff_not]
  constructor
  · rintro ⟨_, _, ⟨rfl, rfl⟩, _, _, ⟨hblank, rfl⟩, _, _, ⟨hid, rfl⟩, k, _, ⟨hk, rfl⟩, h⟩
    obtain ⟨debits, _, ⟨hdebits, rfl⟩, credits, _, ⟨hcredits, rfl⟩, _, _, ⟨hsum, rfl⟩, h⟩ := h
    obtain ⟨debited, _, ⟨hdebited, rfl⟩, _, _, rfl, _, _, rfl, rfl⟩ := h
    exact ⟨hblank, hid, ⟨k, hk⟩, debits, hdebits, credits, hcredits, hsum, debited, hdebited, rfl⟩
  · rintro ⟨hblank, hid, ⟨k, hk⟩, debits, hdebits, credits, hcredits, hsum, debited, hdebited, rfl⟩
    exact ⟨l, l, ⟨rfl, rfl⟩, (), l, ⟨hblank, rfl⟩, (), l, ⟨hid, rfl⟩, k, l, ⟨hk, rfl⟩, debits, l, ⟨hdebits, rfl⟩,
      credits, l, ⟨hcredits, rfl⟩, (), l, ⟨hsum, rfl⟩, debited, l, ⟨hdebited, rfl⟩, ⟨⟩, _, rfl, ⟨⟩, _, rfl, rfl⟩

/-- a `post` that raises has written nothing -/
theorem postStep_error {l l' : Ledger} {e : SimError} (h : postStep quantum ctx entry l = .error e l') : l' = l := by
  have key : FailsWithin Eq (postStep quantum ctx entry) := by
    unfold postStep
    refine FailsWithin.bind Within.get fun l => ?_
    refine FailsWithin.bind (Within.guard _ _) fun _ => ?_
    refine FailsWithin.bind (Within.guard _ _) fun _ => ?_
    refine FailsWithin.bind (Within.raising _) fun _ => ?_
    refine FailsWithin.bind (Within.raising _) fun debits => ?_
    refine FailsWithin.bind (Within.raising _) fun credits => ?_
    refine FailsWithin.bind (Within.guard _ _) fun _ => ?_
    refine FailsWithin.bind (Within.raising _) fun debited => ?_
    -- only writes are left, and they cannot fail
    intro s e s' h
    simp at h
  exact (key _ _ _ h).symm

/-- with one context for both, the statements are those of `post` -/
theorem postStep_eq (ctx : DecimalContext) (entry : LedgerEntry) (l l' : Ledger) (u : Unit) :
    postStep ctx ctx entry l = .ok u l' ↔ l.post ctx entry = .ok l' := by
  simp only [postStep_eq_ok, post, except_bind_eq_ok, check_eq_ok, except_pure_eq_ok, Bool.not_eq_true',
    List.contains_eq_mem, decide_eq_false_iff_not]
  constructor
  · rintro ⟨hblank, hid, ⟨k, hk⟩, debits, hdebits, credits, hcredits, hsum, debited, hdebited, rfl⟩
    exact ⟨(), hblank, (), hid, k, hk, debits, hdebits, credits, hcredits, (), hsum, debited, hdebited, rfl⟩
  · rintro ⟨_, hblank, _, hid, k, hk, debits, hdebits, credits, hcredits, _, hsum, debited, hdebited, rfl⟩
    exact ⟨hblank, hid, ⟨k, hk⟩, debits, hdebits, credits, hcredits, hsum, debited, hdebited, rfl⟩

/-! ## Sums of balances -/

theorem total_set (b : Dict (String × String) Decimal) (account c currency : String) (v : Decimal) :
    total (b.set (account, c) v) currency =
      total b currency + if c = currency then v.value - (b.getD (account, c) 0).value else 0 := by
  unfold total
  rw [Dict.sum_set]
  have hold : ((b.get? (account, c)).map fun w => if c = currency then w.value else 0).getD 0 =
      if c = currency then (b.getD (account, c) 0).value else 0 := by
    unfold Dict.getD
    cases b.get? (account, c) with
    | none => simp
    | some w => simp
  simp only [hold]
  split_ifs
  · ring
  · ring

theorem total_debitLegs {currency : String} {legs : List (String × Decimal)} {b b' : Dict (String × String) Decimal}
    (h : debitLegs .exact allow currency legs b = .ok b') (c : String) :
    total b' c = total b c - if currency = c then (legs.map fun leg => leg.2.value).sum else 0 := by
  induction legs generalizing b with
  | nil =>
    cases h
    simp
  | cons leg rest ih =>
    obtain ⟨account, amount⟩ := leg
    simp only [debitLegs, except_bind_eq_ok] at h
    obtain ⟨_, -, hrest⟩ := h
    rw [ih hrest, total_set, Decimal.sub_exact_value, List.map_cons, List.sum_cons]
    split_ifs
    · ring
    · ring

theorem total_creditLegs {currency : String} {legs : List (String × Decimal)} (b : Dict (String × String) Decimal)
    (c : String) : total (creditLegs .exact currency legs b) c =
      total b c + if currency = c then (legs.map fun leg => leg.2.value).sum else 0 := by
  induction legs generalizing b with
  | nil => simp [creditLegs]
  | cons leg rest ih =>
    obtain ⟨account, amount⟩ := leg
    rw [creditLegs, ih, total_set, Decimal.add_exact_value, List.map_cons, List.sum_cons]
    split_ifs
    · ring
    · ring

/-- the recorded totals are the sums of the currencies -/
theorem totalsByCurrency_value (balances : Dict (String × String) Decimal) (currency : String) :
    ((totalsByCurrency .exact balances).getD currency 0).value = total balances currency := by
  have key : ∀ (items : List ((String × String) × Decimal)) (totals : Dict String Decimal),
      ((items.foldl (fun totals p => totals.set p.1.2 (Decimal.add .exact (totals.getD p.1.2 0) p.2)) totals).getD
        currency 0).value = (totals.getD currency 0).value +
          (items.map fun p => if p.1.2 = currency then p.2.value else 0).sum := by
    intro items
    induction items with
    | nil => intro totals; simp
    | cons p items ih =>
      intro totals
      rw [List.foldl_cons, ih, Dict.getD_set, List.map_cons, List.sum_cons, ← add_assoc]
      congr 1
      rcases eq_or_ne currency p.1.2 with rfl | hne
      · simp
      · simp [hne, hne.symm]
  have hempty : ((∅ : Dict String Decimal).getD currency 0).value = 0 := by simp [Dict.getD]
  rw [totalsByCurrency, key, hempty, zero_add]
  rfl

/-! ## Accounts without credit -/

/-- no account without credit is overdrawn -/
def Solvent (allow : List AccountReference) (b : Dict (String × String) Decimal) : Prop :=
  ∀ account currency, creditAllowed allow account currency = false → 0 ≤ (b.getD (account, currency) 0).value

theorem Solvent.set {allow : List AccountReference} {b : Dict (String × String) Decimal} (hb : Solvent allow b)
    {account currency : String} {v : Decimal} (hv : creditAllowed allow account currency = false → 0 ≤ v.value) :
    Solvent allow (b.set (account, currency) v) := by
  intro account' currency' hno
  rw [Dict.getD_set]
  split_ifs with hkey
  · cases hkey
    exact hv hno
  · exact hb account' currency' hno

theorem Solvent.debitLegs {ctx : DecimalContext} {allow : List AccountReference} {currency : String}
    {legs : List (String × Decimal)} {b b' : Dict (String × String) Decimal} (hb : Solvent allow b)
    (h : debitLegs ctx allow currency legs b = .ok b') : Solvent allow b' := by
  induction legs generalizing b with
  | nil =>
    cases h
    exact hb
  | cons leg rest ih =>
    obtain ⟨account, amount⟩ := leg
    simp only [Ledger.debitLegs, except_bind_eq_ok, check_eq_ok, Bool.or_eq_true, Decimal.ble_iff,
      Decimal.value_zero] at h
    obtain ⟨_, hcheck, hrest⟩ := h
    refine ih (hb.set fun hno => ?_) hrest
    rcases hcheck with hpos | hallow
    · exact hpos
    · rw [hno] at hallow
      cases hallow

theorem Solvent.creditLegs {allow : List AccountReference} {currency : String} {legs : List (String × Decimal)}
    (hlegs : ∀ leg ∈ legs, 0 ≤ leg.2.value) {b : Dict (String × String) Decimal} (hb : Solvent allow b) :
    Solvent allow (creditLegs .exact currency legs b) := by
  induction legs generalizing b with
  | nil => exact hb
  | cons leg rest ih =>
    obtain ⟨account, amount⟩ := leg
    refine ih (fun leg hleg => hlegs leg (by simp [hleg])) (hb.set fun hno => ?_)
    rw [Decimal.add_exact_value]
    exact add_nonneg (hb account currency hno) (hlegs (account, amount) (by simp))

theorem solvent_openBalances {opening : List (AccountReference × Decimal)} {b b' : Dict (String × String) Decimal}
    (hb : Solvent allow b) (h : openBalances ctx allow opening b = .ok b') : Solvent allow b' := by
  induction opening generalizing b with
  | nil =>
    cases h
    exact hb
  | cons p rest ih =>
    obtain ⟨ref, amount⟩ := p
    simp only [openBalances, except_bind_eq_ok, check_eq_ok, Bool.or_eq_true, Decimal.ble_iff,
      Decimal.value_zero] at h
    obtain ⟨key, -, normalized, -, _, hcheck, hrest⟩ := h
    refine ih (hb.set fun hno => ?_) hrest
    rcases hcheck with hpos | hallow
    · exact hpos
    · rw [hno] at hallow
      cases hallow

/-- the legs of a normalised mapping are not negative -/
theorem normalizeLegs_nonneg {currency : String} {legs legs' : List (String × Decimal)}
    (h : normalizeLegs ctx currency legs = .ok legs') : ∀ leg ∈ legs', 0 ≤ leg.2.value := by
  induction legs generalizing legs' with
  | nil =>
    cases h
    simp
  | cons leg rest ih =>
    obtain ⟨account, amount⟩ := leg
    simp only [normalizeLegs, except_bind_eq_ok, check_eq_ok, except_pure_eq_ok, Decimal.ble_iff,
      Decimal.value_zero] at h
    obtain ⟨_, -, _, hamount, value, hvalue, rest', hrest, rfl⟩ := h
    obtain ⟨k, -, hq⟩ := quantizeAmount_eq_ok.1 hvalue
    intro leg hleg
    rcases List.mem_cons.1 hleg with rfl | hleg
    · rw [Decimal.quantize_rescale hq, Decimal.value_nonneg]
      exact Decimal.rescale_nonneg hamount _
    · exact ih hrest leg hleg

/-! ## Runs -/

/-- what holds of a ledger after any `post` calls since its opening -/
structure Conserved (opening l : Ledger) : Prop where
  allow : l.allowCredit = opening.allowCredit
  ids : ∀ i, i ∈ l.entryIds ↔ i ∈ l.entries.map LedgerEntry.entryId
  ids_nodup : (l.entries.map LedgerEntry.entryId).Nodup
  balance : ∀ account currency, (l.balance account currency).value =
    (opening.balance account currency).value + netEffect l.entries account currency
  total : ∀ currency, total l.balances currency = total opening.balances currency
  solvent : Solvent opening.allowCredit l.balances

theorem conserved_create {opening : Dict AccountReference Decimal} {l : Ledger} (h : create ctx opening allow = .ok l) :
    l.allowCredit = allow ∧ Conserved l l := by
  simp only [create, except_bind_eq_ok, except_pure_eq_ok] at h
  obtain ⟨balances, hb, rfl⟩ := h
  refine ⟨rfl, ⟨rfl, fun i => by simp, by simp, fun account currency => by simp, fun currency => rfl, ?_⟩⟩
  exact solvent_openBalances (fun account currency _ => by simp [Dict.getD]) hb

theorem balance_postStep {debits credits : Dict String Decimal} {b debited : Dict (String × String) Decimal}
    (h : debitLegs .exact allow entry.currency debits.items b = .ok debited) (account currency : String) :
    ((creditLegs .exact entry.currency credits.items debited).getD (account, currency) 0).value =
      (b.getD (account, currency) 0).value +
        entryEffect ⟨entry.entryId, debits, credits, entry.currency⟩ account currency := by
  rw [creditLegs_getD credits.nodup, debitLegs_getD debits.nodup h]
  unfold entryEffect legValue Dict.getD Dict.get?
  rcases eq_or_ne currency entry.currency with rfl | hne
  · simp only [if_true]
    cases Assoc.get? account debits.items <;> cases Assoc.get? account credits.items <;> simp <;> ring
  · simp [hne, hne.symm]

/-- **Step.** A `post` call, accepted or rejected, keeps the ledger conserved. -/
theorem conserved_postStep {opening l l' : Ledger} {u : Unit} (hl : Conserved opening l)
    (h : postStep quantum .exact entry l = .ok u l') : Conserved opening l' := by
  obtain ⟨-, hid, -, debits, hdebits, credits, hcredits, hsum, debited, hdebited, rfl⟩ := postStep_eq_ok.1 h
  refine { allow := hl.allow, ids := ?_, ids_nodup := ?_, balance := ?_, total := ?_, solvent := ?_ }
  · intro i
    simp [hl.ids i, or_comm]
  · rw [List.map_append, List.nodup_append]
    refine ⟨hl.ids_nodup, by simp, ?_⟩
    rintro i hi j hj rfl
    rw [List.map_singleton, List.mem_singleton] at hj
    exact hid ((hl.ids _).2 (hj ▸ hi))
  · intro account currency
    rw [netEffect_append, netEffect_singleton, ← add_assoc, ← hl.balance]
    exact balance_postStep hdebited account currency
  · intro currency
    rw [total_creditLegs, total_debitLegs hdebited, hl.total]
    rw [Decimal.numEq_iff, Decimal.sum_exact_value, Decimal.sum_exact_value] at hsum
    have hlegs : ∀ d : Dict String Decimal,
        (d.items.map fun leg => leg.2.value).sum = (d.values.map Decimal.value).sum := by
      intro d
      rw [Dict.values, List.map_map]
      rfl
    rw [hlegs, hlegs, hsum]
    ring
  · rw [← hl.allow]
    have hbefore : Solvent l.allowCredit l.balances := hl.allow ▸ hl.solvent
    exact (hbefore.debitLegs hdebited).creditLegs (normalizeLegs_nonneg (normalizeDict_items hcredits))

theorem conserved_afterPosts {opening l : Ledger} (hl : Conserved opening l) (entries : List LedgerEntry) :
    Conserved opening (afterPosts quantum .exact l entries) := by
  induction entries generalizing l with
  | nil => exact hl
  | cons entry rest ih =>
    refine ih ?_
    unfold afterPost
    cases h : postStep quantum .exact entry l with
    | ok u l' => exact conserved_postStep hl h
    | error e l' => exact postStep_error h ▸ hl

theorem Conserved.assertConserved {opening l : Ledger} (h : Conserved opening l) :
    assertConserved .exact (totalsByCurrency .exact opening.balances) l = .ok () := by
  refine forM_eq_ok fun currency _ => ?_
  have heq : ((totalsByCurrency .exact l.balances).getD currency 0).numEq
      ((totalsByCurrency .exact opening.balances).getD currency 0) = true := by
    rw [Decimal.numEq_iff, totalsByCurrency_value, totalsByCurrency_value, h.total]
  rw [heq]
  rfl

end Ledger

/-- **The ledger conserves value.** With exact addition, after any opening and any sequence of `post` calls, accepted or
rejected: every balance is its opening balance plus the credits less the debits of the entries; the balances of a
currency add up to the opening total, so `assert_conserved` passes; no account without credit is overdrawn; entry ids
are distinct; and a further `post` that raises leaves the ledger as it was. -/
theorem ledger_conserves (quantum : DecimalContext) {opening : Dict AccountReference Decimal}
    {allow : List AccountReference} {ledger : Ledger} (hledger : Ledger.create quantum opening allow = .ok ledger)
    (entries : List LedgerEntry) (l : Ledger) (hl : l = Ledger.afterPosts quantum .exact ledger entries) :
    (∀ account currency, (l.balance account currency).value =
      (ledger.balance account currency).value + Ledger.netEffect l.entries account currency) ∧
    (∀ currency, Ledger.total l.balances currency = Ledger.total ledger.balances currency) ∧
    Ledger.assertConserved .exact (Ledger.totalsByCurrency .exact ledger.balances) l = .ok () ∧
    (∀ account currency, Ledger.creditAllowed allow account currency = false →
      0 ≤ (l.balance account currency).value) ∧
    (l.entries.map LedgerEntry.entryId).Nodup ∧
    ∀ entry e l', Ledger.postStep quantum .exact entry l = .error e l' →
      l'.balances = l.balances ∧ l'.entries = l.entries ∧ l'.entryIds = l.entryIds := by
  obtain ⟨hallow, hopen⟩ := Ledger.conserved_create hledger
  have h : Ledger.Conserved ledger l := hl ▸ Ledger.conserved_afterPosts hopen entries
  refine ⟨h.balance, h.total, h.assertConserved, ?_, h.ids_nodup, ?_⟩
  · intro account currency hno
    exact h.solvent account currency (hallow ▸ hno)
  · intro entry e l' herror
    rw [Ledger.postStep_error herror]
    exact ⟨rfl, rfl, rfl⟩

namespace Ledger

/-- a transfer, an overdraft and a repeated id -/
def samplePosts : List LedgerEntry :=
  [⟨"e1", .ofList [("cash", ⟨250, -2⟩)], .ofList [("sales", ⟨250, -2⟩)], "USD"⟩,
    ⟨"e2", .ofList [("cash", ⟨9999, -2⟩)], .ofList [("sales", ⟨9999, -2⟩)], "USD"⟩,
    ⟨"e1", .ofList [("cash", ⟨100, -2⟩)], .ofList [("sales", ⟨100, -2⟩)], "USD"⟩]

def sampleOpening : Ledger :=
  ((create .default (.ofList [(.account "cash", ⟨1000, -2⟩)]) []).toOption).getD ⟨[], ∅, [], []⟩

end Ledger

/-- only the first call is accepted; the cash account keeps what is left of its opening -/
theorem ledger_conserves_sample :
    ((Ledger.afterPosts .default .exact Ledger.sampleOpening Ledger.samplePosts).balance "cash" "USD").value =
      (Ledger.sampleOpening.balance "cash" "USD").value +
        Ledger.netEffect (Ledger.afterPosts .default .exact Ledger.sampleOpening Ledger.samplePosts).entries
          "cash" "USD" ∧
    (Ledger.afterPosts .default .exact Ledger.sampleOpening Ledger.samplePosts).balance "cash" "USD" = ⟨750, -2⟩ :=
  ⟨(@ledger_conserves .default (.ofList [(.account "cash", ⟨1000, -2⟩)]) [] _ rfl Ledger.samplePosts _ rfl).1
    "cash" "USD", by decide +kernel⟩

end Apar
