/-
The ledger at its precision boundary (`simulator/ledger.py`), under Python's default decimal context.

`_quantize` raises where a leg would need more than 28 digits, but the balance updates, the leg totals and the totals of
`assert_conserved` are plain `+` and `-`, which round without a trace. An accepted posting is exact if and only if

- every balance it leaves is a number of 28 significant digits (`Representable.held`),
- on an account it both debits and credits, rounding the balance in between does no harm (`Representable.between`),
- its quantised legs have the same exact sum on both sides (`Representable.balanced`).

- `postedExactly_iff`: the step. `postings_exact_iff`: a run, whose totals never change while every accepted posting
  is representable.
- `posting_creates_value`: two accounts of almost 10^26 dollars each. A transfer between them creates three cents, and
  `assert_conserved` passes.
-/
import Apar.Core.DecimalProducts
import Apar.Simulator.LedgerRuns

namespace Apar

open Exec

namespace Ledger

/-! ## What a posting should do -/

/-- an amount to the nearest minor unit of a currency, ties to even -/
def minorUnits (currency : String) (amount : Decimal) : ℚ :=
  let k := (currencyExponent? currency).getD 0
  Decimal.halfEven (amount.value / 10 ^ (-k : ℤ)) * 10 ^ (-k : ℤ)

/-- the quantised amount the legs put on an account -/
def legAmount (currency : String) (legs : Dict String Decimal) (account : String) : ℚ :=
  ((legs.get? account).map (minorUnits currency)).getD 0

/-- what an entry should add to a balance -/
def moved (entry : LedgerEntry) (account currency : String) : ℚ :=
  if entry.currency = currency then
    legAmount currency entry.credit account - legAmount currency entry.debit account
  else 0

/-- an accepted posting moved every balance by exactly its quantised legs, and no currency gained or lost value -/
structure PostedExactly (l l' : Ledger) (entry : LedgerEntry) : Prop where
  balances : ∀ account currency, (l'.balance account currency).value =
    (l.balance account currency).value + moved entry account currency
  totals : ∀ currency, total l'.balances currency = total l.balances currency

/-- the postings a context carries out without rounding -/
structure Representable (ctx : DecimalContext) (l : Ledger) (entry : LedgerEntry) : Prop where
  held : ∀ account, account ∈ entry.debit.keys ∨ account ∈ entry.credit.keys →
    Decimal.Held ctx ((l.balance account entry.currency).value + moved entry account entry.currency)
  between : ∀ account ∈ entry.debit.keys, account ∈ entry.credit.keys →
    ctx.round (ctx.round ((l.balance account entry.currency).value - legAmount entry.currency entry.debit account) +
        legAmount entry.currency entry.credit account) =
      ctx.round ((l.balance account entry.currency).value + moved entry account entry.currency)
  balanced : (entry.debit.values.map (minorUnits entry.currency)).sum =
    (entry.credit.values.map (minorUnits entry.currency)).sum

/-- what is said of every posting that a run of `post` calls accepts, with the ledgers before and after it -/
def EachAccepted (ctx : DecimalContext) (P : Ledger → Ledger → LedgerEntry → Prop) :
    Ledger → List LedgerEntry → Prop
  | _, [] => True
  | l, entry :: rest =>
    (∀ l', l.post ctx entry = .ok l' → P l l' entry) ∧ EachAccepted ctx P (afterPost ctx ctx l entry) rest

/-! ## Quantised legs -/

variable {ctx : DecimalContext} {currency account : String} {entry : LedgerEntry} {l l' : Ledger}

theorem minorUnits_of_quantize {amount q : Decimal} (h : quantizeAmount ctx amount currency = .ok q) :
    q.value = minorUnits currency amount := by
  obtain ⟨k, hk, hquant⟩ := quantizeAmount_eq_ok.1 h
  rw [Decimal.quantize_rescale hquant, minorUnits, hk, Option.getD_some, Decimal.value, Decimal.rescale_eq]

theorem normalizeLegs_value {legs legs' : List (String × Decimal)} (h : normalizeLegs ctx currency legs = .ok legs') :
    legs'.map (fun leg => (leg.1, leg.2.value)) = legs.map fun leg => (leg.1, minorUnits currency leg.2) := by
  induction legs generalizing legs' with
  | nil => cases h; rfl
  | cons leg rest ih =>
    obtain ⟨account, amount⟩ := leg
    simp only [normalizeLegs, except_bind_eq_ok, check_eq_ok, except_pure_eq_ok] at h
    obtain ⟨_, _, _, _, value, hvalue, rest', hrest, rfl⟩ := h
    rw [List.map_cons, List.map_cons, ih hrest, minorUnits_of_quantize hvalue]

theorem normalizeDict_legAmount {legs legs' : Dict String Decimal} (h : normalizeDict ctx currency legs = .ok legs')
    (account : String) : (legs'.get? account).map Decimal.value = (legs.get? account).map (minorUnits currency) := by
  have hvalues := normalizeLegs_value (normalizeDict_items h)
  unfold Dict.get?
  rw [← Assoc.get?_map Decimal.value, ← Assoc.get?_map (minorUnits currency), hvalues]

/-! ## Sums of balances, account by account -/

theorem total_eq_sum (b : Dict (String × String) Decimal) {s : Finset (String × String)}
    (hs : ∀ key ∈ b.keys, key ∈ s) (currency : String) :
    total b currency = ∑ key ∈ s, if key.2 = currency then (b.getD key 0).value else 0 := by
  unfold total
  rw [← Assoc.sum_keys (fun key v => if key.2 = currency then Decimal.value v else 0) b.nodup hs]
  refine Finset.sum_congr rfl fun key _ => ?_
  unfold Dict.getD Dict.get?
  cases Assoc.get? key b.items with
  | none => simp
  | some v => simp

/-- exact moves on both sides change a total by the difference of the legs -/
theorem total_moved (h : ∀ account currency, (l'.balance account currency).value =
      (l.balance account currency).value + moved entry account currency) (currency : String) :
    total l'.balances currency = total l.balances currency +
      if entry.currency = currency then
        (entry.credit.values.map (minorUnits currency)).sum - (entry.debit.values.map (minorUnits currency)).sum
      else 0 := by
  let accounts : Finset String := (l.balances.keys.map Prod.fst ++ l'.balances.keys.map Prod.fst ++
    (entry.debit.keys ++ entry.credit.keys)).toFinset
  let currencies : Finset String := (currency :: (l.balances.keys.map Prod.snd ++
    l'.balances.keys.map Prod.snd)).toFinset
  have hfst : ∀ {b : Dict (String × String) Decimal}, b = l.balances ∨ b = l'.balances →
      ∀ key ∈ b.keys, key ∈ accounts ×ˢ currencies := by
    rintro b hb ⟨account, currency'⟩ hkey
    rw [Finset.mem_product]
    rcases hb with rfl | rfl
    · refine ⟨?_, ?_⟩
      · simp only [accounts, List.mem_toFinset, List.mem_append, List.mem_map]
        exact .inl (.inl ⟨_, hkey, rfl⟩)
      · simp only [currencies, List.mem_toFinset, List.mem_cons, List.mem_append, List.mem_map]
        exact .inr (.inl ⟨_, hkey, rfl⟩)
    · refine ⟨?_, ?_⟩
      · simp only [accounts, List.mem_toFinset, List.mem_append, List.mem_map]
        exact .inl (.inr ⟨_, hkey, rfl⟩)
      · simp only [currencies, List.mem_toFinset, List.mem_cons, List.mem_append, List.mem_map]
        exact .inr (.inr ⟨_, hkey, rfl⟩)
  have hlegs : ∀ legs : Dict String Decimal, (∀ account ∈ legs.keys, account ∈ accounts) →
      ∑ account ∈ accounts, legAmount currency legs account = (legs.values.map (minorUnits currency)).sum := by
    intro legs hin
    have := Assoc.sum_keys (fun _ => minorUnits currency) legs.nodup hin
    rw [Dict.values, List.map_map]
    exact this
  have hstep : ∀ key ∈ accounts ×ˢ currencies, (if key.2 = currency then (l'.balances.getD key 0).value else 0) =
      (if key.2 = currency then (l.balances.getD key 0).value else 0) +
        if key.2 = currency then moved entry key.1 currency else 0 := by
    rintro ⟨account, currency'⟩ -
    rcases eq_or_ne currency' currency with rfl | hne
    · simpa [balance] using h account currency'
    · simp [hne]
  rw [total_eq_sum _ (hfst (.inr rfl)), Finset.sum_congr rfl hstep, Finset.sum_add_distrib,
    ← total_eq_sum _ (hfst (.inl rfl)), Finset.sum_product]
  congr 1
  have hone : ∀ account ∈ accounts, (∑ c ∈ currencies, if c = currency then moved entry account currency else 0) =
      moved entry account currency := by
    intro account _
    rw [Finset.sum_ite_eq', if_pos (by simp [currencies])]
  rw [Finset.sum_congr rfl hone]
  unfold moved
  split_ifs with hc
  · rw [Finset.sum_sub_distrib, hlegs _ fun a ha => by simp [accounts, ha], hlegs _ fun a ha => by simp [accounts, ha]]
  · exact Finset.sum_const_zero

/-! ## One posting -/

/-- the balance a posting leaves: rounded once for a debit and once for a credit -/
theorem post_balance_value (h : l.post ctx entry = .ok l') (account : String) :
    (l'.balance account entry.currency).value =
      let old := (l.balance account entry.currency).value
      let debited := if account ∈ entry.debit.keys then
        ctx.round (old - legAmount entry.currency entry.debit account) else old
      if account ∈ entry.credit.keys then ctx.round (debited + legAmount entry.currency entry.credit account)
      else debited := by
  obtain ⟨debits, credits, k, -, hdebits, hcredits, -, -, -, -, hbalance⟩ := post_spec h
  have hd := normalizeDict_legAmount hdebits account
  have hc := normalizeDict_legAmount hcredits account
  have hdkeys := normalizeDict_keys hdebits
  have hckeys := normalizeDict_keys hcredits
  rw [hbalance, postedBalance, if_pos rfl]
  simp only [← hdkeys, ← hckeys, legAmount, ← hd, ← hc]
  cases hdebit : debits.get? account with
  | none =>
    have hdno : account ∉ debits.keys := Dict.get?_eq_none.1 hdebit
    cases hcredit : credits.get? account with
    | none => simp [hdno, Dict.get?_eq_none.1 hcredit]
    | some c =>
      have hcyes : account ∈ credits.keys := Dict.mem_keys.2 ⟨c, hcredit⟩
      simp [hdno, hcyes, Decimal.value_add]
  | some d =>
    have hdyes : account ∈ debits.keys := Dict.mem_keys.2 ⟨d, hdebit⟩
    cases hcredit : credits.get? account with
    | none => simp [hdyes, Dict.get?_eq_none.1 hcredit, Decimal.sub, Decimal.value_add, Decimal.value_neg, sub_eq_add_neg]
    | some c =>
      have hcyes : account ∈ credits.keys := Dict.mem_keys.2 ⟨c, hcredit⟩
      simp [hdyes, hcyes, Decimal.sub, Decimal.value_add, Decimal.value_neg, sub_eq_add_neg]

theorem post_balance_other (h : l.post ctx entry = .ok l') (account : String) (hne : currency ≠ entry.currency) :
    l'.balance account currency = l.balance account currency := by
  obtain ⟨_, _, _, -, -, -, -, -, -, -, hbalance⟩ := post_spec h
  rw [hbalance, postedBalance, if_neg hne]

theorem legAmount_of_not_mem {legs : Dict String Decimal} (h : account ∉ legs.keys) :
    legAmount currency legs account = 0 := by
  rw [legAmount, Dict.get?_eq_none.2 h]
  rfl

theorem moved_self (entry : LedgerEntry) (account : String) : moved entry account entry.currency =
    legAmount entry.currency entry.credit account - legAmount entry.currency entry.debit account := if_pos rfl

/-- the balances a posting leaves on the accounts it names are results of a rounded operation -/
theorem post_balance_held (h : l.post ctx entry = .ok l')
    (hnamed : account ∈ entry.debit.keys ∨ account ∈ entry.credit.keys) :
    Decimal.Held ctx (l'.balance account entry.currency).value := by
  obtain ⟨debits, credits, k, -, hdebits, hcredits, -, -, -, -, hbalance⟩ := post_spec h
  rw [← normalizeDict_keys hdebits, ← normalizeDict_keys hcredits] at hnamed
  rw [hbalance, postedBalance, if_pos rfl]
  dsimp only
  cases hcredit : credits.get? account with
  | some c => exact Decimal.held_add _ _
  | none =>
    cases hdebit : debits.get? account with
    | some d => exact Decimal.held_add _ _
    | none =>
      rcases hnamed with hd | hc
      · exact absurd hd (Dict.get?_eq_none.1 hdebit)
      · exact absurd hc (Dict.get?_eq_none.1 hcredit)

/-- **Step.** An accepted posting is exact if and only if it is representable. -/
theorem postedExactly_iff (h : l.post ctx entry = .ok l') : PostedExactly l l' entry ↔ Representable ctx l entry := by
  constructor
  · rintro ⟨hbalances, htotals⟩
    have hheld : ∀ account, account ∈ entry.debit.keys ∨ account ∈ entry.credit.keys →
        Decimal.Held ctx ((l.balance account entry.currency).value + moved entry account entry.currency) := by
      intro account hnamed
      rw [← hbalances]
      exact post_balance_held h hnamed
    refine ⟨hheld, ?_, ?_⟩
    · intro account hd hc
      have hvalue := post_balance_value h account
      simp only [hd, hc, if_true] at hvalue
      rw [← hvalue, hbalances]
      exact (hheld account (.inl hd)).symm
    · have := htotals entry.currency
      rw [total_moved hbalances, if_pos rfl] at this
      linarith
  · rintro ⟨hheld, hbetween, hbalanced⟩
    have hbalances : ∀ account currency, (l'.balance account currency).value =
        (l.balance account currency).value + moved entry account currency := by
      intro account currency
      rcases eq_or_ne currency entry.currency with rfl | hne
      · rw [post_balance_value h account]
        dsimp only
        by_cases hd : account ∈ entry.debit.keys
        · by_cases hc : account ∈ entry.credit.keys
          · rw [if_pos hd, if_pos hc, hbetween account hd hc]
            exact hheld account (.inl hd)
          · have hexact := hheld account (.inl hd)
            rw [moved_self, legAmount_of_not_mem hc, zero_sub, ← sub_eq_add_neg] at hexact ⊢
            rw [if_pos hd, if_neg hc]
            exact hexact
        · by_cases hc : account ∈ entry.credit.keys
          · have hexact := hheld account (.inr hc)
            rw [if_neg hd, if_pos hc]
            rw [moved_self, legAmount_of_not_mem hd, sub_zero] at hexact ⊢
            exact hexact
          · rw [if_neg hd, if_neg hc, moved_self, legAmount_of_not_mem hd, legAmount_of_not_mem hc, sub_zero, add_zero]
      · rw [post_balance_other h account hne, moved, if_neg hne.symm, add_zero]
    refine ⟨hbalances, fun currency => ?_⟩
    rw [total_moved hbalances]
    split_ifs with hc
    · subst hc
      rw [hbalanced, sub_self, add_zero]
    · exact add_zero _

/-! ## Runs -/

theorem EachAccepted.congr {P Q : Ledger → Ledger → LedgerEntry → Prop}
    (hpq : ∀ {l l' entry}, l.post ctx entry = .ok l' → (P l l' entry ↔ Q l l' entry)) {entries : List LedgerEntry} :
    EachAccepted ctx P l entries ↔ EachAccepted ctx Q l entries := by
  induction entries generalizing l with
  | nil => rfl
  | cons entry rest ih =>
    exact and_congr (forall_congr' fun l' => imp_congr_right fun h => hpq h) ih

theorem EachAccepted.take {ctx : DecimalContext} {P : Ledger → Ledger → LedgerEntry → Prop} {l : Ledger}
    {entries : List LedgerEntry} (h : EachAccepted ctx P l entries) (n : ℕ) : EachAccepted ctx P l (entries.take n) := by
  induction entries generalizing l n with
  | nil => simpa using h
  | cons entry rest ih =>
    cases n with
    | zero => trivial
    | succ n => exact ⟨h.1, ih h.2 n⟩

/-- a `post` call either is accepted or leaves the ledger alone -/
theorem afterPost_cases (ctx : DecimalContext) (l : Ledger) (entry : LedgerEntry) :
    l.post ctx entry = .ok (afterPost ctx ctx l entry) ∨ afterPost ctx ctx l entry = l := by
  unfold afterPost
  cases h : postStep ctx ctx entry l with
  | ok u l' => exact .inl ((postStep_eq ctx entry l l' u).1 h)
  | error e l' => exact .inr (postStep_error h)

/-- **Run.** While every accepted posting is exact, no currency gains or loses value. -/
theorem EachAccepted.total {ctx : DecimalContext} {l : Ledger} {entries : List LedgerEntry}
    (h : EachAccepted ctx PostedExactly l entries) (currency : String) :
    Ledger.total (afterPosts ctx ctx l entries).balances currency = Ledger.total l.balances currency := by
  induction entries generalizing l with
  | nil => rfl
  | cons entry rest ih =>
    obtain ⟨hfirst, hrest⟩ := h
    show Ledger.total (afterPosts ctx ctx (afterPost ctx ctx l entry) rest).balances currency = _
    rw [ih hrest]
    rcases afterPost_cases ctx l entry with hok | hsame
    · exact (hfirst _ hok).totals currency
    · rw [hsame]

end Ledger

/-- **Postings are exact while they are representable.** On every ledger and every run of `post` calls under Python's
default decimal context: the accepted postings all move each balance by exactly its quantised legs and keep the exact
totals if and only if each of them is representable when it is made, and in such a run no total ever changes. -/
theorem postings_exact_iff (ledger : Ledger) (entries : List LedgerEntry) :
    (Ledger.EachAccepted .default Ledger.PostedExactly ledger entries ↔
      Ledger.EachAccepted .default (fun l _ entry => Ledger.Representable .default l entry) ledger entries) ∧
    (Ledger.EachAccepted .default (fun l _ entry => Ledger.Representable .default l entry) ledger entries →
      ∀ n currency, Ledger.total (Ledger.afterPosts .default .default ledger (entries.take n)).balances currency =
        Ledger.total ledger.balances currency) := by
  have hiff : ∀ entries, Ledger.EachAccepted .default Ledger.PostedExactly ledger entries ↔
      Ledger.EachAccepted .default (fun l _ entry => Ledger.Representable .default l entry) ledger entries :=
    fun entries => Ledger.EachAccepted.congr fun h => Ledger.postedExactly_iff h
  refine ⟨hiff entries, fun h n currency => ?_⟩
  exact Ledger.EachAccepted.total ((hiff _).2 (h.take n)) currency

/-! ## At the boundary -/

namespace Ledger

/-- two accounts of the largest amount `_quantize` takes -/
def boundaryOpening : Dict AccountReference Decimal :=
  .ofList [(.account "payer", ⟨10 ^ 28 - 1, -2⟩), (.account "payee", ⟨10 ^ 28 - 1, -2⟩)]

/-- all but one cent of the payer's balance -/
def boundaryTransfer : LedgerEntry :=
  ⟨"transfer", .ofList [("payer", ⟨10 ^ 28 - 2, -2⟩)], .ofList [("payee", ⟨10 ^ 28 - 2, -2⟩)], "USD"⟩

def boundaryLedger : Ledger := ((create .default boundaryOpening []).toOption).getD ⟨[], ∅, [], []⟩

def boundaryAfter : Ledger := ((boundaryLedger.post .default boundaryTransfer).toOption).getD ⟨[], ∅, [], []⟩

end Ledger

/-- **An accepted posting that creates value.** Both accounts hold 99999999999999999999999999.99 USD. The payee's new
balance needs 29 digits and is rounded up by three cents, the exact total grows by as much, and `assert_conserved`,
which rounds both totals to the same 28 digits, passes. -/
theorem posting_creates_value :
    Ledger.create .default Ledger.boundaryOpening [] = .ok Ledger.boundaryLedger ∧
    Ledger.boundaryLedger.post .default Ledger.boundaryTransfer = .ok Ledger.boundaryAfter ∧
    ¬ Ledger.PostedExactly Ledger.boundaryLedger Ledger.boundaryAfter Ledger.boundaryTransfer ∧
    Ledger.total Ledger.boundaryAfter.balances "USD" = Ledger.total Ledger.boundaryLedger.balances "USD" + 3 / 100 ∧
    Ledger.assertConserved .default (Ledger.totalsByCurrency .default Ledger.boundaryLedger.balances)
      Ledger.boundaryAfter = .ok () := by
  have hbefore : Ledger.boundaryLedger.balances.items =
      [(("payer", "USD"), ⟨10 ^ 28 - 1, -2⟩), (("payee", "USD"), ⟨10 ^ 28 - 1, -2⟩)] := by decide +kernel
  have hafter : Ledger.boundaryAfter.balances.items =
      [(("payer", "USD"), ⟨1, -2⟩), (("payee", "USD"), ⟨2 * 10 ^ 27, -1⟩)] := by decide +kernel
  have htotal : Ledger.total Ledger.boundaryAfter.balances "USD" =
      Ledger.total Ledger.boundaryLedger.balances "USD" + 3 / 100 := by
    unfold Ledger.total
    rw [hbefore, hafter]
    norm_num [Decimal.value]
  refine ⟨rfl, ?_, ?_, htotal, ?_⟩
  · rfl
  · rintro ⟨-, htotals⟩
    have := htotals "USD"
    rw [htotal] at this
    norm_num at this
  · decide +kernel

end Apar
