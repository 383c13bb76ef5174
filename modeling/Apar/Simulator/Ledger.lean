/-
The simulation ledger (`simulator/ledger.py`): append-only double-entry postings over (account, currency) balances.

`Ledger.post` validates one entry, quantises its legs to the currency's minor unit, refuses an unbalanced entry, a
repeated `entry_id` and a debit that overdraws an account without credit, and only then appends. Balances are kept with
Python's `Decimal` arithmetic under a context, so an addition rounds once a balance needs more digits than the context
keeps; `Exact` says no balance of a posting history ever did.

- `post_spec`: what an accepted posting is and does.
- `balance_eq`: as long as the history is `Exact` and no entry debits and credits one account, every balance is the
  opening balance plus the net effect of the entries.
-/
import Apar.Contracts.Event

namespace Apar

open Exec

/-! ## Model -/

/-- `_CURRENCY_EXPONENTS` -/
def currencyExponent? (currency : String) : Option ℕ :=
  if currency = "EUR" then some 2
  else if currency = "JPY" then some 0
  else if currency = "KWD" then some 3
  else if currency = "USD" then some 2
  else none

theorem currencyExponent?_le {currency : String} {k : ℕ} (h : currencyExponent? currency = some k) : k ≤ 3 := by
  unfold currencyExponent? at h
  split_ifs at h <;> cases h <;> decide

structure LedgerEntry where
  entryId : String
  debit : Dict String Decimal
  credit : Dict String Decimal
  currency : String

/-- `AccountReference`: an account in every currency, or an account in one currency -/
inductive AccountReference where
  | account (name : String)
  | pair (name currency : String)
deriving DecidableEq, Repr

structure Ledger where
  allowCredit : List AccountReference
  balances : Dict (String × String) Decimal
  entries : List LedgerEntry
  entryIds : List String

namespace Ledger

/-- `_currency_exponent` -/
def currencyExponent (currency : String) : Except SimError ℕ :=
  match currencyExponent? currency with
  | some k => .ok k
  | none => .error (.valueError ("unsupported currency: " ++ currency))

/-- `_quantize` -/
def quantizeAmount (ctx : DecimalContext) (amount : Decimal) (currency : String) : Except SimError Decimal := do
  let k ← currencyExponent currency
  match amount.quantize ctx (-k) with
  | some q => .ok q
  | none => .error .invalidOperation

def creditAllowed (allow : List AccountReference) (account currency : String) : Bool :=
  allow.contains (.account account) || allow.contains (.pair account currency)

/-- `_parse_account_reference` -/
def parseAccountReference (ref : AccountReference) : Except SimError (String × String) := do
  let key := match ref with
    | .account name => (name, "USD")
    | .pair name currency => (name, currency)
  check (key.1 ≠ "") (.valueError "account must not be empty")
  let _ ← currencyExponent key.2
  return key

/-- the opening balances `__init__` records, in the order given -/
def openBalances (ctx : DecimalContext) (allow : List AccountReference) :
    List (AccountReference × Decimal) → Dict (String × String) Decimal →
      Except SimError (Dict (String × String) Decimal)
  | [], balances => .ok balances
  | (ref, amount) :: rest, balances => do
    let key ← parseAccountReference ref
    let normalized ← quantizeAmount ctx amount key.2
    check (Decimal.ble 0 normalized || creditAllowed allow key.1 key.2)
      (.valueError ("opening balance would overdraw account: " ++ key.1))
    openBalances ctx allow rest (balances.set key normalized)

/-- `Ledger(opening_balances, allow_credit=...)` -/
def create (ctx : DecimalContext) (opening : Dict AccountReference Decimal) (allow : List AccountReference) :
    Except SimError Ledger := do
  let balances ← openBalances ctx allow opening.items ∅
  return ⟨allow, balances, [], []⟩

/-- the balance of an account, zero when it has none -/
def balance (l : Ledger) (account currency : String) : Decimal := l.balances.getD (account, currency) 0

/-- `_normalize_legs` -/
def normalizeLegs (ctx : DecimalContext) (currency : String) :
    List (String × Decimal) → Except SimError (List (String × Decimal))
  | [] => .ok []
  | (account, amount) :: rest => do
    check (account ≠ "") (.valueError "account must not be empty")
    check (Decimal.ble 0 amount) (.valueError "posting legs must be finite and non-negative")
    let value ← quantizeAmount ctx amount currency
    let rest' ← normalizeLegs ctx currency rest
    return (account, value) :: rest'

/-- debit every leg, refusing to overdraw an account without credit -/
def debitLegs (ctx : DecimalContext) (allow : List AccountReference) (currency : String) :
    List (String × Decimal) → Dict (String × String) Decimal → Except SimError (Dict (String × String) Decimal)
  | [], balances => .ok balances
  | (account, amount) :: rest, balances => do
    let newBalance := Decimal.sub ctx (balances.getD (account, currency) 0) amount
    check (Decimal.ble 0 newBalance || creditAllowed allow account currency)
      (.valueError ("posting would overdraw account: " ++ account))
    debitLegs ctx allow currency rest (balances.set (account, currency) newBalance)

def creditLegs (ctx : DecimalContext) (currency : String) :
    List (String × Decimal) → Dict (String × String) Decimal → Dict (String × String) Decimal
  | [], balances => balances
  | (account, amount) :: rest, balances =>
    creditLegs ctx currency rest
      (balances.set (account, currency) (Decimal.add ctx (balances.getD (account, currency) 0) amount))

variable {ctx : DecimalContext} {currency account : String} {allow : List AccountReference}

theorem normalizeLegs_keys {legs legs' : List (String × Decimal)} (h : normalizeLegs ctx currency legs = .ok legs') :
    legs'.map Prod.fst = legs.map Prod.fst := by
  induction legs generalizing legs' with
  | nil => cases h; rfl
  | cons leg rest ih =>
    obtain ⟨account, amount⟩ := leg
    simp only [normalizeLegs, except_bind_eq_ok, check_eq_ok, except_pure_eq_ok] at h
    obtain ⟨_, _, _, _, value, _, rest', hrest, rfl⟩ := h
    simp [ih hrest]

/-- the legs of a mapping, normalised; the accounts stay as they are -/
def normalizeDict (ctx : DecimalContext) (currency : String) (legs : Dict String Decimal) :
    Except SimError (Dict String Decimal) :=
  match h : normalizeLegs ctx currency legs.items with
  | .ok items => .ok ⟨items, by rw [normalizeLegs_keys h]; exact legs.nodup⟩
  | .error e => .error e

/-- `str.isspace` of one character -/
def isSpace (c : Char) : Bool :=
  let n := c.toNat
  (0x09 ≤ n && n ≤ 0x0d) || (0x1c ≤ n && n ≤ 0x20) || n == 0x85 || n == 0xa0 || n == 0x1680 ||
    (0x2000 ≤ n && n ≤ 0x200a) || n == 0x2028 || n == 0x2029 || n == 0x202f || n == 0x205f || n == 0x3000

/-- `s.strip()` leaves something -/
def notBlank (s : String) : Bool := s.toList.any fun c => !isSpace c

/-- `Ledger.post` -/
def post (ctx : DecimalContext) (l : Ledger) (entry : LedgerEntry) : Except SimError Ledger := do
  check (notBlank entry.entryId) (.valueError "entry_id must not be empty")
  check (!l.entryIds.contains entry.entryId) (.valueError ("duplicate ledger entry_id: " ++ entry.entryId))
  let _ ← currencyExponent entry.currency
  let debits ← normalizeDict ctx entry.currency entry.debit
  let credits ← normalizeDict ctx entry.currency entry.credit
  check ((Decimal.sum ctx debits.values).numEq (Decimal.sum ctx credits.values))
    (.valueError "debits must equal credits")
  let debited ← debitLegs ctx l.allowCredit entry.currency debits.items l.balances
  return {
    allowCredit := l.allowCredit
    balances := creditLegs ctx entry.currency credits.items debited
    entries := l.entries ++ [⟨entry.entryId, debits, credits, entry.currency⟩]
    entryIds := entry.entryId :: l.entryIds }

/-! ## What a posting does -/

/-- the amount a mapping of legs puts on an account -/
def legValue (legs : Dict String Decimal) (account : String) : ℚ := (legs.getD account 0).value

/-- the net effect of an entry on a balance -/
def entryEffect (entry : LedgerEntry) (account currency : String) : ℚ :=
  if entry.currency = currency then legValue entry.credit account - legValue entry.debit account else 0

/-- the net effect of a list of entries on a balance -/
def netEffect (entries : List LedgerEntry) (account currency : String) : ℚ :=
  (entries.map fun entry => entryEffect entry account currency).sum

@[simp] theorem netEffect_nil (account currency : String) : netEffect [] account currency = 0 := rfl

@[simp] theorem netEffect_append (xs ys : List LedgerEntry) (account currency : String) :
    netEffect (xs ++ ys) account currency = netEffect xs account currency + netEffect ys account currency := by
  simp [netEffect]

theorem netEffect_singleton (entry : LedgerEntry) (account currency : String) :
    netEffect [entry] account currency = entryEffect entry account currency := by
  simp [netEffect]

theorem currencyExponent_eq_ok {k : ℕ} : currencyExponent currency = .ok k ↔ currencyExponent? currency = some k := by
  unfold currencyExponent
  cases currencyExponent? currency with
  | none => simp
  | some j => simp

theorem quantizeAmount_eq_ok {amount q : Decimal} :
    quantizeAmount ctx amount currency = .ok q ↔
      ∃ k : ℕ, currencyExponent? currency = some k ∧ amount.quantize ctx (-k) = some q := by
  unfold quantizeAmount
  rw [except_bind_eq_ok]
  simp only [currencyExponent_eq_ok]
  refine exists_congr fun k => and_congr_right fun _ => ?_
  cases amount.quantize ctx (-k) with
  | none => simp
  | some q' => simp

/-- each normalised leg is a given leg, quantised -/
theorem normalizeLegs_get? {legs legs' : List (String × Decimal)} (h : normalizeLegs ctx currency legs = .ok legs')
    {q : Decimal} (hq : Assoc.get? account legs' = some q) :
    ∃ amount, Assoc.get? account legs = some amount ∧ account ≠ "" ∧ 0 ≤ amount.value ∧
      quantizeAmount ctx amount currency = .ok q := by
  induction legs generalizing legs' with
  | nil => cases h; cases hq
  | cons leg rest ih =>
    obtain ⟨account', amount⟩ := leg
    simp only [normalizeLegs, except_bind_eq_ok, check_eq_ok, except_pure_eq_ok, Decimal.ble_iff,
      Decimal.value_zero, decide_eq_true_eq] at h
    obtain ⟨_, hne, _, hnonneg, value, hvalue, rest', hrest, rfl⟩ := h
    rcases eq_or_ne account' account with rfl | ha
    · simp only [Assoc.get?, if_true, Option.some.injEq] at hq ⊢
      exact ⟨amount, rfl, hne, hnonneg, hq ▸ hvalue⟩
    · simp only [Assoc.get?, ha, if_false] at hq ⊢
      exact ih hrest hq

theorem debitLegs_getD {legs : List (String × Decimal)} (hn : (legs.map Prod.fst).Nodup)
    {b b' : Dict (String × String) Decimal} (h : debitLegs ctx allow currency legs b = .ok b') (account c : String) :
    b'.getD (account, c) 0 =
      if c = currency then ((Assoc.get? account legs).map (Decimal.sub ctx (b.getD (account, c) 0))).getD
        (b.getD (account, c) 0)
      else b.getD (account, c) 0 := by
  induction legs generalizing b with
  | nil => cases h; simp [Assoc.get?]
  | cons leg rest ih =>
    obtain ⟨account', amount⟩ := leg
    simp only [List.map_cons, List.nodup_cons] at hn
    simp only [debitLegs, except_bind_eq_ok, check_eq_ok] at h
    obtain ⟨_, _, hrest⟩ := h
    rw [ih hn.2 hrest]
    rcases eq_or_ne c currency with rfl | hc
    · rcases eq_or_ne account account' with rfl | ha
      · have hnone : Assoc.get? account rest = none := Assoc.get?_eq_none.2 hn.1
        simp [Assoc.get?, hnone, Dict.getD_set]
      · simp [Assoc.get?, ha, ha.symm, Dict.getD_set]
    · simp [Dict.getD_set, hc]

theorem creditLegs_getD {legs : List (String × Decimal)} (hn : (legs.map Prod.fst).Nodup)
    (b : Dict (String × String) Decimal) (account c : String) :
    (creditLegs ctx currency legs b).getD (account, c) 0 =
      if c = currency then ((Assoc.get? account legs).map (Decimal.add ctx (b.getD (account, c) 0))).getD
        (b.getD (account, c) 0)
      else b.getD (account, c) 0 := by
  induction legs generalizing b with
  | nil => simp [creditLegs, Assoc.get?]
  | cons leg rest ih =>
    obtain ⟨account', amount⟩ := leg
    simp only [List.map_cons, List.nodup_cons] at hn
    simp only [creditLegs]
    rw [ih hn.2]
    rcases eq_or_ne c currency with rfl | hc
    · rcases eq_or_ne account account' with rfl | ha
      · have hnone : Assoc.get? account rest = none := Assoc.get?_eq_none.2 hn.1
        simp [Assoc.get?, hnone, Dict.getD_set]
      · simp [Assoc.get?, ha, ha.symm, Dict.getD_set]
    · simp [Dict.getD_set, hc]

theorem normalizeDict_items {legs legs' : Dict String Decimal} (h : normalizeDict ctx currency legs = .ok legs') :
    normalizeLegs ctx currency legs.items = .ok legs'.items := by
  unfold normalizeDict at h
  split at h
  · next items hitems => cases h; exact hitems
  · cases h

theorem normalizeDict_keys {legs legs' : Dict String Decimal} (h : normalizeDict ctx currency legs = .ok legs') :
    legs'.keys = legs.keys :=
  normalizeLegs_keys (normalizeDict_items h)

/-- a leg of a normalised mapping is a whole number of minor units that the context can hold -/
theorem normalizeDict_exp {legs legs' : Dict String Decimal} (h : normalizeDict ctx currency legs = .ok legs') {k : ℕ}
    (hk : currencyExponent? currency = some k) {amount : Decimal} (hget : legs'.get? account = some amount) :
    amount.exp = -(k : ℤ) := by
  obtain ⟨_, _, _, _, hq⟩ := normalizeLegs_get? (normalizeDict_items h) hget
  obtain ⟨k', hk', hquant⟩ := quantizeAmount_eq_ok.1 hq
  rw [hk] at hk'
  cases hk'
  exact (Decimal.quantize_spec hquant).1

/-- the balance of an account after an entry: at most one debit, then at most one credit -/
def postedBalance (ctx : DecimalContext) (entry : LedgerEntry) (account currency : String) (balance : Decimal) :
    Decimal :=
  if currency = entry.currency then
    let debited := ((entry.debit.get? account).map (Decimal.sub ctx balance)).getD balance
    ((entry.credit.get? account).map (Decimal.add ctx debited)).getD debited
  else balance

/-- **An accepted posting.** It appends one entry with quantised legs under a fresh id, and moves exactly the balances
its legs name. -/
theorem post_spec {l l' : Ledger} {entry : LedgerEntry} (h : post ctx l entry = .ok l') :
    ∃ (debits credits : Dict String Decimal) (k : ℕ), currencyExponent? entry.currency = some k ∧
      normalizeDict ctx entry.currency entry.debit = .ok debits ∧
      normalizeDict ctx entry.currency entry.credit = .ok credits ∧
      entry.entryId ∉ l.entryIds ∧
      l'.entryIds = entry.entryId :: l.entryIds ∧
      l'.entries = l.entries ++ [⟨entry.entryId, debits, credits, entry.currency⟩] ∧
      l'.allowCredit = l.allowCredit ∧
      ∀ account currency, l'.balance account currency =
        postedBalance ctx ⟨entry.entryId, debits, credits, entry.currency⟩ account currency
          (l.balance account currency) := by
  simp only [post, except_bind_eq_ok, check_eq_ok, except_pure_eq_ok, currencyExponent_eq_ok] at h
  obtain ⟨_, _, _, hid, k, hk, debits, hdebits, credits, hcredits, _, _, debited, hdebited, rfl⟩ := h
  refine ⟨debits, credits, k, hk, hdebits, hcredits, by simpa using hid, rfl, rfl, rfl, fun account currency => ?_⟩
  simp only [balance, postedBalance]
  rw [creditLegs_getD credits.nodup, debitLegs_getD debits.nodup hdebited]
  split_ifs with hc
  · rfl
  · rfl

/-! ## Balances over a posting history -/

/-- no exact balance of the history needs more digits than the context keeps -/
def Exact (ctx : DecimalContext) (opening : Ledger) (entries : List LedgerEntry) : Prop :=
  ∀ account currency k, currencyExponent? currency = some k → ∀ n,
    ctx.Fits (-(k : ℤ)) ((opening.balance account currency).value + netEffect (entries.take n) account currency)

/-- no entry debits and credits one account -/
def OneSided (entries : List LedgerEntry) : Prop :=
  ∀ entry ∈ entries, ∀ account, entry.debit.get? account = none ∨ entry.credit.get? account = none

theorem Exact.of_append {opening : Ledger} {xs ys : List LedgerEntry} (h : Exact ctx opening (xs ++ ys)) :
    Exact ctx opening xs := by
  intro account currency k hk n
  have hn := h account currency k hk (min n xs.length)
  rwa [List.take_append_of_le_length (min_le_right _ _), ← List.take_take, List.take_length] at hn

/-- what holds of a ledger after any number of postings from an opening one -/
structure Posted (ctx : DecimalContext) (opening l : Ledger) : Prop where
  allow : l.allowCredit = opening.allowCredit
  ids : l.entryIds = (l.entries.map LedgerEntry.entryId).reverse
  ids_nodup : (l.entries.map LedgerEntry.entryId).Nodup
  balance_eq : Exact ctx opening l.entries → OneSided l.entries →
    ∀ account currency k, currencyExponent? currency = some k →
      (l.balance account currency).value =
          (opening.balance account currency).value + netEffect l.entries account currency ∧
        -(k : ℤ) ≤ (l.balance account currency).exp

theorem openBalances_exp {opening : List (AccountReference × Decimal)} {b b' : Dict (String × String) Decimal}
    (h : openBalances ctx allow opening b = .ok b')
    (hb : ∀ account currency k, currencyExponent? currency = some k → -(k : ℤ) ≤ (b.getD (account, currency) 0).exp) :
    ∀ account currency k, currencyExponent? currency = some k →
      -(k : ℤ) ≤ (b'.getD (account, currency) 0).exp := by
  induction opening generalizing b with
  | nil => cases h; exact hb
  | cons p rest ih =>
    obtain ⟨ref, amount⟩ := p
    simp only [openBalances, except_bind_eq_ok, check_eq_ok] at h
    obtain ⟨key, _, normalized, hq, _, _, hrest⟩ := h
    refine ih hrest fun account currency k hk => ?_
    rw [Dict.getD_set]
    split_ifs with hkey
    · obtain ⟨k', hk', hquant⟩ := quantizeAmount_eq_ok.1 hq
      subst hkey
      rw [hk] at hk'
      cases hk'
      exact (Decimal.quantize_spec hquant).1.ge
    · exact hb account currency k hk

theorem create_posted {opening : Dict AccountReference Decimal} {l : Ledger} (h : create ctx opening allow = .ok l) :
    Posted ctx l l ∧ l.entries = [] := by
  simp only [create, except_bind_eq_ok, except_pure_eq_ok] at h
  obtain ⟨balances, hb, rfl⟩ := h
  refine ⟨{ allow := rfl, ids := rfl, ids_nodup := by simp, balance_eq := ?_ }, rfl⟩
  intro _ _ account currency k hk
  refine ⟨by simp, ?_⟩
  exact openBalances_exp hb (fun _ _ _ _ => by simp [Dict.getD]) account currency k hk

/-- one leg of a fitting balance is applied exactly -/
theorem postedBalance_value {entry : LedgerEntry} {k : ℕ} {x : Decimal}
    (hdebit : ∀ amount, entry.debit.get? account = some amount → amount.exp = -(k : ℤ))
    (hcredit : ∀ amount, entry.credit.get? account = some amount → amount.exp = -(k : ℤ))
    (hone : entry.debit.get? account = none ∨ entry.credit.get? account = none) (hx : -(k : ℤ) ≤ x.exp)
    (hfits : ctx.Fits (-(k : ℤ)) (x.value + entryEffect entry account currency)) :
    (postedBalance ctx entry account currency x).value = x.value + entryEffect entry account currency ∧
      -(k : ℤ) ≤ (postedBalance ctx entry account currency x).exp := by
  unfold postedBalance entryEffect at *
  rcases eq_or_ne currency entry.currency with rfl | hc
  · simp only [if_true] at hfits ⊢
    unfold legValue Dict.getD at *
    cases hd : entry.debit.get? account with
    | none =>
      cases hcr : entry.credit.get? account with
      | none => simp [hx]
      | some amount =>
        simp only [hd, hcr, Option.getD_none, Option.getD_some, Option.map_none, Option.map_some, Decimal.value_zero,
          sub_zero] at hfits ⊢
        exact Decimal.add_value hx (hcredit amount hcr).ge hfits
    | some amount =>
      have hcr : entry.credit.get? account = none := by
        rcases hone with h | h
        · rw [hd] at h; cases h
        · exact h
      simp only [hd, hcr, Option.getD_none, Option.getD_some, Option.map_none, Option.map_some, Decimal.value_zero,
        zero_sub, ← sub_eq_add_neg] at hfits ⊢
      exact Decimal.sub_value hx (hdebit amount hd).ge hfits
  · simp [hc, hc.symm, hx]

/-- **Step.** An accepted posting keeps the balances of its history. -/
theorem post_posted {opening l l' : Ledger} {entry : LedgerEntry} (hl : Posted ctx opening l)
    (h : post ctx l entry = .ok l') : Posted ctx opening l' := by
  obtain ⟨debits, credits, k, hk, hdebits, hcredits, hid, hids, hentries, hallow, hbalance⟩ := post_spec h
  refine { allow := hallow.trans hl.allow, ids := ?_, ids_nodup := ?_, balance_eq := ?_ }
  · rw [hids, hentries, hl.ids]
    simp
  · rw [hentries, List.map_append, List.nodup_append]
    refine ⟨hl.ids_nodup, by simp, ?_⟩
    rintro a ha b hb rfl
    rw [hl.ids, List.mem_reverse] at hid
    simp only [List.map_cons, List.map_nil, List.mem_singleton] at hb
    exact hid (hb ▸ ha)
  · intro hexact hone account currency j hj
    rw [hentries] at hexact hone
    obtain ⟨hvalue, hexp⟩ := hl.balance_eq hexact.of_append (fun e he => hone e (by simp [he])) account currency j hj
    have hfits := hexact account currency j hj (l.entries.length + 1)
    rw [List.take_of_length_le (by simp), netEffect_append, netEffect_singleton, ← add_assoc, ← hvalue] at hfits
    rw [hbalance, hentries, netEffect_append, netEffect_singleton, ← add_assoc, ← hvalue]
    rcases eq_or_ne currency entry.currency with rfl | hc
    · rw [hk] at hj
      cases hj
      exact postedBalance_value (fun a ha => normalizeDict_exp hdebits hk ha)
        (fun a ha => normalizeDict_exp hcredits hk ha) (hone _ (by simp) account) hexp hfits
    · simp [postedBalance, entryEffect, hc, hc.symm, hexp]

end Ledger

end Apar
