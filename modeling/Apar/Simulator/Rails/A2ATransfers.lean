/-
Account-to-account transfers whose payers can pay.

A transfer is initiated, accepted and posted. Transfers with distinct ids and payers, none of whom another transfer pays,
go through one after the other from a ledger that holds what each payer owes.

- `posted_transfer`: the ledger posts a transfer that its payer's balance covers.
- `transfers_moved`: the books take the requests of such transfers, in order, whatever the times they are due.
- `transfers_carried`: so a fresh engine carries out their commands.
-/
import Apar.Simulator.Rails.Progress

namespace Apar

open Exec Engine Lifecycle

/-! ## Cents -/

namespace Decimal

theorem fix_default {coeff exp : ℤ} (h : coeff.natAbs < 10 ^ 28) : fix .default ⟨coeff, exp⟩ = ⟨coeff, exp⟩ := by
  show (if coeff.natAbs < 10 ^ 28 then _ else _) = _
  rw [if_pos h]

theorem add_cents {a b : ℤ} (h : (a + b).natAbs < 10 ^ 28) : add .default ⟨a, -2⟩ ⟨b, -2⟩ = ⟨a + b, -2⟩ := by
  have hscaled : ∀ c : ℤ, scaled ⟨c, -2⟩ (-2) = c := by
    intro c
    simp [scaled]
  rw [add, min_self, hscaled, hscaled]
  exact fix_default h

theorem zero_add_cents {a : ℤ} (h : a.natAbs < 10 ^ 28) : add .default 0 ⟨a, -2⟩ = ⟨a, -2⟩ := by
  have hscaled : scaled ⟨a, -2⟩ (-2) = a := by simp [scaled]
  have hzero : scaled 0 (-2) = 0 := by rfl
  have hmin : min (0 : Decimal).exp (-2) = -2 := by rfl
  rw [add, hmin, hscaled, hzero, zero_add]
  exact fix_default h

theorem ble_cents (a : ℕ) : ble 0 ⟨a, -2⟩ = true := by
  rw [ble_iff, value_zero, value_nonneg]
  exact Int.natCast_nonneg a

theorem quantize_cents {a : ℕ} (h : a < 10 ^ 28) : quantize .default ⟨a, -2⟩ (-((2 : ℕ) : ℤ)) = some ⟨a, -2⟩ := by
  have hrescale : rescale ⟨a, -2⟩ (-2) = a := by simp [rescale, scaled]
  show (if (rescale ⟨a, -2⟩ (-2)).natAbs < 10 ^ 28 then _ else _) = _
  rw [hrescale, Int.natAbs_natCast, if_pos h]
  exact congrArg some (congrArg (Decimal.mk · (-2)) hrescale)

end Decimal

theorem Ledger.quantizeAmount_cents {a : ℕ} (h : a < 10 ^ 28) : quantizeAmount .default ⟨a, -2⟩ "USD" = .ok ⟨a, -2⟩ :=
  quantizeAmount_eq_ok.2 ⟨2, by decide, Decimal.quantize_cents h⟩

/-- legs in whole cents are normal -/
theorem Ledger.normalizeDict_cents {legs : Dict String Decimal}
    (h : ∀ p ∈ legs.items, p.1 ≠ "" ∧ ∃ cents : ℕ, cents < 10 ^ 28 ∧ p.2 = ⟨cents, -2⟩) :
    normalizeDict .default "USD" legs = .ok legs := by
  have hlegs : ∀ {l : List (String × Decimal)}, (∀ p ∈ l, p.1 ≠ "" ∧ ∃ cents : ℕ, cents < 10 ^ 28 ∧ p.2 = ⟨cents, -2⟩) →
      normalizeLegs .default "USD" l = .ok l := by
    intro l
    induction l with
    | nil => exact fun _ => rfl
    | cons p rest ih =>
      intro hl
      obtain ⟨account, amount⟩ := p
      obtain ⟨hne, cents, hfits, hamount⟩ := hl _ List.mem_cons_self
      simp only at hamount hne
      subst hamount
      simp only [normalizeLegs, except_bind_eq_ok, check_eq_ok, except_pure_eq_ok, decide_eq_true_eq]
      exact ⟨(), hne, (), Decimal.ble_cents cents, _, quantizeAmount_cents hfits, rest,
        ih fun q hq => hl q (List.mem_cons_of_mem _ hq), rfl⟩
  unfold normalizeDict
  split
  · next items hitems =>
    rw [hlegs h] at hitems
    cases hitems
    rfl
  · next e he =>
    rw [hlegs h] at he
    cases he

/-- opening balances in dollars, as a mapping of account names -/
def Ledger.openingOf (balances : Dict String Decimal) : Dict AccountReference Decimal :=
  .ofList (balances.items.map fun p => (.account p.1, p.2))

theorem Ledger.openBalances_cents {rows : List (String × Decimal)}
    (h : ∀ p ∈ rows, p.1 ≠ "" ∧ ∃ cents : ℕ, cents < 10 ^ 28 ∧ p.2 = ⟨cents, -2⟩) (b : Dict (String × String) Decimal) :
    openBalances .default [] (rows.map fun p => (.account p.1, p.2)) b =
      .ok ((rows.map fun p => ((p.1, "USD"), p.2)).foldl (fun b p => b.set p.1 p.2) b) := by
  induction rows generalizing b with
  | nil => rfl
  | cons p rest ih =>
    obtain ⟨account, amount⟩ := p
    obtain ⟨hne, cents, hfits, hamount⟩ := h _ List.mem_cons_self
    simp only at hamount hne
    subst hamount
    have hparse : parseAccountReference (.account account) = .ok (account, "USD") := by
      simp only [parseAccountReference, except_bind_eq_ok, check_eq_ok, except_pure_eq_ok, currencyExponent_eq_ok,
        decide_eq_true_eq, and_true]
      exact ⟨(), hne, 2, by decide⟩
    rw [List.map_cons, openBalances]
    simp only [hparse, quantizeAmount_cents hfits, Decimal.ble_cents, Bool.true_or, except_ok_bind]
    exact ih (fun q hq => h q (List.mem_cons_of_mem _ hq)) _

/-- **A ledger of balances in cents** opens, and holds them. -/
theorem Ledger.create_cents {balances : Dict String Decimal}
    (h : ∀ p ∈ balances.items, p.1 ≠ "" ∧ ∃ cents : ℕ, cents < 10 ^ 28 ∧ p.2 = ⟨cents, -2⟩) :
    ∃ ledger, create .default (openingOf balances) [] = .ok ledger ∧ ledger.entryIds = [] ∧
      ∀ account amount, balances.get? account = some amount → ledger.balance account "USD" = amount := by
  have hreferences : (balances.items.map fun p => (AccountReference.account p.1, p.2)).map Prod.fst =
      balances.keys.map AccountReference.account := by
    rw [Dict.keys, List.map_map, List.map_map]
    rfl
  have hopening : (openingOf balances).items = balances.items.map fun p => (.account p.1, p.2) := by
    apply Dict.items_ofList
    rw [hreferences]
    exact balances.nodup.map fun _ _ hsame => (AccountReference.account.inj hsame)
  have hkeys : ((balances.items.map fun p => ((p.1, "USD"), p.2)).map Prod.fst).Nodup := by
    have hpairs : (balances.items.map fun p => ((p.1, "USD"), p.2)).map Prod.fst = balances.keys.map (·, "USD") := by
      rw [Dict.keys, List.map_map, List.map_map]
      rfl
    rw [hpairs]
    exact balances.nodup.map fun _ _ hsame => (Prod.mk.inj hsame).1
  refine ⟨⟨[], .ofList (balances.items.map fun p => ((p.1, "USD"), p.2)), [], []⟩, ?_, rfl, fun account amount hget => ?_⟩
  · simp only [create, hopening, openBalances_cents h, except_ok_bind]
    rfl
  · have hmem : ((account, "USD"), amount) ∈ (Dict.ofList (balances.items.map fun p => ((p.1, "USD"), p.2))).items := by
      rw [Dict.items_ofList hkeys]
      exact List.mem_map.2 ⟨_, Dict.get?_eq_some.1 hget, rfl⟩
    rw [balance, Dict.getD, Dict.get?_eq_some.2 hmem, Option.getD_some]

theorem Book.move_of {S O R : Type} {L : Lifecycle S O R} {b : Book S R} {state next : S} {o : Opening R}
    {keys : List String} {lastEventId : String} {kind : EventKind} {effect : Option (Posting R)} {l : Ledger}
    (ctx : DecimalContext) (viewpoint : String) (p : ℕ) (now : Time) (r : Request O R)
    (hpayment : b.payment? L r = some ⟨state, o, keys, lastEventId⟩)
    (hlegal : L.transition state r.operation = some (next, kind, effect))
    (hposted : Book.posted ctx o (uuidAt p b.issued) b.ledger effect = some l) (hkey : r.idempotencyKey ∉ keys)
    (hissued : b.issued < 2 ^ 48) :
    ∃ b', b.move L ctx viewpoint p now r = some b' ∧ b'.ledger = l ∧ b'.issued = b.issued + 1 ∧
      b'.events.length = b.events.length + 1 ∧ b'.payments = b.payments.set r.paymentId
        ⟨next, o, keys ++ [r.idempotencyKey], uuidAt p b.issued⟩ := by
  have hrefused : ¬ (r.idempotencyKey ∈ keys ∨ 2 ^ 48 ≤ b.issued) := by
    rw [not_or, not_le]
    exact ⟨hkey, hissued⟩
  simp only [Book.move, hpayment, hlegal, hposted, Option.bind_eq_bind, Option.bind_some, if_neg hrefused]
  exact ⟨_, rfl, rfl, rfl, by rw [List.length_append]; rfl, rfl⟩

/-! ## One transfer -/

/-- a transfer in whole cents, with the keys of its three commands -/
structure Transfer where
  paymentId : String
  opening : Opening A2ARole
  amount : ℕ
  fee : ℕ
  openKey : String
  acceptKey : String
  postKey : String

namespace Transfer

def requests (t : Transfer) : List (Request A2AOperation A2ARole) :=
  [⟨.initiateA2A, t.paymentId, t.openKey, some t.opening⟩, ⟨.acceptA2A, t.paymentId, t.acceptKey, none⟩,
    ⟨.postA2A, t.paymentId, t.postKey, none⟩]

def payer (t : Transfer) : String := t.opening.accounts .payer

/-- the accounts a transfer pays -/
def paid (t : Transfer) : List String := [t.opening.accounts .payee, t.opening.accounts .fee]

/-- canonical opening data, and three keys -/
structure Valid (t : Transfer) : Prop where
  opening : a2aRail.openingRequest .default .initiateA2A t.paymentId t.openKey t.opening =
    .ok ⟨.initiateA2A, t.paymentId, t.openKey, some t.opening⟩
  amount : t.opening.amount = ⟨t.amount, -2⟩
  fee : t.opening.fee = ⟨t.fee, -2⟩
  currency : t.opening.currency = "USD"
  keys : [t.openKey, t.acceptKey, t.postKey].Nodup
  acceptKey : t.acceptKey ≠ ""
  postKey : t.postKey ≠ ""

theorem Valid.accounts {t : Transfer} (h : t.Valid) :
    (∀ role, t.opening.accounts role ≠ "") ∧
      [t.opening.accounts .payer, t.opening.accounts .payee, t.opening.accounts .fee, t.opening.accounts .frozen].Nodup := by
  obtain ⟨-, _, _, -, -, -, -, haccounts, -⟩ := openingRequest_eq_ok.1 h.opening
  simp only [checkAccounts, except_bind_eq_ok, check_eq_ok, decide_eq_true_eq] at haccounts
  obtain ⟨_, htexts, hnodup⟩ := haccounts
  refine ⟨fun role => ?_, hnodup⟩
  have htext := forM_mem htexts (a2aPositions.roles role)
  simpa only [checkText, check_eq_ok, decide_eq_true_eq] using htext

theorem Valid.wellformed {t : Transfer} (h : t.Valid) : ∀ r ∈ t.requests, Wellformed a2aRail .default r := by
  obtain ⟨-, _, _, -, -, -, hid, -⟩ := openingRequest_eq_ok.1 h.opening
  intro r hr
  simp only [requests, List.mem_cons, List.not_mem_nil, or_false] at hr
  rcases hr with rfl | rfl | rfl
  · exact wellformed_opening rfl h.opening
  · exact wellformed_followup rfl hid h.acceptKey
  · exact wellformed_followup rfl hid h.postKey

theorem Valid.distinct {t : Transfer} (h : t.Valid) : t.opening.accounts .payer ≠ t.opening.accounts .payee ∧
    t.opening.accounts .payer ≠ t.opening.accounts .fee ∧ t.opening.accounts .payee ≠ t.opening.accounts .fee := by
  obtain ⟨-, hnodup⟩ := h.accounts
  simp only [List.nodup_cons, List.mem_cons, not_or] at hnodup
  exact ⟨hnodup.1.1, hnodup.1.2.1, hnodup.2.1.1⟩

theorem Valid.debit {t : Transfer} (h : t.Valid) (hfits : t.amount + t.fee < 10 ^ 28) :
    (legs .default t.opening A2A.post.debit).items =
      [(t.opening.accounts .payer, ⟨((t.amount + t.fee : ℕ) : ℤ), -2⟩)] := by
  have htotal : t.opening.amount.add .default t.opening.fee = ⟨((t.amount + t.fee : ℕ) : ℤ), -2⟩ := by
    rw [h.amount, h.fee, Decimal.add_cents (by omega), Nat.cast_add]
  rw [← htotal]
  exact Dict.items_ofList (by simp [A2A.post])

theorem Valid.credit {t : Transfer} (h : t.Valid) : (legs .default t.opening A2A.post.credit).items =
    [(t.opening.accounts .payee, ⟨t.amount, -2⟩), (t.opening.accounts .fee, ⟨t.fee, -2⟩)] := by
  rw [← h.amount, ← h.fee]
  exact Dict.items_ofList (by simp [A2A.post, h.distinct.2.2])

theorem Valid.balanced {t : Transfer} (h : t.Valid) (hfits : t.amount + t.fee < 10 ^ 28) :
    (Decimal.sum .default (legs .default t.opening A2A.post.debit).values).numEq
      (Decimal.sum .default (legs .default t.opening A2A.post.credit).values) = true := by
  have hleft : Decimal.sum .default (legs .default t.opening A2A.post.debit).values =
      ⟨((t.amount + t.fee : ℕ) : ℤ), -2⟩ := by
    rw [Dict.values, h.debit hfits]
    exact Decimal.zero_add_cents (by omega)
  have hright : Decimal.sum .default (legs .default t.opening A2A.post.credit).values =
      ⟨((t.amount + t.fee : ℕ) : ℤ), -2⟩ := by
    rw [Dict.values, h.credit]
    show Decimal.add .default (Decimal.add .default 0 ⟨t.amount, -2⟩) ⟨t.fee, -2⟩ = _
    rw [Decimal.zero_add_cents (by omega), Decimal.add_cents (by omega), Nat.cast_add]
  rw [hleft, hright, Decimal.numEq_iff]

theorem Valid.normal {t : Transfer} (h : t.Valid) (hfits : t.amount + t.fee < 10 ^ 28) :
    Ledger.normalizeDict .default "USD" (legs .default t.opening A2A.post.debit) =
        .ok (legs .default t.opening A2A.post.debit) ∧
      Ledger.normalizeDict .default "USD" (legs .default t.opening A2A.post.credit) =
        .ok (legs .default t.opening A2A.post.credit) := by
  obtain ⟨hne, -⟩ := h.accounts
  refine ⟨Ledger.normalizeDict_cents fun p hp => ?_, Ledger.normalizeDict_cents fun p hp => ?_⟩
  · rw [h.debit hfits, List.mem_singleton] at hp
    rw [hp]
    exact ⟨hne _, _, hfits, rfl⟩
  · rw [h.credit] at hp
    simp only [List.mem_cons, List.not_mem_nil, or_false] at hp
    rcases hp with rfl | rfl
    · exact ⟨hne _, _, by omega, rfl⟩
    · exact ⟨hne _, _, by omega, rfl⟩

theorem Valid.debited {t : Transfer} (h : t.Valid) {l : Ledger} {balance : ℕ}
    (hbalance : l.balance t.payer "USD" = ⟨balance, -2⟩) (hcovered : t.amount + t.fee ≤ balance)
    (hfits : balance < 10 ^ 28) : ∃ debited, Ledger.debitLegs .default l.allowCredit "USD"
      (legs .default t.opening A2A.post.debit).items l.balances = .ok debited := by
  have hsub : Decimal.sub .default ⟨balance, -2⟩ ⟨((t.amount + t.fee : ℕ) : ℤ), -2⟩ =
      ⟨((balance - (t.amount + t.fee) : ℕ) : ℤ), -2⟩ := by
    show Decimal.add .default ⟨balance, -2⟩ ⟨-((t.amount + t.fee : ℕ) : ℤ), -2⟩ = _
    rw [Decimal.add_cents (by omega), Nat.cast_sub hcovered, sub_eq_add_neg]
  have hpayer : l.balances.getD (t.opening.accounts .payer, "USD") 0 = ⟨balance, -2⟩ := hbalance
  rw [h.debit (hcovered.trans_lt hfits)]
  simp only [Ledger.debitLegs, except_bind_eq_ok, check_eq_ok, hpayer, hsub, Decimal.ble_cents, Bool.true_or]
  exact ⟨_, (), trivial, rfl⟩

/-- the id of the entry that posts a transfer -/
def entryId (eventId : String) : String := eventId ++ ":" ++ "post"

theorem notBlank_entryId (eventId : String) : Ledger.notBlank (entryId eventId) = true := by
  have hpost : ("post".toList.any fun c => !Ledger.isSpace c) = true := by decide
  rw [Ledger.notBlank, entryId, String.toList_append, List.any_append, hpost, Bool.or_true]

/-- **A covered transfer is posted.** The entry gets its id, and no account beside the payer's and those paid moves. -/
theorem Valid.posted {t : Transfer} (h : t.Valid) {l : Ledger} {eventId : String} {balance : ℕ}
    (hfresh : entryId eventId ∉ l.entryIds) (hbalance : l.balance t.payer "USD" = ⟨balance, -2⟩)
    (hcovered : t.amount + t.fee ≤ balance) (hfits : balance < 10 ^ 28) :
    ∃ l', Book.posted .default t.opening eventId l (some A2A.post) = some l' ∧
      l'.entryIds = entryId eventId :: l.entryIds ∧
      ∀ account, account ≠ t.payer → account ∉ t.paid → l'.balance account "USD" = l.balance account "USD" := by
  have hcents := hcovered.trans_lt hfits
  obtain ⟨hdebit, hcredit⟩ := h.normal hcents
  obtain ⟨debited, hdebited⟩ := h.debited hbalance hcovered hfits
  have hid : (!l.entryIds.contains (entryId eventId)) = true := by simpa using hfresh
  obtain ⟨l', hpost⟩ : ∃ l', l.post .default (effectEntry .default t.opening A2A.post eventId) = .ok l' := by
    simp only [Ledger.post, effectEntry, h.currency, except_bind_eq_ok, check_eq_ok, except_pure_eq_ok,
      Ledger.currencyExponent_eq_ok]
    exact ⟨_, (), notBlank_entryId eventId, (), hid, 2, by decide, _, hdebit, _, hcredit, (), h.balanced hcents, debited,
      hdebited, rfl⟩
  obtain ⟨debits, credits, k, -, hdebits, hcredits, -, hids, -, -, hafter⟩ := Ledger.post_spec hpost
  have hcurrency : (effectEntry .default t.opening A2A.post eventId).currency = "USD" := h.currency
  rw [hcurrency] at hdebits hcredits
  have hsame := Except.ok.inj (hdebit.symm.trans hdebits)
  have hsame' := Except.ok.inj (hcredit.symm.trans hcredits)
  refine ⟨l', by rw [Book.posted, hpost]; rfl, hids, fun account hpayer hpaid => ?_⟩
  have hnodebit : debits.get? account = none := by
    rw [← hsame, Dict.get?_eq_none, Dict.keys, h.debit hcents]
    simpa [payer] using hpayer
  have hnocredit : credits.get? account = none := by
    rw [← hsame', Dict.get?_eq_none, Dict.keys, h.credit]
    simpa [paid] using hpaid
  rw [hafter, Ledger.postedBalance]
  simp [hnodebit, hnocredit]

/-! ## Transfers in order -/

/-- books that can take transfers one after the other: their ids are new, and their payers hold what they owe -/
structure Ready (p : ℕ) (b : Book A2AState A2ARole) (transfers : List Transfer) : Prop where
  valid : ∀ t ∈ transfers, t.Valid
  unpaid : transfers.Pairwise fun t u => t.paymentId ≠ u.paymentId ∧ u.payer ≠ t.payer ∧ u.payer ∉ t.paid
  issued : b.issued + 3 * transfers.length ≤ 2 ^ 48
  entries : ∀ id ∈ b.ledger.entryIds, ∃ k < b.issued, id = entryId (uuidAt p k)
  fresh : ∀ t ∈ transfers, b.payments.get? t.paymentId = none
  covered : ∀ t ∈ transfers, ∃ balance : ℕ, b.ledger.balance t.payer "USD" = ⟨balance, -2⟩ ∧
    t.amount + t.fee ≤ balance ∧ balance < 10 ^ 28

theorem entryId_inj {a b : String} (h : entryId a = entryId b) : a = b := by
  have hlists := congrArg String.toList h
  simp only [entryId, String.toList_append] at hlists
  have hlengths := congrArg List.length hlists
  exact String.toList_inj.1 (List.append_cancel_right (List.append_cancel_right hlists))

/-- **Step.** The books take the three requests of a transfer, whatever the times they are due. -/
theorem Ready.moved {p : ℕ} (hp : p < 2 ^ 80) {b : Book A2AState A2ARole} {t : Transfer} {rest : List Transfer}
    (h : Ready p b (t :: rest)) (viewpoint : String) (due₁ due₂ due₃ : Time) (priority₁ priority₂ priority₃ : ℤ) :
    ∃ b', b.moves a2aRail .default viewpoint p [(due₁, priority₁, ⟨.initiateA2A, t.paymentId, t.openKey, some t.opening⟩),
      (due₂, priority₂, ⟨.acceptA2A, t.paymentId, t.acceptKey, none⟩),
      (due₃, priority₃, ⟨.postA2A, t.paymentId, t.postKey, none⟩)] = some b' ∧ Ready p b' rest ∧
      b'.events.length = b.events.length + 3 := by
  have hvalid := h.valid t List.mem_cons_self
  have hissued := h.issued
  rw [List.length_cons] at hissued
  obtain ⟨balance, hbalance, hcovered, hfits⟩ := h.covered t List.mem_cons_self
  have hfresh : entryId (uuidAt p (b.issued + 1 + 1)) ∉ b.ledger.entryIds := by
    intro hmem
    obtain ⟨k, hk, hid⟩ := h.entries _ hmem
    have := uuidAt_inj hp (by omega) (by omega) (entryId_inj hid)
    omega
  obtain ⟨l', hposted, hids, hothers⟩ := hvalid.posted hfresh hbalance hcovered hfits
  have hnone := h.fresh t List.mem_cons_self
  have hkeys := hvalid.keys
  simp only [List.nodup_cons, List.mem_cons, List.not_mem_nil, or_false, not_or] at hkeys
  -- initiated
  have hopen : b.payment? a2aRail ⟨.initiateA2A, t.paymentId, t.openKey, some t.opening⟩ =
      some ⟨.created, t.opening, [], ""⟩ := by
    rw [Book.payment?, hnone]
    rfl
  obtain ⟨b₁, hmove₁, hledger₁, hissued₁, hevents₁, hpayments₁⟩ := Book.move_of .default viewpoint p due₁
    ⟨.initiateA2A, t.paymentId, t.openKey, some t.opening⟩ hopen rfl rfl (by simp) (by omega)
  -- accepted
  have haccept : b₁.payment? a2aRail ⟨.acceptA2A, t.paymentId, t.acceptKey, none⟩ =
      some ⟨.initiated, t.opening, [t.openKey], uuidAt p b.issued⟩ := by
    rw [Book.payment?, hpayments₁, Dict.get?_set_self]
    rfl
  obtain ⟨b₂, hmove₂, hledger₂, hissued₂, hevents₂, hpayments₂⟩ := Book.move_of .default viewpoint p due₂
    ⟨.acceptA2A, t.paymentId, t.acceptKey, none⟩ haccept rfl rfl
    (by rw [List.mem_singleton]; exact fun hsame => hkeys.1.1 hsame.symm) (by omega)
  -- posted
  have hpost : b₂.payment? a2aRail ⟨.postA2A, t.paymentId, t.postKey, none⟩ =
      some ⟨.accepted, t.opening, [t.openKey, t.acceptKey], uuidAt p b₁.issued⟩ := by
    rw [Book.payment?, hpayments₂, Dict.get?_set_self]
    rfl
  have hposted₃ : Book.posted .default t.opening (uuidAt p b₂.issued) b₂.ledger (some A2A.post) = some l' := by
    rw [hissued₂, hissued₁, hledger₂, hledger₁]
    exact hposted
  obtain ⟨b₃, hmove₃, hledger₃, hissued₃, hevents₃, hpayments₃⟩ := Book.move_of .default viewpoint p due₃
    ⟨.postA2A, t.paymentId, t.postKey, none⟩ hpost rfl hposted₃
    (by
      rw [List.mem_cons, List.mem_singleton, not_or]
      exact ⟨fun hsame => hkeys.1.2 hsame.symm, fun hsame => hkeys.2.1 hsame.symm⟩) (by omega)
  refine ⟨b₃, ?_, ?_, by omega⟩
  · simp only [Book.moves, hmove₁, hmove₂, hmove₃, Option.bind_some]
  · have hunpaid := List.pairwise_cons.1 h.unpaid
    refine ⟨fun u hu => h.valid u (List.mem_cons_of_mem t hu), hunpaid.2, by omega, ?_, ?_, ?_⟩
    · intro id hid
      rw [hledger₃, hids, List.mem_cons] at hid
      rcases hid with rfl | hid
      · exact ⟨b.issued + 1 + 1, by omega, rfl⟩
      · obtain ⟨k, hk, hentry⟩ := h.entries id hid
        exact ⟨k, by omega, hentry⟩
    · intro u hu
      have hne := (hunpaid.1 u hu).1.symm
      rw [hpayments₃, hpayments₂, hpayments₁, Dict.get?_set_of_ne _ _ hne, Dict.get?_set_of_ne _ _ hne,
        Dict.get?_set_of_ne _ _ hne]
      exact h.fresh u (List.mem_cons_of_mem t hu)
    · intro u hu
      obtain ⟨-, hpayer, hpaid⟩ := hunpaid.1 u hu
      obtain ⟨funds, hfunds, hcoveredu, hfitsu⟩ := h.covered u (List.mem_cons_of_mem t hu)
      refine ⟨funds, ?_, hcoveredu, hfitsu⟩
      rw [hledger₃, hothers u.payer hpayer hpaid]
      exact hfunds

/-- **Run.** The books take the requests of such transfers, in order, whatever the times they are due. -/
theorem Ready.moves {p : ℕ} (hp : p < 2 ^ 80) (viewpoint : String) {transfers : List Transfer}
    {b : Book A2AState A2ARole} (h : Ready p b transfers) {plan : List (Planned (Request A2AOperation A2ARole))}
    (hplan : plan.map (fun c => c.2.2) = transfers.flatMap requests) :
    ∃ b', b.moves a2aRail .default viewpoint p plan = some b' ∧ b'.events.length = b.events.length + plan.length := by
  induction transfers generalizing b plan with
  | nil =>
    rw [List.flatMap_nil, List.map_eq_nil_iff] at hplan
    subst hplan
    exact ⟨b, rfl, rfl⟩
  | cons t rest ih =>
    rw [List.flatMap_cons, requests, List.cons_append, List.cons_append, List.cons_append, List.nil_append] at hplan
    obtain ⟨⟨due₁, priority₁, _⟩, plan₁, rfl, rfl, hplan₁⟩ := List.map_eq_cons_iff.1 hplan
    obtain ⟨⟨due₂, priority₂, _⟩, plan₂, rfl, rfl, hplan₂⟩ := List.map_eq_cons_iff.1 hplan₁
    obtain ⟨⟨due₃, priority₃, _⟩, plan₃, rfl, rfl, hplan₃⟩ := List.map_eq_cons_iff.1 hplan₂
    obtain ⟨b₁, hmoves, hready, hevents⟩ := h.moved hp viewpoint due₁ due₂ due₃ priority₁ priority₂ priority₃
    obtain ⟨b', hrest, hlength⟩ := ih hready hplan₃
    refine ⟨b', ?_, ?_⟩
    · simp only [Book.moves, Option.bind_eq_some_iff, Option.some.injEq] at hmoves ⊢
      obtain ⟨b₂, hmove₁, b₃, hmove₂, b₄, hmove₃, rfl⟩ := hmoves
      exact ⟨b₂, hmove₁, b₃, hmove₂, b₄, hmove₃, hrest⟩
    · rw [hlength, hevents]
      simp only [List.length_cons]
      omega

end Transfer

theorem Engine.Planned.requests {S O R : Type} {L : Lifecycle S O R} {plan : List (Planned (Command O))}
    {requests : List (Request O R)} (h : plan.map (fun c => c.2.2) = requests.map L.constructed) :
    ∃ requested : List (Planned (Request O R)), requested.map (fun c => c.2.2) = requests ∧
      requested.map (fun c => (c.1, c.2.1, L.constructed c.2.2)) = plan := by
  induction plan generalizing requests with
  | nil =>
    have hnil := List.map_eq_nil_iff.1 h.symm
    exact ⟨[], hnil.symm, rfl⟩
  | cons c rest ih =>
    obtain ⟨due, priority, command⟩ := c
    obtain ⟨r, requests', rfl, hcommand, hrest⟩ := List.map_eq_cons_iff.1 h.symm
    obtain ⟨requested, hrequests, hplan⟩ := ih hrest.symm
    have hsame : L.constructed r = command := hcommand
    exact ⟨(due, priority, r) :: requested, by rw [List.map_cons, hrequests], by rw [List.map_cons, hplan, hsame]⟩

/-- **Covered transfers are carried out.** Scheduled in order on a fresh engine, the commands of transfers that are ready
all take effect, and the engine stays healthy. -/
theorem transfers_carried [Sha256] (hdigest : ∀ j, isDigestText (Sha256.hexdigest j) = true) (viewpoint : String)
    (head b6 b7 b8 b9 : ℕ) {start : Time} {ledger : Ledger} {transfers : List Transfer}
    (h : Transfer.Ready (versionedPrefix head b6 b7 b8 b9) ⟨ledger, ∅, [], 0⟩ transfers)
    {plan : List (Planned (Command A2AOperation))}
    (hplan : plan.map (fun c => c.2.2) = (transfers.flatMap Transfer.requests).map a2aRail.constructed)
    (hnow : ∀ c ∈ plan, start ≤ c.1) (horder : plan.Pairwise Planned.Before) :
    ∃ s, afterCalls (a2aRail.adapter .default)
        (Engine.fresh .a2a viewpoint (versionedPrefix head b6 b7 b8 b9) start ledger ())
        (plan.map Planned.call ++ [.run plan.length none]) = s ∧
      s.failure = none ∧ s.events.length = plan.length := by
  obtain ⟨requested, hrequests, rfl⟩ := Planned.requests hplan
  obtain ⟨b', hmoves, hevents⟩ := h.moves (versionedPrefix_lt head b6 b7 b8 b9) viewpoint hrequests
  have hwellformed : ∀ c ∈ requested, Wellformed a2aRail .default c.2.2 := by
    intro c hc
    have hmem : c.2.2 ∈ transfers.flatMap Transfer.requests := by
      rw [← hrequests]
      exact List.mem_map_of_mem hc
    obtain ⟨t, ht, hr⟩ := List.mem_flatMap.1 hmem
    exact (h.valid t ht).wellformed _ hr
  have hstart : ∀ c ∈ requested, start ≤ c.1 := fun c hc => hnow _ (List.mem_map_of_mem hc)
  rw [List.pairwise_map] at horder
  have hbefore : requested.Pairwise Planned.Before := horder
  obtain ⟨s, hrun, hhealthy, hkeeps⟩ := plan_carried hdigest a2a_tables a2aPositions.roles viewpoint head b6 b7 b8 b9
    hwellformed hstart hbefore hmoves
  refine ⟨s, ?_, hhealthy, ?_⟩
  · rw [List.length_map]
    exact hrun
  · rw [hkeeps.events, hevents, List.length_map]
    exact Nat.zero_add _

end Apar
