/-
The stored states of a lifecycle rail are valid: `_validated_state` accepts every state the adapter stores, before and
after each transition.

`Lifecycle.ValidState` is what `_validated_state` checks, as a statement (`validatedState_iff`). A stored state stays valid
because its history is the replay of its own records: each was written with the key, the fingerprint, the commitment and the
identifier that the replay recomputes.

- `Lifecycle.ValidState.advance`: the state after a transition is valid.
- `Lifecycle.Sound`, `sound_enduring`: the invariant of every engine reached.
- `Sound.handle_ne`: so no command is refused for a corrupt state.
-/
import Apar.Simulator.Rails.Redelivery
import Apar.Simulator.Rails.Atomicity

namespace Apar

open Exec

namespace Lifecycle

variable {S O R : Type} [Sha256] {L : Lifecycle S O R} {ctx : DecimalContext} {state : PaymentState S R}

/-! ## Replay -/

/-- the start of a replay -/
def replayStart (L : Lifecycle S O R) : Replay S := ⟨[], [], none, -1, L.created, "", false⟩

theorem replayRecord_eq_ok {p p' : Replay S} {record : HistoryRecord} :
    L.replayRecord ctx state p record = .ok p' ↔ ∃ operation position command next kind effect,
      record.key ≠ "" ∧
      L.operations.find? (fun o => L.operationName o = record.operation) = some operation ∧
      isDigestText record.fingerprint = true ∧ isDigestText record.commitment = true ∧
      p.seenKeys.contains record.key = false ∧
      historyEventPosition record.eventId = .ok position ∧ p.seenEventIds.contains record.eventId = false ∧
      (p.eventPrefix.all fun q => decide (q = position.1)) = true ∧ p.previousSequence < position.2 ∧
      L.commandFromRecord ctx operation record.key state = .ok command ∧
      L.payloadFingerprint (L.requestPayload command) = .ok record.fingerprint ∧
      record.commitment = L.recordCommitment p.commitment state.paymentId record.operation record.key
        record.fingerprint record.eventId ∧
      (p.started || L.isOpening operation) = true ∧ (!p.started || !L.isOpening operation) = true ∧
      L.transition p.state operation = some (next, kind, effect) ∧
      p' = ⟨record.key :: p.seenKeys, record.eventId :: p.seenEventIds, some position.1, position.2, next,
        record.commitment, true⟩ := by
  unfold replayRecord
  cases hfind : L.operations.find? (fun o => L.operationName o = record.operation) with
  | none => simp [except_bind_eq_ok]
  | some operation =>
    simp only [except_bind_eq_ok, check_eq_ok, decide_eq_true_eq, Bool.not_eq_true']
    constructor
    · rintro ⟨_, hkey, _, hfp, _, hcommit, _, hfresh, position, hposition, _, hnew, _, hhead, _, hlt, command, hcommand, h⟩
      obtain ⟨fingerprint, hfingerprint, _, hsame, _, hlink, _, hbegin, _, hrepeat, h⟩ := h
      cases hlegal : L.transition p.state operation with
      | none => simp [hlegal] at h
      | some t =>
        obtain ⟨next, kind, effect⟩ := t
        simp only [hlegal, except_pure_eq_ok] at h
        exact ⟨operation, position, command, next, kind, effect, hkey, rfl, hfp, hcommit, hfresh, hposition, hnew, hhead,
          hlt, hcommand, hsame ▸ hfingerprint, hlink, hbegin, hrepeat, hlegal, h.symm⟩
    · rintro ⟨operation', position, command, next, kind, effect, hkey, hop, hfp, hcommit, hfresh, hposition, hnew, hhead,
        hlt, hcommand, hfingerprint, hlink, hbegin, hrepeat, hlegal, rfl⟩
      cases hop
      refine ⟨(), hkey, (), hfp, (), hcommit, (), hfresh, position, hposition, (), hnew, (), hhead, (), hlt, command,
        hcommand, record.fingerprint, hfingerprint, (), rfl, (), hlink, (), hbegin, (), hrepeat, ?_⟩
      simp only [hlegal]
      rfl

theorem replayRecords_append (p : Replay S) (xs ys : List HistoryRecord) :
    L.replayRecords ctx state p (xs ++ ys) =
      (L.replayRecords ctx state p xs >>= fun p' => L.replayRecords ctx state p' ys) := by
  induction xs generalizing p with
  | nil => rfl
  | cons record rest ih =>
    rw [List.cons_append, replayRecords, replayRecords]
    cases L.replayRecord ctx state p record with
    | error e => rfl
    | ok p' => exact ih p'

theorem replayRecords_concat {p q : Replay S} {rest : List HistoryRecord} {record : HistoryRecord} :
    L.replayRecords ctx state p (rest ++ [record]) = .ok q ↔
      ∃ p', L.replayRecords ctx state p rest = .ok p' ∧ L.replayRecord ctx state p' record = .ok q := by
  rw [replayRecords_append, except_bind_eq_ok]
  simp only [replayRecords, except_bind_eq_ok, Except.ok.injEq, exists_eq_right]

theorem replayRecords_congr {state' : PaymentState S R} (hid : state'.paymentId = state.paymentId)
    (ho : state'.opening = state.opening) (p : Replay S) (records : List HistoryRecord) :
    L.replayRecords ctx state' p records = L.replayRecords ctx state p records := by
  induction records generalizing p with
  | nil => rfl
  | cons record rest ih =>
    have hrecord : L.replayRecord ctx state' p record = L.replayRecord ctx state p record := by
      unfold replayRecord commandFromRecord
      rw [hid, ho]
    rw [replayRecords, replayRecords, hrecord]
    exact congrArg _ (funext ih)

/-- what a replay has seen of its records -/
structure Seen (L : Lifecycle S O R) (p : Replay S) (records : List HistoryRecord) : Prop where
  keys : p.seenKeys = (records.map HistoryRecord.key).reverse
  eventIds : p.seenEventIds = (records.map HistoryRecord.eventId).reverse
  commitment : p.commitment = (records.getLast?.map HistoryRecord.commitment).getD ""
  started : p.started = !records.isEmpty
  position : ∀ final, records.getLast? = some final → ∃ q : ℕ × ℕ, historyEventPosition final.eventId = .ok q ∧
    p.eventPrefix = some q.1 ∧ p.previousSequence = q.2
  fresh : records = [] → p = L.replayStart

variable {records : List HistoryRecord} {canonical : Request O R}

theorem replayRecords_seen {p : Replay S} (h : L.replayRecords ctx state L.replayStart records = .ok p) :
    Seen L p records := by
  induction records using List.reverseRecOn generalizing p with
  | nil =>
    cases h
    exact ⟨rfl, rfl, rfl, rfl, by simp, fun _ => rfl⟩
  | append_singleton rest record ih =>
    obtain ⟨p', hrest, h⟩ := replayRecords_concat.1 h
    have hseen := ih hrest
    obtain ⟨operation, position, command, next, kind, effect, -, -, -, -, -, hposition, -, -, -, -, -, -, -, -, -, rfl⟩ :=
      replayRecord_eq_ok.1 h
    refine ⟨?_, ?_, ?_, ?_, ?_, by simp⟩
    · simp [hseen.keys]
    · simp [hseen.eventIds]
    · simp
    · simp
    · intro final hfinal
      rw [List.getLast?_append, List.getLast?_singleton] at hfinal
      cases hfinal
      exact ⟨position, hposition, rfl, rfl⟩

/-! ## Valid states -/

/-- what `_validated_state` checks -/
structure ValidState (L : Lifecycle S O R) (ctx : DecimalContext) (state : PaymentState S R) (expected : String) :
    Prop where
  paymentId : state.paymentId = expected
  nonempty : expected ≠ ""
  currency : state.opening.currency ≠ ""
  amount : money ctx "amount" state.opening.amount state.opening.currency true = .ok state.opening.amount
  fee : money ctx "fee" state.opening.fee state.opening.currency false = .ok state.opening.fee
  feeWithin : (!L.feeWithinAmount || Decimal.ble state.opening.fee state.opening.amount) = true
  accounts : L.checkAccounts state.opening.accounts = .ok ()
  actorId : checkUuid "actor_id" state.opening.actorId = .ok ()
  counterpartyId : checkUuid "counterparty_id" state.opening.counterpartyId = .ok ()
  campaignId : checkUuid "campaign_id" state.opening.campaignId = .ok ()
  traceId : checkUuid "trace_id" state.opening.traceId = .ok ()
  lastEventId : (state.lastEventId = "" || validUuid state.lastEventId) = true
  historyCommitment : (state.historyCommitment = "" || isDigestText state.historyCommitment) = true
  last : state.lastEventId = (state.records.getLast?.map HistoryRecord.eventId).getD ""
  replayed : ∃ p, L.replayRecords ctx state L.replayStart state.records = .ok p ∧ p.state = state.state ∧
    p.commitment = state.historyCommitment

variable [DecidableEq S] {paymentId : String}

theorem checkState_iff : L.checkState ctx state paymentId = .ok () ↔ ValidState L ctx state paymentId := by
  simp only [checkState, except_bind_eq_ok, check_eq_ok, checkText, decide_eq_true_eq]
  constructor
  · rintro ⟨_, hne, _, hid, _, hcurrency, amount, hamount, _, hamount', fee, hfee, _, hfee', _, hwithin, _, haccounts, h⟩
    obtain ⟨_, hactor, _, hcounterparty, _, hcampaign, _, htrace, _, hlast, _, hcommit, p, hp, h⟩ := h
    have hseen := replayRecords_seen hp
    have hends : state.lastEventId = (state.records.getLast?.map HistoryRecord.eventId).getD "" ∧
        p.commitment = state.historyCommitment ∧ p.state = state.state := by
      cases hfinal : state.records.getLast? with
      | none =>
        simp only [hfinal, except_bind_eq_ok, check_eq_ok, Bool.and_eq_true, decide_eq_true_eq] at h
        obtain ⟨_, ⟨hempty, hnone⟩, hstate⟩ := h
        have hcommitment := hseen.commitment
        rw [hfinal] at hcommitment
        exact ⟨hempty, hcommitment.trans hnone.symm, hstate⟩
      | some final =>
        simp only [hfinal, except_bind_eq_ok, check_eq_ok, decide_eq_true_eq] at h
        obtain ⟨_, hevent, _, hcommitment, hstate⟩ := h
        exact ⟨hevent, hcommitment.symm, hstate⟩
    refine ⟨hid, hid ▸ hne, hcurrency, ?_, ?_, hwithin, haccounts, hactor, hcounterparty, hcampaign, htrace, hlast,
      hcommit, hends.1, p, hp, hends.2.2, hends.2.1⟩
    · exact hamount.trans (congrArg Except.ok hamount'.symm)
    · exact hfee.trans (congrArg Except.ok hfee'.symm)
  · intro h
    obtain ⟨p, hp, hstate, hcommitment⟩ := h.replayed
    refine ⟨(), h.paymentId ▸ h.nonempty, (), h.paymentId, (), h.currency, _, h.amount, (), rfl, _, h.fee, (), rfl, (),
      h.feeWithin, (), h.accounts, (), h.actorId, (), h.counterpartyId, (), h.campaignId, (), h.traceId, (),
      h.lastEventId, (), h.historyCommitment, p, hp, ?_⟩
    have hlast := h.last
    have hseen := replayRecords_seen hp
    cases hfinal : state.records.getLast? with
    | none =>
      simp only [except_bind_eq_ok, check_eq_ok, Bool.and_eq_true, decide_eq_true_eq]
      rw [hfinal] at hlast
      have hnone := hseen.commitment
      rw [hfinal] at hnone
      exact ⟨(), ⟨hlast, hcommitment.symm.trans hnone⟩, hstate⟩
    | some final =>
      simp only [except_bind_eq_ok, check_eq_ok, decide_eq_true_eq]
      rw [hfinal] at hlast
      exact ⟨(), hlast, (), hcommitment.symm, hstate⟩

theorem validatedState_iff : L.validatedState ctx state paymentId = .ok () ↔ ValidState L ctx state paymentId := by
  rw [← checkState_iff]
  unfold validatedState
  cases L.checkState ctx state paymentId with
  | ok u => simp
  | error e => simp

/-! ## Requests -/

omit [Sha256] [DecidableEq S] in
/-- a quantised amount is canonical -/
theorem money_self {label currency : String} {amount q : Decimal} {positive : Bool}
    (h : money ctx label amount currency positive = .ok q) : money ctx label q currency positive = .ok q := by
  obtain ⟨k, hk, hq, hnonneg, hpos⟩ := money_eq_ok h
  obtain ⟨hexp, hfits⟩ := Decimal.quantize_spec hq
  have hself : q.quantize ctx (-(k : ℤ)) = some q := by
    have := Decimal.quantize_self (hexp ▸ hfits)
    rwa [hexp] at this
  have hq0 : 0 ≤ q.value := by
    rw [Decimal.quantize_rescale hq]
    exact Decimal.value_nonneg.2 (Decimal.rescale_nonneg hnonneg _)
  have hble : positive = true → Decimal.ble q 0 = false := by
    intro hp
    rw [← Bool.not_eq_true, Decimal.ble_iff, Decimal.value_zero, not_le]
    exact hpos hp
  simp only [money, except_bind_eq_ok, check_eq_ok]
  refine ⟨(), ?_, ?_⟩
  · cases positive with
    | true => simp [hble rfl]
    | false =>
      simp only [Bool.false_eq_true, if_false, Decimal.ble_iff, Decimal.value_zero]
      exact hq0
  · simp only [hk, hself, except_bind_eq_ok, check_eq_ok, except_pure_eq_ok, and_true]
    refine ⟨(), ?_⟩
    cases positive with
    | true => simp [hble rfl]
    | false => rfl

omit [Sha256] [DecidableEq S] in
theorem openingRequest_eq_ok {operation : O} {key : String} {o : Opening R} {r : Request O R} :
    L.openingRequest ctx operation paymentId key o = .ok r ↔
      o.currency ≠ "" ∧ ∃ amount fee, money ctx "amount" o.amount o.currency true = .ok amount ∧
        money ctx "fee" o.fee o.currency false = .ok fee ∧ (!L.feeWithinAmount || Decimal.ble fee amount) = true ∧
        paymentId ≠ "" ∧ L.checkAccounts o.accounts = .ok () ∧ checkUuid "actor_id" o.actorId = .ok () ∧
        checkUuid "counterparty_id" o.counterpartyId = .ok () ∧ checkUuid "campaign_id" o.campaignId = .ok () ∧
        checkUuid "trace_id" o.traceId = .ok () ∧ key ≠ "" ∧
        r = ⟨operation, paymentId, key, some { o with amount := amount, fee := fee }⟩ := by
  simp only [openingRequest, except_bind_eq_ok, check_eq_ok, checkText, decide_eq_true_eq, except_pure_eq_ok]
  constructor
  · rintro ⟨_, hcurrency, amount, hamount, fee, hfee, _, hwithin, _, hid, _, haccounts, _, hactor, _, hcounterparty, h⟩
    obtain ⟨_, hcampaign, _, htrace, _, hkey, rfl⟩ := h
    exact ⟨hcurrency, amount, fee, hamount, hfee, hwithin, hid, haccounts, hactor, hcounterparty, hcampaign, htrace,
      hkey, rfl⟩
  · rintro ⟨hcurrency, amount, fee, hamount, hfee, hwithin, hid, haccounts, hactor, hcounterparty, hcampaign, htrace,
      hkey, rfl⟩
    exact ⟨(), hcurrency, amount, hamount, fee, hfee, (), hwithin, (), hid, (), haccounts, (), hactor, (),
      hcounterparty, (), hcampaign, (), htrace, (), hkey, rfl⟩

omit [DecidableEq S] in
theorem ValidState.openingRequest (h : ValidState L ctx state paymentId) (operation : O) {key : String}
    (hkey : key ≠ "") : L.openingRequest ctx operation state.paymentId key state.opening =
      .ok ⟨operation, state.paymentId, key, some state.opening⟩ :=
  openingRequest_eq_ok.2 ⟨h.currency, _, _, h.amount, h.fee, h.feeWithin, h.paymentId ▸ h.nonempty, h.accounts,
    h.actorId, h.counterpartyId, h.campaignId, h.traceId, hkey, rfl⟩

/-- what constructing a command has checked -/
structure Wellformed (L : Lifecycle S O R) (ctx : DecimalContext) (canonical : Request O R) : Prop where
  paymentId : canonical.paymentId ≠ ""
  key : canonical.idempotencyKey ≠ ""
  opening : L.isOpening canonical.operation = true → ∃ o : Opening R,
    L.openingRequest ctx canonical.operation canonical.paymentId canonical.idempotencyKey o = .ok canonical
  followup : L.isOpening canonical.operation = false → canonical.opening = none

omit [DecidableEq S] in
theorem canonicalCommand_wellformed {command : Command O} (h : L.canonicalCommand ctx command = .ok canonical) :
    Wellformed L ctx canonical := by
  unfold canonicalCommand at h
  cases htype : command.commandType with
  | none => simp [htype] at h
  | some operation =>
    cases hr : L.rebuildCommand ctx operation command with
    | error e => simp [htype, hr] at h
    | ok rebuilt =>
      simp only [htype, hr, Except.ok.injEq] at h
      subst h
      simp only [rebuildCommand, except_bind_eq_ok] at hr
      obtain ⟨_, -, _, -, _, -, paymentId, -, key, -, hr⟩ := hr
      by_cases hopen : L.isOpening operation = true
      · rw [if_pos hopen] at hr
        simp only [except_bind_eq_ok, except_pure_eq_ok] at hr
        obtain ⟨o, -, canonical, hcanonical, _, -, _, -, rfl⟩ := hr
        obtain ⟨-, amount, fee, -, -, -, hid, -, -, -, -, -, hkey, rfl⟩ := openingRequest_eq_ok.1 hcanonical
        exact ⟨hid, hkey, fun _ => ⟨o, hcanonical⟩, fun hno => absurd hopen (by rw [hno]; decide)⟩
      · rw [if_neg hopen] at hr
        simp only [followupRequest, checkText, except_bind_eq_ok, except_pure_eq_ok, check_eq_ok, decide_eq_true_eq] at hr
        obtain ⟨canonical, ⟨_, hid, _, hkey, rfl⟩, _, -, _, -, rfl⟩ := hr
        exact ⟨hid, hkey, fun hyes => absurd hyes hopen, fun _ => rfl⟩

omit [DecidableEq S] in
/-- the state a new payment opens in is valid -/
theorem Wellformed.openingState {canonical : Request O R} (h : Wellformed L ctx canonical)
    {o : Opening R} (ho : canonical.opening = some o) :
    ValidState L ctx (L.openingState canonical.paymentId o) canonical.paymentId := by
  have hopen : L.isOpening canonical.operation = true := by
    cases hb : L.isOpening canonical.operation with
    | true => rfl
    | false =>
      rw [h.followup hb] at ho
      cases ho
  obtain ⟨o', hrequest⟩ := h.opening hopen
  obtain ⟨hcurrency, amount, fee, hamount, hfee, hwithin, hid, haccounts, hactor, hcounterparty, hcampaign, htrace, -,
    heq⟩ := openingRequest_eq_ok.1 hrequest
  rw [heq, Option.some.injEq] at ho
  subst ho
  exact ⟨rfl, hid, hcurrency, money_self hamount, money_self hfee, hwithin, haccounts, hactor, hcounterparty,
    hcampaign, htrace, rfl, rfl, rfl, L.replayStart, rfl, rfl, rfl⟩

/-! ## Transitions -/

/-- what the tables of a rail guarantee -/
structure Tables (L : Lifecycle S O R) : Prop where
  /-- a payment begins with an opening operation -/
  begins : ∀ {o t}, L.transition L.created o = some t → L.isOpening o = true
  /-- and has no second one -/
  opensOnce : ∀ {st o t}, L.transition st o = some t → L.isOpening o = true → st = L.created
  neverCreated : ∀ {st o next kind effect}, L.transition st o = some (next, kind, effect) → next ≠ L.created
  operations : ∀ o, L.operations.find? (fun o' => L.operationName o' = L.operationName o) = some o
  payloadKeys : ∀ o, (L.expectedKeys o).Nodup

omit [DecidableEq S] in
theorem Tables.replayed (hL : Tables L) {p : Replay S} (h : L.replayRecords ctx state L.replayStart records = .ok p)
    (hne : records ≠ []) : p.state ≠ L.created := by
  obtain ⟨rest, record, rfl⟩ : ∃ rest record, records = rest ++ [record] :=
    ⟨_, _, (List.dropLast_append_getLast hne).symm⟩
  obtain ⟨p', -, h⟩ := replayRecords_concat.1 h
  obtain ⟨operation, position, command, next, kind, effect, -, -, -, -, -, -, -, -, -, -, -, -, -, -, hlegal, rfl⟩ :=
    replayRecord_eq_ok.1 h
  exact hL.neverCreated hlegal

omit [Sha256] [DecidableEq S] in
theorem historyEventPosition_uuidAt {p n : ℕ} (hp : p < 2 ^ 80)
    (hversion : ∀ n < 2 ^ 48, Uuid.version (p * 2 ^ 48 + n) = some 4) (hn : n < 2 ^ 48) :
    historyEventPosition (Engine.uuidAt p n) = .ok (p, n) := by
  have hparse := Engine.parseUuid_uuidAt hp hn
  have hne : Engine.uuidAt p n ≠ "" := by
    intro hempty
    have hlen := Uuid.length_formatUuid (p * 2 ^ 48 + n)
    rw [show Uuid.formatUuid (p * 2 ^ 48 + n) = "" from hempty] at hlen
    cases hlen
  have hcanonical : Uuid.formatUuid (p * 2 ^ 48 + n) = Engine.uuidAt p n ∧
      Uuid.version (p * 2 ^ 48 + n) = some 4 := ⟨rfl, hversion n hn⟩
  rw [historyEventPosition, except_bind_eq_ok]
  refine ⟨(), check_eq_ok.2 (decide_eq_true hne), ?_⟩
  simp only [hparse, if_pos hcanonical]
  rw [show (p * 2 ^ 48 + n) / 2 ^ 48 = p by omega, show (p * 2 ^ 48 + n) % 2 ^ 48 = n by omega]

/-- every record of a history was written under an identifier issued so far -/
def Issued (uuidPrefix uuidSequence : ℕ) (records : List HistoryRecord) : Prop :=
  ∀ record ∈ records, ∃ n < uuidSequence, n < 2 ^ 48 ∧ record.eventId = Engine.uuidAt uuidPrefix n

omit [DecidableEq S] in
/-- **Step.** The state after a transition of a valid state is valid. -/
theorem ValidState.advance (hdigest : ∀ j, isDigestText (Sha256.hexdigest j) = true) (hL : Tables L)
    {uuidPrefix uuidSequence : ℕ} (hp : uuidPrefix < 2 ^ 80)
    (hversion : ∀ n < 2 ^ 48, Uuid.version (uuidPrefix * 2 ^ 48 + n) = some 4) (hseq : uuidSequence < 2 ^ 48)
    {canonical : Request O R} (hcanonical : Wellformed L ctx canonical)
    (h : ValidState L ctx state canonical.paymentId) (hissued : Issued uuidPrefix uuidSequence state.records)
    (hopening : state.records = [] → canonical.opening = some state.opening)
    (hunused : ∀ record ∈ state.records, record.key ≠ canonical.idempotencyKey) {next : S} {kind : EventKind}
    {effect : Option (Posting R)} (hlegal : L.transition state.state canonical.operation = some (next, kind, effect))
    {fingerprint : String} (hfp : L.payloadFingerprint (L.requestPayload canonical) = .ok fingerprint) :
    ValidState L ctx (L.advance state canonical next (Engine.uuidAt uuidPrefix uuidSequence) fingerprint)
      canonical.paymentId := by
  obtain ⟨p, hreplay, hstate, hcommitment⟩ := h.replayed
  have hseen := replayRecords_seen hreplay
  have hposition := historyEventPosition_uuidAt hp hversion hseq
  have hfingerprint : isDigestText fingerprint = true := by
    simp only [payloadFingerprint, except_bind_eq_ok, except_pure_eq_ok] at hfp
    obtain ⟨rows, -, rfl⟩ := hfp
    exact hdigest _
  -- the new identifier is above every one in the history
  have hbelow : ∀ record ∈ state.records, record.eventId < Engine.uuidAt uuidPrefix uuidSequence := by
    intro record hrecord
    obtain ⟨n, hn, -, hid⟩ := hissued record hrecord
    rw [hid]
    exact Engine.uuidAt_lt hp hseq hn
  have hmem : ∀ final, state.records.getLast? = some final → ∃ n < uuidSequence, p.eventPrefix = some uuidPrefix ∧
      p.previousSequence = (n : ℤ) := by
    intro final hfinal
    obtain ⟨q, hq, hhead, hprevious⟩ := hseen.position final hfinal
    obtain ⟨n, hn, hbound, hid⟩ := hissued final (List.mem_of_getLast? hfinal)
    rw [hid, historyEventPosition_uuidAt hp hversion hbound, Except.ok.injEq] at hq
    subst hq
    exact ⟨n, hn, hhead, hprevious⟩
  have hcases : state.records = [] ∧ p = L.replayStart ∨ ∃ final, state.records.getLast? = some final := by
    cases hfinal : state.records.getLast? with
    | none =>
      have hnil := List.getLast?_eq_none_iff.1 hfinal
      exact .inl ⟨hnil, hseen.fresh hnil⟩
    | some final => exact .inr ⟨final, rfl⟩
  -- an opening operation starts the history, and no other does
  have hbegin : (p.started || L.isOpening canonical.operation) = true ∧
      (!p.started || !L.isOpening canonical.operation) = true ∧
      L.commandFromRecord ctx canonical.operation canonical.idempotencyKey state = .ok canonical := by
    cases hopen : L.isOpening canonical.operation with
    | true =>
      have hcreated := hL.opensOnce hlegal hopen
      have hnil : state.records = [] := by
        by_contra hne
        exact hL.replayed hreplay hne (hstate.trans hcreated)
      have hstarted : p.started = false := by rw [hseen.started, hnil]; rfl
      refine ⟨Bool.or_true _, by rw [hstarted]; rfl, ?_⟩
      rw [commandFromRecord, if_pos hopen, h.openingRequest _ hcanonical.key, h.paymentId, ← hopening hnil]
    | false =>
      have hstarted : p.started = true := by
        rcases hcases with ⟨hnil, hp⟩ | ⟨final, hfinal⟩
        · exfalso
          rw [← hstate, hp] at hlegal
          have := hL.begins hlegal
          rw [hopen] at this
          cases this
        · rw [hseen.started]
          cases hrecords : state.records with
          | nil => simp [hrecords] at hfinal
          | cons _ _ => rfl
      refine ⟨by rw [hstarted]; rfl, Bool.or_true _, ?_⟩
      rw [commandFromRecord, if_neg (by rw [hopen]; decide), followupRequest, h.paymentId]
      simp only [checkText, except_bind_eq_ok, except_pure_eq_ok, check_eq_ok, decide_eq_true_eq]
      refine ⟨(), hcanonical.paymentId, (), hcanonical.key, ?_⟩
      rw [← hcanonical.followup hopen]
  have hrecord : L.replayRecord ctx state p ⟨canonical.idempotencyKey, L.operationName canonical.operation, fingerprint,
      Engine.uuidAt uuidPrefix uuidSequence, (L.advance state canonical next (Engine.uuidAt uuidPrefix uuidSequence)
        fingerprint).historyCommitment⟩ = .ok ⟨canonical.idempotencyKey :: p.seenKeys,
      Engine.uuidAt uuidPrefix uuidSequence :: p.seenEventIds, some uuidPrefix, uuidSequence, next,
      (L.advance state canonical next (Engine.uuidAt uuidPrefix uuidSequence) fingerprint).historyCommitment, true⟩ := by
    refine replayRecord_eq_ok.2 ⟨canonical.operation, (uuidPrefix, uuidSequence), canonical, next, kind, effect,
      hcanonical.key, hL.operations _, hfingerprint, hdigest _, ?_, hposition, ?_, ?_, ?_, hbegin.2.2, hfp, ?_, hbegin.1,
      hbegin.2.1, hstate ▸ hlegal, rfl⟩
    · rw [hseen.keys, ← Bool.not_eq_true, List.contains_iff_mem, List.mem_reverse]
      intro hkey
      obtain ⟨record, hrecord, hsame⟩ := List.mem_map.1 hkey
      exact hunused record hrecord hsame
    · rw [hseen.eventIds, ← Bool.not_eq_true, List.contains_iff_mem, List.mem_reverse]
      intro hid
      obtain ⟨record, hrecord, hsame⟩ := List.mem_map.1 hid
      exact (hsame ▸ hbelow record hrecord).false
    · rcases hcases with ⟨-, rfl⟩ | ⟨final, hfinal⟩
      · rfl
      · obtain ⟨n, -, hhead, -⟩ := hmem final hfinal
        rw [hhead]
        simp
    · rcases hcases with ⟨-, rfl⟩ | ⟨final, hfinal⟩
      · simp only [replayStart]
        omega
      · obtain ⟨n, hn, -, hprevious⟩ := hmem final hfinal
        rw [hprevious]
        exact_mod_cast hn
    · rw [hcommitment, h.paymentId]
      rfl
  have hsame : ∀ records, L.replayRecords ctx (L.advance state canonical next (Engine.uuidAt uuidPrefix uuidSequence)
      fingerprint) L.replayStart records = L.replayRecords ctx state L.replayStart records := fun records =>
    @replayRecords_congr _ _ _ _ L ctx state (L.advance state canonical next _ fingerprint) rfl rfl _ records
  refine ⟨h.paymentId, h.nonempty, h.currency, h.amount, h.fee, h.feeWithin, h.accounts, h.actorId, h.counterpartyId,
    h.campaignId, h.traceId, ?_, ?_, ?_, ⟨canonical.idempotencyKey :: p.seenKeys,
      Engine.uuidAt uuidPrefix uuidSequence :: p.seenEventIds, some uuidPrefix, uuidSequence, next,
      (L.advance state canonical next (Engine.uuidAt uuidPrefix uuidSequence) fingerprint).historyCommitment, true⟩, ?_,
    rfl, rfl⟩
  · have hvalid : validUuid (Engine.uuidAt uuidPrefix uuidSequence) = true := by
      rw [validUuid, Engine.parseUuid_uuidAt hp hseq]
      rfl
    show (_ || validUuid (Engine.uuidAt uuidPrefix uuidSequence)) = true
    rw [hvalid, Bool.or_true]
  · show (_ || isDigestText (Sha256.hexdigest _)) = true
    rw [hdigest, Bool.or_true]
  · show _ = ((state.records ++ [_]).getLast?.map HistoryRecord.eventId).getD ""
    rw [List.getLast?_append, List.getLast?_singleton]
    rfl
  · rw [hsame]
    show L.replayRecords ctx state L.replayStart (state.records ++ [_]) = _
    exact replayRecords_concat.2 ⟨p, hreplay, hrecord⟩

/-! ## Runs -/

omit [Sha256] [DecidableEq S] in
theorem Issued.mono {uuidPrefix m n : ℕ} (h : Issued uuidPrefix m records) (hmn : m ≤ n) :
    Issued uuidPrefix n records := by
  intro record hrecord
  obtain ⟨k, hk, hbound, hid⟩ := h record hrecord
  exact ⟨k, by omega, hbound, hid⟩

/-- a stored state: valid, with a history of records written under identifiers of this engine -/
structure Stored (L : Lifecycle S O R) (ctx : DecimalContext) (uuidPrefix uuidSequence : ℕ) (paymentId : String)
    (state : PaymentState S R) : Prop where
  valid : ValidState L ctx state paymentId
  begun : state.records ≠ []
  issued : Issued uuidPrefix uuidSequence state.records

/-- the stored states of an engine -/
structure Sound (L : Lifecycle S O R) (ctx : DecimalContext) (s : Engine (Command O) (PaymentState S R) Unit) :
    Prop where
  prefix_lt : s.uuidPrefix < 2 ^ 80
  version4 : ∀ n < 2 ^ 48, Uuid.version (s.uuidPrefix * 2 ^ 48 + n) = some 4
  stored : ∀ paymentId state, s.entityState.get? paymentId = some state →
    Stored L ctx s.uuidPrefix s.uuidSequence paymentId state

variable {s s' : Engine (Command O) (PaymentState S R) Unit} {emitted : List PaymentEvent}

omit [DecidableEq S] in
theorem sound_fresh (L : Lifecycle S O R) (ctx : DecimalContext) (rail : Rail) (viewpoint : String)
    (head b6 b7 b8 b9 : ℕ) (start : Time) (ledger : Ledger) :
    Sound L ctx (Engine.fresh rail viewpoint (Engine.versionedPrefix head b6 b7 b8 b9) start ledger ()) := by
  refine ⟨Engine.versionedPrefix_lt .., ?_, ?_⟩
  · intro n hn
    exact Engine.uuidAt_version4 head b6 b7 b8 b9 hn
  · intro paymentId state h
    cases h

omit [DecidableEq S] in
theorem Sound.congr (hs : Sound L ctx s) (hhead : s'.uuidPrefix = s.uuidPrefix)
    (hsequence : s'.uuidSequence = s.uuidSequence) (hentity : s'.entityState = s.entityState) : Sound L ctx s' := by
  refine ⟨hhead ▸ hs.prefix_lt, hhead ▸ hs.version4, ?_⟩
  rw [hhead, hsequence, hentity]
  exact hs.stored

omit [DecidableEq S] in
/-- the state a command starts from is valid; a payment without a history is opened by the command -/
theorem Sound.loaded (hs : Sound L ctx s) (hcanonical : Wellformed L ctx canonical)
    (hloaded : L.loadState canonical (s.entityState.get? canonical.paymentId) = .ok state) :
    ValidState L ctx state canonical.paymentId ∧ Issued s.uuidPrefix s.uuidSequence state.records ∧
      (state.records = [] → canonical.opening = some state.opening) := by
  unfold loadState at hloaded
  cases hget : s.entityState.get? canonical.paymentId with
  | some stored =>
    simp only [hget, Except.ok.injEq] at hloaded
    subst hloaded
    have h := hs.stored _ _ hget
    exact ⟨h.valid, h.issued, fun hnil => absurd hnil h.begun⟩
  | none =>
    cases ho : canonical.opening with
    | none => simp [hget, ho] at hloaded
    | some o =>
      simp only [hget, ho, Except.ok.injEq] at hloaded
      subst hloaded
      refine ⟨hcanonical.openingState ho, ?_, fun _ => rfl⟩
      intro record hrecord
      cases hrecord

/-- **Step.** A transition stores a valid state. -/
theorem Sound.advance (hs : Sound L ctx s) {command : Command O} (t : Accepted L ctx command s s' emitted) :
    Sound L ctx s' := by
  have hissued := (hs.loaded (canonicalCommand_wellformed t.canonicalized) t.loaded).2.1
  have hhead : s'.uuidPrefix = s.uuidPrefix := by rw [t.after]
  have hsequence : s'.uuidSequence = s.uuidSequence + 1 := by rw [t.after]
  have hentity := t.entityState_after
  refine ⟨hhead ▸ hs.prefix_lt, hhead ▸ hs.version4, ?_⟩
  rw [hhead, hsequence, hentity]
  intro paymentId state hget
  rw [Dict.get?_set] at hget
  split_ifs at hget with hp
  · cases hget
    refine ⟨hp ▸ validatedState_iff.1 t.validUpdated, by simp [Transition.updated, Lifecycle.advance], ?_⟩
    intro record hrecord
    rcases List.mem_append.1 hrecord with hold | hnew
    · exact hissued.mono (Nat.le_succ _) record hold
    · rw [List.mem_singleton] at hnew
      exact ⟨s.uuidSequence, Nat.lt_succ_self _, t.sequence, congrArg HistoryRecord.eventId hnew⟩
  · obtain ⟨hvalid, hbegun, hold⟩ := hs.stored _ _ hget
    exact ⟨hvalid, hbegun, hold.mono (Nat.le_succ _)⟩

omit [DecidableEq S] in
theorem Sound.unwritten (hs : Sound L ctx s) (h : Engine.Unwritten s s') : Sound L ctx s' := by
  refine ⟨h.uuidPrefix ▸ hs.prefix_lt, h.uuidPrefix ▸ hs.version4, ?_⟩
  rw [h.uuidPrefix, h.entityState]
  intro paymentId state hget
  obtain ⟨hvalid, hbegun, hissued⟩ := hs.stored _ _ hget
  exact ⟨hvalid, hbegun, hissued.mono h.drawn⟩

theorem Sound.updated (hdigest : ∀ j, isDigestText (Sha256.hexdigest j) = true) (hL : Tables L) (hs : Sound L ctx s)
    {command : Command O} (hcanonical : L.canonicalCommand ctx command = .ok canonical)
    (hloaded : L.loadState canonical (s.entityState.get? canonical.paymentId) = .ok state)
    (hretry : L.isIdempotentRetry state canonical = .ok false) {next : S} {kind : EventKind}
    {effect : Option (Posting R)} (hlegal : L.transition state.state canonical.operation = some (next, kind, effect))
    {fingerprint : String} (hfp : L.payloadFingerprint (L.requestPayload canonical) = .ok fingerprint)
    (hsequence : s.uuidSequence < 2 ^ 48) :
    L.validatedState ctx (L.advance state canonical next (Engine.uuidAt s.uuidPrefix s.uuidSequence) fingerprint)
      canonical.paymentId = .ok () := by
  have hwellformed := canonicalCommand_wellformed hcanonical
  obtain ⟨hvalid, hissued, hopening⟩ := hs.loaded hwellformed hloaded
  exact validatedState_iff.2 (hvalid.advance hdigest hL hs.prefix_lt hs.version4 hsequence hwellformed hissued hopening
    (isIdempotentRetry_eq_false hretry) hlegal hfp)

/-! ## Error codes -/

/-- an error that no check of stored states or transitions raises -/
def NotLifecycle (e : SimError) : Prop := ∀ code, e ≠ .lifecycle code

omit [DecidableEq S] in
theorem raises_payloadFingerprint (payload : Dict String PayloadValue) :
    Raises NotLifecycle (L.payloadFingerprint payload) := by
  have hrows : ∀ rows, Raises NotLifecycle (payloadRows L.noun rows) := by
    intro rows
    induction rows with
    | nil => exact Raises.ok []
    | cons p rest ih =>
      obtain ⟨key, value⟩ := p
      cases value with
      | text t => exact Raises.bind (Raises.ok _) fun row => Raises.bind ih fun rows => Raises.ok _
      | decimal d => exact Raises.bind (Raises.ok _) fun row => Raises.bind ih fun rows => Raises.ok _
      | other => exact Raises.bind (Raises.error fun code => by simp) fun row => Raises.bind ih fun rows => Raises.ok _
  exact (hrows _).bind fun rows => Raises.ok _

omit [Sha256] [DecidableEq S] in
theorem raises_validate (e : PaymentEvent) : Raises NotLifecycle e.validate := by
  have hversion : Raises NotLifecycle (validateSchemaVersion e.schemaVersion) := by
    unfold validateSchemaVersion
    split
    · split_ifs
      · exact Raises.error fun code => by simp
      · exact Raises.error fun code => by simp
      · exact Raises.ok ()
    · exact Raises.error fun code => by simp
  refine hversion.bind fun _ => ?_
  split_ifs
  all_goals first | exact Raises.ok () | exact Raises.error fun code => by simp

omit [Sha256] [DecidableEq S] in
theorem raises_post (l : Ledger) (entry : LedgerEntry) : Raises NotLifecycle (l.post ctx entry) := by
  have hexponent : ∀ currency, Raises NotLifecycle (Ledger.currencyExponent currency) := by
    intro currency
    unfold Ledger.currencyExponent
    split
    · exact Raises.ok _
    · exact Raises.error fun code => by simp
  have hquantize : ∀ amount currency, Raises NotLifecycle (Ledger.quantizeAmount ctx amount currency) := by
    intro amount currency
    refine (hexponent _).bind fun k => ?_
    split
    · exact Raises.ok _
    · exact Raises.error fun code => by simp
  have hlegs : ∀ legs, Raises NotLifecycle (Ledger.normalizeLegs ctx entry.currency legs) := by
    intro legs
    induction legs with
    | nil => exact Raises.ok []
    | cons leg rest ih =>
      refine Raises.bind (Raises.check fun code => by simp) fun _ => ?_
      refine Raises.bind (Raises.check fun code => by simp) fun _ => ?_
      exact (hquantize _ _).bind fun value => ih.bind fun rest' => Raises.ok _
  have hdict : ∀ legs, Raises NotLifecycle (Ledger.normalizeDict ctx entry.currency legs) := by
    intro legs
    unfold Ledger.normalizeDict
    split
    · exact Raises.ok _
    · rename_i e he
      exact Raises.error (hlegs _ e he)
  have hdebit : ∀ legs balances, Raises NotLifecycle
      (Ledger.debitLegs ctx l.allowCredit entry.currency legs balances) := by
    intro legs
    induction legs with
    | nil => exact fun balances => Raises.ok balances
    | cons leg rest ih =>
      intro balances
      exact Raises.bind (Raises.check fun code => by simp) fun _ => ih _
  refine Raises.bind (Raises.check fun code => by simp) fun _ => ?_
  refine Raises.bind (Raises.check fun code => by simp) fun _ => ?_
  refine (hexponent _).bind fun _ => (hdict _).bind fun debits => (hdict _).bind fun credits => ?_
  exact Raises.bind (Raises.check fun code => by simp) fun _ => (hdebit _ _).bind fun _ => Raises.ok _

/-- no other check of a rail raises the code of a corrupt state -/
structure OwnCode (L : Lifecycle S O R) : Prop where
  missing : ∀ o, L.missingCode o ≠ L.codes ++ "_STATE_CORRUPT"
  illegal : ∀ st o, L.invalidCode st o ≠ L.codes ++ "_STATE_CORRUPT"

/-- the error `_validated_state` raises -/
def stateCorrupt (L : Lifecycle S O R) : SimError := .lifecycle (L.codes ++ "_STATE_CORRUPT")

omit [DecidableEq S] in
theorem canonicalCommand_ne (command : Command O) : L.canonicalCommand ctx command ≠ .error L.stateCorrupt := by
  unfold Lifecycle.canonicalCommand
  cases command.commandType with
  | none => simp [stateCorrupt]
  | some operation =>
    simp only
    cases L.rebuildCommand ctx operation command with
    | ok canonical => simp
    | error e => simp [stateCorrupt]

omit [Sha256] [DecidableEq S] in
theorem OwnCode.loadState (hcode : OwnCode L) (canonical : Request O R) (stored : Option (PaymentState S R)) :
    L.loadState canonical stored ≠ .error L.stateCorrupt := by
  unfold Lifecycle.loadState
  cases stored with
  | some state => simp
  | none =>
    cases canonical.opening with
    | some o => simp
    | none => simpa [stateCorrupt] using hcode.missing canonical.operation

omit [Sha256] [DecidableEq S] in
theorem OwnCode.nextTransition (hcode : OwnCode L) (current : S) (operation : O) :
    L.nextTransition current operation ≠ .error L.stateCorrupt := by
  unfold Lifecycle.nextTransition
  cases L.transition current operation with
  | some t => simp
  | none => simpa [stateCorrupt] using hcode.illegal current operation

omit [Sha256] [DecidableEq S] in
theorem NotLifecycle.ne {α : Type} {x : Except SimError α} (h : Raises NotLifecycle x) :
    x ≠ .error L.stateCorrupt := fun hx => h _ hx _ rfl

omit [DecidableEq S] in
theorem isIdempotentRetry_ne (state : PaymentState S R) (canonical : Request O R) :
    L.isIdempotentRetry state canonical ≠ .error L.stateCorrupt := by
  have hfp : L.payloadFingerprint (L.requestPayload canonical) ≠ .error L.stateCorrupt :=
    NotLifecycle.ne (raises_payloadFingerprint _)
  unfold Lifecycle.isIdempotentRetry
  cases h : L.payloadFingerprint (L.requestPayload canonical) with
  | error e =>
    intro heq
    cases heq
    exact hfp h
  | ok fingerprint =>
    cases state.records.find? (fun record => record.key = canonical.idempotencyKey) with
    | none => simp [bind, Except.bind, pure, Except.pure]
    | some record =>
      simp only [bind, Except.bind]
      split_ifs
      · simp [pure, Except.pure]
      · simp [stateCorrupt]

/-- **A transition of a sound engine meets no corrupt state.** -/
theorem Sound.transact_ne (hdigest : ∀ j, isDigestText (Sha256.hexdigest j) = true) (hL : Tables L) (hcode : OwnCode L)
    (hs : Sound L ctx s) {command : Command O} (hcanonical : L.canonicalCommand ctx command = .ok canonical)
    (hloaded : L.loadState canonical (s.entityState.get? canonical.paymentId) = .ok state)
    (hretry : L.isIdempotentRetry state canonical = .ok false) :
    L.transact ctx canonical state s ≠ .error L.stateCorrupt s' := by
  intro h
  rcases bind_eq_error.1 h with h | ⟨⟨next, kind, effect⟩, _, hlegal, h⟩
  · exact hcode.nextTransition _ _ (raising_eq_error.1 h).1
  rw [raising_eq_ok] at hlegal
  obtain ⟨hlegal, rfl⟩ := hlegal
  rcases bind_eq_error.1 h with h | ⟨eventId, _, huuid, h⟩
  · rcases Engine.newUuid_eq_error.1 h with ⟨-, h, -⟩ | ⟨-, -, h, -⟩ <;> cases h
  obtain ⟨-, hsequence, rfl, rfl⟩ := Engine.newUuid_eq_ok.1 huuid
  rcases bind_eq_error.1 h with h | ⟨fingerprint, _, hfp, h⟩
  · exact NotLifecycle.ne (raises_payloadFingerprint _) (raising_eq_error.1 h).1
  rw [raising_eq_ok] at hfp
  obtain ⟨hfp, rfl⟩ := hfp
  rcases bind_eq_error.1 h with h | ⟨_, _, hvalid, h⟩
  · have hupdated := hs.updated hdigest hL hcanonical hloaded hretry (nextTransition_eq_ok.1 hlegal) hfp hsequence
    rw [(raising_eq_error.1 h).1] at hupdated
    cases hupdated
  rw [raising_eq_ok] at hvalid
  obtain ⟨-, rfl⟩ := hvalid
  rcases bind_eq_error.1 h with h | ⟨_, _, hget, h⟩
  · exact get_eq_error.1 h
  rw [get_eq_ok] at hget
  obtain ⟨rfl, rfl⟩ := hget
  rcases bind_eq_error.1 h with h | ⟨_, _, hevent, h⟩
  · exact NotLifecycle.ne (raises_validate _) (raising_eq_error.1 h).1
  rw [raising_eq_ok] at hevent
  obtain ⟨-, rfl⟩ := hevent
  rcases bind_eq_error.1 h with h | ⟨_, _, -, h⟩
  · cases effect with
    | none => exact pure_eq_error.1 h
    | some posting =>
      rcases Engine.post_eq_error.1 h with ⟨-, h, -⟩ | ⟨-, h, -⟩
      · cases h
      · exact NotLifecycle.ne (raises_post _ _) h
  rcases bind_eq_error.1 h with h | ⟨_, _, -, h⟩
  · rcases Engine.setEntityState_eq_error.1 h with ⟨-, h, -⟩ | ⟨-, -, h, -⟩ <;> cases h
  · exact pure_eq_error.1 h

/-- **A sound engine meets no corrupt state.** -/
theorem Sound.handle_ne (hdigest : ∀ j, isDigestText (Sha256.hexdigest j) = true) (hL : Tables L) (hcode : OwnCode L)
    (hs : Sound L ctx s) (command : Command O) : L.handle ctx command s ≠ .error L.stateCorrupt s' := by
  intro h
  rcases bind_eq_error.1 h with h | ⟨canonical, _, hcanonical, h⟩
  · exact canonicalCommand_ne command (raising_eq_error.1 h).1
  rw [raising_eq_ok] at hcanonical
  obtain ⟨hcanonical, rfl⟩ := hcanonical
  rcases bind_eq_error.1 h with h | ⟨stored, _, hstored, h⟩
  · cases (Engine.entityState?_eq_error.1 h).2.1
  obtain ⟨-, rfl, rfl⟩ := Engine.entityState?_eq_ok.1 hstored
  rcases bind_eq_error.1 h with h | ⟨state, _, hloaded, h⟩
  · exact hcode.loadState _ _ (raising_eq_error.1 h).1
  rw [raising_eq_ok] at hloaded
  obtain ⟨hloaded, rfl⟩ := hloaded
  rcases bind_eq_error.1 h with h | ⟨_, _, hvalidated, h⟩
  · have hvalid := validatedState_iff.2 (hs.loaded (canonicalCommand_wellformed hcanonical) hloaded).1
    rw [(raising_eq_error.1 h).1] at hvalid
    cases hvalid
  rw [raising_eq_ok] at hvalidated
  obtain ⟨-, rfl⟩ := hvalidated
  rcases bind_eq_error.1 h with h | ⟨isRetry, _, hretry, h⟩
  · exact isIdempotentRetry_ne _ _ (raising_eq_error.1 h).1
  rw [raising_eq_ok] at hretry
  obtain ⟨hretry, rfl⟩ := hretry
  cases isRetry with
  | true => simp at h
  | false => exact hs.transact_ne hdigest hL hcode hcanonical hloaded hretry h

end Lifecycle

/-! ## The two rails -/

theorem card_tables : Lifecycle.Tables cardRail where
  begins := by
    intro o t h
    cases o <;> simp_all [cardRail, Card.transition, Card.isOpening]
  opensOnce := by
    intro st o t h ho
    cases o <;> cases st <;> simp_all [cardRail, Card.transition, Card.isOpening]
  neverCreated := by
    intro st o next kind effect h
    cases o <;> cases st <;> simp_all [cardRail, Card.transition] <;> rintro rfl <;> simp_all
  operations := by
    intro o
    cases o <;> rfl
  payloadKeys := by
    intro o
    cases o <;> decide

theorem a2a_tables : Lifecycle.Tables a2aRail where
  begins := by
    intro o t h
    cases o <;> simp_all [a2aRail, A2A.transition]
  opensOnce := by
    intro st o t h ho
    cases o <;> cases st <;> simp_all [a2aRail, A2A.transition]
  neverCreated := by
    intro st o next kind effect h
    cases o <;> cases st <;> simp_all [a2aRail, A2A.transition] <;> rintro rfl <;> simp_all
  operations := by
    intro o
    cases o <;> rfl
  payloadKeys := by
    intro o
    cases o <;> decide

end Apar
