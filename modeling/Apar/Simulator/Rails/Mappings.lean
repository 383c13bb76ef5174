/-
The stored state of a payment as the mapping the engine keeps (`_STATE_KEYS`, `_opening_state`, `_validated_state` in
`simulator/rails/card.py` and `simulator/rails/a2a.py`).

`Lifecycle.mapping` is the mapping of a typed state, `Schema.readState` reads a state back from an untrusted mapping, as
`_validated_state` does while it checks, and `Schema.validatedMapping` is the whole of `_validated_state`. Everything the
function raises becomes one error, so reading first and checking afterwards raises the same.

- `readState_eq_ok`: a mapping reads as a state exactly when it holds the state's fields and no other key.
- `validatedMapping_mapping`: on a mapping of a typed state it is the check that `handle` makes.
-/
import Apar.Simulator.Rails.Card
import Apar.Simulator.Rails.A2A

namespace Apar

open Exec

/-- a value in a stored mapping -/
inductive StoredValue where
  | text (s : String)
  | decimal (d : Decimal)
  | tuple (xs : List StoredValue)
  | other

def HistoryRecord.value (r : HistoryRecord) : StoredValue :=
  .tuple [.text r.key, .text r.operation, .text r.fingerprint, .text r.eventId, .text r.commitment]

namespace Lifecycle

variable {S O R : Type}

/-! ## Mappings -/

/-- the fields of a stored state -/
def fields (L : Lifecycle S O R) (state : PaymentState S R) : List (String × StoredValue) :=
  [("state", .text (L.stateValue state.state)), ("payment_id", .text state.paymentId),
    ("amount", .decimal state.opening.amount), ("currency", .text state.opening.currency)] ++
  L.roles.map (fun r => (L.roleKey r, .text (state.opening.accounts r))) ++
  [("actor_id", .text state.opening.actorId), ("counterparty_id", .text state.opening.counterpartyId),
    ("campaign_id", .text state.opening.campaignId), ("trace_id", .text state.opening.traceId),
    ("fee", .decimal state.opening.fee), ("last_event_id", .text state.lastEventId),
    ("history_commitment", .text state.historyCommitment),
    ("idempotency_records", .tuple (state.records.map HistoryRecord.value))]

/-- `_STATE_KEYS` -/
def stateKeys (L : Lifecycle S O R) : List String :=
  ["state", "payment_id", "amount", "currency"] ++ L.roles.map L.roleKey ++
    ["actor_id", "counterparty_id", "campaign_id", "trace_id", "fee", "last_event_id", "history_commitment",
      "idempotency_records"]

theorem fields_keys (L : Lifecycle S O R) (state : PaymentState S R) :
    (L.fields state).map Prod.fst = L.stateKeys := by
  simp [fields, stateKeys]

/-- the mapping of a stored state -/
def mapping (L : Lifecycle S O R) (state : PaymentState S R) : Dict String StoredValue := .ofList (L.fields state)

/-! ## Reading a mapping -/

def storedText (m : Dict String StoredValue) (key : String) : Except SimError String :=
  match m.get? key with
  | some (.text s) => .ok s
  | some _ => .error (.typeError (key ++ " must be an exact string"))
  | none => .error .keyError

def storedDecimal (m : Dict String StoredValue) (key : String) : Except SimError Decimal :=
  match m.get? key with
  | some (.decimal d) => .ok d
  | some _ => .error (.typeError "state money must be exact Decimal")
  | none => .error .keyError

def storedRecord : StoredValue → Except SimError HistoryRecord
  | .tuple [.text key, .text operation, .text fingerprint, .text eventId, .text commitment] =>
    .ok ⟨key, operation, fingerprint, eventId, commitment⟩
  | _ => .error (.valueError "idempotency record must contain five fields")

def storedRecords (m : Dict String StoredValue) : Except SimError (List HistoryRecord) :=
  match m.get? "idempotency_records" with
  | some (.tuple records) => records.mapM storedRecord
  | some _ => .error (.typeError "idempotency_records must be an exact tuple")
  | none => .error .keyError

/-- what reading a mapping relies on: the states by their values, every role with a key of its own -/
structure Schema (L : Lifecycle S O R) where
  states : List S
  states_find : ∀ st, states.find? (fun st' => L.stateValue st' = L.stateValue st) = some st
  roles : ∀ r, r ∈ L.roles
  keys : L.stateKeys.Nodup

namespace Schema

variable {L : Lifecycle S O R}

/-- the state a mapping holds -/
def readState (K : Schema L) (m : Dict String StoredValue) : Except SimError (PaymentState S R) := do
  check (decide (m.keys.Perm L.stateKeys)) (.valueError ("state fields do not match " ++ L.noun ++ " schema"))
  let value ← storedText m "state"
  match K.states.find? fun st => L.stateValue st = value with
  | none => .error (.valueError (value ++ " is not a valid state"))
  | some st => do
    let paymentId ← storedText m "payment_id"
    let currency ← storedText m "currency"
    let amount ← storedDecimal m "amount"
    let fee ← storedDecimal m "fee"
    L.roles.forM fun r => do let _ ← storedText m (L.roleKey r)
    let actorId ← storedText m "actor_id"
    let counterpartyId ← storedText m "counterparty_id"
    let campaignId ← storedText m "campaign_id"
    let traceId ← storedText m "trace_id"
    let lastEventId ← storedText m "last_event_id"
    let historyCommitment ← storedText m "history_commitment"
    let records ← storedRecords m
    return {
      state := st, paymentId := paymentId
      opening := {
        amount := amount, currency := currency
        accounts := fun r => match m.get? (L.roleKey r) with
          | some (.text s) => s
          | _ => ""
        actorId := actorId, counterpartyId := counterpartyId, campaignId := campaignId, traceId := traceId, fee := fee }
      lastEventId := lastEventId, historyCommitment := historyCommitment, records := records }

/-- `_validated_state` -/
def validatedMapping [Sha256] [DecidableEq S] (K : Schema L) (ctx : DecimalContext) (m : Dict String StoredValue)
    (expectedPaymentId : String) : Except SimError (PaymentState S R) :=
  let checked : Except SimError (PaymentState S R) := do
    let state ← K.readState m
    L.checkState ctx state expectedPaymentId
    return state
  match checked with
  | .ok state => .ok state
  | .error _ => .error (.lifecycle (L.codes ++ "_STATE_CORRUPT"))

/-! ## Round trip -/

variable {state : PaymentState S R} {m : Dict String StoredValue}

theorem get?_mapping (K : Schema L) {p : String × StoredValue} (h : p ∈ L.fields state) :
    (L.mapping state).get? p.1 = some p.2 := by
  rw [Dict.get?_eq_some, mapping, Dict.items_ofList (by rw [fields_keys]; exact K.keys)]
  exact h

theorem storedText_eq_ok {key s : String} : storedText m key = .ok s ↔ m.get? key = some (.text s) := by
  unfold storedText
  cases m.get? key with
  | none => simp
  | some v => cases v <;> simp

theorem storedDecimal_eq_ok {key : String} {d : Decimal} :
    storedDecimal m key = .ok d ↔ m.get? key = some (.decimal d) := by
  unfold storedDecimal
  cases m.get? key with
  | none => simp
  | some v => cases v <;> simp

theorem storedRecord_eq_ok {v : StoredValue} {r : HistoryRecord} : storedRecord v = .ok r ↔ v = r.value := by
  constructor
  · intro h
    unfold storedRecord at h
    split at h
    · cases h
      rfl
    · cases h
  · rintro rfl
    rfl

theorem value_injective : Function.Injective HistoryRecord.value := by
  intro r r' h
  have hr : storedRecord r'.value = .ok r := storedRecord_eq_ok.2 h.symm
  rw [storedRecord_eq_ok.2 rfl] at hr
  exact (Except.ok.inj hr).symm

theorem storedRecords_eq_ok {records : List HistoryRecord} :
    storedRecords m = .ok records ↔
      m.get? "idempotency_records" = some (.tuple (records.map HistoryRecord.value)) := by
  have hlist : ∀ vs : List StoredValue, vs.mapM storedRecord = .ok records ↔
      vs = records.map HistoryRecord.value := by
    intro vs
    rw [mapM_eq_ok]
    simp only [storedRecord_eq_ok]
    constructor
    · intro h
      induction h with
      | nil => rfl
      | cons hv _ ih => rw [hv, ih, List.map_cons]
    · rintro rfl
      rw [List.forall₂_map_left_iff]
      exact List.forall₂_same.2 fun r _ => rfl
  unfold storedRecords
  cases m.get? "idempotency_records" with
  | none => simp
  | some v =>
    cases v with
    | tuple vs => simp [hlist]
    | text s => simp
    | decimal d => simp
    | other => simp

theorem keys_mapping (K : Schema L) (state : PaymentState S R) : (L.mapping state).keys = L.stateKeys := by
  rw [Dict.keys, mapping, Dict.items_ofList (by rw [fields_keys]; exact K.keys), fields_keys]

theorem role_mem_fields (K : Schema L) (state : PaymentState S R) (r : R) :
    (L.roleKey r, StoredValue.text (state.opening.accounts r)) ∈ L.fields state :=
  List.mem_append_left _ (List.mem_append_right _ (List.mem_map.2 ⟨r, K.roles r, rfl⟩))

/-- **Round trip.** A mapping reads as a state exactly when it holds the fields of that state and nothing else. -/
theorem readState_eq_ok (K : Schema L) :
    K.readState m = .ok state ↔ ∀ key, m.get? key = (L.mapping state).get? key := by
  constructor
  · intro h
    simp only [readState, except_bind_eq_ok, check_eq_ok, decide_eq_true_eq, storedText_eq_ok] at h
    obtain ⟨_, hkeys, value, hvalue, h⟩ := h
    cases hfind : K.states.find? (fun st => L.stateValue st = value) with
    | none => simp [hfind] at h
    | some st =>
      have hst : L.stateValue st = value := by simpa using List.find?_some hfind
      simp only [hfind, except_bind_eq_ok, except_pure_eq_ok, storedText_eq_ok, storedDecimal_eq_ok,
        storedRecords_eq_ok] at h
      obtain ⟨paymentId, hpaymentId, currency, hcurrency, amount, hamount, fee, hfee, _, hroles, h⟩ := h
      obtain ⟨actorId, hactor, counterpartyId, hcounterparty, campaignId, hcampaign, traceId, htrace, h⟩ := h
      obtain ⟨lastEventId, hlast, historyCommitment, hcommitment, records, hrecords, rfl⟩ := h
      have haccounts : ∀ r ∈ L.roles, ∃ s, m.get? (L.roleKey r) = some (.text s) := by
        intro r hr
        have := forM_mem hroles hr
        simp only [except_bind_eq_ok, storedText_eq_ok] at this
        obtain ⟨s, hs, -⟩ := this
        exact ⟨s, hs⟩
      refine Dict.get?_of_items (by rw [keys_mapping K]; exact hkeys) fun p hp => ?_
      rw [mapping, Dict.items_ofList (by rw [fields_keys]; exact K.keys)] at hp
      simp only [fields, List.mem_append, List.mem_cons, List.mem_map, List.not_mem_nil, or_false] at hp
      rcases hp with ((rfl | rfl | rfl | rfl) | ⟨r, hr, rfl⟩) | rfl | rfl | rfl | rfl | rfl | rfl | rfl | rfl
      · exact hst ▸ hvalue
      · exact hpaymentId
      · exact hamount
      · exact hcurrency
      · obtain ⟨s, hs⟩ := haccounts r hr
        simp only [hs]
      · exact hactor
      · exact hcounterparty
      · exact hcampaign
      · exact htrace
      · exact hfee
      · exact hlast
      · exact hcommitment
      · exact hrecords
  · intro h
    have hget : ∀ p ∈ L.fields state, m.get? p.1 = some p.2 := fun p hp => (h p.1).trans (K.get?_mapping hp)
    have hkeys : m.keys.Perm L.stateKeys := K.keys_mapping state ▸ (Dict.perm_of_get? h).map Prod.fst
    have hroles : L.roles.forM (fun r => do let _ ← storedText m (L.roleKey r)) = (.ok ⟨⟩ : Except SimError Unit) := by
      refine forM_eq_ok fun r hr => ?_
      rw [storedText_eq_ok.2 (hget _ (K.role_mem_fields state r))]
      rfl
    obtain ⟨st, paymentId, ⟨amount, currency, accounts, actorId, counterpartyId, campaignId, traceId, fee⟩, lastEventId,
      historyCommitment, records⟩ := state
    have htext : ∀ key s, (key, StoredValue.text s) ∈ L.fields _ → m.get? key = some (.text s) := fun key s =>
      hget (key, .text s)
    have hdecimal : ∀ key d, (key, StoredValue.decimal d) ∈ L.fields _ → m.get? key = some (.decimal d) := fun key d =>
      hget (key, .decimal d)
    simp only [readState, except_bind_eq_ok, check_eq_ok, decide_eq_true_eq, storedText_eq_ok]
    refine ⟨(), hkeys, _, htext "state" (L.stateValue st) (by simp [fields]), ?_⟩
    simp only [K.states_find, except_bind_eq_ok, except_pure_eq_ok, storedText_eq_ok, storedDecimal_eq_ok,
      storedRecords_eq_ok]
    refine ⟨_, htext "payment_id" paymentId (by simp [fields]), _, htext "currency" currency (by simp [fields]), _,
      hdecimal "amount" amount (by simp [fields]), _, hdecimal "fee" fee (by simp [fields]), _, hroles, _,
      htext "actor_id" actorId (by simp [fields]), _, htext "counterparty_id" counterpartyId (by simp [fields]), _,
      htext "campaign_id" campaignId (by simp [fields]), _, htext "trace_id" traceId (by simp [fields]), _,
      htext "last_event_id" lastEventId (by simp [fields]), _,
      htext "history_commitment" historyCommitment (by simp [fields]), _,
      hget ("idempotency_records", .tuple (records.map HistoryRecord.value)) (by simp [fields]), ?_⟩
    have haccounts : (fun r => match m.get? (L.roleKey r) with
        | some (.text s) => s
        | _ => "") = accounts := by
      funext r
      rw [hget _ (K.role_mem_fields _ r)]
    rw [haccounts]

theorem readState_mapping (K : Schema L) (state : PaymentState S R) : K.readState (L.mapping state) = .ok state :=
  K.readState_eq_ok.2 fun _ => rfl

variable [Sha256] [DecidableEq S] {ctx : DecimalContext}

theorem validatedMapping_eq_ok (K : Schema L) {paymentId : String} : K.validatedMapping ctx m paymentId = .ok state ↔
      K.readState m = .ok state ∧ L.checkState ctx state paymentId = .ok () := by
  unfold validatedMapping
  cases hread : K.readState m with
  | error e => simp [bind, Except.bind]
  | ok st =>
    cases hcheck : L.checkState ctx st paymentId with
    | error e =>
      simp only [bind, Except.bind, hcheck, reduceCtorEq, Except.ok.injEq, false_iff, not_and]
      rintro rfl
      simp [hcheck]
    | ok u =>
      simp only [bind, Except.bind, hcheck, pure, Except.pure, Except.ok.injEq]
      constructor
      · rintro rfl
        exact ⟨rfl, hcheck⟩
      · exact fun h => h.1

theorem validatedMapping_refused (K : Schema L) {paymentId : String}
    (h : ∀ state, K.validatedMapping ctx m paymentId ≠ .ok state) :
    K.validatedMapping ctx m paymentId = .error (.lifecycle (L.codes ++ "_STATE_CORRUPT")) := by
  cases hresult : K.validatedMapping ctx m paymentId with
  | ok state => exact absurd hresult (h state)
  | error e =>
    unfold validatedMapping at hresult
    simp only at hresult
    split at hresult
    · cases hresult
    · cases hresult
      rfl

/-- **The check of a stored mapping** is the check `handle` makes of the state it holds. -/
theorem validatedMapping_mapping (K : Schema L) (state : PaymentState S R) (paymentId : String) :
    K.validatedMapping ctx (L.mapping state) paymentId =
      (L.validatedState ctx state paymentId).map fun _ => state := by
  unfold validatedMapping validatedState
  rw [readState_mapping]
  cases hcheck : L.checkState ctx state paymentId with
  | ok u => simp [bind, Except.bind, hcheck, Except.map, pure, Except.pure]
  | error e => simp [bind, Except.bind, hcheck, Except.map]

end Schema

end Lifecycle

/-! ## The two rails -/

end Apar
