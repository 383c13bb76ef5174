/-
Legal commands are carried out: a lifecycle rail against the books its payments should be in.

`Book` is what the rail is for, without commands, events or histories: a ledger, and for each payment its state, its
opening data, the keys used and the last event. `Book.move` takes a request the transition table allows and the ledger can post.

- `canonicalCommand_constructed`: a command built by its constructor is canonical.
- `Running.turn`: a healthy engine carries out every request its book can take, and its book moves so.
- `plan_carried`: a plan of such requests leaves a healthy engine with the book they lead to.
-/
import Apar.Simulator.Carried
import Apar.Simulator.Rails.StoredStates

namespace Apar

open Exec Engine

namespace Lifecycle

variable {S O R : Type} [Sha256] {L : Lifecycle S O R} {ctx : DecimalContext}

/-! ## Constructed commands -/

/-- the command a constructor makes of its request -/
def constructed (L : Lifecycle S O R) (r : Request O R) : Command O :=
  ⟨some r.operation, L.operationName r.operation, L.requestPayload r⟩

/-- the values of a constructed payload, in the order of the constructor -/
def requestRows (L : Lifecycle S O R) (r : Request O R) : List (String × PayloadValue) :=
  match r.opening with
  | none => [("payment_id", .text r.paymentId), ("idempotency_key", .text r.idempotencyKey)]
  | some o =>
    [("payment_id", .text r.paymentId), ("amount", .decimal o.amount), ("currency", .text o.currency)] ++
      L.roles.map (fun role => (L.roleKey role, .text (o.accounts role))) ++
      [("actor_id", .text o.actorId), ("counterparty_id", .text o.counterpartyId),
        ("campaign_id", .text o.campaignId), ("trace_id", .text o.traceId), ("fee", .decimal o.fee),
        ("idempotency_key", .text r.idempotencyKey)]

omit [Sha256] in
theorem requestPayload_eq (r : Request O R) : L.requestPayload r = .ofList (L.requestRows r) := by
  unfold requestPayload requestRows
  cases r.opening <;> rfl

variable {r : Request O R} {key label paymentId : String}

omit [Sha256] in
theorem Wellformed.opens (h : Wellformed L ctx r) (hopen : L.isOpening r.operation = true) :
    ∃ o, r.opening = some o ∧ L.openingRequest ctx r.operation r.paymentId r.idempotencyKey o = .ok r := by
  obtain ⟨o, hrequest⟩ := h.opening hopen
  obtain ⟨hcurrency, amount, fee, hamount, hfee, hwithin, hid, haccounts, hactor, hcounterparty, hcampaign, htrace, hkey,
    heq⟩ := openingRequest_eq_ok.1 hrequest
  have ho : r.opening = some { o with amount := amount, fee := fee } := by rw [heq]
  refine ⟨_, ho, openingRequest_eq_ok.2 ⟨hcurrency, amount, fee, money_self hamount, money_self hfee, hwithin, hid,
    haccounts, hactor, hcounterparty, hcampaign, htrace, hkey, heq⟩⟩

omit [Sha256] in
theorem requestRows_keys (h : Wellformed L ctx r) : (L.requestRows r).map Prod.fst = L.expectedKeys r.operation := by
  cases hopen : L.isOpening r.operation with
  | true =>
    obtain ⟨o, ho, -⟩ := h.opens hopen
    rw [requestRows, ho, expectedKeys, if_pos hopen]
    simp only [List.map_append, List.map_map, List.map_cons, List.map_nil]
    rfl
  | false =>
    rw [requestRows, h.followup hopen, expectedKeys, hopen, if_neg (by decide)]
    rfl

omit [Sha256] in
theorem requestPayload_items (hL : Tables L) (h : Wellformed L ctx r) :
    (L.requestPayload r).items = L.requestRows r := by
  rw [requestPayload_eq, Dict.items_ofList]
  rw [requestRows_keys h]
  exact hL.payloadKeys _

omit [Sha256] in
theorem payloadRows_ok (noun : String) {rows : List (String × PayloadValue)} (h : ∀ p ∈ rows, p.2 ≠ .other) :
    ∃ texts, payloadRows noun rows = .ok texts := by
  induction rows with
  | nil => exact ⟨[], rfl⟩
  | cons p rest ih =>
    obtain ⟨key, value⟩ := p
    obtain ⟨texts, htexts⟩ := ih fun q hq => h q (List.mem_cons_of_mem _ hq)
    cases value with
    | text t => exact ⟨_, by rw [payloadRows, htexts]; rfl⟩
    | decimal d => exact ⟨_, by rw [payloadRows, htexts]; rfl⟩
    | other => exact absurd rfl (h _ List.mem_cons_self)

/-- a constructed payload has a fingerprint -/
theorem requestPayload_fingerprint (hL : Tables L) (h : Wellformed L ctx r) :
    ∃ fingerprint, L.payloadFingerprint (L.requestPayload r) = .ok fingerprint := by
  have hvalues : ∀ p ∈ L.requestRows r, p.2 ≠ .other := by
    intro p hp
    unfold requestRows at hp
    cases ho : r.opening with
    | none =>
      simp only [ho, List.mem_cons, List.not_mem_nil, or_false] at hp
      rcases hp with rfl | rfl <;> simp
    | some o =>
      simp only [ho, List.mem_append, List.mem_map, List.mem_cons, List.not_mem_nil, or_false] at hp
      rcases hp with ((rfl | rfl | rfl) | ⟨role, -, rfl⟩) | rfl | rfl | rfl | rfl | rfl | rfl <;> simp
  have hsorted : ∀ p ∈ (L.requestPayload r).items.insertionSort fun p q => p.1 ≤ q.1, p.2 ≠ .other := by
    intro p hp
    rw [List.mem_insertionSort, requestPayload_items hL h] at hp
    exact hvalues p hp
  obtain ⟨texts, htexts⟩ := payloadRows_ok L.noun hsorted
  exact ⟨_, by rw [payloadFingerprint, htexts]; rfl⟩

omit [Sha256] in
theorem payloadText_of_mem {payload : Dict String PayloadValue} {t : String} (h : (key, .text t) ∈ payload.items) :
    payloadText payload key = .ok t := by
  rw [payloadText, Dict.get?_eq_some.2 h]

omit [Sha256] in
theorem payloadDecimal_of_mem {payload : Dict String PayloadValue} {d : Decimal} (h : (key, .decimal d) ∈ payload.items)
    : payloadDecimal payload key = .ok d := by
  rw [payloadDecimal, Dict.get?_eq_some.2 h]

omit [Sha256] in
/-- the opening data of a constructed payload -/
theorem payloadOpening_requestPayload (hL : Tables L) (hroles : ∀ role, role ∈ L.roles) (h : Wellformed L ctx r)
    {o : Opening R} (ho : r.opening = some o) : L.payloadOpening (L.requestPayload r) = .ok o := by
  have hmem : ∀ p ∈ L.requestRows r, p ∈ (L.requestPayload r).items := by
    rw [requestPayload_items hL h]
    exact fun p hp => hp
  rw [requestRows, ho] at hmem
  have haccounts : ∀ role, (L.roleKey role, PayloadValue.text (o.accounts role)) ∈ (L.requestPayload r).items := fun role =>
    hmem _ (List.mem_append_left _ (List.mem_append_right _ (List.mem_map_of_mem (hroles role))))
  simp only [payloadOpening, except_bind_eq_ok, except_pure_eq_ok]
  refine ⟨(), forM_eq_ok fun role _ => ?_, o.amount, payloadDecimal_of_mem (hmem _ (by simp)), o.currency,
    payloadText_of_mem (hmem _ (by simp)), o.actorId, payloadText_of_mem (hmem _ (by simp)), o.counterpartyId,
    payloadText_of_mem (hmem _ (by simp)), o.campaignId, payloadText_of_mem (hmem _ (by simp)), o.traceId,
    payloadText_of_mem (hmem _ (by simp)), o.fee, payloadDecimal_of_mem (hmem _ (by simp)), ?_⟩
  · rw [payloadText_of_mem (haccounts role)]
    rfl
  · have hsame : ∀ {accounts : R → String}, (∀ role, accounts role = o.accounts role) →
        ({ o with accounts := accounts } : Opening R) = o := fun h => by rw [funext h]
    refine hsame fun role => ?_
    rw [Dict.get?_eq_some.2 (haccounts role)]

/-- **A constructed command is canonical.** -/
theorem canonicalCommand_constructed (hL : Tables L) (hroles : ∀ role, role ∈ L.roles) (h : Wellformed L ctx r) :
    L.canonicalCommand ctx (L.constructed r) = .ok r := by
  obtain ⟨fingerprint, hfingerprint⟩ := requestPayload_fingerprint hL h
  have hkeys : (L.requestPayload r).keys.Perm (L.expectedKeys r.operation) := by
    rw [Dict.keys, requestPayload_items hL h, requestRows_keys h]
  have hid : payloadText (L.requestPayload r) "payment_id" = .ok r.paymentId := by
    apply payloadText_of_mem
    rw [requestPayload_items hL h, requestRows]
    cases r.opening <;> simp
  have hkey : payloadText (L.requestPayload r) "idempotency_key" = .ok r.idempotencyKey := by
    apply payloadText_of_mem
    rw [requestPayload_items hL h, requestRows]
    cases r.opening <;> simp
  have hrebuild : L.rebuildCommand ctx r.operation (L.constructed r) = .ok r := by
    simp only [rebuildCommand, constructed, except_bind_eq_ok, check_eq_ok, decide_eq_true_eq]
    refine ⟨(), trivial, (), decide_eq_true hkeys, fingerprint, hfingerprint, r.paymentId, hid, r.idempotencyKey, hkey, ?_⟩
    cases hopen : L.isOpening r.operation with
    | true =>
      obtain ⟨o, ho, hrequest⟩ := h.opens hopen
      simp only [if_true, except_bind_eq_ok, check_eq_ok, except_pure_eq_ok]
      exact ⟨o, payloadOpening_requestPayload hL hroles h ho, r, hrequest, fingerprint, hfingerprint, (),
        decide_eq_true rfl, rfl⟩
    | false =>
      have hfollowup : followupRequest r.operation r.paymentId r.idempotencyKey = .ok r := by
        simp only [followupRequest, checkText, except_bind_eq_ok, except_pure_eq_ok, check_eq_ok, decide_eq_true_eq]
        refine ⟨(), h.paymentId, (), h.key, ?_⟩
        rw [← h.followup hopen]
      simp only [Bool.false_eq_true, if_false, except_bind_eq_ok, check_eq_ok, except_pure_eq_ok]
      exact ⟨r, hfollowup, fingerprint, hfingerprint, (), decide_eq_true rfl, rfl⟩
  have htype : (L.constructed r).commandType = some r.operation := rfl
  rw [canonicalCommand, htype]
  dsimp only
  rw [hrebuild]

omit [Sha256] in
/-- a number of cents that the default context holds is canonical -/
theorem money_cents {cents : ℕ} {positive : Bool} (hfits : cents < 10 ^ 28) (hpositive : positive = true → 0 < cents) :
    money .default label ⟨cents, -2⟩ "USD" positive = .ok ⟨cents, -2⟩ := by
  have hquantize : (⟨cents, -2⟩ : Decimal).quantize .default (-((2 : ℕ) : ℤ)) = some ⟨cents, -2⟩ := by
    have hrescale : (⟨cents, -2⟩ : Decimal).rescale (-2) = cents := by simp [Decimal.rescale, Decimal.scaled]
    show (if ((⟨cents, -2⟩ : Decimal).rescale (-2)).natAbs < 10 ^ 28 then _ else _) = _
    rw [hrescale, Int.natAbs_natCast, if_pos hfits]
    exact congrArg some (congrArg (Decimal.mk · (-2)) hrescale)
  have hzero : ∀ a b : ℤ, Decimal.ble ⟨a, -2⟩ ⟨b, 0⟩ = decide (a ≤ b * 100) := by
    intro a b
    simp [Decimal.ble, Decimal.scaled]
  have hle : Decimal.ble ⟨cents, -2⟩ 0 = decide (cents = 0) := by
    rw [show (0 : Decimal) = ⟨0, 0⟩ from rfl, hzero]
    simp
  have hge : Decimal.ble 0 ⟨cents, -2⟩ = true := by
    rw [Decimal.ble_iff, Decimal.value_zero, Decimal.value_nonneg]
    exact Int.natCast_nonneg _
  have hcurrency : currencyExponent? "USD" = some 2 := by decide
  have hsign : positive = true → Decimal.ble ⟨cents, -2⟩ 0 = false := by
    intro h
    rw [hle, decide_eq_false_iff_not]
    exact (hpositive h).ne'
  simp only [money, except_bind_eq_ok, check_eq_ok]
  refine ⟨(), ?_, ?_⟩
  · cases positive with
    | true => simp [hsign rfl]
    | false => simpa using hge
  · simp only [hcurrency, hquantize, except_bind_eq_ok, check_eq_ok, except_pure_eq_ok, and_true]
    refine ⟨(), ?_⟩
    cases positive with
    | true => simp [hsign rfl]
    | false => rfl

omit [Sha256] in
/-- opening data in whole cents are canonical -/
theorem openingRequest_cents {operation : O} {o : Opening R} {amount fee : ℕ} (hamount : o.amount = ⟨amount, -2⟩)
    (hfee : o.fee = ⟨fee, -2⟩) (hcurrency : o.currency = "USD") (hpositive : 0 < amount) (hfits : amount < 10 ^ 28)
    (hwithin : fee ≤ amount) (haccounts : L.checkAccounts o.accounts = .ok ())
    (hactor : checkUuid "actor_id" o.actorId = .ok ())
    (hcounterparty : checkUuid "counterparty_id" o.counterpartyId = .ok ())
    (hcampaign : checkUuid "campaign_id" o.campaignId = .ok ()) (htrace : checkUuid "trace_id" o.traceId = .ok ())
    (hid : paymentId ≠ "") (hkey : key ≠ "") :
    L.openingRequest .default operation paymentId key o = .ok ⟨operation, paymentId, key, some o⟩ := by
  have hle : Decimal.ble o.fee o.amount = true := by
    have hpow : (0 : ℚ) ≤ 10 ^ (-2 : ℤ) := by positivity
    rw [Decimal.ble_iff, hamount, hfee]
    have hcents : ((fee : ℤ) : ℚ) ≤ ((amount : ℤ) : ℚ) := by exact_mod_cast hwithin
    exact mul_le_mul_of_nonneg_right hcents hpow
  refine openingRequest_eq_ok.2 ⟨by rw [hcurrency]; decide, o.amount, o.fee, ?_, ?_, by rw [hle, Bool.or_true], hid,
    haccounts, hactor, hcounterparty, hcampaign, htrace, hkey, rfl⟩
  · rw [hamount, hcurrency]
    exact money_cents hfits fun _ => hpositive
  · rw [hfee, hcurrency]
    exact money_cents (hwithin.trans_lt hfits) (by simp)

omit [Sha256] in
theorem wellformed_opening {operation : O} {o : Opening R} (hopen : L.isOpening operation = true)
    (h : L.openingRequest ctx operation paymentId key o = .ok r) : Wellformed L ctx r := by
  obtain ⟨-, amount, fee, -, -, -, hid, -, -, -, -, -, hkey, rfl⟩ := openingRequest_eq_ok.1 h
  exact ⟨hid, hkey, fun _ => ⟨o, h⟩, fun hno => absurd hopen (by rw [hno]; decide)⟩

omit [Sha256] in
theorem wellformed_followup {operation : O} (hopen : L.isOpening operation = false) (hid : paymentId ≠ "")
    (hkey : key ≠ "") : Wellformed L ctx ⟨operation, paymentId, key, none⟩ :=
  ⟨hid, hkey, fun hyes => absurd hyes (by rw [hopen]; decide), fun _ => rfl⟩

omit [Sha256] in
theorem checkUuid_formatUuid {n : ℕ} (hn : n < 2 ^ 128) (label : String) : checkUuid label (Uuid.formatUuid n) = .ok () := by
  have hne : Uuid.formatUuid n ≠ "" := by
    intro h
    have hlength := Uuid.length_formatUuid n
    rw [h] at hlength
    cases hlength
  have hvalid : validUuid (Uuid.formatUuid n) = true := by
    rw [validUuid, Uuid.parseUuid_formatUuid hn]
    rfl
  simp only [checkUuid, checkText, except_bind_eq_ok, check_eq_ok, decide_eq_true_eq]
  exact ⟨(), hne, hvalid⟩

/-! ## Turns -/

variable [DecidableEq S] {s s' : Engine (Command O) (PaymentState S R) Unit}

/-- a healthy engine of the rail, its stored states and its log in order -/
structure Running (L : Lifecycle S O R) (ctx : DecimalContext) (s : Engine (Command O) (PaymentState S R) Unit) :
    Prop where
  sound : Sound L ctx s
  log : Engine.Canonical L.rail s
  rail : s.rail = L.rail
  healthy : s.failure = none

omit [DecidableEq S] in
theorem running_fresh (L : Lifecycle S O R) (ctx : DecimalContext) (viewpoint : String) (head b6 b7 b8 b9 : ℕ)
    (start : Time) (ledger : Ledger) :
    Running L ctx (Engine.fresh L.rail viewpoint (versionedPrefix head b6 b7 b8 b9) start ledger ()) :=
  ⟨sound_fresh L ctx L.rail viewpoint head b6 b7 b8 b9 start ledger,
    canonical_fresh L.rail L.rail viewpoint (versionedPrefix_lt ..) start ledger (), rfl, rfl⟩

omit [DecidableEq S] in
theorem Running.popped (h : Running L ctx s) {c : ScheduledCommand (Command O)}
    (rest : List (ScheduledCommand (Command O))) (hnow : s.clock.now ≤ c.dueAt) : Running L ctx (popped s c rest) :=
  ⟨h.sound.congr rfl rfl rfl, h.log.popped rest hnow, h.rail, h.healthy⟩

/-- the stored state of a payment after a transition now -/
def after (L : Lifecycle S O R) (s : Engine (Command O) (PaymentState S R) Unit) (r : Request O R)
    (state : PaymentState S R) (next : S) (fingerprint : String) : PaymentState S R :=
  L.advance state r next (uuidAt s.uuidPrefix s.uuidSequence) fingerprint

/-- the event of a transition now -/
def emitted (L : Lifecycle S O R) (s : Engine (Command O) (PaymentState S R) Unit) (r : Request O R)
    (state : PaymentState S R) (next : S) (kind : EventKind) (fingerprint : String) : PaymentEvent :=
  L.event s.viewpoint s.clock.now (L.after s r state next fingerprint) kind (uuidAt s.uuidPrefix s.uuidSequence)
    state.lastEventId

/-- the engine after a transition now -/
def moved (L : Lifecycle S O R) (s : Engine (Command O) (PaymentState S R) Unit) (r : Request O R)
    (state : PaymentState S R) (next : S) (kind : EventKind) (fingerprint : String) (ledger : Ledger) :
    Engine (Command O) (PaymentState S R) Unit :=
  appended { s with
    uuidSequence := s.uuidSequence + 1
    ledger := ledger
    entityState := s.entityState.set r.paymentId (L.after s r state next fingerprint) }
    [L.emitted s r state next kind fingerprint]

omit [Sha256] in
theorem checkUuid_eq_ok {value : String} (h : checkUuid label value = .ok ()) : validUuid value = true := by
  simp only [checkUuid, except_bind_eq_ok, check_eq_ok] at h
  obtain ⟨_, -, hvalid⟩ := h
  exact hvalid

omit [DecidableEq S] in
theorem ValidState.event_validate {state : PaymentState S R} (h : ValidState L ctx state paymentId) {viewpoint : String}
    {now : Time} {kind : EventKind} {eventId previousEventId : String} (hid : validUuid eventId = true) :
    (L.event viewpoint now state kind eventId previousEventId).validate = .ok () := by
  obtain ⟨k, -, hquantized, hnonneg, -⟩ := money_eq_ok h.amount
  have hamount : Decimal.ble 0 state.opening.amount = true := by
    rw [Decimal.ble_iff, Decimal.value_zero]
    exact hnonneg
  have hversion : validateSchemaVersion "1.0.0" = .ok () := by decide
  simp only [PaymentEvent.validate, Lifecycle.event, hversion, except_ok_bind, List.all_cons, List.all_nil, hid,
    checkUuid_eq_ok h.actorId, checkUuid_eq_ok h.counterpartyId, checkUuid_eq_ok h.campaignId, checkUuid_eq_ok h.traceId,
    hamount, Option.any_some, lt_irrefl, decide_false, Bool.not_true, Bool.false_eq_true, if_false, Bool.and_self]

/-- **Legal commands are carried out.** A healthy engine takes the transition of a canonical command whose key is new to
its payment and whose entry the ledger can post. -/
theorem Running.turn (hdigest : ∀ j, isDigestText (Sha256.hexdigest j) = true) (hL : Tables L) (h : Running L ctx s)
    {command : Command O} {r : Request O R} (hcanonical : L.canonicalCommand ctx command = .ok r)
    {state : PaymentState S R} (hloaded : L.loadState r (s.entityState.get? r.paymentId) = .ok state)
    (hunused : ∀ record ∈ state.records, record.key ≠ r.idempotencyKey) {next : S} {kind : EventKind}
    {effect : Option (Posting R)} (hlegal : L.transition state.state r.operation = some (next, kind, effect))
    (hsequence : s.uuidSequence < 2 ^ 48) {ledger : Ledger}
    (hposted : Posts ctx state.opening (uuidAt s.uuidPrefix s.uuidSequence) s.ledger ledger effect) :
    ∃ fingerprint, (L.handle ctx command >>= appendBatch) s = .ok () (L.moved s r state next kind fingerprint ledger) ∧
      Running L ctx (L.moved s r state next kind fingerprint ledger) := by
  obtain ⟨fingerprint, hfingerprint⟩ := canonicalCommand_fingerprint hcanonical
  have hwellformed := canonicalCommand_wellformed hcanonical
  obtain ⟨hvalid, -, -⟩ := h.sound.loaded hwellformed hloaded
  have hfind : state.records.find? (fun record => record.key = r.idempotencyKey) = none :=
    List.find?_eq_none.2 fun record hrecord => by simpa using hunused record hrecord
  have hretry : L.isIdempotentRetry state r = .ok false := by
    simp only [isIdempotentRetry, hfingerprint, except_ok_bind, hfind]
    rfl
  have hupdated := h.sound.updated hdigest hL hcanonical hloaded hretry hlegal hfingerprint hsequence
  have hissued : validUuid (uuidAt s.uuidPrefix s.uuidSequence) = true := by
    rw [validUuid, parseUuid_uuidAt h.sound.prefix_lt hsequence]
    rfl
  have hevent : (L.emitted s r state next kind fingerprint).validate = .ok () :=
    (validatedState_iff.1 hupdated).event_validate hissued
  have hpost : postEffect ctx (L.after s r state next fingerprint) effect (uuidAt s.uuidPrefix s.uuidSequence)
      { s with uuidSequence := s.uuidSequence + 1 } = .ok ()
      { s with uuidSequence := s.uuidSequence + 1, ledger := ledger } := by
    cases effect with
    | none =>
      have hsame : ledger = s.ledger := hposted
      rw [hsame]
      rfl
    | some posting => exact post_eq_ok.2 ⟨h.healthy, ledger, hposted, rfl⟩
  have htransact : L.transact ctx r state s = .ok [L.emitted s r state next kind fingerprint]
      { s with
        uuidSequence := s.uuidSequence + 1
        ledger := ledger
        entityState := s.entityState.set r.paymentId (L.after s r state next fingerprint) } := by
    simp only [transact, bind_eq_ok, raising_eq_ok, nextTransition_eq_ok, newUuid_eq_ok, get_eq_ok,
      setEntityState_eq_ok, pure_eq_ok]
    exact ⟨_, _, ⟨hlegal, rfl⟩, _, _, ⟨h.healthy, hsequence, rfl, rfl⟩, fingerprint, _, ⟨hfingerprint, rfl⟩, (), _,
      ⟨hupdated, rfl⟩, _, _, ⟨rfl, rfl⟩, (), _, ⟨hevent, rfl⟩, (), _, hpost, (), _, ⟨h.healthy, hwellformed.paymentId, rfl⟩,
      rfl, rfl⟩
  have hhandle : L.handle ctx command s = .ok [L.emitted s r state next kind fingerprint]
      { s with
        uuidSequence := s.uuidSequence + 1
        ledger := ledger
        entityState := s.entityState.set r.paymentId (L.after s r state next fingerprint) } := by
    simp only [handle, bind_eq_ok, raising_eq_ok, entityState?_eq_ok]
    exact ⟨r, s, ⟨hcanonical, rfl⟩, _, s, ⟨h.healthy, rfl, rfl⟩, state, s, ⟨hloaded, rfl⟩, (), s,
      ⟨validatedState_iff.2 hvalid, rfl⟩, false, s, ⟨hretry, rfl⟩, htransact⟩
  have hissues : ∃ e, [L.emitted s r state next kind fingerprint] = [e] ∧ Engine.Issued s { s with
      uuidSequence := s.uuidSequence + 1
      ledger := ledger
      entityState := s.entityState.set r.paymentId (L.after s r state next fingerprint) } e :=
    ⟨_, rfl, hevent, h.rail.symm, rfl, s.uuidSequence, le_rfl, Nat.lt_succ_self _, hsequence, rfl⟩
  obtain ⟨happend, hlog⟩ := h.log.append ((within_handle command).ok hhandle) (.inr hissues)
  refine ⟨fingerprint, bind_eq_ok.2 ⟨_, _, hhandle, happend⟩, ?_, hlog, h.rail, h.healthy⟩
  rcases handle_cases hhandle with ⟨-, -, hnone, -⟩ | ⟨⟨t⟩⟩
  · cases hnone
  · exact (h.sound.advance t).congr rfl rfl rfl

end Lifecycle

theorem Assoc.map_set {κ α β : Type} [DecidableEq κ] (f : α → β) (k : κ) (v : α) (l : List (κ × α)) :
    (Assoc.set k v l).map (fun p => (p.1, f p.2)) = Assoc.set k (f v) (l.map fun p => (p.1, f p.2)) := by
  induction l with
  | nil => rfl
  | cons p t ih =>
    obtain ⟨k', v'⟩ := p
    by_cases hk : k' = k
    · simp [set, hk]
    · simp [set, hk, ih]

/-! ## Books -/

/-- a payment as the transition table and the ledger see it, with the event last emitted for it -/
structure Payment (S R : Type) where
  state : S
  opening : Opening R
  keys : List String
  lastEventId : String

/-- the books of a rail: the ledger, the payments, the log, and how many identifiers were used -/
structure Book (S R : Type) where
  ledger : Ledger
  payments : Dict String (Payment S R)
  events : List PaymentEvent
  issued : ℕ

def PaymentState.payment {S R : Type} (state : PaymentState S R) : Payment S R :=
  ⟨state.state, state.opening, state.records.map HistoryRecord.key, state.lastEventId⟩

namespace Book

variable {S O R : Type}

/-- the payment a request is for, or the one it opens -/
def payment? (L : Lifecycle S O R) (b : Book S R) (r : Request O R) : Option (Payment S R) :=
  match b.payments.get? r.paymentId, r.opening with
  | some p, _ => some p
  | none, some o => some ⟨L.created, o, [], ""⟩
  | none, none => none

/-- the ledger after an effect, if it can be posted -/
def posted (ctx : DecimalContext) (o : Opening R) (eventId : String) (l : Ledger) : Option (Posting R) → Option Ledger
  | none => some l
  | some posting => (l.post ctx (Lifecycle.effectEntry ctx o posting eventId)).toOption

theorem posts_of_posted {ctx : DecimalContext} {o : Opening R} {eventId : String} {l l' : Ledger}
    {effect : Option (Posting R)} (h : posted ctx o eventId l effect = some l') :
    Lifecycle.Posts ctx o eventId l l' effect := by
  cases effect with
  | none => exact (Option.some.inj h).symm
  | some posting =>
    show l.post ctx (Lifecycle.effectEntry ctx o posting eventId) = .ok l'
    unfold posted at h
    cases hpost : l.post ctx (Lifecycle.effectEntry ctx o posting eventId) with
    | ok l => simpa [hpost, Except.toOption] using h
    | error e => simp [hpost, Except.toOption] at h

/-- the books after a request at a time -/
def move (L : Lifecycle S O R) (ctx : DecimalContext) (viewpoint : String) (uuidPrefix : ℕ) (b : Book S R) (now : Time)
    (r : Request O R) : Option (Book S R) := do
  let p ← b.payment? L r
  let eventId := uuidAt uuidPrefix b.issued
  let (next, kind, effect) ← L.transition p.state r.operation
  let ledger ← posted ctx p.opening eventId b.ledger effect
  if r.idempotencyKey ∈ p.keys ∨ 2 ^ 48 ≤ b.issued then none
  else some {
    ledger := ledger
    payments := b.payments.set r.paymentId ⟨next, p.opening, p.keys ++ [r.idempotencyKey], eventId⟩
    events := b.events ++ [L.event viewpoint now ⟨next, r.paymentId, p.opening, eventId, "", []⟩ kind eventId p.lastEventId]
    issued := b.issued + 1 }

/-- the books after a plan of requests -/
def moves (L : Lifecycle S O R) (ctx : DecimalContext) (viewpoint : String) (uuidPrefix : ℕ) :
    Book S R → List (Planned (Request O R)) → Option (Book S R)
  | b, [] => some b
  | b, c :: rest => (b.move L ctx viewpoint uuidPrefix c.1 c.2.2).bind fun b' => b'.moves L ctx viewpoint uuidPrefix rest

end Book

namespace Lifecycle

variable {S O R : Type} {L : Lifecycle S O R} {ctx : DecimalContext} {s s' : Engine (Command O) (PaymentState S R) Unit}
  {b b' : Book S R}

/-- an engine whose books are these -/
structure Keeps (s : Engine (Command O) (PaymentState S R) Unit) (b : Book S R) : Prop where
  ledger : s.ledger = b.ledger
  payments : (s.entityState.items.map fun p => (p.1, p.2.payment)) = b.payments.items
  events : s.events = b.events
  issued : s.uuidSequence = b.issued

theorem Keeps.get? (h : Keeps s b) (paymentId : String) :
    b.payments.get? paymentId = (s.entityState.get? paymentId).map PaymentState.payment := by
  rw [Dict.get?, ← h.payments]
  exact Assoc.get?_map _ _ _

theorem Keeps.loaded (h : Keeps s b) {r : Request O R} {p : Payment S R} (hp : b.payment? L r = some p) :
    ∃ state, L.loadState r (s.entityState.get? r.paymentId) = .ok state ∧ state.payment = p := by
  unfold Book.payment? at hp
  rw [h.get?] at hp
  unfold loadState
  cases hget : s.entityState.get? r.paymentId with
  | some state =>
    simp only [hget, Option.map_some, Option.some.injEq] at hp
    exact ⟨state, rfl, hp⟩
  | none =>
    cases ho : r.opening with
    | none => simp [hget, ho] at hp
    | some o =>
      simp only [hget, ho, Option.map_none, Option.some.injEq] at hp
      exact ⟨_, rfl, hp⟩

variable [Sha256] [DecidableEq S]

/-- **Step.** A healthy engine carries out every constructed request that its books can take. -/
theorem Running.move (hdigest : ∀ j, isDigestText (Sha256.hexdigest j) = true) (hL : Tables L)
    (hroles : ∀ role, role ∈ L.roles) (h : Running L ctx s) (hb : Keeps s b) {r : Request O R}
    (hr : Wellformed L ctx r) (hmove : b.move L ctx s.viewpoint s.uuidPrefix s.clock.now r = some b') :
    ∃ s', (L.handle ctx (L.constructed r) >>= appendBatch) s = .ok () s' ∧ Running L ctx s' ∧ Keeps s' b' ∧
      s'.clock = s.clock ∧ s'.scheduledTimes = s.scheduledTimes ∧ s'.uuidPrefix = s.uuidPrefix ∧
      s'.viewpoint = s.viewpoint := by
  simp only [Book.move, Option.bind_eq_bind, Option.bind_eq_some_iff] at hmove
  obtain ⟨p, hp, ⟨next, kind, effect⟩, hlegal, ledger, hposted, hmove⟩ := hmove
  obtain ⟨state, hloaded, rfl⟩ := hb.loaded hp
  split_ifs at hmove with hrefused
  simp only [Option.some.injEq] at hmove
  subst hmove
  rw [not_or, not_le, ← hb.issued] at hrefused
  obtain ⟨hkey, hsequence⟩ := hrefused
  have hpost : Posts ctx state.opening (uuidAt s.uuidPrefix s.uuidSequence) s.ledger ledger effect := by
    rw [← hb.ledger, ← hb.issued] at hposted
    exact Book.posts_of_posted hposted
  obtain ⟨fingerprint, hturn, hrunning⟩ := h.turn hdigest hL (canonicalCommand_constructed hL hroles hr) hloaded
    (fun record hrecord hsame => hkey (hsame ▸ List.mem_map_of_mem hrecord)) hlegal hsequence hpost
  have hpaymentId : state.paymentId = r.paymentId := (h.sound.loaded hr hloaded).1.paymentId
  have hevent : L.emitted s r state next kind fingerprint = L.event s.viewpoint s.clock.now
      ⟨next, r.paymentId, state.opening, uuidAt s.uuidPrefix s.uuidSequence, "", []⟩ kind
      (uuidAt s.uuidPrefix s.uuidSequence) state.lastEventId := by
    rw [← hpaymentId]
    rfl
  refine ⟨_, hturn, hrunning, ⟨rfl, ?_, ?_, ?_⟩, rfl, rfl, rfl, rfl⟩
  · show (Assoc.set r.paymentId _ s.entityState.items).map _ = Assoc.set r.paymentId _ b.payments.items
    rw [Assoc.map_set, hb.payments, ← hb.issued]
    simp only [PaymentState.payment, after, advance, List.map_append, List.map_cons, List.map_nil]
  · show s.events ++ [L.emitted s r state next kind fingerprint] = b.events ++ [_]
    rw [hb.events, ← hb.issued, hevent]
    rfl
  · show s.uuidSequence + 1 = b.issued + 1
    rw [hb.issued]

variable {plan : List (Planned (Request O R))}

/-- **Run.** Requests that wait are carried out, if the books can take them one after the other. -/
theorem Running.carries (hdigest : ∀ j, isDigestText (Sha256.hexdigest j) = true) (hL : Tables L)
    (hroles : ∀ role, role ∈ L.roles) {n : ℕ} (h : Running L ctx s) (hb : Keeps s b)
    (hplan : ∀ c ∈ plan, Wellformed L ctx c.2.2) (hnow : ∀ c ∈ plan, s.clock.now ≤ c.1)
    (horder : plan.Pairwise Planned.Before) (hmoves : b.moves L ctx s.viewpoint s.uuidPrefix plan = some b') :
    ∃ s', Carries (L.adapter ctx) (numbered n (plan.map fun c => (c.1, c.2.1, L.constructed c.2.2))) s s' ∧
      Running L ctx s' ∧ Keeps s' b' := by
  induction plan generalizing s b n with
  | nil =>
    cases hmoves
    exact ⟨s, .done s, h, hb⟩
  | cons c rest ih =>
    rw [Book.moves, Option.bind_eq_some_iff] at hmoves
    obtain ⟨b₁, hmove, hmoves⟩ := hmoves
    rw [List.pairwise_cons] at horder
    obtain ⟨s₁, hturn, hrunning, hkeeps, hclock, htimes, hsame, hview⟩ :=
      Running.move hdigest hL hroles (h.popped (numbered (n + 1) (rest.map fun c => (c.1, c.2.1, L.constructed c.2.2)))
        (c := ⟨c.1, c.2.1, n, L.constructed c.2.2⟩) (hnow c List.mem_cons_self))
      ⟨hb.ledger, hb.payments, hb.events, hb.issued⟩ (hplan c List.mem_cons_self) hmove
    have hlater : ∀ d ∈ rest, s₁.clock.now ≤ d.1 := by
      intro d hd
      rw [hclock]
      rcases horder.1 d hd with hlt | heq
      · exact hlt.le
      · exact heq.1.le
    obtain ⟨s', hcarries, hdone⟩ := ih hrunning hkeeps (fun d hd => hplan d (List.mem_cons_of_mem c hd)) hlater horder.2
      (by rw [hsame, hview]; exact hmoves)
    exact ⟨s', .turn hturn hclock htimes hcarries, hdone⟩

/-- **A plan of legal requests.** Requests of a rail, scheduled in order on a fresh engine, are all carried out if the
books can take them one after the other. -/
theorem plan_carried (hdigest : ∀ j, isDigestText (Sha256.hexdigest j) = true) (hL : Tables L)
    (hroles : ∀ role, role ∈ L.roles) (viewpoint : String) (head b6 b7 b8 b9 : ℕ) {start : Time} {ledger : Ledger}
    (hplan : ∀ c ∈ plan, Wellformed L ctx c.2.2) (hnow : ∀ c ∈ plan, start ≤ c.1)
    (horder : plan.Pairwise Planned.Before)
    (hmoves : Book.moves L ctx viewpoint (versionedPrefix head b6 b7 b8 b9) ⟨ledger, ∅, [], 0⟩ plan = some b') :
    ∃ s', afterCalls (L.adapter ctx) (Engine.fresh L.rail viewpoint (versionedPrefix head b6 b7 b8 b9) start ledger ())
      ((plan.map fun c => (c.1, c.2.1, L.constructed c.2.2)).map Planned.call ++ [.run plan.length none]) = s' ∧
      s'.failure = none ∧ Keeps s' b' := by
  let commands : List (Planned (Command O)) := plan.map fun c => (c.1, c.2.1, L.constructed c.2.2)
  let fresh₀ : Engine (Command O) (PaymentState S R) Unit :=
    Engine.fresh L.rail viewpoint (versionedPrefix head b6 b7 b8 b9) start ledger ()
  have hfresh : Running L ctx fresh₀ := running_fresh L ctx viewpoint head b6 b7 b8 b9 start ledger
  have hready : Running L ctx { fresh₀.waiting commands with initialized := true } :=
    ⟨hfresh.sound.congr rfl rfl rfl, ⟨hfresh.log.head, fun _ => rfl, hfresh.log.increasing, hfresh.log.issued,
      hfresh.log.past, hfresh.log.valid, hfresh.log.seen⟩, rfl, rfl⟩
  obtain ⟨s', hcarries, hrunning, hkeeps⟩ := hready.carries (n := 0) hdigest hL hroles ⟨rfl, rfl, rfl, rfl⟩ hplan hnow
    horder hmoves
  have hbefore : commands.Pairwise Planned.Before := List.pairwise_map.2 horder
  have hstart : ∀ c ∈ commands, start ≤ c.1 := by
    intro c hc
    obtain ⟨d, hd, rfl⟩ := List.mem_map.1 hc
    exact hnow d hd
  have hinit : ∀ s : Engine (Command O) (PaymentState S R) Unit, s.rail = L.rail → (L.adapter ctx).init s = .ok () s := by
    intro s hrail
    simp only [adapter, Lifecycle.init, bind_eq_ok, get_eq_ok, guard_eq_ok, decide_eq_true_eq]
    exact ⟨s, s, ⟨rfl, rfl⟩, hrail, rfl⟩
  have hcalls := Carries.calls confined_adapter hstart hbefore hinit hcarries
  rw [List.length_map] at hcalls
  exact ⟨s', hcalls, hrunning.healthy, hkeeps⟩

theorem plan_evaluated (hdigest : ∀ j, isDigestText (Sha256.hexdigest j) = true) (hL : Tables L)
    (hroles : ∀ role, role ∈ L.roles) (viewpoint : String) (head b6 b7 b8 b9 : ℕ) {start : Time} {ledger : Ledger}
    {holds : Book S R → Bool} (hplan : ∀ c ∈ plan, Wellformed L ctx c.2.2) (hnow : ∀ c ∈ plan, start ≤ c.1)
    (horder : plan.Pairwise Planned.Before)
    (heval : (Book.moves L ctx viewpoint (versionedPrefix head b6 b7 b8 b9) ⟨ledger, ∅, [], 0⟩ plan).any holds = true) :
    ∃ s' b', afterCalls (L.adapter ctx) (Engine.fresh L.rail viewpoint (versionedPrefix head b6 b7 b8 b9) start ledger ())
      ((plan.map fun c => (c.1, c.2.1, L.constructed c.2.2)).map Planned.call ++ [.run plan.length none]) = s' ∧
      s'.failure = none ∧ Keeps s' b' ∧ holds b' = true := by
  obtain ⟨b', hmoves, hholds⟩ := (Option.any_eq_true _ _).1 heval
  obtain ⟨s', hrun, hhealthy, hkeeps⟩ := plan_carried hdigest hL hroles viewpoint head b6 b7 b8 b9 hplan hnow horder hmoves
  exact ⟨s', b', hrun, hhealthy, hkeeps, hholds⟩

end Lifecycle

/-! ## An authorisation -/

namespace Card

open Lifecycle

theorem sampleDigest_text (j : Json) : isDigestText (sampleDigest.hexdigest j) = true := by
  show isDigestText (String.ofList (List.replicate 64 '0')) = true
  rw [isDigestText, String.toList_ofList]
  decide

/-- a two-cent authorisation -/
def sampleOpen : Opening CardRole where
  amount := ⟨2, -2⟩
  currency := "USD"
  accounts
    | .payer => "payer"
    | .payee => "payee"
    | .hold => "card:holds"
    | .fee => "card:fees"
    | .chargeback => "card:chargebacks"
  actorId := Uuid.formatUuid 1
  counterpartyId := Uuid.formatUuid 2
  campaignId := Uuid.formatUuid 3
  traceId := Uuid.formatUuid 4
  fee := ⟨0, -2⟩

theorem sampleOpen_request : cardRail.openingRequest .default .authorizeCard "p1" "card.authorize:p1" sampleOpen =
    .ok ⟨.authorizeCard, "p1", "card.authorize:p1", some sampleOpen⟩ :=
  openingRequest_cents rfl rfl rfl (by norm_num) (by norm_num) (by norm_num) rfl
    (checkUuid_formatUuid (by norm_num) _) (checkUuid_formatUuid (by norm_num) _) (checkUuid_formatUuid (by norm_num) _)
    (checkUuid_formatUuid (by norm_num) _) (by decide) (by decide)

end Card

end Apar
