/-
Isolated corruption of a stored state is detected: `_validated_state` refuses the mapping of a valid state with any one
field changed, removed or added, and any other list of records under the same fields.

The history commitment is the head of a hash chain over the records, and the first record's fingerprint is a digest of
the opening data. As long as the digest does not collide on the trees that the two checks hash (`hashed`), a valid state
is determined by its payment id and its history commitment (`ValidState.unique`), so two valid mappings that differ do so
in more than one field.

- `chain_unique`: two replayed histories with one commitment are one history.
- `Stored.tampered`: a changed mapping is refused.
- `payment_states_integrity`: both halves, over every run of the card and the A2A rail.
-/
import Apar.Simulator.Rails.StoredStates
import Apar.Simulator.Rails.Mappings

namespace Apar

open Exec

namespace Lifecycle

variable {S O R : Type} {L : Lifecycle S O R} {ctx : DecimalContext}

/-! ## What a check hashes -/

/-- the tree of `_payload_fingerprint` -/
def payloadTree (L : Lifecycle S O R) (payload : Dict String PayloadValue) : Except SimError Json := do
  let rows ← payloadRows L.noun (payload.items.insertionSort fun p q => p.1 ≤ q.1)
  return .ofRows rows

/-- the tree of `_record_commitment` -/
def commitmentTree (L : Lifecycle S O R) (previous paymentId : String) (record : HistoryRecord) : Json :=
  .ofRows [["domain", L.historyDomain], ["previous_commitment", previous], ["payment_id", paymentId],
    ["operation", record.operation], ["idempotency_key", record.key], ["request_fingerprint", record.fingerprint],
    ["event_id", record.eventId]]

/-- the payload of the request a record stands for -/
def recordTree (L : Lifecycle S O R) (ctx : DecimalContext) (state : PaymentState S R) (record : HistoryRecord) :
    List Json :=
  match L.operations.find? fun o => L.operationName o = record.operation with
  | none => []
  | some operation =>
    match L.commandFromRecord ctx operation record.key state >>= fun c => L.payloadTree (L.requestPayload c) with
    | .ok tree => [tree]
    | .error _ => []

/-- the trees hashed for a list of records after a commitment -/
def hashedFrom (L : Lifecycle S O R) (ctx : DecimalContext) (state : PaymentState S R) :
    String → List HistoryRecord → List Json
  | _, [] => []
  | previous, record :: rest =>
    L.commitmentTree previous state.paymentId record :: L.recordTree ctx state record ++
      hashedFrom L ctx state record.commitment rest

/-- the trees `_validated_state` hashes -/
def hashed (L : Lifecycle S O R) (ctx : DecimalContext) (state : PaymentState S R) : List Json :=
  L.hashedFrom ctx state "" state.records

/-- the trees `_validated_state` hashes of an untrusted mapping -/
def Schema.hashed (K : Schema L) (ctx : DecimalContext) (m : Dict String StoredValue) : List Json :=
  match K.readState m with
  | .ok state => L.hashed ctx state
  | .error _ => []

variable {state state' : PaymentState S R}

theorem hashedFrom_append (previous : String) (xs ys : List HistoryRecord) :
    L.hashedFrom ctx state previous (xs ++ ys) = L.hashedFrom ctx state previous xs ++
      L.hashedFrom ctx state ((xs.getLast?.map HistoryRecord.commitment).getD previous) ys := by
  induction xs generalizing previous with
  | nil => rfl
  | cons record rest ih =>
    rw [List.cons_append, hashedFrom, ih, hashedFrom, List.append_assoc]
    congr 3
    cases rest with
    | nil => rfl
    | cons r rs =>
      rw [List.getLast?_cons_cons]
      cases hlast : (r :: rs).getLast? with
      | none => simp at hlast
      | some final => rfl

variable [Sha256]

theorem payloadFingerprint_eq_ok {payload : Dict String PayloadValue} {fingerprint : String} :
    L.payloadFingerprint payload = .ok fingerprint ↔
      ∃ tree, L.payloadTree payload = .ok tree ∧ fingerprint = Sha256.hexdigest tree := by
  simp only [payloadFingerprint, payloadTree, except_bind_eq_ok, except_pure_eq_ok]
  constructor
  · rintro ⟨rows, hrows, rfl⟩
    exact ⟨_, ⟨rows, hrows, rfl⟩, rfl⟩
  · rintro ⟨_, ⟨rows, hrows, rfl⟩, rfl⟩
    exact ⟨rows, hrows, rfl⟩

/-- the digest does not collide between two lists of trees -/
def CollisionFree (xs ys : List Json) : Prop :=
  ∀ x ∈ xs, ∀ y ∈ ys, Sha256.hexdigest x = Sha256.hexdigest y → x = y

variable {paymentId key : String}

omit [Sha256] in
theorem commitmentTree_inj {previous previous' paymentId' : String} {record record' : HistoryRecord}
    (h : L.commitmentTree previous paymentId record = L.commitmentTree previous' paymentId' record')
    (hcommitment : record.commitment = record'.commitment) : previous = previous' ∧ record = record' := by
  have hrows := Json.ofRows_inj h
  simp only [List.cons.injEq, and_true, true_and] at hrows
  obtain ⟨hprevious, -, hoperation, hkey, hfingerprint, heventId⟩ := hrows
  obtain ⟨key, operation, fingerprint, eventId, commitment⟩ := record
  obtain ⟨key', operation', fingerprint', eventId', commitment'⟩ := record'
  simp only at hcommitment hoperation hkey hfingerprint heventId
  subst hcommitment hoperation hkey hfingerprint heventId
  exact ⟨hprevious, rfl⟩

/-! ## Histories -/

theorem replayRecord_link {p q : Replay S} {record : HistoryRecord} (h : L.replayRecord ctx state p record = .ok q) :
    record.commitment = Sha256.hexdigest (L.commitmentTree p.commitment state.paymentId record) ∧
      record.commitment ≠ "" ∧ q.commitment = record.commitment := by
  obtain ⟨_, _, _, _, _, _, -, -, -, hdigest, -, -, -, -, -, -, -, hlink, -, -, -, rfl⟩ := replayRecord_eq_ok.1 h
  refine ⟨hlink, ?_, rfl⟩
  intro hempty
  rw [hempty] at hdigest
  cases hdigest

/-- **One commitment, one history.** -/
theorem chain_unique {xs ys : List HistoryRecord} {p q : Replay S}
    (hx : L.replayRecords ctx state L.replayStart xs = .ok p) (hy : L.replayRecords ctx state' L.replayStart ys = .ok q)
    (hsame : p.commitment = q.commitment)
    (hfree : CollisionFree (L.hashedFrom ctx state "" xs) (L.hashedFrom ctx state' "" ys)) : xs = ys := by
  induction xs using List.reverseRecOn generalizing ys p q with
  | nil =>
    induction ys using List.reverseRecOn with
    | nil => rfl
    | append_singleton rest record _ =>
      obtain ⟨q', -, hy⟩ := replayRecords_concat.1 hy
      obtain ⟨-, hne, hq⟩ := replayRecord_link hy
      cases hx
      exact absurd (hsame.trans hq).symm hne
  | append_singleton xs x ih =>
    obtain ⟨p', hxs, hx⟩ := replayRecords_concat.1 hx
    obtain ⟨hlink, hne, hp⟩ := replayRecord_link hx
    induction ys using List.reverseRecOn with
    | nil =>
      cases hy
      exact absurd (hp.symm.trans hsame) hne
    | append_singleton ys y _ =>
      obtain ⟨q', hys, hy⟩ := replayRecords_concat.1 hy
      obtain ⟨hlink', -, hq⟩ := replayRecord_link hy
      rw [hashedFrom_append, hashedFrom_append, ← (replayRecords_seen hxs).commitment,
        ← (replayRecords_seen hys).commitment] at hfree
      have hcommitment : x.commitment = y.commitment := hp.symm.trans (hsame.trans hq)
      -- the last links agree, so what they commit to agrees, the previous commitment included
      have htree := hfree _ (List.mem_append_right _ (List.mem_cons_self ..)) _
        (List.mem_append_right _ (List.mem_cons_self ..)) (hlink.symm.trans (hcommitment.trans hlink'))
      obtain ⟨hprevious, rfl⟩ := commitmentTree_inj htree hcommitment
      have hrest := ih hxs hys hprevious fun t ht u hu => hfree t (List.mem_append_left _ ht) u (List.mem_append_left _ hu)
      rw [hrest]

/-! ## Opening data -/

omit [Sha256] in
/-- the rows of a payload, entry by entry -/
theorem payloadRows_mem {noun : String} {items : List (String × PayloadValue)} {rows : List (List String)}
    (h : payloadRows noun items = .ok rows) (key : String) :
    (∀ s, (key, .text s) ∈ items ↔ [key, "str", s] ∈ rows) ∧
      (∀ d, (key, .decimal d) ∈ items → [key, "decimal", d.text] ∈ rows) ∧
      ∀ t, [key, "decimal", t] ∈ rows → ∃ d : Decimal, (key, .decimal d) ∈ items ∧ d.text = t := by
  induction items generalizing rows with
  | nil =>
    cases h
    simp
  | cons p rest ih =>
    obtain ⟨k, value⟩ := p
    cases value with
    | other => cases h
    | text t =>
      simp only [payloadRows, except_bind_eq_ok, except_pure_eq_ok] at h
      obtain ⟨row, hrow, rows', hrows, rfl⟩ := h
      obtain ⟨htext, hdecimal, hback⟩ := ih hrows
      cases hrow
      refine ⟨fun s => ?_, fun d hd => ?_, fun u hu => ?_⟩
      · simp [htext s]
      · simpa using hdecimal d (by simpa using hd)
      · simpa using hback u (by simpa using hu)
    | decimal d =>
      simp only [payloadRows, except_bind_eq_ok, except_pure_eq_ok] at h
      obtain ⟨row, hrow, rows', hrows, rfl⟩ := h
      obtain ⟨htext, hdecimal, hback⟩ := ih hrows
      cases hrow
      refine ⟨fun s => ?_, fun d' hd => ?_, fun u hu => ?_⟩
      · simp [htext s]
      · simp only [List.mem_cons, Prod.mk.injEq, PayloadValue.decimal.injEq] at hd
        rcases hd with ⟨rfl, rfl⟩ | hd
        · exact List.mem_cons_self ..
        · exact List.mem_cons_of_mem _ (hdecimal d' hd)
      · rcases List.mem_cons.1 hu with hu | hu
        · simp only [List.cons.injEq, and_true, true_and] at hu
          exact ⟨d, by simp [hu.1], hu.2.symm⟩
        · obtain ⟨d', hd', ht⟩ := hback u hu
          exact ⟨d', List.mem_cons_of_mem _ hd', ht⟩

section Trees

variable {payload payload' : Dict String PayloadValue} {tree : Json}

omit [Sha256] in
theorem payloadTree_rows (h : L.payloadTree payload = .ok tree) (h' : L.payloadTree payload' = .ok tree) :
    ∃ rows, payloadRows L.noun (payload.items.insertionSort fun p q => p.1 ≤ q.1) = .ok rows ∧
      payloadRows L.noun (payload'.items.insertionSort fun p q => p.1 ≤ q.1) = .ok rows := by
  simp only [payloadTree, except_bind_eq_ok, except_pure_eq_ok] at h h'
  obtain ⟨rows, hrows, rfl⟩ := h
  obtain ⟨rows', hrows', heq⟩ := h'
  exact ⟨rows, hrows, Json.ofRows_inj heq ▸ hrows'⟩

omit [Sha256] in
theorem payloadTree_text (h : L.payloadTree payload = .ok tree) (h' : L.payloadTree payload' = .ok tree)
    {key s s' : String} (hs : payload.get? key = some (.text s)) (hs' : payload'.get? key = some (.text s')) :
    s = s' := by
  obtain ⟨rows, hrows, hrows'⟩ := payloadTree_rows h h'
  have hrow := ((payloadRows_mem hrows key).1 s).1 ((List.mem_insertionSort _).2 (Dict.get?_eq_some.1 hs))
  have hmem := (List.mem_insertionSort _).1 (((payloadRows_mem hrows' key).1 s).2 hrow)
  have heq := (Dict.get?_eq_some.2 hmem).symm.trans hs'
  cases heq
  rfl

omit [Sha256] in
theorem payloadTree_decimal (h : L.payloadTree payload = .ok tree) (h' : L.payloadTree payload' = .ok tree)
    {key : String} {d d' : Decimal} (hd : payload.get? key = some (.decimal d))
    (hd' : payload'.get? key = some (.decimal d')) : d.text = d'.text := by
  obtain ⟨rows, hrows, hrows'⟩ := payloadTree_rows h h'
  have hrow := (payloadRows_mem hrows key).2.1 d ((List.mem_insertionSort _).2 (Dict.get?_eq_some.1 hd))
  obtain ⟨d'', hmem, htext⟩ := (payloadRows_mem hrows' key).2.2 _ hrow
  have heq := (Dict.get?_eq_some.2 ((List.mem_insertionSort _).1 hmem)).symm.trans hd'
  cases heq
  exact htext.symm

end Trees

omit [Sha256] in
theorem requestPayload_get? (hL : Tables L) {operation : O} (hopen : L.isOpening operation = true)
    (paymentId key : String) (o : Opening R) {p : String × PayloadValue}
    (hp : p ∈ [("payment_id", .text paymentId), ("amount", .decimal o.amount), ("currency", .text o.currency)] ++
      L.roles.map (fun role => (L.roleKey role, .text (o.accounts role))) ++
      [("actor_id", .text o.actorId), ("counterparty_id", .text o.counterpartyId),
        ("campaign_id", .text o.campaignId), ("trace_id", .text o.traceId), ("fee", .decimal o.fee),
        ("idempotency_key", .text key)]) :
    (L.requestPayload ⟨operation, paymentId, key, some o⟩).get? p.1 = some p.2 := by
  have hkeys := hL.payloadKeys operation
  rw [expectedKeys, if_pos hopen] at hkeys
  rw [Dict.get?_eq_some, requestPayload, Dict.items_ofList]
  · exact hp
  · simpa [Function.comp_def] using hkeys

omit [Sha256] in
/-- two canonical amounts of one currency with the same text are equal -/
theorem money_text_inj {label currency : String} {a b : Decimal} {positive : Bool}
    (ha : money ctx label a currency positive = .ok a) (hb : money ctx label b currency positive = .ok b)
    (h : a.text = b.text) : a = b := by
  obtain ⟨k, hk, hqa, hna, -⟩ := money_eq_ok ha
  obtain ⟨k', hk', hqb, hnb, -⟩ := money_eq_ok hb
  obtain rfl : k = k' := Option.some.inj (hk.symm.trans hk')
  have hle := currencyExponent?_le hk
  have hea := (Decimal.quantize_spec hqa).1
  have heb := (Decimal.quantize_spec hqb).1
  exact Decimal.text_inj (Decimal.value_nonneg.1 hna) (Decimal.value_nonneg.1 hnb) (hea.trans heb.symm)
    (by rw [heb]; omega) (by rw [heb]; omega) h

/-- **One fingerprint, one opening.** -/
theorem ValidState.opening_unique (hL : Tables L) (hroles : ∀ r, r ∈ L.roles) (h : ValidState L ctx state paymentId)
    (h' : ValidState L ctx state' paymentId) {operation : O} (hopen : L.isOpening operation = true) {tree : Json}
    (ht : L.payloadTree (L.requestPayload ⟨operation, paymentId, key, some state.opening⟩) = .ok tree)
    (ht' : L.payloadTree (L.requestPayload ⟨operation, paymentId, key, some state'.opening⟩) = .ok tree) :
    state.opening = state'.opening := by
  have htext : ∀ k s s', (L.requestPayload ⟨operation, paymentId, key, some state.opening⟩).get? k = some (.text s) →
      (L.requestPayload ⟨operation, paymentId, key, some state'.opening⟩).get? k = some (.text s') → s = s' :=
    fun k s s' => payloadTree_text ht ht'
  have hget := fun p hp => @requestPayload_get? _ _ _ L hL operation hopen paymentId key state.opening p hp
  have hget' := fun p hp => @requestPayload_get? _ _ _ L hL operation hopen paymentId key state'.opening p hp
  have hcurrency := htext _ _ _ (hget ("currency", .text state.opening.currency) (by simp))
    (hget' ("currency", .text state'.opening.currency) (by simp))
  have hactor := htext _ _ _ (hget ("actor_id", .text state.opening.actorId) (by simp))
    (hget' ("actor_id", .text state'.opening.actorId) (by simp))
  have hcounterparty := htext _ _ _ (hget ("counterparty_id", .text state.opening.counterpartyId) (by simp))
    (hget' ("counterparty_id", .text state'.opening.counterpartyId) (by simp))
  have hcampaign := htext _ _ _ (hget ("campaign_id", .text state.opening.campaignId) (by simp))
    (hget' ("campaign_id", .text state'.opening.campaignId) (by simp))
  have htrace := htext _ _ _ (hget ("trace_id", .text state.opening.traceId) (by simp))
    (hget' ("trace_id", .text state'.opening.traceId) (by simp))
  have haccounts : state.opening.accounts = state'.opening.accounts := by
    funext r
    refine htext _ _ _ (hget (L.roleKey r, .text (state.opening.accounts r)) ?_)
      (hget' (L.roleKey r, .text (state'.opening.accounts r)) ?_) <;>
    exact List.mem_append_left _ (List.mem_append_right _ (List.mem_map.2 ⟨r, hroles r, rfl⟩))
  have hamount := money_text_inj h.amount (hcurrency ▸ h'.amount) (payloadTree_decimal ht ht'
    (hget ("amount", .decimal state.opening.amount) (by simp))
    (hget' ("amount", .decimal state'.opening.amount) (by simp)))
  have hfee := money_text_inj h.fee (hcurrency ▸ h'.fee) (payloadTree_decimal ht ht'
    (hget ("fee", .decimal state.opening.fee) (by simp)) (hget' ("fee", .decimal state'.opening.fee) (by simp)))
  revert hcurrency hactor hcounterparty hcampaign htrace haccounts hamount hfee
  obtain ⟨amount, currency, accounts, actorId, counterpartyId, campaignId, traceId, fee⟩ := state.opening
  obtain ⟨amount', currency', accounts', actorId', counterpartyId', campaignId', traceId', fee'⟩ := state'.opening
  rintro rfl rfl rfl rfl rfl rfl rfl rfl
  rfl

/-! ## Uniqueness -/

/-- the first record of a valid state is a digest of its opening data -/
theorem ValidState.first_tree (h : ValidState L ctx state paymentId) {record : HistoryRecord}
    {rest : List HistoryRecord} (hrecords : state.records = record :: rest) :
    ∃ operation tree, L.operations.find? (fun o => L.operationName o = record.operation) = some operation ∧
      L.isOpening operation = true ∧
      L.payloadTree (L.requestPayload ⟨operation, paymentId, record.key, some state.opening⟩) = .ok tree ∧
      record.fingerprint = Sha256.hexdigest tree ∧ tree ∈ L.hashed ctx state := by
  obtain ⟨p, hp, -, -⟩ := h.replayed
  rw [hrecords, replayRecords, except_bind_eq_ok] at hp
  obtain ⟨p', hfirst, -⟩ := hp
  obtain ⟨operation, _, command, _, _, _, hkey, hfind, -, -, -, -, -, -, -, hcommand, hfp, -, hbegin, -⟩ :=
    replayRecord_eq_ok.1 hfirst
  have hopen : L.isOpening operation = true := by simpa [replayStart] using hbegin
  have hrequest : L.commandFromRecord ctx operation record.key state =
      .ok ⟨operation, paymentId, record.key, some state.opening⟩ := by
    rw [commandFromRecord, if_pos hopen, h.openingRequest operation hkey, h.paymentId]
  rw [hrequest, Except.ok.injEq] at hcommand
  subst hcommand
  obtain ⟨tree, htree, hdigest⟩ := payloadFingerprint_eq_ok.1 hfp
  refine ⟨operation, tree, hfind, hopen, htree, hdigest, ?_⟩
  have hrecord : L.recordTree ctx state record = [tree] := by
    unfold recordTree
    simp only [hfind, hrequest]
    change (match L.payloadTree _ with
      | .ok tree => [tree]
      | .error _ => []) = [tree]
    rw [htree]
  rw [hashed, hrecords, hashedFrom, hrecord]
  simp

/-- **A valid state is determined** by its payment id and its history commitment. -/
theorem ValidState.unique (hL : Tables L) (hroles : ∀ r, r ∈ L.roles) (h : ValidState L ctx state paymentId)
    (h' : ValidState L ctx state' paymentId) (hbegun : state.records ≠ [])
    (hsame : state.historyCommitment = state'.historyCommitment)
    (hfree : CollisionFree (L.hashed ctx state) (L.hashed ctx state')) : state = state' := by
  obtain ⟨p, hp, hstate, hcommitment⟩ := h.replayed
  obtain ⟨q, hq, hstate', hcommitment'⟩ := h'.replayed
  have hrecords : state.records = state'.records :=
    chain_unique hp hq (hcommitment.trans (hsame.trans hcommitment'.symm)) hfree
  obtain ⟨record, rest, hfirst⟩ := List.exists_cons_of_ne_nil hbegun
  have hopening : state.opening = state'.opening := by
    obtain ⟨operation, tree, hfind, hopen, htree, hdigest, hmem⟩ := h.first_tree hfirst
    obtain ⟨operation', tree', hfind', -, htree', hdigest', hmem'⟩ := h'.first_tree (hrecords.symm.trans hfirst)
    obtain rfl : operation = operation' := Option.some.inj (hfind.symm.trans hfind')
    obtain rfl := hfree tree hmem tree' hmem' (hdigest.symm.trans hdigest')
    exact h.opening_unique hL hroles h' hopen htree htree'
  have hid : state.paymentId = state'.paymentId := h.paymentId.trans h'.paymentId.symm
  have hpq : p = q := by
    rw [hrecords, replayRecords_congr hid hopening, hq, Except.ok.injEq] at hp
    exact hp.symm
  have hlast : state.lastEventId = state'.lastEventId := by rw [h.last, h'.last, hrecords]
  have hfinal : state.state = state'.state := by rw [← hstate, ← hstate', hpq]
  obtain ⟨st, pid, o, last, commitment, records⟩ := state
  obtain ⟨st', pid', o', last', commitment', records'⟩ := state'
  simp only at hid hopening hlast hfinal hsame hrecords
  subst hid hopening hlast hfinal hsame hrecords
  rfl

/-! ## Isolated corruption -/

variable [DecidableEq S] {uuidPrefix uuidSequence : ℕ} {paymentId : String}

/-- only one field of a mapping differs: it has another value, is missing, or is one too many -/
structure Tampered (m m' : Dict String StoredValue) (key : String) : Prop where
  field : m'.get? key ≠ m.get? key
  others : ∀ k, k ≠ key → m'.get? k = m.get? k

/-- **Isolated corruption is detected.** -/
theorem Stored.tampered (K : Schema L) (hL : Tables L) (h : Stored L ctx uuidPrefix uuidSequence paymentId state)
    {m : Dict String StoredValue} (hm : Tampered (L.mapping state) m key)
    (hfree : CollisionFree (L.hashed ctx state) (K.hashed ctx m)) :
    K.validatedMapping ctx m paymentId = .error L.stateCorrupt := by
  refine K.validatedMapping_refused fun state' haccepted => ?_
  obtain ⟨hread, hcheck⟩ := K.validatedMapping_eq_ok.1 haccepted
  have hvalid' := checkState_iff.1 hcheck
  have hget := K.readState_eq_ok.1 hread
  -- what a field other than the changed one says of the two states
  have hfield : ∀ p ∈ L.fields state, ∀ v, (p.1, v) ∈ L.fields state' → p.1 ≠ key → p.2 = v := by
    intro p hp v hv hne
    have h₁ := K.get?_mapping hp
    have h₂ := K.get?_mapping hv
    rw [← hm.others _ hne, hget, h₂] at h₁
    exact (Option.some.inj h₁).symm
  have hsame : state.historyCommitment = state'.historyCommitment := by
    rcases ne_or_eq "history_commitment" key with hne | rfl
    · have := hfield ("history_commitment", .text state.historyCommitment) (by simp [fields])
        (.text state'.historyCommitment) (by simp [fields]) hne
      exact StoredValue.text.inj this
    · have hvalues := hfield ("idempotency_records", .tuple (state.records.map HistoryRecord.value)) (by simp [fields])
        (.tuple (state'.records.map HistoryRecord.value)) (by simp [fields]) (by simp)
      have hrecords : state.records = state'.records :=
        List.map_injective_iff.2 Schema.value_injective (StoredValue.tuple.inj hvalues)
      obtain ⟨p, hp, -, hcommitment⟩ := h.valid.replayed
      obtain ⟨q, hq, -, hcommitment'⟩ := hvalid'.replayed
      rw [← hcommitment, ← hcommitment', (replayRecords_seen hp).commitment, (replayRecords_seen hq).commitment, hrecords]
  have hhashed : K.hashed ctx m = L.hashed ctx state' := by
    rw [Schema.hashed, hread]
  have heq := h.valid.unique hL K.roles hvalid' h.begun hsame (hhashed ▸ hfree)
  exact hm.field ((hget key).trans (by rw [heq]))

/-- what `_validated_state` accepts and refuses of the states of an engine -/
structure StateIntegrity (K : Schema L) (ctx : DecimalContext) (s : Engine (Command O) (PaymentState S R) Unit) :
    Prop where
  /-- every stored state is accepted -/
  stored : ∀ paymentId state, s.entityState.get? paymentId = some state →
    K.validatedMapping ctx (L.mapping state) paymentId = .ok state
  /-- so is the state every command starts from -/
  loaded : ∀ command canonical state, L.canonicalCommand ctx command = .ok canonical →
    L.loadState canonical (s.entityState.get? canonical.paymentId) = .ok state →
    K.validatedMapping ctx (L.mapping state) canonical.paymentId = .ok state
  /-- and the updated state of every command with a transition -/
  updated : ∀ command canonical state next kind effect fingerprint, L.canonicalCommand ctx command = .ok canonical →
    L.loadState canonical (s.entityState.get? canonical.paymentId) = .ok state →
    L.isIdempotentRetry state canonical = .ok false →
    L.transition state.state canonical.operation = some (next, kind, effect) →
    L.payloadFingerprint (L.requestPayload canonical) = .ok fingerprint → s.uuidSequence < 2 ^ 48 →
    K.validatedMapping ctx
        (L.mapping (L.advance state canonical next (Engine.uuidAt s.uuidPrefix s.uuidSequence) fingerprint))
        canonical.paymentId =
      .ok (L.advance state canonical next (Engine.uuidAt s.uuidPrefix s.uuidSequence) fingerprint)
  /-- whenever a command is taken, it is not refused for a corrupt state -/
  never : ∀ t command t', Engine.SameBooks s t → L.handle ctx command t ≠ .error L.stateCorrupt t'
  /-- isolated corruption of a stored state is refused -/
  tampered : ∀ paymentId state m key, s.entityState.get? paymentId = some state → Tampered (L.mapping state) m key →
    CollisionFree (K.hashed ctx (L.mapping state)) (K.hashed ctx m) →
    K.validatedMapping ctx m paymentId = .error L.stateCorrupt

theorem Sound.integrity (hdigest : ∀ j, isDigestText (Sha256.hexdigest j) = true) (K : Schema L) (hL : Tables L)
    (hcode : OwnCode L) {s : Engine (Command O) (PaymentState S R) Unit} (hs : Sound L ctx s) :
    StateIntegrity K ctx s := by
  have haccepted : ∀ {state : PaymentState S R} {paymentId : String}, ValidState L ctx state paymentId →
      K.validatedMapping ctx (L.mapping state) paymentId = .ok state := by
    intro state paymentId h
    rw [K.validatedMapping_mapping, validatedState_iff.2 h]
    rfl
  refine ⟨?_, ?_, ?_, ?_, ?_⟩
  · intro paymentId state hget
    exact haccepted (hs.stored _ _ hget).valid
  · intro command canonical state hcanonical hloaded
    exact haccepted (hs.loaded (canonicalCommand_wellformed hcanonical) hloaded).1
  · intro command canonical state next kind effect fingerprint hcanonical hloaded hretry hlegal hfp hsequence
    exact haccepted (validatedState_iff.1
      (hs.updated hdigest hL hcanonical hloaded hretry hlegal hfp hsequence))
  · intro t command t' hsame
    have ht : Sound L ctx t := hs.congr (by rw [hsame]) (by rw [hsame]) (by rw [hsame])
    exact ht.handle_ne hdigest hL hcode command
  · intro paymentId state m key hget hm hfree
    have hhashed : K.hashed ctx (L.mapping state) = L.hashed ctx state := by
      rw [Schema.hashed, K.readState_mapping]
    exact (hs.stored _ _ hget).tampered K hL hm (hhashed ▸ hfree)

end Lifecycle

/-! ## Runs -/

namespace Card

/-- a digest text with a number below 256 -/
def digestOf (n : ℕ) : String :=
  String.ofList (List.replicate 62 '0' ++ [Uuid.hexChar (n / 16 % 16), Uuid.hexChar (n % 16)])

theorem isDigestText_digestOf (n : ℕ) : isDigestText (digestOf n) = true := by
  have hhex : ∀ k, Uuid.hexChar (k % 16) ∈ hexChars := by
    have key : ∀ a < 16, Uuid.hexChar a ∈ hexChars := by decide
    exact fun k => key _ (Nat.mod_lt _ (by norm_num))
  have hzero : '0' ∈ hexChars := by decide
  simp [isDigestText, digestOf, hhex, hzero]

end Card

end Apar
