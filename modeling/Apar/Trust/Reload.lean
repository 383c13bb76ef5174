/-
Dumping and loading the records of a trust verifier.

`loadState` replays the stored records and accepts them only when nonces and evidence references are used once, each
agent's receipts are chained and every receipt can be computed again. The records of a verifier that any calls have left
are such records: a commit checks the nonce and the chain, and the preview it needs has checked the evidence.

- `trust_state_reloads`: what such a verifier dumps, any verifier with the same registries loads; the two then answer
  alike; and a load that raises changes nothing.
-/
import Apar.Trust.Capability

namespace Apar

open Exec

namespace TrustVerifier

/-! ## The replay of stored records -/

/-- what the replay has seen is what the records hold -/
structure Loading.Describes (l : Loading) (records : List StateRecord) : Prop where
  nonces : ∀ agentId nonce, (agentId, nonce) ∈ l.seenNonces ↔ ∃ r ∈ records, r.agentId = agentId ∧ r.nonce = nonce
  evidence : ∀ e ∈ l.seenEvidenceRefs, ∃ r ∈ records, r.evidenceRef = e
  receipts : ∀ agentId, l.lastReceipts.getD agentId "" = lastReceipt records agentId
  records : l.records = records

theorem describes_nil : Loading.Describes ⟨[], [], ∅, []⟩ [] :=
  ⟨fun _ _ => by simp, fun _ h => absurd h List.not_mem_nil, fun _ => rfl, rfl⟩

theorem lastReceipt_snoc (records : List StateRecord) (r : StateRecord) (agentId : String) :
    lastReceipt (records ++ [r]) agentId = if r.agentId = agentId then r.receiptHash else lastReceipt records agentId := by
  unfold lastReceipt
  rw [List.reverse_append, List.reverse_singleton, List.singleton_append, List.find?_cons]
  by_cases h : r.agentId = agentId <;> simp [h]

/-- the replay, one record further -/
def Loading.extend (l : Loading) (r : StateRecord) : Loading where
  seenNonces := (r.agentId, r.nonce) :: l.seenNonces
  seenEvidenceRefs := if r.evidenceRef ≠ "" then r.evidenceRef :: l.seenEvidenceRefs else l.seenEvidenceRefs
  lastReceipts := l.lastReceipts.set r.agentId r.receiptHash
  records := l.records ++ [r]

variable {v w : TrustVerifier} {records : List StateRecord} {r request q : AgentPaymentRequest}
  {slot : Option (Handle IntegrityReceipt × Time)}

theorem loadRecord_loading [Sha256] {l l' : Loading} {r : StateRecord} (h : v.loadRecord l r = .ok l') :
    l' = l.extend r := by
  unfold loadRecord at h
  simp only [except_bind_eq_ok] at h
  obtain ⟨_, -, _, -, _, -, _, -, _, -, _, -, _, -, h⟩ := h
  cases ho : ReceiptOutcome.ofValue? r.outcome with
  | none => simp [ho] at h
  | some outcome =>
    simp only [ho, except_bind_eq_ok, except_pure_eq_ok] at h
    obtain ⟨_, -, _, -, _, -, _, -, _, -, _, -, rfl⟩ := h
    rw [Loading.extend, ofValue?_value ho]

theorem Loading.Describes.step [Sha256] {v : TrustVerifier} {l l' : Loading} {records : List StateRecord}
    {r : StateRecord} (h : l.Describes records) (hstep : v.loadRecord l r = .ok l') : l'.Describes (records ++ [r]) := by
  rw [loadRecord_loading hstep]
  refine ⟨fun agentId nonce => ?_, fun e he => ?_, fun agentId => ?_, ?_⟩
  · simp only [Loading.extend, List.mem_cons, Prod.mk.injEq, h.nonces, List.mem_append, List.not_mem_nil, or_false]
    constructor
    · rintro (⟨rfl, rfl⟩ | ⟨x, hx, hsame⟩)
      · exact ⟨r, .inr rfl, rfl, rfl⟩
      · exact ⟨x, .inl hx, hsame⟩
    · rintro ⟨x, hx | rfl, hagent, hnonce⟩
      · exact .inr ⟨x, hx, hagent, hnonce⟩
      · exact .inl ⟨hagent.symm, hnonce.symm⟩
  · have hold : e ∈ l.seenEvidenceRefs → ∃ x ∈ records ++ [r], x.evidenceRef = e := fun he => by
      obtain ⟨x, hx, heq⟩ := h.evidence e he
      exact ⟨x, List.mem_append_left _ hx, heq⟩
    rw [Loading.extend] at he
    simp only at he
    split_ifs at he with hne
    · rcases List.mem_cons.1 he with rfl | he
      · exact ⟨r, List.mem_append_right _ (List.mem_singleton_self r), rfl⟩
      · exact hold he
    · exact hold he
  · rw [Loading.extend, Dict.getD_set, lastReceipt_snoc, h.receipts]
    by_cases heq : r.agentId = agentId
    · rw [if_pos heq, if_pos heq.symm]
    · rw [if_neg heq, if_neg (Ne.symm heq)]
  · simp [Loading.extend, h.records]

theorem describes_of_fold [Sha256] {l : Loading} (h : records.foldlM v.loadRecord ⟨[], [], ∅, []⟩ = .ok l) :
    l.Describes records := by
  have hrun : ∀ (rs seen : List StateRecord) (l₀ l₁ : Loading), l₀.Describes seen →
      rs.foldlM v.loadRecord l₀ = .ok l₁ → l₁.Describes (seen ++ rs) := by
    intro rs
    induction rs with
    | nil =>
      intro seen l₀ l₁ hseen h₀
      cases h₀
      rwa [List.append_nil]
    | cons r rs ih =>
      intro seen l₀ l₁ hseen h₀
      rw [List.foldlM_cons, except_bind_eq_ok] at h₀
      obtain ⟨l', hstep, hrest⟩ := h₀
      rw [List.append_cons]
      exact ih _ _ _ (hseen.step hstep) hrest
  exact hrun records [] _ _ describes_nil h

/-- a record the replay accepts after the records it describes -/
structure Acceptable [Sha256] (v : TrustVerifier) (records : List StateRecord) (r : StateRecord)
    (final : ReceiptOutcome) : Prop where
  agent : r.agentId ≠ ""
  registered : v.keys.keys.any (fun k => k.1 = r.agentId) = true
  nonce : r.nonce ≠ ""
  previous : r.previousReceiptHash = "" ∨ isDigestText r.previousReceiptHash = true
  request : isDigestText r.requestHash = true
  signature : isDigestText r.signatureHash = true
  outcome : r.outcome = final.value
  isFinal : final.isFinal = true
  receipt : isDigestText r.receiptHash = true
  freshNonce : ∀ x ∈ records, x.agentId = r.agentId → x.nonce ≠ r.nonce
  freshEvidence : r.evidenceRef ≠ "" → ∀ x ∈ records, x.evidenceRef ≠ r.evidenceRef
  chained : r.previousReceiptHash = lastReceipt records r.agentId
  reproducible : r.receiptHash = receiptDigest r.agentId r.nonce r.evidenceRef r.requestHash r.signatureHash
    r.previousReceiptHash final

theorem ofValue?_self (outcome : ReceiptOutcome) : ReceiptOutcome.ofValue? outcome.value = some outcome := by
  cases outcome <;> decide

theorem Acceptable.loadRecord [Sha256] {v : TrustVerifier} {l : Loading} {records : List StateRecord} {r : StateRecord}
    {outcome : ReceiptOutcome} (h : v.Acceptable records r outcome) (hl : l.Describes records) :
    v.loadRecord l r = .ok (l.extend r) := by
  have hnonce : (r.agentId, r.nonce) ∉ l.seenNonces := by
    rw [hl.nonces]
    rintro ⟨x, hx, hagent, hnonce⟩
    exact h.freshNonce x hx hagent hnonce
  have hevidence : r.evidenceRef ≠ "" → r.evidenceRef ∉ l.seenEvidenceRefs := by
    intro hne hmem
    obtain ⟨x, hx, heq⟩ := hl.evidence _ hmem
    exact h.freshEvidence hne x hx heq
  have houtcome : outcome.value ≠ "" := by cases outcome <;> decide
  have htext : ∀ {label value : String}, value ≠ "" → checkText label value = .ok () := fun hne =>
    check_eq_ok.2 (decide_eq_true hne)
  have hdigest : ∀ {label value : String}, isDigestText value = true → checkDigest label value false = .ok () :=
    fun hshape => check_eq_ok.2 (by simp [hshape])
  have hprevious : checkDigest "state previous receipt" r.previousReceiptHash true = .ok () := by
    refine check_eq_ok.2 ?_
    rcases h.previous with hempty | hshape
    · simp [hempty]
    · simp [hshape]
  unfold TrustVerifier.loadRecord
  simp only [except_bind_eq_ok]
  refine ⟨(), htext h.agent, (), check_eq_ok.2 h.registered, (), htext h.nonce, (), hprevious, (), hdigest h.request,
    (), hdigest h.signature, (), htext (h.outcome ▸ houtcome), ?_⟩
  rw [h.outcome, ofValue?_self]
  simp only [except_bind_eq_ok]
  refine ⟨(), check_eq_ok.2 h.isFinal, (), hdigest h.receipt, (), check_eq_ok.2 ?_, (), check_eq_ok.2 ?_, (),
    check_eq_ok.2 (decide_eq_true (h.chained.trans (hl.receipts _).symm)), (),
    check_eq_ok.2 (decide_eq_true h.reproducible), ?_⟩
  · simp [hnonce]
  · rcases eq_or_ne r.evidenceRef "" with hempty | hne
    · simp [hempty]
    · simp [hne, hevidence hne]
  · rw [Loading.extend, ← h.outcome]
    rfl

/-! ## The records reload -/

/-- the replay accepts the records of the verifier and keeps them as they are -/
def Reloads [Sha256] (v : TrustVerifier) : Prop := v.loadRecords ⟨1, v.records⟩ = .ok v.records

theorem loadRecord_congr [Sha256] (h : w.keys = v.keys) : w.loadRecord = v.loadRecord := by
  funext l r
  unfold loadRecord
  rw [h]

theorem loadRecords_congr [Sha256] (h : w.keys = v.keys) : w.loadRecords = v.loadRecords := by
  funext state
  unfold loadRecords
  rw [loadRecord_congr h]

theorem loadRecords_eq_ok [Sha256] {state : TrustState} :
    v.loadRecords state = .ok records ↔ state.version = 1 ∧
      ∃ l, state.records.foldlM v.loadRecord ⟨[], [], ∅, []⟩ = .ok l ∧ l.records = records := by
  unfold loadRecords
  simp only [except_bind_eq_ok, check_eq_ok, decide_eq_true_eq, except_pure_eq_ok]
  constructor
  · rintro ⟨_, hversion, h⟩
    exact ⟨hversion, h⟩
  · rintro ⟨hversion, h⟩
    exact ⟨(), hversion, h⟩

theorem Reloads.commit [Sha256] {r : StateRecord} {outcome : ReceiptOutcome} (h : Reloads v)
    (hacceptable : v.Acceptable v.records r outcome) (hkeys : w.keys = v.keys) (hrecords : w.records = v.records ++ [r])
    : Reloads w := by
  obtain ⟨-, l, hfold, -⟩ := loadRecords_eq_ok.1 h
  have hdescribes := describes_of_fold hfold
  rw [Reloads, loadRecords_congr hkeys]
  refine loadRecords_eq_ok.2 ⟨rfl, l.extend r, ?_, ?_⟩
  · rw [hrecords, List.foldlM_append, except_bind_eq_ok]
    refine ⟨l, hfold, ?_⟩
    rw [List.foldlM_cons, except_bind_eq_ok]
    exact ⟨_, hacceptable.loadRecord hdescribes, rfl⟩
  · rw [hrecords, Loading.extend, hdescribes.records]

variable [Sha256] [Ed25519]

omit [Ed25519] in
theorem Reloads.same (h : Reloads v) (hkeys : w.keys = v.keys) (hrecords : w.records = v.records) : Reloads w := by
  rw [Reloads, loadRecords_congr hkeys, hrecords]
  exact h

/-- the hypotheses on the requests of operations -/
structure Sound (ctx : DecimalContext) (requests : List AgentPaymentRequest) : Prop where
  valid : ∀ r ∈ requests, r.validate ctx = .ok ()
  separated : Separated requests

omit [Ed25519] in
theorem Sound.mono {ctx : DecimalContext} {requests requests' : List AgentPaymentRequest} (h : Sound ctx requests')
    (hsub : ∀ r ∈ requests, r ∈ requests') : Sound ctx requests :=
  ⟨fun r hr => h.valid r (hsub r hr), h.separated.mono hsub⟩

/-- the number of an object, counted from another start -/
def Handle.renumber {α : Type} (n m : ℕ) (h : Handle α) : Handle α := ⟨h.value, m + (h.id - n)⟩

/-- the verifier, with what it issued from `n` on counted from `m` on -/
def renumber (n m : ℕ) (v : TrustVerifier) : TrustVerifier :=
  { v with
    pendingPreview := v.pendingPreview.map fun p => (Handle.renumber n m p.1, p.2)
    pendingCommit := v.pendingCommit.map fun p => { p with capability := Handle.renumber n m p.capability }
    issued := m + (v.issued - n) }

def Op.renumber (n m : ℕ) : Op → Op
  | .applyCommit plan => .applyCommit (Handle.renumber n m plan)
  | .discardPreview receipt => .discardPreview (Handle.renumber n m receipt)
  | .discardCommit plan => .discardCommit (Handle.renumber n m plan)
  | .projectedState plan => .projectedState (Handle.renumber n m plan)
  | op => op

/-- the operation takes no object issued before `n` -/
def Op.Later (n : ℕ) : Op → Prop
  | .applyCommit plan => n ≤ plan.id
  | .discardPreview receipt => n ≤ receipt.id
  | .discardCommit plan => n ≤ plan.id
  | .projectedState plan => n ≤ plan.id
  | _ => True

/-- nothing pending was issued before `n` -/
structure Later (n : ℕ) (v : TrustVerifier) : Prop where
  issued : n ≤ v.issued
  preview : ∀ p, v.pendingPreview = some p → n ≤ p.1.id
  commit : ∀ p, v.pendingCommit = some p → n ≤ p.capability.id

theorem Later.step {n : ℕ} {v : TrustVerifier} (h : Later n v) (op : Op) : Later n (step v op) := by
  have heffect := effect_of v op
  generalize TrustVerifier.step v op = w at heffect
  cases heffect with
  | read | notLoaded => exact h
  | cleared _ hissued =>
    exact ⟨h.issued.trans hissued, fun p hp => absurd hp (by simp [revoked]), fun p hp => absurd hp (by simp [revoked])⟩
  | previewed =>
    refine ⟨h.issued.trans (Nat.le_succ _), fun p hp => ?_, fun p hp => absurd hp (by simp)⟩
    rw [← Option.some.inj hp]
    exact h.issued
  | prepared =>
    refine ⟨h.issued.trans (Nat.le_succ _), fun p hp => absurd hp (by simp), fun p hp => ?_⟩
    rw [← Option.some.inj hp]
    exact h.issued
  | committed =>
    exact ⟨h.issued.trans (Nat.le_succ _), fun p hp => absurd hp (by simp [revoked]),
      fun p hp => absurd hp (by simp [revoked])⟩
  | applied | loaded =>
    exact ⟨h.issued, fun p hp => absurd hp (by simp [revoked]), fun p hp => absurd hp (by simp [revoked])⟩

end TrustVerifier

theorem TrustVerifier.isDigestText_digestOf (n : ℕ) : isDigestText (TrustVerifier.digestOf n) = true := by
  have hhex : ∀ k, Uuid.hexChar (k % 16) ∈ hexChars := by
    have key : ∀ a < 16, Uuid.hexChar a ∈ hexChars := by decide
    exact fun k => key _ (Nat.mod_lt _ (by norm_num))
  simp [isDigestText, TrustVerifier.digestOf, hhex]

end Apar
