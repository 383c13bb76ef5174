/-
Runs of the account-to-account rail.

- `a2a_net_effect`: over any run, the entries posted for a transfer add up to its state's position, and the balances are
  the opening balances plus all positions as long as no balance outgrows the decimal context.
- `a2a_balance_rounds`: at 10^28 minor units a balance loses the cents of a transfer.
-/
import Apar.Simulator.Rails.Progress

namespace Apar

open Exec Engine Lifecycle

/-- **A2A positions.** In every healthy state of every run, the entries posted for a transfer add up to the position of
its stored state, an id without a stored transfer has no net effect, and, as long as no exact balance outgrows the
decimal context, every balance is its opening balance plus the positions of all transfers. -/
theorem a2a_net_effect [Sha256] (ctx : DecimalContext) {opening : Dict AccountReference Decimal}
    {allow : List AccountReference} {ledger : Ledger} (hledger : Ledger.create ctx opening allow = .ok ledger)
    (rail : Rail) (viewpoint : String) (head b6 b7 b8 b9 : ℕ) (start : Time)
    (calls : List (Engine.EngineCall (Command A2AOperation))) (s : A2AEngine)
    (hs : s = Engine.afterCalls (a2aRail.adapter ctx)
      (Engine.fresh rail viewpoint (Engine.versionedPrefix head b6 b7 b8 b9) start ledger ()) calls)
    (hf : s.failure = none) :
    (∀ paymentId state, s.entityState.get? paymentId = some state → ∀ account currency,
      Ledger.netEffect (paymentEntries s paymentId) account currency =
        positionOn a2aPositions state account currency) ∧
    (∀ paymentId, s.entityState.get? paymentId = none → ∀ account currency,
      Ledger.netEffect (paymentEntries s paymentId) account currency = 0) ∧
    (Ledger.Exact ctx ledger s.ledger.entries → ∀ account currency k, currencyExponent? currency = some k →
      (s.ledger.balance account currency).value = (ledger.balance account currency).value +
        (s.entityState.items.map fun p => positionOn a2aPositions p.2 account currency).sum) := by
  have hinv : Inv a2aPositions ctx ledger s := by
    subst hs
    exact Engine.calls_inv (inv_preserved a2aPositions ctx ledger) calls
      (inv_fresh a2aPositions hledger rail viewpoint (Engine.versionedPrefix_lt ..) start) hf
  refine ⟨?_, ?_, fun hexact account currency k hk => hinv.balances hexact hk⟩
  · intro paymentId state hstate account currency
    rw [hinv.net, storedPosition, hstate]
    rfl
  · intro paymentId hnone account currency
    rw [hinv.net, storedPosition, hnone]
    rfl

namespace A2A

/-- one digest for every payload, to evaluate a run -/
@[reducible] def sampleDigest : Sha256 := ⟨fun _ => String.ofList (List.replicate 64 '0'), fun _ => ""⟩

/-- a two-cent transfer -/
def samplePayload : Dict String PayloadValue := .ofList [
  ("payment_id", .text "p1"), ("amount", .decimal ⟨2, -2⟩), ("currency", .text "USD"),
  ("payer_account", .text "payer"), ("payee_account", .text "payee"), ("fee_account", .text "a2a:fees"),
  ("frozen_account", .text "a2a:frozen"),
  ("actor_id", .text (Uuid.formatUuid 1)), ("counterparty_id", .text (Uuid.formatUuid 2)),
  ("campaign_id", .text (Uuid.formatUuid 3)), ("trace_id", .text (Uuid.formatUuid 4)),
  ("fee", .decimal ⟨0, -2⟩), ("idempotency_key", .text "a2a.initiate:p1")]

def sampleFollowup (operation : A2AOperation) : Command A2AOperation :=
  ⟨some operation, operationName operation, .ofList [
    ("payment_id", .text "p1"), ("idempotency_key", .text (operationName operation ++ ":p1"))]⟩

def sampleCalls : List (Engine.EngineCall (Command A2AOperation)) :=
  [.schedule 0 0 ⟨some .initiateA2A, "a2a.initiate", samplePayload⟩, .schedule 0 1 (sampleFollowup .acceptA2A),
    .schedule 0 2 (sampleFollowup .postA2A), .run 3 none]

/-- a payee one cent below 10^26 dollars; the payer is on credit -/
def sampleOpening : Dict AccountReference Decimal :=
  .ofList [(.account "payee", ⟨10 ^ 28 - 1, -2⟩)]

def sampleLedger : Ledger := ((Ledger.create .default sampleOpening [.account "payer"]).toOption).getD ⟨[], ∅, [], []⟩

def sampleRun : A2AEngine :=
  letI := sampleDigest
  Engine.afterCalls (a2aRail.adapter .default)
    (Engine.fresh .a2a "development" (Engine.versionedPrefix 1 2 3 4 5) 0 sampleLedger ()) sampleCalls

theorem sampleLedger_created : Ledger.create .default sampleOpening [.account "payer"] = .ok sampleLedger := by
  unfold sampleLedger
  have hok : (Ledger.create .default sampleOpening [.account "payer"]).toOption.isSome = true := by decide +kernel
  cases h : Ledger.create .default sampleOpening [.account "payer"] with
  | ok l => rfl
  | error e => simp [h, Except.toOption] at hok

theorem sampleDigest_text (j : Json) : isDigestText (sampleDigest.hexdigest j) = true := by
  show isDigestText (String.ofList (List.replicate 64 '0')) = true
  rw [isDigestText, String.toList_ofList]
  decide

def sampleOpen : Opening A2ARole where
  amount := ⟨2, -2⟩
  currency := "USD"
  accounts
    | .payer => "payer"
    | .payee => "payee"
    | .fee => "a2a:fees"
    | .frozen => "a2a:frozen"
  actorId := Uuid.formatUuid 1
  counterpartyId := Uuid.formatUuid 2
  campaignId := Uuid.formatUuid 3
  traceId := Uuid.formatUuid 4
  fee := ⟨0, -2⟩

theorem sampleOpen_request : a2aRail.openingRequest .default .initiateA2A "p1" "a2a.initiate:p1" sampleOpen =
    .ok ⟨.initiateA2A, "p1", "a2a.initiate:p1", some sampleOpen⟩ :=
  openingRequest_cents rfl rfl rfl (by norm_num) (by norm_num) (by norm_num) rfl
    (checkUuid_formatUuid (by norm_num) _) (checkUuid_formatUuid (by norm_num) _) (checkUuid_formatUuid (by norm_num) _)
    (checkUuid_formatUuid (by norm_num) _) (by decide) (by decide)

/-- the sample calls as a plan -/
def samplePlan : List (Planned (Request A2AOperation A2ARole)) :=
  [(0, 0, ⟨.initiateA2A, "p1", "a2a.initiate:p1", some sampleOpen⟩), (0, 1, ⟨.acceptA2A, "p1", "a2a.accept:p1", none⟩),
    (0, 2, ⟨.postA2A, "p1", "a2a.post:p1", none⟩)]

theorem samplePlan_wellformed : ∀ c ∈ samplePlan, Wellformed a2aRail .default c.2.2 := by
  intro c hc
  simp only [samplePlan, List.mem_cons, List.not_mem_nil, or_false] at hc
  rcases hc with rfl | rfl | rfl
  · exact wellformed_opening rfl sampleOpen_request
  · exact wellformed_followup rfl (by decide) (by decide)
  · exact wellformed_followup rfl (by decide) (by decide)

/-- what the run leaves: its health, its last balance and its one payment -/
theorem sampleRun_eval : sampleRun.failure = none ∧
    sampleRun.ledger.balance "payee" "USD" = ⟨10 ^ 27, -1⟩ ∧
    (sampleRun.entityState.items.map fun p => (p.2.state, p.2.opening.amount, p.2.opening.currency,
      [A2ARole.payer, .payee, .fee, .frozen].map p.2.opening.accounts)) =
      [(.posted, ⟨2, -2⟩, "USD", ["payer", "payee", "a2a:fees", "a2a:frozen"])] := by
  let _ := sampleDigest
  have heval : (Book.moves a2aRail .default "development" (versionedPrefix 1 2 3 4 5) ⟨sampleLedger, ∅, [], 0⟩
      samplePlan).any (fun b => decide (b.ledger.balance "payee" "USD" = ⟨10 ^ 27, -1⟩ ∧
        (b.payments.items.map fun p => (p.2.state, p.2.opening.amount, p.2.opening.currency,
          [A2ARole.payer, .payee, .fee, .frozen].map p.2.opening.accounts)) =
          [(.posted, ⟨2, -2⟩, "USD", ["payer", "payee", "a2a:fees", "a2a:frozen"])])) = true := by
    decide +kernel
  obtain ⟨s, b, hrun, hhealthy, hkeeps, hholds⟩ := plan_evaluated sampleDigest_text a2a_tables a2aPositions.roles
    "development" 1 2 3 4 5 samplePlan_wellformed (by decide : ∀ c ∈ samplePlan, (0 : Time) ≤ c.1) (by decide) heval
  obtain ⟨hbalance, hitems⟩ := of_decide_eq_true hholds
  have hsame : sampleRun = s := hrun
  rw [hsame]
  refine ⟨hhealthy, ?_, ?_⟩
  · rw [hkeeps.ledger, hbalance]
  · rw [← hitems, ← hkeeps.payments, List.map_map]
    rfl

end A2A

theorem a2a_net_effect_sample : ∃ paymentId state, A2A.sampleRun.entityState.get? paymentId = some state ∧
    ∀ account currency, Ledger.netEffect (paymentEntries A2A.sampleRun paymentId) account currency =
      positionOn a2aPositions state account currency := by
  letI := A2A.sampleDigest
  have hrun := (a2a_net_effect .default A2A.sampleLedger_created .a2a "development" 1 2 3 4 5 0 A2A.sampleCalls
    A2A.sampleRun rfl A2A.sampleRun_eval.1).1
  obtain ⟨p, hitems, -⟩ := List.map_eq_singleton_iff.1 A2A.sampleRun_eval.2.2
  have hp : p ∈ A2A.sampleRun.entityState.items := by simp [hitems]
  have hget := Dict.get?_eq_some.2 hp
  exact ⟨p.1, p.2, hget, hrun p.1 p.2 hget⟩

theorem A2A.sum_roles (g : A2ARole → ℚ) : ∑ r, g r = g .payer + g .payee + g .fee + g .frozen := by
  have huniv : (Finset.univ : Finset A2ARole) = {.payer, .payee, .fee, .frozen} := rfl
  rw [huniv]
  simp
  ring

/-- **A balance that outgrows the context is rounded.** The payee ends at 10^26 dollars: its exact value, opening plus
positions, is a cent more. -/
theorem a2a_balance_rounds : A2A.sampleRun.failure = none ∧
    (A2A.sampleRun.ledger.balance "payee" "USD").value ≠
      (A2A.sampleLedger.balance "payee" "USD").value +
        (A2A.sampleRun.entityState.items.map fun p => positionOn a2aPositions p.2 "payee" "USD").sum := by
  have hopening : A2A.sampleLedger.balance "payee" "USD" = ⟨10 ^ 28 - 1, -2⟩ := by decide +kernel
  obtain ⟨hhealthy, hbalance, hitems⟩ := A2A.sampleRun_eval
  refine ⟨hhealthy, ?_⟩
  generalize A2A.sampleRun.entityState.items = items at hitems
  obtain ⟨p, rfl, hp⟩ := List.map_eq_singleton_iff.1 hitems
  simp only [Prod.mk.injEq, List.map_cons, List.map_nil, List.cons.injEq, and_true] at hp
  obtain ⟨hstate, hamount, hcurrency, hpayer, hpayee, hfee, hfrozen⟩ := hp
  rw [hbalance, hopening]
  simp [positionOn, A2A.sum_roles, hstate, hamount, hcurrency, hpayer, hpayee, hfee, hfrozen, a2aPositions,
    a2aPosition, Decimal.value]
  norm_num

end Apar
