/-
Queue reports (`cases/queue.py`): the cases of a queue are checked and ordered, given their slots, and reported with the
totals of the schedule, which the report's own validators compute again.

- `allocateFrom_append`: the allocator looks at no later case.
- `peakBacklog_isGreatest`: the peak is the largest backlog of all instants.
- `queue_stable`: cases that open later change no snapshot.
-/
import Apar.Cases.CaseQueue
import Apar.Core.Backlog

namespace Apar

open Exec

namespace CaseQueue

open Cases

/-- `lambda row: (row.opened_at, -row.priority, row.case_id)` -/
def causalKey (row : InvestigationCase) : Time ×ₗ ℚ ×ₗ String := toLex (row.openedAt, toLex (-row.priority, row.caseId))

/-- `_peak_backlog` -/
def peakBacklog (snapshots : List CaseSnapshot) : ℤ :=
  if snapshots = [] then 0
  else
    let openings := sortBy id (snapshots.map CaseSnapshot.openedAt)
    let starts := sortBy id (snapshots.map CaseSnapshot.startedAt)
    Backlog.sweep openings starts 0 0 0

/-- `QueueReport`, but for its schema version and its digest -/
structure QueueReport where
  config : QueueConfig
  caseInputs : List InvestigationCase
  snapshots : List CaseSnapshot
  arrivalCount : ℤ
  completedCount : ℤ
  analystMinutes : ℤ
  peakBacklogCount : ℤ
  slaBreachCount : ℤ

namespace QueueReport

variable [Sha256]

/-- what the validators of the fields check -/
def validFields (r : QueueReport) : Bool :=
  r.caseInputs.all InvestigationCase.valid &&
    [r.arrivalCount, r.completedCount, r.analystMinutes, r.peakBacklogCount, r.slaBreachCount].all fun n =>
      0 ≤ n && n ≤ 100000000000

/-- `evidence_is_consistent` -/
def consistent (r : QueueReport) : Bool :=
  let caseIds := r.snapshots.map CaseSnapshot.caseId
  r.caseInputs.length ≤ maxQueueRows &&
    r.caseInputs = sortBy causalKey r.caseInputs &&
    decide (r.caseInputs.map InvestigationCase.caseId).Nodup &&
    decide caseIds.Nodup &&
    (allocateSnapshots r.caseInputs r.config).toOption = some r.snapshots &&
    (r.snapshots.all fun s => s.analystMinutes = r.config.serviceMinutesPerCase) &&
    r.arrivalCount = r.snapshots.length &&
    r.completedCount = r.snapshots.length &&
    r.analystMinutes = (r.snapshots.map fun s => (s.analystMinutes : ℤ)).sum &&
    r.slaBreachCount = r.snapshots.countP CaseSnapshot.slaBreached &&
    (r.snapshots.all fun s => s.slaBreached = decide ((r.config.slaMinutes : ℚ) < s.waitMinutes)) &&
    r.peakBacklogCount = peakBacklog r.snapshots

/-- what validating a report checks; the size of its canonical text is a parameter -/
def check (payloadSize : QueueReport → ℕ) (r : QueueReport) : Except QueueError Unit := do
  Exec.check r.validFields .validation
  r.snapshots.forM CaseSnapshot.check
  Exec.check r.consistent .validation
  Exec.check (payloadSize r ≤ maxQueuePayloadBytes) .validation

end QueueReport

/-- `_revalidate_case`, and the service fixture -/
def revalidateCase [Sha256] (config : QueueConfig) (row : InvestigationCase) : Except QueueError InvestigationCase := do
  check row.valid (.contract "InvestigationCase failed deterministic semantic revalidation")
  check (row.estimatedMinutes = config.serviceMinutesPerCase)
    (.contract "case estimated_minutes must equal the frozen service fixture")
  return row

/-- an `OverflowError` of the schedule -/
def bounded {α : Type} : Except QueueError α → Except QueueError α
  | .error .overflow => .error (.contract "queue simulation exceeded frozen resource bounds")
  | result => result

/-- `simulate_case_queue` -/
def simulateCaseQueue [Sha256] (payloadSize : QueueReport → ℕ) (cases : List InvestigationCase) (config : QueueConfig) :
    Except QueueError QueueReport := do
  check (cases.length ≤ maxQueueRows) (.contract "queue case count exceeds frozen resource cap")
  let rows ← cases.mapM (revalidateCase config)
  check (rows.map InvestigationCase.caseId).Nodup (.contract "duplicate case_id in queue input")
  let ordered := sortBy causalKey rows
  let snapshotRows ← bounded (allocateSnapshots ordered config)
  let report : QueueReport :=
    { config := config
      caseInputs := ordered
      snapshots := snapshotRows
      arrivalCount := ordered.length
      completedCount := ordered.length
      analystMinutes := ordered.length * config.serviceMinutesPerCase
      peakBacklogCount := peakBacklog snapshotRows
      slaBreachCount := snapshotRows.countP CaseSnapshot.slaBreached }
  match report.check payloadSize with
  | .ok () => return report
  | .error _ => throw .report

/-! ## The peak -/

/-- the cases that have opened by an instant, but for those that have started -/
def backlogAt (snapshots : List CaseSnapshot) (t : ℚ) : ℤ :=
  (snapshots.countP fun s => (s.openedAt : ℚ) ≤ t) - (snapshots.countP fun s => (s.startedAt : ℚ) ≤ t : ℕ)

/-- an instant and the last microsecond before it have one backlog -/
theorem backlogAt_eq (snapshots : List CaseSnapshot) (t : ℚ) :
    backlogAt snapshots t =
      Backlog.backlog (sortBy id (snapshots.map CaseSnapshot.openedAt)) (sortBy id (snapshots.map CaseSnapshot.startedAt)) ⌊t⌋ := by
  have hcount : ∀ at_ : CaseSnapshot → Time,
      (sortBy id (snapshots.map at_)).countP (· ≤ ⌊t⌋) = snapshots.countP fun s => (at_ s : ℚ) ≤ t := by
    intro at_
    rw [(sortBy_perm id _).countP_eq, List.countP_map]
    refine List.countP_congr fun s _ => ?_
    simp [Int.le_floor]
  rw [Backlog.backlog, hcount, hcount]
  rfl

/-- the peak is the largest backlog of all instants -/
theorem peakBacklog_isGreatest (snapshots : List CaseSnapshot) :
    IsGreatest (Set.range (backlogAt snapshots)) (peakBacklog snapshots) := by
  have hrange : Set.range (backlogAt snapshots) = Set.range (Backlog.backlog
      (sortBy id (snapshots.map CaseSnapshot.openedAt)) (sortBy id (snapshots.map CaseSnapshot.startedAt))) := by
    ext n
    constructor
    · rintro ⟨t, rfl⟩
      exact ⟨⌊t⌋, (backlogAt_eq snapshots t).symm⟩
    · rintro ⟨t, rfl⟩
      exact ⟨t, by rw [backlogAt_eq, Int.floor_intCast]⟩
  have hgreatest := Backlog.sweep_isGreatest (sortBy_sorted id (snapshots.map CaseSnapshot.openedAt))
    (sortBy_sorted id (snapshots.map CaseSnapshot.startedAt))
  rw [hrange]
  unfold peakBacklog
  split_ifs with hnone
  · subst hnone
    rwa [Backlog.sweep] at hgreatest
  · exact hgreatest

/-! ## Later cases -/

theorem allocateFrom_append {config : QueueConfig} {last : Option (Time × ℕ)} {rows more : List InvestigationCase}
    {snapshots : List CaseSnapshot} (h : allocateFrom config last (rows ++ more) = .ok snapshots) :
    ∃ first rest, snapshots = first ++ rest ∧ allocateFrom config last rows = .ok first := by
  induction rows generalizing last snapshots with
  | nil => exact ⟨[], snapshots, rfl, rfl⟩
  | cons row rows ih =>
    rw [List.cons_append, allocateFrom] at h
    obtain ⟨start, hstart, h⟩ := except_bind_eq_ok.1 h
    obtain ⟨s, hs, h⟩ := except_bind_eq_ok.1 h
    obtain ⟨later, hlater, h⟩ := except_bind_eq_ok.1 h
    cases h
    obtain ⟨first, rest, rfl, hfirst⟩ := ih hlater
    refine ⟨s :: first, rest, rfl, ?_⟩
    rw [allocateFrom, hstart, except_ok_bind, hs, except_ok_bind, hfirst]
    rfl

theorem mapM_revalidateCase [Sha256] {config : QueueConfig} {cases rows : List InvestigationCase}
    (h : cases.mapM (revalidateCase config) = .ok rows) : rows = cases := by
  rw [mapM_eq_ok] at h
  rw [← List.forall₂_eq_eq_eq]
  refine h.flip.imp fun row c hrow => ?_
  unfold revalidateCase at hrow
  obtain ⟨-, -, hrow⟩ := except_bind_eq_ok.1 hrow
  obtain ⟨-, -, hrow⟩ := except_bind_eq_ok.1 hrow
  cases hrow
  rfl

theorem bounded_eq_ok {α : Type} {x : Except QueueError α} {a : α} : bounded x = .ok a ↔ x = .ok a := by
  cases x with
  | ok b => rfl
  | error e => cases e <;> simp [bounded]

theorem simulateCaseQueue_eq_ok [Sha256] {payloadSize : QueueReport → ℕ} {cases : List InvestigationCase} {config : QueueConfig}
    {r : QueueReport} (h : simulateCaseQueue payloadSize cases config = .ok r) :
    (cases.map InvestigationCase.caseId).Nodup ∧ allocateSnapshots (sortBy causalKey cases) config = .ok r.snapshots := by
  unfold simulateCaseQueue at h
  obtain ⟨-, -, h⟩ := except_bind_eq_ok.1 h
  obtain ⟨rows, hrows, h⟩ := except_bind_eq_ok.1 h
  rw [mapM_revalidateCase hrows] at h
  obtain ⟨_, hids, h⟩ := except_bind_eq_ok.1 h
  obtain ⟨snapshots, hsnapshots, h⟩ := except_bind_eq_ok.1 h
  refine ⟨of_decide_eq_true (check_eq_ok.1 hids), ?_⟩
  dsimp only at h
  split at h
  · cases h
    exact bounded_eq_ok.1 hsnapshots
  · cases h

/-- cases that open later are ordered after -/
theorem sortBy_causalKey_append {cases extra all : List InvestigationCase} (hall : all.Perm (cases ++ extra))
    (hids : (all.map InvestigationCase.caseId).Nodup) (hlater : ∀ c ∈ cases, ∀ d ∈ extra, c.openedAt < d.openedAt) :
    sortBy causalKey all = sortBy causalKey cases ++ sortBy causalKey extra := by
  have hcases := sortBy_perm causalKey cases
  have hextra := sortBy_perm causalKey extra
  refine eq_of_perm_of_sortedKeys ?_ ?_ (sortBy_sorted causalKey all) ?_
  · exact (sortBy_perm causalKey all).trans (hall.trans (hcases.append hextra).symm)
  · -- cases of different ids have different keys
    rw [((sortBy_perm causalKey all).map causalKey).nodup_iff]
    refine List.Nodup.of_map (fun key : Time ×ₗ ℚ ×ₗ String => (ofLex (ofLex key).2).2) ?_
    rw [List.map_map]
    exact hids
  · rw [List.pairwise_append]
    refine ⟨sortBy_sorted causalKey cases, sortBy_sorted causalKey extra, ?_⟩
    intro c hc d hd
    exact Prod.Lex.le_iff.2 (.inl (hlater c (hcases.mem_iff.1 hc) d (hextra.mem_iff.1 hd)))

/-- **Later cases change no snapshot, and the peak is the largest backlog.** For every configuration: if the cases of a queue
are joined by cases that all open later, wherever these stand in the input, then the snapshots of the larger queue begin
with those of the smaller one. For all snapshots, the peak is the largest number of cases that have opened and not started
at one instant. -/
theorem queue_stable [Sha256] (payloadSize : QueueReport → ℕ) (config : QueueConfig) :
    (∀ cases extra all : List InvestigationCase, all.Perm (cases ++ extra) →
      (∀ c ∈ cases, ∀ d ∈ extra, c.openedAt < d.openedAt) →
      ∀ r r', simulateCaseQueue payloadSize cases config = .ok r → simulateCaseQueue payloadSize all config = .ok r' →
        r.snapshots <+: r'.snapshots) ∧
    ∀ snapshots, IsGreatest (Set.range (backlogAt snapshots)) (peakBacklog snapshots) := by
  refine ⟨?_, peakBacklog_isGreatest⟩
  intro cases extra all hall hlater r r' h h'
  obtain ⟨-, hallocate⟩ := simulateCaseQueue_eq_ok h
  obtain ⟨hids, hallocate'⟩ := simulateCaseQueue_eq_ok h'
  rw [sortBy_causalKey_append hall hids hlater] at hallocate'
  obtain ⟨first, rest, hsnapshots, hfirst⟩ := allocateFrom_append hallocate'
  have hsame : first = r.snapshots := Except.ok.inj (hfirst.symm.trans hallocate)
  exact ⟨rest, by rw [hsnapshots, hsame]⟩

namespace Sample

/-- the size of a report on the cases below -/
def sampleSize (r : QueueReport) : ℕ := 410 + 882 * r.snapshots.length

theorem simulated {cases : List InvestigationCase}
    (h : (@simulateCaseQueue letterDigest sampleSize cases config).toOption.isSome = true) :
    ∃ r, @simulateCaseQueue letterDigest sampleSize cases config = .ok r := by
  cases hresult : @simulateCaseQueue letterDigest sampleSize cases config with
  | ok r => exact ⟨r, rfl⟩
  | error e =>
    rw [hresult] at h
    cases h

/-- a case just before the epoch, and one at it -/
theorem second_case_later :
    ∃ r r', @simulateCaseQueue letterDigest sampleSize [case "a" (-1) 80] config = .ok r ∧
      @simulateCaseQueue letterDigest sampleSize [case "b" 0 70, case "a" (-1) 80] config = .ok r' ∧
      r.snapshots <+: r'.snapshots := by
  let _ := letterDigest
  obtain ⟨r, hr⟩ := @simulated [case "a" (-1) 80] (by decide +kernel)
  obtain ⟨r', hr'⟩ := @simulated [case "b" 0 70, case "a" (-1) 80] (by decide +kernel)
  refine ⟨r, r', hr, hr', (queue_stable sampleSize config).1 [case "a" (-1) 80] [case "b" 0 70] _ (.swap _ _ _) ?_ r r' hr hr'⟩
  intro c hc d hd
  cases List.mem_singleton.1 hc
  cases List.mem_singleton.1 hd
  decide

end Sample

end CaseQueue

end Apar
