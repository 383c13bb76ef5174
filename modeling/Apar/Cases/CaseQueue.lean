/-
The review queue (`cases/queue.py`): cases are ordered by their opening, then by priority, and each is given a slot of the
analysts' time. The allocator keeps the last slot it gave out, and how often.

Times are microseconds since the epoch, from year 1 to year 9999; what leaves that range is an `OverflowError`. Waits and
priorities are floats, told by their values. The size of a report's canonical text is a parameter; its digest, which is
computed from the report twice, is left out.

- `firstSlotAtOrAfter_eq`: the bucket and the wave of an opening are the first multiple of the service time from it on.
- `allocateFrom_slots`: what the allocator gives is what `Slots.allocate` gives.
- `allocateSnapshots_schedule`: so the schedule is the earliest one, case by case, and only the range of times can stop it.
-/
import Apar.Cases.InvestigationCases
import Apar.Core.Binary64
import Apar.Core.Slots

namespace Apar

open Exec

namespace CaseQueue

open Cases

/-- the exceptions of the queue -/
inductive QueueError where
  | contract (message : String)
  /-- a `ValidationError` of pydantic -/
  | validation
  /-- the `QueueContractError` of a report that fails its validation -/
  | report
  | overflow
deriving DecidableEq

def maxQueueRows : ℕ := 100000
def maxAnalystCount : ℕ := 100000
def maxMinutes : ℕ := 1000000
def maxQueuePayloadBytes : ℕ := 64 * 1024 * 1024

/-- `QueueConfig`, but for its schema version -/
structure QueueConfig where
  analystCount : ℕ
  serviceMinutesPerCase : ℕ
  slaMinutes : ℕ
  bucketMinutes : ℕ
  counts : 1 ≤ analystCount ∧ analystCount ≤ maxAnalystCount
  service : 1 ≤ serviceMinutesPerCase ∧ serviceMinutesPerCase ≤ maxMinutes
  sla : 1 ≤ slaMinutes ∧ slaMinutes ≤ maxMinutes
  bucket : 1 ≤ bucketMinutes ∧ bucketMinutes ≤ maxMinutes
  /-- `capacity_has_exact_service_slots` -/
  serviceFits : serviceMinutesPerCase ≤ bucketMinutes
  exactSlots : bucketMinutes % serviceMinutesPerCase = 0
deriving DecidableEq

/-- `timedelta(minutes=minutes)` -/
def minutesDelta (minutes : ℤ) : ℤ := minutes * 60 * 1000000

namespace QueueConfig

/-- the length of a slot -/
def slotLength (config : QueueConfig) : ℤ := minutesDelta config.serviceMinutesPerCase

end QueueConfig

/-- the first and the last instant of a `datetime` -/
def minTime : Time := -62135596800000000
def maxTime : Time := 253402300799999999

/-- a `datetime` that is computed -/
def datetime (t : Time) : Except QueueError Time := if minTime ≤ t ∧ t ≤ maxTime then .ok t else .error .overflow

/-- `(started_at - opened_at).total_seconds() / 60.0` -/
def waitBetween (openedAt startedAt : Time) : ℚ := Binary64.nearest (Binary64.nearest ((startedAt - openedAt : ℤ) / 1000000) / 60)

/-! ## Snapshots -/

/-- `CaseSnapshot`, but for its schema version -/
structure CaseSnapshot where
  caseId : String
  openedAt : Time
  startedAt : Time
  completedAt : Time
  waitMinutes : ℚ
  slaBreached : Bool
  analystMinutes : ℕ
  priority : ℚ
deriving DecidableEq

namespace CaseSnapshot

/-- what the validators of the fields check -/
def validFields (s : CaseSnapshot) : Bool :=
  isCaseId s.caseId && 0 ≤ s.waitMinutes && (1 ≤ s.analystMinutes && s.analystMinutes ≤ maxMinutes) &&
    (0 ≤ s.priority && s.priority ≤ 100)

/-- what validating a snapshot checks -/
def check (s : CaseSnapshot) : Except QueueError Unit := do
  Exec.check s.validFields .validation
  Exec.check (s.openedAt ≤ s.startedAt) .validation
  let completedAt ← datetime (s.startedAt + minutesDelta s.analystMinutes)
  Exec.check (s.completedAt = completedAt) .validation
  Exec.check (s.waitMinutes = waitBetween s.openedAt s.startedAt) .validation

end CaseSnapshot

/-! ## The allocator -/

/-- `_first_slot_at_or_after` -/
def firstSlotAtOrAfter (openedAt : Time) (config : QueueConfig) : Except QueueError Time := do
  let bucketMicroseconds : ℤ := config.bucketMinutes * 60 * 1000000
  let bucketIndex := openedAt / bucketMicroseconds
  let bucketStart ← datetime (bucketIndex * bucketMicroseconds)
  let elapsedInBucket := openedAt - bucketIndex * bucketMicroseconds
  let serviceMicroseconds : ℤ := config.serviceMinutesPerCase * 60 * 1000000
  let wave := (elapsedInBucket + serviceMicroseconds - 1) / serviceMicroseconds
  let wavesPerBucket : ℤ := config.bucketMinutes / config.serviceMinutesPerCase
  if wavesPerBucket ≤ wave then datetime (bucketStart + minutesDelta config.bucketMinutes)
  else datetime (bucketStart + minutesDelta (wave * config.serviceMinutesPerCase))

/-- where a case starts, and how often the allocator has then given that slot -/
def nextStart (config : QueueConfig) (last : Option (Time × ℕ)) (openedAt : Time) : Except QueueError (Time × ℕ) := do
  let earliest ← firstSlotAtOrAfter openedAt config
  match last with
  | none => return (max earliest earliest, 1)
  | some (lastSlot, slotUses) =>
    if openedAt ≤ lastSlot ∧ slotUses < config.analystCount then return (lastSlot, slotUses + 1)
    else
      let nextAfterLast ← datetime (lastSlot + minutesDelta config.serviceMinutesPerCase)
      return (max earliest nextAfterLast, 1)

/-- the snapshot of a case that starts then -/
def snapshotAt (config : QueueConfig) (row : InvestigationCase) (startedAt : Time) : Except QueueError CaseSnapshot := do
  let completedAt ← datetime (startedAt + minutesDelta config.serviceMinutesPerCase)
  let waitMinutes := waitBetween row.openedAt startedAt
  let snapshot : CaseSnapshot :=
    { caseId := row.caseId
      openedAt := row.openedAt
      startedAt := startedAt
      completedAt := completedAt
      waitMinutes := waitMinutes
      slaBreached := config.slaMinutes < waitMinutes
      analystMinutes := config.serviceMinutesPerCase
      priority := row.priority }
  snapshot.check
  return snapshot

/-- the loop of `_allocate_snapshots`, from the last slot and its uses -/
def allocateFrom (config : QueueConfig) : Option (Time × ℕ) → List InvestigationCase → Except QueueError (List CaseSnapshot)
  | _, [] => .ok []
  | last, row :: rows => do
    let start ← nextStart config last row.openedAt
    let snapshot ← snapshotAt config row start.1
    let snapshots ← allocateFrom config (some start) rows
    return snapshot :: snapshots

/-- `_allocate_snapshots` -/
def allocateSnapshots (ordered : List InvestigationCase) (config : QueueConfig) : Except QueueError (List CaseSnapshot) :=
  allocateFrom config none ordered

/-! ## The grid -/

theorem datetime_eq_ok {t t' : Time} : datetime t = .ok t' ↔ t = t' ∧ minTime ≤ t ∧ t ≤ maxTime := by
  unfold datetime
  split_ifs with h
  · simp [h]
  · simp [h]

theorem datetime_raises (t : Time) : Raises (· = QueueError.overflow) (datetime t) := by
  intro e he
  unfold datetime at he
  split_ifs at he
  · cases he
    rfl

theorem slotLength_pos (config : QueueConfig) : 0 < config.slotLength := by
  have := config.service.1
  unfold QueueConfig.slotLength minutesDelta
  omega

/-- a bucket is a whole number of slots -/
theorem minutesDelta_bucket (config : QueueConfig) :
    minutesDelta config.bucketMinutes = (config.bucketMinutes / config.serviceMinutesPerCase : ℕ) * config.slotLength := by
  have hbucket := Nat.div_mul_cancel (Nat.dvd_of_mod_eq_zero config.exactSlots)
  have hcast : (config.bucketMinutes : ℤ) =
      (config.bucketMinutes / config.serviceMinutesPerCase : ℕ) * (config.serviceMinutesPerCase : ℤ) := by
    exact_mod_cast hbucket.symm
  unfold QueueConfig.slotLength minutesDelta
  rw [hcast]
  ring

/-- **The bucket and the wave of an opening are the first slot from it on.** -/
theorem firstSlotAtOrAfter_eq {config : QueueConfig} {openedAt slot : Time} (h : firstSlotAtOrAfter openedAt config = .ok slot) :
    slot = Slots.ceil config.slotLength openedAt := by
  have hslot := slotLength_pos config
  have hbucket := minutesDelta_bucket config
  have hbucketPos : 0 < minutesDelta config.bucketMinutes := by
    have := config.bucket.1
    unfold minutesDelta
    omega
  have hservice : (config.serviceMinutesPerCase : ℤ) * 60 * 1000000 = config.slotLength := rfl
  have hlength : (config.bucketMinutes : ℤ) * 60 * 1000000 = minutesDelta config.bucketMinutes := rfl
  unfold firstSlotAtOrAfter at h
  simp only [hservice, hlength, ← Int.natCast_div] at h
  generalize (config.bucketMinutes / config.serviceMinutesPerCase : ℕ) = waves at hbucket h
  generalize hindex : openedAt / minutesDelta config.bucketMinutes = index at h
  obtain ⟨bucketStart, hstart, h⟩ := except_bind_eq_ok.1 h
  obtain ⟨rfl, -⟩ := datetime_eq_ok.1 hstart
  -- the opening is that many buckets after the epoch, and a part of a bucket
  have helapsed : openedAt - index * minutesDelta config.bucketMinutes = openedAt % minutesDelta config.bucketMinutes := by
    have := Int.emod_add_mul_ediv openedAt (minutesDelta config.bucketMinutes)
    rw [hindex] at this
    linarith
  have helapsedLt := Int.emod_lt_of_pos openedAt hbucketPos
  rw [helapsed] at h
  generalize openedAt % minutesDelta config.bucketMinutes = elapsed at helapsed helapsedLt h
  have hceil : Slots.ceil config.slotLength openedAt = Slots.ceil config.slotLength elapsed + index * minutesDelta config.bucketMinutes := by
    have hopened : openedAt = elapsed + index * waves * config.slotLength := by
      rw [mul_assoc, ← hbucket]
      linarith
    rw [hopened, Slots.ceil_add_mul hslot, mul_assoc, ← hbucket]
  have hwave : Slots.ceil config.slotLength elapsed = (elapsed + config.slotLength - 1) / config.slotLength * config.slotLength := rfl
  generalize (elapsed + config.slotLength - 1) / config.slotLength = wave at hwave h
  rw [hceil, hwave]
  split_ifs at h with hlast
  · -- the part ends after the last wave, and not after the bucket
    obtain ⟨rfl, -⟩ := datetime_eq_ok.1 h
    have hle : Slots.ceil config.slotLength elapsed ≤ minutesDelta config.bucketMinutes := by
      refine (Slots.ceil_le_iff hslot ?_).2 helapsedLt.le
      rw [hbucket]
      exact dvd_mul_left _ _
    have hge : (waves : ℤ) * config.slotLength ≤ wave * config.slotLength := mul_le_mul_of_nonneg_right hlast hslot.le
    rw [← hbucket] at hge
    rw [hwave] at hle
    rw [le_antisymm hle hge, add_comm]
  · obtain ⟨rfl, -⟩ := datetime_eq_ok.1 h
    rw [add_comm]
    unfold QueueConfig.slotLength minutesDelta
    ring

/-- what the allocator gives, and keeps -/
theorem nextStart_eq {config : QueueConfig} {last : Option (Time × ℕ)} {openedAt : Time} {start : Time × ℕ}
    (h : nextStart config last openedAt = .ok start) :
    start = Slots.place config.slotLength config.analystCount last openedAt := by
  unfold nextStart at h
  obtain ⟨earliest, hearliest, h⟩ := except_bind_eq_ok.1 h
  have hceil := firstSlotAtOrAfter_eq hearliest
  subst hceil
  cases last with
  | none =>
    rw [max_self] at h
    cases h
    rfl
  | some last =>
    obtain ⟨lastSlot, slotUses⟩ := last
    unfold Slots.place
    dsimp only at h ⊢
    split_ifs at h ⊢ with hroom
    · cases h
      rfl
    · obtain ⟨next, hnext, h⟩ := except_bind_eq_ok.1 h
      obtain ⟨rfl, -⟩ := datetime_eq_ok.1 hnext
      cases h
      rfl

/-! ## The schedule -/

/-- what a snapshot tells of its case -/
def SnapshotOf (config : QueueConfig) (row : InvestigationCase) (s : CaseSnapshot) : Prop :=
  s.caseId = row.caseId ∧ s.openedAt = row.openedAt ∧ s.completedAt = s.startedAt + config.slotLength

theorem snapshotAt_eq_ok {config : QueueConfig} {row : InvestigationCase} {startedAt : Time} {s : CaseSnapshot}
    (h : snapshotAt config row startedAt = .ok s) : SnapshotOf config row s ∧ s.startedAt = startedAt := by
  unfold snapshotAt at h
  obtain ⟨completedAt, hcompleted, h⟩ := except_bind_eq_ok.1 h
  obtain ⟨rfl, -⟩ := datetime_eq_ok.1 hcompleted
  obtain ⟨-, -, h⟩ := except_bind_eq_ok.1 h
  cases h
  exact ⟨⟨rfl, rfl, rfl⟩, rfl⟩

/-- what the allocator gives is what the slots are -/
theorem allocateFrom_slots {config : QueueConfig} {last : Option (Time × ℕ)} {rows : List InvestigationCase}
    {snapshots : List CaseSnapshot} (h : allocateFrom config last rows = .ok snapshots) :
    List.Forall₂ (SnapshotOf config) rows snapshots ∧
      snapshots.map CaseSnapshot.startedAt =
        Slots.allocate config.slotLength config.analystCount last (rows.map InvestigationCase.openedAt) := by
  induction rows generalizing last snapshots with
  | nil =>
    cases h
    exact ⟨.nil, rfl⟩
  | cons row rows ih =>
    rw [allocateFrom] at h
    obtain ⟨start, hstart, h⟩ := except_bind_eq_ok.1 h
    obtain ⟨s, hs, h⟩ := except_bind_eq_ok.1 h
    obtain ⟨rest, hrest, h⟩ := except_bind_eq_ok.1 h
    cases h
    have hplace := nextStart_eq hstart
    subst hplace
    obtain ⟨hof, hat⟩ := snapshotAt_eq_ok hs
    obtain ⟨hrows, hslots⟩ := ih hrest
    refine ⟨.cons hof hrows, ?_⟩
    rw [List.map_cons, List.map_cons, Slots.allocate, hat, hslots]

/-- a slot that a case may start at: from its opening on, not before an earlier start, with a free analyst -/
def Available (config : QueueConfig) (earlier : List CaseSnapshot) (openedAt slot : Time) : Prop :=
  config.slotLength ∣ slot ∧ openedAt ≤ slot ∧ (∀ s ∈ earlier, s.startedAt ≤ slot) ∧
    (earlier.countP fun s => s.startedAt = slot) < config.analystCount

/-- the earliest schedule of the cases, in their order -/
structure Schedule (config : QueueConfig) (ordered : List InvestigationCase) (snapshots : List CaseSnapshot) : Prop where
  cases : (snapshots.map fun s => (s.caseId, s.openedAt)) = ordered.map fun c => (c.caseId, c.openedAt)
  service : ∀ s ∈ snapshots, s.completedAt = s.startedAt + config.slotLength
  grid : ∀ s ∈ snapshots, config.slotLength ∣ s.startedAt ∧ s.openedAt ≤ s.startedAt
  order : (snapshots.map CaseSnapshot.startedAt).Pairwise (· ≤ ·)
  capacity : ∀ t : ℚ, (snapshots.countP fun s => (s.startedAt : ℚ) ≤ t && t < (s.completedAt : ℚ)) ≤ config.analystCount
  earliest : ∀ i s, snapshots[i]? = some s → IsLeast {slot | Available config (snapshots.take i) s.openedAt slot} s.startedAt

theorem available_iff {config : QueueConfig} {earlier : List CaseSnapshot} {openedAt slot : Time} :
    Available config earlier openedAt slot ↔
      Slots.Free config.slotLength config.analystCount (earlier.map CaseSnapshot.startedAt) openedAt slot := by
  have hcount : (earlier.map CaseSnapshot.startedAt).count slot = earlier.countP fun s => s.startedAt = slot := by
    rw [List.count, List.countP_map]
    rfl
  unfold Available Slots.Free
  rw [hcount, List.forall_mem_map]

theorem schedule_of_allocate {config : QueueConfig} {ordered : List InvestigationCase} {snapshots : List CaseSnapshot}
    (h : allocateSnapshots ordered config = .ok snapshots) : Schedule config ordered snapshots := by
  obtain ⟨hof, hslots⟩ := allocateFrom_slots h
  have hperiod := slotLength_pos config
  have hcapacity : 0 < config.analystCount := config.counts.1
  have hopened : ordered.map InvestigationCase.openedAt = snapshots.map CaseSnapshot.openedAt := by
    rw [← List.forall₂_eq_eq_eq, List.forall₂_map_left_iff, List.forall₂_map_right_iff]
    exact hof.imp fun c s hs => hs.2.1.symm
  have hservice : ∀ s ∈ snapshots, s.completedAt = s.startedAt + config.slotLength := by
    intro s hs
    obtain ⟨c, -, hc⟩ := forall₂_mem_right hof hs
    exact hc.2.2
  obtain ⟨horder, hgrid, hcount⟩ := Slots.allocate_bounded hperiod hcapacity (ordered.map InvestigationCase.openedAt)
  rw [← hslots] at horder hgrid hcount
  have hearliest : ∀ i s, snapshots[i]? = some s →
      IsLeast {slot | Available config (snapshots.take i) s.openedAt slot} s.startedAt := by
    intro i s hs
    have harrival : (ordered.map InvestigationCase.openedAt)[i]? = some s.openedAt := by
      rw [hopened, List.getElem?_map, hs]
      rfl
    have hslot : (Slots.allocate config.slotLength config.analystCount none
        (ordered.map InvestigationCase.openedAt))[i]? = some s.startedAt := by
      rw [← hslots, List.getElem?_map, hs]
      rfl
    have hfilled : Slots.Filled config.slotLength config.analystCount [] none := rfl
    have hspec := Slots.allocate_spec hperiod hcapacity hfilled harrival hslot
    rw [← hslots, List.nil_append, ← List.map_take] at hspec
    simp only [available_iff]
    exact hspec
  refine { cases := ?_, service := hservice, grid := ?_, order := horder, capacity := ?_, earliest := hearliest }
  · rw [← List.forall₂_eq_eq_eq, List.forall₂_map_left_iff, List.forall₂_map_right_iff]
    exact hof.flip.imp fun s c hs => Prod.ext hs.1 hs.2.1
  · intro s hs
    obtain ⟨i, hi⟩ := List.mem_iff_getElem?.1 hs
    obtain ⟨hdvd, hle, -⟩ := (hearliest i s hi).1
    exact ⟨hdvd, hle⟩
  · intro t
    have hbound := Slots.inService_le hperiod hgrid hcount t
    rw [List.countP_map] at hbound
    refine le_trans (le_of_eq (List.countP_congr fun s hs => ?_)) hbound
    rw [hservice s hs, Int.cast_add]
    rfl

theorem snapshotAt_raises [Sha256] {config : QueueConfig} {row : InvestigationCase} (hvalid : row.valid = true) {startedAt : Time}
    (hstart : row.openedAt ≤ startedAt) : Raises (· = QueueError.overflow) (snapshotAt config row startedAt) := by
  unfold snapshotAt
  refine Raises.bind_of_ok (datetime_raises _) fun completedAt hcompleted => ?_
  obtain ⟨rfl, hrange⟩ := datetime_eq_ok.1 hcompleted
  have hwait : 0 ≤ waitBetween row.openedAt startedAt := by
    have hmicros : (0 : ℚ) ≤ (startedAt - row.openedAt : ℤ) := by exact_mod_cast sub_nonneg.2 hstart
    exact Binary64.nearest_nonneg (div_nonneg (Binary64.nearest_nonneg (by positivity)) (by norm_num))
  obtain ⟨hlow, hhigh⟩ := InvestigationCase.priority_of_valid hvalid
  refine Raises.bind ?_ fun _ => Raises.ok _
  unfold CaseSnapshot.check CaseSnapshot.validFields
  simp only [InvestigationCase.isCaseId_of_valid hvalid, hwait, config.service, hlow, hhigh, hstart, datetime_eq_ok.2 ⟨rfl, hrange⟩,
    decide_true, Bool.and_true, check, if_true, except_ok_bind]
  exact Raises.ok _

theorem firstSlotAtOrAfter_raises (openedAt : Time) (config : QueueConfig) :
    Raises (· = QueueError.overflow) (firstSlotAtOrAfter openedAt config) := by
  unfold firstSlotAtOrAfter
  refine Raises.bind (datetime_raises _) fun bucketStart => ?_
  dsimp only
  split_ifs
  · exact datetime_raises _
  · exact datetime_raises _

theorem nextStart_raises (config : QueueConfig) (last : Option (Time × ℕ)) (openedAt : Time) :
    Raises (· = QueueError.overflow) (nextStart config last openedAt) := by
  unfold nextStart
  refine Raises.bind (firstSlotAtOrAfter_raises _ _) fun earliest => ?_
  cases last with
  | none => exact Raises.ok _
  | some last =>
    dsimp only
    split_ifs
    · exact Raises.ok _
    · exact Raises.bind (datetime_raises _) fun _ => Raises.ok _

/-- only the range of times can stop the allocator -/
theorem allocateFrom_raises [Sha256] {config : QueueConfig} {last : Option (Time × ℕ)} {rows : List InvestigationCase}
    (hvalid : ∀ c ∈ rows, c.valid = true) : Raises (· = QueueError.overflow) (allocateFrom config last rows) := by
  induction rows generalizing last with
  | nil => exact Raises.ok _
  | cons row rows ih =>
    rw [allocateFrom]
    refine Raises.bind_of_ok (nextStart_raises _ _ _) fun start hstart => ?_
    refine Raises.bind (snapshotAt_raises (hvalid row List.mem_cons_self) ?_) fun s => ?_
    · rw [nextStart_eq hstart]
      exact Slots.le_place (slotLength_pos config) last row.openedAt
    · exact Raises.bind (ih fun c hc => hvalid c (List.mem_cons_of_mem _ hc)) fun _ => Raises.ok _

/-- **The allocator gives every case the earliest slot.** For every configuration and all valid cases in whatever order,
only a time out of range can stop it; and the schedule it returns is the earliest one, case by case: on the grid, from the
opening on, in order, with no more cases in service than there are analysts. -/
theorem allocateSnapshots_schedule [Sha256] (config : QueueConfig) {ordered : List InvestigationCase}
    (hvalid : ∀ c ∈ ordered, c.valid = true) :
    Raises (· = QueueError.overflow) (allocateSnapshots ordered config) ∧
      ∀ snapshots, allocateSnapshots ordered config = .ok snapshots → Schedule config ordered snapshots :=
  ⟨allocateFrom_raises hvalid, fun _ h => schedule_of_allocate h⟩

namespace Sample

/-- a digest that ends in the first letter of the first evidence -/
@[reducible] def letterDigest : Sha256 where
  hexdigest
    | .obj [_, (_, .arr (.str id :: _))] => String.ofList (List.replicate 63 '0' ++ id.toList.take 1)
    | _ => ""
  hexdigestBytes _ := ""

/-- one analyst, three cases an hour -/
def config : QueueConfig where
  analystCount := 1
  serviceMinutesPerCase := 20
  slaMinutes := 240
  bucketMinutes := 60
  counts := by decide
  service := by decide
  sla := by decide
  bucket := by decide
  serviceFits := by decide
  exactSlots := by decide

/-- the evidence of an alert -/
def evidence (id : String) (decisionAt : Time) : CaseAlertEvidence where
  eventId := id
  decisionAt := decisionAt
  actorId := "p"
  counterpartyId := "q"
  motif := .isolated
  visibleValueBeforeAlert := 0
  latestGraphEvidenceAt := none
  score := 1
  action := .decline
  evidenceSourceIds := []

/-- a case of one alert -/
def case (id : String) (openedAt : Time) (priority : ℚ) : InvestigationCase where
  caseId := @Cases.caseId letterDigest [id]
  openedAt := openedAt
  eventIds := [id]
  actorIds := ["p"]
  counterpartyIds := ["q"]
  firstAlertAt := openedAt
  priority := priority
  estimatedMinutes := 20
  firstEvidenceIds := [id]
  alertEvidence := [evidence id openedAt]

theorem valid_cases : ∀ c ∈ [case "a" (-1) 80, case "b" (-1) 70], @InvestigationCase.valid letterDigest c = true := by
  decide +kernel

/-- two cases of one instant before the epoch -/
theorem two_cases_schedule :
    let _ := letterDigest
    ∃ snapshots, allocateSnapshots [case "a" (-1) 80, case "b" (-1) 70] config = .ok snapshots ∧
      Schedule config [case "a" (-1) 80, case "b" (-1) 70] snapshots := by
  let _ := letterDigest
  obtain ⟨hraises, hschedule⟩ := allocateSnapshots_schedule config valid_cases
  cases h : allocateSnapshots [case "a" (-1) 80, case "b" (-1) 70] config with
  | ok snapshots => exact ⟨snapshots, rfl, hschedule snapshots h⟩
  | error e =>
    obtain rfl := hraises e h
    have hno : (allocateSnapshots [case "a" (-1) 80, case "b" (-1) 70] config).toOption.isSome = true := by decide +kernel
    rw [h] at hno
    cases hno

end Sample

end CaseQueue

end Apar
