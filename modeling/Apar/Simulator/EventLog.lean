/-
The emitted event log over runs of the engine, and its serialised form (`serialize_events`, `replay_events`).

A `Logging` adapter emits at most one event for a command, under an identifier it drew from the engine for it, at the
current time. Its runs keep a `Canonical` log: strictly increasing in (event time, event id).

- `uuidAt_lt`, `uuidAt_version4`: identifiers increase as text with the sequence number, and are version-4 UUIDs.
- `Steady.calls`: what every turn keeps holds in every engine any calls reach, failed or not.
- `Canonical.append`: a batch of a logging adapter is never rejected, and keeps the log canonical.
- `replayEvents_dumps`: a canonical log replays to itself.
-/
import Apar.Core.Uuid
import Apar.Simulator.Schedules

namespace Apar

open Exec

namespace Engine

variable {κ σ α : Type} {A : RailAdapter κ σ α} {s s' : Engine κ σ α}

/-! ## Identifiers -/

/-- identifiers increase as text with the sequence number -/
theorem uuidAt_lt {p m n : ℕ} (hp : p < 2 ^ 80) (hn : n < 2 ^ 48) (h : m < n) : uuidAt p m < uuidAt p n :=
  Uuid.formatUuid_lt (by omega) (by omega)

/-- an identifier parses to its prefix and sequence number -/
theorem parseUuid_uuidAt {p n : ℕ} (hp : p < 2 ^ 80) (hn : n < 2 ^ 48) :
    Uuid.parseUuid (uuidAt p n) = some (p * 2 ^ 48 + n) :=
  Uuid.parseUuid_formatUuid (by omega)

theorem uuidAt_version4 (head b6 b7 b8 b9 : ℕ) {n : ℕ} (hn : n < 2 ^ 48) :
    Uuid.version (versionedPrefix head b6 b7 b8 b9 * 2 ^ 48 + n) = some 4 := by
  have h7 := Nat.mod_lt b7 (show 0 < 256 by norm_num)
  have h9 := Nat.mod_lt b9 (show 0 < 256 by norm_num)
  unfold Uuid.version versionedPrefix
  rw [if_pos (by omega)]
  refine congrArg some ?_
  omega

/-! ## Reading and replaying the log -/

/-- `events` -/
def readEvents : EngineM κ σ α (List PaymentEvent) := do
  let s ← get
  guard s.failure.isNone .failed
  return s.events

/-- the JSON form of events: `model_dump(mode="json")` and `model_validate` of one, `json.dumps` and
`_strict_json_loads` of a list; a payload that holds no JSON array loads as `none` -/
structure EventCodec (ρ : Type) where
  dump : PaymentEvent → ρ
  validate : ρ → Except SimError PaymentEvent
  dumps : List ρ → String
  loads : String → Except SimError (Option (List ρ))

/-- the JSON form of these events is faithful -/
structure EventCodec.RoundTrips {ρ : Type} (codec : EventCodec ρ) (events : List PaymentEvent) : Prop where
  text : codec.loads (codec.dumps (events.map codec.dump)) = .ok (some (events.map codec.dump))
  event : ∀ e ∈ events, codec.validate (codec.dump e) = .ok e

/-- `serialize_events()` -/
def serializeEvents {ρ : Type} (codec : EventCodec ρ) : EngineM κ σ α String := do
  let s ← get
  guard s.failure.isNone .failed
  return codec.dumps (s.events.map codec.dump)

/-- the loop of `replay_events` after the events seen so far -/
def replayFrom {ρ : Type} (codec : EventCodec ρ) :
    List String → Option (Time ×ₗ String) → List ρ → Except SimError (List PaymentEvent)
  | _, _, [] => .ok []
  | seen, lastKey, rawEvent :: rest => do
    let event ← codec.validate rawEvent
    event.validate
    check (!seen.contains event.eventId) (.valueError ("duplicate event_id: " ++ event.eventId))
    match lastKey with
    | some last =>
      if eventKey event < last then
        if event.eventTime < (ofLex last).1 then .error (.valueError "event_time must be monotonic")
        else .error (.valueError "event ordering must be canonical")
      else pure ()
    | none => pure ()
    let events ← replayFrom codec (event.eventId :: seen) (some (eventKey event)) rest
    return event :: events

/-- `replay_events(payload)` -/
def replayEvents {ρ : Type} (codec : EventCodec ρ) (payload : String) : Except SimError (List PaymentEvent) := do
  match ← codec.loads payload with
  | none => .error (.valueError "serialized events must contain a JSON array")
  | some parsed => do
    let events ← replayFrom codec [] none parsed
    events.forM PaymentEvent.validate
    return events

/-! ## Invariants of every engine reached -/

/-- an invariant that callbacks, a successful initialisation and every turn keep, returning or raising -/
structure Steady (A : RailAdapter κ σ α) (P : Engine κ σ α → Prop) : Prop where
  touched : ∀ {s s'}, P s → Touched s s' → P s'
  initialised : ∀ {s s' u}, P s → A.init s = .ok u s' → P { s' with initialized := true }
  turn : ∀ {s t times}, P s → Schedule s → s.initialized = true → s.scheduledTimes = t :: times →
    P (left (dispatch A t times s))

variable {P : Engine κ σ α → Prop}

theorem Steady.runLoop (hP : Steady A P) (hA : Confined A) (cutoff : Option Time) (turns : ℕ) (hs : P s)
    (hschedule : Schedule s) (hinit : s.initialized = true) : P (left (runLoop A cutoff turns s)) := by
  induction turns generalizing s with
  | zero => exact hs
  | succ turns ih =>
    rw [runLoop_succ]
    cases hdue : nextDue cutoff s with
    | none => exact hs
    | some p =>
      obtain ⟨t, times⟩ := p
      have htimes := nextDue_eq_some hdue
      have hturn := hP.turn hs hschedule hinit htimes
      obtain ⟨c, rest, hq, -, hok, -⟩ := dispatch_after hA hschedule htimes
      simp only
      cases hd : dispatch A t times s with
      | error e s₁ =>
        rw [hd] at hturn
        exact hturn
      | ok u s₁ =>
        rw [hd] at hturn
        obtain ⟨t', htouched, hclock, hindex, hflag, -⟩ := hok u s₁ hd
        have hschedule₁ : Schedule s₁ :=
          ((Served.refl ((hschedule.popped hq).1.touched htouched)).congr hclock hindex).schedule
        exact ih hturn hschedule₁ ((hflag.trans htouched.initialized).trans hinit)

/-- **Step.** A call keeps the invariant, whether it returns or raises. -/
theorem Steady.call (hP : Steady A P) (hA : Confined A) (hs : P s) (hschedule : Schedule s) (c : EngineCall κ) :
    P (afterCall A s c) := by
  have houtcome := call_outcome A s c
  generalize afterCall A s c = t at houtcome ⊢
  generalize callTrace A s c = trace at houtcome
  cases houtcome with
  | refused => exact hs
  | scheduled _ h => exact hP.touched hs ((within_schedule _ _ _).ok h)
  | unscheduled _ h => exact hP.touched hs ((within_schedule _ _ _).error h)
  | @uninitialised e s₁ _ h =>
    exact hP.touched hs ((hA.init.error (initializeOnce_eq_error h)).trans (touched_markFailed s₁ e))
  | @ran turns cutoff s₁ _ h =>
    have hs₁ : P s₁ := by
      rcases initializeOnce_eq_ok h with ⟨-, rfl⟩ | ⟨v, s₂, hinit, rfl⟩
      · exact hs
      · exact hP.initialised hs hinit
    obtain ⟨added, hserved⟩ := (served_initializeOnce hA hschedule).1 _ s₁ h
    have hloop := hP.runLoop hA cutoff turns hs₁ hserved.schedule (initializeOnce_ok h).1
    cases hl : Engine.runLoop A cutoff turns s₁ with
    | error e s₂ =>
      rw [hl] at hloop
      exact hP.touched hloop (touched_markFailed s₂ e)
    | ok u s₂ =>
      rw [hl] at hloop
      exact hloop

/-- **Run.** The invariant holds in every engine that any calls reach. -/
theorem Steady.calls (hP : Steady A P) (hA : Confined A) (hs : P s) (hschedule : Schedule s)
    (calls : List (EngineCall κ)) : P (afterCalls A s calls) := by
  induction calls generalizing s with
  | nil => exact hs
  | cons c rest ih =>
    obtain ⟨_, hserved⟩ := served_call hA hschedule c
    exact ih (hP.call hA hs hschedule c) hserved.schedule

/-! ## Canonical logs -/

/-- an event a callback made: valid, current, and under an identifier it drew -/
structure Issued (s s' : Engine κ σ α) (e : PaymentEvent) : Prop where
  valid : e.validate = .ok ()
  rail : e.rail = s.rail
  time : e.eventTime = s.clock.now
  number : ∃ n, s.uuidSequence ≤ n ∧ n < s'.uuidSequence ∧ n < 2 ^ 48 ∧ e.eventId = uuidAt s.uuidPrefix n

variable {e f : PaymentEvent} {rail : Rail}

theorem Issued.mono {t t' : Engine κ σ α} (h : Issued t t' e) (hbefore : Touched s t) (hafter : Touched t' s') :
    Issued s s' e := by
  obtain ⟨n, hle, hlt, hbound, hid⟩ := h.number
  exact ⟨h.valid, h.rail.trans hbefore.rail, h.time.trans hbefore.now, n, hbefore.uuidSequence.trans hle,
    hlt.trans_le hafter.uuidSequence, hbound, hbefore.uuidPrefix ▸ hid⟩

/-- an adapter for one rail that answers a command with at most one event, made for it -/
structure Logging (A : RailAdapter κ σ α) (rail : Rail) : Prop where
  confined : Confined A
  init : ∀ {s s' u}, A.init s = .ok u s' → s.rail = rail
  emits : ∀ {s s' command emitted}, s.rail = rail → A.handle command s = .ok emitted s' →
    emitted = [] ∨ ∃ e, emitted = [e] ∧ Issued s s' e

/-- a log of events issued so far, whose times do not fall and whose identifiers rise -/
structure Canonical (rail : Rail) (s : Engine κ σ α) : Prop where
  head : s.uuidPrefix < 2 ^ 80
  rail : s.initialized = true → s.rail = rail
  increasing : s.events.Pairwise fun e f => e.eventTime ≤ f.eventTime ∧ e.eventId < f.eventId
  issued : ∀ e ∈ s.events, ∃ n < s.uuidSequence, n < 2 ^ 48 ∧ e.eventId = uuidAt s.uuidPrefix n
  past : ∀ e ∈ s.events, e.eventTime ≤ s.clock.now
  valid : ∀ e ∈ s.events, e.validate = .ok ()
  seen : ∀ i ∈ s.seenEventIds, ∃ e ∈ s.events, e.eventId = i

theorem canonical_fresh (expected rail : Rail) (viewpoint : String) {uuidPrefix : ℕ} (hhead : uuidPrefix < 2 ^ 80)
    (start : Time) (ledger : Ledger) (adapter : α) :
    Canonical expected (fresh rail viewpoint uuidPrefix start ledger adapter : Engine κ σ α) := by
  refine ⟨hhead, ?_, ?_, ?_, ?_, ?_, ?_⟩ <;> simp [fresh]

theorem Canonical.touched (h : Canonical rail s) (ht : Touched s s') : Canonical rail s' := by
  refine ⟨ht.uuidPrefix ▸ h.head, ?_, ht.events ▸ h.increasing, ?_, ?_, ht.events ▸ h.valid, ?_⟩
  · intro hinit
    exact ht.rail.trans (h.rail (ht.initialized ▸ hinit))
  · rw [ht.events, ht.uuidPrefix]
    intro e he
    obtain ⟨n, hn, hid⟩ := h.issued e he
    exact ⟨n, hn.trans_le ht.uuidSequence, hid⟩
  · rw [ht.events, ht.now]
    exact h.past
  · rw [ht.events, ht.seenEventIds]
    exact h.seen

theorem Canonical.popped {rail : Rail} (h : Canonical rail s) {c : ScheduledCommand κ}
    (rest : List (ScheduledCommand κ)) (hnow : s.clock.now ≤ c.dueAt) : Canonical rail (popped s c rest) :=
  ⟨h.head, h.rail, h.increasing, h.issued, fun e he => (h.past e he).trans hnow, h.valid, h.seen⟩

theorem eventKey_lt (htime : e.eventTime ≤ f.eventTime) (hid : e.eventId < f.eventId) : eventKey e < eventKey f := by
  rw [eventKey, eventKey, Prod.Lex.toLex_lt_toLex]
  rcases htime.lt_or_eq with hlt | heq
  · exact .inl hlt
  · exact .inr ⟨heq, hid⟩

/-- the log is in strict key order -/
theorem Canonical.keys (h : Canonical rail s) : s.events.Pairwise fun e f => eventKey e < eventKey f :=
  h.increasing.imp fun hef => eventKey_lt hef.1 hef.2

/-- the identifiers of a canonical log are distinct -/
theorem Canonical.nodup (h : Canonical rail s) : (s.events.map PaymentEvent.eventId).Nodup := by
  rw [List.Nodup, List.pairwise_map]
  exact h.increasing.imp fun hef => ne_of_lt hef.2

theorem Canonical.after (h : Canonical rail s) (he : e ∈ s.events) (hf : Issued s s' f) :
    e.eventTime ≤ f.eventTime ∧ e.eventId < f.eventId := by
  obtain ⟨m, hm, -, hid⟩ := h.issued e he
  obtain ⟨n, hle, -, hn, hid'⟩ := hf.number
  refine ⟨(h.past e he).trans_eq hf.time.symm, ?_⟩
  rw [hid, hid']
  exact uuidAt_lt h.head hn (hm.trans_le hle)

/-- the engine after a batch of at most one event is appended -/
def appended (s : Engine κ σ α) (emitted : List PaymentEvent) : Engine κ σ α :=
  { s with
    events := s.events ++ emitted
    seenEventIds := emitted.map PaymentEvent.eventId ++ s.seenEventIds }

theorem Canonical.append_one (h : Canonical rail s) (ht : Touched s s') (he : Issued s s' e) :
    Canonical rail (appended s' [e]) := by
  have h' := h.touched ht
  have hmem : ∀ f ∈ (appended s' [e]).events, f ∈ s'.events ∨ f = e := by
    intro f hf
    rcases List.mem_append.1 hf with hf | hf
    · exact .inl hf
    · exact .inr (List.mem_singleton.1 hf)
  refine ⟨h'.head, h'.rail, ?_, ?_, ?_, ?_, ?_⟩
  · refine List.pairwise_append.2 ⟨h'.increasing, List.pairwise_singleton _ _, fun f hf g hg => ?_⟩
    rw [List.mem_singleton.1 hg]
    exact h.after (ht.events ▸ hf) he
  · intro f hf
    rcases hmem f hf with hf | rfl
    · exact h'.issued f hf
    · obtain ⟨n, -, hlt, hbound, hid⟩ := he.number
      exact ⟨n, hlt, hbound, ht.uuidPrefix ▸ hid⟩
  · intro f hf
    rcases hmem f hf with hf | rfl
    · exact h'.past f hf
    · exact (he.time.trans ht.now.symm).le
  · intro f hf
    rcases hmem f hf with hf | rfl
    · exact h'.valid f hf
    · exact he.valid
  · intro i hi
    rcases List.mem_append.1 hi with hi | hi
    · obtain ⟨f, hf, rfl⟩ := List.mem_map.1 hi
      exact ⟨f, List.mem_append_right _ hf, rfl⟩
    · obtain ⟨f, hf, hid⟩ := h'.seen i hi
      exact ⟨f, List.mem_append_left _ hf, hid⟩

theorem Canonical.check (h : Canonical rail s) (ht : Touched s s') (he : Issued s s' e) :
    checkBatch s' [] [e] = .ok () := by
  have hnew : s'.seenEventIds.contains e.eventId = false := by
    rw [← Bool.not_eq_true, List.contains_iff_mem]
    intro hmem
    obtain ⟨f, hf, hid⟩ := (h.touched ht).seen _ hmem
    exact (hid ▸ (h.after (ht.events ▸ hf) he).2).false
  simp only [checkBatch, checkCandidate, except_bind_eq_ok, check_eq_ok, decide_eq_true_eq]
  refine ⟨(), ⟨(), he.valid, (), he.rail.trans ht.rail.symm, (), he.time.trans ht.now.symm, ?_⟩, trivial⟩
  rw [hnew]
  rfl

/-- **No rejection.** What a logging adapter emits is appended as it is, and the log stays canonical. -/
theorem Canonical.append (h : Canonical rail s) (ht : Touched s s') {emitted : List PaymentEvent}
    (hemits : emitted = [] ∨ ∃ e, emitted = [e] ∧ Issued s s' e) :
    appendBatch emitted s' = .ok () (appended s' emitted) ∧ Canonical rail (appended s' emitted) := by
  have hrun : ∀ b : Bool, b = true →
      (guard b (.valueError "event ordering must be canonical") : EngineM κ σ α Unit) s' = .ok () s' := by
    rintro b rfl
    rfl
  rcases hemits with rfl | ⟨e, rfl, he⟩
  · have hsame : appended s' [] = s' := by simp [appended]
    rw [hsame]
    exact ⟨appendBatch_nil s', h.touched ht⟩
  · refine ⟨?_, h.append_one ht he⟩
    have hget : (get : EngineM κ σ α (Engine κ σ α)) s' = .ok s' s' := rfl
    have hchecked : (raising (checkBatch s' [] [e]) : EngineM κ σ α Unit) s' = .ok () s' := by
      rw [h.check ht he]
      rfl
    simp only [appendBatch, bind_run, hget, hchecked]
    rw [hrun]
    · rfl
    · cases hlast : s'.events.getLast? with
      | none => rfl
      | some last =>
        have hmem : last ∈ s.events := ht.events ▸ List.mem_of_getLast? hlast
        obtain ⟨htime, hid⟩ := h.after hmem he
        exact decide_eq_true (eventKey_lt htime hid).le

/-- **Step.** A turn of a logging adapter keeps the log canonical. -/
theorem canonical_steady (hA : Logging A rail) : Steady A (Canonical rail) where
  touched := fun h ht => h.touched ht
  initialised := by
    intro s s' u h hinit
    have htouched := hA.confined.init.ok hinit
    have h' := h.touched htouched
    exact ⟨h'.head, fun _ => htouched.rail.trans (hA.init hinit), h'.increasing, h'.issued, h'.past, h'.valid, h'.seen⟩
  turn := by
    intro s t times h hschedule hinit htimes
    obtain ⟨c, rest, hq, -, heq⟩ := dispatch_eq (A := A) hschedule htimes
    have hpopped := h.popped rest (hschedule.popped hq).2.1
    rw [heq, bind_run]
    cases hhandle : A.handle c.command (popped s c rest) with
    | error e s₁ => exact hpopped.touched ((hA.confined.handle c.command).error hhandle)
    | ok emitted s₁ =>
      obtain ⟨happend, hafter⟩ := hpopped.append ((hA.confined.handle c.command).ok hhandle)
        (hA.emits (h.rail hinit) hhandle)
      simp only
      rw [happend]
      exact hafter

/-! ## Replay -/

/-- a canonical log replays from any point of it -/
theorem replayFrom_dumped {ρ : Type} {codec : EventCodec ρ} {events : List PaymentEvent} {seen : List String}
    {lastKey : Option (Time ×ₗ String)} (hcodec : ∀ e ∈ events, codec.validate (codec.dump e) = .ok e)
    (hvalid : ∀ e ∈ events, e.validate = .ok ())
    (hkeys : events.Pairwise fun e f => e.eventTime ≤ f.eventTime ∧ e.eventId < f.eventId)
    (hseen : ∀ e ∈ events, e.eventId ∉ seen) (hlast : ∀ e ∈ events, ∀ last ∈ lastKey, last < eventKey e) :
    replayFrom codec seen lastKey (events.map codec.dump) = .ok events := by
  induction events generalizing seen lastKey with
  | nil => rfl
  | cons e rest ih =>
    rw [List.pairwise_cons] at hkeys
    have hrest : replayFrom codec (e.eventId :: seen) (some (eventKey e)) (rest.map codec.dump) = .ok rest := by
      refine ih (fun f hf => hcodec f (by simp [hf])) (fun f hf => hvalid f (by simp [hf])) hkeys.2 ?_ ?_
      · intro f hf hmem
        rcases List.mem_cons.1 hmem with heq | hmem
        · exact (heq ▸ (hkeys.1 f hf).2).false
        · exact hseen f (by simp [hf]) hmem
      · intro f hf last hlast
        cases hlast
        exact eventKey_lt (hkeys.1 f hf).1 (hkeys.1 f hf).2
    have hnew : seen.contains e.eventId = false := by
      rw [← Bool.not_eq_true, List.contains_iff_mem]
      exact hseen e (by simp)
    rw [List.map_cons, replayFrom, except_bind_eq_ok]
    refine ⟨e, hcodec e (by simp), ?_⟩
    simp only [except_bind_eq_ok, check_eq_ok, hnew]
    refine ⟨(), hvalid e (by simp), (), rfl, ?_⟩
    cases lastKey with
    | none =>
      simp only [hrest]
      rfl
    | some last =>
      have hlt := hlast e (by simp) last rfl
      simp only [if_neg hlt.le.not_gt, hrest]
      rfl

/-- **Replay.** The serialised log of a canonical engine replays to the log. -/
theorem Canonical.replays (h : Canonical rail s) {ρ : Type} {codec : EventCodec ρ} (hcodec : codec.RoundTrips s.events)
    (hs : s.failure = none) :
    ∃ payload, serializeEvents codec s = .ok payload s ∧ replayEvents codec payload = .ok s.events := by
  refine ⟨codec.dumps (s.events.map codec.dump), ?_, ?_⟩
  · have hhealthy : s.failure.isNone = true := by rw [hs]; rfl
    simp only [serializeEvents, bind_eq_ok, get_eq_ok, guard_eq_ok, pure_eq_ok]
    exact ⟨s, s, ⟨rfl, rfl⟩, (), s, ⟨hhealthy, rfl⟩, rfl, rfl⟩
  · have hreplayed : replayFrom codec [] none (s.events.map codec.dump) = .ok s.events :=
      replayFrom_dumped hcodec.event h.valid h.increasing (by simp) (by simp)
    rw [replayEvents, hcodec.text, except_bind_eq_ok]
    refine ⟨_, rfl, ?_⟩
    simp only [hreplayed, except_bind_eq_ok, except_pure_eq_ok]
    exact ⟨_, rfl, ⟨⟩, forM_eq_ok h.valid, rfl⟩

end Engine

end Apar
