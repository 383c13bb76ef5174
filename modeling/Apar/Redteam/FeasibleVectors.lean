/-
What the constructor has checked of public bounds (`redteam/policies.py`, `ParameterBounds.bounds_are_closed`).

Accepted bounds hold their feasible vectors as they were built, each with exactly the names of the domains and a value
of each domain, and every value of a domain stands in one of them. A vector is looked up by name.

- `Built.closed`: accepted bounds are `Closed`.
- `Closed.fingerprint_ext`: a feasible vector is told by its fingerprint.
- `Built.validateVector`: a feasible vector is valid, and stays as it is.
-/
import Apar.Redteam.Rebuilding

namespace Apar

open Exec

namespace Redteam

variable [Sha256]

namespace AdaptiveVector

/-- the value of a field, if the vector has it -/
def lookup (v : AdaptiveVector) (name : PyStr) : Option AdaptiveValue :=
  (v.entries.find? fun entry => entry.name = name).map AdaptiveParameter.value

omit [Sha256] in
theorem get_eq_ok {v : AdaptiveVector} {name : PyStr} {value : AdaptiveValue} :
    v.get name = .ok value ↔ v.lookup name = some value := by
  unfold get lookup
  cases v.entries.find? fun entry => entry.name = name with
  | none => simp
  | some entry => simp

omit [Sha256] in
theorem lookup_of_mem_names {v : AdaptiveVector} {name : PyStr} (h : name ∈ v.names) :
    ∃ value, v.lookup name = some value := by
  obtain ⟨entry, hentry, rfl⟩ := List.mem_map.1 h
  cases hfind : v.entries.find? fun e => e.name = entry.name with
  | none =>
    have := List.find?_eq_none.1 hfind entry hentry
    simp at this
  | some found => exact ⟨found.value, by rw [lookup, hfind, Option.map_some]⟩

end AdaptiveVector

namespace ParameterBounds

/-- what the constructor has checked of the bounds it accepts -/
structure Closed (b : ParameterBounds) : Prop where
  sorted : b.names = sortedSet b.names
  fingerprints : b.feasibleVectors.map AdaptiveVector.fingerprint =
    sortedSet (b.feasibleVectors.map AdaptiveVector.fingerprint)
  names : ∀ v ∈ b.feasibleVectors, v.names = b.names
  allowed : ∀ v ∈ b.feasibleVectors, ∀ d ∈ b.domains, ∃ value ∈ d.values, v.lookup d.name = some value
  advertised : ∀ d ∈ b.domains, ∀ value ∈ d.values, ∃ v ∈ b.feasibleVectors, v.lookup d.name = some value
  defaultsNames : b.defaults.names = b.names
  defaults : b.defaults.fingerprint ∈ b.feasibleVectors.map AdaptiveVector.fingerprint

theorem Built.closed {b : ParameterBounds} (h : b.Built) : b.Closed := by
  have hmake := h.make
  simp only [ParameterBounds.make, except_bind_eq_ok] at hmake
  obtain ⟨_, _, _, _, _, _, _, _, _, _, _, _, _, hclosed, -⟩ := hmake
  simp only [boundsAreClosed, except_bind_eq_ok, check_eq_ok, decide_eq_true_eq, exists_const,
    List.contains_iff_mem] at hclosed
  obtain ⟨⟨hsorted, hnames⟩, hfingerprints, _, hvectors, hdefaults, hvalues⟩ := hclosed
  have hcheck : ∀ v ∈ b.feasibleVectors, b.checkVector v = .ok () := fun v hv => forM_mem hvectors hv
  refine ⟨hsorted, hfingerprints, ?_, ?_, ?_, hnames, hdefaults⟩
  · intro v hv
    have := hcheck v hv
    simp only [checkVector, except_bind_eq_ok, check_eq_ok, decide_eq_true_eq, exists_const] at this
    exact this.1
  · intro v hv d hd
    have := hcheck v hv
    simp only [checkVector, except_bind_eq_ok] at this
    obtain ⟨_, -, hdomains⟩ := this
    have hdomain := forM_mem hdomains hd
    simp only [except_bind_eq_ok, validating_eq_ok, check_eq_ok, List.any_eq_true, AdaptiveValue.sameValue,
      decide_eq_true_eq, AdaptiveVector.get_eq_ok] at hdomain
    obtain ⟨value, hget, allowed, hallowed, rfl⟩ := hdomain
    exact ⟨value, hallowed, hget⟩
  · intro d hd value hvalue
    have hdomain := forM_mem hvalues hd
    simp only [except_bind_eq_ok, validating_eq_ok, check_eq_ok, List.all_eq_true, List.any_eq_true,
      AdaptiveValue.sameValue, decide_eq_true_eq] at hdomain
    obtain ⟨represented, hrepresented, hall⟩ := hdomain
    obtain ⟨_, hmem, rfl⟩ := hall value hvalue
    obtain ⟨v, hv, hget⟩ := forall₂_mem_right (mapM_eq_ok.1 hrepresented) hmem
    exact ⟨v, hv, AdaptiveVector.get_eq_ok.1 hget⟩

namespace Closed

variable {b : ParameterBounds}

omit [Sha256] in
theorem names_nodup (h : b.names = sortedSet b.names) : b.names.Nodup := by
  rw [h]
  exact sortedSet_nodup _

theorem domain_ext (h : b.Closed) {d e : ParameterDomain} (hd : d ∈ b.domains) (he : e ∈ b.domains)
    (hname : d.name = e.name) : d = e :=
  List.inj_on_of_nodup_map (names_nodup h.sorted) hd he hname

theorem fingerprint_ext (h : b.Closed) {v w : AdaptiveVector} (hv : v ∈ b.feasibleVectors) (hw : w ∈ b.feasibleVectors)
    (hvw : v.fingerprint = w.fingerprint) : v = w := by
  have hnodup : (b.feasibleVectors.map AdaptiveVector.fingerprint).Nodup := by
    rw [h.fingerprints]
    exact sortedSet_nodup _
  exact List.inj_on_of_nodup_map hnodup hv hw hvw

theorem vectors_nodup (h : b.Closed) : b.feasibleVectors.Nodup := by
  refine List.Nodup.of_map AdaptiveVector.fingerprint ?_
  rw [h.fingerprints]
  exact sortedSet_nodup _

end Closed

variable {b : ParameterBounds}

theorem Built.validateVector (hb : b.Built) {v : AdaptiveVector} (hv : v ∈ b.feasibleVectors) :
    b.validateVector v = .ok v := by
  have hmem : v.fingerprint ∈ b.feasibleVectors.map AdaptiveVector.fingerprint := List.mem_map_of_mem hv
  simp only [ParameterBounds.validateVector, except_bind_eq_ok, check_eq_ok, decide_eq_true_eq, except_pure_eq_ok,
    exists_const, List.contains_iff_mem]
  exact ⟨v, reconstructVector_built (hb.vectors v hv), hb.closed.names v hv, hmem, rfl⟩

theorem Built.validateVector_defaults (hb : b.Built) : b.validateVector b.defaults = .ok b.defaults := by
  simp only [ParameterBounds.validateVector, except_bind_eq_ok, check_eq_ok, decide_eq_true_eq, except_pure_eq_ok,
    exists_const, List.contains_iff_mem]
  exact ⟨b.defaults, reconstructVector_built hb.defaults, hb.closed.defaultsNames, hb.closed.defaults, rfl⟩

theorem names_of_validateVector {v w : AdaptiveVector} (h : b.validateVector v = .ok w) : w = v ∧ v.names = b.names := by
  simp only [ParameterBounds.validateVector, except_bind_eq_ok, check_eq_ok, decide_eq_true_eq, except_pure_eq_ok,
    exists_const] at h
  obtain ⟨rebuilt, hrebuilt, hnames, _, rfl⟩ := h
  obtain ⟨-, rfl⟩ := built_of_reconstructVector hrebuilt
  exact ⟨rfl, hnames⟩

end ParameterBounds

end Redteam

end Apar
