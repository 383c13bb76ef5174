/-
The frozen defender of the red-team benchmark (`redteam/benchmark.py`): its rules, the set they are declared in, and what
the set decides.

A set sorts its rules by family, feature, threshold, action and reason. Thresholds are compared as numbers there, and as
texts where the set is checked for duplicates and hashed. `decide` and `matchedRule` pick a triggered rule each by itself.

- `rules_same`: the rules of permuted declarations are the same, as Python compares them.
- `decide_same`, `matchedRule_same`: so permuted sets decide the same and name the same rule.
- `decide_eq_matched`: the decision is the one of the matched rule.
- `severity_mono`: higher features are never decided more leniently.
- `defender_order_free_iff`: the digest is free of the order exactly when no two rules differ in the writing of a
  threshold only.
-/
import Mathlib.Data.List.Forall2
import Mathlib.Data.List.MinMax
import Mathlib.Data.Prod.Lex
import Mathlib.Data.String.Basic
import Apar.Core.Exec
import Apar.Core.Dict
import Apar.Core.DecimalText
import Apar.Core.Sorting
import Apar.Contracts.Decision

namespace Apar

open Exec

namespace Benchmark

/-- what a declaration raises -/
inductive DeclarationError where
  | configuration (message : String)
  | typeError (message : String)
  | valueError (message : String)
deriving DecidableEq

/-- the keys of `_MOTIFS` -/
def motifs : List String := ["agentic_intent_abuse", "app_scam_mule", "card_testing_cnp", "synthetic_merchant_refund"]

/-- `PUBLIC_REASON_FAMILIES` -/
def publicReasonFamilies : List String :=
  ["amount", "approved", "authentication", "authorization", "entity", "evaluation_failure", "integrity",
    "invalid_candidate", "other", "policy", "recovery", "velocity"]

/-- `_SEVERITY` -/
def severity : Action → ℕ
  | .approve => 0
  | .challenge => 1
  | .decline => 2

/-! ## Rules -/

/-- a rule, as its `__post_init__` admits it -/
structure DefenderRule where
  family : String
  feature : String
  threshold : DecimalTuple
  action : Action
  reasonFamily : String
  supported : family ∈ motifs
  observable : feature ≠ ""
  active : action ≠ .approve
  isPublic : reasonFamily ∈ publicReasonFamilies ∧ reasonFamily ≠ "approved"
deriving DecidableEq

namespace DefenderRule

/-- `str(rule.threshold)` -/
def thresholdText (r : DefenderRule) : String := String.ofList r.threshold.text

/-- the threshold as a number -/
def limit (r : DefenderRule) : Decimal := r.threshold.toDecimal

def document (r : DefenderRule) : Json :=
  .obj [("family", .str r.family), ("feature", .str r.feature), ("threshold", .str r.thresholdText),
    ("action", .str r.action.value), ("reason_family", .str r.reasonFamily)]

/-- `left == right` on rules: thresholds are compared as numbers -/
def Same (r s : DefenderRule) : Prop :=
  r.family = s.family ∧ r.feature = s.feature ∧ r.limit.value = s.limit.value ∧ r.action = s.action ∧
    r.reasonFamily = s.reasonFamily

/-- the key rules are sorted by -/
def sortKey (r : DefenderRule) : String ×ₗ String ×ₗ ℚ ×ₗ String ×ₗ String :=
  toLex (r.family, toLex (r.feature, toLex (r.limit.value, toLex (r.action.value, r.reasonFamily))))

/-- the key a decision is picked by; the negated severity is the severity in the opposite order -/
def choiceKey (r : DefenderRule) : ℕᵒᵈ ×ₗ String ×ₗ String :=
  toLex (OrderDual.toDual (severity r.action), toLex (r.reasonFamily, r.feature))

/-- a rule of a family that features trigger -/
def triggers (family : String) (features : Dict String Decimal) (r : DefenderRule) : Bool :=
  r.family = family && (features.get? r.feature).any fun value => r.limit.ble value

end DefenderRule

open DefenderRule

/-! ## Rule sets -/

/-- `DefenderRuleSet` -/
structure DefenderRuleSet where
  version : String
  rules : List DefenderRule

namespace DefenderRuleSet

section

variable [Sha256]

/-- `DefenderRuleSet.__post_init__` -/
def make (version : String) (rules : List DefenderRule) : Except DeclarationError DefenderRuleSet := do
  check (version ≠ "") (.typeError "defender version must be an exact non-empty string")
  let ordered := sortBy sortKey rules
  check ((ordered.map fun r => Sha256.hexdigest r.document).dedup.length = ordered.length)
    (.valueError "defender rules must be unique")
  return ⟨version, ordered⟩

/-- what `defender_digest` hashes -/
def document (version : String) (rules : List DefenderRule) : Json :=
  .obj [("version", .str version), ("rules", .arr (rules.map DefenderRule.document))]

def defenderDigest (d : DefenderRuleSet) : String := Sha256.hexdigest (document d.version d.rules)

end

/-- `DefenderRuleSet.decide` -/
def decide (d : DefenderRuleSet) (family : String) (features : Dict String Decimal) : Action × String :=
  let triggered := d.rules.filter (triggers family features)
  match triggered.argmin choiceKey with
  | none => (.approve, "approved")
  | some winner => (winner.action, winner.reasonFamily)

/-- `_matched_rule`: `none` when nothing is triggered -/
def matchedRule (d : DefenderRuleSet) (family : String) (features : Dict String Decimal) : Option DefenderRule :=
  let triggered := d.rules.filter (triggers family features)
  triggered.argmin choiceKey

end DefenderRuleSet

/-! ## The same rules -/

namespace DefenderRule

theorem sortKey_eq_iff {r s : DefenderRule} : r.sortKey = s.sortKey ↔ Same r s := by
  have haction : r.action.value = s.action.value ↔ r.action = s.action := by
    cases r.action <;> cases s.action <;> decide
  simp only [sortKey, toLex_inj, Prod.mk.injEq, haction, Same]

theorem Same.choiceKey {r s : DefenderRule} (h : Same r s) : r.choiceKey = s.choiceKey := by
  obtain ⟨-, hfeature, -, haction, hreason⟩ := h
  rw [DefenderRule.choiceKey, DefenderRule.choiceKey, hfeature, haction, hreason]

theorem Same.triggers {r s : DefenderRule} (h : Same r s) (family : String) (features : Dict String Decimal) :
    r.triggers family features = s.triggers family features := by
  obtain ⟨hfamily, hfeature, hlimit, -, -⟩ := h
  have hble : r.limit.ble = s.limit.ble := by
    funext value
    rw [Bool.eq_iff_iff, Decimal.ble_iff, Decimal.ble_iff, hlimit]
  rw [DefenderRule.triggers, DefenderRule.triggers, hfamily, hfeature, hble]

theorem eq_of_document {r s : DefenderRule} (h : r.document = s.document) : r = s := by
  simp only [document, Json.obj.injEq, List.cons.injEq, Prod.mk.injEq, Json.str.injEq, true_and, and_true] at h
  obtain ⟨hfamily, hfeature, htext, haction, hreason⟩ := h
  have hread := congrArg (DecimalTuple.read ·) (String.ofList_injective htext)
  simp only [DecimalTuple.read_text, Option.some.injEq, DecimalNumber.finite.injEq] at hread
  have hactions : r.action = s.action := by
    revert haction
    cases r.action <;> cases s.action <;> decide
  cases r
  cases s
  simp only at hfamily hfeature hread hactions hreason
  subst hfamily hfeature hread hactions hreason
  rfl

theorem Same.eq_of_text {r s : DefenderRule} (h : Same r s) (htext : r.thresholdText = s.thresholdText) : r = s := by
  obtain ⟨hfamily, hfeature, -, haction, hreason⟩ := h
  apply eq_of_document
  rw [DefenderRule.document, DefenderRule.document, hfamily, hfeature, htext, haction, hreason]

end DefenderRule

/-- same rules have the same first least one -/
theorem argmin_same {xs ys : List DefenderRule} (h : List.Forall₂ Same xs ys) :
    Option.Rel Same (xs.argmin choiceKey) (ys.argmin choiceKey) := by
  have hfold : ∀ {o o' : Option DefenderRule}, Option.Rel Same o o' →
      Option.Rel Same (xs.foldl (List.argAux fun b c => choiceKey b < choiceKey c) o)
        (ys.foldl (List.argAux fun b c => choiceKey b < choiceKey c) o') := by
    induction h with
    | nil => exact fun ho => ho
    | @cons x y xs ys hxy _ ih =>
      intro o o' ho
      rw [List.foldl_cons, List.foldl_cons]
      apply ih
      cases ho with
      | none => exact .some hxy
      | some hbest =>
        simp only [List.argAux, hxy.choiceKey, hbest.choiceKey]
        split_ifs
        · exact .some hxy
        · exact .some hbest
  exact hfold .none

namespace DefenderRuleSet

variable [Sha256] {version : String} {rules permuted : List DefenderRule} {d e : DefenderRuleSet}

theorem make_eq_ok : make version rules = .ok d ↔ version ≠ "" ∧ (rules.map fun r => Sha256.hexdigest r.document).Nodup ∧
    d = ⟨version, sortBy sortKey rules⟩ := by
  have hunique : ((sortBy sortKey rules).map fun r => Sha256.hexdigest r.document).dedup.length =
      (sortBy sortKey rules).length ↔ (rules.map fun r => Sha256.hexdigest r.document).Nodup := by
    have hperm := (sortBy_perm sortKey rules).map fun r => Sha256.hexdigest r.document
    rw [← hperm.nodup_iff, ← List.dedup_eq_self]
    refine ⟨fun h => ?_, fun h => by rw [h, List.length_map]⟩
    apply (List.dedup_sublist _).eq_of_length
    rw [h, List.length_map]
  simp only [make, except_bind_eq_ok, check_eq_ok, decide_eq_true_eq, except_pure_eq_ok, hunique]
  constructor
  · rintro ⟨_, hversion, _, hnodup, heq⟩
    exact ⟨hversion, hnodup, heq.symm⟩
  · rintro ⟨hversion, hnodup, heq⟩
    exact ⟨(), hversion, (), hnodup, heq.symm⟩

/-- **Acceptance is free of the order.** -/
theorem make_perm (h : make version rules = .ok d) (hperm : rules.Perm permuted) :
    make version permuted = .ok ⟨version, sortBy sortKey permuted⟩ := by
  obtain ⟨hversion, hnodup, -⟩ := make_eq_ok.1 h
  exact make_eq_ok.2 ⟨hversion, (hperm.map _).nodup_iff.1 hnodup, rfl⟩

end DefenderRuleSet

/-- **The rules are free of the order**, as Python compares them: equal keys are the same rules. -/
theorem rules_same {rules permuted : List DefenderRule} (hperm : rules.Perm permuted) :
    List.Forall₂ Same (sortBy sortKey rules) (sortBy sortKey permuted) := by
  have hkeys : (sortBy sortKey rules).map sortKey = (sortBy sortKey permuted).map sortKey := by
    have hsorted : ∀ xs : List DefenderRule, ((sortBy sortKey xs).map sortKey).Pairwise (· ≤ ·) := fun xs =>
      List.pairwise_map.2 (sortBy_sorted sortKey xs)
    refine List.Perm.eq_of_pairwise (fun a b _ _ hab hba => le_antisymm hab hba) (hsorted _) (hsorted _) ?_
    exact ((sortBy_perm sortKey rules).trans (hperm.trans (sortBy_perm sortKey permuted).symm)).map sortKey
  have hpairs : List.Forall₂ (fun r s => r.sortKey = s.sortKey) (sortBy sortKey rules) (sortBy sortKey permuted) := by
    have hequal : List.Forall₂ (· = ·) ((sortBy sortKey rules).map sortKey) ((sortBy sortKey permuted).map sortKey) := by
      rw [List.forall₂_eq_eq_eq, hkeys]
    exact List.forall₂_map_left_iff.1 (List.forall₂_map_right_iff.1 hequal)
  exact hpairs.imp fun _ _ h => sortKey_eq_iff.1 h

/-! ## Decisions -/

namespace DefenderRuleSet

variable {d e : DefenderRuleSet} (family : String) (features : Dict String Decimal)

/-- **The matched rule is free of the order.** -/
theorem matchedRule_same (h : List.Forall₂ Same d.rules e.rules) :
    Option.Rel Same (d.matchedRule family features) (e.matchedRule family features) := by
  apply argmin_same
  refine List.rel_filter (fun r s hsame => ?_) h
  show r.triggers family features = true ↔ s.triggers family features = true
  rw [hsame.triggers family features]

/-- **The decision is the one of the matched rule**, and to approve without one. -/
theorem decide_eq_matched : d.decide family features =
    match d.matchedRule family features with
    | none => (.approve, "approved")
    | some rule => (rule.action, rule.reasonFamily) := rfl

theorem approves_iff : d.decide family features = (.approve, "approved") ↔ d.matchedRule family features = none := by
  rw [decide_eq_matched]
  cases d.matchedRule family features with
  | none => simp
  | some rule => simp [rule.active]

theorem decide_same (h : List.Forall₂ Same d.rules e.rules) : d.decide family features = e.decide family features := by
  rw [decide_eq_matched, decide_eq_matched]
  have hrules := matchedRule_same family features h
  generalize d.matchedRule family features = matched at hrules
  generalize e.matchedRule family features = other at hrules
  cases hrules with
  | none => rfl
  | some hsame =>
    obtain ⟨-, -, -, haction, hreason⟩ := hsame
    simp only [haction, hreason]

/-- features that are all there, at least as high -/
def Raised (features raised : Dict String Decimal) : Prop :=
  ∀ name value, features.get? name = some value → ∃ higher, raised.get? name = some higher ∧ value.value ≤ higher.value

theorem Raised.triggers {features raised : Dict String Decimal} (h : Raised features raised) {r : DefenderRule}
    (hr : r.triggers family features = true) : r.triggers family raised = true := by
  rw [DefenderRule.triggers, Bool.and_eq_true, Option.any_eq_true] at hr ⊢
  obtain ⟨hfamily, value, hvalue, hlimit⟩ := hr
  obtain ⟨higher, hhigher, hle⟩ := h _ _ hvalue
  exact ⟨hfamily, higher, hhigher, (Decimal.ble_iff _ _).2 (((Decimal.ble_iff _ _).1 hlimit).trans hle)⟩

/-- **Higher features are never decided more leniently.** The rule that was matched is still triggered, and the one matched
now is at least as severe. -/
theorem severity_mono {features raised : Dict String Decimal} (h : Raised features raised) :
    severity (d.decide family features).1 ≤ severity (d.decide family raised).1 := by
  rw [decide_eq_matched, decide_eq_matched]
  cases hrule : d.matchedRule family features with
  | none => exact Nat.zero_le _
  | some rule =>
    have hmem := List.mem_filter.1 (List.argmin_mem hrule)
    have hraised : rule ∈ d.rules.filter (triggers family raised) := List.mem_filter.2 ⟨hmem.1, h.triggers family hmem.2⟩
    cases hnow : d.matchedRule family raised with
    | none =>
      rw [matchedRule, List.argmin_eq_none] at hnow
      rw [hnow] at hraised
      exact absurd hraised List.not_mem_nil
    | some now =>
      have hle : now.choiceKey ≤ rule.choiceKey := List.le_of_mem_argmin hraised hnow
      rw [choiceKey, choiceKey, Prod.Lex.toLex_le_toLex] at hle
      rcases hle with hlt | ⟨heq, -⟩
      · exact (OrderDual.toDual_lt_toDual.1 hlt).le
      · exact (OrderDual.toDual_inj.1 heq).ge

end DefenderRuleSet

/-! ## The digest -/

open DefenderRuleSet

section

variable [Sha256]

/-- what the order of a declaration must not matter for -/
def OrderFree (version : String) (rules : List DefenderRule) (d : DefenderRuleSet) : Prop :=
  ∀ permuted, rules.Perm permuted → ∃ e, make version permuted = .ok e ∧ List.Forall₂ Same d.rules e.rules ∧
    d.defenderDigest = e.defenderDigest ∧ ∀ family features, d.decide family features = e.decide family features ∧
      Option.Rel Same (d.matchedRule family features) (e.matchedRule family features)

/-- what every decision of a set satisfies -/
def Lawful (d : DefenderRuleSet) : Prop :=
  (∀ family features, d.decide family features = match d.matchedRule family features with
    | none => (.approve, "approved")
    | some rule => (rule.action, rule.reasonFamily)) ∧
  (∀ family features, d.decide family features = (.approve, "approved") ↔ d.matchedRule family features = none) ∧
  ∀ family features raised, Raised features raised →
    severity (d.decide family features).1 ≤ severity (d.decide family raised).1

omit [Sha256] in
theorem lawful (d : DefenderRuleSet) : Lawful d :=
  ⟨decide_eq_matched, approves_iff, fun family _ _ h => severity_mono family h⟩

/-- `sha256` does not collide on what the orders of a declaration are hashed as -/
def CollisionFree (version : String) (rules : List DefenderRule) : Prop :=
  Set.InjOn Sha256.hexdigest {j | ∃ permuted, rules.Perm permuted ∧ j = DefenderRuleSet.document version permuted}

omit [Sha256] in
theorem document_inj {version : String} {xs ys : List DefenderRule}
    (h : DefenderRuleSet.document version xs = DefenderRuleSet.document version ys) : xs = ys := by
  simp only [DefenderRuleSet.document, Json.obj.injEq, List.cons.injEq, Prod.mk.injEq, Json.arr.injEq, true_and, and_true] at h
  exact List.map_injective_iff.2 (fun _ _ => eq_of_document) h

omit [Sha256] in
theorem eq_of_reverse_eq {xs : List DefenderRule} (hnodup : xs.Nodup) (h : xs.reverse = xs) {r s : DefenderRule} (hr : r ∈ xs)
    (hs : s ∈ xs) : r = s := by
  have hpos : 0 < xs.length := List.length_pos_of_mem hr
  have hends : xs[0] = xs[xs.length - 1] := by
    have hreverse : 0 < xs.reverse.length := by rw [List.length_reverse]; exact hpos
    have hfirst : xs.reverse[0] = xs[xs.length - 1] := by
      rw [List.getElem_reverse]
      rfl
    rw [← hfirst]
    simp only [h]
  have hlength := (List.Nodup.getElem_inj_iff hnodup).1 hends
  obtain ⟨x, hx⟩ := List.length_eq_one_iff.1 (by omega : xs.length = 1)
  rw [hx, List.mem_singleton] at hr hs
  rw [hr, hs]

omit [Sha256] in
/-- rules that are the same keep their order when they are sorted -/
theorem sortBy_ne_reverse {rules : List DefenderRule} (hnodup : rules.Nodup) {r s : DefenderRule} (hr : r ∈ rules)
    (hs : s ∈ rules) (hsame : Same r s) (hne : r ≠ s) : sortBy sortKey rules ≠ sortBy sortKey rules.reverse := by
  intro heq
  have hpair := congrArg (List.filter fun x => x = r ∨ x = s) heq
  rw [filter_sortBy, filter_sortBy, List.filter_reverse] at hpair
  have hkeys : ∀ x ∈ rules.filter (fun x => x = r ∨ x = s), x.sortKey = r.sortKey := by
    intro x hx
    rcases of_decide_eq_true (List.mem_filter.1 hx).2 with rfl | rfl
    · rfl
    · exact (sortKey_eq_iff.2 hsame).symm
  have hsorted : ∀ xs : List DefenderRule, (∀ x ∈ xs, x.sortKey = r.sortKey) → sortBy sortKey xs = xs := by
    intro xs hxs
    apply sortBy_of_sorted
    exact List.pairwise_of_forall_mem_list fun a ha b hb => ((hxs a ha).trans (hxs b hb).symm).le
  rw [hsorted _ hkeys, hsorted _ fun x hx => hkeys x (List.mem_reverse.1 hx)] at hpair
  apply hne
  exact eq_of_reverse_eq (hnodup.filter _) hpair.symm (List.mem_filter.2 ⟨hr, decide_eq_true (.inl rfl)⟩)
    (List.mem_filter.2 ⟨hs, decide_eq_true (.inr rfl)⟩)

/-- **Defender rule sets.** A declaration that is accepted is free of its order, in its rules, its digest, its decisions
and its matched rules, exactly when no two of its rules differ in the writing of a threshold only. -/
theorem defender_order_free_iff {version : String} {rules : List DefenderRule} {d : DefenderRuleSet}
    (hcollision : CollisionFree version rules) (hmade : make version rules = .ok d) :
    OrderFree version rules d ∧ Lawful d ↔ ∀ r ∈ rules, ∀ s ∈ rules, Same r s → r.thresholdText = s.thresholdText := by
  obtain ⟨hversion, hnodup, rfl⟩ := make_eq_ok.1 hmade
  refine ⟨fun ⟨hfree, _⟩ r hr s hs hsame => ?_, fun htexts => ⟨fun permuted hperm => ?_, lawful _⟩⟩
  · by_contra htext
    have hne : r ≠ s := fun h => htext (by rw [h])
    obtain ⟨e, hmake, -, hdigest, -⟩ := hfree rules.reverse (List.reverse_perm rules).symm
    obtain ⟨-, -, rfl⟩ := make_eq_ok.1 hmake
    have hdocument := hcollision ⟨_, (sortBy_perm sortKey rules).symm, rfl⟩
      ⟨_, (List.reverse_perm rules).symm.trans (sortBy_perm sortKey rules.reverse).symm, rfl⟩ hdigest
    exact sortBy_ne_reverse (List.Nodup.of_map _ hnodup) hr hs hsame hne (document_inj hdocument)
  · have hsame := rules_same hperm
    -- no two keys are equal, so the sort does not depend on the order
    have hkeys : (rules.map sortKey).Nodup := by
      refine (List.Nodup.of_map _ hnodup).map_on fun r hr s hs hkey => ?_
      have hrules := sortKey_eq_iff.1 hkey
      exact hrules.eq_of_text (htexts r hr s hs hrules)
    have hequal : sortBy sortKey rules = sortBy sortKey permuted := sortBy_congr hperm hkeys
    refine ⟨_, make_perm hmade hperm, hsame, ?_, fun family features => ⟨decide_same family features hsame,
      matchedRule_same family features hsame⟩⟩
    show Sha256.hexdigest _ = Sha256.hexdigest _
    rw [hequal]

end

/-! ## Samples -/

/-- texts of trees of the shapes that are hashed here -/
def flat : Json → String
  | .obj fields => String.join (fields.map fun p => match p.2 with
    | .str s => s ++ ";"
    | .arr xs => String.join (xs.map fun x => match x with
      | .obj inner => String.join (inner.map fun q => match q.2 with
        | .str s => s ++ ","
        | _ => "")
      | _ => "")
    | _ => "")
  | _ => ""

@[reducible] def flatDigest : Sha256 := ⟨flat, fun _ => ""⟩

/-- a rule of the shipped defender, with its threshold and action to choose -/
def payeeRule (threshold : DecimalTuple) : DefenderRule :=
  ⟨"app_scam_mule", "max_distinct_payees_per_actor", threshold, .challenge, "entity", by decide, by decide, by decide,
    by decide⟩

theorem sample_sorted {s t : DecimalTuple} (h : s.toDecimal.value ≤ t.toDecimal.value) :
    sortBy sortKey [payeeRule s, payeeRule t] = [payeeRule s, payeeRule t] := by
  apply sortBy_of_sorted
  rw [List.pairwise_pair]
  have hfamily : (payeeRule s).family = (payeeRule t).family := rfl
  have hfeature : (payeeRule s).feature = (payeeRule t).feature := rfl
  have hlimit : (payeeRule s).limit.value ≤ (payeeRule t).limit.value := h
  rw [sortKey, sortKey, hfamily, hfeature, Prod.Lex.toLex_le_toLex]
  refine .inr ⟨rfl, Prod.Lex.toLex_le_toLex.2 (.inr ⟨rfl, ?_⟩)⟩
  rcases hlimit.lt_or_eq with hlt | heq
  · exact Prod.Lex.toLex_le_toLex.2 (.inl hlt)
  · exact Prod.Lex.toLex_le_toLex.2 (.inr ⟨heq, le_rfl⟩)

theorem defender_order_free_sample : let _ := flatDigest
    OrderFree "artifact-defender-1.0.0" [payeeRule ⟨false, 3, 0⟩, payeeRule ⟨false, 4, 0⟩]
        ⟨"artifact-defender-1.0.0", [payeeRule ⟨false, 3, 0⟩, payeeRule ⟨false, 4, 0⟩]⟩ := by
  let _ := flatDigest
  have hmade : make "artifact-defender-1.0.0" [payeeRule ⟨false, 3, 0⟩, payeeRule ⟨false, 4, 0⟩] =
      .ok ⟨"artifact-defender-1.0.0", [payeeRule ⟨false, 3, 0⟩, payeeRule ⟨false, 4, 0⟩]⟩ :=
    make_eq_ok.2 ⟨by decide, by decide, by rw [sample_sorted (by norm_num [DecimalTuple.toDecimal, Decimal.value])]⟩
  have hcollision : CollisionFree "artifact-defender-1.0.0" [payeeRule ⟨false, 3, 0⟩, payeeRule ⟨false, 4, 0⟩] := by
    have hdiffer : flat (document "artifact-defender-1.0.0" [payeeRule ⟨false, 3, 0⟩, payeeRule ⟨false, 4, 0⟩]) ≠
        flat (document "artifact-defender-1.0.0" [payeeRule ⟨false, 4, 0⟩, payeeRule ⟨false, 3, 0⟩]) := by decide
    have hperms : [payeeRule ⟨false, 3, 0⟩, payeeRule ⟨false, 4, 0⟩].permutations' =
      [[payeeRule ⟨false, 3, 0⟩, payeeRule ⟨false, 4, 0⟩], [payeeRule ⟨false, 4, 0⟩, payeeRule ⟨false, 3, 0⟩]] := by decide
    rintro _ ⟨xs, hxs, rfl⟩ _ ⟨ys, hys, rfl⟩ hsame
    have hx := List.mem_permutations'.2 hxs.symm
    have hy := List.mem_permutations'.2 hys.symm
    simp only [hperms, List.mem_cons, List.not_mem_nil, or_false] at hx hy
    rcases hx with rfl | rfl <;> rcases hy with rfl | rfl
    · rfl
    · exact absurd hsame hdiffer
    · exact absurd hsame.symm hdiffer
    · rfl
  refine ((defender_order_free_iff hcollision hmade).2 fun r hr s hs hsame => ?_).1
  have hvalues : (⟨false, 3, 0⟩ : DecimalTuple).toDecimal.value ≠ (⟨false, 4, 0⟩ : DecimalTuple).toDecimal.value := by
    norm_num [DecimalTuple.toDecimal, Decimal.value]
  obtain ⟨-, -, hlimit, -, -⟩ := hsame
  simp only [List.mem_cons, List.not_mem_nil, or_false] at hr hs
  rcases hr with rfl | rfl <;> rcases hs with rfl | rfl
  · rfl
  · exact absurd hlimit hvalues
  · exact absurd hlimit.symm hvalues
  · rfl

/-- **The digest depends on the order.** Four is written as `4` and as `4.0`; both rules are accepted, and the digest of
the set follows the order of their declaration. -/
theorem defender_digest_ordered : let _ := flatDigest
    let rules := [payeeRule ⟨false, 4, 0⟩, payeeRule ⟨false, 40, -1⟩]
    ∃ d e, make "artifact-defender-1.0.0" rules = .ok d ∧ make "artifact-defender-1.0.0" rules.reverse = .ok e ∧
      d.defenderDigest ≠ e.defenderDigest := by
  let _ := flatDigest
  refine ⟨⟨"artifact-defender-1.0.0", [payeeRule ⟨false, 4, 0⟩, payeeRule ⟨false, 40, -1⟩]⟩,
    ⟨"artifact-defender-1.0.0", [payeeRule ⟨false, 40, -1⟩, payeeRule ⟨false, 4, 0⟩]⟩, ?_, ?_, ?_⟩
  · exact make_eq_ok.2 ⟨by decide, by decide, by rw [sample_sorted (by norm_num [DecimalTuple.toDecimal, Decimal.value])]⟩
  · exact make_eq_ok.2 ⟨by decide, by decide, by
      show _ = DefenderRuleSet.mk _ (sortBy sortKey [payeeRule ⟨false, 40, -1⟩, payeeRule ⟨false, 4, 0⟩])
      rw [sample_sorted (by norm_num [DecimalTuple.toDecimal, Decimal.value])]⟩
  · have hdiffer : flat (document "artifact-defender-1.0.0" [payeeRule ⟨false, 4, 0⟩, payeeRule ⟨false, 40, -1⟩]) ≠
        flat (document "artifact-defender-1.0.0" [payeeRule ⟨false, 40, -1⟩, payeeRule ⟨false, 4, 0⟩]) := by decide
    exact hdiffer

end Benchmark

end Apar
