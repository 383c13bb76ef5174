/-
The rows of the portable demonstration (`demo/sentinel_v5_portable.py`): `select_demo_rows` keeps, in one pass, a bounded
sorted pool for each coverage requirement, then takes one row for each requirement, each the least that is left, and
fills up.

- `selectDemoRows_congr`: the selection is free of the order of the rows.
- `selectDemoRows_sound`: a selection has exactly `limit` rows, all different, and covers every requirement.
- `selectDemoRows_isOk_iff`: when there is a selection.
- `demo_selection_iff`: the greedy choice is complete unless the least row of a fraud family is the only row with a
  friction action. The family takes it first, also where another row could stand for the family.
-/
import Apar.Core.JsonPlain
import Apar.Core.Shortlist

namespace Apar.Demo

open Exec

/-! ## Rows and requirements -/

/-- what the selection reads of a row and its support -/
structure DemoRow where
  eventId : PyStr
  label : ℤ
  family : PyStr
  rail : PyStr
  /-- `probability_action` -/
  action : PyStr
deriving DecidableEq

/-- what a requirement is about -/
inductive Kind where
  | family
  | rail
  | action
deriving DecidableEq

def Kind.text : Kind → String
  | .family => "family"
  | .rail => "rail"
  | .action => "action"

structure Requirement where
  kind : Kind
  name : String
deriving DecidableEq

/-- `_FRAUD_FAMILIES` -/
def fraudFamilies : List String := ["agentic_intent_abuse", "app_scam_mule", "card_testing_cnp", "synthetic_merchant_refund"]

/-- `_BENIGN_RAILS` -/
def benignRails : List String := ["card", "a2a", "agentic"]

/-- `_FRICTION_ACTIONS` -/
def frictionActions : List String := ["challenge", "review_hold"]

def requirements : List Requirement :=
  fraudFamilies.map (⟨.family, ·⟩) ++ benignRails.map (⟨.rail, ·⟩) ++ frictionActions.map (⟨.action, ·⟩)

/-- `str.lower`, as far as the name of a rail can tell: of the other code points, only U+0130 becomes a letter of one, and
a mark that no name has comes with it -/
def lower (s : PyStr) : PyStr := s.map fun c => if 65 ≤ c.val ∧ c.val ≤ 90 then Fin.ofNat 0x110000 (c.val + 32) else c

namespace DemoRow

/-- the pools a row is put in, those that there are -/
def pools (row : DemoRow) : List (Kind × PyStr) :=
  (if row.label = 1 then [(.family, row.family)] else []) ++
    (if row.label = 0 ∧ row.action = PyStr.ofString "approve" then [(.rail, lower row.rail)] else []) ++
    [(.action, row.action)]

end DemoRow

def Requirement.meets (r : Requirement) (row : DemoRow) : Bool := (r.kind, PyStr.ofString r.name) ∈ row.pools

/-! ## The selection -/

inductive SelectionError where
  | valueError (message : String)
deriving DecidableEq

/-- `pools` and `fillers` -/
structure Pools where
  byRequirement : List (Requirement × List DemoRow)
  fillers : List DemoRow

namespace Pools

def empty : Pools := ⟨requirements.map fun r => (r, []), []⟩

/-- one turn of the pass over the rows -/
def scan (limit : ℕ) (pools : Pools) (row : DemoRow) : Pools where
  byRequirement := pools.byRequirement.map fun p =>
    (p.1, if p.1.meets row then retain DemoRow.eventId limit p.2 row else p.2)
  fillers := retain DemoRow.eventId limit pools.fillers row

end Pools

def unsatisfied (r : Requirement) : SelectionError :=
  .valueError ("demo rows do not satisfy " ++ r.kind.text ++ "=" ++ r.name)

/-- the first row of the pool whose id is not among the selected ones -/
def take (selected : List DemoRow) (pool : Requirement × List DemoRow) : Except SelectionError (List DemoRow) :=
  match pool.2.find? fun row => row.eventId ∉ selected.map DemoRow.eventId with
  | some row => .ok (selected ++ [row])
  | none => .error (unsatisfied pool.1)

/-- the loop over the fillers -/
def fill (limit : ℕ) : List DemoRow → List DemoRow → List DemoRow
  | selected, [] => selected
  | selected, row :: fillers =>
    if limit ≤ selected.length then selected
    else if row.eventId ∉ selected.map DemoRow.eventId then fill limit (selected ++ [row]) fillers
    else fill limit selected fillers

def selectDemoRows (rows : List DemoRow) (limit : ℕ) : Except SelectionError (List DemoRow) := do
  check (fraudFamilies.length + benignRails.length + frictionActions.length ≤ limit)
    (.valueError "demo row limit cannot satisfy required coverage")
  let pools := rows.foldl (Pools.scan limit) .empty
  let covered ← pools.byRequirement.foldlM take []
  let selected := fill limit covered pools.fillers
  check (limit ≤ selected.length) (.valueError "demo row source is smaller than requested limit")
  return selected

/-! ## What it is for -/

/-- different rows among these, one for each requirement -/
def Covers (rows : List DemoRow) : Prop :=
  ∃ picks, List.Forall₂ (fun r row => r.meets row = true) requirements picks ∧ picks.Nodup ∧ picks ⊆ rows

/-- the least row of its fraud family -/
def LeastOfFamily (rows : List DemoRow) (row : DemoRow) : Prop :=
  row.label = 1 ∧ (∃ name ∈ fraudFamilies, row.family = PyStr.ofString name) ∧
    ∀ other ∈ rows, other.label = 1 → other.family = row.family → row.eventId ≤ other.eventId

instance (rows : List DemoRow) (row : DemoRow) : Decidable (LeastOfFamily rows row) :=
  inferInstanceAs (Decidable (_ ∧ (∃ name ∈ fraudFamilies, _) ∧ _))

/-! ## The pools -/

section

variable {rows : List DemoRow} {limit : ℕ}

theorem foldl_scan (pools : Pools) :
    rows.foldl (Pools.scan limit) pools =
      ⟨pools.byRequirement.map fun p =>
          (p.1, rows.foldl (fun pool row => if p.1.meets row then retain DemoRow.eventId limit pool row else pool) p.2),
        rows.foldl (retain DemoRow.eventId limit) pools.fillers⟩ := by
  induction rows generalizing pools with
  | nil => simp
  | cons row rows ih =>
    rw [List.foldl_cons, ih, Pools.scan, List.map_map]
    rfl

/-- the pool of a requirement: the least rows that meet it -/
def poolOf (rows : List DemoRow) (limit : ℕ) (r : Requirement) : Requirement × List DemoRow :=
  (r, shortlist DemoRow.eventId limit (rows.filter r.meets))

theorem foldl_scan_empty (hids : (rows.map DemoRow.eventId).Nodup) :
    rows.foldl (Pools.scan limit) .empty =
      ⟨requirements.map (poolOf rows limit), shortlist DemoRow.eventId limit rows⟩ := by
  have hfillers : rows.foldl (retain DemoRow.eventId limit) [] = shortlist DemoRow.eventId limit rows := by
    have hall := foldl_retain (fun _ => true) limit hids
    rw [List.filter_true] at hall
    exact hall
  rw [foldl_scan, Pools.empty, List.map_map, hfillers]
  congr 1
  refine List.map_congr_left fun r _ => ?_
  show (r, _) = poolOf rows limit r
  rw [foldl_retain r.meets limit hids, poolOf]

theorem selectDemoRows_eq (hlimit : requirements.length ≤ limit) (hids : (rows.map DemoRow.eventId).Nodup) :
    selectDemoRows rows limit = (do
      let covered ← (requirements.map (poolOf rows limit)).foldlM take []
      let selected := fill limit covered (shortlist DemoRow.eventId limit rows)
      check (limit ≤ selected.length) (.valueError "demo row source is smaller than requested limit")
      return selected) := by
  have hsum : fraudFamilies.length + benignRails.length + frictionActions.length ≤ limit := hlimit
  rw [selectDemoRows, check, if_pos (decide_eq_true hsum), foldl_scan_empty hids]
  rfl

/-- **The selection is free of the order of the rows.** -/
theorem selectDemoRows_congr {permuted : List DemoRow} (hlimit : requirements.length ≤ limit)
    (hids : (rows.map DemoRow.eventId).Nodup) (hperm : rows.Perm permuted) :
    selectDemoRows permuted limit = selectDemoRows rows limit := by
  have hids' : (permuted.map DemoRow.eventId).Nodup := (hperm.map _).nodup_iff.1 hids
  have hpools : requirements.map (poolOf permuted limit) = requirements.map (poolOf rows limit) := by
    refine List.map_congr_left fun r _ => ?_
    have hmeets : ((rows.filter r.meets).map DemoRow.eventId).Nodup := hids.sublist (List.filter_sublist.map _)
    rw [poolOf, poolOf, shortlist_congr (hperm.filter _) hmeets]
  rw [selectDemoRows_eq hlimit hids', selectDemoRows_eq hlimit hids, hpools, shortlist_congr hperm hids]

/-! ## Filling -/

/-- the loop over the fillers only adds, never beyond the limit, and stops short of it with every filler in -/
theorem fill_ok (limit : ℕ) (selected fillers : List DemoRow) :
    selected ⊆ fill limit selected fillers ∧ fill limit selected fillers ⊆ selected ++ fillers ∧
      ((selected.map DemoRow.eventId).Nodup → ((fill limit selected fillers).map DemoRow.eventId).Nodup) ∧
      (selected.length ≤ limit → (fill limit selected fillers).length ≤ limit) ∧
      ((fill limit selected fillers).length < limit →
        fillers.map DemoRow.eventId ⊆ (fill limit selected fillers).map DemoRow.eventId) := by
  induction fillers generalizing selected with
  | nil => exact ⟨List.Subset.refl _, List.subset_append_left _ _, id, id, fun _ => List.nil_subset _⟩
  | cons row fillers ih =>
    rw [fill]
    by_cases hfull : limit ≤ selected.length
    · rw [if_pos hfull]
      refine ⟨List.Subset.refl _, List.subset_append_left _ _, id, id, fun h => ?_⟩
      omega
    · rw [if_neg hfull]
      by_cases hid : row.eventId ∉ selected.map DemoRow.eventId
      · rw [if_pos hid]
        obtain ⟨hkept, hfrom, hnodup, hle, hall⟩ := ih (selected ++ [row])
        refine ⟨fun x hx => hkept (List.mem_append_left _ hx), fun x hx => ?_, fun h => hnodup ?_, fun h => hle ?_,
          fun h => List.cons_subset.2 ⟨?_, hall h⟩⟩
        · have := hfrom hx
          rwa [List.append_assoc, List.singleton_append] at this
        · rw [List.map_append, List.map_singleton]
          exact h.append (List.nodup_singleton _) (List.disjoint_singleton.2 hid)
        · rw [List.length_append, List.length_singleton]
          omega
        · exact List.mem_map_of_mem (hkept (List.mem_append_right _ (List.mem_singleton_self row)))
      · rw [if_neg hid]
        obtain ⟨hkept, hfrom, hnodup, hle, hall⟩ := ih selected
        refine ⟨hkept, fun x hx => ?_, hnodup, hle, fun h => List.cons_subset.2 ⟨?_, hall h⟩⟩
        · rcases List.mem_append.1 (hfrom hx) with h | h
          · exact List.mem_append_left _ h
          · exact List.mem_append_right _ (List.mem_cons_of_mem row h)
        · exact List.map_subset DemoRow.eventId hkept (not_not.1 hid)

theorem fill_full (hids : (rows.map DemoRow.eventId).Nodup) (hrows : limit ≤ rows.length) (selected : List DemoRow) :
    limit ≤ (fill limit selected (shortlist DemoRow.eventId limit rows)).length := by
  by_contra hshort
  obtain ⟨-, -, -, -, hall⟩ := fill_ok limit selected (shortlist DemoRow.eventId limit rows)
  have hnodup : ((shortlist DemoRow.eventId limit rows).map DemoRow.eventId).Nodup :=
    (((sortBy_perm _ rows).map _).nodup_iff.2 hids).sublist ((List.take_sublist _ _).map _)
  have hle := (hnodup.subperm (hall (not_le.1 hshort))).length_le
  rw [List.length_map, List.length_map, length_shortlist, Nat.min_eq_left hrows] at hle
  exact hshort hle

/-! ## Taking -/

/-- the row that a requirement takes when these are taken: the least one left that meets it -/
def pick (rows selected : List DemoRow) (r : Requirement) : Option DemoRow :=
  (sortBy DemoRow.eventId (rows.filter r.meets)).find? (· ∉ selected)

theorem filter_ids (hids : (rows.map DemoRow.eventId).Nodup) (p : DemoRow → Bool) :
    ((rows.filter p).map DemoRow.eventId).Nodup :=
  hids.sublist (List.filter_sublist.map _)

variable {r s : Requirement} {row : DemoRow} {selected taken : List DemoRow} {name : String}

theorem pick_eq_some (hids : (rows.map DemoRow.eventId).Nodup) :
    pick rows selected r = some row ↔ row ∈ rows ∧ r.meets row = true ∧ row ∉ selected ∧
      ∀ other ∈ rows, r.meets other = true → other ∉ selected → row.eventId ≤ other.eventId := by
  rw [pick, find?_sortBy_eq_some (filter_ids hids _)]
  simp only [List.mem_filter, decide_eq_true_eq, and_assoc, and_imp]

theorem pick_isSome : (pick rows selected r).isSome ↔ ∃ row ∈ rows, r.meets row = true ∧ row ∉ selected := by
  rw [pick, find?_sortBy_isSome]
  simp only [List.mem_filter, decide_eq_true_eq, and_assoc]

/-- taking, told by the rows: the bound of the pools does not show while less than `limit` rows are taken -/
theorem take_poolOf (hids : (rows.map DemoRow.eventId).Nodup) (hsub : selected ⊆ rows) (hlt : selected.length < limit)
    (r : Requirement) :
    take selected (poolOf rows limit r) =
      match pick rows selected r with
      | some row => .ok (selected ++ [row])
      | none => .error (unsatisfied r) := by
  have hsame : ∀ row ∈ shortlist DemoRow.eventId limit (rows.filter r.meets),
      decide (row.eventId ∉ selected.map DemoRow.eventId) = decide (row ∉ selected) := by
    intro row hrow
    have hmem := List.mem_of_mem_filter (mem_of_mem_shortlist hrow)
    refine decide_eq_decide.2 (not_congr ⟨fun h => ?_, List.mem_map_of_mem⟩)
    obtain ⟨other, hother, heq⟩ := List.mem_map.1 h
    rwa [← List.inj_on_of_nodup_map hids (hsub hother) hmem heq]
  have hnodup : (rows.filter r.meets).Nodup := (List.Nodup.of_map _ hids).filter _
  have hfind : (shortlist DemoRow.eventId limit (rows.filter r.meets)).find?
      (fun row => row.eventId ∉ selected.map DemoRow.eventId) = pick rows selected r :=
    calc
      _ = (shortlist DemoRow.eventId limit (rows.filter r.meets)).find? (· ∉ selected) := List.find?_congr hsame
      _ = pick rows selected r := find?_shortlist hnodup hlt
  rw [take, poolOf, hfind]

/-- what is taken for the requirements is new, of the rows, and meets them -/
theorem takes_ok (hids : (rows.map DemoRow.eventId).Nodup) {rs : List Requirement} (hsub : selected ⊆ rows)
    (hle : selected.length + rs.length ≤ limit) (h : (rs.map (poolOf rows limit)).foldlM take selected = .ok taken) :
    ∃ picks, taken = selected ++ picks ∧ List.Forall₂ (fun r row => r.meets row = true) rs picks ∧ picks ⊆ rows ∧
      picks.Nodup ∧ ∀ row ∈ picks, row ∉ selected := by
  induction rs generalizing selected with
  | nil =>
    cases h
    exact ⟨[], (List.append_nil _).symm, .nil, List.nil_subset _, List.nodup_nil, by simp⟩
  | cons r rs ih =>
    rw [List.length_cons] at hle
    rw [List.map_cons, List.foldlM_cons, take_poolOf hids hsub (by omega)] at h
    cases hpick : pick rows selected r with
    | none =>
      rw [hpick] at h
      exact absurd h (by simp [bind, Except.bind])
    | some row =>
      rw [hpick] at h
      obtain ⟨hmem, hmeets, hnew, -⟩ := (pick_eq_some hids).1 hpick
      have hsub' : selected ++ [row] ⊆ rows := List.append_subset.2 ⟨hsub, List.cons_subset.2 ⟨hmem, List.nil_subset _⟩⟩
      obtain ⟨picks, rfl, hall, hrows, hnodup, hfresh⟩ := ih hsub' (by rw [List.length_append, List.length_singleton]; omega) h
      refine ⟨row :: picks, by rw [List.append_assoc, List.singleton_append], .cons hmeets hall,
        List.cons_subset.2 ⟨hmem, hrows⟩, List.nodup_cons.2 ⟨fun hin => ?_, hnodup⟩, fun other hother => ?_⟩
      · exact hfresh row hin (List.mem_append_right _ (List.mem_singleton_self row))
      · rcases List.mem_cons.1 hother with rfl | hother
        · exact hnew
        · exact fun hin => hfresh other hother (List.mem_append_left _ hin)

/-- no row meets both -/
def Exclusive (r s : Requirement) : Prop := ∀ row, r.meets row = true → s.meets row = false

theorem pick_append (hexclusive : Exclusive r s) (hmeets : r.meets row = true) :
    pick rows (selected ++ [row]) s = pick rows selected s := by
  refine List.find?_congr fun other hother => decide_eq_decide.2 (not_congr ?_)
  have hmeetsOther := (List.mem_filter.1 (mem_sortBy.1 hother)).2
  have hne : other ≠ row := by
    rintro rfl
    rw [hexclusive other hmeets] at hmeetsOther
    exact Bool.noConfusion hmeetsOther
  rw [List.mem_append, List.mem_singleton, or_iff_left hne]

/-- **Requirements that exclude each other** are served each by itself, the least row that is left for it. -/
theorem takes_exclusive (hids : (rows.map DemoRow.eventId).Nodup) {rs : List Requirement} (hsub : selected ⊆ rows)
    (hle : selected.length + rs.length ≤ limit) (hrs : rs.Pairwise Exclusive) :
    (rs.map (poolOf rows limit)).foldlM take selected = .ok taken ↔
      ∃ picks, rs.map (pick rows selected) = picks.map some ∧ taken = selected ++ picks := by
  induction rs generalizing selected with
  | nil =>
    refine ⟨fun h => ⟨[], rfl, ?_⟩, fun ⟨picks, hpicks, htaken⟩ => ?_⟩
    · cases h
      exact (List.append_nil _).symm
    · rw [List.map_eq_nil_iff.1 hpicks.symm, List.append_nil] at htaken
      rw [htaken]
      rfl
  | cons r rs ih =>
    rw [List.length_cons] at hle
    rw [List.pairwise_cons] at hrs
    rw [List.map_cons, List.foldlM_cons, take_poolOf hids hsub (by omega), List.map_cons]
    cases hpick : pick rows selected r with
    | none =>
      refine ⟨fun h => absurd h (by simp [bind, Except.bind]), fun ⟨picks, hpicks, _⟩ => ?_⟩
      obtain ⟨row, rest, -, hrow, -⟩ := List.map_eq_cons_iff.1 hpicks.symm
      exact absurd hrow (by simp)
    | some row =>
      obtain ⟨hmem, hmeets, -, -⟩ := (pick_eq_some hids).1 hpick
      have hsub' : selected ++ [row] ⊆ rows := List.append_subset.2 ⟨hsub, List.cons_subset.2 ⟨hmem, List.nil_subset _⟩⟩
      have hlater : rs.map (pick rows (selected ++ [row])) = rs.map (pick rows selected) :=
        List.map_congr_left fun s hs => pick_append (hrs.1 s hs) hmeets
      have hrest := ih hsub' (by rw [List.length_append, List.length_singleton]; omega) hrs.2
      rw [hlater] at hrest
      refine hrest.trans ⟨fun ⟨picks, hpicks, htaken⟩ => ⟨row :: picks, by rw [hpicks, List.map_cons], ?_⟩,
        fun ⟨picks, hpicks, htaken⟩ => ?_⟩
      · rw [htaken, List.append_assoc, List.singleton_append]
      · obtain ⟨first, rest, rfl, hfirst, hpicks'⟩ := List.map_eq_cons_iff.1 hpicks.symm
        refine ⟨rest, hpicks'.symm, ?_⟩
        rw [htaken, Option.some.inj hfirst, List.append_assoc, List.singleton_append]

/-! ## The requirements -/

/-- the families and the rails -/
def leadRequirements : List Requirement := fraudFamilies.map (⟨.family, ·⟩) ++ benignRails.map (⟨.rail, ·⟩)

def frictionRequirements : List Requirement := frictionActions.map (⟨.action, ·⟩)

theorem meets_family :
    Requirement.meets ⟨.family, name⟩ row = true ↔ row.label = 1 ∧ row.family = PyStr.ofString name := by
  by_cases hlabel : row.label = 1
  · simp [Requirement.meets, DemoRow.pools, hlabel, eq_comm]
  · by_cases hrail : row.label = 0 ∧ row.action = PyStr.ofString "approve" <;>
      simp [Requirement.meets, DemoRow.pools, hlabel, hrail]

theorem meets_rail :
    Requirement.meets ⟨.rail, name⟩ row = true ↔
      row.label = 0 ∧ row.action = PyStr.ofString "approve" ∧ lower row.rail = PyStr.ofString name := by
  by_cases hrail : row.label = 0 ∧ row.action = PyStr.ofString "approve"
  · simp [Requirement.meets, DemoRow.pools, hrail, eq_comm]
  · by_cases hlabel : row.label = 1 <;> simp [Requirement.meets, DemoRow.pools, hlabel, hrail, ← and_assoc]

theorem meets_action : Requirement.meets ⟨.action, name⟩ row = true ↔ row.action = PyStr.ofString name := by
  by_cases hrail : row.label = 0 ∧ row.action = PyStr.ofString "approve" <;>
    by_cases hlabel : row.label = 1 <;> simp [Requirement.meets, DemoRow.pools, hlabel, hrail, eq_comm]

theorem exclusive_of (h : ∀ row, r.meets row = true → ¬ s.meets row = true) : Exclusive r s :=
  fun row hr => Bool.not_eq_true _ ▸ h row hr

theorem leadRequirements_exclusive : leadRequirements.Pairwise Exclusive := by
  have hfamilies : fraudFamilies.Nodup := by decide
  have hrails : benignRails.Nodup := by decide
  refine List.pairwise_append.2 ⟨List.pairwise_map.2 (hfamilies.imp fun hne => ?_),
    List.pairwise_map.2 (hrails.imp fun hne => ?_), fun r hr s hs => ?_⟩
  · refine exclusive_of fun row h h' => hne ?_
    exact PyStr.ofString_inj.1 ((meets_family.1 h).2.symm.trans (meets_family.1 h').2)
  · refine exclusive_of fun row h h' => hne ?_
    exact PyStr.ofString_inj.1 ((meets_rail.1 h).2.2.symm.trans (meets_rail.1 h').2.2)
  · obtain ⟨family, -, rfl⟩ := List.mem_map.1 hr
    obtain ⟨rail, -, rfl⟩ := List.mem_map.1 hs
    refine exclusive_of fun row h h' => ?_
    have hlabel := (meets_family.1 h).1
    rw [(meets_rail.1 h').1] at hlabel
    exact absurd hlabel (by decide)

theorem frictionRequirements_exclusive : frictionRequirements.Pairwise Exclusive := by
  have hactions : frictionActions.Nodup := by decide
  refine List.pairwise_map.2 (hactions.imp fun hne => exclusive_of fun row h h' => hne ?_)
  exact PyStr.ofString_inj.1 ((meets_action.1 h).symm.trans (meets_action.1 h'))

theorem approve_not_friction (h : name ∈ frictionActions) : PyStr.ofString name ≠ PyStr.ofString "approve" := by
  intro heq
  rw [PyStr.ofString_inj.1 heq] at h
  exact absurd h (by decide)

/-- a row with a friction action is taken for a family or a rail exactly when it is the least of its family -/
theorem lead_iff (hids : (rows.map DemoRow.eventId).Nodup) (hrow : row ∈ rows) (hname : name ∈ frictionActions)
    (haction : row.action = PyStr.ofString name) :
    (∃ r ∈ leadRequirements, pick rows [] r = some row) ↔ LeastOfFamily rows row := by
  constructor
  · rintro ⟨r, hr, hpick⟩
    obtain ⟨-, hmeets, -, hleast⟩ := (pick_eq_some hids).1 hpick
    rcases List.mem_append.1 hr with hr | hr
    · obtain ⟨family, hfamily, rfl⟩ := List.mem_map.1 hr
      obtain ⟨hlabel, hof⟩ := meets_family.1 hmeets
      refine ⟨hlabel, ⟨family, hfamily, hof⟩, fun other hother hlabel' hsame => ?_⟩
      exact hleast other hother (meets_family.2 ⟨hlabel', hsame.trans hof⟩) List.not_mem_nil
    · obtain ⟨rail, -, rfl⟩ := List.mem_map.1 hr
      exact absurd (haction.symm.trans (meets_rail.1 hmeets).2.1) (approve_not_friction hname)
  · rintro ⟨hlabel, ⟨family, hfamily, hof⟩, hleast⟩
    refine ⟨⟨.family, family⟩, List.mem_append_left _ (List.mem_map_of_mem hfamily), (pick_eq_some hids).2
      ⟨hrow, meets_family.2 ⟨hlabel, hof⟩, List.not_mem_nil, fun other hother hmeets _ => ?_⟩⟩
    obtain ⟨hlabel', hof'⟩ := meets_family.1 hmeets
    exact hleast other hother hlabel' (hof'.trans hof.symm)

/-! ## When there is a selection -/

theorem requirements_eq : requirements = leadRequirements ++ frictionRequirements := rfl

theorem exists_map_some {α β : Type} {f : α → Option β} {xs : List α} :
    (∃ ys : List β, xs.map f = ys.map some) ↔ ∀ x ∈ xs, (f x).isSome := by
  induction xs with
  | nil => exact ⟨fun _ => by simp, fun _ => ⟨[], rfl⟩⟩
  | cons x xs ih =>
    rw [List.forall_mem_cons, ← ih, List.map_cons]
    constructor
    · rintro ⟨ys, hys⟩
      obtain ⟨y, rest, rfl, hy, hrest⟩ := List.map_eq_cons_iff.1 hys.symm
      exact ⟨by rw [← hy, Option.isSome_some], rest, hrest.symm⟩
    · rintro ⟨hx, rest, hrest⟩
      obtain ⟨y, hy⟩ := Option.isSome_iff_exists.1 hx
      exact ⟨y :: rest, by rw [hy, hrest, List.map_cons]⟩

theorem mem_of_map_some {α β : Type} {f : α → Option β} {xs : List α} {ys : List β} (h : xs.map f = ys.map some) (y : β) :
    y ∈ ys ↔ ∃ x ∈ xs, f x = some y := by
  have hmem : some y ∈ ys.map some ↔ y ∈ ys := List.mem_map_of_injective (Option.some_injective β)
  rw [← hmem, ← h, List.mem_map]

/-- what all requirements take: the families and the rails first, then the actions from what is left -/
theorem takes_requirements (hlimit : requirements.length ≤ limit) (hids : (rows.map DemoRow.eventId).Nodup)
    {covered : List DemoRow} :
    (requirements.map (poolOf rows limit)).foldlM take [] = .ok covered ↔
      ∃ leads frictions : List DemoRow, leadRequirements.map (pick rows []) = leads.map some ∧
        frictionRequirements.map (pick rows leads) = frictions.map some ∧ covered = leads ++ frictions := by
  rw [requirements_eq, List.length_append] at hlimit
  rw [requirements_eq, List.map_append, List.foldlM_append, except_bind_eq_ok]
  have hleads : ∀ taken, (leadRequirements.map (poolOf rows limit)).foldlM take [] = .ok taken ↔
      ∃ leads : List DemoRow, leadRequirements.map (pick rows []) = leads.map some ∧ taken = [] ++ leads := fun taken =>
    takes_exclusive hids (List.nil_subset rows) (by rw [List.length_nil]; omega) leadRequirements_exclusive
  have hfrictions : ∀ leads : List DemoRow, leadRequirements.map (pick rows []) = leads.map some →
      ((frictionRequirements.map (poolOf rows limit)).foldlM take leads = .ok covered ↔
        ∃ frictions : List DemoRow, frictionRequirements.map (pick rows leads) = frictions.map some ∧ covered = leads ++ frictions) := by
    intro leads h
    have hsub : leads ⊆ rows := by
      intro row hrow
      obtain ⟨r, -, hpick⟩ := (mem_of_map_some h row).1 hrow
      exact ((pick_eq_some hids).1 hpick).1
    have hlength := congrArg List.length h
    rw [List.length_map, List.length_map] at hlength
    exact takes_exclusive hids hsub (by omega) frictionRequirements_exclusive
  constructor
  · rintro ⟨leads', hfirst, hsecond⟩
    obtain ⟨leads, hpicks, heq⟩ := (hleads leads').1 hfirst
    rw [heq, List.nil_append] at hsecond
    obtain ⟨frictions, hrest, hcovered⟩ := (hfrictions leads hpicks).1 hsecond
    exact ⟨leads, frictions, hpicks, hrest, hcovered⟩
  · rintro ⟨leads, frictions, hpicks, hrest, hcovered⟩
    exact ⟨leads, (hleads leads).2 ⟨leads, hpicks, rfl⟩, (hfrictions leads hpicks).2 ⟨frictions, hrest, hcovered⟩⟩

/-- every requirement is served exactly when each family and rail has a row, and each friction action one that no family
takes -/
theorem takes_isOk_iff (hlimit : requirements.length ≤ limit) (hids : (rows.map DemoRow.eventId).Nodup) :
    (∃ covered, (requirements.map (poolOf rows limit)).foldlM take [] = .ok covered) ↔
      (∀ r ∈ leadRequirements, ∃ row ∈ rows, r.meets row = true) ∧
        ∀ name ∈ frictionActions, ∃ row ∈ rows, row.action = PyStr.ofString name ∧ ¬ LeastOfFamily rows row := by
  have hlead : (∃ leads : List DemoRow, leadRequirements.map (pick rows []) = leads.map some) ↔
      ∀ r ∈ leadRequirements, ∃ row ∈ rows, r.meets row = true := by
    simp only [exists_map_some, pick_isSome, List.not_mem_nil, not_false_eq_true, and_true]
  have hfriction : ∀ leads : List DemoRow, leadRequirements.map (pick rows []) = leads.map some →
      ((∃ frictions : List DemoRow, frictionRequirements.map (pick rows leads) = frictions.map some) ↔
        ∀ name ∈ frictionActions, ∃ row ∈ rows, row.action = PyStr.ofString name ∧ ¬ LeastOfFamily rows row) := by
    intro leads h
    rw [exists_map_some, frictionRequirements, List.forall_mem_map]
    refine forall₂_congr fun name hname => ?_
    rw [pick_isSome]
    refine exists_congr fun row => and_congr_right fun hrow => ?_
    rw [meets_action]
    refine and_congr_right fun haction => not_congr ?_
    rw [mem_of_map_some h, lead_iff hids hrow hname haction]
  simp only [takes_requirements hlimit hids]
  constructor
  · rintro ⟨covered, leads, frictions, hleads, hfrictions, -⟩
    exact ⟨hlead.1 ⟨leads, hleads⟩, (hfriction leads hleads).1 ⟨frictions, hfrictions⟩⟩
  · rintro ⟨hrows, hfrictions⟩
    obtain ⟨leads, hleads⟩ := hlead.2 hrows
    obtain ⟨frictions, hpicks⟩ := (hfriction leads hleads).2 hfrictions
    exact ⟨leads ++ frictions, leads, frictions, hleads, hpicks, rfl⟩

theorem selectDemoRows_eq_ok (hlimit : requirements.length ≤ limit) (hids : (rows.map DemoRow.eventId).Nodup) :
    selectDemoRows rows limit = .ok selected ↔ ∃ covered, (requirements.map (poolOf rows limit)).foldlM take [] = .ok covered ∧
      limit ≤ selected.length ∧ selected = fill limit covered (shortlist DemoRow.eventId limit rows) := by
  rw [selectDemoRows_eq hlimit hids, except_bind_eq_ok]
  refine exists_congr fun covered => and_congr_right fun _ => ?_
  rw [except_bind_eq_ok]
  constructor
  · rintro ⟨_, hcheck, hselected⟩
    cases hselected
    exact ⟨of_decide_eq_true (check_eq_ok.1 hcheck), rfl⟩
  · rintro ⟨hlength, rfl⟩
    exact ⟨(), check_eq_ok.2 (decide_eq_true hlength), rfl⟩

/-- **A selection** has exactly `limit` rows, all different and of the given ones, and covers every requirement. -/
theorem selectDemoRows_sound (hlimit : requirements.length ≤ limit) (hids : (rows.map DemoRow.eventId).Nodup)
    (h : selectDemoRows rows limit = .ok selected) :
    selected.length = limit ∧ (selected.map DemoRow.eventId).Nodup ∧ selected ⊆ rows ∧ Covers selected := by
  obtain ⟨covered, htakes, hlength, rfl⟩ := (selectDemoRows_eq_ok hlimit hids).1 h
  obtain ⟨picks, hcovered, hmeets, hsub, hnodup, -⟩ :=
    takes_ok hids (List.nil_subset rows) (by rw [List.length_nil]; omega) htakes
  rw [List.nil_append] at hcovered
  subst hcovered
  obtain ⟨hkept, hfrom, hids', hle, -⟩ := fill_ok limit covered (shortlist DemoRow.eventId limit rows)
  have hcoveredIds : (covered.map DemoRow.eventId).Nodup :=
    (List.nodup_map_iff_inj_on hnodup).2 fun x hx y hy heq => List.inj_on_of_nodup_map hids (hsub hx) (hsub hy) heq
  refine ⟨le_antisymm (hle ?_) hlength, hids' hcoveredIds, fun row hrow => ?_, covered, hmeets, hnodup, hkept⟩
  · rw [← hmeets.length_eq]
    exact hlimit
  · rcases List.mem_append.1 (hfrom hrow) with hrow | hrow
    · exact hsub hrow
    · exact mem_of_mem_shortlist hrow

/-- **When there is a selection**: rows enough, a row for each family and rail, and for each friction action a row that is
not the least of its family -/
theorem selectDemoRows_isOk_iff (hlimit : requirements.length ≤ limit) (hids : (rows.map DemoRow.eventId).Nodup) :
    (∃ selected, selectDemoRows rows limit = .ok selected) ↔ limit ≤ rows.length ∧
      (∀ r ∈ leadRequirements, ∃ row ∈ rows, r.meets row = true) ∧
        ∀ name ∈ frictionActions, ∃ row ∈ rows, row.action = PyStr.ofString name ∧ ¬ LeastOfFamily rows row := by
  rw [← takes_isOk_iff hlimit hids]
  constructor
  · rintro ⟨selected, h⟩
    obtain ⟨hlength, hnodup, hsub, -⟩ := selectDemoRows_sound hlimit hids h
    obtain ⟨covered, htakes, -⟩ := (selectDemoRows_eq_ok hlimit hids).1 h
    exact ⟨hlength ▸ ((List.Nodup.of_map _ hnodup).subperm hsub).length_le, covered, htakes⟩
  · rintro ⟨hrows, covered, htakes⟩
    exact ⟨_, (selectDemoRows_eq_ok hlimit hids).2 ⟨covered, htakes, fill_full hids hrows covered, rfl⟩⟩

end

/-! ## The claim -/

/-- what a selection is to be: free of the order of the rows, exactly `limit` different rows that cover, and there unless
the rows are too few or do not cover -/
structure Complete (rows : List DemoRow) (limit : ℕ) : Prop where
  orderFree : ∀ permuted, rows.Perm permuted → selectDemoRows permuted limit = selectDemoRows rows limit
  sound : ∀ selected, selectDemoRows rows limit = .ok selected →
    selected.length = limit ∧ (selected.map DemoRow.eventId).Nodup ∧ selected ⊆ rows ∧ Covers selected
  raises : ∀ error, selectDemoRows rows limit = .error error → rows.length < limit ∨ ¬ Covers rows

/-- **The selection of demonstration rows** is complete exactly when the rows are too few, or do not cover, or each
friction action has a row that is not the least of its fraud family. -/
theorem demo_selection_iff {rows : List DemoRow} {limit : ℕ}
    (hlimit : requirements.length ≤ limit) (hids : (rows.map DemoRow.eventId).Nodup) :
    Complete rows limit ↔ rows.length < limit ∨ ¬ Covers rows ∨
      ∀ name ∈ frictionActions, ∃ row ∈ rows, row.action = PyStr.ofString name ∧ ¬ LeastOfFamily rows row := by
  have hok : (∃ selected, selectDemoRows rows limit = .ok selected) ↔ ∀ error, selectDemoRows rows limit ≠ .error error := by
    cases selectDemoRows rows limit with
    | ok selected => simp
    | error e => simp
  have hleads : Covers rows → ∀ r ∈ leadRequirements, ∃ row ∈ rows, r.meets row = true := by
    rintro ⟨picks, hmeets, -, hsub⟩ r hr
    obtain ⟨i, hi, rfl⟩ := List.mem_iff_getElem.1 (List.mem_append_left frictionRequirements hr)
    have hi' : i < picks.length := by rwa [← hmeets.length_eq]
    exact ⟨picks[i], hsub (List.getElem_mem hi'), hmeets.get hi hi'⟩
  constructor
  · intro h
    by_cases hrows : rows.length < limit
    · exact .inl hrows
    by_cases hcovers : Covers rows
    · refine .inr (.inr ((selectDemoRows_isOk_iff hlimit hids).1 (hok.2 fun error herror => ?_)).2.2)
      rcases h.raises error herror with hfew | hnot
      · exact hrows hfew
      · exact hnot hcovers
    · exact .inr (.inl hcovers)
  · intro h
    refine ⟨fun permuted hperm => selectDemoRows_congr hlimit hids hperm, fun selected => selectDemoRows_sound hlimit hids,
      fun error herror => ?_⟩
    rcases h with hfew | hnot | hfriction
    · exact .inl hfew
    · exact .inr hnot
    · by_contra hneither
      rw [not_or, not_lt, not_not] at hneither
      have := (selectDemoRows_isOk_iff hlimit hids).2 ⟨hneither.1, hleads hneither.2, hfriction⟩
      exact hok.1 this error herror

namespace Sample

def row (id : String) (label : ℤ) (family rail action : String) : DemoRow :=
  ⟨PyStr.ofString id, label, PyStr.ofString family, PyStr.ofString rail, PyStr.ofString action⟩

/-- two rows of a family, the first of them the only one that is challenged, and one row for everything else -/
def rows : List DemoRow :=
  [row "a" 1 "agentic_intent_abuse" "agentic" "challenge", row "b" 1 "agentic_intent_abuse" "agentic" "decline_hold",
    row "c" 1 "app_scam_mule" "a2a" "decline_hold", row "d" 1 "card_testing_cnp" "card" "decline_hold",
    row "e" 1 "synthetic_merchant_refund" "card" "decline_hold", row "f" 0 "benign" "card" "approve",
    row "g" 0 "benign" "A2A" "approve", row "h" 0 "benign" "agentic" "approve", row "i" 0 "benign" "a2a" "review_hold"]

theorem rows_ids : (rows.map DemoRow.eventId).Nodup := by decide +kernel

/-- the second row of the family stands for it, the first one for the challenge -/
theorem rows_cover : Covers rows := by
  refine ⟨[1, 2, 3, 4, 5, 6, 7, 0, 8].filterMap fun i : ℕ => rows[i]?, ?_, by decide +kernel, by decide +kernel⟩
  have hmeets : ∀ p ∈ requirements.zip ([1, 2, 3, 4, 5, 6, 7, 0, 8].filterMap fun i : ℕ => rows[i]?),
      p.1.meets p.2 = true := by decide +kernel
  exact List.forall₂_iff_zip.2 ⟨rfl, fun h => hmeets _ h⟩

/-- a second challenge -/
def more : List DemoRow := row "j" 0 "benign" "card" "challenge" :: rows

theorem more_ids : (more.map DemoRow.eventId).Nodup := by decide +kernel

end Sample

open Sample in
/-- with the second challenge, the greedy choice is complete -/
theorem demo_selection_more : Complete more 10 :=
  (demo_selection_iff (by decide) more_ids).2 (.inr (.inr (by decide +kernel)))

open Sample in
/-- nine rows of which each stands for another requirement are refused for a challenge that is there -/
theorem demo_selection_incomplete :
    requirements.length ≤ 9 ∧ (rows.map DemoRow.eventId).Nodup ∧ rows.length = 9 ∧ Covers rows ∧
      selectDemoRows rows 9 = .error (.valueError "demo rows do not satisfy action=challenge") ∧ ¬ Complete rows 9 := by
  have herror : selectDemoRows rows 9 = .error (.valueError "demo rows do not satisfy action=challenge") := by decide +kernel
  refine ⟨by decide, rows_ids, rfl, rows_cover, herror, fun h => ?_⟩
  rcases h.raises _ herror with hfew | hnot
  · exact absurd hfew (by decide)
  · exact hnot rows_cover

end Apar.Demo
