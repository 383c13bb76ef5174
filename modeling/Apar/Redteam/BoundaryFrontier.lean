/-
The default boundary frontier of the adaptive policy (`redteam/policies.py`,
`AdaptiveTournamentPolicy._default_boundary_frontier`): the vectors it proposes first, one field away from the defaults.

The loops go over the domains, the two ends of each, and the feasible vectors. A vector is listed for an end of a domain
when it has not been tried, differs from the defaults in one field, and has that end as its value in that domain; that
the domain is the one of the changed field is not asked. So a vector is listed once for every end of a domain at which
it stands, its unchanged fields included.

- `frontier_eq`: the vectors listed, in the order of the listing.
- `defaultBoundaryFrontier_exact_iff`: the listing is the boundary moves, each once, exactly when no untried move stands
  at an end of a domain that it leaves unchanged.
-/
import Apar.Redteam.Mutations
import Apar.Redteam.PlannerCodec

namespace Apar

open Exec

namespace Redteam

/-- the two ends of a domain, each with its rank; a domain is never empty -/
def ParameterDomain.ends (d : ParameterDomain) : List (ℕ × AdaptiveValue) :=
  (d.values.head?.toList.map fun value => (0, value)) ++ d.values.getLast?.toList.map fun value => (1, value)

/-- a value is the first or the last of its domain -/
def ParameterDomain.AtEnd (d : ParameterDomain) (value : Option AdaptiveValue) : Prop :=
  ∃ x, value = some x ∧ (d.values.head? = some x ∨ d.values.getLast? = some x)

theorem ParameterDomain.atEnd_iff {d : ParameterDomain} {value : Option AdaptiveValue} :
    d.AtEnd value ↔ ∃ stop ∈ d.ends, value = some stop.2 := by
  unfold AtEnd ends
  constructor
  · intro ⟨x, hx, h⟩
    rcases h with h | h
    · exact ⟨(0, x), by simp [h], hx⟩
    · exact ⟨(1, x), by simp [h], hx⟩
  · intro ⟨stop, hstop, hx⟩
    refine ⟨stop.2, hx, ?_⟩
    rcases List.mem_append.1 hstop with h | h
    · obtain ⟨x, hfirst, rfl⟩ := List.mem_map.1 h
      exact .inl (Option.mem_toList.1 hfirst)
    · obtain ⟨x, hlast, rfl⟩ := List.mem_map.1 h
      exact .inr (Option.mem_toList.1 hlast)

section

variable [Sha256]

/-- the fingerprints of the vectors tried so far -/
def triedFingerprints (history : List VisibleTrial) : List PyStr :=
  history.map fun trial => trial.candidate.params.fingerprint

/-- a vector listed for an end of a domain -/
structure FrontierRow where
  domain : ParameterDomain
  stop : ℕ × AdaptiveValue
  vector : AdaptiveVector

namespace FrontierRow

/-- `item[:3]` -/
def key (row : FrontierRow) : PyStr ×ₗ ℕ ×ₗ PyStr :=
  toLex (row.domain.name, toLex (row.stop.1, row.vector.fingerprint))

/-- the conditions of the innermost loop -/
def listed (seen : List PyStr) (b : ParameterBounds) (row : FrontierRow) : Except PolicyError Bool :=
  if seen.contains row.vector.fingerprint then .ok false
  else do
    let changed ← b.changedFieldCount b.defaults row.vector
    if changed ≠ 1 then pure false
    else do
      let value ← row.vector.get row.domain.name
      pure (AdaptiveValue.sameValue value row.stop.2)

end FrontierRow

namespace ParameterBounds

/-- the loops over domains, ends and vectors -/
def frontierRows (b : ParameterBounds) : List FrontierRow :=
  b.domains.flatMap fun domain => domain.ends.flatMap fun stop =>
    b.feasibleVectors.map fun vector => ⟨domain, stop, vector⟩

end ParameterBounds

/-- `_default_boundary_frontier` -/
def defaultBoundaryFrontier (history : List VisibleTrial) (b : ParameterBounds) :
    Except PolicyError (List AdaptiveVector) := do
  let ranked ← Selection.keepM (FrontierRow.listed (triedFingerprints history) b) b.frontierRows
  pure ((sortBy FrontierRow.key ranked).map FrontierRow.vector)

/-! ## What is listed -/

/-- a feasible vector not tried yet, with its number of changed fields -/
def Untried (history : List VisibleTrial) (b : ParameterBounds) (v : AdaptiveVector) : Prop :=
  v ∈ b.feasibleVectors ∧ v.fingerprint ∉ triedFingerprints history

/-- an untried vector that differs from the defaults in one field, whose new value is the first or the last value of
the field's domain -/
def BoundaryMove (history : List VisibleTrial) (b : ParameterBounds) (v : AdaptiveVector) : Prop :=
  Untried history b v ∧ ∃ d ∈ b.domains, b.differing b.defaults v = [d.name] ∧ d.AtEnd (v.lookup d.name)

/-- the listing is the boundary moves, each once -/
def FrontierExact (history : List VisibleTrial) (b : ParameterBounds) : Prop :=
  ∃ vectors, defaultBoundaryFrontier history b = .ok vectors ∧ vectors.Nodup ∧
    ∀ v, v ∈ vectors ↔ BoundaryMove history b v

/-- no untried one-field move stands at an end of a domain it leaves unchanged; nor is its new value the only one of its
domain, as it could be for defaults that share nothing but the fingerprint with a feasible vector -/
def MovesStandAlone (history : List VisibleTrial) (b : ParameterBounds) : Prop :=
  ∀ v, Untried history b v → ∀ d ∈ b.domains, b.differing b.defaults v = [d.name] →
    d.values.length ≠ 1 ∧ ∀ e ∈ b.domains, e ≠ d → ¬e.AtEnd (b.defaults.lookup e.name)

/-- what the loops list, once nothing in them raises -/
def FrontierRow.Listed (history : List VisibleTrial) (b : ParameterBounds) (row : FrontierRow) : Prop :=
  row.vector.fingerprint ∉ triedFingerprints history ∧ (b.differing b.defaults row.vector).length = 1 ∧
    row.vector.lookup row.domain.name = some row.stop.2

instance (history : List VisibleTrial) (b : ParameterBounds) : DecidablePred (FrontierRow.Listed history b) :=
  fun _ => inferInstanceAs (Decidable (_ ∧ _ ∧ _))

variable {history : List VisibleTrial} {b : ParameterBounds}

omit [Sha256] in
theorem mem_frontierRows {row : FrontierRow} :
    row ∈ b.frontierRows ↔ row.domain ∈ b.domains ∧ row.stop ∈ row.domain.ends ∧ row.vector ∈ b.feasibleVectors := by
  obtain ⟨domain, stop, vector⟩ := row
  simp only [ParameterBounds.frontierRows, List.mem_flatMap, List.mem_map, FrontierRow.mk.injEq]
  constructor
  · rintro ⟨_, hdomain, _, hstop, _, hvector, rfl, rfl, rfl⟩
    exact ⟨hdomain, hstop, hvector⟩
  · intro ⟨hdomain, hstop, hvector⟩
    exact ⟨domain, hdomain, stop, hstop, vector, hvector, rfl, rfl, rfl⟩

theorem listed_eq (hb : b.Built) {row : FrontierRow} (hrow : row ∈ b.frontierRows) :
    row.listed (triedFingerprints history) b = .ok (decide (row.Listed history b)) := by
  obtain ⟨hdomain, -, hvector⟩ := mem_frontierRows.1 hrow
  have hvalid := hb.validateVector hvector
  obtain ⟨value, -, hvalue⟩ := hb.closed.allowed _ hvector _ hdomain
  unfold FrontierRow.listed
  by_cases hseen : row.vector.fingerprint ∈ triedFingerprints history
  · rw [if_pos (List.contains_iff_mem.2 hseen), decide_eq_false fun h => h.1 hseen]
  · rw [if_neg (fun h => hseen (List.contains_iff_mem.1 h)),
      ParameterBounds.changedFieldCount_eq hb.validateVector_defaults hvalid, except_ok_bind]
    by_cases hcount : (b.differing b.defaults row.vector).length = 1
    · rw [if_neg (fun h => h hcount), AdaptiveVector.get_eq_ok.2 hvalue, except_ok_bind]
      simp [FrontierRow.Listed, hseen, hcount, hvalue, AdaptiveValue.sameValue, pure, Except.pure]
    · rw [if_pos hcount, decide_eq_false fun h => hcount h.2.1]
      rfl

/-- the rows listed, in order -/
def listedRows (history : List VisibleTrial) (b : ParameterBounds) : List FrontierRow :=
  sortBy FrontierRow.key (b.frontierRows.filter fun row => row.Listed history b)

/-- **The listing**: the frontier of accepted bounds never raises. -/
theorem frontier_eq (hb : b.Built) :
    defaultBoundaryFrontier history b = .ok ((listedRows history b).map FrontierRow.vector) := by
  have hkeep : Selection.keepM (FrontierRow.listed (triedFingerprints history) b) b.frontierRows =
      .ok (b.frontierRows.filter fun row => row.Listed history b) := Selection.keepM_eq fun row => listed_eq hb
  rw [defaultBoundaryFrontier, hkeep, except_ok_bind]
  rfl

theorem mem_listedRows {row : FrontierRow} :
    row ∈ listedRows history b ↔ (row.domain ∈ b.domains ∧ row.stop ∈ row.domain.ends) ∧
      Untried history b row.vector ∧ (b.differing b.defaults row.vector).length = 1 ∧
        row.vector.lookup row.domain.name = some row.stop.2 := by
  rw [listedRows, mem_sortBy, List.mem_filter, decide_eq_true_eq, mem_frontierRows]
  exact ⟨fun ⟨⟨hd, hs, hv⟩, hseen, hcount, hvalue⟩ => ⟨⟨hd, hs⟩, ⟨hv, hseen⟩, hcount, hvalue⟩,
    fun ⟨⟨hd, hs⟩, ⟨hv, hseen⟩, hcount, hvalue⟩ => ⟨⟨hd, hs, hv⟩, hseen, hcount, hvalue⟩⟩

theorem nodup_listedRows (hb : b.Built) : (listedRows history b).Nodup := by
  have hdomains : b.domains.Nodup := List.Nodup.of_map _ (ParameterBounds.Closed.names_nodup hb.closed.sorted)
  have hends : ∀ d : ParameterDomain, d.ends.Nodup := by
    intro d
    unfold ParameterDomain.ends
    cases d.values.head? with
    | none => cases d.values.getLast? <;> simp
    | some x => cases d.values.getLast? <;> simp
  refine (sortBy_perm _ _).nodup_iff.2 (List.Nodup.filter _ ?_)
  unfold ParameterBounds.frontierRows
  refine List.nodup_flatMap.2 ⟨fun d _ => List.nodup_flatMap.2 ⟨fun stop _ => ?_, ?_⟩, ?_⟩
  · exact hb.closed.vectors_nodup.map fun v w h => (FrontierRow.mk.inj h).2.2
  · refine (hends d).imp fun hne => List.disjoint_left.2 fun row hrow hrow' => ?_
    obtain ⟨_, -, rfl⟩ := List.mem_map.1 hrow
    obtain ⟨_, -, h⟩ := List.mem_map.1 hrow'
    exact hne (FrontierRow.mk.inj h).2.1.symm
  · refine hdomains.imp fun hne => List.disjoint_left.2 fun row hrow hrow' => ?_
    obtain ⟨_, -, hrow⟩ := List.mem_flatMap.1 hrow
    obtain ⟨_, -, rfl⟩ := List.mem_map.1 hrow
    obtain ⟨_, -, hrow'⟩ := List.mem_flatMap.1 hrow'
    obtain ⟨_, -, h⟩ := List.mem_map.1 hrow'
    exact hne (FrontierRow.mk.inj h).1.symm

/-! ## Fields and ends -/

omit [Sha256] in
theorem domain_of_one_field {v : AdaptiveVector} (h : (b.differing b.defaults v).length = 1) :
    ∃ d ∈ b.domains, b.differing b.defaults v = [d.name] := by
  obtain ⟨name, hname⟩ := List.length_eq_one_iff.1 h
  have hmem : name ∈ b.differing b.defaults v := by
    rw [hname]
    exact List.mem_singleton.2 rfl
  obtain ⟨d, hd, rfl⟩ := List.mem_map.1 (ParameterBounds.mem_differing.1 hmem).1
  exact ⟨d, hd, hname⟩

theorem lookup_of_unchanged (hb : b.Built) {v : AdaptiveVector} {d e : ParameterDomain} (hd : d ∈ b.domains)
    (he : e ∈ b.domains) (hfield : b.differing b.defaults v = [d.name]) (hne : e ≠ d) :
    v.lookup e.name = b.defaults.lookup e.name := by
  by_contra hdiff
  have hmem : e.name ∈ b.differing b.defaults v :=
    ParameterBounds.mem_differing.2 ⟨List.mem_map_of_mem he, fun h => hdiff h.symm⟩
  rw [hfield, List.mem_singleton] at hmem
  exact hne (hb.closed.domain_ext he hd hmem)

omit [Sha256] in
/-- one value at both ranks is a domain's only value -/
theorem length_of_ends {d : ParameterDomain} (halias : ParameterDomain.hasAlias d.values = false)
    {x : AdaptiveValue} (hfirst : d.values.head? = some x) (hlast : d.values.getLast? = some x) :
    d.values.length = 1 := by
  cases hvalues : d.values with
  | nil => simp [hvalues] at hfirst
  | cons y rest =>
    rw [hvalues, List.head?_cons, Option.some.injEq] at hfirst
    subst hfirst
    cases rest with
    | nil => rfl
    | cons z rest =>
      rw [hvalues, List.getLast?_cons_cons] at hlast
      rw [hvalues, ParameterDomain.hasAlias, Bool.or_eq_false_iff] at halias
      have hself : AdaptiveValue.noOpAlias y y = true := by
        cases y <;> simp [AdaptiveValue.noOpAlias, AdaptiveValue.sameValue, Decimal.numEq_iff]
      exact absurd hself (by simpa using List.any_eq_false.1 halias.1 y (List.mem_of_getLast? hlast))

theorem ends_ext {d : ParameterDomain} (hd : d.Built) (hlength : d.values.length ≠ 1) {p q : ℕ × AdaptiveValue}
    (hp : p ∈ d.ends) (hq : q ∈ d.ends) (h : p.2 = q.2) : p = q := by
  have halias := (ParameterDomain.make_eq_ok.1 hd).2.2.2.1
  have hcases : ∀ r ∈ d.ends, r = (0, r.2) ∧ d.values.head? = some r.2 ∨ r = (1, r.2) ∧ d.values.getLast? = some r.2 := by
    intro r hr
    rcases List.mem_append.1 hr with hr | hr
    · obtain ⟨x, hx, rfl⟩ := List.mem_map.1 hr
      exact .inl ⟨rfl, Option.mem_toList.1 hx⟩
    · obtain ⟨x, hx, rfl⟩ := List.mem_map.1 hr
      exact .inr ⟨rfl, Option.mem_toList.1 hx⟩
  rcases hcases p hp with ⟨hp, hpv⟩ | ⟨hp, hpv⟩ <;> rcases hcases q hq with ⟨hq, hqv⟩ | ⟨hq, hqv⟩
  · rw [hp, hq, h]
  · exact absurd (length_of_ends halias hpv (h ▸ hqv)) hlength
  · exact absurd (length_of_ends halias (h ▸ hqv) hpv) hlength
  · rw [hp, hq, h]

/-- an end at which a one-field move stands lists it -/
theorem listed_of_atEnd {v : AdaptiveVector} (hv : Untried history b v) (hcount : (b.differing b.defaults v).length = 1)
    {d : ParameterDomain} (hd : d ∈ b.domains) {stop : ℕ × AdaptiveValue} (hstop : stop ∈ d.ends)
    (hvalue : v.lookup d.name = some stop.2) : (⟨d, stop, v⟩ : FrontierRow) ∈ listedRows history b :=
  mem_listedRows.2 ⟨⟨hd, hstop⟩, hv, hcount, hvalue⟩

/-- in an exact listing, a one-field move stands alone -/
theorem movesStandAlone_of_exact (hb : b.Built) (h : FrontierExact history b) : MovesStandAlone history b := by
  obtain ⟨vectors, hvectors, hnodup, hmem⟩ := h
  rw [frontier_eq hb, Except.ok.injEq] at hvectors
  subst hvectors
  have hinj : ∀ r ∈ listedRows history b, ∀ s ∈ listedRows history b, r.vector = s.vector → r = s :=
    fun r hr s hs => List.inj_on_of_nodup_map hnodup hr hs
  intro v hv d hd hfield
  have hcount : (b.differing b.defaults v).length = 1 := by rw [hfield, List.length_singleton]
  refine ⟨?_, ?_⟩
  · intro hlength
    obtain ⟨only, honly⟩ := List.length_eq_one_iff.1 hlength
    obtain ⟨value, hvalue, hlookup⟩ := hb.closed.allowed v hv.1 d hd
    rw [honly, List.mem_singleton] at hvalue
    subst hvalue
    have hfirst := listed_of_atEnd hv hcount hd (by simp [ParameterDomain.ends, honly] : (0, value) ∈ d.ends) hlookup
    have hlast := listed_of_atEnd hv hcount hd (by simp [ParameterDomain.ends, honly] : (1, value) ∈ d.ends) hlookup
    have hrows := hinj _ hfirst _ hlast rfl
    have hranks : (0, value) = (1, value) := (FrontierRow.mk.inj hrows).2.1
    exact absurd (congrArg Prod.fst hranks) Nat.zero_ne_one
  · intro e he hne hend
    rw [← lookup_of_unchanged hb hd he hfield hne] at hend
    obtain ⟨stop, hstop, hvalue⟩ := ParameterDomain.atEnd_iff.1 hend
    have hlisted := listed_of_atEnd hv hcount he hstop hvalue
    -- the vector is listed, so by exactness it is also at an end of the field it changes
    obtain ⟨-, d', hd', hfield', hend'⟩ := (hmem v).1 (List.mem_map_of_mem hlisted)
    obtain ⟨stop', hstop', hvalue'⟩ := ParameterDomain.atEnd_iff.1 hend'
    have hlisted' := listed_of_atEnd hv hcount hd' hstop' hvalue'
    have hname : d'.name = d.name := by
      rw [hfield, List.cons.injEq] at hfield'
      exact hfield'.1.symm
    have hsame : e = d' := (FrontierRow.mk.inj (hinj _ hlisted _ hlisted' rfl)).1
    exact hne (hsame.trans (hb.closed.domain_ext hd' hd hname))

/-- moves that stand alone are listed once each, and for the field they change -/
theorem exact_of_movesStandAlone (hb : b.Built) (h : MovesStandAlone history b) : FrontierExact history b := by
  have hdomain : ∀ row ∈ listedRows history b, b.differing b.defaults row.vector = [row.domain.name] ∧
      row.domain.values.length ≠ 1 := by
    intro row hrow
    obtain ⟨⟨hd, hstop⟩, hv, hcount, hvalue⟩ := mem_listedRows.1 hrow
    obtain ⟨d, hdmem, hfield⟩ := domain_of_one_field hcount
    obtain ⟨hlength, halone⟩ := h _ hv d hdmem hfield
    by_cases hne : row.domain = d
    · rw [hne]
      exact ⟨hfield, hlength⟩
    · refine absurd ?_ (halone row.domain hd hne)
      rw [← lookup_of_unchanged hb hdmem hd hfield hne]
      exact ParameterDomain.atEnd_iff.2 ⟨row.stop, hstop, hvalue⟩
  refine ⟨_, frontier_eq hb, List.Nodup.map_on ?_ (nodup_listedRows hb), fun v => ?_⟩
  · intro r hr s hs hvector
    obtain ⟨⟨hrd, hrstop⟩, -, -, hrvalue⟩ := mem_listedRows.1 hr
    obtain ⟨⟨hsd, hsstop⟩, -, -, hsvalue⟩ := mem_listedRows.1 hs
    have hname : r.domain.name = s.domain.name := by
      have := (hdomain r hr).1
      rw [hvector, (hdomain s hs).1, List.cons.injEq] at this
      exact this.1.symm
    have hsame : r.domain = s.domain := hb.closed.domain_ext hrd hsd hname
    have hvalue : r.stop.2 = s.stop.2 := by
      rw [hvector, hname, hsvalue, Option.some.injEq] at hrvalue
      exact hrvalue.symm
    have hstop : r.stop = s.stop :=
      ends_ext (hb.domains _ hrd) (hdomain r hr).2 hrstop (hsame ▸ hsstop) hvalue
    obtain ⟨rd, rs, rv⟩ := r
    exact FrontierRow.mk.injEq .. ▸ ⟨hsame, hstop, hvector⟩
  · rw [List.mem_map]
    constructor
    · rintro ⟨row, hrow, rfl⟩
      obtain ⟨⟨hd, hstop⟩, hv, -, hvalue⟩ := mem_listedRows.1 hrow
      exact ⟨hv, row.domain, hd, (hdomain row hrow).1, ParameterDomain.atEnd_iff.2 ⟨row.stop, hstop, hvalue⟩⟩
    · intro ⟨hv, d, hd, hfield, hend⟩
      obtain ⟨stop, hstop, hvalue⟩ := ParameterDomain.atEnd_iff.1 hend
      exact ⟨⟨d, stop, v⟩, listed_of_atEnd hv (by rw [hfield, List.length_singleton]) hd hstop hvalue, rfl⟩

/-- **When the frontier is exact**: the listing is the boundary moves, each once, exactly when no untried one-field move
stands at an end of a domain it leaves unchanged. -/
theorem defaultBoundaryFrontier_exact_iff (hb : b.Built) :
    FrontierExact history b ↔ MovesStandAlone history b :=
  ⟨movesStandAlone_of_exact hb, exact_of_movesStandAlone hb⟩

end

/-! ## Crosses -/

namespace Sample

def alphas : List AdaptiveValue := [.integer 0, .integer 1, .integer 2]

def betas : List AdaptiveValue := ["low", "mid", "high"].map fun s => .string (PyStr.ofString s)

theorem mem_alphas {value : AdaptiveValue} (h : value ∈ alphas) : value.adaptiveValue = .ok () := by
  simp only [alphas, List.mem_cons, List.not_mem_nil, or_false] at h
  rcases h with rfl | rfl | rfl <;> rfl

theorem mem_betas {value : AdaptiveValue} (h : value ∈ betas) : value.adaptiveValue = .ok () := by
  obtain ⟨s, -, rfl⟩ := List.mem_map.1 h
  rfl

theorem alphas_distinct : ParameterDomain.hasAlias alphas = false := by decide

theorem betas_distinct : ParameterDomain.hasAlias betas = false := by decide

/-- the pairs that differ from the defaults in at most one place -/
def crossPairs (alpha beta : AdaptiveValue) : List (AdaptiveValue × AdaptiveValue) :=
  (List.product alphas betas).filter fun p => p.1 = alpha ∨ p.2 = beta

section

variable [Sha256]

def crossParameter (name : String) (value : AdaptiveValue) : AdaptiveParameter :=
  let p : AdaptiveParameter := ⟨PyStr.ofString name, value, []⟩
  { p with integritySeal := digest p.document }

def crossVector (p : AdaptiveValue × AdaptiveValue) : AdaptiveVector :=
  let v : AdaptiveVector := ⟨[crossParameter "alpha" p.1, crossParameter "beta" p.2], []⟩
  { v with integritySeal := digest v.document }

def crossDomain (name : String) (kind : DomainKind) (values : List AdaptiveValue) : ParameterDomain :=
  let d : ParameterDomain := ⟨PyStr.ofString name, kind, values, []⟩
  { d with integritySeal := digest d.document }

/-- three values of each of two fields, and the vectors that differ from the defaults in at most one -/
def crossBounds (alpha beta : AdaptiveValue) : ParameterBounds :=
  let b : ParameterBounds := ⟨PyStr.ofString "card_testing_cnp", crossVector (alpha, beta),
    [crossDomain "alpha" .discrete alphas, crossDomain "beta" .categorical betas],
    sortBy AdaptiveVector.fingerprint ((crossPairs alpha beta).map crossVector), []⟩
  { b with integritySeal := digest b.document }

omit [Sha256] in
theorem alpha_ne : PyStr.ofString "alpha" ≠ [] := by decide

omit [Sha256] in
theorem beta_ne : PyStr.ofString "beta" ≠ [] := by decide

omit [Sha256] in
theorem names_sorted : [PyStr.ofString "alpha", PyStr.ofString "beta"] =
    sortedSet [PyStr.ofString "alpha", PyStr.ofString "beta"] := by
  decide

theorem crossVector_built {p : AdaptiveValue × AdaptiveValue} (h : p ∈ List.product alphas betas) :
    (crossVector p).Built := by
  obtain ⟨halpha, hbeta⟩ := List.mem_product.1 h
  have hentry : ∀ e ∈ (crossVector p).entries, e.Built := by
    intro e he
    simp only [crossVector, List.mem_cons, List.not_mem_nil, or_false] at he
    rcases he with rfl | rfl
    · exact AdaptiveParameter.make_eq_ok.2 ⟨alpha_ne, mem_alphas halpha, rfl⟩
    · exact AdaptiveParameter.make_eq_ok.2 ⟨beta_ne, mem_betas hbeta, rfl⟩
  exact ⟨hentry, AdaptiveVector.make_eq_ok.2 ⟨forM_eq_ok fun e he => (hentry e he).pristine, names_sorted, rfl⟩⟩

theorem crossVector_get (p : AdaptiveValue × AdaptiveValue) :
    (crossVector p).get (PyStr.ofString "alpha") = .ok p.1 ∧ (crossVector p).get (PyStr.ofString "beta") = .ok p.2 :=
  ⟨rfl, rfl⟩

variable {alpha beta : AdaptiveValue}

omit [Sha256] in
theorem mem_crossPairs {p : AdaptiveValue × AdaptiveValue} :
    p ∈ crossPairs alpha beta ↔ p ∈ List.product alphas betas ∧ (p.1 = alpha ∨ p.2 = beta) := by
  rw [crossPairs, List.mem_filter, decide_eq_true_eq]

omit [Sha256] in
theorem pairFree_texts {value : AdaptiveValue} (h : value ∈ alphas ++ betas) : ∀ s ∈ value.texts, s.pairFree = true := by
  revert value
  decide

/-- the vectors are told by their fingerprints -/
theorem cross_distinct (hcollision : Function.Injective Sha256.hexdigestBytes) :
    ((crossPairs alpha beta).map fun p => (crossVector p).fingerprint).Nodup := by
  have hfree : ∀ p ∈ crossPairs alpha beta, ∀ q ∈ (crossVector p).fields, ∀ s ∈ q.2.texts, s.pairFree = true := by
    intro p hp q hq
    obtain ⟨hfirst, hsecond⟩ := List.mem_product.1 (mem_crossPairs.1 hp).1
    simp only [AdaptiveVector.fields, crossVector, List.map_cons, List.map_nil, List.mem_cons, List.not_mem_nil,
      or_false] at hq
    rcases hq with rfl | rfl
    · exact pairFree_texts (List.mem_append_left _ hfirst)
    · exact pairFree_texts (List.mem_append_right _ hsecond)
  have hpairs : (crossPairs alpha beta).Nodup :=
    ((by decide : alphas.Nodup).product (by decide : betas.Nodup)).filter _
  refine List.Nodup.map_on (fun p hp q hq heq => ?_) hpairs
  have hvectors := ParameterBounds.eq_of_fingerprint hcollision (crossVector_built (mem_crossPairs.1 hp).1)
    (crossVector_built (mem_crossPairs.1 hq).1) rfl (hfree p hp) (hfree q hq) heq
  have hentries := congrArg (fun v : AdaptiveVector => v.entries.map AdaptiveParameter.value) hvectors
  simp only [crossVector, crossParameter, List.map_cons, List.map_nil, List.cons.injEq, and_true] at hentries
  exact Prod.ext hentries.1 hentries.2

theorem mem_crossVectors {v : AdaptiveVector} :
    v ∈ (crossBounds alpha beta).feasibleVectors ↔ ∃ p ∈ crossPairs alpha beta, crossVector p = v := by
  rw [show (crossBounds alpha beta).feasibleVectors =
    sortBy AdaptiveVector.fingerprint ((crossPairs alpha beta).map crossVector) from rfl, mem_sortBy, List.mem_map]

/-- bounds whose vectors have different fingerprints are closed -/
theorem crossBounds_closed (halpha : alpha ∈ alphas) (hbeta : beta ∈ betas)
    (hnodup : ((crossPairs alpha beta).map fun p => (crossVector p).fingerprint).Nodup) :
    (crossBounds alpha beta).boundsAreClosed = .ok () := by
  have hany : ∀ values : List AdaptiveValue, ∀ value ∈ values, values.any (AdaptiveValue.sameValue value) = true :=
    fun values value hvalue => List.any_eq_true.2 ⟨value, hvalue, decide_eq_true rfl⟩
  have hsorted : (crossBounds alpha beta).feasibleVectors.map AdaptiveVector.fingerprint =
      sortedSet ((crossBounds alpha beta).feasibleVectors.map AdaptiveVector.fingerprint) := by
    refine (sortedSet_eq ?_ fun x => Iff.rfl).symm
    have hdistinct : ((crossBounds alpha beta).feasibleVectors.map AdaptiveVector.fingerprint).Nodup := by
      refine ((sortBy_perm _ _).map _).nodup_iff.2 ?_
      rw [List.map_map]
      exact hnodup
    have hle := List.pairwise_map.2 (sortBy_sorted AdaptiveVector.fingerprint ((crossPairs alpha beta).map crossVector))
    exact (hle.and hdistinct).imp fun ⟨hle, hne⟩ => lt_of_le_of_ne hle hne
  have hvector : ∀ v ∈ (crossBounds alpha beta).feasibleVectors, (crossBounds alpha beta).checkVector v = .ok () := by
    intro v hv
    obtain ⟨p, hp, rfl⟩ := mem_crossVectors.1 hv
    obtain ⟨hfirst, hsecond⟩ := List.mem_product.1 (mem_crossPairs.1 hp).1
    simp only [ParameterBounds.checkVector, except_bind_eq_ok, check_eq_ok]
    refine ⟨(), decide_eq_true rfl, forM_eq_ok fun d hd => ?_⟩
    simp only [except_bind_eq_ok, validating_eq_ok, check_eq_ok]
    simp only [crossBounds, List.mem_cons, List.not_mem_nil, or_false] at hd
    rcases hd with rfl | rfl
    · exact ⟨p.1, (crossVector_get p).1, hany alphas p.1 hfirst⟩
    · exact ⟨p.2, (crossVector_get p).2, hany betas p.2 hsecond⟩
  have hdefault : crossVector (alpha, beta) ∈ (crossBounds alpha beta).feasibleVectors :=
    mem_crossVectors.2 ⟨_, mem_crossPairs.2 ⟨List.mem_product.2 ⟨halpha, hbeta⟩, .inl rfl⟩, rfl⟩
  simp only [ParameterBounds.boundsAreClosed, except_bind_eq_ok, check_eq_ok]
  refine ⟨(), decide_eq_true ⟨names_sorted, rfl⟩, (), decide_eq_true hsorted, (), forM_eq_ok hvector, (),
    List.contains_iff_mem.2 (List.mem_map_of_mem hdefault), forM_eq_ok fun d hd => ?_⟩
  simp only [except_bind_eq_ok, validating_eq_ok, check_eq_ok]
  -- every value of a domain stands beside the default of the other one
  simp only [crossBounds, List.mem_cons, List.not_mem_nil, or_false] at hd
  rcases hd with rfl | rfl
  · refine ⟨(sortBy AdaptiveVector.fingerprint ((crossPairs alpha beta).map crossVector)).map fun v =>
      (v.lookup (PyStr.ofString "alpha")).getD alpha, ?_, List.all_eq_true.2 fun value hvalue => ?_⟩
    · refine mapM_eq_ok.2 (List.forall₂_map_right_iff.2 (List.forall₂_same.2 fun v hv => ?_))
      obtain ⟨p, -, rfl⟩ := mem_crossVectors.1 hv
      exact (crossVector_get p).1
    · refine List.any_eq_true.2 ⟨value, List.mem_map.2 ⟨crossVector (value, beta), ?_, rfl⟩, decide_eq_true rfl⟩
      exact mem_crossVectors.2 ⟨_, mem_crossPairs.2 ⟨List.mem_product.2 ⟨hvalue, hbeta⟩, .inr rfl⟩, rfl⟩
  · refine ⟨(sortBy AdaptiveVector.fingerprint ((crossPairs alpha beta).map crossVector)).map fun v =>
      (v.lookup (PyStr.ofString "beta")).getD beta, ?_, List.all_eq_true.2 fun value hvalue => ?_⟩
    · refine mapM_eq_ok.2 (List.forall₂_map_right_iff.2 (List.forall₂_same.2 fun v hv => ?_))
      obtain ⟨p, -, rfl⟩ := mem_crossVectors.1 hv
      exact (crossVector_get p).2
    · refine List.any_eq_true.2 ⟨value, List.mem_map.2 ⟨crossVector (alpha, value), ?_, rfl⟩, decide_eq_true rfl⟩
      exact mem_crossVectors.2 ⟨_, mem_crossPairs.2 ⟨List.mem_product.2 ⟨halpha, hvalue⟩, .inl rfl⟩, rfl⟩

theorem crossBounds_built (halpha : alpha ∈ alphas) (hbeta : beta ∈ betas)
    (hnodup : ((crossPairs alpha beta).map fun p => (crossVector p).fingerprint).Nodup) :
    (crossBounds alpha beta).Built := by
  have hvector : ∀ v ∈ (crossBounds alpha beta).feasibleVectors, v.Built := by
    intro v hv
    obtain ⟨p, hp, rfl⟩ := mem_crossVectors.1 hv
    exact crossVector_built (mem_crossPairs.1 hp).1
  have hdefaults : (crossVector (alpha, beta)).Built := crossVector_built (List.mem_product.2 ⟨halpha, hbeta⟩)
  have hdomain : ∀ d ∈ (crossBounds alpha beta).domains, d.Built := by
    intro d hd
    simp only [crossBounds, List.mem_cons, List.not_mem_nil, or_false] at hd
    rcases hd with rfl | rfl
    · exact ParameterDomain.make_eq_ok.2
        ⟨alpha_ne, List.cons_ne_nil _ _, forM_eq_ok fun v hv => mem_alphas hv, alphas_distinct, rfl⟩
    · exact ParameterDomain.make_eq_ok.2
        ⟨beta_ne, List.cons_ne_nil _ _, forM_eq_ok fun v hv => mem_betas hv, betas_distinct, rfl⟩
  have hnonempty : (crossBounds alpha beta).feasibleVectors ≠ [] :=
    List.ne_nil_of_mem (mem_crossVectors.2 ⟨_, mem_crossPairs.2 ⟨List.mem_product.2 ⟨halpha, hbeta⟩, .inl rfl⟩, rfl⟩)
  refine ⟨hdefaults, hdomain, hvector, ?_⟩
  simp only [ParameterBounds.make, except_bind_eq_ok, validating_eq_ok, except_pure_eq_ok, check_eq_ok]
  exact ⟨(), rfl, (), rfl, (), hdefaults.pristine, (), forM_eq_ok fun d hd => (hdomain d hd).pristine, (),
    decide_eq_true hnonempty, (), forM_eq_ok fun v hv => (hvector v hv).pristine, (),
    crossBounds_closed halpha hbeta hnodup, rfl⟩

end

theorem middle_alpha : ¬ (alphas.head? = some (.integer 1) ∨ alphas.getLast? = some (.integer 1)) := by decide

theorem middle_beta : ¬ (betas.head? = some (.string (PyStr.ofString "mid")) ∨
    betas.getLast? = some (.string (PyStr.ofString "mid"))) := by
  decide

/-- the defaults in the middle of both domains -/
def middle [Sha256] : ParameterBounds := crossBounds (.integer 1) (.string (PyStr.ofString "mid"))

/-- the defaults at the first end of both domains -/
def corner [Sha256] : ParameterBounds := crossBounds (.integer 0) (.string (PyStr.ofString "low"))

theorem middle_inside [Sha256] {d : ParameterDomain} (hd : d ∈ middle.domains) :
    ¬ d.AtEnd (middle.defaults.lookup d.name) := by
  simp only [middle, crossBounds, List.mem_cons, List.not_mem_nil, or_false] at hd
  intro ⟨x, hx, hend⟩
  rcases hd with rfl | rfl
  · rw [← Option.some.inj (hx : some (AdaptiveValue.integer 1) = some x)] at hend
    exact middle_alpha hend
  · rw [← Option.some.inj (hx : some (AdaptiveValue.string (PyStr.ofString "mid")) = some x)] at hend
    exact middle_beta hend

theorem middle_wide [Sha256] {d : ParameterDomain} (hd : d ∈ middle.domains) : d.values.length ≠ 1 := by
  simp only [middle, crossBounds, List.mem_cons, List.not_mem_nil, or_false] at hd
  rcases hd with rfl | rfl
  · exact fun h => absurd h (by decide : (3 : ℕ) ≠ 1)
  · exact fun h => absurd h (by decide : (3 : ℕ) ≠ 1)

end Sample

open Sample in
/-- the frontier of defaults in the middle -/
theorem defaultBoundaryFrontier_middle : let _ := legible
    middle.Built ∧ FrontierExact [] middle := by
  let _ := legible
  have hbuilt : middle.Built := crossBounds_built (by decide) (by decide) (cross_distinct legible_injective)
  refine ⟨hbuilt, (defaultBoundaryFrontier_exact_iff hbuilt).2 fun v _ d hd _ => ⟨middle_wide hd, fun e he _ => ?_⟩⟩
  exact middle_inside he

open Sample in
/-- **Defaults at an end**: a move of `alpha` is listed for `beta` as well, which it leaves at the first of its values. -/
theorem defaultBoundaryFrontier_corner : let _ := legible
    corner.Built ∧ ¬ FrontierExact [] corner := by
  let _ := legible
  have hbuilt : corner.Built := crossBounds_built (by decide) (by decide) (cross_distinct legible_injective)
  refine ⟨hbuilt, fun h => ?_⟩
  have hmove : crossVector (.integer 1, .string (PyStr.ofString "low")) ∈ corner.feasibleVectors :=
    mem_crossVectors.2 ⟨_, by decide, rfl⟩
  have halone := movesStandAlone_of_exact hbuilt h _ ⟨hmove, List.not_mem_nil⟩
    (crossDomain "alpha" .discrete alphas) List.mem_cons_self (by rfl)
  refine halone.2 (crossDomain "beta" .categorical betas) (List.mem_cons_of_mem _ List.mem_cons_self) ?_
    ⟨_, rfl, .inl rfl⟩
  intro heq
  exact absurd (congrArg ParameterDomain.name heq) (by decide)

end Redteam

end Apar
