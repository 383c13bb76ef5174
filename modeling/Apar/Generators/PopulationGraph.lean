/-
The entities of a generated population and the graph between them.

Entities are built position by position (`Built`), so a list of the entities of some roles has as many members as there
are positions with those roles (`filter_built`).

- `entities_ok`: the entity loop always succeeds, and gives every position its entity.
- `payers_length`: four payers are there exactly from eleven benign entities on.
- `links_connected`: the ring leads from every entity to every other.
-/
import Apar.Generators.Population
import Apar.Simulator.Rails.A2ATransfers

namespace Apar

open Exec Population

/-- the members of a list in which each leads to the next, and the last to the first, all lead to each other -/
theorem ring_connected {α : Type} {R : α → α → Prop} {xs : List α}
    (h : ∀ i x y, xs[i]? = some x → xs[(i + 1) % xs.length]? = some y → R x y) {a b : α} (ha : a ∈ xs) (hb : b ∈ xs) :
    Relation.ReflTransGen R a b := by
  have hpos : 0 < xs.length := List.length_pos_of_mem ha
  obtain ⟨i, hi⟩ := List.mem_iff_getElem?.1 ha
  obtain ⟨j, hj⟩ := List.mem_iff_getElem?.1 hb
  have hilt : i < xs.length := (List.getElem?_eq_some_iff.1 hi).1
  have hjlt : j < xs.length := (List.getElem?_eq_some_iff.1 hj).1
  -- as many places on as wanted
  have hwalk : ∀ d y, xs[(i + d) % xs.length]? = some y → Relation.ReflTransGen R a y := by
    intro d
    induction d with
    | zero =>
      intro y hy
      rw [Nat.add_zero, Nat.mod_eq_of_lt hilt, hi, Option.some.injEq] at hy
      rw [hy]
    | succ d ih =>
      intro y hy
      have hbefore := List.getElem?_eq_getElem (Nat.mod_lt (i + d) hpos)
      apply (ih _ hbefore).tail
      apply h ((i + d) % xs.length) _ y hbefore
      rw [Nat.mod_add_mod, Nat.add_assoc]
      exact hy
  apply hwalk (xs.length - i + j)
  rw [← Nat.add_assoc, Nat.add_sub_cancel' hilt.le, Nat.add_mod_left, Nat.mod_eq_of_lt hjlt]
  exact hj

namespace Population

/-! ## Checks that pass -/

variable {α : Type}

@[simp] theorem lifted_eq_ok {x : Except SimError α} {a : α} : lifted x = .ok a ↔ x = .ok a := by
  cases x <;> simp [lifted, Except.mapError]

@[simp] theorem require_eq_ok {c : Bool} {message : String} {u : Unit} : require c message = .ok u ↔ c = true := by
  rw [require, check_eq_ok]

@[simp] theorem text_eq_ok {label value : String} {u : Unit} : text label value = .ok u ↔ value ≠ "" := by
  simp [text, checkText]

theorem formatUuid_ne {n : ℕ} : Uuid.formatUuid n ≠ "" := by
  intro h
  have hlength := Uuid.length_formatUuid n
  rw [h] at hlength
  cases hlength

/-- the text of a UUID, as `str` writes it -/
def Canonical (s : String) : Prop := ∃ n < 2 ^ 128, s = Uuid.formatUuid n

theorem uuidText_canonical {label s : String} (h : Canonical s) : uuidText label s = .ok () := by
  obtain ⟨n, hn, rfl⟩ := h
  simp only [uuidText, except_bind_eq_ok, text_eq_ok, Uuid.parseUuid_formatUuid hn, require_eq_ok, decide_true]
  exact ⟨(), formatUuid_ne, trivial⟩

theorem Canonical.checked {s : String} (h : Canonical s) (label : String) : checkUuid label s = .ok () := by
  obtain ⟨n, hn, rfl⟩ := h
  exact Lifecycle.checkUuid_formatUuid hn label

theorem relationship_ok {source target relation : String} (hsource : Canonical source) (htarget : Canonical target)
    (hrelation : relation ≠ "") :
    Relationship.create ⟨source, target, relation⟩ = .ok ⟨source, target, relation⟩ := by
  simp only [Relationship.create, except_bind_eq_ok, except_pure_eq_ok, text_eq_ok, and_true]
  exact ⟨(), uuidText_canonical hsource, (), uuidText_canonical htarget, (), hrelation⟩

theorem item_of_lt {xs : List α} {i : ℕ} (h : i < xs.length) : item xs i = .ok (xs[i]) := by
  rw [item, List.getElem?_eq_getElem h]

theorem item_eq_ok {xs : List α} {i : ℕ} {x : α} : item xs i = .ok x ↔ xs[i]? = some x := by
  unfold item
  cases xs[i]? <;> simp

theorem item_of_ge {xs : List α} {i : ℕ} (h : xs.length ≤ i) : item xs i = .error .indexError := by
  rw [item, List.getElem?_eq_none h]

theorem lastItem_of_ne {xs : List α} (h : xs ≠ []) : ∃ x ∈ xs, lastItem xs = .ok x :=
  ⟨xs.getLast h, List.getLast_mem h, by rw [lastItem, List.getLast?_eq_getLast_of_ne_nil h]⟩

theorem next_of_mem {xs : List α} {p : α → Bool} {x : α} (hx : x ∈ xs) (hp : p x = true) :
    ∃ y ∈ xs, p y = true ∧ next xs p = .ok y := by
  have hsome : (xs.find? p).isSome = true := List.find?_isSome.2 ⟨x, hx, hp⟩
  obtain ⟨y, hy⟩ := Option.isSome_iff_exists.1 hsome
  exact ⟨y, List.mem_of_find?_eq_some hy, List.find?_some hy, by rw [next, hy]⟩

end Population

namespace PopulationGenerator

variable {g : PopulationGenerator} {bundle : ScenarioBundle}

theorem identifier_canonical (g : PopulationGenerator) (bundle : ScenarioBundle) (name : String) :
    Canonical (g.identifier bundle name) := ⟨_, g.uuid5.lt _ _, rfl⟩

/-! ## Entities -/

/-- the entity of a position -/
structure Built (g : PopulationGenerator) (bundle : ScenarioBundle) (illicit : Bool) (roles : List EntityRole)
    (group : String) (index : ℕ) (e : Entity) : Prop where
  entityId : e.entityId = g.identifier bundle (indexedName group "entity" index)
  role : roles[index % roles.length]? = some e.role
  illicit : e.illicit = illicit
  accountId : e.accountId = accountOf e.role e.entityId

theorem account_ne {s : String} : "acct:" ++ s ≠ "" := by
  intro h
  have := congrArg String.length h
  simp at this

theorem Built.canonical {illicit : Bool} {roles : List EntityRole} {group : String} {index : ℕ} {e : Entity}
    (h : Built g bundle illicit roles group index e) : Canonical e.entityId := by
  rw [h.entityId]
  exact identifier_canonical g bundle _

theorem channelPool_spec (role : EntityRole) : 0 < (channelPool role).length ∧ ∀ channel ∈ channelPool role, channel ≠ "" := by
  unfold channelPool
  split_ifs <;> decide

theorem attributes_ok {channel country : String} (hchannel : channel ≠ "") (hcountry : country ≠ "") :
    ∃ attributes, closedTextMapping "attributes"
      (.ofList [("channel", channel), ("country", country), ("synthetic", "true")]) = .ok attributes := by
  have hitems : (Dict.ofList [("channel", channel), ("country", country), ("synthetic", "true")]).items =
      [("channel", channel), ("country", country), ("synthetic", "true")] := Dict.items_ofList (by simp)
  simp only [closedTextMapping, except_bind_eq_ok, except_pure_eq_ok, hitems]
  refine ⟨_, (), forM_eq_ok fun p hp => ?_, rfl⟩
  simp only [List.mem_cons, List.not_mem_nil, or_false] at hp
  simp only [except_bind_eq_ok, text_eq_ok]
  rcases hp with rfl | rfl | rfl
  · exact ⟨(), by simp, hchannel⟩
  · exact ⟨(), by simp, hcountry⟩
  · exact ⟨(), by simp, by simp⟩

theorem accountOf_ne {role : EntityRole} {entityId account : String} (h : account ∈ (accountOf role entityId).toList) :
    account ≠ "" := by
  unfold accountOf at h
  split_ifs at h
  · cases h
  · rw [List.mem_singleton.1 h]
    exact account_ne

theorem value_ne (role : EntityRole) : role.value ≠ "" := by
  cases role <;> decide

/-- one turn of the entity loop succeeds, whatever is drawn -/
theorem entity_ok (g : PopulationGenerator) (bundle : ScenarioBundle) (illicit : Bool) {roles : List EntityRole}
    (hroles : roles ≠ []) (group : String) (index call : ℕ) :
    ∃ e, g.entity bundle illicit roles group index call = .ok e ∧ Built g bundle illicit roles group index e := by
  have hrole : index % roles.length < roles.length := Nat.mod_lt _ (List.length_pos_iff.2 hroles)
  obtain ⟨hpool, hchannels⟩ := channelPool_spec roles[index % roles.length]
  have hchannel := (g.draws bundle).lt call _ hpool
  have hcountry := (g.draws bundle).lt (call + 1) countries.length (by decide)
  have hcountries : ∀ country ∈ countries, country ≠ "" := by decide
  obtain ⟨attributes, hattributes⟩ := attributes_ok (hchannels _ (List.getElem_mem hchannel))
    (hcountries _ (List.getElem_mem hcountry))
  refine ⟨⟨g.identifier bundle (indexedName group "entity" index), roles[index % roles.length],
    accountOf roles[index % roles.length] (g.identifier bundle (indexedName group "entity" index)), illicit,
    attributes⟩, ?_, ⟨rfl, List.getElem?_eq_getElem hrole, rfl, rfl⟩⟩
  simp only [entity, item_of_lt hrole, item_of_lt hchannel, item_of_lt hcountry, except_ok_bind, Entity.create,
    except_bind_eq_ok, except_pure_eq_ok, text_eq_ok]
  exact ⟨(), uuidText_canonical (identifier_canonical g bundle _), (), value_ne _, (),
    forM_eq_ok fun account haccount => text_eq_ok.2 (accountOf_ne haccount), attributes, hattributes, rfl⟩

/-- the entities of a population: the benign ones by position, then the illicit ones -/
structure Peopled (g : PopulationGenerator) (bundle : ScenarioBundle) (benign illicit : List Entity) : Prop where
  benign : List.Forall₂ (Built g bundle false benignRoles "benign") (List.range bundle.benignEntityCount) benign
  illicit : List.Forall₂ (Built g bundle true illicitRoles "illicit") (List.range bundle.illicitEntityCount) illicit

/-- **The entity loop always succeeds.** -/
theorem entities_ok (g : PopulationGenerator) (bundle : ScenarioBundle) :
    ∃ benign illicit, g.entities bundle = .ok (benign ++ illicit) ∧ Peopled g bundle benign illicit := by
  have hroles : benignRoles ≠ [] := by decide
  have hroles' : illicitRoles ≠ [] := by decide
  obtain ⟨benign, hbenign, hbuilt⟩ := mapM_exists_ok fun index (_ : index ∈ List.range bundle.benignEntityCount) =>
    entity_ok g bundle false hroles "benign" index (2 * index)
  obtain ⟨illicit, hillicit, hbuilt'⟩ := mapM_exists_ok fun index (_ : index ∈ List.range bundle.illicitEntityCount) =>
    entity_ok g bundle true hroles' "illicit" index (2 * (bundle.benignEntityCount + index))
  refine ⟨benign, illicit, ?_, hbuilt, hbuilt'⟩
  simp only [entities, hbenign, hillicit, except_ok_bind]
  rfl

/-! ## Names -/

theorem indexedName_inj {group noun : String} {i j : ℕ} (h : indexedName group noun i = indexedName group noun j) :
    i = j := by
  have hlists := congrArg String.toList h
  simp only [indexedName, String.toList_append, String.toList_ofList] at hlists
  exact Decimal.natText_inj (List.append_cancel_left hlists)

theorem benign_ne_illicit {noun : String} {i j : ℕ} : indexedName "benign" noun i ≠ indexedName "illicit" noun j := by
  intro h
  have hlists := congrArg String.toList h
  simp only [indexedName, String.toList_append, List.append_assoc] at hlists
  have hfirst : ("benign".toList ++ _ : List Char).head? = ("illicit".toList ++ _ : List Char).head? :=
    congrArg List.head? hlists
  cases hfirst

/-- the names of the entities -/
def entityNames (bundle : ScenarioBundle) : List String :=
  (List.range bundle.benignEntityCount).map (indexedName "benign" "entity") ++
    (List.range bundle.illicitEntityCount).map (indexedName "illicit" "entity")

theorem entityNames_nodup (bundle : ScenarioBundle) : (entityNames bundle).Nodup := by
  have hinj : ∀ group, Function.Injective (indexedName group "entity") := fun group _ _ h => indexedName_inj h
  refine List.nodup_append.2 ⟨List.nodup_range.map (hinj _), List.nodup_range.map (hinj _), ?_⟩
  intro a ha b hb hab
  obtain ⟨i, -, rfl⟩ := List.mem_map.1 ha
  obtain ⟨j, -, rfl⟩ := List.mem_map.1 hb
  exact benign_ne_illicit hab

variable {illicit benign entities : List Entity}

theorem Peopled.entityIds (h : Peopled g bundle benign illicit) :
    (benign ++ illicit).map Entity.entityId = (entityNames bundle).map (g.identifier bundle) := by
  have key : ∀ {flag : Bool} {roles : List EntityRole} {group : String} {n : List ℕ} {es : List Entity},
      List.Forall₂ (Built g bundle flag roles group) n es →
        es.map Entity.entityId = (n.map (indexedName group "entity")).map (g.identifier bundle) := by
    intro flag roles group n es hes
    induction hes with
    | nil => rfl
    | cons hbuilt _ ih => rw [List.map_cons, List.map_cons, List.map_cons, ih, hbuilt.entityId]
  rw [List.map_append, key h.benign, key h.illicit, entityNames, List.map_append]

theorem identifier_inj {names : Set String} (huuid : Set.InjOn (g.uuid5.value (g.namespaceOf bundle)) names)
    {a b : String} (ha : a ∈ names) (hb : b ∈ names) (h : g.identifier bundle a = g.identifier bundle b) : a = b :=
  huuid ha hb (Uuid.formatUuid_inj (g.uuid5.lt _ _) (g.uuid5.lt _ _) h)

/-- **Entity ids are unique** when the names of the entities do not collide. -/
theorem Peopled.nodup (h : Peopled g bundle benign illicit)
    (huuid : Set.InjOn (g.uuid5.value (g.namespaceOf bundle)) {name | name ∈ entityNames bundle}) :
    ((benign ++ illicit).map Entity.entityId).Nodup := by
  rw [h.entityIds]
  exact (entityNames_nodup bundle).map_on fun a ha b hb hab => identifier_inj huuid ha hb hab

theorem Peopled.canonical {benign illicit : List Entity} (h : Peopled g bundle benign illicit) {e : Entity}
    (he : e ∈ benign ++ illicit) : Canonical e.entityId := by
  rcases List.mem_append.1 he with he | he
  · obtain ⟨_, -, hbuilt⟩ := forall₂_mem_right h.benign he
    exact hbuilt.canonical
  · obtain ⟨_, -, hbuilt⟩ := forall₂_mem_right h.illicit he
    exact hbuilt.canonical

/-! ## Picks -/

theorem Peopled.filter_benign (h : Peopled g bundle benign illicit) :
    (benign ++ illicit).filter (fun e => !e.illicit) = benign ∧ (benign ++ illicit).filter (fun e => e.illicit) = illicit := by
  have hbenign : ∀ e ∈ benign, e.illicit = false := fun e he => by
    obtain ⟨_, -, hbuilt⟩ := forall₂_mem_right h.benign he
    exact hbuilt.illicit
  have hillicit : ∀ e ∈ illicit, e.illicit = true := fun e he => by
    obtain ⟨_, -, hbuilt⟩ := forall₂_mem_right h.illicit he
    exact hbuilt.illicit
  refine ⟨?_, ?_⟩
  · rw [List.filter_append, List.filter_eq_self.2 fun e he => by rw [hbenign e he]; rfl,
      List.filter_eq_nil_iff.2 fun e he => by rw [hillicit e he]; decide, List.append_nil]
  · rw [List.filter_append, List.filter_eq_nil_iff.2 fun e he => by rw [hbenign e he]; decide,
      List.filter_eq_self.2 hillicit, List.nil_append]

theorem Peopled.exists_role (h : Peopled g bundle benign illicit) (hcount : 9 ≤ bundle.benignEntityCount) {k : ℕ}
    (role : EntityRole) (hrole : benignRoles[k]? = some role) : ∃ e ∈ benign, e.role = role := by
  have hk : k < 9 := (List.getElem?_eq_some_iff.1 hrole).1
  obtain ⟨e, he, hbuilt⟩ := forall₂_mem_left h.benign (List.mem_range.2 (hk.trans_le hcount))
  have hbuiltRole : benignRoles[k % 9]? = some e.role := hbuilt.role
  rw [Nat.mod_eq_of_lt hk, hrole] at hbuiltRole
  exact ⟨e, he, (Option.some.inj hbuiltRole).symm⟩

/-- what picking gives -/
structure Picked (benign illicit : List Entity) (c : Cast) : Prop where
  device : c.device ∈ benign
  devices : c.devices ≠ [] ∧ ∀ e ∈ c.devices, e ∈ benign
  beneficiary : c.beneficiary ∈ benign ∧ c.beneficiary.role = .beneficiary
  merchants : c.merchants ≠ [] ∧ ∀ e ∈ c.merchants, e ∈ benign ∧ e.role = .merchant
  locations : c.locations ≠ [] ∧ ∀ e ∈ c.locations, e ∈ benign
  payers : c.payers = benign.filter fun e => e.role ∈ [EntityRole.victim, .consumer]
  attackers : ∀ e ∈ c.attackers, e ∈ illicit

theorem withRole_spec (h : Peopled g bundle benign illicit) (hcount : 9 ≤ bundle.benignEntityCount) {k : ℕ}
    (role : EntityRole) (hrole : benignRoles[k]? = some role) :
    withRole role benign ≠ [] ∧ ∀ e ∈ withRole role benign, e ∈ benign ∧ e.role = role := by
  obtain ⟨e, he, her⟩ := h.exists_role hcount role hrole
  refine ⟨List.ne_nil_of_mem (a := e) (List.mem_filter.2 ⟨he, by simpa using her⟩), fun e he => ?_⟩
  simpa [withRole] using List.mem_filter.1 he

theorem cast_ok (h : Peopled g bundle benign illicit) (hcount : 9 ≤ bundle.benignEntityCount) :
    ∃ c, PopulationGenerator.cast (benign ++ illicit) = .ok c ∧ Picked benign illicit c := by
  obtain ⟨d, hd, hdrole⟩ := h.exists_role hcount (k := 4) .device rfl
  obtain ⟨b, hb, hbrole⟩ := h.exists_role hcount (k := 3) .beneficiary rfl
  obtain ⟨device, hdevice, -, hnextDevice⟩ := next_of_mem (p := fun e : Entity => e.role = .device) hd (by simpa using hdrole)
  obtain ⟨beneficiary, hbeneficiary, hrole, hnextBeneficiary⟩ :=
    next_of_mem (p := fun e : Entity => e.role = .beneficiary) hb (by simpa using hbrole)
  obtain ⟨hfilter, hfilterIllicit⟩ := h.filter_benign
  have hpayers : (benign.filter fun e => e.accountId.any (· ≠ "") && e.role ∈ [EntityRole.victim, .consumer]) =
      benign.filter fun e => e.role ∈ [EntityRole.victim, .consumer] := by
    refine List.filter_congr fun e he => ?_
    obtain ⟨_, -, hbuilt⟩ := forall₂_mem_right h.benign he
    by_cases hpayer : e.role ∈ [EntityRole.victim, .consumer]
    · have haccount : e.accountId = some ("acct:" ++ e.entityId) := by
        rw [hbuilt.accountId, accountOf, if_neg]
        intro hno
        simp only [List.mem_cons, List.not_mem_nil, or_false] at hpayer hno
        rcases hpayer with hp | hp <;> rcases hno with hn | hn <;> rw [hp] at hn <;> cases hn
      rw [haccount, decide_eq_true hpayer, Option.any_some, decide_eq_true account_ne]
      rfl
    · rw [decide_eq_false hpayer, Bool.and_false]
  let c : Cast := ⟨device, withRole .device benign, beneficiary, withRole .merchant benign,
    withRole .merchantLocation benign,
    benign.filter fun e => e.accountId.any (· ≠ "") && e.role ∈ [EntityRole.victim, .consumer],
    withRole .attacker illicit⟩
  refine ⟨c, ?_, ⟨hdevice, ?_, ⟨hbeneficiary, by simpa using hrole⟩, ?_, ?_, hpayers, ?_⟩⟩
  · simp only [PopulationGenerator.cast, hfilter, hfilterIllicit, hnextDevice, hnextBeneficiary, except_ok_bind]
    rfl
  · obtain ⟨hne, hmem⟩ := withRole_spec h hcount (k := 4) .device rfl
    exact ⟨hne, fun e he => (hmem e he).1⟩
  · exact withRole_spec h hcount (k := 2) .merchant rfl
  · obtain ⟨hne, hmem⟩ := withRole_spec h hcount (k := 8) .merchantLocation rfl
    exact ⟨hne, fun e he => (hmem e he).1⟩
  · exact fun e he => List.mem_of_mem_filter he

/-- **The payers.** Four of them are there exactly from eleven benign entities on. -/
theorem Peopled.payers_length (h : Peopled g bundle benign illicit) :
    4 ≤ (benign.filter fun e => e.role ∈ [EntityRole.victim, .consumer]).length ↔ 11 ≤ bundle.benignEntityCount := by
  have hroles : ∀ k < 9, (benignRoles[k]?.any fun role => role ∈ [EntityRole.victim, .consumer]) = decide (k < 2) := by
    decide
  have hlength : (benign.filter fun e => e.role ∈ [EntityRole.victim, .consumer]).length =
      ((List.range bundle.benignEntityCount).filter fun i => i % 9 < 2).length := by
    refine (List.rel_filter ?_ h.benign).length_eq.symm
    intro i e hbuilt
    have hmod := hroles (i % 9) (Nat.mod_lt i (by norm_num))
    have hrole : benignRoles[i % 9]? = some e.role := hbuilt.role
    rw [hrole, Option.any_some] at hmod
    show decide (i % 9 < 2) = true ↔ decide _ = true
    rw [← hmod]
  rw [hlength]
  refine ⟨fun hfour => ?_, fun hcount => ?_⟩
  · by_contra hfew
    have hsub : ((List.range bundle.benignEntityCount).filter fun i => i % 9 < 2).length ≤
        ((List.range 10).filter fun i => i % 9 < 2).length :=
      ((List.range_sublist.2 (by omega)).filter _).length_le
    have hthree : ((List.range 10).filter fun i => i % 9 < 2).length = 3 := by decide
    omega
  · have hmem : [0, 1, 9, 10] ⊆ (List.range bundle.benignEntityCount).filter fun i => i % 9 < 2 := by
      intro i hi
      simp only [List.mem_cons, List.not_mem_nil, or_false] at hi
      simp only [List.mem_filter, List.mem_range, decide_eq_true_eq]
      omega
    exact (List.subperm_of_subset (by decide) hmem).length_le

/-! ## The graph -/

/-- an edge between two entities -/
def Linked (relationships : List Relationship) (a b : String) : Prop :=
  ∃ edge ∈ relationships, edge.sourceId = a ∧ edge.targetId = b

/-- the ring -/
theorem populationLinks_ok (hcanonical : ∀ e ∈ entities, Canonical e.entityId) :
    ∃ links, populationLinks entities = .ok links ∧
      List.Forall₂ (fun (p : Entity × ℕ) edge => ∃ following ∈ entities,
        entities[(p.2 + 1) % entities.length]? = some following ∧
          edge = ⟨p.1.entityId, following.entityId, "population_link"⟩) entities.zipIdx links := by
  refine mapM_exists_ok fun p hp => ?_
  obtain ⟨e, index⟩ := p
  have hentity : entities[index]? = some e := List.mem_zipIdx_iff_getElem?.1 hp
  have he : e ∈ entities := List.mem_of_getElem? hentity
  have hpos : 0 < entities.length := List.length_pos_of_mem he
  have hlt : (index + 1) % entities.length < entities.length := Nat.mod_lt _ hpos
  refine ⟨_, ?_, entities[(index + 1) % entities.length], List.getElem_mem hlt, List.getElem?_eq_getElem hlt, rfl⟩
  simp only [item_of_lt hlt, except_ok_bind]
  exact relationship_ok (hcanonical e he) (hcanonical _ (List.getElem_mem _)) (by decide)

/-- **The graph is connected.** The ring leads from every entity to every other. -/
theorem links_connected {links more : List Relationship}
    (h : List.Forall₂ (fun (p : Entity × ℕ) edge => ∃ following ∈ entities,
        entities[(p.2 + 1) % entities.length]? = some following ∧
          edge = ⟨p.1.entityId, following.entityId, "population_link"⟩) entities.zipIdx links) {a b : Entity}
    (ha : a ∈ entities) (hb : b ∈ entities) : Relation.ReflTransGen (Linked (links ++ more)) a.entityId b.entityId := by
  refine (ring_connected (R := fun x y : Entity => Linked (links ++ more) x.entityId y.entityId) ?_ ha hb).lift
    Entity.entityId fun _ _ hlink => hlink
  intro i x y hx hy
  have hmem : (x, i) ∈ entities.zipIdx := List.mem_zipIdx_iff_getElem?.2 hx
  obtain ⟨edge, hedge, following, -, hfollowing, rfl⟩ := forall₂_mem_left h hmem
  have hsame : following = y := Option.some.inj (hfollowing.symm.trans hy)
  exact ⟨_, List.mem_append_left _ hedge, rfl, congrArg Entity.entityId hsame⟩

theorem mapM_relationship_ok {known : List Entity} (sources : List Entity) (relation : String) {target : Entity}
    (hcanonical : ∀ e ∈ known, Canonical e.entityId) (hsources : ∀ e ∈ sources, e ∈ known) (htarget : target ∈ known)
    (hrelation : relation ≠ "") :
    ∃ links, sources.mapM (fun e => Relationship.create ⟨e.entityId, target.entityId, relation⟩) = .ok links ∧
      ∀ edge ∈ links, edge.sourceId ∈ known.map Entity.entityId ∧ edge.targetId ∈ known.map Entity.entityId := by
  obtain ⟨links, hlinks, hall⟩ := mapM_exists_ok (f := fun e => Relationship.create ⟨e.entityId, target.entityId, relation⟩)
    (P := fun e edge => edge = ⟨e.entityId, target.entityId, relation⟩) fun e he =>
      ⟨_, relationship_ok (hcanonical e (hsources e he)) (hcanonical target htarget) hrelation, rfl⟩
  refine ⟨links, hlinks, fun edge hedge => ?_⟩
  obtain ⟨e, he, rfl⟩ := forall₂_mem_right hall hedge
  exact ⟨List.mem_map_of_mem (hsources e he), List.mem_map_of_mem htarget⟩

/-- the edges of the merchants, their locations and the traveller, if there is one -/
theorem castLinks_eq {c : Cast} (h : Picked benign illicit c)
    (hcanonical : ∀ e ∈ benign ++ illicit, Canonical e.entityId) :
    ∃ first newLocation pays, newLocation ∈ benign ∧ (∀ edge ∈ first ++ pays,
        edge.sourceId ∈ (benign ++ illicit).map Entity.entityId ∧
          edge.targetId ∈ (benign ++ illicit).map Entity.entityId) ∧
      castLinks c = do
        let traveller ← item c.payers 2
        let travels ← Relationship.create ⟨traveller.entityId, newLocation.entityId, "travels_to"⟩
        return first ++ [travels] ++ pays := by
  have hbenign : ∀ {e : Entity}, e ∈ benign → e ∈ benign ++ illicit := fun he => List.mem_append_left _ he
  have hpayer : ∀ e ∈ c.payers, e ∈ benign ++ illicit := fun e he => by
    rw [h.payers] at he
    exact hbenign (List.mem_of_mem_filter he)
  obtain ⟨shares, hshares, hshared⟩ := mapM_relationship_ok (c.payers.take 2) "shares_device"
    hcanonical (fun e he => hpayer e (List.mem_of_mem_take he)) (hbenign h.device) (by decide)
  obtain ⟨uses, huses, hused⟩ := mapM_relationship_ok (c.attackers.take 2) "uses_shared_device"
    hcanonical (fun e he => List.mem_append_right _ (h.attackers e (List.mem_of_mem_take he))) (hbenign h.device)
    (by decide)
  obtain ⟨pays, hpays, hpaid⟩ := mapM_relationship_ok ((c.payers.drop 2).take 2)
    "pays_shared_beneficiary" hcanonical
    (fun e he => hpayer e (List.mem_of_mem_drop (List.mem_of_mem_take he))) (hbenign h.beneficiary.1) (by decide)
  have hmerchant : 0 < c.merchants.length := List.length_pos_iff.2 h.merchants.1
  have hlocation : 0 < c.locations.length := List.length_pos_iff.2 h.locations.1
  obtain ⟨newMerchant, hnewMerchant, hlastMerchant⟩ := lastItem_of_ne h.merchants.1
  obtain ⟨newLocation, hnewLocation, hlastLocation⟩ := lastItem_of_ne h.locations.1
  have hm := hbenign (h.merchants.2 _ (List.getElem_mem hmerchant)).1
  have hm' := hbenign (h.merchants.2 _ hnewMerchant).1
  have hl := hbenign (h.locations.2 _ (List.getElem_mem hlocation))
  have hl' := hbenign (h.locations.2 _ hnewLocation)
  refine ⟨shares ++ uses ++ [⟨c.merchants[0].entityId, c.locations[0].entityId, "located_at"⟩,
    ⟨newMerchant.entityId, newLocation.entityId, "new_merchant_location"⟩], newLocation, pays,
    h.locations.2 _ hnewLocation, ?_, ?_⟩
  · intro edge hedge
    simp only [List.mem_append, List.mem_cons, List.not_mem_nil, or_false] at hedge
    rcases hedge with ((hedge | hedge) | rfl | rfl) | hedge
    · exact hshared edge hedge
    · exact hused edge hedge
    · exact ⟨List.mem_map_of_mem hm, List.mem_map_of_mem hl⟩
    · exact ⟨List.mem_map_of_mem hm', List.mem_map_of_mem hl'⟩
    · exact hpaid edge hedge
  · simp only [castLinks, hshares, huses, hpays, item_of_lt hmerchant, item_of_lt hlocation, hlastMerchant, hlastLocation,
      except_ok_bind,
      relationship_ok (hcanonical _ hm) (hcanonical _ hl) (show "located_at" ≠ "" by decide),
      relationship_ok (hcanonical _ hm') (hcanonical _ hl') (show "new_merchant_location" ≠ "" by decide),
      List.append_assoc, List.cons_append, List.nil_append]

/-- the edges beside the ring, between the entities picked -/
theorem castLinks_ok {c : Cast} (h : Picked benign illicit c)
    (hcanonical : ∀ e ∈ benign ++ illicit, Canonical e.entityId) (hpayers : 3 ≤ c.payers.length) :
    ∃ links, castLinks c = .ok links ∧ ∀ edge ∈ links,
      edge.sourceId ∈ (benign ++ illicit).map Entity.entityId ∧ edge.targetId ∈ (benign ++ illicit).map Entity.entityId := by
  obtain ⟨first, newLocation, pays, hlocation, hedges, heq⟩ := castLinks_eq h hcanonical
  have htraveller : c.payers[2] ∈ benign := by
    have hmem := List.getElem_mem (show 2 < c.payers.length by omega)
    simp only [h.payers] at hmem ⊢
    exact List.mem_of_mem_filter hmem
  have htravels := relationship_ok (hcanonical _ (List.mem_append_left _ htraveller))
    (hcanonical _ (List.mem_append_left _ hlocation)) (show "travels_to" ≠ "" by decide)
  refine ⟨first ++ [⟨c.payers[2].entityId, newLocation.entityId, "travels_to"⟩] ++ pays, ?_, fun edge hedge => ?_⟩
  · rw [heq, item_of_lt (show 2 < c.payers.length by omega)]
    simp only [except_ok_bind, htravels]
    rfl
  · simp only [List.mem_append, List.mem_singleton] at hedge
    rcases hedge with (hedge | rfl) | hedge
    · exact hedges edge (List.mem_append_left _ hedge)
    · exact ⟨List.mem_map_of_mem (List.mem_append_left _ htraveller), List.mem_map_of_mem (List.mem_append_left _ hlocation)⟩
    · exact hedges edge (List.mem_append_right _ hedge)

/-- without a third payer the traveller is looked up in vain -/
theorem castLinks_fails {c : Cast} (h : Picked benign illicit c)
    (hcanonical : ∀ e ∈ benign ++ illicit, Canonical e.entityId) (hpayers : c.payers.length < 3) :
    castLinks c = .error .indexError := by
  obtain ⟨first, newLocation, pays, -, -, heq⟩ := castLinks_eq h hcanonical
  rw [heq, item_of_ge (by omega)]
  rfl

end PopulationGenerator

end Apar
