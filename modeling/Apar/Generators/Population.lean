/-
Synthetic populations (`generators/population.py`): entities with cyclic roles, the graph between them, their accounts and
opening balances, and four benign activities with the account-to-account commands that carry them out.

`PopulationGenerator.generate` first checks the counts of the bundle, then builds the identities and picks entities by
their position among those of a role; `Population.create` is the dataclass with its `__post_init__`, which checks the
result once more. `uuid5`, the derived seed and the random generator are parameters: every draw may be any number in its
range.

Not modelled: the exact-type checks, which no caller here can fail, and `canonical_bytes`.
-/
import Apar.Simulator.Rails.Progress

namespace Apar

open Exec

/-! ## Parameters -/

/-- `uuid5(namespace, name)` on 128-bit integers -/
structure Uuid5 where
  value : ℕ → String → ℕ
  lt : ∀ namespaceId name, value namespaceId name < 2 ^ 128

/-- what `rng.integers(0, n)` returns, call by call -/
structure Draws where
  integers : ℕ → ℕ → ℕ
  lt : ∀ call n, 0 < n → integers call n < n

/-- `NAMESPACE_URL` -/
def namespaceUrl : ℕ := 0x6ba7b8119dad11d180b400c04fd430c8

/-- the fields of a `ScenarioBundle` that the generator reads; a scenario lasts at least an hour -/
structure ScenarioBundle where
  scenarioId : String
  benignEntityCount : ℕ
  illicitEntityCount : ℕ
  durationHours : ℕ
  seed : ℤ
  simulationStart : Time
  lasts : 0 < durationHours

/-- what a generation raises -/
inductive GenerationError where
  | raised (error : SimError)
  | indexError
  | stopIteration
deriving DecidableEq

namespace Population

def lifted {α : Type} : Except SimError α → Except GenerationError α := Except.mapError .raised

def require (c : Bool) (message : String) : Except GenerationError Unit := check c (.raised (.valueError message))

/-- `xs[i]` -/
def item {α : Type} (xs : List α) (i : ℕ) : Except GenerationError α :=
  match xs[i]? with
  | some x => .ok x
  | none => .error .indexError

/-- `xs[-1]` -/
def lastItem {α : Type} (xs : List α) : Except GenerationError α :=
  match xs.getLast? with
  | some x => .ok x
  | none => .error .indexError

/-- `next(x for x in xs if p(x))` -/
def next {α : Type} (xs : List α) (p : α → Bool) : Except GenerationError α :=
  match xs.find? p with
  | some x => .ok x
  | none => .error .stopIteration

/-- `_text` -/
def text (label value : String) : Except GenerationError Unit := lifted (checkText label value)

/-- `_uuid_text` -/
def uuidText (label value : String) : Except GenerationError Unit := do
  text label value
  match Uuid.parseUuid value with
  | none => .error (.raised (.valueError (label ++ " must be a UUID string")))
  | some n => require (Uuid.formatUuid n = value) (label ++ " must be a canonical UUID string")

/-- `dict(sorted(values.items()))` -/
def sorted {α : Type} (d : Dict String α) : Dict String α :=
  ⟨sortBy Prod.fst d.items, ((sortBy_perm Prod.fst d.items).map Prod.fst).nodup_iff.2 d.nodup⟩

/-- `_closed_text_mapping` -/
def closedTextMapping (label : String) (values : Dict String String) : Except GenerationError (Dict String String) := do
  values.items.forM fun p => do
    text (label ++ " key") p.1
    text (label ++ " value") p.2
  return sorted values

/-! ## Records -/

inductive EntityRole where
  | victim
  | consumer
  | merchant
  | beneficiary
  | device
  | agent
  | organization
  | institution
  | merchantLocation
  | mule
  | syntheticMerchant
  | attacker
  | compromisedCredential
deriving DecidableEq, Repr

def EntityRole.value : EntityRole → String
  | .victim => "victim"
  | .consumer => "consumer"
  | .merchant => "merchant"
  | .beneficiary => "beneficiary"
  | .device => "device"
  | .agent => "agent"
  | .organization => "organization"
  | .institution => "institution"
  | .merchantLocation => "merchant_location"
  | .mule => "mule"
  | .syntheticMerchant => "synthetic_merchant"
  | .attacker => "attacker"
  | .compromisedCredential => "compromised_credential"

/-- `_BENIGN_ROLES` -/
def benignRoles : List EntityRole :=
  [.victim, .consumer, .merchant, .beneficiary, .device, .agent, .organization, .institution, .merchantLocation]

/-- `_ILLICIT_ROLES` -/
def illicitRoles : List EntityRole := [.mule, .syntheticMerchant, .attacker, .compromisedCredential]

/-- `_CHANNELS` -/
def channels : List String := ["mobile", "web", "branch", "agent"]

/-- `_COUNTRIES` -/
def countries : List String := ["GB", "IN", "SG", "US"]

/-- `PopulationEntity` -/
structure Entity where
  entityId : String
  role : EntityRole
  accountId : Option String
  illicit : Bool
  attributes : Dict String String

/-- `PopulationRelationship` -/
structure Relationship where
  sourceId : String
  targetId : String
  relation : String
deriving DecidableEq

/-- `PopulationAccount` -/
structure Account where
  accountId : String
  ownerEntityId : String
  institutionEntityId : String
  currency : String
  openingBalance : Decimal
deriving DecidableEq

/-- `BenignActivity` -/
structure Activity where
  activityId : String
  shift : String
  scheduledAt : Time
  actorId : String
  counterpartyId : String
  deviceId : String
  merchantLocationId : String
  paymentId : String

def Entity.create (e : Entity) : Except GenerationError Entity := do
  uuidText "entity_id" e.entityId
  text "role" e.role.value
  e.accountId.toList.forM (text "account_id")
  let attributes ← closedTextMapping "attributes" e.attributes
  return { e with attributes := attributes }

def Relationship.create (r : Relationship) : Except GenerationError Relationship := do
  uuidText "source_id" r.sourceId
  uuidText "target_id" r.targetId
  text "relation" r.relation
  return r

/-- a non-negative amount in cents -/
def canonicalAmount (amount : Decimal) : Bool :=
  Decimal.ble 0 amount && (amount.quantize .default (-2)).any fun quantized => quantized.numEq amount

def Account.create (a : Account) : Except GenerationError Account := do
  text "account_id" a.accountId
  uuidText "owner_entity_id" a.ownerEntityId
  uuidText "institution_entity_id" a.institutionEntityId
  require (a.currency = "USD") "population accounts currently support USD only"
  require (canonicalAmount a.openingBalance) "opening_balance must be a non-negative canonical Decimal"
  return a

def Activity.create (a : Activity) : Except GenerationError Activity := do
  uuidText "activity_id" a.activityId
  text "shift" a.shift
  uuidText "actor_id" a.actorId
  uuidText "counterparty_id" a.counterpartyId
  uuidText "device_id" a.deviceId
  uuidText "merchant_location_id" a.merchantLocationId
  text "payment_id" a.paymentId
  return a

end Population

open Population in
/-- a `Population` -/
structure Population where
  scenarioId : String
  bundle : ScenarioBundle
  seed : ℕ
  generatedAt : Time
  horizonEnd : Time
  entities : List Entity
  relationships : List Relationship
  accounts : List Account
  openingBalances : Dict String Decimal
  benignControls : List String
  benignActivities : List Activity
  benignCommands : List (Command A2AOperation)

namespace Population

/-- `Population.__post_init__` -/
def create (p : Population) : Except GenerationError Population := do
  text "scenario_id" p.scenarioId
  check (p.bundle.scenarioId = p.scenarioId)
    (.raised (.typeError "bundle must be the exact source ScenarioBundle"))
  require (p.generatedAt < p.horizonEnd) "horizon_end must be after generated_at"
  check (!p.entities.isEmpty) (.raised (.typeError "entities must be a non-empty exact tuple"))
  let identifiers := p.entities.map Entity.entityId
  require identifiers.Nodup "population entity IDs must be unique"
  p.relationships.forM fun edge =>
    require (edge.sourceId ∈ identifiers ∧ edge.targetId ∈ identifiers) "relationships must reference declared entities"
  p.accounts.forM fun account => do
    require (account.ownerEntityId ∈ identifiers) "account owner must reference a declared entity"
    require (account.institutionEntityId ∈ identifiers) "account institution must reference a declared entity"
  p.openingBalances.items.forM fun balance => do
    text "opening balance account" balance.1
    require (canonicalAmount balance.2) "opening balances must be non-negative canonical USD amounts"
  require ((p.entities.filterMap Entity.accountId).all (p.openingBalances.keys.contains ·))
    "every entity account must have an opening balance"
  p.benignControls.forM (text "benign control")
  require (p.benignControls = sortedSet p.benignControls) "benign_controls must be unique and sorted"
  p.benignActivities.forM fun activity => do
    require ([activity.actorId, activity.counterpartyId, activity.deviceId, activity.merchantLocationId].all
      (identifiers.contains ·)) "benign activity must reference declared entities"
    require (p.generatedAt ≤ activity.scheduledAt ∧ activity.scheduledAt ≤ p.horizonEnd)
      "benign activity must stay within the population horizon"
  return { p with openingBalances := sorted p.openingBalances }

end Population

/-! ## Generation -/

open Population

/-- a `PopulationGenerator`: its seed, and what it takes from libraries -/
structure PopulationGenerator where
  seed : ℕ
  uuid5 : Uuid5
  /-- `SeedSequence([seed, bundle.seed]).generate_state(1)[0]` -/
  generateState : ℕ → ℕ → ℕ
  /-- `default_rng(seed)` -/
  defaultRng : ℕ → Draws

namespace PopulationGenerator

def compositeSeed (g : PopulationGenerator) (bundle : ScenarioBundle) : ℕ := g.generateState g.seed bundle.seed.toNat

def namespaceOf (g : PopulationGenerator) (bundle : ScenarioBundle) : ℕ :=
  g.uuid5.value namespaceUrl ("apar:population:" ++ bundle.scenarioId ++ ":" ++
    String.ofList (Decimal.natText (g.compositeSeed bundle)))

/-- `str(uuid5(namespace, name))` -/
def identifier (g : PopulationGenerator) (bundle : ScenarioBundle) (name : String) : String :=
  Uuid.formatUuid (g.uuid5.value (g.namespaceOf bundle) name)

def draws (g : PopulationGenerator) (bundle : ScenarioBundle) : Draws := g.defaultRng (g.compositeSeed bundle)

/-- `f"{prefix}:{noun}:{index}"` -/
def indexedName (group noun : String) (index : ℕ) : String :=
  group ++ ":" ++ noun ++ ":" ++ String.ofList (Decimal.natText index)

/-- the account of an entity: a device and a stolen credential have none -/
def accountOf (role : EntityRole) (entityId : String) : Option String :=
  if role ∈ [EntityRole.device, .compromisedCredential] then none else some ("acct:" ++ entityId)

def channelPool (role : EntityRole) : List String :=
  if role ∈ [EntityRole.victim, .consumer, .mule] then channels.take 2 else channels

/-- one turn of the entity loop, when `call` numbers have been drawn -/
def entity (g : PopulationGenerator) (bundle : ScenarioBundle) (illicit : Bool) (roles : List EntityRole) (group : String)
    (index call : ℕ) : Except GenerationError Entity := do
  let role ← item roles (index % roles.length)
  let entityId := g.identifier bundle (indexedName group "entity" index)
  let pool := channelPool role
  let channel ← item pool ((g.draws bundle).integers call pool.length)
  let country ← item countries ((g.draws bundle).integers (call + 1) countries.length)
  Entity.create ⟨entityId, role, accountOf role entityId, illicit,
    .ofList [("channel", channel), ("country", country), ("synthetic", "true")]⟩

/-- the entity loop -/
def entities (g : PopulationGenerator) (bundle : ScenarioBundle) : Except GenerationError (List Entity) := do
  let benign ← (List.range bundle.benignEntityCount).mapM fun index =>
    g.entity bundle false benignRoles "benign" index (2 * index)
  let illicit ← (List.range bundle.illicitEntityCount).mapM fun index =>
    g.entity bundle true illicitRoles "illicit" index (2 * (bundle.benignEntityCount + index))
  return benign ++ illicit

/-- how many numbers the entity loop draws -/
def entityDraws (bundle : ScenarioBundle) : ℕ := 2 * (bundle.benignEntityCount + bundle.illicitEntityCount)

/-- the ring through all entities -/
def populationLinks (entities : List Entity) : Except GenerationError (List Relationship) :=
  entities.zipIdx.mapM fun (entity, index) => do
    let following ← item entities ((index + 1) % entities.length)
    Relationship.create ⟨entity.entityId, following.entityId, "population_link"⟩

/-- what the rest of the generation picks from the entities -/
structure Cast where
  device : Entity
  devices : List Entity
  beneficiary : Entity
  merchants : List Entity
  locations : List Entity
  payers : List Entity
  attackers : List Entity

def withRole (role : EntityRole) (entities : List Entity) : List Entity := entities.filter fun e => e.role = role

def cast (entities : List Entity) : Except GenerationError Cast := do
  let benign := entities.filter fun e => !e.illicit
  let device ← next benign fun e => e.role = .device
  let beneficiary ← next benign fun e => e.role = .beneficiary
  return {
    device := device
    devices := withRole .device benign
    beneficiary := beneficiary
    merchants := withRole .merchant benign
    locations := withRole .merchantLocation benign
    payers := benign.filter fun e => e.accountId.any (· ≠ "") && e.role ∈ [EntityRole.victim, .consumer]
    attackers := withRole .attacker (entities.filter fun e => e.illicit) }

/-- the edges beside the ring -/
def castLinks (c : Cast) : Except GenerationError (List Relationship) := do
  let shares ← (c.payers.take 2).mapM fun e => Relationship.create ⟨e.entityId, c.device.entityId, "shares_device"⟩
  let uses ← (c.attackers.take 2).mapM fun e =>
    Relationship.create ⟨e.entityId, c.device.entityId, "uses_shared_device"⟩
  let merchant ← item c.merchants 0
  let location ← item c.locations 0
  let located ← Relationship.create ⟨merchant.entityId, location.entityId, "located_at"⟩
  let newMerchant ← lastItem c.merchants
  let newLocation ← lastItem c.locations
  let relocated ← Relationship.create ⟨newMerchant.entityId, newLocation.entityId, "new_merchant_location"⟩
  let traveller ← item c.payers 2
  let travels ← Relationship.create ⟨traveller.entityId, newLocation.entityId, "travels_to"⟩
  let pays ← ((c.payers.drop 2).take 2).mapM fun e =>
    Relationship.create ⟨e.entityId, c.beneficiary.entityId, "pays_shared_beneficiary"⟩
  return shares ++ uses ++ [located, relocated, travels] ++ pays

/-- the opening balance of an entity's account -/
def openingBalance (e : Entity) : Decimal :=
  if e.role = .mule then ⟨0, -2⟩ else if e.illicit then ⟨500000, -2⟩ else ⟨1000000, -2⟩

def systemAccounts : List String := ["a2a:fees", "a2a:frozen", "card:holds", "card:fees", "card:chargebacks"]

def balances (entities : List Entity) : Dict String Decimal :=
  .ofList (entities.filterMap (fun e => e.accountId.map fun account => (account, openingBalance e)) ++
    systemAccounts.map fun account => (account, ⟨0, -2⟩))

/-- the accounts of the entities, all held at one institution -/
def accounts (entities : List Entity) : Except GenerationError (List Account) := do
  let institution ← next (entities.filter fun e => !e.illicit) fun e => e.role = .institution
  (entities.filterMap fun e => e.accountId.map fun account => (e, account)).mapM fun (e, account) => do
    let balance ← match (balances entities).get? account with
      | some balance => .ok balance
      | none => .error (.raised .keyError)
    Account.create ⟨account, e.entityId, institution.entityId, "USD", balance⟩

def microsecondsPerMinute : ℤ := 60000000

/-- the last microsecond a `datetime` has -/
def lastTime : Time := 253402300799999999

/-- `start + timedelta(...)` -/
def later (start : Time) (delta : ℤ) : Except GenerationError Time :=
  if start + delta ≤ lastTime then .ok (start + delta) else .error (.raised (.overflowError "date value out of range"))

/-- `cast(str, entity.account_id)`, as a command checks it -/
def accountText (label : String) (e : Entity) : Except GenerationError String :=
  match e.accountId with
  | some account => .ok account
  | none => .error (.raised (.typeError (label ++ " must be an exact string")))

/-- `InitiateA2A(...)`, with the accounts it takes by default -/
def initiate (paymentId : String) (amount : Decimal) (payerAccount payeeAccount actorId counterpartyId campaignId
    traceId : String) : Except GenerationError (Request A2AOperation A2ARole) :=
  lifted (a2aRail.openingRequest .default .initiateA2A paymentId ("a2a.initiate:" ++ paymentId) {
    amount := amount
    currency := "USD"
    accounts := fun
      | .payer => payerAccount
      | .payee => payeeAccount
      | .fee => "a2a:fees"
      | .frozen => "a2a:frozen"
    actorId := actorId
    counterpartyId := counterpartyId
    campaignId := campaignId
    traceId := traceId
    fee := 0 })

/-- `AcceptA2A(...)` and `PostA2A(...)` with the key the generator gives them -/
def followup (operation : A2AOperation) (paymentId campaignId : String) :
    Except GenerationError (Request A2AOperation A2ARole) :=
  lifted (Lifecycle.followupRequest operation paymentId
    (A2A.operationName operation ++ ":" ++ paymentId ++ ":campaign:" ++ campaignId))

/-- one activity before it is scheduled -/
structure ActivitySpec where
  shift : String
  actor : Entity
  counterparty : Entity
  device : Entity
  location : Entity

def activitySpecs (c : Cast) : Except GenerationError (List ActivitySpec) := do
  let payer₀ ← item c.payers 0
  let location ← item c.locations 0
  let payer₁ ← item c.payers 1
  let otherDevice ← lastItem c.devices
  let payer₂ ← item c.payers 2
  let merchant ← item c.merchants 0
  let otherLocation ← lastItem c.locations
  let payer₃ ← item c.payers 3
  let otherMerchant ← lastItem c.merchants
  return [
    ⟨"shared_device", payer₀, c.beneficiary, c.device, location⟩,
    ⟨"shared_beneficiary", payer₁, c.beneficiary, otherDevice, location⟩,
    ⟨"travel", payer₂, merchant, otherDevice, otherLocation⟩,
    ⟨"new_merchant", payer₃, otherMerchant, c.device, otherLocation⟩]

def paymentId (g : PopulationGenerator) (bundle : ScenarioBundle) (index : ℕ) : String :=
  "benign:" ++ g.identifier bundle (indexedName "benign" "payment" index)

/-- `Decimal(5 + draw).quantize(Decimal("0.01"))` -/
def drawnAmount (draw : ℕ) : Except GenerationError Decimal :=
  match (⟨(5 + draw : ℕ), 0⟩ : Decimal).quantize .default (-2) with
  | some amount => .ok amount
  | none => .error (.raised .invalidOperation)

/-- one turn of the activity loop, when `call` numbers have been drawn -/
def activity (g : PopulationGenerator) (bundle : ScenarioBundle) (index call : ℕ) (spec : ActivitySpec) :
    Except GenerationError (Activity × List (Request A2AOperation A2ARole)) := do
  let campaignId := g.identifier bundle "benign:campaign"
  let payment := g.paymentId bundle index
  let scheduledAt ← later bundle.simulationStart
    ((10 * (index + 1) + (g.draws bundle).integers call 5 : ℕ) * microsecondsPerMinute)
  let amount ← drawnAmount ((g.draws bundle).integers (call + 1) 16)
  let payer ← accountText "payer_account" spec.actor
  let payee ← accountText "payee_account" spec.counterparty
  let opening ← initiate payment amount payer payee spec.actor.entityId spec.counterparty.entityId campaignId
    (g.identifier bundle (indexedName "benign" "trace" index))
  let accept ← followup .acceptA2A payment campaignId
  let post ← followup .postA2A payment campaignId
  let scheduled ← Activity.create ⟨g.identifier bundle (indexedName "benign" "activity" index), spec.shift, scheduledAt,
    spec.actor.entityId, spec.counterparty.entityId, spec.device.entityId, spec.location.entityId, payment⟩
  return (scheduled, [opening, accept, post])

/-- `generate` -/
def generate (g : PopulationGenerator) (bundle : ScenarioBundle) : Except GenerationError Population := do
  require (9 ≤ bundle.benignEntityCount ∧ 8 ≤ bundle.illicitEntityCount)
    "population requires at least 9 benign and 8 illicit entities"
  -- `SeedSequence` takes no negative entropy
  require (0 ≤ bundle.seed) "expected non-negative integer"
  let entities ← g.entities bundle
  let links ← populationLinks entities
  let c ← cast entities
  let others ← castLinks c
  let accounts ← accounts entities
  let specs ← activitySpecs c
  let activities ← specs.zipIdx.mapM fun (spec, index) =>
    g.activity bundle index (entityDraws bundle + 2 * index) spec
  let horizonEnd ← later bundle.simulationStart (60 * bundle.durationHours * microsecondsPerMinute)
  Population.create {
    scenarioId := bundle.scenarioId
    bundle := bundle
    seed := g.seed
    generatedAt := bundle.simulationStart
    horizonEnd := horizonEnd
    entities := entities
    relationships := links ++ others
    accounts := accounts
    openingBalances := balances entities
    benignControls := ["new_merchant", "shared_beneficiary", "shared_device", "travel"]
    benignActivities := activities.map Prod.fst
    benignCommands := (activities.flatMap Prod.snd).map a2aRail.constructed }

end PopulationGenerator

end Apar
