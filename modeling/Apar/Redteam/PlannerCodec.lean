/-
The planner's parameters as JSON (`redteam/policies.py`, `AdaptiveVector.json_mapping` and
`ParameterBounds.decode_updates`).

A vector is written as an object of bare values: a decimal as its text, a tuple as a list. Reading guesses the type of a
field from the first value of its domain, and the vector that was read is feasible if its fingerprint is that of a feasible
vector.

- `decodeUpdates_eq_ok`: what is read, and when.
- `Accepts`: a feasible vector is read from what is written of it exactly when each domain holds values of one type.
- `codec_exact_iff`: and then nothing else is read, exactly when no text of a domain holds a surrogate pair.
-/
import Apar.Redteam.FeasibleVectors
import Apar.Redteam.VectorDigests
import Apar.Runs.WireRoundTrip

namespace Apar

open Exec Wire

namespace Redteam

variable {F : Type}

/-! ## Writing -/

namespace AdaptiveValue

/-- `_json_value` -/
def jsonValue : AdaptiveValue → JsonTree F
  | .decimal d => .str (decimalText d)
  | .integer n => .int n
  | .string s => .str s
  | .stringTuple items => .list (items.map .str)

end AdaptiveValue

/-- `json_mapping` -/
def AdaptiveVector.jsonMapping (v : AdaptiveVector) : JsonTree F :=
  .dict (v.entries.map fun entry => (entry.name, entry.value.jsonValue))

/-! ## Reading -/

/-- `from_mapping`, of the items of a dict -/
def AdaptiveVector.fromMapping [Sha256] (values : List (PyStr × AdaptiveValue)) : Except PolicyError AdaptiveVector := do
  let entries ← (sortBy Prod.fst values).mapM fun p => AdaptiveParameter.make p.1 p.2
  AdaptiveVector.make entries

namespace ParameterBounds

/-- `domain`, of a name that is not empty -/
def domain (b : ParameterBounds) (name : PyStr) : Except PolicyError ParameterDomain :=
  match b.domains.find? fun domain => domain.name = name with
  | some domain => .ok domain
  | none => .error (.candidate (PyStr.ofString "undeclared adaptive parameter: " ++ name))

/-- a decimal of the domain is written so -/
def writtenDecimal (values : List AdaptiveValue) (text : PyStr) : Bool :=
  values.any fun
    | .decimal d => AdaptiveValue.decimalText d = text
    | _ => false

/-- the value of one field: its type is that of the first value of the domain -/
def decodeValue (name : PyStr) (values : List AdaptiveValue) (raw : JsonTree F) : Except PolicyError AdaptiveValue :=
  let refuse (message : String) : Except PolicyError AdaptiveValue := .error (.candidate (name ++ PyStr.ofString message))
  match values.head?, raw with
  | some (.decimal _), .str text =>
    match DecimalTuple.read (Wire.asciiChars text) with
    | none => refuse " is not a Decimal"
    | some (.finite number) =>
      if writtenDecimal values text then .ok (.decimal number) else refuse " is outside its canonical domain"
    | some .special => refuse " is outside its canonical domain"
  | some (.decimal _), _ => refuse " must be a canonical Decimal string"
  | some (.stringTuple _), .list items =>
    match items.mapM Wire.asText? with
    | some (text :: texts) => .ok (.stringTuple (text :: texts))
    | _ => refuse " must be an exact string array"
  | some (.stringTuple _), _ => refuse " must be an exact string array"
  | some (.integer _), .int n => .ok (.integer n)
  | some (.string _), .str text => .ok (.string text)
  | _, _ => refuse " has the wrong exact type"

/-- `decode_updates`; `repr` is that of a list of texts -/
def decodeUpdates [Sha256] (repr : List PyStr → PyStr) (b : ParameterBounds) (document : JsonTree F) :
    Except PolicyError AdaptiveVector :=
  match document with
  | .dict items => do
    let keys := items.map Prod.fst
    let unknown := sortedSet (keys.filter fun key => key ∉ b.names)
    let missing := sortedSet (b.names.filter fun name => name ∉ keys)
    check (unknown = [] ∧ missing = []) (.candidate (PyStr.ofString "planner params have undeclared parameter=" ++
      repr unknown ++ PyStr.ofString " missing=" ++ repr missing ++ PyStr.ofString " fields"))
    let values ← b.names.mapM fun name => do
      let domain ← b.domain name
      let value ← decodeValue name domain.values ((Assoc.get? name items).getD .null)
      pure (name, value)
    let vector ← AdaptiveVector.fromMapping values
    b.validateVector vector
  | _ => .error (candidateError "planner params must have exact string keys")

end ParameterBounds

/-! ## One field -/

namespace AdaptiveValue

/-- the type of a value -/
def typeName : AdaptiveValue → String
  | .decimal _ => "Decimal"
  | .integer _ => "int"
  | .string _ => "str"
  | .stringTuple _ => "tuple"

end AdaptiveValue

namespace ParameterBounds

theorem mapM_asText_eq {items : List (JsonTree F)} {texts : List PyStr} (h : items.mapM Wire.asText? = some texts) :
    items = texts.map .str := by
  induction items generalizing texts with
  | nil =>
    cases h
    rfl
  | cons item items ih =>
    rw [List.mapM_cons] at h
    cases item with
    | str text =>
      cases hrest : items.mapM Wire.asText? with
      | none => simp [hrest, Wire.asText?] at h
      | some rest =>
        have htexts : text :: rest = texts := by simpa [hrest, Wire.asText?] using h
        rw [← htexts, List.map_cons, ih hrest]
    | null | bool | int | float | list | dict => simp [Wire.asText?] at h

/-- what is read of a field: a value of the type of the domain's first, from the JSON that it is written as -/
theorem decodeValue_ok {name : PyStr} {values : List AdaptiveValue} {raw : JsonTree F} {value : AdaptiveValue}
    (h : decodeValue name values raw = .ok value) : raw = value.jsonValue ∧ value.adaptiveValue = .ok () ∧
      ∃ first ∈ values.head?, first.typeName = value.typeName := by
  unfold decodeValue at h
  cases hhead : values.head? with
  | none => simp [hhead] at h
  | some first =>
    rw [hhead] at h
    cases first with
    | decimal d =>
      cases raw with
      | str text =>
        simp only at h
        cases hread : DecimalTuple.read (Wire.asciiChars text) with
        | none => simp [hread] at h
        | some number =>
          cases number with
          | special => simp [hread] at h
          | finite number =>
            simp only [hread] at h
            split_ifs at h with hwritten
            obtain ⟨e, -, he⟩ := List.any_eq_true.1 hwritten
            cases e with
            | decimal e =>
              simp only [decide_eq_true_eq] at he
              rw [← he, Wire.asciiChars_decimalText, DecimalTuple.read_text] at hread
              cases hread
              cases h
              exact ⟨by rw [AdaptiveValue.jsonValue, he], rfl, _, rfl, rfl⟩
            | integer | string | stringTuple => cases he
      | null | bool | int | float | list | dict => simp at h
    | integer n =>
      cases raw with
      | int m =>
        cases h
        exact ⟨rfl, rfl, _, rfl, rfl⟩
      | null | bool | str | float | list | dict => simp at h
    | string s =>
      cases raw with
      | str text =>
        cases h
        exact ⟨rfl, rfl, _, rfl, rfl⟩
      | null | bool | int | float | list | dict => simp at h
    | stringTuple items =>
      cases raw with
      | list xs =>
        simp only at h
        cases hmap : xs.mapM Wire.asText? with
        | none => simp [hmap] at h
        | some texts =>
          cases texts with
          | nil => simp [hmap] at h
          | cons text texts =>
            simp only [hmap, Except.ok.injEq] at h
            subst h
            exact ⟨by rw [mapM_asText_eq hmap, AdaptiveValue.jsonValue], rfl, _, rfl, rfl⟩
      | null | bool | int | str | float | dict => simp at h

/-- a value is read from what is written of it, if the domain's first value has its type, and a decimal only if the
domain has it -/
theorem decodeValue_jsonValue {name : PyStr} {values : List AdaptiveValue} {value first : AdaptiveValue}
    (hhead : first ∈ values.head?) (htype : first.typeName = value.typeName)
    (hmem : ∀ d, value = .decimal d → value ∈ values) (hadaptive : value.adaptiveValue = .ok ()) :
    decodeValue name values (value.jsonValue : JsonTree F) = .ok value := by
  unfold decodeValue
  rw [Option.mem_def.1 hhead]
  cases value with
  | decimal d =>
    have hwritten : writtenDecimal values (AdaptiveValue.decimalText d) = true :=
      List.any_eq_true.2 ⟨_, hmem d rfl, by simp⟩
    cases first with
    | decimal e => simp [AdaptiveValue.jsonValue, Wire.asciiChars_decimalText, DecimalTuple.read_text, hwritten]
    | integer | string | stringTuple => simp [AdaptiveValue.typeName] at htype
  | integer n =>
    cases first with
    | integer m => rfl
    | decimal | string | stringTuple => simp [AdaptiveValue.typeName] at htype
  | string s =>
    cases first with
    | string t => rfl
    | decimal | integer | stringTuple => simp [AdaptiveValue.typeName] at htype
  | stringTuple items =>
    cases first with
    | stringTuple texts =>
      cases items with
      | nil => cases hadaptive
      | cons text rest => simp only [AdaptiveValue.jsonValue, Wire.mapM_asText]
    | decimal | integer | string => simp [AdaptiveValue.typeName] at htype

end ParameterBounds

/-! ## Whole documents -/

section Documents

variable [Sha256]

/-- the fields of a vector -/
def AdaptiveVector.fields (v : AdaptiveVector) : List (PyStr × AdaptiveValue) := v.entries.map fun e => (e.name, e.value)

omit [Sha256] in
theorem AdaptiveVector.fields_names (v : AdaptiveVector) : v.fields.map Prod.fst = v.names := by
  rw [fields, List.map_map]
  rfl

variable {v : AdaptiveVector}

/-- a built vector is told by its fields -/
theorem AdaptiveVector.Built.ext {w : AdaptiveVector} (hv : v.Built) (hw : w.Built) (h : v.fields = w.fields) :
    v = w := by
  have hpairs := List.forall₂_eq_eq_eq.symm ▸ h
  rw [AdaptiveVector.fields, AdaptiveVector.fields, List.forall₂_map_left_iff, List.forall₂_map_right_iff] at hpairs
  have hentries : v.entries = w.entries := by
    have key : ∀ es fs : List AdaptiveParameter, (∀ e ∈ es, e.Built) → (∀ f ∈ fs, f.Built) →
        List.Forall₂ (fun e f : AdaptiveParameter => (e.name, e.value) = (f.name, f.value)) es fs → es = fs := by
      intro es fs hes hfs hall
      induction hall with
      | nil => rfl
      | @cons e f es fs hef _ ih =>
        have hmake := (AdaptiveParameter.make_eq_ok.1 (hes e (by simp))).2.2
        rw [(Prod.mk.inj hef).1, (Prod.mk.inj hef).2, ← (AdaptiveParameter.make_eq_ok.1 (hfs f (by simp))).2.2] at hmake
        rw [hmake, ih (fun x hx => hes x (by simp [hx])) fun x hx => hfs x (by simp [hx])]
    exact key _ _ hv.entries hw.entries hpairs
  exact Except.ok.inj (hv.make.symm.trans (hentries ▸ hw.make))

/-- the vector of sorted fields -/
theorem fromMapping_eq_ok {values : List (PyStr × AdaptiveValue)}
    (hsorted : values.map Prod.fst = sortedSet (values.map Prod.fst)) :
    AdaptiveVector.fromMapping values = .ok v ↔ v.Built ∧ v.fields = values := by
  have hsort : sortBy Prod.fst values = values := by
    refine sortBy_of_sorted (List.pairwise_map.1 ?_)
    rw [hsorted]
    exact sortedSet_sorted _
  simp only [AdaptiveVector.fromMapping, hsort, except_bind_eq_ok, mapM_eq_ok]
  constructor
  · rintro ⟨entries, hentries, hmake⟩
    have hbuilt : ∀ e ∈ entries, e.Built := by
      intro e he
      obtain ⟨p, -, hp⟩ := forall₂_mem_right hentries he
      exact AdaptiveParameter.built_of_make hp
    refine ⟨AdaptiveVector.built_of_make hbuilt hmake, ?_⟩
    obtain ⟨-, -, rfl⟩ := AdaptiveVector.make_eq_ok.1 hmake
    rw [AdaptiveVector.fields, ← List.forall₂_eq_eq_eq, List.forall₂_map_left_iff]
    refine hentries.flip.imp fun e p hp => ?_
    obtain ⟨-, -, rfl⟩ := AdaptiveParameter.make_eq_ok.1 hp
    rfl
  · rintro ⟨hbuilt, rfl⟩
    refine ⟨v.entries, ?_, hbuilt.make⟩
    rw [AdaptiveVector.fields, List.forall₂_map_left_iff, List.forall₂_same]
    exact hbuilt.entries

namespace ParameterBounds

variable {repr : List PyStr → PyStr} {b : ParameterBounds}

omit [Sha256] in
theorem domain_eq_ok {name : PyStr} {d : ParameterDomain} (hb : b.names = sortedSet b.names) :
    b.domain name = .ok d ↔ d ∈ b.domains ∧ d.name = name := by
  have hnodup : b.names.Nodup := Closed.names_nodup hb
  unfold domain
  cases hfind : b.domains.find? fun domain => domain.name = name with
  | none =>
    have hnone := List.find?_eq_none.1 hfind
    simp only [reduceCtorEq, false_iff]
    exact fun hd => hnone d hd.1 (by simp [hd.2])
  | some found =>
    have hmem := List.mem_of_find?_eq_some hfind
    have hname : found.name = name := by simpa using List.find?_some hfind
    simp only [Except.ok.injEq]
    constructor
    · rintro rfl
      exact ⟨hmem, hname⟩
    · intro hd
      exact List.inj_on_of_nodup_map hnodup hmem hd.1 (hname.trans hd.2.symm)

/-- a field as it stands in a document -/
def ReadsField (b : ParameterBounds) (items : List (PyStr × JsonTree F)) (p : PyStr × AdaptiveValue) : Prop :=
  ∃ d ∈ b.domains, d.name = p.1 ∧ decodeValue p.1 d.values ((Assoc.get? p.1 items).getD .null) = .ok p.2

/-- **What is read**, and when. -/
theorem decodeUpdates_eq_ok (hb : b.names = sortedSet b.names) {items : List (PyStr × JsonTree F)} {v : AdaptiveVector} :
    b.decodeUpdates repr (.dict items) = .ok v ↔ (∀ k, k ∈ items.map Prod.fst ↔ k ∈ b.names) ∧ v.Built ∧
      v.names = b.names ∧ (∀ p ∈ v.fields, b.ReadsField items p) ∧
      v.fingerprint ∈ b.feasibleVectors.map AdaptiveVector.fingerprint := by
  have hempty : ∀ xs : List PyStr, sortedSet xs = [] ↔ xs = [] := by
    intro xs
    rw [List.eq_nil_iff_forall_not_mem, List.eq_nil_iff_forall_not_mem]
    simp only [mem_sortedSet]
  have hkeys : (sortedSet ((items.map Prod.fst).filter fun key => key ∉ b.names) = [] ∧
      sortedSet (b.names.filter fun name => name ∉ items.map Prod.fst) = []) ↔
      ∀ k, k ∈ items.map Prod.fst ↔ k ∈ b.names := by
    simp only [hempty, List.filter_eq_nil_iff, decide_eq_true_eq, not_not]
    exact ⟨fun h k => ⟨h.1 k, h.2 k⟩, fun h => ⟨fun k => (h k).1, fun k => (h k).2⟩⟩
  have hvalues : ∀ values : List (PyStr × AdaptiveValue), (b.names.mapM fun name => do
      let domain ← b.domain name
      let value ← decodeValue name domain.values ((Assoc.get? name items).getD .null)
      pure (name, value)) = .ok values ↔ values.map Prod.fst = b.names ∧ ∀ p ∈ values, b.ReadsField items p := by
    intro values
    rw [mapM_eq_ok]
    have hstep : ∀ name p, (do
        let domain ← b.domain name
        let value ← decodeValue name domain.values ((Assoc.get? name items).getD .null)
        pure (name, value) : Except PolicyError (PyStr × AdaptiveValue)) = .ok p ↔ name = p.1 ∧ b.ReadsField items p := by
      rintro name ⟨name', value⟩
      simp only [except_bind_eq_ok, except_pure_eq_ok, Prod.mk.injEq, domain_eq_ok hb, ReadsField]
      constructor
      · rintro ⟨d, ⟨hd, hname⟩, value', hvalue, rfl, rfl⟩
        exact ⟨rfl, d, hd, hname, hvalue⟩
      · rintro ⟨rfl, d, hd, hname, hvalue⟩
        exact ⟨d, ⟨hd, hname⟩, value, hvalue, rfl, rfl⟩
    simp only [hstep]
    constructor
    · intro h
      refine ⟨?_, fun p hp => ?_⟩
      · rw [← List.forall₂_eq_eq_eq, List.forall₂_map_left_iff]
        exact h.flip.imp fun p name hp => hp.1.symm
      · obtain ⟨_, -, hp⟩ := forall₂_mem_right h hp
        exact hp.2
    · rintro ⟨hnames, hall⟩
      rw [← hnames, List.forall₂_map_left_iff, List.forall₂_same]
      exact fun p hp => ⟨rfl, hall p hp⟩
  simp only [decodeUpdates, except_bind_eq_ok, check_eq_ok, decide_eq_true_eq, exists_const, hkeys, hvalues,
    validateVector, except_pure_eq_ok, List.contains_iff_mem]
  constructor
  · rintro ⟨hsame, values, ⟨hnames, hall⟩, w, hw, rebuilt, hrebuilt, _, hmem, rfl⟩
    obtain ⟨hbuilt, rfl⟩ := (fromMapping_eq_ok (hnames ▸ hb)).1 hw
    obtain ⟨-, rfl⟩ := built_of_reconstructVector hrebuilt
    exact ⟨hsame, hbuilt, (AdaptiveVector.fields_names _).symm.trans hnames, hall, hmem⟩
  · rintro ⟨hsame, hbuilt, hnames, hall, hmem⟩
    have hfields := (AdaptiveVector.fields_names v).trans hnames
    exact ⟨hsame, v.fields, ⟨hfields, hall⟩, v, (fromMapping_eq_ok (hfields ▸ hb)).2 ⟨hbuilt, rfl⟩, v,
      reconstructVector_built hbuilt, hnames, hmem, rfl⟩

end ParameterBounds

/-! ## The laws of the codec -/

omit [Sha256] in
theorem AdaptiveVector.mem_fields_of_lookup {name : PyStr} {value : AdaptiveValue} (h : v.lookup name = some value) :
    (name, value) ∈ v.fields := by
  obtain ⟨e, hfind, rfl⟩ := Option.map_eq_some_iff.1 h
  have hname : e.name = name := by simpa using List.find?_some hfind
  exact List.mem_map.2 ⟨e, List.mem_of_find?_eq_some hfind, by rw [hname]⟩

omit [Sha256] in
theorem AdaptiveVector.lookup_of_mem_fields (hn : v.names.Nodup) {p : PyStr × AdaptiveValue} (hp : p ∈ v.fields) :
    v.lookup p.1 = some p.2 := by
  obtain ⟨value, hvalue⟩ := lookup_of_mem_names (v.fields_names ▸ List.mem_map_of_mem hp)
  have hsame := List.inj_on_of_nodup_map (v.fields_names ▸ hn) hp (mem_fields_of_lookup hvalue) rfl
  rw [hvalue, hsame]

omit [Sha256] in
theorem AdaptiveVector.jsonMapping_eq (v : AdaptiveVector) :
    (v.jsonMapping : JsonTree F) = .dict (v.fields.map fun p => (p.1, p.2.jsonValue)) := by
  rw [jsonMapping, fields, List.map_map]
  rfl

omit [Sha256] in
theorem AdaptiveVector.jsonMapping_keys (v : AdaptiveVector) :
    (v.fields.map fun p => (p.1, (p.2.jsonValue : JsonTree F))).map Prod.fst = v.names := by
  rw [List.map_map]
  exact v.fields_names

omit [Sha256] in
theorem AdaptiveVector.get?_jsonMapping (hn : v.names.Nodup) {p : PyStr × AdaptiveValue} (hp : p ∈ v.fields) :
    Assoc.get? p.1 (v.fields.map fun p => (p.1, (p.2.jsonValue : JsonTree F))) = some p.2.jsonValue :=
  Assoc.get?_of_mem (v.jsonMapping_keys.symm ▸ hn) (List.mem_map.2 ⟨p, hp, rfl⟩)

theorem AdaptiveVector.Built.adaptiveValue {v : AdaptiveVector} (h : v.Built) {p : PyStr × AdaptiveValue}
    (hp : p ∈ v.fields) : p.2.adaptiveValue = .ok () := by
  obtain ⟨e, he, rfl⟩ := List.mem_map.1 hp
  exact (AdaptiveParameter.make_eq_ok.1 (h.entries e he)).2.1

theorem AdaptiveVector.Built.fingerprint {v : AdaptiveVector} (h : v.Built) : v.fingerprint = digest v.document := by
  obtain ⟨-, -, heq⟩ := AdaptiveVector.make_eq_ok.1 h.make
  have hseal : v.integritySeal = digest v.document := congrArg AdaptiveVector.integritySeal heq
  unfold AdaptiveVector.fingerprint
  split_ifs
  · exact hseal
  · rfl

/-- the values of a domain are of one type -/
def ParameterDomain.OneType (d : ParameterDomain) : Prop := ∀ v ∈ d.values, ∀ w ∈ d.values, v.typeName = w.typeName

/-- no text of a domain holds a surrogate pair as two code points -/
def ParameterDomain.PairFree (d : ParameterDomain) : Prop := ∀ v ∈ d.values, ∀ s ∈ v.texts, s.pairFree = true

namespace ParameterBounds

variable {repr : List PyStr → PyStr} {b : ParameterBounds}

/-- every feasible vector is read from what is written of it -/
def RoundTrips (F : Type) (repr : List PyStr → PyStr) (b : ParameterBounds) : Prop :=
  ∀ v ∈ b.feasibleVectors, b.decodeUpdates repr (v.jsonMapping : JsonTree F) = .ok v

/-- what is read of a JSON document is feasible, and written as that document. A document has a key once, and no
surrogate pair, which reading merges. -/
def ReadsOnlyWritten (F : Type) (repr : List PyStr → PyStr) (b : ParameterBounds) : Prop :=
  ∀ document : JsonTree F, document.distinctKeys = true → document.pairFree = true → ∀ v,
    b.decodeUpdates repr document = .ok v → v ∈ b.feasibleVectors ∧ document.Equal v.jsonMapping

theorem Built.head? (hb : b.Built) {d : ParameterDomain} (hd : d ∈ b.domains) : ∃ first, first ∈ d.values.head? := by
  obtain ⟨-, hne, -⟩ := ParameterDomain.make_eq_ok.1 (hb.domains d hd)
  obtain ⟨first, rest, hvalues⟩ := List.exists_cons_of_ne_nil hne
  exact ⟨first, by rw [hvalues]; rfl⟩

/-- **Feasible vectors are read back** exactly when each domain holds values of one type. -/
theorem roundTrips_iff (hb : b.Built) : b.RoundTrips F repr ↔ ∀ d ∈ b.domains, d.OneType := by
  have hclosed := hb.closed
  have hnodup := Closed.names_nodup hclosed.sorted
  constructor
  · intro h d hd
    obtain ⟨first, hfirst⟩ := hb.head? hd
    have hall : ∀ value ∈ d.values, first.typeName = value.typeName := by
      intro value hvalue
      obtain ⟨v, hv, hlookup⟩ := hclosed.advertised d hd value hvalue
      have hread := h v hv
      rw [AdaptiveVector.jsonMapping_eq, decodeUpdates_eq_ok hclosed.sorted] at hread
      obtain ⟨d', hd', hname, hdecode⟩ := hread.2.2.2.1 _ (AdaptiveVector.mem_fields_of_lookup hlookup)
      rw [hclosed.domain_ext hd' hd hname] at hdecode
      obtain ⟨-, -, first', hfirst', htype⟩ := decodeValue_ok hdecode
      rw [Option.mem_unique hfirst hfirst']
      exact htype
    exact fun v hv w hw => (hall v hv).symm.trans (hall w hw)
  · intro h v hv
    have hnames := hclosed.names v hv
    rw [AdaptiveVector.jsonMapping_eq, decodeUpdates_eq_ok hclosed.sorted, AdaptiveVector.jsonMapping_keys, hnames]
    refine ⟨fun _ => Iff.rfl, hb.vectors v hv, rfl, fun p hp => ?_, List.mem_map_of_mem hv⟩
    have hmem : p.1 ∈ b.names := hnames ▸ v.fields_names ▸ List.mem_map_of_mem hp
    obtain ⟨d, hd, hname⟩ := List.mem_map.1 hmem
    obtain ⟨value, hvalue, hlookup⟩ := hclosed.allowed v hv d hd
    have hp' := AdaptiveVector.lookup_of_mem_fields (hnames ▸ hnodup) hp
    rw [hname, hp', Option.some.injEq] at hlookup
    subst hlookup
    obtain ⟨first, hfirst⟩ := hb.head? hd
    refine ⟨d, hd, hname, ?_⟩
    rw [AdaptiveVector.get?_jsonMapping (hnames ▸ hnodup) hp]
    exact decodeValue_jsonValue hfirst (h d hd _ (List.mem_of_mem_head? hfirst) _ hvalue) (fun _ _ => hvalue)
      ((hb.vectors v hv).adaptiveValue hp)

omit [Sha256] in
theorem equal_jsonValue (value : AdaptiveValue) : (value.jsonValue : JsonTree F).Equal value.jsonValue := by
  refine JsonTree.Equal.refl _ ?_
  cases value <;> simp [AdaptiveValue.jsonValue, JsonTree.distinctKeys]

omit [Sha256] in
theorem pairFree_jsonValue {value : AdaptiveValue} :
    (value.jsonValue : JsonTree F).pairFree = true ↔ ∀ s ∈ value.texts, s.pairFree = true := by
  cases value with
  | decimal d => simp [AdaptiveValue.jsonValue, AdaptiveValue.texts, JsonTree.pairFree, AdaptiveValue.decimalText,
      PyStr.pairFree_map_ofChar]
  | integer n => simp [AdaptiveValue.jsonValue, AdaptiveValue.texts, JsonTree.pairFree]
  | string s => simp [AdaptiveValue.jsonValue, AdaptiveValue.texts, JsonTree.pairFree]
  | stringTuple items => simp [AdaptiveValue.jsonValue, AdaptiveValue.texts, JsonTree.pairFree]

variable {v w : AdaptiveVector}

theorem eq_of_fingerprint (hcollision : Function.Injective Sha256.hexdigestBytes) (hv : v.Built) (hw : w.Built)
    (hnames : v.names = w.names) (hvfree : ∀ p ∈ v.fields, ∀ s ∈ p.2.texts, s.pairFree = true)
    (hwfree : ∀ p ∈ w.fields, ∀ s ∈ p.2.texts, s.pairFree = true) (h : v.fingerprint = w.fingerprint) : v = w := by
  rw [hv.fingerprint, hw.fingerprint, digest_eq_iff hcollision] at h
  have hjoined : ∀ u : AdaptiveVector, (∀ p ∈ u.fields, ∀ s ∈ p.2.texts, s.pairFree = true) →
      (u.entries.map joinedEntry).map Prod.snd = u.fields.map Prod.snd := by
    intro u hfree
    rw [AdaptiveVector.fields, List.map_map, List.map_map]
    exact List.map_congr_left fun e he =>
      AdaptiveValue.joined_of_pairFree (hfree _ (List.mem_map.2 ⟨e, he, rfl⟩))
  have hvalues : v.fields.map Prod.snd = w.fields.map Prod.snd := by rw [← hjoined v hvfree, h, hjoined w hwfree]
  refine hv.ext hw ?_
  rw [← List.zip_unzip v.fields, ← List.zip_unzip w.fields, List.unzip_eq_map, List.unzip_eq_map, hvalues,
    v.fields_names, w.fields_names, hnames]

/-- the vector of the merged texts, under the same fingerprint -/
theorem exists_joined (hv : v.Built) : ∃ w : AdaptiveVector, w.Built ∧
    w.fields = v.fields.map (fun p => (p.1, p.2.joined)) ∧ w.names = v.names ∧ w.fingerprint = v.fingerprint := by
  let entry (e : AdaptiveParameter) : AdaptiveParameter :=
    ⟨e.name, e.value.joined, digest (AdaptiveParameter.document ⟨e.name, e.value.joined, []⟩)⟩
  let entries := v.entries.map entry
  let w : AdaptiveVector := ⟨entries, digest (AdaptiveVector.document ⟨entries, []⟩)⟩
  have hbuilt : ∀ e ∈ entries, e.Built := by
    intro e he
    obtain ⟨e', he', rfl⟩ := List.mem_map.1 he
    obtain ⟨hname, hvalue, -⟩ := AdaptiveParameter.make_eq_ok.1 (hv.entries e' he')
    exact AdaptiveParameter.make_eq_ok.2 ⟨hname, (AdaptiveValue.adaptiveValue_joined _).trans hvalue, rfl⟩
  have hnames : entries.map AdaptiveParameter.name = v.names := by
    rw [List.map_map]
    rfl
  have hw : w.Built := by
    refine ⟨hbuilt, AdaptiveVector.make_eq_ok.2 ⟨forM_eq_ok fun e he => (hbuilt e he).pristine, ?_, rfl⟩⟩
    rw [hnames]
    exact (AdaptiveVector.make_eq_ok.1 hv.make).2.1
  refine ⟨w, hw, ?_, hnames, ?_⟩
  · rw [AdaptiveVector.fields, AdaptiveVector.fields, List.map_map, List.map_map]
    rfl
  · have hjoined : w.entries.map joinedEntry = v.entries.map joinedEntry := by
      rw [List.map_map]
      refine List.map_congr_left fun e _ => ?_
      rw [Function.comp_apply, joinedEntry, joinedEntry, AdaptiveValue.joined_joined]
    rw [hw.fingerprint, hv.fingerprint, digest, digest, text_of_joined (F := Empty) (G := Empty) hjoined]

omit [Sha256] in
theorem pairFree_of_reads {items : List (PyStr × JsonTree F)} (hfree : (JsonTree.dict items).pairFree = true)
    {p : PyStr × AdaptiveValue} (hp : b.ReadsField items p) : ∀ s ∈ p.2.texts, s.pairFree = true := by
  obtain ⟨d, -, -, hdecode⟩ := hp
  rw [← pairFree_jsonValue (F := F), ← (decodeValue_ok hdecode).1]
  cases hget : Assoc.get? p.1 items with
  | none => simp [JsonTree.pairFree]
  | some raw =>
    simp only [JsonTree.pairFree, JsonTree.all_dict, Bool.and_eq_true, List.all_eq_true] at hfree
    exact hfree.2 _ (Assoc.mem_of_get? hget)

omit [Sha256] in
theorem equal_of_reads {items : List (PyStr × JsonTree F)} (hkeys : (items.map Prod.fst).Nodup)
    (hnames : ∀ k, k ∈ items.map Prod.fst ↔ k ∈ v.names) (hfields : ∀ p ∈ v.fields, b.ReadsField items p) :
    (JsonTree.dict items).Equal v.jsonMapping := by
  rw [AdaptiveVector.jsonMapping_eq]
  refine .dict (fun k => by rw [hnames, AdaptiveVector.jsonMapping_keys]) fun k x y hx hy => ?_
  obtain ⟨p, hp, hpair⟩ := List.mem_map.1 hy
  obtain ⟨rfl, rfl⟩ := Prod.mk.inj hpair
  obtain ⟨d, -, -, hdecode⟩ := hfields p hp
  have hraw := (decodeValue_ok hdecode).1
  rw [Assoc.get?_of_mem hkeys hx, Option.getD_some] at hraw
  rw [hraw]
  exact equal_jsonValue p.2

omit [Sha256] in
theorem distinctKeys_jsonMapping (hn : v.names.Nodup) : (v.jsonMapping : JsonTree F).distinctKeys = true := by
  rw [AdaptiveVector.jsonMapping_eq]
  simp only [JsonTree.distinctKeys, JsonTree.all_dict, Bool.and_eq_true, decide_eq_true_eq, List.all_eq_true,
    AdaptiveVector.jsonMapping_keys]
  refine ⟨hn, fun i hi => ?_⟩
  obtain ⟨p, -, rfl⟩ := List.mem_map.1 hi
  cases p.2 <;> simp [AdaptiveValue.jsonValue]

omit [Sha256] in
theorem pairFree_jsonMapping (hnames : ∀ name ∈ v.names, name.pairFree = true)
    (hfields : ∀ p ∈ v.fields, ∀ s ∈ p.2.texts, s.pairFree = true) : (v.jsonMapping : JsonTree F).pairFree = true := by
  rw [AdaptiveVector.jsonMapping_eq]
  simp only [JsonTree.pairFree, JsonTree.all_dict, Bool.and_eq_true, List.all_eq_true, List.mem_map,
    forall_exists_index, and_imp, forall_apply_eq_imp_iff₂]
  exact ⟨fun p hp => hnames _ (v.fields_names ▸ List.mem_map_of_mem hp), fun p hp => pairFree_jsonValue.2 (hfields p hp)⟩

/-- the document of the merged texts of a feasible vector is read as their vector, under the fingerprint of the feasible
one -/
theorem decodeUpdates_joined (hb : b.Built) (htype : ∀ d ∈ b.domains, d.OneType) (hv : v ∈ b.feasibleVectors)
    (hw : w.Built) (hfields : w.fields = v.fields.map fun p => (p.1, p.2.joined)) (hwnames : w.names = b.names)
    (hfingerprint : w.fingerprint = v.fingerprint) : b.decodeUpdates repr (w.jsonMapping : JsonTree F) = .ok w := by
  have hclosed := hb.closed
  have hnodup := Closed.names_nodup hclosed.sorted
  have hvnames := hclosed.names v hv
  rw [AdaptiveVector.jsonMapping_eq, decodeUpdates_eq_ok hclosed.sorted, AdaptiveVector.jsonMapping_keys, hwnames]
  refine ⟨fun _ => Iff.rfl, hw, rfl, fun p hp => ?_, hfingerprint ▸ List.mem_map_of_mem hv⟩
  obtain ⟨q, hq, hqp⟩ := List.mem_map.1 (hfields ▸ hp)
  obtain ⟨d, hd, hname⟩ := List.mem_map.1 (hvnames ▸ v.fields_names ▸ List.mem_map_of_mem hq : q.1 ∈ b.names)
  obtain ⟨allowed, hallowed, hlookup⟩ := hclosed.allowed v hv d hd
  rw [hname, AdaptiveVector.lookup_of_mem_fields (hvnames ▸ hnodup) hq, Option.some.injEq] at hlookup
  subst hlookup
  obtain ⟨first, hfirst⟩ := hb.head? hd
  have hpq : p.2 = q.2.joined := congrArg Prod.snd hqp.symm
  have hqname : q.1 = p.1 := by rw [← hqp]
  refine ⟨d, hd, hname.trans hqname, ?_⟩
  rw [AdaptiveVector.get?_jsonMapping (hwnames ▸ hnodup) hp]
  refine decodeValue_jsonValue hfirst ?_ ?_ (hw.adaptiveValue hp)
  · rw [htype d hd _ (List.mem_of_mem_head? hfirst) _ hallowed, hpq]
    cases q.2 <;> rfl
  · intro number hnumber
    have hsame : p.2 = q.2 := by
      rw [hpq] at hnumber ⊢
      cases hq2 : q.2 with
      | decimal | integer => rfl
      | string | stringTuple => simp [hq2, AdaptiveValue.joined] at hnumber
    exact hsame ▸ hallowed

/-- **Nothing else is read** exactly when no text of a domain holds a surrogate pair, where domains hold values of one
type. -/
theorem readsOnlyWritten_iff (hcollision : Function.Injective Sha256.hexdigestBytes) (hb : b.Built)
    (hfree : ∀ name ∈ b.names, name.pairFree = true) (htype : ∀ d ∈ b.domains, d.OneType) :
    b.ReadsOnlyWritten F repr ↔ ∀ d ∈ b.domains, d.PairFree := by
  have hclosed := hb.closed
  have hnodup := Closed.names_nodup hclosed.sorted
  constructor
  · intro h d hd value hvalue
    obtain ⟨v, hv, hlookup⟩ := hclosed.advertised d hd value hvalue
    have hvnames := hclosed.names v hv
    obtain ⟨w, hw, hfields, hnames, hfingerprint⟩ := exists_joined (hb.vectors v hv)
    have hwnames : w.names = b.names := hnames.trans hvnames
    have hread : b.decodeUpdates repr (w.jsonMapping : JsonTree F) = .ok w :=
      decodeUpdates_joined hb htype hv hw hfields hwnames hfingerprint
    have hfreeDocument : (w.jsonMapping : JsonTree F).pairFree = true := by
      refine pairFree_jsonMapping (fun name hname => hfree name (hwnames ▸ hname)) fun p hp => ?_
      obtain ⟨q, -, rfl⟩ := List.mem_map.1 (hfields ▸ hp)
      exact AdaptiveValue.pairFree_joined q.2
    have hdistinct := distinctKeys_jsonMapping (F := F) (hwnames ▸ hnodup : w.names.Nodup)
    have hsame := hclosed.fingerprint_ext (h _ hdistinct hfreeDocument w hread).1 hv hfingerprint
    have hmem := AdaptiveVector.mem_fields_of_lookup hlookup
    rw [hsame] at hfields
    have hjoined : v.lookup d.name = some value.joined :=
      AdaptiveVector.lookup_of_mem_fields (hvnames ▸ hnodup) (p := (d.name, value.joined))
        (hfields.symm ▸ List.mem_map.2 ⟨_, hmem, rfl⟩)
    rw [hlookup, Option.some.injEq] at hjoined
    rw [hjoined]
    exact AdaptiveValue.pairFree_joined value
  · intro h document hdistinct hpairs v hread
    cases document with
    | dict items =>
      obtain ⟨hkeys, hv, hnames, hfields, hmem⟩ := (decodeUpdates_eq_ok hclosed.sorted).1 hread
      obtain ⟨u, hu, hfingerprint⟩ := List.mem_map.1 hmem
      have hunames := hclosed.names u hu
      have hufree : ∀ p ∈ u.fields, ∀ s ∈ p.2.texts, s.pairFree = true := by
        intro p hp
        obtain ⟨d, hd, hname⟩ := List.mem_map.1 (hunames ▸ u.fields_names ▸ List.mem_map_of_mem hp : p.1 ∈ b.names)
        obtain ⟨allowed, hallowed, hplookup⟩ := hclosed.allowed u hu d hd
        rw [hname, AdaptiveVector.lookup_of_mem_fields (hunames ▸ hnodup) hp, Option.some.injEq] at hplookup
        exact hplookup ▸ h d hd allowed hallowed
      have hsame := eq_of_fingerprint hcollision hv (hb.vectors u hu) (hnames.trans hunames.symm)
        (fun p hp => pairFree_of_reads hpairs (hfields p hp)) hufree hfingerprint.symm
      have hnodupItems : (items.map Prod.fst).Nodup := by
        simp only [JsonTree.distinctKeys, JsonTree.all_dict, Bool.and_eq_true, decide_eq_true_eq] at hdistinct
        exact hdistinct.1
      refine ⟨hsame ▸ hu, equal_of_reads hnodupItems (fun k => ?_) hfields⟩
      rw [hkeys, hnames]
    | null | bool | int | float | str | list => cases hread

end ParameterBounds

open ParameterBounds in
/-- **The planner codec is exact** for accepted bounds exactly when each domain holds values of one type, and no text with
a surrogate pair. Digests do not collide, and the names of fields are texts without surrogate pairs. -/
theorem codec_exact_iff (hcollision : Function.Injective Sha256.hexdigestBytes) (repr : List PyStr → PyStr)
    {b : ParameterBounds} (hb : b.Built) (hfree : ∀ name ∈ b.names, name.pairFree = true) :
    (b.RoundTrips F repr ∧ b.ReadsOnlyWritten F repr) ↔ ∀ d ∈ b.domains, d.OneType ∧ d.PairFree := by
  rw [roundTrips_iff hb]
  constructor
  · rintro ⟨htype, hread⟩ d hd
    exact ⟨htype d hd, (readsOnlyWritten_iff hcollision hb hfree htype).1 hread d hd⟩
  · intro h
    have htype : ∀ d ∈ b.domains, d.OneType := fun d hd => (h d hd).1
    exact ⟨htype, (readsOnlyWritten_iff hcollision hb hfree htype).2 fun d hd => (h d hd).2⟩

end Documents

/-! ## An integer beside a text -/

/-- a digest that can be read: the bytes themselves -/
@[reducible] def legible : Sha256 where
  hexdigest _ := ""
  hexdigestBytes bytes := String.ofList (bytes.map fun byte => Char.ofNat byte.toNat)

theorem legible_injective : Function.Injective legible.hexdigestBytes := by
  intro xs ys h
  have hchars : xs.map (fun byte => Char.ofNat byte.toNat) = ys.map fun byte => Char.ofNat byte.toNat := by
    have htext : String.ofList (xs.map fun byte => Char.ofNat byte.toNat) =
        String.ofList (ys.map fun byte => Char.ofNat byte.toNat) := h
    exact String.ofList_injective htext
  refine List.map_injective_iff.2 (fun x y hxy => ?_) hchars
  have hvalid : ∀ x : UInt8, (Char.ofNat x.toNat).toNat = x.toNat := by
    intro x
    have := x.toNat_lt
    rw [Char.ofNat, dif_pos (Or.inl (by omega))]
    rfl
  exact UInt8.toNat_inj.1 (by rw [← hvalid x, ← hvalid y, hxy])

/-- a parameter that is the integer one or the text a -/
def mixedValues : List AdaptiveValue := [.integer 1, .string (PyStr.ofString "a")]

def mixedBounds [Sha256] : ParameterBounds :=
  let d : ParameterDomain := ⟨PyStr.ofString "amount", .categorical, mixedValues, []⟩
  let b : ParameterBounds := ⟨PyStr.ofString "app_scam_mule", sampleVector (.integer 1),
    [{ d with integritySeal := digest d.document }], mixedValues.map sampleVector, []⟩
  { b with integritySeal := digest b.document }

theorem mixed_sorted : let _ := legible
    (mixedValues.map sampleVector).map AdaptiveVector.fingerprint =
      sortedSet ((mixedValues.map sampleVector).map AdaptiveVector.fingerprint) := by
  decide +kernel

theorem mixedValues_ok {value : AdaptiveValue} (h : value ∈ mixedValues) : value.adaptiveValue = .ok () := by
  rcases List.mem_cons.1 h with rfl | h
  · rfl
  · rw [List.mem_singleton.1 h]
    rfl

section

variable [Sha256]

theorem mixedBounds_closed
    (hsorted : (mixedValues.map sampleVector).map AdaptiveVector.fingerprint =
      sortedSet ((mixedValues.map sampleVector).map AdaptiveVector.fingerprint)) :
    mixedBounds.boundsAreClosed = .ok () := by
  have hany : ∀ value ∈ mixedValues, mixedValues.any (AdaptiveValue.sameValue value) = true :=
    fun value hvalue => List.any_eq_true.2 ⟨value, hvalue, by simp [AdaptiveValue.sameValue]⟩
  have hvector : ∀ value ∈ mixedValues, mixedBounds.checkVector (sampleVector value) = .ok () := by
    intro value hvalue
    simp only [ParameterBounds.checkVector, except_bind_eq_ok, check_eq_ok]
    refine ⟨(), decide_eq_true rfl, forM_eq_ok fun d hd => ?_⟩
    rw [List.mem_singleton.1 hd]
    simp only [except_bind_eq_ok, validating_eq_ok, check_eq_ok]
    exact ⟨value, sampleVector_get value, hany value hvalue⟩
  simp only [ParameterBounds.boundsAreClosed, except_bind_eq_ok, check_eq_ok]
  refine ⟨(), decide_eq_true ⟨sortedSet_singleton _, rfl⟩, (), decide_eq_true hsorted, (), forM_eq_ok fun v hv => ?_,
    (), ?_, forM_eq_ok fun d hd => ?_⟩
  · obtain ⟨value, hvalue, rfl⟩ := List.mem_map.1 hv
    exact hvector value hvalue
  · exact List.contains_iff_mem.2 List.mem_cons_self
  · rw [List.mem_singleton.1 hd]
    simp only [except_bind_eq_ok, validating_eq_ok, check_eq_ok]
    refine ⟨mixedValues, ?_, List.all_eq_true.2 hany⟩
    exact mapM_eq_ok.2 (.cons (sampleVector_get _) (.cons (sampleVector_get _) .nil))

theorem mixedBounds_built
    (hsorted : (mixedValues.map sampleVector).map AdaptiveVector.fingerprint =
      sortedSet ((mixedValues.map sampleVector).map AdaptiveVector.fingerprint)) : mixedBounds.Built := by
  have hvector : ∀ v ∈ mixedValues.map sampleVector, v.Built := by
    intro v hv
    obtain ⟨value, hvalue, rfl⟩ := List.mem_map.1 hv
    exact sampleVector_built (mixedValues_ok hvalue)
  have hdefaults : (sampleVector (.integer 1)).Built := hvector _ List.mem_cons_self
  have hdomain : ∀ d ∈ mixedBounds.domains, d.Built := by
    intro d hd
    rw [List.mem_singleton.1 hd]
    exact ParameterDomain.make_eq_ok.2 ⟨amount_ne, List.cons_ne_nil _ _, forM_eq_ok fun v hv => mixedValues_ok hv, rfl, rfl⟩
  refine ⟨hdefaults, hdomain, hvector, ?_⟩
  simp only [ParameterBounds.make, except_bind_eq_ok, validating_eq_ok, except_pure_eq_ok]
  exact ⟨(), rfl, (), rfl, (), hdefaults.pristine, (), forM_eq_ok fun d hd => (hdomain d hd).pristine, (), rfl, (),
    forM_eq_ok fun v hv => (hvector v hv).pristine, (), mixedBounds_closed hsorted, rfl⟩

end

/-- **Mixed domains are not read back**: the planner's answer a is refused as having the wrong type. -/
theorem mixed_not_read_back : let _ := legible
    mixedBounds.Built ∧ ¬ mixedBounds.RoundTrips Empty fun _ => [] := by
  let _ := legible
  have hbuilt : mixedBounds.Built := mixedBounds_built mixed_sorted
  refine ⟨hbuilt, fun h => ?_⟩
  have htype := (ParameterBounds.roundTrips_iff hbuilt).1 h _ List.mem_cons_self (.integer 1) List.mem_cons_self
    (.string (PyStr.ofString "a")) (List.mem_cons_of_mem _ List.mem_cons_self)
  exact absurd htype (by decide)

/-- the codec of a parameter that is one text -/
theorem codec_exact_one_text : let _ := legible
    (sampleBounds (.string (PyStr.ofString "a"))).RoundTrips Empty (fun _ => []) ∧
      (sampleBounds (.string (PyStr.ofString "a"))).ReadsOnlyWritten Empty fun _ => [] := by
  let _ := legible
  refine (codec_exact_iff legible_injective _ (sampleBounds_built rfl) ?_).2 ?_
  · intro name hname
    rw [List.mem_singleton.1 hname]
    rfl
  · intro d hd
    rw [List.mem_singleton.1 hd]
    refine ⟨?_, ?_⟩
    · intro v hv w hw
      rw [List.mem_singleton.1 hv, List.mem_singleton.1 hw]
    · intro v hv t ht
      rw [List.mem_singleton.1 hv] at ht
      rw [List.mem_singleton.1 ht]
      rfl

end Redteam

end Apar
