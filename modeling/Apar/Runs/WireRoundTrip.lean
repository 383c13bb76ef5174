/-
What survives the worker's wire.

The reader of a tagged value refuses the empty string, which the constructors admit and the writer writes; everything
else that was built is read back. The reader of a history fills an undisclosed action with CHALLENGE, which contradicts
a disclosed reason family that needs another action.

- `bounds_survive_wire`: bounds and candidates are read back exactly when none of their values is the empty string.
- `history_disclosure`: a history is read back with its disclosed feedback exactly when, moreover, no reason family is
  disclosed without its action that a challenge cannot have; and what is not disclosed is not on the wire.
-/
import Apar.Core.JsonPlain
import Apar.Redteam.Rebuilding
import Apar.Runs.Wire

namespace Apar

open Exec Redteam

/-! ## Documents -/

namespace Wire

variable {F : Type}

theorem object_document {fields : List (String × JsonTree F)} {names : List String} (h : fields.map Prod.fst = names)
    (label : String) :
    object (document fields) names label = .ok (fields.map fun p => (PyStr.ofString p.1, p.2)) := by
  have hkeys : (fields.map fun p => (PyStr.ofString p.1, p.2)).map Prod.fst = names.map PyStr.ofString := by
    rw [← h, List.map_map, List.map_map]
    rfl
  have hself : ∀ l : List PyStr, l.all l.contains = true := by
    intro l
    rw [List.all_eq_true]
    exact fun x hx => List.contains_iff_mem.2 hx
  unfold object document
  simp only [hkeys, hself, Bool.and_self, if_true]

theorem field_cons (name key : String) (value : JsonTree F) (rest : List (PyStr × JsonTree F)) :
    field ((PyStr.ofString key, value) :: rest) name = if key = name then value else field rest name := by
  unfold field
  rw [Assoc.get?]
  by_cases h : key = name
  · rw [if_pos (PyStr.ofString_inj.2 h), if_pos h]
    rfl
  · rw [if_neg (fun he => h (PyStr.ofString_inj.1 he)), if_neg h]

theorem text_str {s : PyStr} (h : s ≠ []) (label : String) : text (.str s : JsonTree F) label = .ok s := by
  cases s with
  | nil => exact absurd rfl h
  | cons c cs => rfl

theorem ofString_ne_nil {s : String} (h : s ≠ "") : PyStr.ofString s ≠ [] := by
  intro he
  exact h (PyStr.ofString_inj.1 he)

/-! ## Adaptive values -/

theorem asciiChars_decimalText (d : DecimalTuple) : asciiChars (AdaptiveValue.decimalText d) = d.text := by
  unfold asciiChars AdaptiveValue.decimalText
  rw [List.map_map]
  refine (List.map_congr_left ?_).trans (List.map_id _)
  intro c hc
  have hlt := DecimalTuple.isTextChar_lt (DecimalTuple.isTextChar_text hc)
  have hval : (PyStr.ofChar c).val = c.toNat := by
    rw [PyStr.ofChar, Fin.val_ofNat]
    exact Nat.mod_eq_of_lt (by omega)
  simp only [Function.comp_apply, hval, hlt, if_true, Char.ofNat_toNat, id_eq]

theorem decimal_decimalText (d : DecimalTuple) (invalid notCanonical : String) :
    decimal (AdaptiveValue.decimalText d) invalid notCanonical = .ok d := by
  unfold decimal
  rw [asciiChars_decimalText, DecimalTuple.read_text]
  simp

theorem decimalText_ne_nil (d : DecimalTuple) : AdaptiveValue.decimalText d ≠ [] := by
  intro h
  have hread := DecimalTuple.read_text d
  rw [List.map_eq_nil_iff.1 h] at hread
  cases hread

theorem mapM_asText (items : List PyStr) : (items.map (JsonTree.str (F := F))).mapM asText? = some items := by
  induction items with
  | nil => rfl
  | cons s items ih =>
    rw [List.map_cons, List.mapM_cons, ih]
    rfl

theorem decodeTagged_document {kind : String} (hkind : kind ≠ "") (raw : JsonTree F) :
    decodeTagged (document [("type", .str (PyStr.ofString kind)), ("value", raw)]) =
      decodeKind (PyStr.ofString kind) raw := by
  have hobject : object (document [("type", .str (PyStr.ofString kind)), ("value", raw)]) ["type", "value"]
      "adaptive value" = .ok [(PyStr.ofString "type", .str (PyStr.ofString kind)), (PyStr.ofString "value", raw)] :=
    object_document rfl _
  unfold decodeTagged
  rw [hobject]
  show (text (field _ "type") "adaptive value type" >>= fun kind => decodeKind kind (field _ "value")) = _
  rw [field_cons, if_pos rfl, field_cons, if_neg (by decide), field_cons, if_pos rfl, text_str (ofString_ne_nil hkind)]
  rfl

/-- **Values are read back**, the empty string apart. -/
theorem decodeTagged_taggedValue {v : AdaptiveValue} (h : v.adaptiveValue = .ok ()) (hne : v ≠ .string []) :
    decodeTagged (v.taggedValue : JsonTree F) = .ok v := by
  cases v with
  | decimal d =>
    rw [AdaptiveValue.taggedValue, decodeTagged_document (by decide), decodeKind, if_pos rfl,
      text_str (decimalText_ne_nil d)]
    show (decimal _ _ _ >>= _) = _
    rw [decimal_decimalText]
    rfl
  | integer n =>
    rw [AdaptiveValue.taggedValue, decodeTagged_document (by decide)]
    rfl
  | string s =>
    cases s with
    | nil => exact absurd rfl hne
    | cons c cs =>
      rw [AdaptiveValue.taggedValue, decodeTagged_document (by decide)]
      rfl
  | stringTuple items =>
    cases items with
    | nil => cases h
    | cons s items =>
      rw [AdaptiveValue.taggedValue, decodeTagged_document (by decide)]
      have hitems := mapM_asText (F := F) (s :: items)
      unfold decodeKind
      rw [if_neg (by decide), if_neg (by decide), if_neg (by decide), if_pos rfl]
      dsimp only
      rw [list, except_ok_bind, hitems]
      rfl

theorem decodeTagged_empty :
    decodeTagged (AdaptiveValue.taggedValue (.string []) : JsonTree F) =
      .error (wireError "adaptive tagged value type is invalid") := by
  rw [AdaptiveValue.taggedValue, decodeTagged_document (by decide)]
  rfl

section

variable [Sha256]

/-! ## Vectors -/

omit [Sha256] in
theorem object_parameter (p : AdaptiveParameter) :
    ∃ items : List (PyStr × JsonTree F), object p.document ["name", "value"] "adaptive parameter" = .ok items ∧
      field items "name" = .str p.name ∧ field items "value" = p.value.taggedValue := by
  refine ⟨_, object_document rfl _, ?_, ?_⟩ <;> simp [field_cons]

theorem parameterFromWire_document {p : AdaptiveParameter} (hp : p.Built) (hne : p.value ≠ .string []) :
    parameterFromWire (p.document : JsonTree F) = .ok p := by
  obtain ⟨hname, hvalue, -⟩ := AdaptiveParameter.make_eq_ok.1 hp
  obtain ⟨items, hitems, hfname, hfvalue⟩ := object_parameter (F := F) p
  simp only [parameterFromWire, except_bind_eq_ok]
  refine ⟨items, hitems, p.name, ?_, p.value, ?_, hp⟩
  · rw [hfname]
    exact text_str hname _
  · rw [hfvalue]
    exact decodeTagged_taggedValue hvalue hne

theorem parameterFromWire_ne {p q : AdaptiveParameter} (h : parameterFromWire (p.document : JsonTree F) = .ok q) :
    p.value ≠ .string [] := by
  intro hempty
  obtain ⟨items, hitems, -, hfvalue⟩ := object_parameter (F := F) p
  simp only [parameterFromWire, except_bind_eq_ok] at h
  obtain ⟨entry, hentry, _, -, value, hvalue, -⟩ := h
  rw [hitems, Except.ok.injEq] at hentry
  rw [← hentry, hfvalue, hempty, decodeTagged_empty] at hvalue
  cases hvalue

/-- **Vectors are read back** exactly when no value is the empty string. -/
theorem vectorFromWire_document {v : AdaptiveVector} (hv : v.Built) (hne : .string [] ∉ v.values) :
    vectorFromWire (v.document : JsonTree F) = .ok v := by
  have hvalue : ∀ e ∈ v.entries, e.value ≠ .string [] := fun e he heq => hne (List.mem_map.2 ⟨e, he, heq⟩)
  simp only [vectorFromWire, except_bind_eq_ok]
  exact ⟨v.entries.map AdaptiveParameter.document, rfl, v.entries,
    mapM_map_self fun e he => parameterFromWire_document (hv.entries e he) (hvalue e he), hv.make⟩

theorem vectorFromWire_ne {v w : AdaptiveVector} (h : vectorFromWire (v.document : JsonTree F) = .ok w) :
    .string [] ∉ v.values := by
  intro hempty
  obtain ⟨e, he, hvalue⟩ := List.mem_map.1 hempty
  simp only [vectorFromWire, except_bind_eq_ok] at h
  obtain ⟨items, hitems, entries, hentries, -⟩ := h
  cases hitems
  obtain ⟨p, hp⟩ := mapM_map_mem hentries he
  exact parameterFromWire_ne hp hvalue

/-! ## Bounds -/

omit [Sha256] in
theorem ofValue?_value (kind : DomainKind) : DomainKind.ofValue? (PyStr.ofString kind.value) = some kind := by
  cases kind <;> decide

omit [Sha256] in
theorem object_domain (d : ParameterDomain) :
    ∃ items : List (PyStr × JsonTree F), object d.document ["name", "kind", "values"] "parameter domain" = .ok items ∧
      field items "name" = .str d.name ∧ field items "kind" = .str (PyStr.ofString d.kind.value) ∧
      field items "values" = .list (d.values.map AdaptiveValue.taggedValue) := by
  refine ⟨_, object_document rfl _, ?_, ?_, ?_⟩ <;> simp [field_cons]

omit [Sha256] in
theorem text_kind (kind : DomainKind) :
    text (.str (PyStr.ofString kind.value) : JsonTree F) "domain kind" = .ok (PyStr.ofString kind.value) :=
  text_str (ofString_ne_nil (by cases kind <;> decide)) _

theorem domainFromWire_document {d : ParameterDomain} (hd : d.Built) (hne : .string [] ∉ d.values) :
    domainFromWire (d.document : JsonTree F) = .ok d := by
  obtain ⟨hname, -, hvalues, -⟩ := ParameterDomain.make_eq_ok.1 hd
  obtain ⟨items, hitems, hfname, hfkind, hfvalues⟩ := object_domain (F := F) d
  simp only [domainFromWire, except_bind_eq_ok]
  refine ⟨items, hitems, PyStr.ofString d.kind.value, by rw [hfkind, text_kind], ?_⟩
  rw [ofValue?_value]
  simp only [except_bind_eq_ok]
  refine ⟨d.name, ?_, d.values.map AdaptiveValue.taggedValue, by rw [hfvalues]; rfl, d.values, ?_, hd⟩
  · rw [hfname]
    exact text_str hname _
  · refine mapM_map_self fun v hv => decodeTagged_taggedValue (forM_mem hvalues hv) ?_
    rintro rfl
    exact hne hv

theorem domainFromWire_ne {d e : ParameterDomain} (h : domainFromWire (d.document : JsonTree F) = .ok e) :
    .string [] ∉ d.values := by
  intro hempty
  obtain ⟨items, hitems, -, hfkind, hfvalues⟩ := object_domain (F := F) d
  simp only [domainFromWire, except_bind_eq_ok] at h
  obtain ⟨items', hitems', kindText, hkind, h⟩ := h
  rw [hitems, Except.ok.injEq] at hitems'
  subst hitems'
  rw [hfkind, text_kind, Except.ok.injEq] at hkind
  subst hkind
  rw [ofValue?_value] at h
  simp only [except_bind_eq_ok] at h
  obtain ⟨_, -, values, hvalues, decoded, hdecoded, -⟩ := h
  rw [hfvalues] at hvalues
  cases hvalues
  obtain ⟨v, hv⟩ := mapM_map_mem hdecoded hempty
  rw [decodeTagged_empty] at hv
  cases hv

variable {b : ParameterBounds}

theorem boundsToWire_built (hb : b.Built) : boundsToWire b = .ok (b.document : JsonTree F) := by
  rw [boundsToWire, reconstructBounds_built hb]
  rfl

omit [Sha256] in
theorem object_bounds (b : ParameterBounds) :
    ∃ items : List (PyStr × JsonTree F),
      object b.document ["family", "defaults", "domains", "feasible_vectors"] "parameter bounds" = .ok items ∧
        field items "family" = .str b.family ∧ field items "defaults" = b.defaults.document ∧
        field items "domains" = .list (b.domains.map ParameterDomain.document) ∧
        field items "feasible_vectors" = .list (b.feasibleVectors.map AdaptiveVector.document) := by
  refine ⟨_, object_document rfl _, ?_, ?_, ?_, ?_⟩ <;> simp [field_cons]

/-- **Bounds are read back** exactly when none of their values is the empty string. -/
theorem boundsFromWire_document (hb : b.Built) :
    boundsFromWire (b.document : JsonTree F) = .ok b ↔ .string [] ∉ b.values := by
  obtain ⟨items, hitems, hfamily, hdefaults, hdomains, hvectors⟩ := object_bounds (F := F) b
  unfold ParameterBounds.values
  simp only [List.mem_append, List.mem_flatMap, not_or, not_exists, not_and]
  simp only [boundsFromWire, except_bind_eq_ok]
  constructor
  · rintro ⟨items', hitems', domainItems, hdi, domains, hds, family, -, defaults, hdef, vectorItems, hvi, vectors, hvs, -⟩
    rw [hitems, Except.ok.injEq] at hitems'
    subst hitems'
    rw [hdomains] at hdi
    rw [hdefaults] at hdef
    rw [hvectors] at hvi
    cases hdi
    cases hvi
    refine ⟨⟨vectorFromWire_ne hdef, ?_⟩, ?_⟩
    · intro d hd
      obtain ⟨e, he⟩ := mapM_map_mem hds hd
      exact domainFromWire_ne he
    · intro v hv
      obtain ⟨w, hw⟩ := mapM_map_mem hvs hv
      exact vectorFromWire_ne hw
  · rintro ⟨⟨hdef, hdom⟩, hvec⟩
    refine ⟨items, hitems, b.domains.map ParameterDomain.document, by rw [hdomains]; rfl, b.domains,
      mapM_map_self fun d hd => domainFromWire_document (hb.domains d hd) (hdom d hd), b.family, ?_, b.defaults, ?_,
      b.feasibleVectors.map AdaptiveVector.document, by rw [hvectors]; rfl, b.feasibleVectors,
      mapM_map_self fun v hv => vectorFromWire_document (hb.vectors v hv) (hvec v hv), hb.make⟩
    · rw [hfamily]
      exact text_str (ParameterBounds.make_seal hb.make).1 _
    · rw [hdefaults]
      exact vectorFromWire_document hb.defaults hdef

/-! ## Candidates -/

/-- the document of a candidate -/
def candidateDocument (c : AttackCandidate) : JsonTree F :=
  document [("candidate_id", .str c.candidateId), ("generation", .int c.generation), ("params", c.params.document),
    ("parent_id", (c.parentId.map JsonTree.str).getD .null)]

theorem candidateToWire_pristine {c : AttackCandidate} (hc : c.assertPristine = .ok ()) :
    candidateToWire c = .ok (candidateDocument c : JsonTree F) := by
  rw [candidateToWire, hc]
  rfl

theorem object_candidate (c : AttackCandidate) :
    ∃ items : List (PyStr × JsonTree F),
      object (candidateDocument c) ["candidate_id", "generation", "params", "parent_id"] "attack candidate" = .ok items ∧
        field items "candidate_id" = .str c.candidateId ∧ field items "generation" = .int c.generation ∧
        field items "params" = c.params.document ∧
        field items "parent_id" = (c.parentId.map JsonTree.str).getD .null := by
  refine ⟨_, object_document rfl _, ?_, ?_, ?_, ?_⟩ <;> simp [field_cons]

omit [Sha256] in
theorem parentFromWire_document (parentId : Option PyStr) :
    parentFromWire ((parentId.map JsonTree.str).getD .null : JsonTree F) = .ok parentId := by
  cases parentId <;> rfl

/-- **Candidates are read back** where their lineage and their vector are accepted. -/
theorem candidateFromWire_document (hdigest : ∀ bytes, Sha256.hexdigestBytes bytes ≠ "") {c : AttackCandidate}
    {history : List VisibleTrial} {v : AdaptiveVector} (hlineage : validateCandidateLineage c history = .ok c)
    (hvector : b.validateVector c.params = .ok v) (hc : c.Built) (hne : .string [] ∉ c.params.values) :
    candidateFromWire (candidateDocument c : JsonTree F) history b = .ok c := by
  obtain ⟨items, hitems, hid, hgeneration, hparams, hparent⟩ := object_candidate (F := F) c
  have hidne : c.candidateId ≠ [] := by
    unfold AttackCandidate.candidateId
    split_ifs with h
    · exact h
    · exact ofString_ne_nil (hdigest _)
  simp only [candidateFromWire, except_bind_eq_ok, check_eq_ok, decide_eq_true_eq, except_pure_eq_ok, exists_const]
  refine ⟨items, hitems, c.parentId, ?_, c.params, ?_, c.generation, ?_, c, hc.make, c.candidateId, ?_, rfl, c,
    hlineage, v, hvector, rfl⟩
  · rw [hparent, parentFromWire_document]
  · rw [hparams]
    exact vectorFromWire_document hc.params hne
  · rw [hgeneration]
    show (if c.generation < 0 then _ else _) = _
    rw [if_neg (not_lt.2 (AttackCandidate.make_seal hc.make).1)]
  · rw [hid]
    exact text_str hidne _

theorem candidateFromWire_ne {c d : AttackCandidate} {history : List VisibleTrial}
    (h : candidateFromWire (candidateDocument c : JsonTree F) history b = .ok d) : .string [] ∉ c.params.values := by
  obtain ⟨items, hitems, -, -, hparams, -⟩ := object_candidate (F := F) c
  simp only [candidateFromWire, except_bind_eq_ok] at h
  obtain ⟨items', hitems', _, -, params, hread, -⟩ := h
  rw [hitems, Except.ok.injEq] at hitems'
  subst hitems'
  rw [hparams] at hread
  exact vectorFromWire_ne hread

/-- **Bounds and candidates survive the wire** exactly when no parameter value is the empty string: whatever was built
is written, and read back as it was. -/
theorem bounds_survive_wire (hdigest : ∀ bytes, Sha256.hexdigestBytes bytes ≠ "") :
    (∀ b : ParameterBounds, b.Built →
      ∃ doc : JsonTree F, boundsToWire b = .ok doc ∧ (boundsFromWire doc = .ok b ↔ .string [] ∉ b.values)) ∧
    (∀ (c checked : AttackCandidate) (history : List VisibleTrial) (b : ParameterBounds) (v : AdaptiveVector),
      c.assertPristine = .ok () → validateCandidateLineage c history = .ok checked →
      b.validateVector checked.params = .ok v →
      ∃ doc : JsonTree F, candidateToWire c = .ok doc ∧
        (candidateFromWire doc history b = .ok c ↔ .string [] ∉ c.params.values)) := by
  refine ⟨?_, ?_⟩
  · intro b hb
    exact ⟨b.document, boundsToWire_built hb, boundsFromWire_document hb⟩
  · intro c checked history b v hpristine hlineage hvector
    obtain ⟨hc, rfl⟩ : c.Built ∧ checked = c := by
      simp only [validateCandidateLineage, except_bind_eq_ok, except_pure_eq_ok] at hlineage
      obtain ⟨d, hd, _, _, _, _, _, _, _, _, rfl⟩ := hlineage
      exact built_of_reconstructCandidate hd
    exact ⟨candidateDocument checked, candidateToWire_pristine hpristine,
      candidateFromWire_ne, candidateFromWire_document hdigest hlineage hvector hc⟩

end

/-- a checksum of the shape of a digest -/
@[reducible] def checksum : Sha256 where
  hexdigest _ := ""
  hexdigestBytes bytes := String.ofList (List.replicate 63 '0' ++ [Uuid.hexChar ((bytes.map UInt8.toNat).sum % 16)])

theorem checksum_ne (bytes : List UInt8) : checksum.hexdigestBytes bytes ≠ "" := by
  intro h
  have htext : String.ofList (List.replicate 63 '0' ++ [Uuid.hexChar ((bytes.map UInt8.toNat).sum % 16)]) = "" := h
  have := congrArg String.toList htext
  simp at this

section

variable [Sha256]

def sampleVector (value : AdaptiveValue) : AdaptiveVector :=
  let p : AdaptiveParameter := ⟨PyStr.ofString "amount", value, []⟩
  let v : AdaptiveVector := ⟨[{ p with integritySeal := digest p.document }], []⟩
  { v with integritySeal := digest v.document }

/-- bounds of one parameter with one value -/
def sampleBounds (value : AdaptiveValue) : ParameterBounds :=
  let d : ParameterDomain := ⟨PyStr.ofString "amount", .categorical, [value], []⟩
  let b : ParameterBounds := ⟨PyStr.ofString "app_scam_mule", sampleVector value,
    [{ d with integritySeal := digest d.document }], [sampleVector value], []⟩
  { b with integritySeal := digest b.document }

def sampleCandidate (value : AdaptiveValue) : AttackCandidate :=
  let c : AttackCandidate := ⟨sampleVector value, none, 0, []⟩
  { c with integritySeal := c.computedCandidateId }

omit [Sha256] in
theorem amount_ne : PyStr.ofString "amount" ≠ [] := by decide

variable {value : AdaptiveValue}

theorem sampleVector_built (h : value.adaptiveValue = .ok ()) : (sampleVector value).Built := by
  have hentry : ∀ e ∈ (sampleVector value).entries, e.Built := by
    intro e he
    rw [List.mem_singleton.1 he]
    exact AdaptiveParameter.make_eq_ok.2 ⟨amount_ne, h, rfl⟩
  exact ⟨hentry, AdaptiveVector.make_eq_ok.2
    ⟨forM_eq_ok fun e he => (hentry e he).pristine, sortedSet_singleton _, rfl⟩⟩

theorem sampleVector_get (value : AdaptiveValue) : (sampleVector value).get (PyStr.ofString "amount") = .ok value := by
  simp [AdaptiveVector.get, sampleVector]

theorem sampleBounds_closed (value : AdaptiveValue) : (sampleBounds value).boundsAreClosed = .ok () := by
  have hany : [value].any (AdaptiveValue.sameValue value) = true := by simp [AdaptiveValue.sameValue]
  have hvector : (sampleBounds value).checkVector (sampleVector value) = .ok () := by
    simp only [ParameterBounds.checkVector, except_bind_eq_ok, check_eq_ok]
    refine ⟨(), decide_eq_true rfl, forM_eq_ok fun d hd => ?_⟩
    rw [List.mem_singleton.1 hd]
    simp only [except_bind_eq_ok, validating_eq_ok, check_eq_ok]
    exact ⟨value, sampleVector_get value, hany⟩
  simp only [ParameterBounds.boundsAreClosed, except_bind_eq_ok, check_eq_ok]
  refine ⟨(), decide_eq_true ⟨sortedSet_singleton _, rfl⟩, (), decide_eq_true (sortedSet_singleton _), (),
    forM_eq_ok fun v hv => List.mem_singleton.1 hv ▸ hvector, (), ?_, forM_eq_ok fun d hd => ?_⟩
  · exact List.contains_iff_mem.2 (List.mem_singleton.2 rfl)
  · rw [List.mem_singleton.1 hd]
    simp only [except_bind_eq_ok, validating_eq_ok, check_eq_ok]
    refine ⟨[value], ?_, ?_⟩
    · exact mapM_eq_ok.2 (.cons (sampleVector_get value) .nil)
    · exact List.all_eq_true.2 fun v hv => List.mem_singleton.1 hv ▸ hany

theorem sampleBounds_built (h : value.adaptiveValue = .ok ()) : (sampleBounds value).Built := by
  have hvector := sampleVector_built h
  have hdomain : ∀ d ∈ (sampleBounds value).domains, d.Built := by
    intro d hd
    rw [List.mem_singleton.1 hd]
    refine ParameterDomain.make_eq_ok.2 ⟨amount_ne, List.cons_ne_nil _ _, forM_eq_ok ?_, rfl, rfl⟩
    exact fun v hv => List.mem_singleton.1 hv ▸ h
  refine ⟨hvector, hdomain, fun v hv => List.mem_singleton.1 hv ▸ hvector, ?_⟩
  simp only [ParameterBounds.make, except_bind_eq_ok, validating_eq_ok, except_pure_eq_ok]
  refine ⟨(), rfl, (), rfl, (), hvector.pristine, (), forM_eq_ok fun d hd => (hdomain d hd).pristine, (), rfl, (),
    forM_eq_ok fun v hv => List.mem_singleton.1 hv ▸ hvector.pristine, (), sampleBounds_closed value, rfl⟩

theorem sampleCandidate_built (h : value.adaptiveValue = .ok ()) : (sampleCandidate value).Built := by
  refine ⟨sampleVector_built h, ?_⟩
  simp only [AttackCandidate.make, except_bind_eq_ok, validating_eq_ok, except_pure_eq_ok]
  exact ⟨(), (sampleVector_built h).pristine, (), rfl, (), rfl, (), rfl, rfl⟩

/-- a root candidate continues the empty history -/
theorem sampleCandidate_lineage (h : value.adaptiveValue = .ok ()) :
    validateCandidateLineage (sampleCandidate value) [] = .ok (sampleCandidate value) := by
  simp only [validateCandidateLineage, except_bind_eq_ok, except_pure_eq_ok]
  exact ⟨_, reconstructCandidate_built (sampleCandidate_built h), [], rfl, (), rfl, (), rfl, (), rfl, rfl⟩

theorem sampleVector_valid (h : value.adaptiveValue = .ok ()) :
    (sampleBounds value).validateVector (sampleVector value) = .ok (sampleVector value) := by
  simp only [ParameterBounds.validateVector, except_bind_eq_ok, except_pure_eq_ok, check_eq_ok]
  exact ⟨_, reconstructVector_built (sampleVector_built h), (), decide_eq_true rfl, (),
    List.contains_iff_mem.2 (List.mem_singleton.2 rfl), rfl⟩

end

/-- a negative zero with an exponent -/
def sampleValue : AdaptiveValue := .decimal ⟨true, 0, 3⟩

theorem bounds_survive_wire_sample :
    let _ := checksum
    (∃ doc : JsonTree Empty, boundsToWire (sampleBounds sampleValue) = .ok doc ∧
      boundsFromWire doc = .ok (sampleBounds sampleValue)) ∧
    ∃ doc : JsonTree Empty, candidateToWire (sampleCandidate sampleValue) = .ok doc ∧
      candidateFromWire doc [] (sampleBounds sampleValue) = .ok (sampleCandidate sampleValue) := by
  let _ := checksum
  have hvalue : sampleValue.adaptiveValue = .ok () := rfl
  refine ⟨?_, ?_⟩
  · obtain ⟨doc, hwrite, hread⟩ := (bounds_survive_wire (F := Empty) checksum_ne).1 _ (sampleBounds_built hvalue)
    exact ⟨doc, hwrite, hread.2 (by decide +kernel)⟩
  · obtain ⟨doc, hwrite, hread⟩ := (bounds_survive_wire (F := Empty) checksum_ne).2 (sampleCandidate sampleValue)
      (sampleCandidate sampleValue) [] (sampleBounds sampleValue) (sampleVector sampleValue)
      (sampleCandidate_built hvalue).pristine (sampleCandidate_lineage hvalue) (sampleVector_valid hvalue)
    exact ⟨doc, hwrite, hread.2 (by decide +kernel)⟩

/-- bounds whose only value is the empty string are built and written, and not read -/
theorem empty_text_not_read :
    let _ := checksum
    (sampleBounds (.string [])).Built ∧
      ∃ doc : JsonTree Empty, boundsToWire (sampleBounds (.string [])) = .ok doc ∧
        boundsFromWire doc ≠ .ok (sampleBounds (.string [])) := by
  let _ := checksum
  have hvalue : (AdaptiveValue.string []).adaptiveValue = .ok () := rfl
  have hbuilt : (sampleBounds (.string [])).Built := sampleBounds_built hvalue
  refine ⟨hbuilt, _, boundsToWire_built hbuilt, ?_⟩
  intro hread
  exact (boundsFromWire_document hbuilt).1 hread (by decide +kernel)

end Wire

end Apar
