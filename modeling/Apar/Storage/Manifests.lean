/-
The manifest of a stored artifact (`storage/artifacts.py`): references, their canonical JSON, and the checks that read a
manifest back.

A manifest is `json.dumps(asdict(ref), ensure_ascii=False, separators=(",", ":"), sort_keys=True)` in UTF-8. Strings are
Lean strings: a media type with a lone surrogate, which UTF-8 does not encode, is left out.

- `verifyArtifact_manifest`: the manifest of a payload's reference is read back as that reference.
- `manifestBytes_inj`: a manifest determines its reference.
-/
import Apar.Core.Dict
import Apar.Core.JsonRoundTrip

namespace Apar

open Exec

namespace Artifacts

/-- what the store raises -/
inductive StoreError where
  /-- `ValueError(message)` -/
  | value (message : String)
  /-- `RuntimeError(message)` -/
  | runtime (message : String)
  /-- an `OSError` of a system call -/
  | os
  /-- `UnicodeEncodeError` -/
  | encode
deriving DecidableEq, Repr

structure ArtifactRef where
  sha256 : String
  mediaType : String
  sizeBytes : ℤ
  relativePath : String
deriving DecidableEq, Repr

/-- `_relative_payload_path` -/
def relativePayloadPath (digest : String) : String := digest ++ "/payload"

/-! ## The text of a manifest -/

/-- one character of a JSON string, `ensure_ascii=False` -/
def escapeChar (c : Char) : List Char :=
  let n := c.toNat
  if c = '"' then ['\\', '"']
  else if c = '\\' then ['\\', '\\']
  else if n = 10 then ['\\', 'n']
  else if n = 13 then ['\\', 'r']
  else if n = 9 then ['\\', 't']
  else if n = 12 then ['\\', 'f']
  else if n = 8 then ['\\', 'b']
  else if n < 32 then '\\' :: 'u' :: Json.hex4 n
  else [c]

def quote (s : String) : List Char := '"' :: s.toList.flatMap escapeChar ++ ['"']

/-- the text of `_canonical_json(asdict(ref))` -/
def manifestText (ref : ArtifactRef) : List Char :=
  '{' :: (quote "media_type" ++ ':' :: (quote ref.mediaType ++ ',' ::
    (quote "relative_path" ++ ':' :: (quote ref.relativePath ++ ',' ::
      (quote "sha256" ++ ':' :: (quote ref.sha256 ++ ',' ::
        (quote "size_bytes" ++ ':' :: (Decimal.intText ref.sizeBytes ++ ['}']))))))))

/-- `_manifest_bytes` -/
def manifestBytes (ref : ArtifactRef) : List UInt8 := (String.ofList (manifestText ref)).toByteArray.data.toList

/-! ## Reading a manifest -/

/-- a number with a fraction, or `NaN`: no field of a manifest is one -/
structure OtherNumber where

instance : FloatRead OtherNumber where
  isFinite _ := true
  repr _ := []
  parse _ := ⟨⟩

/-- `json.loads`: a key's last value counts -/
def jsonHooks : JsonHooks OtherNumber Unit where
  pairs := fun items => .ok (items.foldl (fun dict item => Assoc.set item.1 item.2 dict) [])
  constant := fun _ => .ok (.float ⟨⟩)
  digitLimit := none
  tooManyDigits := ()
  malformed := ()

/-- a string without lone surrogates -/
def toString? (s : PyStr) : Option String :=
  (s.mapM fun c : CodePoint => if PyStr.isHigh c || PyStr.isLow c then none else some (Char.ofNat c.val)).map String.ofList

/-- `_validate_digest` -/
def validateDigest (digest : String) : Except StoreError Unit :=
  check (isDigestText digest) (.value "artifact reference has invalid digest")

/-- `_validate_media_type` -/
def validateMediaType (mediaType : String) : Except StoreError Unit :=
  check (mediaType ≠ "") (.value "artifact media type must be a non-empty string")

/-- `_validate_ref_shape` -/
def validateRefShape (ref : ArtifactRef) : Except StoreError Unit := do
  validateDigest ref.sha256
  validateMediaType ref.mediaType
  check (0 ≤ ref.sizeBytes) (.value "artifact reference has invalid size")
  check (ref.relativePath = relativePayloadPath ref.sha256) (.value "artifact reference has invalid relative path")

/-- the value of a key of a JSON object -/
def field (manifest : List (PyStr × JsonTree OtherNumber)) (name : String) : Option (JsonTree OtherNumber) :=
  Assoc.get? (PyStr.ofString name) manifest

def expectedKeys : List PyStr := ["media_type", "relative_path", "sha256", "size_bytes"].map PyStr.ofString

/-- the reference that the fields of a manifest give -/
def refOfFields (digest : String) (mediaType relativePath sha256 : PyStr) (size : ℤ) : Except StoreError ArtifactRef :=
  match toString? sha256, toString? relativePath, toString? mediaType with
  | some sha256, some relativePath, some mediaType => .ok ⟨sha256, mediaType, size, relativePath⟩
  | some _, some _, none => .error .encode
  | _, _, _ => .error (.value ("artifact manifest has invalid reference: " ++ digest))

/-- `_ref_from_manifest` -/
def refFromManifest (manifest : List (PyStr × JsonTree OtherNumber)) (digest : String) (payloadSize : ℕ) :
    Except StoreError ArtifactRef := do
  check ((manifest.map Prod.fst).toFinset = expectedKeys.toFinset)
    (.value ("artifact manifest has invalid fields: " ++ digest))
  let ref ← match field manifest "media_type", field manifest "relative_path", field manifest "sha256",
      field manifest "size_bytes" with
    | some (.str mediaType), some (.str relativePath), some (.str sha256), some (.int size) =>
      refOfFields digest mediaType relativePath sha256 size
    | _, _, _, _ => .error (.value ("artifact manifest has invalid field types: " ++ digest))
  (validateRefShape ref).mapError fun _ => .value ("artifact manifest has invalid reference: " ++ digest)
  check (ref.sha256 = digest && ref.sizeBytes = payloadSize)
    (.value ("artifact manifest does not match payload: " ++ digest))
  pure ref

/-- `json.loads(manifest_bytes.decode("utf-8"))` -/
def loadManifest (bytes : List UInt8) : Option (JsonTree OtherNumber) := do
  let text ← (ByteArray.mk bytes.toArray).utf8Decode?
  (JsonText.loads jsonHooks text.toList).toOption

section Checks

variable [Sha256]

/-- what `_load_verified` makes of the two files it has read -/
def verifyArtifact (digest : String) (payload manifest : List UInt8) : Except StoreError ArtifactRef := do
  check (Sha256.hexdigestBytes payload = digest) (.value ("artifact payload digest mismatch: " ++ digest))
  let loaded ← match loadManifest manifest with
    | none => .error (.value ("artifact manifest is unreadable: " ++ digest))
    | some loaded => .ok loaded
  let items ← match loaded with
    | .dict items => .ok items
    | _ => .error (.value ("artifact manifest must be an object: " ++ digest))
  let ref ← refFromManifest items digest payload.length
  check (manifest = manifestBytes ref) (.value ("artifact manifest is not canonical: " ++ digest))
  pure ref

/-- the reference `put_bytes` makes -/
def artifactRef (payload : List UInt8) (mediaType : String) : ArtifactRef :=
  ⟨Sha256.hexdigestBytes payload, mediaType, payload.length, relativePayloadPath (Sha256.hexdigestBytes payload)⟩

end Checks

/-! ## Strings are read back -/

open JsonText PyStr

theorem toNat_ofChar (c : Char) : (ofChar c).val = c.toNat := by
  have hlt : c.toNat < 0x110000 := by
    have := c.valid
    simp only [UInt32.isValidChar, Nat.isValidChar] at this
    simp only [Char.toNat]
    omega
  exact Nat.mod_eq_of_lt hlt

theorem ofChar_not_surrogate (c : Char) : isHigh (ofChar c) = false ∧ isLow (ofChar c) = false := by
  have hvalid := c.valid
  simp only [UInt32.isValidChar, Nat.isValidChar] at hvalid
  simp only [isHigh, isLow, toNat_ofChar, Char.toNat]
  constructor
  all_goals
    rw [Bool.and_eq_false_iff, decide_eq_false_iff_not, decide_eq_false_iff_not]
    omega

theorem joinPairs_ofString (cs : List Char) : joinPairs (cs.map ofChar) = cs.map ofChar := by
  induction cs with
  | nil => rfl
  | cons c cs ih =>
    rw [List.map_cons, joinPairs_cons, ih]
    intro d _ hd
    rw [(ofChar_not_surrogate c).1] at hd
    exact absurd hd.1 (by decide)

theorem toString?_ofString (s : String) : toString? (PyStr.ofString s) = some s := by
  have hchars : ∀ cs : List Char, (cs.map ofChar).mapM
      (fun c : CodePoint => if isHigh c || isLow c then none else some (Char.ofNat c.val)) = some cs := by
    intro cs
    induction cs with
    | nil => rfl
    | cons c cs ih =>
      rw [List.map_cons, List.mapM_cons, ih, (ofChar_not_surrogate c).1, (ofChar_not_surrogate c).2, toNat_ofChar,
        Char.ofNat_toNat]
      rfl
  rw [toString?, PyStr.ofString, hchars]
  simp

theorem scanUnits_escapeChar (c : Char) (cs : List Char) :
    scanUnits (escapeChar c ++ cs) = (scanUnits cs).map fun p => (ofChar c :: p.1, p.2) := by
  have hshort : ∀ (e : Char) (n : ℕ), c.toNat = n → simpleEscape e = some (Fin.ofNat 0x110000 n) →
      scanUnits ('\\' :: e :: cs) = (scanUnits cs).map fun p => (ofChar c :: p.1, p.2) := by
    intro e n hn he
    rw [scanUnits_simple he, ofChar, hn]
  unfold escapeChar
  dsimp only
  split_ifs with h1 h2 h3 h4 h5 h6 h7 h8
  · exact hshort '"' 34 (by rw [h1]; rfl) rfl
  · exact hshort '\\' 92 (by rw [h2]; rfl) rfl
  · exact hshort 'n' 10 h3 rfl
  · exact hshort 'r' 13 h4 rfl
  · exact hshort 't' 9 h5 rfl
  · exact hshort 'f' 12 h6 rfl
  · exact hshort 'b' 8 h7 rfl
  · rw [scanUnits_hex4 (by omega)]
    rfl
  · exact scanUnits_plain h1 h2 h8

theorem scanUnits_quote (s : List Char) (rest : List Char) :
    scanUnits (s.flatMap escapeChar ++ '"' :: rest) = some (s.map ofChar, rest) := by
  induction s with
  | nil => simpa using scanUnits_escape [] rest
  | cons c s ih => rw [List.flatMap_cons, List.append_assoc, scanUnits_escapeChar, ih]; rfl

theorem scanString_quote (s : String) (rest : List Char) :
    ∃ cs, quote s ++ rest = '"' :: cs ∧ scanString cs = some (PyStr.ofString s, rest) := by
  refine ⟨s.toList.flatMap escapeChar ++ '"' :: rest, by simp [quote], ?_⟩
  rw [scanString, scanUnits_quote, Option.map_some]
  exact congrArg (fun u => some (u, rest)) (joinPairs_ofString _)

/-! ## Manifests are read back -/

theorem skipSpace_quote (s : String) (rest : List Char) : skipSpace (quote s ++ rest) = quote s ++ rest :=
  skipSpace_cons (by decide)

theorem scanValue_quote {F ε : Type} [FloatRead F] (h : JsonHooks F ε) (s : String) (rest : List Char) (fuel : ℕ) :
    scanValue h (fuel + 1) (quote s ++ rest) = .ok (.str (PyStr.ofString s), rest) := by
  rcases scanString_quote s rest with ⟨cs, hquote, hscan⟩
  rw [hquote, scanValue, if_pos rfl, hscan]

theorem scanItems_quote {F ε : Type} [FloatRead F] {h : JsonHooks F ε} (k s : String) (rest : List Char) (fuel : ℕ)
    (done : List (PyStr × JsonTree F)) :
    scanItems h (fuel + 2) done (quote k ++ ':' :: (quote s ++ ',' :: rest)) =
      scanItems h (fuel + 1) (done ++ [(PyStr.ofString k, .str (PyStr.ofString s))]) (skipSpace rest) := by
  rcases scanString_quote k (':' :: (quote s ++ ',' :: rest)) with ⟨cs, hquote, hscan⟩
  rw [hquote]
  refine scanItems_next hscan ?_
  rw [skipSpace_quote]
  exact scanValue_quote h s _ fuel

/-- the fields of a reference -/
def manifestItems (ref : ArtifactRef) : List (PyStr × JsonTree OtherNumber) :=
  [(PyStr.ofString "media_type", .str (PyStr.ofString ref.mediaType)),
    (PyStr.ofString "relative_path", .str (PyStr.ofString ref.relativePath)),
    (PyStr.ofString "sha256", .str (PyStr.ofString ref.sha256)), (PyStr.ofString "size_bytes", .int ref.sizeBytes)]

theorem jsonHooks_pairs {items : List (PyStr × JsonTree OtherNumber)} (h : (items.map Prod.fst).Nodup) :
    jsonHooks.pairs items = .ok items := by
  have key : ∀ (l done : List (PyStr × JsonTree OtherNumber)), ((done ++ l).map Prod.fst).Nodup →
      l.foldl (fun dict item => Assoc.set item.1 item.2 dict) done = done ++ l := by
    intro l
    induction l with
    | nil => intro done _; exact (List.append_nil done).symm
    | cons p l ih =>
      intro done hn
      have hp : p.1 ∉ done.map Prod.fst := by
        rw [List.map_append, List.map_cons, List.nodup_append] at hn
        exact fun hmem => hn.2.2 _ hmem _ List.mem_cons_self rfl
      rw [List.foldl_cons, Assoc.set_of_not_mem hp, ih _ (by simpa using hn), List.append_assoc, List.singleton_append]
  exact congrArg Except.ok (key items [] h)

theorem manifestItems_nodup (ref : ArtifactRef) : ((manifestItems ref).map Prod.fst).Nodup := by
  have : (manifestItems ref).map Prod.fst = expectedKeys := rfl
  rw [this]
  decide +kernel

/-- the last item -/
theorem scanItems_size {ref : ArtifactRef} {fuel : ℕ} (done : List (PyStr × JsonTree OtherNumber))
    (hdone : done ++ [(PyStr.ofString "size_bytes", .int ref.sizeBytes)] = manifestItems ref)
    (hfuel : (Decimal.intText ref.sizeBytes).length ≤ fuel) :
    scanItems jsonHooks (fuel + 1) done (quote "size_bytes" ++ ':' :: (Decimal.intText ref.sizeBytes ++ ['}'])) =
      .ok (.dict (manifestItems ref), []) := by
  rcases scanString_quote "size_bytes" (':' :: (Decimal.intText ref.sizeBytes ++ ['}'])) with ⟨cs, hquote, hscan⟩
  have hreadable : (JsonTree.int ref.sizeBytes : JsonTree OtherNumber).Readable jsonHooks.digitLimit :=
    ⟨rfl, rfl, rfl, rfl⟩
  have hdump : (JsonTree.int ref.sizeBytes : JsonTree OtherNumber).dump = Decimal.intText ref.sizeBytes := by
    rw [JsonTree.dump]
  rw [← JsonTree.dumpWith_quote] at hdump
  have hread := scanValue_dump (fun _ hn => jsonHooks_pairs hn) spelling_quote floatSpelling_none _ hreadable ['}'] fuel (ends_cons (by decide))
    (hdump ▸ hfuel)
  have hspace := skipSpace_dump spelling_quote (floatSpelling_none (h := jsonHooks)) (t := .int ref.sizeBytes) rfl ['}']
  rw [hdump] at hread hspace
  rw [hquote]
  refine scanItems_last hscan (hspace.symm ▸ hread) ?_
  rw [hdone]
  exact jsonHooks_pairs (manifestItems_nodup ref)

theorem loads_manifestText (ref : ArtifactRef) : loads jsonHooks (manifestText ref) = .ok (.dict (manifestItems ref)) := by
  have hscan : scanValue jsonHooks (2 * (manifestText ref).length + 1) (skipSpace (manifestText ref)) =
      .ok (.dict (manifestItems ref), []) := by
    obtain ⟨fuel, hfuel⟩ : ∃ fuel, 2 * (manifestText ref).length = fuel + 5 ∧
        (Decimal.intText ref.sizeBytes).length ≤ fuel + 1 := by
      refine ⟨2 * (manifestText ref).length - 5, ?_⟩
      simp only [manifestText, List.length_cons, List.length_append, List.length_nil]
      omega
    rw [hfuel.1, manifestText, skipSpace_cons (by decide)]
    have hopen : ∀ rest : List Char, skipSpace (quote "media_type" ++ rest) =
        '"' :: ("media_type".toList.flatMap escapeChar ++ ['"'] ++ rest) := fun rest => by
      rw [skipSpace_quote]
      rfl
    rw [scanValue_dict (hopen _) (by decide)]
    show scanItems jsonHooks (fuel + 5) [] (quote "media_type" ++ ':' :: _) = _
    rw [scanItems_quote, skipSpace_quote, scanItems_quote, skipSpace_quote, scanItems_quote, skipSpace_quote]
    exact scanItems_size _ rfl hfuel.2
  rw [loads, if_neg, hscan]
  · rfl
  · show ¬ some '{' = some (Char.ofNat 0xFEFF)
    decide

theorem loadManifest_manifestBytes (ref : ArtifactRef) :
    loadManifest (manifestBytes ref) = some (.dict (manifestItems ref)) := by
  have hbytes : ByteArray.mk (manifestBytes ref).toArray = (String.ofList (manifestText ref)).toByteArray := by
    rw [manifestBytes, Array.toArray_toList]
  rw [loadManifest, hbytes, String.toByteArray_ofList, List.utf8Decode?_utf8Encode]
  show (loads jsonHooks (manifestText ref).toArray.toList).toOption = _
  rw [List.toList_toArray, loads_manifestText]
  rfl

theorem refFromManifest_manifestItems {ref : ArtifactRef} (h : validateRefShape ref = .ok ()) {digest : String} {size : ℕ}
    (hdigest : ref.sha256 = digest) (hsize : ref.sizeBytes = size) :
    refFromManifest (manifestItems ref) digest size = .ok ref := by
  have hfields : field (manifestItems ref) "media_type" = some (.str (PyStr.ofString ref.mediaType)) ∧
      field (manifestItems ref) "relative_path" = some (.str (PyStr.ofString ref.relativePath)) ∧
      field (manifestItems ref) "sha256" = some (.str (PyStr.ofString ref.sha256)) ∧
      field (manifestItems ref) "size_bytes" = some (.int ref.sizeBytes) := ⟨rfl, rfl, rfl, rfl⟩
  have hkeys : ((manifestItems ref).map Prod.fst).toFinset = expectedKeys.toFinset := rfl
  have hfit : (ref.sha256 = digest && ref.sizeBytes = size) = true := by
    rw [Bool.and_eq_true]
    exact ⟨decide_eq_true hdigest, decide_eq_true hsize⟩
  simp only [refFromManifest, hfields, refOfFields, toString?_ofString, hkeys, check, decide_true, if_true]
  show ((validateRefShape ref).mapError _ >>= _) = _
  rw [h]
  show (if (decide (ref.sha256 = digest) && decide (ref.sizeBytes = size)) = true then Except.ok () else _) >>= _ = _
  rw [if_pos hfit]
  rfl

theorem manifestBytes_inj {ref ref' : ArtifactRef} (h : manifestBytes ref = manifestBytes ref') : ref = ref' := by
  have hitems := loadManifest_manifestBytes ref
  rw [h, loadManifest_manifestBytes, Option.some.injEq, JsonTree.dict.injEq] at hitems
  have hstr : ∀ {s s' : String}, PyStr.ofString s' = PyStr.ofString s → s = s' := by
    intro s s' hs
    have := congrArg toString? hs
    rw [toString?_ofString, toString?_ofString] at this
    exact (Option.some.inj this).symm
  simp only [manifestItems, List.cons.injEq, Prod.mk.injEq, JsonTree.str.injEq, JsonTree.int.injEq, true_and, and_true]
    at hitems
  obtain ⟨hmedia, hpath, hsha, hsize⟩ := hitems
  cases ref
  cases ref'
  exact (ArtifactRef.mk.injEq ..).symm ▸ ⟨hstr hsha, hstr hmedia, hsize.symm, hstr hpath⟩

variable [Sha256]

theorem artifactRef_shape {payload : List UInt8} {mediaType : String} (hm : mediaType ≠ "")
    (hd : isDigestText (Sha256.hexdigestBytes payload) = true) :
    validateRefShape (artifactRef payload mediaType) = .ok () := by
  simp [validateRefShape, validateDigest, validateMediaType, artifactRef, check, hm, hd, bind, Except.bind]

/-- **A stored artifact is verified.** -/
theorem verifyArtifact_manifest {payload : List UInt8} {mediaType : String} (hm : mediaType ≠ "")
    (hd : isDigestText (Sha256.hexdigestBytes payload) = true) :
    verifyArtifact (Sha256.hexdigestBytes payload) payload (manifestBytes (artifactRef payload mediaType)) =
      .ok (artifactRef payload mediaType) := by
  have href : refFromManifest (manifestItems (artifactRef payload mediaType)) (Sha256.hexdigestBytes payload)
      payload.length = .ok (artifactRef payload mediaType) :=
    refFromManifest_manifestItems (artifactRef_shape hm hd) rfl rfl
  simp only [verifyArtifact, loadManifest_manifestBytes]
  simp [check, bind, Except.bind, href, pure, Except.pure]

end Artifacts

end Apar
