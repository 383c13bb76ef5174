/-
The signed encoding of mandates and payment requests (`trust/verifier.py`), over the texts that Python has: sequences of code
points in which a surrogate may stand alone. The constructors take any such text that is not empty.

`canonical_bytes` and `signing_bytes` are the ASCII spelling of rows of texts, and that spelling does not tell a surrogate
pair from the code point that it stands for.

- `canonicalBytes_inj`, `signingBytes_inj`: what equal bytes say of the fields.
- `encoding_injective_iff`: no other mandate, or request, has its bytes exactly when its free texts are plain and its scopes
  have one sorted spelling (`Sole`).
- `nonce_transplanted`: two requests of one encoding.

A datetime is its fields, `fold` apart; SHA-256 is a parameter. Python's limit on the digits of an integer's text makes
`str(version)` an error, and then there are no bytes.
-/
import Apar.Core.JsonDocuments
import Apar.Core.JsonSpellings
import Apar.Trust.Verifier

namespace Apar

namespace SignedEncoding

open Exec PyStr JsonText

/-- what a constructor raises -/
inductive ConstructorError where
  | type (message : PyStr)
  | value (message : PyStr)
deriving DecidableEq

/-! ## Checks -/

/-- `_text` -/
def checkText (label : String) (s : PyStr) : Except ConstructorError Unit :=
  check (s ≠ []) (.value (ofString (label ++ " must not be empty")))

/-- the zeros of the decimal digits (category `Nd` of Unicode 15), each the first of ten -/
def decimalZeros : List ℕ :=
  [0x30, 0x660, 0x6f0, 0x7c0, 0x966, 0x9e6, 0xa66, 0xae6, 0xb66, 0xbe6, 0xc66, 0xce6, 0xd66, 0xde6, 0xe50, 0xed0, 0xf20, 0x1040,
    0x1090, 0x17e0, 0x1810, 0x1946, 0x19d0, 0x1a80, 0x1a90, 0x1b50, 0x1bb0, 0x1c40, 0x1c50, 0xa620, 0xa8d0, 0xa900, 0xa9d0,
    0xa9f0, 0xaa50, 0xabf0, 0xff10, 0x104a0, 0x10d30, 0x11066, 0x110f0, 0x11136, 0x111d0, 0x112f0, 0x11450, 0x114d0, 0x11650,
    0x116c0, 0x11730, 0x118e0, 0x11950, 0x11c50, 0x11d50, 0x11da0, 0x11f50, 0x16a60, 0x16ac0, 0x16b50, 0x1d7ce, 0x1d7d8,
    0x1d7e2, 0x1d7ec, 0x1d7f6, 0x1e140, 0x1e2f0, 0x1e4f0, 0x1e950, 0x1fbf0]

/-- `str.isspace`, beyond ASCII -/
def isWideSpace (n : ℕ) : Bool :=
  n ∈ [0x85, 0xa0, 0x1680, 0x2028, 0x2029, 0x202f, 0x205f, 0x3000] || (0x2000 ≤ n && n ≤ 0x200a)

/-- what `int` makes of a code point: a digit, a space, or nothing that it reads -/
def toAscii (c : CodePoint) : Char :=
  if c.val < 128 then Char.ofNat c.val
  else if isWideSpace c.val then ' '
  else match decimalZeros.find? fun d => d ≤ c.val && c.val ≤ d + 9 with
    | some d => Char.ofNat (48 + (c.val - d))
    | none => '?'

/-- the spaces that `int` strips -/
def isAsciiSpace (c : Char) : Bool := c = ' ' || (9 ≤ c.toNat && c.toNat ≤ 13)

/-- hexadecimal digits with single underscores between them; the flag says that a digit has just been read -/
def hexRun : Bool → List Char → Bool
  | digit, [] => digit
  | digit, c :: cs => if c = '_' then digit && cs ≠ [] && hexRun false cs else (Uuid.hexValue c).isSome && hexRun true cs

/-- `int(text, 16)` raises no error -/
def isHexInt (cs : List Char) : Bool :=
  let cs := ((cs.dropWhile isAsciiSpace).reverse.dropWhile isAsciiSpace).reverse
  let cs := if cs.head? = some '+' ∨ cs.head? = some '-' then cs.drop 1 else cs
  let prefixed := cs.take 2 = ['0', 'x'] ∨ cs.take 2 = ['0', 'X']
  let cs := if prefixed then (if (cs.drop 2).head? = some '_' then cs.drop 3 else cs.drop 2) else cs
  hexRun false cs

/-- `UUID(text)` raises no error; a code point beyond ASCII takes no part in the replacements -/
def isUuid (s : PyStr) : Bool :=
  let cs := Uuid.removeAll "uuid:".toList 0 (Uuid.removeAll "urn:".toList 0 (s.map toAscii))
  let brace : Char → Bool := fun c => c == '{' || c == '}'
  let cs := (((cs.dropWhile brace).reverse.dropWhile brace).reverse).filter (· ≠ '-')
  cs.length = 32 && isHexInt cs

/-- `_uuid_text` -/
def checkUuid (label : String) (s : PyStr) : Except ConstructorError Unit := do
  checkText label s
  check (isUuid s) (.value (ofString (label ++ " must be a UUID string")))

/-- 64 lowercase hexadecimal digits -/
def isDigest (s : PyStr) : Bool := s.length = 64 && s.all fun c => c ∈ hexChars.map ofChar

/-- `_digest` -/
def checkDigest (label : String) (s : PyStr) (allowEmpty : Bool) : Except ConstructorError Unit :=
  check ((allowEmpty && s = []) || isDigest s) (.value (ofString (label ++ " must be a lowercase SHA-256 digest")))

/-- `_money` -/
def checkMoney (ctx : DecimalContext) (label : String) (amount : Decimal) (currency : PyStr) : Except ConstructorError Unit := do
  check (!Decimal.ble amount 0) (.value (ofString (label ++ " must be finite and positive")))
  match currency.toString?.bind currencyExponent? with
  | none => .error (.value (ofString "unsupported currency: " ++ currency))
  | some k =>
    match amount.quantize ctx (-k) with
    | none => .error (.value (ofString (label ++ " cannot be represented in ") ++ currency))
    | some quantized => do
      check (!Decimal.ble quantized 0) (.value (ofString (label ++ " must be finite and positive")))
      check (amount = quantized) (.value (ofString (label ++ " must be canonically quantized for ") ++ currency))

/-- unique and sorted -/
def isScope (xs : List PyStr) : Bool := decide xs.Nodup && xs = xs.insertionSort (· ≤ ·)

/-- `_scope` -/
def checkScope (label : String) (xs : List PyStr) : Except ConstructorError Unit := do
  check (xs ≠ []) (.type (ofString (label ++ " must be a non-empty exact tuple")))
  xs.forM (checkText label)
  check (isScope xs) (.value (ofString (label ++ " must be unique and sorted")))

/-! ## Datetimes -/

def daysInMonth (year month : ℕ) : ℕ :=
  if month = 2 then (if year % 4 = 0 ∧ (year % 100 ≠ 0 ∨ year % 400 = 0) then 29 else 28)
  else if month ∈ [4, 6, 9, 11] then 30
  else 31

/-- an aware UTC `datetime` -/
structure UtcDatetime where
  year : ℕ
  month : ℕ
  day : ℕ
  hour : ℕ
  minute : ℕ
  second : ℕ
  microsecond : ℕ
  date_ok : 1 ≤ year ∧ year ≤ 9999 ∧ 1 ≤ month ∧ month ≤ 12 ∧ 1 ≤ day ∧ day ≤ daysInMonth year month
  time_ok : hour ≤ 23 ∧ minute ≤ 59 ∧ second ≤ 59 ∧ microsecond ≤ 999999
deriving DecidableEq

namespace UtcDatetime

def fields (t : UtcDatetime) : List ℕ := [t.year, t.month, t.day, t.hour, t.minute, t.second, t.microsecond]

/-- `a < b` -/
def before (a b : UtcDatetime) : Bool := decide (a.fields < b.fields)

/-- `_timestamp_text` -/
def text (t : UtcDatetime) : List Char :=
  Calendar.padded 4 t.year ++ '-' :: Calendar.padded 2 t.month ++ '-' :: Calendar.padded 2 t.day ++ 'T' ::
    Calendar.padded 2 t.hour ++ ':' :: Calendar.padded 2 t.minute ++ ':' :: Calendar.padded 2 t.second ++
    (if t.microsecond = 0 then [] else '.' :: Calendar.padded 6 t.microsecond) ++ ['Z']

end UtcDatetime

/-! ## Mandates -/

structure AgentMandate where
  mandateId : PyStr
  version : ℤ
  agentId : PyStr
  userRef : PyStr
  userEntityId : PyStr
  beneficiaryEntityId : PyStr
  consentRef : PyStr
  merchantId : PyStr
  payeeId : PyStr
  cartHash : PyStr
  paymentIntentHash : PyStr
  permittedCategories : List PyStr
  permittedProducts : List PyStr
  credentialId : PyStr
  credentialScope : PyStr
  requiredAuthentication : AuthenticationRequirement
  maxAmount : Decimal
  currency : PyStr
  issuedAt : UtcDatetime
  expiresAt : UtcDatetime
deriving DecidableEq

/-- `_canonical_bytes` -/
def canonicalBytes (domain : String) (values : List (List PyStr)) : List UInt8 :=
  utf8 (rows ([ofString "domain", ofString domain] :: values))

/-- a row of a label and a text -/
def row (label : String) (s : PyStr) : List PyStr := [ofString label, s]

/-- a row of a label and a text of characters -/
def charRow (label : String) (cs : List Char) : List PyStr := row label (cs.map ofChar)

namespace AgentMandate

/-- `__post_init__` -/
def validate (ctx : DecimalContext) (m : AgentMandate) : Except ConstructorError Unit := do
  checkText "mandate_id" m.mandateId
  check (0 < m.version) (.type (ofString "version must be a positive exact integer"))
  checkText "agent_id" m.agentId
  checkText "user_ref" m.userRef
  checkUuid "user_entity_id" m.userEntityId
  checkUuid "beneficiary_entity_id" m.beneficiaryEntityId
  checkText "consent_ref" m.consentRef
  checkText "merchant_id" m.merchantId
  checkText "payee_id" m.payeeId
  checkDigest "cart_hash" m.cartHash false
  checkDigest "payment_intent_hash" m.paymentIntentHash false
  checkScope "permitted_categories" m.permittedCategories
  checkScope "permitted_products" m.permittedProducts
  checkText "credential_id" m.credentialId
  checkText "credential_scope" m.credentialScope
  checkText "currency" m.currency
  checkMoney ctx "max_amount" m.maxAmount m.currency
  check (m.issuedAt.before m.expiresAt) (.value (ofString "mandate expires_at must be after issued_at"))

/-- the rows of a mandate -/
def values (m : AgentMandate) : List (List PyStr) :=
  [row "mandate_id" m.mandateId,
    charRow "version" (Decimal.intText m.version),
    row "agent_id" m.agentId,
    row "user_ref" m.userRef,
    row "user_entity_id" m.userEntityId,
    row "beneficiary_entity_id" m.beneficiaryEntityId,
    row "consent_ref" m.consentRef,
    row "merchant_id" m.merchantId,
    row "payee_id" m.payeeId,
    row "cart_hash" m.cartHash,
    row "payment_intent_hash" m.paymentIntentHash,
    charRow "permitted_categories" (texts [',', ' '] m.permittedCategories),
    charRow "permitted_products" (texts [',', ' '] m.permittedProducts),
    row "credential_id" m.credentialId,
    row "credential_scope" m.credentialScope,
    row "required_authentication" (ofString m.requiredAuthentication.value),
    charRow "max_amount" m.maxAmount.text.toList,
    row "currency" m.currency,
    charRow "issued_at" m.issuedAt.text,
    charRow "expires_at" m.expiresAt.text]

/-- `canonical_bytes` -/
def canonicalBytes (m : AgentMandate) : Option (List UInt8) :=
  if JsonTree.digitsFit JsonTree.maxDigits m.version then some (SignedEncoding.canonicalBytes "apar.agent-mandate.v1" m.values)
  else none

end AgentMandate

/-! ## Requests -/

structure AgentPaymentRequest where
  requestId : PyStr
  paymentId : PyStr
  agentId : PyStr
  keyId : PyStr
  mandate : AgentMandate
  amount : Decimal
  currency : PyStr
  merchantId : PyStr
  payeeId : PyStr
  cartHash : PyStr
  paymentIntentHash : PyStr
  category : PyStr
  productId : PyStr
  credentialId : PyStr
  credentialScope : PyStr
  consentRef : PyStr
  authenticationEvidenceRef : Option PyStr
  nonce : PyStr
  createdAt : UtcDatetime
  expiresAt : UtcDatetime
  priorReceiptHash : PyStr
  campaignId : PyStr
  traceId : PyStr
  actorId : PyStr
  counterpartyId : PyStr
  signature : List UInt8
deriving DecidableEq

namespace AgentPaymentRequest

/-- the evidence reference of a request -/
def checkEvidenceRef (required : AuthenticationRequirement) (reference : Option PyStr) : Except ConstructorError Unit :=
  match required, reference with
  | .none, none => .ok ()
  | .none, some _ => .error (.value (ofString "authentication_evidence_ref must be None when step-up is not required"))
  | .stepUp, none => .error (.type (ofString "authentication_evidence_ref must be an exact string"))
  | .stepUp, some reference => checkText "authentication_evidence_ref" reference

/-- `__post_init__`; the mandate is one that its own constructor took -/
def validate (ctx : DecimalContext) (r : AgentPaymentRequest) : Except ConstructorError Unit := do
  checkText "request_id" r.requestId
  checkText "payment_id" r.paymentId
  checkText "agent_id" r.agentId
  checkText "key_id" r.keyId
  r.mandate.validate ctx
  checkText "currency" r.currency
  checkMoney ctx "amount" r.amount r.currency
  checkText "merchant_id" r.merchantId
  checkText "payee_id" r.payeeId
  checkDigest "cart_hash" r.cartHash false
  checkDigest "payment_intent_hash" r.paymentIntentHash false
  checkText "category" r.category
  checkText "product_id" r.productId
  checkText "credential_id" r.credentialId
  checkText "credential_scope" r.credentialScope
  checkText "consent_ref" r.consentRef
  checkEvidenceRef r.mandate.requiredAuthentication r.authenticationEvidenceRef
  checkText "nonce" r.nonce
  check (r.createdAt.before r.expiresAt) (.value (ofString "request expires_at must be after created_at"))
  checkDigest "prior_receipt_hash" r.priorReceiptHash true
  checkUuid "campaign_id" r.campaignId
  checkUuid "trace_id" r.traceId
  checkUuid "actor_id" r.actorId
  checkUuid "counterparty_id" r.counterpartyId

/-- the rows of a request, with the hash of its mandate -/
def values (r : AgentPaymentRequest) (mandateHash : String) : List (List PyStr) :=
  [row "request_id" r.requestId,
    row "payment_id" r.paymentId,
    row "agent_id" r.agentId,
    row "key_id" r.keyId,
    row "mandate_hash" (ofString mandateHash),
    charRow "amount" r.amount.text.toList,
    row "currency" r.currency,
    row "merchant_id" r.merchantId,
    row "payee_id" r.payeeId,
    row "cart_hash" r.cartHash,
    row "payment_intent_hash" r.paymentIntentHash,
    row "category" r.category,
    row "product_id" r.productId,
    row "credential_id" r.credentialId,
    row "credential_scope" r.credentialScope,
    row "consent_ref" r.consentRef,
    row "authentication_evidence_ref" (r.authenticationEvidenceRef.getD []),
    row "nonce" r.nonce,
    charRow "created_at" r.createdAt.text,
    charRow "expires_at" r.expiresAt.text,
    row "prior_receipt_hash" r.priorReceiptHash,
    row "campaign_id" r.campaignId,
    row "trace_id" r.traceId,
    row "actor_id" r.actorId,
    row "counterparty_id" r.counterpartyId]

/-- `signing_bytes` -/
def signingBytes [Sha256] (r : AgentPaymentRequest) : Option (List UInt8) :=
  r.mandate.canonicalBytes.map fun mandate =>
    canonicalBytes "apar.agent-payment-request.v1" (r.values (Sha256.hexdigestBytes mandate))

end AgentPaymentRequest

/-! ## What the bytes tell -/

variable {label label' : String} {s : PyStr} {xs ys : List PyStr}

theorem row_inj {t : PyStr} (h : (row label s).map utf16 = (row label' t).map utf16) : utf16 s = utf16 t := by
  simp only [row, List.map_cons, List.cons.injEq] at h
  exact h.2.1

theorem charRow_inj {cs ds : List Char} (h : (charRow label cs).map utf16 = (charRow label' ds).map utf16) :
    cs = ds := map_ofChar_inj (row_inj h)

theorem canonicalBytes_inj {domain : String} {xs ys : List (List PyStr)} :
    canonicalBytes domain xs = canonicalBytes domain ys ↔ xs.map (·.map utf16) = ys.map (·.map utf16) := by
  have hrows : canonicalBytes domain xs = canonicalBytes domain ys ↔
      rows ([ofString "domain", ofString domain] :: xs) = rows ([ofString "domain", ofString domain] :: ys) :=
    ⟨fun h => utf8_inj h, fun h => by rw [canonicalBytes, h, canonicalBytes]⟩
  rw [hrows, rows_inj]
  simp only [List.map_cons, List.cons.injEq, true_and]

theorem text_inj {a b : Decimal} (h : a.text.toList = b.text.toList) : a = b := by
  rw [DecimalTuple.text_ofDecimal, DecimalTuple.text_ofDecimal] at h
  have := DecimalTuple.read_text (.ofDecimal a)
  rw [h, DecimalTuple.read_text] at this
  rw [← DecimalTuple.toDecimal_ofDecimal a, ← DecimalTuple.toDecimal_ofDecimal b]
  exact congrArg DecimalTuple.toDecimal (DecimalNumber.finite.inj (Option.some.inj this)).symm

namespace UtcDatetime

theorem day_le (t : UtcDatetime) : t.day ≤ 31 := by
  refine t.date_ok.2.2.2.2.2.trans ?_
  unfold daysInMonth
  split_ifs <;> omega

theorem padded_append_inj {width m n : ℕ} (hwidth : 0 < width) (hm : m < 10 ^ width) (hn : n < 10 ^ width) {us vs : List Char}
    (h : Calendar.padded width m ++ us = Calendar.padded width n ++ vs) : m = n ∧ us = vs := by
  have hlen := (Calendar.length_padded hwidth hm).trans (Calendar.length_padded hwidth hn).symm
  obtain ⟨hpadded, hrest⟩ := List.append_inj h hlen
  exact ⟨Calendar.padded_inj hpadded, hrest⟩

/-- **Timestamps are told by their texts.** -/
theorem text_inj {a b : UtcDatetime} (h : a.text = b.text) : a = b := by
  obtain ⟨-, hyear, -, hmonth, -, -⟩ := a.date_ok
  obtain ⟨-, hyear', -, hmonth', -, -⟩ := b.date_ok
  obtain ⟨hhour, hminute, hsecond, hmicrosecond⟩ := a.time_ok
  obtain ⟨hhour', hminute', hsecond', hmicrosecond'⟩ := b.time_ok
  have hday := a.day_le
  have hday' := b.day_le
  simp only [text, List.append_assoc, List.cons_append] at h
  obtain ⟨h1, h⟩ := padded_append_inj (by norm_num) (by omega) (by omega) h
  obtain ⟨h2, h⟩ := padded_append_inj (by norm_num) (by omega) (by omega) (List.cons.inj h).2
  obtain ⟨h3, h⟩ := padded_append_inj (by norm_num) (by omega) (by omega) (List.cons.inj h).2
  obtain ⟨h4, h⟩ := padded_append_inj (by norm_num) (by omega) (by omega) (List.cons.inj h).2
  obtain ⟨h5, h⟩ := padded_append_inj (by norm_num) (by omega) (by omega) (List.cons.inj h).2
  obtain ⟨h6, h⟩ := padded_append_inj (by norm_num) (by omega) (by omega) (List.cons.inj h).2
  have h7 : a.microsecond = b.microsecond := by
    split_ifs at h with ha hb hb
    · omega
    · simp at h
    · simp at h
    · simp only [List.cons_append, List.cons.injEq, true_and] at h
      exact (padded_append_inj (by norm_num) (by omega) (by omega) h).1
  obtain ⟨y, mo, d, ho, mi, se, us, _, _⟩ := a
  obtain ⟨y', mo', d', ho', mi', se', us', _, _⟩ := b
  simp only at h1 h2 h3 h4 h5 h6 h7
  subst h1 h2 h3 h4 h5 h6 h7
  rfl

end UtcDatetime

namespace AgentMandate

/-- two mandates whose texts have the same units, and which agree in all else -/
structure Alike (m m' : AgentMandate) : Prop where
  mandateId : utf16 m.mandateId = utf16 m'.mandateId
  version : m.version = m'.version
  agentId : utf16 m.agentId = utf16 m'.agentId
  userRef : utf16 m.userRef = utf16 m'.userRef
  userEntityId : utf16 m.userEntityId = utf16 m'.userEntityId
  beneficiaryEntityId : utf16 m.beneficiaryEntityId = utf16 m'.beneficiaryEntityId
  consentRef : utf16 m.consentRef = utf16 m'.consentRef
  merchantId : utf16 m.merchantId = utf16 m'.merchantId
  payeeId : utf16 m.payeeId = utf16 m'.payeeId
  cartHash : utf16 m.cartHash = utf16 m'.cartHash
  paymentIntentHash : utf16 m.paymentIntentHash = utf16 m'.paymentIntentHash
  permittedCategories : m.permittedCategories.map utf16 = m'.permittedCategories.map utf16
  permittedProducts : m.permittedProducts.map utf16 = m'.permittedProducts.map utf16
  credentialId : utf16 m.credentialId = utf16 m'.credentialId
  credentialScope : utf16 m.credentialScope = utf16 m'.credentialScope
  requiredAuthentication : m.requiredAuthentication = m'.requiredAuthentication
  maxAmount : m.maxAmount = m'.maxAmount
  currency : utf16 m.currency = utf16 m'.currency
  issuedAt : m.issuedAt = m'.issuedAt
  expiresAt : m.expiresAt = m'.expiresAt

theorem Alike.refl (m : AgentMandate) : Alike m m := by constructor <;> rfl

theorem value_inj {a b : AuthenticationRequirement} (h : utf16 (ofString a.value) = utf16 (ofString b.value)) : a = b := by
  have := map_ofChar_inj h
  cases a <;> cases b <;> first | rfl | exact absurd this (by decide)

/-- **What the canonical bytes of a mandate tell**: everything but how a surrogate pair is written. -/
theorem values_alike {m m' : AgentMandate} : m.values.map (·.map utf16) = m'.values.map (·.map utf16) ↔ Alike m m' := by
  constructor
  · intro h
    simp only [values, List.map_cons, List.cons.injEq, List.map_nil, and_true] at h
    obtain ⟨h1, h2, h3, h4, h5, h6, h7, h8, h9, h10, h11, h12, h13, h14, h15, h16, h17, h18, h19, h20⟩ := h
    have scope : ∀ {xs ys : List PyStr}, texts [',', ' '] xs = texts [',', ' '] ys → xs.map utf16 = ys.map utf16 :=
      fun h => (texts_append_inj rfl (congrArg (· ++ []) h)).1
    exact ⟨row_inj h1, Decimal.intText_inj (charRow_inj h2), row_inj h3, row_inj h4, row_inj h5, row_inj h6, row_inj h7, row_inj h8,
      row_inj h9, row_inj h10, row_inj h11, scope (charRow_inj h12), scope (charRow_inj h13), row_inj h14, row_inj h15,
      value_inj (row_inj h16), text_inj (charRow_inj h17), row_inj h18, UtcDatetime.text_inj (charRow_inj h19),
      UtcDatetime.text_inj (charRow_inj h20)⟩
  · intro h
    simp only [values, row, charRow, List.map_cons, List.map_nil, h.mandateId, h.version, h.agentId, h.userRef, h.userEntityId,
      h.beneficiaryEntityId, h.consentRef, h.merchantId, h.payeeId, h.cartHash, h.paymentIntentHash,
      texts_congr h.permittedCategories, texts_congr h.permittedProducts, h.credentialId, h.credentialScope,
      h.requiredAuthentication, h.maxAmount, h.currency, h.issuedAt, h.expiresAt]

theorem canonicalBytes_eq_some {m : AgentMandate} {b : List UInt8} : m.canonicalBytes = some b ↔
    JsonTree.digitsFit JsonTree.maxDigits m.version = true ∧
      SignedEncoding.canonicalBytes "apar.agent-mandate.v1" m.values = b := by
  unfold canonicalBytes
  split_ifs with h <;> simp [h]

theorem alike_iff {m m' : AgentMandate} {b : List UInt8} (h : m.canonicalBytes = some b) :
    m'.canonicalBytes = some b ↔ Alike m' m := by
  rw [canonicalBytes_eq_some] at h ⊢
  rw [← h.2, canonicalBytes_inj, values_alike]
  exact and_iff_right_of_imp fun halike => halike.version ▸ h.1

end AgentMandate

/-! ## Texts that have one spelling -/

theorem checkText_eq_ok {u : Unit} : checkText label s = .ok u ↔ s ≠ [] := by
  rw [checkText, check_eq_ok, decide_eq_true_eq]

/-- `int` reads no surrogate -/
theorem toAscii_surrogate {c : CodePoint} (h : isHigh c = true ∨ isLow c = true) : toAscii c = '?' := by
  simp only [isHigh, isLow, Bool.and_eq_true, decide_eq_true_eq] at h
  have hspace : isWideSpace c.val = false := by
    simp only [isWideSpace, List.mem_cons, List.not_mem_nil, or_false, Bool.or_eq_false_iff, Bool.and_eq_false_iff,
      decide_eq_false_iff_not]
    omega
  have hzeros : ∀ d ∈ decimalZeros, d + 9 < 0xD800 ∨ 0xDFFF < d := by decide
  have hdigit : (decimalZeros.find? fun d => d ≤ c.val && c.val ≤ d + 9) = none := by
    refine List.find?_eq_none.2 fun d hd => ?_
    rw [Bool.and_eq_true, decide_eq_true_eq, decide_eq_true_eq]
    have := hzeros d hd
    omega
  rw [toAscii, if_neg (by omega), hspace, hdigit]
  rfl

theorem mem_drop {α : Type} {x : α} {xs : List α} {n : ℕ} (h : x ∈ xs) (hn : x ∉ xs.take n) : x ∈ xs.drop n := by
  rw [← List.take_append_drop n xs, List.mem_append] at h
  exact h.resolve_left hn

theorem mem_dropWhile {α : Type} {p : α → Bool} {x : α} {xs : List α} (h : x ∈ xs) (hp : p x = false) : x ∈ xs.dropWhile p := by
  rw [← List.takeWhile_append_dropWhile (p := p) (l := xs), List.mem_append] at h
  refine h.resolve_left fun hx => ?_
  have := List.all_eq_true.1 List.all_takeWhile x hx
  rw [hp] at this
  cases this

/-- what is stripped from both ends is what the predicate holds of -/
theorem mem_strip {α : Type} {p : α → Bool} {x : α} {xs : List α} (h : x ∈ xs) (hp : p x = false) :
    x ∈ ((xs.dropWhile p).reverse.dropWhile p).reverse :=
  List.mem_reverse.2 (mem_dropWhile (List.mem_reverse.2 (mem_dropWhile h hp)) hp)

/-- a character that the pattern lacks stays -/
theorem mem_removeAll {p : List Char} (hp : p ≠ []) {c : Char} (hc : c ∉ p) {k : ℕ} {cs : List Char} (h : c ∈ cs.drop k) :
    c ∈ Uuid.removeAll p k cs := by
  fun_induction Uuid.removeAll p k cs with
  | case1 k => simp at h
  | case2 k d cs ih => exact ih h
  | case3 d cs hpref ih =>
    refine ih ?_
    rw [List.drop_zero] at h
    have hlen := List.length_pos_iff.2 hp
    have hpre := List.isPrefixOf_iff_prefix.1 hpref
    have htake : (d :: cs).take p.length = p := List.prefix_iff_eq_take.1 hpre |>.symm
    have := mem_drop (n := p.length) h (by rwa [htake])
    rwa [show p.length = p.length - 1 + 1 by omega, List.drop_succ_cons] at this
  | case4 d cs hpref ih =>
    rw [List.drop_zero] at h
    rcases List.mem_cons.1 h with rfl | h
    · exact List.mem_cons_self
    · exact List.mem_cons_of_mem _ (ih h)

theorem hexRun_mem {digit : Bool} {cs : List Char} (h : hexRun digit cs = true) : ∀ c ∈ cs, c = '_' ∨ (Uuid.hexValue c).isSome := by
  induction cs generalizing digit with
  | nil => exact fun c hc => absurd hc List.not_mem_nil
  | cons d cs ih =>
    intro c hc
    rw [hexRun] at h
    split_ifs at h with hd
    · rw [Bool.and_eq_true] at h
      rcases List.mem_cons.1 hc with rfl | hc
      · exact .inl hd
      · exact ih h.2 c hc
    · rw [Bool.and_eq_true] at h
      rcases List.mem_cons.1 hc with rfl | hc
      · exact .inr h.1
      · exact ih h.2 c hc

/-- `int` reads no question mark -/
theorem question_of_isHexInt {cs : List Char} (h : isHexInt cs = true) : '?' ∉ cs := by
  intro hmem
  have hstrip := mem_strip (p := isAsciiSpace) hmem (by decide)
  unfold isHexInt at h
  dsimp only at h
  obtain ⟨ds, hds⟩ : ∃ ds, ds = ((cs.dropWhile isAsciiSpace).reverse.dropWhile isAsciiSpace).reverse := ⟨_, rfl⟩
  rw [← hds] at h hstrip
  have hsign : '?' ∈ (if ds.head? = some '+' ∨ ds.head? = some '-' then ds.drop 1 else ds) := by
    split_ifs with hhead
    · refine mem_drop hstrip ?_
      cases ds with
      | nil => simp
      | cons d ds =>
        rcases hhead with hd | hd <;> simp [Option.some.inj hd]
    · exact hstrip
  obtain ⟨es, hes⟩ : ∃ es, es = if ds.head? = some '+' ∨ ds.head? = some '-' then ds.drop 1 else ds := ⟨_, rfl⟩
  rw [← hes] at h hsign
  have hbody : '?' ∈ (if es.take 2 = ['0', 'x'] ∨ es.take 2 = ['0', 'X'] then
      (if (es.drop 2).head? = some '_' then es.drop 3 else es.drop 2) else es) := by
    split_ifs with hzero hunder
    · have htwo : '?' ∈ es.drop 2 := mem_drop hsign (by rcases hzero with h | h <;> rw [h] <;> decide)
      have : '?' ∈ (es.drop 2).drop 1 := by
        refine mem_drop htwo ?_
        cases htail : es.drop 2 with
        | nil => simp
        | cons e rest =>
          rw [htail] at hunder
          simp [Option.some.inj hunder]
      rwa [List.drop_drop] at this
    · exact mem_drop hsign (by rcases hzero with h | h <;> rw [h] <;> decide)
    · exact hsign
  rcases hexRun_mem h '?' hbody with hbad | hbad
  · exact absurd hbad (by decide)
  · exact absurd hbad (by decide)

/-- **A text that `UUID` reads has no surrogate.** -/
theorem scalar_of_isUuid (h : isUuid s = true) : s.scalar = true := by
  by_contra hs
  obtain ⟨c, hc, hsurrogate⟩ : ∃ c ∈ s, isHigh c = true ∨ isLow c = true := by
    simp only [scalar, List.all_eq_true, Bool.and_eq_true, Bool.not_eq_true', not_forall] at hs
    obtain ⟨c, hc, hne⟩ := hs
    refine ⟨c, hc, ?_⟩
    cases hhigh : isHigh c with
    | true => exact .inl rfl
    | false =>
      cases hlow : isLow c with
      | true => exact .inr rfl
      | false => exact absurd ⟨hhigh, hlow⟩ hne
  have hmem : '?' ∈ s.map toAscii := List.mem_map.2 ⟨c, hc, toAscii_surrogate hsurrogate⟩
  unfold isUuid at h
  dsimp only at h
  rw [Bool.and_eq_true] at h
  refine question_of_isHexInt h.2 (List.mem_filter.2 ⟨mem_strip ?_ (by decide), by decide⟩)
  exact mem_removeAll (by decide) (by decide) (mem_removeAll (by decide) (by decide) hmem)

theorem pairFree_of_isDigest (h : isDigest s = true) : s.pairFree = true := by
  refine pairFree_of_scalar (List.all_eq_true.2 fun c hc => ?_)
  rw [isDigest, Bool.and_eq_true, List.all_eq_true] at h
  have hdigits := scalar_ofString (String.ofList hexChars)
  rw [ofString, String.toList_ofList] at hdigits
  exact List.all_eq_true.1 hdigits c (of_decide_eq_true (h.2 c hc))

/-- a scope that no other scope is spelled like -/
def SoleScope (xs : List PyStr) : Prop :=
  ∀ ys : List PyStr, (∀ s ∈ ys, s ≠ []) → isScope ys = true → ys.map utf16 = xs.map utf16 → ys = xs

theorem eq_of_plain (h : ∀ s ∈ xs, s.plain = true) (hlike : ys.map utf16 = xs.map utf16) : ys = xs := by
  induction xs generalizing ys with
  | nil => exact List.map_eq_nil_iff.1 hlike
  | cons x xs ih =>
    cases ys with
    | nil => cases hlike
    | cons y ys =>
      rw [List.map_cons, List.map_cons, List.cons.injEq] at hlike
      rw [plain_iff.1 (h x (by simp)) y hlike.1, ih (fun s hs => h s (by simp [hs])) hlike.2]

theorem soleScope_of_plain (h : ∀ s ∈ xs, s.plain = true) : SoleScope xs :=
  fun _ _ _ hlike => eq_of_plain h hlike

theorem currency_pairFree {ctx : DecimalContext} {amount : Decimal} {currency : PyStr} {u : Unit}
    (h : checkMoney ctx label amount currency = .ok u) : currency.pairFree = true := by
  obtain ⟨_, -, h⟩ := except_bind_eq_ok.1 h
  cases hs : currency.toString? with
  | none =>
    rw [hs] at h
    cases h
  | some s => exact ofString_toString? hs ▸ pairFree_of_scalar (scalar_ofString s)

theorem pairFree_of_checkUuid {u : Unit} (h : checkUuid label s = .ok u) : s.pairFree = true := by
  obtain ⟨_, -, h⟩ := except_bind_eq_ok.1 h
  exact pairFree_of_scalar (scalar_of_isUuid (check_eq_ok.1 h))

theorem pairFree_of_checkDigest {allowEmpty : Bool} {u : Unit} (h : checkDigest label s allowEmpty = .ok u) :
    s.pairFree = true := by
  rw [checkDigest, check_eq_ok, Bool.or_eq_true, Bool.and_eq_true, decide_eq_true_eq] at h
  rcases h with ⟨-, rfl⟩ | h
  · rfl
  · exact pairFree_of_isDigest h

theorem nonempty_of_checkScope {u : Unit} (h : checkScope label xs = .ok u) : ∀ s ∈ xs, s ≠ [] := by
  obtain ⟨_, -, h⟩ := except_bind_eq_ok.1 h
  obtain ⟨_, hall, -⟩ := except_bind_eq_ok.1 h
  exact fun s hs => checkText_eq_ok.1 (forM_mem hall hs)

theorem isScope_of_checkScope {u : Unit} (h : checkScope label xs = .ok u) : isScope xs = true := by
  obtain ⟨_, -, h⟩ := except_bind_eq_ok.1 h
  obtain ⟨_, -, h⟩ := except_bind_eq_ok.1 h
  exact check_eq_ok.1 h

theorem checkScope_respelled (h : checkScope label xs = .ok ()) (hys : ∀ s ∈ ys, s ≠ []) (hscope : isScope ys = true)
    (hlike : ys.map utf16 = xs.map utf16) : checkScope label ys = .ok () := by
  obtain ⟨_, hne, -⟩ := except_bind_eq_ok.1 h
  rw [check_eq_ok, decide_eq_true_eq] at hne
  refine except_bind_eq_ok.2 ⟨(), check_eq_ok.2 (decide_eq_true ?_), except_bind_eq_ok.2 ⟨(), ?_, check_eq_ok.2 hscope⟩⟩
  · rintro rfl
    exact hne (List.map_eq_nil_iff.1 hlike.symm)
  · exact forM_eq_ok fun s hs => checkText_eq_ok.2 (hys s hs)

namespace AgentMandate

/-- what the constructor of a mandate checks -/
structure Valid (ctx : DecimalContext) (m : AgentMandate) : Prop where
  mandateId : m.mandateId ≠ []
  version : 0 < m.version
  agentId : m.agentId ≠ []
  userRef : m.userRef ≠ []
  userEntityId : checkUuid "user_entity_id" m.userEntityId = .ok ()
  beneficiaryEntityId : checkUuid "beneficiary_entity_id" m.beneficiaryEntityId = .ok ()
  consentRef : m.consentRef ≠ []
  merchantId : m.merchantId ≠ []
  payeeId : m.payeeId ≠ []
  cartHash : checkDigest "cart_hash" m.cartHash false = .ok ()
  paymentIntentHash : checkDigest "payment_intent_hash" m.paymentIntentHash false = .ok ()
  permittedCategories : checkScope "permitted_categories" m.permittedCategories = .ok ()
  permittedProducts : checkScope "permitted_products" m.permittedProducts = .ok ()
  credentialId : m.credentialId ≠ []
  credentialScope : m.credentialScope ≠ []
  currency : m.currency ≠ []
  maxAmount : checkMoney ctx "max_amount" m.maxAmount m.currency = .ok ()
  period : m.issuedAt.before m.expiresAt = true

theorem validate_eq_ok {ctx : DecimalContext} {m : AgentMandate} : m.validate ctx = .ok () ↔ Valid ctx m := by
  simp only [validate, except_bind_eq_ok, checkText_eq_ok, check_eq_ok, decide_eq_true_eq]
  constructor
  · rintro ⟨_, h1, _, h2, _, h3, _, h4, _, h5, _, h6, _, h7, _, h8, _, h9, _, h10, _, h11, _, h12, _, h13, _, h14, _, h15, _, h16,
      _, h17, h18⟩
    exact ⟨h1, h2, h3, h4, h5, h6, h7, h8, h9, h10, h11, h12, h13, h14, h15, h16, h17, h18⟩
  · rintro ⟨h1, h2, h3, h4, h5, h6, h7, h8, h9, h10, h11, h12, h13, h14, h15, h16, h17, h18⟩
    exact ⟨(), h1, (), h2, (), h3, (), h4, (), h5, (), h6, (), h7, (), h8, (), h9, (), h10, (), h11, (), h12, (), h13, (), h14,
      (), h15, (), h16, (), h17, h18⟩

/-- the texts that are free -/
def freeTexts (m : AgentMandate) : List PyStr :=
  [m.mandateId, m.agentId, m.userRef, m.consentRef, m.merchantId, m.payeeId, m.credentialId, m.credentialScope]

/-- every free text is plain, and every scope is alone -/
structure Sole (m : AgentMandate) : Prop where
  plain : ∀ s ∈ m.freeTexts, s.plain = true
  permittedCategories : SoleScope m.permittedCategories
  permittedProducts : SoleScope m.permittedProducts

/-- **A mandate that is alone is told by its bytes.** -/
theorem Sole.eq_of_alike {ctx : DecimalContext} {m m' : AgentMandate} (h : m.Sole) (hm : Valid ctx m) (hm' : Valid ctx m')
    (ha : Alike m' m) : m' = m := by
  have free : ∀ {s t : PyStr}, t ∈ m.freeTexts → utf16 s = utf16 t → s = t := fun ht hst => plain_iff.1 (h.plain _ ht) _ hst
  have huser := utf16_inj (pairFree_of_checkUuid hm'.userEntityId) (pairFree_of_checkUuid hm.userEntityId) ha.userEntityId
  have hbeneficiary := utf16_inj (pairFree_of_checkUuid hm'.beneficiaryEntityId)
    (pairFree_of_checkUuid hm.beneficiaryEntityId) ha.beneficiaryEntityId
  have hcart := utf16_inj (pairFree_of_checkDigest hm'.cartHash) (pairFree_of_checkDigest hm.cartHash) ha.cartHash
  have hintent := utf16_inj (pairFree_of_checkDigest hm'.paymentIntentHash) (pairFree_of_checkDigest hm.paymentIntentHash)
    ha.paymentIntentHash
  have hcurrency := utf16_inj (currency_pairFree hm'.maxAmount) (currency_pairFree hm.maxAmount) ha.currency
  have hcategories := h.permittedCategories _ (nonempty_of_checkScope hm'.permittedCategories)
    (isScope_of_checkScope hm'.permittedCategories) ha.permittedCategories
  have hproducts := h.permittedProducts _ (nonempty_of_checkScope hm'.permittedProducts)
    (isScope_of_checkScope hm'.permittedProducts) ha.permittedProducts
  have h1 := free (by simp [freeTexts]) ha.mandateId
  have h2 := free (by simp [freeTexts]) ha.agentId
  have h3 := free (by simp [freeTexts]) ha.userRef
  have h4 := free (by simp [freeTexts]) ha.consentRef
  have h5 := free (by simp [freeTexts]) ha.merchantId
  have h6 := free (by simp [freeTexts]) ha.payeeId
  have h7 := free (by simp [freeTexts]) ha.credentialId
  have h8 := free (by simp [freeTexts]) ha.credentialScope
  cases m
  cases m'
  simp only at *
  simp only [mk.injEq]
  exact ⟨h1, ha.version, h2, h3, huser, hbeneficiary, h4, h5, h6, hcart, hintent, hcategories, hproducts, h7, h8,
    ha.requiredAuthentication, ha.maxAmount, hcurrency, ha.issuedAt, ha.expiresAt⟩

/-- **A mandate that only itself is like is alone**: each free text and each scope can be respelled. -/
theorem sole_of_alone {ctx : DecimalContext} {m : AgentMandate} (hm : Valid ctx m)
    (h : ∀ m', Valid ctx m' → Alike m' m → m' = m) : m.Sole := by
  have nonempty : ∀ {s t : PyStr}, s ≠ [] → utf16 t = utf16 s → t ≠ [] := by
    rintro s t hs ht rfl
    exact hs (utf16_eq_nil.1 ht.symm)
  have hrefl := Alike.refl m
  refine ⟨?_, ?_, ?_⟩
  · simp only [freeTexts, List.forall_mem_cons, plain_iff]
    refine ⟨fun t ht => ?_, fun t ht => ?_, fun t ht => ?_, fun t ht => ?_, fun t ht => ?_, fun t ht => ?_, fun t ht => ?_,
      fun t ht => ?_, nofun⟩
    · exact congrArg mandateId (h { m with mandateId := t } { hm with mandateId := nonempty hm.mandateId ht }
        { hrefl with mandateId := ht })
    · exact congrArg agentId (h { m with agentId := t } { hm with agentId := nonempty hm.agentId ht }
        { hrefl with agentId := ht })
    · exact congrArg userRef (h { m with userRef := t } { hm with userRef := nonempty hm.userRef ht }
        { hrefl with userRef := ht })
    · exact congrArg consentRef (h { m with consentRef := t } { hm with consentRef := nonempty hm.consentRef ht }
        { hrefl with consentRef := ht })
    · exact congrArg merchantId (h { m with merchantId := t } { hm with merchantId := nonempty hm.merchantId ht }
        { hrefl with merchantId := ht })
    · exact congrArg payeeId (h { m with payeeId := t } { hm with payeeId := nonempty hm.payeeId ht }
        { hrefl with payeeId := ht })
    · exact congrArg credentialId (h { m with credentialId := t } { hm with credentialId := nonempty hm.credentialId ht }
        { hrefl with credentialId := ht })
    · exact congrArg AgentMandate.credentialScope (h { m with credentialScope := t }
        { hm with credentialScope := nonempty hm.credentialScope ht } { hrefl with credentialScope := ht })
  · intro ys hys hscope hlike
    exact congrArg permittedCategories (h { m with permittedCategories := ys }
      { hm with permittedCategories := checkScope_respelled hm.permittedCategories hys hscope hlike }
      { hrefl with permittedCategories := hlike })
  · intro ys hys hscope hlike
    exact congrArg permittedProducts (h { m with permittedProducts := ys }
      { hm with permittedProducts := checkScope_respelled hm.permittedProducts hys hscope hlike }
      { hrefl with permittedProducts := hlike })

end AgentMandate

/-! ## Requests that have one encoding -/

namespace AgentPaymentRequest

/-- what the constructor of a request checks -/
structure Valid (ctx : DecimalContext) (r : AgentPaymentRequest) : Prop where
  requestId : r.requestId ≠ []
  paymentId : r.paymentId ≠ []
  agentId : r.agentId ≠ []
  keyId : r.keyId ≠ []
  mandate : AgentMandate.Valid ctx r.mandate
  currency : r.currency ≠ []
  amount : checkMoney ctx "amount" r.amount r.currency = .ok ()
  merchantId : r.merchantId ≠ []
  payeeId : r.payeeId ≠ []
  cartHash : checkDigest "cart_hash" r.cartHash false = .ok ()
  paymentIntentHash : checkDigest "payment_intent_hash" r.paymentIntentHash false = .ok ()
  category : r.category ≠ []
  productId : r.productId ≠ []
  credentialId : r.credentialId ≠ []
  credentialScope : r.credentialScope ≠ []
  consentRef : r.consentRef ≠ []
  evidenceRef : checkEvidenceRef r.mandate.requiredAuthentication r.authenticationEvidenceRef = .ok ()
  nonce : r.nonce ≠ []
  period : r.createdAt.before r.expiresAt = true
  priorReceiptHash : checkDigest "prior_receipt_hash" r.priorReceiptHash true = .ok ()
  campaignId : checkUuid "campaign_id" r.campaignId = .ok ()
  traceId : checkUuid "trace_id" r.traceId = .ok ()
  actorId : checkUuid "actor_id" r.actorId = .ok ()
  counterpartyId : checkUuid "counterparty_id" r.counterpartyId = .ok ()

theorem validate_eq_ok {ctx : DecimalContext} {r : AgentPaymentRequest} : r.validate ctx = .ok () ↔ Valid ctx r := by
  simp only [validate, except_bind_eq_ok, checkText_eq_ok, check_eq_ok]
  constructor
  · rintro ⟨_, h1, _, h2, _, h3, _, h4, _, h5, _, h6, _, h7, _, h8, _, h9, _, h10, _, h11, _, h12, _, h13, _, h14, _, h15, _, h16,
      _, h17, _, h18, _, h19, _, h20, _, h21, _, h22, _, h23, h24⟩
    exact ⟨h1, h2, h3, h4, AgentMandate.validate_eq_ok.1 h5, h6, h7, h8, h9, h10, h11, h12, h13, h14, h15, h16, h17, h18, h19,
      h20, h21, h22, h23, h24⟩
  · rintro ⟨h1, h2, h3, h4, h5, h6, h7, h8, h9, h10, h11, h12, h13, h14, h15, h16, h17, h18, h19, h20, h21, h22, h23, h24⟩
    exact ⟨(), h1, (), h2, (), h3, (), h4, (), AgentMandate.validate_eq_ok.2 h5, (), h6, (), h7, (), h8, (), h9, (), h10, (), h11,
      (), h12, (), h13, (), h14, (), h15, (), h16, (), h17, (), h18, (), h19, (), h20, (), h21, (), h22, (), h23, h24⟩

/-- two requests whose texts have the same units, and which agree in all else that is signed -/
structure Alike (q r : AgentPaymentRequest) : Prop where
  requestId : utf16 q.requestId = utf16 r.requestId
  paymentId : utf16 q.paymentId = utf16 r.paymentId
  agentId : utf16 q.agentId = utf16 r.agentId
  keyId : utf16 q.keyId = utf16 r.keyId
  amount : q.amount = r.amount
  currency : utf16 q.currency = utf16 r.currency
  merchantId : utf16 q.merchantId = utf16 r.merchantId
  payeeId : utf16 q.payeeId = utf16 r.payeeId
  cartHash : utf16 q.cartHash = utf16 r.cartHash
  paymentIntentHash : utf16 q.paymentIntentHash = utf16 r.paymentIntentHash
  category : utf16 q.category = utf16 r.category
  productId : utf16 q.productId = utf16 r.productId
  credentialId : utf16 q.credentialId = utf16 r.credentialId
  credentialScope : utf16 q.credentialScope = utf16 r.credentialScope
  consentRef : utf16 q.consentRef = utf16 r.consentRef
  evidenceRef : utf16 (q.authenticationEvidenceRef.getD []) = utf16 (r.authenticationEvidenceRef.getD [])
  nonce : utf16 q.nonce = utf16 r.nonce
  createdAt : q.createdAt = r.createdAt
  expiresAt : q.expiresAt = r.expiresAt
  priorReceiptHash : utf16 q.priorReceiptHash = utf16 r.priorReceiptHash
  campaignId : utf16 q.campaignId = utf16 r.campaignId
  traceId : utf16 q.traceId = utf16 r.traceId
  actorId : utf16 q.actorId = utf16 r.actorId
  counterpartyId : utf16 q.counterpartyId = utf16 r.counterpartyId

theorem Alike.refl (r : AgentPaymentRequest) : Alike r r := by constructor <;> rfl

variable {q r : AgentPaymentRequest}

/-- **What the signing bytes of a request tell**: the hash of its mandate, and everything but how a surrogate pair is written. -/
theorem values_alike {s t : String} :
    (q.values s).map (·.map utf16) = (r.values t).map (·.map utf16) ↔ Alike q r ∧ s = t := by
  constructor
  · intro h
    simp only [values, List.map_cons, List.cons.injEq, List.map_nil, and_true] at h
    obtain ⟨h1, h2, h3, h4, h5, h6, h7, h8, h9, h10, h11, h12, h13, h14, h15, h16, h17, h18, h19, h20, h21, h22, h23, h24, h25⟩ := h
    exact ⟨⟨row_inj h1, row_inj h2, row_inj h3, row_inj h4, text_inj (charRow_inj h6), row_inj h7, row_inj h8, row_inj h9,
      row_inj h10, row_inj h11, row_inj h12, row_inj h13, row_inj h14, row_inj h15, row_inj h16, row_inj h17, row_inj h18,
      UtcDatetime.text_inj (charRow_inj h19), UtcDatetime.text_inj (charRow_inj h20), row_inj h21, row_inj h22, row_inj h23,
      row_inj h24, row_inj h25⟩, String.toList_inj.1 (map_ofChar_inj (row_inj h5))⟩
  · rintro ⟨h, rfl⟩
    simp only [values, row, charRow, List.map_cons, List.map_nil, h.requestId, h.paymentId, h.agentId, h.keyId, h.amount,
      h.currency, h.merchantId, h.payeeId, h.cartHash, h.paymentIntentHash, h.category, h.productId, h.credentialId,
      h.credentialScope, h.consentRef, h.evidenceRef, h.nonce, h.createdAt, h.expiresAt, h.priorReceiptHash, h.campaignId,
      h.traceId, h.actorId, h.counterpartyId]

/-- the texts of a request that are free -/
def freeTexts (r : AgentPaymentRequest) : List PyStr :=
  [r.requestId, r.paymentId, r.agentId, r.keyId, r.merchantId, r.payeeId, r.category, r.productId, r.credentialId,
    r.credentialScope, r.consentRef, r.authenticationEvidenceRef.getD [], r.nonce]

/-- every free text of the request is plain, and its mandate is alone -/
structure Sole (r : AgentPaymentRequest) : Prop where
  plain : ∀ s ∈ r.freeTexts, s.plain = true
  mandate : r.mandate.Sole

/-- the evidence reference of a valid request is told by its text -/
theorem evidenceRef_inj {required : AuthenticationRequirement} {a b : Option PyStr} (ha : checkEvidenceRef required a = .ok ())
    (hb : checkEvidenceRef required b = .ok ()) (h : a.getD [] = b.getD []) : a = b := by
  cases required with
  | none =>
    cases a with
    | none =>
      cases b with
      | none => rfl
      | some t => cases hb
    | some s => cases ha
  | stepUp =>
    cases a with
    | none => cases ha
    | some s =>
      cases b with
      | none => cases hb
      | some t => exact congrArg some h

variable [Sha256]

/-- the hashes of the canonical bytes of these mandates do not collide -/
def NoCollision (m m' : AgentMandate) : Prop :=
  ∀ b b', m.canonicalBytes = some b → m'.canonicalBytes = some b' → Sha256.hexdigestBytes b = Sha256.hexdigestBytes b' → b = b'

theorem signingBytes_eq_some {b : List UInt8} : r.signingBytes = some b ↔
    ∃ mandate, r.mandate.canonicalBytes = some mandate ∧
      canonicalBytes "apar.agent-payment-request.v1" (r.values (Sha256.hexdigestBytes mandate)) = b := by
  rw [signingBytes, Option.map_eq_some_iff]

/-- **A request that is alone is told by its bytes.** -/
theorem Sole.eq_of_signingBytes {ctx : DecimalContext} (h : r.Sole) (hr : Valid ctx r) (hq : Valid ctx q)
    (hc : NoCollision q.mandate r.mandate) {b : List UInt8} (hrb : r.signingBytes = some b)
    (hqb : q.signingBytes = some b) : q = { r with signature := q.signature } := by
  obtain ⟨mandate, hmandate, rfl⟩ := signingBytes_eq_some.1 hrb
  obtain ⟨mandate', hmandate', hbytes⟩ := signingBytes_eq_some.1 hqb
  obtain ⟨ha, hhash⟩ := values_alike.1 (canonicalBytes_inj.1 hbytes)
  have hm : q.mandate = r.mandate :=
    h.mandate.eq_of_alike hr.mandate hq.mandate ((AgentMandate.alike_iff hmandate).1 (hc _ _ hmandate' hmandate hhash ▸ hmandate'))
  have free : ∀ {s t : PyStr}, t ∈ r.freeTexts → utf16 s = utf16 t → s = t := fun ht hst => plain_iff.1 (h.plain _ ht) _ hst
  have hcart := utf16_inj (pairFree_of_checkDigest hq.cartHash) (pairFree_of_checkDigest hr.cartHash) ha.cartHash
  have hintent := utf16_inj (pairFree_of_checkDigest hq.paymentIntentHash) (pairFree_of_checkDigest hr.paymentIntentHash)
    ha.paymentIntentHash
  have hprior := utf16_inj (pairFree_of_checkDigest hq.priorReceiptHash) (pairFree_of_checkDigest hr.priorReceiptHash)
    ha.priorReceiptHash
  have hcurrency := utf16_inj (currency_pairFree hq.amount) (currency_pairFree hr.amount) ha.currency
  have hcampaign := utf16_inj (pairFree_of_checkUuid hq.campaignId) (pairFree_of_checkUuid hr.campaignId) ha.campaignId
  have htrace := utf16_inj (pairFree_of_checkUuid hq.traceId) (pairFree_of_checkUuid hr.traceId) ha.traceId
  have hactor := utf16_inj (pairFree_of_checkUuid hq.actorId) (pairFree_of_checkUuid hr.actorId) ha.actorId
  have hcounterparty := utf16_inj (pairFree_of_checkUuid hq.counterpartyId) (pairFree_of_checkUuid hr.counterpartyId)
    ha.counterpartyId
  have hevidence := evidenceRef_inj (hm ▸ hq.evidenceRef) hr.evidenceRef (free (by simp [freeTexts]) ha.evidenceRef)
  have h1 := free (by simp [freeTexts]) ha.requestId
  have h2 := free (by simp [freeTexts]) ha.paymentId
  have h3 := free (by simp [freeTexts]) ha.agentId
  have h4 := free (by simp [freeTexts]) ha.keyId
  have h5 := free (by simp [freeTexts]) ha.merchantId
  have h6 := free (by simp [freeTexts]) ha.payeeId
  have h7 := free (by simp [freeTexts]) ha.category
  have h8 := free (by simp [freeTexts]) ha.productId
  have h9 := free (by simp [freeTexts]) ha.credentialId
  have h10 := free (by simp [freeTexts]) ha.credentialScope
  have h11 := free (by simp [freeTexts]) ha.consentRef
  have h12 := free (by simp [freeTexts]) ha.nonce
  cases q
  cases r
  simp only at *
  simp only [mk.injEq, and_true]
  exact ⟨h1, h2, h3, h4, hm, ha.amount, hcurrency, h5, h6, hcart, hintent, h7, h8, h9, h10, h11, hevidence, h12, ha.createdAt,
    ha.expiresAt, hprior, hcampaign, htrace, hactor, hcounterparty⟩

omit [Sha256] in
theorem checkEvidenceRef_respelled {required : AuthenticationRequirement} {a : Option PyStr} {t : PyStr}
    (ha : checkEvidenceRef required a = .ok ()) (ht : utf16 t = utf16 (a.getD [])) :
    ∃ b, b.getD [] = t ∧ checkEvidenceRef required b = .ok () := by
  cases required with
  | none =>
    cases a with
    | none => exact ⟨none, (utf16_eq_nil.1 ht).symm, rfl⟩
    | some s => cases ha
  | stepUp =>
    cases a with
    | none => cases ha
    | some s =>
      refine ⟨some t, rfl, checkText_eq_ok.2 ?_⟩
      rintro rfl
      exact checkText_eq_ok.1 ha (utf16_eq_nil.1 ht.symm)

/-- **A request of whose bytes there is no other is alone.** -/
theorem sole_of_alone {ctx : DecimalContext} {r : AgentPaymentRequest} (hr : Valid ctx r) {b : List UInt8}
    (hb : r.signingBytes = some b)
    (h : ∀ q, Valid ctx q → NoCollision q.mandate r.mandate → q.signingBytes = some b → q = { r with signature := q.signature }) :
    r.Sole := by
  obtain ⟨mandate, hmandate, rfl⟩ := signingBytes_eq_some.1 hb
  have alone : ∀ q, Valid ctx q → q.mandate = r.mandate → Alike q r → q = { r with signature := q.signature } := by
    intro q hq hm ha
    refine h q hq (fun b b' hb hb' _ => ?_) (signingBytes_eq_some.2 ⟨mandate, hm ▸ hmandate, ?_⟩)
    · rw [hm] at hb
      exact Option.some.inj (hb.symm.trans hb')
    · exact canonicalBytes_inj.2 (values_alike.2 ⟨ha, rfl⟩)
  have nonempty : ∀ {s t : PyStr}, s ≠ [] → utf16 t = utf16 s → t ≠ [] := by
    rintro s t hs ht rfl
    exact hs (utf16_eq_nil.1 ht.symm)
  have hrefl := Alike.refl r
  refine ⟨?_, AgentMandate.sole_of_alone hr.mandate fun m' hm' ha => ?_⟩
  · simp only [freeTexts, List.forall_mem_cons, plain_iff]
    refine ⟨fun t ht => ?_, fun t ht => ?_, fun t ht => ?_, fun t ht => ?_, fun t ht => ?_, fun t ht => ?_, fun t ht => ?_,
      fun t ht => ?_, fun t ht => ?_, fun t ht => ?_, fun t ht => ?_, fun t ht => ?_, fun t ht => ?_, nofun⟩
    · exact congrArg requestId (alone { r with requestId := t } { hr with requestId := nonempty hr.requestId ht } rfl
        { hrefl with requestId := ht })
    · exact congrArg paymentId (alone { r with paymentId := t } { hr with paymentId := nonempty hr.paymentId ht } rfl
        { hrefl with paymentId := ht })
    · exact congrArg agentId (alone { r with agentId := t } { hr with agentId := nonempty hr.agentId ht } rfl
        { hrefl with agentId := ht })
    · exact congrArg keyId (alone { r with keyId := t } { hr with keyId := nonempty hr.keyId ht } rfl { hrefl with keyId := ht })
    · exact congrArg merchantId (alone { r with merchantId := t } { hr with merchantId := nonempty hr.merchantId ht } rfl
        { hrefl with merchantId := ht })
    · exact congrArg payeeId (alone { r with payeeId := t } { hr with payeeId := nonempty hr.payeeId ht } rfl
        { hrefl with payeeId := ht })
    · exact congrArg category (alone { r with category := t } { hr with category := nonempty hr.category ht } rfl
        { hrefl with category := ht })
    · exact congrArg productId (alone { r with productId := t } { hr with productId := nonempty hr.productId ht } rfl
        { hrefl with productId := ht })
    · exact congrArg credentialId (alone { r with credentialId := t } { hr with credentialId := nonempty hr.credentialId ht } rfl
        { hrefl with credentialId := ht })
    · exact congrArg AgentPaymentRequest.credentialScope (alone { r with credentialScope := t }
        { hr with credentialScope := nonempty hr.credentialScope ht } rfl { hrefl with credentialScope := ht })
    · exact congrArg consentRef (alone { r with consentRef := t } { hr with consentRef := nonempty hr.consentRef ht } rfl
        { hrefl with consentRef := ht })
    · obtain ⟨b, hbt, hcheck⟩ := checkEvidenceRef_respelled hr.evidenceRef ht
      have := congrArg authenticationEvidenceRef (alone { r with authenticationEvidenceRef := b } { hr with evidenceRef := hcheck }
        rfl { hrefl with evidenceRef := hbt ▸ ht })
      rw [← hbt]
      exact congrArg (Option.getD · []) this
    · exact congrArg nonce (alone { r with nonce := t } { hr with nonce := nonempty hr.nonce ht } rfl { hrefl with nonce := ht })
  · -- another mandate of the same bytes
    have hm'bytes := (AgentMandate.alike_iff hmandate).2 ha
    have hq := h { r with mandate := m' } { hr with mandate := hm', evidenceRef := ha.requiredAuthentication ▸ hr.evidenceRef }
      (fun b b' hb hb' _ => by rw [← Option.some.inj (hm'bytes.symm.trans hb), ← Option.some.inj (hmandate.symm.trans hb')])
      (signingBytes_eq_some.2 ⟨mandate, hm'bytes, rfl⟩)
    exact congrArg AgentPaymentRequest.mandate hq

end AgentPaymentRequest

/-- **Injectivity of the signed encoding.** No other valid mandate has the canonical bytes of a valid mandate exactly when its
free texts are plain and its scopes alone; and no valid request that differs in a signed field has the signing bytes of a valid
request exactly when its own free texts are plain and its mandate is so. -/
theorem encoding_injective_iff [Sha256] (ctx : DecimalContext) :
    (∀ (m : AgentMandate) (b : List UInt8), m.validate ctx = .ok () → m.canonicalBytes = some b →
      ((∀ m' : AgentMandate, m'.validate ctx = .ok () → m'.canonicalBytes = some b → m' = m) ↔ m.Sole)) ∧
    ∀ (r : AgentPaymentRequest) (b : List UInt8), r.validate ctx = .ok () → r.signingBytes = some b →
      ((∀ q : AgentPaymentRequest, q.validate ctx = .ok () → AgentPaymentRequest.NoCollision q.mandate r.mandate →
        q.signingBytes = some b → q = { r with signature := q.signature }) ↔ r.Sole) := by
  constructor
  · intro m b hm hb
    rw [AgentMandate.validate_eq_ok] at hm
    constructor
    · intro h
      exact AgentMandate.sole_of_alone hm fun m' hm' ha =>
        h m' (AgentMandate.validate_eq_ok.2 hm') ((AgentMandate.alike_iff hb).2 ha)
    · intro h m' hm' hb'
      exact h.eq_of_alike hm (AgentMandate.validate_eq_ok.1 hm') ((AgentMandate.alike_iff hb).1 hb')
  · intro r b hr hb
    rw [AgentPaymentRequest.validate_eq_ok] at hr
    constructor
    · intro h
      exact AgentPaymentRequest.sole_of_alone hr hb fun q hq => h q (AgentPaymentRequest.validate_eq_ok.2 hq)
    · intro h q hq hc hqb
      exact h.eq_of_signingBytes hr (AgentPaymentRequest.validate_eq_ok.1 hq) hc hb hqb

/-! ## Two requests of one encoding -/

namespace Sample

def instant (day : ℕ) (h : 1 ≤ day ∧ day ≤ 28) : UtcDatetime :=
  ⟨2026, 1, day, 0, 0, 0, 0, ⟨by norm_num, by norm_num, by norm_num, by norm_num, h.1, h.2.trans (by decide)⟩, by norm_num⟩

def digest : PyStr := List.replicate 64 48

def uuid : PyStr := List.replicate 32 48

def currency : PyStr := [85, 83, 68]

/-- a mandate whose user is named by this text -/
def mandate (userRef : PyStr) : AgentMandate :=
  ⟨[109], 1, [97], userRef, uuid, uuid, [99], [101], [112], digest, digest, [[98]], [[100]], [102], [103], .none, ⟨500, -2⟩, currency,
    instant 1 (by decide), instant 2 (by decide)⟩

/-- a request with this nonce -/
def request (nonce : PyStr) : AgentPaymentRequest :=
  ⟨[114], [112], [97], [107], mandate [117], ⟨100, -2⟩, currency, [101], [112], digest, digest, [98], [100], [102], [103], [99], none,
    nonce, instant 1 (by decide), instant 2 (by decide), [], uuid, uuid, uuid, uuid, []⟩

/-- U+1F600, and the surrogate pair that stands for it -/
def smile : PyStr := [0x1F600]

def pair : PyStr := [0xD83D, 0xDE00]

theorem mandate_valid {s : PyStr} (hs : s ≠ []) : AgentMandate.Valid .default (mandate s) := by
  have h : AgentMandate.Valid .default (mandate [117]) := AgentMandate.validate_eq_ok.1 (by decide +kernel)
  exact { h with userRef := hs }

theorem request_valid {s : PyStr} (hs : s ≠ []) : AgentPaymentRequest.Valid .default (request s) := by
  have h : AgentPaymentRequest.Valid .default (request [110]) := AgentPaymentRequest.validate_eq_ok.1 (by decide +kernel)
  exact { h with nonce := hs }

/-- a hash without collisions -/
instance : Sha256 := ⟨fun _ => "", fun b => String.ofList (b.map fun x => Char.ofNat x.toNat)⟩

theorem hexdigestBytes_inj {b b' : List UInt8} (h : Sha256.hexdigestBytes b = Sha256.hexdigestBytes b') : b = b' := by
  have hchars := String.ofList_injective h
  refine List.map_injective_iff.2 (fun x y hxy => ?_) hchars
  have hnat := congrArg Char.toNat hxy
  have hvalid : ∀ z : UInt8, (Char.ofNat z.toNat).toNat = z.toNat := by
    intro z
    have := z.toNat_lt
    rw [Char.ofNat, dif_pos (Or.inl (by omega))]
    rfl
  rw [hvalid, hvalid] at hnat
  exact UInt8.toNat_inj.1 hnat

theorem mandate_sole : (mandate [117]).Sole := by
  refine ⟨?_, soleScope_of_plain (by decide), soleScope_of_plain (by decide)⟩
  decide

theorem request_sole : (request [110]).Sole := ⟨by decide, mandate_sole⟩

/-- **The requests of a plain text**: the mandate and the request are told by their bytes. -/
theorem request_told : ∃ b, (request [110]).signingBytes = some b ∧
    ∀ q : AgentPaymentRequest, q.validate .default = .ok () → q.signingBytes = some b →
      q = { request [110] with signature := q.signature } := by
  obtain ⟨mandate', hmandate⟩ : ∃ b, (mandate [117]).canonicalBytes = some b :=
    ⟨_, AgentMandate.canonicalBytes_eq_some.2 ⟨by decide, rfl⟩⟩
  refine ⟨_, AgentPaymentRequest.signingBytes_eq_some.2 ⟨mandate', hmandate, rfl⟩, fun q hq hb => ?_⟩
  exact ((encoding_injective_iff .default).2 (request [110]) _
    (AgentPaymentRequest.validate_eq_ok.2 (request_valid (by decide)))
    (AgentPaymentRequest.signingBytes_eq_some.2 ⟨mandate', hmandate, rfl⟩)).2 request_sole q hq
    (fun _ _ _ _ h => hexdigestBytes_inj h) hb

/-- **A signature is transplanted**: two requests that differ in their nonces have the same signing bytes, and two mandates of
different users the same canonical bytes. -/
theorem nonce_transplanted :
    ((request smile).validate .default = .ok () ∧ (request pair).validate .default = .ok () ∧
      (∃ b, (request smile).signingBytes = some b ∧ (request pair).signingBytes = some b) ∧
      (request smile).nonce ≠ (request pair).nonce) ∧
    (mandate smile).validate .default = .ok () ∧ (mandate pair).validate .default = .ok () ∧
      (∃ b, (mandate smile).canonicalBytes = some b ∧ (mandate pair).canonicalBytes = some b) ∧
      mandate smile ≠ mandate pair := by
  have hlike : utf16 pair = utf16 smile := by decide
  have hm : ∀ s, ∃ b, (mandate s).canonicalBytes = some b :=
    fun s => ⟨_, AgentMandate.canonicalBytes_eq_some.2 ⟨(by decide : JsonTree.digitsFit JsonTree.maxDigits 1 = true), rfl⟩⟩
  obtain ⟨mandate', hmandate⟩ := hm [117]
  obtain ⟨b, hb⟩ := hm smile
  refine ⟨⟨AgentPaymentRequest.validate_eq_ok.2 (request_valid (by decide)),
    AgentPaymentRequest.validate_eq_ok.2 (request_valid (by decide)), ⟨_, AgentPaymentRequest.signingBytes_eq_some.2
      ⟨mandate', hmandate, rfl⟩, AgentPaymentRequest.signingBytes_eq_some.2 ⟨mandate', hmandate, ?_⟩⟩, by decide⟩,
    AgentMandate.validate_eq_ok.2 (mandate_valid (by decide)), AgentMandate.validate_eq_ok.2 (mandate_valid (by decide)),
    ⟨b, hb, (AgentMandate.alike_iff hb).2 ?_⟩, by decide⟩
  · exact canonicalBytes_inj.2 (AgentPaymentRequest.values_alike.2
      ⟨{ AgentPaymentRequest.Alike.refl (request smile) with nonce := hlike }, rfl⟩)
  · exact { AgentMandate.Alike.refl (mandate smile) with userRef := hlike }

end Sample

end SignedEncoding

end Apar
