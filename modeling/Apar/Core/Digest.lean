/-
JSON trees and the SHA-256 digests the repository takes of their canonical text, plus the textual form of decimals and
UUIDs. A library: nothing here is about payments.

The hash is a parameter (`Sha256`): a function of the tree whose canonical text is hashed, or of raw bytes. What a proof
needs of it (no collisions) is a hypothesis of that proof.
- `Decimal.text_inj`: the text of a number of known exponent determines it.
- `formatUuid_inj`: two 128-bit integers with the same UUID text are equal.
- `formatUuid_no_colon`: a UUID text has no colon.
-/
import Apar.Core.Decimal

namespace Apar

/-! ## JSON trees and digests -/

/-- the JSON values the repository hashes -/
inductive Json where
  | null
  | bool (b : Bool)
  | int (n : ℤ)
  | str (s : String)
  | arr (xs : List Json)
  | obj (fields : List (String × Json))

namespace Json

/-- a list of string lists, the shape of every tagged payload -/
def ofRows (rows : List (List String)) : Json := .arr (rows.map fun row => .arr (row.map .str))

theorem ofRows_inj {xs ys : List (List String)} (h : ofRows xs = ofRows ys) : xs = ys := by
  have hstr : Function.Injective Json.str := fun a b h => Json.str.inj h
  have hrow : Function.Injective fun row : List String => Json.arr (row.map Json.str) := by
    intro a b h
    exact List.map_injective_iff.2 hstr (Json.arr.inj h)
  exact List.map_injective_iff.2 hrow (Json.arr.inj h)

end Json

/-- `hashlib.sha256(...).hexdigest()`, of the canonical text of a JSON tree and of raw bytes -/
class Sha256 where
  hexdigest : Json → String
  hexdigestBytes : List UInt8 → String

/-- the characters of `"0123456789abcdef"` -/
def hexChars : List Char := ['0', '1', '2', '3', '4', '5', '6', '7', '8', '9', 'a', 'b', 'c', 'd', 'e', 'f']

/-- `len(value) == 64` and every character a lowercase hexadecimal digit -/
def isDigestText (s : String) : Bool :=
  let cs := s.toList
  cs.length == 64 && cs.all hexChars.contains

theorem length_of_isDigestText {s : String} (h : isDigestText s = true) : s.toList.length = 64 := by
  unfold isDigestText at h
  simp only [Bool.and_eq_true, beq_iff_eq] at h
  exact h.1

/-! ## Text of decimals -/

namespace Decimal

/-- the characters of a natural number in base ten -/
def natText (n : ℕ) : List Char := Nat.toDigits 10 n

def intText (n : ℤ) : List Char := if n < 0 then '-' :: natText n.natAbs else natText n.natAbs

theorem natText_inj {m n : ℕ} (h : natText m = natText n) : m = n := by
  have := congrArg (Nat.ofDigitChars 10 · 0) h
  simpa only [natText, Nat.ofDigitChars_ten_toDigits] using this

theorem intText_inj {m n : ℤ} (h : intText m = intText n) : m = n := by
  have hsign : ∀ (k l : ℕ), '-' :: natText k ≠ natText l := by
    intro k l hkl
    have := Nat.isDigit_of_mem_toDigits (b := 10) (by norm_num) (by norm_num) (hkl ▸ List.mem_cons_self : '-' ∈ natText l)
    exact absurd this (by decide)
  unfold intText at h
  split_ifs at h
  · have := natText_inj (List.cons.inj h).2
    omega
  · exact absurd h (hsign _ _)
  · exact absurd h.symm (hsign _ _)
  · have := natText_inj h
    omega

/-- `str(d)`: to-scientific-string -/
def text (d : Decimal) : String :=
  let ds := natText d.coeff.natAbs
  let adjusted : ℤ := d.exp + (ds.length - 1)
  let body :=
    if d.exp ≤ 0 ∧ -6 ≤ adjusted then
      if d.exp = 0 then ds
      else
        let dot : ℤ := ds.length + d.exp
        if 0 < dot then ds.take dot.toNat ++ '.' :: ds.drop dot.toNat
        else '0' :: '.' :: (List.replicate (-dot).toNat '0' ++ ds)
    else
      let mantissa := match ds with
        | c :: rest@(_ :: _) => c :: '.' :: rest
        | _ => ds
      mantissa ++ 'E' :: (if 0 ≤ adjusted then '+' :: natText adjusted.natAbs else intText adjusted)
  String.ofList (if d.coeff < 0 then '-' :: body else body)

example : text ⟨1234, -2⟩ = "12.34" ∧ text ⟨5, -3⟩ = "0.005" ∧ text ⟨12, 3⟩ = "1.2E+4" := by decide

/-- the digits of a text, read as a number -/
def readDigits (cs : List Char) : ℕ := Nat.ofDigitChars 10 (cs.filter (· ≠ '.')) 0

theorem natText_ne_dot {n : ℕ} {c : Char} (h : c ∈ natText n) : c ≠ '.' := by
  rintro rfl
  have := Nat.isDigit_of_mem_toDigits (by norm_num) (by norm_num) h
  revert this
  decide

theorem readDigits_text {d : Decimal} (hc : 0 ≤ d.coeff) (hexp : d.exp ≤ 0) (hsmall : -6 ≤ d.exp) :
    readDigits d.text.toList = d.coeff.natAbs := by
  have hlen : 0 < (natText d.coeff.natAbs).length := Nat.length_toDigits_pos
  have hplain : d.exp ≤ 0 ∧ -6 ≤ d.exp + ((natText d.coeff.natAbs).length - 1 : ℤ) := ⟨hexp, by omega⟩
  have hkeep : ∀ l : List Char, (∀ c ∈ l, c ∈ natText d.coeff.natAbs) → l.filter (· ≠ '.') = l := by
    intro l hl
    rw [List.filter_eq_self]
    exact fun c hc => decide_eq_true (natText_ne_dot (hl c hc))
  have hdigits : Nat.ofDigitChars 10 (natText d.coeff.natAbs) 0 = d.coeff.natAbs := Nat.ofDigitChars_ten_toDigits
  unfold text readDigits
  simp only [not_lt.2 hc, if_false, String.toList_ofList, if_pos hplain]
  split_ifs with hzero hdot
  · rw [hkeep _ fun c hc => hc, hdigits]
  · rw [List.filter_append, List.filter_cons, hkeep _ fun c hc => List.mem_of_mem_take hc,
      hkeep _ fun c hc => List.mem_of_mem_drop hc]
    simp [hdigits]
  · have hzeros : ∀ n : ℕ, (List.replicate n '0').filter (· ≠ '.') = List.replicate n '0' := by
      intro n
      rw [List.filter_eq_self]
      intro c hc
      rw [List.eq_of_mem_replicate hc]
      decide
    rw [List.filter_cons, List.filter_cons, List.filter_append, hzeros, hkeep _ fun c hc => hc]
    simp [Nat.ofDigitChars_cons, Nat.ofDigitChars_append, hdigits]

/-- **Text is injective** on numbers of one exponent down to -6, the range of plain notation -/
theorem text_inj {a b : Decimal} (ha : 0 ≤ a.coeff) (hb : 0 ≤ b.coeff) (hexp : a.exp = b.exp) (hle : b.exp ≤ 0)
    (hsmall : -6 ≤ b.exp) (h : a.text = b.text) : a = b := by
  have hread := readDigits_text ha (hexp ▸ hle) (hexp ▸ hsmall)
  rw [h, readDigits_text hb hle hsmall] at hread
  obtain ⟨m, e⟩ := a
  obtain ⟨n, e'⟩ := b
  simp only at ha hb hexp hread
  rw [hexp, show m = n by omega]

end Decimal

/-! ## UUIDs -/

namespace Uuid

def hexChar (n : ℕ) : Char := (hexChars[n]?).getD '0'

/-- the 32 hexadecimal digits of a 128-bit integer -/
def hexDigits (n : ℕ) : List Char := (List.range 32).map fun i => hexChar (n / 16 ^ (31 - i) % 16)

/-- insert the dashes of the 8-4-4-4-12 form -/
def dashed (ds : List Char) : List Char :=
  ds.take 8 ++ '-' :: ((ds.drop 8).take 4 ++ '-' :: ((ds.drop 12).take 4 ++ '-' ::
    ((ds.drop 16).take 4 ++ '-' :: ds.drop 20)))

/-- `str(UUID(int=n))` -/
def formatUuid (n : ℕ) : String := String.ofList (dashed (hexDigits n))

/-- `s.replace(pat, "")`; the counter skips the rest of a match -/
def removeAll (pat : List Char) : ℕ → List Char → List Char
  | _, [] => []
  | k + 1, _ :: cs => removeAll pat k cs
  | 0, c :: cs => if pat.isPrefixOf (c :: cs) then removeAll pat (pat.length - 1) cs else c :: removeAll pat 0 cs

def hexValue (c : Char) : Option ℕ :=
  if '0' ≤ c ∧ c ≤ '9' then some (c.toNat - '0'.toNat)
  else if 'a' ≤ c ∧ c ≤ 'f' then some (c.toNat - 'a'.toNat + 10)
  else if 'A' ≤ c ∧ c ≤ 'F' then some (c.toNat - 'A'.toNat + 10)
  else none

/-- `UUID(text)`: a 32-digit hexadecimal string; braces, hyphens and a URN prefix are optional -/
def parseUuid (s : String) : Option ℕ :=
  let cs := removeAll "uuid:".toList 0 (removeAll "urn:".toList 0 s.toList)
  let brace : Char → Bool := fun c => c == '{' || c == '}'
  let cs := (((cs.dropWhile brace).reverse.dropWhile brace).reverse).filter (· ≠ '-')
  if cs.length = 32 then cs.foldl (fun acc c => acc.bind fun n => (hexValue c).map (16 * n + ·)) (some 0) else none

/-- `UUID.version`, which only an RFC 4122 variant has -/
def version (n : ℕ) : Option ℕ := if n / 2 ^ 62 % 4 = 2 then some (n / 2 ^ 76 % 16) else none

theorem hexChar_inj {m n : ℕ} (hm : m < 16) (hn : n < 16) (h : hexChar m = hexChar n) : m = n := by
  have key : ∀ a < 16, ∀ b < 16, hexChar a = hexChar b → a = b := by decide
  exact key m hm n hn h

theorem length_hexDigits (n : ℕ) : (hexDigits n).length = 32 := by simp [hexDigits]

/-- the digits of a number in a base determine it below the power of the base -/
theorem mod_pow_eq_of_digits {b : ℕ} (m n : ℕ) :
    ∀ k, (∀ i < k, m / b ^ i % b = n / b ^ i % b) → m % b ^ k = n % b ^ k
  | 0, _ => by simp [Nat.mod_one]
  | k + 1, h => by
    rw [Nat.mod_pow_succ, Nat.mod_pow_succ, mod_pow_eq_of_digits m n k fun i hi => h i (by omega), h k (by omega)]

theorem hexDigits_inj {m n : ℕ} (hm : m < 2 ^ 128) (hn : n < 2 ^ 128) (h : hexDigits m = hexDigits n) : m = n := by
  have key : m % 16 ^ 32 = n % 16 ^ 32 := by
    apply mod_pow_eq_of_digits
    intro i hi
    have hget := congrArg (fun l => l[31 - i]?) h
    have e : 31 - (31 - i) = i := by omega
    simp only [hexDigits, List.getElem?_map, List.getElem?_range (show 31 - i < 32 by omega), Option.map_some,
      Option.some.injEq, e] at hget
    exact hexChar_inj (Nat.mod_lt _ (by norm_num)) (Nat.mod_lt _ (by norm_num)) hget
  have e : (16 : ℕ) ^ 32 = 2 ^ 128 := by norm_num
  rwa [e, Nat.mod_eq_of_lt hm, Nat.mod_eq_of_lt hn] at key

theorem length_dashed {ds : List Char} (h : ds.length = 32) : (dashed ds).length = 36 := by
  simp [dashed, h]

theorem dashed_inj {a b : List Char} (ha : a.length = 32) (hb : b.length = 32) (h : dashed a = dashed b) : a = b := by
  have take_eq : ∀ {xs ys us vs : List Char} {c : Char}, xs.length = ys.length →
      xs ++ c :: us = ys ++ c :: vs → xs = ys ∧ us = vs := by
    intro xs ys us vs c hl he
    obtain ⟨h1, h2⟩ := List.append_inj he hl
    exact ⟨h1, by simpa using h2⟩
  obtain ⟨h1, h⟩ := take_eq (by simp [ha, hb]) h
  obtain ⟨h2, h⟩ := take_eq (by simp [ha, hb]) h
  obtain ⟨h3, h⟩ := take_eq (by simp [ha, hb]) h
  obtain ⟨h4, h5⟩ := take_eq (by simp [ha, hb]) h
  have split : ∀ l : List Char, l = l.take 8 ++ ((l.drop 8).take 4 ++ ((l.drop 12).take 4 ++
      ((l.drop 16).take 4 ++ l.drop 20))) := by
    intro l
    have e : ∀ i j, (l.drop i).take j ++ l.drop (i + j) = l.drop i := by
      intro i j; rw [← List.drop_drop]; exact List.take_append_drop j _
    rw [e 16 4, e 12 4, e 8 4, List.take_append_drop]
  rw [split a, split b, h1, h2, h3, h4, h5]

theorem length_formatUuid (n : ℕ) : (formatUuid n).toList.length = 36 := by
  simp [formatUuid, length_dashed (length_hexDigits n)]

/-- **UUID text is injective** on 128-bit integers -/
theorem formatUuid_inj {m n : ℕ} (hm : m < 2 ^ 128) (hn : n < 2 ^ 128) (h : formatUuid m = formatUuid n) : m = n := by
  have h' : dashed (hexDigits m) = dashed (hexDigits n) := by
    have := congrArg String.toList h
    simpa [formatUuid] using this
  exact hexDigits_inj hm hn (dashed_inj (length_hexDigits m) (length_hexDigits n) h')

/-- UUID text has no colon, so a suffix after one splits off -/
theorem formatUuid_no_colon (n : ℕ) : ':' ∉ (formatUuid n).toList := by
  have hdigit : ∀ c ∈ hexDigits n, c ≠ ':' := by
    intro c hc
    obtain ⟨i, -, rfl⟩ := List.mem_map.1 hc
    have key : ∀ a < 16, hexChar a ≠ ':' := by decide
    exact key _ (Nat.mod_lt _ (by norm_num))
  have htake : ∀ i j, ':' ∉ ((hexDigits n).drop i).take j := fun i j h =>
    hdigit _ (List.mem_of_mem_drop (List.mem_of_mem_take h)) rfl
  have hfirst : ':' ∉ (hexDigits n).take 8 := fun h => hdigit _ (List.mem_of_mem_take h) rfl
  have hlast : ':' ∉ (hexDigits n).drop 20 := fun h => hdigit _ (List.mem_of_mem_drop h) rfl
  simp [formatUuid, dashed, hfirst, hlast, htake]

example : formatUuid 0x00112233445566778899aabbccddeeff = "00112233-4455-6677-8899-aabbccddeeff" := by decide
example : parseUuid "00112233-4455-6677-8899-aabbccddeeff" = some 0x00112233445566778899aabbccddeeff := by decide

end Uuid

end Apar
