/-
The text of instants and of JSON strings, as Python writes them: `datetime.isoformat()` and `json.dumps` of a list of
strings. A library: nothing here is about payments.

An instant is a number of microseconds since 1970-01-01T00:00:00 UTC. The calendar date of a day number is counted from
the start of a 400-year era that begins in March, so that a leap day ends its year.
-/
import Apar.Core.Digest

namespace Apar

/-- a property of every character of a text is decided along the text, not over the alphabet -/
instance decidableChars (p : Char → Prop) [DecidablePred p] (cs : List Char) : Decidable (∀ c ∈ cs, p c) :=
  List.decidableBAll p cs

/-! ## Instants -/

namespace Calendar

/-- the year, month and day of a day number, 0 being 1970-01-01 -/
def civil (day : ℤ) : ℤ × ℤ × ℤ :=
  let z := day + 719468
  let era := z / 146097
  let doe := z % 146097
  let yoe := (doe - doe / 1460 + doe / 36524 - doe / 146096) / 365
  let doy := doe - (365 * yoe + yoe / 4 - yoe / 100)
  let mp := (5 * doy + 2) / 153
  let d := doy - (153 * mp + 2) / 5 + 1
  let m := if mp < 10 then mp + 3 else mp - 9
  (yoe + era * 400 + (if m ≤ 2 then 1 else 0), m, d)

/-- at least `width` digits -/
def padded (width : ℕ) (n : ℤ) : List Char :=
  let ds := Nat.toDigits 10 n.toNat
  List.replicate (width - ds.length) '0' ++ ds

theorem padded_inj {width m n : ℕ} (h : padded width m = padded width n) : m = n := by
  have key : ∀ k : ℕ, Nat.ofDigitChars 10 (padded width k) 0 = k := by
    intro k
    simp only [padded, Int.toNat_natCast, Nat.ofDigitChars_append, Nat.ofDigitChars_replicate_zero, mul_zero,
      Nat.ofDigitChars_ten_toDigits]
  rw [← key m, h, key n]

theorem length_padded {width n : ℕ} (hwidth : 0 < width) (h : n < 10 ^ width) : (padded width n).length = width := by
  have := Nat.toDigits_length 10 n width hwidth h
  simp only [padded, Int.toNat_natCast, List.length_append, List.length_replicate]
  omega

/-- the date and the time of day, with a fraction when there is one -/
def isoBody (micros : ℤ) : List Char :=
  let date := civil (micros / 86400000000)
  let rest := micros % 86400000000
  let seconds := rest / 1000000
  let fraction := rest % 1000000
  padded 4 date.1 ++ '-' :: padded 2 date.2.1 ++ '-' :: padded 2 date.2.2 ++ 'T' ::
    padded 2 (seconds / 3600) ++ ':' :: padded 2 (seconds / 60 % 60) ++ ':' :: padded 2 (seconds % 60) ++
    (if fraction = 0 then [] else '.' :: padded 6 fraction)

/-- `value.isoformat()` of a UTC datetime -/
def isoformat (micros : ℤ) : String := String.ofList (isoBody micros ++ "+00:00".toList)

/-- `value.isoformat().replace("+00:00", "Z")` -/
def timestampText (micros : ℤ) : String := String.ofList (isoBody micros ++ ['Z'])

example : isoformat 951782400000000 = "2000-02-29T00:00:00+00:00" := by decide +kernel

example : timestampText 1785542400000001 = "2026-08-01T00:00:00.000001Z" := by decide +kernel

end Calendar

/-! ## JSON strings -/

namespace Json

def hex4 (n : ℕ) : List Char :=
  [Uuid.hexChar (n / 4096 % 16), Uuid.hexChar (n / 256 % 16), Uuid.hexChar (n / 16 % 16), Uuid.hexChar (n % 16)]

/-- one character of an ASCII JSON string -/
def escapeChar (c : Char) : List Char :=
  let n := c.toNat
  if c = '"' then ['\\', '"']
  else if c = '\\' then ['\\', '\\']
  else if n = 10 then ['\\', 'n']
  else if n = 13 then ['\\', 'r']
  else if n = 9 then ['\\', 't']
  else if n = 12 then ['\\', 'f']
  else if n = 8 then ['\\', 'b']
  else if 32 ≤ n ∧ n ≤ 126 then [c]
  else if n < 65536 then '\\' :: 'u' :: hex4 n
  -- a surrogate pair
  else '\\' :: 'u' :: hex4 (55296 + (n - 65536) / 1024) ++ '\\' :: 'u' :: hex4 (56320 + (n - 65536) % 1024)

/-- `json.dumps(s)` -/
def quoted (s : String) : List Char := '"' :: s.toList.flatMap escapeChar ++ ['"']

/-- `json.dumps(xs)` of a tuple of strings, with the given item separator -/
def dumpTexts (separator : String) (xs : List String) : String :=
  String.ofList ('[' :: ((xs.map quoted).intersperse separator.toList).flatten ++ [']'])

example : dumpTexts ", " ["a", "b c"] = "[\"a\", \"b c\"]" := by decide +kernel

end Json

end Apar
