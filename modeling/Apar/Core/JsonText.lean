/-
The text of JSON values, as Python's `json` writes and reads it, over Python's own strings: sequences of code points in
which a surrogate may stand alone. A library: nothing here is about payments.

The writer is `json.dumps(value, sort_keys=True, separators=(",", ":"), ensure_ascii=True)`: the items of every dict are
sorted by the code points of their keys (`JsonTree.sorted`) and then written (`JsonTree.dump`); `JsonTree.plainText` is
the writer with `ensure_ascii=False`. The reader is `json.loads` with its hooks (`JsonHooks`) as parameters; it may be
given any text. Numbers with a fraction or an exponent are of a type `F` whose text is a parameter (`FloatText`,
`FloatRead`).

The reader recurses on fuel: two nested calls read a character between them, so twice the length of the text is fuel
enough.
-/
import Mathlib.Data.List.Lex
import Apar.Core.Exec
import Apar.Core.Sorting
import Apar.Core.Text

namespace Apar

/-! ## Strings -/

/-- a code point of a Python string, surrogates included -/
abbrev CodePoint := Fin 0x110000

abbrev PyStr := List CodePoint

instance codePoint_neZero : NeZero 0x110000 := ⟨by decide⟩

instance pyStr_lawful : LawfulBEq PyStr := inferInstance

namespace PyStr

def ofChar (c : Char) : CodePoint := Fin.ofNat 0x110000 c.toNat

def ofString (s : String) : PyStr := s.toList.map ofChar

def isHigh (c : CodePoint) : Bool := 0xD800 ≤ c.val && c.val ≤ 0xDBFF

def isLow (c : CodePoint) : Bool := 0xDC00 ≤ c.val && c.val ≤ 0xDFFF

/-- the code point of a surrogate pair -/
def join (h l : CodePoint) : CodePoint :=
  Fin.ofNat 0x110000 (0x10000 + (h.val - 0xD800) * 0x400 + (l.val - 0xDC00))

/-- the reader's merging of surrogate pairs, left to right -/
def joinPairs : PyStr → PyStr
  | h :: l :: rest => if isHigh h && isLow l then join h l :: joinPairs rest else h :: joinPairs (l :: rest)
  | s => s

/-- no high surrogate stands before a low one -/
def pairFree : PyStr → Bool
  | h :: l :: rest => !(isHigh h && isLow l) && pairFree (l :: rest)
  | _ => true

end PyStr

/-! ## Values -/

/-- the values `json` reads and writes; the items of a `dict` are in its order -/
inductive JsonTree (F : Type) where
  | null
  | bool (b : Bool)
  | int (n : ℤ)
  | float (x : F)
  | str (s : PyStr)
  | list (xs : List (JsonTree F))
  | dict (items : List (PyStr × JsonTree F))

/-- the text of floats -/
class FloatText (F : Type) where
  isFinite : F → Bool
  repr : F → List Char

/-- floats that are read, too: `float(text)` of a JSON number -/
class FloatRead (F : Type) extends FloatText F where
  parse : List Char → F

/-- the type of the floats of a document that has none -/
instance : FloatText Empty := ⟨Empty.elim, Empty.elim⟩

namespace JsonTree

variable {F : Type}

mutual

/-- a property of every node -/
def all (p : JsonTree F → Bool) : JsonTree F → Bool
  | .list xs => p (.list xs) && allElems p xs
  | .dict items => p (.dict items) && allItems p items
  | t => p t

def allElems (p : JsonTree F → Bool) : List (JsonTree F) → Bool
  | [] => true
  | x :: xs => all p x && allElems p xs

def allItems (p : JsonTree F → Bool) : List (PyStr × JsonTree F) → Bool
  | [] => true
  | (_, x) :: items => all p x && allItems p items

end

section

-- the equations are made here, once
attribute [local simp] all allElems allItems

end

mutual

/-- `sort_keys=True`: the items of every dict by the code points of their keys -/
def sorted : JsonTree F → JsonTree F
  | .list xs => .list (sortedElems xs)
  | .dict items => .dict (sortBy Prod.fst (sortedItems items))
  | t => t

def sortedElems : List (JsonTree F) → List (JsonTree F)
  | [] => []
  | x :: xs => sorted x :: sortedElems xs

def sortedItems : List (PyStr × JsonTree F) → List (PyStr × JsonTree F)
  | [] => []
  | (k, x) :: items => (k, sorted x) :: sortedItems items

end

section

-- the equations are made here, once
attribute [local simp] sorted sortedElems sortedItems

end

/-- a `dict` has a key once -/
def distinctKeys : JsonTree F → Bool :=
  all fun
    | .dict items => decide (items.map Prod.fst).Nodup
    | _ => true

def floatFree : JsonTree F → Bool :=
  all fun
    | .float _ => false
    | _ => true

/-- no string of the tree, key or value, has a surrogate pair in it -/
def pairFree : JsonTree F → Bool :=
  all fun
    | .str s => s.pairFree
    | .dict items => items.all fun p => p.1.pairFree
    | _ => true

/-- the interpreter's limit on the digits of an integer's text, `sys.get_int_max_str_digits()`; `none` is no limit -/
def digitsFit (limit : Option ℕ) (n : ℤ) : Bool :=
  match limit with
  | none => true
  | some m => (Decimal.natText n.natAbs).length ≤ m

def intsFit (limit : Option ℕ) : JsonTree F → Bool :=
  all fun
    | .int n => digitsFit limit n
    | _ => true

/-- Python's `==` of two trees of one type at every node: the order of a dict's items does not matter -/
inductive Equal : JsonTree F → JsonTree F → Prop
  | null : Equal .null .null
  | bool (b : Bool) : Equal (.bool b) (.bool b)
  | int (n : ℤ) : Equal (.int n) (.int n)
  | float (x : F) : Equal (.float x) (.float x)
  | str (s : PyStr) : Equal (.str s) (.str s)
  | list {xs ys : List (JsonTree F)} (hlen : xs.length = ys.length)
      (h : ∀ (i : ℕ) x y, xs[i]? = some x → ys[i]? = some y → Equal x y) : Equal (.list xs) (.list ys)
  | dict {xs ys : List (PyStr × JsonTree F)} (hkeys : ∀ k, k ∈ xs.map Prod.fst ↔ k ∈ ys.map Prod.fst)
      (h : ∀ k x y, (k, x) ∈ xs → (k, y) ∈ ys → Equal x y) : Equal (.dict xs) (.dict ys)

end JsonTree

/-! ## Writing -/

namespace JsonText

/-- one code point of an ASCII JSON string -/
def escapePoint (c : CodePoint) : List Char :=
  let n := c.val
  if n = 34 then ['\\', '"']
  else if n = 92 then ['\\', '\\']
  else if n = 10 then ['\\', 'n']
  else if n = 13 then ['\\', 'r']
  else if n = 9 then ['\\', 't']
  else if n = 12 then ['\\', 'f']
  else if n = 8 then ['\\', 'b']
  else if 32 ≤ n ∧ n ≤ 126 then [Char.ofNat n]
  else if n < 65536 then '\\' :: 'u' :: Json.hex4 n
  else '\\' :: 'u' :: Json.hex4 (55296 + (n - 65536) / 1024) ++
    '\\' :: 'u' :: Json.hex4 (56320 + (n - 65536) % 1024)

def quote (s : PyStr) : List Char := '"' :: s.flatMap escapePoint ++ ['"']

/-- one code point of a JSON string with `ensure_ascii=False`; no surrogate has a character -/
def plainPoint (c : CodePoint) : List Char :=
  if 127 ≤ c.val then [Char.ofNat c.val] else escapePoint c

def plainQuote (s : PyStr) : List Char := '"' :: s.flatMap plainPoint ++ ['"']

end JsonText

namespace JsonTree

variable {F : Type} [FloatText F]

mutual

/-- the text of a tree whose dicts are written in their order -/
def dump : JsonTree F → List Char
  | .null => "null".toList
  | .bool true => "true".toList
  | .bool false => "false".toList
  | .int n => Decimal.intText n
  | .float x => FloatText.repr x
  | .str s => JsonText.quote s
  | .list [] => ['[', ']']
  | .list (x :: xs) => '[' :: dump x ++ dumpElems xs ++ [']']
  | .dict [] => ['{', '}']
  | .dict ((k, x) :: items) => '{' :: JsonText.quote k ++ ':' :: dump x ++ dumpItems items ++ ['}']

/-- the elements after the first -/
def dumpElems : List (JsonTree F) → List Char
  | [] => []
  | x :: xs => ',' :: dump x ++ dumpElems xs

/-- the items after the first -/
def dumpItems : List (PyStr × JsonTree F) → List Char
  | [] => []
  | (k, x) :: items => ',' :: JsonText.quote k ++ ':' :: dump x ++ dumpItems items

end

section

-- the equations are made here, once
attribute [local simp] dump dumpElems dumpItems

end

/-- `json.dumps(value, sort_keys=True, separators=(",", ":"), ensure_ascii=True)` -/
def text (t : JsonTree F) : List Char := t.sorted.dump

variable (q : PyStr → List Char)

mutual

/-- the text of a tree under a spelling of its strings -/
def dumpWith : JsonTree F → List Char
  | .null => "null".toList
  | .bool true => "true".toList
  | .bool false => "false".toList
  | .int n => Decimal.intText n
  | .float x => FloatText.repr x
  | .str s => q s
  | .list [] => ['[', ']']
  | .list (x :: xs) => '[' :: dumpWith x ++ dumpElemsWith xs ++ [']']
  | .dict [] => ['{', '}']
  | .dict ((k, x) :: items) => '{' :: q k ++ ':' :: dumpWith x ++ dumpItemsWith items ++ ['}']

def dumpElemsWith : List (JsonTree F) → List Char
  | [] => []
  | x :: xs => ',' :: dumpWith x ++ dumpElemsWith xs

def dumpItemsWith : List (PyStr × JsonTree F) → List Char
  | [] => []
  | (k, x) :: items => ',' :: q k ++ ':' :: dumpWith x ++ dumpItemsWith items

end

section

-- the equations are made here, once
attribute [local simp] dumpWith dumpElemsWith dumpItemsWith

end

/-- `json.dumps(value, sort_keys=True, separators=(",", ":"), ensure_ascii=False)` -/
def plainText (t : JsonTree F) : List Char := dumpWith JsonText.plainQuote t.sorted

end JsonTree

/-! ## Reading -/

/-- what `json.loads` leaves to its caller, and the error of a text that is not JSON -/
structure JsonHooks (F ε : Type) where
  /-- `object_pairs_hook` -/
  pairs : List (PyStr × JsonTree F) → Except ε (List (PyStr × JsonTree F))
  /-- `parse_constant`, of `NaN`, `Infinity` and `-Infinity` -/
  constant : String → Except ε (JsonTree F)
  /-- `int(text)` fails beyond the interpreter's limit on digits -/
  digitLimit : Option ℕ
  tooManyDigits : ε
  malformed : ε

namespace JsonText

def isSpace (c : Char) : Bool := c = ' ' || c = '\t' || c = '\n' || c = '\r'

def skipSpace (cs : List Char) : List Char := cs.dropWhile isSpace

/-- four hexadecimal digits -/
def hexQuad (a b c d : Char) : Option CodePoint := do
  let a ← Uuid.hexValue a
  let b ← Uuid.hexValue b
  let c ← Uuid.hexValue c
  let d ← Uuid.hexValue d
  some (Fin.ofNat 0x110000 (a * 4096 + b * 256 + c * 16 + d))

/-- the character of an escape of one letter -/
def simpleEscape (e : Char) : Option CodePoint :=
  if e = '"' then some 34
  else if e = '\\' then some 92
  else if e = '/' then some 47
  else if e = 'b' then some 8
  else if e = 'f' then some 12
  else if e = 'n' then some 10
  else if e = 'r' then some 13
  else if e = 't' then some 9
  else none

/-- the units of a string up to its closing quote, an escaped surrogate being a unit of its own, and what follows -/
def scanUnits : List Char → Option (PyStr × List Char)
  | [] => none
  | '\\' :: 'u' :: a :: b :: c :: d :: cs => do
    let u ← hexQuad a b c d
    let (us, rest) ← scanUnits cs
    some (u :: us, rest)
  | '\\' :: e :: cs => do
    let u ← simpleEscape e
    let (us, rest) ← scanUnits cs
    some (u :: us, rest)
  | c :: cs =>
    if c = '"' then some ([], cs)
    -- a control character may not stand for itself
    else if c.toNat < 32 then none
    else do
      let (us, rest) ← scanUnits cs
      some (PyStr.ofChar c :: us, rest)

/-- `scanstring`, after the opening quote -/
def scanString (cs : List Char) : Option (PyStr × List Char) :=
  (scanUnits cs).map fun (us, rest) => (us.joinPairs, rest)

/-- the digits of `0|[1-9][0-9]*` -/
def scanInt : List Char → Option (List Char × List Char)
  | [] => none
  | c :: cs =>
    if c = '0' then some (['0'], cs)
    else if c.isDigit then some (c :: cs.takeWhile Char.isDigit, cs.dropWhile Char.isDigit)
    else none

/-- `(\.[0-9]+)?` -/
def scanFraction : List Char → List Char × List Char
  | [] => ([], [])
  | c :: cs =>
    if c = '.' ∧ cs.takeWhile Char.isDigit ≠ [] then ('.' :: cs.takeWhile Char.isDigit, cs.dropWhile Char.isDigit)
    else ([], c :: cs)

/-- `[-+]?` -/
def scanSign : List Char → List Char × List Char
  | [] => ([], [])
  | c :: cs => if c = '-' ∨ c = '+' then ([c], cs) else ([], c :: cs)

/-- `([eE][-+]?[0-9]+)?` -/
def scanExponent : List Char → List Char × List Char
  | [] => ([], [])
  | c :: cs =>
    let (sign, ds) := scanSign cs
    if (c = 'e' ∨ c = 'E') ∧ ds.takeWhile Char.isDigit ≠ [] then
      (c :: sign ++ ds.takeWhile Char.isDigit, ds.dropWhile Char.isDigit)
    else ([], c :: cs)

variable {F ε : Type} [FloatRead F]

/-- a number, its sign read already -/
def scanNumber (h : JsonHooks F ε) (negative : Bool) (cs : List Char) : Except ε (JsonTree F × List Char) :=
  match scanInt cs with
  | none => .error h.malformed
  | some (ds, cs) =>
    let (fraction, cs) := scanFraction cs
    let (exponent, cs) := scanExponent cs
    if fraction = [] ∧ exponent = [] then
      let n : ℤ := Nat.ofDigitChars 10 ds 0
      if JsonTree.digitsFit h.digitLimit n then .ok (.int (if negative then -n else n), cs) else .error h.tooManyDigits
    else .ok (.float (FloatRead.parse ((if negative then ['-'] else []) ++ ds ++ fraction ++ exponent)), cs)

/-- the text after a word that it starts with -/
def after (word : String) (cs : List Char) : Option (List Char) :=
  if word.toList.isPrefixOf cs then some (cs.drop word.toList.length) else none

/-- a value that is neither a string nor a container -/
def scanScalar (h : JsonHooks F ε) (cs : List Char) : Except ε (JsonTree F × List Char) :=
  match after "null" cs, after "true" cs, after "false" cs, after "NaN" cs, after "Infinity" cs, after "-Infinity" cs with
  | some rest, _, _, _, _, _ => .ok (.null, rest)
  | _, some rest, _, _, _, _ => .ok (.bool true, rest)
  | _, _, some rest, _, _, _ => .ok (.bool false, rest)
  | _, _, _, some rest, _, _ => (h.constant "NaN").map (·, rest)
  | _, _, _, _, some rest, _ => (h.constant "Infinity").map (·, rest)
  | _, _, _, _, _, some rest => (h.constant "-Infinity").map (·, rest)
  | _, _, _, _, _, _ =>
    match cs with
    | '-' :: cs => scanNumber h true cs
    | cs => scanNumber h false cs

mutual

/-- `scan_once` -/
def scanValue (h : JsonHooks F ε) : ℕ → List Char → Except ε (JsonTree F × List Char)
  | 0, _ => .error h.malformed
  | _ + 1, [] => .error h.malformed
  | fuel + 1, c :: cs =>
    if c = '"' then
      match scanString cs with
      | some (s, rest) => .ok (.str s, rest)
      | none => .error h.malformed
    else if c = '[' then
      match skipSpace cs with
      | ']' :: rest => .ok (.list [], rest)
      | cs => scanElems h fuel [] cs
    else if c = '{' then
      match skipSpace cs with
      | '}' :: rest => (h.pairs []).map fun items => (.dict items, rest)
      | cs => scanItems h fuel [] cs
    else scanScalar h (c :: cs)

/-- the elements of an array, those before it given -/
def scanElems (h : JsonHooks F ε) : ℕ → List (JsonTree F) → List Char → Except ε (JsonTree F × List Char)
  | 0, _, _ => .error h.malformed
  | fuel + 1, done, cs => do
    let (x, cs) ← scanValue h fuel cs
    match skipSpace cs with
    | ']' :: rest => .ok (.list (done ++ [x]), rest)
    | ',' :: rest => scanElems h fuel (done ++ [x]) (skipSpace rest)
    | _ => .error h.malformed

/-- the items of an object, those before it given -/
def scanItems (h : JsonHooks F ε) : ℕ → List (PyStr × JsonTree F) → List Char → Except ε (JsonTree F × List Char)
  | 0, _, _ => .error h.malformed
  | fuel + 1, done, '"' :: cs =>
    match scanString cs with
    | none => .error h.malformed
    | some (k, cs) =>
      match skipSpace cs with
      | ':' :: cs => do
        let (x, cs) ← scanValue h fuel (skipSpace cs)
        match skipSpace cs with
        | '}' :: rest => (h.pairs (done ++ [(k, x)])).map fun items => (.dict items, rest)
        | ',' :: rest => scanItems h fuel (done ++ [(k, x)]) (skipSpace rest)
        | _ => .error h.malformed
      | _ => .error h.malformed
  | _ + 1, _, _ => .error h.malformed

end

section

-- the equations are made here, once
attribute [local simp] scanValue scanElems scanItems

end

/-- `json.loads(text)` -/
def loads (h : JsonHooks F ε) (cs : List Char) : Except ε (JsonTree F) :=
  -- a byte order mark is refused
  if cs.head? = some (Char.ofNat 0xFEFF) then .error h.malformed
  else
    match scanValue h (2 * cs.length + 1) (skipSpace cs) with
    | .error e => .error e
    | .ok (t, rest) => if skipSpace rest = [] then .ok t else .error h.malformed

end JsonText

end Apar
