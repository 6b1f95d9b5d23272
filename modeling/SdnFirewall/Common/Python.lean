import Mathlib.Data.List.Basic
import Mathlib.Data.Rat.Defs

/-!
# Python values

The parts of Python's standard library that request handling leans on: `str.strip`, `int(...)`,
`ipaddress.IPv4Address`, decoded JSON values, and the exceptions they raise.
-/

namespace Python

/-- Exceptions, by class; `reError` is `re.error`, which is not a `ValueError`. Classes that nothing
here handles by name are `other`. -/
inductive Exc where
  | valueError (msg : String)
  | typeError
  | attributeError
  | overflowError
  | recursionError
  | runtimeError (msg : String)
  | reError (msg : String)
  | osError (msg : String)
  | other (name : String)
deriving DecidableEq

/-! ## Calls that return -/

section Returns

variable {α β ε : Type}

/-- A sequence that returns has a first call that returns. -/
theorem exists_of_bind_eq_ok {x : Except ε α} {f : α → Except ε β} {b : β}
    (h : x >>= f = .ok b) : ∃ a, x = .ok a ∧ f a = .ok b := by
  cases x with
  | error e => cases h
  | ok a => exact ⟨a, rfl, h⟩

/-- A list of results comes from the elements of the list that was mapped. -/
theorem mem_mapM {f : α → Except ε β} {l : List α} {l' : List β} (h : l.mapM f = .ok l') {b : β}
    (hb : b ∈ l') : ∃ a ∈ l, f a = .ok b := by
  induction l generalizing l' with
  | nil =>
      rw [List.mapM_nil] at h
      cases h
      exact absurd hb List.not_mem_nil
  | cons a l ih =>
      rw [List.mapM_cons] at h
      obtain ⟨b', hf, h⟩ := exists_of_bind_eq_ok h
      obtain ⟨bs, hl, h⟩ := exists_of_bind_eq_ok h
      cases h
      rcases List.mem_cons.mp hb with rfl | hb
      · exact ⟨a, List.mem_cons_self, hf⟩
      · obtain ⟨a', ha', hfa⟩ := ih hl hb
        exact ⟨a', List.mem_cons_of_mem _ ha', hfa⟩

/-- What the results are read for stands in the order of the list that was mapped. -/
theorem map_of_mapM {γ : Type} {f : α → Except ε β} {g : β → γ} {g' : α → γ}
    (hf : ∀ a b, f a = .ok b → g b = g' a) {l : List α} {l' : List β}
    (h : l.mapM f = .ok l') : l'.map g = l.map g' := by
  induction l generalizing l' with
  | nil =>
      rw [List.mapM_nil] at h
      cases h
      rfl
  | cons a l ih =>
      rw [List.mapM_cons] at h
      obtain ⟨b, hb, h⟩ := exists_of_bind_eq_ok h
      obtain ⟨bs, hl, h⟩ := exists_of_bind_eq_ok h
      cases h
      rw [List.map_cons, List.map_cons, hf a b hb, ih hl]

end Returns

/-! ## Strings -/

/-- `str.isspace` on one character. -/
def isSpace (c : Char) : Bool :=
  let n := c.toNat
  (0x9 ≤ n ∧ n ≤ 0xd) ∨ (0x1c ≤ n ∧ n ≤ 0x20) ∨ n = 0x85 ∨ n = 0xa0 ∨ n = 0x1680 ∨
    (0x2000 ≤ n ∧ n ≤ 0x200a) ∨ n = 0x2028 ∨ n = 0x2029 ∨ n = 0x202f ∨ n = 0x205f ∨ n = 0x3000

/-- White space around a numeral. `int` reads ASCII text as C does, to which the four separators
from U+001C on are not space; of other characters it takes those that `str.isspace` does. -/
def isIntSpace (c : Char) : Bool := isSpace c ∧ ¬ (0x1c ≤ c.toNat ∧ c.toNat ≤ 0x1f)

/-- The characters between the white space at both ends. -/
def stripChars (space : Char → Bool) (cs : List Char) : List Char :=
  ((cs.dropWhile space).reverse.dropWhile space).reverse

/-- `str.strip`. -/
def strip (s : String) : String := String.ofList (stripChars isSpace s.toList)

/-- A stripped string does not end in white space. -/
theorem isSpace_of_getLast?_strip {s : String} {c : Char} (h : (strip s).toList.getLast? = some c) :
    isSpace c = false := by
  have hhead := List.head?_dropWhile_not isSpace (s.toList.dropWhile isSpace).reverse
  rw [strip, String.toList_ofList, stripChars, List.getLast?_reverse] at h
  rw [h] at hhead
  exact hhead

/-- The zeros of the decimal digit blocks of Unicode 15. -/
def digitZeros : List ℕ :=
  [0x30, 0x660, 0x6f0, 0x7c0, 0x966, 0x9e6, 0xa66, 0xae6, 0xb66, 0xbe6, 0xc66, 0xce6, 0xd66,
   0xde6, 0xe50, 0xed0, 0xf20, 0x1040, 0x1090, 0x17e0, 0x1810, 0x1946, 0x19d0, 0x1a80, 0x1a90,
   0x1b50, 0x1bb0, 0x1c40, 0x1c50, 0xa620, 0xa8d0, 0xa900, 0xa9d0, 0xa9f0, 0xaa50, 0xabf0,
   0xff10, 0x104a0, 0x10d30, 0x11066, 0x110f0, 0x11136, 0x111d0, 0x112f0, 0x11450, 0x114d0,
   0x11650, 0x116c0, 0x11730, 0x118e0, 0x11950, 0x11c50, 0x11d50, 0x11da0, 0x11f50, 0x16a60,
   0x16ac0, 0x16b50, 0x1d7ce, 0x1d7d8, 0x1d7e2, 0x1d7ec, 0x1d7f6, 0x1e140, 0x1e2f0, 0x1e4f0,
   0x1e950, 0x1fbf0]

/-- The value of a decimal digit of any script. -/
def digit? (c : Char) : Option ℕ :=
  (digitZeros.find? fun z => z ≤ c.toNat ∧ c.toNat ≤ z + 9).map (c.toNat - ·)

/-- Digits after the first one, with single underscores between digits; the running value and
the number of digits read so far. -/
def moreDigits (acc count : ℕ) : List Char → Option (ℕ × ℕ)
  | [] => some (acc, count)
  | '_' :: c :: cs => (digit? c).bind fun d => moreDigits (acc * 10 + d) (count + 1) cs
  | c :: cs => (digit? c).bind fun d => moreDigits (acc * 10 + d) (count + 1) cs

/-- An unsigned decimal numeral; more than 4300 digits are refused. -/
def unsigned? : List Char → Option ℕ
  | [] => none
  | c :: cs => do
    let d ← digit? c
    let (n, count) ← moreDigits d 1 cs
    if count ≤ 4300 then some n else none

/-- `int(s)` on a string: `none` is a `ValueError`. -/
def intOfString (s : String) : Option ℤ :=
  match stripChars isIntSpace s.toList with
  | '-' :: cs => (unsigned? cs).map fun n => -(n : ℤ)
  | '+' :: cs => (unsigned? cs).map fun n => (n : ℤ)
  | cs => (unsigned? cs).map fun n => (n : ℤ)

example : intOfString "\t+1_0\u00a0" = some 10 ∧ intOfString "\x1c2" = none := by decide +kernel

/-- One octet of a dotted quad: one to three ASCII digits, no leading zero, at most 255. -/
def octetOk (cs : List Char) : Bool :=
  cs ≠ [] ∧ cs.all Char.isDigit ∧ cs.length ≤ 3 ∧ (cs = ['0'] ∨ cs.head? ≠ some '0') ∧
    cs.foldl (fun n c => n * 10 + (c.toNat - '0'.toNat)) 0 ≤ 255

/-- Does `ipaddress.IPv4Address(s)` accept the string? -/
def ipv4AddressOk (s : String) : Bool :=
  let octets := s.toList.splitOn '.'
  octets.length = 4 ∧ octets.all octetOk

/-- The text of a list of integers, as `str(list)` writes it. -/
def listText (l : List ℕ) : String :=
  "[" ++ ", ".intercalate (l.map toString) ++ "]"

/-! ## Decoded JSON -/

/-- A float, up to its exact value. -/
inductive PyFloat where
  | fin (q : ℚ)
  | inf (negative : Bool)
  | nan
deriving DecidableEq

/-- The result of `json.loads`. An object keeps its members in textual order; of two members with
one name the later counts. -/
inductive Json where
  | null
  | bool (b : Bool)
  | int (z : ℤ)
  | float (x : PyFloat)
  | str (s : String)
  | arr (items : List Json)
  | obj (members : List (String × Json))

namespace Json

/-- `bool(x)`. -/
def truthy : Json → Bool
  | null => false
  | bool b => b
  | int z => z ≠ 0
  | float (.fin q) => q ≠ 0
  | float _ => true
  | str s => s ≠ ""
  | arr items => !items.isEmpty
  | obj members => !members.isEmpty

/-- `x.get(key, default)`: only an object has the method. -/
def get (x : Json) (key : String) (default : Json) : Except Exc Json :=
  match x with
  | obj members =>
    .ok (((members.reverse.find? fun m => m.1 = key).map Prod.snd).getD default)
  | _ => .error .attributeError

/-- The string a string method is called on; other values have no such method. -/
def asStr : Json → Except Exc String
  | str s => .ok s
  | _ => .error .attributeError

/-- `int(x)`, rounding a float towards zero. -/
def toInt : Json → Except Exc ℤ
  | null => .error .typeError
  | bool b => .ok (if b then 1 else 0)
  | int z => .ok z
  | float (.fin q) => .ok (q.num.tdiv q.den)
  | float (.inf _) => .error .overflowError
  | float .nan => .error (.valueError "cannot convert float NaN to integer")
  | str s =>
    match intOfString s with
    | some z => .ok z
    | none => .error (.valueError "invalid literal for int() with base 10")
  | arr _ => .error .typeError
  | obj _ => .error .typeError

end Json

end Python
