import RLFinder.Theory.Numeral

/-!
# Strings and scanners

What the app relies on of Unicode (`UnicodeData`: upper-casing and the counting of characters, whose
tables grow from one version to the next) and of `Scanner` (`scanHexInt32`). A string is the list of
its Unicode scalars.
-/

namespace RLFinder

/-- The Unicode tables of a Swift run-time, with what every version promises of ASCII. -/
structure UnicodeData where
  /-- The full upper-case mapping of a scalar, which may be several scalars. -/
  upperMapping : Char → List Char
  /-- The number of characters: a character is a cluster of scalars. -/
  characterCount : List Char → Nat
  upperMapping_ascii : ∀ c : Char, c.toNat < 128 → upperMapping c = [c.toUpper]
  /-- The only cluster of ASCII scalars is a carriage return with its line feed. -/
  characterCount_ascii : ∀ s : List Char, (∀ c ∈ s, c.toNat < 128 ∧ c ≠ '\r') →
    characterCount s = s.length

/-- `uppercased()` -/
def UnicodeData.uppercased (u : UnicodeData) (s : List Char) : List Char := s.flatMap u.upperMapping

/-! ## Scanning -/

namespace Scanner

/-- `CharacterSet.whitespacesAndNewlines`, the characters a scanner skips. -/
def isWhitespaceOrNewline (c : Char) : Bool :=
  let n := c.toNat
  0x9 ≤ n && n ≤ 0xD || n = 0x20 || n = 0x85 || n = 0xA0 || n = 0x1680 ||
    0x2000 ≤ n && n ≤ 0x200A || n = 0x2028 || n = 0x2029 || n = 0x202F || n = 0x205F || n = 0x3000

def hexDigitValue (c : Char) : Option Nat :=
  if '0' ≤ c ∧ c ≤ '9' then some (c.toNat - '0'.toNat)
  else if 'A' ≤ c ∧ c ≤ 'F' then some (c.toNat - 'A'.toNat + 10)
  else if 'a' ≤ c ∧ c ≤ 'f' then some (c.toNat - 'a'.toNat + 10)
  else none

def skipHexPrefix : List Char → List Char
  | '0' :: 'x' :: s => s
  | '0' :: 'X' :: s => s
  | s => s

/-- The longest run of hexadecimal digits. -/
def hexDigits : List Char → List Nat
  | [] => []
  | c :: s =>
    match hexDigitValue c with
    | some d => d :: hexDigits s
    | none => []

/-- `scanHexInt32`: the number read, `none` when there is no digit. A number that does not fit is
read as the largest that does. -/
def scanHexInt32 (s : List Char) : Option UInt32 :=
  match hexDigits (skipHexPrefix (s.dropWhile isWhitespaceOrNewline)) with
  | [] => none
  | digits => some (UInt32.ofNat (min (Numeral.value 16 digits) (UInt32.size - 1)))

end Scanner
end RLFinder
