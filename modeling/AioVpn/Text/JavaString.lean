import Mathlib.Data.List.DropRight
import Mathlib.Tactic

/-!
# Java strings and the text primitives of the two line scanners

A Java string is a list of 16-bit code units.  The configuration parser and the
split-tunnelling rewriter cut the same text with different library functions ---
Java's `trim` and `BufferedReader.readLine` on one side, Kotlin's `trim` and
`lines` on the other --- and the two differ on characters that a reader does not
see.  Each is therefore modelled under its own name.

* `javaTrim` cuts code units up to `U+0020`; `kotlinTrim` cuts Unicode white
  space, which contains `U+00A0` and leaves most control characters alone.
* `readLines` is the sequence of `BufferedReader.readLine` results; `lines` is
  Kotlin's `lines`, which also reports the empty line after a final terminator.
* `equalsIgnoreCase` and `startsWithIgnoreCase` compare with an ASCII pattern.
  Java upper-cases and then lower-cases each pair of characters, so four
  characters outside ASCII match an ASCII letter; `foldCase` has them.
* `isWord` and `isSpace` are the regular-expression classes `\w` and `\s` as
  `java.util.regex` documents them.
* `parseInt` is `Integer.parseInt` in radix ten, Unicode digits included.
-/

namespace AioVpn

/-- A UTF-16 code unit. -/
abbrev JChar := UInt16

/-- A Java string. -/
abbrev JString := List JChar

/-- The code unit of a character of the basic plane. -/
def ch (c : Char) : JChar := UInt16.ofNat c.toNat

/-- A string literal. -/
def jstr (s : String) : JString := s.toList.map ch

namespace JChar

/-- `c <= ' '`, the test of `String.trim`. -/
def isTrimmed (c : JChar) : Bool := c.toNat ≤ 0x20

/-- Kotlin's `Char.isWhitespace`: `Character.isWhitespace` or
`Character.isSpaceChar`. -/
def isKotlinWhitespace (c : JChar) : Bool :=
  let n := c.toNat
  (0x9 ≤ n && n ≤ 0xd) || (0x1c ≤ n && n ≤ 0x20) || n = 0xa0 || n = 0x1680 ||
    (0x2000 ≤ n && n ≤ 0x200a) || n = 0x2028 || n = 0x2029 || n = 0x202f || n = 0x205f ||
    n = 0x3000

/-- The regular-expression class `\s`. -/
def isSpace (c : JChar) : Bool :=
  let n := c.toNat
  (0x9 ≤ n && n ≤ 0xd) || n = 0x20

/-- An upper-case ASCII letter. -/
def isUpper (c : JChar) : Bool := 0x41 ≤ c.toNat && c.toNat ≤ 0x5a

/-- A lower-case ASCII letter. -/
def isLower (c : JChar) : Bool := 0x61 ≤ c.toNat && c.toNat ≤ 0x7a

/-- An ASCII digit. -/
def isDigit (c : JChar) : Bool := 0x30 ≤ c.toNat && c.toNat ≤ 0x39

/-- The regular-expression class `\w`. -/
def isWord (c : JChar) : Bool := c.isUpper || c.isLower || c.isDigit || c = ch '_'

/-- `Character.toLowerCase` on ASCII. -/
def toLower (c : JChar) : JChar := if c.isUpper then c + 0x20 else c

/-- The case folding under which a character matches an ASCII pattern.  Besides
the ASCII letters, the dotted and dotless i of Turkish match `i`, the long s
matches `s` and the Kelvin sign matches `k`. -/
def foldCase (c : JChar) : JChar :=
  if c = 0x130 || c = 0x131 then ch 'i'
  else if c = 0x17f then ch 's'
  else if c = 0x212a then ch 'k'
  else c.toLower

/-- The zeros of the decimal digit runs of the basic plane. -/
def digitZeros : List ℕ :=
  [0x30, 0x660, 0x6f0, 0x7c0, 0x966, 0x9e6, 0xa66, 0xae6, 0xb66, 0xbe6, 0xc66, 0xce6, 0xd66,
    0xde6, 0xe50, 0xed0, 0xf20, 0x1040, 0x1090, 0x17e0, 0x1810, 0x1946, 0x19d0, 0x1a80, 0x1a90,
    0x1b50, 0x1bb0, 0x1c40, 0x1c50, 0xa620, 0xa8d0, 0xa900, 0xa9d0, 0xa9f0, 0xaa50, 0xabf0,
    0xff10]

/-- `Character.digit(c, 10)`. -/
def digit (c : JChar) : Option ℕ :=
  (digitZeros.find? fun z => z ≤ c.toNat && c.toNat < z + 10).map fun z => c.toNat - z

/-- A character that ends a line. -/
def isLineEnd (c : JChar) : Bool := c = ch '\n' || c = ch '\r'

theorem bounds_of_isWord {c : JChar} (h : c.isWord = true) : 0x30 ≤ c.toNat ∧ c.toNat < 0x80 := by
  simp only [isWord, isUpper, isLower, isDigit, Bool.or_eq_true, Bool.and_eq_true,
    decide_eq_true_eq] at h
  rcases h with ((h | h) | h) | rfl
  · omega
  · omega
  · omega
  · decide

/-- Above the blank there is no white space and no line end. -/
theorem visible_of_lt {c : JChar} (h : 0x20 < c.toNat) :
    c.isSpace = false ∧ c.isTrimmed = false ∧ c.isLineEnd = false := by
  refine ⟨?_, ?_, ?_⟩
  · simp only [isSpace, Bool.or_eq_false_iff, Bool.and_eq_false_iff, decide_eq_false_iff_not]
    omega
  · rw [isTrimmed, decide_eq_false_iff_not]
    omega
  · rw [isLineEnd, Bool.or_eq_false_iff, decide_eq_false_iff_not, decide_eq_false_iff_not]
    refine ⟨?_, ?_⟩
    · rintro rfl
      revert h
      decide
    · rintro rfl
      revert h
      decide

end JChar

namespace JString

/-- Cut the characters of a class off both ends. -/
def trimBy (p : JChar → Bool) (s : JString) : JString := (s.dropWhile p).rdropWhile p

/-- Java's `String.trim`. -/
def javaTrim (s : JString) : JString := trimBy JChar.isTrimmed s

/-- Kotlin's `String.trim`. -/
def kotlinTrim (s : JString) : JString := trimBy JChar.isKotlinWhitespace s

/-- Kotlin's `String.isBlank`. -/
def isBlank (s : JString) : Bool := s.all JChar.isKotlinWhitespace

/-- `s?.takeIf { it.isNotBlank() }`: what is left of `s` when `s.isNullOrBlank()` is
excluded. -/
def takeIfNotBlank (s : Option JString) : Option JString := s.filter fun s => !isBlank s

/-- `s.equalsIgnoreCase(pattern)`, the pattern being ASCII. -/
def equalsIgnoreCase (s pattern : JString) : Bool :=
  s.map JChar.foldCase == pattern.map JChar.foldCase

/-- `s.startsWith(pattern, ignoreCase = true)`, the pattern being ASCII. -/
def startsWithIgnoreCase (s pattern : JString) : Bool :=
  equalsIgnoreCase (s.take pattern.length) pattern

/-- `String.toLowerCase(Locale.ENGLISH)` on ASCII. -/
def toLowerCase (s : JString) : JString := s.map JChar.toLower

/-- Put a character in front of the first line. -/
def consHead (c : JChar) : List JString → List JString
  | [] => [[c]]
  | l :: ls => (c :: l) :: ls

/-- The results of `BufferedReader.readLine` up to the end of the text. -/
def readLines : JString → List JString
  | [] => []
  | [c] => if c.isLineEnd then [[]] else [[c]]
  | c :: d :: s =>
      if c = ch '\r' && d = ch '\n' then [] :: readLines s
      else if c.isLineEnd then [] :: readLines (d :: s)
      else consHead c (readLines (d :: s))

/-- Kotlin's `String.lines`. -/
def lines : JString → List JString
  | [] => [[]]
  | [c] => if c.isLineEnd then [[], []] else [[c]]
  | c :: d :: s =>
      if c = ch '\r' && d = ch '\n' then [] :: lines s
      else if c.isLineEnd then [] :: lines (d :: s)
      else consHead c (lines (d :: s))

/-- Kotlin's `joinToString(separator)`. -/
def joinToString (separator : JString) (parts : List JString) : JString :=
  separator.intercalate parts

/-- The value of a digit string, most significant digit first. -/
def parseDigits (s : JString) : Option ℕ :=
  if s = [] then none
  else s.foldlM (fun acc c => c.digit.map fun d => 10 * acc + d) 0

/-- `Integer.parseInt(s)`; `none` is a `NumberFormatException`. -/
def parseInt (s : JString) : Option ℤ :=
  match s with
  | [] => none
  | c :: rest =>
      if c.toNat < 0x30 then
        if c = ch '-' then
          (parseDigits rest).bind fun n => if n ≤ 2 ^ 31 then some (-(n : ℤ)) else none
        else if c = ch '+' then
          (parseDigits rest).bind fun n => if n < 2 ^ 31 then some (n : ℤ) else none
        else none
      else
        (parseDigits s).bind fun n => if n < 2 ^ 31 then some (n : ℤ) else none

@[simp] theorem takeIfNotBlank_none : takeIfNotBlank none = none := rfl

theorem takeIfNotBlank_eq_some {s : Option JString} {t : JString} :
    takeIfNotBlank s = some t ↔ s = some t ∧ isBlank t = false := by
  rw [takeIfNotBlank, Option.filter_eq_some_iff, Bool.not_eq_true']

theorem takeIfNotBlank_some {s : JString} (h : isBlank s = false) :
    takeIfNotBlank (some s) = some s :=
  takeIfNotBlank_eq_some.mpr ⟨rfl, h⟩

end JString
end AioVpn
