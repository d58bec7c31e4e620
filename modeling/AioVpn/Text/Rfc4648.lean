import AioVpn.Text.JavaString

/-!
# The base encodings of RFC 4648

Base 64 and base 16 of a list of bytes, as the RFC describes them.  Three bytes are a group of
24 bits, read as four groups of six bits, each of which is a character of the alphabet
(`quantum`); one or two bytes at the end are filled up with zero bits, and the characters that
would hold fill bits only are `=`.  In base 16 a byte is two characters; the alphabet here is
the lower-case one.

`base64Value` is the place of a character in the alphabet, and `base64Value_base64Char` says that it
undoes `base64Char`.
-/

namespace AioVpn
namespace Rfc4648

/-! ## Base 64 -/

/-- The base 64 alphabet. -/
def base64Alphabet : JString :=
  jstr "ABCDEFGHIJKLMNOPQRSTUVWXYZabcdefghijklmnopqrstuvwxyz0123456789+/"

/-- The character of six bits. -/
def base64Char (v : BitVec 6) : JChar := base64Alphabet.getD v.toNat 0

/-- Three bytes as four groups of six bits. -/
def quantum (b₀ b₁ b₂ : BitVec 8) : List (BitVec 6) :=
  let bits := b₀ ++ b₁ ++ b₂
  [bits.extractLsb' 18 6, bits.extractLsb' 12 6, bits.extractLsb' 6 6, bits.extractLsb' 0 6]

/-- The base 64 encoding. -/
def base64 : List (BitVec 8) → JString
  | [] => []
  | [b₀] => ((quantum b₀ 0 0).take 2).map base64Char ++ [ch '=', ch '=']
  | [b₀, b₁] => ((quantum b₀ b₁ 0).take 3).map base64Char ++ [ch '=']
  | b₀ :: b₁ :: b₂ :: bytes => (quantum b₀ b₁ b₂).map base64Char ++ base64 bytes

/-- The place of a character in the alphabet. -/
def base64Value (n : ℕ) : Option ℕ :=
  if 0x41 ≤ n ∧ n ≤ 0x5a then some (n - 0x41)
  else if 0x61 ≤ n ∧ n ≤ 0x7a then some (n - 0x61 + 26)
  else if 0x30 ≤ n ∧ n ≤ 0x39 then some (n - 0x30 + 52)
  else if n = 0x2b then some 62
  else if n = 0x2f then some 63
  else none

theorem base64Value_base64Char : ∀ v : BitVec 6,
    base64Value (base64Char v).toNat = some v.toNat := by
  decide +kernel

theorem base64Value_lt {n v : ℕ} (h : base64Value n = some v) : v < 64 := by
  unfold base64Value at h
  split_ifs at h <;> cases h <;> omega

theorem base64Char_of_value : ∀ n < 128, ∀ v ∈ base64Value n,
    base64Char (BitVec.ofNat 6 v) = UInt16.ofNat n := by
  decide +kernel

/-! ## Base 16 -/

/-- The base 16 alphabet, in lower case. -/
def base16Alphabet : JString := jstr "0123456789abcdef"

/-- The character of four bits. -/
def base16Char (v : BitVec 4) : JChar := base16Alphabet.getD v.toNat 0

/-- A byte as two characters. -/
def base16Pair (b : BitVec 8) : JString :=
  [base16Char (b.extractLsb' 4 4), base16Char (b.extractLsb' 0 4)]

/-- The base 16 encoding. -/
def base16 (bytes : List (BitVec 8)) : JString := bytes.flatMap base16Pair

theorem length_base16Pair (b : BitVec 8) : (base16Pair b).length = 2 := rfl

theorem length_base16 (bytes : List (BitVec 8)) : (base16 bytes).length = bytes.length * 2 := by
  induction bytes with
  | nil => rfl
  | cons b bytes ih =>
    rw [base16, List.flatMap_cons, List.length_append, ← base16, ih, length_base16Pair,
      List.length_cons]
    omega

end Rfc4648
end AioVpn
