import AioVpn.Crypto.Key
import AioVpn.Text.Rfc4648

/-!
# What the masks take for a character of the alphabet

`Key.decodeBase64` and `Key.fromHex` decide with masks whether a character belongs to the
alphabet.  The masks are made for 8-bit characters: the sign of a difference is moved down by
eight bits and used to select a value.  A `char` has 16 bits.  For the characters up to `U+00FF`
the masks decide as they should; above, the eight bits that are shifted out are not all of the
difference, and what is left of it selects some of the bits of the value.

* `decodeSextet_eq`: the value of a character in base64.  With the high byte `h` and the low byte
  `l`, it is found as if the character were `l`, but only modulo the largest power of two that
  divides `h` (`period`, `readAs`).
* `decodeNibble_error_iff`: in hexadecimal every character from `U+0100` on is accepted, except
  `U+0130` to `U+0139`.
-/

namespace AioVpn
namespace Key

open Rfc4648

/-! ## Base64 -/

/-- What a mask leaves of a value: all of it below `U+0100`, else its remainder by the largest
power of two that divides the high byte. -/
def period (h : ℕ) : ℕ := if h = 0 then 2 ^ 24 else Nat.gcd h 256

/-- One more than the value as which a character is read; zero if it is refused. -/
def readAs (c : JChar) : ℕ :=
  match base64Value (c.toNat % 256) with
  | some v => (v + 1) % period (c.toNat / 256)
  | none => 0

theorem period_eq_two_pow : ∀ h < 256, ∃ t ≤ 24, period h = 2 ^ t := by
  intro h hh
  by_cases h0 : h = 0
  · exact ⟨24, by omega, by rw [period, if_pos h0]⟩
  · rw [period, if_neg h0]
    obtain ⟨t, ht, hgcd⟩ := (Nat.dvd_prime_pow Nat.prime_two).mp (Nat.gcd_dvd_right h (2 ^ 8))
    exact ⟨t, by omega, hgcd⟩

/-- The high byte does not change a remainder. -/
theorem add_mod_period (h k : ℕ) : (256 * h + k) % period h = k % period h := by
  by_cases h0 : h = 0
  · rw [h0, Nat.mul_zero, Nat.zero_add]
  · have hdvd : period h ∣ 256 * h := by
      rw [period, if_neg h0]
      exact (Nat.gcd_dvd_right h 256).mul_right h
    rw [Nat.add_mod, Nat.mod_eq_zero_of_dvd hdvd, Nat.zero_add, Nat.mod_mod]

/-- Two counters that run against each other have the low ones of one of them in common. -/
theorem and_counters : ∀ h < 256,
    (h ≠ 0 → (2 ^ 24 - 1 - h) &&& (h - 1) = Nat.gcd h 256 - 1) ∧
      (h ≠ 0 → (2 ^ 24 - h) &&& (h - 1) = 0) ∧ (2 ^ 24 - 1 - h) &&& h = 0 := by
  decide +kernel

/-- **The mask of a range.**  It is there for the characters whose low byte lies in the range. -/
theorem toNat_rangeMask {a b c : ℕ} (hab : a < b) (hb : b ≤ 256) (hc : c < 65536) :
    (((BitVec.ofNat 32 a - BitVec.ofNat 32 c) &&& (BitVec.ofNat 32 c - BitVec.ofNat 32 b)) >>>
        8).toNat =
      if a < c % 256 ∧ c % 256 < b then period (c / 256) - 1 else 0 := by
  obtain ⟨hin, hbelow, habove⟩ := and_counters (c / 256) (by omega)
  rw [BitVec.toNat_ushiftRight, BitVec.toNat_and, Nat.shiftRight_and_distrib,
    Nat.shiftRight_eq_div_pow, Nat.shiftRight_eq_div_pow, BitVec.toNat_sub, BitVec.toNat_sub,
    BitVec.toNat_ofNat, BitVec.toNat_ofNat, BitVec.toNat_ofNat]
  have hleft : (2 ^ 32 - c % 2 ^ 32 + a % 2 ^ 32) % 2 ^ 32 / 2 ^ 8 =
      if c ≤ a then 0 else if c % 256 ≤ a then 2 ^ 24 - c / 256 else 2 ^ 24 - 1 - c / 256 := by
    split_ifs <;> omega
  have hright : (2 ^ 32 - b % 2 ^ 32 + c % 2 ^ 32) % 2 ^ 32 / 2 ^ 8 =
      if c < b then 2 ^ 24 - 1 else if c % 256 < b then c / 256 - 1 else c / 256 := by
    split_ifs <;> omega
  rw [hleft, hright]
  by_cases hl : c % 256 ≤ a
  · rw [if_neg (by omega : ¬ (a < c % 256 ∧ c % 256 < b))]
    by_cases hca : c ≤ a
    · rw [if_pos hca, Nat.zero_and]
    · rw [if_neg hca, if_pos hl, if_neg (by omega : ¬ c < b), if_pos (by omega : c % 256 < b)]
      exact hbelow (by omega)
  · rw [if_neg (by omega : ¬ c ≤ a), if_neg hl]
    by_cases hlb : c % 256 < b
    · have hrange : a < c % 256 ∧ c % 256 < b := ⟨by omega, hlb⟩
      rw [if_pos hlb, if_pos hrange]
      by_cases hh : c / 256 = 0
      · rw [if_pos (by omega : c < b), hh, period, if_pos rfl]
        rfl
      · rw [if_neg (by omega : ¬ c < b), period, if_neg hh]
        exact hin hh
    · rw [if_neg (by omega : ¬ (a < c % 256 ∧ c % 256 < b)), if_neg (by omega : ¬ c < b),
        if_neg hlb]
      exact habove

theorem toNat_intOfChar (c : JChar) : (intOfChar c).toNat = c.toNat := by
  have hc : c.toNat < 65536 := c.toNat_lt
  rw [intOfChar, BitVec.toNat_ofNat, Nat.mod_eq_of_lt (by omega)]

/-- A summand of `decodeSextet`: the mask of a range, and what it selects from. -/
theorem rangeTerm {a b : ℕ} (hab : a < b) (hb : b ≤ 256) (c : JChar) (y : BitVec 32) :
    (((BitVec.ofNat 32 a - intOfChar c) &&& (intOfChar c - BitVec.ofNat 32 b)) >>> 8) &&& y =
      if a < c.toNat % 256 ∧ c.toNat % 256 < b then
        BitVec.ofNat 32 (y.toNat % period (c.toNat / 256))
      else 0#32 := by
  have hc : c.toNat < 65536 := c.toNat_lt
  apply BitVec.eq_of_toNat_eq
  rw [BitVec.toNat_and, intOfChar, toNat_rangeMask hab hb hc]
  by_cases hin : a < c.toNat % 256 ∧ c.toNat % 256 < b
  · obtain ⟨t, ht, hperiod⟩ := period_eq_two_pow (c.toNat / 256) (by omega)
    have hlt : y.toNat % 2 ^ t < 2 ^ 32 :=
      lt_of_lt_of_le (Nat.mod_lt _ (Nat.two_pow_pos t)) (Nat.pow_le_pow_right (by omega) (by omega))
    rw [if_pos hin, if_pos hin, hperiod, Nat.and_comm, Nat.and_two_pow_sub_one_eq_mod,
      BitVec.toNat_ofNat, Nat.mod_eq_of_lt hlt]
  · rw [if_neg hin, if_neg hin, Nat.zero_and]
    rfl

/-- What is selected, for a difference of the character and a constant. -/
theorem toNat_sub_mod_period {c : JChar} {k : ℕ} (hk : k ≤ c.toNat % 256) :
    (intOfChar c - BitVec.ofNat 32 k).toNat % period (c.toNat / 256) =
      (c.toNat % 256 - k) % period (c.toNat / 256) := by
  have hc : c.toNat < 65536 := c.toNat_lt
  have hsub : (intOfChar c - BitVec.ofNat 32 k).toNat =
      256 * (c.toNat / 256) + (c.toNat % 256 - k) := by
    rw [BitVec.toNat_sub, toNat_intOfChar, BitVec.toNat_ofNat]
    omega
  rw [hsub, add_mod_period]

/-- **The value of a character in base64.** -/
theorem decodeSextet_eq (c : JChar) :
    decodeSextet (intOfChar c) = BitVec.ofNat 32 (readAs c) - 1#32 := by
  have hc : c.toNat < 65536 := c.toNat_lt
  have hupper := rangeTerm (show 64 < 91 by omega) (by omega) c (intOfChar c - 64#32)
  have hlower := rangeTerm (show 96 < 123 by omega) (by omega) c (intOfChar c - 70#32)
  have hdigit := rangeTerm (show 47 < 58 by omega) (by omega) c (intOfChar c + 5#32)
  have hplus := rangeTerm (show 42 < 44 by omega) (by omega) c 63#32
  have hslash := rangeTerm (show 46 < 48 by omega) (by omega) c 64#32
  have hsum : ∀ x : BitVec 32, -1#32 + x = x - 1#32 := fun x => by
    rw [BitVec.add_comm, BitVec.sub_eq_add_neg]
  rw [decodeSextet, hupper, hlower, hdigit, hplus, hslash, readAs]
  -- the ranges are disjoint: at most one summand is there
  by_cases hU : 64 < c.toNat % 256 ∧ c.toNat % 256 < 91
  · have hv : base64Value (c.toNat % 256) = some (c.toNat % 256 - 65) := if_pos (by omega)
    have hsucc : c.toNat % 256 - 65 + 1 = c.toNat % 256 - 64 := by omega
    rw [if_pos hU, if_neg (by omega), if_neg (by omega), if_neg (by omega), if_neg (by omega), hv,
      toNat_sub_mod_period (by omega)]
    simp only [BitVec.add_zero, hsucc]
    exact hsum _
  rw [if_neg hU]
  by_cases hL : 96 < c.toNat % 256 ∧ c.toNat % 256 < 123
  · have hv : base64Value (c.toNat % 256) = some (c.toNat % 256 - 97 + 26) := by
      rw [base64Value, if_neg (by omega), if_pos (by omega)]
    have hsucc : c.toNat % 256 - 97 + 26 + 1 = c.toNat % 256 - 70 := by omega
    rw [if_pos hL, if_neg (by omega), if_neg (by omega), if_neg (by omega), hv,
      toNat_sub_mod_period (by omega)]
    simp only [BitVec.add_zero, hsucc]
    exact hsum _
  rw [if_neg hL]
  by_cases hD : 47 < c.toNat % 256 ∧ c.toNat % 256 < 58
  · have hv : base64Value (c.toNat % 256) = some (c.toNat % 256 - 48 + 52) := by
      rw [base64Value, if_neg (by omega), if_neg (by omega), if_pos (by omega)]
    have hadd : (intOfChar c + 5#32).toNat =
        256 * (c.toNat / 256) + (c.toNat % 256 - 48 + 52 + 1) := by
      rw [BitVec.toNat_add, toNat_intOfChar, BitVec.toNat_ofNat]
      omega
    rw [if_pos hD, if_neg (by omega), if_neg (by omega), hv, hadd, add_mod_period]
    simp only [BitVec.add_zero]
    exact hsum _
  rw [if_neg hD]
  by_cases hP : 42 < c.toNat % 256 ∧ c.toNat % 256 < 44
  · have hv : base64Value (c.toNat % 256) = some 62 := by
      rw [base64Value, if_neg (by omega), if_neg (by omega), if_neg (by omega), if_pos (by omega)]
    rw [if_pos hP, if_neg (by omega), hv]
    simp only [BitVec.add_zero]
    exact hsum _
  rw [if_neg hP]
  by_cases hS : 46 < c.toNat % 256 ∧ c.toNat % 256 < 48
  · have hv : base64Value (c.toNat % 256) = some 63 := by
      rw [base64Value, if_neg (by omega), if_neg (by omega), if_neg (by omega), if_neg (by omega),
        if_pos (by omega)]
    rw [if_pos hS, hv]
    simp only [BitVec.add_zero]
    exact hsum _
  have hv : base64Value (c.toNat % 256) = none := by
    rw [base64Value, if_neg (by omega), if_neg (by omega), if_neg (by omega), if_neg (by omega),
      if_neg (by omega)]
  rw [if_neg hS, hv]
  rfl

theorem readAs_le (c : JChar) : readAs c ≤ 64 := by
  rw [readAs]
  split
  · rename_i v hv
    have hlt := base64Value_lt hv
    exact (Nat.mod_le _ _).trans hlt
  · omega

/-- A refused character is `-1`: all of its bits are set. -/
theorem getLsbD_decodeSextet (c : JChar) {i : ℕ} (hi : 6 ≤ i) (hi' : i < 32) :
    (decodeSextet (intOfChar c)).getLsbD i = decide (readAs c = 0) := by
  rw [decodeSextet_eq]
  by_cases h0 : readAs c = 0
  · rw [h0]
    interval_cases i <;> decide
  · have hle := readAs_le c
    have hval : (BitVec.ofNat 32 (readAs c) - 1#32).toNat = readAs c - 1 := by
      rw [BitVec.toNat_sub, BitVec.toNat_ofNat, BitVec.toNat_ofNat]
      omega
    have hpow : 2 ^ 6 ≤ 2 ^ i := Nat.pow_le_pow_right (by omega) hi
    rw [BitVec.getLsbD, hval, Nat.testBit_lt_two_pow (by omega), decide_eq_false h0]

/-- The value of a character that is not refused. -/
theorem toNat_decodeSextet {c : JChar} (hc : readAs c ≠ 0) :
    (decodeSextet (intOfChar c)).toNat = readAs c - 1 := by
  have hle := readAs_le c
  rw [decodeSextet_eq, BitVec.toNat_sub, BitVec.toNat_ofNat, BitVec.toNat_ofNat]
  omega

/-! ## Hexadecimal -/

/-- A hexadecimal digit. -/
def isHexDigit (c : JChar) : Bool :=
  (0x30 ≤ c.toNat && c.toNat ≤ 0x39) || (0x41 ≤ c.toNat && c.toNat ≤ 0x46) ||
    (0x61 ≤ c.toNat && c.toNat ≤ 0x66)

/-- The characters above `U+00FF` that the masks take for a digit. -/
def isStrayDigit (c : JChar) : Bool :=
  0x100 ≤ c.toNat && !(0x130 ≤ c.toNat && c.toNat ≤ 0x139)

/-- Up to `U+00FF` the masks decide as they should. -/
theorem decodeNibble_error_byte : ∀ c < 256,
    ((decodeNibble (BitVec.ofNat 32 c)).2 = 0#32 ↔ isHexDigit (UInt16.ofNat c) = true) := by
  decide +kernel

theorem decodeNibble_error_refused : ∀ l < 10,
    (decodeNibble (BitVec.ofNat 32 (0x130 + l))).2 ≠ 0#32 := by
  decide +kernel

theorem xor_lt_ten : ∀ l < 256, l ^^^ 48 < 10 ↔ 48 ≤ l ∧ l ≤ 57 := by
  decide +kernel

/-- There is no error where one of the two masks is there. -/
theorem error_eq_zero {x : BitVec 32} (hx : x.toNat % 256 ≠ 0) (y : BitVec 32) :
    (((x &&& 0xff#32) ||| (y &&& 0xff#32)) - 1#32) >>> 8 = 0#32 := by
  have hmask : ∀ z : BitVec 32, (z &&& 0xff#32).toNat = z.toNat % 256 := fun z => by
    rw [BitVec.toNat_and]
    exact Nat.and_two_pow_sub_one_eq_mod z.toNat 8
  have hlt : x.toNat % 256 ||| y.toNat % 256 < 2 ^ 8 :=
    Nat.or_lt_two_pow (Nat.mod_lt _ (by omega)) (Nat.mod_lt _ (by omega))
  have hle : x.toNat % 256 ≤ x.toNat % 256 ||| y.toNat % 256 := Nat.left_le_or
  apply BitVec.eq_of_toNat_eq
  rw [BitVec.toNat_ushiftRight, Nat.shiftRight_eq_div_pow, BitVec.toNat_sub, BitVec.toNat_or,
    hmask, hmask, BitVec.toNat_ofNat, BitVec.toNat_ofNat]
  omega

/-- The mask for the digits is there for the high byte's sake. -/
theorem decodeNibble_error_stray {c : JChar} (hc : isStrayDigit c = true) :
    (decodeNibble (intOfChar c)).2 = 0#32 := by
  have hlt : c.toNat < 65536 := c.toNat_lt
  have hhigh : 0x100 ≤ c.toNat ∧ (c.toNat < 0x130 ∨ 0x139 < c.toNat) := by
    simpa [isStrayDigit] using hc
  have hxor : (intOfChar c ^^^ 48#32).toNat = c.toNat ^^^ 48 := by
    rw [BitVec.toNat_xor, toNat_intOfChar]
    rfl
  have hdiv : (c.toNat ^^^ 48) / 2 ^ 8 = c.toNat / 2 ^ 8 := by
    rw [Nat.xor_div_two_pow]
    exact Nat.xor_zero _
  have hmod : (c.toNat ^^^ 48) % 2 ^ 8 = c.toNat % 2 ^ 8 ^^^ 48 := Nat.xor_mod_two_pow
  have hdigit := xor_lt_ten (c.toNat % 2 ^ 8) (by omega)
  refine error_eq_zero ?_ _
  rw [BitVec.toNat_ushiftRight, Nat.shiftRight_eq_div_pow, BitVec.toNat_sub, hxor,
    BitVec.toNat_ofNat]
  omega

/-- **The characters accepted in hexadecimal.** -/
theorem decodeNibble_error_iff (c : JChar) :
    (decodeNibble (intOfChar c)).2 = 0#32 ↔ isHexDigit c = true ∨ isStrayDigit c = true := by
  have hnat : UInt16.ofNat c.toNat = c := UInt16.ofNat_toNat
  by_cases hlow : c.toNat < 256
  · have hstray : isStrayDigit c = false := by
      rw [isStrayDigit, decide_eq_false (by omega), Bool.false_and]
    have hbyte := decodeNibble_error_byte c.toNat hlow
    rw [hnat] at hbyte
    rw [intOfChar, hbyte, hstray]
    simp
  · cases hstray : isStrayDigit c with
    | true => exact iff_of_true (decodeNibble_error_stray hstray) (Or.inr rfl)
    | false =>
      have hrange : 0x130 ≤ c.toNat ∧ c.toNat ≤ 0x139 := by
        simp only [isStrayDigit, Bool.and_eq_false_iff, decide_eq_false_iff_not,
          Bool.not_eq_false', Bool.and_eq_true, decide_eq_true_eq] at hstray
        omega
      have hdigit : isHexDigit c = false := by
        simp only [isHexDigit, Bool.or_eq_false_iff, Bool.and_eq_false_iff,
          decide_eq_false_iff_not]
        omega
      have hsplit : c.toNat = 0x130 + (c.toNat - 0x130) := by omega
      refine iff_of_false ?_ (by simp [hdigit])
      rw [intOfChar, hsplit]
      exact decodeNibble_error_refused (c.toNat - 0x130) (by omega)

end Key
end AioVpn
