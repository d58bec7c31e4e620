import AioVpn.Crypto.Encodings
import AioVpn.Tools.CString

/-!
# `encoding.c`

The tools `wg` and `wg-quick` are written in C and have their own constant-time conversions of keys,
with C's arithmetic: `unsigned char` for the accumulated errors, the arithmetic shift where Java has
the logical one, and a `char` that is signed on some platforms.  The masks are kept as they are
written.

`encoding_agrees` says that they are the conversions of `Key.java`: they print every key the same
way, and read every string of bytes the same way, on platforms of either kind.
-/

namespace AioVpn
namespace Encoding

/-! ## The code -/

/-- The `i`-th element of `dest` in `encode_base64`. -/
def encodeSextet (input : BitVec 8) : CChar :=
  let i := input.setWidth 32
  (i + 65#32
    + (((25#32 - i).sshiftRight 8) &&& 6#32)
    - (((51#32 - i).sshiftRight 8) &&& 75#32)
    - (((61#32 - i).sshiftRight 8) &&& 15#32)
    + (((62#32 - i).sshiftRight 8) &&& 3#32)).setWidth 8

/-- `encode_base64`. -/
def encodeBase64 (b₀ b₁ b₂ : BitVec 8) : CString :=
  let s₀ := b₀.setWidth 32
  let s₁ := b₁.setWidth 32
  let s₂ := b₂.setWidth 32
  [encodeSextet ((s₀.sshiftRight 2 &&& 63#32).setWidth 8),
    encodeSextet (((s₀ <<< 4 ||| s₁.sshiftRight 4) &&& 63#32).setWidth 8),
    encodeSextet (((s₁ <<< 2 ||| s₂.sshiftRight 6) &&& 63#32).setWidth 8),
    encodeSextet ((s₂ &&& 63#32).setWidth 8)]

/-- `key_to_base64`. -/
def keyToBase64 (key : Key) : CString :=
  ((List.range 10).flatMap fun i =>
    encodeBase64 (key.bytes.getD (i * 3) 0) (key.bytes.getD (i * 3 + 1) 0)
      (key.bytes.getD (i * 3 + 2) 0))
    ++ (encodeBase64 (key.bytes.getD 30 0) (key.bytes.getD 31 0) 0#8).take 3 ++ [cch '=']

/-- The value of one base64 character, `-1` outside the alphabet. -/
def decodeSextet (c : BitVec 32) : BitVec 32 :=
  -1#32
    + (((64#32 - c) &&& (c - 91#32)).sshiftRight 8 &&& (c - 64#32))
    + (((96#32 - c) &&& (c - 123#32)).sshiftRight 8 &&& (c - 70#32))
    + (((47#32 - c) &&& (c - 58#32)).sshiftRight 8 &&& (c + 5#32))
    + (((42#32 - c) &&& (c - 44#32)).sshiftRight 8 &&& 63#32)
    + (((46#32 - c) &&& (c - 48#32)).sshiftRight 8 &&& 64#32)

/-- `decode_base64`. -/
def decodeBase64 (signed : Bool) (src : CString) (offset : ℕ) : BitVec 32 :=
  (List.range 4).foldl
    (fun val i => val |||
      (decodeSextet ((src.getD (i + offset) 0).toInt signed) <<< (18 - 6 * i))) 0#32

/-- The bytes that are written for a group. -/
def groupBytes (val : BitVec 32) : List (BitVec 8) :=
  [(val.sshiftRight 16 &&& 0xff#32).setWidth 8, (val.sshiftRight 8 &&& 0xff#32).setWidth 8,
    (val &&& 0xff#32).setWidth 8]

/-- `1 & ((ret - 1) >> 8)` for the accumulated errors. -/
def noError (ret : BitVec 8) : Bool :=
  1#32 &&& (ret.setWidth 32 - 1#32).sshiftRight 8 = 1#32

/-- `key_from_base64`. -/
def keyFromBase64 (signed : Bool) (base64 : CString) : Option Key :=
  if base64.length ≠ 44 ∨ base64.getD 43 0 ≠ cch '=' then none
  else
    let vals := (List.range 10).map fun i => decodeBase64 signed base64 (i * 4)
    let val := decodeBase64 signed
      [base64.getD 40 0, base64.getD 41 0, base64.getD 42 0, cch 'A'] 0
    let ret := vals.foldl
      (fun (ret : BitVec 8) (v : BitVec 32) => ret ||| (v >>> 31).setWidth 8) 0#8
    let ret := ret ||| ((val >>> 31) ||| (val &&& 0xff#32)).setWidth 8
    if noError ret then
      some ⟨vals.flatMap groupBytes ++ (groupBytes val).take 2, by
        simp [vals, groupBytes, List.flatMap, List.range, List.range.loop]⟩
    else none

/-- `key_to_hex`. -/
def keyToHex (key : Key) : CString :=
  key.bytes.flatMap fun b =>
    let k : BitVec 32 := b.setWidth 32
    [(87#32 + (k >>> 4) + ((((k >>> 4) - 10#32) >>> 8) &&& ~~~38#32)).setWidth 8,
      (87#32 + (k &&& 0xf#32) + ((((k &&& 0xf#32) - 10#32) >>> 8) &&& ~~~38#32)).setWidth 8]

/-- The value of one hexadecimal character and the error bits it adds; every variable is an
`unsigned char`. -/
def decodeNibble (c : BitVec 8) : BitVec 8 × BitVec 8 :=
  let cNum : BitVec 8 := c ^^^ 48#8
  let cNum0 : BitVec 8 := ((cNum.setWidth 32 - 10#32) >>> 8).setWidth 8
  let cAlpha : BitVec 8 := ((c.setWidth 32 &&& ~~~32#32) - 55#32).setWidth 8
  let cAlpha0 : BitVec 8 :=
    (((cAlpha.setWidth 32 - 10#32) ^^^ (cAlpha.setWidth 32 - 16#32)) >>> 8).setWidth 8
  ((cNum0 &&& cNum) ||| (cAlpha0 &&& cAlpha),
    (((cNum0 ||| cAlpha0).setWidth 32 - 1#32).sshiftRight 8).setWidth 8)

/-- `key_from_hex`. -/
def keyFromHex (hex : CString) : Option Key :=
  if hex.length ≠ 64 then none
  else
    let pairs := (List.range 32).map fun i =>
      (decodeNibble (hex.getD (i * 2) 0), decodeNibble (hex.getD (i * 2 + 1) 0))
    let ret := pairs.foldl (fun (ret : BitVec 8) p => ret ||| p.1.2 ||| p.2.2) 0#8
    if noError ret then
      some ⟨pairs.map fun p => (p.1.1.setWidth 32 * 16#32).setWidth 8 ||| p.2.1, by simp [pairs]⟩
    else none

/-! ## Bits -/

theorem noError_iff (ret : BitVec 8) : noError ret = true ↔ ret = 0#8 := by
  revert ret
  decide +kernel

/-- The sign of a group fits into a byte. -/
theorem sign_eq_zero (val : BitVec 32) : (val >>> 31).setWidth 8 = 0#8 ↔ val >>> 31 = 0#32 := by
  have hlt : (val >>> 31).toNat < 2 := by
    rw [BitVec.toNat_ushiftRight, Nat.shiftRight_eq_div_pow]
    have := val.isLt
    omega
  rw [← BitVec.toNat_inj, ← BitVec.toNat_inj, BitVec.toNat_setWidth]
  simp only [BitVec.toNat_ofNat, Nat.zero_mod]
  omega

theorem spare_eq_zero (val : BitVec 32) :
    (val &&& 0xff#32).setWidth 8 = 0#8 ↔ val &&& 0xff#32 = 0#32 := by
  have hlt : (val &&& 0xff#32).toNat < 256 := by
    rw [BitVec.toNat_and]
    exact Nat.lt_of_le_of_lt Nat.and_le_right (by decide)
  rw [← BitVec.toNat_inj, ← BitVec.toNat_inj, BitVec.toNat_setWidth]
  simp only [BitVec.toNat_ofNat, Nat.zero_mod]
  omega

/-- Below the sign bits the two shifts agree. -/
theorem setWidth_sshiftRight {n : ℕ} (hn : n ≤ 16) (val : BitVec 32) :
    (val.sshiftRight n &&& 0xff#32).setWidth 8 = (val >>> n).truncate 8 := by
  apply BitVec.eq_of_getLsbD_eq
  intro i hi
  have hbit : n + i < 32 := by omega
  have hmask : (0xff#32).getLsbD i = true := by
    interval_cases i <;> rfl
  simp only [BitVec.truncate_eq_setWidth, BitVec.getLsbD_setWidth, BitVec.getLsbD_and, hmask,
    BitVec.getLsbD_sshiftRight, BitVec.getLsbD_ushiftRight, hbit, if_true, Bool.and_true]
  simp [show ¬ 32 ≤ i by omega]

/-- Cutting the high half of a byte off before it is shifted loses nothing. -/
theorem setWidth_mul_sixteen (x : BitVec 32) :
    ((x.setWidth 8).setWidth 32 * 16#32).setWidth 8 = (x * 16#32).setWidth 8 := by
  apply BitVec.eq_of_toNat_eq
  simp only [BitVec.toNat_setWidth, BitVec.toNat_mul, BitVec.toNat_ofNat]
  omega

theorem groupBytes_eq (val : BitVec 32) : groupBytes val = Key.groupBytes val := by
  have hlast := setWidth_sshiftRight (Nat.zero_le 16) val
  rw [BitVec.sshiftRight_zero, BitVec.ushiftRight_zero] at hlast
  rw [groupBytes, Key.groupBytes, setWidth_sshiftRight le_rfl, setWidth_sshiftRight (by decide),
    hlast]

/-! ## Characters -/

/-- The characters of a string of bytes. -/
def chars (s : CString) : JString := s.map fun c => UInt16.ofNat c.toNat

theorem intOfChar_ofNat (c : CChar) :
    Key.intOfChar (UInt16.ofNat c.toNat) = c.setWidth 32 := by
  revert c
  decide +kernel

theorem getD_chars (s : CString) (i : ℕ) :
    (chars s).getD i 0 = UInt16.ofNat (s.getD i 0).toNat := by
  rw [chars, List.getD_eq_getElem?_getD, List.getD_eq_getElem?_getD, List.getElem?_map]
  cases s[i]? <;> rfl

theorem ofNat_toNat_eq_pad (c : CChar) : (UInt16.ofNat c.toNat : JChar) = ch '=' ↔ c = cch '=' := by
  revert c
  decide +kernel

theorem decodeSextet_toInt (signed : Bool) (c : CChar) :
    decodeSextet (c.toInt signed) = Key.decodeSextet (c.setWidth 32) := by
  revert signed c
  decide +kernel

theorem decodeNibble_eq (c : CChar) :
    (decodeNibble c).1 = (Key.decodeNibble (c.setWidth 32)).1.setWidth 8 ∧
      ((decodeNibble c).2 = 0#8 ↔ (Key.decodeNibble (c.setWidth 32)).2 = 0#32) := by
  revert c
  decide +kernel

theorem encodeSextet_setWidth (i : BitVec 6) :
    (UInt16.ofNat (encodeSextet (i.setWidth 8)).toNat : JChar) =
      Key.encodeSextet (i.setWidth 32) := by
  revert i
  decide +kernel

theorem encodeSextet_mask (x : BitVec 32) :
    (UInt16.ofNat (encodeSextet ((x &&& 63#32).setWidth 8)).toNat : JChar) =
      Key.encodeSextet (x &&& 63#32) := by
  rw [Key.and_mask, BitVec.setWidth_setWidth_of_le _ (by decide), encodeSextet_setWidth]

/-! ## Printing -/

/-- A byte has the same sextets whether it is extended with zeros or with its sign. -/
theorem chars_encodeBase64 (b₀ b₁ b₂ : BitVec 8) :
    chars (encodeBase64 b₀ b₁ b₂) = Key.encodeBase64 b₀ b₁ b₂ := by
  have h₀ : (b₀.setWidth 32).sshiftRight 2 &&& 63#32 = b₀.signExtend 32 >>> 2 &&& 63#32 := by
    apply BitVec.eq_of_getLsbD_eq
    intro i hi
    interval_cases i <;> simp [BitVec.getElem_signExtend, BitVec.getElem_sshiftRight]
  have h₁ : (b₀.setWidth 32 <<< 4 ||| (b₁.setWidth 32).sshiftRight 4) &&& 63#32 =
      (b₀.signExtend 32 <<< 4 ||| (b₁.signExtend 32 &&& 0xff#32) >>> 4) &&& 63#32 := by
    apply BitVec.eq_of_getLsbD_eq
    intro i hi
    interval_cases i <;> simp [BitVec.getElem_signExtend, BitVec.getElem_sshiftRight]
  have h₂ : (b₁.setWidth 32 <<< 2 ||| (b₂.setWidth 32).sshiftRight 6) &&& 63#32 =
      (b₁.signExtend 32 <<< 2 ||| (b₂.signExtend 32 &&& 0xff#32) >>> 6) &&& 63#32 := by
    apply BitVec.eq_of_getLsbD_eq
    intro i hi
    interval_cases i <;> simp [BitVec.getElem_signExtend, BitVec.getElem_sshiftRight]
  have h₃ : b₂.setWidth 32 &&& 63#32 = b₂.signExtend 32 &&& 63#32 := by
    apply BitVec.eq_of_getLsbD_eq
    intro i hi
    interval_cases i <;> simp [BitVec.getElem_signExtend]
  simp only [chars, encodeBase64, Key.encodeBase64, List.map_cons, List.map_nil, encodeSextet_mask,
    h₀, h₁, h₂, h₃]

theorem chars_keyToBase64 (key : Key) : chars (keyToBase64 key) = key.toBase64 := by
  have hpad : chars [cch '='] = [ch '='] := by decide
  have hgroup := chars_encodeBase64
  simp only [chars] at hpad hgroup
  simp only [keyToBase64, Key.toBase64, chars, List.map_append, List.map_take, List.map_flatMap,
    hgroup, hpad]

theorem chars_keyToHex (key : Key) : chars (keyToHex key) = key.toHex := by
  rw [keyToHex, Key.toHex, chars, List.map_flatMap]
  refine congrArg (List.flatMap · key.bytes) (funext fun b => ?_)
  revert b
  decide +kernel

/-! ## Reading -/

theorem decodeBase64_eq (signed : Bool) (src : CString) (offset : ℕ) :
    decodeBase64 signed src offset = Key.decodeBase64 (chars src) offset := by
  simp only [decodeBase64, Key.decodeBase64, getD_chars, intOfChar_ofNat, decodeSextet_toInt]

theorem noError_base64 (vals : List (BitVec 32)) (val : BitVec 32) :
    noError (vals.foldl (fun (ret : BitVec 8) (v : BitVec 32) => ret ||| (v >>> 31).setWidth 8) 0#8
      ||| ((val >>> 31) ||| (val &&& 0xff#32)).setWidth 8) = true ↔
    vals.foldl (fun (ret v : BitVec 32) => ret ||| (v >>> 31)) 0#32
      ||| ((val >>> 31) ||| (val &&& 0xff#32)) = 0#32 := by
  rw [noError_iff, BitVec.or_eq_zero_iff, BitVec.or_eq_zero_iff, Key.foldl_or_eq_zero_iff,
    Key.foldl_or_eq_zero_iff, BitVec.setWidth_or, BitVec.or_eq_zero_iff, BitVec.or_eq_zero_iff,
    spare_eq_zero]
  simp only [sign_eq_zero, true_and]

theorem keyFromBase64_eq (signed : Bool) (base64 : CString) :
    keyFromBase64 signed base64 = (Key.fromBase64 (chars base64)).toOption := by
  have hshape : (base64.length ≠ 44 ∨ base64.getD 43 0 ≠ cch '=') ↔
      ((chars base64).length ≠ KeyFormat.base64.length ∨
        (chars base64).getD (KeyFormat.base64.length - 1) 0 ≠ ch '=') := by
    rw [getD_chars, Ne, Ne, Ne, Ne, ofNat_toNat_eq_pad, chars, List.length_map]
    exact Iff.rfl
  have hend : [(chars base64).getD 40 0, (chars base64).getD 41 0, (chars base64).getD 42 0,
      ch 'A'] =
      chars [base64.getD 40 0, base64.getD 41 0, base64.getD 42 0, cch 'A'] := by
    rw [getD_chars, getD_chars, getD_chars]
    rfl
  rw [keyFromBase64, Key.fromBase64]
  by_cases h : base64.length ≠ 44 ∨ base64.getD 43 0 ≠ cch '='
  · rw [if_pos h, if_pos (hshape.mp h)]
    rfl
  · rw [if_neg h, if_neg (mt hshape.mpr h)]
    simp only [decodeBase64_eq, hend, noError_base64]
    split
    · next hret =>
      rw [if_neg (not_not.mpr hret)]
      refine congrArg some (Key.eq_of_bytes ?_)
      dsimp only
      rw [funext groupBytes_eq]
    · rfl

theorem noError_hex (digits : List (CChar × CChar)) :
    noError ((digits.map fun d => (decodeNibble d.1, decodeNibble d.2)).foldl
      (fun (ret : BitVec 8) p => ret ||| p.1.2 ||| p.2.2) 0#8) = true ↔
    (digits.map fun d => (Key.decodeNibble (d.1.setWidth 32),
      Key.decodeNibble (d.2.setWidth 32))).foldl
      (fun (ret : BitVec 32) p => ret ||| p.1.2 ||| p.2.2) 0#32 = 0#32 := by
  simp only [BitVec.or_assoc, List.foldl_map]
  rw [noError_iff, Key.foldl_or_eq_zero_iff, Key.foldl_or_eq_zero_iff]
  simp only [BitVec.or_eq_zero_iff, (decodeNibble_eq _).2, true_and]

theorem keyFromHex_eq (hex : CString) :
    keyFromHex hex = (Key.fromHex (chars hex)).toOption := by
  have hlength : (chars hex).length = hex.length := List.length_map _
  have herrors := noError_hex ((List.range 32).map fun i =>
    (hex.getD (i * 2) 0, hex.getD (i * 2 + 1) 0))
  simp only [List.map_map, Function.comp_def] at herrors
  rw [keyFromHex, Key.fromHex, hlength, show KeyFormat.hex.length = 64 from rfl]
  by_cases h : hex.length ≠ 64
  · rw [if_pos h, if_pos h]
    rfl
  · rw [if_neg h, if_neg h]
    simp only [getD_chars, intOfChar_ofNat, herrors]
    split
    · next hret =>
      rw [if_neg (not_not.mpr hret)]
      refine congrArg some (Key.eq_of_bytes ?_)
      simp only [List.map_map, Function.comp_def, (decodeNibble_eq _).1,
        BitVec.truncate_eq_setWidth, BitVec.setWidth_or, setWidth_mul_sixteen]
    · rfl

/-- **The tools print and read keys as the app does.** -/
theorem encoding_agrees (signed : Bool) :
    (∀ key : Key, chars (keyToBase64 key) = key.toBase64 ∧ chars (keyToHex key) = key.toHex) ∧
      ∀ s : CString, keyFromBase64 signed s = (Key.fromBase64 (chars s)).toOption ∧
        keyFromHex s = (Key.fromHex (chars s)).toOption :=
  ⟨fun key => ⟨chars_keyToBase64 key, chars_keyToHex key⟩,
    fun s => ⟨keyFromBase64_eq signed s, keyFromHex_eq s⟩⟩

end Encoding
end AioVpn
