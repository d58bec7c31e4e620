import AioVpn.Crypto.FieldArithmetic
import AioVpn.Crypto.MontgomeryCurve

/-!
# `Curve25519.eval` computes X25519

`FieldArithmetic` shows that the operations of the class are those of the field.  Here
they are put together: the chain of squarings in `recip`, the loop of `evalCurve` over
the bits of the private key, and the conversions between bytes and limbs.

## The loop

The source swaps the two halves of the ladder at the start of an iteration only when
the bit differs from the one before, and once more at the end.  The abstract ladder of
`Montgomery.Ladder.bit` swaps before and after every step.  `Simulates` is the relation
between the two: the concrete ladder is the abstract one up to the swap that is still
to be made.

## The result

`x25519` is the ladder of RFC 7748, over the field.  `eval_eq_x25519` has one
condition on the public key: its number is below `2 ^ 256 - 19`.  The two trial
subtractions of the source do not reduce the nineteen numbers above, although the
comment there says that they reduce everything up to `2 ^ 256 - 1`.  A key with a number
between `2 ^ 255` and that bound is reduced, where the RFC clears its topmost bit
(`decodeUCoordinate`), so that the code computes the X25519 of the RFC for the numbers
below `2 ^ 255` only.
-/

namespace AioVpn
namespace Curve25519

open Limbs Montgomery

/-! ## Powers

The exponents are kept apart from the powers: a power whose exponent has 255 bits must
not be computed. -/

theorem Represents.pow_square {x : Ints} {a : F} {e : ℕ} (h : Represents x (a ^ e)) :
    Represents (Curve25519.square x) (a ^ (2 * e)) := by
  have hsquare := h.square
  rwa [← pow_mul, Nat.mul_comm] at hsquare

theorem Represents.pow_mul_pow {x y : Ints} {a : F} {e f : ℕ} (hx : Represents x (a ^ e))
    (hy : Represents y (a ^ f)) : Represents (Curve25519.mul x y) (a ^ (e + f)) := by
  have hmul := hx.mul hy
  rwa [← pow_add] at hmul

theorem Represents.pow_square_iterate {x : Ints} {a : F} {e : ℕ} (h : Represents x (a ^ e))
    (n : ℕ) : Represents (Curve25519.square^[n] x) (a ^ (2 ^ n * e)) := by
  induction n generalizing x e with
  | zero => simpa using h
  | succ n ih =>
    have hnext := ih h.pow_square
    rwa [← Nat.mul_assoc, ← pow_succ] at hnext

/-- The loops of `pow250`: `A` is squared `j` times and multiplied into `result`. -/
def accumulate (j : ℕ) (r : Ints × Ints) : Ints × Ints :=
  let a := square^[j] r.1
  (a, mul r.2 a)

/-- The exponent that `n` rounds add, for each unit in the exponent of `A`. -/
def geometric (j : ℕ) : ℕ → ℕ
  | 0 => 0
  | n + 1 => geometric j n + 2 ^ (j * (n + 1))

theorem accumulate_iterate {a : F} {e f : ℕ} {x y : Ints} (hx : Represents x (a ^ e))
    (hy : Represents y (a ^ f)) (j n : ℕ) :
    Represents ((accumulate j)^[n] (x, y)).1 (a ^ (2 ^ (j * n) * e)) ∧
      Represents ((accumulate j)^[n] (x, y)).2 (a ^ (f + geometric j n * e)) := by
  induction n with
  | zero => simpa [geometric] using ⟨hx, hy⟩
  | succ n ih =>
    obtain ⟨hA, hR⟩ := ih
    have hsquare := hA.pow_square_iterate j
    rw [← Nat.mul_assoc, ← pow_add, show j + j * n = j * (n + 1) by ring] at hsquare
    have hmul := hR.pow_mul_pow hsquare
    rw [Nat.add_assoc, ← Nat.add_mul] at hmul
    rw [Function.iterate_succ_apply', accumulate]
    exact ⟨hsquare, hmul⟩

theorem Represents.pow250 {x : Ints} {a : F} (hx : Represents x a) :
    Represents (pow250 x) (a ^ (2 ^ 250 - 1)) := by
  have hone : Represents x (a ^ 1) := by rwa [pow_one]
  have hA := hone.pow_square.pow_square_iterate 9
  have hpattern := (accumulate_iterate hA (hA.pow_mul_pow hone) 10 23).2
  have hfill := (accumulate_iterate hpattern.pow_square
    (hpattern.pow_mul_pow hpattern.pow_square) 1 8).2
  have hexp : 2 ^ 9 * (2 * 1) + 1 + geometric 10 23 * (2 ^ 9 * (2 * 1)) +
      2 * (2 ^ 9 * (2 * 1) + 1 + geometric 10 23 * (2 ^ 9 * (2 * 1))) +
      geometric 1 8 * (2 * (2 ^ 9 * (2 * 1) + 1 + geometric 10 23 * (2 ^ 9 * (2 * 1)))) =
        2 ^ 250 - 1 := by
    norm_num [geometric]
  rw [hexp] at hfill
  exact hfill

theorem pow_sub_two_eq_inv {q : ℕ} [Fact q.Prime] (hq : 2 < q) (a : ZMod q) :
    a ^ (q - 2) = a⁻¹ := by
  by_cases ha : a = 0
  · rw [ha, inv_zero, zero_pow (by omega)]
  · refine eq_inv_of_mul_eq_one_left ?_
    rw [← pow_succ, show q - 2 + 1 = q - 1 by omega, ZMod.pow_card_sub_one_eq_one ha]

/-- **`recip` is the inverse**, zero for zero. -/
theorem Represents.recip {x : Ints} {a : F} (hx : Represents x a) : Represents (recip x) a⁻¹ := by
  have hone : Represents x (a ^ 1) := by rwa [pow_one]
  have h := (((hx.pow250.pow_square.pow_square.pow_mul_pow hone).pow_square.pow_square.pow_mul_pow
    hone).pow_square.pow_mul_pow hone)
  have hexp : 2 * (2 * (2 * (2 * (2 * (2 ^ 250 - 1)) + 1)) + 1) + 1 = p - 2 := by norm_num [p]
  rw [hexp, pow_sub_two_eq_inv (by norm_num [p])] at h
  exact h

/-! ## One iteration -/

/-- The four numbers of the ladder are four field elements. -/
structure RepresentsLadder (s : Ladder) (t : Montgomery.Ladder F) : Prop where
  x_2 : Represents s.x_2 t.x₂
  z_2 : Represents s.z_2 t.z₂
  x_3 : Represents s.x_3 t.x₃
  z_3 : Represents s.z_3 t.z₃

theorem RepresentsLadder.step {s : Ladder} {t : Montgomery.Ladder F} {x : Ints} {x₁ : F}
    (h : RepresentsLadder s t) (hx : Represents x x₁) :
    RepresentsLadder (s.step x) (t.step 121665 x₁) := by
  have ha := h.x_2.add h.z_2
  have hb := h.x_2.sub h.z_2
  have he := ha.square.sub hb.square
  have hda := (h.x_3.sub h.z_3).mul ha
  have hcb := (h.x_3.add h.z_3).mul hb
  constructor <;> simp only [Ladder.step, Montgomery.Ladder.step]
  · exact ha.square.mul hb.square
  · exact (he.mulA24.add ha.square).mul he
  · exact (hda.add hcb).square
  · exact (hda.sub hcb).square.mul hx

/-- Swapping with a mask swaps the arrays or leaves them. -/
theorem cswap_eq {x y : Ints} (hlen : x.length = y.length) (select : BitVec 32)
    (hs : select.toNat ≤ 1) : cswap select x y = if select.toNat = 1 then (y, x) else (x, y) := by
  have hfst : ∀ l m : BitVec 32, l ^^^ (-select &&& (l ^^^ m)) =
      if select.toNat = 1 then m else l := by
    intro l m
    rw [and_neg_bit _ _ hs]
    split
    · rw [← BitVec.xor_assoc, BitVec.xor_self, BitVec.zero_xor]
    · exact BitVec.xor_zero
  have hsnd : ∀ l m : BitVec 32, m ^^^ (-select &&& (l ^^^ m)) =
      if select.toNat = 1 then l else m := by
    intro l m
    rw [BitVec.xor_comm l m]
    exact hfst m l
  unfold cswap
  simp only [hfst, hsnd]
  split
  · rw [zipWith_right hlen, zipWith_left hlen]
  · rw [zipWith_right hlen, zipWith_left hlen]

theorem RepresentsLadder.swap {s : Ladder} {t : Montgomery.Ladder F} (h : RepresentsLadder s t)
    (select : BitVec 32) (hs : select.toNat ≤ 1) :
    RepresentsLadder (s.swap select) (t.swap (select.toNat = 1)) := by
  have hx : s.x_2.length = s.x_3.length := by
    rw [h.x_2.canonical.length_eq, h.x_3.canonical.length_eq]
  have hz : s.z_2.length = s.z_3.length := by
    rw [h.z_2.canonical.length_eq, h.z_3.canonical.length_eq]
  unfold Ladder.swap Montgomery.Ladder.swap
  rw [cswap_eq hx select hs, cswap_eq hz select hs]
  by_cases hb : select.toNat = 1
  · simp only [hb, if_true, decide_true]
    exact ⟨h.x_3, h.z_3, h.x_2, h.z_2⟩
  · simp only [hb, if_false, decide_false]
    exact h

/-- The state of the loop: the ladder up to the swap that is still to be made. -/
structure Simulates (s : BitVec 32 × Ladder) (t : Montgomery.Ladder F) : Prop where
  le_one : s.1.toNat ≤ 1
  ladder : RepresentsLadder s.2 (t.swap (s.1.toNat = 1))

/-- **One iteration** is one bit of the abstract ladder: the swap at its start undoes the
pending one and makes its own. -/
theorem Simulates.iteration {s : BitVec 32 × Ladder} {t : Montgomery.Ladder F} {x : Ints} {x₁ : F}
    (h : Simulates s t) (hx : Represents x x₁) (svalue : BitVec 32) {sbit : ℕ} (hs : sbit < 32) :
    Simulates (iteration x svalue sbit s) (t.bit 121665 x₁ (svalue.getLsbD sbit)) := by
  have hselect : (svalue.sshiftRight sbit &&& 1#32).toNat = (svalue.getLsbD sbit).toNat := by
    rw [toNat_sshiftRight_and_one _ hs, BitVec.getLsbD, Nat.toNat_testBit]
  have hb : svalue.getLsbD sbit = decide ((svalue.sshiftRight sbit &&& 1#32).toNat = 1) := by
    rw [hselect]
    cases svalue.getLsbD sbit <;> rfl
  have hle : (svalue.sshiftRight sbit &&& 1#32).toNat ≤ 1 := by
    rw [hselect]
    cases svalue.getLsbD sbit <;> decide
  rw [hb]
  unfold Curve25519.iteration
  generalize svalue.sshiftRight sbit &&& 1#32 = select at hle ⊢
  -- the mask of the swap is the exclusive or of the pending bit and the new one
  have hxor : (s.1 ^^^ select).toNat ≤ 1 ∧ decide ((s.1 ^^^ select).toNat = 1) =
      (decide (s.1.toNat = 1) ^^ decide (select.toNat = 1)) := by
    rcases eq_zero_or_one_of_toNat h.le_one with h0 | h0 <;>
      rcases eq_zero_or_one_of_toNat hle with h1 | h1 <;> rw [h0, h1] <;> decide
  refine ⟨hle, ?_⟩
  have hstep := (h.ladder.swap (s.1 ^^^ select) hxor.1).step hx
  rw [Montgomery.Ladder.swap_swap, hxor.2] at hstep
  rw [Montgomery.Ladder.bit, Montgomery.Ladder.swap_swap]
  simpa using hstep

/-! ## The bits of the private key -/

/-- The private key with the bits set and cleared that every private key has. -/
def clamp (privateKey : List (BitVec 8)) : List (BitVec 8) :=
  (privateKey.modify 0 (· &&& 248#8)).modify 31 fun b => (b &&& 127#8) ||| 64#8

/-- The number the point is multiplied with. -/
def scalar (privateKey : Key) : ℕ := value 8 (clamp privateKey.bytes)

/-- A generated private key has these bits already. -/
theorem clamp_generatePrivateKey (random : Key) :
    clamp (Key.generatePrivateKey random).bytes = (Key.generatePrivateKey random).bytes := by
  have hlow : ∀ b : BitVec 8, b &&& 248#8 &&& 248#8 = b &&& 248#8 := by decide
  have hhigh : ∀ b : BitVec 8, ((b &&& 127#8) ||| 64#8) &&& 127#8 ||| 64#8 =
      (b &&& 127#8) ||| 64#8 := by decide
  unfold clamp Key.generatePrivateKey
  apply List.ext_getElem?
  intro i
  simp only [List.getElem?_modify, Option.map_eq_map, Option.map_map]
  congr 1
  funext b
  by_cases h0 : 0 = i
  · subst h0
    simp [hlow]
  · by_cases h31 : 31 = i
    · subst h31
      simpa using hhigh b
    · simp [h0, h31]

theorem testBit_scalar (privateKey : Key) (i : ℕ) {j : ℕ} (hj : j < 8) :
    (scalar privateKey).testBit (8 * i + j) = ((clamp privateKey.bytes).getD i 0).getLsbD j :=
  testBit_value (bounded_self _) i hj

theorem getD_clamp (privateKey : Key) {i : ℕ} (hi : i < 32) :
    (clamp privateKey.bytes).getD i 0 =
      if i = 31 then (privateKey.bytes.getD 31 0 &&& 127#8) ||| 64#8
      else if i = 0 then privateKey.bytes.getD 0 0 &&& 248#8
      else privateKey.bytes.getD i 0 := by
  have hlen := privateKey.length_bytes
  rw [clamp, getD_modify _ _ (by rw [List.length_modify, hlen]; exact hi),
    getD_modify _ _ (by rw [hlen]; exact hi)]
  by_cases h31 : i = 31
  · subst h31
    rfl
  · rw [if_neg (Ne.symm h31), if_neg h31]
    by_cases h0 : i = 0
    · subst h0
      rfl
    · rw [if_neg (Ne.symm h0), if_neg h0]

/-- The bits of `svalue` are bits of the scalar. -/
theorem getLsbD_svalue (privateKey : Key) (sposn : ℕ) (hs : sposn < 31) {j : ℕ} (hj : j < 8) :
    (if sposn = 0 then (privateKey.bytes.getD sposn 0).signExtend 32 &&& 0xF8#32
      else (privateKey.bytes.getD sposn 0).signExtend 32).getLsbD j =
      (scalar privateKey).testBit (8 * sposn + j) := by
  rw [testBit_scalar _ _ hj, getD_clamp _ (by omega), if_neg (show sposn ≠ 31 by omega)]
  by_cases h0 : sposn = 0
  · subst h0
    rw [if_pos rfl, if_pos rfl, BitVec.getLsbD_and, BitVec.getLsbD_and, BitVec.getLsbD_signExtend]
    interval_cases j <;> simp
  · rw [if_neg h0, if_neg h0, BitVec.getLsbD_signExtend]
    simp [hj, show j < 32 by omega]

theorem getLsbD_svalue_top (privateKey : Key) {j : ℕ} (hj : j < 7) :
    ((privateKey.bytes.getD 31 0).signExtend 32 ||| 0x40#32).getLsbD j =
      (scalar privateKey).testBit (8 * 31 + j) := by
  rw [testBit_scalar _ _ (by omega), getD_clamp _ (by norm_num), if_pos rfl, BitVec.getLsbD_or,
    BitVec.getLsbD_or, BitVec.getLsbD_and, BitVec.getLsbD_signExtend]
  interval_cases j <;> simp

theorem scalar_lt (privateKey : Key) : scalar privateKey < 2 ^ 255 := by
  have hlt := value_lt (bounded_self (clamp privateKey.bytes))
  have htop := getD_eq_digit (bounded_self (clamp privateKey.bytes)) 31
  have hseven : ((privateKey.bytes.getD 31 0 &&& 127#8) ||| 64#8).toNat < 128 := by
    generalize privateKey.bytes.getD 31 0 = b
    revert b
    decide
  rw [getD_clamp _ (by norm_num), if_pos rfl] at htop
  rw [show (clamp privateKey.bytes).length = 32 by simp [clamp, privateKey.length_bytes]] at hlt
  rw [scalar]
  omega

/-- The loop over the bits of one byte. -/
theorem Simulates.evalBits {s : BitVec 32 × Ladder} {t : Montgomery.Ladder F} {x : Ints} {x₁ : F}
    (h : Simulates s t) (hx : Represents x x₁) (svalue : BitVec 32) (sbit : ℕ) (hs : sbit < 32)
    {k i : ℕ} (hk : ∀ j ≤ sbit, svalue.getLsbD j = k.testBit (i + j)) :
    ∃ t', Simulates (evalBits x svalue sbit s) t' ∧
      t.bits 121665 x₁ k (i + sbit + 1) = t'.bits 121665 x₁ k i := by
  induction sbit generalizing s t with
  | zero =>
    refine ⟨_, h.iteration hx svalue hs, ?_⟩
    rw [hk 0 le_rfl]
    rfl
  | succ sbit ih =>
    obtain ⟨t', ht', hbits⟩ := ih (h.iteration hx svalue hs) (by omega)
      fun j hj => hk j (by omega)
    refine ⟨t', ht', ?_⟩
    rw [← hbits, hk (sbit + 1) le_rfl]
    rfl

/-- The loop over the bytes below the topmost one. -/
theorem Simulates.evalBytes {s : BitVec 32 × Ladder} {t : Montgomery.Ladder F} {x : Ints} {x₁ : F}
    (h : Simulates s t) (hx : Represents x x₁) (privateKey : Key) {n : ℕ} (hn : n ≤ 31) :
    Simulates (evalBytes x privateKey.bytes n s)
      (t.bits 121665 x₁ (scalar privateKey) (8 * n)) := by
  induction n generalizing s t with
  | zero => exact h
  | succ n ih =>
    obtain ⟨t', ht', hbits⟩ := h.evalBits hx _ 7 (by norm_num)
      fun j hj => getLsbD_svalue privateKey n (by omega) (by omega)
    have hnext := ih ht' (by omega)
    rw [← hbits] at hnext
    exact hnext

/-- **The loop of `evalCurve`** is the abstract ladder on the bits of the scalar. -/
theorem RepresentsLadder.evalCurve {s : Ladder} {t : Montgomery.Ladder F} {x : Ints} {x₁ : F}
    (h : RepresentsLadder s t) (hx : Represents x x₁) (privateKey : Key) :
    RepresentsLadder (evalCurve x privateKey.bytes s)
      (t.bits 121665 x₁ (scalar privateKey) 255) := by
  have hstart : Simulates (0#32, s) t := ⟨Nat.zero_le 1, h⟩
  obtain ⟨t', ht', hbits⟩ := hstart.evalBits hx
    ((privateKey.bytes.getD 31 0).signExtend 32 ||| 0x40#32) 6 (by norm_num)
    fun j hj => getLsbD_svalue_top privateKey (by omega)
  have hloop := ht'.evalBytes hx privateKey le_rfl
  rw [show 8 * 31 + 6 + 1 = 255 from rfl] at hbits
  rw [← hbits] at hloop
  have hswap := hloop.ladder.swap _ hloop.le_one
  rwa [Montgomery.Ladder.swap_swap, Bool.xor_self, Montgomery.Ladder.swap_false] at hswap

/-! ## Bytes -/

/-- The thirty-two bytes of a number, least significant first. -/
def toBytes (n : ℕ) : List (BitVec 8) :=
  (List.range 32).map fun i => BitVec.ofNat 8 (n / 2 ^ (8 * i))

/-- **Packing.**  The bytes are those of the number. -/
theorem packByte_eq {x : Ints} (hx : Wide x) (i : ℕ) :
    packByte x i = BitVec.ofNat 8 (value 26 x / 2 ^ (8 * i)) := by
  have hmsb : ∀ w, (x.getD w 0).msb = false := fun w =>
    msb_eq_false (by have := hx.bounded.getD w; omega)
  have hsplit : 8 * i = 26 * (i * 8 / 26) + i * 8 % 26 := by omega
  have hmod : i * 8 % 26 < 26 := Nat.mod_lt _ (by norm_num)
  apply BitVec.eq_of_getLsbD_eq
  intro j hj
  -- bit `j` of the byte is bit `8 i + j` of the number, in one limb or the next
  have hright : (BitVec.ofNat 8 (value 26 x / 2 ^ (8 * i))).getLsbD j =
      (value 26 x).testBit (26 * (i * 8 / 26) + (i * 8 % 26 + j)) := by
    rw [BitVec.getLsbD_ofNat, Nat.testBit_div_two_pow, Nat.add_comm j, hsplit]
    simp [hj, Nat.add_assoc]
  rw [hright, packByte]
  generalize i * 8 % 26 = bit at hmod ⊢
  generalize i * 8 / 26 = word
  split
  · rename_i hbit
    rw [testBit_value hx.bounded _ (by omega), BitVec.sshiftRight_eq_of_msb_false (hmsb _)]
    simp [hj]
  · rename_i hbit
    rw [BitVec.sshiftRight_eq_of_msb_false (hmsb _)]
    by_cases hlow : bit + j < 26
    · rw [testBit_value hx.bounded _ hlow]
      simp [hj, show j < 26 - bit by omega]
    · rw [show 26 * word + (bit + j) = 26 * (word + 1) + (bit + j - 26) by omega,
        testBit_value hx.bounded _ (by omega)]
      have hzero := hx.bounded.getLsbD_eq_false word (show 26 ≤ bit + j by omega)
      rw [BitVec.truncate_eq_setWidth, BitVec.getLsbD_setWidth, BitVec.getLsbD_or,
        BitVec.getLsbD_ushiftRight, hzero, BitVec.getLsbD_shiftLeft,
        show j - (26 - bit) = bit + j - 26 by omega]
      simp [hj, show j < 32 by omega, show 26 - bit ≤ j by omega]

theorem toNat_byte (b : BitVec 8) : (b.signExtend 32 &&& 0xFF#32).toNat = b.toNat := by
  revert b
  decide

/-- A byte that fits into a limb above what is there. -/
theorem toNat_or_byte {l v : BitVec 32} {bit : ℕ} (hl : l.toNat < 2 ^ bit) (hv : v.toNat < 256)
    (hbit : bit ≤ 18) :
    (l ||| v <<< bit).toNat = l.toNat + v.toNat * 2 ^ bit ∧ (l ||| v <<< bit).toNat < 2 ^ 26 := by
  have hfit : l.toNat + v.toNat * 2 ^ bit < 2 ^ 26 :=
    calc l.toNat + v.toNat * 2 ^ bit < 2 ^ bit + v.toNat * 2 ^ bit := by omega
      _ = (v.toNat + 1) * 2 ^ bit := by ring
      _ ≤ 2 ^ 8 * 2 ^ 18 := Nat.mul_le_mul (by omega) (Nat.pow_le_pow_right (by norm_num) hbit)
      _ = 2 ^ 26 := by norm_num
  have heq : (l ||| v <<< bit).toNat = l.toNat + v.toNat * 2 ^ bit := by
    rw [BitVec.toNat_or, BitVec.toNat_shiftLeft, Nat.shiftLeft_eq,
      Nat.mod_eq_of_lt (by omega), or_mul_two_pow _ hl]
  exact ⟨heq, by omega⟩

/-- The part of a byte that fits. -/
theorem toNat_or_byte_mask {l v : BitVec 32} {bit : ℕ} (hl : l.toNat < 2 ^ bit) (hbit : bit < 26) :
    ((l ||| v <<< bit) &&& mask26).toNat = l.toNat + v.toNat % 2 ^ (26 - bit) * 2 ^ bit := by
  have hpow : 2 ^ 26 = 2 ^ (26 - bit) * 2 ^ bit := by
    rw [← pow_add]
    congr 1
    omega
  have hl26 : l.toNat % 2 ^ 26 = l.toNat :=
    Nat.mod_eq_of_lt (hl.trans (Nat.pow_lt_pow_right (by norm_num) hbit))
  rw [toNat_and_mask26, BitVec.toNat_or, BitVec.toNat_shiftLeft, Nat.shiftLeft_eq,
    Nat.or_mod_two_pow, hl26, Nat.mod_mod_of_dvd _ (by norm_num), hpow, Nat.mul_mod_mul_right,
    or_mul_two_pow _ hl]

/-- **Unpacking** adds one byte after the other at its weight. -/
theorem unpackByte_spec {x : Ints} (hx : Wide x) (publicKey : List (BitVec 8)) {i : ℕ} (hi : i < 32)
    (hlt : value 26 x < 2 ^ (8 * i)) :
    Wide (unpackByte publicKey x i) ∧ value 26 (unpackByte publicKey x i) =
      value 26 x + 2 ^ (8 * i) * (publicKey.getD i 0).toNat := by
  have hbyte := toNat_byte (publicKey.getD i 0)
  have hb := (publicKey.getD i 0).isLt
  have hsplit : 8 * i = 26 * (i * 8 / 26) + i * 8 % 26 := by omega
  have hmod : i * 8 % 26 < 26 := Nat.mod_lt _ (by norm_num)
  have hword : i * 8 / 26 < 10 := by omega
  have hnext : 18 < i * 8 % 26 → i * 8 / 26 + 1 < 10 := by omega
  rw [unpackByte, ← hbyte]
  rw [← hbyte] at hb
  rw [hsplit] at hlt ⊢
  generalize i * 8 % 26 = bit at *
  generalize i * 8 / 26 = word at *
  generalize (publicKey.getD i 0).signExtend 32 &&& 0xFF#32 = v at *
  -- the limb has been filled up to `bit`, the next one not at all
  have hlimb : (x.getD word 0).toNat < 2 ^ bit := by
    rw [getD_eq_digit hx.bounded]
    refine (Nat.mod_le _ _).trans_lt (Nat.div_lt_of_lt_mul ?_)
    rwa [← pow_add]
  have hzero : (x.getD (word + 1) 0).toNat = 0 := by
    rw [getD_eq_digit hx.bounded, Nat.div_eq_of_lt, Nat.zero_mod]
    exact hlt.trans_le (Nat.pow_le_pow_right (by norm_num) (by omega))
  have hpow : 2 ^ (26 * word + bit) = 2 ^ (26 * word) * 2 ^ bit := pow_add _ _ _
  have hlen := hx.length_eq
  split
  · rename_i hbit
    obtain ⟨heq, hfit⟩ := toNat_or_byte hlimb hb hbit
    refine ⟨⟨by rw [List.length_modify, hlen], hx.bounded.modify hfit⟩, ?_⟩
    have hvalue := value_modify 26 (· ||| v <<< bit) (show word < x.length by omega)
    rw [heq] at hvalue
    rw [hpow]
    linarith
  · rename_i hbit
    have heq := toNat_or_byte_mask (v := v) hlimb hmod
    have hshift : (x.getD (word + 1) 0 ||| v.sshiftRight (26 - bit)).toNat =
        v.toNat / 2 ^ (26 - bit) := by
      rw [BitVec.toNat_or, hzero, Nat.zero_or, toNat_sshiftRight (by omega)]
    have hword' : word + 1 < x.length := by have := hnext (by omega); omega
    have hsame : (x.modify word fun l => (l ||| v <<< bit) &&& mask26).getD (word + 1) 0 =
        x.getD (word + 1) 0 := by
      rw [getD_modify _ _ hword', if_neg (by omega)]
    have hfirst := value_modify 26 (fun l => (l ||| v <<< bit) &&& mask26)
      (show word < x.length by omega)
    have hsecond := value_modify 26 (· ||| v.sshiftRight (26 - bit))
      (show word + 1 < (x.modify word fun l => (l ||| v <<< bit) &&& mask26).length by
        rwa [List.length_modify])
    rw [heq] at hfirst
    rw [hsame, hshift, hzero] at hsecond
    refine ⟨⟨by rw [List.length_modify, List.length_modify, hlen], ?_⟩, ?_⟩
    · refine (hx.bounded.modify (by rw [toNat_and_mask26]; omega)).modify ?_
      rw [hsame, hshift]
      exact (Nat.div_le_self _ _).trans_lt (by omega)
    · -- the two parts of the byte, at their weights, are the byte
      have hpow' : 2 ^ (26 * (word + 1)) = 2 ^ (26 * word) * (2 ^ (26 - bit) * 2 ^ bit) := by
        rw [← pow_add, ← pow_add]
        congr 1
        omega
      have hparts : 2 ^ (26 * word) * 2 ^ bit * v.toNat =
          2 ^ (26 * word) * (v.toNat % 2 ^ (26 - bit) * 2 ^ bit) +
            2 ^ (26 * word) * (2 ^ (26 - bit) * 2 ^ bit) * (v.toNat / 2 ^ (26 - bit)) := by
        conv_lhs => rw [← Nat.mod_add_div v.toNat (2 ^ (26 - bit))]
        ring
      rw [hpow'] at hsecond
      rw [hpow, hparts]
      linarith

theorem wide_zero : Wide (List.replicate 10 0#32) where
  length_eq := rfl
  bounded := by
    intro l hl
    rw [List.eq_of_mem_replicate hl]
    decide

/-- The unpacked limbs are the number of the bytes. -/
theorem unpack_loop {publicKey : List (BitVec 8)} {n : ℕ} (hn : n ≤ 32)
    (hlen : publicKey.length = 32) :
    Wide ((List.range n).foldl (unpackByte publicKey) (List.replicate 10 0#32)) ∧
      value 26 ((List.range n).foldl (unpackByte publicKey) (List.replicate 10 0#32)) =
        value 8 (publicKey.take n) := by
  induction n with
  | zero => exact ⟨wide_zero, by simp [List.replicate]⟩
  | succ n ih =>
    obtain ⟨hwide, hvalue⟩ := ih (by omega)
    have htake : (publicKey.take n).length = n := by rw [List.length_take]; omega
    have hlt : value 8 (publicKey.take n) < 2 ^ (8 * n) := by
      have := value_lt (bounded_self (publicKey.take n))
      rwa [htake] at this
    obtain ⟨hwide', hvalue'⟩ := unpackByte_spec hwide publicKey (show n < 32 by omega)
      (by rw [hvalue]; exact hlt)
    rw [List.range_succ, List.foldl_append, List.foldl_cons, List.foldl_nil]
    refine ⟨hwide', ?_⟩
    rw [hvalue', hvalue, List.take_succ_eq_append_getElem (by omega), value_append, htake,
      List.getD_eq_getElem _ _ (by omega)]
    simp

/-- The number of a public key. -/
def coordinate (publicKey : Key) : ℕ := value 8 publicKey.bytes

/-- **The coordinate the ladder starts from**, for every public key the two trial
subtractions reduce: all but the nineteen topmost numbers. -/
theorem represents_unpack (publicKey : Key) (hlt : coordinate publicKey < 2 ^ 256 - 19) :
    Represents (unpack (some publicKey.bytes)) (coordinate publicKey : F) := by
  obtain ⟨hwide, hvalue⟩ := unpack_loop le_rfl publicKey.length_bytes
  rw [List.take_of_length_le (by rw [publicKey.length_bytes])] at hvalue
  rw [coordinate] at hlt ⊢
  rw [← hvalue] at hlt ⊢
  rw [unpack]
  generalize (List.range 32).foldl (unpackByte publicKey.bytes) (List.replicate 10 0#32) = x at *
  obtain ⟨hwide₁, hvalue₁⟩ := reduceQuick_spec hwide (by omega)
  have hsmall : value 26 (reduceQuick x) < 2 * p := by
    rw [hvalue₁]
    split
    · omega
    · unfold p
      omega
  obtain ⟨hcanonical, hvalue₂⟩ := canonical_reduceQuick hwide₁ hsmall
  refine ⟨hcanonical, ?_⟩
  rw [hvalue₂, ZMod.natCast_mod, hvalue₁]
  split
  · rfl
  · rename_i hge
    rw [Nat.cast_sub (by omega), ZMod.natCast_self, sub_zero]

/-- A number in the lowest limb. -/
theorem represents_small (n : ℕ) (hn : n < 2 ^ 26) :
    Represents (BitVec.ofNat 32 n :: List.replicate 9 0#32) (n : F) := by
  have hvalue : value 26 (BitVec.ofNat 32 n :: List.replicate 9 0#32) = n := by
    rw [value_cons, BitVec.toNat_ofNat, Nat.mod_eq_of_lt (by omega)]
    simp [List.replicate]
  refine ⟨⟨⟨rfl, ?_⟩, ?_⟩, by rw [hvalue]⟩
  · refine bounded_cons.mpr ⟨?_, fun l hl => ?_⟩
    · rw [BitVec.toNat_ofNat]
      omega
    · rw [List.eq_of_mem_replicate hl]
      decide
  · rw [hvalue]
    unfold p
    omega

/-! ## The evaluation -/

/-- The ladder of RFC 7748 over the bits of `k` from the coordinate `u`, and the quotient at
its end.  How a key is decoded to a coordinate is not part of it. -/
def x25519 (k : ℕ) (u : F) : F :=
  ((Montgomery.Ladder.start u).bits 121665 u k 255).x₂ *
    ((Montgomery.Ladder.start u).bits 121665 u k 255).z₂⁻¹

theorem eval_eq_of_represents {privateKey : Key} {publicKey : Option (List (BitVec 8))} {u : F}
    (h : Represents (unpack publicKey) u) :
    eval privateKey.bytes publicKey = toBytes (x25519 (scalar privateKey) u).val := by
  have hone : Represents one 1 := by
    rw [← Nat.cast_one]
    exact represents_small 1 (by norm_num)
  have hzero : Represents zero 0 := by
    rw [← Nat.cast_zero]
    exact represents_small 0 (by norm_num)
  have hstart : RepresentsLadder ⟨one, zero, unpack publicKey, one⟩ (Montgomery.Ladder.start u) :=
    ⟨hone, hzero, h, hone⟩
  have hloop := hstart.evalCurve h privateKey
  have hresult := hloop.x_2.mul hloop.z_2.recip
  rw [eval, toBytes, x25519, ← hresult.value_eq]
  exact List.map_congr_left fun i _ => packByte_eq hresult.canonical.toWide i

theorem eval_some_eq_x25519 (privateKey publicKey : Key)
    (hlt : coordinate publicKey < 2 ^ 256 - 19) :
    eval privateKey.bytes (some publicKey.bytes) =
      toBytes (x25519 (scalar privateKey) (coordinate publicKey)).val :=
  eval_eq_of_represents (represents_unpack publicKey hlt)

/-- Without a public key the base point is used. -/
theorem eval_none_eq_x25519 (privateKey : Key) :
    eval privateKey.bytes none = toBytes (x25519 (scalar privateKey) 9).val := by
  have h := represents_small 9 (by norm_num)
  rw [Nat.cast_ofNat] at h
  exact eval_eq_of_represents h

/-- The coordinate the RFC decodes from a key: the topmost bit is cleared. -/
def decodeUCoordinate (publicKey : Key) : ℕ := coordinate publicKey % 2 ^ 255

/-- **The code computes the ladder of RFC 7748**, for every private key and every public key
below `2 ^ 256 - 19`, whose number is reduced and whose topmost bit is not cleared; the base
point is used when there is none.  For the public keys below `2 ^ 255` that is the X25519 of
the RFC. -/
theorem eval_eq_x25519 (privateKey : Key) (publicKey : Option Key)
    (hlt : ∀ k ∈ publicKey, coordinate k < 2 ^ 256 - 19) :
    eval privateKey.bytes (publicKey.map Key.bytes) =
        toBytes (x25519 (scalar privateKey) (publicKey.elim 9 fun k => (coordinate k : F))).val ∧
      ((∀ k ∈ publicKey, coordinate k < 2 ^ 255) →
        eval privateKey.bytes (publicKey.map Key.bytes) = toBytes (x25519 (scalar privateKey)
          (publicKey.elim 9 fun k => (decodeUCoordinate k : F))).val) := by
  cases publicKey with
  | none => exact ⟨eval_none_eq_x25519 privateKey, fun _ => eval_none_eq_x25519 privateKey⟩
  | some k =>
    have heval := eval_some_eq_x25519 privateKey k (hlt k rfl)
    refine ⟨heval, fun hsmall => ?_⟩
    rw [Option.elim_some, decodeUCoordinate, Nat.mod_eq_of_lt (hsmall k rfl)]
    exact heval

/-- The keys whose bytes are all one. -/
theorem eval_eq_x25519_ones :
    coordinate ⟨List.replicate 32 1#8, rfl⟩ < 2 ^ 255 ∧
      eval (List.replicate 32 1#8) (some (List.replicate 32 1#8)) =
        toBytes (x25519 (scalar ⟨List.replicate 32 1#8, rfl⟩)
          (decodeUCoordinate ⟨List.replicate 32 1#8, rfl⟩ : F)).val :=
  have hlt : coordinate ⟨List.replicate 32 1#8, rfl⟩ < 2 ^ 255 := by decide +kernel
  ⟨hlt, (eval_eq_x25519 ⟨List.replicate 32 1#8, rfl⟩ (some ⟨List.replicate 32 1#8, rfl⟩)
    fun _ hk => Option.mem_some.mp hk ▸ hlt.trans (by norm_num)).2
      fun _ hk => Option.mem_some.mp hk ▸ hlt⟩

end Curve25519
end AioVpn
