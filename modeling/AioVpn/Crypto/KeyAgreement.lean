import AioVpn.Crypto.X25519

/-!
# Public keys and shared secrets

What the evaluation means.  On the points of Curve25519, `eval` is multiplication by
the scalar of the private key: the coordinate of a point goes to the coordinate of the
multiple.  The coordinate zero belongs to two points, the one at infinity and the one of
order two; every scalar is even, so both multiples are the point at infinity and
nothing has to be excluded.

* `eval_keyOf`: the evaluation on the key of a point.
* `eval_eq_smul`: public keys are multiples of the base point.
* `eval_generatePublicKey_comm`: two parties that exchange public keys arrive at one
  secret.
-/

namespace AioVpn
namespace Curve25519

open Limbs Montgomery WeierstrassCurve.Affine

/-! ## The curve -/

/-- The points of Curve25519. -/
abbrev CurvePoint := (curve (486662 : F)).Point

theorem natCast_ne_zero {n : ℕ} (h0 : 0 < n) (hlt : n < p) : (n : F) ≠ 0 := by
  rw [Ne, ZMod.natCast_eq_zero_iff]
  exact fun hdvd => absurd (Nat.le_of_dvd h0 hdvd) (by omega)

theorem regular : Regular (486662 : F) 121665 where
  two_ne := by
    have h := natCast_ne_zero (n := 2) (by norm_num) (by norm_num [p])
    rwa [Nat.cast_ofNat] at h
  disc := by
    intro h4
    refine natCast_ne_zero (n := 236839902240) (by norm_num) (by norm_num [p]) ?_
    push_cast
    linear_combination h4
  a24_eq := by norm_num

/-- The second coordinate of the base point. -/
def baseY : ℕ := 14781619447589544791020593568409986887264606134616475288964881837755586237401

theorem nonsingular_base : (curve (486662 : F)).Nonsingular 9 (baseY : F) := by
  have heq : (baseY : F) ^ 2 = 9 ^ 3 + 486662 * 9 ^ 2 + 9 := by
    have hnat : ((baseY ^ 2 : ℕ) : F) = ((39420360 : ℕ) : F) := by
      rw [ZMod.natCast_eq_natCast_iff']
      norm_num [baseY, p]
    push_cast at hnat
    rw [hnat]
    norm_num
  refine (nonsingular_iff _ _).mpr ⟨equation_iff.mpr heq, Or.inr fun hy => ?_⟩
  have hzero : (baseY : F) = 0 := (eq_negY_iff regular.two_ne).mp hy
  exact natCast_ne_zero (n := baseY) (by norm_num [baseY]) (by norm_num [baseY, p]) hzero

/-- The base point. -/
def basePoint : CurvePoint := .some 9 baseY nonsingular_base

/-! ## The ladder on points -/

theorem x25519_zero (k : ℕ) : x25519 k 0 = 0 := by
  have hprod := Montgomery.Ladder.bits_zero (121665 : F) k 255
    (s := Montgomery.Ladder.start 0) (by simp [Montgomery.Ladder.start])
    (by simp [Montgomery.Ladder.start])
  rw [x25519]
  rcases mul_eq_zero.mp hprod with h | h
  · rw [h, zero_mul]
  · rw [h, inv_zero, mul_zero]

/-- **On the coordinate of a point, X25519 is multiplication by the scalar.** -/
theorem x25519_xCoord {k : ℕ} (hk : k < 2 ^ 255) (heven : 2 ∣ k) (P : CurvePoint) :
    x25519 k (xCoord P) = xCoord (k • P) := by
  cases P with
  | zero =>
    change x25519 k 0 = xCoord (k • (0 : CurvePoint))
    rw [x25519_zero, nsmul_zero]
    rfl
  | some x y h =>
    by_cases hx : x = 0
    · -- the point of order two
      subst hx
      have hy : y = 0 := by
        have heq := equation_iff.mp h.1
        exact pow_eq_zero_iff (two_ne_zero) |>.mp (by rw [heq]; ring)
      have hdouble : (2 : ℕ) • (Point.some 0 y h : CurvePoint) = 0 := by
        rw [two_smul]
        exact Point.add_self_of_Y_eq ((eq_negY_iff regular.two_ne).mpr hy)
      obtain ⟨m, rfl⟩ := heven
      rw [mul_comm 2 m, mul_nsmul', hdouble, nsmul_zero]
      exact x25519_zero _
    · exact (xCoord_smul regular hx h hk).symm

theorem two_dvd_scalar (privateKey : Key) : 2 ∣ scalar privateKey := by
  have hdigit := getD_eq_digit (bounded_self (clamp privateKey.bytes)) 0
  have heven : (privateKey.bytes.getD 0 0 &&& 248#8).toNat % 2 = 0 := by
    generalize privateKey.bytes.getD 0 0 = b
    revert b
    decide
  rw [getD_clamp _ (by norm_num), if_neg (by norm_num), if_pos rfl] at hdigit
  rw [scalar]
  omega

/-! ## Keys -/

theorem value_bytes (n m : ℕ) :
    value 8 ((List.range m).map fun i => BitVec.ofNat 8 (n / 2 ^ (8 * i))) = n % 2 ^ (8 * m) := by
  induction m with
  | zero => simp [Nat.mod_one]
  | succ m ih =>
    rw [List.range_succ, List.map_append, value_append, ih, List.length_map, List.length_range,
      pow_mul 2 8 (m + 1), Nat.mod_pow_succ, ← pow_mul]
    simp

theorem value_toBytes {n : ℕ} (hn : n < 2 ^ 256) : value 8 (toBytes n) = n := by
  rw [toBytes, value_bytes, Nat.mod_eq_of_lt hn]

/-- The key with the coordinate of a point. -/
def keyOf (P : CurvePoint) : Key := ⟨toBytes (xCoord P).val, by simp [toBytes]⟩

theorem coordinate_keyOf (P : CurvePoint) : coordinate (keyOf P) = (xCoord P).val := by
  have hlt := ZMod.val_lt (xCoord P)
  exact value_toBytes (hlt.trans (by norm_num [p]))

/-- **Evaluating on the key of a point** gives the key of the multiple. -/
theorem eval_keyOf (privateKey : Key) (P : CurvePoint) :
    eval privateKey.bytes (some (keyOf P).bytes) = (keyOf (scalar privateKey • P)).bytes := by
  have hlt := ZMod.val_lt (xCoord P)
  have hcoord := coordinate_keyOf P
  rw [eval_some_eq_x25519 _ _ (by rw [hcoord]; exact hlt.trans (by norm_num [p])), hcoord,
    ZMod.natCast_zmod_val, x25519_xCoord (scalar_lt _) (two_dvd_scalar _)]
  rfl

theorem eval_none_eq (privateKey : Key) :
    eval privateKey.bytes none = (keyOf (scalar privateKey • basePoint)).bytes := by
  rw [eval_none_eq_x25519, show (9 : F) = xCoord basePoint from rfl,
    x25519_xCoord (scalar_lt _) (two_dvd_scalar _)]
  rfl

theorem generatePublicKey_eq (privateKey : Key) :
    privateKey.generatePublicKey = keyOf (scalar privateKey • basePoint) := by
  have h := eval_none_eq privateKey
  rw [Key.generatePublicKey]
  generalize keyOf (scalar privateKey • basePoint) = k at h ⊢
  cases k
  exact (Key.mk.injEq ..).mpr h

/-- **A public key is a multiple of the base point, and `eval` multiplies.**  The public
key of every private key has the coordinate of the multiple of the base point by its
scalar, and evaluating on the key of any point of the curve gives the key of the
multiple of that point. -/
theorem eval_eq_smul (privateKey : Key) (P : CurvePoint) :
    privateKey.generatePublicKey = keyOf (scalar privateKey • basePoint) ∧
      eval privateKey.bytes (some (keyOf P).bytes) = (keyOf (scalar privateKey • P)).bytes :=
  ⟨generatePublicKey_eq privateKey, eval_keyOf privateKey P⟩

/-- **Two parties arrive at one secret.**  Each evaluates its private key on the public key
of the other. -/
theorem eval_generatePublicKey_comm (a b : Key) :
    eval a.bytes (some b.generatePublicKey.bytes) =
      eval b.bytes (some a.generatePublicKey.bytes) := by
  rw [generatePublicKey_eq, generatePublicKey_eq, eval_keyOf, eval_keyOf, smul_smul, smul_smul,
    mul_comm]

end Curve25519
end AioVpn
