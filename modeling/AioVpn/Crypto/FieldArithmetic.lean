import AioVpn.Crypto.Curve25519
import AioVpn.Crypto.FieldPrime
import AioVpn.Crypto.Limbs

/-!
# The arithmetic of `Curve25519` is that of the field

Every operation of the class is followed through Java's `int` and `long` arithmetic:
no sum, product or shift in it loses a bit, and what comes out is the remainder modulo
`2 ^ 255 - 19` of what the operation is named after, in ten limbs of twenty-six bits.

## How the loops are described

A loop that carries keeps one equation between the value of what it has written, the
value of what it has read, and the carry at its weight.  The equations of the loops are
`carryLoop_spec`, `addLoop_spec`, `subLoop_spec`, `borrowLoop_spec`, `reduceLoop_spec`,
`splitLoop_spec` and `mulA24Loop_spec`; each is an induction whose step is a fact about
one limb.  The bounds in their hypotheses are what keeps the words from overflowing.

## The results

* `reduceQuick_spec`: one trial subtraction.
* `reduce_spec`: a number below `2 ^ 510` comes out reduced.
* `Represents`: limbs that are the canonical form of a field element; `add`, `sub`,
  `mul`, `square` and `mulA24` respect it.
-/

namespace AioVpn
namespace Curve25519

open Limbs

/-- Ten limbs of twenty-six bits. -/
structure Wide (x : Ints) : Prop where
  length_eq : x.length = 10
  bounded : Bounded 26 x

/-- The limbs of a number that is reduced. -/
structure Canonical (x : Ints) : Prop extends Wide x where
  lt_p : value 26 x < p

/-- Ten limbs are five bits more than the field. -/
theorem two_pow_limbs : 2 ^ (26 * 10) = 32 * 2 ^ 255 := by
  rw [show 26 * 10 = 5 + 255 from rfl, pow_add]
  norm_num

theorem Wide.value_lt {x : Ints} (h : Wide x) : value 26 x < 32 * 2 ^ 255 := by
  have := Limbs.value_lt h.bounded
  rwa [h.length_eq, two_pow_limbs] at this

/-! ## Masks -/

theorem toNat_and_mask26 (l : BitVec 32) : (l &&& mask26).toNat = l.toNat % 2 ^ 26 :=
  toNat_and_ones l 26 (by norm_num)

theorem toNat_and_mask21 (l : BitVec 32) : (l &&& mask21).toNat = l.toNat % 2 ^ 21 :=
  toNat_and_ones l 21 (by norm_num)

theorem Wide.maskTop {x : Ints} (h : Wide x) : Wide (maskTop x) where
  length_eq := by rw [Curve25519.maskTop, List.length_modify, h.length_eq]
  bounded := h.bounded.modify (by rw [toNat_and_mask21]; omega)

/-- The topmost limb above its twenty-one bits is the number above bit 255. -/
theorem Wide.toNat_top {x : Ints} (h : Wide x) :
    ((x.getD 9 0).sshiftRight 21).toNat = value 26 x / 2 ^ 255 := by
  have hdigit := getD_eq_digit h.bounded 9
  have hlt := h.value_lt
  rw [toNat_sshiftRight (by have := h.bounded.getD 9; omega), hdigit]
  omega

/-- Masking the topmost limb is the remainder modulo `2 ^ 255`. -/
theorem Wide.value_maskTop {x : Ints} (h : Wide x) :
    value 26 (Curve25519.maskTop x) = value 26 x % 2 ^ 255 := by
  have hmodify := value_modify 26 (· &&& mask21) (show 9 < x.length by rw [h.length_eq]; norm_num)
  have hdigit := getD_eq_digit h.bounded 9
  have hlt := h.value_lt
  rw [toNat_and_mask21, hdigit] at hmodify
  change value 26 (x.modify 9 (· &&& mask21)) = _
  omega

/-! ## Carries -/

/-- **The carry loop** adds its carry to the number; what does not fit is the carry it
ends with. -/
theorem carryLoop_spec {x : Ints} (hx : Bounded 26 x) (carry : BitVec 32)
    (hc : carry.toNat < 2 ^ 30) :
    (carryLoop carry x).1.length = x.length ∧ Bounded 26 (carryLoop carry x).1 ∧
      value 26 (carryLoop carry x).1 + 2 ^ (26 * x.length) * (carryLoop carry x).2.toNat =
        carry.toNat + value 26 x := by
  induction x generalizing carry with
  | nil => simp [carryLoop, bounded_nil]
  | cons l x ih =>
    obtain ⟨hl, hx⟩ := bounded_cons.mp hx
    have hsum : (carry + l).toNat = carry.toNat + l.toNat := by
      rw [BitVec.toNat_add, Nat.mod_eq_of_lt (by omega)]
    have hshift : ((carry + l).sshiftRight 26).toNat = (carry.toNat + l.toNat) / 2 ^ 26 := by
      rw [toNat_sshiftRight (by omega), hsum]
    obtain ⟨hlen, hbound, hvalue⟩ := ih hx ((carry + l).sshiftRight 26) (by omega)
    refine ⟨by simp [carryLoop, hlen], ?_, ?_⟩
    · exact bounded_cons.mpr ⟨by rw [toNat_and_mask26]; omega, hbound⟩
    · rw [hshift] at hvalue
      rw [carryLoop, value_cons, value_cons, toNat_and_mask26, hsum, List.length_cons,
        Nat.mul_succ, pow_add]
      linarith [Nat.mod_add_div (carry.toNat + l.toNat) (2 ^ 26)]

/-- The carry loop on ten limbs whose sum fits. -/
theorem value_carryLoop {x : Ints} (hx : Wide x) (carry : BitVec 32) (hc : carry.toNat < 2 ^ 30)
    (hfit : carry.toNat + value 26 x < 32 * 2 ^ 255) :
    Wide (carryLoop carry x).1 ∧ value 26 (carryLoop carry x).1 = carry.toNat + value 26 x := by
  obtain ⟨hlen, hbound, hvalue⟩ := carryLoop_spec hx.bounded carry hc
  rw [hx.length_eq] at hlen hvalue
  rw [two_pow_limbs] at hvalue
  exact ⟨⟨hlen, hbound⟩, by omega⟩

/-- **One trial subtraction.**  A number at least `p` loses `p` once. -/
theorem reduceQuick_spec {x : Ints} (hx : Wide x) (hlt : value 26 x < 2 * 2 ^ 255 - 19) :
    Wide (reduceQuick x) ∧
      value 26 (reduceQuick x) = if value 26 x < p then value 26 x else value 26 x - p := by
  obtain ⟨hwide, hvalue⟩ := value_carryLoop hx 19#32 (by decide)
    (by rw [show (19#32).toNat = 19 from rfl]; omega)
  rw [show (19#32).toNat = 19 from rfl] at hvalue
  have hbit : (((carryLoop 19#32 x).1.getD 9 0).sshiftRight 21 &&& 1#32).toNat =
      (19 + value 26 x) / 2 ^ 255 := by
    have htop := hwide.toNat_top
    have hsmall := hwide.bounded.getD 9
    rw [toNat_sshiftRight (by omega)] at htop
    rw [toNat_sshiftRight_and_one _ (by norm_num), htop, hvalue]
    omega
  have heq : reduceQuick x = if (19 + value 26 x) / 2 ^ 255 = 1 then
      maskTop (carryLoop 19#32 x).1 else x := by
    rw [← hbit]
    exact zipWith_select_bit (by rw [hx.length_eq, hwide.maskTop.length_eq]) _ (by omega)
  rw [heq]
  by_cases hge : value 26 x < p
  · rw [if_neg (by unfold p at hge; omega), if_pos hge]
    exact ⟨hx, rfl⟩
  · rw [if_pos (by unfold p at hge; omega), if_neg hge, hwide.value_maskTop, hvalue]
    exact ⟨hwide.maskTop, by unfold p at hge ⊢; omega⟩

theorem canonical_reduceQuick {x : Ints} (hx : Wide x) (hlt : value 26 x < 2 * p) :
    Canonical (reduceQuick x) ∧ value 26 (reduceQuick x) = value 26 x % p := by
  obtain ⟨hwide, hvalue⟩ := reduceQuick_spec hx (by unfold p at hlt; omega)
  have hmod : value 26 (reduceQuick x) = value 26 x % p := by
    rw [hvalue]
    split_ifs with hge
    · exact (Nat.mod_eq_of_lt hge).symm
    · rw [Nat.mod_eq_sub_mod (by omega), Nat.mod_eq_of_lt (by omega)]
  exact ⟨⟨hwide, by rw [hmod]; exact Nat.mod_lt _ (by unfold p; omega)⟩, hmod⟩

/-! ## Sums -/

theorem addLoop_spec {x y : Ints} (hx : Bounded 26 x) (hy : Bounded 26 y)
    (hlen : x.length = y.length) (carry : BitVec 32) (hc : carry.toNat < 2 ^ 30) :
    (addLoop carry x y).length = x.length ∧ Bounded 26 (addLoop carry x y) ∧
      ∃ out, value 26 (addLoop carry x y) + 2 ^ (26 * x.length) * out =
        carry.toNat / 2 ^ 26 + value 26 x + value 26 y := by
  induction x generalizing y carry with
  | nil =>
    obtain rfl := List.length_eq_zero_iff.mp hlen.symm
    exact ⟨rfl, bounded_nil, carry.toNat / 2 ^ 26, by simp [addLoop]⟩
  | cons l x ih =>
    cases y with
    | nil => exact absurd hlen (by simp)
    | cons m y =>
      obtain ⟨hl, hx⟩ := bounded_cons.mp hx
      obtain ⟨hm, hy⟩ := bounded_cons.mp hy
      have hsum : (carry.sshiftRight 26 + l + m).toNat =
          carry.toNat / 2 ^ 26 + l.toNat + m.toNat := by
        rw [BitVec.toNat_add, BitVec.toNat_add, toNat_sshiftRight (by omega)]
        omega
      obtain ⟨hlen', hbound, out, hvalue⟩ := ih hx hy (Nat.succ.inj hlen)
        (carry.sshiftRight 26 + l + m) (by omega)
      refine ⟨by simp [addLoop, hlen'], ?_, out, ?_⟩
      · exact bounded_cons.mpr ⟨by rw [toNat_and_mask26]; omega, hbound⟩
      · rw [hsum] at hvalue
        rw [addLoop, value_cons, value_cons, value_cons, toNat_and_mask26, hsum, List.length_cons,
          Nat.mul_succ, pow_add]
        linarith [Nat.mod_add_div (carry.toNat / 2 ^ 26 + l.toNat + m.toNat) (2 ^ 26)]

theorem add_spec {x y : Ints} (hx : Canonical x) (hy : Canonical y) :
    Canonical (add x y) ∧ value 26 (add x y) = (value 26 x + value 26 y) % p := by
  obtain ⟨hlen, hbound, out, hvalue⟩ := addLoop_spec hx.bounded hy.bounded
    (by rw [hx.length_eq, hy.length_eq]) 0#32 (by decide)
  have hltx := hx.lt_p
  have hlty := hy.lt_p
  rw [hx.length_eq] at hlen hvalue
  rw [two_pow_limbs, show (0#32).toNat = 0 from rfl] at hvalue
  have hsum : value 26 (addLoop 0#32 x y) = value 26 x + value 26 y := by
    unfold p at hltx hlty
    omega
  rw [← hsum]
  exact canonical_reduceQuick ⟨hlen, hbound⟩ (by omega)

/-! ## Differences -/

/-- One limb of a difference, with the borrow it leaves in bit 26. -/
theorem toNat_sub_limb {x s : BitVec 32} (hx : x.toNat < 2 ^ 26) (hs : s.toNat ≤ 2 ^ 26) :
    ((x - s) &&& mask26).toNat + s.toNat = x.toNat + 2 ^ 26 * ((x - s).toNat / 2 ^ 26 % 2) := by
  rw [toNat_and_mask26, BitVec.toNat_sub]
  omega

theorem subLoop_spec {x y : Ints} (hx : Bounded 26 x) (hy : Bounded 26 y)
    (hlen : x.length = y.length) (borrow : BitVec 32) :
    (subLoop borrow x y).1.length = x.length ∧ Bounded 26 (subLoop borrow x y).1 ∧
      value 26 (subLoop borrow x y).1 + value 26 y + borrow.toNat / 2 ^ 26 % 2 =
        value 26 x + 2 ^ (26 * x.length) * ((subLoop borrow x y).2.toNat / 2 ^ 26 % 2) := by
  induction x generalizing y borrow with
  | nil =>
    obtain rfl := List.length_eq_zero_iff.mp hlen.symm
    exact ⟨rfl, bounded_nil, by simp [subLoop]⟩
  | cons l x ih =>
    cases y with
    | nil => exact absurd hlen (by simp)
    | cons m y =>
      obtain ⟨hl, hx⟩ := bounded_cons.mp hx
      obtain ⟨hm, hy⟩ := bounded_cons.mp hy
      have hbit := toNat_sshiftRight_and_one borrow (show 26 < 32 by norm_num)
      have hsum : (m + (borrow.sshiftRight 26 &&& 1#32)).toNat =
          m.toNat + borrow.toNat / 2 ^ 26 % 2 := by
        rw [BitVec.toNat_add, hbit]
        omega
      have hlimb := toNat_sub_limb hl (s := m + (borrow.sshiftRight 26 &&& 1#32)) (by omega)
      rw [hsum, ← BitVec.sub_sub] at hlimb
      obtain ⟨hlen', hbound, hvalue⟩ := ih hx hy (Nat.succ.inj hlen)
        (l - m - (borrow.sshiftRight 26 &&& 1#32))
      refine ⟨by simp [subLoop, hlen'], ?_, ?_⟩
      · exact bounded_cons.mpr ⟨by rw [toNat_and_mask26]; omega, hbound⟩
      · rw [subLoop, value_cons, value_cons, value_cons, List.length_cons, Nat.mul_succ, pow_add]
        linarith

theorem borrowLoop_spec {x : Ints} (hx : Bounded 26 x) (borrow : BitVec 32) :
    (borrowLoop borrow x).length = x.length ∧ Bounded 26 (borrowLoop borrow x) ∧
      ∃ out ≤ 1, value 26 (borrowLoop borrow x) + borrow.toNat / 2 ^ 26 % 2 =
        value 26 x + 2 ^ (26 * x.length) * out := by
  induction x generalizing borrow with
  | nil => exact ⟨rfl, bounded_nil, borrow.toNat / 2 ^ 26 % 2, by omega, by simp [borrowLoop]⟩
  | cons l x ih =>
    obtain ⟨hl, hx⟩ := bounded_cons.mp hx
    have hbit := toNat_sshiftRight_and_one borrow (show 26 < 32 by norm_num)
    have hlimb := toNat_sub_limb hl (s := borrow.sshiftRight 26 &&& 1#32) (by omega)
    rw [hbit] at hlimb
    obtain ⟨hlen, hbound, out, hout, hvalue⟩ := ih hx (l - (borrow.sshiftRight 26 &&& 1#32))
    refine ⟨by simp [borrowLoop, hlen], ?_, out, hout, ?_⟩
    · exact bounded_cons.mpr ⟨by rw [toNat_and_mask26]; omega, hbound⟩
    · rw [borrowLoop, value_cons, value_cons, List.length_cons, Nat.mul_succ, pow_add]
      linarith

/-- The two subtractions on numbers: `b` is the borrow of the first, after which
nineteen is subtracted and everything above bit 255 dropped. -/
theorem sub_mod_p {x y r s b o : ℕ} (hx : x < p) (hy : y < p) (hr : r < 32 * 2 ^ 255)
    (hs : s < 32 * 2 ^ 255) (hb : b ≤ 1) (hfirst : r + y = x + 32 * 2 ^ 255 * b)
    (hsecond : s + 19 * b = r + 32 * 2 ^ 255 * o) : s % 2 ^ 255 = (x + p - y) % p := by
  unfold p at hx hy ⊢
  rcases Nat.le_one_iff_eq_zero_or_eq_one.mp hb with rfl | rfl
  · have ho : o = 0 := by omega
    subst ho
    omega
  · have ho : o = 0 := by omega
    subst ho
    omega

theorem sub_spec {x y : Ints} (hx : Canonical x) (hy : Canonical y) :
    Canonical (sub x y) ∧ value 26 (sub x y) = (value 26 x + p - value 26 y) % p := by
  obtain ⟨hlen, hbound, hvalue⟩ := subLoop_spec hx.bounded hy.bounded
    (by rw [hx.length_eq, hy.length_eq]) 0#32
  have hltx := hx.lt_p
  have hlty := hy.lt_p
  rw [hx.length_eq] at hlen hvalue
  rw [two_pow_limbs, show (0#32).toNat = 0 from rfl] at hvalue
  unfold sub
  rcases hsub : subLoop 0#32 x y with ⟨result, borrow⟩
  rw [hsub] at hlen hbound hvalue
  cases result with
  | nil => exact absurd hlen (by simp)
  | cons r rs =>
    obtain ⟨hr, hrs⟩ := bounded_cons.mp hbound
    have hbit := toNat_sshiftRight_and_one borrow (show 26 < 32 by norm_num)
    -- nineteen, exactly when the difference is negative
    have hnineteen : (-(borrow.sshiftRight 26 &&& 1#32) &&& 19#32).toNat =
        19 * (borrow.toNat / 2 ^ 26 % 2) := by
      rw [and_neg_bit _ _ (by omega), hbit]
      split
      · rename_i h
        rw [h]
        rfl
      · rename_i h
        rw [show borrow.toNat / 2 ^ 26 % 2 = 0 by omega]
        rfl
    have hlimb := toNat_sub_limb hr (s := -(borrow.sshiftRight 26 &&& 1#32) &&& 19#32) (by omega)
    rw [hnineteen] at hlimb
    obtain ⟨hlen', hbound', out, hout, hvalue'⟩ :=
      borrowLoop_spec hrs (r - (-(borrow.sshiftRight 26 &&& 1#32) &&& 19#32))
    have hlen9 : rs.length = 9 := Nat.succ.inj hlen
    dsimp only
    have hwide : Wide (((r - (-(borrow.sshiftRight 26 &&& 1#32) &&& 19#32)) &&& mask26) ::
        borrowLoop (r - (-(borrow.sshiftRight 26 &&& 1#32) &&& 19#32)) rs) :=
      ⟨by simp [hlen', hlen9], bounded_cons.mpr ⟨by rw [toNat_and_mask26]; omega, hbound'⟩⟩
    have hfinal : value 26 (maskTop (((r - (-(borrow.sshiftRight 26 &&& 1#32) &&& 19#32)) &&&
        mask26) :: borrowLoop (r - (-(borrow.sshiftRight 26 &&& 1#32) &&& 19#32)) rs)) =
        (value 26 x + p - value 26 y) % p := by
      rw [hwide.value_maskTop]
      refine sub_mod_p (b := borrow.toNat / 2 ^ 26 % 2) (o := out) hltx hlty
        (Wide.value_lt ⟨hlen, hbound⟩) hwide.value_lt (by omega) (by simpa using hvalue) ?_
      have hdrop : 2 ^ 26 * (2 ^ (26 * 9) * out) = 32 * 2 ^ 255 * out := by
        rw [← mul_assoc, ← pow_add, show 26 + 26 * 9 = 26 * 10 from rfl, two_pow_limbs]
      rw [hlen9] at hvalue'
      rw [value_cons, value_cons, ← hdrop]
      linarith
    exact ⟨⟨hwide.maskTop, by rw [hfinal]; exact Nat.mod_lt _ (by unfold p; omega)⟩, hfinal⟩

/-! ## Reduction -/

/-- **The first loop of `reduce`** adds nineteen times the number above bit 255.  The
number is `limb` and the high half, five bits further up; the part of it that the loop
does not reach is lost. -/
theorem reduceLoop_spec {x h : Ints} (hx : Bounded 26 x) (hh : Bounded 26 h)
    (hle : h.length ≤ x.length) (limb carry : BitVec 32) (hl : limb.toNat < 32)
    (hc : carry.toNat < 32) :
    (reduceLoop limb carry x h).length = x.length ∧ Bounded 26 (reduceLoop limb carry x h) ∧
      ∃ out, value 26 (reduceLoop limb carry x h) + 2 ^ (26 * x.length) * out +
          19 * (2 ^ (26 * h.length) * ((limb.toNat + 32 * value 26 h) / 2 ^ (26 * h.length))) =
        carry.toNat + value 26 x + 19 * (limb.toNat + 32 * value 26 h) := by
  induction x generalizing h limb carry with
  | nil =>
    obtain rfl := List.length_eq_zero_iff.mp (Nat.le_zero.mp hle)
    exact ⟨rfl, bounded_nil, carry.toNat, by simp [reduceLoop, carryLoop]⟩
  | cons l x ih =>
    cases h with
    | nil =>
      obtain ⟨hlen, hbound, hvalue⟩ := carryLoop_spec hx carry (by omega)
      exact ⟨hlen, hbound, (carryLoop carry (l :: x)).2.toNat, by simpa [reduceLoop] using hvalue⟩
    | cons m h =>
      obtain ⟨hlx, hx⟩ := bounded_cons.mp hx
      obtain ⟨hm, hh⟩ := bounded_cons.mp hh
      have hlimb : (limb + m <<< 5).toNat = limb.toNat + 32 * m.toNat := by
        rw [BitVec.toNat_add, BitVec.toNat_shiftLeft, Nat.shiftLeft_eq]
        omega
      have hlimb' : ((limb + m <<< 5).sshiftRight 26).toNat =
          (limb.toNat + 32 * m.toNat) / 2 ^ 26 := by
        rw [toNat_sshiftRight (by omega), hlimb]
      have hcarry : (carry + (((limb + m <<< 5) &&& mask26) * 19#32 + l)).toNat =
          carry.toNat + (19 * ((limb.toNat + 32 * m.toNat) % 2 ^ 26) + l.toNat) := by
        rw [BitVec.toNat_add, BitVec.toNat_add, BitVec.toNat_mul, toNat_and_mask26, hlimb,
          show (19#32).toNat = 19 from rfl]
        omega
      obtain ⟨hlen, hbound, out, hvalue⟩ := ih hx hh (Nat.le_of_succ_le_succ hle)
        ((limb + m <<< 5).sshiftRight 26)
        ((carry + (((limb + m <<< 5) &&& mask26) * 19#32 + l)).sshiftRight 26)
        (by omega) (by rw [toNat_sshiftRight (by omega)]; omega)
      refine ⟨by simp [reduceLoop, hlen], ?_, out, ?_⟩
      · exact bounded_cons.mpr ⟨by rw [toNat_and_mask26]; omega, hbound⟩
      · rw [hlimb', toNat_sshiftRight (by omega), hcarry] at hvalue
        -- what is lost is the same number, one limb further down
        have hlost : (limb.toNat + 32 * (m.toNat + 2 ^ 26 * value 26 h)) /
            (2 ^ (26 * h.length) * 2 ^ 26) =
            ((limb.toNat + 32 * m.toNat) / 2 ^ 26 + 32 * value 26 h) / 2 ^ (26 * h.length) := by
          rw [mul_comm (2 ^ (26 * h.length)), ← Nat.div_div_eq_div_mul]
          congr 1
          omega
        rw [reduceLoop, value_cons, value_cons, value_cons, toNat_and_mask26, hcarry,
          List.length_cons, List.length_cons, Nat.mul_succ, Nat.mul_succ, pow_add, pow_add, hlost]
        linarith [Nat.mod_add_div (carry.toNat + (19 * ((limb.toNat + 32 * m.toNat) % 2 ^ 26) +
          l.toNat)) (2 ^ 26), Nat.mod_add_div (limb.toNat + 32 * m.toNat) (2 ^ 26)]

/-- Folding the number above bit 255 onto the rest keeps the residue. -/
theorem fold_mod_p (n : ℕ) : (n % 2 ^ 255 + 19 * (n / 2 ^ 255)) % p = n % p := by
  have hn : n = n % 2 ^ 255 + 19 * (n / 2 ^ 255) + p * (n / 2 ^ 255) := by
    unfold p
    omega
  conv_rhs => rw [hn, Nat.add_mul_mod_self_left]

/-- **`reduce`.**  A number below `2 ^ 510`, whose part above bit 255 fits the limbs of the
high half, comes out reduced. -/
theorem reduce_spec {low high : Ints} (hlow : Wide low) (hhigh : Bounded 26 high)
    (hle : high.length ≤ 10)
    (hlt : value 26 low / 2 ^ 255 + 32 * value 26 high < 2 ^ 255)
    (hfit : value 26 low / 2 ^ 255 + 32 * value 26 high < 2 ^ (26 * high.length)) :
    Canonical (reduce low high) ∧
      value 26 (reduce low high) = (value 26 low + 32 * 2 ^ 255 * value 26 high) % p := by
  have hlowlt := hlow.value_lt
  -- the first pass
  obtain ⟨hlen, hbound, out, hvalue⟩ := reduceLoop_spec hlow.maskTop.bounded hhigh
    (by rw [hlow.maskTop.length_eq]; exact hle) ((low.getD 9 0).sshiftRight 21) 0#32
    (by rw [hlow.toNat_top]; omega) (by decide)
  rw [hlow.maskTop.length_eq] at hlen hvalue
  rw [hlow.toNat_top, hlow.value_maskTop, Nat.div_eq_of_lt hfit, two_pow_limbs,
    show (0#32).toNat = 0 from rfl] at hvalue
  have hwide : Wide (reduceLoop ((low.getD 9 0).sshiftRight 21) 0#32 (maskTop low) high) :=
    ⟨hlen, hbound⟩
  have hfirst : value 26 (reduceLoop ((low.getD 9 0).sshiftRight 21) 0#32 (maskTop low) high) =
      value 26 low % 2 ^ 255 + 19 * (value 26 low / 2 ^ 255 + 32 * value 26 high) := by
    omega
  -- the second pass
  unfold reduce
  generalize reduceLoop ((low.getD 9 0).sshiftRight 21) 0#32 (maskTop low) high = x at *
  have hcarry : ((x.getD 9 0).sshiftRight 21 * 19#32).toNat = 19 * (value 26 x / 2 ^ 255) := by
    rw [BitVec.toNat_mul, hwide.toNat_top, show (19#32).toNat = 19 from rfl]
    omega
  obtain ⟨hwide', hsecond⟩ := value_carryLoop hwide.maskTop
    ((x.getD 9 0).sshiftRight 21 * 19#32) (by omega)
    (by rw [hcarry, hwide.value_maskTop]; omega)
  rw [hcarry, hwide.value_maskTop] at hsecond
  obtain ⟨hcanonical, hmod⟩ := canonical_reduceQuick hwide' (by unfold p; omega)
  refine ⟨hcanonical, ?_⟩
  have hdiv : (value 26 low + 32 * 2 ^ 255 * value 26 high) / 2 ^ 255 =
      value 26 low / 2 ^ 255 + 32 * value 26 high := by omega
  have hrem : (value 26 low + 32 * 2 ^ 255 * value 26 high) % 2 ^ 255 = value 26 low % 2 ^ 255 := by
    omega
  calc value 26 (reduceQuick (carryLoop ((x.getD 9 0).sshiftRight 21 * 19#32) (maskTop x)).1)
      = (value 26 x % 2 ^ 255 + 19 * (value 26 x / 2 ^ 255)) % p := by
        rw [hmod, hsecond, Nat.add_comm]
    _ = value 26 x % p := fold_mod_p _
    _ = (value 26 low + 32 * 2 ^ 255 * value 26 high) % p := by
        rw [← fold_mod_p (value 26 low + 32 * 2 ^ 255 * value 26 high), hdiv, hrem, hfirst]

/-! ## Products

The entries of `t1` are sums of at most ten products of two limbs, each below `2 ^ 52`. -/

theorem toNat_long {l : BitVec 32} (hl : l.toNat < 2 ^ 26) : (long l).toNat = l.toNat :=
  toNat_signExtend (by norm_num) (by omega)

theorem toNat_long_mul {l m : BitVec 32} (hl : l.toNat < 2 ^ 26) (hm : m.toNat < 2 ^ 26) :
    (long l * long m).toNat = l.toNat * m.toNat ∧ l.toNat * m.toNat < 2 ^ 52 := by
  have hlt : l.toNat * m.toNat < 2 ^ 26 * 2 ^ 26 :=
    Nat.mul_lt_mul'' hl hm
  refine ⟨?_, by omega⟩
  rw [BitVec.toNat_mul, toNat_long hl, toNat_long hm, Nat.mod_eq_of_lt (by omega)]

/-- Adding a multiple of a number to the columns that are there. -/
theorem zipWith_mul_spec {t : List (BitVec 64)} {y : Ints} (hlen : t.length = y.length)
    (hy : Bounded 26 y) {v : BitVec 32} (hv : v.toNat < 2 ^ 26) {n : ℕ} (hn : n < 16)
    (ht : ∀ c ∈ t, c.toNat ≤ n * 2 ^ 52) :
    value 26 (List.zipWith (fun t y => t + long v * long y) t y) =
        value 26 t + v.toNat * value 26 y ∧
      ∀ c ∈ List.zipWith (fun t y => t + long v * long y) t y, c.toNat ≤ (n + 1) * 2 ^ 52 := by
  induction t generalizing y with
  | nil =>
    obtain rfl := List.length_eq_zero_iff.mp hlen.symm
    simp
  | cons c t ih =>
    cases y with
    | nil => exact absurd hlen (by simp)
    | cons m y =>
      obtain ⟨hm, hy⟩ := bounded_cons.mp hy
      obtain ⟨hc, ht⟩ := List.forall_mem_cons.mp ht
      obtain ⟨hprod, hlt⟩ := toNat_long_mul hv hm
      obtain ⟨hvalue, hbound⟩ := ih (Nat.succ.inj hlen) hy ht
      have hcol : (c + long v * long m).toNat = c.toNat + v.toNat * m.toNat := by
        rw [BitVec.toNat_add, hprod]
        omega
      rw [List.zipWith_cons_cons, value_cons, value_cons, value_cons, hvalue, hcol]
      refine ⟨by ring, List.forall_mem_cons.mpr ⟨?_, hbound⟩⟩
      rw [hcol]
      omega

theorem mulRow_spec {t : List (BitVec 64)} {y : Ints} (hlen : t.length = 9) (hy : Wide y)
    {v : BitVec 32} (hv : v.toNat < 2 ^ 26) {n : ℕ} (hn : n < 16)
    (ht : ∀ c ∈ t, c.toNat ≤ n * 2 ^ 52) :
    (mulRow (long v) y t).length = 10 ∧
      value 26 (mulRow (long v) y t) = value 26 t + v.toNat * value 26 y ∧
      ∀ c ∈ mulRow (long v) y t, c.toNat ≤ (n + 1) * 2 ^ 52 := by
  have hylen : (y.take 9).length = 9 := by rw [List.length_take, hy.length_eq]; rfl
  obtain ⟨hvalue, hbound⟩ := zipWith_mul_spec (hlen.trans hylen.symm) (hy.bounded.take 9) hv hn ht
  have hziplen : (List.zipWith (fun t y => t + long v * long y) t (y.take 9)).length = 9 := by
    rw [List.length_zipWith, hlen, hylen, Nat.min_self]
  obtain ⟨hprod, hlt⟩ := toNat_long_mul hv (hy.bounded.getD 9)
  have hsplit : value 26 y = value 26 (y.take 9) + 2 ^ (26 * 9) * (y.getD 9 0).toNat := by
    rw [value_take_drop 26 9 (by rw [hy.length_eq]; norm_num),
      List.drop_eq_getElem_cons (by rw [hy.length_eq]; norm_num),
      List.drop_eq_nil_of_le (by rw [hy.length_eq]),
      List.getD_eq_getElem _ _ (by rw [hy.length_eq]; norm_num)]
    simp
  refine ⟨by rw [mulRow, List.length_append, hziplen]; rfl, ?_, ?_⟩
  · rw [mulRow, value_append, hziplen, hvalue, value_cons, value_nil, hprod, hsplit]
    ring
  · intro c hc
    rcases List.mem_append.mp hc with hc | hc
    · exact hbound c hc
    · rw [List.mem_singleton.mp hc, hprod]
      omega

/-- **The rows of the product.** -/
theorem mulRows_spec {x y : Ints} (hx : Bounded 26 x) (hy : Wide y) {t : List (BitVec 64)}
    (hlen : t.length = 9) {n : ℕ} (hn : n + x.length < 16) (ht : ∀ c ∈ t, c.toNat ≤ n * 2 ^ 52) :
    (mulRows y x t).length = x.length + 9 ∧
      value 26 (mulRows y x t) = value 26 t + value 26 x * value 26 y ∧
      ∀ c ∈ mulRows y x t, c.toNat ≤ (n + x.length) * 2 ^ 52 := by
  induction x generalizing t n with
  | nil => simpa [mulRows, hlen] using ht
  | cons v x ih =>
    obtain ⟨hv, hx⟩ := bounded_cons.mp hx
    rw [List.length_cons] at hn
    obtain ⟨hrowlen, hrow, hbound⟩ := mulRow_spec hlen hy hv (by omega) ht
    rw [mulRows]
    generalize mulRow (long v) y t = row at *
    cases row with
    | nil => exact absurd hrowlen (by simp)
    | cons c row =>
      obtain ⟨hc, hrest⟩ := List.forall_mem_cons.mp hbound
      obtain ⟨hlen', hvalue, hbound'⟩ :=
        ih hx (Nat.succ.inj hrowlen) (n := n + 1) (by omega) hrest
      rw [value_cons] at hrow
      refine ⟨by simp [hlen', Nat.add_right_comm], ?_, ?_⟩
      · rw [List.headD_cons, List.tail_cons, value_cons, hvalue, value_cons]
        linarith
      · rw [List.headD_cons, List.tail_cons, List.length_cons]
        refine List.forall_mem_cons.mpr ⟨hc.trans (Nat.mul_le_mul_right _ (by omega)), ?_⟩
        intro d hd
        have := hbound' d hd
        rwa [show n + 1 + x.length = n + (x.length + 1) by omega] at this

/-- The first row of the product. -/
theorem map_mul_spec {y : Ints} (hy : Bounded 26 y) {v : BitVec 32} (hv : v.toNat < 2 ^ 26) :
    value 26 (y.map fun y => long v * long y) = v.toNat * value 26 y ∧
      ∀ c ∈ y.map fun y => long v * long y, c.toNat ≤ 1 * 2 ^ 52 := by
  induction y with
  | nil => simp
  | cons m y ih =>
    obtain ⟨hm, hy⟩ := bounded_cons.mp hy
    obtain ⟨hprod, hlt⟩ := toNat_long_mul hv hm
    obtain ⟨hvalue, hbound⟩ := ih hy
    rw [List.map_cons, value_cons, value_cons, hvalue, hprod]
    exact ⟨by ring, List.forall_mem_cons.mpr ⟨by omega, hbound⟩⟩

/-- **The products** are twenty columns whose value is the product of the numbers. -/
theorem products_spec {x y : Ints} (hx : Wide x) (hy : Wide y) :
    (products x y).length = 20 ∧ value 26 (products x y) = value 26 x * value 26 y ∧
      ∀ c ∈ products x y, c.toNat ≤ 10 * 2 ^ 52 := by
  obtain ⟨hxlen, hxb⟩ := hx
  cases x with
  | nil => exact absurd hxlen (by simp)
  | cons v x =>
    obtain ⟨hv, hx⟩ := bounded_cons.mp hxb
    have hlen9 : x.length = 9 := Nat.succ.inj hxlen
    obtain ⟨hrow, hbound⟩ := map_mul_spec hy.bounded hv
    have hrowlen : (y.map fun y => long v * long y).length = 10 := by
      rw [List.length_map, hy.length_eq]
    unfold products
    rw [List.headD_cons, List.tail_cons]
    generalize (y.map fun y => long v * long y) = row at *
    cases row with
    | nil => exact absurd hrowlen (by simp)
    | cons c row =>
      obtain ⟨hc, hrest⟩ := List.forall_mem_cons.mp hbound
      obtain ⟨hlen, hvalue, hbound'⟩ := mulRows_spec hx hy (Nat.succ.inj hrowlen) (n := 1)
        (by omega) hrest
      rw [hlen9] at hlen hbound'
      rw [value_cons] at hrow
      dsimp only
      rw [List.headD_cons, List.tail_cons]
      refine ⟨by simp [hlen], ?_, ?_⟩
      · rw [value_append, value_cons, value_cons, hvalue, value_cons]
        simp only [BitVec.toNat_zero, value_nil, mul_zero, add_zero]
        linarith
      · simp only [List.cons_append, List.mem_cons, List.mem_append, List.not_mem_nil, or_false]
        rintro d (rfl | hd | rfl)
        · omega
        · exact hbound' d hd
        · simp

/-- The loop that propagates the carries of the products. -/
theorem splitLoop_spec {t : List (BitVec 64)} (ht : ∀ c ∈ t, c.toNat ≤ 10 * 2 ^ 52)
    (v : BitVec 64) (hv : v.toNat < 2 ^ 62) :
    (splitLoop v t).length = t.length ∧ Bounded 26 (splitLoop v t) ∧
      ∃ out, value 26 (splitLoop v t) + 2 ^ (26 * t.length) * out =
        v.toNat / 2 ^ 26 + value 26 t := by
  induction t generalizing v with
  | nil => exact ⟨rfl, bounded_nil, v.toNat / 2 ^ 26, by simp [splitLoop]⟩
  | cons c t ih =>
    obtain ⟨hc, ht⟩ := List.forall_mem_cons.mp ht
    have hsum : (v.sshiftRight 26 + c).toNat = v.toNat / 2 ^ 26 + c.toNat := by
      rw [BitVec.toNat_add, toNat_sshiftRight (by omega)]
      omega
    have hlimb : ((v.sshiftRight 26 + c).truncate 32 &&& mask26).toNat =
        (v.toNat / 2 ^ 26 + c.toNat) % 2 ^ 26 := by
      rw [toNat_and_mask26, BitVec.truncate_eq_setWidth, BitVec.toNat_setWidth, hsum]
      omega
    obtain ⟨hlen, hbound, out, hvalue⟩ := ih ht (v.sshiftRight 26 + c) (by omega)
    rw [hsum] at hvalue
    refine ⟨by simp [splitLoop, hlen], ?_, out, ?_⟩
    · exact bounded_cons.mpr ⟨by rw [hlimb]; omega, hbound⟩
    · rw [splitLoop, value_cons, value_cons, hlimb, List.length_cons, Nat.mul_succ, pow_add]
      linarith [Nat.mod_add_div (v.toNat / 2 ^ 26 + c.toNat) (2 ^ 26)]

theorem mul_spec {x y : Ints} (hx : Canonical x) (hy : Canonical y) :
    Canonical (mul x y) ∧ value 26 (mul x y) = value 26 x * value 26 y % p := by
  obtain ⟨hlen, hvalue, hbound⟩ := products_spec hx.toWide hy.toWide
  obtain ⟨hlen', hbound', out, hsplit⟩ := splitLoop_spec hbound 0#64 (by decide)
  rw [hlen] at hlen' hsplit
  rw [show (0#64).toNat / 2 ^ 26 = 0 from rfl, Nat.zero_add, hvalue] at hsplit
  have hprod : value 26 x * value 26 y < 2 ^ 255 * 2 ^ 255 := by
    have hltx := hx.lt_p
    have hlty := hy.lt_p
    unfold p at hltx hlty
    exact Nat.mul_lt_mul'' (by omega) (by omega)
  have hhalves := value_take_drop 26 10 (show 10 ≤ (splitLoop 0#64 (products x y)).length by omega)
  have hpow : 2 ^ (26 * 20) = 32 * 2 ^ 255 * (32 * 2 ^ 255) := by
    rw [show 26 * 20 = 26 * 10 + 26 * 10 from rfl, pow_add, two_pow_limbs]
  rw [two_pow_limbs] at hhalves
  rw [hpow] at hsplit
  have hlow : Wide ((splitLoop 0#64 (products x y)).take 10) :=
    ⟨by rw [List.length_take, hlen']; rfl, hbound'.take 10⟩
  have hhighlen : ((splitLoop 0#64 (products x y)).drop 10).length = 10 := by
    rw [List.length_drop, hlen']
  have hsum : value 26 ((splitLoop 0#64 (products x y)).take 10) +
      32 * 2 ^ 255 * value 26 ((splitLoop 0#64 (products x y)).drop 10) =
        value 26 x * value 26 y := by
    have hout : out = 0 := by omega
    rw [← hhalves, ← hsplit, hout, Nat.mul_zero, Nat.add_zero]
  obtain ⟨hcanonical, hmod⟩ := reduce_spec hlow (hbound'.drop 10) (by rw [hhighlen])
    (by omega) (by rw [hhighlen, two_pow_limbs]; omega)
  exact ⟨hcanonical, by rw [mul, hmod, hsum]⟩

/-! ## The constant of the curve -/

theorem mulA24Loop_spec {x : Ints} (hx : Bounded 26 x) (carry : BitVec 64)
    (hc : carry.toNat < 2 ^ 60) :
    (mulA24Loop carry x).1.length = x.length ∧ Bounded 26 (mulA24Loop carry x).1 ∧
      value 26 (mulA24Loop carry x).1 + 2 ^ (26 * x.length) * (mulA24Loop carry x).2.toNat =
        carry.toNat + 121665 * value 26 x := by
  induction x generalizing carry with
  | nil => simp [mulA24Loop, bounded_nil]
  | cons l x ih =>
    obtain ⟨hl, hx⟩ := bounded_cons.mp hx
    have hsum : (carry + 121665#64 * long l).toNat = carry.toNat + 121665 * l.toNat := by
      rw [BitVec.toNat_add, BitVec.toNat_mul, toNat_long hl,
        show (121665#64).toNat = 121665 from rfl]
      omega
    have hlimb : ((carry + 121665#64 * long l).truncate 32 &&& mask26).toNat =
        (carry.toNat + 121665 * l.toNat) % 2 ^ 26 := by
      rw [toNat_and_mask26, BitVec.truncate_eq_setWidth, BitVec.toNat_setWidth, hsum]
      omega
    have hshift : ((carry + 121665#64 * long l).sshiftRight 26).toNat =
        (carry.toNat + 121665 * l.toNat) / 2 ^ 26 := by
      rw [toNat_sshiftRight (by omega), hsum]
    obtain ⟨hlen, hbound, hvalue⟩ := ih hx ((carry + 121665#64 * long l).sshiftRight 26) (by omega)
    rw [hshift] at hvalue
    refine ⟨by simp [mulA24Loop, hlen], ?_, ?_⟩
    · exact bounded_cons.mpr ⟨by rw [hlimb]; omega, hbound⟩
    · rw [mulA24Loop, value_cons, value_cons, hlimb, List.length_cons, Nat.mul_succ, pow_add]
      linarith [Nat.mod_add_div (carry.toNat + 121665 * l.toNat) (2 ^ 26)]

theorem mulA24_spec {x : Ints} (hx : Canonical x) :
    Canonical (mulA24 x) ∧ value 26 (mulA24 x) = 121665 * value 26 x % p := by
  obtain ⟨hlen, hbound, hvalue⟩ := mulA24Loop_spec hx.bounded 0#64 (by decide)
  have hlt := hx.lt_p
  rw [hx.length_eq] at hlen hvalue
  rw [two_pow_limbs, show (0#64).toNat = 0 from rfl, Nat.zero_add] at hvalue
  unfold p at hlt
  have hhigh : ((mulA24Loop 0#64 x).2.truncate 32 &&& mask26).toNat =
      (mulA24Loop 0#64 x).2.toNat := by
    rw [toNat_and_mask26, BitVec.truncate_eq_setWidth, BitVec.toNat_setWidth]
    omega
  have hsmall : (mulA24Loop 0#64 x).2.toNat < 2 ^ 26 := by omega
  obtain ⟨hcanonical, hmod⟩ := reduce_spec ⟨hlen, hbound⟩
    (bounded_cons.mpr ⟨by rw [hhigh]; exact hsmall, bounded_nil⟩) (by simp)
    (by rw [value_cons, value_nil, hhigh]; omega)
    (by rw [value_cons, value_nil, hhigh, List.length_singleton]; omega)
  rw [value_cons, value_nil, hhigh, Nat.mul_zero, Nat.add_zero, hvalue] at hmod
  exact ⟨hcanonical, hmod⟩

/-! ## The field -/

/-- **The limbs are the canonical form of a field element.** -/
structure Represents (x : Ints) (a : F) : Prop where
  canonical : Canonical x
  cast_value : (value 26 x : F) = a

namespace Represents

theorem value_eq {x : Ints} {a : F} (h : Represents x a) : value 26 x = a.val := by
  rw [← h.cast_value, ZMod.val_natCast, Nat.mod_eq_of_lt h.canonical.lt_p]

theorem add {x y : Ints} {a b : F} (hx : Represents x a) (hy : Represents y b) :
    Represents (add x y) (a + b) := by
  obtain ⟨hcanonical, hvalue⟩ := add_spec hx.canonical hy.canonical
  refine ⟨hcanonical, ?_⟩
  rw [hvalue, ZMod.natCast_mod, Nat.cast_add, hx.cast_value, hy.cast_value]

theorem sub {x y : Ints} {a b : F} (hx : Represents x a) (hy : Represents y b) :
    Represents (sub x y) (a - b) := by
  obtain ⟨hcanonical, hvalue⟩ := sub_spec hx.canonical hy.canonical
  refine ⟨hcanonical, ?_⟩
  have hle : value 26 y ≤ value 26 x + p := hy.canonical.lt_p.le.trans (Nat.le_add_left _ _)
  rw [hvalue, ZMod.natCast_mod, Nat.cast_sub hle, Nat.cast_add, ZMod.natCast_self, add_zero,
    hx.cast_value, hy.cast_value]

theorem mul {x y : Ints} {a b : F} (hx : Represents x a) (hy : Represents y b) :
    Represents (mul x y) (a * b) := by
  obtain ⟨hcanonical, hvalue⟩ := mul_spec hx.canonical hy.canonical
  refine ⟨hcanonical, ?_⟩
  rw [hvalue, ZMod.natCast_mod, Nat.cast_mul, hx.cast_value, hy.cast_value]

theorem square {x : Ints} {a : F} (hx : Represents x a) : Represents (square x) (a ^ 2) := by
  rw [pow_two]
  exact hx.mul hx

theorem mulA24 {x : Ints} {a : F} (hx : Represents x a) :
    Represents (mulA24 x) (121665 * a) := by
  obtain ⟨hcanonical, hvalue⟩ := mulA24_spec hx.canonical
  refine ⟨hcanonical, ?_⟩
  rw [hvalue, ZMod.natCast_mod, Nat.cast_mul, hx.cast_value]
  rfl

end Represents

end Curve25519
end AioVpn
