import Mathlib.AlgebraicGeometry.EllipticCurve.Affine.Point
import Mathlib.Tactic

/-!
# Scalar multiplication on a Montgomery curve

The curve `y² = x³ + A x² + x` over a field, and the ladder that computes the
`x`-coordinate of a multiple of a point out of the `x`-coordinate of the point.  The
group is Mathlib's; the ladder works on fractions `X / Z` and never sees a `y`.

`HasX X Z P` says that `X / Z` is the `x`-coordinate of `P`, the fraction with
denominator zero being the point at infinity.  Two formulas carry the ladder:

* `HasX.double`: from `P` to `P + P`;
* `HasX.diffAdd`: from `P` and `Q` to `P + Q`, given the `x`-coordinate of their
  difference, which must not be zero.

`Ladder.Holds.bits` is the induction over the bits of the scalar: the ladder holds the
multiples `m P` and `(m + 1) P`, whose difference is always `P`.
-/

namespace AioVpn
namespace Montgomery

open WeierstrassCurve.Affine

variable {K : Type*} [Field K]

/-- The curve `y² = x³ + A x² + x`. -/
def curve (A : K) : WeierstrassCurve.Affine K := ⟨0, A, 0, 1, 0⟩

/-- What a Montgomery curve has to satisfy: the discriminant is not zero. -/
structure Regular (A a24 : K) : Prop where
  two_ne : (2 : K) ≠ 0
  disc : A ^ 2 ≠ 4
  /-- The constant of the doubling formula. -/
  a24_eq : 4 * a24 = A - 2

theorem equation_iff {A x y : K} : (curve A).Equation x y ↔ y ^ 2 = x ^ 3 + A * x ^ 2 + x := by
  rw [WeierstrassCurve.Affine.equation_iff]
  simp [curve]

theorem negY_eq (A x y : K) : (curve A).negY x y = -y := by
  simp [negY, curve]

theorem addX_eq (A x₁ x₂ l : K) : (curve A).addX x₁ x₂ l = l ^ 2 - A - x₁ - x₂ := by
  simp [addX, curve]

/-- A point is its own inverse only with `y = 0`. -/
theorem eq_negY_iff {A x y : K} (h2 : (2 : K) ≠ 0) : y = (curve A).negY x y ↔ y = 0 := by
  rw [negY_eq]
  constructor
  · intro h
    have h0 : 2 * y = 0 := by linear_combination h
    exact (mul_eq_zero.mp h0).resolve_left h2
  · rintro rfl
    simp

/-- `X / Z` is the `x`-coordinate of a point. -/
def HasX {A : K} (X Z : K) : (curve A).Point → Prop
  | .zero => X ≠ 0 ∧ Z = 0
  | .some x _ _ => Z ≠ 0 ∧ X = x * Z

theorem hasX_zero {A X Z : K} : HasX X Z (0 : (curve A).Point) ↔ X ≠ 0 ∧ Z = 0 := Iff.rfl

theorem hasX_some {A X Z x y : K} {h : (curve A).Nonsingular x y} :
    HasX X Z (Point.some x y h) ↔ Z ≠ 0 ∧ X = x * Z := Iff.rfl

theorem hasX_neg {A X Z : K} {P : (curve A).Point} : HasX X Z (-P) ↔ HasX X Z P := by
  cases P with
  | zero => exact Iff.rfl
  | some x y h => exact Iff.rfl

/-- A root of the cubic is not `1` or `-1`: that is what the discriminant excludes. -/
theorem sq_sub_one_ne_zero {A x : K} (hA : A ^ 2 ≠ 4) (h : x ^ 3 + A * x ^ 2 + x = 0) :
    x ^ 2 - 1 ≠ 0 := by
  intro h1
  have hx : x ≠ 0 := by
    rintro rfl
    exact one_ne_zero (by linear_combination -h1 : (1 : K) = 0)
  have hlin : A * x + 2 = 0 := by
    have h0 : x * (A * x + 2) = 0 := by linear_combination h - x * h1
    exact (mul_eq_zero.mp h0).resolve_left hx
  exact hA (by linear_combination (A * x - 2) * hlin - A ^ 2 * h1)

variable [DecidableEq K]

/-! ## Doubling -/

/-- The `x`-coordinate of a double. -/
theorem addX_self {A x y : K} (h : y ^ 2 = x ^ 3 + A * x ^ 2 + x) (h2 : (2 : K) ≠ 0) (hy : y ≠ 0) :
    (curve A).addX x x ((curve A).slope x x y y) * (4 * y ^ 2) = (x ^ 2 - 1) ^ 2 := by
  have hne : y ≠ (curve A).negY x y := fun hy' => hy ((eq_negY_iff h2).mp hy')
  have hden : y - -y ≠ 0 := by
    intro h0
    exact mul_ne_zero h2 hy (by linear_combination h0)
  have hslope : (curve A).slope x x y y * (2 * y) = 3 * x ^ 2 + 2 * A * x + 1 := by
    rw [slope_of_Y_ne rfl hne, negY_eq, div_mul_eq_mul_div, div_eq_iff hden]
    simp only [curve]
    ring
  rw [addX_eq]
  linear_combination ((curve A).slope x x y y * (2 * y) + (3 * x ^ 2 + 2 * A * x + 1)) * hslope
    - 4 * (A + 2 * x) * h

/-- **Doubling.** -/
theorem HasX.double {A a24 : K} (hA : Regular A a24) {X Z : K} {P : (curve A).Point}
    (h : HasX X Z P) :
    HasX ((X + Z) ^ 2 * (X - Z) ^ 2)
      ((a24 * ((X + Z) ^ 2 - (X - Z) ^ 2) + (X + Z) ^ 2) * ((X + Z) ^ 2 - (X - Z) ^ 2))
      (P + P) := by
  have hz : (a24 * ((X + Z) ^ 2 - (X - Z) ^ 2) + (X + Z) ^ 2) * ((X + Z) ^ 2 - (X - Z) ^ 2) =
      4 * (X * Z) * (X ^ 2 + A * (X * Z) + Z ^ 2) := by
    linear_combination (4 * X ^ 2 * Z ^ 2) * hA.a24_eq
  have hx : (X + Z) ^ 2 * (X - Z) ^ 2 = (X ^ 2 - Z ^ 2) ^ 2 := by ring
  have h4 : (4 : K) ≠ 0 := by
    intro h0
    exact mul_ne_zero hA.two_ne hA.two_ne (by linear_combination h0)
  rw [hz, hx]
  cases P with
  | zero =>
    obtain ⟨hX, rfl⟩ := h
    change HasX _ _ (0 + 0 : (curve A).Point)
    rw [add_zero, hasX_zero]
    exact ⟨by simpa using hX, by ring⟩
  | some x y hxy =>
    obtain ⟨hZ, rfl⟩ := h
    have heq : y ^ 2 = x ^ 3 + A * x ^ 2 + x := equation_iff.mp hxy.1
    have hden : 4 * (x * Z * Z) * ((x * Z) ^ 2 + A * (x * Z * Z) + Z ^ 2) = 4 * y ^ 2 * Z ^ 4 := by
      rw [heq]
      ring
    rw [hden]
    by_cases hy : y = 0
    · -- a point of order two
      rw [Point.add_self_of_Y_eq ((eq_negY_iff hA.two_ne).mpr hy), hasX_zero, hy]
      refine ⟨?_, by ring⟩
      have hx1 : x ^ 2 - 1 ≠ 0 := sq_sub_one_ne_zero hA.disc (by rw [← heq, hy]; ring)
      have hfactor : ((x * Z) ^ 2 - Z ^ 2) ^ 2 = ((x ^ 2 - 1) * Z ^ 2) ^ 2 := by ring
      rw [hfactor]
      exact pow_ne_zero 2 (mul_ne_zero hx1 (pow_ne_zero 2 hZ))
    · rw [Point.add_self_of_Y_ne fun h0 => hy ((eq_negY_iff hA.two_ne).mp h0), hasX_some]
      refine ⟨mul_ne_zero (mul_ne_zero h4 (pow_ne_zero 2 hy)) (pow_ne_zero 4 hZ), ?_⟩
      linear_combination -Z ^ 4 * addX_self heq hA.two_ne hy

/-! ## Differential addition -/

/-- The `x`-coordinates of a sum and a difference. -/
theorem addX_mul_addX {A x₁ y₁ x₂ y₂ : K} (h₁ : y₁ ^ 2 = x₁ ^ 3 + A * x₁ ^ 2 + x₁)
    (h₂ : y₂ ^ 2 = x₂ ^ 3 + A * x₂ ^ 2 + x₂) (hx : x₁ ≠ x₂) :
    (curve A).addX x₁ x₂ ((curve A).slope x₁ x₂ y₁ y₂) *
        (curve A).addX x₁ x₂ ((curve A).slope x₁ x₂ y₁ (-y₂)) * (x₁ - x₂) ^ 2 =
      (x₁ * x₂ - 1) ^ 2 := by
  have hsub : x₁ - x₂ ≠ 0 := sub_ne_zero.mpr hx
  have hs : (curve A).slope x₁ x₂ y₁ y₂ * (x₁ - x₂) = y₁ - y₂ := by
    rw [slope_of_X_ne hx, div_mul_cancel₀ _ hsub]
  have ht : (curve A).slope x₁ x₂ y₁ (-y₂) * (x₁ - x₂) = y₁ + y₂ := by
    rw [slope_of_X_ne hx, div_mul_cancel₀ _ hsub, sub_neg_eq_add]
  rw [addX_eq, addX_eq]
  generalize (curve A).slope x₁ x₂ y₁ y₂ = s at hs ⊢
  generalize (curve A).slope x₁ x₂ y₁ (-y₂) = t at ht ⊢
  have hs2 : s ^ 2 * (x₁ - x₂) ^ 2 = (y₁ - y₂) ^ 2 := by rw [← mul_pow, hs]
  have ht2 : t ^ 2 * (x₁ - x₂) ^ 2 = (y₁ + y₂) ^ 2 := by rw [← mul_pow, ht]
  refine mul_right_cancel₀ (pow_ne_zero 2 hsub) ?_
  -- both sides, multiplied by the square, are polynomials in the two coordinates
  linear_combination
    (t ^ 2 * (x₁ - x₂) ^ 2 - (A + x₁ + x₂) * (x₁ - x₂) ^ 2) * hs2
      + ((y₁ - y₂) ^ 2 - (A + x₁ + x₂) * (x₁ - x₂) ^ 2) * ht2
      + (y₁ ^ 2 + (x₁ ^ 3 + A * x₁ ^ 2 + x₁) - 2 * y₂ ^ 2
          - 2 * (A + x₁ + x₂) * (x₁ - x₂) ^ 2) * h₁
      + (y₂ ^ 2 + (x₂ ^ 3 + A * x₂ ^ 2 + x₂) - 2 * (x₁ ^ 3 + A * x₁ ^ 2 + x₁)
          - 2 * (A + x₁ + x₂) * (x₁ - x₂) ^ 2) * h₂

/-- **Differential addition.**  The sum of two points out of their `x`-coordinates and
the one of their difference. -/
theorem HasX.diffAdd {A a24 : K} (hA : Regular A a24) {X₂ Z₂ X₃ Z₃ x₁ y₁ : K}
    {P Q : (curve A).Point} (hP : HasX X₂ Z₂ P) (hQ : HasX X₃ Z₃ Q) (hx₁ : x₁ ≠ 0)
    {h₁ : (curve A).Nonsingular x₁ y₁} (hdiff : Q - P = Point.some x₁ y₁ h₁) :
    HasX (((X₃ - Z₃) * (X₂ + Z₂) + (X₃ + Z₃) * (X₂ - Z₂)) ^ 2)
      (((X₃ - Z₃) * (X₂ + Z₂) - (X₃ + Z₃) * (X₂ - Z₂)) ^ 2 * x₁) (P + Q) := by
  have hX : ((X₃ - Z₃) * (X₂ + Z₂) + (X₃ + Z₃) * (X₂ - Z₂)) ^ 2 =
      (2 * (X₂ * X₃ - Z₂ * Z₃)) ^ 2 := by ring
  have hZ : ((X₃ - Z₃) * (X₂ + Z₂) - (X₃ + Z₃) * (X₂ - Z₂)) ^ 2 * x₁ =
      (2 * (X₃ * Z₂ - X₂ * Z₃)) ^ 2 * x₁ := by ring
  rw [hX, hZ]
  cases P with
  | zero =>
    -- the sum is the difference
    obtain ⟨hX₂, rfl⟩ := hP
    change Q - 0 = _ at hdiff
    change HasX _ _ (0 + Q)
    rw [sub_zero] at hdiff
    rw [hdiff, hasX_some] at hQ
    obtain ⟨hZ₃, rfl⟩ := hQ
    rw [zero_add, hdiff, hasX_some]
    refine ⟨?_, by ring⟩
    have hne : 2 * (x₁ * Z₃ * 0 - X₂ * Z₃) ≠ 0 := by
      rw [mul_zero, zero_sub]
      exact mul_ne_zero hA.two_ne (neg_ne_zero.mpr (mul_ne_zero hX₂ hZ₃))
    exact mul_ne_zero (pow_ne_zero 2 hne) hx₁
  | some x₂ y₂ h₂ =>
    obtain ⟨hZ₂, rfl⟩ := hP
    have heq₂ : y₂ ^ 2 = x₂ ^ 3 + A * x₂ ^ 2 + x₂ := equation_iff.mp h₂.1
    cases Q with
    | zero =>
      -- the sum is the opposite of the difference
      obtain ⟨hX₃, rfl⟩ := hQ
      change 0 - Point.some x₂ y₂ h₂ = _ at hdiff
      change HasX _ _ (Point.some x₂ y₂ h₂ + 0)
      rw [zero_sub, Point.neg_some, Point.some.injEq] at hdiff
      obtain ⟨rfl, -⟩ := hdiff
      rw [add_zero, hasX_some]
      refine ⟨?_, by ring⟩
      have hne : 2 * (X₃ * Z₂ - x₂ * Z₂ * 0) ≠ 0 := by
        rw [mul_zero, sub_zero]
        exact mul_ne_zero hA.two_ne (mul_ne_zero hX₃ hZ₂)
      exact mul_ne_zero (pow_ne_zero 2 hne) hx₁
    | some x₃ y₃ h₃ =>
      obtain ⟨hZ₃, rfl⟩ := hQ
      have heq₃ : y₃ ^ 2 = x₃ ^ 3 + A * x₃ ^ 2 + x₃ := equation_iff.mp h₃.1
      by_cases hx : x₃ = x₂
      · rcases Point.X_eq_iff.mp hx with hsame | hopp
        · rw [hsame, sub_self] at hdiff
          exact absurd hdiff.symm (Point.some_ne_zero _)
        · -- the sum is the point at infinity, and the difference is a double
          subst hx
          have hdouble : Point.some x₃ y₂ h₂ + Point.some x₃ y₂ h₂ = -Point.some x₁ y₁ h₁ := by
            rw [← hdiff, hopp]
            abel
          have hX₁ := HasX.double hA (X := x₃) (Z := 1) (P := Point.some x₃ y₂ h₂)
            (hasX_some.mpr ⟨one_ne_zero, by ring⟩)
          rw [hdouble, hasX_neg, hasX_some] at hX₁
          have hne : (x₃ + 1) ^ 2 * (x₃ - 1) ^ 2 ≠ 0 := by
            rw [hX₁.2]
            exact mul_ne_zero hx₁ hX₁.1
          rw [hopp, add_neg_cancel, hasX_zero]
          refine ⟨?_, by ring⟩
          have hfactor : (2 * (x₃ * Z₂ * (x₃ * Z₃) - Z₂ * Z₃)) ^ 2 =
              2 ^ 2 * ((x₃ + 1) ^ 2 * (x₃ - 1) ^ 2) * (Z₂ * Z₃) ^ 2 := by ring
          rw [hfactor]
          exact mul_ne_zero (mul_ne_zero (pow_ne_zero 2 hA.two_ne) hne)
            (pow_ne_zero 2 (mul_ne_zero hZ₂ hZ₃))
      · rw [sub_eq_add_neg, Point.neg_some, Point.add_of_X_ne hx, Point.some.injEq,
          negY_eq] at hdiff
        rw [add_comm, Point.add_of_X_ne hx, hasX_some]
        have hsum := addX_mul_addX heq₃ heq₂ hx
        rw [hdiff.1] at hsum
        have hne : 2 * (x₃ * Z₃ * Z₂ - x₂ * Z₂ * Z₃) ≠ 0 := by
          have : 2 * (x₃ * Z₃ * Z₂ - x₂ * Z₂ * Z₃) = 2 * (x₃ - x₂) * (Z₂ * Z₃) := by ring
          rw [this]
          exact mul_ne_zero (mul_ne_zero hA.two_ne (sub_ne_zero.mpr hx)) (mul_ne_zero hZ₂ hZ₃)
        refine ⟨mul_ne_zero (pow_ne_zero 2 hne) hx₁, ?_⟩
        linear_combination -4 * (Z₂ * Z₃) ^ 2 * hsum

/-! ## The ladder -/

/-- The two fractions of the ladder. -/
@[ext] structure Ladder (K : Type*) where
  x₂ : K
  z₂ : K
  x₃ : K
  z₃ : K

namespace Ladder

omit [DecidableEq K]

/-- The formulas: the first fraction is doubled, the second becomes the sum. -/
def step (a24 x₁ : K) (s : Ladder K) : Ladder K :=
  { x₃ := ((s.x₃ - s.z₃) * (s.x₂ + s.z₂) + (s.x₃ + s.z₃) * (s.x₂ - s.z₂)) ^ 2
    z₃ := ((s.x₃ - s.z₃) * (s.x₂ + s.z₂) - (s.x₃ + s.z₃) * (s.x₂ - s.z₂)) ^ 2 * x₁
    x₂ := (s.x₂ + s.z₂) ^ 2 * (s.x₂ - s.z₂) ^ 2
    z₂ := (a24 * ((s.x₂ + s.z₂) ^ 2 - (s.x₂ - s.z₂) ^ 2) + (s.x₂ + s.z₂) ^ 2) *
      ((s.x₂ + s.z₂) ^ 2 - (s.x₂ - s.z₂) ^ 2) }

/-- Exchange the fractions. -/
def swap (b : Bool) (s : Ladder K) : Ladder K := if b then ⟨s.x₃, s.z₃, s.x₂, s.z₂⟩ else s

/-- One bit of the scalar. -/
def bit (a24 x₁ : K) (b : Bool) (s : Ladder K) : Ladder K := ((s.swap b).step a24 x₁).swap b

/-- The bits of `k` below `n`, from the top. -/
def bits (a24 x₁ : K) (k : ℕ) : ℕ → Ladder K → Ladder K
  | 0, s => s
  | n + 1, s => bits a24 x₁ k n (s.bit a24 x₁ (k.testBit n))

/-- Where the ladder starts. -/
def start (x₁ : K) : Ladder K := ⟨1, 0, x₁, 1⟩

omit [Field K] in
@[simp] theorem swap_false (s : Ladder K) : s.swap false = s := rfl

omit [Field K] in
theorem swap_swap (b c : Bool) (s : Ladder K) : (s.swap b).swap c = s.swap (b ^^ c) := by
  cases b <;> cases c <;> rfl

/-- **The state of the ladder**: two neighbouring multiples of the point. -/
structure Holds {A : K} [DecidableEq K] (P : (curve A).Point) (m : ℕ) (s : Ladder K) : Prop where
  fst : HasX s.x₂ s.z₂ (m • P)
  snd : HasX s.x₃ s.z₃ ((m + 1) • P)

variable [DecidableEq K] {A a24 x₁ y₁ : K} {h₁ : (curve A).Nonsingular x₁ y₁}

theorem holds_start (h₁ : (curve A).Nonsingular x₁ y₁) :
    Holds (Point.some x₁ y₁ h₁) 0 (start x₁) where
  fst := by
    rw [zero_smul]
    exact ⟨one_ne_zero, rfl⟩
  snd := by
    rw [zero_add, one_smul]
    exact ⟨one_ne_zero, (mul_one x₁).symm⟩

/-- **One bit** doubles the multiple and adds the bit. -/
theorem Holds.bit (hA : Regular A a24) (hx₁ : x₁ ≠ 0) {m : ℕ} {s : Ladder K}
    (h : Holds (Point.some x₁ y₁ h₁) m s) (b : Bool) :
    Holds (Point.some x₁ y₁ h₁) (2 * m + b.toNat) (s.bit a24 x₁ b) := by
  generalize hP : Point.some x₁ y₁ h₁ = P at h ⊢
  cases b with
  | false =>
    have hdiff : (m + 1) • P - m • P = Point.some x₁ y₁ h₁ := by
      rw [succ_nsmul, hP]
      abel
    constructor
    · rw [show 2 * m + Bool.toNat false = m + m from (two_mul m), add_smul]
      exact h.fst.double hA
    · rw [show 2 * m + Bool.toNat false + 1 = m + (m + 1) by simp; omega, add_smul]
      exact HasX.diffAdd hA h.fst h.snd hx₁ hdiff
  | true =>
    have hdiff : m • P - (m + 1) • P = -Point.some x₁ y₁ h₁ := by
      rw [succ_nsmul, hP]
      abel
    constructor
    · rw [show 2 * m + Bool.toNat true = (m + 1) + m by simp; omega, add_smul]
      rw [Point.neg_some] at hdiff
      exact HasX.diffAdd hA h.snd h.fst hx₁ hdiff
    · rw [show 2 * m + Bool.toNat true + 1 = (m + 1) + (m + 1) by simp; omega, add_smul]
      exact h.snd.double hA

/-- **The ladder.**  After the bits of `k` below `n` the multiple has them appended. -/
theorem Holds.bits (hA : Regular A a24) (hx₁ : x₁ ≠ 0) (k n : ℕ) {m : ℕ} {s : Ladder K}
    (h : Holds (Point.some x₁ y₁ h₁) m s) :
    Holds (Point.some x₁ y₁ h₁) (2 ^ n * m + k % 2 ^ n) (s.bits a24 x₁ k n) := by
  induction n generalizing m s with
  | zero => simpa [Ladder.bits, Nat.mod_one] using h
  | succ n ih =>
    have hnext := ih (h.bit hA hx₁ (k.testBit n))
    have hm : 2 ^ n * (2 * m + (k.testBit n).toNat) + k % 2 ^ n =
        2 ^ (n + 1) * m + k % 2 ^ (n + 1) := by
      rw [Nat.toNat_testBit, Nat.mod_pow_succ, pow_succ]
      ring
    rwa [hm] at hnext

omit [DecidableEq K] in
/-- From the coordinate zero the ladder ends at zero: one of its two entries stays zero. -/
theorem bits_zero (a24 : K) (k n : ℕ) {s : Ladder K} (h₂ : s.x₂ * s.z₂ = 0)
    (h₃ : s.x₃ * s.z₃ = 0) : (s.bits a24 0 k n).x₂ * (s.bits a24 0 k n).z₂ = 0 := by
  induction n generalizing s with
  | zero => exact h₂
  | succ n ih =>
    have hstep : ∀ t : Ladder K, t.x₂ * t.z₂ = 0 →
        (t.step a24 0).x₂ * (t.step a24 0).z₂ = 0 ∧ (t.step a24 0).x₃ * (t.step a24 0).z₃ = 0 := by
      intro t ht
      have hz : (t.x₂ + t.z₂) ^ 2 - (t.x₂ - t.z₂) ^ 2 = 0 := by linear_combination 4 * ht
      exact ⟨by rw [step, hz]; ring, by rw [step]; ring⟩
    cases hb : k.testBit n with
    | false =>
      rw [Ladder.bits, hb]
      exact ih (hstep s h₂).1 (hstep s h₂).2
    | true =>
      rw [Ladder.bits, hb]
      exact ih (hstep (s.swap true) h₃).2 (hstep (s.swap true) h₃).1

end Ladder

/-! ## The coordinate of a point -/

/-- The `x`-coordinate, zero at infinity. -/
def xCoord {A : K} : (curve A).Point → K
  | .zero => 0
  | .some x _ _ => x

omit [DecidableEq K] in
/-- The coordinate is the fraction. -/
theorem HasX.xCoord_eq {A X Z : K} {P : (curve A).Point} (h : HasX X Z P) : xCoord P = X * Z⁻¹ := by
  cases P with
  | zero =>
    obtain ⟨-, rfl⟩ := h
    simp [xCoord]
  | some x y hxy =>
    obtain ⟨hZ, rfl⟩ := h
    rw [xCoord, mul_assoc, mul_inv_cancel₀ hZ, mul_one]

/-- **The ladder computes the coordinate of a multiple**, from the coordinate of any
point but the one at zero. -/
theorem xCoord_smul {A a24 x₁ y₁ : K} (hA : Regular A a24) (hx₁ : x₁ ≠ 0)
    (h₁ : (curve A).Nonsingular x₁ y₁) {k n : ℕ} (hk : k < 2 ^ n) :
    xCoord (k • Point.some x₁ y₁ h₁) =
      ((Ladder.start x₁).bits a24 x₁ k n).x₂ * ((Ladder.start x₁).bits a24 x₁ k n).z₂⁻¹ := by
  have h := Ladder.Holds.bits hA hx₁ k n (Ladder.holds_start h₁)
  rw [mul_zero, zero_add, Nat.mod_eq_of_lt hk] at h
  exact h.fst.xCoord_eq

end Montgomery
end AioVpn
