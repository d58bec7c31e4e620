import Mathlib.FieldTheory.Finite.Basic
import Mathlib.NumberTheory.LucasPrimality
import Mathlib.Tactic

/-!
# The prime `2 ^ 255 - 19`

The arithmetic of Curve25519 is that of the field with `2 ^ 255 - 19` elements.  That
this number is prime is shown by Lucas' criterion: an element whose order is `p - 1`,
checked against the prime factors of `p - 1`, which are shown prime in the same way
until they are small.
-/

namespace AioVpn

/-- Lucas' criterion over a list of the prime factors of `p - 1`. -/
theorem prime_of_powers {p : ℕ} (a : ZMod p) (factors : List ℕ) (hprod : factors.prod = p - 1)
    (hprime : ∀ q ∈ factors, q.Prime) (hfull : a ^ (p - 1) = 1)
    (hpart : ∀ q ∈ factors, a ^ ((p - 1) / q) ≠ 1) : p.Prime := by
  refine lucas_primality p a hfull fun q hq hdvd => ?_
  rw [← hprod] at hdvd
  obtain ⟨r, hr, hqr⟩ := (Prime.dvd_prod_iff hq.prime).mp hdvd
  obtain rfl := (Nat.prime_dvd_prime_iff_eq hq (hprime r hr)).mp hqr
  exact hpart q hr

theorem prime_2773320623 : Nat.Prime 2773320623 := by
  refine prime_of_powers 5 [2, 2437, 569003] (by norm_num) ?_ ?_ ?_
  · norm_num
  · norm_num; reduce_mod_char
  · norm_num; reduce_mod_char; decide

theorem prime_72106336199 : Nat.Prime 72106336199 := by
  refine prime_of_powers 7 [2, 13, 2773320623] (by norm_num) ?_ ?_ ?_
  · simp only [List.forall_mem_cons, List.not_mem_nil, false_implies, implies_true, and_true]
    exact ⟨by norm_num, by norm_num, prime_2773320623⟩
  · norm_num; reduce_mod_char
  · norm_num; reduce_mod_char; decide

theorem prime_1919519569386763 : Nat.Prime 1919519569386763 := by
  refine prime_of_powers 2 [2, 3, 7, 19, 47, 47, 127, 8574133] (by norm_num) ?_ ?_ ?_
  · norm_num
  · norm_num; reduce_mod_char
  · norm_num; reduce_mod_char; decide

theorem prime_31757755568855353 : Nat.Prime 31757755568855353 := by
  refine prime_of_powers 10 [2, 2, 2, 3, 31, 107, 223, 4153, 430751] (by norm_num) ?_ ?_ ?_
  · norm_num
  · norm_num; reduce_mod_char
  · norm_num; reduce_mod_char; decide

theorem prime_75445702479781427272750846543864801 :
    Nat.Prime 75445702479781427272750846543864801 := by
  refine prime_of_powers 7
    [2, 2, 2, 2, 2, 3, 3, 5, 5, 75707, 72106336199, 1919519569386763] (by norm_num) ?_ ?_ ?_
  · simp only [List.forall_mem_cons, List.not_mem_nil, false_implies, implies_true, and_true]
    exact ⟨by norm_num, by norm_num, by norm_num, by norm_num, by norm_num, by norm_num,
      by norm_num, by norm_num, by norm_num, by norm_num, prime_72106336199,
      prime_1919519569386763⟩
  · norm_num; reduce_mod_char
  · norm_num; reduce_mod_char; decide

/-- The large prime factor of `2 ^ 255 - 20`. -/
theorem prime_cofactor :
    Nat.Prime 74058212732561358302231226437062788676166966415465897661863160754340907 := by
  refine prime_of_powers 2 [2, 3, 353, 57467, 132049, 1923133, 31757755568855353,
    75445702479781427272750846543864801] (by norm_num) ?_ ?_ ?_
  · simp only [List.forall_mem_cons, List.not_mem_nil, false_implies, implies_true, and_true]
    exact ⟨by norm_num, by norm_num, by norm_num, by norm_num, by norm_num, by norm_num,
      prime_31757755568855353, prime_75445702479781427272750846543864801⟩
  · norm_num; reduce_mod_char
  · norm_num; reduce_mod_char; decide

namespace Curve25519

/-- The modulus. -/
def p : ℕ := 57896044618658097711785492504343953926634992332820282019728792003956564819949

theorem p_eq : p = 2 ^ 255 - 19 := by norm_num [p]

theorem prime_p : p.Prime := by
  unfold p
  refine prime_of_powers 2 [2, 2, 3, 65147,
    74058212732561358302231226437062788676166966415465897661863160754340907] (by norm_num) ?_ ?_ ?_
  · simp only [List.forall_mem_cons, List.not_mem_nil, false_implies, implies_true, and_true]
    exact ⟨by norm_num, by norm_num, by norm_num, by norm_num, prime_cofactor⟩
  · norm_num; reduce_mod_char
  · norm_num; reduce_mod_char; decide

instance : Fact p.Prime := ⟨prime_p⟩

/-- The field. -/
abbrev F : Type := ZMod p

end Curve25519
end AioVpn
