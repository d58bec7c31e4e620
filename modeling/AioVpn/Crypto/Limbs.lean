import Mathlib.Data.List.GetD
import Mathlib.Data.Nat.Digits.Lemmas
import Mathlib.Tactic

/-!
# Numbers in limbs of machine words

A number is kept as a list of words of `w` bits, least significant first, of which
only the low `k` bits are in use.  `value` is the number, and `Bounded` says that the
other bits are clear.  Loops over such a list are described by what they do to the
value; this module has the facts about values and about the word operations out of
which the loops are made.

* `value_append`, `value_take_drop`, `value_modify`: the value of a list that is put
  together, taken apart, or changed at one limb.
* `value_lt`, `getD_eq_digit`: a bounded list is the expansion of its value in base
  `2 ^ k`.
* `toNat_and_ones`, `toNat_sshiftRight`: masking and shifting are remainder and
  quotient, as long as the sign bit is clear.
* `and_neg_bit`, `select_bit`: a negated bit is a mask that keeps everything or
  nothing.
-/

namespace AioVpn
namespace Limbs

variable {w : ℕ}

/-- The number with the given limbs of `k` bits. -/
def value (k : ℕ) (x : List (BitVec w)) : ℕ := Nat.ofDigits (2 ^ k) (x.map BitVec.toNat)

/-- No limb has more than `k` bits. -/
def Bounded (k : ℕ) (x : List (BitVec w)) : Prop := ∀ l ∈ x, l.toNat < 2 ^ k

/-! ## Values -/

@[simp] theorem value_nil (k : ℕ) : value k ([] : List (BitVec w)) = 0 := rfl

@[simp] theorem value_cons (k : ℕ) (l : BitVec w) (x : List (BitVec w)) :
    value k (l :: x) = l.toNat + 2 ^ k * value k x := by
  rw [value, List.map_cons, Nat.ofDigits_cons, value]

theorem value_append (k : ℕ) (x y : List (BitVec w)) :
    value k (x ++ y) = value k x + 2 ^ (k * x.length) * value k y := by
  rw [value, List.map_append, Nat.ofDigits_append, List.length_map, ← pow_mul, value, value]

theorem value_take_drop (k i : ℕ) {x : List (BitVec w)} (hi : i ≤ x.length) :
    value k x = value k (x.take i) + 2 ^ (k * i) * value k (x.drop i) := by
  conv_lhs => rw [← List.take_append_drop i x]
  rw [value_append, List.length_take, Nat.min_eq_left hi]

theorem bounded_nil {k : ℕ} : Bounded k ([] : List (BitVec w)) := fun _ h => absurd h (by simp)

@[simp] theorem bounded_cons {k : ℕ} {l : BitVec w} {x : List (BitVec w)} :
    Bounded k (l :: x) ↔ l.toNat < 2 ^ k ∧ Bounded k x := List.forall_mem_cons

theorem Bounded.getD {k : ℕ} {x : List (BitVec w)} (h : Bounded k x) (i : ℕ) :
    (x.getD i 0).toNat < 2 ^ k := by
  rw [List.getD_eq_getElem?_getD]
  cases hi : x[i]? with
  | none => simp
  | some l => exact h l (List.mem_of_getElem? hi)

theorem Bounded.take {k : ℕ} {x : List (BitVec w)} (h : Bounded k x) (i : ℕ) :
    Bounded k (x.take i) := fun l hl => h l (List.mem_of_mem_take hl)

theorem Bounded.drop {k : ℕ} {x : List (BitVec w)} (h : Bounded k x) (i : ℕ) :
    Bounded k (x.drop i) := fun l hl => h l (List.mem_of_mem_drop hl)

theorem value_lt {k : ℕ} {x : List (BitVec w)} (h : Bounded k x) :
    value k x < 2 ^ (k * x.length) := by
  induction x with
  | nil => simp
  | cons l x ih =>
    obtain ⟨hl, hx⟩ := bounded_cons.mp h
    have hrest := ih hx
    calc value k (l :: x) = l.toNat + 2 ^ k * value k x := value_cons k l x
      _ < 2 ^ k * 1 + 2 ^ k * value k x := by omega
      _ = 2 ^ k * (value k x + 1) := by ring
      _ ≤ 2 ^ k * 2 ^ (k * x.length) := Nat.mul_le_mul_left _ hrest
      _ = 2 ^ (k * (l :: x).length) := by rw [List.length_cons, ← pow_add]; ring_nf

/-- The limbs from `i` on are the value without its low `k * i` bits. -/
theorem value_drop {k : ℕ} {x : List (BitVec w)} (h : Bounded k x) (i : ℕ) :
    value k (x.drop i) = value k x / 2 ^ (k * i) := by
  rcases Nat.lt_or_ge i x.length with hi | hi
  · have hlow : value k (x.take i) < 2 ^ (k * i) := by
      have := value_lt (h.take i)
      rwa [List.length_take, Nat.min_eq_left hi.le] at this
    rw [value_take_drop k i hi.le, Nat.add_mul_div_left _ _ (by positivity),
      Nat.div_eq_of_lt hlow, Nat.zero_add]
  · have hall : value k x < 2 ^ (k * i) :=
      (value_lt h).trans_le (Nat.pow_le_pow_right (by norm_num) (Nat.mul_le_mul_left k hi))
    rw [List.drop_eq_nil_of_le hi, value_nil, Nat.div_eq_of_lt hall]

/-- **A limb is a digit of the value.** -/
theorem getD_eq_digit {k : ℕ} {x : List (BitVec w)} (h : Bounded k x) (i : ℕ) :
    (x.getD i 0).toNat = value k x / 2 ^ (k * i) % 2 ^ k := by
  rw [← value_drop h i]
  rcases Nat.lt_or_ge i x.length with hi | hi
  · rw [List.drop_eq_getElem_cons hi, value_cons, Nat.add_mul_mod_self_left,
      Nat.mod_eq_of_lt (h _ (List.getElem_mem hi)), List.getD_eq_getElem _ _ hi]
  · rw [List.drop_eq_nil_of_le hi, List.getD_eq_default _ _ hi]
    simp

/-- A bit of a limb is a bit of the value. -/
theorem testBit_value {k : ℕ} {x : List (BitVec w)} (h : Bounded k x) (i : ℕ) {j : ℕ}
    (hj : j < k) : (value k x).testBit (k * i + j) = (x.getD i 0).getLsbD j := by
  rw [BitVec.getLsbD, getD_eq_digit h, Nat.testBit_mod_two_pow, Nat.testBit_div_two_pow,
    Nat.add_comm j]
  simp [hj]

theorem Bounded.getLsbD_eq_false {k : ℕ} {x : List (BitVec w)} (h : Bounded k x) (i : ℕ) {j : ℕ}
    (hj : k ≤ j) : (x.getD i 0).getLsbD j = false :=
  Nat.testBit_lt_two_pow ((h.getD i).trans_le (Nat.pow_le_pow_right (by norm_num) hj))

/-- Words with all their bits in use are bounded. -/
theorem bounded_self (x : List (BitVec w)) : Bounded w x := fun l _ => l.isLt

/-- A change of one limb changes the value by the difference, at the weight of the
limb. -/
theorem value_modify (k : ℕ) (f : BitVec w → BitVec w) {x : List (BitVec w)} {i : ℕ}
    (hi : i < x.length) :
    value k (x.modify i f) + 2 ^ (k * i) * (x.getD i 0).toNat =
      value k x + 2 ^ (k * i) * (f (x.getD i 0)).toNat := by
  induction x generalizing i with
  | nil => exact absurd hi (by simp)
  | cons l x ih =>
    cases i with
    | zero => simp; ring
    | succ i =>
      have := ih (Nat.lt_of_succ_lt_succ hi)
      have hpow : 2 ^ (k * (i + 1)) = 2 ^ k * 2 ^ (k * i) := by rw [← pow_add]; ring_nf
      rw [List.modify_succ_cons, value_cons, value_cons, List.getD_cons_succ, hpow]
      calc l.toNat + 2 ^ k * value k (x.modify i f)
              + 2 ^ k * 2 ^ (k * i) * (x.getD i 0).toNat
          = l.toNat + 2 ^ k * (value k (x.modify i f) + 2 ^ (k * i) * (x.getD i 0).toNat) := by
            ring
        _ = l.toNat + 2 ^ k * (value k x + 2 ^ (k * i) * (f (x.getD i 0)).toNat) := by rw [this]
        _ = _ := by ring

theorem getD_modify (f : BitVec w → BitVec w) (i : ℕ) {x : List (BitVec w)} {j : ℕ}
    (hj : j < x.length) :
    (x.modify i f).getD j 0 = if i = j then f (x.getD j 0) else x.getD j 0 := by
  rw [List.getD_eq_getElem _ _ (by rwa [List.length_modify]), List.getElem_modify,
    List.getD_eq_getElem _ _ hj]

theorem Bounded.modify {k : ℕ} {f : BitVec w → BitVec w} {x : List (BitVec w)} (h : Bounded k x)
    {i : ℕ} (hf : (f (x.getD i 0)).toNat < 2 ^ k) : Bounded k (x.modify i f) := by
  induction x generalizing i with
  | nil => simpa using h
  | cons l x ih =>
    obtain ⟨hl, hx⟩ := bounded_cons.mp h
    cases i with
    | zero => exact bounded_cons.mpr ⟨by simpa using hf, hx⟩
    | succ i => exact bounded_cons.mpr ⟨hl, ih hx (by simpa using hf)⟩

/-! ## Words -/

/-- Keeping the low `k` bits is the remainder. -/
theorem toNat_and_ones (l : BitVec w) (k : ℕ) (hk : k ≤ w) :
    (l &&& BitVec.ofNat w (2 ^ k - 1)).toNat = l.toNat % 2 ^ k := by
  have hlt : 2 ^ k - 1 < 2 ^ w := by
    have := Nat.pow_le_pow_right (show 0 < 2 by norm_num) hk
    have := Nat.two_pow_pos k
    omega
  rw [BitVec.toNat_and, BitVec.toNat_ofNat, Nat.mod_eq_of_lt hlt, Nat.and_two_pow_sub_one_eq_mod]

/-- A word below half the range is not negative. -/
theorem msb_eq_false {l : BitVec w} (h : 2 * l.toNat < 2 ^ w) : l.msb = false := by
  rw [BitVec.msb_eq_decide, decide_eq_false_iff_not]
  rcases w with _ | w
  · simp [BitVec.toNat_of_zero_length]
  · rw [Nat.add_sub_cancel]
    rw [pow_succ] at h
    omega

/-- The arithmetic shift of a word that is not negative is the quotient. -/
theorem toNat_sshiftRight {l : BitVec w} (h : 2 * l.toNat < 2 ^ w) (k : ℕ) :
    (l.sshiftRight k).toNat = l.toNat / 2 ^ k := by
  rw [BitVec.sshiftRight_eq_of_msb_false (msb_eq_false h), BitVec.toNat_ushiftRight,
    Nat.shiftRight_eq_div_pow]

/-- The sign extension of a word that is not negative keeps its number. -/
theorem toNat_signExtend {v : ℕ} {l : BitVec w} (hwv : w ≤ v) (h : 2 * l.toNat < 2 ^ w) :
    (l.signExtend v).toNat = l.toNat := by
  rw [BitVec.signExtend_eq_setWidth_of_msb_false (msb_eq_false h), BitVec.toNat_setWidth,
    Nat.mod_eq_of_lt (l.isLt.trans_le (Nat.pow_le_pow_right (by norm_num) hwv))]

/-- The bit at which an arithmetic shift starts, whatever the sign. -/
theorem toNat_sshiftRight_and_one (l : BitVec w) {k : ℕ} (hk : k < w) :
    (l.sshiftRight k &&& 1#w).toNat = l.toNat / 2 ^ k % 2 := by
  have hbit : l.sshiftRight k &&& 1#w = (l >>> k) &&& 1#w := by
    apply BitVec.eq_of_getLsbD_eq
    intro i hi
    rcases Nat.eq_zero_or_pos i with rfl | hpos
    · rw [BitVec.getLsbD_and, BitVec.getLsbD_and, BitVec.getLsbD_sshiftRight,
        BitVec.getLsbD_ushiftRight]
      simp [hk, Nat.ne_of_gt hi]
    · simp [BitVec.getLsbD_one, Nat.ne_of_gt hpos]
  have hone : (1#w).toNat = 2 ^ 1 - 1 := by
    rw [BitVec.toNat_ofNat]
    exact Nat.mod_eq_of_lt (Nat.one_lt_two_pow (by omega))
  rw [hbit, BitVec.toNat_and, hone, Nat.and_two_pow_sub_one_eq_mod, BitVec.toNat_ushiftRight,
    Nat.shiftRight_eq_div_pow, pow_one]

/-- Putting a number above the low `n` bits. -/
theorem or_mul_two_pow {l n : ℕ} (v : ℕ) (hl : l < 2 ^ n) : l ||| v * 2 ^ n = l + v * 2 ^ n := by
  rw [← Nat.shiftLeft_eq, Nat.or_comm, ← Nat.shiftLeft_add_eq_or_of_lt hl, Nat.add_comm]

theorem eq_zero_or_one_of_toNat {b : BitVec w} (h : b.toNat ≤ 1) : b = 0#w ∨ b = 1#w := by
  rcases Nat.lt_or_ge b.toNat 1 with h0 | h1
  · left
    exact BitVec.eq_of_toNat_eq (by rw [BitVec.toNat_zero]; omega)
  · right
    have hone : b.toNat = 1 := by omega
    refine BitVec.eq_of_toNat_eq ?_
    have := b.isLt
    rw [BitVec.toNat_ofNat, Nat.mod_eq_of_lt (by omega), hone]

/-! ## Masks -/

theorem zipWith_left {α β : Type*} {x : List α} {y : List β} (hlen : x.length = y.length) :
    List.zipWith (fun l _ => l) x y = x := by
  rw [← List.map_uncurry_zip_eq_zipWith]
  exact List.map_fst_zip hlen.le

theorem zipWith_right {α β : Type*} {x : List α} {y : List β} (hlen : x.length = y.length) :
    List.zipWith (fun _ m => m) x y = y := by
  rw [← List.map_uncurry_zip_eq_zipWith]
  exact List.map_snd_zip hlen.ge

/-- A negated bit keeps everything or nothing. -/
theorem and_neg_bit (l b : BitVec w) (h : b.toNat ≤ 1) :
    -b &&& l = if b.toNat = 1 then l else 0#w := by
  rcases eq_zero_or_one_of_toNat h with rfl | rfl
  · simp
  · rw [BitVec.neg_one_eq_allOnes, BitVec.allOnes_and]
    rcases w with _ | w
    · exact Subsingleton.elim _ _
    · simp

/-- A negated bit and its complement select one of two words. -/
theorem select_bit (l m b : BitVec w) (h : b.toNat ≤ 1) :
    (l &&& ~~~(-b)) ||| (m &&& -b) = if b.toNat = 1 then m else l := by
  rcases eq_zero_or_one_of_toNat h with rfl | rfl
  · simp
  · rw [BitVec.neg_one_eq_allOnes, BitVec.not_allOnes, BitVec.and_zero, BitVec.zero_or,
      BitVec.and_allOnes]
    rcases w with _ | w
    · exact Subsingleton.elim _ _
    · simp

/-- Selecting limb by limb selects one of the two lists. -/
theorem zipWith_select_bit {x y : List (BitVec w)} (hlen : x.length = y.length) (b : BitVec w)
    (h : b.toNat ≤ 1) :
    List.zipWith (fun l m => (l &&& ~~~(-b)) ||| (m &&& -b)) x y =
      if b.toNat = 1 then y else x := by
  simp only [select_bit _ _ b h]
  split
  · exact zipWith_right hlen
  · exact zipWith_left hlen

end Limbs
end AioVpn
