import AioVpn.Crypto.Key
import Mathlib.Data.List.GetD

/-!
# Base64 read back

`Key.fromBase64` undoes `Key.toBase64` (`fromBase64_toBase64`).

Both work on groups: three bytes are the 24 bits `packed`, which are four characters.  A
six-bit value and its character correspond (`decodeSextet_encodeSextet`), so decoding the four
characters of a group gives its bits (`decodeBase64_encodeBase64`), and the bits give the bytes
(`groupBytes_packed`).  A key is ten such groups and two more bytes, which are three characters
and a padding.
-/

namespace AioVpn
namespace Key

/-! ## Six bits -/

/-- **The character of a six-bit value is read back.** -/
theorem decodeSextet_encodeSextet : ∀ v : BitVec 6,
    decodeSextet (intOfChar (encodeSextet (v.setWidth 32))) = v.setWidth 32 := by
  decide +kernel

/-- The mask keeps six bits. -/
theorem and_mask (x : BitVec 32) : x &&& 63#32 = (x.setWidth 6).setWidth 32 := by
  apply BitVec.eq_of_getLsbD_eq
  intro i hi
  interval_cases i <;> simp

theorem decodeSextet_encodeSextet_mask (x : BitVec 32) :
    decodeSextet (intOfChar (encodeSextet (x &&& 63#32))) = x &&& 63#32 := by
  rw [and_mask]
  exact decodeSextet_encodeSextet _

/-- The characters of the alphabet. -/
theorem bounds_encodeSextet (x : BitVec 32) :
    0x2b ≤ (encodeSextet (x &&& 63#32)).toNat ∧ (encodeSextet (x &&& 63#32)).toNat < 0x80 := by
  have hall : ∀ v : BitVec 6, 0x2b ≤ (encodeSextet (v.setWidth 32)).toNat ∧
      (encodeSextet (v.setWidth 32)).toNat < 0x80 := by decide +kernel
  rw [and_mask]
  exact hall _

/-! ## Groups -/

/-- The bits of three bytes. -/
def packed (b₀ b₁ b₂ : BitVec 8) : BitVec 32 :=
  b₀.setWidth 32 <<< 16 ||| b₁.setWidth 32 <<< 8 ||| b₂.setWidth 32

/-- Four times six bits are three bytes. -/
theorem packed_sextets (b₀ b₁ b₂ : BitVec 8) :
    ((b₀.signExtend 32 >>> 2) &&& 63#32) <<< 18
      ||| (((b₀.signExtend 32 <<< 4) ||| ((b₁.signExtend 32 &&& 0xff#32) >>> 4)) &&& 63#32) <<< 12
      ||| (((b₁.signExtend 32 <<< 2) ||| ((b₂.signExtend 32 &&& 0xff#32) >>> 6)) &&& 63#32) <<< 6
      ||| (b₂.signExtend 32 &&& 63#32) = packed b₀ b₁ b₂ := by
  apply BitVec.eq_of_getLsbD_eq
  intro i hi
  interval_cases i <;> simp [packed, BitVec.getElem_signExtend]

theorem groupBytes_packed (b₀ b₁ b₂ : BitVec 8) : groupBytes (packed b₀ b₁ b₂) = [b₀, b₁, b₂] := by
  have h₀ : (packed b₀ b₁ b₂ >>> 16).truncate 8 = b₀ := by
    apply BitVec.eq_of_getLsbD_eq
    intro i hi
    interval_cases i <;> simp [packed]
  have h₁ : (packed b₀ b₁ b₂ >>> 8).truncate 8 = b₁ := by
    apply BitVec.eq_of_getLsbD_eq
    intro i hi
    interval_cases i <;> simp [packed]
  have h₂ : (packed b₀ b₁ b₂).truncate 8 = b₂ := by
    apply BitVec.eq_of_getLsbD_eq
    intro i hi
    interval_cases i <;> simp [packed]
  rw [groupBytes, h₀, h₁, h₂]

/-- The bits are not negative as an `int`. -/
theorem packed_sign (b₀ b₁ b₂ : BitVec 8) : packed b₀ b₁ b₂ >>> 31 = 0#32 := by
  apply BitVec.eq_of_getLsbD_eq
  intro i hi
  interval_cases i <;> simp [packed]

/-- Two bytes leave the last eight bits free. -/
theorem packed_zero (b₀ b₁ : BitVec 8) : packed b₀ b₁ 0#8 &&& 0xff#32 = 0#32 := by
  apply BitVec.eq_of_getLsbD_eq
  intro i hi
  interval_cases i <;> simp [packed]

/-- Decoding reads four characters. -/
theorem decodeBase64_eq (src : JString) (srcOffset : ℕ) :
    decodeBase64 src srcOffset =
      decodeSextet (intOfChar (src.getD srcOffset 0)) <<< 18
        ||| decodeSextet (intOfChar (src.getD (1 + srcOffset) 0)) <<< 12
        ||| decodeSextet (intOfChar (src.getD (2 + srcOffset) 0)) <<< 6
        ||| decodeSextet (intOfChar (src.getD (3 + srcOffset) 0)) := by
  simp [decodeBase64, List.range, List.range.loop]

/-- **A group is read back**, wherever it stands. -/
theorem decodeBase64_encodeBase64 {src : JString} {srcOffset : ℕ} {b₀ b₁ b₂ : BitVec 8}
    (h : ∀ j < 4, src.getD (j + srcOffset) 0 = (encodeBase64 b₀ b₁ b₂).getD j 0) :
    decodeBase64 src srcOffset = packed b₀ b₁ b₂ := by
  have h₀ := h 0 (by omega)
  rw [Nat.zero_add] at h₀
  rw [decodeBase64_eq, h₀, h 1 (by omega), h 2 (by omega), h 3 (by omega), ← packed_sextets]
  simp only [encodeBase64, List.getD_cons_zero, List.getD_cons_succ,
    decodeSextet_encodeSextet_mask]

/-! ## Keys -/

/-- Reading in a row of pieces of the same length. -/
theorem getD_flatMap_range {α : Type} {k : ℕ} {f : ℕ → List α} (hf : ∀ i, (f i).length = k)
    {n i j : ℕ} (hi : i < n) (hj : j < k) (rest : List α) (d : α) :
    ((List.range n).flatMap f ++ rest).getD (j + i * k) d = (f i).getD j d := by
  have hlength : ∀ n, ((List.range n).flatMap f).length = n * k := by
    intro n
    induction n with
    | zero => simp
    | succ n ih =>
      rw [List.range_succ, List.flatMap_append, List.length_append, ih, List.flatMap_singleton, hf,
        Nat.succ_mul]
  induction n generalizing rest with
  | zero => omega
  | succ n ih =>
    rw [List.range_succ, List.flatMap_append, List.append_assoc]
    by_cases hin : i < n
    · exact ih hin _
    · obtain rfl : i = n := by omega
      rw [List.getD_append_right _ _ _ _ (by rw [hlength]; omega), hlength, Nat.add_sub_cancel,
        List.flatMap_singleton, List.getD_append _ _ _ _ (by rw [hf]; exact hj)]

/-- A key's bytes by their positions. -/
theorem map_range_getD (key : Key) :
    (List.range 32).map (fun i => key.bytes.getD i 0) = key.bytes := by
  refine List.ext_getElem (by simp [key.length_bytes]) fun i h₁ h₂ => ?_
  rw [List.getElem_map, List.getElem_range, List.getD_eq_getElem _ _ h₂]

/-- A key's bytes, three at a time. -/
theorem bytes_eq (key : Key) :
    ((List.range 10).flatMap fun i => [key.bytes.getD (i * 3) 0, key.bytes.getD (i * 3 + 1) 0,
      key.bytes.getD (i * 3 + 2) 0]) ++ [key.bytes.getD 30 0, key.bytes.getD 31 0] = key.bytes :=
  map_range_getD key

theorem eq_of_bytes {k k' : Key} (h : k.bytes = k'.bytes) : k = k' := by
  obtain ⟨bytes, hlength⟩ := k
  cases h
  rfl

theorem length_encodeBase64 (b₀ b₁ b₂ : BitVec 8) : (encodeBase64 b₀ b₁ b₂).length = 4 := rfl

/-- The characters of a key. -/
theorem bounds_of_mem_toBase64 {key : Key} {c : JChar} (hc : c ∈ key.toBase64) :
    0x2b ≤ c.toNat ∧ c.toNat < 0x80 := by
  have hgroup : ∀ b₀ b₁ b₂, c ∈ encodeBase64 b₀ b₁ b₂ → 0x2b ≤ c.toNat ∧ c.toNat < 0x80 := by
    intro b₀ b₁ b₂ h
    simp only [encodeBase64, List.mem_cons, List.not_mem_nil, or_false] at h
    rcases h with rfl | rfl | rfl | rfl <;> exact bounds_encodeSextet _
  rw [toBase64, List.mem_append, List.mem_append, List.mem_flatMap] at hc
  rcases hc with (⟨i, -, hc⟩ | hc) | hc
  · exact hgroup _ _ _ hc
  · exact hgroup _ _ _ (List.mem_of_mem_take hc)
  · obtain rfl := List.mem_singleton.mp hc
    decide

/-- **A key is read back from its base64.** -/
theorem fromBase64_toBase64 (key : Key) : fromBase64 key.toBase64 = .ok key := by
  have hlength : ¬ (key.toBase64.length ≠ KeyFormat.base64.length ∨
      key.toBase64.getD (KeyFormat.base64.length - 1) 0 ≠ ch '=') := by
    rintro (h | h)
    · exact h rfl
    · exact h rfl
  have hvals : (List.range 10).map (fun i => decodeBase64 key.toBase64 (i * 4)) =
      (List.range 10).map fun i => packed (key.bytes.getD (i * 3) 0)
        (key.bytes.getD (i * 3 + 1) 0) (key.bytes.getD (i * 3 + 2) 0) := by
    refine List.map_congr_left fun i hi => decodeBase64_encodeBase64 fun j hj => ?_
    rw [toBase64, List.append_assoc]
    exact getD_flatMap_range (fun _ => length_encodeBase64 _ _ _) (List.mem_range.mp hi) hj _ _
  have hend : decodeBase64 [key.toBase64.getD 40 0, key.toBase64.getD 41 0,
      key.toBase64.getD 42 0, ch 'A'] 0 =
      packed (key.bytes.getD 30 0) (key.bytes.getD 31 0) 0#8 := by
    refine decodeBase64_encodeBase64 fun j hj => ?_
    interval_cases j <;> rfl
  have hsign : ((List.range 10).map fun i => packed (key.bytes.getD (i * 3) 0)
      (key.bytes.getD (i * 3 + 1) 0) (key.bytes.getD (i * 3 + 2) 0)).foldl
      (fun (ret v : BitVec 32) => ret ||| (v >>> 31)) 0#32 = 0#32 := by
    rw [List.foldl_map]
    simp only [packed_sign, BitVec.or_zero]
    rfl
  rw [fromBase64, if_neg hlength]
  simp only [hvals, hend, hsign, packed_sign, packed_zero]
  rw [if_neg (by decide)]
  refine congrArg Except.ok (eq_of_bytes ?_)
  show List.flatMap groupBytes (List.map _ (List.range 10)) ++ (groupBytes _).take 2 = key.bytes
  rw [List.flatMap_map]
  simp only [groupBytes_packed]
  exact bytes_eq key

end Key
end AioVpn
