import AioVpn.Crypto.Base64
import AioVpn.Text.Rfc4648

/-!
# The text encodings of a key

`Key.toBase64` and `Key.toHex` are the encodings of RFC 4648, and `Key.fromBase64` and
`Key.fromHex` undo them (`text_encodings_round_trip`).

In both directions the source builds characters and values out of masks; for six bits, and for
four, the masks are checked value by value (`encodeSextet_setWidth`, `encodeNibble_setWidth`,
`decodeNibble_base16Char`).  What is left is where the bits of a byte go, which is compared
bit by bit, and the position of each character in the text.
-/

namespace AioVpn
namespace Key

open Rfc4648

/-! ## Error bits -/

/-- Accumulated error bits are zero if all of them are. -/
theorem foldl_or_eq_zero_iff {α : Type} {w : ℕ} (f : α → BitVec w) (l : List α) (r : BitVec w) :
    l.foldl (fun ret a => ret ||| f a) r = 0#w ↔ r = 0#w ∧ ∀ a ∈ l, f a = 0#w := by
  induction l generalizing r with
  | nil => simp
  | cons a l ih =>
    rw [List.foldl_cons, ih, BitVec.or_eq_zero_iff, List.forall_mem_cons, and_assoc]

/-! ## Base64 -/

/-- **The masks are the alphabet.** -/
theorem encodeSextet_setWidth : ∀ v : BitVec 6,
    encodeSextet (v.setWidth 32) = base64Char v := by
  decide +kernel

theorem encodeSextet_mask (x : BitVec 32) :
    encodeSextet (x &&& 63#32) = base64Char (x.setWidth 6) := by
  rw [and_mask, encodeSextet_setWidth]

/-- **A group of bytes is a group of characters.** -/
theorem encodeBase64_eq (b₀ b₁ b₂ : BitVec 8) :
    encodeBase64 b₀ b₁ b₂ = (quantum b₀ b₁ b₂).map base64Char := by
  have h₀ : (b₀.signExtend 32 >>> 2).setWidth 6 = (b₀ ++ b₁ ++ b₂).extractLsb' 18 6 := by
    apply BitVec.eq_of_getLsbD_eq
    intro i hi
    rw [BitVec.getLsbD_extractLsb', BitVec.getLsbD_append, BitVec.getLsbD_append]
    interval_cases i <;> simp [BitVec.getElem_signExtend]
  have h₁ : ((b₀.signExtend 32 <<< 4) ||| ((b₁.signExtend 32 &&& 0xff#32) >>> 4)).setWidth 6 =
      (b₀ ++ b₁ ++ b₂).extractLsb' 12 6 := by
    apply BitVec.eq_of_getLsbD_eq
    intro i hi
    rw [BitVec.getLsbD_extractLsb', BitVec.getLsbD_append, BitVec.getLsbD_append]
    interval_cases i <;> simp [BitVec.getElem_signExtend]
  have h₂ : ((b₁.signExtend 32 <<< 2) ||| ((b₂.signExtend 32 &&& 0xff#32) >>> 6)).setWidth 6 =
      (b₀ ++ b₁ ++ b₂).extractLsb' 6 6 := by
    apply BitVec.eq_of_getLsbD_eq
    intro i hi
    rw [BitVec.getLsbD_extractLsb', BitVec.getLsbD_append, BitVec.getLsbD_append]
    interval_cases i <;> simp [BitVec.getElem_signExtend]
  have h₃ : (b₂.signExtend 32).setWidth 6 = (b₀ ++ b₁ ++ b₂).extractLsb' 0 6 := by
    apply BitVec.eq_of_getLsbD_eq
    intro i hi
    rw [BitVec.getLsbD_extractLsb', BitVec.getLsbD_append, BitVec.getLsbD_append]
    interval_cases i <;> simp [BitVec.getElem_signExtend]
  simp only [encodeBase64, encodeSextet_mask, h₀, h₁, h₂, h₃]
  rfl

/-- The groups of a list of bytes. -/
theorem base64_groups (f : ℕ → BitVec 8) (n : ℕ) (bytes : List (BitVec 8)) :
    base64 (((List.range n).flatMap fun i => [f (i * 3), f (i * 3 + 1), f (i * 3 + 2)]) ++ bytes) =
      ((List.range n).flatMap fun i => encodeBase64 (f (i * 3)) (f (i * 3 + 1)) (f (i * 3 + 2))) ++
        base64 bytes := by
  induction n generalizing bytes with
  | zero => rfl
  | succ n ih =>
    rw [List.range_succ, List.flatMap_append, List.flatMap_append, List.append_assoc, ih,
      List.flatMap_singleton, List.flatMap_singleton, List.append_assoc, encodeBase64_eq]
    rfl

/-- **`Key.toBase64` is base 64.** -/
theorem toBase64_eq (key : Key) : key.toBase64 = base64 key.bytes := by
  have hgroups := base64_groups (fun i => key.bytes.getD i 0) 10
    [key.bytes.getD 30 0, key.bytes.getD 31 0]
  rw [bytes_eq] at hgroups
  have hend : base64 [key.bytes.getD 30 0, key.bytes.getD 31 0] =
      (encodeBase64 (key.bytes.getD 30 0) (key.bytes.getD 31 0) 0#8).take 3 ++ [ch '='] := by
    rw [base64, encodeBase64_eq, List.map_take]
    rfl
  rw [hgroups, hend, toBase64, List.append_assoc]

/-! ## Hexadecimal -/

/-- **The masks are the alphabet.** -/
theorem encodeNibble_setWidth : ∀ v : BitVec 4,
    encodeNibble (v.setWidth 32) = base16Char v := by
  decide +kernel

/-- The character of a four-bit value is read back, without an error. -/
theorem decodeNibble_base16Char : ∀ v : BitVec 4,
    decodeNibble (intOfChar (base16Char v)) = (v.setWidth 32, 0#32) := by
  decide +kernel

/-- The halves of a byte make the byte. -/
theorem truncate_halves : ∀ b : BitVec 8,
    ((b.extractLsb' 4 4).setWidth 32 * 16#32 ||| (b.extractLsb' 0 4).setWidth 32).truncate 8 =
      b := by
  decide +kernel

/-- **`Key.toHex` is base 16.** -/
theorem toHex_eq (key : Key) : key.toHex = base16 key.bytes := by
  rw [toHex, base16]
  refine congrArg (List.flatMap · key.bytes) (funext fun b => ?_)
  have hhigh : (b.signExtend 32).sshiftRight 4 &&& 0xf#32 =
      (b.extractLsb' 4 4).setWidth 32 := by
    apply BitVec.eq_of_getLsbD_eq
    intro i hi
    interval_cases i <;> simp [BitVec.getElem_signExtend, BitVec.getElem_sshiftRight]
  have hlow : b.signExtend 32 &&& 0xf#32 = (b.extractLsb' 0 4).setWidth 32 := by
    apply BitVec.eq_of_getLsbD_eq
    intro i hi
    interval_cases i <;> simp [BitVec.getElem_signExtend]
  simp only [hhigh, hlow, encodeNibble_setWidth, base16Pair]

/-- The characters of a key's hexadecimal text by their positions. -/
theorem getD_toHex (key : Key) {i j : ℕ} (hi : i < 32) (hj : j < 2) :
    key.toHex.getD (j + i * 2) 0 = (base16Pair (key.bytes.getD i 0)).getD j 0 := by
  have hrange : key.toHex =
      ((List.range 32).flatMap fun i => base16Pair (key.bytes.getD i 0)) ++ [] := by
    rw [toHex_eq, base16, ← map_range_getD key, List.flatMap_map, map_range_getD key,
      List.append_nil]
  rw [hrange]
  exact getD_flatMap_range (fun _ => length_base16Pair _) hi hj [] 0

theorem length_toHex (key : Key) : key.toHex.length = 64 := by
  rw [toHex_eq, length_base16, key.length_bytes]

/-- **A key is read back from its hexadecimal text.** -/
theorem fromHex_toHex (key : Key) : fromHex key.toHex = .ok key := by
  have hpairs : (List.range 32).map (fun i =>
      (decodeNibble (intOfChar (key.toHex.getD (i * 2) 0)),
        decodeNibble (intOfChar (key.toHex.getD (i * 2 + 1) 0)))) =
      (List.range 32).map fun i =>
        ((((key.bytes.getD i 0).extractLsb' 4 4).setWidth 32, 0#32),
          (((key.bytes.getD i 0).extractLsb' 0 4).setWidth 32, 0#32)) := by
    refine List.map_congr_left fun i hi => ?_
    have h₀ := getD_toHex key (List.mem_range.mp hi) (show 0 < 2 by omega)
    have h₁ := getD_toHex key (List.mem_range.mp hi) (show 1 < 2 by omega)
    rw [Nat.zero_add] at h₀
    rw [Nat.add_comm] at h₁
    rw [h₀, h₁]
    simp only [base16Pair, List.getD_cons_zero, List.getD_cons_succ, decodeNibble_base16Char]
  rw [fromHex, if_neg (by rw [length_toHex]; decide)]
  simp only [hpairs]
  rw [if_neg (by simp [List.foldl_map])]
  refine congrArg Except.ok (eq_of_bytes ?_)
  dsimp only
  rw [List.map_map]
  have hbytes : ∀ i, ((((key.bytes.getD i 0).extractLsb' 4 4).setWidth 32 * 16#32 |||
      ((key.bytes.getD i 0).extractLsb' 0 4).setWidth 32).truncate 8) = key.bytes.getD i 0 :=
    fun i => truncate_halves _
  refine Eq.trans (List.map_congr_left fun i _ => ?_) (map_range_getD key)
  exact hbytes i

/-! ## Both -/

theorem length_toBase64 (key : Key) : key.toBase64.length = 44 := rfl

theorem base64Char_ne_pad : ∀ v : BitVec 6, base64Char v ≠ ch '=' := by
  decide +kernel

/-- In front of the padding there are characters of the alphabet. -/
theorem mem_dropLast_toBase64 {key : Key} {c : JChar} (hc : c ∈ key.toBase64.dropLast) :
    ∃ v, base64Char v = c := by
  have hgroup : ∀ b₀ b₁ b₂, c ∈ encodeBase64 b₀ b₁ b₂ → ∃ v, base64Char v = c := by
    intro b₀ b₁ b₂ h
    rw [encodeBase64_eq] at h
    obtain ⟨v, -, hv⟩ := List.mem_map.mp h
    exact ⟨v, hv⟩
  rw [toBase64, List.dropLast_concat, List.mem_append, List.mem_flatMap] at hc
  rcases hc with ⟨i, -, hc⟩ | hc
  · exact hgroup _ _ _ hc
  · exact hgroup _ _ _ (List.mem_of_mem_take hc)

/-- The padding occurs once. -/
theorem pad_notMem_dropLast (key : Key) : ch '=' ∉ key.toBase64.dropLast := by
  intro h
  obtain ⟨v, hv⟩ := mem_dropLast_toBase64 h
  exact base64Char_ne_pad v hv

/-- **The text encodings of a key round-trip.**  A key is read back from its base64 and from its
hexadecimal text; the first is the base 64 encoding of its bytes, 44 characters of which the last
one and no other is `=`, and the second is their base 16 encoding, 64 characters in lower case. -/
theorem text_encodings_round_trip (key : Key) :
    fromBase64 key.toBase64 = .ok key ∧ fromHex key.toHex = .ok key ∧
      (key.toBase64 = base64 key.bytes ∧ key.toBase64.length = 44 ∧
        key.toBase64.getLast? = some (ch '=') ∧ ch '=' ∉ key.toBase64.dropLast) ∧
      key.toHex = base16 key.bytes ∧ key.toHex.length = 64 := by
  refine ⟨fromBase64_toBase64 key, fromHex_toHex key,
    ⟨toBase64_eq key, length_toBase64 key, ?_, ?_⟩, toHex_eq key, length_toHex key⟩
  · rw [toBase64, List.getLast?_concat]
  · exact pad_notMem_dropLast key

end Key
end AioVpn
