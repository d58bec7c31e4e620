import AioVpn.Crypto.Encodings
import AioVpn.Crypto.Masks

/-!
# Malformed key text

What `Key.fromBase64` and `Key.fromHex` accept.  For characters up to `U+00FF` that is what it
should be: the base64 text of a key, which is 43 characters of the alphabet with zero unused bits
and `=` (`isBase64_iff`), and 64 hexadecimal digits.  A `char` may be greater, and the masks take
some of the greater ones for characters of the alphabet (`readAs`, `isStrayDigit`), so text with
such characters is accepted as a key (`stray_text_accepted`).  `malformed_text_rejected_iff` says
that this is all that goes wrong.

* `fromBase64_isOk_iff`, `fromHex_isOk_iff`: what is accepted, from the error bits that the
  decoders accumulate.
* `exists_eq_toBase64`: a base64 text is written back as it is, so it is the text of a key.
-/

namespace AioVpn
namespace Key

open Rfc4648

/-! ## Error bits -/

/-- The sign bit of an `int`. -/
theorem shiftRight_eq_zero_iff (x : BitVec 32) : x >>> 31 = 0#32 ↔ x.getLsbD 31 = false := by
  constructor
  · intro h
    have hbit := congrArg (BitVec.getLsbD · 0) h
    simpa using hbit
  · intro h
    apply BitVec.eq_of_getLsbD_eq
    intro i hi
    rw [BitVec.getLsbD_ushiftRight, BitVec.getLsbD_zero]
    by_cases h0 : i = 0
    · rw [h0]
      exact h
    · exact BitVec.getLsbD_of_ge x (31 + i) (by omega)

/-- A group is not negative if none of its characters is refused. -/
theorem decodeBase64_sign_iff (src : JString) (srcOffset : ℕ) :
    decodeBase64 src srcOffset >>> 31 = 0#32 ↔
      ∀ j < 4, readAs (src.getD (j + srcOffset) 0) ≠ 0 := by
  have hbits : (decodeBase64 src srcOffset).getLsbD 31 =
      (decide (readAs (src.getD srcOffset 0) = 0) ||
        decide (readAs (src.getD (1 + srcOffset) 0) = 0) ||
        decide (readAs (src.getD (2 + srcOffset) 0) = 0) ||
        decide (readAs (src.getD (3 + srcOffset) 0) = 0)) := by
    rw [decodeBase64_eq]
    simp only [BitVec.getLsbD_or, BitVec.getLsbD_shiftLeft]
    rw [getLsbD_decodeSextet _ (by omega) (by omega), getLsbD_decodeSextet _ (by omega) (by omega),
      getLsbD_decodeSextet _ (by omega) (by omega), getLsbD_decodeSextet _ (by omega) (by omega)]
    simp
  rw [shiftRight_eq_zero_iff, hbits]
  simp only [Bool.or_eq_false_iff, decide_eq_false_iff_not]
  constructor
  · rintro ⟨⟨⟨h₀, h₁⟩, h₂⟩, h₃⟩ j hj
    interval_cases j
    · rw [Nat.zero_add]
      exact h₀
    · exact h₁
    · exact h₂
    · exact h₃
  · intro h
    have h₀ := h 0 (by omega)
    rw [Nat.zero_add] at h₀
    exact ⟨⟨⟨h₀, h 1 (by omega)⟩, h 2 (by omega)⟩, h 3 (by omega)⟩

/-- The unused bits of the last group are the lowest two of its third character. -/
theorem decodeBase64_unused_iff (a b : JChar) {c : JChar} (hc : readAs c ≠ 0) :
    decodeBase64 [a, b, c, ch 'A'] 0 &&& 0xff#32 = 0#32 ↔ readAs c % 4 = 1 := by
  have hfill : decodeSextet (intOfChar (ch 'A')) = 0#32 := by decide
  have hlow : decodeBase64 [a, b, c, ch 'A'] 0 &&& 0xff#32 =
      (decodeSextet (intOfChar c) <<< 6) &&& 0xff#32 := by
    rw [decodeBase64_eq]
    simp only [List.getD_cons_zero, List.getD_cons_succ, hfill]
    apply BitVec.eq_of_getLsbD_eq
    intro i hi
    interval_cases i <;> simp
  have hnat : (decodeSextet (intOfChar c) <<< 6 &&& 0xff#32).toNat =
      (readAs c - 1) * 2 ^ 6 % 2 ^ 32 % 2 ^ 8 := by
    rw [BitVec.toNat_and, BitVec.toNat_shiftLeft, toNat_decodeSextet hc, Nat.shiftLeft_eq]
    exact Nat.and_two_pow_sub_one_eq_mod _ 8
  rw [hlow, ← BitVec.toNat_inj, hnat, BitVec.toNat_ofNat]
  have hle := readAs_le c
  omega

/-! ## What is accepted -/

/-- A base64 text of 32 bytes: 43 characters of the alphabet with zero unused bits, and `=`. -/
structure IsBase64 (s : JString) : Prop where
  length : s.length = 44
  pad : s.getD 43 0 = ch '='
  alphabet : ∀ i < 43, ∃ v, base64Value (s.getD i 0).toNat = some v
  unused : ∀ v ∈ base64Value (s.getD 42 0).toNat, v % 4 = 0

/-- What the masks take for such a text. -/
structure TakenForBase64 (s : JString) : Prop where
  length : s.length = 44
  pad : s.getD 43 0 = ch '='
  taken : ∀ i < 43, readAs (s.getD i 0) ≠ 0
  unused : readAs (s.getD 42 0) % 4 = 1

/-- A hexadecimal text of 32 bytes. -/
def IsHex (s : JString) : Prop := s.length = 64 ∧ ∀ c ∈ s, isHexDigit c = true

/-- What the masks take for such a text. -/
def TakenForHex (s : JString) : Prop :=
  s.length = 64 ∧ ∀ c ∈ s, isHexDigit c = true ∨ isStrayDigit c = true

/-- No error bit is set. -/
theorem taken_iff (s : JString) :
    (((List.range 10).map fun i => decodeBase64 s (i * 4)).foldl
        (fun (ret v : BitVec 32) => ret ||| (v >>> 31)) 0#32 |||
      (decodeBase64 [s.getD 40 0, s.getD 41 0, s.getD 42 0, ch 'A'] 0 >>> 31 |||
        decodeBase64 [s.getD 40 0, s.getD 41 0, s.getD 42 0, ch 'A'] 0 &&& 0xff#32)) = 0#32 ↔
      (∀ i < 43, readAs (s.getD i 0) ≠ 0) ∧ readAs (s.getD 42 0) % 4 = 1 := by
  rw [BitVec.or_eq_zero_iff, BitVec.or_eq_zero_iff, List.foldl_map, foldl_or_eq_zero_iff,
    decodeBase64_sign_iff]
  simp only [decodeBase64_sign_iff, List.mem_range]
  constructor
  · rintro ⟨⟨-, hgroups⟩, hend, hunused⟩
    have hlast := hend 2 (by omega)
    refine ⟨fun i hi => ?_, (decodeBase64_unused_iff _ _ hlast).mp hunused⟩
    by_cases hi' : i < 40
    · have hchar := hgroups (i / 4) (by omega) (i % 4) (by omega)
      rwa [Nat.mod_add_div' i 4] at hchar
    · have hchar := hend (i - 40) (by omega)
      interval_cases i <;> exact hchar
  · rintro ⟨hall, hunused⟩
    refine ⟨⟨trivial, fun i hi j hj => hall _ (by omega)⟩, fun j hj => ?_,
      (decodeBase64_unused_iff _ _ (hall 42 (by omega))).mpr hunused⟩
    interval_cases j
    · exact hall 40 (by omega)
    · exact hall 41 (by omega)
    · exact hall 42 (by omega)
    · show readAs (ch 'A') ≠ 0
      decide

/-- **What `fromBase64` accepts.** -/
theorem fromBase64_isOk_iff (s : JString) :
    (∃ key, fromBase64 s = .ok key) ↔ TakenForBase64 s := by
  rw [fromBase64]
  split
  · rename_i hlength
    refine iff_of_false (by simp) fun h => ?_
    rcases hlength with hlength | hpad
    · exact hlength h.length
    · exact hpad h.pad
  · rename_i hlength
    rw [not_or, not_not, not_not] at hlength
    dsimp only
    split
    · rename_i hret
      refine iff_of_false (by simp) fun h => hret ?_
      exact (taken_iff s).mpr ⟨h.taken, h.unused⟩
    · rename_i hret
      obtain ⟨htaken, hunused⟩ := (taken_iff s).mp (not_not.mp hret)
      exact iff_of_true ⟨_, rfl⟩ ⟨hlength.1, hlength.2, htaken, hunused⟩

/-- **What `fromHex` accepts.** -/
theorem fromHex_isOk_iff (s : JString) : (∃ key, fromHex s = .ok key) ↔ TakenForHex s := by
  rw [fromHex]
  split
  · rename_i hlength
    exact iff_of_false (by simp) fun h => hlength h.1
  · rename_i hlength
    have hlength : s.length = 64 := not_not.mp hlength
    have hret : ((List.range 32).map fun i => (decodeNibble (intOfChar (s.getD (i * 2) 0)),
        decodeNibble (intOfChar (s.getD (i * 2 + 1) 0)))).foldl
        (fun (ret : BitVec 32) p => ret ||| p.1.2 ||| p.2.2) 0#32 = 0#32 ↔
        ∀ c ∈ s, isHexDigit c = true ∨ isStrayDigit c = true := by
      rw [List.foldl_map]
      simp only [BitVec.or_assoc]
      rw [foldl_or_eq_zero_iff]
      simp only [BitVec.or_eq_zero_iff, decodeNibble_error_iff, List.mem_range, true_and]
      constructor
      · intro h c hc
        obtain ⟨n, hn, rfl⟩ := List.mem_iff_getElem.mp hc
        obtain ⟨h₀, h₁⟩ := h (n / 2) (by omega)
        rw [← List.getD_eq_getElem s 0 hn]
        rcases Nat.mod_two_eq_zero_or_one n with hmod | hmod
        · rwa [show n / 2 * 2 = n by omega] at h₀
        · rwa [show n / 2 * 2 + 1 = n by omega] at h₁
      · intro h i hi
        rw [List.getD_eq_getElem s 0 (by omega), List.getD_eq_getElem s 0 (by omega)]
        exact ⟨h _ (List.getElem_mem _), h _ (List.getElem_mem _)⟩
    dsimp only
    split
    · rename_i hne
      exact iff_of_false (by simp) fun h => hne (hret.mpr h.2)
    · rename_i heq
      exact iff_of_true ⟨_, rfl⟩ ⟨hlength, hret.mp (not_not.mp heq)⟩

/-! ## Base64 text is written back -/

/-- A character of the alphabet is no stray one. -/
theorem readAs_of_value {c : JChar} {v : ℕ} (h : base64Value c.toNat = some v) :
    readAs c = v + 1 := by
  have hlow : c.toNat < 256 := by
    unfold base64Value at h
    split_ifs at h <;> omega
  have hv := base64Value_lt h
  rw [readAs, Nat.mod_eq_of_lt hlow, h, Nat.div_eq_of_lt hlow, period, if_pos rfl]
  exact Nat.mod_eq_of_lt (by omega)

/-- Up to `U+00FF` no character is misread. -/
theorem value_of_readAs {c : JChar} (hlow : c.toNat < 256) (h : readAs c ≠ 0) :
    ∃ v, base64Value c.toNat = some v := by
  rw [readAs, Nat.mod_eq_of_lt hlow] at h
  cases hv : base64Value c.toNat with
  | none =>
    rw [hv] at h
    exact absurd rfl h
  | some v => exact ⟨v, rfl⟩

theorem low_of_value {c : JChar} {v : ℕ} (h : base64Value c.toNat = some v) : c.toNat < 128 := by
  unfold base64Value at h
  split_ifs at h <;> omega

theorem decodeSextet_of_value {c : JChar} {v : ℕ} (h : base64Value c.toNat = some v) :
    decodeSextet (intOfChar c) = (BitVec.ofNat 6 v).setWidth 32 := by
  have hv := base64Value_lt h
  apply BitVec.eq_of_toNat_eq
  rw [decodeSextet_eq, readAs_of_value h, BitVec.toNat_sub, BitVec.toNat_setWidth,
    BitVec.toNat_ofNat, BitVec.toNat_ofNat, BitVec.toNat_ofNat]
  omega

theorem base64Char_value {c : JChar} {v : ℕ} (h : base64Value c.toNat = some v) :
    base64Char (BitVec.ofNat 6 v) = c := by
  rw [base64Char_of_value c.toNat (low_of_value h) v h, UInt16.ofNat_toNat]

/-- The bits of four characters. -/
def joined (w₀ w₁ w₂ w₃ : BitVec 6) : BitVec 32 :=
  w₀.setWidth 32 <<< 18 ||| w₁.setWidth 32 <<< 12 ||| w₂.setWidth 32 <<< 6 ||| w₃.setWidth 32

/-- The bytes of four characters are those characters. -/
theorem quantum_joined (w₀ w₁ w₂ w₃ : BitVec 6) :
    quantum ((joined w₀ w₁ w₂ w₃ >>> 16).truncate 8) ((joined w₀ w₁ w₂ w₃ >>> 8).truncate 8)
      ((joined w₀ w₁ w₂ w₃).truncate 8) = [w₀, w₁, w₂, w₃] := by
  have hbits : ∀ i < 24, ((joined w₀ w₁ w₂ w₃ >>> 16).truncate 8 ++
      (joined w₀ w₁ w₂ w₃ >>> 8).truncate 8 ++ (joined w₀ w₁ w₂ w₃).truncate 8).getLsbD i =
        (joined w₀ w₁ w₂ w₃).getLsbD i := by
    intro i hi
    rw [BitVec.getLsbD_append, BitVec.getLsbD_append]
    interval_cases i <;> simp
  have hpart : ∀ (k : ℕ) (w : BitVec 6), k ≤ 18 →
      (∀ i < 6, (joined w₀ w₁ w₂ w₃).getLsbD (k + i) = w.getLsbD i) →
      ((joined w₀ w₁ w₂ w₃ >>> 16).truncate 8 ++ (joined w₀ w₁ w₂ w₃ >>> 8).truncate 8 ++
        (joined w₀ w₁ w₂ w₃).truncate 8).extractLsb' k 6 = w := by
    intro k w hk hw
    apply BitVec.eq_of_getLsbD_eq
    intro i hi
    rw [BitVec.getLsbD_extractLsb', hbits _ (by omega), hw i hi]
    simp [hi]
  have h₀ := hpart 18 w₀ (by omega) fun i hi => by interval_cases i <;> simp [joined]
  have h₁ := hpart 12 w₁ (by omega) fun i hi => by interval_cases i <;> simp [joined]
  have h₂ := hpart 6 w₂ (by omega) fun i hi => by interval_cases i <;> simp [joined]
  have h₃ := hpart 0 w₃ (by omega) fun i hi => by interval_cases i <;> simp [joined]
  rw [quantum]
  simp only [h₀, h₁, h₂, h₃]

/-- **A group is written back.** -/
theorem encodeBase64_decodeBase64 (src : JString) (srcOffset : ℕ)
    (h : ∀ j < 4, ∃ v, base64Value (src.getD (j + srcOffset) 0).toNat = some v) :
    encodeBase64 ((decodeBase64 src srcOffset >>> 16).truncate 8)
        ((decodeBase64 src srcOffset >>> 8).truncate 8) ((decodeBase64 src srcOffset).truncate 8) =
      [src.getD srcOffset 0, src.getD (1 + srcOffset) 0, src.getD (2 + srcOffset) 0,
        src.getD (3 + srcOffset) 0] := by
  obtain ⟨v₀, h₀⟩ := h 0 (by omega)
  obtain ⟨v₁, h₁⟩ := h 1 (by omega)
  obtain ⟨v₂, h₂⟩ := h 2 (by omega)
  obtain ⟨v₃, h₃⟩ := h 3 (by omega)
  rw [Nat.zero_add] at h₀
  have hjoined : decodeBase64 src srcOffset = joined (BitVec.ofNat 6 v₀) (BitVec.ofNat 6 v₁)
      (BitVec.ofNat 6 v₂) (BitVec.ofNat 6 v₃) := by
    rw [decodeBase64_eq, decodeSextet_of_value h₀, decodeSextet_of_value h₁,
      decodeSextet_of_value h₂, decodeSextet_of_value h₃, joined]
  rw [encodeBase64_eq, hjoined, quantum_joined]
  simp only [List.map_cons, List.map_nil, base64Char_value h₀, base64Char_value h₁,
    base64Char_value h₂, base64Char_value h₃]

theorem length_groupBytes (val : BitVec 32) : (groupBytes val).length = 3 := rfl

/-- The key with these groups, of the last of which only two bytes are used. -/
def ofGroups (val : ℕ → BitVec 32) (last : BitVec 32) : Key where
  bytes := ((List.range 10).flatMap fun i => groupBytes (val i)) ++ (groupBytes last).take 2
  length_bytes := rfl

/-- The text of such a key. -/
theorem toBase64_ofGroups (val : ℕ → BitVec 32) (last : BitVec 32) :
    (ofGroups val last).toBase64 =
      ((List.range 10).flatMap fun i => encodeBase64 ((val i >>> 16).truncate 8)
        ((val i >>> 8).truncate 8) ((val i).truncate 8)) ++
      (encodeBase64 ((last >>> 16).truncate 8) ((last >>> 8).truncate 8) 0#8).take 3 ++
        [ch '='] := by
  have hgroup : ∀ {i j : ℕ}, i < 10 → j < 3 →
      (ofGroups val last).bytes.getD (i * 3 + j) 0 = (groupBytes (val i)).getD j 0 := by
    intro i j hi hj
    rw [Nat.add_comm]
    exact getD_flatMap_range (fun _ => length_groupBytes _) hi hj _ 0
  have hlength : ((List.range 10).flatMap fun i => groupBytes (val i)).length = 30 := rfl
  have hend : ∀ j, (ofGroups val last).bytes.getD (30 + j) 0 =
      ((groupBytes last).take 2).getD j 0 := by
    intro j
    rw [ofGroups, List.getD_append_right _ _ _ _ (by omega), hlength, Nat.add_sub_cancel_left]
  have h30 : (ofGroups val last).bytes.getD 30 0 = (last >>> 16).truncate 8 := hend 0
  have h31 : (ofGroups val last).bytes.getD 31 0 = (last >>> 8).truncate 8 := hend 1
  have hgroups : ∀ i ∈ List.range 10, encodeBase64 ((ofGroups val last).bytes.getD (i * 3) 0)
      ((ofGroups val last).bytes.getD (i * 3 + 1) 0)
      ((ofGroups val last).bytes.getD (i * 3 + 2) 0) =
      encodeBase64 ((val i >>> 16).truncate 8) ((val i >>> 8).truncate 8)
        ((val i).truncate 8) := by
    intro i hi
    have hi' := List.mem_range.mp hi
    have h₀ := hgroup hi' (show 0 < 3 by omega)
    rw [Nat.add_zero] at h₀
    rw [h₀, hgroup hi' (show 1 < 3 by omega), hgroup hi' (show 2 < 3 by omega)]
    rfl
  rw [toBase64, h30, h31, List.flatMap_congr hgroups]

/-- The characters of a text of 44, four at a time. -/
theorem text_eq {s : JString} (hlength : s.length = 44) :
    ((List.range 10).flatMap fun i => [s.getD (i * 4) 0, s.getD (1 + i * 4) 0,
      s.getD (2 + i * 4) 0, s.getD (3 + i * 4) 0]) ++ [s.getD 40 0, s.getD 41 0, s.getD 42 0] ++
        [s.getD 43 0] = s := by
  have hrange : (List.range 44).map (fun i => s.getD i 0) = s := by
    refine List.ext_getElem (by simp [hlength]) fun i h₁ h₂ => ?_
    rw [List.getElem_map, List.getElem_range, List.getD_eq_getElem _ _ h₂]
  exact hrange

theorem truncate_eq_zero {x : BitVec 32} (h : x &&& 0xff#32 = 0#32) : x.truncate 8 = 0#8 := by
  have hnat := congrArg BitVec.toNat h
  rw [BitVec.toNat_and] at hnat
  apply BitVec.eq_of_toNat_eq
  rw [BitVec.truncate_eq_setWidth, BitVec.toNat_setWidth]
  exact (Nat.and_two_pow_sub_one_eq_mod x.toNat 8).symm.trans hnat

/-- **A base64 text is the text of a key.** -/
theorem exists_eq_toBase64 {s : JString} (h : IsBase64 s) : ∃ key : Key, s = key.toBase64 := by
  have hfill : ∃ v, base64Value (ch 'A').toNat = some v := ⟨0, by decide⟩
  have hgroups : ∀ i ∈ List.range 10, encodeBase64 ((decodeBase64 s (i * 4) >>> 16).truncate 8)
      ((decodeBase64 s (i * 4) >>> 8).truncate 8) ((decodeBase64 s (i * 4)).truncate 8) =
      [s.getD (i * 4) 0, s.getD (1 + i * 4) 0, s.getD (2 + i * 4) 0, s.getD (3 + i * 4) 0] := by
    intro i hi
    have hi' := List.mem_range.mp hi
    exact encodeBase64_decodeBase64 s (i * 4) fun j hj => h.alphabet _ (by omega)
  have hend := encodeBase64_decodeBase64 [s.getD 40 0, s.getD 41 0, s.getD 42 0, ch 'A'] 0
    fun j hj => by
      interval_cases j
      · exact h.alphabet 40 (by omega)
      · exact h.alphabet 41 (by omega)
      · exact h.alphabet 42 (by omega)
      · exact hfill
  -- the third byte of the last group holds unused bits only
  obtain ⟨v, hv⟩ := h.alphabet 42 (by omega)
  have hread := readAs_of_value hv
  have hunused : decodeBase64 [s.getD 40 0, s.getD 41 0, s.getD 42 0, ch 'A'] 0 &&& 0xff#32 =
      0#32 := by
    have hmod := h.unused v hv
    exact (decodeBase64_unused_iff _ _ (by omega)).mpr (by omega)
  rw [truncate_eq_zero hunused] at hend
  refine ⟨ofGroups (fun i => decodeBase64 s (i * 4))
    (decodeBase64 [s.getD 40 0, s.getD 41 0, s.getD 42 0, ch 'A'] 0), ?_⟩
  rw [toBase64_ofGroups, List.flatMap_congr hgroups, hend, ← h.pad]
  exact (text_eq h.length).symm

/-- The text of a key is a base64 text. -/
theorem isBase64_toBase64 (key : Key) : IsBase64 key.toBase64 := by
  have htaken : TakenForBase64 key.toBase64 :=
    (fromBase64_isOk_iff _).mp ⟨key, fromBase64_toBase64 key⟩
  refine ⟨htaken.length, htaken.pad, fun i hi => ?_, fun v hv => ?_⟩
  · have hlength : i < key.toBase64.dropLast.length := by
      rw [List.length_dropLast, length_toBase64]
      omega
    obtain ⟨v, hv⟩ := mem_dropLast_toBase64 (List.getElem_mem hlength)
    rw [List.getElem_dropLast] at hv
    rw [List.getD_eq_getElem _ _ (by rw [length_toBase64]; omega), ← hv]
    exact ⟨v.toNat, base64Value_base64Char v⟩
  · have hunused := htaken.unused
    rw [readAs_of_value hv] at hunused
    omega

theorem isBase64_iff (s : JString) : (∃ key : Key, s = key.toBase64) ↔ IsBase64 s := by
  constructor
  · rintro ⟨key, rfl⟩
    exact isBase64_toBase64 key
  · exact exists_eq_toBase64

/-! ## The text that is misread -/

/-- The masks take the text for base64, and a character above `U+00FF` stands in it. -/
def MisreadBase64 (s : JString) : Prop :=
  TakenForBase64 s ∧ ∃ i < 43, 0x100 ≤ (s.getD i 0).toNat

/-- The masks take the text for hexadecimal, and a character above `U+00FF` stands in it. -/
def MisreadHex (s : JString) : Prop := TakenForHex s ∧ ∃ c ∈ s, 0x100 ≤ c.toNat

theorem taken_of_isBase64 {s : JString} (h : IsBase64 s) : TakenForBase64 s := by
  obtain ⟨key, rfl⟩ := exists_eq_toBase64 h
  exact (fromBase64_isOk_iff _).mp ⟨key, fromBase64_toBase64 key⟩

/-- Without such characters the masks are right. -/
theorem taken_iff_isBase64 {s : JString} :
    (TakenForBase64 s ↔ IsBase64 s) ↔ ¬ MisreadBase64 s := by
  constructor
  · rintro h ⟨htaken, i, hi, hhigh⟩
    obtain ⟨v, hv⟩ := (h.mp htaken).alphabet i hi
    have hlow := low_of_value hv
    omega
  · intro h
    refine ⟨fun htaken => ?_, taken_of_isBase64⟩
    have hlow : ∀ i < 43, (s.getD i 0).toNat < 256 := by
      intro i hi
      by_contra hhigh
      exact h ⟨htaken, i, hi, by omega⟩
    refine ⟨htaken.length, htaken.pad,
      fun i hi => value_of_readAs (hlow i hi) (htaken.taken i hi), fun v hv => ?_⟩
    have hunused := htaken.unused
    rw [readAs_of_value hv] at hunused
    omega

theorem taken_iff_isHex {s : JString} : (TakenForHex s ↔ IsHex s) ↔ ¬ MisreadHex s := by
  have hdigit : ∀ c : JChar, isHexDigit c = true → c.toNat < 0x100 := by
    intro c hc
    simp only [isHexDigit, Bool.or_eq_true, Bool.and_eq_true, decide_eq_true_eq] at hc
    omega
  have hstray : ∀ c : JChar, isStrayDigit c = true → 0x100 ≤ c.toNat := by
    intro c hc
    rw [isStrayDigit, Bool.and_eq_true, decide_eq_true_eq] at hc
    exact hc.1
  constructor
  · rintro h ⟨htaken, c, hc, hhigh⟩
    have hlow := hdigit c ((h.mp htaken).2 c hc)
    omega
  · intro h
    refine ⟨fun htaken => ⟨htaken.1, fun c hc => ?_⟩, fun hhex => ⟨hhex.1, fun c hc => ?_⟩⟩
    · refine (htaken.2 c hc).resolve_right fun hc' => ?_
      exact h ⟨htaken, c, hc, hstray c hc'⟩
    · exact Or.inl (hhex.2 c hc)

/-- **Malformed text is rejected**: what the decoders do with the text `s`.  They accept it
exactly if it is well-formed, and throw otherwise. -/
structure RejectsMalformed (s : JString) : Prop where
  base64 : (∃ key, fromBase64 s = .ok key) ↔ ∃ key : Key, s = key.toBase64
  base64_form : (∃ key : Key, s = key.toBase64) ↔ IsBase64 s
  base64_throws : (¬ ∃ key : Key, s = key.toBase64) → ∃ e, fromBase64 s = .error e
  hex : (∃ key, fromHex s = .ok key) ↔ IsHex s
  hex_throws : ¬ IsHex s → ∃ e, fromHex s = .error e

/-- **When malformed key text is rejected.**  For every string: both decoders accept exactly the
well-formed text and throw otherwise if and only if neither of them misreads the string.
`fromBase64` misreads it if it has 44 characters and ends with `=`, each other character is one
of the alphabet or one above `U+00FF` that the masks take for one, the unused bits are zero, and a
character above `U+00FF` occurs; `fromHex` misreads it if it has 64 characters, each a
hexadecimal digit or one from `U+0100` on outside `U+0130` to `U+0139`, and one of the latter
occurs. -/
theorem malformed_text_rejected_iff (s : JString) :
    RejectsMalformed s ↔ ¬ MisreadBase64 s ∧ ¬ MisreadHex s := by
  have hthrows : ∀ x : Except KeyFormatException Key, (¬ ∃ key, x = .ok key) →
      ∃ e, x = .error e := by
    intro x hx
    cases x with
    | error e => exact ⟨e, rfl⟩
    | ok key => exact absurd ⟨key, rfl⟩ hx
  rw [← taken_iff_isBase64, ← taken_iff_isHex]
  constructor
  · intro h
    refine ⟨?_, ?_⟩
    · rw [← fromBase64_isOk_iff, ← isBase64_iff]
      exact h.base64
    · rw [← fromHex_isOk_iff]
      exact h.hex
  · rintro ⟨hbase64, hhex⟩
    rw [← fromBase64_isOk_iff, ← isBase64_iff] at hbase64
    rw [← fromHex_isOk_iff] at hhex
    exact ⟨hbase64, isBase64_iff s, fun h => hthrows _ fun hok => h (hbase64.mp hok), hhex,
      fun h => hthrows _ fun hok => h (hhex.mp hok)⟩

/-- A text in which `U+0241` stands for the first letter. -/
def strayText : JString := 0x241 :: (List.replicate 42 (ch 'A') ++ [ch '='])

/-- Sixty-four times `U+0100`. -/
def strayHex : JString := List.replicate 64 0x100

/-- **Malformed text is accepted.** -/
theorem stray_text_accepted :
    ((∃ key, fromBase64 strayText = .ok key) ∧ ¬ ∃ key : Key, strayText = key.toBase64) ∧
      (∃ key, fromHex strayHex = .ok key) ∧ ¬ IsHex strayHex := by
  refine ⟨⟨(fromBase64_isOk_iff _).mpr ⟨rfl, rfl, by decide +kernel, by decide +kernel⟩, ?_⟩,
    (fromHex_isOk_iff _).mpr ⟨rfl, fun c hc => ?_⟩, ?_⟩
  · rw [isBase64_iff]
    intro h
    obtain ⟨v, hv⟩ := h.alphabet 0 (by omega)
    have hstray : base64Value (strayText.getD 0 0).toNat = none := by decide
    rw [hstray] at hv
    exact absurd hv (by simp)
  · rw [strayHex, List.mem_replicate] at hc
    rw [hc.2]
    exact Or.inr (by decide)
  · intro h
    have hdigit := h.2 0x100 (List.mem_replicate.mpr ⟨by omega, rfl⟩)
    exact absurd hdigit (by decide)

end Key
end AioVpn
