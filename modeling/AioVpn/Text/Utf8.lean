import AioVpn.Text.JavaString

/-!
# UTF-8

`String.getBytes(UTF_8)`.  A character of the basic plane has one to three bytes, a pair of
surrogates four, and a surrogate that is not part of a pair is written as a question mark.

A string that is cut in front of an ASCII character is encoded part by part, since such a character
belongs to no pair (`utf8_append_cons`).  Within the encoding, the bytes below `0x80` are the ASCII
characters of the string and the question marks (`ascii_of_mem_utf8`).
-/

namespace AioVpn
namespace JChar

/-- An ASCII character. -/
def isAscii (c : JChar) : Bool := c.toNat < 0x80

def isHighSurrogate (c : JChar) : Bool := 0xd800 ≤ c.toNat && c.toNat < 0xdc00

def isLowSurrogate (c : JChar) : Bool := 0xdc00 ≤ c.toNat && c.toNat < 0xe000

/-- The byte of an ASCII character. -/
def byte (c : JChar) : BitVec 8 := BitVec.ofNat 8 c.toNat

/-- The bytes of a character that is not part of a pair. -/
def utf8 (c : JChar) : List (BitVec 8) :=
  let n := c.toNat
  if c.isAscii then [c.byte]
  else if n < 0x800 then [BitVec.ofNat 8 (0xc0 + n / 64), BitVec.ofNat 8 (0x80 + n % 64)]
  else if c.isHighSurrogate || c.isLowSurrogate then [(ch '?').byte]
  else
    [BitVec.ofNat 8 (0xe0 + n / 4096), BitVec.ofNat 8 (0x80 + n / 64 % 64),
      BitVec.ofNat 8 (0x80 + n % 64)]

/-- The bytes of a pair of surrogates. -/
def utf8Pair (c d : JChar) : List (BitVec 8) :=
  let n := 0x10000 + (c.toNat - 0xd800) * 1024 + (d.toNat - 0xdc00)
  [BitVec.ofNat 8 (0xf0 + n / 262144), BitVec.ofNat 8 (0x80 + n / 4096 % 64),
    BitVec.ofNat 8 (0x80 + n / 64 % 64), BitVec.ofNat 8 (0x80 + n % 64)]

end JChar

namespace JString

/-- The bytes of a string. -/
def utf8 : JString → List (BitVec 8)
  | [] => []
  | [c] => c.utf8
  | c :: d :: s =>
      if c.isHighSurrogate && d.isLowSurrogate then JChar.utf8Pair c d ++ utf8 s
      else c.utf8 ++ utf8 (d :: s)

/-! ## ASCII -/

theorem isLowSurrogate_of_isAscii {c : JChar} (hc : c.isAscii = true) :
    c.isLowSurrogate = false := by
  simp only [JChar.isAscii, JChar.isLowSurrogate, decide_eq_true_eq, Bool.and_eq_false_iff,
    decide_eq_false_iff_not] at hc ⊢
  omega

theorem isHighSurrogate_of_isAscii {c : JChar} (hc : c.isAscii = true) :
    c.isHighSurrogate = false := by
  simp only [JChar.isAscii, JChar.isHighSurrogate, decide_eq_true_eq, Bool.and_eq_false_iff,
    decide_eq_false_iff_not] at hc ⊢
  omega

theorem utf8_cons {c : JChar} (hc : c.isAscii = true) (s : JString) :
    utf8 (c :: s) = c.byte :: utf8 s := by
  have hbyte : c.utf8 = [c.byte] := by rw [JChar.utf8, if_pos hc]
  cases s with
  | nil => exact hbyte
  | cons d s =>
    rw [utf8, isHighSurrogate_of_isAscii hc, Bool.false_and, if_neg (by simp), hbyte,
      List.singleton_append]

/-- **A string is encoded part by part**, when it is cut at an ASCII character. -/
theorem utf8_append_cons (s : JString) {c : JChar} (hc : c.isAscii = true) (t : JString) :
    utf8 (s ++ c :: t) = utf8 s ++ c.byte :: utf8 t := by
  fun_induction utf8 s with
  | case1 => exact utf8_cons hc t
  | case2 d =>
    rw [List.singleton_append, utf8, isLowSurrogate_of_isAscii hc, Bool.and_false,
      if_neg (by simp), utf8_cons hc]
  | case3 d e s hpair ih =>
    rw [List.cons_append, List.cons_append, utf8, if_pos hpair, ih, List.append_assoc]
  | case4 d e s hpair ih =>
    rw [List.cons_append, List.cons_append, utf8, if_neg hpair, ← List.cons_append, ih,
      List.append_assoc]

theorem utf8_of_ascii {s : JString} (hs : ∀ c ∈ s, c.isAscii = true) :
    utf8 s = s.map JChar.byte := by
  induction s with
  | nil => rfl
  | cons c s ih =>
    rw [utf8_cons (hs c List.mem_cons_self), ih fun d hd => hs d (List.mem_cons_of_mem _ hd),
      List.map_cons]

/-! ## The bytes of an encoding -/

/-- The bytes that are not ASCII, and the question mark. -/
def IsMarker (b : BitVec 8) : Prop := 0x80 ≤ b.toNat ∨ b = (ch '?').byte

theorem isMarker_ofNat {n : ℕ} (hlow : 0x80 ≤ n) (hhigh : n < 0x100) :
    IsMarker (BitVec.ofNat 8 n) := by
  refine Or.inl ?_
  rw [BitVec.toNat_ofNat]
  omega

theorem isMarker_of_mem_utf8 {c : JChar} (hc : c.isAscii = false) :
    ∀ b ∈ c.utf8, IsMarker b := by
  have hlt : c.toNat < 65536 := c.toNat_lt
  rw [JChar.utf8, if_neg (by simp [hc])]
  split_ifs
  · simp only [List.forall_mem_cons]
    exact ⟨isMarker_ofNat (by omega) (by omega), isMarker_ofNat (by omega) (by omega),
      List.forall_mem_nil _⟩
  · simp only [List.forall_mem_cons]
    exact ⟨Or.inr rfl, List.forall_mem_nil _⟩
  · simp only [List.forall_mem_cons]
    exact ⟨isMarker_ofNat (by omega) (by omega), isMarker_ofNat (by omega) (by omega),
      isMarker_ofNat (by omega) (by omega), List.forall_mem_nil _⟩

theorem isMarker_of_mem_utf8Pair {c d : JChar} (hc : c.isHighSurrogate = true)
    (hd : d.isLowSurrogate = true) : ∀ b ∈ JChar.utf8Pair c d, IsMarker b := by
  simp only [JChar.isHighSurrogate, JChar.isLowSurrogate, Bool.and_eq_true,
    decide_eq_true_eq] at hc hd
  simp only [JChar.utf8Pair, List.forall_mem_cons]
  exact ⟨isMarker_ofNat (by omega) (by omega), isMarker_ofNat (by omega) (by omega),
    isMarker_ofNat (by omega) (by omega), isMarker_ofNat (by omega) (by omega),
    List.forall_mem_nil _⟩

/-- **The ASCII bytes of an encoding** are the ASCII characters of the string, question marks
apart. -/
theorem ascii_of_mem_utf8 {s : JString} :
    ∀ b ∈ utf8 s, IsMarker b ∨ ∃ c ∈ s, c.isAscii = true ∧ b = c.byte := by
  have hsingle : ∀ c : JChar, ∀ b ∈ c.utf8, IsMarker b ∨ c.isAscii = true ∧ b = c.byte := by
    intro c b hb
    cases hc : c.isAscii with
    | false => exact Or.inl (isMarker_of_mem_utf8 hc b hb)
    | true =>
      rw [JChar.utf8, if_pos hc, List.mem_singleton] at hb
      exact Or.inr ⟨rfl, hb⟩
  intro b hb
  fun_induction utf8 s with
  | case1 => exact absurd hb List.not_mem_nil
  | case2 c => exact (hsingle c b hb).imp_right fun h => ⟨c, List.mem_cons_self, h⟩
  | case3 c d s hpair ih =>
    rw [Bool.and_eq_true] at hpair
    rcases List.mem_append.mp hb with hb | hb
    · exact Or.inl (isMarker_of_mem_utf8Pair hpair.1 hpair.2 b hb)
    · refine (ih hb).imp_right ?_
      rintro ⟨e, he, h⟩
      exact ⟨e, List.mem_cons_of_mem _ (List.mem_cons_of_mem _ he), h⟩
  | case4 c d s hpair ih =>
    rcases List.mem_append.mp hb with hb | hb
    · exact (hsingle c b hb).imp_right fun h => ⟨c, List.mem_cons_self, h⟩
    · refine (ih hb).imp_right ?_
      rintro ⟨e, he, h⟩
      exact ⟨e, List.mem_cons_of_mem _ he, h⟩

/-- The encoding avoids an ASCII character that the string avoids. -/
theorem byte_notMem_utf8 {s : JString} {c : JChar} (hc : c.isAscii = true) (hmark : c ≠ ch '?')
    (hs : c ∉ s) : c.byte ∉ utf8 s := by
  have hinj : ∀ d : JChar, d.isAscii = true → c.byte = d.byte → c = d := by
    intro d hd h
    simp only [JChar.isAscii, decide_eq_true_eq] at hc hd
    have hnat := congrArg BitVec.toNat h
    rw [JChar.byte, JChar.byte, BitVec.toNat_ofNat, BitVec.toNat_ofNat,
      Nat.mod_eq_of_lt (by omega), Nat.mod_eq_of_lt (by omega)] at hnat
    exact UInt16.toNat_inj.mp hnat
  intro hb
  rcases ascii_of_mem_utf8 _ hb with (hhigh | h) | ⟨d, hd, hascii, h⟩
  · simp only [JChar.isAscii, decide_eq_true_eq] at hc
    rw [JChar.byte, BitVec.toNat_ofNat] at hhigh
    omega
  · exact hmark (hinj _ (by decide) h)
  · exact hs (hinj d hascii h ▸ hd)

end JString
end AioVpn
