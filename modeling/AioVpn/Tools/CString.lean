import Mathlib.Data.List.TakeWhile
import Mathlib.Tactic

/-!
# Strings of C

A string of C is the list of its bytes up to the terminating zero; what may hold a zero is a buffer.
The functions of the C library that cut strings and read numbers are here as functions on lists,
for the locale `C` and for a `long` of 64 bits.

A pointer into a string is the rest of the string from there on.

What was put together is found again: the lines of a file (`getlines_flatMap`), numbers
(`strtoul_digits`, `atoi_digits`), the key of a line `key=value` (`strncasecmp_key`), and the parts
of a list (`strtok_intercalate`).
-/

namespace AioVpn

/-- A byte of a string. -/
abbrev CChar := BitVec 8

/-- A string, without the terminating zero. -/
abbrev CString := List CChar

/-- A character constant. -/
def cch (c : Char) : CChar := BitVec.ofNat 8 c.toNat

/-- A string constant. -/
def cstr (s : String) : CString := s.toList.map cch

namespace CChar

/-- A `char` used as an `int`; whether `char` is signed depends on the platform. -/
def toInt (signed : Bool) (c : CChar) : BitVec 32 :=
  if signed then c.signExtend 32 else c.setWidth 32

/-- `isspace`. -/
def isSpace (c : CChar) : Bool := 9 ≤ c.toNat && c.toNat ≤ 13 || c.toNat = 32

/-- `isdigit`. -/
def isDigit (c : CChar) : Bool := 48 ≤ c.toNat && c.toNat ≤ 57

/-- `tolower`. -/
def toLower (c : CChar) : CChar := if 65 ≤ c.toNat && c.toNat ≤ 90 then c + 32#8 else c

/-- The value of a digit of a number; 36 for what is never a digit. -/
def digitValue (c : CChar) : ℕ :=
  if c.isDigit then c.toNat - 48
  else if 97 ≤ c.toLower.toNat && c.toLower.toNat ≤ 122 then c.toLower.toNat - 87
  else 36

end CChar

namespace CString

/-! ## Strings -/

/-- The string in a buffer. -/
def ofBuffer (buffer : List CChar) : CString := buffer.takeWhile (· ≠ 0#8)

/-- `!strcasecmp(s, t)`. -/
def strcasecmp (s t : CString) : Bool := s.map CChar.toLower == t.map CChar.toLower

/-- `!strncasecmp(s, t, n)`. -/
def strncasecmp (s t : CString) (n : ℕ) : Bool := strcasecmp (s.take n) (t.take n)

/-- `strsep`: the part up to the separator, and the part behind it. -/
def strsep (separator : CChar) (s : CString) : CString × Option CString :=
  match s.dropWhile (· ≠ separator) with
  | [] => (s, none)
  | _ :: rest => (s.takeWhile (· ≠ separator), some rest)

/-- The parts that `strtok` returns one after the other. -/
def strtok (delimiters s : CString) : List CString :=
  (s.splitOnP fun c => delimiters.contains c).filter fun token => token ≠ []

/-- The lines that `getline` returns one after the other, with their terminators. -/
def getlines : List CChar → List (List CChar)
  | [] => []
  | c :: cs =>
      if c = cch '\n' then [c] :: getlines cs
      else
        match getlines cs with
        | [] => [[c]]
        | line :: lines => (c :: line) :: lines

/-! ## Numbers -/

/-- The sign of a number, and what is behind it. -/
def sign : CString → Bool × CString
  | [] => (false, [])
  | c :: s => if c = cch '-' then (true, s) else if c = cch '+' then (false, s) else (false, c :: s)

/-- Without the `0x` of a hexadecimal number. -/
def dropRadix (base : ℕ) : CString → CString
  | z :: x :: d :: s =>
      if base = 16 ∧ z = cch '0' ∧ x.toLower = cch 'x' ∧ d.digitValue < 16 then d :: s
      else z :: x :: d :: s
  | s => s

/-- The digits of a number, its value, and what is behind it; `none` if there are no digits. -/
def scanNumber (base : ℕ) (s : CString) : Option (Bool × ℕ × CString) :=
  let (negative, t) := sign (s.dropWhile CChar.isSpace)
  let t := dropRadix base t
  let digits := t.takeWhile fun c => c.digitValue < base
  if digits = [] then none
  else
    some (negative, digits.foldl (fun n c => base * n + c.digitValue) 0,
      t.dropWhile fun c => c.digitValue < base)

/-- `strtoul`: the value, and the end. -/
def strtoul (s : CString) (base : ℕ) : ℕ × CString :=
  match scanNumber base s with
  | none => (0, s)
  | some (negative, n, rest) =>
      (if 2 ^ 64 ≤ n then 2 ^ 64 - 1 else if negative then (2 ^ 64 - n) % 2 ^ 64 else n, rest)

/-- `strtol`: the value. -/
def strtol (s : CString) (base : ℕ) : ℤ :=
  match scanNumber base s with
  | none => 0
  | some (negative, n, _) =>
      if negative then max (-2 ^ 63) (-(n : ℤ)) else min (2 ^ 63 - 1) n

/-- `atoi`. -/
def atoi (s : CString) : BitVec 32 := BitVec.ofInt 32 (strtol s 10)

/-! ## Lines -/

theorem getlines_append {line : List CChar} (hline : cch '\n' ∉ line) (rest : List CChar) :
    getlines (line ++ cch '\n' :: rest) = (line ++ [cch '\n']) :: getlines rest := by
  induction line with
  | nil => rw [List.nil_append, getlines, if_pos rfl, List.nil_append]
  | cons c line ih =>
    rw [List.mem_cons, not_or] at hline
    rw [List.cons_append, getlines, if_neg (Ne.symm hline.1), ih hline.2]
    rfl

/-- **The lines of a file are read back.** -/
theorem getlines_flatMap {lines : List (List CChar)} (hlines : ∀ line ∈ lines, cch '\n' ∉ line) :
    getlines (lines.flatMap fun line => line ++ [cch '\n']) =
      lines.map fun line => line ++ [cch '\n'] := by
  induction lines with
  | nil => rfl
  | cons line lines ih =>
    rw [List.forall_mem_cons] at hlines
    rw [List.flatMap_cons, List.append_assoc, List.singleton_append, getlines_append hlines.1,
      ih hlines.2, List.map_cons]

/-! ## Numbers are read back -/

theorem digitValue_cch {c : Char} (hc : c.isDigit = true) :
    (cch c).digitValue = c.toNat - '0'.toNat ∧ (cch c).isDigit = true := by
  have hbounds : 48 ≤ c.toNat ∧ c.toNat ≤ 57 := Char.isDigit_iff_toNat.mp hc
  have hnat : (cch c).toNat = c.toNat := by
    rw [cch, BitVec.toNat_ofNat, Nat.mod_eq_of_lt (by omega)]
  have hdigit : (cch c).isDigit = true := by
    rw [CChar.isDigit, hnat, Bool.and_eq_true, decide_eq_true_eq, decide_eq_true_eq]
    exact hbounds
  refine ⟨?_, hdigit⟩
  rw [CChar.digitValue, if_pos hdigit, hnat]
  rfl

theorem foldl_digits {cs : List Char} (hcs : ∀ c ∈ cs, c.isDigit = true) (n : ℕ) :
    (cs.map cch).foldl (fun n c => 10 * n + c.digitValue) n = Nat.ofDigitChars 10 cs n := by
  induction cs generalizing n with
  | nil => rfl
  | cons c cs ih =>
    rw [List.map_cons, List.foldl_cons, (digitValue_cch (hcs c List.mem_cons_self)).1,
      Nat.ofDigitChars_cons]
    exact ih (fun d hd => hcs d (List.mem_cons_of_mem _ hd)) _

/-- The digits of a number. -/
def digits (n : ℕ) : CString := (Nat.toDigits 10 n).map cch

theorem isDigit_of_mem_digits {n : ℕ} : ∀ c ∈ digits n, c.isDigit = true ∧ c.digitValue < 10 := by
  intro c hc
  obtain ⟨d, hd, rfl⟩ := List.mem_map.mp hc
  have hdigit := Nat.isDigit_of_mem_toDigits (by decide) (by decide) hd
  have hbounds : 48 ≤ d.toNat ∧ d.toNat ≤ 57 := Char.isDigit_iff_toNat.mp hdigit
  obtain ⟨hvalue, hc⟩ := digitValue_cch hdigit
  refine ⟨hc, ?_⟩
  rw [hvalue, show '0'.toNat = 48 from rfl]
  omega

theorem digits_ne_nil (n : ℕ) : digits n ≠ [] := fun h =>
  Nat.toDigits_ne_nil (List.map_eq_nil_iff.mp h)

/-- **The digits of a number are read as the number.** -/
theorem scanNumber_digits (n : ℕ) : scanNumber 10 (digits n) = some (false, n, []) := by
  have hdigits := isDigit_of_mem_digits (n := n)
  have hvalue : (digits n).foldl (fun n c => 10 * n + c.digitValue) 0 = n := by
    rw [digits, foldl_digits fun c hc => Nat.isDigit_of_mem_toDigits (by decide) (by decide) hc,
      Nat.ofDigitChars_ten_toDigits]
  have htake : (digits n).takeWhile (fun c => decide (c.digitValue < 10)) = digits n :=
    List.takeWhile_eq_self_iff.mpr fun c hc => decide_eq_true (hdigits c hc).2
  have hdrop : (digits n).dropWhile (fun c => decide (c.digitValue < 10)) = [] :=
    List.dropWhile_eq_nil_iff.mpr fun c hc => decide_eq_true (hdigits c hc).2
  have hradix : ∀ s, dropRadix 10 s = s := by
    intro s
    unfold dropRadix
    split <;> simp
  -- a digit is neither a blank nor a sign
  have hsign : sign ((digits n).dropWhile CChar.isSpace) = (false, digits n) := by
    cases hcut : digits n with
    | nil => exact absurd hcut (digits_ne_nil n)
    | cons c s =>
      have hc := (hdigits c (by rw [hcut]; exact List.mem_cons_self)).1
      rw [CChar.isDigit, Bool.and_eq_true, decide_eq_true_eq, decide_eq_true_eq] at hc
      have hspace : ¬ c.isSpace = true := by
        simp only [CChar.isSpace, Bool.or_eq_true, Bool.and_eq_true, decide_eq_true_eq]
        omega
      have hminus : c ≠ cch '-' := by
        rintro rfl
        exact absurd hc.1 (by decide)
      have hplus : c ≠ cch '+' := by
        rintro rfl
        exact absurd hc.1 (by decide)
      rw [List.dropWhile_cons_of_neg hspace, sign, if_neg hminus, if_neg hplus]
  simp only [scanNumber, hsign, hradix, htake, hdrop, hvalue]
  exact if_neg (digits_ne_nil n)

theorem strtoul_digits {n : ℕ} (hn : n < 2 ^ 64) : strtoul (digits n) 10 = (n, []) := by
  rw [strtoul, scanNumber_digits]
  dsimp only
  rw [if_neg (by omega), if_neg (by simp)]

theorem atoi_digits {n : ℕ} (hn : n < 2 ^ 32) : atoi (digits n) = BitVec.ofNat 32 n := by
  rw [atoi, strtol, scanNumber_digits]
  dsimp only
  rw [if_neg (by simp), min_eq_right (by omega), BitVec.ofInt_natCast]

/-! ## Keys -/

theorem toLower_eq_sign (c : CChar) : c.toLower = cch '=' ↔ c = cch '=' := by
  revert c
  decide +kernel

theorem sign_notMem_map {s : CString} (hs : cch '=' ∉ s) : cch '=' ∉ s.map CChar.toLower := by
  intro h
  obtain ⟨c, hc, hsign⟩ := List.mem_map.mp h
  exact hs ((toLower_eq_sign c).mp hsign ▸ hc)

/-- The key of a line is what stands in front of the first sign. -/
theorem key_unique {s t v w : CString} (hs : cch '=' ∉ s) (ht : cch '=' ∉ t)
    (h : s ++ cch '=' :: v = t ++ cch '=' :: w) : s = t := by
  have hcut : ∀ {s : CString} (v : CString), cch '=' ∉ s →
      (s ++ cch '=' :: v).takeWhile (· ≠ cch '=') = s := by
    intro s v hs
    rw [List.takeWhile_append_of_pos, List.takeWhile_cons_of_neg (by simp), List.append_nil]
    intro c hc
    rw [decide_eq_true_eq]
    rintro rfl
    exact hs hc
  rw [← hcut v hs, h, hcut w ht]

/-- **A line `k=v`** begins with another key and a sign exactly if the keys agree. -/
theorem strncasecmp_key {k key : CString} (hk : cch '=' ∉ k) (hkey : cch '=' ∉ key)
    (v : CString) :
    strncasecmp (k ++ cch '=' :: v) (key ++ [cch '=']) (key ++ [cch '=']).length =
      strcasecmp k key := by
  have hsign : (cch '=').toLower = cch '=' := by decide
  have hlength : (key ++ [cch '=']).length = (key.map CChar.toLower ++ [cch '=']).length := by
    simp
  rw [strncasecmp, List.take_length, strcasecmp, strcasecmp, Bool.eq_iff_iff, beq_iff_eq,
    beq_iff_eq, List.map_take, List.map_append, List.map_append, List.map_cons, List.map_cons,
    List.map_nil, hsign, hlength]
  constructor
  · intro h
    have hall := List.take_append_drop (key.map CChar.toLower ++ [cch '=']).length
      (k.map CChar.toLower ++ cch '=' :: v.map CChar.toLower)
    rw [h, List.append_assoc, List.singleton_append] at hall
    exact (key_unique (sign_notMem_map hkey) (sign_notMem_map hk) hall).symm
  · intro h
    rw [h, List.append_cons _ _ (v.map CChar.toLower), List.take_left]

theorem length_eq_of_strcasecmp {s t : CString} (h : strcasecmp s t = true) :
    s.length = t.length := by
  rw [strcasecmp, beq_iff_eq] at h
  simpa using congrArg List.length h

/-- Strings that begin differently differ. -/
theorem strcasecmp_cons_of_ne {c d : CChar} (h : c.toLower ≠ d.toLower) (s t : CString) :
    strcasecmp (c :: s) (d :: t) = false := by
  rw [strcasecmp, List.map_cons, List.map_cons, beq_eq_false_iff_ne]
  exact fun heq => h (List.cons.inj heq).1

/-! ## Tokens -/

/-- **The parts of a list are read back.** -/
theorem strtok_intercalate {delimiters : CString} {separator : CChar}
    (hseparator : separator ∈ delimiters) {parts : List CString}
    (hparts : ∀ part ∈ parts, part ≠ [] ∧ ∀ c ∈ part, c ∉ delimiters) :
    strtok delimiters ([separator].intercalate parts) = parts := by
  have hclass : ∀ part ∈ parts, ∀ c ∈ part, delimiters.contains c = false := by
    intro part hpart c hc
    rw [Bool.eq_false_iff, ne_eq, List.contains_iff_mem]
    exact (hparts part hpart).2 c hc
  induction parts with
  | nil => rfl
  | cons part parts ih =>
    rw [List.forall_mem_cons] at hparts hclass
    have ih := ih hparts.2 hclass.2
    cases parts with
    | nil =>
      rw [List.intercalate_singleton, strtok, List.splitOnP_eq_singleton hclass.1]
      exact List.filter_cons_of_pos (decide_eq_true hparts.1.1)
    | cons next parts =>
      rw [List.intercalate_cons_cons, List.append_assoc, List.singleton_append, strtok,
        List.splitOnP_append_cons_of_forall_mem hclass.1 separator
          (List.contains_iff_mem.mpr hseparator)]
      exact (List.filter_cons_of_pos (p := fun token => decide (token ≠ []))
        (decide_eq_true hparts.1.1)).trans (congrArg _ ih)

/-- **A string is cut at its first separator.** -/
theorem strsep_append {separator : CChar} {s : CString} (hs : separator ∉ s) (t : CString) :
    strsep separator (s ++ separator :: t) = (s, some t) := by
  have hclass : ∀ c ∈ s, decide (c ≠ separator) = true := by
    intro c hc
    rw [decide_eq_true_eq]
    rintro rfl
    exact hs hc
  rw [strsep, List.dropWhile_append_of_pos hclass, List.takeWhile_append_of_pos hclass,
    List.dropWhile_cons_of_neg (by simp), List.takeWhile_cons_of_neg (by simp), List.append_nil]

end CString
end AioVpn
