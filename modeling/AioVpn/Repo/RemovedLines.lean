import AioVpn.Config.Applications
import AioVpn.Config.Reading
import AioVpn.Repo.SplitTunnel
import AioVpn.Text.Lines

/-!
# The lines the rewriter removes

The rewriter and the parser look at the same line with different eyes.  The rewriter
trims as Kotlin does and matches letters outside ASCII; the parser cuts the comment off,
trims as Java does and wants an ASCII word in front.

A line that is removed has the shape `NamesShape` for the parser: perhaps white space
that only Kotlin cuts, then a text that matches one of the two keys, a blank and `=`.
So it is neither empty nor a header (`cleanLine_ne_nil`,
`not_namesApplications_of_isHeader`), and if the parser reads an attribute in it at all,
that attribute names applications (`isApplications_of_namesApplications`).

The converse is false: an attribute that names applications may survive.
-/

namespace AioVpn

/-! ## Characters -/

namespace JChar

theorem toNat_toLower_of_isUpper {c : JChar} (h : c.isUpper = true) :
    c.toLower.toNat = c.toNat + 0x20 := by
  simp only [isUpper, Bool.and_eq_true, decide_eq_true_eq] at h
  have hupper : c.isUpper = true := by simp [isUpper, h]
  rw [toLower, if_pos hupper, UInt16.toNat_add]
  have h20 : UInt16.toNat 0x20 = 0x20 := rfl
  omega

/-- What matches a lower-case letter is a letter or lies outside ASCII. -/
theorem of_isLower_foldCase {c : JChar} (h : (foldCase c).isLower = true) :
    (0x41 ≤ c.toNat ∧ c.toNat ≤ 0x5a) ∨ (0x61 ≤ c.toNat ∧ c.toNat ≤ 0x7a) ∨ 0x130 ≤ c.toNat := by
  unfold foldCase at h
  split at h
  · rename_i h'
    rw [Bool.or_eq_true, decide_eq_true_eq, decide_eq_true_eq] at h'
    rcases h' with rfl | rfl <;> decide
  split at h
  · rename_i h'
    subst h'
    decide
  split at h
  · rename_i h'
    subst h'
    decide
  cases hupper : c.isUpper with
  | true =>
    simp only [isUpper, Bool.and_eq_true, decide_eq_true_eq] at hupper
    exact Or.inl hupper
  | false =>
    rw [toLower, if_neg (by simp [hupper])] at h
    simp only [isLower, Bool.and_eq_true, decide_eq_true_eq] at h
    exact Or.inr (Or.inl h)

/-- Only itself matches a character that is no letter. -/
theorem eq_of_foldCase_eq {c d : JChar} (h : foldCase c = d) (hd : d.isLower = false) : c = d := by
  unfold foldCase at h
  split at h
  · exact absurd hd (by rw [← h]; decide)
  split at h
  · exact absurd hd (by rw [← h]; decide)
  split at h
  · exact absurd hd (by rw [← h]; decide)
  cases hupper : c.isUpper with
  | true =>
    have hnat := toNat_toLower_of_isUpper hupper
    rw [h] at hnat
    simp only [isUpper, Bool.and_eq_true, decide_eq_true_eq] at hupper
    simp only [isLower, Bool.and_eq_false_iff, decide_eq_false_iff_not] at hd
    omega
  | false =>
    rw [toLower, if_neg (by simp [hupper])] at h
    exact h

/-- On the characters of a word, matching is comparing in lower case. -/
theorem foldCase_of_isWord {c : JChar} (h : c.isWord = true) : foldCase c = c.toLower := by
  have hlt := (bounds_of_isWord h).2
  have hne : ∀ d : JChar, 0x80 ≤ d.toNat → c ≠ d := by
    rintro d hd rfl
    omega
  rw [foldCase, if_neg, if_neg (hne _ (by decide)), if_neg (hne _ (by decide))]
  simp [hne 0x130 (by decide), hne 0x131 (by decide)]

theorem not_isWord_of_isKotlinWhitespace {c : JChar} (h : c.isKotlinWhitespace = true) :
    c.isWord = false := by
  by_contra hword
  have hbounds := bounds_of_isWord (Bool.not_eq_false _ ▸ hword)
  simp only [isKotlinWhitespace, Bool.or_eq_true, Bool.and_eq_true, decide_eq_true_eq] at h
  omega

theorem ne_of_isKotlinWhitespace {c d : JChar} (h : c.isKotlinWhitespace = true)
    (hd : d.isKotlinWhitespace = false) : c ≠ d := by
  rintro rfl
  exact absurd h (by simp [hd])

end JChar

/-! ## The shape of a removed line -/

namespace VpnRepository

open Config

/-- The two keys. -/
def applicationKeys : List JString := [jstr "ExcludedApplications", jstr "IncludedApplications"]

/-- What the parser sees of a line that is removed. -/
structure NamesShape (line : JString) : Prop where
  shape : ∃ space word rest key, line = space ++ (word ++ ch ' ' :: ch '=' :: rest) ∧
    (∀ c ∈ space.head?, c.isKotlinWhitespace = true) ∧ key ∈ applicationKeys ∧
      word.map JChar.foldCase = key.map JChar.foldCase

theorem lower_of_mem_applicationKeys {key : JString} (h : key ∈ applicationKeys) :
    key ≠ [] ∧ ∀ c ∈ key.map JChar.foldCase, c.isLower = true := by
  simp only [applicationKeys, List.mem_cons, List.not_mem_nil, or_false] at h
  rcases h with rfl | rfl <;> exact ⟨by decide, List.all_eq_true.mp (by decide)⟩

/-- The characters of a text that matches a key. -/
theorem isLower_foldCase_of_mem {key word : JString} (hkey : key ∈ applicationKeys)
    (hword : word.map JChar.foldCase = key.map JChar.foldCase) {c : JChar} (hc : c ∈ word) :
    (JChar.foldCase c).isLower = true := by
  refine (lower_of_mem_applicationKeys hkey).2 _ ?_
  rw [← hword]
  exact List.mem_map_of_mem hc

theorem ne_of_isLower_foldCase {c d : JChar} (h : (JChar.foldCase c).isLower = true)
    (hd : d.toNat < 0x41 ∨ d.toNat = 0x5b) : c ≠ d := by
  rintro rfl
  have := JChar.of_isLower_foldCase h
  omega

theorem not_isTrimmed_of_isLower_foldCase {c : JChar} (h : (JChar.foldCase c).isLower = true) :
    c.isTrimmed = false := by
  have := JChar.of_isLower_foldCase h
  simp only [JChar.isTrimmed, decide_eq_false_iff_not]
  omega

/-- A text that begins with a key, a blank and `=`. -/
theorem exists_word_of_startsWith {s key : JString}
    (h : JString.startsWithIgnoreCase s (key ++ jstr " =") = true) :
    ∃ word tail, s = word ++ ch ' ' :: ch '=' :: tail ∧
      word.map JChar.foldCase = key.map JChar.foldCase := by
  rw [JString.startsWithIgnoreCase, JString.equalsIgnoreCase, beq_iff_eq, List.map_append] at h
  obtain ⟨word, y, hsplit, hword, hy⟩ := List.map_eq_append_iff.mp h
  obtain ⟨c, y₁, rfl, hc, hy₁⟩ := List.map_eq_cons_iff.mp hy
  obtain ⟨d, y₂, rfl, hd, hy₂⟩ := List.map_eq_cons_iff.mp hy₁
  obtain rfl := List.map_eq_nil_iff.mp hy₂
  obtain rfl : c = ch ' ' := JChar.eq_of_foldCase_eq hc (by decide)
  obtain rfl : d = ch '=' := JChar.eq_of_foldCase_eq hd (by decide)
  refine ⟨word, s.drop (key ++ jstr " =").length, ?_, hword⟩
  calc s = s.take (key ++ jstr " =").length ++ s.drop (key ++ jstr " =").length :=
        (List.take_append_drop _ _).symm
    _ = word ++ ch ' ' :: ch '=' :: s.drop (key ++ jstr " =").length := by
        rw [hsplit]
        simp

/-- The raw line. -/
theorem exists_word_of_namesApplications {raw : JString} (h : namesApplications raw = true) :
    ∃ space word tail key, raw = space ++ (word ++ ch ' ' :: ch '=' :: tail) ∧
      (∀ c ∈ space, c.isKotlinWhitespace = true) ∧ key ∈ applicationKeys ∧
        word.map JChar.foldCase = key.map JChar.foldCase := by
  have hkey : ∃ key ∈ applicationKeys,
      JString.startsWithIgnoreCase (JString.kotlinTrim raw) (key ++ jstr " =") = true := by
    rw [namesApplications, Bool.or_eq_true] at h
    rcases h with h | h
    · exact ⟨_, List.mem_cons_self, h⟩
    · exact ⟨_, List.mem_cons_of_mem _ List.mem_cons_self, h⟩
  obtain ⟨key, hkey, hstarts⟩ := hkey
  obtain ⟨word, tail, htrim, hword⟩ := exists_word_of_startsWith hstarts
  obtain ⟨t, ht⟩ := List.rdropWhile_prefix JChar.isKotlinWhitespace
    (raw.dropWhile JChar.isKotlinWhitespace)
  refine ⟨raw.takeWhile JChar.isKotlinWhitespace, word, tail ++ t, key, ?_, ?_, hkey, hword⟩
  · have hraw : raw.takeWhile JChar.isKotlinWhitespace ++ (JString.kotlinTrim raw ++ t) = raw := by
      rw [JString.kotlinTrim, JString.trimBy, ht, List.takeWhile_append_dropWhile]
    rw [htrim] at hraw
    simpa using hraw.symm
  · exact fun c hc => List.mem_takeWhile_imp hc

/-- **The shape of a removed line.** -/
theorem namesShape_cleanLine {raw : JString} (h : namesApplications raw = true) :
    NamesShape (cleanLine raw) := by
  obtain ⟨space, word, tail, key, hraw, hspace, hkey, hword⟩ := exists_word_of_namesApplications h
  have hletter : ∀ c ∈ word, (JChar.foldCase c).isLower = true :=
    fun c hc => isLower_foldCase_of_mem hkey hword hc
  -- the comment begins after the `=`
  have hcomment : raw.takeWhile (· ≠ ch '#') =
      space ++ (word ++ ch ' ' :: ch '=' :: tail.takeWhile (· ≠ ch '#')) := by
    rw [hraw, List.takeWhile_append_of_pos, List.takeWhile_append_of_pos]
    · rfl
    · intro c hc
      simpa using ne_of_isLower_foldCase (hletter c hc) (Or.inl (by decide))
    · intro c hc
      simpa using JChar.ne_of_isKotlinWhitespace (hspace c hc) (by decide)
  have hhead : ∀ c ∈ (word ++ ch ' ' :: ch '=' :: tail.takeWhile (· ≠ ch '#')).head?,
      c.isTrimmed = false := by
    intro c hc
    have hne : word ≠ [] := by
      rintro rfl
      exact (lower_of_mem_applicationKeys hkey).1 (List.map_eq_nil_iff.mp hword.symm)
    rw [List.head?_append_of_ne_nil _ hne] at hc
    exact not_isTrimmed_of_isLower_foldCase (hletter c (List.mem_of_mem_head? hc))
  have hclean : cleanLine raw = space.dropWhile JChar.isTrimmed ++
      (word ++ ch ' ' :: ch '=' :: (tail.takeWhile (· ≠ ch '#')).rdropWhile JChar.isTrimmed) := by
    rw [cleanLine, JString.javaTrim, JString.trimBy, hcomment,
      JString.dropWhile_append_of_head space hhead]
    have hback := JString.rdropWhile_append_cons (p := JChar.isTrimmed)
      (space.dropWhile JChar.isTrimmed ++ (word ++ [ch ' '])) (c := ch '=') (by decide)
      (tail.takeWhile (· ≠ ch '#'))
    simpa using hback
  refine ⟨_, word, _, key, hclean, ?_, hkey, hword⟩
  intro c hc
  exact hspace c ((List.dropWhile_sublist _).subset (List.mem_of_mem_head? hc))

theorem cleanLine_ne_nil {raw : JString} (h : namesApplications raw = true) :
    cleanLine raw ≠ [] := by
  obtain ⟨space, word, rest, key, hclean, -⟩ := (namesShape_cleanLine h).shape
  rw [hclean]
  simp

/-- A header is not removed. -/
theorem not_namesApplications_of_isHeader {raw : JString} (h : isHeader raw = true) :
    namesApplications raw = false := by
  by_contra hnames
  rw [Bool.not_eq_false] at hnames
  obtain ⟨space, word, rest, key, hclean, hspace, hkey, hword⟩ :=
    (namesShape_cleanLine hnames).shape
  rw [isHeader, decide_eq_true_eq, hclean] at h
  cases space with
  | cons c space =>
    obtain rfl : c = ch '[' := Option.some.inj h
    exact absurd (hspace _ rfl) (by decide)
  | nil =>
    cases word with
    | nil => exact (lower_of_mem_applicationKeys hkey).1 (List.map_eq_nil_iff.mp hword.symm)
    | cons c word =>
      obtain rfl : c = ch '[' := Option.some.inj h
      exact absurd (isLower_foldCase_of_mem hkey hword List.mem_cons_self) (by decide)

/-- What the parser needs of a line to read an attribute in it. -/
theorem attribute_parse_eq_some {line : JString} {attr : Attribute}
    (h : Attribute.parse line = some attr) :
    attr.key = line.takeWhile JChar.isWord ∧ attr.key ≠ [] ∧
      ∃ rest, (line.dropWhile JChar.isWord).dropWhile JChar.isSpace = ch '=' :: rest := by
  rw [Attribute.parse] at h
  split at h
  · rename_i c rest hrest
    dsimp only at h
    split at h
    · rename_i hcond
      obtain rfl := Option.some.inj h
      obtain ⟨hkey, rfl, -⟩ := hcond
      exact ⟨rfl, hkey, rest, hrest⟩
    · exact absurd h (by simp)
  · exact absurd h (by simp)

/-- A scan over a word stops at its first character of another class. -/
theorem exists_dropWhile_eq_cons {p : JChar → Bool} {word : JString} (h : ¬ ∀ c ∈ word, p c = true)
    (rest : JString) : ∃ c ∈ word, p c = false ∧ ∃ t, (word ++ rest).dropWhile p = c :: t := by
  induction word with
  | nil => exact absurd (by simp) h
  | cons c word ih =>
    cases hc : p c with
    | false =>
      refine ⟨c, List.mem_cons_self, hc, word ++ rest, ?_⟩
      exact List.dropWhile_cons_of_neg (by simp [hc])
    | true =>
      have hword : ¬ ∀ d ∈ word, p d = true := fun hall => h (List.forall_mem_cons.mpr ⟨hc, hall⟩)
      obtain ⟨d, hd, hpd, t, ht⟩ := ih hword
      refine ⟨d, List.mem_cons_of_mem _ hd, hpd, t, ?_⟩
      rw [List.cons_append, List.dropWhile_cons_of_pos hc, ht]

/-- A removed line in which the parser reads an attribute has one of the two keys. -/
theorem key_of_namesShape {line : JString} (hline : NamesShape line) {attr : Attribute}
    (h : Attribute.parse line = some attr) :
    ∃ key ∈ applicationKeys, JString.toLowerCase attr.key = key.map JChar.foldCase := by
  obtain ⟨space, word, rest, key, rfl, hspace, hkey, hword⟩ := hline.shape
  obtain ⟨hattr, hne, tail, htail⟩ := attribute_parse_eq_some h
  cases space with
  | cons c space =>
    have hc := JChar.not_isWord_of_isKotlinWhitespace (hspace c rfl)
    rw [hattr, List.cons_append, List.takeWhile_cons_of_neg (by simp [hc])] at hne
    exact absurd rfl hne
  | nil =>
    rw [List.nil_append] at hattr htail
    have hall : ∀ c ∈ word, c.isWord = true := by
      by_contra hno
      obtain ⟨c, hc, -, t, ht⟩ := exists_dropWhile_eq_cons hno (ch ' ' :: ch '=' :: rest)
      have hlower := isLower_foldCase_of_mem hkey hword hc
      have hbounds := JChar.of_isLower_foldCase hlower
      have hspace : c.isSpace = false := by
        simp only [JChar.isSpace, Bool.or_eq_false_iff, Bool.and_eq_false_iff,
          decide_eq_false_iff_not]
        omega
      rw [ht, List.dropWhile_cons_of_neg (by simp [hspace])] at htail
      exact ne_of_isLower_foldCase hlower (Or.inl (by decide)) (List.cons.inj htail).1
    refine ⟨key, hkey, ?_⟩
    have htake : attr.key = word := by
      rw [hattr, List.takeWhile_append_of_pos hall, List.takeWhile_cons_of_neg (by decide),
        List.append_nil]
    rw [htake, ← hword, JString.toLowerCase]
    exact List.map_congr_left fun c hc => (JChar.foldCase_of_isWord (hall c hc)).symm

/-- **A removed line in which the parser reads an attribute names applications.** -/
theorem isApplications_of_namesApplications {raw : JString} (hnames : namesApplications raw = true)
    {attr : Attribute} (h : Attribute.parse (cleanLine raw) = some attr) :
    isApplications (cleanLine raw) = true := by
  obtain ⟨key, hkey, hlower⟩ := key_of_namesShape (namesShape_cleanLine hnames) h
  rw [isApplications, h, decide_eq_true_eq, InterfaceKey.ofKey_eq_excluded_iff,
    InterfaceKey.ofKey_eq_included_iff, hlower]
  simp only [applicationKeys, List.mem_cons, List.not_mem_nil, or_false] at hkey
  rcases hkey with rfl | rfl
  · exact Or.inl (by decide)
  · exact Or.inr (by decide)

end VpnRepository
end AioVpn
