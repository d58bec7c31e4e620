import AioVpn.Text.Lines

/-!
# Reading a stream line by line

`readLines` cuts a text that is there as a whole.  A `BufferedReader` on a pipe sees the
text character by character, and between two characters it holds the line it has begun
(`LineReader`).  `feedAll` is what it has done after a text: the lines that are complete,
and the state it is left in.  Together they are the lines of the text
(`readLines_eq_feedAll`), and a text that is continued only adds to them
(`countP_readLines_le`).
-/

namespace AioVpn

/-- A `BufferedReader` between two characters. -/
structure LineReader where
  /-- The line that has been begun. -/
  part : JString := []
  /-- The last character was `\r`; a `\n` that follows belongs to it. -/
  skipLF : Bool := false
  deriving DecidableEq

namespace LineReader

open JString

/-- The next character, and the line that it completes. -/
def feed (r : LineReader) (c : JChar) : LineReader × Option JString :=
  if r.skipLF && c = ch '\n' then (⟨r.part, false⟩, none)
  else if c.isLineEnd then (⟨[], c = ch '\r'⟩, some r.part)
  else (⟨r.part ++ [c], false⟩, none)

/-- The state after a text, and the lines that are complete. -/
def feedAll (r : LineReader) : JString → LineReader × List JString
  | [] => (r, [])
  | c :: s => ((feedAll (r.feed c).1 s).1, (r.feed c).2.toList ++ (feedAll (r.feed c).1 s).2)

/-- The line that has been begun, as `readLine` returns it at the end of the stream. -/
def pending (r : LineReader) : List JString := if r.part = [] then [] else [r.part]

/-- The text ends where a line does. -/
def Terminated (s : JString) : Prop := (feedAll {} s).1.part = []

instance (s : JString) : Decidable (Terminated s) :=
  inferInstanceAs (Decidable ((feedAll {} s).1.part = []))

@[simp] theorem feedAll_nil (r : LineReader) : r.feedAll [] = (r, []) := rfl

theorem feedAll_append (r : LineReader) (s t : JString) :
    r.feedAll (s ++ t) =
      (((r.feedAll s).1.feedAll t).1, (r.feedAll s).2 ++ ((r.feedAll s).1.feedAll t).2) := by
  induction s generalizing r with
  | nil => rfl
  | cons c s ih => rw [List.cons_append, feedAll, ih, feedAll, List.append_assoc]

theorem feed_of_not_isLineEnd (r : LineReader) {c : JChar} (hc : c.isLineEnd = false) :
    r.feed c = (⟨r.part ++ [c], false⟩, none) := by
  have hnl : c ≠ ch '\n' := by
    rintro rfl
    exact absurd hc (by decide)
  simp [feed, hc, hnl]

theorem feed_newline {p : JString} : feed ⟨p, false⟩ (ch '\n') = (⟨[], false⟩, some p) := by
  have hr : ch '\n' ≠ ch '\r' := by decide
  have hend : (ch '\n').isLineEnd = true := by decide
  simp [feed, hr, hend]

/-- A text without terminators continues the line. -/
theorem feedAll_oneLine (r : LineReader) {l : JString} (hl : OneLine l) (hne : l ≠ []) :
    r.feedAll l = (⟨r.part ++ l, false⟩, []) := by
  induction l generalizing r with
  | nil => exact absurd rfl hne
  | cons c l ih =>
    rw [feedAll, feed_of_not_isLineEnd r (hl c List.mem_cons_self)]
    cases l with
    | nil => rfl
    | cons d l => rw [ih _ hl.tail (by simp)]; simp

/-- A line with its terminator. -/
theorem feedAll_line (r : LineReader) {l : JString} (hl : OneLine l) (hne : l ≠ []) :
    r.feedAll (l ++ [ch '\n']) = (⟨[], false⟩, [r.part ++ l]) := by
  rw [feedAll_append, feedAll_oneLine r hl hne, feedAll, feed_newline]
  rfl

/-! ## The lines of a text -/

/-- Lines with something in front of the first. -/
def prepend (p : JString) : List JString → List JString
  | [] => if p = [] then [] else [p]
  | x :: l => (p ++ x) :: l

@[simp] theorem prepend_nil (l : List JString) : prepend [] l = l := by cases l <;> rfl

theorem feedAll_skipLF {c : JChar} (hc : c ≠ ch '\n') (s : JString) :
    feedAll ⟨[], true⟩ (c :: s) = feedAll ⟨[], false⟩ (c :: s) := by
  simp [feedAll, feed, hc]

theorem prepend_readLines (s p : JString) :
    (feedAll ⟨p, false⟩ s).2 ++ (feedAll ⟨p, false⟩ s).1.pending = prepend p (readLines s) := by
  induction s using readLines.induct generalizing p with
  | case1 => rfl
  | case2 c h => simp [feedAll, feed, h, readLines, pending, prepend]
  | case3 c h =>
    have h := Bool.eq_false_iff.mpr h
    simp [feedAll, feed_of_not_isLineEnd _ h, readLines, pending, prepend, h]
  | case4 c d s h ih =>
    obtain ⟨rfl, rfl⟩ : c = ch '\r' ∧ d = ch '\n' := by simpa using h
    have hcr : feed ⟨p, false⟩ (ch '\r') = (⟨[], true⟩, some p) := by
      have hend : (ch '\r').isLineEnd = true := by decide
      simp [feed, hend]
    have hlf : feed ⟨[], true⟩ (ch '\n') = (⟨[], false⟩, none) := by simp [feed]
    have hih := (ih []).trans (prepend_nil _)
    rw [feedAll, hcr, feedAll, hlf, readLines, if_pos h, prepend, List.append_nil]
    exact congrArg (p :: ·) hih
  | case5 c d s h h' ih =>
    have hih := (ih []).trans (prepend_nil _)
    have hnext : feedAll (feed ⟨p, false⟩ c).1 (d :: s) = feedAll ⟨[], false⟩ (d :: s) := by
      by_cases hcr : c = ch '\r'
      · have hd : d ≠ ch '\n' := by
          rintro rfl
          exact h (by simp [hcr])
        have hstate : (feed ⟨p, false⟩ c).1 = ⟨[], true⟩ := by
          rw [feed, if_neg (by simp), if_pos h']
          simp [hcr]
        rw [hstate, feedAll_skipLF hd]
      · simp [feed, h', hcr]
    have hline : (feed ⟨p, false⟩ c).2 = some p := by simp [feed, h']
    rw [feedAll, hnext, hline, readLines, if_neg h, if_pos h', prepend, List.append_nil]
    exact congrArg (p :: ·) hih
  | case6 c d s h h' ih =>
    have h' := Bool.eq_false_iff.mpr h'
    rw [feedAll, feed_of_not_isLineEnd _ h', readLines, if_neg h, if_neg (by simp [h'])]
    refine (ih (p ++ [c])).trans ?_
    cases hlines : readLines (d :: s) with
    | nil => exact absurd hlines readLines_ne_nil
    | cons x l => simp [prepend, consHead]

/-- **What a reader has done after a text**: the lines of the text are the ones that are
complete and the one that has been begun. -/
theorem readLines_eq_feedAll (s : JString) :
    readLines s = (feedAll {} s).2 ++ (feedAll {} s).1.pending :=
  ((prepend_readLines s []).trans (prepend_nil _)).symm

theorem readLines_of_terminated {s : JString} (hs : Terminated s) :
    readLines s = (feedAll {} s).2 := by
  rw [Terminated] at hs
  rw [readLines_eq_feedAll, pending, if_pos hs, List.append_nil]

/-! ## Continuing a text -/

/-- A line that has been begun is the front of the line it becomes. -/
theorem feedAll_extends (r : LineReader) (hr : r.skipLF = true → r.part = []) (s : JString) :
    ((r.feedAll s).2 = [] ∧ r.part <+: (r.feedAll s).1.part) ∨
      ∃ line lines, (r.feedAll s).2 = line :: lines ∧ r.part <+: line := by
  induction s generalizing r with
  | nil => exact Or.inl ⟨rfl, List.prefix_rfl⟩
  | cons c s ih =>
    rw [feedAll]
    unfold feed
    split_ifs with hskip hend
    · rcases ih ⟨r.part, false⟩ (by simp) with ⟨h, hpart⟩ | ⟨line, lines, h, hpart⟩
      · exact Or.inl ⟨h, hpart⟩
      · exact Or.inr ⟨line, lines, h, hpart⟩
    · exact Or.inr ⟨r.part, _, rfl, List.prefix_rfl⟩
    · rcases ih ⟨r.part ++ [c], false⟩ (by simp) with ⟨h, hpart⟩ | ⟨line, lines, h, hpart⟩
      · exact Or.inl ⟨h, (List.prefix_append ..).trans hpart⟩
      · exact Or.inr ⟨line, lines, h, (List.prefix_append ..).trans hpart⟩

theorem part_of_skipLF (r : LineReader) (hr : r.skipLF = true → r.part = []) (s : JString) :
    (r.feedAll s).1.skipLF = true → (r.feedAll s).1.part = [] := by
  induction s generalizing r with
  | nil => exact hr
  | cons c s ih =>
    rw [feedAll]
    refine ih _ ?_
    unfold feed
    split_ifs <;> simp

/-- **Continuing a text** loses no line with a property that longer lines inherit. -/
theorem countP_readLines_le {P : JString → Bool} (hnil : P [] = false)
    (hP : ∀ l m, l <+: m → P l = true → P m = true) (s t : JString) :
    (readLines s).countP P ≤ (readLines (s ++ t)).countP P := by
  rw [readLines_eq_feedAll, readLines_eq_feedAll (s ++ t), feedAll_append]
  simp only [List.countP_append, Nat.add_assoc]
  refine Nat.add_le_add_left ?_ _
  set r := (feedAll {} s).1
  have hr : r.skipLF = true → r.part = [] := part_of_skipLF {} (by simp) s
  have hpending : r.pending.countP P = if P r.part then 1 else 0 := by
    unfold pending
    split_ifs with hpart h h <;> simp_all
  rw [hpending]
  split_ifs with hbegun
  · rcases feedAll_extends r hr t with ⟨-, hpart⟩ | ⟨line, lines, hlines, hpart⟩
    · have hdone := hP _ _ hpart hbegun
      have hne : (r.feedAll t).1.part ≠ [] := by
        intro h
        rw [h, hnil] at hdone
        exact absurd hdone (by simp)
      rw [pending, if_neg hne]
      simp [hdone]
    · rw [hlines]
      simp [hP _ _ hpart hbegun]
      omega
  · exact Nat.zero_le _

end LineReader
end AioVpn
