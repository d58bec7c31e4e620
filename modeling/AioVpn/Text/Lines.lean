import AioVpn.Text.JavaString

/-!
# Cutting and trimming

Kotlin's `lines` and the results of `readLine` are the same lines, except that `lines`
also reports an empty line after a final terminator, and one line for the empty text
(`lines_eq_readLines`).  Joining lines without terminators by `\n` and cutting the
result gives the lines back (`lines_joinToString`).

Trimming leaves what begins and ends with other characters alone (`dropWhile_eq_self`,
`rdropWhile_eq_self`); `dropWhile_append_of_head` and `rdropWhile_append_cons` are for a text
that has such characters somewhere.
-/

namespace AioVpn
namespace JString

/-- A text without line terminators. -/
def OneLine (s : JString) : Prop := ∀ c ∈ s, c.isLineEnd = false

theorem OneLine.tail {c : JChar} {s : JString} (h : OneLine (c :: s)) : OneLine s :=
  fun d hd => h d (List.mem_cons_of_mem _ hd)

theorem consHead_append (c : JChar) {l m : List JString} (hl : l ≠ []) :
    consHead c (l ++ m) = consHead c l ++ m := by
  cases l with
  | nil => exact absurd rfl hl
  | cons x l => rfl

theorem readLines_ne_nil {c : JChar} {s : JString} : readLines (c :: s) ≠ [] := by
  cases s with
  | nil =>
    rw [readLines]
    split <;> simp
  | cons d s =>
    rw [readLines]
    split
    · simp
    split
    · simp
    · cases readLines (d :: s) <;> simp [consHead]

/-- **The two cuts differ by a final empty line at most.** -/
theorem lines_eq_readLines (s : JString) :
    lines s = readLines s ∨ lines s = readLines s ++ [[]] := by
  induction s using lines.induct with
  | case1 => exact Or.inr rfl
  | case2 c h => exact Or.inr (by simp [lines, readLines, h])
  | case3 c h => exact Or.inl (by simp [lines, readLines, h])
  | case4 c d s h ih =>
    rw [lines, readLines, if_pos h, if_pos h]
    exact ih.imp (congrArg _) (congrArg _)
  | case5 c d s h h' ih =>
    rw [lines, readLines, if_neg h, if_neg h, if_pos h', if_pos h']
    exact ih.imp (congrArg _) (congrArg _)
  | case6 c d s h h' ih =>
    rw [lines, readLines, if_neg h, if_neg h, if_neg h', if_neg h']
    rcases ih with ih | ih
    · exact Or.inl (congrArg _ ih)
    · rw [ih]
      exact Or.inr (consHead_append c readLines_ne_nil)

theorem oneLine_consHead {c : JChar} (hc : c.isLineEnd = false) {l : List JString}
    (hl : ∀ x ∈ l, OneLine x) : ∀ x ∈ consHead c l, OneLine x := by
  have hcons : ∀ x : JString, OneLine x → OneLine (c :: x) := by
    intro x hx d hd
    rcases List.mem_cons.mp hd with rfl | hd
    · exact hc
    · exact hx d hd
  cases l with
  | nil =>
    intro x hx
    rw [consHead, List.mem_singleton] at hx
    subst hx
    exact hcons [] (by simp [OneLine])
  | cons y l =>
    intro x hx
    rcases List.mem_cons.mp hx with rfl | hx
    · exact hcons y (hl y List.mem_cons_self)
    · exact hl x (List.mem_cons_of_mem _ hx)

/-- No line contains a terminator. -/
theorem oneLine_of_mem_lines {s : JString} : ∀ x ∈ lines s, OneLine x := by
  induction s using lines.induct with
  | case1 => simp [lines, OneLine]
  | case2 c h => simp [lines, h, OneLine]
  | case3 c h => simp [lines, h, OneLine]
  | case4 c d s h ih =>
    rw [lines, if_pos h]
    exact List.forall_mem_cons.mpr ⟨by simp [OneLine], ih⟩
  | case5 c d s h h' ih =>
    rw [lines, if_neg h, if_pos h']
    exact List.forall_mem_cons.mpr ⟨by simp [OneLine], ih⟩
  | case6 c d s h h' ih =>
    rw [lines, if_neg h, if_neg h']
    exact oneLine_consHead (by simpa using h') ih

theorem lines_oneLine {s : JString} (hs : OneLine s) : lines s = [s] := by
  induction s using lines.induct with
  | case1 => rfl
  | case2 c h => exact absurd (hs c List.mem_cons_self) (by simp [h])
  | case3 c h => simp [lines, h]
  | case4 c d s h ih =>
    have hc := hs c List.mem_cons_self
    simp only [Bool.and_eq_true, decide_eq_true_eq] at h
    exact absurd hc (by simp [h.1, JChar.isLineEnd])
  | case5 c d s h h' ih => exact absurd (hs c List.mem_cons_self) (by simp [h'])
  | case6 c d s h h' ih => rw [lines, if_neg h, if_neg h', ih hs.tail, consHead]

/-- A line, its terminator, and what follows. -/
theorem lines_append_newline {l : JString} (hl : OneLine l) (s : JString) :
    lines (l ++ ch '\n' :: s) = l :: lines s := by
  induction l with
  | nil =>
    cases s with
    | nil => rfl
    | cons d s => rfl
  | cons c l ih =>
    have hc : c.isLineEnd = false := hl c List.mem_cons_self
    have hr : c ≠ ch '\r' := by
      rintro rfl
      exact absurd hc (by decide)
    have hcons : ∀ t, t ≠ [] → lines (c :: t) = consHead c (lines t) := by
      intro t ht
      cases t with
      | nil => exact absurd rfl ht
      | cons d t => simp [lines, hr, hc]
    rw [List.cons_append, hcons _ (by simp), ih hl.tail, consHead]

/-! ## Joining -/

theorem joinToString_singleton (separator s : JString) : joinToString separator [s] = s := by
  simp [joinToString]

theorem joinToString_cons_cons (separator s t : JString) (parts : List JString) :
    joinToString separator (s :: t :: parts) =
      s ++ separator ++ joinToString separator (t :: parts) :=
  List.intercalate_cons_cons

theorem joinToString_concat (separator s t : JString) (parts : List JString) :
    joinToString separator (s :: parts ++ [t]) =
      joinToString separator (s :: parts) ++ separator ++ t := by
  induction parts generalizing s with
  | nil =>
    rw [joinToString_singleton]
    exact (joinToString_cons_cons ..).trans (by rw [joinToString_singleton])
  | cons u parts ih =>
    have hcons : joinToString separator (s :: u :: parts ++ [t]) =
        s ++ separator ++ joinToString separator (u :: parts ++ [t]) :=
      joinToString_cons_cons ..
    rw [hcons, ih, joinToString_cons_cons]
    simp only [List.append_assoc]

/-- The text ends with its last part. -/
theorem suffix_joinToString {separator s : JString} {parts : List JString}
    (hs : s ∈ parts.getLast?) : s <:+ joinToString separator parts := by
  obtain rfl | ⟨front, t, rfl⟩ := List.eq_nil_or_concat parts
  · exact absurd hs (by simp)
  · rw [List.concat_eq_append] at hs ⊢
    obtain rfl : t = s := by simpa using hs
    cases front with
    | nil => rw [List.nil_append, joinToString_singleton]
    | cons u front =>
      rw [joinToString_concat]
      exact List.suffix_append _ _

theorem mem_joinToString {separator : JString} {parts : List JString} {c : JChar}
    (hc : c ∈ joinToString separator parts) : c ∈ separator ∨ ∃ s ∈ parts, c ∈ s := by
  induction parts with
  | nil => exact absurd hc (by simp [joinToString])
  | cons s parts ih =>
    cases parts with
    | nil =>
      rw [joinToString_singleton] at hc
      exact Or.inr ⟨s, List.mem_cons_self, hc⟩
    | cons t parts =>
      rw [joinToString_cons_cons, List.mem_append, List.mem_append] at hc
      rcases hc with (hc | hc) | hc
      · exact Or.inr ⟨s, List.mem_cons_self, hc⟩
      · exact Or.inl hc
      · rcases ih hc with hc | ⟨u, hu, hc⟩
        · exact Or.inl hc
        · exact Or.inr ⟨u, List.mem_cons_of_mem _ hu, hc⟩

/-! ## Cutting what was joined -/

/-- **Cutting undoes joining.** -/
theorem lines_joinToString {ls : List JString} (hne : ls ≠ []) (hls : ∀ l ∈ ls, OneLine l) :
    lines (joinToString (jstr "\n") ls) = ls := by
  induction ls with
  | nil => exact absurd rfl hne
  | cons l ls ih =>
    have hl : OneLine l := hls l List.mem_cons_self
    cases ls with
    | nil =>
      rw [joinToString_singleton, lines_oneLine hl]
    | cons m ls =>
      have hjoin : joinToString (jstr "\n") (l :: m :: ls) =
          l ++ ch '\n' :: joinToString (jstr "\n") (m :: ls) := by
        rw [joinToString_cons_cons, List.append_assoc]
        rfl
      rw [hjoin, lines_append_newline hl,
        ih (by simp) fun x hx => hls x (List.mem_cons_of_mem _ hx)]

/-! ## Trimming -/

variable {p : JChar → Bool}

/-- Cutting the front stops at a character of another class. -/
theorem dropWhile_append_of_head (l : JString) {m : JString} (hm : ∀ c ∈ m.head?, p c = false) :
    (l ++ m).dropWhile p = l.dropWhile p ++ m := by
  have hstop : m.dropWhile p = m := by
    cases m with
    | nil => rfl
    | cons c m => exact List.dropWhile_cons_of_neg (by simp [hm c rfl])
  rw [List.dropWhile_append, hstop]
  split
  · rename_i h
    rw [List.isEmpty_iff.mp h]
    rfl
  · rfl

/-- Cutting the back stops at a character of another class. -/
theorem rdropWhile_append_cons (l : JString) {c : JChar} (hc : p c = false) (m : JString) :
    (l ++ c :: m).rdropWhile p = l ++ c :: m.rdropWhile p := by
  rw [List.rdropWhile, List.reverse_append, List.reverse_cons, List.append_assoc,
    List.singleton_append, dropWhile_append_of_head _ (by simp [hc]), List.reverse_append,
    List.reverse_cons, List.reverse_reverse, List.rdropWhile, List.append_assoc,
    List.singleton_append]

/-- What is left of the back ends with a character of another class. -/
theorem last_rdropWhile (s : JString) : ∀ c ∈ (s.rdropWhile p).getLast?, p c = false := by
  intro c hc
  have hne : s.rdropWhile p ≠ [] := by
    intro h
    rw [h] at hc
    exact absurd hc (by simp)
  have hlast := List.rdropWhile_last_not p s hne
  rw [List.getLast?_eq_some_getLast hne] at hc
  rw [Option.some.inj hc] at hlast
  simpa using hlast

/-- A back part ends as the whole does. -/
theorem getLast?_of_suffix {s t : JString} (h : s <:+ t) {c : JChar} (hc : c ∈ s.getLast?) :
    c ∈ t.getLast? := by
  obtain ⟨front, rfl⟩ := h
  have hne : s ≠ [] := by
    rintro rfl
    exact absurd hc (by simp)
  rw [List.getLast?_append_of_ne_nil _ hne]
  exact hc

/-- A front part begins as the whole does. -/
theorem head?_of_start {s t : JString} (h : s <+: t) {c : JChar} (hc : c ∈ s.head?) :
    c ∈ t.head? := by
  obtain ⟨back, rfl⟩ := h
  cases s with
  | nil => exact absurd hc (by simp)
  | cons d s => exact hc

theorem dropWhile_eq_self {s : JString} (h : ∀ c ∈ s.head?, p c = false) : s.dropWhile p = s := by
  have hfront := dropWhile_append_of_head [] h
  simpa using hfront

theorem rdropWhile_eq_self {s : JString} (h : ∀ c ∈ s.getLast?, p c = false) :
    s.rdropWhile p = s := by
  rw [List.rdropWhile_eq_self_iff]
  intro hne
  rw [h _ (List.getLast?_eq_some_getLast hne)]
  simp

end JString
end AioVpn
