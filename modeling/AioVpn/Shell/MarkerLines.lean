import AioVpn.Shell.RootShell
import AioVpn.Config.Readable

/-!
# The lines on the two streams of the root shell

What the shell writes to a stream during a call of `RootShell.run`, cut into lines: what was
left over, the first marker, the lines of the command, and the last marker with the exit
status.  Only the last one ends the loop that reads the stream, and only when the command
ends its last line (`isSome_goesAll`, `onLine_lastLine`); and however short the stream is cut,
a loop counts at most as many markers as have been written (`marks_mono`,
`marks_opening`, `marks_total`).

Marker lines are told from output lines by their beginning; that the marker is random is the
hypothesis `Fresh`.
-/

namespace AioVpn
namespace RootShell

open JString LineReader

variable {marker : JString} {capacity : ℕ} {c : Command} {stale : Fd → JString}

/-! ## What is written to a stream -/

@[simp] theorem text_nil (fd : Fd) : text fd [] = [] := rfl

@[simp] theorem text_append (fd : Fd) (l m : List (Fd × JChar)) :
    text fd (l ++ m) = text fd l ++ text fd m := by
  simp [text]

theorem text_cons_self (fd : Fd) (a : JChar) (l : List (Fd × JChar)) :
    text fd ((fd, a) :: l) = a :: text fd l := by
  simp [text]

theorem text_cons_of_ne {fd fd' : Fd} (h : fd' ≠ fd) (a : JChar) (l : List (Fd × JChar)) :
    text fd ((fd', a) :: l) = text fd l := by
  simp [text, h]

@[simp] theorem text_echo_self (fd : Fd) (s : JString) : text fd (echo fd s) = s ++ [ch '\n'] := by
  simp [text, echo, List.filter_map, Function.comp_def]

theorem text_echo_of_ne {fd fd' : Fd} (h : fd' ≠ fd) (s : JString) : text fd (echo fd' s) = [] := by
  simp [text, echo, List.filter_map, Function.comp_def, h]

theorem text_mono (fd : Fd) {l m : List (Fd × JChar)} (h : l <+: m) :
    text fd l <+: text fd m := by
  obtain ⟨t, rfl⟩ := h
  rw [text_append]
  exact List.prefix_append ..

/-- What the shell writes to a stream before the last marker. -/
def opening (marker : JString) (c : Command) (fd : Fd) : JString :=
  marker ++ [ch '\n'] ++ text fd c.writes

theorem text_script (fd : Fd) :
    text fd (script marker c) = opening marker c fd ++ (closing marker c ++ [ch '\n']) := by
  have hne : Fd.stderr ≠ Fd.stdout := by decide
  cases fd <;> simp [script, opening, text_echo_of_ne, hne, hne.symm]

/-- **Standard error comes last**: as long as standard output is not complete, nothing of the
last marker is on standard error. -/
theorem text_of_written {written : List (Fd × JChar)} (h : written <+: script marker c) :
    text .stdout written = text .stdout (script marker c) ∨
      text .stderr written <+: opening marker c .stderr := by
  have hne : Fd.stderr ≠ Fd.stdout := by decide
  rw [script] at h
  rcases List.prefix_or_prefix_of_prefix h (List.prefix_append ..) with hshort | hlong
  · refine Or.inr ((text_mono .stderr hshort).trans ?_)
    simp [opening, text_echo_of_ne, hne.symm]
  · refine Or.inl ((text_mono .stdout h).eq_of_length_le ?_)
    refine (List.IsPrefix.length_le ?_).trans (text_mono .stdout hlong).length_le
    simp [text_echo_of_ne, hne]

/-- When standard output is complete, so is what the command writes to standard error. -/
theorem opening_of_complete {written : List (Fd × JChar)} (h : written <+: script marker c)
    (hcomplete : text .stdout written = text .stdout (script marker c)) :
    opening marker c .stderr <+: text .stderr written := by
  have hne : Fd.stderr ≠ Fd.stdout := by decide
  have hscript : script marker c = echo .stdout marker ++ echo .stderr marker ++ c.writes ++
      (echo .stdout (closing marker c) ++ echo .stderr (closing marker c)) := by
    simp [script]
  rw [hscript] at h
  rcases List.prefix_or_prefix_of_prefix h (List.prefix_append ..) with hshort | hlong
  · have hle := (text_mono .stdout hshort).length_le
    rw [hcomplete, text_script] at hle
    simp [opening, text_echo_of_ne, hne] at hle
  · refine List.IsPrefix.trans ?_ (text_mono .stderr hlong)
    simp [opening, text_echo_of_ne, hne.symm]

/-- Everything that reaches a stream. -/
def total (marker : JString) (c : Command) (stale : Fd → JString) (fd : Fd) : JString :=
  stale fd ++ text fd (script marker c)

/-! ## The lines of a stream -/

/-- The marker is random: it is a line, no line that is left in the pipes begins with it, and
no line of the command does, even if the marker is written right after it. -/
structure Fresh (marker : JString) (c : Command) (stale : Fd → JString) : Prop where
  nonempty : marker ≠ []
  oneLine : OneLine marker
  /-- What is left in the pipes are whole lines. -/
  terminated : ∀ fd, Terminated (stale fd)
  stale : ∀ fd, ∀ line ∈ readLines (stale fd), ¬ marker <+: line
  lines : ∀ fd, ∀ line ∈ readLines (text fd c.writes), line ≠ [] → ¬ marker <+: line ++ marker

theorem oneLine_closing (hmarker : OneLine marker) : OneLine (closing marker c) := by
  intro d hd
  rcases List.mem_append.mp hd with hd | hd
  · exact hmarker d hd
  rcases List.mem_cons.mp hd with rfl | hd
  · decide
  · have hplain := (plain_of_mem_decimal (by simp) hd).1
    have hn : (ch '\n').toNat = 10 := by decide
    have hr : (ch '\r').toNat = 13 := by decide
    rw [JChar.isLineEnd, Bool.or_eq_false_iff, decide_eq_false_iff_not, decide_eq_false_iff_not]
    constructor <;> rintro rfl <;> omega

theorem closing_ne_nil : closing marker c ≠ [] := by simp [closing]

/-- The lines before the last marker. -/
def openLines (marker : JString) (c : Command) (stale : Fd → JString) (fd : Fd) : List JString :=
  (feedAll {} (stale fd)).2 ++ marker :: (feedAll {} (text fd c.writes)).2

/-- The line that the last marker is written to. -/
def lastLine (marker : JString) (c : Command) (fd : Fd) : JString :=
  (feedAll {} (text fd c.writes)).1.part ++ closing marker c

theorem feedAll_open (hfresh : Fresh marker c stale) (fd : Fd) :
    feedAll {} (stale fd ++ opening marker c fd) =
      ((feedAll {} (text fd c.writes)).1, openLines marker c stale fd) := by
  rw [opening, feedAll_append, feedAll_append, feedAll_line _ hfresh.oneLine hfresh.nonempty,
    hfresh.terminated fd]
  rfl

theorem feedAll_total (hfresh : Fresh marker c stale) (fd : Fd) :
    feedAll {} (total marker c stale fd) =
      ({}, openLines marker c stale fd ++ [lastLine marker c fd]) := by
  rw [total, text_script, ← List.append_assoc, feedAll_append, feedAll_open hfresh,
    feedAll_line _ (oneLine_closing hfresh.oneLine) closing_ne_nil]
  rfl

/-- As long as a stream is not complete, the last marker is not a complete line. -/
theorem feedAll_of_incomplete (hfresh : Fresh marker c stale) {fd : Fd} {t : JString}
    (h : t <+: total marker c stale fd) (hne : t ≠ total marker c stale fd) :
    (feedAll {} t).2 <+: openLines marker c stale fd := by
  have hbody : feedAll {} (stale fd ++ opening marker c fd ++ closing marker c) =
      (⟨lastLine marker c fd, false⟩, openLines marker c stale fd) := by
    rw [feedAll_append, feedAll_open hfresh,
      feedAll_oneLine _ (oneLine_closing hfresh.oneLine) closing_ne_nil, List.append_nil]
    rfl
  have htotal : total marker c stale fd =
      stale fd ++ opening marker c fd ++ closing marker c ++ [ch '\n'] := by
    simp [total, text_script]
  rw [htotal] at h hne
  have hshort : t <+: stale fd ++ opening marker c fd ++ closing marker c :=
    (List.prefix_concat_iff.mp h).resolve_left hne
  obtain ⟨u, hu⟩ := hshort
  rw [← hu, feedAll_append] at hbody
  exact ⟨_, (Prod.mk.inj hbody).2⟩

/-! ## The loops on these lines -/

variable (marker) in
/-- The line leaves the loop running. -/
def goes (fd : Fd) (v : Vars) (line : JString) : Option Vars :=
  match onLine marker fd v line with
  | .next v => some v
  | _ => none

variable (marker) in
/-- The lines leave the loop running. -/
def goesAll (fd : Fd) (v : Vars) (lines : List JString) : Option Vars :=
  lines.foldlM (goes marker fd) v

theorem goesAll_append (fd : Fd) (v : Vars) (l m : List JString) :
    goesAll marker fd v (l ++ m) = (goesAll marker fd v l).bind fun v => goesAll marker fd v m :=
  List.foldlM_append

theorem isSome_goesAll_mono {fd : Fd} {v : Vars} {l m : List JString} (h : l <+: m)
    (hm : (goesAll marker fd v m).isSome = true) : (goesAll marker fd v l).isSome = true := by
  obtain ⟨t, rfl⟩ := h
  rw [goesAll_append] at hm
  cases hl : goesAll marker fd v l with
  | none => simp [hl] at hm
  | some v' => rfl

theorem goes_marker (fd : Fd) (v : Vars) :
    goes marker fd v marker = some { v with markersSeen := v.markersSeen + 1 } := by
  simp [goes, onLine]

theorem goes_of_plain {fd : Fd} {v : Vars} {line : JString} (h : ¬ marker <+: line) :
    goes marker fd v line =
      some { v with output :=
              v.output ++ if fd = .stdout ∧ v.markersSeen > 0 then [line] else [] } := by
  have hfront : marker.isPrefixOf line = false := by
    rw [Bool.eq_false_iff, ne_eq, List.isPrefixOf_iff_prefix]
    exact h
  unfold goes onLine
  rw [hfront, if_neg (by simp)]
  split_ifs <;> simp

theorem goesAll_of_plain {fd : Fd} {v : Vars} {lines : List JString}
    (h : ∀ line ∈ lines, ¬ marker <+: line) :
    goesAll marker fd v lines =
      some { v with output :=
              v.output ++ if fd = .stdout ∧ v.markersSeen > 0 then lines else [] } := by
  induction lines generalizing v with
  | nil => simp [goesAll]
  | cons line lines ih =>
    obtain ⟨hline, hlines⟩ := List.forall_mem_cons.mp h
    have hstep : goesAll marker fd v (line :: lines) =
        (goes marker fd v line).bind fun v => goesAll marker fd v lines := rfl
    rw [hstep, goes_of_plain hline, Option.bind_some, ih hlines]
    split_ifs <;> simp

theorem not_prefix_of_mem_feedAll (hfresh : Fresh marker c stale) (fd : Fd) :
    (∀ line ∈ (feedAll {} (stale fd)).2, ¬ marker <+: line) ∧
      ∀ line ∈ (feedAll {} (text fd c.writes)).2, ¬ marker <+: line := by
  constructor
  · intro line hline
    refine hfresh.stale fd line ?_
    rw [readLines_eq_feedAll]
    exact List.mem_append_left _ hline
  · intro line hline hfront
    have hne : line ≠ [] := by
      rintro rfl
      exact hfresh.nonempty (List.prefix_nil.mp hfront)
    refine hfresh.lines fd line ?_ hne (hfront.trans (List.prefix_append ..))
    rw [readLines_eq_feedAll]
    exact List.mem_append_left _ hline

/-- The lines before the last marker: the first marker is counted, and on standard output the
lines of the command are kept, and none of what was left in the pipe. -/
theorem goesAll_openLines (hfresh : Fresh marker c stale) {fd : Fd} {v : Vars}
    (hv : fd = .stdout → v.markersSeen = 0) :
    goesAll marker fd v (openLines marker c stale fd) =
      some { v with
        markersSeen := v.markersSeen + 1
        output := v.output ++ if fd = .stdout then (feedAll {} (text fd c.writes)).2 else [] } := by
  obtain ⟨hstale, hlines⟩ := not_prefix_of_mem_feedAll hfresh fd
  have hjunk : (if fd = .stdout ∧ v.markersSeen > 0 then (feedAll {} (stale fd)).2 else []) = [] :=
    if_neg fun h => absurd (hv h.1) (by omega)
  have hstep : ∀ v, goesAll marker fd v (marker :: (feedAll {} (text fd c.writes)).2) =
      (goes marker fd v marker).bind fun v =>
        goesAll marker fd v (feedAll {} (text fd c.writes)).2 := fun _ => rfl
  rw [openLines, goesAll_append, goesAll_of_plain hstale, hjunk, Option.bind_some, hstep,
    goes_marker, Option.bind_some, goesAll_of_plain hlines]
  simp

/-- The last marker of a stream, if the command ends its last line. -/
theorem onLine_lastLine {fd : Fd} (hterminated : Terminated (text fd c.writes)) (v : Vars) :
    onLine marker fd v (lastLine marker c fd) =
      .leave ({ v with markersSeen := v.markersSeen + 1 }.setErrno fd (c.status : ℕ)) := by
  have hlt : ((c.status : ℕ) : ℤ) < 2 ^ 31 := by
    have := c.status.isLt
    omega
  have hne : decimal (c.status : ℕ) ≠ [] := decimal_ne_nil (by simp)
  have hlength : (closing marker c).length > marker.length + 1 := by
    have := List.length_pos_of_ne_nil hne
    simp [closing]
    omega
  have hdrop : (closing marker c).drop (marker.length + 1) = decimal (c.status : ℕ) := by
    simp [closing, List.drop_append]
  have hfront : marker.isPrefixOf (closing marker c) = true :=
    List.isPrefixOf_iff_prefix.mpr (List.prefix_append ..)
  rw [Terminated] at hterminated
  rw [lastLine, hterminated, List.nil_append, onLine, if_pos hfront]
  simp only [if_pos hlength, hdrop, parseInt_decimal (Int.natCast_nonneg _) hlt]

/-- If it does not, the marker does not begin a line. -/
theorem not_prefix_lastLine (hfresh : Fresh marker c stale) {fd : Fd}
    (h : ¬ Terminated (text fd c.writes)) : ¬ marker <+: lastLine marker c fd := by
  rw [Terminated] at h
  intro hfront
  have hmem : (feedAll {} (text fd c.writes)).1.part ∈ readLines (text fd c.writes) := by
    rw [readLines_eq_feedAll, pending, if_neg h]
    exact List.mem_append_right _ (List.mem_singleton_self _)
  refine hfresh.lines fd _ hmem h (List.prefix_of_prefix_length_le hfront ?_ (by simp))
  rw [lastLine, closing, ← List.append_assoc]
  exact List.prefix_append ..

/-- **Only the last marker ends a loop**, when the stream is complete. -/
theorem isSome_goesAll (hfresh : Fresh marker c stale) {fd : Fd} {v : Vars} {t : JString}
    (hv : fd = .stdout → v.markersSeen = 0) (ht : t <+: total marker c stale fd) :
    (goesAll marker fd v (feedAll {} t).2).isSome = true ∨
      t = total marker c stale fd ∧ Terminated (text fd c.writes) := by
  have hopen : (goesAll marker fd v (openLines marker c stale fd)).isSome = true := by
    rw [goesAll_openLines hfresh hv]
    rfl
  by_cases htotal : t = total marker c stale fd
  · by_cases hterminated : Terminated (text fd c.writes)
    · exact Or.inr ⟨htotal, hterminated⟩
    · refine Or.inl ?_
      rw [htotal, feedAll_total hfresh, goesAll_append]
      obtain ⟨v', hv'⟩ := Option.isSome_iff_exists.mp hopen
      rw [hv', Option.bind_some, goesAll_of_plain]
      · rfl
      · simpa using not_prefix_lastLine hfresh hterminated
  · exact Or.inl (isSome_goesAll_mono (feedAll_of_incomplete hfresh ht htotal) hopen)

/-! ## Counting markers -/

variable (marker) in
/-- The lines of a text that begin with the marker, the one that has been begun included. -/
def marks (t : JString) : ℕ := (readLines t).countP marker.isPrefixOf

theorem marks_mono (hne : marker ≠ []) {t u : JString} (h : t <+: u) :
    marks marker t ≤ marks marker u := by
  obtain ⟨w, rfl⟩ := h
  refine countP_readLines_le ?_ (fun l m hlm hl => ?_) t w
  · rw [Bool.eq_false_iff, ne_eq, List.isPrefixOf_iff_prefix, List.prefix_nil]
    exact hne
  · have hfront := List.isPrefixOf_iff_prefix.mp hl
    exact List.isPrefixOf_iff_prefix.mpr (hfront.trans hlm)

/-- What a line does to the variables, if it does not throw. -/
structure Counts (marker : JString) (fd : Fd) (v v' : Vars) (lines : List JString) : Prop where
  markersSeen : v'.markersSeen = v.markersSeen + lines.countP marker.isPrefixOf
  errnoStdout : fd = .stderr → v'.errnoStdout = v.errnoStdout
  output : fd = .stderr → v'.output = v.output

theorem counts_of_onLine {fd : Fd} {v v' : Vars} {line : JString}
    (h : onLine marker fd v line = .next v' ∨ onLine marker fd v line = .leave v') :
    Counts marker fd v v' [line] := by
  unfold onLine at h
  split_ifs at h with hfront hlong hstdout
  · split at h
    · rcases h with h | h
      · exact absurd h (by simp)
      · rw [← Loop.leave.inj h]
        cases fd <;> exact ⟨by simp [Vars.setErrno, hfront], by simp [Vars.setErrno],
          by simp [Vars.setErrno]⟩
    · exact absurd h (by simp)
  · rcases h with h | h
    · rw [← Loop.next.inj h]
      exact ⟨by simp [hfront], fun _ => rfl, fun _ => rfl⟩
    · exact absurd h (by simp)
  · rcases h with h | h
    · rw [← Loop.next.inj h]
      exact ⟨by simp [hfront], fun _ => rfl, fun h => absurd (h.symm.trans hstdout.1) (by simp)⟩
    · exact absurd h (by simp)
  · rcases h with h | h
    · rw [← Loop.next.inj h]
      exact ⟨by simp [hfront], fun _ => rfl, fun _ => rfl⟩
    · exact absurd h (by simp)

theorem Counts.trans {fd : Fd} {v v' v'' : Vars} {l m : List JString}
    (h : Counts marker fd v v' l) (h' : Counts marker fd v' v'' m) :
    Counts marker fd v v'' (l ++ m) :=
  ⟨by rw [h'.markersSeen, h.markersSeen, List.countP_append, Nat.add_assoc],
    fun hfd => (h'.errnoStdout hfd).trans (h.errnoStdout hfd),
    fun hfd => (h'.output hfd).trans (h.output hfd)⟩

theorem onLine_of_goes {fd : Fd} {v v' : Vars} {line : JString}
    (h : goes marker fd v line = some v') : onLine marker fd v line = .next v' := by
  unfold goes at h
  split at h
  · rw [← Option.some.inj h]
    assumption
  · exact absurd h (by simp)

theorem counts_of_goesAll {fd : Fd} {v v' : Vars} {lines : List JString}
    (h : goesAll marker fd v lines = some v') : Counts marker fd v v' lines := by
  induction lines generalizing v with
  | nil =>
    rw [← Option.some.inj h]
    exact ⟨rfl, fun _ => rfl, fun _ => rfl⟩
  | cons line lines ih =>
    have hstep : goesAll marker fd v (line :: lines) =
        (goes marker fd v line).bind fun v => goesAll marker fd v lines := rfl
    rw [hstep] at h
    obtain ⟨v₁, hline, hlines⟩ := Option.bind_eq_some_iff.mp h
    exact (counts_of_onLine (Or.inl (onLine_of_goes hline))).trans (ih hlines)

theorem countP_openLines (hfresh : Fresh marker c stale) (fd : Fd) :
    (openLines marker c stale fd).countP marker.isPrefixOf = 1 := by
  have hgoes := goesAll_openLines hfresh (v := {}) fun _ : fd = .stdout => rfl
  simpa using (counts_of_goesAll hgoes).markersSeen.symm

/-- Before the last marker one marker has been written. -/
theorem marks_opening (hfresh : Fresh marker c stale) (fd : Fd) :
    marks marker (stale fd ++ opening marker c fd) = 1 := by
  have hpending : (feedAll {} (text fd c.writes)).1.pending.countP marker.isPrefixOf = 0 := by
    rw [List.countP_eq_zero]
    intro line hline hmark
    have hfront := List.isPrefixOf_iff_prefix.mp hmark
    have hne : line ≠ [] := by
      rintro rfl
      exact hfresh.nonempty (List.prefix_nil.mp hfront)
    refine hfresh.lines fd line ?_ hne (hfront.trans (List.prefix_append ..))
    rw [readLines_eq_feedAll]
    exact List.mem_append_right _ hline
  rw [marks, readLines_eq_feedAll, feedAll_open hfresh, List.countP_append, hpending,
    countP_openLines hfresh]

/-- At the end there are two, if the command ends its last line. -/
theorem marks_total (hfresh : Fresh marker c stale) (fd : Fd) :
    marks marker (total marker c stale fd) ≤ 2 ∧
      (¬ Terminated (text fd c.writes) → marks marker (total marker c stale fd) ≤ 1) := by
  have hmarks : marks marker (total marker c stale fd) =
      1 + [lastLine marker c fd].countP marker.isPrefixOf := by
    rw [marks, readLines_eq_feedAll, feedAll_total hfresh, pending, if_pos rfl, List.append_nil,
      List.countP_append, countP_openLines hfresh]
  refine ⟨?_, fun h => ?_⟩
  · rw [hmarks]
    have hone : [lastLine marker c fd].countP marker.isPrefixOf ≤ 1 := List.countP_le_length
    omega
  · have hlast := not_prefix_lastLine hfresh h
    rw [← List.isPrefixOf_iff_prefix] at hlast
    rw [hmarks]
    simp [hlast]

end RootShell
end AioVpn
