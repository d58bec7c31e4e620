import AioVpn.Shell.MarkerLines

/-!
# The marker protocol of the root shell

The invariant of a call of `RootShell.run`.  What the app has read of a stream, what is in the
pipe and what the shell has still to write are together what the script writes (`Flow`), and
what the app knows depends on how far it has come (`Stage`).  When the shell dies in the middle,
the second marker on standard error is missing, because it is written last: a call that has
lost a part of a stream cannot see four markers (`markersSeen_of_cut`).

`inv_step` says that every step of the shell and of the app keeps the invariant, and
`inv_of_reachable` that it holds in every state of a call.
-/

namespace AioVpn
namespace RootShell

open JString LineReader

variable {marker : JString} {capacity : ℕ} {c : Command} {stale : Fd → JString}

/-! ## What is where -/

/-- The script is `written`, or still to be written, or `lost` with the shell; and what has
been written to a stream is `consumed` or in the pipe. -/
structure Flow (marker : JString) (c : Command) (stale : Fd → JString) (s : Sys)
    (written lost : List (Fd × JChar)) (consumed : Fd → JString) : Prop where
  script : written ++ s.todo ++ lost = script marker c
  lost : s.alive = true → lost = []
  dead : s.alive = false → s.todo = []
  pipe : ∀ fd, consumed fd ++ s.pipe fd = stale fd ++ text fd written

namespace Flow

variable {s : Sys} {written lost : List (Fd × JChar)} {consumed : Fd → JString}

theorem written_isFront (h : Flow marker c stale s written lost consumed) :
    written <+: RootShell.script marker c := by
  rw [← h.script, List.append_assoc]
  exact List.prefix_append ..

theorem consumed_isFront (h : Flow marker c stale s written lost consumed) (fd : Fd) :
    consumed fd <+: total marker c stale fd := by
  have hwritten : stale fd ++ text fd written <+: total marker c stale fd := by
    rw [total, List.prefix_append_right_inj]
    exact text_mono fd h.written_isFront
  refine List.IsPrefix.trans ?_ hwritten
  rw [← h.pipe]
  exact List.prefix_append ..

/-- A stream that has been read to its end has been written to its end. -/
theorem text_written_of_total (h : Flow marker c stale s written lost consumed) {fd : Fd}
    (hfd : consumed fd = total marker c stale fd) :
    s.pipe fd = [] ∧ text fd written = text fd (RootShell.script marker c) := by
  have hpipe := h.pipe fd
  rw [hfd, total, List.append_assoc, List.append_cancel_left_eq] at hpipe
  have hle := (text_mono fd h.written_isFront).length_le
  have hlength := congrArg List.length hpipe
  rw [List.length_append] at hlength
  have hnil : s.pipe fd = [] := List.length_eq_zero_iff.mp (by omega)
  rw [hnil, List.append_nil] at hpipe
  exact ⟨hnil, hpipe.symm⟩

/-- A living shell whose streams have been read to their ends has nothing left to write. -/
theorem todo_eq_nil (h : Flow marker c stale s written lost consumed) (halive : s.alive = true)
    (hall : ∀ fd, consumed fd = total marker c stale fd) : s.todo = [] := by
  have htext : ∀ fd, text fd s.todo = [] := by
    intro fd
    have hscript := congrArg (text fd) h.script
    rw [h.lost halive, List.append_nil, text_append,
      (h.text_written_of_total (hall fd)).2] at hscript
    exact List.append_right_eq_self.mp hscript
  cases htodo : s.todo with
  | nil => rfl
  | cons w rest =>
    have hhead := htext w.1
    rw [htodo, text_cons_self] at hhead
    exact absurd hhead (by simp)

end Flow

/-- The variables after the loop over standard output. -/
def varsAfter (c : Command) : Vars :=
  { errnoStdout := (c.status : ℕ), markersSeen := 2, output := readLines (text .stdout c.writes) }

/-- Where the call is, and what the app knows there. -/
inductive Stage (marker : JString) (c : Command) (stale : Fd → JString) (s : Sys)
    (written : List (Fd × JChar)) (consumed : Fd → JString) : Prop
  | stdout :
      s.phase = .reading .stdout → consumed .stderr = [] →
      s.reader .stdout = (feedAll {} (consumed .stdout)).1 → s.reader .stderr = {} →
      goesAll marker .stdout {} (feedAll {} (consumed .stdout)).2 = some s.vars → Stage ..
  /-- Standard output has been read to its end. -/
  | stderr :
      s.phase = .reading .stderr → consumed .stdout = total marker c stale .stdout →
      s.reader .stdout = {} → s.reader .stderr = (feedAll {} (consumed .stderr)).1 →
      goesAll marker .stderr (varsAfter c) (feedAll {} (consumed .stderr)).2 = some s.vars →
      Stage ..
  /-- The shell died, and standard output ended early: a marker is missing. -/
  | cut (k : ℕ) :
      s.phase = .reading .stderr → s.alive = false →
      s.reader .stderr = (feedAll {} (consumed .stderr)).1 →
      s.vars.markersSeen = k + (feedAll {} (consumed .stderr)).2.countP marker.isPrefixOf →
      k ≤ 1 ∨ k ≤ 2 ∧ text .stderr written <+: opening marker c .stderr → Stage ..
  | returned :
      s.phase = .returned (c.status : ℕ) → s.vars.output = readLines (text .stdout c.writes) →
      (s.alive = true → s.todo = [] ∧ ∀ fd, s.pipe fd = [] ∧ s.reader fd = {}) → Stage ..
  | threw (e : Failure) : s.phase = .threw e → s.alive = false → Stage ..

/-- **The invariant of a call.** -/
def Inv (marker : JString) (c : Command) (stale : Fd → JString) (s : Sys) : Prop :=
  ∃ written lost consumed, Flow marker c stale s written lost consumed ∧
    Stage marker c stale s written consumed

theorem inv_begin : Inv marker c stale (begin marker c stale) :=
  ⟨[], [], fun _ => [], ⟨by simp [begin], fun _ => rfl, fun h => absurd h (by simp [begin]),
    fun _ => by simp [begin]⟩, .stdout rfl rfl rfl rfl rfl⟩

/-! ## The shell -/

/-- The shell writes only while it lives. -/
theorem inv_write {s : Sys} {fd : Fd} {d : JChar} {rest : List (Fd × JChar)}
    (h : Inv marker c stale s) (htodo : s.todo = (fd, d) :: rest) :
    Inv marker c stale
      { s with todo := rest, pipe := Function.update s.pipe fd (s.pipe fd ++ [d]) } := by
  obtain ⟨written, lost, consumed, hflow, hstage⟩ := h
  have halive : s.alive = true := by
    by_contra hdead
    rw [hflow.dead (by simpa using hdead)] at htodo
    exact absurd htodo (by simp)
  refine ⟨written ++ [(fd, d)], lost, consumed, ⟨?_, hflow.lost, ?_, ?_⟩, ?_⟩
  · rw [← hflow.script, htodo]
    simp
  · intro hdead
    exact absurd (halive.symm.trans hdead) (by simp)
  · intro fd'
    dsimp only
    rw [text_append, ← List.append_assoc, ← hflow.pipe fd']
    by_cases hfd : fd' = fd
    · subst hfd
      rw [Function.update_self, text_cons_self, text_nil, List.append_assoc]
    · rw [Function.update_of_ne hfd, text_cons_of_ne (Ne.symm hfd), text_nil, List.append_nil]
  · cases hstage with
    | stdout hphase hconsumed hout herr hgoes => exact .stdout hphase hconsumed hout herr hgoes
    | stderr hphase hconsumed hout herr hgoes => exact .stderr hphase hconsumed hout herr hgoes
    | cut k _ hdead => exact absurd (halive.symm.trans hdead) (by simp)
    | returned _ _ hquiet =>
      rw [(hquiet halive).1] at htodo
      exact absurd htodo (by simp)
    | threw e _ hdead => exact absurd (halive.symm.trans hdead) (by simp)

theorem inv_die {s : Sys} (h : Inv marker c stale s) (halive : s.alive = true) :
    Inv marker c stale { s with todo := [], alive := false } := by
  obtain ⟨written, lost, consumed, hflow, hstage⟩ := h
  refine ⟨written, s.todo ++ lost, consumed, ⟨?_, fun h => absurd h (by simp), fun _ => rfl,
    hflow.pipe⟩, ?_⟩
  · rw [← hflow.script]
    simp
  · cases hstage with
    | stdout hphase hconsumed hout herr hgoes => exact .stdout hphase hconsumed hout herr hgoes
    | stderr hphase hconsumed hout herr hgoes => exact .stderr hphase hconsumed hout herr hgoes
    | cut k _ hdead => exact absurd (halive.symm.trans hdead) (by simp)
    | returned hphase houtput _ => exact .returned hphase houtput fun h => absurd h (by simp)
    | threw e _ hdead => exact absurd (halive.symm.trans hdead) (by simp)

/-! ## The app -/

theorem feedAll_snoc (r : LineReader) (t : JString) (d : JChar) :
    r.feedAll (t ++ [d]) =
      (((r.feedAll t).1.feed d).1, (r.feedAll t).2 ++ ((r.feedAll t).1.feed d).2.toList) := by
  rw [feedAll_append, feedAll, feedAll, List.append_nil]

/-- A character moves from the pipe to the reader. -/
theorem Flow.read {s : Sys} {written lost : List (Fd × JChar)} {consumed : Fd → JString} {fd : Fd}
    {d : JChar} {rest : JString} (h : Flow marker c stale s written lost consumed)
    (hpipe : s.pipe fd = d :: rest) {s' : Sys} (htodo : s'.todo = s.todo)
    (halive : s'.alive = s.alive) (hpipe' : s'.pipe = Function.update s.pipe fd rest) :
    Flow marker c stale s' written lost
      (Function.update consumed fd (consumed fd ++ [d])) := by
  refine ⟨by rw [htodo]; exact h.script, by rw [halive]; exact h.lost,
    by rw [halive, htodo]; exact h.dead, fun fd' => ?_⟩
  rw [hpipe', ← h.pipe fd']
  by_cases hfd : fd' = fd
  · subst hfd
    rw [Function.update_self, Function.update_self, hpipe, List.append_assoc]
    rfl
  · rw [Function.update_of_ne hfd, Function.update_of_ne hfd]

/-- A line does not touch the shell and the pipes. -/
theorem Sys.line_frame (marker : JString) (fd : Fd) (s : Sys) (l : JString) :
    (s.line marker fd l).todo = s.todo ∧ (s.line marker fd l).alive = s.alive ∧
      (s.line marker fd l).pipe = s.pipe ∧ (s.line marker fd l).reader = s.reader := by
  unfold Sys.line
  split <;> exact ⟨rfl, rfl, rfl, rfl⟩

theorem Sys.read_frame (marker : JString) (fd : Fd) (s : Sys) (d : JChar) :
    (s.read marker fd d).todo = s.todo ∧ (s.read marker fd d).alive = s.alive ∧
      (s.read marker fd d).pipe = s.pipe ∧
      (s.read marker fd d).reader = Function.update s.reader fd ((s.reader fd).feed d).1 := by
  unfold Sys.read
  cases ((s.reader fd).feed d).2 with
  | none => exact ⟨rfl, rfl, rfl, rfl⟩
  | some l => exact Sys.line_frame marker fd _ l

theorem Sys.read_of_none (marker : JString) {fd : Fd} {s : Sys} {d : JChar}
    (h : ((s.reader fd).feed d).2 = none) :
    (s.read marker fd d).vars = s.vars ∧ (s.read marker fd d).phase = s.phase := by
  rw [Sys.read, h]
  exact ⟨rfl, rfl⟩

theorem Sys.read_of_next {marker : JString} {fd : Fd} {s : Sys} {d : JChar} {l : JString}
    {v : Vars} (h : ((s.reader fd).feed d).2 = some l) (hl : onLine marker fd s.vars l = .next v) :
    (s.read marker fd d).vars = v ∧ (s.read marker fd d).phase = s.phase := by
  simp [Sys.read, h, Sys.line, hl]

theorem Sys.read_of_leave {marker : JString} {fd : Fd} {s : Sys} {d : JChar} {l : JString}
    {v : Vars} (h : ((s.reader fd).feed d).2 = some l) (hl : onLine marker fd s.vars l = .leave v) :
    (s.read marker fd d).vars = v ∧ (s.read marker fd d).phase = afterLoop fd v := by
  simp [Sys.read, h, Sys.line, hl]

theorem Sys.read_of_throw {marker : JString} {fd : Fd} {s : Sys} {d : JChar} {l : JString}
    (h : ((s.reader fd).feed d).2 = some l) (hl : onLine marker fd s.vars l = .throw) :
    (s.read marker fd d).phase = .threw .numberFormat := by
  simp [Sys.read, h, Sys.line, hl]

/-- **A loop goes on or ends as it should**: a line that a reader completes leaves the loop
running, or it is the last marker and the stream is complete. -/
theorem onLine_of_feed (hfresh : Fresh marker c stale) {fd : Fd} {v v' : Vars} {t l : JString}
    {d : JChar} (hv : fd = .stdout → v.markersSeen = 0)
    (ht : t ++ [d] <+: total marker c stale fd)
    (hgoes : goesAll marker fd v (feedAll {} t).2 = some v')
    (hl : ((feedAll {} t).1.feed d).2 = some l) :
    (∃ v'', onLine marker fd v' l = .next v'' ∧
      goesAll marker fd v (feedAll {} (t ++ [d])).2 = some v'') ∨
    t ++ [d] = total marker c stale fd ∧ Terminated (text fd c.writes) ∧
      onLine marker fd v' l = .leave ({ v with
        markersSeen := v.markersSeen + 2
        output := v.output ++ if fd = Fd.stdout then readLines (text fd c.writes) else [] }.setErrno
          fd (c.status : ℕ)) := by
  have hlines : (feedAll {} (t ++ [d])).2 = (feedAll {} t).2 ++ [l] := by
    rw [feedAll_snoc, hl]
    rfl
  rcases isSome_goesAll hfresh hv ht with hsome | ⟨htotal, hterminated⟩
  · refine Or.inl ?_
    obtain ⟨v'', hv''⟩ := Option.isSome_iff_exists.mp hsome
    rw [hlines, goesAll_append, hgoes, Option.bind_some] at hv''
    obtain ⟨v₁, hv₁, hnil⟩ := Option.bind_eq_some_iff.mp hv''
    obtain rfl : v₁ = v'' := Option.some.inj hnil
    refine ⟨v₁, onLine_of_goes hv₁, ?_⟩
    rw [hlines, goesAll_append, hgoes]
    exact hv''
  · refine Or.inr ⟨htotal, hterminated, ?_⟩
    rw [htotal, feedAll_total hfresh] at hlines
    obtain ⟨hopen, hlast⟩ := List.append_inj' hlines rfl
    rw [← hopen, goesAll_openLines hfresh hv] at hgoes
    rw [← (List.singleton_inj.mp hlast), onLine_lastLine hterminated, ← Option.some.inj hgoes,
      readLines_of_terminated hterminated]

theorem goesAll_total_eq_none (hfresh : Fresh marker c stale) {fd : Fd} {v : Vars}
    (hv : fd = .stdout → v.markersSeen = 0) (hterminated : Terminated (text fd c.writes)) :
    goesAll marker fd v (feedAll {} (total marker c stale fd)).2 = none := by
  have hlast : ∀ v, goesAll marker fd v [lastLine marker c fd] = none := by
    intro v
    have hgoes : goes marker fd v (lastLine marker c fd) = none := by
      rw [goes, onLine_lastLine hterminated]
    have hstep : goesAll marker fd v [lastLine marker c fd] =
        (goes marker fd v (lastLine marker c fd)).bind fun v => goesAll marker fd v [] := rfl
    rw [hstep, hgoes]
    rfl
  rw [feedAll_total hfresh, goesAll_append, goesAll_openLines hfresh hv]
  exact hlast _

/-- A call whose shell died has not seen four markers. -/
theorem markersSeen_of_cut (hfresh : Fresh marker c stale) {s : Sys}
    {written lost : List (Fd × JChar)} {consumed : Fd → JString}
    (hflow : Flow marker c stale s written lost consumed) {k : ℕ}
    (hk : k ≤ 1 ∨ k ≤ 2 ∧ text .stderr written <+: opening marker c .stderr) :
    k + marks marker (consumed .stderr) ≤ 3 := by
  rcases hk with hk | ⟨hk, hopening⟩
  · have hle := marks_mono hfresh.nonempty (hflow.consumed_isFront .stderr)
    have htotal := (marks_total hfresh .stderr).1
    omega
  · have hfront : consumed .stderr <+: stale .stderr ++ opening marker c .stderr := by
      refine List.IsPrefix.trans ?_ ((List.prefix_append_right_inj (stale .stderr)).mpr hopening)
      rw [← hflow.pipe]
      exact List.prefix_append ..
    have hle := marks_mono hfresh.nonempty hfront
    rw [marks_opening hfresh] at hle
    omega

theorem finish_of_markersSeen {v : Vars} (h : v.markersSeen ≤ 3) :
    finish v = .threw (.shellMarkerCountError v.markersSeen) := by
  rw [finish, if_pos (by omega)]

variable (marker) in
theorem countP_feedAll_le_marks (t : JString) :
    (feedAll {} t).2.countP marker.isPrefixOf ≤ marks marker t := by
  rw [marks, readLines_eq_feedAll, List.countP_append]
  exact Nat.le_add_right ..

/-! ## Reading a character -/

section Read

variable {s : Sys} {written lost : List (Fd × JChar)} {consumed : Fd → JString} {d : JChar}
  {rest : JString}

/-- The state after a character. -/
abbrev afterRead (marker : JString) (s : Sys) (fd : Fd) (rest : JString) (d : JChar) : Sys :=
  { s with pipe := Function.update s.pipe fd rest }.read marker fd d

theorem flow_afterRead {fd : Fd} (hflow : Flow marker c stale s written lost consumed)
    (hpipe : s.pipe fd = d :: rest) :
    Flow marker c stale (afterRead marker s fd rest d) written lost
      (Function.update consumed fd (consumed fd ++ [d])) := by
  obtain ⟨htodo, halive, hpipe', -⟩ :=
    Sys.read_frame marker fd { s with pipe := Function.update s.pipe fd rest } d
  exact hflow.read hpipe htodo halive hpipe'

theorem reader_afterRead (s : Sys) (fd fd' : Fd) :
    (afterRead marker s fd rest d).reader fd' =
      if fd' = fd then ((s.reader fd).feed d).1 else s.reader fd' := by
  rw [(Sys.read_frame marker fd { s with pipe := Function.update s.pipe fd rest } d).2.2.2,
    Function.update_apply]

theorem stage_read_stdout (hfresh : Fresh marker c stale)
    (hflow : Flow marker c stale s written lost consumed) (hphase : s.phase = .reading .stdout)
    (hconsumed : consumed .stderr = [])
    (hout : s.reader .stdout = (feedAll {} (consumed .stdout)).1) (herr : s.reader .stderr = {})
    (hgoes : goesAll marker .stdout {} (feedAll {} (consumed .stdout)).2 = some s.vars)
    (hpipe : s.pipe .stdout = d :: rest) :
    Stage marker c stale (afterRead marker s .stdout rest d) written
      (Function.update consumed .stdout (consumed .stdout ++ [d])) := by
  have hfront := (flow_afterRead hflow hpipe).consumed_isFront .stdout
  rw [Function.update_self] at hfront
  have herr' : (afterRead marker s .stdout rest d).reader .stderr = {} := by
    rw [reader_afterRead, if_neg (by simp), herr]
  have hout' : (afterRead marker s .stdout rest d).reader .stdout =
      (feedAll {} (consumed .stdout ++ [d])).1 := by
    rw [reader_afterRead, if_pos rfl, feedAll_snoc, hout]
  have hconsumed' : Function.update consumed .stdout (consumed .stdout ++ [d]) .stderr = [] := by
    rw [Function.update_of_ne (by simp), hconsumed]
  cases hl : ((s.reader .stdout).feed d).2 with
  | none =>
    obtain ⟨hvars, hphase'⟩ := Sys.read_of_none marker
      (s := { s with pipe := Function.update s.pipe .stdout rest }) hl
    refine .stdout (hphase'.trans hphase) hconsumed' ?_ herr' ?_
    · rw [Function.update_self]
      exact hout'
    · rw [Function.update_self, hvars, feedAll_snoc, ← hout, hl]
      simpa using hgoes
  | some l =>
    have hl' : ((feedAll {} (consumed .stdout)).1.feed d).2 = some l := by rw [← hout]; exact hl
    rcases onLine_of_feed hfresh (fun _ => rfl) hfront hgoes hl' with
      ⟨v, hnext, hgoes'⟩ | ⟨htotal, hterminated, hleave⟩
    · obtain ⟨hvars, hphase'⟩ := Sys.read_of_next
        (s := { s with pipe := Function.update s.pipe .stdout rest }) hl hnext
      refine .stdout (hphase'.trans hphase) hconsumed' ?_ herr' ?_
      · rw [Function.update_self]
        exact hout'
      · rw [Function.update_self, hvars]
        exact hgoes'
    · obtain ⟨hvars, hphase'⟩ := Sys.read_of_leave
        (s := { s with pipe := Function.update s.pipe .stdout rest }) hl hleave
      refine .stderr hphase' ?_ ?_ ?_ ?_
      · rw [Function.update_self, htotal]
      · rw [hout', htotal, feedAll_total hfresh]
      · rw [hconsumed', herr']
        rfl
      · rw [hconsumed', hvars]
        rfl

theorem stage_read_stderr (hfresh : Fresh marker c stale)
    (hflow : Flow marker c stale s written lost consumed) (hphase : s.phase = .reading .stderr)
    (hconsumed : consumed .stdout = total marker c stale .stdout) (hout : s.reader .stdout = {})
    (herr : s.reader .stderr = (feedAll {} (consumed .stderr)).1)
    (hgoes : goesAll marker .stderr (varsAfter c) (feedAll {} (consumed .stderr)).2 = some s.vars)
    (hpipe : s.pipe .stderr = d :: rest) :
    Stage marker c stale (afterRead marker s .stderr rest d) written
      (Function.update consumed .stderr (consumed .stderr ++ [d])) := by
  have hflow' := flow_afterRead hflow hpipe
  have hfront := hflow'.consumed_isFront .stderr
  rw [Function.update_self] at hfront
  have hout' : (afterRead marker s .stderr rest d).reader .stdout = {} := by
    rw [reader_afterRead, if_neg (by simp), hout]
  have herr' : (afterRead marker s .stderr rest d).reader .stderr =
      (feedAll {} (consumed .stderr ++ [d])).1 := by
    rw [reader_afterRead, if_pos rfl, feedAll_snoc, herr]
  have hconsumed' : Function.update consumed .stderr (consumed .stderr ++ [d]) .stdout =
      total marker c stale .stdout := by
    rw [Function.update_of_ne (by simp), hconsumed]
  cases hl : ((s.reader .stderr).feed d).2 with
  | none =>
    obtain ⟨hvars, hphase'⟩ := Sys.read_of_none marker
      (s := { s with pipe := Function.update s.pipe .stderr rest }) hl
    refine .stderr (hphase'.trans hphase) hconsumed' hout' ?_ ?_
    · rw [Function.update_self]
      exact herr'
    · rw [Function.update_self, hvars, feedAll_snoc, ← herr, hl]
      simpa using hgoes
  | some l =>
    have hl' : ((feedAll {} (consumed .stderr)).1.feed d).2 = some l := by rw [← herr]; exact hl
    rcases onLine_of_feed hfresh (fun h => absurd h (by simp)) hfront hgoes hl' with
      ⟨v, hnext, hgoes'⟩ | ⟨htotal, hterminated, hleave⟩
    · obtain ⟨hvars, hphase'⟩ := Sys.read_of_next
        (s := { s with pipe := Function.update s.pipe .stderr rest }) hl hnext
      refine .stderr (hphase'.trans hphase) hconsumed' hout' ?_ ?_
      · rw [Function.update_self]
        exact herr'
      · rw [Function.update_self, hvars]
        exact hgoes'
    · obtain ⟨hvars, hphase'⟩ := Sys.read_of_leave
        (s := { s with pipe := Function.update s.pipe .stderr rest }) hl hleave
      refine .returned (hphase'.trans ?_) ?_ fun halive => ?_
      · simp [afterLoop, finish, varsAfter, Vars.setErrno]
      · rw [hvars]
        simp [varsAfter, Vars.setErrno]
      · -- both streams are complete, so nothing is left to write
        have hall : ∀ fd, Function.update consumed .stderr (consumed .stderr ++ [d]) fd =
            total marker c stale fd := by
          intro fd
          cases fd with
          | stdout => exact hconsumed'
          | stderr => rw [Function.update_self, htotal]
        refine ⟨hflow'.todo_eq_nil halive hall, fun fd =>
          ⟨(hflow'.text_written_of_total (hall fd)).1, ?_⟩⟩
        cases fd with
        | stdout => exact hout'
        | stderr => rw [herr', htotal, feedAll_total hfresh]

theorem stage_read_cut (hfresh : Fresh marker c stale)
    (hflow : Flow marker c stale s written lost consumed) {k : ℕ}
    (hphase : s.phase = .reading .stderr) (hdead : s.alive = false)
    (herr : s.reader .stderr = (feedAll {} (consumed .stderr)).1)
    (hcount : s.vars.markersSeen =
      k + (feedAll {} (consumed .stderr)).2.countP marker.isPrefixOf)
    (hk : k ≤ 1 ∨ k ≤ 2 ∧ text .stderr written <+: opening marker c .stderr)
    (hpipe : s.pipe .stderr = d :: rest) :
    Stage marker c stale (afterRead marker s .stderr rest d) written
      (Function.update consumed .stderr (consumed .stderr ++ [d])) := by
  have hbound := markersSeen_of_cut hfresh (flow_afterRead hflow hpipe) hk
  rw [Function.update_self] at hbound
  have hdead' : (afterRead marker s .stderr rest d).alive = false :=
    (Sys.read_frame marker .stderr _ d).2.1.trans hdead
  have herr' : (afterRead marker s .stderr rest d).reader .stderr =
      (feedAll {} (consumed .stderr ++ [d])).1 := by
    rw [reader_afterRead, if_pos rfl, feedAll_snoc, herr]
  cases hl : ((s.reader .stderr).feed d).2 with
  | none =>
    obtain ⟨hvars, hphase'⟩ := Sys.read_of_none marker
      (s := { s with pipe := Function.update s.pipe .stderr rest }) hl
    refine .cut k (hphase'.trans hphase) hdead' ?_ ?_ hk
    · rw [Function.update_self]
      exact herr'
    · rw [Function.update_self, hvars, feedAll_snoc, ← herr, hl]
      simpa using hcount
  | some l =>
    have hlines : (feedAll {} (consumed .stderr ++ [d])).2 =
        (feedAll {} (consumed .stderr)).2 ++ [l] := by
      rw [feedAll_snoc, ← herr, hl]
      rfl
    have hseen : ∀ v, onLine marker .stderr s.vars l = .next v ∨
        onLine marker .stderr s.vars l = .leave v → v.markersSeen =
          k + (feedAll {} (consumed .stderr ++ [d])).2.countP marker.isPrefixOf := by
      intro v hv
      rw [(counts_of_onLine hv).markersSeen, hcount, hlines, List.countP_append, Nat.add_assoc]
    cases honLine : onLine marker .stderr s.vars l with
    | next v =>
      obtain ⟨hvars, hphase'⟩ := Sys.read_of_next
        (s := { s with pipe := Function.update s.pipe .stderr rest }) hl honLine
      refine .cut k (hphase'.trans hphase) hdead' ?_ ?_ hk
      · rw [Function.update_self]
        exact herr'
      · rw [Function.update_self, hvars]
        exact hseen v (Or.inl honLine)
    | leave v =>
      obtain ⟨-, hphase'⟩ := Sys.read_of_leave
        (s := { s with pipe := Function.update s.pipe .stderr rest }) hl honLine
      have hle := countP_feedAll_le_marks marker (consumed .stderr ++ [d])
      have hv := hseen v (Or.inr honLine)
      exact .threw _ (hphase'.trans (finish_of_markersSeen (v := v) (by omega))) hdead'
    | throw =>
      exact .threw _ (Sys.read_of_throw
        (s := { s with pipe := Function.update s.pipe .stderr rest }) hl honLine) hdead'

theorem inv_read (hfresh : Fresh marker c stale) {fd : Fd} (h : Inv marker c stale s)
    (hphase : s.phase = .reading fd) (hpipe : s.pipe fd = d :: rest) :
    Inv marker c stale (afterRead marker s fd rest d) := by
  obtain ⟨written, lost, consumed, hflow, hstage⟩ := h
  refine ⟨written, lost, _, flow_afterRead hflow hpipe, ?_⟩
  cases hstage with
  | stdout hphase' hconsumed hout herr hgoes =>
    obtain rfl : fd = .stdout := Phase.reading.inj (hphase.symm.trans hphase')
    exact stage_read_stdout hfresh hflow hphase hconsumed hout herr hgoes hpipe
  | stderr hphase' hconsumed hout herr hgoes =>
    obtain rfl : fd = .stderr := Phase.reading.inj (hphase.symm.trans hphase')
    exact stage_read_stderr hfresh hflow hphase hconsumed hout herr hgoes hpipe
  | cut k hphase' hdead herr hcount hk =>
    obtain rfl : fd = .stderr := Phase.reading.inj (hphase.symm.trans hphase')
    exact stage_read_cut hfresh hflow hphase hdead herr hcount hk hpipe
  | returned hphase' => exact absurd (hphase.symm.trans hphase') (by simp)
  | threw e hphase' => exact absurd (hphase.symm.trans hphase') (by simp)

end Read

/-! ## The end of a stream -/

theorem afterLoop_ne (fd : Fd) (v : Vars) : afterLoop fd v ≠ .reading fd := by
  cases fd with
  | stdout => simp [afterLoop]
  | stderr =>
    simp only [afterLoop, finish]
    split_ifs <;> simp

/-- At the end of a stream the line that has been begun is read, and the loop is over. -/
theorem Sys.eof_spec (marker : JString) {fd : Fd} {s : Sys} (hphase : s.phase = .reading fd) :
    ((s.eof marker fd).phase = .threw .numberFormat ∧ (s.eof marker fd).alive = s.alive ∧
      (s.eof marker fd).todo = s.todo ∧ (s.eof marker fd).pipe = s.pipe) ∨
    ∃ v, Counts marker fd s.vars v (s.reader fd).pending ∧
      s.eof marker fd = { s with vars := v, phase := afterLoop fd v } := by
  unfold Sys.eof pending
  split_ifs with hpart
  · refine Or.inr ⟨s.vars, ⟨rfl, fun _ => rfl, fun _ => rfl⟩, ?_⟩
    rw [List.foldl_nil, if_pos hphase]
  · rw [List.foldl_cons, List.foldl_nil]
    unfold Sys.line
    cases hline : onLine marker fd s.vars (s.reader fd).part with
    | next v =>
      refine Or.inr ⟨v, counts_of_onLine (Or.inl hline), ?_⟩
      dsimp only
      rw [if_pos hphase]
    | leave v =>
      refine Or.inr ⟨v, counts_of_onLine (Or.inr hline), ?_⟩
      dsimp only
      rw [if_neg (afterLoop_ne fd v)]
    | throw => exact Or.inl ⟨by simp, by simp, by simp, by simp⟩

theorem inv_eof (hfresh : Fresh marker c stale) {s : Sys} {fd : Fd} (h : Inv marker c stale s)
    (hphase : s.phase = .reading fd) (hpipe : s.pipe fd = []) (hdead : s.alive = false) :
    Inv marker c stale (s.eof marker fd) := by
  obtain ⟨written, lost, consumed, hflow, hstage⟩ := h
  have hread : consumed fd = stale fd ++ text fd written := by
    rw [← hflow.pipe, hpipe, List.append_nil]
  rcases Sys.eof_spec marker hphase with ⟨hthrew, halive, htodo, hpipes⟩ | ⟨v, hcounts, heq⟩
  · exact ⟨written, lost, consumed, ⟨by rw [htodo]; exact hflow.script,
      by rw [halive]; exact hflow.lost, by rw [halive, htodo]; exact hflow.dead,
      by rw [hpipes]; exact hflow.pipe⟩, .threw _ hthrew (halive.trans hdead)⟩
  rw [heq]
  refine ⟨written, lost, consumed, ⟨hflow.script, hflow.lost, hflow.dead, hflow.pipe⟩, ?_⟩
  cases hstage with
  | stdout hphase' hconsumed hout herr hgoes =>
    obtain rfl : fd = .stdout := Phase.reading.inj (hphase.symm.trans hphase')
    have hseen : v.markersSeen = marks marker (consumed .stdout) := by
      rw [hcounts.markersSeen, (counts_of_goesAll hgoes).markersSeen, marks, readLines_eq_feedAll,
        List.countP_append, hout]
      simp
    refine .cut v.markersSeen rfl hdead ?_ ?_ ?_
    · rw [hconsumed]
      exact herr
    · rw [hconsumed]
      rfl
    · rcases text_of_written hflow.written_isFront with hcomplete | hopening
      · refine Or.inl ?_
        have htotal : consumed .stdout = total marker c stale .stdout := by
          rw [hread, hcomplete, total]
        have hterminated : ¬ Terminated (text .stdout c.writes) := by
          intro hterminated
          rw [htotal, goesAll_total_eq_none hfresh (fun _ => rfl) hterminated] at hgoes
          exact absurd hgoes (by simp)
        rw [hseen, htotal]
        exact (marks_total hfresh .stdout).2 hterminated
      · refine Or.inr ⟨?_, hopening⟩
        rw [hseen]
        exact (marks_mono hfresh.nonempty (hflow.consumed_isFront .stdout)).trans
          (marks_total hfresh .stdout).1
  | stderr hphase' hconsumed hout herr hgoes =>
    obtain rfl : fd = .stderr := Phase.reading.inj (hphase.symm.trans hphase')
    have hcounts' := (counts_of_goesAll hgoes).trans hcounts
    have herrno : v.errnoStdout = (c.status : ℕ) := hcounts'.errnoStdout rfl
    have hphase'' : ({ s with vars := v, phase := afterLoop .stderr v } : Sys).phase = finish v :=
      rfl
    unfold finish at hphase''
    split_ifs at hphase''
    · exact .threw _ hphase'' hdead
    · exact .threw _ hphase'' hdead
    · refine .returned (hphase''.trans (by rw [herrno])) (hcounts'.output rfl) fun halive => ?_
      exact absurd (halive.symm.trans hdead) (by simp)
  | cut k hphase' _ herr hcount hk =>
    obtain rfl : fd = .stderr := Phase.reading.inj (hphase.symm.trans hphase')
    have hseen : v.markersSeen = k + marks marker (consumed .stderr) := by
      rw [hcounts.markersSeen, hcount, marks, readLines_eq_feedAll, List.countP_append, herr,
        Nat.add_assoc]
    have hbound := markersSeen_of_cut hfresh hflow hk
    exact .threw _ (finish_of_markersSeen (v := v) (by omega)) hdead
  | returned hphase' => exact absurd (hphase.symm.trans hphase') (by simp)
  | threw e hphase' => exact absurd (hphase.symm.trans hphase') (by simp)

theorem inv_step (hfresh : Fresh marker c stale) {s s' : Sys} (h : Inv marker c stale s)
    (hstep : Step marker capacity s s') : Inv marker c stale s' := by
  cases hstep with
  | write htodo _ => exact inv_write h htodo
  | read hphase hpipe => exact inv_read hfresh h hphase hpipe
  | eof hphase hpipe hdead => exact inv_eof hfresh h hphase hpipe hdead
  | die halive => exact inv_die h halive

theorem inv_of_reachable (hfresh : Fresh marker c stale) {s : Sys}
    (h : Reachable marker capacity c stale s) : Inv marker c stale s := by
  induction h with
  | refl => exact inv_begin
  | tail _ hstep ih => exact inv_step hfresh ih hstep

end RootShell
end AioVpn
