import AioVpn.Shell.MarkerProtocol

/-!
# What a call of the root shell returns, and when

Three results about `RootShell.run`, for every order of the steps of the shell and the app.

* `returned_status`: a call that returns has the exit status and the output of its command,
  also when the shell dies in the middle of it.
* `returns_iff_fits`: every run ends; while the shell lives, a call returns in every run if
  what the command writes to standard error fits into the pipe, and in none otherwise.  The
  reason is that standard output is read to its end first.
* `session_results`: the calls on one shell do not disturb each other, and all return if each
  of them has room.
-/

namespace AioVpn
namespace RootShell

open JString LineReader

variable {marker : JString} {capacity : ℕ} {c : Command} {stale : Fd → JString}

/-! ## Every run ends -/

/-- How far a call is from its end. -/
def Phase.rank : Phase → ℕ
  | .reading .stdout => 2
  | .reading .stderr => 1
  | .returned _ => 0
  | .threw _ => 0

/-- What is left to do: a character is written and then read. -/
def Sys.measure (s : Sys) : ℕ :=
  2 * s.todo.length + (s.pipe .stdout).length + (s.pipe .stderr).length + s.phase.rank +
    s.alive.toNat

theorem rank_afterLoop_lt (fd : Fd) (v : Vars) :
    (afterLoop fd v).rank < (Phase.reading fd).rank := by
  cases fd with
  | stdout => simp [afterLoop, Phase.rank]
  | stderr =>
    simp only [afterLoop, finish]
    split_ifs <;> simp [Phase.rank]

theorem rank_line_le {fd : Fd} {s : Sys} (hphase : s.phase = .reading fd) (l : JString) :
    (s.line marker fd l).phase.rank ≤ s.phase.rank := by
  unfold Sys.line
  split
  · exact le_rfl
  · rw [hphase]
    exact (rank_afterLoop_lt fd _).le
  · exact Nat.zero_le _

theorem rank_read_le {fd : Fd} {s : Sys} (hphase : s.phase = .reading fd) (d : JChar) :
    (s.read marker fd d).phase.rank ≤ s.phase.rank := by
  unfold Sys.read
  cases ((s.reader fd).feed d).2 with
  | none => exact le_rfl
  | some l =>
    exact rank_line_le (s := { s with reader := Function.update s.reader fd _ }) hphase l

theorem measure_lt_of_step {s s' : Sys} (h : Step marker capacity s s') :
    s'.measure < s.measure := by
  cases h with
  | @write fd d rest htodo _ =>
    simp only [Sys.measure, htodo, List.length_cons]
    cases fd <;> simp <;> omega
  | @read fd d rest hphase hpipe =>
    obtain ⟨htodo, halive, hpipe', -⟩ :=
      Sys.read_frame marker fd { s with pipe := Function.update s.pipe fd rest } d
    have hrank : ({ s with pipe := Function.update s.pipe fd rest }.read marker fd d).phase.rank ≤
        s.phase.rank :=
      rank_read_le (s := { s with pipe := Function.update s.pipe fd rest }) hphase d
    simp only [Sys.measure, htodo, halive, hpipe']
    cases fd <;> simp [hpipe] <;> omega
  | @eof fd hphase hpipe hdead =>
    rcases Sys.eof_spec marker hphase with ⟨hthrew, halive, htodo, hpipes⟩ | ⟨v, -, heq⟩
    · have hrank : 0 < s.phase.rank := by
        rw [hphase]
        cases fd <;> simp [Phase.rank]
      have hzero : (Phase.threw .numberFormat).rank = 0 := rfl
      simp only [Sys.measure, hthrew, halive, htodo, hpipes, hzero]
      omega
    · have hrank := rank_afterLoop_lt fd v
      rw [← hphase] at hrank
      simp only [Sys.measure, heq]
      omega
  | die halive =>
    simp only [Sys.measure, halive, List.length_nil, Bool.toNat_true, Bool.toNat_false]
    omega

variable (marker capacity) in
/-- **Every run ends.** -/
theorem wellFounded_step : WellFounded fun s' s => Step marker capacity s s' :=
  Subrelation.wf measure_lt_of_step (InvImage.wf Sys.measure Nat.lt_wfRel.wf)

/-! ## Room for standard error -/

/-- What the command writes to standard error fits into the pipe, together with what is left
there and the first marker. -/
def Fits (marker : JString) (capacity : ℕ) (c : Command) (stale : Fd → JString) : Prop :=
  (stale .stderr ++ opening marker c .stderr).length ≤ capacity

instance : Decidable (Fits marker capacity c stale) :=
  inferInstanceAs (Decidable ((stale .stderr ++ opening marker c .stderr).length ≤ capacity))

/-- Nothing can happen but that the shell dies. -/
def Blocked (marker : JString) (capacity : ℕ) (s : Sys) : Prop :=
  ∀ s', Step marker capacity s s' → s'.alive = false

theorem todo_of_blocked {s : Sys} (h : Blocked marker capacity s) (halive : s.alive = true)
    {fd : Fd} {d : JChar} {rest : List (Fd × JChar)} (htodo : s.todo = (fd, d) :: rest) :
    capacity ≤ (s.pipe fd).length := by
  by_contra hroom
  have hdead := h _ (.write htodo (by omega))
  exact absurd (halive.symm.trans hdead) (by simp)

theorem pipe_of_blocked {s : Sys} (h : Blocked marker capacity s) (halive : s.alive = true)
    {fd : Fd} (hphase : s.phase = .reading fd) : s.pipe fd = [] := by
  cases hpipe : s.pipe fd with
  | nil => rfl
  | cons d rest =>
    have hdead := h _ (.read hphase hpipe)
    rw [(Sys.read_frame marker fd { s with pipe := Function.update s.pipe fd rest } d).2.1] at hdead
    exact absurd (halive.symm.trans hdead) (by simp)

/-- **With room, a call that cannot go on has returned.** -/
theorem returned_of_blocked (hfresh : Fresh marker c stale)
    (hterminated : ∀ fd, Terminated (text fd c.writes)) (hfits : Fits marker capacity c stale)
    {s : Sys} (h : Inv marker c stale s) (halive : s.alive = true)
    (hblocked : Blocked marker capacity s) : s.phase = .returned (c.status : ℕ) := by
  obtain ⟨written, lost, consumed, hflow, hstage⟩ := h
  have hroom : 0 < capacity := by
    have hpos : 0 < (stale .stderr ++ opening marker c .stderr).length := by simp [opening]
    exact hpos.trans_le hfits
  have hwritten : written ++ s.todo = script marker c := by
    have hscript := hflow.script
    rwa [hflow.lost halive, List.append_nil] at hscript
  -- a stream whose loop is still running has not been read to its end
  have hshort : ∀ {fd : Fd} {v v' : Vars}, (fd = .stdout → v.markersSeen = 0) →
      goesAll marker fd v (feedAll {} (consumed fd)).2 = some v' →
      consumed fd ≠ total marker c stale fd := by
    intro fd v v' hv hgoes htotal
    rw [htotal, goesAll_total_eq_none hfresh hv (hterminated fd)] at hgoes
    exact absurd hgoes (by simp)
  cases hstage with
  | stdout hphase hconsumed hout herr hgoes =>
    exfalso
    have hpipe := pipe_of_blocked hblocked halive hphase
    have hread := hflow.pipe .stdout
    rw [hpipe, List.append_nil] at hread
    have hne := hshort (fun _ => rfl) hgoes
    rcases text_of_written hflow.written_isFront with hcomplete | hopening
    · exact hne (by rw [hread, hcomplete, total])
    cases htodo : s.todo with
    | nil =>
      rw [htodo, List.append_nil] at hwritten
      exact hne (by rw [hread, hwritten, total])
    | cons w rest =>
      obtain ⟨fd, d⟩ := w
      have hfull := todo_of_blocked hblocked halive htodo
      cases fd with
      | stdout =>
        rw [hpipe] at hfull
        exact absurd hfull (by simp; omega)
      | stderr =>
        -- one more character of standard error than the pipe can hold
        have herrpipe := hflow.pipe .stderr
        rw [hconsumed, List.nil_append] at herrpipe
        have hnext : text .stderr (written ++ [(.stderr, d)]) <+: opening marker c .stderr := by
          have hfront : written ++ [(Fd.stderr, d)] <+: script marker c :=
            ⟨rest, by rw [← hwritten, htodo, List.append_assoc]; rfl⟩
          refine (text_of_written hfront).resolve_left fun hcomplete => hne ?_
          rw [text_append, text_cons_of_ne (by simp), text_nil, List.append_nil] at hcomplete
          rw [hread, hcomplete, total]
        have hle := hnext.length_le
        rw [text_append, text_cons_self, List.length_append, text_nil] at hle
        rw [Fits, List.length_append] at hfits
        rw [herrpipe, List.length_append] at hfull
        simp only [List.length_cons, List.length_nil] at hle
        omega
  | stderr hphase hconsumed hout herr hgoes =>
    exfalso
    have hpipe := pipe_of_blocked hblocked halive hphase
    have hread := hflow.pipe .stderr
    rw [hpipe, List.append_nil] at hread
    have hne := hshort (fun h => absurd h (by simp)) hgoes
    cases htodo : s.todo with
    | nil =>
      rw [htodo, List.append_nil] at hwritten
      exact hne (by rw [hread, hwritten, total])
    | cons w rest =>
      obtain ⟨fd, d⟩ := w
      have hfull := todo_of_blocked hblocked halive htodo
      cases fd with
      | stdout =>
        have htext := congrArg (text .stdout) hwritten
        rw [text_append, (hflow.text_written_of_total hconsumed).2, htodo, text_cons_self] at htext
        exact absurd (List.append_right_eq_self.mp htext) (by simp)
      | stderr =>
        rw [hpipe] at hfull
        exact absurd hfull (by simp; omega)
  | cut k _ hdead => exact absurd (halive.symm.trans hdead) (by simp)
  | returned hphase => exact hphase
  | threw e _ hdead => exact absurd (halive.symm.trans hdead) (by simp)

/-- A pipe never holds more than it can. -/
theorem pipe_le_of_reachable (hstale : ∀ fd, (stale fd).length ≤ capacity) {s : Sys}
    (h : Reachable marker capacity c stale s) (fd : Fd) : (s.pipe fd).length ≤ capacity := by
  induction h generalizing fd with
  | refl => exact hstale fd
  | @tail s s' _ hstep ih =>
    cases hstep with
    | @write fd' d rest htodo hroom =>
      dsimp only
      by_cases hfd : fd = fd'
      · subst hfd
        rw [Function.update_self, List.length_append, List.length_singleton]
        exact hroom
      · rw [Function.update_of_ne hfd]
        exact ih fd
    | @read fd' d rest hphase hpipe =>
      rw [(Sys.read_frame marker fd' { s with pipe := Function.update s.pipe fd' rest } d).2.2.1]
      dsimp only
      by_cases hfd : fd = fd'
      · subst hfd
        have hle := ih fd
        rw [hpipe, List.length_cons] at hle
        rw [Function.update_self]
        omega
      · rw [Function.update_of_ne hfd]
        exact ih fd
    | @eof fd' hphase hpipe hdead =>
      rcases Sys.eof_spec marker hphase with ⟨-, -, -, hpipes⟩ | ⟨v, -, heq⟩
      · rw [hpipes]
        exact ih fd
      · rw [heq]
        exact ih fd
    | die _ => exact ih fd

/-- Standard output alone does not make a call return. -/
theorem read_stdout_ne_returned {s : Sys} (hphase : s.phase = .reading .stdout) (d : JChar)
    (n : ℤ) : (s.read marker .stdout d).phase ≠ .returned n := by
  unfold Sys.read
  cases ((s.reader .stdout).feed d).2 with
  | none => simp [hphase]
  | some l =>
    simp only [Option.elim_some, Sys.line]
    split <;> simp [hphase, afterLoop]

theorem Sys.alive_eof {fd : Fd} {s : Sys} (hphase : s.phase = .reading fd) :
    (s.eof marker fd).alive = s.alive := by
  rcases Sys.eof_spec marker hphase with ⟨-, halive, -⟩ | ⟨v, -, heq⟩
  · exact halive
  · rw [heq]

/-- **Without room, a call does not come to standard error.** -/
theorem reading_stdout_of_not_fits (hfresh : Fresh marker c stale)
    (hstale : ∀ fd, (stale fd).length ≤ capacity) (hfits : ¬ Fits marker capacity c stale)
    {s : Sys} (h : Reachable marker capacity c stale s) (halive : s.alive = true) :
    s.phase = .reading .stdout := by
  induction h with
  | refl => rfl
  | @tail s s' hs hstep ih =>
    cases hstep with
    | write _ _ => exact ih halive
    | @read fd d rest hphase hpipe =>
      have hframe := Sys.read_frame marker fd { s with pipe := Function.update s.pipe fd rest } d
      rw [hframe.2.1] at halive
      obtain rfl : fd = .stdout := Phase.reading.inj (hphase.symm.trans (ih halive))
      obtain ⟨written, lost, consumed, hflow, hstage⟩ := inv_of_reachable hfresh hs
      cases hstage with
      | stdout _ hconsumed hout herr hgoes =>
        have hflow' : Flow marker c stale (afterRead marker s .stdout rest d) written lost _ :=
          flow_afterRead hflow hpipe
        cases stage_read_stdout hfresh hflow hphase hconsumed hout herr hgoes hpipe with
        | stdout hphase' => exact hphase'
        | stderr _ htotal =>
          -- all of standard error would be in the pipe
          have hopening := opening_of_complete hflow.written_isFront
            (hflow'.text_written_of_total htotal).2
          have hpipe' := hflow.pipe .stderr
          rw [hconsumed, List.nil_append] at hpipe'
          have hle := pipe_le_of_reachable hstale hs .stderr
          rw [hpipe', List.length_append] at hle
          refine absurd ?_ hfits
          rw [Fits, List.length_append]
          have := hopening.length_le
          omega
        | cut k _ hdead => exact absurd (hdead.symm.trans (hframe.2.1.trans halive)) (by simp)
        | returned hphase' =>
          exact absurd hphase' (read_stdout_ne_returned
            (s := { s with pipe := Function.update s.pipe .stdout rest }) hphase d _)
        | threw e _ hdead => exact absurd (hdead.symm.trans (hframe.2.1.trans halive)) (by simp)
      | stderr hphase' => exact absurd (hphase.symm.trans hphase') (by simp)
      | cut k hphase' => exact absurd (hphase.symm.trans hphase') (by simp)
      | returned hphase' => exact absurd (hphase.symm.trans hphase') (by simp)
      | threw e hphase' => exact absurd (hphase.symm.trans hphase') (by simp)
    | eof hphase _ hdead =>
      rw [Sys.alive_eof hphase, hdead] at halive
      exact absurd halive (by simp)
    | die _ => exact absurd halive (by simp)

/-! ## The results -/

/-- Nothing is left over from the last call. -/
structure Quiet (s : Sys) : Prop where
  pipe : ∀ fd, s.pipe fd = []
  reader : ∀ fd, s.reader fd = {}

/-- What is known when a call has returned. -/
theorem spec_of_returned (hfresh : Fresh marker c stale) {s : Sys}
    (h : Reachable marker capacity c stale s) {n : ℤ} (hreturned : s.phase = .returned n) :
    n = (c.status : ℕ) ∧ s.vars.output = readLines (text .stdout c.writes) ∧
      (s.alive = true → Quiet s) := by
  obtain ⟨written, lost, consumed, -, hstage⟩ := inv_of_reachable hfresh h
  cases hstage with
  | stdout hphase => exact absurd (hreturned.symm.trans hphase) (by simp)
  | stderr hphase => exact absurd (hreturned.symm.trans hphase) (by simp)
  | cut k hphase => exact absurd (hreturned.symm.trans hphase) (by simp)
  | returned hphase houtput hquiet =>
    exact ⟨Phase.returned.inj (hreturned.symm.trans hphase), houtput, fun halive =>
      ⟨fun fd => ((hquiet halive).2 fd).1, fun fd => ((hquiet halive).2 fd).2⟩⟩
  | threw e hphase => exact absurd (hreturned.symm.trans hphase) (by simp)

variable (capacity) in
/-- With room, some run returns. -/
theorem exists_returned (hfresh : Fresh marker c stale)
    (hterminated : ∀ fd, Terminated (text fd c.writes)) (hfits : Fits marker capacity c stale) :
    ∃ s, Reachable marker capacity c stale s ∧ s.alive = true ∧
      s.phase = .returned (c.status : ℕ) := by
  suffices h : ∀ s, Reachable marker capacity c stale s → s.alive = true →
      ∃ s', Reachable marker capacity c stale s' ∧ s'.alive = true ∧
        s'.phase = .returned (c.status : ℕ) from h _ .refl rfl
  intro s
  induction s using (wellFounded_step marker capacity).induction with
  | _ s ih =>
    intro hs halive
    by_cases hblocked : Blocked marker capacity s
    · exact ⟨s, hs, halive, returned_of_blocked hfresh hterminated hfits
        (inv_of_reachable hfresh hs) halive hblocked⟩
    · rw [Blocked] at hblocked
      push Not at hblocked
      obtain ⟨s', hstep, halive'⟩ := hblocked
      exact ih s' hstep (hs.tail hstep) (by simpa using halive')

/-- `echo ok`. -/
def echoOk : Command := ⟨echo .stdout (jstr "ok"), 0⟩

theorem fresh_echoOk : Fresh (jstr "M") echoOk fun _ => [] where
  nonempty := by decide
  oneLine := by
    intro d hd
    obtain rfl : d = ch 'M' := by simpa [jstr] using hd
    decide
  terminated := fun _ => rfl
  stale := fun _ line hline => absurd hline (by simp [readLines])
  lines := by
    intro fd line hline _
    cases fd with
    | stdout =>
      obtain rfl : line = jstr "ok" := by
        have hlines : readLines (text .stdout echoOk.writes) = [jstr "ok"] := by decide
        rw [hlines] at hline
        exact List.mem_singleton.mp hline
      decide
    | stderr => exact absurd hline (by simp [echoOk, text_echo_of_ne, readLines])

theorem terminated_echoOk (fd : Fd) : Terminated (text fd echoOk.writes) := by
  cases fd <;> decide

/-- **A call returns the status and the output of its command.**  Let the marker be fresh, and
what is left in the pipes be whole lines.  For every order of the steps of the shell and the
app, every capacity of the pipes and every moment at which the shell may die: if the call
returns, the number it returns is the exit status of the command, and the lines it has appended
to the list are the lines of the command's output. -/
theorem returned_status (hfresh : Fresh marker c stale) {s : Sys}
    (h : Reachable marker capacity c stale s) {n : ℤ} (hreturned : s.phase = .returned n) :
    n = (c.status : ℕ) ∧ s.vars.output = readLines (text .stdout c.writes) := by
  obtain ⟨hn, houtput, -⟩ := spec_of_returned hfresh h hreturned
  exact ⟨hn, houtput⟩

theorem returned_status_echoOk :
    ∃ s, Reachable (jstr "M") 64 echoOk (fun _ => []) s ∧ s.phase = .returned 0 ∧
      s.vars.output = [jstr "ok"] := by
  obtain ⟨s, hs, -, hreturned⟩ :=
    exists_returned 64 fresh_echoOk terminated_echoOk (by decide)
  exact ⟨s, hs, hreturned, (returned_status fresh_echoOk hs hreturned).2.trans (by decide)⟩

/-- **When a call returns.**  Every run of the shell and the app ends.  Let the marker be fresh
and the command end its last lines, and let the shell live.  If what is left on standard error,
the first marker and what the command writes there fit into the pipe, then a run that cannot go
on has returned the exit status.  If they do not fit, no run leaves the loop over standard
output: the shell waits for room on standard error, and the app for standard output. -/
theorem returns_iff_fits (capacity : ℕ) (hfresh : Fresh marker c stale)
    (hterminated : ∀ fd, Terminated (text fd c.writes))
    (hstale : ∀ fd, (stale fd).length ≤ capacity) :
    (WellFounded fun s' s => Step marker capacity s s') ∧
    (Fits marker capacity c stale →
      ∀ s, Reachable marker capacity c stale s → s.alive = true → Blocked marker capacity s →
        s.phase = .returned (c.status : ℕ)) ∧
    (¬ Fits marker capacity c stale →
      ∀ s, Reachable marker capacity c stale s → s.alive = true → s.phase = .reading .stdout) :=
  ⟨wellFounded_step marker capacity,
    fun hfits _ hs halive hblocked => returned_of_blocked hfresh hterminated hfits
      (inv_of_reachable hfresh hs) halive hblocked,
    fun hfits _ hs halive => reading_stdout_of_not_fits hfresh hstale hfits hs halive⟩

theorem returns_iff_fits_echoOk :
    (∀ s, Reachable (jstr "M") 64 echoOk (fun _ => []) s → s.alive = true →
      Blocked (jstr "M") 64 s → s.phase = .returned 0) ∧
    ∀ s, Reachable (jstr "M") 1 echoOk (fun _ => []) s → s.alive = true →
      s.phase = .reading .stdout :=
  ⟨(returns_iff_fits 64 fresh_echoOk terminated_echoOk fun _ => by simp).2.1
      (by decide),
    (returns_iff_fits 1 fresh_echoOk terminated_echoOk fun _ => by simp).2.2
      (by decide)⟩

/-! ## Many calls -/

/-- The next call on the same shell: the pipes and the readers are as the last one left them. -/
def call (marker : JString) (c : Command) (s : Sys) : Sys :=
  { todo := script marker c, alive := s.alive, pipe := s.pipe, reader := s.reader }

/-- Calls one after the other, each with its marker and command, and what they return. -/
inductive Session (capacity : ℕ) : Sys → List (JString × Command) → List (ℤ × List JString) →
    Sys → Prop
  | nil (s : Sys) : Session capacity s [] [] s
  | call {s s' s'' : Sys} {marker : JString} {c : Command} {calls : List (JString × Command)}
      {n : ℤ} {results : List (ℤ × List JString)} :
      Relation.ReflTransGen (Step marker capacity) (call marker c s) s' → s'.phase = .returned n →
      Session capacity s' calls results s'' →
      Session capacity s ((marker, c) :: calls) ((n, s'.vars.output) :: results) s''

theorem call_of_quiet {s : Sys} (hquiet : Quiet s) (halive : s.alive = true) (marker : JString)
    (c : Command) : call marker c s = begin marker c fun _ => [] := by
  rw [call, begin, halive, funext hquiet.pipe, funext hquiet.reader]

theorem alive_of_step {s s' : Sys} (h : Step marker capacity s s') (halive : s'.alive = true) :
    s.alive = true := by
  cases h with
  | write _ _ => exact halive
  | @read fd d rest _ _ =>
    have hframe := Sys.read_frame marker fd { s with pipe := Function.update s.pipe fd rest } d
    rwa [hframe.2.1] at halive
  | eof hphase _ _ => rwa [Sys.alive_eof hphase] at halive
  | die h => exact h

theorem alive_of_run {s s' : Sys} (h : Relation.ReflTransGen (Step marker capacity) s s')
    (halive : s'.alive = true) : s.alive = true := by
  induction h with
  | refl => exact halive
  | tail _ hstep ih => exact ih (alive_of_step hstep halive)

theorem alive_of_session {s s' : Sys} {calls : List (JString × Command)}
    {results : List (ℤ × List JString)} (h : Session capacity s calls results s')
    (halive : s'.alive = true) : s.alive = true := by
  induction h with
  | nil s => exact halive
  | call hrun _ _ ih =>
    have hcall := alive_of_run hrun (ih halive)
    exact hcall

/-- What the calls return, and what they leave. -/
theorem results_of_session {s s' : Sys} {calls : List (JString × Command)}
    {results : List (ℤ × List JString)} (h : Session capacity s calls results s')
    (hfresh : ∀ x ∈ calls, Fresh x.1 x.2 fun _ => []) (hquiet : Quiet s)
    (halive : s'.alive = true) :
    results = calls.map (fun x => ((x.2.status : ℤ), readLines (text .stdout x.2.writes))) ∧
      Quiet s' := by
  induction h with
  | nil s => exact ⟨rfl, hquiet⟩
  | @call s s₁ s'' marker c calls n results hrun hreturned hrest ih =>
    obtain ⟨hc, hcalls⟩ := List.forall_mem_cons.mp hfresh
    have halive₁ := alive_of_session hrest halive
    have halive₀ : s.alive = true := by
      have hcall := alive_of_run hrun halive₁
      exact hcall
    have hreach : Reachable marker capacity c (fun _ => []) s₁ := by
      rw [call_of_quiet hquiet halive₀] at hrun
      exact hrun
    obtain ⟨hn, houtput, hquiet₁⟩ := spec_of_returned hc hreach hreturned
    obtain ⟨hresults, hquiet'⟩ := ih hcalls (hquiet₁ halive₁) halive
    refine ⟨?_, hquiet'⟩
    rw [hresults, hn, houtput]
    rfl

/-- Commands that end their lines and do not write too much can all be run. -/
theorem exists_session {calls : List (JString × Command)}
    (hfresh : ∀ x ∈ calls, Fresh x.1 x.2 fun _ => [])
    (hcalls : ∀ x ∈ calls, (∀ fd, Terminated (text fd x.2.writes)) ∧
      Fits x.1 capacity x.2 fun _ => []) {s : Sys} (hquiet : Quiet s) (halive : s.alive = true) :
    ∃ results s', Session capacity s calls results s' ∧ s'.alive = true := by
  induction calls generalizing s with
  | nil => exact ⟨[], s, .nil s, halive⟩
  | cons x calls ih =>
    obtain ⟨hx, hfresh⟩ := List.forall_mem_cons.mp hfresh
    obtain ⟨⟨hterminated, hfits⟩, hcalls⟩ := List.forall_mem_cons.mp hcalls
    obtain ⟨s₁, hreach, halive₁, hreturned⟩ := exists_returned capacity hx hterminated hfits
    obtain ⟨-, -, hquiet₁⟩ := spec_of_returned hx hreach hreturned
    obtain ⟨results, s', hsession, halive'⟩ := ih hfresh hcalls (hquiet₁ halive₁) halive₁
    rw [Reachable, ← call_of_quiet hquiet halive] at hreach
    exact ⟨_, s', .call hreach hreturned hsession, halive'⟩

/-- **The calls on one shell do not disturb each other.**  Start with a living shell and nothing
left over, and make calls one after the other, each with a marker that is fresh for its command.
Whenever the calls return and the shell is alive at the end, the results are, call by call, the
exit status and the output lines of the command, and nothing is left over.  They can all return
if each command ends its lines and leaves room on standard error. -/
theorem session_results (capacity : ℕ) {calls : List (JString × Command)}
    (hfresh : ∀ x ∈ calls, Fresh x.1 x.2 fun _ => []) {s : Sys} (hquiet : Quiet s)
    (halive : s.alive = true) :
    (∀ results s', Session capacity s calls results s' → s'.alive = true →
      results = calls.map (fun x => ((x.2.status : ℤ), readLines (text .stdout x.2.writes))) ∧
        Quiet s') ∧
    ((∀ x ∈ calls, (∀ fd, Terminated (text fd x.2.writes)) ∧
        Fits x.1 capacity x.2 fun _ => []) →
      ∃ results s', Session capacity s calls results s' ∧ s'.alive = true) :=
  ⟨fun _ _ h halive' => results_of_session h hfresh hquiet halive',
    fun hcalls => exists_session hfresh hcalls hquiet halive⟩

theorem session_results_echoOk :
    ∃ s', Session 64 { todo := [] } [(jstr "M", echoOk), (jstr "M", echoOk)]
      [(0, [jstr "ok"]), (0, [jstr "ok"])] s' ∧ Quiet s' := by
  have hquiet : Quiet { todo := [] } := ⟨fun _ => rfl, fun _ => rfl⟩
  have hfresh : ∀ x ∈ [(jstr "M", echoOk), (jstr "M", echoOk)], Fresh x.1 x.2 fun _ => [] := by
    simp [fresh_echoOk]
  have hfits : Fits (jstr "M") 64 echoOk fun _ => [] := by decide
  obtain ⟨hresults, hexists⟩ := session_results 64 hfresh hquiet rfl
  obtain ⟨results, s', hsession, halive⟩ := hexists (by simp [terminated_echoOk, hfits])
  obtain ⟨rfl, hquiet'⟩ := hresults results s' hsession halive
  have hlines : readLines (text .stdout echoOk.writes) = [jstr "ok"] := by decide
  simp only [List.map_cons, List.map_nil, hlines] at hsession
  exact ⟨s', hsession, hquiet'⟩

end RootShell
end AioVpn
