import AioVpn.Coroutine.Trace
import AioVpn.Home.AttemptSpec

/-!
# The candidate loop of Smart Auto

`connectSmartAuto` from the point on where the candidates are known, run with nothing else in
between.  An `Attempt` is one round of the loop: a candidate, the environment from then on and the
state it meets.  It succeeds if its configuration is fetched, brought up and validated.

`run_round_of_succeeds` and `run_round_of_fails` are what a round does: it ends connected to its
candidate, or with nothing running.  `attempts` are the rounds of the loop, and
`smart_auto_fails_over` says that they are made in order, that the last one is the first that
succeeds, and how the loop ends.
-/

namespace AioVpn
namespace HomeActivity

open Coroutine

variable (net : NetApi) (packageName : JString)

/-! ## An attempt -/

/-- One round of the loop: the candidate, the environment of its steps and of those that follow,
and the state at its start. -/
structure Attempt where
  candidate : WgServerDto
  env : ℕ → HomeEnv
  state : HomeState

namespace Attempt

variable (a : Attempt)

/-- The state in which the configuration is fetched. -/
def atFetch : HomeState :=
  (MainBlock.showText (jstr "Connecting to " ++ a.candidate.displayName ++ jstr "...")).run a.state

/-- What the fetch answers. -/
def fetched : Except HomeExn JString := repoWgConfig (a.env 1)

/-- The state after the fetch. -/
def logged (text : JString) : HomeState :=
  { a.atFetch with finalConfigs := (a.candidate.id, text) :: a.atFetch.finalConfigs }

/-- What bringing it up does. -/
def broughtUp (text : JString) : Except HomeExn Unit × HomeState :=
  (backend (WireGuardBackend.connect text)).runAlone (perform net packageName)
    (fun n => a.env (n + 2)) (a.logged text)

/-- The number of steps of bringing it up. -/
def stepsUp (text : JString) : ℕ :=
  ((backend (WireGuardBackend.connect text)).trace (perform net packageName)
    (fun n => a.env (n + 2)) (a.logged text)).length

/-- What the validator answers, after the two steps that follow. -/
def working (text : JString) : Bool := (a.env (a.stepsUp net packageName text + 4)).working

/-- **All three succeed**: fetching the configuration, bringing it up and validating it. -/
def succeeds : Bool :=
  match a.fetched with
  | .error _ => false
  | .ok text => (a.broughtUp net packageName text).1.isOk && a.working net packageName text

end Attempt

/-- One round of the loop; it answers with the exception of a failed attempt. -/
def round (candidate : WgServerDto) : HomeProg (Option HomeExn) :=
  (Prog.bind (tryCandidate candidate) fun _ => .pure none).tryCatch fun e =>
    disconnectQuietly.bind fun _ => .pure (some e)

/-! ## The backend, run alone -/

section Backend

/-- A body of the backend, run alone, changes the backend only. -/
theorem runAlone_backend {α : Type} (p : WgProg α) (env : ℕ → HomeEnv) (s : HomeState) :
    (backend p).runAlone (perform net packageName) env s =
      ((p.runAlone (WireGuardBackend.perform net packageName) (fun n => (env n).wg)
          s.wg).1.mapError HomeExn.backend,
        { s with wg := (p.runAlone (WireGuardBackend.perform net packageName)
            (fun n => (env n).wg) s.wg).2 }) := by
  induction p generalizing env s with
  | pure a => rfl
  | throw e => rfl
  | op o k ih => exact ih _ (fun n => env (n + 1)) _

variable {net packageName}

/-- `connect`, run alone: its configuration runs, or it throws. -/
theorem run_connect (net : NetApi) (packageName : JString) {env : ℕ → HomeEnv}
    (hgranted : ∀ n, (env n).wg.prepareIntent = false)
    {s : HomeState} (hs : LinkedHome s) (text : JString) :
    (∃ w, (backend (WireGuardBackend.connect text)).runAlone (perform net packageName) env s =
        (.ok (), { s with wg := w }) ∧ WireGuardBackend.Linked w ∧
        ∃ t c, Config.parse net text = .ok c.config ∧ GoBackend.RunningWith t c w.go) ∨
      ∃ e w, (backend (WireGuardBackend.connect text)).runAlone (perform net packageName) env s =
        (.error e, { s with wg := w }) ∧ WireGuardBackend.Linked w := by
  have hwp : (WireGuardBackend.quiet net packageName alwaysGranted).wp _ _ _ s.wg :=
    WireGuardBackend.wp_connect text hs
  have henv : ∀ o n w, alwaysGranted o (env n).wg w := fun _ n _ _ => hgranted n
  have hend := Contract.runAlone_of_wp henv hwp
  rw [runAlone_backend]
  generalize (WireGuardBackend.connect text).runAlone (WireGuardBackend.perform net packageName)
    (fun n => (env n).wg) s.wg = x at hend
  obtain ⟨result, w⟩ := x
  rcases hend with ⟨a, rfl, hconnected⟩ | ⟨e, rfl, hconnected⟩
  · refine Or.inl ⟨w, rfl, hconnected.linked hs, ?_⟩
    cases hconnected with
    | asked _ hA => exact absurd granted_alwaysGranted hA
    | up t c _ hlinked hparse hrunning => exact ⟨t, c, hparse, hlinked.inv.runningWith hrunning⟩
  · exact Or.inr ⟨_, w, rfl, hconnected.linked hs⟩

/-- The clean-up after a failed attempt leaves nothing running. -/
theorem run_disconnectQuietly {env : ℕ → HomeEnv}
    (hgranted : ∀ n, (env n).wg.prepareIntent = false) {s : HomeState} (hs : LinkedHome s) :
    ∃ w, disconnectQuietly.runAlone (perform net packageName) env s = (.ok (), { s with wg := w }) ∧
      WireGuardBackend.Linked w ∧ GoBackend.running w.go = none := by
  have hwp : (WireGuardBackend.quiet net packageName alwaysGranted).wp _ _ _ s.wg :=
    WireGuardBackend.wp_disconnect hs
  have henv : ∀ o n w, alwaysGranted o (env n).wg w := fun _ n _ _ => hgranted n
  have hend := Contract.runAlone_of_wp henv hwp
  have hrun := runAlone_backend net packageName WireGuardBackend.disconnect env s
  generalize WireGuardBackend.disconnect.runAlone (WireGuardBackend.perform net packageName)
    (fun n => (env n).wg) s.wg = x at hend hrun
  obtain ⟨result, w⟩ := x
  rcases hend with ⟨a, rfl, hlinked, hnone, -⟩ | ⟨e, -, hfalse⟩
  · exact ⟨w, (Prog.run_tryCatch_of_ok _ _ hrun).1, hlinked, hnone⟩
  · exact hfalse.elim

end Backend

/-! ## One round -/

/-- What follows the bring-up in an attempt. -/
def verify (candidate : WgServerDto) : HomeProg Unit :=
  (step (.main (.verifying (jstr "Verifying " ++ candidate.displayName ++ jstr "...")))).bind
    fun _ => (step .delay).bind fun _ =>
      (validateTunnelOrThrow (some candidate.displayName)).bind fun _ =>
        (step (.setCurrentConnectedServerLabel candidate.displayName)).bind fun _ =>
          (step (.saveLastGood candidate.id candidate.displayName)).bind fun _ =>
            step (.main (.connected candidate.id (jstr "Smart Auto • " ++ candidate.displayName)))

theorem tryCandidate_eq (candidate : WgServerDto) :
    tryCandidate candidate =
      (step (.main (.showText (jstr "Connecting to " ++ candidate.displayName ++
        jstr "...")))).bind fun _ => (step (.wgConfig candidate.id)).bind fun r =>
          (Prog.ofExcept r).bind fun text =>
            (backend (WireGuardBackend.connect text)).bind fun _ => verify candidate := by
  simp only [tryCandidate, fetchAndConnect, verify, Prog.bind_def, Prog.bind_assoc]

section Round

variable {net packageName}

/-- The screen of a connection to the candidate. -/
def connectedTo (candidate : WgServerDto) (s : HomeState) : HomeState :=
  { s with
    currentVpnState := .connected
    selectedServerText := jstr "Smart Auto • " ++ candidate.displayName
    currentConnectedServerLabel := some candidate.displayName
    lastGood := some ⟨candidate.id, candidate.displayName⟩ }

variable (net packageName) in
/-- The validator decides. -/
theorem run_verify (candidate : WgServerDto) (env : ℕ → HomeEnv) (s : HomeState) :
    ((env 2).working = true →
        (verify candidate).runAlone (perform net packageName) env s =
          (.ok (), connectedTo candidate s)) ∧
      ((env 2).working = false →
        ∃ e, (verify candidate).runAlone (perform net packageName) env s =
          (.error e, (MainBlock.verifying (jstr "Verifying " ++ candidate.displayName ++
            jstr "...")).run s)) := by
  have hstart : ∀ ok, (env 2).working = ok →
      (verify candidate).runAlone (perform net packageName) env s =
        Prog.runAlone (perform net packageName) (fun n => env (n + 3))
          ((if ok then Pure.pure () else Prog.throw (.illegalState
              (WgTunnelValidator.failureMessage (some candidate.displayName))) :
            HomeProg Unit).bind fun _ =>
            (step (.setCurrentConnectedServerLabel candidate.displayName)).bind fun _ =>
              (step (.saveLastGood candidate.id candidate.displayName)).bind fun _ =>
                step (.main (.connected candidate.id
                  (jstr "Smart Auto • " ++ candidate.displayName))))
          ((MainBlock.verifying (jstr "Verifying " ++ candidate.displayName ++
            jstr "...")).run s) := by
    rintro _ rfl
    rfl
  constructor
  · intro hok
    rw [hstart true hok]
    rfl
  · intro hok
    rw [hstart false hok]
    exact ⟨_, rfl⟩

/-- What follows the fetch in an attempt. -/
def bringUpAndVerify (candidate : WgServerDto) (r : Except HomeExn JString) : HomeProg Unit :=
  (Prog.ofExcept r).bind fun text =>
    (backend (WireGuardBackend.connect text)).bind fun _ => verify candidate

/-- The fetch is the second step of an attempt. -/
theorem run_fetch (a : Attempt) {r : Except HomeExn JString} {s₁ : HomeState}
    (h : perform net packageName (.wgConfig a.candidate.id) (a.env 1) a.atFetch = (r, s₁)) :
    (tryCandidate a.candidate).runAlone (perform net packageName) a.env a.state =
        (bringUpAndVerify a.candidate r).runAlone (perform net packageName)
          (fun n => a.env (n + 2)) s₁ ∧
      (tryCandidate a.candidate).trace (perform net packageName) a.env a.state =
        (.main (.showText (jstr "Connecting to " ++ a.candidate.displayName ++ jstr "...")),
            a.state) :: (.wgConfig a.candidate.id, a.atFetch) ::
          (bringUpAndVerify a.candidate r).trace (perform net packageName)
            (fun n => a.env (n + 2)) s₁ := by
  have hsplit : perform net packageName (.wgConfig a.candidate.id) (a.env 1) a.atFetch =
      ((perform net packageName (.wgConfig a.candidate.id) (a.env 1) a.atFetch).1,
        (perform net packageName (.wgConfig a.candidate.id) (a.env 1) a.atFetch).2) := rfl
  rw [hsplit] at h
  obtain ⟨rfl, rfl⟩ := Prod.mk.inj h
  rw [tryCandidate_eq]
  exact ⟨rfl, rfl⟩

variable (net packageName) in
/-- What the fetch answers, and the state after it. -/
theorem perform_fetch (a : Attempt) :
    (∃ e, a.fetched = .error e ∧
        perform net packageName (.wgConfig a.candidate.id) (a.env 1) a.atFetch =
          (.error e, a.atFetch)) ∨
      ∃ text, a.fetched = .ok text ∧
        perform net packageName (.wgConfig a.candidate.id) (a.env 1) a.atFetch =
          (.ok text, a.logged text) := by
  cases hfetched : a.fetched with
  | error e => exact Or.inl ⟨e, rfl, perform_wgConfig_of_error _ _ hfetched⟩
  | ok text => exact Or.inr ⟨text, rfl, perform_wgConfig_of_ok _ _ hfetched⟩

/-- What a successful attempt leaves: the configuration that was fetched runs, the candidate is the
last good server, and the screen shows the connection. -/
structure EndsConnected (net : NetApi) (a : Attempt) (s : HomeState) : Prop where
  running : ∃ text t c, a.fetched = .ok text ∧ Config.parse net text = .ok c.config ∧
    GoBackend.RunningWith t c s.wg.go
  lastGood : s.lastGood = some ⟨a.candidate.id, a.candidate.displayName⟩
  shown : s.currentVpnState = .connected

/-- **An attempt**: it ends connected if all three succeed, and throws otherwise. -/
theorem run_tryCandidate (a : Attempt) (hgranted : ∀ n, (a.env n).wg.prepareIntent = false)
    (hs : LinkedHome a.state) :
    (a.succeeds net packageName = true →
        ∃ s', (tryCandidate a.candidate).runAlone (perform net packageName) a.env a.state =
          (.ok (), s') ∧ EndsConnected net a s') ∧
      (a.succeeds net packageName = false →
        ∃ e s', (tryCandidate a.candidate).runAlone (perform net packageName) a.env a.state =
          (.error e, s') ∧ LinkedHome s' ∧ s'.lastGood = a.state.lastGood) := by
  rw [Attempt.succeeds]
  rcases perform_fetch net packageName a with
    ⟨e, hfetched, hperform⟩ | ⟨text, hfetched, hperform⟩
  · rw [(run_fetch a hperform).1, hfetched]
    exact ⟨fun h => absurd h (by simp), fun _ => ⟨e, a.atFetch, rfl, hs, rfl⟩⟩
  · rw [(run_fetch a hperform).1, hfetched, bringUpAndVerify, Prog.ofExcept, Prog.pure_bind]
    have hlogged : LinkedHome (a.logged text) := hs
    dsimp only
    rw [Attempt.broughtUp, Attempt.working, Attempt.stepsUp]
    rcases run_connect net packageName (fun n => hgranted (n + 2)) hlogged text with
      ⟨w, hrun, hlinked, t, c, hparse, hrunning⟩ | ⟨e, w, hrun, hlinked⟩
    · rw [(Prog.run_bind_of_ok _ _ hrun).1, hrun]
      set k := ((backend (WireGuardBackend.connect text)).trace (perform net packageName)
        (fun n => a.env (n + 2)) (a.logged text)).length
      obtain ⟨hverified, hrejected⟩ := run_verify net packageName a.candidate
        (fun n => a.env (n + k + 2)) { a.logged text with wg := w }
      have hindex : 2 + k + 2 = k + 4 := by omega
      rw [hindex] at hverified hrejected
      constructor
      · intro h
        exact ⟨_, hverified h, ⟨text, t, c, hfetched, hparse, hrunning⟩, rfl, rfl⟩
      · intro h
        obtain ⟨e, hend⟩ := hrejected h
        exact ⟨e, _, hend, hlinked, rfl⟩
    · rw [(Prog.run_bind_of_error _ _ hrun).1, hrun]
      exact ⟨fun h => absurd h (by simp [Except.isOk, Except.toBool]),
        fun _ => ⟨e, _, rfl, hlinked, rfl⟩⟩

/-- The configurations that are fetched in a run: of which server, and in which state. -/
def fetches (steps : List (HomeOp × HomeState)) : List (ℤ × HomeState) :=
  steps.filterMap fun x =>
    match x.1 with
    | .wgConfig serverId => some (serverId, x.2)
    | _ => none

/-- The steps that fetch no configuration. -/
def NoFetch : HomeOp → Prop
  | .wgConfig _ => False
  | _ => True

theorem fetches_eq_nil {steps : List (HomeOp × HomeState)} (h : ∀ x ∈ steps, NoFetch x.1) :
    fetches steps = [] := by
  rw [fetches, List.filterMap_eq_nil_iff]
  intro x hx
  have hop := h x hx
  split
  · rename_i hfetch
    rw [hfetch] at hop
    exact hop.elim
  · rfl

theorem onlyOps_bringUpAndVerify (candidate : WgServerDto) (r : Except HomeExn JString) :
    (bringUpAndVerify candidate r).OnlyOps NoFetch :=
  (Prog.OnlyOps.ofExcept r).bind fun _ =>
    (onlyOps_backend (fun _ => trivial) _).bind fun _ =>
      (Prog.OnlyOps.perform (by trivial)).bind fun _ =>
        (Prog.OnlyOps.perform (by trivial)).bind fun _ =>
          (onlyOps_validateTunnelOrThrow (by trivial) _).bind fun _ =>
            (Prog.OnlyOps.perform (by trivial)).bind fun _ =>
              (Prog.OnlyOps.perform (by trivial)).bind fun _ =>
                Prog.OnlyOps.perform (by trivial)

theorem onlyOps_disconnectQuietly : disconnectQuietly.OnlyOps NoFetch :=
  (onlyOps_backend (fun _ => trivial) _).tryCatch fun _ => trivial

variable (net packageName) in
/-- An attempt fetches one configuration. -/
theorem fetches_tryCandidate (a : Attempt) :
    fetches ((tryCandidate a.candidate).trace (perform net packageName) a.env a.state) =
      [(a.candidate.id, a.atFetch)] := by
  have hrest : ∀ r s₁, fetches ((bringUpAndVerify a.candidate r).trace
      (perform net packageName) (fun n => a.env (n + 2)) s₁) = [] := fun r s₁ =>
    fetches_eq_nil (Prog.mem_trace_of_onlyOps (onlyOps_bringUpAndVerify _ _))
  rw [(run_fetch a Prod.mk.eta.symm).2]
  exact congrArg (List.cons _) (hrest _ _)

/-- The end of a successful round. -/
theorem run_round_of_succeeds {a : Attempt} (hgranted : ∀ n, (a.env n).wg.prepareIntent = false)
    (hs : LinkedHome a.state) (h : a.succeeds net packageName = true) :
    ∃ s', (round a.candidate).runAlone (perform net packageName) a.env a.state = (.ok none, s') ∧
      EndsConnected net a s' := by
  obtain ⟨s', hrun, hends⟩ := (run_tryCandidate a hgranted hs).1 h
  have hbind := (Prog.run_bind_of_ok _ (fun _ => .pure (none : Option HomeExn)) hrun).1
  exact ⟨s', (Prog.run_tryCatch_of_ok _ _ hbind).1, hends⟩

/-- The end of a failed one. -/
theorem run_round_of_fails {a : Attempt} (hgranted : ∀ n, (a.env n).wg.prepareIntent = false)
    (hs : LinkedHome a.state) (h : a.succeeds net packageName = false) :
    ∃ e s', (round a.candidate).runAlone (perform net packageName) a.env a.state =
        (.ok (some e), s') ∧ LinkedHome s' ∧ Down s' ∧ s'.lastGood = a.state.lastGood := by
  obtain ⟨e, s₁, hrun, hlinked, hlastGood⟩ := (run_tryCandidate a hgranted hs).2 h
  have hbind := (Prog.run_bind_of_error _ (fun _ => .pure (none : Option HomeExn)) hrun).1
  have hcatch := (Prog.run_tryCatch_of_error _
    (fun e => disconnectQuietly.bind fun _ => .pure (some e)) hbind).1
  obtain ⟨w, hclean, hlinked', hnone⟩ := run_disconnectQuietly (fun n => hgranted (n + _)) hlinked
  have hend := (Prog.run_bind_of_ok _ (fun _ => .pure (some e)) hclean).1
  exact ⟨e, _, hcatch.trans hend, hlinked', hnone, hlastGood⟩

theorem fetches_append (l m : List (HomeOp × HomeState)) :
    fetches (l ++ m) = fetches l ++ fetches m := List.filterMap_append

variable (net packageName) in
/-- A round fetches one configuration. -/
theorem fetches_round (a : Attempt) (hgranted : ∀ n, (a.env n).wg.prepareIntent = false)
    (hs : LinkedHome a.state) :
    fetches ((round a.candidate).trace (perform net packageName) a.env a.state) =
      [(a.candidate.id, a.atFetch)] := by
  have hfetch := fetches_tryCandidate net packageName a
  cases hsucceeds : a.succeeds net packageName with
  | true =>
    obtain ⟨s', hrun, -⟩ := (run_tryCandidate a hgranted hs).1 hsucceeds
    obtain ⟨hbind, hbindTrace⟩ :=
      Prog.run_bind_of_ok _ (fun _ => .pure (none : Option HomeExn)) hrun
    rw [round, (Prog.run_tryCatch_of_ok _ _ hbind).2, hbindTrace, fetches_append, hfetch]
    rfl
  | false =>
    obtain ⟨e, s₁, hrun, -⟩ := (run_tryCandidate a hgranted hs).2 hsucceeds
    obtain ⟨hbind, hbindTrace⟩ :=
      Prog.run_bind_of_error _ (fun _ => .pure (none : Option HomeExn)) hrun
    have hclean : (disconnectQuietly.bind fun _ => .pure (some e)).OnlyOps NoFetch :=
      onlyOps_disconnectQuietly.bind fun _ => trivial
    rw [round, (Prog.run_tryCatch_of_error _ _ hbind).2, hbindTrace, fetches_append, hfetch,
      fetches_eq_nil (Prog.mem_trace_of_onlyOps hclean), List.append_nil]

end Round

/-! ## The loop -/

/-- **The attempts of the loop**: after a failed one comes the next candidate, on the rest of the
environment. -/
def attempts : List WgServerDto → (ℕ → HomeEnv) → HomeState → List Attempt
  | [], _, _ => []
  | candidate :: rest, env, s =>
      ⟨candidate, env, s⟩ ::
        if Attempt.succeeds net packageName ⟨candidate, env, s⟩ then []
        else
          attempts rest
            (fun n => env (n + ((round candidate).trace (perform net packageName) env s).length))
            ((round candidate).runAlone (perform net packageName) env s).2

/-- `connectSmartAuto` from the loop on. -/
def tryCandidates (candidates : List WgServerDto) : HomeProg Unit :=
  (candidateLoop candidates none).tryCatch fun _ => step (.main (.failed (jstr "Smart Auto")))

/-- The configurations that the loop fetches. -/
def loopFetches (candidates : List WgServerDto) (env : ℕ → HomeEnv) (s : HomeState) :
    List (ℤ × HomeState) :=
  fetches ((tryCandidates candidates).trace (perform net packageName) env s)

/-- The state in which the loop ends. -/
def loopEnd (candidates : List WgServerDto) (env : ℕ → HomeEnv) (s : HomeState) : HomeState :=
  ((tryCandidates candidates).runAlone (perform net packageName) env s).2

/-- **The loop fails over** from one candidate to the next. -/
structure FailsOver (candidates : List WgServerDto) (env : ℕ → HomeEnv) (s : HomeState) :
    Prop where
  /-- Each attempt fetches one configuration, and nothing else does. -/
  fetched : loopFetches net packageName candidates env s =
    (attempts net packageName candidates env s).map fun a => (a.candidate.id, a.atFetch)
  inOrder : (attempts net packageName candidates env s).map Attempt.candidate <+: candidates
  failed : ∀ a ∈ (attempts net packageName candidates env s).dropLast,
    a.succeeds net packageName = false
  takenDown : ∀ x ∈ (loopFetches net packageName candidates env s).tail, Down x.2
  connected : ∀ a, (attempts net packageName candidates env s).getLast? = some a →
    a.succeeds net packageName = true →
      EndsConnected net a (loopEnd net packageName candidates env s)
  noneWorks : (∀ a ∈ attempts net packageName candidates env s,
      a.succeeds net packageName = false) →
    (attempts net packageName candidates env s).map Attempt.candidate = candidates ∧
      Down (loopEnd net packageName candidates env s) ∧
      (loopEnd net packageName candidates env s).lastGood = s.lastGood ∧
      (loopEnd net packageName candidates env s).currentVpnState = .disconnected

section Loop

variable {net packageName}

/-- The loop is what is left of the job when the candidates are known. -/
theorem run_connectSmartAuto {forceFresh : Bool} {env : ℕ → HomeEnv} {s s₁ : HomeState}
    {candidates : List WgServerDto}
    (h : (smartCandidates forceFresh).runAlone (perform net packageName) env s =
      (.ok candidates, s₁)) :
    (connectSmartAuto forceFresh).runAlone (perform net packageName) env s =
      (tryCandidates candidates).runAlone (perform net packageName)
        (fun n => env (n + ((smartCandidates forceFresh).trace (perform net packageName) env
          s).length)) s₁ :=
  Prog.run_bind_tryCatch_of_ok _ _ _ h

/-- A round that succeeds ends the loop. -/
theorem run_candidateLoop_of_none {candidate : WgServerDto} {rest : List WgServerDto}
    {lastError : Option HomeExn} {env : ℕ → HomeEnv} {s s' : HomeState}
    (h : (round candidate).runAlone (perform net packageName) env s = (.ok none, s')) :
    (candidateLoop (candidate :: rest) lastError).runAlone (perform net packageName) env s =
        (.ok (), s') ∧
      fetches ((candidateLoop (candidate :: rest) lastError).trace (perform net packageName) env
          s) =
        fetches ((round candidate).trace (perform net packageName) env s) := by
  rw [candidateLoop, ← round]
  obtain ⟨hrun, htrace⟩ := Prog.run_bind_of_ok _ _ h
  refine ⟨hrun, ?_⟩
  rw [htrace, fetches_append]
  exact List.append_nil _

/-- After one that fails it goes on. -/
theorem run_candidateLoop_of_some {candidate : WgServerDto} {rest : List WgServerDto}
    {lastError : Option HomeExn} {env : ℕ → HomeEnv} {s s' : HomeState} {e : HomeExn}
    (h : (round candidate).runAlone (perform net packageName) env s = (.ok (some e), s')) :
    (candidateLoop (candidate :: rest) lastError).runAlone (perform net packageName) env s =
        (candidateLoop rest (some e)).runAlone (perform net packageName)
          (fun n => env (n + ((round candidate).trace (perform net packageName) env s).length))
          s' ∧
      fetches ((candidateLoop (candidate :: rest) lastError).trace (perform net packageName) env
          s) =
        fetches ((round candidate).trace (perform net packageName) env s) ++
          fetches ((candidateLoop rest (some e)).trace (perform net packageName)
            (fun n => env (n + ((round candidate).trace (perform net packageName) env s).length))
            s') := by
  rw [candidateLoop, ← round]
  obtain ⟨hrun, htrace⟩ := Prog.run_bind_of_ok _ _ h
  exact ⟨hrun, by rw [htrace, fetches_append]⟩

variable {candidate : WgServerDto} {rest candidates : List WgServerDto} {env : ℕ → HomeEnv}
  {s : HomeState}

theorem attempts_of_succeeds (h : Attempt.succeeds net packageName ⟨candidate, env, s⟩ = true) :
    attempts net packageName (candidate :: rest) env s = [⟨candidate, env, s⟩] := by
  rw [attempts, if_pos h]

theorem attempts_of_fails (h : Attempt.succeeds net packageName ⟨candidate, env, s⟩ = false) :
    attempts net packageName (candidate :: rest) env s =
      ⟨candidate, env, s⟩ :: attempts net packageName rest
        (fun n => env (n + ((round candidate).trace (perform net packageName) env s).length))
        ((round candidate).runAlone (perform net packageName) env s).2 := by
  rw [attempts, if_neg (by simp [h])]

/-- **In order, each at most once.** -/
theorem map_candidate_attempts (candidates : List WgServerDto) (env : ℕ → HomeEnv)
    (s : HomeState) :
    (attempts net packageName candidates env s).map Attempt.candidate <+: candidates := by
  induction candidates generalizing env s with
  | nil => exact List.prefix_refl _
  | cons candidate rest ih =>
    cases h : Attempt.succeeds net packageName ⟨candidate, env, s⟩ with
    | true =>
      rw [attempts_of_succeeds h]
      exact List.prefix_append [candidate] rest
    | false =>
      rw [attempts_of_fails h, List.map_cons, List.prefix_cons_inj]
      exact ih _ _

/-- **Up to the first that succeeds.** -/
theorem fails_of_mem_dropLast (candidates : List WgServerDto) (env : ℕ → HomeEnv)
    (s : HomeState) :
    ∀ a ∈ (attempts net packageName candidates env s).dropLast,
      a.succeeds net packageName = false := by
  induction candidates generalizing env s with
  | nil => exact fun _ h => absurd h (by simp [attempts])
  | cons candidate rest ih =>
    cases h : Attempt.succeeds net packageName ⟨candidate, env, s⟩ with
    | true =>
      rw [attempts_of_succeeds h]
      exact fun _ h => absurd h (by simp)
    | false =>
      rw [attempts_of_fails h]
      intro a ha
      rcases eq_or_ne (attempts net packageName rest _ _) [] with hnil | hne
      · rw [hnil] at ha
        exact absurd ha (by simp)
      · rw [List.dropLast_cons_of_ne_nil hne] at ha
        rcases List.mem_cons.mp ha with rfl | ha
        · exact h
        · exact ih _ _ a ha

/-- The handler around the loop fetches nothing. -/
theorem fetches_tryCandidates (candidates : List WgServerDto) (env : ℕ → HomeEnv)
    (s : HomeState) :
    fetches ((tryCandidates candidates).trace (perform net packageName) env s) =
      fetches ((candidateLoop candidates none).trace (perform net packageName) env s) := by
  cases hrun : (candidateLoop candidates none).runAlone (perform net packageName) env s with
  | mk result s' =>
    cases result with
    | ok u => rw [tryCandidates, (Prog.run_tryCatch_of_ok _ _ hrun).2]
    | error e =>
      rw [tryCandidates, (Prog.run_tryCatch_of_error _ _ hrun).2, fetches_append]
      exact List.append_nil _

section Granted

variable (hgranted : ∀ n, (env n).wg.prepareIntent = false) (hs : LinkedHome s)

include hgranted hs

/-- The configurations that the loop fetches are those of its attempts. -/
theorem fetches_candidateLoop (lastError : Option HomeExn) :
    fetches ((candidateLoop candidates lastError).trace (perform net packageName) env s) =
      (attempts net packageName candidates env s).map fun a => (a.candidate.id, a.atFetch) := by
  induction candidates generalizing env s lastError with
  | nil => rfl
  | cons candidate rest ih =>
    have hround := fetches_round net packageName ⟨candidate, env, s⟩ hgranted hs
    cases h : Attempt.succeeds net packageName ⟨candidate, env, s⟩ with
    | true =>
      obtain ⟨s', hrun, -⟩ := run_round_of_succeeds hgranted hs h
      rw [(run_candidateLoop_of_none hrun).2, hround, attempts_of_succeeds h]
      rfl
    | false =>
      obtain ⟨e, s', hrun, hlinked, -⟩ := run_round_of_fails hgranted hs h
      rw [(run_candidateLoop_of_some hrun).2, hround, attempts_of_fails h, hrun,
        ih (fun n => hgranted _) hlinked]
      rfl

/-- While nothing runs, nothing runs when a configuration is fetched. -/
theorem down_of_mem_attempts (hdown : Down s) :
    ∀ a ∈ attempts net packageName candidates env s, Down a.atFetch := by
  induction candidates generalizing env s with
  | nil => exact fun _ h => absurd h (by simp [attempts])
  | cons candidate rest ih =>
    cases h : Attempt.succeeds net packageName ⟨candidate, env, s⟩ with
    | true =>
      rw [attempts_of_succeeds h]
      intro a ha
      obtain rfl := List.mem_singleton.mp ha
      exact hdown
    | false =>
      obtain ⟨e, s', hrun, hlinked, hdown', -⟩ := run_round_of_fails hgranted hs h
      rw [attempts_of_fails h, hrun]
      intro a ha
      rcases List.mem_cons.mp ha with rfl | ha
      · exact hdown
      · exact ih (fun n => hgranted _) hlinked hdown' a ha

/-- **After a failed attempt** nothing runs when the next configuration is fetched. -/
theorem down_of_mem_tail : ∀ a ∈ (attempts net packageName candidates env s).tail,
    Down a.atFetch := by
  cases candidates with
  | nil => exact fun _ h => absurd h (by simp [attempts])
  | cons candidate rest =>
    cases h : Attempt.succeeds net packageName ⟨candidate, env, s⟩ with
    | true =>
      rw [attempts_of_succeeds h]
      exact fun _ h => absurd h (by simp)
    | false =>
      obtain ⟨e, s', hrun, hlinked, hdown', -⟩ := run_round_of_fails hgranted hs h
      rw [attempts_of_fails h, hrun, List.tail_cons]
      exact down_of_mem_attempts (fun n => hgranted _) hlinked hdown'

/-- **How the loop ends**: connected to the candidate of the last attempt, which has succeeded, or
with an exception after all have failed. -/
theorem run_candidateLoop (lastError : Option HomeExn) :
    (∃ a s', (attempts net packageName candidates env s).getLast? = some a ∧
        a.succeeds net packageName = true ∧
        (candidateLoop candidates lastError).runAlone (perform net packageName) env s =
          (.ok (), s') ∧ EndsConnected net a s') ∨
      ((attempts net packageName candidates env s).map Attempt.candidate = candidates ∧
        (∀ a ∈ attempts net packageName candidates env s, a.succeeds net packageName = false) ∧
        ∃ e s', (candidateLoop candidates lastError).runAlone (perform net packageName) env s =
          (.error e, s') ∧ s'.lastGood = s.lastGood ∧ (candidates ≠ [] ∨ Down s → Down s')) := by
  induction candidates generalizing env s lastError with
  | nil =>
    refine Or.inr ⟨rfl, fun _ h => absurd h (by simp [attempts]), _, s, rfl, rfl, ?_⟩
    rintro (h | h)
    · exact absurd rfl h
    · exact h
  | cons candidate rest ih =>
    cases h : Attempt.succeeds net packageName ⟨candidate, env, s⟩ with
    | true =>
      obtain ⟨s', hrun, hends⟩ := run_round_of_succeeds hgranted hs h
      rw [attempts_of_succeeds h]
      exact Or.inl ⟨_, s', rfl, h, (run_candidateLoop_of_none hrun).1, hends⟩
    | false =>
      obtain ⟨e, s', hrun, hlinked, hdown, hlastGood⟩ := run_round_of_fails hgranted hs h
      rw [attempts_of_fails h, (run_candidateLoop_of_some hrun).1, hrun]
      rcases ih (fun n => hgranted _) hlinked (some e) with
        ⟨a, s'', hlast, hsucceeds, hend, hconnected⟩ | ⟨hall, hfail, e', s'', hend, hkept, hdown'⟩
      · refine Or.inl ⟨a, s'', ?_, hsucceeds, hend, hconnected⟩
        rw [List.getLast?_cons, hlast, Option.getD_some]
      · refine Or.inr ⟨?_, ?_, e', s'', hend, hkept.trans hlastGood, fun _ => hdown' (Or.inr hdown)⟩
        · rw [List.map_cons, hall]
        · rw [List.forall_mem_cons]
          exact ⟨h, hfail⟩

/-- **Smart Auto fails over to the first working candidate.**  The configurations are fetched for a
first part of the candidates, in order; all attempts but the last have failed; from the second on
nothing runs when a configuration is fetched.  If the last attempt succeeds, its configuration runs
at the end, its candidate is the last good server and the screen shows the connection.  If none
does, all candidates were tried, nothing runs, the last good server is the one it was and the
screen shows no connection. -/
theorem smart_auto_fails_over (hne : candidates ≠ []) :
    FailsOver net packageName candidates env s := by
  have hfetched : loopFetches net packageName candidates env s =
      (attempts net packageName candidates env s).map fun a => (a.candidate.id, a.atFetch) :=
    (fetches_tryCandidates candidates env s).trans (fetches_candidateLoop hgranted hs none)
  have htakenDown : ∀ x ∈ (loopFetches net packageName candidates env s).tail, Down x.2 := by
    rw [hfetched, ← List.map_tail]
    intro x hx
    obtain ⟨a, ha, rfl⟩ := List.mem_map.mp hx
    exact down_of_mem_tail hgranted hs a ha
  refine ⟨hfetched, map_candidate_attempts candidates env s, fails_of_mem_dropLast candidates env s,
    htakenDown, fun a hlast hsucceeds => ?_, fun hnone => ?_⟩
  · have hmem := List.mem_of_getLast? hlast
    rcases run_candidateLoop hgranted hs none with ⟨a', s', hlast', -, hrun, hends⟩ | ⟨-, hfail, -⟩
    · have hend : loopEnd net packageName candidates env s = s' :=
        congrArg Prod.snd (Prog.run_tryCatch_of_ok _ _ hrun).1
      obtain rfl := Option.some.inj (hlast'.symm.trans hlast)
      rw [hend]
      exact hends
    · exact absurd ((hfail a hmem).symm.trans hsucceeds) (by simp)
  · rcases run_candidateLoop hgranted hs none with
      ⟨a, s', hlast, hsucceeds, -⟩ | ⟨hall, -, e, s', hrun, hkept, hdown⟩
    · have hmem := List.mem_of_getLast? hlast
      exact absurd ((hnone a hmem).symm.trans hsucceeds) (by simp)
    · have hend : loopEnd net packageName candidates env s =
          (MainBlock.failed (jstr "Smart Auto")).run s' :=
        congrArg Prod.snd (Prog.run_tryCatch_of_error _ _ hrun).1
      rw [hend]
      exact ⟨hall, hdown (Or.inl hne), hkept, rfl⟩

end Granted

end Loop

/-- Two candidates. -/
def firstCandidate : WgServerDto := ⟨1, jstr "first", jstr "192.0.2.1", none⟩

@[inherit_doc firstCandidate]
def secondCandidate : WgServerDto := ⟨2, jstr "second", jstr "192.0.2.2", none⟩

/-- The first fetch fails; then everything succeeds. -/
def secondWorks (n : ℕ) : HomeEnv :=
  if n < 4 then {}
  else
    { token := some (jstr "token")
      wgConfig := some (jstr
        "[Interface]\nPrivateKey = AAECAwQFBgcICQoLDA0ODxAREhMUFRYXGBkaGxwdHh8=\n")
      working := true }

/-- The attempt on the second of them. -/
def secondAttempt : Attempt where
  candidate := secondCandidate
  env n := secondWorks (n + ((round firstCandidate).trace
    (perform GoBackend.noAddresses GoBackend.applicationId) secondWorks {}).length)
  state := ((round firstCandidate).runAlone
    (perform GoBackend.noAddresses GoBackend.applicationId) secondWorks {}).2

theorem second_candidate_connects :
    EndsConnected GoBackend.noAddresses secondAttempt
      (loopEnd GoBackend.noAddresses GoBackend.applicationId [firstCandidate, secondCandidate]
        secondWorks {}) := by
  have hgranted : ∀ n, (secondWorks n).wg.prepareIntent = false := by
    intro n
    rw [secondWorks]
    split <;> rfl
  have hlinked : LinkedHome {} :=
    ⟨GoBackend.inv_init false, fun t c h => absurd h (by simp [GoBackend.running])⟩
  have hfails : Attempt.succeeds GoBackend.noAddresses GoBackend.applicationId
      ⟨firstCandidate, secondWorks, {}⟩ = false := by decide
  have hsucceeds : secondAttempt.succeeds GoBackend.noAddresses GoBackend.applicationId = true := by
    decide +kernel
  have hlast : (attempts GoBackend.noAddresses GoBackend.applicationId
      [firstCandidate, secondCandidate] secondWorks {}).getLast? = some secondAttempt := by
    rw [attempts_of_fails hfails]
    exact congrArg (fun l => List.getLast? (_ :: l)) (attempts_of_succeeds hsucceeds)
  exact (smart_auto_fails_over hgranted hlinked (by decide)).connected secondAttempt hlast hsucceeds

end HomeActivity
end AioVpn
