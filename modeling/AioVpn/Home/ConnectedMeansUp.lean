import AioVpn.Home.DisconnectedMeansDown

/-!
# Connected means up

The callers of `connect` distinguish two outcomes, return and exception, but it has
three: it also returns, with nothing brought up, after it has asked the user for
permission.  The attempt then goes on, the validator finds a working network (the one
without a tunnel), and the attempt saves the server as good and shows `CONNECTED`
(`connected_without_tunnel`).

In every run of one attempt at a time in which permission is granted beforehand,
connected means up: whenever an attempt is about to save a server or to show
`CONNECTED`, the flag is set and the configuration that runs is the one fetched for
that server (`connected_means_up`).  No dialog is ever open in such a run
(`noDialog_run`), so the permission results need no condition of their own.
-/

namespace AioVpn
namespace HomeActivity

open Coroutine

variable (net : NetApi) (packageName : JString)

/-! ## The runs considered -/

/-- The job calls `connect` or `disconnect`. -/
def Job.usesBackend : Job → Bool
  | .selectSmartAutoAndConnect => false
  | .updateUiFromBackendState => false
  | _ => true

/-- No such job is unfinished. -/
def backendIdle (c : HomeConf) : Bool :=
  c.threads.all fun t => !(t.job.usesBackend && t.body.running)

/-- One attempt at a time: an attempt or a disconnect is started only when none is
unfinished.  Resumes and permission results come at any time. -/
def oneAttempt (c : HomeConf) : Act Event HomeEnv → Bool
  | .event e => !e.isClick || backendIdle c
  | .step i _ =>
      match c.threads[i]? with
      | some ⟨_, .op .startSmartAuto _⟩ => backendIdle c
      | _ => true

/-- And permission is granted beforehand. -/
def oneAttemptGranted (c : HomeConf) : Act Event HomeEnv → Bool
  | .event e => oneAttempt c (.event e)
  | .step i env =>
      oneAttempt c (.step i env) &&
        match c.threads[i]? with
        | some ⟨_, .op o _⟩ => permissionGranted o env
        | _ => true

/-! ## The jobs -/

/-- The attempt owes what `Owes` says, and nobody else touches the backend
meanwhile. -/
def attemptContract : Contract HomeOp HomeOp.Res HomeEnv HomeState where
  perform := perform net packageName
  assume := fun o env _ => permissionGranted o env = true
  assert := Owes net
  rely := Same
  rely_refl := Same.refl
  rely_trans := Same.trans

theorem serves_attemptContract : Serves net packageName (attemptContract net packageName) where
  perform_eq := rfl
  rely := fun _ _ h => h
  granted := by
    intro env s h
    have hgranted : permissionGranted (.wg .prepare) env = true := h
    simpa [permissionGranted] using hgranted
  assert := fun _ _ h => h

/-- A step of the other jobs: nothing is owed at it, and a job that uses the backend is
launched only by Smart Auto. -/
def harmless (o : HomeOp) (k : o.Res → HomeProg (Option Job)) : Prop :=
  Free o ∧ ∀ r job, (k r).launched = some job →
    job.usesBackend = false ∨ (o = .startSmartAuto ∧ job.isOperation = true)

/-- One attempt at a time, each of which owes `Owes`. -/
def upTracking : Tracking HomeOp HomeOp.Res HomeExn HomeEnv HomeState Job where
  contract := attemptContract net packageName
  tracked := fun job => job.usesBackend = true
  light := harmless
  inv := LinkedHome
  pre
    | .onActivityResult, _ => False
    | _, s => LinkedHome s

theorem nodes_harmless (job : Job) (hjob : ¬ job.usesBackend = true) :
    (bodyOf job).Nodes harmless := by
  cases job with
  | selectSmartAutoAndConnect =>
    refine ⟨⟨trivial, fun r job h => ?_⟩, fun r => ?_⟩
    · cases r <;> exact absurd h (by simp [Prog.ofExcept, step, Prog.perform])
    · cases r with
      | error e => trivial
      | ok u =>
        refine ⟨⟨trivial, fun launched job h => ?_⟩, fun launched => ?_⟩
        · cases launched with
          | false => exact absurd h (by simp)
          | true =>
            obtain rfl : Job.connectSmartAuto true = job := Option.some.inj h
            exact Or.inr ⟨rfl, rfl⟩
        · cases launched <;> trivial
  | updateUiFromBackendState =>
    refine ⟨⟨trivial, fun r job h => ?_⟩, fun connected => ⟨⟨trivial, fun r job h => ?_⟩, ?_⟩⟩
    · exact absurd h (by simp [step, Prog.perform])
    · exact absurd h (by simp)
    · exact fun _ => trivial
  | _ => exact absurd rfl hjob

variable {net packageName} in
theorem settled_of_linked {s : HomeState} (hs : LinkedHome s) :
    (upTracking net packageName).Settled none s :=
  ⟨by simp, fun _ => hs⟩

/-- **Every attempt** pays what it owes. -/
theorem wp_bodyOf_up (job : Job) (hjob : job.usesBackend = true) {s : HomeState}
    (hpre : (upTracking net packageName).pre job s) :
    (attemptContract net packageName).wp (upTracking net packageName).Settled
      (fun _ => LinkedHome) (bodyOf job) s := by
  have hD := serves_attemptContract net packageName
  cases job with
  | connectSmartAuto forceFresh =>
    have hs : LinkedHome s := hpre
    refine Contract.wp_seq (wp_smartAuto hD (fun _ h _ => h) (fun _ _ h => h.of_same)
      (fun _ h _ => h) (fun _ h => h) forceFresh
      (wp_smartCandidates hD forceFresh hs fun _ => hs.of_same)) (fun _ _ h => h) ?_
    exact fun _ _ h => settled_of_linked h
  | connectToSpecificServer serverId label previousServerId previousServerLabel =>
    refine Contract.wp_seq (wp_specific_down hD (fun _ h _ => h) (fun _ h _ => h) serverId label
      previousServerId previousServerLabel hpre) (fun _ _ h => h) ?_
    exact fun _ _ h => settled_of_linked h
  | disconnectCurrentTunnel =>
    refine Contract.wp_mono ?_ (fun _ _ h => h.elim) (wp_disconnectCurrentTunnel_down hD hpre)
    rintro _ s' ⟨rfl, h, -⟩
    exact settled_of_linked h
  | onActivityResult => exact hpre.elim
  | selectSmartAutoAndConnect => exact absurd hjob (by simp [Job.usesBackend])
  | updateUiFromBackendState => exact absurd hjob (by simp [Job.usesBackend])

/-! ## Runs -/

variable {net packageName}

theorem idle_of_backendIdle {c : HomeConf} (h : backendIdle c = true) :
    (upTracking net packageName).Idle c := by
  intro t ht htracked
  have hjob : t.job.usesBackend = true := htracked
  simpa [hjob] using List.all_eq_true.mp h t ht

/-- A move that leaves the backend alone and launches no job that uses it. -/
theorem allowed_of_harmless {c : HomeConf} {s' : HomeState} {j : Option Job}
    (hsame : Same c.shared s') (hj : ∀ i, j = some i → i.usesBackend = false) :
    (upTracking net packageName).Allowed c s' j := by
  refine ⟨fun i hi htracked => ?_, fun _ => ⟨fun h => h.of_same hsame, Or.inr hsame⟩⟩
  have htrue : i.usesBackend = true := htracked
  exact absurd (hj i hi) (by simp [htrue])

/-- An attempt or a disconnect launched when none is unfinished. -/
theorem allowed_of_operation {c : HomeConf} {s' : HomeState} {job : Job}
    (hidle : backendIdle c = true) (hsame : Same c.shared s') (hjob : job.isOperation = true) :
    (upTracking net packageName).Allowed c s' (some job) := by
  have huses : job.usesBackend = true := by
    cases job <;> first | rfl | exact absurd hjob (by simp [Job.isOperation])
  refine ⟨?_, fun hno => absurd huses (hno job rfl)⟩
  rintro _ ⟨⟩ -
  refine ⟨idle_of_backendIdle hidle, fun hs => ?_⟩
  have hs' : LinkedHome s' := LinkedHome.of_same hs hsame
  cases job <;> first | exact hs' | exact absurd hjob (by simp [Job.isOperation])

variable (net packageName)

/-- No dialog is open. -/
def NoDialog (c : HomeConf) : Prop := c.shared.wg.dialogs = 0

theorem upTracking_sound : (upTracking net packageName).Sound (system net packageName)
    (fun c a => oneAttemptGranted c a = true ∧ NoDialog c) where
  perform_eq := rfl
  running := by
    intro job hjob
    cases job <;> rfl
  light := nodes_harmless
  body := fun job s hjob hpre => wp_bodyOf_up net packageName job hjob hpre
  event := by
    rintro c e s' j _ ⟨hok, hdialogs⟩ hhandle
    cases handled hhandle with
    | ignored => exact allowed_of_harmless (Same.refl _) (by simp)
    | operation _ _ job hclick _ _ hsame hjob =>
      refine allowed_of_operation ?_ hsame hjob
      simpa [oneAttemptGranted, oneAttempt, hclick] using hok
    | select _ _ _ hsame => exact allowed_of_harmless hsame (by simp [Job.usesBackend])
    | resume => exact allowed_of_harmless (Same.refl _) (by simp [Job.usesBackend])
    | granted hne => exact absurd hdialogs hne
    | refused hne => exact absurd hdialogs hne
  step := by
    rintro c i env j o k _ ⟨hok, -⟩ hi _ ⟨hfree, hlaunch⟩
    have hsame : Same c.shared (perform net packageName o env c.shared).2 :=
      same_perform net packageName hfree.leavesSame env c.shared
    show (upTracking net packageName).Allowed c (perform net packageName o env c.shared).2
      (k (perform net packageName o env c.shared).1).launched
    cases hj : (k (perform net packageName o env c.shared).1).launched with
    | none => exact allowed_of_harmless hsame (by simp)
    | some job =>
      rcases hlaunch _ job hj with hplain | ⟨rfl, hjob⟩
      · refine allowed_of_harmless hsame ?_
        rintro _ ⟨⟩
        exact hplain
      · refine allowed_of_operation ?_ hsame hjob
        simp only [oneAttemptGranted, oneAttempt, hi, Bool.and_eq_true] at hok
        exact hok.1
  assume := by
    rintro c i env j o k _ ⟨hok, -⟩ hi _
    show permissionGranted o env = true
    simp only [oneAttemptGranted, hi, Bool.and_eq_true] at hok
    exact hok.2

/-! ### No dialog -/

/-- Only the request for permission opens a dialog. -/
theorem dialogs_perform {o : HomeOp} (ho : o ≠ .wg .onVpnPermissionRequired) (env : HomeEnv)
    (s : HomeState) : (perform net packageName o env s).2.wg.dialogs = s.wg.dialogs := by
  cases o with
  | wg o =>
    have ho' : o ≠ .onVpnPermissionRequired := fun h => ho (congrArg HomeOp.wg h)
    exact WireGuardBackend.dialogs_perform net packageName ho' env.wg s.wg
  | wgConfig serverId =>
    rw [perform]
    split <;> rfl
  | _ => exact congrArg WgState.dialogs (same_perform net packageName (by trivial) env s).wg

/-- **No dialog is opened** in the runs considered. -/
theorem noDialog_run {c d : HomeConf} (hc : (upTracking net packageName).Inv c)
    (hdialog : NoDialog c)
    (hrun : (system net packageName).Run (fun c a => oneAttemptGranted c a = true) c d) :
    (system net packageName).Run (fun c a => oneAttemptGranted c a = true ∧ NoDialog c) c d := by
  refine (hrun.and_invariant hdialog ?_).1
  intro e e' a hreach hnone hok hnext
  have hinv := (upTracking_sound net packageName).run hreach hc
  cases a with
  | event ev =>
    obtain ⟨s', j, hhandle, rfl⟩ := System.next_event _ hnext
    show s'.wg.dialogs = 0
    cases handled hhandle with
    | ignored => exact hnone
    | operation _ _ _ _ _ _ hsame => rw [hsame.wg]; exact hnone
    | select _ _ _ hsame => rw [hsame.wg]; exact hnone
    | resume => exact hnone
    | granted hne => exact absurd hnone hne
    | refused hne => exact absurd hnone hne
  | step i env =>
    obtain ⟨j, o, k, hi, rfl⟩ := System.next_step _ hnext
    show (perform net packageName o env e.shared).2.wg.dialogs = 0
    have hmem := List.mem_of_getElem? hi
    rw [dialogs_perform net packageName ?_ env e.shared]
    · exact hnone
    · rintro rfl
      by_cases hjob : j.usesBackend = true
      · exact hinv.assert hmem hjob rfl
      · exact (hinv.1 _ hmem hjob).1.1

/-- **Connected means up.**  In every run of one attempt at a time, from any screen whose
backend has not been used and with permission granted beforehand: whenever an attempt is
about to save a server as good, or to show `CONNECTED` for it, the flag is set and the
tunnel that runs has the configuration fetched for that server. -/
theorem connected_means_up (s₀ : HomeState) (hfresh : s₀.wg.go = { listeners := false })
    (hdialogs : s₀.wg.dialogs = 0) (d : HomeConf)
    (hrun : (system net packageName).Run (fun c a => oneAttemptGranted c a = true) ⟨s₀, []⟩ d)
    (t : HomeThread) (ht : t ∈ d.threads) (serverId : ℤ) (text : JString)
    (hnext : t.body.nextOp = some (.saveLastGood serverId text) ∨
      t.body.nextOp = some (.main (.connected serverId text))) :
    Up net serverId d.shared := by
  have hstart : (upTracking net packageName).Inv (⟨s₀, []⟩ : HomeConf) :=
    ⟨by simp, Or.inl ⟨by simp [Tracking.Idle], (linked_of_fresh hfresh).1⟩⟩
  have hd := (upTracking_sound net packageName).run
    (noDialog_run net packageName hstart hdialogs hrun) hstart
  -- the other jobs take neither step, and an attempt owes it
  have howes : ∀ o, ¬ Free o → t.body.nextOp = some o → Owes net o d.shared := by
    intro o ho hop
    obtain ⟨k, hbody⟩ := Prog.eq_op_of_nextOp hop
    by_cases hjob : t.job.usesBackend = true
    · exact hd.assert ht hjob hbody
    · have hnodes := hd.1 t ht hjob
      rw [hbody] at hnodes
      exact absurd hnodes.1.1 ho
  rcases hnext with hnext | hnext
  · exact howes (.saveLastGood serverId text) (fun h => h) hnext
  · exact howes (.main (.connected serverId text)) (fun h => h) hnext

/-- The theorem for a server card, when the server is about to be saved. -/
theorem up_before_save :
    let d := ((system GoBackend.noAddresses GoBackend.applicationId).exec oneAttemptGranted start
      (.event (.serverCard 1 (jstr "A")) :: runJob 0 14 answering)).get (by decide +kernel)
    Up GoBackend.noAddresses 1 d.shared :=
  connected_means_up _ _ {} rfl rfl _
    (System.Run.of_exec (fun _ _ h => h) .refl (Option.some_get _).symm) _
    (List.getElem_mem (by decide +kernel : 0 < _)) 1 (jstr "A") (Or.inl (by decide +kernel))

/-- **Connected without a tunnel.**  A server card is tapped and permission has not been
granted.  `connect` asks for it and returns, and the network works.  The server has been
saved as good, the next step shows `CONNECTED`, and nothing runs. -/
theorem connected_without_tunnel :
    ((system GoBackend.noAddresses GoBackend.applicationId).exec oneAttempt start
      (.event (.serverCard 1 (jstr "A")) ::
        runJob 0 10 { answering with wg := { prepareIntent := true } })).map
      (fun d => (d.threads.map fun t => t.body.nextOp, d.shared.lastGood.isSome,
        d.shared.wg.isConnected, d.shared.wg.go.currentTunnel.isSome)) =
      some ([some (.main (.connected 1 (jstr "A")))], true, false, false) := by
  decide +kernel

end HomeActivity
end AioVpn
