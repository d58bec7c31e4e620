import AioVpn.Coroutine.AtRest
import AioVpn.Home.Failover
import AioVpn.Home.Selection

/-!
# The selection mode

The flag `smartAutoSelected` is to be set exactly while no server is selected.  Here the operations
of the activity follow one another, each with everything that it launches before the next one
begins; an operation is an event of the activity, or the choice of a server by an intent.
`complete_run` says that such an operation is a run of the activity from rest to rest.

Most steps leave the selection alone (`KeepsSelection`).  What an attempt to connect to a chosen
server does to it depends on its outcome (`selection_clickServer`): a failed one restores the id and
the label, but not the flag.  So the mode is lost when a server card is tapped in Smart Auto and the
attempt fails (`Step.LosesMode`), and in no other way (`selection_in_step_iff`).
-/

namespace AioVpn
namespace HomeActivity

open Coroutine

variable (net : NetApi) (packageName : JString)

/-! ## The selection -/

/-- The fields of the selection. -/
structure Selection where
  smartAutoSelected : Bool
  serverId : Option ℤ
  serverLabel : Option JString
  deriving DecidableEq

/-- The selection of the activity. -/
def selection (s : HomeState) : Selection :=
  ⟨s.smartAutoSelected, s.selectedServerId, s.selectedServerLabel⟩

/-- No server is selected. -/
def Selection.NoServer (x : Selection) : Prop :=
  x.serverId = none ∨ isNullOrBlank x.serverLabel = true

instance (x : Selection) : Decidable x.NoServer :=
  inferInstanceAs (Decidable (_ ∨ _))

/-- **In step**: the flag is set exactly while no server is selected. -/
def Selection.InStep (x : Selection) : Prop := x.smartAutoSelected = true ↔ x.NoServer

instance (x : Selection) : Decidable x.InStep :=
  inferInstanceAs (Decidable (_ ↔ _))

/-- The fields as `onCreate` and `handleIntent` see them. -/
def selectionState (s : HomeState) : HomeSelection.SelectionState where
  selectedServerId := s.selectedServerId
  selectedServerLabel := s.selectedServerLabel
  smartAutoSelected := s.smartAutoSelected
  selectedServerText := s.selectedServerText

/-- The fields as they leave them. -/
def withSelection (t : HomeSelection.SelectionState) (s : HomeState) : HomeState :=
  { s with
    selectedServerId := t.selectedServerId
    selectedServerLabel := t.selectedServerLabel
    smartAutoSelected := t.smartAutoSelected
    selectedServerText := t.selectedServerText }

/-- The last step of the coroutine that loads the selection, whatever came before it. -/
def afterLoading (t : HomeSelection.SelectionState) (label : Option JString) (s : HomeState) :
    HomeState :=
  withSelection (HomeSelection.perform (.setSelectedServerLabel label) () t).2 s

/-! ## Operations -/

/-- What the user can do. -/
inductive Operation where
  /-- A server is chosen in the list: `onNewIntent`. -/
  | intent (intent : Option HomeSelection.HomeIntent)
  | event (e : Event)

/-- The servers that are offered have names. -/
def Operation.Named : Operation → Prop
  | .event (.serverCard _ label) => isNullOrBlank (some label) = false
  | _ => True

/-- What `handleIntent` launches. -/
def storing : Option HomeSelection.Job → HomeProg Unit
  | some (.saveLastServer serverId label) => do
      Prog.ofExcept (← step (.saveLastServer serverId label))
  | _ => pure ()

/-- The state when the operation and all that it launches are finished. -/
def complete (op : Operation) (env : ℕ → HomeEnv) (s : HomeState) : HomeState :=
  match op with
  | .intent intent =>
      let x := HomeSelection.handleIntent intent (selectionState s)
      ((storing x.2).runAlone (perform net packageName) env (withSelection x.1 s)).2
  | .event e =>
      match handle e s with
      | none => s
      | some (s', job) =>
          (((system net packageName).toRest job).runAlone (perform net packageName) env s').2

/-- An operation, the environment of its steps, and the state in which it begins. -/
structure Step where
  operation : Operation
  env : ℕ → HomeEnv
  before : HomeState

/-- The state in which it ends. -/
def Step.after (x : Step) : HomeState := complete net packageName x.operation x.env x.before

/-- **A sequence of completed operations.** -/
def steps : List (Operation × (ℕ → HomeEnv)) → HomeState → List Step
  | [], _ => []
  | (op, env) :: rest, s => ⟨op, env, s⟩ :: steps rest (complete net packageName op env s)

/-! ## Steps that leave the selection alone -/

/-- The step leaves the selection alone. -/
def KeepsSelection : HomeOp → Prop
  | .setSelectedServerId _ => False
  | .setSelectedServerLabel _ => False
  | _ => True

theorem selection_run (b : MainBlock) (s : HomeState) : selection (b.run s) = selection s := by
  cases b with
  | backendState connected => cases connected <;> rfl
  | _ => rfl

theorem selection_perform {o : HomeOp} (ho : KeepsSelection o) (env : HomeEnv) (s : HomeState) :
    selection (perform net packageName o env s).2 = selection s := by
  cases o with
  | setSelectedServerId _ => exact ho.elim
  | setSelectedServerLabel _ => exact ho.elim
  | main b => exact selection_run b s
  | wgConfig serverId =>
    rw [perform]
    split <;> rfl
  | saveLastServer serverId label =>
    rw [perform]
    split <;> rfl
  | clearLastServer =>
    rw [perform]
    split <;> rfl
  | startSmartAuto =>
    rw [perform, startSmartAuto]
    split <;> rfl
  | _ => rfl

/-- A body of such steps leaves the selection alone. -/
theorem selection_runAlone {α : Type} {p : HomeProg α} (hp : p.OnlyOps KeepsSelection)
    (env : ℕ → HomeEnv) (s : HomeState) :
    selection (p.runAlone (perform net packageName) env s).2 = selection s :=
  Prog.runAlone_invariant (I := fun s' => selection s' = selection s)
    (fun _ env' s' ho h => (selection_perform net packageName ho env' s').trans h) hp rfl

section Kept

theorem keepsSelection_disconnectQuietly : disconnectQuietly.OnlyOps KeepsSelection :=
  (onlyOps_backend (fun _ => trivial) _).tryCatch fun _ => trivial

theorem keepsSelection_fetchAndConnect (serverId : ℤ) (label : JString) :
    (fetchAndConnect serverId label).OnlyOps KeepsSelection :=
  (onlyOps_fetchAndConnect serverId label).mono fun o ho => by cases o <;> trivial

theorem keepsSelection_tryCandidate (candidate : WgServerDto) :
    (tryCandidate candidate).OnlyOps KeepsSelection :=
  (Prog.OnlyOps.perform (by trivial)).bind fun _ =>
    (keepsSelection_fetchAndConnect _ _).bind fun _ =>
      (Prog.OnlyOps.perform (by trivial)).bind fun _ =>
        (Prog.OnlyOps.perform (by trivial)).bind fun _ => Prog.OnlyOps.perform (by trivial)

theorem keepsSelection_candidateLoop (candidates : List WgServerDto)
    (lastError : Option HomeExn) :
    (candidateLoop candidates lastError).OnlyOps KeepsSelection := by
  induction candidates generalizing lastError with
  | nil => trivial
  | cons candidate rest ih =>
    refine Prog.OnlyOps.bind (Prog.OnlyOps.tryCatch ?_ fun e => ?_) fun failure => ?_
    · exact (keepsSelection_tryCandidate candidate).bind fun _ => trivial
    · exact keepsSelection_disconnectQuietly.bind fun _ => trivial
    · cases failure with
      | none => trivial
      | some e => exact ih (some e)

theorem keepsSelection_connectSmartAuto (forceFresh : Bool) :
    (connectSmartAuto forceFresh).OnlyOps KeepsSelection := by
  have hchoice : (smartCandidates forceFresh).OnlyOps KeepsSelection :=
    (onlyOps_smartCandidates forceFresh).mono fun o ho => by cases o <;> trivial
  exact (hchoice.bind fun _ => keepsSelection_candidateLoop _ _).tryCatch fun _ =>
    Prog.OnlyOps.perform (by trivial)

/-- The job of an attempt to connect to a chosen server. -/
def Job.isSpecific : Job → Bool
  | .connectToSpecificServer _ _ _ _ => true
  | _ => false

/-- **Every other job leaves the selection alone.** -/
theorem keepsSelection_bodyOf {job : Job} (hjob : job.isSpecific = false) :
    (bodyOf job).OnlyOps KeepsSelection := by
  cases job with
  | connectSmartAuto forceFresh =>
    exact (keepsSelection_connectSmartAuto forceFresh).bind fun _ => trivial
  | connectToSpecificServer _ _ _ _ => exact absurd hjob (by simp [Job.isSpecific])
  | disconnectCurrentTunnel =>
    refine Prog.OnlyOps.tryCatch ?_ fun _ =>
      (Prog.OnlyOps.perform (by trivial)).bind fun _ => trivial
    exact (onlyOps_backend (fun _ => trivial) _).bind fun _ =>
      (Prog.OnlyOps.perform (by trivial)).bind fun _ => trivial
  | selectSmartAutoAndConnect =>
    refine (Prog.OnlyOps.perform (by trivial)).bind fun r => (Prog.OnlyOps.ofExcept r).bind fun _ =>
      (Prog.OnlyOps.perform (by trivial)).bind fun launched => ?_
    cases launched <;> trivial
  | updateUiFromBackendState =>
    exact (Prog.OnlyOps.perform (by trivial)).bind fun _ =>
      (Prog.OnlyOps.perform (by trivial)).bind fun _ => trivial
  | onActivityResult =>
    refine Prog.OnlyOps.tryCatch ?_ fun _ => keepsSelection_disconnectQuietly.bind fun _ =>
      (Prog.OnlyOps.perform (by trivial)).bind fun _ => trivial
    exact (onlyOps_backend (fun _ => trivial) _).bind fun _ =>
      (onlyOps_validateTunnelOrThrow (by trivial) _).bind fun _ =>
        (Prog.OnlyOps.perform (by trivial)).bind fun _ => trivial

/-- What a job launches, and that this launches nothing. -/
theorem returns_bodyOf (job : Job) :
    (bodyOf job).Returns fun r => ∀ next ∈ r,
      next.isSpecific = false ∧ (bodyOf next).Returns (· = none) := by
  have hnone : ∀ next ∈ (none : Option Job),
      next.isSpecific = false ∧ (bodyOf next).Returns (· = none) := fun _ h => absurd h (by simp)
  have hrefresh : ∀ next ∈ some Job.updateUiFromBackendState,
      next.isSpecific = false ∧ (bodyOf next).Returns (· = none) := by
    rintro _ ⟨⟩
    exact ⟨rfl, Prog.Returns.bind _ fun _ => Prog.Returns.bind _ fun _ => rfl⟩
  cases job with
  | connectSmartAuto forceFresh => exact Prog.Returns.bind _ fun _ => hnone
  | connectToSpecificServer _ _ _ _ => exact Prog.Returns.bind _ fun _ => hnone
  | disconnectCurrentTunnel =>
    refine Prog.Returns.tryCatch ?_ fun _ => Prog.Returns.bind _ fun _ => hrefresh
    exact Prog.Returns.bind _ fun _ => Prog.Returns.bind _ fun _ => hnone
  | selectSmartAutoAndConnect =>
    refine Prog.Returns.bind _ fun _ => Prog.Returns.bind _ fun _ =>
      Prog.Returns.bind _ fun launched => ?_
    cases launched with
    | false => exact hnone
    | true =>
      rintro _ ⟨⟩
      exact ⟨rfl, Prog.Returns.bind _ fun _ => rfl⟩
  | updateUiFromBackendState =>
    exact Prog.Returns.bind _ fun _ => Prog.Returns.bind _ fun _ => hnone
  | onActivityResult =>
    refine Prog.Returns.tryCatch ?_ fun _ => Prog.Returns.bind _ fun _ =>
      Prog.Returns.bind _ fun _ => hnone
    exact Prog.Returns.bind _ fun _ => Prog.Returns.bind _ fun _ =>
      Prog.Returns.bind _ fun _ => hrefresh

theorem keepsSelection_toRest {job : Option Job} (hjob : ∀ j ∈ job, j.isSpecific = false) :
    ((system net packageName).toRest job).OnlyOps KeepsSelection := by
  cases job with
  | none => trivial
  | some j =>
    refine (keepsSelection_bodyOf (hjob j rfl)).bind_of_returns (returns_bodyOf j) fun r hr => ?_
    cases r with
    | none => trivial
    | some next => exact (keepsSelection_bodyOf (hr next rfl).1).bind fun _ => trivial

end Kept

/-- **A completed operation is a run of the activity** from rest to rest. -/
theorem complete_run {e : Event} {c : HomeConf} (hrest : ∀ t ∈ c.threads, t.body.running = false)
    (hpossible : (handle e c.shared).isSome = true) (env : ℕ → HomeEnv) :
    ∃ d, (system net packageName).Run (fun _ _ => True) c d ∧
      d.shared = complete net packageName (.event e) env c.shared ∧
      ∀ t ∈ d.threads, t.body.running = false := by
  obtain ⟨⟨s', job⟩, hhandle⟩ := Option.isSome_iff_exists.mp hpossible
  have hnext : (system net packageName).next c (.event e) =
      some ⟨s', c.threads ++ (system net packageName).launch job⟩ :=
    congrArg (Option.map _) hhandle
  rw [complete, hhandle]
  refine System.Run.toRest (System.Run.tail .refl trivial hnext) hrest rfl ?_ ?_ env
    fun _ _ _ => trivial
  · intro j
    cases j <;> rfl
  · intro j _
    exact Prog.Returns.mono (fun r h next hnext => (h next hnext).2) (returns_bodyOf j)

/-! ## An attempt to connect to a chosen server -/

/-- The `try` block of `connectToSpecificServer`. -/
def attempt (serverId : ℤ) (label : JString) : HomeProg Unit := do
  fetchAndConnect serverId label
  step (.setCurrentConnectedServerLabel label)
  Prog.ofExcept (← step (.saveLastServer serverId label))
  step (.saveLastGood serverId label)
  step (.main (.connected serverId label))

/-- What follows the bring-up in it. -/
def confirm (serverId : ℤ) (label : JString) : HomeProg Unit :=
  (step (.main (.verifying (jstr "Verifying " ++ label ++ jstr "...")))).bind fun _ =>
    (step .delay).bind fun _ => (validateTunnelOrThrow (some label)).bind fun _ =>
      (step (.setCurrentConnectedServerLabel label)).bind fun _ =>
        (step (.saveLastServer serverId label)).bind fun r => (Prog.ofExcept r).bind fun _ =>
          (step (.saveLastGood serverId label)).bind fun _ =>
            step (.main (.connected serverId label))

theorem attempt_eq (serverId : ℤ) (label : JString) :
    attempt serverId label = (step (.wgConfig serverId)).bind fun r =>
      (Prog.ofExcept r).bind fun text =>
        (backend (WireGuardBackend.connect text)).bind fun _ => confirm serverId label := by
  simp only [attempt, fetchAndConnect, confirm, Prog.bind_def, Prog.bind_assoc]

/-- **The attempt succeeds**: the configuration is fetched, brought up and validated, and the server
can be stored. -/
def connects (env : ℕ → HomeEnv) (w : WgState) : Bool :=
  match repoWgConfig (env 0) with
  | .error _ => false
  | .ok text =>
      let up := fun n => (env (n + 1)).wg
      let k := ((WireGuardBackend.connect text).trace
        (WireGuardBackend.perform net packageName) up w).length
      ((WireGuardBackend.connect text).runAlone
          (WireGuardBackend.perform net packageName) up w).1.isOk &&
        (env (k + 3)).working && (env (k + 5)).writable

section Outcome

theorem length_trace_backend {α : Type} (p : WgProg α) (env : ℕ → HomeEnv) (s : HomeState) :
    ((backend p).trace (perform net packageName) env s).length =
      (p.trace (WireGuardBackend.perform net packageName) (fun n => (env n).wg) s.wg).length := by
  induction p generalizing env s with
  | pure a => rfl
  | throw e => rfl
  | op o k ih => exact congrArg Nat.succ (ih _ (fun n => env (n + 1)) _)

variable {net packageName}

theorem isOk_confirm (serverId : ℤ) (label : JString) (env : ℕ → HomeEnv) (s : HomeState) :
    ((confirm serverId label).runAlone (perform net packageName) env s).1.isOk =
      ((env 2).working && (env 4).writable) := by
  cases hworking : (env 2).working <;> cases hwritable : (env 4).writable <;>
    simp [confirm, step, Prog.perform, validateTunnelOrThrow, Prog.runAlone, perform, hworking,
      hwritable, Prog.ofExcept, Except.isOk, Except.toBool]

/-- The outcome of the `try` block. -/
theorem isOk_attempt (serverId : ℤ) (label : JString) (env : ℕ → HomeEnv) (s : HomeState) :
    ((attempt serverId label).runAlone (perform net packageName) env s).1.isOk =
      connects net packageName env s.wg := by
  have hfetch : ∀ r s₁, perform net packageName (.wgConfig serverId) (env 0) s = (r, s₁) →
      (attempt serverId label).runAlone (perform net packageName) env s =
        ((Prog.ofExcept r).bind fun text => (backend (WireGuardBackend.connect text)).bind fun _ =>
          confirm serverId label).runAlone (perform net packageName) (fun n => env (n + 1)) s₁ := by
    intro r s₁ h
    rw [attempt_eq]
    show Prog.runAlone _ _ ((Prog.ofExcept (perform net packageName (.wgConfig serverId) (env 0)
      s).1).bind _) (perform net packageName (.wgConfig serverId) (env 0) s).2 = _
    rw [h]
  rw [connects]
  cases hconfig : repoWgConfig (env 0) with
  | error e =>
    rw [hfetch _ _ (perform_wgConfig_of_error serverId s hconfig)]
    rfl
  | ok text =>
    rw [hfetch _ _ (perform_wgConfig_of_ok serverId s hconfig), Prog.ofExcept, Prog.pure_bind]
    have hrun := runAlone_backend net packageName (WireGuardBackend.connect text)
      (fun n => env (n + 1)) { s with finalConfigs := (serverId, text) :: s.finalConfigs }
    have hlength := length_trace_backend net packageName (WireGuardBackend.connect text)
      (fun n => env (n + 1)) { s with finalConfigs := (serverId, text) :: s.finalConfigs }
    dsimp only at hrun hlength ⊢
    generalize (WireGuardBackend.connect text).runAlone (WireGuardBackend.perform net packageName)
      (fun n => (env (n + 1)).wg) s.wg = x at hrun ⊢
    obtain ⟨r, w⟩ := x
    cases r with
    | error e =>
      rw [(Prog.run_bind_of_error _ _ hrun).1]
      rfl
    | ok u =>
      rw [(Prog.run_bind_of_ok _ _ hrun).1, isOk_confirm, hlength]
      rw [show ∀ k, 2 + k + 1 = k + 3 by omega, show ∀ k, 4 + k + 1 = k + 5 by omega]
      rfl

end Outcome

/-- The `catch` block of `connectToSpecificServer`. -/
def restore (previousServerId : Option ℤ) (previousServerLabel : Option JString) :
    HomeProg Unit := do
  disconnectQuietly
  step (.setSelectedServerId previousServerId)
  step (.setSelectedServerLabel previousServerLabel)
  step (.main (.failed (previousServerLabel.getD (jstr "Smart Auto"))))

section Attempted

variable {net packageName}

theorem keepsSelection_attempt (serverId : ℤ) (label : JString) :
    (attempt serverId label).OnlyOps KeepsSelection :=
  (keepsSelection_fetchAndConnect _ _).bind fun _ =>
    (Prog.OnlyOps.perform (by trivial)).bind fun _ =>
      (Prog.OnlyOps.perform (by trivial)).bind fun r => (Prog.OnlyOps.ofExcept r).bind fun _ =>
        (Prog.OnlyOps.perform (by trivial)).bind fun _ => Prog.OnlyOps.perform (by trivial)

variable (net packageName) in
/-- The clean-up always returns. -/
theorem disconnectQuietly_returns (env : ℕ → HomeEnv) (s : HomeState) :
    ∃ s', disconnectQuietly.runAlone (perform net packageName) env s = (.ok (), s') := by
  obtain ⟨⟨r, s₁⟩, hrun⟩ : ∃ x, (backend WireGuardBackend.disconnect).runAlone
    (perform net packageName) env s = x := ⟨_, rfl⟩
  rw [disconnectQuietly]
  cases r with
  | ok u => exact ⟨s₁, (Prog.run_tryCatch_of_ok _ _ hrun).1⟩
  | error e => exact ⟨s₁, (Prog.run_tryCatch_of_error _ _ hrun).1⟩

/-- **The id and the label are restored**, and the flag is not. -/
theorem selection_restore (previousServerId : Option ℤ) (previousServerLabel : Option JString)
    (env : ℕ → HomeEnv) (s : HomeState) :
    selection ((restore previousServerId previousServerLabel).runAlone (perform net packageName)
      env s).2 = ⟨s.smartAutoSelected, previousServerId, previousServerLabel⟩ := by
  obtain ⟨s', hrun⟩ := disconnectQuietly_returns net packageName env s
  have hkept := selection_runAlone net packageName keepsSelection_disconnectQuietly env s
  rw [hrun] at hkept
  rw [restore, Prog.bind_def, (Prog.run_bind_of_ok _ _ hrun).1]
  exact congrArg (fun x : Selection => Selection.mk x.smartAutoSelected _ _) hkept

/-- The job of `connectToSpecificServer`: its outcome decides. -/
theorem selection_connectToSpecificServer (serverId : ℤ) (label : JString)
    (previousServerId : Option ℤ) (previousServerLabel : Option JString) (env : ℕ → HomeEnv)
    (s : HomeState) :
    selection ((connectToSpecificServer serverId label previousServerId
        previousServerLabel).runAlone (perform net packageName) env s).2 =
      if connects net packageName env s.wg then selection s
      else ⟨s.smartAutoSelected, previousServerId, previousServerLabel⟩ := by
  have hbody : connectToSpecificServer serverId label previousServerId previousServerLabel =
      (attempt serverId label).tryCatch fun _ => restore previousServerId previousServerLabel := rfl
  have hkept := selection_runAlone net packageName (keepsSelection_attempt serverId label) env s
  rw [hbody, ← isOk_attempt serverId label env s]
  obtain ⟨⟨r, s₁⟩, hrun⟩ : ∃ x, (attempt serverId label).runAlone (perform net packageName) env s =
    x := ⟨_, rfl⟩
  rw [hrun] at hkept ⊢
  cases r with
  | ok u =>
    rw [(Prog.run_tryCatch_of_ok _ _ hrun).1]
    exact hkept
  | error e =>
    rw [(Prog.run_tryCatch_of_error _ _ hrun).1, selection_restore]
    exact congrArg (fun x : Selection => Selection.mk x.smartAutoSelected _ _) hkept

theorem toRest_specific (serverId : ℤ) (label : JString) (previousServerId : Option ℤ)
    (previousServerLabel : Option JString) :
    (system net packageName).toRest (some (.connectToSpecificServer serverId label previousServerId
        previousServerLabel)) =
      connectToSpecificServer serverId label previousServerId previousServerLabel :=
  (Prog.bind_assoc _ _ _).trans (Prog.bind_pure _)

/-- **What an attempt to connect to a chosen server does to the selection.** -/
theorem selection_clickServer {s : HomeState} (hfree : isBusy s = false) (serverId : ℤ)
    (label : JString) (env : ℕ → HomeEnv) :
    selection (((system net packageName).toRest (clickServer serverId label s).2).runAlone
        (perform net packageName) env (clickServer serverId label s).1).2 =
      if connects net packageName env s.wg then ⟨false, some serverId, some label⟩
      else ⟨false, s.selectedServerId, s.selectedServerLabel⟩ := by
  rw [clickServer, if_neg (by simp [hfree]), toRest_specific, selection_connectToSpecificServer]
  rfl

end Attempted

/-! ## What the operations do to the selection -/

/-- **What an event does to the selection**: nothing, or it selects Smart Auto, or it calls
`connectToSpecificServer` for a card or for the server that is selected. -/
inductive Selects (s : HomeState) (e : Event) : HomeState → Option Job → Prop where
  | kept (s' : HomeState) (job : Option Job) (hselection : selection s' = selection s)
      (hjob : ∀ j ∈ job, j.isSpecific = false) : Selects s e s' job
  | smartAuto (s' : HomeState) (job : Option Job) (hselection : selection s' = ⟨true, none, none⟩)
      (hjob : ∀ j ∈ job, j.isSpecific = false) : Selects s e s' job
  | server (serverId : ℤ) (label : JString) (hfree : isBusy s = false)
      (hcalled : e = .serverCard serverId label ∨ selection s =
        ⟨s.smartAutoSelected, some serverId, some label⟩ ∧ isNullOrBlank (some label) = false) :
      Selects s e (clickServer serverId label s).1 (clickServer serverId label s).2

section Events

variable {s : HomeState} {e : Event}

theorem selects_none : Selects s e s none := .kept s none rfl fun _ h => absurd h (by simp)

theorem selects_job {s' : HomeState} {job : Job} (h : selection s' = selection s)
    (hjob : job.isSpecific = false) : Selects s e s' (some job) := by
  refine .kept s' _ h ?_
  rintro _ ⟨⟩
  exact hjob

theorem selects_clickServer {serverId : ℤ} {label : JString}
    (hcalled : e = .serverCard serverId label ∨ selection s =
      ⟨s.smartAutoSelected, some serverId, some label⟩ ∧ isNullOrBlank (some label) = false) :
    Selects s e (clickServer serverId label s).1 (clickServer serverId label s).2 := by
  by_cases hbusy : isBusy s = true
  · rw [clickServer, if_pos hbusy]
    exact selects_none
  · exact .server serverId label (by simpa using hbusy) hcalled

theorem selects_clickSmartAuto :
    Selects s e (clickSmartAuto s).1 (clickSmartAuto s).2 := by
  by_cases hbusy : isBusy s = true
  · have hstart : startSmartAuto s = (false, s) := if_pos hbusy
    rw [clickSmartAuto, hstart]
    exact selects_none
  · rw [clickSmartAuto, startSmartAuto, if_neg hbusy]
    exact selects_job rfl rfl

theorem selects_handleConnectButtonClick :
    Selects s e (handleConnectButtonClick s).1 (handleConnectButtonClick s).2 := by
  rw [handleConnectButtonClick]
  split
  · exact selects_none
  rename_i hfree
  split
  · rw [clickDisconnect, if_neg hfree]
    exact selects_job rfl rfl
  split
  · exact selects_clickSmartAuto
  rename_i serverId hid
  split
  · exact selects_clickSmartAuto
  rename_i hlabel
  cases hs : s.selectedServerLabel with
  | none => exact absurd (by rw [hs]; rfl) hlabel
  | some label =>
    refine selects_clickServer (Or.inr ⟨?_, ?_⟩)
    · rw [selection, hid, hs]
      rfl
    · rw [hs] at hlabel
      simpa using hlabel

/-- **There is nothing else that an event does to the selection.** -/
theorem selects {s' : HomeState} {job : Option Job} (h : handle e s = some (s', job)) :
    Selects s e s' job := by
  have hpair : ∀ x : HomeState × Option Job, x = (s', job) → Selects s e x.1 x.2 →
      Selects s e s' job := by
    rintro _ rfl hx
    exact hx
  cases e with
  | connectButton => exact hpair _ (Option.some.inj h) selects_handleConnectButtonClick
  | serverCard serverId label =>
    exact hpair _ (Option.some.inj h) (selects_clickServer (Or.inl rfl))
  | smartAutoCard =>
    refine hpair _ (Option.some.inj h) ?_
    by_cases hbusy : isBusy s = true
    · rw [clickSmartAutoCard, if_pos hbusy]
      exact selects_none
    · rw [clickSmartAutoCard, if_neg hbusy]
      refine .smartAuto _ _ rfl ?_
      rintro _ ⟨⟩
      rfl
  | resume => exact hpair _ (Option.some.inj h) (selects_job rfl rfl)
  | permissionResult granted =>
    rw [handle, permissionResult] at h
    split at h
    · exact absurd h (by simp)
    · cases granted with
      | true => exact hpair _ (Option.some.inj h) (selects_job rfl rfl)
      | false =>
        exact hpair _ (Option.some.inj h) (.kept _ _ rfl fun _ h => absurd h (by simp))

end Events

theorem keepsSelection_storing (job : Option HomeSelection.Job) :
    (storing job).OnlyOps KeepsSelection := by
  rw [storing.eq_def]
  split
  · exact (Prog.OnlyOps.perform (by trivial)).bind fun r => Prog.OnlyOps.ofExcept r
  · trivial

/-- An intent selects the server that it carries, if it has a name. -/
theorem selection_intent (intent : Option HomeSelection.HomeIntent) (env : ℕ → HomeEnv)
    (s : HomeState) :
    selection (complete net packageName (.intent intent) env s) = selection s ∨
      ∃ serverId label, isNullOrBlank (some label) = false ∧
        selection (complete net packageName (.intent intent) env s) =
          ⟨false, some serverId, some label⟩ := by
  rw [complete, selection_runAlone net packageName (keepsSelection_storing _),
    HomeSelection.handleIntent]
  split
  · rename_i serverId label _ hlabel
    exact Or.inr ⟨serverId, label, (JString.takeIfNotBlank_eq_some.mp hlabel).2, rfl⟩
  · exact Or.inl rfl

/-- The operation is a tap on a server card. -/
def Operation.isServerCard : Operation → Bool
  | .event (.serverCard _ _) => true
  | _ => false

namespace Step

/-- The operation calls `connectToSpecificServer`. -/
def attempts (x : Step) : Bool :=
  match x.operation with
  | .intent _ => false
  | .event e => ((handle e x.before).bind Prod.snd).any Job.isSpecific

/-- **A failed attempt** to connect to a chosen server. -/
def Failed (x : Step) : Prop :=
  x.attempts = true ∧ connects net packageName x.env x.before.wg = false

/-- **The mode is lost**: a server card is tapped while no server is selected, and the attempt
fails. -/
def LosesMode (x : Step) : Prop :=
  x.operation.isServerCard = true ∧ isBusy x.before = false ∧ (selection x.before).NoServer ∧
    connects net packageName x.env x.before.wg = false

instance (x : Step) : Decidable (x.LosesMode net packageName) :=
  inferInstanceAs (Decidable (_ ∧ _))

/-- The step ends with the flag in step, and leaves the selection as it was if it is a failed
attempt. -/
structure Keeps (x : Step) : Prop where
  inStep : (selection (x.after net packageName)).InStep
  restored : x.Failed net packageName → selection (x.after net packageName) = selection x.before

variable {net packageName} {x : Step}

theorem inStep_of_server {serverId : ℤ} {label : JString}
    (hlabel : isNullOrBlank (some label) = false) :
    Selection.InStep ⟨false, some serverId, some label⟩ := by
  simp [Selection.InStep, Selection.NoServer, hlabel]

/-- In step, and with a server, the flag is not set. -/
theorem smartAutoSelected_of_inStep {s : HomeState} (hs : (selection s).InStep)
    (hserver : ¬ (selection s).NoServer) : s.smartAutoSelected = false :=
  Bool.eq_false_iff.mpr fun h => hserver (hs.mp h)

section Event

variable {e : Event} {env : ℕ → HomeEnv} {s s' : HomeState} {job : Option Job}

theorem after_of_handle (h : handle e s = some (s', job)) :
    after net packageName ⟨.event e, env, s⟩ =
      (((system net packageName).toRest job).runAlone (perform net packageName) env s').2 := by
  rw [after, complete, h]

theorem selection_after_server {serverId : ℤ} {label : JString} (hfree : isBusy s = false)
    (hhandle : handle e s =
      some ((clickServer serverId label s).1, (clickServer serverId label s).2)) :
    selection (after net packageName ⟨.event e, env, s⟩) =
      if connects net packageName env s.wg then ⟨false, some serverId, some label⟩
      else ⟨false, s.selectedServerId, s.selectedServerLabel⟩ := by
  rw [after_of_handle hhandle]
  exact selection_clickServer hfree serverId label env

/-- **A call of `connectToSpecificServer`.** -/
theorem keeps_server {serverId : ℤ} {label : JString} (hnamed : Operation.Named (.event e))
    (hs : (selection s).InStep) (hmode : ¬ LosesMode net packageName ⟨.event e, env, s⟩)
    (hfree : isBusy s = false)
    (hcalled : e = .serverCard serverId label ∨ selection s =
      ⟨s.smartAutoSelected, some serverId, some label⟩ ∧ isNullOrBlank (some label) = false)
    (hhandle : handle e s =
      some ((clickServer serverId label s).1, (clickServer serverId label s).2)) :
    Keeps net packageName ⟨.event e, env, s⟩ := by
  have hafter : selection (after net packageName ⟨.event e, env, s⟩) = _ :=
    selection_after_server hfree hhandle
  cases hconnects : connects net packageName env s.wg with
  | true =>
    have hlabel : isNullOrBlank (some label) = false := by
      rcases hcalled with rfl | ⟨-, hlabel⟩
      · exact hnamed
      · exact hlabel
    rw [if_pos hconnects] at hafter
    refine ⟨by rw [hafter]; exact inStep_of_server hlabel, fun hfailed => ?_⟩
    exact absurd (hconnects.symm.trans hfailed.2) (by simp)
  | false =>
    have hserver : ¬ (selection s).NoServer := by
      rcases hcalled with rfl | ⟨hselected, hlabel⟩
      · exact fun h => hmode ⟨rfl, hfree, h, hconnects⟩
      · rw [hselected]
        simp [Selection.NoServer, hlabel]
    rw [if_neg (by simp [hconnects]), ← smartAutoSelected_of_inStep hs hserver] at hafter
    exact ⟨by rw [hafter]; exact hs, fun _ => hafter⟩

/-- **One event.** -/
theorem keeps_event (hnamed : Operation.Named (.event e)) (hs : (selection s).InStep)
    (hmode : ¬ LosesMode net packageName ⟨.event e, env, s⟩) :
    Keeps net packageName ⟨.event e, env, s⟩ := by
  cases hhandle : handle e s with
  | none =>
    have hafter : after net packageName ⟨.event e, env, s⟩ = s := by
      rw [after, complete, hhandle]
    exact ⟨by rwa [hafter], fun _ => by rw [hafter]⟩
  | some y =>
    obtain ⟨s', job⟩ := y
    have hafter : (∀ j ∈ job, j.isSpecific = false) →
        selection (after net packageName ⟨.event e, env, s⟩) = selection s' := by
      intro hjob
      rw [after_of_handle hhandle,
        selection_runAlone net packageName (keepsSelection_toRest _ _ hjob)]
    cases selects hhandle with
    | kept _ _ hselection hjob =>
      have hsame := (hafter hjob).trans hselection
      exact ⟨by rwa [hsame], fun _ => hsame⟩
    | smartAuto _ _ hselection hjob =>
      refine ⟨?_, fun hfailed => ?_⟩
      · rw [hafter hjob, hselection]
        simp [Selection.InStep, Selection.NoServer]
      · -- no attempt is made
        have hattempts : ((handle e s).bind Prod.snd).any Job.isSpecific = true := hfailed.1
        rw [hhandle, Option.bind_some, Option.any_eq_true] at hattempts
        obtain ⟨j, hj, hspecific⟩ := hattempts
        exact absurd (hspecific.symm.trans (hjob j hj)) (by simp)
    | server serverId label hfree hcalled =>
      exact keeps_server hnamed hs hmode hfree hcalled hhandle

end Event

/-- **One operation.**  The flag stays in step, and a failed attempt leaves the selection as it
was, unless the mode is lost. -/
theorem keeps (hnamed : x.operation.Named) (hs : (selection x.before).InStep)
    (hmode : ¬ x.LosesMode net packageName) : x.Keeps net packageName := by
  obtain ⟨op, env, s⟩ := x
  cases op with
  | event e => exact keeps_event hnamed hs hmode
  | intent intent =>
    refine ⟨?_, fun hfailed => absurd hfailed.1 (by simp [attempts])⟩
    rcases selection_intent net packageName intent env s with hsame | ⟨serverId, label, hlabel, h⟩
    · rw [after, hsame]
      exact hs
    · rw [after, h]
      exact inStep_of_server hlabel

/-- **A tap that loses the mode** is a failed attempt that changes the selection. -/
theorem not_keeps (hs : (selection x.before).InStep) (hmode : x.LosesMode net packageName) :
    ¬ x.Keeps net packageName := by
  obtain ⟨op, env, s⟩ := x
  obtain ⟨hcard, hfree, hserver, hconnects⟩ := hmode
  intro hkeeps
  cases op with
  | intent intent => exact absurd hcard (by simp [Operation.isServerCard])
  | event e =>
    cases e with
    | serverCard serverId label =>
      have hhandle : handle (.serverCard serverId label) s =
          some ((clickServer serverId label s).1, (clickServer serverId label s).2) := rfl
      have hattempts : attempts ⟨.event (.serverCard serverId label), env, s⟩ = true := by
        rw [attempts]
        dsimp only
        rw [hhandle, clickServer, if_neg (by simp [hfree])]
        rfl
      have hsame := hkeeps.restored ⟨hattempts, hconnects⟩
      have hflag := congrArg Selection.smartAutoSelected hsame
      rw [selection_after_server hfree hhandle, if_neg (by simp [hconnects]),
        hs.mpr hserver] at hflag
      exact absurd hflag (by simp)
    | _ => exact absurd hcard (by simp [Operation.isServerCard])

end Step

/-! ## Sequences of operations -/

/-- **In step throughout**: after the loading and after each operation, and failed attempts leave
the selection as it was. -/
structure InStepThroughout (ops : List (Operation × (ℕ → HomeEnv))) (s : HomeState) : Prop where
  loaded : (selection s).InStep
  steps : ∀ x ∈ steps net packageName ops s, x.Keeps net packageName

section Sequence

variable {net packageName}

/-- The flag is computed when the selection is loaded. -/
theorem inStep_afterLoading (t : HomeSelection.SelectionState) (label : Option JString)
    (s : HomeState) : (selection (afterLoading t label s)).InStep := by
  have hblank : (JString.takeIfNotBlank label).isNone = isNullOrBlank label := by
    cases label with
    | none => rfl
    | some l =>
      have hdef : isNullOrBlank (some l) = JString.isBlank l := rfl
      rw [hdef, JString.takeIfNotBlank, Option.filter_some]
      cases JString.isBlank l <;> rfl
  have hflag : (selection (afterLoading t label s)).smartAutoSelected =
      (t.selectedServerId.isNone || (JString.takeIfNotBlank label).isNone) := rfl
  rw [Selection.InStep, hflag, hblank, Bool.or_eq_true, Option.isNone_iff_eq_none]
  rfl

/-- Each operation begins in step. -/
theorem inStep_before {ops : List (Operation × (ℕ → HomeEnv))} {s : HomeState}
    (h : InStepThroughout net packageName ops s) :
    ∀ x ∈ steps net packageName ops s, (selection x.before).InStep := by
  induction ops generalizing s with
  | nil => exact fun _ hx => absurd hx (by simp [steps])
  | cons op ops ih =>
    obtain ⟨hs, hsteps⟩ := h
    rw [steps, List.forall_mem_cons] at hsteps ⊢
    exact ⟨hs, ih ⟨hsteps.1.inStep, hsteps.2⟩⟩

/-- **A run of operations none of which loses the mode.** -/
theorem inStepThroughout {ops : List (Operation × (ℕ → HomeEnv))} {s : HomeState}
    (hnamed : ∀ op ∈ ops, op.1.Named) (hs : (selection s).InStep)
    (hmode : ∀ x ∈ steps net packageName ops s, ¬ x.LosesMode net packageName) :
    InStepThroughout net packageName ops s := by
  induction ops generalizing s with
  | nil => exact ⟨hs, fun _ hx => absurd hx (by simp [steps])⟩
  | cons op ops ih =>
    rw [List.forall_mem_cons] at hnamed
    rw [steps, List.forall_mem_cons] at hmode
    have hkeeps := Step.keeps hnamed.1 hs hmode.1
    refine ⟨hs, ?_⟩
    rw [steps, List.forall_mem_cons]
    exact ⟨hkeeps, (ih hnamed.2 hkeeps.inStep hmode.2).steps⟩

end Sequence

/-- **The mode stays in step with the selection** in exactly the sequences of completed operations
in which no server card is tapped in Smart Auto with an attempt that fails.  The servers offered
have names. -/
theorem selection_in_step_iff (t : HomeSelection.SelectionState) (label : Option JString)
    (s : HomeState) (ops : List (Operation × (ℕ → HomeEnv))) (hnamed : ∀ op ∈ ops, op.1.Named) :
    InStepThroughout net packageName ops (afterLoading t label s) ↔
      ∀ x ∈ steps net packageName ops (afterLoading t label s), ¬ x.LosesMode net packageName := by
  constructor
  · intro h x hx hmode
    exact Step.not_keeps (inStep_before h x hx) hmode (h.steps x hx)
  · exact inStepThroughout hnamed (inStep_afterLoading t label s)

/-- Nothing is answered. -/
def offline : ℕ → HomeEnv := fun _ => {}

/-- Without a network: a server is chosen by an intent, a card is tapped, the button is pressed, and
Smart Auto is tapped. -/
def offlineOperations : List (Operation × (ℕ → HomeEnv)) :=
  [(.intent HomeSelection.oslo, offline), (.event (.serverCard 1 (jstr "Paris")), offline),
    (.event .connectButton, offline), (.event .smartAutoCard, offline)]

theorem named_offlineOperations : ∀ op ∈ offlineOperations, op.1.Named := by
  have hparis : isNullOrBlank (some (jstr "Paris")) = false := by decide
  simp only [offlineOperations, List.forall_mem_cons]
  exact ⟨trivial, hparis, trivial, trivial, List.forall_mem_nil _⟩

theorem offline_operations_in_step :
    (∀ op ∈ offlineOperations, op.1.Named) ∧
      InStepThroughout GoBackend.noAddresses GoBackend.applicationId offlineOperations
        (afterLoading {} none {}) :=
  ⟨named_offlineOperations,
    (selection_in_step_iff GoBackend.noAddresses GoBackend.applicationId {} none {}
      offlineOperations named_offlineOperations).mpr (by decide +kernel)⟩

/-- **A card tapped in Smart Auto**, without a network: the flag is cleared, and no server is
selected. -/
theorem smart_auto_lost :
    selection (afterLoading {} none {}) = ⟨true, none, none⟩ ∧
      selection (complete GoBackend.noAddresses GoBackend.applicationId
        (.event (.serverCard 1 (jstr "Paris"))) offline (afterLoading {} none {})) =
          ⟨false, none, none⟩ := by
  decide +kernel

end HomeActivity
end AioVpn
