import AioVpn.Home.HomeActivity

/-!
# The steps of the activity

What one step or one event of the activity does, for the proofs about whole jobs and
whole runs.

* `Handled` lists what an event can do; `handled` says that there is nothing else.
* `Same` relates states in which the backend and the fetched configurations are the
  same.  Every step but those of the backend and the fetch of a configuration leaves
  them so (`same_perform`).
* `Looks` are the steps with which Smart Auto chooses its candidates
  (`onlyOps_smartCandidates`), and `Dials` those with which a server is connected to
  (`onlyOps_fetchAndConnect`).
-/

namespace AioVpn
namespace HomeActivity

open Coroutine

variable (net : NetApi) (packageName : JString)

/-! ## Events -/

/-- The event is a click. -/
def Event.isClick : Event → Bool
  | .connectButton => true
  | .serverCard _ _ => true
  | .smartAutoCard => true
  | _ => false

/-- The backend and the fetched configurations are the same. -/
structure Same (s t : HomeState) : Prop where
  wg : t.wg = s.wg
  finalConfigs : t.finalConfigs = s.finalConfigs

theorem Same.refl (s : HomeState) : Same s s := ⟨rfl, rfl⟩

theorem Same.trans {s t u : HomeState} (h : Same s t) (h' : Same t u) : Same s u :=
  ⟨h'.wg.trans h.wg, h'.finalConfigs.trans h.finalConfigs⟩

/-- **What an event does** in the state `s`. -/
inductive Handled (s : HomeState) : Event → HomeState → Option Job → Prop where
  /-- The guard is closed. -/
  | ignored (e : Event) : Handled s e s none
  /-- A click passes the guard, closes it and launches an operation. -/
  | operation (e : Event) (s' : HomeState) (job : Job) (hclick : e.isClick = true)
      (hfree : isBusy s = false) (hbusy : isBusy s' = true) (hsame : Same s s')
      (hjob : job.isOperation = true) : Handled s e s' (some job)
  /-- The Smart Auto card passes the guard; it will be checked again. -/
  | select (s' : HomeState) (hfree : isBusy s = false)
      (hstate : s'.currentVpnState = s.currentVpnState) (hsame : Same s s') :
      Handled s .smartAutoCard s' (some .selectSmartAutoAndConnect)
  | resume : Handled s .resume s (some .updateUiFromBackendState)
  /-- The user grants permission in a dialog. -/
  | granted (hdialogs : s.wg.dialogs ≠ 0) :
      Handled s (.permissionResult true)
        { s with wg := { s.wg with dialogs := s.wg.dialogs - 1 } } (some .onActivityResult)
  /-- The user refuses it. -/
  | refused (hdialogs : s.wg.dialogs ≠ 0) :
      Handled s (.permissionResult false)
        (MainBlock.retryFailed.run { s with wg := { s.wg with dialogs := s.wg.dialogs - 1 } }) none

theorem handled_clickServer {e : Event} (hclick : e.isClick = true) (serverId : ℤ)
    (label : JString) (s : HomeState) :
    Handled s e (clickServer serverId label s).1 (clickServer serverId label s).2 := by
  by_cases hbusy : isBusy s = true
  · rw [clickServer, if_pos hbusy]
    exact .ignored e
  · rw [clickServer, if_neg hbusy]
    refine .operation e _ _ hclick (by simpa using hbusy) ?_ ⟨rfl, rfl⟩ rfl
    by_cases hconnected : s.currentVpnState = .connected <;> simp [isBusy, hconnected]

theorem handled_clickSmartAuto {e : Event} (hclick : e.isClick = true) (s : HomeState) :
    Handled s e (clickSmartAuto s).1 (clickSmartAuto s).2 := by
  by_cases hbusy : isBusy s = true
  · have hstart : startSmartAuto s = (false, s) := if_pos hbusy
    rw [clickSmartAuto, hstart]
    exact .ignored e
  · rw [clickSmartAuto, startSmartAuto, if_neg hbusy]
    exact .operation e _ _ hclick (by simpa using hbusy) rfl ⟨rfl, rfl⟩ rfl

theorem handled_clickDisconnect {e : Event} (hclick : e.isClick = true) (s : HomeState) :
    Handled s e (clickDisconnect s).1 (clickDisconnect s).2 := by
  by_cases hbusy : isBusy s = true
  · rw [clickDisconnect, if_pos hbusy]
    exact .ignored e
  · rw [clickDisconnect, if_neg hbusy]
    exact .operation e _ _ hclick (by simpa using hbusy) rfl ⟨rfl, rfl⟩ rfl

theorem handled_handleConnectButtonClick (s : HomeState) :
    Handled s .connectButton (handleConnectButtonClick s).1 (handleConnectButtonClick s).2 := by
  rw [handleConnectButtonClick]
  split
  · exact .ignored _
  split
  · exact handled_clickDisconnect rfl s
  split
  · exact handled_clickSmartAuto rfl s
  split
  · exact handled_clickSmartAuto rfl s
  · exact handled_clickServer rfl _ _ s

theorem handled_clickSmartAutoCard (s : HomeState) :
    Handled s .smartAutoCard (clickSmartAutoCard s).1 (clickSmartAutoCard s).2 := by
  by_cases hbusy : isBusy s = true
  · rw [clickSmartAutoCard, if_pos hbusy]
    exact .ignored _
  · rw [clickSmartAutoCard, if_neg hbusy]
    exact .select _ (by simpa using hbusy) rfl ⟨rfl, rfl⟩

/-- **There is nothing else an event can do.** -/
theorem handled {e : Event} {s s' : HomeState} {j : Option Job} (h : handle e s = some (s', j)) :
    Handled s e s' j := by
  have hpair : ∀ x : HomeState × Option Job, x = (s', j) → Handled s e x.1 x.2 →
      Handled s e s' j := by
    rintro _ rfl hx
    exact hx
  cases e with
  | connectButton => exact hpair _ (Option.some.inj h) (handled_handleConnectButtonClick s)
  | serverCard serverId label =>
    exact hpair _ (Option.some.inj h) (handled_clickServer rfl serverId label s)
  | smartAutoCard => exact hpair _ (Option.some.inj h) (handled_clickSmartAutoCard s)
  | resume => exact hpair _ (Option.some.inj h) .resume
  | permissionResult granted =>
    rw [handle, permissionResult] at h
    split at h
    · exact absurd h (by simp)
    · rename_i hdialogs
      cases granted with
      | true => exact hpair _ (Option.some.inj h) (.granted hdialogs)
      | false => exact hpair _ (Option.some.inj h) (.refused hdialogs)

/-! ## Steps -/

/-- The step leaves the backend and the fetched configurations alone. -/
def LeavesSame : HomeOp → Prop
  | .wg _ => False
  | .wgConfig _ => False
  | _ => True

theorem same_run (b : MainBlock) (s : HomeState) : Same s (b.run s) := by
  cases b with
  | backendState connected => cases connected <;> exact ⟨rfl, rfl⟩
  | _ => exact ⟨rfl, rfl⟩

theorem same_perform {o : HomeOp} (ho : LeavesSame o) (env : HomeEnv) (s : HomeState) :
    Same s (perform net packageName o env s).2 := by
  cases o with
  | wg o => exact absurd ho (by simp [LeavesSame])
  | wgConfig serverId => exact absurd ho (by simp [LeavesSame])
  | main b => exact same_run b s
  | saveLastServer serverId label =>
    rw [perform]
    split <;> exact ⟨rfl, rfl⟩
  | clearLastServer =>
    rw [perform]
    split <;> exact ⟨rfl, rfl⟩
  | startSmartAuto =>
    rw [perform, startSmartAuto]
    split <;> exact ⟨rfl, rfl⟩
  | _ => exact ⟨rfl, rfl⟩

/-- The steps that choose the candidates of Smart Auto. -/
def Looks : HomeOp → Prop
  | .servers => True
  | .cachedRankings => True
  | .rankServers _ => True
  | .setRankings _ => True
  | .getLastGood => True
  | _ => False

theorem onlyOps_getOrBuildRankings (servers : List WgServerDto) :
    (getOrBuildRankings servers).OnlyOps Looks := by
  refine (Prog.OnlyOps.perform (by trivial)).bind fun cached => ?_
  cases cached with
  | some ranked => trivial
  | none =>
    exact (Prog.OnlyOps.perform (by trivial)).bind fun _ =>
      (Prog.OnlyOps.perform (by trivial)).bind fun _ => trivial

theorem onlyOps_smartCandidates (forceFresh : Bool) :
    (smartCandidates forceFresh).OnlyOps Looks := by
  refine (Prog.OnlyOps.perform (by trivial)).bind fun r => (Prog.OnlyOps.ofExcept r).bind
    fun servers => ?_
  split
  · trivial
  · refine (onlyOps_getOrBuildRankings servers).bind fun ranked => ?_
    split
    · trivial
    · unfold orderedCandidates
      split
      · trivial
      · exact (Prog.OnlyOps.perform (by trivial)).bind fun _ => trivial

theorem onlyOps_validateTunnelOrThrow {P : HomeOp → Prop} (hP : P .waitForWorkingTunnel)
    (serverName : Option JString) : (validateTunnelOrThrow serverName).OnlyOps P := by
  refine (Prog.OnlyOps.perform hP).bind fun ok => ?_
  cases ok <;> trivial

theorem onlyOps_backend {P : HomeOp → Prop} (hP : ∀ o, P (.wg o)) {α : Type} (p : WgProg α) :
    (backend p).OnlyOps P :=
  Prog.OnlyOps.tryCatch (Prog.OnlyOps.hoist hP p) fun _ => trivial

/-- The steps that fetch a configuration, bring it up and have it validated. -/
def Dials : HomeOp → Prop
  | .wg _ => True
  | .wgConfig _ => True
  | .main (.verifying _) => True
  | .delay => True
  | .waitForWorkingTunnel => True
  | _ => False

theorem onlyOps_fetchAndConnect (serverId : ℤ) (label : JString) :
    (fetchAndConnect serverId label).OnlyOps Dials :=
  (Prog.OnlyOps.perform (by trivial)).bind fun r => (Prog.OnlyOps.ofExcept r).bind fun _ =>
    (onlyOps_backend (fun _ => trivial) _).bind fun _ =>
      (Prog.OnlyOps.perform (by trivial)).bind fun _ =>
        (Prog.OnlyOps.perform (by trivial)).bind fun _ =>
          onlyOps_validateTunnelOrThrow (by trivial) _

/-! ## The fetch of a configuration -/

section Fetch

variable {net packageName} {env : HomeEnv} (serverId : ℤ) (s : HomeState)

theorem perform_wgConfig_of_error {e : HomeExn} (h : repoWgConfig env = .error e) :
    perform net packageName (.wgConfig serverId) env s = (.error e, s) := by
  rw [perform, h]

/-- A configuration that is fetched is logged. -/
theorem perform_wgConfig_of_ok {text : JString} (h : repoWgConfig env = .ok text) :
    perform net packageName (.wgConfig serverId) env s =
      (.ok text, { s with finalConfigs := (serverId, text) :: s.finalConfigs }) := by
  rw [perform, h]

end Fetch

end HomeActivity
end AioVpn
