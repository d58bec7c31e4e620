import AioVpn.App.WireGuardSpec
import AioVpn.Home.HomeSpec

/-!
# Attempts to connect

What the jobs that use the backend do with it: the two ways of connecting and the
disconnect.  The results hold in every contract that `Serves` them: permission is
granted at each step, nobody else touches the backend or fetches a configuration while
the job runs, and all that is owed of the job is `Owes`.

* `wp_fetchAndConnect_up`: where fetching, bringing up and validating a configuration
  does not throw, that configuration runs (`Up`).
* `wp_candidateLoop_down` and `wp_specific_down`: an attempt ends with the screen
  connected, or fails with the tunnel taken down.

A failure of Smart Auto before its first candidate takes nothing down; the parameter
`R` of `wp_smartAuto` is what holds then.
-/

namespace AioVpn
namespace HomeActivity

open Coroutine

variable (net : NetApi) (packageName : JString)

/-- Nothing runs. -/
def Down (s : HomeState) : Prop := GoBackend.running s.wg.go = none

/-- The field of the backend holds what runs. -/
def LinkedHome (s : HomeState) : Prop := WireGuardBackend.Linked s.wg

/-- The screen shows a connection. -/
def ShowsConnected (s : HomeState) : Prop := s.currentVpnState = .connected

/-- **Connected to a server**: the flag is set, and what runs is the configuration that
was last fetched for the server. -/
def Up (serverId : ℤ) (s : HomeState) : Prop :=
  s.wg.isConnected = true ∧ ∃ text t c,
    s.finalConfigs.lookup serverId = some text ∧ Config.parse net text = .ok c.config ∧
      GoBackend.RunningWith t c s.wg.go

/-- **What a job owes** before a step: it saves a server as good, and shows a
connection, only while connected to that server, and it does not ask for
permission. -/
def Owes : HomeOp → HomeState → Prop
  | .wg .onVpnPermissionRequired, _ => False
  | .saveLastGood serverId _, s => Up net serverId s
  | .main (.connected serverId _), s => Up net serverId s
  | _, _ => True

/-- Permission is granted at every step. -/
def alwaysGranted : WireGuardBackend.Assume := fun o env _ =>
  o = .prepare → env.prepareIntent = false

theorem granted_alwaysGranted : WireGuardBackend.Granted alwaysGranted := fun _ _ h => h rfl

/-- The contracts considered. -/
structure Serves (D : Contract HomeOp HomeOp.Res HomeEnv HomeState) : Prop where
  perform_eq : D.perform = perform net packageName
  /-- The backend and the fetched configurations are the job's own. -/
  rely : ∀ s t, D.rely s t → Same s t
  granted : ∀ env s, D.assume (.wg .prepare) env s → env.wg.prepareIntent = false
  assert : ∀ o s, Owes net o s → D.assert o s

variable {net packageName}

theorem LinkedHome.of_same {s s' : HomeState} (hs : LinkedHome s) (h : Same s s') :
    LinkedHome s' := by
  rw [LinkedHome, h.wg]
  exact hs

theorem Down.of_same {s s' : HomeState} (hs : Down s) (h : Same s s') : Down s' := by
  rw [Down, h.wg]
  exact hs

theorem Up.of_same {serverId : ℤ} {s s' : HomeState} (hs : Up net serverId s) (h : Same s s') :
    Up net serverId s' := by
  rw [Up, h.wg, h.finalConfigs]
  exact hs

/-- Nothing is owed at these steps. -/
def Free : HomeOp → Prop
  | .wg _ => False
  | .wgConfig _ => False
  | .saveLastGood _ _ => False
  | .main (.connected _ _) => False
  | _ => True

theorem Free.leavesSame {o : HomeOp} (ho : Free o) : LeavesSame o := by
  cases o <;> trivial

theorem Free.owes {o : HomeOp} (ho : Free o) (s : HomeState) : Owes net o s := by
  cases o with
  | wg o => exact ho.elim
  | saveLastGood serverId label => exact ho.elim
  | main b => cases b <;> trivial
  | _ => trivial

section Parts

variable {D : Contract HomeOp HomeOp.Res HomeEnv HomeState} (hD : Serves net packageName D)
  {s : HomeState}

include hD

/-- A part of a job where nothing is owed. -/
theorem wp_free {α : Type} {p : HomeProg α} (hp : p.OnlyOps Free) :
    D.wp (fun _ => Same s) (fun _ => Same s) p s := by
  refine Contract.wp_of_onlyOps (I := Same s) ?_ ?_ ?_ hp (Same.refl s)
  · exact fun _ _ h hrely => h.trans (hD.rely _ _ hrely)
  · exact fun o s' ho _ => hD.assert o s' (ho.owes s')
  · intro o env s' ho h _
    rw [hD.perform_eq]
    exact h.trans (same_perform net packageName ho.leavesSame env s')

/-- Such a part, and what follows it. -/
theorem wp_free_bind {α β : Type} {p : HomeProg α} {f : α → HomeProg β}
    {Q : β → HomeState → Prop} {E : HomeExn → HomeState → Prop} (hp : p.OnlyOps Free)
    (hE : ∀ e s', Same s s' → E e s') (hf : ∀ a s', Same s s' → D.wp Q E (f a) s') :
    D.wp Q E (p.bind f) s := by
  rw [Contract.wp_bind]
  exact Contract.wp_mono hf hE (wp_free hD hp)

/-- One step that leaves the backend alone. -/
theorem wp_step_same {o : HomeOp} {Q : o.Res → HomeState → Prop} {E : HomeExn → HomeState → Prop}
    (howes : ∀ s', Same s s' → Owes net o s')
    (hQ : ∀ env s', Same s s' →
      Q (perform net packageName o env s').1 (perform net packageName o env s').2) :
    D.wp Q E (step o) s := by
  intro s₁ hrely
  have hsame := hD.rely s s₁ hrely
  refine ⟨hD.assert o s₁ (howes s₁ hsame), fun env _ => ?_⟩
  rw [hD.perform_eq]
  exact hQ env s₁ hsame

/-! ## The backend -/

/-- **A body of the backend inside a job.**  What is known of the body run alone holds
here, too. -/
theorem wp_backend {α : Type} {p : WgProg α} {Q : α → WgState → Prop}
    {E : ConnectExn → WgState → Prop}
    (h : (WireGuardBackend.quiet net packageName alwaysGranted).wp Q E p s.wg) :
    D.wp (fun a s' => s'.finalConfigs = s.finalConfigs ∧ Q a s'.wg)
      (fun _ s' => ∃ e, E e s'.wg) (backend p) s := by
  rw [backend, Contract.wp_mapError]
  refine Contract.wp_hoist (C := WireGuardBackend.quiet net packageName alwaysGranted)
    (F := fun s t : HomeState => t.finalConfigs = s.finalConfigs) (fun _ => rfl)
    (fun h h' => h'.trans h) ?_ ?_ ?_ (Contract.wp_mono ?_ ?_ h)
  · intro s t hrely
    exact ⟨(hD.rely s t hrely).finalConfigs, (hD.rely s t hrely).wg.symm⟩
  · intro o s hask
    refine hD.assert (.wg o) s ?_
    cases o with
    | onVpnPermissionRequired => exact absurd granted_alwaysGranted (hask rfl)
    | _ => trivial
  · intro o env s hassume
    rw [hD.perform_eq]
    refine ⟨env.wg, ?_, rfl, rfl, rfl⟩
    rintro rfl
    exact hD.granted env s hassume
  · rintro a w hw s' hF rfl
    exact ⟨hF, hw⟩
  · rintro e w hw s' - rfl
    exact ⟨e, hw⟩

/-- `connect` brings the configuration up or throws. -/
theorem wp_connect_serves (text : JString) (hs : LinkedHome s) :
    D.wp (fun _ s' => s'.finalConfigs = s.finalConfigs ∧ LinkedHome s' ∧ s'.wg.isConnected = true ∧
        ∃ t c, Config.parse net text = .ok c.config ∧ GoBackend.RunningWith t c s'.wg.go)
      (fun _ => LinkedHome) (backend (WireGuardBackend.connect text)) s := by
  have hconnect : (WireGuardBackend.quiet net packageName alwaysGranted).wp
      (fun _ w => WireGuardBackend.Linked w ∧ w.isConnected = true ∧
        ∃ t c, Config.parse net text = .ok c.config ∧ GoBackend.RunningWith t c w.go)
      (fun _ => WireGuardBackend.Linked) (WireGuardBackend.connect text) s.wg := by
    refine Contract.wp_mono ?_ (fun _ _ h => h.linked hs) (WireGuardBackend.wp_connect text hs)
    intro _ w h
    have hlinked := h.linked hs
    cases h with
    | asked _ hA => exact absurd granted_alwaysGranted hA
    | up t c _ _ hparse hrunning hflag =>
      exact ⟨hlinked, hflag, t, c, hparse, hlinked.inv.runningWith hrunning⟩
  refine Contract.wp_mono (fun _ _ h => h) ?_ (wp_backend hD hconnect)
  rintro _ s' ⟨-, h⟩
  exact h

/-- `disconnect` leaves nothing running and does not throw. -/
theorem wp_disconnect_serves (hs : LinkedHome s) :
    D.wp (fun _ s' => LinkedHome s' ∧ Down s') (fun _ _ => False)
      (backend WireGuardBackend.disconnect) s := by
  refine Contract.wp_mono ?_ ?_ (wp_backend hD (WireGuardBackend.wp_disconnect hs))
  · rintro _ s' ⟨-, hlinked, hnone, -⟩
    exact ⟨hlinked, hnone⟩
  · rintro _ s' ⟨-, h⟩
    exact h

theorem wp_disconnectQuietly_serves (hs : LinkedHome s) :
    D.wp (fun _ s' => LinkedHome s' ∧ Down s') (fun _ _ => False) disconnectQuietly s := by
  rw [disconnectQuietly, Contract.wp_tryCatch]
  exact Contract.wp_mono (fun _ _ h => h) (fun _ _ h => h.elim) (wp_disconnect_serves hD hs)

/-! ## An attempt on one server -/

/-- The fetch logs the configuration it returns. -/
theorem wp_wgConfig (serverId : ℤ) (hs : LinkedHome s) :
    D.wp (fun r s' => LinkedHome s' ∧ ∀ text, r = .ok text →
        s'.finalConfigs.lookup serverId = some text)
      (fun _ _ => False) (step (.wgConfig serverId)) s := by
  refine wp_step_same hD (fun _ _ => trivial) ?_
  intro env s' hsame
  have hlinked : LinkedHome s' := hs.of_same hsame
  rw [perform]
  split
  · refine ⟨hlinked, ?_⟩
    rintro _ ⟨⟩
    simp
  · exact ⟨hlinked, by simp⟩

/-- **Fetch, bring up, validate.** -/
theorem wp_fetchAndConnect_up (serverId : ℤ) (label : JString) (hs : LinkedHome s) :
    D.wp (fun _ s' => LinkedHome s' ∧ Up net serverId s') (fun _ => LinkedHome)
      (fetchAndConnect serverId label) s := by
  refine Contract.wp_seq (wp_wgConfig hD serverId hs) (fun _ _ h => h.elim) ?_
  rintro r s₁ ⟨h₁, hlog⟩
  cases r with
  | error e => exact h₁
  | ok text =>
    refine Contract.wp_seq (p := backend _) (wp_connect_serves hD text h₁) (fun _ _ h => h) ?_
    rintro _ s₂ ⟨hconfigs, h₂, hflag, t, c, hparse, hrunning⟩
    have hup : Up net serverId s₂ :=
      ⟨hflag, text, t, c, by rw [hconfigs]; exact hlog text rfl, hparse, hrunning⟩
    -- nothing touches the backend from here on
    have hrest : ∀ s', Same s₂ s' → LinkedHome s' ∧ Up net serverId s' :=
      fun s' h => ⟨h₂.of_same h, hup.of_same h⟩
    have hfree : (Prog.bind (step (.main (.verifying (jstr "Verifying " ++ label ++ jstr "..."))))
        fun _ => (step .delay).bind fun _ => validateTunnelOrThrow (some label)).OnlyOps Free :=
      (Prog.OnlyOps.perform (by trivial)).bind fun _ =>
        (Prog.OnlyOps.perform (by trivial)).bind fun _ =>
          onlyOps_validateTunnelOrThrow (by trivial) _
    exact Contract.wp_mono (fun _ s' h => hrest s' h) (fun _ s' h => (hrest s' h).1)
      (wp_free hD hfree)

/-- The end of a successful attempt. -/
theorem wp_saveLastGood {serverId : ℤ} (label text : JString) (hs : LinkedHome s)
    (hup : Up net serverId s) {E : HomeExn → HomeState → Prop} :
    D.wp (fun _ s' => LinkedHome s' ∧ ShowsConnected s') E
      ((step (.saveLastGood serverId label)).bind fun _ =>
        step (.main (.connected serverId text))) s := by
  rw [Contract.wp_bind]
  refine wp_step_same hD (fun _ h => hup.of_same h) ?_
  intro env s₁ h₁
  refine wp_step_same hD (fun _ h => hup.of_same (h₁.trans ⟨h.wg, h.finalConfigs⟩)) ?_
  intro _ s₂ h₂
  exact ⟨hs.of_same (h₁.trans ⟨h₂.wg, h₂.finalConfigs⟩), rfl⟩

/-! ## Smart Auto -/

theorem wp_tryCandidate_up (candidate : WgServerDto) (hs : LinkedHome s) :
    D.wp (fun _ s' => LinkedHome s' ∧ ShowsConnected s') (fun _ => LinkedHome)
      (tryCandidate candidate) s := by
  refine wp_free_bind hD (Prog.OnlyOps.perform (by trivial)) (fun _ _ => hs.of_same)
    fun _ s₁ h₁ => ?_
  refine Contract.wp_seq
    (wp_fetchAndConnect_up hD candidate.id candidate.displayName (hs.of_same h₁))
    (fun _ _ h => h) ?_
  rintro _ s₂ ⟨h₂, hup⟩
  refine wp_free_bind hD (Prog.OnlyOps.perform (by trivial)) (fun _ _ => h₂.of_same)
    fun _ s₃ h₃ => ?_
  exact wp_saveLastGood hD _ _ (h₂.of_same h₃) (hup.of_same h₃)

/-- **The candidate loop** ends connected, or fails with nothing running.  `R` is what
holds when there are no candidates at all. -/
theorem wp_candidateLoop_down {R : HomeState → Prop}
    (hR : ∀ s', LinkedHome s' → Down s' → R s') (candidates : List WgServerDto)
    (lastError : Option HomeExn) (hs : LinkedHome s) (hnil : candidates = [] → R s) :
    D.wp (fun _ s' => LinkedHome s' ∧ ShowsConnected s') (fun _ => R)
      (candidateLoop candidates lastError) s := by
  induction candidates generalizing lastError s with
  | nil => exact hnil rfl
  | cons candidate rest ih =>
    rw [candidateLoop, Contract.wp_bind, Contract.wp_tryCatch, Contract.wp_bind]
    refine Contract.wp_mono (fun _ _ h => h) ?_ (wp_tryCandidate_up hD candidate hs)
    intro e s₁ h₁
    -- the failed attempt is taken down before the next one
    rw [Contract.wp_bind]
    refine Contract.wp_mono ?_ (fun _ _ h => h.elim) (wp_disconnectQuietly_serves hD h₁)
    rintro _ s₂ ⟨h₂, hdown₂⟩
    exact ih (some e) h₂ fun _ => hR s₂ h₂ hdown₂

/-- The job of Smart Auto, for what choosing the candidates guarantees. -/
theorem wp_smartAuto {R Q : HomeState → Prop} (hR : ∀ s', LinkedHome s' → Down s' → R s')
    (hsame : ∀ s₁ s₂, R s₁ → Same s₁ s₂ → R s₂)
    (hconnected : ∀ s', LinkedHome s' → ShowsConnected s' → Q s')
    (hfailed : ∀ s', R s' → Q s') (forceFresh : Bool)
    (hcandidates : D.wp (fun candidates s' => LinkedHome s' ∧ (candidates = [] → R s'))
      (fun _ => R) (smartCandidates forceFresh) s) :
    D.wp (fun _ => Q) (fun _ => Q) (connectSmartAuto forceFresh) s := by
  rw [connectSmartAuto, Contract.wp_tryCatch]
  have hcatch : ∀ (_ : HomeExn) s', R s' →
      D.wp (fun _ => Q) (fun _ => Q) (step (.main (.failed (jstr "Smart Auto")))) s' := by
    intro _ s₁ h₁
    refine wp_step_same hD (fun _ _ => trivial) ?_
    intro _ s₂ h₂
    exact hfailed _ (hsame s₁ _ h₁ (h₂.trans (same_run (.failed _) s₂)))
  refine Contract.wp_seq hcandidates hcatch ?_
  rintro candidates s₁ ⟨h₁, hnil⟩
  exact Contract.wp_mono (fun _ s' h => hconnected s' h.1 h.2) hcatch
    (wp_candidateLoop_down hD hR candidates none h₁ hnil)

/-- Choosing the candidates leaves the backend alone. -/
theorem wp_smartCandidates {R : HomeState → Prop} (forceFresh : Bool) (hs : LinkedHome s)
    (hR : ∀ s', Same s s' → R s') :
    D.wp (fun candidates s' => LinkedHome s' ∧ (candidates = [] → R s')) (fun _ => R)
      (smartCandidates forceFresh) s := by
  have hfree : (smartCandidates forceFresh).OnlyOps Free :=
    (onlyOps_smartCandidates forceFresh).mono fun o ho => by cases o <;> trivial
  exact Contract.wp_mono (fun _ s' h => ⟨hs.of_same h, fun _ => hR s' h⟩) (fun _ => hR)
    (wp_free hD hfree)

/-! ## A chosen server, and the disconnect -/

/-- The `catch` of `connectToSpecificServer` leaves nothing running. -/
theorem wp_specific_catch (previousServerId : Option ℤ) (previousServerLabel : Option JString)
    (hs : LinkedHome s) {Q : HomeState → Prop} (hQ : ∀ s', LinkedHome s' → Down s' → Q s') :
    D.wp (fun _ => Q) (fun _ => Q)
      (do
        disconnectQuietly
        step (.setSelectedServerId previousServerId)
        step (.setSelectedServerLabel previousServerLabel)
        step (.main (.failed (previousServerLabel.getD (jstr "Smart Auto"))))) s := by
  refine Contract.wp_seq (wp_disconnectQuietly_serves hD hs) (fun _ _ h => h.elim) ?_
  rintro _ s₁ ⟨h₁, hdown₁⟩
  have hend : ∀ s', Same s₁ s' → Q s' := fun s' h => hQ s' (h₁.of_same h) (hdown₁.of_same h)
  refine wp_free_bind hD (Prog.OnlyOps.perform (by trivial)) (fun _ => hend) fun _ s₂ h₂ => ?_
  refine wp_free_bind hD (Prog.OnlyOps.perform (by trivial))
    (fun _ s' h => hend s' (h₂.trans h)) fun _ s₃ h₃ => ?_
  exact Contract.wp_mono (fun _ s' h => hend s' (h₂.trans (h₃.trans h)))
    (fun _ s' h => hend s' (h₂.trans (h₃.trans h)))
    (wp_free hD (Prog.OnlyOps.perform (by trivial)))

/-- **The job of `connectToSpecificServer`** ends connected, or with nothing
running. -/
theorem wp_specific_down {Q : HomeState → Prop}
    (hconnected : ∀ s', LinkedHome s' → ShowsConnected s' → Q s')
    (hdown : ∀ s', LinkedHome s' → Down s' → Q s') (serverId : ℤ) (label : JString)
    (previousServerId : Option ℤ) (previousServerLabel : Option JString) (hs : LinkedHome s) :
    D.wp (fun _ => Q) (fun _ => Q)
      (connectToSpecificServer serverId label previousServerId previousServerLabel) s := by
  rw [connectToSpecificServer, Contract.wp_tryCatch]
  have hcatch := fun (_ : HomeExn) (s' : HomeState) (h : LinkedHome s') =>
    wp_specific_catch hD previousServerId previousServerLabel h hdown
  refine Contract.wp_seq (wp_fetchAndConnect_up hD serverId label hs) hcatch ?_
  rintro _ s₁ ⟨h₁, hup⟩
  refine wp_free_bind hD (Prog.OnlyOps.perform (by trivial))
    (fun e s' h => hcatch e s' (h₁.of_same h)) fun _ s₂ h₂ => ?_
  refine wp_free_bind hD (Prog.OnlyOps.perform (by trivial))
    (fun e s' h => hcatch e s' (h₁.of_same (h₂.trans h))) fun r s₃ h₃ => ?_
  refine wp_free_bind hD (Prog.OnlyOps.ofExcept r)
    (fun e s' h => hcatch e s' (h₁.of_same (h₂.trans (h₃.trans h)))) fun _ s₄ h₄ => ?_
  have hsame := h₂.trans (h₃.trans h₄)
  exact Contract.wp_mono (fun _ s' h => hconnected s' h.1 h.2) hcatch
    (wp_saveLastGood hD label label (h₁.of_same hsame) (hup.of_same hsame))

/-- **The job of `disconnectCurrentTunnel`.** -/
theorem wp_disconnectCurrentTunnel_down (hs : LinkedHome s) :
    D.wp (fun j s' => j = none ∧ LinkedHome s' ∧ Down s') (fun _ _ => False)
      disconnectCurrentTunnel s := by
  rw [disconnectCurrentTunnel, Contract.wp_tryCatch]
  refine Contract.wp_seq (wp_disconnect_serves hD hs) (fun _ _ h => h.elim) ?_
  rintro _ s₁ ⟨h₁, hdown₁⟩
  refine (Contract.wp_bind _ _ _ _ _).mpr (wp_step_same hD (fun _ _ => trivial) ?_)
  intro _ s₂ h₂
  have hsame : Same s₁ (MainBlock.disconnected.run s₂) := h₂.trans (same_run _ s₂)
  exact ⟨rfl, h₁.of_same hsame, hdown₁.of_same hsame⟩

end Parts

end HomeActivity
end AioVpn
