import AioVpn.App.ConnectedFlag
import AioVpn.Coroutine.Outline
import AioVpn.Home.HomeActivity

/-!
# The list of servers

A tap on a server in `ServerListActivity` launches a coroutine that notes the server in two
static fields, fetches its configuration, calls `WireGuardBackend.connect`, and opens the
home screen for the server.  Nothing keeps a second tap from launching a second coroutine.
When the user answers the permission dialog, `onActivityResult` launches a coroutine that
retries what the backend has kept and opens the home screen for the server in the static
fields.

The home screen is to be opened for the server that is connected: a tunnel runs, and its
configuration is one that was fetched for this server (`Shown`).

## What can go wrong

`connect` returns normally when it has to ask for permission, so the home screen is opened
with nothing running.  And while one coroutine is between its `setState` and the home screen,
another one can bring up the configuration of another server (`home_opened_for_another`).

In every run in which `connect` finds permission granted, and `setState` is called only while
no coroutine is between its own call and the home screen, the server shown is the server
connected (`shown_is_connected`).  Everything else overlaps freely: the taps, the fetches, and
the steps of `connect` before `setState`, where two coroutines may well create two tunnels.  A
dialog that is opened is followed by the home screen with nothing new running, so there is none
in such a run, and the coroutine of `onActivityResult` is not launched.

Of the backend only the field of the running tunnel matters here.  `Rest` says what is true of it
at each point of `connect`: nothing before `setState`, and behind it that the configuration runs.
-/

namespace AioVpn

open Coroutine

/-- The static fields of the activity, and the backend. -/
structure ServerListState where
  wg : WgState := { permissionCallback := true }
  pendingServerId : Option ℤ := none
  pendingServerLabel : Option JString := none
  /-- The lines `FINAL WG CONFIG` of the log, the latest first. -/
  finalConfigs : List (ℤ × JString) := []

namespace ServerListActivity

/-- The atomic steps. -/
inductive ServerListOp where
  /-- A step of `WireGuardBackend`. -/
  | wg (o : WgOp)
  | setPendingServerId (id : Option ℤ)
  | setPendingServerLabel (label : Option JString)
  /-- `repo.wgConfig(serverId)`. -/
  | wgConfig (serverId : ℤ)
  | openHomeForConnectedServer (serverId : ℤ) (serverLabel : JString)
  /-- The toast `Connection failed`. -/
  | toast (e : HomeExn)
  deriving DecidableEq

/-- The answers to the steps. -/
@[reducible] def ServerListOp.Res : ServerListOp → Type
  | wg o => o.Res
  | setPendingServerId _ => Unit
  | setPendingServerLabel _ => Unit
  | wgConfig _ => Except HomeExn JString
  | openHomeForConnectedServer _ _ => Unit
  | toast _ => Unit

/-- The answer to a step and the state after it. -/
def perform (net : NetApi) (packageName : JString) :
    (o : ServerListOp) → HomeEnv → ServerListState → o.Res × ServerListState
  | .wg o, env, s =>
      let x := WireGuardBackend.perform net packageName o env.wg s.wg
      (x.1, { s with wg := x.2 })
  | .setPendingServerId id, _, s => ((), { s with pendingServerId := id })
  | .setPendingServerLabel label, _, s => ((), { s with pendingServerLabel := label })
  | .wgConfig serverId, env, s =>
      match HomeActivity.repoWgConfig env with
      | .ok text => (.ok text, { s with finalConfigs := (serverId, text) :: s.finalConfigs })
      | .error e => (.error e, s)
  | .openHomeForConnectedServer _ _, _, s => ((), s)
  | .toast _, _, s => ((), s)

/-- A body over these steps. -/
abbrev ServerListProg (α : Type) := Prog ServerListOp ServerListOp.Res HomeExn α

/-- One atomic step of a body. -/
def step (o : ServerListOp) : ServerListProg o.Res := Prog.perform o

/-- A body of `WireGuardBackend`, run here. -/
def backend {α : Type} (p : WgProg α) : ServerListProg α :=
  Prog.mapError HomeExn.backend (p.hoist ServerListOp.wg fun _ r => r)

/-- The coroutine of `connectToServer`. -/
def connectToServer (server : WgServerDto) : ServerListProg Unit :=
  Prog.tryCatch
    (do
      step (.setPendingServerId (some server.id))
      step (.setPendingServerLabel (some server.displayName))
      let config ← Prog.ofExcept (← step (.wgConfig server.id))
      backend (WireGuardBackend.connect config)
      step (.openHomeForConnectedServer server.id server.displayName))
    (fun e => step (.toast e))

/-- The coroutine of `onActivityResult`. -/
def retryConnection (serverId : ℤ) (serverLabel : JString) : ServerListProg Unit :=
  Prog.tryFinally
    (Prog.tryCatch
      (do
        backend WireGuardBackend.retryConnectionAfterPermission
        step (.openHomeForConnectedServer serverId serverLabel))
      (fun e => step (.toast e)))
    (do
      step (.setPendingServerId none)
      step (.setPendingServerLabel none))

/-- The coroutines. -/
inductive Job where
  | connectToServer (server : WgServerDto)
  | retryConnection (serverId : ℤ) (serverLabel : JString)
  deriving DecidableEq

/-- The body of a coroutine. -/
def bodyOf : Job → ServerListProg Unit
  | .connectToServer server => connectToServer server
  | .retryConnection serverId serverLabel => retryConnection serverId serverLabel

/-- `onActivityResult`. -/
def onActivityResult (resultOk : Bool) (s : ServerListState) : ServerListState × Option Job :=
  match resultOk, s.pendingServerId, s.pendingServerLabel with
  | true, some serverId, some serverLabel => (s, some (.retryConnection serverId serverLabel))
  | _, _, _ => ({ s with pendingServerId := none, pendingServerLabel := none }, none)

/-- A server is tapped, or an open permission dialog is answered. -/
inductive Event where
  | tap (server : WgServerDto)
  | permissionResult (resultOk : Bool)

/-- The activity as a system of coroutines. -/
def system (net : NetApi) (packageName : JString) :
    System ServerListOp ServerListOp.Res HomeExn HomeEnv ServerListState Job Event where
  perform := perform net packageName
  body := fun job => do
    bodyOf job
    pure none
  handle
    | .tap server, s => some (s, some (.connectToServer server))
    | .permissionResult resultOk, s =>
        if s.wg.dialogs = 0 then none
        else some (onActivityResult resultOk
          { s with wg := { s.wg with dialogs := s.wg.dialogs - 1 } })

/-- A configuration of the activity. -/
abbrev ServerListConf := Conf ServerListOp ServerListOp.Res HomeExn Job ServerListState

/-- A coroutine of the activity. -/
abbrev ServerListThread := Thread ServerListOp ServerListOp.Res HomeExn Job

/-! ## The runs considered -/

/-- The coroutine has brought its tunnel up and has not opened the home screen. -/
def broughtUp (p : ServerListProg (Option Job)) : Bool :=
  match p.nextOp with
  | some (.wg (.setConnected true)) => true
  | some (.wg (.setPendingConfig none)) => true
  | some (.openHomeForConnectedServer _ _) => true
  | _ => false

/-- `connect` finds permission granted, and `setState` is called only while no coroutine is
between its own call and the home screen. -/
def apart (c : ServerListConf) : Act Event HomeEnv → Bool
  | .event _ => true
  | .step i env =>
      match c.threads[i]? with
      | some ⟨_, .op (.wg .prepare) _⟩ => !env.wg.prepareIntent
      | some ⟨_, .op (.wg (.setState _ _ _)) _⟩ => c.threads.all fun t => !broughtUp t.body
      | _ => true

/-- **The server is connected**: a tunnel runs, and its configuration is parsed from a text
that was fetched for the server. -/
def Shown (net : NetApi) (serverId : ℤ) (s : ServerListState) : Prop :=
  ∃ text t c, (serverId, text) ∈ s.finalConfigs ∧ Config.parse net text = .ok c.config ∧
    GoBackend.RunningWith t c s.wg.go

/-! ## The points of the coroutine -/

/-- It could not connect. -/
def reporting (e : HomeExn) : ServerListProg (Option Job) := .op (.toast e) fun _ => .pure none

section Points

variable (server : WgServerDto)

/-- This rest of `connect` is in front of it. -/
def connecting (q : WgProg Unit) : ServerListProg (Option Job) :=
  Prog.bind
    (Prog.tryCatch ((backend q).bind fun _ =>
        step (.openHomeForConnectedServer server.id server.displayName))
      fun e => step (.toast e))
    fun _ => .pure none

/-- The fetch has been answered. -/
def fetched : Except HomeExn JString → ServerListProg (Option Job)
  | .ok text => connecting server (WireGuardBackend.connect text)
  | .error e => reporting e

/-- The static fields are set. -/
def fetching : ServerListProg (Option Job) := .op (.wgConfig server.id) (fetched server)

/-- The first of them is set. -/
def labelling : ServerListProg (Option Job) :=
  .op (.setPendingServerLabel (some server.displayName)) fun _ => fetching server

/-- It has been launched. -/
def launched : ServerListProg (Option Job) :=
  .op (.setPendingServerId (some server.id)) fun _ => labelling server

theorem body_connectToServer (net : NetApi) (packageName : JString) :
    (system net packageName).body (.connectToServer server) = launched server := by
  have hfetched : ∀ r, fetched server r = Prog.bind
      (Prog.tryCatch ((Prog.ofExcept r).bind fun config =>
          (backend (WireGuardBackend.connect config)).bind fun _ =>
            step (.openHomeForConnectedServer server.id server.displayName))
        fun e => step (.toast e)) fun _ => .pure none := by
    intro r
    cases r <;> rfl
  show Prog.op _ _ = _
  simp only [launched, labelling, fetching, funext hfetched]
  rfl

end Points

/-! ### The points of `connect` -/

/-- The configuration runs, and the field of the permission dialog is cleared. -/
def clearing : WgProg Unit := .op (.setPendingConfig none) fun _ => .pure ()

/-- The configuration runs. -/
def raised : WgProg Unit := .op (.setConnected true) fun _ => clearing

/-- It could not be brought up. -/
def lowered (e : ConnectExn) : WgProg Unit := .op (.setConnected false) fun _ => .throw e

/-- The tunnel has been created. -/
def storing (t : Tunnel) (c : ConfigRef) : WgProg Unit :=
  .op (.setTunnel (some t)) fun _ => WireGuardBackend.bringUp t c

/-- There is no tunnel yet. -/
def creating (c : ConfigRef) : WgProg Unit := .op .newTunnel fun t => storing t c

/-- The text has been parsed. -/
def choosing (c : ConfigRef) : WgProg Unit :=
  WireGuardBackend.getOrCreateTunnel.bind fun t => WireGuardBackend.bringUp t c

/-- Permission is granted. -/
def parsing (text : JString) : WgProg Unit :=
  .op (.parse text) fun result => (Prog.ofExcept result).bind choosing

section Runs

variable (net : NetApi) (packageName : JString)

/-- The configuration in this text runs. -/
def Up (text : JString) (w : WgState) : Prop :=
  ∃ t c, Config.parse net text = .ok c.config ∧ GoBackend.RunningWith t c w.go

/-- **What is true at each point** of `connect`. -/
inductive Rest (text : JString) (w : WgState) : WgProg Unit → Prop where
  | parsing : Rest text w (parsing text)
  | choosing (c : ConfigRef) (hparse : Config.parse net text = .ok c.config) :
      Rest text w (choosing c)
  | creating (c : ConfigRef) (hparse : Config.parse net text = .ok c.config) :
      Rest text w (creating c)
  | storing (t : Tunnel) (c : ConfigRef) (hparse : Config.parse net text = .ok c.config) :
      Rest text w (storing t c)
  | raising (t : Tunnel) (c : ConfigRef) (hparse : Config.parse net text = .ok c.config) :
      Rest text w (WireGuardBackend.bringUp t c)
  | raised (hup : Up net text w) : Rest text w raised
  | clearing (hup : Up net text w) : Rest text w clearing
  | lowered (e : ConnectExn) : Rest text w (lowered e)
  | returned (hup : Up net text w) : Rest text w (.pure ())
  | threw (e : ConnectExn) : Rest text w (.throw e)

/-- **What is true at each point** of the coroutine for a server. -/
inductive At (server : WgServerDto) (s : ServerListState) : ServerListProg (Option Job) → Prop where
  | launched : At server s (launched server)
  | labelling : At server s (labelling server)
  | fetching : At server s (fetching server)
  | ready (text : JString) (htext : (server.id, text) ∈ s.finalConfigs) :
      At server s (connecting server (WireGuardBackend.connect text))
  | connecting (text : JString) (q : WgProg Unit) (htext : (server.id, text) ∈ s.finalConfigs)
      (hrest : Rest net text s.wg q) : At server s (connecting server q)
  | reporting (e : HomeExn) : At server s (reporting e)
  | finished : At server s (.pure none)

/-- The proof outline: no dialog is open, the backend is consistent, and each coroutine is at one
of its points. -/
def outline : Outline ServerListOp ServerListOp.Res HomeExn ServerListState Job where
  inv := fun s => s.wg.dialogs = 0 ∧ GoBackend.Inv s.wg.go
  holds := fun job p s => ∃ server, job = .connectToServer server ∧ At net server s p

variable {net packageName} {server : WgServerDto} {s s' : ServerListState} {text : JString}

/-! ### The steps of `connect` -/

/-- What runs is changed by `setState` only. -/
theorem Up.perform {w : WgState} (h : Up net text w) {o : WgOp}
    (ho : ∀ t state config, o ≠ .setState t state config) (env : WgEnv) :
    Up net text (WireGuardBackend.perform net packageName o env w).2 := by
  obtain ⟨t, c, hparse, hrun⟩ := h
  refine ⟨t, c, hparse, ?_⟩
  cases o with
  | setState t state config => exact absurd rfl (ho t state config)
  | setConnected value => exact ⟨hrun.1, hrun.2, hrun.3, hrun.4⟩
  | onVpnPermissionRequired =>
    rw [WireGuardBackend.perform]
    split <;> exact hrun
  | parse text =>
    rw [WireGuardBackend.perform]
    split <;> exact hrun
  | _ => exact hrun

/-- **The call of `setState`** ends with the configuration running, or throws. -/
theorem rest_of_setState {t : Tunnel} {c : ConfigRef} {w : WgState}
    (hparse : Config.parse net text = .ok c.config) (hinv : GoBackend.Inv w.go) (env : WgEnv)
    {k : (WgOp.setState t .up (some c)).Res → WgProg Unit}
    (hk : WireGuardBackend.bringUp t c = .op (.setState t .up (some c)) k) :
    let x := WireGuardBackend.perform net packageName (.setState t .up (some c)) env w
    Rest net text x.2 (k x.1) := by
  intro x
  cases hk
  obtain ⟨r, go, calls, hcall, heff, href⟩ :=
    WireGuardBackend.callSetState_refines net packageName env t .up (some c) hinv
  have hreq : GoBackend.requested t .up w.go = .up := rfl
  rw [hreq] at heff
  have hx : x = (r.mapError .backend, { w with go := go }) :=
    WireGuardBackend.perform_setState net packageName hcall
  rw [hx]
  cases r with
  | ok state =>
    obtain ⟨c', hc, hrunning⟩ := heff.of_up_ok
    obtain rfl := Option.some.inj hc
    exact .raised ⟨t, c, hparse, href.inv.runningWith hrunning⟩
  | error e => exact .lowered _

variable (packageName) in
/-- **One step of `connect`.** -/
theorem Rest.step {w : WgState} {o : WgOp} {k : o.Res → WgProg Unit}
    (h : Rest net text w (.op o k)) (hinv : GoBackend.Inv w.go) (env : WgEnv) :
    o ≠ .prepare ∧ o ≠ .onVpnPermissionRequired ∧
      Rest net text (WireGuardBackend.perform net packageName o env w).2
        (k (WireGuardBackend.perform net packageName o env w).1) := by
  generalize hq : Prog.op o k = q at h
  cases h with
  | parsing =>
    cases hq
    refine ⟨by simp, by simp, ?_⟩
    rw [WireGuardBackend.perform]
    cases hparse : Config.parse net text with
    | error e => exact .threw _
    | ok config => exact .choosing ⟨w.configs, config⟩ hparse
  | choosing c hparse =>
    cases hq
    refine ⟨by simp, by simp, ?_⟩
    rw [WireGuardBackend.perform]
    cases w.tunnel with
    | some t => exact .raising t c hparse
    | none => exact .creating c hparse
  | creating c hparse =>
    cases hq
    exact ⟨by simp, by simp, .storing _ c hparse⟩
  | storing t c hparse =>
    cases hq
    exact ⟨by simp, by simp, .raising t c hparse⟩
  | raising t c hparse =>
    cases hq
    exact ⟨by simp, by simp, rest_of_setState hparse hinv env rfl⟩
  | raised hup =>
    cases hq
    exact ⟨by simp, by simp, .clearing (hup.perform (by simp) env)⟩
  | clearing hup =>
    cases hq
    exact ⟨by simp, by simp, .returned (hup.perform (by simp) env)⟩
  | lowered e =>
    cases hq
    exact ⟨by simp, by simp, .threw e⟩
  | returned => exact absurd hq (by simp)
  | threw => exact absurd hq (by simp)

/-- What the others do is noticed only behind `setState`. -/
theorem Rest.of_move {w w' : WgState} {q : WgProg Unit} (h : Rest net text w q)
    (hup : broughtUp (connecting server q) = true → Up net text w → Up net text w') :
    Rest net text w' q := by
  cases h with
  | parsing => exact .parsing
  | choosing c hparse => exact .choosing c hparse
  | creating c hparse => exact .creating c hparse
  | storing t c hparse => exact .storing t c hparse
  | raising t c hparse => exact .raising t c hparse
  | raised h => exact .raised (hup rfl h)
  | clearing h => exact .clearing (hup rfl h)
  | lowered e => exact .lowered e
  | returned h => exact .returned (hup rfl h)
  | threw e => exact .threw e

/-! ### The steps of the coroutine -/

/-- Fetching a configuration adds it to those fetched; nothing else changes them. -/
theorem finalConfigs_perform (o : ServerListOp) (env : HomeEnv) (s : ServerListState) :
    s.finalConfigs ⊆ (perform net packageName o env s).2.finalConfigs := by
  cases o with
  | wgConfig serverId =>
    rw [perform]
    cases HomeActivity.repoWgConfig env with
    | error e => exact fun _ h => h
    | ok text => exact List.subset_cons_self _ _
  | _ => exact fun _ h => h

variable (packageName) in
/-- **One step** of a coroutine, which finds permission granted: it comes to its next point. -/
theorem At.step {o : ServerListOp} {k : o.Res → ServerListProg (Option Job)}
    (h : At net server s (.op o k)) (hinv : GoBackend.Inv s.wg.go) (env : HomeEnv)
    (hgranted : o = .wg .prepare → env.wg.prepareIntent = false) :
    let x := perform net packageName o env s
    At net server x.2 (k x.1) ∧ (k x.1).launched = none ∧ o ≠ .wg .onVpnPermissionRequired := by
  generalize hp : Prog.op o k = p at h
  cases h with
  | launched =>
    cases hp
    exact ⟨.labelling, rfl, by simp⟩
  | labelling =>
    cases hp
    exact ⟨.fetching, rfl, by simp⟩
  | fetching =>
    cases hp
    simp only [perform]
    cases HomeActivity.repoWgConfig env with
    | error e => exact ⟨.reporting e, rfl, by simp⟩
    | ok text => exact ⟨.ready text List.mem_cons_self, rfl, by simp⟩
  | ready text htext =>
    cases hp
    have hnext : At net server s (ServerListActivity.connecting server (parsing text)) :=
      .connecting text _ htext .parsing
    simp only [perform, WireGuardBackend.perform, hgranted rfl]
    exact ⟨hnext, rfl, by simp⟩
  | connecting text q htext hrest =>
    cases q with
    | pure u =>
      cases hp
      exact ⟨.finished, rfl, by simp⟩
    | throw e =>
      cases hp
      exact ⟨.finished, rfl, by simp⟩
    | op o k =>
      cases hp
      obtain ⟨-, hask, hnext⟩ := hrest.step packageName hinv env.wg
      refine ⟨.connecting text _ htext hnext, ?_, fun h => hask (ServerListOp.wg.inj h)⟩
      show (ServerListActivity.connecting server (k _)).launched = none
      generalize k _ = q
      cases q <;> rfl
  | reporting e =>
    cases hp
    exact ⟨.finished, rfl, by simp⟩
  | finished => exact absurd hp (by simp)

/-- What the others do is noticed only behind `setState`. -/
theorem At.of_move {p : ServerListProg (Option Job)} (h : At net server s p)
    (hconfigs : s.finalConfigs ⊆ s'.finalConfigs)
    (hup : broughtUp p = true → ∀ text, Up net text s.wg → Up net text s'.wg) :
    At net server s' p := by
  cases h with
  | launched => exact .launched
  | labelling => exact .labelling
  | fetching => exact .fetching
  | ready text htext => exact .ready text (hconfigs htext)
  | connecting text q htext hrest =>
    exact .connecting text q (hconfigs htext) (hrest.of_move fun hq => hup hq text)
  | reporting e => exact .reporting e
  | finished => exact .finished

/-! ### Runs -/

/-- While no dialog is open, the only event is a tap. -/
theorem tap_of_handle {e : Event} {j : Option Job} (hdialogs : s.wg.dialogs = 0)
    (h : (system net packageName).handle e s = some (s', j)) :
    s' = s ∧ ∃ server, j = some (.connectToServer server) := by
  cases e with
  | tap server =>
    obtain ⟨rfl, rfl⟩ := Prod.mk.inj (Option.some.inj h)
    exact ⟨rfl, server, rfl⟩
  | permissionResult resultOk =>
    have hnone : (system net packageName).handle (.permissionResult resultOk) s = none :=
      if_pos hdialogs
    exact absurd (hnone.symm.trans h) (by simp)

variable (net packageName) in
/-- What runs is changed only while no coroutine is behind its `setState`. -/
theorem up_of_apart {c : ServerListConf} {i : ℕ} {env : HomeEnv} {j : Job} {o : ServerListOp}
    {k : o.Res → ServerListProg (Option Job)} (hi : c.threads[i]? = some ⟨j, .op o k⟩)
    (hok : apart c (.step i env) = true) {t : ServerListThread} (ht : t ∈ c.threads)
    (hbehind : broughtUp t.body = true) (text : JString) (hup : Up net text c.shared.wg) :
    Up net text (perform net packageName o env c.shared).2.wg := by
  cases o with
  | wg o =>
    refine hup.perform (fun u state config ho => ?_) env.wg
    subst ho
    have hall : ∀ t ∈ c.threads, broughtUp t.body = false := by simpa [apart, hi] using hok
    exact absurd (hbehind.symm.trans (hall t ht)) (by simp)
  | wgConfig serverId =>
    rw [perform]
    cases HomeActivity.repoWgConfig env <;> exact hup
  | _ => exact hup

variable (net packageName)

/-- **The outline is sound.** -/
theorem outline_sound : (outline net).Sound (system net packageName)
    (fun c a => apart c a = true) where
  event := by
    rintro c e s' j hc - hhandle
    obtain ⟨rfl, server, rfl⟩ := tap_of_handle hc.inv.1 hhandle
    refine ⟨hc.inv, hc.thread, ?_⟩
    rintro _ ⟨⟩
    exact ⟨server, rfl, by rw [body_connectToServer]; exact .launched⟩
  step := by
    rintro c i env j o k hc hok hi ⟨server, rfl, hat⟩
    have hgranted : o = .wg .prepare → env.wg.prepareIntent = false := by
      rintro rfl
      simpa [apart, hi] using hok
    obtain ⟨hnext, hlaunch, hask⟩ := hat.step packageName hc.inv.2 env hgranted
    refine ⟨⟨server, rfl, hnext⟩, ?_, ?_, ?_⟩
    · cases o with
      | wg o =>
        have ho : o ≠ .onVpnPermissionRequired := fun h => hask (congrArg ServerListOp.wg h)
        exact ⟨(WireGuardBackend.dialogs_perform net packageName ho env.wg _).trans hc.inv.1,
          WireGuardBackend.inv_perform net packageName o env.wg hc.inv.2⟩
      | wgConfig serverId =>
        show (outline net).inv (perform net packageName (.wgConfig serverId) env c.shared).2
        rw [perform]
        cases HomeActivity.repoWgConfig env <;> exact hc.inv
      | _ => exact hc.inv
    · rintro t ⟨l, -, hl⟩
      have ht := List.mem_of_getElem? hl
      obtain ⟨server, hjob, hat⟩ := hc.thread t ht
      exact ⟨server, hjob, hat.of_move (finalConfigs_perform o env c.shared)
        fun hbehind text => up_of_apart net packageName hi hok ht hbehind text⟩
    · intro j' hj'
      exact absurd (hlaunch.symm.trans hj') (by simp)

/-- **The server shown is the server connected.**  Let the screen be opened with any consistent
backend and no dialog open.  In every interleaving of taps on any servers, fetches that are
answered in any order or fail, and steps of `connect`, in which permission is granted when
`connect` looks for it, and `setState` is called only while no coroutine is between its own call
and the home screen: whenever a coroutine is about to open the home screen for a server, a tunnel
runs, and its configuration is one that was fetched for this server. -/
theorem shown_is_connected (s₀ : ServerListState) (hinv : GoBackend.Inv s₀.wg.go)
    (hdialogs : s₀.wg.dialogs = 0) (d : ServerListConf)
    (hrun : (system net packageName).Run (fun c a => apart c a = true) ⟨s₀, []⟩ d)
    (t : ServerListThread) (ht : t ∈ d.threads) (serverId : ℤ) (serverLabel : JString)
    (hnext : t.body.nextOp = some (.openHomeForConnectedServer serverId serverLabel)) :
    Shown net serverId d.shared := by
  have hd : (outline net).Valid d :=
    (outline_sound net packageName).run hrun ⟨⟨hdialogs, hinv⟩, by simp⟩
  obtain ⟨server, -, hat⟩ := hd.thread t ht
  generalize t.body = p at hat hnext
  cases hat with
  | connecting text q htext hrest =>
    cases q with
    | pure u =>
      obtain ⟨rfl, rfl⟩ := ServerListOp.openHomeForConnectedServer.inj (Option.some.inj hnext)
      cases hrest with
      | returned hup =>
        obtain ⟨t, c, hparse, hrunning⟩ := hup
        exact ⟨text, t, c, htext, hparse, hrunning⟩
    | throw e => exact absurd (Option.some.inj hnext) (by simp)
    | op o k => exact absurd (Option.some.inj hnext) (by simp)
  | finished => exact absurd hnext (by simp [Prog.nextOp])
  | _ => exact absurd (Option.some.inj hnext) (by simp)

end Runs

/-! ## Runs on small configurations -/

/-- The server sends this configuration. -/
def answering (text : JString) : HomeEnv := { token := some (jstr "t"), wgConfig := some text }

/-- Two servers and their configurations. -/
def oslo : WgServerDto := { id := 1, name := jstr "Oslo", ip := jstr "192.0.2.1" }

def paris : WgServerDto := { id := 2, name := jstr "Paris", ip := jstr "192.0.2.2" }

def osloText : JString := WireGuardBackend.bareText

def parisText : JString := osloText ++ [ch '\n'] ++ jstr "MTU = 1400"

/-- A tunnel runs with the configuration in this text. -/
def runs (text : JString) (s : ServerListState) : Bool :=
  match GoBackend.running s.wg.go, Config.parse GoBackend.noAddresses text with
  | some (_, c), .ok config => c.config = config
  | _, _ => false

/-- `n` steps of the coroutine `i`. -/
def runJob (i n : ℕ) (env : HomeEnv) : List (Act Event HomeEnv) := List.replicate n (.step i env)

/-- The theorem for two taps: both coroutines create a tunnel, and the second one brings its own up
when the home screen has been opened for the first. -/
theorem paris_shown_and_connected :
    let d := ((system GoBackend.noAddresses GoBackend.applicationId).exec apart ⟨{}, []⟩
      (.event (.tap oslo) :: .event (.tap paris) :: runJob 1 7 (answering parisText) ++
        runJob 0 12 (answering osloText) ++ runJob 1 4 (answering parisText))).get
        (by decide +kernel)
    Shown GoBackend.noAddresses 2 d.shared :=
  shown_is_connected _ _ {} (GoBackend.inv_init _) rfl _
    (System.Run.of_exec (fun _ _ h => h) .refl (Option.some_get _).symm) _
    (List.getElem_mem (by decide +kernel : 1 < _)) 2 (jstr "Paris") (by decide +kernel)

/-- **The home screen is opened for a server that is not connected.**  In the first run a
server is tapped and permission has not been granted: nothing runs.  In the second one two
servers are tapped with permission granted, and the second one is brought up before the home
screen is opened for the first.  Shown are the next step of the first coroutine, the servers
for which a configuration was fetched, and those for which it runs. -/
theorem home_opened_for_another :
    let opens := fun acts => ((system GoBackend.noAddresses GoBackend.applicationId).exec
      (fun _ _ => true) ⟨{}, []⟩ acts).map fun d =>
        (d.threads.head?.bind fun t => t.body.nextOp, d.shared.finalConfigs.map Prod.fst,
          (d.shared.finalConfigs.filter fun x => runs x.2 d.shared).map Prod.fst)
    opens (.event (.tap oslo) ::
        runJob 0 6 { answering osloText with wg := { prepareIntent := true } }) =
        some (some (.openHomeForConnectedServer 1 (jstr "Oslo")), [1], []) ∧
      opens (.event (.tap oslo) :: .event (.tap paris) :: runJob 0 11 (answering osloText) ++
        runJob 1 9 (answering parisText)) =
        some (some (.openHomeForConnectedServer 1 (jstr "Oslo")), [2, 1], [2]) := by
  decide +kernel

end ServerListActivity
end AioVpn
