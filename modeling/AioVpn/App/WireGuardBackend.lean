import AioVpn.Backend.AbstractBackend
import AioVpn.Coroutine.Pool

/-!
# `WireGuardBackend`

The app's side of the backend: `connect`, `disconnect` and
`retryConnectionAfterPermission` of `uk.co.aiovpn.android.vpn.backend`, with the
`BasicTunnel` whose listener keeps the flag `connected`.

The three are coroutine bodies.  Their atomic steps are the reads and writes of the
volatile fields, the calls of the system and of the config parser, and each call of
`GoBackend.setState`, which is one step of its own.  Between two steps other
coroutines run; `connect` reads the field `tunnel` in one step and writes it in
another.

The flag is the listener state of the modelled `GoBackend`: every callback of every
`BasicTunnel` sets it, and so do `connect` and `disconnect` themselves.  Objects are
numbered as they are created, so that two parses of one text are two configurations.

`callSetState_refines` is what a step that calls `GoBackend.setState` does, in terms
of the abstract backend.
-/

namespace AioVpn

open Coroutine

/-- The exceptions `connect` can end with. -/
inductive ConnectExn where
  /-- An exception of `GoBackend.setState`. -/
  | backend (e : Exn)
  /-- The exception of the config parser. -/
  | badConfig (e : BadConfigException)
  /-- `VPN permission required but no callback registered`. -/
  | noPermissionCallback
  deriving DecidableEq

/-- The fields of `WireGuardBackend`, and the objects around it. -/
structure WgState where
  /-- `backend`, with the flag `connected` as its listener state. -/
  go : GoState Bool := { listeners := false }
  tunnel : Option Tunnel := none
  pendingConfig : Option JString := none
  permissionCallback : Bool := false
  /-- The permission dialogs that are open. -/
  dialogs : ℕ := 0
  /-- The number of `BasicTunnel` objects. -/
  tunnels : ℕ := 0
  configs : ℕ := 0

/-- `isConnected`. -/
def WgState.isConnected (s : WgState) : Bool := s.go.listeners

/-- The atomic steps. -/
inductive WgOp where
  /-- `VpnService.prepare(appContext) != null`. -/
  | prepare
  | getPendingConfig
  | setPendingConfig (config : Option JString)
  /-- `permissionCallback?.onVpnPermissionRequired(permissionIntent)`. -/
  | onVpnPermissionRequired
  /-- `WgConfigParser.parse(configText)`. -/
  | parse (configText : JString)
  | getTunnel
  | newTunnel
  | setTunnel (tunnel : Option Tunnel)
  /-- `backend.setState(tunnel, state, config)`. -/
  | setState (tunnel : Tunnel) (state : TunnelState) (config : Option ConfigRef)
  /-- `connected.set(value)`. -/
  | setConnected (value : Bool)
  deriving DecidableEq

/-- The answers to the steps. -/
@[reducible] def WgOp.Res : WgOp → Type
  | prepare => Bool
  | getPendingConfig => Option JString
  | setPendingConfig _ => Unit
  | onVpnPermissionRequired => Bool
  | parse _ => Except ConnectExn ConfigRef
  | getTunnel => Option Tunnel
  | newTunnel => Tunnel
  | setTunnel _ => Unit
  | setState _ _ _ => Except ConnectExn TunnelState
  | setConnected _ => Unit

/-- What the system answers at one step. -/
structure WgEnv where
  /-- `VpnService.prepare` returns an intent: the user has not granted permission. -/
  prepareIntent : Bool := false
  /-- The steps inside `GoBackend.setState`. -/
  setState : GoBackend.SetStateEnv := {}

/-- A body over these steps. -/
abbrev WgProg (α : Type) := Prog WgOp WgOp.Res ConnectExn α

namespace WireGuardBackend

/-- `TUNNEL_NAME`. -/
def tunnelName : JString := jstr "AIO-WG"

/-- `BasicTunnel.onStateChange`: the listener sets the flag. -/
def onStateChanged (_ : Tunnel) (state : TunnelState) (_ : Bool) : Bool := state = .up

section Steps

variable (net : NetApi) (packageName : JString)

/-- One call of `GoBackend.setState`. -/
def callSetState (env : GoBackend.SetStateEnv) (tunnel : Tunnel) (state : TunnelState)
    (config : Option ConfigRef) (s : WgState) : Except Exn TunnelState × GoState Bool :=
  GoBackend.setState net packageName onStateChanged env tunnel state config s.go

/-- The answer to a step and the state after it. -/
def perform : (o : WgOp) → WgEnv → WgState → o.Res × WgState
  | .prepare, env, s => (env.prepareIntent, s)
  | .getPendingConfig, _, s => (s.pendingConfig, s)
  | .setPendingConfig config, _, s => ((), { s with pendingConfig := config })
  | .onVpnPermissionRequired, _, s =>
      if s.permissionCallback then (true, { s with dialogs := s.dialogs + 1 }) else (false, s)
  | .parse configText, _, s =>
      match Config.parse net configText with
      | .ok config => (.ok ⟨s.configs, config⟩, { s with configs := s.configs + 1 })
      | .error e => (.error (.badConfig e), s)
  | .getTunnel, _, s => (s.tunnel, s)
  | .newTunnel, _, s => (⟨s.tunnels, tunnelName⟩, { s with tunnels := s.tunnels + 1 })
  | .setTunnel tunnel, _, s => ((), { s with tunnel := tunnel })
  | .setState tunnel state config, env, s =>
      let x := callSetState net packageName env.setState tunnel state config s
      (x.1.mapError .backend, { s with go := x.2 })
  | .setConnected value, _, s => ((), { s with go := { s.go with listeners := value } })

end Steps

/-! ## The bodies -/

/-- One atomic step of a body. -/
def step (o : WgOp) : WgProg o.Res := Prog.perform o

/-- `tunnel ?: BasicTunnel(...).also { tunnel = it }`. -/
def getOrCreateTunnel : WgProg Tunnel := do
  match ← step .getTunnel with
  | some tunnel => pure tunnel
  | none =>
      let tunnel ← step .newTunnel
      step (.setTunnel (some tunnel))
      pure tunnel

/-- The `try` block of `connect`. -/
def bringUp (tunnel : Tunnel) (config : ConfigRef) : WgProg Unit :=
  Prog.tryCatch
    (do
      let result ← step (.setState tunnel .up (some config))
      let _ ← Prog.ofExcept result
      step (.setConnected true)
      step (.setPendingConfig none))
    (fun e => do
      step (.setConnected false)
      .throw e)

/-- `connect`. -/
def connect (configText : JString) : WgProg Unit := do
  let permissionIntent ← step .prepare
  if permissionIntent then
    step (.setPendingConfig (some configText))
    let called ← step .onVpnPermissionRequired
    if called then pure () else .throw .noPermissionCallback
  else
    let result ← step (.parse configText)
    let config ← Prog.ofExcept result
    let activeTunnel ← getOrCreateTunnel
    bringUp activeTunnel config

/-- `disconnect`. -/
def disconnect : WgProg Unit := do
  match ← step .getTunnel with
  | none => step (.setConnected false)
  | some activeTunnel =>
      Prog.tryFinally
        (do
          let result ← step (.setState activeTunnel .down none)
          let _ ← Prog.ofExcept result
          pure ())
        (do
          step (.setConnected false)
          step (.setTunnel none))

/-- `retryConnectionAfterPermission`. -/
def retryConnectionAfterPermission : WgProg Unit := do
  match ← step .getPendingConfig with
  | none => pure ()
  | some config =>
      step (.setPendingConfig none)
      connect config

/-! ## The calls as a system of coroutines -/

/-- The calls. -/
inductive Job where
  | connect (configText : JString)
  | disconnect
  | retryConnectionAfterPermission
  deriving DecidableEq

/-- A call is made, or an instance of the service is destroyed. -/
inductive Event where
  | call (job : Job)
  | serviceDestroyed (service : ℕ)

/-- The body of a call. -/
def bodyOf : Job → WgProg Unit
  | .connect configText => connect configText
  | .disconnect => disconnect
  | .retryConnectionAfterPermission => retryConnectionAfterPermission

/-- `WireGuardBackend` and its callers. -/
def system (net : NetApi) (packageName : JString) :
    System WgOp WgOp.Res ConnectExn WgEnv WgState Job Event where
  perform := perform net packageName
  body := fun job => do
    bodyOf job
    pure none
  handle
    | .call job, s => some (s, some job)
    | .serviceDestroyed service, s =>
        some ({ s with go := GoBackend.onDestroy onStateChanged service s.go }, none)

/-- A configuration of the system. -/
abbrev WgConf := Conf WgOp WgOp.Res ConnectExn Job WgState

/-- Before the first call. -/
def start : WgConf := ⟨{}, []⟩

/-- All calls have finished. -/
def Finished (c : WgConf) : Prop := ∀ t ∈ c.threads, t.body.running = false

instance (c : WgConf) : Decidable (Finished c) :=
  inferInstanceAs (Decidable (∀ t ∈ c.threads, t.body.running = false))

/-! ## A call of `GoBackend.setState` as a step -/

section Steps

variable (net : NetApi) (packageName : JString)

/-- **A call of `setState`** has one of the effects of the abstract backend. -/
theorem callSetState_refines (env : WgEnv) (tunnel : Tunnel) (state : TunnelState)
    (config : Option ConfigRef) {s : WgState} (hinv : GoBackend.Inv s.go) :
    ∃ r go calls, callSetState net packageName env.setState tunnel state config s = (r, go) ∧
      GoBackend.Effect tunnel (GoBackend.requested tunnel state s.go) config
        (GoBackend.running s.go) r (GoBackend.running go) calls ∧
      GoBackend.Refines onStateChanged calls s.go go :=
  GoBackend.setState_refines net packageName onStateChanged env.setState tunnel state config hinv

/-- The step that makes the call keeps everything else. -/
theorem perform_setState {env : WgEnv} {tunnel : Tunnel} {state : TunnelState}
    {config : Option ConfigRef} {s : WgState} {r : Except Exn TunnelState} {go : GoState Bool}
    (h : callSetState net packageName env.setState tunnel state config s = (r, go)) :
    perform net packageName (.setState tunnel state config) env s =
      (r.mapError .backend, { s with go := go }) := by
  simp only [perform, h]

theorem inv_setConnected {go : GoState Bool} (h : GoBackend.Inv go) (value : Bool) :
    GoBackend.Inv { go with listeners := value } where
  fields := h.fields.imp (fun h => ⟨h.1, h.2, h.3, h.4⟩) fun ⟨t, c, h⟩ => ⟨t, c, h.1, h.2, h.3, h.4⟩
  native := h.native
  warnings := h.warnings

/-- Only the request for permission opens a dialog. -/
theorem dialogs_perform {o : WgOp} (ho : o ≠ .onVpnPermissionRequired) (env : WgEnv)
    (s : WgState) : (perform net packageName o env s).2.dialogs = s.dialogs := by
  cases o with
  | onVpnPermissionRequired => exact absurd rfl ho
  | parse text =>
    rw [perform]
    split <;> rfl
  | _ => rfl

/-- **Every step keeps the invariant of the backend.** -/
theorem inv_perform (o : WgOp) (env : WgEnv) {s : WgState} (hinv : GoBackend.Inv s.go) :
    GoBackend.Inv (perform net packageName o env s).2.go := by
  cases o with
  | setState tunnel state config =>
    obtain ⟨r, go, calls, hcall, -, href⟩ :=
      callSetState_refines net packageName env tunnel state config hinv
    rw [perform_setState net packageName hcall]
    exact href.inv
  | setConnected value => exact inv_setConnected hinv value
  | onVpnPermissionRequired =>
    rw [perform]
    split <;> exact hinv
  | parse configText =>
    rw [perform]
    cases Config.parse net configText <;> exact hinv
  | prepare => exact hinv
  | getPendingConfig => exact hinv
  | setPendingConfig config => exact hinv
  | getTunnel => exact hinv
  | newTunnel => exact hinv
  | setTunnel tunnel => exact hinv

end Steps

end WireGuardBackend
end AioVpn
