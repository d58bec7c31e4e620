import AioVpn.Backend.Endpoints
import AioVpn.Backend.NativeHandles

/-!
# `GoBackend`

The tunnel backend of `com.wireguard.android.backend`: `setState`, the
`setStateInternal` it is built from, and the `VpnService` whose destruction takes
a tunnel down behind the backend's back.

## What is in the state

The three fields `currentTunnel`, `currentConfig` and `currentTunnelHandle`; the
static future `vpnService`, which is the service instance it is completed with or
nothing; the instances whose `owner` is the backend; the instances `stopSelf` has
been called on and that have not been destroyed yet; the handle table of the Go
library; the caches of the endpoint objects; and the warnings that were logged.

Tunnels and configurations are compared by reference, so each carries the serial
number of its object.  `Tunnel.onStateChange` is a callback of the tunnel's owner.
What it does is the parameter `notify`, acting on a listener state of any type `L`.

## What comes from outside

A bring-up meets the system at many points and can fail at each of them.  Their
outcomes are one record, `BringUpEnv`.  A switch may bring up twice --- the new
configuration and, after a failure, the old one --- so `setState` takes two.
-/

namespace AioVpn

/-- A tunnel object. -/
structure Tunnel where
  serial : ℕ
  name : JString
  deriving DecidableEq

/-- `Tunnel.State`. -/
inductive TunnelState where
  | down
  | toggle
  | up
  deriving DecidableEq

/-- A configuration object. -/
structure ConfigRef where
  serial : ℕ
  config : Config
  deriving DecidableEq

/-- The outcome of `context.startService`. -/
inductive StartOutcome where
  | started
  | illegalState
  | security
  deriving DecidableEq

/-- The outcome of `builder.establish`. -/
inductive EstablishOutcome where
  | tun
  | null
  | illegalState
  deriving DecidableEq

/-- The outcomes of the environment steps of one bring-up. -/
structure BringUpEnv where
  /-- `VpnService.prepare(context) != null`. -/
  prepareIntent : Bool := false
  startService : StartOutcome := .started
  /-- `Build.VERSION.SDK_INT >= Build.VERSION_CODES.O`. -/
  sdkO : Bool := true
  /-- `context.startForegroundService` succeeds. -/
  startForegroundService : Bool := true
  /-- The started service completes the future within two seconds. -/
  serviceCreated : Bool := true
  dns : DnsEnv := {}
  device : DeviceEnv := {}
  establish : EstablishOutcome := .tun
  native : NativeEnv := {}

/-- The warnings `setStateInternal` logs when there is nothing to do. -/
inductive Warning where
  | tunnelAlreadyUp
  | tunnelAlreadyDown
  deriving DecidableEq

/-- The state of the backend and of what it drives. -/
structure GoState (L : Type) where
  currentConfig : Option ConfigRef := none
  currentTunnel : Option Tunnel := none
  currentTunnelHandle : ℤ := -1
  /-- The instance `vpnService` is completed with. -/
  vpnService : Option ℕ := none
  /-- The number of service instances created. -/
  services : ℕ := 0
  /-- The instances whose `owner` is the backend. -/
  owned : List ℕ := []
  /-- The instances `stopSelf` was called on, the latest call first. -/
  stopping : List ℕ := []
  native : Native := {}
  endpoints : ℕ × ℕ → EndpointCache := fun _ => {}
  /-- The warnings logged, the latest first. -/
  warnings : List Warning := []
  /-- What the tunnels' owners made of the callbacks. -/
  listeners : L

namespace GoBackend

variable {L : Type}

/-- `getState`. -/
def getState (tunnel : Tunnel) (s : GoState L) : TunnelState :=
  if s.currentTunnel = some tunnel then .up else .down

/-! ## Bringing a tunnel up -/

/-- Starting the service, in the foreground when the background start is refused. -/
def startVpnService (env : BringUpEnv) : Except Exn Unit :=
  match env.startService with
  | .started => .ok ()
  | .security => .error .security
  | .illegalState =>
      if env.sdkO then
        if env.startForegroundService then .ok () else .error .illegalState
      else .error .illegalState

/-- The service of a bring-up: the instance of the completed future, or a new one
that has to arrive in time. -/
def acquireService (env : BringUpEnv) (s : GoState L) : Except Exn ℕ × GoState L :=
  match s.vpnService with
  | some service => (.ok service, s)
  | none =>
      match startVpnService env with
      | .error e => (.error e, s)
      | .ok () =>
          if env.serviceCreated then
            (.ok s.services, { s with vpnService := some s.services, services := s.services + 1 })
          else (.error (.backend .unableToStartVpn), s)

/-- `service.setOwner(this)`. -/
def setOwner (service : ℕ) (s : GoState L) : GoState L :=
  { s with owned := service :: s.owned }

/-- The application filters of `setStateInternal`: the excluded packages, the
included ones, and last the app itself, whose absence is only logged. -/
def applyFilters (dev : DeviceEnv) (packageName : JString) (i : Interface) (b : VpnBuilder) :
    Except Exn VpnBuilder := do
  let b ← i.excludedApplications.elems.foldlM (VpnBuilder.addDisallowedApplication dev) b
  let b ← i.includedApplications.elems.foldlM (VpnBuilder.addAllowedApplication dev) b
  match b.addDisallowedApplication dev packageName with
  | .ok b => .ok b
  | .error (.nameNotFound _) => .ok b
  | .error e => .error e

/-- The routes of the peers. -/
def allRoutes (config : Config) : List InetNetwork :=
  config.peers.flatMap fun peer => peer.allowedIps.elems

/-- A peer routes everything. -/
def sawDefaultRoute (config : Config) : Bool := (allRoutes config).any fun n => n.mask = 0

/-- Everything the builder is told before `establish`. -/
def configureBuilder (dev : DeviceEnv) (packageName : JString) (tunnel : Tunnel)
    (config : Config) : Except Exn VpnBuilder := do
  let b : VpnBuilder := { session := tunnel.name }
  let b ← applyFilters dev packageName config.interfaze b
  let b ← config.interfaze.addresses.elems.foldlM (VpnBuilder.addAddress dev) b
  let b ← config.interfaze.dnsServers.elems.foldlM (VpnBuilder.addDnsServer dev) b
  let b := config.interfaze.dnsSearchDomains.elems.foldl VpnBuilder.addSearchDomain b
  let b ← (allRoutes config).foldlM (VpnBuilder.addRoute dev) b
  -- the "kill-switch": without it both address families may go around the tunnel
  let b := { b with allowFamilies := !(sawDefaultRoute config && config.peers.length = 1) }
  let b ← b.setMtu (config.interfaze.mtu.getD 1280)
  b.setMtu (config.interfaze.mtu.getD 1280)

/-- From the resolver to the configured builder: the endpoints, the settings for
the Go library, and the builder. -/
def arrange (net : NetApi) (packageName : JString) (env : BringUpEnv) (tunnel : Tunnel)
    (config : ConfigRef) (s : GoState L) : Except Exn (VpnBuilder × JString) × GoState L :=
  match Endpoints.dnsRetry net env.dns config.serial config.config.peers
      Endpoints.dnsResolutionRetries ⟨0, s.endpoints⟩ with
  | (.error e, r) => (.error e, { s with endpoints := r.cache })
  | (.ok (), r) =>
      let (goConfig, r) :=
        Endpoints.toWgUserspaceString net env.dns config.serial config.config r
      let s := { s with endpoints := r.cache }
      match configureBuilder env.device packageName tunnel config.config with
      | .error e => (.error e, s)
      | .ok builder => (.ok (builder, goConfig), s)

/-- `establish` and `wgTurnOn`, and the fields that record the tunnel. -/
def activate (notify : Tunnel → TunnelState → L → L) (env : BringUpEnv) (tunnel : Tunnel)
    (config : ConfigRef) (builder : VpnBuilder) (goConfig : JString) (s : GoState L) :
    Except Exn Unit × GoState L :=
  match env.establish with
  | .null => (.error (.backend .tunCreationError), s)
  | .illegalState => (.error .illegalState, s)
  | .tun =>
      let (handle, native) := Native.wgTurnOn env.native builder goConfig s.native
      let s := { s with currentTunnelHandle := handle, native := native }
      if handle < 0 then (.error (.backend (.goActivationErrorCode handle)), s)
      else
        (.ok (),
          { s with
            currentTunnel := some tunnel
            currentConfig := some config
            listeners := notify tunnel .up s.listeners })

/-- The `UP` branch of `setStateInternal`. -/
def setStateInternalUp (net : NetApi) (packageName : JString)
    (notify : Tunnel → TunnelState → L → L) (env : BringUpEnv) (tunnel : Tunnel)
    (config : Option ConfigRef) (s : GoState L) : Except Exn Unit × GoState L :=
  match config with
  | none => (.error (.backend .tunnelMissingConfig), s)
  | some config =>
      if env.prepareIntent then (.error (.backend .vpnNotAuthorized), s)
      else
        match acquireService env s with
        | (.error e, s) => (.error e, s)
        | (.ok service, s) =>
            let s := setOwner service s
            if s.currentTunnelHandle ≠ -1 then
              (.ok (), { s with warnings := .tunnelAlreadyUp :: s.warnings })
            else
              match arrange net packageName env tunnel config s with
              | (.error e, s) => (.error e, s)
              | (.ok (builder, goConfig), s) => activate notify env tunnel config builder goConfig s

/-! ## Taking it down -/

/-- `vpnService.get(0, NANOSECONDS).stopSelf()`. -/
def stopService (s : GoState L) : GoState L :=
  match s.vpnService with
  | some service => { s with stopping := service :: s.stopping }
  | none => s

/-- The `DOWN` branch of `setStateInternal`. -/
def setStateInternalDown (notify : Tunnel → TunnelState → L → L) (tunnel : Tunnel)
    (s : GoState L) : GoState L :=
  if s.currentTunnelHandle = -1 then { s with warnings := .tunnelAlreadyDown :: s.warnings }
  else
    let handleToClose := s.currentTunnelHandle
    let s :=
      { s with
        currentTunnel := none
        currentTunnelHandle := -1
        currentConfig := none
        native := Native.wgTurnOff handleToClose s.native }
    let s := stopService s
    { s with listeners := notify tunnel .down s.listeners }

/-! ## `setState` -/

/-- The outcomes of the environment steps of one call: those of the bring-up, and
those of the roll-back after a failed switch. -/
structure SetStateEnv where
  up : BringUpEnv := {}
  rollback : BringUpEnv := {}

/-- The `UP` case of `setState`. -/
def switchTo (net : NetApi) (packageName : JString) (notify : Tunnel → TunnelState → L → L)
    (env : SetStateEnv) (tunnel : Tunnel) (config : Option ConfigRef) (s : GoState L) :
    Except Exn TunnelState × GoState L :=
  let originalConfig := s.currentConfig
  let originalTunnel := s.currentTunnel
  let s := match s.currentTunnel with
    | some current => setStateInternalDown notify current s
    | none => s
  match setStateInternalUp net packageName notify env.up tunnel config s with
  | (.ok (), s) => (.ok (getState tunnel s), s)
  | (.error e, s) =>
      match originalTunnel with
      | none => (.error e, s)
      | some original =>
          -- an exception of the roll-back replaces the first one
          match setStateInternalUp net packageName notify env.rollback original originalConfig
              s with
          | (.ok (), s) => (.error e, s)
          | (.error e', s) => (.error e', s)

/-- `GoBackend.setState`. -/
def setState (net : NetApi) (packageName : JString) (notify : Tunnel → TunnelState → L → L)
    (env : SetStateEnv) (tunnel : Tunnel) (state : TunnelState) (config : Option ConfigRef)
    (s : GoState L) : Except Exn TunnelState × GoState L :=
  let originalState := getState tunnel s
  let state := if state = .toggle then (if originalState = .up then .down else .up) else state
  if state = originalState ∧ some tunnel = s.currentTunnel ∧ config = s.currentConfig then
    (.ok originalState, s)
  else if state = .up then switchTo net packageName notify env tunnel config s
  else if state = .down ∧ some tunnel = s.currentTunnel then
    let s := setStateInternalDown notify tunnel s
    (.ok (getState tunnel s), s)
  else (.ok (getState tunnel s), s)

/-! ## The service -/

/-- `VpnService.onCreate` of a new instance that arrives after its start was given
up. -/
def onCreate (s : GoState L) : GoState L :=
  match s.vpnService with
  | some _ => { s with services := s.services + 1 }
  | none => { s with vpnService := some s.services, services := s.services + 1 }

/-- Taking down what the owner runs: the first half of `VpnService.onDestroy`. -/
def destroyOwned (notify : Tunnel → TunnelState → L → L) (s : GoState L) : GoState L :=
  match s.currentTunnel with
  | none => s
  | some tunnel =>
      { s with
        native :=
          if s.currentTunnelHandle ≠ -1 then Native.wgTurnOff s.currentTunnelHandle s.native
          else s.native
        currentTunnel := none
        currentTunnelHandle := -1
        currentConfig := none
        listeners := notify tunnel .down s.listeners }

/-- `VpnService.onDestroy` of an instance. -/
def onDestroy (notify : Tunnel → TunnelState → L → L) (service : ℕ) (s : GoState L) :
    GoState L :=
  let s := if service ∈ s.owned then destroyOwned notify s else s
  { s with vpnService := none, stopping := s.stopping.filter (· ≠ service) }

end GoBackend
end AioVpn
