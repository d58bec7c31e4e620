import AioVpn.App.WireGuardSpec
import AioVpn.Repo.SplitTunnel
import AioVpn.Routing.Ranking
import AioVpn.Routing.TunnelValidator

/-!
# `HomeActivity`

The screen with the connect button: the operations it launches, the guard `isBusy`
that is to keep them apart, and the callbacks that write its state from elsewhere.

## Steps

Everything on the main thread up to the next suspension point is one step, and so is
each `withContext(Dispatchers.Main)` block; each such block is a `MainBlock`.  A click
runs on the main thread up to the `launch` at its end, so it is one event that may
launch one job.  Inside the jobs a step is a call of the repository, of a store or of
the validator, or one step of `WireGuardBackend`, whose bodies run here unchanged.

A job is finished when it has no step left.

## What is left out

The drawing of the screen, the toasts and the log.  `VpnRepository.wgConfig` logs the
final text with the id of the server; that line of the log is kept, because "the
configuration fetched for a server" means it.
-/

namespace AioVpn

open Coroutine

/-- `VpnUiState`. -/
inductive VpnUiState where
  | disconnected
  | connecting
  | verifying
  | switching
  | connected
  deriving DecidableEq

/-- The exceptions of the jobs. -/
inductive HomeExn where
  /-- An exception of `WireGuardBackend`. -/
  | backend (e : ConnectExn)
  /-- `IllegalStateException`. -/
  | illegalState (message : JString)
  /-- A failure of the network or of the settings store. -/
  | io
  deriving DecidableEq

/-- The fields of the activity, and the stores and services it uses. -/
structure HomeState where
  wg : WgState := { permissionCallback := true }
  currentVpnState : VpnUiState := .disconnected
  selectedServerId : Option ℤ := none
  selectedServerLabel : Option JString := none
  smartAutoSelected : Bool := false
  currentConnectedServerLabel : Option JString := none
  selectedServerText : JString := []
  /-- `lastGoodServerStore`. -/
  lastGood : Option LastGoodServer := none
  /-- `settingsStore`: the last server. -/
  lastServer : Option (ℤ × JString) := none
  rankingCache : ServerRankingCache := {}
  /-- The lines `FINAL WG CONFIG` of the log, the latest first. -/
  finalConfigs : List (ℤ × JString) := []

/-- What the network, the stores and the system answer at one step. -/
structure HomeEnv where
  wg : WgEnv := {}
  /-- `tokenStore.getToken`. -/
  token : Option JString := none
  /-- `api.wgServers`; `none` is an exception. -/
  wgServers : Option (List WgServerDto) := none
  /-- `api.wgConfig`; `none` is an exception. -/
  wgConfig : Option JString := none
  splitTunnelMode : SplitTunnelMode := .off
  excludedApps : LinkedHashSet JString := .empty
  includedApps : LinkedHashSet JString := .empty
  /-- `System.currentTimeMillis`. -/
  now : ℤ := 0
  /-- `measureLatency` of the servers. -/
  latency : ℕ → ℕ := fun _ => SmartRoutingService.longMax
  /-- The settings store can be written. -/
  writable : Bool := true
  /-- `WgTunnelValidator.waitForWorkingTunnel`. -/
  working : Bool := false

namespace HomeActivity

/-- `isNullOrBlank`. -/
def isNullOrBlank : Option JString → Bool
  | none => true
  | some s => s.all JChar.isKotlinWhitespace

/-- `isBusy`. -/
def isBusy (s : HomeState) : Bool :=
  s.currentVpnState = .connecting || s.currentVpnState = .verifying ||
    s.currentVpnState = .switching

/-- The text for the selection while no connection is shown. -/
def selectionText (s : HomeState) : JString :=
  if s.smartAutoSelected then jstr "Smart Auto" else s.selectedServerLabel.getD (jstr "Smart Auto")

/-- The text for the selection while a connection is shown. -/
def connectedText (s : HomeState) : JString :=
  if s.smartAutoSelected then
    match s.currentConnectedServerLabel with
    | some label => jstr "Smart Auto • " ++ label
    | none => jstr "Smart Auto"
  else (s.selectedServerLabel.or s.currentConnectedServerLabel).getD (jstr "Connected")

/-! ## The repository -/

/-- `requireToken`. -/
def requireToken (token : Option JString) : Except HomeExn JString :=
  match token with
  | none => .error (.illegalState (jstr "No token (user not logged in)"))
  | some t =>
      if isNullOrBlank (some t) then .error (.illegalState (jstr "No token (user not logged in)"))
      else .ok t

/-- `repo.servers()`. -/
def repoServers (env : HomeEnv) : Except HomeExn (List WgServerDto) := do
  let _ ← requireToken env.token
  match env.wgServers with
  | some servers => .ok servers
  | none => .error .io

/-- `repo.wgConfig(serverId)`. -/
def repoWgConfig (env : HomeEnv) : Except HomeExn JString := do
  let _ ← requireToken env.token
  match env.wgConfig with
  | some raw =>
      .ok (VpnRepository.applySplitTunneling env.splitTunnelMode env.excludedApps
        env.includedApps raw)
  | none => .error .io

/-! ## The steps -/

/-- The blocks that run on the main thread. -/
inductive MainBlock where
  /-- Only the text changes. -/
  | showText (text : JString)
  /-- `setVpnState(VERIFYING)`. -/
  | verifying (text : JString)
  /-- `setVpnState(CONNECTED)` at the end of an attempt to connect to a server. -/
  | connected (serverId : ℤ) (text : JString)
  /-- `setVpnState(DISCONNECTED)` at the end of a failed attempt. -/
  | failed (text : JString)
  /-- The end of `disconnectCurrentTunnel`. -/
  | disconnected
  /-- `updateUiFromBackendState()`: the launch comes after it. -/
  | refresh
  /-- The second half of `updateUiFromBackendState`. -/
  | backendState (connected : Bool)
  /-- `setVpnState(DISCONNECTED)` after a failed retry. -/
  | retryFailed
  deriving DecidableEq

/-- What a block does. -/
def MainBlock.run (b : MainBlock) (s : HomeState) : HomeState :=
  match b with
  | .showText text => { s with selectedServerText := text }
  | .verifying text => { s with currentVpnState := .verifying, selectedServerText := text }
  | .connected _ text => { s with currentVpnState := .connected, selectedServerText := text }
  | .failed text => { s with currentVpnState := .disconnected, selectedServerText := text }
  | .disconnected =>
      { s with
        currentVpnState := .disconnected
        currentConnectedServerLabel := none
        selectedServerText := selectionText s }
  | .refresh => s
  | .backendState true =>
      { s with currentVpnState := .connected, selectedServerText := connectedText s }
  | .backendState false =>
      { s with
        currentVpnState := .disconnected
        currentConnectedServerLabel := none
        selectedServerText := selectionText s }
  | .retryFailed =>
      { s with
        currentVpnState := .disconnected
        selectedServerText := s.selectedServerLabel.getD (jstr "Smart Auto") }

/-- The atomic steps of the jobs. -/
inductive HomeOp where
  /-- A step of `WireGuardBackend`. -/
  | wg (o : WgOp)
  | isConnected
  /-- `repo.servers()`. -/
  | servers
  /-- `repo.wgConfig(serverId)`. -/
  | wgConfig (serverId : ℤ)
  /-- The cache is read. -/
  | cachedRankings
  /-- `smartRoutingService.rankServers(servers)`. -/
  | rankServers (servers : List WgServerDto)
  /-- `ServerRankingCache.set(ranked)`. -/
  | setRankings (ranked : List ServerScore)
  | getLastGood
  | saveLastGood (serverId : ℤ) (label : JString)
  | saveLastServer (serverId : ℤ) (label : JString)
  | clearLastServer
  | delay
  /-- `WgTunnelValidator.waitForWorkingTunnel`. -/
  | waitForWorkingTunnel
  | setCurrentConnectedServerLabel (label : JString)
  | setSelectedServerId (serverId : Option ℤ)
  | setSelectedServerLabel (label : Option JString)
  | main (b : MainBlock)
  /-- `connectSmartAuto(forceFresh = true)` up to its `launch`. -/
  | startSmartAuto
  deriving DecidableEq

/-- The answers to the steps. -/
@[reducible] def HomeOp.Res : HomeOp → Type
  | wg o => o.Res
  | isConnected => Bool
  | servers => Except HomeExn (List WgServerDto)
  | wgConfig _ => Except HomeExn JString
  | cachedRankings => Option (List ServerScore)
  | rankServers _ => List ServerScore
  | setRankings _ => Unit
  | getLastGood => Option LastGoodServer
  | saveLastGood _ _ => Unit
  | saveLastServer _ _ => Except HomeExn Unit
  | clearLastServer => Except HomeExn Unit
  | delay => Unit
  | waitForWorkingTunnel => Bool
  | setCurrentConnectedServerLabel _ => Unit
  | setSelectedServerId _ => Unit
  | setSelectedServerLabel _ => Unit
  | main _ => Unit
  | startSmartAuto => Bool

/-- `connectSmartAuto` up to its `launch`; `true` when it launches. -/
def startSmartAuto (s : HomeState) : Bool × HomeState :=
  if isBusy s then (false, s)
  else
    (true, { s with
      currentVpnState := .connecting
      selectedServerText := jstr "Finding best server..." })

/-- The answer to a step and the state after it. -/
def perform (net : NetApi) (packageName : JString) :
    (o : HomeOp) → HomeEnv → HomeState → o.Res × HomeState
  | .wg o, env, s =>
      let x := WireGuardBackend.perform net packageName o env.wg s.wg
      (x.1, { s with wg := x.2 })
  | .isConnected, _, s => (s.wg.isConnected, s)
  | .servers, env, s => (repoServers env, s)
  | .wgConfig serverId, env, s =>
      match repoWgConfig env with
      | .ok text => (.ok text, { s with finalConfigs := (serverId, text) :: s.finalConfigs })
      | .error e => (.error e, s)
  | .cachedRankings, env, s => (s.rankingCache.cached env.now, s)
  | .rankServers servers, env, s => (SmartRoutingService.rankServers env.latency servers, s)
  | .setRankings ranked, env, s =>
      ((), { s with rankingCache := ServerRankingCache.set env.now ranked })
  | .getLastGood, _, s => (s.lastGood.filter fun g => g.serverId ≠ -1, s)
  | .saveLastGood serverId label, _, s => ((), { s with lastGood := some ⟨serverId, label⟩ })
  | .saveLastServer serverId label, env, s =>
      if env.writable then (.ok (), { s with lastServer := some (serverId, label) })
      else (.error .io, s)
  | .clearLastServer, env, s =>
      if env.writable then (.ok (), { s with lastServer := none }) else (.error .io, s)
  | .delay, _, s => ((), s)
  | .waitForWorkingTunnel, env, s => (env.working, s)
  | .setCurrentConnectedServerLabel label, _, s =>
      ((), { s with currentConnectedServerLabel := some label })
  | .setSelectedServerId serverId, _, s => ((), { s with selectedServerId := serverId })
  | .setSelectedServerLabel label, _, s => ((), { s with selectedServerLabel := label })
  | .main b, _, s => ((), b.run s)
  | .startSmartAuto, _, s => startSmartAuto s

/-! ## The jobs -/

/-- A body over these steps. -/
abbrev HomeProg (α : Type) := Prog HomeOp HomeOp.Res HomeExn α

/-- What is launched. -/
inductive Job where
  | connectSmartAuto (forceFresh : Bool)
  | connectToSpecificServer (serverId : ℤ) (label : JString) (previousServerId : Option ℤ)
      (previousServerLabel : Option JString)
  | disconnectCurrentTunnel
  | selectSmartAutoAndConnect
  | updateUiFromBackendState
  | onActivityResult
  deriving DecidableEq

/-- One atomic step of a body. -/
def step (o : HomeOp) : HomeProg o.Res := Prog.perform o

/-- A body of `WireGuardBackend`, run here. -/
def backend {α : Type} (p : WgProg α) : HomeProg α :=
  Prog.mapError HomeExn.backend (p.hoist HomeOp.wg fun _ r => r)

/-- `try { wgBackend.disconnect() } catch (_: Exception) {}`. -/
def disconnectQuietly : HomeProg Unit :=
  (backend WireGuardBackend.disconnect).tryCatch fun _ => .pure ()

/-- `validateTunnelOrThrow`. -/
def validateTunnelOrThrow (serverName : Option JString) : HomeProg Unit := do
  let ok ← step .waitForWorkingTunnel
  if ok then pure ()
  else .throw (.illegalState (WgTunnelValidator.failureMessage serverName))

/-- `getOrBuildRankings`. -/
def getOrBuildRankings (servers : List WgServerDto) : HomeProg (List ServerScore) := do
  match ← step .cachedRankings with
  | some ranked => pure ranked
  | none =>
      let ranked ← step (.rankServers servers)
      step (.setRankings ranked)
      pure ranked

/-- `orderedCandidates`. -/
def orderedCandidates (forceFresh : Bool) (servers : List WgServerDto)
    (ranked : List ServerScore) : HomeProg (List WgServerDto) := do
  if forceFresh then pure (freshCandidates ranked)
  else
    let lastGood ← step .getLastGood
    pure (usualCandidates servers ranked lastGood)

/-- Fetch a configuration, bring it up and have it validated: what both ways of
connecting have in common. -/
def fetchAndConnect (serverId : ℤ) (label : JString) : HomeProg Unit := do
  let config ← Prog.ofExcept (← step (.wgConfig serverId))
  backend (WireGuardBackend.connect config)
  step (.main (.verifying (jstr "Verifying " ++ label ++ jstr "...")))
  step .delay
  validateTunnelOrThrow (some label)

/-- One round of the candidate loop, up to `return@launch`. -/
def tryCandidate (candidate : WgServerDto) : HomeProg Unit := do
  let label := candidate.displayName
  step (.main (.showText (jstr "Connecting to " ++ label ++ jstr "...")))
  fetchAndConnect candidate.id label
  step (.setCurrentConnectedServerLabel label)
  step (.saveLastGood candidate.id label)
  step (.main (.connected candidate.id (jstr "Smart Auto • " ++ label)))

/-- The candidate loop. -/
def candidateLoop : List WgServerDto → Option HomeExn → HomeProg Unit
  | [], lastError =>
      .throw (lastError.getD (.illegalState (jstr "No candidate server could connect")))
  | candidate :: rest, _ =>
      Prog.bind
        ((Prog.bind (tryCandidate candidate) fun _ => .pure none).tryCatch fun e =>
          disconnectQuietly.bind fun _ => .pure (some e))
        fun
          | none => .pure ()
          | some e => candidateLoop rest (some e)

/-- The candidates of `connectSmartAuto`. -/
def smartCandidates (forceFresh : Bool) : HomeProg (List WgServerDto) := do
  let servers ← Prog.ofExcept (← step .servers)
  if servers.isEmpty then .throw (.illegalState (jstr "No WireGuard servers available"))
  else
    let ranked ← getOrBuildRankings servers
    if ranked.isEmpty then .throw (.illegalState (jstr "No reachable servers found"))
    else orderedCandidates forceFresh servers ranked

/-- The job of `connectSmartAuto`. -/
def connectSmartAuto (forceFresh : Bool) : HomeProg Unit :=
  Prog.tryCatch
    (do
      let candidates ← smartCandidates forceFresh
      candidateLoop candidates none)
    (fun _ => step (.main (.failed (jstr "Smart Auto"))))

/-- The job of `connectToSpecificServer`. -/
def connectToSpecificServer (serverId : ℤ) (label : JString) (previousServerId : Option ℤ)
    (previousServerLabel : Option JString) : HomeProg Unit :=
  Prog.tryCatch
    (do
      fetchAndConnect serverId label
      step (.setCurrentConnectedServerLabel label)
      Prog.ofExcept (← step (.saveLastServer serverId label))
      step (.saveLastGood serverId label)
      step (.main (.connected serverId label)))
    (fun _ => do
      disconnectQuietly
      step (.setSelectedServerId previousServerId)
      step (.setSelectedServerLabel previousServerLabel)
      step (.main (.failed (previousServerLabel.getD (jstr "Smart Auto")))))

/-- The job of `disconnectCurrentTunnel`. -/
def disconnectCurrentTunnel : HomeProg (Option Job) :=
  Prog.tryCatch
    (do
      backend WireGuardBackend.disconnect
      step (.main .disconnected)
      pure none)
    (fun _ => do
      step (.main .refresh)
      pure (some .updateUiFromBackendState))

/-- The job of `selectSmartAutoAndConnect`. -/
def selectSmartAutoAndConnect : HomeProg (Option Job) := do
  Prog.ofExcept (← step .clearLastServer)
  let launched ← step .startSmartAuto
  if launched then pure (some (.connectSmartAuto true)) else pure none

/-- The job of `updateUiFromBackendState`. -/
def updateUiFromBackendState : HomeProg (Option Job) := do
  let connected ← step .isConnected
  step (.main (.backendState connected))
  pure none

/-- The job of `onActivityResult`. -/
def onActivityResult : HomeProg (Option Job) :=
  Prog.tryCatch
    (do
      backend WireGuardBackend.retryConnectionAfterPermission
      validateTunnelOrThrow none
      step (.main .refresh)
      pure (some .updateUiFromBackendState))
    (fun _ => do
      disconnectQuietly
      step (.main .retryFailed)
      pure none)

/-- The body of a job. -/
def bodyOf : Job → HomeProg (Option Job)
  | .connectSmartAuto forceFresh => (connectSmartAuto forceFresh).bind fun _ => .pure none
  | .connectToSpecificServer serverId label previousServerId previousServerLabel =>
      (connectToSpecificServer serverId label previousServerId previousServerLabel).bind
        fun _ => .pure none
  | .disconnectCurrentTunnel => disconnectCurrentTunnel
  | .selectSmartAutoAndConnect => selectSmartAutoAndConnect
  | .updateUiFromBackendState => updateUiFromBackendState
  | .onActivityResult => onActivityResult

/-! ## The events -/

/-- What can happen on the main thread. -/
inductive Event where
  | connectButton
  | serverCard (serverId : ℤ) (label : JString)
  | smartAutoCard
  | resume
  | permissionResult (granted : Bool)

/-- `connectToSpecificServer` up to its `launch`. -/
def clickServer (serverId : ℤ) (label : JString) (s : HomeState) : HomeState × Option Job :=
  if isBusy s then (s, none)
  else
    let switching := decide (s.currentVpnState = .connected)
    ({ s with
        smartAutoSelected := false
        selectedServerId := some serverId
        selectedServerLabel := some label
        selectedServerText :=
          (if switching then jstr "Switching to " else jstr "Connecting to ") ++ label ++ jstr "..."
        currentVpnState := if switching then .switching else .connecting },
      some (.connectToSpecificServer serverId label s.selectedServerId s.selectedServerLabel))

/-- `connectSmartAuto` up to its `launch`, from a click. -/
def clickSmartAuto (s : HomeState) : HomeState × Option Job :=
  let x := startSmartAuto s
  (x.2, if x.1 then some (.connectSmartAuto false) else none)

/-- `disconnectCurrentTunnel` up to its `launch`. -/
def clickDisconnect (s : HomeState) : HomeState × Option Job :=
  if isBusy s then (s, none)
  else
    ({ s with currentVpnState := .switching, selectedServerText := jstr "Disconnecting..." },
      some .disconnectCurrentTunnel)

/-- `handleConnectButtonClick`. -/
def handleConnectButtonClick (s : HomeState) : HomeState × Option Job :=
  if isBusy s then (s, none)
  else if s.currentVpnState = .connected then clickDisconnect s
  else
    match s.selectedServerId with
    | none => clickSmartAuto s
    | some serverId =>
        if isNullOrBlank s.selectedServerLabel then clickSmartAuto s
        else clickServer serverId (s.selectedServerLabel.getD []) s

/-- `selectSmartAutoAndConnect` up to its `launch`. -/
def clickSmartAutoCard (s : HomeState) : HomeState × Option Job :=
  if isBusy s then (s, none)
  else
    ({ s with
        smartAutoSelected := true
        selectedServerId := none
        selectedServerLabel := none
        currentConnectedServerLabel := none
        selectedServerText := jstr "Smart Auto" },
      some .selectSmartAutoAndConnect)

/-- `onActivityResult` up to its `launch`; there is a result only if there was a
dialog. -/
def permissionResult (granted : Bool) (s : HomeState) : Option (HomeState × Option Job) :=
  if s.wg.dialogs = 0 then none
  else
    let s := { s with wg := { s.wg with dialogs := s.wg.dialogs - 1 } }
    if granted then some (s, some .onActivityResult) else some (MainBlock.retryFailed.run s, none)

/-- What an event does. -/
def handle : Event → HomeState → Option (HomeState × Option Job)
  | .connectButton, s => some (handleConnectButtonClick s)
  | .serverCard serverId label, s => some (clickServer serverId label s)
  | .smartAutoCard, s => some (clickSmartAutoCard s)
  | .resume, s => some (s, some .updateUiFromBackendState)
  | .permissionResult granted, s => permissionResult granted s

/-- The activity. -/
def system (net : NetApi) (packageName : JString) :
    System HomeOp HomeOp.Res HomeExn HomeEnv HomeState Job Event where
  perform := perform net packageName
  body := bodyOf
  handle := handle

/-- A configuration of the activity. -/
abbrev HomeConf := Conf HomeOp HomeOp.Res HomeExn Job HomeState

/-- A job that was launched. -/
abbrev HomeThread := Thread HomeOp HomeOp.Res HomeExn Job

/-- The screen has been created and nothing has been launched. -/
def start : HomeConf := ⟨{}, []⟩

/-- The jobs of which one is to run at a time. -/
def Job.isOperation : Job → Bool
  | .connectSmartAuto _ => true
  | .connectToSpecificServer _ _ _ _ => true
  | .disconnectCurrentTunnel => true
  | _ => false

/-- No operation is unfinished. -/
def noOperation (c : HomeConf) : Bool :=
  c.threads.all fun t => !(t.job.isOperation && t.body.running)

end HomeActivity
end AioVpn
