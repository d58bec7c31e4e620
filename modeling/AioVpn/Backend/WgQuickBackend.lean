import AioVpn.Backend.GoBackend
import AioVpn.Config.WgQuick
import Mathlib.Data.List.AList

/-!
# `WgQuickBackend`

The backend for phones with root access.  It keeps a map of the tunnels it has brought up, and does
the work with the programs `wg` and `wg-quick`, which it runs in the root shell.

## Three places that know what runs

* the map `runningConfigs`, which is all that `setState` remembers;
* the WireGuard interfaces of the kernel, which `getState` asks for with `wg show interfaces`;
* the owners of the tunnels, who are told of every change.

Nothing makes a change in the first two at once.  `wg-quick down` deletes the interface first and
then the rules that belong to it, and reports a failure of any of these steps; `wg-quick up` deletes
what it has made when it fails, but ignores a failure to do so; the shell may die before it reports
anything.  `ShellEnv` is what can happen to one command, and the commands of a run have one each.

## The map

`runningConfigs` is a `HashMap`, so the order in which its entries are visited is not known.  It is
a part of the environment, `entrySet`.
-/

namespace AioVpn

/-! ## Names -/

/-- A character of `Tunnel.NAME_PATTERN`. -/
def JChar.isNameChar (c : JChar) : Bool :=
  c.isUpper || c.isLower || c.isDigit || [ch '_', ch '=', ch '+', ch '.', ch '-'].contains c

/-- `Tunnel.isNameInvalid`. -/
def Tunnel.isNameInvalid (name : JString) : Bool :=
  !(1 ≤ name.length && name.length ≤ 15 && name.all JChar.isNameChar)

/-- A name the kernel accepts for a network device. -/
def isDeviceName (name : JString) : Bool := name ≠ [] && name.all fun c => !c.isSpace

/-- The name of a network device. -/
abbrev DeviceName := { name : JString // isDeviceName name = true }

/-- A tunnel object; its name passes the test. -/
structure NamedTunnel extends Tunnel where
  valid : Tunnel.isNameInvalid name = false
  deriving DecidableEq

theorem JChar.not_isSpace_of_isNameChar {c : JChar} (h : c.isNameChar = true) :
    c.isSpace = false := by
  simp only [isNameChar, isUpper, isLower, isDigit, Bool.or_eq_true, Bool.and_eq_true,
    decide_eq_true_eq, List.contains_iff_mem, List.mem_cons, List.not_mem_nil, or_false] at h
  refine (visible_of_lt ?_).1
  rcases h with ((h | h) | h) | rfl | rfl | rfl | rfl | rfl
  · omega
  · omega
  · omega
  all_goals decide

/-- The interface of a tunnel. -/
def NamedTunnel.device (t : NamedTunnel) : DeviceName := ⟨t.name, by
  have h := t.valid
  simp only [Tunnel.isNameInvalid, Bool.not_eq_false', Bool.and_eq_true, decide_eq_true_eq,
    List.all_eq_true] at h
  obtain ⟨⟨hlen, -⟩, hchars⟩ := h
  rw [isDeviceName, Bool.and_eq_true, decide_eq_true_eq, List.all_eq_true]
  refine ⟨List.ne_nil_of_length_pos hlen, fun c hc => ?_⟩
  rw [JChar.not_isSpace_of_isNameChar (hchars c hc)]
  rfl⟩

/-- The WireGuard interfaces, with the text each was set up from. -/
abbrev Links := AList fun _ : DeviceName => JString

/-! ## The programs -/

/-- How a run of `wg-quick` ends. -/
structure QuickEnv where
  /-- The exit status of the step that fails, or zero. -/
  status : ℤ := 0
  /-- An `up` that fails does not delete the interface it has made. -/
  leftBehind : Bool := false
  /-- A `down` that fails has already deleted the interface. -/
  deleted : Bool := false

/-- What becomes of the root shell during a command. -/
inductive ShellEnd where
  | returns
  /-- `run` throws, and the command was not run. -/
  | diesBefore
  /-- `run` throws, and the command was run. -/
  | diesAfter
  deriving DecidableEq

/-- What can happen to one command. -/
structure ShellEnv where
  shell : ShellEnd := .returns
  /-- The exit status of `wg show interfaces`. -/
  listing : ℤ := 0
  /-- The temporary file can be written. -/
  writable : Bool := true
  /-- The exit status of `cat /sys/module/wireguard/version`. -/
  version : ℤ := 0
  quick : QuickEnv := {}

namespace WgQuick

/-- `cmd_up`: an interface of that name is left alone, and is an error. -/
def up (env : QuickEnv) (iface : DeviceName) (config : JString) (links : Links) : ℤ × Links :=
  if iface ∈ links then (17, links)
  else if env.status = 0 then (0, links.insert iface config)
  else (env.status, if env.leftBehind then links.insert iface config else links)

/-- `cmd_down`: an interface that is not there is an error. -/
def down (env : QuickEnv) (iface : DeviceName) (links : Links) : ℤ × Links :=
  if iface ∉ links then (124, links)
  else if env.status = 0 then (0, links.erase iface)
  else (env.status, if env.deleted then links.erase iface else links)

/-- The lines of `wg show interfaces`: all names on one line, or no line. -/
def showInterfaces (links : Links) : List JString :=
  if links.keys = [] then []
  else [JString.joinToString [ch ' '] (links.keys.map Subtype.val)]

end WgQuick

/-- `String.split` at a character: the empty parts at the end are left out. -/
def JString.split (separator : JChar) (s : JString) : List JString :=
  if separator ∈ s then (s.splitOn separator).rdropWhile List.isEmpty else [s]

/-! ## The backend -/

/-- The exceptions of `setState`. -/
inductive QuickExn where
  /-- The configuration is `null`. -/
  | nullPointer
  /-- The temporary file. -/
  | io
  /-- `rootShell.run` throws. -/
  | rootShell
  /-- `WG_QUICK_CONFIG_ERROR_CODE`. -/
  | wgQuickConfigErrorCode (status : ℤ)
  /-- `Required tools unavailable`. -/
  | fileNotFound
  deriving DecidableEq

/-- An entry of `runningConfigs`. -/
abbrev QuickEntry := Sigma fun _ : NamedTunnel => ConfigRef

/-- What comes from outside in a run. -/
structure WgQuickEnv where
  /-- `toolsInstaller.extract()` succeeds. -/
  extract : Bool := true
  /-- What happens to the commands, in the order they are given. -/
  shell : ℕ → ShellEnv := fun _ => {}
  /-- The order of the entries of a map. -/
  entrySet : List QuickEntry → List QuickEntry := id
  perm : ∀ l, (entrySet l).Perm l := by exact fun l => .refl l

/-- The state of the backend and of what it drives. -/
structure QuickState (L : Type) where
  runningConfigs : AList (fun _ : NamedTunnel => ConfigRef) := ∅
  multipleTunnels : Bool := false
  areToolsAvailable : Option Bool := none
  links : Links := ∅
  /-- The number of commands given. -/
  commands : ℕ := 0
  /-- What the tunnels' owners made of the callbacks. -/
  listeners : L

namespace WgQuickBackend

variable {L : Type}

/-- `ensureToolsAvailable`: the first attempt decides. -/
def ensureToolsAvailable (env : WgQuickEnv) (s : QuickState L) : Bool × QuickState L :=
  match s.areToolsAvailable with
  | some available => (available, s)
  | none => (env.extract, { s with areToolsAvailable := some env.extract })

/-- `getRunningTunnelNames`: every failure is an empty set. -/
def getRunningTunnelNames (env : WgQuickEnv) (s : QuickState L) : List JString × QuickState L :=
  match ensureToolsAvailable env s with
  | (false, s) => ([], s)
  | (true, s) =>
      let e := env.shell s.commands
      let s := { s with commands := s.commands + 1 }
      if e.shell ≠ .returns ∨ e.listing ≠ 0 then ([], s)
      else
        match WgQuick.showInterfaces s.links with
        | [] => ([], s)
        | line :: _ => (line.split (ch ' '), s)

/-- `getState`. -/
def getState (env : WgQuickEnv) (tunnel : NamedTunnel) (s : QuickState L) :
    TunnelState × QuickState L :=
  let (names, s) := getRunningTunnelNames env s
  (if names.contains tunnel.name then .up else .down, s)

/-- `rootShell.run` of `wg-quick` for a tunnel: the exit status, unless it throws, and the
interfaces. -/
def runWgQuick (e : ShellEnv) (state : TunnelState) (iface : DeviceName) (config : JString)
    (links : Links) : Option ℤ × Links :=
  let x :=
    if state = .up then
      if e.version ≠ 0 then (e.version, links) else WgQuick.up e.quick iface config links
    else WgQuick.down e.quick iface links
  match e.shell with
  | .returns => (some x.1, x.2)
  | .diesBefore => (none, links)
  | .diesAfter => (none, x.2)

section SetState

variable (net : NetApi) (notify : NamedTunnel → TunnelState → L → L) (env : WgQuickEnv)

/-- `setStateInternal`. -/
def setStateInternal (tunnel : NamedTunnel) (config : Option ConfigRef) (state : TunnelState)
    (s : QuickState L) : Except QuickExn Unit × QuickState L :=
  match config with
  | none => (.error .nullPointer, s)
  | some config =>
      let e := env.shell s.commands
      let s := { s with commands := s.commands + 1 }
      if e.writable = false then (.error .io, s)
      else
        let (result, links) :=
          runWgQuick e state tunnel.device (config.config.toWgQuickString net) s.links
        let s := { s with links := links }
        match result with
        | none => (.error .rootShell, s)
        | some status =>
            if status ≠ 0 then (.error (.wgQuickConfigErrorCode status), s)
            else
              (.ok (), { s with
                runningConfigs :=
                  if state = .up then s.runningConfigs.insert tunnel config
                  else s.runningConfigs.erase tunnel
                listeners := notify tunnel state s.listeners })

/-- The loop that takes tunnels down: the exception that ends it, and what was taken down. -/
def takeDown : List QuickEntry → List QuickEntry → QuickState L →
    Option QuickExn × List QuickEntry × QuickState L
  | [], rewind, s => (none, rewind, s)
  | entry :: entries, rewind, s =>
      match setStateInternal net notify env entry.1 (some entry.2) .down s with
      | (.error e, s) => (some e, rewind, s)
      | (.ok (), s) => takeDown entries (rewind ++ [entry]) s

/-- The loops that bring tunnels back: the first exception ends them and is ignored. -/
def bringBack : List QuickEntry → QuickState L → QuickState L
  | [], s => s
  | entry :: entries, s =>
      match setStateInternal net notify env entry.1 (some entry.2) .up s with
      | (.error _, s) => s
      | (.ok (), s) => bringBack entries s

/-- The handler of a bring-up that fails. -/
def restore (tunnel : NamedTunnel) (originalState : TunnelState) (originalConfig : Option ConfigRef)
    (snapshot : List QuickEntry) (s : QuickState L) : QuickState L :=
  if originalState = .up then
    match originalConfig with
    | some config => (setStateInternal net notify env tunnel (some config) .up s).2
    | none => s
  else if s.multipleTunnels = false then bringBack net notify env snapshot s
  else s

/-- The `UP` case of `setState`, after the tools are there. -/
def switchTo (tunnel : NamedTunnel) (originalState : TunnelState)
    (originalConfig : Option ConfigRef) (snapshot : List QuickEntry) (config : Option ConfigRef)
    (s : QuickState L) : Except QuickExn TunnelState × QuickState L :=
  match
    if s.multipleTunnels = false ∧ originalState = .down then takeDown net notify env snapshot [] s
    else (none, [], s) with
  | (some e, rewind, s) => (.error e, bringBack net notify env rewind s)
  | (none, _, s) =>
      match
        if originalState = .up then
          setStateInternal net notify env tunnel (originalConfig.or config) .down s
        else (.ok (), s) with
      | (.error e, s) => (.error e, s)
      | (.ok (), s) =>
          match setStateInternal net notify env tunnel config .up s with
          | (.ok (), s) => (.ok .up, s)
          | (.error e, s) =>
              (.error e, restore net notify env tunnel originalState originalConfig snapshot s)

/-- `WgQuickBackend.setState`. -/
def setState (tunnel : NamedTunnel) (state : TunnelState) (config : Option ConfigRef)
    (s : QuickState L) : Except QuickExn TunnelState × QuickState L :=
  let (originalState, s) := getState env tunnel s
  let originalConfig := s.runningConfigs.lookup tunnel
  let snapshot := env.entrySet s.runningConfigs.entries
  let state := if state = .toggle then (if originalState = .up then .down else .up) else state
  if (state = .up ∧ originalState = .up ∧ originalConfig.isSome ∧ originalConfig = config) ∨
      (state = .down ∧ originalState = .down) then
    (.ok originalState, s)
  else if state = .up then
    match ensureToolsAvailable env s with
    | (false, s) => (.error .fileNotFound, s)
    | (true, s) => switchTo net notify env tunnel originalState originalConfig snapshot config s
  else
    match setStateInternal net notify env tunnel (originalConfig.or config) .down s with
    | (.error e, s) => (.error e, s)
    | (.ok (), s) => (.ok .down, s)

end SetState

/-! ## Runs -/

/-- What can happen. -/
inductive Event where
  | setState (tunnel : NamedTunnel) (state : TunnelState) (config : Option ConfigRef)
  | setMultipleTunnels (on : Bool)
  /-- The interfaces are changed by someone else. -/
  | outside (links : Links)

/-- One event. -/
def perform (net : NetApi) (notify : NamedTunnel → TunnelState → L → L) (env : WgQuickEnv)
    (s : QuickState L) : Event → QuickState L
  | .setState tunnel state config => (setState net notify env tunnel state config s).2
  | .setMultipleTunnels on => { s with multipleTunnels := on }
  | .outside links => { s with links := links }

/-- A sequence of events. -/
def run (net : NetApi) (notify : NamedTunnel → TunnelState → L → L) (env : WgQuickEnv)
    (events : List Event) (s : QuickState L) : QuickState L :=
  events.foldl (perform net notify env) s

end WgQuickBackend
end AioVpn
