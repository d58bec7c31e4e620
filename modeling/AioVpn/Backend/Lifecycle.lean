import AioVpn.Backend.AbstractBackend

/-!
# Whole runs of the backend

A run is a sequence of `setState` calls, with any arguments and any outcome of the
environment, and of life cycle callbacks of the service between them.

* `consistent_run`: after any run, the three fields agree with each other and with
  the handle table, nothing is leaked or closed twice, the early return of a
  bring-up was never taken, and the last callback of a tunnel is `UP` exactly when it
  is the current one.
* `onDestroy_keeps_tunnel_iff`: what the destruction of a service instance that a
  call of `setState` stopped does to the tunnel that call brought up.

## Why the second result is not the expected one

`setState` takes a running tunnel down before it brings the next one up, and taking
it down calls `stopSelf` on the service.  The future `vpnService` stays completed
with that instance until it is destroyed, so the bring-up that follows at once uses
the instance again and makes the backend its owner.  Its `onDestroy`, when it
arrives, takes down what the owner runs: the new tunnel.  The invariant that shows
this, `Pending`, is that every instance that waits for its destruction is the one of
the completed future.
-/

namespace AioVpn
namespace GoBackend

variable {L : Type}

/-- What can happen to the backend. -/
inductive Event where
  | setState (env : SetStateEnv) (tunnel : Tunnel) (state : TunnelState)
      (config : Option ConfigRef)
  | onCreate
  | onDestroy (service : ℕ)

section Runs

variable (net : NetApi) (packageName : JString) (notify : Tunnel → TunnelState → L → L)

/-- One event. -/
def perform (s : GoState L) : Event → GoState L
  | .setState env tunnel state config =>
      (setState net packageName notify env tunnel state config s).2
  | .onCreate => onCreate s
  | .onDestroy service => onDestroy notify service s

/-- A sequence of events. -/
def run (events : List Event) (s : GoState L) : GoState L :=
  events.foldl (perform net packageName notify) s

theorem inv_init (l : L) : Inv ({ listeners := l } : GoState L) where
  fields := Or.inl ⟨rfl, rfl, rfl, rfl⟩
  native := Native.sound_init
  warnings := by simp

theorem inv_perform {s : GoState L} (hinv : Inv s) (e : Event) :
    Inv (perform net packageName notify s e) := by
  cases e with
  | setState env tunnel state config =>
    obtain ⟨r, s', calls, heq, -, href⟩ :=
      setState_refines net packageName notify env tunnel state config hinv
    rw [perform, heq]
    exact href.inv
  | onCreate => exact (onCreate_refines hinv).1
  | onDestroy service => exact (onDestroy_refines notify service hinv).1

theorem inv_run (events : List Event) {s : GoState L} (hinv : Inv s) :
    Inv (run net packageName notify events s) := by
  induction events generalizing s with
  | nil => exact hinv
  | cons e events ih => exact ih (inv_perform net packageName notify hinv e)

end Runs

/-! ## The last callback of every tunnel -/

/-- The last state each tunnel was told. -/
abbrev LastState := Tunnel → Option TunnelState

/-- `onStateChange` of a tunnel that remembers what it was told. -/
def remember (tunnel : Tunnel) (state : TunnelState) (l : LastState) : LastState :=
  Function.update l tunnel (some state)

/-- Exactly the tunnel that runs was last told `UP`. -/
def Told (r : Current) (l : LastState) : Prop :=
  ∀ t, l t = some .up ↔ r.map Prod.fst = some t

theorem told_none_of_down {l : LastState} {o : Tunnel × ConfigRef} (h : Told (some o) l) :
    Told none (remember o.1 .down l) := by
  intro t
  by_cases ht : t = o.1
  · simp [remember, ht]
  · have hup := h t
    rw [Option.map_some, Option.some.injEq] at hup
    simp [remember, Function.update_of_ne ht, hup, Ne.symm ht]

theorem told_some_of_up {l : LastState} (h : Told none l) (o : Tunnel × ConfigRef) :
    Told (some o) (remember o.1 .up l) := by
  intro t
  by_cases ht : t = o.1
  · simp [remember, ht]
  · have hup := h t
    rw [Option.map_none] at hup
    simp [remember, Function.update_of_ne ht, hup, Ne.symm ht]

/-- The callbacks of a call of `setState` tell every tunnel what became of it. -/
theorem Effect.told {t : Tunnel} {state : TunnelState} {config : Option ConfigRef}
    {r r' : Current} {result : Except Exn TunnelState} {calls : List Call}
    (h : Effect t state config r result r' calls) {l : LastState} (ht : Told r l) :
    Told r' (announce remember calls l) := by
  cases h with
  | already c => exact ht
  | up c => exact told_some_of_up ht (t, c)
  | failed config e => exact ht
  | switched c o hne => exact told_some_of_up (told_none_of_down ht) (t, c)
  | restored config o e => exact told_some_of_up (told_none_of_down ht) o
  | lost config o e => exact told_none_of_down ht
  | down config c => exact told_none_of_down ht
  | ignored config r hne => exact ht

section Consistency

variable (net : NetApi) (packageName : JString)

theorem told_perform {s : GoState LastState} (hinv : Inv s) (ht : Told (running s) s.listeners)
    (e : Event) :
    Told (running (perform net packageName remember s e))
      (perform net packageName remember s e).listeners := by
  cases e with
  | setState env tunnel state config =>
    obtain ⟨r, s', calls, heq, heff, href⟩ :=
      setState_refines net packageName remember env tunnel state config hinv
    rw [perform, heq, href.listeners]
    exact heff.told ht
  | onCreate =>
    obtain ⟨-, hrun, hlis⟩ := onCreate_refines hinv
    rw [perform, hrun, hlis]
    exact ht
  | onDestroy service =>
    rw [perform]
    rcases (onDestroy_refines remember service hinv).2 with
      ⟨hrun, hlis, -⟩ | ⟨t, c, hbefore, hafter, hlis, -⟩
    · rw [hrun, hlis]
      exact ht
    · rw [hbefore] at ht
      rw [hafter, hlis]
      exact told_none_of_down ht

theorem told_run (events : List Event) {s : GoState LastState} (hinv : Inv s)
    (ht : Told (running s) s.listeners) :
    Told (running (run net packageName remember events s))
      (run net packageName remember events s).listeners := by
  induction events generalizing s with
  | nil => exact ht
  | cons e events ih =>
    exact ih (inv_perform net packageName remember hinv e) (told_perform net packageName hinv ht e)

/-- **The backend and the Go library stay consistent.**  After every run from the
initial state, whatever the calls, their arguments and the outcomes of the
environment. -/
theorem consistent_run (events : List Event) :
    let s := run net packageName remember events { listeners := fun _ => none }
    ((∃ t c, s.currentTunnel = some t ∧ s.currentConfig = some c ∧ 0 ≤ s.currentTunnelHandle ∧
          s.native.keys = [s.currentTunnelHandle]) ∨
        (s.currentTunnel = none ∧ s.currentConfig = none ∧ s.currentTunnelHandle = -1 ∧
          s.native.keys = [])) ∧
      (∀ d ∈ s.native.entered,
        d ∈ s.native.closed ∨ ∃ h ∈ s.native.tunnelHandles, h.2.device = d) ∧
      (∀ h ∈ s.native.tunnelHandles, h.2.device ∉ s.native.closed) ∧
      s.native.closed.Nodup ∧
      Warning.tunnelAlreadyUp ∉ s.warnings ∧
      ∀ t, s.listeners t = some .up ↔ s.currentTunnel = some t := by
  intro s
  have hinv : Inv s := inv_run net packageName remember events (inv_init _)
  have htold : Told (running s) s.listeners :=
    told_run net packageName events (inv_init _) (by
      intro t
      rw [(⟨rfl, rfl, rfl, rfl⟩ : Clear _).running]
      simp)
  refine ⟨?_, hinv.native.entered_cases, fun h hh => (hinv.native.open_of_mem h hh).2,
    hinv.native.closed_nodup, hinv.warnings, ?_⟩
  · rcases hinv.fields with hclear | ⟨t, c, hrun⟩
    · refine Or.inr ⟨hclear.tunnel, hclear.config, hclear.handle, ?_⟩
      rw [Native.keys, hclear.table, List.map_nil]
    · obtain ⟨entry, htable⟩ := hrun.table
      refine Or.inl ⟨t, c, hrun.tunnel, hrun.config, hrun.handle, ?_⟩
      rw [Native.keys, htable, List.map_singleton]
  · intro t
    rw [hinv.currentTunnel_eq]
    exact htold t

end Consistency

/-! ## The destruction of a stopped instance -/

/-- A configuration object with nothing but a key. -/
def bareConfig (serial : ℕ) : ConfigRef where
  serial := serial
  config :=
    { interfaze :=
        { addresses := .empty
          dnsServers := .empty
          dnsSearchDomains := .empty
          excludedApplications := .empty
          includedApplications := .empty
          privateKey := ⟨List.replicate 32 0, by decide⟩
          listenPort := none
          mtu := none
          exclusive := Or.inl rfl }
      peers := [] }

/-- A platform that parses no addresses: enough for configurations without any. -/
def noAddresses : NetApi where
  parseNumericAddress := fun _ => none
  getHostAddress := fun _ => []
  uri := fun _ => none

/-- The package of the app. -/
def applicationId : JString := jstr "uk.co.aiovpn.android"

/-- Nobody listens. -/
def ignore (_ : Tunnel) (_ : TunnelState) (_ : Unit) : Unit := ()

section Destruction

variable (net : NetApi) (packageName : JString) (notify : Tunnel → TunnelState → L → L)

/-- The run delivers `onDestroy` only to instances `stopSelf` was called on. -/
def Orderly : List Event → GoState L → Prop
  | [], _ => True
  | e :: events, s =>
      (∀ service, e = .onDestroy service → service ∈ s.stopping) ∧
        Orderly events (perform net packageName notify s e)

/-- Every instance that waits for its destruction is the one of the completed
future, and a running tunnel is served by that one. -/
structure Pending (s : GoState L) : Prop where
  inv : Inv s
  stopping : ∀ service ∈ s.stopping, s.vpnService = some service
  served : Served s

/-- The instances a call stops were already the one of the future. -/
theorem Refines.pending {calls : List Call} {s s' : GoState L} (href : Refines notify calls s s')
    (h : Pending s) : Pending s' where
  inv := href.inv
  stopping := by
    intro service hmem
    rw [href.stopping] at hmem
    apply href.service
    rcases List.mem_append.mp hmem with hnew | hold
    · obtain ⟨-, -, hnew⟩ := List.mem_flatMap.mp hnew
      exact Option.mem_toList.mp hnew
    · exact h.stopping service hold
  served := href.served h.served

theorem pending_onCreate {s : GoState L} (h : Pending s) : Pending (onCreate s) := by
  obtain ⟨hinv, hrunning, -⟩ := onCreate_refines h.inv
  have hservice : ∀ service, s.vpnService = some service →
      (onCreate s).vpnService = some service := by
    intro service hv
    simp [onCreate, hv]
  have hstopping : (onCreate s).stopping = s.stopping := by
    unfold onCreate
    cases s.vpnService <;> rfl
  have howned : (onCreate s).owned = s.owned := by
    unfold onCreate
    cases s.vpnService <;> rfl
  refine ⟨hinv, ?_, ?_⟩
  · intro service hmem
    rw [hstopping] at hmem
    exact hservice service (h.stopping service hmem)
  · intro hrun
    rw [hrunning] at hrun
    obtain ⟨service, hv, hown⟩ := h.served hrun
    exact ⟨service, hservice service hv, howned ▸ hown⟩

theorem stopping_onDestroy (service : ℕ) (s : GoState L) :
    (onDestroy notify service s).stopping = s.stopping.filter (· ≠ service) := by
  have hstop : (if service ∈ s.owned then destroyOwned notify s else s).stopping =
      s.stopping := by
    unfold destroyOwned
    split
    · cases s.currentTunnel <;> rfl
    · rfl
  rw [onDestroy, hstop]

/-- **The destruction of a pending instance leaves nothing running**, whatever was
brought up in the meantime. -/
theorem Pending.running_onDestroy {s : GoState L} (h : Pending s) {service : ℕ}
    (hmem : service ∈ s.stopping) : running (onDestroy notify service s) = none := by
  rcases (onDestroy_refines notify service h.inv).2 with ⟨hsame, -, hnone⟩ | ⟨t, c, -, hafter, -⟩
  · rw [hsame]
    by_contra hrun
    obtain ⟨w, hw, hown⟩ := h.served hrun
    obtain rfl := Option.some.inj (hw.symm.trans (h.stopping service hmem))
    exact hrun (hnone hown)
  · exact hafter

/-- The instance that is destroyed is the one of the future, so nothing waits after it. -/
theorem pending_onDestroy {s : GoState L} (h : Pending s) {service : ℕ}
    (hmem : service ∈ s.stopping) : Pending (onDestroy notify service s) where
  inv := (onDestroy_refines notify service h.inv).1
  stopping := by
    intro w hw
    rw [stopping_onDestroy, List.mem_filter, decide_eq_true_eq] at hw
    have hsame := (h.stopping w hw.1).symm.trans (h.stopping service hmem)
    exact absurd (Option.some.inj hsame) hw.2
  served := fun hrun => absurd (h.running_onDestroy notify hmem) hrun

theorem pending_perform {s : GoState L} (h : Pending s) (e : Event)
    (horder : ∀ service, e = .onDestroy service → service ∈ s.stopping) :
    Pending (perform net packageName notify s e) := by
  cases e with
  | setState env tunnel state config =>
    obtain ⟨r, s', calls, heq, -, href⟩ :=
      setState_refines net packageName notify env tunnel state config h.inv
    rw [perform, heq]
    exact href.pending notify h
  | onCreate => exact pending_onCreate h
  | onDestroy service => exact pending_onDestroy notify h (horder service rfl)

theorem pending_run (events : List Event) {s : GoState L} (h : Pending s)
    (horder : Orderly net packageName notify events s) :
    Pending (run net packageName notify events s) := by
  induction events generalizing s with
  | nil => exact h
  | cons e events ih =>
    exact ih (pending_perform net packageName notify h e horder.1) horder.2

theorem pending_init (l : L) : Pending ({ listeners := l } : GoState L) where
  inv := inv_init l
  stopping := by simp
  served := fun h => absurd (⟨rfl, rfl, rfl, rfl⟩ : Clear _).running h

/-- **What a successful `setState(tunnel, UP, config)` leaves to be undone.**  The
instances the call stopped are the new entries of `stopping`.  Destroying any of
them keeps the tunnel exactly when the call stopped none, that is when nothing ran
before or this tunnel already ran with this configuration. -/
theorem onDestroy_keeps_tunnel_iff (l : L) (events : List Event)
    (horder : Orderly net packageName notify events { listeners := l }) (env : SetStateEnv)
    (tunnel : Tunnel) (config : Option ConfigRef) (s₁ : GoState L)
    (hup : setState net packageName notify env tunnel .up config
      (run net packageName notify events { listeners := l }) = (.ok .up, s₁)) :
    let s₀ := run net packageName notify events { listeners := l }
    ∃ stopped, s₁.stopping = stopped ++ s₀.stopping ∧
      ((∀ service ∈ stopped,
          (onDestroy notify service s₁).currentTunnel = some tunnel ∧
          s₁.currentTunnelHandle ∈ (onDestroy notify service s₁).native.keys) ↔
        s₀.currentTunnel = none ∨
          (s₀.currentTunnel = some tunnel ∧ s₀.currentConfig = config)) := by
  intro s₀
  have h₀ : Pending s₀ := pending_run net packageName notify events (pending_init l) horder
  obtain ⟨r, s', calls, heq, heff, href⟩ :=
    setState_refines net packageName notify env tunnel .up config h₀.inv
  obtain ⟨rfl, rfl⟩ := Prod.mk.inj (heq.symm.trans hup)
  have h₁ : Pending s' := href.pending notify h₀
  refine ⟨_, href.stopping, ?_⟩
  rw [h₀.inv.currentTunnel_eq, h₀.inv.currentConfig_eq]
  have hreq : requested tunnel .up s₀ = .up := rfl
  rw [hreq] at heff
  generalize hr₀ : running s₀ = r₀ at heff ⊢
  generalize running s' = r₁ at heff
  cases heff with
  | already c => simp
  | up c => simp
  | switched c o hne =>
    -- the switch stopped the instance that serves the former tunnel
    obtain ⟨service, hv, -⟩ := h₀.served (by simp [hr₀])
    have hstop : service ∈ s'.stopping := by
      rw [href.stopping, hv]
      simp
    have hnone := h₁.running_onDestroy notify hstop
    have hinv := (onDestroy_refines notify service h₁.inv).1
    constructor
    · intro hkeep
      have hcur := (hkeep service (by simp [hv])).1
      rw [hinv.currentTunnel_eq, hnone] at hcur
      exact absurd hcur (by simp)
    · rintro (hnil | ⟨ht, hc⟩)
      · exact absurd hnil (by simp)
      · exact absurd (Prod.ext (by simpa using ht) (by simpa using hc)) hne

end Destruction

/-- The theorem at a switch from one configuration to another. -/
theorem onDestroy_after_switch :
    let t : Tunnel := ⟨0, jstr "aiovpn"⟩
    let s₀ := run noAddresses applicationId ignore [.setState {} t .up (some (bareConfig 1))]
      { listeners := () }
    let s₁ := (setState noAddresses applicationId ignore {} t .up (some (bareConfig 2)) s₀).2
    ∃ stopped, s₁.stopping = stopped ++ s₀.stopping ∧
      ((∀ service ∈ stopped,
          (onDestroy ignore service s₁).currentTunnel = some t ∧
          s₁.currentTunnelHandle ∈ (onDestroy ignore service s₁).native.keys) ↔
        s₀.currentTunnel = none ∨
          (s₀.currentTunnel = some t ∧ s₀.currentConfig = some (bareConfig 2))) :=
  onDestroy_keeps_tunnel_iff noAddresses applicationId ignore ()
    [.setState {} ⟨0, jstr "aiovpn"⟩ .up (some (bareConfig 1))] ⟨by simp, trivial⟩ {} _
    (some (bareConfig 2)) _ (Prod.ext (by decide +kernel) rfl)

/-- **A switch is undone.**  A tunnel runs with one configuration and is switched to
another; the call returns `UP` and has stopped instance `0`.  When that instance is
destroyed, no tunnel runs any more. -/
theorem switch_undone_by_onDestroy :
    let t : Tunnel := ⟨0, jstr "aiovpn"⟩
    let s₀ := run noAddresses applicationId ignore [.setState {} t .up (some (bareConfig 1))]
      { listeners := () }
    let switch := setState noAddresses applicationId ignore {} t .up (some (bareConfig 2)) s₀
    s₀.stopping = [] ∧ switch.1 = .ok .up ∧ switch.2.currentTunnel = some t ∧
      switch.2.stopping = [0] ∧ (onDestroy ignore 0 switch.2).currentTunnel = none ∧
      (onDestroy ignore 0 switch.2).native.keys = [] := by
  decide +kernel

end GoBackend
end AioVpn
