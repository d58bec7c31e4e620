import AioVpn.Backend.GoBackend

/-!
# What the internal steps do

The faithful model of `GoBackend` has a dozen fields and a bring-up that can stop
at eight places.  This file says once what each internal step can do to the state;
everything else about the backend is derived from these equations.

* `Clear` and `RunningWith` are the two kinds of states between calls.  `Inv` says
  that there are no others, that the histories of the Go library are consistent,
  and that the early return `Tunnel already up` was not taken.
* `acquireService_spec`, `arrange_spec` and `activate_spec` are the parts of a
  bring-up; `UpOutcome` says how the whole of it can end when it is started with
  nothing running, and `setStateInternalUp_spec` that these are the only ways.
* `setStateInternalDown_spec` takes a running tunnel down.
* `wgTurnOnCall` is what a bring-up passes to `wgTurnOn`, if it comes to it;
  `native_eq_wgTurnOnCall` says that this is all the Go library gets from it.
-/

namespace AioVpn
namespace GoBackend

variable {L : Type}

/-! ## The states between calls -/

/-- Nothing runs. -/
structure Clear (s : GoState L) : Prop where
  config : s.currentConfig = none
  tunnel : s.currentTunnel = none
  handle : s.currentTunnelHandle = -1
  table : s.native.tunnelHandles = []

/-- The tunnel `t` runs with the configuration `c`. -/
structure RunningWith (t : Tunnel) (c : ConfigRef) (s : GoState L) : Prop where
  config : s.currentConfig = some c
  tunnel : s.currentTunnel = some t
  handle : 0 ≤ s.currentTunnelHandle
  table : ∃ h, s.native.tunnelHandles = [(s.currentTunnelHandle, h)]

/-- **The invariant of the backend.** -/
structure Inv (s : GoState L) : Prop where
  /-- The fields are all set or all clear, and the table agrees. -/
  fields : Clear s ∨ ∃ t c, RunningWith t c s
  /-- No native tunnel is leaked or closed twice. -/
  native : s.native.Sound
  /-- The early return of a bring-up was not taken. -/
  warnings : Warning.tunnelAlreadyUp ∉ s.warnings

/-- What runs. -/
def running (s : GoState L) : Option (Tunnel × ConfigRef) :=
  match s.currentTunnel, s.currentConfig with
  | some t, some c => some (t, c)
  | _, _ => none

theorem Clear.running {s : GoState L} (h : Clear s) : running s = none := by
  simp [GoBackend.running, h.tunnel]

theorem RunningWith.running {s : GoState L} {t : Tunnel} {c : ConfigRef} (h : RunningWith t c s) :
    running s = some (t, c) := by
  simp [GoBackend.running, h.tunnel, h.config]

theorem Inv.clear {s : GoState L} (h : Inv s) (hr : running s = none) : Clear s := by
  rcases h.fields with hc | ⟨t, c, hrun⟩
  · exact hc
  · rw [hrun.running] at hr
    exact absurd hr (by simp)

theorem Inv.runningWith {s : GoState L} (h : Inv s) {t : Tunnel} {c : ConfigRef}
    (hr : running s = some (t, c)) : RunningWith t c s := by
  rcases h.fields with hc | ⟨t', c', hrun⟩
  · rw [hc.running] at hr
    exact absurd hr (by simp)
  · rw [hrun.running] at hr
    obtain ⟨rfl, rfl⟩ := Prod.mk.inj (Option.some.inj hr)
    exact hrun

theorem Inv.currentTunnel_eq {s : GoState L} (h : Inv s) :
    s.currentTunnel = (running s).map Prod.fst := by
  rcases h.fields with hc | ⟨t, c, hrun⟩
  · rw [hc.running, hc.tunnel, Option.map_none]
  · rw [hrun.running, hrun.tunnel, Option.map_some]

theorem Inv.currentConfig_eq {s : GoState L} (h : Inv s) :
    s.currentConfig = (running s).map Prod.snd := by
  rcases h.fields with hc | ⟨t, c, hrun⟩
  · rw [hc.running, hc.config, Option.map_none]
  · rw [hrun.running, hrun.config, Option.map_some]

/-! ## The steps of a bring-up -/

/-- Set the fields that belong to the service and to the endpoint objects. -/
def refit (s : GoState L) (service : Option ℕ) (services : ℕ) (owned : List ℕ)
    (endpoints : ℕ × ℕ → EndpointCache) : GoState L :=
  { s with vpnService := service, services := services, owned := owned, endpoints := endpoints }

theorem acquireService_spec (env : BringUpEnv) (s : GoState L) :
    ∃ v k, (acquireService env s).2 = refit s v k s.owned s.endpoints ∧
      (∀ service, s.vpnService = some service → v = some service) ∧
      (∀ service, (acquireService env s).1 = .ok service → v = some service) := by
  unfold acquireService
  cases hv : s.vpnService with
  | some service =>
    refine ⟨s.vpnService, s.services, rfl, ?_, ?_⟩
    · intro w hw
      rw [hv, Option.some.inj hw]
    · intro w hw
      rw [hv, Except.ok.inj hw]
  | none =>
    have hsame : s = refit s none s.services s.owned s.endpoints := by
      rw [← hv]
      rfl
    cases startVpnService env with
    | error e => exact ⟨none, s.services, hsame, by simp, by simp⟩
    | ok u =>
      dsimp only
      split
      · refine ⟨some s.services, s.services + 1, rfl, by simp, ?_⟩
        intro w hw
        rw [Except.ok.inj hw]
      · exact ⟨none, s.services, hsame, by simp, by simp⟩

theorem arrange_spec (net : NetApi) (packageName : JString) (env : BringUpEnv) (tunnel : Tunnel)
    (config : ConfigRef) (s : GoState L) :
    ∃ ep, (arrange net packageName env tunnel config s).2 =
        refit s s.vpnService s.services s.owned ep ∧
      ∀ x, (arrange net packageName env tunnel config s).1 = .ok x →
        configureBuilder env.device packageName tunnel config.config = .ok x.1 := by
  unfold arrange
  split
  · exact ⟨_, rfl, by simp⟩
  · dsimp only
    cases hb : configureBuilder env.device packageName tunnel config.config with
    | error e => exact ⟨_, rfl, by simp⟩
    | ok builder =>
      refine ⟨_, rfl, ?_⟩
      intro x hx
      rw [← Except.ok.inj hx]

/-- **`establish` and `wgTurnOn`** fail and leave nothing behind, or record the
tunnel under the only handle of the table. -/
theorem activate_spec (notify : Tunnel → TunnelState → L → L) (env : BringUpEnv) (tunnel : Tunnel)
    (config : ConfigRef) (builder : VpnBuilder) (goConfig : JString) {s : GoState L}
    (hhandle : s.currentTunnelHandle = -1) (htable : s.native.tunnelHandles = []) :
    (∃ e n, activate notify env tunnel config builder goConfig s =
        (.error e, { s with currentTunnelHandle := -1, native := n }) ∧
        n.tunnelHandles = [] ∧ (s.native.Sound → n.Sound)) ∨
    ∃ i h n, activate notify env tunnel config builder goConfig s =
        (.ok (), { s with
          currentTunnelHandle := i
          native := n
          currentTunnel := some tunnel
          currentConfig := some config
          listeners := notify tunnel .up s.listeners }) ∧
        0 ≤ i ∧ n.tunnelHandles = [(i, h)] ∧ h.tun = builder ∧ (s.native.Sound → n.Sound) := by
  have hsame : s = { s with currentTunnelHandle := -1, native := s.native } := by
    rw [← hhandle]
  unfold activate
  cases env.establish with
  | null => exact Or.inl ⟨_, s.native, by rw [← hsame], htable, fun h => h⟩
  | illegalState => exact Or.inl ⟨_, s.native, by rw [← hsame], htable, fun h => h⟩
  | tun =>
    dsimp only
    have hsound : s.native.Sound → (Native.wgTurnOn env.native builder goConfig s.native).2.Sound :=
      fun h => h.wgTurnOn env.native builder goConfig
    rcases Native.wgTurnOn_cases env.native builder goConfig s.native with
      ⟨hneg, hkeep⟩ | ⟨i, hi, -, hon⟩
    · rw [hneg, if_pos (by omega)]
      exact Or.inl ⟨_, _, rfl, hkeep.trans htable, hsound⟩
    · rw [hon] at hsound ⊢
      dsimp only at hsound ⊢
      rw [if_neg (by omega)]
      refine Or.inr ⟨i, ⟨s.native.devices, env.native.uapi, builder, goConfig⟩, _, rfl, hi, ?_,
        rfl, hsound⟩
      rw [htable]

/-- How a bring-up that is started with nothing running can end: it fails and leaves
nothing running, or it records the tunnel. -/
inductive UpOutcome (packageName : JString) (notify : Tunnel → TunnelState → L → L)
    (env : BringUpEnv) (tunnel : Tunnel) (config : Option ConfigRef) (s : GoState L) :
    Except Exn Unit × GoState L → Prop where
  | failed (e : Exn) {v : Option ℕ} {k : ℕ} {o : List ℕ} {ep : ℕ × ℕ → EndpointCache} {n : Native}
      (keeps : ∀ service, s.vpnService = some service → v = some service)
      (sound : s.native.Sound → n.Sound) (table : n.tunnelHandles = []) :
      UpOutcome packageName notify env tunnel config s
        (.error e, { refit s v k o ep with currentTunnelHandle := -1, native := n })
  | up {c : ConfigRef} {service k : ℕ} {o : List ℕ} {ep : ℕ × ℕ → EndpointCache} {n : Native}
      {i : ℤ} {h : TunnelHandle} (given : config = some c)
      (keeps : ∀ w, s.vpnService = some w → service = w) (owned : service ∈ o)
      (sound : s.native.Sound → n.Sound) (handle : 0 ≤ i) (table : n.tunnelHandles = [(i, h)])
      (built : configureBuilder env.device packageName tunnel c.config = .ok h.tun) :
      UpOutcome packageName notify env tunnel config s
        (.ok (), { refit s (some service) k o ep with
          currentTunnelHandle := i
          native := n
          currentTunnel := some tunnel
          currentConfig := some c
          listeners := notify tunnel .up s.listeners })

section BringUp

variable (net : NetApi) (packageName : JString) (notify : Tunnel → TunnelState → L → L)
  (env : BringUpEnv) (tunnel : Tunnel) {s : GoState L} (hhandle : s.currentTunnelHandle = -1)
  (htable : s.native.tunnelHandles = [])

include hhandle htable

omit net in
variable {packageName notify env tunnel} in
/-- A failure before `establish`. -/
theorem UpOutcome.early {config : Option ConfigRef} (e : Exn) {v : Option ℕ} (k : ℕ) (o : List ℕ)
    (ep : ℕ × ℕ → EndpointCache)
    (hkeep : ∀ service, s.vpnService = some service → v = some service) :
    UpOutcome packageName notify env tunnel config s (.error e, refit s v k o ep) := by
  have hsame : refit s v k o ep =
      { refit s v k o ep with currentTunnelHandle := -1, native := s.native } := by
    rw [← hhandle]
    rfl
  rw [hsame]
  exact .failed e hkeep (fun h => h) htable

/-- The bring-up from the owned service on. -/
theorem arrange_activate_spec (c : ConfigRef) (service k : ℕ)
    (hkeep : ∀ w, s.vpnService = some w → service = w) :
    UpOutcome packageName notify env tunnel (some c) s
      (match arrange net packageName env tunnel c
          (setOwner service (refit s (some service) k s.owned s.endpoints)) with
        | (.error e, s) => (.error e, s)
        | (.ok (builder, goConfig), s) => activate notify env tunnel c builder goConfig s) := by
  obtain ⟨ep, hstate, hbuilt⟩ := arrange_spec net packageName env tunnel c
    (setOwner service (refit s (some service) k s.owned s.endpoints))
  generalize arrange net packageName env tunnel c
    (setOwner service (refit s (some service) k s.owned s.endpoints)) = x at hstate hbuilt
  obtain ⟨res, s₁⟩ := x
  obtain rfl : s₁ = refit s (some service) k (service :: s.owned) ep := hstate
  have hkeep' : ∀ w, s.vpnService = some w → some service = some w :=
    fun w hw => congrArg some (hkeep w hw)
  cases res with
  | error e => exact UpOutcome.early hhandle htable e k _ ep hkeep'
  | ok x =>
    obtain ⟨builder, goConfig⟩ := x
    have hh : (refit s (some service) k (service :: s.owned) ep).currentTunnelHandle = -1 := hhandle
    dsimp only
    rcases activate_spec notify env tunnel c builder goConfig hh htable with
      ⟨e, n, heq, htab, hsound⟩ | ⟨i, h, n, heq, hi, htab, rfl, hsound⟩
    · rw [heq]
      exact .failed e hkeep' hsound htab
    · rw [heq]
      exact .up rfl hkeep List.mem_cons_self hsound hi htab (hbuilt _ rfl)

/-- **The `UP` branch of `setStateInternal`, started with nothing running.** -/
theorem setStateInternalUp_spec (config : Option ConfigRef) :
    UpOutcome packageName notify env tunnel config s
      (setStateInternalUp net packageName notify env tunnel config s) := by
  have hself : ∀ e, UpOutcome packageName notify env tunnel config s (.error e, s) := fun e =>
    UpOutcome.early hhandle htable e s.services s.owned s.endpoints fun _ h => h
  cases config with
  | none => exact hself _
  | some c =>
    rw [setStateInternalUp]
    split
    · exact hself _
    · obtain ⟨v, k, hstate, hkeep, hok⟩ := acquireService_spec env s
      generalize acquireService env s = x at hstate hok
      obtain ⟨res, s₁⟩ := x
      obtain rfl : s₁ = refit s v k s.owned s.endpoints := hstate
      cases res with
      | error e => exact UpOutcome.early hhandle htable e k _ _ hkeep
      | ok service =>
        obtain rfl : v = some service := hok service rfl
        have hnotUp : ¬ (setOwner service
            (refit s (some service) k s.owned s.endpoints)).currentTunnelHandle ≠ -1 :=
          fun h => h hhandle
        dsimp only
        rw [if_neg hnotUp]
        exact arrange_activate_spec net packageName notify env tunnel hhandle htable c service k
          fun w hw => Option.some.inj (hkeep w hw)

end BringUp

/-- **A bring-up that succeeds** has one entry in the table of the Go library, with the
tunnel the builder was configured for. -/
theorem tunnelHandles_of_up {net : NetApi} {packageName : JString}
    {notify : Tunnel → TunnelState → L → L} {env : BringUpEnv} {tunnel : Tunnel}
    {config : ConfigRef} {s s' : GoState L} (hclear : Clear s)
    (hup : setStateInternalUp net packageName notify env tunnel (some config) s = (.ok (), s')) :
    ∃ h, s'.native.tunnelHandles = [(s'.currentTunnelHandle, h)] ∧
      configureBuilder env.device packageName tunnel config.config = .ok h.tun := by
  have hspec := setStateInternalUp_spec net packageName notify env tunnel hclear.handle
    hclear.table (some config)
  rw [hup] at hspec
  cases hspec with
  | up given _ _ _ _ table built =>
    obtain rfl := Option.some.inj given
    exact ⟨_, table, built⟩

/-- **The `DOWN` branch of `setStateInternal`** on a running tunnel. -/
theorem setStateInternalDown_spec (notify : Tunnel → TunnelState → L → L) (tunnel : Tunnel)
    {s : GoState L} {t : Tunnel} {c : ConfigRef} (h : RunningWith t c s) :
    ∃ n, setStateInternalDown notify tunnel s =
        { s with
          currentTunnel := none
          currentTunnelHandle := -1
          currentConfig := none
          native := n
          stopping := s.vpnService.toList ++ s.stopping
          listeners := notify tunnel .down s.listeners } ∧
      n.tunnelHandles = [] ∧ (s.native.Sound → n.Sound) := by
  have hne : s.currentTunnelHandle ≠ -1 := by
    have := h.handle
    omega
  obtain ⟨entry, htable⟩ := h.table
  refine ⟨Native.wgTurnOff s.currentTunnelHandle s.native, ?_, ?_, ?_⟩
  · rw [setStateInternalDown, if_neg hne]
    cases hv : s.vpnService with
    | none => simp [stopService]
    | some service => simp [stopService]
  · rw [Native.wgTurnOff_singleton htable]
  · exact fun hs => hs.wgTurnOff_singleton htable

/-! ## What a bring-up passes to the Go library -/

/-- The run comes to the loop that resolves the endpoints. -/
def reachesDnsRetry (env : BringUpEnv) (s : GoState L) : Bool :=
  !env.prepareIntent && (acquireService env s).1.isOk && s.currentTunnelHandle = -1

/-- What `setStateInternal` passes to `wgTurnOn`, in the runs that come to it. -/
def wgTurnOnCall (net : NetApi) (packageName : JString) (env : BringUpEnv) (tunnel : Tunnel)
    (config : ConfigRef) (s : GoState L) : Option (VpnBuilder × JString) :=
  if reachesDnsRetry env s ∧ env.establish = .tun then
    (arrange net packageName env tunnel config s).1.toOption
  else none

section Call

open Endpoints

variable {net : NetApi} {packageName : JString} {notify : Tunnel → TunnelState → L → L}
  {env : BringUpEnv} {tunnel : Tunnel} {config : ConfigRef} {s : GoState L}

/-- What is arranged depends on the objects of the endpoints only. -/
theorem arrange_congr {s' : GoState L} (h : s'.endpoints = s.endpoints) :
    (arrange net packageName env tunnel config s').1 =
        (arrange net packageName env tunnel config s).1 ∧
      (arrange net packageName env tunnel config s').2.endpoints =
        (arrange net packageName env tunnel config s).2.endpoints ∧
      (arrange net packageName env tunnel config s').2.native = s'.native := by
  rw [arrange, arrange, h]
  cases dnsRetry net env.dns config.serial config.config.peers dnsResolutionRetries
      ⟨0, s.endpoints⟩ with
  | mk result r =>
    cases result with
    | error e => exact ⟨rfl, rfl, rfl⟩
    | ok u =>
      dsimp only
      cases configureBuilder env.device packageName tunnel config.config with
      | error e => exact ⟨rfl, rfl, rfl⟩
      | ok builder => exact ⟨rfl, rfl, rfl⟩

/-- A run that does not come to the loop leaves the library alone. -/
theorem native_of_not_reaches (h : reachesDnsRetry env s = false) :
    (setStateInternalUp net packageName notify env tunnel (some config) s).2.native =
      s.native := by
  obtain ⟨v, k, hservice, -⟩ := acquireService_spec env s
  rw [setStateInternalUp]
  dsimp only
  split
  · rfl
  · rename_i hprepare
    cases hacquire : acquireService env s with
    | mk result s' =>
      rw [hacquire] at hservice
      obtain rfl : s' = _ := hservice
      cases result with
      | error e => rfl
      | ok service =>
        dsimp only
        split
        · rfl
        · rename_i hhandle
          rw [not_not] at hhandle
          have hreach : reachesDnsRetry env s = true := by
            rw [reachesDnsRetry, hacquire, Bool.eq_false_iff.mpr hprepare,
              decide_eq_true (p := s.currentTunnelHandle = -1) hhandle]
            rfl
          exact absurd (hreach.symm.trans h) (by simp)

/-- A run that comes to it. -/
theorem setStateInternalUp_of_reaches (h : reachesDnsRetry env s = true) :
    ∃ s', s'.endpoints = s.endpoints ∧ s'.native = s.native ∧
      (∀ e, (arrange net packageName env tunnel config s').1 = .error e →
        setStateInternalUp net packageName notify env tunnel (some config) s =
          (.error e, (arrange net packageName env tunnel config s').2)) ∧
      ∀ call, (arrange net packageName env tunnel config s').1 = .ok call →
        setStateInternalUp net packageName notify env tunnel (some config) s =
          activate notify env tunnel config call.1 call.2
            (arrange net packageName env tunnel config s').2 := by
  simp only [reachesDnsRetry, Bool.and_eq_true, Bool.not_eq_true', decide_eq_true_eq] at h
  obtain ⟨⟨hprepare, hok⟩, hhandle⟩ := h
  obtain ⟨v, k, hservice, -⟩ := acquireService_spec env s
  cases hacquire : acquireService env s with
  | mk result s' =>
    rw [hacquire] at hservice hok
    obtain rfl : s' = _ := hservice
    cases result with
    | error e => exact absurd hok (by simp [Except.isOk, Except.toBool])
    | ok service =>
      have hup : ¬ (setOwner service (refit s v k s.owned s.endpoints)).currentTunnelHandle ≠ -1 :=
        not_not.mpr hhandle
      refine ⟨setOwner service (refit s v k s.owned s.endpoints), rfl, rfl, ?_, ?_⟩
      all_goals
        intro x hx
        rw [setStateInternalUp, hprepare, hacquire]
        dsimp only
        rw [if_neg (by simp), if_neg hup]
        cases harrange : arrange net packageName env tunnel config
            (setOwner service (refit s v k s.owned s.endpoints)) with
        | mk result s₁ =>
          rw [harrange] at hx
          obtain rfl : result = _ := hx
          rfl

/-- **What the run passes to `wgTurnOn`** is all that the library gets from it. -/
theorem native_eq_wgTurnOnCall :
    (setStateInternalUp net packageName notify env tunnel (some config) s).2.native =
      (wgTurnOnCall net packageName env tunnel config s).elim s.native fun call =>
        (Native.wgTurnOn env.native call.1 call.2 s.native).2 := by
  by_cases hreach : reachesDnsRetry env s = true
  · obtain ⟨s', hendpoints, hnative, herror, hok⟩ := setStateInternalUp_of_reaches hreach
    obtain ⟨hresult, -, hkeeps⟩ := arrange_congr hendpoints
    rw [wgTurnOnCall, ← hresult]
    cases harrange : (arrange net packageName env tunnel config s').1 with
    | error e =>
      rw [herror e harrange]
      dsimp only
      rw [hkeeps, hnative]
      split <;> rfl
    | ok call =>
      rw [hok call harrange, activate]
      cases hestablish : env.establish with
      | null => exact (hkeeps.trans hnative).trans (by simp)
      | illegalState => exact (hkeeps.trans hnative).trans (by simp)
      | tun =>
        rw [if_pos ⟨hreach, rfl⟩, hkeeps, hnative]
        dsimp only
        split <;> rfl
  · rw [wgTurnOnCall, if_neg fun h => hreach h.1,
      native_of_not_reaches (Bool.eq_false_iff.mpr hreach)]
    rfl

end Call

end GoBackend
end AioVpn
