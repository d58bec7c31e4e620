import AioVpn.Backend.EndpointLines
import AioVpn.Backend.FailedSwitch

/-!
# When a bring-up goes through

A bring-up meets the system at eight places and stops at the first that fails.  `goesThrough`
lists them: the permission, the service, the lookups of the endpoints, the builder, `establish`
and the three calls of the Go library.  `isOk_setStateInternalUp` says that nothing else
matters, as long as nothing runs when the bring-up starts.

## The second bring-up of a switch

After a failed switch the former tunnel is brought up again, from the state in which the attempt
stopped.  Two things of that state differ from the state before the call: the service may have
been started by the attempt (`isSome_vpnService_up`), and the endpoint objects of the new
configuration have been used.  The objects of the former configuration are others, so that its
lookups do not notice (`dnsRetry_congr`).  `running_of_not_rollsBack` puts this together: when
the attempt fails at one of its steps and the second bring-up at one of its own, nothing runs
after the call.
-/

namespace AioVpn

/-! ## What the calls for the peers keep -/

namespace Endpoints

section Kept

variable {net : NetApi} {env : DnsEnv} {serial : ℕ} {peers : List AioVpn.Peer}
  {I : Resolver → Prop}

theorem dnsRetry_invariant (hI : KeptByCalls net env serial peers I) (n : ℕ) {r : Resolver}
    (hr : I r) : I (dnsRetry net env serial peers n r).2 := by
  cases n with
  | zero => exact hr
  | succ n =>
    obtain ⟨k, -, hstate, -⟩ := dnsRetry_cases net env serial peers n r
    rw [hstate]
    exact afterPasses_invariant hI (k + 1) hr

theorem peersString_invariant (hI : KeptByCalls net env serial peers I) {i : ℕ}
    {rest : List AioVpn.Peer} (hrest : peers.drop i = rest) {r : Resolver} (hr : I r) :
    I (peersString net env serial i rest r).2 := by
  induction rest generalizing i r with
  | nil => exact hr
  | cons peer rest ih =>
    obtain ⟨hpeer, hnext⟩ := getElem?_of_drop hrest
    rw [peersString]
    cases hep : peer.endpoint with
    | none => exact ih hnext hr
    | some ep => exact ih hnext (hI i peer ep r hpeer hep hr)

theorem toWgUserspaceString_invariant {c : Config} (hI : KeptByCalls net env serial c.peers I)
    {r : Resolver} (hr : I r) : I (toWgUserspaceString net env serial c r).2 :=
  peersString_invariant hI List.drop_zero hr

end Kept

/-! ## Lookups of the objects of one configuration -/

section Congr

/-- The two resolvers have made as many calls, and the objects of the configuration hold the
same. -/
def SameObjects (serial : ℕ) (r r' : Resolver) : Prop :=
  r'.calls = r.calls ∧ ∀ i, r'.cache (serial, i) = r.cache (serial, i)

variable (net : NetApi) (env : DnsEnv) {serial : ℕ} {r r' : Resolver}

theorem getResolved_congr (h : SameObjects serial r r') (i : ℕ) (ep : InetEndpoint) :
    (getResolved net env (serial, i) ep r').1 = (getResolved net env (serial, i) ep r).1 ∧
      SameObjects serial (getResolved net env (serial, i) ep r).2
        (getResolved net env (serial, i) ep r').2 := by
  obtain ⟨hcalls, hcache⟩ := h
  rw [getResolved, getResolved]
  split
  · exact ⟨rfl, congrArg (· + 1) hcalls, hcache⟩
  · dsimp only
    rw [hcalls, hcache i]
    refine ⟨rfl, rfl, fun j => ?_⟩
    dsimp only
    rw [Function.update_apply, Function.update_apply, hcache j]

theorem resolvePass_congr (h : SameObjects serial r r') (i : ℕ) (peers : List AioVpn.Peer) :
    (resolvePass net env serial i peers r').1 = (resolvePass net env serial i peers r).1 ∧
      SameObjects serial (resolvePass net env serial i peers r).2
        (resolvePass net env serial i peers r').2 := by
  induction peers generalizing i r r' with
  | nil => exact ⟨rfl, h⟩
  | cons peer peers ih =>
    rw [resolvePass, resolvePass]
    cases peer.endpoint with
    | none => exact ih h (i + 1)
    | some ep =>
      obtain ⟨hanswer, hsame⟩ := getResolved_congr net env h i ep
      dsimp only
      cases hcall : getResolved net env (serial, i) ep r with
      | mk answer r₁ =>
        cases hcall' : getResolved net env (serial, i) ep r' with
        | mk answer' r₁' =>
          rw [hcall, hcall'] at hanswer hsame
          obtain rfl : answer' = answer := hanswer
          cases answer' with
          | none => exact ⟨rfl, hsame⟩
          | some ep' => exact ih hsame (i + 1)

/-- **The loop looks at the objects of its configuration only.** -/
theorem dnsRetry_congr (h : SameObjects serial r r') (peers : List AioVpn.Peer) (passes : ℕ) :
    (dnsRetry net env serial peers passes r').1 = (dnsRetry net env serial peers passes r).1 := by
  induction passes generalizing r r' with
  | zero => rfl
  | succ passes ih =>
    obtain ⟨hfailed, hsame⟩ := resolvePass_congr net env h 0 peers
    rw [dnsRetry, dnsRetry]
    cases hpass : resolvePass net env serial 0 peers r with
    | mk failed r₁ =>
      cases hpass' : resolvePass net env serial 0 peers r' with
      | mk failed' r₁' =>
        rw [hpass, hpass'] at hfailed hsame
        obtain rfl : failed' = failed := hfailed
        cases failed' with
        | none => rfl
        | some host =>
          dsimp only
          split
          · rfl
          · exact ih hsame

/-- A call for one configuration leaves the objects of another alone. -/
theorem keptByCalls_other {serial' : ℕ} (hne : serial' ≠ serial) (peers : List AioVpn.Peer)
    (cache : ℕ × ℕ → EndpointCache) :
    KeptByCalls net env serial peers fun r => ∀ i, r.cache (serial', i) = cache (serial', i) := by
  intro i peer ep r _ _ hr j
  rw [cache_getResolved_of_ne fun h => hne (Prod.mk.inj h).1]
  exact hr j

end Congr

end Endpoints

namespace Native

/-- **`wgTurnOn` on an empty table** gives a handle if its three calls succeed. -/
theorem wgTurnOn_nonneg_iff {n : Native} (htable : n.tunnelHandles = []) (env : NativeEnv)
    (tun : VpnBuilder) (settings : JString) :
    0 ≤ (wgTurnOn env tun settings n).1 ↔ (env.createTun && env.ipcSet && env.up) = true := by
  have hfree : firstFree [] maxInt32 0 = some 0 := by
    rw [show maxInt32 = 2147483646 + 1 from rfl, firstFree]
    simp
  rw [wgTurnOn]
  cases env.createTun with
  | false => simp
  | true =>
    cases env.ipcSet with
    | false => simp
    | true =>
      cases env.up with
      | false => simp
      | true => simp [htable, hfree]

end Native

namespace GoBackend

open Endpoints

variable {L : Type} (net : NetApi) (packageName : JString) (notify : Tunnel → TunnelState → L → L)

/-! ## The steps of a bring-up -/

/-- A service that was not there is started and arrives in time. -/
def serviceArrives (env : BringUpEnv) : Bool := (startVpnService env).isOk && env.serviceCreated

/-- The endpoints are resolved within the passes of the loop, from what their objects hold. -/
def resolves (env : BringUpEnv) (config : ConfigRef) (endpoints : ℕ × ℕ → EndpointCache) : Bool :=
  (dnsRetry net env.dns config.serial config.config.peers dnsResolutionRetries
    ⟨0, endpoints⟩).1.isOk

/-- Every step of a bring-up succeeds; `service` says that there is an instance of the service
when it starts. -/
def goesThrough (env : BringUpEnv) (tunnel : Tunnel) (config : ConfigRef) (service : Bool)
    (endpoints : ℕ × ℕ → EndpointCache) : Bool :=
  !env.prepareIntent && (service || serviceArrives env) && resolves net env config endpoints &&
    (configureBuilder env.device packageName tunnel config.config).isOk &&
    env.establish = .tun && (env.native.createTun && env.native.ipcSet && env.native.up)

section Steps

variable {net packageName notify} {env : BringUpEnv} {tunnel : Tunnel} {config : ConfigRef}
  {s : GoState L}

theorem isOk_acquireService :
    (acquireService env s).1.isOk = (s.vpnService.isSome || serviceArrives env) := by
  rw [acquireService, serviceArrives]
  cases s.vpnService with
  | some service => rfl
  | none =>
    cases startVpnService env with
    | error e => rfl
    | ok u =>
      cases env.serviceCreated with
      | true => rfl
      | false => rfl

theorem isOk_arrange :
    (arrange net packageName env tunnel config s).1.isOk =
      (resolves net env config s.endpoints &&
        (configureBuilder env.device packageName tunnel config.config).isOk) := by
  rw [arrange, resolves]
  cases dnsRetry net env.dns config.serial config.config.peers dnsResolutionRetries
      ⟨0, s.endpoints⟩ with
  | mk result r =>
    cases result with
    | error e => rfl
    | ok u =>
      dsimp only
      cases configureBuilder env.device packageName tunnel config.config with
      | error e => rfl
      | ok builder => rfl

theorem isOk_activate (htable : s.native.tunnelHandles = []) (builder : VpnBuilder)
    (goConfig : JString) :
    (activate notify env tunnel config builder goConfig s).1.isOk =
      (env.establish = .tun && (env.native.createTun && env.native.ipcSet && env.native.up)) := by
  rw [activate]
  cases env.establish with
  | null => rfl
  | illegalState => rfl
  | tun =>
    have hiff := Native.wgTurnOn_nonneg_iff htable env.native builder goConfig
    dsimp only
    split
    · rename_i hneg
      rw [Bool.eq_false_iff.mpr (hiff.not.mp (by omega))]
      rfl
    · rename_i hpos
      rw [hiff.mp (by omega)]
      rfl

/-- A bring-up that stops before the lookups has thrown. -/
theorem isOk_of_not_reaches (hhandle : s.currentTunnelHandle = -1)
    (h : reachesDnsRetry env s = false) :
    (setStateInternalUp net packageName notify env tunnel (some config) s).1.isOk = false := by
  rw [setStateInternalUp]
  dsimp only
  split
  · rfl
  · rename_i hprepare
    cases hacquire : acquireService env s with
    | mk result s' =>
      cases result with
      | error e => rfl
      | ok service =>
        have hreach : reachesDnsRetry env s = true := by
          rw [reachesDnsRetry, hacquire, Bool.eq_false_iff.mpr hprepare, hhandle]
          rfl
        exact absurd (hreach.symm.trans h) (by simp)

/-- **When a bring-up succeeds**, started with nothing running. -/
theorem isOk_setStateInternalUp (hclear : Clear s) :
    (setStateInternalUp net packageName notify env tunnel (some config) s).1.isOk =
      goesThrough net packageName env tunnel config s.vpnService.isSome s.endpoints := by
  have hreaches : reachesDnsRetry env s =
      (!env.prepareIntent && (s.vpnService.isSome || serviceArrives env)) := by
    rw [reachesDnsRetry, isOk_acquireService, hclear.handle, decide_eq_true (rfl : (-1 : ℤ) = -1),
      Bool.and_true]
  rw [goesThrough, ← hreaches, Bool.and_assoc (reachesDnsRetry env s)]
  cases hreach : reachesDnsRetry env s with
  | false => rw [isOk_of_not_reaches hclear.handle hreach, Bool.false_and, Bool.false_and,
      Bool.false_and]
  | true =>
    obtain ⟨s', hendpoints, hnative, herror, hok⟩ := setStateInternalUp_of_reaches hreach
    rw [Bool.true_and, ← hendpoints, ← isOk_arrange (s := s')]
    cases harrange : (arrange net packageName env tunnel config s').1 with
    | error e =>
      rw [herror e harrange]
      rfl
    | ok call =>
      have htable : (arrange net packageName env tunnel config s').2.native.tunnelHandles = [] := by
        rw [(arrange_congr rfl).2.2, hnative, hclear.table]
      rw [hok call harrange, isOk_activate htable, Bool.and_assoc]
      rfl

/-! ## What a bring-up leaves behind -/

/-- A bring-up that throws leaves nothing running. -/
theorem running_of_not_isOk {config : Option ConfigRef} (hclear : Clear s)
    (h : (setStateInternalUp net packageName notify env tunnel config s).1.isOk = false) :
    running (setStateInternalUp net packageName notify env tunnel config s).2 = none := by
  have hspec := setStateInternalUp_spec net packageName notify env tunnel hclear.handle
    hclear.table config
  generalize setStateInternalUp net packageName notify env tunnel config s = x at hspec h ⊢
  cases hspec with
  | failed e _ _ _ =>
    rw [running]
    dsimp only [refit]
    rw [hclear.tunnel]
  | up _ _ _ _ _ _ _ => exact absurd h (by simp [Except.isOk, Except.toBool])

theorem vpnService_activate (builder : VpnBuilder) (goConfig : JString) :
    (activate notify env tunnel config builder goConfig s).2.vpnService = s.vpnService := by
  rw [activate]
  cases env.establish with
  | null => rfl
  | illegalState => rfl
  | tun =>
    dsimp only
    split <;> rfl

theorem endpoints_activate (builder : VpnBuilder) (goConfig : JString) :
    (activate notify env tunnel config builder goConfig s).2.endpoints = s.endpoints := by
  rw [activate]
  cases env.establish with
  | null => rfl
  | illegalState => rfl
  | tun =>
    dsimp only
    split <;> rfl

theorem isSome_vpnService_acquireService :
    (acquireService env s).2.vpnService.isSome = (s.vpnService.isSome || serviceArrives env) := by
  rw [acquireService, serviceArrives]
  cases hv : s.vpnService with
  | some service => exact congrArg Option.isSome hv
  | none =>
    cases startVpnService env with
    | error e => exact congrArg Option.isSome hv
    | ok u =>
      cases env.serviceCreated with
      | true => rfl
      | false => exact congrArg Option.isSome hv

/-- **The service after a bring-up**: the one before it, or the one it has started. -/
theorem isSome_vpnService_up :
    (setStateInternalUp net packageName notify env tunnel (some config) s).2.vpnService.isSome =
      (s.vpnService.isSome || (!env.prepareIntent && serviceArrives env)) := by
  have hacquired : (acquireService env s).2.vpnService.isSome = _ :=
    isSome_vpnService_acquireService
  rw [setStateInternalUp]
  dsimp only
  cases env.prepareIntent with
  | true => simp
  | false =>
    rw [if_neg (by simp), Bool.not_false, Bool.true_and, ← hacquired]
    cases acquireService env s with
    | mk result s' =>
      cases result with
      | error e => rfl
      | ok service =>
        dsimp only
        split
        · rfl
        · obtain ⟨ep, hstate, -⟩ := arrange_spec net packageName env tunnel config
            (setOwner service s')
          cases harrange : arrange net packageName env tunnel config (setOwner service s') with
          | mk result s₁ =>
            rw [harrange] at hstate
            obtain rfl : s₁ = _ := hstate
            cases result with
            | error e => rfl
            | ok call =>
              dsimp only
              rw [vpnService_activate]
              rfl

/-- **The endpoint objects after a bring-up**, wherever it stops: what the calls for its peers
keep has been kept. -/
theorem endpoints_arrange {I : (ℕ × ℕ → EndpointCache) → Prop}
    (hI : KeptByCalls net env.dns config.serial config.config.peers fun r => I r.cache)
    (hs : I s.endpoints) : I (arrange net packageName env tunnel config s).2.endpoints := by
  have hretry := dnsRetry_invariant hI dnsResolutionRetries (r := ⟨0, s.endpoints⟩) hs
  rw [arrange]
  cases hdns : dnsRetry net env.dns config.serial config.config.peers dnsResolutionRetries
      ⟨0, s.endpoints⟩ with
  | mk result r =>
    rw [hdns] at hretry
    cases result with
    | error e => exact hretry
    | ok u =>
      have hprinted := toWgUserspaceString_invariant hI hretry
      dsimp only
      cases configureBuilder env.device packageName tunnel config.config with
      | error e => exact hprinted
      | ok builder => exact hprinted

theorem endpoints_setStateInternalUp {I : (ℕ × ℕ → EndpointCache) → Prop}
    {config : Option ConfigRef}
    (hI : ∀ c ∈ config, KeptByCalls net env.dns c.serial c.config.peers fun r => I r.cache)
    (hs : I s.endpoints) :
    I (setStateInternalUp net packageName notify env tunnel config s).2.endpoints := by
  cases config with
  | none => exact hs
  | some c =>
    obtain ⟨v, k, hservice, -⟩ := acquireService_spec env s
    rw [setStateInternalUp]
    dsimp only
    split
    · exact hs
    · cases hacquire : acquireService env s with
      | mk result s' =>
        rw [hacquire] at hservice
        obtain rfl : s' = _ := hservice
        cases result with
        | error e => exact hs
        | ok service =>
          dsimp only
          split
          · exact hs
          · have harranged : I (arrange net packageName env tunnel c
                (setOwner service (refit s v k s.owned s.endpoints))).2.endpoints :=
              endpoints_arrange (hI c rfl) hs
            cases harrange : arrange net packageName env tunnel c
                (setOwner service (refit s v k s.owned s.endpoints)) with
            | mk result s₁ =>
              rw [harrange] at harranged
              cases result with
              | error e => exact harranged
              | ok call =>
                dsimp only
                rw [endpoints_activate]
                exact harranged

end Steps

/-! ## The second bring-up of a switch -/

/-- A switch away from what runs fails at one of its steps, and every step of bringing the former
tunnel back succeeds. -/
def rollsBack (env : SetStateEnv) (tunnel : Tunnel) (config : Option ConfigRef)
    (s : GoState L) : Bool :=
  match s.currentTunnel, s.currentConfig with
  | some original, some originalConfig =>
      !(config.any fun c =>
          goesThrough net packageName env.up tunnel c s.vpnService.isSome s.endpoints) &&
        goesThrough net packageName env.rollback original originalConfig
          (s.vpnService.isSome || (config.isSome && !env.up.prepareIntent && serviceArrives env.up))
          s.endpoints
  | _, _ => false

section Switch

variable {net packageName notify} {env : SetStateEnv} {tunnel : Tunnel}
  {config : Option ConfigRef} {s s' : GoState L} {e : Exn}

/-- What is taken down keeps its service and the endpoint objects. -/
theorem takenDown_keeps {t : Tunnel} {c : ConfigRef} (hrun : RunningWith t c s) :
    (takenDown notify s).vpnService = s.vpnService ∧
      (takenDown notify s).endpoints = s.endpoints := by
  obtain ⟨n, hdown, -⟩ := setStateInternalDown_spec notify t hrun
  rw [takenDown_of_running notify hrun, hdown]
  exact ⟨rfl, rfl⟩

/-- A switch that throws has failed at its first bring-up. -/
theorem isOk_attempt_of_error
    (h : switchTo net packageName notify env tunnel config s = (.error e, s')) :
    (attempt net packageName notify env tunnel config s).1.isOk = false := by
  rw [attempt]
  unfold switchTo takenDown at *
  dsimp only at h
  generalize setStateInternalUp net packageName notify env.up tunnel config _ = x at h ⊢
  obtain ⟨result, s₁⟩ := x
  cases result with
  | error e₁ => rfl
  | ok u => exact absurd (Prod.mk.inj h).1 (by simp)

/-- The objects of a configuration that is not the new one are not used by the attempt. -/
theorem sameObjects_attempt {t : Tunnel} {c : ConfigRef} (hrun : RunningWith t c s)
    (hfresh : ∀ c' ∈ config, c.serial ≠ c'.serial) :
    SameObjects c.serial ⟨0, s.endpoints⟩
      ⟨0, (attempt net packageName notify env tunnel config s).2.endpoints⟩ := by
  refine ⟨rfl, ?_⟩
  refine endpoints_setStateInternalUp
    (I := fun cache => ∀ i, cache (c.serial, i) = s.endpoints (c.serial, i)) (fun c' hc' => ?_) ?_
  · exact keptByCalls_other net env.up.dns (hfresh c' hc') c'.config.peers s.endpoints
  · intro i
    rw [(takenDown_keeps hrun).2]

theorem isSome_vpnService_attempt {t : Tunnel} {c : ConfigRef} (hrun : RunningWith t c s) :
    (attempt net packageName notify env tunnel config s).2.vpnService.isSome =
      (s.vpnService.isSome ||
        (config.isSome && !env.up.prepareIntent && serviceArrives env.up)) := by
  rw [attempt]
  cases config with
  | none =>
    rw [setStateInternalUp]
    dsimp only
    rw [(takenDown_keeps hrun).1]
    simp
  | some c' =>
    rw [isSome_vpnService_up, (takenDown_keeps hrun).1]
    rfl

/-- **When nothing runs after a call that throws**: nothing ran before it, or the first bring-up
or the second fails at one of its steps.  The new configuration is another object than the one
that runs. -/
theorem running_of_not_rollsBack (hinv : Inv s)
    (hfresh : ∀ t c, RunningWith t c s → ∀ c' ∈ config, c.serial ≠ c'.serial)
    (hno : rollsBack net packageName env tunnel config s = false)
    (h : setState net packageName notify env tunnel .up config s = (.error e, s')) :
    running s' = none := by
  have hswitch : switchTo net packageName notify env tunnel config s = (.error e, s') :=
    switchTo_of_setState_error net packageName notify h
  obtain ⟨hclear, hend⟩ := switchTo_of_error net packageName notify env tunnel config hinv hswitch
  rcases hend with ⟨-, rfl⟩ | ⟨t, c, hrun, rfl, -⟩
  · exact hclear.running
  · -- the steps of the attempt, read in the state before the call
    have hattempt : (config.any fun c =>
        goesThrough net packageName env.up tunnel c s.vpnService.isSome s.endpoints) = false := by
      have hfailed := isOk_attempt_of_error hswitch
      cases config with
      | none => rfl
      | some c' =>
        have htaken : Clear (takenDown notify s) := by
          rw [takenDown_of_running notify hrun]
          exact (down_refines notify hinv hrun).1
        rw [attempt, isOk_setStateInternalUp htaken, (takenDown_keeps hrun).1,
          (takenDown_keeps hrun).2] at hfailed
        exact hfailed
    -- and those of the second bring-up
    have hsteps : goesThrough net packageName env.rollback t c
        (s.vpnService.isSome || (config.isSome && !env.up.prepareIntent && serviceArrives env.up))
        s.endpoints = false := by
      rw [rollsBack, hrun.tunnel, hrun.config] at hno
      simpa [hattempt] using hno
    refine running_of_not_isOk hclear ?_
    rw [isOk_setStateInternalUp hclear, isSome_vpnService_attempt hrun, goesThrough, resolves,
      dnsRetry_congr net env.rollback.dns (sameObjects_attempt hrun (hfresh t c hrun))]
    exact hsteps

end Switch

end GoBackend
end AioVpn
