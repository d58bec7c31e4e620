import AioVpn.Backend.GoBackendSpec
import AioVpn.Backend.UserspaceString

/-!
# Peers without their endpoint

`setStateInternal` resolves the endpoints of all peers before it builds the settings for the Go
library, and the settings are built by resolving each of them once more.  An endpoint whose last
lookup is two minutes old by then is looked up again, and when that fails the old answer is
forgotten and the peer is printed without its endpoint.

`resolutions_answer_iff` says when every endpoint is printed, `dnsRetry_cases` how the loop before
it ends.  `no_peer_without_endpoint_iff` puts them together: the property that every endpoint is
in the settings, or the run has failed after ten passes, holds of exactly the runs in which each
endpoint is still fresh when it is used or is found again.
-/

namespace AioVpn
namespace Endpoints

/-! ## One call -/

section Call

variable {net : NetApi} {env : DnsEnv} {ref : ℕ × ℕ} {ep : InetEndpoint} {r : Resolver}

theorem calls_getResolved : (getResolved net env ref ep r).2.calls = r.calls + 1 := by
  rw [getResolved]
  split <;> rfl

theorem cache_getResolved_of_ne {ref' : ℕ × ℕ} (h : ref' ≠ ref) :
    (getResolved net env ref ep r).2.cache ref' = r.cache ref' := by
  rw [getResolved]
  split
  · rfl
  · exact Function.update_of_ne h _ _

/-- The entry of an endpoint that is not numeric holds what was answered. -/
theorem resolved_getResolved (hep : ep.isResolved = false) :
    ((getResolved net env ref ep r).2.cache ref).resolved = (getResolved net env ref ep r).1 := by
  rw [getResolved, if_neg (by simp [hep])]
  dsimp only
  rw [Function.update_self]

/-- The `n`-th call answers, for an endpoint with this entry. -/
def Answers (env : DnsEnv) (n : ℕ) (ep : InetEndpoint) (entry : EndpointCache) : Prop :=
  ep.isResolved = true ∨
    if (env.now n - entry.lastResolution) / 60 > 1 then (env.getAllByName n ep.host).isSome = true
    else entry.resolved.isSome = true

theorem getResolved_isSome_iff :
    (getResolved net env ref ep r).1.isSome = true ↔ Answers env r.calls ep (r.cache ref) := by
  rw [getResolved, Answers]
  by_cases hep : ep.isResolved = true
  · rw [if_pos hep]
    exact iff_of_true rfl (Or.inl hep)
  · rw [if_neg hep, or_iff_right hep]
    dsimp only
    split
    · cases env.getAllByName r.calls ep.host with
      | none => exact Iff.rfl
      | some candidates => exact Iff.rfl
    · exact Iff.rfl

end Call

/-! ## The passes -/

section Pass

variable {net : NetApi} {env : DnsEnv} {serial : ℕ} {peers : List AioVpn.Peer}
  {I : Resolver → Prop}

/-- The calls made for the peers keep a property. -/
def KeptByCalls (net : NetApi) (env : DnsEnv) (serial : ℕ) (peers : List AioVpn.Peer)
    (I : Resolver → Prop) : Prop :=
  ∀ i peer ep r, peers[i]? = some peer → peer.endpoint = some ep → I r →
    I (getResolved net env (serial, i) ep r).2

variable (net env serial) in
/-- **One peer of a pass**: it has no endpoint, or its endpoint is answered, or the pass ends. -/
theorem resolvePass_cons (i : ℕ) (peer : AioVpn.Peer) (rest : List AioVpn.Peer) (r : Resolver) :
    (peer.endpoint = none ∧ resolvePass net env serial i (peer :: rest) r =
        resolvePass net env serial (i + 1) rest r) ∨
      ∃ ep, peer.endpoint = some ep ∧
        ((getResolved net env (serial, i) ep r).1.isSome = true ∧
            resolvePass net env serial i (peer :: rest) r =
              resolvePass net env serial (i + 1) rest (getResolved net env (serial, i) ep r).2 ∨
          resolvePass net env serial i (peer :: rest) r =
            (some ep.host, (getResolved net env (serial, i) ep r).2)) := by
  rw [resolvePass]
  cases peer.endpoint with
  | none => exact Or.inl ⟨rfl, rfl⟩
  | some ep =>
    refine Or.inr ⟨ep, rfl, ?_⟩
    dsimp only
    cases getResolved net env (serial, i) ep r with
    | mk answer r' =>
      cases answer with
      | some ep' => exact Or.inl ⟨rfl, rfl⟩
      | none => exact Or.inr rfl

theorem resolvePass_invariant (hI : KeptByCalls net env serial peers I) {i : ℕ}
    {rest : List AioVpn.Peer} (hrest : peers.drop i = rest) {r : Resolver} (hr : I r) :
    I (resolvePass net env serial i rest r).2 := by
  induction rest generalizing i r with
  | nil => exact hr
  | cons peer rest ih =>
    obtain ⟨hpeer, hnext⟩ := getElem?_of_drop hrest
    rcases resolvePass_cons net env serial i peer rest r with
      ⟨-, h⟩ | ⟨ep, hep, ⟨-, h⟩ | h⟩ <;> rw [h]
    · exact ih hnext hr
    · exact ih hnext (hI i peer ep r hpeer hep hr)
    · exact hI i peer ep r hpeer hep hr

theorem cache_resolvePass_of_lt {i j : ℕ} (hj : j < i) {rest : List AioVpn.Peer} {r : Resolver} :
    (resolvePass net env serial i rest r).2.cache (serial, j) = r.cache (serial, j) := by
  induction rest generalizing i r with
  | nil => rfl
  | cons peer rest ih =>
    have hcall : ∀ ep, (getResolved net env (serial, i) ep r).2.cache (serial, j) =
        r.cache (serial, j) := fun ep =>
      cache_getResolved_of_ne fun h => absurd (Prod.mk.inj h).2 (by omega)
    rcases resolvePass_cons net env serial i peer rest r with
      ⟨-, h⟩ | ⟨ep, -, ⟨-, h⟩ | h⟩ <;> rw [h]
    · exact ih (by omega)
    · exact (ih (by omega)).trans (hcall ep)
    · exact hcall ep

/-- **A pass that succeeds** has asked for every endpoint and was answered; what it holds for the
endpoint is what that call left. -/
theorem of_resolvePass_eq_none (hI : KeptByCalls net env serial peers I) {i : ℕ}
    {rest : List AioVpn.Peer} (hrest : peers.drop i = rest) {r : Resolver} (hr : I r)
    (hpass : (resolvePass net env serial i rest r).1 = none) {k : ℕ} {peer : AioVpn.Peer}
    {ep : InetEndpoint} (hpeer : rest[k]? = some peer) (hep : peer.endpoint = some ep) :
    ∃ r', I r' ∧ (getResolved net env (serial, i + k) ep r').1.isSome = true ∧
      (resolvePass net env serial i rest r).2.cache (serial, i + k) =
        (getResolved net env (serial, i + k) ep r').2.cache (serial, i + k) := by
  induction rest generalizing i r k with
  | nil => exact absurd hpeer (by simp)
  | cons first rest ih =>
    obtain ⟨hfirst, hnext⟩ := getElem?_of_drop hrest
    have hshift : ∀ k, i + (k + 1) = i + 1 + k := by omega
    rcases resolvePass_cons net env serial i first rest r with
      ⟨hep₁, h⟩ | ⟨ep₁, hep₁, ⟨hanswer, h⟩ | h⟩ <;> rw [h] at hpass ⊢
    · cases k with
      | zero =>
        obtain rfl := Option.some.inj hpeer
        exact absurd (hep.symm.trans hep₁) (by simp)
      | succ k =>
        rw [hshift]
        exact ih hnext hr hpass hpeer
    · cases k with
      | zero =>
        obtain rfl := Option.some.inj hpeer
        obtain rfl := Option.some.inj (hep.symm.trans hep₁)
        exact ⟨r, hr, hanswer, cache_resolvePass_of_lt (Nat.lt_succ_self i)⟩
      | succ k =>
        rw [hshift]
        exact ih hnext (hI i first ep₁ r hfirst hep₁ hr) hpass hpeer
    · exact absurd hpass (by simp)

/-- The resolver after some passes. -/
def afterPasses (net : NetApi) (env : DnsEnv) (serial : ℕ) (peers : List AioVpn.Peer) (k : ℕ)
    (r : Resolver) : Resolver :=
  (fun r => (resolvePass net env serial 0 peers r).2)^[k] r

variable (net env serial peers) in
/-- **How the loop ends**: with the first pass that succeeds, or with the failure of the last
one. -/
theorem dnsRetry_cases (n : ℕ) (r : Resolver) :
    ∃ k ≤ n, (dnsRetry net env serial peers (n + 1) r).2 =
        afterPasses net env serial peers (k + 1) r ∧
      ((dnsRetry net env serial peers (n + 1) r).1 = .ok () ∧
          (resolvePass net env serial 0 peers (afterPasses net env serial peers k r)).1 = none ∨
        k = n ∧ ∃ host, (dnsRetry net env serial peers (n + 1) r).1 =
          .error (.backend (.dnsResolutionFailure host))) := by
  induction n generalizing r with
  | zero =>
    refine ⟨0, le_refl 0, ?_⟩
    rw [dnsRetry, afterPasses, afterPasses, Function.iterate_one, Function.iterate_zero, id]
    cases hpass : resolvePass net env serial 0 peers r with
    | mk failed r' =>
      cases failed with
      | none => exact ⟨rfl, Or.inl ⟨rfl, rfl⟩⟩
      | some host => exact ⟨rfl, Or.inr ⟨rfl, host, rfl⟩⟩
  | succ n ih =>
    rw [dnsRetry]
    cases hpass : resolvePass net env serial 0 peers r with
    | mk failed r' =>
      cases failed with
      | none =>
        refine ⟨0, Nat.zero_le _, ?_⟩
        rw [afterPasses, afterPasses, Function.iterate_one, Function.iterate_zero, id, hpass]
        exact ⟨rfl, Or.inl ⟨rfl, rfl⟩⟩
      | some host =>
        obtain ⟨k, hk, hstate, hend⟩ := ih r'
        refine ⟨k + 1, Nat.succ_le_succ hk, ?_⟩
        dsimp only
        rw [if_neg (Nat.succ_ne_zero n), afterPasses, afterPasses, Function.iterate_succ_apply _ k,
          Function.iterate_succ_apply, hpass]
        refine ⟨hstate, ?_⟩
        rcases hend with hok | ⟨rfl, herror⟩
        · exact Or.inl hok
        · exact Or.inr ⟨rfl, herror⟩

theorem afterPasses_invariant (hI : KeptByCalls net env serial peers I) (k : ℕ) {r : Resolver}
    (hr : I r) : I (afterPasses net env serial peers k r) := by
  induction k with
  | zero => exact hr
  | succ k ih =>
    rw [afterPasses, Function.iterate_succ_apply']
    exact resolvePass_invariant hI List.drop_zero ih

end Pass

/-! ## Endpoints that cannot be resolved -/

/-- Every lookup of the endpoint fails, and what its object holds is nothing or too old. -/
def IsDead (env : DnsEnv) (ep : InetEndpoint) (entry : EndpointCache) : Prop :=
  ep.isResolved = false ∧ (∀ n, env.getAllByName n ep.host = none) ∧
    (entry.resolved = none ∨ ∀ n, (env.now n - entry.lastResolution) / 60 > 1)

/-- Some endpoint of the peers cannot be resolved. -/
def Unresolvable (env : DnsEnv) (serial : ℕ) (peers : List AioVpn.Peer) (r : Resolver) : Prop :=
  ∃ i peer ep, peers[i]? = some peer ∧ peer.endpoint = some ep ∧
    IsDead env ep (r.cache (serial, i))

section Dead

variable {net : NetApi} {env : DnsEnv} {serial : ℕ} {peers : List AioVpn.Peer}

theorem IsDead.not_answers {ep : InetEndpoint} {entry : EndpointCache} (h : IsDead env ep entry)
    (n : ℕ) : ¬ Answers env n ep entry := by
  obtain ⟨hep, hlookup, hentry⟩ := h
  rintro (hres | hanswer)
  · exact absurd (hres.symm.trans hep) (by simp)
  · rcases hentry with hnone | hold
    · split at hanswer
      · exact absurd hanswer (by simp [hlookup])
      · exact absurd hanswer (by simp [hnone])
    · rw [if_pos (hold n)] at hanswer
      exact absurd hanswer (by simp [hlookup])

/-- A call leaves it as it is. -/
theorem IsDead.keptByCalls {i : ℕ} {peer : AioVpn.Peer} {ep : InetEndpoint}
    (hpeer : peers[i]? = some peer) (hep : peer.endpoint = some ep) :
    KeptByCalls net env serial peers fun r => IsDead env ep (r.cache (serial, i)) := by
  intro j peer' ep' r hpeer' hep' hr
  by_cases hij : j = i
  · subst hij
    obtain rfl := Option.some.inj (hpeer.symm.trans hpeer')
    obtain rfl := Option.some.inj (hep.symm.trans hep')
    refine ⟨hr.1, hr.2.1, Or.inl ?_⟩
    rw [resolved_getResolved hr.1, ← Option.not_isSome_iff_eq_none, getResolved_isSome_iff]
    exact hr.not_answers r.calls
  · rw [cache_getResolved_of_ne fun h => hij (Prod.mk.inj h).2.symm]
    exact hr

/-- **With an endpoint that cannot be resolved** the loop fails after its passes. -/
theorem dnsRetry_of_unresolvable (net : NetApi) {r : Resolver}
    (h : Unresolvable env serial peers r) (n : ℕ) :
    ∃ host, (dnsRetry net env serial peers (n + 1) r).1 =
        .error (.backend (.dnsResolutionFailure host)) ∧
      (dnsRetry net env serial peers (n + 1) r).2 =
        afterPasses net env serial peers (n + 1) r := by
  obtain ⟨i, peer, ep, hpeer, hep, hdead⟩ := h
  have hkept : KeptByCalls net env serial peers _ := IsDead.keptByCalls hpeer hep
  obtain ⟨k, -, hstate, ⟨-, hpass⟩ | ⟨rfl, host, herror⟩⟩ := dnsRetry_cases net env serial peers n r
  · obtain ⟨r', hr', hanswer, -⟩ := of_resolvePass_eq_none hkept List.drop_zero
      (afterPasses_invariant hkept k hdead) hpass hpeer hep
    rw [Nat.zero_add] at hanswer
    exact absurd (getResolved_isSome_iff.mp hanswer) (hr'.not_answers _)
  · exact ⟨host, herror, hstate⟩

end Dead

/-! ## Using the endpoints -/

/-- The number of endpoints before the `i`-th peer. -/
def endpointsBefore (peers : List AioVpn.Peer) (i : ℕ) : ℕ :=
  (peers.take i).countP fun peer => peer.endpoint.isSome

/-- When each endpoint that is not numeric is used, its last lookup is less than two minutes old
or the lookup that is made then succeeds. -/
def FreshWhenUsed (env : DnsEnv) (serial : ℕ) (peers : List AioVpn.Peer) (r : Resolver) : Prop :=
  ∀ i peer ep, peers[i]? = some peer → peer.endpoint = some ep → ep.isResolved = false →
    (env.now (r.calls + endpointsBefore peers i) - (r.cache (serial, i)).lastResolution) / 60 ≤ 1 ∨
      (env.getAllByName (r.calls + endpointsBefore peers i) ep.host).isSome = true

section Use

variable {net : NetApi} {env : DnsEnv} {serial : ℕ}

/-- **When every endpoint is printed**, for the peers from the `i`-th on: the calls that are made
for the others in between are for other objects. -/
theorem resolutions_answer_iff (i : ℕ) (rest : List AioVpn.Peer) (r : Resolver) :
    (∀ x ∈ rest.zip (resolutions net env serial i rest r),
        x.1.endpoint.isSome = true → x.2.isSome = true) ↔
      ∀ k peer ep, rest[k]? = some peer → peer.endpoint = some ep →
        Answers env (r.calls + endpointsBefore rest k) ep (r.cache (serial, i + k)) := by
  induction rest generalizing i r with
  | nil => simp
  | cons first rest ih =>
    -- the first peer, and the others with the resolver that its call leaves
    have hsplit : ∀ P : ℕ → AioVpn.Peer → InetEndpoint → Prop,
        (∀ k peer ep, (first :: rest)[k]? = some peer → peer.endpoint = some ep → P k peer ep) ↔
          (∀ ep, first.endpoint = some ep → P 0 first ep) ∧
            ∀ k peer ep, rest[k]? = some peer → peer.endpoint = some ep → P (k + 1) peer ep := by
      intro P
      constructor
      · exact fun h => ⟨fun ep => h 0 first ep rfl, fun k => h (k + 1)⟩
      · rintro ⟨hfirst, hrest⟩ k peer ep hpeer hep
        cases k with
        | zero =>
          obtain rfl := Option.some.inj hpeer
          exact hfirst ep hep
        | succ k => exact hrest k peer ep hpeer hep
    rw [hsplit, resolutions]
    cases hep : first.endpoint with
    | none =>
      dsimp only
      rw [List.zip_cons_cons, List.forall_mem_cons, ih]
      have hbefore : ∀ k, endpointsBefore (first :: rest) (k + 1) = endpointsBefore rest k := by
        intro k
        rw [endpointsBefore, List.take_succ_cons, List.countP_cons_of_neg (by simp [hep]),
          endpointsBefore]
      simp only [hep, hbefore, Nat.add_right_comm i 1, Nat.add_assoc i]
      simp
    | some ep =>
      dsimp only
      rw [List.zip_cons_cons, List.forall_mem_cons, ih, calls_getResolved]
      have hbefore : ∀ k, endpointsBefore (first :: rest) (k + 1) =
          endpointsBefore rest k + 1 := by
        intro k
        rw [endpointsBefore, List.take_succ_cons, List.countP_cons_of_pos (by simp [hep]),
          endpointsBefore]
      have hcache : ∀ k, (getResolved net env (serial, i) ep r).2.cache (serial, i + 1 + k) =
          r.cache (serial, i + (k + 1)) := by
        intro k
        rw [Nat.add_right_comm i 1, Nat.add_assoc i]
        exact cache_getResolved_of_ne fun h => absurd (Prod.mk.inj h).2 (by omega)
      simp only [hep, hbefore, hcache, Option.isSome_some, forall_const, getResolved_isSome_iff,
        Option.some.injEq, forall_eq', Nat.add_zero, Nat.add_assoc r.calls, Nat.add_comm 1]
      rfl

/-- What the objects hold after a pass that succeeded. -/
theorem isSome_resolved_of_pass {peers : List AioVpn.Peer} {r : Resolver}
    (hpass : (resolvePass net env serial 0 peers r).1 = none) {i : ℕ} {peer : AioVpn.Peer}
    {ep : InetEndpoint} (hpeer : peers[i]? = some peer) (hep : peer.endpoint = some ep)
    (hres : ep.isResolved = false) :
    ((resolvePass net env serial 0 peers r).2.cache (serial, i)).resolved.isSome = true := by
  have hkept : KeptByCalls net env serial peers fun _ => True := fun _ _ _ _ _ _ _ => trivial
  obtain ⟨r', -, hanswer, hcache⟩ :=
    of_resolvePass_eq_none hkept List.drop_zero trivial hpass hpeer hep
  rw [Nat.zero_add] at hanswer hcache
  rw [hcache, resolved_getResolved hres]
  exact hanswer

/-- After a pass that succeeded, every endpoint is printed if all are fresh. -/
theorem allResolved_iff_freshWhenUsed {peers : List AioVpn.Peer} {r : Resolver}
    (hpass : (resolvePass net env serial 0 peers r).1 = none) :
    AllResolved net env serial peers (resolvePass net env serial 0 peers r).2 ↔
      FreshWhenUsed env serial peers (resolvePass net env serial 0 peers r).2 := by
  rw [AllResolved, resolutions_answer_iff, FreshWhenUsed]
  refine forall_congr' fun i => forall_congr' fun peer => forall_congr' fun ep =>
    forall_congr' fun hpeer => forall_congr' fun hep => ?_
  rw [Nat.zero_add, Answers]
  by_cases hres : ep.isResolved = true
  · exact iff_of_true (Or.inl hres) fun h => absurd (hres.symm.trans h) (by simp)
  · rw [Bool.not_eq_true] at hres
    have hsome := isSome_resolved_of_pass hpass hpeer hep hres
    rw [or_iff_right (by simp [hres]), forall_prop_of_true hres]
    split
    · rename_i hold
      rw [or_iff_right (not_le.mpr hold)]
    · rename_i hfresh
      exact iff_of_true hsome (Or.inl (not_lt.mp hfresh))

end Use

/-- Read with the rules of the cross-platform interface, the settings have an endpoint for every
peer that has one. -/
def HasEndpointLines (net : NetApi) (peers : List AioVpn.Peer) (goConfig : JString) : Prop :=
  ∃ device read, Uapi.read net goConfig = some (device, read) ∧
    List.Forall₂ (fun peer p => peer.endpoint.isSome = true → p.endpoint.isSome = true) peers read

theorem forall₂_zipWith {α β γ : Type} {R : α → γ → Prop} {f : α → β → γ} {l : List α}
    {m : List β} (hlen : l.length = m.length) :
    List.Forall₂ R l (List.zipWith f l m) ↔ ∀ x ∈ l.zip m, R x.1 (f x.1 x.2) := by
  induction l generalizing m with
  | nil => simp
  | cons a l ih =>
    cases m with
    | nil => exact absurd hlen (by simp)
    | cons b m =>
      rw [List.zipWith_cons_cons, List.forall₂_cons, List.zip_cons_cons, List.forall_mem_cons,
        ih (Nat.succ.inj hlen)]

theorem hasEndpointLines_iff {net : NetApi} (hnet : net.Documented) {text : JString} {c : Config}
    (hparse : Config.parse net text = .ok c) (env : DnsEnv) {serial : ℕ} {r : Resolver}
    (hr : Reached net serial c.peers r) :
    HasEndpointLines net c.peers (toWgUserspaceString net env serial c r).1 ↔
      AllResolved net env serial c.peers r := by
  have hlen := (hr.genuine.isAnswer env 0 List.drop_zero).length_eq
  rw [HasEndpointLines, read_toWgUserspaceString hnet hparse env hr]
  constructor
  · rintro ⟨device, read, hread, hlines⟩
    rw [← (Prod.mk.inj (Option.some.inj hread)).2, forall₂_zipWith hlen] at hlines
    intro x hx hep
    have hsome := hlines x hx hep
    rwa [settings, Option.isSome_map] at hsome
  · intro hall
    refine ⟨_, _, rfl, (forall₂_zipWith hlen).mpr fun x hx hep => ?_⟩
    rw [settings, Option.isSome_map]
    exact hall x hx hep

end Endpoints

/-! ## The run -/

namespace GoBackend

open Endpoints

variable {L : Type}

section Run

variable {net : NetApi} {packageName : JString} {notify : Tunnel → TunnelState → L → L}
  {env : BringUpEnv} {tunnel : Tunnel} {config : ConfigRef} {s : GoState L}

/-- The resolver with which the settings are built. -/
def checked (net : NetApi) (env : DnsEnv) (config : ConfigRef) (s : GoState L) : Resolver :=
  (dnsRetry net env config.serial config.config.peers dnsResolutionRetries ⟨0, s.endpoints⟩).2

theorem wgTurnOnCall_eq_some {call : VpnBuilder × JString}
    (h : wgTurnOnCall net packageName env tunnel config s = some call) :
    (dnsRetry net env.dns config.serial config.config.peers dnsResolutionRetries
        ⟨0, s.endpoints⟩).1 = .ok () ∧
      call.2 = (toWgUserspaceString net env.dns config.serial config.config
        (checked net env.dns config s)).1 := by
  rw [wgTurnOnCall, arrange] at h
  split at h
  · rw [checked]
    cases hdns : dnsRetry net env.dns config.serial config.config.peers dnsResolutionRetries
        ⟨0, s.endpoints⟩ with
    | mk result r =>
      rw [hdns] at h
      cases result with
      | error e => exact absurd h (by simp [Except.toOption])
      | ok u =>
        refine ⟨rfl, ?_⟩
        dsimp only at h ⊢
        cases hbuilder : configureBuilder env.device packageName tunnel config.config with
        | error e =>
          rw [hbuilder] at h
          exact absurd h (by simp [Except.toOption])
        | ok builder =>
          rw [hbuilder] at h
          rw [← Option.some.inj h]
  · exact absurd h (by simp)

/-- **No peer without its endpoint**, for one run: what is passed to `wgTurnOn` has all endpoints,
and an endpoint that cannot be resolved makes the run fail after ten passes. -/
structure NoPeerWithoutEndpoint (net : NetApi) (packageName : JString)
    (notify : Tunnel → TunnelState → L → L) (env : BringUpEnv) (tunnel : Tunnel)
    (config : ConfigRef) (s : GoState L) : Prop where
  lines : ∀ builder goConfig,
    wgTurnOnCall net packageName env tunnel config s = some (builder, goConfig) →
      HasEndpointLines net config.config.peers goConfig
  failure : reachesDnsRetry env s = true →
    Unresolvable env.dns config.serial config.config.peers ⟨0, s.endpoints⟩ →
      ∃ host, (setStateInternalUp net packageName notify env tunnel (some config) s).1 =
          .error (.backend (.dnsResolutionFailure host)) ∧
        (setStateInternalUp net packageName notify env tunnel (some config) s).2.endpoints =
          (afterPasses net env.dns config.serial config.config.peers 10 ⟨0, s.endpoints⟩).cache

theorem failure_of_unresolvable (hreach : reachesDnsRetry env s = true)
    (h : Unresolvable env.dns config.serial config.config.peers ⟨0, s.endpoints⟩) :
    ∃ host, (setStateInternalUp net packageName notify env tunnel (some config) s).1 =
        .error (.backend (.dnsResolutionFailure host)) ∧
      (setStateInternalUp net packageName notify env tunnel (some config) s).2.endpoints =
        (afterPasses net env.dns config.serial config.config.peers 10 ⟨0, s.endpoints⟩).cache := by
  obtain ⟨s', hendpoints, -, herror, -⟩ := setStateInternalUp_of_reaches hreach
  obtain ⟨host, hfails, hpasses⟩ := dnsRetry_of_unresolvable net h 9
  have harrange : (arrange net packageName env tunnel config s').1 =
        .error (.backend (.dnsResolutionFailure host)) ∧
      (arrange net packageName env tunnel config s').2.endpoints =
        (afterPasses net env.dns config.serial config.config.peers 10
          ⟨0, s.endpoints⟩).cache := by
    rw [← hpasses, arrange, hendpoints, dnsResolutionRetries]
    cases hdns : dnsRetry net env.dns config.serial config.config.peers 10 ⟨0, s.endpoints⟩ with
    | mk result r =>
      rw [hdns] at hfails
      obtain rfl : result = _ := hfails
      exact ⟨rfl, rfl⟩
  rw [herror _ harrange.1]
  exact ⟨host, rfl, harrange.2⟩

/-- The loop ends well with a pass that succeeded, on objects of the configuration. -/
theorem exists_pass_of_dnsRetry
    (hr : Reached net config.serial config.config.peers ⟨0, s.endpoints⟩)
    {dns : DnsEnv} (h : (dnsRetry net dns config.serial config.config.peers dnsResolutionRetries
      ⟨0, s.endpoints⟩).1 = .ok ()) :
    ∃ r, checked net dns config s = (resolvePass net dns config.serial 0 config.config.peers r).2 ∧
      (resolvePass net dns config.serial 0 config.config.peers r).1 = none ∧
      Reached net config.serial config.config.peers (checked net dns config s) := by
  have hkept : KeptByCalls net dns config.serial config.config.peers
      (Reached net config.serial config.config.peers) := fun i peer ep r hpeer hep hr =>
    .called dns i peer ep r hpeer hep hr
  obtain ⟨k, -, hstate, ⟨-, hpass⟩ | ⟨-, host, herror⟩⟩ :=
    dnsRetry_cases net dns config.serial config.config.peers 9 ⟨0, s.endpoints⟩
  · have hchecked : checked net dns config s = afterPasses net dns config.serial
        config.config.peers (k + 1) ⟨0, s.endpoints⟩ := hstate
    refine ⟨_, ?_, hpass, ?_⟩
    · rw [hchecked, afterPasses, Function.iterate_succ_apply', ← afterPasses]
    · rw [hchecked]
      exact afterPasses_invariant hkept (k + 1) hr
  · exact absurd (herror.symm.trans h) (by simp)

/-- **When no peer is activated without its endpoint**: in exactly the runs that do not come to
`wgTurnOn`, or in which the settings are built while each endpoint is fresh or is found again. -/
theorem no_peer_without_endpoint_iff (hnet : net.Documented) {text : JString}
    (hparse : Config.parse net text = .ok config.config)
    (hr : Reached net config.serial config.config.peers ⟨0, s.endpoints⟩) :
    NoPeerWithoutEndpoint net packageName notify env tunnel config s ↔
      ((wgTurnOnCall net packageName env tunnel config s).isSome = true →
        FreshWhenUsed env.dns config.serial config.config.peers
          (checked net env.dns config s)) := by
  have hlines : ∀ call, wgTurnOnCall net packageName env tunnel config s = some call →
      (HasEndpointLines net config.config.peers call.2 ↔
        FreshWhenUsed env.dns config.serial config.config.peers
          (checked net env.dns config s)) := by
    intro call hcall
    obtain ⟨hdns, htext⟩ := wgTurnOnCall_eq_some hcall
    obtain ⟨r, hchecked, hpass, hreached⟩ := exists_pass_of_dnsRetry hr hdns
    rw [htext, hasEndpointLines_iff hnet hparse _ hreached, hchecked,
      allResolved_iff_freshWhenUsed hpass]
  constructor
  · intro h hsome
    obtain ⟨⟨builder, goConfig⟩, hcall⟩ := Option.isSome_iff_exists.mp hsome
    exact (hlines _ hcall).mp (h.lines builder goConfig hcall)
  · intro hfresh
    refine ⟨fun builder goConfig hcall => ?_, failure_of_unresolvable⟩
    exact (hlines _ hcall).mpr (hfresh (by rw [hcall]; rfl))

end Run

/-- The configuration of the sample text, resolved at once. -/
theorem sample_no_peer_without_endpoint :
    NoPeerWithoutEndpoint sampleNet (jstr "app") (fun _ _ l => l) { dns := sampleDns }
      ⟨0, jstr "tunnel"⟩ ⟨0, Config.sampleConfig⟩ ({ listeners := () } : GoState Unit) := by
  exact (no_peer_without_endpoint_iff sampleNet_documented Config.parse_sampleText
    (.created _ fun _ => rfl)).mpr fun _ i peer ep hpeer hep _ => Or.inr rfl

/-- A text with two peers. -/
def twoPeersText : JString :=
  jstr "[Interface]\nPrivateKey = AAECAwQFBgcICQoLDA0ODxAREhMUFRYXGBkaGxwdHh8=\n" ++
  jstr "[Peer]\nPublicKey = AAECAwQFBgcICQoLDA0ODxAREhMUFRYXGBkaGxwdHh8=\n" ++
  jstr "Endpoint = vpn.example:51820\n" ++
  jstr "[Peer]\nPublicKey = AAECAwQFBgcICQoLDA0ODxAREhMUFRYXGBkaGxwdHh8=\n" ++
  jstr "Endpoint = vpn.example:51820\n"

/-- A resolver that takes 130 seconds for the second lookup and knows nothing afterwards. -/
def slowDns : DnsEnv where
  now n := if n < 2 then 1700000000 else 1700000130
  after n := if n < 1 then 1700000000 else 1700000130
  getAllByName n _ := if n < 2 then some (.inet4 0x01010101, []) else none

/-- **A peer without its endpoint**: the first is looked up again when the second has taken two
minutes, and is not found. -/
theorem peer_without_endpoint :
    (∀ n, slowDns.now n ≤ slowDns.after n ∧ slowDns.after n ≤ slowDns.now (n + 1)) ∧
      (((Config.parse sampleNet twoPeersText).toOption.bind fun c =>
        wgTurnOnCall sampleNet (jstr "app") { dns := slowDns } ⟨0, jstr "tunnel"⟩ ⟨0, c⟩
          ({ listeners := () } : GoState Unit)).map fun call =>
            (Uapi.read sampleNet call.2).map fun read => read.2.map Uapi.Peer.endpoint) =
        some (some [none, some (jstr "1.1.1.1", 51820)]) := by
  refine ⟨fun n => ?_, by decide +kernel⟩
  rw [slowDns]
  dsimp only
  constructor
  · split_ifs <;> omega
  · split_ifs <;> omega

end GoBackend
end AioVpn
