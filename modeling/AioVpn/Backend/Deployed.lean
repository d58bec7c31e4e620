import AioVpn.Backend.AppFilters
import AioVpn.Backend.BringUpSteps

/-!
# The device runs what the configuration says

Between the text of a configuration and the interface that carries traffic there are five steps:
the parser, the retry loop that resolves the endpoints, the settings that are written for the Go
library, the builder of the virtual interface, and the table of handles of the library.  A failed
switch brings the former configuration up again, with endpoint objects that have been used before,
and the destruction of a service takes a tunnel down behind the backend's back.

`running_device_is_configured` is about all of them together: after every run, if a tunnel runs
with a configuration, then the one device of the Go library has been built for that tunnel and has
been given the settings of that configuration, and nothing else.

## The objects

A configuration is an object, and its endpoints remember their last lookup.  `Objects` are the
configuration objects of a run, by serial number; each was parsed from some text.  What is known of
the endpoint objects is `Known`: for every configuration, they hold what calls of `getResolved`
left in them, and that is an address which a lookup of their host name gave.  It is kept by every
call, for whichever configuration the call is made.

A peer with a host name runs with such an address, or without endpoint: the settings are built
after the retry loop, with one more call for every endpoint, and when the lookup that is made then
fails nothing is printed.  `AnswerOf` says which answers are possible.

## What is kept

`Deployed` adds to `Inv` what is known of the objects and of the device.  `up_deployed` and
`down_deployed` are the two internal steps, `deployed_setState` and `deployed_perform` the calls
and events made of them, and `deployed_run` is the induction.
-/

namespace AioVpn

namespace Endpoints

/-! ## The answers of the resolver

The outcomes of lookups are a relation between host names and addresses, or none for a lookup that
failed. -/

section Answers

variable {net : NetApi} {gives : JString → Option InetAddress → Prop}

/-- The lookups of a resolver have outcomes of the relation. -/
def LooksUp (gives : JString → Option InetAddress → Prop) (env : DnsEnv) : Prop :=
  ∀ n host, gives host ((env.getAllByName n host).map preferred)

/-- The endpoint that is made of an address. -/
def atAddress (net : NetApi) (ep : InetEndpoint) (a : InetAddress) : InetEndpoint :=
  ⟨net.getHostAddress a, true, ep.port⟩

/-- What is printed for a peer: nothing if it has no endpoint, a numeric endpoint as it is, and for
a host name the outcome of a lookup of that name. -/
def AnswerOf (net : NetApi) (gives : JString → Option InetAddress → Prop) (peer : AioVpn.Peer)
    (answer : Option InetEndpoint) : Prop :=
  match peer.endpoint with
  | none => answer = none
  | some ep =>
      if ep.isResolved then answer = some ep
      else ∃ outcome, gives ep.host outcome ∧ answer = outcome.map (atAddress net ep)

/-- The objects of a configuration hold addresses that lookups of their host names gave. -/
def Holds (net : NetApi) (gives : JString → Option InetAddress → Prop) (serial : ℕ)
    (peers : List AioVpn.Peer) (r : Resolver) : Prop :=
  ∀ i peer ep, peers[i]? = some peer → peer.endpoint = some ep →
    ∀ ep' ∈ (r.cache (serial, i)).resolved, ∃ a, gives ep.host (some a) ∧ ep' = atAddress net ep a

variable (net) in
/-- **One call for a host name** answers with what the object holds, or with the outcome of a
lookup. -/
theorem getResolved_cases {env : DnsEnv} (henv : LooksUp gives env) {ref : ℕ × ℕ}
    {ep : InetEndpoint} (hep : ep.isResolved = false) (r : Resolver) :
    (getResolved net env ref ep r).1 = (r.cache ref).resolved ∨
      ∃ outcome, gives ep.host outcome ∧
        (getResolved net env ref ep r).1 = outcome.map (atAddress net ep) := by
  have hlookup := henv r.calls ep.host
  rw [getResolved, if_neg (by simp [hep])]
  dsimp only
  split
  · cases hnames : env.getAllByName r.calls ep.host with
    | none =>
      rw [hnames] at hlookup
      exact Or.inr ⟨_, hlookup, rfl⟩
    | some candidates =>
      rw [hnames] at hlookup
      exact Or.inr ⟨_, hlookup, rfl⟩
  · exact Or.inl rfl

variable {serial : ℕ} {peers : List AioVpn.Peer}

/-- A call keeps what the objects hold. -/
theorem Holds.keptByCalls {env : DnsEnv} (henv : LooksUp gives env) :
    KeptByCalls net env serial peers (Holds net gives serial peers) := by
  intro i peer ep r hpeer hep hr j peer' ep₁ hpeer' hep₁ ep' hep'
  by_cases hij : j = i
  · subst hij
    obtain rfl := Option.some.inj (hpeer.symm.trans hpeer')
    obtain rfl := Option.some.inj (hep.symm.trans hep₁)
    cases hres : ep.isResolved with
    | true =>
      rw [getResolved, if_pos hres] at hep'
      exact hr j peer ep hpeer hep ep' hep'
    | false =>
      rw [resolved_getResolved hres] at hep'
      rcases getResolved_cases net henv hres r with hheld | ⟨outcome, hgives, hanswer⟩
      · rw [hheld] at hep'
        exact hr j peer ep hpeer hep ep' hep'
      · rw [hanswer] at hep'
        obtain ⟨a, rfl, rfl⟩ := Option.map_eq_some_iff.mp hep'
        exact ⟨a, hgives, rfl⟩
  · rw [cache_getResolved_of_ne fun h => hij (Prod.mk.inj h).2] at hep'
    exact hr j peer' ep₁ hpeer' hep₁ ep' hep'

/-- **The answers the settings are made of**, for the peers from the `i`-th on, when every object
holds an address: a missing answer is a lookup that failed just then. -/
theorem Holds.answerOf {env : DnsEnv} (henv : LooksUp gives env) {i : ℕ}
    {rest : List AioVpn.Peer} (hrest : peers.drop i = rest) {r : Resolver}
    (hr : Holds net gives serial peers r)
    (hfilled : ∀ k peer ep, peers[k]? = some peer → peer.endpoint = some ep →
      ep.isResolved = false → i ≤ k → (r.cache (serial, k)).resolved.isSome = true) :
    List.Forall₂ (AnswerOf net gives) rest (resolutions net env serial i rest r) := by
  induction rest generalizing i r with
  | nil => exact .nil
  | cons peer rest ih =>
    obtain ⟨hpeer, hnext⟩ := getElem?_of_drop hrest
    rw [resolutions]
    cases hep : peer.endpoint with
    | none =>
      refine .cons (by rw [AnswerOf, hep]) (ih hnext hr ?_)
      exact fun k peer ep hpeer hep hres hk => hfilled k peer ep hpeer hep hres (by omega)
    | some ep =>
      refine .cons ?_ (ih hnext (Holds.keptByCalls henv i peer ep r hpeer hep hr) ?_)
      · rw [AnswerOf, hep]
        dsimp only
        cases hres : ep.isResolved with
        | true =>
          rw [if_pos rfl, getResolved, if_pos hres]
        | false =>
          rw [if_neg (by simp)]
          rcases getResolved_cases net henv hres r with hheld | hlookup
          · obtain ⟨ep', hep'⟩ :=
              Option.isSome_iff_exists.mp (hfilled i peer ep hpeer hep hres (le_refl i))
            obtain ⟨a, hgives, rfl⟩ := hr i peer ep hpeer hep ep' hep'
            exact ⟨some a, hgives, hheld.trans hep'⟩
          · exact hlookup
      · -- the call was for another object
        intro k peer' ep₁ hpeer' hep₁ hres hk
        rw [cache_getResolved_of_ne fun h => absurd (Prod.mk.inj h).2 (by omega)]
        exact hfilled k peer' ep₁ hpeer' hep₁ hres (by omega)

end Answers

end Endpoints

namespace GoBackend

open Endpoints

variable {L : Type}

/-! ## The configuration objects -/

/-- The configuration objects of a run, each parsed from some text. -/
structure Objects (net : NetApi) where
  config : ℕ → Config
  parsed : ∀ serial, ∃ text, Config.parse net text = .ok (config serial)

/-- A reference to one of the objects. -/
def Objects.Has {net : NetApi} (objects : Objects net) (c : ConfigRef) : Prop :=
  c.config = objects.config c.serial

/-- The endpoint objects hold what calls of `getResolved` left in them: addresses that lookups of
their host names gave. -/
structure Known {net : NetApi} (objects : Objects net) (gives : JString → Option InetAddress → Prop)
    (r : Resolver) : Prop where
  reached : ∀ serial, Reached net serial (objects.config serial).peers r
  holds : ∀ serial, Holds net gives serial (objects.config serial).peers r

section Objects

variable {net : NetApi} {objects : Objects net} {gives : JString → Option InetAddress → Prop}

/-- It does not depend on the number of calls made. -/
theorem Known.of_cache {r r' : Resolver} (h : Known objects gives r)
    (hcache : r'.cache = r.cache) : Known objects gives r' where
  reached serial := .elsewhere r r' (fun i => congrFun hcache (serial, i)) (h.reached serial)
  holds serial i := by
    rw [hcache]
    exact h.holds serial i

/-- **A call for one configuration** keeps what is known of the objects of all of them. -/
theorem Known.keptByCalls {env : DnsEnv} (henv : LooksUp gives env) {c : ConfigRef}
    (hc : objects.Has c) : KeptByCalls net env c.serial c.config.peers (Known objects gives) := by
  intro i peer ep r hpeer hep hr
  have hothers : ∀ serial, serial ≠ c.serial → ∀ j,
      (getResolved net env (c.serial, i) ep r).2.cache (serial, j) = r.cache (serial, j) :=
    fun serial hserial j => cache_getResolved_of_ne fun h => hserial (Prod.mk.inj h).1
  constructor
  · intro serial
    by_cases hserial : serial = c.serial
    · subst hserial
      exact .called env i peer ep r (hc ▸ hpeer) hep (hr.reached c.serial)
    · exact .elsewhere r _ (hothers serial hserial) (hr.reached serial)
  · intro serial
    by_cases hserial : serial = c.serial
    · subst hserial
      exact Holds.keptByCalls henv i peer ep r (hc ▸ hpeer) hep (hr.holds c.serial)
    · intro j
      rw [hothers serial hserial j]
      exact hr.holds serial j

/-- A bring-up keeps what is known of the objects, wherever it stops. -/
theorem known_setStateInternalUp (packageName : JString) {env : BringUpEnv}
    (henv : LooksUp gives env.dns) (tunnel : Tunnel) (notify : Tunnel → TunnelState → L → L)
    {config : Option ConfigRef} (hc : ∀ c ∈ config, objects.Has c) {s : GoState L}
    (hs : Known objects gives ⟨0, s.endpoints⟩) :
    Known objects gives
      ⟨0, (setStateInternalUp net packageName notify env tunnel config s).2.endpoints⟩ := by
  refine endpoints_setStateInternalUp (I := fun cache => Known objects gives ⟨0, cache⟩) ?_ hs
  intro c hmem i peer ep r hpeer hep hr
  have hknown : Known objects gives r := hr.of_cache rfl
  exact (Known.keptByCalls henv (hc c hmem) i peer ep r hpeer hep hknown).of_cache rfl

end Objects

/-! ## The virtual interface -/

/-- The parameters of the virtual interface are those of the configuration. -/
structure BuiltFor (packageName : JString) (tunnel : Tunnel) (config : Config) (b : VpnBuilder) :
    Prop where
  session : b.session = tunnel.name
  addresses : b.addresses = config.interfaze.addresses.elems
  dnsServers : b.dnsServers = config.interfaze.dnsServers.elems
  searchDomains : b.searchDomains = config.interfaze.dnsSearchDomains.elems
  routes : b.routes = allRoutes config
  /-- Traffic may go around the tunnel unless a single peer takes all of it. -/
  allowFamilies : b.allowFamilies = !(sawDefaultRoute config && config.peers.length = 1)
  mtu : b.mtu = config.interfaze.mtu.getD 1280
  /-- Of the other packages, those use the tunnel that are wanted in it. -/
  packages : ∀ p, p ≠ packageName →
    (b.usesTunnel p = true ↔ Wanted packageName config.interfaze p)

section Builder

variable {dev : DeviceEnv} {packageName : JString}

theorem foldlM_addDisallowedApplication_eq {ps : List JString} {b b' : VpnBuilder}
    (h : ps.foldlM (VpnBuilder.addDisallowedApplication dev) b = .ok b') :
    b' = { b with disallowedApplications := b.disallowedApplications ++ ps } := by
  refine ExceptFold.foldlM_collects (fun xs => { b with disallowedApplications := xs }) ?_ h
  intro xs p b' h
  unfold VpnBuilder.addDisallowedApplication at h
  split at h
  · exact absurd h (by simp)
  · split at h
    · exact absurd h (by simp)
    · exact (Except.ok.inj h).symm

theorem foldlM_addAllowedApplication_eq {ps : List JString} {b b' : VpnBuilder}
    (h : ps.foldlM (VpnBuilder.addAllowedApplication dev) b = .ok b') :
    b' = { b with allowedApplications := b.allowedApplications ++ ps } := by
  refine ExceptFold.foldlM_collects (fun xs => { b with allowedApplications := xs }) ?_ h
  intro xs p b' h
  unfold VpnBuilder.addAllowedApplication at h
  split at h
  · exact absurd h (by simp)
  · split at h
    · exact absurd h (by simp)
    · exact (Except.ok.inj h).symm

theorem foldlM_addAddress_eq {ns : List InetNetwork} {b b' : VpnBuilder}
    (h : ns.foldlM (VpnBuilder.addAddress dev) b = .ok b') :
    b' = { b with addresses := b.addresses ++ ns } := by
  refine ExceptFold.foldlM_collects (fun xs => { b with addresses := xs }) ?_ h
  intro xs n b' h
  unfold VpnBuilder.addAddress at h
  split at h
  · exact (Except.ok.inj h).symm
  · exact absurd h (by simp)

theorem foldlM_addDnsServer_eq {as : List InetAddress} {b b' : VpnBuilder}
    (h : as.foldlM (VpnBuilder.addDnsServer dev) b = .ok b') :
    b' = { b with dnsServers := b.dnsServers ++ as } := by
  refine ExceptFold.foldlM_collects (fun xs => { b with dnsServers := xs }) ?_ h
  intro xs a b' h
  unfold VpnBuilder.addDnsServer at h
  split at h
  · exact (Except.ok.inj h).symm
  · exact absurd h (by simp)

theorem foldlM_addRoute_eq {ns : List InetNetwork} {b b' : VpnBuilder}
    (h : ns.foldlM (VpnBuilder.addRoute dev) b = .ok b') :
    b' = { b with routes := b.routes ++ ns } := by
  refine ExceptFold.foldlM_collects (fun xs => { b with routes := xs }) ?_ h
  intro xs n b' h
  unfold VpnBuilder.addRoute at h
  split at h
  · exact (Except.ok.inj h).symm
  · exact absurd h (by simp)

theorem foldl_addSearchDomain_eq (domains : List JString) (b : VpnBuilder) :
    domains.foldl VpnBuilder.addSearchDomain b =
      { b with searchDomains := b.searchDomains ++ domains } := by
  induction domains generalizing b with
  | nil => rw [List.foldl_nil, List.append_nil]
  | cons domain domains ih =>
    rw [List.foldl_cons, ih, VpnBuilder.addSearchDomain, List.append_assoc, List.singleton_append]

theorem setMtu_eq {b b' : VpnBuilder} {mtu : ℤ} (h : b.setMtu mtu = .ok b') :
    b' = { b with mtu := mtu } := by
  unfold VpnBuilder.setMtu at h
  split at h
  · exact absurd h (by simp)
  · exact (Except.ok.inj h).symm

/-- **The filters that are accepted** include no package and disallow the excluded ones; only the
app itself may come on top. -/
theorem applyFilters_eq {i : Interface} {session : JString} {b : VpnBuilder}
    (h : applyFilters dev packageName i { session := session } = .ok b) :
    i.includedApplications.elems = [] ∧ ∃ own, (∀ p ∈ own, p = packageName) ∧
      b = { session := session
            disallowedApplications := i.excludedApplications.elems ++ own } := by
  unfold applyFilters at h
  obtain ⟨b₁, hexcluded, h⟩ := ExceptFold.exists_of_bind_eq_ok h
  obtain ⟨b₂, hincluded, h⟩ := ExceptFold.exists_of_bind_eq_ok h
  obtain rfl := foldlM_addDisallowedApplication_eq hexcluded
  obtain rfl := foldlM_addAllowedApplication_eq hincluded
  by_cases hnone : i.includedApplications.elems = []
  · refine ⟨hnone, ?_⟩
    rw [hnone] at h
    cases hown : dev.installed packageName with
    | false =>
      simp only [VpnBuilder.addDisallowedApplication, hown, if_true, List.append_nil, ne_eq,
        not_true_eq_false, if_false] at h
      exact ⟨[], by simp, by simp [← Except.ok.inj h]⟩
    | true =>
      simp only [VpnBuilder.addDisallowedApplication, hown, Bool.true_eq_false, List.append_nil,
        ne_eq, not_true_eq_false, if_false] at h
      exact ⟨[packageName], by simp, by simp [← Except.ok.inj h]⟩
  · -- a package is included: disallowing the app throws, and that is not caught
    simp [VpnBuilder.addDisallowedApplication, hnone] at h

/-- **What the builder holds before `establish`**, when no call on it has thrown. -/
theorem builtFor_of_configureBuilder {tunnel : Tunnel} {config : Config} {b : VpnBuilder}
    (h : configureBuilder dev packageName tunnel config = .ok b) :
    BuiltFor packageName tunnel config b := by
  unfold configureBuilder at h
  obtain ⟨b₀, hfilters, h⟩ := ExceptFold.exists_of_bind_eq_ok h
  obtain ⟨b₁, haddress, h⟩ := ExceptFold.exists_of_bind_eq_ok h
  obtain ⟨b₂, hdns, h⟩ := ExceptFold.exists_of_bind_eq_ok h
  obtain ⟨b₃, hroutes, h⟩ := ExceptFold.exists_of_bind_eq_ok h
  obtain ⟨b₄, hmtu, h⟩ := ExceptFold.exists_of_bind_eq_ok h
  obtain ⟨hincluded, own, hown, rfl⟩ := applyFilters_eq hfilters
  obtain rfl := foldlM_addAddress_eq haddress
  obtain rfl := foldlM_addDnsServer_eq hdns
  rw [foldl_addSearchDomain_eq] at hroutes
  obtain rfl := foldlM_addRoute_eq hroutes
  obtain rfl := setMtu_eq hmtu
  obtain rfl := setMtu_eq h
  refine ⟨rfl, rfl, rfl, rfl, rfl, rfl, rfl, fun p hp => ?_⟩
  have hother : p ∉ own := fun h => hp (hown p h)
  simp [VpnBuilder.usesTunnel, Wanted, LinkedHashSet.isEmpty, hincluded, LinkedHashSet.mem_def,
    hother, hp]

end Builder

/-! ## The device -/

/-- The device has been built for the tunnel and given the settings of the configuration: the
virtual interface is the one the configuration describes, and what was passed to `IpcSet` is read,
by the rules of the cross-platform interface, as the key and the port of the interface and as its
peers, each with the answer for its endpoint. -/
def RunsAsConfigured (net : NetApi) (packageName : JString)
    (gives : JString → Option InetAddress → Prop) (tunnel : Tunnel) (config : Config)
    (h : TunnelHandle) : Prop :=
  BuiltFor packageName tunnel config h.tun ∧
    ∃ answers, List.Forall₂ (AnswerOf net gives) config.peers answers ∧
      Uapi.read net h.settings =
        some (⟨some config.interfaze.privateKey, config.interfaze.listenPort, true⟩,
          List.zipWith settings config.peers answers)

/-- What every run keeps. -/
structure Deployed {net : NetApi} (packageName : JString) (objects : Objects net)
    (gives : JString → Option InetAddress → Prop) (s : GoState L) : Prop where
  inv : Inv s
  known : Known objects gives ⟨0, s.endpoints⟩
  device : ∀ t c, running s = some (t, c) → objects.Has c ∧
    ∃ h, s.native.tunnelHandles = [(s.currentTunnelHandle, h)] ∧
      RunsAsConfigured net packageName gives t c.config h

section Runs

variable {net : NetApi} (hnet : net.Documented) {packageName : JString}
  {notify : Tunnel → TunnelState → L → L} {objects : Objects net}
  {gives : JString → Option InetAddress → Prop}

theorem deployed_of_clear {s : GoState L} (hinv : Inv s) (hclear : Clear s)
    (hknown : Known objects gives ⟨0, s.endpoints⟩) : Deployed packageName objects gives s where
  inv := hinv
  known := hknown
  device t c h := absurd (hclear.running.symm.trans h) (by simp)

include hnet in
/-- What a bring-up passes to `wgTurnOn` is read as the settings of the configuration.  It comes
after a pass in which every lookup was answered, so that only a lookup made since can be missing. -/
theorem read_wgTurnOnCall {env : BringUpEnv} (henv : LooksUp gives env.dns) {tunnel : Tunnel}
    {c : ConfigRef} {s : GoState L} (hc : objects.Has c)
    (hknown : Known objects gives ⟨0, s.endpoints⟩) {call : VpnBuilder × JString}
    (h : wgTurnOnCall net packageName env tunnel c s = some call) :
    ∃ answers, List.Forall₂ (AnswerOf net gives) c.config.peers answers ∧
      Uapi.read net call.2 =
        some (⟨some c.config.interfaze.privateKey, c.config.interfaze.listenPort, true⟩,
          List.zipWith settings c.config.peers answers) := by
  obtain ⟨text, hparse⟩ := objects.parsed c.serial
  obtain ⟨hdns, hsettings⟩ := wgTurnOnCall_eq_some h
  have hreached := hknown.reached c.serial
  have hholds : Known objects gives (checked net env.dns c s) :=
    dnsRetry_invariant (Known.keptByCalls henv hc) dnsResolutionRetries hknown
  have hheld := hholds.holds c.serial
  rw [← hc] at hparse hreached hheld
  obtain ⟨r, hchecked, hpass, hreached⟩ := exists_pass_of_dnsRetry hreached hdns
  rw [hsettings]
  refine ⟨_, hheld.answerOf henv List.drop_zero ?_,
    read_toWgUserspaceString hnet hparse env.dns hreached⟩
  intro k peer ep hpeer hep hres _
  rw [hchecked]
  exact isSome_resolved_of_pass hpass hpeer hep hres

/-- The settings of the device are what was passed to `wgTurnOn`. -/
theorem settings_of_up {env : BringUpEnv} {tunnel : Tunnel} {c : ConfigRef} {s s' : GoState L}
    (hclear : Clear s)
    (hup : setStateInternalUp net packageName notify env tunnel (some c) s = (.ok (), s'))
    {i : ℤ} {h : TunnelHandle} (htable : s'.native.tunnelHandles = [(i, h)]) :
    ∃ call, wgTurnOnCall net packageName env tunnel c s = some call ∧ h.settings = call.2 := by
  have hnative : (setStateInternalUp net packageName notify env tunnel (some c) s).2.native = _ :=
    native_eq_wgTurnOnCall
  rw [hup] at hnative
  dsimp only at hnative
  rw [hnative] at htable
  cases hcall : wgTurnOnCall net packageName env tunnel c s with
  | none =>
    rw [hcall, Option.elim_none, hclear.table] at htable
    exact absurd htable (by simp)
  | some call =>
    refine ⟨call, rfl, ?_⟩
    rw [hcall, Option.elim_some] at htable
    rcases Native.wgTurnOn_cases env.native call.1 call.2 s.native with
      ⟨-, hkeep⟩ | ⟨j, -, -, hon⟩
    · rw [hkeep, hclear.table] at htable
      exact absurd htable (by simp)
    · rw [hon, hclear.table] at htable
      rw [← (Prod.mk.inj (List.cons.inj htable).1).2]

variable (notify)

include hnet in
/-- **A bring-up with nothing running** fails and leaves nothing running, or leaves a device that
runs as configured. -/
theorem up_deployed {env : BringUpEnv} (henv : LooksUp gives env.dns) (tunnel : Tunnel)
    {config : Option ConfigRef} {s : GoState L} (hclear : Clear s)
    (hs : Deployed packageName objects gives s) (hc : ∀ c ∈ config, objects.Has c) :
    Deployed packageName objects gives
      (setStateInternalUp net packageName notify env tunnel config s).2 := by
  have hknown := known_setStateInternalUp packageName henv tunnel notify hc hs.known
  rcases up_refines net packageName notify env tunnel config hs.inv hclear with
    ⟨e, s', heq, hclear', href⟩ | ⟨c, s', heq, rfl, hrun, href⟩
  · rw [heq] at hknown ⊢
    exact deployed_of_clear href.inv hclear' hknown
  · obtain ⟨h, htable, hbuilt⟩ := tunnelHandles_of_up hclear heq
    obtain ⟨call, hcall, hsettings⟩ := settings_of_up hclear heq htable
    have hread := read_wgTurnOnCall hnet henv (hc c rfl) hs.known hcall
    rw [← hsettings] at hread
    rw [heq] at hknown ⊢
    refine ⟨href.inv, hknown, fun t c' hrunning => ?_⟩
    obtain ⟨rfl, rfl⟩ := Prod.mk.inj (Option.some.inj (hrun.running.symm.trans hrunning))
    exact ⟨hc _ rfl, h, htable, builtFor_of_configureBuilder hbuilt, hread⟩

/-- **Taking down what runs** does not touch the objects. -/
theorem down_deployed {s : GoState L} (hs : Deployed packageName objects gives s) {t : Tunnel}
    {c : ConfigRef} (hrun : RunningWith t c s) :
    Clear (setStateInternalDown notify t s) ∧
      Deployed packageName objects gives (setStateInternalDown notify t s) := by
  obtain ⟨hclear, href⟩ := down_refines notify hs.inv hrun
  obtain ⟨n, heq, -, -⟩ := setStateInternalDown_spec notify t hrun
  refine ⟨hclear, deployed_of_clear href.inv hclear ?_⟩
  rw [heq]
  exact hs.known

include hnet in
/-- **The `UP` case of `setState`**: what runs is taken down, the new configuration is brought up,
and after a failure the former one again. -/
theorem deployed_switchTo {env : SetStateEnv} (hup : LooksUp gives env.up.dns)
    (hback : LooksUp gives env.rollback.dns) (tunnel : Tunnel) {config : Option ConfigRef}
    {s : GoState L} (hs : Deployed packageName objects gives s)
    (hc : ∀ c ∈ config, objects.Has c) :
    Deployed packageName objects gives
      (switchTo net packageName notify env tunnel config s).2 := by
  unfold switchTo
  rcases hs.inv.fields with hclear | ⟨t, c, hrun⟩
  · have hdeployed := up_deployed hnet notify hup tunnel hclear hs hc
    rw [hclear.tunnel]
    dsimp only
    generalize setStateInternalUp net packageName notify env.up tunnel config s = x
      at hdeployed ⊢
    obtain ⟨result, s'⟩ := x
    cases result with
    | error e => exact hdeployed
    | ok u => exact hdeployed
  · obtain ⟨hclear, hdown⟩ := down_deployed notify hs hrun
    have hdeployed := up_deployed hnet notify hup tunnel hclear hdown hc
    rw [hrun.tunnel, hrun.config]
    dsimp only
    rcases up_refines net packageName notify env.up tunnel config hdown.inv hclear with
      ⟨e, s₁, heq, hclear₁, -⟩ | ⟨c', s₁, heq, -⟩
    · -- the former configuration is one of the objects, as it ran
      have hformer : ∀ c' ∈ some c, objects.Has c' := by
        intro c' hc'
        rw [← Option.some.inj hc']
        exact (hs.device t c hrun.running).1
      rw [heq] at hdeployed ⊢
      have hformer := up_deployed hnet notify hback t hclear₁ hdeployed hformer
      dsimp only
      generalize setStateInternalUp net packageName notify env.rollback t (some c) s₁ = x
        at hformer ⊢
      obtain ⟨result, s'⟩ := x
      cases result with
      | error e' => exact hformer
      | ok u => exact hformer
    · rw [heq] at hdeployed ⊢
      exact hdeployed

include hnet in
theorem deployed_setState {env : SetStateEnv} (hup : LooksUp gives env.up.dns)
    (hback : LooksUp gives env.rollback.dns) (tunnel : Tunnel) (state : TunnelState)
    {config : Option ConfigRef} {s : GoState L} (hs : Deployed packageName objects gives s)
    (hc : ∀ c ∈ config, objects.Has c) :
    Deployed packageName objects gives
      (setState net packageName notify env tunnel state config s).2 := by
  unfold setState
  dsimp only
  generalize (if state = .toggle then if getState tunnel s = .up then .down else .up else state :
    TunnelState) = target
  split
  · exact hs
  · split
    · exact deployed_switchTo hnet notify hup hback tunnel hs hc
    · split
      · rename_i hmine
        rcases hs.inv.fields with hclear | ⟨t, c, hrun⟩
        · exact absurd hmine.2 (by simp [hclear.tunnel])
        · obtain rfl := Option.some.inj (hmine.2.trans hrun.tunnel)
          exact (down_deployed notify hs hrun).2
      · exact hs

/-- A callback of the service that takes nothing down. -/
theorem Deployed.service {s : GoState L} (hs : Deployed packageName objects gives s)
    (v : Option ℕ) (k : ℕ) (stopped : List ℕ) :
    Deployed packageName objects gives
      { s with vpnService := v, services := k, stopping := stopped } where
  inv := ⟨hs.inv.fields.imp (fun h => ⟨h.1, h.2, h.3, h.4⟩)
    (fun ⟨t, c, h⟩ => ⟨t, c, h.1, h.2, h.3, h.4⟩), hs.inv.native, hs.inv.warnings⟩
  known := hs.known
  device := hs.device

theorem deployed_onDestroy (service : ℕ) {s : GoState L}
    (hs : Deployed packageName objects gives s) :
    Deployed packageName objects gives (onDestroy notify service s) := by
  obtain ⟨hinv, -⟩ := onDestroy_refines notify service hs.inv
  unfold onDestroy at hinv ⊢
  dsimp only at hinv ⊢
  split
  · rename_i hown
    rw [if_pos hown] at hinv
    unfold destroyOwned at hinv ⊢
    cases htunnel : s.currentTunnel with
    | none => exact hs.service none s.services _
    | some t =>
      rw [htunnel] at hinv
      exact deployed_of_clear hinv (hinv.clear rfl) hs.known
  · exact hs.service none s.services _

/-- The configuration of a call is one of the objects. -/
def Event.Uses (objects : Objects net) : Event → Prop
  | .setState _ _ _ config => ∀ c ∈ config, objects.Has c
  | _ => True

/-- The lookups of a call have outcomes of the relation. -/
def Event.LooksUp (gives : JString → Option InetAddress → Prop) : Event → Prop
  | .setState env _ _ _ => Endpoints.LooksUp gives env.up.dns ∧
      Endpoints.LooksUp gives env.rollback.dns
  | _ => True

include hnet in
theorem deployed_perform {s : GoState L} (hs : Deployed packageName objects gives s) {e : Event}
    (he : e.Uses objects) (henv : e.LooksUp gives) :
    Deployed packageName objects gives (perform net packageName notify s e) := by
  cases e with
  | setState env tunnel state config =>
    exact deployed_setState hnet notify henv.1 henv.2 tunnel state hs he
  | onCreate =>
    rw [perform, onCreate]
    cases s.vpnService with
    | some service => exact hs.service _ (s.services + 1) s.stopping
    | none => exact hs.service _ (s.services + 1) s.stopping
  | onDestroy service => exact deployed_onDestroy notify service hs

include hnet in
theorem deployed_run {events : List Event} (hevents : ∀ e ∈ events, e.Uses objects)
    (henv : ∀ e ∈ events, e.LooksUp gives) {s : GoState L}
    (hs : Deployed packageName objects gives s) :
    Deployed packageName objects gives (run net packageName notify events s) := by
  induction events generalizing s with
  | nil => exact hs
  | cons e events ih =>
    rw [List.forall_mem_cons] at hevents henv
    exact ih hevents.2 henv.2 (deployed_perform hnet notify hs hevents.1 henv.1)

theorem deployed_init (l : L) :
    Deployed packageName objects gives ({ listeners := l } : GoState L) :=
  deployed_of_clear (inv_init l) ⟨rfl, rfl, rfl, rfl⟩
    ⟨fun _ => .created _ fun _ => rfl, fun _ _ _ _ _ _ _ h => absurd h (by simp)⟩

/-- A lookup of the host in a bring-up of the run has this outcome: the address the endpoint
settles on, or none for an `UnknownHostException`. -/
def LookedUp (events : List Event) (host : JString) (outcome : Option InetAddress) : Prop :=
  ∃ env tunnel state config, Event.setState env tunnel state config ∈ events ∧
    ∃ dns ∈ [env.up.dns, env.rollback.dns], ∃ n,
      outcome = (dns.getAllByName n host).map preferred

theorem looksUp_lookedUp (events : List Event) : ∀ e ∈ events, e.LooksUp (LookedUp events) := by
  intro e he
  cases e with
  | setState env tunnel state config =>
    exact ⟨fun n host => ⟨env, tunnel, state, config, he, _, by simp, n, rfl⟩,
      fun n host => ⟨env, tunnel, state, config, he, _, by simp, n, rfl⟩⟩
  | onCreate => exact trivial
  | onDestroy service => exact trivial

include hnet in
variable (packageName objects) in
/-- **The device runs what the configuration says.**  After every run of calls and of life cycle
callbacks, whatever their order, their arguments and the outcomes of the environment: if a tunnel
runs with a configuration, the Go library has one device, under the handle the backend holds, and
the device runs as configured.  A peer with a host name has an address that a lookup of that name
gave during the run; it has no endpoint only if a lookup of that name failed. -/
theorem running_device_is_configured (l : L) {events : List Event}
    (hevents : ∀ e ∈ events, e.Uses objects) {t : Tunnel} {c : ConfigRef}
    (hrunning : running (run net packageName notify events { listeners := l }) = some (t, c)) :
    ∃ h, (run net packageName notify events { listeners := l }).native.tunnelHandles =
        [((run net packageName notify events { listeners := l }).currentTunnelHandle, h)] ∧
      RunsAsConfigured net packageName (LookedUp events) t c.config h :=
  ((deployed_run hnet notify hevents (looksUp_lookedUp events) (deployed_init l)).device t c
    hrunning).2

end Runs

/-- Every object is parsed from the same text. -/
def sampleObjects : Objects sampleNet where
  config _ := Config.sampleConfig
  parsed _ := ⟨Config.sampleText, Config.parse_sampleText⟩

/-- A switch from one object to another that fails, after which the first one runs again. -/
def failedSwitch : List Event :=
  [.setState { up := { dns := sampleDns } } ⟨0, jstr "aiovpn"⟩ .up (some ⟨0, Config.sampleConfig⟩),
    .setState { up := { dns := sampleDns, establish := .null }, rollback := { dns := sampleDns } }
      ⟨0, jstr "aiovpn"⟩ .up (some ⟨1, Config.sampleConfig⟩)]

theorem failedSwitch_device_is_configured :
    let s := run sampleNet applicationId ignore failedSwitch { listeners := () }
    running s = some (⟨0, jstr "aiovpn"⟩, ⟨0, Config.sampleConfig⟩) ∧
      ∃ h, s.native.tunnelHandles = [(s.currentTunnelHandle, h)] ∧
        RunsAsConfigured sampleNet applicationId (LookedUp failedSwitch) ⟨0, jstr "aiovpn"⟩
          Config.sampleConfig h := by
  intro s
  have hrunning : running s = some (⟨0, jstr "aiovpn"⟩, ⟨0, Config.sampleConfig⟩) := by
    decide +kernel
  refine ⟨hrunning, ?_⟩
  have hevents : ∀ e ∈ failedSwitch, e.Uses sampleObjects := by
    intro e he
    rcases List.mem_pair.mp he with rfl | rfl
    · exact fun c hc => (Option.some.inj hc) ▸ rfl
    · exact fun c hc => (Option.some.inj hc) ▸ rfl
  exact running_device_is_configured sampleNet_documented applicationId ignore sampleObjects ()
    hevents hrunning

end GoBackend
end AioVpn
