import AioVpn.Backend.Endpoints
import AioVpn.Backend.Uapi
import AioVpn.Config.RoundTrip
import AioVpn.Crypto.Encodings

/-!
# The userspace encoding of a configuration

`Config.toWgUserspaceString` prints one line for each setting, the device first and then each
peer behind its `public_key=` line.  Read back with the rules of the cross-platform interface
(`Uapi.read`), the text of a configuration that was parsed gives exactly the private key, the
listen port, `replace_peers` and the settings of each peer (`userspace_string_read_back`).

The endpoint that is printed is the resolved one.  `resolutions` are the answers of `getResolved`
that the text is made of, and `Reached` are the states that the endpoint objects of a configuration
can be in: what they hold was made out of an address, so its text is on one line (`Genuine`).
-/

namespace AioVpn
namespace Endpoints

open Blocks Uapi JString

/-! ## The answers of the resolver -/

/-- What `getResolved` answers for each peer while the text is built; nothing for a peer without
endpoint. -/
def resolutions (net : NetApi) (env : DnsEnv) (serial : ℕ) :
    ℕ → List AioVpn.Peer → Resolver → List (Option InetEndpoint)
  | _, [], _ => []
  | i, peer :: peers, r =>
      match peer.endpoint with
      | none => none :: resolutions net env serial (i + 1) peers r
      | some ep =>
          let x := getResolved net env (serial, i) ep r
          x.1 :: resolutions net env serial (i + 1) peers x.2

/-- The answers and the text. -/
theorem peersString_eq (net : NetApi) (env : DnsEnv) (serial i : ℕ) (peers : List AioVpn.Peer)
    (r : Resolver) :
    (peersString net env serial i peers r).1 =
      (peers.zip (resolutions net env serial i peers r)).flatMap fun x =>
        peerString net x.1 x.2 := by
  induction peers generalizing i r with
  | nil => rfl
  | cons peer peers ih =>
    rw [peersString, resolutions]
    cases peer.endpoint with
    | none =>
      dsimp only
      rw [ih, List.zip_cons_cons, List.flatMap_cons]
    | some ep =>
      dsimp only
      rw [ih, List.zip_cons_cons, List.flatMap_cons]

/-- The states of the endpoint objects of a configuration: as they were created, after another
call of `getResolved`, or after something was done to other objects. -/
inductive Reached (net : NetApi) (serial : ℕ) (peers : List AioVpn.Peer) : Resolver → Prop where
  | created (r : Resolver) (h : ∀ i, r.cache (serial, i) = {}) : Reached net serial peers r
  | called (env : DnsEnv) (i : ℕ) (peer : AioVpn.Peer) (ep : InetEndpoint) (r : Resolver)
      (hpeer : peers[i]? = some peer) (hep : peer.endpoint = some ep)
      (h : Reached net serial peers r) :
      Reached net serial peers (getResolved net env (serial, i) ep r).2
  | elsewhere (r r' : Resolver) (hsame : ∀ i, r'.cache (serial, i) = r.cache (serial, i))
      (h : Reached net serial peers r) : Reached net serial peers r'

/-- The objects hold what they made out of an address. -/
def Genuine (net : NetApi) (serial : ℕ) (peers : List AioVpn.Peer) (r : Resolver) : Prop :=
  ∀ i peer ep, peers[i]? = some peer → peer.endpoint = some ep →
    ∀ ep' ∈ (r.cache (serial, i)).resolved, ∃ a, ep' = ⟨net.getHostAddress a, true, ep.port⟩

section Resolving

variable {net : NetApi} (env : DnsEnv) {serial : ℕ} {peers : List AioVpn.Peer} {r : Resolver}

theorem Genuine.getResolved (h : Genuine net serial peers r) {i : ℕ} {peer : AioVpn.Peer}
    {ep : InetEndpoint} (hpeer : peers[i]? = some peer) (hep : peer.endpoint = some ep) :
    Genuine net serial peers (getResolved net env (serial, i) ep r).2 := by
  rw [Endpoints.getResolved]
  split
  · exact h
  · intro j peer' ep₁ hpeer' hep₁ ep' hep'
    dsimp only at hep'
    by_cases hij : (serial, j) = (serial, i)
    · obtain rfl : j = i := (Prod.mk.inj hij).2
      obtain rfl : peer' = peer := Option.some.inj (hpeer'.symm.trans hpeer)
      obtain rfl : ep₁ = ep := Option.some.inj (hep₁.symm.trans hep)
      rw [Function.update_self] at hep'
      split at hep'
      · split at hep'
        · exact ⟨_, (Option.some.inj hep').symm⟩
        · exact absurd hep' (by simp)
      · exact h j peer' ep₁ hpeer' hep₁ ep' hep'
    · rw [Function.update_of_ne hij] at hep'
      exact h j peer' ep₁ hpeer' hep₁ ep' hep'

/-- **What the objects can hold.** -/
theorem Reached.genuine (h : Reached net serial peers r) : Genuine net serial peers r := by
  induction h with
  | created r h =>
    intro i peer ep _ _ ep' hep'
    rw [h i] at hep'
    exact absurd hep' (by simp)
  | called env i peer ep r hpeer hep _ ih => exact ih.getResolved env hpeer hep
  | elsewhere r r' hsame _ ih =>
    intro i peer ep hpeer hep ep' hep'
    rw [hsame i] at hep'
    exact ih i peer ep hpeer hep ep' hep'

/-- Every endpoint has an answer. -/
def AllResolved (net : NetApi) (env : DnsEnv) (serial : ℕ) (peers : List AioVpn.Peer)
    (r : Resolver) : Prop :=
  ∀ x ∈ peers.zip (resolutions net env serial 0 peers r),
    x.1.endpoint.isSome = true → x.2.isSome = true

/-- What an endpoint resolves to: itself if it is numeric, else an address with its port. -/
def ResolvesTo (net : NetApi) (ep ep' : InetEndpoint) : Prop :=
  if ep.isResolved then ep' = ep else ∃ a, ep' = ⟨net.getHostAddress a, true, ep.port⟩

/-- The answer belongs to the peer. -/
def IsAnswer (net : NetApi) (peer : AioVpn.Peer) (answer : Option InetEndpoint) : Prop :=
  ∀ ep' ∈ answer, ∃ ep ∈ peer.endpoint, ResolvesTo net ep ep'

theorem Genuine.resolvesTo (h : Genuine net serial peers r) {i : ℕ} {peer : AioVpn.Peer}
    {ep ep' : InetEndpoint} (hpeer : peers[i]? = some peer) (hep : peer.endpoint = some ep)
    (hep' : (Endpoints.getResolved net env (serial, i) ep r).1 = some ep') :
    ResolvesTo net ep ep' := by
  have hnext := h.getResolved env hpeer hep i peer ep hpeer hep
  rw [Endpoints.getResolved] at hep' hnext
  rw [ResolvesTo]
  by_cases hres : ep.isResolved = true
  · rw [if_pos hres] at hep' ⊢
    exact (Option.some.inj hep').symm
  · rw [if_neg hres] at hep' hnext ⊢
    refine hnext ep' ?_
    dsimp only
    rw [Function.update_self]
    exact hep'

theorem getElem?_of_drop {i : ℕ} {peer : AioVpn.Peer} {rest : List AioVpn.Peer}
    (h : peers.drop i = peer :: rest) : peers[i]? = some peer ∧ peers.drop (i + 1) = rest :=
  ⟨by rw [← List.head?_drop, h, List.head?_cons], by rw [← List.tail_drop, h, List.tail_cons]⟩

/-- The answers for the peers from the `i`-th on. -/
theorem Genuine.isAnswer (h : Genuine net serial peers r) (i : ℕ) {rest : List AioVpn.Peer}
    (hrest : peers.drop i = rest) :
    List.Forall₂ (IsAnswer net) rest (resolutions net env serial i rest r) := by
  induction rest generalizing i r with
  | nil => exact .nil
  | cons peer rest ih =>
    obtain ⟨hpeer, hnext⟩ := getElem?_of_drop hrest
    rw [resolutions]
    cases hep : peer.endpoint with
    | none => exact .cons (fun ep' hep' => absurd hep' (by simp)) (ih h (i + 1) hnext)
    | some ep =>
      refine .cons (fun ep' hep' => ⟨ep, hep, h.resolvesTo env hpeer hep hep'⟩) ?_
      exact ih (h.getResolved env hpeer hep) (i + 1) hnext

end Resolving

/-! ## The lines of the text -/

/-- The lines of the device. -/
def deviceEntries (i : Interface) : List Entry :=
  (jstr "private_key", i.privateKey.toHex) ::
    (i.listenPort.toList.map fun lp => (jstr "listen_port", decimal lp)) ++
      [(jstr "replace_peers", jstr "true")]

/-- The lines of a peer, behind the first. -/
def peerEntries (net : NetApi) (peer : AioVpn.Peer) (resolved : Option InetEndpoint) :
    List Entry :=
  (peer.allowedIps.elems.map fun n => (jstr "allowed_ip", n.toJString net)) ++
    ((resolved.toList.map fun ep => (jstr "endpoint", ep.toJString)) ++
      ((peer.persistentKeepalive.toList.map fun pk =>
          (jstr "persistent_keepalive_interval", decimal pk)) ++
        peer.preSharedKey.toList.map fun psk => (jstr "preshared_key", psk.toHex)))

/-- The lines of a peer. -/
def peerSection (net : NetApi) (x : AioVpn.Peer × Option InetEndpoint) : Entry × List Entry :=
  ((jstr "public_key", x.1.publicKey.toHex), peerEntries net x.1 x.2)

theorem keyValue_eq (key : String) (value : JString) :
    keyValue key value = Entry.text (jstr key, value) := rfl

theorem elim_keyValue {α : Type} (o : Option α) (key : String) (f : α → JString) :
    (o.elim [] fun a => keyValue key (f a)) =
      (o.toList.map fun a => (jstr key, f a)).flatMap Entry.text := by
  cases o with
  | none => rfl
  | some a => rw [Option.elim_some, keyValue_eq, Option.toList_some, List.map_singleton,
      List.flatMap_singleton]

theorem peerString_eq (net : NetApi) (peer : AioVpn.Peer) (resolved : Option InetEndpoint) :
    peerString net peer resolved =
      ((peerSection net (peer, resolved)).1 :: (peerSection net (peer, resolved)).2).flatMap
        Entry.text := by
  rw [peerString, elim_keyValue, elim_keyValue, elim_keyValue, peerSection, peerEntries,
    List.flatMap_cons, List.flatMap_append, List.flatMap_append, List.flatMap_append]
  simp only [keyValue_eq, List.append_assoc, List.flatMap_map]

/-- **The text, line by line.** -/
theorem toWgUserspaceString_eq (net : NetApi) (env : DnsEnv) (serial : ℕ) (c : Config)
    (r : Resolver) :
    (toWgUserspaceString net env serial c r).1 =
      (deviceEntries c.interfaze ++ unblocks ((c.peers.zip
        (resolutions net env serial 0 c.peers r)).map (peerSection net))).flatMap Entry.text := by
  have hdevice : interfaceString c.interfaze ++ keyValue "replace_peers" (jstr "true") =
      (deviceEntries c.interfaze).flatMap Entry.text := by
    rw [interfaceString, elim_keyValue, deviceEntries, keyValue_eq, keyValue_eq]
    simp only [List.flatMap_cons, List.flatMap_append, List.flatMap_nil, List.append_nil,
      List.append_assoc, List.cons_append]
  rw [toWgUserspaceString]
  dsimp only
  rw [peersString_eq, hdevice, List.flatMap_append, unblocks, List.flatMap_map,
    List.flatMap_assoc]
  simp only [peerString_eq]

/-! ## The values fit on a line -/

/-- The keys besides `public_key`. -/
def keys : List JString :=
  [jstr "private_key", jstr "listen_port", jstr "replace_peers", jstr "allowed_ip",
    jstr "endpoint", jstr "persistent_keepalive_interval", jstr "preshared_key"]

theorem isPlain_line {key value : JString}
    (hkey : (key.all fun c => c ≠ ch '=' && c ≠ ch '\n') = true)
    (hvalue : ∀ c ∈ value, 0x20 < c.toNat) : Entry.IsPlain (key, value) := by
  have hne : ∀ c ∈ key, c ≠ ch '=' ∧ c ≠ ch '\n' := fun c hc => by
    simpa using List.all_eq_true.mp hkey c hc
  refine ⟨fun hc => (hne _ hc).1 rfl, fun hc => (hne _ hc).2 rfl, fun hc => ?_⟩
  exact absurd (hvalue _ hc) (by decide)

theorem line_of_mem_keys {key value : JString} (hkey : key ∈ keys)
    (hvalue : ∀ c ∈ value, 0x20 < c.toNat) :
    startsPeer (key, value) = false ∧ Entry.IsPlain (key, value) := by
  have hkeys : keys.all (fun key => key ≠ jstr "public_key" &&
      key.all fun c => c ≠ ch '=' && c ≠ ch '\n') = true := by decide
  have hkey := List.all_eq_true.mp hkeys key hkey
  rw [Bool.and_eq_true] at hkey
  refine ⟨?_, isPlain_line hkey.2 hvalue⟩
  rw [startsPeer, decide_eq_false_iff_not]
  exact of_decide_eq_true hkey.1

theorem plain_toHex (k : Key) : ∀ c ∈ k.toHex, 0x20 < c.toNat := by
  have hdigits : ∀ v : BitVec 4, 0x20 < (Rfc4648.base16Char v).toNat := by decide
  intro c hc
  rw [Key.toHex_eq, Rfc4648.base16, List.mem_flatMap] at hc
  obtain ⟨b, -, hc⟩ := hc
  simp only [Rfc4648.base16Pair, List.mem_cons, List.not_mem_nil, or_false] at hc
  rcases hc with rfl | rfl
  · exact hdigits _
  · exact hdigits _

theorem plain_decimal {n : ℤ} (hn : 0 ≤ n) : ∀ c ∈ decimal n, 0x20 < c.toNat := fun _ hc =>
  (plain_of_mem_decimal hn hc).1

/-! ### The endpoint -/

/-- The host of an endpoint that was read, or that an endpoint resolved to. -/
theorem plain_host {net : NetApi} (hnet : net.Documented) {s : JString} {ep ep' : InetEndpoint}
    (hep : InetEndpoint.parse net s = .ok ep) (hep' : ResolvesTo net ep ep') :
    (∀ c ∈ ep'.host, 0x20 < c.toNat) ∧ 0 ≤ ep'.port ∧ ep'.port ≤ 65535 := by
  obtain ⟨huri, hlow, hhigh, -⟩ := InetEndpoint.of_parse hep
  rw [ResolvesTo] at hep'
  split_ifs at hep'
  · subst hep'
    exact ⟨fun c hc => (hnet.uri_host_plain _ _ _ huri c hc).1, hlow, hhigh⟩
  · obtain ⟨a, rfl⟩ := hep'
    exact ⟨fun c hc => (hnet.getHostAddress_plain a c hc).1, hlow, hhigh⟩

/-- The host as it is printed. -/
def printedHost (ep : InetEndpoint) : JString :=
  if ep.isResolved && InetEndpoint.isBareIpv6 ep.host then [ch '['] ++ ep.host ++ [ch ']']
  else ep.host

theorem toJString_eq_printedHost (ep : InetEndpoint) :
    ep.toJString = printedHost ep ++ ch ':' :: decimal ep.port := by
  rw [InetEndpoint.toJString, ← printedHost, List.append_assoc, List.singleton_append]

/-- The brackets around an address are not part of it. -/
theorem unbracket_printedHost (ep : InetEndpoint) :
    unbracket (printedHost ep) = unbracket ep.host := by
  rw [printedHost]
  split_ifs with hbare
  · simp only [InetEndpoint.isBareIpv6, Bool.and_eq_true, decide_eq_true_eq] at hbare
    obtain ⟨-, ⟨-, hopen⟩, -⟩ := hbare
    have hhead : ep.host.head? ≠ some (ch '[') := fun h => hopen (List.mem_of_head? h)
    rw [unbracket, unbracket, if_pos ⟨rfl, List.getLast?_concat⟩, if_neg fun h => hhead h.1,
      List.append_assoc, List.singleton_append, List.tail_cons, List.dropLast_concat]
  · rfl

theorem plain_toJString_of {ep : InetEndpoint} (hhost : ∀ c ∈ ep.host, 0x20 < c.toNat)
    (hport : 0 ≤ ep.port) : ∀ c ∈ ep.toJString, 0x20 < c.toNat := by
  intro c hc
  rw [toJString_eq_printedHost, List.mem_append, List.mem_cons] at hc
  rcases hc with hc | rfl | hc
  · rw [printedHost] at hc
    split_ifs at hc
    · rw [List.mem_append, List.mem_append, List.mem_singleton, List.mem_singleton] at hc
      rcases hc with (rfl | hc) | rfl
      · decide
      · exact hhost c hc
      · decide
    · exact hhost c hc
  · decide
  · exact plain_decimal hport c hc

/-- **An endpoint is read back.** -/
theorem readEndpoint_toJString {ep : InetEndpoint} (hlow : 0 ≤ ep.port) (hhigh : ep.port ≤ 65535) :
    readEndpoint ep.toJString = some (unbracket ep.host, ep.port) := by
  have hrev : ep.toJString.reverse =
      (decimal ep.port).reverse ++ ch ':' :: (printedHost ep).reverse := by
    rw [toJString_eq_printedHost, List.reverse_append, List.reverse_cons, List.append_assoc,
      List.singleton_append]
  have hdigits : ∀ c ∈ (decimal ep.port).reverse, decide (c ≠ ch ':') = true := by
    intro c hc
    rw [decide_eq_true_eq]
    rintro rfl
    exact notMem_decimal hlow (by decide) (List.mem_reverse.mp hc)
  rw [readEndpoint, hrev, List.takeWhile_append_of_pos hdigits,
    List.dropWhile_append_of_pos hdigits, List.takeWhile_cons_of_neg (by simp),
    List.dropWhile_cons_of_neg (by simp)]
  dsimp only
  rw [List.append_nil, List.reverse_reverse, List.reverse_reverse,
    parseInt_decimal hlow (by omega), Option.map_some, unbracket_printedHost]

/-! ## Reading the lines -/

/-- The settings of a peer, given its resolved endpoint. -/
def settings (peer : AioVpn.Peer) (resolved : Option InetEndpoint) : Uapi.Peer where
  publicKey := peer.publicKey
  allowedIps := peer.allowedIps.elems
  endpoint := resolved.map fun ep => (unbracket ep.host, ep.port)
  persistentKeepalive := peer.persistentKeepalive
  presharedKey := peer.preSharedKey

theorem readKey_toHex (k : Key) : readKey k.toHex = some k := by
  rw [readKey, Key.fromHex_toHex]
  rfl

section Folds

variable {net : NetApi} (p : Uapi.Peer)

/-- A setting that may be missing. -/
theorem foldlM_optional {α β : Type} (f : β → Entry → Option β) (b : β) (o : Option α)
    (g : α → Entry) : (o.toList.map g).foldlM f b = o.elim (some b) fun a => f b (g a) := by
  cases o with
  | none => rfl
  | some a =>
    rw [Option.toList_some, List.map_singleton, List.foldlM_cons, Option.elim_some]
    simp only [List.foldlM_nil, Option.pure_def, Option.bind_eq_bind, Option.bind_fun_some]

/-- **The lines of the device are read back.** -/
theorem foldlM_deviceEntries {i : Interface} (hport : ∀ n ∈ i.listenPort, 0 < n ∧ n ≤ 65535) :
    (deviceEntries i).foldlM readDeviceEntry {} =
      some ⟨some i.privateKey, i.listenPort, true⟩ := by
  have hkey : readDeviceEntry {} (jstr "private_key", i.privateKey.toHex) =
      some { privateKey := some i.privateKey } := by
    rw [readDeviceEntry, if_pos rfl, readKey_toHex]
    rfl
  have hlisten : (i.listenPort.elim (some { privateKey := some i.privateKey }) fun lp =>
      readDeviceEntry { privateKey := some i.privateKey } (jstr "listen_port", decimal lp)) =
      some ⟨some i.privateKey, i.listenPort, false⟩ := by
    cases hlp : i.listenPort with
    | none => rfl
    | some lp =>
      obtain ⟨hlow, hhigh⟩ := hport lp hlp
      rw [Option.elim_some, readDeviceEntry_listenPort,
        parseInt_decimal (by omega) (by omega)]
      rfl
  have hreplace : readDeviceEntry ⟨some i.privateKey, i.listenPort, false⟩
      (jstr "replace_peers", jstr "true") = some ⟨some i.privateKey, i.listenPort, true⟩ := by
    rw [readDeviceEntry, if_neg (by decide), if_neg (by decide), if_pos rfl, if_pos ⟨rfl, rfl⟩]
  rw [deviceEntries, List.cons_append, List.foldlM_cons, hkey, Option.bind_eq_bind,
    Option.bind_some, List.foldlM_append, foldlM_optional, hlisten, Option.bind_eq_bind,
    Option.bind_some, List.foldlM_cons, hreplace]
  rfl

theorem foldlM_allowedIps {ns : List InetNetwork}
    (hns : ∀ n ∈ ns, readNetwork net (n.toJString net) = some n) :
    (ns.map fun n => (jstr "allowed_ip", n.toJString net)).foldlM (readPeerEntry net) p =
      some { p with allowedIps := p.allowedIps ++ ns } := by
  induction ns generalizing p with
  | nil =>
    rw [List.append_nil]
    rfl
  | cons n ns ih =>
    have hstep : readPeerEntry net p (jstr "allowed_ip", n.toJString net) =
        some { p with allowedIps := p.allowedIps ++ [n] } := by
      rw [readPeerEntry, if_pos rfl, hns n List.mem_cons_self, Option.map_some]
    rw [List.map_cons, List.foldlM_cons, hstep, Option.bind_eq_bind, Option.bind_some,
      ih _ fun m hm => hns m (List.mem_cons_of_mem _ hm)]
    dsimp only
    rw [List.append_assoc, List.singleton_append]

theorem elim_endpoint {o : Option InetEndpoint} (hp : p.endpoint = none)
    (ho : ∀ ep ∈ o, 0 ≤ ep.port ∧ ep.port ≤ 65535) :
    (o.elim (some p) fun ep => readPeerEntry net p (jstr "endpoint", ep.toJString)) =
      some { p with endpoint := o.map fun ep => (unbracket ep.host, ep.port) } := by
  cases o with
  | none => rw [Option.elim_none, Option.map_none, ← hp]
  | some ep =>
    obtain ⟨hlow, hhigh⟩ := ho ep rfl
    rw [Option.elim_some, readPeerEntry_endpoint, hp, readEndpoint_toJString hlow hhigh]
    rfl

theorem elim_persistentKeepalive {o : Option ℤ} (hp : p.persistentKeepalive = none)
    (ho : ∀ n ∈ o, 0 < n ∧ n ≤ 65535) :
    (o.elim (some p) fun n =>
        readPeerEntry net p (jstr "persistent_keepalive_interval", decimal n)) =
      some { p with persistentKeepalive := o } := by
  cases o with
  | none => rw [Option.elim_none, ← hp]
  | some n =>
    obtain ⟨hlow, hhigh⟩ := ho n rfl
    rw [Option.elim_some, readPeerEntry_persistentKeepalive, hp,
      parseInt_decimal (by omega) (by omega)]
    rfl

theorem elim_presharedKey {o : Option Key} (hp : p.presharedKey = none) :
    (o.elim (some p) fun k => readPeerEntry net p (jstr "preshared_key", k.toHex)) =
      some { p with presharedKey := o } := by
  cases o with
  | none => rw [Option.elim_none, ← hp]
  | some k =>
    rw [Option.elim_some, readPeerEntry_presharedKey, hp, readKey_toHex]
    rfl

end Folds

section Read

variable {net : NetApi} (hnet : net.Documented) {peer : AioVpn.Peer}
  (hpeer : peer.builder.Readable net) {answer : Option InetEndpoint}
  (hanswer : IsAnswer net peer answer)

include hnet hpeer hanswer

theorem plain_of_isAnswer : ∀ ep' ∈ answer,
    (∀ c ∈ ep'.host, 0x20 < c.toNat) ∧ 0 ≤ ep'.port ∧ ep'.port ≤ 65535 := by
  intro ep' hep'
  obtain ⟨ep, hep, hresolves⟩ := hanswer ep' hep'
  obtain ⟨s, hs⟩ := hpeer.endpoint ep hep
  exact plain_host hnet hs hresolves

/-- **The lines of a peer are read back.** -/
theorem readPeer_peerSection :
    readPeer net (peerSection net (peer, answer)) = some (settings peer answer) := by
  have hips : ∀ n ∈ peer.allowedIps.elems, readNetwork net (n.toJString net) = some n := by
    intro n hn
    obtain ⟨s, hs⟩ := hpeer.allowedIps n hn
    rw [readNetwork, InetNetwork.parse_toJString hnet hs]
    rfl
  have hports : ∀ ep ∈ answer, 0 ≤ ep.port ∧ ep.port ≤ 65535 := fun ep hep =>
    (plain_of_isAnswer hnet hpeer hanswer ep hep).2
  have hkeepalive : ∀ n ∈ peer.persistentKeepalive, 0 < n ∧ n ≤ 65535 := hpeer.persistentKeepalive
  rw [readPeer, peerSection, readKey_toHex, Option.bind_some, peerEntries, List.foldlM_append,
    foldlM_allowedIps _ hips, Option.bind_eq_bind, Option.bind_some, List.foldlM_append,
    foldlM_optional, elim_endpoint _ rfl hports, Option.bind_eq_bind, Option.bind_some,
    List.foldlM_append, foldlM_optional, elim_persistentKeepalive _ rfl hkeepalive,
    Option.bind_eq_bind, Option.bind_some, foldlM_optional, elim_presharedKey _ rfl]
  rfl

/-- The lines of a peer, as lines. -/
theorem isPlain_peerSection :
    startsPeer (peerSection net (peer, answer)).1 = true ∧
      (∀ e ∈ (peerSection net (peer, answer)).2, startsPeer e = false) ∧
      ∀ e ∈ (peerSection net (peer, answer)).1 :: (peerSection net (peer, answer)).2,
        e.IsPlain := by
  have hlines : ∀ e ∈ peerEntries net peer answer, startsPeer e = false ∧ e.IsPlain := by
    intro e he
    simp only [peerEntries, List.mem_append, List.mem_map, Option.mem_toList] at he
    rcases he with ⟨n, hn, rfl⟩ | ⟨ep, hep, rfl⟩ | ⟨n, hn, rfl⟩ | ⟨k, -, rfl⟩
    · obtain ⟨s, hs⟩ := hpeer.allowedIps n hn
      exact line_of_mem_keys (by decide) fun c hc =>
        ((InetNetwork.plain_toJString hnet hs).2 c hc).1
    · obtain ⟨hhost, hlow, -⟩ := plain_of_isAnswer hnet hpeer hanswer ep hep
      exact line_of_mem_keys (by decide) (plain_toJString_of hhost hlow)
    · obtain ⟨hlow, -⟩ := hpeer.persistentKeepalive n hn
      exact line_of_mem_keys (by decide) (plain_decimal (by omega))
    · exact line_of_mem_keys (by decide) (plain_toHex k)
  refine ⟨rfl, fun e he => (hlines e he).1, ?_⟩
  intro e he
  rcases List.mem_cons.mp he with rfl | he
  · exact isPlain_line (by decide) (plain_toHex _)
  · exact (hlines e he).2

end Read

theorem line_of_mem_deviceEntries {i : Interface} (hport : ∀ n ∈ i.listenPort, 0 < n ∧ n ≤ 65535) :
    ∀ e ∈ deviceEntries i, startsPeer e = false ∧ e.IsPlain := by
  intro e he
  simp only [deviceEntries, List.cons_append, List.mem_cons, List.mem_append, List.mem_map,
    Option.mem_toList, List.not_mem_nil, or_false] at he
  rcases he with rfl | ⟨n, hn, rfl⟩ | rfl
  · exact line_of_mem_keys (by decide) (plain_toHex _)
  · obtain ⟨hlow, -⟩ := hport n hn
    exact line_of_mem_keys (by decide) (plain_decimal (by omega))
  · exact line_of_mem_keys (by decide) (List.forall_mem_iff_forall_getElem.mpr (by decide))

/-! ## The text is read back -/

section ReadBack

variable {net : NetApi} (hnet : net.Documented) {text : JString} {c : Config}
  (hparse : Config.parse net text = .ok c) (env : DnsEnv) {serial : ℕ} {r : Resolver}
  (hr : Reached net serial c.peers r)

include hnet hparse hr

theorem read_toWgUserspaceString :
    Uapi.read net (toWgUserspaceString net env serial c r).1 =
      some (⟨some c.interfaze.privateKey, c.interfaze.listenPort, true⟩,
        List.zipWith settings c.peers (resolutions net env serial 0 c.peers r)) := by
  obtain ⟨hi, hpeers⟩ := Config.readable_of_parse hparse
  have hport : ∀ n ∈ c.interfaze.listenPort, 0 < n ∧ n ≤ 65535 := hi.listenPort
  have hanswers : List.Forall₂ (IsAnswer net) c.peers _ := hr.genuine.isAnswer env 0 rfl
  have hpairs : ∀ x ∈ c.peers.zip (resolutions net env serial 0 c.peers r),
      x.1.builder.Readable net ∧ IsAnswer net x.1 x.2 := fun x hx =>
    ⟨hpeers _ (List.of_mem_zip hx).1, List.forall₂_iff_zip.mp hanswers |>.2 hx⟩
  have hsections : ∀ b ∈ (c.peers.zip (resolutions net env serial 0 c.peers r)).map
      (peerSection net), startsPeer b.1 = true ∧ (∀ e ∈ b.2, startsPeer e = false) ∧
        ∀ e ∈ b.1 :: b.2, e.IsPlain := by
    intro b hb
    obtain ⟨x, hx, rfl⟩ := List.mem_map.mp hb
    exact isPlain_peerSection hnet (hpairs x hx).1 (hpairs x hx).2
  have hplain : ∀ e ∈ deviceEntries c.interfaze ++ unblocks ((c.peers.zip
      (resolutions net env serial 0 c.peers r)).map (peerSection net)), e.IsPlain := by
    intro e he
    rcases List.mem_append.mp he with he | he
    · exact (line_of_mem_deviceEntries hport e he).2
    · obtain ⟨b, hb, he⟩ := List.mem_flatMap.mp he
      exact (hsections b hb).2.2 e he
  rw [toWgUserspaceString_eq, read_sections net hplain
      (fun e he => (line_of_mem_deviceEntries hport e he).1)
      fun b hb => ⟨(hsections b hb).1, (hsections b hb).2.1⟩,
    foldlM_deviceEntries hport, Option.bind_some,
    mapM_map fun x hx => readPeer_peerSection hnet (hpairs x hx).1 (hpairs x hx).2,
    Option.map_some, List.map_zip_eq_zipWith]
  rfl

/-- **The userspace encoding loses and injects nothing.**  The text is read back as the settings of
the configuration with the resolved endpoints, so that any other configuration with the same text
has the same settings. -/
theorem userspace_string_read_back (hall : AllResolved net env serial c.peers r) :
    List.Forall₂ (fun peer answer => IsAnswer net peer answer ∧
        (peer.endpoint.isSome = true → answer.isSome = true))
      c.peers (resolutions net env serial 0 c.peers r) ∧
      Uapi.read net (toWgUserspaceString net env serial c r).1 =
        some (⟨some c.interfaze.privateKey, c.interfaze.listenPort, true⟩,
          List.zipWith settings c.peers (resolutions net env serial 0 c.peers r)) ∧
      ∀ text' c' env' serial' r', Config.parse net text' = .ok c' →
        Reached net serial' c'.peers r' → AllResolved net env' serial' c'.peers r' →
        (toWgUserspaceString net env' serial' c' r').1 =
          (toWgUserspaceString net env serial c r).1 →
        c'.interfaze.privateKey = c.interfaze.privateKey ∧
          c'.interfaze.listenPort = c.interfaze.listenPort ∧
          List.zipWith settings c'.peers (resolutions net env' serial' 0 c'.peers r') =
            List.zipWith settings c.peers (resolutions net env serial 0 c.peers r) := by
  have hanswers : List.Forall₂ (IsAnswer net) c.peers _ := hr.genuine.isAnswer env 0 rfl
  have hread := read_toWgUserspaceString hnet hparse env hr
  refine ⟨?_, hread, ?_⟩
  · rw [List.forall₂_iff_zip] at hanswers ⊢
    exact ⟨hanswers.1, fun hx => ⟨hanswers.2 hx, hall _ hx⟩⟩
  · intro text' c' env' serial' r' hparse' hr' _ htext
    have hread' := read_toWgUserspaceString hnet hparse' env' hr'
    rw [htext, hread] at hread'
    obtain ⟨hdevice, hpeers⟩ := Prod.mk.inj (Option.some.inj hread')
    obtain ⟨hkey, hport, -⟩ := Uapi.Device.mk.inj hdevice
    exact ⟨(Option.some.inj hkey).symm, hport.symm, hpeers.symm⟩

end ReadBack

/-- A resolver that knows an address of every host. -/
def sampleDns : DnsEnv where
  getAllByName _ _ := some (.inet4 0x01010101, [])

theorem sample_userspace_string_read_back :
    Uapi.read sampleNet (toWgUserspaceString sampleNet sampleDns 0 Config.sampleConfig {}).1 =
      some (⟨some Config.sampleKey, some 51820, true⟩,
        [{ publicKey := Config.sampleKey
           allowedIps := [⟨.inet4 0x0a000002, 32⟩, ⟨.inet4 0x01010101, 0⟩]
           endpoint := some (jstr "1.1.1.1", 51820)
           persistentKeepalive := some 25 }]) := by
  have hall : AllResolved sampleNet sampleDns 0 Config.sampleConfig.peers {} := by
    intro x hx _
    obtain rfl := List.mem_singleton.mp hx
    rfl
  exact (userspace_string_read_back sampleNet_documented Config.parse_sampleText sampleDns
    (.created {} fun _ => rfl) hall).2.1

end Endpoints
end AioVpn
