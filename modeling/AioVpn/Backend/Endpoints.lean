import AioVpn.Backend.VpnBuilder

/-!
# Resolving the endpoints of a configuration

`InetEndpoint.getResolved`, the retry loop of `GoBackend.setStateInternal` that
calls it, and `Config.toWgUserspaceString`, which calls it once more for every
peer.

An endpoint object keeps the result of its last successful lookup and asks again
when that is more than a minute old, in whole minutes.  The objects belong to a
configuration object, so the cache of an endpoint is addressed by the serial number
of the configuration and the position of the peer.  The clock and the resolver are
the environment `DnsEnv`, which answers the calls of `getResolved` in the order
they are made.
-/

namespace AioVpn

/-- The mutable fields of an `InetEndpoint`. -/
structure EndpointCache where
  /-- The time of the last successful lookup, in seconds. -/
  lastResolution : ℤ := 0
  resolved : Option InetEndpoint := none

/-- The clock and the resolver, as the calls of `getResolved` see them in order. -/
structure DnsEnv where
  /-- `Instant.now()` when the call starts, in seconds. -/
  now : ℕ → ℤ := fun _ => 1700000000
  /-- `Instant.now()` after a successful lookup. -/
  after : ℕ → ℤ := fun _ => 1700000000
  /-- `InetAddress.getAllByName`: the first address and the others; `none` is an
  `UnknownHostException`. -/
  getAllByName : ℕ → JString → Option (InetAddress × List InetAddress) := fun _ _ => none

/-- The endpoint objects, and how often `getResolved` has been called. -/
structure Resolver where
  calls : ℕ := 0
  /-- The cache of the endpoint of a configuration's peer. -/
  cache : ℕ × ℕ → EndpointCache := fun _ => {}

namespace Endpoints

/-- The address a lookup settles on: the first IPv4 address, else the first. -/
def preferred (candidates : InetAddress × List InetAddress) : InetAddress :=
  ((candidates.1 :: candidates.2).find? InetAddress.isInet4).getD candidates.1

/-- `InetEndpoint.getResolved`. -/
def getResolved (net : NetApi) (env : DnsEnv) (ref : ℕ × ℕ) (ep : InetEndpoint) (r : Resolver) :
    Option InetEndpoint × Resolver :=
  if ep.isResolved then (some ep, { r with calls := r.calls + 1 })
  else
    let entry := r.cache ref
    let entry' : EndpointCache :=
      if (env.now r.calls - entry.lastResolution) / 60 > 1 then
        match env.getAllByName r.calls ep.host with
        | some candidates =>
            ⟨env.after r.calls,
              some ⟨net.getHostAddress (preferred candidates), true, ep.port⟩⟩
        | none => { entry with resolved := none }
      else entry
    (entry'.resolved, ⟨r.calls + 1, Function.update r.cache ref entry'⟩)

/-- One pass over the peers: the host that does not resolve, if there is one. -/
def resolvePass (net : NetApi) (env : DnsEnv) (serial : ℕ) :
    ℕ → List Peer → Resolver → Option JString × Resolver
  | _, [], r => (none, r)
  | i, peer :: peers, r =>
      match peer.endpoint with
      | none => resolvePass net env serial (i + 1) peers r
      | some ep =>
          match getResolved net env (serial, i) ep r with
          | (some _, r) => resolvePass net env serial (i + 1) peers r
          | (none, r) => (some ep.host, r)

/-- `DNS_RESOLUTION_RETRIES`. -/
def dnsResolutionRetries : ℕ := 10

/-- The loop `dnsRetry`, with the passes that are left. -/
def dnsRetry (net : NetApi) (env : DnsEnv) (serial : ℕ) (peers : List Peer) :
    ℕ → Resolver → Except Exn Unit × Resolver
  | 0, r => (.ok (), r)
  | passes + 1, r =>
      match resolvePass net env serial 0 peers r with
      | (none, r) => (.ok (), r)
      | (some host, r) =>
          if passes = 0 then (.error (.backend (.dnsResolutionFailure host)), r)
          else dnsRetry net env serial peers passes r

/-- One `key=value` line. -/
def keyValue (key : String) (value : JString) : JString :=
  jstr key ++ [ch '='] ++ value ++ [ch '\n']

/-- `Interface.toWgUserspaceString`. -/
def interfaceString (i : Interface) : JString :=
  keyValue "private_key" i.privateKey.toHex ++
    (i.listenPort.elim [] fun lp => keyValue "listen_port" (decimal lp))

/-- `Peer.toWgUserspaceString`, given the resolved endpoint. -/
def peerString (net : NetApi) (peer : Peer) (resolved : Option InetEndpoint) : JString :=
  keyValue "public_key" peer.publicKey.toHex ++
    (peer.allowedIps.elems.flatMap fun n => keyValue "allowed_ip" (n.toJString net)) ++
    (resolved.elim [] fun ep => keyValue "endpoint" ep.toJString) ++
    (peer.persistentKeepalive.elim [] fun pk =>
      keyValue "persistent_keepalive_interval" (decimal pk)) ++
    (peer.preSharedKey.elim [] fun psk => keyValue "preshared_key" psk.toHex)

/-- The peers of `Config.toWgUserspaceString`; every endpoint is resolved again. -/
def peersString (net : NetApi) (env : DnsEnv) (serial : ℕ) :
    ℕ → List Peer → Resolver → JString × Resolver
  | _, [], r => ([], r)
  | i, peer :: peers, r =>
      match peer.endpoint with
      | none =>
          let (rest, r) := peersString net env serial (i + 1) peers r
          (peerString net peer none ++ rest, r)
      | some ep =>
          let (resolved, r) := getResolved net env (serial, i) ep r
          let (rest, r) := peersString net env serial (i + 1) peers r
          (peerString net peer resolved ++ rest, r)

/-- `Config.toWgUserspaceString`. -/
def toWgUserspaceString (net : NetApi) (env : DnsEnv) (serial : ℕ) (config : Config)
    (r : Resolver) : JString × Resolver :=
  let (peers, r) := peersString net env serial 0 config.peers r
  (interfaceString config.interfaze ++ keyValue "replace_peers" (jstr "true") ++ peers, r)

end Endpoints
end AioVpn
