import AioVpn.Config.Inet

/-!
# The sections of a configuration

`Interface` and `Peer` of `com.wireguard.config`, with their builders.  A section
is a list of lines; each line is read as an attribute, the key selects a builder
method ignoring case, and `build` checks what has to be present.

The check of `Interface.Builder.build` that included and excluded applications do
not occur together is a field of `Interface`: no value of the type violates it.
-/

namespace AioVpn

/-! ## The interface -/

/-- `Interface`.  Of the key pair only the private key is kept; the public key is
computed from it. -/
structure Interface where
  addresses : LinkedHashSet InetNetwork
  dnsServers : LinkedHashSet InetAddress
  dnsSearchDomains : LinkedHashSet JString
  /-- The applications kept out of the tunnel. -/
  excludedApplications : LinkedHashSet JString
  /-- The only applications let into the tunnel. -/
  includedApplications : LinkedHashSet JString
  privateKey : Key
  listenPort : Option ℤ
  mtu : Option ℤ
  /-- Applications are not included and excluded at once. -/
  exclusive : includedApplications.isEmpty = true ∨ excludedApplications.isEmpty = true
  deriving DecidableEq

/-- `Interface.Builder`. -/
structure InterfaceBuilder where
  addresses : LinkedHashSet InetNetwork := .empty
  dnsServers : LinkedHashSet InetAddress := .empty
  dnsSearchDomains : LinkedHashSet JString := .empty
  excludedApplications : LinkedHashSet JString := .empty
  includedApplications : LinkedHashSet JString := .empty
  keyPair : Option Key := none
  listenPort : Option ℤ := none
  mtu : Option ℤ := none

namespace InterfaceBuilder

/-- `parseAddresses`. -/
def parseAddresses (net : NetApi) (b : InterfaceBuilder) (addresses : JString) :
    Except BadConfigException InterfaceBuilder :=
  (Attribute.split addresses).foldlM (fun b address =>
    match InetNetwork.parse net address with
    | .ok n => .ok { b with addresses := b.addresses.add n }
    | .error e => .error (.ofParse .interface .address e)) b

/-- `parseDnsServers`: what is not an address has to be a host name, and is a
search domain. -/
def parseDnsServers (net : NetApi) (b : InterfaceBuilder) (dnsServers : JString) :
    Except BadConfigException InterfaceBuilder :=
  (Attribute.split dnsServers).foldlM (fun b dnsServer =>
    match InetAddresses.parse net dnsServer with
    | .ok a => .ok { b with dnsServers := b.dnsServers.add a }
    | .error e =>
        if e.parsingClass ≠ .inetAddress ∨ InetAddresses.isHostname dnsServer = false then
          .error (.ofParse .interface .dns e)
        else .ok { b with dnsSearchDomains := b.dnsSearchDomains.add dnsServer }) b

/-- `parseExcludedApplications`. -/
def parseExcludedApplications (b : InterfaceBuilder) (apps : JString) : InterfaceBuilder :=
  { b with excludedApplications := b.excludedApplications.addAll (Attribute.split apps) }

/-- `parseIncludedApplications`. -/
def parseIncludedApplications (b : InterfaceBuilder) (apps : JString) : InterfaceBuilder :=
  { b with includedApplications := b.includedApplications.addAll (Attribute.split apps) }

/-- `setListenPort`. -/
def setListenPort (b : InterfaceBuilder) (listenPort : ℤ) :
    Except BadConfigException InterfaceBuilder :=
  if listenPort < 0 ∨ listenPort > 65535 then
    .error ⟨.interface, .listenPort, .invalidValue, some (decimal listenPort)⟩
  else .ok { b with listenPort := if listenPort = 0 then none else some listenPort }

/-- `parseListenPort`. -/
def parseListenPort (b : InterfaceBuilder) (listenPort : JString) :
    Except BadConfigException InterfaceBuilder :=
  match JString.parseInt listenPort with
  | some n => b.setListenPort n
  | none => .error (.ofNumber .interface .listenPort listenPort)

/-- `setMtu`; the source reports a negative value under `ListenPort`. -/
def setMtu (b : InterfaceBuilder) (mtu : ℤ) : Except BadConfigException InterfaceBuilder :=
  if mtu < 0 then .error ⟨.interface, .listenPort, .invalidValue, some (decimal mtu)⟩
  else .ok { b with mtu := if mtu = 0 then none else some mtu }

/-- `parseMtu`. -/
def parseMtu (b : InterfaceBuilder) (mtu : JString) : Except BadConfigException InterfaceBuilder :=
  match JString.parseInt mtu with
  | some n => b.setMtu n
  | none => .error (.ofNumber .interface .mtu mtu)

/-- `parsePrivateKey`. -/
def parsePrivateKey (b : InterfaceBuilder) (privateKey : JString) :
    Except BadConfigException InterfaceBuilder :=
  match Key.fromBase64 privateKey with
  | .ok k => .ok { b with keyPair := some k }
  | .error _ => .error (.ofKey .interface .privateKey)

/-- `build`. -/
def build (b : InterfaceBuilder) : Except BadConfigException Interface :=
  match b.keyPair with
  | none => .error ⟨.interface, .privateKey, .missingAttribute, none⟩
  | some key =>
      if h : b.includedApplications.isEmpty = true ∨ b.excludedApplications.isEmpty = true then
        .ok
          { addresses := b.addresses
            dnsServers := b.dnsServers
            dnsSearchDomains := b.dnsSearchDomains
            excludedApplications := b.excludedApplications
            includedApplications := b.includedApplications
            privateKey := key
            listenPort := b.listenPort
            mtu := b.mtu
            exclusive := h }
      else .error ⟨.interface, .includedApplications, .invalidKey, none⟩

end InterfaceBuilder

/-- The attribute keys of an `[Interface]` section. -/
inductive InterfaceKey where
  | address
  | dns
  | excludedApplications
  | includedApplications
  | listenPort
  | mtu
  | privateKey
  deriving DecidableEq

/-- The `switch` over the lower-cased key. -/
def InterfaceKey.ofKey (key : JString) : Option InterfaceKey :=
  let k := JString.toLowerCase key
  if k = jstr "address" then some .address
  else if k = jstr "dns" then some .dns
  else if k = jstr "excludedapplications" then some .excludedApplications
  else if k = jstr "includedapplications" then some .includedApplications
  else if k = jstr "listenport" then some .listenPort
  else if k = jstr "mtu" then some .mtu
  else if k = jstr "privatekey" then some .privateKey
  else none

namespace Interface

/-- What one line does to the builder. -/
def parseLine (net : NetApi) (b : InterfaceBuilder) (line : JString) :
    Except BadConfigException InterfaceBuilder :=
  match Attribute.parse line with
  | none => .error ⟨.interface, .topLevel, .syntaxError, some line⟩
  | some attr =>
      match InterfaceKey.ofKey attr.key with
      | some .address => b.parseAddresses net attr.value
      | some .dns => b.parseDnsServers net attr.value
      | some .excludedApplications => .ok (b.parseExcludedApplications attr.value)
      | some .includedApplications => .ok (b.parseIncludedApplications attr.value)
      | some .listenPort => b.parseListenPort attr.value
      | some .mtu => b.parseMtu attr.value
      | some .privateKey => b.parsePrivateKey attr.value
      | none => .error ⟨.interface, .topLevel, .unknownAttribute, some attr.key⟩

/-- `Interface.parse`. -/
def parse (net : NetApi) (lines : List JString) : Except BadConfigException Interface :=
  (lines.foldlM (parseLine net) {}).bind InterfaceBuilder.build

end Interface

/-! ## Peers -/

/-- `Peer`. -/
structure Peer where
  allowedIps : LinkedHashSet InetNetwork
  endpoint : Option InetEndpoint
  persistentKeepalive : Option ℤ
  preSharedKey : Option Key
  publicKey : Key
  deriving DecidableEq

/-- `Peer.Builder`. -/
structure PeerBuilder where
  allowedIps : LinkedHashSet InetNetwork := .empty
  endpoint : Option InetEndpoint := none
  persistentKeepalive : Option ℤ := none
  preSharedKey : Option Key := none
  publicKey : Option Key := none

namespace PeerBuilder

/-- `parseAllowedIPs`. -/
def parseAllowedIPs (net : NetApi) (b : PeerBuilder) (allowedIps : JString) :
    Except BadConfigException PeerBuilder :=
  (Attribute.split allowedIps).foldlM (fun b allowedIp =>
    match InetNetwork.parse net allowedIp with
    | .ok n => .ok { b with allowedIps := b.allowedIps.add n }
    | .error e => .error (.ofParse .peer .allowedIps e)) b

/-- `parseEndpoint`. -/
def parseEndpoint (net : NetApi) (b : PeerBuilder) (endpoint : JString) :
    Except BadConfigException PeerBuilder :=
  match InetEndpoint.parse net endpoint with
  | .ok ep => .ok { b with endpoint := some ep }
  | .error e => .error (.ofParse .peer .endpoint e)

/-- `setPersistentKeepalive`. -/
def setPersistentKeepalive (b : PeerBuilder) (persistentKeepalive : ℤ) :
    Except BadConfigException PeerBuilder :=
  if persistentKeepalive < 0 ∨ persistentKeepalive > 65535 then
    .error ⟨.peer, .persistentKeepalive, .invalidValue, some (decimal persistentKeepalive)⟩
  else
    .ok { b with persistentKeepalive :=
            if persistentKeepalive = 0 then none else some persistentKeepalive }

/-- `parsePersistentKeepalive`. -/
def parsePersistentKeepalive (b : PeerBuilder) (persistentKeepalive : JString) :
    Except BadConfigException PeerBuilder :=
  match JString.parseInt persistentKeepalive with
  | some n => b.setPersistentKeepalive n
  | none => .error (.ofNumber .peer .persistentKeepalive persistentKeepalive)

/-- `parsePreSharedKey`. -/
def parsePreSharedKey (b : PeerBuilder) (preSharedKey : JString) :
    Except BadConfigException PeerBuilder :=
  match Key.fromBase64 preSharedKey with
  | .ok k => .ok { b with preSharedKey := some k }
  | .error _ => .error (.ofKey .peer .preSharedKey)

/-- `parsePublicKey`. -/
def parsePublicKey (b : PeerBuilder) (publicKey : JString) :
    Except BadConfigException PeerBuilder :=
  match Key.fromBase64 publicKey with
  | .ok k => .ok { b with publicKey := some k }
  | .error _ => .error (.ofKey .peer .publicKey)

/-- `build`. -/
def build (b : PeerBuilder) : Except BadConfigException Peer :=
  match b.publicKey with
  | none => .error ⟨.peer, .publicKey, .missingAttribute, none⟩
  | some key =>
      .ok
        { allowedIps := b.allowedIps
          endpoint := b.endpoint
          persistentKeepalive := b.persistentKeepalive
          preSharedKey := b.preSharedKey
          publicKey := key }

end PeerBuilder

namespace Peer

/-- What one line does to the builder. -/
def parseLine (net : NetApi) (b : PeerBuilder) (line : JString) :
    Except BadConfigException PeerBuilder :=
  match Attribute.parse line with
  | none => .error ⟨.peer, .topLevel, .syntaxError, some line⟩
  | some attr =>
      let k := JString.toLowerCase attr.key
      if k = jstr "allowedips" then b.parseAllowedIPs net attr.value
      else if k = jstr "endpoint" then b.parseEndpoint net attr.value
      else if k = jstr "persistentkeepalive" then b.parsePersistentKeepalive attr.value
      else if k = jstr "presharedkey" then b.parsePreSharedKey attr.value
      else if k = jstr "publickey" then b.parsePublicKey attr.value
      else .error ⟨.peer, .topLevel, .unknownAttribute, some attr.key⟩

/-- `Peer.parse`. -/
def parse (net : NetApi) (lines : List JString) : Except BadConfigException Peer :=
  (lines.foldlM (parseLine net) {}).bind PeerBuilder.build

end Peer
end AioVpn
