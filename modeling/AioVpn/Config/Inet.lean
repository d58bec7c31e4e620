import AioVpn.Config.Attribute

/-!
# Addresses, networks and endpoints

`InetAddresses`, `InetNetwork` and `InetEndpoint` of `com.wireguard.config`.  What
they take from the platform --- parsing and printing of numeric addresses, and the
`java.net.URI` that cuts `host:port` --- is the parameter `NetApi`; the checks
around these calls are the source's.

An `InetEndpoint` object also caches the result of its last DNS lookup.  The cache
is mutable and belongs to the object, so it is kept with the backend that drives
the lookups; the value here is the immutable part.
-/

namespace AioVpn

/-- `java.net.InetAddress`.  Scope identifiers are not kept: `equals` ignores
them. -/
inductive InetAddress where
  | inet4 (bits : BitVec 32)
  | inet6 (bits : BitVec 128)
  deriving DecidableEq

/-- `address instanceof Inet4Address`. -/
def InetAddress.isInet4 : InetAddress → Bool
  | .inet4 _ => true
  | .inet6 _ => false

/-- What the parsers use of the platform. -/
structure NetApi where
  /-- `android.net.InetAddresses.parseNumericAddress`; `none` is an
  `IllegalArgumentException`. -/
  parseNumericAddress : JString → Option InetAddress
  /-- `InetAddress.getHostAddress`. -/
  getHostAddress : InetAddress → JString
  /-- The authority of `new URI("wg://" + s)`: `none` is a `URISyntaxException`,
  `some none` an authority that is not `host:port` (no host, port `-1`), and a
  missing port is `-1`. -/
  uri : JString → Option (Option (JString × ℤ))

/-- The decimal digits of an integer. -/
def decimal (n : ℤ) : JString := jstr (toString n)

/-! ## `InetAddresses` -/

namespace InetAddresses

/-- `InetAddresses.parse`. -/
def parse (net : NetApi) (address : JString) : Except ParseException InetAddress :=
  if address = [] then .error ⟨.inetAddress, address⟩
  else
    match net.parseNumericAddress address with
    | some a => .ok a
    | none => .error ⟨.inetAddress, address⟩

/-- An ASCII letter or digit. -/
def isAlnum (c : JChar) : Bool := c.isUpper || c.isLower || c.isDigit

/-- One label of a host name: at most 63 letters, digits and hyphens, with a
letter or digit at both ends. -/
def isLabel (label : JString) : Bool :=
  label ≠ [] && label.length ≤ 63 && label.all (fun c => isAlnum c || c = ch '-') &&
    isAlnum (label.headD 0) && isAlnum (label.getLastD 0)

/-- `InetAddresses.isHostname`: the pattern `VALID_HOSTNAME`. -/
def isHostname (s : JString) : Bool :=
  let s' := if s.getLast? = some (ch '.') then s.dropLast else s
  s ≠ [] && s.length ≤ 255 && (s'.splitOn (ch '.')).all isLabel

end InetAddresses

/-! ## `InetNetwork` -/

/-- `InetNetwork`. -/
structure InetNetwork where
  address : InetAddress
  mask : ℤ
  deriving DecidableEq

namespace InetNetwork

/-- The text after the last slash and the text before it. -/
def cutLastSlash (s : JString) : Option (JString × JString) :=
  if ch '/' ∈ s then
    some ((s.reverse.takeWhile (· ≠ ch '/')).reverse,
      ((s.reverse.dropWhile (· ≠ ch '/')).drop 1).reverse)
  else none

/-- `InetNetwork.parse`. -/
def parse (net : NetApi) (network : JString) : Except ParseException InetNetwork := do
  let (maskString, rawMask, rawAddress) ←
    match cutLastSlash network with
    | some (maskString, rawAddress) =>
        match JString.parseInt maskString with
        | some rawMask => .ok (maskString, rawMask, rawAddress)
        | none => .error ⟨.integer, maskString⟩
    | none => .ok ([], -1, network)
  let address ← InetAddresses.parse net rawAddress
  let maxMask : ℤ := if address.isInet4 then 32 else 128
  if rawMask > maxMask then .error ⟨.inetNetwork, maskString⟩
  else .ok ⟨address, if rawMask ≥ 0 then rawMask else maxMask⟩

/-- `InetNetwork.toString`. -/
def toJString (net : NetApi) (n : InetNetwork) : JString :=
  net.getHostAddress n.address ++ [ch '/'] ++ decimal n.mask

end InetNetwork

/-! ## `InetEndpoint` -/

/-- The immutable part of `InetEndpoint`. -/
structure InetEndpoint where
  /-- The host, a numeric address or a name. -/
  host : JString
  /-- The host is a numeric address. -/
  isResolved : Bool
  port : ℤ
  deriving DecidableEq

namespace InetEndpoint

/-- The pattern `FORBIDDEN_CHARACTERS`. -/
def isForbidden (c : JChar) : Bool := c = ch '/' || c = ch '?' || c = ch '#'

/-- `InetEndpoint.parse`. -/
def parse (net : NetApi) (endpoint : JString) : Except ParseException InetEndpoint :=
  if endpoint.any isForbidden then .error ⟨.inetEndpoint, endpoint⟩
  else
    match net.uri endpoint with
    | none => .error ⟨.inetEndpoint, endpoint⟩
    | some none => .error ⟨.inetEndpoint, endpoint⟩
    | some (some (host, port)) =>
        if port < 0 ∨ port > 65535 then .error ⟨.inetEndpoint, endpoint⟩
        else
          match InetAddresses.parse net host with
          | .ok _ => .ok ⟨host, true, port⟩
          | .error _ => .ok ⟨host, false, port⟩

/-- The pattern `BARE_IPV6`. -/
def isBareIpv6 (host : JString) : Bool :=
  ch ':' ∈ host && ch '[' ∉ host && ch ']' ∉ host

/-- `InetEndpoint.toString`. -/
def toJString (ep : InetEndpoint) : JString :=
  (if ep.isResolved && isBareIpv6 ep.host then [ch '['] ++ ep.host ++ [ch ']'] else ep.host)
    ++ [ch ':'] ++ decimal ep.port

end InetEndpoint
end AioVpn
