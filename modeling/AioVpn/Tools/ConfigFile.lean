import AioVpn.Config.Inet
import AioVpn.Tools.Encoding

/-!
# `config.c` and `wg setconf`

How the tool `wg` reads a configuration: line by line, without comments and blanks, into the device
that is then handed to the kernel.  A line that it does not understand ends the reading.

What the tool takes from the C library is `Libc`.  Numeric addresses are read by `inet_pton`, and
names of hosts and of ports by `getaddrinfo`; the calls of the latter for endpoints are numbered,
since they may give a different answer every time.

The result is the message that is printed, or the device.
-/

namespace AioVpn
namespace Wg

/-! ## The C library -/

/-- `struct sockaddr_in` and `struct sockaddr_in6`. -/
structure SockAddr where
  address : InetAddress
  port : ℕ
  deriving DecidableEq

/-- The codes of `getaddrinfo`. -/
inductive GaiError where
  | noName
  | fail
  | noData
  | again
  | system
  | other
  deriving DecidableEq

/-- What the tool uses of the C library. -/
structure Libc where
  /-- `char` is signed. -/
  charSigned : Bool
  /-- `inet_pton(AF_INET, …)`. -/
  inetPton4 : CString → Option (BitVec 32)
  /-- `inet_pton(AF_INET6, …)`. -/
  inetPton6 : CString → Option (BitVec 128)
  /-- The port of `getaddrinfo(NULL, service, …)`; `none` for an address of another family. -/
  service : CString → Except GaiError (Option ℕ)
  /-- The first answer of the `n`-th call of `getaddrinfo` for a host and a port. -/
  getaddrinfo : ℕ → CString → CString → Except GaiError (Option SockAddr)
  /-- `gai_strerror`, or `strerror` for `EAI_SYSTEM`. -/
  strerror : GaiError → CString

/-! ## `ctype.h` -/

/-- `char_is_space`. -/
def charIsSpace (signed : Bool) (c : CChar) : Bool :=
  let d : BitVec 8 := (c.toInt signed - 9#32).setWidth 8
  (0x80001f#32 >>> (d &&& 31#8).toNat) &&& (1#32 >>> (d >>> 5).toNat) ≠ 0#32

/-- `char_is_digit`. -/
def charIsDigit (signed : Bool) (c : CChar) : Bool :=
  let c := c.toInt signed
  ((47#32 - c) &&& (c - 58#32)) >>> 31 ≠ 0#32

theorem charIsSpace_eq (signed : Bool) (c : CChar) : charIsSpace signed c = c.isSpace := by
  revert signed c
  decide +kernel

theorem charIsDigit_eq (signed : Bool) (c : CChar) : charIsDigit signed c = c.isDigit := by
  revert signed c
  decide +kernel

/-! ## The device -/

/-- `struct wgallowedip`. -/
structure AllowedIp where
  address : InetAddress
  cidr : ℕ
  /-- `WGALLOWEDIP_REMOVE_ME`. -/
  removeMe : Bool := false
  deriving DecidableEq

/-- Thirty-two zeros. -/
def zeroKey : Key := ⟨List.replicate 32 0#8, List.length_replicate⟩

/-- `struct wgpeer`. -/
structure Peer where
  publicKey : Key := zeroKey
  presharedKey : Key := zeroKey
  endpoint : Option SockAddr := none
  persistentKeepaliveInterval : ℕ := 0
  allowedIps : List AllowedIp := []
  /-- `WGPEER_HAS_PUBLIC_KEY`. -/
  hasPublicKey : Bool := false
  /-- `WGPEER_HAS_PRESHARED_KEY`. -/
  hasPresharedKey : Bool := false
  /-- `WGPEER_HAS_PERSISTENT_KEEPALIVE_INTERVAL`. -/
  hasPersistentKeepaliveInterval : Bool := false
  /-- `WGPEER_REPLACE_ALLOWEDIPS`. -/
  replaceAllowedIps : Bool := false
  deriving DecidableEq

/-- `struct wgdevice`. -/
structure Device where
  privateKey : Key := zeroKey
  fwmark : ℕ := 0
  listenPort : ℕ := 0
  peers : List Peer := []
  /-- `WGDEVICE_REPLACE_PEERS`. -/
  replacePeers : Bool := false
  /-- `WGDEVICE_HAS_PRIVATE_KEY`. -/
  hasPrivateKey : Bool := false
  /-- `WGDEVICE_HAS_FWMARK`. -/
  hasFwmark : Bool := false
  /-- `WGDEVICE_HAS_LISTEN_PORT`. -/
  hasListenPort : Bool := false
  deriving DecidableEq

/-- A message with the text it is about. -/
def message (what : String) (text : CString) : CString :=
  cstr what ++ cstr ": `" ++ text ++ cstr "'"

/-! ## The values -/

/-- `get_value`. -/
def getValue (line key : CString) : Option CString :=
  if key.length ≥ line.length then none
  else if CString.strncasecmp line key key.length then some (line.drop key.length)
  else none

/-- `parse_port`. -/
def parsePort (libc : Libc) (value : CString) : Except CString ℕ :=
  if value = [] then .error (cstr "Unable to parse empty port")
  else
    match libc.service value with
    | .error e => .error (libc.strerror e ++ cstr ": `" ++ value ++ cstr "'")
    | .ok (some port) => .ok port
    | .ok none => .error (message "Neither IPv4 nor IPv6 address found" value)

/-- `parse_fwmark`. -/
def parseFwmark (libc : Libc) (value : CString) : Except CString ℕ :=
  if CString.strcasecmp value (cstr "off") then .ok 0
  else
    let base := if value.length > 2 ∧ value.take 2 = cstr "0x" then 16 else 10
    let (ret, rest) := CString.strtoul value base
    if charIsDigit libc.charSigned (value.headD 0#8) = false ∨ rest ≠ [] ∨ ret ≥ 2 ^ 32 then
      .error (message "Fwmark is neither 0/off nor 0-0xffffffff" value)
    else .ok ret

/-- `parse_key`. -/
def parseKey (libc : Libc) (value : CString) : Except CString Key :=
  match Encoding.keyFromBase64 libc.charSigned value with
  | some key => .ok key
  | none => .error (message "Key is not the correct length or format" value)

/-- `parse_ip`. -/
def parseIp (libc : Libc) (value : CString) : Except CString InetAddress :=
  let address :=
    if value.contains (cch ':') then (libc.inetPton6 value).map InetAddress.inet6
    else (libc.inetPton4 value).map InetAddress.inet4
  match address with
  | some address => .ok address
  | none => .error (message "Unable to parse IP address" value)

/-- The host and the port of an endpoint. -/
def cutEndpoint (value : CString) : Except CString (CString × CString) :=
  if value = [] then .error (cstr "Unable to parse empty endpoint")
  else if value.head? = some (cch '[') then
    match value.dropWhile (· ≠ cch ']') with
    | [] => .error (message "Unable to find matching brace of endpoint" value)
    | _ :: rest =>
        if rest.head? ≠ some (cch ':') ∨ rest.tail = [] then
          .error (message "Unable to find port of endpoint" value)
        else .ok ((value.takeWhile (· ≠ cch ']')).tail, rest.tail)
  else
    let port := (value.reverse.takeWhile (· ≠ cch ':')).reverse
    match value.reverse.dropWhile (· ≠ cch ':') with
    | [] => .error (message "Unable to find port of endpoint" value)
    | _ :: host =>
        if port = [] then .error (message "Unable to find port of endpoint" value)
        else .ok (host.reverse, port)

/-- The codes after which it is not tried again. -/
def GaiError.isPermanent (e : GaiError) : Bool := e = .noName || e = .fail || e = .noData

/-- One call of `getaddrinfo`, the one with number `n`; `again` is done after a failure that need
not be permanent.  The number of the next call is returned with the answer. -/
def attempt (libc : Libc) (value host port : CString) (n : ℕ)
    (again : Except CString (SockAddr × ℕ) → Except CString (SockAddr × ℕ)) :
    Except CString (SockAddr × ℕ) :=
  match libc.getaddrinfo n host port with
  | .ok (some address) => .ok (address, n + 1)
  | .ok none => .error (message "Neither IPv4 nor IPv6 address found" value)
  | .error e =>
      let failed := .error (libc.strerror e ++ cstr ": `" ++ value ++ cstr "'")
      if e.isPermanent then failed else again failed

/-- The loop that resolves an endpoint. -/
def resolve (libc : Libc) (value host port : CString) : ℕ → ℕ → Except CString (SockAddr × ℕ)
  | n, 0 => attempt libc value host port n fun failed => failed
  | n, retries + 1 =>
      attempt libc value host port n fun _ => resolve libc value host port (n + 1) retries

/-- `parse_endpoint`; `WG_ENDPOINT_RESOLUTION_RETRIES` is not set. -/
def parseEndpoint (libc : Libc) (value : CString) (n : ℕ) : Except CString (SockAddr × ℕ) := do
  let (host, port) ← cutEndpoint value
  resolve libc value host port n 15

/-- `parse_persistent_keepalive`. -/
def parsePersistentKeepalive (libc : Libc) (value : CString) : Except CString ℕ :=
  if CString.strcasecmp value (cstr "off") then .ok 0
  else
    let (ret, rest) := CString.strtoul value 10
    if charIsDigit libc.charSigned (value.headD 0#8) = false ∨ rest ≠ [] ∨ ret > 65535 then
      .error (message "Persistent keepalive interval is neither 0/off nor 1-65535" value)
    else .ok ret

/-- `parse_ip_prefix`: the signs in front of an address. -/
def parseIpPrefix (peer : Peer) (mask : CString) : Peer × Bool × CString :=
  if mask.head? = some (cch '-') then ({ peer with replaceAllowedIps := false }, true, mask.tail)
  else if mask.head? = some (cch '+') then
    ({ peer with replaceAllowedIps := false }, false, mask.tail)
  else (peer, false, mask)

/-- The number of bits of an address. -/
def maxCidr (address : InetAddress) : ℕ := if address.isInet4 then 32 else 128

/-- One entry of `parse_allowedips`. -/
def parseAllowedip (libc : Libc) (peer : Peer) (entry : CString) : Except CString Peer := do
  let (peer, removeMe, entry) := parseIpPrefix peer entry
  let (ip, mask) := CString.strsep (cch '/') entry
  let address ← parseIp libc ip
  let cidr ←
    match mask with
    | none => .ok (maxCidr address)
    | some mask =>
        let (cidr, rest) := CString.strtoul mask 10
        if charIsDigit libc.charSigned (mask.headD 0#8) = false ∨ rest ≠ [] ∨
            cidr > maxCidr address then
          .error (message "AllowedIP is not in the correct format" entry)
        else .ok cidr
  .ok { peer with allowedIps := peer.allowedIps ++ [⟨address, cidr, removeMe⟩] }

/-- `parse_allowedips`. -/
def parseAllowedips (libc : Libc) (peer : Peer) (value : CString) : Except CString Peer :=
  let peer := { peer with replaceAllowedIps := true }
  if value = [] then .ok peer
  else (value.splitOn (cch ',')).foldlM (parseAllowedip libc) peer

/-! ## The lines -/

/-- `is_device_section` and `is_peer_section`, with `last_peer`. -/
inductive Opened where
  | nothing
  | device
  | peer (last : Peer)
  deriving DecidableEq

/-- `struct config_ctx`.  The peer of the section that is open is not yet among the peers of the
device. -/
structure ConfigCtx where
  device : Device
  opened : Opened := .nothing
  /-- The number of the next call of `getaddrinfo` for an endpoint. -/
  calls : ℕ := 0
  deriving DecidableEq

/-- The device, with the peer of the open section. -/
def ConfigCtx.closed (ctx : ConfigCtx) : Device :=
  match ctx.opened with
  | .peer last => { ctx.device with peers := ctx.device.peers ++ [last] }
  | _ => ctx.device

/-- A line of the interface. -/
def processDeviceLine (libc : Libc) (device : Device) (line : CString) :
    Except CString Device :=
  match getValue line (cstr "ListenPort=") with
  | some value => do
      let port ← parsePort libc value
      .ok { device with listenPort := port, hasListenPort := true }
  | none =>
      match getValue line (cstr "FwMark=") with
      | some value => do
          let fwmark ← parseFwmark libc value
          .ok { device with fwmark := fwmark, hasFwmark := true }
      | none =>
          match getValue line (cstr "PrivateKey=") with
          | some value => do
              let key ← parseKey libc value
              .ok { device with privateKey := key, hasPrivateKey := true }
          | none => .error (message "Line unrecognized" line)

/-- A line of a peer. -/
def processPeerLine (libc : Libc) (peer : Peer) (n : ℕ) (line : CString) :
    Except CString (Peer × ℕ) :=
  match getValue line (cstr "Endpoint=") with
  | some value => do
      let (endpoint, n) ← parseEndpoint libc value n
      .ok ({ peer with endpoint := some endpoint }, n)
  | none =>
      match getValue line (cstr "PublicKey=") with
      | some value => do
          let key ← parseKey libc value
          .ok ({ peer with publicKey := key, hasPublicKey := true }, n)
      | none =>
          match getValue line (cstr "AllowedIPs=") with
          | some value => do
              let peer ← parseAllowedips libc peer value
              .ok (peer, n)
          | none =>
              match getValue line (cstr "PersistentKeepalive=") with
              | some value => do
                  let interval ← parsePersistentKeepalive libc value
                  .ok ({ peer with persistentKeepaliveInterval := interval
                                   hasPersistentKeepaliveInterval := true }, n)
              | none =>
                  match getValue line (cstr "PresharedKey=") with
                  | some value => do
                      let key ← parseKey libc value
                      .ok ({ peer with presharedKey := key, hasPresharedKey := true }, n)
                  | none => .error (message "Line unrecognized" line)

/-- `process_line`. -/
def processLine (libc : Libc) (ctx : ConfigCtx) (line : CString) : Except CString ConfigCtx :=
  if CString.strcasecmp line (cstr "[Interface]") then
    .ok { ctx with device := ctx.closed, opened := .device }
  else if CString.strcasecmp line (cstr "[Peer]") then
    .ok { ctx with device := ctx.closed, opened := .peer { replaceAllowedIps := true } }
  else
    match ctx.opened with
    | .nothing => .error (message "Line unrecognized" line)
    | .device => do
        let device ← processDeviceLine libc ctx.device line
        .ok { ctx with device := device }
    | .peer last => do
        let (peer, n) ← processPeerLine libc last ctx.calls line
        .ok { ctx with opened := .peer peer, calls := n }

/-- What is left of a line without its comment and its blanks. -/
def cleanLine (libc : Libc) (input : CString) : CString :=
  (input.takeWhile (· ≠ cch '#')).filter fun c => !charIsSpace libc.charSigned c

/-- `config_read_line`. -/
def configReadLine (libc : Libc) (ctx : ConfigCtx) (input : CString) : Except CString ConfigCtx :=
  let line := cleanLine libc input
  if line = [] then .ok ctx else processLine libc ctx line

/-- `config_read_init`. -/
def configReadInit (append : Bool) : ConfigCtx where
  device :=
    { replacePeers := !append, hasPrivateKey := !append, hasFwmark := !append
      hasListenPort := !append }

/-- `config_read_finish`. -/
def configReadFinish (ctx : ConfigCtx) : Except CString Device :=
  if ctx.closed.peers.all Peer.hasPublicKey then .ok ctx.closed
  else .error (cstr "A peer is missing a public key")

/-- `setconf_main` for `setconf` and `addconf`, up to the device that `ipc_set_device` is called
with. -/
def setconf (libc : Libc) (append : Bool) (file : List CChar) : Except CString Device := do
  let ctx ← (CString.getlines file).foldlM
    (fun ctx line => configReadLine libc ctx (CString.ofBuffer line)) (configReadInit append)
  configReadFinish ctx

end Wg
end AioVpn
