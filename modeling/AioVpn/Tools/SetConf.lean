import AioVpn.Tools.FileText

/-!
# The device that `wg setconf` makes of a file

`wg setconf` reads the part of a configuration file that `wg-quick` leaves to it: the port and the
key of the interface, and the peers.  What it hands to the kernel is `deviceOf`, the device with the
keys, networks and intervals of the configuration, and with the addresses that `getaddrinfo` gives
for the endpoints (`setconf_deviceLines`).  When a name cannot be resolved there is no device, and
the message is the one about the first such endpoint.

The app and the tool use different libraries for addresses.  `Platform` is what is assumed of the
two together: `inet_pton` reads what `getHostAddress` prints, and the host of an endpoint is a name
without brackets or an address in brackets.

The lines of a section are read one by one; `processDeviceLine` and `processPeerLine` are computed
at each line that the app can write, and the rest is to follow the fold.
-/

namespace AioVpn

open JString CString

namespace Wg

/-- **The two libraries agree.** -/
structure Platform (net : NetApi) (libc : Libc) : Prop extends net.Documented where
  /-- An IPv4 address is printed with digits and dots, and is read back. -/
  inet4 : ∀ s x, net.parseNumericAddress s = some (.inet4 x) →
    (∀ c ∈ net.getHostAddress (.inet4 x), c.isDigit = true ∨ c = ch '.') ∧
      libc.inetPton4 (utf8 (net.getHostAddress (.inet4 x))) = some x
  /-- An IPv6 address is printed with digits, letters, dots and some colon, and is read back. -/
  inet6 : ∀ s x, net.parseNumericAddress s = some (.inet6 x) →
    (∀ c ∈ net.getHostAddress (.inet6 x),
      c.isDigit = true ∨ c = ch '.' ∨ c.isLower = true ∨ c = ch ':') ∧
      ch ':' ∈ net.getHostAddress (.inet6 x) ∧
        libc.inetPton6 (utf8 (net.getHostAddress (.inet6 x))) = some x
  /-- A host is an address in brackets, or a name without brackets. -/
  uri_host : ∀ s host port, net.uri s = some (some (host, port)) →
    ch '[' ∉ host ∨ ∃ address, host = ch '[' :: address ++ [ch ']'] ∧ ch ']' ∉ address
  /-- A number is a port. -/
  service : ∀ n ≤ 65535, libc.service (digits n) = .ok (some n)

/-! ## What it should be -/

/-- The host without its brackets. -/
def bareHost (host : JString) : JString :=
  if host.head? = some (ch '[') then host.tail.dropLast else host

/-- The address of a peer, and the number of the next call of `getaddrinfo`. -/
def endpointOf (libc : Libc) (p : AioVpn.Peer) (n : ℕ) : Except CString (Option SockAddr × ℕ) :=
  match p.endpoint with
  | none => .ok (none, n)
  | some ep =>
      (resolve libc (utf8 ep.toJString) (utf8 (bareHost ep.host)) (digits ep.port.toNat) n 15).map
        fun (address, n) => (some address, n)

/-- A network that is routed to a peer. -/
def allowedIpOf (n : InetNetwork) : AllowedIp := ⟨n.address, n.mask.toNat, false⟩

/-- A peer of the configuration, with its address. -/
def peerOf (p : AioVpn.Peer) (endpoint : Option SockAddr) : Peer where
  publicKey := p.publicKey
  presharedKey := p.preSharedKey.getD zeroKey
  endpoint := endpoint
  persistentKeepaliveInterval := (p.persistentKeepalive.getD 0).toNat
  allowedIps := p.allowedIps.elems.map allowedIpOf
  hasPublicKey := true
  hasPresharedKey := p.preSharedKey.isSome
  hasPersistentKeepaliveInterval := p.persistentKeepalive.isSome
  replaceAllowedIps := true

/-- The peers, resolved one after the other. -/
def peersOf (libc : Libc) : ℕ → List AioVpn.Peer → Except CString (List Peer)
  | _, [] => .ok []
  | n, p :: ps => do
      let (endpoint, n) ← endpointOf libc p n
      let peers ← peersOf libc n ps
      .ok (peerOf p endpoint :: peers)

/-- The interface of the configuration, with these peers: all that was there is replaced. -/
def interfaceOf (i : Interface) (peers : List Peer) : Device where
  privateKey := i.privateKey
  listenPort := (i.listenPort.getD 0).toNat
  peers := peers
  replacePeers := true
  hasPrivateKey := true
  hasFwmark := true
  hasListenPort := true

/-- The device of a configuration. -/
def deviceOf (libc : Libc) (c : Config) : Except CString Device :=
  (peersOf libc 0 c.peers).map (interfaceOf c.interfaze)

/-! ## Values -/

section Values

variable {net : NetApi} {libc : Libc}

theorem utf8_decimal {n : ℤ} (hn : 0 ≤ n) : utf8 (decimal n) = digits n.toNat := by
  obtain ⟨m, rfl⟩ := Int.eq_ofNat_of_zero_le hn
  have hascii : ∀ c ∈ decimal (m : ℤ), c.isAscii = true := by
    intro c hc
    have hbounds := bounds_of_mem_decimal hn c hc
    rw [JChar.isAscii, decide_eq_true_eq]
    omega
  rw [utf8_of_ascii hascii, decimal_natCast, List.map_map, digits, Int.toNat_natCast]
  refine List.map_congr_left fun c hc => ?_
  have hnat := toNat_ch_of_isDigit (Nat.isDigit_of_mem_toDigits (by decide) (by decide) hc)
  rw [Function.comp_apply, JChar.byte, hnat.1, cch]

theorem headD_digits (n : ℕ) : charIsDigit libc.charSigned ((digits n).headD 0#8) = true := by
  rw [charIsDigit_eq]
  cases hcut : digits n with
  | nil => exact absurd hcut (digits_ne_nil n)
  | cons c s => exact (isDigit_of_mem_digits c (by rw [hcut]; exact List.mem_cons_self)).1

/-- A number is not `off`. -/
theorem strcasecmp_digits (n : ℕ) : strcasecmp (digits n) (cstr "off") = false := by
  have hne : ∀ c : CChar, c.isDigit = true → c.toLower ≠ (cch 'o').toLower := by decide +kernel
  cases hcut : digits n with
  | nil => exact absurd hcut (digits_ne_nil n)
  | cons c s =>
    have hdigit := (isDigit_of_mem_digits c (by rw [hcut]; exact List.mem_cons_self)).1
    exact strcasecmp_cons_of_ne (hne c hdigit) s (cstr "ff")

theorem parsePersistentKeepalive_digits {n : ℕ} (hn : n ≤ 65535) :
    parsePersistentKeepalive libc (digits n) = .ok n := by
  rw [parsePersistentKeepalive, strcasecmp_digits, if_neg (by simp), strtoul_digits (by omega)]
  dsimp only
  rw [headD_digits, if_neg (by simp; omega)]

theorem chars_utf8 {s : JString} (hs : ∀ c ∈ s, c.toNat < 0x80) : Encoding.chars (utf8 s) = s := by
  have hascii : ∀ c ∈ s, c.isAscii = true := fun c hc => decide_eq_true (hs c hc)
  rw [utf8_of_ascii hascii, Encoding.chars, List.map_map]
  conv_rhs => rw [← List.map_id s]
  refine List.map_congr_left fun c hc => ?_
  have hlt := hs c hc
  rw [Function.comp_apply, JChar.byte, BitVec.toNat_ofNat, Nat.mod_eq_of_lt (by omega),
    UInt16.ofNat_toNat, id]

theorem parseKey_toBase64 (key : Key) : parseKey libc (utf8 key.toBase64) = .ok key := by
  have hchars := chars_utf8 (s := key.toBase64) fun c hc => (Key.bounds_of_mem_toBase64 hc).2
  rw [parseKey, Encoding.keyFromBase64_eq, hchars, Key.fromBase64_toBase64]
  rfl

/-- What `InetAddresses.parse` has read is a numeric address. -/
theorem exists_numeric {a : InetAddress} (ha : ∃ s, InetAddresses.parse net s = .ok a) :
    ∃ s, net.parseNumericAddress s = some a := by
  obtain ⟨s, hs⟩ := ha
  refine ⟨s, ?_⟩
  rw [InetAddresses.parse] at hs
  split at hs
  · exact absurd hs (by simp)
  · cases hread : net.parseNumericAddress s with
    | none =>
      rw [hread] at hs
      exact absurd hs (by simp)
    | some b =>
      rw [hread] at hs
      exact congrArg some (Except.ok.inj hs)

variable (h : Platform net libc)

include h

theorem parsePort_digits {n : ℕ} (hn : n ≤ 65535) : parsePort libc (digits n) = .ok n := by
  rw [parsePort, if_neg (digits_ne_nil n), h.service n hn]

/-! ### Addresses -/

/-- The bytes of an IPv4 address: digits and dots. -/
theorem inet4_bytes {x : BitVec 32} (hx : ∃ s, InetAddresses.parse net s = .ok (.inet4 x)) :
    ∀ b ∈ utf8 (net.getHostAddress (.inet4 x)), b.toNat = 46 ∨ 48 ≤ b.toNat ∧ b.toNat ≤ 57 := by
  obtain ⟨s, hs⟩ := exists_numeric hx
  refine forall_mem_utf8 (P := fun n => n = 46 ∨ 48 ≤ n ∧ n ≤ 57) (fun n hn => by omega) ?_
  intro c hc
  rcases (h.inet4 s x hs).1 c hc with hdigit | rfl
  · rw [JChar.isDigit, Bool.and_eq_true, decide_eq_true_eq, decide_eq_true_eq] at hdigit
    exact Or.inr hdigit
  · exact Or.inl rfl

/-- The bytes of an address: digits, dots, colons, and letters. -/
theorem address_bytes {a : InetAddress} (ha : ∃ s, InetAddresses.parse net s = .ok a) :
    ∀ b ∈ utf8 (net.getHostAddress a),
      b.toNat = 46 ∨ 48 ≤ b.toNat ∧ b.toNat ≤ 58 ∨ 97 ≤ b.toNat ∧ b.toNat ≤ 122 := by
  cases a with
  | inet4 x =>
    intro b hb
    have hbounds := inet4_bytes h ha b hb
    omega
  | inet6 x =>
    obtain ⟨s, hs⟩ := exists_numeric ha
    refine forall_mem_utf8 (P := fun n => n = 46 ∨ 48 ≤ n ∧ n ≤ 58 ∨ 97 ≤ n ∧ n ≤ 122)
      (fun n hn => by omega) ?_
    intro c hc
    have hclass := (h.inet6 s x hs).1 c hc
    simp only [JChar.isDigit, JChar.isLower, Bool.and_eq_true, decide_eq_true_eq] at hclass
    rcases hclass with hdigit | rfl | hlower | rfl
    · omega
    · exact Or.inl rfl
    · omega
    · exact Or.inr (Or.inl (by decide))

theorem parseIp_getHostAddress {a : InetAddress} (ha : ∃ s, InetAddresses.parse net s = .ok a) :
    parseIp libc (utf8 (net.getHostAddress a)) = .ok a := by
  obtain ⟨s, hs⟩ := exists_numeric ha
  cases a with
  | inet4 x =>
    have hcolon : cch ':' ∉ utf8 (net.getHostAddress (.inet4 x)) := fun hmem =>
      absurd (inet4_bytes h ha _ hmem) (by decide)
    rw [parseIp, if_neg (by rwa [List.contains_iff_mem]), (h.inet4 s x hs).2]
    rfl
  | inet6 x =>
    obtain ⟨-, hmem, hread⟩ := h.inet6 s x hs
    have hcolon : cch ':' ∈ utf8 (net.getHostAddress (.inet6 x)) :=
      byte_mem_utf8 (c := ch ':') (by decide) hmem
    rw [parseIp, if_pos (List.contains_iff_mem.mpr hcolon), hread]
    rfl

/-! ### Networks -/

omit h in
theorem utf8_network {n : InetNetwork} (hmask : 0 ≤ n.mask) :
    utf8 (n.toJString net) =
      utf8 (net.getHostAddress n.address) ++ cch '/' :: digits n.mask.toNat := by
  rw [InetNetwork.toJString, List.append_assoc, List.singleton_append,
    utf8_append_cons _ (by decide), utf8_decimal hmask]
  rfl

/-- No sign stands in front of a network. -/
theorem parseIpPrefix_network {n : InetNetwork} (hn : ∃ s, InetNetwork.parse net s = .ok n)
    (peer : Peer) :
    parseIpPrefix peer (utf8 (n.toJString net)) = (peer, false, utf8 (n.toJString net)) := by
  obtain ⟨s, hs⟩ := hn
  obtain ⟨haddress, hlow, -⟩ := InetNetwork.of_parse hs
  have hhead : ∀ b ∈ (utf8 (n.toJString net)).head?, 46 ≤ b.toNat := by
    intro b hb
    rw [utf8_network hlow] at hb
    rcases List.mem_append.mp (List.mem_of_mem_head? hb) with hb | hb
    · have hbounds := address_bytes h haddress b hb
      omega
    · rcases List.mem_cons.mp hb with rfl | hb
      · decide
      · have hdigit := (isDigit_of_mem_digits b hb).1
        rw [CChar.isDigit, Bool.and_eq_true, decide_eq_true_eq, decide_eq_true_eq] at hdigit
        omega
  have hsign : ∀ b : CChar, b.toNat < 46 → (utf8 (n.toJString net)).head? ≠ some b := by
    intro b hb heq
    have hle := hhead b heq
    omega
  rw [parseIpPrefix, if_neg (hsign _ (by decide)), if_neg (hsign _ (by decide))]

/-- **A network is read back.** -/
theorem parseAllowedip_network {n : InetNetwork} (hn : ∃ s, InetNetwork.parse net s = .ok n)
    (peer : Peer) :
    parseAllowedip libc peer (utf8 (n.toJString net)) =
      .ok { peer with allowedIps := peer.allowedIps ++ [allowedIpOf n] } := by
  have hsign := parseIpPrefix_network h hn peer
  obtain ⟨s, hs⟩ := hn
  obtain ⟨haddress, hlow, hhigh⟩ := InetNetwork.of_parse hs
  have hslash : cch '/' ∉ utf8 (net.getHostAddress n.address) := fun hmem =>
    absurd (address_bytes h haddress _ hmem) (by decide)
  have hmax : n.mask.toNat ≤ maxCidr n.address := by
    rw [InetNetwork.maxMask] at hhigh
    rw [maxCidr]
    split at hhigh
    · rw [if_pos (by assumption)]
      omega
    · rw [if_neg (by assumption)]
      omega
  have hrange : n.mask.toNat < 2 ^ 64 := by
    have hbounds := InetNetwork.maxMask_bounds n.address
    omega
  rw [parseAllowedip, hsign]
  dsimp only
  rw [utf8_network hlow, strsep_append hslash]
  dsimp only
  rw [parseIp_getHostAddress h haddress]
  refine ExceptFold.bind_of_eq_ok rfl ?_
  rw [strtoul_digits hrange, headD_digits, if_neg (by simp; omega)]
  rfl

/-- **The networks of a peer are read back.** -/
theorem parseAllowedips_items {networks : List InetNetwork} (hne : networks ≠ [])
    (hnetworks : ∀ n ∈ networks, ∃ s, InetNetwork.parse net s = .ok n) (peer : Peer) :
    parseAllowedips libc peer (Attribute.items (networks.map (InetNetwork.toJString net))) =
      .ok { peer with
        allowedIps := peer.allowedIps ++ networks.map allowedIpOf
        replaceAllowedIps := true } := by
  have hplain := InetNetwork.isPlain_of_mem_map h.toDocumented hnetworks
  have hfold : ∀ (networks : List InetNetwork) (peer : Peer),
      (∀ n ∈ networks, ∃ s, InetNetwork.parse net s = .ok n) →
      (networks.map fun n => utf8 (n.toJString net)).foldlM (parseAllowedip libc) peer =
        .ok { peer with allowedIps := peer.allowedIps ++ networks.map allowedIpOf } := by
    intro networks
    induction networks with
    | nil =>
      intro peer _
      rw [List.map_nil, List.map_nil, List.append_nil]
      rfl
    | cons n networks ih =>
      intro peer hnetworks
      rw [List.forall_mem_cons] at hnetworks
      rw [List.map_cons, List.foldlM_cons, parseAllowedip_network h hnetworks.1]
      refine (ih _ hnetworks.2).trans ?_
      rw [List.append_assoc, List.singleton_append, List.map_cons]
  rw [parseAllowedips, if_neg (Attribute.items_ne_nil (by simpa using hne) hplain), Attribute.items,
    List.splitOn_intercalate _ (Attribute.comma_notMem hplain) (by simpa using hne), List.map_map]
  exact hfold networks _ hnetworks

/-! ### Endpoints -/

omit h in
/-- A name and a port: the last colon is the one in front of the port. -/
theorem cutEndpoint_name {host port : CString} (hhost : cch '[' ∉ host) (hne : port ≠ [])
    (hport : cch ':' ∉ port) : cutEndpoint (host ++ cch ':' :: port) = .ok (host, port) := by
  have hback : ∀ b ∈ port.reverse, decide (b ≠ cch ':') = true := by
    intro b hb
    rw [decide_eq_true_eq]
    rintro rfl
    exact hport (List.mem_reverse.mp hb)
  have hreverse : (host ++ cch ':' :: port).reverse = port.reverse ++ cch ':' :: host.reverse := by
    rw [List.reverse_append, List.reverse_cons, List.append_assoc, List.singleton_append]
  have hhead : (host ++ cch ':' :: port).head? ≠ some (cch '[') := by
    cases host with
    | nil => exact fun h => absurd (Option.some.inj h) (by decide)
    | cons b host => exact fun h => hhost (Option.some.inj h ▸ List.mem_cons_self)
  rw [cutEndpoint, if_neg (by simp), if_neg hhead, hreverse, List.takeWhile_append_of_pos hback,
    List.dropWhile_append_of_pos hback, List.takeWhile_cons_of_neg (by simp),
    List.dropWhile_cons_of_neg (by simp), List.append_nil, List.reverse_reverse]
  dsimp only
  rw [if_neg hne, List.reverse_reverse]

omit h in
/-- An address in brackets and a port. -/
theorem cutEndpoint_brackets {address port : CString} (haddress : cch ']' ∉ address)
    (hne : port ≠ []) :
    cutEndpoint (cch '[' :: address ++ cch ']' :: cch ':' :: port) = .ok (address, port) := by
  have hfront : ∀ b ∈ cch '[' :: address, decide (b ≠ cch ']') = true := by
    intro b hb
    rw [decide_eq_true_eq]
    rintro rfl
    rcases List.mem_cons.mp hb with hb | hb
    · exact absurd hb (by decide)
    · exact haddress hb
  rw [cutEndpoint, if_neg (by simp), List.dropWhile_append_of_pos hfront,
    List.takeWhile_append_of_pos hfront, List.dropWhile_cons_of_neg (by simp),
    List.takeWhile_cons_of_neg (by simp), List.append_nil, List.cons_append, List.head?_cons,
    if_pos rfl]
  dsimp only
  rw [List.tail_cons, if_neg (by simp [hne]), List.tail_cons]

/-- **An endpoint is cut where it was put together.** -/
theorem cutEndpoint_toJString {ep : InetEndpoint} (hep : ∃ s, InetEndpoint.parse net s = .ok ep) :
    cutEndpoint (utf8 ep.toJString) = .ok (utf8 (bareHost ep.host), digits ep.port.toNat) := by
  obtain ⟨s, hs⟩ := hep
  obtain ⟨huri, hlow, -, -⟩ := InetEndpoint.of_parse hs
  have hcolon : cch ':' ∉ digits ep.port.toNat := fun hmem =>
    absurd (isDigit_of_mem_digits _ hmem).1 (by decide)
  have htext : utf8 ep.toJString = utf8 ep.host ++ cch ':' :: digits ep.port.toNat := by
    rw [InetEndpoint.toJString_eq h.toDocumented hs, List.append_assoc, List.singleton_append,
      utf8_append_cons _ (by decide), utf8_decimal hlow]
    rfl
  rcases h.uri_host _ _ _ huri with hbracket | ⟨address, hhost, hclose⟩
  · have hbare : bareHost ep.host = ep.host :=
      if_neg fun hhead => hbracket (List.mem_of_mem_head? hhead)
    rw [htext, hbare]
    exact cutEndpoint_name (byte_notMem_utf8 (c := ch '[') (by decide) (by decide) hbracket)
      (digits_ne_nil _) hcolon
  · have hbytes : utf8 ep.host = (cch '[' :: utf8 address) ++ [cch ']'] := by
      rw [hhost, List.cons_append, utf8_cons (by decide), utf8_append_cons _ (by decide)]
      rfl
    have hbare : bareHost ep.host = address := by
      rw [bareHost, hhost, List.cons_append, List.head?_cons, if_pos rfl, List.tail_cons,
        List.dropLast_concat]
    rw [htext, hbytes, hbare, List.append_assoc, List.singleton_append]
    exact cutEndpoint_brackets (byte_notMem_utf8 (c := ch ']') (by decide) (by decide) hclose)
      (digits_ne_nil _)

end Values

/-! ## Lines -/

section Lines

variable {k v : CString} (hk : cch '=' ∉ k) (hv : v ≠ [])

include hk hv

/-- **The value of a line `k=v`** is found under its own key only. -/
theorem getValue_key (key : String) {sign : String} (hsign : cstr sign = cstr key ++ [cch '='])
    (hkey : cch '=' ∉ cstr key) :
    getValue (k ++ cch '=' :: v) (cstr sign) =
      if strcasecmp k (cstr key) then some v else none := by
  rw [hsign, getValue, strncasecmp_key hk hkey]
  cases hcmp : strcasecmp k (cstr key) with
  | false => simp
  | true =>
    have hlength := length_eq_of_strcasecmp hcmp
    have hpos := List.length_pos_iff.mpr hv
    have hdrop : (k ++ cch '=' :: v).drop (cstr key ++ [cch '=']).length = v := by
      rw [List.length_append, ← hlength, List.append_cons, List.drop_left' (by simp)]
    rw [if_neg (by simp; omega), if_pos rfl, if_pos rfl, hdrop]

end Lines

section Sections

variable {net : NetApi} {libc : Libc} {v : CString} (hv : v ≠ [])

include hv

theorem processDeviceLine_listenPort (device : Device) :
    processDeviceLine libc device (cstr "ListenPort" ++ cch '=' :: v) =
      (parsePort libc v).bind fun port =>
        .ok { device with listenPort := port, hasListenPort := true } := by
  rw [processDeviceLine, getValue_key (by decide) hv "ListenPort" (by decide) (by decide),
    if_pos (by decide)]
  rfl

theorem processDeviceLine_privateKey (device : Device) :
    processDeviceLine libc device (cstr "PrivateKey" ++ cch '=' :: v) =
      (parseKey libc v).bind fun key =>
        .ok { device with privateKey := key, hasPrivateKey := true } := by
  have hkeys := getValue_key (k := cstr "PrivateKey") (by decide) hv
  rw [processDeviceLine, hkeys "ListenPort" (by decide) (by decide), if_neg (by decide)]
  dsimp only
  rw [hkeys "FwMark" (by decide) (by decide), if_neg (by decide)]
  dsimp only
  rw [hkeys "PrivateKey" (by decide) (by decide), if_pos (by decide)]
  rfl

theorem processPeerLine_endpoint (peer : Peer) (n : ℕ) :
    processPeerLine libc peer n (cstr "Endpoint" ++ cch '=' :: v) =
      (parseEndpoint libc v n).bind fun e => .ok ({ peer with endpoint := some e.1 }, e.2) := by
  rw [processPeerLine, getValue_key (by decide) hv "Endpoint" (by decide) (by decide),
    if_pos (by decide)]
  rfl

/-- The lines under another key are not taken for an endpoint. -/
theorem processPeerLine_eq {k : CString} (hk : cch '=' ∉ k)
    (hendpoint : strcasecmp k (cstr "Endpoint") = false) (peer : Peer) (n : ℕ) :
    processPeerLine libc peer n (k ++ cch '=' :: v) =
      if strcasecmp k (cstr "PublicKey") then
        (parseKey libc v).bind fun key =>
          .ok ({ peer with publicKey := key, hasPublicKey := true }, n)
      else if strcasecmp k (cstr "AllowedIPs") then
        (parseAllowedips libc peer v).bind fun peer => .ok (peer, n)
      else if strcasecmp k (cstr "PersistentKeepalive") then
        (parsePersistentKeepalive libc v).bind fun interval =>
          .ok ({ peer with
            persistentKeepaliveInterval := interval, hasPersistentKeepaliveInterval := true }, n)
      else if strcasecmp k (cstr "PresharedKey") then
        (parseKey libc v).bind fun key =>
          .ok ({ peer with presharedKey := key, hasPresharedKey := true }, n)
      else .error (message "Line unrecognized" (k ++ cch '=' :: v)) := by
  have hkeys := getValue_key hk hv
  rw [processPeerLine, hkeys "Endpoint" (by decide) (by decide), hendpoint, if_neg (by simp),
    hkeys "PublicKey" (by decide) (by decide), hkeys "AllowedIPs" (by decide) (by decide),
    hkeys "PersistentKeepalive" (by decide) (by decide),
    hkeys "PresharedKey" (by decide) (by decide)]
  dsimp only
  split_ifs <;> rfl

end Sections

/-! ### Attributes -/

section Attributes

variable {net : NetApi} {libc : Libc} {a : Attribute} (hkey : Attribute.IsKey a.key)
  (hvalue : Attribute.IsShown a.value)

/-- The line of an attribute is not a header. -/
theorem strcasecmp_key_header {key : JString} (hkey : Attribute.IsKey key) (v t : CString) :
    strcasecmp (utf8 key ++ v) (cch '[' :: t) = false := by
  obtain ⟨b, bytes, hcut, hne, -⟩ := Attribute.exists_head_key hkey
  rw [hcut, List.cons_append]
  exact strcasecmp_cons_of_ne hne _ _

include hkey hvalue

theorem configReadLine_text (ctx : ConfigCtx) :
    configReadLine libc ctx (lineBytes a.text) =
      processLine libc ctx (utf8 a.key ++ cch '=' :: WgQuick.cleanLine (utf8 a.value)) := by
  rw [configReadLine, (Attribute.isShown_text hkey hvalue).cleanLine,
    Attribute.cleanLine_text hkey]
  exact if_neg (List.append_ne_nil_of_right_ne_nil _ (List.cons_ne_nil _ _))

/-- **A line of the interface.** -/
theorem configReadLine_device {ctx : ConfigCtx} (hopened : ctx.opened = .device) :
    configReadLine libc ctx (lineBytes a.text) =
      (processDeviceLine libc ctx.device
        (utf8 a.key ++ cch '=' :: WgQuick.cleanLine (utf8 a.value))).bind fun device =>
          .ok { ctx with device := device } := by
  rw [configReadLine_text hkey hvalue, processLine,
    show cstr "[Interface]" = cch '[' :: cstr "Interface]" by decide,
    show cstr "[Peer]" = cch '[' :: cstr "Peer]" by decide, strcasecmp_key_header hkey,
    strcasecmp_key_header hkey, hopened]
  rfl

/-- **A line of a peer.** -/
theorem configReadLine_peer {ctx : ConfigCtx} {last : Peer} (hopened : ctx.opened = .peer last) :
    configReadLine libc ctx (lineBytes a.text) =
      (processPeerLine libc last ctx.calls
        (utf8 a.key ++ cch '=' :: WgQuick.cleanLine (utf8 a.value))).bind fun p =>
          .ok { ctx with opened := .peer p.1, calls := p.2 } := by
  rw [configReadLine_text hkey hvalue, processLine,
    show cstr "[Interface]" = cch '[' :: cstr "Interface]" by decide,
    show cstr "[Peer]" = cch '[' :: cstr "Peer]" by decide, strcasecmp_key_header hkey,
    strcasecmp_key_header hkey, hopened]
  rfl

end Attributes

/-! ## Sections -/

/-- One line of the file. -/
def readLine (libc : Libc) (ctx : ConfigCtx) (line : JString) : Except CString ConfigCtx :=
  configReadLine libc ctx (lineBytes line)

/-- What an attribute of a peer does to the peer and to the number of calls. -/
def readAttribute (libc : Libc) (s : Peer × ℕ) (a : Attribute) : Except CString (Peer × ℕ) :=
  processPeerLine libc s.1 s.2 (utf8 a.key ++ cch '=' :: WgQuick.cleanLine (utf8 a.value))

/-- The attributes that `wg-quick` leaves to `wg`. -/
def deviceAttributes (i : Interface) : List Attribute :=
  (i.listenPort.elim [] fun lp => [⟨jstr "ListenPort", decimal lp⟩]) ++
  [⟨jstr "PrivateKey", i.privateKey.toBase64⟩]

/-- The lines that `wg-quick` leaves to `wg`. -/
def deviceLines (net : NetApi) (c : Config) : List JString :=
  Config.sectionLines (jstr "[Interface]") (deviceAttributes c.interfaze) ++
    c.peers.flatMap fun p => [] :: Config.sectionLines (jstr "[Peer]") (p.attributes net)

section Folds

variable {net : NetApi} {libc : Libc}

/-- The file is read line by line. -/
theorem setconf_lineBytes {lines : List JString}
    (hlines : ∀ line ∈ lines, Attribute.IsShown line) (append : Bool) :
    setconf libc append (lines.flatMap lineBytes) =
      (lines.foldlM (readLine libc) (configReadInit append)).bind configReadFinish := by
  have hfold : ∀ (lines : List JString) (ctx : ConfigCtx),
      (∀ line ∈ lines, Attribute.IsShown line) →
      (lines.map lineBytes).foldlM
        (fun ctx line => configReadLine libc ctx (ofBuffer line)) ctx =
        lines.foldlM (readLine libc) ctx := by
    intro lines
    induction lines with
    | nil => exact fun _ _ => rfl
    | cons line lines ih =>
      intro ctx hlines
      rw [List.forall_mem_cons] at hlines
      rw [List.map_cons, List.foldlM_cons, List.foldlM_cons, hlines.1.ofBuffer]
      exact congrArg _ (funext fun ctx => ih ctx hlines.2)
  rw [setconf, Attribute.getlines_lineBytes hlines, hfold lines _ hlines]
  rfl

/-- A header without its blanks. -/
theorem readLine_header {header : JString} (hshown : Attribute.IsShown header) (bytes : CString)
    (hclean : WgQuick.cleanLine (lineBytes header) = bytes) (hne : bytes ≠ [])
    (ctx : ConfigCtx) : readLine libc ctx header = processLine libc ctx bytes := by
  rw [readLine, configReadLine, hshown.cleanLine, hclean]
  exact if_neg hne

theorem readLine_interface (ctx : ConfigCtx) :
    readLine libc ctx (jstr "[Interface]") =
      .ok { ctx with device := ctx.closed, opened := .device } := by
  have hshown : Attribute.IsShown (jstr "[Interface]") :=
    List.forall_mem_iff_forall_getElem.mpr (by decide)
  rw [readLine_header hshown (cstr "[Interface]") (by decide) (by decide)]
  rfl

theorem readLine_peer (ctx : ConfigCtx) :
    readLine libc ctx (jstr "[Peer]") =
      .ok { ctx with device := ctx.closed, opened := .peer { replaceAllowedIps := true } } := by
  have hshown : Attribute.IsShown (jstr "[Peer]") :=
    List.forall_mem_iff_forall_getElem.mpr (by decide)
  rw [readLine_header hshown (cstr "[Peer]") (by decide) (by decide)]
  rfl

theorem readLine_blank (ctx : ConfigCtx) : readLine libc ctx [] = .ok ctx := by
  have hshown : Attribute.IsShown [] := List.forall_mem_nil _
  rw [readLine, configReadLine, hshown.cleanLine]
  exact if_pos (by decide)

/-- **The lines of a peer are the attributes of the peer.** -/
theorem foldlM_readLine_peer {attrs : List Attribute} (hkeys : ∀ a ∈ attrs, Attribute.IsKey a.key)
    (hvalues : ∀ a ∈ attrs, Attribute.IsShown a.value) {ctx : ConfigCtx} {last : Peer}
    (hopened : ctx.opened = .peer last) :
    (attrs.map Attribute.text).foldlM (readLine libc) ctx =
      (attrs.foldlM (readAttribute libc) (last, ctx.calls)).bind fun p =>
        .ok { ctx with opened := .peer p.1, calls := p.2 } := by
  induction attrs generalizing ctx last with
  | nil =>
    obtain ⟨device, opened, calls⟩ := ctx
    obtain rfl : opened = .peer last := hopened
    rfl
  | cons a attrs ih =>
    rw [List.forall_mem_cons] at hkeys hvalues
    rw [List.map_cons, List.foldlM_cons, List.foldlM_cons, readLine,
      configReadLine_peer hkeys.1 hvalues.1 hopened, ← readAttribute.eq_1 libc (last, ctx.calls)]
    cases readAttribute libc (last, ctx.calls) a with
    | error e => rfl
    | ok p => exact ih hkeys.2 hvalues.2 rfl

/-- A value of visible characters stands in the line as it is. -/
theorem readAttribute_eq {key : JString} (bytes : CString) (hkey : utf8 key = bytes)
    {value : JString} (hvalue : ∀ c ∈ value, 0x20 < c.toNat) (s : Peer × ℕ) :
    readAttribute libc s ⟨key, value⟩ =
      processPeerLine libc s.1 s.2 (bytes ++ cch '=' :: utf8 value) := by
  rw [readAttribute, WgQuick.cleanLine_utf8 hvalue, hkey]

theorem readAttribute_publicKey (key : Key) (s : Peer × ℕ) :
    readAttribute libc s ⟨jstr "PublicKey", key.toBase64⟩ =
      .ok ({ s.1 with publicKey := key, hasPublicKey := true }, s.2) := by
  have hvisible : ∀ c ∈ key.toBase64, 0x20 < c.toNat := fun c hc => by
    have hbounds := Key.bounds_of_mem_toBase64 hc
    omega
  have hne : utf8 key.toBase64 ≠ [] := utf8_ne_nil (by simp [Key.toBase64])
  rw [readAttribute_eq (cstr "PublicKey") (by decide) hvisible,
    processPeerLine_eq hne (by decide) (by decide), if_pos (by decide), parseKey_toBase64]
  rfl

theorem readAttribute_preSharedKey (key : Key) (s : Peer × ℕ) :
    readAttribute libc s ⟨jstr "PreSharedKey", key.toBase64⟩ =
      .ok ({ s.1 with presharedKey := key, hasPresharedKey := true }, s.2) := by
  have hvisible : ∀ c ∈ key.toBase64, 0x20 < c.toNat := fun c hc => by
    have hbounds := Key.bounds_of_mem_toBase64 hc
    omega
  have hne : utf8 key.toBase64 ≠ [] := utf8_ne_nil (by simp [Key.toBase64])
  rw [readAttribute_eq (cstr "PreSharedKey") (by decide) hvisible,
    processPeerLine_eq hne (by decide) (by decide), if_neg (by decide), if_neg (by decide),
    if_neg (by decide), if_pos (by decide), parseKey_toBase64]
  rfl

theorem readAttribute_persistentKeepalive {n : ℤ} (hpos : 0 < n) (hle : n ≤ 65535)
    (s : Peer × ℕ) :
    readAttribute libc s ⟨jstr "PersistentKeepalive", decimal n⟩ =
      .ok ({ s.1 with
        persistentKeepaliveInterval := n.toNat, hasPersistentKeepaliveInterval := true }, s.2) := by
  have hlow : 0 ≤ n := le_of_lt hpos
  have hvisible : ∀ c ∈ decimal n, 0x20 < c.toNat := fun c hc => by
    have hbounds := bounds_of_mem_decimal hlow c hc
    omega
  rw [readAttribute_eq (cstr "PersistentKeepalive") (by decide) hvisible,
    utf8_decimal hlow, processPeerLine_eq (digits_ne_nil _) (by decide) (by decide),
    if_neg (by decide), if_neg (by decide), if_pos (by decide),
    parsePersistentKeepalive_digits (by omega)]
  rfl

variable (h : Platform net libc)

include h

theorem readAttribute_allowedIps {networks : List InetNetwork} (hne : networks ≠ [])
    (hnetworks : ∀ n ∈ networks, ∃ s, InetNetwork.parse net s = .ok n) (s : Peer × ℕ) :
    readAttribute libc s ⟨jstr "AllowedIPs",
        Attribute.join (networks.map (InetNetwork.toJString net))⟩ =
      .ok ({ s.1 with
        allowedIps := s.1.allowedIps ++ networks.map allowedIpOf
        replaceAllowedIps := true }, s.2) := by
  have hplain := InetNetwork.isPlain_of_mem_map h.toDocumented hnetworks
  have hitems := Attribute.items_ne_nil (by simpa using hne) hplain
  rw [readAttribute, Attribute.cleanLine_join hplain,
    show utf8 (jstr "AllowedIPs") = cstr "AllowedIPs" by decide,
    processPeerLine_eq hitems (by decide) (by decide), if_neg (by decide), if_pos (by decide),
    parseAllowedips_items h hne hnetworks]
  rfl

theorem readAttribute_endpoint {ep : InetEndpoint} (hep : ∃ s, InetEndpoint.parse net s = .ok ep)
    (s : Peer × ℕ) :
    readAttribute libc s ⟨jstr "Endpoint", ep.toJString⟩ =
      (resolve libc (utf8 ep.toJString) (utf8 (bareHost ep.host)) (digits ep.port.toNat) s.2
        15).bind fun e => .ok ({ s.1 with endpoint := some e.1 }, e.2) := by
  have hcut := cutEndpoint_toJString h hep
  obtain ⟨t, ht⟩ := hep
  have hvisible : ∀ c ∈ ep.toJString, 0x20 < c.toNat := fun c hc =>
    (InetEndpoint.plain_toJString h.toDocumented ht c hc).1
  have hne : utf8 ep.toJString ≠ [] := utf8_ne_nil (by simp [InetEndpoint.toJString])
  rw [readAttribute_eq (cstr "Endpoint") (by decide) hvisible,
    processPeerLine_endpoint hne, parseEndpoint, hcut]
  rfl

/-- **The attributes of a peer are read back**, and its endpoint is resolved. -/
theorem foldlM_readAttribute {p : AioVpn.Peer} (hp : p.builder.Readable net) (n : ℕ) :
    (p.attributes net).foldlM (readAttribute libc) ({ replaceAllowedIps := true }, n) =
      (endpointOf libc p n).bind fun e => .ok (peerOf p e.1, e.2) := by
  -- the peer after each of the lines
  let b₁ : Peer :=
    { replaceAllowedIps := true, allowedIps := p.allowedIps.elems.map allowedIpOf }
  let b₂ (endpoint : Option SockAddr) : Peer := { b₁ with endpoint := endpoint }
  let b₃ (endpoint : Option SockAddr) : Peer :=
    { b₂ endpoint with
      persistentKeepaliveInterval := (p.persistentKeepalive.getD 0).toNat
      hasPersistentKeepaliveInterval := p.persistentKeepalive.isSome }
  let b₄ (endpoint : Option SockAddr) : Peer :=
    { b₃ endpoint with
      presharedKey := p.preSharedKey.getD zeroKey, hasPresharedKey := p.preSharedKey.isSome }
  have hallowed : (if p.allowedIps.isEmpty then [] else
      [⟨jstr "AllowedIPs", Attribute.join (p.allowedIps.elems.map (InetNetwork.toJString net))⟩] :
        List Attribute).foldlM (readAttribute libc) ({ replaceAllowedIps := true }, n) =
      .ok (b₁, n) := by
    refine ExceptFold.foldlM_unless (fun hempty => ?_) fun hne => ?_
    · simp only [b₁, LinkedHashSet.eq_empty hempty]
      rfl
    · exact readAttribute_allowedIps h (LinkedHashSet.elems_ne_nil hne) hp.allowedIps _
  have hendpoint : (p.endpoint.elim [] fun ep => [⟨jstr "Endpoint", ep.toJString⟩] :
        List Attribute).foldlM (readAttribute libc) (b₁, n) =
      (endpointOf libc p n).bind fun e => .ok (b₂ e.1, e.2) := by
    rw [endpointOf]
    cases hep : p.endpoint with
    | none => rfl
    | some ep =>
      rw [Option.elim_some, List.foldlM_cons, readAttribute_endpoint h (hp.endpoint ep hep)]
      dsimp only
      cases resolve libc (utf8 ep.toJString) (utf8 (bareHost ep.host)) (digits ep.port.toNat) n 15
        <;> rfl
  have hrest : ∀ e : Option SockAddr × ℕ,
      ((p.persistentKeepalive.elim [] fun pk => [⟨jstr "PersistentKeepalive", decimal pk⟩]) ++
        ((p.preSharedKey.elim [] fun psk => [⟨jstr "PreSharedKey", psk.toBase64⟩]) ++
          [⟨jstr "PublicKey", p.publicKey.toBase64⟩]) : List Attribute).foldlM (readAttribute libc)
            (b₂ e.1, e.2) = .ok (peerOf p e.1, e.2) := by
    intro e
    refine ExceptFold.foldlM_parts (b₃ e.1, e.2) ?_ (ExceptFold.foldlM_parts (b₄ e.1, e.2) ?_
      (ExceptFold.foldlM_one ?_))
    · refine ExceptFold.foldlM_elim (fun hnone => ?_) fun n hn => ?_
      · simp only [b₃, hnone]
        rfl
      · obtain ⟨hpos, hle⟩ := hp.persistentKeepalive n hn
        rw [readAttribute_persistentKeepalive hpos hle]
        simp only [b₃, hn]
        rfl
    · refine ExceptFold.foldlM_elim (fun hnone => ?_) fun key hkey => ?_
      · simp only [b₄, hnone]
        rfl
      · rw [readAttribute_preSharedKey]
        simp only [b₄, hkey]
        rfl
    · rw [readAttribute_publicKey]
      rfl
  rw [AioVpn.Peer.attributes, List.append_assoc, List.append_assoc, List.append_assoc,
    List.foldlM_append, hallowed]
  refine ExceptFold.bind_of_eq_ok rfl ?_
  rw [List.foldlM_append, hendpoint]
  cases endpointOf libc p n with
  | error e => rfl
  | ok e => exact hrest e

/-- **A peer's section.** -/
theorem foldlM_section {p : AioVpn.Peer} (hp : p.builder.Readable net) (ctx : ConfigCtx) :
    ([] :: Config.sectionLines (jstr "[Peer]") (p.attributes net)).foldlM (readLine libc) ctx =
      (endpointOf libc p ctx.calls).bind fun e =>
        .ok { device := ctx.closed, opened := .peer (peerOf p e.1), calls := e.2 } := by
  have hkeys := fun a ha => (Peer.isPrintable_attributes h.toDocumented hp a ha).key
  have hvalues := Peer.isShown_attributes h.toDocumented hp
  rw [List.foldlM_cons, readLine_blank]
  refine ExceptFold.bind_of_eq_ok rfl ?_
  rw [Config.sectionLines, List.foldlM_cons, readLine_peer]
  refine ExceptFold.bind_of_eq_ok rfl ((foldlM_readLine_peer hkeys hvalues rfl).trans ?_)
  rw [foldlM_readAttribute h hp]
  cases endpointOf libc p ctx.calls <;> rfl

/-- **The peers, one section after the other.** -/
theorem foldlM_sections {peers : List AioVpn.Peer} (hpeers : ∀ p ∈ peers, p.builder.Readable net)
    (ctx : ConfigCtx) (hctx : ctx.closed.peers.all Peer.hasPublicKey = true) :
    ((peers.flatMap fun p => [] :: Config.sectionLines (jstr "[Peer]") (p.attributes net)).foldlM
      (readLine libc) ctx).bind configReadFinish =
        (peersOf libc ctx.calls peers).map fun ps =>
          { ctx.closed with peers := ctx.closed.peers ++ ps } := by
  induction peers generalizing ctx with
  | nil =>
    have hfinish : configReadFinish ctx = .ok ctx.closed := if_pos hctx
    refine hfinish.trans ?_
    simp [peersOf, Except.map]
  | cons p peers ih =>
    rw [List.forall_mem_cons] at hpeers
    rw [List.flatMap_cons, List.foldlM_append, foldlM_section h hpeers.1, peersOf]
    cases endpointOf libc p ctx.calls with
    | error e => rfl
    | ok e =>
      let ctx' : ConfigCtx := ⟨ctx.closed, .peer (peerOf p e.1), e.2⟩
      have hclosed : ctx'.closed =
          { ctx.closed with peers := ctx.closed.peers ++ [peerOf p e.1] } := rfl
      have hkeys : ctx'.closed.peers.all Peer.hasPublicKey = true := by
        rw [hclosed, List.all_append, hctx]
        rfl
      refine (ih hpeers.2 ctx' hkeys).trans ?_
      change (peersOf libc e.2 peers).map _ =
        Except.map _ ((peersOf libc e.2 peers).bind fun ps => .ok (peerOf p e.1 :: ps))
      cases peersOf libc e.2 peers with
      | error e => rfl
      | ok ps => simp [Except.map, Except.bind, hclosed]

omit h in
/-- The key of the interface. -/
theorem readLine_privateKey (key : Key) {ctx : ConfigCtx} (hopened : ctx.opened = .device) :
    readLine libc ctx (Attribute.text ⟨jstr "PrivateKey", key.toBase64⟩) =
      .ok { ctx with device := { ctx.device with privateKey := key, hasPrivateKey := true } } := by
  have hkey : Attribute.IsKey (jstr "PrivateKey") := by decide
  have hvisible : ∀ c ∈ key.toBase64, 0x20 < c.toNat := fun c hc => by
    have hbounds := Key.bounds_of_mem_toBase64 hc
    omega
  have hne : utf8 key.toBase64 ≠ [] := utf8_ne_nil (by simp [Key.toBase64])
  rw [readLine, configReadLine_device hkey (isShown_toBase64 key) hopened,
    WgQuick.cleanLine_utf8 hvisible, show utf8 (jstr "PrivateKey") = cstr "PrivateKey" by decide,
    processDeviceLine_privateKey hne, parseKey_toBase64]
  rfl

/-- The port of the interface. -/
theorem readLine_listenPort {n : ℤ} (hpos : 0 < n) (hle : n ≤ 65535) {ctx : ConfigCtx}
    (hopened : ctx.opened = .device) :
    readLine libc ctx (Attribute.text ⟨jstr "ListenPort", decimal n⟩) =
      .ok { ctx with
        device := { ctx.device with listenPort := n.toNat, hasListenPort := true } } := by
  have hkey : Attribute.IsKey (jstr "ListenPort") := by decide
  have hlow : 0 ≤ n := le_of_lt hpos
  have hvisible : ∀ c ∈ decimal n, 0x20 < c.toNat := fun c hc => by
    have hbounds := bounds_of_mem_decimal hlow c hc
    omega
  rw [readLine, configReadLine_device hkey (isShown_decimal hlow) hopened,
    WgQuick.cleanLine_utf8 hvisible, show utf8 (jstr "ListenPort") = cstr "ListenPort" by decide,
    utf8_decimal hlow, processDeviceLine_listenPort (digits_ne_nil _),
    parsePort_digits h (by omega)]
  rfl

/-- **The section of the interface.** -/
theorem foldlM_interface {i : Interface} (hi : i.builder.Readable net) :
    (Config.sectionLines (jstr "[Interface]") (deviceAttributes i)).foldlM (readLine libc)
      (configReadInit false) = .ok ⟨interfaceOf i [], .device, 0⟩ := by
  let device : Device := (configReadInit false).device
  let b₁ : ConfigCtx :=
    ⟨{ device with listenPort := (i.listenPort.getD 0).toNat }, .device, 0⟩
  rw [Config.sectionLines, List.foldlM_cons, readLine_interface]
  refine ExceptFold.bind_of_eq_ok rfl ?_
  rw [deviceAttributes, List.foldlM_map]
  refine ExceptFold.foldlM_parts b₁ ?_ (ExceptFold.foldlM_one ?_)
  · refine ExceptFold.foldlM_elim (fun hnone => ?_) fun n hn => ?_
    · simp only [b₁, hnone]
      rfl
    · obtain ⟨hpos, hle⟩ := hi.listenPort n hn
      rw [readLine_listenPort h hpos hle rfl]
      simp only [b₁, hn]
      rfl
  · rw [readLine_privateKey _ rfl]
    rfl

omit h in
theorem isShown_deviceAttributes {i : Interface} (hi : i.builder.Readable net) :
    ∀ line ∈ Config.sectionLines (jstr "[Interface]") (deviceAttributes i),
      Attribute.IsShown line := by
  refine Config.isShown_sectionLines (List.forall_mem_iff_forall_getElem.mpr (by decide)) ?_ ?_
  · simp only [deviceAttributes, List.forall_mem_append, Attribute.forall_mem_elim,
      List.forall_mem_singleton]
    exact ⟨fun _ _ => (by decide : Attribute.IsKey (jstr "ListenPort")),
      (by decide : Attribute.IsKey (jstr "PrivateKey"))⟩
  · simp only [deviceAttributes, List.forall_mem_append, Attribute.forall_mem_elim,
      List.forall_mem_singleton]
    exact ⟨fun n hn => isShown_decimal (le_of_lt (hi.listenPort n hn).1), isShown_toBase64 _⟩

/-- **The device that `wg setconf` hands to the kernel** is the one of the configuration. -/
theorem setconf_deviceLines {c : Config} {text : JString} (hparse : Config.parse net text = .ok c) :
    setconf libc false ((deviceLines net c).flatMap lineBytes) = deviceOf libc c := by
  obtain ⟨hi, hpeers⟩ := Config.readable_of_parse hparse
  have hshown : ∀ line ∈ deviceLines net c, Attribute.IsShown line :=
    List.forall_mem_append.mpr
      ⟨isShown_deviceAttributes hi, Config.isShown_peerLines h.toDocumented hpeers⟩
  rw [setconf_lineBytes hshown, deviceLines, List.foldlM_append, foldlM_interface h hi]
  exact foldlM_sections h hpeers ⟨interfaceOf c.interfaze [], .device, 0⟩ rfl

end Folds

/-- A library that knows the two addresses of the sample platform and all ports. -/
def sampleLibc : Libc where
  charSigned := true
  inetPton4 s :=
    if s = cstr "10.0.0.2" then some 0x0a000002
    else if s = cstr "1.1.1.1" then some 0x01010101
    else none
  inetPton6 _ := none
  service s := .ok (some (strtoul s 10).1)
  getaddrinfo _ _ _ := .ok (some ⟨.inet4 0x01010101, 51820⟩)
  strerror _ := []

theorem sample_platform : Platform sampleNet sampleLibc where
  toDocumented := sampleNet_documented
  inet4 s x hx := by
    have htexts : ∀ x, x = 0x0a000002#32 ∨ x = 0x01010101#32 →
        (∀ c ∈ sampleNet.getHostAddress (.inet4 x), c.isDigit = true ∨ c = ch '.') ∧
          sampleLibc.inetPton4 (utf8 (sampleNet.getHostAddress (.inet4 x))) = some x := by
      rintro x (rfl | rfl)
      · exact ⟨List.forall_mem_iff_forall_getElem.mpr (by decide), by decide⟩
      · exact ⟨List.forall_mem_iff_forall_getElem.mpr (by decide), by decide⟩
    rcases sampleNet_parse hx with ⟨-, h⟩ | ⟨-, h⟩
    · exact htexts x (Or.inl (InetAddress.inet4.inj h))
    · exact htexts x (Or.inr (InetAddress.inet4.inj h))
  inet6 s x hx := by
    rcases sampleNet_parse hx with ⟨-, h⟩ | ⟨-, h⟩
    · exact absurd h (by simp)
    · exact absurd h (by simp)
  uri_host s host port hs := by
    obtain ⟨rfl, -⟩ := sampleNet_uri hs
    exact Or.inl (by decide)
  service n hn := by
    have hdigits : strtoul (digits n) 10 = (n, []) := strtoul_digits (by omega)
    exact congrArg (fun x => Except.ok (some x.1)) hdigits

end Wg
end AioVpn
