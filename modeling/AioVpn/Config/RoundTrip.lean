import AioVpn.Config.NamedApplications
import AioVpn.Config.Readable

/-!
# Parsing what was printed

`Config.parse` on the text that `Config.toWgQuickString` prints of a configuration which came
out of `Config.parse`.

Everything is read back except two things.  The search domains share the line of the DNS
servers, and that line is only printed if there are servers.  And the packages are joined at
the end of a line, which the parser trims: if the last package of a set is empty or ends with
a control character or a blank, it is not read as it was printed.

`read_back_iff` says that these are the only losses: the configuration is read back with the
same attributes exactly if `ReadsBack` holds of it.
-/

namespace AioVpn

open JString

/-! ## Sections and their builders -/

namespace Interface

variable {net : NetApi}

/-- The builder an interface was built from. -/
def builder (i : Interface) : InterfaceBuilder where
  addresses := i.addresses
  dnsServers := i.dnsServers
  dnsSearchDomains := i.dnsSearchDomains
  excludedApplications := i.excludedApplications
  includedApplications := i.includedApplications
  keyPair := some i.privateKey
  listenPort := i.listenPort
  mtu := i.mtu

theorem parse_eq_ok_iff_foldlM {lines : List JString} {i : Interface} :
    parse net lines = .ok i ↔ lines.foldlM (parseLine net) {} = .ok i.builder := by
  rw [parse, ExceptFold.bind_eq_ok_iff]
  constructor
  · rintro ⟨b, hfold, hbuild⟩
    obtain ⟨hsettings, hexcluded, hincluded⟩ := build_eq_ok_iff.mp hbuild
    rw [hfold, builder, hsettings.addresses, hsettings.dnsServers, hsettings.dnsSearchDomains,
      ← hsettings.privateKey, hsettings.listenPort, hsettings.mtu, hexcluded, hincluded]
  · intro hfold
    exact ⟨i.builder, hfold, build_eq_ok_iff.mpr ⟨⟨rfl, rfl, rfl, rfl, rfl, rfl⟩, rfl, rfl⟩⟩

theorem readable_of_parse {lines : List JString} (hlines : CleanLines lines) {i : Interface}
    (h : parse net lines = .ok i) : i.builder.Readable net := by
  have hempty : InterfaceBuilder.Readable net {} :=
    ⟨by simp, by simp, by simp, by simp, by simp, by simp, by simp⟩
  refine ExceptFold.foldlM_invariant (parse_eq_ok_iff_foldlM.mp h) hempty ?_
  intro line hline b b' hb hstep
  exact readable_parseLine (hlines line hline) hb hstep

end Interface

namespace Peer

variable {net : NetApi}

/-- The builder a peer was built from. -/
def builder (p : Peer) : PeerBuilder where
  allowedIps := p.allowedIps
  endpoint := p.endpoint
  persistentKeepalive := p.persistentKeepalive
  preSharedKey := p.preSharedKey
  publicKey := some p.publicKey

theorem parse_eq_ok_iff_foldlM {lines : List JString} {p : Peer} :
    parse net lines = .ok p ↔ lines.foldlM (parseLine net) {} = .ok p.builder := by
  rw [parse, ExceptFold.bind_eq_ok_iff]
  constructor
  · rintro ⟨⟨allowedIps, endpoint, keepalive, psk, key⟩, hfold, hbuild⟩
    cases key with
    | none => exact absurd hbuild (by simp [PeerBuilder.build])
    | some key =>
      rw [hfold, ← Except.ok.inj hbuild]
      rfl
  · intro hfold
    exact ⟨p.builder, hfold, rfl⟩

theorem readable_of_parse {lines : List JString} {p : Peer} (h : parse net lines = .ok p) :
    p.builder.Readable net := by
  have hempty : PeerBuilder.Readable net {} := ⟨by simp, by simp, by simp⟩
  refine ExceptFold.foldlM_invariant (parse_eq_ok_iff_foldlM.mp h) hempty ?_
  intro line _ b b' hb hstep
  exact readable_parseLine hb hstep

end Peer

/-- **What the parser can put into a configuration.** -/
theorem Config.readable_of_parse {net : NetApi} {text : JString} {c : Config}
    (h : Config.parse net text = .ok c) :
    c.interfaze.builder.Readable net ∧ ∀ p ∈ c.peers, p.builder.Readable net := by
  rw [parse_eq_parseLines_lines, parseLines_eq_ok_iff] at h
  constructor
  · refine Interface.readable_of_parse ?_ h.interfaze
    intro line hline attr hattr
    obtain ⟨b, hb, hcontent⟩ := List.mem_flatMap.mp hline
    refine cleanLines_content (fun raw hraw => ?_) line hcontent attr hattr
    exact oneLine_of_mem_lines _ ((Blocks.of_mem_blocks (List.mem_filter.mp hb).1).2.2 raw hraw)
  · have hpeers : ∀ {ls : List (List JString)} {ps : List Peer}, PeersRead net ls ps →
        ∀ p ∈ ps, p.builder.Readable net := by
      intro ls ps hread
      induction hread with
      | nil => simp
      | cons hp _ ih => exact List.forall_mem_cons.mpr ⟨Peer.readable_of_parse hp, ih⟩
    exact hpeers h.peers

/-! ## One attribute after the other -/

namespace Attribute

variable {β ε : Type} {f : β → JString → Except ε β}

theorem forall_mem_unless {α : Type} {P : α → Prop} {isEmpty : Bool} {a : α} :
    (∀ x ∈ if isEmpty then [] else [a], P x) ↔ (isEmpty = false → P a) := by
  cases isEmpty <;> simp

theorem forall_mem_elim {α γ : Type} {P : γ → Prop} {o : Option α} {attr : α → γ} :
    (∀ x ∈ o.elim [] fun y => [attr y], P x) ↔ ∀ y ∈ o, P (attr y) := by
  cases o <;> simp

theorem isPrintable_join {key : JString} (hkey : IsKey key) {names : List JString}
    (hnames : ∀ name ∈ names, IsPiece name) : IsPrintable ⟨key, join names⟩ where
  key := hkey
  noComment := fun h => (plain_join hnames _ h).1 rfl
  oneLine := fun c hc => (plain_join hnames c hc).2

theorem IsValue.parse_text {key value : JString} (hvalue : IsValue value) (hkey : IsKey key) :
    parse (Config.cleanLine (text ⟨key, value⟩)) = some ⟨key, value⟩ :=
  hvalue.parse_cleanLine hkey

theorem IsValue.isPrintable {key value : JString} (hvalue : IsValue value) (hkey : IsKey key) :
    IsPrintable ⟨key, value⟩ := ⟨hkey, hvalue.noComment, hvalue.oneLine⟩

/-- A fold that adds the values of a list to a set. -/
theorem foldlM_add {α : Type} [DecidableEq α] (put : LinkedHashSet α → β) (print : α → JString)
    {l : List α} (hstep : ∀ a ∈ l, ∀ s, f (put s) (print a) = .ok (put (s.add a)))
    (s : LinkedHashSet α) : (l.map print).foldlM f (put s) = .ok (put (s.addAll l)) := by
  induction l generalizing s with
  | nil => rfl
  | cons a l ih =>
    rw [List.map_cons, List.foldlM_cons, hstep a List.mem_cons_self]
    exact ih (fun x hx => hstep x (List.mem_cons_of_mem _ hx)) _

theorem isValue_decimal {n : ℤ} (hn : 0 ≤ n) : IsValue (decimal n) :=
  isValue_of_plain (decimal_ne_nil hn) fun _ hc =>
    ⟨(plain_of_mem_decimal hn hc).1, (plain_of_mem_decimal hn hc).2.2⟩

end Attribute

/-- A key is printed as visible characters. -/
theorem Key.isValue_toBase64 (k : Key) : Attribute.IsValue k.toBase64 := by
  refine Attribute.isValue_of_plain (by simp [toBase64]) fun c hc => ?_
  have hbounds := (bounds_of_mem_toBase64 hc).1
  refine ⟨by omega, ?_⟩
  rintro rfl
  revert hbounds
  decide

/-- The networks of a section, as they are printed. -/
theorem InetNetwork.isPlain_of_mem_map {net : NetApi} (hnet : net.Documented)
    {networks : List InetNetwork} (hs : ∀ n ∈ networks, ∃ t, InetNetwork.parse net t = .ok n) :
    ∀ name ∈ networks.map (toJString net), Attribute.IsPlain name := by
  intro name hname
  obtain ⟨n, hn, rfl⟩ := List.mem_map.mp hname
  obtain ⟨t, ht⟩ := hs n hn
  exact plain_toJString hnet ht

/-! ## The interface -/

namespace Interface

variable {net : NetApi} (hnet : net.Documented) {i : Interface} (hi : i.builder.Readable net)

include hnet hi

/-- The servers and the search domains, as they are printed. -/
theorem isPlain_dns : ∀ name ∈ i.dnsServers.elems.map net.getHostAddress ++
    i.dnsSearchDomains.elems, Attribute.IsPlain name := by
  intro name hname
  rcases List.mem_append.mp hname with hname | hname
  · obtain ⟨a, -, rfl⟩ := List.mem_map.mp hname
    exact ⟨hnet.getHostAddress_ne_nil a, hnet.getHostAddress_plain a⟩
  · exact InetAddresses.plain_of_isHostname (hi.dnsSearchDomains name hname).1

theorem isPrintable_attributes : ∀ a ∈ i.attributes net, a.IsPrintable := by
  simp only [attributes, List.forall_mem_append, Attribute.forall_mem_unless,
    Attribute.forall_mem_elim, List.forall_mem_singleton]
  refine ⟨⟨⟨⟨⟨⟨fun _ => ?_, fun _ => ?_⟩, fun _ => ?_⟩, fun _ => ?_⟩, fun n hn => ?_⟩,
    fun n hn => ?_⟩, ?_⟩
  · exact Attribute.isPrintable_join (by decide) fun name hname =>
      Attribute.isPiece_of_plain (InetNetwork.isPlain_of_mem_map hnet hi.addresses name hname).2
  · exact Attribute.isPrintable_join (by decide) fun name hname =>
      Attribute.isPiece_of_plain (isPlain_dns hnet hi name hname).2
  · exact Attribute.isPrintable_join (by decide) hi.excludedApplications
  · exact Attribute.isPrintable_join (by decide) hi.includedApplications
  · have hpos := (hi.listenPort n hn).1
    exact (Attribute.isValue_decimal (by omega)).isPrintable (by decide)
  · have hpos := (hi.mtu n hn).1
    exact (Attribute.isValue_decimal (by omega)).isPrintable (by decide)
  · exact (Key.isValue_toBase64 _).isPrintable (by decide)

/-! ### What each line does -/

omit hnet hi in
theorem parseLine_text {key value : JString} (hkey : Attribute.IsKey key)
    (hvalue : Attribute.IsValue value) {k : InterfaceKey} {b : InterfaceBuilder} :
    InterfaceKey.ofKey key = some k →
      parseLine net b (Config.cleanLine (Attribute.text ⟨key, value⟩)) =
        match k with
        | .address => b.parseAddresses net value
        | .dns => b.parseDnsServers net value
        | .excludedApplications => .ok (b.parseExcludedApplications value)
        | .includedApplications => .ok (b.parseIncludedApplications value)
        | .listenPort => b.parseListenPort value
        | .mtu => b.parseMtu value
        | .privateKey => b.parsePrivateKey value := by
  intro hk
  rw [parseLine, hvalue.parse_text hkey]
  dsimp only
  rw [hk]
  cases k <;> rfl

theorem parseLine_addresses (hne : i.addresses.isEmpty = false) (b : InterfaceBuilder) :
    parseLine net b (Config.cleanLine (Attribute.text ⟨jstr "Address",
        Attribute.join (i.addresses.elems.map (InetNetwork.toJString net))⟩)) =
      .ok { b with addresses := b.addresses.addAll i.addresses.elems } := by
  have hplain := InetNetwork.isPlain_of_mem_map hnet hi.addresses
  have hpieces := fun name hname => Attribute.isPiece_of_plain (hplain name hname).2
  have hends := Attribute.endsVisibly_of_isPlain hplain
  have hnil : i.addresses.elems.map (InetNetwork.toJString net) ≠ [] := by
    simpa using LinkedHashSet.elems_ne_nil hne
  rw [parseLine_text (by decide) (Attribute.isValue_join hnil hpieces hends) (k := .address)
    (by decide)]
  dsimp only
  rw [InterfaceBuilder.parseAddresses, Attribute.split_join hnil hpieces hends]
  refine Attribute.foldlM_add (fun s => { b with addresses := s }) _ ?_ b.addresses
  intro n hn s
  obtain ⟨t, ht⟩ := hi.addresses n hn
  rw [InetNetwork.parse_toJString hnet ht]

theorem parseLine_dns (hne : i.dnsServers.isEmpty = false) (b : InterfaceBuilder) :
    parseLine net b (Config.cleanLine (Attribute.text ⟨jstr "DNS",
        Attribute.join (i.dnsServers.elems.map net.getHostAddress ++ i.dnsSearchDomains.elems)⟩)) =
      .ok { b with
        dnsServers := b.dnsServers.addAll i.dnsServers.elems
        dnsSearchDomains := b.dnsSearchDomains.addAll i.dnsSearchDomains.elems } := by
  have hplain := isPlain_dns hnet hi
  have hpieces := fun name hname => Attribute.isPiece_of_plain (hplain name hname).2
  have hends := Attribute.endsVisibly_of_isPlain hplain
  have hnil : i.dnsServers.elems.map net.getHostAddress ++ i.dnsSearchDomains.elems ≠ [] := by
    simp [LinkedHashSet.elems_ne_nil hne]
  rw [parseLine_text (by decide) (Attribute.isValue_join hnil hpieces hends) (k := .dns)
    (by decide)]
  dsimp only
  rw [InterfaceBuilder.parseDnsServers, Attribute.split_join hnil hpieces hends,
    List.foldlM_append]
  -- the servers come first
  refine ExceptFold.bind_of_eq_ok
    (Attribute.foldlM_add (fun s => { b with dnsServers := s }) _ ?_ b.dnsServers) ?_
  · intro a ha s
    obtain ⟨t, ht⟩ := hi.dnsServers a ha
    rw [InetAddresses.parse_getHostAddress hnet ht]
  · conv_lhs => rw [← List.map_id i.dnsSearchDomains.elems]
    refine Attribute.foldlM_add (fun s =>
      { b with dnsServers := b.dnsServers.addAll i.dnsServers.elems, dnsSearchDomains := s })
      id ?_ b.dnsSearchDomains
    intro d hd s
    obtain ⟨hhost, e, he⟩ := hi.dnsSearchDomains d hd
    rw [id, he]
    dsimp only
    rw [if_neg (by simp [hhost, InetAddresses.parsingClass_of_error he])]

omit hnet in
theorem parseLine_listenPort {n : ℤ} (hn : i.listenPort = some n) (b : InterfaceBuilder) :
    parseLine net b (Config.cleanLine (Attribute.text ⟨jstr "ListenPort", decimal n⟩)) =
      .ok { b with listenPort := some n } := by
  obtain ⟨hpos, hle⟩ := hi.listenPort n hn
  rw [parseLine_text (by decide) (Attribute.isValue_decimal (by omega)) (k := .listenPort)
    (by decide)]
  dsimp only
  rw [InterfaceBuilder.parseListenPort, parseInt_decimal (by omega) (by omega)]
  dsimp only
  rw [InterfaceBuilder.setListenPort, if_neg (by omega), if_neg (by omega)]

omit hnet in
theorem parseLine_mtu {n : ℤ} (hn : i.mtu = some n) (b : InterfaceBuilder) :
    parseLine net b (Config.cleanLine (Attribute.text ⟨jstr "MTU", decimal n⟩)) =
      .ok { b with mtu := some n } := by
  obtain ⟨hpos, hlt⟩ := hi.mtu n hn
  rw [parseLine_text (by decide) (Attribute.isValue_decimal (by omega)) (k := .mtu) (by decide)]
  dsimp only
  rw [InterfaceBuilder.parseMtu, parseInt_decimal (by omega) hlt]
  dsimp only
  rw [InterfaceBuilder.setMtu, if_neg (by omega), if_neg (by omega)]

/-- **An interface is read back**, if the search domains come with a server and the last
packages end visibly. -/
theorem parse_seen (hdns : i.dnsServers.isEmpty = true → i.dnsSearchDomains.isEmpty = true)
    (hexcluded : Attribute.EndsVisibly i.excludedApplications.elems)
    (hincluded : Attribute.EndsVisibly i.includedApplications.elems) :
    parse net (Attribute.seen (i.attributes net)) = .ok i := by
  rw [parse_eq_ok_iff_foldlM]
  -- the builder after each of the lines
  let b₁ : InterfaceBuilder := { addresses := i.addresses }
  let b₂ : InterfaceBuilder :=
    { b₁ with dnsServers := i.dnsServers, dnsSearchDomains := i.dnsSearchDomains }
  let b₃ : InterfaceBuilder := { b₂ with excludedApplications := i.excludedApplications }
  let b₄ : InterfaceBuilder := { b₃ with includedApplications := i.includedApplications }
  let b₅ : InterfaceBuilder := { b₄ with listenPort := i.listenPort }
  let b₆ : InterfaceBuilder := { b₅ with mtu := i.mtu }
  rw [attributes, Attribute.seen, List.foldlM_map]
  refine ExceptFold.foldlM_parts b₆ (ExceptFold.foldlM_parts b₅
    (ExceptFold.foldlM_parts b₄ (ExceptFold.foldlM_parts b₃
      (ExceptFold.foldlM_parts b₂ (ExceptFold.foldlM_parts b₁
        ?_ ?_) ?_) ?_) ?_) ?_) ?_
  · refine ExceptFold.foldlM_unless (fun hempty => ?_) fun hne => ?_
    · simp only [b₁, LinkedHashSet.eq_empty hempty]
    · rw [parseLine_addresses hnet hi hne, LinkedHashSet.empty_addAll_elems]
  · refine ExceptFold.foldlM_unless (fun hempty => ?_) fun hne => ?_
    · simp only [b₂, b₁, LinkedHashSet.eq_empty hempty, LinkedHashSet.eq_empty (hdns hempty)]
    · rw [parseLine_dns hnet hi hne, LinkedHashSet.empty_addAll_elems,
        LinkedHashSet.empty_addAll_elems]
  · refine ExceptFold.foldlM_unless (fun hempty => ?_) fun hne => ?_
    · simp only [b₃, b₂, b₁, LinkedHashSet.eq_empty hempty]
    · have hnil := LinkedHashSet.elems_ne_nil hne
      rw [parseLine_text (by decide) (Attribute.isValue_join hnil hi.excludedApplications hexcluded)
        (k := .excludedApplications) (by decide)]
      dsimp only
      rw [InterfaceBuilder.parseExcludedApplications,
        Attribute.split_join hnil hi.excludedApplications hexcluded,
        LinkedHashSet.empty_addAll_elems]
  · refine ExceptFold.foldlM_unless (fun hempty => ?_) fun hne => ?_
    · simp only [b₄, b₃, b₂, b₁, LinkedHashSet.eq_empty hempty]
    · have hnil := LinkedHashSet.elems_ne_nil hne
      rw [parseLine_text (by decide) (Attribute.isValue_join hnil hi.includedApplications hincluded)
        (k := .includedApplications) (by decide)]
      dsimp only
      rw [InterfaceBuilder.parseIncludedApplications,
        Attribute.split_join hnil hi.includedApplications hincluded,
        LinkedHashSet.empty_addAll_elems]
  · refine ExceptFold.foldlM_elim (fun hnone => ?_) fun n hn => ?_
    · simp only [b₅, b₄, b₃, b₂, b₁, hnone]
    · rw [parseLine_listenPort hi hn, ← hn]
  · refine ExceptFold.foldlM_elim (fun hnone => ?_) fun n hn => ?_
    · simp only [b₆, b₅, b₄, b₃, b₂, b₁, hnone]
    · rw [parseLine_mtu hi hn, ← hn]
  · refine ExceptFold.foldlM_one ?_
    rw [parseLine_text (by decide) (Key.isValue_toBase64 _) (k := .privateKey) (by decide)]
    dsimp only
    rw [InterfaceBuilder.parsePrivateKey, Key.fromBase64_toBase64]
    rfl

end Interface

/-! ## Peers -/

namespace Peer

variable {net : NetApi} (hnet : net.Documented) {p : Peer} (hp : p.builder.Readable net)

include hnet hp

theorem isValue_endpoint {ep : InetEndpoint} (hep : p.endpoint = some ep) :
    Attribute.IsValue ep.toJString := by
  obtain ⟨s, hs⟩ := hp.endpoint ep hep
  have hplain := InetEndpoint.plain_toJString hnet hs
  refine Attribute.isValue_of_plain (by simp [InetEndpoint.toJString]) fun c hc => ?_
  refine ⟨(hplain c hc).1, ?_⟩
  rintro rfl
  exact absurd (hplain _ hc).2 (by decide)

theorem isPrintable_attributes : ∀ a ∈ p.attributes net, a.IsPrintable := by
  simp only [attributes, List.forall_mem_append, Attribute.forall_mem_unless,
    Attribute.forall_mem_elim, List.forall_mem_singleton]
  refine ⟨⟨⟨⟨fun _ => ?_, fun ep hep => ?_⟩, fun n hn => ?_⟩, fun k _ => ?_⟩, ?_⟩
  · exact Attribute.isPrintable_join (by decide) fun name hname =>
      Attribute.isPiece_of_plain (InetNetwork.isPlain_of_mem_map hnet hp.allowedIps name hname).2
  · exact (isValue_endpoint hnet hp hep).isPrintable (by decide)
  · have hpos := (hp.persistentKeepalive n hn).1
    exact (Attribute.isValue_decimal (by omega)).isPrintable (by decide)
  · exact (Key.isValue_toBase64 k).isPrintable (by decide)
  · exact (Key.isValue_toBase64 _).isPrintable (by decide)

/-! ### What each line does -/

theorem parseLine_allowedIps (hne : p.allowedIps.isEmpty = false) (b : PeerBuilder) :
    parseLine net b (Config.cleanLine (Attribute.text ⟨jstr "AllowedIPs",
        Attribute.join (p.allowedIps.elems.map (InetNetwork.toJString net))⟩)) =
      .ok { b with allowedIps := b.allowedIps.addAll p.allowedIps.elems } := by
  have hplain := InetNetwork.isPlain_of_mem_map hnet hp.allowedIps
  have hpieces := fun name hname => Attribute.isPiece_of_plain (hplain name hname).2
  have hends := Attribute.endsVisibly_of_isPlain hplain
  have hnil : p.allowedIps.elems.map (InetNetwork.toJString net) ≠ [] := by
    simpa using LinkedHashSet.elems_ne_nil hne
  rw [parseLine, (Attribute.isValue_join hnil hpieces hends).parse_text (by decide)]
  dsimp only
  rw [if_pos (by decide), PeerBuilder.parseAllowedIPs, Attribute.split_join hnil hpieces hends]
  refine Attribute.foldlM_add (fun s => { b with allowedIps := s }) _ ?_ b.allowedIps
  intro n hn s
  obtain ⟨t, ht⟩ := hp.allowedIps n hn
  rw [InetNetwork.parse_toJString hnet ht]

theorem parseLine_endpoint {ep : InetEndpoint} (hep : p.endpoint = some ep) (b : PeerBuilder) :
    parseLine net b (Config.cleanLine (Attribute.text ⟨jstr "Endpoint", ep.toJString⟩)) =
      .ok { b with endpoint := some ep } := by
  obtain ⟨s, hs⟩ := hp.endpoint ep hep
  rw [parseLine, (isValue_endpoint hnet hp hep).parse_text (by decide)]
  dsimp only
  rw [if_neg (by decide), if_pos (by decide), PeerBuilder.parseEndpoint,
    InetEndpoint.parse_toJString hnet hs]

omit hnet in
theorem parseLine_persistentKeepalive {n : ℤ} (hn : p.persistentKeepalive = some n)
    (b : PeerBuilder) :
    parseLine net b (Config.cleanLine (Attribute.text ⟨jstr "PersistentKeepalive", decimal n⟩)) =
      .ok { b with persistentKeepalive := some n } := by
  obtain ⟨hpos, hle⟩ := hp.persistentKeepalive n hn
  rw [parseLine, (Attribute.isValue_decimal (by omega)).parse_text (by decide)]
  dsimp only
  rw [if_neg (by decide), if_neg (by decide), if_pos (by decide),
    PeerBuilder.parsePersistentKeepalive, parseInt_decimal (by omega) (by omega)]
  dsimp only
  rw [PeerBuilder.setPersistentKeepalive, if_neg (by omega), if_neg (by omega)]

omit hnet hp in
theorem parseLine_preSharedKey (k : Key) (b : PeerBuilder) :
    parseLine net b (Config.cleanLine (Attribute.text ⟨jstr "PreSharedKey", k.toBase64⟩)) =
      .ok { b with preSharedKey := some k } := by
  rw [parseLine, k.isValue_toBase64.parse_text (by decide)]
  dsimp only
  rw [if_neg (by decide), if_neg (by decide), if_neg (by decide), if_pos (by decide),
    PeerBuilder.parsePreSharedKey, Key.fromBase64_toBase64]

omit hnet hp in
theorem parseLine_publicKey (k : Key) (b : PeerBuilder) :
    parseLine net b (Config.cleanLine (Attribute.text ⟨jstr "PublicKey", k.toBase64⟩)) =
      .ok { b with publicKey := some k } := by
  rw [parseLine, k.isValue_toBase64.parse_text (by decide)]
  dsimp only
  rw [if_neg (by decide), if_neg (by decide), if_neg (by decide), if_neg (by decide),
    if_pos (by decide), PeerBuilder.parsePublicKey, Key.fromBase64_toBase64]

/-- **A peer is read back.** -/
theorem parse_seen : parse net (Attribute.seen (p.attributes net)) = .ok p := by
  rw [parse_eq_ok_iff_foldlM]
  -- the builder after each of the lines
  let b₁ : PeerBuilder := { allowedIps := p.allowedIps }
  let b₂ : PeerBuilder := { b₁ with endpoint := p.endpoint }
  let b₃ : PeerBuilder := { b₂ with persistentKeepalive := p.persistentKeepalive }
  let b₄ : PeerBuilder := { b₃ with preSharedKey := p.preSharedKey }
  rw [attributes, Attribute.seen, List.foldlM_map]
  refine ExceptFold.foldlM_parts b₄ (ExceptFold.foldlM_parts b₃
    (ExceptFold.foldlM_parts b₂ (ExceptFold.foldlM_parts b₁
      ?_ ?_) ?_) ?_) ?_
  · refine ExceptFold.foldlM_unless (fun hempty => ?_) fun hne => ?_
    · simp only [b₁, LinkedHashSet.eq_empty hempty]
    · rw [parseLine_allowedIps hnet hp hne, LinkedHashSet.empty_addAll_elems]
  · refine ExceptFold.foldlM_elim (fun hnone => ?_) fun ep hep => ?_
    · simp only [b₂, b₁, hnone]
    · rw [parseLine_endpoint hnet hp hep, ← hep]
  · refine ExceptFold.foldlM_elim (fun hnone => ?_) fun n hn => ?_
    · simp only [b₃, b₂, b₁, hnone]
    · rw [parseLine_persistentKeepalive hp hn, ← hn]
  · refine ExceptFold.foldlM_elim (fun hnone => ?_) fun k hk => ?_
    · simp only [b₄, b₃, b₂, b₁, hnone]
    · rw [parseLine_preSharedKey, ← hk]
  · exact ExceptFold.foldlM_one (parseLine_publicKey p.publicKey b₄)

end Peer

/-! ## What is lost -/

namespace Attribute

/-- What the parser finds in the line of an attribute. -/
theorem eq_of_parse_seen {a attr : Attribute} (ha : a.IsPrintable)
    (h : parse (Config.cleanLine a.text) = some attr) :
    attr.key = a.key ∧ attr.value = trimmed a.value ∧ trimmed a.value ≠ [] := by
  rw [text, parse_cleanLine ha.key ha.noComment] at h
  split at h
  · exact absurd h (by simp)
  · rename_i hne
    rw [← Option.some.inj h]
    exact ⟨rfl, rfl, hne⟩

/-- **The last package is lost** if it does not end visibly. -/
theorem endsVisibly_of_mem_namedBy {key : InterfaceKey} {attrs : List Attribute}
    (hattrs : ∀ a ∈ attrs, a.IsPrintable) {names : LinkedHashSet JString}
    (hnames : ∀ name ∈ names, IsPiece name)
    (hvalue : ∀ a ∈ attrs, InterfaceKey.ofKey a.key = some key → a.value = join names.elems)
    (hmem : ∀ name ∈ names, name ∈ namedBy key (seen attrs)) : EndsVisibly names.elems := by
  intro last hlast
  by_contra hends
  obtain ⟨front, hfront⟩ := List.getLast?_eq_some_iff.mp hlast
  have hnodup := names.nodup
  rw [hfront] at hnodup
  have hnew : last ∉ front := fun h =>
    List.disjoint_of_nodup_append hnodup h List.mem_cons_self
  have hlast_mem : last ∈ names := List.mem_of_getLast? hlast
  obtain ⟨line, hline, hin⟩ := List.mem_flatMap.mp (hmem last hlast_mem)
  obtain ⟨a, ha, rfl⟩ := List.mem_map.mp hline
  rw [namesIn] at hin
  split at hin
  · rename_i attr hattr
    obtain ⟨hkey, hval, hne⟩ := eq_of_parse_seen (hattrs a ha) hattr
    split at hin
    · rename_i hofKey
      rw [hkey] at hofKey
      rw [hval] at hin
      rw [hvalue a ha hofKey, hfront] at hin hne
      refine not_mem_split_trimmed_join (fun n hn => hnames n ?_) (hnames last hlast_mem) hnew
        hends hne hin
      rw [LinkedHashSet.mem_def, hfront]
      exact List.mem_append_left _ hn
    · exact absurd hin (by simp)
  · exact absurd hin (by simp)

end Attribute

namespace Interface

variable {net : NetApi}

/-- What is printed under the keys that share or trim a line. -/
theorem attributes_by_key (i : Interface) : ∀ a ∈ i.attributes net,
    (InterfaceKey.ofKey a.key = some .dns → i.dnsServers.isEmpty = false) ∧
    (InterfaceKey.ofKey a.key = some .excludedApplications →
      a.value = Attribute.join i.excludedApplications.elems) ∧
    (InterfaceKey.ofKey a.key = some .includedApplications →
      a.value = Attribute.join i.includedApplications.elems) := by
  simp only [attributes, List.forall_mem_append, Attribute.forall_mem_unless,
    Attribute.forall_mem_elim, List.forall_mem_singleton]
  refine ⟨⟨⟨⟨⟨⟨fun _ => ⟨?_, ?_, ?_⟩, fun hne => ⟨fun _ => hne, ?_, ?_⟩⟩,
    fun _ => ⟨?_, fun _ => trivial, ?_⟩⟩, fun _ => ⟨?_, ?_, fun _ => trivial⟩⟩,
    fun _ _ => ⟨?_, ?_, ?_⟩⟩, fun _ _ => ⟨?_, ?_, ?_⟩⟩, ⟨?_, ?_, ?_⟩⟩
  all_goals exact fun hkey => absurd hkey (by decide)

variable {i i' : Interface} (hprint : ∀ a ∈ i.attributes net, a.IsPrintable)
  (h : parse net (Attribute.seen (i.attributes net)) = .ok i')

include hprint h

/-- **The search domains are lost** without a server. -/
theorem dnsSearchDomains_of_parse_seen (hempty : i.dnsServers.isEmpty = true) :
    i'.dnsSearchDomains = .empty := by
  refine ExceptFold.foldlM_invariant (P := fun b => b.dnsSearchDomains = .empty)
    (parse_eq_ok_iff_foldlM.mp h) rfl ?_
  intro line hline b b' hb hstep
  obtain ⟨a, ha, rfl⟩ := List.mem_map.mp hline
  obtain ⟨attr, hattr, -, hdomains⟩ := parseLine_frame hstep
  rw [hdomains fun hkey => ?_, hb]
  rw [(Attribute.eq_of_parse_seen (hprint a ha) hattr).1] at hkey
  exact absurd (hempty.symm.trans ((attributes_by_key i a ha).1 hkey)) (by simp)

theorem endsVisibly_excludedApplications
    (hpieces : ∀ name ∈ i.excludedApplications, Attribute.IsPiece name)
    (hsame : ∀ name ∈ i.excludedApplications, name ∈ i'.excludedApplications) :
    Attribute.EndsVisibly i.excludedApplications.elems :=
  Attribute.endsVisibly_of_mem_namedBy hprint hpieces
    (fun a ha => (attributes_by_key i a ha).2.1)
    fun name hname => (mem_excludedApplications h name).mp (hsame name hname)

theorem endsVisibly_includedApplications
    (hpieces : ∀ name ∈ i.includedApplications, Attribute.IsPiece name)
    (hsame : ∀ name ∈ i.includedApplications, name ∈ i'.includedApplications) :
    Attribute.EndsVisibly i.includedApplications.elems :=
  Attribute.endsVisibly_of_mem_namedBy hprint hpieces
    (fun a ha => (attributes_by_key i a ha).2.2)
    fun name hname => (mem_includedApplications h name).mp (hsame name hname)

end Interface

/-! ## The round trip -/

/-- The same attributes of an interface; the sets are compared as sets. -/
structure Interface.SameAttributes (i j : Interface) : Prop where
  addresses : ∀ n, n ∈ j.addresses ↔ n ∈ i.addresses
  dnsServers : ∀ a, a ∈ j.dnsServers ↔ a ∈ i.dnsServers
  dnsSearchDomains : ∀ d, d ∈ j.dnsSearchDomains ↔ d ∈ i.dnsSearchDomains
  excludedApplications : ∀ name, name ∈ j.excludedApplications ↔ name ∈ i.excludedApplications
  includedApplications : ∀ name, name ∈ j.includedApplications ↔ name ∈ i.includedApplications
  listenPort : j.listenPort = i.listenPort
  mtu : j.mtu = i.mtu
  privateKey : j.privateKey = i.privateKey

/-- The same attributes of a peer. -/
structure Peer.SameAttributes (p q : Peer) : Prop where
  allowedIps : ∀ n, n ∈ q.allowedIps ↔ n ∈ p.allowedIps
  endpoint : (q.endpoint.map fun ep => (ep.host, ep.port)) =
    p.endpoint.map fun ep => (ep.host, ep.port)
  persistentKeepalive : q.persistentKeepalive = p.persistentKeepalive
  preSharedKey : q.preSharedKey = p.preSharedKey
  publicKey : q.publicKey = p.publicKey

namespace Config

/-- The same attributes of a configuration, with the peers in order. -/
structure SameAttributes (c d : Config) : Prop where
  interfaze : c.interfaze.SameAttributes d.interfaze
  peers : List.Forall₂ Peer.SameAttributes c.peers d.peers

theorem SameAttributes.refl (c : Config) : SameAttributes c c where
  interfaze := ⟨fun _ => Iff.rfl, fun _ => Iff.rfl, fun _ => Iff.rfl, fun _ => Iff.rfl,
    fun _ => Iff.rfl, rfl, rfl, rfl⟩
  peers := List.forall₂_same.mpr fun _ _ => ⟨fun _ => Iff.rfl, rfl, rfl, rfl, rfl⟩

/-- The search domains come with a server, and in both sets of packages the last one is not
empty and ends with a visible character. -/
structure ReadsBack (c : Config) : Prop where
  dns : c.interfaze.dnsServers.isEmpty = true → c.interfaze.dnsSearchDomains.isEmpty = true
  excludedApplications : Attribute.EndsVisibly c.interfaze.excludedApplications.elems
  includedApplications : Attribute.EndsVisibly c.interfaze.includedApplications.elems

section RoundTrip

variable {net : NetApi} (hnet : net.Documented) {text : JString} {c : Config}
  (hparse : parse net text = .ok c)

include hnet hparse

theorem isPrintable_of_parse : IsPrintable net c := by
  obtain ⟨hi, hpeers⟩ := readable_of_parse hparse
  exact ⟨Interface.isPrintable_attributes hnet hi, fun p hp =>
    Peer.isPrintable_attributes hnet (hpeers p hp)⟩

/-- A configuration is read back as it is. -/
theorem parse_toWgQuickString (hc : ReadsBack c) : parse net (c.toWgQuickString net) = .ok c := by
  obtain ⟨hi, hpeers⟩ := readable_of_parse hparse
  rw [parse_toWgQuickString_iff (isPrintable_of_parse hnet hparse)]
  refine ⟨Interface.parse_seen hnet hi hc.dns hc.excludedApplications hc.includedApplications, ?_⟩
  rw [PeersRead, List.forall₂_map_left_iff, List.forall₂_same]
  exact fun p hp => Peer.parse_seen hnet (hpeers p hp)

/-- What is read with the same attributes lost nothing. -/
theorem readsBack_of_sameAttributes {c' : Config}
    (h : parse net (c.toWgQuickString net) = .ok c') (hsame : SameAttributes c c') :
    ReadsBack c := by
  have hprint := isPrintable_of_parse hnet hparse
  obtain ⟨hi, -⟩ := readable_of_parse hparse
  obtain ⟨hread, -⟩ := (parse_toWgQuickString_iff hprint).mp h
  refine ⟨fun hempty => ?_, ?_, ?_⟩
  · rw [LinkedHashSet.isEmpty_iff]
    intro d hd
    have hd' := (hsame.interfaze.dnsSearchDomains d).mpr hd
    rw [Interface.dnsSearchDomains_of_parse_seen hprint.interfaze hread hempty] at hd'
    exact LinkedHashSet.notMem_empty d hd'
  · exact Interface.endsVisibly_excludedApplications hprint.interfaze hread
      hi.excludedApplications fun name => (hsame.interfaze.excludedApplications name).mpr
  · exact Interface.endsVisibly_includedApplications hprint.interfaze hread
      hi.includedApplications fun name => (hsame.interfaze.includedApplications name).mpr

/-- **The round trip.**  The text of a configuration that was parsed is accepted again with
the same attributes exactly if the search domains come with a server and the last packages
end visibly. -/
theorem read_back_iff :
    (∃ c', parse net (c.toWgQuickString net) = .ok c' ∧ SameAttributes c c') ↔ ReadsBack c := by
  constructor
  · rintro ⟨c', h, hsame⟩
    exact readsBack_of_sameAttributes hnet hparse h hsame
  · intro hc
    exact ⟨c, parse_toWgQuickString hnet hparse hc, SameAttributes.refl c⟩

end RoundTrip

/-- A text with most attributes. -/
def sampleText : JString :=
  jstr "[Interface]\nAddress = 10.0.0.2/32\nDNS = 1.1.1.1, corp.example\nMTU=1280\n" ++
  jstr "ExcludedApplications = a.b , c.d # two\nListenPort = 51820\n" ++
  jstr "PrivateKey = AAECAwQFBgcICQoLDA0ODxAREhMUFRYXGBkaGxwdHh8=\n\n[Peer]\n" ++
  jstr "PublicKey = AAECAwQFBgcICQoLDA0ODxAREhMUFRYXGBkaGxwdHh8=\n" ++
  jstr "AllowedIPs = 10.0.0.2, 1.1.1.1/0\nEndpoint = vpn.example:51820\n" ++
  jstr "PersistentKeepalive = 25\n"

/-- The key of the bytes `0, 1, …, 31`. -/
def sampleKey : Key := ⟨(List.range 32).map (BitVec.ofNat 8), rfl⟩

/-- The configuration in it. -/
def sampleConfig : Config where
  interfaze :=
    { addresses := ⟨[⟨.inet4 0x0a000002, 32⟩], by decide⟩
      dnsServers := ⟨[.inet4 0x01010101], by decide⟩
      dnsSearchDomains := ⟨[jstr "corp.example"], by decide⟩
      excludedApplications := ⟨[jstr "a.b", jstr "c.d"], by decide⟩
      includedApplications := .empty
      privateKey := sampleKey
      listenPort := some 51820
      mtu := some 1280
      exclusive := Or.inl rfl }
  peers :=
    [{ allowedIps := ⟨[⟨.inet4 0x0a000002, 32⟩, ⟨.inet4 0x01010101, 0⟩], by decide⟩
       endpoint := some ⟨jstr "vpn.example", false, 51820⟩
       persistentKeepalive := some 25
       preSharedKey := none
       publicKey := sampleKey }]

theorem parse_sampleText : parse sampleNet sampleText = .ok sampleConfig := by
  decide +kernel

theorem sample_read_back :
    parse sampleNet sampleText = .ok sampleConfig ∧
      ∃ c', parse sampleNet (sampleConfig.toWgQuickString sampleNet) = .ok c' ∧
        SameAttributes sampleConfig c' :=
  ⟨parse_sampleText, (read_back_iff sampleNet_documented parse_sampleText).mpr
    ⟨by decide, by decide, by decide⟩⟩

/-- A text with one line besides the key. -/
def keyAndLine (line : JString) : JString :=
  jstr "[Interface]\nPrivateKey = AAECAwQFBgcICQoLDA0ODxAREhMUFRYXGBkaGxwdHh8=\n" ++ line

/-- **What is lost**: a search domain without a server, and an empty last package. -/
theorem not_read_back :
    let again := fun t => (parse sampleNet t).bind fun c =>
      (parse sampleNet (c.toWgQuickString sampleNet)).map fun c' => (c.interfaze, c'.interfaze)
    ((again (keyAndLine (jstr "DNS = corp.example"))).map fun (i, i') =>
        (i.dnsSearchDomains.elems, i'.dnsSearchDomains.elems)) =
          .ok ([jstr "corp.example"], []) ∧
      ((again (keyAndLine (jstr "ExcludedApplications = b,,b"))).map fun (i, i') =>
        (i.excludedApplications.elems, i'.excludedApplications.elems)) =
          .ok ([jstr "b", []], [jstr "b"]) := by
  decide +kernel

end Config

end AioVpn
