import AioVpn.Tools.SetConf

/-!
# What `wg-quick up` asks for

`parse_options` sorts the lines of the file: the lines of the interface that only `wg-quick`
understands become options, and all others are handed to `wg setconf`.  For a file that the app has
written, the options are the addresses, servers, applications and the MTU of the configuration, and
the lines that are handed on are those of the device (`parseOptions_toWgQuickString`).  `cmd_up`
then asks for what the configuration says (`cmdUp_toWgQuickString`).

Two things can go wrong on the way.  A line of more than 65536 bytes ends `parse_options`.  And
`set_dnses` takes everything that is made of digits and dots for the address of a server, so that a
search domain such as `10.11` becomes one.
-/

namespace AioVpn

open JString CString

namespace WgQuick

/-! ## The options of a configuration -/

/-- The servers and the search domains, which are printed if there are servers. -/
def dnsNames (net : NetApi) (i : Interface) : List JString :=
  if i.dnsServers.isEmpty then []
  else i.dnsServers.elems.map net.getHostAddress ++ i.dnsSearchDomains.elems

/-- The names of applications, unless there are none. -/
def applications (names : LinkedHashSet JString) : Option CString :=
  if names.isEmpty then none else some (Attribute.items names.elems)

/-- What `parse_options` should find. -/
def optionsOf (net : NetApi) (c : Config) : Options where
  config := some ((Wg.deviceLines net c).flatMap lineBytes)
  addrs := some (Attribute.items (c.interfaze.addresses.elems.map (InetNetwork.toJString net)))
  dnses := some (Attribute.items (dnsNames net c.interfaze))
  excludedApplications := applications c.interfaze.excludedApplications
  includedApplications := applications c.interfaze.includedApplications
  mtu := BitVec.ofInt 32 (c.interfaze.mtu.getD 0)
  inInterfaceSection := c.peers.isEmpty

/-! ## One line -/

section Line

variable {k v : CString} (hk : cch '=' ∉ k) (hv : v ≠ [])

include hk hv

theorem hasKey_key (key : String) {sign : String} (hsign : cstr sign = cstr key ++ [cch '='])
    (hkey : cch '=' ∉ cstr key) {n : ℕ} (hn : n ≤ (cstr sign).length) :
    hasKey (k ++ cch '=' :: v) (cstr sign) n = strcasecmp k (cstr key) := by
  rw [hasKey, hsign, strncasecmp_key hk hkey]
  cases hcmp : strcasecmp k (cstr key) with
  | false => rfl
  | true =>
    have hlength := length_eq_of_strcasecmp hcmp
    have hpos := List.length_pos_iff.mpr hv
    rw [hsign, List.length_append, List.length_singleton] at hn
    rw [Bool.true_and, decide_eq_true_eq, List.length_append, List.length_cons]
    omega

omit hk hv in
theorem drop_key {key : CString} {n : ℕ} (hkey : strcasecmp k key = true)
    (hn : n = key.length + 1) : (k ++ cch '=' :: v).drop n = v := by
  have hlength := length_eq_of_strcasecmp hkey
  rw [List.append_cons, List.drop_left' (by simp; omega)]

end Line

/-- One line of the file. -/
def feed (o : Options) (line : JString) : Options := readOption o (lineBytes line)

/-- The line is handed on. -/
def keep (o : Options) (line : JString) : Options :=
  { o with config := some (concatAndFree o.config [] (lineBytes line)) }

section Feed

variable {key value : JString} (hkey : Attribute.IsKey key) {o : Options}

include hkey

/-- The line of an attribute does not begin a section. -/
theorem section_text (v : CString) :
    strcasecmp (utf8 key ++ cch '=' :: v) (cstr "[Interface]") = false ∧
      (utf8 key ++ cch '=' :: v).head? ≠ some (cch '[') := by
  obtain ⟨b, bytes, hcut, hlower, hne⟩ := Attribute.exists_head_key hkey
  rw [hcut, List.cons_append]
  exact ⟨strcasecmp_cons_of_ne hlower _ (cstr "Interface]"), by simpa using hne⟩

/-- **An attribute of the interface.** -/
theorem feed_text (ho : o.inInterfaceSection = true) {v : CString}
    (hvalue : cleanLine (utf8 value) = v) (hv : v ≠ []) :
    feed o (Attribute.text ⟨key, value⟩) =
      if strcasecmp (utf8 key) (cstr "Address") then
        { o with addrs := some (concatAndFree o.addrs [cch ','] v) }
      else if strcasecmp (utf8 key) (cstr "DNS") then
        { o with dnses := some (concatAndFree o.dnses [cch ','] v) }
      else if strcasecmp (utf8 key) (cstr "ExcludedApplications") then
        { o with
          excludedApplications := some (concatAndFree o.excludedApplications [cch ','] v) }
      else if strcasecmp (utf8 key) (cstr "IncludedApplications") then
        { o with
          includedApplications := some (concatAndFree o.includedApplications [cch ','] v) }
      else if strcasecmp (utf8 key) (cstr "MTU") then { o with mtu := atoi v }
      else keep o (Attribute.text ⟨key, value⟩) := by
  have hkeys := hasKey_key (Attribute.sign_notMem_key hkey) hv
  have haddress : hasKey _ (cstr "Address=") 8 = _ :=
    hkeys "Address" (by decide) (by decide) (by decide)
  have hdns : hasKey _ (cstr "DNS=") 4 = _ := hkeys "DNS" (by decide) (by decide) (by decide)
  have hexcluded : hasKey _ (cstr "ExcludedApplications=") 4 = _ :=
    hkeys "ExcludedApplications" (by decide) (by decide) (by decide)
  have hincluded : hasKey _ (cstr "IncludedApplications=") 4 = _ :=
    hkeys "IncludedApplications" (by decide) (by decide) (by decide)
  have hmtu : hasKey _ (cstr "MTU=") 4 = _ := hkeys "MTU" (by decide) (by decide) (by decide)
  obtain ⟨hheader, hbracket⟩ := section_text hkey v
  rw [feed, readOption, Attribute.cleanLine_text (a := ⟨key, value⟩) hkey, hvalue, hheader,
    if_neg Bool.false_ne_true, if_neg hbracket, ho, haddress, hdns, hexcluded, hincluded, hmtu]
  simp only [Bool.true_and]
  split_ifs with h₁ h₂ h₃ h₄ h₅
  · rw [drop_key h₁ (by decide)]
  · rw [drop_key h₂ (by decide)]
  · rw [drop_key h₃ (by decide)]
  · rw [drop_key h₄ (by decide)]
  · rw [drop_key h₅ (by decide)]
  · rw [keep, ho]

/-- **An attribute of a peer** is handed on. -/
theorem feed_text_peer (ho : o.inInterfaceSection = false) :
    feed o (Attribute.text ⟨key, value⟩) = keep o (Attribute.text ⟨key, value⟩) := by
  obtain ⟨hheader, hbracket⟩ := section_text hkey (cleanLine (utf8 value))
  rw [feed, readOption, Attribute.cleanLine_text (a := ⟨key, value⟩) hkey, hheader,
    if_neg Bool.false_ne_true, if_neg hbracket, ho, keep, ho]
  rfl

end Feed

theorem feed_interface (o : Options) :
    feed o (jstr "[Interface]") =
      { keep o (jstr "[Interface]") with inInterfaceSection := true } := by
  have hclean : cleanLine (lineBytes (jstr "[Interface]")) = cstr "[Interface]" := by decide
  rw [feed, readOption, hclean]
  rfl

theorem feed_peer (o : Options) :
    feed o (jstr "[Peer]") = { keep o (jstr "[Peer]") with inInterfaceSection := false } := by
  have hclean : cleanLine (lineBytes (jstr "[Peer]")) = cstr "[Peer]" := by decide
  rw [feed, readOption, hclean]
  rfl

theorem feed_blank (o : Options) : feed o [] = keep o [] := by
  have hclean : cleanLine (lineBytes []) = [] := by decide
  obtain ⟨config, addrs, dnses, excluded, included, mtu, inInterfaceSection⟩ := o
  rw [feed, readOption, hclean]
  cases inInterfaceSection <;> rfl

/-! ## Sections -/

/-- What is found in the section of the interface. -/
def interfaceOptions (net : NetApi) (i : Interface) : Options where
  config := some ((Config.sectionLines (jstr "[Interface]") (Wg.deviceAttributes i)).flatMap
    lineBytes)
  addrs :=
    if i.addresses.isEmpty then none
    else some (Attribute.items (i.addresses.elems.map (InetNetwork.toJString net)))
  dnses := if i.dnsServers.isEmpty then none else some (Attribute.items (dnsNames net i))
  excludedApplications := applications i.excludedApplications
  includedApplications := applications i.includedApplications
  mtu := BitVec.ofInt 32 (i.mtu.getD 0)
  inInterfaceSection := true

theorem keep_eq {o : Options} (lines : List JString)
    (ho : o.config = some (lines.flatMap lineBytes)) (line : JString) :
    keep o line = { o with config := some ((lines ++ [line]).flatMap lineBytes) } := by
  rw [keep, ho, concatAndFree, List.append_nil, List.flatMap_append, List.flatMap_singleton]

/-! ### The lines of the interface -/

section Interface

variable {o : Options} (ho : o.inInterfaceSection = true)

include ho

section Names

variable {names : List JString} (hne : names ≠ [])
  (hnames : ∀ name ∈ names, Attribute.IsPlain name)

include hne hnames

theorem feed_address (hnone : o.addrs = none) :
    feed o (Attribute.text ⟨jstr "Address", Attribute.join names⟩) =
      { o with addrs := some (Attribute.items names) } := by
  rw [feed_text (by decide) ho (Attribute.cleanLine_join hnames)
    (Attribute.items_ne_nil hne hnames), if_pos (by decide), hnone]
  rfl

theorem feed_dns (hnone : o.dnses = none) :
    feed o (Attribute.text ⟨jstr "DNS", Attribute.join names⟩) =
      { o with dnses := some (Attribute.items names) } := by
  rw [feed_text (by decide) ho (Attribute.cleanLine_join hnames)
    (Attribute.items_ne_nil hne hnames), if_neg (by decide), if_pos (by decide), hnone]
  rfl

theorem feed_excludedApplications (hnone : o.excludedApplications = none) :
    feed o (Attribute.text ⟨jstr "ExcludedApplications", Attribute.join names⟩) =
      { o with excludedApplications := some (Attribute.items names) } := by
  rw [feed_text (by decide) ho (Attribute.cleanLine_join hnames)
    (Attribute.items_ne_nil hne hnames), if_neg (by decide), if_neg (by decide),
    if_pos (by decide), hnone]
  rfl

theorem feed_includedApplications (hnone : o.includedApplications = none) :
    feed o (Attribute.text ⟨jstr "IncludedApplications", Attribute.join names⟩) =
      { o with includedApplications := some (Attribute.items names) } := by
  rw [feed_text (by decide) ho (Attribute.cleanLine_join hnames)
    (Attribute.items_ne_nil hne hnames), if_neg (by decide), if_neg (by decide),
    if_neg (by decide), if_pos (by decide), hnone]
  rfl

end Names

theorem feed_listenPort {n : ℤ} (hn : 0 ≤ n) :
    feed o (Attribute.text ⟨jstr "ListenPort", decimal n⟩) =
      keep o (Attribute.text ⟨jstr "ListenPort", decimal n⟩) := by
  have hvalue := cleanLine_utf8 fun c hc => (plain_of_mem_decimal hn hc).1
  rw [feed_text (by decide) ho hvalue (utf8_ne_nil (decimal_ne_nil hn)), if_neg (by decide),
    if_neg (by decide), if_neg (by decide), if_neg (by decide), if_neg (by decide)]

theorem feed_mtu {n : ℤ} (hn : 0 ≤ n) (hlt : n < 2 ^ 31) :
    feed o (Attribute.text ⟨jstr "MTU", decimal n⟩) = { o with mtu := BitVec.ofInt 32 n } := by
  have hvalue := cleanLine_utf8 fun c hc => (plain_of_mem_decimal hn hc).1
  rw [feed_text (by decide) ho hvalue (utf8_ne_nil (decimal_ne_nil hn)), if_neg (by decide),
    if_neg (by decide), if_neg (by decide), if_neg (by decide), if_pos (by decide),
    Wg.utf8_decimal hn, atoi_digits (by omega), ← BitVec.ofInt_natCast, Int.toNat_of_nonneg hn]

theorem feed_privateKey (key : Key) :
    feed o (Attribute.text ⟨jstr "PrivateKey", key.toBase64⟩) =
      keep o (Attribute.text ⟨jstr "PrivateKey", key.toBase64⟩) := by
  have hvalue := cleanLine_utf8 (s := key.toBase64) fun c hc => by
    have hbounds := Key.bounds_of_mem_toBase64 hc
    omega
  rw [feed_text (by decide) ho hvalue (utf8_ne_nil (by simp [Key.toBase64])), if_neg (by decide),
    if_neg (by decide), if_neg (by decide), if_neg (by decide), if_neg (by decide)]

end Interface

/-- **The section of the interface.** -/
theorem foldl_interface {net : NetApi} (hnet : net.Documented) {i : Interface}
    (hi : i.builder.Readable net) (hnames : i.PlainApplications) :
    (Config.sectionLines (jstr "[Interface]") (i.attributes net)).foldl feed {} =
      interfaceOptions net i := by
  rw [Interface.PlainApplications, List.forall_mem_append] at hnames
  -- the options after each of the lines
  let header : List JString := [jstr "[Interface]"]
  let o₀ : Options := { config := some (header.flatMap lineBytes), inInterfaceSection := true }
  let o₁ : Options := { o₀ with addrs := (interfaceOptions net i).addrs }
  let o₂ : Options := { o₁ with dnses := (interfaceOptions net i).dnses }
  let o₃ : Options := { o₂ with excludedApplications := applications i.excludedApplications }
  let o₄ : Options := { o₃ with includedApplications := applications i.includedApplications }
  let port : List JString := i.listenPort.elim [] fun lp =>
    [Attribute.text ⟨jstr "ListenPort", decimal lp⟩]
  let o₅ : Options := { o₄ with config := some ((header ++ port).flatMap lineBytes) }
  let o₆ : Options := { o₅ with mtu := BitVec.ofInt 32 (i.mtu.getD 0) }
  have hfold : (i.attributes net).foldlM
      (fun o a => (.ok (feed o (Attribute.text a)) : Except Empty Options)) o₀ =
        .ok (interfaceOptions net i) := by
    rw [Interface.attributes]
    refine ExceptFold.foldlM_parts o₆ (ExceptFold.foldlM_parts o₅ (ExceptFold.foldlM_parts o₄
      (ExceptFold.foldlM_parts o₃ (ExceptFold.foldlM_parts o₂ (ExceptFold.foldlM_parts o₁
        ?_ ?_) ?_) ?_) ?_) ?_) (ExceptFold.foldlM_one ?_)
    · refine ExceptFold.foldlM_unless (fun hempty => ?_) fun hne => ?_
      · simp only [o₁, interfaceOptions, hempty]
        rfl
      · have hnil := LinkedHashSet.elems_ne_nil hne
        have hread : ∀ n ∈ i.addresses.elems, ∃ s, InetNetwork.parse net s = .ok n := hi.addresses
        rw [feed_address rfl (by simpa using hnil) (InetNetwork.isPlain_of_mem_map hnet hread) rfl]
        simp only [o₁, interfaceOptions, hne]
        rfl
    · refine ExceptFold.foldlM_unless (fun hempty => ?_) fun hne => ?_
      · simp only [o₂, interfaceOptions, hempty]
        rfl
      · have hnil := LinkedHashSet.elems_ne_nil hne
        rw [feed_dns rfl (by simp [hnil]) (Interface.isPlain_dns hnet hi) rfl]
        simp only [o₂, interfaceOptions, dnsNames, hne]
        rfl
    · refine ExceptFold.foldlM_unless (fun hempty => ?_) fun hne => ?_
      · simp only [o₃, applications, hempty]
        rfl
      · rw [feed_excludedApplications rfl (LinkedHashSet.elems_ne_nil hne) hnames.1 rfl]
        simp only [o₃, applications, hne]
        rfl
    · refine ExceptFold.foldlM_unless (fun hempty => ?_) fun hne => ?_
      · simp only [o₄, applications, hempty]
        rfl
      · rw [feed_includedApplications rfl (LinkedHashSet.elems_ne_nil hne) hnames.2 rfl]
        simp only [o₄, applications, hne]
        rfl
    · refine ExceptFold.foldlM_elim (fun hnone => ?_) fun n hn => ?_
      · simp only [o₅, port, hnone]
        rfl
      · rw [feed_listenPort rfl (le_of_lt (hi.listenPort n hn).1), keep_eq header rfl]
        simp only [o₅, port, hn]
        rfl
    · refine ExceptFold.foldlM_elim (fun hnone => ?_) fun n hn => ?_
      · simp only [o₆, hnone]
        rfl
      · obtain ⟨hpos, hlt⟩ := hi.mtu n hn
        rw [feed_mtu rfl (le_of_lt hpos) hlt]
        simp only [o₆, hn]
        rfl
    · have hlines : Config.sectionLines (jstr "[Interface]") (Wg.deviceAttributes i) =
          header ++ port ++ [Attribute.text ⟨jstr "PrivateKey", i.privateKey.toBase64⟩] := by
        simp only [port, Config.sectionLines, Wg.deviceAttributes]
        cases i.listenPort <;> rfl
      rw [feed_privateKey rfl, keep_eq (header ++ port) rfl, ← hlines]
      rfl
  rw [Config.sectionLines, List.foldl_cons, feed_interface, List.foldl_map]
  refine Except.ok.inj (Eq.trans ?_ hfold)
  exact (List.foldlM_pure (m := Except Empty)).symm

/-! ### Peers -/

/-- **A section of a peer** is handed on. -/
theorem foldl_attributes {attrs : List Attribute} (hkeys : ∀ a ∈ attrs, Attribute.IsKey a.key)
    {o : Options} (ho : o.inInterfaceSection = false) (lines : List JString)
    (hlines : o.config = some (lines.flatMap lineBytes)) :
    (attrs.map Attribute.text).foldl feed o =
      { o with config := some ((lines ++ attrs.map Attribute.text).flatMap lineBytes) } := by
  induction attrs generalizing o lines with
  | nil => rw [List.map_nil, List.append_nil, ← hlines, List.foldl_nil]
  | cons a attrs ih =>
    rw [List.forall_mem_cons] at hkeys
    have hline : feed o a.text =
        { o with config := some ((lines ++ [a.text]).flatMap lineBytes) } :=
      (feed_text_peer hkeys.1 ho).trans (keep_eq lines hlines a.text)
    rw [List.map_cons, List.foldl_cons, hline]
    have hrest := ih (o := { o with config := some ((lines ++ [a.text]).flatMap lineBytes) })
      hkeys.2 ho (lines ++ [a.text]) rfl
    rw [List.append_assoc, List.singleton_append] at hrest
    exact hrest

theorem foldl_peers {net : NetApi} {peers : List Peer}
    (hkeys : ∀ p ∈ peers, ∀ a ∈ p.attributes net, Attribute.IsKey a.key) {o : Options}
    (lines : List JString) (hlines : o.config = some (lines.flatMap lineBytes)) :
    (peers.flatMap fun p =>
        [] :: Config.sectionLines (jstr "[Peer]") (p.attributes net)).foldl feed o =
      { o with
        config := some ((lines ++ peers.flatMap fun p =>
          [] :: Config.sectionLines (jstr "[Peer]") (p.attributes net)).flatMap lineBytes)
        inInterfaceSection := o.inInterfaceSection && peers.isEmpty } := by
  induction peers generalizing o lines with
  | nil => rw [List.flatMap_nil, List.append_nil, ← hlines, List.foldl_nil, List.isEmpty_nil,
      Bool.and_true]
  | cons p peers ih =>
    rw [List.forall_mem_cons] at hkeys
    rw [List.flatMap_cons, List.foldl_append, List.foldl_cons, Config.sectionLines,
      List.foldl_cons, feed_blank, keep_eq lines hlines, feed_peer, keep_eq (lines ++ [[]]) rfl,
      foldl_attributes hkeys.1 rfl (lines ++ [[]] ++ [jstr "[Peer]"]) rfl, ih hkeys.2 _ rfl]
    simp [List.append_assoc]

/-! ## The file -/

/-- The loop goes over all lines when none of them is too long. -/
theorem readOptions_lineBytes {lines : List JString}
    (hshown : ∀ line ∈ lines, Attribute.IsShown line)
    (hshort : ∀ line ∈ lines, (lineBytes line).length ≤ 2 ^ 16) (o : Options) :
    readOptions o (lines.map lineBytes) = readOptions (lines.foldl feed o) [] := by
  induction lines generalizing o with
  | nil => rfl
  | cons line lines ih =>
    rw [List.forall_mem_cons] at hshown hshort
    have hline : readOptions o (lineBytes line :: lines.map lineBytes) =
        readOptions (feed o line) (lines.map lineBytes) := by
      conv_lhs => rw [readOptions, hshown.1.ofBuffer, if_neg (not_lt.mpr hshort.1)]
      rfl
    rw [List.map_cons, hline, List.foldl_cons]
    exact ih hshown.2 hshort.2 _

section File

variable {net : NetApi} {text : JString} {c : Config}

/-- The file fits into the buffers: no line has more than 65536 bytes. -/
def FitsLines (net : NetApi) (c : Config) : Prop :=
  ∀ line ∈ c.fileLines net, (lineBytes line).length ≤ 2 ^ 16

/-- **The options of a file that the app has written.** -/
theorem parseOptions_toWgQuickString (hnet : net.Documented)
    (hparse : Config.parse net text = .ok c) (hnames : c.interfaze.PlainApplications)
    (hfits : FitsLines net c) :
    parseOptions (utf8 (c.toWgQuickString net)) = optionsOf net c := by
  obtain ⟨hi, hpeers⟩ := Config.readable_of_parse hparse
  have hkeys : ∀ p ∈ c.peers, ∀ a ∈ p.attributes net, Attribute.IsKey a.key := fun p hp a ha =>
    (Peer.isPrintable_attributes hnet (hpeers p hp) a ha).key
  rw [parseOptions, Config.getlines_toWgQuickString hnet hparse hnames,
    readOptions_lineBytes (Config.isShown_fileLines hnet hparse hnames) hfits, Config.fileLines,
    List.foldl_append, foldl_interface hnet hi hnames, foldl_peers hkeys _ rfl, readOptions,
    optionsOf, Wg.deviceLines]
  have haddrs : (interfaceOptions net c.interfaze).addrs.getD [] =
      Attribute.items (c.interfaze.addresses.elems.map (InetNetwork.toJString net)) := by
    rw [interfaceOptions]
    cases hempty : c.interfaze.addresses.isEmpty with
    | true =>
      rw [LinkedHashSet.eq_empty hempty]
      rfl
    | false => rfl
  have hdnses : (interfaceOptions net c.interfaze).dnses.getD [] =
      Attribute.items (dnsNames net c.interfaze) := by
    rw [interfaceOptions, dnsNames]
    cases c.interfaze.dnsServers.isEmpty <;> rfl
  rw [← haddrs, ← hdnses]
  rfl

end File

/-! ## The commands -/

/-- The command for an address of the interface. -/
def addrCommandOf (net : NetApi) (n : InetNetwork) : AddrCommand :=
  if n.address.isInet4 then
    .ipv4 (utf8 (net.getHostAddress n.address)) (BitVec.ofInt 8 n.mask)
  else .ipv6 (utf8 (n.toJString net))

/-- The servers and the search domains, if there are servers. -/
def dnsOf (net : NetApi) (i : Interface) : Option (List CString × List CString) :=
  if i.dnsServers.isEmpty then none
  else
    some (i.dnsServers.elems.map fun a => utf8 (net.getHostAddress a),
      i.dnsSearchDomains.elems.map utf8)

/-- Each search domain has a character besides digits and dots. -/
def NamedDomains (i : Interface) : Prop :=
  ∀ d ∈ i.dnsSearchDomains.elems, ∃ c ∈ d, c.isDigit = false ∧ c ≠ ch '.'

theorem tokens_items {names : List JString} (hplain : ∀ name ∈ names, Attribute.IsPlain name)
    (hquotes : ∀ name ∈ names, isQuoted (utf8 name) = false) :
    tokens (Attribute.items names) = names.map utf8 := by
  have hparts : ∀ part ∈ names.map utf8, part ≠ [] ∧ ∀ b ∈ part, b ∉ cstr ", \t\n" := by
    intro part hpart
    obtain ⟨name, hname, rfl⟩ := List.mem_map.mp hpart
    obtain ⟨hne, hchars⟩ := hplain name hname
    refine ⟨utf8_ne_nil hne, fun b hb hmem => ?_⟩
    have hlt := lt_of_mem_utf8 (n := 0x20) (by decide) (fun c hc => (hchars c hc).1) b hb
    have hcomma : b = cch ',' := by
      have hsmall : ∀ b ∈ cstr ", \t\n", 0x20 < b.toNat → b = cch ',' := by decide
      exact hsmall b hmem hlt
    exact Attribute.comma_notMem hplain _ (List.mem_map_of_mem hname) (hcomma ▸ hb)
  rw [tokens, Attribute.items, strtok_intercalate (by decide) hparts, List.filter_eq_self]
  intro part hpart
  obtain ⟨name, hname, rfl⟩ := List.mem_map.mp hpart
  rw [hquotes name hname]
  rfl

theorem isQuoted_eq_false {s : CString} (hs : ∀ b ∈ s, 39 < b.toNat ∧ b.toNat ≠ 92) :
    isQuoted s = false := by
  rw [isQuoted, Bool.or_eq_false_iff, Bool.eq_false_iff, Bool.eq_false_iff, ne_eq, ne_eq,
    List.contains_iff_mem, List.contains_iff_mem]
  exact ⟨fun hmem => absurd (hs _ hmem).1 (by decide), fun hmem => (hs _ hmem).2 rfl⟩

section Commands

variable {net : NetApi} {libc : Wg.Libc} (h : Wg.Platform net libc)

include h

/-- The bytes of a network. -/
theorem network_bytes {n : InetNetwork} (hn : ∃ s, InetNetwork.parse net s = .ok n) :
    ∀ b ∈ utf8 (n.toJString net), 46 ≤ b.toNat ∧ b.toNat ≤ 58 ∨ 97 ≤ b.toNat := by
  obtain ⟨s, hs⟩ := hn
  obtain ⟨haddress, hlow, -⟩ := InetNetwork.of_parse hs
  intro b hb
  rw [Wg.utf8_network hlow, List.mem_append, List.mem_cons] at hb
  rcases hb with hb | rfl | hb
  · have hbounds := Wg.address_bytes h haddress b hb
    omega
  · decide
  · have hdigit := (isDigit_of_mem_digits b hb).1
    rw [CChar.isDigit, Bool.and_eq_true, decide_eq_true_eq, decide_eq_true_eq] at hdigit
    omega

/-- **The command for an address.** -/
theorem addAddr_network {n : InetNetwork} (hn : ∃ s, InetNetwork.parse net s = .ok n) :
    addAddr (utf8 (n.toJString net)) = addrCommandOf net n := by
  obtain ⟨s, hs⟩ := hn
  obtain ⟨haddress, hlow, hhigh⟩ := InetNetwork.of_parse hs
  obtain ⟨address, mask⟩ := n
  cases address with
  | inet4 x =>
    have hbytes := Wg.inet4_bytes h haddress
    have hcolon : cch ':' ∉ utf8 (InetNetwork.toJString net ⟨.inet4 x, mask⟩) := by
      rw [Wg.utf8_network hlow, List.mem_append, List.mem_cons]
      rintro (hmem | hmem | hmem)
      · exact absurd (hbytes _ hmem) (by decide)
      · exact absurd hmem (by decide)
      · exact absurd (isDigit_of_mem_digits _ hmem).1 (by decide)
    have hslash : cch '/' ∉ utf8 (net.getHostAddress (.inet4 x)) := fun hmem =>
      absurd (hbytes _ hmem) (by decide)
    have hmask : mask.toNat < 2 ^ 32 := by
      have hbounds := InetNetwork.maxMask_bounds (.inet4 x)
      dsimp only at hhigh
      omega
    have hbyte : (BitVec.ofNat 32 mask.toNat).setWidth 8 = BitVec.ofInt 8 mask := by
      rw [BitVec.setWidth_ofNat_of_le (by decide), ← BitVec.ofInt_natCast,
        Int.toNat_of_nonneg hlow]
    rw [addAddr, if_neg (by rwa [List.contains_iff_mem]), Wg.utf8_network hlow,
      strsep_append hslash]
    dsimp only
    rw [atoi_digits hmask, hbyte]
    rfl
  | inet6 x =>
    obtain ⟨t, ht⟩ := Wg.exists_numeric haddress
    have hcolon : cch ':' ∈ utf8 (InetNetwork.toJString net ⟨.inet6 x, mask⟩) := by
      rw [Wg.utf8_network hlow]
      exact List.mem_append_left _ (byte_mem_utf8 (c := ch ':') (by decide) (h.inet6 t x ht).2.1)
    rw [addAddr, if_pos (List.contains_iff_mem.mpr hcolon)]
    rfl

theorem setAddr_items {networks : List InetNetwork}
    (hnetworks : ∀ n ∈ networks, ∃ s, InetNetwork.parse net s = .ok n) :
    setAddr (Attribute.items (networks.map (InetNetwork.toJString net))) =
      networks.map (addrCommandOf net) := by
  have hquotes : ∀ name ∈ networks.map (InetNetwork.toJString net),
      isQuoted (utf8 name) = false := by
    intro name hname
    obtain ⟨n, hn, rfl⟩ := List.mem_map.mp hname
    refine isQuoted_eq_false fun b hb => ?_
    have hbounds := network_bytes h (hnetworks n hn) b hb
    omega
  rw [setAddr, tokens_items (InetNetwork.isPlain_of_mem_map h.toDocumented hnetworks) hquotes,
    List.map_map, List.map_map]
  exact List.map_congr_left fun n hn => addAddr_network h (hnetworks n hn)

/-- An address is a server. -/
theorem isIpNotHost_address {a : InetAddress} (ha : ∃ s, InetAddresses.parse net s = .ok a) :
    isIpNotHost (utf8 (net.getHostAddress a)) = true := by
  rw [isIpNotHost, Bool.or_eq_true, Bool.and_eq_true, decide_eq_true_eq, List.all_eq_true,
    List.contains_iff_mem]
  cases a with
  | inet4 x =>
    refine Or.inl ⟨utf8_ne_nil (h.getHostAddress_ne_nil _), fun b hb => ?_⟩
    have hclass : ∀ b : CChar, b.toNat = 46 ∨ 48 ≤ b.toNat ∧ b.toNat ≤ 57 →
        (b.isDigit || decide (b = cch '.')) = true := by decide +kernel
    exact hclass b (Wg.inet4_bytes h ha b hb)
  | inet6 x =>
    obtain ⟨t, ht⟩ := Wg.exists_numeric ha
    exact Or.inr (byte_mem_utf8 (c := ch ':') (by decide) (h.inet6 t x ht).2.1)

omit h in
/-- The bytes of a host name. -/
theorem hostname_bytes {d : JString} (hd : InetAddresses.isHostname d = true) :
    ∀ b ∈ utf8 d, 45 ≤ b.toNat ∧ b.toNat ≤ 57 ∨ 65 ≤ b.toNat ∧ b.toNat ≤ 90 ∨
      97 ≤ b.toNat ∧ b.toNat ≤ 122 := by
  refine forall_mem_utf8 (P := fun n => 45 ≤ n ∧ n ≤ 57 ∨ 65 ≤ n ∧ n ≤ 90 ∨ 97 ≤ n ∧ n ≤ 122)
    (fun n hn => by omega) fun c hc => ?_
  rcases (InetAddresses.mem_hostname hd).2 c hc with halnum | rfl | rfl
  · simp only [InetAddresses.isAlnum, JChar.isUpper, JChar.isLower, JChar.isDigit, Bool.or_eq_true,
      Bool.and_eq_true, decide_eq_true_eq] at halnum
    omega
  · decide
  · decide

omit h in
/-- A name is no server. -/
theorem isIpNotHost_hostname {d : JString} (hd : InetAddresses.isHostname d = true)
    (hname : ∃ c ∈ d, c.isDigit = false ∧ c ≠ ch '.') : isIpNotHost (utf8 d) = false := by
  have hbytes := hostname_bytes hd
  obtain ⟨c, hc, hdigit, hdot⟩ := hname
  have hascii : c.toNat < 0x80 := by
    rcases (InetAddresses.mem_hostname hd).2 c hc with halnum | rfl | rfl
    · simp only [InetAddresses.isAlnum, JChar.isUpper, JChar.isLower, JChar.isDigit,
        Bool.or_eq_true, Bool.and_eq_true, decide_eq_true_eq] at halnum
      omega
    · decide
    · decide
  have hnat : c.byte.toNat = c.toNat := by
    rw [JChar.byte, BitVec.toNat_ofNat, Nat.mod_eq_of_lt (by omega)]
  have hbyte : ¬ (CChar.isDigit c.byte || decide (c.byte = cch '.')) = true := by
    rw [Bool.or_eq_true, decide_eq_true_eq, CChar.isDigit, hnat, ← JChar.isDigit, hdigit]
    rintro (hfalse | heq)
    · exact absurd hfalse (by decide)
    · refine hdot (UInt16.toNat_inj.mp ?_)
      rw [← hnat, heq]
      rfl
  have hcolon : (utf8 d).contains (cch ':') = false := by
    rw [Bool.eq_false_iff, ne_eq, List.contains_iff_mem]
    exact fun hmem => absurd (hbytes _ hmem) (by decide)
  rw [isIpNotHost, hcolon, Bool.or_false, Bool.and_eq_false_iff, List.all_eq_false]
  exact Or.inr ⟨c.byte, byte_mem_utf8 (decide_eq_true hascii) hc, hbyte⟩

/-- **The servers and the search domains are told apart.** -/
theorem setDnses_items {i : Interface} (hi : i.builder.Readable net) (hdomains : NamedDomains i)
    (hlength : (Attribute.items (dnsNames net i)).length ≤ 2 ^ 16) :
    setDnses (Attribute.items (dnsNames net i)) = dnsOf net i := by
  rw [setDnses, if_neg (not_lt.mpr hlength), dnsNames, dnsOf]
  cases hempty : i.dnsServers.isEmpty with
  | true => rfl
  | false =>
    have hread : ∀ a ∈ i.dnsServers.elems, ∃ s, InetAddresses.parse net s = .ok a := hi.dnsServers
    have hhosts : ∀ d ∈ i.dnsSearchDomains.elems, InetAddresses.isHostname d = true := fun d hd =>
      (hi.dnsSearchDomains d hd).1
    have hquotes : ∀ name ∈ i.dnsServers.elems.map net.getHostAddress ++ i.dnsSearchDomains.elems,
        isQuoted (utf8 name) = false := by
      refine List.forall_mem_append.mpr ⟨?_, ?_⟩
      · intro name hname
        obtain ⟨a, ha, rfl⟩ := List.mem_map.mp hname
        refine isQuoted_eq_false fun b hb => ?_
        have hbounds := Wg.address_bytes h (hread a ha) b hb
        omega
      · intro d hd
        refine isQuoted_eq_false fun b hb => ?_
        have hbounds := hostname_bytes (hhosts d hd) b hb
        omega
    have hservers : ∀ b ∈ (i.dnsServers.elems.map net.getHostAddress).map utf8,
        isIpNotHost b = true := by
      intro b hb
      rw [List.map_map] at hb
      obtain ⟨a, ha, rfl⟩ := List.mem_map.mp hb
      exact isIpNotHost_address h (hread a ha)
    have hnames : ∀ b ∈ i.dnsSearchDomains.elems.map utf8, isIpNotHost b = false := by
      intro b hb
      obtain ⟨d, hd, rfl⟩ := List.mem_map.mp hb
      exact isIpNotHost_hostname (hhosts d hd) (hdomains d hd)
    have hnil := LinkedHashSet.elems_ne_nil hempty
    dsimp only
    rw [if_neg Bool.false_ne_true, if_neg Bool.false_ne_true,
      tokens_items (Interface.isPlain_dns h.toDocumented hi) hquotes, List.map_append,
      List.filter_append, List.filter_append, List.filter_eq_self.mpr hservers,
      List.filter_eq_nil_iff.mpr fun b hb => by simp [hnames b hb],
      List.filter_eq_nil_iff.mpr fun b hb => by simp [hservers b hb],
      List.filter_eq_self.mpr fun b hb => by simp [hnames b hb], List.append_nil, List.nil_append,
      if_neg (by simpa using hnil), List.map_map]
    rfl

end Commands

/-! ## `cmd_up` -/

/-- What `cmd_up` should ask for. -/
def setupOf (net : NetApi) (env : UpEnv) (c : Config) : Option Setup := do
  let device ← (Wg.deviceOf env.libc c).toOption
  let users ← setUsers env.packages env.behind (applications c.interfaze.excludedApplications)
    (applications c.interfaze.includedApplications)
  some ⟨device, c.interfaze.addresses.elems.map (addrCommandOf net), dnsOf net c.interfaze,
    BitVec.ofInt 32 (c.interfaze.mtu.getD 0), users⟩

/-- A configuration that the tools understand as it is meant. -/
structure Plain (net : NetApi) (c : Config) : Prop where
  parsed : ∃ text, Config.parse net text = .ok c
  applications : c.interfaze.PlainApplications
  domains : NamedDomains c.interfaze
  lines : FitsLines net c

/-- The list of servers is not longer than its line. -/
theorem length_dnsNames {net : NetApi} {c : Config} (hnet : net.Documented)
    (hi : c.interfaze.builder.Readable net) (hfits : FitsLines net c) :
    (Attribute.items (dnsNames net c.interfaze)).length ≤ 2 ^ 16 := by
  rw [dnsNames]
  cases hempty : c.interfaze.dnsServers.isEmpty with
  | true =>
    rw [if_pos rfl]
    decide
  | false =>
    let a : Attribute := ⟨jstr "DNS", Attribute.join
      (c.interfaze.dnsServers.elems.map net.getHostAddress ++ c.interfaze.dnsSearchDomains.elems)⟩
    have ha : a ∈ c.interfaze.attributes net := by
      simp [Interface.attributes, hempty, a]
    have hline : a.text ∈ c.fileLines net := List.mem_append_left _
      (List.mem_cons_of_mem _ (List.mem_map_of_mem ha))
    have hclean := Attribute.cleanLine_text (a := a) (by decide : Attribute.IsKey (jstr "DNS"))
    have hle : (cleanLine (lineBytes a.text)).length ≤ (lineBytes a.text).length :=
      List.length_filter_le _ _
    rw [hclean, Attribute.cleanLine_join (Interface.isPlain_dns hnet hi), List.length_append,
      List.length_cons] at hle
    have hmax := hfits _ hline
    rw [if_neg Bool.false_ne_true]
    omega

/-- **`wg-quick up` asks for what the configuration says.** -/
theorem cmdUp_toWgQuickString {net : NetApi} {env : UpEnv} (h : Wg.Platform net env.libc)
    {c : Config} (hc : Plain net c) :
    cmdUp env (parseOptions (utf8 (c.toWgQuickString net))) = setupOf net env c := by
  obtain ⟨text, hparse⟩ := hc.parsed
  obtain ⟨hi, -⟩ := Config.readable_of_parse hparse
  have haddresses : ∀ n ∈ c.interfaze.addresses.elems, ∃ s, InetNetwork.parse net s = .ok n :=
    hi.addresses
  have hlength := length_dnsNames h.toDocumented hi hc.lines
  rw [parseOptions_toWgQuickString h.toDocumented hparse hc.applications hc.lines, cmdUp, optionsOf]
  simp only [Option.bind_eq_bind, Option.bind_some, Wg.setconf_deviceLines h hparse,
    setAddr_items h haddresses, setDnses_items h hi hc.domains hlength, setupOf]

theorem sample_plain : Plain sampleNet Config.sampleConfig where
  parsed := ⟨_, Config.parse_sampleText⟩
  applications := by
    change ∀ name ∈ [jstr "a.b", jstr "c.d"], Attribute.IsPlain name
    rw [List.forall_mem_cons, List.forall_mem_singleton]
    exact ⟨⟨by decide, List.forall_mem_iff_forall_getElem.mpr (by decide)⟩,
      ⟨by decide, List.forall_mem_iff_forall_getElem.mpr (by decide)⟩⟩
  domains := by
    change ∀ d ∈ [jstr "corp.example"], _
    rw [List.forall_mem_singleton]
    exact ⟨ch 'c', by decide⟩
  lines := List.forall_mem_iff_forall_getElem.mpr (by decide +kernel)

end WgQuick
end AioVpn
