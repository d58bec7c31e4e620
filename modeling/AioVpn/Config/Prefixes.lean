import AioVpn.Config.Applications
import AioVpn.Config.Declarative
import AioVpn.Config.RoundTrip

/-!
# The lengths of network prefixes

What a network is meant to be written like is `Means`: a numeric address, which stands for itself,
or a numeric address, a slash and a length in ASCII digits.  `InetNetwork.parse` accepts all of
these and reads them as they are meant (`parse_of_means`).

It accepts more, because `Integer.parseInt` does: a length may have a sign or be written in the
digits of another script.  `means_of_parse` says that this is the only exception, and
`readAsMeant_iff` that it is one.

A negative length is accepted too, and is replaced by the longest one, as if no length had been
written.  What a section collects are the networks its entries are read as (`Collects`), so in a
configuration the lengths of the `Address` and `AllowedIPs` entries are kept exactly if none of them
is negative (`keepsLengths_iff`).
-/

namespace AioVpn

open JString

/-! ## Digits -/

/-- The value of a string of ASCII digits. -/
def asciiValue (digits : JString) : ℕ := digits.foldl (fun acc c => 10 * acc + (c.toNat - 0x30)) 0

theorem foldlM_asciiDigits {digits : JString} (hdigits : digits.all JChar.isDigit = true)
    (acc : ℕ) :
    digits.foldlM (fun acc c => c.digit.map fun d => 10 * acc + d) acc =
      some (digits.foldl (fun acc c => 10 * acc + (c.toNat - 0x30)) acc) := by
  induction digits generalizing acc with
  | nil => rfl
  | cons c digits ih =>
    rw [List.all_cons, Bool.and_eq_true] at hdigits
    rw [List.foldlM_cons, digit_of_isDigit hdigits.1, Option.map_some]
    exact ih hdigits.2 _

/-- `parseInt` on ASCII digits. -/
theorem parseInt_asciiDigits {digits : JString} (hne : digits ≠ [])
    (hdigits : digits.all JChar.isDigit = true) :
    parseInt digits =
      if asciiValue digits < 2 ^ 31 then some (asciiValue digits : ℤ) else none := by
  have hvalue : parseDigits digits = some (asciiValue digits) := by
    rw [parseDigits, if_neg hne, foldlM_asciiDigits hdigits]
    rfl
  cases digits with
  | nil => exact absurd rfl hne
  | cons c rest =>
    have hc : 0x30 ≤ c.toNat := by
      rw [List.all_cons, Bool.and_eq_true, JChar.isDigit, Bool.and_eq_true, decide_eq_true_eq]
        at hdigits
      exact hdigits.1.1
    rw [parseInt, if_neg (by omega), hvalue, Option.bind_some]

namespace InetNetwork

/-! ## What is meant -/

/-- **What a text means**: the address alone, or the address and a prefix length. -/
inductive Means (net : NetApi) : JString → InetNetwork → Prop where
  | address (s : JString) (a : InetAddress) (ha : InetAddresses.parse net s = .ok a) :
      Means net s ⟨a, maxMask a⟩
  | withLength (s digits : JString) (a : InetAddress) (ha : InetAddresses.parse net s = .ok a)
      (hne : digits ≠ []) (hdigits : digits.all JChar.isDigit = true)
      (hle : (asciiValue digits : ℤ) ≤ maxMask a) :
      Means net (s ++ [ch '/'] ++ digits) ⟨a, asciiValue digits⟩

/-- **Read as it is meant**: the text is accepted exactly if it means a network, as that network,
and what it is read as is printed in a way that is read as the same again. -/
structure ReadAsMeant (net : NetApi) (s : JString) : Prop where
  accepted : ∀ n, parse net s = .ok n ↔ Means net s n
  readBack : ∀ n, parse net s = .ok n → parse net (n.toJString net) = .ok n

/-- No numeric address has a slash in it. -/
def SlashFree (net : NetApi) : Prop := ∀ s a, net.parseNumericAddress s = some a → ch '/' ∉ s

/-- The length, if one is written behind an address, is an integer and is not too large, is written
in ASCII digits. -/
def PlainLength (net : NetApi) (s : JString) : Prop :=
  ∀ address mask rawMask a, s = address ++ [ch '/'] ++ mask → ch '/' ∉ mask →
    parseInt mask = some rawMask → InetAddresses.parse net address = .ok a →
    rawMask ≤ maxMask a → mask.all JChar.isDigit = true

section Slash

variable {net : NetApi} {s address address' mask mask' : JString} {n : InetNetwork}

theorem exists_cut (h : ch '/' ∈ s) :
    ∃ address mask, s = address ++ [ch '/'] ++ mask ∧ ch '/' ∉ mask := by
  obtain ⟨back, front, hrev, hback⟩ := List.eq_append_cons_of_mem (List.mem_reverse.mpr h)
  refine ⟨front.reverse, back.reverse, ?_, fun hmem => hback (List.mem_reverse.mp hmem)⟩
  have hs := congrArg List.reverse hrev
  rw [List.reverse_reverse] at hs
  rw [hs]
  simp

theorem cut_inj (hmask : ch '/' ∉ mask) (hmask' : ch '/' ∉ mask')
    (h : address ++ [ch '/'] ++ mask = address' ++ [ch '/'] ++ mask') :
    mask = mask' ∧ address = address' := by
  have hcut := congrArg cutLastSlash h
  rw [cutLastSlash_append hmask, cutLastSlash_append hmask'] at hcut
  exact Prod.mk.inj (Option.some.inj hcut)

/-- Digits are no slash. -/
theorem slash_notMem_of_isDigit (h : mask.all JChar.isDigit = true) : ch '/' ∉ mask := by
  intro hmem
  have hdigit := List.all_eq_true.mp h _ hmem
  revert hdigit
  decide

theorem slash_notMem_of_parse (hslash : SlashFree net) {a : InetAddress}
    (h : InetAddresses.parse net s = .ok a) : ch '/' ∉ s := by
  rw [InetAddresses.parse] at h
  split at h
  · exact absurd h (by simp)
  · split at h
    · rename_i a' ha
      exact hslash s a' ha
    · exact absurd h (by simp)

/-! ## What is read -/

/-- A text without a slash. -/
theorem parse_eq_ok_iff_of_notMem (h : ch '/' ∉ s) :
    parse net s = .ok n ↔
      InetAddresses.parse net s = .ok n.address ∧ n.mask = maxMask n.address := by
  have hmax : -1 ≤ maxMask n.address := by
    have hbounds := maxMask_bounds n.address
    omega
  rw [parse_eq, cutLastSlash, if_neg h]
  dsimp only
  rw [withMask_eq_ok_iff, if_neg (by omega)]
  exact ⟨fun h => ⟨h.1, h.2.2⟩, fun h => ⟨h.1, hmax, h.2⟩⟩

/-- A text with a slash. -/
theorem parse_eq_ok_iff_of_slash (hmask : ch '/' ∉ mask) :
    parse net (address ++ [ch '/'] ++ mask) = .ok n ↔
      ∃ rawMask, parseInt mask = some rawMask ∧
        InetAddresses.parse net address = .ok n.address ∧ rawMask ≤ maxMask n.address ∧
        n.mask = if rawMask ≥ 0 then rawMask else maxMask n.address := by
  rw [parse_eq, cutLastSlash_append hmask]
  dsimp only
  cases parseInt mask with
  | none => simp
  | some rawMask =>
    dsimp only
    rw [withMask_eq_ok_iff]
    exact ⟨fun h => ⟨rawMask, rfl, h⟩, fun ⟨_, hraw, h⟩ => Option.some.inj hraw ▸ h⟩

theorem means_iff_of_notMem (h : ch '/' ∉ s) :
    Means net s n ↔ InetAddresses.parse net s = .ok n.address ∧ n.mask = maxMask n.address := by
  constructor
  · intro hmeans
    cases hmeans with
    | address s a ha => exact ⟨ha, rfl⟩
    | withLength s digits a => exact absurd (by simp) h
  · rintro ⟨ha, hmask⟩
    obtain ⟨a, mask⟩ := n
    obtain rfl : mask = maxMask a := hmask
    exact .address s a ha

theorem means_iff_of_slash (hslash : SlashFree net) (hmask : ch '/' ∉ mask) :
    Means net (address ++ [ch '/'] ++ mask) n ↔
      InetAddresses.parse net address = .ok n.address ∧ mask ≠ [] ∧
        mask.all JChar.isDigit = true ∧ (asciiValue mask : ℤ) ≤ maxMask n.address ∧
        n.mask = asciiValue mask := by
  constructor
  · intro hmeans
    generalize hs : address ++ [ch '/'] ++ mask = s at hmeans
    cases hmeans with
    | address s a ha =>
      refine absurd ?_ (slash_notMem_of_parse hslash ha)
      rw [← hs]
      simp
    | withLength s digits a ha hne hdigits hle =>
      obtain ⟨rfl, rfl⟩ := cut_inj hmask (slash_notMem_of_isDigit hdigits) hs
      exact ⟨ha, hne, hdigits, hle, rfl⟩
  · rintro ⟨ha, hne, hdigits, hle, hvalue⟩
    obtain ⟨a, length⟩ := n
    obtain rfl : length = asciiValue mask := hvalue
    exact .withLength address mask a ha hne hdigits hle

/-- A length that is in range. -/
theorem parseInt_of_le {a : InetAddress} (hne : mask ≠ [])
    (hdigits : mask.all JChar.isDigit = true) (hle : (asciiValue mask : ℤ) ≤ maxMask a) :
    parseInt mask = some (asciiValue mask : ℤ) := by
  have hmax := (maxMask_bounds a).2
  rw [parseInt_asciiDigits hne hdigits, if_pos (by omega)]

/-- **What is meant is read.** -/
theorem parse_of_means (hslash : SlashFree net) (h : Means net s n) : parse net s = .ok n := by
  cases h with
  | address s a ha =>
    exact (parse_eq_ok_iff_of_notMem (slash_notMem_of_parse hslash ha)).mpr ⟨ha, rfl⟩
  | withLength s digits a ha hne hdigits hle =>
    refine (parse_eq_ok_iff_of_slash (slash_notMem_of_isDigit hdigits)).mpr
      ⟨_, parseInt_of_le hne hdigits hle, ha, hle, ?_⟩
    exact (if_pos (Int.natCast_nonneg _)).symm

/-- **What is read is meant**, if the length is plainly written. -/
theorem means_of_parse (hslash : SlashFree net) (hplain : PlainLength net s)
    (h : parse net s = .ok n) : Means net s n := by
  by_cases hs : ch '/' ∈ s
  · obtain ⟨address, mask, rfl, hmask⟩ := exists_cut hs
    obtain ⟨rawMask, hraw, ha, hle, hn⟩ := (parse_eq_ok_iff_of_slash hmask).mp h
    have hdigits := hplain address mask rawMask _ rfl hmask hraw ha hle
    have hne : mask ≠ [] := by
      rintro rfl
      exact absurd hraw (by simp [parseInt])
    have hvalue : rawMask = asciiValue mask := by
      rw [parseInt_asciiDigits hne hdigits] at hraw
      split at hraw
      · exact (Option.some.inj hraw).symm
      · exact absurd hraw (by simp)
    rw [if_pos (by omega)] at hn
    rw [hvalue] at hle hn
    exact (means_iff_of_slash hslash hmask).mpr ⟨ha, hne, hdigits, hle, hn⟩
  · exact (means_iff_of_notMem hs).mpr ((parse_eq_ok_iff_of_notMem hs).mp h)

/-- **Which texts are read as they are meant.** -/
theorem readAsMeant_iff (hnet : net.Documented) (hslash : SlashFree net) (s : JString) :
    ReadAsMeant net s ↔ PlainLength net s := by
  constructor
  · rintro h address mask rawMask a rfl hmask hraw ha hle
    have hn : parse net (address ++ [ch '/'] ++ mask) =
        .ok ⟨a, if rawMask ≥ 0 then rawMask else maxMask a⟩ :=
      (parse_eq_ok_iff_of_slash hmask).mpr ⟨rawMask, hraw, ha, hle, rfl⟩
    exact ((means_iff_of_slash hslash hmask).mp ((h.accepted _).mp hn)).2.2.1
  · intro hplain
    refine ⟨fun n => ⟨means_of_parse hslash hplain, parse_of_means hslash⟩, fun n hn => ?_⟩
    exact parse_toJString hnet hn

/-- A length in ASCII digits is plainly written. -/
theorem plainLength_append (hdigits : mask.all JChar.isDigit = true) :
    PlainLength net (address ++ [ch '/'] ++ mask) := by
  intro address' mask' rawMask a hs hmask' _ _ _
  obtain ⟨rfl, rfl⟩ := cut_inj (slash_notMem_of_isDigit hdigits) hmask' hs
  exact hdigits

end Slash

theorem sampleNet_slashFree : SlashFree sampleNet := by
  intro s a h
  rcases sampleNet_parse h with ⟨rfl, -⟩ | ⟨rfl, -⟩ <;> decide

/-! ## The length that is written -/

/-- The address before the last slash and the length behind it, if that is an integer. -/
def written (s : JString) : Option (JString × ℤ) :=
  (cutLastSlash s).bind fun (maskString, rawAddress) => (parseInt maskString).map (rawAddress, ·)

/-- **The length is kept**: a network with the address and the length that are written is there. -/
def KeepsLength (net : NetApi) (networks : LinkedHashSet InetNetwork) (s : JString) : Prop :=
  ∀ address length, written s = some (address, length) →
    ∃ n ∈ networks, InetAddresses.parse net address = .ok n.address ∧ n.mask = length

/-- The length that is written, if one is, is not negative. -/
def NonnegLength (s : JString) : Prop :=
  ∀ address length, written s = some (address, length) → 0 ≤ length

instance (s : JString) : Decidable (NonnegLength s) :=
  decidable_of_iff ((written s).all fun w => decide (0 ≤ w.2)) <| by
    rw [NonnegLength]
    cases written s with
    | none => simp
    | some w =>
      obtain ⟨address, length⟩ := w
      simp

/-- What a text is read as, by the address and the length that are written. -/
theorem of_parse_written {net : NetApi} {s address : JString} {length : ℤ} {n : InetNetwork}
    (hwritten : written s = some (address, length)) (h : parse net s = .ok n) :
    InetAddresses.parse net address = .ok n.address ∧
      n.mask = if length ≥ 0 then length else maxMask n.address := by
  obtain ⟨⟨maskString, rawAddress⟩, hcut, hmap⟩ := Option.bind_eq_some_iff.mp hwritten
  obtain ⟨rawMask, hraw, hpair⟩ := Option.map_eq_some_iff.mp hmap
  obtain ⟨rfl, rfl⟩ := Prod.mk.inj hpair
  rw [parse_eq, hcut] at h
  dsimp only at h
  rw [hraw] at h
  obtain ⟨ha, -, hmask⟩ := withMask_eq_ok_iff.mp h
  exact ⟨ha, hmask⟩

end InetNetwork

/-! ## The networks of the sections -/

section Sections

variable {net : NetApi}

theorem Interface.collects_parseLine {b b' : InterfaceBuilder} {line : JString}
    (h : Interface.parseLine net b line = .ok b') :
    Collects (InetNetwork.parse net) (namesIn .address line) b.addresses b'.addresses := by
  obtain ⟨attr, hattr, haddresses, -⟩ := Interface.parseLine_frame h
  rw [namesIn, hattr]
  dsimp only
  split
  · rename_i hkey
    rw [Interface.parseLine, hattr] at h
    dsimp only at h
    rw [hkey] at h
    obtain ⟨addresses, hcollects, rfl⟩ := InterfaceBuilder.parseAddresses_eq_ok h
    exact hcollects
  · rename_i hkey
    rw [haddresses hkey]
    exact Collects.nil _ _

/-- The networks a line of a `[Peer]` section names. -/
def allowedIpsIn (line : JString) : List JString :=
  match Attribute.parse line with
  | some attr =>
      if JString.toLowerCase attr.key = jstr "allowedips" then Attribute.split attr.value else []
  | none => []

theorem Peer.collects_parseLine {b b' : PeerBuilder} {line : JString}
    (h : Peer.parseLine net b line = .ok b') :
    Collects (InetNetwork.parse net) (allowedIpsIn line) b.allowedIps b'.allowedIps := by
  rw [Peer.parseLine] at h
  split at h
  · exact absurd h (by simp)
  · rename_i attr hattr
    have hnames : allowedIpsIn line = if JString.toLowerCase attr.key = jstr "allowedips" then
        Attribute.split attr.value else [] := by
      rw [allowedIpsIn, hattr]
    dsimp only at h
    split at h
    · rename_i hkey
      rw [hnames, if_pos hkey]
      obtain ⟨allowedIps, hcollects, rfl⟩ := PeerBuilder.parseAllowedIPs_eq_ok h
      exact hcollects
    · rename_i hkey
      have hsame : b'.allowedIps = b.allowedIps := by
        split at h
        · obtain ⟨ep, -, rfl⟩ := PeerBuilder.parseEndpoint_eq_ok h
          rfl
        split at h
        · obtain ⟨n, -, -, rfl⟩ := PeerBuilder.parsePersistentKeepalive_eq_ok h
          rfl
        split at h
        · obtain ⟨k, rfl⟩ := PeerBuilder.parsePreSharedKey_eq_ok h
          rfl
        split at h
        · obtain ⟨k, rfl⟩ := PeerBuilder.parsePublicKey_eq_ok h
          rfl
        · exact absurd h (by simp)
      rw [hnames, if_neg hkey, hsame]
      exact Collects.nil _ _

/-- **The addresses of an interface** are those that its `Address` lines name. -/
theorem Interface.collects_of_parse {lines : List JString} {i : Interface}
    (h : Interface.parse net lines = .ok i) :
    Collects (InetNetwork.parse net) (namedBy .address lines) .empty i.addresses :=
  Collects.foldlM InterfaceBuilder.addresses (fun _ _ _ h => Interface.collects_parseLine h)
    (Interface.parse_eq_ok_iff_foldlM.mp h)

/-- **The allowed networks of a peer** are those that its `AllowedIPs` lines name. -/
theorem Peer.collects_of_parse {lines : List JString} {p : Peer}
    (h : Peer.parse net lines = .ok p) :
    Collects (InetNetwork.parse net) (lines.flatMap allowedIpsIn) .empty p.allowedIps :=
  Collects.foldlM PeerBuilder.allowedIps (fun _ _ _ h => Peer.collects_parseLine h)
    (Peer.parse_eq_ok_iff_foldlM.mp h)

end Sections

/-! ## The networks of a configuration -/

namespace Config

variable {net : NetApi}

/-- What the lines of a text say, without comments, surrounding space and empty lines. -/
abbrev contentOf (text : JString) : List JString := content (JString.readLines text)

/-- The `Address` entries of a text. -/
def addressEntries (text : JString) : List JString :=
  namedBy .address (underInterface (contentOf text))

/-- The `AllowedIPs` entries of a text. -/
def allowedIpsEntries (text : JString) : List JString :=
  (underPeers (contentOf text)).flatMap fun block => block.flatMap allowedIpsIn

/-- **No length is replaced**: the interface and each of the peers keep the lengths that their
entries are written with. -/
structure KeepsLengths (net : NetApi) (text : JString) (config : Config) : Prop where
  addresses : ∀ entry ∈ addressEntries text,
    InetNetwork.KeepsLength net config.interfaze.addresses entry
  allowedIps : List.Forall₂ (fun block p => ∀ entry ∈ block.flatMap allowedIpsIn,
    InetNetwork.KeepsLength net p.allowedIps entry) (underPeers (contentOf text)) config.peers

/-- A set collected from entries keeps their lengths if none is negative, for all its networks have
been read and no network is read with a negative length. -/
theorem keepsLength_collected_iff {entries : List JString} {networks : LinkedHashSet InetNetwork}
    (h : Collects (InetNetwork.parse net) entries .empty networks) :
    (∀ entry ∈ entries, InetNetwork.KeepsLength net networks entry) ↔
      ∀ entry ∈ entries, InetNetwork.NonnegLength entry := by
  refine forall₂_congr fun entry hentry => ?_
  constructor
  · intro hkeeps address length hwritten
    obtain ⟨n, hn, -, rfl⟩ := hkeeps address length hwritten
    obtain ⟨entry', hparse⟩ := (h.mem_or_read hn).resolve_left (by simp)
    exact (InetNetwork.of_parse hparse).2.1
  · intro hnonneg address length hwritten
    obtain ⟨n, hn, hparse⟩ := h.exists_mem hentry
    obtain ⟨ha, hmask⟩ := InetNetwork.of_parse_written hwritten hparse
    rw [if_pos (hnonneg address length hwritten)] at hmask
    exact ⟨n, hn, ha, hmask⟩

theorem keepsLength_allowedIps_iff {blocks : List (List JString)} {peers : List Peer}
    (h : PeersRead net blocks peers) :
    List.Forall₂ (fun block p => ∀ entry ∈ block.flatMap allowedIpsIn,
        InetNetwork.KeepsLength net p.allowedIps entry) blocks peers ↔
      ∀ entry ∈ blocks.flatMap fun block => block.flatMap allowedIpsIn,
        InetNetwork.NonnegLength entry := by
  induction h with
  | nil => simp
  | @cons block p blocks peers hp _ ih =>
    rw [List.forall₂_cons, ih, keepsLength_collected_iff (Peer.collects_of_parse hp),
      List.flatMap_cons, List.forall_mem_append]

/-- **Which configurations keep the lengths of their entries.** -/
theorem keepsLengths_iff {text : JString} {config : Config} (h : parse net text = .ok config) :
    KeepsLengths net text config ↔
      ∀ entry ∈ addressEntries text ++ allowedIpsEntries text, InetNetwork.NonnegLength entry := by
  obtain ⟨-, hinterface, hpeers⟩ := parseLines_eq_ok_iff_sections.mp h
  rw [List.forall_mem_append, addressEntries, allowedIpsEntries,
    ← keepsLength_collected_iff (Interface.collects_of_parse hinterface),
    ← keepsLength_allowedIps_iff hpeers]
  exact ⟨fun h => ⟨h.addresses, h.allowedIps⟩, fun h => ⟨h.1, h.2⟩⟩

/-- **Which networks are read as they are meant.**  Those are the texts whose length, if it is one
that is accepted, is written in ASCII digits.  An accepted configuration keeps the lengths of its
entries exactly if none of them is negative. -/
theorem network_read_as_meant_iff (hnet : net.Documented) (hslash : InetNetwork.SlashFree net) :
    (∀ s, InetNetwork.ReadAsMeant net s ↔ InetNetwork.PlainLength net s) ∧
      ∀ text config, parse net text = .ok config →
        (KeepsLengths net text config ↔
          ∀ entry ∈ addressEntries text ++ allowedIpsEntries text,
            InetNetwork.NonnegLength entry) :=
  ⟨InetNetwork.readAsMeant_iff hnet hslash, fun _ _ h => keepsLengths_iff h⟩

theorem plain_lengths_kept :
    InetNetwork.ReadAsMeant sampleNet (jstr "10.0.0.2/24") ∧
      KeepsLengths sampleNet sampleText sampleConfig := by
  obtain ⟨hread, hkept⟩ :=
    network_read_as_meant_iff sampleNet_documented InetNetwork.sampleNet_slashFree
  have hcut : jstr "10.0.0.2/24" = jstr "10.0.0.2" ++ [ch '/'] ++ jstr "24" := by decide
  have hentries : addressEntries sampleText ++ allowedIpsEntries sampleText =
      [jstr "10.0.0.2/32", jstr "10.0.0.2", jstr "1.1.1.1/0"] := by decide +kernel
  refine ⟨(hread _).mpr ?_, (hkept _ _ parse_sampleText).mpr ?_⟩
  · rw [hcut]
    exact InetNetwork.plainLength_append (by decide)
  · rw [hentries]
    exact List.forall_mem_iff_forall_getElem.mpr (by decide)

/-- **A length that is replaced**: `-8` is read as no length at all, here and in a configuration.
A length with a plus sign is accepted too. -/
theorem negative_length_replaced :
    InetNetwork.parse sampleNet (jstr "10.0.0.2/-8") = .ok ⟨.inet4 0x0a000002, 32⟩ ∧
      ¬ InetNetwork.ReadAsMeant sampleNet (jstr "10.0.0.2/-8") ∧
      InetNetwork.parse sampleNet (jstr "10.0.0.2/+24") = .ok ⟨.inet4 0x0a000002, 24⟩ ∧
      addressEntries (keyAndLine (jstr "Address = 10.0.0.2/-8")) = [jstr "10.0.0.2/-8"] ∧
      (parse sampleNet (keyAndLine (jstr "Address = 10.0.0.2/-8"))).map
        (fun config => config.interfaze.addresses.elems) = .ok [⟨.inet4 0x0a000002, 32⟩] := by
  refine ⟨by decide +kernel, fun hread => ?_, by decide +kernel, by decide +kernel,
    by decide +kernel⟩
  have hplain := (InetNetwork.readAsMeant_iff sampleNet_documented
    InetNetwork.sampleNet_slashFree _).mp hread
  have hdigits : (jstr "-8").all JChar.isDigit = true :=
    hplain (jstr "10.0.0.2") (jstr "-8") (-8) (.inet4 0x0a000002) (by decide) (by decide)
      (by decide) (by decide) (by decide)
  exact absurd hdigits (by decide)

end Config

end AioVpn
