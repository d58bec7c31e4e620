import AioVpn.Config.AttributeText

/-!
# The text of a configuration

`toWgQuickString` of `Interface`, `Peer` and `Config`: one line for each attribute that is
present, the interface under its header, and each peer under a blank line and its header.  A
list of values is one line, joined with `, `; the DNS servers and the search domains share a
line, which is there if there are servers.

`parse_toWgQuickString_iff` says what the parser makes of such a text: it reads the lines of
the interface as an interface and the lines of each peer as a peer.
-/

namespace AioVpn

open JString

namespace Attribute

/-- The line of an attribute. -/
def text (a : Attribute) : JString := a.key ++ jstr " = " ++ a.value

/-- What the parser sees of the lines of these attributes. -/
def seen (attrs : List Attribute) : List JString := attrs.map fun a => Config.cleanLine a.text

/-- It is printed on one line, and the parser does not find a comment on it. -/
structure IsPrintable (a : Attribute) : Prop where
  key : IsKey a.key
  noComment : ch '#' ∉ a.value
  oneLine : OneLine a.value

end Attribute

/-! ## Printing -/

/-- The attributes that `Interface.toWgQuickString` prints. -/
def Interface.attributes (net : NetApi) (i : Interface) : List Attribute :=
  (if i.addresses.isEmpty then []
    else [⟨jstr "Address", Attribute.join (i.addresses.elems.map (InetNetwork.toJString net))⟩]) ++
  (if i.dnsServers.isEmpty then []
    else
      [⟨jstr "DNS", Attribute.join (i.dnsServers.elems.map net.getHostAddress ++
        i.dnsSearchDomains.elems)⟩]) ++
  (if i.excludedApplications.isEmpty then []
    else [⟨jstr "ExcludedApplications", Attribute.join i.excludedApplications.elems⟩]) ++
  (if i.includedApplications.isEmpty then []
    else [⟨jstr "IncludedApplications", Attribute.join i.includedApplications.elems⟩]) ++
  (i.listenPort.elim [] fun lp => [⟨jstr "ListenPort", decimal lp⟩]) ++
  (i.mtu.elim [] fun m => [⟨jstr "MTU", decimal m⟩]) ++
  [⟨jstr "PrivateKey", i.privateKey.toBase64⟩]

/-- The attributes that `Peer.toWgQuickString` prints. -/
def Peer.attributes (net : NetApi) (p : Peer) : List Attribute :=
  (if p.allowedIps.isEmpty then []
    else
      [⟨jstr "AllowedIPs", Attribute.join (p.allowedIps.elems.map (InetNetwork.toJString net))⟩]) ++
  (p.endpoint.elim [] fun ep => [⟨jstr "Endpoint", ep.toJString⟩]) ++
  (p.persistentKeepalive.elim [] fun pk => [⟨jstr "PersistentKeepalive", decimal pk⟩]) ++
  (p.preSharedKey.elim [] fun psk => [⟨jstr "PreSharedKey", psk.toBase64⟩]) ++
  [⟨jstr "PublicKey", p.publicKey.toBase64⟩]

/-- One line for each attribute. -/
def Attribute.toLines (attrs : List Attribute) : JString :=
  attrs.flatMap fun a => a.text ++ jstr "\n"

/-- `Interface.toWgQuickString`. -/
def Interface.toWgQuickString (net : NetApi) (i : Interface) : JString :=
  Attribute.toLines (i.attributes net)

/-- `Peer.toWgQuickString`. -/
def Peer.toWgQuickString (net : NetApi) (p : Peer) : JString :=
  Attribute.toLines (p.attributes net)

/-- `Config.toWgQuickString`. -/
def Config.toWgQuickString (net : NetApi) (c : Config) : JString :=
  jstr "[Interface]\n" ++ c.interfaze.toWgQuickString net ++
    c.peers.flatMap fun p => jstr "\n[Peer]\n" ++ p.toWgQuickString net

/-! ## The lines of the text -/

namespace Attribute

variable {attrs : List Attribute} (hattrs : ∀ a ∈ attrs, IsPrintable a)

include hattrs

theorem lines_toLines (s : JString) :
    lines (toLines attrs ++ s) = attrs.map text ++ lines s := by
  induction attrs with
  | nil => rfl
  | cons a attrs ih =>
    have ha := hattrs a List.mem_cons_self
    have hcons : toLines (a :: attrs) ++ s = a.text ++ ch '\n' :: (toLines attrs ++ s) := by
      simp only [toLines, List.flatMap_cons, List.append_assoc]
      rfl
    have hone : OneLine a.text := oneLine_key_value ha.key ha.oneLine
    rw [hcons, lines_append_newline hone,
      ih fun b hb => hattrs b (List.mem_cons_of_mem _ hb)]
    rfl

theorem not_isHeader_text : ∀ line ∈ attrs.map text, Config.isHeader line = false := by
  intro line hline
  obtain ⟨a, ha, rfl⟩ := List.mem_map.mp hline
  exact isHeader_key_value (hattrs a ha).key (hattrs a ha).noComment

/-- The parser sees all of the lines. -/
theorem content_text (rest : List JString) :
    Config.content (attrs.map text ++ rest) = seen attrs ++ Config.content rest := by
  induction attrs with
  | nil => rfl
  | cons a attrs ih =>
    have ha := hattrs a List.mem_cons_self
    have hne : Config.cleanLine a.text ≠ [] := by
      rw [text, cleanLine_key_value ha.key ha.noComment]
      simp
    rw [List.map_cons, List.cons_append, Config.content_cons hne,
      ih fun b hb => hattrs b (List.mem_cons_of_mem _ hb)]
    rfl

end Attribute

namespace Config

open Blocks

variable {net : NetApi}

/-- The lines under the interface's. -/
def peersLines (net : NetApi) (peers : List Peer) : List JString :=
  (peers.flatMap fun p => [] :: jstr "[Peer]" :: (p.attributes net).map Attribute.text) ++ [[]]

/-- The text has only printable attributes. -/
structure IsPrintable (net : NetApi) (c : Config) : Prop where
  interfaze : ∀ a ∈ c.interfaze.attributes net, a.IsPrintable
  peers : ∀ p ∈ c.peers, ∀ a ∈ p.attributes net, a.IsPrintable

theorem lines_peers {peers : List Peer}
    (hpeers : ∀ p ∈ peers, ∀ a ∈ p.attributes net, a.IsPrintable) :
    lines (peers.flatMap fun p => jstr "\n[Peer]\n" ++ p.toWgQuickString net) =
      peersLines net peers := by
  induction peers with
  | nil => rfl
  | cons p peers ih =>
    have hcons : (p :: peers).flatMap (fun p => jstr "\n[Peer]\n" ++ p.toWgQuickString net) =
        [] ++ ch '\n' :: (jstr "[Peer]" ++ ch '\n' :: (Attribute.toLines (p.attributes net) ++
          peers.flatMap fun p => jstr "\n[Peer]\n" ++ p.toWgQuickString net)) := by
      rw [List.flatMap_cons, List.append_assoc]
      rfl
    have hheader : OneLine (jstr "[Peer]") := List.forall_mem_iff_forall_getElem.mpr (by decide)
    rw [hcons, lines_append_newline (by simp [OneLine]), lines_append_newline hheader,
      Attribute.lines_toLines (hpeers p List.mem_cons_self),
      ih fun q hq => hpeers q (List.mem_cons_of_mem _ hq)]
    simp [peersLines]

/-- **The lines of the text.** -/
theorem lines_toWgQuickString {c : Config} (hc : IsPrintable net c) :
    lines (c.toWgQuickString net) =
      jstr "[Interface]" ::
        ((c.interfaze.attributes net).map Attribute.text ++ peersLines net c.peers) := by
  have htext : c.toWgQuickString net =
      jstr "[Interface]" ++ ch '\n' :: (Attribute.toLines (c.interfaze.attributes net) ++
        c.peers.flatMap fun p => jstr "\n[Peer]\n" ++ p.toWgQuickString net) := by
    rw [toWgQuickString, List.append_assoc]
    rfl
  have hheader : OneLine (jstr "[Interface]") :=
    List.forall_mem_iff_forall_getElem.mpr (by decide)
  rw [htext, lines_append_newline hheader, Attribute.lines_toLines hc.interfaze,
    lines_peers hc.peers]

/-! ## Cutting it at the headers -/

theorem isInterfaceHeader_interface : isInterfaceHeader (jstr "[Interface]") = true := by decide

theorem isPeerHeader_peer : isPeerHeader (jstr "[Peer]") = true := by decide

/-- The block of these attributes: the blank line belongs to it. -/
def blockOf (header : JString) (attrs : List Attribute) : JString × List JString :=
  (header, attrs.map Attribute.text ++ [[]])

theorem content_blockOf (header : JString) {attrs : List Attribute}
    (hattrs : ∀ a ∈ attrs, a.IsPrintable) :
    content (blockOf header attrs).2 = Attribute.seen attrs := by
  have hblank : content [[]] = [] := rfl
  rw [blockOf, Attribute.content_text hattrs, hblank, List.append_nil]

theorem blocks_peersLines {peers : List Peer}
    (hpeers : ∀ p ∈ peers, ∀ a ∈ p.attributes net, a.IsPrintable) :
    blocks isHeader (peersLines net peers) =
      ([[]], peers.map fun p => blockOf (jstr "[Peer]") (p.attributes net)) := by
  induction peers with
  | nil => rfl
  | cons p peers ih =>
    have hcons : peersLines net (p :: peers) = [] :: jstr "[Peer]" ::
        ((p.attributes net).map Attribute.text ++ peersLines net peers) := by
      simp [peersLines]
    rw [hcons, blocks_cons (by decide), blocks_cons_header (by decide),
      blocks_append_of_not_header (Attribute.not_isHeader_text (hpeers p List.mem_cons_self)),
      ih fun q hq => hpeers q (List.mem_cons_of_mem _ hq)]
    rfl

theorem blocks_toWgQuickString {c : Config} (hc : IsPrintable net c) :
    blocks isHeader (lines (c.toWgQuickString net)) =
      ([], blockOf (jstr "[Interface]") (c.interfaze.attributes net) ::
        c.peers.map fun p => blockOf (jstr "[Peer]") (p.attributes net)) := by
  rw [lines_toWgQuickString hc, blocks_cons_header (by decide),
    blocks_append_of_not_header (Attribute.not_isHeader_text hc.interfaze),
    blocks_peersLines hc.peers]
  rfl

theorem interfaceLines_peers (net : NetApi) (peers : List Peer) :
    interfaceLines (peers.map fun p => blockOf (jstr "[Peer]") (p.attributes net)) = [] := by
  induction peers with
  | nil => rfl
  | cons p peers ih =>
    rw [List.map_cons, blockOf, interfaceLines_cons, ih, if_neg (by decide)]
    rfl

theorem peerBlocks_peers {peers : List Peer}
    (hpeers : ∀ p ∈ peers, ∀ a ∈ p.attributes net, a.IsPrintable) :
    peerBlocks (peers.map fun p => blockOf (jstr "[Peer]") (p.attributes net)) =
      peers.map fun p => Attribute.seen (p.attributes net) := by
  induction peers with
  | nil => rfl
  | cons p peers ih =>
    have hcontent := content_blockOf (jstr "[Peer]") (hpeers p List.mem_cons_self)
    rw [List.map_cons, List.map_cons, ← hcontent, blockOf, peerBlocks_cons,
      if_pos isPeerHeader_peer, ih fun q hq => hpeers q (List.mem_cons_of_mem _ hq)]
    rfl

/-- **What the parser makes of the text**: it reads the interface in the lines of the
interface, and each peer in its lines. -/
theorem parse_toWgQuickString_iff {c c' : Config} (hc : IsPrintable net c) :
    parse net (c.toWgQuickString net) = .ok c' ↔
      Interface.parse net (Attribute.seen (c.interfaze.attributes net)) = .ok c'.interfaze ∧
        PeersRead net (c.peers.map fun p => Attribute.seen (p.attributes net)) c'.peers := by
  have hblocks := blocks_toWgQuickString hc
  have hinterface : interfaceLines (blocks isHeader (lines (c.toWgQuickString net))).2 =
      Attribute.seen (c.interfaze.attributes net) := by
    rw [hblocks, ← content_blockOf (jstr "[Interface]") hc.interfaze, blockOf, interfaceLines_cons,
      if_pos isInterfaceHeader_interface, interfaceLines_peers, List.append_nil]
  have hpeers : peerBlocks (blocks isHeader (lines (c.toWgQuickString net))).2 =
      c.peers.map fun p => Attribute.seen (p.attributes net) := by
    rw [hblocks, blockOf, peerBlocks_cons, if_neg (by decide), peerBlocks_peers hc.peers]
    rfl
  rw [parse_eq_parseLines_lines, parseLines_eq_ok_iff, Reads]
  constructor
  · rintro ⟨-, -, -, hi, hp⟩
    rw [hinterface] at hi
    rw [hpeers] at hp
    exact ⟨hi, hp⟩
  · rintro ⟨hi, hp⟩
    refine ⟨by rw [hblocks]; rfl, ?_, ?_, by rw [hinterface]; exact hi, by rw [hpeers]; exact hp⟩
    · rw [hblocks]
      intro b hb
      rcases List.mem_cons.mp hb with rfl | hb
      · exact Or.inl isInterfaceHeader_interface
      · obtain ⟨p, -, rfl⟩ := List.mem_map.mp hb
        exact Or.inr isPeerHeader_peer
    · rw [hblocks]
      exact ⟨_, List.mem_cons_self, isInterfaceHeader_interface⟩

end Config
end AioVpn
