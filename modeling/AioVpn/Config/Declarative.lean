import AioVpn.Config.Reading

/-!
# What a configuration file means

`Config.parse` in terms of the lines that are left when comments, surrounding space and empty
lines are dropped (`content`).  Cut at the lines that begin with `[`, they are sections.  The file
is accepted if each of these lines is one of the two headers, the first line is one, and there
is an `[Interface]` header, if the lines under all `[Interface]` headers together are an
interface and the lines under each `[Peer]` header are a peer; the configuration consists of
these (`parse_means_sections`).

So it does not matter how the lines of the interface are spread over `[Interface]` sections, nor
where among the `[Peer]` sections these stand (`parseLines_split_iff`,
`Rearranged.parseLines_iff`).
-/

namespace AioVpn
namespace Config

open Blocks

variable {net : NetApi}

/-- The line begins with `[`. -/
def opensSection (line : JString) : Bool := line.head? = some (ch '[')

/-- `"[Interface]".equalsIgnoreCase(line)`. -/
def saysInterface (line : JString) : Bool := JString.equalsIgnoreCase line (jstr "[Interface]")

/-- `"[Peer]".equalsIgnoreCase(line)`. -/
def saysPeer (line : JString) : Bool := JString.equalsIgnoreCase line (jstr "[Peer]")

/-- The sections of a list of lines: each header with the lines that stand under it. -/
def sections (lines : List JString) : List (JString × List JString) := (blocks opensSection lines).2

/-- The lines under all `[Interface]` headers, in file order. -/
def underInterface (lines : List JString) : List JString :=
  ((sections lines).filter fun b => saysInterface b.1).flatMap Prod.snd

/-- The lines under each `[Peer]` header, in file order. -/
def underPeers (lines : List JString) : List (List JString) :=
  ((sections lines).filter fun b => saysPeer b.1).map Prod.snd

/-! ## The sections of the contents -/

/-- The sections of what the lines say are what the sections of the lines say. -/
theorem blocks_content (lines : List JString) :
    blocks opensSection (content lines) =
      (content (blocks isHeader lines).1,
        (blocks isHeader lines).2.map fun b => (cleanLine b.1, content b.2)) := by
  have hkept : ∀ line, opensSection line = true → decide (line ≠ []) = true := by
    intro line h
    rw [decide_eq_true_eq]
    rintro rfl
    exact absurd h (by decide)
  rw [content, blocks_filter hkept, blocks_map]
  simp only [List.map_map]
  rfl

theorem sections_content (lines : List JString) :
    sections (content lines) =
      (blocks isHeader lines).2.map fun b => (cleanLine b.1, content b.2) := by
  rw [sections, blocks_content]

theorem underInterface_content (lines : List JString) :
    underInterface (content lines) = interfaceLines (blocks isHeader lines).2 := by
  rw [underInterface, sections_content, List.filter_map, List.flatMap_map]
  rfl

theorem underPeers_content (lines : List JString) :
    underPeers (content lines) = peerBlocks (blocks isHeader lines).2 := by
  rw [underPeers, sections_content, List.filter_map, List.map_map]
  rfl

/-! ## The reading in terms of the contents -/

/-- What begins as an ASCII pattern does ignoring case, begins with `[` if the pattern does. -/
theorem opensSection_of_equalsIgnoreCase {line pattern : JString}
    (h : JString.equalsIgnoreCase line (ch '[' :: pattern) = true) : opensSection line = true := by
  have hfold : ∀ c : JChar, c.foldCase = (ch '[').foldCase → c = ch '[' := by
    intro c hc
    have hbracket : (ch '[').foldCase = ch '[' := by decide
    rw [hbracket, JChar.foldCase] at hc
    split_ifs at hc
    · exact absurd hc (by decide)
    · exact absurd hc (by decide)
    · exact absurd hc (by decide)
    · rw [JChar.toLower] at hc
      split_ifs at hc with hupper
      · have hnat := congrArg UInt16.toNat hc
        have hch : (ch '[').toNat = 0x5b := by decide
        rw [JChar.isUpper, Bool.and_eq_true, decide_eq_true_eq, decide_eq_true_eq] at hupper
        rw [UInt16.toNat_add, hch] at hnat
        have hstep : UInt16.toNat 0x20 = 0x20 := rfl
        omega
      · exact hc
  rw [JString.equalsIgnoreCase, beq_iff_eq] at h
  cases line with
  | nil => exact absurd h (by simp)
  | cons c line =>
    rw [List.map_cons, List.map_cons] at h
    obtain rfl := hfold c (List.cons.inj h).1
    rfl

/-- The lines are cut into sections by known headers, the first line is one, and one of them is
`[Interface]`. -/
structure Sectioned (lines : List JString) : Prop where
  known : ∀ line ∈ lines, opensSection line = true →
    saysInterface line = true ∨ saysPeer line = true
  first : ∃ line ∈ lines.head?, saysInterface line = true ∨ saysPeer line = true
  interface : ∃ line ∈ lines, saysInterface line = true

theorem opensSection_of_header {line : JString}
    (h : saysInterface line = true ∨ saysPeer line = true) : opensSection line = true :=
  h.elim opensSection_of_equalsIgnoreCase opensSection_of_equalsIgnoreCase

/-- **The parser and the sections.** -/
theorem parseLines_eq_ok_iff_sections {lines : List JString} {config : Config} :
    parseLines net lines = .ok config ↔
      Sectioned (content lines) ∧
        Interface.parse net (underInterface (content lines)) = .ok config.interfaze ∧
          PeersRead net (underPeers (content lines)) config.peers := by
  have hmem : ∀ {b}, b ∈ (blocks isHeader lines).2 →
      (cleanLine b.1, content b.2) ∈ (blocks opensSection (content lines)).2 := by
    intro b hb
    rw [blocks_content]
    exact List.mem_map_of_mem hb
  have hheader : ∀ {line}, line ∈ content lines → opensSection line = true →
      ∃ b ∈ (blocks isHeader lines).2, cleanLine b.1 = line := by
    intro line hline hopens
    obtain ⟨b, hb, rfl⟩ := exists_block hline hopens
    rw [blocks_content] at hb
    obtain ⟨b', hb', rfl⟩ := List.mem_map.mp hb
    exact ⟨b', hb', rfl⟩
  have hfront : content (blocks isHeader lines).1 = [] ↔
      ∀ line ∈ (content lines).head?, opensSection line = true := by
    rw [← blocks_fst_eq_nil_iff, blocks_content]
  rw [parseLines_eq_ok_iff, underInterface_content, underPeers_content, Reads]
  constructor
  · rintro ⟨hhead, hknown, ⟨b, hb, hbi⟩, hinterface, hpeers⟩
    have hnamed : ∀ line ∈ content lines, opensSection line = true →
        saysInterface line = true ∨ saysPeer line = true := by
      intro line hline hopens
      obtain ⟨b, hb, rfl⟩ := hheader hline hopens
      exact hknown b hb
    have hline := (of_mem_blocks (hmem hb)).2.1
    refine ⟨⟨hnamed, ?_, ⟨_, hline, hbi⟩⟩, hinterface, hpeers⟩
    obtain ⟨first, hfirst⟩ := Option.isSome_iff_exists.mp
      (List.isSome_head?.mpr (List.ne_nil_of_mem hline))
    exact ⟨first, hfirst, hnamed first (List.mem_of_mem_head? hfirst)
      (hfront.mp hhead first hfirst)⟩
  · rintro ⟨⟨hknown, ⟨first, hfirst, hnamed⟩, line, hline, hi⟩, hinterface, hpeers⟩
    refine ⟨hfront.mpr fun line hline => ?_, fun b hb => ?_, ?_, hinterface, hpeers⟩
    · obtain rfl : line = first := Option.mem_unique hline hfirst
      exact opensSection_of_header hnamed
    · obtain ⟨hopens, hline, -⟩ := of_mem_blocks (hmem hb)
      exact hknown _ hline hopens
    · obtain ⟨b, hb, rfl⟩ := hheader hline (opensSection_of_header (Or.inl hi))
      exact ⟨b, hb, hi⟩

/-! ## Rearranging the sections -/

/-- The list consists of sections: each begins with a header, and no other line of it is one. -/
def AreSections (bs : List (JString × List JString)) : Prop :=
  ∀ b ∈ bs, isHeader b.1 = true ∧ ∀ line ∈ b.2, isHeader line = false

/-- The parser on a list of sections. -/
theorem parseLines_unblocks_iff {bs : List (JString × List JString)} (hbs : AreSections bs)
    {config : Config} :
    parseLines net (unblocks bs) = .ok config ↔ ReadsBlocks net [] bs config := by
  rw [parseLines_eq_ok_iff, Reads, blocks_unblocks hbs]

/-- What the reading depends on. -/
theorem ReadsBlocks.congr {bs bs' : List (JString × List JString)} {config : Config}
    (hknown : ∀ b' ∈ bs', (∃ b ∈ bs, b.1 = b'.1) ∨ isInterfaceHeader b'.1 = true)
    (hone : (∃ b ∈ bs, isInterfaceHeader b.1 = true) → ∃ b ∈ bs', isInterfaceHeader b.1 = true)
    (hinterface : interfaceLines bs' = interfaceLines bs) (hpeers : peerBlocks bs' = peerBlocks bs)
    (h : ReadsBlocks net [] bs config) : ReadsBlocks net [] bs' config := by
  refine ⟨h.headed, fun b' hb' => ?_, hone h.interface, ?_, ?_⟩
  · rcases hknown b' hb' with ⟨b, hb, hheader⟩ | hi
    · rw [← hheader]
      exact h.known b hb
    · exact Or.inl hi
  · rw [hinterface]
    exact h.interfaze
  · rw [hpeers]
    exact h.peers

theorem interfaceLines_append (bs bs' : List (JString × List JString)) :
    interfaceLines (bs ++ bs') = interfaceLines bs ++ interfaceLines bs' := by
  rw [interfaceLines, List.filter_append, List.flatMap_append]
  rfl

theorem peerBlocks_append (bs bs' : List (JString × List JString)) :
    peerBlocks (bs ++ bs') = peerBlocks bs ++ peerBlocks bs' := by
  rw [peerBlocks, List.filter_append, List.map_append]
  rfl

theorem isHeader_of_isInterfaceHeader {line : JString} (h : isInterfaceHeader line = true) :
    isHeader line = true :=
  opensSection_of_header (Or.inl h)

theorem AreSections.split {front back : List (JString × List JString)} {header header' : JString}
    {upper lower : List JString} (hheader' : isInterfaceHeader header' = true)
    (hbs : AreSections (front ++ (header, upper ++ lower) :: back)) :
    AreSections (front ++ (header, upper) :: (header', lower) :: back) := by
  obtain ⟨hopens, hjoined⟩ := hbs _ (List.mem_append_right _ List.mem_cons_self)
  intro b hb
  rcases List.mem_append.mp hb with hb | hb
  · exact hbs b (List.mem_append_left _ hb)
  rcases List.mem_cons.mp hb with rfl | hb
  · exact ⟨hopens, fun line hline => hjoined line (List.mem_append_left _ hline)⟩
  rcases List.mem_cons.mp hb with rfl | hb
  · exact ⟨isHeader_of_isInterfaceHeader hheader',
      fun line hline => hjoined line (List.mem_append_right _ hline)⟩
  · exact hbs b (List.mem_append_right _ (List.mem_cons_of_mem _ hb))

/-- **Splitting an `[Interface]` section.** -/
theorem parseLines_split_iff {front back : List (JString × List JString)} {header header' : JString}
    {upper lower : List JString} (hheader : isInterfaceHeader header = true)
    (hheader' : isInterfaceHeader header' = true)
    (hbs : AreSections (front ++ (header, upper ++ lower) :: back)) {config : Config} :
    parseLines net (unblocks (front ++ (header, upper) :: (header', lower) :: back)) = .ok config ↔
      parseLines net (unblocks (front ++ (header, upper ++ lower) :: back)) = .ok config := by
  have hinterface : interfaceLines (front ++ (header, upper) :: (header', lower) :: back) =
      interfaceLines (front ++ (header, upper ++ lower) :: back) := by
    rw [interfaceLines_append, interfaceLines_append, interfaceLines_cons, interfaceLines_cons,
      interfaceLines_cons, if_pos hheader, if_pos hheader', if_pos hheader, content_append,
      List.append_assoc]
  have hpeers : peerBlocks (front ++ (header, upper) :: (header', lower) :: back) =
      peerBlocks (front ++ (header, upper ++ lower) :: back) := by
    have hpeer := isPeerHeader_of_isInterfaceHeader hheader
    have hpeer' := isPeerHeader_of_isInterfaceHeader hheader'
    rw [peerBlocks_append, peerBlocks_append, peerBlocks_cons, peerBlocks_cons, peerBlocks_cons,
      hpeer, hpeer']
    rfl
  rw [parseLines_unblocks_iff hbs, parseLines_unblocks_iff (hbs.split hheader')]
  constructor
  · refine ReadsBlocks.congr (fun b hb => ?_) (fun _ => ?_) hinterface.symm hpeers.symm
    · rcases List.mem_append.mp hb with hb | hb
      · exact Or.inl ⟨b, List.mem_append_left _ hb, rfl⟩
      rcases List.mem_cons.mp hb with rfl | hb
      · exact Or.inr hheader
      · exact Or.inl ⟨b, List.mem_append_right _ (List.mem_cons_of_mem _
          (List.mem_cons_of_mem _ hb)), rfl⟩
    · exact ⟨_, List.mem_append_right _ List.mem_cons_self, hheader⟩
  · refine ReadsBlocks.congr (fun b hb => ?_) (fun _ => ?_) hinterface hpeers
    · rcases List.mem_append.mp hb with hb | hb
      · exact Or.inl ⟨b, List.mem_append_left _ hb, rfl⟩
      rcases List.mem_cons.mp hb with rfl | hb
      · exact Or.inr hheader
      rcases List.mem_cons.mp hb with rfl | hb
      · exact Or.inr hheader'
      · exact Or.inl ⟨b, List.mem_append_right _ (List.mem_cons_of_mem _ hb), rfl⟩
    · exact ⟨_, List.mem_append_right _ List.mem_cons_self, hheader⟩

/-- The `[Interface]` sections are the same and in the same order, and so are the others. -/
structure Rearranged (bs bs' : List (JString × List JString)) : Prop where
  interface : (bs'.filter fun b => isInterfaceHeader b.1) = bs.filter fun b => isInterfaceHeader b.1
  other : (bs'.filter fun b => !isInterfaceHeader b.1) = bs.filter fun b => !isInterfaceHeader b.1

namespace Rearranged

variable {bs bs' : List (JString × List JString)}

theorem symm (h : Rearranged bs bs') : Rearranged bs' bs := ⟨h.interface.symm, h.other.symm⟩

theorem mem (h : Rearranged bs bs') {b : JString × List JString} (hb : b ∈ bs') : b ∈ bs := by
  cases hi : isInterfaceHeader b.1 with
  | true =>
    have hmem : b ∈ bs'.filter fun b => isInterfaceHeader b.1 := List.mem_filter.mpr ⟨hb, hi⟩
    rw [h.interface] at hmem
    exact List.mem_of_mem_filter hmem
  | false =>
    have hmem : b ∈ bs'.filter fun b => !isInterfaceHeader b.1 :=
      List.mem_filter.mpr ⟨hb, by rw [hi]; rfl⟩
    rw [h.other] at hmem
    exact List.mem_of_mem_filter hmem

/-- A `[Peer]` section is not an `[Interface]` section. -/
theorem peerBlocks_eq (h : Rearranged bs bs') : peerBlocks bs' = peerBlocks bs := by
  have hpeers : ∀ l : List (JString × List JString), (l.filter fun b => isPeerHeader b.1) =
      (l.filter fun b => !isInterfaceHeader b.1).filter fun b => isPeerHeader b.1 := by
    intro l
    rw [List.filter_filter]
    refine List.filter_congr fun b _ => ?_
    cases hi : isInterfaceHeader b.1 with
    | true => rw [isPeerHeader_of_isInterfaceHeader hi]; rfl
    | false => simp
  rw [peerBlocks, peerBlocks, hpeers, hpeers bs, h.other]

theorem reads (h : Rearranged bs bs') {config : Config} (hr : ReadsBlocks net [] bs config) :
    ReadsBlocks net [] bs' config := by
  refine hr.congr (fun b hb => Or.inl ⟨b, h.mem hb, rfl⟩) ?_ ?_ h.peerBlocks_eq
  · rintro ⟨b, hb, hi⟩
    exact ⟨b, h.symm.mem hb, hi⟩
  · rw [interfaceLines, interfaceLines, h.interface]

/-- **Moving `[Interface]` sections.** -/
theorem parseLines_iff (h : Rearranged bs bs') (hbs : AreSections bs) {config : Config} :
    parseLines net (unblocks bs') = .ok config ↔ parseLines net (unblocks bs) = .ok config := by
  rw [parseLines_unblocks_iff hbs, parseLines_unblocks_iff fun b hb => hbs b (h.mem hb)]
  exact ⟨h.symm.reads, h.reads⟩

end Rearranged

/-! ## The meaning of a file -/

/-- Every block is read. -/
theorem exists_peersRead_iff {ls : List (List JString)} :
    (∃ ps, PeersRead net ls ps) ↔ ∀ block ∈ ls, ∃ p, Peer.parse net block = .ok p := by
  induction ls with
  | nil => simp [PeersRead]
  | cons block ls ih =>
    rw [List.forall_mem_cons, ← ih]
    constructor
    · rintro ⟨_, hread⟩
      obtain ⟨p, ps, hp, hps, rfl⟩ := List.forall₂_cons_left_iff.mp hread
      exact ⟨⟨p, hp⟩, ps, hps⟩
    · rintro ⟨⟨p, hp⟩, ps, hps⟩
      exact ⟨p :: ps, .cons hp hps⟩

/-- **`Config.parse` and its declarative reading.**  Let `content lines` be the lines with
everything from the first `#` on removed, trimmed, and empty ones dropped.  The parser succeeds
if and only if every one of them that begins with `[` is `[Interface]` or `[Peer]` ignoring case,
the first of them is such a header, an `[Interface]` header occurs, the lines under all
`[Interface]` headers together are an interface, and the lines under each `[Peer]` header are a
peer; and then the configuration consists of that interface and those peers, in file order.
Splitting an `[Interface]` section in two, or moving `[Interface]` sections among the others
while both keep their order, does not change the result. -/
theorem parse_means_sections (net : NetApi) (lines : List JString) :
    ((∃ config, parseLines net lines = .ok config) ↔
      Sectioned (content lines) ∧
        (∃ i, Interface.parse net (underInterface (content lines)) = .ok i) ∧
          ∀ block ∈ underPeers (content lines), ∃ p, Peer.parse net block = .ok p) ∧
    (∀ config, parseLines net lines = .ok config →
      Interface.parse net (underInterface (content lines)) = .ok config.interfaze ∧
        PeersRead net (underPeers (content lines)) config.peers) ∧
    (∀ front back header header' upper lower, isInterfaceHeader header = true →
      isInterfaceHeader header' = true →
      AreSections (front ++ (header, upper ++ lower) :: back) →
      lines = unblocks (front ++ (header, upper ++ lower) :: back) →
      ∀ config, parseLines net (unblocks (front ++ (header, upper) :: (header', lower) :: back)) =
        .ok config ↔ parseLines net lines = .ok config) ∧
    (∀ bs bs', AreSections bs → Rearranged bs bs' → lines = unblocks bs →
      ∀ config, parseLines net (unblocks bs') = .ok config ↔
        parseLines net lines = .ok config) := by
  refine ⟨⟨?_, ?_⟩, fun config h => (parseLines_eq_ok_iff_sections.mp h).2, ?_, ?_⟩
  · rintro ⟨config, h⟩
    obtain ⟨hsectioned, hinterface, hpeers⟩ := parseLines_eq_ok_iff_sections.mp h
    exact ⟨hsectioned, ⟨_, hinterface⟩, exists_peersRead_iff.mp ⟨_, hpeers⟩⟩
  · rintro ⟨hsectioned, ⟨i, hinterface⟩, hpeers⟩
    obtain ⟨ps, hps⟩ := exists_peersRead_iff.mpr hpeers
    exact ⟨⟨i, ps⟩, parseLines_eq_ok_iff_sections.mpr ⟨hsectioned, hinterface, hps⟩⟩
  · rintro front back header header' upper lower hheader hheader' hbs rfl config
    exact parseLines_split_iff hheader hheader' hbs
  · rintro bs bs' hbs hmoved rfl config
    exact hmoved.parseLines_iff hbs

end Config
end AioVpn
