import AioVpn.Config.Applications
import AioVpn.Config.Reading

/-!
# The packages a text names

The two readings put together.  In a text that is accepted, every line that names
packages stands under an `[Interface]` header, so the packages of the configuration are
simply the ones its lines name (`mem_excludedApplications_iff`,
`mem_includedApplications_iff`).

`Rewrites` relates two cuts of a text that differ only in lines which name packages and
stand under `[Interface]` headers.  Such a change keeps the peers and every other
setting, and is accepted unless packages end up both included and excluded
(`Rewrites.exists_reads`, `Rewrites.same`).
-/

namespace AioVpn
namespace Config

open Blocks

variable {net : NetApi}

/-- The packages named by the lines of a text. -/
def allNames (key : InterfaceKey) (lines : List JString) : List JString :=
  lines.flatMap fun line => namesIn key (cleanLine line)

/-- A header is no attribute. -/
theorem attribute_parse_of_isHeader {line : JString} (h : isHeader line = true) :
    Attribute.parse (cleanLine line) = none := by
  have hhead : (cleanLine line).head? = some (ch '[') := by simpa [isHeader] using h
  cases hclean : cleanLine line with
  | nil => rfl
  | cons c rest =>
    rw [hclean, List.head?_cons, Option.some.injEq] at hhead
    subst hhead
    have hword : JChar.isWord (ch '[') = false := by decide
    have hspace : JChar.isSpace (ch '[') = false := by decide
    simp [Attribute.parse, hword, hspace]

/-- Where the interface names a package, a line of the text does. -/
theorem mem_allNames {key : InterfaceKey} {lines : List JString} {name : JString}
    (h : name ∈ namedBy key (interfaceLines (blocks isHeader lines).2)) :
    name ∈ allNames key lines := by
  obtain ⟨line, hline, hname⟩ := List.mem_flatMap.mp h
  obtain ⟨b, hb, hcontent⟩ := List.mem_flatMap.mp hline
  obtain ⟨-, raw, hraw, rfl⟩ := mem_content.mp hcontent
  exact List.mem_flatMap.mpr
    ⟨raw, (of_mem_blocks (List.mem_filter.mp hb).1).2.2 raw hraw, hname⟩

/-! ## Lines that name applications in a text that is accepted -/

section Reads

variable {lines : List JString} {config : Config}

theorem mem_peerBlocks {bs : List (JString × List JString)} {b : JString × List JString}
    (hb : b ∈ bs) (hpeer : isPeerHeader b.1 = true) : content b.2 ∈ peerBlocks bs :=
  List.mem_map.mpr ⟨b, List.mem_filter.mpr ⟨hb, hpeer⟩, rfl⟩

theorem mem_interfaceLines {bs : List (JString × List JString)} {b : JString × List JString}
    (hb : b ∈ bs) (hinterface : isInterfaceHeader b.1 = true) {line : JString}
    (hline : line ∈ content b.2) : line ∈ interfaceLines bs :=
  List.mem_flatMap.mpr ⟨b, List.mem_filter.mpr ⟨hb, hinterface⟩, hline⟩

/-- Each `[Peer]` section is a peer. -/
theorem ReadsBlocks.exists_peer {front : List JString} {bs : List (JString × List JString)}
    (h : ReadsBlocks net front bs config) {b : JString × List JString} (hb : b ∈ bs)
    (hpeer : isPeerHeader b.1 = true) : ∃ p, Peer.parse net (content b.2) = .ok p := by
  have hparse : ∀ {ls : List (List JString)} {ps : List Peer}, PeersRead net ls ps →
      ∀ l ∈ ls, ∃ p, Peer.parse net l = .ok p := by
    intro ls ps hread
    induction hread with
    | nil => simp
    | cons hp _ ih => exact List.forall_mem_cons.mpr ⟨⟨_, hp⟩, ih⟩
  exact hparse h.peers _ (mem_peerBlocks hb hpeer)

/-- Every line under a header is an attribute. -/
theorem ReadsBlocks.exists_attribute {front : List JString} {bs : List (JString × List JString)}
    (h : ReadsBlocks net front bs config) {b : JString × List JString} (hb : b ∈ bs)
    {line : JString} (hline : line ∈ content b.2) : ∃ attr, Attribute.parse line = some attr := by
  rcases h.known b hb with hi | hp
  · exact Interface.exists_attribute h.interfaze (mem_interfaceLines hb hi hline)
  · obtain ⟨p, hparse⟩ := h.exists_peer hb hp
    exact Peer.exists_attribute hparse hline

/-- The lines of a `[Peer]` section name no applications. -/
theorem ReadsBlocks.not_isApplications {front : List JString}
    {bs : List (JString × List JString)} (h : ReadsBlocks net front bs config)
    {b : JString × List JString} (hb : b ∈ bs) (hpeer : isPeerHeader b.1 = true) {line : JString}
    (hline : line ∈ content b.2) : isApplications line = false := by
  obtain ⟨p, hp⟩ := h.exists_peer hb hpeer
  exact Peer.not_isApplications hp hline

/-- **A line that names applications stands under `[Interface]`.** -/
theorem Reads.mem_interfaceLines_of_isApplications (h : Reads net lines config) {raw : JString}
    (hraw : raw ∈ lines) (happ : isApplications (cleanLine raw) = true) :
    cleanLine raw ∈ interfaceLines (blocks isHeader lines).2 := by
  have hclean := ne_nil_of_isApplications happ
  rcases mem_blocks hraw with hfront | hheader | ⟨b, hb, hunder⟩
  · have hcontent : cleanLine raw ∈ content (blocks isHeader lines).1 :=
      mem_content.mpr ⟨hclean, raw, hfront, rfl⟩
    rw [h.headed] at hcontent
    exact absurd hcontent (by simp)
  · rw [isApplications, attribute_parse_of_isHeader hheader] at happ
    exact absurd happ (by simp)
  · have hcontent : cleanLine raw ∈ content b.2 := mem_content.mpr ⟨hclean, raw, hunder, rfl⟩
    rcases h.known b hb with hi | hp
    · exact mem_interfaceLines hb hi hcontent
    · exact absurd happ (by simp [h.not_isApplications hb hp hcontent])

theorem Reads.mem_namedBy_iff (h : Reads net lines config) {key : InterfaceKey}
    (hkey : key = .excludedApplications ∨ key = .includedApplications) (name : JString) :
    name ∈ namedBy key (interfaceLines (blocks isHeader lines).2) ↔ name ∈ allNames key lines := by
  constructor
  · exact mem_allNames
  · intro hname
    obtain ⟨raw, hraw, hname⟩ := List.mem_flatMap.mp hname
    have happ : isApplications (cleanLine raw) = true := by
      by_contra hno
      obtain ⟨hE, hI⟩ := namesIn_of_not_isApplications (Bool.not_eq_true _ ▸ hno)
      rcases hkey with rfl | rfl
      · exact absurd hname (by simp [hE])
      · exact absurd hname (by simp [hI])
    exact List.mem_flatMap.mpr ⟨_, h.mem_interfaceLines_of_isApplications hraw happ, hname⟩

/-- **The packages excluded** are the ones the lines of the text name. -/
theorem Reads.mem_excludedApplications_iff (h : Reads net lines config) (name : JString) :
    name ∈ config.interfaze.excludedApplications ↔
      name ∈ allNames .excludedApplications lines :=
  (Interface.mem_excludedApplications h.interfaze name).trans
    (h.mem_namedBy_iff (Or.inl rfl) name)

/-- **The packages included** are the ones the lines of the text name. -/
theorem Reads.mem_includedApplications_iff (h : Reads net lines config) (name : JString) :
    name ∈ config.interfaze.includedApplications ↔
      name ∈ allNames .includedApplications lines :=
  (Interface.mem_includedApplications h.interfaze name).trans
    (h.mem_namedBy_iff (Or.inr rfl) name)

end Reads

/-! ## Changing the lines that name applications -/

/-- Two blocks with the same header that differ only in lines which name packages, and
only under `[Interface]`. -/
structure RewritesBlock (b b' : JString × List JString) : Prop where
  header : b'.1 = b.1
  interface : isInterfaceHeader b.1 = true → Interface.SameOthers (content b.2) (content b'.2)
  peer : isPeerHeader b.1 = true → content b'.2 = content b.2

/-- Two cuts that differ only so. -/
abbrev Rewrites (bs bs' : List (JString × List JString)) : Prop := List.Forall₂ RewritesBlock bs bs'

theorem RewritesBlock.refl (b : JString × List JString) : RewritesBlock b b :=
  ⟨rfl, fun _ => rfl, fun _ => rfl⟩

theorem Rewrites.refl (bs : List (JString × List JString)) : Rewrites bs bs :=
  List.forall₂_same.mpr fun b _ => RewritesBlock.refl b

theorem Rewrites.trans {bs bs₁ bs₂ : List (JString × List JString)} (h : Rewrites bs bs₁)
    (h' : Rewrites bs₁ bs₂) : Rewrites bs bs₂ := by
  induction h generalizing bs₂ with
  | nil => exact h'
  | cons hb _ ih =>
    obtain ⟨b₂, rest, hb₂, hrest, rfl⟩ := List.forall₂_cons_left_iff.mp h'
    refine .cons ⟨hb₂.header.trans hb.header, ?_, ?_⟩ (ih hrest)
    · intro hi
      exact (hb₂.interface (by rw [hb.header]; exact hi)).trans (hb.interface hi)
    · intro hp
      exact (hb₂.peer (by rw [hb.header]; exact hp)).trans (hb.peer hp)

section Rewrites

variable {bs bs' : List (JString × List JString)} {front front' : List JString} {config : Config}

theorem Rewrites.sameOthers (h : Rewrites bs bs') :
    Interface.SameOthers (interfaceLines bs) (interfaceLines bs') := by
  induction h with
  | nil => rfl
  | @cons b b' bs bs' hb _ ih =>
    obtain ⟨line, ls⟩ := b
    obtain ⟨line', ls'⟩ := b'
    obtain rfl : line' = line := hb.header
    rw [Interface.SameOthers, interfaceLines_cons, interfaceLines_cons, List.filter_append,
      List.filter_append, ih]
    congr 1
    cases hi : isInterfaceHeader line' with
    | true => exact hb.interface hi
    | false => rfl

theorem Rewrites.peerBlocks_eq (h : Rewrites bs bs') : peerBlocks bs' = peerBlocks bs := by
  induction h with
  | nil => rfl
  | @cons b b' bs bs' hb _ ih =>
    obtain ⟨line, ls⟩ := b
    obtain ⟨line', ls'⟩ := b'
    obtain rfl : line' = line := hb.header
    rw [peerBlocks_cons, peerBlocks_cons, ih]
    congr 1
    cases hp : isPeerHeader line' with
    | true =>
      have hcontent : content ls' = content ls := hb.peer hp
      rw [hcontent]
    | false => rfl

theorem Rewrites.headers (h : Rewrites bs bs') (P : JString → Prop) :
    (∀ b ∈ bs', P b.1) ↔ ∀ b ∈ bs, P b.1 := by
  induction h with
  | nil => rfl
  | cons hb _ ih => rw [List.forall_mem_cons, List.forall_mem_cons, ih, hb.header]

/-- **The rewritten text is accepted** unless packages are both included and excluded. -/
theorem Rewrites.exists_reads (h : Rewrites bs bs') (hreads : ReadsBlocks net front bs config)
    (hfront : content front' = [])
    (hexclusive : namedBy .includedApplications (interfaceLines bs') = [] ∨
      namedBy .excludedApplications (interfaceLines bs') = []) :
    ∃ config', ReadsBlocks net front' bs' config' := by
  obtain ⟨i, hi⟩ := Interface.exists_parse_eq_ok h.sameOthers hreads.interfaze hexclusive
  have hknown :=
    (h.headers fun line => isInterfaceHeader line = true ∨ isPeerHeader line = true).mpr
      hreads.known
  refine ⟨⟨i, config.peers⟩, hfront, hknown, ?_, hi, ?_⟩
  · by_contra hno
    have hnone : ∀ b ∈ bs', ¬ isInterfaceHeader b.1 = true :=
      fun b hb hi => hno ⟨b, hb, hi⟩
    obtain ⟨b, hb, hb'⟩ := hreads.interface
    exact (h.headers fun line => ¬ isInterfaceHeader line = true).mp hnone b hb hb'
  · rw [h.peerBlocks_eq]
    exact hreads.peers

/-- **And it says the same**, packages apart. -/
theorem Rewrites.same (h : Rewrites bs bs') (hreads : ReadsBlocks net front bs config)
    {config' : Config} (hreads' : ReadsBlocks net front' bs' config') :
    config'.peers = config.peers ∧
      Interface.SameSettings config.interfaze config'.interfaze := by
  refine ⟨?_, Interface.sameSettings h.sameOthers hreads.interfaze hreads'.interfaze⟩
  have hunique : ∀ {ls : List (List JString)} {ps qs : List Peer}, PeersRead net ls ps →
      PeersRead net ls qs → qs = ps := by
    intro ls ps qs hps
    induction hps generalizing qs with
    | nil => exact fun hqs => List.forall₂_nil_left_iff.mp hqs
    | cons hp _ ih =>
      intro hqs
      obtain ⟨q, qs', hq, hqs', rfl⟩ := List.forall₂_cons_left_iff.mp hqs
      rw [ih hqs', Except.ok.inj (hq.symm.trans hp)]
  have hpeers := hreads'.peers
  rw [h.peerBlocks_eq] at hpeers
  exact hunique hreads.peers hpeers

end Rewrites

end Config
end AioVpn
