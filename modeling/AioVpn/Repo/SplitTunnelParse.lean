import AioVpn.Backend.AppFilters
import AioVpn.Config.NamedApplications
import AioVpn.Repo.InsertedLine

/-!
# The rewriter and the parser

Does `Config.parse` read in the rewritten text what the user has chosen?  Two things are
needed, and the rewriter guarantees neither.

* Every line that names applications has to be removed.  The rewriter recognises only
  one spelling, with one blank in front of `=`; the parser takes any.  What the lines
  that are left name (`leftover`) ends up in the configuration.
* The line that is inserted has to stand under an `[Interface]` header.  It is inserted
  in front of the first line that is nothing but `[Peer]`, or at the end of the text; a
  `[Peer]` header with a comment is not seen, and a text may begin with its peers.

`rewriting_agrees_iff` says that these are the only two: for every text that is accepted
and all sets of package names, the rewritten text is accepted, with the same peers and
settings and exactly the chosen packages, if and only if nothing else is left over and
the line, if there is one, is placed under `[Interface]`.
-/

namespace AioVpn
namespace VpnRepository

open Blocks

variable {net : NetApi}

/-! ## The lines that are left -/

/-- The lines that are not removed. -/
def kept (lines : List JString) : List JString := lines.filter fun line => !namesApplications line

/-- Removing lines that name applications. -/
theorem sameOthers_filter {q : JString → Bool} {lines : List JString}
    (hq : ∀ raw ∈ lines, q raw = false → isApplications (Config.cleanLine raw) = true) :
    Interface.SameOthers (Config.content lines) (Config.content (lines.filter q)) := by
  induction lines with
  | nil => rfl
  | cons raw lines ih =>
    have hrest := ih fun x hx => hq x (List.mem_cons_of_mem _ hx)
    rw [Interface.SameOthers] at hrest ⊢
    cases hraw : q raw with
    | true =>
      rw [List.filter_cons_of_pos hraw]
      by_cases hblank : Config.cleanLine raw = []
      · rw [Config.content_cons_of_blank hblank, Config.content_cons_of_blank hblank, hrest]
      · rw [Config.content_cons hblank, Config.content_cons hblank, List.filter_cons,
          List.filter_cons, hrest]
    | false =>
      have happ := hq raw List.mem_cons_self hraw
      rw [List.filter_cons_of_neg (by simp [hraw]), hrest,
        Config.content_cons (ne_nil_of_isApplications happ),
        List.filter_cons_of_neg (by simp [happ])]

/-- **The removal** changes only lines that name applications, under `[Interface]`. -/
theorem rewrites_kept {lines : List JString} {config : Config} (h : Config.Reads net lines config) :
    Config.Rewrites (blocks Config.isHeader lines).2 (blocks Config.isHeader (kept lines)).2 ∧
      Config.content (blocks Config.isHeader (kept lines)).1 = [] := by
  have hheaders : ∀ line, Config.isHeader line = true → (!namesApplications line) = true :=
    fun line hline => by simp [not_namesApplications_of_isHeader hline]
  rw [kept, blocks_filter hheaders]
  constructor
  · refine List.forall₂_map_right_iff.mpr (List.forall₂_same.mpr fun b hb => ?_)
    have hcontent : ∀ raw ∈ b.2, namesApplications raw = true →
        Config.cleanLine raw ∈ Config.content b.2 := fun raw hraw hnames =>
      Config.mem_content.mpr ⟨cleanLine_ne_nil hnames, raw, hraw, rfl⟩
    -- what is removed from a block names applications
    have hremoved : ∀ raw ∈ b.2, namesApplications raw = true →
        isApplications (Config.cleanLine raw) = true := by
      intro raw hraw hnames
      obtain ⟨attr, hattr⟩ := h.exists_attribute hb (hcontent raw hraw hnames)
      exact isApplications_of_namesApplications hnames hattr
    refine ⟨rfl, fun _ => ?_, fun hpeer => ?_⟩
    · exact sameOthers_filter fun raw hraw hq => hremoved raw hraw (by simpa using hq)
    · have hself : (b.2.filter fun line => !namesApplications line) = b.2 := by
        rw [List.filter_eq_self]
        intro raw hraw
        by_contra hq
        have hnames : namesApplications raw = true := by simpa using hq
        have happ := hremoved raw hraw hnames
        rw [h.not_isApplications hb hpeer (hcontent raw hraw hnames)] at happ
        exact absurd happ (by simp)
      rw [hself]
  · have hfront : Config.content (blocks Config.isHeader lines).1 = [] := h.headed
    rw [List.eq_nil_iff_forall_not_mem] at hfront ⊢
    intro line hline
    obtain ⟨hne, raw, hraw, rfl⟩ := Config.mem_content.mp hline
    exact hfront _ (Config.mem_content.mpr ⟨hne, raw, (List.mem_filter.mp hraw).1, rfl⟩)

/-! ## The line that is inserted -/

/-- The section that is open after these lines is an `[Interface]` section. -/
def underInterface (lines : List JString) : Bool :=
  match (lines.filter Config.isHeader).getLast? with
  | some header => Config.isInterfaceHeader header
  | none => false

theorem underInterface_eq {l₁ l₂ : List JString} {header : JString}
    (hheader : Config.isHeader header = true)
    (hl₂ : ∀ line ∈ l₂, Config.isHeader line = false) :
    underInterface (l₁ ++ header :: l₂) = Config.isInterfaceHeader header := by
  have hnone : l₂.filter Config.isHeader = [] := by
    rw [List.filter_eq_nil_iff]
    intro line hline
    simp [hl₂ line hline]
  rw [underInterface, List.filter_append, List.filter_cons_of_pos hheader, hnone,
    List.getLast?_concat]

section Insert

variable {front : List JString} {line : JString} (hline : Config.isHeader line = false)
  (happ : isApplications (Config.cleanLine line) = true)

include hline happ

/-- **Inserted under `[Interface]`**, the line changes nothing but the packages. -/
theorem rewrites_insert (back : List JString) (hunder : underInterface front = true) :
    Config.Rewrites (blocks Config.isHeader (front ++ back)).2
        (blocks Config.isHeader (front ++ line :: back)).2 ∧
      (blocks Config.isHeader (front ++ line :: back)).1 =
        (blocks Config.isHeader (front ++ back)).1 := by
  rcases exists_last_header Config.isHeader front with hnone | ⟨l₁, header, l₂, rfl, hheader, hl₂⟩
  · have hempty : front.filter Config.isHeader = [] := by
      rw [List.filter_eq_nil_iff]
      intro x hx
      simp [hnone x hx]
    rw [underInterface, hempty] at hunder
    exact absurd hunder (by simp)
  · rw [underInterface_eq hheader hl₂] at hunder
    rw [List.append_assoc, List.append_assoc, List.cons_append, List.cons_append,
      blocks_append_header l₁ hheader, blocks_append_header l₁ hheader,
      blocks_append_of_not_header hl₂, blocks_append_of_not_header hl₂, blocks_cons hline]
    refine ⟨List.rel_append (Config.Rewrites.refl _) (.cons ⟨rfl, fun _ => ?_, fun hpeer => ?_⟩
      (Config.Rewrites.refl _)), rfl⟩
    · rw [Interface.SameOthers, Config.content_append, Config.content_append,
        Config.content_cons (ne_nil_of_isApplications happ), List.filter_append,
        List.filter_cons_of_neg (by simp [happ]), List.filter_append]
    · rw [Config.isPeerHeader_of_isInterfaceHeader hunder] at hpeer
      exact absurd hpeer (by simp)

/-- **Inserted anywhere else**, it makes the text unreadable. -/
theorem underInterface_of_reads {back : List JString} {config : Config}
    (h : Config.Reads net (front ++ line :: back) config) : underInterface front = true := by
  have hclean := ne_nil_of_isApplications happ
  rcases exists_last_header Config.isHeader front with hnone | ⟨l₁, header, l₂, rfl, hheader, hl₂⟩
  · have hfront := h.headed
    rw [blocks_append_of_not_header hnone, blocks_cons hline, Config.content_append,
      Config.content_cons hclean] at hfront
    exact absurd hfront (by simp)
  · rw [underInterface_eq hheader hl₂]
    rw [Config.Reads, List.append_assoc, List.cons_append, blocks_append_header l₁ hheader,
      blocks_append_of_not_header hl₂, blocks_cons hline] at h
    have hmem : (header, l₂ ++ line :: (blocks Config.isHeader back).1) ∈
        (blocks Config.isHeader l₁).2 ++ (header, l₂ ++ line :: (blocks Config.isHeader back).1) ::
          (blocks Config.isHeader back).2 := by simp
    rcases h.known _ hmem with hi | hp
    · exact hi
    · have hcontent : Config.cleanLine line ∈
          Config.content (l₂ ++ line :: (blocks Config.isHeader back).1) :=
        Config.mem_content.mpr ⟨hclean, line, by simp, rfl⟩
      rw [h.not_isApplications hmem hp hcontent] at happ
      exact absurd happ (by simp)

end Insert

theorem insertLine_some (line : JString) (lines : List JString) :
    insertLine (some line) lines = (lines.takeWhile fun l => !isPeerHeader l) ++
      line :: lines.dropWhile fun l => !isPeerHeader l := by
  rw [insertLine]
  induction lines with
  | nil => rfl
  | cons l lines ih =>
    cases hl : isPeerHeader l with
    | true => simp [List.findIdx_cons, hl]
    | false =>
      rw [List.takeWhile_cons_of_pos (by simp [hl]), List.dropWhile_cons_of_pos (by simp [hl]),
        List.findIdx_cons, hl, cond_false, List.insertIdx_succ_cons, ih, List.cons_append]

/-! ## The rewritten text -/

/-- The packages named by the lines that are left. -/
def leftover (key : InterfaceKey) (text : JString) : List JString :=
  Config.allNames key (kept (JString.lines text))

/-- **What a text needs for the rewriter and the parser to agree**: the lines that are
left name only chosen packages, and the line that is inserted stands under
`[Interface]`. -/
structure Rewritable (mode : SplitTunnelMode) (excluded included : LinkedHashSet JString)
    (text : JString) : Prop where
  leftExcluded : ∀ name ∈ leftover .excludedApplications text,
    mode = .excludeApps ∧ name ∈ excluded
  leftIncluded : ∀ name ∈ leftover .includedApplications text,
    mode = .includeOnlyApps ∧ name ∈ included
  placed : (chosen mode excluded included).isEmpty = false →
    underInterface ((kept (JString.lines text)).takeWhile fun line => !isPeerHeader line) = true

/-- **The agreement**: a text is accepted, with the peers and settings of `config` and the
chosen packages. -/
def Agrees (net : NetApi) (config : Config) (mode : SplitTunnelMode)
    (excluded included : LinkedHashSet JString) (text : JString) : Prop :=
  ∃ config', Config.parse net text = .ok config' ∧ config'.peers = config.peers ∧
    Interface.SameSettings config.interfaze config'.interfaze ∧
    (∀ name, name ∈ config'.interfaze.excludedApplications ↔
      mode = .excludeApps ∧ name ∈ excluded) ∧
    ∀ name, name ∈ config'.interfaze.includedApplications ↔
      mode = .includeOnlyApps ∧ name ∈ included

/-- What is known of the rewritten lines. -/
structure RewrittenLines (mode : SplitTunnelMode) (excluded included : LinkedHashSet JString)
    (text : JString) (lines : List JString) : Prop where
  oneLine : ∀ line ∈ lines, JString.OneLine line
  excluded : ∀ name, name ∈ Config.allNames .excludedApplications lines ↔
    name ∈ leftover .excludedApplications text ∨ (mode = .excludeApps ∧ name ∈ excluded)
  included : ∀ name, name ∈ Config.allNames .includedApplications lines ↔
    name ∈ leftover .includedApplications text ∨ (mode = .includeOnlyApps ∧ name ∈ included)

section Rewritten

variable {mode : SplitTunnelMode} (hmode : mode ≠ .off) {excluded included : LinkedHashSet JString}
  {text : JString}

theorem oneLine_kept : ∀ line ∈ kept (JString.lines text), JString.OneLine line :=
  fun line hline => JString.oneLine_of_mem_lines line (List.mem_filter.mp hline).1

include hmode

/-- Nothing is chosen. -/
theorem rewrittenLines_of_empty (hempty : (chosen mode excluded included).isEmpty = true) :
    RewrittenLines mode excluded included text (kept (JString.lines text)) := by
  have hnone := LinkedHashSet.isEmpty_iff.mp hempty
  refine ⟨oneLine_kept, fun name => ?_, fun name => ?_⟩
  · refine (or_iff_left ?_).symm
    rintro ⟨rfl, hname⟩
    exact hnone name hname
  · refine (or_iff_left ?_).symm
    rintro ⟨rfl, hname⟩
    exact hnone name hname

omit hmode in
/-- A line is inserted. -/
theorem rewrittenLines_of_inserted {line : JString}
    (hline : Inserted mode excluded included line) {front back : List JString}
    (hsplit : front ++ back = kept (JString.lines text)) :
    RewrittenLines mode excluded included text (front ++ line :: back) := by
  have hnames : ∀ key name, name ∈ Config.allNames key (front ++ line :: back) ↔
      name ∈ leftover key text ∨ name ∈ namesIn key (Config.cleanLine line) := by
    intro key name
    rw [leftover, ← hsplit]
    simp only [Config.allNames, List.flatMap_append, List.flatMap_cons, List.mem_append]
    tauto
  refine ⟨?_, fun name => ?_, fun name => ?_⟩
  · intro l hl
    rcases List.mem_append.mp hl with hl | hl
    · exact oneLine_kept l (hsplit ▸ List.mem_append_left _ hl)
    · rcases List.mem_cons.mp hl with rfl | hl
      · exact hline.oneLine
      · exact oneLine_kept l (hsplit ▸ List.mem_append_right _ hl)
  · rw [hnames, hline.excluded]
  · rw [hnames, hline.included]

omit hmode in
/-- **The packages decide**, once the rewritten lines differ from the text only in the
packages. -/
theorem agrees_iff_of_rewrites {config : Config}
    (hreads : Config.Reads net (JString.lines text) config) {lines : List JString}
    (hlines : RewrittenLines mode excluded included text lines)
    (hrewrites : Config.Rewrites (blocks Config.isHeader (JString.lines text)).2
      (blocks Config.isHeader lines).2)
    (hfront : Config.content (blocks Config.isHeader lines).1 = []) :
    Agrees net config mode excluded included (JString.joinToString (jstr "\n") lines) ↔
      (∀ name ∈ leftover .excludedApplications text, mode = .excludeApps ∧ name ∈ excluded) ∧
        ∀ name ∈ leftover .includedApplications text,
          mode = .includeOnlyApps ∧ name ∈ included := by
  constructor
  · rintro ⟨config', hparse, -, -, hE, hI⟩
    rw [Config.parse_joinToString hlines.oneLine, Config.parseLines_eq_ok_iff] at hparse
    constructor
    · intro name hname
      rw [← hE, hparse.mem_excludedApplications_iff, hlines.excluded]
      exact Or.inl hname
    · intro name hname
      rw [← hI, hparse.mem_includedApplications_iff, hlines.included]
      exact Or.inl hname
  · rintro ⟨hE, hI⟩
    have hexcluded : ∀ name, name ∈ Config.allNames .excludedApplications lines ↔
        mode = .excludeApps ∧ name ∈ excluded := fun name =>
      (hlines.excluded name).trans (or_iff_right_of_imp (hE name))
    have hincluded : ∀ name, name ∈ Config.allNames .includedApplications lines ↔
        mode = .includeOnlyApps ∧ name ∈ included := fun name =>
      (hlines.included name).trans (or_iff_right_of_imp (hI name))
    -- one of the two kinds is not named at all
    have hexclusive : namedBy .includedApplications
          (Config.interfaceLines (blocks Config.isHeader lines).2) = [] ∨
        namedBy .excludedApplications
          (Config.interfaceLines (blocks Config.isHeader lines).2) = [] := by
      simp only [List.eq_nil_iff_forall_not_mem]
      by_cases hmode : mode = .includeOnlyApps
      · refine Or.inr fun name hname => ?_
        have := ((hexcluded name).mp (Config.mem_allNames hname)).1
        exact absurd (hmode.symm.trans this) (by simp)
      · refine Or.inl fun name hname => ?_
        exact hmode ((hincluded name).mp (Config.mem_allNames hname)).1
    obtain ⟨config', hreads'⟩ := hrewrites.exists_reads hreads hfront hexclusive
    have hconfig' : Config.Reads net lines config' := hreads'
    obtain ⟨hpeers, hsettings⟩ := hrewrites.same hreads hreads'
    refine ⟨config', ?_, hpeers, hsettings, fun name => ?_, fun name => ?_⟩
    · rw [Config.parse_joinToString hlines.oneLine, Config.parseLines_eq_ok_iff]
      exact hconfig'
    · rw [hconfig'.mem_excludedApplications_iff, hexcluded]
    · rw [hconfig'.mem_includedApplications_iff, hincluded]

omit hmode in
/-- A line is inserted: its place decides too. -/
theorem agrees_iff_of_inserted {config : Config}
    (hreads : Config.Reads net (JString.lines text) config) {line : JString}
    (hline : Inserted mode excluded included line) {front back : List JString}
    (hsplit : front ++ back = kept (JString.lines text)) :
    Agrees net config mode excluded included
        (JString.joinToString (jstr "\n") (front ++ line :: back)) ↔
      ((∀ name ∈ leftover .excludedApplications text, mode = .excludeApps ∧ name ∈ excluded) ∧
        ∀ name ∈ leftover .includedApplications text,
          mode = .includeOnlyApps ∧ name ∈ included) ∧
      underInterface front = true := by
  obtain ⟨hkept, hfront⟩ := rewrites_kept hreads
  have hlines := rewrittenLines_of_inserted hline hsplit
  by_cases hplaced : underInterface front = true
  · obtain ⟨hinsert, hsame⟩ := rewrites_insert hline.notHeader hline.applications back hplaced
    rw [hsplit] at hinsert hsame
    rw [agrees_iff_of_rewrites hreads hlines (hkept.trans hinsert) (hsame ▸ hfront)]
    exact (and_iff_left hplaced).symm
  · refine iff_of_false (fun hagrees => hplaced ?_) (fun h => hplaced h.2)
    obtain ⟨config', hparse, -⟩ := hagrees
    rw [Config.parse_joinToString hlines.oneLine, Config.parseLines_eq_ok_iff] at hparse
    exact underInterface_of_reads hline.notHeader hline.applications hparse

end Rewritten

/-- **One mode**: the rewritten text agrees exactly when the text is `Rewritable`. -/
theorem agrees_iff_rewritable {text : JString} {config : Config}
    (hparse : Config.parse net text = .ok config) {mode : SplitTunnelMode} (hmode : mode ≠ .off)
    {excluded included : LinkedHashSet JString}
    (hnames : ∀ name ∈ chosen mode excluded included, IsPackageName name) :
    Agrees net config mode excluded included (applySplitTunneling mode excluded included text) ↔
      Rewritable mode excluded included text := by
  have hreads : Config.Reads net (JString.lines text) config := by
    rw [← Config.parseLines_eq_ok_iff, ← Config.parse_eq_parseLines_lines]
    exact hparse
  have htext : applySplitTunneling mode excluded included text =
      JString.joinToString (jstr "\n")
        (insertLine (applicationsLine mode excluded included) (kept (JString.lines text))) := by
    rw [applySplitTunneling, if_neg hmode]
    rfl
  rw [htext, applicationsLine_eq mode hmode]
  cases hempty : (chosen mode excluded included).isEmpty with
  | true =>
    obtain ⟨hkept, hfront⟩ := rewrites_kept hreads
    rw [if_pos rfl, insertLine,
      agrees_iff_of_rewrites hreads (rewrittenLines_of_empty hmode hempty) hkept hfront]
    constructor
    · rintro ⟨hE, hI⟩
      exact ⟨hE, hI, fun h => absurd (hempty.symm.trans h) (by simp)⟩
    · rintro ⟨hE, hI, -⟩
      exact ⟨hE, hI⟩
  | false =>
    have hline := inserted_applicationsText hmode hnames hempty
    rw [if_neg (by simp), insertLine_some,
      agrees_iff_of_inserted hreads hline List.takeWhile_append_dropWhile]
    constructor
    · rintro ⟨⟨hE, hI⟩, hplaced⟩
      exact ⟨hE, hI, fun _ => hplaced⟩
    · rintro ⟨hE, hI, hplaced⟩
      exact ⟨⟨hE, hI⟩, hplaced hempty⟩

/-- **The rewriter and the parser.**  For every text that is accepted and all sets of
package names: with split tunnelling off the text is unchanged; in the other modes the
rewritten text is accepted, with the same peers and settings and exactly the chosen
packages, if and only if the text is `Rewritable`. -/
theorem rewriting_agrees_iff (net : NetApi) (text : JString) (config : Config)
    (hparse : Config.parse net text = .ok config) (excluded included : LinkedHashSet JString)
    (hexcluded : ∀ name ∈ excluded, IsPackageName name)
    (hincluded : ∀ name ∈ included, IsPackageName name) :
    applySplitTunneling .off excluded included text = text ∧
      ∀ mode, mode ≠ .off →
        (Agrees net config mode excluded included
            (applySplitTunneling mode excluded included text) ↔
          Rewritable mode excluded included text) := by
  refine ⟨rfl, fun mode hmode => agrees_iff_rewritable hparse hmode fun name hname => ?_⟩
  cases mode with
  | off => exact absurd rfl hmode
  | excludeApps => exact hexcluded name hname
  | includeOnlyApps => exact hincluded name hname

/-- The packages chosen in the texts below. -/
def chosenPackages : LinkedHashSet JString := .add .empty (jstr "com.b")

theorem isPackageName_of_mem_chosenPackages (name : JString) (h : name ∈ chosenPackages) :
    IsPackageName name := by
  have hname : name = jstr "com.b" := by
    rcases LinkedHashSet.mem_add.mp h with h | h
    · exact absurd h (LinkedHashSet.notMem_empty _)
    · exact h
  have hall : (jstr "com.b").all
      (fun c => c.isWord = true ∨ c = ch '.' ∨ 0x80 ≤ c.toNat) = true := by
    decide
  subst hname
  exact ⟨by decide, fun c hc => of_decide_eq_true (List.all_eq_true.mp hall c hc)⟩

/-- A server's own list in the spelling that is recognised is replaced. -/
theorem rewriting_replaces_server_list :
    Agrees GoBackend.noAddresses GoBackend.excludeConfig .excludeApps chosenPackages .empty
      (applySplitTunneling .excludeApps chosenPackages .empty
        (GoBackend.textWith (jstr "ExcludedApplications = com.browser"))) :=
  ((rewriting_agrees_iff GoBackend.noAddresses _ GoBackend.excludeConfig (by decide +kernel)
      chosenPackages .empty isPackageName_of_mem_chosenPackages
      fun _ h => absurd h (LinkedHashSet.notMem_empty _)).2 .excludeApps (by decide)).mpr
    ⟨by decide +kernel, by decide +kernel, fun _ => by decide +kernel⟩

/-- **A server's own list survives** in a spelling without the blank in front of `=`:
both texts are accepted, and the second still excludes the server's package. -/
theorem server_list_survives :
    let text := GoBackend.textWith (jstr "ExcludedApplications=com.browser")
    let excludes := fun t => (Config.parse GoBackend.noAddresses t).map fun config =>
      config.interfaze.excludedApplications.elems
    excludes text = .ok [jstr "com.browser"] ∧
      excludes (applySplitTunneling .excludeApps chosenPackages .empty text) =
        .ok [jstr "com.browser", jstr "com.b"] := by
  decide +kernel

end VpnRepository
end AioVpn
