import AioVpn.Config.Sections
import AioVpn.Data.ExceptFold

/-!
# The lines that name applications

Two attributes of an `[Interface]` section name packages.  Each of their lines only adds
names to one of two sets, and no other line reads or writes these sets.  So an interface
is made of two independent parts: the other lines decide whether it is accepted and all
of its other settings, and the packages are the ones named, as long as they are not
both included and excluded (`parse_eq_ok_iff`).

A `[Peer]` section has no such line (`Peer.not_isApplications`).
-/

namespace AioVpn

/-- The packages a line names under an attribute key. -/
def namesIn (key : InterfaceKey) (line : JString) : List JString :=
  match Attribute.parse line with
  | some attr => if InterfaceKey.ofKey attr.key = some key then Attribute.split attr.value else []
  | none => []

/-- The line is an attribute that names applications. -/
def isApplications (line : JString) : Bool :=
  match Attribute.parse line with
  | some attr =>
      InterfaceKey.ofKey attr.key = some .excludedApplications ∨
        InterfaceKey.ofKey attr.key = some .includedApplications
  | none => false

theorem ne_nil_of_isApplications {line : JString} (h : isApplications line = true) :
    line ≠ [] := by
  rintro rfl
  exact absurd h (by decide)

/-- The packages named by the lines of a section. -/
def namedBy (key : InterfaceKey) (lines : List JString) : List JString :=
  lines.flatMap (namesIn key)

theorem namesIn_of_not_isApplications {line : JString} (h : isApplications line = false) :
    namesIn .excludedApplications line = [] ∧ namesIn .includedApplications line = [] := by
  unfold isApplications at h
  unfold namesIn
  split at h
  · rw [decide_eq_false_iff_not, not_or] at h
    exact ⟨if_neg h.1, if_neg h.2⟩
  · exact ⟨rfl, rfl⟩

namespace LinkedHashSet

variable {α : Type} [DecidableEq α]

theorem addAll_append (s : LinkedHashSet α) (l m : List α) :
    s.addAll (l ++ m) = (s.addAll l).addAll m := List.foldl_append

end LinkedHashSet

namespace InterfaceBuilder

/-- Change the packages. -/
def mapApplications (f g : LinkedHashSet JString → LinkedHashSet JString) (b : InterfaceBuilder) :
    InterfaceBuilder :=
  { b with
    excludedApplications := f b.excludedApplications
    includedApplications := g b.includedApplications }

/-- Name more packages. -/
def withApplications (excluded included : List JString) : InterfaceBuilder → InterfaceBuilder :=
  mapApplications (·.addAll excluded) (·.addAll included)

end InterfaceBuilder

namespace Interface

open InterfaceBuilder

variable (net : NetApi)

/-! ## The other lines -/

/-- **The other lines** do not see the packages. -/
theorem parseLine_mapApplications (f g : LinkedHashSet JString → LinkedHashSet JString)
    (b : InterfaceBuilder) {line : JString} (hline : isApplications line = false) :
    parseLine net (b.mapApplications f g) line =
      (parseLine net b line).map (mapApplications f g) := by
  unfold parseLine
  unfold isApplications at hline
  split
  · rfl
  · rename_i attr hattr
    rw [hattr] at hline
    split
    · refine ExceptFold.foldlM_comm _ ?_ b
      intro address _ b
      split <;> rfl
    · refine ExceptFold.foldlM_comm _ ?_ b
      intro dnsServer _ b
      split
      · rfl
      · split <;> rfl
    · rename_i hkey
      simp [hkey] at hline
    · rename_i hkey
      simp [hkey] at hline
    · unfold parseListenPort setListenPort
      split
      · split <;> rfl
      · rfl
    · unfold parseMtu setMtu
      split
      · split <;> rfl
      · rfl
    · unfold parsePrivateKey
      split <;> rfl
    · rfl

/-- What the other lines make of the builder. -/
def parseOthers (lines : List JString) : Except BadConfigException InterfaceBuilder :=
  (lines.filter fun line => !isApplications line).foldlM (parseLine net) {}

variable {net}

/-- The other lines name no packages. -/
theorem applications_of_parseOthers {lines : List JString} {b : InterfaceBuilder}
    (h : parseOthers net lines = .ok b) :
    b.excludedApplications = .empty ∧ b.includedApplications = .empty := by
  have hother : ∀ line ∈ lines.filter fun line => !isApplications line,
      isApplications line = false := fun line hline => by simpa using (List.mem_filter.mp hline).2
  have hfix := ExceptFold.foldlM_comm
    (mapApplications (fun _ => LinkedHashSet.empty) fun _ => LinkedHashSet.empty)
    (fun line hline b => parseLine_mapApplications net _ _ b (hother line hline))
    ({} : InterfaceBuilder)
  have hb : b = b.mapApplications (fun _ => .empty) fun _ => .empty := by
    refine Except.ok.inj (h.symm.trans (hfix.trans ?_))
    rw [parseOthers] at h
    rw [h]
    rfl
  rw [hb]
  exact ⟨rfl, rfl⟩

/-! ## All lines -/

theorem parseLine_excluded (b : InterfaceBuilder) {line : JString} {attr : Attribute}
    (hattr : Attribute.parse line = some attr)
    (hkey : InterfaceKey.ofKey attr.key = some .excludedApplications) (E I : List JString) :
    parseLine net (b.withApplications E I) line =
      .ok (b.withApplications (E ++ namesIn .excludedApplications line)
        (I ++ namesIn .includedApplications line)) := by
  simp [parseLine, hattr, hkey, namesIn, parseExcludedApplications, withApplications,
    mapApplications, LinkedHashSet.addAll_append]

theorem parseLine_included (b : InterfaceBuilder) {line : JString} {attr : Attribute}
    (hattr : Attribute.parse line = some attr)
    (hkey : InterfaceKey.ofKey attr.key = some .includedApplications) (E I : List JString) :
    parseLine net (b.withApplications E I) line =
      .ok (b.withApplications (E ++ namesIn .excludedApplications line)
        (I ++ namesIn .includedApplications line)) := by
  simp [parseLine, hattr, hkey, namesIn, parseIncludedApplications, withApplications,
    mapApplications, LinkedHashSet.addAll_append]

/-- **The lines of an interface**, in two independent parts. -/
theorem foldlM_parseLine (net : NetApi) (lines : List JString) (b : InterfaceBuilder)
    (E I : List JString) :
    lines.foldlM (parseLine net) (b.withApplications E I) =
      ((lines.filter fun line => !isApplications line).foldlM (parseLine net) b).map
        (withApplications (E ++ namedBy .excludedApplications lines)
          (I ++ namedBy .includedApplications lines)) := by
  induction lines generalizing b E I with
  | nil => simp [namedBy]; rfl
  | cons line lines ih =>
    have hnamed : ∀ key, namedBy key (line :: lines) = namesIn key line ++ namedBy key lines :=
      fun _ => rfl
    rw [List.foldlM_cons, hnamed, hnamed, ← List.append_assoc, ← List.append_assoc]
    cases happ : isApplications line with
    | true =>
      rw [List.filter_cons_of_neg (by simp [happ])]
      have hstep : parseLine net (b.withApplications E I) line =
          .ok (b.withApplications (E ++ namesIn .excludedApplications line)
            (I ++ namesIn .includedApplications line)) := by
        unfold isApplications at happ
        split at happ
        · rename_i attr hattr
          rcases of_decide_eq_true happ with hkey | hkey
          · exact parseLine_excluded b hattr hkey E I
          · exact parseLine_included b hattr hkey E I
        · exact absurd happ (by simp)
      rw [hstep]
      exact ih b _ _
    | false =>
      obtain ⟨hE, hI⟩ := namesIn_of_not_isApplications happ
      rw [List.filter_cons_of_pos (by simp [happ]), List.foldlM_cons, withApplications,
        parseLine_mapApplications net _ _ b happ, hE, hI, List.append_nil, List.append_nil]
      cases parseLine net b line with
      | error e => rfl
      | ok b' => exact ih b' E I

/-- What the other lines say of an interface. -/
structure Settings (b : InterfaceBuilder) (i : Interface) : Prop where
  addresses : i.addresses = b.addresses
  dnsServers : i.dnsServers = b.dnsServers
  dnsSearchDomains : i.dnsSearchDomains = b.dnsSearchDomains
  privateKey : b.keyPair = some i.privateKey
  listenPort : i.listenPort = b.listenPort
  mtu : i.mtu = b.mtu

theorem settings_withApplications_iff {b : InterfaceBuilder} {E I : List JString}
    {i : Interface} : Settings (b.withApplications E I) i ↔ Settings b i :=
  ⟨fun h => ⟨h.1, h.2, h.3, h.4, h.5, h.6⟩, fun h => ⟨h.1, h.2, h.3, h.4, h.5, h.6⟩⟩

theorem build_eq_ok_iff {b : InterfaceBuilder} {i : Interface} :
    b.build = .ok i ↔ Settings b i ∧ i.excludedApplications = b.excludedApplications ∧
      i.includedApplications = b.includedApplications := by
  rw [build]
  cases hkey : b.keyPair with
  | none =>
    constructor
    · intro h
      exact absurd h (by simp)
    · rintro ⟨hsettings, -⟩
      exact absurd (hsettings.privateKey.symm.trans hkey) (by simp)
  | some key =>
    constructor
    · intro h
      dsimp only at h
      split at h
      · rw [← Except.ok.inj h]
        exact ⟨⟨rfl, rfl, rfl, hkey, rfl, rfl⟩, rfl, rfl⟩
      · exact absurd h (by simp)
    · rintro ⟨hsettings, hexcluded, hincluded⟩
      have hexclusive := i.exclusive
      rw [hexcluded, hincluded] at hexclusive
      obtain rfl := Option.some.inj (hkey.symm.trans hsettings.privateKey)
      dsimp only
      rw [dif_pos hexclusive]
      obtain ⟨addresses, dns, domains, excluded, included, key, port, mtu, hex⟩ := i
      obtain ⟨rfl, rfl, rfl, -, rfl, rfl⟩ := hsettings
      cases hexcluded
      cases hincluded
      rfl

/-- **The declarative reading of an interface**: the other lines are its settings, and
its packages are the ones named. -/
theorem parse_eq_ok_iff {lines : List JString} {i : Interface} :
    parse net lines = .ok i ↔ ∃ b, parseOthers net lines = .ok b ∧ Settings b i ∧
      i.excludedApplications = LinkedHashSet.empty.addAll (namedBy .excludedApplications lines) ∧
        i.includedApplications =
          LinkedHashSet.empty.addAll (namedBy .includedApplications lines) := by
  have hfold := foldlM_parseLine net lines {} [] []
  rw [List.nil_append, List.nil_append, ← parseOthers] at hfold
  have hstart : lines.foldlM (parseLine net) {} =
      lines.foldlM (parseLine net) (withApplications [] [] {}) := rfl
  rw [parse, hstart, hfold, ExceptFold.bind_eq_ok_iff]
  constructor
  · rintro ⟨b', hb', hbuild⟩
    cases hothers : parseOthers net lines with
    | error e => exact absurd (hothers ▸ hb') (by simp [Except.map])
    | ok b =>
      rw [hothers] at hb'
      obtain rfl := Except.ok.inj hb'
      obtain ⟨hexcluded, hincluded⟩ := applications_of_parseOthers hothers
      obtain ⟨hsettings, hE, hI⟩ := build_eq_ok_iff.mp hbuild
      refine ⟨b, rfl, settings_withApplications_iff.mp hsettings, ?_, ?_⟩
      · rw [hE, ← hexcluded]
        rfl
      · rw [hI, ← hincluded]
        rfl
  · rintro ⟨b, hothers, hsettings, hE, hI⟩
    obtain ⟨hexcluded, hincluded⟩ := applications_of_parseOthers hothers
    refine ⟨b.withApplications (namedBy .excludedApplications lines)
      (namedBy .includedApplications lines), by rw [hothers]; rfl,
      build_eq_ok_iff.mpr ⟨settings_withApplications_iff.mpr hsettings, ?_, ?_⟩⟩
    · rw [hE, ← hexcluded]
      rfl
    · rw [hI, ← hincluded]
      rfl

theorem mem_excludedApplications {lines : List JString} {i : Interface}
    (h : parse net lines = .ok i) (name : JString) :
    name ∈ i.excludedApplications ↔ name ∈ namedBy .excludedApplications lines := by
  obtain ⟨b, -, -, hE, -⟩ := parse_eq_ok_iff.mp h
  rw [hE]
  simp

theorem mem_includedApplications {lines : List JString} {i : Interface}
    (h : parse net lines = .ok i) (name : JString) :
    name ∈ i.includedApplications ↔ name ∈ namedBy .includedApplications lines := by
  obtain ⟨b, -, -, -, hI⟩ := parse_eq_ok_iff.mp h
  rw [hI]
  simp

/-- Every line of an interface is an attribute. -/
theorem exists_attribute {lines : List JString} {i : Interface} (h : parse net lines = .ok i)
    {line : JString} (hline : line ∈ lines) : ∃ attr, Attribute.parse line = some attr := by
  obtain ⟨b, hfold, -⟩ := ExceptFold.bind_eq_ok_iff.mp h
  obtain ⟨b₁, b₂, hstep⟩ := ExceptFold.exists_of_foldlM_eq_ok hfold hline
  rw [parseLine] at hstep
  cases hattr : Attribute.parse line with
  | none => simp [hattr] at hstep
  | some attr => exact ⟨attr, rfl⟩

/-! ## Other packages -/

/-- The same settings, packages apart. -/
structure SameSettings (i j : Interface) : Prop where
  addresses : j.addresses = i.addresses
  dnsServers : j.dnsServers = i.dnsServers
  dnsSearchDomains : j.dnsSearchDomains = i.dnsSearchDomains
  privateKey : j.privateKey = i.privateKey
  listenPort : j.listenPort = i.listenPort
  mtu : j.mtu = i.mtu

/-- Lines that differ only in the packages they name. -/
def SameOthers (lines lines' : List JString) : Prop :=
  (lines'.filter fun line => !isApplications line) = lines.filter fun line => !isApplications line

theorem sameSettings {lines lines' : List JString} (hsame : SameOthers lines lines')
    {i j : Interface} (hi : parse net lines = .ok i) (hj : parse net lines' = .ok j) :
    SameSettings i j := by
  obtain ⟨b, hb, hsi, -⟩ := parse_eq_ok_iff.mp hi
  obtain ⟨b', hb', hsj, -⟩ := parse_eq_ok_iff.mp hj
  rw [parseOthers, hsame, ← parseOthers, hb] at hb'
  obtain rfl := Except.ok.inj hb'
  exact ⟨hsj.1.trans hsi.1.symm, hsj.2.trans hsi.2.symm, hsj.3.trans hsi.3.symm,
    Option.some.inj (hsj.4.symm.trans hsi.4), hsj.5.trans hsi.5.symm, hsj.6.trans hsi.6.symm⟩

/-- Such lines are accepted unless they both include and exclude packages. -/
theorem exists_parse_eq_ok {lines lines' : List JString} (hsame : SameOthers lines lines')
    {i : Interface} (hi : parse net lines = .ok i)
    (hexclusive : namedBy .includedApplications lines' = [] ∨
      namedBy .excludedApplications lines' = []) : ∃ j, parse net lines' = .ok j := by
  obtain ⟨b, hb, hs, -⟩ := parse_eq_ok_iff.mp hi
  have hempty : ∀ l : List JString, l = [] →
      ((LinkedHashSet.empty : LinkedHashSet JString).addAll l).isEmpty = true := by
    rintro _ rfl
    rfl
  refine ⟨{ i with
    excludedApplications := LinkedHashSet.empty.addAll (namedBy .excludedApplications lines')
    includedApplications := LinkedHashSet.empty.addAll (namedBy .includedApplications lines')
    exclusive := hexclusive.imp (hempty _) (hempty _) }, parse_eq_ok_iff.mpr ⟨b, ?_, ?_, rfl, rfl⟩⟩
  · rw [parseOthers, hsame]
    exact hb
  · exact ⟨hs.1, hs.2, hs.3, hs.4, hs.5, hs.6⟩

end Interface

/-! ## Peers -/

theorem InterfaceKey.ofKey_eq_excluded_iff {key : JString} :
    InterfaceKey.ofKey key = some .excludedApplications ↔
      JString.toLowerCase key = jstr "excludedapplications" := by
  constructor
  · intro h
    unfold InterfaceKey.ofKey at h
    dsimp only at h
    split_ifs at h with h₁ h₂ h₃ <;> first | exact h₃ | simp at h
  · intro h
    unfold InterfaceKey.ofKey
    rw [h]
    decide

theorem InterfaceKey.ofKey_eq_included_iff {key : JString} :
    InterfaceKey.ofKey key = some .includedApplications ↔
      JString.toLowerCase key = jstr "includedapplications" := by
  constructor
  · intro h
    unfold InterfaceKey.ofKey at h
    dsimp only at h
    split_ifs at h with h₁ h₂ h₃ h₄ <;> first | exact h₄ | simp at h
  · intro h
    unfold InterfaceKey.ofKey
    rw [h]
    decide

namespace Peer

variable {net : NetApi}

/-- Every line of a peer is an attribute. -/
theorem exists_attribute {lines : List JString} {p : Peer} (h : parse net lines = .ok p)
    {line : JString} (hline : line ∈ lines) : ∃ attr, Attribute.parse line = some attr := by
  obtain ⟨b, hfold, -⟩ := ExceptFold.bind_eq_ok_iff.mp h
  obtain ⟨b₁, b₂, hstep⟩ := ExceptFold.exists_of_foldlM_eq_ok hfold hline
  rw [parseLine] at hstep
  cases hattr : Attribute.parse line with
  | none => simp [hattr] at hstep
  | some attr => exact ⟨attr, rfl⟩

/-- **A peer names no applications.** -/
theorem not_isApplications {lines : List JString} {p : Peer} (h : parse net lines = .ok p)
    {line : JString} (hline : line ∈ lines) : isApplications line = false := by
  obtain ⟨b, hfold, -⟩ := ExceptFold.bind_eq_ok_iff.mp h
  obtain ⟨b₁, b₂, hstep⟩ := ExceptFold.exists_of_foldlM_eq_ok hfold hline
  unfold isApplications
  unfold parseLine at hstep
  split at hstep
  · exact absurd hstep (by simp)
  · rename_i attr hattr
    rw [hattr, decide_eq_false_iff_not, InterfaceKey.ofKey_eq_excluded_iff,
      InterfaceKey.ofKey_eq_included_iff]
    dsimp only at hstep
    rintro (hkey | hkey)
    · rw [hkey] at hstep
      iterate 5 rw [if_neg (by decide)] at hstep
      exact absurd hstep (by simp)
    · rw [hkey] at hstep
      iterate 5 rw [if_neg (by decide)] at hstep
      exact absurd hstep (by simp)

end Peer
end AioVpn
