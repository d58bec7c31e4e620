import AioVpn.Repo.SplitTunnelParse
import AioVpn.Settings.SplitTunnelingActivity

/-!
# Excluded packages that are not installed

The set of excluded packages outlives the packages.  The screen lists only apps that are
installed when it is opened, so a package that was excluded and is uninstalled afterwards
has no row any more, and nothing removes it from the set.  The next connection attempt puts
it into the configuration text, the parser reads it, and `addDisallowedApplication` throws
`NameNotFoundException` out of `setStateInternal`; only the app's own package is looked up
inside a `try`.

## Histories

A `Phone` has a list of installed packages, the settings and the screen.  Its events are the
opening of the screen, a click on a row (a choice made alone, as `toggleAppExclusion` makes
it), and the installation or removal of any package.  A connection attempt with the text
from the server can be made at any time.

`excluded_packages_never_abort` says what decides: in every state of every history the
attempts fail for the sake of the excluded set if and only if a package of the set is not
installed, and this never happens in the histories in which no package is uninstalled while
it is excluded and no row of an uninstalled app is clicked.
-/

namespace AioVpn

open Coroutine

/-! ## The device's packages in a bring-up -/

namespace GoBackend

variable {L : Type} {dev : DeviceEnv} {packageName : JString} {i : Interface}

/-- `NameNotFoundException`. -/
def Missing : Exn → Prop
  | .nameNotFound _ => True
  | _ => False

/-- Disallowing packages one of which is not installed. -/
theorem foldlM_addDisallowedApplication_missing {packages : List JString} {p : JString}
    (hp : p ∈ packages) (hinst : dev.installed p = false) {b : VpnBuilder}
    (hb : b.allowedApplications = []) :
    ∃ q, packages.foldlM (VpnBuilder.addDisallowedApplication dev) b =
      .error (.nameNotFound q) := by
  induction packages generalizing b with
  | nil => exact absurd hp (by simp)
  | cons q packages ih =>
    rw [List.foldlM_cons]
    by_cases hq : dev.installed q = false
    · have hcall : b.addDisallowedApplication dev q = .error (.nameNotFound q) := by
        simp [VpnBuilder.addDisallowedApplication, hb, hq]
      rw [hcall]
      exact ⟨q, rfl⟩
    · have hcall : b.addDisallowedApplication dev q =
          .ok { b with disallowedApplications := b.disallowedApplications ++ [q] } := by
        simp [VpnBuilder.addDisallowedApplication, hb, hq]
      rw [hcall]
      rcases List.mem_cons.mp hp with rfl | hp
      · exact absurd hinst hq
      · exact ih hp hb

/-- An excluded package that is not installed makes the filters fail. -/
theorem applyFilters_missing (dev : DeviceEnv) (packageName : JString) {p : JString}
    (hp : p ∈ i.excludedApplications) (hinst : dev.installed p = false) (session : JString) :
    ∃ q, applyFilters dev packageName i { session := session } = .error (.nameNotFound q) := by
  obtain ⟨q, hq⟩ := foldlM_addDisallowedApplication_missing (b := { session := session }) hp hinst
    rfl
  refine ⟨q, ?_⟩
  rw [applyFilters, hq]
  rfl

/-- Without included packages nothing else does. -/
theorem applyFilters_installed (packageName : JString)
    (hempty : i.includedApplications.isEmpty = true)
    (hinst : ∀ p ∈ i.excludedApplications, dev.installed p = true) (session : JString) :
    ∃ b, applyFilters dev packageName i { session := session } = .ok b := by
  have hexcluded : i.excludedApplications.elems.foldlM (VpnBuilder.addDisallowedApplication dev)
      { session := session } = .ok { session := session
                                     disallowedApplications := i.excludedApplications.elems } :=
    foldlM_addDisallowedApplication hinst rfl
  by_cases hown : dev.installed packageName = true
  · exact ⟨_, applyFilters_of_included_empty hempty hinst hown session⟩
  · -- the absence of the app itself is only logged
    simp only [applyFilters, hexcluded, LinkedHashSet.elems_eq_nil hempty, List.foldlM_nil]
    simp [VpnBuilder.addDisallowedApplication, hown, bind, Except.bind, pure, Except.pure]

/-- A call that the builder accepts or refuses because of its argument. -/
theorem not_missing_of_ite {c : Prop} [Decidable c] {b : VpnBuilder} {e : Exn}
    (h : (if c then Except.ok b else Except.error .illegalArgument) = .error e) :
    ¬ Missing e := by
  split at h
  · exact absurd h (by simp)
  · rw [← Except.error.inj h]
    exact not_false

theorem setMtu_not_missing {b : VpnBuilder} {mtu : ℤ} {e : Exn} (h : b.setMtu mtu = .error e) :
    ¬ Missing e := by
  rw [VpnBuilder.setMtu, ← ite_not] at h
  exact not_missing_of_ite h

/-- The calls after the filters do not look at packages. -/
theorem configureBuilder_not_missing {tunnel : Tunnel} {config : Config} {b : VpnBuilder}
    (hfilters : applyFilters dev packageName config.interfaze { session := tunnel.name } = .ok b)
    {e : Exn} (h : configureBuilder dev packageName tunnel config = .error e) : ¬ Missing e := by
  unfold configureBuilder at h
  rcases ExceptFold.error_of_bind_eq_error h with h | ⟨b₀, -, h⟩
  · exact absurd (h.symm.trans hfilters) (by simp)
  rcases ExceptFold.error_of_bind_eq_error h with h | ⟨b₁, -, h⟩
  · exact ExceptFold.foldlM_error _ (fun _ _ _ h => not_missing_of_ite h) h
  rcases ExceptFold.error_of_bind_eq_error h with h | ⟨b₂, -, h⟩
  · exact ExceptFold.foldlM_error _ (fun _ _ _ h => not_missing_of_ite h) h
  rcases ExceptFold.error_of_bind_eq_error h with h | ⟨b₃, -, h⟩
  · exact ExceptFold.foldlM_error _ (fun _ _ _ h => not_missing_of_ite h) h
  rcases ExceptFold.error_of_bind_eq_error h with h | ⟨b₄, -, h⟩
  · exact setMtu_not_missing h
  · exact setMtu_not_missing h

theorem dnsRetry_not_missing {net : NetApi} {env : DnsEnv} {serial : ℕ} {peers : List Peer}
    (passes : ℕ) (r : Resolver) {e : Exn}
    (h : (Endpoints.dnsRetry net env serial peers passes r).1 = .error e) : ¬ Missing e := by
  induction passes generalizing r with
  | zero => exact absurd h (by simp [Endpoints.dnsRetry])
  | succ passes ih =>
    rw [Endpoints.dnsRetry] at h
    split at h
    · exact absurd h (by simp)
    · split at h
      · rw [← Except.error.inj h]
        exact not_false
      · exact ih _ h

theorem startVpnService_not_missing {env : BringUpEnv} {e : Exn}
    (h : startVpnService env = .error e) : ¬ Missing e := by
  unfold startVpnService at h
  split at h
  · exact absurd h (by simp)
  · rw [← Except.error.inj h]
    exact not_false
  · split at h
    · split at h
      · exact absurd h (by simp)
      · rw [← Except.error.inj h]
        exact not_false
    · rw [← Except.error.inj h]
      exact not_false

theorem acquireService_not_missing {env : BringUpEnv} {s : GoState L} {e : Exn}
    (h : (acquireService env s).1 = .error e) : ¬ Missing e := by
  unfold acquireService at h
  split at h
  · exact absurd h (by simp)
  · split at h
    · rename_i hstarted
      rw [← Except.error.inj h]
      exact startVpnService_not_missing hstarted
    · split at h
      · exact absurd h (by simp)
      · rw [← Except.error.inj h]
        exact not_false

theorem arrange_not_missing {net : NetApi} {env : BringUpEnv} {tunnel : Tunnel}
    {config : ConfigRef} {b : VpnBuilder}
    (hfilters : applyFilters env.device packageName config.config.interfaze
      { session := tunnel.name } = .ok b) {s : GoState L} {e : Exn}
    (h : (arrange net packageName env tunnel config s).1 = .error e) : ¬ Missing e := by
  unfold arrange at h
  split at h
  · rename_i hdns
    rw [← Except.error.inj h]
    exact dnsRetry_not_missing _ _ (congrArg Prod.fst hdns)
  · dsimp only at h
    split at h
    · rename_i hbuilder
      rw [← Except.error.inj h]
      exact configureBuilder_not_missing hfilters hbuilder
    · exact absurd h (by simp)

theorem activate_not_missing {notify : Tunnel → TunnelState → L → L} {env : BringUpEnv}
    {tunnel : Tunnel} {config : ConfigRef} {builder : VpnBuilder} {goConfig : JString}
    {s : GoState L} {e : Exn}
    (h : (activate notify env tunnel config builder goConfig s).1 = .error e) : ¬ Missing e := by
  unfold activate at h
  split at h
  · rw [← Except.error.inj h]
    exact not_false
  · rw [← Except.error.inj h]
    exact not_false
  · dsimp only at h
    split at h
    · rw [← Except.error.inj h]
      exact not_false
    · exact absurd h (by simp)

/-- **A bring-up whose filters are accepted** does not fail because of a package. -/
theorem setStateInternalUp_not_missing {net : NetApi} {notify : Tunnel → TunnelState → L → L}
    {env : BringUpEnv} {tunnel : Tunnel} {config : ConfigRef} {b : VpnBuilder}
    (hfilters : applyFilters env.device packageName config.config.interfaze
      { session := tunnel.name } = .ok b) (s : GoState L) {e : Exn}
    (h : (setStateInternalUp net packageName notify env tunnel (some config) s).1 = .error e) :
    ¬ Missing e := by
  unfold setStateInternalUp at h
  dsimp only at h
  split at h
  · rw [← Except.error.inj h]
    exact not_false
  · split at h
    · rename_i hacquire
      rw [← Except.error.inj h]
      exact acquireService_not_missing (congrArg Prod.fst hacquire)
    · split at h
      · exact absurd h (by simp)
      · split at h
        · rename_i harrange
          rw [← Except.error.inj h]
          exact arrange_not_missing hfilters (congrArg Prod.fst harrange)
        · exact activate_not_missing h

/-- **A bring-up whose filters are refused**, on a backend that has not run and for a
configuration without peers, fails as the filters do. -/
theorem setStateInternalUp_of_filters (net : NetApi) (notify : Tunnel → TunnelState → L → L)
    (tunnel : Tunnel) (config : ConfigRef) (hpeers : config.config.peers = []) (l : L) {e : Exn}
    (hfilters : applyFilters dev packageName config.config.interfaze { session := tunnel.name } =
      .error e) :
    (setStateInternalUp net packageName notify { device := dev } tunnel (some config)
      { listeners := l }).1 = .error e := by
  have hbuilder : configureBuilder dev packageName tunnel config.config = .error e := by
    rw [configureBuilder, hfilters]
    rfl
  have hdns : ∀ env r, Endpoints.dnsRetry net env config.serial config.config.peers
      Endpoints.dnsResolutionRetries r = (.ok (), r) := by
    intro env r
    rw [hpeers]
    rfl
  simp [setStateInternalUp, acquireService, startVpnService, setOwner, arrange, hdns, hbuilder]

end GoBackend

/-! ## The rewritten lines -/

namespace VpnRepository

theorem leftover_eq_nil {key : InterfaceKey} {text : JString}
    (h : Config.allNames key (JString.lines text) = []) : leftover key text = [] := by
  rw [List.eq_nil_iff_forall_not_mem] at h ⊢
  intro name hname
  obtain ⟨line, hline, hname⟩ := List.mem_flatMap.mp hname
  exact h name (List.mem_flatMap.mpr ⟨line, (List.mem_filter.mp hline).1, hname⟩)

/-- The rewritten text, line by line. -/
theorem exists_rewrittenLines (mode : SplitTunnelMode) (hmode : mode ≠ .off)
    (excluded included : LinkedHashSet JString) (text : JString)
    (hnames : ∀ name ∈ chosen mode excluded included, IsPackageName name) :
    ∃ lines, applySplitTunneling mode excluded included text =
        JString.joinToString (jstr "\n") lines ∧
      RewrittenLines mode excluded included text lines := by
  refine ⟨insertLine (applicationsLine mode excluded included) (kept (JString.lines text)), ?_, ?_⟩
  · rw [applySplitTunneling, if_neg hmode]
    rfl
  · rw [applicationsLine_eq mode hmode]
    cases hempty : (chosen mode excluded included).isEmpty with
    | true =>
      rw [if_pos rfl]
      exact rewrittenLines_of_empty hmode hempty
    | false =>
      rw [if_neg (by simp), insertLine_some]
      exact rewrittenLines_of_inserted (inserted_applicationsText hmode hnames hempty)
        List.takeWhile_append_dropWhile

end VpnRepository

/-! ## The phone -/

/-- A package, by its name. -/
abbrev Package := {name : JString // IsPackageName name}

namespace SplitTunnelingActivity

/-- What the package manager says of an app that can be launched: `ApplicationInfo`. -/
structure ApplicationInfo where
  packageName : Package
  label : JString
  enabled : Bool

/-- Kotlin's `distinctBy`: the first element for each key. -/
def distinctBy {α β : Type} [DecidableEq β] (key : α → β) (l : List α) : List α :=
  l.foldl (fun seen a => if key a ∈ seen.map key then seen else seen ++ [a]) []

/-- `loadApps`.  The rows keep no label, so the apps are sorted before the rows are made. -/
def loadApps (packageName : JString) (settings : SettingsStore)
    (resolved : List ApplicationInfo) : List AppInfo :=
  let mode := settings.splitTunnelModeFlow
  let excluded := settings.excludedAppsFlow
  let apps := (distinctBy ApplicationInfo.packageName resolved).filter fun app =>
    app.enabled && app.packageName.1 ≠ packageName
  let sorted := apps.insertionSort fun a b =>
    VpnRepository.compareLe (JString.toLowerCase a.label) (JString.toLowerCase b.label)
  sorted.map fun app =>
    { packageName := app.packageName.1
      isExcluded := mode = .excludeApps && app.packageName.1 ∈ excluded }

/-- A phone with the app on it. -/
structure Phone where
  installed : List Package := []
  screen : ScreenState := {}

namespace Phone

/-- A package of this name is installed. -/
def installs (s : Phone) (name : JString) : Bool :=
  s.installed.any fun package => package.1 = name

theorem installs_iff {s : Phone} {name : JString} :
    s.installs name = true ↔ ∃ package ∈ s.installed, package.1 = name := by
  simp only [installs, List.any_eq_true, decide_eq_true_eq]

/-- What can happen to a phone. -/
inductive Event where
  /-- The screen is opened; the package manager finds these apps. -/
  | loadApps (resolved : List ApplicationInfo)
  | click (position : ℕ)
  | install (package : Package)
  | uninstall (package : Package)

/-- A choice made alone. -/
def toggle (t : Toggle) (s : ScreenState) : ScreenState :=
  ((toggleAppExclusion t).runAlone perform (fun _ => ()) s).2

/-- The phone after an event, if it can happen: the package manager finds only apps that are
installed, and a click needs a row. -/
def next (packageName : JString) (s : Phone) : Event → Option Phone
  | .loadApps resolved =>
      if resolved.all fun app => app.packageName ∈ s.installed then
        some { s with
          screen := { s.screen with list := loadApps packageName s.screen.settings resolved } }
      else none
  | .click position =>
      (click position s.screen).map fun (screen, t) =>
        { s with screen := t.elim screen fun t => toggle t screen }
  | .install package => some { s with installed := package :: s.installed }
  | .uninstall package => some { s with installed := s.installed.filter fun p => p ≠ package }

/-- The states of the histories whose events meet a condition. -/
inductive History (packageName : JString) (ok : Phone → Event → Prop) : Phone → Prop where
  | fresh (installed : List Package) : History packageName ok { installed := installed }
  | event {s s' : Phone} {e : Event} (h : History packageName ok s) (hok : ok s e)
      (hnext : s.next packageName e = some s') : History packageName ok s'

/-- The phone after some events, if they can happen and meet the condition. -/
def run (packageName : JString) (ok : Phone → Event → Bool) (events : List Event) (s : Phone) :
    Option Phone :=
  events.foldlM (fun s e => if ok s e then s.next packageName e else none) s

theorem History.run {packageName : JString} {ok : Phone → Event → Bool} {events : List Event}
    {s s' : Phone} (h : History packageName (fun s e => ok s e = true) s)
    (hrun : Phone.run packageName ok events s = some s') :
    History packageName (fun s e => ok s e = true) s' := by
  induction events generalizing s with
  | nil => exact Option.some.inj hrun ▸ h
  | cons e events ih =>
    rw [Phone.run, List.foldlM_cons] at hrun
    obtain ⟨s₁, hs₁, hrest⟩ := Option.bind_eq_some_iff.mp hrun
    split at hs₁
    · rename_i hok
      exact ih (.event h hok hs₁) hrest
    · exact absurd hs₁ (by simp)

/-- A package is uninstalled only while it is not excluded, and a row is clicked only while
its app is installed. -/
def careful (s : Phone) : Event → Bool
  | .uninstall package => package.1 ∉ s.screen.settings.excludedAppsFlow
  | .click position => s.screen.list[position]?.all fun row => s.installs row.packageName
  | _ => true

/-! ## Connection attempts -/

/-- A text names no applications. -/
def NamesNoApplications (text : JString) : Prop :=
  Config.allNames .excludedApplications (JString.lines text) = [] ∧
    Config.allNames .includedApplications (JString.lines text) = []

/-- The text a connection attempt parses. -/
def rewritten (settings : SettingsStore) (text : JString) : JString :=
  VpnRepository.applySplitTunneling settings.splitTunnelModeFlow settings.excludedAppsFlow
    settings.includedAppsFlow text

/-- **No attempt fails because of the excluded set**: on this phone, whatever the text from
the server, as long as it names no applications itself, whatever state the backend is in and
whatever else happens during the bring-up, `setStateInternal` does not throw
`NameNotFoundException`. -/
def Connectable (packageName : JString) (s : Phone) : Prop :=
  ∀ (net : NetApi) (L : Type) (notify : Tunnel → TunnelState → L → L) (env : BringUpEnv)
    (tunnel : Tunnel) (text : JString) (config : ConfigRef) (g : GoState L) (e : Exn),
    NamesNoApplications text → env.device.installed = s.installs →
    Config.parse net (rewritten s.screen.settings text) = .ok config.config →
    (GoBackend.setStateInternalUp net packageName notify env tunnel (some config) g).1 =
      .error e → ¬ GoBackend.Missing e

/-! ## What holds in every history -/

/-- The settings in every history. -/
structure Settled (s : Phone) : Prop where
  agreeing : Agreeing s.screen.settings
  rows : ∀ row ∈ s.screen.list, IsPackageName row.packageName
  excluded : ∀ p ∈ s.screen.settings.excludedAppsFlow, IsPackageName p

theorem mem_of_mem_distinctBy {α β : Type} [DecidableEq β] {key : α → β} {l : List α} {a : α}
    (h : a ∈ distinctBy key l) : a ∈ l := by
  have hfold : ∀ (l seen : List α), a ∈ l.foldl
      (fun seen a => if key a ∈ seen.map key then seen else seen ++ [a]) seen →
      a ∈ seen ∨ a ∈ l := by
    intro l
    induction l with
    | nil => exact fun seen h => Or.inl h
    | cons b l ih =>
      intro seen h
      rcases ih _ h with h | h
      · dsimp only at h
        split at h
        · exact Or.inl h
        · rcases List.mem_append.mp h with h | h
          · exact Or.inl h
          · obtain rfl := List.mem_singleton.mp h
            exact Or.inr List.mem_cons_self
      · exact Or.inr (List.mem_cons_of_mem _ h)
  rcases hfold l [] h with h | h
  · exact absurd h (by simp)
  · exact h

/-- A row is the row of an app that was found. -/
theorem exists_of_mem_loadApps {packageName : JString} {settings : SettingsStore}
    {resolved : List ApplicationInfo} {row : AppInfo}
    (h : row ∈ loadApps packageName settings resolved) :
    ∃ app ∈ resolved, row.packageName = app.packageName.1 := by
  obtain ⟨app, happ, rfl⟩ := List.mem_map.mp h
  rw [(List.perm_insertionSort _ _).mem_iff] at happ
  exact ⟨app, mem_of_mem_distinctBy (List.mem_filter.mp happ).1, rfl⟩

/-- The settings after a choice. -/
def chosenSettings (t : Toggle) (settings : SettingsStore) : SettingsStore :=
  let current := t.apply settings.excludedAppsFlow
  (settings.setExcludedApps current).setSplitTunnelMode (modeFor current)

theorem agreeing_chosenSettings (t : Toggle) (settings : SettingsStore) :
    Agreeing (chosenSettings t settings) :=
  SettingsStore.splitTunnelModeFlow_setSplitTunnelMode _ _

theorem mem_chosenSettings {t : Toggle} {settings : SettingsStore} {p : JString}
    (h : p ∈ (chosenSettings t settings).excludedAppsFlow) :
    p ∈ settings.excludedAppsFlow ∨ p = t.packageName := by
  have happly : p ∈ t.apply settings.excludedAppsFlow := h
  unfold Toggle.apply at happly
  split at happly
  · exact LinkedHashSet.mem_add.mp happly
  · exact Or.inl (LinkedHashSet.mem_remove.mp happly).1

/-- What a click does. -/
theorem next_click {packageName : JString} {s s' : Phone} {position : ℕ}
    (h : s.next packageName (.click position) = some s') :
    ∃ row, s.screen.list[position]? = some row ∧ s'.installed = s.installed ∧
      s'.screen.list = s.screen.list.set position { row with isExcluded := !row.isExcluded } ∧
      s'.screen.settings =
        chosenSettings ⟨row.packageName, !row.isExcluded⟩ s.screen.settings := by
  obtain ⟨⟨screen, t⟩, hclick, rfl⟩ := Option.map_eq_some_iff.mp h
  obtain ⟨row, hrow, hpair⟩ := Option.map_eq_some_iff.mp hclick
  obtain ⟨rfl, rfl⟩ := Prod.mk.inj hpair
  exact ⟨row, hrow, rfl, rfl, rfl⟩

/-- What opening the screen does. -/
theorem next_loadApps {packageName : JString} {s s' : Phone} {resolved : List ApplicationInfo}
    (h : s.next packageName (.loadApps resolved) = some s') :
    s'.installed = s.installed ∧ s'.screen.settings = s.screen.settings ∧
      s'.screen.list = loadApps packageName s.screen.settings resolved := by
  simp only [Phone.next] at h
  split at h
  · obtain rfl := Option.some.inj h
    exact ⟨rfl, rfl, rfl⟩
  · exact absurd h (by simp)

/-- **One event** keeps the settings in order. -/
theorem Settled.next {packageName : JString} {s s' : Phone} {e : Event} (hs : Settled s)
    (h : s.next packageName e = some s') : Settled s' := by
  cases e with
  | loadApps resolved =>
    obtain ⟨-, hsettings, hlist⟩ := next_loadApps h
    refine ⟨hsettings ▸ hs.agreeing, fun row hrow => ?_, hsettings ▸ hs.excluded⟩
    rw [hlist] at hrow
    obtain ⟨app, -, hname⟩ := exists_of_mem_loadApps hrow
    rw [hname]
    exact app.packageName.2
  | click position =>
    obtain ⟨row, hrow, -, hlist, hsettings⟩ := next_click h
    have hname : IsPackageName row.packageName := hs.rows row (List.mem_of_getElem? hrow)
    refine ⟨?_, fun r hr => ?_, fun p hp => ?_⟩
    · rw [hsettings]
      exact agreeing_chosenSettings _ _
    · rw [hlist] at hr
      rcases List.mem_or_eq_of_mem_set hr with hr | rfl
      · exact hs.rows r hr
      · exact hname
    · rw [hsettings] at hp
      rcases mem_chosenSettings hp with hp | rfl
      · exact hs.excluded p hp
      · exact hname
  | install package =>
    obtain rfl := Option.some.inj h
    exact ⟨hs.agreeing, hs.rows, hs.excluded⟩
  | uninstall package =>
    obtain rfl := Option.some.inj h
    exact ⟨hs.agreeing, hs.rows, hs.excluded⟩

theorem History.settled {packageName : JString} {ok : Phone → Event → Prop} {s : Phone}
    (h : History packageName ok s) : Settled s := by
  induction h with
  | fresh installed => exact ⟨rfl, by simp, fun p hp => absurd hp (LinkedHashSet.notMem_empty p)⟩
  | event _ _ hnext ih => exact ih.next hnext

/-- Every excluded package is installed. -/
def AllInstalled (s : Phone) : Prop :=
  ∀ p ∈ s.screen.settings.excludedAppsFlow, s.installs p = true

/-- **One careful event** keeps the excluded packages installed. -/
theorem AllInstalled.next {packageName : JString} {s s' : Phone} {e : Event} (hs : AllInstalled s)
    (hok : careful s e = true) (h : s.next packageName e = some s') : AllInstalled s' := by
  cases e with
  | loadApps resolved =>
    obtain ⟨hinstalled, hsettings, -⟩ := next_loadApps h
    intro p hp
    rw [hsettings] at hp
    rw [installs, hinstalled]
    exact hs p hp
  | click position =>
    obtain ⟨row, hrow, hinstalled, -, hsettings⟩ := next_click h
    have hclicked : s.installs row.packageName = true := by simpa [careful, hrow] using hok
    intro p hp
    rw [hsettings] at hp
    rw [installs, hinstalled]
    rcases mem_chosenSettings hp with hp | rfl
    · exact hs p hp
    · exact hclicked
  | install package =>
    obtain rfl := Option.some.inj h
    intro p hp
    obtain ⟨q, hq, hname⟩ := installs_iff.mp (hs p hp)
    exact installs_iff.mpr ⟨q, List.mem_cons_of_mem _ hq, hname⟩
  | uninstall package =>
    obtain rfl := Option.some.inj h
    intro p hp
    have hkept : p ≠ package.1 := by
      rintro rfl
      exact (of_decide_eq_true hok) hp
    obtain ⟨q, hq, rfl⟩ := installs_iff.mp (hs p hp)
    refine installs_iff.mpr ⟨q, List.mem_filter.mpr ⟨hq, ?_⟩, rfl⟩
    simpa [Subtype.ext_iff] using hkept

theorem History.allInstalled {packageName : JString} {s : Phone}
    (h : History packageName (fun s e => careful s e = true) s) : AllInstalled s := by
  induction h with
  | fresh installed => exact fun p hp => absurd hp (LinkedHashSet.notMem_empty p)
  | event _ hok hnext ih => exact ih.next hok hnext

/-! ## The packages of an attempt -/

section Attempt

variable {s : Phone} (hs : Settled s) {net : NetApi} {text : JString}
  (htext : NamesNoApplications text) {config : Config}
  (hparse : Config.parse net (rewritten s.screen.settings text) = .ok config)

include hs htext hparse

/-- **The packages of an attempt** are the excluded ones. -/
theorem packages_of_attempt :
    (∀ p, p ∈ config.interfaze.excludedApplications ↔
        p ∈ s.screen.settings.excludedAppsFlow) ∧
      config.interfaze.includedApplications.isEmpty = true := by
  have hmode := hs.agreeing
  rw [Agreeing, modeFor] at hmode
  rw [rewritten] at hparse
  cases hempty : s.screen.settings.excludedAppsFlow.isEmpty with
  | true =>
    -- split tunnelling is off, and the text is parsed as it is
    rw [hempty, if_pos rfl] at hmode
    rw [hmode] at hparse
    have hreads : Config.Reads net (JString.lines text) config := by
      rw [← Config.parseLines_eq_ok_iff, ← Config.parse_eq_parseLines_lines]
      exact hparse
    refine ⟨fun p => ?_, LinkedHashSet.isEmpty_iff.mpr fun p hp => ?_⟩
    · rw [hreads.mem_excludedApplications_iff, htext.1]
      exact iff_of_false (by simp) (LinkedHashSet.isEmpty_iff.mp hempty p)
    · rw [hreads.mem_includedApplications_iff, htext.2] at hp
      exact absurd hp (by simp)
  | false =>
    rw [hempty, if_neg (by simp)] at hmode
    rw [hmode] at hparse
    obtain ⟨lines, hlines, hrewritten⟩ := VpnRepository.exists_rewrittenLines
      .excludeApps (by simp) s.screen.settings.excludedAppsFlow
      s.screen.settings.includedAppsFlow text hs.excluded
    rw [hlines, Config.parse_joinToString hrewritten.oneLine, Config.parseLines_eq_ok_iff] at hparse
    refine ⟨fun p => ?_, LinkedHashSet.isEmpty_iff.mpr fun p hp => ?_⟩
    · rw [hparse.mem_excludedApplications_iff, hrewritten.excluded,
        VpnRepository.leftover_eq_nil htext.1]
      simp
    · rw [hparse.mem_includedApplications_iff, hrewritten.included,
        VpnRepository.leftover_eq_nil htext.2] at hp
      simp at hp

end Attempt

/-- **If all excluded packages are installed**, no attempt fails because of one. -/
theorem connectable_of_allInstalled (packageName : JString) {s : Phone} (hs : Settled s)
    (hall : AllInstalled s) : Connectable packageName s := by
  intro net L notify env tunnel text config g e htext hdevice hparse herror
  obtain ⟨hexcluded, hincluded⟩ := packages_of_attempt hs htext hparse
  have hinst : ∀ p ∈ config.config.interfaze.excludedApplications,
      env.device.installed p = true := by
    intro p hp
    rw [hdevice]
    exact hall p ((hexcluded p).mp hp)
  obtain ⟨b, hfilters⟩ :=
    GoBackend.applyFilters_installed packageName hincluded hinst tunnel.name
  exact GoBackend.setStateInternalUp_not_missing hfilters g herror

/-- A text with nothing but a key. -/
def serverText : JString := GoBackend.textWith []

theorem namesNoApplications_serverText : NamesNoApplications serverText := by
  unfold NamesNoApplications
  decide +kernel

/-- The text is accepted with any packages. -/
theorem exists_config_of_serverText {settings : SettingsStore}
    (hmode : settings.splitTunnelModeFlow = .excludeApps)
    (hnames : ∀ p ∈ settings.excludedAppsFlow, IsPackageName p) :
    ∃ config, Config.parse GoBackend.noAddresses (rewritten settings serverText) = .ok config ∧
      config.peers = [] ∧
      ∀ p ∈ settings.excludedAppsFlow, p ∈ config.interfaze.excludedApplications := by
  have hplaced : VpnRepository.underInterface
      ((VpnRepository.kept (JString.lines serverText)).takeWhile
        fun line => !VpnRepository.isPeerHeader line) = true := by
    decide +kernel
  have hrewritable : VpnRepository.Rewritable .excludeApps settings.excludedAppsFlow
      settings.includedAppsFlow serverText := by
    refine ⟨?_, ?_, fun _ => hplaced⟩
    · rw [VpnRepository.leftover_eq_nil namesNoApplications_serverText.1]
      simp
    · rw [VpnRepository.leftover_eq_nil namesNoApplications_serverText.2]
      simp
  have hbare : Config.parse GoBackend.noAddresses serverText =
      .ok (GoBackend.bareConfig 0).config := by
    decide +kernel
  have hchosen : ∀ name ∈ VpnRepository.chosen .excludeApps settings.excludedAppsFlow
      settings.includedAppsFlow, IsPackageName name := hnames
  obtain ⟨config, hparse, hpeers, -, hexcluded, -⟩ :=
    (VpnRepository.agrees_iff_rewritable hbare (by simp) hchosen).mpr hrewritable
  rw [rewritten, hmode]
  exact ⟨config, hparse, hpeers, fun p hp => (hexcluded p).mpr ⟨rfl, hp⟩⟩

/-- **An excluded package that is not installed** makes an attempt fail. -/
theorem allInstalled_of_connectable {packageName : JString} {s : Phone} (hs : Settled s)
    (h : Connectable packageName s) : AllInstalled s := by
  intro p hp
  by_contra hmissing
  rw [Bool.not_eq_true] at hmissing
  have hmode : s.screen.settings.splitTunnelModeFlow = .excludeApps := by
    rw [hs.agreeing, modeFor, if_neg]
    intro hempty
    exact LinkedHashSet.isEmpty_iff.mp hempty p hp
  obtain ⟨config, hparse, hpeers, hexcluded⟩ := exists_config_of_serverText hmode hs.excluded
  obtain ⟨q, hfilters⟩ := GoBackend.applyFilters_missing { installed := s.installs }
    packageName (hexcluded p hp) hmissing []
  have herror := GoBackend.setStateInternalUp_of_filters GoBackend.noAddresses GoBackend.ignore
    ⟨0, []⟩ ⟨0, config⟩ hpeers () hfilters
  exact h GoBackend.noAddresses Unit GoBackend.ignore { device := { installed := s.installs } }
    ⟨0, []⟩ serverText ⟨0, config⟩ _ _ namesNoApplications_serverText rfl hparse herror trivial

/-- **Uninstalled apps and connection attempts.**  In every state of every history the
attempts do not fail because of the excluded set if and only if every package of the set is
installed; and this is so in every history in which a package is uninstalled only while it
is not excluded, and a row is clicked only while its app is installed. -/
theorem excluded_packages_never_abort (packageName : JString) :
    (∀ s, History packageName (fun _ _ => True) s →
        (Connectable packageName s ↔
          ∀ p ∈ s.screen.settings.excludedAppsFlow, s.installs p = true)) ∧
      ∀ s, History packageName (fun s e => careful s e = true) s → Connectable packageName s := by
  refine ⟨fun s h => ⟨fun hc => ?_, fun hall => ?_⟩, fun s h => ?_⟩
  · exact allInstalled_of_connectable h.settled hc
  · exact connectable_of_allInstalled packageName h.settled hall
  · exact connectable_of_allInstalled packageName h.settled h.allInstalled

/-- An app. -/
def browser : Package :=
  ⟨jstr "com.b", VpnRepository.isPackageName_of_mem_chosenPackages _
    (LinkedHashSet.mem_add.mpr (Or.inr rfl))⟩

/-- The theorem where the app is excluded, put back and uninstalled. -/
theorem connectable_after_putting_back :
    Connectable GoBackend.applicationId ((run GoBackend.applicationId careful
      [.loadApps [⟨browser, jstr "Browser", true⟩], .click 0, .click 0, .uninstall browser]
      { installed := [browser] }).get (by decide +kernel)) :=
  (excluded_packages_never_abort GoBackend.applicationId).2 _
    ((History.fresh [browser]).run (Option.some_get _).symm)

/-- **An uninstalled app keeps the tunnel down.**  The app is on the list, it is excluded
and uninstalled, and the next attempt with a text that names no applications throws. -/
theorem uninstalled_app_keeps_tunnel_down :
    NamesNoApplications serverText ∧
      (run GoBackend.applicationId (fun _ _ => true)
        [.loadApps [⟨browser, jstr "Browser", true⟩], .click 0, .uninstall browser]
        { installed := [browser] }).map
        (fun s => (Config.parse GoBackend.noAddresses
          (rewritten s.screen.settings serverText)).map fun config =>
            (GoBackend.setStateInternalUp GoBackend.noAddresses GoBackend.applicationId
              GoBackend.ignore { device := { installed := s.installs } } ⟨0, []⟩
              (some ⟨0, config⟩) { listeners := () }).1) =
        some (.ok (.error (.nameNotFound (jstr "com.b")))) := by
  refine ⟨namesNoApplications_serverText, ?_⟩
  decide +kernel

end Phone
end SplitTunnelingActivity
end AioVpn
