import AioVpn.Backend.Lifecycle
import AioVpn.Data.ExceptFold

/-!
# The application filters

`setStateInternal` tells the builder which packages use the tunnel: the excluded ones
are disallowed, the included ones are allowed, and then the app itself is disallowed,
always.  `Interface` already guarantees that not both lists are non-empty.

* `applyFilters_of_included_empty`, `applyFilters_of_included`: what the three groups
  of calls do in the two modes.
* `filters_agree_iff`: the calls are accepted and the tunnel carries exactly the
  packages the configuration asks for if and only if no package is included.  With an
  included package the last call disallows a package on a builder that has allowed
  ones, which throws `UnsupportedOperationException`; the `catch` around it names
  `NameNotFoundException` only.
* `not_usesTunnel_own`: the app's own traffic never uses the tunnel.
-/

namespace AioVpn
namespace GoBackend

/-- The packages whose traffic the configuration wants in the tunnel. -/
def Wanted (packageName : JString) (i : Interface) (p : JString) : Prop :=
  if i.includedApplications.isEmpty then p ∉ i.excludedApplications ∧ p ≠ packageName
  else p ∈ i.includedApplications ∧ p ≠ packageName

/-! ## The three groups of calls -/

/-- Disallowing installed packages on a builder without allowed ones. -/
theorem foldlM_addDisallowedApplication {dev : DeviceEnv} {packages : List JString}
    (hinst : ∀ p ∈ packages, dev.installed p = true) {b : VpnBuilder}
    (hb : b.allowedApplications = []) :
    packages.foldlM (VpnBuilder.addDisallowedApplication dev) b =
      .ok { b with disallowedApplications := b.disallowedApplications ++ packages } := by
  induction packages generalizing b with
  | nil => simp [pure, Except.pure]
  | cons p packages ih =>
    have hp : b.addDisallowedApplication dev p =
        .ok { b with disallowedApplications := b.disallowedApplications ++ [p] } := by
      simp [VpnBuilder.addDisallowedApplication, hb, hinst p]
    rw [List.foldlM_cons, hp]
    have hrest := ih (fun q hq => hinst q (List.mem_cons_of_mem _ hq))
      (b := { b with disallowedApplications := b.disallowedApplications ++ [p] }) hb
    simpa [bind, Except.bind] using hrest

/-- Allowing installed packages on a builder without disallowed ones. -/
theorem foldlM_addAllowedApplication {dev : DeviceEnv} {packages : List JString}
    (hinst : ∀ p ∈ packages, dev.installed p = true) {b : VpnBuilder}
    (hb : b.disallowedApplications = []) :
    packages.foldlM (VpnBuilder.addAllowedApplication dev) b =
      .ok { b with allowedApplications := b.allowedApplications ++ packages } := by
  induction packages generalizing b with
  | nil => simp [pure, Except.pure]
  | cons p packages ih =>
    have hp : b.addAllowedApplication dev p =
        .ok { b with allowedApplications := b.allowedApplications ++ [p] } := by
      simp [VpnBuilder.addAllowedApplication, hb, hinst p]
    rw [List.foldlM_cons, hp]
    have hrest := ih (fun q hq => hinst q (List.mem_cons_of_mem _ hq))
      (b := { b with allowedApplications := b.allowedApplications ++ [p] }) hb
    simpa [bind, Except.bind] using hrest

section Filters

variable {dev : DeviceEnv} {packageName : JString} {i : Interface}

/-- Without included packages every call is accepted. -/
theorem applyFilters_of_included_empty (hempty : i.includedApplications.isEmpty = true)
    (hinst : ∀ p ∈ i.excludedApplications, dev.installed p = true)
    (hown : dev.installed packageName = true) (session : JString) :
    applyFilters dev packageName i { session := session } =
      .ok { session := session
            disallowedApplications := i.excludedApplications.elems ++ [packageName] } := by
  have hexcluded : i.excludedApplications.elems.foldlM (VpnBuilder.addDisallowedApplication dev)
      { session := session } = .ok { session := session
                                     disallowedApplications := i.excludedApplications.elems } :=
    foldlM_addDisallowedApplication hinst rfl
  simp only [applyFilters, hexcluded, LinkedHashSet.elems_eq_nil hempty, List.foldlM_nil]
  simp [VpnBuilder.addDisallowedApplication, hown, bind, Except.bind, pure, Except.pure]

/-- With included packages the last call is not. -/
theorem applyFilters_of_included (hincluded : i.includedApplications.isEmpty = false)
    (hinst : ∀ p ∈ i.includedApplications, dev.installed p = true) (session : JString) :
    applyFilters dev packageName i { session := session } = .error .unsupportedOperation := by
  have hexcluded : i.excludedApplications.elems = [] := by
    rcases i.exclusive with h | h
    · exact absurd (h.symm.trans hincluded) (by simp)
    · exact LinkedHashSet.elems_eq_nil h
  have hne : i.includedApplications.elems ≠ [] := by
    intro h
    rw [LinkedHashSet.isEmpty, h] at hincluded
    exact absurd hincluded (by simp)
  have hallowed : i.includedApplications.elems.foldlM (VpnBuilder.addAllowedApplication dev)
      { session := session } = .ok { session := session
                                     allowedApplications := i.includedApplications.elems } :=
    foldlM_addAllowedApplication hinst rfl
  have hlast : VpnBuilder.addDisallowedApplication dev
      { session := session, allowedApplications := i.includedApplications.elems } packageName =
        .error .unsupportedOperation := by
    simp [VpnBuilder.addDisallowedApplication, hne]
  simp only [applyFilters, hexcluded, List.foldlM_nil]
  simp [bind, Except.bind, pure, Except.pure, hallowed, hlast]

/-! ## From the filters to the established tunnel -/

theorem usesTunnel_addAddress {b b' : VpnBuilder} {address : InetNetwork}
    (h : b.addAddress dev address = .ok b') : b'.usesTunnel = b.usesTunnel := by
  unfold VpnBuilder.addAddress at h
  split at h
  · rw [← Except.ok.inj h]
    rfl
  · exact absurd h (by simp)

theorem usesTunnel_addDnsServer {b b' : VpnBuilder} {address : InetAddress}
    (h : b.addDnsServer dev address = .ok b') : b'.usesTunnel = b.usesTunnel := by
  unfold VpnBuilder.addDnsServer at h
  split at h
  · rw [← Except.ok.inj h]
    rfl
  · exact absurd h (by simp)

theorem usesTunnel_addRoute {b b' : VpnBuilder} {route : InetNetwork}
    (h : b.addRoute dev route = .ok b') : b'.usesTunnel = b.usesTunnel := by
  unfold VpnBuilder.addRoute at h
  split at h
  · rw [← Except.ok.inj h]
    rfl
  · exact absurd h (by simp)

theorem usesTunnel_setMtu {b b' : VpnBuilder} {mtu : ℤ} (h : b.setMtu mtu = .ok b') :
    b'.usesTunnel = b.usesTunnel := by
  unfold VpnBuilder.setMtu at h
  split at h
  · exact absurd h (by simp)
  · rw [← Except.ok.inj h]
    rfl

theorem usesTunnel_addSearchDomains (domains : List JString) (b : VpnBuilder) :
    (domains.foldl VpnBuilder.addSearchDomain b).usesTunnel = b.usesTunnel := by
  induction domains generalizing b with
  | nil => rfl
  | cons domain domains ih => exact ih (b.addSearchDomain domain)

/-- The calls after the filters do not change which packages use the tunnel. -/
theorem configureBuilder_filters {tunnel : Tunnel} {config : Config} {b : VpnBuilder}
    (h : configureBuilder dev packageName tunnel config = .ok b) :
    ∃ b₀, applyFilters dev packageName config.interfaze { session := tunnel.name } = .ok b₀ ∧
      b.usesTunnel = b₀.usesTunnel := by
  unfold configureBuilder at h
  obtain ⟨b₀, hfilters, h⟩ := ExceptFold.exists_of_bind_eq_ok h
  obtain ⟨b₁, haddress, h⟩ := ExceptFold.exists_of_bind_eq_ok h
  obtain ⟨b₂, hdns, h⟩ := ExceptFold.exists_of_bind_eq_ok h
  obtain ⟨b₃, hroutes, h⟩ := ExceptFold.exists_of_bind_eq_ok h
  obtain ⟨b₄, hmtu, h⟩ := ExceptFold.exists_of_bind_eq_ok h
  have haddress' := ExceptFold.foldlM_keeps VpnBuilder.usesTunnel
    (fun _ _ _ h => usesTunnel_addAddress h) haddress
  have hdns' := ExceptFold.foldlM_keeps VpnBuilder.usesTunnel
    (fun _ _ _ h => usesTunnel_addDnsServer h) hdns
  have hroutes' := ExceptFold.foldlM_keeps VpnBuilder.usesTunnel
    (fun _ _ _ h => usesTunnel_addRoute h) hroutes
  refine ⟨b₀, hfilters, ?_⟩
  calc b.usesTunnel = b₄.usesTunnel := usesTunnel_setMtu h
    _ = b₃.usesTunnel := (usesTunnel_setMtu hmtu).trans rfl
    _ = b₂.usesTunnel := by rw [hroutes', usesTunnel_addSearchDomains]
    _ = b₁.usesTunnel := hdns'
    _ = b₀.usesTunnel := haddress'

/-- **The app's own traffic never uses the tunnel.** -/
theorem not_usesTunnel_own {tunnel : Tunnel} {config : Config} {b : VpnBuilder}
    (hown : dev.installed packageName = true)
    (h : configureBuilder dev packageName tunnel config = .ok b) :
    b.usesTunnel packageName = false := by
  obtain ⟨b₀, hfilters, hsame⟩ := configureBuilder_filters h
  rw [hsame]
  unfold applyFilters at hfilters
  obtain ⟨x, -, hfilters⟩ := ExceptFold.exists_of_bind_eq_ok hfilters
  obtain ⟨y, -, hfilters⟩ := ExceptFold.exists_of_bind_eq_ok hfilters
  unfold VpnBuilder.addDisallowedApplication at hfilters
  by_cases hallowed : y.allowedApplications = []
  · simp only [hallowed, ne_eq, not_true_eq_false, if_false, hown, Bool.true_eq_false] at hfilters
    rw [← Except.ok.inj hfilters]
    simp [VpnBuilder.usesTunnel]
  · simp [hallowed] at hfilters

/-- **The filters never conflict exactly when nothing is included.**  For every
configuration, and so for every one the parser accepts, on a device with the named
packages and the app installed: the calls are accepted and every tunnel established
with them carries exactly the packages that are wanted, if and only if no package is
included. -/
theorem filters_agree_iff (config : Config) (tunnel : Tunnel)
    (hexcluded : ∀ p ∈ config.interfaze.excludedApplications, dev.installed p = true)
    (hincluded : ∀ p ∈ config.interfaze.includedApplications, dev.installed p = true)
    (hown : dev.installed packageName = true) :
    ((∃ b, applyFilters dev packageName config.interfaze { session := tunnel.name } = .ok b ∧
          ∀ p, b.usesTunnel p = true ↔ Wanted packageName config.interfaze p) ∧
        ∀ b, configureBuilder dev packageName tunnel config = .ok b →
          ∀ p, b.usesTunnel p = true ↔ Wanted packageName config.interfaze p) ↔
      config.interfaze.includedApplications.isEmpty = true := by
  constructor
  · rintro ⟨⟨b, hb, -⟩, -⟩
    by_contra hne
    rw [Bool.not_eq_true] at hne
    rw [applyFilters_of_included hne hincluded] at hb
    exact absurd hb (by simp)
  · intro hempty
    have hfilters := applyFilters_of_included_empty hempty hexcluded hown tunnel.name
    have hwanted : ∀ p, VpnBuilder.usesTunnel
        { session := tunnel.name
          disallowedApplications := config.interfaze.excludedApplications.elems ++ [packageName] }
        p = true ↔ Wanted packageName config.interfaze p := by
      intro p
      simp [VpnBuilder.usesTunnel, Wanted, hempty, LinkedHashSet.mem_def]
    refine ⟨⟨_, hfilters, hwanted⟩, ?_⟩
    intro b hb p
    obtain ⟨b₀, hb₀, hsame⟩ := configureBuilder_filters hb
    rw [hfilters] at hb₀
    rw [hsame, ← Except.ok.inj hb₀]
    exact hwanted p

end Filters

/-- The text of a configuration with a key and one more line. -/
def textWith (line : JString) : JString :=
  JString.joinToString [ch '\n'] [jstr "[Interface]",
    jstr "PrivateKey = " ++ List.replicate 43 (ch 'A') ++ jstr "=", line]

/-- A configuration with a key and one excluded package. -/
def excludeConfig : Config where
  interfaze :=
    { (bareConfig 0).config.interfaze with
      excludedApplications := LinkedHashSet.empty.add (jstr "com.browser")
      exclusive := Or.inl rfl }
  peers := []

/-- The theorem where one package is excluded. -/
theorem filters_agree_one_excluded :
    (∃ b, applyFilters {} applicationId excludeConfig.interfaze { session := [] } = .ok b ∧
        ∀ p, b.usesTunnel p = true ↔ Wanted applicationId excludeConfig.interfaze p) ∧
      ∀ b, configureBuilder {} applicationId ⟨0, []⟩ excludeConfig = .ok b →
        ∀ p, b.usesTunnel p = true ↔ Wanted applicationId excludeConfig.interfaze p :=
  (filters_agree_iff excludeConfig ⟨0, []⟩ (fun _ _ => rfl) (fun _ _ => rfl) rfl).mpr rfl

/-- **An included package keeps the tunnel down.**  The parser accepts the text, every
package is installed and nothing else fails, and the bring-up throws. -/
theorem bring_up_fails_with_included :
    (Config.parse noAddresses (textWith (jstr "IncludedApplications = com.browser"))).map
      (fun config => (config.interfaze.includedApplications.elems,
        (setStateInternalUp noAddresses applicationId ignore {} ⟨0, []⟩ (some ⟨0, config⟩)
          { listeners := () }).1)) =
      .ok ([jstr "com.browser"], .error .unsupportedOperation) := by
  decide +kernel

end GoBackend
end AioVpn
