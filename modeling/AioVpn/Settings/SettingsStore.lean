import AioVpn.Repo.SplitTunnel

/-!
# The settings store

`SettingsStore` keeps the settings of the app in one preferences file.  A flow of the class
reads one of them, with its default; a setter is one transaction, and what a transaction
does is a function on the contents of the file.

The mode of split tunnelling is stored by name, and a name that is not known reads as
`OFF`; `splitTunnelModeFlow_setSplitTunnelMode` says that every mode is read back.
-/

namespace AioVpn

/-- The name an enumeration constant is stored under. -/
def SplitTunnelMode.name : SplitTunnelMode → JString
  | .off => jstr "OFF"
  | .excludeApps => jstr "EXCLUDE_APPS"
  | .includeOnlyApps => jstr "INCLUDE_ONLY_APPS"

/-- The preferences file `aio_settings`; a key that was never set is missing. -/
structure SettingsStore where
  lastServerId : Option ℤ := none
  lastServerLabel : Option JString := none
  splitTunnelMode : Option JString := none
  excludedApps : Option (LinkedHashSet JString) := none
  includedApps : Option (LinkedHashSet JString) := none
  deriving DecidableEq

namespace SettingsStore

/-! ## Flows -/

/-- `lastServerIdFlow`. -/
def lastServerIdFlow (s : SettingsStore) : Option ℤ := s.lastServerId

/-- `lastServerLabelFlow`. -/
def lastServerLabelFlow (s : SettingsStore) : Option JString := s.lastServerLabel

/-- `splitTunnelModeFlow`. -/
def splitTunnelModeFlow (s : SettingsStore) : SplitTunnelMode :=
  if s.splitTunnelMode = some SplitTunnelMode.excludeApps.name then .excludeApps
  else if s.splitTunnelMode = some SplitTunnelMode.includeOnlyApps.name then .includeOnlyApps
  else .off

/-- `excludedAppsFlow`. -/
def excludedAppsFlow (s : SettingsStore) : LinkedHashSet JString := s.excludedApps.getD .empty

/-- `includedAppsFlow`. -/
def includedAppsFlow (s : SettingsStore) : LinkedHashSet JString := s.includedApps.getD .empty

/-! ## Setters -/

/-- `saveLastServer`. -/
def saveLastServer (id : ℤ) (label : JString) (s : SettingsStore) : SettingsStore :=
  { s with lastServerId := some id, lastServerLabel := some label }

/-- `setSplitTunnelMode`. -/
def setSplitTunnelMode (mode : SplitTunnelMode) (s : SettingsStore) : SettingsStore :=
  { s with splitTunnelMode := some mode.name }

/-- `setExcludedApps`. -/
def setExcludedApps (packageNames : LinkedHashSet JString) (s : SettingsStore) : SettingsStore :=
  { s with excludedApps := some packageNames }

@[simp] theorem splitTunnelModeFlow_setSplitTunnelMode (mode : SplitTunnelMode)
    (s : SettingsStore) : (s.setSplitTunnelMode mode).splitTunnelModeFlow = mode := by
  cases mode <;> rfl

@[simp] theorem excludedAppsFlow_setExcludedApps (packageNames : LinkedHashSet JString)
    (s : SettingsStore) : (s.setExcludedApps packageNames).excludedAppsFlow = packageNames := rfl

@[simp] theorem excludedAppsFlow_setSplitTunnelMode (mode : SplitTunnelMode) (s : SettingsStore) :
    (s.setSplitTunnelMode mode).excludedAppsFlow = s.excludedAppsFlow := rfl

end SettingsStore
end AioVpn
