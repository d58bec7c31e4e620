import AioVpn.Config.Config

/-!
# The split-tunnel rewriter

`VpnRepository.applySplitTunneling` puts the packages chosen in the settings into a
configuration text before it is parsed: it drops the lines that name applications,
looks for the first `[Peer]` header and inserts one line in front of it.

It is a line scanner of its own, independent of `Config.parse`: the lines are
Kotlin's, they are trimmed as Kotlin trims, a line names applications if it begins
with one of two fixed texts, and a header is a line that is nothing but the header.
-/

namespace AioVpn

/-- `SettingsStore.SplitTunnelMode`. -/
inductive SplitTunnelMode where
  | off
  | excludeApps
  | includeOnlyApps
  deriving DecidableEq

namespace VpnRepository

/-- `String.compareTo` in the form `a <= b`. -/
def compareLe : JString → JString → Bool
  | [], _ => true
  | _ :: _, [] => false
  | a :: s, b :: t => if a = b then compareLe s t else a.toNat < b.toNat

/-- `names.sorted()`. -/
def sorted (names : LinkedHashSet JString) : List JString :=
  names.elems.insertionSort fun a b => compareLe a b

/-- A line that is removed. -/
def namesApplications (line : JString) : Bool :=
  let trimmed := JString.kotlinTrim line
  JString.startsWithIgnoreCase trimmed (jstr "ExcludedApplications =") ||
    JString.startsWithIgnoreCase trimmed (jstr "IncludedApplications =")

/-- The line the insertion stands in front of. -/
def isPeerHeader (line : JString) : Bool :=
  JString.equalsIgnoreCase (JString.kotlinTrim line) (jstr "[Peer]")

/-- The line that is inserted, if any. -/
def applicationsLine (mode : SplitTunnelMode) (excluded included : LinkedHashSet JString) :
    Option JString :=
  match mode with
  | .off => none
  | .excludeApps =>
      if excluded.isEmpty then none
      else some (jstr "ExcludedApplications = " ++
        JString.joinToString (jstr ",") (sorted excluded))
  | .includeOnlyApps =>
      if included.isEmpty then none
      else some (jstr "IncludedApplications = " ++
        JString.joinToString (jstr ",") (sorted included))

/-- `lines.add(insertIndex, line)`. -/
def insertLine (line : Option JString) (lines : List JString) : List JString :=
  match line with
  | none => lines
  | some line => lines.insertIdx (lines.findIdx isPeerHeader) line

/-- `applySplitTunneling`. -/
def applySplitTunneling (mode : SplitTunnelMode) (excluded included : LinkedHashSet JString)
    (configText : JString) : JString :=
  if mode = .off then configText
  else
    let lines := (JString.lines configText).filter fun line => !namesApplications line
    JString.joinToString (jstr "\n") (insertLine (applicationsLine mode excluded included) lines)

end VpnRepository
end AioVpn
