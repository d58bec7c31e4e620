import AioVpn.Config.RoundTrip
import AioVpn.Data.Equality

/-!
# Equality of configurations

The methods `equals` and `hashCode` of `Config` and of the classes of its fields.  They compare
values, with one exception: `KeyPair` inherits both methods from `Object`, which compares objects.

A configuration object is a value of `Config` together with the object that its key pair is, and
each call of `Config.parse` creates a new one.  `ConfigObject.equals_iff` says what `equals`
decides: the attributes are the same and the key pairs are the same object.
`ConfigObject.consistent` is the contract of `hashCode`.  So the configurations of two calls are
never equal, and equality is structural for exactly the texts whose configurations differ
(`equality_is_structural_iff`).
-/

namespace AioVpn

/-- Hash codes that come from the platform. -/
structure HashApi where
  inetAddress : InetAddress → BitVec 32
  /-- `Object.hashCode`. -/
  identity : ℕ → BitVec 32

/-! ## The classes -/

/-- `String`. -/
def JString.equality : Equality JString where
  equals s t := decide (s = t)
  hashCode s := s.foldl (fun h c => 31 * h + BitVec.ofNat 32 c.toNat) 0

/-- `Integer`. -/
def integerEquality : Equality ℤ where
  equals m n := decide (m = n)
  hashCode n := BitVec.ofInt 32 n

/-- `InetAddress`. -/
def InetAddress.equality (H : HashApi) : Equality InetAddress where
  equals a b := decide (a = b)
  hashCode := H.inetAddress

/-- `InetNetwork`. -/
def InetNetwork.equality (H : HashApi) : Equality InetNetwork where
  equals m n := decide (m.address = n.address) && decide (m.mask = n.mask)
  hashCode n := H.inetAddress n.address ^^^ BitVec.ofInt 32 n.mask

/-- `InetEndpoint`. -/
def InetEndpoint.equality : Equality InetEndpoint where
  equals a b := decide (a.host = b.host) && decide (a.port = b.port)
  hashCode a := JString.equality.hashCode a.host ^^^ BitVec.ofInt 32 a.port

/-- `Key`. -/
def Key.equality : Equality Key where
  equals k l := decide (k.bytes = l.bytes)
  hashCode k := (List.range 8).foldl (fun ret i => ret ^^^
    (((k.bytes.getD (i * 4) 0).signExtend 32).sshiftRight 0 +
      ((k.bytes.getD (i * 4 + 1) 0).signExtend 32).sshiftRight 8 +
      ((k.bytes.getD (i * 4 + 2) 0).signExtend 32).sshiftRight 16 +
      ((k.bytes.getD (i * 4 + 3) 0).signExtend 32).sshiftRight 24)) 0

/-- `KeyPair`: the object, and its private key. -/
structure KeyPair where
  object : ℕ
  privateKey : Key

/-- The methods that `KeyPair` inherits. -/
def KeyPair.equality (H : HashApi) : Equality KeyPair where
  equals k l := decide (k.object = l.object)
  hashCode k := H.identity k.object

open Equality in
/-- `Peer`. -/
def Peer.equality (H : HashApi) : Equality Peer where
  equals p q :=
    (elements (InetNetwork.equality H)).equals p.allowedIps.elems q.allowedIps.elems &&
      (optional InetEndpoint.equality).equals p.endpoint q.endpoint &&
      (optional integerEquality).equals p.persistentKeepalive q.persistentKeepalive &&
      (optional Key.equality).equals p.preSharedKey q.preSharedKey &&
      Key.equality.equals p.publicKey q.publicKey
  hashCode p := combine
    [(elements (InetNetwork.equality H)).hashCode p.allowedIps.elems,
      (optional InetEndpoint.equality).hashCode p.endpoint,
      (optional integerEquality).hashCode p.persistentKeepalive,
      (optional Key.equality).hashCode p.preSharedKey,
      Key.equality.hashCode p.publicKey]

/-- A configuration object, with the object that its key pair is. -/
structure ConfigObject where
  config : Config
  keyPairObject : ℕ

/-- The key pair of the interface. -/
def ConfigObject.keyPair (c : ConfigObject) : KeyPair :=
  ⟨c.keyPairObject, c.config.interfaze.privateKey⟩

open Equality in
/-- `Interface`; `hashCode` leaves out the search domains. -/
def Interface.equality (H : HashApi) : Equality (Interface × KeyPair) where
  equals i j :=
    (elements (InetNetwork.equality H)).equals i.1.addresses.elems j.1.addresses.elems &&
      (elements (InetAddress.equality H)).equals i.1.dnsServers.elems j.1.dnsServers.elems &&
      (elements JString.equality).equals i.1.dnsSearchDomains.elems j.1.dnsSearchDomains.elems &&
      (elements JString.equality).equals i.1.excludedApplications.elems
        j.1.excludedApplications.elems &&
      (elements JString.equality).equals i.1.includedApplications.elems
        j.1.includedApplications.elems &&
      (KeyPair.equality H).equals i.2 j.2 &&
      (optional integerEquality).equals i.1.listenPort j.1.listenPort &&
      (optional integerEquality).equals i.1.mtu j.1.mtu
  hashCode i := combine
    [(elements (InetNetwork.equality H)).hashCode i.1.addresses.elems,
      (elements (InetAddress.equality H)).hashCode i.1.dnsServers.elems,
      (elements JString.equality).hashCode i.1.excludedApplications.elems,
      (elements JString.equality).hashCode i.1.includedApplications.elems,
      (KeyPair.equality H).hashCode i.2,
      (optional integerEquality).hashCode i.1.listenPort,
      (optional integerEquality).hashCode i.1.mtu]

/-- `Config`. -/
def ConfigObject.equality (H : HashApi) : Equality ConfigObject where
  equals c d :=
    (Interface.equality H).equals (c.config.interfaze, c.keyPair) (d.config.interfaze, d.keyPair) &&
      (Equality.list (Peer.equality H)).equals c.config.peers d.config.peers
  hashCode c :=
    31 * (Interface.equality H).hashCode (c.config.interfaze, c.keyPair) +
      (Equality.list (Peer.equality H)).hashCode c.config.peers

/-! ## What is compared -/

section Compared

variable {H : HashApi}

theorem JString.equals_iff (s t : JString) : JString.equality.equals s t = true ↔ s = t :=
  decide_eq_true_iff

theorem integer_equals_iff (m n : ℤ) : integerEquality.equals m n = true ↔ m = n :=
  decide_eq_true_iff

theorem InetAddress.equals_iff (a b : InetAddress) :
    (InetAddress.equality H).equals a b = true ↔ a = b := decide_eq_true_iff

theorem InetNetwork.equals_iff (m n : InetNetwork) :
    (InetNetwork.equality H).equals m n = true ↔ m = n := by
  obtain ⟨a, k⟩ := m
  obtain ⟨b, l⟩ := n
  simp [InetNetwork.equality]

theorem InetEndpoint.equals_iff (a b : InetEndpoint) :
    InetEndpoint.equality.equals a b = true ↔ (a.host, a.port) = (b.host, b.port) := by
  simp [InetEndpoint.equality]

theorem Key.equals_iff (k l : Key) : Key.equality.equals k l = true ↔ k = l := by
  obtain ⟨b, hb⟩ := k
  obtain ⟨c, hc⟩ := l
  simp [Key.equality]

/-- Sets of values are compared as sets. -/
theorem LinkedHashSet.equals_iff {α : Type} {E : Equality α}
    (hE : ∀ a b, E.equals a b = true ↔ a = b) (s t : LinkedHashSet α) :
    (Equality.elements E).equals s.elems t.elems = true ↔ ∀ a, a ∈ t ↔ a ∈ s :=
  Equality.elements_equals_iff hE s.nodup t.nodup

/-- Optional values are compared as values. -/
theorem optional_equals_iff_eq {α : Type} {E : Equality α}
    (hE : ∀ a b, E.equals a b = true ↔ a = b) (o p : Option α) :
    (Equality.optional E).equals o p = true ↔ p = o := by
  rw [Equality.optional_equals_iff (f := id) hE, Option.map_id, id, id, eq_comm]

/-- **Peers are compared attribute by attribute.** -/
theorem Peer.equals_iff (p q : Peer) :
    (Peer.equality H).equals p q = true ↔ p.SameAttributes q := by
  simp only [Peer.equality, Bool.and_eq_true, LinkedHashSet.equals_iff InetNetwork.equals_iff,
    Equality.optional_equals_iff InetEndpoint.equals_iff,
    optional_equals_iff_eq integer_equals_iff, optional_equals_iff_eq Key.equals_iff,
    Key.equals_iff]
  constructor
  · rintro ⟨⟨⟨⟨hips, hendpoint⟩, hkeepalive⟩, hpsk⟩, hkey⟩
    exact ⟨hips, hendpoint.symm, hkeepalive, hpsk, hkey.symm⟩
  · rintro ⟨hips, hendpoint, hkeepalive, hpsk, hkey⟩
    exact ⟨⟨⟨⟨hips, hendpoint.symm⟩, hkeepalive⟩, hpsk⟩, hkey.symm⟩

/-- **Interfaces are compared attribute by attribute**, except for the key pair: it has to be the
same object.  An object has one private key. -/
theorem Interface.equals_iff {i j : Interface} {n m : ℕ}
    (hobject : n = m → j.privateKey = i.privateKey) :
    (Interface.equality H).equals (i, ⟨n, i.privateKey⟩) (j, ⟨m, j.privateKey⟩) = true ↔
      i.SameAttributes j ∧ n = m := by
  simp only [Interface.equality, Bool.and_eq_true,
    LinkedHashSet.equals_iff InetNetwork.equals_iff,
    LinkedHashSet.equals_iff InetAddress.equals_iff, LinkedHashSet.equals_iff JString.equals_iff,
    optional_equals_iff_eq integer_equals_iff, KeyPair.equality, decide_eq_true_iff]
  constructor
  · rintro ⟨⟨⟨⟨⟨⟨⟨haddresses, hservers⟩, hdomains⟩, hexcluded⟩, hincluded⟩, hpair⟩, hport⟩, hmtu⟩
    exact ⟨⟨haddresses, hservers, hdomains, hexcluded, hincluded, hport, hmtu, hobject hpair⟩,
      hpair⟩
  · rintro ⟨⟨haddresses, hservers, hdomains, hexcluded, hincluded, hport, hmtu, -⟩, hpair⟩
    exact ⟨⟨⟨⟨⟨⟨⟨haddresses, hservers⟩, hdomains⟩, hexcluded⟩, hincluded⟩, hpair⟩, hport⟩, hmtu⟩

/-- **What `equals` decides**: the same attributes, and the same key pair object. -/
theorem ConfigObject.equals_iff {c d : ConfigObject}
    (hobject : c.keyPairObject = d.keyPairObject →
      d.config.interfaze.privateKey = c.config.interfaze.privateKey) :
    (ConfigObject.equality H).equals c d = true ↔
      Config.SameAttributes c.config d.config ∧ c.keyPairObject = d.keyPairObject := by
  rw [ConfigObject.equality, Bool.and_eq_true, ConfigObject.keyPair, ConfigObject.keyPair,
    Interface.equals_iff hobject, Equality.list_equals_iff Peer.equals_iff]
  constructor
  · rintro ⟨⟨hinterface, hpair⟩, hpeers⟩
    exact ⟨⟨hinterface, hpeers⟩, hpair⟩
  · rintro ⟨⟨hinterface, hpeers⟩, hpair⟩
    exact ⟨⟨hinterface, hpair⟩, hpeers⟩

end Compared

/-! ## Hash codes -/

section Hashes

variable {H : HashApi}

theorem consistent_of_equals_iff {α : Type} {E : Equality α}
    (hE : ∀ a b, E.equals a b = true ↔ a = b) : E.Consistent := by
  intro a b h
  rw [(hE a b).mp h]

theorem InetEndpoint.consistent : InetEndpoint.equality.Consistent := by
  intro a b h
  obtain ⟨hhost, hport⟩ := Prod.mk.inj ((InetEndpoint.equals_iff a b).mp h)
  simp only [InetEndpoint.equality, hhost, hport]

theorem Peer.consistent : (Peer.equality H).Consistent := by
  intro p q h
  simp only [Peer.equality, Bool.and_eq_true] at h ⊢
  obtain ⟨⟨⟨⟨hips, hendpoint⟩, hkeepalive⟩, hpsk⟩, hkey⟩ := h
  rw [Equality.elements_hashCode_eq InetNetwork.equals_iff q.allowedIps.nodup hips,
    Equality.optional_consistent InetEndpoint.consistent _ _ hendpoint,
    Equality.optional_consistent (consistent_of_equals_iff integer_equals_iff) _ _ hkeepalive,
    Equality.optional_consistent (consistent_of_equals_iff Key.equals_iff) _ _ hpsk,
    consistent_of_equals_iff Key.equals_iff _ _ hkey]

theorem Interface.consistent : (Interface.equality H).Consistent := by
  rintro ⟨i, k⟩ ⟨j, l⟩ h
  simp only [Interface.equality, Bool.and_eq_true, KeyPair.equality, decide_eq_true_iff] at h ⊢
  obtain ⟨⟨⟨⟨⟨⟨⟨haddresses, hservers⟩, -⟩, hexcluded⟩, hincluded⟩, hpair⟩, hport⟩, hmtu⟩ := h
  have hinteger := Equality.optional_consistent (consistent_of_equals_iff integer_equals_iff)
  rw [Equality.elements_hashCode_eq InetNetwork.equals_iff j.addresses.nodup haddresses,
    Equality.elements_hashCode_eq InetAddress.equals_iff j.dnsServers.nodup hservers,
    Equality.elements_hashCode_eq JString.equals_iff j.excludedApplications.nodup hexcluded,
    Equality.elements_hashCode_eq JString.equals_iff j.includedApplications.nodup hincluded,
    hpair, hinteger _ _ hport, hinteger _ _ hmtu]

/-- **Equal configurations have equal hash codes.** -/
theorem ConfigObject.consistent : (ConfigObject.equality H).Consistent := by
  intro c d h
  rw [ConfigObject.equality, Bool.and_eq_true] at h
  rw [ConfigObject.equality]
  dsimp only
  rw [Interface.consistent _ _ h.1, Equality.list_consistent Peer.consistent _ _ h.2]

end Hashes

/-! ## Two calls of the parser -/

namespace ConfigObject

/-- `Config.parse`: the key pair is a new object. -/
def parse (net : NetApi) (text : JString) (objects : ℕ) :
    Except BadConfigException (ConfigObject × ℕ) :=
  (Config.parse net text).map fun c => (⟨c, objects⟩, objects + 1)

/-- One call after the other. -/
def parseBoth (net : NetApi) (s t : JString) (objects : ℕ) :
    Except BadConfigException (ConfigObject × ConfigObject) := do
  let (c, objects) ← parse net s objects
  let (d, _) ← parse net t objects
  pure (c, d)

/-- **Equality is structural** for two texts: the configurations are equal if they have the same
attributes, and then their hash codes are equal. -/
def EqualityIsStructural (net : NetApi) (s t : JString) : Prop :=
  ∀ (H : HashApi) (objects : ℕ) (c d : ConfigObject), parseBoth net s t objects = .ok (c, d) →
    ((equality H).equals c d = true ↔ Config.SameAttributes c.config d.config) ∧
      ((equality H).equals c d = true → (equality H).hashCode c = (equality H).hashCode d)

section Parsed

variable {net : NetApi} {s t : JString} {c d : Config}

theorem parseBoth_eq (hs : Config.parse net s = .ok c) (ht : Config.parse net t = .ok d)
    (objects : ℕ) : parseBoth net s t objects = .ok (⟨c, objects⟩, ⟨d, objects + 1⟩) := by
  rw [parseBoth, parse, hs]
  dsimp only [Except.map, bind, Except.bind]
  rw [parse, ht]
  rfl

/-- The configurations of two calls are never equal. -/
theorem not_equals_of_two_calls (H : HashApi) (objects : ℕ) :
    (equality H).equals ⟨c, objects⟩ ⟨d, objects + 1⟩ = false := by
  have hobjects : objects ≠ objects + 1 := (Nat.succ_ne_self objects).symm
  rw [Bool.eq_false_iff]
  intro h
  exact hobjects ((equals_iff fun h => absurd h hobjects).mp h).2

/-- **When equality is structural**: for two texts whose configurations differ in some
attribute. -/
theorem equality_is_structural_iff (hs : Config.parse net s = .ok c)
    (ht : Config.parse net t = .ok d) :
    EqualityIsStructural net s t ↔ ¬ Config.SameAttributes c d := by
  constructor
  · intro h hsame
    have H : HashApi := ⟨fun _ => 0, fun _ => 0⟩
    have hequals := (h H 0 _ _ (parseBoth_eq hs ht 0)).1.mpr hsame
    rw [not_equals_of_two_calls] at hequals
    exact absurd hequals (by simp)
  · intro hdiffer H objects c' d' hparse
    rw [parseBoth_eq hs ht] at hparse
    obtain ⟨rfl, rfl⟩ := Prod.mk.inj (Except.ok.inj hparse)
    refine ⟨?_, consistent _ _⟩
    rw [not_equals_of_two_calls]
    exact iff_of_false (by simp) hdiffer

end Parsed

/-- A text with a key and an application. -/
def oneAppText : JString := Config.keyAndLine (jstr "IncludedApplications = a.b")

/-- The configuration in it. -/
def oneAppConfig : Config where
  interfaze :=
    { addresses := .empty
      dnsServers := .empty
      dnsSearchDomains := .empty
      excludedApplications := .empty
      includedApplications := ⟨[jstr "a.b"], by decide⟩
      privateKey := Config.sampleKey
      listenPort := none
      mtu := none
      exclusive := Or.inr rfl }
  peers := []

theorem parse_oneAppText : Config.parse sampleNet oneAppText = .ok oneAppConfig := by
  decide +kernel

theorem sample_differs_from_oneApp :
    Config.parse sampleNet Config.sampleText = .ok Config.sampleConfig ∧
      Config.parse sampleNet oneAppText = .ok oneAppConfig ∧
      EqualityIsStructural sampleNet Config.sampleText oneAppText :=
  ⟨Config.parse_sampleText, parse_oneAppText,
    (equality_is_structural_iff Config.parse_sampleText parse_oneAppText).mpr fun hsame =>
      absurd hsame.peers.length_eq (by decide)⟩

/-- **One text parsed twice** gives two configurations that are not equal. -/
theorem sample_not_equal_to_itself :
    (parseBoth sampleNet Config.sampleText Config.sampleText 0).map (fun (c, d) =>
        ((equality ⟨fun _ => 0, BitVec.ofNat 32⟩).equals c d, decide (c.config = d.config))) =
      .ok (false, true) := by
  rw [parseBoth_eq Config.parse_sampleText Config.parse_sampleText]
  decide +kernel

end ConfigObject
end AioVpn
