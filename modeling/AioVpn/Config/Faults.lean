import AioVpn.Config.Declarative
import AioVpn.Config.Applications
import AioVpn.Data.FirstError

/-!
# Which error a bad configuration is rejected with

`Config.parse` stops at the first thing it cannot accept and throws a
`BadConfigException` with the section, the attribute, the reason and the text.  Here
everything that is wrong with a file is listed, in the order in which the parser comes
to it: `Config.faults`.  The parser reports the head of the list, and accepts a file when
the list is empty (`parse_reports_first_fault`).

The order is not the order of the file.  What stands before the first header comes
first; then the sections in file order, of which a `[Peer]` section contributes its own
faults and an unknown header itself; then a missing `[Interface]` section; and last the
faults of the interface, wherever its lines stand.  So a mistake in the interface is
never reported while there is one in a peer.
-/

namespace AioVpn

open FirstError

/-! ## Values -/

namespace Faults

/-- The entries of a list of networks that are none. -/
def ofNetworks (net : NetApi) (section_ : BadSection) (location : Location) (value : JString) :
    List BadConfigException :=
  (Attribute.split value).filterMap fun network =>
    (errorOf (InetNetwork.parse net network)).map (.ofParse section_ location)

/-- The entries of `DNS` that are neither numeric addresses nor host names. -/
def ofDns (net : NetApi) (value : JString) : List BadConfigException :=
  (Attribute.split value).filterMap fun dnsServer =>
    if InetAddresses.isHostname dnsServer then none
    else (errorOf (InetAddresses.parse net dnsServer)).map (.ofParse .interface .dns)

/-- A text that is no number, or a number that is not allowed; the latter is reported under
`reported`. -/
def ofInt (section_ : BadSection) (location reported : Location) (allowed : ℤ → Bool)
    (value : JString) : List BadConfigException :=
  match JString.parseInt value with
  | none => [.ofNumber section_ location value]
  | some n =>
      if allowed n then [] else [⟨section_, reported, .invalidValue, some (decimal n)⟩]

/-- A text that is no key. -/
def ofKey (section_ : BadSection) (location : Location) (value : JString) :
    List BadConfigException :=
  if (errorOf (Key.fromBase64 value)).isSome then [.ofKey section_ location] else []

/-- A text that is no endpoint. -/
def ofEndpoint (net : NetApi) (value : JString) : List BadConfigException :=
  ((errorOf (InetEndpoint.parse net value)).map (.ofParse .peer .endpoint)).toList

end Faults

/-! ## The interface -/

namespace Interface

/-- What is wrong with the value of an attribute.  A negative `MTU` is reported under the
name of the other number. -/
def valueFaults (net : NetApi) (value : JString) : InterfaceKey → List BadConfigException
  | .address => Faults.ofNetworks net .interface .address value
  | .dns => Faults.ofDns net value
  | .excludedApplications => []
  | .includedApplications => []
  | .listenPort =>
      Faults.ofInt .interface .listenPort .listenPort (fun n => 0 ≤ n ∧ n ≤ 65535) value
  | .mtu => Faults.ofInt .interface .mtu .listenPort (fun n => 0 ≤ n) value
  | .privateKey => Faults.ofKey .interface .privateKey value

/-- What is wrong with a line. -/
def lineFaults (net : NetApi) (line : JString) : List BadConfigException :=
  match Attribute.parse line with
  | none => [⟨.interface, .topLevel, .syntaxError, some line⟩]
  | some attr =>
      match InterfaceKey.ofKey attr.key with
      | none => [⟨.interface, .topLevel, .unknownAttribute, some attr.key⟩]
      | some key => valueFaults net attr.value key

/-- The line is a private key. -/
def isPrivateKey (line : JString) : Bool :=
  (Attribute.parse line).any fun attr => InterfaceKey.ofKey attr.key = some .privateKey

/-- What is wrong with the lines as a whole. -/
def buildFaults (lines : List JString) : List BadConfigException :=
  if lines.any isPrivateKey then
    if namedBy .includedApplications lines = [] ∨ namedBy .excludedApplications lines = [] then []
    else [⟨.interface, .includedApplications, .invalidKey, none⟩]
  else [⟨.interface, .privateKey, .missingAttribute, none⟩]

/-- Everything that is wrong with the lines of an interface. -/
def faults (net : NetApi) (lines : List JString) : List BadConfigException :=
  lines.flatMap (lineFaults net) ++ buildFaults lines

end Interface

/-! ## Peers -/

namespace Peer

/-- What is wrong with a line. -/
def lineFaults (net : NetApi) (line : JString) : List BadConfigException :=
  match Attribute.parse line with
  | none => [⟨.peer, .topLevel, .syntaxError, some line⟩]
  | some attr =>
      let k := JString.toLowerCase attr.key
      if k = jstr "allowedips" then Faults.ofNetworks net .peer .allowedIps attr.value
      else if k = jstr "endpoint" then Faults.ofEndpoint net attr.value
      else if k = jstr "persistentkeepalive" then
        Faults.ofInt .peer .persistentKeepalive .persistentKeepalive
          (fun n => 0 ≤ n ∧ n ≤ 65535) attr.value
      else if k = jstr "presharedkey" then Faults.ofKey .peer .preSharedKey attr.value
      else if k = jstr "publickey" then Faults.ofKey .peer .publicKey attr.value
      else [⟨.peer, .topLevel, .unknownAttribute, some attr.key⟩]

/-- The line is a public key. -/
def isPublicKey (line : JString) : Bool :=
  (Attribute.parse line).any fun attr => JString.toLowerCase attr.key = jstr "publickey"

/-- Everything that is wrong with the lines of a peer. -/
def faults (net : NetApi) (lines : List JString) : List BadConfigException :=
  lines.flatMap (lineFaults net) ++
    if lines.any isPublicKey then [] else [⟨.peer, .publicKey, .missingAttribute, none⟩]

end Peer

/-! ## The file -/

namespace Config

open Blocks

/-- A line that belongs to no section, or opens an unknown one. -/
def unknownSection (line : JString) : BadConfigException :=
  ⟨.config, .topLevel, .unknownSection, some line⟩

/-- What is wrong with a section, apart from the interface. -/
def sectionFaults (net : NetApi) (b : JString × List JString) : List BadConfigException :=
  if saysInterface b.1 then []
  else if saysPeer b.1 then Peer.faults net b.2
  else [unknownSection b.1]

/-- There has to be an `[Interface]` section. -/
def missingInterface (seenInterfaceSection : Bool) : List BadConfigException :=
  if seenInterfaceSection then [] else [⟨.config, .topLevel, .missingSection, none⟩]

/-- Everything that is wrong with a file, in the order of the checks. -/
def faults (net : NetApi) (lines : List JString) : List BadConfigException :=
  (blocks opensSection lines).1.map unknownSection ++
    ((sections lines).flatMap (sectionFaults net) ++
      (missingInterface ((sections lines).any fun b => saysInterface b.1) ++
        Interface.faults net (underInterface lines)))

end Config

/-! ## Values are checked as listed -/

namespace Faults

variable {net : NetApi} {value : JString}

theorem errorOf_parseAddresses (b : InterfaceBuilder) :
    errorOf (b.parseAddresses net value) = (ofNetworks net .interface .address value).head? := by
  refine errorOf_foldlM_filterMap (fun b network => ?_) _ b
  cases InetNetwork.parse net network <;> rfl

theorem errorOf_parseAllowedIPs (b : PeerBuilder) :
    errorOf (b.parseAllowedIPs net value) = (ofNetworks net .peer .allowedIps value).head? := by
  refine errorOf_foldlM_filterMap (fun b network => ?_) _ b
  cases InetNetwork.parse net network <;> rfl

/-- `InetAddresses.parse` throws for addresses only. -/
theorem parsingClass_of_parse {address : JString} {e : ParseException}
    (h : InetAddresses.parse net address = .error e) : e.parsingClass = .inetAddress := by
  unfold InetAddresses.parse at h
  split_ifs at h
  · rw [← Except.error.inj h]
  · split at h
    · exact absurd h (by simp)
    · rw [← Except.error.inj h]

theorem errorOf_parseDnsServers (b : InterfaceBuilder) :
    errorOf (b.parseDnsServers net value) = (ofDns net value).head? := by
  refine errorOf_foldlM_filterMap (fun b dnsServer => ?_) _ b
  cases hparse : InetAddresses.parse net dnsServer with
  | ok a => simp
  | error e =>
    have hclass := parsingClass_of_parse hparse
    cases hname : InetAddresses.isHostname dnsServer <;> simp [hclass]

theorem errorOf_parseEndpoint (b : PeerBuilder) :
    errorOf (b.parseEndpoint net value) = (ofEndpoint net value).head? := by
  unfold PeerBuilder.parseEndpoint ofEndpoint
  cases InetEndpoint.parse net value <;> rfl

theorem errorOf_parseListenPort (b : InterfaceBuilder) :
    errorOf (b.parseListenPort value) =
      (ofInt .interface .listenPort .listenPort (fun n => 0 ≤ n ∧ n ≤ 65535) value).head? := by
  unfold InterfaceBuilder.parseListenPort InterfaceBuilder.setListenPort ofInt
  cases JString.parseInt value with
  | none => rfl
  | some n => dsimp only; split_ifs <;> first | rfl | (simp at *; omega)

theorem errorOf_parseMtu (b : InterfaceBuilder) :
    errorOf (b.parseMtu value) =
      (ofInt .interface .mtu .listenPort (fun n => 0 ≤ n) value).head? := by
  unfold InterfaceBuilder.parseMtu InterfaceBuilder.setMtu ofInt
  cases JString.parseInt value with
  | none => rfl
  | some n => dsimp only; split_ifs <;> first | rfl | (simp at *; omega)

theorem errorOf_parsePersistentKeepalive (b : PeerBuilder) :
    errorOf (b.parsePersistentKeepalive value) =
      (ofInt .peer .persistentKeepalive .persistentKeepalive
        (fun n => 0 ≤ n ∧ n ≤ 65535) value).head? := by
  unfold PeerBuilder.parsePersistentKeepalive PeerBuilder.setPersistentKeepalive ofInt
  cases JString.parseInt value with
  | none => rfl
  | some n => dsimp only; split_ifs <;> first | rfl | (simp at *; omega)

theorem errorOf_parsePrivateKey (b : InterfaceBuilder) :
    errorOf (b.parsePrivateKey value) = (ofKey .interface .privateKey value).head? := by
  unfold InterfaceBuilder.parsePrivateKey ofKey
  cases Key.fromBase64 value <;> rfl

theorem errorOf_parsePreSharedKey (b : PeerBuilder) :
    errorOf (b.parsePreSharedKey value) = (ofKey .peer .preSharedKey value).head? := by
  unfold PeerBuilder.parsePreSharedKey ofKey
  cases Key.fromBase64 value <;> rfl

theorem errorOf_parsePublicKey (b : PeerBuilder) :
    errorOf (b.parsePublicKey value) = (ofKey .peer .publicKey value).head? := by
  unfold PeerBuilder.parsePublicKey ofKey
  cases Key.fromBase64 value <;> rfl

end Faults

/-! ## So are the lines of an interface -/

namespace Interface

variable {net : NetApi}

theorem errorOf_parseLine (b : InterfaceBuilder) (line : JString) :
    errorOf (parseLine net b line) = (lineFaults net line).head? := by
  unfold parseLine lineFaults
  cases Attribute.parse line with
  | none => rfl
  | some attr =>
    dsimp only
    cases InterfaceKey.ofKey attr.key with
    | none => rfl
    | some key =>
      cases key with
      | address => exact Faults.errorOf_parseAddresses b
      | dns => exact Faults.errorOf_parseDnsServers b
      | excludedApplications => rfl
      | includedApplications => rfl
      | listenPort => exact Faults.errorOf_parseListenPort b
      | mtu => exact Faults.errorOf_parseMtu b
      | privateKey => exact Faults.errorOf_parsePrivateKey b

theorem keyPair_of_parseAddresses {b b' : InterfaceBuilder} {value : JString}
    (h : b.parseAddresses net value = .ok b') : b'.keyPair = b.keyPair := by
  refine ExceptFold.foldlM_keeps InterfaceBuilder.keyPair (fun b address b' hstep => ?_) h
  split at hstep
  · rw [← Except.ok.inj hstep]
  · exact absurd hstep (by simp)

theorem keyPair_of_parseDnsServers {b b' : InterfaceBuilder} {value : JString}
    (h : b.parseDnsServers net value = .ok b') : b'.keyPair = b.keyPair := by
  refine ExceptFold.foldlM_keeps InterfaceBuilder.keyPair (fun b dnsServer b' hstep => ?_) h
  split at hstep
  · rw [← Except.ok.inj hstep]
  · split_ifs at hstep
    rw [← Except.ok.inj hstep]

theorem keyPair_of_parseListenPort {b b' : InterfaceBuilder} {value : JString}
    (h : b.parseListenPort value = .ok b') : b'.keyPair = b.keyPair := by
  unfold InterfaceBuilder.parseListenPort InterfaceBuilder.setListenPort at h
  split at h
  · split_ifs at h <;> rw [← Except.ok.inj h]
  · exact absurd h (by simp)

theorem keyPair_of_parseMtu {b b' : InterfaceBuilder} {value : JString}
    (h : b.parseMtu value = .ok b') : b'.keyPair = b.keyPair := by
  unfold InterfaceBuilder.parseMtu InterfaceBuilder.setMtu at h
  split at h
  · split_ifs at h <;> rw [← Except.ok.inj h]
  · exact absurd h (by simp)

theorem keyPair_of_parsePrivateKey {b b' : InterfaceBuilder} {value : JString}
    (h : b.parsePrivateKey value = .ok b') : b'.keyPair.isSome = true := by
  unfold InterfaceBuilder.parsePrivateKey at h
  split at h
  · rw [← Except.ok.inj h]
    rfl
  · exact absurd h (by simp)

/-- The builder has a key when one of the lines was one. -/
theorem keyPair_of_parseLine {b b' : InterfaceBuilder} {line : JString}
    (h : parseLine net b line = .ok b') :
    b'.keyPair.isSome = (b.keyPair.isSome || isPrivateKey line) := by
  unfold parseLine at h
  unfold isPrivateKey
  cases hattr : Attribute.parse line with
  | none => exact absurd h (by simp [hattr])
  | some attr =>
    rw [hattr] at h
    dsimp only at h
    rw [Option.any_some]
    cases hkey : InterfaceKey.ofKey attr.key with
    | none => exact absurd h (by simp [hkey])
    | some key =>
      rw [hkey] at h
      cases key with
      | address => simp [keyPair_of_parseAddresses h]
      | dns => simp [keyPair_of_parseDnsServers h]
      | excludedApplications => simp [← Except.ok.inj h, InterfaceBuilder.parseExcludedApplications]
      | includedApplications => simp [← Except.ok.inj h, InterfaceBuilder.parseIncludedApplications]
      | listenPort => simp [keyPair_of_parseListenPort h]
      | mtu => simp [keyPair_of_parseMtu h]
      | privateKey => simp [keyPair_of_parsePrivateKey h]

theorem keyPair_of_foldlM {lines : List JString} {b b' : InterfaceBuilder}
    (h : lines.foldlM (parseLine net) b = .ok b') :
    b'.keyPair.isSome = (b.keyPair.isSome || lines.any isPrivateKey) := by
  induction lines generalizing b with
  | nil => simp [← Except.ok.inj h]
  | cons line lines ih =>
    rw [List.foldlM_cons] at h
    obtain ⟨b₁, hline, hlines⟩ := ExceptFold.exists_of_bind_eq_ok h
    rw [ih hlines, keyPair_of_parseLine hline, List.any_cons, Bool.or_assoc]

theorem isEmpty_addAll {l : List JString} :
    ((LinkedHashSet.empty : LinkedHashSet JString).addAll l).isEmpty = true ↔ l = [] := by
  rw [LinkedHashSet.isEmpty_iff, List.eq_nil_iff_forall_not_mem]
  simp

/-- The packages in the builder are the ones named. -/
theorem applications_of_foldlM {lines : List JString} {b : InterfaceBuilder}
    (h : lines.foldlM (parseLine net) {} = .ok b) :
    b.excludedApplications = LinkedHashSet.empty.addAll (namedBy .excludedApplications lines) ∧
      b.includedApplications =
        LinkedHashSet.empty.addAll (namedBy .includedApplications lines) := by
  have hfold := (foldlM_parseLine net lines {} [] []).symm.trans h
  rw [← parseOthers, List.nil_append, List.nil_append] at hfold
  cases hothers : parseOthers net lines with
  | error e => exact absurd (hothers ▸ hfold) (by simp [Except.map])
  | ok b₀ =>
    rw [hothers] at hfold
    obtain ⟨hexcluded, hincluded⟩ := applications_of_parseOthers hothers
    rw [← Except.ok.inj hfold]
    refine ⟨?_, ?_⟩
    · rw [← hexcluded]
      rfl
    · rw [← hincluded]
      rfl

theorem errorOf_build {lines : List JString} {b : InterfaceBuilder}
    (h : lines.foldlM (parseLine net) {} = .ok b) :
    errorOf b.build = (buildFaults lines).head? := by
  have hkey : b.keyPair.isSome = lines.any isPrivateKey := keyPair_of_foldlM h
  obtain ⟨hexcluded, hincluded⟩ := applications_of_foldlM h
  unfold InterfaceBuilder.build buildFaults
  rw [← hkey]
  cases b.keyPair with
  | none => rfl
  | some key =>
    simp only [hexcluded, hincluded, isEmpty_addAll, Option.isSome_some, if_true]
    split_ifs <;> rfl

/-- **The interface reports the first of its faults.** -/
theorem errorOf_parse (lines : List JString) :
    errorOf (parse net lines) = (faults net lines).head? :=
  errorOf_bind (errorOf_foldlM errorOf_parseLine lines {}) fun _ h => errorOf_build h

end Interface

/-! ## And those of a peer -/

namespace Peer

variable {net : NetApi}

theorem errorOf_parseLine (b : PeerBuilder) (line : JString) :
    errorOf (parseLine net b line) = (lineFaults net line).head? := by
  unfold parseLine lineFaults
  cases Attribute.parse line with
  | none => rfl
  | some attr =>
    dsimp only
    split_ifs
    · exact Faults.errorOf_parseAllowedIPs b
    · exact Faults.errorOf_parseEndpoint b
    · exact Faults.errorOf_parsePersistentKeepalive b
    · exact Faults.errorOf_parsePreSharedKey b
    · exact Faults.errorOf_parsePublicKey b
    · rfl

theorem publicKey_of_parseAllowedIPs {b b' : PeerBuilder} {value : JString}
    (h : b.parseAllowedIPs net value = .ok b') : b'.publicKey = b.publicKey := by
  refine ExceptFold.foldlM_keeps PeerBuilder.publicKey (fun b address b' hstep => ?_) h
  split at hstep
  · rw [← Except.ok.inj hstep]
  · exact absurd hstep (by simp)

theorem publicKey_of_parsePersistentKeepalive {b b' : PeerBuilder} {value : JString}
    (h : b.parsePersistentKeepalive value = .ok b') : b'.publicKey = b.publicKey := by
  unfold PeerBuilder.parsePersistentKeepalive PeerBuilder.setPersistentKeepalive at h
  split at h
  · split_ifs at h <;> rw [← Except.ok.inj h]
  · exact absurd h (by simp)

theorem publicKey_of_parseEndpoint {b b' : PeerBuilder} {value : JString}
    (h : b.parseEndpoint net value = .ok b') : b'.publicKey = b.publicKey := by
  unfold PeerBuilder.parseEndpoint at h
  split at h
  · rw [← Except.ok.inj h]
  · exact absurd h (by simp)

theorem publicKey_of_parsePreSharedKey {b b' : PeerBuilder} {value : JString}
    (h : b.parsePreSharedKey value = .ok b') : b'.publicKey = b.publicKey := by
  unfold PeerBuilder.parsePreSharedKey at h
  split at h
  · rw [← Except.ok.inj h]
  · exact absurd h (by simp)

theorem publicKey_of_parsePublicKey {b b' : PeerBuilder} {value : JString}
    (h : b.parsePublicKey value = .ok b') : b'.publicKey.isSome = true := by
  unfold PeerBuilder.parsePublicKey at h
  split at h
  · rw [← Except.ok.inj h]
    rfl
  · exact absurd h (by simp)

/-- The builder has a key when one of the lines was one. -/
theorem publicKey_of_parseLine {b b' : PeerBuilder} {line : JString}
    (h : parseLine net b line = .ok b') :
    b'.publicKey.isSome = (b.publicKey.isSome || isPublicKey line) := by
  unfold parseLine at h
  unfold isPublicKey
  cases hattr : Attribute.parse line with
  | none => exact absurd h (by simp [hattr])
  | some attr =>
    rw [hattr] at h
    dsimp only at h
    rw [Option.any_some]
    split_ifs at h with h₁ h₂ h₃ h₄ h₅
    · rw [h₁, publicKey_of_parseAllowedIPs h]
      exact (Bool.or_false _).symm
    · rw [h₂, publicKey_of_parseEndpoint h]
      exact (Bool.or_false _).symm
    · rw [h₃, publicKey_of_parsePersistentKeepalive h]
      exact (Bool.or_false _).symm
    · rw [h₄, publicKey_of_parsePreSharedKey h]
      exact (Bool.or_false _).symm
    · simp [h₅, publicKey_of_parsePublicKey h]

theorem publicKey_of_foldlM {lines : List JString} {b b' : PeerBuilder}
    (h : lines.foldlM (parseLine net) b = .ok b') :
    b'.publicKey.isSome = (b.publicKey.isSome || lines.any isPublicKey) := by
  induction lines generalizing b with
  | nil => simp [← Except.ok.inj h]
  | cons line lines ih =>
    rw [List.foldlM_cons] at h
    obtain ⟨b₁, hline, hlines⟩ := ExceptFold.exists_of_bind_eq_ok h
    rw [ih hlines, publicKey_of_parseLine hline, List.any_cons, Bool.or_assoc]

/-- **A peer reports the first of its faults.** -/
theorem errorOf_parse (lines : List JString) :
    errorOf (parse net lines) = (faults net lines).head? := by
  refine errorOf_bind (errorOf_foldlM errorOf_parseLine lines {}) fun b h => ?_
  have hkey : b.publicKey.isSome = lines.any isPublicKey := publicKey_of_foldlM h
  rw [← hkey, PeerBuilder.build]
  cases b.publicKey <;> rfl

end Peer

/-! ## The loop -/

namespace Config

open Blocks

variable {net : NetApi}

variable (net) in
/-- The loop and what follows it, from a state on. -/
def parseFrom (st : Scan) (lines : List JString) : Except BadConfigException Config :=
  (lines.foldlM (scanClean net) st).bind (finish net)

/-- What a header does when the section before it is closed. -/
def openSection (st : Scan) (line : JString) : Except BadConfigException Scan :=
  if saysInterface line then .ok { st with opened := .interface, seenInterfaceSection := true }
  else if saysPeer line then .ok { st with opened := .peer }
  else .error (unknownSection line)

/-- What a line that is no header does. -/
def continueSection (st : Scan) (line : JString) : Except BadConfigException Scan :=
  match st.opened with
  | .none => .error (unknownSection line)
  | .interface => .ok { st with interfaceLines := st.interfaceLines ++ [line] }
  | .peer => .ok { st with peerLines := st.peerLines ++ [line] }

/-- The loop sees the contents only. -/
theorem parseLines_eq_parseFrom (lines : List JString) :
    parseLines net lines = parseFrom net {} (content lines) := by
  suffices hfold : ∀ st, lines.foldlM (scanLine net) st = (content lines).foldlM (scanClean net) st
    by rw [parseLines, hfold, parseFrom]
  induction lines with
  | nil => exact fun _ => rfl
  | cons line lines ih =>
    intro st
    rw [List.foldlM_cons]
    by_cases hblank : cleanLine line = []
    · rw [content_cons_of_blank hblank, scanLine, hblank, scanClean, if_pos rfl]
      exact ih st
    · rw [content_cons hblank, List.foldlM_cons]
      exact congrArg _ (funext ih)

theorem parseFrom_cons_header (st : Scan) {line : JString} (hopens : opensSection line = true)
    (lines : List JString) :
    parseFrom net st (line :: lines) =
      (closePeer net st).bind fun st =>
        (openSection st line).bind fun st => parseFrom net st lines := by
  have hhead : line.head? = some (ch '[') := of_decide_eq_true hopens
  have hline : line ≠ [] := fun h => absurd hhead (by simp [h])
  rw [parseFrom, List.foldlM_cons, scanClean, if_neg hline, if_pos hhead]
  cases closePeer net st with
  | error e => rfl
  | ok st' =>
    change ((openSection st' line).bind fun st => lines.foldlM (scanClean net) st).bind _ =
      (openSection st' line).bind _
    cases openSection st' line <;> rfl

theorem parseFrom_cons (st : Scan) {line : JString} (hline : line ≠ [])
    (hopens : opensSection line = false) (lines : List JString) :
    parseFrom net st (line :: lines) =
      (continueSection st line).bind fun st => parseFrom net st lines := by
  have hhead : ¬ line.head? = some (ch '[') := of_decide_eq_false hopens
  rw [parseFrom, List.foldlM_cons, scanClean, if_neg hline, if_neg hhead, continueSection]
  cases st.opened <;> rfl

/-! ## What is wrong from a state on -/

variable (net) in
/-- What is wrong with the section that is open: `front` is the rest of its lines. -/
def openFaults (st : Scan) (front : List JString) : List BadConfigException :=
  match st.opened with
  | .none => front.map unknownSection
  | .interface => []
  | .peer => Peer.faults net (st.peerLines ++ front)

/-- The lines of the interface that are still to come. -/
def interfaceRest (st : Scan) (front : List JString) (bs : List (JString × List JString)) :
    List JString :=
  (if st.opened = .interface then front else []) ++
    (bs.filter fun b => saysInterface b.1).flatMap Prod.snd

variable (net) in
/-- What is wrong with the sections that are still to come, and with the interface. -/
def restFaults (st : Scan) (front : List JString) (bs : List (JString × List JString)) :
    List BadConfigException :=
  bs.flatMap (sectionFaults net) ++
    (missingInterface (st.seenInterfaceSection || bs.any fun b => saysInterface b.1) ++
      Interface.faults net (st.interfaceLines ++ interfaceRest st front bs))

variable (net) in
/-- What is wrong from a state of the loop on. -/
def faultsFrom (st : Scan) (lines : List JString) : List BadConfigException :=
  openFaults net st (blocks opensSection lines).1 ++
    restFaults net st (blocks opensSection lines).1 (blocks opensSection lines).2

theorem faults_eq_faultsFrom (lines : List JString) :
    faults net lines = faultsFrom net {} lines := by
  simp [faults, faultsFrom, openFaults, restFaults, interfaceRest, underInterface, sections]

theorem errorOf_closePeer (st : Scan) :
    errorOf (closePeer net st) = (openFaults net st []).head? := by
  unfold closePeer openFaults
  cases st.opened with
  | none => rfl
  | interface => rfl
  | peer =>
    dsimp only
    rw [errorOf_map, Peer.errorOf_parse, List.append_nil]

theorem errorOf_finish {st : Scan} (hst : PeerLinesClear st) :
    errorOf (finish net st) = (faultsFrom net st []).head? := by
  refine errorOf_bind (errorOf_closePeer st) fun st' hclose => ?_
  obtain ⟨ps, -, rfl⟩ := (closePeer_eq_ok_iff hst).mp hclose
  have hrest : interfaceRest st [] [] = [] := by simp [interfaceRest]
  rw [blocks, restFaults, hrest, List.append_nil, List.any_nil, Bool.or_false]
  cases hseen : st.seenInterfaceSection with
  | false => simp [missingInterface]
  | true => simp [missingInterface, Interface.errorOf_parse]

/-- What is wrong from a header on, when the section before it is closed. -/
theorem restFaults_cons (st : Scan) (line : JString) (front : List JString)
    (bs : List (JString × List JString)) :
    restFaults net st [] ((line, front) :: bs) =
      sectionFaults net (line, front) ++ (bs.flatMap (sectionFaults net) ++
        (missingInterface (st.seenInterfaceSection ||
            (saysInterface line || bs.any fun b => saysInterface b.1)) ++
        Interface.faults net (st.interfaceLines ++ ((if saysInterface line then front else []) ++
          (bs.filter fun b => saysInterface b.1).flatMap Prod.snd)))) := by
  have hfront : (if st.opened = .interface then ([] : List JString) else []) = [] := by simp
  have hfilter : (((line, front) :: bs).filter fun b => saysInterface b.1).flatMap Prod.snd =
      (if saysInterface line then front else []) ++
        (bs.filter fun b => saysInterface b.1).flatMap Prod.snd := by
    cases hline : saysInterface line <;> simp [hline]
  rw [restFaults, interfaceRest, hfront, hfilter, List.flatMap_cons, List.any_cons,
    List.append_assoc, List.nil_append]

/-- A header: an `[Interface]` section continues the interface, a `[Peer]` section begins a
peer, and any other is a fault. -/
theorem errorOf_openSection {lines : List JString} {st : Scan} (hclear : st.peerLines = [])
    (ih : ∀ st : Scan, PeerLinesClear st →
      errorOf (parseFrom net st lines) = (faultsFrom net st lines).head?) (line : JString) :
    errorOf ((openSection st line).bind fun st => parseFrom net st lines) =
      (restFaults net st []
        ((line, (blocks opensSection lines).1) :: (blocks opensSection lines).2)).head? := by
  rw [restFaults_cons, openSection]
  cases hinterface : saysInterface line with
  | true =>
    have h := ih { st with opened := .interface, seenInterfaceSection := true } fun _ => hclear
    rw [if_pos rfl]
    refine h.trans ?_
    simp [faultsFrom, openFaults, restFaults, interfaceRest, sectionFaults, hinterface]
  | false =>
    rw [if_neg (by simp)]
    cases hpeer : saysPeer line with
    | true =>
      have h := ih { st with opened := .peer } fun h => absurd rfl h
      rw [if_pos rfl]
      refine h.trans ?_
      simp [faultsFrom, openFaults, restFaults, interfaceRest, sectionFaults, hinterface, hpeer,
        hclear]
    | false => simp [sectionFaults, hinterface, hpeer, Except.bind]

/-- **The loop and what follows it** report the first of the faults that are left.  The
induction is on the lines; the state carries what the section that is open has so far. -/
theorem errorOf_parseFrom {lines : List JString} (hlines : ∀ line ∈ lines, line ≠ []) {st : Scan}
    (hst : PeerLinesClear st) :
    errorOf (parseFrom net st lines) = (faultsFrom net st lines).head? := by
  induction lines generalizing st with
  | nil => exact errorOf_finish hst
  | cons line lines ih =>
    obtain ⟨hline, hlines⟩ := List.forall_mem_cons.mp hlines
    cases hopens : opensSection line with
    | true =>
      rw [parseFrom_cons_header st hopens, faultsFrom, blocks_cons_header hopens]
      refine errorOf_bind (errorOf_closePeer st) fun st' hclose => ?_
      obtain ⟨ps, -, rfl⟩ := (closePeer_eq_ok_iff hst).mp hclose
      exact errorOf_openSection rfl (fun _ => ih hlines) line
    | false =>
      rw [parseFrom_cons st hline hopens, faultsFrom, blocks_cons hopens]
      obtain ⟨peers, interfaceLines, peerLines, opened, seen⟩ := st
      cases opened with
      | none => simp [continueSection, openFaults, Except.bind]
      | interface =>
        have hnext :
            PeerLinesClear ⟨peers, interfaceLines ++ [line], peerLines, .interface, seen⟩ :=
          fun _ => hst (by simp)
        refine (ih hlines hnext).trans ?_
        simp [faultsFrom, openFaults, restFaults, interfaceRest]
      | peer =>
        have hnext : PeerLinesClear ⟨peers, interfaceLines, peerLines ++ [line], .peer, seen⟩ :=
          fun h => absurd rfl h
        refine (ih hlines hnext).trans ?_
        simp [faultsFrom, openFaults, restFaults, interfaceRest]

/-- **The error of a bad file.**  Let `faults` list everything that is wrong with a file in the
order of the checks: the lines before the first header, then section by section the unknown
headers and what is wrong with each peer (line by line and entry by entry, then a missing key),
then a missing `[Interface]` section, then what is wrong with the interface (line by line and
entry by entry, then a missing key or packages both included and excluded).  `Config.parse`
throws the first of them, with its section, attribute, reason and text, and it returns a
configuration if and only if there is none. -/
theorem parse_reports_first_fault (net : NetApi) (text : JString) :
    (∀ e, parse net text = .error e ↔
      (faults net (content (JString.readLines text))).head? = some e) ∧
    ((∃ config, parse net text = .ok config) ↔
      faults net (content (JString.readLines text)) = []) := by
  have hlines : ∀ line ∈ content (JString.readLines text), line ≠ [] :=
    fun line hline => (mem_content.mp hline).1
  have herror : errorOf (parse net text) =
      (faults net (content (JString.readLines text))).head? := by
    rw [parse, parseLines_eq_parseFrom, faults_eq_faultsFrom]
    exact errorOf_parseFrom hlines fun _ => rfl
  refine ⟨fun e => ?_, ?_⟩
  · rw [← herror, errorOf_eq_some_iff]
  · rw [← errorOf_eq_none_iff, herror, List.head?_eq_none_iff]

end Config
end AioVpn
