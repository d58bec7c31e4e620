import AioVpn.Config.WgQuick
import AioVpn.Crypto.Base64

/-!
# Values that are read back

What the parser can have put into a configuration, and that it reads each such value in its
text again.  `NetApi.Documented` is what is assumed of the platform: a numeric address is read
back from `getHostAddress`, and `java.net.URI` cuts `host:port` where it says.
-/

namespace AioVpn

open JString

/-- **The platform as documented.** -/
structure NetApi.Documented (net : NetApi) : Prop where
  /-- Parsing a numeric address undoes `getHostAddress`. -/
  parse_getHostAddress : ∀ s a, net.parseNumericAddress s = some a →
    net.parseNumericAddress (net.getHostAddress a) = some a
  getHostAddress_ne_nil : ∀ a, net.getHostAddress a ≠ []
  /-- Its text is made of digits, letters, colons, dots and the like. -/
  getHostAddress_plain : ∀ a, ∀ c ∈ net.getHostAddress a,
    0x20 < c.toNat ∧ c ≠ ch ',' ∧ c ≠ ch '#'
  /-- A host and a port are cut again where they were cut. -/
  uri_host_port : ∀ s host port, net.uri s = some (some (host, port)) → 0 ≤ port →
    net.uri (host ++ [ch ':'] ++ decimal port) = some (some (host, port))
  uri_host_plain : ∀ s host port, net.uri s = some (some (host, port)) →
    ∀ c ∈ host, 0x20 < c.toNat ∧ InetEndpoint.isForbidden c = false
  /-- An IPv6 address stands in brackets. -/
  uri_host_brackets : ∀ s host port, net.uri s = some (some (host, port)) →
    InetEndpoint.isBareIpv6 host = false

/-- A platform that knows two addresses and one endpoint. -/
def sampleNet : NetApi where
  parseNumericAddress s :=
    if s = jstr "10.0.0.2" then some (.inet4 0x0a000002)
    else if s = jstr "1.1.1.1" then some (.inet4 0x01010101)
    else none
  getHostAddress a := if a = .inet4 0x0a000002 then jstr "10.0.0.2" else jstr "1.1.1.1"
  uri s := if s = jstr "vpn.example:51820" then some (some (jstr "vpn.example", 51820)) else none

theorem sampleNet_parse {s : JString} {a : InetAddress}
    (h : sampleNet.parseNumericAddress s = some a) :
    s = jstr "10.0.0.2" ∧ a = .inet4 0x0a000002 ∨ s = jstr "1.1.1.1" ∧ a = .inet4 0x01010101 := by
  rw [sampleNet] at h
  dsimp only at h
  split_ifs at h with hs hs'
  · exact Or.inl ⟨hs, (Option.some.inj h).symm⟩
  · exact Or.inr ⟨hs', (Option.some.inj h).symm⟩

theorem sampleNet_uri {s host : JString} {port : ℤ}
    (h : sampleNet.uri s = some (some (host, port))) :
    host = jstr "vpn.example" ∧ port = 51820 := by
  rw [sampleNet] at h
  dsimp only at h
  split_ifs at h
  obtain ⟨rfl, rfl⟩ := Prod.mk.inj (Option.some.inj (Option.some.inj h))
  exact ⟨rfl, rfl⟩

/-- The assumptions hold of it. -/
theorem sampleNet_documented : sampleNet.Documented := by
  have haddress : ∀ a, sampleNet.getHostAddress a = jstr "10.0.0.2" ∨
      sampleNet.getHostAddress a = jstr "1.1.1.1" := by
    intro a
    rw [sampleNet]
    dsimp only
    split_ifs
    · exact Or.inl rfl
    · exact Or.inr rfl
  refine ⟨?_, ?_, ?_, ?_, ?_, ?_⟩
  · intro s a h
    rcases sampleNet_parse h with ⟨-, rfl⟩ | ⟨-, rfl⟩ <;> decide
  · intro a
    rcases haddress a with h | h <;> rw [h] <;> decide
  · intro a
    rcases haddress a with h | h
    · rw [h]
      exact List.forall_mem_iff_forall_getElem.mpr (by decide)
    · rw [h]
      exact List.forall_mem_iff_forall_getElem.mpr (by decide)
  · intro s host port h _
    obtain ⟨rfl, rfl⟩ := sampleNet_uri h
    decide
  · intro s host port h
    obtain ⟨rfl, rfl⟩ := sampleNet_uri h
    exact List.forall_mem_iff_forall_getElem.mpr (by decide)
  · intro s host port h
    obtain ⟨rfl, rfl⟩ := sampleNet_uri h
    decide

/-! ## Numbers -/

section Decimal

theorem toNat_ch_of_isDigit {c : Char} (hc : c.isDigit = true) :
    (ch c).toNat = c.toNat ∧ 0x30 ≤ c.toNat ∧ c.toNat ≤ 0x39 := by
  have hbounds : 0x30 ≤ c.toNat ∧ c.toNat ≤ 0x39 := Char.isDigit_iff_toNat.mp hc
  refine ⟨?_, hbounds⟩
  rw [ch, UInt16.toNat_ofNat_of_lt' (by rw [UInt16.size]; omega)]

/-- The value of an ASCII digit. -/
theorem digit_of_isDigit {c : JChar} (hc : c.isDigit = true) :
    c.digit = some (c.toNat - 0x30) := by
  rw [JChar.isDigit, Bool.and_eq_true, decide_eq_true_eq, decide_eq_true_eq] at hc
  have hfirst : (0x30 ≤ c.toNat && c.toNat < 0x30 + 10) = true := by
    rw [Bool.and_eq_true, decide_eq_true_eq, decide_eq_true_eq]
    omega
  have hfind : JChar.digitZeros.find? (fun z => z ≤ c.toNat && c.toNat < z + 10) = some 0x30 :=
    List.find?_cons_of_pos hfirst
  rw [JChar.digit, hfind, Option.map_some]

theorem digit_ch {c : Char} (hc : c.isDigit = true) :
    (ch c).digit = some (c.toNat - '0'.toNat) := by
  obtain ⟨hnat, hlow, hhigh⟩ := toNat_ch_of_isDigit hc
  have hdigit : (ch c).isDigit = true := by
    rw [JChar.isDigit, hnat, Bool.and_eq_true, decide_eq_true_eq, decide_eq_true_eq]
    exact ⟨hlow, hhigh⟩
  rw [digit_of_isDigit hdigit, hnat]
  rfl

theorem decimal_natCast (n : ℕ) : decimal (n : ℤ) = (Nat.toDigits 10 n).map ch := by
  have hrepr : toString (n : ℤ) = n.repr := rfl
  rw [decimal, hrepr, jstr, Nat.toList_repr]

theorem foldlM_digits {cs : List Char} (hcs : ∀ c ∈ cs, c.isDigit = true) (acc : ℕ) :
    (cs.map ch).foldlM (fun acc c => c.digit.map fun d => 10 * acc + d) acc =
      some (Nat.ofDigitChars 10 cs acc) := by
  induction cs generalizing acc with
  | nil => rfl
  | cons c cs ih =>
    rw [List.map_cons, List.foldlM_cons, digit_ch (hcs c List.mem_cons_self), Option.map_some,
      Nat.ofDigitChars_cons]
    exact ih (fun d hd => hcs d (List.mem_cons_of_mem _ hd)) _

/-- The digits of a number. -/
theorem bounds_of_mem_decimal {n : ℤ} (hn : 0 ≤ n) :
    ∀ c ∈ decimal n, 0x30 ≤ c.toNat ∧ c.toNat ≤ 0x39 := by
  obtain ⟨m, rfl⟩ := Int.eq_ofNat_of_zero_le hn
  intro c hc
  rw [decimal_natCast] at hc
  obtain ⟨d, hd, rfl⟩ := List.mem_map.mp hc
  obtain ⟨hnat, hbounds⟩ :=
    toNat_ch_of_isDigit (Nat.isDigit_of_mem_toDigits (by decide) (by decide) hd)
  rw [hnat]
  exact hbounds

theorem notMem_decimal {n : ℤ} (hn : 0 ≤ n) {c : JChar}
    (hc : ¬ (0x30 ≤ c.toNat ∧ c.toNat ≤ 0x39)) : c ∉ decimal n := fun hmem =>
  hc (bounds_of_mem_decimal hn c hmem)

/-- From the hyphen on, no character is a blank, a comma or a number sign. -/
theorem plain_of_le {c : JChar} (hc : 0x2d ≤ c.toNat) :
    0x20 < c.toNat ∧ c ≠ ch ',' ∧ c ≠ ch '#' := by
  refine ⟨by omega, ?_, ?_⟩
  all_goals
    rintro rfl
    revert hc
    decide

theorem plain_of_mem_decimal {n : ℤ} (hn : 0 ≤ n) {c : JChar} (hc : c ∈ decimal n) :
    0x20 < c.toNat ∧ c ≠ ch ',' ∧ c ≠ ch '#' := by
  have hbounds := bounds_of_mem_decimal hn c hc
  exact plain_of_le (by omega)

theorem decimal_ne_nil {n : ℤ} (hn : 0 ≤ n) : decimal n ≠ [] := by
  obtain ⟨m, rfl⟩ := Int.eq_ofNat_of_zero_le hn
  rw [decimal_natCast]
  exact fun h => Nat.toDigits_ne_nil (List.map_eq_nil_iff.mp h)

/-- The digits of a number are read as the number, if it is in range. -/
theorem parseInt_decimal_eq {n : ℤ} (hn : 0 ≤ n) :
    parseInt (decimal n) = if n < 2 ^ 31 then some n else none := by
  have hbounds := bounds_of_mem_decimal hn
  have hne := decimal_ne_nil hn
  obtain ⟨m, rfl⟩ := Int.eq_ofNat_of_zero_le hn
  have hdigits : parseDigits (decimal (m : ℤ)) = some m := by
    rw [parseDigits, if_neg hne, decimal_natCast, foldlM_digits fun c hc =>
      Nat.isDigit_of_mem_toDigits (by decide) (by decide) hc, Nat.ofDigitChars_ten_toDigits]
  cases hcut : decimal (m : ℤ) with
  | nil => exact absurd hcut hne
  | cons c rest =>
    have hc := (hbounds c (by rw [hcut]; exact List.mem_cons_self)).1
    rw [parseInt, if_neg (by omega), ← hcut, hdigits, Option.bind_some]
    exact if_congr (by omega) rfl rfl

/-- **A number is read back.** -/
theorem parseInt_decimal {n : ℤ} (hn : 0 ≤ n) (hlt : n < 2 ^ 31) :
    parseInt (decimal n) = some n := by
  rw [parseInt_decimal_eq hn, if_pos hlt]

theorem parseInt_bounds {s : JString} {n : ℤ} (h : parseInt s = some n) :
    -2 ^ 31 ≤ n ∧ n < 2 ^ 31 := by
  have hpos : ∀ s : JString, ((parseDigits s).bind fun n =>
      if n < 2 ^ 31 then some (n : ℤ) else none) = some n → -2 ^ 31 ≤ n ∧ n < 2 ^ 31 := by
    intro s h
    obtain ⟨m, -, hm⟩ := Option.bind_eq_some_iff.mp h
    split at hm
    · obtain rfl := Option.some.inj hm
      omega
    · exact absurd hm (by simp)
  cases s with
  | nil => exact absurd h (by simp [parseInt])
  | cons c rest =>
    rw [parseInt] at h
    split at h
    · split at h
      · obtain ⟨m, -, hm⟩ := Option.bind_eq_some_iff.mp h
        split at hm
        · obtain rfl := Option.some.inj hm
          omega
        · exact absurd hm (by simp)
      · split at h
        · exact hpos _ h
        · exact absurd h (by simp)
    · exact hpos _ h

end Decimal

/-! ## Addresses and networks -/

/-- **An address is read back.** -/
theorem InetAddresses.parse_getHostAddress {net : NetApi} (hnet : net.Documented) {s : JString}
    {a : InetAddress} (h : InetAddresses.parse net s = .ok a) :
    InetAddresses.parse net (net.getHostAddress a) = .ok a := by
  rw [InetAddresses.parse] at h
  split at h
  · exact absurd h (by simp)
  · split at h
    · rename_i a' ha
      obtain rfl := Except.ok.inj h
      rw [InetAddresses.parse, if_neg (hnet.getHostAddress_ne_nil _),
        hnet.parse_getHostAddress s _ ha]
    · exact absurd h (by simp)

theorem InetAddresses.parsingClass_of_error {net : NetApi} {s : JString} {e : ParseException}
    (h : InetAddresses.parse net s = .error e) : e.parsingClass = .inetAddress := by
  rw [InetAddresses.parse] at h
  split at h
  · rw [← Except.error.inj h]
  · split at h
    · exact absurd h (by simp)
    · rw [← Except.error.inj h]

namespace InetNetwork

/-- The longest prefix of an address. -/
def maxMask (address : InetAddress) : ℤ := if address.isInet4 then 32 else 128

theorem maxMask_bounds (a : InetAddress) : 0 ≤ maxMask a ∧ maxMask a ≤ 128 := by
  rw [maxMask]
  split <;> omega

/-- `InetNetwork.parse` behind the cut at the slash. -/
def withMask (net : NetApi) (maskString : JString) (rawMask : ℤ) (rawAddress : JString) :
    Except ParseException InetNetwork :=
  (InetAddresses.parse net rawAddress).bind fun address =>
    if rawMask > maxMask address then .error ⟨.inetNetwork, maskString⟩
    else .ok ⟨address, if rawMask ≥ 0 then rawMask else maxMask address⟩

theorem parse_eq (net : NetApi) (network : JString) :
    parse net network =
      match cutLastSlash network with
      | some (maskString, rawAddress) =>
          match parseInt maskString with
          | some rawMask => withMask net maskString rawMask rawAddress
          | none => .error ⟨.integer, maskString⟩
      | none => withMask net [] (-1) network := by
  rw [parse]
  cases cutLastSlash network with
  | none => rfl
  | some cut =>
    obtain ⟨maskString, rawAddress⟩ := cut
    dsimp only
    cases parseInt maskString <;> rfl

theorem withMask_eq_ok_iff {net : NetApi} {maskString : JString} {rawMask : ℤ}
    {rawAddress : JString} {n : InetNetwork} :
    withMask net maskString rawMask rawAddress = .ok n ↔
      InetAddresses.parse net rawAddress = .ok n.address ∧ rawMask ≤ maxMask n.address ∧
        n.mask = if rawMask ≥ 0 then rawMask else maxMask n.address := by
  obtain ⟨address, mask⟩ := n
  rw [withMask, ExceptFold.bind_eq_ok_iff]
  constructor
  · rintro ⟨address', haddress, h⟩
    split at h
    · exact absurd h (by simp)
    · rename_i hle
      obtain ⟨rfl, rfl⟩ := InetNetwork.mk.inj (Except.ok.inj h)
      exact ⟨haddress, not_lt.mp hle, rfl⟩
  · rintro ⟨haddress, hle, hmask⟩
    refine ⟨address, haddress, ?_⟩
    rw [if_neg (not_lt.mpr hle)]
    exact congrArg Except.ok (congrArg _ hmask.symm)

/-- What is known of a network that was read. -/
theorem of_parse {net : NetApi} {s : JString} {n : InetNetwork} (h : parse net s = .ok n) :
    (∃ s', InetAddresses.parse net s' = .ok n.address) ∧ 0 ≤ n.mask ∧
      n.mask ≤ maxMask n.address := by
  have hmask : ∀ {m : JString} {k : ℤ} {raw : JString}, withMask net m k raw = .ok n →
      (∃ s', InetAddresses.parse net s' = .ok n.address) ∧ 0 ≤ n.mask ∧
        n.mask ≤ maxMask n.address := by
    intro m k raw h
    obtain ⟨haddress, hle, hmask⟩ := withMask_eq_ok_iff.mp h
    refine ⟨⟨raw, haddress⟩, ?_⟩
    rw [hmask]
    split
    · exact ⟨by omega, hle⟩
    · exact ⟨(maxMask_bounds _).1, le_refl _⟩
  rw [parse_eq] at h
  split at h
  · split at h
    · exact hmask h
    · exact absurd h (by simp)
  · exact hmask h

theorem cutLastSlash_append {host digits : JString} (hdigits : ch '/' ∉ digits) :
    cutLastSlash (host ++ [ch '/'] ++ digits) = some (digits, host) := by
  have hrev : (host ++ [ch '/'] ++ digits).reverse = digits.reverse ++ ch '/' :: host.reverse := by
    simp
  have hclass : ∀ c ∈ digits.reverse, decide (c ≠ ch '/') = true := by
    intro c hc
    rw [decide_eq_true_eq]
    rintro rfl
    exact hdigits (List.mem_reverse.mp hc)
  rw [cutLastSlash, if_pos (by simp), hrev, List.takeWhile_append_of_pos hclass,
    List.dropWhile_append_of_pos hclass, List.takeWhile_cons_of_neg (by simp),
    List.dropWhile_cons_of_neg (by simp)]
  simp

/-- **A network is read back.** -/
theorem parse_toJString {net : NetApi} (hnet : net.Documented) {s : JString} {n : InetNetwork}
    (h : parse net s = .ok n) : parse net (n.toJString net) = .ok n := by
  obtain ⟨⟨s', haddress⟩, hlow, hhigh⟩ := of_parse h
  have hmax : n.mask < 2 ^ 31 := by
    have hbounds := maxMask_bounds n.address
    omega
  have hslash : ch '/' ∉ decimal n.mask := notMem_decimal hlow (by decide)
  rw [parse_eq, toJString, cutLastSlash_append hslash]
  dsimp only
  rw [parseInt_decimal hlow hmax]
  exact withMask_eq_ok_iff.mpr ⟨InetAddresses.parse_getHostAddress hnet haddress, hhigh,
    (if_pos hlow).symm⟩

/-- The characters of a network. -/
theorem plain_toJString {net : NetApi} (hnet : net.Documented) {s : JString} {n : InetNetwork}
    (h : parse net s = .ok n) :
    n.toJString net ≠ [] ∧
      ∀ c ∈ n.toJString net, 0x20 < c.toNat ∧ c ≠ ch ',' ∧ c ≠ ch '#' := by
  refine ⟨by simp [toJString], fun c hc => ?_⟩
  rw [toJString, List.mem_append, List.mem_append] at hc
  rcases hc with (hc | hc) | hc
  · exact hnet.getHostAddress_plain _ c hc
  · obtain rfl := List.mem_singleton.mp hc
    decide
  · exact plain_of_mem_decimal (of_parse h).2.1 hc

end InetNetwork

/-! ## Endpoints -/

namespace InetEndpoint

/-- What is known of an endpoint that was read. -/
theorem of_parse {net : NetApi} {s : JString} {ep : InetEndpoint} (h : parse net s = .ok ep) :
    net.uri s = some (some (ep.host, ep.port)) ∧ 0 ≤ ep.port ∧ ep.port ≤ 65535 ∧
      (ep.isResolved = true ↔ ∃ a, InetAddresses.parse net ep.host = .ok a) := by
  rw [parse] at h
  split at h
  · exact absurd h (by simp)
  · split at h
    · exact absurd h (by simp)
    · exact absurd h (by simp)
    · rename_i host port huri
      split at h
      · exact absurd h (by simp)
      · rename_i hport
        rw [not_or] at hport
        have hlow : 0 ≤ port := by omega
        have hhigh : port ≤ 65535 := by omega
        split at h
        · rename_i a ha
          obtain rfl := Except.ok.inj h
          exact ⟨huri, hlow, hhigh, ⟨fun _ => ⟨a, ha⟩, fun _ => rfl⟩⟩
        · rename_i e he
          obtain rfl := Except.ok.inj h
          refine ⟨huri, hlow, hhigh, ⟨fun h => absurd h (by simp), ?_⟩⟩
          rintro ⟨a, ha⟩
          exact absurd (he.symm.trans ha) (by simp)

variable {net : NetApi} (hnet : net.Documented) {s : JString} {ep : InetEndpoint}
  (h : parse net s = .ok ep)

include hnet h

/-- The text of an endpoint. -/
theorem toJString_eq : ep.toJString = ep.host ++ [ch ':'] ++ decimal ep.port := by
  have hbare := hnet.uri_host_brackets _ _ _ (of_parse h).1
  rw [toJString, hbare, Bool.and_false, if_neg (by simp)]

/-- The characters of an endpoint. -/
theorem plain_toJString : ∀ c ∈ ep.toJString, 0x20 < c.toNat ∧ isForbidden c = false := by
  obtain ⟨huri, hlow, -, -⟩ := of_parse h
  intro c hc
  rw [toJString_eq hnet h, List.mem_append, List.mem_append] at hc
  rcases hc with (hc | hc) | hc
  · exact hnet.uri_host_plain _ _ _ huri c hc
  · obtain rfl := List.mem_singleton.mp hc
    decide
  · have hbounds := bounds_of_mem_decimal hlow c hc
    refine ⟨by omega, ?_⟩
    rw [isForbidden, Bool.or_eq_false_iff, Bool.or_eq_false_iff, decide_eq_false_iff_not,
      decide_eq_false_iff_not, decide_eq_false_iff_not]
    refine ⟨⟨?_, ?_⟩, ?_⟩
    all_goals
      rintro rfl
      revert hbounds
      decide

/-- **An endpoint is read back.** -/
theorem parse_toJString : parse net ep.toJString = .ok ep := by
  obtain ⟨huri, hlow, hhigh, hresolved⟩ := of_parse h
  have hforbidden : ep.toJString.any isForbidden = false := by
    rw [List.any_eq_false]
    intro c hc
    simp [(plain_toJString hnet h c hc).2]
  rw [parse, hforbidden, if_neg (by simp), toJString_eq hnet h,
    hnet.uri_host_port _ _ _ huri hlow]
  dsimp only
  rw [if_neg (by omega)]
  obtain ⟨host, isResolved, port⟩ := ep
  cases hhost : InetAddresses.parse net host with
  | ok a =>
    obtain rfl : isResolved = true := hresolved.mpr ⟨a, hhost⟩
    rfl
  | error e =>
    cases isResolved with
    | false => rfl
    | true =>
      obtain ⟨a, ha⟩ := hresolved.mp rfl
      exact absurd (hhost.symm.trans ha) (by simp)

end InetEndpoint

/-! ## Host names -/

/-- The labels of a name and the dots between them. -/
theorem InetAddresses.mem_labels {s : JString} (h : (s.splitOn (ch '.')).all isLabel = true)
    {c : JChar} (hc : c ∈ s) : isAlnum c = true ∨ c = ch '-' ∨ c = ch '.' := by
  have hjoin : joinToString (jstr ".") (s.splitOn (ch '.')) = s := List.intercalate_splitOn _
  rw [← hjoin] at hc
  rcases mem_joinToString hc with hc | ⟨label, hlabel, hc⟩
  · exact Or.inr (Or.inr (List.mem_singleton.mp hc))
  · have hlabel := List.all_eq_true.mp h label hlabel
    simp only [isLabel, Bool.and_eq_true] at hlabel
    have hchar := List.all_eq_true.mp hlabel.1.1.2 c hc
    rw [Bool.or_eq_true, decide_eq_true_eq] at hchar
    exact hchar.imp_right Or.inl

/-- **The characters of a host name.** -/
theorem InetAddresses.mem_hostname {s : JString} (h : isHostname s = true) :
    s ≠ [] ∧ ∀ c ∈ s, isAlnum c = true ∨ c = ch '-' ∨ c = ch '.' := by
  simp only [isHostname, Bool.and_eq_true, decide_eq_true_eq] at h
  obtain ⟨⟨hne, -⟩, hlabels⟩ := h
  refine ⟨hne, fun c hc => ?_⟩
  split at hlabels
  · rename_i hdot
    rcases List.eq_nil_or_concat s with rfl | ⟨front, d, rfl⟩
    · exact absurd rfl hne
    · rw [List.concat_eq_append] at hc hdot hlabels
      rw [List.dropLast_concat] at hlabels
      rcases List.mem_append.mp hc with hc | hc
      · exact mem_labels hlabels hc
      · obtain rfl := List.mem_singleton.mp hc
        obtain rfl : c = ch '.' := by simpa using hdot
        exact Or.inr (Or.inr rfl)
  · exact mem_labels hlabels hc

theorem InetAddresses.plain_of_isHostname {s : JString} (h : isHostname s = true) :
    s ≠ [] ∧ ∀ c ∈ s, 0x20 < c.toNat ∧ c ≠ ch ',' ∧ c ≠ ch '#' := by
  obtain ⟨hne, hchars⟩ := mem_hostname h
  refine ⟨hne, fun c hc => plain_of_le ?_⟩
  rcases hchars c hc with halnum | rfl | rfl
  · simp only [isAlnum, JChar.isUpper, JChar.isLower, JChar.isDigit, Bool.or_eq_true,
      Bool.and_eq_true, decide_eq_true_eq] at halnum
    omega
  · decide
  · decide

/-! ## Sections that were read -/

/-- **What the parser can put into an interface.** -/
structure InterfaceBuilder.Readable (net : NetApi) (b : InterfaceBuilder) : Prop where
  addresses : ∀ n ∈ b.addresses, ∃ s, InetNetwork.parse net s = .ok n
  dnsServers : ∀ a ∈ b.dnsServers, ∃ s, InetAddresses.parse net s = .ok a
  dnsSearchDomains : ∀ d ∈ b.dnsSearchDomains,
    InetAddresses.isHostname d = true ∧ ∃ e, InetAddresses.parse net d = .error e
  excludedApplications : ∀ a ∈ b.excludedApplications, Attribute.IsPiece a
  includedApplications : ∀ a ∈ b.includedApplications, Attribute.IsPiece a
  listenPort : ∀ n ∈ b.listenPort, 0 < n ∧ n ≤ 65535
  mtu : ∀ n ∈ b.mtu, 0 < n ∧ n < 2 ^ 31

/-- **What the parser can put into a peer.** -/
structure PeerBuilder.Readable (net : NetApi) (b : PeerBuilder) : Prop where
  allowedIps : ∀ n ∈ b.allowedIps, ∃ s, InetNetwork.parse net s = .ok n
  endpoint : ∀ ep ∈ b.endpoint, ∃ s, InetEndpoint.parse net s = .ok ep
  persistentKeepalive : ∀ n ∈ b.persistentKeepalive, 0 < n ∧ n ≤ 65535

/-- The lines are such that what is read in them is a value. -/
def CleanLines (lines : List JString) : Prop :=
  ∀ line ∈ lines, ∀ attr, Attribute.parse line = some attr → Attribute.IsValue attr.value

theorem cleanLines_content {raws : List JString} (hraws : ∀ raw ∈ raws, OneLine raw) :
    CleanLines (Config.content raws) := by
  intro line hline attr hattr
  obtain ⟨-, raw, hraw, rfl⟩ := Config.mem_content.mp hline
  exact Attribute.isValue_of_parse (hraws raw hraw) hattr

/-! ### What the builder methods do -/

/-- A number that is absent if it is zero. -/
theorem mem_unless_zero {n m : ℤ} (h : m ∈ if n = 0 then none else some n) : m = n ∧ n ≠ 0 := by
  split at h
  · exact absurd h (by simp)
  · rename_i hne
    exact ⟨(Option.some.inj h).symm, hne⟩

/-- The values of these entries, all of which can be read, have been added to the set. -/
structure Collects {α γ ε : Type} [DecidableEq γ] (read : α → Except ε γ) (entries : List α)
    (s s' : LinkedHashSet γ) : Prop where
  readable : ∀ entry ∈ entries, ∃ c, read entry = .ok c
  mem_iff : ∀ c, c ∈ s' ↔ c ∈ s ∨ ∃ entry ∈ entries, read entry = .ok c

namespace Collects

variable {α γ ε : Type} [DecidableEq γ] {read : α → Except ε γ} {entries entries' : List α}
  {s s₁ s' : LinkedHashSet γ}

theorem nil (read : α → Except ε γ) (s : LinkedHashSet γ) : Collects read [] s s :=
  ⟨by simp, by simp⟩

theorem singleton {entry : α} {c : γ} (h : read entry = .ok c) (s : LinkedHashSet γ) :
    Collects read [entry] s (s.add c) := by
  refine ⟨by simp [h], fun d => ?_⟩
  simp [h, eq_comm]

theorem append (h : Collects read entries s s₁) (h' : Collects read entries' s₁ s') :
    Collects read (entries ++ entries') s s' := by
  constructor
  · intro entry hentry
    exact (List.mem_append.mp hentry).elim (h.readable entry) (h'.readable entry)
  · intro c
    rw [h'.mem_iff, h.mem_iff, or_assoc]
    simp only [List.mem_append, or_and_right, exists_or]

/-- A fold whose steps each add a value to a set. -/
theorem of_foldlM_add {β ε' : Type} {f : β → α → Except ε' β} (put : LinkedHashSet γ → β)
    (hstep : ∀ a s b', f (put s) a = .ok b' → ∃ c, read a = .ok c ∧ b' = put (s.add c))
    {l : List α} {b' : β} (h : l.foldlM f (put s) = .ok b') :
    ∃ s', Collects read l s s' ∧ b' = put s' := by
  induction l generalizing s with
  | nil => exact ⟨s, nil read s, (Except.ok.inj h).symm⟩
  | cons a l ih =>
    rw [List.foldlM_cons] at h
    obtain ⟨b₁, hb₁, hrest⟩ := ExceptFold.exists_of_bind_eq_ok h
    obtain ⟨c, hc, rfl⟩ := hstep a s b₁ hb₁
    obtain ⟨s', hs', rfl⟩ := ih hrest
    exact ⟨s', (singleton hc s).append hs', rfl⟩

/-- A fold whose steps collect. -/
theorem foldlM {β δ ε' : Type} {f : β → δ → Except ε' β} (get : β → LinkedHashSet γ)
    {entriesOf : δ → List α}
    (hstep : ∀ a b b', f b a = .ok b' → Collects read (entriesOf a) (get b) (get b'))
    {l : List δ} {b b' : β} (h : l.foldlM f b = .ok b') :
    Collects read (l.flatMap entriesOf) (get b) (get b') := by
  induction l generalizing b with
  | nil =>
    obtain rfl := Except.ok.inj h
    exact nil read _
  | cons a l ih =>
    rw [List.foldlM_cons] at h
    obtain ⟨b₁, hb₁, hrest⟩ := ExceptFold.exists_of_bind_eq_ok h
    rw [List.flatMap_cons]
    exact (hstep a b b₁ hb₁).append (ih hrest)

/-- An entry that was read, among what was collected. -/
theorem exists_mem (h : Collects read entries s s') {entry : α} (hentry : entry ∈ entries) :
    ∃ c ∈ s', read entry = .ok c := by
  obtain ⟨c, hc⟩ := h.readable entry hentry
  exact ⟨c, (h.mem_iff c).mpr (Or.inr ⟨entry, hentry, hc⟩), hc⟩

/-- What was collected was there, or was read. -/
theorem mem_or_read (h : Collects read entries s s') {c : γ} (hc : c ∈ s') :
    c ∈ s ∨ ∃ entry, read entry = .ok c :=
  ((h.mem_iff c).mp hc).imp_right fun ⟨entry, _, hread⟩ => ⟨entry, hread⟩

end Collects

namespace InterfaceBuilder

variable {net : NetApi} {b b' : InterfaceBuilder} {s : JString}

theorem parseAddresses_eq_ok (h : b.parseAddresses net s = .ok b') :
    ∃ addresses, Collects (InetNetwork.parse net) (Attribute.split s) b.addresses addresses ∧
      b' = { b with addresses := addresses } := by
  rw [parseAddresses] at h
  refine Collects.of_foldlM_add (s := b.addresses) (fun s => { b with addresses := s }) ?_ h
  intro address addresses b₂ hstep
  split at hstep
  · rename_i n hn
    exact ⟨n, hn, (Except.ok.inj hstep).symm⟩
  · exact absurd hstep (by simp)

theorem parseDnsServers_eq_ok (h : b.parseDnsServers net s = .ok b') :
    ∃ servers domains,
      (∀ a ∈ servers, a ∈ b.dnsServers ∨ ∃ t, InetAddresses.parse net t = .ok a) ∧
      (∀ d ∈ domains, d ∈ b.dnsSearchDomains ∨
        InetAddresses.isHostname d = true ∧ ∃ e, InetAddresses.parse net d = .error e) ∧
      b' = { b with dnsServers := servers, dnsSearchDomains := domains } := by
  refine ExceptFold.foldlM_invariant (P := fun b₁ => ∃ servers domains,
      (∀ a ∈ servers, a ∈ b.dnsServers ∨ ∃ t, InetAddresses.parse net t = .ok a) ∧
      (∀ d ∈ domains, d ∈ b.dnsSearchDomains ∨
        InetAddresses.isHostname d = true ∧ ∃ e, InetAddresses.parse net d = .error e) ∧
      b₁ = { b with dnsServers := servers, dnsSearchDomains := domains }) h
    ⟨b.dnsServers, b.dnsSearchDomains, fun a ha => Or.inl ha, fun d hd => Or.inl hd, rfl⟩ ?_
  rintro dnsServer - _ b₂ ⟨servers, domains, hservers, hdomains, rfl⟩ hstep
  split at hstep
  · rename_i a ha
    rw [← Except.ok.inj hstep]
    refine ⟨servers.add a, domains, fun m hm => ?_, hdomains, rfl⟩
    rcases LinkedHashSet.mem_add.mp hm with hm | rfl
    · exact hservers m hm
    · exact Or.inr ⟨dnsServer, ha⟩
  · rename_i e he
    split at hstep
    · exact absurd hstep (by simp)
    · rename_i hhost
      rw [not_or, Bool.not_eq_false] at hhost
      rw [← Except.ok.inj hstep]
      refine ⟨servers, domains.add dnsServer, hservers, fun m hm => ?_, rfl⟩
      rcases LinkedHashSet.mem_add.mp hm with hm | rfl
      · exact hdomains m hm
      · exact Or.inr ⟨hhost.2, e, he⟩

theorem parseListenPort_eq_ok (h : b.parseListenPort s = .ok b') :
    ∃ n : ℤ, 0 ≤ n ∧ n ≤ 65535 ∧
      b' = { b with listenPort := if n = 0 then none else some n } := by
  rw [parseListenPort] at h
  split at h
  · rename_i n _
    rw [setListenPort] at h
    split at h
    · exact absurd h (by simp)
    · exact ⟨n, by omega, by omega, (Except.ok.inj h).symm⟩
  · exact absurd h (by simp)

theorem parseMtu_eq_ok (h : b.parseMtu s = .ok b') :
    ∃ n : ℤ, 0 ≤ n ∧ n < 2 ^ 31 ∧ b' = { b with mtu := if n = 0 then none else some n } := by
  rw [parseMtu] at h
  split at h
  · rename_i n hn
    have hbounds := parseInt_bounds hn
    rw [setMtu] at h
    split at h
    · exact absurd h (by simp)
    · exact ⟨n, by omega, hbounds.2, (Except.ok.inj h).symm⟩
  · exact absurd h (by simp)

theorem parsePrivateKey_eq_ok (h : b.parsePrivateKey s = .ok b') :
    ∃ k, b' = { b with keyPair := some k } := by
  rw [parsePrivateKey] at h
  split at h
  · exact ⟨_, (Except.ok.inj h).symm⟩
  · exact absurd h (by simp)

end InterfaceBuilder

namespace PeerBuilder

variable {net : NetApi} {b b' : PeerBuilder} {s : JString}

theorem parseAllowedIPs_eq_ok (h : b.parseAllowedIPs net s = .ok b') :
    ∃ allowedIps, Collects (InetNetwork.parse net) (Attribute.split s) b.allowedIps allowedIps ∧
      b' = { b with allowedIps := allowedIps } := by
  rw [parseAllowedIPs] at h
  refine Collects.of_foldlM_add (s := b.allowedIps) (fun s => { b with allowedIps := s }) ?_ h
  intro allowedIp allowedIps b₂ hstep
  split at hstep
  · rename_i n hn
    exact ⟨n, hn, (Except.ok.inj hstep).symm⟩
  · exact absurd hstep (by simp)

theorem parseEndpoint_eq_ok (h : b.parseEndpoint net s = .ok b') :
    ∃ ep, InetEndpoint.parse net s = .ok ep ∧ b' = { b with endpoint := some ep } := by
  rw [parseEndpoint] at h
  split at h
  · rename_i ep hep
    exact ⟨ep, hep, (Except.ok.inj h).symm⟩
  · exact absurd h (by simp)

theorem parsePersistentKeepalive_eq_ok (h : b.parsePersistentKeepalive s = .ok b') :
    ∃ n : ℤ, 0 ≤ n ∧ n ≤ 65535 ∧
      b' = { b with persistentKeepalive := if n = 0 then none else some n } := by
  rw [parsePersistentKeepalive] at h
  split at h
  · rename_i n _
    rw [setPersistentKeepalive] at h
    split at h
    · exact absurd h (by simp)
    · exact ⟨n, by omega, by omega, (Except.ok.inj h).symm⟩
  · exact absurd h (by simp)

theorem parsePreSharedKey_eq_ok (h : b.parsePreSharedKey s = .ok b') :
    ∃ k, b' = { b with preSharedKey := some k } := by
  rw [parsePreSharedKey] at h
  split at h
  · exact ⟨_, (Except.ok.inj h).symm⟩
  · exact absurd h (by simp)

theorem parsePublicKey_eq_ok (h : b.parsePublicKey s = .ok b') :
    ∃ k, b' = { b with publicKey := some k } := by
  rw [parsePublicKey] at h
  split at h
  · exact ⟨_, (Except.ok.inj h).symm⟩
  · exact absurd h (by simp)

end PeerBuilder

/-! ### Every line -/

namespace Interface

variable {net : NetApi}

/-- A line without the key leaves the addresses, or the search domains, alone. -/
theorem parseLine_frame {line : JString} {b b' : InterfaceBuilder}
    (h : parseLine net b line = .ok b') :
    ∃ attr, Attribute.parse line = some attr ∧
      (InterfaceKey.ofKey attr.key ≠ some .address → b'.addresses = b.addresses) ∧
      (InterfaceKey.ofKey attr.key ≠ some .dns → b'.dnsSearchDomains = b.dnsSearchDomains) := by
  rw [parseLine] at h
  cases hattr : Attribute.parse line with
  | none =>
    rw [hattr] at h
    exact absurd h (by simp)
  | some attr =>
    refine ⟨attr, rfl, ?_⟩
    rw [hattr] at h
    dsimp only at h
    split at h
    · rename_i hkey
      obtain ⟨addresses, -, rfl⟩ := InterfaceBuilder.parseAddresses_eq_ok h
      exact ⟨fun hne => absurd hkey hne, fun _ => rfl⟩
    · rename_i hkey
      obtain ⟨servers, domains, -, -, rfl⟩ := InterfaceBuilder.parseDnsServers_eq_ok h
      exact ⟨fun _ => rfl, fun hne => absurd hkey hne⟩
    · obtain rfl := Except.ok.inj h
      exact ⟨fun _ => rfl, fun _ => rfl⟩
    · obtain rfl := Except.ok.inj h
      exact ⟨fun _ => rfl, fun _ => rfl⟩
    · obtain ⟨n, -, -, rfl⟩ := InterfaceBuilder.parseListenPort_eq_ok h
      exact ⟨fun _ => rfl, fun _ => rfl⟩
    · obtain ⟨n, -, -, rfl⟩ := InterfaceBuilder.parseMtu_eq_ok h
      exact ⟨fun _ => rfl, fun _ => rfl⟩
    · obtain ⟨k, rfl⟩ := InterfaceBuilder.parsePrivateKey_eq_ok h
      exact ⟨fun _ => rfl, fun _ => rfl⟩
    · exact absurd h (by simp)

/-- **Every line** leaves the builder readable. -/
theorem readable_parseLine {line : JString} (hline : ∀ attr, Attribute.parse line = some attr →
    Attribute.IsValue attr.value) {b b' : InterfaceBuilder} (hb : b.Readable net)
    (h : parseLine net b line = .ok b') : b'.Readable net := by
  rw [parseLine] at h
  split at h
  · exact absurd h (by simp)
  · rename_i attr hattr
    have hpieces : ∀ a ∈ Attribute.split attr.value, Attribute.IsPiece a := fun a ha =>
      Attribute.isPiece_of_mem_split (hline attr hattr) ha
    split at h
    · obtain ⟨addresses, hcollects, rfl⟩ := InterfaceBuilder.parseAddresses_eq_ok h
      exact { hb with addresses := fun n hn => (hcollects.mem_or_read hn).elim (hb.addresses n) id }
    · obtain ⟨servers, domains, hservers, hdomains, rfl⟩ :=
        InterfaceBuilder.parseDnsServers_eq_ok h
      exact { hb with
        dnsServers := fun a ha => (hservers a ha).elim (hb.dnsServers a) id
        dnsSearchDomains := fun d hd => (hdomains d hd).elim (hb.dnsSearchDomains d) id }
    · obtain rfl := Except.ok.inj h
      exact { hb with excludedApplications := fun a ha =>
        (LinkedHashSet.mem_addAll.mp ha).elim (hb.excludedApplications a) (hpieces a) }
    · obtain rfl := Except.ok.inj h
      exact { hb with includedApplications := fun a ha =>
        (LinkedHashSet.mem_addAll.mp ha).elim (hb.includedApplications a) (hpieces a) }
    · obtain ⟨n, hlow, hhigh, rfl⟩ := InterfaceBuilder.parseListenPort_eq_ok h
      refine { hb with listenPort := fun m hm => ?_ }
      obtain ⟨rfl, hne⟩ := mem_unless_zero hm
      omega
    · obtain ⟨n, hlow, hhigh, rfl⟩ := InterfaceBuilder.parseMtu_eq_ok h
      refine { hb with mtu := fun m hm => ?_ }
      obtain ⟨rfl, hne⟩ := mem_unless_zero hm
      omega
    · obtain ⟨k, rfl⟩ := InterfaceBuilder.parsePrivateKey_eq_ok h
      exact { hb with }
    · exact absurd h (by simp)

end Interface

namespace Peer

variable {net : NetApi}

/-- **Every line** leaves the builder readable. -/
theorem readable_parseLine {line : JString} {b b' : PeerBuilder} (hb : b.Readable net)
    (h : parseLine net b line = .ok b') : b'.Readable net := by
  rw [parseLine] at h
  split at h
  · exact absurd h (by simp)
  · dsimp only at h
    split at h
    · obtain ⟨allowedIps, hcollects, rfl⟩ := PeerBuilder.parseAllowedIPs_eq_ok h
      exact { hb with allowedIps := fun n hn =>
        (hcollects.mem_or_read hn).elim (hb.allowedIps n) id }
    split at h
    · obtain ⟨ep, hep, rfl⟩ := PeerBuilder.parseEndpoint_eq_ok h
      refine { hb with endpoint := fun ep' hep' => ?_ }
      obtain rfl := Option.some.inj hep'
      exact ⟨_, hep⟩
    split at h
    · obtain ⟨n, hlow, hhigh, rfl⟩ := PeerBuilder.parsePersistentKeepalive_eq_ok h
      refine { hb with persistentKeepalive := fun m hm => ?_ }
      obtain ⟨rfl, hne⟩ := mem_unless_zero hm
      omega
    split at h
    · obtain ⟨k, rfl⟩ := PeerBuilder.parsePreSharedKey_eq_ok h
      exact { hb with }
    split at h
    · obtain ⟨k, rfl⟩ := PeerBuilder.parsePublicKey_eq_ok h
      exact { hb with }
    · exact absurd h (by simp)

end Peer

end AioVpn
