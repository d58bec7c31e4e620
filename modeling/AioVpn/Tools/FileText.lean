import AioVpn.Config.RoundTrip
import AioVpn.Text.Utf8
import AioVpn.Tools.WgQuickUp

/-!
# The file that is handed to `wg-quick`

`toWgQuickString` as it lies on the disk: in UTF-8, and read with the functions of C.

The text is a list of lines (`fileLines`), and `getline` returns them one after the other
(`getlines_toWgQuickString`).  Without its blanks the line of an attribute is `key=value`
(`cleanLine_text`), and a list that was joined with `, ` is joined with `,` (`cleanLine_join`).

The names of the applications are the one thing in a configuration that nobody has looked at: the
parser takes what stands between two commas.  Here they are plain, as the names of packages are; a
name with a blank in it loses the blank.
-/

namespace AioVpn

open JString

namespace JString

/-- The bytes of visible characters are visible. -/
theorem lt_of_mem_utf8 {s : JString} {n : ℕ} (hn : n < 0x3f) (hs : ∀ c ∈ s, n < c.toNat) :
    ∀ b ∈ utf8 s, n < b.toNat := by
  intro b hb
  rcases ascii_of_mem_utf8 b hb with (hhigh | rfl) | ⟨c, hc, hascii, rfl⟩
  · omega
  · exact hn
  · rw [JChar.isAscii, decide_eq_true_eq] at hascii
    rw [JChar.byte, BitVec.toNat_ofNat, Nat.mod_eq_of_lt (by omega)]
    exact hs c hc

/-- A class of ASCII characters is a class of bytes. -/
theorem forall_mem_utf8 {P : ℕ → Prop} (hP : ∀ n, P n → n < 0x80) {s : JString}
    (hs : ∀ c ∈ s, P c.toNat) : ∀ b ∈ utf8 s, P b.toNat := by
  intro b hb
  rw [utf8_of_ascii fun c hc => decide_eq_true (hP _ (hs c hc))] at hb
  obtain ⟨c, hc, rfl⟩ := List.mem_map.mp hb
  have hlt := hP _ (hs c hc)
  rw [JChar.byte, BitVec.toNat_ofNat, Nat.mod_eq_of_lt (by omega)]
  exact hs c hc

theorem byte_mem_utf8 {s : JString} {c : JChar} (hc : c.isAscii = true) (hs : c ∈ s) :
    c.byte ∈ utf8 s := by
  obtain ⟨front, back, rfl⟩ := List.append_of_mem hs
  rw [utf8_append_cons front hc]
  exact List.mem_append_right _ List.mem_cons_self

theorem utf8_ne_nil {s : JString} (hs : s ≠ []) : utf8 s ≠ [] := by
  have hchar : ∀ c : JChar, c.utf8 ≠ [] := by
    intro c
    rw [JChar.utf8]
    split_ifs <;> exact List.cons_ne_nil _ _
  fun_cases utf8 s with
  | case1 => exact absurd rfl hs
  | case2 c => exact hchar c
  | case3 c d s => exact List.cons_ne_nil _ _
  | case4 c d s => exact List.append_ne_nil_of_left_ne_nil (hchar c) _

/-- The bytes of a line. -/
def lineBytes (line : JString) : CString := utf8 line ++ [cch '\n']

/-- **A text is encoded line by line.** -/
theorem utf8_flatMap_lines (lines : List JString) :
    utf8 (lines.flatMap fun line => line ++ [ch '\n']) = lines.flatMap lineBytes := by
  induction lines with
  | nil => rfl
  | cons line lines ih =>
    rw [List.flatMap_cons, List.flatMap_cons, List.append_assoc, List.singleton_append,
      utf8_append_cons line (by decide), ih, lineBytes, List.append_assoc]
    rfl

end JString

namespace WgQuick

theorem cleanLine_append (s t : CString) : cleanLine (s ++ t) = cleanLine s ++ cleanLine t :=
  List.filter_append s t

/-- Visible bytes are kept. -/
theorem cleanLine_eq_self {s : CString} (hs : ∀ b ∈ s, 0x20 < b.toNat) : cleanLine s = s := by
  rw [cleanLine, List.filter_eq_self]
  intro b hb
  have hlt := hs b hb
  simp only [CChar.isSpace, Bool.not_eq_true', Bool.or_eq_false_iff, Bool.and_eq_false_iff,
    decide_eq_false_iff_not]
  omega

theorem cleanLine_utf8 {s : JString} (hs : ∀ c ∈ s, 0x20 < c.toNat) :
    cleanLine (utf8 s) = utf8 s :=
  cleanLine_eq_self (lt_of_mem_utf8 (by decide) hs)

end WgQuick

/-! ## Attributes -/

namespace Attribute

/-- The bytes of the items of a list. -/
def items (names : List JString) : CString := [cch ','].intercalate (names.map utf8)

/-- **A list without its blanks.** -/
theorem cleanLine_join {names : List JString} (hnames : ∀ name ∈ names, IsPlain name) :
    WgQuick.cleanLine (utf8 (join names)) = items names := by
  induction names with
  | nil => rfl
  | cons name names ih =>
    rw [List.forall_mem_cons] at hnames
    have hname := WgQuick.cleanLine_utf8 fun c hc => (hnames.1.2 c hc).1
    cases names with
    | nil => rw [join, joinToString_singleton, hname, items, List.map_singleton,
        List.intercalate_singleton]
    | cons next names =>
      have hcut : join (name :: next :: names) =
          name ++ ch ',' :: ch ' ' :: join (next :: names) := by
        rw [join, joinToString_cons_cons, List.append_assoc]
        rfl
      rw [hcut, utf8_append_cons name (by decide), utf8_cons (by decide), WgQuick.cleanLine_append,
        hname, items, List.map_cons, List.map_cons, List.intercalate_cons_cons, List.append_assoc,
        ← List.map_cons, ← items, ← ih hnames.2]
      rfl

theorem comma_notMem {names : List JString} (hnames : ∀ name ∈ names, IsPlain name) :
    ∀ item ∈ names.map utf8, cch ',' ∉ item := by
  intro item hitem
  obtain ⟨name, hname, rfl⟩ := List.mem_map.mp hitem
  exact byte_notMem_utf8 (c := ch ',') (by decide) (by decide) fun hc =>
    ((hnames name hname).2 _ hc).2.1 rfl

theorem items_ne_nil {names : List JString} (hne : names ≠ [])
    (hnames : ∀ name ∈ names, IsPlain name) : items names ≠ [] := by
  cases names with
  | nil => exact absurd rfl hne
  | cons name names =>
    have hname := utf8_ne_nil (hnames name List.mem_cons_self).1
    cases names with
    | nil =>
      rw [items, List.map_singleton, List.intercalate_singleton]
      exact hname
    | cons next names =>
      rw [items, List.map_cons, List.map_cons, List.intercalate_cons_cons, List.append_assoc]
      exact List.append_ne_nil_of_left_ne_nil hname _

/-- The bytes of a key: letters, digits and underscores. -/
theorem key_bytes {key : JString} (hkey : IsKey key) :
    ∀ b ∈ utf8 key, 65 ≤ b.toNat ∧ b.toNat ≤ 90 ∨ 97 ≤ b.toNat ∧ b.toNat ≤ 122 ∨
      48 ≤ b.toNat ∧ b.toNat ≤ 57 ∨ b.toNat = 95 := by
  refine forall_mem_utf8 (P := fun n => 65 ≤ n ∧ n ≤ 90 ∨ 97 ≤ n ∧ n ≤ 122 ∨
    48 ≤ n ∧ n ≤ 57 ∨ n = 95) (fun n hn => by omega) fun c hc => ?_
  have hclass := hkey.2 c hc
  simp only [JChar.isWord, JChar.isUpper, JChar.isLower, JChar.isDigit, Bool.or_eq_true,
    Bool.and_eq_true, decide_eq_true_eq] at hclass
  rcases hclass with ((hclass | hclass) | hclass) | rfl
  · exact Or.inl hclass
  · exact Or.inr (Or.inl hclass)
  · exact Or.inr (Or.inr (Or.inl hclass))
  · exact Or.inr (Or.inr (Or.inr rfl))

theorem sign_notMem_key {key : JString} (hkey : IsKey key) : cch '=' ∉ utf8 key := fun hmem =>
  absurd (key_bytes hkey _ hmem) (by decide)

/-- A line does not begin like a header. -/
theorem exists_head_key {key : JString} (hkey : IsKey key) :
    ∃ b bytes, utf8 key = b :: bytes ∧ CChar.toLower b ≠ (cch '[').toLower ∧ b ≠ cch '[' := by
  have hword : ∀ b : CChar, 65 ≤ b.toNat ∧ b.toNat ≤ 90 ∨ 97 ≤ b.toNat ∧ b.toNat ≤ 122 ∨
      48 ≤ b.toNat ∧ b.toNat ≤ 57 ∨ b.toNat = 95 →
      CChar.toLower b ≠ (cch '[').toLower ∧ b ≠ cch '[' := by
    decide +kernel
  have hbytes := key_bytes hkey
  cases hcut : utf8 key with
  | nil => exact absurd hcut (utf8_ne_nil hkey.1)
  | cons b bytes =>
    rw [hcut] at hbytes
    exact ⟨b, bytes, rfl, hword b (hbytes b List.mem_cons_self)⟩

theorem utf8_text (a : Attribute) :
    utf8 a.text = utf8 a.key ++ cstr " = " ++ utf8 a.value := by
  rw [text, key_value_eq, List.append_assoc, List.singleton_append,
    utf8_append_cons a.key (by decide), utf8_cons (by decide), utf8_cons (by decide),
    List.append_assoc]
  rfl

/-- **The line of an attribute without its blanks.** -/
theorem cleanLine_text {a : Attribute} (hkey : IsKey a.key) :
    WgQuick.cleanLine (lineBytes a.text) =
      utf8 a.key ++ cch '=' :: WgQuick.cleanLine (utf8 a.value) := by
  have hvisible : ∀ c ∈ a.key, 0x20 < c.toNat := by
    intro c hc
    have hbounds := JChar.bounds_of_isWord (hkey.2 c hc)
    omega
  rw [lineBytes, utf8_text, WgQuick.cleanLine_append, WgQuick.cleanLine_append,
    WgQuick.cleanLine_append, WgQuick.cleanLine_utf8 hvisible, List.append_assoc, List.append_assoc]
  have hsign : WgQuick.cleanLine (cstr " = ") = [cch '='] := by decide
  have hend : WgQuick.cleanLine [cch '\n'] = [] := by decide
  rw [hsign, hend, List.append_nil, List.singleton_append]

/-- Visible characters and blanks, and no comment sign. -/
def IsShown (s : JString) : Prop := ∀ c ∈ s, 0x20 ≤ c.toNat ∧ c ≠ ch '#'

theorem IsShown.append {s t : JString} (hs : IsShown s) (ht : IsShown t) : IsShown (s ++ t) :=
  List.forall_mem_append.mpr ⟨hs, ht⟩

theorem isShown_of_lt {s : JString} (hs : ∀ c ∈ s, 0x23 < c.toNat) : IsShown s := by
  intro c hc
  have hlt := hs c hc
  refine ⟨by omega, ?_⟩
  rintro rfl
  exact absurd hlt (by decide)

theorem isShown_join {names : List JString} (hnames : ∀ name ∈ names, IsPlain name) :
    IsShown (join names) := by
  have hseparator : IsShown (jstr ", ") := List.forall_mem_iff_forall_getElem.mpr (by decide)
  intro c hc
  rcases mem_joinToString hc with hc | ⟨name, hname, hc⟩
  · exact hseparator c hc
  · obtain ⟨hlt, -, hcomment⟩ := (hnames name hname).2 c hc
    exact ⟨le_of_lt hlt, hcomment⟩

theorem isShown_text {a : Attribute} (hkey : IsKey a.key) (hvalue : IsShown a.value) :
    IsShown a.text := by
  have hword : IsShown a.key := isShown_of_lt fun c hc => by
    have hbounds := JChar.bounds_of_isWord (hkey.2 c hc)
    omega
  have hsign : IsShown (jstr " = ") := List.forall_mem_iff_forall_getElem.mpr (by decide)
  exact (hword.append hsign).append hvalue

/-- The line is a string: there is no zero in it. -/
theorem IsShown.ofBuffer {line : JString} (hline : IsShown line) :
    CString.ofBuffer (lineBytes line) = lineBytes line := by
  rw [CString.ofBuffer, List.takeWhile_eq_self_iff]
  intro b hb
  rw [decide_eq_true_eq]
  rintro rfl
  rcases List.mem_append.mp hb with hb | hb
  · have hlt := lt_of_mem_utf8 (n := 0x1f) (by decide) (fun c hc => (hline c hc).1) _ hb
    exact absurd hlt (by decide)
  · exact absurd hb (by decide)

/-- `wg` finds no comment on the line, and takes the same characters for blanks as `wg-quick`. -/
theorem IsShown.cleanLine {line : JString} (hline : IsShown line) (libc : Wg.Libc) :
    Wg.cleanLine libc (lineBytes line) = WgQuick.cleanLine (lineBytes line) := by
  have htake : (lineBytes line).takeWhile (· ≠ cch '#') = lineBytes line := by
    rw [List.takeWhile_eq_self_iff]
    intro b hb
    rw [decide_eq_true_eq]
    rintro rfl
    rcases List.mem_append.mp hb with hb | hb
    · exact byte_notMem_utf8 (c := ch '#') (by decide) (by decide)
        (fun hc => (hline _ hc).2 rfl) hb
    · exact absurd hb (by decide)
  rw [Wg.cleanLine, htake, WgQuick.cleanLine]
  simp only [Wg.charIsSpace_eq]

/-- **The lines are read back.** -/
theorem getlines_lineBytes {lines : List JString} (hlines : ∀ line ∈ lines, IsShown line) :
    CString.getlines (lines.flatMap lineBytes) = lines.map lineBytes := by
  have hbytes : ∀ line ∈ lines.map utf8, cch '\n' ∉ line := by
    intro line hline h
    obtain ⟨l, hl, rfl⟩ := List.mem_map.mp hline
    have hlt := lt_of_mem_utf8 (n := 0x1f) (by decide) (fun d hd => (hlines l hl d hd).1) _ h
    exact absurd hlt (by decide)
  have h := CString.getlines_flatMap hbytes
  rw [List.flatMap_map, List.map_map] at h
  exact h

end Attribute

/-! ## What the app writes -/

/-- The applications are given by plain names. -/
def Interface.PlainApplications (i : Interface) : Prop :=
  ∀ name ∈ i.excludedApplications.elems ++ i.includedApplications.elems, Attribute.IsPlain name

section Written

variable {net : NetApi} (hnet : net.Documented)

theorem isShown_decimal {n : ℤ} (hn : 0 ≤ n) : Attribute.IsShown (decimal n) :=
  Attribute.isShown_of_lt fun c hc => by
    have hbounds := bounds_of_mem_decimal hn c hc
    omega

theorem isShown_toBase64 (key : Key) : Attribute.IsShown key.toBase64 :=
  Attribute.isShown_of_lt fun c hc => by
    have hbounds := Key.bounds_of_mem_toBase64 hc
    omega

include hnet

theorem Interface.isShown_attributes {i : Interface} (hi : i.builder.Readable net)
    (hnames : i.PlainApplications) : ∀ a ∈ i.attributes net, Attribute.IsShown a.value := by
  rw [PlainApplications, List.forall_mem_append] at hnames
  simp only [attributes, List.forall_mem_append, Attribute.forall_mem_unless,
    Attribute.forall_mem_elim, List.forall_mem_singleton]
  refine ⟨⟨⟨⟨⟨⟨fun _ => ?_, fun _ => ?_⟩, fun _ => ?_⟩, fun _ => ?_⟩, fun n hn => ?_⟩,
    fun n hn => ?_⟩, ?_⟩
  · exact Attribute.isShown_join (InetNetwork.isPlain_of_mem_map hnet hi.addresses)
  · exact Attribute.isShown_join (isPlain_dns hnet hi)
  · exact Attribute.isShown_join hnames.1
  · exact Attribute.isShown_join hnames.2
  · exact isShown_decimal (le_of_lt (hi.listenPort n hn).1)
  · exact isShown_decimal (le_of_lt (hi.mtu n hn).1)
  · exact isShown_toBase64 _

theorem Peer.isShown_attributes {p : Peer} (hp : p.builder.Readable net) :
    ∀ a ∈ p.attributes net, Attribute.IsShown a.value := by
  simp only [attributes, List.forall_mem_append, Attribute.forall_mem_unless,
    Attribute.forall_mem_elim, List.forall_mem_singleton]
  refine ⟨⟨⟨⟨fun _ => ?_, fun ep hep => ?_⟩, fun n hn => ?_⟩, fun key _ => ?_⟩, ?_⟩
  · exact Attribute.isShown_join (InetNetwork.isPlain_of_mem_map hnet hp.allowedIps)
  · obtain ⟨s, hs⟩ := hp.endpoint ep hep
    intro c hc
    obtain ⟨hlt, hforbidden⟩ := InetEndpoint.plain_toJString hnet hs c hc
    refine ⟨le_of_lt hlt, ?_⟩
    rintro rfl
    exact absurd hforbidden (by decide)
  · exact isShown_decimal (le_of_lt (hp.persistentKeepalive n hn).1)
  · exact isShown_toBase64 _
  · exact isShown_toBase64 _

end Written

/-! ## The lines -/

namespace Config

/-- The lines under a header. -/
def sectionLines (header : JString) (attrs : List Attribute) : List JString :=
  header :: attrs.map Attribute.text

/-- The lines of the file. -/
def fileLines (net : NetApi) (c : Config) : List JString :=
  sectionLines (jstr "[Interface]") (c.interfaze.attributes net) ++
    c.peers.flatMap fun p => [] :: sectionLines (jstr "[Peer]") (p.attributes net)

theorem flatMap_sectionLines (header : JString) (attrs : List Attribute) :
    (sectionLines header attrs).flatMap (fun line => line ++ [ch '\n']) =
      header ++ [ch '\n'] ++ Attribute.toLines attrs := by
  rw [sectionLines, List.flatMap_cons, List.flatMap_map]
  rfl

theorem toWgQuickString_eq (net : NetApi) (c : Config) :
    c.toWgQuickString net = (c.fileLines net).flatMap fun line => line ++ [ch '\n'] := by
  rw [fileLines, List.flatMap_append, flatMap_sectionLines, List.flatMap_assoc]
  simp only [List.flatMap_cons, flatMap_sectionLines]
  rfl

theorem isShown_sectionLines {header : JString} (hheader : Attribute.IsShown header)
    {attrs : List Attribute} (hkeys : ∀ a ∈ attrs, Attribute.IsKey a.key)
    (hvalues : ∀ a ∈ attrs, Attribute.IsShown a.value) :
    ∀ line ∈ sectionLines header attrs, Attribute.IsShown line := by
  intro line hline
  rcases List.mem_cons.mp hline with rfl | hline
  · exact hheader
  · obtain ⟨a, ha, rfl⟩ := List.mem_map.mp hline
    exact Attribute.isShown_text (hkeys a ha) (hvalues a ha)

theorem isShown_peerLines {net : NetApi} (hnet : net.Documented) {peers : List Peer}
    (hpeers : ∀ p ∈ peers, p.builder.Readable net) :
    ∀ line ∈ peers.flatMap fun p => [] :: sectionLines (jstr "[Peer]") (p.attributes net),
      Attribute.IsShown line := by
  intro line hline
  obtain ⟨p, hp, hline⟩ := List.mem_flatMap.mp hline
  rcases List.mem_cons.mp hline with rfl | hline
  · exact List.forall_mem_nil _
  · exact isShown_sectionLines (List.forall_mem_iff_forall_getElem.mpr (by decide))
      (fun a ha => (Peer.isPrintable_attributes hnet (hpeers p hp) a ha).key)
      (Peer.isShown_attributes hnet (hpeers p hp)) line hline

variable {net : NetApi} (hnet : net.Documented) {text : JString} {c : Config}
  (hparse : parse net text = .ok c) (hnames : c.interfaze.PlainApplications)

include hnet hparse hnames

theorem isShown_fileLines : ∀ line ∈ c.fileLines net, Attribute.IsShown line := by
  obtain ⟨hi, hpeers⟩ := readable_of_parse hparse
  refine List.forall_mem_append.mpr ⟨?_, isShown_peerLines hnet hpeers⟩
  exact isShown_sectionLines (List.forall_mem_iff_forall_getElem.mpr (by decide))
    (fun a ha => (Interface.isPrintable_attributes hnet hi a ha).key)
    (Interface.isShown_attributes hnet hi hnames)

/-- **The lines that `getline` returns.** -/
theorem getlines_toWgQuickString :
    CString.getlines (utf8 (c.toWgQuickString net)) = (c.fileLines net).map lineBytes := by
  rw [toWgQuickString_eq, utf8_flatMap_lines,
    Attribute.getlines_lineBytes (isShown_fileLines hnet hparse hnames)]

end Config
end AioVpn
