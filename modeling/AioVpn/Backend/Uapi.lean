import AioVpn.Config.Inet
import AioVpn.Data.Blocks

/-!
# The cross-platform interface of WireGuard

How the userspace implementation reads its settings.  The text consists of lines `key=value`,
each with its terminator.  The lines before the first `public_key=` configure the device; each
`public_key=` line starts a new peer, to which the lines up to the next one belong.

The reader is strict: it refuses a line without `=`, a key that it does not know or that does not
belong where it stands, a value that it cannot read, and a key that occurs twice for the same
device or peer, `allowed_ip` excepted.  So what it reads is all there is in the text.

`entries_text` says that entries are read back from their lines, and `read_sections` how the
text of a device and its peers is read.
-/

namespace AioVpn
namespace Uapi

open Blocks

/-- One line: a key and its value. -/
abbrev Entry := JString × JString

/-- A peer. -/
structure Peer where
  publicKey : Key
  allowedIps : List InetNetwork := []
  /-- The host without brackets, and the port. -/
  endpoint : Option (JString × ℤ) := none
  persistentKeepalive : Option ℤ := none
  presharedKey : Option Key := none

/-- The device. -/
structure Device where
  privateKey : Option Key := none
  listenPort : Option ℤ := none
  replacePeers : Bool := false

/-! ## The lines -/

/-- The text of a line, with its terminator. -/
def Entry.text (e : Entry) : JString := e.1 ++ [ch '='] ++ e.2 ++ [ch '\n']

/-- Cut a line at its first `=`. -/
def cutLine (line : JString) : Option Entry :=
  match line.dropWhile (· ≠ ch '=') with
  | [] => none
  | _ :: value => some (line.takeWhile (· ≠ ch '='), value)

/-- The lines of a text; nothing may follow the last terminator. -/
def terminatedLines (text : JString) : Option (List JString) :=
  let lines := text.splitOn (ch '\n')
  if lines.getLast? = some [] then some lines.dropLast else none

/-- The entries of a text. -/
def entries (text : JString) : Option (List Entry) :=
  (terminatedLines text).bind fun lines => lines.mapM cutLine

/-! ## The values -/

/-- A value that has not been set before. -/
def setOnce {α : Type} (old new : Option α) : Option (Option α) :=
  match old with
  | some _ => none
  | none => new.map some

/-- A key. -/
def readKey (value : JString) : Option Key := (Key.fromHex value).toOption

/-- A host without the brackets around it. -/
def unbracket (host : JString) : JString :=
  if host.head? = some (ch '[') ∧ host.getLast? = some (ch ']') then host.tail.dropLast else host

/-- An endpoint: the port stands behind the last colon. -/
def readEndpoint (value : JString) : Option (JString × ℤ) :=
  let port := (value.reverse.takeWhile (· ≠ ch ':')).reverse
  match value.reverse.dropWhile (· ≠ ch ':') with
  | [] => none
  | _ :: host => (JString.parseInt port).map fun p => (unbracket host.reverse, p)

/-- A network. -/
def readNetwork (net : NetApi) (value : JString) : Option InetNetwork :=
  (InetNetwork.parse net value).toOption

/-! ## The sections -/

/-- One line of the device. -/
def readDeviceEntry (d : Device) (e : Entry) : Option Device :=
  if e.1 = jstr "private_key" then
    (setOnce d.privateKey (readKey e.2)).map fun x => { d with privateKey := x }
  else if e.1 = jstr "listen_port" then
    (setOnce d.listenPort (JString.parseInt e.2)).map fun x => { d with listenPort := x }
  else if e.1 = jstr "replace_peers" then
    if d.replacePeers = false ∧ e.2 = jstr "true" then some { d with replacePeers := true }
    else none
  else none

/-- One line of a peer. -/
def readPeerEntry (net : NetApi) (p : Peer) (e : Entry) : Option Peer :=
  if e.1 = jstr "allowed_ip" then
    (readNetwork net e.2).map fun n => { p with allowedIps := p.allowedIps ++ [n] }
  else if e.1 = jstr "endpoint" then
    (setOnce p.endpoint (readEndpoint e.2)).map fun x => { p with endpoint := x }
  else if e.1 = jstr "persistent_keepalive_interval" then
    (setOnce p.persistentKeepalive (JString.parseInt e.2)).map fun x =>
      { p with persistentKeepalive := x }
  else if e.1 = jstr "preshared_key" then
    (setOnce p.presharedKey (readKey e.2)).map fun x => { p with presharedKey := x }
  else none

section Lines

variable (net : NetApi) (d : Device) (p : Peer) (value : JString)

theorem readDeviceEntry_listenPort : readDeviceEntry d (jstr "listen_port", value) =
    (setOnce d.listenPort (JString.parseInt value)).map fun x => { d with listenPort := x } := by
  have hprivate : jstr "listen_port" ≠ jstr "private_key" := by decide
  rw [readDeviceEntry, if_neg hprivate, if_pos rfl]

theorem readPeerEntry_endpoint : readPeerEntry net p (jstr "endpoint", value) =
    (setOnce p.endpoint (readEndpoint value)).map fun x => { p with endpoint := x } := by
  have hallowed : jstr "endpoint" ≠ jstr "allowed_ip" := by decide
  rw [readPeerEntry, if_neg hallowed, if_pos rfl]

theorem readPeerEntry_persistentKeepalive :
    readPeerEntry net p (jstr "persistent_keepalive_interval", value) =
      (setOnce p.persistentKeepalive (JString.parseInt value)).map fun x =>
        { p with persistentKeepalive := x } := by
  have hallowed : jstr "persistent_keepalive_interval" ≠ jstr "allowed_ip" := by decide
  have hendpoint : jstr "persistent_keepalive_interval" ≠ jstr "endpoint" := by decide
  rw [readPeerEntry, if_neg hallowed, if_neg hendpoint, if_pos rfl]

theorem readPeerEntry_presharedKey : readPeerEntry net p (jstr "preshared_key", value) =
    (setOnce p.presharedKey (readKey value)).map fun x => { p with presharedKey := x } := by
  have hallowed : jstr "preshared_key" ≠ jstr "allowed_ip" := by decide
  have hendpoint : jstr "preshared_key" ≠ jstr "endpoint" := by decide
  have hkeepalive : jstr "preshared_key" ≠ jstr "persistent_keepalive_interval" := by decide
  rw [readPeerEntry, if_neg hallowed, if_neg hendpoint, if_neg hkeepalive, if_pos rfl]

end Lines

/-- The entry starts a peer. -/
def startsPeer (e : Entry) : Bool := e.1 = jstr "public_key"

/-- A peer and its lines. -/
def readPeer (net : NetApi) (section_ : Entry × List Entry) : Option Peer :=
  (readKey section_.1.2).bind fun key =>
    section_.2.foldlM (readPeerEntry net) { publicKey := key }

/-- The device and its peers. -/
def readEntries (net : NetApi) (es : List Entry) : Option (Device × List Peer) :=
  ((blocks startsPeer es).1.foldlM readDeviceEntry {}).bind fun device =>
    ((blocks startsPeer es).2.mapM (readPeer net)).map fun peers => (device, peers)

/-- **The reader.** -/
def read (net : NetApi) (text : JString) : Option (Device × List Peer) :=
  (entries text).bind (readEntries net)

/-! ## Reading what was written -/

/-- An entry that fits on a line. -/
structure Entry.IsPlain (e : Entry) : Prop where
  key : ch '=' ∉ e.1
  keyLine : ch '\n' ∉ e.1
  valueLine : ch '\n' ∉ e.2

theorem cutLine_text {e : Entry} (he : ch '=' ∉ e.1) :
    cutLine (e.1 ++ [ch '='] ++ e.2) = some e := by
  have hkey : ∀ c ∈ e.1, decide (c ≠ ch '=') = true := by
    intro c hc
    rw [decide_eq_true_eq]
    rintro rfl
    exact he hc
  have hdrop : (e.1 ++ [ch '='] ++ e.2).dropWhile (· ≠ ch '=') = ch '=' :: e.2 := by
    rw [List.append_assoc, List.dropWhile_append_of_pos hkey]
    rfl
  have htake : (e.1 ++ [ch '='] ++ e.2).takeWhile (· ≠ ch '=') = e.1 := by
    rw [List.append_assoc, List.takeWhile_append_of_pos hkey]
    simp
  rw [cutLine, hdrop, htake]

theorem splitOn_text {es : List Entry} (hes : ∀ e ∈ es, e.IsPlain) :
    (es.flatMap Entry.text).splitOn (ch '\n') =
      es.map (fun e => e.1 ++ [ch '='] ++ e.2) ++ [[]] := by
  induction es with
  | nil => rfl
  | cons e es ih =>
    have he := hes e List.mem_cons_self
    have hline : ch '\n' ∉ e.1 ++ [ch '='] ++ e.2 := by
      rw [List.mem_append, List.mem_append, List.mem_singleton]
      rintro ((h | h) | h)
      · exact he.keyLine h
      · exact absurd h (by decide)
      · exact he.valueLine h
    have htext : (e :: es).flatMap Entry.text =
        (e.1 ++ [ch '='] ++ e.2) ++ ch '\n' :: es.flatMap Entry.text := by
      rw [List.flatMap_cons, Entry.text]
      simp only [List.append_assoc, List.singleton_append]
    rw [htext, List.splitOn_append_cons_self_of_not_mem hline,
      ih fun f hf => hes f (List.mem_cons_of_mem _ hf)]
    rfl

theorem mapM_map {α β γ : Type} {f : β → Option γ} {g : α → β} {h : α → γ} {l : List α}
    (hl : ∀ a ∈ l, f (g a) = some (h a)) : (l.map g).mapM f = some (l.map h) := by
  induction l with
  | nil => rfl
  | cons a l ih =>
    rw [List.map_cons, List.mapM_cons, hl a List.mem_cons_self,
      ih fun b hb => hl b (List.mem_cons_of_mem _ hb)]
    rfl

/-- **Entries are read back from their lines.** -/
theorem entries_text {es : List Entry} (hes : ∀ e ∈ es, e.IsPlain) :
    entries (es.flatMap Entry.text) = some es := by
  have hlines : terminatedLines (es.flatMap Entry.text) =
      some (es.map fun e => e.1 ++ [ch '='] ++ e.2) := by
    rw [terminatedLines, splitOn_text hes]
    rw [if_pos List.getLast?_concat, List.dropLast_concat]
  rw [entries, hlines, Option.bind_some, mapM_map fun e he => cutLine_text (hes e he).key,
    List.map_id']

/-- **How the text of a device and its peers is read.** -/
theorem read_sections (net : NetApi) {device : List Entry} {sections : List (Entry × List Entry)}
    (hplain : ∀ e ∈ device ++ unblocks sections, e.IsPlain)
    (hdevice : ∀ e ∈ device, startsPeer e = false)
    (hsections : ∀ b ∈ sections, startsPeer b.1 = true ∧ ∀ e ∈ b.2, startsPeer e = false) :
    read net ((device ++ unblocks sections).flatMap Entry.text) =
      (device.foldlM readDeviceEntry {}).bind fun d =>
        (sections.mapM (readPeer net)).map fun peers => (d, peers) := by
  rw [read, entries_text hplain, Option.bind_some, readEntries,
    blocks_append_of_not_header hdevice, blocks_unblocks hsections, List.append_nil]

end Uapi
end AioVpn
