import AioVpn.Config.Sections

/-!
# The configuration file

`com.wireguard.config.Config`.  `parse` reads the text line by line: everything
from the first `#` on is dropped, the rest is trimmed and empty lines are skipped.
A line that starts with `[` has to be one of the two headers; every other line
belongs to the section that is open.  The lines of all `[Interface]` sections are
collected and parsed together at the end; a `[Peer]` section is parsed when the
next header, or the end of the file, closes it.

`Scan` is the state of that loop.  The two section flags of the source are never
set together, so they are one value, `Opened`.
-/

namespace AioVpn

/-- `Config`. -/
structure Config where
  interfaze : Interface
  peers : List Peer
  deriving DecidableEq

/-- The section a line belongs to: `inInterfaceSection` and `inPeerSection`. -/
inductive Opened where
  | none
  | interface
  | peer
  deriving DecidableEq

/-- The variables of the loop of `Config.parse`. -/
structure Scan where
  /-- The peers parsed so far, in file order. -/
  peers : List Peer := []
  /-- The lines of the interface so far. -/
  interfaceLines : List JString := []
  /-- The lines of the peer section that is open. -/
  peerLines : List JString := []
  opened : Opened := .none
  /-- An `[Interface]` header has occurred. -/
  seenInterfaceSection : Bool := false

namespace Config

/-- A line without its comment, trimmed. -/
def cleanLine (line : JString) : JString :=
  JString.javaTrim (line.takeWhile (· ≠ ch '#'))

/-- Parse the peer section that is open, if one is. -/
def closePeer (net : NetApi) (st : Scan) : Except BadConfigException Scan :=
  match st.opened with
  | .peer => (Peer.parse net st.peerLines).map fun p =>
      { st with peers := st.peers ++ [p], peerLines := [] }
  | _ => .ok st

/-- The body of the loop, on a line without comment and surrounding space. -/
def scanClean (net : NetApi) (st : Scan) (line : JString) : Except BadConfigException Scan :=
  if line = [] then .ok st
  else if line.head? = some (ch '[') then
    (closePeer net st).bind fun st =>
      if JString.equalsIgnoreCase line (jstr "[Interface]") then
        .ok { st with opened := .interface, seenInterfaceSection := true }
      else if JString.equalsIgnoreCase line (jstr "[Peer]") then
        .ok { st with opened := .peer }
      else .error ⟨.config, .topLevel, .unknownSection, some line⟩
  else
    match st.opened with
    | .interface => .ok { st with interfaceLines := st.interfaceLines ++ [line] }
    | .peer => .ok { st with peerLines := st.peerLines ++ [line] }
    | .none => .error ⟨.config, .topLevel, .unknownSection, some line⟩

/-- The body of the loop. -/
def scanLine (net : NetApi) (st : Scan) (line : JString) : Except BadConfigException Scan :=
  scanClean net st (cleanLine line)

/-- What follows the loop: the last peer, the check for an interface, and the
interface itself. -/
def finish (net : NetApi) (st : Scan) : Except BadConfigException Config :=
  (closePeer net st).bind fun st =>
    if st.seenInterfaceSection = false then
      .error ⟨.config, .topLevel, .missingSection, none⟩
    else (Interface.parse net st.interfaceLines).map fun i => ⟨i, st.peers⟩

/-- The loop and what follows it, on the lines of the text. -/
def parseLines (net : NetApi) (lines : List JString) : Except BadConfigException Config :=
  (lines.foldlM (scanLine net) {}).bind (finish net)

/-- `Config.parse`. -/
def parse (net : NetApi) (text : JString) : Except BadConfigException Config :=
  parseLines net (JString.readLines text)

end Config
end AioVpn
