import AioVpn.Config.Config
import AioVpn.Data.Blocks
import AioVpn.Data.ExceptFold
import AioVpn.Text.Lines

/-!
# The declarative reading of a configuration

`Config.parse` is a loop with a handful of variables.  What it accepts can be said
without them: cut the lines at the headers; nothing stands before the first one, every
header is known and one of them is `[Interface]`; the lines under all `[Interface]`
headers together are an interface, and the lines under each `[Peer]` header are a peer
(`Reads`).  `parseLines_eq_ok_iff` says that this is what the loop computes, and
`parse_eq_parseLines_lines` that it makes no difference whether the text is cut into lines the
Java way or the Kotlin way.
-/

namespace AioVpn
namespace Config

open Blocks

variable (net : NetApi)

/-- The line is a header. -/
def isHeader (line : JString) : Bool := (cleanLine line).head? = some (ch '[')

/-- The line is the header `[Interface]`. -/
def isInterfaceHeader (line : JString) : Bool :=
  JString.equalsIgnoreCase (cleanLine line) (jstr "[Interface]")

/-- The line is the header `[Peer]`. -/
def isPeerHeader (line : JString) : Bool :=
  JString.equalsIgnoreCase (cleanLine line) (jstr "[Peer]")

/-- What the lines say: without comments and surrounding space, empty ones dropped. -/
def content (lines : List JString) : List JString :=
  (lines.map cleanLine).filter fun line => line ≠ []

/-- What stands under the `[Interface]` headers. -/
def interfaceLines (bs : List (JString × List JString)) : List JString :=
  (bs.filter fun b => isInterfaceHeader b.1).flatMap fun b => content b.2

/-- What stands under each `[Peer]` header. -/
def peerBlocks (bs : List (JString × List JString)) : List (List JString) :=
  (bs.filter fun b => isPeerHeader b.1).map fun b => content b.2

/-- The lines under the `[Peer]` headers are these peers. -/
abbrev PeersRead (ls : List (List JString)) (ps : List Peer) : Prop :=
  List.Forall₂ (fun lines p => Peer.parse net lines = .ok p) ls ps

/-- **The declarative reading**, for the lines before the first header and the
blocks. -/
structure ReadsBlocks (front : List JString) (bs : List (JString × List JString))
    (config : Config) : Prop where
  headed : content front = []
  known : ∀ b ∈ bs, isInterfaceHeader b.1 = true ∨ isPeerHeader b.1 = true
  interface : ∃ b ∈ bs, isInterfaceHeader b.1 = true
  interfaze : Interface.parse net (interfaceLines bs) = .ok config.interfaze
  peers : PeersRead net (peerBlocks bs) config.peers

/-- The declarative reading of a list of lines. -/
def Reads (lines : List JString) (config : Config) : Prop :=
  ReadsBlocks net (blocks isHeader lines).1 (blocks isHeader lines).2 config

/-! ## Contents and headers -/

@[simp] theorem content_nil : content [] = [] := rfl

theorem content_cons_of_blank {line : JString} (h : cleanLine line = []) (lines : List JString) :
    content (line :: lines) = content lines := by
  simp [content, h]

theorem content_cons {line : JString} (h : cleanLine line ≠ []) (lines : List JString) :
    content (line :: lines) = cleanLine line :: content lines := by
  simp [content, h]

theorem content_append (l m : List JString) : content (l ++ m) = content l ++ content m := by
  simp [content]

theorem mem_content {line : JString} {lines : List JString} :
    line ∈ content lines ↔ line ≠ [] ∧ ∃ raw ∈ lines, cleanLine raw = line := by
  simp [content, and_comm]

/-- No line is both headers. -/
theorem isPeerHeader_of_isInterfaceHeader {line : JString} (h : isInterfaceHeader line = true) :
    isPeerHeader line = false := by
  rw [isInterfaceHeader, JString.equalsIgnoreCase, beq_iff_eq] at h
  rw [isPeerHeader, JString.equalsIgnoreCase, h]
  decide

/-! ## Peers -/

variable {net}

theorem peersRead_singleton_iff {lines : List JString} {ps : List Peer} :
    PeersRead net [lines] ps ↔ ∃ p, Peer.parse net lines = .ok p ∧ ps = [p] := by
  simp [PeersRead, List.forall₂_cons_left_iff]

theorem peersRead_append_iff {l m : List (List JString)} {qs : List Peer} :
    PeersRead net (l ++ m) qs ↔
      ∃ ps, PeersRead net l ps ∧ ∃ rs, PeersRead net m rs ∧ qs = ps ++ rs := by
  induction l generalizing qs with
  | nil => simp [PeersRead]
  | cons lines l ih =>
    rw [List.cons_append]
    constructor
    · intro h
      obtain ⟨p, qs', hp, hqs', rfl⟩ := List.forall₂_cons_left_iff.mp h
      obtain ⟨ps, hps, rs, hrs, rfl⟩ := ih.mp hqs'
      exact ⟨p :: ps, .cons hp hps, rs, hrs, rfl⟩
    · rintro ⟨_, hps, rs, hrs, rfl⟩
      obtain ⟨p, ps', hp, hps', rfl⟩ := List.forall₂_cons_left_iff.mp hps
      exact .cons hp (ih.mpr ⟨ps', hps', rs, hrs, rfl⟩)

/-! ## The loop -/

variable (net) in
/-- The reading from a state of the loop: `front` is the content of what stands in the
section that is open. -/
structure ReadsFrom (st : Scan) (front : List JString) (bs : List (JString × List JString))
    (config : Config) : Prop where
  headed : st.opened = .none → front = []
  known : ∀ b ∈ bs, isInterfaceHeader b.1 = true ∨ isPeerHeader b.1 = true
  interface : st.seenInterfaceSection = true ∨ ∃ b ∈ bs, isInterfaceHeader b.1 = true
  interfaze : Interface.parse net (st.interfaceLines ++
    ((if st.opened = .interface then front else []) ++ interfaceLines bs)) = .ok config.interfaze
  peers : ∃ ps, PeersRead net
    ((if st.opened = .peer then [st.peerLines ++ front] else []) ++ peerBlocks bs) ps ∧
      config.peers = st.peers ++ ps

/-- The variable `peerLines` is empty outside `[Peer]` sections. -/
def PeerLinesClear (st : Scan) : Prop := st.opened ≠ .peer → st.peerLines = []

theorem closePeer_eq_ok_iff {st st' : Scan} (hst : PeerLinesClear st) :
    closePeer net st = .ok st' ↔
      ∃ ps, PeersRead net (if st.opened = .peer then [st.peerLines] else []) ps ∧
        st' = { st with peers := st.peers ++ ps, peerLines := [] } := by
  obtain ⟨peers, ilines, plines, opened, seen⟩ := st
  cases opened with
  | peer =>
    simp only [closePeer, if_true, peersRead_singleton_iff]
    cases Peer.parse net plines with
    | error e => simp [Except.map]
    | ok p => simp [Except.map, eq_comm]
  | none =>
    obtain rfl : plines = [] := hst (by simp)
    simp [closePeer, eq_comm]
  | interface =>
    obtain rfl : plines = [] := hst (by simp)
    simp [closePeer, eq_comm]

/-- The end of the loop. -/
theorem finish_eq_ok_iff {st : Scan} (hst : PeerLinesClear st) {config : Config} :
    finish net st = .ok config ↔ ReadsFrom net st [] [] config := by
  have hclosed : finish net st = .ok config ↔ ∃ st', closePeer net st = .ok st' ∧
      st'.seenInterfaceSection = true ∧
        Interface.parse net st'.interfaceLines = .ok config.interfaze ∧
          st'.peers = config.peers := by
    obtain ⟨interfaze, peers⟩ := config
    rw [finish, ExceptFold.bind_eq_ok_iff]
    refine exists_congr fun st' => and_congr_right fun _ => ?_
    cases hseen : st'.seenInterfaceSection with
    | false => simp
    | true =>
      cases Interface.parse net st'.interfaceLines with
      | error e => simp [Except.map]
      | ok i => simp [Except.map]
  rw [hclosed]
  constructor
  · rintro ⟨st', hclose, hseen, hinterface, hpeers⟩
    obtain ⟨ps, hps, rfl⟩ := (closePeer_eq_ok_iff hst).mp hclose
    exact ⟨fun _ => rfl, by simp, Or.inl hseen, by simpa [interfaceLines] using hinterface,
      ps, by simpa [peerBlocks] using hps, hpeers.symm⟩
  · rintro ⟨-, -, hseen, hinterface, ps, hps, hpeers⟩
    refine ⟨_, (closePeer_eq_ok_iff hst).mpr ⟨ps, by simpa [peerBlocks] using hps, rfl⟩, ?_, ?_,
      hpeers.symm⟩
    · simpa using hseen
    · simpa [interfaceLines] using hinterface

/-- A line of a section. -/
theorem scanLine_reads_iff {st : Scan} {line : JString} (hblank : cleanLine line ≠ [])
    (hheader : isHeader line = false) {front : List JString}
    {bs : List (JString × List JString)} {config : Config} :
    (∃ st', scanLine net st line = .ok st' ∧ ReadsFrom net st' front bs config) ↔
      ReadsFrom net st (cleanLine line :: front) bs config := by
  have hhead : ¬ (cleanLine line).head? = some (ch '[') := by simpa [isHeader] using hheader
  rw [scanLine, scanClean, if_neg hblank, if_neg hhead]
  obtain ⟨peers, ilines, plines, opened, seen⟩ := st
  cases opened with
  | none =>
    constructor
    · rintro ⟨_, h, -⟩
      exact absurd h (by simp)
    · intro h
      exact absurd (h.headed rfl) (by simp)
  | interface =>
    simp only [Except.ok.injEq, exists_eq_left']
    constructor
    · rintro ⟨-, hknown, hseen, hinterface, hpeers⟩
      exact ⟨by simp, hknown, hseen, by simpa using hinterface, hpeers⟩
    · rintro ⟨-, hknown, hseen, hinterface, hpeers⟩
      exact ⟨by simp, hknown, hseen, by simpa using hinterface, hpeers⟩
  | peer =>
    simp only [Except.ok.injEq, exists_eq_left']
    constructor
    · rintro ⟨-, hknown, hseen, hinterface, hpeers⟩
      exact ⟨by simp, hknown, hseen, hinterface, by simpa using hpeers⟩
    · rintro ⟨-, hknown, hseen, hinterface, hpeers⟩
      exact ⟨by simp, hknown, hseen, hinterface, by simpa using hpeers⟩

theorem interfaceLines_cons (line : JString) (lines : List JString)
    (bs : List (JString × List JString)) :
    interfaceLines ((line, lines) :: bs) =
      (if isInterfaceHeader line then content lines else []) ++ interfaceLines bs := by
  cases h : isInterfaceHeader line <;> simp [interfaceLines, h]

theorem peerBlocks_cons (line : JString) (lines : List JString)
    (bs : List (JString × List JString)) :
    peerBlocks ((line, lines) :: bs) =
      (if isPeerHeader line then [content lines] else []) ++ peerBlocks bs := by
  cases h : isPeerHeader line <;> simp [peerBlocks, h]

/-- A header that opens a section. -/
theorem readsFrom_header_iff {st : Scan} {line : JString} {lines : List JString}
    {bs : List (JString × List JString)} {config : Config} :
    ReadsFrom net st [] ((line, lines) :: bs) config ↔
      ∃ ps, PeersRead net (if st.opened = .peer then [st.peerLines] else []) ps ∧
        ((isInterfaceHeader line = true ∧
            ReadsFrom net { st with peers := st.peers ++ ps, peerLines := [], opened := .interface,
                                    seenInterfaceSection := true } (content lines) bs config) ∨
          (isInterfaceHeader line = false ∧ isPeerHeader line = true ∧
            ReadsFrom net { st with peers := st.peers ++ ps, peerLines := [], opened := .peer }
              (content lines) bs config)) := by
  have hopen : (if st.opened = .peer then [st.peerLines ++ []] else []) =
      if st.opened = .peer then [st.peerLines] else [] := by simp
  constructor
  · rintro ⟨-, hknown, hseen, hinterface, qs, hqs, hpeers⟩
    obtain ⟨hline, hrest⟩ := List.forall_mem_cons.mp hknown
    rw [hopen, peerBlocks_cons, peersRead_append_iff] at hqs
    obtain ⟨ps, hps, rs, hrs, rfl⟩ := hqs
    rw [interfaceLines_cons] at hinterface
    refine ⟨ps, hps, ?_⟩
    cases hi : isInterfaceHeader line with
    | true =>
      have hp := isPeerHeader_of_isInterfaceHeader hi
      refine Or.inl ⟨rfl, ⟨by simp, hrest, Or.inl rfl, ?_, rs, ?_, ?_⟩⟩
      · simpa [hi] using hinterface
      · simpa [hp] using hrs
      · simpa using hpeers
    | false =>
      have hp : isPeerHeader line = true := by simpa [hi] using hline
      refine Or.inr ⟨rfl, hp, ⟨by simp, hrest, ?_, ?_, rs, ?_, ?_⟩⟩
      · refine hseen.imp_right ?_
        rintro ⟨b, hb, hbi⟩
        rcases List.mem_cons.mp hb with rfl | hb
        · exact absurd hbi (by simp [hi])
        · exact ⟨b, hb, hbi⟩
      · simpa [hi] using hinterface
      · simpa [hp] using hrs
      · simpa using hpeers
  · rintro ⟨ps, hps, ⟨hi, hreads⟩ | ⟨hi, hp, hreads⟩⟩
    · obtain ⟨-, hknown, -, hinterface, rs, hrs, hpeers⟩ := hreads
      have hp := isPeerHeader_of_isInterfaceHeader hi
      refine ⟨fun _ => rfl, List.forall_mem_cons.mpr ⟨Or.inl hi, hknown⟩,
        Or.inr ⟨_, List.mem_cons_self, hi⟩, ?_, ps ++ rs, ?_, ?_⟩
      · rw [interfaceLines_cons]
        simpa [hi] using hinterface
      · rw [hopen, peerBlocks_cons, peersRead_append_iff]
        exact ⟨ps, hps, rs, by simpa [hp] using hrs, rfl⟩
      · simpa using hpeers
    · obtain ⟨-, hknown, hseen, hinterface, rs, hrs, hpeers⟩ := hreads
      refine ⟨fun _ => rfl, List.forall_mem_cons.mpr ⟨Or.inr hp, hknown⟩, ?_, ?_, ps ++ rs, ?_, ?_⟩
      · exact hseen.imp_right fun ⟨b, hb, h⟩ => ⟨b, List.mem_cons_of_mem _ hb, h⟩
      · rw [interfaceLines_cons]
        simpa [hi] using hinterface
      · rw [hopen, peerBlocks_cons, peersRead_append_iff]
        exact ⟨ps, hps, rs, by simpa [hp] using hrs, rfl⟩
      · simpa using hpeers

/-- A header. -/
theorem scanLine_header_iff {st : Scan} (hst : PeerLinesClear st) {line : JString}
    (hheader : isHeader line = true) {lines : List JString}
    {bs : List (JString × List JString)} {config : Config} :
    (∃ st', scanLine net st line = .ok st' ∧ ReadsFrom net st' (content lines) bs config) ↔
      ReadsFrom net st [] ((line, lines) :: bs) config := by
  have hhead : (cleanLine line).head? = some (ch '[') := by simpa [isHeader] using hheader
  have hblank : cleanLine line ≠ [] := by
    intro h
    simp [h] at hhead
  have hscan : ∀ st', scanLine net st line = .ok st' ↔ ∃ st₁, closePeer net st = .ok st₁ ∧
      ((isInterfaceHeader line = true ∧
          st' = { st₁ with opened := .interface, seenInterfaceSection := true }) ∨
        (isInterfaceHeader line = false ∧ isPeerHeader line = true ∧
          st' = { st₁ with opened := .peer })) := by
    intro st'
    rw [scanLine, scanClean, if_neg hblank, if_pos hhead, ExceptFold.bind_eq_ok_iff]
    refine exists_congr fun st₁ => and_congr_right fun _ => ?_
    rw [← isInterfaceHeader, ← isPeerHeader]
    cases isInterfaceHeader line <;> cases isPeerHeader line <;> simp [eq_comm]
  simp only [hscan, closePeer_eq_ok_iff hst, readsFrom_header_iff]
  constructor
  · rintro ⟨_, ⟨_, ⟨ps, hps, rfl⟩, ⟨hi, rfl⟩ | ⟨hi, hp, rfl⟩⟩, hreads⟩
    · exact ⟨ps, hps, Or.inl ⟨hi, hreads⟩⟩
    · exact ⟨ps, hps, Or.inr ⟨hi, hp, hreads⟩⟩
  · rintro ⟨ps, hps, ⟨hi, hreads⟩ | ⟨hi, hp, hreads⟩⟩
    · exact ⟨_, ⟨_, ⟨ps, hps, rfl⟩, Or.inl ⟨hi, rfl⟩⟩, hreads⟩
    · exact ⟨_, ⟨_, ⟨ps, hps, rfl⟩, Or.inr ⟨hi, hp, rfl⟩⟩, hreads⟩

/-- Every line keeps `peerLines` empty outside `[Peer]` sections. -/
theorem peerLinesClear_scanLine {st st' : Scan} (hst : PeerLinesClear st) {line : JString}
    (h : scanLine net st line = .ok st') : PeerLinesClear st' := by
  rw [scanLine, scanClean] at h
  split at h
  · rw [← Except.ok.inj h]
    exact hst
  split at h
  · obtain ⟨st₁, hclose, h⟩ := ExceptFold.bind_eq_ok_iff.mp h
    obtain ⟨ps, -, rfl⟩ := (closePeer_eq_ok_iff hst).mp hclose
    split at h
    · rw [← Except.ok.inj h]
      exact fun _ => rfl
    split at h
    · rw [← Except.ok.inj h]
      exact fun _ => rfl
    · exact absurd h (by simp)
  · split at h
    · rename_i hopen
      rw [← Except.ok.inj h]
      exact fun _ => hst (by simp [hopen])
    · rename_i hopen
      rw [← Except.ok.inj h]
      exact fun hne => absurd hopen hne
    · exact absurd h (by simp)

/-- **The loop computes the reading.** -/
theorem foldlM_scanLine_eq_ok_iff (lines : List JString) {st : Scan} (hst : PeerLinesClear st)
    {config : Config} :
    (lines.foldlM (scanLine net) st).bind (finish net) = .ok config ↔
      ReadsFrom net st (content (blocks isHeader lines).1) (blocks isHeader lines).2 config := by
  induction lines generalizing st with
  | nil => exact finish_eq_ok_iff hst
  | cons line lines ih =>
    have hbind : ((line :: lines).foldlM (scanLine net) st).bind (finish net) = .ok config ↔
        ∃ st', scanLine net st line = .ok st' ∧
          ReadsFrom net st' (content (blocks isHeader lines).1) (blocks isHeader lines).2
            config := by
      have hassoc : ((line :: lines).foldlM (scanLine net) st).bind (finish net) =
          (scanLine net st line).bind fun st' =>
            (lines.foldlM (scanLine net) st').bind (finish net) := by
        rw [List.foldlM_cons]
        cases scanLine net st line <;> rfl
      rw [hassoc, ExceptFold.bind_eq_ok_iff]
      refine exists_congr fun st' => and_congr_right fun hscan => ?_
      exact ih (peerLinesClear_scanLine hst hscan)
    rw [hbind]
    by_cases hblank : cleanLine line = []
    · have hheader : isHeader line = false := by simp [isHeader, hblank]
      have hscan : scanLine net st line = .ok st := by simp [scanLine, scanClean, hblank]
      rw [hscan, blocks_cons hheader, content_cons_of_blank hblank]
      simp
    · cases hheader : isHeader line with
      | true =>
        rw [blocks_cons_header hheader]
        exact scanLine_header_iff hst hheader
      | false =>
        rw [blocks_cons hheader, content_cons hblank]
        exact scanLine_reads_iff hblank hheader

/-- **`Config.parse` and its declarative reading**, for a list of lines. -/
theorem parseLines_eq_ok_iff {lines : List JString} {config : Config} :
    parseLines net lines = .ok config ↔ Reads net lines config := by
  rw [parseLines, foldlM_scanLine_eq_ok_iff lines (fun _ => rfl)]
  constructor
  · rintro ⟨hhead, hknown, hseen, hinterface, ps, hps, hpeers⟩
    exact ⟨hhead rfl, hknown, by simpa using hseen, by simpa using hinterface,
      by simpa [hpeers] using hps⟩
  · rintro ⟨hhead, hknown, hseen, hinterface, hpeers⟩
    exact ⟨fun _ => hhead, hknown, Or.inr hseen, by simpa using hinterface, config.peers,
      by simpa using hpeers, rfl⟩

/-- **It makes no difference who cuts the text into lines.** -/
theorem parse_eq_parseLines_lines (text : JString) :
    parse net text = parseLines net (JString.lines text) := by
  rw [parse]
  rcases JString.lines_eq_readLines text with h | h
  · rw [h]
  · have hlast : ∀ st, [[]].foldlM (scanLine net) st = .ok st := fun _ => rfl
    rw [h, parseLines, parseLines, List.foldlM_append]
    cases (JString.readLines text).foldlM (scanLine net) {} with
    | error e => rfl
    | ok st => exact congrArg (Except.bind · (finish net)) (hlast st).symm

/-- **Parsing what was joined.** -/
theorem parse_joinToString {lines : List JString} (hlines : ∀ line ∈ lines, JString.OneLine line) :
    parse net (JString.joinToString (jstr "\n") lines) = parseLines net lines := by
  cases lines with
  | nil => rfl
  | cons line lines =>
    rw [parse_eq_parseLines_lines, JString.lines_joinToString (by simp) hlines]

end Config
end AioVpn
