import AioVpn.Backend.Lifecycle
import AioVpn.Backend.WgQuickBackend
import AioVpn.Text.Lines

/-!
# Runs of `WgQuickBackend`

What holds of the three records of the running tunnels --- the map, the interfaces, and what the
owners were told --- after every run, whatever fails.

* `recorded_run`: the map and the owners agree, and a call that throws has not added a tunnel to the
  map or given one another configuration.
* `one_interface`: while several tunnels are not allowed, there is at most one interface, and it was
  set up from a configuration of the map.  This needs that a failed `wg-quick up` leaves no
  interface behind, and that the shell does not die after it has run a command (`Tidy`).
* `missing_interface_blocks`: a tunnel of the map whose interface is gone stays there for good, and
  from then on no tunnel that is down can be brought up.

## How an interface gets lost

`wg-quick down` deletes the interface and then removes the firewall rules, and exits with the status
of the first step that fails.  When it fails after the interface is gone, `setStateInternal` throws
and the entry stays in the map.  Every later `UP` of a tunnel that is down first takes down all
tunnels of the map, and `wg-quick down` of an interface that is not there fails.  Asking for `DOWN`
does not help: `getState` answers `DOWN`, and the call returns at once.

## The internal step

`Internal` says what one `setStateInternal` can do, and everything else is derived from it.  `Kept`
is a property that these steps keep, when only certain entries are brought up; it holds after a
whole call by `Kept.setState`.
-/

namespace AioVpn

/-- Names that are joined by a blank are found again. -/
theorem JString.split_joinToString_blank {names : List JString} (hne : names ≠ [])
    (hnames : ∀ name ∈ names, isDeviceName name = true) :
    (joinToString [ch ' '] names).split (ch ' ') = names := by
  have hblank : ∀ name ∈ names, name ≠ [] ∧ ch ' ' ∉ name := by
    intro name hname
    have h := hnames name hname
    rw [isDeviceName, Bool.and_eq_true, decide_eq_true_eq, List.all_eq_true] at h
    exact ⟨h.1, fun hmem => absurd (h.2 _ hmem) (by decide)⟩
  have hsplit : (joinToString [ch ' '] names).splitOn (ch ' ') = names :=
    List.splitOn_intercalate (ch ' ') (fun name hname => (hblank name hname).2) hne
  rw [split]
  split
  · rw [hsplit, List.rdropWhile_eq_self_iff]
    intro hl
    rw [List.isEmpty_iff]
    exact (hblank _ (List.getLast_mem hl)).1
  · rename_i hmem
    -- without a blank there is one name
    have hone : (joinToString [ch ' '] names).splitOn (ch ' ') = [joinToString [ch ' '] names] := by
      have h : ([ch ' '].intercalate [joinToString [ch ' '] names]).splitOn (ch ' ') =
          [joinToString [ch ' '] names] :=
        List.splitOn_intercalate (ch ' ') (by simpa using hmem) (by simp)
      rwa [List.intercalate_singleton] at h
    rw [← hone, hsplit]

namespace WgQuickBackend

variable {L : Type}

/-! ## Asking for the state -/

theorem ensureToolsAvailable_spec (env : WgQuickEnv) (s : QuickState L) :
    ∃ tools, (ensureToolsAvailable env s).2 = { s with areToolsAvailable := tools } := by
  unfold ensureToolsAvailable
  split
  · exact ⟨s.areToolsAvailable, rfl⟩
  · exact ⟨some env.extract, rfl⟩

/-- The fields that asking for the state changes. -/
def asked (s : QuickState L) (k : ℕ) (tools : Option Bool) : QuickState L :=
  { s with commands := k, areToolsAvailable := tools }

/-- **What is listed are interfaces**, unless nothing could be found out. -/
theorem getRunningTunnelNames_spec (env : WgQuickEnv) (s : QuickState L) :
    ∃ k tools, (getRunningTunnelNames env s).2 = asked s k tools ∧
      ((getRunningTunnelNames env s).1 = [] ∨
        (getRunningTunnelNames env s).1 = s.links.keys.map Subtype.val) := by
  obtain ⟨tools, htools⟩ := ensureToolsAvailable_spec env s
  unfold getRunningTunnelNames
  generalize ensureToolsAvailable env s = x at htools ⊢
  obtain ⟨ok, s'⟩ := x
  obtain rfl : s' = _ := htools
  cases ok with
  | false => exact ⟨s.commands, tools, rfl, Or.inl rfl⟩
  | true =>
    dsimp only
    split
    · exact ⟨s.commands + 1, tools, rfl, Or.inl rfl⟩
    · unfold WgQuick.showInterfaces
      by_cases hkeys : s.links.keys = []
      · rw [if_pos hkeys]
        exact ⟨s.commands + 1, tools, rfl, Or.inl rfl⟩
      · rw [if_neg hkeys]
        refine ⟨s.commands + 1, tools, rfl, Or.inr ?_⟩
        refine JString.split_joinToString_blank (fun h => hkeys (List.map_eq_nil_iff.mp h)) ?_
        intro name hname
        obtain ⟨d, -, rfl⟩ := List.mem_map.mp hname
        exact d.2

/-- **`getState`** answers `UP` only for a tunnel whose interface is there. -/
theorem getState_spec (env : WgQuickEnv) (tunnel : NamedTunnel) (s : QuickState L) :
    ∃ k tools, (getState env tunnel s).2 = asked s k tools ∧
      ((getState env tunnel s).1 = .down ∨
        (getState env tunnel s).1 = .up ∧ tunnel.device ∈ s.links) := by
  obtain ⟨k, tools, hstate, hnames⟩ := getRunningTunnelNames_spec env s
  unfold getState
  refine ⟨k, tools, hstate, ?_⟩
  dsimp only
  split
  · rename_i hcontains
    have hmem := List.contains_iff_mem.mp hcontains
    refine Or.inr ⟨rfl, ?_⟩
    rcases hnames with h | h
    · rw [h] at hmem
      exact absurd hmem List.not_mem_nil
    · rw [h] at hmem
      obtain ⟨d, hd, hname⟩ := List.mem_map.mp hmem
      obtain rfl : d = tunnel.device := Subtype.ext hname
      exact AList.mem_keys.mpr hd
  · exact Or.inl rfl

/-! ## The internal step -/

/-- What the commands of an unsuccessful step can have done to the interfaces. -/
inductive Disturbed (iface : DeviceName) (text : JString) (links : Links) :
    TunnelState → Links → Prop where
  | same (state : TunnelState) : Disturbed iface text links state links
  | leftBehind (h : iface ∉ links) : Disturbed iface text links .up (links.insert iface text)
  | deleted (h : iface ∈ links) : Disturbed iface text links .down (links.erase iface)

variable (net : NetApi) (notify : NamedTunnel → TunnelState → L → L) (env : WgQuickEnv)

/-- No command leaves an interface behind when it fails, and the shell reports every command that
it has run. -/
def Tidy : Prop := ∀ n, (env.shell n).quick.leftBehind = false ∧ (env.shell n).shell ≠ .diesAfter

/-- No command that fails has changed the interfaces. -/
def Clean : Prop := ∀ n, (env.shell n).quick.leftBehind = false ∧
  (env.shell n).quick.deleted = false ∧ (env.shell n).shell ≠ .diesAfter

/-- How `setStateInternal` can end. -/
inductive Internal (tunnel : NamedTunnel) (config : Option ConfigRef) (s : QuickState L) :
    TunnelState → Except QuickExn Unit × QuickState L → Prop where
  | nullConfig (h : config = none) (state : TunnelState) :
      Internal tunnel config s state (.error .nullPointer, s)
  | failed {c : ConfigRef} (given : config = some c) {state : TunnelState} (e : QuickExn) (k : ℕ)
      {links : Links}
      (disturbed : Disturbed tunnel.device (c.config.toWgQuickString net) s.links state links)
      (tidy : Tidy env → state = .up → links = s.links) (clean : Clean env → links = s.links) :
      Internal tunnel config s state (.error e, { s with commands := k, links := links })
  | up {c : ConfigRef} (given : config = some c) (k : ℕ) (absent : tunnel.device ∉ s.links) :
      Internal tunnel config s .up (.ok (), { s with
        commands := k
        links := s.links.insert tunnel.device (c.config.toWgQuickString net)
        runningConfigs := s.runningConfigs.insert tunnel c
        listeners := notify tunnel .up s.listeners })
  | down {c : ConfigRef} (given : config = some c) (k : ℕ) (present : tunnel.device ∈ s.links) :
      Internal tunnel config s .down (.ok (), { s with
        commands := k
        links := s.links.erase tunnel.device
        runningConfigs := s.runningConfigs.erase tunnel
        listeners := notify tunnel .down s.listeners })

/-- What a run of `wg-quick` does: with status zero, all it is for; else, nothing or a part. -/
structure QuickRun (e : QuickEnv) (iface : DeviceName) (text : JString) (links : Links)
    (state : TunnelState) (x : ℤ × Links) : Prop where
  up : x.1 = 0 → state = .up → iface ∉ links ∧ x.2 = links.insert iface text
  down : x.1 = 0 → state = .down → iface ∈ links ∧ x.2 = links.erase iface
  disturbed : Disturbed iface text links state x.2
  tidy : x.1 ≠ 0 → e.leftBehind = false → state = .up → x.2 = links
  clean : x.1 ≠ 0 → e.leftBehind = false → e.deleted = false → x.2 = links

/-- Nothing is done. -/
theorem QuickRun.idle {e : QuickEnv} {iface : DeviceName} {text : JString} {links : Links}
    {state : TunnelState} {status : ℤ} (h : status ≠ 0) :
    QuickRun e iface text links state (status, links) where
  up h' := absurd h' h
  down h' := absurd h' h
  disturbed := .same state
  tidy _ _ _ := rfl
  clean _ _ _ := rfl

theorem quickRun_up (e : QuickEnv) (iface : DeviceName) (text : JString) (links : Links) :
    QuickRun e iface text links .up (WgQuick.up e iface text links) := by
  unfold WgQuick.up
  split
  · exact .idle (by decide)
  · rename_i habsent
    split
    · exact ⟨fun _ _ => ⟨habsent, rfl⟩, by simp, .leftBehind habsent, by simp, by simp⟩
    · rename_i hstatus
      cases hleft : e.leftBehind with
      | false => exact .idle hstatus
      | true =>
        exact ⟨fun h => absurd h hstatus, by simp, .leftBehind habsent, by simp [hleft],
          by simp [hleft]⟩

theorem quickRun_down (e : QuickEnv) (iface : DeviceName) (text : JString) (links : Links) :
    QuickRun e iface text links .down (WgQuick.down e iface links) := by
  unfold WgQuick.down
  split
  · exact .idle (by decide)
  · rename_i hpresent
    rw [not_not] at hpresent
    split
    · exact ⟨by simp, fun _ _ => ⟨hpresent, rfl⟩, .deleted hpresent, by simp, by simp⟩
    · rename_i hstatus
      cases hdeleted : e.deleted with
      | false => exact .idle hstatus
      | true =>
        exact ⟨by simp, fun h => absurd h hstatus, .deleted hpresent, by simp, by simp [hdeleted]⟩

/-- **One command in the root shell** reports success and has done all it is for, or does not
report success. -/
theorem runWgQuick_spec (e : ShellEnv) {state : TunnelState} (hstate : state = .up ∨ state = .down)
    (iface : DeviceName) (text : JString) (links : Links) :
    ∃ x, QuickRun e.quick iface text links state x ∧
      (runWgQuick e state iface text links = (some x.1, x.2) ∨
        runWgQuick e state iface text links = (none, links) ∨
        e.shell = .diesAfter ∧ runWgQuick e state iface text links = (none, x.2)) := by
  have hquick : QuickRun e.quick iface text links state
      (if state = .up then
        if e.version ≠ 0 then (e.version, links) else WgQuick.up e.quick iface text links
      else WgQuick.down e.quick iface links) := by
    rcases hstate with rfl | rfl
    · rw [if_pos rfl]
      split
      · rename_i hversion
        exact .idle hversion
      · exact quickRun_up e.quick iface text links
    · exact quickRun_down e.quick iface text links
  refine ⟨_, hquick, ?_⟩
  unfold runWgQuick
  cases e.shell with
  | returns => exact Or.inl rfl
  | diesBefore => exact Or.inr (Or.inl rfl)
  | diesAfter => exact Or.inr (Or.inr ⟨rfl, rfl⟩)

/-- **One internal step.** -/
theorem setStateInternal_spec (tunnel : NamedTunnel) (config : Option ConfigRef)
    {state : TunnelState} (hstate : state = .up ∨ state = .down) (s : QuickState L) :
    Internal net notify env tunnel config s state
      (setStateInternal net notify env tunnel config state s) := by
  unfold setStateInternal
  cases config with
  | none => exact .nullConfig rfl state
  | some c =>
    obtain ⟨⟨status, links⟩, hquick, hrun⟩ := runWgQuick_spec (env.shell s.commands) hstate
      tunnel.device (c.config.toWgQuickString net) s.links
    dsimp only
    split
    · exact .failed rfl _ _ (.same state) (fun _ _ => rfl) fun _ => rfl
    · rcases hrun with hrun | hrun | ⟨hdies, hrun⟩ <;> rw [hrun]
      · by_cases hstatus : status = 0
        · dsimp only
          rw [if_neg (not_not.mpr hstatus)]
          rcases hstate with rfl | rfl
          · obtain ⟨habsent, hlinks⟩ := hquick.up hstatus rfl
            obtain rfl : links = _ := hlinks
            exact .up rfl _ habsent
          · obtain ⟨hpresent, hlinks⟩ := hquick.down hstatus rfl
            obtain rfl : links = _ := hlinks
            exact .down rfl _ hpresent
        · dsimp only
          rw [if_pos hstatus]
          exact .failed rfl _ _ hquick.disturbed
            (fun htidy => hquick.tidy hstatus (htidy s.commands).1) fun hclean =>
            hquick.clean hstatus (hclean s.commands).1 (hclean s.commands).2.1
      · exact .failed rfl _ _ (.same state) (fun _ _ => rfl) fun _ => rfl
      · exact .failed rfl _ _ hquick.disturbed (fun htidy => absurd hdies (htidy s.commands).2)
          fun hclean => absurd hdies (hclean s.commands).2.2

/-! ## One call -/

section Call

variable (tunnel : NamedTunnel) (originalState : TunnelState) (originalConfig : Option ConfigRef)
  (snapshot : List QuickEntry) (config : Option ConfigRef)

/-- What is done before the tunnel is brought up, when nothing of it fails. -/
inductive Prepared (s : QuickState L) : QuickState L → Prop where
  /-- All tunnels of the map are taken down. -/
  | cleared (single : s.multipleTunnels = false) (hdown : originalState = .down)
      {rewind : List QuickEntry} {s' : QuickState L}
      (h : takeDown net notify env snapshot [] s = (none, rewind, s')) : Prepared s s'
  /-- The tunnel itself is taken down. -/
  | replaced (hup : originalState = .up) {s' : QuickState L}
      (h : setStateInternal net notify env tunnel (originalConfig.or config) .down s =
        (.ok (), s')) : Prepared s s'
  | beside (several : s.multipleTunnels = true) (hdown : originalState = .down) : Prepared s s

/-- How the `UP` case of `setState` can end. -/
inductive Switched (s : QuickState L) : Except QuickExn TunnelState × QuickState L → Prop where
  /-- A tunnel of the map cannot be taken down. -/
  | notCleared (single : s.multipleTunnels = false) (hdown : originalState = .down) {e : QuickExn}
      {rewind : List QuickEntry} {s' : QuickState L}
      (h : takeDown net notify env snapshot [] s = (some e, rewind, s')) :
      Switched s (.error e, bringBack net notify env rewind s')
  /-- The tunnel itself cannot be taken down. -/
  | notReplaced (hup : originalState = .up) {e : QuickExn} {s' : QuickState L}
      (h : setStateInternal net notify env tunnel (originalConfig.or config) .down s =
        (.error e, s')) : Switched s (.error e, s')
  | up {s₁ s₂ : QuickState L}
      (prepared : Prepared net notify env tunnel originalState originalConfig snapshot config s s₁)
      (h : setStateInternal net notify env tunnel config .up s₁ = (.ok (), s₂)) :
      Switched s (.ok .up, s₂)
  | failed {s₁ s₂ : QuickState L} {e : QuickExn}
      (prepared : Prepared net notify env tunnel originalState originalConfig snapshot config s s₁)
      (h : setStateInternal net notify env tunnel config .up s₁ = (.error e, s₂)) :
      Switched s
        (.error e, restore net notify env tunnel originalState originalConfig snapshot s₂)

theorem switched_of_prepared {s s₁ : QuickState L}
    (h : Prepared net notify env tunnel originalState originalConfig snapshot config s s₁) :
    Switched net notify env tunnel originalState originalConfig snapshot config s
      (match setStateInternal net notify env tunnel config .up s₁ with
        | (.ok (), s) => (.ok .up, s)
        | (.error e, s) =>
            (.error e, restore net notify env tunnel originalState originalConfig snapshot s)) := by
  cases hup : setStateInternal net notify env tunnel config .up s₁ with
  | mk result s₂ =>
    cases result with
    | ok u => exact .up h hup
    | error e => exact .failed h hup

theorem switchTo_spec (horiginal : originalState = .up ∨ originalState = .down)
    (s : QuickState L) :
    Switched net notify env tunnel originalState originalConfig snapshot config s
      (switchTo net notify env tunnel originalState originalConfig snapshot config s) := by
  unfold switchTo
  rcases horiginal with rfl | rfl
  · rw [if_neg (by simp)]
    dsimp only
    rw [if_pos rfl]
    cases hdown : setStateInternal net notify env tunnel (originalConfig.or config) .down s with
    | mk result s₁ =>
      cases result with
      | error e => exact .notReplaced rfl hdown
      | ok u => exact switched_of_prepared net notify env _ _ _ _ _ (.replaced rfl hdown)
  · have hnot : ¬ TunnelState.down = .up := by simp
    cases hmode : s.multipleTunnels with
    | true =>
      rw [if_neg (by simp)]
      dsimp only
      rw [if_neg hnot]
      exact switched_of_prepared net notify env _ _ _ _ _ (.beside hmode rfl)
    | false =>
      rw [if_pos ⟨rfl, rfl⟩]
      cases hdown : takeDown net notify env snapshot [] s with
      | mk failure x =>
        obtain ⟨rewind, s₁⟩ := x
        cases failure with
        | some e => exact .notCleared hmode rfl hdown
        | none =>
          dsimp only
          rw [if_neg hnot]
          exact switched_of_prepared net notify env _ _ _ _ _ (.cleared hmode rfl hdown)

end Call

/-- The state that is asked for, with `TOGGLE` resolved. -/
def requested (state originalState : TunnelState) : TunnelState :=
  if state = .toggle then (if originalState = .up then .down else .up) else state

/-- How `setState` can end. -/
inductive Called (tunnel : NamedTunnel) (state : TunnelState) (config : Option ConfigRef)
    (originalState : TunnelState) (s : QuickState L) :
    Except QuickExn TunnelState × QuickState L → Prop where
  | alreadyUp (hup : originalState = .up) {c : ConfigRef}
      (recorded : s.runningConfigs.lookup tunnel = some c) (given : config = some c) :
      Called tunnel state config originalState s (.ok .up, s)
  | alreadyDown (wanted : requested state originalState = .down) (hdown : originalState = .down) :
      Called tunnel state config originalState s (.ok .down, s)
  | noTools (wanted : requested state originalState = .up) :
      Called tunnel state config originalState s (.error .fileNotFound, s)
  | switched (wanted : requested state originalState = .up)
      {x : Except QuickExn TunnelState × QuickState L}
      (h : Switched net notify env tunnel originalState (s.runningConfigs.lookup tunnel)
        (env.entrySet s.runningConfigs.entries) config s x) :
      Called tunnel state config originalState s x
  | down (wanted : requested state originalState = .down) (hup : originalState = .up)
      {s' : QuickState L}
      (h : setStateInternal net notify env tunnel ((s.runningConfigs.lookup tunnel).or config)
        .down s = (.ok (), s')) :
      Called tunnel state config originalState s (.ok .down, s')
  | notDown (wanted : requested state originalState = .down) (hup : originalState = .up)
      {e : QuickExn} {s' : QuickState L}
      (h : setStateInternal net notify env tunnel ((s.runningConfigs.lookup tunnel).or config)
        .down s = (.error e, s')) :
      Called tunnel state config originalState s (.error e, s')

theorem requested_cases (state originalState : TunnelState) :
    requested state originalState = .up ∨ requested state originalState = .down := by
  unfold requested
  cases state with
  | up => exact Or.inl rfl
  | down => exact Or.inr rfl
  | toggle =>
    rw [if_pos rfl]
    split
    · exact Or.inr rfl
    · exact Or.inl rfl

/-- **One call of `setState`**: what it is told of the tunnel, and how it ends. -/
theorem setState_spec (tunnel : NamedTunnel) (state : TunnelState) (config : Option ConfigRef)
    (s : QuickState L) :
    ∃ originalState k tools,
      (originalState = .down ∨ originalState = .up ∧ tunnel.device ∈ s.links) ∧
      Called net notify env tunnel state config originalState (asked s k tools)
        (setState net notify env tunnel state config s) := by
  obtain ⟨k, tools, hasked, horiginal⟩ := getState_spec env tunnel s
  unfold setState
  generalize getState env tunnel s = x at hasked horiginal ⊢
  obtain ⟨originalState, s₁⟩ := x
  obtain rfl : s₁ = _ := hasked
  have htwo : originalState = .up ∨ originalState = .down :=
    horiginal.elim Or.inr fun h => Or.inl h.1
  dsimp only
  have hrequested : (if state = .toggle then if originalState = .up then .down else .up else state :
      TunnelState) = requested state originalState := rfl
  rw [hrequested]
  split
  · rename_i hsame
    refine ⟨originalState, k, tools, horiginal, ?_⟩
    rcases hsame with ⟨-, rfl, hsome, rfl⟩ | ⟨hwanted, rfl⟩
    · obtain ⟨c, hc⟩ := Option.isSome_iff_exists.mp hsome
      exact .alreadyUp rfl hc hc
    · exact .alreadyDown hwanted rfl
  · rename_i hdifferent
    split
    · rename_i hwanted
      obtain ⟨tools', htools⟩ := ensureToolsAvailable_spec env (asked s k tools)
      generalize ensureToolsAvailable env (asked s k tools) = y at htools ⊢
      obtain ⟨ok, s₂⟩ := y
      obtain rfl : s₂ = asked s k tools' := htools
      refine ⟨originalState, k, tools', horiginal, ?_⟩
      cases ok with
      | false => exact .noTools hwanted
      | true => exact .switched hwanted (switchTo_spec net notify env _ _ _ _ _ htwo _)
    · rename_i hnotUp
      have hwanted := (requested_cases state originalState).resolve_left hnotUp
      have hup : originalState = .up :=
        htwo.resolve_right fun hdown => hdifferent (Or.inr ⟨hwanted, hdown⟩)
      refine ⟨originalState, k, tools, horiginal, ?_⟩
      cases hdown : setStateInternal net notify env tunnel
          (((asked s k tools).runningConfigs.lookup tunnel).or config) .down (asked s k tools) with
      | mk result s₂ =>
        cases result with
        | ok u => exact .down hwanted hup hdown
        | error e => exact .notDown hwanted hup hdown

/-! ## What the steps keep, a call keeps -/

/-- A property that internal steps keep, as long as only tunnels of `D` are taken down and only
entries of `R` are brought up. -/
structure Kept (D : NamedTunnel → Prop) (R : QuickEntry → Prop) (P : QuickState L → Prop) :
    Prop where
  asked : ∀ {s : QuickState L} (k : ℕ) (tools : Option Bool), P s → P (asked s k tools)
  failed : ∀ {tunnel config state} {s s' : QuickState L} {e : QuickExn},
    Internal net notify env tunnel config s state (.error e, s') → P s → P s'
  up : ∀ {tunnel c} {s s' : QuickState L}, R ⟨tunnel, c⟩ →
    Internal net notify env tunnel (some c) s .up (.ok (), s') → P s → P s'
  down : ∀ {tunnel config} {s s' : QuickState L}, D tunnel →
    Internal net notify env tunnel config s .down (.ok (), s') → P s → P s'

section Kept

variable {net notify env} {D : NamedTunnel → Prop} {R : QuickEntry → Prop}
  {P : QuickState L → Prop} (h : Kept net notify env D R P)

include h

theorem Kept.internal_down {tunnel : NamedTunnel} {config : Option ConfigRef} {s s' : QuickState L}
    {r : Except QuickExn Unit} (hD : D tunnel) (hs : P s)
    (hstep : setStateInternal net notify env tunnel config .down s = (r, s')) : P s' := by
  have hspec := setStateInternal_spec net notify env tunnel config (Or.inr rfl) s
  rw [hstep] at hspec
  cases r with
  | error e => exact h.failed hspec hs
  | ok u => exact h.down hD hspec hs

theorem Kept.internal_up {tunnel : NamedTunnel} {config : Option ConfigRef} {s s' : QuickState L}
    {r : Except QuickExn Unit} (hs : P s)
    (hstep : setStateInternal net notify env tunnel config .up s = (r, s'))
    (hR : r = .ok () → ∀ c ∈ config, R ⟨tunnel, c⟩) : P s' := by
  have hspec := setStateInternal_spec net notify env tunnel config (Or.inl rfl) s
  rw [hstep] at hspec
  cases r with
  | error e => exact h.failed hspec hs
  | ok u =>
    cases config with
    | none => exact nomatch hspec
    | some c => exact h.up (hR rfl c rfl) hspec hs

theorem Kept.takeDown {entries : List QuickEntry} (hD : ∀ entry ∈ entries, D entry.1)
    (rewind : List QuickEntry) {s : QuickState L} (hs : P s) :
    P (takeDown net notify env entries rewind s).2.2 := by
  induction entries generalizing rewind s with
  | nil => exact hs
  | cons entry entries ih =>
    rw [List.forall_mem_cons] at hD
    rw [WgQuickBackend.takeDown]
    cases hstep : setStateInternal net notify env entry.1 (some entry.2) .down s with
    | mk r s' =>
      have hs' := h.internal_down hD.1 hs hstep
      cases r with
      | error e => exact hs'
      | ok u => exact ih hD.2 _ hs'

theorem Kept.bringBack {entries : List QuickEntry} (hR : ∀ entry ∈ entries, R entry)
    {s : QuickState L} (hs : P s) : P (bringBack net notify env entries s) := by
  induction entries generalizing s with
  | nil => exact hs
  | cons entry entries ih =>
    rw [List.forall_mem_cons] at hR
    rw [WgQuickBackend.bringBack]
    cases hstep : setStateInternal net notify env entry.1 (some entry.2) .up s with
    | mk r s' =>
      have hs' := h.internal_up hs hstep fun _ c hc => Option.some.inj hc ▸ hR.1
      cases r with
      | error e => exact hs'
      | ok u => exact ih hR.2 hs'

theorem Kept.restore {tunnel : NamedTunnel} {originalState : TunnelState}
    {originalConfig : Option ConfigRef} {snapshot : List QuickEntry}
    (hconfig : ∀ c ∈ originalConfig, R ⟨tunnel, c⟩) (hsnapshot : ∀ entry ∈ snapshot, R entry)
    {s : QuickState L} (hs : P s) :
    P (restore net notify env tunnel originalState originalConfig snapshot s) := by
  unfold WgQuickBackend.restore
  split
  · cases originalConfig with
    | none => exact hs
    | some c => exact h.internal_up hs rfl fun _ => hconfig
  · split
    · exact h.bringBack hsnapshot hs
    · exact hs

end Kept

/-- What was taken down is among the entries. -/
theorem mem_of_mem_rewind {entries rewind : List QuickEntry} {s : QuickState L} {entry : QuickEntry}
    (h : entry ∈ (takeDown net notify env entries rewind s).2.1) :
    entry ∈ rewind ∨ entry ∈ entries := by
  induction entries generalizing rewind s with
  | nil => exact Or.inl h
  | cons first entries ih =>
    rw [takeDown] at h
    cases hstep : setStateInternal net notify env first.1 (some first.2) .down s with
    | mk r s' =>
      rw [hstep] at h
      cases r with
      | error e => exact Or.inl h
      | ok u =>
        rcases ih h with h | h
        · rcases List.mem_append.mp h with h | h
          · exact Or.inl h
          · exact Or.inr (List.mem_cons.mpr (Or.inl (List.mem_singleton.mp h)))
        · exact Or.inr (List.mem_cons_of_mem _ h)

theorem mem_entrySet {s : QuickState L} {entry : QuickEntry} :
    entry ∈ env.entrySet s.runningConfigs.entries ↔
      s.runningConfigs.lookup entry.1 = some entry.2 := by
  rw [(env.perm _).mem_iff]
  exact AList.mem_lookup_iff.symm

section KeptCall

variable {net notify env} {D : NamedTunnel → Prop} {R : QuickEntry → Prop}
  {P : QuickState L → Prop} (h : Kept net notify env D R P) {tunnel : NamedTunnel}
  {state originalState : TunnelState} {config : Option ConfigRef} {s : QuickState L}

include h

theorem Kept.prepared {originalConfig : Option ConfigRef} {snapshot : List QuickEntry}
    {s' : QuickState L} (hD : D tunnel) (hsnapshot : ∀ entry ∈ snapshot, D entry.1) (hs : P s)
    (hp : Prepared net notify env tunnel originalState originalConfig snapshot config s s') :
    P s' := by
  cases hp with
  | cleared _ _ hdown =>
    have hs' := h.takeDown hsnapshot [] hs
    rwa [hdown] at hs'
  | replaced _ hdown => exact h.internal_down hD hs hdown
  | beside => exact hs

/-- **A call** keeps the property when it and the map are of `D`, the tunnels of the map are of `R`
and, unless the call throws, the tunnel with its new configuration is. -/
theorem Kept.called (hs : P s) (hD : D tunnel)
    (hR : ∀ t c, s.runningConfigs.lookup t = some c → D t ∧ R ⟨t, c⟩)
    {r : Except QuickExn TunnelState} {s' : QuickState L}
    (hcall : Called net notify env tunnel state config originalState s (r, s'))
    (hnew : r = .ok .up → ∀ c ∈ config, R ⟨tunnel, c⟩) : P s' := by
  have hsnapshot : ∀ entry ∈ env.entrySet s.runningConfigs.entries, D entry.1 ∧ R entry :=
    fun entry hentry => hR _ _ ((mem_entrySet env).mp hentry)
  have htaken := fun entry hentry => (hsnapshot entry hentry).1
  cases hcall with
  | alreadyUp => exact hs
  | alreadyDown => exact hs
  | noTools => exact hs
  | down _ _ hdown => exact h.internal_down hD hs hdown
  | notDown _ _ hdown => exact h.internal_down hD hs hdown
  | switched _ hswitched =>
    cases hswitched with
    | @notCleared _ _ e rewind s₁ hdown =>
      have hs₁ := h.takeDown htaken [] hs
      rw [hdown] at hs₁
      refine h.bringBack (fun entry hentry => ?_) hs₁
      have hmem : entry ∈ (WgQuickBackend.takeDown net notify env
          (env.entrySet s.runningConfigs.entries) [] s).2.1 := by
        rw [hdown]
        exact hentry
      exact (hsnapshot entry
        ((mem_of_mem_rewind net notify env hmem).resolve_left List.not_mem_nil)).2
    | notReplaced _ hdown => exact h.internal_down hD hs hdown
    | up hprepared hup =>
      exact h.internal_up (h.prepared hD htaken hs hprepared) hup fun _ => hnew rfl
    | failed hprepared hup =>
      exact h.restore (fun c hc => (hR tunnel c hc).2)
        (fun entry hentry => (hsnapshot entry hentry).2)
        (h.internal_up (h.prepared hD htaken hs hprepared) hup fun hok => nomatch hok)

theorem Kept.setState (hs : P s) (hD : D tunnel)
    (hR : ∀ t c, s.runningConfigs.lookup t = some c → D t ∧ R ⟨t, c⟩)
    (hnew : (setState net notify env tunnel state config s).1 = .ok .up →
      ∀ c ∈ config, R ⟨tunnel, c⟩) :
    P (setState net notify env tunnel state config s).2 := by
  obtain ⟨originalState, k, tools, -, hcall⟩ := setState_spec net notify env tunnel state config s
  exact h.called (h.asked k tools hs) hD hR hcall hnew

end KeptCall

/-! ## The map and the owners -/

/-- The last state each tunnel was told. -/
abbrev LastState := NamedTunnel → Option TunnelState

/-- `onStateChange` of a tunnel that remembers what it was told. -/
def remember (tunnel : NamedTunnel) (state : TunnelState) (l : LastState) : LastState :=
  Function.update l tunnel (some state)

/-- Exactly the tunnels of the map were last told `UP`. -/
def Told (s : QuickState LastState) : Prop :=
  ∀ t, s.listeners t = some .up ↔ t ∈ s.runningConfigs

theorem kept_told : Kept net remember env (fun _ => True) (fun _ => True) Told where
  asked _ _ hs := hs
  failed hstep hs := by
    cases hstep with
    | nullConfig => exact hs
    | failed => exact hs
  up {tunnel c s s'} _ hstep hs := by
    cases hstep
    intro t
    dsimp only
    by_cases ht : t = tunnel
    · subst ht
      simp [remember]
    · rw [AList.mem_insert, remember, Function.update_of_ne ht, hs t, or_iff_right ht]
  down {tunnel config s s'} _ hstep hs := by
    cases hstep
    intro t
    dsimp only
    by_cases ht : t = tunnel
    · subst ht
      simp [remember]
    · rw [AList.mem_erase, remember, Function.update_of_ne ht, hs t, and_iff_right ht]

/-- The entries of the map are of `R`. -/
def Within (R : QuickEntry → Prop) (s : QuickState L) : Prop :=
  ∀ t c, s.runningConfigs.lookup t = some c → R ⟨t, c⟩

theorem kept_within (R : QuickEntry → Prop) :
    Kept net notify env (fun _ => True) R (Within R) where
  asked _ _ hs := hs
  failed hstep hs := by
    cases hstep with
    | nullConfig => exact hs
    | failed => exact hs
  up {tunnel c s s'} hR hstep hs := by
    cases hstep with
    | up given k absent =>
      obtain rfl := Option.some.inj given
      intro t c' hc'
      by_cases ht : t = tunnel
      · subst ht
        rw [AList.lookup_insert] at hc'
        exact Option.some.inj hc' ▸ hR
      · rw [AList.lookup_insert_ne ht] at hc'
        exact hs t c' hc'
  down {tunnel config s s'} _ hstep hs := by
    cases hstep
    intro t c' hc'
    by_cases ht : t = tunnel
    · subst ht
      rw [AList.lookup_erase] at hc'
      exact absurd hc' (by simp)
    · rw [AList.lookup_erase_ne ht] at hc'
      exact hs t c' hc'

/-- The tunnels of the map, with their configurations. -/
abbrev Recorded := NamedTunnel → Option ConfigRef

/-- What is recorded. -/
def recorded (s : QuickState L) : Recorded := fun t => s.runningConfigs.lookup t

/-- **One call, seen from the map**: a call that throws can only lose entries. -/
inductive Effect (tunnel : NamedTunnel) (config : Option ConfigRef) (m m' : Recorded) :
    Except QuickExn TunnelState → Prop where
  | threw (e : QuickExn) (others : ∀ t c, m' t = some c → m t = some c) :
      Effect tunnel config m m' (.error e)
  | up {c : ConfigRef} (given : config = some c) (now : m' tunnel = some c)
      (others : ∀ t, t ≠ tunnel → ∀ c', m' t = some c' → m t = some c') :
      Effect tunnel config m m' (.ok .up)
  | down (now : m' = m ∨ m' = Function.update m tunnel none) :
      Effect tunnel config m m' (.ok .down)

theorem recorded_erase (s : QuickState L) (tunnel : NamedTunnel) :
    (fun t => (s.runningConfigs.erase tunnel).lookup t) =
      Function.update (recorded s) tunnel none := by
  funext t
  by_cases ht : t = tunnel
  · subst ht
    rw [AList.lookup_erase, Function.update_self]
  · rw [AList.lookup_erase_ne ht, Function.update_of_ne ht]
    rfl

section Effect

variable {net notify env} {tunnel : NamedTunnel} {state originalState : TunnelState}
  {config : Option ConfigRef} {s : QuickState L}

/-- What can be in the map after a call. -/
theorem within_called {r : Except QuickExn TunnelState} {s' : QuickState L}
    (hcall : Called net notify env tunnel state config originalState s (r, s')) :
    ∀ t c, recorded s' t = some c →
      recorded s t = some c ∨ r = .ok .up ∧ t = tunnel ∧ config = some c :=
  (kept_within net notify env fun entry => recorded s entry.1 = some entry.2 ∨
      r = .ok .up ∧ entry.1 = tunnel ∧ config = some entry.2).called
    (fun _ _ h => Or.inl h) trivial (fun _ _ h => ⟨trivial, Or.inl h⟩) hcall
    fun hr _ hc => Or.inr ⟨hr, rfl, hc⟩

/-- A bring-up that succeeds. -/
theorem recorded_of_up {s' : QuickState L}
    (h : setStateInternal net notify env tunnel config .up s = (.ok (), s')) :
    ∃ c, config = some c ∧ s'.runningConfigs = s.runningConfigs.insert tunnel c := by
  have hspec := setStateInternal_spec net notify env tunnel config (Or.inl rfl) s
  rw [h] at hspec
  cases hspec with
  | up given => exact ⟨_, given, rfl⟩

theorem effect_of_called {r : Except QuickExn TunnelState} {s' : QuickState L}
    (hcall : Called net notify env tunnel state config originalState s (r, s')) :
    Effect tunnel config (recorded s) (recorded s') r := by
  have hwithin := within_called hcall
  have hthrew : ∀ e, r = .error e → Effect tunnel config (recorded s) (recorded s') (.error e) := by
    intro e hr
    refine .threw e fun t c hc => (hwithin t c hc).resolve_right fun h => ?_
    exact absurd (hr.symm.trans h.1) (by simp)
  cases hcall with
  | alreadyUp _ hrecorded given => exact .up given hrecorded fun _ _ _ h => h
  | alreadyDown => exact .down (Or.inl rfl)
  | noTools => exact hthrew _ rfl
  | notDown => exact hthrew _ rfl
  | down _ _ hdown =>
    have hspec := setStateInternal_spec net notify env tunnel
      ((s.runningConfigs.lookup tunnel).or config) (Or.inr rfl) s
    rw [hdown] at hspec
    cases hspec
    exact .down (Or.inr (recorded_erase s tunnel))
  | switched _ hswitched =>
    cases hswitched with
    | notCleared => exact hthrew _ rfl
    | notReplaced => exact hthrew _ rfl
    | failed => exact hthrew _ rfl
    | up _ hup =>
      obtain ⟨c, hc, hmap⟩ := recorded_of_up hup
      refine .up hc ?_ fun t ht c' hc' => (hwithin t c' hc').resolve_right fun h => ht h.2.1
      rw [recorded, hmap, AList.lookup_insert]

end Effect

theorem told_run (events : List Event) {s : QuickState LastState} (hs : Told s) :
    Told (run net remember env events s) := by
  induction events generalizing s with
  | nil => exact hs
  | cons e events ih =>
    refine ih ?_
    cases e with
    | setState tunnel state config =>
      exact (kept_told net env).setState hs trivial (fun _ _ _ => ⟨trivial, trivial⟩)
        fun _ _ _ => trivial
    | setMultipleTunnels on => exact hs
    | outside links => exact hs

/-- **The map is what the owners were told, and a call that throws adds nothing to it.**  After
every run, in which the interfaces may also be changed by someone else: exactly the tunnels of the
map were last told `UP`, and every further call has one of the effects of `Effect`. -/
theorem recorded_run (events : List Event) :
    let s := run net remember env events { listeners := fun _ => none }
    (∀ t, s.listeners t = some .up ↔ (recorded s t).isSome = true) ∧
      ∀ tunnel state config,
        Effect tunnel config (recorded s)
          (recorded (setState net remember env tunnel state config s).2)
          (setState net remember env tunnel state config s).1 := by
  intro s
  constructor
  · intro t
    rw [told_run net env events (fun t => by simp) t, recorded, AList.lookup_isSome]
  · intro tunnel state config
    obtain ⟨originalState, k, tools, -, hcall⟩ :=
      setState_spec net remember env tunnel state config s
    exact effect_of_called (s := asked s k tools) hcall

/-! ## One interface -/

/-- Every interface was set up from a configuration of the map. -/
def Covered (s : QuickState L) : Prop :=
  ∀ d text, s.links.lookup d = some text → ∃ t c, recorded s t = some c ∧ t.device = d ∧
    text = c.config.toWgQuickString net

/-- Fewer interfaces are covered too. -/
theorem Covered.of_erase {net : NetApi} {s : QuickState L} (hs : Covered net s) (k : ℕ)
    (d : DeviceName) : Covered net { s with commands := k, links := s.links.erase d } := by
  intro d' text htext
  by_cases hd : d' = d
  · subst hd
    rw [AList.lookup_erase] at htext
    exact absurd htext (by simp)
  · rw [AList.lookup_erase_ne hd] at htext
    exact hs d' text htext

variable {env} in
theorem kept_covered (htidy : Tidy env) :
    Kept net notify env (fun _ => True) (fun _ => True) (Covered net) where
  asked _ _ hs := hs
  failed {tunnel config state s s' e} hstep hs := by
    cases hstep with
    | nullConfig => exact hs
    | failed _ _ k hdisturbed hup =>
      cases hdisturbed with
      | same => exact hs
      | leftBehind =>
        rw [hup htidy rfl]
        exact hs
      | deleted => exact hs.of_erase k tunnel.device
  up {tunnel c s s'} _ hstep hs := by
    cases hstep with
    | up given k absent =>
      intro d text htext
      by_cases hd : d = tunnel.device
      · subst hd
        rw [AList.lookup_insert] at htext
        exact ⟨tunnel, _, AList.lookup_insert _, rfl, (Option.some.inj htext).symm⟩
      · rw [AList.lookup_insert_ne hd] at htext
        obtain ⟨t, c', hc', rfl, htext'⟩ := hs d text htext
        have ht : t ≠ tunnel := fun h => hd (congrArg NamedTunnel.device h)
        exact ⟨t, c', (AList.lookup_insert_ne ht).trans hc', rfl, htext'⟩
  down {tunnel config s s'} _ hstep hs := by
    cases hstep with
    | down given k present =>
      intro d text htext
      by_cases hd : d = tunnel.device
      · subst hd
        rw [AList.lookup_erase] at htext
        exact absurd htext (by simp)
      · rw [AList.lookup_erase_ne hd] at htext
        obtain ⟨t, c', hc', rfl, htext'⟩ := hs d text htext
        have ht : t ≠ tunnel := fun h => hd (congrArg NamedTunnel.device h)
        exact ⟨t, c', (AList.lookup_erase_ne ht).trans hc', rfl, htext'⟩

/-- Nothing turns the mode. -/
theorem kept_mode (mode : Bool) :
    Kept net notify env (fun _ => True) (fun _ => True) fun s => s.multipleTunnels = mode where
  asked _ _ hs := hs
  failed hstep hs := by
    cases hstep with
    | nullConfig => exact hs
    | failed => exact hs
  up _ hstep hs := by
    cases hstep
    exact hs
  down _ hstep hs := by
    cases hstep
    exact hs

/-- **After the loop over the map** none of the entries visited is in it. -/
theorem recorded_takeDown {entries rewind rewind' : List QuickEntry} {s s' : QuickState L}
    (h : takeDown net notify env entries rewind s = (none, rewind', s')) {t : NamedTunnel}
    {c : ConfigRef} (hc : recorded s' t = some c) :
    recorded s t = some c ∧ ∀ entry ∈ entries, entry.1 ≠ t := by
  induction entries generalizing rewind s with
  | nil =>
    obtain ⟨-, rfl⟩ : rewind = rewind' ∧ s = s' := by simpa [takeDown] using h
    exact ⟨hc, by simp⟩
  | cons first entries ih =>
    rw [takeDown] at h
    have hspec := setStateInternal_spec net notify env first.1 (some first.2) (Or.inr rfl) s
    cases hstep : setStateInternal net notify env first.1 (some first.2) .down s with
    | mk r s₁ =>
      rw [hstep] at h hspec
      cases r with
      | error e => exact absurd (congrArg Prod.fst h) (by simp)
      | ok u =>
        obtain ⟨hc₁, hrest⟩ := ih h
        cases hspec with
        | down given k present =>
          by_cases ht : t = first.1
          · subst ht
            exact absurd (hc₁.symm.trans (AList.lookup_erase _ _)) (by simp)
          · refine ⟨(AList.lookup_erase_ne ht).symm.trans hc₁, fun entry hentry => ?_⟩
            rcases List.mem_cons.mp hentry with rfl | hentry
            · exact fun h => ht h.symm
            · exact hrest entry hentry

/-- What a run keeps while only one tunnel is allowed. -/
structure Single (s : QuickState L) : Prop where
  mode : s.multipleTunnels = false
  covered : Covered net s
  /-- The tunnels of the map have one name. -/
  oneName : ∀ t t', t ∈ s.runningConfigs → t' ∈ s.runningConfigs → t.device = t'.device

section Single

variable {net notify env} (htidy : Tidy env) {s : QuickState L}

theorem mem_iff_recorded {t : NamedTunnel} : t ∈ s.runningConfigs ↔ ∃ c, recorded s t = some c := by
  rw [← AList.lookup_isSome, Option.isSome_iff_exists]
  rfl

/-- The map is a part of one whose tunnels have one name. -/
theorem oneName_of_within {s' : QuickState L}
    (hone : ∀ t t', t ∈ s.runningConfigs → t' ∈ s.runningConfigs → t.device = t'.device)
    (hwithin : ∀ t c, recorded s' t = some c → recorded s t = some c) :
    ∀ t t', t ∈ s'.runningConfigs → t' ∈ s'.runningConfigs → t.device = t'.device := by
  have hmem : ∀ t, t ∈ s'.runningConfigs → t ∈ s.runningConfigs := by
    intro t ht
    obtain ⟨c, hc⟩ := mem_iff_recorded.mp ht
    exact mem_iff_recorded.mpr ⟨c, hwithin t c hc⟩
  exact fun t t' ht ht' => hone t t' (hmem t ht) (hmem t' ht')

/-- **The tunnels of the map keep having one name**: a tunnel that was down is brought up after all
of the map were taken down, and one that was up shares its interface with the map. -/
theorem oneName_called {tunnel : NamedTunnel} {state originalState : TunnelState}
    {config : Option ConfigRef} (hs : Single net s)
    (horiginal : originalState = .down ∨ originalState = .up ∧ tunnel.device ∈ s.links)
    {r : Except QuickExn TunnelState} {s' : QuickState L}
    (hcall : Called net notify env tunnel state config originalState s (r, s')) :
    ∀ t t', t ∈ s'.runningConfigs → t' ∈ s'.runningConfigs → t.device = t'.device := by
  have hwithin := within_called hcall
  by_cases hr : r = .ok .up
  · subst hr
    suffices hall : ∀ t, t ∈ s'.runningConfigs → t.device = tunnel.device from
      fun t t' ht ht' => (hall t ht).trans (hall t' ht').symm
    -- a tunnel whose interface is there shares its name with the map
    have hshared : tunnel.device ∈ s.links →
        ∀ t, t ∈ s'.runningConfigs → t.device = tunnel.device := by
      intro hlink t ht
      obtain ⟨text, htext⟩ := Option.isSome_iff_exists.mp (AList.lookup_isSome.mpr hlink)
      obtain ⟨t₀, c₀, hc₀, hdevice, -⟩ := hs.covered _ _ htext
      obtain ⟨c, hc⟩ := mem_iff_recorded.mp ht
      rcases hwithin t c hc with hc | ⟨-, rfl, -⟩
      · exact (hs.oneName t t₀ (mem_iff_recorded.mpr ⟨c, hc⟩)
          (mem_iff_recorded.mpr ⟨c₀, hc₀⟩)).trans hdevice
      · rfl
    cases hcall with
    | alreadyUp _ hrecorded _ =>
      intro t ht
      exact hs.oneName t tunnel ht (mem_iff_recorded.mpr ⟨_, hrecorded⟩)
    | switched _ hswitched =>
      cases hswitched with
      | up hprepared hup =>
        cases hprepared with
        | replaced horig _ =>
          exact hshared (horiginal.elim (fun h => absurd (h.symm.trans horig) (by simp))
            fun h => h.2)
        | beside several _ => exact absurd (hs.mode.symm.trans several) (by simp)
        | cleared _ _ htaken =>
          intro t ht
          obtain ⟨c, -, hmap⟩ := recorded_of_up hup
          rw [hmap, AList.mem_insert] at ht
          rcases ht with rfl | ht
          · rfl
          · -- nothing of the map is left
            obtain ⟨c', hc'⟩ := mem_iff_recorded.mp ht
            obtain ⟨hbefore, hnone⟩ := recorded_takeDown net notify env htaken hc'
            exact absurd rfl (hnone ⟨t, c'⟩ ((mem_entrySet env).mpr hbefore))
  · exact oneName_of_within hs.oneName fun t c hc => (hwithin t c hc).resolve_right fun h => hr h.1

include htidy in
theorem single_setState (tunnel : NamedTunnel) (state : TunnelState) (config : Option ConfigRef)
    (hs : Single net s) : Single net (setState net notify env tunnel state config s).2 where
  mode := (kept_mode net notify env false).setState hs.mode trivial
    (fun _ _ _ => ⟨trivial, trivial⟩) fun _ _ _ => trivial
  covered := (kept_covered net notify htidy).setState hs.covered trivial
    (fun _ _ _ => ⟨trivial, trivial⟩) fun _ _ _ => trivial
  oneName := by
    obtain ⟨originalState, k, tools, horiginal, hcall⟩ :=
      setState_spec net notify env tunnel state config s
    exact oneName_called (s := asked s k tools) ⟨hs.mode, hs.covered, hs.oneName⟩ horiginal hcall

end Single

/-- The event is a call of `setState`. -/
def Event.IsCall : Event → Prop
  | .setState _ _ _ => True
  | _ => False

theorem single_run (htidy : Tidy env) {events : List Event} (hcalls : ∀ e ∈ events, e.IsCall)
    {s : QuickState L} (hs : Single net s) : Single net (run net notify env events s) := by
  induction events generalizing s with
  | nil => exact hs
  | cons e events ih =>
    rw [List.forall_mem_cons] at hcalls
    refine ih hcalls.2 ?_
    cases e with
    | setState tunnel state config => exact single_setState htidy tunnel state config hs
    | setMultipleTunnels on => exact hcalls.1.elim
    | outside links => exact hcalls.1.elim

variable {env} in
/-- **At most one interface.**  While several tunnels are not allowed, when no failed command leaves
an interface behind and the shell does not die after a command has been run: after every run of
calls, whichever of them fail, there is at most one WireGuard interface, and it was set up from the
text of a configuration that the map has for its tunnel. -/
theorem one_interface (htidy : Tidy env) {events : List Event} (hcalls : ∀ e ∈ events, e.IsCall)
    (l : L) :
    let s := run net notify env events { listeners := l }
    s.links.keys.length ≤ 1 ∧
      ∀ d text, s.links.lookup d = some text → ∃ t c, s.runningConfigs.lookup t = some c ∧
        t.device = d ∧ text = c.config.toWgQuickString net := by
  intro s
  have hinit : Single net ({ listeners := l } : QuickState L) :=
    ⟨rfl, fun d text h => absurd h (by simp), fun t t' h => absurd h (by simp)⟩
  have hs : Single net s := single_run net notify env htidy hcalls hinit
  refine ⟨?_, hs.covered⟩
  -- two interfaces would have two names in the map
  have hsame : ∀ d ∈ s.links.keys, ∀ d' ∈ s.links.keys, d = d' := by
    have hname : ∀ d ∈ s.links.keys, ∃ t ∈ s.runningConfigs, t.device = d := by
      intro d hd
      obtain ⟨text, htext⟩ := Option.isSome_iff_exists.mp
        (AList.lookup_isSome.mpr (AList.mem_keys.mpr hd))
      obtain ⟨t, c, hc, hdevice, -⟩ := hs.covered d text htext
      exact ⟨t, mem_iff_recorded.mpr ⟨c, hc⟩, hdevice⟩
    intro d hd d' hd'
    obtain ⟨t, ht, rfl⟩ := hname d hd
    obtain ⟨t', ht', rfl⟩ := hname d' hd'
    exact hs.oneName t t' ht ht'
  have hnodup := s.links.keys_nodup
  cases hkeys : s.links.keys with
  | nil => simp
  | cons d rest =>
    cases rest with
    | nil => simp
    | cons d' rest =>
      rw [hkeys] at hsame hnodup
      have := hsame d (by simp) d' (by simp)
      simp [this] at hnodup

/-- A tunnel. -/
def wg0 : NamedTunnel := ⟨⟨0, jstr "wg0"⟩, by decide⟩

/-- Another tunnel. -/
def wg1 : NamedTunnel := ⟨⟨1, jstr "wg1"⟩, by decide⟩

/-- Nobody listens. -/
def ignore (_ : NamedTunnel) (_ : TunnelState) (_ : Unit) : Unit := ()

/-- The first tunnel is brought up, and then the other one. -/
def oneAfterTheOther : List Event :=
  [.setState wg0 .up (some (GoBackend.bareConfig 1)),
    .setState wg1 .up (some (GoBackend.bareConfig 2))]

theorem one_interface_oneAfterTheOther :
    let s := run GoBackend.noAddresses ignore {} oneAfterTheOther { listeners := () }
    s.links.keys = [wg1.device] ∧
      s.links.keys.length ≤ 1 ∧
      ∀ d text, s.links.lookup d = some text → ∃ t c, s.runningConfigs.lookup t = some c ∧
        t.device = d ∧ text = c.config.toWgQuickString GoBackend.noAddresses := by
  intro s
  refine ⟨by decide +kernel, ?_⟩
  refine one_interface GoBackend.noAddresses ignore (fun n => ⟨rfl, by simp⟩) ?_ ()
  intro e he
  rcases List.mem_pair.mp he with rfl | rfl
  · trivial
  · trivial

/-! ## A missing interface -/

/-- The tunnel is in the map and its interface is not there. -/
structure Missing (t : NamedTunnel) (s : QuickState L) : Prop where
  mode : s.multipleTunnels = false
  recorded : t ∈ s.runningConfigs
  missing : t.device ∉ s.links

section Missing

variable {net notify env} {t : NamedTunnel} {s : QuickState L}

/-- A step for a tunnel with another name does not touch it. -/
theorem Missing.of_internal (hs : Missing t s) {tunnel : NamedTunnel} {config : Option ConfigRef}
    {state : TunnelState} (hne : tunnel.device ≠ t.device) {r : Except QuickExn Unit}
    {s' : QuickState L} (h : Internal net notify env tunnel config s state (r, s')) :
    Missing t s' := by
  have ht : t ≠ tunnel := fun h => hne (congrArg NamedTunnel.device h.symm)
  have hinsert : ∀ text, t.device ∉ s.links.insert tunnel.device text := by
    intro text
    rw [AList.mem_insert]
    exact fun h => h.elim (fun h => hne h.symm) hs.missing
  have herase : t.device ∉ s.links.erase tunnel.device := by
    rw [AList.mem_erase]
    exact fun h => hs.missing h.2
  cases h with
  | nullConfig => exact hs
  | failed _ _ _ hdisturbed =>
    refine ⟨hs.mode, hs.recorded, ?_⟩
    cases hdisturbed with
    | same => exact hs.missing
    | leftBehind => exact hinsert _
    | deleted => exact herase
  | up => exact ⟨hs.mode, (AList.mem_insert _).mpr (Or.inr hs.recorded), hinsert _⟩
  | down => exact ⟨hs.mode, AList.mem_erase.mpr ⟨ht, hs.recorded⟩, herase⟩

theorem Missing.up (hs : Missing t s) {tunnel : NamedTunnel} {config : Option ConfigRef}
    (hne : tunnel.device ≠ t.device) {r : Except QuickExn Unit} {s' : QuickState L}
    (h : setStateInternal net notify env tunnel config .up s = (r, s')) : Missing t s' := by
  have hspec := setStateInternal_spec net notify env tunnel config (Or.inl rfl) s
  rw [h] at hspec
  exact hs.of_internal hne hspec

/-- **Taking down** a tunnel with the missing interface fails, and does not help. -/
theorem Missing.down (hs : Missing t s) {tunnel : NamedTunnel} {config : Option ConfigRef}
    {r : Except QuickExn Unit} {s' : QuickState L}
    (h : setStateInternal net notify env tunnel config .down s = (r, s')) :
    Missing t s' ∧ (tunnel.device = t.device → ∃ e, r = .error e) := by
  have hspec := setStateInternal_spec net notify env tunnel config (Or.inr rfl) s
  rw [h] at hspec
  by_cases hne : tunnel.device = t.device
  · cases hspec with
    | nullConfig => exact ⟨hs, fun _ => ⟨_, rfl⟩⟩
    | failed _ e _ hdisturbed =>
      refine ⟨⟨hs.mode, hs.recorded, ?_⟩, fun _ => ⟨e, rfl⟩⟩
      cases hdisturbed with
      | same => exact hs.missing
      | deleted hpresent => exact absurd (hne ▸ hpresent) hs.missing
    | down _ _ present => exact absurd (hne ▸ present) hs.missing
  · exact ⟨hs.of_internal hne hspec, fun h => absurd h hne⟩

/-- **The loop over the map** fails at the latest at the missing interface. -/
theorem Missing.takeDown (hs : Missing t s) {entries rewind : List QuickEntry} {c : ConfigRef}
    (hentry : ⟨t, c⟩ ∈ entries) (hrewind : ∀ entry ∈ rewind, entry.1.device ≠ t.device) :
    ∃ e rewind' s', takeDown net notify env entries rewind s = (some e, rewind', s') ∧
      Missing t s' ∧ ∀ entry ∈ rewind', entry.1.device ≠ t.device := by
  induction entries generalizing rewind s with
  | nil => exact absurd hentry List.not_mem_nil
  | cons first entries ih =>
    rw [WgQuickBackend.takeDown]
    cases hstep : setStateInternal net notify env first.1 (some first.2) .down s with
    | mk r s₁ =>
      obtain ⟨hs₁, hfails⟩ := hs.down hstep
      cases r with
      | error e => exact ⟨e, rewind, s₁, rfl, hs₁, hrewind⟩
      | ok u =>
        have hne : first.1.device ≠ t.device := fun h => by
          obtain ⟨e, he⟩ := hfails h
          exact absurd he (by simp)
        have hrest : ⟨t, c⟩ ∈ entries := by
          rcases List.mem_cons.mp hentry with rfl | h
          · exact absurd rfl hne
          · exact h
        refine ih hs₁ hrest fun entry hmem => ?_
        rcases List.mem_append.mp hmem with hmem | hmem
        · exact hrewind entry hmem
        · rw [List.mem_singleton.mp hmem]
          exact hne

theorem Missing.bringBack (hs : Missing t s) {entries : List QuickEntry}
    (hentries : ∀ entry ∈ entries, entry.1.device ≠ t.device) :
    Missing t (bringBack net notify env entries s) := by
  induction entries generalizing s with
  | nil => exact hs
  | cons first entries ih =>
    rw [List.forall_mem_cons] at hentries
    rw [WgQuickBackend.bringBack]
    cases hstep : setStateInternal net notify env first.1 (some first.2) .up s with
    | mk r s₁ =>
      have hs₁ := hs.up hentries.1 hstep
      cases r with
      | error e => exact hs₁
      | ok u => exact ih hs₁ hentries.2

/-- **One call** leaves the interface missing, and does not bring up a tunnel that is down. -/
theorem Missing.called (hs : Missing t s) {tunnel : NamedTunnel} {state originalState : TunnelState}
    {config : Option ConfigRef}
    (horiginal : originalState = .down ∨ originalState = .up ∧ tunnel.device ∈ s.links)
    {r : Except QuickExn TunnelState} {s' : QuickState L}
    (hcall : Called net notify env tunnel state config originalState s (r, s')) :
    Missing t s' ∧ (originalState = .down → r ≠ .ok .up) := by
  -- a tunnel whose interface is there is another one
  have hother : originalState = .up → tunnel.device ≠ t.device := by
    rintro rfl h
    exact hs.missing (h ▸ (horiginal.resolve_left (by simp)).2)
  obtain ⟨c, hc⟩ := mem_iff_recorded.mp hs.recorded
  have hentry : ⟨t, c⟩ ∈ env.entrySet s.runningConfigs.entries := (mem_entrySet env).mpr hc
  obtain ⟨e, rewind, s₀, htaken, hs₀, hrewind⟩ : ∃ e rewind s₀,
      WgQuickBackend.takeDown net notify env (env.entrySet s.runningConfigs.entries) [] s =
        (some e, rewind, s₀) ∧ Missing t s₀ ∧ ∀ entry ∈ rewind, entry.1.device ≠ t.device :=
    hs.takeDown hentry (by simp)
  cases hcall with
  | alreadyUp hup => exact ⟨hs, fun h => absurd (h.symm.trans hup) (by simp)⟩
  | alreadyDown => exact ⟨hs, fun _ => by simp⟩
  | noTools => exact ⟨hs, fun _ => by simp⟩
  | down _ _ hdown => exact ⟨(hs.down hdown).1, fun _ => by simp⟩
  | notDown _ _ hdown => exact ⟨(hs.down hdown).1, fun _ => by simp⟩
  | switched _ hswitched =>
    cases hswitched with
    | notCleared _ _ h =>
      obtain ⟨-, rfl, rfl⟩ : some e = some _ ∧ rewind = _ ∧ s₀ = _ := by
        simpa using htaken.symm.trans h
      exact ⟨hs₀.bringBack hrewind, fun _ => by simp⟩
    | notReplaced _ hdown => exact ⟨(hs.down hdown).1, fun _ => by simp⟩
    | up hprepared hup =>
      cases hprepared with
      | cleared _ _ h => exact absurd (htaken.symm.trans h) (by simp)
      | beside several => exact absurd (hs.mode.symm.trans several) (by simp)
      | replaced horig hdown =>
        exact ⟨(hs.down hdown).1.up (hother horig) hup,
          fun h => absurd (h.symm.trans horig) (by simp)⟩
    | failed hprepared hup =>
      cases hprepared with
      | cleared _ _ h => exact absurd (htaken.symm.trans h) (by simp)
      | beside several => exact absurd (hs.mode.symm.trans several) (by simp)
      | replaced horig hdown =>
        have hs₂ := (hs.down hdown).1.up (hother horig) hup
        refine ⟨?_, fun _ => by simp⟩
        unfold restore
        rw [if_pos horig]
        split
        · exact hs₂.up (hother horig) Prod.mk.eta.symm
        · exact hs₂

theorem Missing.setState (hs : Missing t s) (tunnel : NamedTunnel) (state : TunnelState)
    (config : Option ConfigRef) : Missing t (setState net notify env tunnel state config s).2 := by
  obtain ⟨originalState, k, tools, horiginal, hcall⟩ :=
    setState_spec net notify env tunnel state config s
  exact (Missing.called (s := asked s k tools) ⟨hs.mode, hs.recorded, hs.missing⟩ horiginal
    hcall).1

theorem Missing.run (hs : Missing t s) {events : List Event} (hcalls : ∀ e ∈ events, e.IsCall) :
    Missing t (run net notify env events s) := by
  induction events generalizing s with
  | nil => exact hs
  | cons e events ih =>
    rw [List.forall_mem_cons] at hcalls
    refine ih ?_ hcalls.2
    cases e with
    | setState tunnel state config => exact hs.setState tunnel state config
    | setMultipleTunnels on => exact hcalls.1.elim
    | outside links => exact hcalls.1.elim

/-- Asking for `UP` fails when the interface of the tunnel is not there. -/
theorem Missing.setState_up (hs : Missing t s) {tunnel : NamedTunnel}
    (hdown : tunnel.device ∉ s.links) (config : Option ConfigRef) :
    ∃ e, (WgQuickBackend.setState net notify env tunnel .up config s).1 = .error e := by
  obtain ⟨originalState, k, tools, horiginal, hcall⟩ :=
    setState_spec net notify env tunnel .up config s
  have horig : originalState = .down := horiginal.resolve_right fun h => hdown h.2
  generalize WgQuickBackend.setState net notify env tunnel .up config s = x at hcall ⊢
  obtain ⟨r, s'⟩ := x
  obtain ⟨-, hnot⟩ := Missing.called (s := asked s k tools)
    ⟨hs.mode, hs.recorded, hs.missing⟩ horiginal hcall
  cases r with
  | error e => exact ⟨e, rfl⟩
  | ok x =>
    cases effect_of_called hcall with
    | up => exact absurd rfl (hnot horig)
    | down =>
      cases hcall with
      | alreadyDown wanted => exact absurd wanted (by simp [requested])
      | down wanted => exact absurd wanted (by simp [requested])
      | switched _ h => exact nomatch h

end Missing

/-- **A missing interface blocks the backend.**  While several tunnels are not allowed: when a
tunnel of the map has lost its interface, then after every further run of calls, with any outcome
of the commands, it is still in the map and its interface still missing, and asking for `UP` throws
for every tunnel whose interface is not there. -/
theorem missing_interface_blocks {t : NamedTunnel} {s : QuickState L}
    (hmode : s.multipleTunnels = false) (hrecorded : t ∈ s.runningConfigs)
    (hmissing : t.device ∉ s.links) {events : List Event} (hcalls : ∀ e ∈ events, e.IsCall) :
    let s' := run net notify env events s
    t ∈ s'.runningConfigs ∧ t.device ∉ s'.links ∧
      ∀ tunnel config, tunnel.device ∉ s'.links →
        ∃ e, (setState net notify env tunnel .up config s').1 = .error e := by
  intro s'
  have hs : Missing t s := ⟨hmode, hrecorded, hmissing⟩
  have hs' : Missing t s' := hs.run hcalls
  exact ⟨hs'.recorded, hs'.missing, fun tunnel config hdown => hs'.setState_up hdown config⟩

/-- The fourth command fails, after it has deleted the interface. -/
def lostOnTheWay : WgQuickEnv where
  shell n := if n = 3 then { quick := { status := 1, deleted := true } } else {}

/-- The tunnel is brought up, and is to be taken down. -/
def upAndDown : List Event :=
  [.setState wg0 .up (some (GoBackend.bareConfig 1)), .setState wg0 .down none]

theorem upAndDown_blocks :
    let s := run GoBackend.noAddresses ignore lostOnTheWay upAndDown { listeners := () }
    let s' := run GoBackend.noAddresses ignore lostOnTheWay [.setState wg0 .down none] s
    wg0 ∈ s.runningConfigs ∧ wg0.device ∉ s.links ∧ wg0 ∈ s'.runningConfigs ∧
      wg0.device ∉ s'.links ∧ ∀ tunnel config, tunnel.device ∉ s'.links →
        ∃ e, (setState GoBackend.noAddresses ignore lostOnTheWay tunnel .up config s').1 =
          .error e := by
  intro s s'
  have hrecorded : wg0 ∈ s.runningConfigs := by decide +kernel
  have hmissing : wg0.device ∉ s.links := by decide +kernel
  refine ⟨hrecorded, hmissing, ?_⟩
  refine missing_interface_blocks GoBackend.noAddresses ignore lostOnTheWay (by decide +kernel)
    hrecorded hmissing ?_
  intro e he
  rw [List.mem_singleton.mp he]
  trivial

end WgQuickBackend
end AioVpn
