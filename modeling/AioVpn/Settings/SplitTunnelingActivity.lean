import AioVpn.Coroutine.Pool
import AioVpn.Settings.SettingsStore

/-!
# The split-tunnelling screen

`SplitTunnelingActivity` lists apps with a check box each.  A click flips the box and
launches a coroutine that reads the set of excluded packages, changes it, writes it back,
and writes the mode that goes with it.  The three are separate transactions, and nothing
keeps the coroutines of two clicks apart.

## What can go wrong

Two coroutines that read the same set write two sets that know of one choice each, and the
one written last stays (`choice_lost`).  `choices_applied_in_order` is the positive
statement: in every run in which a coroutine reads the set only when those of the earlier
clicks have written it, and writes the mode only when they have finished, the stored set is
the initial one with the choices applied in order, and the mode is `OFF` exactly when it is
empty.  The clicks are made at any time, and the next set may be written before the mode that
goes with the last one.

In such a run the coroutines that have written the set are the first ones, and so are those
that have finished.  `Progress` says how many they are, and `At` where each of them stands.
-/

namespace AioVpn

open Coroutine

namespace SplitTunnelingActivity

/-- A row of the list: `AppInfo`. -/
structure AppInfo where
  packageName : JString
  isExcluded : Bool
  deriving DecidableEq

/-- A choice: the arguments of `toggleAppExclusion`. -/
structure Toggle where
  packageName : JString
  isExcluded : Bool
  deriving DecidableEq

/-- What a choice makes of the set. -/
def Toggle.apply (t : Toggle) (current : LinkedHashSet JString) : LinkedHashSet JString :=
  if t.isExcluded then current.add t.packageName else current.remove t.packageName

/-- Choices one after the other. -/
def applyAll (toggles : List Toggle) (current : LinkedHashSet JString) : LinkedHashSet JString :=
  toggles.foldl (fun current t => t.apply current) current

theorem applyAll_append (toggles : List Toggle) (t : Toggle) (current : LinkedHashSet JString) :
    applyAll (toggles ++ [t]) current = t.apply (applyAll toggles current) := by
  rw [applyAll, List.foldl_append]
  rfl

/-- The mode that goes with a set. -/
def modeFor (current : LinkedHashSet JString) : SplitTunnelMode :=
  if current.isEmpty then .off else .excludeApps

/-- The atomic steps: one transaction each. -/
inductive ToggleOp where
  /-- `settingsStore.excludedAppsFlow.first()`. -/
  | excludedApps
  | setExcludedApps (packageNames : LinkedHashSet JString)
  | setSplitTunnelMode (mode : SplitTunnelMode)

/-- The answers to the steps. -/
@[reducible] def ToggleOp.Res : ToggleOp → Type
  | excludedApps => LinkedHashSet JString
  | setExcludedApps _ => Unit
  | setSplitTunnelMode _ => Unit

/-- The settings, the rows of the list, and the choices made so far. -/
structure ScreenState where
  settings : SettingsStore := {}
  list : List AppInfo := []
  toggles : List Toggle := []

/-- The answer to a step and the state after it. -/
def perform : (o : ToggleOp) → Unit → ScreenState → o.Res × ScreenState
  | .excludedApps, _, s => (s.settings.excludedAppsFlow, s)
  | .setExcludedApps packageNames, _, s =>
      ((), { s with settings := s.settings.setExcludedApps packageNames })
  | .setSplitTunnelMode mode, _, s =>
      ((), { s with settings := s.settings.setSplitTunnelMode mode })

/-- A body over these steps. -/
abbrev ToggleProg (α : Type) := Prog ToggleOp ToggleOp.Res Empty α

/-- One atomic step of a body. -/
def step (o : ToggleOp) : ToggleProg o.Res := Prog.perform o

/-- `toggleAppExclusion`. -/
def toggleAppExclusion (t : Toggle) : ToggleProg Unit := do
  let excluded ← step .excludedApps
  let current := t.apply excluded
  step (.setExcludedApps current)
  step (.setSplitTunnelMode (modeFor current))

/-- The click listener of a row: it flips the row and launches the coroutine. -/
def click (position : ℕ) (s : ScreenState) : Option (ScreenState × Option Toggle) :=
  s.list[position]?.map fun item =>
    let toggle : Toggle := ⟨item.packageName, !item.isExcluded⟩
    ({ s with
        list := s.list.set position { item with isExcluded := !item.isExcluded }
        toggles := s.toggles ++ [toggle] }, some toggle)

/-- The screen as a system of coroutines; an event is a click on a position of the list. -/
def system : System ToggleOp ToggleOp.Res Empty Unit ScreenState Toggle ℕ where
  perform := perform
  body := fun t => do
    toggleAppExclusion t
    pure none
  handle := click

/-- A configuration of the screen. -/
abbrev ScreenConf := Conf ToggleOp ToggleOp.Res Empty Toggle ScreenState

/-- The screen shows this list, and no choice was made. -/
def start (settings : SettingsStore) (list : List AppInfo) : ScreenConf :=
  ⟨⟨settings, list, []⟩, []⟩

/-- All coroutines have finished. -/
def Finished (c : ScreenConf) : Prop := ∀ t ∈ c.threads, t.body.running = false

instance (c : ScreenConf) : Decidable (Finished c) :=
  inferInstanceAs (Decidable (∀ t ∈ c.threads, t.body.running = false))

/-! ## The runs considered -/

/-- The next step of a coroutine. -/
inductive Stage where
  | reading
  | writing
  | marking
  | finished
  deriving DecidableEq

/-- How far a coroutine has come. -/
def stage (p : ToggleProg (Option Toggle)) : Stage :=
  match p.nextOp with
  | some .excludedApps => .reading
  | some (.setExcludedApps _) => .writing
  | some (.setSplitTunnelMode _) => .marking
  | none => .finished

/-- The set is read only when the coroutines of the earlier clicks have written it, and the
mode is written only when they have finished. -/
def inTurn (c : ScreenConf) : Act ℕ Unit → Bool
  | .event _ => true
  | .step i _ =>
      match c.threads[i]? with
      | some ⟨_, .op .excludedApps _⟩ =>
          (c.threads.take i).all fun t =>
            decide (stage t.body = .marking) || decide (stage t.body = .finished)
      | some ⟨_, .op (.setSplitTunnelMode _) _⟩ =>
          (c.threads.take i).all fun t => decide (stage t.body = .finished)
      | _ => true

/-! ## The points of the coroutine -/

/-- It has written the set. -/
def marking (current : LinkedHashSet JString) : ToggleProg (Option Toggle) :=
  .op (.setSplitTunnelMode (modeFor current)) fun _ => .pure none

/-- It has read the set. -/
def writing (current : LinkedHashSet JString) : ToggleProg (Option Toggle) :=
  .op (.setExcludedApps current) fun _ => marking current

/-- It has been launched. -/
def reading (t : Toggle) : ToggleProg (Option Toggle) :=
  .op .excludedApps fun excluded => writing (t.apply excluded)

/-- The mode agrees with the set. -/
def Agreeing (settings : SettingsStore) : Prop :=
  settings.splitTunnelModeFlow = modeFor settings.excludedAppsFlow

/-- The set after the first `n` choices. -/
def setAfter (initial : LinkedHashSet JString) (toggles : List Toggle) (n : ℕ) :
    LinkedHashSet JString :=
  applyAll (toggles.take n) initial

theorem setAfter_succ (initial : LinkedHashSet JString) {toggles : List Toggle} {n : ℕ}
    {t : Toggle} (h : toggles[n]? = some t) :
    setAfter initial toggles (n + 1) = t.apply (setAfter initial toggles n) := by
  rw [setAfter, List.take_add_one, h, Option.toList_some, applyAll_append, setAfter]

theorem setAfter_append (initial : LinkedHashSet JString) {toggles : List Toggle} (t : Toggle)
    {n : ℕ} (h : n ≤ toggles.length) :
    setAfter initial (toggles ++ [t]) n = setAfter initial toggles n := by
  rw [setAfter, List.take_append_of_le_length h, setAfter]

/-- **Where the `i`-th coroutine stands**, when `k` coroutines have finished and `m` have written
the set. -/
inductive At (initial : LinkedHashSet JString) (toggles : List Toggle) (k m i : ℕ) (t : Toggle) :
    ToggleProg (Option Toggle) → Prop where
  | finished (h : i < k) : At initial toggles k m i t (.pure none)
  | marking (h : k ≤ i) (h' : i < m) :
      At initial toggles k m i t (marking (setAfter initial toggles (i + 1)))
  | writing (h : i = m) : At initial toggles k m i t (writing (setAfter initial toggles (i + 1)))
  | reading (h : m ≤ i) : At initial toggles k m i t (reading t)

/-- Of the coroutines `k` have finished and `m` have written the set, in the order of the
clicks. -/
structure Progress (initial : LinkedHashSet JString) (c : ScreenConf) (k m : ℕ) : Prop where
  finished_le : k ≤ m
  written_le : m ≤ c.threads.length
  toggles : c.shared.toggles = c.threads.map Thread.job
  threads : ∀ i t, c.threads[i]? = some t → At initial c.shared.toggles k m i t.job t.body
  set : c.shared.settings.excludedAppsFlow = setAfter initial c.shared.toggles m
  mode : c.shared.settings.splitTunnelModeFlow = modeFor (setAfter initial c.shared.toggles k)

section Progress

variable {initial : LinkedHashSet JString} {c : ScreenConf} {k m : ℕ}

/-- After a step of the `i`-th coroutine it is where it should be, and so are the others. -/
theorem Progress.moved (h : Progress initial c k m) {i k' m' : ℕ} {t : Toggle}
    {p p' : ToggleProg (Option Toggle)} (hi : c.threads[i]? = some ⟨t, p⟩)
    {settings : SettingsStore} (hkm : k' ≤ m') (hm : m' ≤ c.threads.length)
    (hself : At initial c.shared.toggles k' m' i t p')
    (hothers : ∀ l u q, l ≠ i → At initial c.shared.toggles k m l u q →
      At initial c.shared.toggles k' m' l u q)
    (hset : settings.excludedAppsFlow = setAfter initial c.shared.toggles m')
    (hmode : settings.splitTunnelModeFlow = modeFor (setAfter initial c.shared.toggles k')) :
    Progress initial ⟨{ c.shared with settings := settings }, c.threads.set i ⟨t, p'⟩⟩ k' m' where
  finished_le := hkm
  written_le := by rwa [List.length_set]
  toggles := by
    have hlt : i < (c.threads.map Thread.job).length := by
      rw [List.length_map]
      exact (List.getElem?_eq_some_iff.mp hi).1
    have hjob : (c.threads.map Thread.job)[i] = t := by
      rw [List.getElem_map, (List.getElem?_eq_some_iff.mp hi).2]
    rw [List.map_set]
    refine h.toggles.trans ?_
    nth_rewrite 1 [← List.set_getElem_self hlt]
    rw [hjob]
  threads := by
    intro l u hl
    have hlt : i < c.threads.length := (List.getElem?_eq_some_iff.mp hi).1
    by_cases hli : l = i
    · subst hli
      rw [List.getElem?_set_self hlt] at hl
      obtain rfl := Option.some.inj hl
      exact hself
    · rw [List.getElem?_set_ne (Ne.symm hli)] at hl
      exact hothers l _ _ hli (h.threads l u hl)
  set := hset
  mode := hmode

/-- An earlier coroutine is among those that the condition speaks of. -/
theorem exists_earlier {l i : ℕ} (hli : l < i) (hi : i < c.threads.length) :
    ∃ t, c.threads[l]? = some t ∧ t ∈ c.threads.take i := by
  refine ⟨c.threads[l], List.getElem?_eq_getElem (by omega), ?_⟩
  exact List.mem_take_iff_getElem.mpr ⟨l, by omega, rfl⟩

/-- The coroutine that reads is the first that has not written. -/
theorem Progress.reader (h : Progress initial c k m) {i : ℕ} (hi : i < c.threads.length)
    (hle : m ≤ i) (hturn : ∀ t ∈ c.threads.take i,
      stage t.body = .marking ∨ stage t.body = .finished) : i = m := by
  by_contra hne
  obtain ⟨t, hm, hmem⟩ := exists_earlier (c := c) (show m < i by omega) hi
  have hat := h.threads m t hm
  have hstage := hturn t hmem
  have hkm := h.finished_le
  generalize t.body = p at hat hstage
  cases hat with
  | finished hlt => omega
  | marking _ hlt => omega
  | writing => simp [stage, writing, Prog.nextOp] at hstage
  | reading => simp [stage, reading, Prog.nextOp] at hstage

/-- The coroutine that writes the mode is the first that has not finished. -/
theorem Progress.marker (h : Progress initial c k m) {i : ℕ} (hi : i < c.threads.length)
    (hle : k ≤ i) (him : i < m) (hturn : ∀ t ∈ c.threads.take i, stage t.body = .finished) :
    i = k := by
  by_contra hne
  obtain ⟨t, hk, hmem⟩ := exists_earlier (c := c) (show k < i by omega) hi
  have hat := h.threads k t hk
  have hstage := hturn t hmem
  generalize t.body = p at hat hstage
  cases hat with
  | finished hlt => omega
  | marking => simp [stage, marking, Prog.nextOp] at hstage
  | writing hkm => omega
  | reading hkm => omega

/-- **A click** adds a coroutine at the end. -/
theorem Progress.event (h : Progress initial c k m) {position : ℕ} {s' : ScreenState}
    {job : Option Toggle} (hclick : click position c.shared = some (s', job)) :
    Progress initial ⟨s', c.threads ++ system.launch job⟩ k m := by
  obtain ⟨item, -, hitem⟩ := Option.map_eq_some_iff.mp hclick
  obtain ⟨rfl, rfl⟩ := Prod.mk.inj hitem
  have hlength : c.shared.toggles.length = c.threads.length := by rw [h.toggles, List.length_map]
  have hkm := h.finished_le
  have hm := h.written_le
  refine ⟨hkm, ?_, ?_, ?_, ?_, ?_⟩
  · rw [List.length_append]
    omega
  · rw [List.map_append, ← h.toggles]
    rfl
  · intro i t hi
    dsimp only
    rcases lt_or_ge i c.threads.length with hlt | hge
    · rw [List.getElem?_append_left hlt] at hi
      have hat := h.threads i t hi
      generalize t.body = p at hat ⊢
      cases hat with
      | finished hik => exact .finished hik
      | marking hki him =>
        rw [← setAfter_append initial _ (by omega)]
        exact .marking hki him
      | writing him =>
        rw [← setAfter_append initial _ (by omega)]
        exact .writing him
      | reading hmi => exact .reading hmi
    · rw [List.getElem?_append_right hge, System.launch_some, List.getElem?_singleton] at hi
      obtain ⟨-, hnew⟩ := Option.ite_none_right_eq_some.mp hi
      obtain rfl := Option.some.inj hnew
      exact .reading (by omega)
  · exact h.set.trans (setAfter_append initial _ (by omega)).symm
  · exact h.mode.trans (congrArg modeFor (setAfter_append initial _ (by omega)).symm)

/-- **One step** of a coroutine in turn: it reads the set with all earlier choices, writes it with
its own, or writes the mode that goes with it. -/
theorem Progress.step (h : Progress initial c k m) {i : ℕ} {t : Toggle} {o : ToggleOp}
    {rest : o.Res → ToggleProg (Option Toggle)} (hi : c.threads[i]? = some ⟨t, .op o rest⟩)
    (hok : inTurn c (.step i ()) = true) :
    ∃ k' m', Progress initial
      ⟨(perform o () c.shared).2, c.threads.set i ⟨t, rest (perform o () c.shared).1⟩ ++
        system.launch (rest (perform o () c.shared).1).launched⟩ k' m' := by
  have hlt : i < c.threads.length := (List.getElem?_eq_some_iff.mp hi).1
  have hkm := h.finished_le
  have hm := h.written_le
  have hat : At initial c.shared.toggles k m i t (.op o rest) := h.threads i _ hi
  generalize hp : Prog.op o rest = p at hat
  cases hat with
  | finished => exact absurd hp (by simp)
  | reading hmi =>
    cases hp
    obtain rfl : i = m := h.reader hlt hmi (by simpa [inTurn, hi] using hok)
    have hjob : c.shared.toggles[i]? = some t := by
      rw [h.toggles, List.getElem?_map, hi, Option.map_some]
    have hread : t.apply c.shared.settings.excludedAppsFlow =
        setAfter initial c.shared.toggles (i + 1) := by
      rw [setAfter_succ initial hjob, h.set]
    refine ⟨k, i, ?_⟩
    rw [show system.launch _ = [] from rfl, List.append_nil]
    refine h.moved hi hkm hm ?_ (fun _ _ _ _ hat => hat) h.set h.mode
    show At initial c.shared.toggles k i i t (writing (t.apply c.shared.settings.excludedAppsFlow))
    rw [hread]
    exact .writing rfl
  | writing him =>
    cases hp
    subst him
    refine ⟨k, i + 1, ?_⟩
    rw [show system.launch _ = [] from rfl, List.append_nil]
    refine h.moved hi (by omega) (by omega) (.marking hkm (Nat.lt_succ_self i)) ?_ rfl h.mode
    intro l u q hli hat
    cases hat with
    | finished hlk => exact .finished hlk
    | marking hkl hlm => exact .marking hkl (by omega)
    | writing hlm => exact absurd hlm hli
    | reading hml => exact .reading (by omega)
  | marking hki him =>
    cases hp
    obtain rfl : i = k := h.marker hlt hki him (by simpa [inTurn, hi] using hok)
    refine ⟨i + 1, m, ?_⟩
    rw [show system.launch _ = [] from rfl, List.append_nil]
    refine h.moved hi (by omega) hm (.finished (Nat.lt_succ_self i)) ?_ h.set
      (SettingsStore.splitTunnelModeFlow_setSplitTunnelMode _ _)
    intro l u q hli hat
    cases hat with
    | finished hlk => exact .finished (by omega)
    | marking hkl hlm => exact .marking (by omega) hlm
    | writing hlm => exact .writing hlm
    | reading hml => exact .reading hml

/-- Every action in turn leads on. -/
theorem Progress.next (h : Progress initial c k m) {a : Act ℕ Unit} {c' : ScreenConf}
    (hok : inTurn c a = true) (hnext : system.next c a = some c') :
    ∃ k' m', Progress initial c' k' m' := by
  cases a with
  | event position =>
    obtain ⟨s', job, hclick, rfl⟩ := System.next_event _ hnext
    exact ⟨k, m, h.event hclick⟩
  | step i env =>
    obtain ⟨t, o, rest, hi, rfl⟩ := System.next_step _ hnext
    exact h.step hi hok

end Progress

/-- **No choice is lost.**  Start from settings in which the mode is `OFF` exactly when no
app is excluded and `EXCLUDE_APPS` otherwise, with any list on the screen.  In every run in
which a coroutine reads the set only when the coroutines of the earlier clicks have written
it, and writes the mode only when they have finished: once all coroutines have finished, the
excluded apps are the initial ones with the choices applied in the order they were made, and
the mode goes with that set. -/
theorem choices_applied_in_order (settings : SettingsStore) (list : List AppInfo)
    (hagree : Agreeing settings) (d : ScreenConf)
    (hrun : system.Run (fun c a => inTurn c a = true) (start settings list) d)
    (hdone : Finished d) :
    d.shared.settings.excludedAppsFlow =
        applyAll d.shared.toggles settings.excludedAppsFlow ∧
      (d.shared.settings.splitTunnelModeFlow = .off ↔
        d.shared.settings.excludedAppsFlow.isEmpty = true) := by
  have hstart : Progress settings.excludedAppsFlow (start settings list) 0 0 :=
    ⟨le_refl 0, Nat.zero_le _, rfl, fun i t hi => absurd hi (by simp [start]), rfl, hagree⟩
  obtain ⟨k, m, h⟩ := hrun.invariant (P := fun c => ∃ k m, Progress settings.excludedAppsFlow c k m)
    ⟨0, 0, hstart⟩ fun c c' a ⟨k, m, h⟩ hok hnext => h.next hok hnext
  have hkm := h.finished_le
  have hm := h.written_le
  -- a coroutine that has not finished has a step to make
  obtain rfl : k = d.threads.length := by
    by_contra hne
    have hlt : k < d.threads.length := by omega
    have hat := h.threads k _ (List.getElem?_eq_getElem hlt)
    have hrunning := hdone _ (List.getElem_mem hlt)
    generalize (d.threads[k]).body = p at hat hrunning
    cases hat with
    | finished hkk => omega
    | marking => exact absurd hrunning (by simp [marking, Prog.running])
    | writing => exact absurd hrunning (by simp [writing, Prog.running])
    | reading => exact absurd hrunning (by simp [reading, Prog.running])
  obtain rfl : m = d.threads.length := by omega
  have hall : setAfter settings.excludedAppsFlow d.shared.toggles d.threads.length =
      applyAll d.shared.toggles settings.excludedAppsFlow := by
    rw [setAfter, List.take_of_length_le (by rw [h.toggles, List.length_map])]
  refine ⟨h.set.trans hall, ?_⟩
  rw [h.mode, ← h.set, modeFor]
  split <;> simp_all

/-- Two apps, none of them excluded. -/
def twoApps : List AppInfo := [⟨jstr "com.a", false⟩, ⟨jstr "com.b", false⟩]

/-- The theorem for three clicks in a row; the second coroutine writes the set before the first one
has written the mode, and the first app is clicked again meanwhile. -/
theorem three_choices_applied :
    let d := (system.exec inTurn (start {} twoApps)
      [.event 0, .event 1, .step 0 (), .step 0 (), .step 1 (), .event 0, .step 1 (), .step 2 (),
        .step 0 (), .step 1 (), .step 2 (), .step 2 ()]).get (by decide +kernel)
    d.shared.settings.excludedAppsFlow =
        applyAll d.shared.toggles (SettingsStore.excludedAppsFlow {}) ∧
      (d.shared.settings.splitTunnelModeFlow = .off ↔
        d.shared.settings.excludedAppsFlow.isEmpty = true) :=
  choices_applied_in_order {} twoApps rfl _
    (System.Run.of_exec (fun _ _ h => h) .refl (Option.some_get _).symm) (by decide +kernel)

/-- **A choice is lost.**  Two apps are clicked in quick succession and both coroutines read
the empty set before either writes: the choices exclude both apps, and one is stored. -/
theorem choice_lost :
    (system.exec (fun _ _ => true) (start {} twoApps)
      ([.event 0, .event 1, .step 0 (), .step 1 ()] ++ List.replicate 2 (.step 0 ()) ++
        List.replicate 2 (.step 1 ()))).map
      (fun d => (decide (Finished d),
        (applyAll d.shared.toggles (SettingsStore.excludedAppsFlow {})).elems,
        d.shared.settings.excludedAppsFlow.elems)) =
      some (true, [jstr "com.a", jstr "com.b"], [jstr "com.b"]) := by
  decide +kernel

end SplitTunnelingActivity
end AioVpn
