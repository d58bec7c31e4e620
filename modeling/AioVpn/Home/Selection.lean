import AioVpn.Coroutine.Pool
import AioVpn.Settings.SettingsStore

/-!
# The selected server at start-up

`HomeActivity.onCreate` launches a coroutine that loads the last server from the settings,
and then handles the intent the activity was created with.  When the user has chosen a
server in the list, the intent carries its id and label; `handleIntent` selects it and
launches a transaction that stores it.

The coroutine reads the id, assigns it, reads the label, and assigns it together with the
flag `smartAutoSelected`.  The reads suspend, so `handleIntent` and the transaction can fall
between any two of these steps.

## What can go wrong

What the coroutine has read before the transaction is assigned after `handleIntent` has
made its selection: the chosen server is replaced by the former one, or its id by the
former id (`chosen_server_lost`).  In every run in which the intent is not handled between
a read and its assignment, and in which nothing is read between the handling of the intent
and the transaction, the chosen server stays selected (`chosen_server_selected`).
-/

namespace AioVpn

open Coroutine

namespace HomeSelection

/-- The extras of the intent. -/
structure HomeIntent where
  serverId : Option ℤ := none
  serverLabel : Option JString := none
  deriving DecidableEq

/-- The fields of the selection, and the settings. -/
structure SelectionState where
  settings : SettingsStore := {}
  selectedServerId : Option ℤ := none
  selectedServerLabel : Option JString := none
  smartAutoSelected : Bool := false
  selectedServerText : JString := []
  /-- `handleIntent` has run. -/
  intentHandled : Bool := false

/-- The atomic steps. -/
inductive SelectionOp where
  /-- `settingsStore.lastServerIdFlow.first()`. -/
  | lastServerId
  | setSelectedServerId (id : Option ℤ)
  /-- `settingsStore.lastServerLabelFlow.first()`. -/
  | lastServerLabel
  /-- The assignments after the second read, which nothing interrupts. -/
  | setSelectedServerLabel (label : Option JString)
  | saveLastServer (id : ℤ) (label : JString)

/-- The answers to the steps. -/
@[reducible] def SelectionOp.Res : SelectionOp → Type
  | lastServerId => Option ℤ
  | setSelectedServerId _ => Unit
  | lastServerLabel => Option JString
  | setSelectedServerLabel _ => Unit
  | saveLastServer _ _ => Unit

/-- The assignments after the second read. -/
def assignLabel (label : Option JString) (s : SelectionState) : SelectionState :=
  let smart := s.selectedServerId.isNone || (JString.takeIfNotBlank label).isNone
  { s with
    selectedServerLabel := label
    smartAutoSelected := smart
    selectedServerText :=
      if smart then jstr "Smart Auto" else label.getD (jstr "Smart Auto") }

/-- The answer to a step and the state after it. -/
def perform : (o : SelectionOp) → Unit → SelectionState → o.Res × SelectionState
  | .lastServerId, _, s => (s.settings.lastServerIdFlow, s)
  | .setSelectedServerId id, _, s => ((), { s with selectedServerId := id })
  | .lastServerLabel, _, s => (s.settings.lastServerLabelFlow, s)
  | .setSelectedServerLabel label, _, s => ((), assignLabel label s)
  | .saveLastServer id label, _, s =>
      ((), { s with settings := s.settings.saveLastServer id label })

/-- A body over these steps. -/
abbrev SelectionProg (α : Type) := Prog SelectionOp SelectionOp.Res Empty α

/-- One atomic step of a body. -/
def step (o : SelectionOp) : SelectionProg o.Res := Prog.perform o

/-- The coroutine of `onCreate`, up to the selection. -/
def loadSelection : SelectionProg Unit := do
  let id ← step .lastServerId
  step (.setSelectedServerId id)
  let label ← step .lastServerLabel
  step (.setSelectedServerLabel label)

/-- The coroutines. -/
inductive Job where
  | loadSelection
  | saveLastServer (id : ℤ) (label : JString)
  deriving DecidableEq

/-- The body of a coroutine. -/
def bodyOf : Job → SelectionProg Unit
  | .loadSelection => loadSelection
  | .saveLastServer id label => step (.saveLastServer id label)

/-- `handleIntent`. -/
def handleIntent (intent : Option HomeIntent) (s : SelectionState) :
    SelectionState × Option Job :=
  let serverId := (intent.map fun i => i.serverId.getD (-1)).filter fun id => id ≠ -1
  let serverLabel := intent.bind HomeIntent.serverLabel
  match serverId, JString.takeIfNotBlank serverLabel with
  | some id, some label =>
      ({ s with
          smartAutoSelected := false
          selectedServerId := some id
          selectedServerLabel := some label
          selectedServerText := label }, some (.saveLastServer id label))
  | _, _ => (s, none)

/-- The start-up with this intent as a system of coroutines; the only event is the call of
`handleIntent`, which is made once. -/
def system (intent : Option HomeIntent) :
    System SelectionOp SelectionOp.Res Empty Unit SelectionState Job Unit where
  perform := perform
  body := fun job => do
    bodyOf job
    pure none
  handle := fun _ s =>
    if s.intentHandled then none
    else some (handleIntent intent { s with intentHandled := true })

/-- A configuration of the start-up. -/
abbrev SelectionConf := Conf SelectionOp SelectionOp.Res Empty Job SelectionState

/-- The loading coroutine has been launched. -/
def start (intent : Option HomeIntent) (settings : SettingsStore) : SelectionConf :=
  ⟨{ settings := settings }, [⟨.loadSelection, (system intent).body .loadSelection⟩]⟩

/-- All coroutines have finished. -/
def Finished (c : SelectionConf) : Prop := ∀ t ∈ c.threads, t.body.running = false

instance (c : SelectionConf) : Decidable (Finished c) :=
  inferInstanceAs (Decidable (∀ t ∈ c.threads, t.body.running = false))

/-! ## The runs considered -/

/-- The coroutine has read a value and has not assigned it. -/
def assigns (p : SelectionProg (Option Job)) : Bool :=
  match p.nextOp with
  | some (.setSelectedServerId _) => true
  | some (.setSelectedServerLabel _) => true
  | _ => false

/-- The intent has not been handled, or its server is stored. -/
def upToDate (id : ℤ) (label : JString) (s : SelectionState) : Bool :=
  !s.intentHandled ||
    (s.settings.lastServerId = some id && s.settings.lastServerLabel = some label)

/-- The intent is not handled between a read and its assignment, and nothing is read
between the handling of the intent and the transaction. -/
def ordered (id : ℤ) (label : JString) (c : SelectionConf) : Act Unit Unit → Bool
  | .event _ => c.threads.all fun t => !assigns t.body
  | .step i _ =>
      match c.threads[i]? with
      | some ⟨_, .op .lastServerId _⟩ => upToDate id label c.shared
      | some ⟨_, .op .lastServerLabel _⟩ => upToDate id label c.shared
      | _ => true

/-! ## The points of the loading coroutine -/

/-- The label has been read. -/
def assigningLabel (label : Option JString) : SelectionProg (Option Job) :=
  .op (.setSelectedServerLabel label) fun _ => .pure none

/-- The id has been assigned. -/
def readingLabel : SelectionProg (Option Job) := .op .lastServerLabel assigningLabel

/-- The id has been read. -/
def assigningId (id : Option ℤ) : SelectionProg (Option Job) :=
  .op (.setSelectedServerId id) fun _ => readingLabel

/-- The transaction. -/
def storing (id : ℤ) (label : JString) : SelectionProg (Option Job) :=
  .op (.saveLastServer id label) fun _ => .pure none

theorem body_loadSelection (intent : Option HomeIntent) :
    (system intent).body .loadSelection = .op .lastServerId assigningId := rfl

section Selection

variable (id : ℤ) (label : JString)

/-- The chosen server is the selected one. -/
structure Selected (s : SelectionState) : Prop where
  id : s.selectedServerId = some id
  label : s.selectedServerLabel = some label
  smart : s.smartAutoSelected = false

/-- What is true at each point of the loading coroutine once the intent has been handled:
what it has read is the chosen server, and what it will not assign any more is selected. -/
inductive At (s : SelectionState) : SelectionProg (Option Job) → Prop where
  | reading : At s (.op .lastServerId assigningId)
  | assigningId (x : Option ℤ) (h : s.intentHandled = true → x = some id) : At s (assigningId x)
  | readingLabel (h : s.intentHandled = true → s.selectedServerId = some id) : At s readingLabel
  | assigningLabel (x : Option JString)
      (h : s.intentHandled = true → s.selectedServerId = some id ∧ x = some label) :
      At s (assigningLabel x)
  | loaded (h : s.intentHandled = true → Selected id label s) : At s (.pure none)

/-- The pool: the loading coroutine, and transactions that store the chosen server. -/
def Pool (c : SelectionConf) : Prop :=
  ∃ p rest, c.threads = ⟨.loadSelection, p⟩ :: rest ∧ At id label c.shared p ∧
    ∀ t ∈ rest, t.body = storing id label ∨ t.body = .pure none

variable {id label}

/-- The intent that carries the server selects it. -/
theorem handleIntent_eq (hid : id ≠ -1) (hlabel : JString.isBlank label = false)
    (s : SelectionState) :
    handleIntent (some ⟨some id, some label⟩) s =
      ({ s with
          smartAutoSelected := false
          selectedServerId := some id
          selectedServerLabel := some label
          selectedServerText := label }, some (.saveLastServer id label)) := by
  have hserver : ((some (⟨some id, some label⟩ : HomeIntent)).map
      fun i => i.serverId.getD (-1)).filter (fun id => id ≠ -1) = some id := by
    simp [hid]
  simp only [handleIntent, hserver, Option.bind_some, JString.takeIfNotBlank_some hlabel]

/-- **One step of the loading coroutine.** -/
theorem At.step (hlabel : JString.isBlank label = false) {s : SelectionState} {o : SelectionOp}
    {k : o.Res → SelectionProg (Option Job)} (h : At id label s (.op o k))
    (hread : o = .lastServerId ∨ o = .lastServerLabel → upToDate id label s = true) :
    At id label (perform o () s).2 (k (perform o () s).1) ∧
      (k (perform o () s).1).launched = none := by
  have hstored : upToDate id label s = true → s.intentHandled = true →
      s.settings.lastServerId = some id ∧ s.settings.lastServerLabel = some label := by
    intro hup hhandled
    simpa [upToDate, hhandled] using hup
  generalize hp : Prog.op o k = p at h
  cases h with
  | reading =>
    cases hp
    exact ⟨.assigningId _ fun hh => (hstored (hread (Or.inl rfl)) hh).1, rfl⟩
  | assigningId x hx =>
    cases hp
    exact ⟨.readingLabel hx, rfl⟩
  | readingLabel hsel =>
    cases hp
    exact ⟨.assigningLabel _ fun hh => ⟨hsel hh, (hstored (hread (Or.inr rfl)) hh).2⟩, rfl⟩
  | assigningLabel x hx =>
    cases hp
    refine ⟨.loaded fun hh => ?_, rfl⟩
    obtain ⟨hsel, rfl⟩ := hx hh
    refine ⟨hsel, rfl, ?_⟩
    show (s.selectedServerId.isNone || (JString.takeIfNotBlank (some label)).isNone) = false
    rw [hsel, JString.takeIfNotBlank_some hlabel]
    rfl
  | loaded _ => exact absurd hp (by simp)

/-- The transaction does not touch the selection. -/
theorem At.kept {s s' : SelectionState} {p : SelectionProg (Option Job)} (h : At id label s p)
    (hsame : s' = { s with settings := s'.settings }) : At id label s' p := by
  rw [hsame]
  cases h with
  | reading => exact .reading
  | assigningId x hx => exact .assigningId x hx
  | readingLabel hsel => exact .readingLabel hsel
  | assigningLabel x hx => exact .assigningLabel x hx
  | loaded hsel => exact .loaded fun hh => ⟨(hsel hh).id, (hsel hh).label, (hsel hh).smart⟩

/-- The intent is handled while nothing waits to be assigned. -/
theorem At.selected {s s' : SelectionState} {p : SelectionProg (Option Job)}
    (h : At id label s p) (hidle : assigns p = false) (hsel : Selected id label s') :
    At id label s' p := by
  cases h with
  | reading => exact .reading
  | assigningId x _ => exact absurd hidle Bool.false_ne_true.symm
  | readingLabel _ => exact .readingLabel fun _ => hsel.id
  | assigningLabel x _ => exact absurd hidle Bool.false_ne_true.symm
  | loaded _ => exact .loaded fun _ => hsel

/-- Nothing is launched by a coroutine. -/
theorem pool_of_launch {intent : Option HomeIntent} {s : SelectionState}
    {ts : List (Thread SelectionOp SelectionOp.Res Empty Job)} {j : Option Job}
    (h : Pool id label ⟨s, ts⟩) (hj : j = none) :
    Pool id label ⟨s, ts ++ (system intent).launch j⟩ := by
  subst hj
  rw [System.launch_none, List.append_nil]
  exact h

/-- **Every action keeps the pool.** -/
theorem pool_next (hid : id ≠ -1) (hlabel : JString.isBlank label = false) {c c' : SelectionConf}
    {a : Act Unit Unit} (hc : Pool id label c) (hok : ordered id label c a = true)
    (hnext : (system (some ⟨some id, some label⟩)).next c a = some c') : Pool id label c' := by
  obtain ⟨p, rest, hthreads, hat, hrest⟩ := hc
  cases a with
  | event e =>
    obtain ⟨s', job, hhandle, rfl⟩ := System.next_event _ hnext
    have hidle : assigns p = false := by
      have hall := List.all_eq_true.mp hok ⟨.loadSelection, p⟩ (by rw [hthreads]; simp)
      simpa using hall
    have hdef : (system (some ⟨some id, some label⟩)).handle e c.shared =
        if c.shared.intentHandled then none
        else some (handleIntent (some ⟨some id, some label⟩)
          { c.shared with intentHandled := true }) := rfl
    rw [hdef] at hhandle
    split at hhandle
    · exact absurd hhandle (by simp)
    · rw [handleIntent_eq hid hlabel] at hhandle
      obtain ⟨rfl, rfl⟩ := Prod.mk.inj (Option.some.inj hhandle)
      refine ⟨p, rest ++ _, by rw [hthreads]; rfl, hat.selected hidle ⟨rfl, rfl, rfl⟩, ?_⟩
      intro t ht
      rcases List.mem_append.mp ht with ht | ht
      · exact hrest t ht
      · obtain rfl := List.mem_singleton.mp ht
        exact Or.inl rfl
  | step i env =>
    obtain ⟨j, o, k, hi, rfl⟩ := System.next_step _ hnext
    rw [hthreads] at hi ⊢
    cases i with
    | zero =>
      obtain ⟨rfl, rfl⟩ := Thread.mk.inj (Option.some.inj hi)
      have hread : o = .lastServerId ∨ o = .lastServerLabel →
          upToDate id label c.shared = true := by
        rintro (rfl | rfl) <;> simpa [ordered, hthreads] using hok
      obtain ⟨hstep, hlaunch⟩ := hat.step hlabel hread
      refine pool_of_launch ?_ hlaunch
      exact ⟨_, rest, rfl, hstep, hrest⟩
    | succ i =>
      have hmem : (⟨j, .op o k⟩ : Thread _ _ _ _) ∈ rest := List.mem_of_getElem? hi
      have hbody : Prog.op o k = storing id label :=
        (hrest _ hmem).resolve_right (by simp)
      cases hbody
      refine pool_of_launch ?_ rfl
      refine ⟨p, rest.set i ⟨j, .pure none⟩, rfl, hat.kept rfl, fun t ht => ?_⟩
      rcases List.mem_or_eq_of_mem_set ht with ht | rfl
      · exact hrest t ht
      · exact Or.inr rfl

/-- **An explicitly chosen server survives start-up.**  Let the activity be created with an
intent that carries the server `(id, label)`, the settings holding any last server or none.
In every interleaving in which the intent is not handled between a read of the loading
coroutine and the assignment of what it read, and in which nothing is read between the
handling of the intent and its transaction: once the intent is handled and all coroutines
have finished, the chosen server is selected. -/
theorem chosen_server_selected (settings : SettingsStore) (hid : id ≠ -1)
    (hlabel : JString.isBlank label = false) (d : SelectionConf)
    (hrun : (system (some ⟨some id, some label⟩)).Run (fun c a => ordered id label c a = true)
      (start (some ⟨some id, some label⟩) settings) d)
    (hhandled : d.shared.intentHandled = true) (hdone : Finished d) :
    d.shared.selectedServerId = some id ∧ d.shared.selectedServerLabel = some label ∧
      d.shared.smartAutoSelected = false := by
  have hpool : Pool id label d := by
    refine hrun.invariant ⟨_, [], rfl, ?_, by simp⟩ fun c c' a hc hok hnext =>
      pool_next hid hlabel hc hok hnext
    rw [body_loadSelection]
    exact .reading
  obtain ⟨p, rest, hthreads, hat, -⟩ := hpool
  have hend : p.running = false := hdone ⟨.loadSelection, p⟩ (by rw [hthreads]; simp)
  cases hat with
  | loaded hsel => exact ⟨(hsel hhandled).id, (hsel hhandled).label, (hsel hhandled).smart⟩
  | _ => exact absurd hend Bool.false_ne_true.symm

end Selection

/-- Another server is stored. -/
def formerServer : SettingsStore :=
  { lastServerId := some 1, lastServerLabel := some (jstr "Paris") }

/-- The intent of a chosen server. -/
def oslo : Option HomeIntent := some ⟨some 2, some (jstr "Oslo")⟩

/-- The theorem where the intent is handled after the id was assigned and the transaction
comes before the label is read. -/
theorem oslo_selected :
    let d := ((system oslo).exec (ordered 2 (jstr "Oslo")) (start oslo formerServer)
      [.step 0 (), .step 0 (), .event (), .step 1 (), .step 0 (), .step 0 ()]).get
      (by decide +kernel)
    d.shared.selectedServerId = some 2 ∧ d.shared.selectedServerLabel = some (jstr "Oslo") ∧
      d.shared.smartAutoSelected = false :=
  chosen_server_selected formerServer (by decide) (by decide) _
    (System.Run.of_exec (fun _ _ h => h) .refl (Option.some_get _).symm)
    (by decide +kernel) (by decide +kernel)

/-- **The chosen server is lost.**  In the first run both reads come before the
transaction, and the former server is selected again; in the second the transaction comes
between them, and the former id is paired with the label of the chosen server. -/
theorem chosen_server_lost :
    let ends := fun acts => ((system oslo).exec (fun _ _ => true) (start oslo formerServer)
      acts).map fun d => (decide (Finished d) && d.shared.intentHandled,
        d.shared.selectedServerId, d.shared.selectedServerLabel)
    ends ([.event ()] ++ List.replicate 4 (.step 0 ()) ++ [.step 1 ()]) =
        some (true, some 1, some (jstr "Paris")) ∧
      ends ([.event (), .step 0 (), .step 0 (), .step 1 (), .step 0 (), .step 0 ()]) =
        some (true, some 1, some (jstr "Oslo")) := by
  decide +kernel

end HomeSelection
end AioVpn
