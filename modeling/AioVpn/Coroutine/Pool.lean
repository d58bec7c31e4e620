import AioVpn.Coroutine.Prog

/-!
# Pools of coroutines

A system is a shared state, a pool of coroutines and a source of events.  An
event runs on its own, changes the shared state and may launch one coroutine; a
coroutine in the pool performs its next operation, and may launch another one as
the last thing it does.  Which of these happens next is not determined, so a
statement about the system is a statement about every run.

`System.Run S ok c` is the set of configurations reached from `c` by runs all of
whose actions meet `ok`.  The side condition is how an assumption on the runs is
written: it sees the configuration before the action and the action.  For a given
list of actions, `along_iff_each` compares what holds all along with what each of
the actions meets.

## The tracked coroutine

Most systems here are built so that one coroutine at a time does the real work
and a few light ones come and go around it.  `Tracking` describes such a system:
which jobs are tracked, what holds when none of them is running (`inv`), what
holds when one is launched (`pre`), which operations the light ones use, and the
contract the tracked bodies are verified against.  `Tracking.Sound` are the
obligations, one for each kind of action, and `Tracking.Sound.run` is the
conclusion: in every run the pool is either idle with `inv` or has exactly one
tracked coroutine running, whose weakest precondition holds.
-/

namespace AioVpn
namespace Coroutine

variable {Op : Type} {Res : Op → Type} {ε Env St J Ev : Type}

/-- A launched coroutine: the job it was launched for and what is left of it. -/
structure Thread (Op : Type) (Res : Op → Type) (ε J : Type) where
  job : J
  /-- The rest of the body; it returns the job it launches last, if any. -/
  body : Prog Op Res ε (Option J)

/-- A configuration: the shared state and the pool. -/
structure Conf (Op : Type) (Res : Op → Type) (ε J St : Type) where
  shared : St
  /-- The coroutines launched so far. -/
  threads : List (Thread Op Res ε J)

/-- One action: an event, or the next operation of a coroutine. -/
inductive Act (Ev Env : Type) where
  | event (e : Ev)
  | step (i : ℕ) (env : Env)

/-- A system of coroutines over a shared state. -/
structure System (Op : Type) (Res : Op → Type) (ε Env St J Ev : Type) where
  /-- The answer to an operation and the state after it. -/
  perform : (o : Op) → Env → St → Res o × St
  body : J → Prog Op Res ε (Option J)
  /-- What an event does, and the job it launches; `none` when it cannot occur. -/
  handle : Ev → St → Option (St × Option J)

/-- The job a body launches at its end. -/
def Prog.launched : Prog Op Res ε (Option J) → Option J
  | .pure j => j
  | _ => none

@[simp] theorem Prog.launched_pure (j : Option J) :
    (Prog.pure j : Prog Op Res ε (Option J)).launched = j := rfl

@[simp] theorem Prog.launched_throw (e : ε) :
    (Prog.throw e : Prog Op Res ε (Option J)).launched = none := rfl

@[simp] theorem Prog.launched_op (o : Op) (k : Res o → Prog Op Res ε (Option J)) :
    (Prog.op o k).launched = none := rfl

/-- What is launched is a value that is returned. -/
theorem Prog.Returns.launched {Q : Option J → Prop} {p : Prog Op Res ε (Option J)}
    (h : p.Returns Q) {j : J} (hj : p.launched = some j) : Q (some j) := by
  cases p with
  | pure i =>
    obtain rfl : i = some j := hj
    exact h
  | throw e => exact absurd hj (by simp)
  | op o k => exact absurd hj (by simp)

namespace System

variable (S : System Op Res ε Env St J Ev)

/-- The threads a launch adds. -/
def launch : Option J → List (Thread Op Res ε J)
  | none => []
  | some j => [⟨j, S.body j⟩]

@[simp] theorem launch_none : S.launch none = [] := rfl

@[simp] theorem launch_some (j : J) : S.launch (some j) = [⟨j, S.body j⟩] := rfl

theorem mem_launch {j : Option J} {t : Thread Op Res ε J} :
    t ∈ S.launch j ↔ ∃ i, j = some i ∧ t = ⟨i, S.body i⟩ := by
  cases j <;> simp

/-- The configuration after an action; `none` when the action is not possible. -/
def next (c : Conf Op Res ε J St) : Act Ev Env → Option (Conf Op Res ε J St)
  | .event e => (S.handle e c.shared).map fun x => ⟨x.1, c.threads ++ S.launch x.2⟩
  | .step i env =>
      match c.threads[i]? with
      | some ⟨j, .op o k⟩ =>
          let x := S.perform o env c.shared
          some ⟨x.2, c.threads.set i ⟨j, k x.1⟩ ++ S.launch (k x.1).launched⟩
      | _ => none

theorem next_event {c c' : Conf Op Res ε J St} {e : Ev} (h : S.next c (.event e) = some c') :
    ∃ s' j, S.handle e c.shared = some (s', j) ∧ c' = ⟨s', c.threads ++ S.launch j⟩ := by
  rw [next, Option.map_eq_some_iff] at h
  obtain ⟨⟨s', j⟩, hs, rfl⟩ := h
  exact ⟨s', j, hs, rfl⟩

theorem next_step {c c' : Conf Op Res ε J St} {i : ℕ} {env : Env}
    (h : S.next c (.step i env) = some c') :
    ∃ j o k, c.threads[i]? = some ⟨j, .op o k⟩ ∧
      c' = ⟨(S.perform o env c.shared).2,
        c.threads.set i ⟨j, k (S.perform o env c.shared).1⟩ ++
          S.launch (k (S.perform o env c.shared).1).launched⟩ := by
  rw [next] at h
  split at h
  · rename_i j o k hget
    exact ⟨j, o, k, hget, (Option.some.inj h).symm⟩
  · exact absurd h (by simp)

/-! ## Runs -/

/-- The configurations reached from `c` by runs all of whose actions meet `ok`. -/
inductive Run (ok : Conf Op Res ε J St → Act Ev Env → Prop) (c : Conf Op Res ε J St) :
    Conf Op Res ε J St → Prop where
  | refl : Run ok c c
  | tail {d d' : Conf Op Res ε J St} {a : Act Ev Env} :
      Run ok c d → ok d a → S.next d a = some d' → Run ok c d'

variable {S} in
/-- **Invariants.**  What holds at the start and is kept by every action holds in
every configuration reached. -/
theorem Run.invariant {ok : Conf Op Res ε J St → Act Ev Env → Prop}
    {P : Conf Op Res ε J St → Prop} {c d : Conf Op Res ε J St} (hrun : S.Run ok c d) (h₀ : P c)
    (hstep : ∀ d d' a, P d → ok d a → S.next d a = some d' → P d') : P d := by
  induction hrun with
  | refl => exact h₀
  | tail _ hok hnext ih => exact hstep _ _ _ ih hok hnext

variable {S} in
/-- **Strengthening the side condition** by an invariant whose step may use that the run
so far meets the stronger condition. -/
theorem Run.and_invariant {ok : Conf Op Res ε J St → Act Ev Env → Prop}
    {P : Conf Op Res ε J St → Prop} {c d : Conf Op Res ε J St} (hrun : S.Run ok c d) (h₀ : P c)
    (hstep : ∀ d d' a, S.Run (fun c a => ok c a ∧ P c) c d → P d → ok d a →
      S.next d a = some d' → P d') :
    S.Run (fun c a => ok c a ∧ P c) c d ∧ P d := by
  induction hrun with
  | refl => exact ⟨.refl, h₀⟩
  | tail _ hok hnext ih =>
    obtain ⟨hd, hP⟩ := ih
    exact ⟨hd.tail ⟨hok, hP⟩ hnext, hstep _ _ _ hd hP hok hnext⟩

/-- Carry out a list of actions, checking a decidable side condition. -/
def exec (okb : Conf Op Res ε J St → Act Ev Env → Bool) :
    Conf Op Res ε J St → List (Act Ev Env) → Option (Conf Op Res ε J St)
  | c, [] => some c
  | c, a :: as =>
      if okb c a then
        match S.next c a with
        | some c' => exec okb c' as
        | none => none
      else none

variable {S} in
/-- A list of actions that can be carried out is a run. -/
theorem Run.of_exec {ok : Conf Op Res ε J St → Act Ev Env → Prop}
    {okb : Conf Op Res ε J St → Act Ev Env → Bool} (hok : ∀ c a, okb c a = true → ok c a)
    {as : List (Act Ev Env)} {c d e : Conf Op Res ε J St} (hcd : S.Run ok c d)
    (h : S.exec okb d as = some e) : S.Run ok c e := by
  induction as generalizing d with
  | nil => rwa [← Option.some.inj h]
  | cons a as ih =>
    rw [exec] at h
    split at h
    · rename_i hb
      split at h
      · rename_i d' hd'
        exact ih (hcd.tail (hok d a hb) hd') h
      · exact absurd h (by simp)
    · exact absurd h (by simp)

/-- The property holds in the configuration and after each action of the list, as far as it can be
carried out. -/
def Along (P : Conf Op Res ε J St → Prop) : Conf Op Res ε J St → List (Act Ev Env) → Prop
  | c, [] => P c
  | c, a :: as => P c ∧ ∀ c', S.next c a = some c' → Along P c' as

/-- Each action of the list, as far as it can be carried out, meets the condition. -/
def each (okb : Conf Op Res ε J St → Act Ev Env → Bool) :
    Conf Op Res ε J St → List (Act Ev Env) → Bool
  | _, [] => true
  | c, a :: as => (S.next c a).all fun c' => okb c a && each okb c' as

variable {S} in
/-- **Along a run.**  A property that an action keeps exactly if it meets a condition holds all
along a list of actions exactly if each of them meets it; `I` is what is known in any case. -/
theorem along_iff_each {I P : Conf Op Res ε J St → Prop}
    {okb : Conf Op Res ε J St → Act Ev Env → Bool}
    (hI : ∀ c c' a, I c → S.next c a = some c' → I c')
    (hP : ∀ c c' a, I c → P c → S.next c a = some c' → (P c' ↔ okb c a = true))
    {c : Conf Op Res ε J St} (hc : I c) (h₀ : P c) (as : List (Act Ev Env)) :
    S.Along P c as ↔ S.each okb c as = true := by
  induction as generalizing c with
  | nil => exact iff_of_true h₀ rfl
  | cons a as ih =>
    rw [Along, each]
    cases hnext : S.next c a with
    | none => simp [h₀]
    | some c' =>
      have hstep := hP c c' a hc h₀ hnext
      rw [Option.all_some, Bool.and_eq_true, ← hstep]
      constructor
      · rintro ⟨-, h⟩
        have halong := h c' rfl
        have hc' : P c' := by
          cases as with
          | nil => exact halong
          | cons a as => exact halong.1
        exact ⟨hc', (ih (hI c c' a hc hnext) hc').mp halong⟩
      · rintro ⟨hc', h⟩
        refine ⟨h₀, fun d hd => ?_⟩
        obtain rfl := Option.some.inj hd
        exact (ih (hI c c' a hc hnext) hc').mpr h

end System

/-! ## The tracked coroutine -/

/-- The description of a system in which one tracked coroutine at a time does the
work. -/
structure Tracking (Op : Type) (Res : Op → Type) (ε Env St J : Type) where
  /-- What the tracked bodies are verified against. -/
  contract : Contract Op Res Env St
  /-- The jobs of which one runs at a time. -/
  tracked : J → Prop
  /-- The operations of the other jobs, with what follows them. -/
  light : (o : Op) → (Res o → Prog Op Res ε (Option J)) → Prop
  /-- What holds while no tracked job is running. -/
  inv : St → Prop
  /-- What holds when a tracked job is launched. -/
  pre : J → St → Prop

namespace Tracking

variable (T : Tracking Op Res ε Env St J)

/-- No tracked job is running. -/
def Idle (c : Conf Op Res ε J St) : Prop :=
  ∀ t ∈ c.threads, T.tracked t.job → t.body.running = false

/-- What a tracked body owes when it returns: the precondition of a tracked job it
launches, and `inv` when it launches none. -/
def Settled (j : Option J) (s : St) : Prop :=
  (∀ i, j = some i → T.tracked i → T.pre i s) ∧ ((∀ i, j = some i → ¬ T.tracked i) → T.inv s)

/-- A tracked job `t` is running, and no other. -/
def Active (c : Conf Op Res ε J St) (t : Thread Op Res ε J) : Prop :=
  ∃ l r, c.threads = l ++ t :: r ∧ T.tracked t.job ∧ t.body.running = true ∧
    (∀ u ∈ l ++ r, T.tracked u.job → u.body.running = false) ∧
    T.contract.wp T.Settled (fun _ => T.inv) t.body c.shared

/-- **The invariant of the pool.** -/
def Inv (c : Conf Op Res ε J St) : Prop :=
  (∀ t ∈ c.threads, ¬ T.tracked t.job → t.body.Nodes T.light) ∧
    ((T.Idle c ∧ T.inv c.shared) ∨ ∃ t, T.Active c t)

/-- A move of something else than the tracked coroutine: it launches a tracked job
only when none is running, and otherwise the running one does not notice it. -/
def Allowed (c : Conf Op Res ε J St) (s' : St) (j : Option J) : Prop :=
  (∀ i, j = some i → T.tracked i → T.Idle c ∧ (T.inv c.shared → T.pre i s')) ∧
    ((∀ i, j = some i → ¬ T.tracked i) →
      (T.inv c.shared → T.inv s') ∧ (T.Idle c ∨ T.contract.rely c.shared s'))

/-- The obligations on a system, one for each kind of action. -/
structure Sound (S : System Op Res ε Env St J Ev)
    (ok : Conf Op Res ε J St → Act Ev Env → Prop) : Prop where
  /-- The contract speaks about the system's own operations. -/
  perform_eq : T.contract.perform = S.perform
  /-- A tracked body starts with an operation. -/
  running : ∀ j, T.tracked j → (S.body j).running = true
  /-- The other bodies use light operations only. -/
  light : ∀ j, ¬ T.tracked j → (S.body j).Nodes T.light
  /-- A tracked body is correct. -/
  body : ∀ j s, T.tracked j → T.pre j s →
    T.contract.wp T.Settled (fun _ => T.inv) (S.body j) s
  event : ∀ (c : Conf Op Res ε J St) e s' j, T.Inv c → ok c (.event e) →
    S.handle e c.shared = some (s', j) → T.Allowed c s' j
  /-- Operations of light coroutines. -/
  step : ∀ (c : Conf Op Res ε J St) i env j o k, T.Inv c → ok c (.step i env) →
    c.threads[i]? = some ⟨j, .op o k⟩ → ¬ T.tracked j → T.light o k →
    T.Allowed c (S.perform o env c.shared).2 (k (S.perform o env c.shared).1).launched
  /-- Operations of tracked coroutines. -/
  assume : ∀ (c : Conf Op Res ε J St) i env j o k, T.Inv c → ok c (.step i env) →
    c.threads[i]? = some ⟨j, .op o k⟩ → T.tracked j → T.contract.assume o env c.shared

variable {T}

theorem Active.not_idle {c : Conf Op Res ε J St} {t : Thread Op Res ε J} (h : T.Active c t) :
    ¬ T.Idle c := by
  obtain ⟨l, r, hc, htr, hrun, -, -⟩ := h
  intro hidle
  have hmem : t ∈ c.threads := by rw [hc]; simp
  rw [hidle t hmem htr] at hrun
  exact absurd hrun (by simp)

/-- The running tracked coroutine is the active one. -/
theorem Active.eq_of_running {c : Conf Op Res ε J St} {t u : Thread Op Res ε J}
    (h : T.Active c t) (hu : u ∈ c.threads) (htr : T.tracked u.job)
    (hrun : u.body.running = true) : u = t := by
  obtain ⟨l, r, hc, -, -, hothers, -⟩ := h
  by_contra hne
  have hmem : u ∈ l ++ r := by
    rw [hc] at hu
    simp only [List.mem_append, List.mem_cons] at hu ⊢
    tauto
  rw [hothers u hmem htr] at hrun
  exact absurd hrun (by simp)

/-- In a pool that meets the invariant, a running tracked coroutine owes what its
contract asserts. -/
theorem Inv.assert {c : Conf Op Res ε J St} (h : T.Inv c) {t : Thread Op Res ε J}
    (ht : t ∈ c.threads) (htr : T.tracked t.job) {o : Op} {k : Res o → Prog Op Res ε (Option J)}
    (hbody : t.body = .op o k) : T.contract.assert o c.shared := by
  have hrun : t.body.running = true := by rw [hbody]; rfl
  rcases h.2 with ⟨hidle, -⟩ | ⟨u, hu⟩
  · rw [hidle t ht htr] at hrun
    exact absurd hrun (by simp)
  · obtain rfl := hu.eq_of_running ht htr hrun
    obtain ⟨-, -, -, -, -, -, hwp⟩ := hu
    rw [hbody] at hwp
    exact Contract.assert_of_wp hwp

/-- At most one tracked coroutine is running. -/
theorem Inv.unique {c : Conf Op Res ε J St} (h : T.Inv c) {i j : ℕ} {t u : Thread Op Res ε J}
    (hi : c.threads[i]? = some t) (hj : c.threads[j]? = some u) (ht : T.tracked t.job)
    (hu : T.tracked u.job) (hrt : t.body.running = true) (hru : u.body.running = true) :
    i = j := by
  rcases h.2 with ⟨hidle, -⟩ | ⟨v, l, r, hc, -, -, hothers, -⟩
  · rw [hidle t (List.mem_of_getElem? hi) ht] at hrt
    exact absurd hrt (by simp)
  · -- both positions are the position of the active coroutine
    have key : ∀ n w, c.threads[n]? = some w → T.tracked w.job → w.body.running = true →
        n = l.length := by
      intro n w hn hw hrw
      by_contra hne
      have hmem : w ∈ l ++ r := by
        rw [hc] at hn
        rcases lt_or_gt_of_ne hne with hlt | hgt
        · rw [List.getElem?_append_left hlt] at hn
          exact List.mem_append_left _ (List.mem_of_getElem? hn)
        · rw [List.getElem?_append_right (le_of_lt hgt)] at hn
          have hpos : n - l.length = (n - l.length - 1) + 1 := by omega
          rw [hpos, List.getElem?_cons_succ] at hn
          exact List.mem_append_right _ (List.mem_of_getElem? hn)
      rw [hothers w hmem hw] at hrw
      exact absurd hrw (by simp)
    rw [key i t hi ht hrt, key j u hj hu hru]

/-! ### Preservation -/

section

variable {S : System Op Res ε Env St J Ev} {ok : Conf Op Res ε J St → Act Ev Env → Prop}

/-- What is launched beside the tracked coroutine is light. -/
theorem Sound.light_launch (hT : T.Sound S ok) {ts : List (Thread Op Res ε J)}
    (hlight : ∀ t ∈ ts, ¬ T.tracked t.job → t.body.Nodes T.light) (j : Option J) :
    ∀ t ∈ ts ++ S.launch j, ¬ T.tracked t.job → t.body.Nodes T.light := by
  intro t ht htr
  rcases List.mem_append.mp ht with ht | ht
  · exact hlight t ht htr
  · obtain ⟨i, -, rfl⟩ := S.mem_launch.mp ht
    exact hT.light i htr

/-- Launching while no tracked coroutine is running. -/
theorem Sound.inv_of_settled (hT : T.Sound S ok) {s' : St} {j : Option J}
    {ts : List (Thread Op Res ε J)} (hsettled : T.Settled j s')
    (hlight : ∀ t ∈ ts, ¬ T.tracked t.job → t.body.Nodes T.light)
    (hidle : ∀ t ∈ ts, T.tracked t.job → t.body.running = false) :
    T.Inv (⟨s', ts ++ S.launch j⟩ : Conf Op Res ε J St) := by
  refine ⟨hT.light_launch hlight j, ?_⟩
  by_cases htracked : ∃ i, j = some i ∧ T.tracked i
  · obtain ⟨i, rfl, hi⟩ := htracked
    refine Or.inr ⟨⟨i, S.body i⟩, ts, [], by simp, hi, hT.running i hi, ?_, ?_⟩
    · rw [List.append_nil]
      exact hidle
    · exact hT.body i s' hi (hsettled.1 i rfl hi)
  · have hno : ∀ i, j = some i → ¬ T.tracked i := fun i hi htr => htracked ⟨i, hi, htr⟩
    refine Or.inl ⟨?_, hsettled.2 hno⟩
    intro t ht htr
    rcases List.mem_append.mp ht with ht | ht
    · exact hidle t ht htr
    · obtain ⟨i, hi, rfl⟩ := S.mem_launch.mp ht
      exact absurd htr (hno i hi)

/-- Launching a light coroutine beside the active one. -/
theorem Active.launch {s' : St} {ts : List (Thread Op Res ε J)} {t : Thread Op Res ε J}
    (h : T.Active (⟨s', ts⟩ : Conf Op Res ε J St) t) {j : Option J}
    (hno : ∀ i, j = some i → ¬ T.tracked i) :
    T.Active (⟨s', ts ++ S.launch j⟩ : Conf Op Res ε J St) t := by
  obtain ⟨l, r, hts, htr, hrun, hothers, hwp⟩ := h
  obtain rfl : ts = l ++ t :: r := hts
  refine ⟨l, r ++ S.launch j, by simp, htr, hrun, ?_, hwp⟩
  intro u hu hutr
  rw [← List.append_assoc] at hu
  rcases List.mem_append.mp hu with hu | hu
  · exact hothers u hu hutr
  · obtain ⟨i, hi, rfl⟩ := S.mem_launch.mp hu
    exact absurd hutr (hno i hi)

/-- Launching after a move by something else than the tracked coroutine. -/
theorem Sound.inv_of_allowed (hT : T.Sound S ok) {c : Conf Op Res ε J St} (hc : T.Inv c)
    {s' : St} {j : Option J} {ts : List (Thread Op Res ε J)} (hallowed : T.Allowed c s' j)
    (hlight : ∀ t ∈ ts, ¬ T.tracked t.job → t.body.Nodes T.light)
    (hidle : T.Idle c → ∀ t ∈ ts, T.tracked t.job → t.body.running = false)
    (hactive : ∀ t, T.Active c t → T.contract.rely c.shared s' →
      T.Active (⟨s', ts⟩ : Conf Op Res ε J St) t) :
    T.Inv (⟨s', ts ++ S.launch j⟩ : Conf Op Res ε J St) := by
  rcases hc.2 with ⟨hcidle, hcinv⟩ | ⟨t, ht⟩
  · refine hT.inv_of_settled ⟨fun i hi htr => ?_, fun hno => ?_⟩ hlight (hidle hcidle)
    · exact (hallowed.1 i hi htr).2 hcinv
    · exact (hallowed.2 hno).1 hcinv
  · have hno : ∀ i, j = some i → ¬ T.tracked i :=
      fun i hi htr => ht.not_idle (hallowed.1 i hi htr).1
    have hrely : T.contract.rely c.shared s' :=
      (hallowed.2 hno).2.resolve_left ht.not_idle
    exact ⟨hT.light_launch hlight j, Or.inr ⟨t, (hactive t ht hrely).launch hno⟩⟩

/-- An event keeps the invariant. -/
theorem Sound.inv_event (hT : T.Sound S ok) {c c' : Conf Op Res ε J St} (hc : T.Inv c) {e : Ev}
    (hok : ok c (.event e)) (hnext : S.next c (.event e) = some c') : T.Inv c' := by
  obtain ⟨s', j, hh, rfl⟩ := S.next_event hnext
  refine hT.inv_of_allowed hc (hT.event c e s' j hc hok hh) hc.1 (fun h => h) ?_
  rintro t ⟨l, r, hts, htr, hrun, hothers, hwp⟩ hrely
  exact ⟨l, r, hts, htr, hrun, hothers, Contract.wp_of_rely hrun hwp hrely⟩

/-- Replacing a light coroutine does not move the active one. -/
theorem Active.set_light {c : Conf Op Res ε J St} {t : Thread Op Res ε J} (h : T.Active c t)
    {i : ℕ} {u v : Thread Op Res ε J} (hi : c.threads[i]? = some u) (hu : ¬ T.tracked u.job)
    (hv : ¬ T.tracked v.job) {s' : St} (hrely : T.contract.rely c.shared s') :
    T.Active (⟨s', c.threads.set i v⟩ : Conf Op Res ε J St) t := by
  obtain ⟨l, r, hts, htr, hrun, hothers, hwp⟩ := h
  have hwp' := Contract.wp_of_rely hrun hwp hrely
  rw [hts] at hi
  have hsub : ∀ w ∈ l.set i v ++ r.set (i - l.length - 1) v, T.tracked w.job →
      w.body.running = false := by
    intro w hw hwtr
    rcases List.mem_append.mp hw with hw | hw
    · rcases List.mem_or_eq_of_mem_set hw with hw | rfl
      · exact hothers w (List.mem_append_left _ hw) hwtr
      · exact absurd hwtr hv
    · rcases List.mem_or_eq_of_mem_set hw with hw | rfl
      · exact hothers w (List.mem_append_right _ hw) hwtr
      · exact absurd hwtr hv
  rcases lt_trichotomy i l.length with hlt | heq | hgt
  · refine ⟨l.set i v, r, ?_, htr, hrun, ?_, hwp'⟩
    · show c.threads.set i v = _
      rw [hts, List.set_append_left _ _ hlt]
    · intro w hw hwtr
      rcases List.mem_append.mp hw with hw' | hw'
      · exact hsub w (List.mem_append_left _ hw') hwtr
      · exact hothers w (List.mem_append_right _ hw') hwtr
  · rw [heq, List.getElem?_append_right (le_refl _), Nat.sub_self, List.getElem?_cons_zero] at hi
    rw [Option.some.inj hi] at htr
    exact absurd htr hu
  · refine ⟨l, r.set (i - l.length - 1) v, ?_, htr, hrun, ?_, hwp'⟩
    · show c.threads.set i v = _
      have hpos : i - l.length = (i - l.length - 1) + 1 := by omega
      rw [hts, List.set_append_right _ _ (le_of_lt hgt), hpos, List.set_cons_succ]
      simp
    · intro w hw hwtr
      rcases List.mem_append.mp hw with hw' | hw'
      · exact hothers w (List.mem_append_left _ hw') hwtr
      · exact hsub w (List.mem_append_right _ hw') hwtr

/-- The operation of a light coroutine keeps the invariant. -/
theorem Sound.inv_step_light (hT : T.Sound S ok) {c : Conf Op Res ε J St} (hc : T.Inv c) {i : ℕ}
    {env : Env} {j : J} {o : Op} {k : Res o → Prog Op Res ε (Option J)}
    (hok : ok c (.step i env)) (hi : c.threads[i]? = some ⟨j, .op o k⟩) (hj : ¬ T.tracked j) :
    T.Inv (⟨(S.perform o env c.shared).2,
      c.threads.set i ⟨j, k (S.perform o env c.shared).1⟩ ++
        S.launch (k (S.perform o env c.shared).1).launched⟩ : Conf Op Res ε J St) := by
  have honly : (Prog.op o k).Nodes T.light := hc.1 _ (List.mem_of_getElem? hi) hj
  refine hT.inv_of_allowed hc (hT.step c i env j o k hc hok hi hj honly.1) ?_ ?_ ?_
  · intro t ht htr
    rcases List.mem_or_eq_of_mem_set ht with ht | rfl
    · exact hc.1 t ht htr
    · exact honly.2 _
  · intro hidle t ht htr
    rcases List.mem_or_eq_of_mem_set ht with ht | rfl
    · exact hidle t ht htr
    · exact absurd htr hj
  · exact fun t ht hrely => ht.set_light hi hj hj hrely

/-- The operation of the tracked coroutine keeps the invariant. -/
theorem Sound.inv_step_tracked (hT : T.Sound S ok) {c : Conf Op Res ε J St} (hc : T.Inv c) {i : ℕ}
    {env : Env} {j : J} {o : Op} {k : Res o → Prog Op Res ε (Option J)}
    (hok : ok c (.step i env)) (hi : c.threads[i]? = some ⟨j, .op o k⟩) (hj : T.tracked j) :
    T.Inv (⟨(S.perform o env c.shared).2,
      c.threads.set i ⟨j, k (S.perform o env c.shared).1⟩ ++
        S.launch (k (S.perform o env c.shared).1).launched⟩ : Conf Op Res ε J St) := by
  have hmem := List.mem_of_getElem? hi
  have hrun : (Prog.op o k).running = true := rfl
  rcases hc.2 with ⟨hidle, -⟩ | ⟨t, ht⟩
  · exact absurd (hidle _ hmem hj) (by simp)
  obtain rfl := ht.eq_of_running hmem hj hrun
  obtain ⟨l, r, hts, -, -, hothers, hwp⟩ := ht
  have hpos : i = l.length := by
    have hl : c.threads[l.length]? = some ⟨j, .op o k⟩ := by
      rw [hts, List.getElem?_append_right (le_refl _), Nat.sub_self, List.getElem?_cons_zero]
    exact hc.unique hi hl hj hj hrun hrun
  have hassume := hT.assume c i env j o k hc hok hi hj
  have hwp' := Contract.wp_step hwp hassume
  rw [hT.perform_eq] at hwp'
  set x := S.perform o env c.shared with hx
  have hset : c.threads.set i ⟨j, k x.1⟩ = l ++ ⟨j, k x.1⟩ :: r := by
    rw [hpos, hts, List.set_append_right _ _ (le_refl _), Nat.sub_self, List.set_cons_zero]
  have hlight : ∀ t ∈ l ++ (⟨j, k x.1⟩ : Thread Op Res ε J) :: r, ¬ T.tracked t.job →
      t.body.Nodes T.light := by
    intro t ht htr
    rw [← hset] at ht
    rcases List.mem_or_eq_of_mem_set ht with ht | rfl
    · exact hc.1 t ht htr
    · exact absurd hj htr
  have hothers' : (k x.1).running = false → ∀ t ∈ l ++ (⟨j, k x.1⟩ : Thread Op Res ε J) :: r,
      T.tracked t.job → t.body.running = false := by
    intro hdone t ht htr
    simp only [List.mem_append, List.mem_cons] at ht
    rcases ht with ht | rfl | ht
    · exact hothers t (List.mem_append_left _ ht) htr
    · exact hdone
    · exact hothers t (List.mem_append_right _ ht) htr
  rw [hset]
  -- what the body does next: it goes on, throws, or returns with a launch
  cases hk : k x.1 with
  | op o' k' =>
    rw [hk] at hwp' hlight
    have hactive : T.Active (⟨x.2, l ++ ⟨j, .op o' k'⟩ :: r⟩ : Conf Op Res ε J St)
        ⟨j, .op o' k'⟩ := ⟨l, r, rfl, hj, rfl, hothers, hwp'⟩
    exact ⟨hT.light_launch hlight none, Or.inr ⟨_, hactive.launch (by simp)⟩⟩
  | throw e =>
    rw [hk] at hwp' hlight hothers'
    exact hT.inv_of_settled ⟨by simp, fun _ => hwp'⟩ hlight (hothers' rfl)
  | pure next =>
    rw [hk] at hwp' hlight hothers'
    exact hT.inv_of_settled hwp' hlight (hothers' rfl)

/-- **Every run keeps the invariant of the pool.** -/
theorem Sound.run (hT : T.Sound S ok) {c d : Conf Op Res ε J St} (hrun : S.Run ok c d)
    (hc : T.Inv c) : T.Inv d := by
  refine hrun.invariant hc ?_
  intro d d' a hd hok hnext
  cases a with
  | event e => exact hT.inv_event hd hok hnext
  | step i env =>
    obtain ⟨j, o, k, hi, rfl⟩ := S.next_step hnext
    by_cases hj : T.tracked j
    · exact hT.inv_step_tracked hd hok hi hj
    · exact hT.inv_step_light hd hok hi hj

end

end Tracking
end Coroutine
end AioVpn
