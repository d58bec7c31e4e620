import AioVpn.Home.HomeSpec

/-!
# One operation at a time

`connectSmartAuto`, `connectToSpecificServer` and `disconnectCurrentTunnel` each check
`isBusy` before they launch, and set a busy state before the launch.  Mutual exclusion
follows if the state stays busy for as long as the operation is unfinished.

The operations themselves keep it busy up to their last step (`wp_operation`): every
step but the last leaves the state alone or sets `VERIFYING`.  Two other writers do
not care: `updateUiFromBackendState`, which every resume launches and which later sets
`CONNECTED` or `DISCONNECTED`, and `onActivityResult`, which sets `DISCONNECTED`.  In
every run in which these two write only while no operation is unfinished, at most one
operation is unfinished at any time and the guard is closed while one is
(`one_operation_at_a_time`).  Otherwise it is not so (`second_operation_launched`).
-/

namespace AioVpn
namespace HomeActivity

open Coroutine

variable (net : NetApi) (packageName : JString)

/-! ## Steps that keep the guard closed -/

/-- The step does not write `currentVpnState`. -/
def KeepsState : HomeOp → Prop
  | .main (.showText _) => True
  | .main .refresh => True
  | .main _ => False
  | .startSmartAuto => False
  | _ => True

/-- The step keeps the guard closed. -/
def StaysBusy : HomeOp → Prop
  | .main (.verifying _) => True
  | o => KeepsState o

theorem currentVpnState_perform {o : HomeOp} (ho : KeepsState o) (env : HomeEnv) (s : HomeState) :
    (perform net packageName o env s).2.currentVpnState = s.currentVpnState := by
  cases o with
  | main b => cases b <;> first | rfl | exact absurd ho (by simp [KeepsState])
  | startSmartAuto => exact absurd ho (by simp [KeepsState])
  | wgConfig serverId =>
    rw [perform]
    split <;> rfl
  | saveLastServer serverId label =>
    rw [perform]
    split <;> rfl
  | clearLastServer =>
    rw [perform]
    split <;> rfl
  | _ => rfl

theorem isBusy_congr {s t : HomeState} (h : t.currentVpnState = s.currentVpnState) :
    isBusy t = isBusy s := by
  unfold isBusy
  rw [h]

theorem isBusy_perform {o : HomeOp} (ho : StaysBusy o) (env : HomeEnv) {s : HomeState}
    (hs : isBusy s = true) : isBusy (perform net packageName o env s).2 = true := by
  unfold StaysBusy at ho
  split at ho
  · rfl
  · rw [isBusy_congr (currentVpnState_perform net packageName ho env s)]
    exact hs

/-! ## The operations -/

/-- What an operation owes before each of its steps: the guard is closed.  Meanwhile
nothing else writes the state. -/
def busyContract : Contract HomeOp HomeOp.Res HomeEnv HomeState where
  perform := perform net packageName
  assume := fun _ _ _ => True
  assert := fun _ s => isBusy s = true
  rely := fun s t => t.currentVpnState = s.currentVpnState
  rely_refl := fun _ => rfl
  rely_trans := fun h h' => h'.trans h

section Bodies

variable {α β : Type} {s : HomeState}

/-- A part of a body that keeps the guard closed. -/
theorem wp_staysBusy {p : HomeProg α} (hp : p.OnlyOps StaysBusy) (hs : isBusy s = true) :
    (busyContract net packageName).wp (fun _ s' => isBusy s' = true)
      (fun _ s' => isBusy s' = true) p s :=
  Contract.wp_of_onlyOps
    (fun _ _ h hrely => (isBusy_congr hrely).trans h)
    (fun _ _ _ h => h)
    (fun _ env _ ho h _ => isBusy_perform net packageName ho env h) hp hs

/-- A part that keeps the guard closed, and what follows it. -/
theorem wp_staysBusy_bind {p : HomeProg α} {f : α → HomeProg β} {Q : β → HomeState → Prop}
    {E : HomeExn → HomeState → Prop} (hp : p.OnlyOps StaysBusy) (hs : isBusy s = true)
    (hE : ∀ e s', isBusy s' = true → E e s')
    (hf : ∀ a s', isBusy s' = true → (busyContract net packageName).wp Q E (f a) s') :
    (busyContract net packageName).wp Q E (p.bind f) s := by
  rw [Contract.wp_bind]
  exact Contract.wp_mono (fun a s' h => hf a s' h) hE (wp_staysBusy net packageName hp hs)

/-- The last step of an operation. -/
theorem wp_last (o : HomeOp) {Q : o.Res → HomeState → Prop} {E : HomeExn → HomeState → Prop}
    (hs : isBusy s = true) (hQ : ∀ r s', Q r s') :
    (busyContract net packageName).wp Q E (step o) s := by
  intro s₁ hrely
  exact ⟨(isBusy_congr hrely).trans hs, fun _ _ => hQ _ _⟩

end Bodies

theorem onlyOps_step {o : HomeOp} (ho : StaysBusy o) : (step o).OnlyOps StaysBusy :=
  Prog.OnlyOps.perform ho

theorem staysBusy_backend {α : Type} (p : WgProg α) : (backend p).OnlyOps StaysBusy :=
  onlyOps_backend (fun _ => trivial) p

theorem staysBusy_disconnectQuietly : disconnectQuietly.OnlyOps StaysBusy :=
  Prog.OnlyOps.tryCatch (staysBusy_backend _) fun _ => trivial

theorem staysBusy_fetchAndConnect (serverId : ℤ) (label : JString) :
    (fetchAndConnect serverId label).OnlyOps StaysBusy := by
  refine (onlyOps_fetchAndConnect serverId label).mono fun o ho => ?_
  cases o with
  | main b => cases b <;> trivial
  | _ => trivial

theorem staysBusy_smartCandidates (forceFresh : Bool) :
    (smartCandidates forceFresh).OnlyOps StaysBusy := by
  refine (onlyOps_smartCandidates forceFresh).mono fun o ho => ?_
  cases o <;> trivial

/-- A round of the candidate loop: it ends the operation or throws with the guard
closed. -/
theorem wp_tryCandidate (candidate : WgServerDto) {s : HomeState} (hs : isBusy s = true) :
    (busyContract net packageName).wp (fun _ _ => True) (fun _ s' => isBusy s' = true)
      (tryCandidate candidate) s := by
  refine wp_staysBusy_bind net packageName (onlyOps_step (by trivial)) hs
    (fun _ _ h => h) fun _ s₁ h₁ => ?_
  refine wp_staysBusy_bind net packageName (staysBusy_fetchAndConnect _ _) h₁
    (fun _ _ h => h) fun _ s₂ h₂ => ?_
  refine wp_staysBusy_bind net packageName (onlyOps_step (by trivial)) h₂
    (fun _ _ h => h) fun _ s₃ h₃ => ?_
  refine wp_staysBusy_bind net packageName (onlyOps_step (by trivial)) h₃
    (fun _ _ h => h) fun _ s₄ h₄ => ?_
  exact wp_last net packageName _ h₄ fun _ _ => trivial

theorem wp_candidateLoop (candidates : List WgServerDto) (lastError : Option HomeExn)
    {s : HomeState} (hs : isBusy s = true) :
    (busyContract net packageName).wp (fun _ _ => True) (fun _ s' => isBusy s' = true)
      (candidateLoop candidates lastError) s := by
  induction candidates generalizing lastError s with
  | nil => exact hs
  | cons candidate rest ih =>
    -- a round that returns ends the loop, a round that throws goes on with the guard closed
    rw [candidateLoop, Contract.wp_bind, Contract.wp_tryCatch, Contract.wp_bind]
    refine Contract.wp_mono (fun _ _ _ => trivial) ?_ (wp_tryCandidate net packageName candidate hs)
    intro e s₁ h₁
    exact wp_staysBusy_bind net packageName staysBusy_disconnectQuietly h₁ (fun _ _ h => h)
      fun _ s₂ h₂ => ih (some e) h₂

theorem wp_connectSmartAuto (forceFresh : Bool) {s : HomeState} (hs : isBusy s = true) :
    (busyContract net packageName).wp (fun _ _ => True) (fun _ _ => True)
      (connectSmartAuto forceFresh) s := by
  rw [connectSmartAuto, Contract.wp_tryCatch]
  refine wp_staysBusy_bind net packageName (staysBusy_smartCandidates forceFresh) hs ?_ ?_
  · intro e s₁ h₁
    exact wp_last net packageName _ h₁ fun _ _ => trivial
  · intro candidates s₁ h₁
    refine Contract.wp_mono (fun _ _ _ => trivial) ?_
      (wp_candidateLoop net packageName candidates none h₁)
    intro e s₂ h₂
    exact wp_last net packageName _ h₂ fun _ _ => trivial

theorem wp_connectToSpecificServer (serverId : ℤ) (label : JString) (previousServerId : Option ℤ)
    (previousServerLabel : Option JString) {s : HomeState} (hs : isBusy s = true) :
    (busyContract net packageName).wp (fun _ _ => True) (fun _ _ => True)
      (connectToSpecificServer serverId label previousServerId previousServerLabel) s := by
  rw [connectToSpecificServer, Contract.wp_tryCatch]
  have hcatch : ∀ (e : HomeExn) s', isBusy s' = true →
      (busyContract net packageName).wp (fun _ _ => True) (fun _ _ => True)
        (do
          disconnectQuietly
          step (.setSelectedServerId previousServerId)
          step (.setSelectedServerLabel previousServerLabel)
          step (.main (.failed (previousServerLabel.getD (jstr "Smart Auto"))))) s' := by
    intro e s₁ h₁
    refine wp_staysBusy_bind net packageName staysBusy_disconnectQuietly h₁
      (fun _ _ _ => trivial) fun _ s₂ h₂ => ?_
    refine wp_staysBusy_bind net packageName (onlyOps_step (by trivial)) h₂
      (fun _ _ _ => trivial) fun _ s₃ h₃ => ?_
    refine wp_staysBusy_bind net packageName (onlyOps_step (by trivial)) h₃
      (fun _ _ _ => trivial) fun _ s₄ h₄ => ?_
    exact wp_last net packageName _ h₄ fun _ _ => trivial
  refine wp_staysBusy_bind net packageName (staysBusy_fetchAndConnect serverId label) hs hcatch
    fun _ s₁ h₁ => ?_
  refine wp_staysBusy_bind net packageName (onlyOps_step (by trivial)) h₁ hcatch
    fun _ s₂ h₂ => ?_
  refine wp_staysBusy_bind net packageName (onlyOps_step (by trivial)) h₂ hcatch
    fun r s₃ h₃ => ?_
  refine wp_staysBusy_bind net packageName (Prog.OnlyOps.ofExcept r) h₃ hcatch fun _ s₄ h₄ => ?_
  refine wp_staysBusy_bind net packageName (onlyOps_step (by trivial)) h₄ hcatch
    fun _ s₅ h₅ => ?_
  exact wp_last net packageName _ h₅ fun _ _ => trivial

theorem wp_disconnectCurrentTunnel {s : HomeState} (hs : isBusy s = true) :
    (busyContract net packageName).wp
      (fun j _ => ∀ i, j = some i → i.isOperation = false) (fun _ _ => True)
      disconnectCurrentTunnel s := by
  rw [disconnectCurrentTunnel, Contract.wp_tryCatch]
  have hcatch : ∀ (e : HomeExn) s', isBusy s' = true →
      (busyContract net packageName).wp
        (fun (j : Option Job) _ => ∀ i, j = some i → i.isOperation = false) (fun _ _ => True)
        (do
          step (.main .refresh)
          pure (some .updateUiFromBackendState)) s' := by
    intro e s₁ h₁
    show (busyContract net packageName).wp _ _ (Prog.bind _ _) s₁
    rw [Contract.wp_bind]
    exact wp_last net packageName _ h₁ fun _ _ => by simp [Job.isOperation]
  refine wp_staysBusy_bind net packageName (staysBusy_backend _) hs hcatch fun _ s₁ h₁ => ?_
  show (busyContract net packageName).wp _ _ (Prog.bind _ _) s₁
  rw [Contract.wp_bind]
  exact wp_last net packageName _ h₁ fun _ _ => by simp

/-- **An operation keeps the guard closed until its last step.** -/
theorem wp_operation (job : Job) (hjob : job.isOperation = true) {s : HomeState}
    (hs : isBusy s = true) {Q : Option Job → HomeState → Prop}
    (hQ : ∀ j s', (∀ i, j = some i → i.isOperation = false) → Q j s') :
    (busyContract net packageName).wp Q (fun _ _ => True) (bodyOf job) s := by
  have hnone : ∀ s', Q none s' := fun s' => hQ none s' (by simp)
  cases job with
  | connectSmartAuto forceFresh =>
    exact Contract.wp_seq (wp_connectSmartAuto net packageName forceFresh hs) (fun _ _ h => h)
      fun _ s' _ => hnone s'
  | connectToSpecificServer serverId label previousServerId previousServerLabel =>
    exact Contract.wp_seq (wp_connectToSpecificServer net packageName serverId label
      previousServerId previousServerLabel hs) (fun _ _ h => h) fun _ s' _ => hnone s'
  | disconnectCurrentTunnel =>
    exact Contract.wp_mono (fun j s' h => hQ j s' h) (fun _ _ h => h)
      (wp_disconnectCurrentTunnel net packageName hs)
  | selectSmartAutoAndConnect => exact absurd hjob (by simp [Job.isOperation])
  | updateUiFromBackendState => exact absurd hjob (by simp [Job.isOperation])
  | onActivityResult => exact absurd hjob (by simp [Job.isOperation])

/-! ## The other jobs -/

/-- The body does not end with the launch of an operation. -/
def Plain (p : HomeProg (Option Job)) : Prop :=
  ∀ i, p.launched = some i → i.isOperation = false

/-- The steps of the other jobs. -/
def LightOp (o : HomeOp) : Prop :=
  KeepsState o ∨ o = .startSmartAuto ∨ (∃ connected, o = .main (.backendState connected)) ∨
    o = .main .retryFailed

/-- `connectSmartAuto` has passed the guard. -/
def passed : (o : HomeOp) → o.Res → Bool
  | .startSmartAuto, r => r
  | _, _ => false

/-- A step of another job: an operation is launched after it only if
`connectSmartAuto` has passed the guard. -/
def lightNode (o : HomeOp) (k : o.Res → HomeProg (Option Job)) : Prop :=
  LightOp o ∧ ∀ r, passed o r = false → Plain (k r)

/-- A body of such steps that does not end with the launch of an operation. -/
def Light (p : HomeProg (Option Job)) : Prop := p.Nodes lightNode ∧ Plain p

theorem light_pure {j : Option Job} (h : ∀ i, j = some i → i.isOperation = false) :
    Light (.pure j) := ⟨trivial, h⟩

theorem light_step_bind {o : HomeOp} {f : o.Res → HomeProg (Option Job)} (ho : LightOp o)
    (hf : ∀ r, Light (f r)) : Light ((step o).bind f) :=
  ⟨⟨⟨ho, fun r _ => (hf r).2⟩, fun r => (hf r).1⟩, by simp [Plain, step, Prog.perform]⟩

/-- A part whose steps leave the state alone, and what follows it. -/
theorem light_bind {α : Type} {p : HomeProg α} {f : α → HomeProg (Option Job)}
    (hp : p.OnlyOps KeepsState) (hf : ∀ a, Light (f a)) : Light (p.bind f) := by
  induction p with
  | pure a => exact hf a
  | throw e => exact ⟨trivial, by simp [Plain]⟩
  | op o k ih =>
    have hk : ∀ r, Light ((k r).bind f) := fun r => ih r (hp.2 r)
    exact ⟨⟨⟨Or.inl hp.1, fun r _ => (hk r).2⟩, fun r => (hk r).1⟩, by simp [Plain]⟩

theorem light_tryCatch {p : HomeProg (Option Job)} {h : HomeExn → HomeProg (Option Job)}
    (hp : Light p) (hh : ∀ e, Light (h e)) : Light (p.tryCatch h) := by
  obtain ⟨hnodes, hplain⟩ := hp
  suffices key : (p.tryCatch h).Nodes lightNode ∧ (Plain p → Plain (p.tryCatch h)) from
    ⟨key.1, key.2 hplain⟩
  clear hplain
  induction p with
  | pure a => exact ⟨trivial, fun h => h⟩
  | throw e => exact ⟨(hh e).1, fun _ => (hh e).2⟩
  | op o k ih =>
    have hk := fun r => ih r (hnodes.2 r)
    exact ⟨⟨⟨hnodes.1.1, fun r hr => (hk r).2 (hnodes.1.2 r hr)⟩, fun r => (hk r).1⟩,
      fun _ => by simp [Plain]⟩

theorem keepsState_backend {α : Type} (p : WgProg α) : (backend p).OnlyOps KeepsState :=
  onlyOps_backend (fun _ => trivial) p

/-- **The other jobs** take light steps only. -/
theorem nodes_light (job : Job) (hjob : ¬ job.isOperation = true) :
    (bodyOf job).Nodes lightNode := by
  have hupdate : ∀ i, (some Job.updateUiFromBackendState) = some i → i.isOperation = false := by
    intro i hi
    rw [← Option.some.inj hi]
    rfl
  cases job with
  | connectSmartAuto forceFresh => exact absurd rfl hjob
  | connectToSpecificServer serverId label previousServerId previousServerLabel =>
    exact absurd rfl hjob
  | disconnectCurrentTunnel => exact absurd rfl hjob
  | selectSmartAutoAndConnect =>
    refine ⟨⟨Or.inl trivial, fun r _ => ?_⟩, fun r => ?_⟩
    · cases r with
      | error e => simp [Plain, Prog.ofExcept]
      | ok u => simp [Plain, Prog.ofExcept, step, Prog.perform]
    · cases r with
      | error e => trivial
      | ok u =>
        refine ⟨⟨Or.inr (Or.inl rfl), fun launched hpassed => ?_⟩, fun launched => ?_⟩
        · have hfalse : launched = false := hpassed
          rw [hfalse]
          simp [Plain]
        · cases launched <;> trivial
  | updateUiFromBackendState =>
    refine (light_step_bind (Or.inl (by trivial)) fun connected => ?_).1
    exact light_step_bind (Or.inr (Or.inr (Or.inl ⟨connected, rfl⟩))) fun _ =>
      light_pure (by simp)
  | onActivityResult =>
    refine (light_tryCatch ?_ fun e => ?_).1
    · refine light_bind (keepsState_backend _) fun _ => ?_
      refine light_bind (onlyOps_validateTunnelOrThrow (by trivial) _) fun _ => ?_
      exact light_step_bind (Or.inl (by trivial)) fun _ => light_pure hupdate
    · refine light_bind (Prog.OnlyOps.tryCatch (keepsState_backend _) fun _ => trivial) fun _ => ?_
      exact light_step_bind (Or.inr (Or.inr (Or.inr rfl))) fun _ => light_pure (by simp)

/-! ## Runs -/

/-- One operation at a time, each of which keeps the guard closed. -/
def busyTracking : Tracking HomeOp HomeOp.Res HomeExn HomeEnv HomeState Job where
  contract := busyContract net packageName
  tracked := fun job => job.isOperation = true
  light := lightNode
  inv := fun _ => True
  pre := fun _ s => isBusy s = true

/-- The state is written from outside the operations only while none is
unfinished. -/
def undisturbed (c : HomeConf) : Act Event HomeEnv → Bool
  | .event (.permissionResult false) => noOperation c
  | .event _ => true
  | .step i _ =>
      match c.threads[i]? with
      | some ⟨_, .op (.main (.backendState _)) _⟩ => noOperation c
      | some ⟨_, .op (.main .retryFailed) _⟩ => noOperation c
      | _ => true

variable {net packageName}

theorem idle_of_noOperation {c : HomeConf} (h : noOperation c = true) :
    (busyTracking net packageName).Idle c := by
  intro t ht htracked
  have hjob : t.job.isOperation = true := htracked
  simpa [hjob] using List.all_eq_true.mp h t ht

/-- **The guard is closed while an operation is unfinished.** -/
theorem busy_of_operation {c : HomeConf} (hc : (busyTracking net packageName).Inv c)
    {t : HomeThread} (ht : t ∈ c.threads)
    (hjob : t.job.isOperation = true) (hrun : t.body.running = true) : isBusy c.shared = true := by
  obtain ⟨o, k, hbody⟩ := Prog.exists_op_of_running hrun
  exact hc.assert ht hjob hbody

theorem idle_of_not_busy {c : HomeConf} (hc : (busyTracking net packageName).Inv c)
    (h : isBusy c.shared = false) : (busyTracking net packageName).Idle c := by
  intro t ht hjob
  by_contra hrun
  rw [Bool.not_eq_false] at hrun
  exact absurd (busy_of_operation hc ht hjob hrun) (by simp [h])

/-- A move that leaves the state alone and launches no operation. -/
theorem allowed_of_same {c : HomeConf} {s' : HomeState} {j : Option Job}
    (hstate : s'.currentVpnState = c.shared.currentVpnState)
    (hj : ∀ i, j = some i → i.isOperation = false) :
    (busyTracking net packageName).Allowed c s' j := by
  refine ⟨fun i hi htracked => ?_, fun _ => ⟨fun _ => trivial, Or.inr hstate⟩⟩
  have htrue : i.isOperation = true := htracked
  exact absurd (hj i hi) (by simp [htrue])

/-- A move while no operation is unfinished that launches none. -/
theorem allowed_of_idle {c : HomeConf} (hidle : (busyTracking net packageName).Idle c)
    {s' : HomeState} {j : Option Job} (hj : ∀ i, j = some i → i.isOperation = false) :
    (busyTracking net packageName).Allowed c s' j := by
  refine ⟨fun i hi htracked => ?_, fun _ => ⟨fun _ => trivial, Or.inl hidle⟩⟩
  have htrue : i.isOperation = true := htracked
  exact absurd (hj i hi) (by simp [htrue])

theorem allowed_event {c : HomeConf} (hc : (busyTracking net packageName).Inv c) {e : Event}
    (hok : undisturbed c (.event e) = true) {s' : HomeState} {j : Option Job}
    (hhandle : handle e c.shared = some (s', j)) :
    (busyTracking net packageName).Allowed c s' j := by
  cases handled hhandle with
  | ignored => exact allowed_of_same rfl (by simp)
  | operation _ _ job _ hfree hbusy _ hjob =>
    refine ⟨fun i _ _ => ⟨idle_of_not_busy hc hfree, fun _ => hbusy⟩, fun hno => ?_⟩
    exact absurd hjob (hno job rfl)
  | select _ _ hstate => exact allowed_of_same hstate (by simp [Job.isOperation])
  | resume => exact allowed_of_same rfl (by simp [Job.isOperation])
  | granted => exact allowed_of_same rfl (by simp [Job.isOperation])
  | refused => exact allowed_of_idle (idle_of_noOperation hok) (by simp)

theorem allowed_step {c : HomeConf} (hc : (busyTracking net packageName).Inv c) {i : ℕ}
    {env : HomeEnv} (hok : undisturbed c (.step i env) = true) {j : Job} {o : HomeOp}
    {k : o.Res → HomeProg (Option Job)} (hi : c.threads[i]? = some ⟨j, .op o k⟩)
    (hlight : lightNode o k) :
    (busyTracking net packageName).Allowed c (perform net packageName o env c.shared).2
      (k (perform net packageName o env c.shared).1).launched := by
  obtain ⟨hop, hplain⟩ := hlight
  rcases hop with hkeep | rfl | ⟨connected, rfl⟩ | rfl
  · refine allowed_of_same (currentVpnState_perform net packageName hkeep env c.shared) ?_
    refine hplain _ ?_
    cases o with
    | startSmartAuto => exact absurd hkeep (by simp [KeepsState])
    | _ => rfl
  · -- the only step after which an operation may be launched
    by_cases hbusy : isBusy c.shared = true
    · have hperform : perform net packageName .startSmartAuto env c.shared = (false, c.shared) :=
        if_pos hbusy
      rw [hperform]
      exact allowed_of_same rfl (hplain false rfl)
    · have hfree : isBusy c.shared = false := by simpa using hbusy
      have hidle := idle_of_not_busy hc hfree
      have hclosed : isBusy (perform net packageName .startSmartAuto env c.shared).2 = true := by
        show isBusy (startSmartAuto c.shared).2 = true
        rw [startSmartAuto, if_neg hbusy]
        rfl
      exact ⟨fun _ _ _ => ⟨hidle, fun _ => hclosed⟩, fun _ => ⟨fun _ => trivial, Or.inl hidle⟩⟩
  · exact allowed_of_idle (idle_of_noOperation (by simpa [undisturbed, hi] using hok))
      (hplain () rfl)
  · exact allowed_of_idle (idle_of_noOperation (by simpa [undisturbed, hi] using hok))
      (hplain () rfl)

variable (net packageName)

theorem busyTracking_sound : (busyTracking net packageName).Sound (system net packageName)
    (fun c a => undisturbed c a = true) where
  perform_eq := rfl
  running := by
    intro job hjob
    cases job with
    | selectSmartAutoAndConnect => exact absurd hjob (by simp [busyTracking, Job.isOperation])
    | updateUiFromBackendState => exact absurd hjob (by simp [busyTracking, Job.isOperation])
    | onActivityResult => exact absurd hjob (by simp [busyTracking, Job.isOperation])
    | _ => rfl
  light := nodes_light
  body := by
    intro job s hjob hs
    refine wp_operation net packageName job hjob hs ?_
    intro j s' hj
    refine ⟨fun i hi htracked => ?_, fun _ => trivial⟩
    have htrue : i.isOperation = true := htracked
    exact absurd (hj i hi) (by simp [htrue])
  event := fun _ _ _ _ hc hok hhandle => allowed_event hc hok hhandle
  step := fun _ _ _ _ _ _ hc hok hi _ hlight => allowed_step hc hok hi hlight
  assume := fun _ _ _ _ _ _ _ _ _ _ => trivial

/-- **One operation at a time.**  In every run, from any state of the screen, in which
the state is written by `updateUiFromBackendState` and by `onActivityResult` only while
no operation is unfinished: at most one operation is unfinished at any time, and while
one is, `isBusy` holds. -/
theorem one_operation_at_a_time (s₀ : HomeState) (d : HomeConf)
    (hrun : (system net packageName).Run (fun c a => undisturbed c a = true) ⟨s₀, []⟩ d) :
    (∀ (i j : ℕ) (t u : HomeThread), d.threads[i]? = some t → d.threads[j]? = some u →
        t.job.isOperation = true → t.body.running = true →
        u.job.isOperation = true → u.body.running = true → i = j) ∧
      ∀ t ∈ d.threads, t.job.isOperation = true → t.body.running = true →
        isBusy d.shared = true := by
  have hstart : (busyTracking net packageName).Inv (⟨s₀, []⟩ : HomeConf) :=
    ⟨by simp, Or.inl ⟨by simp [Tracking.Idle], trivial⟩⟩
  have hd := (busyTracking_sound net packageName).run hrun hstart
  refine ⟨?_, fun t ht hjob hrunning => busy_of_operation hd ht hjob hrunning⟩
  intro i j t u hi hj htjob htrun hujob hurun
  exact hd.unique hi hj htjob hujob htrun hurun

/-- The theorem for an attempt that fails for want of a token, with a resume in the
middle whose job waits for the end of the attempt. -/
theorem one_operation_with_resume :
    let d := ((system GoBackend.noAddresses GoBackend.applicationId).exec undisturbed start
      [.event .connectButton, .event .resume, .step 1 {}, .step 0 {}, .step 0 {}, .step 1 {},
        .event .connectButton]).get (by decide +kernel)
    (∀ (i j : ℕ) (t u : HomeThread), d.threads[i]? = some t → d.threads[j]? = some u →
        t.job.isOperation = true → t.body.running = true →
        u.job.isOperation = true → u.body.running = true → i = j) ∧
      ∀ t ∈ d.threads, t.job.isOperation = true → t.body.running = true →
        isBusy d.shared = true :=
  one_operation_at_a_time _ _ {} _
    (System.Run.of_exec (fun _ _ h => h) .refl (Option.some_get _).symm)

/-- **A second operation is launched.**  The connect button launches Smart Auto, a
resume sets `DISCONNECTED` because nothing is connected yet, and the connect button
launches Smart Auto again.  Two operations are unfinished. -/
theorem second_operation_launched :
    ((system GoBackend.noAddresses GoBackend.applicationId).exec (fun _ _ => true) start
      [.event .connectButton, .event .resume, .step 1 {}, .step 1 {}, .event .connectButton]).map
      (fun d => (d.threads.filter fun t => t.job.isOperation && t.body.running).length) =
      some 2 := by
  decide +kernel

end HomeActivity
end AioVpn
