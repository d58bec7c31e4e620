import AioVpn.App.WireGuardSpec
import AioVpn.Backend.BringUpSteps

/-!
# The flag `connected`

`isConnected` reads a flag that two parties write: the listener of the tunnel, on
every callback of `GoBackend`, and `connect` and `disconnect` after their call.  This
file says when it tells the truth, for calls made one after the other with
destructions of the service in between.

The exception is the roll-back of a failed switch: it brings the former tunnel up again
and the listener sets the flag, then the exception reaches the `catch` of `connect`,
which clears it (`flag_cleared_after_rollback`).  `connected_iff_currentTunnel` is about
the runs in which no call is made while a tunnel runs, in an environment in which a step
of the new bring-up fails and all steps of the roll-back succeed.

The steps of the roll-back are read in the state before the call.  That is possible
because the configuration that runs and the new one are two objects: `parse` numbers
them, and `Numbered` carries it through the runs.
-/

namespace AioVpn
namespace WireGuardBackend

open Coroutine

variable (net : NetApi) (packageName : JString)

/-- The flag is set exactly while a tunnel runs. -/
structure Truthful (s : WgState) : Prop where
  linked : Linked s
  flag : s.isConnected = true ↔ GoBackend.running s.go ≠ none

/-- The call does not switch away from a running tunnel in an environment in which a step of
the new bring-up fails and all steps of the roll-back succeed. -/
def noRollbackAt : WgOp → WgEnv → WgState → Bool
  | .setState t .up config, env, s =>
      !GoBackend.rollsBack net packageName env.setState t config s.go
  | _, _, _ => true

/-- Calls are made one after the other. -/
def oneAfterTheOther (c : WgConf) : Act Event WgEnv → Bool
  | .event _ => decide (Finished c)
  | .step _ _ => true

/-- Calls are made one after the other, and no failed switch is rolled back. -/
def withoutRollback (c : WgConf) : Act Event WgEnv → Bool
  | .event e => oneAfterTheOther c (.event e)
  | .step i env =>
      match c.threads[i]? with
      | some ⟨_, .op o _⟩ => noRollbackAt net packageName o env c.shared
      | _ => true

/-! ## One call at a time -/

/-- The calls are verified against the contract `C` and keep `I`. -/
def oneCall (C : Contract WgOp WgOp.Res WgEnv WgState) (I : WgState → Prop) :
    Tracking WgOp WgOp.Res ConnectExn WgEnv WgState Job where
  contract := C
  tracked := fun _ => True
  light := fun _ _ => False
  inv := I
  pre := fun _ => I

variable {net packageName}

theorem oneCall_sound {C : Contract WgOp WgOp.Res WgEnv WgState} {I : WgState → Prop}
    {ok : WgConf → Act Event WgEnv → Prop} (hperform : C.perform = perform net packageName)
    (hbody : ∀ job s, I s → C.wp (fun _ => I) (fun _ => I) (bodyOf job) s)
    (hdestroy : ∀ service s, I s →
      I { s with go := GoBackend.onDestroy onStateChanged service s.go })
    (hevent : ∀ c e, ok c (.event e) → Finished c)
    (hassume : ∀ (c : WgConf) i env j o k, ok c (.step i env) →
      c.threads[i]? = some ⟨j, .op o k⟩ → C.assume o env c.shared) :
    (oneCall C I).Sound (system net packageName) ok where
  perform_eq := hperform
  running := by
    intro job _
    cases job <;> rfl
  light := fun _ h => absurd trivial h
  body := by
    intro job s _ hs
    show C.wp _ _ ((bodyOf job).bind fun _ => .pure none) s
    rw [Contract.wp_bind]
    refine Contract.wp_mono ?_ (fun _ _ h => h) (hbody job s hs)
    intro _ s' hs'
    exact ⟨by simp, fun _ => hs'⟩
  event := by
    intro c e s' j _ hok hhandle
    have hidle : (oneCall C I).Idle c := fun t ht _ => hevent c e hok t ht
    cases e with
    | call job =>
      obtain ⟨rfl, rfl⟩ := Prod.mk.inj (Option.some.inj hhandle)
      refine ⟨fun _ _ _ => ⟨hidle, fun h => h⟩, fun hno => ?_⟩
      exact absurd trivial (hno job rfl)
    | serviceDestroyed service =>
      obtain ⟨rfl, rfl⟩ := Prod.mk.inj (Option.some.inj hhandle)
      exact ⟨by simp, fun _ => ⟨hdestroy service c.shared, Or.inl hidle⟩⟩
  step := fun _ _ _ _ _ _ _ _ _ h => absurd trivial h
  assume := fun c i env j o k _ hok hi _ => hassume c i env j o k hok hi

theorem oneCall_start {C : Contract WgOp WgOp.Res WgEnv WgState} {I : WgState → Prop}
    (h : I {}) : (oneCall C I).Inv (start : WgConf) :=
  ⟨by simp [start], Or.inl ⟨by simp [Tracking.Idle, start], h⟩⟩

/-! ## The configuration that runs is not the new one -/

/-- What runs has a number below `n`, and the numbers below `m` have been given. -/
structure Below (n m : ℕ) (s : WgState) : Prop where
  inv : GoBackend.Inv s.go
  serial : ∀ t c, GoBackend.running s.go = some (t, c) → c.serial < n
  given : m ≤ s.configs

/-- What runs has a number that was given. -/
def Numbered (s : WgState) : Prop := Below s.configs s.configs s

theorem Below.numbered {n : ℕ} {s : WgState} (h : Below n n s) : Numbered s :=
  ⟨h.inv, fun t c hrun => lt_of_lt_of_le (h.serial t c hrun) h.given, le_refl _⟩

/-- A step that brings a tunnel up is made with another configuration than the one that runs. -/
def FreshAt (o : WgOp) (s : WgState) : Prop :=
  ∀ t config, o = .setState t .up config → ∀ t' c, GoBackend.RunningWith t' c s.go →
    ∀ c' ∈ config, c.serial ≠ c'.serial

variable (net packageName) in
/-- The bodies run alone, in any environment, and owe that the configurations differ. -/
def numbering : Contract WgOp WgOp.Res WgEnv WgState where
  perform := perform net packageName
  assume := fun _ _ _ => True
  assert := fun o s => GoBackend.Inv s.go ∧ FreshAt o s
  rely := Eq
  rely_refl := fun _ => rfl
  rely_trans := fun h h' => h.trans h'

/-- The steps that bring nothing up. -/
def Light : WgOp → Prop
  | .setState _ state _ => state = .down
  | _ => True

theorem Below.perform {n m : ℕ} {s : WgState} (h : Below n m s) {o : WgOp} (ho : Light o)
    (env : WgEnv) : Below n m (WireGuardBackend.perform net packageName o env s).2 := by
  cases o with
  | setState t state config =>
    obtain rfl : state = .down := ho
    obtain ⟨r, go, calls, hcall, heff, href⟩ :=
      callSetState_refines net packageName env t .down config h.inv
    rw [perform_setState net packageName hcall]
    refine ⟨href.inv, fun t' c hrun => ?_, h.given⟩
    have hdown : GoBackend.requested t .down s.go = .down := rfl
    rw [hdown] at heff
    rcases heff.of_down.2 with ⟨-, hnone⟩ | ⟨-, hsame⟩
    · exact absurd (hnone.symm.trans hrun) (by simp)
    · exact h.serial t' c (hsame ▸ hrun)
  | setConnected value => exact ⟨inv_setConnected h.inv value, h.serial, h.given⟩
  | onVpnPermissionRequired =>
    rw [WireGuardBackend.perform]
    split
    · exact ⟨h.inv, h.serial, h.given⟩
    · exact h
  | parse configText =>
    rw [WireGuardBackend.perform]
    cases Config.parse net configText with
    | ok config => exact ⟨h.inv, h.serial, Nat.le_succ_of_le h.given⟩
    | error e => exact h
  | prepare => exact h
  | getPendingConfig => exact h
  | setPendingConfig config => exact ⟨h.inv, h.serial, h.given⟩
  | getTunnel => exact h
  | newTunnel => exact ⟨h.inv, h.serial, h.given⟩
  | setTunnel tunnel => exact ⟨h.inv, h.serial, h.given⟩

theorem Light.freshAt {o : WgOp} (ho : Light o) (s : WgState) : FreshAt o s := by
  rintro t config rfl
  exact absurd (show TunnelState.up = .down from ho) (by simp)

/-- Parts of a body that bring nothing up. -/
theorem wp_light {α : Type} {n m : ℕ} {p : WgProg α} (hp : p.OnlyOps Light) {s : WgState}
    (hs : Below n m s) :
    (numbering net packageName).wp (fun _ => Below n m) (fun _ => Below n m) p s := by
  refine Contract.wp_of_onlyOps ?_ ?_ ?_ hp hs
  · rintro s _ h rfl
    exact h
  · exact fun o s ho h => ⟨h.inv, ho.freshAt s⟩
  · exact fun o env s ho h _ => h.perform ho env

theorem wp_light_numbered {α : Type} {p : WgProg α} (hp : p.OnlyOps Light) {s : WgState}
    (hs : Numbered s) :
    (numbering net packageName).wp (fun _ => Numbered) (fun _ => Numbered) p s :=
  Contract.wp_mono (fun _ _ h => h.numbered) (fun _ _ h => h.numbered) (wp_light hp hs)

/-- One step that brings nothing up. -/
theorem wp_light_op {α : Type} {o : WgOp} (ho : Light o) {k : o.Res → WgProg α} {s : WgState}
    (hs : Numbered s) (hk : ∀ env, (numbering net packageName).wp (fun _ => Numbered)
      (fun _ => Numbered) (k (perform net packageName o env s).1)
      (perform net packageName o env s).2) :
    (numbering net packageName).wp (fun _ => Numbered) (fun _ => Numbered) (.op o k) s := by
  rintro _ rfl
  exact ⟨⟨hs.inv, ho.freshAt s⟩, fun env _ => hk env⟩

/-- The step that brings a tunnel up, with a configuration numbered after the one that runs. -/
theorem wp_setState_up {α : Type} {t : Tunnel} {c : ConfigRef}
    {k : Except ConnectExn TunnelState → WgProg α} (hk : ∀ r, (k r).OnlyOps Light) {s : WgState}
    (hs : Below c.serial (c.serial + 1) s) :
    (numbering net packageName).wp (fun _ => Numbered) (fun _ => Numbered)
      (.op (.setState t .up (some c)) k) s := by
  rintro s₁ rfl
  refine ⟨⟨hs.inv, ?_⟩, fun env _ => ?_⟩
  · rintro t' config heq t'' c' hrun c'' hc''
    obtain ⟨-, -, rfl⟩ := WgOp.setState.inj heq
    obtain rfl := Option.some.inj hc''
    exact Nat.ne_of_lt (hs.serial t'' c' hrun.running)
  · obtain ⟨r, go, calls, hcall, heff, href⟩ :=
      callSetState_refines net packageName env t .up (some c) hs.inv
    have hup : GoBackend.requested t .up s.go = .up := rfl
    rw [hup] at heff
    have hnumbered : Numbered { s with go := go } := by
      refine ⟨href.inv, fun t' c' hrun => ?_, le_refl _⟩
      -- what runs after the call is the new configuration, or what ran before
      have hcases : GoBackend.running go = some (t, c) ∨ GoBackend.running go = none ∨
          GoBackend.running go = GoBackend.running s.go := by
        cases r with
        | ok x =>
          obtain ⟨c₁, hc, hrun₁⟩ := heff.of_up_ok
          obtain rfl := Option.some.inj hc
          exact Or.inl hrun₁
        | error e => exact Or.inr heff.of_up_error
      rcases hcases with hnew | hnone | hold
      · obtain ⟨-, rfl⟩ := Prod.mk.inj (Option.some.inj (hnew.symm.trans hrun))
        exact hs.given
      · exact absurd (hnone.symm.trans hrun) (by simp)
      · exact lt_trans (hs.serial t' c' (hold ▸ hrun)) hs.given
    have hperform := perform_setState net packageName hcall
    show (numbering net packageName).wp _ _
      (k (perform net packageName (.setState t .up (some c)) env s).1)
      (perform net packageName (.setState t .up (some c)) env s).2
    rw [hperform]
    exact wp_light_numbered (hk _) hnumbered

theorem light_getOrCreateTunnel : getOrCreateTunnel.OnlyOps Light := by
  refine ⟨trivial, fun field => ?_⟩
  cases field with
  | some t => trivial
  | none => exact ⟨trivial, fun _ => ⟨trivial, fun _ => trivial⟩⟩

theorem wp_connect_numbered (configText : JString) {s : WgState} (hs : Numbered s) :
    (numbering net packageName).wp (fun _ => Numbered) (fun _ => Numbered) (connect configText)
      s := by
  refine wp_light_op (o := .prepare) trivial hs fun env => ?_
  show (numbering net packageName).wp _ _ (if env.prepareIntent then _ else _) s
  cases env.prepareIntent with
  | true =>
    refine wp_light_op (o := .setPendingConfig (some configText)) trivial hs fun _ => ?_
    refine wp_light_numbered (p := .op .onVpnPermissionRequired _) ⟨trivial, fun called => ?_⟩
      ⟨hs.inv, hs.serial, hs.given⟩
    cases called <;> trivial
  | false =>
    refine wp_light_op (o := .parse configText) trivial hs fun _ => ?_
    rw [perform]
    cases Config.parse net configText with
    | error e => exact hs
    | ok config =>
      -- the new configuration has the next number
      have hparsed : Below s.configs (s.configs + 1) { s with configs := s.configs + 1 } :=
        ⟨hs.inv, hs.serial, le_refl _⟩
      show (numbering net packageName).wp _ _
        (getOrCreateTunnel.bind fun t => bringUp t ⟨s.configs, config⟩) _
      refine Contract.wp_seq (wp_light light_getOrCreateTunnel hparsed) ?_ ?_
      · intro e s₁ hs₁
        exact Below.numbered
          ⟨hs₁.inv, fun t c hrun => Nat.lt_succ_of_lt (hs₁.serial t c hrun), hs₁.given⟩
      · intro t s₁ hs₁
        refine wp_setState_up (c := ⟨s.configs, config⟩) (fun r => ?_) hs₁
        cases r with
        | ok x => exact ⟨trivial, fun _ => ⟨trivial, fun _ => trivial⟩⟩
        | error e => exact ⟨trivial, fun _ => trivial⟩

theorem light_disconnect : disconnect.OnlyOps Light := by
  refine ⟨trivial, fun field => ?_⟩
  cases field with
  | none => exact ⟨trivial, fun _ => trivial⟩
  | some t =>
    refine ⟨rfl, fun r => ?_⟩
    cases r <;> exact ⟨trivial, fun _ => ⟨trivial, fun _ => trivial⟩⟩

theorem wp_bodyOf_numbered (job : Job) {s : WgState} (hs : Numbered s) :
    (numbering net packageName).wp (fun _ => Numbered) (fun _ => Numbered) (bodyOf job) s := by
  cases job with
  | connect configText => exact wp_connect_numbered configText hs
  | disconnect => exact wp_light_numbered light_disconnect hs
  | retryConnectionAfterPermission =>
    refine wp_light_op (o := .getPendingConfig) trivial hs fun _ => ?_
    rw [perform]
    cases s.pendingConfig with
    | none => exact hs
    | some configText =>
      refine wp_light_op (o := .setPendingConfig none) trivial hs fun _ => ?_
      exact wp_connect_numbered configText ⟨hs.inv, hs.serial, hs.given⟩

theorem Numbered.onDestroy {s : WgState} (hs : Numbered s) (service : ℕ) :
    Numbered { s with go := GoBackend.onDestroy onStateChanged service s.go } := by
  obtain ⟨hinv, hcase⟩ := GoBackend.onDestroy_refines onStateChanged service hs.inv
  refine ⟨hinv, fun t c hrun => ?_, le_refl _⟩
  rcases hcase with ⟨hsame, -⟩ | ⟨t', c', -, hnone, -⟩
  · exact hs.serial t c (hsame ▸ hrun)
  · exact absurd (hnone.symm.trans hrun) (by simp)

/-- **The configurations of a switch differ**: in every run of calls made one after the other. -/
theorem numbering_sound {ok : WgConf → Act Event WgEnv → Prop}
    (hevent : ∀ c e, ok c (.event e) → Finished c) :
    (oneCall (numbering net packageName) Numbered).Sound (system net packageName) ok :=
  oneCall_sound rfl (fun job _ hs => wp_bodyOf_numbered job hs)
    (fun service _ hs => hs.onDestroy service) hevent fun _ _ _ _ _ _ _ _ => trivial

/-! ## What the calls and the events do to the flag -/

variable (net packageName) in
/-- The environments considered at a step. -/
def considered : Assume := fun o env s =>
  (GoBackend.Inv s.go ∧ FreshAt o s) ∧ noRollbackAt net packageName o env s = true

theorem noRollback_considered : NoRollback net packageName (considered net packageName) := by
  rintro t config env s e ⟨⟨hinv, hfresh⟩, hno⟩ herr
  refine GoBackend.running_of_not_rollsBack hinv (hfresh t config rfl) ?_ (Prod.ext herr rfl)
  simpa [noRollbackAt] using hno

theorem Truthful.of_connected {A : Assume} (hA : NoRollback net packageName A)
    {configText : JString} {s s' : WgState} {result : Except ConnectExn Unit} (hs : Truthful s)
    (h : Connected net packageName A configText s result s') : Truthful s' := by
  refine ⟨h.linked hs.linked, ?_⟩
  cases h with
  | asked _ _ hgo htunnel => rw [WgState.isConnected, hgo]; exact hs.flag
  | refused _ _ hgo htunnel => rw [WgState.isConnected, hgo]; exact hs.flag
  | up t c _ hlinked hparse hrunning hflag => simp [hflag, hrunning]
  | failed _ _ hlinked hrunning hflag => simp [hflag, hrunning]
  | restored _ _ hno => exact absurd hA hno

theorem wp_connect_truthful {A : Assume} (hA : NoRollback net packageName A)
    (configText : JString) {s : WgState} (hs : Truthful s) :
    (quiet net packageName A).wp (fun _ => Truthful) (fun _ => Truthful) (connect configText) s :=
  Contract.wp_mono (fun _ _ h => hs.of_connected hA h) (fun _ _ h => hs.of_connected hA h)
    (wp_connect configText hs.linked)

/-- **Every call keeps the flag truthful.** -/
theorem wp_bodyOf_truthful {A : Assume} (hA : NoRollback net packageName A) (job : Job)
    {s : WgState} (hs : Truthful s) :
    (quiet net packageName A).wp (fun _ => Truthful) (fun _ => Truthful) (bodyOf job) s := by
  cases job with
  | connect configText => exact wp_connect_truthful hA configText hs
  | disconnect =>
    refine Contract.wp_mono ?_ (fun _ _ h => h.elim) (wp_disconnect hs.linked)
    rintro _ s' ⟨hlinked, hnone, hflag⟩
    exact ⟨hlinked, by simp [hnone, hflag]⟩
  | retryConnectionAfterPermission =>
    simp only [bodyOf, retryConnectionAfterPermission, step, Prog.perform, Prog.bind_def,
      Prog.op_bind, Prog.pure_bind, Contract.wp_alone_op, reduceCtorEq, false_implies, perform]
    intro _ _
    cases s.pendingConfig with
    | none => exact hs
    | some configText =>
      simp only [Contract.wp_alone_op, reduceCtorEq, false_implies, perform]
      intro _ _
      exact wp_connect_truthful hA configText ⟨⟨hs.linked.inv, hs.linked.tunnel⟩, hs.flag⟩

/-- **The destruction of the service keeps the flag truthful.** -/
theorem Truthful.onDestroy {s : WgState} (hs : Truthful s) (service : ℕ) :
    Truthful { s with go := GoBackend.onDestroy onStateChanged service s.go } := by
  obtain ⟨hinv, hcase⟩ := GoBackend.onDestroy_refines onStateChanged service hs.linked.inv
  rcases hcase with ⟨hrun, hlis, -⟩ | ⟨t, c, -, hafter, hlis, -⟩
  · refine ⟨⟨hinv, ?_⟩, ?_⟩
    · intro t c h
      exact hs.linked.tunnel t c (hrun ▸ h)
    · show (GoBackend.onDestroy onStateChanged service s.go).listeners = true ↔
        GoBackend.running (GoBackend.onDestroy onStateChanged service s.go) ≠ none
      rw [hrun, hlis]
      exact hs.flag
  · refine ⟨⟨hinv, ?_⟩, ?_⟩
    · intro t c h
      exact absurd (hafter.symm.trans h) (by simp)
    · show (GoBackend.onDestroy onStateChanged service s.go).listeners = true ↔
        GoBackend.running (GoBackend.onDestroy onStateChanged service s.go) ≠ none
      rw [hafter, hlis]
      simp [onStateChanged]

/-! ## Runs -/

theorem flag_sound {ok : WgConf → Act Event WgEnv → Prop}
    (hevent : ∀ c e, ok c (.event e) → Finished c)
    (hassume : ∀ (c : WgConf) i env j o k, ok c (.step i env) →
      c.threads[i]? = some ⟨j, .op o k⟩ → considered net packageName o env c.shared) :
    (oneCall (quiet net packageName (considered net packageName)) Truthful).Sound
      (system net packageName) ok :=
  oneCall_sound rfl (fun job _ hs => wp_bodyOf_truthful noRollback_considered job hs)
    (fun service _ hs => hs.onDestroy service) hevent hassume

theorem truthful_start : Truthful {} where
  linked := ⟨GoBackend.inv_init false, fun _ _ h => absurd h (by simp [GoBackend.running])⟩
  flag := by simp [WgState.isConnected, GoBackend.running]

theorem numbered_start : Numbered {} :=
  ⟨GoBackend.inv_init false, fun _ _ h => absurd h (by simp [GoBackend.running]), le_refl _⟩

variable (net packageName)

/-- **The flag tracks the tunnel.**  In every run of calls made one after the other,
with destructions of the service between them, in which no `setState` is called while a
tunnel runs in an environment in which a step of the bring-up fails and all steps of the
roll-back succeed: whenever all calls have finished, the flag is set exactly when a tunnel
runs. -/
theorem connected_iff_currentTunnel (d : WgConf)
    (hrun : (system net packageName).Run (fun c a => withoutRollback net packageName c a = true)
      start d) (hdone : Finished d) :
    d.shared.isConnected = true ↔ d.shared.go.currentTunnel ≠ none := by
  have hevent : ∀ c e, withoutRollback net packageName c (.event e) = true → Finished c :=
    fun c e h => of_decide_eq_true h
  -- the numbers of the configurations are known all along the run
  have hnumbers : (oneCall (numbering net packageName) Numbered).Inv (start : WgConf) :=
    oneCall_start numbered_start
  obtain ⟨hrun', -⟩ := hrun.and_invariant hnumbers fun _ _ _ hd hinv hok hnext =>
    (numbering_sound fun c e h => hevent c e h.1).run (hd.tail ⟨hok, hinv⟩ hnext) hnumbers
  have hsound : (oneCall (quiet net packageName (considered net packageName)) Truthful).Sound
      (system net packageName) fun c a => withoutRollback net packageName c a = true ∧
        (oneCall (numbering net packageName) Numbered).Inv c := by
    refine flag_sound (fun c e h => hevent c e h.1) ?_
    rintro c i env j o k ⟨hok, hinv⟩ hi
    refine ⟨hinv.assert (List.mem_of_getElem? hi) trivial rfl, ?_⟩
    simpa [withoutRollback, hi] using hok
  rcases (hsound.run hrun' (oneCall_start truthful_start)).2 with ⟨-, hs⟩ | ⟨t, ht⟩
  · have htruth : Truthful d.shared := hs
    rw [htruth.flag, htruth.linked.inv.currentTunnel_eq, ne_eq, ne_eq, Option.map_eq_none_iff]
  · exact absurd (fun t ht _ => hdone t ht) ht.not_idle

/-! ## Runs on the smallest configuration -/

/-- A configuration with nothing but a key. -/
def bareText : JString :=
  JString.joinToString [ch '\n'] [jstr "[Interface]",
    jstr "PrivateKey = " ++ List.replicate 43 (ch 'A') ++ jstr "="]

/-- Make a call and carry out its first `n` steps; `i` is the number of the call. -/
def callAndRun (i n : ℕ) (job : Job) (env : WgEnv) : List (Act Event WgEnv) :=
  .event (.call job) :: List.replicate n (.step i env)

/-- A switch that fails at `establish`, and its roll-back too. -/
def bothFail : WgEnv where
  setState := { up := { establish := .null }, rollback := { establish := .null } }

/-- The theorem for a tunnel that comes up, a switch that fails and is not rolled back,
another tunnel, and one call of `disconnect`. -/
theorem connected_iff_after_disconnect :
    let d := ((system GoBackend.noAddresses GoBackend.applicationId).exec
      (withoutRollback GoBackend.noAddresses GoBackend.applicationId) start
      (callAndRun 0 8 (.connect bareText) {} ++ callAndRun 1 5 (.connect bareText) bothFail ++
        callAndRun 2 6 (.connect bareText) {} ++ callAndRun 3 4 .disconnect {})).get
        (by decide +kernel)
    d.shared.isConnected = true ↔ d.shared.go.currentTunnel ≠ none :=
  connected_iff_currentTunnel _ _ _
    (System.Run.of_exec (fun _ _ h => h) .refl (Option.some_get _).symm) (by decide +kernel)

/-- **The flag is cleared while a tunnel runs.**  The first call brings a tunnel up;
the second one cannot establish its own, and the roll-back succeeds.  Both calls have
finished, a tunnel runs, and the flag is not set. -/
theorem flag_cleared_after_rollback :
    ((system GoBackend.noAddresses GoBackend.applicationId).exec oneAfterTheOther start
      (callAndRun 0 8 (.connect bareText) {} ++
        callAndRun 1 5 (.connect bareText) { setState := { up := { establish := .null } } })).map
      (fun d => (decide (Finished d), d.shared.isConnected, d.shared.go.currentTunnel.isSome)) =
      some (true, false, true) := by
  decide +kernel

end WireGuardBackend
end AioVpn
