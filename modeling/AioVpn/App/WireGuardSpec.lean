import AioVpn.App.WireGuardBackend

/-!
# What `connect` and `disconnect` do when nothing runs in between

The bodies of `WireGuardBackend`, run alone from a state in which the tunnel that
runs, if any, is the one in the field `tunnel` (`Linked`).

`Connected` lists the ways `connect` can end, and `wp_connect` says that there are no
others.  Two of them are surprises for a caller:

* `asked` *returns*, with nothing brought up, because permission had to be requested;
* `restored` throws, and the tunnel that ran before runs again while the flag is
  already cleared.

Both depend on the environment, so they carry a side condition on the environments
that are considered: `asked` does not occur if permission is granted at every step
(`Granted`), `restored` does not occur if no roll-back succeeds (`NoRollback`).
-/

namespace AioVpn
namespace WireGuardBackend

open Coroutine

variable (net : NetApi) (packageName : JString)

/-- The backend is consistent, and the tunnel that runs is the one in the field. -/
structure Linked (s : WgState) : Prop where
  inv : GoBackend.Inv s.go
  tunnel : ∀ t c, GoBackend.running s.go = some (t, c) → s.tunnel = some t

/-- A class of environments: those considered at a step of the backend. -/
abbrev Assume := WgOp → WgEnv → WgState → Prop

/-- Permission is granted whenever it is asked for. -/
def Granted (A : Assume) : Prop := ∀ env s, A .prepare env s → env.prepareIntent = false

/-- A call of `setState(.., UP, ..)` that throws leaves nothing running. -/
def NoRollback (A : Assume) : Prop :=
  ∀ t config env s e, A (.setState t .up config) env s →
    (callSetState net packageName env.setState t .up config s).1 = .error e →
    GoBackend.running (callSetState net packageName env.setState t .up config s).2 = none

/-- **The ways `connect` can end**, started in `s`. -/
inductive Connected (A : Assume) (configText : JString) (s : WgState) :
    Except ConnectExn Unit → WgState → Prop where
  /-- Permission was requested, and the call returns. -/
  | asked (s' : WgState) (hA : ¬ Granted A) (hgo : s'.go = s.go) (htunnel : s'.tunnel = s.tunnel) :
      Connected A configText s (.ok ()) s'
  /-- Nobody could be asked, or the text is no configuration. -/
  | refused (e : ConnectExn) (s' : WgState) (hgo : s'.go = s.go) (htunnel : s'.tunnel = s.tunnel) :
      Connected A configText s (.error e) s'
  /-- The tunnel is up. -/
  | up (t : Tunnel) (c : ConfigRef) (s' : WgState) (hlinked : Linked s')
      (hparse : Config.parse net configText = .ok c.config)
      (hrunning : GoBackend.running s'.go = some (t, c)) (hflag : s'.isConnected = true) :
      Connected A configText s (.ok ()) s'
  /-- It could not be brought up, and nothing runs. -/
  | failed (e : ConnectExn) (s' : WgState) (hlinked : Linked s')
      (hrunning : GoBackend.running s'.go = none) (hflag : s'.isConnected = false) :
      Connected A configText s (.error e) s'
  /-- It could not be brought up, and what ran before runs again. -/
  | restored (e : ConnectExn) (s' : WgState) (hA : ¬ NoRollback net packageName A)
      (hlinked : Linked s') (hrunning : GoBackend.running s'.go = GoBackend.running s.go)
      (hflag : s'.isConnected = false) :
      Connected A configText s (.error e) s'

variable {net packageName}

/-- Every way out keeps the link between the field and the tunnel that runs. -/
theorem Connected.linked {A : Assume} {configText : JString} {s s' : WgState}
    {result : Except ConnectExn Unit} (h : Connected net packageName A configText s result s')
    (hs : Linked s) : Linked s' := by
  have hkeep : ∀ u : WgState, u.go = s.go → u.tunnel = s.tunnel → Linked u := by
    intro u hgo htunnel
    refine ⟨by rw [hgo]; exact hs.inv, ?_⟩
    intro t c hrun
    rw [hgo] at hrun
    rw [htunnel]
    exact hs.tunnel t c hrun
  cases h with
  | asked _ _ hgo htunnel => exact hkeep _ hgo htunnel
  | refused _ _ hgo htunnel => exact hkeep _ hgo htunnel
  | up _ _ _ hlinked => exact hlinked
  | failed _ _ hlinked => exact hlinked
  | restored _ _ _ hlinked => exact hlinked

/-- Setting the flag does not touch what runs. -/
theorem Linked.setConnected {s : WgState} (h : Linked s) (value : Bool) :
    Linked { s with go := { s.go with listeners := value } } where
  inv := inv_setConnected h.inv value
  tunnel := h.tunnel

variable (net packageName) in
/-- The bodies run alone, in the environments of the class `A`.  The user is not asked
if permission is granted. -/
abbrev quiet (A : Assume) : Contract WgOp WgOp.Res WgEnv WgState :=
  Contract.alone (perform net packageName) A fun o => o = .onVpnPermissionRequired → ¬ Granted A

section Bodies

variable {A : Assume}

/-- After `getOrCreateTunnel` the field holds the tunnel. -/
theorem wp_getOrCreateTunnel {s : WgState} (hs : Linked s) {E : ConnectExn → WgState → Prop} :
    (quiet net packageName A).wp
      (fun t s' => Linked s' ∧ s'.tunnel = some t ∧ s'.go = s.go) E getOrCreateTunnel s := by
  simp only [getOrCreateTunnel, step, Prog.perform, Prog.bind_def, Prog.op_bind, Prog.pure_bind,
    Contract.wp_alone_op, reduceCtorEq, false_implies, perform]
  intro _ _
  cases htunnel : s.tunnel with
  | some t =>
    simp only [Prog.pure_def, Contract.wp_pure]
    exact ⟨hs, htunnel, trivial⟩
  | none =>
    simp only [Prog.pure_def, Contract.wp_alone_op, reduceCtorEq, false_implies,
      Contract.wp_pure, perform]
    intro _ _ _ _
    refine ⟨⟨hs.inv, ?_⟩, by simp⟩
    intro t c hrun
    -- nothing runs while the field is empty
    have hfield := hs.tunnel t c hrun
    rw [htunnel] at hfield
    exact absurd hfield (by simp)

/-- The `try` block of `connect`, for the tunnel in the field. -/
theorem wp_bringUp {s₀ s : WgState} (hs : Linked s) {t : Tunnel} (htunnel : s.tunnel = some t)
    (hgo : s.go = s₀.go) {configText : JString} {c : ConfigRef}
    (hparse : Config.parse net configText = .ok c.config) :
    (quiet net packageName A).wp
      (fun _ => Connected net packageName A configText s₀ (.ok ()))
      (fun e => Connected net packageName A configText s₀ (.error e)) (bringUp t c) s := by
  rw [bringUp, Contract.wp_tryCatch]
  simp only [step, Prog.perform, Prog.bind_def, Prog.op_bind, Prog.pure_bind,
    Contract.wp_alone_op, reduceCtorEq, false_implies]
  intro env henv
  obtain ⟨r, go, calls, hcall, heff, href⟩ :=
    callSetState_refines net packageName env t .up (some c) hs.inv
  have hreq : GoBackend.requested t .up s.go = .up := rfl
  rw [hreq] at heff
  rw [perform_setState net packageName hcall]
  cases r with
  | ok x =>
    obtain ⟨c', hc, hrun⟩ := heff.of_up_ok
    obtain rfl := Option.some.inj hc
    have hlinked : Linked { s with go := go } := by
      refine ⟨href.inv, ?_⟩
      intro t' c' hrun'
      rw [hrun] at hrun'
      rw [htunnel, (Prod.mk.inj (Option.some.inj hrun')).1]
    simp only [Except.mapError, Prog.ofExcept, Prog.pure_bind, Contract.wp_alone_op,
      reduceCtorEq, false_implies, Contract.wp_pure, perform]
    intro _ _ _ _
    exact .up t c _ ⟨inv_setConnected href.inv true, hlinked.tunnel⟩ hparse hrun rfl
  | error e =>
    simp only [Except.mapError, Prog.ofExcept, Prog.throw_bind, Contract.wp_throw, perform]
    intro _ _
    rcases heff.of_up_error with hnone | hsame
    · refine .failed _ _ ⟨inv_setConnected href.inv false, ?_⟩ hnone rfl
      intro t' c' hrun'
      exact absurd (hnone.symm.trans hrun') (by simp)
    · by_cases hnone : GoBackend.running go = none
      · refine .failed _ _ ⟨inv_setConnected href.inv false, ?_⟩ hnone rfl
        intro t' c' hrun'
        exact absurd (hnone.symm.trans hrun') (by simp)
      · refine .restored _ _ ?_ ⟨inv_setConnected href.inv false, ?_⟩ ?_ rfl
        · intro hA
          refine hnone ?_
          have := hA t (some c) env s e henv (by rw [hcall])
          rwa [hcall] at this
        · intro t' c' hrun'
          exact hs.tunnel t' c' (hsame ▸ hrun')
        · show GoBackend.running go = GoBackend.running s₀.go
          rw [hsame, hgo]

/-- **`connect` run alone.** -/
theorem wp_connect (configText : JString) {s : WgState} (hs : Linked s) :
    (quiet net packageName A).wp
      (fun _ => Connected net packageName A configText s (.ok ()))
      (fun e => Connected net packageName A configText s (.error e)) (connect configText) s := by
  simp only [connect, step, Prog.perform, Prog.bind_def, Prog.op_bind, Prog.pure_bind,
    Contract.wp_alone_op, reduceCtorEq, false_implies]
  intro env henv
  rw [perform]
  cases hintent : env.prepareIntent with
  | true =>
    have hA : ¬ Granted A := fun hA => absurd ((hA env s henv).symm.trans hintent) (by simp)
    simp only [if_true, Contract.wp_alone_op, hA, not_false_eq_true, implies_true, perform]
    intro _ _ _ _
    cases s.permissionCallback with
    | true => exact .asked _ hA rfl rfl
    | false => exact .refused _ _ rfl rfl
  | false =>
    simp only [Bool.false_eq_true, if_false, Contract.wp_alone_op, reduceCtorEq, false_implies,
      perform]
    intro _ _
    cases hparse : Config.parse net configText with
    | error e => exact .refused _ _ rfl rfl
    | ok config =>
      simp only [Prog.ofExcept, Prog.pure_bind, Contract.wp_bind]
      have hs' : Linked { s with configs := s.configs + 1 } := ⟨hs.inv, hs.tunnel⟩
      refine Contract.wp_mono ?_ (fun _ _ h => h) (wp_getOrCreateTunnel hs')
      rintro t s₁ ⟨hs₁, htunnel, hgo⟩
      have hgo' : s₁.go = s.go := hgo
      exact wp_bringUp (c := ⟨s.configs, config⟩) hs₁ htunnel hgo' hparse

/-- **`disconnect` run alone** leaves nothing running, and does not throw. -/
theorem wp_disconnect {s : WgState} (hs : Linked s) :
    (quiet net packageName A).wp
      (fun _ s' => Linked s' ∧ GoBackend.running s'.go = none ∧ s'.isConnected = false)
      (fun _ _ => False) disconnect s := by
  simp only [disconnect, step, Prog.perform, Prog.bind_def, Prog.op_bind, Prog.pure_bind,
    Contract.wp_alone_op, reduceCtorEq, false_implies, perform]
  intro _ _
  cases htunnel : s.tunnel with
  | none =>
    simp only [Contract.wp_alone_op, reduceCtorEq, false_implies, Contract.wp_pure, perform]
    intro _ _
    refine ⟨hs.setConnected false, ?_, rfl⟩
    cases hrun : GoBackend.running s.go with
    | none => exact hrun
    | some o => exact absurd ((hs.tunnel o.1 o.2 hrun).symm.trans htunnel) (by simp)
  | some t =>
    simp only [Contract.wp_tryFinally, Contract.wp_alone_op, reduceCtorEq, false_implies]
    intro env _
    obtain ⟨r, go, calls, hcall, heff, href⟩ :=
      callSetState_refines net packageName env t .down none hs.inv
    have hreq : GoBackend.requested t .down s.go = .down := rfl
    rw [hreq] at heff
    obtain ⟨rfl, hcase⟩ := heff.of_down
    have hnone : GoBackend.running go = none := by
      rcases hcase with ⟨-, h⟩ | ⟨hne, h⟩
      · exact h
      · cases hrun : GoBackend.running s.go with
        | none => rw [h, hrun]
        | some o =>
          obtain rfl := Option.some.inj ((hs.tunnel o.1 o.2 hrun).symm.trans htunnel)
          exact absurd hrun (hne o.2)
    rw [perform_setState net packageName hcall]
    simp only [Except.mapError, Prog.ofExcept, Prog.pure_bind, Prog.pure_def, Contract.wp_pure,
      perform]
    intro _ _ _ _
    refine ⟨⟨inv_setConnected href.inv false, ?_⟩, hnone, rfl⟩
    intro t' c' hrun'
    exact absurd (hnone.symm.trans hrun') (by simp)

end Bodies

end WireGuardBackend
end AioVpn
