import AioVpn.App.ConnectedFlag
import AioVpn.Coroutine.Outline

/-!
# Calls that overlap

`HomeActivity` and `ServerListActivity` launch `connect` and `disconnect` on the IO
dispatcher and nothing keeps two calls apart.  `connect` reads the field `tunnel`,
and only later writes it; `disconnect` clears it after the native call.  This file is
about every interleaving of any number of calls, each read or write of the field and
each call of `GoBackend.setState` being one step.

The tunnel that runs can be stopped as long as it is the one in the field, because
`disconnect` asks `GoBackend` to take down that one and no other.  Three orders of steps
break this: a tunnel is stored while another call goes on with what it has read in the
field (`tunnel_lost_in_a_race`), a tunnel is brought up while a `disconnect` has taken the
tunnel down and is going to clear the field, and the field is cleared while a `connect` is
going to bring up the tunnel it found there.  `running_tunnel_can_be_stopped` is about the
runs without these.

Where a call stands is its `Point`, and what may be said of the field and of the tunnel
that runs depends on the points at which the calls stand: `Claim`.  That the bodies lead
from point to point in the right order is `Leads`, checked for the three bodies in
`shaped_body`; the rest is the proof outline `outline`.
-/

namespace AioVpn
namespace WireGuardBackend

open Coroutine

variable (net : NetApi) (packageName : JString)

/-! ## The runs considered -/

/-- Every call of `setState` succeeds, and the service is not destroyed. -/
def succeeding (c : WgConf) : Act Event WgEnv → Bool
  | .event (.call _) => true
  | .event (.serviceDestroyed _) => false
  | .step i env =>
      match c.threads[i]? with
      | some ⟨_, .op (.setState t state config) _⟩ =>
          match (callSetState net packageName env.setState t state config c.shared).1 with
          | .ok _ => true
          | .error _ => false
      | _ => true

/-- The points of a call that matter to the others. -/
inductive Point where
  /-- Before the field is read, or after the last step that has to do with it. -/
  | elsewhere
  /-- A `connect` has found the field empty. -/
  | creating
  /-- It is about to store the tunnel it has created. -/
  | storing (t : Tunnel)
  /-- It has a tunnel, found or stored, and is about to bring it up. -/
  | bringingUp (t : Tunnel)
  /-- A `disconnect` has found a tunnel and is about to take it down. -/
  | takingDown (t : Tunnel)
  /-- It has done so and is going to clear the field. -/
  | clearing
  deriving DecidableEq

/-- Where a call stands. -/
def point : WgProg (Option Job) → Point
  | .op .newTunnel _ => .creating
  | .op (.setTunnel (some t)) _ => .storing t
  | .op (.setTunnel none) _ => .clearing
  | .op (.setState t .down _) _ => .takingDown t
  | .op (.setState t _ _) _ => .bringingUp t
  | .op (.setConnected _) k =>
      if (k ()).nextOp = some (.setTunnel none) then .clearing else .elsewhere
  | _ => .elsewhere

/-- The call has read the field and has not called `setState` yet. -/
def Point.betweenReadAndSetState : Point → Bool
  | .creating | .storing _ | .bringingUp _ | .takingDown _ => true
  | _ => false

/-- The call is about to bring a tunnel up. -/
def Point.isBringingUp : Point → Bool
  | .bringingUp _ => true
  | _ => false

/-- A tunnel is stored only while no other call is between its read of the field and its
`setState`; it is brought up only while no `disconnect` is between its `setState` and the
write that clears the field; and the field is cleared only while no `connect` that has a
tunnel is before its `setState`. -/
def inStep (c : WgConf) : Act Event WgEnv → Bool
  | .event _ => true
  | .step i _ =>
      match c.threads[i]? with
      | some ⟨_, .op (.setTunnel (some _)) _⟩ =>
          (c.threads.eraseIdx i).all fun u => !(point u.body).betweenReadAndSetState
      | some ⟨_, .op (.setState _ .up _) _⟩ => c.threads.all fun u => point u.body ≠ .clearing
      | some ⟨_, .op (.setTunnel none) _⟩ => c.threads.all fun u => !(point u.body).isBringingUp
      | _ => true

/-- The side condition of the runs below. -/
def ordered (c : WgConf) (a : Act Event WgEnv) : Bool :=
  succeeding net packageName c a && inStep c a

/-! ## The order of the points -/

/-- Where the step `o` leads. -/
def Leads : (o : WgOp) → (o.Res → WgProg (Option Job)) → Prop
  | .getTunnel, k =>
      (point (k none) = .creating ∨ point (k none) = .elsewhere) ∧
        ∀ t, point (k (some t)) = .bringingUp t ∨ point (k (some t)) = .takingDown t
  | .newTunnel, k => ∀ t, point (k t) = .storing t
  | .setTunnel (some t), k => point (k ()) = .bringingUp t
  | .setState _ .down _, k => ∀ r, point (k r) = .clearing
  | .setState _ .toggle _, _ => False
  | .setConnected _, k => (k ()).nextOp = some (.setTunnel none) ∨ point (k ()) = .elsewhere
  | _, k => ∀ r, point (k r) = .elsewhere

/-- Every step of the body leads where it should. -/
def Shaped : WgProg (Option Job) → Prop := Prog.Nodes Leads

theorem shaped_bringUp (t : Tunnel) (c : ConfigRef) :
    Shaped ((bringUp t c).bind fun _ => .pure none) := by
  refine ⟨fun r => ?_, fun r => ?_⟩
  · cases r <;> rfl
  · cases r with
    | ok x => exact ⟨Or.inr rfl, fun _ => ⟨fun _ => rfl, fun _ => trivial⟩⟩
    | error e => exact ⟨Or.inr rfl, fun _ => trivial⟩

theorem shaped_connect (configText : JString) :
    Shaped ((connect configText).bind fun _ => .pure none) := by
  refine ⟨fun intent => ?_, fun intent => ?_⟩
  · cases intent <;> rfl
  · cases intent with
    | true =>
      refine ⟨fun _ => rfl, fun _ => ⟨fun called => ?_, fun called => ?_⟩⟩
      · cases called <;> rfl
      · cases called <;> trivial
    | false =>
      refine ⟨fun result => ?_, fun result => ?_⟩
      · cases result <;> rfl
      · cases result with
        | error e => trivial
        | ok config =>
          refine ⟨⟨Or.inl rfl, fun t => Or.inl rfl⟩, fun field => ?_⟩
          cases field with
          | some t => exact shaped_bringUp t config
          | none => exact ⟨fun t => rfl, fun t => ⟨rfl, fun _ => shaped_bringUp t config⟩⟩

/-- **Every body leads from point to point in the right order.** -/
theorem shaped_body (job : Job) : Shaped ((system net packageName).body job) := by
  cases job with
  | connect configText => exact shaped_connect configText
  | disconnect =>
    refine ⟨⟨Or.inr rfl, fun t => Or.inr rfl⟩, fun field => ?_⟩
    cases field with
    | none => exact ⟨Or.inr rfl, fun _ => trivial⟩
    | some t =>
      refine ⟨fun r => ?_, fun r => ?_⟩
      · cases r <;> rfl
      · cases r with
        | ok x => exact ⟨Or.inl rfl, fun _ => ⟨fun _ => rfl, fun _ => trivial⟩⟩
        | error e => exact ⟨Or.inl rfl, fun _ => ⟨fun _ => rfl, fun _ => trivial⟩⟩
  | retryConnectionAfterPermission =>
    refine ⟨fun pending => ?_, fun pending => ?_⟩
    · cases pending <;> rfl
    · cases pending with
      | none => trivial
      | some configText => exact ⟨fun _ => rfl, fun _ => shaped_connect configText⟩

theorem point_body (job : Job) : point ((system net packageName).body job) = .elsewhere := by
  cases job <;> rfl

/-! ## What holds at the points -/

/-- What is true of the field and of the tunnel that runs while a call is at a point. -/
def Claim (s : WgState) : Point → Prop
  | .elsewhere => True
  | .creating => s.tunnel = none
  | .storing _ => s.tunnel = none
  | .bringingUp t => s.tunnel = some t
  | .takingDown t => s.tunnel = some t ∨ s.tunnel = none
  | .clearing => s.go.currentTunnel = none

/-- The outline of the calls. -/
def outline : Outline WgOp WgOp.Res ConnectExn WgState Job where
  inv := fun s => GoBackend.Inv s.go ∧
    (s.go.currentTunnel = none ∨ s.go.currentTunnel = s.tunnel)
  holds := fun _ p s => Shaped p ∧ Claim s (point p)

theorem holds_body (s : WgState) (job : Job) :
    outline.holds job ((system net packageName).body job) s := by
  refine ⟨shaped_body net packageName job, ?_⟩
  rw [point_body]
  trivial

/-! ## The steps -/

section Steps

variable {net packageName} {s : WgState} {env : WgEnv}

/-- A call of `setState(.., UP, ..)` that succeeds. -/
theorem currentTunnel_up (hinv : GoBackend.Inv s.go) {t : Tunnel} {config : Option ConfigRef}
    (hok : ∃ x, (callSetState net packageName env.setState t .up config s).1 = .ok x) :
    (perform net packageName (.setState t .up config) env s).2.go.currentTunnel = some t := by
  obtain ⟨r, go, calls, hcall, heff, href⟩ :=
    callSetState_refines net packageName env t .up config hinv
  obtain ⟨x, hx⟩ := hok
  obtain rfl : r = .ok x := by rw [← hx, hcall]
  obtain ⟨c, -, hrun⟩ := heff.of_up_ok
  rw [perform_setState net packageName hcall]
  show go.currentTunnel = some t
  rw [href.inv.currentTunnel_eq, hrun, Option.map_some]

/-- A call of `setState(.., DOWN, ..)` takes the tunnel down, or leaves what runs alone. -/
theorem currentTunnel_down (hinv : GoBackend.Inv s.go) (t : Tunnel) (config : Option ConfigRef) :
    let s' := (perform net packageName (.setState t .down config) env s).2
    s'.go.currentTunnel = none ∨
      s'.go.currentTunnel = s.go.currentTunnel ∧ s.go.currentTunnel ≠ some t := by
  obtain ⟨r, go, calls, hcall, heff, href⟩ :=
    callSetState_refines net packageName env t .down config hinv
  rw [perform_setState net packageName hcall]
  show go.currentTunnel = none ∨ go.currentTunnel = s.go.currentTunnel ∧ _
  rw [href.inv.currentTunnel_eq, hinv.currentTunnel_eq]
  rcases heff.of_down.2 with ⟨-, hnone⟩ | ⟨hne, hsame⟩
  · exact Or.inl (by rw [hnone, Option.map_none])
  · refine Or.inr ⟨by rw [hsame], fun hsome => ?_⟩
    obtain ⟨⟨t', c⟩, hrun, rfl⟩ := Option.map_eq_some_iff.mp hsome
    exact hne c hrun

/-- What is claimed at a point is about the field and about the tunnel that runs. -/
theorem Claim.congr {s' : WgState} {p : Point} (h : Claim s p) (hfield : s'.tunnel = s.tunnel)
    (hcurrent : s'.go.currentTunnel = s.go.currentTunnel) : Claim s' p := by
  cases p with
  | elsewhere => trivial
  | creating => exact hfield.trans h
  | storing t => exact hfield.trans h
  | bringingUp t => exact hfield.trans h
  | takingDown t => exact h.imp hfield.trans hfield.trans
  | clearing => exact hcurrent.trans h

/-- A tunnel is stored. -/
theorem Claim.stored {s' : WgState} {p : Point} (h : Claim s p)
    (hp : p.betweenReadAndSetState = false)
    (hcurrent : s'.go.currentTunnel = s.go.currentTunnel) : Claim s' p := by
  cases p with
  | elsewhere => trivial
  | clearing => exact hcurrent.trans h
  | creating => exact absurd hp (by simp [Point.betweenReadAndSetState])
  | storing t => exact absurd hp (by simp [Point.betweenReadAndSetState])
  | bringingUp t => exact absurd hp (by simp [Point.betweenReadAndSetState])
  | takingDown t => exact absurd hp (by simp [Point.betweenReadAndSetState])

/-- The field is cleared. -/
theorem Claim.cleared {s' : WgState} {p : Point} (h : Claim s p) (hp : p.isBringingUp = false)
    (hfield : s'.tunnel = none) (hcurrent : s'.go.currentTunnel = s.go.currentTunnel) :
    Claim s' p := by
  cases p with
  | elsewhere => trivial
  | creating => exact hfield
  | storing t => exact hfield
  | bringingUp t => exact absurd hp (by simp [Point.isBringingUp])
  | takingDown t => exact Or.inr hfield
  | clearing => exact hcurrent.trans h

/-- A tunnel is brought up. -/
theorem Claim.broughtUp {s' : WgState} {p : Point} (h : Claim s p) (hp : p ≠ .clearing)
    (hfield : s'.tunnel = s.tunnel) : Claim s' p := by
  cases p with
  | elsewhere => trivial
  | creating => exact hfield.trans h
  | storing t => exact hfield.trans h
  | bringingUp t => exact hfield.trans h
  | takingDown t => exact h.imp hfield.trans hfield.trans
  | clearing => exact absurd rfl hp

/-- What runs is taken down or left alone. -/
theorem Claim.takenDown {s' : WgState} {p : Point} (h : Claim s p)
    (hfield : s'.tunnel = s.tunnel)
    (hcurrent : s'.go.currentTunnel = none ∨ s'.go.currentTunnel = s.go.currentTunnel) :
    Claim s' p := by
  rcases hcurrent with hnone | hsame
  · by_cases hp : p = .clearing
    · subst hp
      exact hnone
    · exact h.broughtUp hp hfield
  · exact h.congr hfield hsame

/-- The steps that have nothing to do with the field or with `setState`. -/
theorem same_of_other {o : WgOp} (hset : ∀ t, o ≠ .setTunnel t)
    (hstate : ∀ t state config, o ≠ .setState t state config) :
    (perform net packageName o env s).2.tunnel = s.tunnel ∧
      (perform net packageName o env s).2.go.currentTunnel = s.go.currentTunnel := by
  cases o with
  | setTunnel t => exact absurd rfl (hset t)
  | setState t state config => exact absurd rfl (hstate t state config)
  | onVpnPermissionRequired =>
    rw [perform]
    split <;> exact ⟨rfl, rfl⟩
  | parse configText =>
    rw [perform]
    cases Config.parse net configText <;> exact ⟨rfl, rfl⟩
  | prepare => exact ⟨rfl, rfl⟩
  | getPendingConfig => exact ⟨rfl, rfl⟩
  | setPendingConfig config => exact ⟨rfl, rfl⟩
  | getTunnel => exact ⟨rfl, rfl⟩
  | newTunnel => exact ⟨rfl, rfl⟩
  | setConnected value => exact ⟨rfl, rfl⟩

/-- Where a step leads that has nothing to do with the field or with `setState`. -/
theorem claim_of_other {o : WgOp} {k : o.Res → WgProg (Option Job)} (hleads : Leads o k)
    (hset : ∀ t, o ≠ .setTunnel t) (hstate : ∀ t state config, o ≠ .setState t state config)
    (hclaim : Claim s (point (.op o k))) :
    Claim s (point (k (perform net packageName o env s).1)) := by
  cases o with
  | setTunnel t => exact absurd rfl (hset t)
  | setState t state config => exact absurd rfl (hstate t state config)
  | getTunnel =>
    show Claim s (point (k s.tunnel))
    cases htunnel : s.tunnel with
    | none =>
      rcases hleads.1 with hpoint | hpoint
      · rw [hpoint]
        exact htunnel
      · rw [hpoint]
        trivial
    | some t =>
      rcases hleads.2 t with hpoint | hpoint
      · rw [hpoint]
        exact htunnel
      · rw [hpoint]
        exact Or.inl htunnel
  | newTunnel =>
    rw [hleads]
    exact hclaim
  | setConnected value =>
    rcases hleads with hnext | hpoint
    · obtain ⟨k', hk'⟩ := Prog.eq_op_of_nextOp hnext
      have hclearing : point (.op (.setConnected value) k) = .clearing := if_pos hnext
      rw [hclearing] at hclaim
      show Claim s (point (k ()))
      rw [hk']
      exact hclaim
    · show Claim s (point (k ()))
      rw [hpoint]
      trivial
  | prepare => rw [hleads]; trivial
  | getPendingConfig => rw [hleads]; trivial
  | setPendingConfig config => rw [hleads]; trivial
  | onVpnPermissionRequired => rw [hleads]; trivial
  | parse configText => rw [hleads]; trivial

end Steps

/-- What the step `o` of the `i`-th call owes: the claim at the point it leads to, and those at
the points where the other calls stand. -/
def Owed (c : WgConf) (i : ℕ) (env : WgEnv) (j : Job) (o : WgOp)
    (k : o.Res → WgProg (Option Job)) : Prop :=
  let x := perform net packageName o env c.shared
  outline.holds j (k x.1) x.2 ∧
    outline.Kept (system net packageName) (fun t => ∃ l, l ≠ i ∧ c.threads[l]? = some t) x.2
      (k x.1).launched

section Owed

variable {net packageName} {c : WgConf} (hc : outline.Valid c) {i : ℕ} {env : WgEnv} {j : Job}

include hc

theorem owed_of_claims {o : WgOp} {k : o.Res → WgProg (Option Job)}
    (hshaped : ∀ r, Shaped (k r))
    (hinv : outline.inv (perform net packageName o env c.shared).2)
    (hself : Claim (perform net packageName o env c.shared).2
      (point (k (perform net packageName o env c.shared).1)))
    (hothers : ∀ (l : ℕ) u, l ≠ i → c.threads[l]? = some u → Claim c.shared (point u.body) →
      Claim (perform net packageName o env c.shared).2 (point u.body)) :
    Owed net packageName c i env j o k := by
  refine ⟨⟨hshaped _, hself⟩, hinv, ?_, fun job _ => holds_body net packageName _ job⟩
  rintro u ⟨l, hl, hu⟩
  obtain ⟨hshaped', hclaim⟩ := hc.thread u (List.mem_of_getElem? hu)
  exact ⟨hshaped', hothers l u hl hu hclaim⟩

/-- A tunnel is stored: the field was empty, so that nothing runs. -/
theorem owed_store {t : Tunnel} {k : Unit → WgProg (Option Job)}
    (hok : inStep c (.step i env) = true)
    (hi : c.threads[i]? = some ⟨j, .op (.setTunnel (some t)) k⟩) :
    Owed net packageName c i env j (.setTunnel (some t)) k := by
  obtain ⟨⟨hleads, hshaped⟩, hempty⟩ := hc.thread _ (List.mem_of_getElem? hi)
  have hpoint : point (k ()) = .bringingUp t := hleads
  have hnone : c.shared.go.currentTunnel = none := by
    rcases hc.inv.2 with h | h
    · exact h
    · exact h.trans hempty
  have hothers : (c.threads.eraseIdx i).all
      (fun u => !(point u.body).betweenReadAndSetState) = true := by
    simpa [inStep, hi] using hok
  refine owed_of_claims hc hshaped ⟨hc.inv.1, Or.inl hnone⟩ ?_ fun l u hl hu hclaim => ?_
  · show Claim { c.shared with tunnel := some t } (point (k ()))
    rw [hpoint]
    rfl
  · have hmem : u ∈ c.threads.eraseIdx i := List.mem_eraseIdx_iff_getElem?.mpr ⟨l, hl, hu⟩
    have hout := List.all_eq_true.mp hothers u hmem
    exact hclaim.stored (by simpa using hout) rfl

/-- The field is cleared: nothing runs. -/
theorem owed_clear {k : Unit → WgProg (Option Job)} (hok : inStep c (.step i env) = true)
    (hi : c.threads[i]? = some ⟨j, .op (.setTunnel none) k⟩) :
    Owed net packageName c i env j (.setTunnel none) k := by
  obtain ⟨⟨hleads, hshaped⟩, hnone⟩ := hc.thread _ (List.mem_of_getElem? hi)
  have hothers : c.threads.all (fun u => !(point u.body).isBringingUp) = true := by
    simpa [inStep, hi] using hok
  refine owed_of_claims hc hshaped ⟨hc.inv.1, Or.inl hnone⟩ ?_ fun l u _ hu hclaim => ?_
  · show Claim { c.shared with tunnel := none } (point (k ()))
    rw [hleads ()]
    trivial
  · have hout := List.all_eq_true.mp hothers u (List.mem_of_getElem? hu)
    exact hclaim.cleared (by simpa using hout) rfl rfl

/-- A tunnel is brought up: it is the one in the field. -/
theorem owed_up {t : Tunnel} {config : Option ConfigRef}
    {k : Except ConnectExn TunnelState → WgProg (Option Job)}
    (hok : ordered net packageName c (.step i env) = true)
    (hi : c.threads[i]? = some ⟨j, .op (.setState t .up config) k⟩) :
    Owed net packageName c i env j (.setState t .up config) k := by
  obtain ⟨hsucc, hstep⟩ := Bool.and_eq_true_iff.mp hok
  obtain ⟨⟨hleads, hshaped⟩, hfield⟩ := hc.thread _ (List.mem_of_getElem? hi)
  have hresult : ∃ x,
      (callSetState net packageName env.setState t .up config c.shared).1 = .ok x := by
    cases hcall : (callSetState net packageName env.setState t .up config c.shared).1 with
    | ok x => exact ⟨x, rfl⟩
    | error e => exact absurd hsucc (by simp [succeeding, hi, hcall])
  have hcurrent := currentTunnel_up hc.inv.1 hresult
  have hothers : c.threads.all (fun u => point u.body ≠ .clearing) = true := by
    simpa [inStep, hi] using hstep
  refine owed_of_claims hc hshaped
    ⟨inv_perform net packageName _ env hc.inv.1, Or.inr (hcurrent.trans hfield.symm)⟩ ?_
    fun l u _ hu hclaim => ?_
  · rw [hleads]
    trivial
  · have hout := List.all_eq_true.mp hothers u (List.mem_of_getElem? hu)
    exact hclaim.broughtUp (by simpa using hout) rfl

/-- A tunnel is taken down: it was the one in the field, or nothing runs. -/
theorem owed_down {t : Tunnel} {config : Option ConfigRef}
    {k : Except ConnectExn TunnelState → WgProg (Option Job)}
    (hi : c.threads[i]? = some ⟨j, .op (.setState t .down config) k⟩) :
    Owed net packageName c i env j (.setState t .down config) k := by
  obtain ⟨⟨hleads, hshaped⟩, hfield⟩ := hc.thread _ (List.mem_of_getElem? hi)
  have hnone : (perform net packageName (.setState t .down config) env
      c.shared).2.go.currentTunnel = none := by
    rcases currentTunnel_down hc.inv.1 t config with hdown | ⟨hsame, hother⟩
    · exact hdown
    · rcases hc.inv.2 with h | h
      · exact hsame.trans h
      · rcases hfield with hmine | hempty
        · exact absurd (h.trans hmine) hother
        · exact hsame.trans (h.trans hempty)
  refine owed_of_claims hc hshaped
    ⟨inv_perform net packageName _ env hc.inv.1, Or.inl hnone⟩ ?_ fun l u _ _ hclaim => ?_
  · rw [hleads]
    exact hnone
  · exact hclaim.takenDown rfl (Or.inl hnone)

/-- The other steps change neither the field nor what runs. -/
theorem owed_other {o : WgOp} {k : o.Res → WgProg (Option Job)} (hset : ∀ t, o ≠ .setTunnel t)
    (hstate : ∀ t state config, o ≠ .setState t state config)
    (hi : c.threads[i]? = some ⟨j, .op o k⟩) : Owed net packageName c i env j o k := by
  obtain ⟨⟨hleads, hshaped⟩, hclaim⟩ := hc.thread _ (List.mem_of_getElem? hi)
  obtain ⟨hfield, hcurrent⟩ : _ ∧ (perform net packageName o env c.shared).2.go.currentTunnel = _ :=
    same_of_other hset hstate
  refine owed_of_claims hc hshaped ⟨inv_perform net packageName o env hc.inv.1, ?_⟩ ?_ ?_
  · rw [hfield, hcurrent]
    exact hc.inv.2
  · exact (claim_of_other hleads hset hstate hclaim).congr hfield hcurrent
  · exact fun l u _ _ hclaim' => hclaim'.congr hfield hcurrent

end Owed

/-- **The outline is sound.** -/
theorem outline_sound :
    outline.Sound (system net packageName) fun c a => ordered net packageName c a = true where
  event := by
    intro c e s' j hc hok hhandle
    cases e with
    | serviceDestroyed service => exact absurd hok (by simp [ordered, succeeding])
    | call job =>
      obtain ⟨rfl, rfl⟩ := Prod.mk.inj (Option.some.inj hhandle)
      exact ⟨hc.inv, hc.thread, fun job' _ => holds_body net packageName _ job'⟩
  step := by
    intro c i env j o k hc hok hi hat
    have hstep := (Bool.and_eq_true_iff.mp hok).2
    show Owed net packageName c i env j o k
    cases o with
    | setTunnel tunnel =>
      cases tunnel with
      | some t => exact owed_store hc hstep hi
      | none => exact owed_clear hc hstep hi
    | setState t state config =>
      cases state with
      | up => exact owed_up hc hok hi
      | down => exact owed_down hc hi
      | toggle => exact hat.1.1.elim
    | prepare => exact owed_other hc (by simp) (by simp) hi
    | getPendingConfig => exact owed_other hc (by simp) (by simp) hi
    | setPendingConfig config => exact owed_other hc (by simp) (by simp) hi
    | onVpnPermissionRequired => exact owed_other hc (by simp) (by simp) hi
    | parse configText => exact owed_other hc (by simp) (by simp) hi
    | getTunnel => exact owed_other hc (by simp) (by simp) hi
    | newTunnel => exact owed_other hc (by simp) (by simp) hi
    | setConnected value => exact owed_other hc (by simp) (by simp) hi

/-! ## Stopping the tunnel -/

/-- **A running tunnel can be stopped.**  In every interleaving of any number of
calls, every `setState` succeeding, in which no call stores a tunnel while another is
between its read of the field and its `setState`, none brings one up while a `disconnect`
is between its `setState` and its write of the field, and none clears the field while a
`connect` is about to bring up the tunnel it has: at every moment, and so when all calls
have finished, nothing runs or the tunnel that runs is the one in the field, and one more
`disconnect` leaves nothing running. -/
theorem running_tunnel_can_be_stopped (d : WgConf)
    (hrun : (system net packageName).Run (fun c a => ordered net packageName c a = true) start d) :
    (d.shared.go.currentTunnel = none ∨ d.shared.go.currentTunnel = d.shared.tunnel) ∧
      ∀ env : ℕ → WgEnv,
        (disconnect.runAlone (perform net packageName) env d.shared).2.go.currentTunnel = none := by
  have hstart : outline.Valid (start : WgConf) :=
    ⟨⟨GoBackend.inv_init false, Or.inl rfl⟩, by simp [start]⟩
  obtain ⟨hinv, htunnel⟩ := ((outline_sound net packageName).run hrun hstart).inv
  refine ⟨htunnel, ?_⟩
  have hlinked : Linked d.shared := by
    refine ⟨hinv, ?_⟩
    intro t c hrunning
    have hcur := (hinv.runningWith hrunning).tunnel
    rcases htunnel with hnone | hsame
    · exact absurd (hnone.symm.trans hcur) (by simp)
    · exact hsame.symm.trans hcur
  intro env
  have hwp : (quiet net packageName fun _ _ _ => True).wp
      (fun _ s' => Linked s' ∧ GoBackend.running s'.go = none ∧ s'.isConnected = false)
      (fun _ _ => False) disconnect d.shared := wp_disconnect hlinked
  have henv : ∀ (o : WgOp) (n : ℕ) (s : WgState), (fun _ _ _ => True : Assume) o (env n) s :=
    fun _ _ _ => trivial
  rcases Contract.runAlone_of_wp henv hwp with ⟨-, -, hend, hnone, -⟩ | ⟨-, -, hfalse⟩
  · rw [hend.inv.currentTunnel_eq, hnone, Option.map_none]
  · exact hfalse.elim

/-- The theorem for calls that overlap: the second `connect` finds the tunnel the first one
has stored, and brings it up before the first one does; a `disconnect` has read the field by
then, and takes the tunnel down when both are through; a last `connect` stores a new one. -/
theorem overlapping_calls_can_be_stopped :
    let d := ((system GoBackend.noAddresses GoBackend.applicationId).exec
      (ordered GoBackend.noAddresses GoBackend.applicationId) start
      (callAndRun 0 5 (.connect bareText) {} ++ callAndRun 1 6 (.connect bareText) {} ++
        callAndRun 2 1 .disconnect {} ++ List.replicate 3 (.step 0 {}) ++
        List.replicate 3 (.step 2 {}) ++ callAndRun 3 8 (.connect bareText) {})).get
          (by decide +kernel)
    (d.shared.go.currentTunnel = none ∨ d.shared.go.currentTunnel = d.shared.tunnel) ∧
      ∀ env : ℕ → WgEnv, (disconnect.runAlone
        (perform GoBackend.noAddresses GoBackend.applicationId) env
          d.shared).2.go.currentTunnel = none :=
  running_tunnel_can_be_stopped _ _ _
    (System.Run.of_exec (fun _ _ h => h) .refl (Option.some_get _).symm)

/-- The two calls of a race, up to the point where both have found the field empty. -/
def bothFoundNull : List (Act Event WgEnv) :=
  callAndRun 0 3 (.connect bareText) {} ++ callAndRun 1 3 (.connect bareText) {}

/-- **The tunnel is lost in a race.**  Two calls of `connect` find the field empty and
store a tunnel each; the one whose tunnel was overwritten is the last to bring its
tunnel up.  Both calls have finished, the tunnel that runs is not the one in the
field, and one more `disconnect` does not stop it. -/
theorem tunnel_lost_in_a_race :
    ((system GoBackend.noAddresses GoBackend.applicationId).exec
      (succeeding GoBackend.noAddresses GoBackend.applicationId) start
      (bothFoundNull ++ List.replicate 2 (.step 0 {}) ++ List.replicate 5 (.step 1 {}) ++
        List.replicate 3 (.step 0 {}))).map
      (fun d => (decide (Finished d), d.shared.go.currentTunnel.map Tunnel.serial,
        d.shared.tunnel.map Tunnel.serial,
        (disconnect.runAlone (perform GoBackend.noAddresses GoBackend.applicationId)
          (fun _ => {}) d.shared).2.go.currentTunnel.map Tunnel.serial)) =
      some (true, some 0, some 1, some 0) := by
  decide +kernel

end WireGuardBackend
end AioVpn
