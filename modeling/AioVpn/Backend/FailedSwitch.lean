import AioVpn.Backend.Lifecycle

/-!
# A switch that fails

`setState(tunnel, UP, config)` takes down what runs, brings the new tunnel up, and when
that throws brings the former one back.  The compensation is a bring-up of its own, so it
can stop at every place where the first one can, and it works with values that were read
before the first step cleared the fields they came from.

`attempt` is the first bring-up and `reactivation` the second.  `switchTo_of_error` says
what a call that throws has done: the attempt failed and left nothing running, and then
there was nothing to bring back or the reactivation was run from where the attempt stopped.

The device of the attempt is told apart from the others by its number: a bring-up creates
the devices from the count before it to the count after it, and an entry it adds to the
handle table has a number that was not yet given (`le_device_of_mem_up`).
-/

namespace AioVpn
namespace GoBackend

variable {L : Type} (net : NetApi) (packageName : JString) (notify : Tunnel → TunnelState → L → L)

/-! ## The two bring-ups of a switch -/

/-- What runs has been taken down. -/
def takenDown (s : GoState L) : GoState L :=
  match s.currentTunnel with
  | some current => setStateInternalDown notify current s
  | none => s

/-- The bring-up of the new tunnel. -/
def attempt (env : SetStateEnv) (tunnel : Tunnel) (config : Option ConfigRef) (s : GoState L) :
    Except Exn Unit × GoState L :=
  setStateInternalUp net packageName notify env.up tunnel config (takenDown notify s)

/-- The bring-up of the former tunnel `original` with its configuration, after the attempt. -/
def reactivation (env : SetStateEnv) (tunnel : Tunnel) (config : Option ConfigRef)
    (original : Tunnel) (originalConfig : ConfigRef) (s : GoState L) :
    Except Exn Unit × GoState L :=
  setStateInternalUp net packageName notify env.rollback original (some originalConfig)
    (attempt net packageName notify env tunnel config s).2

theorem takenDown_of_clear {s : GoState L} (h : Clear s) : takenDown notify s = s := by
  rw [takenDown, h.tunnel]

theorem takenDown_of_running {s : GoState L} {t : Tunnel} {c : ConfigRef}
    (h : RunningWith t c s) : takenDown notify s = setStateInternalDown notify t s := by
  rw [takenDown, h.tunnel]

/-- **A switch that throws.**  The attempt failed and left nothing running; if nothing ran
before, that is all, and otherwise the reactivation decides. -/
theorem switchTo_of_error (env : SetStateEnv) (tunnel : Tunnel) (config : Option ConfigRef)
    {s s' : GoState L} {e : Exn} (hinv : Inv s)
    (h : switchTo net packageName notify env tunnel config s = (.error e, s')) :
    Clear (attempt net packageName notify env tunnel config s).2 ∧
      ((Clear s ∧ s' = (attempt net packageName notify env tunnel config s).2) ∨
        ∃ t c, RunningWith t c s ∧
          s' = (reactivation net packageName notify env tunnel config t c s).2 ∧
          (RunningWith t c s' ∨ Clear s' ∧ ∃ e',
            (reactivation net packageName notify env tunnel config t c s).1 = .error e')) := by
  rcases hinv.fields with hclear | ⟨t, c, hrun⟩
  · have hattempt : attempt net packageName notify env tunnel config s =
        setStateInternalUp net packageName notify env.up tunnel config s := by
      rw [attempt, takenDown_of_clear notify hclear]
    unfold switchTo at h
    rw [hclear.tunnel] at h
    dsimp only at h
    rw [hattempt]
    rcases up_refines net packageName notify env.up tunnel config hinv hclear with
      ⟨e', s₁, heq, hclear₁, -⟩ | ⟨c, s₁, heq, -, -, -⟩
    · rw [heq] at h ⊢
      obtain ⟨-, rfl⟩ := Prod.mk.inj h
      exact ⟨hclear₁, Or.inl ⟨hclear, rfl⟩⟩
    · rw [heq] at h
      exact absurd (Prod.mk.inj h).1 (by simp)
  · obtain ⟨hclear, hdown⟩ := down_refines notify hinv hrun
    have hattempt : attempt net packageName notify env tunnel config s =
        setStateInternalUp net packageName notify env.up tunnel config
          (setStateInternalDown notify t s) := by
      rw [attempt, takenDown_of_running notify hrun]
    unfold switchTo at h
    rw [hrun.tunnel, hrun.config] at h
    dsimp only at h
    rw [hattempt]
    rcases up_refines net packageName notify env.up tunnel config hdown.inv hclear with
      ⟨e₁, s₁, heq, hclear₁, hfail⟩ | ⟨c', s₁, heq, -, -, -⟩
    · rw [heq] at h ⊢
      dsimp only at h
      refine ⟨hclear₁, Or.inr ⟨t, c, hrun, ?_⟩⟩
      rw [reactivation, hattempt, heq]
      rcases up_refines net packageName notify env.rollback t (some c) hfail.inv hclear₁ with
        ⟨e₂, s₂, heq₂, hclear₂, -⟩ | ⟨c₂, s₂, heq₂, hc, hrun₂, -⟩
      · rw [heq₂] at h ⊢
        obtain ⟨-, rfl⟩ := Prod.mk.inj h
        exact ⟨rfl, Or.inr ⟨hclear₂, e₂, rfl⟩⟩
      · rw [heq₂] at h ⊢
        obtain ⟨-, rfl⟩ := Prod.mk.inj h
        obtain rfl := Option.some.inj hc
        exact ⟨rfl, Or.inl hrun₂⟩
    · rw [heq] at h
      exact absurd (Prod.mk.inj h).1 (by simp)

/-- A call that throws has come to the switch. -/
theorem switchTo_of_setState_error {env : SetStateEnv} {tunnel : Tunnel}
    {config : Option ConfigRef} {s s' : GoState L} {e : Exn}
    (h : setState net packageName notify env tunnel .up config s = (.error e, s')) :
    switchTo net packageName notify env tunnel config s = (.error e, s') := by
  have hdef : setState net packageName notify env tunnel .up config s =
      if .up = getState tunnel s ∧ some tunnel = s.currentTunnel ∧ config = s.currentConfig then
        (.ok (getState tunnel s), s)
      else switchTo net packageName notify env tunnel config s := rfl
  rw [hdef] at h
  split at h
  · exact absurd (Prod.mk.inj h).1 (by simp)
  · exact h

/-! ## The devices of a bring-up -/

/-- What a bring-up does to the Go library: nothing, or one call of `wgTurnOn`. -/
theorem native_setStateInternalUp (env : BringUpEnv) (tunnel : Tunnel)
    (config : Option ConfigRef) (s : GoState L) :
    (setStateInternalUp net packageName notify env tunnel config s).2.native = s.native ∨
      ∃ tun settings, (setStateInternalUp net packageName notify env tunnel config s).2.native =
        (Native.wgTurnOn env.native tun settings s.native).2 := by
  cases config with
  | none => exact Or.inl rfl
  | some c =>
    rw [native_eq_wgTurnOnCall]
    cases wgTurnOnCall net packageName env tunnel c s with
    | none => exact Or.inl rfl
    | some call => exact Or.inr ⟨call.1, call.2, rfl⟩

/-- **An entry a bring-up adds** to an empty table has a number not given before. -/
theorem le_device_of_mem_up (env : BringUpEnv) (tunnel : Tunnel) (config : Option ConfigRef)
    {s : GoState L} (htable : s.native.tunnelHandles = []) {entry : ℤ × TunnelHandle}
    (hentry : entry ∈ (setStateInternalUp net packageName notify env tunnel config
      s).2.native.tunnelHandles) : s.native.devices ≤ entry.2.device := by
  rcases native_setStateInternalUp net packageName notify env tunnel config s with
    hsame | ⟨tun, settings, hon⟩
  · rw [hsame, htable] at hentry
    exact absurd hentry (by simp)
  · rw [hon] at hentry
    rcases Native.wgTurnOn_cases env.native tun settings s.native with
      ⟨-, hkeep⟩ | ⟨i, -, -, heq⟩
    · rw [hkeep, htable] at hentry
      exact absurd hentry (by simp)
    · rw [heq, htable] at hentry
      obtain rfl := List.mem_singleton.mp hentry
      exact le_refl _

/-! ## No half state -/

/-- **A failed switch leaves no half state.**  In every state a run of the backend reaches,
if `setState(tunnel, UP, config)` throws: when nothing ran, nothing runs; when `t` ran with
`c`, then `t` runs with `c` again or nothing runs, and the first is the case whenever the
reactivation succeeds.  No device the attempt has created is in the handle table. -/
theorem failed_switch_leaves_no_half_state (l : L) (events : List Event) (env : SetStateEnv)
    (tunnel : Tunnel) (config : Option ConfigRef) (e : Exn) (s' : GoState L)
    (hthrows : setState net packageName notify env tunnel .up config
      (run net packageName notify events { listeners := l }) = (.error e, s')) :
    let s := run net packageName notify events { listeners := l }
    (Clear s → Clear s') ∧
      (∀ t c, RunningWith t c s →
        (RunningWith t c s' ∨ Clear s') ∧
          ((reactivation net packageName notify env tunnel config t c s).1 = .ok () →
            RunningWith t c s')) ∧
      ∀ device, (takenDown notify s).native.devices ≤ device →
        device < (attempt net packageName notify env tunnel config s).2.native.devices →
        ∀ entry ∈ s'.native.tunnelHandles, entry.2.device ≠ device := by
  intro s
  have hinv : Inv s := inv_run net packageName notify events (inv_init l)
  have hswitch : switchTo net packageName notify env tunnel config s = (.error e, s') :=
    switchTo_of_setState_error net packageName notify hthrows
  obtain ⟨hattempt, hend⟩ := switchTo_of_error net packageName notify env tunnel config hinv hswitch
  rcases hend with ⟨hclear, rfl⟩ | ⟨t, c, hrun, hs', hfinal⟩
  · refine ⟨fun _ => hattempt, ?_, ?_⟩
    · intro t c hrun
      exact absurd (hclear.tunnel.symm.trans hrun.tunnel) (by simp)
    · intro device _ _ entry hentry
      rw [hattempt.table] at hentry
      exact absurd hentry (by simp)
  · refine ⟨?_, ?_, ?_⟩
    · intro hclear
      exact absurd (hclear.tunnel.symm.trans hrun.tunnel) (by simp)
    · intro t' c' hrun'
      obtain rfl := Option.some.inj (hrun.tunnel.symm.trans hrun'.tunnel)
      obtain rfl := Option.some.inj (hrun.config.symm.trans hrun'.config)
      refine ⟨hfinal.imp_right fun h => h.1, ?_⟩
      intro hok
      refine hfinal.resolve_right ?_
      rintro ⟨-, e', herror⟩
      exact absurd (hok.symm.trans herror) (by simp)
    · intro device _ hlt entry hentry
      rw [hs'] at hentry
      have hle := le_device_of_mem_up net packageName notify env.rollback t (some c)
        hattempt.table hentry
      omega

/-- The theorem at a switch whose device cannot be brought up: the attempt has created
device `1`, and the former tunnel is back on device `2`. -/
theorem failed_switch_restores_tunnel :
    let t : Tunnel := ⟨0, jstr "aiovpn"⟩
    let s := run noAddresses applicationId ignore [.setState {} t .up (some (bareConfig 1))]
      { listeners := () }
    let env : SetStateEnv := { up := { native := { up := false } } }
    let s' := (setState noAddresses applicationId ignore env t .up (some (bareConfig 2)) s).2
    (Clear s → Clear s') ∧
      (∀ t' c, RunningWith t' c s →
        (RunningWith t' c s' ∨ Clear s') ∧
          ((reactivation noAddresses applicationId ignore env t (some (bareConfig 2)) t' c s).1 =
              .ok () → RunningWith t' c s')) ∧
      ∀ device, (takenDown ignore s).native.devices ≤ device →
        device < (attempt noAddresses applicationId ignore env t (some (bareConfig 2))
          s).2.native.devices →
        ∀ entry ∈ s'.native.tunnelHandles, entry.2.device ≠ device :=
  failed_switch_leaves_no_half_state noAddresses applicationId ignore ()
    [.setState {} ⟨0, jstr "aiovpn"⟩ .up (some (bareConfig 1))]
    { up := { native := { up := false } } } ⟨0, jstr "aiovpn"⟩ (some (bareConfig 2))
    (.backend (.goActivationErrorCode (-1))) _ (Prod.ext (by decide +kernel) rfl)

end GoBackend
end AioVpn
