import AioVpn.Backend.GoBackendSpec

/-!
# The backend as its callers see it

What a caller can observe of `GoBackend` is small: which tunnel runs with which
configuration, and which callbacks were made.  `Effect` is that abstract backend, a
relation with one constructor for each way a call of `setState` can end.

`setState_refines` connects it to the code: from every state that satisfies `Inv`,
the model of `setState` has one of these effects, makes the callbacks it names, and
leads to a state that satisfies `Inv` again.  `onDestroy_refines` says the same of
the destruction of a service instance.

The last two clauses of `Refines` are about the service: its instance is kept by
every call, and `stopSelf` is called once for every tunnel a call takes down.
-/

namespace AioVpn
namespace GoBackend

variable {L : Type}

/-! ## The abstract backend -/

/-- What runs, seen from outside. -/
abbrev Current := Option (Tunnel × ConfigRef)

/-- A callback `onStateChange`. -/
abbrev Call := Tunnel × TunnelState

/-- **One call of `setState`** with a definite target state: the configuration
passed, what ran before, the result, what runs after, and the callbacks made. -/
inductive Effect (t : Tunnel) : TunnelState → Option ConfigRef → Current →
    Except Exn TunnelState → Current → List Call → Prop where
  /-- The tunnel is up with this very configuration. -/
  | already (c : ConfigRef) : Effect t .up (some c) (some (t, c)) (.ok .up) (some (t, c)) []
  | up (c : ConfigRef) : Effect t .up (some c) none (.ok .up) (some (t, c)) [(t, .up)]
  | failed (config : Option ConfigRef) (e : Exn) : Effect t .up config none (.error e) none []
  | switched (c : ConfigRef) (o : Tunnel × ConfigRef) (hne : o ≠ (t, c)) :
      Effect t .up (some c) (some o) (.ok .up) (some (t, c)) [(o.1, .down), (t, .up)]
  /-- The new one does not come up, and the former one is brought back. -/
  | restored (config : Option ConfigRef) (o : Tunnel × ConfigRef) (e : Exn) :
      Effect t .up config (some o) (.error e) (some o) [(o.1, .down), (o.1, .up)]
  /-- Neither comes up. -/
  | lost (config : Option ConfigRef) (o : Tunnel × ConfigRef) (e : Exn) :
      Effect t .up config (some o) (.error e) none [(o.1, .down)]
  | down (config : Option ConfigRef) (c : ConfigRef) :
      Effect t .down config (some (t, c)) (.ok .down) none [(t, .down)]
  /-- A tunnel that does not run is left alone, and so is the one that does. -/
  | ignored (config : Option ConfigRef) (r : Current) (hne : ∀ c, r ≠ some (t, c)) :
      Effect t .down config r (.ok .down) r []

/-- A successful `UP` leaves the tunnel running. -/
theorem Effect.of_up_ok {t : Tunnel} {config : Option ConfigRef} {r r' : Current}
    {x : TunnelState} {calls : List Call} (h : Effect t .up config r (.ok x) r' calls) :
    ∃ c, config = some c ∧ r' = some (t, c) := by
  cases h with
  | already c => exact ⟨c, rfl, rfl⟩
  | up c => exact ⟨c, rfl, rfl⟩
  | switched c o hne => exact ⟨c, rfl, rfl⟩

/-- A failed `UP` leaves nothing running, or what ran before. -/
theorem Effect.of_up_error {t : Tunnel} {config : Option ConfigRef} {r r' : Current} {e : Exn}
    {calls : List Call} (h : Effect t .up config r (.error e) r' calls) :
    r' = none ∨ r' = r := by
  cases h with
  | failed config e => exact Or.inl rfl
  | restored config o e => exact Or.inr rfl
  | lost config o e => exact Or.inl rfl

/-- A `DOWN` never fails.  It leaves nothing running if the tunnel ran, and what runs
otherwise. -/
theorem Effect.of_down {t : Tunnel} {config : Option ConfigRef} {r r' : Current}
    {result : Except Exn TunnelState} {calls : List Call}
    (h : Effect t .down config r result r' calls) :
    result = .ok .down ∧
      ((∃ c, r = some (t, c)) ∧ r' = none ∨ (∀ c, r ≠ some (t, c)) ∧ r' = r) := by
  cases h with
  | down config c => exact ⟨rfl, Or.inl ⟨⟨c, rfl⟩, rfl⟩⟩
  | ignored config r hne => exact ⟨rfl, Or.inr ⟨hne, rfl⟩⟩

/-- The effect of a list of callbacks on the listener state. -/
def announce (notify : Tunnel → TunnelState → L → L) (calls : List Call) (l : L) : L :=
  calls.foldl (fun l call => notify call.1 call.2 l) l

/-- The state `setState` is asked for, with `TOGGLE` resolved. -/
def requested (tunnel : Tunnel) (state : TunnelState) (s : GoState L) : TunnelState :=
  if state = .toggle then (if getState tunnel s = .up then .down else .up) else state

/-- A tunnel that runs is served by the current instance, which the backend owns. -/
def Served (s : GoState L) : Prop :=
  running s ≠ none → ∃ service, s.vpnService = some service ∧ service ∈ s.owned

/-- What is kept and what is added from `s` to `s'` by a call that makes the
callbacks `calls`. -/
structure Refines (notify : Tunnel → TunnelState → L → L) (calls : List Call)
    (s s' : GoState L) : Prop where
  inv : Inv s'
  listeners : s'.listeners = announce notify calls s.listeners
  /-- The instance of a completed future stays. -/
  service : ∀ service, s.vpnService = some service → s'.vpnService = some service
  /-- `stopSelf` goes with every `DOWN`. -/
  stopping : s'.stopping =
    (calls.filter fun call => call.2 = .down).flatMap (fun _ => s.vpnService.toList) ++ s.stopping
  served : Served s → Served s'

/-! ## One bring-up and one take-down -/

theorem refines_refl (notify : Tunnel → TunnelState → L → L) {s : GoState L} (h : Inv s) :
    Refines notify [] s s where
  inv := h
  listeners := rfl
  service := fun _ h => h
  stopping := rfl
  served := fun h => h

/-- Taking down and bringing up one after the other. -/
theorem Refines.trans_up {notify : Tunnel → TunnelState → L → L} {t t' : Tunnel}
    {s₁ s₂ s₃ : GoState L} (h : Refines notify [(t, .down)] s₁ s₂)
    (h' : Refines notify [(t', .up)] s₂ s₃) : Refines notify [(t, .down), (t', .up)] s₁ s₃ where
  inv := h'.inv
  listeners := by rw [h'.listeners, h.listeners]; rfl
  service := fun v hv => h'.service v (h.service v hv)
  stopping := by rw [h'.stopping, h.stopping]; simp
  served := fun hs => h'.served (h.served hs)

/-- Steps without a callback before a bring-up. -/
theorem Refines.trans_nil {notify : Tunnel → TunnelState → L → L} {calls : List Call}
    {s₁ s₂ s₃ : GoState L} (h : Refines notify calls s₁ s₂) (h' : Refines notify [] s₂ s₃) :
    Refines notify calls s₁ s₃ where
  inv := h'.inv
  listeners := by rw [h'.listeners, h.listeners]; rfl
  service := fun v hv => h'.service v (h.service v hv)
  stopping := by rw [h'.stopping, h.stopping]; rfl
  served := fun hs => h'.served (h.served hs)

section Calls

variable (net : NetApi) (packageName : JString) (notify : Tunnel → TunnelState → L → L)

/-- **A bring-up with nothing running** fails and changes nothing a caller can see,
or brings the tunnel up. -/
theorem up_refines (env : BringUpEnv) (tunnel : Tunnel) (config : Option ConfigRef)
    {s : GoState L} (hinv : Inv s) (hclear : Clear s) :
    (∃ e s', setStateInternalUp net packageName notify env tunnel config s = (.error e, s') ∧
        Clear s' ∧ Refines notify [] s s') ∨
    ∃ c s', setStateInternalUp net packageName notify env tunnel config s = (.ok (), s') ∧
        config = some c ∧ RunningWith tunnel c s' ∧ Refines notify [(tunnel, .up)] s s' := by
  have hspec := setStateInternalUp_spec net packageName notify env tunnel hclear.handle
    hclear.table config
  generalize setStateInternalUp net packageName notify env tunnel config s = x at hspec ⊢
  cases hspec with
  | @failed e v k o ep n hkeep hsound htable =>
    have hclear' : Clear { refit s v k o ep with currentTunnelHandle := -1, native := n } :=
      ⟨hclear.config, hclear.tunnel, rfl, htable⟩
    refine Or.inl ⟨e, _, rfl, hclear', ?_⟩
    exact
      { inv := ⟨Or.inl hclear', hsound hinv.native, hinv.warnings⟩
        listeners := rfl
        service := hkeep
        stopping := rfl
        served := fun _ hrun => absurd hclear'.running hrun }
  | @up c service k o ep n i entry hc hkeep hown hsound hi htable _ =>
    have hrun : RunningWith tunnel c { refit s (some service) k o ep with
        currentTunnelHandle := i
        native := n
        currentTunnel := some tunnel
        currentConfig := some c
        listeners := notify tunnel .up s.listeners } := ⟨rfl, rfl, hi, entry, htable⟩
    refine Or.inr ⟨c, _, rfl, hc, hrun, ?_⟩
    exact
      { inv := ⟨Or.inr ⟨tunnel, c, hrun⟩, hsound hinv.native, hinv.warnings⟩
        listeners := rfl
        service := fun w hw => congrArg some (hkeep w hw)
        stopping := rfl
        served := fun _ _ => ⟨service, rfl, hown⟩ }

/-- **Taking a running tunnel down.** -/
theorem down_refines {s : GoState L} (hinv : Inv s) {t : Tunnel} {c : ConfigRef}
    (hrun : RunningWith t c s) :
    Clear (setStateInternalDown notify t s) ∧
      Refines notify [(t, .down)] s (setStateInternalDown notify t s) := by
  obtain ⟨n, heq, htable, hsound⟩ := setStateInternalDown_spec notify t hrun
  rw [heq]
  have hclear : Clear { s with
      currentTunnel := none
      currentTunnelHandle := -1
      currentConfig := none
      native := n
      stopping := s.vpnService.toList ++ s.stopping
      listeners := notify t .down s.listeners } := ⟨rfl, rfl, rfl, htable⟩
  refine ⟨hclear, ?_⟩
  exact
    { inv := ⟨Or.inl hclear, hsound hinv.native, hinv.warnings⟩
      listeners := rfl
      service := fun _ h => h
      stopping := by simp
      served := fun _ h => absurd hclear.running h }

/-! ## `setState` -/

theorem getState_of_running {s : GoState L} {t : Tunnel} {c : ConfigRef}
    (h : RunningWith t c s) : getState t s = .up := by
  rw [getState, if_pos h.tunnel]

/-- The `UP` case: nothing ran. -/
theorem switchTo_of_clear (env : SetStateEnv) (tunnel : Tunnel) (config : Option ConfigRef)
    {s : GoState L} (hinv : Inv s) (hclear : Clear s) :
    ∃ r s' calls, switchTo net packageName notify env tunnel config s = (r, s') ∧
      Effect tunnel .up config (running s) r (running s') calls ∧ Refines notify calls s s' := by
  unfold switchTo
  rw [hclear.running, hclear.tunnel]
  dsimp only
  rcases up_refines net packageName notify env.up tunnel config hinv hclear with
    ⟨e, s', heq, hclear', href⟩ | ⟨c, s', heq, rfl, hrun, href⟩
  · rw [heq]
    refine ⟨.error e, s', [], rfl, ?_, href⟩
    rw [hclear'.running]
    exact Effect.failed config e
  · rw [heq]
    refine ⟨.ok .up, s', [(tunnel, .up)], ?_, ?_, href⟩
    · dsimp only
      rw [getState_of_running hrun]
    · rw [hrun.running]
      exact Effect.up c

/-- The `UP` case: another tunnel, or another configuration, ran. -/
theorem switchTo_of_running (env : SetStateEnv) (tunnel : Tunnel) (config : Option ConfigRef)
    {s : GoState L} (hinv : Inv s) {t : Tunnel} {c : ConfigRef} (hrun : RunningWith t c s)
    (hne : t = tunnel → some c ≠ config) :
    ∃ r s' calls, switchTo net packageName notify env tunnel config s = (r, s') ∧
      Effect tunnel .up config (running s) r (running s') calls ∧ Refines notify calls s s' := by
  obtain ⟨hclear, hdown⟩ := down_refines notify hinv hrun
  unfold switchTo
  rw [hrun.running, hrun.tunnel, hrun.config]
  dsimp only
  rcases up_refines net packageName notify env.up tunnel config hdown.inv hclear with
    ⟨e, s₁, heq, hclear₁, hfail⟩ | ⟨c', s₁, heq, rfl, hrun₁, hup⟩
  · rw [heq]
    dsimp only
    -- the roll-back starts where the failed bring-up stopped
    rcases up_refines net packageName notify env.rollback t (some c) hfail.inv hclear₁ with
      ⟨e', s₂, heq₂, hclear₂, hfail₂⟩ | ⟨c', s₂, heq₂, hc, hrun₂, hup₂⟩
    · rw [heq₂]
      refine ⟨.error e', s₂, [(t, .down)], rfl, ?_, (hdown.trans_nil hfail).trans_nil hfail₂⟩
      rw [hclear₂.running]
      exact Effect.lost config (t, c) e'
    · obtain rfl := Option.some.inj hc
      rw [heq₂]
      refine ⟨.error e, s₂, [(t, .down), (t, .up)], rfl, ?_,
        (hdown.trans_nil hfail).trans_up hup₂⟩
      rw [hrun₂.running]
      exact Effect.restored config (t, c) e
  · rw [heq]
    refine ⟨.ok .up, s₁, [(t, .down), (tunnel, .up)], ?_, ?_, hdown.trans_up hup⟩
    · dsimp only
      rw [getState_of_running hrun₁]
    · rw [hrun₁.running]
      refine Effect.switched c' (t, c) ?_
      intro heq'
      obtain ⟨rfl, rfl⟩ := Prod.mk.inj heq'
      exact hne rfl rfl

/-- `TOGGLE` is resolved before anything else. -/
theorem requested_cases (tunnel : Tunnel) (state : TunnelState) (s : GoState L) :
    requested tunnel state s = .up ∨ requested tunnel state s = .down := by
  unfold requested
  cases state with
  | down => exact Or.inr rfl
  | up => exact Or.inl rfl
  | toggle =>
    rw [if_pos rfl]
    split
    · exact Or.inr rfl
    · exact Or.inl rfl

/-- A call that asks for `UP`: it returns early when this very tunnel runs with this very
configuration. -/
theorem setState_up_refines (env : SetStateEnv) (tunnel : Tunnel) (config : Option ConfigRef)
    {s : GoState L} (hinv : Inv s) :
    ∃ r s' calls, setState net packageName notify env tunnel .up config s = (r, s') ∧
      Effect tunnel .up config (running s) r (running s') calls ∧ Refines notify calls s s' := by
  have hdef : setState net packageName notify env tunnel .up config s =
      if .up = getState tunnel s ∧ some tunnel = s.currentTunnel ∧ config = s.currentConfig then
        (.ok (getState tunnel s), s)
      else switchTo net packageName notify env tunnel config s := rfl
  rw [hdef]
  rcases hinv.fields with hclear | ⟨t, c, hrun⟩
  · rw [if_neg (by simp [hclear.tunnel])]
    exact switchTo_of_clear net packageName notify env tunnel config hinv hclear
  · by_cases hsame : t = tunnel ∧ some c = config
    · obtain ⟨rfl, rfl⟩ := hsame
      rw [if_pos ⟨(getState_of_running hrun).symm, hrun.tunnel.symm, hrun.config.symm⟩]
      refine ⟨.ok .up, s, [], by rw [getState_of_running hrun], ?_, refines_refl notify hinv⟩
      rw [hrun.running]
      exact Effect.already c
    · rw [if_neg (by
        rw [hrun.tunnel, hrun.config]
        exact fun h => hsame ⟨(Option.some.inj h.2.1).symm, h.2.2.symm⟩)]
      exact switchTo_of_running net packageName notify env tunnel config hinv hrun
        fun ht hc => hsame ⟨ht, hc⟩

/-- A call that asks for `DOWN`: it is ignored unless the tunnel is the current one. -/
theorem setState_down_refines (env : SetStateEnv) (tunnel : Tunnel) (config : Option ConfigRef)
    {s : GoState L} (hinv : Inv s) :
    ∃ r s' calls, setState net packageName notify env tunnel .down config s = (r, s') ∧
      Effect tunnel .down config (running s) r (running s') calls ∧ Refines notify calls s s' := by
  have hdef : setState net packageName notify env tunnel .down config s =
      if .down = getState tunnel s ∧ some tunnel = s.currentTunnel ∧ config = s.currentConfig then
        (.ok (getState tunnel s), s)
      else if .down = TunnelState.down ∧ some tunnel = s.currentTunnel then
        (.ok (getState tunnel (setStateInternalDown notify tunnel s)),
          setStateInternalDown notify tunnel s)
      else (.ok (getState tunnel s), s) := rfl
  rw [hdef]
  by_cases hmine : s.currentTunnel = some tunnel
  · have hstate : getState tunnel s = .up := by rw [getState, if_pos hmine]
    rw [if_neg (by simp [hstate]), if_pos ⟨rfl, hmine.symm⟩]
    rcases hinv.fields with hclear | ⟨t, c, hrun⟩
    · exact absurd hmine (by simp [hclear.tunnel])
    · obtain rfl := Option.some.inj (hrun.tunnel.symm.trans hmine)
      obtain ⟨hclear, href⟩ := down_refines notify hinv hrun
      refine ⟨.ok .down, _, [(t, .down)], ?_, ?_, href⟩
      · rw [getState, if_neg (by simp [hclear.tunnel])]
      · rw [hrun.running, hclear.running]
        exact Effect.down config c
  · have hstate : getState tunnel s = .down := by rw [getState, if_neg hmine]
    rw [if_neg (fun h => hmine h.2.1.symm), if_neg (fun h => hmine h.2.symm), hstate]
    refine ⟨.ok .down, s, [], rfl, Effect.ignored config _ ?_, refines_refl notify hinv⟩
    intro c hc
    exact hmine (hinv.runningWith hc).tunnel

/-- **The model of `setState` refines the abstract backend.** -/
theorem setState_refines (env : SetStateEnv) (tunnel : Tunnel) (state : TunnelState)
    (config : Option ConfigRef) {s : GoState L} (hinv : Inv s) :
    ∃ r s' calls, setState net packageName notify env tunnel state config s = (r, s') ∧
      Effect tunnel (requested tunnel state s) config (running s) r (running s') calls ∧
      Refines notify calls s s' := by
  have hresolved : ∀ r, r ≠ TunnelState.toggle → requested tunnel state s = r →
      setState net packageName notify env tunnel state config s =
        setState net packageName notify env tunnel r config s := by
    intro r hr hreq
    have hself : requested tunnel r s = r := by rw [requested, if_neg hr]
    unfold requested at hreq hself
    simp only [setState, hreq, hself]
  rcases requested_cases tunnel state s with hup | hdown
  · rw [hresolved .up (by simp) hup, hup]
    exact setState_up_refines net packageName notify env tunnel config hinv
  · rw [hresolved .down (by simp) hdown, hdown]
    exact setState_down_refines net packageName notify env tunnel config hinv

/-! ## The service -/

/-- **`onDestroy`** takes down what runs if the instance has the backend as its
owner, and touches nothing a caller can see otherwise. -/
theorem onDestroy_refines (service : ℕ) {s : GoState L} (hinv : Inv s) :
    Inv (onDestroy notify service s) ∧
      ((running (onDestroy notify service s) = running s ∧
          (onDestroy notify service s).listeners = s.listeners ∧
          (service ∈ s.owned → running s = none)) ∨
        ∃ t c, running s = some (t, c) ∧ running (onDestroy notify service s) = none ∧
          (onDestroy notify service s).listeners = notify t .down s.listeners ∧
          service ∈ s.owned) := by
  unfold onDestroy
  dsimp only
  by_cases hown : service ∈ s.owned
  · rw [if_pos hown]
    unfold destroyOwned
    rcases hinv.fields with hclear | ⟨t, c, hrun⟩
    · rw [hclear.tunnel]
      have hclear' : Clear { s with
          vpnService := none, stopping := s.stopping.filter (· ≠ service) } :=
        ⟨hclear.config, hclear.tunnel, hclear.handle, hclear.table⟩
      refine ⟨⟨Or.inl hclear', hinv.native, hinv.warnings⟩, Or.inl ⟨?_, rfl, ?_⟩⟩
      · rw [hclear'.running, hclear.running]
      · exact fun _ => hclear.running
    · have hne : s.currentTunnelHandle ≠ -1 := by
        have := hrun.handle
        omega
      obtain ⟨entry, htable⟩ := hrun.table
      rw [hrun.tunnel]
      dsimp only
      rw [if_pos hne]
      have hclear' : Clear { s with
          native := Native.wgTurnOff s.currentTunnelHandle s.native
          currentTunnel := none
          currentTunnelHandle := -1
          currentConfig := none
          listeners := notify t .down s.listeners
          vpnService := none
          stopping := s.stopping.filter (· ≠ service) } :=
        ⟨rfl, rfl, rfl, by rw [Native.wgTurnOff_singleton htable]⟩
      refine ⟨⟨Or.inl hclear', hinv.native.wgTurnOff_singleton htable, hinv.warnings⟩,
        Or.inr ⟨t, c, hrun.running, hclear'.running, rfl, hown⟩⟩
  · rw [if_neg hown]
    refine ⟨⟨?_, hinv.native, hinv.warnings⟩, Or.inl ⟨rfl, rfl, fun h => absurd h hown⟩⟩
    rcases hinv.fields with hclear | ⟨t, c, hrun⟩
    · exact Or.inl ⟨hclear.config, hclear.tunnel, hclear.handle, hclear.table⟩
    · exact Or.inr ⟨t, c, hrun.config, hrun.tunnel, hrun.handle, hrun.table⟩

/-- **`onCreate`** changes nothing a caller can see. -/
theorem onCreate_refines {s : GoState L} (hinv : Inv s) :
    Inv (onCreate s) ∧ running (onCreate s) = running s ∧
      (onCreate s).listeners = s.listeners := by
  unfold onCreate
  cases s.vpnService with
  | some service => exact ⟨⟨hinv.fields.imp (fun h => ⟨h.1, h.2, h.3, h.4⟩)
      (fun ⟨t, c, h⟩ => ⟨t, c, h.1, h.2, h.3, h.4⟩), hinv.native, hinv.warnings⟩, rfl, rfl⟩
  | none => exact ⟨⟨hinv.fields.imp (fun h => ⟨h.1, h.2, h.3, h.4⟩)
      (fun ⟨t, c, h⟩ => ⟨t, c, h.1, h.2, h.3, h.4⟩), hinv.native, hinv.warnings⟩, rfl, rfl⟩

end Calls

end GoBackend
end AioVpn
