import AioVpn.App.ConnectedFlag
import AioVpn.Home.AttemptSpec

/-!
# Disconnected means down

Operations run one after the other, each to its end, with permission granted and any
outcome of every fetch, bring-up and validation.  When an operation ends with
`DISCONNECTED` on the screen, is the tunnel down?

Both ways of connecting take the tunnel down when an attempt on a server fails.  Smart
Auto has failures before its first attempt, though: no token, no server list, an empty
one, no server that answers.  Those go to the outer `catch`, which shows `DISCONNECTED`
and disconnects nothing.  If another server was connected, its tunnel keeps running
(`tunnel_runs_behind_disconnected`).  In every run in which Smart Auto, started with a
tunnel running, does find candidates, disconnected means down
(`disconnected_means_down`).
-/

namespace AioVpn
namespace HomeActivity

open Coroutine

variable (net : NetApi) (packageName : JString)

/-! ## The runs considered -/

/-- Permission is granted. -/
def permissionGranted : HomeOp → HomeEnv → Bool
  | .wg .prepare, env => !env.wg.prepareIntent
  | _, _ => true

/-- Permission is granted, and while a tunnel runs Smart Auto finds its candidates:
the server list is there and not empty, and so is the ranking. -/
def candidatesFound : HomeOp → HomeEnv → HomeState → Bool
  | .servers, env, s =>
      s.wg.go.currentTunnel.isNone ||
        match repoServers env with
        | .ok servers => !servers.isEmpty
        | .error _ => false
  | .cachedRankings, env, s =>
      s.wg.go.currentTunnel.isNone ||
        match s.rankingCache.cached env.now with
        | some ranked => !ranked.isEmpty
        | none => true
  | .rankServers servers, env, s =>
      s.wg.go.currentTunnel.isNone ||
        !(SmartRoutingService.rankServers env.latency servers).isEmpty
  | o, env, _ => permissionGranted o env

/-- All jobs have finished. -/
def Finished (c : HomeConf) : Prop := ∀ t ∈ c.threads, t.body.running = false

instance (c : HomeConf) : Decidable (Finished c) :=
  inferInstanceAs (Decidable (∀ t ∈ c.threads, t.body.running = false))

/-- One operation after the other, with permission granted. -/
def sequential (c : HomeConf) : Act Event HomeEnv → Bool
  | .event e => e.isClick && decide (Finished c)
  | .step i env =>
      match c.threads[i]? with
      | some ⟨_, .op o _⟩ => permissionGranted o env
      | _ => true

/-- And Smart Auto finds its candidates while a tunnel runs. -/
def sequentialFinding (c : HomeConf) : Act Event HomeEnv → Bool
  | .event e => sequential c (.event e)
  | .step i env =>
      match c.threads[i]? with
      | some ⟨_, .op o _⟩ => candidatesFound o env c.shared
      | _ => true

/-- The jobs run alone, in the environments considered. -/
abbrev finding : Contract HomeOp HomeOp.Res HomeEnv HomeState :=
  Contract.alone (perform net packageName) (fun o env s => candidatesFound o env s = true)
    fun _ => True

theorem serves_finding : Serves net packageName (finding net packageName) where
  perform_eq := rfl
  rely := by
    rintro s _ rfl
    exact Same.refl s
  granted := by
    intro env s h
    have hfound : candidatesFound (.wg .prepare) env s = true := h
    simpa [candidatesFound, permissionGranted] using hfound
  assert := fun _ _ _ => trivial

/-! ## The candidates of Smart Auto -/

section Candidates

variable {net packageName} {s : HomeState}

/-- With a tunnel running, the ranking is not empty. -/
theorem wp_getOrBuildRankings_found (servers : List WgServerDto)
    (hup : s.wg.go.currentTunnel.isNone = false) :
    (finding net packageName).wp (fun ranked s' => Same s s' ∧ ranked ≠ []) (fun _ _ => False)
      (getOrBuildRankings servers) s := by
  simp only [getOrBuildRankings, step, Prog.perform, Prog.bind_def, Prog.op_bind, Prog.pure_bind,
    Contract.wp_alone_op, perform]
  intro env henv
  cases hcached : s.rankingCache.cached env.now with
  | some ranked =>
    simp only [candidatesFound, hup, Bool.false_or, hcached] at henv
    exact ⟨Same.refl s, by simpa using henv⟩
  | none =>
    simp only [Contract.wp_alone_op, perform]
    intro env₁ henv₁ _ _
    simp only [candidatesFound, hup, Bool.false_or] at henv₁
    exact ⟨⟨rfl, rfl⟩, by simpa using henv₁⟩

/-- **With a tunnel running, Smart Auto finds candidates.** -/
theorem wp_smartCandidates_found (forceFresh : Bool)
    (hup : s.wg.go.currentTunnel.isNone = false) :
    (finding net packageName).wp (fun candidates s' => Same s s' ∧ candidates ≠ [])
      (fun _ _ => False) (smartCandidates forceFresh) s := by
  simp only [smartCandidates, step, Prog.perform, Prog.bind_def, Prog.op_bind, Prog.pure_bind,
    Contract.wp_alone_op, perform]
  intro env henv
  simp only [candidatesFound, hup, Bool.false_or] at henv
  cases hservers : repoServers env with
  | error e => simp [hservers] at henv
  | ok servers =>
    rw [hservers] at henv
    have hne : ¬ servers.isEmpty = true := by simpa using henv
    simp only [Prog.ofExcept, Prog.pure_bind, if_neg hne]
    refine Contract.wp_seq (wp_getOrBuildRankings_found servers hup) (fun _ _ h => h) ?_
    rintro ranked s₁ ⟨hsame, hranked⟩
    have hne' : ¬ ranked.isEmpty = true := by simpa using hranked
    rw [if_neg hne', orderedCandidates]
    cases forceFresh with
    | true => exact ⟨hsame, freshCandidates_ne_nil hranked⟩
    | false =>
      simp only [Bool.false_eq_true, if_false, step, Prog.perform, Prog.bind_def, Prog.op_bind,
        Prog.pure_bind, Prog.pure_def, Contract.wp_alone_op, Contract.wp_pure]
      intro _ _
      exact ⟨hsame, usualCandidates_ne_nil servers _ hranked⟩

/-- There are candidates, or nothing runs; and a failure leaves nothing running because
nothing ran. -/
theorem wp_smartCandidates_down (forceFresh : Bool) (hs : LinkedHome s) :
    (finding net packageName).wp
      (fun candidates s' => LinkedHome s' ∧ (candidates = [] → LinkedHome s' ∧ Down s'))
      (fun _ s' => LinkedHome s' ∧ Down s') (smartCandidates forceFresh) s := by
  cases hup : s.wg.go.currentTunnel.isNone with
  | true =>
    have hdown : Down s := by
      rw [Down, GoBackend.running, Option.isNone_iff_eq_none.mp hup]
    exact wp_smartCandidates (serves_finding net packageName) forceFresh hs
      fun _ h => ⟨hs.of_same h, hdown.of_same h⟩
  | false =>
    refine Contract.wp_mono ?_ (fun _ _ h => h.elim) (wp_smartCandidates_found forceFresh hup)
    rintro candidates s' ⟨hsame, hne⟩
    exact ⟨hs.of_same hsame, fun h => absurd h hne⟩

end Candidates

/-! ## The jobs -/

/-- **Between operations**: the field of the backend holds what runs, and nothing runs
while the screen shows `DISCONNECTED`. -/
structure Honest (s : HomeState) : Prop where
  linked : LinkedHome s
  down : s.currentVpnState = .disconnected → Down s

theorem Honest.of_connected {s : HomeState} (hs : LinkedHome s) (h : ShowsConnected s) :
    Honest s :=
  ⟨hs, fun hd => absurd (h.symm.trans hd) (by simp)⟩

theorem Honest.of_down {s : HomeState} (hs : LinkedHome s) (h : Down s) : Honest s :=
  ⟨hs, fun _ => h⟩

/-- `selectSmartAutoAndConnect` leaves the backend alone; unless it launches Smart Auto
it leaves the state of the screen alone, too. -/
theorem wp_select_honest {s : HomeState} (hs : Honest s) :
    (finding net packageName).wp
      (fun j s' => (j = some (.connectSmartAuto true) ∧ LinkedHome s') ∨ (j = none ∧ Honest s'))
      (fun _ => Honest) selectSmartAutoAndConnect s := by
  have hclear : (finding net packageName).wp (fun _ => Honest) (fun _ => Honest)
      (step .clearLastServer) s := by
    simp only [step, Prog.perform, Contract.wp_alone_op, Contract.wp_pure]
    intro env _
    rw [perform]
    split <;> exact ⟨hs.linked, hs.down⟩
  refine Contract.wp_seq hclear (fun _ _ h => h) fun r s₁ h₁ => ?_
  cases r with
  | error e => exact h₁
  | ok u =>
    simp only [Prog.ofExcept, step, Prog.perform, Prog.bind_def, Prog.op_bind, Prog.pure_bind,
      Contract.wp_alone_op, perform, startSmartAuto]
    intro _ _
    split
    · exact Or.inr ⟨rfl, h₁⟩
    · exact Or.inl ⟨rfl, h₁.linked⟩

/-! ## Runs -/

/-- The jobs, one at a time. -/
def honestTracking : Tracking HomeOp HomeOp.Res HomeExn HomeEnv HomeState Job where
  contract := finding net packageName
  tracked := fun _ => True
  light := fun _ _ => False
  inv := Honest
  pre
    | .selectSmartAutoAndConnect, s => Honest s
    | .updateUiFromBackendState, _ => False
    | .onActivityResult, _ => False
    | _, s => LinkedHome s

variable {net packageName} in
theorem settled_of_honest {s : HomeState} (hs : Honest s) :
    (honestTracking net packageName).Settled none s :=
  ⟨by simp, fun _ => hs⟩

/-- **Every job keeps the screen honest.** -/
theorem wp_bodyOf_honest (job : Job) {s : HomeState}
    (hpre : (honestTracking net packageName).pre job s) :
    (finding net packageName).wp (honestTracking net packageName).Settled (fun _ => Honest)
      (bodyOf job) s := by
  have hD := serves_finding net packageName
  cases job with
  | connectSmartAuto forceFresh =>
    refine Contract.wp_seq (wp_smartAuto hD (R := fun s' => LinkedHome s' ∧ Down s')
      (fun _ h hdown => ⟨h, hdown⟩) (fun _ _ h hsame => ⟨h.1.of_same hsame, h.2.of_same hsame⟩)
      (fun _ => Honest.of_connected) (fun _ h => Honest.of_down h.1 h.2) forceFresh
      (wp_smartCandidates_down forceFresh hpre)) (fun _ _ h => h) ?_
    exact fun _ _ h => settled_of_honest h
  | connectToSpecificServer serverId label previousServerId previousServerLabel =>
    refine Contract.wp_seq (wp_specific_down hD (fun _ => Honest.of_connected)
      (fun _ => Honest.of_down) serverId label previousServerId previousServerLabel hpre)
      (fun _ _ h => h) ?_
    exact fun _ _ h => settled_of_honest h
  | disconnectCurrentTunnel =>
    refine Contract.wp_mono ?_ (fun _ _ h => h.elim) (wp_disconnectCurrentTunnel_down hD hpre)
    rintro _ s' ⟨rfl, h, hdown⟩
    exact settled_of_honest (.of_down h hdown)
  | selectSmartAutoAndConnect =>
    refine Contract.wp_mono ?_ (fun _ _ h => h) (wp_select_honest net packageName hpre)
    rintro _ s' (⟨rfl, h⟩ | ⟨rfl, h⟩)
    · refine ⟨?_, fun hno => absurd trivial (hno _ rfl)⟩
      rintro _ ⟨⟩ -
      exact h
    · exact settled_of_honest h
  | updateUiFromBackendState => exact hpre.elim
  | onActivityResult => exact hpre.elim

/-- An operation may start wherever the screen is honest. -/
theorem pre_of_operation {job : Job} (hjob : job.isOperation = true) {s : HomeState}
    (hs : LinkedHome s) : (honestTracking net packageName).pre job s := by
  cases job with
  | selectSmartAutoAndConnect => exact absurd hjob (by simp [Job.isOperation])
  | updateUiFromBackendState => exact absurd hjob (by simp [Job.isOperation])
  | onActivityResult => exact absurd hjob (by simp [Job.isOperation])
  | _ => exact hs

theorem honestTracking_sound : (honestTracking net packageName).Sound (system net packageName)
    (fun c a => sequentialFinding c a = true) where
  perform_eq := rfl
  running := by
    intro job _
    cases job <;> rfl
  light := fun _ h => absurd trivial h
  body := fun job s _ hpre => wp_bodyOf_honest net packageName job hpre
  event := by
    intro c e s' j _ hok hhandle
    obtain ⟨hclick, hdone⟩ := Bool.and_eq_true_iff.mp hok
    have hidle : (honestTracking net packageName).Idle c :=
      fun t ht _ => of_decide_eq_true hdone t ht
    cases handled hhandle with
    | ignored => exact ⟨by simp, fun _ => ⟨fun h => h, Or.inl hidle⟩⟩
    | operation _ _ job _ _ _ hsame hjob =>
      refine ⟨?_, fun hno => absurd trivial (hno job rfl)⟩
      rintro _ ⟨⟩ -
      exact ⟨hidle, fun hs => pre_of_operation net packageName hjob (hs.linked.of_same hsame)⟩
    | select _ _ hstate hsame =>
      refine ⟨?_, fun hno => absurd trivial (hno _ rfl)⟩
      rintro _ ⟨⟩ -
      refine ⟨hidle, fun hs => ⟨hs.linked.of_same hsame, fun hd => ?_⟩⟩
      exact (hs.down (hstate.symm.trans hd)).of_same hsame
    | resume => exact absurd hclick (by simp [Event.isClick])
    | granted => exact absurd hclick (by simp [Event.isClick])
    | refused => exact absurd hclick (by simp [Event.isClick])
  step := fun _ _ _ _ _ _ _ _ _ h => absurd trivial h
  assume := by
    intro c i env j o k _ hok hi _
    show candidatesFound o env c.shared = true
    simpa [sequentialFinding, hi] using hok

theorem linked_of_fresh {s : HomeState} (hfresh : s.wg.go = { listeners := false }) :
    LinkedHome s ∧ Down s := by
  have hdown : Down s := by
    rw [Down, hfresh]
    rfl
  refine ⟨⟨?_, ?_⟩, hdown⟩
  · rw [hfresh]
    exact GoBackend.inv_init false
  · intro t c h
    exact absurd (hdown.symm.trans h) (by simp)

/-- **Disconnected means down.**  Operations started one after the other, each when
everything before it has finished, with permission granted, from any screen whose
backend has not been used: in every run in which Smart Auto finds candidates whenever it
looks for them with a tunnel running, whenever everything has finished and the screen
shows `DISCONNECTED`, no tunnel runs. -/
theorem disconnected_means_down (s₀ : HomeState) (hfresh : s₀.wg.go = { listeners := false })
    (d : HomeConf)
    (hrun : (system net packageName).Run (fun c a => sequentialFinding c a = true) ⟨s₀, []⟩ d)
    (hdone : Finished d) (hscreen : d.shared.currentVpnState = .disconnected) :
    d.shared.wg.go.currentTunnel = none := by
  obtain ⟨hlinked, hdown⟩ := linked_of_fresh hfresh
  have hstart : (honestTracking net packageName).Inv (⟨s₀, []⟩ : HomeConf) :=
    ⟨by simp, Or.inl ⟨by simp [Tracking.Idle], .of_down hlinked hdown⟩⟩
  rcases ((honestTracking_sound net packageName).run hrun hstart).2 with ⟨-, hs⟩ | ⟨t, ht⟩
  · have hhonest : Honest d.shared := hs
    rw [hhonest.linked.inv.currentTunnel_eq, hhonest.down hscreen]
    rfl
  · exact absurd (fun t ht _ => hdone t ht) ht.not_idle

/-- Carry out `n` steps of the job with number `i`. -/
def runJob (i n : ℕ) (env : HomeEnv) : List (Act Event HomeEnv) := List.replicate n (.step i env)

/-- The server sends the smallest configuration, and it works. -/
def answering : HomeEnv :=
  { token := some (jstr "t"), wgConfig := some WireGuardBackend.bareText, working := true }

/-- The theorem for a server card, then the connect button, which disconnects. -/
theorem down_after_disconnect :
    let d := ((system GoBackend.noAddresses GoBackend.applicationId).exec sequentialFinding start
      (.event (.serverCard 1 (jstr "A")) :: runJob 0 16 answering ++
        .event .connectButton :: runJob 1 5 answering)).get (by decide +kernel)
    d.shared.wg.go.currentTunnel = none :=
  disconnected_means_down _ _ {} rfl _
    (System.Run.of_exec (fun _ _ h => h) .refl (Option.some_get _).symm) (by decide +kernel)
    (by decide +kernel)

/-- **A tunnel runs behind `DISCONNECTED`.**  A server is connected; the Smart Auto
card is tapped and the token is gone.  Everything has finished, the screen shows
`DISCONNECTED`, and the tunnel runs. -/
theorem tunnel_runs_behind_disconnected :
    ((system GoBackend.noAddresses GoBackend.applicationId).exec sequential start
      (.event (.serverCard 1 (jstr "A")) :: runJob 0 16 answering ++
        .event .smartAutoCard :: runJob 1 2 {} ++ runJob 2 2 {})).map
      (fun d => (decide (Finished d), d.shared.currentVpnState,
        d.shared.wg.go.currentTunnel.isSome)) = some (true, .disconnected, true) := by
  decide +kernel

end HomeActivity
end AioVpn
