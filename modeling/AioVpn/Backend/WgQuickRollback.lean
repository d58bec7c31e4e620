import AioVpn.Backend.WgQuickRuns

/-!
# The handlers of `WgQuickBackend`

A call of `setState` that brings a tunnel up takes others down first, and when it fails its
handlers bring them up again.  The handlers ignore what goes wrong in them, so that the exception
of the call does not say whether everything is as it was.

`failed_switch_restores` says that it is, when the commands of the handlers succeed and no command
that failed has changed the interfaces.  The map and the interfaces agree at that time, as after
every run of calls in which each tunnel has a name of its own.

## What is missing

`attempt` is the call up to the exception, together with the entries that the handler is to bring
up.  There are three handlers, and what they have in common is `Without`: when the exception is
thrown, exactly those entries are missing in the map, and exactly their interfaces are missing
(`without_of_attempt`).  Bringing up an entry takes it off that list (`Without.up`).
-/

namespace AioVpn
namespace WgQuickBackend

variable {L : Type} (net : NetApi) (notify : NamedTunnel → TunnelState → L → L) (env : WgQuickEnv)

/-! ## The exception and the handlers -/

section Attempt

variable (tunnel : NamedTunnel) (originalState : TunnelState) (originalConfig : Option ConfigRef)
  (snapshot : List QuickEntry) (config : Option ConfigRef)

/-- What the handler of a bring-up that fails is to bring up. -/
def former (s : QuickState L) : List QuickEntry :=
  if originalState = .up then originalConfig.toList.map fun c => ⟨tunnel, c⟩
  else if s.multipleTunnels = false then snapshot
  else []

/-- The bring-up itself; an exception comes with the entries that the handler is to bring up. -/
def attemptUp (s : QuickState L) : Except (QuickExn × List QuickEntry) Unit × QuickState L :=
  match setStateInternal net notify env tunnel config .up s with
  | (.ok (), s) => (.ok (), s)
  | (.error e, s) => (.error (e, former tunnel originalState originalConfig snapshot s), s)

/-- The `UP` case of `setState` up to its handlers. -/
def attempt (s : QuickState L) : Except (QuickExn × List QuickEntry) Unit × QuickState L :=
  match
    if s.multipleTunnels = false ∧ originalState = .down then takeDown net notify env snapshot [] s
    else (none, [], s) with
  | (some e, rewind, s) => (.error (e, rewind), s)
  | (none, _, s) =>
      match
        if originalState = .up then
          setStateInternal net notify env tunnel (originalConfig.or config) .down s
        else (.ok (), s) with
      | (.error e, s) => (.error (e, []), s)
      | (.ok (), s) =>
          attemptUp net notify env tunnel originalState originalConfig snapshot config s

/-- The handler of a bring-up brings up a list of entries, as the other ones do. -/
theorem restore_eq (s : QuickState L) :
    restore net notify env tunnel originalState originalConfig snapshot s =
      bringBack net notify env (former tunnel originalState originalConfig snapshot s) s := by
  rw [restore.eq_def, former]
  split
  · cases originalConfig with
    | none => rfl
    | some c =>
      rw [Option.toList_some, List.map_singleton, bringBack]
      dsimp only
      cases setStateInternal net notify env tunnel (some c) .up s with
      | mk r s' =>
        cases r with
        | error e => rfl
        | ok u => rfl
  · split
    · rfl
    · rfl

/-- **A switch that throws** is an attempt and a handler. -/
theorem exists_attempt_of_error {s : QuickState L} {e : QuickExn}
    (h : (switchTo net notify env tunnel originalState originalConfig snapshot config s).1 =
      .error e) :
    ∃ entries s', attempt net notify env tunnel originalState originalConfig snapshot config s =
        (.error (e, entries), s') ∧
      (switchTo net notify env tunnel originalState originalConfig snapshot config s).2 =
        bringBack net notify env entries s' := by
  rw [switchTo] at h ⊢
  rw [attempt]
  generalize (if s.multipleTunnels = false ∧ originalState = .down then
    takeDown net notify env snapshot [] s else (none, [], s)) = x at h ⊢
  obtain ⟨failure, rewind, s₁⟩ := x
  cases failure with
  | some e' =>
    obtain rfl : e' = e := Except.error.inj h
    exact ⟨_, _, rfl, rfl⟩
  | none =>
    dsimp only at h ⊢
    generalize (if originalState = .up then
      setStateInternal net notify env tunnel (originalConfig.or config) .down s₁
      else (.ok (), s₁)) = y at h ⊢
    obtain ⟨result, s₂⟩ := y
    cases result with
    | error e' =>
      obtain rfl : e' = e := Except.error.inj h
      exact ⟨_, _, rfl, rfl⟩
    | ok u =>
      dsimp only at h ⊢
      rw [attemptUp]
      generalize setStateInternal net notify env tunnel config .up s₂ = z at h ⊢
      obtain ⟨result, s₃⟩ := z
      cases result with
      | ok u => exact absurd h (by simp)
      | error e' =>
        obtain rfl : e' = e := Except.error.inj h
        exact ⟨_, _, rfl, restore_eq net notify env tunnel originalState originalConfig snapshot s₃⟩

end Attempt

/-- The number of commands that a call for `UP` has given when its exception is thrown: the next
ones are those of the handler. -/
def thrownAt (tunnel : NamedTunnel) (config : Option ConfigRef) (s : QuickState L) : ℕ :=
  let (originalState, s) := getState env tunnel s
  (attempt net notify env tunnel originalState (s.runningConfigs.lookup tunnel)
    (env.entrySet s.runningConfigs.entries) config (ensureToolsAvailable env s).2).2.commands

/-! ## Missing entries -/

/-- Exactly these entries are missing in the map, and exactly their interfaces. -/
structure Without (entries : List QuickEntry) (s₀ s : QuickState L) : Prop where
  map : ∀ t, recorded s t = if t ∈ entries.map Sigma.fst then none else recorded s₀ t
  links : ∀ d, s.links.lookup d =
    if d ∈ entries.map (fun entry => entry.1.device) then none else s₀.links.lookup d

/-- The entries are in the map, each with an interface of its own that was set up from it. -/
structure Backed (s₀ : QuickState L) (entries : List QuickEntry) : Prop where
  map : ∀ entry ∈ entries, recorded s₀ entry.1 = some entry.2
  links : ∀ entry ∈ entries,
    s₀.links.lookup entry.1.device = some (entry.2.config.toWgQuickString net)
  names : (entries.map fun entry => entry.1.device).Nodup

/-- The command does what it is for. -/
def Succeeds (e : ShellEnv) : Prop :=
  e.shell = .returns ∧ e.writable = true ∧ e.version = 0 ∧ e.quick.status = 0

section Missing

variable {net notify env} {s₀ s s' : QuickState L} {entry : QuickEntry}
  {entries rewind rewind' : List QuickEntry}

theorem Without.of_fields (h : Without entries s₀ s)
    (hmap : s'.runningConfigs = s.runningConfigs) (hlinks : s'.links = s.links) :
    Without entries s₀ s' where
  map t := by
    rw [recorded, hmap]
    exact h.map t
  links d := by
    rw [hlinks]
    exact h.links d

theorem without_nil : Without [] s s := ⟨fun _ => rfl, fun _ => rfl⟩

/-- A step that fails leaves everything as it is. -/
theorem Without.failed (hclean : Clean env) (h : Without entries s₀ s) {tunnel : NamedTunnel}
    {config : Option ConfigRef} {state : TunnelState} {e : QuickExn}
    (hstep : Internal net notify env tunnel config s state (.error e, s')) :
    Without entries s₀ s' := by
  cases hstep with
  | nullConfig => exact h
  | failed _ _ _ _ _ hlinks => exact h.of_fields rfl (hlinks hclean)

/-- An entry that is taken down is missing too. -/
theorem Without.down (h : Without rewind s₀ s) {tunnel : NamedTunnel} {config : Option ConfigRef}
    (c : ConfigRef) (hstep : Internal net notify env tunnel config s .down (.ok (), s')) :
    Without (rewind ++ [⟨tunnel, c⟩]) s₀ s' := by
  cases hstep with
  | down given k present =>
    constructor
    · intro t
      rw [recorded, List.map_append, List.map_singleton]
      dsimp only
      by_cases ht : t = tunnel
      · rw [ht, AList.lookup_erase, if_pos (by simp)]
      · rw [AList.lookup_erase_ne ht]
        exact (h.map t).trans (if_congr (by simp [ht]) rfl rfl)
    · intro d
      rw [List.map_append, List.map_singleton]
      dsimp only
      by_cases hd : d = tunnel.device
      · rw [hd, AList.lookup_erase, if_pos (by simp)]
      · rw [AList.lookup_erase_ne hd, h.links d]
        exact if_congr (by simp [hd]) rfl rfl

/-- **The loop that takes tunnels down**: what it has taken down is missing, also when it ends
early. -/
theorem Without.takeDown (hclean : Clean env) (h : Without rewind s₀ s)
    {failure : Option QuickExn}
    (hloop : takeDown net notify env entries rewind s = (failure, rewind', s')) :
    Without rewind' s₀ s' ∧ rewind' <+: rewind ++ entries ∧
      (failure = none → rewind' = rewind ++ entries) := by
  induction entries generalizing rewind s with
  | nil =>
    obtain ⟨rfl, rfl, rfl⟩ : none = failure ∧ rewind = rewind' ∧ s = s' := by
      simpa [WgQuickBackend.takeDown] using hloop
    exact ⟨h, List.prefix_append _ _, fun _ => (List.append_nil rewind).symm⟩
  | cons first entries ih =>
    rw [WgQuickBackend.takeDown] at hloop
    have hspec := setStateInternal_spec net notify env first.1 (some first.2) (Or.inr rfl) s
    cases hstep : setStateInternal net notify env first.1 (some first.2) .down s with
    | mk r s₁ =>
      rw [hstep] at hloop hspec
      cases r with
      | error e =>
        obtain ⟨rfl, rfl, rfl⟩ : some e = failure ∧ rewind = rewind' ∧ s₁ = s' := by
          simpa using hloop
        exact ⟨h.failed hclean hspec, List.prefix_append _ _, by simp⟩
      | ok u =>
        have hnext := ih (h.down first.2 hspec) hloop
        rwa [List.append_assoc, List.singleton_append] at hnext

theorem Backed.of_sublist (h : Backed net s₀ entries) (hsub : rewind.Sublist entries) :
    Backed net s₀ rewind where
  map entry hentry := h.map entry (hsub.subset hentry)
  links entry hentry := h.links entry (hsub.subset hentry)
  names := h.names.sublist (hsub.map _)

variable (net notify env) in
/-- `setStateInternal` when the command succeeds and there is no interface yet. -/
theorem setStateInternal_up {tunnel : NamedTunnel} (c : ConfigRef)
    (hcommand : Succeeds (env.shell s.commands)) (habsent : tunnel.device ∉ s.links) :
    setStateInternal net notify env tunnel (some c) .up s = (.ok (), { s with
      commands := s.commands + 1
      links := s.links.insert tunnel.device (c.config.toWgQuickString net)
      runningConfigs := s.runningConfigs.insert tunnel c
      listeners := notify tunnel .up s.listeners }) := by
  obtain ⟨hshell, hwritable, hversion, hstatus⟩ := hcommand
  have hrun : runWgQuick (env.shell s.commands) .up tunnel.device (c.config.toWgQuickString net)
      s.links = (some 0, s.links.insert tunnel.device (c.config.toWgQuickString net)) := by
    simp [runWgQuick, WgQuick.up, hshell, hversion, hstatus, habsent]
  rw [setStateInternal]
  dsimp only
  rw [if_neg (by simp [hwritable]), hrun]
  rfl

variable (notify) in
/-- **An entry that is brought up** is not missing any more. -/
theorem Without.up (h : Without (entry :: entries) s₀ s)
    (hbacked : Backed net s₀ (entry :: entries)) (hcommand : Succeeds (env.shell s.commands)) :
    ∃ s', setStateInternal net notify env entry.1 (some entry.2) .up s = (.ok (), s') ∧
      s'.commands = s.commands + 1 ∧ Without entries s₀ s' := by
  have habsent : entry.1.device ∉ s.links := by
    rw [← AList.lookup_eq_none, h.links, if_pos (by simp)]
  refine ⟨_, setStateInternal_up net notify env entry.2 hcommand habsent, rfl, ?_⟩
  obtain ⟨hname, -⟩ := List.nodup_cons.mp hbacked.names
  constructor
  · intro t
    rw [recorded]
    dsimp only
    by_cases ht : t = entry.1
    · have hother : entry.1 ∉ entries.map Sigma.fst := by
        intro hmem
        obtain ⟨other, hother, heq⟩ := List.mem_map.mp hmem
        exact hname (List.mem_map.mpr ⟨other, hother, congrArg NamedTunnel.device heq⟩)
      rw [ht, AList.lookup_insert, if_neg hother, hbacked.map entry List.mem_cons_self]
    · rw [AList.lookup_insert_ne ht]
      exact (h.map t).trans (if_congr (by simp [ht]) rfl rfl)
  · intro d
    dsimp only
    by_cases hd : d = entry.1.device
    · rw [hd, AList.lookup_insert, if_neg hname, hbacked.links entry List.mem_cons_self]
    · rw [AList.lookup_insert_ne hd, h.links d]
      exact if_congr (by simp [hd]) rfl rfl

variable (notify) in
/-- **The handlers** bring up everything that is missing. -/
theorem Without.bringBack (h : Without entries s₀ s) (hbacked : Backed net s₀ entries)
    (hcommands : ∀ n, s.commands ≤ n → Succeeds (env.shell n)) :
    Without [] s₀ (bringBack net notify env entries s) := by
  induction entries generalizing s with
  | nil => exact h
  | cons entry entries ih =>
    obtain ⟨s', hup, hcount, h'⟩ := h.up notify hbacked (hcommands _ (le_refl _))
    rw [WgQuickBackend.bringBack, hup]
    exact ih h' (hbacked.of_sublist (List.sublist_cons_self _ _)) fun n hn =>
      hcommands n (by omega)

end Missing

/-! ## What is missing when the exception is thrown -/

section Thrown

variable {net notify env} {tunnel : NamedTunnel} {originalState : TunnelState}
  {originalConfig : Option ConfigRef} {snapshot : List QuickEntry} {config : Option ConfigRef}
  {s s' : QuickState L}

/-- The bring-up of an attempt fails, after some entries were taken down. -/
theorem without_of_attemptUp (hclean : Clean env) {taken entries : List QuickEntry}
    {s₁ : QuickState L} {e : QuickExn} (hwithout : Without taken s s₁)
    (h : attemptUp net notify env tunnel originalState originalConfig snapshot config s₁ =
      (.error (e, entries), s')) :
    Without taken s s' ∧ entries = former tunnel originalState originalConfig snapshot s₁ := by
  have hspec := setStateInternal_spec net notify env tunnel config (Or.inl rfl) s₁
  rw [attemptUp] at h
  generalize setStateInternal net notify env tunnel config .up s₁ = x at h hspec
  obtain ⟨r, s₂⟩ := x
  cases r with
  | ok u => exact absurd (congrArg Prod.fst h) (by simp)
  | error e' =>
    obtain ⟨⟨-, rfl⟩, rfl⟩ : (e' = e ∧ _ = entries) ∧ s₂ = s' := by simpa using h
    have hmode : s₂.multipleTunnels = s₁.multipleTunnels :=
      (kept_mode net notify env s₁.multipleTunnels).failed hspec rfl
    exact ⟨hwithout.failed hclean hspec, by rw [former, former, hmode]⟩

/-- **What is missing when the exception is thrown** is what the handler is to bring up. -/
theorem without_of_attempt (hclean : Clean env)
    (horiginal : originalState = .up ∨ originalState = .down)
    (hsnapshot : Backed net s snapshot)
    (hown : originalState = .up → ∃ c, originalConfig = some c ∧ Backed net s [⟨tunnel, c⟩])
    {e : QuickExn} {entries : List QuickEntry}
    (h : attempt net notify env tunnel originalState originalConfig snapshot config s =
      (.error (e, entries), s')) : Without entries s s' ∧ Backed net s entries := by
  have hnone : Backed net s [] := ⟨by simp, by simp, by simp⟩
  rw [attempt] at h
  rcases horiginal with rfl | rfl
  · -- the tunnel itself is taken down
    obtain ⟨c, rfl, hbacked⟩ := hown rfl
    rw [if_neg (by simp)] at h
    dsimp only at h
    rw [if_pos rfl] at h
    have hspec := setStateInternal_spec net notify env tunnel ((some c).or config) (Or.inr rfl) s
    generalize setStateInternal net notify env tunnel ((some c).or config) .down s = x at h hspec
    obtain ⟨r, s₁⟩ := x
    cases r with
    | error e' =>
      obtain ⟨⟨-, rfl⟩, rfl⟩ : (e' = e ∧ [] = entries) ∧ s₁ = s' := by simpa using h
      exact ⟨without_nil.failed hclean hspec, hnone⟩
    | ok u =>
      have htaken : Without [⟨tunnel, c⟩] s s₁ := without_nil.down c hspec
      obtain ⟨hwithout, rfl⟩ := without_of_attemptUp hclean htaken h
      rw [former, if_pos rfl]
      exact ⟨hwithout, hbacked⟩
  · have hnot : ¬ TunnelState.down = .up := by simp
    cases hmode : s.multipleTunnels with
    | true =>
      -- nothing is taken down
      rw [if_neg (by simp [hmode])] at h
      dsimp only at h
      rw [if_neg hnot] at h
      obtain ⟨hwithout, rfl⟩ := without_of_attemptUp hclean without_nil h
      rw [former, if_neg hnot, if_neg (by simp [hmode])]
      exact ⟨hwithout, hnone⟩
    | false =>
      -- the whole map is taken down
      rw [if_pos ⟨hmode, rfl⟩] at h
      have hkept : (takeDown net notify env snapshot [] s).2.2.multipleTunnels = false :=
        (kept_mode net notify env false).takeDown (fun _ _ => trivial) [] hmode
      cases htaken : takeDown net notify env snapshot [] s with
      | mk failure x =>
        obtain ⟨rewind, s₁⟩ := x
        obtain ⟨hwithout, hinit, hall⟩ := without_nil.takeDown hclean htaken
        rw [htaken] at h hkept
        cases failure with
        | some e' =>
          obtain ⟨⟨-, rfl⟩, rfl⟩ : (e' = e ∧ rewind = entries) ∧ s₁ = s' := by simpa using h
          exact ⟨hwithout, hsnapshot.of_sublist hinit.sublist⟩
        | none =>
          obtain rfl : rewind = snapshot := hall rfl
          dsimp only at h
          rw [if_neg hnot] at h
          obtain ⟨hwithout', rfl⟩ := without_of_attemptUp hclean hwithout h
          rw [former, if_neg hnot, if_pos hkept]
          exact ⟨hwithout', hsnapshot⟩

end Thrown

/-! ## The map and the interfaces agree -/

/-- Every tunnel of the map has its interface. -/
def HasLinks (s : QuickState L) : Prop :=
  ∀ t c, recorded s t = some c →
    s.links.lookup t.device = some (c.config.toWgQuickString net)

section Agree

variable {net notify env} {T : NamedTunnel → Prop}

theorem tidy_of_clean (hclean : Clean env) : Tidy env := fun n =>
  ⟨(hclean n).1, (hclean n).2.2⟩

variable (net notify) in
/-- While every tunnel has a name of its own, the tunnels of the map keep their interfaces. -/
theorem kept_hasLinks (hclean : Clean env)
    (hT : ∀ t t', T t → T t' → t.device = t'.device → t = t') :
    Kept net notify env T (fun entry => T entry.1)
      fun s => HasLinks net s ∧ Within (fun entry => T entry.1) s where
  asked _ _ hs := hs
  failed hstep hs := by
    refine ⟨?_, (kept_within net notify env _).failed hstep hs.2⟩
    cases hstep with
    | nullConfig => exact hs.1
    | failed _ _ _ _ _ hlinks =>
      rw [hlinks hclean]
      exact hs.1
  up {tunnel c s s'} hR hstep hs := by
    refine ⟨?_, (kept_within net notify env _).up hR hstep hs.2⟩
    cases hstep with
    | up given k absent =>
      obtain rfl := Option.some.inj given
      intro t c' hc'
      dsimp only
      by_cases ht : t = tunnel
      · subst ht
        obtain rfl := Option.some.inj ((AList.lookup_insert _).symm.trans hc')
        exact AList.lookup_insert _
      · have hlink := hs.1 t c' ((AList.lookup_insert_ne ht).symm.trans hc')
        have hdevice : t.device ≠ tunnel.device := by
          intro heq
          rw [heq, AList.lookup_eq_none.mpr absent] at hlink
          exact absurd hlink (by simp)
        exact (AList.lookup_insert_ne hdevice).trans hlink
  down {tunnel config s s'} hD hstep hs := by
    refine ⟨?_, (kept_within net notify env _).down trivial hstep hs.2⟩
    cases hstep with
    | down given k present =>
      intro t c' hc'
      dsimp only
      by_cases ht : t = tunnel
      · subst ht
        exact absurd ((AList.lookup_erase _ _).symm.trans hc') (by simp)
      · have hbefore := (AList.lookup_erase_ne ht).symm.trans hc'
        have hdevice : t.device ≠ tunnel.device := fun heq =>
          ht (hT t tunnel (hs.2 t c' hbefore) hD heq)
        exact (AList.lookup_erase_ne hdevice).trans (hs.1 t c' hbefore)

/-- What a run of calls keeps, when every tunnel has a name of its own. -/
structure Agrees (net : NetApi) (T : NamedTunnel → Prop) (s : QuickState L) : Prop where
  hasLinks : HasLinks net s
  covered : Covered net s
  within : Within (fun entry => T entry.1) s

theorem agrees_setState (hclean : Clean env)
    (hT : ∀ t t', T t → T t' → t.device = t'.device → t = t') {tunnel : NamedTunnel}
    (htunnel : T tunnel) (state : TunnelState) (config : Option ConfigRef) {s : QuickState L}
    (hs : Agrees net T s) : Agrees net T (setState net notify env tunnel state config s).2 := by
  have hlinks : HasLinks net (setState net notify env tunnel state config s).2 ∧
      Within (fun entry => T entry.1) (setState net notify env tunnel state config s).2 :=
    (kept_hasLinks net notify hclean hT).setState ⟨hs.hasLinks, hs.within⟩ htunnel
      (fun t c hc => ⟨hs.within t c hc, hs.within t c hc⟩) fun _ _ _ => htunnel
  refine ⟨hlinks.1, ?_, hlinks.2⟩
  exact (kept_covered net notify (tidy_of_clean hclean)).setState hs.covered trivial
    (fun _ _ _ => ⟨trivial, trivial⟩) fun _ _ _ => trivial

/-- The event is a call for one of the tunnels, or a change of the mode. -/
def Event.Among (T : NamedTunnel → Prop) : Event → Prop
  | .setState tunnel _ _ => T tunnel
  | .setMultipleTunnels _ => True
  | .outside _ => False

theorem agrees_run (hclean : Clean env)
    (hT : ∀ t t', T t → T t' → t.device = t'.device → t = t') {events : List Event}
    (hevents : ∀ e ∈ events, e.Among T) {s : QuickState L} (hs : Agrees net T s) :
    Agrees net T (run net notify env events s) := by
  induction events generalizing s with
  | nil => exact hs
  | cons e events ih =>
    rw [List.forall_mem_cons] at hevents
    refine ih hevents.2 ?_
    cases e with
    | setState tunnel state config => exact agrees_setState hclean hT hevents.1 state config hs
    | setMultipleTunnels on => exact ⟨hs.hasLinks, hs.covered, hs.within⟩
    | outside links => exact hevents.1.elim

/-- The entries of the map are backed by the interfaces. -/
theorem Agrees.backed {s : QuickState L} (hs : Agrees net T s)
    (hT : ∀ t t', T t → T t' → t.device = t'.device → t = t') (env : WgQuickEnv) :
    Backed net s (env.entrySet s.runningConfigs.entries) where
  map entry hentry := (mem_entrySet env).mp hentry
  links entry hentry := hs.hasLinks _ _ ((mem_entrySet env).mp hentry)
  names := by
    have hkeys : (s.runningConfigs.entries.map Sigma.fst).Nodup := s.runningConfigs.keys_nodup
    have hnames : (s.runningConfigs.entries.map fun entry => entry.1.device).Nodup := by
      rw [← Function.comp_def NamedTunnel.device, ← List.map_map]
      refine hkeys.map_on fun t ht t' ht' heq => ?_
      have hmem : ∀ t ∈ s.runningConfigs.entries.map Sigma.fst, T t := by
        intro t ht
        obtain ⟨c, hc⟩ := mem_iff_recorded.mp (AList.mem_keys.mpr ht)
        exact hs.within t c hc
      exact hT t t' (hmem t ht) (hmem t' ht') heq
    exact ((env.perm _).map _).nodup_iff.mpr hnames

/-- A tunnel whose interface is there is in the map. -/
theorem Agrees.exists_backed {s : QuickState L} (hs : Agrees net T s)
    (hT : ∀ t t', T t → T t' → t.device = t'.device → t = t') {tunnel : NamedTunnel}
    (htunnel : T tunnel) (hlink : tunnel.device ∈ s.links) :
    ∃ c, s.runningConfigs.lookup tunnel = some c ∧ Backed net s [⟨tunnel, c⟩] := by
  obtain ⟨text, htext⟩ := Option.isSome_iff_exists.mp (AList.lookup_isSome.mpr hlink)
  obtain ⟨t, c, hc, hdevice, -⟩ := hs.covered _ _ htext
  obtain rfl := hT t tunnel (hs.within t c hc) htunnel hdevice
  exact ⟨c, hc, by simpa using hc, by simpa using hs.hasLinks t c hc, by simp⟩

/-- **A call that throws**, when the commands of its handler succeed. -/
theorem Agrees.without_nil_of_error {s : QuickState L} (hs : Agrees net T s) (hclean : Clean env)
    (hT : ∀ t t', T t → T t' → t.device = t'.device → t = t') {tunnel : NamedTunnel}
    (htunnel : T tunnel) {config : Option ConfigRef} {e : QuickExn}
    (hthrows : (setState net notify env tunnel .up config s).1 = .error e)
    (hcommands : ∀ n, thrownAt net notify env tunnel config s ≤ n → Succeeds (env.shell n)) :
    Without [] s (setState net notify env tunnel .up config s).2 := by
  obtain ⟨k, tools, hasked, horiginal⟩ := getState_spec env tunnel s
  rw [thrownAt] at hcommands
  unfold setState at hthrows ⊢
  generalize getState env tunnel s = x at hasked horiginal hthrows hcommands ⊢
  obtain ⟨originalState, s₁⟩ := x
  obtain rfl : s₁ = _ := hasked
  dsimp only at hthrows hcommands ⊢
  rw [if_neg (by simp : ¬ TunnelState.up = .toggle)] at hthrows ⊢
  split at hthrows
  · exact absurd hthrows (by simp)
  · rename_i hdifferent
    rw [if_neg hdifferent, if_pos rfl]
    rw [if_pos rfl] at hthrows
    obtain ⟨tools', htools⟩ := ensureToolsAvailable_spec env (asked s k tools)
    generalize ensureToolsAvailable env (asked s k tools) = y at htools hthrows hcommands ⊢
    obtain ⟨ok, s₂⟩ := y
    obtain rfl : s₂ = asked s k tools' := htools
    cases ok with
    | false => exact without_nil.of_fields rfl rfl
    | true =>
      have hs₂ : Agrees net T (asked s k tools') := ⟨hs.hasLinks, hs.covered, hs.within⟩
      obtain ⟨entries, s', hattempt, hswitch⟩ :=
        exists_attempt_of_error net notify env _ _ _ _ _ hthrows
      have htwo : originalState = .up ∨ originalState = .down :=
        horiginal.elim Or.inr fun h => Or.inl h.1
      obtain ⟨hwithout, hbacked⟩ := without_of_attempt hclean htwo (hs₂.backed hT env)
        (fun hup => hs₂.exists_backed hT htunnel
          (horiginal.elim (fun h => absurd (h.symm.trans hup) (by simp)) fun h => h.2)) hattempt
      rw [hattempt] at hcommands
      dsimp only at hswitch ⊢
      rw [hswitch]
      have hrestored := hwithout.bringBack notify hbacked hcommands
      exact ⟨hrestored.map, hrestored.links⟩

end Agree

variable {env} in
/-- **A switch that fails is undone.**  When no command that fails has changed the interfaces and
every tunnel has a name of its own: after every run of calls, in either mode, the interfaces are
those of the map; and a call for `UP` that throws leaves the map and the interfaces as they were,
if the commands of its handler succeed. -/
theorem failed_switch_restores (hclean : Clean env) {T : NamedTunnel → Prop}
    (hT : ∀ t t', T t → T t' → t.device = t'.device → t = t') {events : List Event}
    (hevents : ∀ e ∈ events, e.Among T) (l : L) :
    let s := run net notify env events { listeners := l }
    (∀ d text, s.links.lookup d = some text ↔
        ∃ t c, recorded s t = some c ∧ t.device = d ∧ text = c.config.toWgQuickString net) ∧
      ∀ tunnel config e, T tunnel →
        (setState net notify env tunnel .up config s).1 = .error e →
        (∀ n, thrownAt net notify env tunnel config s ≤ n → Succeeds (env.shell n)) →
          recorded (setState net notify env tunnel .up config s).2 = recorded s ∧
            ∀ d, (setState net notify env tunnel .up config s).2.links.lookup d =
              s.links.lookup d := by
  intro s
  have hs : Agrees net T s := agrees_run hclean hT hevents
    ⟨fun t c h => absurd h (by simp [recorded]), fun d text h => absurd h (by simp),
      fun t c h => absurd h (by simp)⟩
  constructor
  · intro d text
    constructor
    · exact hs.covered d text
    · rintro ⟨t, c, hc, rfl, rfl⟩
      exact hs.hasLinks t c hc
  · intro tunnel config e htunnel hthrows hcommands
    have hwithout := hs.without_nil_of_error hclean hT htunnel hthrows hcommands
    exact ⟨funext hwithout.map, hwithout.links⟩

/-- The fifth command fails. -/
def fifthFails : WgQuickEnv where
  shell n := if n = 4 then { quick := { status := 1 } } else {}

/-- The other tunnel cannot be brought up after the first one, which is brought up again. -/
theorem failed_switch_restores_fifthFails :
    let s := run GoBackend.noAddresses ignore fifthFails
      [.setState wg0 .up (some (GoBackend.bareConfig 1))] { listeners := () }
    let x := setState GoBackend.noAddresses ignore fifthFails wg1 .up
      (some (GoBackend.bareConfig 2)) s
    x.1 = .error (.wgQuickConfigErrorCode 1) ∧ recorded s wg0 = some (GoBackend.bareConfig 1) ∧
      recorded x.2 = recorded s ∧ ∀ d, x.2.links.lookup d = s.links.lookup d := by
  intro s x
  have hthrows : x.1 = .error (.wgQuickConfigErrorCode 1) := by decide +kernel
  have hat : thrownAt GoBackend.noAddresses ignore fifthFails wg1
      (some (GoBackend.bareConfig 2)) s = 5 := by decide +kernel
  refine ⟨hthrows, by decide +kernel, ?_⟩
  refine (failed_switch_restores GoBackend.noAddresses ignore (T := fun t => t = wg0 ∨ t = wg1)
    ?_ ?_ ?_ ()).2 wg1 _ _ (Or.inr rfl) hthrows ?_
  · intro n
    rw [fifthFails]
    dsimp only
    split
    · exact ⟨rfl, rfl, by simp⟩
    · exact ⟨rfl, rfl, by simp⟩
  · rintro t t' (rfl | rfl) (rfl | rfl) h
    · rfl
    · exact absurd h (by decide)
    · exact absurd h (by decide)
    · rfl
  · intro e he
    rw [List.mem_singleton.mp he]
    exact Or.inl rfl
  · intro n hn
    rw [hat] at hn
    rw [fifthFails]
    dsimp only
    rw [if_neg (by omega)]
    exact ⟨rfl, rfl, rfl, rfl⟩

end WgQuickBackend
end AioVpn
