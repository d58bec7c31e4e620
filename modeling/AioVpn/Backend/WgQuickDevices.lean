import AioVpn.Backend.WgQuickRuns
import AioVpn.Tools.UpUsers

/-!
# The devices behind the interfaces

`WgQuickBackend` hands `wg-quick` the text of a configuration, and its state keeps that text as what
an interface was set up from.  `Tools.WgQuickUp` says what `cmd_up` asks for when it is given a
text.  Here the two meet: in every state that calls lead to, what `cmd_up` asks for on the text of
an interface is what the configuration says that the map has for its tunnel.

That a text is read as it is meant takes `WgQuick.Plain`, and that is a condition on the
configurations that the calls are given.  `Gives` states it of the events; the map never holds a
configuration that was not given.
-/

namespace AioVpn

open JString

namespace WgQuickBackend

variable {L : Type} {net : NetApi} {notify : NamedTunnel → TunnelState → L → L} {env : WgQuickEnv}

/-- The configurations of the event are of `R`, and nobody else changes the interfaces. -/
def Event.Gives (R : ConfigRef → Prop) : Event → Prop
  | .setState _ _ config => ∀ c ∈ config, R c
  | .setMultipleTunnels _ => True
  | .outside _ => False

/-- Every interface was set up from a configuration of the map, and these were given. -/
structure Given (net : NetApi) (R : ConfigRef → Prop) (s : QuickState L) : Prop where
  covered : Covered net s
  within : Within (fun entry => R entry.2) s

section Given

variable (htidy : Tidy env) {R : ConfigRef → Prop}

include htidy

theorem given_setState (tunnel : NamedTunnel) (state : TunnelState) {config : Option ConfigRef}
    (hconfig : ∀ c ∈ config, R c) {s : QuickState L} (hs : Given net R s) :
    Given net R (setState net notify env tunnel state config s).2 where
  covered := (kept_covered net notify htidy).setState hs.covered trivial
    (fun _ _ _ => ⟨trivial, trivial⟩) fun _ _ _ => trivial
  within := (kept_within net notify env fun entry => R entry.2).setState hs.within trivial
    (fun t c hc => ⟨trivial, hs.within t c hc⟩) fun _ => hconfig

theorem given_run {events : List Event} (hevents : ∀ e ∈ events, e.Gives R) {s : QuickState L}
    (hs : Given net R s) : Given net R (run net notify env events s) := by
  induction events generalizing s with
  | nil => exact hs
  | cons e events ih =>
    rw [List.forall_mem_cons] at hevents
    refine ih hevents.2 ?_
    cases e with
    | setState tunnel state config => exact given_setState htidy tunnel state hevents.1 hs
    | setMultipleTunnels on => exact ⟨hs.covered, hs.within⟩
    | outside links => exact hevents.1.elim

end Given

/-- **Every interface is set up as configured.**  When no failed command leaves an interface behind
and the shell does not die after a command has been run: after every run of calls, in either mode
and whichever of them fail, every interface belongs to a tunnel of the map, and what `cmd_up` asks
for on the text it was given is what the configuration in the map says. -/
theorem interfaces_as_configured (htidy : Tidy env) {up : WgQuick.UpEnv}
    (hup : Wg.Platform net up.libc) {events : List Event}
    (hevents : ∀ e ∈ events, e.Gives fun c => WgQuick.Plain net c.config) (l : L) :
    let s := run net notify env events { listeners := l }
    ∀ d text, s.links.lookup d = some text → ∃ t c, recorded s t = some c ∧ t.device = d ∧
      WgQuick.cmdUp up (WgQuick.parseOptions (utf8 text)) = WgQuick.setupOf net up c.config := by
  intro s d text htext
  have hs : Given net (fun c => WgQuick.Plain net c.config) s := given_run htidy hevents
    ⟨fun d text h => absurd h (by simp), fun t c h => absurd h (by simp)⟩
  obtain ⟨t, c, hc, hdevice, rfl⟩ := hs.covered d text htext
  exact ⟨t, c, hc, hdevice, WgQuick.cmdUp_toWgQuickString hup (hs.within t c hc)⟩

/-- A phone with the sample library and packages. -/
def sampleUp : WgQuick.UpEnv := ⟨Wg.sampleLibc, WgQuick.samplePackages, [0#8]⟩

theorem sample_as_configured :
    let s := run sampleNet ignore {} [.setState wg0 .up (some ⟨1, Config.sampleConfig⟩)]
      { listeners := () }
    s.links.keys = [wg0.device] ∧
      (WgQuick.setupOf sampleNet sampleUp Config.sampleConfig).isSome = true ∧
      ∀ d text, s.links.lookup d = some text → ∃ t c, recorded s t = some c ∧ t.device = d ∧
        WgQuick.cmdUp sampleUp (WgQuick.parseOptions (utf8 text)) =
          WgQuick.setupOf sampleNet sampleUp c.config := by
  intro s
  refine ⟨by decide +kernel, ?_, ?_⟩
  · have hdevice : (Wg.deviceOf Wg.sampleLibc Config.sampleConfig).toOption.isSome = true := by
      decide +kernel
    obtain ⟨device, hdevice⟩ := Option.isSome_iff_exists.mp hdevice
    have hzero : ([0#8] : List CChar).head? = some 0#8 := rfl
    obtain ⟨commands, hcommands, -⟩ := WgQuick.setUsers_covers WgQuick.sample_listed hzero
      WgQuick.sample_plain.applications
    rw [WgQuick.setupOf, sampleUp, hdevice, hcommands]
    rfl
  refine interfaces_as_configured (fun n => ⟨rfl, by simp⟩) Wg.sample_platform ?_ ()
  intro e he
  rw [List.mem_singleton.mp he]
  intro c hc
  rw [← Option.some.inj hc]
  exact WgQuick.sample_plain

end WgQuickBackend
end AioVpn
