import AioVpn.Backend.AppFilters

/-!
# The validator

`WgTunnelValidator.waitForWorkingTunnel` probes a web address until it answers or a
time has passed, and `validateTunnelOrThrow` of `HomeActivity` turns `false` into an
exception, on which the connect loop abandons the server.

What a probe says depends on the way it takes.  The network is two answers for every
round, the one the probe would get directly and the one it would get through the
tunnel, and the application filters of the established tunnel select between them for
the package the probe is made from, which is the app itself.

The backend disallows the app's own package on every tunnel, so every probe goes
around the tunnel.  `validation_sound_iff` draws the conclusion: the validator is
right about the tunnel exactly when no probe made in time is answered directly.
-/

namespace AioVpn

/-- One round of the loop. -/
structure Round where
  /-- The response code of the probe sent directly, `none` for an exception. -/
  direct : Option ℤ
  /-- The response code of the probe sent through the tunnel. -/
  tunnel : Option ℤ
  probeMs : ℕ := 0
  /-- The time the delay takes beyond what was asked for. -/
  lateMs : ℕ := 0

namespace WgTunnelValidator

/-- The way of a probe made from a package, under the filters of a tunnel. -/
def route (b : VpnBuilder) (packageName : JString) (r : Round) : Option ℤ :=
  if b.usesTunnel packageName then r.tunnel else r.direct

/-- `verifyTunnel`. -/
def verifyTunnel : Option ℤ → Bool
  | some code => code = 204 || (200 ≤ code && code ≤ 399)
  | none => false

/-- The `while` loop, in round `n` at `elapsed` milliseconds. -/
def waitLoop (reply : ℕ → Option ℤ) (duration : ℕ → ℕ) (timeoutMs : ℕ) : ℕ → ℕ → ℕ → Bool
  | 0, _, _ => false
  | fuel + 1, n, elapsed =>
      if elapsed < timeoutMs then
        if verifyTunnel (reply n) then true
        else waitLoop reply duration timeoutMs fuel (n + 1) (elapsed + duration n)
      else false

/-- The duration of a round that does not end the loop. -/
def duration (rounds : ℕ → Round) (intervalMs n : ℕ) : ℕ :=
  (rounds n).probeMs + intervalMs + (rounds n).lateMs

/-- The time at which round `n` starts. -/
def startOf (rounds : ℕ → Round) (intervalMs : ℕ) : ℕ → ℕ
  | 0 => 0
  | n + 1 => startOf rounds intervalMs n + duration rounds intervalMs n

/-- `waitForWorkingTunnel`, run in the package `packageName`.  Every round takes at
least `intervalMs`, so the fuel does not run out before the time does. -/
def waitForWorkingTunnel (b : VpnBuilder) (packageName : JString) (rounds : ℕ → Round)
    (timeoutMs intervalMs : ℕ) : Bool :=
  waitLoop (fun n => route b packageName (rounds n)) (duration rounds intervalMs) timeoutMs
    (timeoutMs / intervalMs + 1) 0 0

/-- The exception message of `validateTunnelOrThrow`. -/
def failureMessage : Option JString → JString
  | none => jstr "Tunnel validation failed"
  | some serverName =>
      if serverName.all JChar.isKotlinWhitespace then jstr "Tunnel validation failed"
      else jstr "Tunnel validation failed for " ++ serverName

/-- `validateTunnelOrThrow`. -/
def validateTunnelOrThrow (b : VpnBuilder) (packageName : JString) (rounds : ℕ → Round)
    (serverName : Option JString) : Except JString Unit :=
  if waitForWorkingTunnel b packageName rounds 10000 1000 then .ok ()
  else .error (failureMessage serverName)

/-! ## The loop -/

theorem startOf_mono (rounds : ℕ → Round) (intervalMs : ℕ) :
    Monotone (startOf rounds intervalMs) :=
  monotone_nat_of_le_succ fun _ => Nat.le_add_right _ _

/-- Every round takes its interval. -/
theorem mul_le_startOf (rounds : ℕ → Round) (intervalMs n : ℕ) :
    n * intervalMs ≤ startOf rounds intervalMs n := by
  induction n with
  | zero => simp [startOf]
  | succ n ih =>
    rw [startOf, duration, Nat.succ_mul]
    omega

/-- The loop returns `true` in the first round that starts in time and whose probe is
answered. -/
theorem waitLoop_eq_true_iff (reply : ℕ → Option ℤ) (rounds : ℕ → Round)
    (timeoutMs intervalMs fuel n : ℕ) :
    waitLoop reply (duration rounds intervalMs) timeoutMs fuel n (startOf rounds intervalMs n) =
        true ↔
      ∃ m, n ≤ m ∧ m < n + fuel ∧ startOf rounds intervalMs m < timeoutMs ∧
        verifyTunnel (reply m) = true := by
  induction fuel generalizing n with
  | zero =>
    simp only [waitLoop, Bool.false_eq_true, false_iff]
    rintro ⟨m, hle, hlt, -⟩
    omega
  | succ fuel ih =>
    have hnext : startOf rounds intervalMs n + duration rounds intervalMs n =
        startOf rounds intervalMs (n + 1) := rfl
    rw [waitLoop, hnext]
    by_cases htime : startOf rounds intervalMs n < timeoutMs
    · by_cases hverify : verifyTunnel (reply n) = true
      · simp only [htime, hverify, if_true, true_iff]
        exact ⟨n, le_refl n, by omega, htime, hverify⟩
      · rw [if_pos htime, if_neg hverify, ih (n + 1)]
        constructor
        · rintro ⟨m, hle, hlt, hm⟩
          exact ⟨m, by omega, by omega, hm⟩
        · rintro ⟨m, hle, hlt, htm, hvm⟩
          have hne : m ≠ n := by
            rintro rfl
            exact hverify hvm
          exact ⟨m, by omega, by omega, htm, hvm⟩
    · -- no later round starts in time either
      rw [if_neg htime]
      simp only [Bool.false_eq_true, false_iff]
      rintro ⟨m, hle, -, htm, -⟩
      have := startOf_mono rounds intervalMs hle
      omega

/-- **The loop returns `true`** exactly when a probe made in time is answered. -/
theorem waitForWorkingTunnel_eq_true_iff (b : VpnBuilder) (packageName : JString)
    (rounds : ℕ → Round) (timeoutMs : ℕ) {intervalMs : ℕ} (hpos : 0 < intervalMs) :
    waitForWorkingTunnel b packageName rounds timeoutMs intervalMs = true ↔
      ∃ n, startOf rounds intervalMs n < timeoutMs ∧
        verifyTunnel (route b packageName (rounds n)) = true := by
  have hloop := waitLoop_eq_true_iff (fun n => route b packageName (rounds n)) rounds timeoutMs
    intervalMs (timeoutMs / intervalMs + 1) 0
  rw [waitForWorkingTunnel]
  refine hloop.trans ⟨?_, ?_⟩
  · rintro ⟨m, -, -, hm⟩
    exact ⟨m, hm⟩
  · rintro ⟨m, htm, hvm⟩
    refine ⟨m, Nat.zero_le m, ?_, htm, hvm⟩
    have hmul := mul_le_startOf rounds intervalMs m
    have hle : m ≤ timeoutMs / intervalMs := (Nat.le_div_iff_mul_le hpos).mpr (by omega)
    omega

/-! ## What the validator is right about -/

/-- The verification step verifies the tunnel: it succeeds only if a probe made in
time was answered through the tunnel, and a server whose tunnel answers nothing is
abandoned. -/
structure Verifies (b : VpnBuilder) (packageName : JString) (rounds : ℕ → Round)
    (serverName : Option JString) : Prop where
  answered : waitForWorkingTunnel b packageName rounds 10000 1000 = true →
    ∃ n, startOf rounds 1000 n < 10000 ∧ b.usesTunnel packageName = true ∧
      (rounds n).tunnel ≠ none
  abandoned : (∀ n, (rounds n).tunnel = none) →
    ∃ e, validateTunnelOrThrow b packageName rounds serverName = .error e

/-- **When the validator is right about the tunnel.**  For every configuration that a
bring-up brings up, every established tunnel of the Go library, every network and
every server name: the verification step verifies the tunnel if and only if no probe
made in time is answered directly. -/
theorem validation_sound_iff {L : Type} (net : NetApi) (packageName : JString)
    (notify : Tunnel → TunnelState → L → L) (env : BringUpEnv) (tunnel : Tunnel)
    (config : ConfigRef) (s s' : GoState L) (hclear : GoBackend.Clear s)
    (hown : env.device.installed packageName = true)
    (hup : GoBackend.setStateInternalUp net packageName notify env tunnel (some config) s =
      (.ok (), s')) :
    ∃ handle, s'.native.tunnelHandles = [(s'.currentTunnelHandle, handle)] ∧
      ∀ (rounds : ℕ → Round) (serverName : Option JString),
        Verifies handle.tun packageName rounds serverName ↔
          ∀ n, startOf rounds 1000 n < 10000 → verifyTunnel (rounds n).direct = false := by
  obtain ⟨handle, htable, hbuilt⟩ := GoBackend.tunnelHandles_of_up hclear hup
  have hout : handle.tun.usesTunnel packageName = false :=
    GoBackend.not_usesTunnel_own hown hbuilt
  refine ⟨handle, htable, ?_⟩
  intro rounds serverName
  have htrue := waitForWorkingTunnel_eq_true_iff handle.tun packageName rounds 10000
    (show 0 < 1000 by omega)
  have hroute : ∀ n, route handle.tun packageName (rounds n) = (rounds n).direct := by
    intro n
    rw [route, hout]
    rfl
  simp only [hroute] at htrue
  constructor
  · intro hverifies m htm
    by_contra hvm
    rw [Bool.not_eq_false] at hvm
    obtain ⟨-, -, huses, -⟩ := hverifies.answered (htrue.mpr ⟨m, htm, hvm⟩)
    rw [hout] at huses
    exact absurd huses (by simp)
  · intro hnone
    have hfalse : waitForWorkingTunnel handle.tun packageName rounds 10000 1000 = false := by
      by_contra h
      rw [Bool.not_eq_false] at h
      obtain ⟨m, htm, hvm⟩ := htrue.mp h
      rw [hnone m htm] at hvm
      exact absurd hvm (by simp)
    refine ⟨fun h => absurd (hfalse.symm.trans h) (by simp), fun _ => ?_⟩
    exact ⟨failureMessage serverName, by rw [validateTunnelOrThrow, hfalse]; rfl⟩

/-- The backend after a bring-up of the smallest configuration. -/
def broughtUp : Except Exn Unit × GoState Unit :=
  GoBackend.setStateInternalUp GoBackend.noAddresses GoBackend.applicationId GoBackend.ignore {}
    ⟨0, jstr "AIO-WG"⟩ (some (GoBackend.bareConfig 0)) { listeners := () }

/-- The theorem for the smallest configuration, on a network that answers nothing. -/
theorem validation_sound_offline :
    ∃ handle, broughtUp.2.native.tunnelHandles = [(broughtUp.2.currentTunnelHandle, handle)] ∧
      Verifies handle.tun GoBackend.applicationId (fun _ => { direct := none, tunnel := none })
        none := by
  obtain ⟨handle, htable, hiff⟩ := validation_sound_iff GoBackend.noAddresses
    GoBackend.applicationId GoBackend.ignore {} ⟨0, jstr "AIO-WG"⟩ (GoBackend.bareConfig 0)
    { listeners := () } broughtUp.2 ⟨rfl, rfl, rfl, rfl⟩ rfl (Prod.ext (by decide +kernel) rfl)
  exact ⟨handle, htable, (hiff _ none).mpr fun _ _ => rfl⟩

/-- **A dead tunnel passes the validation.**  The tunnel of the smallest configuration
is up and answers nothing, the probe address answers directly, and the server is not
abandoned. -/
theorem dead_tunnel_passes_validation :
    broughtUp.1 = .ok () ∧
      broughtUp.2.native.tunnelHandles.map (fun h => validateTunnelOrThrow h.2.tun
        GoBackend.applicationId (fun _ => { direct := some 204, tunnel := none })
        (some (jstr "London"))) = [.ok ()] := by
  decide +kernel

end WgTunnelValidator
end AioVpn
