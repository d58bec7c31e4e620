import AioVpn.Backend.VpnBuilder

/-!
# The handle table of the Go library

`wgTurnOn` and `wgTurnOff` of `api-android.go`.  A device is created on the tunnel
descriptor, configured and brought up, and then entered in the map `tunnelHandles`
under the first free handle; every failure on the way returns `-1`.  `wgTurnOff`
takes an entry out of the map and closes its device.

The model numbers the devices in the order of their creation and keeps two
histories the source does not have: the devices that were ever entered in the map,
and the devices `Close` was called on.  They are what "leaked" and "closed twice"
mean.

* `wgTurnOn_cases`: a failure leaves the map alone, a success adds one entry under
  a handle that was free.
* `Native.Sound`: every entered device is in the map or closed, never both, and no
  device is closed twice.  Both calls keep it.
-/

namespace AioVpn

/-- `TunnelHandle`, with the interface its descriptor belongs to and the settings
the device was configured with. -/
structure TunnelHandle where
  device : ℕ
  /-- The UAPI listener could be opened. -/
  uapi : Bool
  tun : VpnBuilder
  /-- The settings passed to `IpcSet`. -/
  settings : JString

/-- The outcomes of the calls `wgTurnOn` makes. -/
structure NativeEnv where
  /-- `CreateUnmonitoredTUNFromFD` succeeds. -/
  createTun : Bool := true
  ipcSet : Bool := true
  /-- `UAPIOpen` and `UAPIListen` succeed. -/
  uapi : Bool := true
  up : Bool := true

/-- The state of the library. -/
structure Native where
  tunnelHandles : List (ℤ × TunnelHandle) := []
  /-- The number of devices created. -/
  devices : ℕ := 0
  /-- The devices entered in the map so far. -/
  entered : List ℕ := []
  /-- The devices closed so far, the latest first. -/
  closed : List ℕ := []

namespace Native

/-- The loop for a free handle: `i` counts up while it is a key of the map. -/
def firstFree (handles : List (ℤ × TunnelHandle)) : ℕ → ℤ → Option ℤ
  | 0, _ => none
  | fuel + 1, i => if handles.any (fun h => h.1 = i) then firstFree handles fuel (i + 1) else some i

/-- `math.MaxInt32`. -/
def maxInt32 : ℕ := 2147483647

/-- `wgTurnOn`. -/
def wgTurnOn (env : NativeEnv) (tun : VpnBuilder) (settings : JString) (n : Native) : ℤ × Native :=
  if env.createTun = false then (-1, n)
  else
    let device := n.devices
    let n := { n with devices := n.devices + 1 }
    -- the device is not closed when the settings are refused
    if env.ipcSet = false then (-1, n)
    else if env.up = false then (-1, { n with closed := device :: n.closed })
    else
      match firstFree n.tunnelHandles maxInt32 0 with
      | none => (-1, { n with closed := device :: n.closed })
      | some i =>
          (i, { n with
            tunnelHandles := (i, ⟨device, env.uapi, tun, settings⟩) :: n.tunnelHandles
            entered := device :: n.entered })

/-- `wgTurnOff`. -/
def wgTurnOff (handle : ℤ) (n : Native) : Native :=
  match n.tunnelHandles.find? (fun h => h.1 = handle) with
  | none => n
  | some h =>
      { n with
        tunnelHandles := n.tunnelHandles.filter fun h => h.1 ≠ handle
        closed := h.2.device :: n.closed }

/-- The keys of the map. -/
def keys (n : Native) : List ℤ := n.tunnelHandles.map Prod.fst

/-! ## The loop -/

theorem firstFree_spec {handles : List (ℤ × TunnelHandle)} {fuel : ℕ} {i j : ℤ}
    (h : firstFree handles fuel i = some j) : i ≤ j ∧ j ∉ handles.map Prod.fst := by
  induction fuel generalizing i with
  | zero => exact absurd h (by simp [firstFree])
  | succ fuel ih =>
    rw [firstFree] at h
    split at h
    · obtain ⟨hle, hfree⟩ := ih h
      exact ⟨by omega, hfree⟩
    · rename_i hno
      obtain rfl := Option.some.inj h
      refine ⟨le_refl i, ?_⟩
      intro hmem
      obtain ⟨x, hx, hxi⟩ := List.mem_map.mp hmem
      exact hno (List.any_eq_true.mpr ⟨x, hx, by simpa using hxi⟩)

/-! ## What the calls do -/

/-- **A call of `wgTurnOn`** fails with `-1` and leaves the map as it is, or enters
a new device under a handle that was free. -/
theorem wgTurnOn_cases (env : NativeEnv) (tun : VpnBuilder) (settings : JString) (n : Native) :
    ((wgTurnOn env tun settings n).1 = -1 ∧
      (wgTurnOn env tun settings n).2.tunnelHandles = n.tunnelHandles) ∨
    ∃ i, 0 ≤ i ∧ i ∉ n.keys ∧ wgTurnOn env tun settings n =
      (i, { n with
        devices := n.devices + 1
        tunnelHandles := (i, ⟨n.devices, env.uapi, tun, settings⟩) :: n.tunnelHandles
        entered := n.devices :: n.entered }) := by
  unfold wgTurnOn
  split
  · exact Or.inl ⟨rfl, rfl⟩
  · dsimp only
    split
    · exact Or.inl ⟨rfl, rfl⟩
    · split
      · exact Or.inl ⟨rfl, rfl⟩
      · cases hfree : firstFree n.tunnelHandles maxInt32 0 with
        | none => exact Or.inl ⟨rfl, rfl⟩
        | some i =>
          obtain ⟨hle, hnot⟩ := firstFree_spec hfree
          exact Or.inr ⟨i, hle, hnot, rfl⟩

/-- Turning off the only entry empties the map and closes its device. -/
theorem wgTurnOff_singleton {n : Native} {i : ℤ} {h : TunnelHandle}
    (hn : n.tunnelHandles = [(i, h)]) :
    wgTurnOff i n = { n with tunnelHandles := [], closed := h.device :: n.closed } := by
  simp [wgTurnOff, hn]

/-! ## No leak, no double close -/

/-- **The histories are consistent.**  Every device entered in the map is there or
has been closed, not both, and no device is closed twice. -/
structure Sound (n : Native) : Prop where
  /-- A device in the map was entered and is not closed. -/
  open_of_mem : ∀ h ∈ n.tunnelHandles, h.2.device ∈ n.entered ∧ h.2.device ∉ n.closed
  /-- An entered device is in the map or closed. -/
  entered_cases : ∀ d ∈ n.entered, d ∈ n.closed ∨ ∃ h ∈ n.tunnelHandles, h.2.device = d
  closed_nodup : n.closed.Nodup
  /-- Only devices that exist are in the histories. -/
  lt_devices : ∀ d ∈ n.entered ++ n.closed, d < n.devices

theorem sound_init : Sound {} where
  open_of_mem := by simp
  entered_cases := by simp
  closed_nodup := List.nodup_nil
  lt_devices := by simp

/-- Creating a device that never reaches the map keeps the histories consistent,
whether it is closed or not. -/
theorem Sound.create {n : Native} (hn : n.Sound) (close : Bool) :
    Sound { n with
      devices := n.devices + 1
      closed := if close then n.devices :: n.closed else n.closed } := by
  have hfresh : ∀ d ∈ n.entered ++ n.closed, d ≠ n.devices := fun d hd =>
    Nat.ne_of_lt (hn.lt_devices d hd)
  constructor
  · intro h hh
    obtain ⟨hin, hout⟩ := hn.open_of_mem h hh
    refine ⟨hin, ?_⟩
    have hne := hfresh _ (List.mem_append_left _ hin)
    cases close <;> simp [hout, hne]
  · intro d hd
    rcases hn.entered_cases d hd with hc | hh
    · left
      cases close <;> simp [hc]
    · exact Or.inr hh
  · cases close with
    | false => simpa using hn.closed_nodup
    | true =>
      simp only [if_true, List.nodup_cons]
      exact ⟨fun h => hfresh _ (List.mem_append_right _ h) rfl, hn.closed_nodup⟩
  · intro d hd
    have hlt : d ∈ n.entered ++ n.closed → d < n.devices + 1 := fun h =>
      Nat.lt_succ_of_lt (hn.lt_devices d h)
    cases close with
    | false => exact hlt (by simpa using hd)
    | true =>
      simp only [if_true, List.mem_append, List.mem_cons] at hd
      rcases hd with hd | rfl | hd
      · exact hlt (List.mem_append_left _ hd)
      · exact Nat.lt_succ_self _
      · exact hlt (List.mem_append_right _ hd)

/-- Entering a new device keeps the histories consistent. -/
theorem Sound.enter {n : Native} (hn : n.Sound) (i : ℤ) (uapi : Bool) (tun : VpnBuilder)
    (settings : JString) :
    Sound { n with
      devices := n.devices + 1
      tunnelHandles := (i, ⟨n.devices, uapi, tun, settings⟩) :: n.tunnelHandles
      entered := n.devices :: n.entered } := by
  have hnew : n.devices ∉ n.closed := fun h =>
    Nat.lt_irrefl _ (hn.lt_devices _ (List.mem_append_right _ h))
  constructor
  · intro h hh
    rcases List.mem_cons.mp hh with rfl | hh
    · exact ⟨by simp, hnew⟩
    · obtain ⟨hin, hout⟩ := hn.open_of_mem h hh
      exact ⟨List.mem_cons_of_mem _ hin, hout⟩
  · intro d hd
    rcases List.mem_cons.mp hd with rfl | hd
    · exact Or.inr ⟨_, List.mem_cons_self, rfl⟩
    · rcases hn.entered_cases d hd with hc | ⟨h, hh, hd⟩
      · exact Or.inl hc
      · exact Or.inr ⟨h, List.mem_cons_of_mem _ hh, hd⟩
  · exact hn.closed_nodup
  · intro d hd
    simp only [List.cons_append, List.mem_cons] at hd
    rcases hd with rfl | hd
    · exact Nat.lt_succ_self _
    · exact Nat.lt_succ_of_lt (hn.lt_devices d hd)

theorem Sound.wgTurnOn {n : Native} (hn : n.Sound) (env : NativeEnv) (tun : VpnBuilder)
    (settings : JString) : Sound (wgTurnOn env tun settings n).2 := by
  unfold Native.wgTurnOn
  split
  · exact hn
  · dsimp only
    split
    · exact hn.create false
    · split
      · exact hn.create true
      · split
        · exact hn.create true
        · exact hn.enter _ _ _ _

/-- Closing the only entry keeps the histories consistent. -/
theorem Sound.wgTurnOff_singleton {n : Native} (hn : n.Sound) {i : ℤ} {h : TunnelHandle}
    (hone : n.tunnelHandles = [(i, h)]) : Sound (wgTurnOff i n) := by
  rw [Native.wgTurnOff_singleton hone]
  obtain ⟨hin, hout⟩ := hn.open_of_mem (i, h) (by simp [hone])
  constructor
  · intro x hx
    exact absurd hx (by simp)
  · intro d hd
    refine Or.inl ?_
    rcases hn.entered_cases d hd with hc | ⟨x, hx, rfl⟩
    · exact List.mem_cons_of_mem _ hc
    · rw [hone, List.mem_singleton] at hx
      rw [hx]
      exact List.mem_cons_self
  · exact List.nodup_cons.mpr ⟨hout, hn.closed_nodup⟩
  · intro d hd
    simp only [List.mem_append, List.mem_cons] at hd
    rcases hd with hd | rfl | hd
    · exact hn.lt_devices d (List.mem_append_left _ hd)
    · exact hn.lt_devices _ (List.mem_append_left _ hin)
    · exact hn.lt_devices d (List.mem_append_right _ hd)

end Native
end AioVpn
