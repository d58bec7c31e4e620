import AioVpn.Coroutine.Outline
import AioVpn.Text.JavaString

/-!
# Registering the device

`DeviceRepository.getOrRegisterDeviceToken` looks for a device token, and when there is
none it looks for a device UUID, makes one up if that is missing too, registers it with the
server and stores the token it is given.  `App.onCreate`, `HomeActivity.onCreate` and
`SettingsActivity` each start a call, and nothing keeps the calls apart.

The steps of a call are the reads and writes of the preferences file and the call of the
API.  The server is a function `issue` from UUIDs to tokens.

## What can go wrong

Two calls that both find no UUID make up one each.  The UUID that stays is the one stored
last, the token that stays is the one saved last, and these need not come from the same
call (`two_identities`).  `one_identity` is the positive statement: in every run in which a
call looks for the UUID only while no other call is making one up, the stored token is the
one issued for the stored UUID, and every call has returned it.
-/

namespace AioVpn

open Coroutine

/-- `DeviceTokenStore`. -/
structure DeviceTokenStore where
  deviceUuid : Option JString := none
  deviceToken : Option JString := none
  deriving DecidableEq

/-- `Device token registration failed`, or an answer that is no JSON. -/
inductive DeviceExn where
  | registrationFailed
  deriving DecidableEq

/-- The atomic steps of a call. -/
inductive DeviceOp where
  | getDeviceToken
  /-- `prefs.getString(KEY_DEVICE_UUID, null)`. -/
  | getDeviceUuid
  /-- `UUID.randomUUID().toString()`. -/
  | randomUuid
  /-- `prefs.edit().putString(KEY_DEVICE_UUID, uuid).apply()`. -/
  | putDeviceUuid (uuid : JString)
  /-- `api.registerDeviceToken(uuid, ...)`. -/
  | registerDeviceToken (uuid : JString)
  | saveDeviceToken (token : JString)
  /-- The call with this number returns. -/
  | deliver (call : ℕ) (token : JString)
  deriving DecidableEq

/-- The answers to the steps. -/
@[reducible] def DeviceOp.Res : DeviceOp → Type
  | getDeviceToken => Option JString
  | getDeviceUuid => Option JString
  | randomUuid => JString
  | putDeviceUuid _ => Unit
  | registerDeviceToken _ => Except DeviceExn JString
  | saveDeviceToken _ => Unit
  | deliver _ _ => Unit

/-- What the system and the network answer at one step. -/
structure RegistrationEnv where
  randomUuid : JString := []
  /-- The API call succeeds. -/
  reachable : Bool := true

/-- A body over these steps. -/
abbrev DeviceProg (α : Type) := Prog DeviceOp DeviceOp.Res DeviceExn α

/-- The stored values, and what the calls have returned. -/
structure DeviceState where
  store : DeviceTokenStore := {}
  /-- The number of calls made. -/
  calls : ℕ := 0
  /-- The calls that returned, with the token each one returned. -/
  returned : List (ℕ × JString) := []

namespace DeviceRepository

/-- Where the call is made. -/
inductive Caller where
  | app
  | home
  | settings
  deriving DecidableEq

/-- A call. -/
structure Job where
  call : ℕ
  caller : Caller
  deriving DecidableEq

/-- The answer to a step and the state after it. -/
def perform (issue : JString → JString) :
    (o : DeviceOp) → RegistrationEnv → DeviceState → o.Res × DeviceState
  | .getDeviceToken, _, s => (s.store.deviceToken, s)
  | .getDeviceUuid, _, s => (s.store.deviceUuid, s)
  | .randomUuid, env, s => (env.randomUuid, s)
  | .putDeviceUuid uuid, _, s => ((), { s with store := { s.store with deviceUuid := some uuid } })
  | .registerDeviceToken uuid, env, s =>
      (if env.reachable then .ok (issue uuid) else .error .registrationFailed, s)
  | .saveDeviceToken token, _, s =>
      ((), { s with store := { s.store with deviceToken := some token } })
  | .deliver call token, _, s => ((), { s with returned := (call, token) :: s.returned })

/-! ## The bodies -/

/-- One atomic step of a body. -/
def step (o : DeviceOp) : DeviceProg o.Res := Prog.perform o

/-- `DeviceTokenStore.getOrCreateDeviceUuid`. -/
def getOrCreateDeviceUuid : DeviceProg JString := do
  let existing ← step .getDeviceUuid
  match JString.takeIfNotBlank existing with
  | some existing => pure existing
  | none =>
      let created ← step .randomUuid
      step (.putDeviceUuid created)
      pure created

/-- `getOrRegisterDeviceToken`. -/
def getOrRegisterDeviceToken : DeviceProg JString := do
  let existing ← step .getDeviceToken
  match JString.takeIfNotBlank existing with
  | some existing => pure existing
  | none =>
      let deviceUuid ← getOrCreateDeviceUuid
      let result ← step (.registerDeviceToken deviceUuid)
      let token ← Prog.ofExcept result
      step (.saveDeviceToken token)
      pure token

/-- The calls as a system of coroutines. -/
def system (issue : JString → JString) :
    System DeviceOp DeviceOp.Res DeviceExn RegistrationEnv DeviceState Job Caller where
  perform := perform issue
  body := fun job => do
    let token ← getOrRegisterDeviceToken
    step (.deliver job.call token)
    pure none
  handle := fun caller s => some ({ s with calls := s.calls + 1 }, some ⟨s.calls, caller⟩)

/-- A configuration of the system. -/
abbrev DeviceConf := Conf DeviceOp DeviceOp.Res DeviceExn Job DeviceState

/-- No call is running, and this is what is stored. -/
def start (store : DeviceTokenStore) : DeviceConf := ⟨{ store := store }, []⟩

/-! ## The points of a body -/

/-- A call that has its token. -/
def delivering (call : ℕ) (token : JString) : DeviceProg (Option Job) :=
  .op (.deliver call token) fun _ => .pure none

/-- A call that was given a token. -/
def saving (call : ℕ) (token : JString) : DeviceProg (Option Job) :=
  .op (.saveDeviceToken token) fun _ => delivering call token

/-- A call that has a UUID. -/
def registering (call : ℕ) (uuid : JString) : DeviceProg (Option Job) :=
  .op (.registerDeviceToken uuid) fun result =>
    match result with
    | .ok token => saving call token
    | .error e => .throw e

/-- A call that has made up a UUID. -/
def storing (call : ℕ) (uuid : JString) : DeviceProg (Option Job) :=
  .op (.putDeviceUuid uuid) fun _ => registering call uuid

/-- A call that has found no UUID. -/
def creating (call : ℕ) : DeviceProg (Option Job) := .op .randomUuid fun uuid => storing call uuid

/-- A call that has found no token. -/
def lookingUp (call : ℕ) : DeviceProg (Option Job) :=
  .op .getDeviceUuid fun existing =>
    match JString.takeIfNotBlank existing with
    | some uuid => registering call uuid
    | none => creating call

theorem body_eq (issue : JString → JString) (job : Job) :
    (system issue).body job = .op .getDeviceToken fun existing =>
      match JString.takeIfNotBlank existing with
      | some token => delivering job.call token
      | none => lookingUp job.call := by
  have hregister : ∀ uuid, (((step (.registerDeviceToken uuid)).bind fun result =>
      (Prog.ofExcept result).bind fun token => (step (.saveDeviceToken token)).bind fun _ =>
        (Prog.pure token : DeviceProg JString)).bind fun token =>
          (step (.deliver job.call token)).bind fun _ => .pure none) =
      registering job.call uuid := by
    intro uuid
    refine congrArg (Prog.op _) (funext fun result => ?_)
    cases result <;> rfl
  refine congrArg (Prog.op _) (funext fun existing => ?_)
  simp only [Prog.pure_bind]
  cases JString.takeIfNotBlank existing with
  | some token => rfl
  | none =>
    refine congrArg (Prog.op _) (funext fun existing => ?_)
    simp only [Prog.pure_bind]
    cases JString.takeIfNotBlank existing with
    | some uuid => exact hregister uuid
    | none =>
      refine congrArg (Prog.op _) (funext fun uuid => ?_)
      exact congrArg (Prog.op _) (funext fun _ => hregister uuid)

/-! ## The runs considered -/

/-- Every API call succeeds, and a UUID that is made up is not blank. -/
def answering (c : DeviceConf) : Act Caller RegistrationEnv → Bool
  | .event _ => true
  | .step i env =>
      match c.threads[i]? with
      | some ⟨_, .op (.registerDeviceToken _) _⟩ => env.reachable
      | some ⟨_, .op .randomUuid _⟩ => !JString.isBlank env.randomUuid
      | _ => true

/-- The call has found no UUID and has not stored one yet. -/
def makesUp (p : DeviceProg (Option Job)) : Bool :=
  match p.nextOp with
  | some .randomUuid => true
  | some (.putDeviceUuid _) => true
  | _ => false

/-- A call looks for the UUID only while no other call is making one up. -/
def inTurn (c : DeviceConf) : Act Caller RegistrationEnv → Bool
  | .event _ => true
  | .step i _ =>
      match c.threads[i]? with
      | some ⟨_, .op .getDeviceUuid _⟩ => c.threads.all fun t => !makesUp t.body
      | _ => true

/-- The side condition of the runs below. -/
def orderly (c : DeviceConf) (a : Act Caller RegistrationEnv) : Bool := answering c a && inTurn c a

/-- All calls have finished. -/
def Finished (c : DeviceConf) : Prop := ∀ t ∈ c.threads, t.body.running = false

instance (c : DeviceConf) : Decidable (Finished c) :=
  inferInstanceAs (Decidable (∀ t ∈ c.threads, t.body.running = false))

/-! ## The outline -/

section Outline

variable (issue : JString → JString)

/-- The token is stored, and it is the one issued for the stored UUID. -/
def Registered (s : DeviceState) (token : JString) : Prop :=
  ∃ uuid, s.store.deviceUuid = some uuid ∧ JString.isBlank uuid = false ∧ token = issue uuid ∧
    s.store.deviceToken = some token

/-- **What is true all the time.**  A token that is found is registered, and so is every
token that was returned. -/
structure Consistent (s : DeviceState) : Prop where
  found : ∀ token, JString.takeIfNotBlank s.store.deviceToken = some token →
    Registered issue s token
  returned : ∀ r ∈ s.returned, Registered issue s r.2

/-- What is true at each point of a call. -/
inductive At (call : ℕ) (s : DeviceState) : DeviceProg (Option Job) → Prop where
  | started (caller : Caller) : At call s ((system issue).body ⟨call, caller⟩)
  | lookingUp : At call s (lookingUp call)
  | creating (h : JString.takeIfNotBlank s.store.deviceUuid = none) : At call s (creating call)
  | storing (uuid : JString) (hblank : JString.isBlank uuid = false)
      (h : JString.takeIfNotBlank s.store.deviceUuid = none) : At call s (storing call uuid)
  | registering (uuid : JString) (hblank : JString.isBlank uuid = false)
      (h : s.store.deviceUuid = some uuid) : At call s (registering call uuid)
  | saving (uuid : JString) (hblank : JString.isBlank uuid = false)
      (h : s.store.deviceUuid = some uuid) : At call s (saving call (issue uuid))
  | delivering (token : JString) (h : Registered issue s token) : At call s (delivering call token)
  | done (token : JString) (h : (call, token) ∈ s.returned) : At call s (.pure none)

/-- What a step can do to the state. -/
inductive Move (s : DeviceState) : DeviceState → Prop where
  | same : Move s s
  | called : Move s { s with calls := s.calls + 1 }
  | stored (uuid : JString) (h : JString.takeIfNotBlank s.store.deviceUuid = none) :
      Move s { s with store := { s.store with deviceUuid := some uuid } }
  | saved (uuid : JString) (hblank : JString.isBlank uuid = false)
      (h : s.store.deviceUuid = some uuid) :
      Move s { s with store := { s.store with deviceToken := some (issue uuid) } }
  | delivered (call : ℕ) (token : JString) (h : Registered issue s token) :
      Move s { s with returned := (call, token) :: s.returned }

/-- The outline of the calls. -/
def outline : Outline DeviceOp DeviceOp.Res DeviceExn DeviceState Job where
  inv := Consistent issue
  holds := fun job p s => At issue job.call s p

variable {issue}

/-- A UUID that is not blank is not replaced. -/
theorem Move.deviceUuid {s s' : DeviceState} (h : Move issue s s') {uuid : JString}
    (huuid : s.store.deviceUuid = some uuid) (hblank : JString.isBlank uuid = false) :
    s'.store.deviceUuid = some uuid := by
  cases h with
  | same => exact huuid
  | called => exact huuid
  | stored uuid' hnone =>
    rw [huuid, JString.takeIfNotBlank_some hblank] at hnone
    exact absurd hnone (by simp)
  | saved uuid' _ _ => exact huuid
  | delivered call token _ => exact huuid

/-- What is registered stays registered: the UUID is not replaced, and a token that is
saved is the one issued for it. -/
theorem Move.registered {s s' : DeviceState} (h : Move issue s s') {token : JString}
    (hreg : Registered issue s token) : Registered issue s' token := by
  obtain ⟨uuid, huuid, hblank, rfl, htoken⟩ := hreg
  refine ⟨uuid, h.deviceUuid huuid hblank, hblank, rfl, ?_⟩
  cases h with
  | same => exact htoken
  | called => exact htoken
  | stored uuid' _ => exact htoken
  | saved uuid' _ huuid' =>
    obtain rfl := Option.some.inj (huuid'.symm.trans huuid)
    rfl
  | delivered call token _ => exact htoken

theorem Move.returned {s s' : DeviceState} (h : Move issue s s') {r : ℕ × JString}
    (hr : r ∈ s.returned) : r ∈ s'.returned := by
  cases h with
  | delivered call token _ => exact List.mem_cons_of_mem _ hr
  | _ => exact hr

theorem Move.consistent {s s' : DeviceState} (h : Move issue s s') (hs : Consistent issue s) :
    Consistent issue s' := by
  have hreg : ∀ token, Registered issue s token → Registered issue s' token :=
    fun _ => h.registered
  constructor
  · intro token htoken
    cases h with
    | saved uuid hblank huuid =>
      obtain ⟨htoken, -⟩ := JString.takeIfNotBlank_eq_some.mp htoken
      obtain rfl := Option.some.inj htoken
      exact ⟨uuid, huuid, hblank, rfl, rfl⟩
    | same => exact hs.found token htoken
    | called => exact hreg token (hs.found token htoken)
    | stored uuid _ => exact hreg token (hs.found token htoken)
    | delivered call token' _ => exact hreg token (hs.found token htoken)
  · intro r hr
    cases h with
    | delivered call token hnew =>
      rcases List.mem_cons.mp hr with rfl | hr
      · exact hreg token hnew
      · exact hreg r.2 (hs.returned r hr)
    | same => exact hs.returned r hr
    | called => exact hreg r.2 (hs.returned r hr)
    | stored uuid _ => exact hreg r.2 (hs.returned r hr)
    | saved uuid _ _ => exact hreg r.2 (hs.returned r hr)

/-- **What others do** does not disturb a call, unless it is making up a UUID while
another one is stored. -/
theorem At.kept {call : ℕ} {s s' : DeviceState} {p : DeviceProg (Option Job)}
    (h : At issue call s p) (hmove : Move issue s s')
    (hout : s'.store.deviceUuid = s.store.deviceUuid ∨ makesUp p = false) :
    At issue call s' p := by
  cases h with
  | started caller => exact .started caller
  | lookingUp => exact .lookingUp
  | creating hnone =>
    rcases hout with hsame | hout
    · exact .creating (hsame ▸ hnone)
    · exact absurd hout Bool.false_ne_true.symm
  | storing uuid hblank hnone =>
    rcases hout with hsame | hout
    · exact .storing uuid hblank (hsame ▸ hnone)
    · exact absurd hout Bool.false_ne_true.symm
  | registering uuid hblank huuid => exact .registering uuid hblank (hmove.deviceUuid huuid hblank)
  | saving uuid hblank huuid => exact .saving uuid hblank (hmove.deviceUuid huuid hblank)
  | delivering token hreg => exact .delivering token (hmove.registered hreg)
  | done token hmem => exact .done token (hmove.returned hmem)

/-- **One step of a call** leads to the next point of its outline.  It stores a UUID only
while it is making one up. -/
theorem At.step {call : ℕ} {s : DeviceState} {o : DeviceOp} {k : o.Res → DeviceProg (Option Job)}
    (h : At issue call s (.op o k)) (hs : Consistent issue s) {env : RegistrationEnv}
    (hanswer : ∀ uuid, o = .registerDeviceToken uuid → env.reachable = true)
    (hrandom : o = .randomUuid → JString.isBlank env.randomUuid = false) :
    At issue call (perform issue o env s).2 (k (perform issue o env s).1) ∧
      Move issue s (perform issue o env s).2 ∧
      ((perform issue o env s).2.store.deviceUuid = s.store.deviceUuid ∨
        makesUp (.op o k) = true) := by
  generalize hp : Prog.op o k = p at h
  cases h with
  | started caller =>
    rw [body_eq] at hp
    cases hp
    refine ⟨?_, .same, Or.inl rfl⟩
    show At issue call s (match JString.takeIfNotBlank s.store.deviceToken with
      | some token => DeviceRepository.delivering call token
      | none => DeviceRepository.lookingUp call)
    cases hfound : JString.takeIfNotBlank s.store.deviceToken with
    | some token => exact .delivering token (hs.found token hfound)
    | none => exact .lookingUp
  | lookingUp =>
    cases hp
    refine ⟨?_, .same, Or.inl rfl⟩
    show At issue call s (match JString.takeIfNotBlank s.store.deviceUuid with
      | some uuid => DeviceRepository.registering call uuid
      | none => DeviceRepository.creating call)
    cases hfound : JString.takeIfNotBlank s.store.deviceUuid with
    | some uuid =>
      obtain ⟨huuid, hblank⟩ := JString.takeIfNotBlank_eq_some.mp hfound
      exact .registering uuid hblank huuid
    | none => exact .creating hfound
  | creating hnone =>
    cases hp
    exact ⟨.storing env.randomUuid (hrandom rfl) hnone, .same, Or.inl rfl⟩
  | storing uuid hblank hnone =>
    cases hp
    exact ⟨.registering uuid hblank rfl, .stored uuid hnone, Or.inr rfl⟩
  | registering uuid hblank huuid =>
    cases hp
    refine ⟨?_, .same, Or.inl rfl⟩
    have hok : (perform issue (.registerDeviceToken uuid) env s).1 = .ok (issue uuid) := by
      rw [perform, hanswer uuid rfl, if_pos rfl]
    rw [hok]
    exact .saving uuid hblank huuid
  | saving uuid hblank huuid =>
    cases hp
    exact ⟨.delivering _ ⟨uuid, huuid, hblank, rfl, rfl⟩, .saved uuid hblank huuid, Or.inl rfl⟩
  | delivering token hreg =>
    cases hp
    exact ⟨.done token List.mem_cons_self, .delivered call token hreg, Or.inl rfl⟩
  | done token hmem => exact absurd hp (by simp)

end Outline

/-- A call starts to make up a UUID when it looks for one. -/
theorem At.enters {issue : JString → JString} {call : ℕ} {s : DeviceState} {o : DeviceOp}
    {k : o.Res → DeviceProg (Option Job)} (h : At issue call s (.op o k)) (env : RegistrationEnv)
    (hin : makesUp (k (perform issue o env s).1) = true) :
    makesUp (.op o k) = true ∨ o = .getDeviceUuid := by
  generalize hp : Prog.op o k = p at h
  cases h with
  | started caller =>
    rw [body_eq] at hp
    cases hp
    have hnext : makesUp (match JString.takeIfNotBlank s.store.deviceToken with
      | some token => DeviceRepository.delivering call token
      | none => DeviceRepository.lookingUp call) = true := hin
    cases hfound : JString.takeIfNotBlank s.store.deviceToken <;> rw [hfound] at hnext <;>
      exact absurd hnext Bool.false_ne_true
  | lookingUp =>
    cases hp
    exact Or.inr rfl
  | creating _ =>
    cases hp
    exact Or.inl rfl
  | storing uuid _ _ =>
    cases hp
    exact Or.inl rfl
  | registering uuid _ _ =>
    cases hp
    have hnext : makesUp (match (perform issue (.registerDeviceToken uuid) env s).1 with
      | .ok token => DeviceRepository.saving call token
      | .error e => .throw e) = true := hin
    cases hanswer : (perform issue (.registerDeviceToken uuid) env s).1 <;>
      rw [hanswer] at hnext <;> exact absurd hnext Bool.false_ne_true
  | saving uuid _ _ =>
    cases hp
    exact Or.inl hin
  | delivering token _ =>
    cases hp
    exact Or.inl hin
  | done token _ => exact absurd hp (by simp)

/-- A call launches nothing. -/
theorem At.launched {issue : JString → JString} {call : ℕ} {s : DeviceState}
    {p : DeviceProg (Option Job)} (h : At issue call s p) : p.launched = none := by
  cases h <;> rfl

/-! ## One identity -/

section Runs

variable (issue : JString → JString)

/-- The outline is sound in the runs in which at most one call is making up a UUID. -/
theorem outline_sound : (outline issue).Sound (system issue) fun c a =>
    orderly c a = true ∧ AtMostOne (fun t => makesUp t.body = true) c where
  event := by
    intro c caller s' job hc _ hhandle
    obtain ⟨rfl, rfl⟩ := Prod.mk.inj (Option.some.inj hhandle)
    refine ⟨Move.called.consistent hc.inv, ?_, ?_⟩
    · exact fun t ht => (hc.thread t ht).kept .called (Or.inl rfl)
    · rintro job' hjob
      obtain rfl := Option.some.inj hjob
      exact .started caller
  step := by
    rintro c i env job o k hc ⟨hok, hone⟩ hi hat
    obtain ⟨hanswering, -⟩ := Bool.and_eq_true_iff.mp hok
    have hanswer : ∀ uuid, o = .registerDeviceToken uuid → env.reachable = true := by
      rintro uuid rfl
      simpa [answering, hi] using hanswering
    have hrandom : o = .randomUuid → JString.isBlank env.randomUuid = false := by
      rintro rfl
      simpa [answering, hi] using hanswering
    obtain ⟨hnext, hmove, hout⟩ := At.step hat hc.inv hanswer hrandom
    refine ⟨hnext, hmove.consistent hc.inv, ?_, ?_⟩
    · rintro t ⟨l, hl, ht⟩
      refine (hc.thread t (List.mem_of_getElem? ht)).kept hmove (hout.imp_right fun hin => ?_)
      -- the call that stores a UUID is the only one that is making one up
      by_contra hother
      exact hl (hone l i t _ ht hi (by simpa using hother) hin)
    · intro job' hjob
      exact absurd (hnext.launched.symm.trans hjob) (by simp)

/-- A call starts to make up a UUID only while no other one is doing so. -/
theorem atMostOne_next {c c' : DeviceConf} {a : Act Caller RegistrationEnv}
    (hvalid : (outline issue).Valid c) (hone : AtMostOne (fun t => makesUp t.body = true) c)
    (hok : orderly c a = true) (hnext : (system issue).next c a = some c') :
    AtMostOne (fun t => makesUp t.body = true) c' := by
  refine AtMostOne.next (fun c a => orderly c a = true ∧ (outline issue).Valid c) ?_ ?_ hone
    ⟨hok, hvalid⟩ hnext
  · intro job hin
    rw [body_eq] at hin
    exact absurd hin Bool.false_ne_true
  · rintro c i env job o k ⟨hok, hvalid⟩ hi hin
    have hat : At issue job.call c.shared (.op o k) := hvalid.thread _ (List.mem_of_getElem? hi)
    refine (hat.enters env hin).imp_right ?_
    rintro rfl t ht
    obtain ⟨-, hturn⟩ := Bool.and_eq_true_iff.mp hok
    have hall : c.threads.all (fun t => !makesUp t.body) = true := by
      simpa [inTurn, hi] using hturn
    simpa using List.all_eq_true.mp hall t ht

theorem valid_of_run {c d : DeviceConf}
    (hrun : (system issue).Run (fun c a => orderly c a = true) c d)
    (hvalid : (outline issue).Valid c) (hone : AtMostOne (fun t => makesUp t.body = true) c) :
    (outline issue).Valid d := by
  have hboth : (outline issue).Valid d ∧ AtMostOne (fun t => makesUp t.body = true) d := by
    refine hrun.invariant (P := fun c => (outline issue).Valid c ∧ AtMostOne _ c)
      ⟨hvalid, hone⟩ ?_
    rintro c c' a ⟨hvalid, hone⟩ hok hnext
    exact ⟨(outline_sound issue).valid_next hvalid ⟨hok, hone⟩ hnext,
      atMostOne_next issue hvalid hone hok hnext⟩
  exact hboth.1

/-- **The device registers one identity.**  Start from a store in which a token, if there
is one, is the one issued for the stored UUID.  In every interleaving of any number of
calls, every API call succeeding, in which a call looks for the UUID only while no other
call is making one up: once all calls have finished and there was one, a UUID is stored,
the stored token is the one issued for it, and every call has returned that token. -/
theorem one_identity (store : DeviceTokenStore)
    (hstore : ∀ token, JString.takeIfNotBlank store.deviceToken = some token →
      ∃ uuid, store.deviceUuid = some uuid ∧ JString.isBlank uuid = false ∧ token = issue uuid)
    (d : DeviceConf)
    (hrun : (system issue).Run (fun c a => orderly c a = true) (start store) d)
    (hdone : Finished d) (hcall : d.threads ≠ []) :
    ∃ uuid, d.shared.store.deviceUuid = some uuid ∧
      d.shared.store.deviceToken = some (issue uuid) ∧
      ∀ t ∈ d.threads, t.body = .pure none ∧ (t.job.call, issue uuid) ∈ d.shared.returned ∧
        ∀ r ∈ d.shared.returned, r.2 = issue uuid := by
  have hvalid : (outline issue).Valid d := by
    refine valid_of_run issue hrun ⟨⟨?_, by simp [start]⟩, by simp [start]⟩ ?_
    · intro token htoken
      obtain ⟨uuid, huuid, hblank, heq⟩ := hstore token htoken
      exact ⟨uuid, huuid, hblank, heq, (JString.takeIfNotBlank_eq_some.mp htoken).1⟩
    · intro i l t u hi
      exact absurd hi (by simp [start])
  -- a call that has finished has returned
  have hreturned : ∀ t ∈ d.threads, t.body = .pure none ∧
      ∃ token, (t.job.call, token) ∈ d.shared.returned := by
    intro t ht
    have hat : At issue t.job.call d.shared t.body := hvalid.thread t ht
    have hend := hdone t ht
    generalize t.body = p at hat hend
    cases hat with
    | done token hmem => exact ⟨rfl, token, hmem⟩
    | _ => exact absurd hend Bool.false_ne_true.symm
  obtain ⟨t, rest, hthreads⟩ := List.exists_cons_of_ne_nil hcall
  obtain ⟨-, token, hmem⟩ := hreturned t (by rw [hthreads]; exact List.mem_cons_self)
  obtain ⟨uuid, huuid, -, htoken, hstored⟩ := hvalid.inv.returned _ hmem
  -- whatever was returned is the stored token
  have hall : ∀ r ∈ d.shared.returned, r.2 = issue uuid := by
    intro r hr
    obtain ⟨-, -, -, -, hstored'⟩ := hvalid.inv.returned r hr
    rw [← htoken]
    exact Option.some.inj (hstored'.symm.trans hstored)
  refine ⟨uuid, huuid, htoken ▸ hstored, fun u hu => ?_⟩
  obtain ⟨hbody, token', hmem'⟩ := hreturned u hu
  refine ⟨hbody, ?_, hall⟩
  rw [← hall _ hmem']
  exact hmem'

end Runs

/-- A server whose tokens tell the UUIDs apart. -/
def tokenFor (uuid : JString) : JString := jstr "token-" ++ uuid

/-- The steps of a call, made with this UUID if one is made up. -/
def steps (i n : ℕ) (uuid : JString) : List (Act Caller RegistrationEnv) :=
  List.replicate n (.step i { randomUuid := uuid })

/-- The theorem for two calls at the first start: the second one looks for the UUID when
the first one has stored it, and is the first one to finish. -/
theorem one_identity_two_calls :
    let d := ((system tokenFor).exec orderly (start {})
      ([.event .app, .event .home] ++ steps 0 1 (jstr "a") ++ steps 1 1 (jstr "b") ++
        steps 0 3 (jstr "a") ++ steps 1 4 (jstr "b") ++ steps 0 3 (jstr "a"))).get
      (by decide +kernel)
    ∃ uuid, d.shared.store.deviceUuid = some uuid ∧
      d.shared.store.deviceToken = some (tokenFor uuid) ∧
      ∀ t ∈ d.threads, t.body = .pure none ∧ (t.job.call, tokenFor uuid) ∈ d.shared.returned ∧
        ∀ r ∈ d.shared.returned, r.2 = tokenFor uuid :=
  one_identity tokenFor {} (by simp) _
    (System.Run.of_exec (fun _ _ h => h) .refl (Option.some_get _).symm)
    (by decide +kernel) (by decide +kernel)

/-- **Two identities.**  At the first start two calls find no UUID and make up one each.
The second call stores its UUID last and saves its token first: the UUID that is stored is
the second one, the token is the one issued for the first, and the calls have returned
different tokens. -/
theorem two_identities :
    ((system tokenFor).exec answering (start {})
      ([.event .app, .event .home] ++ steps 0 3 (jstr "a") ++ steps 1 3 (jstr "b") ++
        steps 0 1 (jstr "a") ++ steps 1 4 (jstr "b") ++ steps 0 3 (jstr "a"))).map
      (fun d => (decide (Finished d), d.shared.store, d.shared.returned)) =
      some (true, ⟨some (jstr "b"), some (tokenFor (jstr "a"))⟩,
        [(0, tokenFor (jstr "a")), (1, tokenFor (jstr "b"))]) := by
  decide +kernel

end DeviceRepository
end AioVpn
