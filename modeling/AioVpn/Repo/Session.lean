import AioVpn.Coroutine.Outline
import AioVpn.Text.JavaString

/-!
# Logging in and out

`login`, `logout` and `refreshProfile` of `VpnRepository` over the preferences file of
`TokenStore`.  `AccountActivity` starts `refreshProfile` when it opens, and its button
starts `logout` while that is going on.

The steps are the reads of the token, the calls of the API and the writes of the store,
each of them atomic.  The state keeps a history the source does not have: the writes, with
the call that made each of them.

## What can go wrong

`refreshProfile` reads the token, asks the server for the profile, and writes the token it
has read back together with the profile.  A logout or another login that falls in between
is undone (`logout_undone_by_refresh`).  In every run in which the store is cleared, and
the token of a login saved, only while no `refreshProfile` is between its read and its
write, the stored token is the one of the last login or logout
(`logout_stays_logged_out`).
-/

namespace AioVpn

open Coroutine

/-- The preferences file of `TokenStore`. -/
structure TokenStore where
  token : Option JString := none
  username : Option JString := none
  expiry : Option JString := none
  devicesAllowed : Option ℤ := none
  deriving DecidableEq

/-- `UserDto`. -/
structure UserDto where
  username : JString
  expires : Option JString := none
  maxConn : Option ℤ := none

/-- `LoginResponse`. -/
structure LoginResponse where
  token : JString
  user : Option UserDto := none

/-- `ProfileResponse`. -/
structure ProfileResponse where
  username : JString
  expires : Option JString := none
  maxConn : Option ℤ := none

namespace Session

/-- The exceptions of the calls. -/
inductive SessionExn where
  /-- An `IOException` of the API. -/
  | api
  /-- `No token (user not logged in)`. -/
  | notLoggedIn
  deriving DecidableEq

/-- The calls that write a token. -/
inductive Writer where
  | login
  | refreshProfile
  deriving DecidableEq

/-- A write of the store. -/
inductive Write where
  | saved (writer : Writer) (token : JString)
  | cleared
  deriving DecidableEq

/-- The atomic steps. -/
inductive SessionOp where
  | getToken
  /-- `api.login(username, password)`. -/
  | apiLogin (username password : JString)
  /-- `api.profile(token)`. -/
  | apiProfile (token : JString)
  /-- `api.logout(token)`. -/
  | apiLogout (token : JString)
  | saveAuth (writer : Writer) (token username : JString) (expiry : Option JString)
      (devicesAllowed : Option ℤ)
  | clear

/-- The answers to the steps. -/
@[reducible] def SessionOp.Res : SessionOp → Type
  | getToken => Option JString
  | apiLogin _ _ => Except SessionExn LoginResponse
  | apiProfile _ => Except SessionExn ProfileResponse
  | apiLogout _ => Except SessionExn Unit
  | saveAuth _ _ _ _ _ => Unit
  | clear => Unit

/-- What the server answers at one step. -/
structure SessionEnv where
  login : Except SessionExn LoginResponse := .error .api
  profile : Except SessionExn ProfileResponse := .error .api
  logout : Except SessionExn Unit := .error .api

/-- A body over these steps. -/
abbrev SessionProg (α : Type) := Prog SessionOp SessionOp.Res SessionExn α

/-- The store, and the writes made to it, the latest first. -/
structure SessionState where
  store : TokenStore := {}
  writes : List Write := []

/-- The answer to a step and the state after it. -/
def perform : (o : SessionOp) → SessionEnv → SessionState → o.Res × SessionState
  | .getToken, _, s => (s.store.token, s)
  | .apiLogin _ _, env, s => (env.login, s)
  | .apiProfile _, env, s => (env.profile, s)
  | .apiLogout _, env, s => (env.logout, s)
  | .saveAuth writer token username expiry devicesAllowed, _, s =>
      ((), { store := ⟨some token, some username, expiry, devicesAllowed⟩
             writes := .saved writer token :: s.writes })
  | .clear, _, s => ((), { store := {}, writes := .cleared :: s.writes })

/-! ## The bodies -/

/-- One atomic step of a body. -/
def step (o : SessionOp) : SessionProg o.Res := Prog.perform o

/-- `requireToken`. -/
def requireToken : SessionProg JString := do
  let token ← step .getToken
  match JString.takeIfNotBlank token with
  | some token => pure token
  | none => .throw .notLoggedIn

/-- `login`. -/
def login (username password : JString) : SessionProg Unit := do
  let result ← step (.apiLogin (JString.kotlinTrim username) password)
  let response ← Prog.ofExcept result
  step (.saveAuth .login response.token
    ((response.user.map UserDto.username).getD (JString.kotlinTrim username))
    (response.user.bind UserDto.expires) (response.user.bind UserDto.maxConn))

/-- `refreshProfile`. -/
def refreshProfile : SessionProg Unit := do
  let token ← requireToken
  let result ← step (.apiProfile token)
  let profile ← Prog.ofExcept result
  step (.saveAuth .refreshProfile token profile.username profile.expires profile.maxConn)

/-- `logout`. -/
def logout : SessionProg Unit := do
  let token ← step .getToken
  match JString.takeIfNotBlank token with
  | some token =>
      Prog.tryCatch
        (do
          let result ← step (.apiLogout token)
          Prog.ofExcept result)
        (fun _ : SessionExn => pure ())
      step .clear
  | none => step .clear

/-- The calls. -/
inductive Job where
  | login (username password : JString)
  | logout
  | refreshProfile
  deriving DecidableEq

/-- The body of a call. -/
def bodyOf : Job → SessionProg Unit
  | .login username password => login username password
  | .logout => logout
  | .refreshProfile => refreshProfile

/-- The calls as a system of coroutines; an event is a call. -/
def system : System SessionOp SessionOp.Res SessionExn SessionEnv SessionState Job Job where
  perform := perform
  body := fun job => do
    bodyOf job
    pure none
  handle := fun job s => some (s, some job)

/-- A configuration of the system. -/
abbrev SessionConf := Conf SessionOp SessionOp.Res SessionExn Job SessionState

/-- No call is running, and this is what is stored. -/
def start (store : TokenStore) : SessionConf := ⟨{ store := store }, []⟩

/-! ## The runs considered -/

/-- A `refreshProfile` that has read its token and has not written it back. -/
def refreshes (p : SessionProg (Option Job)) : Bool :=
  match p.nextOp with
  | some (.apiProfile _) => true
  | some (.saveAuth .refreshProfile _ _ _ _) => true
  | _ => false

/-- The store is cleared, and the token of a login is saved, only while no
`refreshProfile` is between its read and its write. -/
def apart (c : SessionConf) : Act Job SessionEnv → Bool
  | .event _ => true
  | .step i _ =>
      match c.threads[i]? with
      | some ⟨_, .op .clear _⟩ => c.threads.all fun t => !refreshes t.body
      | some ⟨_, .op (.saveAuth .login _ _ _ _) _⟩ => c.threads.all fun t => !refreshes t.body
      | _ => true

/-! ## The points of `refreshProfile` -/

/-- A `refreshProfile` that has the profile. -/
def saving (token : JString) (profile : ProfileResponse) : SessionProg (Option Job) :=
  .op (.saveAuth .refreshProfile token profile.username profile.expires profile.maxConn)
    fun _ => .pure none

/-- A `refreshProfile` that has read the token. -/
def asking (token : JString) : SessionProg (Option Job) :=
  .op (.apiProfile token) fun result =>
    match result with
    | .ok profile => saving token profile
    | .error e => .throw e

theorem body_refreshProfile : system.body .refreshProfile = .op .getToken fun token =>
    match JString.takeIfNotBlank token with
    | some token => asking token
    | none => .throw .notLoggedIn := by
  refine congrArg (Prog.op _) (funext fun token => ?_)
  simp only [Prog.pure_bind]
  cases JString.takeIfNotBlank token with
  | none => rfl
  | some token =>
    refine congrArg (Prog.op _) (funext fun result => ?_)
    cases result <;> rfl

/-- The steps of the other two calls. -/
def Foreign : SessionOp → Prop
  | .apiProfile _ => False
  | .saveAuth .refreshProfile _ _ _ _ => False
  | _ => True

theorem foreign_body {job : Job} (h : job ≠ .refreshProfile) :
    (system.body job).OnlyOps Foreign := by
  cases job with
  | login username password =>
    refine ⟨by trivial, fun result => ?_⟩
    cases result with
    | error e => trivial
    | ok response => exact ⟨by trivial, fun _ => trivial⟩
  | logout =>
    refine ⟨by trivial, fun token => ?_⟩
    show Prog.OnlyOps Foreign (Prog.bind (match JString.takeIfNotBlank token with
      | some token => _
      | none => _) _)
    cases JString.takeIfNotBlank token with
    | none => exact ⟨by trivial, fun _ => trivial⟩
    | some token =>
      refine ⟨by trivial, fun result => ?_⟩
      cases result <;> exact ⟨by trivial, fun _ => trivial⟩
  | refreshProfile => exact absurd rfl h

/-! ## The outline -/

/-- The token of the last login or logout; `initial` before the first of them. -/
def sessionToken (initial : Option JString) : List Write → Option JString
  | [] => initial
  | .cleared :: _ => none
  | .saved .login token :: _ => some token
  | .saved .refreshProfile _ :: writes => sessionToken initial writes

/-- Writes of `refreshProfile` do not count. -/
theorem sessionToken_append {initial : Option JString} {after before : List Write}
    (h : ∀ w ∈ after, ∃ token, w = .saved .refreshProfile token) :
    sessionToken initial (after ++ before) = sessionToken initial before := by
  induction after with
  | nil => rfl
  | cons w after ih =>
    obtain ⟨token, rfl⟩ := h w List.mem_cons_self
    exact ih fun w hw => h w (List.mem_cons_of_mem _ hw)

/-- After a clear there is no token, unless a login saves one. -/
theorem sessionToken_of_cleared {initial : Option JString} {after before : List Write}
    (h : ∀ w ∈ after, ∀ token, w ≠ .saved .login token) :
    sessionToken initial (after ++ .cleared :: before) = none := by
  induction after with
  | nil => rfl
  | cons w after ih =>
    cases w with
    | cleared => rfl
    | saved writer token =>
      cases writer with
      | login => exact absurd rfl (h _ List.mem_cons_self token)
      | refreshProfile => exact ih fun w hw => h w (List.mem_cons_of_mem _ hw)

/-- What is true at each point of a call: a `refreshProfile` that has read a token finds it
stored until it has written it back. -/
inductive At (s : SessionState) : SessionProg (Option Job) → Prop where
  | foreign {p : SessionProg (Option Job)} (h : p.OnlyOps Foreign) : At s p
  | started : At s (system.body .refreshProfile)
  | asking (token : JString) (h : s.store.token = some token) : At s (asking token)
  | saving (token : JString) (profile : ProfileResponse) (h : s.store.token = some token) :
      At s (saving token profile)

/-- The outline of the calls. -/
def outline (initial : Option JString) :
    Outline SessionOp SessionOp.Res SessionExn SessionState Job where
  inv := fun s => s.store.token = sessionToken initial s.writes
  holds := fun _ p s => At s p

theorem at_body (s : SessionState) (job : Job) : At s (system.body job) := by
  by_cases h : job = .refreshProfile
  · rw [h]
    exact .started
  · exact .foreign (foreign_body h)

/-- A step that keeps the token disturbs nobody, and any step leaves a call alone that is
not in the middle of a `refreshProfile`. -/
theorem At.kept {s s' : SessionState} {p : SessionProg (Option Job)} (h : At s p)
    (hout : s'.store.token = s.store.token ∨ refreshes p = false) : At s' p := by
  cases h with
  | foreign hp => exact .foreign hp
  | started => exact .started
  | asking token htoken =>
    rcases hout with hsame | hout
    · exact .asking token (hsame.trans htoken)
    · exact absurd hout Bool.false_ne_true.symm
  | saving token profile htoken =>
    rcases hout with hsame | hout
    · exact .saving token profile (hsame.trans htoken)
    · exact absurd hout Bool.false_ne_true.symm

/-- The token is set by the writes of `login` and `logout` only. -/
def SetsToken : SessionOp → Prop
  | .saveAuth .login _ _ _ _ => True
  | .clear => True
  | _ => False

/-- The steps of the other two calls, by what they do to the token. -/
theorem foreign_perform {initial : Option JString} {o : SessionOp} (h : Foreign o)
    (env : SessionEnv) {s : SessionState} (hs : s.store.token = sessionToken initial s.writes) :
    (perform o env s).2.store.token = sessionToken initial (perform o env s).2.writes ∧
      ((perform o env s).2.store.token = s.store.token ∨ SetsToken o) := by
  cases o with
  | saveAuth writer token username expiry devicesAllowed =>
    cases writer with
    | login => exact ⟨rfl, Or.inr trivial⟩
    | refreshProfile => exact absurd h (by simp [Foreign])
  | clear => exact ⟨rfl, Or.inr trivial⟩
  | getToken => exact ⟨hs, Or.inl rfl⟩
  | apiLogin username password => exact ⟨hs, Or.inl rfl⟩
  | apiProfile token => exact ⟨hs, Or.inl rfl⟩
  | apiLogout token => exact ⟨hs, Or.inl rfl⟩

/-- **One step of a call** leads to the next point of its outline, and only the writes of
`login` and `logout` change the token. -/
theorem At.step {initial : Option JString} {s : SessionState} {o : SessionOp}
    {k : o.Res → SessionProg (Option Job)} (h : At s (.op o k)) (env : SessionEnv)
    (hs : s.store.token = sessionToken initial s.writes) :
    At (perform o env s).2 (k (perform o env s).1) ∧
      (perform o env s).2.store.token = sessionToken initial (perform o env s).2.writes ∧
      ((perform o env s).2.store.token = s.store.token ∨ SetsToken o) := by
  generalize hp : Prog.op o k = p at h
  cases h with
  | foreign honly =>
    subst hp
    exact ⟨.foreign (honly.2 _), foreign_perform honly.1 env hs⟩
  | started =>
    rw [body_refreshProfile] at hp
    cases hp
    refine ⟨?_, hs, Or.inl rfl⟩
    show At s (match JString.takeIfNotBlank s.store.token with
      | some token => Session.asking token
      | none => .throw .notLoggedIn)
    cases hread : JString.takeIfNotBlank s.store.token with
    | none => exact .foreign trivial
    | some token => exact .asking token (JString.takeIfNotBlank_eq_some.mp hread).1
  | asking token htoken =>
    cases hp
    refine ⟨?_, hs, Or.inl rfl⟩
    cases hanswer : env.profile with
    | error e =>
      have hresult : (perform (.apiProfile token) env s).1 = .error e := hanswer
      rw [hresult]
      exact .foreign trivial
    | ok profile =>
      have hresult : (perform (.apiProfile token) env s).1 = .ok profile := hanswer
      rw [hresult]
      exact .saving token profile htoken
  | saving token profile htoken =>
    cases hp
    exact ⟨.foreign trivial, htoken.symm.trans hs, Or.inl htoken.symm⟩

/-! ## Logged out -/

theorem outline_sound (initial : Option JString) :
    (outline initial).Sound system fun c a => apart c a = true where
  event := by
    intro c job s' job' hc _ hhandle
    obtain ⟨rfl, rfl⟩ := Prod.mk.inj (Option.some.inj hhandle)
    exact ⟨hc.inv, hc.thread, fun j _ => at_body _ j⟩
  step := by
    intro c i env job o k hc hok hi hat
    obtain ⟨hnext, hinv, hmove⟩ := At.step hat env hc.inv
    refine ⟨hnext, hinv, ?_, fun j _ => at_body _ j⟩
    rintro t ⟨l, -, ht⟩
    have hmem := List.mem_of_getElem? ht
    refine (hc.thread t hmem).kept (hmove.imp_right fun hsets => ?_)
    -- the token is set only while nobody is in the middle of a `refreshProfile`
    have hall : c.threads.all (fun t => !refreshes t.body) = true := by
      cases o with
      | saveAuth writer token username expiry devicesAllowed =>
        cases writer with
        | login => simpa [apart, hi] using hok
        | refreshProfile => exact hsets.elim
      | clear => simpa [apart, hi] using hok
      | _ => exact hsets.elim
    simpa using List.all_eq_true.mp hall t hmem

/-- **Logging out stays logged out.**  In every interleaving of any number of calls in
which the store is cleared, and the token of a login saved, only while no `refreshProfile`
is between its read and its write: when no login has saved a token after the clear of a
logout, no token is stored; and when a login has saved a token, and since then neither
another login nor a logout has written, that token is stored, whatever `refreshProfile`
wrote. -/
theorem logout_stays_logged_out (store : TokenStore) (d : SessionConf)
    (hrun : system.Run (fun c a => apart c a = true) (start store) d) :
    (∀ after before, d.shared.writes = after ++ .cleared :: before →
        (∀ w ∈ after, ∀ token, w ≠ .saved .login token) → d.shared.store.token = none) ∧
      ∀ after before token, d.shared.writes = after ++ .saved .login token :: before →
        (∀ w ∈ after, ∃ stale, w = .saved .refreshProfile stale) →
        d.shared.store.token = some token := by
  have hvalid : (outline store.token).Valid d :=
    (outline_sound store.token).run hrun ⟨rfl, by simp [start]⟩
  have htoken : d.shared.store.token = sessionToken store.token d.shared.writes := hvalid.inv
  constructor
  · intro after before hwrites hlogin
    rw [htoken, hwrites]
    exact sessionToken_of_cleared hlogin
  · intro after before token hwrites hrefresh
    rw [htoken, hwrites, sessionToken_append hrefresh]
    rfl

/-- Someone is logged in. -/
def loggedIn : TokenStore := { token := some (jstr "A"), username := some (jstr "ann") }

/-- The server answers every call, a login with this token. -/
def answer (token : JString) : SessionEnv where
  login := .ok ⟨token, none⟩
  profile := .ok { username := jstr "ann" }
  logout := .ok ()

/-- The theorem for a `refreshProfile` that starts before a logout and writes before its
clear. -/
theorem logged_out_after_refresh :
    let d := (system.exec apart (start loggedIn)
      ([.event .refreshProfile, .event .logout] ++ List.replicate 2 (.step 0 (answer [])) ++
        List.replicate 2 (.step 1 (answer [])) ++
        [.step 0 (answer []), .step 1 (answer [])])).get (by decide +kernel)
    (∀ after before, d.shared.writes = after ++ .cleared :: before →
        (∀ w ∈ after, ∀ token, w ≠ .saved .login token) → d.shared.store.token = none) ∧
      ∀ after before token, d.shared.writes = after ++ .saved .login token :: before →
        (∀ w ∈ after, ∃ stale, w = .saved .refreshProfile stale) →
        d.shared.store.token = some token :=
  logout_stays_logged_out loggedIn _
    (System.Run.of_exec (fun _ _ h => h) .refl (Option.some_get _).symm)

/-- **A logout is undone.**  A `refreshProfile` reads the token `A`, a logout clears the
store and finishes, and the `refreshProfile` writes `A` back.  In the same way it replaces
the token `B` of a login that was saved in between. -/
theorem logout_undone_by_refresh :
    let reads : List (Act Job SessionEnv) := [.event .refreshProfile, .step 0 (answer [])]
    let writes : List (Act Job SessionEnv) := List.replicate 2 (.step 0 (answer []))
    let ends := fun acts => (system.exec (fun _ _ => true) (start loggedIn)
      (reads ++ acts ++ writes)).map fun d =>
        (d.threads.all (fun t => !t.body.running), d.shared.store.token, d.shared.writes)
    ends ([.event .logout] ++ List.replicate 3 (.step 1 (answer []))) =
        some (true, some (jstr "A"), [.saved .refreshProfile (jstr "A"), .cleared]) ∧
      ends ([.event (.login (jstr "bob") (jstr "secret"))] ++
          List.replicate 2 (.step 1 (answer (jstr "B")))) =
        some (true, some (jstr "A"),
          [.saved .refreshProfile (jstr "A"), .saved .login (jstr "B")]) := by
  decide +kernel

end Session
end AioVpn
