import AioVpn.Coroutine.AtRest
import AioVpn.Coroutine.Outline
import AioVpn.Updater.VerifiedInstall

/-!
# Does the updater get stuck?

The updater and the settings screen are two state machines that were written separately.
`startUpdate` refuses to start in the states in which an update is under way or finished;
the screen decides in each state what a click and a resume do.

This file is about the states in which no job is running.  They are five: every job ends
with a final state (`isFinal`), whatever the others do meanwhile, and with the flag down.
From four of them an update can be installed, given a server that offers a newer version and
the permission to install it: a click asks the server, another one downloads and verifies
the file, and it is offered.

From the fifth it cannot.  `InstallPermissionRequired` is one of the states in which
`startUpdate` refuses to start, so the job that `onResume` launches when the permission has
been granted ends at once, and no click launches one at all (`trapped`).

`ready_reachable_iff` puts this together, and `trapped_after_grant` is the run into it.
-/

namespace AioVpn

open Coroutine

namespace Updater

variable {plat : UpdatePlatform}

/-! ## States at rest -/

/-- The states the jobs leave behind. -/
def isFinal : UpdateState → Bool
  | .idle => true
  | .available _ _ _ _ => true
  | .installPermissionRequired => true
  | .readyToInstall _ => true
  | .error _ => true
  | _ => false

/-- The writes of the state. -/
def stateSets : UpdateOp → Option Bool
  | .setState state => some (isFinal state)
  | _ => none

/-- The writes of the flag. -/
def flagSets : UpdateOp → Option Bool
  | .setIsUpdating value => some (!value)
  | _ => none

section Settles

variable {Q E : Bool → Prop}

/-- A final state is written last. -/
theorem ends_setState {ε : Type} {state : UpdateState} (hstate : isFinal state = true)
    (hQ : Q true) (b : Bool) :
    (step (.setState state) : UpdateProg ε Unit).Ends stateSets Q E b := by
  intro r
  have hflag : Prog.flag stateSets (.setState state) b = true := hstate
  rw [hflag]
  exact hQ

theorem ends_tryUpdate (hQ : Q true) (hE : ∀ b, E b) (b : Bool) :
    (tryUpdate plat).Ends stateSets Q E b := by
  refine .bind (.of_forall (fun b _ => .bind (.of_forall (fun b r => ?_) hE _ _)) hE _ _)
  cases r with
  | none => exact hE b
  | some update =>
    show (if update.versionCode ≤ plat.versionCode then _ else _ :
      UpdateProg UpdateExn Unit).Ends stateSets Q E b
    split
    · exact ends_setState rfl hQ b
    · refine .bind (.of_forall (fun b r => .bind (.of_forall (fun b _ => ?_) hE _ _)) hE _ _)
      refine .bind (.of_forall (fun b _ => .bind (.of_forall (fun b _ => ?_) hE _ _)) hE _ _)
      refine .bind (.of_forall (fun b _ => .bind (.of_forall (fun b _ => ?_) hE _ _)) hE _ _)
      refine .bind (.of_forall (fun b can => ?_) hE _ _)
      cases can with
      | true => exact ends_setState rfl hQ b
      | false => exact ends_setState rfl hQ b

theorem ends_checkNow (hQ : Q true) (b : Bool) : (checkNow plat).Ends stateSets Q E b := by
  refine .tryCatch ?_
  have hE : ∀ b, ∀ e, (step (.setState (errorState e "Update check failed")) :
      UpdateProg Empty Unit).Ends stateSets Q E b := fun b e => ends_setState rfl hQ b
  refine .bind (.of_forall (fun b _ => .bind (.of_forall (fun b r => ?_) hE _ _)) hE _ _)
  cases r with
  | none => exact ends_setState rfl hQ b
  | some update =>
    show (if update.versionCode > plat.versionCode then _ else _ :
      UpdateProg UpdateExn Unit).Ends stateSets Q _ b
    split
    · refine .bind (.of_forall (fun b r => .bind (.of_forall (fun b _ => ?_) hE _ _)) hE _ _)
      exact ends_setState rfl hQ b
    · exact ends_setState rfl hQ b

end Settles

theorem settles_startUpdate {sets : UpdateOp → Option Bool} (hflag : sets .isUpdating = none)
    (hstate : sets .state = none) :
    (startUpdate : UpdateProg Empty (Option Job)).Settles sets true := by
  have honly : (startUpdate : UpdateProg Empty (Option Job)).OnlyOps fun o => sets o = none := by
    rw [startUpdate_eq]
    refine ⟨hflag, ?_⟩
    rintro (_ | _)
    · exact ⟨hstate, fun _ => trivial⟩
    · trivial
  exact .of_onlyOps honly rfl rfl

/-- **Every body** writes a final state last. -/
theorem settles_state (plat : UpdatePlatform) (job : Job) :
    (bodyOf plat job).Settles stateSets true := by
  cases job with
  | checkNow => exact .bind (ends_checkNow (fun _ => rfl) true)
  | startUpdate => exact settles_startUpdate rfl rfl
  | update =>
    refine .bind (.bind (.tryCatch (.tryCatch (ends_tryUpdate ?_ ?_ true))))
    · exact fun _ _ _ => rfl
    · exact fun b e => ends_setState rfl (fun _ _ _ => rfl) b
  | prepareCheck =>
    rintro (_ | _)
    · rfl
    · rfl
  | prepareUpdate =>
    rw [bodyOf_prepareUpdate]
    rintro (_ | _)
    · rfl
    · exact settles_startUpdate rfl rfl

/-- **Every body** takes the flag down last. -/
theorem settles_flag (plat : UpdatePlatform) (job : Job) :
    (bodyOf plat job).Settles flagSets true := by
  cases job with
  | checkNow =>
    have honly : (checkNow plat).OnlyOps fun o => flagSets o = none := by
      refine lightOps_checkNow.mono fun o ho => ?_
      cases o with
      | setIsUpdating value => exact ho.elim
      | _ => rfl
    exact .bind (.of_onlyOps honly (fun _ => rfl) rfl)
  | startUpdate => exact settles_startUpdate rfl rfl
  | update =>
    refine .bind (.bind (.tryCatch (.of_forall ?_ ?_ _ _)))
    · exact fun _ _ _ _ => rfl
    · exact fun _ e => e.elim
  | prepareCheck =>
    rintro (_ | _)
    · rfl
    · rfl
  | prepareUpdate =>
    rw [bodyOf_prepareUpdate]
    rintro (_ | _)
    · rfl
    · exact settles_startUpdate rfl rfl

/-- An event writes neither the state nor the flag. -/
theorem handle_fields {e : UpdateEvent} {s s' : UpdaterState} {j : Option Job}
    (h : handle e s = some (s', j)) : s'.state = s.state ∧ s'.isUpdating = s.isUpdating := by
  cases e
  all_goals
    obtain ⟨rfl, -⟩ := Prod.mk.inj (Option.some.inj h)
    exact ⟨rfl, rfl⟩

theorem lastWrite_state (plat : UpdatePlatform) :
    LastWrite (system plat) stateSets fun s => isFinal s.state = true where
  body := settles_state plat
  event := by
    intro e s s' j h hs
    rw [(handle_fields h).1]
    exact hs
  establishes := by
    intro o env s h
    cases o with
    | setState state => exact Option.some.inj h
    | _ => exact absurd h (by simp [stateSets])
  keeps := by
    intro o env s h hs
    show isFinal (perform plat o env s).2.state = true
    have hkeeps : ∀ state, o ≠ .setState state := by
      rintro state rfl
      exact absurd h (by simp [stateSets])
    rw [(perform_frame plat o env s).state hkeeps]
    exact hs

theorem lastWrite_flag (plat : UpdatePlatform) :
    LastWrite (system plat) flagSets fun s => s.isUpdating = false where
  body := settles_flag plat
  event := by
    intro e s s' j h hs
    rw [(handle_fields h).2]
    exact hs
  establishes := by
    intro o env s h
    cases o with
    | setIsUpdating value =>
      have hvalue : value = false := by simpa [flagSets] using h
      exact hvalue
    | _ => exact absurd h (by simp [flagSets])
  keeps := by
    intro o env s h hs
    show (perform plat o env s).2.isUpdating = false
    rw [(perform_frame plat o env s).isUpdating
      (by rintro value rfl; exact absurd h (by simp [flagSets]))]
    exact hs

/-- No job is in flight. -/
def AtRest (c : UpdateConf) : Prop := ∀ t ∈ c.threads, t.body.running = false

instance (c : UpdateConf) : Decidable (AtRest c) :=
  inferInstanceAs (Decidable (∀ t ∈ c.threads, t.body.running = false))

/-- **At rest** the state is final and the flag is down. -/
theorem final_at_rest {device : UpdaterState} {d : UpdateConf}
    (hrun : (system plat).Run (fun _ _ => True) (start plat device) d) (hrest : AtRest d) :
    isFinal d.shared.state = true ∧ d.shared.isUpdating = false := by
  constructor
  · refine ((lastWrite_state plat).run hrun ⟨fun t ht => ?_, Or.inl rfl⟩).good hrest
    obtain rfl := List.mem_singleton.mp ht
    exact settles_state plat .prepareCheck
  · refine ((lastWrite_flag plat).run hrun ⟨fun t ht => ?_, Or.inl rfl⟩).good hrest
    obtain rfl := List.mem_singleton.mp ht
    exact settles_flag plat .prepareCheck

/-! ## A server that offers an update -/

/-- A newer version that can be downloaded: what the server answers when it exists and the
network works. -/
structure Offer (plat : UpdatePlatform) where
  token : JString
  token_not_blank : JString.isBlank token = false
  json : LatestJson
  update : LatestAppResponse
  read : readResponse json = .ok update
  trusted : validateApkUrl plat update.apkUrl = .ok ()
  newer : plat.versionCode < update.versionCode
  contentLength : ℤ
  chunks : List (List UInt8)
  not_empty : chunks.flatten ≠ []
  /-- The length is announced as it is, or not at all. -/
  length : contentLength ≤ 0 ∨ contentLength = chunks.flatten.length
  small : contentLength ≤ maxApkSizeBytes
  digest : hex (plat.digest chunks.flatten) = expected update.sha256

namespace Offer

variable (offer : Offer plat)

/-- The answers. -/
def server : UpdateEnv where
  register := .ok offer.token
  latest := .ok ⟨200, .ok offer.json⟩
  apk := .ok { responseCode := 200, contentLength := offer.contentLength, chunks := offer.chunks }

/-- A body that runs alone with this server. -/
abbrev online : Contract UpdateOp UpdateOp.Res UpdateEnv UpdaterState :=
  Contract.alone (perform plat) (fun _ env _ => env = offer.server) fun _ => True

theorem wp_step {ε α : Type} {Q : α → UpdaterState → Prop} {E : ε → UpdaterState → Prop}
    {o : UpdateOp} {k : o.Res → UpdateProg ε α} {s : UpdaterState}
    (h : offer.online.wp Q E (k (perform plat o offer.server s).1)
      (perform plat o offer.server s).2) : offer.online.wp Q E ((step o).bind k) s := by
  rintro s rfl
  refine ⟨trivial, ?_⟩
  rintro _ rfl
  exact h

/-- The device has a token. -/
def Equipped (s : UpdaterState) : Prop := ∃ token, JString.takeIfNotBlank s.deviceToken = some token

theorem wp_requireDeviceToken {E : UpdateExn → UpdaterState → Prop} {s : UpdaterState}
    (h : Equipped s) :
    offer.online.wp (fun _ s' => s' = s) E requireDeviceToken s := by
  obtain ⟨token, htoken⟩ := h
  refine offer.wp_step ?_
  have hresult : JString.takeIfNotBlank (perform plat .deviceToken offer.server s).1 =
      some token := htoken
  rw [hresult]
  rfl

theorem wp_fetchLatest {E : UpdateExn → UpdaterState → Prop} {s : UpdaterState}
    (h : Equipped s) :
    offer.online.wp (fun r s' => r = some offer.update ∧
      s' = { s with fetched := offer.json :: s.fetched }) E (fetchLatest plat) s := by
  refine Contract.wp_seq (offer.wp_requireDeviceToken h) (fun _ _ h => h) ?_
  rintro token _ rfl
  refine offer.wp_step ?_
  show offer.online.wp _ E ((Prog.ofExcept (readResponse offer.json)).bind _) _
  rw [offer.read]
  show offer.online.wp _ E
    ((Prog.ofExcept (validateApkUrl plat offer.update.apkUrl)).bind _) _
  rw [offer.trusted]
  exact ⟨rfl, rfl⟩

/-! ### `checkNow` -/

/-- The state after the check. -/
def availableState : UpdateState :=
  .available offer.update.versionCode offer.update.versionName offer.update.mandatory
    offer.update.releaseNotes

theorem wp_checkNow {s : UpdaterState} (h : Equipped s) :
    offer.online.wp (fun j s' => j = none ∧ s'.state = offer.availableState ∧ Equipped s' ∧
      s'.isUpdating = s.isUpdating ∧ s'.canRequestPackageInstalls = s.canRequestPackageInstalls)
      (fun _ _ => False) (bodyOf plat .checkNow) s := by
  refine (Contract.wp_bind _ _ _ _ _).mpr ((Contract.wp_tryCatch _ _ _ _ _).mpr ?_)
  refine offer.wp_step ?_
  have hchecking : Equipped { s with state := .checking } := h
  refine Contract.wp_seq (offer.wp_fetchLatest hchecking) (fun _ _ h => h) ?_
  rintro _ s' ⟨rfl, rfl⟩
  show offer.online.wp _ _ (if offer.update.versionCode > plat.versionCode then _ else _) _
  rw [if_pos offer.newer]
  refine offer.wp_step ?_
  refine offer.wp_step ?_
  exact ⟨rfl, rfl, h, rfl, rfl⟩

/-! ### `startUpdate` -/

theorem writeAt_length (content bytes : List UInt8) :
    writeAt content content.length bytes = content ++ bytes := by
  simp [writeAt]

/-- **The loop** appends the chunks to the file. -/
theorem wp_copyChunks {E : UpdateExn → UpdaterState → Prop} (versionCode totalBytes : ℤ)
    (chunks : List (List UInt8)) (content : List UInt8) {s : UpdaterState}
    (hfile : s.files versionCode = some content)
    (htotal : totalBytes ≤ 0 ∨ totalBytes = (content ++ chunks.flatten).length) :
    offer.online.wp (fun _ s' => s'.files versionCode = some (content ++ chunks.flatten) ∧
      s'.canRequestPackageInstalls = s.canRequestPackageInstalls) E
      (copyChunks versionCode totalBytes none chunks content.length) s := by
  induction chunks generalizing content s with
  | nil =>
    rw [List.flatten_nil, List.append_nil]
    exact ⟨hfile, rfl⟩
  | cons chunk chunks ih =>
    rw [copyChunks]
    refine offer.wp_step ?_
    have hfits : ¬ (totalBytes > 0 ∧ ((content.length + chunk.length : ℕ) : ℤ) > totalBytes) := by
      rintro ⟨hpos, hmore⟩
      rcases htotal with hle | heq
      · omega
      · rw [heq, List.flatten_cons, List.length_append, List.length_append] at hmore
        push_cast at hmore
        omega
    show offer.online.wp _ E (if totalBytes > 0 ∧
      ((content.length + chunk.length : ℕ) : ℤ) > totalBytes then _ else _) _
    rw [if_neg hfits]
    refine offer.wp_step ?_
    have hwritten : (Function.update s.files versionCode ((s.files versionCode).map
        fun c => writeAt c content.length chunk)) versionCode = some (content ++ chunk) := by
      rw [Function.update_self, hfile, Option.map_some, writeAt_length]
    have hnext := ih (content ++ chunk)
      (s := { s with
        files := Function.update s.files versionCode ((s.files versionCode).map
          fun c => writeAt c content.length chunk)
        state := .downloading (content.length + chunk.length : ℕ) (max totalBytes 0) })
      hwritten (by rwa [List.append_assoc, ← List.flatten_cons])
    rw [List.length_append, List.append_assoc, ← List.flatten_cons] at hnext
    exact hnext

theorem wp_checkFile {E : UpdateExn → UpdaterState → Prop} {versionCode totalBytes : ℤ}
    {content : List UInt8} {s : UpdaterState} (hfile : s.files versionCode = some content)
    (hne : content ≠ []) (htotal : totalBytes ≤ 0 ∨ totalBytes = content.length) :
    offer.online.wp (fun _ s' => s' = s) E (checkFile versionCode totalBytes) s := by
  have hlength : (((s.files versionCode).getD []).length : ℤ) = content.length := by
    rw [hfile]
    rfl
  have hpos : ¬ (content.length : ℤ) ≤ 0 := by
    have := List.length_pos_of_ne_nil hne
    omega
  refine offer.wp_step ?_
  show offer.online.wp _ E (if (!(s.files versionCode).isSome) = true then _ else _) s
  rw [hfile, if_neg (by simp)]
  refine offer.wp_step ?_
  show offer.online.wp _ E
    (if (((s.files versionCode).getD []).length : ℤ) ≤ 0 then _ else _) s
  rw [hlength, if_neg hpos]
  split
  · rename_i hknown
    refine offer.wp_step ?_
    show offer.online.wp _ E
      (if (((s.files versionCode).getD []).length : ℤ) ≠ totalBytes then _ else _) s
    have hsame : (content.length : ℤ) = totalBytes := by
      rcases htotal with hle | heq
      · omega
      · exact heq.symm
    rw [hlength, if_neg (not_not.mpr hsame)]
    rfl
  · rfl

theorem wp_downloadApk {E : UpdateExn → UpdaterState → Prop} {s : UpdaterState} (h : Equipped s) :
    offer.online.wp (fun apkFile s' => apkFile = offer.update.versionCode ∧
      s'.files offer.update.versionCode = some offer.chunks.flatten ∧
      s'.canRequestPackageInstalls = s.canRequestPackageInstalls) E
      (downloadApk plat offer.update) s := by
  refine Contract.wp_seq (offer.wp_requireDeviceToken h) (fun _ _ h => h) ?_
  rintro token s₁ rfl
  obtain ⟨url, hurl, -⟩ := trustedUrl_of_validateApkUrl offer.trusted
  rw [hurl]
  refine offer.wp_step ?_
  show offer.online.wp _ E (if offer.contentLength > maxApkSizeBytes then _ else _) _
  rw [if_neg (not_lt.mpr offer.small)]
  refine offer.wp_step ?_
  have hopened : (Function.update s₁.files offer.update.versionCode (some []))
      offer.update.versionCode = some [] := Function.update_self _ _ _
  show offer.online.wp _ E ((copyChunks offer.update.versionCode offer.contentLength none
    offer.chunks 0).bind _)
    { s₁ with files := Function.update s₁.files offer.update.versionCode (some []) }
  refine Contract.wp_seq (offer.wp_copyChunks offer.update.versionCode offer.contentLength
    offer.chunks [] hopened offer.length) (fun _ _ h => h) ?_
  rintro _ s' ⟨hfile, hpermission⟩
  refine Contract.wp_seq (offer.wp_checkFile hfile offer.not_empty offer.length)
    (fun _ _ h => h) ?_
  rintro _ _ rfl
  exact ⟨rfl, hfile, hpermission⟩

theorem wp_verifySha256 {E : UpdateExn → UpdaterState → Prop} {s : UpdaterState}
    (hfile : s.files offer.update.versionCode = some offer.chunks.flatten) :
    offer.online.wp (fun _ s' => s' = s) E
      (verifySha256 offer.update.versionCode offer.update.sha256) s := by
  refine offer.wp_step ?_
  have hdigest : perform plat (.digest offer.update.versionCode) offer.server s =
      (.ok (plat.digest offer.chunks.flatten), s) := by
    simp [perform, server, hfile]
  rw [hdigest]
  show offer.online.wp _ E
    (if hex (plat.digest offer.chunks.flatten) ≠ expected offer.update.sha256 then _ else _) s
  rw [if_neg (not_not.mpr offer.digest)]
  rfl

/-- **The job of `startUpdate`** offers the file. -/
theorem wp_update {s : UpdaterState} (h : Equipped s)
    (hpermission : s.canRequestPackageInstalls = true) :
    offer.online.wp (fun j s' => j = none ∧
      s'.state = .readyToInstall offer.update.versionCode) (fun _ _ => False)
      (bodyOf plat .update) s := by
  refine (Contract.wp_bind _ _ _ _ _).mpr ((Contract.wp_tryFinally _ _ _ _ _).mpr
    ((Contract.wp_tryCatch _ _ _ _ _).mpr ?_))
  refine offer.wp_step ?_
  have hworking : Equipped { s with isUpdating := true } := h
  refine Contract.wp_seq (offer.wp_fetchLatest hworking) (fun _ _ h => h) ?_
  rintro _ s' ⟨rfl, rfl⟩
  show offer.online.wp _ _ (if offer.update.versionCode ≤ plat.versionCode then _ else _) _
  rw [if_neg (not_le.mpr offer.newer)]
  refine offer.wp_step ?_
  refine offer.wp_step ?_
  refine Contract.wp_seq (offer.wp_downloadApk h) (fun _ _ h => h) ?_
  rintro _ s' ⟨rfl, hfile, hkept⟩
  refine offer.wp_step ?_
  refine Contract.wp_seq (offer.wp_verifySha256 hfile) (fun _ _ h => h) ?_
  rintro _ _ rfl
  refine offer.wp_step ?_
  have hcan : s'.canRequestPackageInstalls = true := hkept.trans hpermission
  show offer.online.wp _ _ (if s'.canRequestPackageInstalls = true then _ else _) _
  rw [if_pos hcan]
  refine offer.wp_step ?_
  refine offer.wp_step ?_
  exact ⟨rfl, rfl⟩

/-! ### The screen -/

theorem register_spec (s : UpdaterState) :
    ∃ token s', perform plat .register offer.server s = (.ok token, s') ∧ Equipped s' ∧
      s'.state = s.state ∧ s'.isUpdating = s.isUpdating ∧
      s'.canRequestPackageInstalls = s.canRequestPackageInstalls := by
  cases htoken : JString.takeIfNotBlank s.deviceToken with
  | some token =>
    refine ⟨token, s, ?_, ⟨token, htoken⟩, rfl, rfl, rfl⟩
    simp only [perform, htoken]
  | none =>
    refine ⟨offer.token, { s with deviceToken := some offer.token }, ?_, ⟨offer.token, ?_⟩,
      rfl, rfl, rfl⟩
    · simp only [perform, htoken, server]
    · exact JString.takeIfNotBlank_some offer.token_not_blank

theorem wp_prepareCheck (s : UpdaterState) :
    offer.online.wp (fun j s' => j = some .checkNow ∧ Equipped s' ∧ s'.isUpdating = s.isUpdating ∧
      s'.canRequestPackageInstalls = s.canRequestPackageInstalls) (fun _ _ => False)
      (bodyOf plat .prepareCheck) s := by
  obtain ⟨token, s', hregister, htoken, -, hflag, hpermission⟩ := offer.register_spec s
  refine (Contract.wp_tryCatch _ _ _ _ _).mpr (offer.wp_step ?_)
  rw [hregister]
  exact ⟨rfl, htoken, hflag, hpermission⟩

theorem wp_prepareUpdate {s : UpdaterState} (hstate : inProgress s.state = false)
    (hflag : s.isUpdating = false) :
    offer.online.wp (fun j s' => j = some .update ∧ Equipped s' ∧
      s'.canRequestPackageInstalls = s.canRequestPackageInstalls) (fun _ _ => False)
      (bodyOf plat .prepareUpdate) s := by
  obtain ⟨token, s', hregister, htoken, hstate', hflag', hpermission⟩ := offer.register_spec s
  rw [bodyOf_prepareUpdate]
  refine offer.wp_step (o := .register) ?_
  rw [hregister]
  show offer.online.wp _ _ startUpdate s'
  rw [startUpdate_eq]
  refine offer.wp_step (o := .isUpdating) ?_
  have hfree : (perform plat .isUpdating offer.server s').1 = false := hflag'.trans hflag
  rw [hfree]
  refine offer.wp_step (o := .state) ?_
  have hidle : inProgress s'.state = false := by
    rw [hstate']
    exact hstate
  show offer.online.wp _ _ (.pure (if inProgress s'.state = true then none else some Job.update)) s'
  rw [hidle]
  exact ⟨rfl, htoken, hpermission⟩

/-! ### Runs -/

/-- The events the app offers while the permission is granted, and steps with the answers of
the server. -/
def Favourable : Act UpdateEvent UpdateEnv → Prop
  | .event e => e = .click ∨ e = .onResume ∨ e = .setPermission true
  | .step _ env => env = offer.server

/-- A click, and the job it launches. -/
theorem run_click {c d : UpdateConf}
    (hrun : (system plat).Run (fun _ a => offer.Favourable a) c d) {job : Job}
    (hjob : click d.shared.state = some job) :
    (system plat).Run (fun _ a => offer.Favourable a) c
      ⟨d.shared, d.threads ++ (system plat).launch (some job)⟩ := by
  refine hrun.tail (a := .event .click) (Or.inl rfl) ?_
  rw [← hjob]
  rfl

/-- **From `Available`** a click leads to the update. -/
theorem reaches_of_available {c d : UpdateConf}
    (hrun : (system plat).Run (fun _ a => offer.Favourable a) c d)
    (hjob : click d.shared.state = some .prepareUpdate)
    (hstate : inProgress d.shared.state = false) (hflag : d.shared.isUpdating = false)
    (hpermission : d.shared.canRequestPackageInstalls = true) :
    ∃ e apkFile, (system plat).Run (fun _ a => offer.Favourable a) c e ∧
      e.shared.state = .readyToInstall apkFile := by
  obtain ⟨_, e₁, ts₁, hrun₁, ⟨rfl, htoken, hpermission₁⟩, hthreads₁⟩ :=
    (offer.run_click hrun hjob).launched_alone rfl rfl (fun _ _ => rfl)
      (offer.wp_prepareUpdate hstate hflag)
  obtain ⟨_, e₂, -, hrun₂, ⟨-, hready⟩, -⟩ :=
    hrun₁.launched_alone hthreads₁ rfl (fun _ _ => rfl)
      (offer.wp_update htoken (hpermission₁.trans hpermission))
  exact ⟨e₂, _, hrun₂, hready⟩

/-- **From `Idle` and from an error** a click leads to `Available`. -/
theorem reaches_of_check {c d : UpdateConf}
    (hrun : (system plat).Run (fun _ a => offer.Favourable a) c d)
    (hjob : click d.shared.state = some .prepareCheck) (hflag : d.shared.isUpdating = false)
    (hpermission : d.shared.canRequestPackageInstalls = true) :
    ∃ e apkFile, (system plat).Run (fun _ a => offer.Favourable a) c e ∧
      e.shared.state = .readyToInstall apkFile := by
  obtain ⟨_, e₁, ts₁, hrun₁, ⟨rfl, htoken, hflag₁, hpermission₁⟩, hthreads₁⟩ :=
    (offer.run_click hrun hjob).launched_alone rfl rfl (fun _ _ => rfl)
      (offer.wp_prepareCheck d.shared)
  obtain ⟨_, e₂, -, hrun₂, ⟨-, hstate₂, -, hflag₂, hpermission₂⟩, -⟩ :=
    hrun₁.launched_alone hthreads₁ rfl (fun _ _ => rfl) (offer.wp_checkNow htoken)
  refine offer.reaches_of_available hrun₂ ?_ ?_ ?_ ?_
  · rw [hstate₂]
    rfl
  · rw [hstate₂]
    rfl
  · exact hflag₂.trans (hflag₁.trans hflag)
  · exact hpermission₂.trans (hpermission₁.trans hpermission)

/-- **From every final state but one** an update can be installed. -/
theorem reaches_of_final {d : UpdateConf} (hfinal : isFinal d.shared.state = true)
    (hflag : d.shared.isUpdating = false)
    (hstate : d.shared.state ≠ .installPermissionRequired) :
    ∃ e apkFile, (system plat).Run (fun _ a => offer.Favourable a) d e ∧
      e.shared.state = .readyToInstall apkFile := by
  -- the user grants the permission
  have hrun : (system plat).Run (fun _ a => offer.Favourable a) d
      ⟨{ d.shared with canRequestPackageInstalls := true }, d.threads ++ []⟩ :=
    System.Run.refl.tail (a := .event (.setPermission true)) (Or.inr (Or.inr rfl)) rfl
  cases hs : d.shared.state with
  | idle => exact offer.reaches_of_check hrun (by simp [hs, click]) hflag rfl
  | error message => exact offer.reaches_of_check hrun (by simp [hs, click]) hflag rfl
  | available versionCode name mandatory notes =>
    exact offer.reaches_of_available hrun (by simp [hs, click]) (by simp [hs, inProgress]) hflag rfl
  | readyToInstall apkFile => exact ⟨_, apkFile, .refl, hs⟩
  | installPermissionRequired => exact absurd hs hstate
  | _ =>
    rw [hs] at hfinal
    exact absurd hfinal Bool.false_ne_true

end Offer

/-! ## The trap -/

/-- Bodies that write no state and, in `InstallPermissionRequired`, launch nothing. -/
def Quiet : (o : UpdateOp) → (o.Res → UpdateProg Empty (Option Job)) → Prop
  | .isUpdating, k => ∀ r, (k r).launched = none
  | .register, k => ∀ r, (k r).launched = none
  | .state, k => (k .installPermissionRequired).launched = none
  | _, _ => False

theorem quiet_prepareUpdate (plat : UpdatePlatform) :
    (bodyOf plat .prepareUpdate).Nodes Quiet := by
  have hstart : (startUpdate : UpdateProg Empty (Option Job)).Nodes Quiet := by
    rw [startUpdate_eq]
    refine ⟨?_, ?_⟩
    · rintro (_ | _) <;> rfl
    · rintro (_ | _)
      · exact ⟨rfl, fun _ => trivial⟩
      · trivial
  rw [bodyOf_prepareUpdate]
  refine ⟨?_, ?_⟩
  · rintro (_ | _) <;> rfl
  · rintro (_ | _)
    · trivial
    · exact hstart

/-- The state is `InstallPermissionRequired`, and the coroutines are quiet. -/
def trap : Outline UpdateOp UpdateOp.Res Empty UpdaterState Job where
  inv := fun s => s.state = .installPermissionRequired
  holds := fun _ p _ => p.Nodes Quiet

theorem trap_sound (offer : Offer plat) :
    trap.Sound (system plat) fun _ a => offer.Favourable a where
  event := by
    intro c e s' j hc hok hhandle
    have hpermission : c.shared.state = .installPermissionRequired := hc.inv
    refine ⟨(handle_fields hhandle).1.trans hpermission, fun t ht => hc.thread t ht, ?_⟩
    rintro i rfl
    rcases hok with rfl | rfl | rfl
    · obtain ⟨-, hj⟩ := Prod.mk.inj (Option.some.inj hhandle)
      rw [hpermission] at hj
      exact absurd hj (by simp [click])
    · obtain ⟨-, hj⟩ := Prod.mk.inj (Option.some.inj hhandle)
      unfold onResume at hj
      split at hj
      · obtain rfl := Option.some.inj hj
        exact quiet_prepareUpdate plat
      · exact absurd hj (by simp)
    · obtain ⟨-, hj⟩ := Prod.mk.inj (Option.some.inj hhandle)
      exact absurd hj (by simp)
  step := by
    intro c i env j o k hc _ hi hquiet
    have hpermission : c.shared.state = .installPermissionRequired := hc.inv
    have hwrites : ∀ state, o ≠ .setState state := by
      rintro state rfl
      exact hquiet.1
    refine ⟨hquiet.2 _, ?_, ?_, ?_⟩
    · exact ((perform_frame plat o env c.shared).state hwrites).trans hpermission
    · rintro t ⟨l, -, hl⟩
      exact hc.thread t (List.mem_of_getElem? hl)
    · intro i hlaunch
      have hnone : (k (perform plat o env c.shared).1).launched = none := by
        cases o with
        | isUpdating => exact hquiet.1 _
        | register => exact hquiet.1 _
        | state =>
          have hresult : (perform plat .state env c.shared).1 = .installPermissionRequired :=
            hpermission
          rw [hresult]
          exact hquiet.1
        | _ => exact hquiet.1.elim
      exact absurd (hnone.symm.trans hlaunch) (by simp)

/-- **The trap**: from `InstallPermissionRequired` nothing is ever offered. -/
theorem trapped (offer : Offer plat) {d e : UpdateConf} (hrest : AtRest d)
    (hstate : d.shared.state = .installPermissionRequired)
    (hrun : (system plat).Run (fun _ a => offer.Favourable a) d e) :
    e.shared.state = .installPermissionRequired := by
  have hvalid : trap.Valid d := by
    refine ⟨hstate, fun t ht => ?_⟩
    have hdone := hrest t ht
    show t.body.Nodes Quiet
    cases hbody : t.body with
    | op o k => exact absurd (hbody ▸ hdone) (by simp)
    | _ => trivial
  exact ((trap_sound offer).run hrun hvalid).inv

/-- **Where the updater is stuck.**  Take any configuration that a process can reach, in any
run, and in which no job is in flight.  When the server offers a newer version, the network
works and the permission is granted, a run of clicks, resumes and steps leads to
`ReadyToInstall` if and only if the state is not `InstallPermissionRequired`. -/
theorem ready_reachable_iff (offer : Offer plat) (device : UpdaterState) (d : UpdateConf)
    (hrun : (system plat).Run (fun _ _ => True) (start plat device) d) (hrest : AtRest d) :
    (∃ e apkFile, (system plat).Run (fun _ a => offer.Favourable a) d e ∧
        e.shared.state = .readyToInstall apkFile) ↔
      d.shared.state ≠ .installPermissionRequired := by
  obtain ⟨hfinal, hflag⟩ := final_at_rest hrun hrest
  constructor
  · rintro ⟨e, apkFile, hde, hready⟩ hstate
    rw [trapped offer hrest hstate hde] at hready
    exact absurd hready (by simp)
  · exact fun hstate => offer.reaches_of_final hfinal hflag hstate

/-- The offer of a newer version with one byte. -/
def demoOffer : Offer demoPlatform where
  token := jstr "token"
  token_not_blank := by decide
  json := demoJson
  update := ⟨1, 2, jstr "2.0", false, none, jstr "07", jstr "https://aiovpn.co.uk/app.apk"⟩
  read := by decide
  trusted := by decide
  newer := by decide
  contentLength := 1
  chunks := [[7]]
  not_empty := by decide
  length := by decide
  small := by decide
  digest := by decide

/-- The theorem after the check that the application makes when it starts. -/
theorem ready_reachable_after_start :
    let d := ((system demoPlatform).exec (fun _ _ => true) (start demoPlatform demoDevice)
      (steps 0 1 ++ steps 1 5)).get (by decide +kernel)
    ∃ e apkFile, (system demoPlatform).Run (fun _ a => demoOffer.Favourable a) d e ∧
      e.shared.state = .readyToInstall apkFile :=
  (ready_reachable_iff demoOffer demoDevice _
    (System.Run.of_exec (fun _ _ _ => trivial) .refl (Option.some_get _).symm)
    (by decide +kernel)).mpr (by decide +kernel)

/-- **Trapped.**  The permission is not granted when the file has been verified.  Then the
user grants it and comes back to the settings screen: the job that `onResume` launches ends
at once, and whatever the user does, nothing is ever offered. -/
theorem trapped_after_grant :
    let d := ((system demoPlatform).exec (fun _ _ => true)
      (start demoPlatform { demoDevice with canRequestPackageInstalls := false })
      (steps 0 1 ++ steps 1 5 ++ [.event .click] ++ steps 2 3 ++ steps 3 18)).get
      (by decide +kernel)
    (AtRest d ∧ d.shared.state = .installPermissionRequired) ∧
      ((system demoPlatform).exec (fun _ _ => true) d
        ([.event (.setPermission true), .event .onResume] ++ steps 4 3)).map
        (fun e => (decide (AtRest e), e.shared.state)) =
          some (true, .installPermissionRequired) ∧
      ∀ e apkFile, (system demoPlatform).Run (fun _ a => demoOffer.Favourable a) d e →
        e.shared.state ≠ .readyToInstall apkFile := by
  refine ⟨by decide +kernel, by decide +kernel, fun e apkFile hrun hready => ?_⟩
  rw [trapped demoOffer (by decide +kernel) (by decide +kernel) hrun] at hready
  exact absurd hready (by simp)

end Updater
end AioVpn
