import AioVpn.Updater.Updater

/-!
# What is offered for installation has been verified

The job of `startUpdate` verifies the file and then offers it.  This file is about what
stands between the two: the flag that is to keep a second job away is set by the first step
of the job, not by the call that launches it.  Two calls that come before that step launch
two jobs, both write the same file, and one of them truncates it after the other has
verified it (`unverified_file_offered`).

## Runs with one job at a time

`exclusive` is the condition on the runs: whenever `startUpdate` gets past its second check
and launches its job, the flag is still down and no earlier job is yet to raise it.  Under
this condition the job is alone with the file: the other coroutines only write states that
offer nothing, which is the `rely` of its contract, and from its check on the state offers
nothing until the job itself offers the file it has verified.

`ready_to_install_is_verified` is the result: in every state of such a run in which an
update is offered, its file exists, and its digest is the one announced in metadata that
was received, for a newer version and a trusted address.
-/

namespace AioVpn

open Coroutine

namespace Updater

variable {plat : UpdatePlatform}

/-! ## Verified files -/

variable (plat) in
/-- An address that passes `validateApkUrl`. -/
def TrustedUrl (apkUrl : JString) : Prop :=
  ∃ url, plat.url apkUrl = .ok url ∧ url.protocol = jstr "https" ∧ url.host ∈ allowedHosts

variable (plat) in
/-- A response that was received. -/
def Announced (update : LatestAppResponse) (s : UpdaterState) : Prop :=
  ∃ json ∈ s.fetched, readResponse json = .ok update ∧ TrustedUrl plat update.apkUrl

variable (plat) in
/-- The file exists and has the announced digest. -/
def Matches (update : LatestAppResponse) (s : UpdaterState) : Prop :=
  ∃ content, s.files update.versionCode = some content ∧
    hex (plat.digest content) = expected update.sha256

variable (plat) in
/-- **A verified file**: it has the digest announced in metadata that was received, for a
newer version and a trusted address. -/
def Verified (apkFile : ℤ) (s : UpdaterState) : Prop :=
  ∃ update, Announced plat update s ∧ plat.versionCode < update.versionCode ∧
    update.versionCode = apkFile ∧ Matches plat update s

variable (plat) in
/-- Only verified files are offered. -/
def OffersVerified (s : UpdaterState) : Prop :=
  ∀ apkFile, s.state = .readyToInstall apkFile → Verified plat apkFile s

theorem trustedUrl_of_validateApkUrl {apkUrl : JString}
    (h : validateApkUrl plat apkUrl = .ok ()) : TrustedUrl plat apkUrl := by
  unfold validateApkUrl at h
  cases hurl : plat.url apkUrl with
  | error e =>
    rw [hurl] at h
    exact absurd h (by simp [bind, Except.bind])
  | ok url =>
    rw [hurl] at h
    by_cases hbad : url.protocol ≠ jstr "https" ∨ url.host ∉ allowedHosts
    · simp only [bind, Except.bind, if_pos hbad] at h
      exact absurd h (by simp)
    · rw [not_or, not_not, not_not] at hbad
      exact ⟨url, hurl, hbad⟩

/-! ## The rest of the system -/

/-- What the other coroutines may do while the job of `startUpdate` runs: they do not touch
the files and the flag, they offer nothing, and they receive metadata. -/
structure Undisturbed (s s' : UpdaterState) : Prop where
  files : s'.files = s.files
  isUpdating : s'.isUpdating = s.isUpdating
  ready : ∀ apkFile, s'.state = .readyToInstall apkFile → s.state = .readyToInstall apkFile
  fetched : ∀ json ∈ s.fetched, json ∈ s'.fetched

theorem Undisturbed.refl (s : UpdaterState) : Undisturbed s s :=
  ⟨rfl, rfl, fun _ h => h, fun _ h => h⟩

theorem Undisturbed.trans {s t u : UpdaterState} (h : Undisturbed s t) (h' : Undisturbed t u) :
    Undisturbed s u :=
  ⟨h'.files.trans h.files, h'.isUpdating.trans h.isUpdating, fun f hf => h.ready f (h'.ready f hf),
    fun json hjson => h'.fetched json (h.fetched json hjson)⟩

theorem Announced.mono {update : LatestAppResponse} {s s' : UpdaterState}
    (h : Announced plat update s) (hfetched : ∀ json ∈ s.fetched, json ∈ s'.fetched) :
    Announced plat update s' := by
  obtain ⟨json, hjson, hread⟩ := h
  exact ⟨json, hfetched json hjson, hread⟩

theorem Matches.undisturbed {update : LatestAppResponse} {s s' : UpdaterState}
    (h : Matches plat update s) (hs : Undisturbed s s') : Matches plat update s' := by
  obtain ⟨content, hcontent, hdigest⟩ := h
  exact ⟨content, by rw [hs.files]; exact hcontent, hdigest⟩

theorem OffersVerified.undisturbed {s s' : UpdaterState} (h : OffersVerified plat s)
    (hs : Undisturbed s s') : OffersVerified plat s' := by
  intro apkFile hready
  obtain ⟨update, hannounced, hnewer, hfile, hmatches⟩ := h apkFile (hs.ready apkFile hready)
  exact ⟨update, hannounced.mono hs.fetched, hnewer, hfile, hmatches.undisturbed hs⟩

variable (plat) in
/-- What the job of `startUpdate` is verified against. -/
def contract : Contract UpdateOp UpdateOp.Res UpdateEnv UpdaterState where
  perform := perform plat
  assume := fun _ _ _ => True
  assert := fun o s => (o = .setIsUpdating true ∨ s.isUpdating = true) ∧ OffersVerified plat s
  rely := Undisturbed
  rely_refl := .refl
  rely_trans := .trans

/-! ## The job -/

/-- The job is at work: the flag is up, and nothing is offered. -/
structure Working (s : UpdaterState) : Prop where
  isUpdating : s.isUpdating = true
  notReady : ∀ apkFile, s.state ≠ .readyToInstall apkFile

theorem Working.undisturbed {s s' : UpdaterState} (h : Working s) (hs : Undisturbed s s') :
    Working s' :=
  ⟨hs.isUpdating.trans h.isUpdating, fun f hf => h.notReady f (hs.ready f hf)⟩

theorem Working.offersVerified {s : UpdaterState} (h : Working s) : OffersVerified plat s :=
  fun f hf => absurd hf (h.notReady f)

theorem Working.assert {s : UpdaterState} (h : Working s) (o : UpdateOp) :
    (contract plat).assert o s := ⟨Or.inr h.isUpdating, h.offersVerified⟩

/-- The steps that neither offer a file nor move the flag. -/
def Harmless : UpdateOp → Prop
  | .setIsUpdating _ => False
  | .setState (.readyToInstall _) => False
  | _ => True

theorem Working.perform (plat : UpdatePlatform) {o : UpdateOp} (ho : Harmless o) (env : UpdateEnv)
    {s : UpdaterState} (h : Working s) : Working (Updater.perform plat o env s).2 := by
  have hframe := perform_frame plat o env s
  constructor
  · rw [hframe.isUpdating (by rintro value rfl; exact ho)]
    exact h.isUpdating
  · by_cases hstate : ∃ state, o = .setState state
    · obtain ⟨state, rfl⟩ := hstate
      rintro apkFile rfl
      exact ho
    · rw [hframe.state (fun state hs => hstate ⟨state, hs⟩)]
      exact h.notReady

/-- At work on this update. -/
def WorkingOn (plat : UpdatePlatform) (update : LatestAppResponse) (s : UpdaterState) : Prop :=
  Working s ∧ Announced plat update s

theorem WorkingOn.undisturbed {update : LatestAppResponse} {s s' : UpdaterState}
    (h : WorkingOn plat update s) (hs : Undisturbed s s') : WorkingOn plat update s' :=
  ⟨h.1.undisturbed hs, h.2.mono hs.fetched⟩

theorem WorkingOn.perform {update : LatestAppResponse} {o : UpdateOp} (ho : Harmless o)
    (env : UpdateEnv) {s : UpdaterState} (h : WorkingOn plat update s) :
    WorkingOn plat update (Updater.perform plat o env s).2 :=
  ⟨h.1.perform plat ho env, h.2.mono (perform_frame plat o env s).fetched⟩

/-- **Harmless parts** of the job. -/
theorem wp_of_harmless {α : Type} {p : UpdateProg UpdateExn α} (hp : p.OnlyOps Harmless)
    {update : LatestAppResponse} {s : UpdaterState} (h : WorkingOn plat update s) :
    (contract plat).wp (fun _ => WorkingOn plat update) (fun _ => WorkingOn plat update) p s :=
  Contract.wp_of_onlyOps (fun _ _ hs hrely => hs.undisturbed hrely) (fun o _ _ hs => hs.1.assert o)
    (fun _ env _ ho hs _ => hs.perform ho env) hp h

/-- One step of the job. -/
theorem wp_step {α : Type} {o : UpdateOp} {k : o.Res → UpdateProg UpdateExn α}
    {Q : α → UpdaterState → Prop} {E : UpdateExn → UpdaterState → Prop} {s : UpdaterState}
    (h : Working s)
    (hk : ∀ s₁ env, Undisturbed s s₁ → Working s₁ →
      (contract plat).wp Q E (k (perform plat o env s₁).1) (perform plat o env s₁).2) :
    (contract plat).wp Q E ((step o).bind k) s := by
  intro s₁ hs₁
  exact ⟨(h.undisturbed hs₁).assert o, fun env _ => hk s₁ env hs₁ (h.undisturbed hs₁)⟩

theorem wp_requireDeviceToken {s : UpdaterState} (h : Working s) :
    (contract plat).wp (fun _ => Working) (fun _ => Working) requireDeviceToken s := by
  refine wp_step h fun s₁ env _ h₁ => ?_
  cases JString.takeIfNotBlank (perform plat .deviceToken env s₁).1 with
  | none => exact h₁
  | some token => exact h₁

/-- **The metadata** the job works with was received, and its address is trusted. -/
theorem wp_fetchLatest {s : UpdaterState} (h : Working s) :
    (contract plat).wp (fun r s' => Working s' ∧ ∀ update, r = some update →
      Announced plat update s') (fun _ => Working) (fetchLatest plat) s := by
  refine Contract.wp_seq (wp_requireDeviceToken h) (fun _ _ h => h) fun token s h => ?_
  refine wp_step h fun s₁ env _ h₁ => ?_
  have h₂ : Working (perform plat (.latest token) env s₁).2 := h₁.perform plat (by trivial) env
  cases henv : env.latest with
  | error e =>
    have hresult : (perform plat (.latest token) env s₁).1 = .error e := henv
    rw [hresult]
    exact h₂
  | ok http =>
    have hresult : (perform plat (.latest token) env s₁).1 = .ok http := henv
    obtain ⟨code, body⟩ := http
    rw [hresult]
    show (contract plat).wp _ _ (if code ≠ 200 then _ else _) _
    by_cases hcode : code = 200
    · rw [if_neg (not_not.mpr hcode)]
      cases body with
      | error e => exact h₂
      | ok json =>
        -- the object was received
        have hmem : json ∈ (perform plat (.latest token) env s₁).2.fetched := by
          show json ∈ (metadata env.latest).toList ++ s₁.fetched
          rw [henv, hcode]
          exact List.mem_cons_self
        show (contract plat).wp _ _ ((Prog.ofExcept (readResponse json)).bind _) _
        cases hread : readResponse json with
        | error e => exact h₂
        | ok response =>
          show (contract plat).wp _ _
            ((Prog.ofExcept (validateApkUrl plat response.apkUrl)).bind _) _
          cases hvalid : validateApkUrl plat response.apkUrl with
          | error e => exact h₂
          | ok u =>
            refine ⟨h₂, fun update hupdate => ?_⟩
            obtain rfl := Option.some.inj hupdate
            exact ⟨json, hmem, hread, trustedUrl_of_validateApkUrl hvalid⟩
    · rw [if_pos hcode]
      exact h₂

theorem harmless_copyChunks (versionCode totalBytes : ℤ) (broken : Option UpdateExn)
    (chunks : List (List UInt8)) (downloaded : ℕ) :
    (copyChunks versionCode totalBytes broken chunks downloaded).OnlyOps Harmless := by
  induction chunks generalizing downloaded with
  | nil => cases broken <;> trivial
  | cons chunk chunks ih =>
    rw [copyChunks]
    refine .bind (.perform (by trivial)) fun r => .bind (.ofExcept r) fun _ => ?_
    dsimp only
    split
    · trivial
    · exact .bind (.perform (by trivial)) fun _ => ih _

theorem harmless_checkFile (versionCode totalBytes : ℤ) :
    (checkFile versionCode totalBytes).OnlyOps Harmless := by
  refine .bind (.perform (by trivial)) fun present => ?_
  split
  · trivial
  · refine .bind (.perform (by trivial)) fun length => ?_
    split
    · trivial
    · split
      · refine .bind (.perform (by trivial)) fun length => ?_
        split <;> trivial
      · trivial

theorem harmless_downloadApk (update : LatestAppResponse) :
    (downloadApk plat update).OnlyOps Harmless := by
  refine .bind (.bind (.perform (by trivial)) fun token => ?_) fun token => ?_
  · split <;> trivial
  refine .bind (.ofExcept _) fun _ => .bind (.perform (by trivial)) fun r =>
    .bind (.ofExcept r) fun http => ?_
  split
  · trivial
  · dsimp only
    split
    · trivial
    · refine .bind (.perform (by trivial)) fun r => .bind (.ofExcept r) fun _ => ?_
      refine .bind (harmless_copyChunks _ _ _ _ _) fun _ => ?_
      exact .bind (harmless_checkFile _ _) fun _ => trivial

/-- **The check**: after it the file has the announced digest. -/
theorem wp_verifySha256 {update : LatestAppResponse} {s : UpdaterState}
    (h : WorkingOn plat update s) :
    (contract plat).wp (fun _ s' => WorkingOn plat update s' ∧ Matches plat update s')
      (fun _ => WorkingOn plat update) (verifySha256 update.versionCode update.sha256) s := by
  refine wp_step h.1 fun s₁ env hs₁ _ => ?_
  have h₁ := h.undisturbed hs₁
  have h₂ : WorkingOn plat update (perform plat (.digest update.versionCode) env s₁).2 :=
    h₁.perform (by trivial) env
  cases hresult : (perform plat (.digest update.versionCode) env s₁).1 with
  | error e => exact h₂
  | ok digest =>
    show (contract plat).wp _ _ (if hex digest ≠ expected update.sha256 then _ else _) _
    by_cases hhex : hex digest = expected update.sha256
    · rw [if_neg (not_not.mpr hhex)]
      obtain ⟨content, hcontent, rfl⟩ := perform_digest hresult
      refine ⟨h₂, content, ?_, hhex⟩
      rw [(perform_frame plat _ env s₁).files (by simp) (by simp)]
      exact hcontent
    · rw [if_pos hhex]
      exact h₂

/-- What the job leaves when it is done with its work: the flag is up, and what is offered
is verified. -/
def Done (plat : UpdatePlatform) (s : UpdaterState) : Prop :=
  s.isUpdating = true ∧ OffersVerified plat s

theorem Working.done {s : UpdaterState} (h : Working s) : Done plat s :=
  ⟨h.isUpdating, h.offersVerified⟩

/-- The last step of an attempt that offers nothing. -/
theorem wp_setState {state : UpdateState} (hstate : Harmless (.setState state)) {s : UpdaterState}
    (h : Working s) :
    (contract plat).wp (fun _ => Done plat) (fun _ => Working)
      (step (.setState state) : UpdateProg UpdateExn Unit) s := by
  intro s₁ hs₁
  have h₁ := h.undisturbed hs₁
  exact ⟨h₁.assert _, fun env _ => (h₁.perform plat hstate env).done⟩

/-- **The end of the job**: the file that was verified is offered, if apps may be installed. -/
theorem wp_offer {update : LatestAppResponse} (hnewer : plat.versionCode < update.versionCode)
    {s : UpdaterState} (h : WorkingOn plat update s) (hmatches : Matches plat update s) :
    (contract plat).wp (fun _ => Done plat) (fun _ => Working)
      ((step .canRequestPackageInstalls).bind fun can =>
        if can then step (.setState (.readyToInstall update.versionCode))
        else step (.setState .installPermissionRequired) : UpdateProg UpdateExn Unit) s := by
  refine wp_step h.1 fun s₁ env hs₁ h₁ => ?_
  have hs : (perform plat .canRequestPackageInstalls env s₁).2 = s₁ := rfl
  rw [hs]
  split
  · intro s₂ hs₂
    have hs := hs₁.trans hs₂
    have h₂ := h₁.undisturbed hs₂
    refine ⟨h₂.assert _, fun env _ => ⟨h₂.isUpdating, ?_⟩⟩
    intro apkFile hready
    obtain rfl := UpdateState.readyToInstall.inj hready
    obtain ⟨content, hcontent, hdigest⟩ := hmatches.undisturbed hs
    exact ⟨update, h.2.mono hs.fetched, hnewer, rfl, content, hcontent, hdigest⟩
  · exact wp_setState (by trivial) h₁

theorem returns_downloadApk (update : LatestAppResponse) :
    (downloadApk plat update).Returns fun apkFile => apkFile = update.versionCode := by
  refine .bind _ fun token => .bind _ fun _ => .bind _ fun r => .bind _ fun http => ?_
  split
  · trivial
  · dsimp only
    split
    · trivial
    · exact .bind _ fun r => .bind _ fun _ => .bind _ fun _ => .bind _ fun _ => rfl

/-- **What the job tries.** -/
theorem wp_tryUpdate {s : UpdaterState} (h : ∀ apkFile, s.state ≠ .readyToInstall apkFile) :
    (contract plat).wp (fun _ => Done plat) (fun _ => Working) (tryUpdate plat) s := by
  intro s₁ hs₁
  have hnone : ∀ apkFile, s₁.state ≠ .readyToInstall apkFile :=
    fun f hf => h f (hs₁.ready f hf)
  refine ⟨⟨Or.inl rfl, fun f hf => absurd hf (hnone f)⟩, fun env _ => ?_⟩
  have h₁ : Working { s₁ with isUpdating := true } := ⟨rfl, hnone⟩
  show (contract plat).wp _ _ ((fetchLatest plat).bind _) { s₁ with isUpdating := true }
  refine Contract.wp_seq (wp_fetchLatest h₁) (fun _ _ h => h) fun r s hr => ?_
  cases r with
  | none => exact hr.1
  | some update =>
    have hon : WorkingOn plat update s := ⟨hr.1, hr.2 update rfl⟩
    show (contract plat).wp _ _ (if update.versionCode ≤ plat.versionCode then _ else _) s
    by_cases hold : update.versionCode ≤ plat.versionCode
    · rw [if_pos hold]
      exact wp_setState (by trivial) hon.1
    · rw [if_neg hold]
      have hexn : ∀ (e : UpdateExn) s', WorkingOn plat update s' → Working s' := fun _ _ h => h.1
      refine Contract.wp_seq (wp_of_harmless (.perform (by trivial)) hon) hexn fun r s hon => ?_
      refine Contract.wp_seq (wp_of_harmless (.ofExcept r) hon) hexn fun _ s hon => ?_
      refine Contract.wp_seq (wp_of_harmless (.perform (by trivial)) hon) hexn fun _ s hon => ?_
      refine Contract.wp_seq (Contract.wp_returns (returns_downloadApk update)
        (wp_of_harmless (harmless_downloadApk update) hon)) hexn ?_
      rintro _ s ⟨rfl, hon⟩
      refine Contract.wp_seq (wp_of_harmless (.perform (by trivial)) hon) hexn fun _ s hon => ?_
      refine Contract.wp_seq (wp_verifySha256 hon) hexn fun _ s hs => ?_
      exact wp_offer (not_le.mp hold) hs.1 hs.2

/-- **The job of `startUpdate`**, launched while nothing is offered. -/
theorem wp_update {s : UpdaterState} (h : ∀ apkFile, s.state ≠ .readyToInstall apkFile) :
    (contract plat).wp (fun _ => OffersVerified plat) (fun _ => OffersVerified plat)
      (update plat) s := by
  have hfinally : ∀ s, Done plat s → (contract plat).wp (fun _ => OffersVerified plat)
      (fun _ => OffersVerified plat) (step (.setIsUpdating false) : UpdateProg Empty Unit) s := by
    intro s hs s₁ hs₁
    have hoffers := hs.2.undisturbed hs₁
    exact ⟨⟨Or.inr (hs₁.isUpdating.trans hs.1), hoffers⟩, fun env _ => hoffers⟩
  rw [update, Contract.wp_tryFinally, Contract.wp_tryCatch]
  refine Contract.wp_mono (fun _ s hs => hfinally s hs) (fun e s hs => ?_) (wp_tryUpdate h)
  intro s₁ hs₁
  have h₁ := hs.undisturbed hs₁
  exact ⟨h₁.assert _, fun env _ => hfinally _ (h₁.perform plat (by trivial) env).done⟩

/-! ## The other coroutines -/

/-- The steps of the other coroutines, reads of the state apart. -/
def LightOp : UpdateOp → Prop
  | .isUpdating => True
  | .register => True
  | .deviceToken => True
  | .latest _ => True
  | .setSeenVersion _ => True
  | .setState (.readyToInstall _) => False
  | .setState _ => True
  | _ => False

/-- The other coroutines: the job of `startUpdate` is launched by a read of the state, when
no update is under way. -/
def Light : (o : UpdateOp) → (o.Res → UpdateProg Empty (Option Job)) → Prop
  | .state, k => ∀ state, (k state).launched = some .update → inProgress state = false
  | o, k => LightOp o ∧ ∀ r, (k r).launched ≠ some .update

theorem light_of_returns (o : UpdateOp) (k : o.Res → UpdateProg Empty (Option Job))
    (ho : LightOp o) (hk : ∀ r, (k r).Returns fun j => j ≠ some .update) : Light o k := by
  have hlaunch : ∀ r, (k r).launched ≠ some .update := fun r hr => (hk r).launched hr rfl
  cases o with
  | state => exact ho.elim
  | _ => exact ⟨ho, hlaunch⟩

theorem light_startUpdate : (startUpdate : UpdateProg Empty (Option Job)).Nodes Light := by
  rw [startUpdate_eq]
  refine ⟨⟨trivial, fun busy => ?_⟩, fun busy => ?_⟩
  · cases busy <;> simp
  · cases busy with
    | true => trivial
    | false =>
      refine ⟨fun state hlaunch => ?_, fun _ => trivial⟩
      by_contra hbusy
      rw [Bool.not_eq_false] at hbusy
      simp [hbusy] at hlaunch

theorem lightOps_fetchLatest : (fetchLatest plat).OnlyOps LightOp := by
  refine .bind (.bind (.perform (by trivial)) fun token => ?_) fun token => ?_
  · split <;> trivial
  refine .bind (.perform (by trivial)) fun r => .bind (.ofExcept r) fun http => ?_
  split
  · trivial
  · exact .bind (.ofExcept _) fun _ => .bind (.ofExcept _) fun _ => .bind (.ofExcept _) fun _ =>
      trivial

theorem lightOps_checkNow : (checkNow plat).OnlyOps LightOp := by
  refine .tryCatch (.bind (.perform (by trivial)) fun _ => .bind lightOps_fetchLatest fun r => ?_)
    fun e => .perform (by trivial)
  split
  · split
    · refine .bind (.perform (by trivial)) fun r => .bind (.ofExcept r) fun _ => ?_
      exact .perform (by trivial)
    · exact .perform (by trivial)
  · exact .perform (by trivial)

/-- **The other bodies** are light. -/
theorem light_bodyOf (plat : UpdatePlatform) (job : Job) (h : job ≠ .update) :
    (bodyOf plat job).Nodes Light := by
  cases job with
  | update => exact absurd rfl h
  | startUpdate => exact light_startUpdate
  | checkNow =>
    refine .of_onlyOps light_of_returns (.bind lightOps_checkNow fun _ => trivial) ?_
    exact .bind _ fun _ => by simp [Prog.Returns]
  | prepareCheck =>
    refine .of_onlyOps light_of_returns (.tryCatch (.bind (.perform (by trivial)) fun r =>
      .bind (.ofExcept r) fun _ => trivial) fun _ => trivial) ?_
    refine .tryCatch (.bind _ fun r => .bind _ fun _ => ?_) fun _ => ?_
    · simp [Prog.Returns]
    · simp [Prog.Returns]
  | prepareUpdate =>
    rw [bodyOf_prepareUpdate]
    refine ⟨⟨trivial, fun r => ?_⟩, fun r => ?_⟩
    · cases r <;> simp [startUpdate_eq]
    · cases r with
      | error e => trivial
      | ok token => exact light_startUpdate

/-! ## Runs -/

/-- The job of `startUpdate` has not raised the flag yet. -/
def raises (p : UpdateProg Empty (Option Job)) : Bool :=
  match p.nextOp with
  | some (.setIsUpdating true) => true
  | _ => false

/-- **One job at a time**: when a call of `startUpdate` reads a state in which no update is
under way, and so launches its job, the flag is down and no earlier job is yet to raise
it. -/
def exclusive (c : UpdateConf) : Act UpdateEvent UpdateEnv → Bool
  | .event _ => true
  | .step i _ =>
      match c.threads[i]? with
      | some ⟨_, .op .state _⟩ =>
          inProgress c.shared.state ||
            (!c.shared.isUpdating && c.threads.all fun t => !raises t.body)
      | _ => true

variable (plat) in
/-- The job of `startUpdate` as a tracked coroutine. -/
def tracking : Tracking UpdateOp UpdateOp.Res Empty UpdateEnv UpdaterState Job where
  contract := contract plat
  tracked := fun job => job = .update
  light := Light
  inv := OffersVerified plat
  pre := fun _ s => ∀ apkFile, s.state ≠ .readyToInstall apkFile

/-- When a job is launched, no other one is running. -/
theorem idle_of_exclusive {c : UpdateConf} (hc : (tracking plat).Inv c)
    (hup : c.shared.isUpdating = false) (hall : c.threads.all (fun t => !raises t.body) = true) :
    (tracking plat).Idle c := by
  intro t ht htracked
  by_contra hrunning
  rw [Bool.not_eq_false] at hrunning
  obtain ⟨o, k, hbody⟩ := Prog.exists_op_of_running hrunning
  rcases (hc.assert ht htracked hbody).1 with rfl | hflag
  · have hraises := List.all_eq_true.mp hall t ht
    rw [raises, hbody] at hraises
    exact absurd hraises Bool.false_ne_true
  · exact absurd (hup.symm.trans hflag) Bool.false_ne_true

/-- A step of another coroutine. -/
theorem undisturbed_perform (plat : UpdatePlatform) {o : UpdateOp}
    {k : o.Res → UpdateProg Empty (Option Job)} (h : Light o k) (env : UpdateEnv)
    (s : UpdaterState) : Undisturbed s (perform plat o env s).2 := by
  have hframe := perform_frame plat o env s
  have hother : (∀ state, o ≠ .setState state) → LightOp o ∨ o = .state →
      Undisturbed s (perform plat o env s).2 := by
    intro hstate hlight
    refine ⟨hframe.files ?_ ?_, hframe.isUpdating ?_, fun f hf => ?_, hframe.fetched⟩
    · rintro v rfl
      simp [LightOp] at hlight
    · rintro v offset bytes rfl
      simp [LightOp] at hlight
    · rintro value rfl
      simp [LightOp] at hlight
    · rw [hframe.state hstate] at hf
      exact hf
  cases o with
  | setState state =>
    refine ⟨rfl, rfl, fun f hf => ?_, hframe.fetched⟩
    obtain rfl : state = .readyToInstall f := hf
    exact h.1.elim
  | state => exact hother (by simp) (Or.inr rfl)
  | _ => exact hother (by simp) (Or.inl h.1)

/-- An event of the screens or of the user. -/
theorem handle_spec {e : UpdateEvent} {s s' : UpdaterState} {j : Option Job}
    (h : handle e s = some (s', j)) : Undisturbed s s' ∧ j ≠ some .update := by
  cases e with
  | checkNow =>
    obtain ⟨rfl, rfl⟩ := Prod.mk.inj (Option.some.inj h)
    exact ⟨.refl s, by simp⟩
  | startUpdate =>
    obtain ⟨rfl, rfl⟩ := Prod.mk.inj (Option.some.inj h)
    exact ⟨.refl s, by simp⟩
  | click =>
    obtain ⟨rfl, rfl⟩ := Prod.mk.inj (Option.some.inj h)
    refine ⟨.refl s, ?_⟩
    cases s.state <;> simp [click]
  | onResume =>
    obtain ⟨rfl, rfl⟩ := Prod.mk.inj (Option.some.inj h)
    refine ⟨.refl s, ?_⟩
    unfold onResume
    split <;> simp
  | setPermission granted =>
    obtain ⟨rfl, rfl⟩ := Prod.mk.inj (Option.some.inj h)
    exact ⟨⟨rfl, rfl, fun _ h => h, fun _ h => h⟩, by simp⟩

theorem tracking_sound (plat : UpdatePlatform) :
    (tracking plat).Sound (system plat) fun c a => exclusive c a = true where
  perform_eq := rfl
  running := by
    rintro _ rfl
    rfl
  light := light_bodyOf plat
  body := by
    rintro _ s rfl h
    refine Contract.wp_seq (wp_update h) (fun _ _ h => h) fun _ s hs => ?_
    exact ⟨by simp, fun _ => hs⟩
  event := by
    intro c e s' j _ _ hhandle
    obtain ⟨hs, hj⟩ := handle_spec hhandle
    refine ⟨?_, fun _ => ⟨fun hinv => hinv.undisturbed hs, Or.inr hs⟩⟩
    rintro i hi rfl
    exact absurd hi hj
  step := by
    intro c i env j o k hc hok hi _ hlight
    have hs := undisturbed_perform plat hlight env c.shared
    refine ⟨?_, fun _ => ⟨fun hinv => hinv.undisturbed hs, Or.inr hs⟩⟩
    rintro _ hlaunch rfl
    cases o with
    | state =>
      have hfree : inProgress c.shared.state = false := hlight c.shared.state hlaunch
      have hfirst : c.shared.isUpdating = false ∧
          c.threads.all (fun t => !raises t.body) = true := by
        simpa [exclusive, hi, hfree] using hok
      refine ⟨idle_of_exclusive hc hfirst.1 hfirst.2, fun _ apkFile hready => ?_⟩
      have hready' : c.shared.state = .readyToInstall apkFile := hready
      rw [hready'] at hfree
      exact absurd hfree Bool.false_ne_true.symm
    | _ => exact absurd hlaunch (hlight.2 _)
  assume := fun _ _ _ _ _ _ _ _ _ _ => trivial

/-- **An update that is offered has been verified.**  In every run of calls of `checkNow` and
`startUpdate`, of clicks, resumes and permission changes and of the steps of all jobs, for
every answer of the server, in which `startUpdate` launches its job only while no other one
is under way or yet to raise the flag: whenever an update is ready to install, its file
exists and its whole content has the digest announced in metadata that was received, for a
version newer than the running one and an `https` address on an allowed host. -/
theorem ready_to_install_is_verified (device : UpdaterState) (d : UpdateConf)
    (hrun : (system plat).Run (fun c a => exclusive c a = true) (start plat device) d)
    (apkFile : ℤ) (hready : d.shared.state = .readyToInstall apkFile) :
    ∃ update, (∃ json ∈ d.shared.fetched, readResponse json = .ok update) ∧
      plat.versionCode < update.versionCode ∧ update.versionCode = apkFile ∧
      TrustedUrl plat update.apkUrl ∧
      ∃ content, d.shared.files apkFile = some content ∧
        hex (plat.digest content) = expected update.sha256 := by
  have hstart : (tracking plat).Inv (start plat device) := by
    refine ⟨fun t ht _ => ?_, Or.inl ⟨fun t ht htracked => ?_, fun f hf => ?_⟩⟩
    · obtain rfl := List.mem_singleton.mp ht
      exact light_bodyOf plat .prepareCheck (by simp)
    · obtain rfl := List.mem_singleton.mp ht
      exact absurd htracked (by simp [tracking])
    · exact absurd hf (by simp [start])
  have hinv := (tracking_sound plat).run hrun hstart
  have hoffers : OffersVerified plat d.shared := by
    rcases hinv.2 with ⟨-, hoffers⟩ | ⟨t, l, r, -, -, hrunning, -, hwp⟩
    · exact hoffers
    · obtain ⟨o, k, hbody⟩ := Prog.exists_op_of_running hrunning
      rw [hbody] at hwp
      exact (Contract.assert_of_wp hwp).2
  obtain ⟨update, ⟨json, hjson, hread, htrusted⟩, hnewer, rfl, hmatches⟩ := hoffers apkFile hready
  exact ⟨update, ⟨json, hjson, hread⟩, hnewer, rfl, htrusted, hmatches⟩

/-- A platform with a digest that is easy to evaluate. -/
def demoPlatform : UpdatePlatform where
  versionCode := 1
  url := fun _ => .ok ⟨jstr "https", jstr "aiovpn.co.uk"⟩
  digest := id

/-- The metadata of a newer version with one byte. -/
def demoJson : LatestJson :=
  { id := some 1, versionCode := some 2, versionName := some (jstr "2.0"),
    sha256 := some (jstr "07"), apkUrl := some (jstr "https://aiovpn.co.uk/app.apk") }

/-- A server that offers it. -/
def demoServer : UpdateEnv where
  register := .ok (jstr "token")
  latest := .ok ⟨200, .ok demoJson⟩
  apk := .ok { responseCode := 200, contentLength := 1, chunks := [[7]] }

/-- A device that may install apps. -/
def demoDevice : UpdaterState :=
  { deviceToken := some (jstr "token"), canRequestPackageInstalls := true }

/-- Some steps of one coroutine. -/
def steps (i n : ℕ) : List (Act UpdateEvent UpdateEnv) := List.replicate n (.step i demoServer)

/-- The theorem for one call of `startUpdate` and its job. -/
theorem one_update_is_verified :
    let d := ((system demoPlatform).exec exclusive (start demoPlatform demoDevice)
      ([.event .startUpdate] ++ steps 1 2 ++ steps 2 18)).get (by decide +kernel)
    d.shared.state = .readyToInstall 2 ∧
      ∃ update, (∃ json ∈ d.shared.fetched, readResponse json = .ok update) ∧
        demoPlatform.versionCode < update.versionCode ∧ update.versionCode = 2 ∧
        TrustedUrl demoPlatform update.apkUrl ∧
        ∃ content, d.shared.files 2 = some content ∧
          hex (demoPlatform.digest content) = expected update.sha256 :=
  ⟨by decide +kernel, ready_to_install_is_verified demoDevice _
    (System.Run.of_exec (fun _ _ h => h) .refl (Option.some_get _).symm) 2 (by decide +kernel)⟩

/-- **An unverified file is offered.**  Two calls of `startUpdate` come before either job has
raised the flag, and both launch a job.  The first job downloads and verifies the file, the
second one opens and so truncates it, and the first one offers it: the file that is ready to
install is empty, and its digest is not the announced one. -/
theorem unverified_file_offered :
    ((system demoPlatform).exec (fun _ _ => true) (start demoPlatform demoDevice)
      ([.event .startUpdate, .event .startUpdate] ++ steps 1 2 ++ steps 2 2 ++ steps 3 15 ++
        steps 4 8 ++ steps 3 2)).map
      (fun d => (d.shared.state, d.shared.files 2, d.shared.fetched)) =
        some (.readyToInstall 2, some [], [demoJson, demoJson]) ∧
      hex (demoPlatform.digest []) ≠ expected (jstr "07") := by
  decide +kernel

end Updater
end AioVpn
