import AioVpn.Config.Inet
import AioVpn.Coroutine.Pool

/-!
# The updater

`Updater` looks for a newer version of the app, downloads it, compares its SHA-256 with the
one the server announced, and offers the file for installation.  It is one object for the
whole process: a state that the screens observe, a flag `isUpdating`, and jobs that run on
background threads.

* `checkNow` launches a job that asks the server and writes what it says into the state.
* `startUpdate` returns at once if the flag is set or the state says that an update is under
  way, and otherwise launches the job `update`, whose first step sets the flag.

The settings screen calls them after it has made sure that the device has a token, the
application calls the first one when it starts.

The atomic steps are the reads and writes of the flag and of the state, each request to the
server, each transaction of the preferences and each operation on the APK file; the hash of
the file is one step.  The answer to the download request is the whole response, and the
loop over it writes one chunk at a time.  A request, a transaction or a file operation may
fail at any time.

The platform is a parameter: `java.net.URL`, the digest and the version of the running app.
-/

namespace AioVpn

open Coroutine

/-! ## Data -/

/-- `UpdateState`.  An install intent is given by the version in the name of the file it
points to; the other intent is always the same one. -/
inductive UpdateState where
  | idle
  | checking
  | startingDownload
  | downloading (bytesDownloaded bytesTotal : ℤ)
  | verifying
  | launchingInstaller
  | available (versionCode : ℤ) (versionName : JString) (mandatory : Bool)
      (releaseNotes : Option JString)
  | installPermissionRequired
  | readyToInstall (apkFile : ℤ)
  | error (message : JString)
  deriving DecidableEq

/-- `LatestAppResponse`. -/
structure LatestAppResponse where
  id : ℤ
  versionCode : ℤ
  versionName : JString
  mandatory : Bool
  releaseNotes : Option JString
  sha256 : JString
  apkUrl : JString
  deriving DecidableEq

/-- The object in the body of the server's answer; a missing key is `none`. -/
structure LatestJson where
  id : Option ℤ := none
  versionCode : Option ℤ := none
  versionName : Option JString := none
  mandatory : Option Bool := none
  releaseNotes : Option JString := none
  sha256 : Option JString := none
  apkUrl : Option JString := none
  deriving DecidableEq

/-- The exceptions of the updater, with their messages. -/
inductive UpdateExn where
  | io (message : JString)
  | security (message : JString)
  /-- An exception of the platform. -/
  | platform (message : Option JString)
  deriving DecidableEq

/-- `e.message`. -/
def UpdateExn.message : UpdateExn → Option JString
  | .io message => some message
  | .security message => some message
  | .platform message => message

/-- The parts of a `java.net.URL` that are looked at. -/
structure JavaUrl where
  protocol : JString
  host : JString

/-- The platform the updater runs on. -/
structure UpdatePlatform where
  /-- `BuildConfig.VERSION_CODE`. -/
  versionCode : ℤ
  /-- The constructor of `java.net.URL`. -/
  url : JString → Except UpdateExn JavaUrl
  /-- `MessageDigest.getInstance("SHA-256")`. -/
  digest : List UInt8 → List UInt8

/-- The answer to the request for the latest version. -/
structure LatestHttp where
  responseCode : ℤ
  /-- What reading the body as a JSON object gives. -/
  body : Except UpdateExn LatestJson

/-- The answer to the request for the file. -/
structure ApkHttp where
  responseCode : ℤ
  contentLength : ℤ
  /-- What the successive reads give. -/
  chunks : List (List UInt8)
  /-- The exception that ends them, if it is not the end of the stream. -/
  broken : Option UpdateExn := none

/-- What the environment says at a step. -/
structure UpdateEnv where
  register : Except UpdateExn JString
  latest : Except UpdateExn LatestHttp
  apk : Except UpdateExn ApkHttp
  prefs : Except UpdateExn Unit := .ok ()
  file : Except UpdateExn Unit := .ok ()

/-- The fields of `Updater`, and what it reads and writes. -/
structure UpdaterState where
  state : UpdateState := .idle
  isUpdating : Bool := false
  deviceToken : Option JString := none
  seenVersion : Option ℤ := none
  consentedVersion : Option ℤ := none
  /-- The files `aiovpn-update-<versionCode>.apk`. -/
  files : ℤ → Option (List UInt8) := fun _ => none
  canRequestPackageInstalls : Bool := false
  /-- The metadata that was received, the latest first. -/
  fetched : List LatestJson := []

namespace Updater

/-! ## Atomic steps -/

/-- The atomic steps. -/
inductive UpdateOp where
  | isUpdating
  | setIsUpdating (value : Bool)
  | state
  | setState (state : UpdateState)
  /-- `deviceRepository.getOrRegisterDeviceToken()`. -/
  | register
  | deviceToken
  /-- The request for the latest version. -/
  | latest (token : JString)
  | setSeenVersion (version : ℤ)
  | setConsentedVersion (version : ℤ)
  /-- The request for the file. -/
  | apk (token url : JString)
  /-- `FileOutputStream(apkFile)`. -/
  | openFile (versionCode : ℤ)
  | write (versionCode : ℤ) (offset : ℕ) (bytes : List UInt8)
  | fileExists (versionCode : ℤ)
  | fileLength (versionCode : ℤ)
  /-- The digest of the file. -/
  | digest (versionCode : ℤ)
  | canRequestPackageInstalls

/-- The answers to the steps. -/
@[reducible] def UpdateOp.Res : UpdateOp → Type
  | isUpdating => Bool
  | setIsUpdating _ => Unit
  | state => UpdateState
  | setState _ => Unit
  | register => Except UpdateExn JString
  | deviceToken => Option JString
  | latest _ => Except UpdateExn LatestHttp
  | setSeenVersion _ => Except UpdateExn Unit
  | setConsentedVersion _ => Except UpdateExn Unit
  | apk _ _ => Except UpdateExn ApkHttp
  | openFile _ => Except UpdateExn Unit
  | write _ _ _ => Except UpdateExn Unit
  | fileExists _ => Bool
  | fileLength _ => ℤ
  | digest _ => Except UpdateExn (List UInt8)
  | canRequestPackageInstalls => Bool

/-- Writing at an offset; a gap is filled with zeros. -/
def writeAt (content : List UInt8) (offset : ℕ) (bytes : List UInt8) : List UInt8 :=
  content.take offset ++ List.replicate (offset - content.length) 0 ++ bytes ++
    content.drop (offset + bytes.length)

/-- The metadata in an answer that is read. -/
def metadata : Except UpdateExn LatestHttp → Option LatestJson
  | .ok ⟨responseCode, .ok json⟩ => if responseCode = 200 then some json else none
  | _ => none

/-- The answer to a step and the state after it. -/
def perform (plat : UpdatePlatform) :
    (o : UpdateOp) → UpdateEnv → UpdaterState → o.Res × UpdaterState
  | .isUpdating, _, s => (s.isUpdating, s)
  | .setIsUpdating value, _, s => ((), { s with isUpdating := value })
  | .state, _, s => (s.state, s)
  | .setState state, _, s => ((), { s with state := state })
  | .register, env, s =>
      match JString.takeIfNotBlank s.deviceToken with
      | some token => (.ok token, s)
      | none =>
          match env.register with
          | .ok token => (.ok token, { s with deviceToken := some token })
          | .error e => (.error e, s)
  | .deviceToken, _, s => (s.deviceToken, s)
  | .latest _, env, s =>
      (env.latest, { s with fetched := (metadata env.latest).toList ++ s.fetched })
  | .setSeenVersion version, env, s =>
      (env.prefs, if env.prefs.isOk then { s with seenVersion := some version } else s)
  | .setConsentedVersion version, env, s =>
      (env.prefs, if env.prefs.isOk then { s with consentedVersion := some version } else s)
  | .apk _ _, env, s => (env.apk, s)
  | .openFile versionCode, env, s =>
      (env.file,
        if env.file.isOk then { s with files := Function.update s.files versionCode (some []) }
        else s)
  | .write versionCode offset bytes, env, s =>
      (env.file,
        if env.file.isOk then
          { s with files := Function.update s.files versionCode
                     ((s.files versionCode).map fun content => writeAt content offset bytes) }
        else s)
  | .fileExists versionCode, _, s => ((s.files versionCode).isSome, s)
  | .fileLength versionCode, _, s => (((s.files versionCode).getD []).length, s)
  | .digest versionCode, env, s =>
      match env.file, s.files versionCode with
      | .ok (), some content => (.ok (plat.digest content), s)
      | .ok (), none => (.error (.platform none), s)
      | .error e, _ => (.error e, s)
  | .canRequestPackageInstalls, _, s => (s.canRequestPackageInstalls, s)

/-- What a step leaves alone. -/
structure Frame (o : UpdateOp) (s s' : UpdaterState) : Prop where
  state : (∀ state, o ≠ .setState state) → s'.state = s.state
  isUpdating : (∀ value, o ≠ .setIsUpdating value) → s'.isUpdating = s.isUpdating
  files : (∀ v, o ≠ .openFile v) → (∀ v offset bytes, o ≠ .write v offset bytes) →
    s'.files = s.files
  fetched : ∀ json ∈ s.fetched, json ∈ s'.fetched
  permission : s'.canRequestPackageInstalls = s.canRequestPackageInstalls

theorem Frame.refl (o : UpdateOp) (s : UpdaterState) : Frame o s s :=
  ⟨fun _ => rfl, fun _ => rfl, fun _ _ => rfl, fun _ h => h, rfl⟩

theorem perform_frame (plat : UpdatePlatform) (o : UpdateOp) (env : UpdateEnv) (s : UpdaterState) :
    Frame o s (perform plat o env s).2 := by
  cases o with
  | setIsUpdating value => exact ⟨fun _ => rfl, fun h => absurd rfl (h value), fun _ _ => rfl,
      fun _ h => h, rfl⟩
  | setState state => exact ⟨fun h => absurd rfl (h state), fun _ => rfl, fun _ _ => rfl,
      fun _ h => h, rfl⟩
  | register =>
    simp only [perform]
    split
    · exact .refl _ s
    · split
      · exact ⟨fun _ => rfl, fun _ => rfl, fun _ _ => rfl, fun _ h => h, rfl⟩
      · exact .refl _ s
  | latest token =>
    exact ⟨fun _ => rfl, fun _ => rfl, fun _ _ => rfl, fun _ h => List.mem_append_right _ h, rfl⟩
  | setSeenVersion version =>
    simp only [perform]
    split
    · exact ⟨fun _ => rfl, fun _ => rfl, fun _ _ => rfl, fun _ h => h, rfl⟩
    · exact .refl _ s
  | setConsentedVersion version =>
    simp only [perform]
    split
    · exact ⟨fun _ => rfl, fun _ => rfl, fun _ _ => rfl, fun _ h => h, rfl⟩
    · exact .refl _ s
  | openFile versionCode =>
    simp only [perform]
    split
    · exact ⟨fun _ => rfl, fun _ => rfl, fun h => absurd rfl (h versionCode), fun _ h => h, rfl⟩
    · exact .refl _ s
  | write versionCode offset bytes =>
    simp only [perform]
    split
    · exact ⟨fun _ => rfl, fun _ => rfl, fun _ h => absurd rfl (h versionCode offset bytes),
        fun _ h => h, rfl⟩
    · exact .refl _ s
  | digest versionCode =>
    simp only [perform]
    split <;> exact .refl _ s
  | _ => exact .refl _ s

/-- The digest of a file that is there. -/
theorem perform_digest {plat : UpdatePlatform} {versionCode : ℤ} {env : UpdateEnv}
    {s : UpdaterState} {digest : List UInt8}
    (h : (perform plat (.digest versionCode) env s).1 = .ok digest) :
    ∃ content, s.files versionCode = some content ∧ plat.digest content = digest := by
  simp only [perform] at h
  split at h
  · rename_i content _ hcontent
    exact ⟨content, hcontent, Except.ok.inj h⟩
  · exact absurd h (by simp)
  · exact absurd h (by simp)

/-- A body over these steps. -/
abbrev UpdateProg (ε α : Type) := Prog UpdateOp UpdateOp.Res ε α

/-- One atomic step of a body. -/
def step {ε : Type} (o : UpdateOp) : UpdateProg ε o.Res := Prog.perform o

/-! ## Metadata -/

/-- `json.getLong(key)` and `json.getString(key)`. -/
def get {α : Type} (key : String) : Option α → Except UpdateExn α
  | some value => .ok value
  | none => .error (.platform (some (jstr "No value for " ++ jstr key)))

/-- The construction of the response from the object. -/
def readResponse (json : LatestJson) : Except UpdateExn LatestAppResponse := do
  let id ← get "id" json.id
  let versionCode ← get "version_code" json.versionCode
  let versionName ← get "version_name" json.versionName
  let mandatory := json.mandatory.getD false
  let releaseNotes := JString.takeIfNotBlank (some (json.releaseNotes.getD []))
  let sha256 ← get "sha256" json.sha256
  let apkUrl ← get "apk_url" json.apkUrl
  return ⟨id, versionCode, versionName, mandatory, releaseNotes, sha256, apkUrl⟩

/-- `ALLOWED_HOSTS`. -/
def allowedHosts : LinkedHashSet JString :=
  LinkedHashSet.empty.addAll [jstr "panel.aiovpn.co.uk", jstr "aiovpn.co.uk"]

/-- `validateApkUrl`. -/
def validateApkUrl (plat : UpdatePlatform) (apkUrl : JString) : Except UpdateExn Unit := do
  let url ← plat.url apkUrl
  if url.protocol ≠ jstr "https" ∨ url.host ∉ allowedHosts then
    .error (.security (jstr "Untrusted APK URL: " ++ apkUrl))
  else .ok ()

/-- `requireDeviceToken`. -/
def requireDeviceToken : UpdateProg UpdateExn JString := do
  match JString.takeIfNotBlank (← step .deviceToken) with
  | some token => pure token
  | none => .throw (.io (jstr "Missing device token"))

/-- `fetchLatest`. -/
def fetchLatest (plat : UpdatePlatform) : UpdateProg UpdateExn (Option LatestAppResponse) := do
  let token ← requireDeviceToken
  let http ← Prog.ofExcept (← step (.latest token))
  if http.responseCode ≠ 200 then
    .throw (.io (jstr "Update check failed: " ++ decimal http.responseCode))
  else
    let json ← Prog.ofExcept http.body
    let response ← Prog.ofExcept (readResponse json)
    Prog.ofExcept (validateApkUrl plat response.apkUrl)
    pure (some response)

/-! ## The file -/

/-- `MAX_APK_SIZE_BYTES`. -/
def maxApkSizeBytes : ℤ := 500 * 1024 * 1024

/-- The loop that copies the stream into the file. -/
def copyChunks (versionCode totalBytes : ℤ) (broken : Option UpdateExn) :
    List (List UInt8) → ℕ → UpdateProg UpdateExn Unit
  | [], _ =>
      match broken with
      | some e => .throw e
      | none => pure ()
  | chunk :: chunks, downloaded => do
      Prog.ofExcept (← step (.write versionCode downloaded chunk))
      let downloaded := downloaded + chunk.length
      if totalBytes > 0 ∧ downloaded > totalBytes then
        .throw (.io (jstr "Download size mismatch"))
      else
        step (.setState (.downloading downloaded (max totalBytes 0)))
        copyChunks versionCode totalBytes broken chunks downloaded

/-- The checks after the download: `exists`, `length`, `length`. -/
def checkFile (versionCode totalBytes : ℤ) : UpdateProg UpdateExn Unit := do
  if !(← step (.fileExists versionCode)) then
    .throw (.io (jstr "Downloaded APK file is empty"))
  else if (← step (.fileLength versionCode)) ≤ 0 then
    .throw (.io (jstr "Downloaded APK file is empty"))
  else if totalBytes > 0 then
    if (← step (.fileLength versionCode)) ≠ totalBytes then
      .throw (.io (jstr "Downloaded APK size mismatch"))
    else pure ()
  else pure ()

/-- `downloadApk`; the file is given by its version. -/
def downloadApk (plat : UpdatePlatform) (update : LatestAppResponse) : UpdateProg UpdateExn ℤ := do
  let token ← requireDeviceToken
  let _ ← Prog.ofExcept (plat.url update.apkUrl)
  let http ← Prog.ofExcept (← step (.apk token update.apkUrl))
  if http.responseCode ≠ 200 then
    .throw (.io (jstr "APK download failed: " ++ decimal http.responseCode))
  else
    let totalBytes := http.contentLength
    if totalBytes > maxApkSizeBytes then
      .throw (.io (jstr "APK too large: " ++ decimal totalBytes ++ jstr " bytes"))
    else
      Prog.ofExcept (← step (.openFile update.versionCode))
      copyChunks update.versionCode totalBytes http.broken http.chunks 0
      checkFile update.versionCode totalBytes
      pure update.versionCode

/-- A hexadecimal digit in lower case. -/
def hexDigit (n : ℕ) : JChar := (jstr "0123456789abcdef").getD n 0

/-- The digest in hexadecimal. -/
def hex (digest : List UInt8) : JString :=
  digest.flatMap fun b => [hexDigit (b.toNat / 16), hexDigit (b.toNat % 16)]

/-- The announced digest. -/
def expected (expectedHex : JString) : JString :=
  JString.toLowerCase (JString.kotlinTrim expectedHex)

/-- `verifySha256`. -/
def verifySha256 (file : ℤ) (expectedHex : JString) : UpdateProg UpdateExn Unit := do
  let digest ← Prog.ofExcept (← step (.digest file))
  if hex digest ≠ expected expectedHex then .throw (.security (jstr "APK SHA-256 mismatch"))
  else pure ()

/-! ## The jobs -/

/-- The coroutines. -/
inductive Job where
  /-- The job of `checkNow`. -/
  | checkNow
  /-- A call of `startUpdate`. -/
  | startUpdate
  /-- The job of `startUpdate`. -/
  | update
  /-- A screen or the application makes sure of the token and calls `checkNow`. -/
  | prepareCheck
  /-- A screen makes sure of the token and calls `startUpdate`. -/
  | prepareUpdate
  deriving DecidableEq

/-- The state for an exception. -/
def errorState (e : UpdateExn) (default : String) : UpdateState :=
  .error (e.message.getD (jstr default))

/-- The job of `checkNow`. -/
def checkNow (plat : UpdatePlatform) : UpdateProg Empty Unit :=
  Prog.tryCatch (do
    step (.setState .checking)
    match ← fetchLatest plat with
    | some update =>
        if update.versionCode > plat.versionCode then
          Prog.ofExcept (← step (.setSeenVersion update.versionCode))
          step (.setState (.available update.versionCode update.versionName update.mandatory
            update.releaseNotes))
        else step (.setState .idle)
    | none => step (.setState .idle))
  fun e => step (.setState (errorState e "Update check failed"))

/-- An update is under way, or finished and not installed. -/
def inProgress : UpdateState → Bool
  | .startingDownload => true
  | .downloading _ _ => true
  | .verifying => true
  | .installPermissionRequired => true
  | .readyToInstall _ => true
  | .launchingInstaller => true
  | _ => false

/-- `startUpdate`, up to the launch of the job. -/
def startUpdate {ε : Type} : UpdateProg ε (Option Job) := do
  if ← step .isUpdating then pure none
  else if inProgress (← step .state) then pure none
  else pure (some .update)

/-- What the job of `startUpdate` tries. -/
def tryUpdate (plat : UpdatePlatform) : UpdateProg UpdateExn Unit := do
  step (.setIsUpdating true)
  match ← fetchLatest plat with
  | none => .throw (.io (jstr "No update metadata found"))
  | some update =>
      if update.versionCode ≤ plat.versionCode then step (.setState .idle)
      else
        Prog.ofExcept (← step (.setConsentedVersion update.versionCode))
        step (.setState .startingDownload)
        let apkFile ← downloadApk plat update
        step (.setState .verifying)
        verifySha256 apkFile update.sha256
        if ← step .canRequestPackageInstalls then step (.setState (.readyToInstall apkFile))
        else step (.setState .installPermissionRequired)

/-- The job of `startUpdate`. -/
def update (plat : UpdatePlatform) : UpdateProg Empty Unit :=
  Prog.tryFinally
    ((tryUpdate plat).tryCatch fun e => step (.setState (errorState e "Update failed")))
    (step (.setIsUpdating false))

/-- The body of a coroutine. -/
def bodyOf (plat : UpdatePlatform) : Job → UpdateProg Empty (Option Job)
  | .checkNow => do
      checkNow plat
      pure none
  | .startUpdate => startUpdate
  | .update => do
      update plat
      pure none
  | .prepareCheck =>
      Prog.tryCatch (do
        let _ ← Prog.ofExcept (← step .register)
        pure (some .checkNow)) fun (_ : UpdateExn) => pure none
  | .prepareUpdate =>
      Prog.tryCatch (do
        let _ ← Prog.ofExcept (← step .register)
        startUpdate) fun (_ : UpdateExn) => pure none

/-- `startUpdate`, step by step. -/
theorem startUpdate_eq {ε : Type} : (startUpdate : UpdateProg ε (Option Job)) =
    .op .isUpdating fun busy =>
      match busy with
      | true => .pure none
      | false => .op .state fun state =>
          .pure (if inProgress state = true then none else some .update) := by
  refine congrArg (Prog.op _) (funext fun busy => ?_)
  cases busy with
  | true => rfl
  | false =>
    refine congrArg (Prog.op _) (funext fun state => ?_)
    show (if inProgress state = true then _ else _) = _
    cases inProgress state <;> rfl

/-- `startUpdate` throws nothing, so what would catch it does not matter. -/
theorem bodyOf_prepareUpdate (plat : UpdatePlatform) : bodyOf plat .prepareUpdate =
    .op .register fun result =>
      match result with
      | .ok _ => startUpdate
      | .error _ => .pure none := by
  refine congrArg (Prog.op _) (funext fun result => ?_)
  cases result with
  | error e => rfl
  | ok token =>
    show Prog.tryCatch startUpdate _ = _
    rw [startUpdate_eq, startUpdate_eq]
    refine congrArg (Prog.op _) (funext fun busy => ?_)
    cases busy <;> rfl

/-! ## The system -/

/-- What can happen outside the jobs. -/
inductive UpdateEvent where
  | checkNow
  | startUpdate
  /-- The row of the settings screen is clicked. -/
  | click
  /-- `SettingsActivity.onResume`. -/
  | onResume
  /-- The user grants or withdraws the permission to install apps. -/
  | setPermission (granted : Bool)
  deriving DecidableEq

/-- The listener of the row: the job it launches in a state. -/
def click : UpdateState → Option Job
  | .idle => some .prepareCheck
  | .error _ => some .prepareCheck
  | .available _ _ _ _ => some .prepareUpdate
  -- the intent of the state is started
  | .installPermissionRequired => none
  | .readyToInstall _ => none
  -- repeated presses are ignored
  | .checking => none
  | .startingDownload => none
  | .downloading _ _ => none
  | .verifying => none
  | .launchingInstaller => none

/-- `SettingsActivity.onResume`: the job it launches. -/
def onResume (s : UpdaterState) : Option Job :=
  if s.state = .installPermissionRequired ∧ s.canRequestPackageInstalls = true then
    some .prepareUpdate
  else none

/-- The state after an event and the job it launches. -/
def handle : UpdateEvent → UpdaterState → Option (UpdaterState × Option Job)
  | .checkNow, s => some (s, some .checkNow)
  | .startUpdate, s => some (s, some .startUpdate)
  | .click, s => some (s, click s.state)
  | .onResume, s => some (s, onResume s)
  | .setPermission granted, s => some ({ s with canRequestPackageInstalls := granted }, none)

/-- The updater as a system of coroutines. -/
def system (plat : UpdatePlatform) :
    System UpdateOp UpdateOp.Res Empty UpdateEnv UpdaterState Job UpdateEvent where
  perform := perform plat
  body := bodyOf plat
  handle := handle

/-- A configuration of the updater. -/
abbrev UpdateConf := Conf UpdateOp UpdateOp.Res Empty Job UpdaterState

/-- A process that starts, on a device in this state: the fields of `Updater` are new, and
the application makes sure of the token and calls `checkNow`. -/
def start (plat : UpdatePlatform) (device : UpdaterState) : UpdateConf :=
  ⟨{ device with state := .idle, isUpdating := false, fetched := [] },
    [⟨.prepareCheck, bodyOf plat .prepareCheck⟩]⟩

end Updater
end AioVpn
