import AioVpn.Coroutine.Trace
import AioVpn.Updater.VerifiedInstall

/-!
# The size of a download

`downloadApk` compares the length that the response declares with `MAX_APK_SIZE_BYTES` before it
opens the file, and the loop compares the bytes that it has written with the declared length.
Nothing compares the bytes with the limit itself, so a response that declares no length is not
limited.

The call is cut at the opening of the file (`requestApk`, `receiveApk`) and the loop at the end of
a pass (`copyChunk`).

* `written_copyChunks_le`: with a declared length the loop writes at most one buffer more.
* `run_copyChunks_undeclared`: without one it writes whatever is sent.
* `files_of_downloadApk`: a call that returns leaves the whole stream in the file, not empty and of
  the declared length.

`keeps_limit_iff` says which responses are kept within the limit, and `limit_exceeded` is a response
that is not.
-/

namespace AioVpn

open Coroutine

namespace Updater

/-- `DEFAULT_BUFFER_SIZE`, the most that one `read` gives. -/
def defaultBufferSize : ℕ := 8 * 1024

/-- The number of bytes that a step writes to a file. -/
def UpdateOp.written : UpdateOp → ℕ
  | .write _ _ bytes => bytes.length
  | _ => 0

/-- The number of bytes that the steps of a run write to files. -/
def written (trace : List (UpdateOp × UpdaterState)) : ℕ :=
  (trace.map fun x => x.1.written).sum

@[simp] theorem written_nil : written [] = 0 := rfl

@[simp] theorem written_cons (x : UpdateOp × UpdaterState)
    (trace : List (UpdateOp × UpdaterState)) :
    written (x :: trace) = x.1.written + written trace := rfl

theorem written_append (l m : List (UpdateOp × UpdaterState)) :
    written (l ++ m) = written l + written m := by
  rw [written, List.map_append, List.sum_append]
  rfl

variable {plat : UpdatePlatform}

theorem written_of_onlyOps {α : Type} {p : UpdateProg UpdateExn α}
    (hp : p.OnlyOps fun o => o.written = 0) (env : ℕ → UpdateEnv) (s : UpdaterState) :
    written (p.trace (perform plat) env s) = 0 := by
  rw [written, List.sum_eq_zero_iff]
  intro n hn
  obtain ⟨x, hx, rfl⟩ := List.mem_map.mp hn
  exact Prog.mem_trace_of_onlyOps hp x hx

/-! ## The loop -/

section Loop

variable {versionCode totalBytes : ℤ} {broken : Option UpdateExn} {chunk content : List UInt8}
  {chunks : List (List UInt8)} {downloaded : ℕ} {env : ℕ → UpdateEnv} {s s' : UpdaterState}

/-- With these bytes more than the declared length has been received. -/
def Exceeds (totalBytes : ℤ) (downloaded : ℕ) : Prop := totalBytes > 0 ∧ downloaded > totalBytes

instance (totalBytes : ℤ) (downloaded : ℕ) : Decidable (Exceeds totalBytes downloaded) :=
  inferInstanceAs (Decidable (_ ∧ _))

/-- One pass of the loop. -/
def copyChunk (versionCode totalBytes : ℤ) (downloaded : ℕ) (chunk : List UInt8) :
    UpdateProg UpdateExn Unit := do
  Prog.ofExcept (← step (.write versionCode downloaded chunk))
  if Exceeds totalBytes (downloaded + chunk.length) then
    .throw (.io (jstr "Download size mismatch"))
  else step (.setState (.downloading (downloaded + chunk.length : ℕ) (max totalBytes 0)))

theorem copyChunks_cons :
    copyChunks versionCode totalBytes broken (chunk :: chunks) downloaded =
      (copyChunk versionCode totalBytes downloaded chunk).bind fun _ =>
        copyChunks versionCode totalBytes broken chunks (downloaded + chunk.length) := by
  rw [copyChunks, copyChunk]
  simp only [Prog.bind_def, Prog.bind_assoc]
  refine congrArg (Prog.bind _) (funext fun result => congrArg (Prog.bind _) (funext fun _ => ?_))
  by_cases h : Exceeds totalBytes (downloaded + chunk.length)
  · rw [if_pos h]
    exact if_pos h
  · rw [if_neg h]
    exact if_neg h

theorem run_copyChunks_nil :
    (copyChunks versionCode totalBytes broken [] downloaded).runAlone (perform plat) env s =
        (broken.elim (.ok ()) .error, s) ∧
      written ((copyChunks versionCode totalBytes broken [] downloaded).trace (perform plat) env
        s) = 0 := by
  cases broken <;> exact ⟨rfl, rfl⟩

/-- A pass writes its chunk, or fails to. -/
theorem written_copyChunk :
    written ((copyChunk versionCode totalBytes downloaded chunk).trace (perform plat) env s) =
      chunk.length := by
  refine congrArg (chunk.length + ·) (written_of_onlyOps ?_ _ _)
  refine (Prog.OnlyOps.ofExcept _).bind fun _ => ?_
  split
  · trivial
  · exact Prog.OnlyOps.perform rfl

theorem run_copyChunk_of_error {e : UpdateExn} (hfile : (env 0).file = .error e) :
    (copyChunk versionCode totalBytes downloaded chunk).runAlone (perform plat) env s =
      (.error e, s) := by
  simp [copyChunk, step, Prog.perform, Prog.runAlone, perform, hfile, Prog.ofExcept, Except.isOk,
    Except.toBool]

variable (plat) in
/-- A pass that can write the file appends the chunk to it. -/
theorem run_copyChunk_of_ok (totalBytes : ℤ) (chunk : List UInt8) (hfile : (env 0).file = .ok ())
    (hcontent : s.files versionCode = some content) :
    ∃ s', s'.files versionCode = some (content ++ chunk) ∧
      (copyChunk versionCode totalBytes content.length chunk).runAlone (perform plat) env s =
        (if Exceeds totalBytes (content.length + chunk.length) then
          .error (.io (jstr "Download size mismatch")) else .ok (), s') := by
  have hwrite : writeAt content content.length chunk = content ++ chunk := by simp [writeAt]
  by_cases h : Exceeds totalBytes (content.length + chunk.length)
  · refine ⟨{ s with files := Function.update s.files versionCode (some (content ++ chunk)) },
      Function.update_self _ _ _, ?_⟩
    simp [copyChunk, step, Prog.perform, Prog.runAlone, perform, hfile, Prog.ofExcept, Except.isOk,
      Except.toBool, hcontent, hwrite, if_pos h]
  · refine ⟨{ s with
        files := Function.update s.files versionCode (some (content ++ chunk))
        state := .downloading (content.length + chunk.length : ℕ) (max totalBytes 0) },
      Function.update_self _ _ _, ?_⟩
    simp [copyChunk, step, Prog.perform, Prog.runAlone, perform, hfile, Prog.ofExcept, Except.isOk,
      Except.toBool, hcontent, hwrite, if_neg h]

variable (plat) in
/-- **What a pass does**: it fails, or the chunk is in the file and within the declared length. -/
theorem run_copyChunk (env : ℕ → UpdateEnv) (totalBytes : ℤ) (chunk : List UInt8)
    (hcontent : s.files versionCode = some content) :
    (∃ e s', (copyChunk versionCode totalBytes content.length chunk).runAlone (perform plat) env s =
        (.error e, s')) ∨
      ∃ s', (copyChunk versionCode totalBytes content.length chunk).runAlone (perform plat) env s =
          (.ok (), s') ∧
        s'.files versionCode = some (content ++ chunk) ∧
        ¬ Exceeds totalBytes (content.length + chunk.length) := by
  cases hfile : (env 0).file with
  | error e => exact Or.inl ⟨e, s, run_copyChunk_of_error hfile⟩
  | ok _ =>
    obtain ⟨s', hfiles, hrun⟩ := run_copyChunk_of_ok plat totalBytes chunk hfile hcontent
    by_cases h : Exceeds totalBytes (content.length + chunk.length)
    · rw [if_pos h] at hrun
      exact Or.inl ⟨_, s', hrun⟩
    · rw [if_neg h] at hrun
      exact Or.inr ⟨s', hrun, hfiles, h⟩

variable (plat) in
/-- **The bytes that the loop writes**: no more than are sent, and with a declared length at most
one buffer more than that. -/
theorem written_copyChunks_le (env : ℕ → UpdateEnv) (totalBytes : ℤ) (broken : Option UpdateExn)
    (chunks : List (List UInt8)) (hcontent : s.files versionCode = some content) :
    written ((copyChunks versionCode totalBytes broken chunks content.length).trace (perform plat)
        env s) ≤ chunks.flatten.length ∧
      (0 < totalBytes → (content.length : ℤ) ≤ totalBytes →
        (∀ chunk ∈ chunks, chunk.length ≤ defaultBufferSize) →
        ((content.length + written ((copyChunks versionCode totalBytes broken chunks
          content.length).trace (perform plat) env s) : ℕ) : ℤ) ≤
            totalBytes + defaultBufferSize) := by
  induction chunks generalizing content env s with
  | nil =>
    rw [run_copyChunks_nil.2]
    exact ⟨Nat.zero_le _, fun _ _ _ => by omega⟩
  | cons chunk chunks ih =>
    rw [copyChunks_cons, List.flatten_cons, List.length_append]
    rcases run_copyChunk plat env totalBytes chunk hcontent with
      ⟨e, s', hrun⟩ | ⟨s', hrun, hfiles, hfits⟩
    · rw [(Prog.run_bind_of_error _ _ hrun).2, written_copyChunk]
      refine ⟨by omega, fun _ _ hchunks => ?_⟩
      have hchunk := hchunks chunk List.mem_cons_self
      omega
    · rw [(Prog.run_bind_of_ok _ _ hrun).2, written_append, written_copyChunk]
      obtain ⟨hsent, hdeclared⟩ := ih (fun n => env (n + ((copyChunk versionCode totalBytes
        content.length chunk).trace (perform plat) env s).length)) hfiles
      rw [List.length_append] at hsent hdeclared
      refine ⟨by omega, fun htotal _ hchunks => ?_⟩
      have hwithin := hdeclared htotal (not_lt.mp fun h => hfits ⟨htotal, h⟩)
        fun c hc => hchunks c (List.mem_cons_of_mem _ hc)
      omega

/-- **A loop that ends** has appended the whole stream to the file. -/
theorem files_of_copyChunks (hcontent : s.files versionCode = some content)
    (h : (copyChunks versionCode totalBytes broken chunks content.length).runAlone (perform plat)
      env s = (.ok (), s')) :
    broken = none ∧ s'.files versionCode = some (content ++ chunks.flatten) := by
  induction chunks generalizing content env s with
  | nil =>
    rw [run_copyChunks_nil.1] at h
    obtain ⟨hend, rfl⟩ := Prod.mk.inj h
    rw [List.flatten_nil, List.append_nil]
    cases broken with
    | none => exact ⟨rfl, hcontent⟩
    | some e => exact absurd hend (by simp)
  | cons chunk chunks ih =>
    rw [copyChunks_cons] at h
    rcases run_copyChunk plat env totalBytes chunk hcontent with
      ⟨e, s₁, hrun⟩ | ⟨s₁, hrun, hfiles, -⟩
    · rw [(Prog.run_bind_of_error _ _ hrun).1] at h
      exact absurd (Prod.mk.inj h).1 (by simp)
    · rw [(Prog.run_bind_of_ok _ _ hrun).1, ← List.length_append] at h
      rw [List.flatten_cons, ← List.append_assoc]
      exact ih hfiles h

variable (plat) in
/-- **Without a declared length** the loop writes whatever is sent, if the file can be written. -/
theorem run_copyChunks_undeclared (broken : Option UpdateExn) (chunks : List (List UInt8))
    (htotal : totalBytes ≤ 0) (henv : ∀ n, (env n).file = .ok ())
    (hcontent : s.files versionCode = some content) :
    ∃ s', (copyChunks versionCode totalBytes broken chunks content.length).runAlone (perform plat)
        env s = (broken.elim (.ok ()) .error, s') ∧
      s'.files versionCode = some (content ++ chunks.flatten) ∧
      written ((copyChunks versionCode totalBytes broken chunks content.length).trace
        (perform plat) env s) = chunks.flatten.length := by
  induction chunks generalizing content env s with
  | nil =>
    refine ⟨s, run_copyChunks_nil.1, ?_, run_copyChunks_nil.2⟩
    rw [List.flatten_nil, List.append_nil]
    exact hcontent
  | cons chunk chunks ih =>
    obtain ⟨s₁, hfiles, hrun⟩ := run_copyChunk_of_ok plat totalBytes chunk (henv 0) hcontent
    rw [if_neg fun h => absurd h.1 (not_lt.mpr htotal)] at hrun
    obtain ⟨hnext, htrace⟩ := Prog.run_bind_of_ok _ (fun _ => copyChunks versionCode totalBytes
      broken chunks (content.length + chunk.length)) hrun
    obtain ⟨s', hrest, hfiles', hwritten⟩ := ih (fun n => henv (n + _)) hfiles
    rw [List.length_append] at hrest hwritten
    refine ⟨s', ?_, ?_, ?_⟩
    · rw [copyChunks_cons, hnext, hrest]
    · rw [hfiles', List.flatten_cons, List.append_assoc]
    · rw [copyChunks_cons, htrace, written_append, written_copyChunk, hwritten, List.flatten_cons,
        List.length_append]

end Loop

/-! ## The checks after the loop -/

section Check

variable {versionCode totalBytes : ℤ} {content : List UInt8} {env : ℕ → UpdateEnv}
  {s s' : UpdaterState}

theorem noWrite_checkFile :
    (checkFile versionCode totalBytes).OnlyOps fun o => o.written = 0 := by
  have hstep : ∀ o : UpdateOp, o.written = 0 →
      (step o : UpdateProg UpdateExn _).OnlyOps fun o => o.written = 0 :=
    fun _ ho => Prog.OnlyOps.perform ho
  refine (hstep _ rfl).bind fun exist => ?_
  cases exist with
  | false => trivial
  | true =>
    refine (hstep _ rfl).bind fun length => ?_
    split
    · trivial
    · split
      · refine (hstep _ rfl).bind fun length => ?_
        split <;> trivial
      · trivial

/-- The file passes the checks if it is not empty and has the declared length. -/
theorem run_checkFile_eq_ok_iff (hcontent : s.files versionCode = some content) :
    (checkFile versionCode totalBytes).runAlone (perform plat) env s = (.ok (), s') ↔
      s' = s ∧ content ≠ [] ∧ (0 < totalBytes → (content.length : ℤ) = totalBytes) := by
  have hexists : ∀ env, perform plat (.fileExists versionCode) env s = (true, s) := by
    intro env
    simp [perform, hcontent]
  have hlength : ∀ env, perform plat (.fileLength versionCode) env s =
      ((content.length : ℤ), s) := by
    intro env
    simp [perform, hcontent]
  have hempty : (content.length : ℤ) ≤ 0 ↔ content = [] := by
    rw [← List.length_eq_zero_iff]
    omega
  simp only [checkFile, step, Prog.perform, Prog.bind_def, Prog.op_bind, Prog.pure_bind,
    Prog.runAlone, hexists, Bool.not_true, Bool.false_eq_true, if_false, hlength, hempty]
  by_cases hnil : content = []
  · rw [if_pos hnil]
    simp [Prog.runAlone, hnil]
  · rw [if_neg hnil]
    by_cases hknown : totalBytes > 0
    · rw [if_pos hknown]
      simp only [Prog.runAlone, hlength]
      by_cases hsame : (content.length : ℤ) = totalBytes
      · rw [if_neg (not_not.mpr hsame)]
        simp [Prog.runAlone, hnil, hsame, eq_comm]
      · rw [if_pos hsame]
        simp [Prog.runAlone, hsame, hknown]
    · rw [if_neg hknown]
      simp [Prog.runAlone, hnil, hknown, eq_comm]

end Check

/-! ## The call -/

section Call

variable {update : LatestAppResponse} {versionCode apkFile : ℤ} {http : ApkHttp}
  {env : ℕ → UpdateEnv} {s s' : UpdaterState}

/-- The call up to the opening of the file. -/
def requestApk (plat : UpdatePlatform) (update : LatestAppResponse) :
    UpdateProg UpdateExn ApkHttp := do
  let token ← requireDeviceToken
  let _ ← Prog.ofExcept (plat.url update.apkUrl)
  let http ← Prog.ofExcept (← step (.apk token update.apkUrl))
  if http.responseCode ≠ 200 then
    .throw (.io (jstr "APK download failed: " ++ decimal http.responseCode))
  else if http.contentLength > maxApkSizeBytes then
    .throw (.io (jstr "APK too large: " ++ decimal http.contentLength ++ jstr " bytes"))
  else
    Prog.ofExcept (← step (.openFile update.versionCode))
    pure http

/-- The rest of the call. -/
def receiveApk (versionCode : ℤ) (http : ApkHttp) : UpdateProg UpdateExn ℤ := do
  copyChunks versionCode http.contentLength http.broken http.chunks 0
  checkFile versionCode http.contentLength
  pure versionCode

theorem downloadApk_eq : downloadApk plat update =
    (requestApk plat update).bind (receiveApk update.versionCode) := by
  rw [downloadApk, requestApk]
  simp only [Prog.bind_def, Prog.bind_assoc]
  refine congrArg (Prog.bind _) (funext fun token => congrArg (Prog.bind _) (funext fun _ =>
    congrArg (Prog.bind _) (funext fun answer => congrArg (Prog.bind _) (funext fun http => ?_))))
  split
  · rfl
  · split
    · rfl
    · simp only [Prog.bind_assoc]
      rfl

/-- The file has been opened, and so truncated. -/
def opened (versionCode : ℤ) (s : UpdaterState) : UpdaterState :=
  { s with files := Function.update s.files versionCode (some []) }

theorem files_opened (versionCode : ℤ) (s : UpdaterState) :
    (opened versionCode s).files versionCode = some [] := Function.update_self _ _ _

theorem noWrite_requestApk : (requestApk plat update).OnlyOps fun o => o.written = 0 := by
  have hstep : ∀ o : UpdateOp, o.written = 0 →
      (step o : UpdateProg UpdateExn _).OnlyOps fun o => o.written = 0 :=
    fun _ ho => Prog.OnlyOps.perform ho
  have htoken : requireDeviceToken.OnlyOps fun o => o.written = 0 := by
    refine (hstep _ rfl).bind fun token => ?_
    cases JString.takeIfNotBlank token <;> trivial
  refine htoken.bind fun token => (Prog.OnlyOps.ofExcept _).bind fun _ =>
    (hstep _ rfl).bind fun answer => (Prog.OnlyOps.ofExcept _).bind fun http => ?_
  split
  · trivial
  · split
    · trivial
    · exact (hstep _ rfl).bind fun result => (Prog.OnlyOps.ofExcept _).bind fun _ => trivial

/-- A body that runs alone while the server gives this answer. -/
abbrev answered (plat : UpdatePlatform) (http : ApkHttp) :
    Contract UpdateOp UpdateOp.Res UpdateEnv UpdaterState :=
  Contract.alone (perform plat) (fun _ env _ => env.apk = .ok http) fun _ => True

variable (plat http) in
/-- The file is opened for a response that does not declare too much. -/
theorem wp_requestApk (update : LatestAppResponse) (s : UpdaterState) :
    (answered plat http).wp
      (fun http' s' => http' = http ∧ http.contentLength ≤ maxApkSizeBytes ∧
        s' = opened update.versionCode s) (fun _ _ => True) (requestApk plat update) s := by
  have htoken : (answered plat http).wp (fun _ s' => s' = s) (fun _ _ => True) requireDeviceToken
      s := by
    refine (Contract.wp_alone_op _ _ trivial _ _).mpr fun env _ => ?_
    rw [Prog.pure_bind]
    cases JString.takeIfNotBlank (perform plat .deviceToken env s).1 with
    | none => trivial
    | some token => rfl
  refine Contract.wp_seq htoken (fun _ _ h => h) fun token s₁ hs₁ => ?_
  rw [hs₁]
  cases plat.url update.apkUrl with
  | error e => trivial
  | ok url =>
    refine (Contract.wp_alone_op _ _ trivial _ _).mpr fun env henv => ?_
    have hresult : (perform plat (.apk token update.apkUrl) env s).1 = .ok http := henv
    rw [hresult]
    show (answered plat http).wp _ _ (if http.responseCode ≠ 200 then _ else _) s
    split
    · trivial
    · split
      · trivial
      · rename_i hlength
        refine (Contract.wp_alone_op _ _ trivial _ _).mpr fun env _ => ?_
        cases hfile : env.file with
        | error e =>
          have hopen : (perform plat (.openFile update.versionCode) env s).1 = .error e := hfile
          rw [hopen]
          trivial
        | ok _ =>
          have hopen : perform plat (.openFile update.versionCode) env s =
              (.ok (), opened update.versionCode s) := by
            simp [perform, hfile, Except.isOk, Except.toBool, opened]
          rw [hopen]
          exact ⟨rfl, not_lt.mp hlength, rfl⟩

variable (plat) in
/-- **The call** ends before the file is opened, or opens it and goes on. -/
theorem run_downloadApk (henv : ∀ n, (env n).apk = .ok http) (update : LatestAppResponse)
    (s : UpdaterState) :
    (∃ e s', (downloadApk plat update).runAlone (perform plat) env s = (.error e, s') ∧
        written ((downloadApk plat update).trace (perform plat) env s) = 0) ∨
      http.contentLength ≤ maxApkSizeBytes ∧ ∃ env' : ℕ → UpdateEnv,
        (downloadApk plat update).runAlone (perform plat) env s =
          (receiveApk update.versionCode http).runAlone (perform plat) env'
            (opened update.versionCode s) ∧
        written ((downloadApk plat update).trace (perform plat) env s) =
          written ((receiveApk update.versionCode http).trace (perform plat) env'
            (opened update.versionCode s)) := by
  have hquiet : written ((requestApk plat update).trace (perform plat) env s) = 0 :=
    written_of_onlyOps noWrite_requestApk env s
  rw [downloadApk_eq]
  rcases Contract.runAlone_of_wp (fun _ n _ => henv n) (wp_requestApk plat http update s) with
    ⟨http', hrun, rfl, hlength, hs⟩ | ⟨e, hrun, -⟩
  · have hok : (requestApk plat update).runAlone (perform plat) env s =
        (.ok http', opened update.versionCode s) := Prod.ext hrun hs
    obtain ⟨hnext, htrace⟩ := Prog.run_bind_of_ok _ (receiveApk update.versionCode) hok
    refine Or.inr ⟨hlength, _, hnext, ?_⟩
    rw [htrace, written_append, hquiet, Nat.zero_add]
  · obtain ⟨hend, htrace⟩ := Prog.run_bind_of_error _ (receiveApk update.versionCode)
      (Prod.ext hrun rfl)
    refine Or.inl ⟨e, _, hend, ?_⟩
    rw [htrace, hquiet]

/-- The checks write nothing. -/
theorem written_receiveApk (versionCode : ℤ) (http : ApkHttp) (env : ℕ → UpdateEnv)
    (s : UpdaterState) :
    written ((receiveApk versionCode http).trace (perform plat) env s) =
      written ((copyChunks versionCode http.contentLength http.broken http.chunks 0).trace
        (perform plat) env s) := by
  have hchecks : ((checkFile versionCode http.contentLength).bind fun _ =>
      (.pure versionCode : UpdateProg UpdateExn ℤ)).OnlyOps fun o => o.written = 0 :=
    noWrite_checkFile.bind fun _ => trivial
  cases hrun : (copyChunks versionCode http.contentLength http.broken http.chunks 0).runAlone
    (perform plat) env s with
  | mk result s₁ =>
    cases result with
    | error e => exact congrArg written (Prog.run_bind_of_error _ _ hrun).2
    | ok a =>
      refine (congrArg written (Prog.run_bind_of_ok _ _ hrun).2).trans ?_
      rw [written_append, Prog.bind_def, Prog.pure_def, written_of_onlyOps hchecks, Nat.add_zero]

/-- **What a call that returns** leaves: the whole stream, not empty and of the declared length. -/
theorem files_of_receiveApk (hfile : s.files versionCode = some [])
    (h : (receiveApk versionCode http).runAlone (perform plat) env s = (.ok apkFile, s')) :
    http.broken = none ∧ apkFile = versionCode ∧
      s'.files versionCode = some http.chunks.flatten ∧ http.chunks.flatten ≠ [] ∧
      (0 < http.contentLength → (http.chunks.flatten.length : ℤ) = http.contentLength) := by
  rw [receiveApk, Prog.bind_def] at h
  cases hrun : (copyChunks versionCode http.contentLength http.broken http.chunks 0).runAlone
    (perform plat) env s with
  | mk result s₁ =>
    cases result with
    | error e =>
      rw [(Prog.run_bind_of_error _ _ hrun).1] at h
      exact absurd (Prod.mk.inj h).1 (by simp)
    | ok a =>
      obtain ⟨hbroken, hfiles⟩ := files_of_copyChunks hfile hrun
      rw [List.nil_append] at hfiles
      rw [(Prog.run_bind_of_ok _ _ hrun).1, Prog.bind_def] at h
      cases hcheck : (checkFile versionCode http.contentLength).runAlone (perform plat)
        (fun n => env (n + ((copyChunks versionCode http.contentLength http.broken http.chunks
          0).trace (perform plat) env s).length)) s₁ with
      | mk result s₂ =>
        cases result with
        | error e =>
          rw [(Prog.run_bind_of_error _ _ hcheck).1] at h
          exact absurd (Prod.mk.inj h).1 (by simp)
        | ok b =>
          rw [(Prog.run_bind_of_ok _ _ hcheck).1] at h
          obtain ⟨hresult, rfl⟩ := Prod.mk.inj h
          obtain rfl := Except.ok.inj hresult
          obtain ⟨rfl, hne, hlength⟩ := (run_checkFile_eq_ok_iff hfiles).mp hcheck
          exact ⟨hbroken, rfl, hfiles, hne, hlength⟩

variable (plat) in
/-- **Without a declared length** everything that is sent is accepted. -/
theorem run_receiveApk_undeclared (hlength : http.contentLength ≤ 0) (hbroken : http.broken = none)
    (hne : http.chunks.flatten ≠ []) (henv : ∀ n, (env n).file = .ok ())
    (hfile : s.files versionCode = some []) :
    ∃ s', (receiveApk versionCode http).runAlone (perform plat) env s = (.ok versionCode, s') ∧
      s'.files versionCode = some http.chunks.flatten := by
  obtain ⟨s', hrun, hfiles, -⟩ := run_copyChunks_undeclared plat http.broken http.chunks hlength
    henv hfile
  rw [List.nil_append] at hfiles
  rw [hbroken] at hrun
  refine ⟨s', ?_, hfiles⟩
  rw [receiveApk, hbroken, Prog.bind_def]
  refine (Prog.run_bind_of_ok _ _ hrun).1.trans ?_
  exact (Prog.run_bind_of_ok _ (fun _ => Prog.pure versionCode)
    ((run_checkFile_eq_ok_iff hfiles).mpr ⟨rfl, hne, fun h => absurd h (not_lt.mpr hlength)⟩)).1

end Call

/-! ## The limit -/

/-- **The size limit** for a response: a call that is answered with it and returns leaves a file
with exactly the bytes received, at least one and at most `MAX_APK_SIZE_BYTES` of them, as many as
were declared if a length was; and no call writes more than one buffer above the limit. -/
structure KeepsLimit (plat : UpdatePlatform) (update : LatestAppResponse) (http : ApkHttp) :
    Prop where
  returned : ∀ env s apkFile s', (∀ n, (env n).apk = .ok http) →
    (downloadApk plat update).runAlone (perform plat) env s = (.ok apkFile, s') →
    s'.files apkFile = some http.chunks.flatten ∧ 1 ≤ http.chunks.flatten.length ∧
      (http.chunks.flatten.length : ℤ) ≤ maxApkSizeBytes ∧
      (0 < http.contentLength → (http.chunks.flatten.length : ℤ) = http.contentLength)
  bounded : ∀ env s, (∀ n, (env n).apk = .ok http) →
    (written ((downloadApk plat update).trace (perform plat) env s) : ℤ) ≤
      maxApkSizeBytes + defaultBufferSize

/-- A network that gives this answer, and a file that can be written. -/
def answering (http : ApkHttp) : UpdateEnv where
  register := .ok (jstr "token")
  latest := .error (.platform none)
  apk := .ok http

theorem file_answering (http : ApkHttp) (n : ℕ) :
    ((fun _ => answering http : ℕ → UpdateEnv) n).file = .ok () := rfl

variable (plat) in
/-- A call that is answered in this way, on a device with a token. -/
theorem run_downloadApk_answering {update : LatestAppResponse} {http : ApkHttp} {url : JavaUrl}
    (hurl : plat.url update.apkUrl = .ok url) (hcode : http.responseCode = 200)
    (hlength : http.contentLength ≤ 0) :
    (downloadApk plat update).runAlone (perform plat) (fun _ => answering http) demoDevice =
        (receiveApk update.versionCode http).runAlone (perform plat) (fun _ => answering http)
          (opened update.versionCode demoDevice) ∧
      written ((downloadApk plat update).trace (perform plat) (fun _ => answering http)
          demoDevice) =
        written ((receiveApk update.versionCode http).trace (perform plat)
          (fun _ => answering http) (opened update.versionCode demoDevice)) := by
  have htoken : JString.takeIfNotBlank demoDevice.deviceToken = some (jstr "token") := by decide
  have hsmall : ¬ http.contentLength > maxApkSizeBytes := by
    rw [maxApkSizeBytes]
    omega
  have hrun : (requestApk plat update).runAlone (perform plat) (fun _ => answering http)
      demoDevice = (.ok http, opened update.versionCode demoDevice) := by
    simp [requestApk, requireDeviceToken, step, Prog.perform, Prog.runAlone, perform, htoken, hurl,
      Prog.ofExcept, answering, hcode, hsmall, Except.isOk, Except.toBool, opened]
  obtain ⟨hnext, htrace⟩ := Prog.run_bind_of_ok _ (receiveApk update.versionCode) hrun
  rw [downloadApk_eq]
  refine ⟨hnext, ?_⟩
  rw [htrace, written_append, written_of_onlyOps noWrite_requestApk, Nat.zero_add]

/-- A call without a declared length that is kept within the limit was sent no more. -/
theorem KeepsLimit.sent_le {update : LatestAppResponse} {http : ApkHttp}
    (h : KeepsLimit plat update http) {url : JavaUrl} (hurl : plat.url update.apkUrl = .ok url)
    (hcode : http.responseCode = 200) (hlength : http.contentLength ≤ 0) :
    (http.broken = none → (http.chunks.flatten.length : ℤ) ≤ maxApkSizeBytes) ∧
      (http.chunks.flatten.length : ℤ) ≤ maxApkSizeBytes + defaultBufferSize := by
  -- nothing is declared, and everything is written
  obtain ⟨hrun, hwritten⟩ := run_downloadApk_answering plat hurl hcode hlength
  have hopened := files_opened update.versionCode demoDevice
  constructor
  · intro hbroken
    by_cases hne : http.chunks.flatten = []
    · rw [hne]
      decide
    · obtain ⟨s', hreceive, -⟩ := run_receiveApk_undeclared plat hlength hbroken hne
        (file_answering http) hopened
      exact (h.returned _ _ _ _ (fun _ => rfl) (hrun.trans hreceive)).2.2.1
  · obtain ⟨-, -, -, hall⟩ := run_copyChunks_undeclared plat http.broken http.chunks hlength
      (file_answering http) hopened
    have hbounded := h.bounded (fun _ => answering http) demoDevice fun _ => rfl
    rw [hwritten, written_receiveApk] at hbounded
    exact hall ▸ hbounded

/-- **What a call that returns has done**, whatever the response. -/
theorem files_of_downloadApk {update : LatestAppResponse} {http : ApkHttp} {env : ℕ → UpdateEnv}
    (henv : ∀ n, (env n).apk = .ok http) {s s' : UpdaterState} {apkFile : ℤ}
    (h : (downloadApk plat update).runAlone (perform plat) env s = (.ok apkFile, s')) :
    http.broken = none ∧ http.contentLength ≤ maxApkSizeBytes ∧
      s'.files apkFile = some http.chunks.flatten ∧ 1 ≤ http.chunks.flatten.length ∧
      (0 < http.contentLength → (http.chunks.flatten.length : ℤ) = http.contentLength) := by
  rcases run_downloadApk plat henv update s with ⟨e, s', hrun, -⟩ | ⟨hlimit, env', hrun, -⟩
  · rw [hrun] at h
    exact absurd (Prod.mk.inj h).1 (by simp)
  · rw [hrun] at h
    obtain ⟨hbroken, rfl, hfiles, hne, hlength⟩ :=
      files_of_receiveApk (files_opened update.versionCode s) h
    exact ⟨hbroken, hlimit, hfiles, List.length_pos_of_ne_nil hne, hlength⟩

variable (plat) in
/-- **What a call writes**: no more than is sent, and with a declared length no more than the limit
and one buffer. -/
theorem written_downloadApk_le (update : LatestAppResponse) {http : ApkHttp}
    (hchunks : ∀ chunk ∈ http.chunks, chunk.length ≤ defaultBufferSize) {env : ℕ → UpdateEnv}
    (henv : ∀ n, (env n).apk = .ok http) (s : UpdaterState) :
    written ((downloadApk plat update).trace (perform plat) env s) ≤ http.chunks.flatten.length ∧
      (0 < http.contentLength →
        (written ((downloadApk plat update).trace (perform plat) env s) : ℤ) ≤
          maxApkSizeBytes + defaultBufferSize) := by
  rcases run_downloadApk plat henv update s with ⟨e, s', -, hwritten⟩ | ⟨hlimit, env', -, hwritten⟩
  · rw [hwritten]
    exact ⟨Nat.zero_le _, fun _ => by decide⟩
  · obtain ⟨hsent, hdeclared⟩ := written_copyChunks_le plat env' http.contentLength
      http.broken http.chunks (files_opened update.versionCode s)
    rw [List.length_nil] at hsent hdeclared
    rw [hwritten, written_receiveApk]
    refine ⟨by omega, fun hlength => ?_⟩
    have hwithin := hdeclared hlength (by exact_mod_cast hlength.le) hchunks
    omega

/-- **Which responses are kept within the limit**: those that declare a length, and those that do
not send more than the limit; if the stream breaks off, one buffer more. -/
theorem keeps_limit_iff {update : LatestAppResponse} {http : ApkHttp}
    (htrusted : validateApkUrl plat update.apkUrl = .ok ()) (hcode : http.responseCode = 200)
    (hchunks : ∀ chunk ∈ http.chunks, chunk.length ≤ defaultBufferSize) :
    KeepsLimit plat update http ↔
      0 < http.contentLength ∨
        (http.broken = none → (http.chunks.flatten.length : ℤ) ≤ maxApkSizeBytes) ∧
          (http.chunks.flatten.length : ℤ) ≤ maxApkSizeBytes + defaultBufferSize := by
  obtain ⟨url, hurl, -⟩ := trustedUrl_of_validateApkUrl htrusted
  constructor
  · intro h
    rcases lt_or_ge 0 http.contentLength with hlength | hlength
    · exact Or.inl hlength
    · exact Or.inr (h.sent_le hurl hcode hlength)
  · intro h
    constructor
    · intro env s apkFile s' henv hreturns
      obtain ⟨hbroken, hlimit, hfiles, hpos, hlength⟩ := files_of_downloadApk henv hreturns
      refine ⟨hfiles, hpos, ?_, hlength⟩
      rcases h with hdeclared | ⟨hsmall, -⟩
      · rw [hlength hdeclared]
        exact hlimit
      · exact hsmall hbroken
    · intro env s henv
      obtain ⟨hsent, hdeclared⟩ := written_downloadApk_le plat update hchunks henv s
      rcases h with hlength | ⟨-, hsmall⟩
      · exact hdeclared hlength
      · omega

/-- A version that is announced. -/
def demoUpdate : LatestAppResponse :=
  ⟨1, 2, jstr "2.0", false, none, jstr "07", jstr "https://aiovpn.co.uk/app.apk"⟩

/-- Three chunks, without a `Content-Length` header. -/
theorem three_chunks_keep_limit : KeepsLimit demoPlatform demoUpdate
    { responseCode := 200, contentLength := -1, chunks := [[80, 75, 3], [4, 20, 0, 8], [7]] } :=
  (keeps_limit_iff rfl rfl (by decide)).mpr (Or.inr ⟨fun _ => by decide, by decide⟩)

/-- 64001 full buffers, without a `Content-Length` header. -/
def oversized : ApkHttp where
  responseCode := 200
  contentLength := -1
  chunks := List.replicate 64001 (List.replicate defaultBufferSize 7)

/-- **The limit is exceeded**: all of it is written, and the file is returned. -/
theorem limit_exceeded :
    ∃ s' content, (downloadApk demoPlatform demoUpdate).runAlone (perform demoPlatform)
        (fun _ => answering oversized) demoDevice = (.ok 2, s') ∧
      s'.files 2 = some content ∧ (content.length : ℤ) = 524296192 ∧
      maxApkSizeBytes = 524288000 := by
  have hlength : oversized.chunks.flatten.length = 524296192 := by
    rw [oversized, List.length_flatten, List.map_replicate, List.length_replicate,
      List.sum_replicate]
    rfl
  have hne : oversized.chunks.flatten ≠ [] := by
    rw [← List.length_pos_iff, hlength]
    decide
  have hundeclared : oversized.contentLength ≤ 0 := by decide
  obtain ⟨s', hrun, hfiles⟩ := run_receiveApk_undeclared demoPlatform hundeclared rfl hne
    (file_answering oversized) (files_opened demoUpdate.versionCode demoDevice)
  refine ⟨s', _, ?_, hfiles, ?_, by decide⟩
  · exact (run_downloadApk_answering demoPlatform rfl rfl hundeclared).1.trans hrun
  · rw [hlength]
    rfl

end Updater
end AioVpn
