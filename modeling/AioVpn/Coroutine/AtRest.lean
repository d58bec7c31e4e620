import AioVpn.Coroutine.Pool
import AioVpn.Coroutine.Trace

/-!
# Pools at rest

Two rules about pools in which no coroutine is running.

A field that several coroutines write may hold an intermediate value while they run, and
every one of them writes a final value before it ends.  When all have ended, the value that
was written last is final, however they were interleaved: `LastWrite.run`.  The writes are
followed by a flag that is true when the last one of the coroutine was final (`Prog.Ends`);
while the field holds an intermediate value, some coroutine still owes a final one.

A coroutine that is left alone runs to its end: `System.Run.alone` says that the pool reaches
the state `Prog.runAlone` computes, `System.Run.alone_of_wp` that it reaches one the weakest
precondition of the body describes.  `System.toRest` is a job followed by the one that it launches,
and `System.Run.toRest` says that the pool comes to rest where it ends.
-/

namespace AioVpn
namespace Coroutine

variable {Op : Type} {Res : Op → Type} {ε ε' Env St J Ev α β : Type}

/-! ## Final writes -/

namespace Prog

/-- The flag after an operation; an operation that does not write keeps it. -/
def flag (sets : Op → Option Bool) (o : Op) (b : Bool) : Bool := (sets o).getD b

/-- Followed from the value `b` of the flag, the body returns with a value that meets `Q`
or throws with one that meets `E`. -/
def Ends (sets : Op → Option Bool) (Q E : Bool → Prop) : Prog Op Res ε α → Bool → Prop
  | .pure _, b => Q b
  | .throw _, b => E b
  | .op o k, b => ∀ r, (k r).Ends sets Q E (flag sets o b)

variable {sets : Op → Option Bool} {Q E : Bool → Prop}

theorem Ends.bind {p : Prog Op Res ε α} {f : α → Prog Op Res ε β} {b : Bool}
    (hp : p.Ends sets (fun b => ∀ a, (f a).Ends sets Q E b) E b) :
    (p.bind f).Ends sets Q E b := by
  induction p generalizing b with
  | pure a => exact hp a
  | throw e => exact hp
  | op o k ih => exact fun r => ih r (hp r)

theorem Ends.tryCatch {p : Prog Op Res ε α} {h : ε → Prog Op Res ε' α} {b : Bool}
    (hp : p.Ends sets Q (fun b => ∀ e, (h e).Ends sets Q E b) b) :
    (p.tryCatch h).Ends sets Q E b := by
  induction p generalizing b with
  | pure a => exact hp
  | throw e => exact hp e
  | op o k ih => exact fun r => ih r (hp r)

/-- Where the flag does not matter. -/
theorem Ends.of_forall (hQ : ∀ b, Q b) (hE : ∀ b, E b) (p : Prog Op Res ε α) (b : Bool) :
    p.Ends sets Q E b := by
  induction p generalizing b with
  | pure a => exact hQ b
  | throw e => exact hE b
  | op o k ih => exact fun r => ih r _

/-- A body that does not write keeps the flag. -/
theorem Ends.of_onlyOps {p : Prog Op Res ε α} (hp : p.OnlyOps fun o => sets o = none) {b : Bool}
    (hQ : Q b) (hE : E b) : p.Ends sets Q E b := by
  induction p with
  | pure a => exact hQ
  | throw e => exact hE
  | op o k ih =>
    intro r
    rw [flag, hp.1]
    exact ih r (hp.2 r)

/-- The body ends with a final write, or without one when the flag is up. -/
abbrev Settles (sets : Op → Option Bool) (p : Prog Op Res ε α) (b : Bool) : Prop :=
  p.Ends sets (· = true) (· = true) b

theorem Settles.of_false {p : Prog Op Res ε α} (h : p.Settles sets false) :
    p.Settles sets true := by
  induction p with
  | pure a => rfl
  | throw e => rfl
  | op o k ih =>
    intro r
    have hr := h r
    rw [flag] at hr ⊢
    cases hsets : sets o with
    | none =>
      rw [hsets] at hr
      exact ih r hr
    | some b =>
      rw [hsets] at hr
      exact hr

theorem Settles.running {p : Prog Op Res ε α} (h : p.Settles sets false) : p.running = true := by
  cases p with
  | pure a => exact absurd h Bool.false_ne_true
  | throw e => exact absurd h Bool.false_ne_true
  | op o k => rfl

end Prog

/-- A property of the state that some operations establish, some may break and the others
keep, in a system whose bodies all end with an operation that establishes it. -/
structure LastWrite (S : System Op Res ε Env St J Ev) (sets : Op → Option Bool)
    (good : St → Prop) : Prop where
  body : ∀ j, (S.body j).Settles sets true
  event : ∀ e s s' j, S.handle e s = some (s', j) → good s → good s'
  establishes : ∀ o env s, sets o = some true → good (S.perform o env s).2
  keeps : ∀ o env s, sets o = none → good s → good (S.perform o env s).2

/-- The property holds, or a coroutine owes it. -/
structure Owed (sets : Op → Option Bool) (good : St → Prop) (c : Conf Op Res ε J St) : Prop where
  threads : ∀ t ∈ c.threads, t.body.Settles sets true
  owed : good c.shared ∨ ∃ t ∈ c.threads, t.body.Settles sets false

namespace LastWrite

variable {S : System Op Res ε Env St J Ev} {sets : Op → Option Bool} {good : St → Prop}
  {ok : Conf Op Res ε J St → Act Ev Env → Prop}

theorem settles_launch (h : LastWrite S sets good) {j : Option J} {t : Thread Op Res ε J}
    (ht : t ∈ S.launch j) : t.body.Settles sets true := by
  obtain ⟨i, -, rfl⟩ := S.mem_launch.mp ht
  exact h.body i

theorem owed_next (h : LastWrite S sets good) {c c' : Conf Op Res ε J St} (hc : Owed sets good c)
    {a : Act Ev Env} (hnext : S.next c a = some c') : Owed sets good c' := by
  cases a with
  | event e =>
    obtain ⟨s', j, hh, rfl⟩ := S.next_event hnext
    constructor
    · intro t ht
      rcases List.mem_append.mp ht with ht | ht
      · exact hc.threads t ht
      · exact h.settles_launch ht
    · rcases hc.owed with hgood | ⟨t, ht, hsettles⟩
      · exact Or.inl (h.event e _ s' j hh hgood)
      · exact Or.inr ⟨t, List.mem_append_left _ ht, hsettles⟩
  | step i env =>
    obtain ⟨j, o, k, hi, rfl⟩ := S.next_step hnext
    set x := S.perform o env c.shared with hx
    have hlt : i < c.threads.length := (List.getElem?_eq_some_iff.mp hi).1
    have hself : (k x.1).Settles sets (Prog.flag sets o true) :=
      hc.threads _ (List.mem_of_getElem? hi) x.1
    have hmem : (⟨j, k x.1⟩ : Thread Op Res ε J) ∈
        c.threads.set i ⟨j, k x.1⟩ ++ S.launch (k x.1).launched :=
      List.mem_append_left _ (List.mem_set hlt _)
    have hsettles : (k x.1).Settles sets true := by
      cases hflag : Prog.flag sets o true with
      | true => rwa [hflag] at hself
      | false =>
        rw [hflag] at hself
        exact hself.of_false
    constructor
    · intro t ht
      rcases List.mem_append.mp ht with ht | ht
      · rcases List.mem_or_eq_of_mem_set ht with ht | rfl
        · exact hc.threads t ht
        · exact hsettles
      · exact h.settles_launch ht
    · cases hsets : sets o with
      | some b =>
        cases b with
        | true => exact Or.inl (h.establishes o env _ hsets)
        | false =>
          rw [Prog.flag, hsets] at hself
          exact Or.inr ⟨_, hmem, hself⟩
      | none =>
        rcases hc.owed with hgood | ⟨t, ht, hfalse⟩
        · exact Or.inl (h.keeps o env _ hsets hgood)
        · right
          obtain ⟨l, hl⟩ := List.mem_iff_getElem?.mp ht
          by_cases hli : l = i
          · -- the coroutine that owes it has moved
            subst hli
            obtain rfl := Option.some.inj (hl.symm.trans hi)
            have hnow := hfalse x.1
            rw [Prog.flag, hsets] at hnow
            exact ⟨_, hmem, hnow⟩
          · refine ⟨t, List.mem_append_left _ (List.mem_iff_getElem?.mpr ⟨l, ?_⟩), hfalse⟩
            rw [List.getElem?_set_ne (Ne.symm hli)]
            exact hl

/-- **The last write is final**: in every run the property holds or is owed. -/
theorem run (h : LastWrite S sets good) {c d : Conf Op Res ε J St} (hrun : S.Run ok c d)
    (hc : Owed sets good c) : Owed sets good d :=
  hrun.invariant hc fun _ _ _ hd _ hnext => h.owed_next hd hnext

end LastWrite

/-- When no coroutine is running, nothing is owed. -/
theorem Owed.good {sets : Op → Option Bool} {good : St → Prop} {c : Conf Op Res ε J St}
    (h : Owed sets good c) (hrest : ∀ t ∈ c.threads, t.body.running = false) : good c.shared := by
  rcases h.owed with hgood | ⟨t, ht, hfalse⟩
  · exact hgood
  · exact absurd ((hrest t ht).symm.trans hfalse.running) Bool.false_ne_true

/-! ## A coroutine left alone -/

section Alone

variable {S : System Op Res ε Env St J Ev} {ok : Conf Op Res ε J St → Act Ev Env → Prop}

/-- **A coroutine left alone** runs to its end. -/
theorem System.Run.alone {c d : Conf Op Res ε J St} (hrun : S.Run ok c d) {i : ℕ} {j : J}
    {p : Prog Op Res ε (Option J)} (hi : d.threads[i]? = some ⟨j, p⟩) (hp : p.running = true)
    (env : ℕ → Env) (hok : ∀ e n, ok e (.step i (env n))) :
    ∃ e, S.Run ok c e ∧ e.shared = (p.runAlone S.perform env d.shared).2 ∧
      e.threads = d.threads.set i ⟨j, Prog.ofExcept (p.runAlone S.perform env d.shared).1⟩ ++
        S.launch (Prog.ofExcept (p.runAlone S.perform env d.shared).1 :
          Prog Op Res ε (Option J)).launched := by
  induction p generalizing d env with
  | pure a => exact absurd hp (by simp)
  | throw e => exact absurd hp (by simp)
  | op o k ih =>
    set x := S.perform o (env 0) d.shared with hx
    have hnext : S.next d (.step i (env 0)) =
        some ⟨x.2, d.threads.set i ⟨j, k x.1⟩ ++ S.launch (k x.1).launched⟩ := by
      rw [System.next, hi]
    have hrun' := hrun.tail (hok d 0) hnext
    have hlt : i < d.threads.length := (List.getElem?_eq_some_iff.mp hi).1
    have hdef : (Prog.op o k).runAlone S.perform env d.shared =
        (k x.1).runAlone S.perform (fun n => env (n + 1)) x.2 := rfl
    rw [hdef]
    cases hk : k x.1 with
    | pure a =>
      rw [hk] at hrun'
      exact ⟨_, hrun', rfl, rfl⟩
    | throw e =>
      rw [hk] at hrun'
      exact ⟨_, hrun', rfl, rfl⟩
    | op o' k' =>
      have hi' : (d.threads.set i ⟨j, k x.1⟩ ++ S.launch (k x.1).launched)[i]? =
          some ⟨j, k x.1⟩ := by
        rw [List.getElem?_append_left (by rwa [List.length_set]), List.getElem?_set_self hlt]
      obtain ⟨e, hcd, hshared, hthreads⟩ := ih x.1 hrun' hi' (by rw [hk]; rfl)
        (fun n => env (n + 1)) (fun e n => hok e (n + 1))
      rw [hk] at hshared hthreads
      refine ⟨e, hcd, hshared, ?_⟩
      rw [hthreads]
      simp

/-- **A coroutine left alone**, whose body is known to return, with the same environment at
every operation. -/
theorem System.Run.alone_of_wp {c d : Conf Op Res ε J St} (hrun : S.Run ok c d) {i : ℕ} {j : J}
    {p : Prog Op Res ε (Option J)} (hi : d.threads[i]? = some ⟨j, p⟩) (hp : p.running = true)
    {env : Env} (hok : ∀ e, ok e (.step i env)) {Q : Option J → St → Prop}
    (h : (Contract.alone S.perform (fun _ e _ => e = env) fun _ => True).wp Q
      (fun _ _ => False) p d.shared) :
    ∃ a e, S.Run ok c e ∧ Q a e.shared ∧
      e.threads = d.threads.set i ⟨j, .pure a⟩ ++ S.launch a := by
  obtain ⟨e, hce, hshared, hthreads⟩ := hrun.alone hi hp (fun _ => env) (fun e _ => hok e)
  have hend : (∃ a, (p.runAlone S.perform (fun _ => env) d.shared).1 = .ok a ∧
        Q a (p.runAlone S.perform (fun _ => env) d.shared).2) ∨
      ∃ x, (p.runAlone S.perform (fun _ => env) d.shared).1 = .error x ∧ False :=
    Contract.runAlone_of_wp (fun _ _ _ => rfl) h
  rcases hend with ⟨a, hresult, hQ⟩ | ⟨x, -, hfalse⟩
  · refine ⟨a, e, hce, hshared ▸ hQ, ?_⟩
    rw [hthreads, hresult]
    rfl
  · exact hfalse.elim

/-- The coroutine that was launched last, left alone. -/
theorem System.Run.launched_alone {c d : Conf Op Res ε J St} (hrun : S.Run ok c d)
    {ts : List (Thread Op Res ε J)} {j : J} (hd : d.threads = ts ++ S.launch (some j))
    (hj : (S.body j).running = true) {env : Env} (hok : ∀ e i, ok e (.step i env))
    {Q : Option J → St → Prop}
    (h : (Contract.alone S.perform (fun _ e _ => e = env) fun _ => True).wp Q
      (fun _ _ => False) (S.body j) d.shared) :
    ∃ a e ts', S.Run ok c e ∧ Q a e.shared ∧ e.threads = ts' ++ S.launch a := by
  have hi : d.threads[ts.length]? = some ⟨j, S.body j⟩ := by
    rw [hd, List.getElem?_append_right (le_refl _), Nat.sub_self]
    rfl
  obtain ⟨a, e, hce, hQ, hthreads⟩ := hrun.alone_of_wp hi hj (fun e => hok e _) h
  exact ⟨a, e, _, hce, hQ, hthreads⟩

variable (S) in
/-- A job and the job that it launches, one after the other. -/
def System.toRest : Option J → Prog Op Res ε Unit
  | none => .pure ()
  | some j => (S.body j).bind fun
      | none => .pure ()
      | some next => (S.body next).bind fun _ => .pure ()

/-- The coroutine that was launched last, left alone while nothing else is running. -/
theorem System.Run.last_alone {c d : Conf Op Res ε J St} (hrun : S.Run ok c d)
    {ts : List (Thread Op Res ε J)} (hrest : ∀ t ∈ ts, t.body.running = false) {j : J}
    (hd : d.threads = ts ++ S.launch (some j)) (hj : (S.body j).running = true) {env : ℕ → Env}
    (hok : ∀ e i n, ok e (.step i (env n))) {r : Except ε (Option J)} {s : St}
    (h : (S.body j).runAlone S.perform env d.shared = (r, s)) :
    ∃ e ts', S.Run ok c e ∧ e.shared = s ∧ (∀ t ∈ ts', t.body.running = false) ∧
      e.threads = ts' ++ S.launch r.toOption.join := by
  have hi : d.threads[ts.length]? = some ⟨j, S.body j⟩ := by
    rw [hd, List.getElem?_append_right (le_refl _), Nat.sub_self]
    rfl
  obtain ⟨e, hce, hshared, hthreads⟩ := hrun.alone hi hj env fun e n => hok e _ n
  have hset : ∀ t, d.threads.set ts.length t = ts ++ [t] := by
    intro t
    rw [hd, List.set_append_right _ _ (le_refl _), Nat.sub_self]
    rfl
  rw [hset, h] at hthreads
  rw [h] at hshared
  refine ⟨e, ts ++ [⟨j, Prog.ofExcept r⟩], hce, hshared, fun t ht => ?_, ?_⟩
  · rcases List.mem_append.mp ht with ht | ht
    · exact hrest t ht
    · obtain rfl := List.mem_singleton.mp ht
      cases r <;> rfl
  · rw [hthreads]
    cases r <;> rfl

/-- **From rest to rest.**  A job that was launched while nothing was running, left alone together
with the job that it launches, ends where `System.toRest` does. -/
theorem System.Run.toRest {c d : Conf Op Res ε J St} (hrun : S.Run ok c d)
    {ts : List (Thread Op Res ε J)} (hrest : ∀ t ∈ ts, t.body.running = false) {job : Option J}
    (hd : d.threads = ts ++ S.launch job) (hbody : ∀ j, (S.body j).running = true)
    (hlast : ∀ j ∈ job, (S.body j).Returns fun r => ∀ next ∈ r, (S.body next).Returns (· = none))
    (env : ℕ → Env) (hok : ∀ e i n, ok e (.step i (env n))) :
    ∃ e, S.Run ok c e ∧ e.shared = ((S.toRest job).runAlone S.perform env d.shared).2 ∧
      ∀ t ∈ e.threads, t.body.running = false := by
  have hdone : ∀ {e : Conf Op Res ε J St} {ts' : List (Thread Op Res ε J)},
      (∀ t ∈ ts', t.body.running = false) → e.threads = ts' ++ S.launch none →
      ∀ t ∈ e.threads, t.body.running = false := by
    intro e ts' hts' he
    rwa [he, System.launch_none, List.append_nil]
  cases job with
  | none => exact ⟨d, hrun, rfl, hdone hrest hd⟩
  | some j =>
    obtain ⟨⟨r, s₁⟩, hj⟩ : ∃ x, (S.body j).runAlone S.perform env d.shared = x := ⟨_, rfl⟩
    obtain ⟨e, ts', hce, rfl, hts', he⟩ := hrun.last_alone hrest hd (hbody j) hok hj
    rw [System.toRest]
    cases r with
    | error x =>
      rw [(Prog.run_bind_of_error _ _ hj).1]
      exact ⟨e, hce, rfl, hdone hts' he⟩
    | ok r =>
      rw [(Prog.run_bind_of_ok _ _ hj).1]
      cases r with
      | none => exact ⟨e, hce, rfl, hdone hts' he⟩
      | some next =>
        set rest := fun n => env (n + ((S.body j).trace S.perform env d.shared).length)
        obtain ⟨⟨r, s₂⟩, hnext⟩ : ∃ x, (S.body next).runAlone S.perform rest e.shared = x :=
          ⟨_, rfl⟩
        obtain ⟨e', ts'', hce', rfl, hts'', he'⟩ :=
          hce.last_alone hts' he (hbody next) (fun e i n => hok e i _) hnext
        dsimp only
        cases r with
        | error x =>
          rw [(Prog.run_bind_of_error _ _ hnext).1]
          exact ⟨e', hce', rfl, hdone hts'' he'⟩
        | ok r =>
          rw [(Prog.run_bind_of_ok _ _ hnext).1]
          obtain rfl := ((hlast j rfl).of_runAlone hj next rfl).of_runAlone hnext
          exact ⟨e', hce', rfl, hdone hts'' he'⟩

end Alone
end Coroutine
end AioVpn
