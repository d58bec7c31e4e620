import AioVpn.Coroutine.Prog

/-!
# The steps of a body run alone

`Prog.trace` lists the operations that a body performs when it runs alone, each with the state that
it meets.  Its length is the number of environment values that the run uses up.  Bodies put together
run one after the other, each on the rest of the environment: `run_bind_of_ok` and
`run_tryCatch_of_error`, with `run_bind_of_error` and `run_tryCatch_of_ok` for the ways out.
-/

namespace AioVpn
namespace Coroutine
namespace Prog

variable {Op Env St : Type} {Res : Op → Type} {ε ε' α β : Type}

/-- The operations of a run, each with the state it meets. -/
def trace (perform : (o : Op) → Env → St → Res o × St) :
    (ℕ → Env) → Prog Op Res ε α → St → List (Op × St)
  | _, .pure _, _ => []
  | _, .throw _, _ => []
  | env, .op o k, s =>
      (o, s) :: (k (perform o (env 0) s).1).trace perform (fun n => env (n + 1))
        (perform o (env 0) s).2

section Sequence

variable (perform : (o : Op) → Env → St → Res o × St) {env : ℕ → Env} {p : Prog Op Res ε α}
  {s s' : St}

/-- **After a body that returns**, the next one runs on the rest of the environment. -/
theorem run_bind_of_ok {a : α} (f : α → Prog Op Res ε β)
    (h : p.runAlone perform env s = (.ok a, s')) :
    (p.bind f).runAlone perform env s =
        (f a).runAlone perform (fun n => env (n + (p.trace perform env s).length)) s' ∧
      (p.bind f).trace perform env s = p.trace perform env s ++
        (f a).trace perform (fun n => env (n + (p.trace perform env s).length)) s' := by
  induction p generalizing env s with
  | pure a' =>
    obtain ⟨ha, rfl⟩ := Prod.mk.inj h
    obtain rfl := Except.ok.inj ha
    exact ⟨rfl, rfl⟩
  | throw e => exact absurd (Prod.mk.inj h).1 (by simp)
  | op o k ih =>
    obtain ⟨hrun, htrace⟩ := ih _ h
    exact ⟨hrun, congrArg (List.cons (o, s)) htrace⟩

/-- A body that throws ends the sequence. -/
theorem run_bind_of_error {e : ε} (f : α → Prog Op Res ε β)
    (h : p.runAlone perform env s = (.error e, s')) :
    (p.bind f).runAlone perform env s = (.error e, s') ∧
      (p.bind f).trace perform env s = p.trace perform env s := by
  induction p generalizing env s with
  | pure a' => exact absurd (Prod.mk.inj h).1 (by simp)
  | throw e' =>
    obtain ⟨he, rfl⟩ := Prod.mk.inj h
    obtain rfl := Except.error.inj he
    exact ⟨rfl, rfl⟩
  | op o k ih =>
    obtain ⟨hrun, htrace⟩ := ih _ h
    exact ⟨hrun, congrArg (List.cons (o, s)) htrace⟩

/-- **After a body that throws**, the handler runs on the rest of the environment. -/
theorem run_tryCatch_of_error {e : ε} (f : ε → Prog Op Res ε' α)
    (h : p.runAlone perform env s = (.error e, s')) :
    (p.tryCatch f).runAlone perform env s =
        (f e).runAlone perform (fun n => env (n + (p.trace perform env s).length)) s' ∧
      (p.tryCatch f).trace perform env s = p.trace perform env s ++
        (f e).trace perform (fun n => env (n + (p.trace perform env s).length)) s' := by
  induction p generalizing env s with
  | pure a' => exact absurd (Prod.mk.inj h).1 (by simp)
  | throw e' =>
    obtain ⟨he, rfl⟩ := Prod.mk.inj h
    obtain rfl := Except.error.inj he
    exact ⟨rfl, rfl⟩
  | op o k ih =>
    obtain ⟨hrun, htrace⟩ := ih _ h
    exact ⟨hrun, congrArg (List.cons (o, s)) htrace⟩

/-- A body that returns needs no handler. -/
theorem run_tryCatch_of_ok {a : α} (f : ε → Prog Op Res ε' α)
    (h : p.runAlone perform env s = (.ok a, s')) :
    (p.tryCatch f).runAlone perform env s = (.ok a, s') ∧
      (p.tryCatch f).trace perform env s = p.trace perform env s := by
  induction p generalizing env s with
  | pure a' =>
    obtain ⟨ha, rfl⟩ := Prod.mk.inj h
    obtain rfl := Except.ok.inj ha
    exact ⟨rfl, rfl⟩
  | throw e => exact absurd (Prod.mk.inj h).1 (by simp)
  | op o k ih =>
    obtain ⟨hrun, htrace⟩ := ih _ h
    exact ⟨hrun, congrArg (List.cons (o, s)) htrace⟩

/-- A handler around a sequence is around its second part when the first has returned. -/
theorem run_bind_tryCatch_of_ok {a : α} (f : α → Prog Op Res ε β) (g : ε → Prog Op Res ε' β)
    (h : p.runAlone perform env s = (.ok a, s')) :
    ((p.bind f).tryCatch g).runAlone perform env s =
      ((f a).tryCatch g).runAlone perform
        (fun n => env (n + (p.trace perform env s).length)) s' := by
  induction p generalizing env s with
  | pure a' =>
    obtain ⟨ha, rfl⟩ := Prod.mk.inj h
    obtain rfl := Except.ok.inj ha
    rfl
  | throw e => exact absurd (Prod.mk.inj h).1 (by simp)
  | op o k ih => exact ih _ h

end Sequence

/-- The operations of a run lie in the class that the body stays in. -/
theorem mem_trace_of_onlyOps {perform : (o : Op) → Env → St → Res o × St} {P : Op → Prop}
    {p : Prog Op Res ε α} (hp : p.OnlyOps P) {env : ℕ → Env} {s : St} :
    ∀ x ∈ p.trace perform env s, P x.1 := by
  induction p generalizing env s with
  | pure a => exact fun _ h => absurd h (by simp [trace])
  | throw e => exact fun _ h => absurd h (by simp [trace])
  | op o k ih =>
    intro x hx
    rcases List.mem_cons.mp hx with rfl | hx
    · exact hp.1
    · exact ih _ (hp.2 _) x hx

/-- What the operations of that class keep, the run keeps. -/
theorem runAlone_invariant {perform : (o : Op) → Env → St → Res o × St} {P : Op → Prop}
    {I : St → Prop} (hstep : ∀ o env s, P o → I s → I (perform o env s).2) {p : Prog Op Res ε α}
    (hp : p.OnlyOps P) {env : ℕ → Env} {s : St} (hs : I s) : I (p.runAlone perform env s).2 := by
  induction p generalizing env s with
  | pure a => exact hs
  | throw e => exact hs
  | op o k ih => exact ih _ (hp.2 _) (hstep o (env 0) s hp.1 hs)

/-- What a run returns is among what the body can return. -/
theorem Returns.of_runAlone {perform : (o : Op) → Env → St → Res o × St} {Q : α → Prop}
    {p : Prog Op Res ε α} (hp : p.Returns Q) {env : ℕ → Env} {s s' : St} {a : α}
    (h : p.runAlone perform env s = (.ok a, s')) : Q a := by
  induction p generalizing env s with
  | pure a' =>
    obtain rfl := Except.ok.inj (Prod.mk.inj h).1
    exact hp
  | throw e => exact absurd (Prod.mk.inj h).1 (by simp)
  | op o k ih => exact ih _ (hp _) h

end Prog
end Coroutine
end AioVpn
