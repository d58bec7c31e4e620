import Mathlib.Data.List.Basic
import Mathlib.Tactic

/-!
# Coroutine bodies as trees of atomic effects

A coroutine of the application is a sequence of atomic steps: it reads a field,
calls a service, writes a field, and what it does next depends on the answer.
Between two of its steps anything else may run.  This file is the syntax of such
bodies and the rules for reasoning about one of them.

A body is a `Prog`: it returns, throws, or performs one operation and continues
with the answer.  The tree is finite along every branch, so a body run to the end
always ends; what it may *not* do is choose the answers.  Those come from the
handler `perform`, which reads an environment value (what the network said, what
the system did) and the shared state.

`Contract.wp` is the weakest precondition of a body.  It is a rely--guarantee
statement: before each operation the shared state may have moved along `rely`, at
each operation `assert` has to hold, and only environments that meet `assume` are
considered.  With `rely` the equality it is the ordinary weakest precondition of
a body that runs alone.

* `wp_bind`, `wp_seq`, `wp_tryCatch`, `wp_tryFinally`: the rules for the ways
  bodies are put together.
* `wp_mono`, `wp_of_rely`: weakening the postconditions, and stability.
* `wp_hoist`: a body written for a component, run inside a larger system.
* `alone`, `runAlone_of_wp`: a body with nothing else in between.
* `wp_of_onlyOps`: the invariant rule, for a body with operations of one class.
* `Nodes`, `OnlyOps`, `Returns`: every operation of a body meets a condition, or lies in a
  class; every value it returns meets a condition.
-/

namespace AioVpn
namespace Coroutine

/-- The body of a coroutine: return, throw, or perform one operation and go on
with its answer. -/
inductive Prog (Op : Type) (Res : Op → Type) (ε α : Type) where
  | pure (a : α) : Prog Op Res ε α
  | throw (e : ε) : Prog Op Res ε α
  | op (o : Op) (k : Res o → Prog Op Res ε α) : Prog Op Res ε α

namespace Prog

variable {Op Op' Env St St' : Type} {Res : Op → Type} {Res' : Op' → Type} {ε ε' α β : Type}

/-- Sequencing. -/
protected def bind : Prog Op Res ε α → (α → Prog Op Res ε β) → Prog Op Res ε β
  | .pure a, f => f a
  | .throw e, _ => .throw e
  | .op o k, f => .op o fun r => (k r).bind f

/-- `try { p } catch (e) { h e }`. -/
protected def tryCatch : Prog Op Res ε α → (ε → Prog Op Res ε' α) → Prog Op Res ε' α
  | .pure a, _ => .pure a
  | .throw e, h => h e
  | .op o k, h => .op o fun r => (k r).tryCatch h

/-- One operation. -/
def perform (o : Op) : Prog Op Res ε (Res o) := .op o .pure

instance : Monad (Prog Op Res ε) where
  pure := Prog.pure
  bind := Prog.bind

/-- `try { p } finally { f }`. -/
def tryFinally (p : Prog Op Res ε α) (f : Prog Op Res ε Unit) : Prog Op Res ε α :=
  (p.tryCatch fun e => f.bind fun _ => .throw e).bind fun a => f.bind fun _ => .pure a

/-- Rename the exceptions of a body. -/
def mapError (f : ε → ε') (p : Prog Op Res ε α) : Prog Op Res ε' α :=
  p.tryCatch fun e => .throw (f e)

/-- A call that answers with a value or an exception, as a step that returns or
throws. -/
def ofExcept : Except ε α → Prog Op Res ε α
  | .ok a => .pure a
  | .error e => .throw e

@[simp] theorem bind_def (p : Prog Op Res ε α) (f : α → Prog Op Res ε β) : p >>= f = p.bind f := rfl

@[simp] theorem pure_def (a : α) : (Pure.pure a : Prog Op Res ε α) = .pure a := rfl

@[simp] theorem pure_bind (a : α) (f : α → Prog Op Res ε β) : (Prog.pure a).bind f = f a := rfl

@[simp] theorem throw_bind (e : ε) (f : α → Prog Op Res ε β) :
    (Prog.throw e : Prog Op Res ε α).bind f = .throw e := rfl

@[simp] theorem op_bind (o : Op) (k : Res o → Prog Op Res ε α) (f : α → Prog Op Res ε β) :
    (Prog.op o k).bind f = .op o fun r => (k r).bind f := rfl

theorem bind_pure (p : Prog Op Res ε α) : p.bind .pure = p := by
  induction p with
  | pure a => rfl
  | throw e => rfl
  | op o k ih => rw [op_bind, funext ih]

theorem bind_assoc {γ : Type} (p : Prog Op Res ε α) (f : α → Prog Op Res ε β)
    (g : β → Prog Op Res ε γ) : (p.bind f).bind g = p.bind fun a => (f a).bind g := by
  induction p with
  | pure a => rfl
  | throw e => rfl
  | op o k ih => rw [op_bind, op_bind, op_bind, funext ih]

@[simp] theorem pure_tryCatch (a : α) (h : ε → Prog Op Res ε' α) :
    (Prog.pure a : Prog Op Res ε α).tryCatch h = .pure a := rfl

@[simp] theorem throw_tryCatch (e : ε) (h : ε → Prog Op Res ε' α) :
    (Prog.throw e : Prog Op Res ε α).tryCatch h = h e := rfl

@[simp] theorem op_tryCatch (o : Op) (k : Res o → Prog Op Res ε α) (h : ε → Prog Op Res ε' α) :
    (Prog.op o k).tryCatch h = .op o fun r => (k r).tryCatch h := rfl

/-- The body still has an operation to perform. -/
def running : Prog Op Res ε α → Bool
  | .op _ _ => true
  | _ => false

@[simp] theorem running_pure (a : α) : (Prog.pure a : Prog Op Res ε α).running = false := rfl

@[simp] theorem running_throw (e : ε) : (Prog.throw e : Prog Op Res ε α).running = false := rfl

@[simp] theorem running_op (o : Op) (k : Res o → Prog Op Res ε α) :
    (Prog.op o k).running = true := rfl

/-- The operation a body is about to perform. -/
def nextOp : Prog Op Res ε α → Option Op
  | .op o _ => some o
  | _ => none

theorem eq_op_of_nextOp {p : Prog Op Res ε α} {o : Op} (h : p.nextOp = some o) :
    ∃ k, p = .op o k := by
  cases p with
  | pure a => exact absurd h (by simp [nextOp])
  | throw e => exact absurd h (by simp [nextOp])
  | op o' k =>
    obtain rfl := Option.some.inj h
    exact ⟨k, rfl⟩

theorem exists_op_of_running {p : Prog Op Res ε α} (h : p.running = true) :
    ∃ o k, p = .op o k := by
  cases p with
  | pure a => exact absurd h (by simp)
  | throw e => exact absurd h (by simp)
  | op o k => exact ⟨o, k, rfl⟩

/-! ## Bodies all of whose operations meet a condition -/

/-- Every operation the body can reach, with what follows it, meets the condition
`P`. -/
def Nodes (P : (o : Op) → (Res o → Prog Op Res ε α) → Prop) : Prog Op Res ε α → Prop
  | .pure _ => True
  | .throw _ => True
  | .op o k => P o k ∧ ∀ r, (k r).Nodes P

/-- Every operation the body can reach lies in the class `P`. -/
def OnlyOps (P : Op → Prop) (p : Prog Op Res ε α) : Prop := p.Nodes fun o _ => P o

theorem OnlyOps.mono {P P' : Op → Prop} (hPP' : ∀ o, P o → P' o) {p : Prog Op Res ε α}
    (h : p.OnlyOps P) : p.OnlyOps P' := by
  induction p with
  | pure a => trivial
  | throw e => trivial
  | op o k ih => exact ⟨hPP' o h.1, fun r => ih r (h.2 r)⟩

theorem OnlyOps.perform {P : Op → Prop} {o : Op} (ho : P o) :
    (Prog.perform o : Prog Op Res ε (Res o)).OnlyOps P := ⟨ho, fun _ => trivial⟩

theorem OnlyOps.ofExcept {P : Op → Prop} (x : Except ε α) :
    (Prog.ofExcept x : Prog Op Res ε α).OnlyOps P := by
  cases x <;> trivial

theorem OnlyOps.bind {P : Op → Prop} {p : Prog Op Res ε α} {f : α → Prog Op Res ε β}
    (hp : p.OnlyOps P) (hf : ∀ a, (f a).OnlyOps P) : (p.bind f).OnlyOps P := by
  induction p with
  | pure a => exact hf a
  | throw e => trivial
  | op o k ih => exact ⟨hp.1, fun r => ih r (hp.2 r)⟩

theorem OnlyOps.tryCatch {P : Op → Prop} {p : Prog Op Res ε α} {h : ε → Prog Op Res ε' α}
    (hp : p.OnlyOps P) (hh : ∀ e, (h e).OnlyOps P) : (p.tryCatch h).OnlyOps P := by
  induction p with
  | pure a => trivial
  | throw e => exact hh e
  | op o k ih => exact ⟨hp.1, fun r => ih r (hp.2 r)⟩

/-- Every value the body can return meets the condition `Q`. -/
def Returns (Q : α → Prop) : Prog Op Res ε α → Prop
  | .pure a => Q a
  | .throw _ => True
  | .op _ k => ∀ r, (k r).Returns Q

theorem Returns.mono {Q Q' : α → Prop} (hQQ' : ∀ a, Q a → Q' a) {p : Prog Op Res ε α}
    (h : p.Returns Q) : p.Returns Q' := by
  induction p with
  | pure a => exact hQQ' a h
  | throw e => trivial
  | op o k ih => exact fun r => ih r (h r)

theorem Returns.bind {Q : β → Prop} (p : Prog Op Res ε α) {f : α → Prog Op Res ε β}
    (hf : ∀ a, (f a).Returns Q) : (p.bind f).Returns Q := by
  induction p with
  | pure a => exact hf a
  | throw e => trivial
  | op o k ih => exact fun r => ih r

theorem Returns.tryCatch {Q : α → Prop} {p : Prog Op Res ε α} {h : ε → Prog Op Res ε' α}
    (hp : p.Returns Q) (hh : ∀ e, (h e).Returns Q) : (p.tryCatch h).Returns Q := by
  induction p with
  | pure a => exact hp
  | throw e => exact hh e
  | op o k ih => exact fun r => ih r (hp r)

theorem OnlyOps.bind_of_returns {P : Op → Prop} {Q : α → Prop} {p : Prog Op Res ε α}
    {f : α → Prog Op Res ε β} (hp : p.OnlyOps P) (hq : p.Returns Q)
    (hf : ∀ a, Q a → (f a).OnlyOps P) : (p.bind f).OnlyOps P := by
  induction p with
  | pure a => exact hf a hq
  | throw e => trivial
  | op o k ih => exact ⟨hp.1, fun r => ih r (hp.2 r) (hq r)⟩

/-- The operations and the values of a body, as a condition on its nodes. -/
theorem Nodes.of_onlyOps {P : Op → Prop} {Q : α → Prop}
    {N : (o : Op) → (Res o → Prog Op Res ε α) → Prop}
    (hN : ∀ o k, P o → (∀ r, (k r).Returns Q) → N o k) {p : Prog Op Res ε α} (hp : p.OnlyOps P)
    (hq : p.Returns Q) : p.Nodes N := by
  induction p with
  | pure a => trivial
  | throw e => trivial
  | op o k ih => exact ⟨hN o k hp.1 hq, fun r => ih r (hp.2 r) (hq r)⟩

/-! ## A component's body inside a larger system -/

/-- Run a body of a component inside a system that has the component's operations
among its own. -/
def hoist (f : Op → Op') (g : ∀ o, Res' (f o) → Res o) : Prog Op Res ε α → Prog Op' Res' ε α
  | .pure a => .pure a
  | .throw e => .throw e
  | .op o k => .op (f o) fun r => (k (g o r)).hoist f g

theorem OnlyOps.hoist {P : Op' → Prop} {f : Op → Op'} {g : ∀ o, Res' (f o) → Res o}
    (hP : ∀ o, P (f o)) (p : Prog Op Res ε α) : (p.hoist f g).OnlyOps P := by
  induction p with
  | pure a => trivial
  | throw e => trivial
  | op o k ih => exact ⟨hP o, fun r => ih (g o r)⟩

/-! ## A body run alone -/

/-- Run a body to its end with nothing else in between; `env n` is the environment
of its `n`-th operation. -/
def runAlone (perform : (o : Op) → Env → St → Res o × St) :
    (ℕ → Env) → Prog Op Res ε α → St → Except ε α × St
  | _, .pure a, s => (.ok a, s)
  | _, .throw e, s => (.error e, s)
  | env, .op o k, s =>
      (k (perform o (env 0) s).1).runAlone perform (fun n => env (n + 1)) (perform o (env 0) s).2

end Prog

/-! ## Weakest preconditions -/

/-- What a body may count on and what it owes.  `perform` answers an operation,
`assume` restricts the environments that are considered, `assert` is owed before
each operation, and `rely` is what the rest of the system may do between two
operations of the body. -/
structure Contract (Op : Type) (Res : Op → Type) (Env St : Type) where
  /-- The answer to an operation and the state after it. -/
  perform : (o : Op) → Env → St → Res o × St
  /-- The environments considered at an operation. -/
  assume : Op → Env → St → Prop
  /-- What has to hold when an operation is performed. -/
  assert : Op → St → Prop
  /-- The moves of the rest of the system. -/
  rely : St → St → Prop
  rely_refl : ∀ s, rely s s
  rely_trans : ∀ {s t u}, rely s t → rely t u → rely s u

namespace Contract

open Prog

variable {Op Op' Env Env' St St' : Type} {Res : Op → Type} {Res' : Op' → Type} {ε ε' α β : Type}
variable (C : Contract Op Res Env St)

/-- **The weakest precondition of a body.**  `Q` is owed when it returns and `E`
when it throws. -/
def wp (Q : α → St → Prop) (E : ε → St → Prop) : Prog Op Res ε α → St → Prop
  | .pure a, s => Q a s
  | .throw e, s => E e s
  | .op o k, s => ∀ s₁, C.rely s s₁ → C.assert o s₁ ∧
      ∀ env, C.assume o env s₁ →
        wp Q E (k (C.perform o env s₁).1) (C.perform o env s₁).2

@[simp] theorem wp_pure (Q : α → St → Prop) (E : ε → St → Prop) (a : α) (s : St) :
    C.wp Q E (.pure a) s ↔ Q a s := Iff.rfl

@[simp] theorem wp_throw (Q : α → St → Prop) (E : ε → St → Prop) (e : ε) (s : St) :
    C.wp Q E (.throw e) s ↔ E e s := Iff.rfl

theorem wp_op (Q : α → St → Prop) (E : ε → St → Prop) (o : Op) (k : Res o → Prog Op Res ε α)
    (s : St) :
    C.wp Q E (.op o k) s ↔ ∀ s₁, C.rely s s₁ → C.assert o s₁ ∧
      ∀ env, C.assume o env s₁ →
        C.wp Q E (k (C.perform o env s₁).1) (C.perform o env s₁).2 := Iff.rfl

variable {C}

/-- The postconditions may be weakened. -/
theorem wp_mono {Q Q' : α → St → Prop} {E E' : ε → St → Prop} (hQ : ∀ a s, Q a s → Q' a s)
    (hE : ∀ e s, E e s → E' e s) {p : Prog Op Res ε α} {s : St} (h : C.wp Q E p s) :
    C.wp Q' E' p s := by
  induction p generalizing s with
  | pure a => exact hQ a s h
  | throw e => exact hE e s h
  | op o k ih =>
    intro s₁ hs
    obtain ⟨hassert, hk⟩ := h s₁ hs
    exact ⟨hassert, fun env henv => ih _ (hk env henv)⟩

/-- **Sequencing.** -/
theorem wp_bind (Q : β → St → Prop) (E : ε → St → Prop) (p : Prog Op Res ε α)
    (f : α → Prog Op Res ε β) (s : St) :
    C.wp Q E (p.bind f) s ↔ C.wp (fun a s' => C.wp Q E (f a) s') E p s := by
  induction p generalizing s with
  | pure a => rfl
  | throw e => rfl
  | op o k ih =>
    rw [op_bind, wp_op, wp_op]
    simp only [ih]

/-- One part after the other. -/
theorem wp_seq {Q' : α → St → Prop} {Q : β → St → Prop} {E' E : ε → St → Prop}
    {p : Prog Op Res ε α} {f : α → Prog Op Res ε β} {s : St} (hp : C.wp Q' E' p s)
    (hE : ∀ e s', E' e s' → E e s') (hf : ∀ a s', Q' a s' → C.wp Q E (f a) s') :
    C.wp Q E (p.bind f) s :=
  (C.wp_bind Q E p f s).mpr (C.wp_mono hf hE hp)

/-- **Catching.** -/
theorem wp_tryCatch (Q : α → St → Prop) (E : ε' → St → Prop) (p : Prog Op Res ε α)
    (h : ε → Prog Op Res ε' α) (s : St) :
    C.wp Q E (p.tryCatch h) s ↔ C.wp Q (fun e s' => C.wp Q E (h e) s') p s := by
  induction p generalizing s with
  | pure a => rfl
  | throw e => rfl
  | op o k ih =>
    rw [op_tryCatch, wp_op, wp_op]
    simp only [ih]

/-- **The final block** runs on both ways out. -/
theorem wp_tryFinally (Q : α → St → Prop) (E : ε → St → Prop) (p : Prog Op Res ε α)
    (f : Prog Op Res ε Unit) (s : St) :
    C.wp Q E (p.tryFinally f) s ↔
      C.wp (fun a s' => C.wp (fun _ s'' => Q a s'') E f s')
        (fun e s' => C.wp (fun _ s'' => E e s'') E f s') p s := by
  simp only [Prog.tryFinally, wp_bind, wp_tryCatch, wp_pure, wp_throw]

theorem wp_mapError (Q : α → St → Prop) (E : ε' → St → Prop) (f : ε → ε') (p : Prog Op Res ε α)
    (s : St) : C.wp Q E (p.mapError f) s ↔ C.wp Q (fun e s' => E (f e) s') p s := by
  simp only [Prog.mapError, wp_tryCatch, wp_throw]

/-- **Stability.**  A running body does not notice a move of the rest of the
system. -/
theorem wp_of_rely {Q : α → St → Prop} {E : ε → St → Prop} {p : Prog Op Res ε α} {s t : St}
    (hrun : p.running = true) (h : C.wp Q E p s) (hst : C.rely s t) : C.wp Q E p t := by
  obtain ⟨o, k, rfl⟩ := exists_op_of_running hrun
  intro s₁ hs
  exact h s₁ (C.rely_trans hst hs)

/-- **Invariants.**  A body all of whose operations lie in the class `P` keeps what the
operations of `P` and the rest of the system keep. -/
theorem wp_of_onlyOps {P : Op → Prop} {I : St → Prop} (hrely : ∀ s t, I s → C.rely s t → I t)
    (hassert : ∀ o s, P o → I s → C.assert o s)
    (hstep : ∀ o env s, P o → I s → C.assume o env s → I (C.perform o env s).2)
    {p : Prog Op Res ε α} (hp : p.OnlyOps P) {s : St} (hs : I s) :
    C.wp (fun _ => I) (fun _ => I) p s := by
  induction p generalizing s with
  | pure a => exact hs
  | throw e => exact hs
  | op o k ih =>
    intro s₁ hs₁
    have hI := hrely s s₁ hs hs₁
    refine ⟨hassert o s₁ hp.1 hI, fun env henv => ?_⟩
    exact ih _ (hp.2 _) (hstep o env s₁ hp.1 hI henv)

/-- What a body returns, beside what it owes. -/
theorem wp_returns {P : α → Prop} {Q : α → St → Prop} {E : ε → St → Prop} {p : Prog Op Res ε α}
    (hp : p.Returns P) {s : St} (h : C.wp Q E p s) : C.wp (fun a s' => P a ∧ Q a s') E p s := by
  induction p generalizing s with
  | pure a => exact ⟨hp, h⟩
  | throw e => exact h
  | op o k ih =>
    intro s₁ hs
    obtain ⟨hassert, hk⟩ := h s₁ hs
    exact ⟨hassert, fun env henv => ih _ (hp _) (hk env henv)⟩

/-- A running body meets what it owes at its next operation. -/
theorem assert_of_wp {Q : α → St → Prop} {E : ε → St → Prop} {o : Op}
    {k : Res o → Prog Op Res ε α} {s : St} (h : C.wp Q E (.op o k) s) : C.assert o s :=
  (h s (C.rely_refl s)).1

/-- The next operation of a running body. -/
theorem wp_step {Q : α → St → Prop} {E : ε → St → Prop} {o : Op}
    {k : Res o → Prog Op Res ε α} {s : St} (h : C.wp Q E (.op o k) s) {env : Env}
    (henv : C.assume o env s) : C.wp Q E (k (C.perform o env s).1) (C.perform o env s).2 :=
  (h s (C.rely_refl s)).2 env henv

/-- The contract of a body that runs alone, with environments that meet `assume` and
operations that meet `assert`. -/
def alone (perform : (o : Op) → Env → St → Res o × St) (assume : Op → Env → St → Prop)
    (assert : Op → Prop) : Contract Op Res Env St where
  perform := perform
  assume := assume
  assert := fun o _ => assert o
  rely := Eq
  rely_refl := fun _ => rfl
  rely_trans := fun h h' => h.trans h'

section Alone

variable {perform : (o : Op) → Env → St → Res o × St} {assume : Op → Env → St → Prop}
  {assert : Op → Prop}

theorem wp_alone_op_iff (Q : α → St → Prop) (E : ε → St → Prop) (o : Op)
    (k : Res o → Prog Op Res ε α) (s : St) :
    (alone perform assume assert).wp Q E (.op o k) s ↔ assert o ∧ ∀ env, assume o env s →
      (alone perform assume assert).wp Q E (k (perform o env s).1) (perform o env s).2 := by
  rw [wp_op]
  constructor
  · exact fun h => h s rfl
  · rintro h s₁ rfl
    exact h

/-- One operation of a body that runs alone. -/
@[simp] theorem wp_alone_op (Q : α → St → Prop) (E : ε → St → Prop) {o : Op} (ho : assert o)
    (k : Res o → Prog Op Res ε α) (s : St) :
    (alone perform assume assert).wp Q E (.op o k) s ↔ ∀ env, assume o env s →
      (alone perform assume assert).wp Q E (k (perform o env s).1) (perform o env s).2 := by
  rw [wp_alone_op_iff]
  exact and_iff_right ho

/-- **A body run alone** ends as its weakest precondition says. -/
theorem runAlone_of_wp {Q : α → St → Prop} {E : ε → St → Prop} {p : Prog Op Res ε α} {s : St}
    {env : ℕ → Env} (henv : ∀ o n s, assume o (env n) s)
    (h : (alone perform assume assert).wp Q E p s) :
    (∃ a, (p.runAlone perform env s).1 = .ok a ∧ Q a (p.runAlone perform env s).2) ∨
      ∃ e, (p.runAlone perform env s).1 = .error e ∧ E e (p.runAlone perform env s).2 := by
  induction p generalizing s env with
  | pure a => exact Or.inl ⟨a, rfl, h⟩
  | throw e => exact Or.inr ⟨e, rfl, h⟩
  | op o k ih =>
    rw [wp_alone_op_iff] at h
    exact ih _ (fun o n s => henv o (n + 1) s) (h.2 (env 0) (henv o 0 s))

end Alone

/-- **A component's body inside a larger system.**  `get` reads the component's
state out of the system's, and `F` is everything that can happen to the system
while the component's body runs: moves of the rest and operations of the body. -/
theorem wp_hoist {D : Contract Op' Res' Env' St'} {f : Op → Op'} {g : ∀ o, Res' (f o) → Res o}
    {get : St' → St} {F : St' → St' → Prop} (hrefl : ∀ s, F s s)
    (htrans : ∀ {s t u}, F s t → F t u → F s u)
    (hrely : ∀ s t, D.rely s t → F s t ∧ C.rely (get s) (get t))
    (hassert : ∀ o s, C.assert o (get s) → D.assert (f o) s)
    (hstep : ∀ o env s, D.assume (f o) env s → ∃ env', C.assume o env' (get s) ∧
      g o (D.perform (f o) env s).1 = (C.perform o env' (get s)).1 ∧
      get (D.perform (f o) env s).2 = (C.perform o env' (get s)).2 ∧
      F s (D.perform (f o) env s).2)
    {Q : α → St' → Prop} {E : ε → St' → Prop} {p : Prog Op Res ε α} {s : St'}
    (h : C.wp (fun a b => ∀ s', F s s' → get s' = b → Q a s')
      (fun e b => ∀ s', F s s' → get s' = b → E e s') p (get s)) :
    D.wp Q E (p.hoist f g) s := by
  induction p generalizing s with
  | pure a => exact h s (hrefl s) rfl
  | throw e => exact h s (hrefl s) rfl
  | op o k ih =>
    intro s₁ hs
    obtain ⟨hF, hR⟩ := hrely s s₁ hs
    obtain ⟨ha, hk⟩ := h (get s₁) hR
    refine ⟨hassert o s₁ ha, fun env henv => ?_⟩
    obtain ⟨env', henv', hres, hget, hF'⟩ := hstep o env s₁ henv
    show D.wp Q E ((k (g o (D.perform (f o) env s₁).1)).hoist f g) _
    rw [hres]
    refine ih _ ?_
    rw [hget]
    refine wp_mono ?_ ?_ (hk env' henv')
    · exact fun a b hab s' hs' hb => hab s' (htrans hF (htrans hF' hs')) hb
    · exact fun e b heb s' hs' hb => heb s' (htrans hF (htrans hF' hs')) hb

end Contract
end Coroutine
end AioVpn
