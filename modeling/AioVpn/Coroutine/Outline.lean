import AioVpn.Coroutine.Pool

/-!
# Proof outlines for pools of coroutines

When any number of coroutines of several kinds run at once, what is true of the shared
state depends on how far each of them has come.  A proof outline says it point by point:
`inv` holds all the time, and `holds j p` holds whenever a coroutine launched for the job
`j` has the rest `p` of its body in front of it.

`Outline.Sound` are the obligations.  A step has to establish what is claimed at the point
it leads to, and it must not disturb what is claimed at the points where the *other*
coroutines stand; the configuration is at hand in both, so a side condition on the runs can
speak about where the others are.  `Outline.Sound.run` is the conclusion: in every run the
outline holds at every coroutine.

`AtMostOne.next` is for outlines that need one more fact: if a section of the bodies is
entered only while no coroutine is in it, then at most one coroutine is in it.
-/

namespace AioVpn
namespace Coroutine

variable {Op : Type} {Res : Op → Type} {ε Env St J Ev : Type}

/-- A thread of the pool after a step: the one that moved, another one of the pool before
the step, or a new one. -/
theorem getElem?_set_append {α : Type} {ts new : List α} {i l : ℕ} {v u : α}
    (h : (ts.set i v ++ new)[l]? = some u) :
    (l = i ∧ u = v) ∨ (l ≠ i ∧ ts[l]? = some u) ∨ (ts.length ≤ l ∧ u ∈ new) := by
  by_cases hlt : l < ts.length
  · rw [List.getElem?_append_left (by rwa [List.length_set])] at h
    by_cases hli : l = i
    · subst hli
      rw [List.getElem?_set_self hlt] at h
      exact Or.inl ⟨rfl, (Option.some.inj h).symm⟩
    · rw [List.getElem?_set_ne (Ne.symm hli)] at h
      exact Or.inr (Or.inl ⟨hli, h⟩)
  · rw [List.getElem?_append_right (by rw [List.length_set]; omega)] at h
    exact Or.inr (Or.inr ⟨by omega, List.mem_of_getElem? h⟩)

/-! ## Outlines -/

/-- What holds of the shared state all the time, and at each point of a body. -/
structure Outline (Op : Type) (Res : Op → Type) (ε St J : Type) where
  inv : St → Prop
  /-- What holds while a coroutine for this job has this rest of its body left. -/
  holds : J → Prog Op Res ε (Option J) → St → Prop

namespace Outline

variable (A : Outline Op Res ε St J)

/-- The outline holds in a configuration. -/
structure Valid (c : Conf Op Res ε J St) : Prop where
  inv : A.inv c.shared
  thread : ∀ t ∈ c.threads, A.holds t.job t.body c.shared

/-- What a move to the state `s'` owes: the invariant, the assertions at the points where
the coroutines in `others` stand, and the one at the start of what is launched. -/
structure Kept (S : System Op Res ε Env St J Ev) (others : Thread Op Res ε J → Prop) (s' : St)
    (launched : Option J) : Prop where
  inv : A.inv s'
  others : ∀ t, others t → A.holds t.job t.body s'
  launched : ∀ j, launched = some j → A.holds j (S.body j) s'

/-- The obligations. -/
structure Sound (S : System Op Res ε Env St J Ev)
    (ok : Conf Op Res ε J St → Act Ev Env → Prop) : Prop where
  event : ∀ (c : Conf Op Res ε J St) e s' j, A.Valid c → ok c (.event e) →
    S.handle e c.shared = some (s', j) → A.Kept S (· ∈ c.threads) s' j
  step : ∀ (c : Conf Op Res ε J St) i env j o k, A.Valid c → ok c (.step i env) →
    c.threads[i]? = some ⟨j, .op o k⟩ → A.holds j (.op o k) c.shared →
    A.holds j (k (S.perform o env c.shared).1) (S.perform o env c.shared).2 ∧
      A.Kept S (fun t => ∃ l, l ≠ i ∧ c.threads[l]? = some t) (S.perform o env c.shared).2
        (k (S.perform o env c.shared).1).launched

variable {A} {S : System Op Res ε Env St J Ev} {ok : Conf Op Res ε J St → Act Ev Env → Prop}

theorem Kept.launch {others : Thread Op Res ε J → Prop} {s' : St} {j : Option J}
    (h : A.Kept S others s' j) {t : Thread Op Res ε J} (ht : t ∈ S.launch j) :
    A.holds t.job t.body s' := by
  obtain ⟨i, rfl, rfl⟩ := S.mem_launch.mp ht
  exact h.launched i rfl

theorem Sound.valid_next (hA : A.Sound S ok) {c c' : Conf Op Res ε J St} (hc : A.Valid c)
    {a : Act Ev Env} (hok : ok c a) (hnext : S.next c a = some c') : A.Valid c' := by
  cases a with
  | event e =>
    obtain ⟨s', j, hh, rfl⟩ := S.next_event hnext
    have hkept := hA.event c e s' j hc hok hh
    refine ⟨hkept.inv, fun t ht => ?_⟩
    rcases List.mem_append.mp ht with ht | ht
    · exact hkept.others t ht
    · exact hkept.launch ht
  | step i env =>
    obtain ⟨j, o, k, hi, rfl⟩ := S.next_step hnext
    obtain ⟨hself, hkept⟩ :=
      hA.step c i env j o k hc hok hi (hc.thread _ (List.mem_of_getElem? hi))
    refine ⟨hkept.inv, fun t ht => ?_⟩
    obtain ⟨l, hl⟩ := List.mem_iff_getElem?.mp ht
    rcases getElem?_set_append hl with ⟨-, rfl⟩ | ⟨hne, hold⟩ | ⟨-, hnew⟩
    · exact hself
    · exact hkept.others t ⟨l, hne, hold⟩
    · exact hkept.launch hnew

/-- **A sound outline holds in every run.** -/
theorem Sound.run (hA : A.Sound S ok) {c d : Conf Op Res ε J St} (hrun : S.Run ok c d)
    (hc : A.Valid c) : A.Valid d :=
  hrun.invariant hc fun _ _ _ hd hok hnext => hA.valid_next hd hok hnext

end Outline

/-! ## A section with one coroutine in it -/

/-- At most one coroutine is inside. -/
def AtMostOne (inside : Thread Op Res ε J → Prop) (c : Conf Op Res ε J St) : Prop :=
  ∀ (i l : ℕ) (t u : Thread Op Res ε J), c.threads[i]? = some t → c.threads[l]? = some u →
    inside t → inside u → i = l

/-- **Mutual exclusion.**  Nothing is inside when it is launched, and a coroutine gets
inside only while no other one is; then there is never more than one inside. -/
theorem AtMostOne.next {S : System Op Res ε Env St J Ev}
    (ok : Conf Op Res ε J St → Act Ev Env → Prop) {inside : Thread Op Res ε J → Prop}
    (hbody : ∀ j, ¬ inside ⟨j, S.body j⟩)
    (henter : ∀ (c : Conf Op Res ε J St) i env j o k, ok c (.step i env) →
      c.threads[i]? = some ⟨j, .op o k⟩ → inside ⟨j, k (S.perform o env c.shared).1⟩ →
      inside ⟨j, .op o k⟩ ∨ ∀ t ∈ c.threads, ¬ inside t)
    {d d' : Conf Op Res ε J St} (hd : AtMostOne inside d) {a : Act Ev Env} (hok : ok d a)
    (hnext : S.next d a = some d') : AtMostOne inside d' := by
  have hlaunch : ∀ j t, t ∈ S.launch j → ¬ inside t := by
    intro j t ht
    obtain ⟨i, -, rfl⟩ := S.mem_launch.mp ht
    exact hbody i
  cases a with
  | event e =>
    obtain ⟨s', j, -, rfl⟩ := S.next_event hnext
    -- the positions of the pool before the event are kept
    have hold : ∀ (n : ℕ) t, (d.threads ++ S.launch j)[n]? = some t → inside t →
        d.threads[n]? = some t := by
      intro n t hn ht
      by_cases hlt : n < d.threads.length
      · rwa [List.getElem?_append_left hlt] at hn
      · rw [List.getElem?_append_right (by omega)] at hn
        exact absurd ht (hlaunch j t (List.mem_of_getElem? hn))
    intro i l t u hi hl ht hu
    exact hd i l t u (hold i t hi ht) (hold l u hl hu) ht hu
  | step m env =>
    obtain ⟨j, o, k, hm, rfl⟩ := S.next_step hnext
    -- a thread that is inside is the one that moved, or was inside where it is
    have hold : ∀ (n : ℕ) t, (d.threads.set m ⟨j, k (S.perform o env d.shared).1⟩ ++
        S.launch (k (S.perform o env d.shared).1).launched)[n]? = some t → inside t →
        (n = m ∧ t = ⟨j, k (S.perform o env d.shared).1⟩) ∨ (n ≠ m ∧ d.threads[n]? = some t) := by
      intro n t hn ht
      rcases getElem?_set_append hn with ⟨hnm, rfl⟩ | ⟨hne, hold⟩ | ⟨-, hnew⟩
      · exact Or.inl ⟨hnm, rfl⟩
      · exact Or.inr ⟨hne, hold⟩
      · exact absurd ht (hlaunch _ t hnew)
    -- another thread that is inside keeps the moving one out
    have hclash : ∀ (n : ℕ) t, n ≠ m → d.threads[n]? = some t → inside t →
        ¬ inside ⟨j, k (S.perform o env d.shared).1⟩ := by
      intro n t hne hn ht hin
      rcases henter d m env j o k hok hm hin with hwas | hnone
      · exact hne (hd n m t _ hn hm ht hwas)
      · exact hnone t (List.mem_of_getElem? hn) ht
    intro i l t u hi hl ht hu
    rcases hold i t hi ht with ⟨rfl, rfl⟩ | ⟨hine, hiold⟩
    · rcases hold l u hl hu with ⟨rfl, -⟩ | ⟨hlne, hlold⟩
      · rfl
      · exact absurd ht (hclash l u hlne hlold hu)
    · rcases hold l u hl hu with ⟨rfl, rfl⟩ | ⟨-, hlold⟩
      · exact absurd hu (hclash i t hine hiold ht)
      · exact hd i l t u hiold hlold ht hu

end Coroutine
end AioVpn
