import Mathlib.Data.List.Basic
import Mathlib.Tactic

/-!
# Folds that can fail

Facts about `List.foldlM` in `Except`: taking a computation apart, how a fold can fail, what
it keeps when each of its steps keeps it, what it commutes with, and a fold over a list that is put
together from optional parts.
-/

namespace AioVpn
namespace ExceptFold

variable {α β γ ε : Type}

/-- A sequence that succeeds, taken apart. -/
theorem exists_of_bind_eq_ok {x : Except ε α} {f : α → Except ε β} {b : β}
    (h : x >>= f = .ok b) : ∃ a, x = .ok a ∧ f a = .ok b := by
  cases x with
  | error e => exact absurd h (by simp [bind, Except.bind])
  | ok a => exact ⟨a, rfl, h⟩

theorem bind_eq_ok_iff {x : Except ε α} {f : α → Except ε β} {b : β} :
    x.bind f = .ok b ↔ ∃ a, x = .ok a ∧ f a = .ok b := by
  cases x <;> simp [Except.bind]

theorem bind_of_eq_ok {x : Except ε α} {f : α → Except ε β} {a : α} {r : Except ε β}
    (hx : x = .ok a) (hr : f a = r) : x >>= f = r := by
  rw [hx]
  exact hr

/-- A sequence that fails, taken apart. -/
theorem error_of_bind_eq_error {x : Except ε α} {f : α → Except ε β} {e : ε}
    (h : x >>= f = .error e) : x = .error e ∨ ∃ a, x = .ok a ∧ f a = .error e := by
  cases x with
  | error e' =>
    have he : e' = e := Except.error.inj h
    exact Or.inl (congrArg Except.error he)
  | ok a => exact Or.inr ⟨a, rfl, h⟩

/-- A fold fails as one of its steps does. -/
theorem foldlM_error {f : β → α → Except ε β} (P : ε → Prop)
    (hstep : ∀ b a e, f b a = .error e → P e) {l : List α} {b : β} {e : ε}
    (h : l.foldlM f b = .error e) : P e := by
  induction l generalizing b with
  | nil => exact absurd h (by simp [pure, Except.pure])
  | cons a l ih =>
    rw [List.foldlM_cons] at h
    rcases error_of_bind_eq_error h with h | ⟨b₁, -, h⟩
    · exact hstep b a e h
    · exact ih h

/-- A fold keeps what each step keeps. -/
theorem foldlM_keeps {f : β → α → Except ε β} (g : β → γ)
    (hstep : ∀ b a b', f b a = .ok b' → g b' = g b) {l : List α} {b b' : β}
    (h : l.foldlM f b = .ok b') : g b' = g b := by
  induction l generalizing b with
  | nil => exact congrArg g (Except.ok.inj h).symm
  | cons a l ih =>
    rw [List.foldlM_cons] at h
    obtain ⟨b₁, hb₁, hrest⟩ := exists_of_bind_eq_ok h
    exact (ih hrest).trans (hstep b a b₁ hb₁)

/-- What each step preserves holds after a fold. -/
theorem foldlM_invariant {f : β → α → Except ε β} {P : β → Prop} {l : List α} {b b' : β}
    (h : l.foldlM f b = .ok b') (hb : P b)
    (hstep : ∀ a ∈ l, ∀ b b', P b → f b a = .ok b' → P b') : P b' := by
  induction l generalizing b with
  | nil =>
    rw [← Except.ok.inj h]
    exact hb
  | cons a l ih =>
    rw [List.foldlM_cons] at h
    obtain ⟨b₁, hb₁, hrest⟩ := exists_of_bind_eq_ok h
    exact ih hrest (hstep a List.mem_cons_self b b₁ hb hb₁) fun a' ha' =>
      hstep a' (List.mem_cons_of_mem _ ha')

/-- A fold commutes with what each step commutes with. -/
theorem foldlM_comm {f : β → α → Except ε β} (g : β → β) {l : List α}
    (hg : ∀ a ∈ l, ∀ b, f (g b) a = (f b a).map g) (b : β) :
    l.foldlM f (g b) = (l.foldlM f b).map g := by
  induction l generalizing b with
  | nil => rfl
  | cons a l ih =>
    rw [List.foldlM_cons, List.foldlM_cons, hg a List.mem_cons_self]
    cases f b a with
    | error e => rfl
    | ok b' => exact ih (fun x hx => hg x (List.mem_cons_of_mem _ hx)) b'

/-- Every step of a fold that succeeds does. -/
theorem exists_of_foldlM_eq_ok {f : β → α → Except ε β} {l : List α} {b b' : β}
    (h : l.foldlM f b = .ok b') {a : α} (ha : a ∈ l) : ∃ b₁ b₂, f b₁ a = .ok b₂ := by
  induction l generalizing b with
  | nil => exact absurd ha (by simp)
  | cons c l ih =>
    rw [List.foldlM_cons] at h
    obtain ⟨b₁, hb₁, hrest⟩ := exists_of_bind_eq_ok h
    rcases List.mem_cons.mp ha with rfl | ha
    · exact ⟨b, b₁, hb₁⟩
    · exact ih hrest ha

/-- A fold whose steps append to a list appends all of its elements. -/
theorem foldlM_collects {f : β → α → Except ε β} (put : List α → β)
    (hstep : ∀ xs a b', f (put xs) a = .ok b' → b' = put (xs ++ [a])) {l xs : List α} {b' : β}
    (h : l.foldlM f (put xs) = .ok b') : b' = put (xs ++ l) := by
  induction l generalizing xs with
  | nil =>
    rw [List.append_nil]
    exact (Except.ok.inj h).symm
  | cons a l ih =>
    rw [List.foldlM_cons] at h
    obtain ⟨b₁, hb₁, hrest⟩ := exists_of_bind_eq_ok h
    obtain rfl := hstep xs a b₁ hb₁
    rw [ih hrest, List.append_assoc, List.singleton_append]

/-! ## Optional parts -/

section Parts

variable {f : β → α → Except ε β} {b b' : β}

theorem foldlM_parts {l m : List α} {b'' : β} (b' : β) (hl : l.foldlM f b = .ok b')
    (hm : m.foldlM f b' = .ok b'') : (l ++ m).foldlM f b = .ok b'' := by
  rw [List.foldlM_append, hl]
  exact hm

theorem foldlM_one {a : α} (h : f b a = .ok b') : [a].foldlM f b = .ok b' := by
  rw [List.foldlM_cons, h]
  rfl

/-- An element that is there unless a set is empty. -/
theorem foldlM_unless {isEmpty : Bool} {a : α} (hempty : isEmpty = true → b' = b)
    (hstep : isEmpty = false → f b a = .ok b') :
    (if isEmpty then [] else [a]).foldlM f b = .ok b' := by
  cases isEmpty with
  | true =>
    rw [hempty rfl]
    rfl
  | false => exact foldlM_one (hstep rfl)

/-- An element that is there if a value is present. -/
theorem foldlM_elim {o : Option γ} {g : γ → α} (hnone : o = none → b' = b)
    (hsome : ∀ x, o = some x → f b (g x) = .ok b') :
    (o.elim [] fun x => [g x]).foldlM f b = .ok b' := by
  cases o with
  | none =>
    rw [hnone rfl]
    rfl
  | some x => exact foldlM_one (hsome x rfl)

end Parts

end ExceptFold
end AioVpn
