import Mathlib.Data.List.Basic
import Mathlib.Tactic

/-!
# Which error a computation reports

A computation in `Except` makes its checks one after the other and stops at the first
that fails.  To say which error it reports is to list the errors of all its checks in
their order: the computation reports the head of the list, and succeeds when the list
is empty.  `errorOf_bind` and `errorOf_foldlM` put such lists together.
-/

namespace AioVpn
namespace FirstError

variable {α β ε : Type}

/-- The error of a computation that fails. -/
def errorOf : Except ε α → Option ε
  | .error e => some e
  | .ok _ => none

@[simp] theorem errorOf_error (e : ε) : errorOf (.error e : Except ε α) = some e := rfl

@[simp] theorem errorOf_ok (a : α) : errorOf (.ok a : Except ε α) = none := rfl

theorem errorOf_eq_some_iff {x : Except ε α} {e : ε} : errorOf x = some e ↔ x = .error e := by
  cases x <;> simp

theorem errorOf_eq_none_iff {x : Except ε α} : errorOf x = none ↔ ∃ a, x = .ok a := by
  cases x <;> simp

@[simp] theorem errorOf_map (f : α → β) (x : Except ε α) : errorOf (x.map f) = errorOf x := by
  cases x <;> rfl

/-- The checks of a sequence are those of its first part, and then those of the rest. -/
theorem errorOf_bind {x : Except ε α} {f : α → Except ε β} {l m : List ε}
    (hx : errorOf x = l.head?) (hf : ∀ a, x = .ok a → errorOf (f a) = m.head?) :
    errorOf (x.bind f) = (l ++ m).head? := by
  rw [List.head?_append, ← hx]
  cases x with
  | error e => rfl
  | ok a => exact hf a rfl

/-- The checks of a fold are those of its steps, when they do not depend on what has been
accumulated. -/
theorem errorOf_foldlM {f : β → α → Except ε β} {g : α → List ε}
    (h : ∀ b a, errorOf (f b a) = (g a).head?) (l : List α) (b : β) :
    errorOf (l.foldlM f b) = (l.flatMap g).head? := by
  induction l generalizing b with
  | nil => rfl
  | cons a l ih =>
    rw [List.foldlM_cons, List.flatMap_cons]
    exact errorOf_bind (h b a) fun b' _ => ih b'

/-- A step that makes one check. -/
theorem errorOf_foldlM_filterMap {f : β → α → Except ε β} {g : α → Option ε}
    (h : ∀ b a, errorOf (f b a) = g a) (l : List α) (b : β) :
    errorOf (l.foldlM f b) = (l.filterMap g).head? := by
  rw [List.filterMap_eq_flatMap_toList]
  exact errorOf_foldlM (fun b a => by rw [h, Option.head?_toList]) l b

end FirstError
end AioVpn
