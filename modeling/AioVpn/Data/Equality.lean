import Mathlib.Data.BitVec
import Mathlib.Data.List.Perm.Subperm
import Mathlib.Tactic

/-!
# Equality and hash codes of Java objects

The methods `equals` and `hashCode` of a class, and of the collections of its objects as `java.util`
defines them: `Optional`, lists, and sets given by their elements.  Hash codes are `int`s.

For each of them there are two facts: what `equals` decides, given what it decides for the members,
and that equal objects have equal hash codes (`Consistent`), given the same for the members.
-/

namespace AioVpn

/-- The methods `equals` and `hashCode`. -/
structure Equality (α : Type) where
  equals : α → α → Bool
  hashCode : α → BitVec 32

namespace Equality

variable {α β : Type}

/-- Equal objects have equal hash codes. -/
def Consistent (E : Equality α) : Prop :=
  ∀ a b, E.equals a b = true → E.hashCode a = E.hashCode b

/-- `hash = 31 * hash + h` for one hash code after the other, from 1 on. -/
def combine (hashes : List (BitVec 32)) : BitVec 32 :=
  hashes.foldl (fun hash h => 31 * hash + h) 1

/-- `Optional`. -/
def optional (E : Equality α) : Equality (Option α) where
  equals
    | none, none => true
    | some a, some b => E.equals a b
    | _, _ => false
  hashCode o := o.elim 0 E.hashCode

/-- `AbstractList.equals`. -/
def listEquals (E : Equality α) : List α → List α → Bool
  | [], [] => true
  | a :: l, b :: m => E.equals a b && listEquals E l m
  | _, _ => false

/-- `AbstractList`. -/
def list (E : Equality α) : Equality (List α) where
  equals := listEquals E
  hashCode l := combine (l.map E.hashCode)

/-- `AbstractSet`, for the elements of the set in any order. -/
def elements (E : Equality α) : Equality (List α) where
  equals s t := decide (s.length = t.length) && t.all fun a => s.any fun b => E.equals a b
  hashCode s := (s.map E.hashCode).sum

section Facts

variable {E : Equality α}

theorem optional_equals_iff {f : α → β} (hE : ∀ a b, E.equals a b = true ↔ f a = f b)
    (o p : Option α) : (optional E).equals o p = true ↔ o.map f = p.map f := by
  cases o with
  | none => cases p <;> simp [optional]
  | some a =>
    cases p with
    | none => simp [optional]
    | some b =>
      rw [Option.map_some, Option.map_some, Option.some.injEq]
      exact hE a b

theorem optional_consistent (hE : E.Consistent) : (optional E).Consistent := by
  intro o p h
  cases o with
  | none =>
    cases p with
    | none => rfl
    | some b => exact absurd h (by simp [optional])
  | some a =>
    cases p with
    | none => exact absurd h (by simp [optional])
    | some b => exact hE a b h

theorem list_equals_iff {R : α → α → Prop} (hE : ∀ a b, E.equals a b = true ↔ R a b)
    (l m : List α) : (list E).equals l m = true ↔ List.Forall₂ R l m := by
  induction l generalizing m with
  | nil => cases m <;> simp [list, listEquals]
  | cons a l ih =>
    cases m with
    | nil => simp [list, listEquals]
    | cons b m =>
      rw [List.forall₂_cons, ← hE, ← ih, ← Bool.and_eq_true]
      rfl

theorem list_consistent (hE : E.Consistent) : (list E).Consistent := by
  intro l m h
  refine congrArg combine ?_
  induction l generalizing m with
  | nil =>
    cases m with
    | nil => rfl
    | cons b m => exact absurd h (by simp [list, listEquals])
  | cons a l ih =>
    cases m with
    | nil => exact absurd h (by simp [list, listEquals])
    | cons b m =>
      have hparts : (E.equals a b && (list E).equals l m) = true := h
      rw [Bool.and_eq_true] at hparts
      rw [List.map_cons, List.map_cons, hE a b hparts.1, ih m hparts.2]

/-- Sets of values are equal if one is a permutation of the other. -/
theorem elements_equals_iff_perm (hE : ∀ a b, E.equals a b = true ↔ a = b) {s t : List α}
    (ht : t.Nodup) : (elements E).equals s t = true ↔ t.Perm s := by
  have hsub : (t.all fun a => s.any fun b => E.equals a b) = true ↔ t ⊆ s := by
    simp only [List.all_eq_true, List.any_eq_true, hE]
    exact ⟨fun h a ha => (h a ha).elim fun b hb => hb.2 ▸ hb.1, fun h a ha => ⟨a, h ha, rfl⟩⟩
  have hequals : (elements E).equals s t = true ↔ s.length = t.length ∧ t ⊆ s := by
    rw [← hsub, ← decide_eq_true_iff (p := s.length = t.length), ← Bool.and_eq_true]
    rfl
  rw [hequals]
  constructor
  · rintro ⟨hlen, hsubset⟩
    exact (List.subperm_of_subset ht hsubset).perm_of_length_le hlen.le
  · exact fun hperm => ⟨hperm.length_eq.symm, hperm.subset⟩

theorem elements_equals_iff (hE : ∀ a b, E.equals a b = true ↔ a = b) {s t : List α}
    (hs : s.Nodup) (ht : t.Nodup) :
    (elements E).equals s t = true ↔ ∀ a, a ∈ t ↔ a ∈ s := by
  rw [elements_equals_iff_perm hE ht, List.perm_ext_iff_of_nodup ht hs]

theorem elements_hashCode_eq (hE : ∀ a b, E.equals a b = true ↔ a = b) {s t : List α}
    (ht : t.Nodup) (h : (elements E).equals s t = true) :
    (elements E).hashCode s = (elements E).hashCode t :=
  (((elements_equals_iff_perm hE ht).mp h).map E.hashCode).sum_eq.symm

end Facts

end Equality
end AioVpn
