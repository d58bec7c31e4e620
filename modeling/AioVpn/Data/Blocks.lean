import Mathlib.Data.List.Basic
import Mathlib.Tactic

/-!
# Cutting a list at its headers

Some elements of a list are headers.  `blocks` cuts the list in front of each of them:
what stands before the first header, and then each header with what stands under it.
The cut commutes with filters that keep the headers (`blocks_filter`), and a list that
is continued after a header is cut there (`blocks_append_header`).  `unblocks` puts blocks
together again.
-/

namespace AioVpn
namespace Blocks

variable {α : Type} (p : α → Bool)

/-- What stands before the first header, and each header with what stands under it. -/
def blocks : List α → List α × List (α × List α)
  | [] => ([], [])
  | a :: l =>
      if p a then ([], (a, (blocks l).1) :: (blocks l).2) else (a :: (blocks l).1, (blocks l).2)

variable {p}

theorem blocks_cons_header {a : α} (ha : p a = true) (l : List α) :
    blocks p (a :: l) = ([], (a, (blocks p l).1) :: (blocks p l).2) := by
  rw [blocks, if_pos ha]

theorem blocks_cons {a : α} (ha : p a = false) (l : List α) :
    blocks p (a :: l) = (a :: (blocks p l).1, (blocks p l).2) := by
  rw [blocks, if_neg (by simp [ha])]

/-- What stands before the first header is a front part of the list without headers. -/
theorem blocks_append_of_not_header {l : List α} (hl : ∀ a ∈ l, p a = false) (m : List α) :
    blocks p (l ++ m) = (l ++ (blocks p m).1, (blocks p m).2) := by
  induction l with
  | nil => rfl
  | cons a l ih =>
    rw [List.cons_append, blocks_cons (hl a List.mem_cons_self),
      ih fun b hb => hl b (List.mem_cons_of_mem _ hb)]
    rfl

theorem blocks_append_header (l : List α) {a : α} (ha : p a = true) (m : List α) :
    blocks p (l ++ a :: m) =
      ((blocks p l).1, (blocks p l).2 ++ (a, (blocks p m).1) :: (blocks p m).2) := by
  induction l with
  | nil => rw [List.nil_append, blocks_cons_header ha]; rfl
  | cons b l ih =>
    cases hb : p b with
    | true => rw [List.cons_append, blocks_cons_header hb, blocks_cons_header hb, ih]; rfl
    | false => rw [List.cons_append, blocks_cons hb, blocks_cons hb, ih]

/-- A list has no header, or a last one. -/
theorem exists_last_header (p : α → Bool) (l : List α) :
    (∀ a ∈ l, p a = false) ∨
      ∃ l₁ a l₂, l = l₁ ++ a :: l₂ ∧ p a = true ∧ ∀ b ∈ l₂, p b = false := by
  induction l with
  | nil => exact Or.inl (by simp)
  | cons c l ih =>
    rcases ih with ih | ⟨l₁, a, l₂, rfl, ha, hl₂⟩
    · cases hc : p c with
      | true => exact Or.inr ⟨[], c, l, rfl, hc, ih⟩
      | false => exact Or.inl (List.forall_mem_cons.mpr ⟨hc, ih⟩)
    · exact Or.inr ⟨c :: l₁, a, l₂, rfl, ha, hl₂⟩

/-- Filters that keep the headers. -/
theorem blocks_filter {q : α → Bool} (hq : ∀ a, p a = true → q a = true) (l : List α) :
    blocks p (l.filter q) =
      ((blocks p l).1.filter q, (blocks p l).2.map fun b => (b.1, b.2.filter q)) := by
  induction l with
  | nil => rfl
  | cons a l ih =>
    cases ha : p a with
    | true =>
      rw [List.filter_cons_of_pos (hq a ha), blocks_cons_header ha, blocks_cons_header ha, ih]
      rfl
    | false =>
      rw [blocks_cons ha]
      cases hqa : q a with
      | true => rw [List.filter_cons_of_pos hqa, blocks_cons ha, ih, List.filter_cons_of_pos hqa]
      | false =>
        have hneg : ¬ q a = true := by simp [hqa]
        rw [List.filter_cons_of_neg hneg, ih, List.filter_cons_of_neg hneg]

/-- Maps. -/
theorem blocks_map {β : Type} {q : β → Bool} (f : α → β) (l : List α) :
    blocks q (l.map f) =
      ((blocks (fun a => q (f a)) l).1.map f,
        (blocks (fun a => q (f a)) l).2.map fun b => (f b.1, b.2.map f)) := by
  induction l with
  | nil => rfl
  | cons a l ih =>
    cases ha : q (f a) with
    | true =>
      rw [List.map_cons, blocks_cons_header ha, blocks_cons_header (p := fun a => q (f a)) ha, ih]
      rfl
    | false =>
      rw [List.map_cons, blocks_cons ha, blocks_cons (p := fun a => q (f a)) ha, ih]
      rfl

/-- The elements of a list are its headers and what stands in its blocks. -/
theorem mem_blocks {l : List α} {a : α} (ha : a ∈ l) :
    a ∈ (blocks p l).1 ∨ p a = true ∨ ∃ b ∈ (blocks p l).2, a ∈ b.2 := by
  induction l with
  | nil => exact absurd ha (by simp)
  | cons c l ih =>
    cases hc : p c with
    | true =>
      rw [blocks_cons_header hc]
      rcases List.mem_cons.mp ha with rfl | ha
      · exact Or.inr (Or.inl hc)
      · rcases ih ha with h | h | ⟨b, hb, h⟩
        · exact Or.inr (Or.inr ⟨_, List.mem_cons_self, h⟩)
        · exact Or.inr (Or.inl h)
        · exact Or.inr (Or.inr ⟨b, List.mem_cons_of_mem _ hb, h⟩)
    | false =>
      rw [blocks_cons hc]
      rcases List.mem_cons.mp ha with rfl | ha
      · exact Or.inl List.mem_cons_self
      · exact (ih ha).imp (List.mem_cons_of_mem _) id

/-- What stands in a block stands in the list, and its header is one. -/
theorem of_mem_blocks {l : List α} {b : α × List α} (hb : b ∈ (blocks p l).2) :
    p b.1 = true ∧ b.1 ∈ l ∧ ∀ a ∈ b.2, a ∈ l := by
  suffices key : (∀ a ∈ (blocks p l).1, a ∈ l) ∧
      ∀ b ∈ (blocks p l).2, p b.1 = true ∧ b.1 ∈ l ∧ ∀ a ∈ b.2, a ∈ l from key.2 b hb
  clear hb b
  induction l with
  | nil => exact ⟨by simp [blocks], by simp [blocks]⟩
  | cons c l ih =>
    obtain ⟨hfront, hblocks⟩ := ih
    have hrest : ∀ b ∈ (blocks p l).2, p b.1 = true ∧ b.1 ∈ c :: l ∧ ∀ a ∈ b.2, a ∈ c :: l := by
      intro b hb
      obtain ⟨hp, hmem, hunder⟩ := hblocks b hb
      exact ⟨hp, List.mem_cons_of_mem _ hmem, fun a ha => List.mem_cons_of_mem _ (hunder a ha)⟩
    cases hc : p c with
    | true =>
      rw [blocks_cons_header hc]
      refine ⟨by simp, List.forall_mem_cons.mpr ⟨⟨hc, List.mem_cons_self, ?_⟩, hrest⟩⟩
      exact fun a ha => List.mem_cons_of_mem _ (hfront a ha)
    | false =>
      rw [blocks_cons hc]
      exact ⟨List.forall_mem_cons.mpr ⟨List.mem_cons_self,
        fun a ha => List.mem_cons_of_mem _ (hfront a ha)⟩, hrest⟩

/-- A header has its block. -/
theorem exists_block {l : List α} {a : α} (ha : a ∈ l) (hp : p a = true) :
    ∃ b ∈ (blocks p l).2, b.1 = a := by
  induction l with
  | nil => exact absurd ha (by simp)
  | cons c l ih =>
    cases hc : p c with
    | true =>
      rw [blocks_cons_header hc]
      rcases List.mem_cons.mp ha with rfl | ha
      · exact ⟨_, List.mem_cons_self, rfl⟩
      · obtain ⟨b, hb, hba⟩ := ih ha
        exact ⟨b, List.mem_cons_of_mem _ hb, hba⟩
    | false =>
      rw [blocks_cons hc]
      rcases List.mem_cons.mp ha with rfl | ha
      · exact absurd hp (by simp [hc])
      · exact ih ha

/-- Nothing stands before the first header. -/
theorem blocks_fst_eq_nil_iff {l : List α} :
    (blocks p l).1 = [] ↔ ∀ a ∈ l.head?, p a = true := by
  cases l with
  | nil => simp [blocks]
  | cons c l =>
    cases hc : p c with
    | true => simp [blocks_cons_header hc, hc]
    | false => simp [blocks_cons hc, hc]

/-- The list with these blocks. -/
def unblocks (bs : List (α × List α)) : List α := bs.flatMap fun b => b.1 :: b.2

theorem blocks_unblocks {bs : List (α × List α)}
    (hbs : ∀ b ∈ bs, p b.1 = true ∧ ∀ a ∈ b.2, p a = false) :
    blocks p (unblocks bs) = ([], bs) := by
  induction bs with
  | nil => rfl
  | cons b bs ih =>
    obtain ⟨hheader, hunder⟩ := hbs b List.mem_cons_self
    rw [unblocks, List.flatMap_cons, List.cons_append, ← unblocks, blocks_cons_header hheader,
      blocks_append_of_not_header hunder, ih fun c hc => hbs c (List.mem_cons_of_mem _ hc),
      List.append_nil]

end Blocks
end AioVpn
