/-!
# Sorting by insertion

A list is sorted by inserting its elements one after the other behind all elements which are not
greater. Elements of which none is less than the other keep their order.
-/

namespace NetworkLoading

variable {α : Type}

/-- Inserts an element into a descending list, before the first element which is not greater. -/
def insertDown (lt : α → α → Bool) (x : α) : List α → List α
  | [] => [x]
  | y :: ys => if lt x y then y :: insertDown lt x ys else x :: y :: ys

/-- Sorts a list in ascending order. -/
def sortBy (lt : α → α → Bool) (xs : List α) : List α :=
  -- What is sorted already is inserted at the front each time, which takes one comparison.
  (xs.foldl (fun sorted x => insertDown lt x sorted) []).reverse

theorem insertDown_perm (lt : α → α → Bool) (x : α) (xs : List α) :
    (insertDown lt x xs).Perm (x :: xs) := by
  induction xs with
  | nil => exact .refl _
  | cons y ys ih =>
    rw [insertDown]
    split
    · exact (ih.cons y).trans (.swap x y ys)
    · exact .refl _

theorem foldl_insertDown_perm (lt : α → α → Bool) (xs sorted : List α) :
    (xs.foldl (fun sorted x => insertDown lt x sorted) sorted).Perm (xs ++ sorted) := by
  induction xs generalizing sorted with
  | nil => exact .refl _
  | cons x xs ih =>
    exact (ih _).trans (((insertDown_perm lt x sorted).append_left xs).trans List.perm_middle)

theorem sortBy_perm (lt : α → α → Bool) (xs : List α) : (sortBy lt xs).Perm xs := by
  have h := foldl_insertDown_perm lt xs []
  rw [List.append_nil] at h
  exact (List.reverse_perm _).trans h

@[simp] theorem mem_sortBy {lt : α → α → Bool} {xs : List α} {x : α} :
    x ∈ sortBy lt xs ↔ x ∈ xs :=
  (sortBy_perm lt xs).mem_iff

@[simp] theorem length_sortBy (lt : α → α → Bool) (xs : List α) :
    (sortBy lt xs).length = xs.length :=
  (sortBy_perm lt xs).length_eq

/-! ## Order -/

section Order

variable {lt : α → α → Bool} {R : α → α → Prop} (htrans : ∀ a b c : α, R a b → R b c → R a c)
include htrans

/-- A descending list stays so if an element is inserted, which goes behind another one unless it is
less. -/
theorem pairwise_insertDown {x : α} {sorted : List α} (hsorted : sorted.Pairwise fun a b => R b a)
    (hx : ∀ y ∈ sorted, if lt x y then R x y else R y x) :
    (insertDown lt x sorted).Pairwise fun a b => R b a := by
  induction sorted with
  | nil => exact List.pairwise_singleton _ _
  | cons y ys ih =>
    obtain ⟨hy, hys⟩ := List.pairwise_cons.1 hsorted
    have hxy := hx y List.mem_cons_self
    rw [insertDown]
    split at hxy
    · rename_i hlt
      rw [if_pos hlt]
      refine List.pairwise_cons.2
        ⟨fun z hz => ?_, ih hys fun z hz => hx z (List.mem_cons_of_mem y hz)⟩
      rcases List.mem_cons.1 ((insertDown_perm lt x ys).mem_iff.1 hz) with rfl | hz
      · exact hxy
      · exact hy z hz
    · rename_i hge
      rw [if_neg hge]
      refine List.pairwise_cons.2 ⟨fun z hz => ?_, hsorted⟩
      rcases List.mem_cons.1 hz with rfl | hz
      · exact hxy
      · exact htrans _ _ _ (hy z hz) hxy

theorem pairwise_foldl_insertDown {xs sorted : List α}
    (hsorted : sorted.Pairwise fun a b => R b a)
    (hxs : xs.Pairwise fun a b => if lt b a then R b a else R a b)
    (hacross : ∀ a ∈ sorted, ∀ b ∈ xs, if lt b a then R b a else R a b) :
    (xs.foldl (fun sorted x => insertDown lt x sorted) sorted).Pairwise fun a b => R b a := by
  induction xs generalizing sorted with
  | nil => exact hsorted
  | cons x xs ih =>
    obtain ⟨hx, hxs⟩ := List.pairwise_cons.1 hxs
    refine ih (pairwise_insertDown htrans hsorted fun y hy => hacross y hy x List.mem_cons_self) hxs
      fun a ha b hb => ?_
    rcases List.mem_cons.1 ((insertDown_perm lt x sorted).mem_iff.1 ha) with rfl | ha
    · exact hx b hb
    · exact hacross a ha b (List.mem_cons_of_mem x hb)

/-- Elements are sorted into the order in which each of them follows those before it, unless it is
less than they are. -/
theorem pairwise_sortBy {xs : List α}
    (h : xs.Pairwise fun a b => if lt b a then R b a else R a b) : (sortBy lt xs).Pairwise R := by
  unfold sortBy
  rw [List.pairwise_reverse]
  exact pairwise_foldl_insertDown htrans .nil h nofun

end Order

end NetworkLoading
