import ThumbSoc.Breakpoints

/-!
# Sound breakpoint sets

A breakpoint set holds no address twice and no more addresses than fit. Adding keeps the
addresses distinct since it looks for the address first, and removing since it only reorders
the others.
-/

namespace ThumbSoc.Breakpoints

/-- The addresses are distinct, and there are no more of them than fit. -/
structure Sound (set : Breakpoints) : Prop where
  distinct : set.addresses.toList.Nodup
  bounded : set.size ≤ capacity

namespace Sound

variable {set : Breakpoints}

theorem empty :
  Breakpoints.empty.Sound
  where
  distinct := List.nodup_nil
  bounded := Nat.zero_le _

theorem add (h : set.Sound) {address : UInt32} {after : Breakpoints}
    (hadd : set.add address = .ok after) :
  after.Sound
  := by
  rw [Breakpoints.add] at hadd
  split at hadd
  · cases hadd
    apply h
  · next hnew =>
    split at hadd
    · cases hadd
    · next hroom =>
      cases hadd
      have hfree : set.size ≠ capacity := by
        intro hfull
        apply hroom
        rw [isFull, hfull, decide_eq_true rfl]
      constructor
      · rw [Array.toList_push]
        apply List.nodup_append.mpr
        constructor
        · apply h.distinct
        constructor
        · apply List.pairwise_singleton
        · rintro other hother _ hlast rfl
          apply hnew
          obtain rfl := List.mem_singleton.mp hlast
          apply Array.contains_iff_mem.mpr (Array.mem_toList_iff.mp hother)
      · have hbounded := h.bounded
        simp only [size, Array.size_push] at hfree hbounded ⊢
        omega

/-- Addresses that are swapped and cut off at the end stay distinct. -/
theorem cut (h : set.Sound) (i j : Nat) :
  Sound ⟨(set.addresses.swapIfInBounds i j).pop⟩
  := by
  have hperm : (set.addresses.swapIfInBounds i j).Perm set.addresses := by
    rw [Array.swapIfInBounds_def]
    split
    · split
      · apply Array.swap_perm
      · apply Array.Perm.rfl
    · apply Array.Perm.rfl
  constructor
  · rw [Array.toList_pop]
    apply List.Nodup.sublist (List.dropLast_sublist _)
    apply hperm.toList.nodup_iff.mpr h.distinct
  · simp only [size, Array.size_pop, hperm.size_eq]
    apply Nat.le_trans (Nat.sub_le _ _) h.bounded

theorem remove (h : set.Sound) (address : UInt32) :
  (set.remove address).2.Sound
  := by
  rw [Breakpoints.remove]
  split
  · apply h
  · apply h.cut

end Sound

end ThumbSoc.Breakpoints
