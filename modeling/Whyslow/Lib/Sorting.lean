import Mathlib

/-! Stable sorting by a total preorder: the sorted list keeps the given order of the elements that the
    preorder does not tell apart, and when there are none it only depends on which elements there are. -/

namespace Sorting
variable {α : Type} {le : α → α → Bool} {l l' : List α}

/-- In the sorted list the elements are in order, and in their former order where `le` goes both ways. -/
theorem pairwise_mergeSort_stable (trans : ∀ a b c, le a b → le b c → le a c) (total : ∀ a b, le a b || le b a)
    {r : α → α → Prop} (hr : l.Pairwise r) : (l.mergeSort le).Pairwise fun a b => le a b ∧ (le b a → r a b) := by
  rw [← List.mergeSort_zipIdx, List.pairwise_map]
  have hperm := List.mergeSort_perm l.zipIdx (List.zipIdxLE le)
  have hsorted := List.pairwise_mergeSort (List.zipIdxLE_trans trans) (List.zipIdxLE_total total) l.zipIdx
  have hpos : ((l.zipIdx.mergeSort (List.zipIdxLE le)).map (·.2)).Nodup := by
    rw [(hperm.map _).nodup_iff, List.zipIdx_map_snd]
    exact List.nodup_range'
  refine ((hsorted.and (List.pairwise_map.mp hpos)).imp_of_mem ?_)
  rintro ⟨a, i⟩ ⟨b, j⟩ ha hb ⟨hle, hij⟩
  have hai := List.mk_mem_zipIdx_iff_getElem?.mp (hperm.mem_iff.mp ha)
  have hbj := List.mk_mem_zipIdx_iff_getElem?.mp (hperm.mem_iff.mp hb)
  unfold List.zipIdxLE at hle
  dsimp only at hle hij ⊢
  split at hle
  · rename_i hab
    refine ⟨hab, ?_⟩
    intro hba
    rw [if_pos hba, decide_eq_true_eq] at hle
    obtain ⟨hi, rfl⟩ := List.getElem?_eq_some_iff.mp hai
    obtain ⟨hj, rfl⟩ := List.getElem?_eq_some_iff.mp hbj
    exact List.pairwise_iff_getElem.mp hr i j hi hj (lt_of_le_of_ne hle hij)
  · cases hle

/-- Lists of the same elements, which `le` all tells apart, are sorted alike. -/
theorem mergeSort_eq_of_perm (trans : ∀ a b c, le a b → le b c → le a c) (total : ∀ a b, le a b || le b a)
    (h : l.Perm l') (hd : l.Pairwise fun a b => ¬(le a b ∧ le b a)) : l.mergeSort le = l'.mergeSort le := by
  have hperm : (l.mergeSort le).Perm (l'.mergeSort le) :=
    ((List.mergeSort_perm l le).trans h).trans (List.mergeSort_perm l' le).symm
  refine hperm.eq_of_pairwise ?_ (List.pairwise_mergeSort trans total l) (List.pairwise_mergeSort trans total l')
  intro a b ha hb hab hba
  by_contra hne
  have hsymm : Std.Symm fun a b => ¬(le a b ∧ le b a) := ⟨fun _ _ hn h => hn h.symm⟩
  exact hd.forall (List.mem_mergeSort.mp ha) (h.mem_iff.mpr (List.mem_mergeSort.mp hb)) hne ⟨hab, hba⟩

end Sorting
