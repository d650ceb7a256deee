import Mathlib.Data.List.Perm.Basic

/-!
# Exchanging two elements

Both positions are checked. An exchange keeps the multiset of the elements, and exchanging in two
lists at once keeps the pairs.
-/

namespace Swapping

variable {α β : Type} {l l' : List α} {i j k : Nat}

/-- The elements at `i` and `j` change places. -/
def swapAt (l : List α) (i j : Nat) : Option (List α) :=
  match l[i]?, l[j]? with
  | some a, some b => some ((l.set i b).set j a)
  | _, _ => none

lemma swapAt_eq (hi : i < l.length) (hj : j < l.length) :
    swapAt l i j = some ((l.set i l[j]).set j l[i]) := by
  rw [swapAt, List.getElem?_eq_getElem hi, List.getElem?_eq_getElem hj]

lemma swapAt_eq_some (h : swapAt l i j = some l') :
    ∃ (hi : i < l.length) (hj : j < l.length), l' = (l.set i l[j]).set j l[i] := by
  rw [swapAt] at h
  split at h
  · rename_i a b hi hj
    obtain ⟨hi', rfl⟩ := List.getElem?_eq_some_iff.mp hi
    obtain ⟨hj', rfl⟩ := List.getElem?_eq_some_iff.mp hj
    exact ⟨hi', hj', (Option.some_inj.mp h).symm⟩
  · cases h

lemma swapAt_perm (h : swapAt l i j = some l') : l'.Perm l := by
  obtain ⟨hi, hj, rfl⟩ := swapAt_eq_some h
  have hperm : (l.toArray.swap i j hi hj).Perm l.toArray := Array.swap_perm hi hj
  rw [Array.perm_iff_toList_perm, Array.toList_swap] at hperm
  exact hperm

lemma length_swapAt (h : swapAt l i j = some l') : l'.length = l.length := (swapAt_perm h).length_eq

lemma getElem?_swapAt (h : swapAt l i j = some l') :
    l'[k]? = if k = j then l[i]? else if k = i then l[j]? else l[k]? := by
  obtain ⟨hi, hj, rfl⟩ := swapAt_eq_some h
  by_cases hkj : k = j
  · subst hkj
    rw [if_pos rfl, List.getElem?_set_self (by rw [List.length_set]; exact hj), List.getElem?_eq_getElem hi]
  · rw [if_neg hkj, List.getElem?_set_ne (Ne.symm hkj)]
    by_cases hki : k = i
    · subst hki
      rw [if_pos rfl, List.getElem?_set_self hi, List.getElem?_eq_getElem hj]
    · rw [if_neg hki, List.getElem?_set_ne (Ne.symm hki)]

lemma set_zip_set (l : List α) (m : List β) (i : Nat) (a : α) (b : β) :
    (l.set i a).zip (m.set i b) = (l.zip m).set i (a, b) := by
  induction l generalizing m i with
  | nil => rfl
  | cons x l ih =>
    cases m with
    | nil => simp
    | cons y m =>
      cases i with
      | zero => rfl
      | succ i =>
        rw [List.set_cons_succ, List.set_cons_succ, List.zip_cons_cons, ih, List.zip_cons_cons,
          List.set_cons_succ]

/-- Exchanging in two lists exchanges the pairs. -/
lemma swapAt_zip {m m' : List β} (h : swapAt l i j = some l') (hm : swapAt m i j = some m') :
    swapAt (l.zip m) i j = some (l'.zip m') := by
  obtain ⟨hi, hj, rfl⟩ := swapAt_eq_some h
  obtain ⟨hi', hj', rfl⟩ := swapAt_eq_some hm
  have hlen : (l.zip m).length = min l.length m.length := List.length_zip
  rw [swapAt_eq (by omega) (by omega), List.getElem_zip, List.getElem_zip, set_zip_set, set_zip_set]

end Swapping
