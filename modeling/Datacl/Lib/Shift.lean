import Mathlib.Data.List.Perm.Basic

/-!
# Moving an element to the front of a run

The element at `r` goes to `t`, and those between move one to the right.
-/

namespace Shifting

variable {α β : Type} {l l' : List α} {m m' : List β} {t r i : Nat}

/-- Where the element at `i` comes from. -/
def source (t r i : Nat) : Nat := if i = t then r else if t < i ∧ i ≤ r then i - 1 else i

lemma source_self (t r : Nat) : source t r t = r := if_pos rfl

lemma source_between (hti : t < i) (hir : i ≤ r) : source t r i = i - 1 := by
  rw [source, if_neg (by omega), if_pos ⟨hti, hir⟩]

lemma source_before (hit : i < t) : source t r i = i := by
  rw [source, if_neg (by omega), if_neg (by omega)]

lemma source_behind (htr : t ≤ r) (hri : r < i) : source t r i = i := by
  rw [source, if_neg (by omega), if_neg (by omega)]

lemma source_lt {n : Nat} (hr : r < n) (hi : i < n) : source t r i < n := by
  unfold source
  split_ifs <;> omega

/-- The list after the move. -/
def Moved (t r : Nat) (l l' : List α) : Prop := ∀ i, l'[i]? = l[source t r i]?

lemma Moved.zip (h : Moved t r l l') (h' : Moved t r m m') : Moved t r (l.zip m) (l'.zip m') := by
  intro i
  unfold List.zip
  rw [List.getElem?_zipWith, List.getElem?_zipWith, h i, h' i]

/-- The lists, with the element that moves. -/
lemma Moved.cut (h : Moved t r l l') (htr : t ≤ r) (hr : r < l.length) :
    ∃ front run x back, l = front ++ (run ++ x :: back) ∧ l' = front ++ x :: (run ++ back) := by
  have hlen : ((l.drop t).take (r - t)).length = r - t := by
    rw [List.length_take, List.length_drop]
    omega
  have hfront : (l.take t).length = t := List.length_take_of_le (by omega)
  refine ⟨l.take t, (l.drop t).take (r - t), l[r], l.drop (r + 1), ?_, ?_⟩
  · have hdrop : (l.drop t).drop (r - t) = l[r] :: l.drop (r + 1) := by
      rw [List.drop_drop, show t + (r - t) = r by omega, List.drop_eq_getElem_cons hr]
    rw [← hdrop, List.take_append_drop, List.take_append_drop]
  · refine List.ext_getElem? fun i => ?_
    rw [h i]
    rcases Nat.lt_trichotomy i t with hit | rfl | hti
    · rw [source_before hit, List.getElem?_append_left (by omega), List.getElem?_take_of_lt hit]
    · rw [source_self, List.getElem?_append_right (by omega), hfront, Nat.sub_self,
        List.getElem?_cons_zero, List.getElem?_eq_getElem hr]
    · obtain ⟨j, hj⟩ : ∃ j, i - t = j + 1 := ⟨i - t - 1, by omega⟩
      rw [List.getElem?_append_right (by omega), hfront, hj, List.getElem?_cons_succ]
      by_cases hir : i ≤ r
      · rw [source_between hti hir, List.getElem?_append_left (by omega),
          List.getElem?_take_of_lt (by omega), List.getElem?_drop, show t + j = i - 1 by omega]
      · rw [source_behind htr (by omega), List.getElem?_append_right (by omega), hlen, List.getElem?_drop,
          show r + 1 + (j - (r - t)) = i by omega]

/-- A move keeps the multiset of the elements. -/
lemma Moved.perm (h : Moved t r l l') (htr : t ≤ r) (hr : r < l.length) : l'.Perm l := by
  obtain ⟨front, run, x, back, rfl, rfl⟩ := h.cut htr hr
  exact List.Perm.append_left front List.perm_middle.symm

lemma Moved.length_eq (h : Moved t r l l') (htr : t ≤ r) (hr : r < l.length) : l'.length = l.length :=
  (h.perm htr hr).length_eq

end Shifting
