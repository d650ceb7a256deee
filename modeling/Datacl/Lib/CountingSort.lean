import Mathlib.Data.Fintype.EquivFin
import Mathlib.Data.List.Count
import Mathlib.Data.List.Range

/-!
# Counting sort

A counting sort moves an element behind the smaller ones and behind the equal ones that come first.
These places are a permutation, and a list arranged by them is sorted stably.
-/

namespace CountingSort

variable {α : Type} [LinearOrder α] {xs done done' rest rest' srt : List α} {v v' : α} {idx : List Nat}

/-- The place of `v` behind the elements `done`. -/
def place (xs done : List α) (v : α) : Nat := xs.countP (· < v) + done.count v

lemma countP_le_eq (xs : List α) (v : α) : xs.countP (· ≤ v) = xs.countP (· < v) + xs.count v := by
  induction xs with
  | nil => rfl
  | cons x xs ih =>
    rw [List.countP_cons, List.countP_cons, List.count_cons, ih]
    rcases lt_trichotomy x v with h | h | h
    · simp [h, h.le, h.ne]
      omega
    · simp [h]
      omega
    · simp [h.not_ge, h.not_gt, h.ne']

/-- The places of a value end where the next greater value begins. -/
lemma place_lt_countP_le (h : xs = done ++ v :: rest) : place xs done v < xs.countP (· ≤ v) := by
  have hcount : xs.count v = done.count v + (rest.count v + 1) := by
    rw [h, List.count_append, List.count_cons_self]
  rw [countP_le_eq, place]
  omega

lemma place_lt (h : xs = done ++ v :: rest) : place xs done v < xs.length :=
  (place_lt_countP_le h).trans_le List.countP_le_length

lemma place_lt_place (h : xs = done ++ v :: rest) (h' : xs = done' ++ v' :: rest')
    (hlt : v < v' ∨ v = v' ∧ done.length < done'.length) : place xs done v < place xs done' v' := by
  rcases hlt with hlt | ⟨rfl, hlt⟩
  · have hmono : xs.countP (· ≤ v) ≤ xs.countP (· < v') :=
      List.countP_mono_left fun x _ hx => decide_eq_true ((of_decide_eq_true hx).trans_lt hlt)
    have hlast := place_lt_countP_le h
    unfold place at hlast ⊢
    omega
  · obtain ⟨mid, rfl⟩ : ∃ mid, done' = done ++ v :: mid := by
      rw [h] at h'
      obtain ⟨mid, hmid⟩ := List.prefix_of_prefix_length_le ⟨v :: rest, rfl⟩ ⟨v :: rest', h'.symm⟩ hlt.le
      rw [← hmid, List.append_assoc, List.append_cancel_left_eq] at h'
      cases mid with
      | nil =>
        rw [List.append_nil] at hmid
        rw [hmid] at hlt
        exact absurd hlt (lt_irrefl _)
      | cons w mid =>
        obtain ⟨rfl, -⟩ := List.cons.inj h'
        exact ⟨mid, hmid.symm⟩
    unfold place
    rw [List.count_append, List.count_cons_self]
    omega

lemma place_ne (h : xs = done ++ v :: rest) (h' : xs = done' ++ v' :: rest')
    (hlt : done.length < done'.length) : place xs done v ≠ place xs done' v' := by
  rcases lt_trichotomy v v' with hv | hv | hv
  · exact (place_lt_place h h' (.inl hv)).ne
  · exact (place_lt_place h h' (.inr ⟨hv, hlt⟩)).ne
  · exact (place_lt_place h' h (.inl hv)).ne'

/-- An element that is put at its place leaves the earlier ones where they are. -/
lemma getElem?_set_place {β : Type} {l : List β} {g : List α → α → β} (hxs : xs = done ++ v :: rest)
    (hlen : l.length = xs.length)
    (h : ∀ pre w post, done = pre ++ w :: post → l[place xs pre w]? = some (g pre w)) :
    ∀ pre w post, done ++ [v] = pre ++ w :: post →
      (l.set (place xs done v) (g done v))[place xs pre w]? = some (g pre w) := by
  intro pre w post heq
  rcases List.eq_nil_or_concat post with rfl | ⟨post, last, rfl⟩
  · obtain ⟨rfl, hw⟩ := List.append_inj' heq rfl
    obtain rfl := List.singleton_inj.mp hw
    exact List.getElem?_set_self (by rw [hlen]; exact place_lt hxs)
  · rw [List.concat_eq_append, ← List.cons_append, ← List.append_assoc] at heq
    obtain ⟨hdone, -⟩ := List.append_inj' heq rfl
    have hpre : xs = pre ++ w :: (post ++ v :: rest) := by
      rw [hxs, hdone, List.append_assoc, List.cons_append]
    have hlt : pre.length < done.length := by
      rw [hdone, List.length_append, List.length_cons]
      omega
    rw [List.getElem?_set_ne (place_ne hpre hxs hlt).symm]
    exact h pre w post hdone

/-- The elements and their positions stand at their places. -/
structure Arranged (xs srt : List α) (idx : List Nat) : Prop where
  length_srt : srt.length = xs.length
  length_idx : idx.length = xs.length
  srt : ∀ done v rest, xs = done ++ v :: rest → srt[place xs done v]? = some v
  idx : ∀ done v rest, xs = done ++ v :: rest → idx[place xs done v]? = some done.length

/-- `srt` is `xs` in ascending order, `idx` says where the elements come from, and equal elements keep
their order. -/
structure StableSort (xs srt : List α) (idx : List Nat) : Prop where
  perm : srt.Perm xs
  ascending : srt.Pairwise (· ≤ ·)
  idx_perm : idx.Perm (List.range xs.length)
  picks : srt = idx.filterMap fun i => xs[i]?
  stable : ∀ k k' i i' : Nat, k < k' → idx[k]? = some i → idx[k']? = some i' → srt[k]? = srt[k']? → i < i'

omit [LinearOrder α] in
lemma split_at {i : Nat} (hi : i < xs.length) : xs = xs.take i ++ xs[i] :: xs.drop (i + 1) := by
  rw [List.getElem_cons_drop, List.take_append_drop]

omit [LinearOrder α] in
/-- What positions pick, from what stands next to each of them. -/
lemma filterMap_eq_of_getElem? {l : List Nat} {ys : List α} (hlen : l.length = ys.length)
    (h : ∀ k i : Nat, l[k]? = some i → xs[i]? = ys[k]?) : l.filterMap (fun i => xs[i]?) = ys := by
  have hmap : l.map (fun i => xs[i]?) = ys.map some := by
    apply List.ext_getElem?
    intro k
    rw [List.getElem?_map, List.getElem?_map]
    by_cases hk : k < l.length
    · have hy : ys[k]? = some ys[k] := List.getElem?_eq_getElem (hlen ▸ hk)
      rw [List.getElem?_eq_getElem hk, Option.map_some, h k _ (List.getElem?_eq_getElem hk), hy]
      rfl
    · rw [List.getElem?_eq_none (by omega), List.getElem?_eq_none (by omega)]
      rfl
  have hfilter := congrArg (List.filterMap id) hmap
  rw [List.filterMap_map, List.filterMap_map] at hfilter
  simpa using hfilter

/-- Every place is taken. -/
lemma exists_place {k : Nat} (hk : k < xs.length) :
    ∃ done v rest, xs = done ++ v :: rest ∧ place xs done v = k := by
  let f : Fin xs.length → Fin xs.length := fun i =>
    ⟨place xs (xs.take i) xs[i], place_lt (split_at i.isLt)⟩
  have hlen : ∀ i : Fin xs.length, (xs.take i).length = i := by
    intro i
    rw [List.length_take, Nat.min_eq_left i.isLt.le]
  have hinj : Function.Injective f := by
    intro i j hij
    have hplace : place xs (xs.take i) xs[i] = place xs (xs.take j) xs[j] := congrArg Fin.val hij
    rcases Nat.lt_trichotomy i j with hlt | heq | hlt
    · exact absurd hplace (place_ne (split_at i.isLt) (split_at j.isLt) (by rw [hlen, hlen]; exact hlt))
    · exact Fin.ext heq
    · exact absurd hplace.symm
        (place_ne (split_at j.isLt) (split_at i.isLt) (by rw [hlen, hlen]; exact hlt))
  obtain ⟨i, hi⟩ := (Finite.injective_iff_surjective.mp hinj) ⟨k, hk⟩
  exact ⟨_, _, _, split_at i.isLt, congrArg Fin.val hi⟩

/-- What stands at a place, and where it comes from. -/
lemma Arranged.at_place (h : Arranged xs srt idx) {k : Nat} (hk : k < xs.length) :
    ∃ done v rest, xs = done ++ v :: rest ∧ place xs done v = k ∧ srt[k]? = some v ∧
      idx[k]? = some done.length := by
  obtain ⟨done, v, rest, hxs, rfl⟩ := exists_place hk
  exact ⟨done, v, rest, hxs, rfl, h.srt done v rest hxs, h.idx done v rest hxs⟩

lemma Arranged.lt_of_getElem? (h : Arranged xs srt idx) {k i : Nat} (hk : idx[k]? = some i) :
    k < xs.length := by
  rw [← h.length_idx]
  exact (List.getElem?_eq_some_iff.mp hk).1

lemma Arranged.nodup (h : Arranged xs srt idx) : idx.Nodup := by
  rw [List.nodup_iff_getElem?_ne_getElem?]
  intro k k' hkk' hk' heq
  rw [h.length_idx] at hk'
  obtain ⟨done, v, rest, hxs, rfl, -, hi⟩ := h.at_place (hkk'.trans hk')
  obtain ⟨done', v', rest', hxs', rfl, -, hi'⟩ := h.at_place hk'
  rw [hi, hi', Option.some_inj] at heq
  obtain ⟨rfl, htail⟩ := List.append_inj (hxs.symm.trans hxs') heq
  rw [(List.cons.inj htail).1] at hkk'
  exact absurd hkk' (lt_irrefl _)

lemma Arranged.mem_idx_iff (h : Arranged xs srt idx) {i : Nat} : i ∈ idx ↔ i < xs.length := by
  constructor
  · intro hi
    obtain ⟨k, hk⟩ := List.mem_iff_getElem?.mp hi
    obtain ⟨done, v, rest, hxs, -, -, hk'⟩ := h.at_place (h.lt_of_getElem? hk)
    rw [hk, Option.some_inj] at hk'
    rw [hk', hxs, List.length_append, List.length_cons]
    omega
  · intro hi
    have hidx := h.idx _ _ _ (split_at hi)
    rw [List.length_take, Nat.min_eq_left hi.le] at hidx
    exact List.mem_of_getElem? hidx

lemma Arranged.idx_perm (h : Arranged xs srt idx) : idx.Perm (List.range xs.length) := by
  rw [List.perm_ext_iff_of_nodup h.nodup List.nodup_range]
  intro i
  rw [h.mem_idx_iff, List.mem_range]

lemma Arranged.picks (h : Arranged xs srt idx) : srt = idx.filterMap fun i => xs[i]? := by
  refine (filterMap_eq_of_getElem? (h.length_idx.trans h.length_srt.symm) ?_).symm
  intro k i hk
  obtain ⟨done, v, rest, hxs, -, hs, hi⟩ := h.at_place (h.lt_of_getElem? hk)
  rw [hk, Option.some_inj] at hi
  rw [hs, hi, hxs, List.getElem?_append_right le_rfl, Nat.sub_self, List.getElem?_cons_zero]

lemma Arranged.perm (h : Arranged xs srt idx) : srt.Perm xs := by
  have hall : (List.range xs.length).filterMap (fun i => xs[i]?) = xs := by
    refine filterMap_eq_of_getElem? List.length_range ?_
    intro k i hk
    obtain ⟨hlt, rfl⟩ := List.getElem?_eq_some_iff.mp hk
    rw [List.getElem_range]
  rw [h.picks]
  exact (h.idx_perm.filterMap _).trans (.of_eq hall)

lemma Arranged.ascending (h : Arranged xs srt idx) : srt.Pairwise (· ≤ ·) := by
  rw [List.pairwise_iff_getElem]
  intro k k' hk hk' hkk'
  rw [h.length_srt] at hk hk'
  obtain ⟨done, v, rest, hxs, rfl, hs, -⟩ := h.at_place hk
  obtain ⟨done', v', rest', hxs', rfl, hs', -⟩ := h.at_place hk'
  rw [(List.getElem?_eq_some_iff.mp hs).2, (List.getElem?_eq_some_iff.mp hs').2]
  by_contra hlt
  exact absurd hkk' (place_lt_place hxs' hxs (.inl (not_le.mp hlt))).not_gt

lemma Arranged.stable (h : Arranged xs srt idx) {k k' i i' : Nat} (hkk' : k < k') (hi : idx[k]? = some i)
    (hi' : idx[k']? = some i') (heq : srt[k]? = srt[k']?) : i < i' := by
  obtain ⟨done, v, rest, hxs, rfl, hs, hdone⟩ := h.at_place (h.lt_of_getElem? hi)
  obtain ⟨done', v', rest', hxs', rfl, hs', hdone'⟩ := h.at_place (h.lt_of_getElem? hi')
  rw [hi, Option.some_inj] at hdone
  rw [hi', Option.some_inj] at hdone'
  rw [hs, hs', Option.some_inj] at heq
  rw [hdone, hdone']
  rcases lt_trichotomy done.length done'.length with hlt | hlen | hgt
  · exact hlt
  · obtain ⟨rfl, -⟩ := List.append_inj (hxs.symm.trans hxs') hlen
    rw [heq] at hkk'
    exact absurd hkk' (lt_irrefl _)
  · exact absurd hkk' (place_lt_place hxs' hxs (.inr ⟨heq.symm, hgt⟩)).not_gt

/-- Elements at their places are sorted stably. -/
lemma Arranged.stableSort (h : Arranged xs srt idx) : StableSort xs srt idx where
  perm := h.perm
  ascending := h.ascending
  idx_perm := h.idx_perm
  picks := h.picks
  stable _ _ _ _ := h.stable

end CountingSort
