import Datacl.Approx.CollapsePositions
import Datacl.Approx.QuantileOutput

/-!
# `Output` as a scan by rank

`Output` for arbitrary target ranks and arbitrary elements. Its search for the least unprocessed
value starts from `INT_MAX` with a strict comparison, so the merge visits the elements below
`INT_MAX`, in order, and stops.
-/

namespace Datacl
open RankPick (unroll handOut)

/-- The inner loop of `Output` for target ranks `rankOf`. -/
def fillSlotsAt (rankOf : Nat → Nat) (numQuantiles rank : Nat) : Nat → Nat → Nat
  | 0, jj => jj
  | fuel + 1, jj =>
    if rankOf jj ≤ rank ∧ jj < numQuantiles then fillSlotsAt rankOf numQuantiles rank fuel (jj + 1)
    else jj

/-- The main loop of `Output` for target ranks `rankOf`; `none` is the error exit or a loop that
does not end within the fuel. -/
def outputLoopAt (rankOf : Nat → Nat) (numQuantiles : Nat) :
    Nat → List Cursor → Nat → Nat → Option (List Int)
  | 0, _, _, _ => none
  | fuel + 1, cs, rank, jj =>
    match minUnproc cs 0 (intMax, none) with
    | (_, none) => some []
    | (v, some i) =>
      match cs[i]? with
      | none => none
      | some c => do
        let jj' := fillSlotsAt rankOf numQuantiles (rank + c.weight) numQuantiles jj
        let ys ← outputLoopAt rankOf numQuantiles fuel (cs.set i ⟨c.weight, c.rest.tail⟩)
          (rank + c.weight) jj'
        some (List.replicate (jj' - jj) v ++ ys)

/-- The elements in the order in which the merge visits them. -/
def visited : Nat → List Cursor → List (Int × Nat)
  | 0, _ => []
  | fuel + 1, cs =>
    match minUnproc cs 0 (intMax, none) with
    | (_, none) => []
    | (v, some i) =>
      match cs[i]? with
      | none => []
      | some c => (v, c.weight) :: visited fuel (cs.set i ⟨c.weight, c.rest.tail⟩)

def Cursor.weightedRest (c : Cursor) : List (Int × Nat) := c.rest.map (fun a => (a, c.weight))

def cursorElems (cs : List Cursor) : List (Int × Nat) := cs.flatMap Cursor.weightedRest

/-- The number of unread elements. -/
def unread (cs : List Cursor) : Nat := (cs.map (fun c => c.rest.length)).sum

/-! ### Filling slots -/

section Filling

variable {rankOf : Nat → Nat} {numQuantiles : Nat} (hmono : Monotone rankOf)

include hmono

lemma lt_fillSlotsAt (rank fuel jj j : Nat) (hjj : jj ≤ numQuantiles)
    (hfuel : numQuantiles ≤ jj + fuel) :
    j < fillSlotsAt rankOf numQuantiles rank fuel jj ↔
      j < jj ∨ (j < numQuantiles ∧ rankOf j ≤ rank) := by
  induction fuel generalizing jj with
  | zero =>
    rw [fillSlotsAt]
    omega
  | succ fuel ih =>
    rw [fillSlotsAt]
    split
    next hc =>
      rw [ih (jj + 1) hc.2 (by omega)]
      constructor
      · rintro (hlt | hdue)
        · rcases Nat.lt_succ_iff_lt_or_eq.mp hlt with hlt | rfl
          · exact .inl hlt
          · exact .inr ⟨hc.2, hc.1⟩
        · exact .inr hdue
      · rintro (hlt | hdue)
        · exact .inl (by omega)
        · exact .inr hdue
    next hc =>
      constructor
      · exact .inl
      · rintro (hlt | ⟨hlt, hdue⟩)
        · exact hlt
        · by_contra hge
          have hle := hmono (not_lt.mp hge)
          exact hc ⟨hle.trans hdue, by omega⟩

/-- Slots that have been filled once `r` elements are processed. -/
lemma lt_filled (j r : Nat) :
    j < fillSlotsAt rankOf numQuantiles r numQuantiles 0 ↔ j < numQuantiles ∧ rankOf j ≤ r := by
  rw [lt_fillSlotsAt hmono r _ 0 j (Nat.zero_le _) (by omega)]
  simp

lemma filled_le (r : Nat) : fillSlotsAt rankOf numQuantiles r numQuantiles 0 ≤ numQuantiles := by
  by_contra hlt
  have := ((lt_filled hmono numQuantiles r).mp (not_le.mp hlt)).1
  omega

lemma fillSlotsAt_filled {r s : Nat} (h : r ≤ s) :
    fillSlotsAt rankOf numQuantiles s numQuantiles
        (fillSlotsAt rankOf numQuantiles r numQuantiles 0) =
      fillSlotsAt rankOf numQuantiles s numQuantiles 0 := by
  apply eq_of_forall_lt_iff
  intro j
  rw [lt_fillSlotsAt hmono s _ _ j (filled_le hmono r) (by omega), lt_filled hmono, lt_filled hmono]
  constructor
  · rintro (⟨hlt, hdue⟩ | hdue)
    · exact ⟨hlt, hdue.trans h⟩
    · exact hdue
  · exact .inr

end Filling

/-! ### The merge -/

lemma mem_cursorElems {cs : List Cursor} {e : Int × Nat} :
    e ∈ cursorElems cs ↔ ∃ c ∈ cs, e.2 = c.weight ∧ e.1 ∈ c.rest := by
  rw [cursorElems, List.mem_flatMap]
  apply exists_congr
  intro c
  simp only [Cursor.weightedRest, List.mem_map]
  constructor
  · rintro ⟨hc, a, ha, rfl⟩
    exact ⟨hc, rfl, ha⟩
  · rintro ⟨hc, hw, ha⟩
    exact ⟨hc, e.1, ha, by rw [← hw]⟩

lemma cursorElems_split (l₁ l₂ : List Cursor) {c : Cursor} {v : Int} {t : List Int}
    (h : c.rest = v :: t) : (cursorElems (l₁ ++ c :: l₂)).Perm
      ((v, c.weight) :: cursorElems (l₁ ++ ⟨c.weight, t⟩ :: l₂)) := by
  simp only [cursorElems, List.flatMap_append, List.flatMap_cons, Cursor.weightedRest, h,
    List.map_cons, List.cons_append]
  exact List.perm_middle

lemma unread_split (l₁ l₂ : List Cursor) {c : Cursor} {v : Int} {t : List Int}
    (h : c.rest = v :: t) :
    unread (l₁ ++ c :: l₂) = unread (l₁ ++ ⟨c.weight, t⟩ :: l₂) + 1 := by
  simp only [unread, List.map_append, List.map_cons, List.sum_append, List.sum_cons, h,
    List.length_cons]
  omega

def SortedCursors (cs : List Cursor) : Prop :=
  ∀ c ∈ cs, 0 < c.weight → c.rest.Pairwise (· ≤ ·)

lemma SortedCursors.tail {l₁ l₂ : List Cursor} {c : Cursor} {v : Int} {t : List Int}
    (hs : SortedCursors (l₁ ++ c :: l₂)) (h : c.rest = v :: t) :
    SortedCursors (l₁ ++ ⟨c.weight, t⟩ :: l₂) := by
  intro d hd hpos
  rw [List.mem_append, List.mem_cons] at hd
  rcases hd with hd | rfl | hd
  · exact hs d (by simp [hd]) hpos
  · have hc := hs c (by simp) hpos
    rw [h] at hc
    exact (List.pairwise_cons.mp hc).2
  · exact hs d (by simp [hd]) hpos

/-- A bound of the heads bounds everything unread. -/
lemma SortedCursors.le_of_heads {cs : List Cursor} (hs : SortedCursors cs) {m : Int}
    (hm : ∀ c ∈ cs, 0 < c.weight → ∀ v t, c.rest = v :: t → m ≤ v) :
    ∀ e ∈ cursorElems cs, 0 < e.2 → m ≤ e.1 := by
  intro e he hpos
  obtain ⟨c, hc, hw, ha⟩ := mem_cursorElems.mp he
  rw [hw] at hpos
  cases hrest : c.rest with
  | nil => simp [hrest] at ha
  | cons v t =>
    have hv := hm c hc hpos v t hrest
    have hsort := hs c hc hpos
    rw [hrest] at hsort ha
    rcases List.mem_cons.mp ha with heq | ht
    · exact hv.trans_eq heq.symm
    · exact hv.trans ((List.pairwise_cons.mp hsort).1 _ ht)

lemma minUnproc_eq_or_lt (cs : List Cursor) (ii : Nat) (best : Int × Option Nat) :
    minUnproc cs ii best = best ∨ (minUnproc cs ii best).1 < best.1 := by
  induction cs generalizing ii best with
  | nil => exact .inl rfl
  | cons c cs ih =>
    rw [minUnproc]
    cases c.rest with
    | nil => exact ih _ _
    | cons v t =>
      dsimp only
      split
      next hlt =>
        rcases ih (ii + 1) (v, some ii) with heq | hlt'
        · rw [heq]
          exact .inr hlt.2
        · exact .inr (hlt'.trans hlt.2)
      next => exact ih _ _

/-- What one search finds: nothing, and then only `INT_MAX` is left, or the least unread element,
which is below `INT_MAX`. -/
lemma SortedCursors.search_cases {cs : List Cursor} (hs : SortedCursors cs) :
    (minUnproc cs 0 (intMax, none) = (intMax, none) ∧
        ∀ e ∈ cursorElems cs, 0 < e.2 → intMax ≤ e.1) ∨
      ∃ l₁ c l₂ v t, cs = l₁ ++ c :: l₂ ∧ c.rest = v :: t ∧ 0 < c.weight ∧ v < intMax ∧
        minUnproc cs 0 (intMax, none) = (v, some l₁.length) ∧
        ∀ e ∈ cursorElems cs, 0 < e.2 → v ≤ e.1 := by
  obtain ⟨-, hmin, hloc⟩ := minUnproc_spec cs 0 (intMax, none)
  have hle := hs.le_of_heads hmin
  rcases hloc with heq | ⟨i, c, t, hget, hpos, hrest, hi⟩
  · rw [heq] at hle
    exact .inl ⟨heq, hle⟩
  · right
    obtain ⟨hlt, hci⟩ := List.getElem?_eq_some_iff.mp hget
    have hlen : (cs.take i).length = i := List.length_take_of_le hlt.le
    refine ⟨cs.take i, c, cs.drop (i + 1), _, t, ?_, hrest, hpos, ?_, ?_, hle⟩
    · rw [← hci, List.getElem_cons_drop, List.take_append_drop]
    · rcases minUnproc_eq_or_lt cs 0 (intMax, none) with heq | hlt'
      · rw [heq] at hi
        simp at hi
      · exact hlt'
    · rw [hlen]
      exact Prod.ext rfl (by rw [hi, Nat.zero_add])

lemma visited_found {fuel : Nat} {l₁ l₂ : List Cursor} {c : Cursor} {v : Int} {t : List Int}
    (hrest : c.rest = v :: t)
    (h : minUnproc (l₁ ++ c :: l₂) 0 (intMax, none) = (v, some l₁.length)) :
    visited (fuel + 1) (l₁ ++ c :: l₂) =
      (v, c.weight) :: visited fuel (l₁ ++ ⟨c.weight, t⟩ :: l₂) := by
  have hget : (l₁ ++ c :: l₂)[l₁.length]? = some c := by simp
  rw [visited, h]
  simp only [hget, hrest, List.tail_cons, set_split]

def belowMax (e : Int × Nat) : Bool := decide (0 < e.2 ∧ e.1 < intMax)

/-- The merge visits the elements below `INT_MAX`. -/
lemma visited_perm {fuel : Nat} {cs : List Cursor} (hs : SortedCursors cs)
    (hfuel : unread cs ≤ fuel) :
    (visited fuel cs).Perm ((cursorElems cs).filter belowMax) := by
  induction fuel generalizing cs with
  | zero =>
    have hnil : cursorElems cs = [] := by
      apply List.eq_nil_iff_forall_not_mem.mpr
      intro e he
      obtain ⟨c, hc, -, ha⟩ := mem_cursorElems.mp he
      have hle := List.le_sum_of_mem (List.mem_map.mpr ⟨c, hc, rfl⟩ :
        c.rest.length ∈ cs.map (fun c => c.rest.length))
      have := List.length_pos_of_mem ha
      unfold unread at hfuel
      omega
    rw [hnil, visited, List.filter_nil]
  | succ fuel ih =>
    rcases hs.search_cases with ⟨hnone, hmax⟩ | ⟨l₁, c, l₂, v, t, rfl, hrest, hpos, hlt, hfound, -⟩
    · have hnil : (cursorElems cs).filter belowMax = [] := by
        rw [List.filter_eq_nil_iff]
        intro e he hbelow
        have hb := of_decide_eq_true hbelow
        exact absurd hb.2 (not_lt.mpr (hmax e he hb.1))
      rw [hnil, visited, hnone]
    · rw [unread_split l₁ l₂ hrest] at hfuel
      rw [visited_found hrest hfound]
      have hperm := (cursorElems_split l₁ l₂ hrest).filter belowMax
      rw [List.filter_cons_of_pos (by simp [belowMax, hpos, hlt])] at hperm
      exact ((ih (hs.tail hrest) (by omega)).cons _).trans hperm.symm

lemma visited_sorted {fuel : Nat} {cs : List Cursor} (hs : SortedCursors cs)
    (hfuel : unread cs ≤ fuel) : (visited fuel cs).Pairwise (fun d e => d.1 ≤ e.1) := by
  induction fuel generalizing cs with
  | zero => exact List.Pairwise.nil
  | succ fuel ih =>
    rcases hs.search_cases with ⟨hnone, -⟩ | ⟨l₁, c, l₂, v, t, rfl, hrest, hpos, -, hfound, hle⟩
    · rw [visited, hnone]
      exact List.Pairwise.nil
    · rw [unread_split l₁ l₂ hrest] at hfuel
      rw [visited_found hrest hfound]
      refine List.pairwise_cons.mpr ⟨fun e he => ?_, ih (hs.tail hrest) (by omega)⟩
      have hmem := (visited_perm (hs.tail hrest) (by omega)).mem_iff.mp he
      obtain ⟨hmem, hbelow⟩ := List.mem_filter.mp hmem
      apply hle e _ (of_decide_eq_true hbelow).1
      exact (cursorElems_split l₁ l₂ hrest).mem_iff.mpr (List.mem_cons_of_mem _ hmem)

/-- The loop ends, having handed the visited elements to the slots by rank. -/
theorem outputLoopAt_eq {rankOf : Nat → Nat} (hmono : Monotone rankOf) (numQuantiles : Nat)
    {fuel : Nat} {cs : List Cursor} (hs : SortedCursors cs) (hfuel : unread cs ≤ fuel)
    (rank : Nat) :
    outputLoopAt rankOf numQuantiles (fuel + 1) cs rank
        (fillSlotsAt rankOf numQuantiles rank numQuantiles 0) =
      some (handOut (fun r => fillSlotsAt rankOf numQuantiles r numQuantiles 0)
        (visited fuel cs) rank) := by
  induction fuel generalizing cs rank with
  | zero =>
    rcases hs.search_cases with ⟨hnone, -⟩ | ⟨l₁, c, l₂, v, t, rfl, hrest, -⟩
    · simp only [outputLoopAt, hnone, visited, handOut]
    · rw [unread_split l₁ l₂ hrest] at hfuel
      omega
  | succ fuel ih =>
    rcases hs.search_cases with ⟨hnone, -⟩ | ⟨l₁, c, l₂, v, t, rfl, hrest, -, -, hfound, -⟩
    · simp only [outputLoopAt, hnone, visited, handOut]
    · have hget : (l₁ ++ c :: l₂)[l₁.length]? = some c := by simp
      have hfill := @fillSlotsAt_filled rankOf numQuantiles hmono _ _
        (Nat.le_add_right rank c.weight)
      rw [unread_split l₁ l₂ hrest] at hfuel
      rw [visited_found hrest hfound, outputLoopAt, hfound]
      simp only [hget, hfill, hrest, List.tail_cons, set_split]
      rw [ih (hs.tail hrest) (by omega) (rank + c.weight)]
      rfl

/-! ### The loop with exact ranks -/

lemma fillSlots_eq (siz numQuantiles rank fuel jj : Nat) :
    fillSlots siz numQuantiles rank fuel jj =
      fillSlotsAt (quantileRank siz numQuantiles) numQuantiles rank fuel jj := by
  induction fuel generalizing jj with
  | zero => rfl
  | succ fuel ih => rw [fillSlots, fillSlotsAt, ih]

/-- `outputLoop` is the loop for the exact ranks. -/
theorem outputLoop_eq (siz numQuantiles : Nat) {fuel : Nat} {cs : List Cursor}
    (hs : SortedCursors cs) (hfuel : unread cs ≤ fuel) (rank : Nat) :
    outputLoopAt (quantileRank siz numQuantiles) numQuantiles (fuel + 1) cs rank
        (fillSlots siz numQuantiles rank numQuantiles 0) =
      some (outputLoop siz numQuantiles fuel cs rank
        (fillSlots siz numQuantiles rank numQuantiles 0)) := by
  have hmono : Monotone (quantileRank siz numQuantiles) := fun _ _ h => quantileRank_mono _ _ h
  rw [fillSlots_eq, outputLoopAt_eq hmono numQuantiles hs hfuel]
  congr 1
  clear hfuel
  induction fuel generalizing cs rank with
  | zero => rfl
  | succ fuel ih =>
    rcases hs.search_cases with ⟨hnone, -⟩ | ⟨l₁, c, l₂, v, t, rfl, hrest, -, -, hfound, -⟩
    · simp only [outputLoop, hnone, visited, handOut]
    · have hget : (l₁ ++ c :: l₂)[l₁.length]? = some c := by simp
      have hfill := @fillSlotsAt_filled _ numQuantiles hmono _ _ (Nat.le_add_right rank c.weight)
      rw [visited_found hrest hfound, outputLoop, hfound]
      simp only [hget, fillSlots_eq, hfill, hrest, List.tail_cons, set_split]
      rw [← ih (hs.tail hrest) (rank + c.weight)]
      rfl

end Datacl
