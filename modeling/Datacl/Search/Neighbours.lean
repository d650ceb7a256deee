import Datacl.Search.BinSearch

/-!
# Neighbours of a value: `tmpl_find_largest_leq.c` and `tmpl_find_smallest_geq.c`

Both files have the same loop. It ends when `mid` repeats, and then answers `bot`: the element at `bot` is
less than the value unless the value is before the whole array. The last element is never looked at.
-/

namespace Datacl

open Looping

/-- The variables of the search; `*ptr_idx` is set with `break`. -/
structure NeighbourState where
  bot : Int
  top : Int
  prevMid : Int
  idx : Option Int

def NeighbourState.mid (s : NeighbourState) : Int := (s.bot + s.top) / 2

/-- One round. -/
def neighbourBody (X : List Int) (val : Int) (s : NeighbourState) : Option NeighbourState :=
  if s.mid = s.prevMid then some { s with idx := some s.bot }
  else
    (itemAt X s.mid).map fun x =>
      if val < x then { s with top := s.mid, prevMid := s.mid }
      else if x < val then { s with bot := s.mid, prevMid := s.mid }
      else { s with idx := some s.mid }

/-- The text that the two functions share. `none` is a failed call, a read outside the array or a loop that
does not end. -/
def neighbourSearch (X : List Int) (val : Int) : Option Int :=
  if X.length ≤ 1 then none
  else
    match loop (fun s => s.idx.isNone) (neighbourBody X val) (X.length + 1)
        ⟨0, X.length - 1, -2 ^ 63, none⟩ with
    | .done s => s.idx
    | _ => none

/-- `find_largest_leq` -/
def findLargestLeq (X : List Int) (val : Int) : Option Int := neighbourSearch X val

/-- `find_smallest_geq` -/
def findSmallestGeq (X : List Int) (val : Int) : Option Int := neighbourSearch X val

section

variable {X : List Int} {val : Int} {s : NeighbourState}

/-- What the loop answers. -/
inductive Outcome (X : List Int) (val : Int) : Int → Prop where
  | found (p : Nat) (h : X[p]? = some val) (hp : p + 1 < X.length) : Outcome X val p
  | below (x : Int) (h : X[0]? = some x) (hx : val < x) : Outcome X val 0
  | gap (p : Nat) (x : Int) (h : X[p]? = some x) (hx : x < val) (hp : p + 1 < X.length)
      (next : p + 2 = X.length ∨ ∃ y, X[p + 1]? = some y ∧ val < y) : Outcome X val p

/-- The element at `bot` is less than the value as soon as `bot` has moved, the one at `top` is greater. -/
structure NeighbourInv (X : List Int) (val : Int) (bot top : Nat) (s : NeighbourState) : Prop where
  bot_eq : s.bot = bot
  top_eq : s.top = top
  ordered : bot ≤ top
  top_lt : top < X.length
  prev : s.prevMid = bot ∨ s.prevMid = top ∨ s.prevMid < 0
  low : bot = 0 ∨ ∃ x, X[bot]? = some x ∧ x < val
  high : top + 1 = X.length ∨ ∃ x, X[top]? = some x ∧ val < x
  seen : s.prevMid = bot → top = bot ∨ ∃ x, X[bot]? = some x ∧ x < val
  met : top = bot → s.prevMid = bot ∧ bot = 0 ∧ ∃ x, X[bot]? = some x ∧ val < x
  answer : ∀ i, s.idx = some i → Outcome X val i

/-- The interval, and whether `mid` repeats. -/
def neighbourMeasure (s : NeighbourState) : Nat :=
  if s.idx.isSome then 0 else (s.top - s.bot).toNat + if s.mid = s.prevMid then 1 else 2

/-- `mid` repeats at the end of the search. -/
lemma NeighbourInv.outcome_of_repeat {bot top : Nat} (h : NeighbourInv X val bot top s)
    (hrep : s.mid = s.prevMid) : Outcome X val bot := by
  have hmid : s.mid = (bot + top) / 2 := by rw [NeighbourState.mid, h.bot_eq, h.top_eq]
  have hordered := h.ordered
  have htop := h.top_lt
  have hprev := h.prev
  by_cases hmet : top = bot
  · obtain ⟨-, rfl, x, hx, hlt⟩ := h.met hmet
    exact .below x hx hlt
  · have hseen : s.prevMid = bot := by omega
    have hnext : top = bot + 1 := by omega
    obtain heq | ⟨x, hx, hlt⟩ := h.seen hseen
    · exact absurd heq hmet
    · refine .gap bot x hx hlt (by omega) ?_
      obtain hlast | hgreater := h.high
      · exact .inl (by omega)
      · exact .inr (hnext ▸ hgreater)

/-- The upper half goes; if `mid` is `bot` then the value is before the whole array. -/
lemma NeighbourInv.top_moves {bot top m : Nat} {x : Int} (h : NeighbourInv X val bot top s)
    (hmore : s.idx = none) (hbm : bot ≤ m) (hm : X[m]? = some x) (hval : val < x) :
    NeighbourInv X val bot m { s with top := m, prevMid := m } := by
  refine ⟨h.bot_eq, rfl, hbm, (List.getElem?_eq_some_iff.mp hm).1, .inr (.inl rfl), h.low, .inr ⟨x, hm, hval⟩,
    ?_, ?_, ?_⟩
  · intro heq
    exact .inl (Int.ofNat_inj.mp heq)
  · rintro rfl
    refine ⟨rfl, ?_, x, hm, hval⟩
    obtain hzero | ⟨y, hy, hyval⟩ := h.low
    · exact hzero
    · rw [hm, Option.some.injEq] at hy
      omega
  · intro i hi
    rw [hmore] at hi
    cases hi

/-- The lower half goes. -/
lemma NeighbourInv.bot_moves {bot top m : Nat} {x : Int} (h : NeighbourInv X val bot top s)
    (hmore : s.idx = none) (hmt : m < top) (hm : X[m]? = some x) (hval : x < val) :
    NeighbourInv X val m top { s with bot := m, prevMid := m } := by
  refine ⟨rfl, h.top_eq, hmt.le, h.top_lt, .inl rfl, .inr ⟨x, hm, hval⟩, h.high,
    fun _ => .inr ⟨x, hm, hval⟩, fun heq => absurd heq hmt.ne', ?_⟩
  intro i hi
  rw [hmore] at hi
  cases hi

/-- The answer is found. -/
lemma NeighbourInv.answers {bot top : Nat} {i : Int} (h : NeighbourInv X val bot top s)
    (hi : Outcome X val i) : NeighbourInv X val bot top { s with idx := some i } := by
  refine { h with answer := ?_ }
  intro i' hi'
  exact Option.some.inj hi' ▸ hi

lemma neighbourMeasure_some (s : NeighbourState) (i : Int) : neighbourMeasure { s with idx := some i } = 0 := by
  rw [neighbourMeasure, Option.isSome_some, if_pos rfl]

lemma neighbourMeasure_none (h : s.idx = none) :
    neighbourMeasure s = (s.top - s.bot).toNat + if s.mid = s.prevMid then 1 else 2 := by
  rw [neighbourMeasure, h, Option.isSome_none, if_neg Bool.false_ne_true]

lemma NeighbourInv.step {bot top : Nat} (h : NeighbourInv X val bot top s) (hmore : s.idx = none) :
    ∃ s', ∃ o : Nat × Nat, neighbourBody X val s = some s' ∧ NeighbourInv X val o.1 o.2 s' ∧
      neighbourMeasure s' < neighbourMeasure s := by
  obtain ⟨m, hm⟩ : ∃ m, (bot + top) / 2 = m := ⟨_, rfl⟩
  have hbot := h.bot_eq
  have htop := h.top_eq
  have hmid : s.mid = m := by
    rw [NeighbourState.mid, hbot, htop, ← hm]
    omega
  have hordered := h.ordered
  have hlen := h.top_lt
  have hmeasure := neighbourMeasure_none hmore
  rw [neighbourBody]
  by_cases hrep : s.mid = s.prevMid
  · rw [if_pos hrep] at hmeasure ⊢
    have hout : Outcome X val s.bot := hbot ▸ h.outcome_of_repeat hrep
    refine ⟨_, (bot, top), rfl, h.answers hout, ?_⟩
    rw [neighbourMeasure_some, hmeasure]
    omega
  · rw [if_neg hrep] at hmeasure ⊢
    have hlt : bot < top := by
      by_contra hge
      have hmet := (h.met (by omega)).1
      omega
    have hget : X[m]? = some X[m] := List.getElem?_eq_getElem (by omega)
    rw [hmid, itemAt_natCast, hget, Option.map_some, hmeasure]
    rcases lt_trichotomy val X[m] with hval | hval | hval
    · refine ⟨{ s with top := m, prevMid := m }, (bot, m), by rw [if_pos hval],
        h.top_moves hmore (by omega) hget hval, ?_⟩
      rw [neighbourMeasure_none (s := { s with top := m, prevMid := m }) hmore]
      dsimp only
      split_ifs <;> omega
    · rw [if_neg hval.not_lt, if_neg hval.not_gt]
      refine ⟨_, (bot, top), rfl, h.answers (.found m (hval ▸ hget) (by omega)), ?_⟩
      rw [neighbourMeasure_some]
      omega
    · refine ⟨{ s with bot := m, prevMid := m }, (m, top), by rw [if_neg hval.not_gt, if_pos hval],
        h.bot_moves hmore (by omega) hget hval, ?_⟩
      rw [neighbourMeasure_none (s := { s with bot := m, prevMid := m }) hmore, NeighbourState.mid]
      dsimp only
      split_ifs <;> omega

/-- The search ends for every value. -/
lemma neighbourSearch_outcome (hn : 2 ≤ X.length) (val : Int) :
    ∃ i, neighbourSearch X val = some i ∧ Outcome X val i := by
  have hstart : NeighbourInv X val 0 (X.length - 1) ⟨0, X.length - 1, -2 ^ 63, none⟩ := by
    refine ⟨rfl, ?_, Nat.zero_le _, by omega, .inr (.inr ?_), .inl rfl, .inl (by omega), ?_, by omega, ?_⟩
    · dsimp only
      omega
    · dsimp only
      omega
    · dsimp only
      omega
    · intro i hi
      cases hi
  have hmeasure : neighbourMeasure ⟨0, X.length - 1, -2 ^ 63, none⟩ ≤ X.length + 1 := by
    rw [neighbourMeasure, if_neg (by simp)]
    dsimp only
    split_ifs <;> omega
  have hstep : ∀ (o : Nat × Nat) s, NeighbourInv X val o.1 o.2 s → s.idx.isNone = true →
      ∃ s', ∃ o' : Nat × Nat, neighbourBody X val s = some s' ∧ NeighbourInv X val o'.1 o'.2 s' ∧
        neighbourMeasure s' < neighbourMeasure s :=
    fun o s h hmore => h.step (Option.isNone_iff_eq_none.mp hmore)
  obtain ⟨s, o, hloop, hinv, hstop⟩ := loop_ends hstep (o := (0, X.length - 1)) hstart hmeasure
  obtain ⟨i, hi⟩ : ∃ i, s.idx = some i := by
    cases hidx : s.idx with
    | none =>
      rw [hidx] at hstop
      cases hstop
    | some i => exact ⟨i, rfl⟩
  refine ⟨i, ?_, hinv.answer i hi⟩
  rw [neighbourSearch, if_neg (by omega)]
  simp only [hloop, hi]

end

/-- The position of a largest element that is not greater than the value. -/
def IsLargestLeq (X : List Int) (val i : Int) : Prop :=
  ∃ x, itemAt X i = some x ∧ x ≤ val ∧ ∀ y ∈ X, y ≤ val → y ≤ x

/-- The position of a smallest element that is not less than the value. -/
def IsSmallestGeq (X : List Int) (val i : Int) : Prop :=
  ∃ x, itemAt X i = some x ∧ val ≤ x ∧ ∀ y ∈ X, val ≤ y → x ≤ y

section

variable {X : List Int} {val i : Int}

lemma le_of_mem_of_le (hX : X.Pairwise (· ≤ ·)) {p : Nat} {x y : Int} (hp : X[p]? = some x) (hy : y ∈ X)
    (hlt : x < y) : ∃ q, X[q]? = some y ∧ p < q := by
  obtain ⟨q, hq⟩ := List.mem_iff_getElem?.mp hy
  refine ⟨q, hq, ?_⟩
  by_contra hle
  have hyx := le_of_getElem? hX hq hp (by omega)
  omega

/-- The answer is right unless the last element, which is never looked at, is the one. -/
lemma Outcome.leq_iff (hX : X.Pairwise (· ≤ ·)) (hn : 2 ≤ X.length) (h : Outcome X val i)
    (hfirst : X[0] ≤ val) :
    IsLargestLeq X val i ↔ ¬ (X[X.length - 2] < X[X.length - 1] ∧ X[X.length - 1] ≤ val) := by
  have hsecond : X[X.length - 2]? = some X[X.length - 2] := List.getElem?_eq_getElem (by omega)
  have hlast : X[X.length - 1]? = some X[X.length - 1] := List.getElem?_eq_getElem (by omega)
  cases h with
  | found p hp hlt =>
    refine iff_of_true ⟨val, by rw [itemAt_natCast, hp], le_rfl, fun y _ hy => hy⟩ ?_
    rintro ⟨hless, hle⟩
    have hval := le_of_getElem? hX hp hsecond (by omega)
    omega
  | below x hx hlt =>
    rw [List.getElem?_eq_getElem (by omega), Option.some.injEq] at hx
    omega
  | gap p x hp hx hlt next =>
    have hread : itemAt X p = some x := by rw [itemAt_natCast, hp]
    constructor
    · rintro ⟨x', hx', hxval, hmax⟩ ⟨hless, hle⟩
      rw [hread, Option.some.injEq] at hx'
      subst hx'
      have hxlast := hmax _ (List.getElem_mem _) hle
      have hxsecond := le_of_getElem? hX hp hsecond (by omega)
      omega
    · intro hnot
      refine ⟨x, hread, hx.le, fun y hy hyval => ?_⟩
      by_contra hgt
      obtain ⟨q, hq, hpq⟩ := le_of_mem_of_le hX hp hy (not_le.mp hgt)
      have hqlt := (List.getElem?_eq_some_iff.mp hq).1
      obtain hend | ⟨z, hz, hzval⟩ := next
      · -- the two last elements
        obtain rfl : p = X.length - 2 := by omega
        obtain rfl : q = X.length - 1 := by omega
        rw [hsecond, Option.some.injEq] at hp
        rw [hlast, Option.some.injEq] at hq
        exact hnot ⟨by omega, by omega⟩
      · have hzy := le_of_getElem? hX hz hq (by omega)
        omega

/-- The answer is only right if the value is met or is before the whole array. -/
lemma Outcome.geq_iff (hX : X.Pairwise (· ≤ ·)) (hn : 2 ≤ X.length) (h : Outcome X val i) :
    IsSmallestGeq X val i ↔ val ≤ X[0] ∨ val ∈ X.take (X.length - 1) := by
  have hzero : X[0]? = some X[0] := List.getElem?_eq_getElem (by omega)
  cases h with
  | found p hp hlt =>
    refine iff_of_true ⟨val, by rw [itemAt_natCast, hp], le_rfl, fun y _ hy => hy⟩ (.inr ?_)
    rw [List.mem_iff_getElem?]
    exact ⟨p, by rw [List.getElem?_take_of_lt (by omega), hp]⟩
  | below x hx hlt =>
    rw [hzero, Option.some.injEq] at hx
    refine iff_of_true ⟨x, ?_, hlt.le, fun y hy _ => ?_⟩ (.inl (by omega))
    · rw [← hx]
      exact (itemAt_natCast X 0).trans hzero
    · obtain ⟨q, hq⟩ := List.mem_iff_getElem?.mp hy
      have hle := le_of_getElem? hX hzero hq (Nat.zero_le q)
      omega
  | gap p x hp hx hlt next =>
    apply iff_of_false
    · rintro ⟨x', hx', hxval, -⟩
      rw [itemAt_natCast, hp, Option.some.injEq] at hx'
      omega
    · rintro (hle | hmem)
      · have hpx := le_of_getElem? hX hzero hp (Nat.zero_le p)
        omega
      · obtain ⟨q, hq⟩ := List.mem_iff_getElem?.mp hmem
        have hqlen := (List.getElem?_eq_some_iff.mp hq).1
        rw [List.length_take] at hqlen
        rw [List.getElem?_take_of_lt (by omega)] at hq
        have hpq : p < q := by
          by_contra hge
          have hle := le_of_getElem? hX hq hp (by omega)
          omega
        obtain hend | ⟨z, hz, hzval⟩ := next
        · omega
        · have hzq := le_of_getElem? hX hz hq (by omega)
          omega

end

/-- Both searches end, and when they are right. -/
theorem neighbourSearches_right_iff {X : List Int} (hX : X.Pairwise (· ≤ ·)) (hn : 2 ≤ X.length) (val : Int) :
    (∃ i, findLargestLeq X val = some i ∧
      ((X[0] ≤ val → IsLargestLeq X val i) ↔
        ¬ (X[X.length - 2] < X[X.length - 1] ∧ X[X.length - 1] ≤ val))) ∧
    ∃ i, findSmallestGeq X val = some i ∧
      ((val ≤ X[X.length - 1] → IsSmallestGeq X val i) ↔
        X[X.length - 1] < val ∨ val ≤ X[0] ∨ val ∈ X.take (X.length - 1)) := by
  obtain ⟨i, hrun, hout⟩ := neighbourSearch_outcome hn val
  refine ⟨⟨i, hrun, ?_⟩, i, hrun, ?_⟩
  · by_cases hfirst : X[0] ≤ val
    · rw [← hout.leq_iff hX hn hfirst]
      exact ⟨fun h => h hfirst, fun h _ => h⟩
    · refine iff_of_true (fun h => absurd h hfirst) fun h => ?_
      have hle := le_of_getElem? hX (List.getElem?_eq_getElem (by omega : 0 < X.length))
        (List.getElem?_eq_getElem (by omega : X.length - 1 < X.length)) (Nat.zero_le _)
      omega
  · by_cases hlast : val ≤ X[X.length - 1]
    · rw [← hout.geq_iff hX hn]
      refine ⟨fun h => .inr (h hlast), fun h _ => ?_⟩
      obtain hlt | h := h
      · omega
      · exact h
    · exact iff_of_true (fun h => absurd h hlast) (.inl (not_le.mp hlast))

theorem neighbourSearches_right_iff_three :
    (∃ i, findLargestLeq [1, 3, 5] 2 = some i ∧
      (((1 : Int) ≤ 2 → IsLargestLeq [1, 3, 5] 2 i) ↔ ¬ ((3 : Int) < 5 ∧ (5 : Int) ≤ 2))) ∧
    ∃ i, findSmallestGeq [1, 3, 5] 2 = some i ∧
      (((2 : Int) ≤ 5 → IsSmallestGeq [1, 3, 5] 2 i) ↔
        (5 : Int) < 2 ∨ (2 : Int) ≤ 1 ∨ (2 : Int) ∈ [1, 3]) :=
  neighbourSearches_right_iff (by decide) (by decide) 2

/-- The last element is the one, and the value between two elements. -/
theorem not_neighbourSearches_right :
    (findLargestLeq [1, 3] 3 = some 0 ∧ ¬ IsLargestLeq [1, 3] 3 0) ∧
      findSmallestGeq [1, 3, 5] 2 = some 0 ∧ ¬ IsSmallestGeq [1, 3, 5] 2 0 := by
  refine ⟨⟨by decide, ?_⟩, by decide, ?_⟩
  · rintro ⟨x, hx, -, hmax⟩
    obtain rfl : (1 : Int) = x := Option.some.inj hx
    exact absurd (hmax 3 (by decide) le_rfl) (by decide)
  · rintro ⟨x, hx, hle, -⟩
    obtain rfl : (1 : Int) = x := Option.some.inj hx
    exact absurd hle (by decide)

end Datacl
