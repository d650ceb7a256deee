import Datacl.Lib.Looping
import Mathlib.Algebra.Order.Ring.Int
import Mathlib.Data.List.TakeWhile

/-!
# Binary search: `tmpl_bin_search.c`

The interval keeps `mid` as an end unless the end is there already. Where the value is found depends on
the length of the array; `"lowest"` and `"highest"` walk to the end of its run.
-/

namespace Datacl

open Looping

/-- `str_direction`. -/
inductive Direction where
  | lowest
  | highest
  | dontcare
  deriving DecidableEq

/-- `X[i]`, within the bounds. -/
def itemAt {α : Type} (X : List α) (i : Int) : Option α := if i < 0 then none else X[i.toNat]?

/-- The variables of the search. -/
structure SearchState where
  lb : Int
  ub : Int
  pos : Int

/-- The search is left with `break` as soon as `pos` is set. -/
def searchMore (s : SearchState) : Bool := decide (s.pos < 0 ∧ s.lb ≤ s.ub)

def searchBody (X : List Int) (key : Int) (s : SearchState) : Option SearchState :=
  let mid := (s.lb + s.ub) / 2
  (itemAt X mid).map fun x =>
    if x = key then { s with pos := mid }
    else if key < x then { s with ub := min (s.ub - 1) mid }
    else { s with lb := max (s.lb + 1) mid }

/-- The loop for values that are not unique. -/
def walk (X : List Int) (key : Int) (direction : Direction) (pos : Int) : Int :=
  match direction with
  | .lowest => pos - ((X.take pos.toNat).reverse.takeWhile (· = key)).length
  | .highest => pos + ((X.drop (pos + 1).toNat).takeWhile (· = key)).length
  | .dontcare => pos

/-- `bin_search`: the position, -1 if there is none. It fails on an empty array. -/
def binSearch (X : List Int) (key : Int) (direction : Direction) : Option Int :=
  match X with
  | [] => none
  | [x] => some (if x = key then 0 else -1)
  | _ =>
    match loop searchMore (searchBody X key) X.length ⟨0, X.length - 1, -1⟩ with
    | .done s => some (walk X key direction s.pos)
    | _ => none

/-- Where the value is, or that it is nowhere. -/
def FoundAt (X : List Int) (key pos : Int) : Prop :=
  (pos = -1 ∧ key ∉ X) ∨ ∃ p : Nat, pos = p ∧ X[p]? = some key

section

variable {X : List Int} {key x : Int} {s : SearchState} {i j p : Nat}

lemma itemAt_natCast {α : Type} (X : List α) (i : Nat) : itemAt X (i : Int) = X[i]? := by
  rw [itemAt, if_neg (by omega), Int.toNat_natCast]

lemma le_of_getElem? (hX : X.Pairwise (· ≤ ·)) {y : Int} (hi : X[i]? = some x) (hj : X[j]? = some y)
    (hij : i ≤ j) : x ≤ y := by
  obtain ⟨hi', rfl⟩ := List.getElem?_eq_some_iff.mp hi
  obtain ⟨hj', rfl⟩ := List.getElem?_eq_some_iff.mp hj
  rcases Nat.eq_or_lt_of_le hij with rfl | hlt
  · exact Int.le_refl _
  · exact List.pairwise_iff_getElem.mp hX i j hi' hj' hlt

/-- Every occurrence of the value is in the interval, or `pos` is one. -/
structure SearchInv (X : List Int) (key : Int) (s : SearchState) : Prop where
  lb_nonneg : 0 ≤ s.lb
  ub_lt : s.ub < X.length
  inside : s.pos < 0 → s.pos = -1 ∧ ∀ i : Nat, X[i]? = some key → s.lb ≤ i ∧ i ≤ s.ub
  found : ∀ p : Nat, s.pos = p → X[p]? = some key

/-- The length of the interval, as long as nothing is found. -/
def searchMeasure (s : SearchState) : Nat := if s.pos < 0 then (s.ub + 1 - s.lb).toNat else 0

lemma SearchInv.step (hX : X.Pairwise (· ≤ ·)) (h : SearchInv X key s) (hmore : searchMore s = true) :
    ∃ s', searchBody X key s = some s' ∧ SearchInv X key s' ∧ searchMeasure s' < searchMeasure s := by
  obtain ⟨hpos, hle⟩ := of_decide_eq_true hmore
  have hlb := h.lb_nonneg
  have hub := h.ub_lt
  obtain ⟨hneg, hin⟩ := h.inside hpos
  obtain ⟨m, hm⟩ := Int.eq_ofNat_of_zero_le (show 0 ≤ (s.lb + s.ub) / 2 by omega)
  have hmlt : m < X.length := by omega
  have hread : itemAt X ((s.lb + s.ub) / 2) = some X[m] := by
    rw [hm, itemAt_natCast, List.getElem?_eq_getElem hmlt]
  have hmeasure : searchMeasure s = (s.ub + 1 - s.lb).toNat := if_pos hpos
  rw [searchBody, hread, Option.map_some, hm, hmeasure]
  by_cases heq : X[m] = key
  · refine ⟨{ s with pos := m }, by rw [if_pos heq], ⟨hlb, hub, ?_, ?_⟩, ?_⟩
    · intro hm0
      dsimp only at hm0
      omega
    · intro p hp
      obtain rfl : m = p := by
        dsimp only at hp
        omega
      rw [List.getElem?_eq_getElem hmlt, heq]
    · rw [searchMeasure, if_neg (by dsimp only; omega)]
      omega
  · rw [if_neg heq]
    by_cases hlt : key < X[m]
    · -- the value is to the left of `mid`
      refine ⟨{ s with ub := min (s.ub - 1) m }, by rw [if_pos hlt],
        ⟨hlb, by dsimp only; omega, fun _ => ⟨hneg, ?_⟩, h.found⟩, ?_⟩
      · intro i hi
        have hi' := hin i hi
        have him : i < m := by
          by_contra hge
          have hle := le_of_getElem? hX (List.getElem?_eq_getElem hmlt) hi (by omega)
          omega
        dsimp only
        omega
      · rw [searchMeasure, if_pos hpos]
        dsimp only
        omega
    · refine ⟨{ s with lb := max (s.lb + 1) m }, by rw [if_neg hlt],
        ⟨by dsimp only; omega, hub, fun _ => ⟨hneg, ?_⟩, h.found⟩, ?_⟩
      · intro i hi
        have hi' := hin i hi
        have him : m < i := by
          by_contra hge
          have hle := le_of_getElem? hX hi (List.getElem?_eq_getElem hmlt) (by omega)
          omega
        dsimp only
        omega
      · rw [searchMeasure, if_pos hpos]
        dsimp only
        omega

/-- The search ends at an occurrence of the value, if there is one. -/
lemma search_ends (key : Int) (hX : X.Pairwise (· ≤ ·)) :
    ∃ s, loop searchMore (searchBody X key) X.length ⟨0, X.length - 1, -1⟩ = .done s ∧
      FoundAt X key s.pos := by
  have hstart : SearchInv X key ⟨0, X.length - 1, -1⟩ := by
    refine ⟨le_rfl, by dsimp only; omega, fun _ => ⟨rfl, ?_⟩, ?_⟩
    · intro i hi
      have hlt := (List.getElem?_eq_some_iff.mp hi).1
      dsimp only
      omega
    · intro p hp
      dsimp only at hp
      omega
  have hmeasure : searchMeasure ⟨0, X.length - 1, -1⟩ ≤ X.length := by
    rw [searchMeasure, if_pos (show (-1 : Int) < 0 by decide)]
    dsimp only
    omega
  obtain ⟨s, hloop, hinv, hstop⟩ := loop_finishes (fun _ hinv hmore => hinv.step hX hmore) hstart hmeasure
  refine ⟨s, hloop, ?_⟩
  by_cases hpos : s.pos < 0
  · obtain ⟨hneg, hin⟩ := hinv.inside hpos
    refine .inl ⟨hneg, fun hmem => ?_⟩
    obtain ⟨i, hi⟩ := List.mem_iff_getElem?.mp hmem
    have hi' := hin i hi
    exact of_decide_eq_false hstop ⟨hpos, by omega⟩
  · obtain ⟨p, hp⟩ := Int.eq_ofNat_of_zero_le (not_lt.mp hpos)
    exact .inr ⟨p, hp, hinv.found p hp⟩

lemma binSearch_spec (hX : X.Pairwise (· ≤ ·)) (hne : X ≠ []) (direction : Direction) :
    ∃ pos, FoundAt X key pos ∧ binSearch X key direction = some (walk X key direction pos) := by
  match X with
  | [] => exact absurd rfl hne
  | [x] =>
    rw [binSearch]
    by_cases hx : x = key
    · refine ⟨0, .inr ⟨0, rfl, by rw [List.getElem?_cons_zero, hx]⟩, ?_⟩
      rw [if_pos hx]
      cases direction <;> rfl
    · refine ⟨-1, .inl ⟨rfl, by rwa [List.mem_singleton, eq_comm]⟩, ?_⟩
      rw [if_neg hx]
      cases direction with
      | highest => simp [walk, hx]
      | lowest => rfl
      | dontcare => rfl
  | x :: y :: X =>
    obtain ⟨s, hloop, hfound⟩ := search_ends key hX
    refine ⟨s.pos, hfound, ?_⟩
    simp only [binSearch, hloop]

/-- Without a direction any occurrence is good. -/
lemma binSearch_dontcare (key : Int) (hX : X.Pairwise (· ≤ ·)) (hne : X ≠ []) :
    ∃ pos, binSearch X key .dontcare = some pos ∧ FoundAt X key pos := by
  obtain ⟨pos, hfound, hrun⟩ := binSearch_spec hX hne .dontcare
  exact ⟨pos, hrun, hfound⟩

/-- The highest occurrence is before all greater values. -/
lemma binSearch_highest (hX : X.Pairwise (· ≤ ·)) (hmem : key ∈ X) :
    ∃ p : Nat, binSearch X key .highest = some (p : Int) ∧ X[p]? = some key ∧
      ∀ x ∈ X.drop (p + 1), key < x := by
  obtain ⟨pos, hfound, hrun⟩ := binSearch_spec hX (List.ne_nil_of_mem hmem) .highest
  obtain ⟨-, hnot⟩ | ⟨p, rfl, hp⟩ := hfound
  · exact absurd hmem hnot
  · obtain ⟨run, hrun'⟩ : ∃ run, run = (X.drop (p + 1)).takeWhile (· = key) := ⟨_, rfl⟩
    obtain ⟨tail, htail⟩ : ∃ tail, tail = (X.drop (p + 1)).dropWhile (· = key) := ⟨_, rfl⟩
    have hwalk : walk X key .highest p = (p + run.length : Nat) := by
      rw [walk, hrun', show ((p : Int) + 1).toNat = p + 1 by omega]
      push_cast
      rfl
    obtain ⟨hlt, hkey⟩ := List.getElem?_eq_some_iff.mp hp
    have hsplit : X.drop p = key :: run ++ tail := by
      rw [List.drop_eq_getElem_cons hlt, hkey, hrun', htail, List.cons_append,
        List.takeWhile_append_dropWhile]
    have hall : ∀ x ∈ key :: run, x = key := by
      refine List.forall_mem_cons.mpr ⟨rfl, fun x hx => ?_⟩
      rw [hrun'] at hx
      simpa using List.mem_takeWhile_imp hx
    have hsorted : (key :: run ++ tail).Pairwise (· ≤ ·) := hsplit ▸ hX.sublist (List.drop_sublist p X)
    refine ⟨p + run.length, by rw [hrun, hwalk], ?_, ?_⟩
    · rw [← List.getElem?_drop, hsplit, List.getElem?_append_left (by simp),
        List.getElem?_eq_getElem (by simp), hall _ (List.getElem_mem _)]
    · intro x hx
      have hdrop : X.drop (p + run.length + 1) = tail := by
        rw [Nat.add_assoc, ← List.drop_drop, hsplit, List.drop_left' (by simp)]
      rw [hdrop] at hx
      cases tail with
      | nil => cases hx
      | cons h tail =>
        have hne : h ≠ key := by
          intro heq
          have hhead := List.head?_dropWhile_not (· = key) (X.drop (p + 1))
          rw [← htail] at hhead
          simp [heq] at hhead
        have hle : key ≤ h := (List.pairwise_append.mp hsorted).2.2 key List.mem_cons_self h List.mem_cons_self
        have hfirst : h ≤ x := by
          rcases List.mem_cons.mp hx with rfl | hx
          · exact le_rfl
          · exact (List.pairwise_cons.mp (List.pairwise_append.mp hsorted).2.1).1 x hx
        omega

end

end Datacl
