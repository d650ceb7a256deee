import Datacl.Search.BinSearch

/-!
# The loops after the search

The value may occur several times; then `bin_search` goes on element by element to the first or to the last
occurrence. Here these loops are as in the source, with checked reads, where `walk` has what they come to.
-/

namespace Datacl

open Looping

/-- `for ( ; pos > 0; )`, at most the given number of rounds. -/
def walkDown (X : List Int) (key : Int) : Nat → Int → Option Int
  | 0, _ => none
  | fuel + 1, pos =>
    if 0 < pos then
      (itemAt X (pos - 1)).bind fun x => if x = key then walkDown X key fuel (pos - 1) else some pos
    else some pos

/-- `for ( ; pos < nX-1; )` -/
def walkUp (X : List Int) (key : Int) : Nat → Int → Option Int
  | 0, _ => none
  | fuel + 1, pos =>
    if pos < X.length - 1 then
      (itemAt X (pos + 1)).bind fun x => if x = key then walkUp X key fuel (pos + 1) else some pos
    else some pos

/-- `switch ( direction )`; neither loop makes more rounds than there are elements. -/
def postScan (X : List Int) (key : Int) (direction : Direction) (pos : Int) : Option Int :=
  match direction with
  | .lowest => walkDown X key (X.length + 1) pos
  | .highest => walkUp X key (X.length + 1) pos
  | .dontcare => some pos

/-- `bin_search` with all its loops. `none` is a failed call, a read outside the array or a loop that does not
end. -/
def binSearchLoops (X : List Int) (key : Int) (direction : Direction) : Option Int :=
  match X with
  | [] => none
  | [x] => some (if x = key then 0 else -1)
  | _ =>
    match loop searchMore (searchBody X key) X.length ⟨0, X.length - 1, -1⟩ with
    | .done s => postScan X key direction s.pos
    | _ => none

section

variable {X : List Int} {key : Int} {p fuel : Nat}

/-! ### What the loops come to -/

lemma walkDown_eq (hp : p < X.length) (hfuel : p < fuel) :
    walkDown X key fuel p = some (walk X key .lowest p) := by
  induction p generalizing fuel with
  | zero =>
    obtain ⟨f, rfl⟩ : ∃ f, fuel = f + 1 := ⟨fuel - 1, by omega⟩
    rfl
  | succ p ih =>
    obtain ⟨f, rfl⟩ : ∃ f, fuel = f + 1 := ⟨fuel - 1, by omega⟩
    have hread : itemAt X (((p + 1 : Nat) : Int) - 1) = some X[p] := by
      rw [show ((p + 1 : Nat) : Int) - 1 = (p : Nat) by omega, itemAt_natCast,
        List.getElem?_eq_getElem (by omega)]
    have hrev : (X.take (p + 1)).reverse = X[p] :: (X.take p).reverse := by
      rw [List.take_add_one, List.getElem?_eq_getElem (by omega), Option.toList_some, List.reverse_append]
      rfl
    rw [walkDown, if_pos (by omega), hread, Option.bind_some, walk, Int.toNat_natCast, hrev]
    by_cases hx : X[p] = key
    · rw [if_pos hx, show ((p + 1 : Nat) : Int) - 1 = (p : Nat) by omega, ih (by omega) (by omega), walk,
        Int.toNat_natCast, List.takeWhile_cons_of_pos (by simpa using hx), List.length_cons]
      congr 1
      omega
    · rw [if_neg hx, List.takeWhile_cons_of_neg (by simpa using hx), List.length_nil, Nat.cast_zero, sub_zero]

lemma walkUp_eq {pos : Int} (hpos : -1 ≤ pos) (hlt : pos < X.length) (hfuel : X.length ≤ pos + fuel) :
    walkUp X key fuel pos = some (walk X key .highest pos) := by
  induction fuel generalizing pos with
  | zero => omega
  | succ fuel ih =>
    rw [walkUp]
    by_cases hin : pos < (X.length : Int) - 1
    · obtain ⟨k, hk⟩ := Int.eq_ofNat_of_zero_le (show 0 ≤ pos + 1 by omega)
      have hklt : k < X.length := by omega
      have hnat : (pos + 1).toNat = k := by omega
      have hread : itemAt X (pos + 1) = some X[k] := by
        rw [hk, itemAt_natCast, List.getElem?_eq_getElem hklt]
      have hdrop : X.drop k = X[k] :: X.drop (k + 1) := List.drop_eq_getElem_cons hklt
      rw [if_pos hin, hread, Option.bind_some, walk, hnat, hdrop]
      by_cases hx : X[k] = key
      · rw [if_pos hx, ih (by omega) (by omega) (by omega), walk, show (pos + 1 + 1).toNat = k + 1 by omega,
          List.takeWhile_cons_of_pos (by simpa using hx), List.length_cons]
        congr 1
        omega
      · rw [if_neg hx, List.takeWhile_cons_of_neg (by simpa using hx), List.length_nil, Nat.cast_zero, add_zero]
    · have hlen : X.length ≤ (pos + 1).toNat := by omega
      rw [if_neg hin, walk, List.drop_eq_nil_of_le hlen, List.takeWhile_nil, List.length_nil, Nat.cast_zero,
        add_zero]

lemma postScan_eq {pos : Int} (hpos : -1 ≤ pos) (hlt : pos < X.length) (direction : Direction) :
    postScan X key direction pos = some (walk X key direction pos) := by
  cases direction with
  | lowest =>
    rcases Int.lt_or_le pos 0 with hneg | hnonneg
    · obtain rfl : pos = -1 := by omega
      rfl
    · obtain ⟨p, rfl⟩ := Int.eq_ofNat_of_zero_le hnonneg
      exact walkDown_eq (by omega) (by omega)
  | highest => exact walkUp_eq hpos hlt (by omega)
  | dontcare => rfl

lemma FoundAt.bounds {pos : Int} (h : FoundAt X key pos) : -1 ≤ pos ∧ pos < X.length := by
  obtain ⟨rfl, -⟩ | ⟨p, rfl, hp⟩ := h
  · omega
  · have hlt := (List.getElem?_eq_some_iff.mp hp).1
    omega

/-- The loops of the source compute what `binSearch` has in closed form. -/
theorem binSearchLoops_eq (hX : X.Pairwise (· ≤ ·)) (direction : Direction) :
    binSearchLoops X key direction = binSearch X key direction := by
  match X with
  | [] => rfl
  | [x] => rfl
  | x :: y :: X =>
    obtain ⟨s, hloop, hfound⟩ := search_ends key hX
    obtain ⟨hge, hlt⟩ := hfound.bounds
    simp only [binSearchLoops, binSearch, hloop]
    exact postScan_eq hge hlt direction

/-! ### The first and the last occurrence -/

/-- Before the run that ends at `p` there are only lesser values. -/
lemma walk_lowest (hX : X.Pairwise (· ≤ ·)) (hp : X[p]? = some key) :
    ∃ q : Nat, walk X key .lowest p = q ∧ X[q]? = some key ∧ ∀ i, X[i]? = some key → q ≤ i := by
  induction p with
  | zero => exact ⟨0, rfl, hp, fun i _ => Nat.zero_le i⟩
  | succ p ih =>
    have hlt := (List.getElem?_eq_some_iff.mp hp).1
    have hget : X[p]? = some X[p] := List.getElem?_eq_getElem (by omega)
    have hrev : (X.take (p + 1)).reverse = X[p] :: (X.take p).reverse := by
      rw [List.take_add_one, hget, Option.toList_some, List.reverse_append]
      rfl
    by_cases hx : X[p] = key
    · obtain ⟨q, hq, hkey, hmin⟩ := ih (by rw [hget, hx])
      refine ⟨q, ?_, hkey, hmin⟩
      rw [← hq, walk, walk, Int.toNat_natCast, Int.toNat_natCast, hrev,
        List.takeWhile_cons_of_pos (by simpa using hx), List.length_cons]
      omega
    · refine ⟨p + 1, ?_, hp, fun i hi => ?_⟩
      · rw [walk, Int.toNat_natCast, hrev, List.takeWhile_cons_of_neg (by simpa using hx), List.length_nil,
          Nat.cast_zero, sub_zero]
      · by_contra hlt'
        have hle := le_of_getElem? hX hi hget (by omega)
        have hge := le_of_getElem? hX hget hp (by omega)
        exact hx (le_antisymm hge hle)

lemma binSearch_lowest (hX : X.Pairwise (· ≤ ·)) (hmem : key ∈ X) :
    ∃ q : Nat, binSearch X key .lowest = some (q : Int) ∧ X[q]? = some key ∧
      ∀ i, X[i]? = some key → q ≤ i := by
  obtain ⟨pos, hfound, hrun⟩ := binSearch_spec hX (List.ne_nil_of_mem hmem) .lowest
  obtain ⟨-, hnot⟩ | ⟨p, rfl, hp⟩ := hfound
  · exact absurd hmem hnot
  · obtain ⟨q, hq, hkey, hmin⟩ := walk_lowest hX hp
    exact ⟨q, by rw [hrun, hq], hkey, hmin⟩

lemma binSearch_of_not_mem (hX : X.Pairwise (· ≤ ·)) (hne : X ≠ []) (hmem : key ∉ X)
    (direction : Direction) : binSearch X key direction = some (-1) := by
  obtain ⟨pos, hfound, hrun⟩ := binSearch_spec hX hne direction
  obtain ⟨rfl, -⟩ | ⟨p, -, hp⟩ := hfound
  · rw [hrun]
    cases direction with
    | lowest => rfl
    | highest =>
      have hnone : X.takeWhile (· = key) = [] := by
        rw [List.takeWhile_eq_nil_iff]
        intro hpos heq
        exact hmem (of_decide_eq_true heq ▸ List.getElem_mem hpos)
      rw [walk, show (-1 + 1 : Int).toNat = 0 from rfl, List.drop_zero, hnone]
      rfl
    | dontcare => rfl
  · exact absurd (List.mem_of_getElem? hp) hmem

end

/-- `p` is an occurrence, and the one that the direction asks for. -/
structure Answers (X : List Int) (key : Int) (direction : Direction) (p : Nat) : Prop where
  found : X[p]? = some key
  lowest : direction = .lowest → ∀ i, X[i]? = some key → p ≤ i
  highest : direction = .highest → ∀ i, X[i]? = some key → i ≤ p

/-- The search ends without a read outside the array, and its position is the one that is asked for. -/
theorem binSearchLoops_answers {X : List Int} (hX : X.Pairwise (· ≤ ·)) (hne : X ≠ []) (key : Int)
    (direction : Direction) :
    ∃ pos, binSearchLoops X key direction = some pos ∧ (pos = -1 ↔ key ∉ X) ∧
      (key ∈ X → ∃ p : Nat, pos = p ∧ Answers X key direction p) := by
  rw [binSearchLoops_eq hX]
  by_cases hmem : key ∈ X
  · have hpos : ∃ p : Nat, binSearch X key direction = some (p : Int) ∧ Answers X key direction p := by
      cases direction with
      | lowest =>
        obtain ⟨p, hrun, hp, hmin⟩ := binSearch_lowest hX hmem
        exact ⟨p, hrun, ⟨hp, fun _ => hmin, fun h => (by cases h)⟩⟩
      | highest =>
        obtain ⟨p, hrun, hp, hgreater⟩ := binSearch_highest hX hmem
        refine ⟨p, hrun, hp, fun h => (by cases h), fun _ i hi => ?_⟩
        by_contra hlt
        have hdrop : key ∈ X.drop (p + 1) := by
          rw [List.mem_iff_getElem?]
          exact ⟨i - (p + 1), by rw [List.getElem?_drop, Nat.add_sub_cancel' (by omega), hi]⟩
        exact absurd (hgreater key hdrop) (lt_irrefl key)
      | dontcare =>
        obtain ⟨pos, hrun, hfound⟩ := binSearch_dontcare key hX hne
        obtain ⟨-, hnot⟩ | ⟨p, rfl, hp⟩ := hfound
        · exact absurd hmem hnot
        · exact ⟨p, hrun, ⟨hp, fun h => (by cases h), fun h => (by cases h)⟩⟩
    obtain ⟨p, hrun, hans⟩ := hpos
    refine ⟨p, hrun, ⟨fun h => ?_, fun h => absurd hmem h⟩, fun _ => ⟨p, rfl, hans⟩⟩
    omega
  · exact ⟨-1, binSearch_of_not_mem hX hne hmem direction, ⟨fun _ => hmem, fun _ => rfl⟩,
      fun h => absurd h hmem⟩

theorem binSearchLoops_answers_run :
    ∃ pos, binSearchLoops [2, 5, 5, 5, 9] 5 .highest = some pos ∧ (pos = -1 ↔ (5 : Int) ∉ [2, 5, 5, 5, 9]) ∧
      ((5 : Int) ∈ [2, 5, 5, 5, 9] → ∃ p : Nat, pos = p ∧ Answers [2, 5, 5, 5, 9] 5 .highest p) :=
  binSearchLoops_answers (by decide) (by decide) 5 .highest

end Datacl
