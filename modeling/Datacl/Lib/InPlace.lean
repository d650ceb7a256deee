import Mathlib.Tactic

/-!
# Loops that rewrite an array in place

Writes are checked. A loop over the first `n` positions that applies a function to each element,
and a loop that moves the elements to be kept to the front.
-/

namespace InPlace

variable {α β : Type}

/-- A write to an array, which fails outside it. -/
def put (xs : List α) (i : Nat) (a : α) : Option (List α) :=
  if i < xs.length then some (xs.set i a) else none

lemma put_of_lt {xs : List α} {i : Nat} (h : i < xs.length) (a : α) :
    put xs i a = some (xs.set i a) := if_pos h

lemma put_middle (xs : List α) (x y : α) (zs : List α) :
    put (xs ++ x :: zs) xs.length y = some (xs ++ y :: zs) := by
  rw [put_of_lt (by rw [List.length_append, List.length_cons]; omega), List.set_append_right _ _ le_rfl,
    Nat.sub_self, List.set_cons_zero]

lemma getElem?_middle (xs : List α) (x : α) (zs : List α) :
    (xs ++ x :: zs)[xs.length]? = some x := by
  rw [List.getElem?_append_right le_rfl, Nat.sub_self, List.getElem?_cons_zero]

/-- Writing behind the entries in use. -/
lemma take_set_self {xs : List α} {i : Nat} (h : i < xs.length) (a : α) :
    (xs.set i a).take (i + 1) = xs.take i ++ [a] := by
  rw [List.take_add_one, List.take_set_of_le le_rfl, List.getElem?_set_self h, Option.toList_some]

lemma foldlM_range_succ {m : Type → Type} [Monad m] [LawfulMonad m] (f : β → Nat → m β) (n : Nat) (b : β) :
    (List.range (n + 1)).foldlM f b = (List.range n).foldlM f b >>= fun c => f c n := by
  rw [List.range_succ, List.foldlM_append]
  simp only [List.foldlM_cons, List.foldlM_nil, bind_pure]

/-! ### A function applied to each element -/

def modifyStep (f : α → α) (xs : List α) (k : Nat) : Option (List α) := do
  let a ← xs[k]?
  put xs k (f a)

/-- `f` is applied to the elements at the positions below `n`. -/
def modifyAll (f : α → α) (n : Nat) (xs : List α) : Option (List α) :=
  (List.range n).foldlM (modifyStep f) xs

lemma modifyAll_eq (f : α → α) {n : Nat} {xs : List α} (h : n ≤ xs.length) :
    modifyAll f n xs = some ((xs.take n).map f ++ xs.drop n) := by
  induction n with
  | zero => rfl
  | succ n ih =>
    have hlen : ((xs.take n).map f).length = n := by
      rw [List.length_map, List.length_take, min_eq_left (by omega)]
    have hdrop : xs.drop n = xs[n] :: xs.drop (n + 1) := List.drop_eq_getElem_cons (by omega)
    have hget : ((xs.take n).map f ++ xs.drop n)[n]? = some xs[n] := by
      rw [List.getElem?_append_right (by omega), hlen, Nat.sub_self, hdrop, List.getElem?_cons_zero]
    rw [modifyAll, foldlM_range_succ, ← modifyAll, ih (by omega), Option.bind_eq_bind,
      Option.bind_some, modifyStep, hget, Option.bind_eq_bind, Option.bind_some,
      put_of_lt (List.getElem?_eq_some_iff.mp hget).1, List.set_append_right _ _ (by omega), hlen,
      Nat.sub_self, hdrop, List.set_cons_zero, List.take_add_one, List.getElem?_eq_getElem (by omega),
      Option.toList_some, List.map_append, List.append_assoc]
    rfl

/-! ### Elements moved to the front -/

/-- The element at position `k` is moved behind those kept so far. -/
def keepStep (p : α → Bool) (s : List α × Nat) (k : Nat) : Option (List α × Nat) := do
  let a ← s.1[k]?
  if p a then
    let xs ← put s.1 s.2 a
    pure (xs, s.2 + 1)
  else pure s

/-- The elements at positions below `n` that satisfy `p` are moved to the front and counted. -/
def keepAll (p : α → Bool) (n : Nat) (xs : List α) : Option (List α × Nat) :=
  (List.range n).foldlM (keepStep p) (xs, 0)

/-- The front holds what was kept of the first `n` elements, the others are still in place. -/
structure Kept (p : α → Bool) (xs : List α) (n : Nat) (s : List α × Nat) : Prop where
  count : s.2 = ((xs.take n).filter p).length
  length : s.1.length = xs.length
  front : s.1.take s.2 = (xs.take n).filter p
  rest : s.1.drop n = xs.drop n

lemma Kept.step {p : α → Bool} {xs : List α} {n : Nat} {s : List α × Nat} (hs : Kept p xs n s)
    (h : n < xs.length) : ∃ s', keepStep p s n = some s' ∧ Kept p xs (n + 1) s' := by
  have hget : s.1[n]? = some xs[n] := by
    rw [← List.head?_drop, hs.rest, List.head?_drop, List.getElem?_eq_getElem h]
  have htake : xs.take (n + 1) = xs.take n ++ [xs[n]] := by
    rw [List.take_add_one, List.getElem?_eq_getElem h, Option.toList_some]
  have hcount : s.2 ≤ n := by
    rw [hs.count]
    exact (List.length_filter_le _ _).trans (List.length_take_le _ _)
  have hrest : s.1.drop (n + 1) = xs.drop (n + 1) := by
    rw [← List.drop_drop, hs.rest, List.drop_drop]
  rw [keepStep, hget, Option.bind_eq_bind, Option.bind_some]
  by_cases hp : p xs[n] = true
  · have hfilter : (xs.take (n + 1)).filter p = (xs.take n).filter p ++ [xs[n]] := by
      rw [htake, List.filter_append, List.filter_cons_of_pos hp, List.filter_nil]
    have hlt : s.2 < s.1.length := by
      rw [hs.length]
      omega
    rw [if_pos hp, put_of_lt hlt, Option.bind_eq_bind, Option.bind_some]
    refine ⟨_, rfl, ⟨?_, ?_, ?_, ?_⟩⟩
    · rw [hfilter, List.length_append, ← hs.count]
      rfl
    · rw [List.length_set, hs.length]
    · rw [take_set_self hlt, hs.front, hfilter]
    · rw [List.drop_set_of_lt (by omega), hrest]
  · have hfilter : (xs.take (n + 1)).filter p = (xs.take n).filter p := by
      rw [htake, List.filter_append, List.filter_cons_of_neg hp, List.filter_nil, List.append_nil]
    rw [if_neg hp]
    exact ⟨s, rfl, ⟨by rw [hfilter, hs.count], hs.length, by rw [hfilter, hs.front], hrest⟩⟩

lemma keepAll_kept (p : α → Bool) {n : Nat} {xs : List α} (h : n ≤ xs.length) :
    ∃ s, keepAll p n xs = some s ∧ Kept p xs n s := by
  induction n with
  | zero => exact ⟨(xs, 0), rfl, ⟨rfl, rfl, rfl, rfl⟩⟩
  | succ n ih =>
    obtain ⟨s, hrun, hs⟩ := ih (by omega)
    rw [keepAll, foldlM_range_succ, ← keepAll, hrun, Option.bind_eq_bind, Option.bind_some]
    exact hs.step (by omega)

end InPlace
