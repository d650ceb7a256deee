import Mathlib.Tactic
import Mathlib.Data.Multiset.AddSub

/-!
# Picking elements of a weighted sequence by rank

A list of weighted elements stands for the sequence in which each element is repeated as often
as its weight says. A scan that keeps the running weight and hands an element to every slot whose
target rank has been reached reads the targets off that sequence, without building it.
-/

namespace RankPick

variable {α : Type*}

/-- The sequence a list of weighted elements stands for. -/
def unroll (l : List (α × ℕ)) : List α := l.flatMap (fun e => List.replicate e.2 e.1)

@[simp] lemma unroll_nil : unroll ([] : List (α × ℕ)) = [] := rfl

@[simp] lemma unroll_cons (e : α × ℕ) (l : List (α × ℕ)) :
    unroll (e :: l) = List.replicate e.2 e.1 ++ unroll l := rfl

lemma unroll_perm {l m : List (α × ℕ)} (h : l.Perm m) : (unroll l).Perm (unroll m) :=
  h.flatMap_right _

lemma length_unroll (l : List (α × ℕ)) : (unroll l).length = (l.map Prod.snd).sum := by
  induction l with
  | nil => rfl
  | cons e l ih => simp [ih]

lemma mem_unroll {a : α} {l : List (α × ℕ)} (h : a ∈ unroll l) : ∃ e ∈ l, e.1 = a := by
  obtain ⟨e, he, ha⟩ := List.mem_flatMap.mp h
  exact ⟨e, he, (List.eq_of_mem_replicate ha).symm⟩

lemma unroll_sorted [Preorder α] {l : List (α × ℕ)} (h : l.Pairwise (fun d e => d.1 ≤ e.1)) :
    (unroll l).Pairwise (· ≤ ·) := by
  induction l with
  | nil => exact List.Pairwise.nil
  | cons e l ih =>
    obtain ⟨he, hl⟩ := List.pairwise_cons.mp h
    rw [unroll_cons, List.pairwise_append]
    refine ⟨List.pairwise_replicate.mpr (.inr le_rfl), ih hl, ?_⟩
    intro a ha b hb
    obtain ⟨d, hd, rfl⟩ := mem_unroll hb
    rw [List.eq_of_mem_replicate ha]
    exact he d hd

/-- The scan: `reached r` slots have a target rank up to `r`. -/
def handOut (reached : ℕ → ℕ) : List (α × ℕ) → ℕ → List α
  | [], _ => []
  | (v, w) :: rest, r =>
    List.replicate (reached (r + w) - reached r) v ++ handOut reached rest (r + w)

lemma mem_handOut {reached : ℕ → ℕ} {a : α} {l : List (α × ℕ)} {r : ℕ}
    (h : a ∈ handOut reached l r) : ∃ e ∈ l, e.1 = a := by
  induction l generalizing r with
  | nil => simp [handOut] at h
  | cons e rest ih =>
    obtain ⟨v, w⟩ := e
    rw [handOut, List.mem_append] at h
    rcases h with h | h
    · exact ⟨(v, w), by simp, (List.eq_of_mem_replicate h).symm⟩
    · obtain ⟨d, hd, hda⟩ := ih h
      exact ⟨d, by simp [hd], hda⟩

lemma handOut_sorted [Preorder α] (reached : ℕ → ℕ) {l : List (α × ℕ)}
    (h : l.Pairwise (fun d e => d.1 ≤ e.1)) (r : ℕ) :
    (handOut reached l r).Pairwise (· ≤ ·) := by
  induction l generalizing r with
  | nil => exact List.Pairwise.nil
  | cons e rest ih =>
    obtain ⟨v, w⟩ := e
    obtain ⟨hv, hrest⟩ := List.pairwise_cons.mp h
    rw [handOut, List.pairwise_append]
    refine ⟨List.pairwise_replicate.mpr (.inr le_rfl), ih hrest _, ?_⟩
    intro a ha b hb
    obtain ⟨d, hd, rfl⟩ := mem_handOut hb
    rw [List.eq_of_mem_replicate ha]
    exact hv d hd

section Targets

variable {reached target : ℕ → ℕ} {p : ℕ → Prop}
  (hreached : ∀ j r, j < reached r ↔ p j ∧ target j ≤ r)

include hreached

lemma reached_mono {r s : ℕ} (h : r ≤ s) : reached r ≤ reached s := by
  by_contra hlt
  have hs := (hreached (reached s) r).mp (not_le.mp hlt)
  exact lt_irrefl _ ((hreached (reached s) s).mpr ⟨hs.1, hs.2.trans h⟩)

/-- Every slot receives the element at its target rank. -/
theorem getElem?_handOut (l : List (α × ℕ)) (r i : ℕ) (hp : p (reached r + i)) :
    (handOut reached l r)[i]? = (unroll l)[target (reached r + i) - r - 1]? := by
  have htarget : r < target (reached r + i) := by
    by_contra hle
    have := (hreached (reached r + i) r).mpr ⟨hp, not_lt.mp hle⟩
    omega
  induction l generalizing r i with
  | nil => rfl
  | cons e rest ih =>
    obtain ⟨v, w⟩ := e
    have hmono := reached_mono hreached (Nat.le_add_right r w)
    rw [handOut, unroll_cons]
    by_cases hle : target (reached r + i) ≤ r + w
    · have hlt := (hreached _ _).mpr ⟨hp, hle⟩
      rw [List.getElem?_append_left (by simp; omega), List.getElem?_append_left (by simp; omega),
        List.getElem?_replicate, List.getElem?_replicate, if_pos (by omega), if_pos (by omega)]
    · have hge : reached (r + w) ≤ reached r + i := by
        by_contra hlt
        exact hle ((hreached _ _).mp (not_le.mp hlt)).2
      have hslot : reached (r + w) + (i - (reached (r + w) - reached r)) = reached r + i := by
        omega
      rw [List.getElem?_append_right (by simp; omega),
        List.getElem?_append_right (by simp; omega), List.length_replicate,
        List.length_replicate, ih (r + w) _ (by rwa [hslot]) (by rw [hslot]; omega), hslot]
      congr 1
      omega

lemma length_handOut (l : List (α × ℕ)) (r : ℕ) :
    (handOut reached l r).length = reached (r + (unroll l).length) - reached r := by
  induction l generalizing r with
  | nil => simp [handOut]
  | cons e rest ih =>
    obtain ⟨v, w⟩ := e
    have h1 := reached_mono hreached (Nat.le_add_right r w)
    have h2 := reached_mono hreached (Nat.le_add_right (r + w) (unroll rest).length)
    rw [handOut, List.length_append, List.length_replicate, ih, unroll_cons, List.length_append,
      List.length_replicate, ← Nat.add_assoc]
    dsimp only
    omega

end Targets

end RankPick
