import Mathlib.Tactic
import Mathlib.Data.Multiset.AddSub
import Mathlib.Data.Multiset.Dedup
import Mathlib.Data.Finset.Card

/-!
# Frequency summaries with a bounded number of counters

A summary keeps a sub-multiset of the data it has seen. `Summary cap data kept d` says
that `kept` was obtained from `data` by `d` rounds, each of which removed one copy of more
than `cap` distinct values. The two rules `Summary.add` and `Summary.decrement` are the only
ways a counter-based algorithm changes a summary; everything that is known about the
accuracy of the counters follows from the invariant.
-/

namespace Frequency

variable {α : Type*} [DecidableEq α]

/-- `kept` is what is left of `data` after `d` decrement rounds with `cap` counters. -/
structure Summary (cap : ℕ) (data kept : Multiset α) (d : ℕ) : Prop where
  le : kept ≤ data
  count_le : ∀ v, data.count v ≤ kept.count v + d
  card_le : kept.card + (cap + 1) * d ≤ data.card

lemma Summary.zero (cap : ℕ) : Summary cap (0 : Multiset α) 0 0 :=
  ⟨le_rfl, fun v => by simp, by simp⟩

lemma Summary.add {cap d : ℕ} {data kept : Multiset α} (h : Summary cap data kept d)
    (b : Multiset α) : Summary cap (data + b) (kept + b) d where
  le := add_le_add_left h.le b
  count_le v := by
    have hv := h.count_le v
    simp only [Multiset.count_add]
    omega
  card_le := by
    have hc := h.card_le
    simp only [Multiset.card_add]
    omega

/-- One copy of every value is removed. -/
def decrement (s : Multiset α) : Multiset α := s - s.dedup

lemma count_decrement (s : Multiset α) (v : α) : (decrement s).count v = s.count v - 1 := by
  unfold decrement
  rw [Multiset.count_sub]
  by_cases hv : v ∈ s
  · rw [Multiset.count_eq_one_of_mem (Multiset.nodup_dedup s) (Multiset.mem_dedup.mpr hv)]
  · rw [Multiset.count_eq_zero_of_notMem hv]
    simp

lemma decrement_le (s : Multiset α) : decrement s ≤ s := by
  rw [Multiset.le_iff_count]
  intro v
  rw [count_decrement]
  omega

lemma card_decrement (s : Multiset α) :
    (decrement s).card + s.toFinset.card = s.card := by
  have hle : s.dedup ≤ s := Multiset.dedup_le s
  unfold decrement
  rw [Multiset.card_sub hle, Multiset.card_toFinset]
  exact Nat.sub_add_cancel (Multiset.card_le_card hle)

/-- A round that hits more than `cap` distinct values pays for itself. -/
lemma Summary.decrement {cap d : ℕ} {data kept : Multiset α} (h : Summary cap data kept d)
    (hcap : cap < kept.toFinset.card) : Summary cap data (decrement kept) (d + 1) where
  le := (decrement_le kept).trans h.le
  count_le v := by
    have hv := h.count_le v
    rw [count_decrement]
    omega
  card_le := by
    have hc := h.card_le
    have hd := card_decrement kept
    rw [Nat.mul_succ]
    omega

/-- With `(cap + 1) * err` above the size of the data there are fewer than `err` rounds. -/
lemma Summary.rounds_lt {cap d err : ℕ} {data kept : Multiset α} (h : Summary cap data kept d)
    (herr : data.card < (cap + 1) * err) : d < err := by
  have hlt : (cap + 1) * d < (cap + 1) * err := lt_of_le_of_lt (le_of_add_le_right h.card_le) herr
  exact lt_of_mul_lt_mul_left hlt (Nat.zero_le _)

end Frequency
