import Mathlib.Tactic

/-!
# Lists cut into chunks

All chunks but the last one have the same length.
-/

namespace Chunks

variable {α : Type} {n : Nat}

/-- Chunks of length `n`, the last one possibly shorter. -/
def chunks (n : Nat) (l : List α) : List (List α) :=
  if n = 0 ∨ l = [] then [] else l.take n :: chunks n (l.drop n)
  termination_by l.length
  decreasing_by
    rename_i h
    have := List.length_pos_iff.mpr (not_or.mp h).2
    rw [List.length_drop]
    omega

@[simp] lemma chunks_nil (n : Nat) : chunks n ([] : List α) = [] := by
  rw [chunks, if_pos (.inr rfl)]

lemma chunks_of_ne_nil (hn : 0 < n) {l : List α} (hl : l ≠ []) :
    chunks n l = l.take n :: chunks n (l.drop n) := by
  rw [chunks, if_neg (by simp [hn.ne', hl])]

lemma chunks_append (hn : 0 < n) {a : List α} (ha : a.length = n) (l : List α) :
    chunks n (a ++ l) = a :: chunks n l := by
  have hne : a ++ l ≠ [] := List.append_ne_nil_of_left_ne_nil
    (List.length_pos_iff.mp (by omega)) l
  rw [chunks_of_ne_nil hn hne, ← ha, List.take_left, List.drop_left]

lemma chunks_short {a : List α} (ha : a ≠ []) (hlt : a.length < n) : chunks n a = [a] := by
  rw [chunks_of_ne_nil (by omega) ha, List.take_of_length_le hlt.le,
    List.drop_eq_nil_of_le hlt.le, chunks_nil]

lemma chunks_take_append_drop (hn : 0 < n) (m : Nat) (l : List α) :
    chunks n (l.take (m * n)) ++ chunks n (l.drop (m * n)) = chunks n l := by
  induction m generalizing l with
  | zero => simp
  | succ m ih =>
    by_cases hl : l = []
    · simp [hl]
    · have hne : l.take ((m + 1) * n) ≠ [] := by
        simp [hl, hn.ne']
      have hle : n ≤ (m + 1) * n := Nat.le_mul_of_pos_left n (Nat.succ_pos m)
      have hsub : (m + 1) * n - n = m * n := by
        rw [Nat.succ_mul, Nat.add_sub_cancel]
      rw [chunks_of_ne_nil hn hne, chunks_of_ne_nil hn hl, List.take_take, Nat.min_eq_left hle,
        List.drop_take, hsub, List.cons_append]
      congr 1
      have hdrop : l.drop ((m + 1) * n) = (l.drop n).drop (m * n) := by
        rw [List.drop_drop, Nat.succ_mul, Nat.add_comm]
      rw [hdrop, ih]

/-- The slices of a list, up to the first one that is empty. -/
lemma takeWhile_slices (hn : 0 < n) (m : Nat) (l : List α) :
    ((List.range m).map fun t => (l.drop (t * n)).take n).takeWhile (fun p => p.length ≠ 0) =
      chunks n (l.take (m * n)) := by
  induction m generalizing l with
  | zero => simp
  | succ m ih =>
    rw [List.range_succ_eq_map, List.map_cons, List.map_map]
    have hshift : (fun t => (l.drop (t * n)).take n) ∘ Nat.succ =
        fun t => ((l.drop n).drop (t * n)).take n := by
      funext t
      rw [Function.comp, List.drop_drop, Nat.succ_mul, Nat.add_comm]
    rw [hshift]
    by_cases hl : l = []
    · simp [hl]
    · have hhead : ((l.drop (0 * n)).take n).length ≠ 0 := by
        have := List.length_pos_iff.mpr hl
        rw [Nat.zero_mul, List.drop_zero, List.length_take]
        omega
      have hne : l.take ((m + 1) * n) ≠ [] := by
        simp [hl, hn.ne']
      have hle : n ≤ (m + 1) * n := Nat.le_mul_of_pos_left n (Nat.succ_pos m)
      have hsub : (m + 1) * n - n = m * n := by
        rw [Nat.succ_mul, Nat.add_sub_cancel]
      rw [List.takeWhile_cons_of_pos (by simpa using hhead), ih, chunks_of_ne_nil hn hne,
        List.take_take, Nat.min_eq_left hle, List.drop_take, hsub, Nat.zero_mul, List.drop_zero]

/-- `l` is cut into full chunks and a shorter rest. -/
structure Cut (n : Nat) (l : List α) (full : List (List α)) (last : List α) : Prop where
  lengths : ∀ p ∈ full, p.length = n
  short : last.length < n
  cover : full.flatten ++ last = l

lemma Cut.cons {l a last : List α} {full : List (List α)} (h : Cut n l full last)
    (ha : a.length = n) : Cut n (a ++ l) (a :: full) last := by
  refine ⟨List.forall_mem_cons.mpr ⟨ha, h.lengths⟩, h.short, ?_⟩
  rw [List.flatten_cons, List.append_assoc, h.cover]

lemma Cut.append {l last : List α} {full : List (List α)} (h : Cut n l full last)
    {front : List (List α)} (hfront : ∀ p ∈ front, p.length = n) :
    Cut n (front.flatten ++ l) (front ++ full) last := by
  induction front with
  | nil => exact h
  | cons p front ih =>
    rw [List.forall_mem_cons] at hfront
    rw [List.flatten_cons, List.append_assoc, List.cons_append]
    exact (ih hfront.2).cons hfront.1

/-- There is one way to cut a list. -/
lemma Cut.unique {l last last' : List α} {full full' : List (List α)} (h : Cut n l full last)
    (h' : Cut n l full' last') : full = full' ∧ last = last' := by
  induction full generalizing l full' with
  | nil =>
    cases full' with
    | nil => exact ⟨rfl, h.cover.trans h'.cover.symm⟩
    | cons p full' =>
      have hlen := congrArg List.length (h.cover.trans h'.cover.symm)
      have hp := h'.lengths p List.mem_cons_self
      have hlast := h.short
      simp only [List.flatten_nil, List.nil_append, List.flatten_cons, List.length_append] at hlen
      omega
  | cons p full ih =>
    have hp := h.lengths p List.mem_cons_self
    cases full' with
    | nil =>
      have hlen := congrArg List.length (h.cover.trans h'.cover.symm)
      have hlast := h'.short
      simp only [List.flatten_nil, List.nil_append, List.flatten_cons, List.length_append] at hlen
      omega
    | cons p' full' =>
      have hp' := h'.lengths p' List.mem_cons_self
      have hcover := h.cover.trans h'.cover.symm
      rw [List.flatten_cons, List.flatten_cons, List.append_assoc, List.append_assoc] at hcover
      obtain ⟨rfl, hrest⟩ := List.append_inj hcover (hp.trans hp'.symm)
      have htail : Cut n (full.flatten ++ last) full last :=
        ⟨fun q hq => h.lengths q (List.mem_cons_of_mem p hq), h.short, rfl⟩
      have htail' : Cut n (full.flatten ++ last) full' last' :=
        ⟨fun q hq => h'.lengths q (List.mem_cons_of_mem p hq), h'.short, hrest.symm⟩
      obtain ⟨rfl, hlast⟩ := ih htail htail'
      exact ⟨rfl, hlast⟩

end Chunks
