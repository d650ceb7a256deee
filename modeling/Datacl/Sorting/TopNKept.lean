import Datacl.Sorting.TopN
import Mathlib.Data.List.Count
import Mathlib.Data.List.Perm.Lattice

/-!
# The rows that the heap keeps

A heap of `m` nodes keeps `m` rows, none of which has a value less than a row that it does not keep. With
one row less than nodes there is an empty node, which is the root.
-/

namespace Datacl

open MinHeap

section

variable {args : TopNArgs} {m : Nat}

/-- The rows in the heap, in its order. -/
def TopNArgs.kept (args : TopNArgs) (m : Nat) : List Nat := (args.heap m).filterMap id

/-- The values are above `INT_MIN`. -/
def TopNArgs.AboveMin (args : TopNArgs) : Prop := ∀ r ∈ args.rows, -2 ^ 31 < args.key (some r)

lemma filterMap_id_map_some (l : List Nat) : (l.map some).filterMap id = l := by
  rw [List.filterMap_map]
  exact List.filterMap_some

lemma filterMap_id_cons_some (r : Nat) (l : List (Option Nat)) :
    (some r :: l).filterMap id = r :: l.filterMap id := rfl

lemma filterMap_id_replicate (m : Nat) : (List.replicate m (none : Option Nat)).filterMap id = [] := by
  induction m with
  | zero => rfl
  | succ m ih => rw [List.replicate_succ, List.filterMap_cons_none rfl, ih]

/-- What the heap drops of some rows: rows that are not greater than the ones it keeps, and empty nodes. -/
lemma offerRows_spec (args : TopNArgs) (hodd : m % 2 = 1) (rows : List Nat) :
    ∃ outs, IsHeap args.key (offerAll args.key (List.replicate m none) (rows.map some)) ∧
      (offerAll args.key (List.replicate m none) (rows.map some)).length = m ∧
      (outs ++ offerAll args.key (List.replicate m none) (rows.map some)).Perm
        (rows.map some ++ List.replicate m none) ∧
      ∀ a ∈ outs, ∀ b ∈ offerAll args.key (List.replicate m none) (rows.map some),
        args.key a ≤ args.key b := by
  have hstart : IsHeap args.key (List.replicate m none) := by
    intro i c a b _ ha hb
    rw [List.eq_of_mem_replicate (List.mem_of_getElem? ha), List.eq_of_mem_replicate (List.mem_of_getElem? hb)]
  obtain ⟨outs, hheap, hperm, hlen, hout, -⟩ := offerAll_spec (by simpa using hodd) hstart (rows.map some)
  exact ⟨outs, hheap, by rw [hlen, List.length_replicate], hperm, hout⟩

lemma heap_spec (args : TopNArgs) (hodd : m % 2 = 1) :
    ∃ outs, IsHeap args.key (args.heap m) ∧ (args.heap m).length = m ∧
      (outs ++ args.heap m).Perm (args.rows.map some ++ List.replicate m none) ∧
      ∀ a ∈ outs, ∀ b ∈ args.heap m, args.key a ≤ args.key b := offerRows_spec args hodd args.rows

lemma kept_spec (args : TopNArgs) (hodd : m % 2 = 1) :
    ∃ dropped, (dropped ++ args.kept m).Perm args.rows ∧
      ∀ r ∈ dropped, ∀ b ∈ args.heap m, args.key (some r) ≤ args.key b := by
  obtain ⟨outs, -, -, hperm, hout⟩ := heap_spec args hodd
  refine ⟨outs.filterMap id, ?_, ?_⟩
  · have hrows := hperm.filterMap id
    rwa [List.filterMap_append, List.filterMap_append, filterMap_id_map_some, filterMap_id_replicate,
      List.append_nil] at hrows
  · intro r hr b hb
    obtain ⟨a, ha, har⟩ := List.mem_filterMap.mp hr
    exact hout (some r) (har ▸ ha) b hb

lemma rows_increasing (args : TopNArgs) : args.rows.Pairwise (· < ·) := List.pairwise_lt_range.filter _

lemma mem_rows_of_mem_kept {r : Nat} (hodd : m % 2 = 1) (hr : r ∈ args.kept m) : r ∈ args.rows := by
  obtain ⟨dropped, hperm, -⟩ := kept_spec args hodd
  exact hperm.mem_iff.mp (List.mem_append_right _ hr)

/-- A row that is not kept is not greater than one that is. -/
lemma key_le_of_not_mem_kept {r r' : Nat} (hodd : m % 2 = 1) (hr : r ∈ args.rows) (hnot : r ∉ args.kept m)
    (hr' : r' ∈ args.kept m) : args.key (some r) ≤ args.key (some r') := by
  obtain ⟨dropped, hperm, hle⟩ := kept_spec args hodd
  have hdrop := (List.mem_append.mp (hperm.mem_iff.mpr hr)).resolve_right hnot
  obtain ⟨a, ha, har⟩ := List.mem_filterMap.mp hr'
  exact hle r hdrop (some r') (har ▸ ha)

/-! ### Empty nodes -/

lemma length_kept (args : TopNArgs) (hodd : m % 2 = 1) :
    (args.kept m).length + (args.heap m).count none = m := by
  obtain ⟨-, -, hlen, -⟩ := heap_spec args hodd
  have hcount : ∀ l : List (Option Nat), (l.filterMap id).length + l.count none = l.length := by
    intro l
    induction l with
    | nil => rfl
    | cons a l ih =>
      cases a with
      | none =>
        rw [List.filterMap_cons_none rfl, List.count_cons_self, List.length_cons]
        omega
      | some r =>
        rw [filterMap_id_cons_some, List.count_cons_of_ne (by simp), List.length_cons, List.length_cons]
        omega
  rw [TopNArgs.kept, hcount, hlen]

/-- Next to an empty node nothing is dropped. -/
lemma kept_perm_of_none (hodd : m % 2 = 1) (hmin : args.AboveMin) (hnone : none ∈ args.heap m) :
    (args.kept m).Perm args.rows := by
  obtain ⟨dropped, hperm, hle⟩ := kept_spec args hodd
  cases dropped with
  | nil => exact hperm
  | cons r dropped =>
    have hrow : r ∈ args.rows := hperm.mem_iff.mp (List.mem_append_left _ List.mem_cons_self)
    exact absurd (hle r List.mem_cons_self none hnone) (not_le.mpr (hmin r hrow))

lemma map_some_of_not_mem {l : List (Option Nat)} (h : none ∉ l) : l = (l.filterMap id).map some := by
  induction l with
  | nil => rfl
  | cons a l ih =>
    rw [List.mem_cons, not_or] at h
    cases a with
    | none => exact absurd rfl h.1
    | some r => rw [filterMap_id_cons_some, List.map_cons, ← ih h.2]

/-- With enough rows there are no empty nodes. -/
lemma heap_eq_map_some (hodd : m % 2 = 1) (hmin : args.AboveMin) (hle : m ≤ args.rows.length) :
    args.heap m = (args.kept m).map some := by
  refine map_some_of_not_mem fun hnone => ?_
  have hlen := length_kept args hodd
  have hrows := (kept_perm_of_none hodd hmin hnone).length_eq
  have hpos : 0 < (args.heap m).count none := List.count_pos_iff.mpr hnone
  omega

/-- With one row less than nodes the root is empty. -/
lemma heap_eq_none_cons (hodd : m % 2 = 1) (hmin : args.AboveMin) (hlen : args.rows.length + 1 = m) :
    args.heap m = none :: (args.kept m).map some := by
  have hcount := length_kept args hodd
  obtain ⟨dropped, hperm, -⟩ := kept_spec args hodd
  have hle : (args.kept m).length ≤ args.rows.length := by
    have heq := hperm.length_eq
    rw [List.length_append] at heq
    omega
  have hnone : none ∈ args.heap m := List.count_pos_iff.mp (by omega)
  have hone : (args.heap m).count none = 1 := by
    have heq := (kept_perm_of_none hodd hmin hnone).length_eq
    omega
  obtain ⟨-, hheap, -, -⟩ := heap_spec args hodd
  cases hcons : args.heap m with
  | nil =>
    rw [hcons] at hnone
    cases hnone
  | cons root tail =>
    have hroot : root = none := by
      cases root with
      | none => rfl
      | some r =>
        have hkept : r ∈ args.kept m := by
          rw [TopNArgs.kept, hcons, filterMap_id_cons_some]
          exact List.mem_cons_self
        have hrootle := hheap.root_le (b := none) (by rw [hcons]; rfl) hnone
        exact absurd hrootle (not_le.mpr (hmin r (mem_rows_of_mem_kept hodd hkept)))
    subst hroot
    rw [hcons, List.count_cons_self] at hone
    have htail : none ∉ tail := fun hmem => absurd (List.count_pos_iff.mpr hmem) (by omega)
    rw [TopNArgs.kept, hcons, List.filterMap_cons_none rfl, ← map_some_of_not_mem htail]

lemma length_kept_of_le (hodd : m % 2 = 1) (hmin : args.AboveMin) (hle : m ≤ args.rows.length) :
    (args.kept m).length = m := by
  have hcount := length_kept args hodd
  rwa [heap_eq_map_some hodd hmin hle, List.count_eq_zero_of_not_mem (by simp)] at hcount

lemma length_kept_of_succ (hodd : m % 2 = 1) (hmin : args.AboveMin) (hlen : args.rows.length + 1 = m) :
    (args.kept m).length + 1 = m := by
  have hcount := length_kept args hodd
  rwa [heap_eq_none_cons hodd hmin hlen, List.count_cons_self, List.count_eq_zero_of_not_mem (by simp)] at hcount

end

end Datacl
