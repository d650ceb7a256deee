import Mathlib.Data.List.Basic
import Mathlib.Algebra.Ring.Nat

/-!
# Maximal runs

A list of values is cut into maximal runs of equal values. A flag of a row says that a new section
begins with it, which ends the run before.
-/

namespace Runs

variable {α : Type}

/-- A run: its value, its length, and whether a section begins with it. -/
structure Run (α : Type) where
  value : α
  len : Nat
  isNew : Bool
  deriving DecidableEq

/-- The rows of a run. -/
def Run.rows (r : Run α) : List (α × Bool) := (r.value, r.isNew) :: List.replicate (r.len - 1) (r.value, false)

/-- A row before some runs. -/
def addRow [DecidableEq α] (row : α × Bool) : List (Run α) → List (Run α)
  | [] => [⟨row.1, 1, row.2⟩]
  | r :: rs =>
    if r.isNew = false ∧ r.value = row.1 then ⟨row.1, r.len + 1, row.2⟩ :: rs
    else ⟨row.1, 1, row.2⟩ :: r :: rs

/-- The maximal runs of a list. -/
def runs [DecidableEq α] (rows : List (α × Bool)) : List (Run α) := rows.foldr addRow []

/-- Runs that could not be longer. -/
def Maximal : List (Run α) → Prop
  | [] => True
  | [r] => 0 < r.len
  | r :: r' :: rs => 0 < r.len ∧ (r'.isNew = false → r'.value ≠ r.value) ∧ Maximal (r' :: rs)

/-- The run before the rest is maximal. -/
def EndsRun (v : α) (rs : List (Run α)) : Prop := ∀ r ∈ rs.head?, r.isNew = false → r.value ≠ v

lemma maximal_cons {r : Run α} {rs : List (Run α)} :
    Maximal (r :: rs) ↔ 0 < r.len ∧ EndsRun r.value rs ∧ Maximal rs := by
  cases rs with
  | nil => simp [Maximal, EndsRun]
  | cons r' rs => simp [Maximal, EndsRun]

lemma length_rows {r : Run α} (hpos : 0 < r.len) : r.rows.length = r.len := by
  rw [Run.rows, List.length_cons, List.length_replicate]
  omega

lemma sum_len {rs : List (Run α)} (h : Maximal rs) :
    (rs.map Run.len).sum = (rs.flatMap Run.rows).length := by
  induction rs with
  | nil => rfl
  | cons r rs ih =>
    obtain ⟨hpos, -, hmax⟩ := maximal_cons.mp h
    rw [List.map_cons, List.sum_cons, List.flatMap_cons, List.length_append, length_rows hpos, ih hmax]

section

variable [DecidableEq α]

lemma maximal_addRow (row : α × Bool) {rs : List (Run α)} (h : Maximal rs) : Maximal (addRow row rs) := by
  cases rs with
  | nil => exact Nat.one_pos
  | cons r rs =>
    obtain ⟨hpos, hends, hmax⟩ := maximal_cons.mp h
    rw [addRow]
    split_ifs with hsame
    · obtain ⟨-, hvalue⟩ := hsame
      exact maximal_cons.mpr ⟨Nat.succ_pos _, hvalue ▸ hends, hmax⟩
    · refine maximal_cons.mpr ⟨Nat.one_pos, ?_, h⟩
      intro r' hr' hnew heq
      obtain rfl : r = r' := Option.some.inj hr'
      exact hsame ⟨hnew, heq⟩

lemma maximal_runs (rows : List (α × Bool)) : Maximal (runs rows) := by
  induction rows with
  | nil => trivial
  | cons row rows ih => exact maximal_addRow row ih

lemma rows_addRow (row : α × Bool) {rs : List (Run α)} (h : Maximal rs) :
    (addRow row rs).flatMap Run.rows = row :: rs.flatMap Run.rows := by
  cases rs with
  | nil => rfl
  | cons r rs =>
    have hpos := (maximal_cons.mp h).1
    rw [addRow]
    split_ifs with hsame
    · obtain ⟨hnew, hvalue⟩ := hsame
      obtain ⟨n, hn⟩ : ∃ n, r.len = n + 1 := ⟨r.len - 1, by omega⟩
      simp only [List.flatMap_cons, Run.rows, hn, hnew, hvalue, Nat.add_sub_cancel,
        List.replicate_succ, List.cons_append]
    · rfl

/-- The runs make up the list. -/
lemma flatMap_rows_runs (rows : List (α × Bool)) : (runs rows).flatMap Run.rows = rows := by
  induction rows with
  | nil => rfl
  | cons row rows ih =>
    have hcons : runs (row :: rows) = addRow row (runs rows) := rfl
    rw [hcons, rows_addRow row (maximal_runs rows), ih]

/-- The sum of the lengths of the runs. -/
lemma sum_len_runs (rows : List (α × Bool)) : ((runs rows).map Run.len).sum = rows.length := by
  rw [sum_len (maximal_runs rows), flatMap_rows_runs]

end

/-- The rows behind a run. -/
lemma drop_run {rows : List (α × Bool)} {off : Nat} {r : Run α} {rs : List (Run α)} (hpos : 0 < r.len)
    (h : rows.drop off = (r :: rs).flatMap Run.rows) :
    rows.drop (off + r.len) = rs.flatMap Run.rows := by
  rw [← List.drop_drop, h, List.flatMap_cons, ← length_rows hpos, List.drop_left]

/-- A row of a run. -/
lemma drop_in_run {rows : List (α × Bool)} {off j : Nat} {r : Run α} {rs : List (Run α)}
    (h : rows.drop off = (r :: rs).flatMap Run.rows) (hj0 : 0 < j) (hj : j < r.len) :
    ∃ rest, rows.drop (off + j) = (r.value, false) :: rest := by
  obtain ⟨i, rfl⟩ : ∃ i, j = i + 1 := ⟨j - 1, by omega⟩
  have hrep : List.replicate (r.len - 1) (r.value, false) =
      List.replicate i (r.value, false) ++ (r.value, false) ::
        List.replicate (r.len - 1 - i - 1) (r.value, false) := by
    rw [← List.replicate_succ, ← List.replicate_add]
    congr 1
    omega
  have hcut : ∀ l : List (α × Bool), (List.replicate i (r.value, false) ++ l).drop i = l :=
    fun l => List.drop_left' List.length_replicate
  rw [← List.drop_drop, h, List.flatMap_cons, Run.rows, List.cons_append, List.drop_succ_cons, hrep,
    List.append_assoc, hcut]
  exact ⟨_, rfl⟩

end Runs
