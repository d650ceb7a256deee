import Mathlib.Data.List.Basic

/-!
# Open addressing

A probe follows a path of positions and stops at the first slot that a test says something about.
When slots are only ever filled, a probe that did not stop at a free slot keeps its result.
-/

namespace Probing

variable {α β : Type} {stop : α → Option β} {slots : List α} {path : List Nat}

/-- The first position on the path where the probe stops, and why. -/
def scan (stop : α → Option β) (slots : List α) : List Nat → Option (Nat × β)
  | [] => none
  | i :: path =>
    match slots[i]?.bind stop with
    | some b => some (i, b)
    | none => scan stop slots path

lemma scan_append (path' : List Nat) :
    scan stop slots (path ++ path') = (scan stop slots path).or (scan stop slots path') := by
  induction path with
  | nil => rfl
  | cons i path ih =>
    rw [List.cons_append, scan, scan]
    cases slots[i]?.bind stop with
    | none => exact ih
    | some b => rfl

lemma scan_eq_some {p : Nat} {b : β} (h : scan stop slots path = some (p, b)) :
    ∃ a, slots[p]? = some a ∧ stop a = some b := by
  induction path with
  | nil => cases h
  | cons i path ih =>
    rw [scan] at h
    cases hi : slots[i]?.bind stop with
    | none =>
      rw [hi] at h
      exact ih h
    | some b' =>
      rw [hi] at h
      cases h
      exact Option.bind_eq_some_iff.mp hi

lemma scan_ne_none {q : Nat} {a : α} {b : β} (hq : q ∈ path) (ha : slots[q]? = some a)
    (hb : stop a = some b) : scan stop slots path ≠ none := by
  induction path with
  | nil => cases hq
  | cons i path ih =>
    rw [scan]
    cases hi : slots[i]?.bind stop with
    | some b' => exact Option.some_ne_none _
    | none =>
      rcases List.mem_cons.mp hq with rfl | hq
      · rw [ha, Option.bind_some, hb] at hi
        cases hi
      · exact ih hq

/-- A slot the test says the same about may be replaced. -/
lemma scan_set_of_eq {q : Nat} {a a' : α} (ha : slots[q]? = some a) (hstop : stop a' = stop a) :
    scan stop (slots.set q a') path = scan stop slots path := by
  induction path with
  | nil => rfl
  | cons i path ih =>
    have hsame : (slots.set q a')[i]?.bind stop = slots[i]?.bind stop := by
      rw [List.getElem?_set]
      split_ifs with heq hlt
      · rw [← heq, ha, Option.bind_some, Option.bind_some, hstop]
      · rw [← heq, List.getElem?_eq_none (Nat.le_of_not_lt hlt)]
      · rfl
    rw [scan, scan, hsame, ih]

/-- Filling a free slot does not change a probe that stopped somewhere else. -/
lemma scan_set_of_ne {p q : Nat} {a a' : α} {b b' : β}
    (h : scan stop slots path = some (p, b)) (ha : slots[q]? = some a) (hb : stop a = some b')
    (hne : p ≠ q) : scan stop (slots.set q a') path = some (p, b) := by
  induction path with
  | nil => cases h
  | cons i path ih =>
    rw [scan] at h
    have hi : q ≠ i := by
      rintro rfl
      rw [ha, Option.bind_some, hb] at h
      cases h
      exact hne rfl
    rw [scan, List.getElem?_set_ne hi]
    cases hs : slots[i]?.bind stop with
    | none =>
      rw [hs] at h
      exact ih h
    | some b'' =>
      rw [hs] at h
      exact h

/-- A probe that stopped at the slot being filled stops there again. -/
lemma scan_set_self {p : Nat} {a' : α} {b b' : β} (h : scan stop slots path = some (p, b))
    (hb : stop a' = some b') : scan stop (slots.set p a') path = some (p, b') := by
  obtain ⟨a, hp, -⟩ := scan_eq_some h
  have hlt : p < slots.length := (List.getElem?_eq_some_iff.mp hp).1
  induction path with
  | nil => cases h
  | cons i path ih =>
    rw [scan] at h ⊢
    by_cases hi : p = i
    · rw [← hi, List.getElem?_set_self hlt, Option.bind_some, hb]
    · rw [List.getElem?_set_ne hi]
      cases hs : slots[i]?.bind stop with
      | none =>
        rw [hs] at h
        exact ih h
      | some b'' =>
        rw [hs] at h
        cases h
        exact absurd rfl hi

/-- Where a probe stops depends only on which slots stop it. -/
lemma map_fst_scan {γ : Type} {stop' : α → Option γ} (slots : List α) (path : List Nat)
    (h : ∀ a, (stop a).isSome = (stop' a).isSome) :
    (scan stop slots path).map Prod.fst = (scan stop' slots path).map Prod.fst := by
  induction path with
  | nil => rfl
  | cons i path ih =>
    rw [scan, scan]
    cases slots[i]? with
    | none => exact ih
    | some a =>
      rw [Option.bind_some, Option.bind_some]
      have ha := h a
      cases hs : stop a with
      | none =>
        rw [hs, Option.isSome_none] at ha
        rw [Option.isSome_eq_false_iff.mp ha.symm |> Option.isNone_iff_eq_none.mp]
        exact ih
      | some b =>
        rw [hs, Option.isSome_some] at ha
        obtain ⟨c, hc⟩ := Option.isSome_iff_exists.mp ha.symm
        rw [hc]
        rfl

end Probing
