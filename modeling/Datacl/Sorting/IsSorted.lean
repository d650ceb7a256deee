import Datacl.Compound.CountVals
import Mathlib.Data.List.Chain

/-!
# The sortedness test: `tmpl_is_sorted.c`

After the leading run of equal values both the pointer and the length are shifted, but the scan goes
on from the old index. With a leading run of `k` rows the `k - 1` rows behind the second value are
never looked at.
-/

namespace Datacl

/-- The order of a column. -/
structure ReportsOrder (iX : List Int) (t : SortType) : Prop where
  unknown : t = .unknown ↔ iX = []
  ascending : t = .ascending ↔ iX ≠ [] ∧ iX.Pairwise (· ≤ ·)
  descending : t = .descending ↔ iX.Pairwise (· ≥ ·) ∧ ∃ x ∈ iX, ∃ y ∈ iX, x ≠ y
  unsorted : t = .unsorted ↔ ¬ iX.Pairwise (· ≤ ·) ∧ ¬ iX.Pairwise (· ≥ ·)

/-- In the order that two different values suggest. -/
def Directed (a b : Int) (l : List Int) : Prop :=
  if a < b then l.Pairwise (· ≤ ·) else l.Pairwise (· ≥ ·)

/-- `sort_order` after the second value. -/
def sortOrder (a b : Int) : SortType := if a < b then .ascending else .descending

/-- The rows from the second value up to where the scan goes on are in order, or what the scan sees
is not. -/
def SkippedInOrder (iX : List Int) : Prop :=
  ∀ k a b tail, 0 < k → a ≠ b → iX = List.replicate k a ++ b :: tail →
    Directed a b (b :: tail.take k) ∨ ¬ Directed a b (b :: tail.drop (k - 1))

/-! ### The scan -/

section

variable {a b prev : Int} {iX l tail : List Int} {k : Nat} {t : SortType}

lemma inOrder_ascending_iff : inOrder .ascending prev iX = true ↔ (prev :: iX).Pairwise (· ≤ ·) := by
  rw [← List.isChain_iff_pairwise]
  induction iX generalizing prev with
  | nil => simp [inOrder]
  | cons curr iX ih =>
    rw [List.isChain_cons_cons, ← ih, inOrder]
    by_cases h : curr < prev
    · simp [h]
    · simp [h, not_lt.mp h]

lemma inOrder_descending_iff : inOrder .descending prev iX = true ↔ (prev :: iX).Pairwise (· ≥ ·) := by
  rw [← List.isChain_iff_pairwise]
  induction iX generalizing prev with
  | nil => simp [inOrder]
  | cons curr iX ih =>
    rw [List.isChain_cons_cons, ← ih, inOrder]
    by_cases h : prev < curr
    · simp [h]
    · simp [h, not_lt.mp h]

lemma inOrder_sortOrder_iff : inOrder (sortOrder a b) prev iX = true ↔ Directed a b (prev :: iX) := by
  unfold sortOrder Directed
  split_ifs with h
  · exact inOrder_ascending_iff
  · exact inOrder_descending_iff

/-- A column is constant or begins with a run and a second value. -/
lemma leadingRun (a : Int) (l : List Int) :
    (∃ n, l = List.replicate n a) ∨ ∃ n b tail, a ≠ b ∧ l = List.replicate n a ++ b :: tail := by
  induction l with
  | nil => exact .inl ⟨0, rfl⟩
  | cons x l ih =>
    by_cases hx : x = a
    · subst hx
      rcases ih with ⟨n, rfl⟩ | ⟨n, b, tail, hne, rfl⟩
      · exact .inl ⟨n + 1, rfl⟩
      · exact .inr ⟨n + 1, b, tail, hne, rfl⟩
    · exact .inr ⟨0, x, l, Ne.symm hx, rfl⟩

lemma isSortedAlldef_replicate (k : Nat) (a : Int) :
    isSortedAlldef (List.replicate (k + 1) a) = .ascending := by
  have hfind : (List.replicate (k + 1) a).findIdx? (fun x => x ≠ a) = none := by simp
  rw [List.replicate_succ] at hfind ⊢
  rw [isSortedAlldef, hfind]

lemma findIdx_run (hne : a ≠ b) (k : Nat) (tail : List Int) :
    (List.replicate k a ++ b :: tail).findIdx? (fun x => x ≠ a) = some k := by
  simp [List.findIdx?_append, List.findIdx?_cons, hne.symm]

/-- There is only one way to split off the leading run. -/
lemma run_injective {k' : Nat} {a' b' : Int} {tail' : List Int} (hk : 0 < k) (hk' : 0 < k')
    (hne : a ≠ b) (hne' : a' ≠ b')
    (heq : List.replicate k a ++ b :: tail = List.replicate k' a' ++ b' :: tail') :
    k = k' ∧ a = a' ∧ b = b' ∧ tail = tail' := by
  have ha : a = a' := by
    have hhead := congrArg List.head? heq
    rw [List.head?_append_of_ne_nil _ (by simp; omega), List.head?_append_of_ne_nil _ (by simp; omega),
      List.head?_replicate, List.head?_replicate, if_neg (by omega), if_neg (by omega)] at hhead
    exact Option.some_inj.mp hhead
  subst ha
  have hfind := findIdx_run hne k tail
  rw [heq, findIdx_run hne' k' tail', Option.some_inj] at hfind
  subst hfind
  obtain ⟨rfl, rfl⟩ := List.cons.inj (List.append_cancel_left heq)
  exact ⟨rfl, rfl, rfl, rfl⟩

open Classical in
lemma isSortedAlldef_run (hk : 0 < k) (hne : a ≠ b) :
    isSortedAlldef (List.replicate k a ++ b :: tail) =
      if Directed a b (b :: tail.drop (k - 1)) then sortOrder a b else .unsorted := by
  obtain ⟨n, rfl⟩ : ∃ n, k = n + 1 := ⟨k - 1, by omega⟩
  have hfind := findIdx_run hne (n + 1) tail
  have hget : (List.replicate (n + 1) a ++ b :: tail).getD (n + 1) 0 = b := by simp
  have hdrop : (List.replicate (n + 1) a ++ b :: tail).drop (n + 1 + (n + 1)) = tail.drop n := by
    rw [← List.drop_drop, List.drop_left' (by simp)]
    rfl
  rw [List.replicate_succ, List.cons_append] at hfind hget hdrop ⊢
  rw [isSortedAlldef, hfind]
  dsimp only
  rw [hget, hdrop, Nat.add_sub_cancel]
  by_cases h : Directed a b (b :: tail.drop n)
  · rw [if_pos h]
    exact if_pos (inOrder_sortOrder_iff.mpr h)
  · rw [if_neg h]
    exact if_neg fun hin => h (inOrder_sortOrder_iff.mp hin)

/-! ### The order of a column with a second value -/

lemma replicate_pairwise_iff {r : Int → Int → Prop} (hrefl : ∀ x, r x x)
    (htrans : ∀ x y z, r x y → r y z → r x z) (hk : 0 < k) :
    (List.replicate k a ++ b :: tail).Pairwise r ↔ r a b ∧ (b :: tail).Pairwise r := by
  have hmem : a ∈ List.replicate k a := List.mem_replicate.mpr ⟨by omega, rfl⟩
  rw [List.pairwise_append]
  constructor
  · rintro ⟨-, htail, hcross⟩
    exact ⟨hcross a hmem b List.mem_cons_self, htail⟩
  · rintro ⟨hab, htail⟩
    refine ⟨List.pairwise_replicate.mpr (.inr (hrefl a)), htail, ?_⟩
    intro x hx y hy
    rw [List.eq_of_mem_replicate hx]
    rcases List.mem_cons.mp hy with rfl | hy
    · exact hab
    · exact htrans a b y hab ((List.pairwise_cons.mp htail).1 y hy)

lemma replicate_le_iff (hk : 0 < k) :
    (List.replicate k a ++ b :: tail).Pairwise (· ≤ ·) ↔ a ≤ b ∧ (b :: tail).Pairwise (· ≤ ·) :=
  replicate_pairwise_iff (fun _ => le_rfl) (fun _ _ _ => le_trans) hk

lemma replicate_ge_iff (hk : 0 < k) :
    (List.replicate k a ++ b :: tail).Pairwise (· ≥ ·) ↔ b ≤ a ∧ (b :: tail).Pairwise (· ≥ ·) :=
  replicate_pairwise_iff (fun _ => le_rfl) (fun _ _ _ h h' => le_trans h' h) hk

lemma reportsOrder_replicate (k : Nat) (a : Int) :
    ReportsOrder (List.replicate (k + 1) a) .ascending := by
  have hle : (List.replicate (k + 1) a).Pairwise (· ≤ ·) := List.pairwise_replicate.mpr (.inr le_rfl)
  refine ⟨by simp, by simp [hle], ?_, by simp [hle]⟩
  constructor
  · intro h
    cases h
  · rintro ⟨-, x, hx, y, hy, hne⟩
    rw [List.eq_of_mem_replicate hx, List.eq_of_mem_replicate hy] at hne
    exact absurd rfl hne

open Classical in
lemma reportsOrder_run_iff (hk : 0 < k) (hne : a ≠ b) :
    ReportsOrder (List.replicate k a ++ b :: tail) t ↔
      t = if Directed a b (b :: tail) then sortOrder a b else .unsorted := by
  have ha : a ∈ List.replicate k a ++ b :: tail :=
    List.mem_append_left _ (List.mem_replicate.mpr ⟨by omega, rfl⟩)
  have hb : b ∈ List.replicate k a ++ b :: tail := List.mem_append_right _ List.mem_cons_self
  have htwo : ∃ x ∈ List.replicate k a ++ b :: tail, ∃ y ∈ List.replicate k a ++ b :: tail, x ≠ y :=
    ⟨a, ha, b, hb, hne⟩
  have hnil : List.replicate k a ++ b :: tail ≠ [] := by simp
  -- one of the two orders is excluded by the first two values
  have hform : ReportsOrder (List.replicate k a ++ b :: tail) t ↔
      (t ≠ .unknown ∧ (t = .ascending ↔ a ≤ b ∧ (b :: tail).Pairwise (· ≤ ·)) ∧
        (t = .descending ↔ b ≤ a ∧ (b :: tail).Pairwise (· ≥ ·)) ∧
        (t = .unsorted ↔ ¬ (a ≤ b ∧ (b :: tail).Pairwise (· ≤ ·)) ∧
          ¬ (b ≤ a ∧ (b :: tail).Pairwise (· ≥ ·)))) := by
    rw [← replicate_le_iff hk, ← replicate_ge_iff hk]
    constructor
    · rintro ⟨h0, h1, h2, h3⟩
      exact ⟨fun h => hnil (h0.mp h), h1.trans (and_iff_right hnil), h2.trans (and_iff_left htwo), h3⟩
    · rintro ⟨h0, h1, h2, h3⟩
      exact ⟨iff_of_false h0 hnil, h1.trans (and_iff_right hnil).symm, h2.trans (and_iff_left htwo).symm,
        h3⟩
  rw [hform]
  unfold Directed sortOrder
  rcases lt_or_gt_of_ne hne with hlt | hgt
  · by_cases hp : (b :: tail).Pairwise (· ≤ ·)
    · cases t <;> simp [hlt, hlt.le, hlt.not_ge, hp]
    · cases t <;> simp [hlt, hlt.le, hlt.not_ge, hp]
  · by_cases hp : (b :: tail).Pairwise (· ≥ ·)
    · cases t <;> simp [hgt.le, hgt.not_gt, hgt.not_ge, hp]
    · cases t <;> simp [hgt.le, hgt.not_gt, hgt.not_ge, hp]

/-! ### What the scan does not look at -/

lemma pairwise_split_iff {r : Int → Int → Prop} [IsTrans Int r] (hk : 0 < k) :
    (b :: tail).Pairwise r ↔
      (b :: tail.take k).Pairwise r ∧ (b :: tail.drop (k - 1)).Pairwise r := by
  constructor
  · intro h
    exact ⟨h.sublist ((List.take_sublist k tail).cons_cons b),
      h.sublist ((List.drop_sublist (k - 1) tail).cons_cons b)⟩
  · rintro ⟨hleft, hright⟩
    cases hrest : tail.drop (k - 1) with
    | nil =>
      rw [List.drop_eq_nil_iff] at hrest
      rwa [List.take_of_length_le (by omega)] at hleft
    | cons c rest =>
      have htail : tail = tail.take (k - 1) ++ c :: rest := by rw [← hrest, List.take_append_drop]
      have htake : tail.take k = tail.take (k - 1) ++ [c] := by
        obtain ⟨n, rfl⟩ : ∃ n, k = n + 1 := ⟨k - 1, by omega⟩
        rw [Nat.add_sub_cancel] at hrest ⊢
        rw [List.take_add, hrest]
        rfl
      rw [htake, ← List.cons_append, ← List.isChain_iff_pairwise] at hleft
      rw [hrest] at hright
      rw [htail, ← List.cons_append, ← List.isChain_iff_pairwise, List.isChain_split,
        List.isChain_iff_pairwise, List.isChain_iff_pairwise]
      exact ⟨List.isChain_iff_pairwise.mp hleft, hright.of_cons⟩

lemma directed_split_iff (hk : 0 < k) :
    Directed a b (b :: tail) ↔
      Directed a b (b :: tail.take k) ∧ Directed a b (b :: tail.drop (k - 1)) := by
  unfold Directed
  by_cases h : a < b
  · simp only [if_pos h]
    exact pairwise_split_iff hk
  · simp only [if_neg h]
    exact pairwise_split_iff hk

lemma skippedInOrder_run_iff (hk : 0 < k) (hne : a ≠ b) :
    SkippedInOrder (List.replicate k a ++ b :: tail) ↔
      (Directed a b (b :: tail.drop (k - 1)) → Directed a b (b :: tail)) := by
  constructor
  · intro h hscan
    exact (directed_split_iff hk).mpr ⟨(h k a b tail hk hne rfl).resolve_right (not_not_intro hscan), hscan⟩
  · intro h k' a' b' tail' hk' hne' heq
    obtain ⟨rfl, rfl, rfl, rfl⟩ := run_injective hk hk' hne hne' heq
    by_cases hscan : Directed a b (b :: tail.drop (k - 1))
    · exact .inl ((directed_split_iff hk).mp (h hscan)).1
    · exact .inr hscan

/-- The sortedness test is right exactly when the rows that it skips do not matter. -/
theorem isSortedAlldef_reports_iff (iX : List Int) :
    ReportsOrder iX (isSortedAlldef iX) ↔ SkippedInOrder iX := by
  classical
  cases iX with
  | nil =>
    refine iff_of_true ?_ ?_
    · exact ⟨by simp [isSortedAlldef], by simp [isSortedAlldef], by simp [isSortedAlldef],
        by simp [isSortedAlldef]⟩
    · intro k a b tail _ _ h
      simp at h
  | cons first iX =>
    rcases leadingRun first iX with ⟨n, rfl⟩ | ⟨n, b, tail, hne, rfl⟩
    · rw [← List.replicate_succ, isSortedAlldef_replicate]
      refine iff_of_true (reportsOrder_replicate n first) ?_
      intro k a b tail hk hne h
      have hmem : ∀ x ∈ List.replicate k a ++ b :: tail, x = first := by
        rw [← h]
        exact fun x => List.eq_of_mem_replicate
      rw [List.forall_mem_append, List.forall_mem_cons] at hmem
      exact absurd ((hmem.1 a (List.mem_replicate.mpr ⟨by omega, rfl⟩)).trans hmem.2.1.symm) hne
    · rw [← List.cons_append, ← List.replicate_succ, isSortedAlldef_run n.succ_pos hne,
        reportsOrder_run_iff n.succ_pos hne, skippedInOrder_run_iff n.succ_pos hne]
      rw [Nat.succ_sub_one]
      have hsub : Directed first b (b :: tail) → Directed first b (b :: tail.drop n) :=
        fun h => ((directed_split_iff n.succ_pos).mp h).2
      have hdir : sortOrder first b ≠ .unsorted := by
        unfold sortOrder
        split_ifs <;> simp
      by_cases hscan : Directed first b (b :: tail.drop n)
      · by_cases hall : Directed first b (b :: tail)
        · simp [hscan, hall]
        · simp [hscan, hall, hdir]
      · simp [hscan, mt hsub hscan]

end

/-- Behind the leading 1s the 2 is the second value, and the 0 is skipped. -/
theorem not_isSortedAlldef_reports : ¬ ∀ iX, ReportsOrder iX (isSortedAlldef iX) := by
  intro h
  have hrun : isSortedAlldef [1, 1, 2, 0] = .ascending := by decide
  have hsorted := ((h [1, 1, 2, 0]).ascending.mp hrun).2
  exact absurd hsorted (by decide)

end Datacl
