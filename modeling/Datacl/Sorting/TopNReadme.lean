import Datacl.Sorting.TopNFill

/-!
# What the comment above `top_n` promises
-/

namespace Datacl

open MinHeap

section

variable {args : TopNArgs} {t : List Slot} {m n : Nat}

/-- `idx_out` holds `n` selected rows in increasing order, and no other one has a greater value. -/
structure KeepsReadme (args : TopNArgs) (n : Nat) (idxOut : List Int) : Prop where
  length_eq : idxOut.length = n
  increasing : idxOut.Pairwise (· < ·)
  selected : ∀ i ∈ idxOut, ∃ r ∈ args.rows, i = (r : Int)
  greatest : ∀ r ∈ args.rows, (r : Int) ∉ idxOut → ∀ r' ∈ args.rows, (r' : Int) ∈ idxOut →
    args.key (some r) ≤ args.key (some r')

/-- `top_n` returns 0, and its output is what the comment promises. -/
def TopNRight (args : TopNArgs) (n : Nat) : Prop := ∃ out, topN args n = some out ∧ KeepsReadme args n out.idxOut

/-! ### The slots of the code -/

/-- `temp` can hold the rows, or they do not go through it. -/
def FitsTemp (l : List Nat) (m : Nat) : Prop := m = 1 ∨ ∀ r ∈ l, r < 2 ^ 31

lemma stored_rows {l : List Nat} (hh : Holds args (l.map some) t) (hfits : FitsTemp l l.length) :
    t.map Prod.snd = l.map fun r : Nat => (r : Int) := by
  have hlen : t.length = l.length := by rw [hh.length_eq, List.length_map]
  refine List.ext_getElem (by simp [hlen]) fun i hi hi' => ?_
  rw [List.length_map] at hi hi'
  rw [List.getElem_map, List.getElem_map]
  obtain ⟨-, hrow⟩ := hh.stored i (some l[i]) t[i] (by simp [hi']) (List.getElem?_eq_getElem hi)
  obtain hrow | ⟨hlong, hrow⟩ := hrow
  · exact hrow
  · rw [List.length_map] at hlong
    have hlt := (hfits.resolve_left (by omega)) l[i] (List.getElem_mem hi')
    rw [hrow]
    exact CInt.wrap_of_lt (Int.natCast_nonneg _) (show (l[i] : Int) < 2 ^ 31 by omega)

/-- The values of the rows are above `INT_MIN`. -/
lemma lt_of_mem_slots {l : List Nat} (hh : Holds args (l.map some) t)
    (hmin : ∀ r ∈ l, -2 ^ 31 < args.key (some r)) : ∀ p ∈ t, -2 ^ 31 < p.1 := by
  intro p hp
  obtain ⟨i, hi, rfl⟩ := List.getElem_of_mem hp
  have hi' : i < l.length := by
    have hlen := hh.length_eq
    rw [List.length_map] at hlen
    omega
  rw [(hh.stored i (some l[i]) t[i] (by simp [hi']) (List.getElem?_eq_getElem hi)).1]
  exact hmin _ (List.getElem_mem hi')

/-- Without an empty slot the search for the least value finds nothing. -/
lemma findMinVal_of_lt {jj : Nat} {found : Int × Int} (hlt : ∀ p ∈ t, found.1 < p.1) :
    findMinVal t jj found = found := by
  induction t generalizing jj with
  | nil => rfl
  | cons p t ih =>
    obtain ⟨hp, hc⟩ := List.forall_mem_cons.mp hlt
    rw [findMinVal, if_neg (not_le.mpr hp)]
    exact ih hc

/-! ### The output -/

/-- For an odd `n` the rows are copied. -/
lemma topN_odd (hodd : n % 2 = 1) (hn : n < args.x.length) (hmin : args.AboveMin)
    (hrows : n ≤ args.rows.length) (hfits : FitsTemp (args.kept n) n) :
    ∃ out, topN args n = some out ∧ out.idxOut = (args.kept n).map fun r : Nat => (r : Int) := by
  have hsize : heapSize n = n := if_neg (by omega)
  obtain ⟨t, hrun, hh⟩ := topNRows_heap args (show 0 < n by omega)
  rw [heap_eq_map_some hodd hmin hrows] at hh
  refine ⟨⟨t.map Prod.snd, t.map Prod.fst⟩, ?_,
    stored_rows hh (by rwa [length_kept_of_le hodd hmin hrows])⟩
  simp only [topN, if_neg (show ¬ (args.x.length = 0 ∨ n = 0 ∨ args.x.length - 1 < n) by omega), hsize, hrun,
    Option.bind_eq_bind, Option.bind_some, if_neg (show ¬ n % 2 = 0 by omega)]

/-- For an even `n` and `n` rows the root is left out. -/
lemma topN_even (heven : n % 2 = 0) (hpos : 0 < n) (hn : n < args.x.length) (hmin : args.AboveMin)
    (hrows : args.rows.length = n) (hfits : ∀ r ∈ args.kept (n + 1), r < 2 ^ 31) :
    ∃ out, topN args n = some out ∧ out.idxOut = (args.kept (n + 1)).map fun r : Nat => (r : Int) := by
  have hodd : (n + 1) % 2 = 1 := by omega
  have hsize : heapSize n = n + 1 := if_pos heven
  have hheap := heap_eq_none_cons hodd hmin (by rw [hrows])
  obtain ⟨t, hrun, hh⟩ := topNRows_heap args (Nat.succ_pos n)
  have hlen := length_kept_of_succ hodd hmin (by rw [hrows])
  rw [hheap] at hh
  cases t with
  | nil => cases hh.length_eq
  | cons p t =>
    have hroot : p.1 = -2 ^ 31 := (hh.stored 0 none p rfl rfl).1
    have htail : Holds args ((args.kept (n + 1)).map some) t := by
      refine ⟨Nat.succ.inj hh.length_eq, fun i a q ha hq => ?_⟩
      obtain ⟨hval, hrow⟩ := hh.stored (i + 1) a q ha hq
      exact ⟨hval, hrow.imp_right fun hwrap => ⟨by rw [List.length_map]; omega, hwrap.2⟩⟩
    have habove : ∀ q ∈ t, p.1 < q.1 := by
      rw [hroot]
      exact lt_of_mem_slots htail fun r hr => hmin r (mem_rows_of_mem_kept hodd hr)
    have hfind : findMinVal (p :: t) 0 (-2 ^ 31, -1) = (-2 ^ 31, 0) := by
      rw [findMinVal, if_pos hroot.le]
      calc findMinVal t (0 + 1) (p.1, 0) = (p.1, 0) := findMinVal_of_lt habove
        _ = (-2 ^ 31, 0) := by rw [hroot]
    refine ⟨⟨t.map Prod.snd, []⟩, ?_, stored_rows htail (.inr hfits)⟩
    simp only [topN, if_neg (show ¬ (args.x.length = 0 ∨ n = 0 ∨ args.x.length - 1 < n) by omega), hsize, hrun,
      Option.bind_eq_bind, Option.bind_some, if_pos heven, hfind]
    rfl

/-- For an even `n` and more rows there is no slot that could be left out. -/
lemma topN_even_eq_none (heven : n % 2 = 0) (hmin : args.AboveMin) (hrows : n < args.rows.length) :
    topN args n = none := by
  have hodd : (n + 1) % 2 = 1 := by omega
  have hsize : heapSize n = n + 1 := if_pos heven
  obtain ⟨t, hrun, hh⟩ := topNRows_heap args (Nat.succ_pos n)
  rw [heap_eq_map_some hodd hmin hrows] at hh
  have hfind : findMinVal t 0 (-2 ^ 31, -1) = (-2 ^ 31, -1) :=
    findMinVal_of_lt (lt_of_mem_slots hh fun r hr => hmin r (mem_rows_of_mem_kept hodd hr))
  by_cases hbad : args.x.length = 0 ∨ n = 0 ∨ args.x.length - 1 < n
  · rw [topN, if_pos hbad]
  · simp only [topN, if_neg hbad, hsize, hrun, Option.bind_eq_bind, Option.bind_some, if_pos heven, hfind]
    rfl

/-! ### Its order -/

/-- Among the rows that the heap keeps only the order can be wrong. -/
lemma keepsReadme_kept_iff (hodd : m % 2 = 1) (hlen : (args.kept m).length = n) :
    KeepsReadme args n ((args.kept m).map fun r : Nat => (r : Int)) ↔ (args.kept m).Pairwise (· < ·) := by
  have hmem : ∀ r : Nat, (r : Int) ∈ (args.kept m).map (fun r : Nat => (r : Int)) ↔ r ∈ args.kept m := by
    intro r
    rw [List.mem_map]
    exact ⟨fun ⟨r', hr', heq⟩ => Int.ofNat.inj heq ▸ hr', fun hr => ⟨r, hr, rfl⟩⟩
  constructor
  · intro hkeeps
    exact (List.pairwise_map.mp hkeeps.increasing).imp fun hlt => by omega
  · intro hord
    refine ⟨by rw [List.length_map, hlen], List.pairwise_map.mpr (hord.imp fun hlt => by omega), ?_, ?_⟩
    · intro i hi
      obtain ⟨r, hr, rfl⟩ := List.mem_map.mp hi
      exact ⟨r, mem_rows_of_mem_kept hodd hr, rfl⟩
    · intro r hr hnot r' _ hr'
      exact key_le_of_not_mem_kept hodd hr (fun hkept => hnot ((hmem r).mpr hkept)) ((hmem r').mp hr')

lemma topNRight_iff {idxOut : List Int} (hout : ∃ out, topN args n = some out ∧ out.idxOut = idxOut) :
    TopNRight args n ↔ KeepsReadme args n idxOut := by
  obtain ⟨out, hrun, rfl⟩ := hout
  constructor
  · rintro ⟨out', hrun', hkeeps⟩
    rw [hrun, Option.some.injEq] at hrun'
    exact hrun' ▸ hkeeps
  · exact fun hkeeps => ⟨out, hrun, hkeeps⟩

/-- One row, or two rows of two, or an odd number of more rows that end up in order in the heap. -/
def RowsInOrder (args : TopNArgs) (n : Nat) : Prop :=
  n = 1 ∨ (n = 2 ∧ args.rows.length = 2) ∨
    (n % 2 = 1 ∧ n < args.rows.length ∧ (args.kept n).Pairwise (· < ·))

lemma kept_one_increasing (args : TopNArgs) : (args.kept 1).Pairwise (· < ·) := by
  have hlen := length_kept args (show 1 % 2 = 1 from rfl)
  cases hkept : args.kept 1 with
  | nil => exact .nil
  | cons r l =>
    rw [hkept, List.length_cons] at hlen
    obtain rfl : l = [] := List.eq_nil_of_length_eq_zero (by omega)
    exact List.pairwise_singleton _ r

/-- The rows fit `temp`. -/
lemma topNRight_iff_of_fits (hpos : 1 ≤ n) (hn : n < args.x.length) (hrows : n ≤ args.rows.length)
    (hmin : args.AboveMin) (hfits : FitsTemp args.rows n) : TopNRight args n ↔ RowsInOrder args n := by
  obtain heven | hodd := Nat.mod_two_eq_zero_or_one n
  · have hodd' : (n + 1) % 2 = 1 := by omega
    obtain hexact | hmore := hrows.eq_or_lt
    · have hfits' : ∀ r ∈ args.kept (n + 1), r < 2 ^ 31 := fun r hr =>
        hfits.resolve_left (by omega) r (mem_rows_of_mem_kept hodd' hr)
      have hlen := Nat.succ.inj (length_kept_of_succ hodd' hmin (by omega))
      rw [topNRight_iff (topN_even heven hpos hn hmin hexact.symm hfits'), keepsReadme_kept_iff hodd' hlen,
        kept_even_increasing_iff heven hpos hmin hexact.symm]
      unfold RowsInOrder
      omega
    · refine iff_of_false ?_ ?_
      · rintro ⟨out, hrun, -⟩
        rw [topN_even_eq_none heven hmin hmore] at hrun
        cases hrun
      · unfold RowsInOrder
        omega
  · have hfits' : FitsTemp (args.kept n) n :=
      hfits.imp_right fun hlt r hr => hlt r (mem_rows_of_mem_kept hodd hr)
    rw [topNRight_iff (topN_odd hodd hn hmin hrows hfits'),
      keepsReadme_kept_iff hodd (length_kept_of_le hodd hmin hrows)]
    unfold RowsInOrder
    by_cases hone : n = 1
    · subst hone
      exact iff_of_true (kept_one_increasing args) (.inl rfl)
    · obtain hexact | hmore := hrows.eq_or_lt
      · refine iff_of_false (not_kept_increasing hodd hone hmin hexact.symm) ?_
        omega
      · refine ⟨fun hord => .inr (.inr ⟨hodd, hmore, hord⟩), ?_⟩
        rintro (heq | ⟨heq, -⟩ | ⟨-, -, hord⟩)
        · exact absurd heq hone
        · omega
        · exact hord

end

end Datacl
