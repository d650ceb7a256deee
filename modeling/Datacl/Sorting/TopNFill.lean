import Datacl.Sorting.TopNKept

/-!
# The order of the rows while the heap fills

As long as there is an empty node apart from the root, a row goes to the left side until that is full, and
from then on to the right side.
-/

namespace Datacl

open MinHeap

section

variable {args : TopNArgs} {h : List (Option Nat)} {l : List Nat} {k n r : Nat}

/-- The rows of `l` have been offered, and `k` nodes are empty. -/
structure Filling (args : TopNArgs) (l : List Nat) (k : Nat) (h : List (Option Nat)) : Prop where
  heap : IsHeap args.key h
  perm : h.Perm (l.map some ++ List.replicate k none)
  left_lt : ∀ i j a b, Under 1 i → Under 2 j → h[i]? = some (some a) → h[j]? = some (some b) → a < b
  left_first : h[1]? = some none → ∀ j b, Under 2 j → h[j]? ≠ some (some b)

lemma Filling.length_eq (hf : Filling args l k h) : h.length = l.length + k := by
  rw [hf.perm.length_eq, List.length_append, List.length_map, List.length_replicate]

lemma Filling.count_none (hf : Filling args l k h) : h.count none = k := by
  rw [hf.perm.count_eq, List.count_append, List.count_eq_zero_of_not_mem (by simp), List.count_replicate_self,
    Nat.zero_add]

lemma Filling.mem (hf : Filling args l k h) (hr : some r ∈ h) : r ∈ l := by
  have hmem := hf.perm.mem_iff.mp hr
  rcases List.mem_append.mp hmem with hmem | hmem
  · obtain ⟨r', hr', heq⟩ := List.mem_map.mp hmem
    exact Option.some.inj heq ▸ hr'
  · cases List.eq_of_mem_replicate hmem

/-- There is an empty node, so the root is empty. -/
lemma Filling.root_eq (hf : Filling args l (k + 1) h) (hmin : ∀ r ∈ l, -2 ^ 31 < args.key (some r)) :
    h[0]? = some none := by
  have hnone : none ∈ h := List.count_pos_iff.mp (by rw [hf.count_none]; omega)
  obtain ⟨root, hroot⟩ : ∃ a, h[0]? = some a := ⟨_, List.getElem?_eq_getElem (List.length_pos_of_mem hnone)⟩
  cases root with
  | none => exact hroot
  | some r =>
    have hle := hf.heap.root_le hroot hnone
    exact absurd hle (not_le.mpr (hmin r (hf.mem (List.mem_of_getElem? hroot))))

/-- If both children of the root are rows, only the root is empty. -/
lemma Filling.full (hf : Filling args l (k + 1) h) (hmin : ∀ r ∈ l, -2 ^ 31 < args.key (some r)) {a b : Nat}
    (ha : h[1]? = some (some a)) (hb : h[2]? = some (some b)) : k = 0 := by
  cases h with
  | nil => cases ha
  | cons root h =>
    have hroot : root = none := Option.some.inj (hf.root_eq hmin)
    have hnone : none ∉ h := by
      intro hmem
      obtain ⟨i, hi⟩ := List.mem_iff_getElem?.mp hmem
      have hi' : (root :: h)[i + 1]? = some none := hi
      obtain hleft | hright := (under_zero (i + 1)).left_or_right (by omega)
      · have hle := hf.heap.le_of_under ha hleft hi'
        exact absurd hle (not_le.mpr (hmin a (hf.mem (List.mem_of_getElem? ha))))
      · have hle := hf.heap.le_of_under hb hright hi'
        exact absurd hle (not_le.mpr (hmin b (hf.mem (List.mem_of_getElem? hb))))
    have hcount := hf.count_none
    rw [hroot, List.count_cons_self, List.count_eq_zero_of_not_mem hnone] at hcount
    omega

/-- The row takes an empty node. -/
lemma Filling.offer_perm (hf : Filling args l (k + 2) h) (hodd : h.length % 2 = 1)
    (hmin : -2 ^ 31 < args.key (some r)) (hminl : ∀ r ∈ l, -2 ^ 31 < args.key (some r)) :
    IsHeap args.key (offer args.key h (some r)) ∧
      (offer args.key h (some r)).Perm ((l ++ [r]).map some ++ List.replicate (k + 1) none) := by
  obtain ⟨out, hheap, hperm, hout, -⟩ := offer_spec hodd hf.heap (some r)
  have hall : (out :: offer args.key h (some r)).Perm
      (none :: ((l ++ [r]).map some ++ List.replicate (k + 1) none)) := by
    calc (out :: offer args.key h (some r)).Perm (some r :: h) := hperm
      _ |>.Perm (some r :: (l.map some ++ List.replicate (k + 2) none)) := hf.perm.cons _
      _ |>.Perm ((l.map some ++ some r :: List.replicate (k + 2) none)) := List.perm_middle.symm
      _ = (l ++ [r]).map some ++ none :: List.replicate (k + 1) none := by
        rw [List.map_append, List.append_assoc, List.replicate_succ]
        rfl
      _ |>.Perm (none :: ((l ++ [r]).map some ++ List.replicate (k + 1) none)) := List.perm_middle
  cases out with
  | none => exact ⟨hheap, hall.cons_inv⟩
  | some a =>
    have hnone : none ∈ offer args.key h (some r) :=
      (List.mem_cons.mp (hall.mem_iff.mpr List.mem_cons_self)).resolve_left (by simp)
    have ha : a ∈ l ++ [r] := by
      have hmem := hall.mem_iff.mp (List.mem_cons_self (a := some a))
      simpa [List.mem_replicate] using hmem
    have hgt : -2 ^ 31 < args.key (some a) := by
      rcases List.mem_append.mp ha with ha | ha
      · exact hminl a ha
      · exact List.mem_singleton.mp ha ▸ hmin
    exact absurd (hout none hnone) (not_le.mpr hgt)

/-- One row: it goes to the left while the left child of the root is empty, and to the right after that. -/
lemma Filling.step (hf : Filling args l (k + 2) h) (hodd : h.length % 2 = 1)
    (hmin : -2 ^ 31 < args.key (some r)) (hminl : ∀ r ∈ l, -2 ^ 31 < args.key (some r)) (hlast : ∀ a ∈ l, a < r) :
    Filling args (l ++ [r]) (k + 1) (offer args.key h (some r)) := by
  obtain ⟨hheap, hperm⟩ := hf.offer_perm hodd hmin hminl
  have hlen := hf.length_eq
  have hroot := hf.root_eq hminl
  obtain ⟨x, hx⟩ : ∃ x, h[1]? = some x := ⟨_, List.getElem?_eq_getElem (by omega)⟩
  obtain ⟨y, hy⟩ : ∃ y, h[2]? = some y := ⟨_, List.getElem?_eq_getElem (by omega)⟩
  have hbot : ∀ a : Option Nat, a ∈ h → -2 ^ 31 ≤ args.key a := by
    intro a ha
    cases a with
    | none => exact le_rfl
    | some a => exact (hminl a (hf.mem ha)).le
  -- a row is above an empty node
  have hrow : ∀ a : Option Nat, a ∈ h → -2 ^ 31 < args.key a → ∃ b, a = some b := by
    intro a _ hlt
    cases a with
    | none => exact absurd hlt (lt_irrefl _)
    | some b => exact ⟨b, rfl⟩
  have hxh := List.mem_of_getElem? hx
  have hyh := List.mem_of_getElem? hy
  have hroot_le : args.key none ≤ args.key (some r) := hmin.le
  obtain ⟨-, hxy, hsink⟩ | ⟨hnot, hyr, hyx, hsink⟩ | ⟨hrx, hry, -⟩ := offer_cases hroot hx hy hroot_le
  · -- to the left, where the child is empty
    have hxnone : x = none := by
      cases x with
      | none => rfl
      | some a =>
        obtain ⟨b, rfl⟩ := hrow y hyh ((hminl a (hf.mem hxh)).trans_le hxy)
        exact absurd (hf.full hminl hx hy) (by omega)
    subst hxnone
    have hright : ∀ j b, Under 2 j → (offer args.key h (some r))[j]? ≠ some (some b) := by
      intro j b hj
      rw [hsink.other j hj]
      exact hf.left_first hx j b hj
    exact ⟨hheap, hperm, fun i j a b _ hj _ hb => absurd hb (hright j b hj), fun _ => hright⟩
  · -- to the right, as the left child is a row
    have hlt : -2 ^ 31 < args.key x := by
      refine lt_of_le_of_ne (hbot x hxh) fun heq => hnot ⟨heq ▸ hmin, heq ▸ hbot y hyh⟩
    obtain ⟨a, rfl⟩ := hrow x hxh hlt
    refine ⟨hheap, hperm, fun i j c d hi hj hc hd => ?_, fun hnone => ?_⟩
    · rw [hsink.other i hi] at hc
      obtain hd | ⟨j', hj', hd⟩ := hsink.side j _ hj hd
      · rw [Option.some.inj hd]
        exact hlast c (hf.mem (List.mem_of_getElem? hc))
      · exact hf.left_lt i j' c d hi hj' hc hd
    · rw [hsink.other 1 .root, hx] at hnone
      cases hnone
  · -- the row does not stay at the root
    obtain ⟨a, rfl⟩ := hrow x hxh (hmin.trans_le hrx)
    obtain ⟨b, rfl⟩ := hrow y hyh (hmin.trans_le hry)
    exact absurd (hf.full hminl hx hy) (by omega)

/-- All rows but the last one. -/
lemma Filling.run (rows : List Nat) (hf : Filling args l (rows.length + 1) h) (hodd : h.length % 2 = 1)
    (hmin : ∀ r ∈ l ++ rows, -2 ^ 31 < args.key (some r)) (hord : (l ++ rows).Pairwise (· < ·)) :
    Filling args (l ++ rows) 1 (offerAll args.key h (rows.map some)) := by
  induction rows generalizing l h with
  | nil => rwa [List.append_nil]
  | cons r rows ih =>
    have happ : l ++ r :: rows = (l ++ [r]) ++ rows := List.append_cons l r rows
    have hlast : ∀ a ∈ l, a < r := fun a ha =>
      (List.pairwise_append.mp hord).2.2 a ha r List.mem_cons_self
    have hstep := hf.step hodd (hmin r (by simp)) (fun a ha => hmin a (List.mem_append_left _ ha)) hlast
    rw [happ] at hmin hord ⊢
    exact ih hstep (by rwa [length_offer]) hmin hord

/-- The rows fill all nodes but the root. -/
lemma filling_rows (rows : List Nat) (heven : rows.length % 2 = 0)
    (hmin : ∀ r ∈ rows, -2 ^ 31 < args.key (some r)) (hord : rows.Pairwise (· < ·)) :
    Filling args rows 1 (offerAll args.key (List.replicate (rows.length + 1) none) (rows.map some)) := by
  have hnone : ∀ {i : Nat} {a : Option Nat}, (List.replicate (rows.length + 1) none)[i]? = some a → a = none :=
    fun ha => List.eq_of_mem_replicate (List.mem_of_getElem? ha)
  have hstart : Filling args [] (rows.length + 1) (List.replicate (rows.length + 1) none) := by
    refine ⟨fun i c a b _ ha hb => ?_, .refl _, fun i j a b _ _ ha _ => ?_, fun _ j b _ hb => ?_⟩
    · rw [hnone ha, hnone hb]
    · cases hnone ha
    · cases hnone hb
  exact hstart.run rows (by rw [List.length_replicate]; omega) hmin hord

/-- Only the root is empty. -/
lemma Filling.exists_row (hf : Filling args l 1 h) (hmin : ∀ r ∈ l, -2 ^ 31 < args.key (some r)) {i : Nat}
    (hpos : 0 < i) (hi : i < h.length) : ∃ a ∈ l, h[i]? = some (some a) := by
  have hroot := hf.root_eq hmin
  have hcount := hf.count_none
  obtain ⟨i, rfl⟩ := Nat.exists_eq_succ_of_ne_zero hpos.ne'
  cases h with
  | nil => cases hroot
  | cons root h =>
    rw [Option.some.inj hroot, List.count_cons_self] at hcount
    have hnone : none ∉ h := List.count_eq_zero.mp (by omega)
    have hlt : i < h.length := Nat.lt_of_succ_lt_succ hi
    have hget : h[i]? = some h[i] := List.getElem?_eq_getElem hlt
    cases ha : h[i] with
    | none => exact absurd (ha ▸ List.getElem_mem hlt) hnone
    | some a =>
      rw [ha] at hget
      exact ⟨a, hf.mem (List.mem_cons_of_mem _ (List.mem_of_getElem? hget)), hget⟩

/-! ### `n` rows and an even `n` -/

/-- With the root left out, only two rows are in order. -/
lemma kept_even_increasing_iff (heven : n % 2 = 0) (hpos : 0 < n) (hmin : args.AboveMin)
    (hrows : args.rows.length = n) : (args.kept (n + 1)).Pairwise (· < ·) ↔ n = 2 := by
  have hodd : (n + 1) % 2 = 1 := by omega
  have hf := filling_rows args.rows (by rw [hrows, heven]) hmin (rows_increasing args)
  rw [hrows] at hf
  have hheap := heap_eq_none_cons hodd hmin (by rw [hrows])
  have hlen := length_kept_of_succ hodd hmin (by rw [hrows])
  rw [← TopNArgs.heap, hheap] at hf
  have hnode : ∀ i (hi : i < (args.kept (n + 1)).length),
      (none :: (args.kept (n + 1)).map some)[i + 1]? = some (some (args.kept (n + 1))[i]) := by
    intro i hi
    rw [List.getElem?_cons_succ, List.getElem?_map, List.getElem?_eq_getElem hi, Option.map_some]
  constructor
  · intro hord
    by_contra hne
    have hlt := List.pairwise_iff_getElem.mp hord 1 2 (by omega) (by omega) (by omega)
    have hgt := hf.left_lt 3 2 _ _ (.child .root (.inl rfl)) .root (hnode 2 (by omega)) (hnode 1 (by omega))
    omega
  · intro htwo
    refine List.pairwise_iff_getElem.mpr fun i j hi hj hij => ?_
    obtain ⟨rfl, rfl⟩ : i = 0 ∧ j = 1 := by omega
    exact hf.left_lt 1 2 _ _ .root .root (hnode 0 hi) (hnode 1 hj)

/-! ### `n` rows and an odd `n` -/

lemma getElem?_offer {a : Option Nat} {l' : List Nat} (hoffer : offer args.key h a = l'.map some) {i : Nat}
    (hi : i < l'.length) : (offer args.key h a)[i]? = some (some l'[i]) := by
  rw [hoffer, List.getElem?_map, List.getElem?_eq_getElem hi, Option.map_some]

/-- On the left side there are rows that are less than the one on the right, and the last one. -/
lemma not_increasing_of_left {last a b : Nat} {l' : List Nat} (hf : Filling args l 1 h) (hodd : h.length % 2 = 1)
    (hlen : l'.length = h.length) (hlt : b < last) (hat : h[1]? = some (some a)) (hbt : h[2]? = some (some b))
    (hoffer : offer args.key h (some last) = l'.map some)
    (hsink : SinksTo h (offer args.key h (some last)) (some last) (some a) 1 2) :
    ¬ l'.Pairwise (· < ·) := by
  intro hord
  have hlong := (List.getElem?_eq_some_iff.mp hbt).1
  have hlt' := List.pairwise_iff_getElem.mp hord
  have h0 : l'[0] = a := by simpa [getElem?_offer hoffer (show 0 < l'.length by omega)] using hsink.root
  have h2 : l'[2] = b := by
    simpa [getElem?_offer hoffer (show 2 < l'.length by omega), hbt] using hsink.other 2 .root
  have hside : ∀ i (hi : i < l'.length), Under 1 i →
      l'[i] = last ∨ ∃ j, Under 1 j ∧ h[j]? = some (some l'[i]) ∧ l'[i] < b := by
    intro i hi hunder
    obtain heq | ⟨j, hj, hjt⟩ := hsink.side i _ hunder (getElem?_offer hoffer hi)
    · exact .inl (Option.some.inj heq)
    · exact .inr ⟨j, hj, hjt, hf.left_lt j 2 _ b hj .root hjt hbt⟩
  by_cases hthree : h.length = 3
  · obtain heq | ⟨j, hj, hjt, -⟩ := hside 1 (by omega) .root
    · have h12 := hlt' 1 2 (by omega) (by omega) (by omega)
      omega
    · -- the left side is one node, and its row has moved to the root
      have hj3 := (List.getElem?_eq_some_iff.mp hjt).1
      have hj2 : j ≠ 2 := fun heq => (heq ▸ hj).not_right (k := 0) .root
      have hj1 := hj.le
      obtain rfl : j = 1 := by omega
      rw [hat, Option.some.injEq, Option.some.injEq] at hjt
      have h01 := hlt' 0 1 (by omega) (by omega) (by omega)
      omega
  · have h23 := hlt' 2 3 (by omega) (by omega) (by omega)
    have h34 := hlt' 3 4 (by omega) (by omega) (by omega)
    obtain heq | ⟨-, -, -, hlt3⟩ := hside 3 (by omega) (.child .root (.inl rfl))
    · obtain heq' | ⟨-, -, -, hlt4⟩ := hside 4 (by omega) (.child .root (.inr rfl))
      · omega
      · omega
    · omega

/-- The last row puts them out of order. -/
lemma not_increasing_of_last {last : Nat} {l' : List Nat} (hf : Filling args l 1 h)
    (hmin : ∀ r ∈ l, -2 ^ 31 < args.key (some r)) (hodd : h.length % 2 = 1) (hlong : 1 < h.length)
    (hlast : ∀ a ∈ l, a < last) (hminlast : -2 ^ 31 < args.key (some last))
    (hoffer : offer args.key h (some last) = l'.map some) : ¬ l'.Pairwise (· < ·) := by
  have hlen : l'.length = h.length := by
    have heq := congrArg List.length hoffer
    rw [length_offer, List.length_map] at heq
    exact heq.symm
  obtain ⟨a, ha, hat⟩ := hf.exists_row hmin one_pos hlong
  obtain ⟨b, hb, hbt⟩ := hf.exists_row hmin two_pos (by omega)
  have hab := hf.left_lt 1 2 a b .root .root hat hbt
  have hlt := hlast a ha
  have hroot_le : args.key none ≤ args.key (some last) := hminlast.le
  have hnode0 := getElem?_offer hoffer (show 0 < l'.length by omega)
  have hnode1 := getElem?_offer hoffer (show 1 < l'.length by omega)
  obtain ⟨-, -, hsink⟩ | ⟨-, -, -, hsink⟩ | ⟨-, -, hstay⟩ := offer_cases (hf.root_eq hmin) hat hbt hroot_le
  · exact not_increasing_of_left hf hodd hlen (hlast b hb) hat hbt hoffer hsink
  · intro hord
    have h0 : l'[0] = b := by simpa [hnode0] using hsink.root
    have h1 : l'[1] = a := by simpa [hnode1, hat] using hsink.other 1 .root
    have h01 := List.pairwise_iff_getElem.mp hord 0 1 (by omega) (by omega) one_pos
    omega
  · intro hord
    rw [hstay, List.getElem?_set_self (by omega), Option.some.injEq, Option.some.injEq] at hnode0
    rw [hstay, List.getElem?_set_ne (by omega), hat, Option.some.injEq, Option.some.injEq] at hnode1
    have h01 := List.pairwise_iff_getElem.mp hord 0 1 (by omega) (by omega) one_pos
    omega

lemma not_kept_increasing (hodd : n % 2 = 1) (hne : n ≠ 1) (hmin : args.AboveMin) (hrows : args.rows.length = n) :
    ¬ (args.kept n).Pairwise (· < ·) := by
  have hheap := heap_eq_map_some hodd hmin hrows.ge
  have hord := rows_increasing args
  obtain hnil | ⟨l, last, hl⟩ := List.eq_nil_or_concat args.rows
  · rw [hnil, List.length_nil] at hrows
    omega
  · rw [List.concat_eq_append] at hl
    have hlen : l.length + 1 = n := by rw [← hrows, hl, List.length_append, List.length_singleton]
    rw [hl] at hord
    have hminl : ∀ r ∈ l, -2 ^ 31 < args.key (some r) := fun r hr => hmin r (by rw [hl]; simp [hr])
    have hf := filling_rows l (by omega) hminl (List.pairwise_append.mp hord).1
    refine not_increasing_of_last hf hminl ?_ ?_ (fun a ha => (List.pairwise_append.mp hord).2.2 a ha last (by simp))
      (hmin last (by rw [hl]; simp)) ?_
    · rw [hf.length_eq, hlen, hodd]
    · rw [hf.length_eq]
      omega
    · rw [← hheap, TopNArgs.heap, hl, List.map_append, offerAll, offerAll, List.foldl_append, hlen]
      rfl

end

end Datacl
