import Datacl.Approx.Unique
import Datacl.Lib.InPlace
import Mathlib.Tactic.Ring
import Mathlib.Logic.Function.Iterate
import Mathlib.Order.Lattice.Nat

/-!
# The bins of `approx_unique` depend on the set of selected values only

A bin holds the maximum of `rho` over the values that fall into it, and merging bins drops the
last bit of a bin's number.
-/

namespace Datacl

/-! ### Blocks -/

lemma numBlocks_spec {siz : Nat} (h : siz < 2 ^ 31) :
    siz ≤ (numBlocks siz).toNat * blockSize ∧ (numBlocks siz).toNat ≤ 2048 := by
  have hbs : blockSize = 1048576 := rfl
  have hdiv : CInt.wrap 32 ((siz : Int) / blockSize) = (siz / blockSize : Nat) := by
    rw [← Int.natCast_ediv, hbs]
    exact CInt.wrap_of_lt (by omega) (by omega)
  have hmul : CInt.wrap 32 (((siz / blockSize : Nat) : Int) * blockSize) =
      (siz / blockSize * blockSize : Nat) := by
    rw [← Nat.cast_mul, hbs]
    exact CInt.wrap_of_lt (by omega) (by omega)
  have hsucc : CInt.wrap 32 (((siz / blockSize : Nat) : Int) + 1) = (siz / blockSize + 1 : Nat) := by
    rw [← Nat.cast_succ, hbs]
    exact CInt.wrap_of_lt (by omega) (by omega)
  simp only [numBlocks, hdiv, hmul, hsucc, ne_eq, Nat.cast_inj]
  rw [hbs]
  split_ifs with hne
  · rw [Int.toNat_natCast]
    omega
  · rw [Int.toNat_natCast]
    omega

/-- The elements from `lb` to `ub`. -/
lemma take_block {α : Type} (rows : List α) (lb bs : Nat) :
    (rows.drop lb).take ((if (rows.length : Int) < (lb : Int) + bs then (rows.length : Int)
      else (lb : Int) + bs) - lb).toNat = (rows.drop lb).take bs := by
  split_ifs with hend
  · rw [List.take_of_length_le, List.take_of_length_le]
    · rw [List.length_drop]
      omega
    · rw [List.length_drop]
      omega
  · congr 1
    omega

lemma take_succ_mul {α : Type} (rows : List α) (n bs : Nat) :
    rows.take ((n + 1) * bs) = rows.take (n * bs) ++ (rows.drop (n * bs)).take bs := by
  rw [Nat.succ_mul, List.take_add]

section

variable {hash : Int → BitVec 64}

lemma fillBlock_append (rows rows' : List (Int × Bool)) (maxRho : List Nat) :
    fillBlock hash (rows ++ rows') maxRho = fillBlock hash rows maxRho >>= fillBlock hash rows' := by
  induction rows generalizing maxRho with
  | nil => rfl
  | cons row rows ih =>
    obtain ⟨v, sel⟩ := row
    rw [List.cons_append, fillBlock, fillBlock]
    cases sel with
    | false => exact ih maxRho
    | true =>
      cases determineRhoLoc (hash v) initialBins with
      | none => rfl
      | some p => exact ih _

lemma blockRows_eq (rows : List (Int × Bool)) {c : Nat} (hc : c < 2048) :
    blockRows rows c = (rows.drop (c * blockSize)).take blockSize := by
  have hlb : CInt.wrap 32 ((c : Int) * blockSize) = (c * blockSize : Nat) := by
    have hbs : blockSize = 1048576 := rfl
    rw [← Nat.cast_mul, hbs]
    exact CInt.wrap_of_lt (by omega) (by omega)
  rw [blockRows, hlb, Int.toNat_natCast, take_block]

/-- Blocks are consecutive pieces of the input. -/
lemma fillBlocks_eq (rows : List (Int × Bool)) {n : Nat} (hn : n ≤ 2048) (maxRho : List Nat) :
    fillBlocks hash rows n maxRho = fillBlock hash (rows.take (n * blockSize)) maxRho := by
  induction n with
  | zero =>
    rw [Nat.zero_mul, List.take_zero]
    rfl
  | succ n ih =>
    have hprev := ih (by omega)
    rw [fillBlocks] at hprev ⊢
    rw [InPlace.foldlM_range_succ, hprev, take_succ_mul, fillBlock_append]
    refine bind_congr fun b => ?_
    rw [blockRows_eq rows hn]

lemma UniqueInput.length_rows (inp : UniqueInput) : inp.rows.length = inp.x.length := by
  unfold UniqueInput.rows
  split
  next => rw [List.length_map]
  next flags hflags =>
    rw [List.length_zipWith, inp.length_cfld flags hflags, Nat.min_self]

/-- The blocks cover the input. -/
lemma fillBlocks_rows {inp : UniqueInput} (hlt : inp.x.length < 2 ^ 31) (maxRho : List Nat) :
    fillBlocks hash inp.rows (numBlocks inp.x.length).toNat maxRho =
      fillBlock hash inp.rows maxRho := by
  obtain ⟨hge, hle⟩ := numBlocks_spec hlt
  have hrows := inp.length_rows
  rw [fillBlocks_eq _ hle, List.take_of_length_le (hrows ▸ hge)]

/-! ### Filled bins -/

/-- The values whose hash `determine_rho_loc` takes. -/
def Accepted (hash : Int → BitVec 64) (v : Int) : Prop := hash v ≠ 0 ∧ rhoOf (hash v) ≤ 44

instance (hash : Int → BitVec 64) (v : Int) : Decidable (Accepted hash v) :=
  inferInstanceAs (Decidable (hash v ≠ 0 ∧ rhoOf (hash v) ≤ 44))

/-- The maximum of `rho` over the values whose bin, shifted right by `s`, is `i`. -/
def bucketMax (hash : Int → BitVec 64) (values : Finset Int) (s i : Nat) : Nat :=
  (values.filter (fun v => locOf (hash v) initialBins >>> s = i)).sup (fun v => rhoOf (hash v))

lemma determineRhoLoc_of_accepted {v : Int} (h : Accepted hash v) :
    determineRhoLoc (hash v) initialBins =
      some (rhoOf (hash v), locOf (hash v) initialBins) := by
  rw [determineRhoLoc, if_neg h.1, if_neg (by have := h.2; omega)]

lemma determineRhoLoc_of_not_accepted {v : Int} (h : ¬ Accepted hash v) :
    determineRhoLoc (hash v) initialBins = none := by
  rw [determineRhoLoc]
  split_ifs with hzero hrho
  · rfl
  · rfl
  · exact absurd ⟨hzero, by omega⟩ h

lemma getD_set (l : List Nat) (i j a : Nat) :
    (l.set i a).getD j 0 = if i = j ∧ j < l.length then a else l.getD j 0 := by
  rw [List.getD_eq_getElem?_getD, List.getD_eq_getElem?_getD, List.getElem?_set]
  split_ifs with h1 h2 h3 h3 h3
  · rfl
  · exact absurd ⟨h1, h1 ▸ h2⟩ h3
  · exact absurd (h3.1 ▸ h3.2) h2
  · rw [← h1, List.getElem?_eq_none (by omega)]
  · exact absurd h3.1 h1
  · rfl

/-- One value raises its own bin and no other. -/
lemma getD_updated {maxRho : List Nat} (l r i : Nat) (hi : i < maxRho.length) :
    (if maxRho.getD l 0 < r then maxRho.set l r else maxRho).getD i 0 =
      max (maxRho.getD i 0) (if l = i then r else 0) := by
  split_ifs with hlt heq heq
  · rw [getD_set, if_pos ⟨heq, hi⟩, max_eq_right (heq ▸ hlt.le)]
  · rw [getD_set, if_neg (fun h => heq h.1), Nat.max_zero]
  · rw [max_eq_left (heq ▸ not_lt.mp hlt)]
  · rw [Nat.max_zero]

lemma bucketMax_insert (v : Int) (values : Finset Int) (i : Nat) :
    bucketMax hash (insert v values) 0 i =
      max (if locOf (hash v) initialBins = i then rhoOf (hash v) else 0)
        (bucketMax hash values 0 i) := by
  simp only [bucketMax, Finset.filter_insert, Nat.shiftRight_zero]
  split_ifs with heq
  · rw [Finset.sup_insert]
  · rw [Nat.zero_max]

lemma fillBlock_ok {rows : List (Int × Bool)} (maxRho : List Nat)
    (h : ∀ v ∈ selectedRows rows, Accepted hash v) :
    ∃ r, fillBlock hash rows maxRho = .ok r ∧ r.length = maxRho.length ∧
      ∀ i < maxRho.length,
        r.getD i 0 = max (maxRho.getD i 0) (bucketMax hash (selectedRows rows).toFinset 0 i) := by
  induction rows generalizing maxRho with
  | nil =>
    refine ⟨maxRho, rfl, rfl, fun i _ => ?_⟩
    simp [selectedRows, bucketMax]
  | cons row rows ih =>
    obtain ⟨v, sel⟩ := row
    cases sel with
    | false => exact ih maxRho h
    | true =>
      have hsel : selectedRows ((v, true) :: rows) = v :: selectedRows rows := rfl
      rw [hsel, List.forall_mem_cons] at h
      obtain ⟨r, hfill, hlen, hreg⟩ := ih (if maxRho.getD (locOf (hash v) initialBins) 0 <
        rhoOf (hash v) then maxRho.set (locOf (hash v) initialBins) (rhoOf (hash v)) else maxRho) h.2
      have hsame : (if maxRho.getD (locOf (hash v) initialBins) 0 < rhoOf (hash v) then
          maxRho.set (locOf (hash v) initialBins) (rhoOf (hash v)) else maxRho).length =
          maxRho.length := by
        split_ifs
        · rw [List.length_set]
        · rfl
      refine ⟨r, ?_, hlen.trans hsame, fun i hi => ?_⟩
      · rw [fillBlock, if_pos rfl, determineRhoLoc_of_accepted h.1]
        exact hfill
      · rw [hreg i (by rwa [hsame]), getD_updated _ _ i hi, hsel, List.toFinset_cons,
          bucketMax_insert, max_assoc]

lemma fillBlock_error {rows : List (Int × Bool)} {maxRho : List Nat}
    (h : ¬ ∀ v ∈ selectedRows rows, Accepted hash v) :
    ∃ r, fillBlock hash rows maxRho = .error r := by
  induction rows generalizing maxRho with
  | nil => exact absurd (fun v hv => absurd hv List.not_mem_nil) h
  | cons row rows ih =>
    obtain ⟨v, sel⟩ := row
    cases sel with
    | false => exact ih h
    | true =>
      have hsel : selectedRows ((v, true) :: rows) = v :: selectedRows rows := rfl
      rw [hsel, List.forall_mem_cons] at h
      rw [fillBlock, if_pos rfl]
      by_cases hv : Accepted hash v
      · rw [determineRhoLoc_of_accepted hv]
        exact ih (fun hall => h ⟨hv, hall⟩)
      · rw [determineRhoLoc_of_not_accepted hv]
        exact ⟨maxRho, rfl⟩

end

end Datacl
