import Datacl.Approx.UniqueFold

/-!
# Merging bins, and the outcome of `approx_unique`
-/

namespace Datacl

/-! ### Bins after some rounds -/

section

variable {hash : Int → BitVec 64}

/-- `m` and `max_rho` after `s` rounds of merging, for the given set of values. -/
structure MergedBins (hash : Int → BitVec 64) (values : Finset Int) (s : Nat)
    (bins : Nat × List Nat) : Prop where
  size : bins.1 = 2 ^ (16 - s)
  length : bins.2.length = initialBins
  bin : ∀ i < bins.1, bins.2.getD i 0 = bucketMax hash values s i

/-- A merged bin holds the values of both its halves. -/
lemma bucketMax_succ (values : Finset Int) (s i : Nat) :
    bucketMax hash values (s + 1) i =
      max (bucketMax hash values s (2 * i)) (bucketMax hash values s (2 * i + 1)) := by
  have hsplit : values.filter (fun v => locOf (hash v) initialBins >>> (s + 1) = i) =
      values.filter (fun v => locOf (hash v) initialBins >>> s = 2 * i) ∪
        values.filter (fun v => locOf (hash v) initialBins >>> s = 2 * i + 1) := by
    rw [← Finset.filter_or]
    refine Finset.filter_congr fun v _ => ?_
    rw [Nat.shiftRight_succ]
    omega
  rw [bucketMax, hsplit, Finset.sup_union]
  rfl

lemma MergedBins.mergeBins {values : Finset Int} {s : Nat} {bins : Nat × List Nat}
    (h : MergedBins hash values s bins) (hs : s < 16) :
    MergedBins hash values (s + 1) (mergeBins bins) := by
  have hhalf : bins.1 = 2 * 2 ^ (16 - (s + 1)) := by
    rw [h.size, ← pow_succ']
    congr 1
    omega
  have hle : bins.1 ≤ bins.2.length := by
    rw [h.size, h.length]
    exact Nat.pow_le_pow_right Nat.two_pos (by omega : 16 - s ≤ 16)
  obtain ⟨hm, hlen, hbin⟩ := mergeBins_spec hhalf hle
  refine ⟨hm, hlen.trans h.length, fun i hi => ?_⟩
  rw [hm] at hi
  rw [hbin i hi, h.bin _ (by omega), h.bin _ (by omega), bucketMax_succ]

/-- A run of `s` rounds. -/
lemma MergedBins.iterate {values : Finset Int} {bins : Nat × List Nat}
    (h : MergedBins hash values 0 bins) {s : Nat} (hs : s ≤ 16) :
    MergedBins hash values s (Datacl.mergeBins^[s] bins) := by
  induction s with
  | zero => exact h
  | succ s ih =>
    rw [Function.iterate_succ_apply']
    exact (ih (by omega)).mergeBins hs

/-! ### The whole call -/

lemma MergedBins.bins_eq {values : Finset Int} {bins bins' : Nat × List Nat}
    (h : MergedBins hash values 0 bins) (h' : MergedBins hash values 0 bins') : bins = bins' := by
  refine Prod.ext (h.size.trans h'.size.symm) ?_
  have hsize : ∀ b : Nat × List Nat, MergedBins hash values 0 b → b.1 = b.2.length := by
    intro b hb
    rw [hb.size, hb.length]
    rfl
  refine List.ext_getElem (h.length.trans h'.length.symm) fun i hi hi' => ?_
  have hreg := h.bin i (by rwa [hsize bins h])
  have hreg' := h'.bin i (by rwa [hsize bins' h'])
  rw [List.getD_eq_getElem _ _ hi] at hreg
  rw [List.getD_eq_getElem _ _ hi'] at hreg'
  rw [hreg, hreg']

/-- The bins of an input all of whose selected values are accepted. -/
lemma fillBlocks_mergedBins {inp : UniqueInput} (hlt : inp.x.length < 2 ^ 31)
    (h : ∀ v ∈ inp.selected, Accepted hash v) :
    ∃ maxRho, fillBlocks hash inp.rows (numBlocks inp.x.length).toNat
        (List.replicate initialBins 0) = .ok maxRho ∧
      MergedBins hash inp.selected 0 (initialBins, maxRho) := by
  obtain ⟨r, hfill, hlen, hreg⟩ := fillBlock_ok (List.replicate initialBins 0)
    (fun v hv => h v (List.mem_toFinset.mpr hv))
  rw [List.length_replicate] at hlen hreg
  refine ⟨r, (fillBlocks_rows hlt _).trans hfill, rfl, hlen, fun i hi => ?_⟩
  rw [hreg i hi, List.getD_replicate _ hi, Nat.zero_max]
  rfl

lemma fillBlocks_error {inp : UniqueInput} (hlt : inp.x.length < 2 ^ 31)
    (h : ¬ ∀ v ∈ inp.selected, Accepted hash v) :
    ∃ maxRho, fillBlocks hash inp.rows (numBlocks inp.x.length).toNat
        (List.replicate initialBins 0) = .error maxRho := by
  rw [fillBlocks_rows hlt]
  exact fillBlock_error fun hall => h fun v hv => hall v (List.mem_toFinset.mp hv)

/-- Everything the call returns, and the number of bins it leaves with. -/
def UniqueResult.outcome (r : UniqueResult) : Int × Int × ℚ × Int × Option Nat :=
  (r.status, r.y, r.estimateAccuracyPercent, r.estimateIsGood, r.bins.map Prod.fst)

lemma approxUnique_of_rejected (final : FinalComputations) {inp : UniqueInput} (hne : inp.x ≠ [])
    (hlt : inp.x.length < 2 ^ 31) (h : ¬ ∀ v ∈ inp.selected, Accepted hash v) :
    (approxUnique hash final inp).outcome = (0, -1, 100, -3, some initialBins) := by
  obtain ⟨maxRho, hfill⟩ := fillBlocks_error hlt h
  rw [approxUnique, if_neg (by rwa [List.length_eq_zero_iff]), hfill]
  rfl

lemma approxUnique_of_accepted (hash : Int → BitVec 64) (final : FinalComputations)
    (inp : UniqueInput) (hne : inp.x ≠ []) (hlt : inp.x.length < 2 ^ 31)
    (h : ∀ v ∈ inp.selected, Accepted hash v) :
    ∃ maxRho, fillBlocks hash inp.rows (numBlocks inp.x.length).toNat
        (List.replicate initialBins 0) = .ok maxRho ∧
      MergedBins hash inp.selected 0 (initialBins, maxRho) ∧
      approxUnique hash final inp = finishBins final maxRho := by
  obtain ⟨maxRho, hfill, hbins⟩ := fillBlocks_mergedBins hlt h
  refine ⟨maxRho, hfill, hbins, ?_⟩
  rw [approxUnique, if_neg (by rwa [List.length_eq_zero_iff]), hfill]

lemma finishBins_spec (final : FinalComputations) (maxRho : List Nat) :
    (finishBins final maxRho).bins = some (mergeLoop initialBins (initialBins, maxRho)) ∧
      ((finishBins final maxRho).estimateIsGood = 1 ∨
        (finishBins final maxRho).estimateIsGood = -2) := by
  rw [finishBins]
  by_cases hzero : cntZero (mergeLoop initialBins (initialBins, maxRho)) <
      (mergeLoop initialBins (initialBins, maxRho)).1 / 100
  · rw [if_pos hzero]
    exact ⟨rfl, .inl rfl⟩
  · rw [if_neg hzero]
    exact ⟨rfl, .inr rfl⟩

/-- Two calls on the same set of selected values have the same outcome, and unless it is -3 they
leave the same bins: those of the set after as many rounds of merging as the loop makes. -/
theorem approxUnique_depends_on_selected (hash : Int → BitVec 64) (final : FinalComputations)
    (inp inp' : UniqueInput) (hne : inp.x ≠ []) (hne' : inp'.x ≠ [])
    (hlt : inp.x.length < 2 ^ 31) (hlt' : inp'.x.length < 2 ^ 31)
    (hsel : inp.selected = inp'.selected) :
    (approxUnique hash final inp).outcome = (approxUnique hash final inp').outcome ∧
    ((approxUnique hash final inp).estimateIsGood ≠ -3 →
      (approxUnique hash final inp).bins = (approxUnique hash final inp').bins ∧
      ∃ maxRho s, fillBlocks hash inp.rows (numBlocks inp.x.length).toNat
          (List.replicate initialBins 0) = .ok maxRho ∧ s ≤ 9 ∧
        (approxUnique hash final inp).bins = some (mergeBins^[s] (initialBins, maxRho)) ∧
        ∀ t ≤ 16, MergedBins hash inp.selected t (mergeBins^[t] (initialBins, maxRho))) := by
  by_cases hall : ∀ v ∈ inp.selected, Accepted hash v
  · obtain ⟨maxRho, hfill, hbins, hcall⟩ := approxUnique_of_accepted hash final inp hne hlt hall
    obtain ⟨maxRho', -, hbins', hcall'⟩ := approxUnique_of_accepted hash final inp' hne' hlt'
      (hsel ▸ hall)
    have hsame : maxRho = maxRho' := congrArg Prod.snd (hbins.bins_eq (hsel ▸ hbins'))
    rw [hcall, hcall', ← hsame]
    refine ⟨rfl, fun _ => ⟨rfl, ?_⟩⟩
    obtain ⟨t, -, ht, hloop, -⟩ := mergeLoop_foldedBins hbins.length initialBins (Nat.zero_le 9)
      (by decide)
    refine ⟨maxRho, t, hfill, by omega, ?_, fun t ht => hbins.iterate ht⟩
    exact (finishBins_spec final maxRho).1.trans (congrArg some hloop)
  · have hout := approxUnique_of_rejected final hne hlt hall
    have hout' := approxUnique_of_rejected final hne' hlt' (hsel ▸ hall)
    refine ⟨hout.trans hout'.symm, fun hgood => absurd ?_ hgood⟩
    exact congrArg (fun o => o.2.2.2.1) hout

theorem approxUnique_depends_on_selected_reordered :
    (approxUnique (fun v => BitVec.ofInt 64 v) ⟨fun m _ => m, fun _ => 1⟩
        ⟨[5, 6, 5], none, fun _ h => by cases h⟩).bins =
      (approxUnique (fun v => BitVec.ofInt 64 v) ⟨fun m _ => m, fun _ => 1⟩
        ⟨[6, 8, 5], some [1, 0, 1], fun _ h => by cases h; rfl⟩).bins := by
  obtain ⟨-, hbins⟩ := approxUnique_depends_on_selected (fun v => BitVec.ofInt 64 v)
    ⟨fun m _ => m, fun _ => 1⟩ ⟨[5, 6, 5], none, fun _ h => by cases h⟩
    ⟨[6, 8, 5], some [1, 0, 1], fun _ h => by cases h; rfl⟩ (List.cons_ne_nil 5 [6, 5])
    (List.cons_ne_nil 6 [8, 5]) (by decide) (by decide) (by decide)
  refine (hbins ?_).1
  obtain ⟨maxRho, -, -, hcall⟩ := approxUnique_of_accepted (fun v => BitVec.ofInt 64 v)
    ⟨fun m _ => m, fun _ => 1⟩ ⟨[5, 6, 5], none, fun _ h => by cases h⟩
    (List.cons_ne_nil 5 [6, 5]) (by decide) (by decide +kernel)
  rw [hcall]
  obtain hgood | hlow := (finishBins_spec ⟨fun m _ => m, fun _ => 1⟩ maxRho).2
  · rw [hgood]
    decide
  · rw [hlow]
    decide

/-- An empty `x` is refused, an `x` of which nothing is selected is not; and the bins left behind
by a refused hash value depend on what was read before it. -/
theorem approxUnique_same_selected_ne :
    ((UniqueInput.mk [] none (fun _ h => by cases h)).selected =
        (UniqueInput.mk [7] (some [0]) (fun _ h => by cases h; rfl)).selected ∧
      (approxUnique (fun _ => 1) ⟨fun _ _ => 0, fun _ => 0⟩
          ⟨[], none, fun _ h => by cases h⟩).estimateIsGood = -1 ∧
      (approxUnique (fun _ => 1) ⟨fun _ _ => 0, fun _ => 0⟩
          ⟨[7], some [0], fun _ h => by cases h; rfl⟩).estimateIsGood ≠ -1) ∧
    ((UniqueInput.mk [1, 0] none (fun _ h => by cases h)).selected =
        (UniqueInput.mk [0, 1] none (fun _ h => by cases h)).selected ∧
      (approxUnique (fun v => BitVec.ofInt 64 v) ⟨fun _ _ => 0, fun _ => 0⟩
          ⟨[1, 0], none, fun _ h => by cases h⟩).bins ≠
        (approxUnique (fun v => BitVec.ofInt 64 v) ⟨fun _ _ => 0, fun _ => 0⟩
          ⟨[0, 1], none, fun _ h => by cases h⟩).bins) := by
  refine ⟨⟨by decide, rfl, ?_⟩, by decide, ?_⟩
  · have hnone : (UniqueInput.mk [7] (some [0]) (fun _ h => by cases h; rfl)).selected = ∅ := by
      decide
    obtain ⟨maxRho, -, -, hcall⟩ := approxUnique_of_accepted (fun _ => 1)
      ⟨fun _ _ => 0, fun _ => 0⟩ ⟨[7], some [0], fun _ h => by cases h; rfl⟩
      (List.cons_ne_nil 7 []) (by decide)
      (fun v hv => absurd (hnone ▸ hv) (Finset.notMem_empty v))
    rw [hcall]
    obtain hgood | hlow := (finishBins_spec ⟨fun _ _ => 0, fun _ => 0⟩ maxRho).2
    · rw [hgood]
      decide
    · rw [hlow]
      decide
  · have hone : determineRhoLoc (BitVec.ofInt 64 1) initialBins = some (1, 0) := by
      decide +kernel
    have hzero : determineRhoLoc (BitVec.ofInt 64 0) initialBins = none := by decide
    have hfirst : ∀ R : List Nat, R.getD 0 0 = 0 →
        fillBlock (fun v => BitVec.ofInt 64 v) [(1, true), (0, true)] R = .error (R.set 0 1) := by
      intro R hR
      rw [fillBlock, if_pos rfl, hone]
      dsimp only
      rw [hR, if_pos Nat.zero_lt_one, fillBlock, if_pos rfl, hzero]
    have hsecond : ∀ R : List Nat,
        fillBlock (fun v => BitVec.ofInt 64 v) [(0, true), (1, true)] R = .error R := by
      intro R
      rw [fillBlock, if_pos rfl, hzero]
    have hlen : 0 < initialBins := by decide
    rw [approxUnique, approxUnique, if_neg (by decide), if_neg (by decide),
      fillBlocks_rows (by decide), fillBlocks_rows (by decide)]
    simp only [UniqueInput.rows, List.map_cons, List.map_nil]
    rw [hfirst _ (List.getD_replicate _ hlen), hsecond]
    intro hbins
    have hget := congrArg (fun R => R.getD 0 0) (congrArg Prod.snd (Option.some.inj hbins))
    simp only [getD_set, List.length_replicate, List.getD_replicate _ hlen, hlen, and_self,
      if_true] at hget
    exact absurd hget (by decide)

end

end Datacl
