import Datacl.Vec.MultScalarHash

/-!
# When comparing with several scalars is membership

Short lists are scanned and the answer is right. A long list is right where the two sides of the
hash table agree on a value, and an `I8` column is compared with the largest number instead.
-/

namespace Datacl

/-- Membership as a row of the result. -/
def member (op : EqOp) (scalars : List Int) (x : Int) : Int :=
  match op with
  | .eq => if x ∈ scalars then 1 else 0
  | .ne => if x ∈ scalars then 0 else 1

/-! ### Linear scans -/

lemma foldl_if_eq (svals : List Int) (x v out : Int) :
    svals.foldl (fun out s => if x = s then v else out) out = if x ∈ svals then v else out := by
  induction svals generalizing out with
  | nil => rfl
  | cons s svals ih =>
    rw [List.foldl_cons, ih]
    by_cases hs : x = s <;> by_cases hx : x ∈ svals <;> simp [hs, hx]

lemma dbgCmpEqMultScalar_eq (svals : List Int) (x : Int) :
    dbgCmpEqMultScalar svals x = member .eq svals x := foldl_if_eq svals x 1 0

lemma dbgCmpNeqMultScalar_eq (svals : List Int) (x : Int) :
    dbgCmpNeqMultScalar svals x = member .ne svals x := foldl_if_eq svals x 0 1

/-! ### Hashed lookups -/

/-- The lookup of `x` gives the right answer. An empty slot holds 0, which is a value too. -/
def HashAgrees (n : Nat) (draw : BitVec 32 × BitVec 32) (scalars : List Int) (x : Int) : Prop :=
  if x ∈ scalars then
    buildLoc n draw.1 draw.2 x = probeLoc n draw.1 draw.2 x ∨
      x = 0 ∧ probeLoc n draw.1 draw.2 x ∉ scalars.map (buildLoc n draw.1 draw.2)
  else x = 0 → probeLoc n draw.1 draw.2 x ∈ scalars.map (buildLoc n draw.1 draw.2)

section Hashed

variable {n : Nat} {draw : BitVec 32 × BitVec 32} {scalars svals : List Int}

lemma NoCollision.perm (h : NoCollision n svals draw) (hperm : svals.Perm scalars) :
    NoCollision n scalars draw := (hperm.map _).nodup h

lemma chosenDraw_perm (draws : List (BitVec 32 × BitVec 32)) (hperm : svals.Perm scalars) :
    chosenDraw n svals draws = chosenDraw n scalars draws := by
  have hiff : ∀ draw, NoCollision n svals draw ↔ NoCollision n scalars draw :=
    fun draw => ⟨fun h => h.perm hperm, fun h => h.perm hperm.symm⟩
  simp only [chosenDraw, hiff]

lemma hashAgrees_perm (hperm : svals.Perm scalars) (x : Int) :
    HashAgrees n draw svals x ↔ HashAgrees n draw scalars x := by
  simp only [HashAgrees, hperm.mem_iff, (hperm.map _).mem_iff]

/-- What a slot holds. -/
lemma find?_buildLoc_eq_iff (h : NoCollision n svals draw) (i : Nat) (x : Int) :
    (svals.find? fun s => buildLoc n draw.1 draw.2 s = i).getD 0 = x ↔
      x ∈ svals ∧ buildLoc n draw.1 draw.2 x = i ∨
        x = 0 ∧ i ∉ svals.map (buildLoc n draw.1 draw.2) := by
  cases hfind : svals.find? fun s => buildLoc n draw.1 draw.2 s = i with
  | none =>
    have hnone : ∀ s ∈ svals, buildLoc n draw.1 draw.2 s ≠ i := by
      simpa using List.find?_eq_none.mp hfind
    have hi : i ∉ svals.map (buildLoc n draw.1 draw.2) := by
      intro hmem
      obtain ⟨s, hs, hloc⟩ := List.mem_map.mp hmem
      exact hnone s hs hloc
    rw [Option.getD_none]
    constructor
    · intro hx
      exact .inr ⟨hx.symm, hi⟩
    · rintro (⟨hx, hloc⟩ | ⟨hx, -⟩)
      · exact absurd hloc (hnone x hx)
      · exact hx.symm
  | some s =>
    have hs : s ∈ svals := List.mem_of_find?_eq_some hfind
    have hloc : buildLoc n draw.1 draw.2 s = i := by simpa using List.find?_some hfind
    rw [Option.getD_some]
    constructor
    · rintro rfl
      exact .inl ⟨hs, hloc⟩
    · rintro (⟨hx, hxloc⟩ | ⟨-, hi⟩)
      · exact List.inj_on_of_nodup_map h hs hx (hloc.trans hxloc.symm)
      · exact absurd (List.mem_map.mpr ⟨s, hs, hloc⟩) hi

/-- A lookup gives the answer of the scan exactly when the positions agree. -/
lemma optCmpEqMultScalar_eq_iff {hashes : List Int} (h : NoCollision n scalars draw)
    (hhashes : ∀ i, hashes.getD i 0 =
      (scalars.find? fun s => buildLoc n draw.1 draw.2 s = i).getD 0) (x : Int) :
    optCmpEqMultScalar ⟨n, draw.1, draw.2, hashes⟩ x = member .eq scalars x ↔
      HashAgrees n draw scalars x := by
  have hslot := find?_buildLoc_eq_iff h (probeLoc n draw.1 draw.2 x) x
  rw [← hhashes] at hslot
  rw [optCmpEqMultScalar, member, HashAgrees]
  by_cases hx : x ∈ scalars
  · simp only [hslot, hx, true_and, if_true, ite_eq_left_iff, zero_ne_one, imp_false, not_not]
  · simp only [hslot, hx, false_and, false_or, if_false, ite_eq_right_iff, one_ne_zero, imp_false,
      not_and, not_not]

end Hashed

/-! ### Preparing the scalars -/

lemma not_any_zip_tail {l : List Int} (h : l.Nodup) :
    ¬ ((l.zip l.tail).any fun p => p.1 == p.2) = true := by
  induction l with
  | nil => simp
  | cons x l ih =>
    rw [List.nodup_cons] at h
    cases l with
    | nil => simp
    | cons y l =>
      have hxy : ¬ x = y := fun hxy => h.1 (hxy ▸ List.mem_cons_self ..)
      have hrest := ih h.2
      simp only [List.tail_cons] at hrest ⊢
      rw [List.zip_cons_cons, List.any_cons]
      simpa [hxy] using hrest

section Prepare

variable {t : IntType} {scalars : List Int} {draws : List (BitVec 32 × BitVec 32)}

/-- The scalars in ascending order. -/
def sortScalars (scalars : List Int) : List Int := scalars.insertionSort (· ≤ ·)

lemma perm_sortScalars (scalars : List Int) : (sortScalars scalars).Perm scalars :=
  List.perm_insertionSort ..

lemma breakIntoScalars_eq (h2 : 2 ≤ scalars.length) (hmax : scalars.length ≤ maxNumScalars)
    (hnd : scalars.Nodup) (hr : ∀ s ∈ scalars, t.InRange s) :
    breakIntoScalars t scalars draws =
      if scalars.length ≤ optNumScalars then
        some ⟨scalars.length, t.max, sortScalars scalars, .empty⟩
      else (mkHashes (sortScalars scalars) draws).map fun table =>
        ⟨scalars.length, t.max, sortScalars scalars, table⟩ := by
  have hperm := perm_sortScalars scalars
  have hdup := not_any_zip_tail (hperm.nodup_iff.mpr hnd)
  have hrange : ∀ s ∈ sortScalars scalars, t.InRange s := fun s hs => hr s (hperm.mem_iff.mp hs)
  have hlen := hperm.length_eq
  have hne : ∀ s, scalars = [s] → False := by
    rintro s rfl
    simp at h2
  rw [sortScalars] at hdup hrange hlen
  rw [breakIntoScalars, if_neg (by omega)]
  · rw [if_neg hdup, if_neg (not_not.mpr hrange), hlen]
    rfl
  · exact hne

end Prepare

/-! ### Whole columns -/

/-- Where the code agrees with membership. -/
structure Agreement (t : IntType) (op : EqOp) (scalars : List Int)
    (draws : List (BitVec 32 × BitVec 32)) (col : List Int) : Prop where
  /-- `mk_hashes` comes to an end. -/
  chosen : optNumScalars < scalars.length →
    ∀ n, primeGeq (scalars.length * scalars.length) = some n →
      (chosenDraw n scalars draws).isSome
  /-- `==` on long lists. -/
  hashed : t ≠ .I8 → op = .eq → optNumScalars < scalars.length →
    ∀ n draw, primeGeq (scalars.length * scalars.length) = some n →
      chosenDraw n scalars draws = some draw → ∀ x ∈ col, HashAgrees n draw scalars x
  /-- `I8` -/
  wide : t = .I8 → ∀ x ∈ col, x ∈ scalars ↔ x = t.max

lemma member_perm (op : EqOp) {svals scalars : List Int} (hperm : svals.Perm scalars) :
    member op svals = member op scalars := by
  funext x
  cases op <;> simp only [member, hperm.mem_iff]

/-- Rows of an `I8` column. -/
lemma cmpRow_I8_eq_iff (op : EqOp) (sc : Scalars) (scalars : List Int) (x : Int) :
    cmpRow .I8 op sc x = member op scalars x ↔ (x ∈ scalars ↔ x = sc.sval) := by
  cases op with
  | eq => by_cases hx : x ∈ scalars <;> by_cases hs : x = sc.sval <;>
      simp [cmpRow, cmpEqScalar, member, hx, hs]
  | ne => by_cases hx : x ∈ scalars <;> by_cases hs : x = sc.sval <;>
      simp [cmpRow, cmpNeScalar, member, hx, hs]

lemma cmpRow_ne {t : IntType} {sc : Scalars} (ht : t ≠ .I8) (h1 : sc.numScalars ≠ 1) (x : Int) :
    cmpRow t .ne sc x = member .ne sc.svals x := by
  rw [← dbgCmpNeqMultScalar_eq]
  cases t with
  | I8 => exact absurd rfl ht
  | I1 | I2 | I4 => exact if_neg h1

lemma cmpRow_eq {t : IntType} {sc : Scalars} (ht : t ≠ .I8) (h1 : sc.numScalars ≠ 1) (x : Int) :
    cmpRow t .eq sc x = cmpEqMultScalar sc x := by
  cases t with
  | I8 => exact absurd rfl ht
  | I1 | I2 | I4 => exact if_neg h1

section Column

variable {t : IntType} {op : EqOp} {scalars : List Int} {draws : List (BitVec 32 × BitVec 32)}
  {col : List Int}

lemma agreement_short_iff (draws : List (BitVec 32 × BitVec 32)) {sc : Scalars}
    (h2 : 2 ≤ scalars.length) (hshort : scalars.length ≤ optNumScalars)
    (hnum : sc.numScalars = scalars.length)
    (hsval : sc.sval = t.max) (hsvals : sc.svals.Perm scalars) :
    (∀ x ∈ col, cmpRow t op sc x = member op scalars x) ↔ Agreement t op scalars draws col := by
  by_cases ht : t = .I8
  · subst ht
    simp only [cmpRow_I8_eq_iff, hsval]
    exact ⟨fun h => ⟨fun hl => absurd hl (by omega), fun hne => absurd rfl hne, fun _ => h⟩,
      fun h => h.wide rfl⟩
  · have hrow : ∀ x, cmpRow t op sc x = member op scalars x := by
      intro x
      rw [← member_perm op hsvals]
      cases op with
      | ne => exact cmpRow_ne ht (by omega) x
      | eq => rw [cmpRow_eq ht (by omega), cmpEqMultScalar, if_pos (by omega),
          dbgCmpEqMultScalar_eq]
    exact iff_of_true (fun x _ => hrow x)
      ⟨fun hl => absurd hl (by omega), fun _ _ hl => absurd hl (by omega), fun h => absurd h ht⟩

lemma agreement_long_iff {sc : Scalars} {n : Nat} {draw : BitVec 32 × BitVec 32}
    (hlong : optNumScalars < scalars.length)
    (hn : primeGeq (scalars.length * scalars.length) = some n)
    (hdraw : chosenDraw n scalars draws = some draw) (hnum : sc.numScalars = scalars.length)
    (hsval : sc.sval = t.max) (hsvals : sc.svals.Perm scalars)
    (htable : ∀ x, optCmpEqMultScalar sc.table x = member .eq scalars x ↔
      HashAgrees n draw scalars x) :
    (∀ x ∈ col, cmpRow t op sc x = member op scalars x) ↔ Agreement t op scalars draws col := by
  have hopt : optNumScalars = 8 := rfl
  have hchosen : ∀ n, primeGeq (scalars.length * scalars.length) = some n →
      (chosenDraw n scalars draws).isSome := by
    intro n' hn'
    rw [hn] at hn'
    cases hn'
    rw [hdraw]
    rfl
  by_cases ht : t = .I8
  · subst ht
    simp only [cmpRow_I8_eq_iff, hsval]
    exact ⟨fun h => ⟨fun _ => hchosen, fun hne => absurd rfl hne, fun _ => h⟩, fun h => h.wide rfl⟩
  · cases op with
    | ne =>
      refine iff_of_true (fun x _ => ?_)
        ⟨fun _ => hchosen, fun _ hop => (nomatch hop), fun h => absurd h ht⟩
      rw [cmpRow_ne ht (by omega), member_perm .ne hsvals]
    | eq =>
      have hrow : ∀ x, cmpRow t .eq sc x = member .eq scalars x ↔ HashAgrees n draw scalars x := by
        intro x
        rw [cmpRow_eq ht (by omega), cmpEqMultScalar, if_neg (by omega)]
        exact htable x
      simp only [hrow]
      constructor
      · intro h
        refine ⟨fun _ => hchosen, fun _ _ _ n' draw' hn' hdraw' => ?_, fun h => absurd h ht⟩
        rw [hn] at hn'
        cases hn'
        rw [hdraw] at hdraw'
        cases hdraw'
        exact h
      · intro h
        exact h.hashed ht rfl hlong n draw hn hdraw

end Column

theorem vecF1s1opf2_eq_member_iff (t : IntType) (op : EqOp) {scalars : List Int}
    (draws : List (BitVec 32 × BitVec 32)) (col : List Int) (h2 : 2 ≤ scalars.length)
    (hnd : scalars.Nodup) (hr : ∀ s ∈ scalars, t.InRange s) :
    vecF1s1opf2 t op scalars draws col = some (col.map (member op scalars)) ↔
      scalars.length ≤ maxNumScalars ∧ (partition col.length 8192 (-1)).isSome ∧
        Agreement t op scalars draws col := by
  rw [vecF1s1opf2, Option.bind_eq_bind]
  by_cases hmax : scalars.length ≤ maxNumScalars
  · have hperm := perm_sortScalars scalars
    rw [breakIntoScalars_eq h2 hmax hnd hr]
    by_cases hshort : scalars.length ≤ optNumScalars
    · rw [if_pos hshort, Option.bind_some, vecMap_eq_some_map_iff,
        agreement_short_iff draws h2 hshort rfl rfl hperm]
      simp [hmax]
    · obtain ⟨n, hn, hn1, -⟩ := primeGeq_sq (by omega : 1 ≤ scalars.length) hmax
      have hn' : primeGeq ((sortScalars scalars).length * (sortScalars scalars).length) = some n := by
        rw [hperm.length_eq]
        exact hn
      rw [if_neg hshort]
      cases hdraw : chosenDraw n scalars draws with
      | none =>
        rw [mkHashes_none hn' hn1 ((chosenDraw_perm draws hperm).trans hdraw)]
        refine iff_of_false (fun h => (nomatch h)) (fun h => ?_)
        have hsome := h.2.2.chosen (by omega) n hn
        rw [hdraw] at hsome
        cases hsome
      | some draw =>
        have hdraw' := (chosenDraw_perm draws hperm).trans hdraw
        obtain ⟨hashes, hmk, hget⟩ := mkHashes_some (by rw [hperm.length_eq]; omega)
          (by rw [hperm.length_eq]; exact hmax) hn' hn1 hdraw'
        have hnc : NoCollision n (sortScalars scalars) draw := by
          simpa using List.find?_some hdraw'
        have htable : ∀ x, optCmpEqMultScalar ⟨n, draw.1, draw.2, hashes⟩ x =
            member .eq scalars x ↔ HashAgrees n draw scalars x := by
          intro x
          rw [← member_perm .eq hperm, ← hashAgrees_perm hperm x]
          exact optCmpEqMultScalar_eq_iff hnc hget x
        rw [hmk, Option.map_some, Option.bind_some, vecMap_eq_some_map_iff,
          agreement_long_iff (by omega) hn hdraw rfl rfl hperm htable]
        simp [hmax]
  · have hnone : breakIntoScalars t scalars draws = none := if_pos (by omega)
    rw [hnone]
    exact iff_of_false (fun h => (nomatch h)) (fun h => hmax h.1)

/-- Nine scalars are hashed; small numbers keep their places. -/
theorem vecF1s1opf2_eq_member_nine :
    (∀ s ∈ [1, 2, 3, 4, 5, 6, 7, 8, 9], IntType.I4.InRange s) ∧
      vecF1s1opf2 .I4 .eq [1, 2, 3, 4, 5, 6, 7, 8, 9] [(2, 3)] [5, 12] =
        some ([5, 12].map (member .eq [1, 2, 3, 4, 5, 6, 7, 8, 9])) := by
  have hr : ∀ s ∈ [1, 2, 3, 4, 5, 6, 7, 8, 9], IntType.I4.InRange s := by decide
  have hn : primeGeq (9 * 9) = some 83 := by decide +kernel
  have hdraw : chosenDraw 83 [1, 2, 3, 4, 5, 6, 7, 8, 9] [(2, 3)] = some (2, 3) := by
    decide +kernel
  refine ⟨hr, (vecF1s1opf2_eq_member_iff .I4 .eq [(2, 3)] [5, 12] (by decide) (by decide) hr).mpr
    ⟨by decide, by decide, ?_, ?_, ?_⟩⟩
  · intro _ n hn'
    cases hn.symm.trans hn'
    rw [hdraw]
    rfl
  · intro _ _ _ n draw hn' hdraw' x hx
    cases hn.symm.trans hn'
    cases hdraw.symm.trans hdraw'
    rcases List.mem_pair.mp hx with rfl | rfl
    · exact .inl (by decide +kernel)
    · exact fun h => absurd h (by decide)
  · intro h
    cases h

/-- An `I8` column is not compared with the scalars at all, and a large number is hashed to one
place and looked for in another. -/
theorem vecF1s1opf2_ne_member :
    vecF1s1opf2 .I8 .eq [5, 6] [] [5] ≠ some ([5].map (member .eq [5, 6])) ∧
      vecF1s1opf2 .I4 .eq [1, 2, 3, 4, 5, 6, 7, 8, 1000000000] [(3, 3)] [1000000000] ≠
        some ([1000000000].map (member .eq [1, 2, 3, 4, 5, 6, 7, 8, 1000000000])) := by
  constructor
  · decide +kernel
  · decide +kernel

end Datacl
