import Datacl.Lib.CInt
import Mathlib.Data.List.Basic

/-!
# The range join: `rng_join.c`

The ranges have ascending bounds and the values ascend, so a row goes on where the row before has
stopped. A row can stop before a range, inside of one, or behind the last one; only the first of these
sets `is_any_null` for a row without a value, and behind the last range the index stays -1.
-/

namespace Datacl

/-- The columns of a range join: `(flb, fub)` of the ranges, `ffrom` if there is one, and `fin`. -/
structure RngJoinArgs where
  ranges : List (Int × Int)
  ffrom : Option (List Int)
  fin : List Int

/-- `start_t1_idx`, `is_any_null`, and `t1idx` and `nn` of the row. -/
structure RngScan where
  startT1Idx : Nat
  isAnyNull : Bool
  t1idx : Int
  nn : Bool

/-- The inner loop, from the range with number `j` on. -/
def rngScan (finval : Int) : Nat → List (Int × Int) → RngScan → RngScan
  | _, [], s => s
  | j, (flb, fub) :: ranges, s =>
    if finval < flb then { s with isAnyNull := true, t1idx := 0, nn := false }
    else if flb ≤ finval ∧ finval ≤ fub then { s with t1idx := CInt.wrap 32 j, nn := true }
    else rngScan finval (j + 1) ranges { s with startT1Idx := s.startT1Idx + 1 }

/-- `ffromI4[t1idx]`, or the index if there is no such column. -/
def fromAt (ffrom : Option (List Int)) (t1idx : Int) : Option Int :=
  match ffrom with
  | none => some t1idx
  | some ffromI4 => if t1idx < 0 then none else ffromI4[t1idx.toNat]?

/-- The output columns and `is_any_null`. -/
structure RngJoinOut where
  fout : List Int
  nnFout : List Bool
  isAnyNull : Bool

/-- The rows of `fin`, one after another. It fails if `ffrom` is read outside of its bounds. -/
def rngLoop (ranges : List (Int × Int)) (ffrom : Option (List Int)) :
    Nat → Bool → List Int → Option RngJoinOut
  | _, isAnyNull, [] => some ⟨[], [], isAnyNull⟩
  | startT1Idx, isAnyNull, finval :: fin =>
    let s := rngScan finval startT1Idx (ranges.drop startT1Idx) ⟨startT1Idx, isAnyNull, -1, true⟩
    let nn := if s.t1idx < 0 then false else s.nn
    match fromAt ffrom s.t1idx with
    | none => none
    | some x =>
      (rngLoop ranges ffrom s.startT1Idx s.isAnyNull fin).map fun out =>
        ⟨x :: out.fout, nn :: out.nnFout, out.isAnyNull⟩

/-- `rng_join`. A null column is added if `is_any_null` is set. -/
def rngJoin (args : RngJoinArgs) : Option RngJoinOut :=
  if 2 ^ 31 - 1 ≤ args.ranges.length then none
  else rngLoop args.ranges args.ffrom 0 false args.fin

/-- The value lies in the range. -/
def InBounds (v : Int) (r : Int × Int) : Prop := r.1 ≤ v ∧ v ≤ r.2

instance (v : Int) (r : Int × Int) : Decidable (InBounds v r) := inferInstanceAs (Decidable (_ ∧ _))

/-- The lowest-numbered range that contains a value. -/
def firstRange (ranges : List (Int × Int)) (v : Int) : Option Nat :=
  ranges.findIdx? fun r => InBounds v r

/-- The join gives every value that lies in a range what belongs to the first such range, and there is a
null column if a value lies in none. -/
def RngJoinRight (args : RngJoinArgs) (result : Option RngJoinOut) : Prop :=
  ∃ out, result = some out ∧
    out.nnFout = args.fin.map (fun v => (firstRange args.ranges v).isSome) ∧
    (∀ (i : Nat) (v : Int) (j : Nat), args.fin[i]? = some v → firstRange args.ranges v = some j →
      out.fout[i]? = fromAt args.ffrom j) ∧
    (out.isAnyNull = true ↔ false ∈ out.nnFout)

/-- A value above all ranges. -/
def PastAll (ranges : List (Int × Int)) (v : Int) : Prop := ∀ r ∈ ranges, r.2 < v

instance (ranges : List (Int × Int)) (v : Int) : Decidable (PastAll ranges v) :=
  inferInstanceAs (Decidable (∀ r ∈ ranges, r.2 < v))

/-- A value below a range that lies in none. -/
def InGap (ranges : List (Int × Int)) (v : Int) : Prop :=
  (∀ r ∈ ranges, ¬ InBounds v r) ∧ ¬ PastAll ranges v

/-- No value is above all ranges; or only indices are asked for, and some other value lies in no range
either. -/
def RngJoinCond (args : RngJoinArgs) : Prop :=
  (∀ v ∈ args.fin, ¬ PastAll args.ranges v) ∨
    (args.ffrom = none ∧ ∃ v ∈ args.fin, InGap args.ranges v)

/-- What a range join expects of its columns. -/
structure RngJoinArgs.Sorted (args : RngJoinArgs) : Prop where
  flb : (args.ranges.map Prod.fst).Pairwise (· ≤ ·)
  fub : (args.ranges.map Prod.snd).Pairwise (· ≤ ·)
  le : ∀ r ∈ args.ranges, r.1 ≤ r.2
  fin : args.fin.Pairwise (· ≤ ·)
  ffrom : ∀ ffromI4, args.ffrom = some ffromI4 → ffromI4.length = args.ranges.length

/-! ### One row -/

section

variable {ranges pre post : List (Int × Int)} {ffrom : Option (List Int)} {fin : List Int} {v : Int}
  {j start : Nat} {s : RngScan} {isAnyNull : Bool}

/-- Ranges below the value are passed. -/
lemma rngScan_append (hpre : ∀ r ∈ pre, r.1 ≤ r.2 ∧ r.2 < v) :
    rngScan v j (pre ++ post) s =
      rngScan v (j + pre.length) post { s with startT1Idx := s.startT1Idx + pre.length } := by
  induction pre generalizing j s with
  | nil => rfl
  | cons r pre ih =>
    obtain ⟨flb, fub⟩ := r
    rw [List.forall_mem_cons] at hpre
    dsimp only at hpre
    rw [List.cons_append, rngScan, if_neg (by omega), if_neg (by omega), ih hpre.2, List.length_cons]
    dsimp only
    rw [Nat.add_assoc, Nat.add_comm 1, Nat.add_assoc, Nat.add_comm 1]

/-- The ranges below a value are the first ones. -/
lemma exists_split (hfub : (ranges.map Prod.snd).Pairwise (· ≤ ·)) (v : Int) :
    ∃ pre post, ranges = pre ++ post ∧ (∀ r ∈ pre, r.2 < v) ∧ ∀ r ∈ post, v ≤ r.2 := by
  induction ranges with
  | nil => exact ⟨[], [], rfl, by simp, by simp⟩
  | cons r ranges ih =>
    rw [List.map_cons, List.pairwise_cons] at hfub
    by_cases hr : r.2 < v
    · obtain ⟨pre, post, rfl, hpre, hpost⟩ := ih hfub.2
      exact ⟨r :: pre, post, rfl, List.forall_mem_cons.mpr ⟨hr, hpre⟩, hpost⟩
    · refine ⟨[], r :: ranges, rfl, by simp, List.forall_mem_cons.mpr ⟨not_lt.mp hr, ?_⟩⟩
      exact fun r' hr' => (not_lt.mp hr).trans (hfub.1 _ (List.mem_map_of_mem hr'))

lemma firstRange_eq_none_iff : firstRange ranges v = none ↔ ∀ r ∈ ranges, ¬ InBounds v r := by
  simp [firstRange, List.findIdx?_eq_none_iff]

lemma PastAll.firstRange (h : PastAll ranges v) : firstRange ranges v = none :=
  firstRange_eq_none_iff.mpr fun r hr hin => absurd hin.2 (not_le.mpr (h r hr))

/-- A value that lies in no range is above all of them or in a gap. -/
lemma firstRange_eq_none_iff_past : firstRange ranges v = none ↔ PastAll ranges v ∨ InGap ranges v := by
  constructor
  · intro h
    by_cases hpast : PastAll ranges v
    · exact .inl hpast
    · exact .inr ⟨firstRange_eq_none_iff.mp h, hpast⟩
  · rintro (hpast | hgap)
    · exact hpast.firstRange
    · exact firstRange_eq_none_iff.mpr hgap.1

lemma firstRange_append {r : Int × Int} (hpre : ∀ r ∈ pre, r.2 < v) (hr : InBounds v r) :
    firstRange (pre ++ r :: post) v = some pre.length := by
  have hnone : pre.findIdx? (fun r => InBounds v r) = none := PastAll.firstRange hpre
  rw [firstRange, List.findIdx?_append, hnone, List.findIdx?_cons, if_pos (decide_eq_true hr)]
  simp

/-- A row stops behind all ranges, before one in a gap, or in the first range that contains it. -/
lemma rngScan_cases (isAnyNull : Bool) (hflb : (ranges.map Prod.fst).Pairwise (· ≤ ·))
    (hfub : (ranges.map Prod.snd).Pairwise (· ≤ ·)) (hle : ∀ r ∈ ranges, r.1 ≤ r.2)
    (hstart : ∀ r ∈ ranges.take start, r.2 < v) (hlen : start ≤ ranges.length) :
    ∃ start' ≤ ranges.length, (∀ r ∈ ranges.take start', r.2 < v) ∧
      let s := rngScan v start (ranges.drop start) ⟨start, isAnyNull, -1, true⟩
      (PastAll ranges v ∧ s = ⟨start', isAnyNull, -1, true⟩) ∨
        (InGap ranges v ∧ s = ⟨start', true, 0, false⟩) ∨
        ∃ j < ranges.length, firstRange ranges v = some j ∧
          s = ⟨start', isAnyNull, CInt.wrap 32 j, true⟩ := by
  obtain ⟨pre, post, rfl, hpre, hpost⟩ := exists_split hfub v
  have hshort : start ≤ pre.length := by
    by_contra hlt
    obtain ⟨n, rfl⟩ : ∃ n, start = pre.length + (n + 1) := ⟨start - pre.length - 1, by omega⟩
    rw [List.length_append] at hlen
    cases post with
    | nil =>
      rw [List.length_nil] at hlen
      omega
    | cons r post =>
      rw [List.take_length_add_append, List.take_succ_cons] at hstart
      have hr := hstart r (List.mem_append_right _ List.mem_cons_self)
      exact absurd (hpost r List.mem_cons_self) (not_le.mpr hr)
  have hpassed : ∀ r ∈ pre.drop start, r.1 ≤ r.2 ∧ r.2 < v := fun r hr =>
    ⟨hle r (List.mem_append_left _ (List.mem_of_mem_drop hr)), hpre r (List.mem_of_mem_drop hr)⟩
  have hnext : start + (pre.drop start).length = pre.length := by
    rw [List.length_drop]
    omega
  refine ⟨pre.length, by rw [List.length_append]; omega, by rwa [List.take_left], ?_⟩
  dsimp only
  rw [List.drop_append_of_le_length hshort, rngScan_append hpassed, hnext]
  dsimp only
  cases post with
  | nil =>
    rw [List.append_nil]
    exact .inl ⟨hpre, rfl⟩
  | cons r post =>
    obtain ⟨flb, fub⟩ := r
    have hfubv : v ≤ fub := hpost (flb, fub) List.mem_cons_self
    rw [rngScan]
    by_cases hlt : v < flb
    · refine .inr (.inl ⟨⟨?_, ?_⟩, by rw [if_pos hlt]⟩)
      · intro r hr hin
        rcases List.mem_append.mp hr with hr | hr
        · exact absurd hin.2 (not_le.mpr (hpre r hr))
        · -- the lower bounds ascend
          rw [List.map_append, List.pairwise_append, List.map_cons, List.pairwise_cons] at hflb
          have hfst : flb ≤ r.1 := by
            rcases List.mem_cons.mp hr with rfl | hr
            · exact le_rfl
            · exact hflb.2.1.1 r.1 (List.mem_map_of_mem hr)
          exact absurd (hfst.trans hin.1) (not_le.mpr hlt)
      · intro hpast
        exact absurd (hpast (flb, fub) (by simp)) (not_lt.mpr hfubv)
    · have hin : flb ≤ v ∧ v ≤ fub := ⟨not_lt.mp hlt, hfubv⟩
      refine .inr (.inr ⟨pre.length, by simp, firstRange_append hpre hin, ?_⟩)
      rw [if_neg hlt, if_pos hin]

/-! ### All rows -/

/-- The index of a range fits in an `int`. -/
lemma wrap_index (hj : j < ranges.length) (hlen : ranges.length < 2 ^ 31 - 1) :
    CInt.wrap 32 (j : Int) = j := CInt.wrap_of_lt (by omega) (by omega)

lemma fromAt_isSome (hfrom : ∀ ffromI4, ffrom = some ffromI4 → ffromI4.length = ranges.length)
    (hj : j < ranges.length) : ∃ x, fromAt ffrom (j : Int) = some x := by
  cases ffrom with
  | none => exact ⟨j, rfl⟩
  | some ffromI4 =>
    have hlen := hfrom ffromI4 rfl
    refine ⟨ffromI4[j], ?_⟩
    rw [fromAt, if_neg (by omega), Int.toNat_natCast, List.getElem?_eq_getElem (by omega)]

lemma InGap.length_pos (h : InGap ranges v) : 0 < ranges.length := by
  rw [List.length_pos_iff]
  rintro rfl
  exact h.2 (by simp [PastAll])

/-- What a row gets: its value, its null flag and `is_any_null` after it. -/
structure RowRight (ranges : List (Int × Int)) (ffrom : Option (List Int)) (isAnyNull : Bool) (v : Int)
    (x : Int) (nn isAnyNull' : Bool) : Prop where
  nn : nn = (firstRange ranges v).isSome
  value : ∀ j : Nat, firstRange ranges v = some j → some x = fromAt ffrom j
  null : isAnyNull' = true ↔ isAnyNull = true ∨ InGap ranges v

/-- What all rows get. -/
structure RowsRight (ranges : List (Int × Int)) (ffrom : Option (List Int)) (isAnyNull : Bool)
    (fin : List Int) (out : RngJoinOut) : Prop where
  nn : out.nnFout = fin.map (fun v => (firstRange ranges v).isSome)
  value : ∀ (i : Nat) (v : Int) (j : Nat), fin[i]? = some v → firstRange ranges v = some j →
    out.fout[i]? = fromAt ffrom j
  null : out.isAnyNull = true ↔ isAnyNull = true ∨ ∃ v ∈ fin, InGap ranges v

lemma RowsRight.cons {x : Int} {nn isAnyNull' : Bool} {out : RngJoinOut}
    (hrow : RowRight ranges ffrom isAnyNull v x nn isAnyNull')
    (h : RowsRight ranges ffrom isAnyNull' fin out) :
    RowsRight ranges ffrom isAnyNull (v :: fin) ⟨x :: out.fout, nn :: out.nnFout, out.isAnyNull⟩ := by
  refine ⟨?_, ?_, ?_⟩
  · rw [List.map_cons, hrow.nn, h.nn]
  · intro i v' j hi hj
    cases i with
    | zero =>
      obtain rfl : v = v' := by simpa using hi
      exact hrow.value j hj
    | succ i => exact h.value i v' j (by simpa using hi) hj
  · simp only [h.null, hrow.null, List.mem_cons, exists_eq_or_imp, or_assoc]

/-- A row that is above all ranges has no value, and this is not recorded. -/
lemma RowRight.past (h : PastAll ranges v) (x : Int) : RowRight ranges ffrom isAnyNull v x false isAnyNull := by
  refine ⟨by rw [h.firstRange]; rfl, ?_, ?_⟩
  · intro j hj
    rw [h.firstRange] at hj
    cases hj
  · exact (or_iff_left fun hgap : InGap ranges v => hgap.2 h).symm

lemma RowRight.gap (h : InGap ranges v) (x : Int) : RowRight ranges ffrom isAnyNull v x false true := by
  have hnone := firstRange_eq_none_iff.mpr h.1
  refine ⟨by rw [hnone]; rfl, ?_, iff_of_true rfl (.inr h)⟩
  intro j hj
  rw [hnone] at hj
  cases hj

lemma RowRight.inside {x : Int} (h : firstRange ranges v = some j) (hx : fromAt ffrom j = some x) :
    RowRight ranges ffrom isAnyNull v x true isAnyNull := by
  refine ⟨by rw [h]; rfl, ?_, ?_⟩
  · intro j' hj'
    rw [h, Option.some_inj] at hj'
    rw [← hx, hj']
  · refine (or_iff_left fun hgap : InGap ranges v => ?_).symm
    rw [firstRange_eq_none_iff.mpr hgap.1] at h
    cases h

section

variable (isAnyNull) (hflb : (ranges.map Prod.fst).Pairwise (· ≤ ·))
  (hfub : (ranges.map Prod.snd).Pairwise (· ≤ ·)) (hle : ∀ r ∈ ranges, r.1 ≤ r.2)
include hflb hfub hle

/-- One row, if it does not read outside. -/
lemma rngScan_row (hfrom : ∀ ffromI4, ffrom = some ffromI4 → ffromI4.length = ranges.length)
    (hmax : ranges.length < 2 ^ 31 - 1) (hstart : ∀ r ∈ ranges.take start, r.2 < v)
    (hlen : start ≤ ranges.length) (hok : ffrom = none ∨ ¬ PastAll ranges v) :
    let s := rngScan v start (ranges.drop start) ⟨start, isAnyNull, -1, true⟩
    s.startT1Idx ≤ ranges.length ∧ (∀ r ∈ ranges.take s.startT1Idx, r.2 < v) ∧
      ∃ x, fromAt ffrom s.t1idx = some x ∧
        RowRight ranges ffrom isAnyNull v x (if s.t1idx < 0 then false else s.nn) s.isAnyNull := by
  obtain ⟨start', hlen', hstart', hcases⟩ := rngScan_cases isAnyNull hflb hfub hle hstart hlen
  rcases hcases with ⟨hpast, hs⟩ | ⟨hgap, hs⟩ | ⟨j, hj, hfirst, hs⟩
  · dsimp only
    rw [hs]
    refine ⟨hlen', hstart', -1, ?_, .past hpast _⟩
    rw [hok.resolve_right (not_not_intro hpast)]
    rfl
  · dsimp only
    rw [hs]
    obtain ⟨x, hx⟩ := fromAt_isSome hfrom hgap.length_pos
    exact ⟨hlen', hstart', x, hx, .gap hgap x⟩
  · dsimp only
    rw [hs]
    obtain ⟨x, hx⟩ := fromAt_isSome hfrom hj
    dsimp only
    rw [wrap_index hj hmax, if_neg (by omega)]
    exact ⟨hlen', hstart', x, hx, .inside hfirst hx⟩

/-- The rows, if none of them reads outside. -/
lemma rngLoop_ok (hfrom : ∀ ffromI4, ffrom = some ffromI4 → ffromI4.length = ranges.length)
    (hmax : ranges.length < 2 ^ 31 - 1) (hfin : fin.Pairwise (· ≤ ·)) (hlen : start ≤ ranges.length)
    (hstart : ∀ r ∈ ranges.take start, ∀ v ∈ fin, r.2 < v)
    (hok : ffrom = none ∨ ∀ v ∈ fin, ¬ PastAll ranges v) :
    ∃ out, rngLoop ranges ffrom start isAnyNull fin = some out ∧
      RowsRight ranges ffrom isAnyNull fin out := by
  induction fin generalizing start isAnyNull with
  | nil => exact ⟨⟨[], [], isAnyNull⟩, rfl, rfl, by simp, by simp⟩
  | cons v fin ih =>
    rw [List.pairwise_cons] at hfin
    obtain ⟨hlen', hstart', x, hx, hrow⟩ := rngScan_row isAnyNull hflb hfub hle hfrom hmax
      (fun r hr => hstart r hr v List.mem_cons_self) hlen (hok.imp_right fun h => h v List.mem_cons_self)
    obtain ⟨out, hout, hrows⟩ := ih _ hfin.2 hlen'
      (fun r hr v' hv' => (hstart' r hr).trans_le (hfin.1 v' hv'))
      (hok.imp_right fun h v hv => h v (List.mem_cons_of_mem _ hv))
    refine ⟨_, ?_, hrows.cons hrow⟩
    simp only [rngLoop, hx, hout]
    rfl

/-- A row above all ranges reads `ffrom` outside of its bounds. -/
lemma rngLoop_outside {ffromI4 : List Int} (hfin : fin.Pairwise (· ≤ ·)) (hlen : start ≤ ranges.length)
    (hstart : ∀ r ∈ ranges.take start, ∀ v ∈ fin, r.2 < v) (hpast : ∃ v ∈ fin, PastAll ranges v) :
    rngLoop ranges (some ffromI4) start isAnyNull fin = none := by
  induction fin generalizing start isAnyNull with
  | nil => simp at hpast
  | cons v fin ih =>
    rw [List.pairwise_cons] at hfin
    obtain ⟨start', hlen', hstart', hcases⟩ := rngScan_cases isAnyNull hflb hfub hle
      (fun r hr => hstart r hr v List.mem_cons_self) hlen
    rw [rngLoop]
    by_cases hv : PastAll ranges v
    · have hs : (rngScan v start (ranges.drop start) ⟨start, isAnyNull, -1, true⟩).t1idx = -1 := by
        rcases hcases with ⟨-, hs⟩ | ⟨hgap, -⟩ | ⟨j, -, hfirst, -⟩
        · rw [hs]
        · exact absurd hv hgap.2
        · rw [hv.firstRange] at hfirst
          cases hfirst
      simp only [hs]
      rfl
    · have hrest : ∃ v ∈ fin, PastAll ranges v := by
        simp only [List.mem_cons, exists_eq_or_imp] at hpast
        exact hpast.resolve_left hv
      have hstart'' : (rngScan v start (ranges.drop start) ⟨start, isAnyNull, -1, true⟩).startT1Idx =
          start' := by
        rcases hcases with ⟨-, hs⟩ | ⟨-, hs⟩ | ⟨j, -, -, hs⟩ <;> rw [hs]
      simp only [hstart'', ih _ hfin.2 hlen' (fun r hr v' hv' => (hstart' r hr).trans_le (hfin.1 v' hv')) hrest]
      split <;> rfl

end

end

/-- The range join is right exactly if no value is above all ranges, or else only indices are asked for
and the null column is added on account of another value. -/
theorem rngJoin_right_iff (args : RngJoinArgs) (hsorted : args.Sorted)
    (hmax : args.ranges.length < 2 ^ 31 - 1) : RngJoinRight args (rngJoin args) ↔ RngJoinCond args := by
  rw [rngJoin, if_neg (by omega)]
  have hstart : ∀ r ∈ args.ranges.take 0, ∀ v ∈ args.fin, r.2 < v := by simp
  by_cases hok : args.ffrom = none ∨ ∀ v ∈ args.fin, ¬ PastAll args.ranges v
  · obtain ⟨out, hout, hrows⟩ := rngLoop_ok false hsorted.flb hsorted.fub hsorted.le
      hsorted.ffrom hmax hsorted.fin (Nat.zero_le _) hstart hok
    have hnull : out.isAnyNull = true ↔ ∃ v ∈ args.fin, InGap args.ranges v :=
      hrows.null.trans (or_iff_right Bool.false_ne_true)
    have hmem : false ∈ out.nnFout ↔
        ∃ v ∈ args.fin, PastAll args.ranges v ∨ InGap args.ranges v := by
      simp only [hrows.nn, List.mem_map, Option.isSome_eq_false_iff, Option.isNone_iff_eq_none,
        firstRange_eq_none_iff_past]
    have hright : RngJoinRight args (some out) ↔
        ((∃ v ∈ args.fin, PastAll args.ranges v ∨ InGap args.ranges v) →
          ∃ v ∈ args.fin, InGap args.ranges v) := by
      constructor
      · rintro ⟨out', hout', -, -, hadds⟩ hexists
        obtain rfl := Option.some_inj.mp hout'
        exact hnull.mp (hadds.mpr (hmem.mpr hexists))
      · intro h
        refine ⟨out, rfl, hrows.nn, hrows.value, ?_⟩
        rw [hnull, hmem]
        exact ⟨fun ⟨v, hv, hgap⟩ => ⟨v, hv, .inr hgap⟩, h⟩
    rw [hout, hright]
    constructor
    · intro h
      by_cases hpast : ∃ v ∈ args.fin, PastAll args.ranges v
      · obtain ⟨v, hv, hp⟩ := hpast
        exact .inr ⟨hok.resolve_right fun hall => hall v hv hp, h ⟨v, hv, .inl hp⟩⟩
      · exact .inl fun v hv hp => hpast ⟨v, hv, hp⟩
    · rintro (hnone | ⟨-, hgap⟩) ⟨v, hv, hcase⟩
      · exact ⟨v, hv, hcase.resolve_left (hnone v hv)⟩
      · exact hgap
  · obtain ⟨hsome, hpast⟩ := not_or.mp hok
    obtain ⟨ffromI4, hffrom⟩ := Option.ne_none_iff_exists'.mp hsome
    push Not at hpast
    refine iff_of_false ?_ ?_
    · rintro ⟨out, hout, -⟩
      rw [hffrom, rngLoop_outside false hsorted.flb hsorted.fub hsorted.le hsorted.fin (Nat.zero_le _) hstart
        hpast] at hout
      cases hout
    · rintro (hnone | ⟨hnone, -⟩)
      · obtain ⟨v, hv, hp⟩ := hpast
        exact hnone v hv hp
      · exact hsome hnone

/-- Values before, in, between and in the ranges. -/
def fourRows : RngJoinArgs := ⟨[(1, 2), (4, 6)], some [10, 20], [0, 1, 3, 5]⟩

theorem rngJoin_right_four : RngJoinRight fourRows (rngJoin fourRows) := by
  have hsorted : fourRows.Sorted := by
    refine ⟨by decide, by decide, by decide, by decide, ?_⟩
    intro ffromI4 h
    rw [← Option.some_inj.mp (show some [10, 20] = some ffromI4 from h)]
    rfl
  exact (rngJoin_right_iff fourRows hsorted (by decide)).mpr (.inl (by decide))

/-- The only value is above the only range: it gets no value, and no null column is added. -/
theorem not_rngJoin_right :
    ¬ ∀ args : RngJoinArgs, args.Sorted → args.ranges.length < 2 ^ 31 - 1 →
      RngJoinRight args (rngJoin args) := by
  intro h
  have hsorted : (⟨[(1, 2)], none, [3]⟩ : RngJoinArgs).Sorted := by
    refine ⟨by decide, by decide, by decide, by decide, ?_⟩
    rintro _ hnone
    cases hnone
  obtain ⟨out, hout, -, -, hadds⟩ := h ⟨[(1, 2)], none, [3]⟩ hsorted (by decide)
  have hrun : rngJoin ⟨[(1, 2)], none, [3]⟩ = some ⟨[-1], [false], false⟩ := by rfl
  rw [hrun, Option.some_inj] at hout
  subst hout
  exact absurd (hadds.mpr (by simp)) Bool.false_ne_true

end Datacl
