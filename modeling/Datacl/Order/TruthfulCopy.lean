import Datacl.Order.TruthfulSort

/-!
# The recorded order and copying

`copy_fld_ranges`, `t1f1t2f2opt3f3` and `app_fld`.
-/

namespace Datacl

variable {env : Env} {s s' : Store}

/-! ### Copying ranges -/

lemma copyRanges_state {rng : RangeArg} {ranges : List (Int × Int)}
    (h : copyRanges env rng s = (some ranges, s')) : s' = s := by
  cases rng with
  | rows lb ub => exact (Cmd.pure_eq_some.mp h).2
  | tbl rngTbl lb ub =>
    rw [copyRanges] at h
    obtain ⟨-, h⟩ := Cmd.require_bind_eq_some.mp h
    obtain ⟨-, h⟩ := Cmd.require_bind_eq_some.mp h
    obtain ⟨-, h⟩ := Cmd.require_bind_eq_some.mp h
    rw [Cmd.get_bind] at h
    obtain ⟨rngTblId, -, h⟩ := Cmd.ofOption_bind_eq_some.mp h
    exact getRanges_state h

/-- `copy_fld_ranges` copies from a column that is recorded as sorted only if no value of a range
comes after a value of a later range. -/
def CopyOk (env : Env) (s : Store) (t1 f1 : Name) (rng : RangeArg) : Prop :=
  ∀ r x ranges, column s t1 f1 = some (r, x) → copyRanges env rng s = (some ranges, s) →
    ∀ d : SortDir, r.srttype = d.srttype → ranges.Pairwise fun a b =>
      ∀ u ∈ sliceRows x.cells a, ∀ v ∈ sliceRows x.cells b,
        d.le (cellKey r.fldtype u) (cellKey r.fldtype v)

lemma mem_of_mem_slices {cells : List Int} {ranges : List (Int × Int)} {x : Int}
    (h : x ∈ ranges.flatMap (sliceRows cells)) : x ∈ cells := by
  obtain ⟨r, -, hx⟩ := List.mem_flatMap.mp h
  exact (sliceRows_sublist cells r).subset hx

lemma pairwise_slices {R : Int → Int → Prop} {cells : List Int} {ranges : List (Int × Int)}
    (hcells : cells.Pairwise R) (hranges : ranges.Pairwise fun a b =>
      ∀ u ∈ sliceRows cells a, ∀ v ∈ sliceRows cells b, R u v) :
    (ranges.flatMap (sliceRows cells)).Pairwise R :=
  List.pairwise_flatMap.mpr ⟨fun r _ => hcells.sublist (sliceRows_sublist cells r), hranges⟩

lemma copyFldInfo_shrinks {dst src : Nat} {mode : FldInfoMode}
    (h : copyFldInfo dst src mode s = (some (), s')) : Shrinks s s' := by
  unfold copyFldInfo at h
  rw [Cmd.get_bind] at h
  rcases Cmd.when_eq_some.mp h with ⟨-, h⟩ | ⟨-, rfl⟩
  · have := onInfo_shrinks (addToFldInfo s.flds.length dst mode (getFldInfo mode src s.info)) s
    rwa [h] at this
  · exact Shrinks.refl s'

lemma copyMeta_eq_some {dst src : Nat} (h : copyMeta dst src s = (some (), s')) :
    dst ≠ src ∧
      Shrinks (s.setFld dst { s.fld dst with srttype := (s.fld src).srttype }) s' := by
  unfold copyMeta at h
  obtain ⟨hne, h⟩ := Cmd.require_bind_eq_some.mp h
  rw [Cmd.modify_bind] at h
  obtain ⟨_, s₁, h1, h⟩ := Cmd.bind_eq_some.mp h
  obtain ⟨_, s₂, h2, h3⟩ := Cmd.bind_eq_some.mp h
  exact ⟨hne, ((copyFldInfo_shrinks h1).trans (copyFldInfo_shrinks h2)).trans
    (copyFldInfo_shrinks h3)⟩

lemma copyTarget_shrinks {t2 : Name} {nR2 : Int} {t : Option Nat} {t2Id : Nat}
    (h : copyTarget env t2 nR2 t s = (some t2Id, s')) : Shrinks s s' := by
  cases t with
  | none => exact (Deletes.addTbl env t2 nR2).shrinks h
  | some t =>
    rw [copyTarget, Cmd.get_bind] at h
    obtain ⟨-, h⟩ := Cmd.require_bind_eq_some.mp h
    obtain ⟨-, rfl⟩ := Cmd.pure_eq_some.mp h
    exact Shrinks.refl s'

/-- The file for the null values is new, like the one of the column. -/
lemma SortInv.copyNnFile (h : SortInv [] s) {d n : Int} {f : DataFile} (hfresh : Fresh s d n f)
    {ranges : List (Int × Int)} {nn : Option DataFile} {nnFile : Option (DataFile × Int × Int)}
    (hrun : copyNnFile env ranges nn s = (some nnFile, s')) :
    SortInv [] s' ∧ Fresh s' d n f ∧ (∀ j, s'.fld j = s.fld j) ∧
      ∀ x d' n', nnFile = some (x, d', n') → Fresh s' d' n' x ∧ n ≠ n' := by
  cases nn with
  | none =>
    obtain ⟨rfl, rfl⟩ := Cmd.pure_eq_some.mp hrun
    exact ⟨h, hfresh, fun _ => rfl, by simp⟩
  | some x =>
    rw [Datacl.copyNnFile] at hrun
    obtain ⟨⟨d', n'⟩, s₁, htemp, hret⟩ := Cmd.bind_eq_some.mp hrun
    obtain ⟨rfl, rfl⟩ := Cmd.pure_eq_some.mp hret
    obtain ⟨hinv, hfresh', hflds⟩ := h.mkTempFile htemp
    obtain ⟨hkeep, hne⟩ := hfresh.mkTempFile htemp
    refine ⟨hinv, hkeep, hflds, fun y e m heq => ?_⟩
    obtain ⟨rfl, rfl, rfl⟩ : _ = y ∧ d' = e ∧ n' = m := by simpa using heq
    exact ⟨hfresh', hne⟩

lemma SortInv.copyNn (h : SortInv [] s) {nnFile : Option (DataFile × Int × Int)}
    (hfresh : ∀ x d n, nnFile = some (x, d, n) → Fresh s d n x) {t2Id f2Id : Nat} {nR2 : Int}
    (hrun : copyNn env t2Id f2Id nR2 nnFile s = (some (), s')) : SortInv [] s' := by
  cases nnFile with
  | none =>
    obtain ⟨-, rfl⟩ := Cmd.pure_eq_some.mp hrun
    exact h
  | some file =>
    obtain ⟨x, d, n⟩ := file
    rw [Datacl.copyNn] at hrun
    obtain ⟨_, s₁, hdel, hrun⟩ := Cmd.bind_eq_some.mp hrun
    have hs₁ : Shrinks s s₁ := (Deletes.when _ (Deletes.qDelete env d n)).shrinks hdel
    rcases Cmd.when_eq_some.mp hrun with ⟨-, hadd⟩ | ⟨-, rfl⟩
    · obtain ⟨i, s₂, hadd, hret⟩ := Cmd.bind_eq_some.mp hadd
      obtain ⟨-, rfl⟩ := Cmd.pure_eq_some.mp hret
      refine (h.shrinks hs₁).placed ((hfresh x d n rfl).shrinks hs₁) ?_ (addNn_placed hadd)
      exact fun ht => by simp at ht
    · exact h.shrinks hs₁

lemma SortDir.unknown_ne (d : SortDir) : SortType.unknown ≠ d.srttype := by
  cases d <;> simp [SortDir.srttype]

/-- A recorded order that is there after deletions was there before. -/
lemma Shrinks.srttype_eq (h : Shrinks s s') {i : Nat} {d : SortDir}
    (hd : (s'.fld i).srttype = d.srttype) : (s.fld i).srttype = d.srttype := by
  rcases h.flds i with hsame | hblank
  · rw [← hsame.srttype]
    exact hd
  · exact absurd (hblank.2.symm.trans hd) d.unknown_ne

lemma SortInv.setSrttype {dirty : List Nat} (h : SortInv dirty s) {i : Nat} {t : SortType}
    (hord : ∀ d : SortDir, t = d.srttype → ∀ f,
      s.disk (s.fld i).ddirId (s.fld i).fileno = some f → f.cells.Pairwise fun a b =>
        d.le (cellKey (s.fld i).fldtype a) (cellKey (s.fld i).fldtype b)) :
    SortInv dirty (s.setFld i { s.fld i with srttype := t }) :=
  h.updateFld id rfl rfl rfl fun _ _ f hf d hd => hord d hd f hf

lemma Fresh.setSrttype {d n : Int} {f : DataFile} (h : Fresh s d n f) (i : Nat) (t : SortType) :
    Fresh (s.setFld i { s.fld i with srttype := t }) d n f := by
  refine ⟨fun j hj => ?_, h.lt, h.file⟩
  rw [Store.fld_setFld] at hj ⊢
  split
  · next hji =>
    rw [if_pos hji] at hj
    exact h.unowned i hj
  · next hji =>
    rw [if_neg hji] at hj
    exact h.unowned j hj

lemma SortInv.copyFldRanges (h : SortInv [] s) {t1 f1 : Name} {rng : RangeArg} {t2 : Name}
    (hok : CopyOk env s t1 f1 rng)
    (hrun : copyFldRanges env t1 f1 rng t2 s = (some (), s')) : SortInv [] s' := by
  unfold Datacl.copyFldRanges at hrun
  obtain ⟨-, hrun⟩ := Cmd.require_bind_eq_some.mp hrun
  obtain ⟨hf1, hrun⟩ := Cmd.require_bind_eq_some.mp hrun
  obtain ⟨-, hrun⟩ := Cmd.require_bind_eq_some.mp hrun
  obtain ⟨-, hrun⟩ := Cmd.require_bind_eq_some.mp hrun
  rw [Cmd.get_bind] at hrun
  obtain ⟨t1Id, ht1, hrun⟩ := Cmd.ofOption_bind_eq_some.mp hrun
  obtain ⟨i, hi, hrun⟩ := Cmd.ofOption_bind_eq_some.mp hrun
  obtain ⟨x, hx, hrun⟩ := Cmd.ofOption_bind_eq_some.mp hrun
  obtain ⟨-, hrun⟩ := Cmd.require_bind_eq_some.mp hrun
  obtain ⟨ranges, s₁, hranges, hrun⟩ := Cmd.bind_eq_some.mp hrun
  obtain rfl := copyRanges_state hranges
  obtain ⟨-, hrun⟩ := Cmd.require_bind_eq_some.mp hrun
  obtain ⟨-, hrun⟩ := Cmd.require_bind_eq_some.mp hrun
  obtain ⟨t2Id, s₂, htarget, hrun⟩ := Cmd.bind_eq_some.mp hrun
  obtain ⟨⟨d, n⟩, s₃, htemp, hrun⟩ := Cmd.bind_eq_some.mp hrun
  dsimp only at hrun
  obtain ⟨nnFile, s₄, hnn, hrun⟩ := Cmd.bind_eq_some.mp hrun
  obtain ⟨-, hrun⟩ := Cmd.require_bind_eq_some.mp hrun
  obtain ⟨j, s₅, hadd, hrun⟩ := Cmd.bind_eq_some.mp hrun
  rw [Cmd.modify_bind] at hrun
  obtain ⟨_, s₆, hmeta, hrun⟩ := Cmd.bind_eq_some.mp hrun
  have hs₂ : Shrinks s₁ s₂ := copyTarget_shrinks htarget
  obtain ⟨hinv₃, hfresh₃, hflds₃⟩ := (h.shrinks hs₂).mkTempFile htemp
  obtain ⟨hinv₄, hfresh₄, hflds₄, hnnFresh⟩ := hinv₃.copyNnFile hfresh₃ hnn
  have hplaced := addFld_placed hadd
  have hused : (s₁.fld i).Used := isFld_used hf1 hi
  have hfile := getData_eq_some hx
  have hfits : DataFile.Fits (s₁.fld i).fldtype
      { x with cells := ranges.flatMap (sliceRows x.cells) } :=
    (h.fits i hused x hfile).cells fun _ => mem_of_mem_slices
  have hinv₅ : SortInv [] s₅ := hinv₄.placed hfresh₄ hfits hplaced
  obtain ⟨hne, hs₆⟩ := copyMeta_eq_some hmeta
  have hord : ∀ d' : SortDir, (s₅.fld i).srttype = d'.srttype → ∀ f,
      s₅.disk (s₅.fld j).ddirId (s₅.fld j).fileno = some f →
        f.cells.Pairwise fun a b =>
          d'.le (cellKey (s₅.fld j).fldtype a) (cellKey (s₅.fld j).fldtype b) := by
    intro d' hd' f hf
    obtain ⟨rfl, htype⟩ := hplaced.file hfresh₄ hf
    have hsrt : (s₁.fld i).srttype = d'.srttype := by
      rcases hplaced.other (Ne.symm hne) with hsame | hblank
      · rw [hsame.srttype, hflds₄, hflds₃] at hd'
        exact hs₂.srttype_eq hd'
      · exact absurd (hblank.2.symm.trans hd') d'.unknown_ne
    rw [htype]
    exact pairwise_slices (h.truthful i List.not_mem_nil hused x hfile d' hsrt)
      (hok _ _ _ (column_eq_some ht1 hi hx) hranges d' hsrt)
  have hinv₅' := hinv₅.setSrttype hord
  have hinv₆ : SortInv [] s₆ := by
    refine (hinv₅'.setSrttype fun d' hd' f hf => ?_).shrinks hs₆
    rw [Store.fld_setFld_of_ne (Ne.symm hne)] at hd'
    rw [Store.fld_setFld_of_lt hplaced.lt] at hf ⊢
    exact hord d' hd' f hf
  refine hinv₆.copyNn (fun y e m hfile => ?_) hrun
  obtain ⟨hfresh, hnm⟩ := hnnFresh y e m hfile
  exact (((hfresh.placed hplaced hnm).setSrttype _ _).setSrttype _ _).shrinks hs₆

/-! ### Set operations -/

/-- `t1f1t2f2opt3f3` makes a union only of columns whose negative values end together. -/
def UnionOk (s : Store) (t1 f1 t2 f2 : Name) (op : SetOp) : Prop :=
  op = .union → ∀ t1Id t2Id r1 x1 r2 x2, isTbl s t1 = some t1Id → isTbl s t2 = some t2Id →
    column s t1 f1 = some (r1, x1) → column s t2 f2 = some (r2, x2) →
      NegativesEndTogether (x1.cells.take (s.tbl t1Id).nR.toNat)
        (x2.cells.take (s.tbl t2Id).nR.toNat)

lemma SetOp.rows_inBits {op : SetOp} {w : Nat} {xs ys rows : List Int}
    (h : op.rows w xs ys = some rows) (hxs : ∀ x ∈ xs, InBits w x) (hys : ∀ y ∈ ys, InBits w y) :
    ∀ z ∈ rows, InBits w z := by
  cases op with
  | intersection =>
    obtain rfl := Option.some.inj h
    exact fun z hz => hxs z ((intersection_sublist xs ys).subset hz)
  | aMinusB =>
    obtain rfl := Option.some.inj h
    exact fun z hz => hxs z ((aMinusB_sublist xs ys).subset hz)
  | union =>
    obtain rfl := Option.some.inj h
    exact inBits_unionCols 0 hxs hys
  | pvalcalc mask =>
    obtain ⟨m, -, rfl⟩ := Option.map_eq_some_iff.mp h
    exact inBits_unionCols _ hxs hys

lemma SetOp.rows_sorted {op : SetOp} {w : Nat} (hw : 0 < w) {xs ys rows : List Int}
    (h : op.rows w xs ys = some rows) (hop : op = .union ∨ op = .intersection ∨ op = .aMinusB)
    (hxs : xs.Pairwise (· ≤ ·)) (hys : ys.Pairwise (· ≤ ·)) (hbx : ∀ x ∈ xs, InBits w x)
    (hby : ∀ y ∈ ys, InBits w y) (hneg : op = .union → NegativesEndTogether xs ys) :
    rows.Pairwise (· ≤ ·) := by
  rcases hop with rfl | rfl | rfl
  · obtain rfl := Option.some.inj h
    exact pairwise_unionCols hw hxs hys hbx hby (hneg rfl)
  · obtain rfl := Option.some.inj h
    exact hxs.sublist (intersection_sublist xs ys)
  · obtain rfl := Option.some.inj h
    exact hxs.sublist (aMinusB_sublist xs ys)

lemma SortInv.addResult (h : SortInv [] s) {d n : Int} {f : DataFile} (hfresh : Fresh s d n f)
    {t : FldType} (ht : t = .I4 ∨ t = .I8) (hfits : f.Fits t) {op : SetOp}
    (hsorted : op = .union ∨ op = .intersection ∨ op = .aMinusB → f.cells.Pairwise (· ≤ ·))
    {t3 f3 : Name} {nR3 : Int}
    (hrun : addResult env op t3 f3 nR3 d n t s = (some (), s')) : SortInv [] s' := by
  unfold Datacl.addResult at hrun
  obtain ⟨t3Id, s₁, htbl, hrun⟩ := Cmd.bind_eq_some.mp hrun
  obtain ⟨i, s₂, hadd, hrun⟩ := Cmd.bind_eq_some.mp hrun
  have hs₁ : Shrinks s s₁ := (Deletes.addTbl env t3 nR3).shrinks htbl
  have hplaced := addFld_placed hadd
  have hinv₂ : SortInv [] s₂ := (h.shrinks hs₁).placed (hfresh.shrinks hs₁) hfits hplaced
  rcases Cmd.when_eq_some.mp hrun with ⟨hop, hset⟩ | ⟨-, rfl⟩
  · obtain ⟨rfl, -⟩ := intSetSrttype_eq_some hset
    refine hinv₂.setSrttype fun d' hd' g hg => ?_
    obtain rfl : d' = .asc := (SortDir.srttype_inj (d := .asc) hd').symm
    obtain ⟨rfl, htype⟩ := hplaced.file (hfresh.shrinks hs₁) hg
    simp only [htype, cellKey_int ht]
    exact hsorted hop
  · exact hinv₂

lemma SortInv.t1f1t2f2opt3f3 (h : SortInv [] s) {t1 f1 t2 f2 t3 f3 : Name} {op : SetOp}
    (hok : UnionOk s t1 f1 t2 f2 op)
    (hrun : t1f1t2f2opt3f3 env t1 f1 t2 f2 op t3 f3 s = (some (), s')) : SortInv [] s' := by
  unfold Datacl.t1f1t2f2opt3f3 at hrun
  obtain ⟨-, hrun⟩ := Cmd.require_bind_eq_some.mp hrun
  obtain ⟨hf1, hrun⟩ := Cmd.require_bind_eq_some.mp hrun
  obtain ⟨-, hrun⟩ := Cmd.require_bind_eq_some.mp hrun
  obtain ⟨hf2, hrun⟩ := Cmd.require_bind_eq_some.mp hrun
  obtain ⟨-, hrun⟩ := Cmd.require_bind_eq_some.mp hrun
  obtain ⟨-, hrun⟩ := Cmd.require_bind_eq_some.mp hrun
  obtain ⟨-, hrun⟩ := Cmd.require_bind_eq_some.mp hrun
  obtain ⟨-, hrun⟩ := Cmd.require_bind_eq_some.mp hrun
  rw [Cmd.get_bind] at hrun
  obtain ⟨t1Id, ht1, hrun⟩ := Cmd.ofOption_bind_eq_some.mp hrun
  obtain ⟨i, hi, hrun⟩ := Cmd.ofOption_bind_eq_some.mp hrun
  obtain ⟨x1, hx1, hrun⟩ := Cmd.ofOption_bind_eq_some.mp hrun
  obtain ⟨t2Id, ht2, hrun⟩ := Cmd.ofOption_bind_eq_some.mp hrun
  obtain ⟨j, hj, hrun⟩ := Cmd.ofOption_bind_eq_some.mp hrun
  obtain ⟨x2, hx2, hrun⟩ := Cmd.ofOption_bind_eq_some.mp hrun
  obtain ⟨hs1, hrun⟩ := Cmd.require_bind_eq_some.mp hrun
  obtain ⟨hs2, hrun⟩ := Cmd.require_bind_eq_some.mp hrun
  obtain ⟨-, hrun⟩ := Cmd.require_bind_eq_some.mp hrun
  obtain ⟨-, hrun⟩ := Cmd.require_bind_eq_some.mp hrun
  obtain ⟨hsame, hrun⟩ := Cmd.require_bind_eq_some.mp hrun
  obtain ⟨htype, hrun⟩ := Cmd.require_bind_eq_some.mp hrun
  obtain ⟨⟨d, n⟩, s₁, htemp, hrun⟩ := Cmd.bind_eq_some.mp hrun
  dsimp only at hrun
  obtain ⟨rows, hrows, hrun⟩ := Cmd.ofOption_bind_eq_some.mp hrun
  rw [Cmd.modify_bind] at hrun
  obtain ⟨-, hrun⟩ := Cmd.require_bind_eq_some.mp hrun
  obtain ⟨_, s₂, hdel, hrun⟩ := Cmd.bind_eq_some.mp hrun
  have hu1 : (s.fld i).Used := isFld_used hf1 hi
  have hu2 : (s.fld j).Used := isFld_used hf2 hj
  obtain ⟨-, hb1⟩ := h.fits i hu1 x1 (getData_eq_some hx1) htype
  obtain ⟨-, hb2⟩ := h.fits j hu2 x2 (getData_eq_some hx2) (hsame ▸ htype)
  have ho1 := h.truthful i List.not_mem_nil hu1 x1 (getData_eq_some hx1) .asc hs1
  have ho2 := h.truthful j List.not_mem_nil hu2 x2 (getData_eq_some hx2) .asc hs2
  simp only [cellKey_int htype] at ho1
  simp only [← hsame, cellKey_int htype] at ho2
  rw [← hsame] at hb2
  have hbits : 0 < fldBits (s.fld i).fldtype ∧
      8 * (fldBits (s.fld i).fldtype / 8) = fldBits (s.fld i).fldtype := by
    rcases htype with ht | ht <;> rw [ht] <;> decide
  have hbx : ∀ x ∈ x1.cells.take (s.tbl t1Id).nR.toNat, InBits (fldBits (s.fld i).fldtype) x :=
    fun x hx => hb1 x (List.mem_of_mem_take hx)
  have hby : ∀ y ∈ x2.cells.take (s.tbl t2Id).nR.toNat, InBits (fldBits (s.fld i).fldtype) y :=
    fun y hy => hb2 y (List.mem_of_mem_take hy)
  obtain ⟨hinv₁, hfresh₁, -⟩ := h.mkTempFile htemp
  have hs₂ : Shrinks _ s₂ := (Deletes.when _ (Deletes.qDelete env d n)).shrinks hdel
  have hinv₂ : SortInv [] s₂ := (hinv₁.setFile hfresh₁.unowned _).shrinks hs₂
  rcases Cmd.when_eq_some.mp hrun with ⟨-, hres⟩ | ⟨-, rfl⟩
  · refine hinv₂.addResult ((hfresh₁.setFile _).shrinks hs₂) htype ?_ ?_ hres
    · exact fun _ => ⟨hbits.2, op.rows_inBits hrows hbx hby⟩
    · intro hop
      exact SetOp.rows_sorted hbits.1 hrows hop (ho1.sublist (List.take_sublist _ _))
        (ho2.sublist (List.take_sublist _ _)) hbx hby fun hunion =>
          hok hunion _ _ _ _ _ _ ht1 ht2 (column_eq_some ht1 hi hx1) (column_eq_some ht2 hj hx2)
  · exact hinv₂

/-! ### Appending -/

lemma SortInv.appNn {dirty : List Nat} (h : SortInv dirty s) {t1Id f1Id nR1 nR2 : Nat}
    {nn1 nn2 : Int} (hrun : appNn env t1Id f1Id nR1 nR2 nn1 nn2 s = (some (), s')) :
    SortInv dirty s' := by
  unfold Datacl.appNn at hrun
  obtain ⟨-, hrun⟩ := Cmd.require_bind_eq_some.mp hrun
  rcases Cmd.when_eq_some.mp hrun with ⟨-, hrun⟩ | ⟨-, rfl⟩
  · rw [Cmd.get_bind] at hrun
    obtain ⟨y, -, hrun⟩ := Cmd.ofOption_bind_eq_some.mp hrun
    obtain ⟨⟨d, n⟩, s₁, htemp, hrun⟩ := Cmd.bind_eq_some.mp hrun
    dsimp only at hrun
    obtain ⟨i, s₂, hadd, hrun⟩ := Cmd.bind_eq_some.mp hrun
    obtain rfl := Cmd.modify_eq_some.mp hrun
    obtain ⟨hinv, hfresh, -⟩ := h.mkTempFile htemp
    refine (hinv.placed hfresh (fun ht => by simp at ht) (addNn_placed hadd)).shrinks ?_
    exact Shrinks.setFld (.inl ⟨Iff.rfl, rfl, rfl, rfl, rfl⟩)
  · exact h

lemma srttype_setFld {i : Nat} {r : FldRec} (hr : r.srttype = .unknown) :
    ((s.setFld i r).fld i).srttype = .unknown := by
  by_cases hi : i < s.flds.length
  · rw [Store.fld_setFld_of_lt hi]
    exact hr
  · rw [Store.fld_of_le (by simpa using hi)]
    rfl

lemma SortInv.appFld (h : SortInv [] s) {t1Id f1Id t2Id f2Id : Nat} (hu1 : (s.fld f1Id).Used)
    (hu2 : (s.fld f2Id).Used) (htype : (s.fld f1Id).fldtype = (s.fld f2Id).fldtype)
    (hrun : appFld env t1Id f1Id t2Id f2Id s = (some (), s')) : SortInv [] s' := by
  unfold Datacl.appFld at hrun
  rw [Cmd.get_bind] at hrun
  obtain ⟨-, hrun⟩ := Cmd.require_bind_eq_some.mp hrun
  obtain ⟨x2, hx2, hrun⟩ := Cmd.ofOption_bind_eq_some.mp hrun
  rw [Cmd.modify_bind] at hrun
  obtain ⟨_, s₁, hnn, hrun⟩ := Cmd.bind_eq_some.mp hrun
  rw [Cmd.modify_bind] at hrun
  obtain ⟨fldsz, -, hrun⟩ := Cmd.ofOption_bind_eq_some.mp hrun
  obtain rfl := Cmd.modify_eq_some.mp hrun
  have hfits : DataFile.Fits (s.fld f1Id).fldtype
      { (s.disk (s.fld f1Id).ddirId (s.fld f1Id).fileno).getD ⟨x2.width, []⟩ with
        cells := ((s.disk (s.fld f1Id).ddirId (s.fld f1Id).fileno).getD ⟨x2.width, []⟩).cells ++
          x2.cells } := by
    intro ht
    obtain ⟨hw2, hb2⟩ := h.fits f2Id hu2 x2 (getData_eq_some hx2) (htype ▸ ht)
    rw [← htype] at hw2 hb2
    cases hx1 : s.disk (s.fld f1Id).ddirId (s.fld f1Id).fileno with
    | none => exact ⟨hw2, by simpa using hb2⟩
    | some x1 =>
      obtain ⟨hw1, hb1⟩ := h.fits f1Id hu1 x1 hx1 ht
      exact ⟨hw1, fun z hz => (List.mem_append.mp hz).elim (hb1 z) (hb2 z)⟩
  have hinv₁ : SortInv [f1Id] s₁ := (h.setData hu1 hfits).appNn hnn
  have hdirty : ∀ {P : Prop}, f1Id ∉ [f1Id] → P := fun hno => absurd List.mem_cons_self hno
  apply SortInv.settle
  · refine SortInv.updateFld ?_ id rfl rfl rfl hdirty
    exact SortInv.updateFld hinv₁ id rfl rfl rfl hdirty
  · intro _ f _
    apply FldRec.ordered_unknown
    apply srttype_setFld
    exact srttype_setFld rfl

lemma SortInv.appTblFld (h : SortInv [] s) {t1 fld t2 : Name}
    (hrun : appTblFld env t1 fld t2 s = (some (), s')) : SortInv [] s' := by
  unfold Datacl.appTblFld at hrun
  obtain ⟨-, hrun⟩ := Cmd.require_bind_eq_some.mp hrun
  obtain ⟨-, hrun⟩ := Cmd.require_bind_eq_some.mp hrun
  obtain ⟨hfld, hrun⟩ := Cmd.require_bind_eq_some.mp hrun
  rw [Cmd.get_bind] at hrun
  obtain ⟨t1Id, -, hrun⟩ := Cmd.ofOption_bind_eq_some.mp hrun
  obtain ⟨t2Id, -, hrun⟩ := Cmd.ofOption_bind_eq_some.mp hrun
  obtain ⟨i, hi, hrun⟩ := Cmd.ofOption_bind_eq_some.mp hrun
  obtain ⟨-, hrun⟩ := Cmd.require_bind_eq_some.mp hrun
  obtain ⟨-, hrun⟩ := Cmd.require_bind_eq_some.mp hrun
  obtain ⟨-, hrun⟩ := Cmd.require_bind_eq_some.mp hrun
  obtain ⟨j, hj, hrun⟩ := Cmd.ofOption_bind_eq_some.mp hrun
  obtain ⟨-, hrun⟩ := Cmd.require_bind_eq_some.mp hrun
  obtain ⟨htype, hrun⟩ := Cmd.require_bind_eq_some.mp hrun
  exact h.appFld (isFld_used hfld hi) (isFld_used hfld hj) htype hrun

end Datacl
