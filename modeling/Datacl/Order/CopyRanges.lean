import Datacl.Order.CopyField

/-!
# When `copy_fld_ranges` copies the ranges

`copy_fld_ranges` takes the upper end of a range for the last row of it when it checks the range, and
for the row behind it when it copies. A range that ends with the table is refused.
-/

namespace Datacl

variable {env : Env} {s s' : Store}

/-- `ranges` are ranges of rows of the field. -/
structure CopyArgs (env : Env) (s : Store) (t1 f1 : Name) (rng : RangeArg) (a nR1 : Nat)
    (x : DataFile) (nn : Option DataFile) (ranges : List (Int × Int)) : Prop where
  source : CopySource env s t1 f1 a nR1 x nn
  found : copyRanges env rng s = (some ranges, s)
  ne : ranges ≠ []
  bounds : ∀ r ∈ ranges, 0 ≤ r.1 ∧ r.1 < r.2 ∧ r.2 ≤ nR1

/-- The rows of the ranges, one range after the other. -/
def rangeRows (ranges : List (Int × Int)) (cells : List Int) : List Int :=
  ranges.flatMap (sliceRows cells)

/-! ### The rows of the ranges -/

section

variable {ranges : List (Int × Int)} {cells : List Int}

/-- The copy has the rows that `exp_nR2` counts. -/
lemma length_rangeRows {n : Nat} (hlen : cells.length = n)
    (h : ∀ r ∈ ranges, 0 ≤ r.1 ∧ r.1 < r.2 ∧ r.2 ≤ n) :
    ((rangeRows ranges cells).length : Int) = (ranges.map fun r => r.2 - r.1).sum := by
  induction ranges with
  | nil => rfl
  | cons r ranges ih =>
    rw [List.forall_mem_cons] at h
    obtain ⟨hlb, hlt, hub⟩ := h.1
    have hslice : ((sliceRows cells r).length : Int) = r.2 - r.1 := by
      rw [sliceRows, List.length_take, List.length_drop]
      omega
    have hrest := ih h.2
    rw [rangeRows] at hrest
    rw [rangeRows, List.flatMap_cons, List.length_append, List.map_cons, List.sum_cons]
    push_cast
    rw [hslice, hrest]

lemma rangeRows_pos {n : Nat} (hlen : cells.length = n) (hne : ranges ≠ [])
    (h : ∀ r ∈ ranges, 0 ≤ r.1 ∧ r.1 < r.2 ∧ r.2 ≤ n) : 0 < (rangeRows ranges cells).length := by
  obtain ⟨r, rest, rfl⟩ := List.exists_cons_of_ne_nil hne
  obtain ⟨hlb, hlt, hub⟩ := h r List.mem_cons_self
  rw [rangeRows, List.flatMap_cons, List.length_append, sliceRows, List.length_take, List.length_drop]
  omega

end

/-! ### The null flags -/

/-- What the null flags of the copy are written to. -/
inductive NnTemp (env : Env) (ranges : List (Int × Int)) (n : Int) (s : Store) :
    Option DataFile → Option (DataFile × Int × Int) → Prop where
  | none : NnTemp env ranges n s none none
  | some {y : DataFile} {d : Nat} (hd : env.canEnter d = true)
      (h : Unowned d n { y with cells := rangeRows ranges y.cells } s) :
      NnTemp env ranges n s (some y) (some ({ y with cells := rangeRows ranges y.cells }, d, n))

lemma NnTemp.mono {ranges : List (Int × Int)} {n : Int} {nn : Option DataFile}
    {nnFile : Option (DataFile × Int × Int)} (h : NnTemp env ranges n s nn nnFile)
    (hkeep : ∀ d f, Unowned d n f s → Unowned d n f s') : NnTemp env ranges n s' nn nnFile := by
  cases h with
  | none => exact .none
  | some hd h => exact .some hd (hkeep _ _ h)

/-- The file for the null flags. -/
lemma copyNnFile_succeeds {ranges : List (Int × Int)} {nn : Option DataFile} {nR2 : Nat}
    (hpos : 0 < nR2) (hnext : 0 ≤ s.nextFileno) (hfilenos : ∀ i, (s.fld i).fileno < s.nextFileno)
    (hnn : ∀ y, nn = some y → y.width = 1 ∧ (rangeRows ranges y.cells).length = nR2 ∧
      (env.roomDir nR2).isSome = true) :
    ∃ nnFile s', copyNnFile env ranges nn s = (some nnFile, s') ∧ SameRecs s s' ∧
      NnTemp env ranges s.nextFileno s' nn nnFile ∧
      (∀ d n f, n < s.nextFileno → Unowned d n f s → Unowned d n f s') := by
  cases nn with
  | none => exact ⟨none, s, rfl, SameRecs.refl s, .none, fun _ _ _ _ h => h⟩
  | some y =>
    obtain ⟨hwidth, hlen, hroom⟩ := hnn y rfl
    have hsize : ({ y with cells := rangeRows ranges y.cells } : DataFile).size = nR2 := by
      rw [DataFile.size, hwidth, hlen, Nat.one_mul]
    rw [← hsize] at hroom
    obtain ⟨d, hd, htemp⟩ := mkTempFile_room (by omega) hnext hroom
    refine ⟨_, _, Cmd.bind_of_eq htemp, ⟨rfl, rfl, rfl⟩, .some hd (withTemp_unowned hfilenos d _), ?_⟩
    intro e n f hn h
    exact h.sameFlds rfl (if_neg fun heq => hn.ne heq.2)

/-- The null column of the copy. -/
lemma copyNn_succeeds {ranges : List (Int × Int)} {n : Int} {nn : Option DataFile}
    {nnFile : Option (DataFile × Int × Int)} (htemp : NnTemp env ranges n s nn nnFile) {t2 f1 : Name}
    {t2Id nR2 j : Nat} {t : FldType} {f : DataFile} (h : Entered s t2 t2Id f1 nR2 t f j)
    (hnone : (s.fld j).nnFldId < 0) (hname : chkFldName f1 = true) (hn : 0 ≤ n)
    (hfileno : (s.fld j).fileno ≠ n) (hpos : 0 < nR2)
    (hnn : ∀ y, nn = some y → y.width = 1 ∧ (rangeRows ranges y.cells).length = nR2 ∧
      (∀ v ∈ rangeRows ranges y.cells, v = 0 ∨ v = 1) ∧
      f1.length + (auxPrefix .nn).length ≤ maxLenName ∧ 0 < s.freeSlots) :
    ∃ s', copyNn env t2Id j nR2 nnFile s = (some (), s') ∧ Entered s' t2 t2Id f1 nR2 t f j ∧
      FlagsCopied s' j (nn.map fun y => rangeRows ranges y.cells) := by
  cases htemp with
  | none => exact ⟨s, rfl, h, hnone⟩
  | @some y d hd hfile =>
    obtain ⟨hwidth, hlen, hflags, hroom, hslot⟩ := hnn y rfl
    have hsum := sum_flags_eq_length hflags
    rw [hlen] at hsum
    have hcopy : copyNn env t2Id j nR2 (some ({ y with cells := rangeRows ranges y.cells }, d, n)) =
        Cmd.when ((rangeRows ranges y.cells).sum = nR2) (qDelete env d n) >>= fun _ =>
          Cmd.when ((rangeRows ranges y.cells).sum ≠ nR2) (addAuxFld env [] t2Id [] j d n .nn
            { zeroFldRec with fldtype := .I1 } >>= fun _ => pure ()) := rfl
    rw [hcopy]
    by_cases hall : ∀ v ∈ rangeRows ranges y.cells, v = 1
    · rw [Cmd.when_pos (hsum.mpr hall), Cmd.bind_of_eq (qDelete_succeeds hd hn),
        Cmd.when_neg (not_not.mpr (hsum.mpr hall))]
      refine ⟨_, rfl, h.qDelete hfileno d, ?_⟩
      rw [Option.map_some, FlagsCopied, if_pos hall]
      exact hnone
    · have hne : ¬ (rangeRows ranges y.cells).sum = nR2 := fun h => hall (hsum.mp h)
      have hsize : ({ y with cells := rangeRows ranges y.cells } : DataFile).size ≠ 0 := by
        rw [DataFile.size, hwidth, hlen]
        omega
      obtain ⟨k, s₁, hadd, hentered, hlink, hk⟩ := h.addNn hnone hname hroom hslot hd hn hfile hsize
      rw [Cmd.when_neg hne, Cmd.when_pos hne]
      refine ⟨s₁, Cmd.bind_of_eq hadd, hentered, ?_⟩
      rw [Option.map_some, FlagsCopied, if_neg hall]
      exact ⟨k, hlink, by rw [hk]; rfl⟩

/-! ### The copy -/

/-- `copy_fld_ranges` behind the checks of the ranges. -/
def copyRows (env : Env) (s : Store) (f1 : Name) (rng : RangeArg) (t2 : Name) (a : Nat) (x : DataFile)
    (nn : Option DataFile) (ranges : List (Int × Int)) : Cmd Store Unit := do
  let nR2 := (ranges.map fun r => r.2 - r.1).sum
  Cmd.require (nR2 ≠ 0)
  let t2Id ← copyTarget env t2 nR2 (isTbl s t2)
  let (ddirId, fileno) ← mkTempFile env { x with cells := ranges.flatMap (sliceRows x.cells) }
  let nnFile ← copyNnFile env ranges nn
  Cmd.require (copyLoopOk ranges rng = true)
  let t2f1Id ← addFld env t2Id f1 ddirId fileno { zeroFldRec with fldtype := (s.fld a).fldtype }
  Cmd.modify fun s => s.setFld t2f1Id { s.fld t2f1Id with srttype := (s.fld a).srttype }
  copyMeta t2f1Id a
  copyNn env t2Id t2f1Id nR2 nnFile

section

variable {t1 f1 t2 : Name} {rng : RangeArg} {a nR1 t2Id : Nat} {x : DataFile} {nn : Option DataFile}
  {ranges : List (Int × Int)}

lemma CopyArgs.run_eq (args : CopyArgs env s t1 f1 rng a nR1 x nn ranges) (hf1 : f1 ≠ []) (ht2 : t2 ≠ [])
    (hne : t1 ≠ t2) : copyFldRanges env t1 f1 rng t2 s =
      (Cmd.require (ranges.all (copyRangeOk nR1) = true) >>= fun _ =>
        copyRows env s f1 rng t2 a x nn ranges) s := by
  obtain ⟨ht1, t1Id, htbl, hnR, hfld⟩ := args.source.tbl
  unfold copyFldRanges
  rw [Cmd.require_bind, if_pos ht1, Cmd.require_bind, if_pos hf1, Cmd.require_bind, if_pos ht2,
    Cmd.require_bind, if_pos hne, Cmd.get_bind, htbl, Cmd.ofOption_some_bind]
  dsimp only
  rw [hfld, Cmd.ofOption_some_bind, args.source.column.data, Cmd.ofOption_some_bind, args.source.flags.found,
    Cmd.require_bind, if_pos args.source.fldtype, Cmd.bind_of_eq args.found, hnR]
  rfl

/-- The null flags of the ranges. -/
lemma CopyArgs.nnRows (args : CopyArgs env s t1 f1 rng a nR1 x nn ranges) {y : DataFile} (hy : nn = some y) :
    y.width = 1 ∧ (rangeRows ranges y.cells).length = (rangeRows ranges x.cells).length ∧
      ∀ v ∈ rangeRows ranges y.cells, v = 0 ∨ v = 1 := by
  subst hy
  obtain ⟨-, -, hwidth, hlen, hflags⟩ := args.source.flags
  refine ⟨hwidth, ?_, fun v hv => hflags v (mem_of_mem_slices hv)⟩
  have hrows := length_rangeRows hlen args.bounds
  rw [← length_rangeRows args.source.column.length args.bounds] at hrows
  exact_mod_cast hrows

/-- The table and the files of the copy are made. -/
lemma CopyArgs.files_succeed (args : CopyArgs env s t1 f1 rng a nR1 x nn ranges)
    (room : CopyRoom env s t1 f1 t2 t2Id x.width (rangeRows ranges x.cells).length nn.isSome) :
    ∃ (d : Nat) (nnFile : Option (DataFile × Int × Int)) (s' : Store), copyRows env s f1 rng t2 a x nn ranges s =
      (Cmd.require (copyLoopOk ranges rng = true) >>= fun _ =>
        addFld env t2Id f1 d s.nextFileno { zeroFldRec with fldtype := (s.fld a).fldtype } >>= fun j =>
        Cmd.modify (fun s => s.setFld j { s.fld j with srttype := (s.fld a).srttype }) >>= fun _ =>
          copyMeta j a >>= fun _ =>
            copyNn env t2Id j (rangeRows ranges x.cells).length nnFile) s' ∧
      s'.flds = s.flds ∧ NnTemp env ranges (s.nextFileno + 1) s' nn nnFile ∧
      CopyReady env s' t2 t2Id a f1 (rangeRows ranges x.cells).length
        { x with cells := rangeRows ranges x.cells } d s.nextFileno := by
  have hlen := length_rangeRows args.source.column.length args.bounds
  have hpos := rangeRows_pos args.source.column.length args.ne args.bounds
  have hnn : ∀ y, nn = some y → _ := fun y hy => args.nnRows hy
  obtain ⟨nR2, hnR2⟩ : ∃ n, n = (rangeRows ranges x.cells).length := ⟨_, rfl⟩
  obtain ⟨f, hf⟩ : ∃ f : DataFile, f = { x with cells := rangeRows ranges x.cells } := ⟨_, rfl⟩
  have hfsize : f.size = x.width * nR2 := by rw [hf, hnR2, DataFile.size]
  have hfcells : f.cells.length = nR2 := by rw [hf, hnR2]
  rw [← hnR2] at hlen hpos room hnn ⊢
  rw [← hf]
  obtain ⟨tbls, htarget, htbl, hrows⟩ := copyTarget_succeeds room.names.2.1
    (show (0 : Int) < nR2 by omega) room.target
  have hne : f.size ≠ 0 := by
    rw [hfsize]
    exact (Nat.mul_pos (getFldSz_copy_pos args.source.fldtype args.source.column.width) hpos).ne'
  obtain ⟨d, hd, htemp⟩ := mkTempFile_room (s := { s with tbls := tbls }) hne room.filenos.1.le
    (by rw [hfsize]; exact room.file)
  have hfresh := withTemp_unowned (s := { s with tbls := tbls }) room.filenos.2 d f
  -- the file of the null flags has the next number
  have hfirst := room.filenos.1
  obtain ⟨nnFile, s₃, hnnFile, hsame, hnnTemp, hkeep⟩ := copyNnFile_succeeds
    (s := Store.withTemp { s with tbls := tbls } d f) hpos (show (0 : Int) ≤ s.nextFileno + 1 by omega)
    (fun i => (room.filenos.2 i).trans (Int.lt_succ _)) fun y hy =>
      ⟨(hnn y hy).1, (hnn y hy).2.1, (room.nnRoom (by rw [hy]; rfl)).2.1⟩
  refine ⟨d, nnFile, s₃, ?_, hsame.flds, hnnTemp, ?_⟩
  · have hnz : (nR2 : Int) ≠ 0 := by omega
    have htemp' : mkTempFile env { x with cells := ranges.flatMap (sliceRows x.cells) }
        { s with tbls := tbls } = (some ((d : Int), s.nextFileno), Store.withTemp { s with tbls := tbls } d f) := by
      rw [hf] at htemp ⊢
      exact htemp
    unfold copyRows
    dsimp only
    rw [← hlen, Cmd.require_bind, if_pos hnz, Cmd.bind_of_eq htarget, Cmd.bind_of_eq htemp']
    dsimp only
    rw [Cmd.bind_of_eq hnnFile]
  · refine room.ready args.source (.of_same hsame.flds hsame.info) ?_ (by rw [hf]) ⟨hpos, hfcells⟩
      ⟨hd, room.filenos.1⟩ (hkeep _ _ _ (Int.lt_succ _) hfresh)
    rw [isTbl, Store.tbl, hsame.tbls]
    exact ⟨htbl, hrows⟩

/-- Behind the checks the copy goes through, unless the loop counter overflows. -/
lemma CopyArgs.copyRows_iff (args : CopyArgs env s t1 f1 rng a nR1 x nn ranges)
    (room : CopyRoom env s t1 f1 t2 t2Id x.width (rangeRows ranges x.cells).length nn.isSome) :
    (∃ s', copyRows env s f1 rng t2 a x nn ranges s = (some (), s') ∧
      CopiedTo s' t2 t2Id f1 (s.fld a).fldtype (rangeRows ranges x.cells)
        (nn.map fun y => rangeRows ranges y.cells)) ↔ copyLoopOk ranges rng = true := by
  obtain ⟨d, nnFile, s₃, hrun, hflds, hnnTemp, hready⟩ := args.files_succeed room
  obtain ⟨j, s₄, hcopy, hentered, hfileno, hnone, hslots, hunowned⟩ := addCopy_succeeds hready
  have hfirst := room.filenos.1
  have hfld : s₃.fld a = s.fld a := by rw [Store.fld, hflds, Store.fld]
  rw [hrun, Cmd.require_bind]
  by_cases hloop : copyLoopOk ranges rng = true
  · rw [if_pos hloop, ← hfld, hcopy]
    have htemp₄ : NnTemp env ranges (s.nextFileno + 1) s₄ nn nnFile :=
      hnnTemp.mono fun e g => hunowned e _ g (by omega) (by omega)
    have hroom₄ : ∀ y, nn = some y →
        y.width = 1 ∧ (rangeRows ranges y.cells).length = (rangeRows ranges x.cells).length ∧
        (∀ v ∈ rangeRows ranges y.cells, v = 0 ∨ v = 1) ∧
        f1.length + (auxPrefix .nn).length ≤ maxLenName ∧ 0 < s₄.freeSlots := by
      intro y hy
      obtain ⟨hwidth, hylen, hbits⟩ := args.nnRows hy
      obtain ⟨hfit, -, hslot⟩ := room.nnRoom (by rw [hy]; rfl)
      have hfree : s₃.freeSlots = s.freeSlots := by rw [Store.freeSlots, hflds, Store.freeSlots]
      exact ⟨hwidth, hylen, hbits, hfit, by omega⟩
    obtain ⟨s₅, hnnRun, hentered', hflags⟩ := copyNn_succeeds htemp₄ hentered hnone room.names.1
      (by omega) (by omega) hready.length.1 hroom₄
    exact iff_of_true ⟨s₅, hnnRun, (hentered'.copiedTo_iff rfl _ _).mpr ⟨rfl, hflags⟩⟩ hloop
  · rw [if_neg hloop]
    refine iff_of_false ?_ hloop
    rintro ⟨s', hfail, -⟩
    cases hfail

end

lemma copyStore_args {ranges : List (Int × Int)} {lb ub : Int} (h : 0 ≤ lb ∧ lb < ub ∧ ub ≤ 3)
    (hranges : ranges = [(lb, ub)]) :
    CopyArgs openEnv (copyStore []) ['t'] ['f'] (.rows lb ub) 0 3 ⟨4, [7, 8, 9]⟩ (some ⟨1, [1, 0, 1]⟩)
      ranges := by
  subst hranges
  exact ⟨copyStore_source [], rfl, List.cons_ne_nil _ _, by simpa using h⟩

end Datacl
