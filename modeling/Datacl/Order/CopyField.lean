import Datacl.Meta.Room
import Datacl.Order.AllOrNothing
import Datacl.Order.TruthfulCopy

/-!
# Entering the copy of a field

`copy_fld` and `copy_fld_ranges` end alike: the file of the copy is entered as a field of the second table, what is
known about the field goes with it, and the file of the null flags becomes its null column.
-/

namespace Datacl

variable {env : Env} {s s' : Store}

/-! ### What is given -/

/-- The null flags of a field: none, or a column of 0 and 1. -/
def NullFlags (env : Env) (s : Store) (a nR1 : Nat) : Option DataFile → Prop
  | none => (s.fld a).nnFldId < 0
  | some y => 0 ≤ (s.fld a).nnFldId ∧ getData env s (s.fld (s.fld a).nnFldId.toNat) = some y ∧
      y.width = 1 ∧ y.cells.length = nR1 ∧ ∀ v ∈ y.cells, v = 0 ∨ v = 1

/-- Slot `a` holds the field `f1` of `t1`, a column of `nR1` rows that can be copied. -/
structure CopySource (env : Env) (s : Store) (t1 f1 : Name) (a nR1 : Nat) (x : DataFile)
    (nn : Option DataFile) : Prop where
  tbl : t1 ≠ [] ∧ ∃ t1Id, isTbl s t1 = some t1Id ∧ (s.tbl t1Id).nR = nR1 ∧ isFld s t1Id f1 = some a
  primary : (s.fld a).auxtype = .undefAuxtype
  column : HasColumn env s a nR1 x
  fldtype : (s.fld a).fldtype ∈ [FldType.I1, .I2, .I4, .I8, .F4, .F8]
  flags : NullFlags env s a nR1 nn

/-- Slot `t2Id` holds the table `t2` with this number of rows, or is free for it. -/
def TargetOk (env : Env) (s : Store) (t2 : Name) (t2Id : Nat) (nR2 : Int) : Prop :=
  (isTbl s t2 = some t2Id ∧ (s.tbl t2Id).nR = nR2) ∨
    (isTbl s t2 = none ∧ chkTblName t2 = true ∧ getEmptyTbl env s t2 = some t2Id)

/-- There is room for the copy: for the table, for the files, for the field (if the table has a field
of this name, it has one and that can be deleted) and for the references of the index; and the names
fit. -/
structure CopyRoom (env : Env) (s : Store) (t1 f1 t2 : Name) (t2Id : Nat) (width nR2 : Nat) (hasNn : Bool) :
    Prop where
  names : chkFldName f1 = true ∧ t2 ≠ [] ∧ t1 ≠ t2
  target : TargetOk env s t2 t2Id nR2
  unique : ∀ i, (s.fld i).tblId = t2Id → (s.fld i).name = f1 → isFld s t2Id f1 = some i
  old : ∀ i, isFld s t2Id f1 = some i → Deletable env s i ∧ ¬ IsDict s i
  filenos : 0 < s.nextFileno ∧ ∀ i, (s.fld i).fileno < s.nextFileno
  index : IndexRoom s 3
  file : (env.roomDir (width * nR2)).isSome = true
  slot : 0 < s.freeSlots
  nnRoom : hasNn = true → f1.length + (auxPrefix .nn).length ≤ maxLenName ∧
    (env.roomDir nR2).isSome = true ∧ 1 < s.freeSlots

/-- The null flags of a copied field: no null column if there were no flags or all of them are TRUE,
else a column of the flags. -/
def FlagsCopied (s' : Store) (j : Nat) : Option (List Int) → Prop
  | none => (s'.fld j).nnFldId < 0
  | some flags =>
    if ∀ v ∈ flags, v = 1 then (s'.fld j).nnFldId < 0
    else ∃ k : Nat, (s'.fld j).nnFldId = k ∧ (s'.file k).map DataFile.cells = some flags

/-- The table has these many rows, and its field of this name has these cells and null flags. -/
structure CopiedTo (s' : Store) (t2 : Name) (t2Id : Nat) (f1 : Name) (fldtype : FldType)
    (cells : List Int) (flags : Option (List Int)) : Prop where
  tbl : isTbl s' t2 = some t2Id ∧ (s'.tbl t2Id).nR = cells.length
  fld : ∃ j, isFld s' t2Id f1 = some j ∧ (s'.fld j).fldtype = fldtype ∧
    (s'.file j).map DataFile.cells = some cells ∧ FlagsCopied s' j flags

/-! ### Flags -/

/-- What is found when the null flags are looked up. -/
lemma NullFlags.found {a nR1 : Nat} {nn : Option DataFile} (h : NullFlags env s a nR1 nn) :
    (if 0 ≤ (s.fld a).nnFldId then getData env s (s.fld (s.fld a).nnFldId.toNat) else none) = nn := by
  cases nn with
  | none => exact if_neg (not_le.mpr h)
  | some y =>
    rw [if_pos h.1]
    exact h.2.1

/-- The sum of flags is the number of those that are TRUE. -/
lemma sum_eq_count {bytes : List Int} (h : ∀ v ∈ bytes, v = 0 ∨ v = 1) : bytes.sum = bytes.count 1 := by
  induction bytes with
  | nil => rfl
  | cons v bytes ih =>
    rw [List.forall_mem_cons] at h
    rw [List.sum_cons, ih h.2]
    rcases h.1 with rfl | rfl
    · rw [List.count_cons_of_ne (by decide), Int.zero_add]
    · rw [List.count_cons_self]
      push_cast
      exact Int.add_comm _ _

/-- A sum of flags is their number only if all of them are TRUE. -/
lemma sum_flags_eq_length {flags : List Int} (h : ∀ v ∈ flags, v = 0 ∨ v = 1) :
    flags.sum = flags.length ↔ ∀ v ∈ flags, v = 1 := by
  rw [sum_eq_count h, Int.ofNat_inj, List.count_eq_length]
  exact forall₂_congr fun v _ => eq_comm

/-! ### The calls -/

/-- The table of the copy. -/
lemma copyTarget_succeeds {t2 : Name} {t2Id : Nat} {nR2 : Int} (ht2 : t2 ≠ []) (hnR2 : 0 < nR2)
    (h : TargetOk env s t2 t2Id nR2) :
    ∃ tbls, copyTarget env t2 nR2 (isTbl s t2) s = (some t2Id, { s with tbls := tbls }) ∧
      isTbl { s with tbls := tbls } t2 = some t2Id ∧ (tbls.getD t2Id zeroTblRec).nR = nR2 := by
  rcases h with ⟨htbl, hrows⟩ | ⟨hnew, hname, hslot⟩
  · refine ⟨s.tbls, ?_, htbl, hrows⟩
    rw [htbl, copyTarget, Cmd.get_bind, Cmd.require_bind, if_pos hrows]
    rfl
  · have hlt : t2Id < s.tbls.length := by
      unfold getEmptyTbl at hslot
      rw [if_neg ht2] at hslot
      exact (findFrom_eq_some zeroTblRec hslot).1
    refine ⟨s.tbls.set t2Id { s.tbl t2Id with name := t2, nR := nR2, tbltype := .regular }, ?_, ?_, ?_⟩
    · rw [hnew, copyTarget, addTbl_new hnR2 hname hnew hslot]
      rfl
    · rw [isTbl, List.findIdx?_eq_none_iff] at hnew
      rw [isTbl, List.findIdx?_eq_some_iff_getElem]
      refine ⟨by simpa using hlt, by simp, fun i hi => ?_⟩
      rw [List.getElem_set_ne (by omega)]
      exact Bool.eq_false_iff.mp (hnew _ (List.getElem_mem _))
    · simp [hlt]

/-- A temporary file: where it is, and that no field refers to it. -/
lemma withTemp_unowned (hfilenos : ∀ i, (s.fld i).fileno < s.nextFileno) (d : Int) (f : DataFile) :
    Unowned d s.nextFileno f (s.withTemp d f) :=
  ⟨if_pos ⟨rfl, rfl⟩, fun i => (hfilenos i).ne⟩

lemma mkTempFile_room {f : DataFile} (hsize : f.size ≠ 0) (hnext : 0 ≤ s.nextFileno)
    (hroom : (env.roomDir f.size).isSome = true) : ∃ d : Nat, env.canEnter d = true ∧
      mkTempFile env f s = (some ((d : Int), s.nextFileno), s.withTemp d f) := by
  obtain ⟨d, hd⟩ := Option.isSome_iff_exists.mp hroom
  refine ⟨d, (roomDir_eq_some.mp hd).2, ?_⟩
  rw [mkTempFile_eq hsize hnext, hd]

/-- The state of the slots once a field of the name of the copy has been deleted. -/
structure SlotsFreed (s s' : Store) (t : Nat) (fld : Name) : Prop where
  tbls : s'.tbls = s.tbls
  length : s'.flds.length = s.flds.length
  flds : ∀ i, s'.fld i = s.fld i ∨ s'.fld i = zeroFldRec ∧
    (isFld s t fld = some i ∨ (s.fld i).auxtype ≠ .undefAuxtype)
  gone : ∀ i, ¬ ((s'.fld i).tblId = t ∧ (s'.fld i).name = fld)
  unused : s.unusedRecs ≤ s'.unusedRecs
  index : IndexOk s'.flds.length s'.info

lemma freeSlots_mono (hlen : s'.flds.length = s.flds.length)
    (h : ∀ j, (s.fld j).name = [] → (s'.fld j).name = []) : s.freeSlots ≤ s'.freeSlots := by
  have hmap : ∀ t : Store, t.flds = (List.range t.flds.length).map t.fld := by
    intro t
    refine List.ext_getElem (by simp) fun i h₁ h₂ => ?_
    simp [Store.fld, h₁]
  unfold Store.freeSlots
  rw [hmap s, hmap s', hlen, List.countP_map, List.countP_map]
  refine List.countP_mono_left fun j _ hfree => ?_
  exact decide_eq_true (h j (of_decide_eq_true hfree))

lemma SlotsFreed.slots {t : Nat} {fld : Name} (h : SlotsFreed s s' t fld) : s.freeSlots ≤ s'.freeSlots :=
  freeSlots_mono h.length fun i hfree => by
    rcases h.flds i with hsame | ⟨hzero, -⟩
    · rw [hsame]
      exact hfree
    · rw [hzero]
      rfl

/-- The field of the name of the copy is deleted if there is one. -/
lemma delOld_succeeds {t : Nat} {fld : Name} (hfld : fld ≠ []) (h : IndexRoom s 3)
    (hunique : ∀ i, (s.fld i).tblId = t → (s.fld i).name = fld → isFld s t fld = some i)
    (hold : ∀ i, isFld s t fld = some i → Deletable env s i ∧ ¬ IsDict s i) :
    ∃ s', delFld env [] t fld (-1) s = (some (), s') ∧ SlotsFreed s s' t fld ∧
      ∀ d n f, n ≠ 0 → Unowned d n f s → Unowned d n f s' := by
  rw [delFld_name (Int.natCast_nonneg t) hfld]
  cases hfound : isFld s t fld with
  | none =>
    refine ⟨s, rfl, ⟨rfl, rfl, fun i => .inl rfl, isFld_eq_none hfld hfound, le_rfl, h.index⟩, ?_⟩
    exact fun _ _ _ _ h => h
  | some i =>
    obtain ⟨hdel, hdict⟩ := hold i hfound
    obtain ⟨s₁, hrun, hswept, -⟩ := delFldAt_succeeds hdel hdict
    obtain ⟨reset, hdeleted⟩ := delFldAt_eq_some h.small h.index hrun
    have hzero : s₁.fld i = zeroFldRec := by rw [hdeleted.flds, if_pos (.inl rfl)]
    refine ⟨s₁, hrun, ⟨hswept.tbls, hdeleted.frame.length, ?_, ?_, ?_, hdeleted.index⟩, ?_⟩
    · intro j
      rcases hswept.flds j with hsame | ⟨hz, rfl | ⟨-, haux⟩⟩
      · exact .inl hsame
      · exact .inr ⟨hz, .inl hfound⟩
      · exact .inr ⟨hz, .inr haux⟩
    · rintro j ⟨htbl, hname⟩
      rcases hswept.flds j with hsame | ⟨hz, -⟩
      · rw [hsame] at htbl hname
        obtain rfl := Option.some.inj (hfound.symm.trans (hunique j htbl hname))
        rw [hzero] at hsame
        exact hfld (hname.symm.trans (congrArg FldRec.name hsame).symm)
      · rw [hz] at hname
        exact hfld hname.symm
    · have hused := hswept.info (fun r => !decide (r.mode = .undefFldInfo)) rfl
      have hsplit := List.length_eq_countP_add_countP (fun r : FldInfo => decide (r.mode = .undefFldInfo))
        (l := s.info)
      have hsplit' := List.length_eq_countP_add_countP (fun r : FldInfo => decide (r.mode = .undefFldInfo))
        (l := s₁.info)
      rw [hswept.length] at hsplit'
      unfold Store.unusedRecs
      simp only [Bool.not_eq_true, decide_eq_false_iff_not, decide_not] at hsplit hsplit' hused ⊢
      omega
    · intro d n f hn hunowned
      have hkeep : Unowned d n f (delFldAt env i s).2 :=
        (keptByDel_unowned hn).keeps_delFldAt i s hunowned
      rw [hrun] at hkeep
      exact hkeep

/-! ### Entering the copy -/

/-- The state in which the file of the copy has been written and no field refers to it yet. -/
structure CopyReady (env : Env) (s : Store) (t2 : Name) (t2Id a : Nat) (f1 : Name) (nR2 : Nat)
    (f : DataFile) (d n : Int) : Prop where
  name : chkFldName f1 = true
  tbl : isTbl s t2 = some t2Id ∧ (s.tbl t2Id).nR = nR2
  unique : ∀ i, (s.fld i).tblId = t2Id → (s.fld i).name = f1 → isFld s t2Id f1 = some i
  old : ∀ i, isFld s t2Id f1 = some i → Deletable env s i ∧ ¬ IsDict s i
  source : (s.fld a).auxtype = .undefAuxtype ∧ (s.fld a).name = f1 ∧ (s.fld a).tblId ≠ t2Id
  fldtype : (s.fld a).fldtype ∈ [FldType.I1, .I2, .I4, .I8, .F4, .F8]
  width : getFldSz (s.fld a).fldtype = some (f.width : Int)
  length : 0 < nR2 ∧ f.cells.length = nR2
  index : IndexRoom s 3
  fileno : env.canEnter d = true ∧ 0 < n
  file : Unowned d n f s
  slot : 0 < s.freeSlots

/-- Slot `j` holds the copy, and is the only one to hold a field of its table with its name. -/
structure Entered (s : Store) (t2 : Name) (t2Id : Nat) (f1 : Name) (nR2 : Nat) (fldtype : FldType)
    (f : DataFile) (j : Nat) : Prop where
  tbl : isTbl s t2 = some t2Id ∧ (s.tbl t2Id).nR = nR2
  slot : j < s.flds.length
  only : ∀ i, ((s.fld i).tblId = t2Id ∧ (s.fld i).name = f1) ↔ i = j
  fldtype : (s.fld j).fldtype = fldtype
  file : s.file j = some f

lemma chkFileSize_copy {f : DataFile} {nR2 : Nat} {d n : Int} {t : FldType}
    (ht : t ∈ [FldType.I1, .I2, .I4, .I8, .F4, .F8]) (hwidth : getFldSz t = some (f.width : Int))
    (hpos : 0 < nR2) (hlen : f.cells.length = nR2) (hmap : qMmap env s d n = some f) :
    chkFileSize env s nR2 { zeroFldRec with fldtype := t, fileno := n, ddirId := d } = some f.size := by
  have hsize : (f.width : Int) * nR2 = f.size := by
    rw [DataFile.size, hlen]
    push_cast
    rfl
  rw [chkFileSize, if_neg (by omega), hmap]
  simp only [List.mem_cons, List.not_mem_nil, or_false] at ht
  rcases ht with rfl | rfl | rfl | rfl | rfl | rfl
  all_goals simp [hwidth, hsize]

lemma getFldSz_copy_pos {t : FldType} {w : Nat} (ht : t ∈ [FldType.I1, .I2, .I4, .I8, .F4, .F8])
    (hwidth : getFldSz t = some (w : Int)) : 0 < w := by
  have hsc : t ≠ .SC := fun h => by simp [h] at ht
  have hsv : t ≠ .SV := fun h => by simp [h] at ht
  obtain ⟨k, hk, hkw⟩ := getFldSz_pos hwidth hsc hsv
  omega

lemma CopyReady.qMmap {t2 f1 : Name} {t2Id a nR2 : Nat} {f : DataFile} {d n : Int}
    (h : CopyReady env s t2 t2Id a f1 nR2 f d n) : qMmap env s d n = some f := by
  have hpos : 0 < f.size := by
    rw [DataFile.size, h.length.2]
    exact Nat.mul_pos (getFldSz_copy_pos h.fldtype h.width) h.length.1
  rw [Datacl.qMmap, if_pos ⟨h.fileno.1, h.fileno.2.le⟩, h.file.file]
  exact Option.filter_some_pos (decide_eq_true hpos.ne')

/-- The table of the copy is another one than that of the field. -/
lemma TargetOk.ne {t1 t2 : Name} {t1Id t2Id : Nat} {nR2 : Int} (h : TargetOk env s t2 t2Id nR2)
    (ht1 : t1 ≠ []) (ht2 : t2 ≠ []) (hne : t1 ≠ t2) (htbl : isTbl s t1 = some t1Id) : t1Id ≠ t2Id := by
  rintro rfl
  have hname := (isTbl_eq_some htbl).2
  rcases h with ⟨htbl', -⟩ | ⟨-, -, hslot⟩
  · exact hne (hname.symm.trans (isTbl_eq_some htbl').2)
  · unfold getEmptyTbl at hslot
    rw [if_neg ht2] at hslot
    have hfree : (s.tbl t1Id).name = [] := of_decide_eq_true (findFrom_eq_some zeroTblRec hslot).2
    exact ht1 (hname.symm.trans hfree)

lemma TargetOk.congr {t2 : Name} {t2Id : Nat} {nR2 : Int} (h : TargetOk env s t2 t2Id nR2)
    (htbls : s'.tbls = s.tbls) : TargetOk env s' t2 t2Id nR2 := by
  unfold TargetOk isTbl getEmptyTbl Store.tbl at h ⊢
  rw [htbls]
  exact h

/-- The records differ at most in the recorded sum. -/
def FldRec.SameButSum (r r' : FldRec) : Prop :=
  ∃ numNn sumval isSumNn, r' = { r with numNn := numNn, sumval := sumval, isSumNn := isSumNn }

lemma FldRec.SameButSum.refl (r : FldRec) : r.SameButSum r := ⟨_, _, _, rfl⟩

/-- The fields of the store differ at most in their recorded sums. -/
structure SameButSums (s s' : Store) : Prop where
  length : s'.flds.length = s.flds.length
  info : s'.info = s.info
  flds : ∀ i, (s.fld i).SameButSum (s'.fld i)

lemma SameButSums.trans_same {s₂ : Store} (h : SameButSums s s') (hflds : s₂.flds = s'.flds)
    (hinfo : s₂.info = s'.info) : SameButSums s s₂ := by
  refine ⟨?_, hinfo.trans h.info, fun i => ?_⟩
  · rw [hflds]
    exact h.length
  · have hfld : s₂.fld i = s'.fld i := by rw [Store.fld, hflds, Store.fld]
    rw [hfld]
    exact h.flds i

lemma SameButSums.of_same (hflds : s'.flds = s.flds) (hinfo : s'.info = s.info) : SameButSums s s' := by
  have hrefl : SameButSums s s := ⟨rfl, rfl, fun i => FldRec.SameButSum.refl _⟩
  exact hrefl.trans_same hflds hinfo

lemma SameButSums.key (h : SameButSums s s') (i : Nat) :
    (s'.fld i).tblId = (s.fld i).tblId ∧ (s'.fld i).name = (s.fld i).name := by
  obtain ⟨_, _, _, hi⟩ := h.flds i
  rw [hi]
  exact ⟨rfl, rfl⟩

lemma SameButSums.isFld (h : SameButSums s s') (t : Int) (fld : Name) : isFld s' t fld = isFld s t fld := by
  refine Option.ext fun i => ?_
  rw [isFld_eq_some_iff, isFld_eq_some_iff, h.length]
  simp only [(h.key _).1, (h.key _).2]

lemma SameButSums.freeSlots (h : SameButSums s s') : s.freeSlots ≤ s'.freeSlots :=
  freeSlots_mono h.length fun i hfree => by
    rw [(h.key i).2]
    exact hfree

lemma SameButSums.auxOk (h : SameButSums s s') {i a : Nat} {k : AuxType} (haux : AuxOk env s i k a) :
    AuxOk env s' i k a := by
  obtain ⟨_, _, _, ha⟩ := h.flds a
  refine ⟨?_, ?_, ?_⟩
  · rw [ha]
    exact haux.auxtype
  · rw [ha]
    exact haux.parent
  · rw [ha]
    exact haux.file

lemma SameButSums.deletable (h : SameButSums s s') {i : Nat} (hdel : Deletable env s i) : Deletable env s' i := by
  obtain ⟨_, _, _, hi⟩ := h.flds i
  refine ⟨?_, ?_, ?_, ⟨?_, ?_⟩⟩
  · rw [hi]
    exact hdel.primary
  · rw [hi]
    exact hdel.file
  · rw [hi]
    intro hnn
    obtain ⟨haux, hext⟩ := hdel.nn hnn
    obtain ⟨_, _, _, hk⟩ := h.flds (s.fld i).nnFldId.toNat
    refine ⟨h.auxOk haux, ?_⟩
    rw [hk]
    exact hext
  · rw [h.info]
    intro r hr hri
    obtain ⟨h0, hmode, hrec⟩ := hdel.index.recs r hr hri
    refine ⟨h0, hmode, fun htxt hx => ?_⟩
    obtain ⟨k, hk, hok⟩ := hrec htxt hx
    exact ⟨k, hk, h.auxOk hok⟩
  · rw [h.info]
    exact hdel.index.once

/-- The table of the copy, its files and a sum that is recorded do not get in the way. -/
lemma CopyRoom.ready {t1 f1 t2 : Name} {t2Id a nR1 nR2 : Nat} {x f : DataFile} {nn : Option DataFile}
    {hasNn : Bool} {d n : Int} (room : CopyRoom env s t1 f1 t2 t2Id x.width nR2 hasNn)
    (src : CopySource env s t1 f1 a nR1 x nn) (hsame : SameButSums s s')
    (htbl : isTbl s' t2 = some t2Id ∧ (s'.tbl t2Id).nR = nR2) (hwidth : f.width = x.width)
    (hlen : 0 < nR2 ∧ f.cells.length = nR2) (hn : env.canEnter d = true ∧ 0 < n)
    (hfile : Unowned d n f s') : CopyReady env s' t2 t2Id a f1 nR2 f d n := by
  obtain ⟨ht1, t1Id, htbl1, -, hfld1⟩ := src.tbl
  obtain ⟨-, hsrcTbl, hsrcName⟩ := isFld_eq_some hfld1
  have hne := room.target.ne ht1 room.names.2.1 room.names.2.2 htbl1
  obtain ⟨_, _, _, ha⟩ := hsame.flds a
  refine ⟨room.names.1, htbl, fun i => ?_, fun i => ?_, ?_, ?_, ?_, hlen, ⟨?_, ?_, ?_⟩, hn, hfile, ?_⟩
  · rw [hsame.isFld, (hsame.key i).1, (hsame.key i).2]
    exact room.unique i
  · rw [hsame.isFld]
    intro hi
    obtain ⟨hdel, hdict⟩ := room.old i hi
    refine ⟨hsame.deletable hdel, ?_⟩
    rw [IsDict, hsame.info]
    exact hdict
  · rw [(hsame.key a).1, (hsame.key a).2, hsrcTbl, ha]
    exact ⟨src.primary, hsrcName, by exact_mod_cast hne⟩
  · rw [ha]
    exact src.fldtype
  · rw [ha, hwidth]
    exact src.column.width
  · rw [hsame.length]
    exact room.index.small
  · rw [hsame.length, hsame.info]
    exact room.index.index
  · rw [Store.unusedRecs, hsame.info]
    exact room.index.room
  · exact Nat.lt_of_lt_of_le room.slot hsame.freeSlots

/-- A slot is free for the copy, and it is not the slot of the field. -/
lemma CopyReady.newSlot {t2 f1 : Name} {t2Id a nR2 : Nat} {f : DataFile} {d n : Int}
    (h : CopyReady env s t2 t2Id a f1 nR2 f d n) (hfreed : SlotsFreed s s' t2Id f1) :
    ∃ j, getEmptyFld env s' f1 = some j ∧ j < s'.flds.length ∧ (s'.fld j).name = [] ∧ j ≠ a := by
  have hf1 := chkFldName_ne_nil h.name
  obtain ⟨j, hj⟩ : ∃ j, getEmptyFld env s' f1 = some j := by
    rw [← Option.isSome_iff_exists, Option.isSome_iff_ne_none, Ne, getEmptyFld_eq_none hf1]
    have hpos := h.slot
    have hslots := hfreed.slots
    omega
  obtain ⟨hlt, hfree⟩ := getEmptyFld_eq_some hj
  refine ⟨j, hj, hlt, hfree, ?_⟩
  rintro rfl
  rcases hfreed.flds j with hsame | ⟨-, hfound | haux⟩
  · rw [hsame, h.source.2.1] at hfree
    exact hf1 hfree
  · exact h.source.2.2 (isFld_eq_some hfound).2.1
  · exact haux h.source.1

lemma CopyReady.addFld_eq {t2 f1 : Name} {t2Id a nR2 j : Nat} {f : DataFile} {d n : Int}
    (h : CopyReady env s t2 t2Id a f1 nR2 f d n) (hdel : delFld env [] t2Id f1 (-1) s = (some (), s'))
    (hj : getEmptyFld env s' f1 = some j) :
    addFld env t2Id f1 d n { zeroFldRec with fldtype := (s.fld a).fldtype } s =
      (some j, s'.setFld j (addedRec t2Id f1 d n f.size { zeroFldRec with fldtype := (s.fld a).fldtype })) := by
  have htype : (s.fld a).fldtype ≠ .undefFldtype := by
    intro heq
    have ht := h.fldtype
    simp [heq] at ht
  have hsize := chkFileSize_copy h.fldtype h.width h.length.1 h.length.2 h.qMmap
  refine Datacl.addFld_eq htype h.name h.fileno.2 h.fileno.1 (isTbl_eq_some h.tbl.1).1 ?_ ?_ hdel hj
  · rw [h.tbl.2]
    exact_mod_cast h.length.1
  · rw [h.tbl.2]
    exact hsize

/-- A record in the slot that has been found makes it the copy. -/
lemma SlotsFreed.entered {t2 f1 : Name} {t2Id nR2 j : Nat} {f : DataFile} {r : FldRec}
    (hfreed : SlotsFreed s s' t2Id f1) (htbl : isTbl s t2 = some t2Id ∧ (s.tbl t2Id).nR = nR2)
    (hlt : j < s'.flds.length) (hkey : r.tblId = t2Id ∧ r.name = f1) (hfile : Unowned r.ddirId r.fileno f s')
    (info : List FldInfo) :
    Entered { s'.setFld j r with info := info } t2 t2Id f1 nR2 r.fldtype f j := by
  have hfld : ∀ i, ({ s'.setFld j r with info := info } : Store).fld i = if i = j then r else s'.fld i := by
    intro i
    show (s'.setFld j r).fld i = _
    rw [Store.fld_setFld]
    simp only [hlt, and_true]
  refine ⟨?_, ?_, fun i => ?_, ?_, ?_⟩
  · show isTbl s' t2 = some t2Id ∧ (s'.tbl t2Id).nR = nR2
    rw [isTbl, Store.tbl, hfreed.tbls]
    exact htbl
  · simpa using hlt
  · rw [hfld]
    split
    · next hij => exact iff_of_true hkey hij
    · next hij => exact iff_of_false (hfreed.gone i) hij
  · rw [hfld, if_pos rfl]
  · rw [Store.file, hfld, if_pos rfl]
    exact hfile.file

/-- A record in a free slot takes one slot. -/
lemma SlotsFreed.freeSlots {t : Nat} {fld : Name} (hfreed : SlotsFreed s s' t fld) {j : Nat} {r : FldRec}
    (hlt : j < s'.flds.length) (hfree : (s'.fld j).name = []) (hname : r.name ≠ []) (info : List FldInfo) :
    s.freeSlots ≤ ({ s'.setFld j r with info := info } : Store).freeSlots + 1 := by
  have hslots := hfreed.slots
  have hcount := s'.freeSlots_setFld hlt r
  rw [if_pos hfree, if_neg hname] at hcount
  show s.freeSlots ≤ (s'.setFld j r).freeSlots + 1
  omega

/-- The copy is entered, and what is known about the field goes with it. -/
lemma addCopy_succeeds {t2 f1 : Name} {t2Id a nR2 : Nat} {f : DataFile} {d n : Int}
    (h : CopyReady env s t2 t2Id a f1 nR2 f d n) :
    ∃ j s', (∀ rest : Nat → Cmd Store Unit,
      (addFld env t2Id f1 d n { zeroFldRec with fldtype := (s.fld a).fldtype } >>= fun j =>
        Cmd.modify (fun s => s.setFld j { s.fld j with srttype := (s.fld a).srttype }) >>= fun _ =>
          copyMeta j a >>= fun _ => rest j) s = rest j s') ∧
      Entered s' t2 t2Id f1 nR2 (s.fld a).fldtype f j ∧ (s'.fld j).fileno = n ∧ (s'.fld j).nnFldId < 0 ∧
      s.freeSlots ≤ s'.freeSlots + 1 ∧
      ∀ e m g, m ≠ 0 → m ≠ n → Unowned e m g s → Unowned e m g s' := by
  have hf1 := chkFldName_ne_nil h.name
  obtain ⟨s₁, hdel, hfreed, hkeep⟩ := delOld_succeeds hf1 h.index h.unique h.old
  obtain ⟨j, hj, hjlt, hjfree, hja⟩ := h.newSlot hfreed
  have hadd := h.addFld_eq hdel hj
  obtain ⟨r, hr⟩ : ∃ r, r = addedRec t2Id f1 d n f.size { zeroFldRec with fldtype := (s.fld a).fldtype } :=
    ⟨_, rfl⟩
  rw [← hr] at hadd
  obtain ⟨t, ht⟩ : ∃ t, t = (s₁.fld a).srttype := ⟨_, rfl⟩
  have hset : (s₁.setFld j r).setFld j { (s₁.setFld j r).fld j with srttype := t } =
      s₁.setFld j { r with srttype := t } := by
    rw [Store.fld_setFld_of_lt hjlt, Store.setFld_setFld]
  have hindex : IndexRoom (s₁.setFld j { r with srttype := t }) 3 := by
    refine ⟨?_, ?_, h.index.room.trans hfreed.unused⟩
    · rw [Store.length_setFld, hfreed.length]
      exact h.index.small
    · rw [Store.length_setFld]
      exact hfreed.index
  obtain ⟨info, hmeta⟩ := copyMeta_succeeds hja (by rwa [Store.length_setFld]) hindex
  rw [Store.fld_setFld_of_lt hjlt, Store.setFld_setFld, Store.fld_setFld_of_ne (Ne.symm hja), ← ht] at hmeta
  have hname : r.tblId = t2Id ∧ r.name = f1 := by
    rw [hr]
    exact ⟨rfl, rfl⟩
  have hfile : r.fldtype = (s.fld a).fldtype ∧ r.fileno = n ∧ r.ddirId = d ∧ r.nnFldId < 0 := by
    rw [hr]
    exact ⟨rfl, rfl, rfl, (by decide : zeroFldRec.nnFldId < 0)⟩
  have hfld : ({ s₁.setFld j { r with srttype := t } with info := info } : Store).fld j =
      { r with srttype := t } := Store.fld_setFld_of_lt hjlt _
  have hentered := hfreed.entered (r := { r with srttype := t }) h.tbl hjlt hname
    (by rw [hfile.2.1, hfile.2.2.1]; exact hkeep d n f h.fileno.2.ne' h.file) info
  refine ⟨j, { s₁.setFld j { r with srttype := t } with info := info }, fun rest => ?_, ?_, ?_, ?_,
    hfreed.freeSlots hjlt hjfree (by rw [hname.2]; exact hf1) info, ?_⟩
  · rw [Cmd.bind_of_eq hadd, Cmd.modify_bind]
    show (copyMeta j a >>= fun _ => rest j) ((s₁.setFld j r).setFld j { (s₁.setFld j r).fld j with
      srttype := ((s₁.setFld j r).fld a).srttype }) = _
    rw [Store.fld_setFld_of_ne (Ne.symm hja), ← ht, hset, Cmd.bind_of_eq hmeta]
  · rw [← hfile.1]
    exact hentered
  · rw [hfld]
    exact hfile.2.1
  · rw [hfld]
    exact hfile.2.2.2
  · intro e m g hm hmn hunowned
    have hkept := (hkeep e m g hm hunowned).setFld (i := j) (r := { r with srttype := t })
      (by show r.fileno ≠ m; rw [hfile.2.1]; exact hmn.symm)
    exact hkept.sameFlds rfl rfl

/-! ### The null column of the copy -/

lemma Entered.used {t2 f1 : Name} {t2Id nR2 j : Nat} {t : FldType} {f : DataFile} (hf1 : f1 ≠ [])
    (h : Entered s t2 t2Id f1 nR2 t f j) : (s.fld j).Used := by
  rw [FldRec.Used, ((h.only j).mpr rfl).2]
  exact hf1

/-- What `is_fld` finds is the copy. -/
lemma Entered.isFld {t2 f1 : Name} {t2Id nR2 j : Nat} {t : FldType} {f : DataFile}
    (h : Entered s t2 t2Id f1 nR2 t f j) : isFld s t2Id f1 = some j := by
  refine isFld_eq_some_iff.mpr ⟨h.slot, (h.only j).mpr rfl, fun i hi hmatch => ?_⟩
  exact hi.ne ((h.only i).mp hmatch)

lemma Entered.copiedTo_iff {t2 f1 : Name} {t2Id nR2 j : Nat} {t : FldType} {f : DataFile}
    (h : Entered s t2 t2Id f1 nR2 t f j) (hlen : f.cells.length = nR2) (cells : List Int)
    (flags : Option (List Int)) :
    CopiedTo s t2 t2Id f1 t cells flags ↔ f.cells = cells ∧ FlagsCopied s j flags := by
  constructor
  · rintro ⟨-, i, hi, -, hcells, hflags⟩
    obtain rfl := Option.some.inj (h.isFld.symm.trans hi)
    rw [h.file] at hcells
    exact ⟨Option.some.inj hcells, hflags⟩
  · rintro ⟨rfl, hflags⟩
    refine ⟨⟨h.tbl.1, by rw [h.tbl.2, hlen]⟩, j, h.isFld, h.fldtype, ?_, hflags⟩
    rw [h.file]
    rfl

/-- The file of the null flags is not needed. -/
lemma Entered.qDelete {t2 f1 : Name} {t2Id nR2 j : Nat} {t : FldType} {f : DataFile}
    (h : Entered s t2 t2Id f1 nR2 t f j) {n : Int} (hne : (s.fld j).fileno ≠ n) (d : Int) :
    Entered (s.setFile d n none) t2 t2Id f1 nR2 t f j := by
  refine ⟨h.tbl, h.slot, h.only, h.fldtype, ?_⟩
  rw [Store.file, Store.fld_setFile]
  exact (if_neg fun heq => hne heq.2).trans h.file

/-- The file of the null flags becomes the null column of the copy. -/
lemma Entered.addNn {t2 f1 : Name} {t2Id nR2 j : Nat} {t : FldType} {f : DataFile}
    (h : Entered s t2 t2Id f1 nR2 t f j) (hnone : (s.fld j).nnFldId < 0) (hname : chkFldName f1 = true)
    (hroom : f1.length + (auxPrefix .nn).length ≤ maxLenName) (hslot : 0 < s.freeSlots)
    {d n : Int} {y : DataFile} (hd : env.canEnter d = true) (hn : 0 ≤ n) (hfile : Unowned d n y s)
    (hsize : y.size ≠ 0) :
    ∃ k s', addAuxFld env [] t2Id [] j d n .nn { zeroFldRec with fldtype := .I1 } s = (some k, s') ∧
      Entered s' t2 t2Id f1 nR2 t f j ∧ (s'.fld j).nnFldId = k ∧ s'.file k = some y := by
  have hfld := ((h.only j).mpr rfl).2
  have hused := h.used (chkFldName_ne_nil hname)
  have hmap : qMmap env s d n = some y := by
    rw [qMmap, if_pos ⟨hd, hn⟩, hfile.file]
    exact Option.filter_some_pos (decide_eq_true hsize)
  obtain ⟨name, haux⟩ := Option.isSome_iff_exists.mp ((mkNameAuxFld_isSome hname).mpr hroom)
  have hlong : name ≠ f1 := by
    unfold mkNameAuxFld at haux
    split_ifs at haux
    intro heq
    have hlen := congrArg List.length ((Option.some.inj haux).trans heq)
    rw [List.length_append] at hlen
    have hpos : 0 < (auxPrefix .nn).length := by decide
    omega
  obtain ⟨k, hk⟩ : ∃ k, getEmptyFld env s name = some k := by
    rw [← Option.isSome_iff_exists, Option.isSome_iff_ne_none, Ne, getEmptyFld_eq_none (nnName_ne_nil haux)]
    exact hslot.ne'
  have hnn : nnSlot env s (s.fld j).name = some (name, k) := by
    rw [nnSlot, hfld, haux, Option.bind_some, hk, Option.map_some]
  obtain ⟨-, hklt, hkfree⟩ := nnSlot_eq_some hnn
  have hkj : k ≠ j := by
    rintro rfl
    exact hused hkfree
  have hadd := addNn_eq t2Id h.slot hnone hn hmap
  rw [hnn] at hadd
  refine ⟨k, _, hadd, ⟨h.tbl, ?_, ?_, ?_, ?_⟩, ?_, ?_⟩
  · simpa [Store.linkNn] using h.slot
  · intro i
    by_cases hik : i = k
    · subst hik
      rw [Store.linkNn_fld_nn hklt]
      exact iff_of_false (fun hmatch => hlong hmatch.2) hkj
    · by_cases hij : i = j
      · subst hij
        rw [Store.linkNn_fld h.slot hkj]
        exact h.only i
      · have hother : (s.linkNn j k (newNn t2Id j d n name y.size)).fld i = s.fld i := by
          rw [Store.linkNn, Store.fld_setFld_of_ne hik, Store.fld_setFld_of_ne hij, Store.fld_setFld_of_ne hik]
        rw [hother]
        exact h.only i
  · rw [Store.linkNn_fld h.slot hkj]
    exact h.fldtype
  · rw [Store.file_linkNn h.slot hkj]
    exact h.file
  · rw [Store.linkNn_fld h.slot hkj]
  · rw [Store.file, Store.linkNn_fld_nn hklt]
    exact hfile.file

/-! ### A table with null values -/

/-- Table `t` with the column `f`, which has a null value in the second row, and the condition `c`. -/
def copyStore (cond : List Int) : Store where
  tbls := [⟨3, false, ['t'], .regular⟩, zeroTblRec]
  flds := [{ intFld 0 1 1 with filesz := 12 }, newNn 0 0 0 2 (auxPrefix .nn ++ ['f']) 3,
    { intFld 0 3 (-1) with filesz := 3, fldtype := .I1, name := ['c'] }, zeroFldRec, zeroFldRec]
  info := List.replicate 3 zeroFldInfoRec
  nextFileno := 4
  disk := fun d n =>
    if d = 0 ∧ n = 1 then some ⟨4, [7, 8, 9]⟩
    else if d = 0 ∧ n = 2 then some ⟨1, [1, 0, 1]⟩
    else if d = 0 ∧ n = 3 then some ⟨1, cond⟩
    else none

lemma copyStore_source (cond : List Int) :
    CopySource openEnv (copyStore cond) ['t'] ['f'] 0 3 ⟨4, [7, 8, 9]⟩ (some ⟨1, [1, 0, 1]⟩) := by
  have hfldtype : ((copyStore []).fld 0).fldtype ∈ [FldType.I1, .I2, .I4, .I8, .F4, .F8] := by decide
  have hnn : 0 ≤ ((copyStore []).fld 0).nnFldId := by decide
  exact ⟨⟨by decide, 0, rfl, rfl, rfl⟩, rfl, ⟨rfl, rfl, rfl⟩, hfldtype, hnn, rfl, rfl, rfl, by decide⟩

lemma copyStore_room (cond : List Int) (nR2 : Nat) :
    CopyRoom openEnv (copyStore cond) ['t'] ['f'] ['u'] 1 4 nR2 true := by
  have hnone : isFld (copyStore cond) 1 ['f'] = none := rfl
  have hfree : ∀ i, ¬ (((copyStore cond).fld i).tblId = 1 ∧ ((copyStore cond).fld i).name = ['f']) :=
    isFld_eq_none (by decide) hnone
  have hindex : IndexRoom (copyStore []) 3 := 
    ⟨by decide, ⟨by decide, fun r hr => .inl (List.eq_of_mem_replicate hr)⟩, by decide⟩
  have hnext : 0 < (copyStore []).nextFileno := by decide
  have hslots : 1 < (copyStore []).freeSlots := by decide
  have hfileno : ∀ i < 5, ((copyStore []).fld i).fileno < 4 := by decide
  refine ⟨⟨by decide, by decide, by decide⟩, .inr ⟨rfl, by decide, rfl⟩,
    fun i htbl hname => absurd ⟨htbl, hname⟩ (hfree i), fun i hi => ?_, ⟨hnext, fun i => ?_⟩,
    ⟨hindex.small, hindex.index, hindex.room⟩, rfl, Nat.zero_lt_of_lt hslots, fun _ => ⟨by decide, rfl, hslots⟩⟩
  · exact absurd (hnone.symm.trans hi) (Option.some_ne_none i).symm
  · rcases Nat.lt_or_ge i 5 with hi | hi
    · exact hfileno i hi
    · have hzero : (copyStore cond).fld i = zeroFldRec := List.getD_eq_default _ _ hi
      rw [hzero]
      exact (by decide : zeroFldRec.fileno < 4)

end Datacl
