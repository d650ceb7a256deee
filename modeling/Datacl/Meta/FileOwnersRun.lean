import Datacl.Meta.FileOwnersAdd
import Datacl.Meta.LinksRun
import Datacl.Meta.Orphans

/-!
# The owners of files along a run
-/

namespace Datacl

variable {env : Env} {stoF8 : List Char → Option Int} {s s' s₀ : Store}

/-! ### Moving a field -/

lemma Store.fld_setFld_lt {i : Nat} (h : i < s.flds.length) (r : FldRec) (j : Nat) :
    (s.setFld i r).fld j = if j = i then r else s.fld j := by
  rw [Store.fld_setFld]
  simp [h]

/-- `add_fld` where no field has the name. -/
lemma addFld_absent {tblId : Nat} {fld : Name} {d n : Int} {rec : FldRec} {j : Nat}
    (habsent : isFld s tblId fld = none)
    (hrun : addFld env tblId fld d n rec s = (some j, s')) :
    ∃ f, 0 ≤ d ∧ s.disk d n = some f ∧ fld ≠ [] ∧ j < s.flds.length ∧ (s.fld j).name = [] ∧
      s' = s.setFld j (addedRec tblId fld d n f.size rec) := by
  unfold addFld at hrun
  obtain ⟨-, hrun⟩ := Cmd.require_bind_eq_some.mp hrun
  obtain ⟨hname, hrun⟩ := Cmd.require_bind_eq_some.mp hrun
  obtain ⟨-, hrun⟩ := Cmd.require_bind_eq_some.mp hrun
  obtain ⟨hdir, hrun⟩ := Cmd.require_bind_eq_some.mp hrun
  rw [Cmd.get_bind] at hrun
  obtain ⟨-, hrun⟩ := Cmd.require_bind_eq_some.mp hrun
  obtain ⟨-, hrun⟩ := Cmd.require_bind_eq_some.mp hrun
  obtain ⟨filesz, hsize, hrun⟩ := Cmd.ofOption_bind_eq_some.mp hrun
  obtain ⟨f, hf, rfl⟩ := chkFileSize_eq_some hsize
  have hne := name_ne_nil_of_chkFldName hname
  rw [Cmd.bind_of_eq (show delFld env [] tblId fld (-1) s = (some (), s) by
    rw [delFld_name (Int.natCast_nonneg tblId) hne, habsent]), Cmd.get_bind] at hrun
  obtain ⟨i, hempty, hrun⟩ := Cmd.ofOption_bind_eq_some.mp hrun
  rw [Cmd.modify_bind] at hrun
  obtain ⟨rfl, rfl⟩ := Cmd.pure_eq_some.mp hrun
  obtain ⟨hlt, hfree⟩ := getEmptyFld_eq_some hempty
  exact ⟨f, hdir.1, hf, hne, hlt, hfree, rfl⟩

lemma copyFldInfo_eq_some {dst src : Nat} {mode : FldInfoMode}
    (hrun : copyFldInfo dst src mode s = (some (), s')) : ∃ info, s' = { s with info := info } := by
  unfold copyFldInfo at hrun
  rw [Cmd.get_bind] at hrun
  rcases Cmd.when_eq_some.mp hrun with ⟨-, hrun⟩ | ⟨-, rfl⟩
  · exact ⟨_, (Prod.ext_iff.mp hrun).2.symm⟩
  · exact ⟨s'.info, rfl⟩

lemma copyMeta_store {dst src : Nat} (hrun : copyMeta dst src s = (some (), s')) :
    ∃ info, s' = { s.setFld dst { s.fld dst with srttype := (s.fld src).srttype } with
      info := info } := by
  unfold copyMeta at hrun
  obtain ⟨-, hrun⟩ := Cmd.require_bind_eq_some.mp hrun
  rw [Cmd.modify_bind] at hrun
  obtain ⟨_, s₁, h₁, hrun⟩ := Cmd.bind_eq_some.mp hrun
  obtain ⟨_, s₂, h₂, hrun⟩ := Cmd.bind_eq_some.mp hrun
  obtain ⟨info₁, rfl⟩ := copyFldInfo_eq_some h₁
  obtain ⟨info₂, rfl⟩ := copyFldInfo_eq_some h₂
  obtain ⟨info₃, rfl⟩ := copyFldInfo_eq_some hrun
  exact ⟨info₃, rfl⟩

/-- `add_aux_fld` for the nn field of a field that has none. -/
lemma addAuxFld_nn {tblId j : Nat} {d n : Int} {rec : FldRec} {auxId : Nat}
    (hnone : (s.fld j).nnFldId < 0)
    (hrun : addAuxFld env [] tblId [] j d n .nn rec s = (some auxId, s')) :
    ∃ f r, qMmap env s d n = some f ∧ (s.fld j).name ≠ [] ∧ auxId < s.flds.length ∧
      (s.fld auxId).name = [] ∧ r.ddirId = d ∧ r.fileno = n ∧ r.filesz = f.size ∧ r.name ≠ [] ∧
      r.nnFldId = -1 ∧ s'.disk = s.disk ∧ s'.nextFileno = s.nextFileno ∧ ∀ m, s'.fld m =
        if m = auxId then r else if m = j then { s.fld j with nnFldId := auxId } else s.fld m := by
  unfold addAuxFld at hrun
  obtain ⟨fldtype, -, hrun⟩ := Cmd.ofOption_bind_eq_some.mp hrun
  obtain ⟨-, hrun⟩ := Cmd.require_bind_eq_some.mp hrun
  obtain ⟨-, hrun⟩ := Cmd.require_bind_eq_some.mp hrun
  obtain ⟨-, hrun⟩ := Cmd.require_bind_eq_some.mp hrun
  obtain ⟨target, s₁, htarget, hrest⟩ := Cmd.bind_eq_some.mp hrun
  obtain ⟨rfl, rfl⟩ : target = ((tblId : Int), j) ∧ s = s₁ := by
    unfold auxTarget at htarget
    rw [if_pos ⟨Int.natCast_nonneg tblId, Int.natCast_nonneg j⟩] at htarget
    obtain ⟨_, s₂, hdrop, htarget⟩ := Cmd.bind_eq_some.mp htarget
    obtain ⟨rfl, rfl⟩ := Cmd.pure_eq_some.mp htarget
    unfold dropAuxFld delAuxFld at hdrop
    rw [if_pos (Int.natCast_nonneg j), Int.toNat_natCast, Cmd.get_bind] at hdrop
    obtain ⟨-, hdrop⟩ := Cmd.require_bind_eq_some.mp hdrop
    obtain ⟨-, hdrop⟩ := Cmd.require_bind_eq_some.mp hdrop
    rw [if_pos (show auxFldId s j .nn < 0 from hnone)] at hdrop
    exact ⟨rfl, (Cmd.pure_eq_some.mp hdrop).2.symm⟩
  dsimp only at hrest
  rw [Cmd.get_bind] at hrest
  obtain ⟨f, hf, hrest⟩ := Cmd.ofOption_bind_eq_some.mp hrest
  obtain ⟨auxFld, hname, hrest⟩ := Cmd.ofOption_bind_eq_some.mp hrest
  obtain ⟨slot, hslot, hrest⟩ := Cmd.ofOption_bind_eq_some.mp hrest
  rw [Cmd.modify_bind] at hrest
  obtain ⟨_, s₃, hlink, hrest⟩ := Cmd.bind_eq_some.mp hrest
  rw [Cmd.modify_bind] at hrest
  obtain ⟨rfl, rfl⟩ := Cmd.pure_eq_some.mp hrest
  obtain rfl := Cmd.modify_eq_some.mp hlink
  obtain ⟨hlt, hfree⟩ := getEmptyFld_eq_some hslot
  have hvalid : (s.fld j).name ≠ [] ∧ auxFld ≠ [] := by
    unfold mkNameAuxFld at hname
    split_ifs at hname with hchk
    obtain rfl := Option.some.inj hname
    exact ⟨name_ne_nil_of_chkFldName (by simpa using hchk), by simp [auxPrefix]⟩
  have hj : j < s.flds.length := by
    by_contra hle
    rw [Store.fld_of_le (not_lt.mp hle)] at hvalid
    exact hvalid.1 rfl
  have hne : j ≠ auxId := by
    rintro rfl
    exact hvalid.1 hfree
  refine ⟨f, { zeroFldRec with
    parentId := j
    tblId := tblId
    auxtype := .nn
    fldtype := fldtype
    name := auxFld
    fileno := n
    ddirId := d
    filesz := f.size }, hf, hvalid.1, hlt, hfree, rfl, rfl, rfl, hvalid.2, rfl, rfl, rfl, fun m => ?_⟩
  rw [Store.fld_setFld_lt (by simpa using hlt), Store.fld_setFld_lt (by simpa using hj),
    Store.fld_setFld_zero, Store.fld_setFld_zero, if_neg hne]
  split_ifs
  · rfl
  · rfl
  · rfl

/-- The store once `mv_fld` has given the file of a field to a new record as well. -/
structure Copied (s : Store) (i j : Nat) (r : FldRec) (s₂ : Store) : Prop where
  ne : i ≠ j
  slot : j < s.flds.length
  free : (s.fld j).name = []
  src : (s.fld i).name ≠ []
  dir : 0 ≤ (s.fld i).ddirId
  same : SameFile (s.fld i) r
  name : r.name ≠ []
  nn : r.nnFldId = -1
  fld : ∀ m, s₂.fld m = if m = j then r else s.fld m
  disk : s₂.disk = s.disk
  nextFileno : s₂.nextFileno = s.nextFileno
  length : s₂.flds.length = s.flds.length

lemma OwnedSince.copied (h : OwnedSince s₀ s) {i j dstTblId : Nat} {fld : Name} {rec : FldRec}
    {s₁ s₂ : Store} (hname : (s.fld i).name = fld) (hrec : rec.nnFldId = -1)
    (habsent : isFld s dstTblId fld = none)
    (hadd : addFld env dstTblId fld (s.fld i).ddirId (s.fld i).fileno rec s = (some j, s₁))
    (hcopy : copyMeta j i s₁ = (some (), s₂)) : ∃ r, Copied s i j r s₂ := by
  obtain ⟨f, hdir, hf, hne, hj, hjfree, rfl⟩ := addFld_absent habsent hadd
  obtain ⟨info, rfl⟩ := copyMeta_store hcopy
  obtain ⟨f', hf', hsize⟩ := h.file i hdir
  obtain rfl : f = f' := Option.some.inj (hf.symm.trans hf')
  have hij : i ≠ j := by
    rintro rfl
    exact hne (hname.symm.trans hjfree)
  refine ⟨{ addedRec dstTblId fld (s.fld i).ddirId (s.fld i).fileno f.size rec with
    srttype := (s.fld i).srttype }, hij, hj, hjfree, hname ▸ hne, hdir,
    ⟨rfl, rfl, hsize, fun hnil => absurd hnil hne⟩, hne, hrec, fun m => ?_, rfl, rfl, by simp⟩
  show (Store.setFld j _ _).fld m = _
  rw [Store.fld_setFld_lt (by simpa using hj), Store.fld_setFld_of_lt hj,
    Store.fld_setFld_of_ne hij, Store.fld_setFld_lt hj]
  by_cases hm : m = j
  · rw [if_pos hm, if_pos hm]
  · rw [if_neg hm, if_neg hm, if_neg hm]

/-- The old records are reset. -/
lemma Copied.reset {i j : Nat} {r : FldRec} {s₂ : Store} (hc : Copied s i j r s₂)
    (h : OwnedSince s₀ s) : OwnedSince s₀ (s₂.setFld i zeroFldRec) := by
  have hnn : r.nnFldId ≠ j := by
    rw [hc.nn]
    omega
  refine (h.pass hc.ne hc.dir hc.same hc.name hnn).of_fld (fun m => ?_) hc.disk hc.nextFileno
  rw [Store.fld_setFld_zero, Store.fld_setFld_zero, hc.fld, Store.fld_setFld_lt hc.slot]

/-- The file of the nn field passes to the new nn field. -/
lemma Copied.reset_nn {i j k aux tblId : Nat} {r rec : FldRec} {s₂ s₃ : Store}
    (hc : Copied s i j r s₂) (h : OwnedSince s₀ s) (hik : i ≠ k)
    (hadd : addAuxFld env [] tblId [] j (s.fld k).ddirId (s.fld k).fileno .nn rec s₂ =
      (some aux, s₃)) : OwnedSince s₀ ((s₃.setFld i zeroFldRec).setFld k zeroFldRec) := by
  have hjrec : s₂.fld j = r := by
    rw [hc.fld, if_pos rfl]
  obtain ⟨g, t, hg, -, haux, hauxfree, htdir, htno, htsize, htname, htnn, hdisk₃, hnext₃, hfld₃⟩ :=
    addAuxFld_nn (by rw [hjrec, hc.nn]; decide) hadd
  obtain ⟨hdir, hdisk⟩ := qMmap_eq_some hg
  have hdir : 0 ≤ (s.fld k).ddirId := (of_decide_eq_true hdir).1
  obtain ⟨g', hg', hsize⟩ := h.file k hdir
  rw [hc.disk] at hdisk
  obtain rfl : g = g' := Option.some.inj (hdisk.symm.trans hg')
  -- The slots are different ones: a slot with a file is not free.
  have hkj : k ≠ j := by
    rintro rfl
    have hfree := h.free k hc.free
    omega
  have hauxj : aux ≠ j := by
    rintro rfl
    rw [hjrec] at hauxfree
    exact hc.name hauxfree
  rw [hc.fld, if_neg hauxj] at hauxfree
  have hiaux : i ≠ aux := by
    rintro rfl
    exact hc.src hauxfree
  have hkaux : k ≠ aux := by
    rintro rfl
    have hfree := h.free k hauxfree
    omega
  have hpass := h.pass hc.ne hc.dir (show SameFile _ { r with nnFldId := aux } from
    ⟨hc.same.ddirId, hc.same.fileno, hc.same.filesz, hc.same.name⟩) hc.name
    (show (aux : Int) ≠ j by omega)
  have hkfld : ((s.setFld j { r with nnFldId := aux }).setFld i zeroFldRec).fld k = s.fld k := by
    rw [Store.fld_setFld_zero, if_neg hik.symm, Store.fld_setFld_of_ne hkj]
  have hpass' := hpass.pass hkaux (by rwa [hkfld]) (show SameFile _ t by
    rw [hkfld]
    exact ⟨htdir, htno, htsize.trans hsize, fun hnil => absurd hnil htname⟩) htname
    (show t.nnFldId ≠ aux by omega)
  refine hpass'.of_fld (fun m => ?_) (hdisk₃.trans hc.disk) (hnext₃.trans hc.nextFileno)
  rw [Store.fld_setFld_zero, Store.fld_setFld_zero, Store.fld_setFld_zero, hfld₃,
    Store.fld_setFld_lt (by simpa [hc.length] using haux), Store.fld_setFld_zero,
    Store.fld_setFld_lt hc.slot, hjrec, hc.fld]
  by_cases hm : m = i
  · subst hm
    simp [hiaux]
  · rw [if_neg hm, if_neg hm]
    split_ifs <;> rfl

/-- A field that is moved where no field has its name takes its file and that of its nn field
along. -/
lemma OwnedSince.mvFld (h : OwnedSince s₀ s) {srcTbl srcFld dstTbl : Name}
    (hnew : fldSlot s dstTbl srcFld = none)
    (hrun : mvFld env srcTbl srcFld dstTbl s = (some (), s')) : OwnedSince s₀ s' := by
  unfold Datacl.mvFld at hrun
  obtain ⟨-, hrun⟩ := Cmd.require_bind_eq_some.mp hrun
  obtain ⟨-, hrun⟩ := Cmd.require_bind_eq_some.mp hrun
  obtain ⟨-, hrun⟩ := Cmd.require_bind_eq_some.mp hrun
  obtain ⟨-, hrun⟩ := Cmd.require_bind_eq_some.mp hrun
  rw [Cmd.get_bind] at hrun
  obtain ⟨srcTblId, -, hrun⟩ := Cmd.ofOption_bind_eq_some.mp hrun
  obtain ⟨dstTblId, hdst, hrun⟩ := Cmd.ofOption_bind_eq_some.mp hrun
  obtain ⟨-, hrun⟩ := Cmd.require_bind_eq_some.mp hrun
  obtain ⟨i, hi, hrun⟩ := Cmd.ofOption_bind_eq_some.mp hrun
  obtain ⟨-, hrun⟩ := Cmd.require_bind_eq_some.mp hrun
  obtain ⟨j, s₁, hadd, hrun⟩ := Cmd.bind_eq_some.mp hrun
  obtain ⟨_, s₂, hcopy, hrun⟩ := Cmd.bind_eq_some.mp hrun
  obtain ⟨_, s₃, hnn, hrun⟩ := Cmd.bind_eq_some.mp hrun
  rw [Cmd.modify_bind] at hrun
  obtain ⟨_, s₄, hreset, hrun⟩ := Cmd.bind_eq_some.mp hrun
  have habsent : isFld s dstTblId srcFld = none := by
    rwa [fldSlot, hdst] at hnew
  obtain ⟨r, hc⟩ := h.copied (isFld_eq_some hi).2.2 rfl habsent hadd hcopy
  have h₄ : OwnedSince s₀ s₄ := by
    by_cases h0 : 0 ≤ (s.fld i).nnFldId
    · rw [Cmd.when_pos h0] at hnn hreset
      obtain ⟨aux, s₃', hadd', hret⟩ := Cmd.bind_eq_some.mp hnn
      obtain ⟨-, rfl⟩ := Cmd.pure_eq_some.mp hret
      obtain rfl := Cmd.modify_eq_some.mp hreset
      have hself := h.nn i
      exact hc.reset_nn h (by omega) hadd'
    · rw [Cmd.when_neg h0] at hnn hreset
      obtain ⟨-, rfl⟩ := Cmd.pure_eq_some.mp hnn
      obtain ⟨-, rfl⟩ := Cmd.pure_eq_some.mp hreset
      exact hc.reset h
  obtain ⟨info, rfl⟩ : ∃ info, s' = { s₄ with info := info } := ⟨_, (Prod.ext_iff.mp hrun).2.symm⟩
  exact h₄.congr rfl rfl rfl

/-! ### Calls -/

/-- A call of one of the operations on tables and fields. A field is added together with the file that
has been written for it. -/
inductive StoreOp where
  | addTbl (tbl : Name) (nR : Int)
  | delTbl (tbl : Name) (inTblId : Int)
  | renameTbl (oldTbl newTbl : Name)
  | makeFld (tblId : Int) (fld : Name) (rec : PreparedRec) (file : DataFile)
  | makeAuxFld (tbl : Name) (inTblId : Int) (fld : Name) (inFldId : Int) (auxtype : AuxType)
      (rec : FldRec) (file : DataFile)
  | dropAuxFld (tbl fld : Name) (auxtype : AuxType) (inFldId : Int)
  | delFld (tbl : Name) (tblId : Int) (fld : Name) (fldId : Int)
  | renameFld (tbl oldFld newFld : Name)
  | mvFld (srcTbl srcFld dstTbl : Name)
  | dupFld (tbl f1 f2 : Name)
  | setMeta (tblId fldId : Int) (attr : Attr) (value : List Char) (isInternal : Bool)
  | unsetMeta (tblId fldId : Int) (attr : Attr)

/-- The call. -/
def StoreOp.exec (env : Env) (stoF8 : List Char → Option Int) : StoreOp → Cmd Store Unit
  | .addTbl tbl nR => do let _ ← Datacl.addTbl env tbl nR
  | .delTbl tbl inTblId => Datacl.delTbl env tbl inTblId
  | .renameTbl oldTbl newTbl => Datacl.renameTbl env oldTbl newTbl
  | .makeFld tblId fld rec file => do
    let p ← mkTempFile env file
    let _ ← addFld env tblId fld p.1 p.2 rec.1
  | .makeAuxFld tbl inTblId fld inFldId auxtype rec file => do
    let p ← mkTempFile env file
    let _ ← addAuxFld env tbl inTblId fld inFldId p.1 p.2 auxtype rec
  | .dropAuxFld tbl fld auxtype inFldId => Datacl.dropAuxFld env tbl fld auxtype inFldId
  | .delFld tbl tblId fld fldId => Datacl.delFld env tbl tblId fld fldId
  | .renameFld tbl oldFld newFld => Datacl.renameFld env tbl oldFld newFld
  | .mvFld srcTbl srcFld dstTbl => Datacl.mvFld env srcTbl srcFld dstTbl
  | .dupFld tbl f1 f2 => Datacl.dupFld env tbl f1 f2
  | .setMeta tblId fldId attr value isInternal =>
    intSetMeta env stoF8 tblId fldId attr value isInternal
  | .unsetMeta tblId fldId attr => intUnsetMeta env tblId fldId attr

/-- The condition on a call: a field is moved where no field has its name, and the move succeeds. Any
other call may fail. -/
def StoreOp.Careful (env : Env) (s : Store) : StoreOp → Prop
  | .mvFld srcTbl srcFld dstTbl =>
    fldSlot s dstTbl srcFld = none ∧ (Datacl.mvFld env srcTbl srcFld dstTbl s).1.isSome
  | _ => True

/-- The states that calls lead to, whether they succeed or not. -/
def StoreRun (env : Env) (stoF8 : List Char → Option Int) : Store → Store → Prop :=
  Relation.ReflTransGen fun s s' => ∃ op : StoreOp, op.Careful env s ∧ s' = (op.exec env stoF8 s).2

lemma OwnedSince.step (h : OwnedSince s₀ s) {op : StoreOp} (hok : op.Careful env s) :
    OwnedSince s₀ (op.exec env stoF8 s).2 := by
  have hdel := ownedSince_keptByDiscard s₀
  have htbls : ∀ s tbls, OwnedSince s₀ s → OwnedSince s₀ { s with tbls := tbls } :=
    fun s tbls h => h.congr rfl rfl rfl
  cases op with
  | addTbl tbl nR =>
    exact Cmd.keeps_bind (hdel.keeps_addTbl htbls tbl nR) (fun _ _ _ _ => Cmd.keeps_pure ()) s h
  | delTbl tbl inTblId => exact hdel.keeps_delTbl htbls tbl inTblId s h
  | renameTbl oldTbl newTbl => exact hdel.keeps_renameTbl htbls oldTbl newTbl s h
  | makeFld tblId fld rec file =>
    refine ownedSince_withFile (fun d n => ?_) s h
    exact (leads_addFld tblId fld rec.2.1).bind fun _ => Cmd.keeps_pure ()
  | makeAuxFld tbl inTblId fld inFldId auxtype rec file =>
    refine ownedSince_withFile (fun d n => ?_) s h
    exact (leads_addAuxFld _ _ _ _ _ _).bind fun _ => Cmd.keeps_pure ()
  | dropAuxFld tbl fld auxtype inFldId => exact hdel.keeps_dropAuxFld tbl fld auxtype inFldId s h
  | delFld tbl tblId fld fldId => exact hdel.keeps_delFld tbl tblId fld fldId s h
  | renameFld tbl oldFld newFld => exact ownedSince_renameFld tbl oldFld newFld s h
  | mvFld srcTbl srcFld dstTbl =>
    obtain ⟨hnew, hsome⟩ := hok
    obtain ⟨u, hu⟩ := Option.isSome_iff_exists.mp hsome
    exact h.mvFld hnew (Prod.ext hu rfl)
  | dupFld tbl f1 f2 => exact ownedSince_dupFld tbl f1 f2 s h
  | setMeta tblId fldId attr value isInternal =>
    refine Cmd.keeps_require_bind (fun _ => ?_) s h
    refine Cmd.keeps_require_bind fun _ => Cmd.keeps_require_bind fun _ => ?_
    refine Cmd.keeps_bind (ownedSince_setAttr _ _ attr value isInternal) fun _ _ _ _ => ?_
    exact ownedSince_chkAttr _ _
  | unsetMeta tblId fldId attr =>
    refine Cmd.keeps_require_bind (fun _ => ?_) s h
    refine Cmd.keeps_require_bind fun _ => ?_
    exact Cmd.keeps_bind (ownedSince_unsetAttr _ _ attr) fun _ _ _ _ => ownedSince_chkAttr _ _

lemma OwnedSince.run (h : OwnedSince s₀ s) (hrun : StoreRun env stoF8 s s') :
    OwnedSince s₀ s' := by
  induction hrun with
  | refl => exact h
  | tail _ hlast ih =>
    obtain ⟨op, hok, rfl⟩ := hlast
    exact ih.step hok

/-- Calls one after another, none of which moves a field. -/
lemma storeRun_after {ops : List StoreOp} (hok : ∀ op ∈ ops, ∀ s, op.Careful env s) (s : Store) :
    StoreRun env stoF8 s (Cmd.after (StoreOp.exec env stoF8) s ops) := by
  induction ops generalizing s with
  | nil => exact .refl
  | cons op ops ih =>
    rw [List.forall_mem_cons] at hok
    exact .head ⟨op, hok.1 s, rfl⟩ (ih hok.2 _)

/-- A table with a field of two rows. -/
def copiedBefore : Store :=
  Cmd.after (StoreOp.exec lengthEnv fun _ => none) (Store.empty 1 4 2 fun _ _ => none)
    [.addTbl ['T'] 2, .makeFld 0 ['a'] ⟨{ zeroFldRec with fldtype := .I4 }, rfl, rfl, rfl⟩ ⟨4, [5, 6]⟩]

/-- The field is copied and deleted. -/
def copiedAfter : Store :=
  Cmd.after (StoreOp.exec lengthEnv fun _ => none) copiedBefore
    [.dupFld ['T'] ['a'] ['b'], .delFld ['T'] (-1) ['a'] (-1)]

lemma copiedBefore_run :
    StoreRun lengthEnv (fun _ => none) (Store.empty 1 4 2 fun _ _ => none) copiedBefore := by
  apply storeRun_after
  intro op hop s
  fin_cases hop <;> trivial

lemma copiedAfter_run : StoreRun lengthEnv (fun _ => none) copiedBefore copiedAfter := by
  apply storeRun_after
  intro op hop s
  fin_cases hop <;> trivial

end Datacl
