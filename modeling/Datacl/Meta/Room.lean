import Datacl.Meta.Deletable
import Mathlib.Data.List.GetD

/-!
# Calls that find room

What `add_tbl`, `add_fld` and `copy_meta` do if there are free slots, and the files that a deletion
leaves alone.
-/

namespace Datacl

variable {env : Env} {s s' : Store}

/-! ### What a deletion keeps -/

lemma keeps_lookupTbl {I : Store → Prop} (tbl : Name) (tblId : Int) :
    Cmd.Keeps I (lookupTbl tbl tblId) := by
  unfold lookupTbl
  split
  · exact Cmd.keeps_pure _
  · exact Cmd.keeps_require_bind fun _ => Cmd.keeps_get_bind fun _ _ => Cmd.keeps_pure _

lemma keeps_lookupFld {I : Store → Prop} (tblId : Int) (fld : Name) (fldId : Int) :
    Cmd.Keeps I (lookupFld tblId fld fldId) := by
  unfold lookupFld
  split
  · exact Cmd.keeps_pure _
  · exact Cmd.keeps_require_bind fun _ => Cmd.keeps_get_bind fun _ _ => Cmd.keeps_pure _

/-- What resetting records, clearing the index and removing the files of fields keep. -/
structure KeptByDel (env : Env) (I : Store → Prop) : Prop where
  reset : ∀ i s, I s → I (s.setFld i zeroFldRec)
  clear : ∀ i s, I s → I { s with info := sortFldInfo (s.info.set i zeroFldInfoRec) }
  unlink : ∀ i s, I s → Cmd.Keeps I (qDelete env (s.fld i).ddirId (s.fld i).fileno)

namespace KeptByDel

variable {I : Store → Prop}

lemma keeps_reset (h : KeptByDel env I) (i : Nat) :
    Cmd.Keeps I (Cmd.modify (Store.setFld i zeroFldRec)) :=
  Cmd.keeps_modify (h.reset i)

lemma keeps_delAuxRec (h : KeptByDel env I) (auxId : Nat) : Cmd.Keeps I (delAuxRec env auxId) := by
  unfold delAuxRec
  apply Cmd.keeps_get_bind
  intro s hs
  have hdel := h.unlink auxId s hs
  refine Cmd.keeps_bind (Cmd.keeps_when (Cmd.keeps_attempt hdel)) fun _ _ _ _ => ?_
  exact Cmd.keeps_bind hdel fun _ _ _ _ => h.keeps_reset auxId

lemma keeps_delInfoLoop (h : KeptByDel env I) (fldId : Nat) (is : List Nat) (st : Bool) :
    Cmd.Keeps I (delInfoLoop env fldId is st) := by
  induction is generalizing st with
  | nil => exact Cmd.keeps_pure st
  | cons i is ih =>
    refine Cmd.keeps_bind ?_ fun _ _ _ _ => ih _
    apply Cmd.keeps_get_bind
    intro s _
    dsimp only
    split
    · exact Cmd.keeps_pure st
    split
    · exact fun _ hs => hs
    refine Cmd.keeps_bind (Cmd.keeps_modify (h.clear i)) fun _ _ _ _ => ?_
    split
    · exact Cmd.keeps_pure st
    · exact Cmd.keeps_bind (h.keeps_delAuxRec _) fun _ _ _ _ => Cmd.keeps_pure true

lemma keeps_delNnFld (h : KeptByDel env I) (fldId : Nat) (nnFldId : Int) :
    Cmd.Keeps I (delNnFld env fldId nnFldId) := by
  unfold delNnFld
  split
  · apply Cmd.keeps_get_bind
    intro s hs
    apply Cmd.keeps_require_bind
    intro _
    refine Cmd.keeps_bind (Cmd.keeps_status (Cmd.keeps_when (h.unlink _ s hs))) ?_
    exact fun _ _ _ _ => Cmd.keeps_bind (h.keeps_reset _) fun _ _ _ _ => Cmd.keeps_pure _
  · exact Cmd.keeps_pure true

lemma keeps_delFldAt (h : KeptByDel env I) (fldId : Nat) : Cmd.Keeps I (delFldAt env fldId) := by
  unfold delFldAt
  apply Cmd.keeps_get_bind
  intro s hs
  apply Cmd.keeps_require_bind
  intro _
  apply Cmd.keeps_require_bind
  intro _
  refine Cmd.keeps_bind (Cmd.keeps_when (h.unlink fldId s hs)) fun _ _ _ _ => ?_
  refine Cmd.keeps_bind (h.keeps_reset fldId) fun _ _ _ _ => ?_
  refine Cmd.keeps_bind (h.keeps_delNnFld fldId _) fun _ _ _ _ => ?_
  exact Cmd.keeps_bind (h.keeps_delInfoLoop fldId _ _) fun _ _ _ _ => Cmd.keeps_require _

lemma keeps_delFld (h : KeptByDel env I) (tbl : Name) (tblId : Int) (fld : Name) (fldId : Int) :
    Cmd.Keeps I (delFld env tbl tblId fld fldId) := by
  unfold delFld
  refine Cmd.keeps_bind (keeps_lookupTbl tbl tblId) fun _ t _ _ => ?_
  cases t with
  | none => exact Cmd.keeps_pure ()
  | some t =>
    refine Cmd.keeps_bind (keeps_lookupFld t fld fldId) fun _ i _ _ => ?_
    cases i with
    | none => exact Cmd.keeps_pure ()
    | some i => exact h.keeps_delFldAt i

end KeptByDel

/-! ### Files that belong to no field -/

/-- The file has these contents, and no field refers to a file of this number. -/
structure Unowned (d n : Int) (f : DataFile) (s : Store) : Prop where
  file : s.disk d n = some f
  fileno : ∀ i, (s.fld i).fileno ≠ n

section

variable {d n : Int} {f : DataFile}

lemma Unowned.setFld {i : Nat} {r : FldRec} (h : Unowned d n f s) (hr : r.fileno ≠ n) :
    Unowned d n f (s.setFld i r) := by
  refine ⟨h.file, fun j => ?_⟩
  rw [Store.fld_setFld]
  split
  · exact hr
  · exact h.fileno j

lemma Unowned.sameFlds (h : Unowned d n f s) (hflds : s'.flds = s.flds)
    (hdisk : s'.disk d n = s.disk d n) : Unowned d n f s' := by
  refine ⟨hdisk.trans h.file, fun i => ?_⟩
  rw [Store.fld, hflds]
  exact h.fileno i

lemma keeps_qDelete {e m : Int} (hm : m ≠ n) : Cmd.Keeps (Unowned d n f) (qDelete env e m) := by
  unfold qDelete
  refine Cmd.keeps_require_bind fun _ => Cmd.keeps_require_bind fun _ => Cmd.keeps_modify ?_
  intro s h
  refine h.sameFlds rfl ?_
  exact if_neg fun heq => hm heq.2.symm

/-- A deletion removes no file that belongs to no field. -/
lemma keptByDel_unowned (hn : n ≠ 0) : KeptByDel env (Unowned d n f) where
  reset _ _ h := h.setFld hn.symm
  clear _ _ h := h.sameFlds rfl rfl
  unlink i _ h := keeps_qDelete (h.fileno i)

end

/-! ### Adding a table and a field -/

lemma addTbl_new {tbl : Name} {nR : Int} {k : Nat} (hnR : 0 < nR) (hname : chkTblName tbl = true)
    (hnew : isTbl s tbl = none) (hslot : getEmptyTbl env s tbl = some k) :
    addTbl env tbl nR s =
      (some k, s.setTbl k { s.tbl k with name := tbl, nR := nR, tbltype := .regular }) := by
  have hne : tbl ≠ [] := by
    rintro rfl
    simp [chkTblName] at hname
  have htbl : tblSlot env tbl s = (some k, s) := by
    unfold tblSlot
    rw [Cmd.get_bind, hnew, hslot]
    rfl
  unfold addTbl
  rw [Cmd.require_bind, if_pos hne, Cmd.require_bind, if_pos hnR, Cmd.require_bind, if_pos hname,
    Cmd.bind_of_eq htbl]
  rfl

lemma lt_ddirs_of_canEnter {d : Int} (h : env.canEnter d = true) : 0 ≤ d ∧ d < env.ddirs.length := by
  obtain ⟨h0, hd⟩ := of_decide_eq_true h
  refine ⟨h0, ?_⟩
  by_contra hlt
  rw [List.getD_eq_default _ _ (by omega)] at hd
  cases hd

/-- `add_fld` once the field of this name has been deleted and a slot found. -/
lemma addFld_eq {t : Nat} {fld : Name} {d n : Int} {rec : FldRec} {filesz j : Nat} {s₁ : Store}
    (htype : rec.fldtype ≠ .undefFldtype) (hname : chkFldName fld = true) (hn : 0 < n)
    (hd : env.canEnter d = true) (ht : t < s.tbls.length) (hnR : 0 < (s.tbl t).nR)
    (hsize : chkFileSize env s (s.tbl t).nR { rec with fileno := n, ddirId := d } = some filesz)
    (hdel : delFld env [] t fld (-1) s = (some (), s₁)) (hslot : getEmptyFld env s₁ fld = some j) :
    addFld env t fld d n rec s = (some j, s₁.setFld j (addedRec t fld d n filesz rec)) := by
  have htbl : (0 : Int) ≤ t ∧ (t : Int) < s.tbls.length := by omega
  unfold addFld
  rw [Cmd.require_bind, if_pos htype, Cmd.require_bind, if_pos hname, Cmd.require_bind, if_pos hn,
    Cmd.require_bind, if_pos (lt_ddirs_of_canEnter hd), Cmd.get_bind, Cmd.require_bind, if_pos htbl,
    Int.toNat_natCast, Cmd.require_bind, if_pos hnR, hsize, Cmd.ofOption_some_bind, Cmd.bind_of_eq hdel, Cmd.get_bind,
    hslot]
  rfl

/-! ### Copying the index -/

/-- The number of unused records of the index. -/
def Store.unusedRecs (s : Store) : Nat := s.info.countP fun r => r.mode = .undefFldInfo

/-- A record of the index can be added if there is an unused one. -/
lemma addToFldInfo_succeeds {nFld : Nat} {info : List FldInfo} {fldId auxId : Int}
    {mode : FldInfoMode} (hfld : 0 ≤ fldId ∧ fldId < nFld) (haux : 0 ≤ auxId ∧ auxId < nFld)
    (hmode : mode ≠ .undefFldInfo)
    (hfree : 0 < info.countP fun r => r.mode = .undefFldInfo) :
    ∃ info', addToFldInfo nFld fldId mode auxId info = (some (), info') := by
  obtain ⟨r, hr, hundef⟩ := List.countP_pos_iff.mp hfree
  obtain ⟨i, hi⟩ : ∃ i, info.findIdx? (fun r => r.mode = .undefFldInfo) = some i := by
    cases hidx : info.findIdx? (fun r => r.mode = .undefFldInfo) with
    | some i => exact ⟨i, rfl⟩
    | none =>
      rw [List.findIdx?_eq_none_iff.mp hidx r hr] at hundef
      cases hundef
  have hgood : ¬ (mode = .undefFldInfo ∨ auxId < 0 ∨ nFld ≤ auxId) := by
    rintro (hm | hneg | hle)
    · exact hmode hm
    · omega
    · omega
  unfold addToFldInfo
  rw [Cmd.require_bind, if_pos hfld, Cmd.get_bind, hi]
  simp only [Cmd.modify_bind, fillFldInfo, if_neg hgood]
  exact ⟨_, rfl⟩

/-- It takes one unused record. -/
lemma countP_addToFldInfo {nFld : Nat} {info info' : List FldInfo} {fldId auxId : Int}
    {mode : FldInfoMode} (h : addToFldInfo nFld fldId mode auxId info = (some (), info')) :
    info.countP (fun r => r.mode = .undefFldInfo) ≤
      info'.countP (fun r => r.mode = .undefFldInfo) + 1 := by
  obtain ⟨-, -, hmode, before, r, after, rfl, hr, rfl⟩ := addToFldInfo_eq_some h
  rw [(sortFldInfo_perm _).countP_eq, List.countP_append, List.countP_append, List.countP_cons,
    List.countP_cons]
  simp [hr, hmode]
  omega

/-- What `copy_meta` needs of the index. -/
structure IndexRoom (s : Store) (m : Nat) : Prop where
  small : s.flds.length ≤ 32768
  index : IndexOk s.flds.length s.info
  room : m ≤ s.unusedRecs

lemma IndexRoom.copyFldInfo {m : Nat} (h : IndexRoom s (m + 1)) {dst : Nat}
    (hdst : dst < s.flds.length) (src : Nat) {mode : FldInfoMode} (hmode : mode ≠ .undefFldInfo) :
    ∃ info, Datacl.copyFldInfo dst src mode s = (some (), { s with info := info }) ∧
      IndexRoom { s with info := info } m := by
  unfold Datacl.copyFldInfo
  rw [Cmd.get_bind]
  by_cases haux : 0 ≤ getFldInfo mode src s.info
  · have hlt := h.index.getFldInfo_lt h.small hmode haux
    have hdst' : (0 : Int) ≤ dst ∧ (dst : Int) < s.flds.length := by omega
    obtain ⟨info, hadd⟩ := addToFldInfo_succeeds hdst' ⟨haux, hlt⟩ hmode
      (Nat.lt_of_lt_of_le (Nat.succ_pos m) h.room)
    rw [Cmd.when_pos haux]
    refine ⟨info, ?_, h.small, (h.index.add h.small hadd).1, ?_⟩
    · show ((addToFldInfo _ _ _ _ s.info).1, _) = _
      rw [hadd]
    · have hcount := countP_addToFldInfo hadd
      have hroom := h.room
      unfold Store.unusedRecs at hroom ⊢
      dsimp only
      omega
  · rw [Cmd.when_neg haux]
    exact ⟨s.info, rfl, h.small, h.index, (Nat.le_succ m).trans h.room⟩

/-- `copy_meta` copies the sort type and at most three records of the index. -/
lemma copyMeta_succeeds {dst src : Nat} (hne : dst ≠ src) (hdst : dst < s.flds.length)
    (h : IndexRoom s 3) : ∃ info, copyMeta dst src s =
      (some (), { s.setFld dst { s.fld dst with srttype := (s.fld src).srttype } with
        info := info }) := by
  have h₁ : IndexRoom (s.setFld dst { s.fld dst with srttype := (s.fld src).srttype }) 3 := by
    refine ⟨?_, ?_, h.room⟩
    · rw [Store.length_setFld]
      exact h.small
    · rw [Store.length_setFld]
      exact h.index
  have hdst₁ : dst < (s.setFld dst { s.fld dst with srttype := (s.fld src).srttype }).flds.length := by
    rwa [Store.length_setFld]
  obtain ⟨info₁, hrun₁, h₂⟩ := h₁.copyFldInfo hdst₁ src (by decide : FldInfoMode.fkFldTxtLkp ≠ .undefFldInfo)
  obtain ⟨info₂, hrun₂, h₃⟩ := h₂.copyFldInfo hdst₁ src (by decide : FldInfoMode.fkFldLen ≠ .undefFldInfo)
  obtain ⟨info₃, hrun₃, -⟩ := h₃.copyFldInfo hdst₁ src (by decide : FldInfoMode.fkFldOff ≠ .undefFldInfo)
  refine ⟨info₃, ?_⟩
  unfold copyMeta
  rw [Cmd.require_bind, if_pos hne, Cmd.modify_bind, Cmd.bind_of_eq hrun₁, Cmd.bind_of_eq hrun₂, hrun₃]

end Datacl
