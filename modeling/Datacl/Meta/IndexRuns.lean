import Datacl.Meta.FailedCalls
import Datacl.Meta.Room
import Datacl.Meta.Tables

/-!
# The index along a run

Every call of a command, whether it succeeds or not, leaves the auxiliary-field index in order.
-/

namespace Datacl

/-! ### Calls -/

/-- A call of one of the commands that write to the index, or a change of the records of tables and
fields and of the data files by any other command. -/
inductive IndexCall where
  | addTbl (tbl : Name) (nR : Int)
  | delTbl (tbl : Name) (inTblId : Int)
  | renameTbl (oldTbl newTbl : Name)
  | addFld (tblId : Int) (fld : Name) (ddirId fileno : Int) (rec : FldRec)
  | addAuxFld (tbl : Name) (inTblId : Int) (fld : Name) (inFldId : Int) (ddirId fileno : Int)
      (auxtype : AuxType) (rec : FldRec)
  | dropAuxFld (tbl fld : Name) (auxtype : AuxType) (inFldId : Int)
  | delFld (tbl : Name) (tblId : Int) (fld : Name) (fldId : Int)
  | renameFld (tbl oldFld newFld : Name)
  | mvFld (srcTbl srcFld dstTbl : Name)
  | dupFld (tbl f1 f2 : Name)
  | copyMeta (dstFldId srcFldId : Nat)
  | loadDict (fldId : Int) (txtFldId : Nat)
  | setMeta (tblId fldId : Int) (attr : Attr) (value : List Char) (isInternal : Bool)
  | unsetMeta (tblId fldId : Int) (attr : Attr)
  | other (left : Store)

/-- The call. A load refers to the dictionary that `add_fld` has put into a slot. -/
def IndexCall.exec (env : Env) (stoF8 : List Char → Option Int) : IndexCall → Cmd Store Unit
  | .addTbl tbl nR => do let _ ← Datacl.addTbl env tbl nR
  | .delTbl tbl inTblId => Datacl.delTbl env tbl inTblId
  | .renameTbl oldTbl newTbl => Datacl.renameTbl env oldTbl newTbl
  | .addFld tblId fld ddirId fileno rec => do
    let _ ← Datacl.addFld env tblId fld ddirId fileno rec
  | .addAuxFld tbl inTblId fld inFldId ddirId fileno auxtype rec => do
    let _ ← Datacl.addAuxFld env tbl inTblId fld inFldId ddirId fileno auxtype rec
  | .dropAuxFld tbl fld auxtype inFldId => Datacl.dropAuxFld env tbl fld auxtype inFldId
  | .delFld tbl tblId fld fldId => Datacl.delFld env tbl tblId fld fldId
  | .renameFld tbl oldFld newFld => Datacl.renameFld env tbl oldFld newFld
  | .mvFld srcTbl srcFld dstTbl => Datacl.mvFld env srcTbl srcFld dstTbl
  | .dupFld tbl f1 f2 => Datacl.dupFld env tbl f1 f2
  | .copyMeta dstFldId srcFldId => Datacl.copyMeta dstFldId srcFldId
  | .loadDict fldId txtFldId => do
    let s ← Cmd.get
    Cmd.require (txtFldId < s.flds.length)
    onInfo (addToFldInfo s.flds.length fldId .fkFldTxtLkp txtFldId)
  | .setMeta tblId fldId attr value isInternal =>
    intSetMeta env stoF8 tblId fldId attr value isInternal
  | .unsetMeta tblId fldId attr => intUnsetMeta env tblId fldId attr
  | .other left => do
    let s ← Cmd.get
    Cmd.require (left.flds.length = s.flds.length)
    Cmd.modify fun s => { left with info := s.info }

variable {env : Env} {stoF8 : List Char → Option Int} {s s' : Store} {n : Nat}

/-! ### What every call keeps -/

/-- There are `n` slots, and the index is in order. -/
structure Indexed (n : Nat) (s : Store) : Prop where
  length : s.flds.length = n
  index : IndexOk n s.info

lemma Indexed.congr (h : Indexed n s) (hlen : s'.flds.length = s.flds.length)
    (hinfo : s'.info = s.info) : Indexed n s' :=
  ⟨hlen.trans h.length, hinfo ▸ h.index⟩

lemma Indexed.setFld (h : Indexed n s) (i : Nat) (r : FldRec) : Indexed n (s.setFld i r) :=
  h.congr (Store.length_setFld s i r) rfl

lemma Indexed.sort (h : Indexed n s) {info : List FldInfo} (hok : ∀ r ∈ info, r.Ok n) :
    Indexed n { s with info := sortFldInfo info } :=
  ⟨h.length, IndexOk.sortFldInfo hok⟩

lemma Indexed.clear (h : Indexed n s) (i : Nat) :
    Indexed n { s with info := sortFldInfo (s.info.set i zeroFldInfoRec) } := by
  apply h.sort
  intro r hr
  rcases List.mem_or_eq_of_mem_set hr with hr | rfl
  · exact h.index.ok r hr
  · exact .inl rfl

lemma Indexed.onInfo_zero (h : Indexed n s) (p : FldInfo → Bool) :
    Indexed n { s with info := zeroFldInfo p s.info } :=
  ⟨h.length, (h.index.zeroFldInfo p).1⟩

lemma keeps_delFromFldInfo (nFld : Nat) (fldId : Int) :
    Cmd.Keeps (Indexed n) (onInfo (delFromFldInfo nFld fldId)) := by
  intro s h
  unfold delFromFldInfo
  rw [onInfo, Cmd.on_apply, Cmd.require_bind]
  split
  · exact h.onInfo_zero _
  · exact h

lemma keeps_delFromFldInfo1 (nFld : Nat) (fldId : Int) (mode : FldInfoMode) :
    Cmd.Keeps (Indexed n) (onInfo (delFromFldInfo1 nFld fldId mode)) := by
  intro s h
  unfold delFromFldInfo1
  rw [onInfo, Cmd.on_apply, Cmd.require_bind]
  split
  · rw [Cmd.require_bind]
    split
    · exact h.onInfo_zero _
    · exact h
  · exact h

/-- A deletion clears records and leaves the index sorted. -/
lemma keptByDel_indexed : KeptByDel env (Indexed n) where
  reset i _ h := h.setFld i zeroFldRec
  clear i _ h := h.clear i
  unlink _ _ _ := Cmd.keeps_require_bind fun _ => Cmd.keeps_require_bind fun _ =>
    Cmd.keeps_modify fun _ h => h.congr rfl rfl

lemma keeps_addFld (tblId : Int) (fld : Name) (ddirId fileno : Int) (rec : FldRec) :
    Cmd.Keeps (Indexed n) (addFld env tblId fld ddirId fileno rec) := by
  unfold addFld
  refine Cmd.keeps_require_bind fun _ => Cmd.keeps_require_bind fun _ => ?_
  refine Cmd.keeps_require_bind fun _ => Cmd.keeps_require_bind fun _ => ?_
  refine Cmd.keeps_get_bind fun s _ => Cmd.keeps_require_bind fun _ => ?_
  refine Cmd.keeps_require_bind fun _ => Cmd.keeps_ofOption_bind fun filesz _ => ?_
  refine Cmd.keeps_bind (keptByDel_indexed.keeps_delFld _ _ _ _) fun _ _ _ _ => ?_
  refine Cmd.keeps_get_bind fun s _ => Cmd.keeps_ofOption_bind fun fldId _ => ?_
  exact Cmd.keeps_bind (Cmd.keeps_modify fun s h => h.setFld _ _) fun _ _ _ _ => Cmd.keeps_pure fldId

lemma keeps_delAuxFld (fldId : Nat) (auxtype : AuxType) :
    Cmd.Keeps (Indexed n) (delAuxFld env fldId auxtype) := by
  unfold delAuxFld
  refine Cmd.keeps_get_bind fun s _ => Cmd.keeps_require_bind fun _ => Cmd.keeps_require_bind fun _ => ?_
  dsimp only
  split
  · exact Cmd.keeps_pure ()
  · refine Cmd.keeps_bind (Cmd.keeps_modify fun s h => h.setFld _ _) fun _ _ _ _ => ?_
    refine Cmd.keeps_get_bind fun s h => Cmd.keeps_bind (Cmd.keeps_when ?_) fun _ _ _ _ => ?_
    · exact Cmd.keeps_require_bind fun _ => keptByDel_indexed.unlink _ s h
    · exact Cmd.keeps_modify fun s h => h.setFld _ _

lemma keeps_dropAuxFld (tbl fld : Name) (auxtype : AuxType) (inFldId : Int) :
    Cmd.Keeps (Indexed n) (dropAuxFld env tbl fld auxtype inFldId) := by
  unfold dropAuxFld
  split
  · exact keeps_delAuxFld _ _
  · refine Cmd.keeps_require_bind fun _ => Cmd.keeps_require_bind fun _ => ?_
    refine Cmd.keeps_get_bind fun s _ => Cmd.keeps_ofOption_bind fun tblId _ => ?_
    split
    · exact Cmd.keeps_pure ()
    · exact keeps_delAuxFld _ _

lemma keeps_auxTarget (tbl : Name) (inTblId : Int) (fld : Name) (inFldId : Int) (auxtype : AuxType) :
    Cmd.Keeps (Indexed n) (auxTarget env tbl inTblId fld inFldId auxtype) := by
  unfold auxTarget
  split
  · exact Cmd.keeps_bind (keeps_dropAuxFld _ _ _ _) fun _ _ _ _ => Cmd.keeps_pure _
  · refine Cmd.keeps_bind (keeps_dropAuxFld _ _ _ _) fun _ _ _ _ => ?_
    refine Cmd.keeps_get_bind fun s _ => Cmd.keeps_ofOption_bind fun tblId _ => ?_
    exact Cmd.keeps_ofOption_bind fun fldId _ => Cmd.keeps_pure _

lemma keeps_unlinkNn (fldId : Nat) : Cmd.Keeps (Indexed n) (unlinkNn fldId) := by
  unfold unlinkNn
  refine Cmd.keeps_get_bind fun s _ => Cmd.keeps_when ?_
  refine Cmd.keeps_require_bind fun _ => Cmd.keeps_require_bind fun _ => ?_
  refine Cmd.keeps_bind (Cmd.keeps_modify fun s h => h.setFld _ _) fun _ _ _ _ => ?_
  exact Cmd.keeps_modify fun s h => h.setFld _ _

lemma keeps_delExisting (tblId : Nat) (found : Option Nat) :
    Cmd.Keeps (Indexed n) (delExisting env tblId found) := by
  cases found with
  | none => exact Cmd.keeps_pure ()
  | some i => exact keptByDel_indexed.keeps_delFld _ _ _ _

lemma keeps_renameFld (tbl oldFld newFld : Name) :
    Cmd.Keeps (Indexed n) (renameFld env tbl oldFld newFld) := by
  unfold renameFld
  refine Cmd.keeps_require_bind fun _ => Cmd.keeps_require_bind fun _ => ?_
  refine Cmd.keeps_require_bind fun _ => Cmd.keeps_require_bind fun _ => ?_
  refine Cmd.keeps_get_bind fun s _ => Cmd.keeps_ofOption_bind fun tblId _ => ?_
  refine Cmd.keeps_ofOption_bind fun old _ => ?_
  refine Cmd.keeps_bind (keeps_unlinkNn old) fun _ _ _ _ => ?_
  refine Cmd.keeps_bind (keeps_delExisting tblId _) fun _ _ _ _ => Cmd.keeps_require_bind fun _ => ?_
  refine Cmd.keeps_bind (Cmd.keeps_modify fun s h => h.setFld _ _) fun _ _ _ _ => Cmd.keeps_when ?_
  exact Cmd.keeps_require_bind fun _ => Cmd.keeps_modify fun s h => h.setFld _ _

lemma keeps_delTblAt (tblId : Nat) : Cmd.Keeps (Indexed n) (delTblAt env tblId) := by
  unfold delTblAt
  refine Cmd.keeps_get_bind fun s _ => Cmd.keeps_require_bind fun _ => ?_
  refine Cmd.keeps_bind (Cmd.keeps_forEach fun i _ => ?_) fun _ _ _ _ => ?_
  · unfold delTblFld
    exact Cmd.keeps_get_bind fun s _ => Cmd.keeps_when (keptByDel_indexed.keeps_delFld _ _ _ _)
  · exact Cmd.keeps_modify fun _ h => h.congr rfl rfl

lemma keeps_delTbl (tbl : Name) (inTblId : Int) :
    Cmd.Keeps (Indexed n) (delTbl env tbl inTblId) := by
  unfold delTbl
  refine Cmd.keeps_bind (keeps_lookupTbl tbl inTblId) fun _ t _ _ => ?_
  cases t with
  | none => exact Cmd.keeps_pure ()
  | some t => exact keeps_delTblAt t.toNat

lemma keeps_addTbl (tbl : Name) (nR : Int) : Cmd.Keeps (Indexed n) (addTbl env tbl nR) := by
  unfold addTbl
  refine Cmd.keeps_require_bind fun _ => Cmd.keeps_require_bind fun _ => ?_
  refine Cmd.keeps_require_bind fun _ => Cmd.keeps_bind ?_ fun _ tblId _ _ => ?_
  · unfold tblSlot
    refine Cmd.keeps_get_bind fun s _ => ?_
    cases isTbl s tbl with
    | some t => exact Cmd.keeps_bind (keeps_delTbl [] t) fun _ _ _ _ => Cmd.keeps_pure t
    | none =>
      cases getEmptyTbl env s tbl with
      | none => exact fun _ h => h
      | some t => exact Cmd.keeps_pure t
  · exact Cmd.keeps_bind (Cmd.keeps_modify fun _ h => h.congr rfl rfl) fun _ _ _ _ =>
      Cmd.keeps_pure tblId

lemma keeps_renameTbl (oldTbl newTbl : Name) :
    Cmd.Keeps (Indexed n) (renameTbl env oldTbl newTbl) := by
  unfold renameTbl
  refine Cmd.keeps_require_bind fun _ => Cmd.keeps_require_bind fun _ => ?_
  refine Cmd.keeps_require_bind fun _ => Cmd.keeps_get_bind fun s _ => ?_
  refine Cmd.keeps_ofOption_bind fun old _ => Cmd.keeps_bind ?_ fun _ _ _ _ => ?_
  · cases isTbl s newTbl with
    | none => exact Cmd.keeps_pure ()
    | some t => exact Cmd.keeps_attempt (keeps_delTbl [] t)
  · exact Cmd.keeps_require_bind fun _ => Cmd.keeps_modify fun _ h => h.congr rfl rfl

lemma keeps_mkTempFile (f : DataFile) : Cmd.Keeps (Indexed n) (mkTempFile env f) := by
  unfold mkTempFile
  refine Cmd.keeps_require_bind fun _ => Cmd.keeps_ofOption_bind fun d _ => ?_
  refine Cmd.keeps_require_bind fun _ => Cmd.keeps_get_bind fun s _ => ?_
  refine Cmd.keeps_bind (Cmd.keeps_modify fun _ h => h.congr rfl rfl) fun _ _ _ _ => ?_
  refine Cmd.keeps_require_bind fun _ => ?_
  exact Cmd.keeps_bind (Cmd.keeps_modify fun _ h => h.congr rfl rfl) fun _ _ _ _ => Cmd.keeps_pure _

lemma keeps_unsetAttr (tblId fldId : Nat) (attr : Attr) :
    Cmd.Keeps (Indexed n) (unsetAttr tblId fldId attr) := by
  cases attr with
  | tbltype => exact Cmd.keeps_modify fun _ h => h.congr rfl rfl
  | dictFld =>
    refine Cmd.keeps_get_bind fun s _ => ?_
    exact keeps_delFromFldInfo1 _ _ _
  | stat stat =>
    refine Cmd.keeps_bind (Cmd.keeps_modify fun s h => h.setFld _ _) fun _ _ _ _ => ?_
    refine Cmd.keeps_get_bind fun s _ => ?_
    exact Cmd.keeps_when (Cmd.keeps_modify fun s h => h.setFld _ _)
  | srttype => exact Cmd.keeps_modify fun s h => h.setFld _ _
  | fldtype => exact fun _ h => h
  | external => exact fun _ h => h
  | other => exact fun _ h => h

lemma keeps_chkAttr (tblId fldId : Int) : Cmd.Keeps (Indexed n) (chkAttr env tblId fldId) :=
  Cmd.keeps_get_bind fun _ _ => Cmd.keeps_require_bind fun _ => Cmd.keeps_require _

section

variable (hn : n ≤ 32768)
include hn

/-- A reference to a slot is added in whole or not at all. -/
lemma keeps_addRef {mode : FldInfoMode} (hmode : mode ≠ .undefFldInfo) {auxId : Int}
    (haux : 0 ≤ auxId ∧ auxId < n) (fldId : Int) :
    Cmd.Keeps (Indexed n) (onInfo (addToFldInfo n fldId mode auxId)) := by
  intro s h
  rw [onInfo, Cmd.on_apply]
  refine ⟨h.length, ?_⟩
  rcases addToFldInfo_cases n fldId auxId mode s.info with hnone | ⟨-, -, i, -, hadd⟩
  · rw [hnone]
    exact h.index
  · have hgood : ¬ (mode = .undefFldInfo ∨ auxId < 0 ∨ n ≤ auxId) := by
      rintro (hm | hneg | hle)
      · exact hmode hm
      · omega
      · omega
    rw [if_neg hgood] at hadd
    rw [hadd]
    exact (h.index.add hn hadd).1

lemma keeps_copyFldInfo {mode : FldInfoMode} (hmode : mode ≠ .undefFldInfo) (dst src : Nat) :
    Cmd.Keeps (Indexed n) (copyFldInfo dst src mode) := by
  unfold copyFldInfo
  apply Cmd.keeps_get_bind
  intro s h
  dsimp only
  by_cases h0 : 0 ≤ getFldInfo mode src s.info
  · rw [h.length]
    exact Cmd.keeps_when (keeps_addRef hn hmode ⟨h0, h.index.getFldInfo_lt hn hmode h0⟩ dst)
  · rw [Cmd.when_neg h0]
    exact Cmd.keeps_pure ()

lemma keeps_copyMeta (dst src : Nat) : Cmd.Keeps (Indexed n) (copyMeta dst src) := by
  unfold copyMeta
  apply Cmd.keeps_require_bind
  intro _
  refine Cmd.keeps_bind (Cmd.keeps_modify fun s h => h.setFld _ _) fun _ _ _ _ => ?_
  refine Cmd.keeps_bind (keeps_copyFldInfo hn (by decide) dst src) fun _ _ _ _ => ?_
  refine Cmd.keeps_bind (keeps_copyFldInfo hn (by decide) dst src) fun _ _ _ _ => ?_
  exact keeps_copyFldInfo hn (by decide) dst src

lemma keeps_linkAux {auxId : Nat} (haux : auxId < n) (fldId : Nat) (auxtype : AuxType) :
    Cmd.Keeps (Indexed n) (linkAux fldId auxId auxtype) := by
  have hslot : (0 : Int) ≤ auxId ∧ (auxId : Int) < n := by omega
  cases auxtype with
  | undefAuxtype => exact fun _ h => h
  | nn => exact Cmd.keeps_modify fun s h => h.setFld _ _
  | len =>
    apply Cmd.keeps_get_bind
    intro s h
    rw [h.length]
    exact keeps_addRef hn (by decide) hslot fldId
  | off =>
    apply Cmd.keeps_get_bind
    intro s h
    rw [h.length]
    exact keeps_addRef hn (by decide) hslot fldId

lemma keeps_addAuxFld (tbl : Name) (inTblId : Int) (fld : Name) (inFldId : Int)
    (ddirId fileno : Int) (auxtype : AuxType) (rec : FldRec) :
    Cmd.Keeps (Indexed n) (addAuxFld env tbl inTblId fld inFldId ddirId fileno auxtype rec) := by
  unfold addAuxFld
  refine Cmd.keeps_ofOption_bind fun fldtype _ => Cmd.keeps_require_bind fun _ => ?_
  refine Cmd.keeps_require_bind fun _ => Cmd.keeps_require_bind fun _ => ?_
  refine Cmd.keeps_bind (keeps_auxTarget _ _ _ _ _) fun _ target _ _ => ?_
  refine Cmd.keeps_get_bind fun s h => Cmd.keeps_ofOption_bind fun file _ => ?_
  refine Cmd.keeps_ofOption_bind fun auxFld _ => Cmd.keeps_ofOption_bind fun auxId hslot => ?_
  have haux : auxId < n := h.length ▸ (getEmptyFld_eq_some hslot).1
  refine Cmd.keeps_bind (Cmd.keeps_modify fun s h => h.setFld _ _) fun _ _ _ _ => ?_
  refine Cmd.keeps_bind (keeps_linkAux hn haux _ _) fun _ _ _ _ => ?_
  exact Cmd.keeps_bind (Cmd.keeps_modify fun s h => h.setFld _ _) fun _ _ _ _ => Cmd.keeps_pure _

lemma keeps_mvFld (srcTbl srcFld dstTbl : Name) :
    Cmd.Keeps (Indexed n) (mvFld env srcTbl srcFld dstTbl) := by
  unfold mvFld
  refine Cmd.keeps_require_bind fun _ => Cmd.keeps_require_bind fun _ => ?_
  refine Cmd.keeps_require_bind fun _ => Cmd.keeps_require_bind fun _ => ?_
  refine Cmd.keeps_get_bind fun s _ => Cmd.keeps_ofOption_bind fun srcTblId _ => ?_
  refine Cmd.keeps_ofOption_bind fun dstTblId _ => Cmd.keeps_require_bind fun _ => ?_
  refine Cmd.keeps_ofOption_bind fun src _ => Cmd.keeps_require_bind fun _ => ?_
  refine Cmd.keeps_bind (keeps_addFld _ _ _ _ _) fun _ dst _ _ => ?_
  refine Cmd.keeps_bind (keeps_copyMeta hn dst src) fun _ _ _ _ => ?_
  refine Cmd.keeps_bind (Cmd.keeps_when ?_) fun _ _ _ _ => ?_
  · exact Cmd.keeps_bind (keeps_addAuxFld hn _ _ _ _ _ _ _ _) fun _ _ _ _ => Cmd.keeps_pure _
  refine Cmd.keeps_bind (Cmd.keeps_modify fun s h => h.setFld _ _) fun _ _ _ _ => ?_
  refine Cmd.keeps_bind (Cmd.keeps_when (Cmd.keeps_modify fun s h => h.setFld _ _)) fun _ _ _ _ => ?_
  exact keeps_delFromFldInfo _ _

lemma keeps_dupFld (tbl f1 f2 : Name) : Cmd.Keeps (Indexed n) (dupFld env tbl f1 f2) := by
  unfold dupFld
  refine Cmd.keeps_require_bind fun _ => Cmd.keeps_require_bind fun _ => ?_
  refine Cmd.keeps_require_bind fun _ => Cmd.keeps_require_bind fun _ => ?_
  refine Cmd.keeps_get_bind fun s _ => Cmd.keeps_ofOption_bind fun tblId _ => ?_
  refine Cmd.keeps_bind (keeps_delExisting tblId _) fun _ _ _ _ => ?_
  refine Cmd.keeps_get_bind fun s _ => Cmd.keeps_ofOption_bind fun f1Id _ => ?_
  refine Cmd.keeps_ofOption_bind fun file _ => ?_
  refine Cmd.keeps_bind (keeps_mkTempFile file) fun _ at_ _ _ => ?_
  refine Cmd.keeps_get_bind fun s _ => Cmd.keeps_ofOption_bind fun f2Id _ => ?_
  refine Cmd.keeps_bind (Cmd.keeps_modify fun s h => h.setFld _ _) fun _ _ _ _ => ?_
  refine Cmd.keeps_bind ?_ fun _ _ _ _ => Cmd.keeps_require _
  unfold dupNn
  refine Cmd.keeps_get_bind fun s _ => Cmd.keeps_when ?_
  refine Cmd.keeps_ofOption_bind fun nnFile _ => ?_
  refine Cmd.keeps_bind (keeps_mkTempFile nnFile) fun _ _ _ _ => ?_
  exact Cmd.keeps_bind (keeps_addAuxFld hn _ _ _ _ _ _ _ _) fun _ _ _ _ => Cmd.keeps_pure _

/-! ### Attributes -/

lemma keeps_setDictFld (fldId : Nat) (value : List Char) :
    Cmd.Keeps (Indexed n) (setDictFld fldId value) := by
  unfold setDictFld
  refine Cmd.keeps_ofOption_bind fun strtbl _ => Cmd.keeps_require_bind fun _ => ?_
  refine Cmd.keeps_ofOption_bind fun strfld _ => Cmd.keeps_require_bind fun _ => ?_
  refine Cmd.keeps_get_bind fun s h => Cmd.keeps_ofOption_bind fun tblId _ => ?_
  refine Cmd.keeps_ofOption_bind fun dict hdict => Cmd.keeps_require_bind fun _ => ?_
  have hslot := (isFld_eq_some hdict).1
  rw [h.length] at hslot ⊢
  exact keeps_addRef hn (by decide) (by omega) fldId

lemma keeps_setAttr (tblId fldId : Nat) (attr : Attr) (value : List Char) (isInternal : Bool) :
    Cmd.Keeps (Indexed n) (setAttr stoF8 tblId fldId attr value isInternal) := by
  cases attr with
  | tbltype =>
    refine Cmd.keeps_ofOption_bind fun tbltype _ => Cmd.keeps_require_bind fun _ => ?_
    refine Cmd.keeps_get_bind fun s _ => Cmd.keeps_ofOption_bind fun txt _ => ?_
    exact Cmd.keeps_require_bind fun _ => Cmd.keeps_modify fun _ h => h.congr rfl rfl
  | dictFld => exact keeps_setDictFld hn fldId value
  | stat stat =>
    refine Cmd.keeps_ofOption_bind fun buf _ => Cmd.keeps_ofOption_bind fun numNn _ => ?_
    refine Cmd.keeps_require_bind fun _ => ?_
    refine Cmd.keeps_bind (Cmd.keeps_modify fun s h => h.setFld _ _) fun _ _ _ _ => ?_
    refine Cmd.keeps_ofOption_bind fun buf _ => Cmd.keeps_get_bind fun s _ => ?_
    refine Cmd.keeps_ofOption_bind fun v _ => ?_
    refine Cmd.keeps_bind (Cmd.keeps_modify fun s h => h.setFld _ _) fun _ _ _ _ => ?_
    refine Cmd.keeps_get_bind fun s _ => Cmd.keeps_require_bind fun _ => ?_
    exact Cmd.keeps_require_bind fun _ => Cmd.keeps_require _
  | fldtype =>
    refine Cmd.keeps_ofOption_bind fun fldtype _ => Cmd.keeps_get_bind fun s _ => ?_
    exact Cmd.keeps_require_bind fun _ => Cmd.keeps_modify fun s h => h.setFld _ _
  | srttype =>
    refine Cmd.keeps_ofOption_bind fun srttype _ => ?_
    exact Cmd.keeps_require_bind fun _ => Cmd.keeps_modify fun s h => h.setFld _ _
  | external =>
    refine Cmd.keeps_require_bind fun _ => ?_
    exact Cmd.keeps_require_bind fun _ => Cmd.keeps_modify fun s h => h.setFld _ _
  | other => exact fun _ h => h

/-- Every call keeps the index in order, whether it succeeds or not. -/
lemma keeps_exec (call : IndexCall) : Cmd.Keeps (Indexed n) (call.exec env stoF8) := by
  cases call with
  | addTbl tbl nR => exact Cmd.keeps_bind (keeps_addTbl tbl nR) fun _ _ _ _ => Cmd.keeps_pure ()
  | delTbl tbl inTblId => exact keeps_delTbl tbl inTblId
  | renameTbl oldTbl newTbl => exact keeps_renameTbl oldTbl newTbl
  | addFld tblId fld ddirId fileno rec =>
    exact Cmd.keeps_bind (keeps_addFld tblId fld ddirId fileno rec) fun _ _ _ _ => Cmd.keeps_pure ()
  | addAuxFld tbl inTblId fld inFldId ddirId fileno auxtype rec =>
    refine Cmd.keeps_bind ?_ fun _ _ _ _ => Cmd.keeps_pure ()
    exact keeps_addAuxFld hn tbl inTblId fld inFldId ddirId fileno auxtype rec
  | dropAuxFld tbl fld auxtype inFldId => exact keeps_dropAuxFld tbl fld auxtype inFldId
  | delFld tbl tblId fld fldId => exact keptByDel_indexed.keeps_delFld tbl tblId fld fldId
  | renameFld tbl oldFld newFld => exact keeps_renameFld tbl oldFld newFld
  | mvFld srcTbl srcFld dstTbl => exact keeps_mvFld hn srcTbl srcFld dstTbl
  | dupFld tbl f1 f2 => exact keeps_dupFld hn tbl f1 f2
  | copyMeta dstFldId srcFldId => exact keeps_copyMeta hn dstFldId srcFldId
  | loadDict fldId txtFldId =>
    refine Cmd.keeps_get_bind fun s h => Cmd.keeps_require_bind fun hslot => ?_
    rw [h.length] at hslot ⊢
    exact keeps_addRef hn (by decide) (by omega) fldId
  | setMeta tblId fldId attr value isInternal =>
    refine Cmd.keeps_require_bind fun _ => Cmd.keeps_require_bind fun _ => ?_
    refine Cmd.keeps_require_bind fun _ => ?_
    exact Cmd.keeps_bind (keeps_setAttr hn _ _ attr value isInternal) fun _ _ _ _ => keeps_chkAttr _ _
  | unsetMeta tblId fldId attr =>
    refine Cmd.keeps_require_bind fun _ => Cmd.keeps_require_bind fun _ => ?_
    exact Cmd.keeps_bind (keeps_unsetAttr _ _ attr) fun _ _ _ _ => keeps_chkAttr _ _
  | other left =>
    refine Cmd.keeps_get_bind fun s h => Cmd.keeps_require_bind fun hlen => ?_
    refine Cmd.keeps_modify fun s' h' => ⟨hlen.trans h.length, h'.index⟩

end

end Datacl
