import Datacl.Meta.Store

/-!
# Operations on fields

`del_fld`, `add_fld`, `add_aux_fld`, `rename_fld`, `mv_fld` and `dup_fld`, statement by
statement: a failing check leaves with what has been changed so far.
-/

namespace Datacl

/-- The slot of the table an operation is called for: the one that is passed, or else the one
with the name that is passed. -/
def lookupTbl (tbl : Name) (tblId : Int) : Cmd Store (Option Int) := do
  if 0 ≤ tblId then
    pure (some tblId)
  else do
    Cmd.require (tbl ≠ [])
    let s ← Cmd.get
    pure ((isTbl s tbl).map fun i => (i : Int))

/-- The slot of the field an operation is called for. -/
def lookupFld (tblId : Int) (fld : Name) (fldId : Int) : Cmd Store (Option Nat) := do
  if 0 ≤ fldId then
    pure (some fldId.toNat)
  else do
    Cmd.require (fld ≠ [])
    let s ← Cmd.get
    pure (isFld s tblId fld)

/-! ### Deleting -/

/-- The second half of an iteration of the last loop of `del_fld`: unlink and delete the
auxiliary field. -/
def delAuxRec (env : Env) (auxId : Nat) : Cmd Store Unit := do
  let s ← Cmd.get
  let aux := s.fld auxId
  Cmd.when (aux.isExternal = false) (Cmd.attempt (qDelete env aux.ddirId aux.fileno))
  qDelete env aux.ddirId aux.fileno
  Cmd.modify (Store.setFld auxId zeroFldRec)

/-- The last loop of `del_fld` at position `i` of the index. The record is reset and the index
sorted at once; `st` is the value of `status`, which only the deletion of an auxiliary field
changes. -/
def delInfoAt (env : Env) (fldId : Nat) (i : Nat) (st : Bool) : Cmd Store Bool := do
  let s ← Cmd.get
  let r := s.info.getD i zeroFldInfoRec
  if r.fldId ≠ fldId then
    pure st
  else if r.mode = .undefFldInfo then
    Cmd.fail
  else do
    Cmd.modify fun s => { s with info := sortFldInfo (s.info.set i zeroFldInfoRec) }
    if r.mode = .fkFldTxtLkp ∨ r.xxx < 0 then
      pure st
    else do
      delAuxRec env r.xxx.toNat
      pure true

/-- The last loop of `del_fld`. -/
def delInfoLoop (env : Env) (fldId : Nat) : List Nat → Bool → Cmd Store Bool
  | [], st => pure st
  | i :: is, st => do
    let st ← delInfoAt env fldId i st
    delInfoLoop env fldId is st

/-- `del_fld` deletes the nn field. The external flag it compares with is that of the primary
field after its record has been reset. The result is the value of `status`. -/
def delNnFld (env : Env) (fldId : Nat) (nnFldId : Int) : Cmd Store Bool := do
  if 0 ≤ nnFldId then do
    let s ← Cmd.get
    let nn := s.fld nnFldId.toNat
    Cmd.require ((s.fld fldId).isExternal = nn.isExternal)
    let st ← Cmd.status (Cmd.when (nn.isExternal = false) (qDelete env nn.ddirId nn.fileno))
    Cmd.modify (Store.setFld nnFldId.toNat zeroFldRec)
    pure st
  else
    pure true

/-- `del_fld` on a field that exists. -/
def delFldAt (env : Env) (fldId : Nat) : Cmd Store Unit := do
  let s ← Cmd.get
  let fld := s.fld fldId
  Cmd.require ¬ (s.info.any fun r => r.mode = .fkFldTxtLkp ∧ r.xxx = fldId) = true
  Cmd.require (fld.auxtype = .undefAuxtype)
  Cmd.when (fld.isExternal = false) (qDelete env fld.ddirId fld.fileno)
  Cmd.modify (Store.setFld fldId zeroFldRec)
  let st ← delNnFld env fldId fld.nnFldId
  let st ← delInfoLoop env fldId (List.range s.info.length) st
  Cmd.require (st = true)

/-- `del_fld`. -/
def delFld (env : Env) (tbl : Name) (tblId : Int) (fld : Name) (fldId : Int) : Cmd Store Unit := do
  match ← lookupTbl tbl tblId with
  | none => pure ()
  | some tblId =>
    match ← lookupFld tblId fld fldId with
    | none => pure ()
    | some fldId => delFldAt env fldId

/-! ### Adding -/

/-- `add_fld`. The caller passes a record that `zero_fld_rec` has set up. -/
def addFld (env : Env) (tblId : Int) (fld : Name) (ddirId fileno : Int) (rec : FldRec) :
    Cmd Store Nat := do
  Cmd.require (rec.fldtype ≠ .undefFldtype)
  Cmd.require (chkFldName fld = true)
  Cmd.require (0 < fileno)
  Cmd.require (0 ≤ ddirId ∧ ddirId < env.ddirs.length)
  let s ← Cmd.get
  Cmd.require (0 ≤ tblId ∧ tblId < s.tbls.length)
  let nR := (s.tbl tblId.toNat).nR
  Cmd.require (0 < nR)
  let filesz ← Cmd.ofOption (chkFileSize env s nR { rec with fileno := fileno, ddirId := ddirId })
  delFld env [] tblId fld (-1)
  let s ← Cmd.get
  let fldId ← Cmd.ofOption (getEmptyFld env s fld)
  Cmd.modify (Store.setFld fldId { rec with
    tblId := tblId
    ddirId := ddirId
    fileno := fileno
    filesz := filesz
    name := fld })
  pure fldId

/-- The auxiliary field of a primary one, negative if there is none. -/
def auxFldId (s : Store) (fldId : Nat) : AuxType → Int
  | .nn => (s.fld fldId).nnFldId
  | .len => getFldInfo .fkFldLen fldId s.info
  | .off => getFldInfo .fkFldOff fldId s.info
  | .undefAuxtype => -1

/-- `del_aux_fld`, which resets the nn field of the primary field whatever the kind, and leaves
the record of the index. -/
def delAuxFld (env : Env) (fldId : Nat) (auxtype : AuxType) : Cmd Store Unit := do
  let s ← Cmd.get
  Cmd.require (fldId < s.flds.length)
  Cmd.require (auxtype ≠ .undefAuxtype)
  let auxId := auxFldId s fldId auxtype
  if auxId < 0 then
    pure ()
  else do
    Cmd.modify (Store.setFld fldId { s.fld fldId with nnFldId := -1 })
    let s ← Cmd.get
    let aux := s.fld auxId.toNat
    Cmd.when ((s.fld fldId).isExternal = false) do
      Cmd.require (aux.isExternal = false)
      qDelete env aux.ddirId aux.fileno
    Cmd.modify (Store.setFld auxId.toNat zeroFldRec)

/-- `drop_aux_fld`. -/
def dropAuxFld (env : Env) (tbl fld : Name) (auxtype : AuxType) (inFldId : Int) :
    Cmd Store Unit := do
  if 0 ≤ inFldId then
    delAuxFld env inFldId.toNat auxtype
  else do
    Cmd.require (tbl ≠ [])
    Cmd.require (fld ≠ [])
    let s ← Cmd.get
    let tblId ← Cmd.ofOption (isTbl s tbl)
    match isFld s tblId fld with
    | none => pure ()
    | some fldId => delAuxFld env fldId auxtype

/-- The type of the auxiliary field; that of an nn field is the caller's choice. -/
def auxFldtype (rec : FldRec) : AuxType → Option FldType
  | .nn => if rec.fldtype = .I1 ∨ rec.fldtype = .B then some rec.fldtype else none
  | .len => some .I2
  | .off => some .I8
  | .undefAuxtype => none

/-- The table and the field `add_aux_fld` is called for, once the present auxiliary field of
this kind has been dropped. -/
def auxTarget (env : Env) (tbl : Name) (inTblId : Int) (fld : Name) (inFldId : Int)
    (auxtype : AuxType) : Cmd Store (Int × Nat) := do
  if 0 ≤ inTblId ∧ 0 ≤ inFldId then do
    dropAuxFld env [] [] auxtype inFldId
    pure (inTblId, inFldId.toNat)
  else do
    dropAuxFld env tbl fld auxtype (-1)
    let s ← Cmd.get
    let tblId ← Cmd.ofOption (isTbl s tbl)
    let fldId ← Cmd.ofOption (isFld s tblId fld)
    pure ((tblId : Int), fldId)

/-- Point from the primary field to the auxiliary one. -/
def linkAux (fldId auxId : Nat) : AuxType → Cmd Store Unit
  | .nn => Cmd.modify fun s => s.setFld fldId { s.fld fldId with nnFldId := auxId }
  | .len => do
    let s ← Cmd.get
    onInfo (addToFldInfo s.flds.length fldId .fkFldLen auxId)
  | .off => do
    let s ← Cmd.get
    onInfo (addToFldInfo s.flds.length fldId .fkFldOff auxId)
  | .undefAuxtype => Cmd.fail

/-- `add_aux_fld`. -/
def addAuxFld (env : Env) (tbl : Name) (inTblId : Int) (fld : Name) (inFldId : Int)
    (ddirId fileno : Int) (auxtype : AuxType) (rec : FldRec) : Cmd Store Nat := do
  let fldtype ← Cmd.ofOption (auxFldtype rec auxtype)
  Cmd.require ¬ (tbl = [] ∧ inTblId < 0)
  Cmd.require ¬ (fld = [] ∧ inFldId < 0)
  Cmd.require (0 ≤ fileno)
  let (tblId, fldId) ← auxTarget env tbl inTblId fld inFldId auxtype
  let s ← Cmd.get
  let file ← Cmd.ofOption (qMmap env s ddirId fileno)
  let auxFld ← Cmd.ofOption (mkNameAuxFld (s.fld fldId).name auxtype)
  let auxId ← Cmd.ofOption (getEmptyFld env s auxFld)
  Cmd.modify (Store.setFld auxId zeroFldRec)
  linkAux fldId auxId auxtype
  Cmd.modify (Store.setFld auxId { zeroFldRec with
    parentId := fldId
    tblId := tblId
    auxtype := auxtype
    fldtype := fldtype
    name := auxFld
    fileno := fileno
    ddirId := ddirId
    filesz := file.size })
  pure auxId

/-! ### Renaming, moving, duplicating -/

/-- `rename_fld` cuts an nn field off from its parent; other auxiliary fields are refused. -/
def unlinkNn (fldId : Nat) : Cmd Store Unit := do
  let s ← Cmd.get
  let fld := s.fld fldId
  let parent := fld.parentId.toNat
  Cmd.when (0 ≤ fld.parentId) do
    Cmd.require ((s.fld parent).nnFldId = fldId)
    Cmd.require (fld.fldtype = .I1 ∨ fld.fldtype = .B)
    Cmd.modify fun s => s.setFld parent { s.fld parent with nnFldId := -1 }
    Cmd.modify fun s =>
      s.setFld fldId { s.fld fldId with parentId := -1, auxtype := .undefAuxtype }

/-- Delete the field that has the name a field is to get. -/
def delExisting (env : Env) (tblId : Nat) : Option Nat → Cmd Store Unit
  | some fldId => delFld env [] tblId [] fldId
  | none => pure ()

/-- `rename_fld`. -/
def renameFld (env : Env) (tbl oldFld newFld : Name) : Cmd Store Unit := do
  Cmd.require (tbl ≠ [])
  Cmd.require (newFld ≠ [])
  Cmd.require (oldFld ≠ [])
  Cmd.require (newFld ≠ oldFld)
  let s ← Cmd.get
  let tblId ← Cmd.ofOption (isTbl s tbl)
  let oldFldId ← Cmd.ofOption (isFld s tblId oldFld)
  let nnOldFldId := (s.fld oldFldId).nnFldId
  unlinkNn oldFldId
  delExisting env tblId (isFld s tblId newFld)
  Cmd.require (chkFldName newFld = true)
  Cmd.modify fun s => s.setFld oldFldId { s.fld oldFldId with name := newFld }
  Cmd.when (0 ≤ nnOldFldId) do
    Cmd.require (newFld.length + (auxPrefix .nn).length ≤ maxLenName)
    Cmd.modify fun s => s.setFld nnOldFldId.toNat
      { s.fld nnOldFldId.toNat with name := auxPrefix .nn ++ newFld }

/-- `copy_meta` copies one kind of reference of the index. -/
def copyFldInfo (dstFldId srcFldId : Nat) (mode : FldInfoMode) : Cmd Store Unit := do
  let s ← Cmd.get
  let auxId := getFldInfo mode srcFldId s.info
  Cmd.when (0 ≤ auxId) (onInfo (addToFldInfo s.flds.length dstFldId mode auxId))

/-- `copy_meta` with mode 1. -/
def copyMeta (dstFldId srcFldId : Nat) : Cmd Store Unit := do
  Cmd.require (dstFldId ≠ srcFldId)
  Cmd.modify fun s =>
    s.setFld dstFldId { s.fld dstFldId with srttype := (s.fld srcFldId).srttype }
  copyFldInfo dstFldId srcFldId .fkFldTxtLkp
  copyFldInfo dstFldId srcFldId .fkFldLen
  copyFldInfo dstFldId srcFldId .fkFldOff

/-- `mv_fld`. -/
def mvFld (env : Env) (srcTbl srcFld dstTbl : Name) : Cmd Store Unit := do
  Cmd.require (srcTbl ≠ [])
  Cmd.require (srcFld ≠ [])
  Cmd.require (dstTbl ≠ [])
  Cmd.require (srcTbl ≠ dstTbl)
  let s ← Cmd.get
  let srcTblId ← Cmd.ofOption (isTbl s srcTbl)
  let dstTblId ← Cmd.ofOption (isTbl s dstTbl)
  Cmd.require ((s.tbl srcTblId).nR = (s.tbl dstTblId).nR)
  let srcFldId ← Cmd.ofOption (isFld s srcTblId srcFld)
  let src := s.fld srcFldId
  let nnSrc := s.fld src.nnFldId.toNat
  Cmd.require (src.fldtype ∈ [FldType.I1, .I2, .I4, .I8, .F4, .F8])
  let dstFldId ← addFld env dstTblId srcFld src.ddirId src.fileno
    { zeroFldRec with fldtype := src.fldtype }
  copyMeta dstFldId srcFldId
  Cmd.when (0 ≤ src.nnFldId) do
    let _ ← addAuxFld env [] dstTblId [] dstFldId nnSrc.ddirId nnSrc.fileno .nn
      { zeroFldRec with fldtype := .I1 }
  Cmd.modify (Store.setFld srcFldId zeroFldRec)
  Cmd.when (0 ≤ src.nnFldId) (Cmd.modify (Store.setFld src.nnFldId.toNat zeroFldRec))
  onInfo (delFromFldInfo s.flds.length srcFldId)

/-- The part of `dup_fld` that copies the nn field of `f1`. -/
def dupNn (env : Env) (tblId f1Id f2Id : Nat) : Cmd Store Unit := do
  let s ← Cmd.get
  let nnId := (s.fld f1Id).nnFldId
  let nn := s.fld nnId.toNat
  Cmd.when (0 ≤ nnId) do
    let file ← Cmd.ofOption (qMmap env s nn.ddirId nn.fileno)
    let (ddirId, fileno) ← mkTempFile env file
    let _ ← addAuxFld env [] tblId [] f2Id ddirId fileno .nn
      { zeroFldRec with fldtype := nn.fldtype }

/-- `dup_fld`. Whether the new name is valid is looked at only if there is no nn field. -/
def dupFld (env : Env) (tbl f1 f2 : Name) : Cmd Store Unit := do
  Cmd.require (tbl ≠ [])
  Cmd.require (f1 ≠ [])
  Cmd.require (f2 ≠ [])
  Cmd.require (f1 ≠ f2)
  let s ← Cmd.get
  let tblId ← Cmd.ofOption (isTbl s tbl)
  delExisting env tblId (isFld s tblId f2)
  let s ← Cmd.get
  let f1Id ← Cmd.ofOption (isFld s tblId f1)
  let f1Rec := s.fld f1Id
  let file ← Cmd.ofOption (qMmap env s f1Rec.ddirId f1Rec.fileno)
  let (ddirId, fileno) ← mkTempFile env file
  let s ← Cmd.get
  let f2Id ← Cmd.ofOption (getEmptyFld env s f2)
  Cmd.modify (Store.setFld f2Id { f1Rec with
    isExternal := false
    nnFldId := -1
    name := f2
    fileno := fileno
    ddirId := ddirId })
  dupNn env tblId f1Id f2Id
  Cmd.require (0 ≤ f1Rec.nnFldId ∨ chkFldName f2 = true)

end Datacl
