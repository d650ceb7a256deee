import Datacl.Meta.Names
import Datacl.Order.TruthfulSort

/-!
# Appending a table

`app_tbl` appends the columns of one table to those of another, field by field and in place.
-/

namespace Datacl

/-! ### The command -/

/-- `MAX_NUM_FLDS_IN_TBL`. -/
def maxNumFldsInTbl : Nat := 1024

/-- `tbl_meta` without auxiliary fields; `none` if the fields do not fit in the array. -/
def tblMeta (s : Store) (tblId : Nat) : Option (List Nat) :=
  let fldIds := (List.range s.flds.length).filter fun i =>
    (s.fld i).tblId = tblId ∧ (s.fld i).auxtype = .undefAuxtype
  if fldIds.length ≤ maxNumFldsInTbl then some fldIds else none

/-- The checks of `app_tbl` for a field of the first table, and the field of the second one. -/
def appTblPair (s : Store) (t2Id t1f1Id : Nat) : Option (Nat × Nat) :=
  let t1f1 := s.fld t1f1Id
  if t1f1.fldtype = .SC ∨ t1f1.fldtype = .SV then none
  else if t1f1.isExternal = true then none
  else
    match isFld s t2Id t1f1.name with
    | none => none
    | some t2f1Id =>
      if t1f1.auxtype ≠ (s.fld t2f1Id).auxtype then none
      else if t1f1.fldtype ≠ (s.fld t2f1Id).fldtype then none
      else some (t1f1Id, t2f1Id)

/-- The pairs of fields that `app_tbl` appends, if all pass the checks. -/
def appTblPairs (s : Store) (t1Id t2Id : Nat) : Option (List (Nat × Nat)) := do
  let flds1 ← tblMeta s t1Id
  flds1.mapM (appTblPair s t2Id)

/-- `app_tbl`. -/
def appTbl (env : Env) (t1 t2 : Name) : Cmd Store Unit := do
  Cmd.require (t1 ≠ [])
  Cmd.require (t2 ≠ [])
  let s ← Cmd.get
  let t1Id ← Cmd.ofOption (isTbl s t1)
  let t2Id ← Cmd.ofOption (isTbl s t2)
  let pairs ← Cmd.ofOption (appTblPairs s t1Id t2Id)
  Cmd.forEach (fun p => appFld env t1Id p.1 t2Id p.2) pairs
  let nR := (s.tbl t1Id).nR + (s.tbl t2Id).nR
  Cmd.modify fun s => s.setTbl t1Id { s.tbl t1Id with nR := nR }

/-! ### All or nothing -/

/-- The data file of a field. -/
def Store.file (s : Store) (i : Nat) : Option DataFile := s.disk (s.fld i).ddirId (s.fld i).fileno

/-- The column of a field. -/
def Store.cells (s : Store) (i : Nat) : List Int := (s.file i).elim [] DataFile.cells

/-- The null flags of a field, all `TRUE` if it has no null column. -/
def Store.flags (s : Store) (i : Nat) (nR : Nat) : List Int :=
  if 0 ≤ (s.fld i).nnFldId then s.cells (s.fld i).nnFldId.toNat else List.replicate nR 1

/-- The recorded size is that of the file. -/
def Store.FileszOk (s : Store) (i : Nat) : Prop :=
  (s.file i).map DataFile.size = some (s.fld i).filesz

/-- The column of `b` has been appended to that of `a`. -/
structure ColAppended (s s' : Store) (nR1 nR2 a b : Nat) : Prop where
  cells : s'.cells a = s.cells a ++ s.cells b
  flags : s'.flags a (nR1 + nR2) = s.flags a nR1 ++ s.flags b nR2
  filesz : s'.FileszOk a
  nnFilesz : 0 ≤ (s'.fld a).nnFldId → s'.FileszOk (s'.fld a).nnFldId.toNat

/-- All columns of the second table have been appended to those of the first. -/
def TblAppended (s s' : Store) (t1Id t2Id : Nat) (pairs : List (Nat × Nat)) : Prop :=
  (s'.tbl t1Id).nR = (s.tbl t1Id).nR + (s.tbl t2Id).nR ∧
    ∀ p ∈ pairs, ColAppended s s' (s.tbl t1Id).nR.toNat (s.tbl t2Id).nR.toNat p.1 p.2

/-- No record and no column of the table has changed. -/
def TblUnchanged (s s' : Store) (t1Id : Nat) : Prop :=
  SameRecs s s' ∧ ∀ i, (s.fld i).tblId = t1Id → s'.file i = s.file i

/-- `app_tbl` appends the table or changes nothing. -/
def AllOrNothing (env : Env) (s : Store) (t1 t2 : Name) (t1Id t2Id : Nat) (pairs : List (Nat × Nat)) :
    Prop :=
  ((appTbl env t1 t2 s).1 = some () ∧ TblAppended s (appTbl env t1 t2 s).2 t1Id t2Id pairs) ∨
    ((appTbl env t1 t2 s).1 = none ∧ TblUnchanged s (appTbl env t1 t2 s).2 t1Id)

/-- The state is consistent: it passes the checks, names are unique, null columns belong to their
tables, fields have data files of their own, and these have cells of the width of the type. -/
structure AppConsistent (env : Env) (s : Store) : Prop where
  checks : chkFlds env s = true
  tbls : ∀ t, (s.tbl t).Used → chkTblMeta s t = true
  names : UniqueNames s
  nn : ∀ i, (s.fld i).Used → 0 ≤ (s.fld i).nnFldId → (s.fld (s.fld i).nnFldId.toNat).Used ∧
    (s.fld (s.fld i).nnFldId.toNat).auxtype = .nn ∧
    (s.fld (s.fld i).nnFldId.toNat).fldtype = .I1 ∧
    (s.fld (s.fld i).nnFldId.toNat).tblId = (s.fld i).tblId
  files : ∀ i j, (s.fld i).Used → (s.fld j).Used → (s.fld i).ddirId = (s.fld j).ddirId →
    (s.fld i).fileno = (s.fld j).fileno → i = j
  fileno : ∀ i, (s.fld i).Used → (s.fld i).fileno < s.nextFileno
  width : ∀ i (w : Nat) f, (s.fld i).Used → getFldSz (s.fld i).fldtype = some (w : Int) → s.file i = some f →
    f.width = w

/-- The number of free slots for fields. -/
def Store.freeSlots (s : Store) : Nat := s.flds.countP fun r => r.name = []

/-- A null column can be made for the field `a` of the first table: there is room for its file and
its name fits. -/
def RoomForNn (env : Env) (s : Store) (t1Id t2Id a : Nat) : Prop :=
  (s.fld a).name.length + (auxPrefix .nn).length ≤ maxLenName ∧
    ∃ d, env.tempDir ((s.tbl t1Id).nR.toNat + (s.tbl t2Id).nR.toNat) = some d ∧
      env.canEnter d = true

/-- No field of the first table has a null column; and where the second table has one, a null column
can be made, with free slots for all of them. -/
structure AppCond (env : Env) (s : Store) (t1Id t2Id : Nat) (pairs : List (Nat × Nat)) (slots : Nat) :
    Prop where
  noNn : ∀ p ∈ pairs, (s.fld p.1).nnFldId < 0
  room : ∀ p ∈ pairs, 0 ≤ (s.fld p.2).nnFldId → RoomForNn env s t1Id t2Id p.1
  slots : pairs.countP (fun p => 0 ≤ (s.fld p.2).nnFldId) ≤ slots

end Datacl
