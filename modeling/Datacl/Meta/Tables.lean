import Datacl.Meta.Fields

/-!
# Operations on tables

`del_tbl`, `add_tbl` and `rename_tbl`.
-/

namespace Datacl

/-- One iteration of the loop of `del_tbl`: only primary fields are deleted. -/
def delTblFld (env : Env) (tblId : Nat) (i : Nat) : Cmd Store Unit := do
  let s ← Cmd.get
  Cmd.when ((s.fld i).tblId = tblId ∧ (s.fld i).auxtype = .undefAuxtype)
    (delFld env [] tblId [] i)

/-- `del_tbl` on a table that exists. -/
def delTblAt (env : Env) (tblId : Nat) : Cmd Store Unit := do
  let s ← Cmd.get
  Cmd.require ((s.tbl tblId).tbltype = .regular ∨ (s.tbl tblId).tbltype = .txtLkp)
  Cmd.forEach (delTblFld env tblId) (List.range s.flds.length)
  Cmd.modify (Store.setTbl tblId zeroTblRec)

/-- `del_tbl`. -/
def delTbl (env : Env) (tbl : Name) (inTblId : Int) : Cmd Store Unit := do
  match ← lookupTbl tbl inTblId with
  | none => pure ()
  | some tblId => delTblAt env tblId.toNat

/-- The slot `add_tbl` writes to: that of the table it deletes, or an empty one. -/
def tblSlot (env : Env) (tbl : Name) : Cmd Store Nat := do
  let s ← Cmd.get
  match isTbl s tbl with
  | some tblId => do
    delTbl env [] tblId
    pure tblId
  | none => Cmd.ofOption (getEmptyTbl env s tbl)

/-- `add_tbl`, with the number of rows that `stoI8` reads from its argument. -/
def addTbl (env : Env) (tbl : Name) (nR : Int) : Cmd Store Nat := do
  Cmd.require (tbl ≠ [])
  Cmd.require (0 < nR)
  Cmd.require (chkTblName tbl = true)
  let tblId ← tblSlot env tbl
  Cmd.modify fun s =>
    s.setTbl tblId { s.tbl tblId with name := tbl, nR := nR, tbltype := .regular }
  pure tblId

/-- `rename_tbl` deletes the table that has the new name and does not look at the status. -/
def delRenamed (env : Env) : Option Nat → Cmd Store Unit
  | some newTblId => Cmd.attempt (delTbl env [] newTblId)
  | none => pure ()

/-- `rename_tbl`. -/
def renameTbl (env : Env) (oldTbl newTbl : Name) : Cmd Store Unit := do
  Cmd.require (newTbl ≠ [])
  Cmd.require (oldTbl ≠ [])
  Cmd.require (newTbl ≠ oldTbl)
  let s ← Cmd.get
  let oldTblId ← Cmd.ofOption (isTbl s oldTbl)
  delRenamed env (isTbl s newTbl)
  Cmd.require (chkTblName newTbl = true)
  Cmd.modify fun s => s.setTbl oldTblId { s.tbl oldTblId with name := newTbl }

end Datacl
