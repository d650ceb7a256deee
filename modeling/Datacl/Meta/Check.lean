import Datacl.Meta.Fields

/-!
# The consistency checks

`chk_fld_meta` and `chk_fld_info`, and what `dump` checks of a whole store with them.
-/

namespace Datacl

/-- `MAX_LEN_STR`. -/
def maxLenFldStr : Int := 32765

/-- The order of doubles given by their bits: the magnitude with the sign of the sign bit. -/
def f8Key (x : Int) : Int := if x < 0 then -(x % 2 ^ 63) else x

def isNanF8 (x : Int) : Bool := 0x7ff0000000000000 < x % 2 ^ 63

/-- `a > b` for doubles given by their bits. -/
def gtF8 (a b : Int) : Bool := !isNanF8 a && !isNanF8 b && f8Key b < f8Key a

/-- `chk_tbltype`. -/
def chkTbltype (t : TblType) : Bool := t ∈ [TblType.regular, .txtLkp, .minMax, .firstLast, .bins]

/-- `chk_tbl_meta`. -/
def chkTblMeta (s : Store) (tblId : Nat) : Bool :=
  let t := s.tbl tblId
  tblId < s.tbls.length && chkTblName t.name && 0 < t.nR && chkTbltype t.tbltype &&
    (t.tbltype ≠ .txtLkp ||
      (isFld s tblId ['t', 'x', 't']).any fun fldId => (s.fld fldId).fldtype = .SV)

/-- The rules of `chk_fld_meta` for a field that has a parent. -/
def chkAux (s : Store) (r : FldRec) : Bool :=
  let typeOk : Bool :=
    match r.auxtype with
    | .nn => r.fldtype = .I1 ∨ r.fldtype = .B
    | .len => r.fldtype = .I2
    | .off => r.fldtype = .I8
    | .undefAuxtype => false
  let parent := s.fld r.parentId.toNat
  typeOk && r.name = auxPrefix r.auxtype ++ parent.name &&
    (r.auxtype ≠ .nn || 0 ≤ parent.nnFldId) && r.nnFldId < 0

/-- The rules of `chk_fld_meta` for the lengths and the offsets of a field. -/
def chkLenOff (s : Store) (fldId : Nat) (r : FldRec) : Bool :=
  let lenFldId := getFldInfo .fkFldLen fldId s.info
  let offFldId := getFldInfo .fkFldOff fldId s.info
  if r.fldtype = .SV then
    0 ≤ lenFldId && 0 ≤ offFldId && (s.fld lenFldId.toNat).fldtype = .I2 &&
      (s.fld offFldId.toNat).fldtype = .I8
  else
    lenFldId = -1 && offFldId = -1

/-- The rules of `chk_fld_meta` for the cached statistics. -/
def chkStats (r : FldRec) : Bool :=
  (match r.fldtype with
    | .SC | .SV => !r.isMaxNn && !r.isMinNn && !r.isSumNn
    | .B => !r.isMaxNn && !r.isMinNn
    | _ => true) &&
  (r.isMinNn || r.minval = 0) && (r.isMaxNn || r.maxval = 0) && (r.isSumNn || r.sumval = 0) &&
  (!r.isMaxNn || !r.isMinNn ||
    match r.fldtype with
    | .I1 | .I2 | .I4 | .I8 => r.minval ≤ r.maxval
    | .F4 | .F8 => !gtF8 r.minval r.maxval
    | _ => false)

/-- The rules of `chk_fld_meta` for the data file; `get_fld_sz` fails on bit fields. -/
def chkFile (env : Env) (s : Store) (nR : Int) (r : FldRec) : Bool :=
  0 < r.fileno && (qMmap env s r.ddirId r.fileno).any fun f =>
    f.size = r.filesz && (r.srttype = .unknown || r.nnFldId < 0) &&
    (getFldSz r.fldtype).any fun fldsz =>
      r.fldtype = .SC || r.fldtype = .SV || nR ≤ 0 || fldsz * nR = f.size

/-- `chk_fld_meta`. -/
def chkFldMeta (env : Env) (s : Store) (fldId : Nat) (nR : Int) : Bool :=
  let r := s.fld fldId
  fldId < s.flds.length &&
  (0 ≤ r.tblId && r.tblId < s.tbls.length) && (0 ≤ r.ddirId && r.ddirId < env.ddirs.length) &&
  env.canEnter r.ddirId &&
  !(r.fldtype = .B && 0 ≤ r.nnFldId) &&
  (r.parentId < 0 || chkAux s r) &&
  (if 1 ≤ r.len then r.fldtype = .SC ∧ r.len ≤ maxLenFldStr else r.fldtype ≠ .SC ∧ r.len = 0) &&
  chkLenOff s fldId r &&
  !(r.fldtype = .SC && 0 ≤ r.nnFldId) &&
  r.fldtype ≠ .undefFldtype &&
  (r.auxtype ≠ .undefAuxtype || chkFldName r.name) &&
  chkStats r && chkFile env s nR r

/-- The rules of `chk_fld_info` for a record of lengths or offsets. -/
def chkAuxInfo (s : Store) (r : FldInfo) (fldtype : FldType) (auxtype : AuxType) : Bool :=
  let fld := s.fld r.fldId.toNat
  let aux := s.fld r.xxx.toNat
  (0 ≤ r.xxx && r.xxx < s.flds.length) && !isZeroFldRec aux && aux.fldtype = fldtype &&
    aux.name = auxPrefix auxtype ++ fld.name && fld.tblId = aux.tblId

/-- `chk_fld_info`. -/
def chkFldInfo (env : Env) (s : Store) (r : FldInfo) : Bool :=
  0 ≤ r.fldId && chkFldMeta env s r.fldId.toNat (-1) &&
  match r.mode with
  | .fkFldTxtLkp => (0 ≤ r.xxx && r.xxx < s.flds.length) && !isZeroFldRec (s.fld r.xxx.toNat)
  | .fkFldLen => chkAuxInfo s r .I2 .len
  | .fkFldOff => chkAuxInfo s r .I8 .off
  | .undefFldInfo => false

/-- What `dump` checks of the index: unused records are reset, used ones pass `chk_fld_info`,
the used ones come first and strictly ascend. -/
def chkIndex (env : Env) (s : Store) : Bool :=
  (s.info.all fun r => if r.mode = .undefFldInfo then r = zeroFldInfoRec else chkFldInfo env s r) &&
  ((s.info.dropWhile fun r => r ≠ zeroFldInfoRec).all fun r => r = zeroFldInfoRec) &&
  List.Pairwise (fun a b => a.toI8 < b.toI8) (s.info.takeWhile fun r => r ≠ zeroFldInfoRec)

/-- What `dump` checks of the fields. -/
def chkFlds (env : Env) (s : Store) : Bool :=
  (List.range s.flds.length).all fun i =>
    let r := s.fld i
    if r.fileno ≤ 0 then isZeroFldRec r
    else (0 ≤ r.tblId && r.tblId < s.tbls.length) && chkFldMeta env s i (s.tbl r.tblId.toNat).nR

/-- The state passes `chk_fld_info` and `chk_fld_meta` throughout. -/
def chkMeta (env : Env) (s : Store) : Bool := chkIndex env s && chkFlds env s

/-- `int_set_meta` for the dictionary of a field, once the dictionary has been looked up. -/
def intSetDictFld (env : Env) (tblId fldId dictFldId : Nat) : Cmd Store Unit := do
  let s ← Cmd.get
  Cmd.require ((s.fld dictFldId).fldtype = .SV ∨ (s.fld dictFldId).fldtype = .SC)
  onInfo (addToFldInfo s.flds.length fldId .fkFldTxtLkp dictFldId)
  let s ← Cmd.get
  Cmd.require (chkTblMeta s tblId = true)
  Cmd.require (chkFldMeta env s fldId (s.tbl tblId).nR = true)

end Datacl
