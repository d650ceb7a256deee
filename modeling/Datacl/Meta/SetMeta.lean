import Datacl.Text.Values
import Datacl.Meta.Check

/-!
# Setting attributes

`int_set_meta` and `int_unset_meta` write an attribute of a table or a field and then check the
table and the field. The value of an attribute is text.
-/

namespace Datacl

/-- The cached statistics of a field. -/
inductive Stat where
  | sum | min | max
  deriving DecidableEq, Repr

/-- The attributes that are implemented, and `other` for any other text. -/
inductive Attr where
  | tbltype | dictFld | stat (stat : Stat) | fldtype | srttype | external | other
  deriving DecidableEq, Repr

/-! ### Statistics -/

def FldRec.setStat (r : FldRec) (v : Int) : Stat → FldRec
  | .sum => { r with sumval := v, isSumNn := true }
  | .min => { r with minval := v, isMinNn := true }
  | .max => { r with maxval := v, isMaxNn := true }

def FldRec.unsetStat (r : FldRec) : Stat → FldRec
  | .sum => { r with sumval := 0, isSumNn := false }
  | .min => { r with minval := 0, isMinNn := false }
  | .max => { r with maxval := 0, isMaxNn := false }

/-- The value of a statistic; integers for a bit field too. -/
def parseStat (stoF8 : List Char → Option Int) (strbuf : List Char) : FldType → Option Int
  | .B | .I1 | .I2 | .I4 | .I8 => stoI8 strbuf
  | .F4 | .F8 => stoF8 strbuf
  | _ => none

/-- If both are set, the minimum is not above the maximum. -/
def minMaxOk (r : FldRec) : Bool :=
  !r.isMinNn || !r.isMaxNn ||
    match r.fldtype with
    | .I1 | .I2 | .I4 | .I8 => r.minval ≤ r.maxval
    | .F4 | .F8 => !gtF8 r.minval r.maxval
    | _ => false

/-- The range of a minimum or a maximum; the case of two bytes goes on to that of four. -/
def statInRange (fldtype : FldType) (v : Int) : Bool :=
  match fldtype with
  | .I1 => -2 ^ 7 ≤ v ∧ v ≤ 2 ^ 7 - 1
  | .I2 => (-2 ^ 15 ≤ v ∧ v ≤ 2 ^ 15 - 1) ∧ -2 ^ 31 ≤ v ∧ v ≤ 2 ^ 31 - 1
  | .I4 => -2 ^ 31 ≤ v ∧ v ≤ 2 ^ 31 - 1
  | _ => true

/-- `set_min_max_sum`: the text is the statistic and the number of values that are not null. -/
def setMinMaxSum (stoF8 : List Char → Option Int) (stat : Stat) (value : List Char) (fldId : Nat) :
    Cmd Store Unit := do
  let strbuf ← Cmd.ofOption (readNthVal value [':'] 1 32)
  let numNn ← Cmd.ofOption (stoI8 strbuf)
  Cmd.require (0 ≤ numNn)
  Cmd.modify fun s => s.setFld fldId { s.fld fldId with numNn := numNn }
  let strbuf ← Cmd.ofOption (readNthVal value [':'] 0 32)
  let s ← Cmd.get
  let v ← Cmd.ofOption (parseStat stoF8 strbuf (s.fld fldId).fldtype)
  Cmd.modify fun s => s.setFld fldId ((s.fld fldId).setStat v stat)
  let s ← Cmd.get
  let r := s.fld fldId
  Cmd.require (minMaxOk r = true)
  Cmd.require (r.isMinNn = true → statInRange r.fldtype r.minval = true)
  Cmd.require (r.isMaxNn = true → statInRange r.fldtype r.maxval = true)

/-- `unset_min_max_sum`. The test for the last statistic looks at the maximum three times. -/
def unsetMinMaxSum (stat : Stat) (fldId : Nat) : Cmd Store Unit := do
  Cmd.modify fun s => s.setFld fldId ((s.fld fldId).unsetStat stat)
  let s ← Cmd.get
  let r := s.fld fldId
  Cmd.when (r.isMaxNn = false ∧ r.isMaxNn = false ∧ r.isMaxNn = false)
    (Cmd.modify fun s => s.setFld fldId { s.fld fldId with numNn := -1 })

/-! ### Other attributes -/

/-- `unstr_tbltype`. -/
def unstrTbltype (x : List Char) : Option TblType :=
  if x = "regular".toList then some .regular
  else if x = "txt_lkp".toList then some .txtLkp
  else if x = "min_max".toList then some .minMax
  else if x = "first_last".toList then some .firstLast
  else if x = "bins".toList then some .bins
  else none

/-- `unstr_fldtype`. -/
def unstrFldtype (x : List Char) : Option FldType :=
  if x = "B".toList then some .B
  else if x = "I1".toList then some .I1
  else if x = "I2".toList then some .I2
  else if x = "I4".toList then some .I4
  else if x = "F4".toList then some .F4
  else if x = "I8".toList then some .I8
  else if x = "F8".toList then some .F8
  else if x = "SC".toList then some .SC
  else if x = "SV".toList then some .SV
  else none

/-- The sort types by name. -/
def unstrSrttype (x : List Char) : Option SortType :=
  if x = "unknown".toList then some .unknown
  else if x = "ascending".toList then some .ascending
  else if x = "descending".toList then some .descending
  else if x = "unsorted".toList then some .unsorted
  else none

/-- The casts open to callers from outside. A case whose test passes goes on to the next case, and
the last one fails. -/
def castOk (old new : FldType) : Bool :=
  match old with
  | .I4 => new = .F4 && new = .I4 && new = .F8 && new = .I8 && false
  | .F4 => new = .I4 && new = .F8 && new = .I8 && false
  | .I8 => new = .F8 && new = .I8 && false
  | .F8 => new = .I8 && false
  | _ => false

/-- Only a lookup table can be declared. -/
def setTbltype (tblId : Nat) (value : List Char) : Cmd Store Unit := do
  let tbltype ← Cmd.ofOption (unstrTbltype value)
  Cmd.require (tbltype = .txtLkp)
  let s ← Cmd.get
  let txtFldId ← Cmd.ofOption (isFld s tblId ['t', 'x', 't'])
  Cmd.require ((s.fld txtFldId).fldtype = .SV)
  Cmd.modify fun s => s.setTbl tblId { s.tbl tblId with tbltype := tbltype }

/-- The dictionary is given as the names of a table and a field: `alldigits` reads on to the NUL,
which is no digit, so that a number is taken as a name. A name of more than 127 characters is cut
off, and no table or field has one. -/
def setDictFld (fldId : Nat) (value : List Char) : Cmd Store Unit := do
  let strtbl ← Cmd.ofOption (readNthVal value [':'] 0 128)
  Cmd.require (strtbl ≠ [])
  let strfld ← Cmd.ofOption (readNthVal value [':'] 1 128)
  Cmd.require (strfld ≠ [])
  let s ← Cmd.get
  let dictTblId ← Cmd.ofOption (isTbl s strtbl)
  let dictFldId ← Cmd.ofOption (isFld s dictTblId strfld)
  Cmd.require ((s.fld dictFldId).fldtype = .SV ∨ (s.fld dictFldId).fldtype = .SC)
  onInfo (addToFldInfo s.flds.length fldId .fkFldTxtLkp dictFldId)

def setFldtype (fldId : Nat) (value : List Char) (isInternal : Bool) : Cmd Store Unit := do
  let fldtype ← Cmd.ofOption (unstrFldtype value)
  let s ← Cmd.get
  Cmd.require (isInternal = true ∨ castOk (s.fld fldId).fldtype fldtype = true)
  Cmd.modify fun s => s.setFld fldId { s.fld fldId with fldtype := fldtype }

def setSrttype (fldId : Nat) (value : List Char) (isInternal : Bool) : Cmd Store Unit := do
  let srttype ← Cmd.ofOption (unstrSrttype value)
  Cmd.require (srttype = .unknown ∨ isInternal = true)
  Cmd.modify fun s => s.setFld fldId { s.fld fldId with srttype := srttype }

def setExternal (fldId : Nat) (value : List Char) (isInternal : Bool) : Cmd Store Unit := do
  Cmd.require (isInternal = true)
  Cmd.require (value = "true".toList ∨ value = "false".toList)
  Cmd.modify fun s => s.setFld fldId { s.fld fldId with isExternal := value = "true".toList }

/-! ### The commands -/

/-- The write of `int_set_meta`. -/
def setAttr (stoF8 : List Char → Option Int) (tblId fldId : Nat) (attr : Attr) (value : List Char)
    (isInternal : Bool) : Cmd Store Unit :=
  match attr with
  | .tbltype => setTbltype tblId value
  | .dictFld => setDictFld fldId value
  | .stat stat => setMinMaxSum stoF8 stat value fldId
  | .fldtype => setFldtype fldId value isInternal
  | .srttype => setSrttype fldId value isInternal
  | .external => setExternal fldId value isInternal
  | .other => Cmd.fail

/-- The checks after a write. -/
def chkAttr (env : Env) (tblId fldId : Int) : Cmd Store Unit := do
  let s ← Cmd.get
  Cmd.require (chkTblMeta s tblId.toNat = true)
  Cmd.require (0 ≤ fldId → chkFldMeta env s fldId.toNat (s.tbl tblId.toNat).nR = true)

/-- `int_set_meta`. -/
def intSetMeta (env : Env) (stoF8 : List Char → Option Int) (tblId fldId : Int) (attr : Attr)
    (value : List Char) (isInternal : Bool) : Cmd Store Unit := do
  Cmd.require (value ≠ [])
  Cmd.require (0 ≤ tblId)
  Cmd.require (attr = .tbltype ∨ 0 ≤ fldId)
  setAttr stoF8 tblId.toNat fldId.toNat attr value isInternal
  chkAttr env tblId fldId

/-- The write of `int_unset_meta`. -/
def unsetAttr (tblId fldId : Nat) (attr : Attr) : Cmd Store Unit :=
  match attr with
  | .tbltype => Cmd.modify fun s => s.setTbl tblId { s.tbl tblId with tbltype := .undefTbl }
  | .dictFld => do
    let s ← Cmd.get
    onInfo (delFromFldInfo1 s.flds.length fldId .fkFldTxtLkp)
  | .stat stat => unsetMinMaxSum stat fldId
  | .srttype => Cmd.modify fun s => s.setFld fldId { s.fld fldId with srttype := .unknown }
  | _ => Cmd.fail

/-- `int_unset_meta`. -/
def intUnsetMeta (env : Env) (tblId fldId : Int) (attr : Attr) : Cmd Store Unit := do
  Cmd.require (0 ≤ tblId)
  Cmd.require (attr = .tbltype ∨ 0 ≤ fldId)
  unsetAttr tblId.toNat fldId.toNat attr
  chkAttr env tblId fldId

end Datacl
