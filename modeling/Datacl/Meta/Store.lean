import Datacl.Meta.FldInfo

/-!
# The metadata store

The records of tables and fields, the lookups by name, and the data files they refer to. A
string argument that may be `NULL` is a list of characters, and `[]` stands for both `NULL` and
the empty string, which every function treats alike.
-/

namespace Datacl

/-- `TBL_TYPE`. -/
inductive TblType where
  | undefTbl | regular | ldbDict | txtLkp | minMax | firstLast | bins
  deriving DecidableEq, Repr

/-- `SORT_TYPE`. -/
inductive SortType where
  | unknown | ascending | descending | unsorted
  deriving DecidableEq, Repr

/-- `FLD_TYPE`. -/
inductive FldType where
  | undefFldtype | B | I1 | I2 | I4 | I8 | F4 | F8 | SC | SV
  deriving DecidableEq, Repr

/-- `AUX_TYPE`. -/
inductive AuxType where
  | undefAuxtype | nn | len | off
  deriving DecidableEq, Repr

abbrev Name := List Char

/-- `TBL_REC_TYPE`. -/
structure TblRec where
  nR : Int
  isTemp : Bool
  name : Name
  tbltype : TblType
  deriving DecidableEq, Repr

/-- `FLD_REC_TYPE`; the statistics are kept in their 64-bit integer view. -/
structure FldRec where
  tblId : Int
  ddirId : Int
  parentId : Int
  nnFldId : Int
  len : Int
  filesz : Nat
  isExternal : Bool
  srttype : SortType
  fldtype : FldType
  auxtype : AuxType
  name : Name
  fileno : Int
  sumval : Int
  minval : Int
  maxval : Int
  isSumNn : Bool
  isMinNn : Bool
  isMaxNn : Bool
  numNn : Int
  deriving DecidableEq, Repr

/-- `zero_tbl_rec`. -/
def zeroTblRec : TblRec := ⟨0, false, [], .undefTbl⟩

/-- `zero_fld_rec`. -/
def zeroFldRec : FldRec where
  tblId := -1
  ddirId := -1
  parentId := -1
  nnFldId := -1
  len := 0
  filesz := 0
  isExternal := false
  srttype := .unknown
  fldtype := .undefFldtype
  auxtype := .undefAuxtype
  name := []
  fileno := 0
  sumval := 0
  minval := 0
  maxval := 0
  isSumNn := false
  isMinNn := false
  isMaxNn := false
  numNn := -1

/-- `is_zero_fld_rec`, which does not look at the number of null values. -/
def isZeroFldRec (r : FldRec) : Bool := { r with numNn := -1 } = zeroFldRec

/-- A data file: its cells and their width in bytes. -/
structure DataFile where
  width : Nat
  cells : List Int
  deriving DecidableEq, Repr

def DataFile.size (f : DataFile) : Nat := f.width * f.cells.length

/-- What the store is run in: the hash function of names, for each data directory whether it can
be entered, and the directory a temporary file of some size goes to, if there is room. -/
structure Env where
  hash : Name → Nat
  ddirs : List Bool
  tempDir : Nat → Option Nat

/-- The state: `g_tbls`, `g_flds`, `g_fld_info`, the next file number, and the data files by
directory and file number. -/
structure Store where
  tbls : List TblRec
  flds : List FldRec
  info : List FldInfo
  nextFileno : Int
  disk : Int → Int → Option DataFile

/-- An empty store. -/
def Store.empty (nTbl nFld nFldInfo : Nat) (disk : Int → Int → Option DataFile) : Store where
  tbls := List.replicate nTbl zeroTblRec
  flds := List.replicate nFld zeroFldRec
  info := List.replicate nFldInfo zeroFldInfoRec
  nextFileno := 1
  disk := disk

/-! ### Slots -/

def Store.tbl (s : Store) (i : Nat) : TblRec := s.tbls.getD i zeroTblRec

def Store.fld (s : Store) (i : Nat) : FldRec := s.flds.getD i zeroFldRec

def Store.setTbl (i : Nat) (r : TblRec) (s : Store) : Store := { s with tbls := s.tbls.set i r }

def Store.setFld (i : Nat) (r : FldRec) (s : Store) : Store := { s with flds := s.flds.set i r }

@[simp] lemma Store.setFld_tbls (s : Store) (i : Nat) (r : FldRec) : (s.setFld i r).tbls = s.tbls := rfl

@[simp] lemma Store.setFld_info (s : Store) (i : Nat) (r : FldRec) : (s.setFld i r).info = s.info := rfl

@[simp] lemma Store.length_setFld (s : Store) (i : Nat) (r : FldRec) :
    (s.setFld i r).flds.length = s.flds.length := List.length_set

@[simp] lemma Store.setTbl_flds (s : Store) (i : Nat) (r : TblRec) : (s.setTbl i r).flds = s.flds := rfl

@[simp] lemma Store.setTbl_info (s : Store) (i : Nat) (r : TblRec) : (s.setTbl i r).info = s.info := rfl

lemma Store.fld_of_le {s : Store} {i : Nat} (h : s.flds.length ≤ i) : s.fld i = zeroFldRec := by
  simp [Store.fld, h]

/-- A store without fields. -/
lemma Store.fld_of_replicate {s : Store} {n : Nat} (h : s.flds = List.replicate n zeroFldRec)
    (i : Nat) : s.fld i = zeroFldRec := by
  rw [Store.fld, h, List.getD_eq_getElem?_getD, List.getElem?_replicate]
  by_cases hi : i < n
  · rw [if_pos hi, Option.getD_some]
  · rw [if_neg hi, Option.getD_none]

lemma Store.fld_setFld (s : Store) (i j : Nat) (r : FldRec) :
    (s.setFld i r).fld j = if j = i ∧ i < s.flds.length then r else s.fld j := by
  simp only [Store.fld, Store.setFld, List.getD_eq_getElem?_getD, List.getElem?_set]
  by_cases hij : i = j
  · subst hij
    by_cases hi : i < s.flds.length
    · simp [hi]
    · simp [hi]
  · simp [hij, Ne.symm hij]

lemma Store.fld_setFld_of_lt {s : Store} {i : Nat} (h : i < s.flds.length) (r : FldRec) :
    (s.setFld i r).fld i = r := by
  simp [Store.fld_setFld, h]

lemma Store.fld_setFld_of_ne {s : Store} {i j : Nat} (h : j ≠ i) (r : FldRec) :
    (s.setFld i r).fld j = s.fld j := by
  simp [Store.fld_setFld, h]

/-- A slot out of range reads as a reset record, so that resetting needs no range. -/
lemma Store.fld_setFld_zero (s : Store) (i j : Nat) :
    (s.setFld i zeroFldRec).fld j = if j = i then zeroFldRec else s.fld j := by
  rw [Store.fld_setFld]
  by_cases hij : j = i
  · by_cases hi : i < s.flds.length
    · simp [hij, hi]
    · simp [hij, hi, Store.fld_of_le (not_lt.mp hi)]
  · simp [hij]

lemma Store.tbl_setTbl (s : Store) (i j : Nat) (r : TblRec) :
    (s.setTbl i r).tbl j = if j = i ∧ i < s.tbls.length then r else s.tbl j := by
  simp only [Store.tbl, Store.setTbl, List.getD_eq_getElem?_getD, List.getElem?_set]
  by_cases hij : i = j
  · subst hij
    by_cases hi : i < s.tbls.length
    · simp [hi]
    · simp [hi]
  · simp [hij, Ne.symm hij]

/-- A slot is used if it has a name. -/
def FldRec.Used (r : FldRec) : Prop := r.name ≠ []

def TblRec.Used (r : TblRec) : Prop := r.name ≠ []

instance (r : FldRec) : Decidable r.Used := inferInstanceAs (Decidable (r.name ≠ []))

instance (r : TblRec) : Decidable r.Used := inferInstanceAs (Decidable (r.name ≠ []))

/-- A command of the auxiliary-field index. -/
def onInfo {α : Type} (c : Cmd (List FldInfo) α) : Cmd Store α :=
  Cmd.on Store.info (fun info s => { s with info := info }) c

/-! ### Names -/

/-- `MAX_LEN_FLD_NAME` and `MAX_LEN_TBL_NAME`. -/
def maxLenName : Nat := 31

/-- `chk_fld_name`. -/
def chkFldName (x : Name) : Bool :=
  x ≠ [] ∧ x.length ≤ maxLenName ∧ x.all fun c => c = '_' || c.isAlphanum

/-- `chk_tbl_name`. -/
def chkTblName (x : Name) : Bool :=
  x ≠ [] ∧ x.length ≤ maxLenName ∧ x.all fun c => c.isAlphanum || c = '_'

/-- `mk_str_auxtype`. -/
def mkStrAuxtype : AuxType → Name
  | .undefAuxtype => ['p', 'r', 'i', 'm', 'a', 'r', 'y']
  | .nn => ['n', 'n']
  | .len => ['l', 'e', 'n']
  | .off => ['o', 'f', 'f']

/-- What the name of an auxiliary field starts with. -/
def auxPrefix (auxtype : AuxType) : Name := '.' :: mkStrAuxtype auxtype ++ ['.']

/-- `mk_name_aux_fld`. -/
def mkNameAuxFld (fld : Name) (auxtype : AuxType) : Option Name :=
  if chkFldName fld = false then none
  else if auxtype = .undefAuxtype then none
  else if maxLenName < fld.length + (2 + (mkStrAuxtype auxtype).length) then none
  else some (auxPrefix auxtype ++ fld)

/-! ### Lookups -/

/-- `is_tbl`: the first slot with this name. -/
def isTbl (s : Store) (tbl : Name) : Option Nat := s.tbls.findIdx? fun r => r.name = tbl

/-- `is_fld` for a table given by its slot. -/
def isFld (s : Store) (tblId : Int) (fld : Name) : Option Nat :=
  s.flds.findIdx? fun r => r.tblId = tblId ∧ r.name = fld

/-- Scan from a start position to the end and then from the beginning. -/
def findFrom {α : Type} (p : α → Bool) (xs : List α) (start : Nat) : Option Nat :=
  match (xs.drop start).findIdx? p with
  | some i => some (start + i)
  | none => (xs.take start).findIdx? p

/-- `get_empty_tbl`. -/
def getEmptyTbl (env : Env) (s : Store) (tbl : Name) : Option Nat :=
  if tbl = [] then none
  else findFrom (fun r => r.name = []) s.tbls (env.hash tbl % s.tbls.length)

/-- `get_empty_fld`. -/
def getEmptyFld (env : Env) (s : Store) (fld : Name) : Option Nat :=
  if fld = [] then none
  else findFrom (fun r => r.name = []) s.flds (env.hash fld % s.flds.length)

/-! ### Data files -/

/-- `switch_dirs` succeeds. -/
def Env.canEnter (env : Env) (ddirId : Int) : Bool :=
  0 ≤ ddirId ∧ env.ddirs.getD ddirId.toNat false

/-- `q_mmap` and `get_data`: the file, if it is there and not empty. -/
def qMmap (env : Env) (s : Store) (ddirId fileno : Int) : Option DataFile :=
  if env.canEnter ddirId ∧ 0 ≤ fileno then
    (s.disk ddirId fileno).filter fun f => f.size ≠ 0
  else none

/-- Write or remove a data file. -/
def Store.setFile (ddirId fileno : Int) (f : Option DataFile) (s : Store) : Store :=
  { s with disk := fun d n => if d = ddirId ∧ n = fileno then f else s.disk d n }

/-- `q_delete`. -/
def qDelete (env : Env) (ddirId fileno : Int) : Cmd Store Unit := do
  Cmd.require (env.canEnter ddirId)
  Cmd.require (0 ≤ fileno)
  Cmd.modify (Store.setFile ddirId fileno none)

@[simp] lemma Store.setFile_tbls (s : Store) (d n : Int) (f : Option DataFile) :
    (s.setFile d n f).tbls = s.tbls := rfl

@[simp] lemma Store.setFile_flds (s : Store) (d n : Int) (f : Option DataFile) :
    (s.setFile d n f).flds = s.flds := rfl

@[simp] lemma Store.setFile_info (s : Store) (d n : Int) (f : Option DataFile) :
    (s.setFile d n f).info = s.info := rfl

@[simp] lemma Store.fld_setFile (s : Store) (d n : Int) (f : Option DataFile) (i : Nat) :
    (s.setFile d n f).fld i = s.fld i := rfl

/-- Deleting a file changes no record, whether it succeeds or not. -/
lemma qDelete_state (env : Env) (d n : Int) (s : Store) :
    (qDelete env d n s).2 = s ∨ (qDelete env d n s).2 = s.setFile d n none := by
  unfold qDelete
  rw [Cmd.require_bind]
  by_cases hd : env.canEnter d = true
  · rw [if_pos hd, Cmd.require_bind]
    by_cases hn : 0 ≤ n
    · rw [if_pos hn]
      exact .inr rfl
    · rw [if_neg hn]
      exact .inl rfl
  · rw [if_neg hd]
    exact .inl rfl

/-- The two stores differ in their data files only. -/
structure SameRecs (s s' : Store) : Prop where
  tbls : s'.tbls = s.tbls
  flds : s'.flds = s.flds
  info : s'.info = s.info

lemma SameRecs.refl (s : Store) : SameRecs s s := ⟨rfl, rfl, rfl⟩

lemma SameRecs.fld {s s' : Store} (h : SameRecs s s') (i : Nat) : s'.fld i = s.fld i := by
  rw [Store.fld, h.flds, Store.fld]

lemma SameRecs.setFile (s : Store) (d n : Int) (f : Option DataFile) :
    SameRecs s (s.setFile d n f) := ⟨rfl, rfl, rfl⟩

lemma qDelete_sameRecs (env : Env) (d n : Int) (s : Store) : SameRecs s (qDelete env d n s).2 := by
  rcases qDelete_state env d n s with h | h
  · rw [h]
    exact SameRecs.refl s
  · rw [h]
    exact SameRecs.setFile s d n none

lemma when_qDelete_sameRecs (p : Prop) [Decidable p] (env : Env) (d n : Int) (s : Store) :
    SameRecs s (Cmd.when p (qDelete env d n) s).2 := by
  by_cases h : p
  · rw [Cmd.when_pos h]
    exact qDelete_sameRecs env d n s
  · rw [Cmd.when_neg h]
    exact SameRecs.refl s

/-- What a deletion leaves alone: the tables, the number of field slots, the file counter, and the
files it does not remove. -/
structure Frame (s s' : Store) : Prop where
  tbls : s'.tbls = s.tbls
  length : s'.flds.length = s.flds.length
  nextFileno : s'.nextFileno = s.nextFileno
  disk : ∀ d n, s'.disk d n = none ∨ s'.disk d n = s.disk d n

lemma Frame.refl (s : Store) : Frame s s := ⟨rfl, rfl, rfl, fun _ _ => .inr rfl⟩

lemma Frame.trans {s s₁ s' : Store} (h : Frame s s₁) (h' : Frame s₁ s') : Frame s s' := by
  refine ⟨h'.tbls.trans h.tbls, h'.length.trans h.length, h'.nextFileno.trans h.nextFileno, ?_⟩
  intro d n
  rcases h'.disk d n with hnone | hsame
  · exact .inl hnone
  · rw [hsame]
    exact h.disk d n

lemma Frame.setFld (s : Store) (i : Nat) (r : FldRec) : Frame s (s.setFld i r) :=
  ⟨rfl, Store.length_setFld s i r, rfl, fun _ _ => .inr rfl⟩

lemma Frame.setFile_none (s : Store) (d n : Int) : Frame s (s.setFile d n none) := by
  refine ⟨rfl, rfl, rfl, fun d' n' => ?_⟩
  by_cases h : d' = d ∧ n' = n
  · exact .inl (if_pos h)
  · exact .inr (if_neg h)

lemma qDelete_frame (env : Env) (d n : Int) (s : Store) : Frame s (qDelete env d n s).2 := by
  rcases qDelete_state env d n s with h | h
  · rw [h]
    exact Frame.refl s
  · rw [h]
    exact Frame.setFile_none s d n

lemma when_qDelete_frame (p : Prop) [Decidable p] (env : Env) (d n : Int) (s : Store) :
    Frame s (Cmd.when p (qDelete env d n) s).2 := by
  by_cases h : p
  · rw [Cmd.when_pos h]
    exact qDelete_frame env d n s
  · rw [Cmd.when_neg h]
    exact Frame.refl s

lemma qDelete_eq_some {env : Env} {d n : Int} {s s' : Store}
    (h : qDelete env d n s = (some (), s')) : s' = s.setFile d n none := by
  obtain ⟨-, h⟩ := Cmd.require_bind_eq_some.mp h
  obtain ⟨-, h⟩ := Cmd.require_bind_eq_some.mp h
  exact Cmd.modify_eq_some.mp h

/-- `mk_temp_file`, with the cells that are then written to the file. -/
def mkTempFile (env : Env) (f : DataFile) : Cmd Store (Int × Int) := do
  Cmd.require (f.size ≠ 0)
  let ddirId ← Cmd.ofOption (env.tempDir f.size)
  Cmd.require (env.canEnter ddirId)
  let s ← Cmd.get
  Cmd.modify fun s => { s with nextFileno := s.nextFileno + 1 }
  Cmd.require (0 ≤ s.nextFileno)
  Cmd.modify (Store.setFile ddirId s.nextFileno (some f))
  pure (ddirId, s.nextFileno)

/-- `get_fld_sz`; `none` where the source fails. -/
def getFldSz : FldType → Option Int
  | .I1 => some 1
  | .I2 => some 2
  | .I4 => some 4
  | .I8 => some 8
  | .F4 => some 4
  | .F8 => some 8
  | .SC => some (-1)
  | .SV => some (-1)
  | .B => none
  | .undefFldtype => none

/-- `get_file_size_B`. -/
def getFileSizeB (nR : Int) : Int :=
  let nbytes := (nR + 7) / 8
  (nbytes + 1023) / 1024 * 1024

/-- `chk_file_size`: the size of the file, if it fits the type and the number of rows. -/
def chkFileSize (env : Env) (s : Store) (nR : Int) (rec : FldRec) : Option Nat :=
  if nR ≤ 0 then none
  else
    match qMmap env s rec.ddirId rec.fileno with
    | none => none
    | some f =>
      let fits : Bool :=
        match rec.fldtype with
        | .SV => true
        | .SC => 1 < rec.len ∧ (rec.len + 1) * nR = f.size
        | .B => getFileSizeB nR = f.size
        | .undefFldtype => false
        | t => (getFldSz t).any fun fldsz => fldsz * nR = f.size
      if fits then some f.size else none

end Datacl
