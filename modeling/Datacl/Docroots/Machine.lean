import Datacl.Docroots.Columns
import Datacl.Lib.Interleaving
import Mathlib.Data.List.DropRight

/-!
# Docroots

A docroot is a directory with the files of the metadata. Every call of the program opens one of them
and works on its tables and fields; the data files lie in the data directories that the docroot lists.
The first two are its own. A docroot that is made from another one lists the directories of that one
as well, and marks the fields it takes over as external.
-/

namespace Datacl

/-! ### Data directories -/

/-- `DDIR_REC_TYPE`. -/
structure DdirRec where
  name : Name
  isWritable : Bool
  isRam : Bool
  deriving DecidableEq, Repr

/-- A record of a new file. -/
def newDdirRec : DdirRec := ⟨[], false, false⟩

/-- `zero_ddir_rec`. -/
def zeroDdirRec (r : DdirRec) : DdirRec := { r with isWritable := false, name := [] }

/-- `MAX_LEN_DIR_NAME`. -/
def maxLenDirName : Nat := 511

/-- `is_absolute_path`. -/
def isAbsolutePath (x : Name) : Bool := x.head? = some '/' ∧ '.' ∉ x

/-- `strip_trailing_slash`. -/
def stripTrailingSlash (x : Name) (outLen : Nat) : Option Name :=
  if outLen ≤ x.length then none
  else if x.rdropWhile (· = '/') = [] then none
  else some (x.rdropWhile (· = '/'))

/-- The name that `init_ddirs` enters for a directory. -/
def ddirName (x : Name) : Option Name :=
  if isAbsolutePath x = true ∧ x.length < maxLenDirName then stripTrailingSlash x (maxLenDirName + 1)
  else none

/-- `init_ddirs`. -/
def initDdirs (dskDataDir ramDataDir : Name) (ddirs : List DdirRec) : Option (List DdirRec) := do
  let dsk ← ddirName dskDataDir
  let ddirs := ddirs.set 0 ⟨dsk, true, false⟩
  if ramDataDir = [] then some ddirs
  else if ramDataDir = dskDataDir then none
  else do
    let ram ← ddirName ramDataDir
    some (ddirs.set 1 ⟨ram, true, true⟩)

/-! ### Docroots -/

/-- What the files of a docroot hold. -/
structure Docroot where
  tbls : List TblRec
  flds : List FldRec
  info : List FldInfo
  nextFileno : Int
  ddirs : List DdirRec

/-- The data files by directory and number. -/
abbrev Files := Name → Int → Option DataFile

/-- What the machine answers during a call: the hash function of names, whether a directory can be
entered, the free space in it, and whether memory is to be used. -/
structure World where
  hash : Name → Nat
  canEnter : Name → Bool
  freeSpace : Name → Nat
  useRamDir : Bool

namespace Docroot

variable (r : Docroot)

def ddir (d : Int) : DdirRec := if 0 ≤ d then r.ddirs.getD d.toNat newDdirRec else newDdirRec

/-- The name of a data directory, empty if there is none. -/
def name (d : Int) : Name := (r.ddir d).name

/-- The directories that new files go to. -/
def OwnDir (d : Int) : Prop := (d = 0 ∨ d = 1) ∧ r.name d ≠ []

instance (d : Int) : Decidable (r.OwnDir d) := inferInstanceAs (Decidable (_ ∧ _))

/-- A file and one more gigabyte have room. -/
def fits (w : World) (d : Int) (filesz : Nat) : Bool :=
  r.name d ≠ [] ∧ filesz + 1024 * 1048576 ≤ w.freeSpace (r.name d)

/-- `g_ram_ddir_id` is not negative. -/
def hasRamDir : Bool := r.name 1 ≠ [] && ((r.ddir 1).isWritable && (r.ddir 1).isRam)

/-- The directory that `mk_temp_file` chooses. -/
def tempDir (w : World) (filesz : Nat) : Option Nat :=
  let d : Nat := if r.hasRamDir && w.useRamDir && r.fits w 0 filesz then 1 else 0
  if r.fits w d filesz = true then some d else none

def env (w : World) : Env where
  hash := w.hash
  ddirs := r.ddirs.map fun x => x.name ≠ [] && w.canEnter x.name
  tempDir := r.tempDir w

/-- The docroot as it is opened by a call. -/
def store (files : Files) : Store where
  tbls := r.tbls
  flds := r.flds
  info := r.info
  nextFileno := r.nextFileno
  disk d n := if r.name d = [] then none else files (r.name d) n

/-- The records that a call leaves. -/
def withRecs (s : Store) : Docroot :=
  { r with tbls := s.tbls, flds := s.flds, info := s.info, nextFileno := s.nextFileno }

/-- The data files once a call has changed some of them. -/
def writeBack (s s' : Store) (files : Files) : Files := fun p n =>
  match (List.range r.ddirs.length).find? fun d : Nat => r.name d = p ∧ s'.disk d n ≠ s.disk d n with
  | some d => s'.disk d n
  | none => files p n

end Docroot

/-- `MAX_NUM_TBLS`, `MAX_NUM_FLDS`, `G_FLD_INFO_SIZE` and `MAX_NUM_DDIRS`. -/
structure Sizes where
  nTbl : Nat
  nFld : Nat
  nFldInfo : Nat
  nDdir : Nat

/-- `init_meta_data`. -/
def initMetaData (sz : Sizes) (dskDataDir ramDataDir : Name) : Option Docroot := do
  let ddirs ← initDdirs dskDataDir ramDataDir (List.replicate sz.nDdir newDdirRec)
  some
    { tbls := List.replicate sz.nTbl zeroTblRec
      flds := List.replicate sz.nFld zeroFldRec
      info := List.replicate sz.nFldInfo zeroFldInfoRec
      nextFileno := 1
      ddirs := ddirs }

/-! ### `bootstrap` -/

/-- The record of a field in the new docroot. -/
def inherit (r : FldRec) : FldRec :=
  { r with
    isExternal := r.isExternal || 0 < r.fileno
    ddirId := if 0 ≤ r.tblId then r.ddirId + 2 else r.ddirId }

/-- There is room for two more directories, and there are no gaps between them. -/
def roomForDdirs (ddirs : List DdirRec) : Bool :=
  let numDdirs := ddirs.countP fun r => r.name ≠ []
  (1 ≤ numDdirs && numDdirs + 2 ≤ ddirs.length) &&
    (List.range ddirs.length).all fun i =>
      i = 0 || (ddirs.getD i newDdirRec).name = [] || (ddirs.getD (i - 1) newDdirRec).name ≠ []

/-- The loop that moves the directories on, from the first to the last. -/
def shiftDdirs (ddirs : List DdirRec) : List DdirRec :=
  (List.range' 2 (ddirs.length - 2)).foldl (fun ds i => ds.set i (ds.getD (i - 2) newDdirRec)) ddirs

/-- `bootstrap_meta_data`, for the docroot that is copied. -/
def bootstrapMetaData (r : Docroot) (dskDataDir ramDataDir : Name) : Option Docroot := do
  if roomForDdirs r.ddirs = false then none
  else do
    let ddirs := shiftDdirs r.ddirs
    let ddirs := ddirs.set 0 (zeroDdirRec (ddirs.getD 0 newDdirRec))
    let ddirs := ddirs.set 1 (zeroDdirRec (ddirs.getD 1 newDdirRec))
    let ddirs ← initDdirs dskDataDir ramDataDir ddirs
    some { r with flds := r.flds.map inherit, ddirs := ddirs }

/-! ### Several docroots -/

/-- The docroots that have been made, and the data files they share. -/
structure Machine where
  files : Files
  docroots : List Docroot

/-- A docroot is made, made from another one, or opened by a call. -/
inductive MachineCall where
  | init (dskDataDir ramDataDir : Name)
  | bootstrap (bsDocroot : Nat) (dskDataDir ramDataDir : Name)
  | call (docroot : Nat) (w : World) (op : DocrootOp)

namespace Machine

/-- Add a docroot, if there is one. -/
def add (m : Machine) : Option Docroot → Machine
  | none => m
  | some r => { m with docroots := m.docroots ++ [r] }

/-- A call in a docroot, whether it succeeds or not. -/
def call (b : Backend) (m : Machine) (j : Nat) (w : World) (op : DocrootOp) (r : Docroot) : Machine :=
  let s := r.store m.files
  let s' := (op.exec b (r.env w) s).2
  { files := r.writeBack s s' m.files, docroots := m.docroots.set j (r.withRecs s') }

def step (sz : Sizes) (b : Backend) (m : Machine) : MachineCall → Machine
  | .init dsk ram => m.add (initMetaData sz dsk ram)
  | .bootstrap j dsk ram => m.add (m.docroots[j]?.bind fun r => bootstrapMetaData r dsk ram)
  | .call j w op => (m.docroots[j]?.map (m.call b j w op)).getD m

/-- The directories of the new docroot are two different ones that no docroot lists. -/
def Fresh (m : Machine) (r : Docroot) : Prop :=
  r.name 0 ≠ r.name 1 ∧
    ∀ q ∈ m.docroots, ∀ x ∈ q.ddirs, x.name ≠ [] → x.name ≠ r.name 0 ∧ x.name ≠ r.name 1

instance (m : Machine) (r : Docroot) : Decidable (m.Fresh r) := inferInstanceAs (Decidable (_ ∧ _))

/-- The condition on a step. -/
def Careful (sz : Sizes) (m : Machine) : MachineCall → Prop
  | .init dsk ram => ∀ r ∈ initMetaData sz dsk ram, m.Fresh r
  | .bootstrap j dsk ram => ∀ q ∈ m.docroots[j]?, ∀ r ∈ bootstrapMetaData q dsk ram, m.Fresh r
  | .call j _ op => ∀ r ∈ m.docroots[j]?, op.Respects (r.store m.files)

instance (sz : Sizes) (m : Machine) : (x : MachineCall) → Decidable (m.Careful sz x)
  | .init dsk ram => inferInstanceAs (Decidable (∀ r ∈ initMetaData sz dsk ram, m.Fresh r))
  | .bootstrap j dsk ram =>
    inferInstanceAs (Decidable (∀ q ∈ m.docroots[j]?, ∀ r ∈ bootstrapMetaData q dsk ram, m.Fresh r))
  | .call j _ op => inferInstanceAs (Decidable (∀ r ∈ m.docroots[j]?, op.Respects (r.store m.files)))

end Machine

end Datacl
