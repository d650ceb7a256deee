import Datacl.Csv.ReadCsv
import Datacl.Dict.MkDict
import Datacl.Lib.Bytes
import Mathlib.Data.List.Sort

/-!
# Writing a dictionary out and looking strings up in it

The four files are modelled byte by byte, because `get_from_dict` reads lengths and offsets with
another width than `dump_ht` writes them. A file is mapped in whole pages; what lies between its
end and the end of its last page reads as 0.
-/

namespace Datacl

/-- The contents of `chrfile`, `keyfile`, `lenfile` and `offfile`. -/
structure DictFiles where
  chr : List UInt8
  key : List UInt8
  len : List UInt8
  off : List UInt8
  deriving DecidableEq

/-- The bytes of the string of an occupied slot. -/
def HtRec.bytes (rec : HtRec) : List UInt8 := rec.strkey.elim [] Subtype.val

/-- `hop_sort_compare` orders by the hash value as a signed number. -/
def hopLe (a b : HtRec) : Prop := a.key.toInt ≤ b.key.toInt

instance : DecidableRel hopLe := fun a b => inferInstanceAs (Decidable (a.key.toInt ≤ b.key.toInt))

/-- The occupied slots in the order in which they are written. -/
def hops (d : Dict) : List HtRec :=
  ((d.ht.filter (fun rec => decide (0 < rec.cnt))).insertionSort hopLe).take d.nHt

/-- The loop of `dump_ht` that writes the files. -/
def dumpLoop : List HtRec → Nat → Option DictFiles
  | [], _ => some ⟨[], [], [], []⟩
  | rec :: recs, offset =>
    if maxLenStr ≤ rec.bytes.length then none
    else (dumpLoop recs (offset + (rec.bytes.length + 1))).map fun files =>
      ⟨rec.bytes ++ 0 :: files.chr, Bytes.put 8 rec.key.toNat ++ files.key,
        Bytes.put 2 rec.bytes.length ++ files.len, Bytes.put 8 offset ++ files.off⟩

def dumpHt (d : Dict) : Option DictFiles := dumpLoop (hops d) 0

/-! ### `get_from_dict` -/

/-- The loop of `bin_search_I8`. -/
def binSearchLoop (X : List Int) (key : Int) : Nat → Int → Int → Int
  | 0, _, _ => -1
  | fuel + 1, lb, ub =>
    if lb ≤ ub then
      let mid := (lb + ub) / 2
      if X.getD mid.toNat 0 = key then mid
      else if key < X.getD mid.toNat 0 then binSearchLoop X key fuel lb (min (ub - 1) mid)
      else binSearchLoop X key fuel (max (lb + 1) mid) ub
    else -1

/-- `bin_search_I8` with direction "dontcare", on at least one element. -/
def binSearchI8 (X : List Int) (key : Int) : Int :=
  if X.length = 1 then if X.getD 0 0 = key then 0 else -1
  else binSearchLoop X key X.length 0 (X.length - 1)

/-- A file of `n` bytes mapped into memory. -/
def mapped (file : List UInt8) : List UInt8 :=
  file ++ List.replicate ((4096 - file.length % 4096) % 4096) 0

/-- Element `i` of a mapped file seen as an array of signed numbers of `w` bytes; `none` lies
outside the mapping. -/
def readAt (w : Nat) (file : List UInt8) (i : Nat) : Option Int :=
  if w * i + w ≤ (mapped file).length then
    some (Bytes.getSigned w (((mapped file).drop (w * i)).take w))
  else none

/-- `strncmp(inval, cptr, len) == 0`; `none` when it leaves the mapping. -/
def strncmpEq : List UInt8 → List UInt8 → Option Bool
  | [], _ => some true
  | _ :: _, [] => none
  | b :: bs, c :: cs => if b = c then strncmpEq bs cs else some false

def keysOf (files : DictFiles) (nKeys : Nat) : List Int :=
  (List.range nKeys).map fun i => (readAt 8 files.key i).getD 0

/-- What one round of the loop over the seeds does once the key is found at `pos`. -/
def compareAt (files : DictFiles) (inval : CString) (pos : Nat) : Option Bool :=
  match readAt 4 files.len pos with
  | none => none
  | some len =>
    if len ≠ inval.val.length then some false
    else
      match readAt 4 files.off pos with
      | none => none
      | some off => if off < 0 then none else strncmpEq inval.val ((mapped files.chr).drop off.toNat)

/-- The loop over the seeds: `*ptr_idx`, or `none` for a read outside the mapped files. -/
def lookupLoop (hash : Nat → CString → BitVec 64) (files : DictFiles) (nKeys : Nat)
    (inval : CString) : List Nat → Option Int
  | [] => some (-1)
  | t :: seeds =>
    let pos := binSearchI8 (keysOf files nKeys) (hash t inval).toInt
    if pos < 0 then some (-1)
    else
      match compareAt files inval pos.toNat with
      | none => none
      | some true => some pos
      | some false => lookupLoop hash files nKeys inval seeds

/-- `get_from_dict`; the empty string is refused. -/
def getFromDict (hash : Nat → CString → BitVec 64) (files : DictFiles) (nKeys : Nat)
    (inval : CString) : Option Int :=
  if inval.val = [] then none
  else lookupLoop hash files nKeys inval (List.range numSeeds)

/-- `dump_ht` followed by `get_from_dict` as `read_csv` and `print_cell` call it: `get_data` does
not take an empty file, and `n_keys` is the number of rows of the dictionary. -/
def lookupDumped (H : Hashing) (d : Dict) (inval : CString) : Option Int :=
  match dumpHt d with
  | none => none
  | some files =>
    if files.chr = [] ∨ files.key = [] ∨ files.len = [] ∨ files.off = [] then none
    else getFromDict H.hash files d.nHt inval

/-- The string that index `idx` of the dictionary stands for. -/
def dictText (d : Dict) (idx : Nat) : Option CString := (hops d)[idx]?.bind HtRec.strkey

end Datacl
