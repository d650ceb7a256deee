import Datacl.Lib.Probing

/-!
# Building a dictionary: `mk_dict.c`

MurmurHash3 with the table of seeds is a parameter, a family of hash functions indexed by the
position of the seed. What maps a hash value to its first slot is a parameter of the table too,
which `add_to_dict` takes to be `mix_I8`. `cnt` counts calls and is a natural number.
-/

namespace Datacl

/-- A C string: the bytes before the NUL. -/
def CString := {bytes : List UInt8 // ∀ b ∈ bytes, b ≠ 0}

instance : DecidableEq CString := inferInstanceAs (DecidableEq {_bytes : List UInt8 // _})

/-- `HT_REC_TYPE` -/
structure HtRec where
  strkey : Option CString
  key : BitVec 64
  cnt : Nat
  deriving DecidableEq

/-- The hash table with `n_ht`; `sz_ht` is its length. -/
structure Dict where
  ht : List HtRec
  nHt : Nat
  deriving DecidableEq

/-- `NUM_SEEDS` -/
def numSeeds : Nat := 64

def mixI4 (a : BitVec 32) : BitVec 32 :=
  let a := (a + 0x7ed55d16#32) + (a <<< 12)
  let a := (a ^^^ 0xc761c23c#32) ^^^ (a >>> 19)
  let a := (a + 0x165667b1#32) + (a <<< 5)
  let a := (a + 0xd3a2646c#32) ^^^ (a <<< 9)
  let a := (a + 0xfd7046c5#32) + (a <<< 3)
  (a ^^^ 0xb55a4f09#32) ^^^ (a >>> 16)

def mixI8 (a : BitVec 64) : BitVec 32 :=
  mixI4 ((a >>> 32).setWidth 32) ^^^ mixI4 (((a <<< 32) >>> 32).setWidth 32)

/-- The hash functions of a dictionary: one for each seed, and the one that gives `ht_loc`. -/
structure Hashing where
  hash : Nat → CString → BitVec 64
  mix : BitVec 64 → BitVec 32

/-- `setup_ht_dict`, for a table of `szHt` slots. -/
def setupHtDict (szHt : Nat) : Dict := ⟨List.replicate szHt ⟨none, 0, 0⟩, 0⟩

/-! ### `add_to_dict` -/

/-- Why the search through the table ends. -/
inductive Stop where
  | keyExists
  | pickNewHash
  | unoccupied
  deriving DecidableEq

/-- The body of the two search loops. -/
def stopAt (ulhash : BitVec 64) (inval : CString) (rec : HtRec) : Option Stop :=
  if rec.key = ulhash then
    if rec.strkey = some inval then some .keyExists else some .pickNewHash
  else if rec.cnt = 0 then some .unoccupied
  else none

/-- The loop from `ht_loc` to the end and, unless it stops, the loop from the start. -/
def probe (H : Hashing) (ht : List HtRec) (ulhash : BitVec 64) (inval : CString) :
    Option (Nat × Stop) :=
  let htLoc := (H.mix ulhash).toNat % ht.length
  (Probing.scan (stopAt ulhash inval) ht (List.range' htLoc (ht.length - htLoc))).or
    (Probing.scan (stopAt ulhash inval) ht (List.range htLoc))

/-- One round of the loop over the seeds: `pos_ht`, `key_exists` and `ulhash` if it breaks. -/
def trySeed (H : Hashing) (ht : List HtRec) (inval : CString) (t : Nat) :
    Option (Nat × Bool × BitVec 64) :=
  match probe H ht (H.hash t inval) inval with
  | some (i, .keyExists) => some (i, true, H.hash t inval)
  | some (i, .unoccupied) => some (i, false, H.hash t inval)
  | some (_, .pickNewHash) => none
  | none => none

def chooseSlot (H : Hashing) (ht : List HtRec) (inval : CString) :
    Option (Nat × Bool × BitVec 64) :=
  (List.range numSeeds).findSome? (trySeed H ht inval)

/-- The last check and the assignments to `*ptr_n_ht` and `*ptr_outval`. -/
def closeAdd (d : Dict) (ht : List HtRec) (nHt : Nat) (ulhash : BitVec 64) :
    Dict × Option (BitVec 64) :=
  if ht.length / 2 < nHt then (⟨ht, d.nHt⟩, none) else (⟨ht, nHt⟩, some ulhash)

/-- `add_to_dict`: the table after the call, and `*ptr_outval` unless it is an error. -/
def addToDict (H : Hashing) (d : Dict) (inval : CString) : Dict × Option (BitVec 64) :=
  match chooseSlot H d.ht inval with
  | none => (d, none)
  | some (pos, keyExists, ulhash) =>
    match d.ht[pos]? with
    | none => (d, none)
    | some rec =>
      if keyExists then
        if rec.key ≠ ulhash ∨ pos = 1 then (d, none)
        else if rec.cnt = 0 then
          closeAdd d (d.ht.set pos ⟨some inval, ulhash, 2⟩) (d.nHt + 1) ulhash
        else closeAdd d (d.ht.set pos { rec with cnt := rec.cnt + 1 }) d.nHt ulhash
      else closeAdd d (d.ht.set pos ⟨some inval, ulhash, 1⟩) (d.nHt + 1) ulhash

/-- A sequence of calls that all return 0, with the keys they return. -/
def addAll (H : Hashing) : Dict → List CString → Option (Dict × List (BitVec 64))
  | d, [] => some (d, [])
  | d, s :: ss =>
    match addToDict H d s with
    | (_, none) => none
    | (d', some key) => (addAll H d' ss).map fun r => (r.1, key :: r.2)

end Datacl
