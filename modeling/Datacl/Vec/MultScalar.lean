import Datacl.Vec.Partition
import Mathlib.Data.List.Sort

/-!
# Comparing a column with several scalars

`break_into_scalars` prepares the scalars, with a hash table when there are many of them, and
`vec_f1s1opf2` compares every row with `==` or `!=`. Scalars are numbers here: the text with colons
between them is not part of the model, and neither are null columns.
-/

namespace Datacl

/-! ### Hash tables -/

/-- `is_prime`; `j < (int)sqrt(n)` is `(j + 1) * (j + 1) ≤ n`. -/
def isPrime (n : Nat) : Bool :=
  if n = 0 then false
  else if n = 1 ∨ n = 2 ∨ n = 3 then true
  else (List.range n).all fun j => decide (2 ≤ j ∧ (j + 1) * (j + 1) ≤ n → n % j ≠ 0)

/-- `prime_geq`, which begins after `n`. The loop has no end; twice `n` is far enough. -/
def primeGeq (n : Nat) : Option Nat := ((List.range (n + 1)).map (n + 1 + ·)).find? isPrime

/-- Where `mk_hashes` puts a scalar: 64 bits, and a `short` in the end. -/
def buildLoc (n : Nat) (a b : BitVec 32) (val : Int) : Nat :=
  (a.setWidth 64 * BitVec.ofInt 64 val + b.setWidth 64).toNat % n % 65536

/-- Where `opt_cmp_eq_mult_scalar` looks for a value: an `int` made 64 bits wide. -/
def probeLoc (n : Nat) (a b : BitVec 32) (inval : Int) : Nat :=
  ((BitVec.ofInt 32 inval * a + b).signExtend 64).toNat % n

/-- One round of the inner loop of `mk_hashes` on `used` and `hashes`; `none` is a collision. -/
def placeScalar (n : Nat) (a b : BitVec 32) (table : List Bool × List Int) (s : Int) :
    Option (List Bool × List Int) :=
  let loc := buildLoc n a b s
  if table.1.getD loc true then none else some (table.1.set loc true, table.2.set loc s)

structure HashTable where
  n : Nat
  a : BitVec 32
  b : BitVec 32
  hashes : List Int
  deriving DecidableEq

/-- `MAX_NUM_SCALARS` -/
def maxNumScalars : Nat := 128

/-- `OPT_NUM_SCALARS` -/
def optNumScalars : Nat := 8

/-- The body of the loop of `mk_hashes` for one choice of `a` and `b`. -/
def tryHashes (n : Nat) (scalars : List Int) (draw : BitVec 32 × BitVec 32) :
    Option ((BitVec 32 × BitVec 32) × List Bool × List Int) :=
  (scalars.foldlM (placeScalar n draw.1 draw.2) (List.replicate n false, List.replicate n 0)).map
    fun table => (draw, table)

/-- `mk_hashes`. The choices of `a` and `b`, which come from `mrand48`, are an argument; a list
without a good one stands for a loop that has not ended. -/
def mkHashes (scalars : List Int) (draws : List (BitVec 32 × BitVec 32)) : Option HashTable :=
  if scalars.length < 1 ∨ maxNumScalars < scalars.length then none
  else do
    let n ← primeGeq (scalars.length * scalars.length)
    if n ≤ 1 then none
    else do
      let (draw, used, hashes) ← draws.findSome? (tryHashes n scalars)
      if (used.zip hashes).any fun p => !p.1 && p.2 != 0 then none
      else if used.count true ≠ scalars.length then none
      else some ⟨n, draw.1, draw.2, hashes⟩

/-! ### Scalars -/

/-- The integer field types. -/
inductive IntType where
  | I1
  | I2
  | I4
  | I8
  deriving DecidableEq

def IntType.bits : IntType → Nat
  | .I1 => 8
  | .I2 => 16
  | .I4 => 32
  | .I8 => 64

def IntType.max (t : IntType) : Int := 2 ^ (t.bits - 1) - 1

def IntType.InRange (t : IntType) (v : Int) : Prop := -2 ^ (t.bits - 1) ≤ v ∧ v ≤ t.max

instance (t : IntType) (v : Int) : Decidable (t.InRange v) := inferInstanceAs (Decidable (_ ∧ _))

/-- What `break_into_scalars` returns in `num_scalars`, `sval`, `svals` and in `hashes`, `n`, `a`
and `b`. -/
structure Scalars where
  numScalars : Nat
  sval : Int
  svals : List Int
  table : HashTable

/-- `hashes`, `n`, `a` and `b` as long as `mk_hashes` has not been called. -/
def HashTable.empty : HashTable := ⟨0, 0, 0, []⟩

/-- `break_into_scalars` -/
def breakIntoScalars (t : IntType) (scalars : List Int) (draws : List (BitVec 32 × BitVec 32)) :
    Option Scalars :=
  if maxNumScalars < scalars.length then none
  else
    match scalars with
    | [s] => if t.InRange s then some ⟨1, s, [], .empty⟩ else none
    | scalars =>
      let svals := scalars.insertionSort (· ≤ ·)
      if (svals.zip svals.tail).any fun p => p.1 == p.2 then none
      else if ¬ ∀ s ∈ svals, t.InRange s then none
      else if svals.length ≤ optNumScalars then some ⟨svals.length, t.max, svals, .empty⟩
      else (mkHashes svals draws).map fun table => ⟨svals.length, t.max, svals, table⟩

/-! ### Comparisons of one row -/

/-- `dbg_cmp_eq_mult_scalar` -/
def dbgCmpEqMultScalar (svals : List Int) (inval : Int) : Int :=
  svals.foldl (fun out s => if inval = s then 1 else out) 0

/-- `dbg_cmp_neq_mult_scalar` -/
def dbgCmpNeqMultScalar (svals : List Int) (inval : Int) : Int :=
  svals.foldl (fun out s => if inval = s then 0 else out) 1

/-- `opt_cmp_eq_mult_scalar` -/
def optCmpEqMultScalar (table : HashTable) (inval : Int) : Int :=
  if table.hashes.getD (probeLoc table.n table.a table.b inval) 0 = inval then 1 else 0

/-- `cmp_eq_mult_scalar` -/
def cmpEqMultScalar (sc : Scalars) (inval : Int) : Int :=
  if sc.numScalars ≤ optNumScalars then dbgCmpEqMultScalar sc.svals inval
  else optCmpEqMultScalar sc.table inval

/-- `cmp_eq_scalar` -/
def cmpEqScalar (sval inval : Int) : Int := if inval = sval then 1 else 0

/-- `cmp_ne_scalar` -/
def cmpNeScalar (sval inval : Int) : Int := if inval ≠ sval then 1 else 0

/-- The operators `==` and `!=`. -/
inductive EqOp where
  | eq
  | ne
  deriving DecidableEq

/-- A row of `vec_f1s1opf2`. The branch of `I8` knows nothing of several scalars. -/
def cmpRow (t : IntType) (op : EqOp) (sc : Scalars) (inval : Int) : Int :=
  match t, op with
  | .I8, .eq => cmpEqScalar sc.sval inval
  | .I8, .ne => cmpNeScalar sc.sval inval
  | _, .eq => if sc.numScalars = 1 then cmpEqScalar sc.sval inval else cmpEqMultScalar sc inval
  | _, .ne =>
    if sc.numScalars = 1 then cmpNeScalar sc.sval inval else dbgCmpNeqMultScalar sc.svals inval

/-- `vec_f1s1opf2` with `==` or `!=` on an integer column. -/
def vecF1s1opf2 (t : IntType) (op : EqOp) (scalars : List Int)
    (draws : List (BitVec 32 × BitVec 32)) (col : List Int) : Option (List Int) := do
  let sc ← breakIntoScalars t scalars draws
  vecMap 8192 (cmpRow t op sc) col

end Datacl
