import Datacl.Vec.Reduce
import Datacl.Vec.UnaryOps

/-!
# Operations on two columns, and on a column and scalars

`vec_f1f2opf3` and `vec_f1s1opf2` with their operators on integer columns. An integer overflow
wraps. Where the processor stops the program or the language leaves the value open (a division by 0,
a quotient that does not fit, a shift by a count outside of the type) there is no result.
-/

namespace Datacl

/-! ### Operators -/

/-- The operators `+`, `-`, `*`, `/`, `%`, `&`, `|`, `^`, `<<`, `>>`, `<=`, `>=`, `==`, `!=`, `<`,
`>`, `<||>`, `<=||>=`, `>&&<`, `>=&&<=`, `&&`, `&&!`, `||` and `concat`. -/
inductive FldOp where
  | add | sub | mul | div | rem
  | band | bor | bxor
  | shl | shr
  | le | ge | eq | ne | lt | gt
  | ltOrGt | leOrGe | gtAndLt | geAndLe
  | land | landNot | lor
  | concat
  deriving DecidableEq

inductive OpKind where
  | arith | bits | shift | cmp | range | logic | concat
  deriving DecidableEq

def FldOp.kind : FldOp → OpKind
  | .add | .sub | .mul | .div | .rem => .arith
  | .band | .bor | .bxor => .bits
  | .shl | .shr => .shift
  | .le | .ge | .eq | .ne | .lt | .gt => .cmp
  | .ltOrGt | .leOrGe | .gtAndLt | .geAndLe => .range
  | .land | .landNot | .lor => .logic
  | .concat => .concat

/-- `get_type_op_fld` for `f1f2opf3`. -/
def FldOp.pairType (op : FldOp) (t1 t2 : IntType) : Option IntType :=
  match op.kind with
  | .concat => some .I8
  | .arith | .bits | .shift => if t1 = t2 then some t1 else none
  | .cmp | .range => if t1 = t2 then some .I1 else none
  | .logic => if t1 = .I1 ∧ t2 = .I1 then some .I1 else none

/-- `get_type_op_fld` for `f1s1opf2`. -/
def FldOp.scalarType (op : FldOp) (t : IntType) : Option IntType :=
  if op.kind = .concat then none else op.pairType t t

/-- The operators that `vec_f1f2opf3` has for a type. -/
def FldOp.acceptsPair (op : FldOp) : IntType → Bool
  | .I1 => op.kind = .logic ∨ op = .eq ∨ op = .ne
  | .I2 => op.kind = .arith ∨ op.kind = .cmp
  | .I4 => op.kind ≠ .range ∧ op.kind ≠ .logic
  | .I8 => op.kind ≠ .range ∧ op.kind ≠ .logic ∧ op.kind ≠ .concat

/-- The operators that `vec_f1s1opf2` has for a type and a number of scalars. -/
def FldOp.acceptsScalar (op : FldOp) (t : IntType) (numScalars : Nat) : Bool :=
  match op.kind with
  | .arith | .cmp => true
  | .bits => t ≠ .I2
  | .shift => t = .I4 ∨ t = .I8
  | .range => t ≠ .I8 ∧ numScalars = 2
  | .logic | .concat => false

/-- An operator as a statement has it: by itself or as `op=[..]`. -/
structure OpSpec (ω : Type) where
  op : ω
  bracketed : Bool

/-! ### Rows -/

/-- A comparison stored in a `char`. -/
def cmpFlag (p : Bool) : Int := if p then 1 else 0

/-- `/` and `%`. The operands of `char` and `short` are made `int`s, for which every quotient fits. -/
def divRow (t : IntType) (f : Int → Int → Int) (a b : Int) : Option Int :=
  if b = 0 then none
  else if (t = .I4 ∨ t = .I8) ∧ a = -2 ^ (t.bits - 1) ∧ b = -1 then none
  else some (CInt.wrap t.bits (f a b))

/-- An operation on the bits of two cells. -/
def bitRow (t : IntType) (f : {w : Nat} → BitVec w → BitVec w → BitVec w) (a b : Int) : Int :=
  (f (BitVec.ofInt t.bits a) (BitVec.ofInt t.bits b)).toInt

def shiftRow (t : IntType) (f : Nat → Int) (b : Int) : Option Int :=
  if 0 ≤ b ∧ b < t.bits then some (CInt.wrap t.bits (f b.toNat)) else none

/-- The operators on two cells of a type. `>>` shifts the bits of an unsigned number. -/
def FldOp.row (t : IntType) (op : FldOp) (a b : Int) : Option Int :=
  match op with
  | .add => some (CInt.wrap t.bits (a + b))
  | .sub => some (CInt.wrap t.bits (a - b))
  | .mul => some (CInt.wrap t.bits (a * b))
  | .div => divRow t Int.tdiv a b
  | .rem => divRow t Int.tmod a b
  | .band => some (bitRow t (· &&& ·) a b)
  | .bor => some (bitRow t (· ||| ·) a b)
  | .bxor => some (bitRow t (· ^^^ ·) a b)
  | .shl => shiftRow t (fun k => a * 2 ^ k) b
  | .shr => shiftRow t (fun k => (BitVec.ofInt t.bits a).toNat / 2 ^ k) b
  | .le => some (cmpFlag (a ≤ b))
  | .ge => some (cmpFlag (b ≤ a))
  | .eq => some (cmpFlag (a = b))
  | .ne => some (cmpFlag (a ≠ b))
  | .lt => some (cmpFlag (a < b))
  | .gt => some (cmpFlag (b < a))
  | .land => some (cmpFlag (a ≠ 0 ∧ b ≠ 0))
  | .landNot => some (bitRow t (fun x y => x &&& ~~~y) a b)
  | .lor => some (cmpFlag (a ≠ 0 ∨ b ≠ 0))
  | .concat => some (BitVec.ofInt 32 a ++ BitVec.ofInt 32 b).toInt
  | .ltOrGt | .leOrGe | .gtAndLt | .geAndLe => none

/-- The operators on a cell and the scalars. The function for `>&&<` is generated with `>=` as the
second comparison. -/
def FldOp.scalarRow (t : IntType) (sc : Scalars) (op : FldOp) (a : Int) : Option Int :=
  let s1 := sc.svals.getD 0 0
  let s2 := sc.svals.getD 1 0
  match op with
  | .eq => some (cmpRow t .eq sc a)
  | .ne => some (cmpRow t .ne sc a)
  | .ltOrGt => some (cmpFlag (a < s1 ∨ s2 < a))
  | .leOrGe => some (cmpFlag (a ≤ s1 ∨ s2 ≤ a))
  | .gtAndLt => some (cmpFlag (s1 < a ∧ s2 ≤ a))
  | .geAndLe => some (cmpFlag (s1 ≤ a ∧ a ≤ s2))
  | op => op.row t a sc.sval

/-! ### Columns -/

/-- What a vector operation leaves: whether it succeeds, and what it has written to the null column
and to the column. -/
structure VecOut where
  ok : Bool
  nn : Option (List Int)
  cells : Option (List Int)

/-- A vector operation that can stop the program: the blocks it writes, in their order. -/
def vecRows {α : Type} (blockSize nT : Nat) (f : α → Option Int) (col : List α) :
    Option (List Int) :=
  ((List.range nT).mapM fun tid => (blockOf col blockSize nT tid).mapM f).map List.flatten

/-- `vec_f1s1opf2`, which takes an operator by itself. One that is not there for the type is found
out after the null column of the block has been copied. -/
def vecF1s1opf2Op (t : IntType) (scalars : List Int) (draws : List (BitVec 32 × BitVec 32))
    (op : OpSpec FldOp) (f1X : List Int) (nnF1X : Option (List Int)) : Option VecOut :=
  match breakIntoScalars t scalars draws, partition f1X.length 8192 (-1) with
  | some sc, some (blockSize, nT) =>
    let nn := nnF1X.map fun nn =>
      (List.range nT.toNat).flatMap (blockOf nn blockSize.toNat nT.toNat)
    if op.op.acceptsScalar t sc.numScalars ∧ ¬ op.bracketed then
      (vecRows blockSize.toNat nT.toNat (op.op.scalarRow t sc) f1X).map fun out => ⟨true, nn, some out⟩
    else some ⟨false, nn, none⟩
  | _, _ => some ⟨false, none, none⟩

/-- The null column of `vec_f1f2opf3`: `and2_I1` of two null columns, or a copy of one. -/
def pairNn (nnF1X nnF2X : Option (List Int)) : Option (List Int) :=
  match nnF1X, nnF2X with
  | none, none => none
  | some nn1, none => some nn1
  | none, some nn2 => some nn2
  | some nn1, some nn2 => some ((nn1.zip nn2).map fun p => cmpFlag (p.1 ≠ 0 ∧ p.2 ≠ 0))

/-- `vec_f1f2opf3`. -/
def vecF1f2opf3 (t1 t2 : IntType) (op : OpSpec FldOp) (f1X : List Int) (nnF1X : Option (List Int))
    (f2X : List Int) (nnF2X : Option (List Int)) : Option VecOut :=
  if t1 ≠ t2 then some ⟨false, none, none⟩
  else
    match partition f1X.length 4096 (-1) with
    | some (blockSize, nT) =>
      let inBlocks (nn : List Int) :=
        (List.range nT.toNat).flatMap (blockOf nn blockSize.toNat nT.toNat)
      let nn := (pairNn nnF1X nnF2X).map inBlocks
      if op.op.acceptsPair t1 ∧ ¬ op.bracketed then
        (vecRows blockSize.toNat nT.toNat (fun p => op.op.row t1 p.1 p.2) (f1X.zip f2X)).map
          fun out => ⟨true, nn, some out⟩
      else some ⟨false, nn, none⟩
    | none => some ⟨false, none, none⟩

/-! ### The columns are treated row by row -/

lemma mapM_append {α β : Type} (f : α → Option β) (xs ys : List α) :
    (xs ++ ys).mapM f = (xs.mapM f).bind fun a => (ys.mapM f).map (a ++ ·) := by
  induction xs with
  | nil => simp
  | cons x xs ih =>
    rw [List.cons_append, List.mapM_cons, List.mapM_cons, ih]
    cases f x with
    | none => rfl
    | some b =>
      cases xs.mapM f with
      | none => rfl
      | some bs => cases ys.mapM f <;> rfl

lemma mapM_flatMap {ι α β : Type} (f : α → Option β) (g : ι → List α) (l : List ι) :
    (l.flatMap g).mapM f = (l.mapM fun i => (g i).mapM f).map List.flatten := by
  induction l with
  | nil => simp
  | cons i l ih =>
    rw [List.flatMap_cons, mapM_append, ih, List.mapM_cons]
    cases (g i).mapM f with
    | none => rfl
    | some b => cases l.mapM fun i => (g i).mapM f <;> rfl

lemma vecRows_eq {α : Type} {col : List α} {nR minBlockSize maxNumChunks blockSize nT : Int}
    (hp : partition nR minBlockSize maxNumChunks = some (blockSize, nT)) (f : α → Option Int) :
    vecRows blockSize.toNat nT.toNat f col = col.mapM f := by
  obtain ⟨-, hn, -⟩ := partition_spec hp
  rw [vecRows, ← mapM_flatMap, flatMap_blockOf col blockSize.toNat (by omega)]

lemma map_flatMap_blockOf {nR minBlockSize maxNumChunks blockSize nT : Int}
    (hp : partition nR minBlockSize maxNumChunks = some (blockSize, nT)) (nn : Option (List Int)) :
    (nn.map fun nn => (List.range nT.toNat).flatMap (blockOf nn blockSize.toNat nT.toNat)) = nn := by
  obtain ⟨-, hn, -⟩ := partition_spec hp
  cases nn with
  | none => rfl
  | some nn => exact congrArg some (flatMap_blockOf nn blockSize.toNat (by omega))

/-- The blocks of a column that is not too long. -/
lemma exists_partition {f1X : List Int} (h0 : 0 < f1X.length) (hmax : f1X.length < 2 ^ 31)
    {minBlockSize : Int} (hmin : 2 ≤ minBlockSize) :
    ∃ p, partition f1X.length minBlockSize (-1) = some p := by
  apply Option.isSome_iff_exists.mp
  apply partition_isSome (by omega) (by omega)
  have hle := Int.mul_le_mul_of_nonneg_right hmin (show (0 : Int) ≤ 2 ^ 31 - 1 by decide)
  omega

section

variable {t : IntType} {op : OpSpec FldOp} {f1X : List Int}

/-- `vec_f1s1opf2` with an operator that it has. -/
lemma vecF1s1opf2Op_eq {scalars : List Int} {draws : List (BitVec 32 × BitVec 32)} {sc : Scalars}
    (hsc : breakIntoScalars t scalars draws = some sc)
    (hacc : op.op.acceptsScalar t sc.numScalars ∧ ¬ op.bracketed) (nnF1X : Option (List Int))
    (h0 : 0 < f1X.length) (hmax : f1X.length < 2 ^ 31) :
    vecF1s1opf2Op t scalars draws op f1X nnF1X =
      (f1X.mapM (op.op.scalarRow t sc)).map fun out => ⟨true, nnF1X, some out⟩ := by
  obtain ⟨⟨blockSize, nT⟩, hp⟩ := exists_partition h0 hmax (show (2 : Int) ≤ 8192 by decide)
  unfold vecF1s1opf2Op
  rw [hsc, hp]
  dsimp only
  rw [if_pos hacc, vecRows_eq hp, map_flatMap_blockOf hp]

/-- `vec_f1f2opf3` with an operator that it has. -/
lemma vecF1f2opf3_eq (hacc : op.op.acceptsPair t ∧ ¬ op.bracketed) (f2X : List Int)
    (nnF1X nnF2X : Option (List Int)) (h0 : 0 < f1X.length) (hmax : f1X.length < 2 ^ 31) :
    vecF1f2opf3 t t op f1X nnF1X f2X nnF2X =
      ((f1X.zip f2X).mapM fun p => op.op.row t p.1 p.2).map
        fun out => ⟨true, pairNn nnF1X nnF2X, some out⟩ := by
  obtain ⟨⟨blockSize, nT⟩, hp⟩ := exists_partition h0 hmax (show (2 : Int) ≤ 4096 by decide)
  unfold vecF1f2opf3
  rw [if_neg (not_not.mpr rfl), hp]
  dsimp only
  rw [if_pos hacc, vecRows_eq hp, map_flatMap_blockOf hp]

end

/-! ### The types of the results -/

lemma inRange_wrap (t : IntType) (x : Int) : t.InRange (CInt.wrap t.bits x) := by
  have key : ∀ w : Nat, t.bits = w + 1 → t.InRange (CInt.wrap t.bits x) := by
    intro w hw
    have h1 := CInt.le_wrap w x
    have h2 := CInt.wrap_lt w x
    rw [IntType.InRange, IntType.max, hw, Nat.add_sub_cancel]
    constructor <;> omega
  cases t
  · exact key 7 rfl
  · exact key 15 rfl
  · exact key 31 rfl
  · exact key 63 rfl

lemma inRange_toInt (t : IntType) (x : BitVec t.bits) : t.InRange x.toInt := by
  have key : ∀ w : Nat, t.bits = w + 1 → t.InRange x.toInt := by
    intro w hw
    have h1 := BitVec.le_toInt x
    have h2 := BitVec.toInt_lt (x := x)
    rw [IntType.InRange, IntType.max]
    constructor <;> omega
  cases t
  · exact key 7 rfl
  · exact key 15 rfl
  · exact key 31 rfl
  · exact key 63 rfl

lemma inRange_cmpFlag (t : IntType) (p : Bool) : t.InRange (cmpFlag p) := by
  cases t <;> cases p <;> decide

lemma divRow_inRange {t : IntType} {f : Int → Int → Int} {a b c : Int}
    (h : divRow t f a b = some c) : t.InRange c := by
  unfold divRow at h
  split_ifs at h
  rw [← Option.some.inj h]
  exact inRange_wrap t _

lemma shiftRow_inRange {t : IntType} {f : Nat → Int} {b c : Int} (h : shiftRow t f b = some c) :
    t.InRange c := by
  unfold shiftRow at h
  split_ifs at h
  rw [← Option.some.inj h]
  exact inRange_wrap t _

section

variable {t t' : IntType} {op : FldOp} {a b c : Int}

/-- An operator writes cells of the type that `get_type_op_fld` gives. -/
lemma FldOp.row_inRange (htype : op.pairType t t = some t') (h : op.row t a b = some c) :
    t'.InRange c := by
  cases op
  case add | sub | mul =>
    obtain rfl : t = t' := by simpa [FldOp.pairType, FldOp.kind] using htype
    rw [← Option.some.inj h]
    exact inRange_wrap t _
  case div | rem =>
    obtain rfl : t = t' := by simpa [FldOp.pairType, FldOp.kind] using htype
    exact divRow_inRange h
  case band | bor | bxor =>
    obtain rfl : t = t' := by simpa [FldOp.pairType, FldOp.kind] using htype
    rw [← Option.some.inj h]
    exact inRange_toInt t _
  case shl | shr =>
    obtain rfl : t = t' := by simpa [FldOp.pairType, FldOp.kind] using htype
    simp only [FldOp.row] at h
    exact shiftRow_inRange h
  case le | ge | eq | ne | lt | gt | land | lor =>
    rw [← Option.some.inj h]
    exact inRange_cmpFlag t' _
  case landNot =>
    obtain ⟨rfl, rfl⟩ : t = .I1 ∧ t' = .I1 := by
      simpa [FldOp.pairType, FldOp.kind, eq_comm] using htype
    rw [← Option.some.inj h]
    exact inRange_toInt .I1 _
  case concat =>
    obtain rfl : IntType.I8 = t' := by simpa [FldOp.pairType, FldOp.kind] using htype
    rw [← Option.some.inj h]
    exact inRange_toInt .I8 (BitVec.ofInt 32 a ++ BitVec.ofInt 32 b)
  all_goals cases h

/-- `get_type_op_fld` for `f1opf2`. -/
def UnOp.outType (op : UnOp) : IntType → Option IntType
  | .I1 => if op = .not ∨ op = .onesComplement then some .I1 else none
  | .I2 => none
  | .I4 => if op = .hash then some .I8 else if op = .bitcount then some .I1 else some .I4
  | .I8 => if op = .bitcount then some .I1 else some .I8

lemma cmpRow_inRange (t t' : IntType) (op : EqOp) (sc : Scalars) (a : Int) :
    t'.InRange (cmpRow t op sc a) := by
  have hbit : cmpRow t op sc a = 0 ∨ cmpRow t op sc a = 1 := by
    have hfold : ∀ (d : Int) (ys : List Int) (x y : Int), (x = 0 ∨ x = 1) → (d = 0 ∨ d = 1) →
        (ys.foldl (fun out s => if y = s then x else out) d = 0 ∨
          ys.foldl (fun out s => if y = s then x else out) d = 1) := by
      intro d ys x y hx hd
      induction ys generalizing d with
      | nil => exact hd
      | cons z ys ih =>
        apply ih
        dsimp only
        split_ifs
        · exact hx
        · exact hd
    unfold cmpRow cmpEqScalar cmpNeScalar cmpEqMultScalar optCmpEqMultScalar dbgCmpEqMultScalar
      dbgCmpNeqMultScalar
    have h1 := hfold 0 sc.svals 1 a (.inr rfl) (.inl rfl)
    have h0 := hfold 1 sc.svals 0 a (.inl rfl) (.inr rfl)
    split <;> split_ifs <;> simp_all
  rcases hbit with h | h
  · rw [h]
    exact inRange_cmpFlag t' false
  · rw [h]
    exact inRange_cmpFlag t' true

lemma FldOp.scalarRow_inRange {sc : Scalars} (htype : op.scalarType t = some t')
    (h : op.scalarRow t sc a = some c) : t'.InRange c := by
  unfold FldOp.scalarType at htype
  split_ifs at htype
  cases op
  case eq | ne =>
    rw [← Option.some.inj h]
    exact cmpRow_inRange t t' _ sc a
  case ltOrGt | leOrGe | gtAndLt | geAndLe =>
    rw [← Option.some.inj h]
    exact inRange_cmpFlag t' _
  all_goals exact FldOp.row_inRange htype h

/-- `get_type_op_fld` has a type for what `vec_f1f2opf3` has. -/
lemma FldOp.exists_pairType (h : op.acceptsPair t) : ∃ t', op.pairType t t = some t' := by
  rw [← Option.isSome_iff_exists]
  revert h
  cases t <;> cases op <;> decide

lemma FldOp.exists_scalarType {n : Nat} (h : op.acceptsScalar t n) :
    ∃ t', op.scalarType t = some t' := by
  rw [← Option.isSome_iff_exists]
  cases op
  case land | landNot | lor | concat => cases h
  all_goals cases t <;> rfl

lemma UnOp.row_inRange {hash : (w : Nat) → BitVec w → Nat → Int} {op : UnOp}
    (hhash : ∀ w v seed, IntType.I8.InRange (hash w v seed)) (x : Int) :
    IntType.I8.InRange (op.row hash t x) := by
  cases op with
  | not =>
    show IntType.I8.InRange (if x = 0 then 1 else 0)
    split_ifs <;> decide
  | onesComplement => exact inRange_I8 (inRange_wrap t _)
  | incr => exact inRange_I8 (inRange_wrap t _)
  | decr => exact inRange_I8 (inRange_wrap t _)
  | hash => exact hhash _ _ _
  | bitcount =>
    show IntType.I8.InRange (popcount (BitVec.ofInt t.bits x))
    have hle : popcount (BitVec.ofInt t.bits x) ≤ t.bits := by
      refine List.countP_le_length.trans ?_
      rw [List.length_range]
    have hbits : t.bits ≤ 64 := by cases t <;> decide
    generalize popcount (BitVec.ofInt t.bits x) = m at hle ⊢
    simp only [IntType.InRange, IntType.max, IntType.bits]
    omega

end

end Datacl
