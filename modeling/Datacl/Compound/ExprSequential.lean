import Datacl.Compound.ExprFields

/-!
# A compound expression gives what its statements give one after another

The statements on whole columns are the run with a single block, and the blocks do not matter.
-/

namespace Datacl

/-- The table: all columns have a cell for each row, and the cells are of the types. -/
structure TblOk (flds : List TblFld) (nR : Nat) : Prop where
  length : ∀ g ∈ flds, g.cells.length = nR
  nn : ∀ g ∈ flds, ∀ nn ∈ g.nn, nn.length = nR
  cells : ∀ g ∈ flds, ∀ x ∈ g.cells, g.fldtype.InRange x
  flags : ∀ g ∈ flds, ∀ nn ∈ g.nn, ∀ x ∈ nn, IntType.I1.InRange x

/-- Nothing has been added up. -/
def PartSum.zero : PartSum := ⟨false, 0, 0⟩

section

variable {flds : List TblFld} {nR : Nat} {garbage : Nat → List Int}

/-! ### The buffers at first -/

lemma initMem_base {k : Nat} (hk : k ∈ baseBufs flds) (garbage' : Nat → List Int) :
    initMem flds nR garbage k = initMem flds nR garbage' k := by
  have htemp : isTempBuf k = false := by
    rw [mem_baseBufs] at hk
    simp only [isTempBuf, decide_eq_false_iff_not]
    omega
  rw [initMem, initMem, htemp]
  rfl

lemma initMem_fld (htbl : TblOk flds nR) {k : Nat} (htemp : isTempBuf k = false) :
    (initMem flds nR garbage k).length = nR := by
  rw [initMem, htemp]
  simp only [Bool.false_eq_true, if_false]
  cases hg : flds[k / 4]? with
  | none => exact List.length_replicate
  | some g =>
    have hmem := List.mem_of_getElem? hg
    dsimp only
    split_ifs
    · exact htbl.length g hmem
    · cases hnn : g.nn with
      | none => exact List.length_replicate
      | some nn => exact htbl.nn g hmem nn hnn

lemma memFits_initMem (htbl : TblOk flds nR) (hgarbage : MemFits garbage) :
    MemFits (initMem flds nR garbage) := by
  intro k x hx
  have hzero : ∀ y ∈ List.replicate nR (0 : Int), IntType.I8.InRange y := by
    intro y hy
    rw [List.eq_of_mem_replicate hy]
    decide
  unfold initMem at hx
  by_cases htemp : isTempBuf k = true
  · rw [if_pos htemp] at hx
    exact hgarbage k x hx
  · rw [if_neg htemp] at hx
    cases hg : flds[k / 4]? with
    | none =>
      rw [hg] at hx
      exact hzero x hx
    | some g =>
      rw [hg] at hx
      have hmem := List.mem_of_getElem? hg
      dsimp only at hx
      by_cases hk : k % 4 = 0
      · rw [if_pos hk] at hx
        exact inRange_I8 (htbl.cells g hmem x hx)
      · rw [if_neg hk] at hx
        cases hnn : g.nn with
        | none =>
          rw [hnn] at hx
          exact hzero x hx
        | some nn =>
          rw [hnn] at hx
          exact inRange_I8 (htbl.flags g hmem nn hnn x hx)

lemma room_initMem (htbl : TblOk flds nR) (p : List (RowProgram.Stmt Int PartSum)) {n : Nat} (hgarbage : ∀ k, n ≤ (garbage k).length) :
    RowProgram.Room isTempBuf (baseBufs flds) p nR n (initMem flds nR garbage) where
  base k hk := by
    have htemp : isTempBuf k = false := by
      rw [mem_baseBufs] at hk
      simp only [isTempBuf, decide_eq_false_iff_not]
      omega
    exact ⟨htemp, initMem_fld htbl htemp⟩
  full k _ htemp := initMem_fld htbl htemp
  rolls k _ htemp := by
    rw [initMem, if_pos htemp]
    exact hgarbage k

end

/-! ### Whole columns -/

section

variable {rt : Runtime} {flds : List TblFld} {nR : Nat}

/-- The statements so far, on whole columns, and the buffers after the single block. -/
structure SeqRel (flds : List TblFld) (nR : Nat) (done : List (CompExpr CompFld))
    (s : SeqState) (st : RowProgram.State Int PartSum) : Prop where
  flds_eq : s.flds = (written done).map (CompFld.toFld st.mem) ++ flds
  lines_eq : s.lines = done.zipIdx.filterMap (scalarLine st.acc)
  zero : ∀ i, done.length ≤ i → st.acc i = PartSum.zero
  base : ∀ i g, flds[i]? = some g →
    st.mem (4 * i) = g.cells ∧ st.mem (4 * i + 1) = g.nn.getD (List.replicate nR 0)
  length : ∀ k, (st.mem k).length = nR
  fits : MemFits st.mem
  index : ∀ f ∈ written done, flds.length ≤ f.index ∧ f.index < flds.length + done.length

variable {done : List (CompExpr CompFld)} {s : SeqState} {st : RowProgram.State Int PartSum}

lemma seqRel_nil (htbl : TblOk flds nR) :
    SeqRel flds nR [] ⟨flds, []⟩
      ⟨initMem flds nR fun _ => List.replicate nR 0, fun _ => PartSum.zero⟩ where
  flds_eq := rfl
  lines_eq := rfl
  zero _ _ := rfl
  base i g hg := by
    have h0 : isTempBuf (4 * i) = false := by
      simp only [isTempBuf, decide_eq_false_iff_not]
      omega
    have h1 : isTempBuf (4 * i + 1) = false := by
      simp only [isTempBuf, decide_eq_false_iff_not]
      omega
    dsimp only
    rw [initMem, initMem, h0, h1, show 4 * i / 4 = i by omega, show (4 * i + 1) / 4 = i by omega, hg]
    simp only [Bool.false_eq_true, if_false]
    rw [if_pos (by omega), if_neg (by omega)]
    exact ⟨rfl, rfl⟩
  length k := by
    dsimp only
    cases htemp : isTempBuf k with
    | false => exact initMem_fld htbl htemp
    | true =>
      rw [initMem, if_pos htemp]
      exact List.length_replicate
  fits := by
    apply memFits_initMem htbl
    intro k x hx
    rw [List.eq_of_mem_replicate hx]
    decide
  index f hf := by cases hf

/-- The field that a name stands for. -/
lemma SeqRel.find (h : SeqRel flds nR done s st) {name : String} {f : CompFld}
    (hread : procFldRead flds done name = some f) : s.find name = some (f.toFld st.mem) := by
  have hwritten : ((written done).map (CompFld.toFld st.mem)).find? (fun g => g.name = name) =
      (isCreatedPrior done name).map (CompFld.toFld st.mem) := by
    rw [List.find?_map]
    rfl
  rw [SeqState.find, h.flds_eq, List.find?_append, hwritten]
  unfold procFldRead at hread
  by_cases hfits : compNameFits name = true
  · rw [if_pos hfits] at hread
    cases hprior : isCreatedPrior done name with
    | some g =>
      rw [hprior] at hread
      obtain rfl := Option.some.inj hread
      rfl
    | none =>
      rw [hprior] at hread
      dsimp only at hread
      split_ifs at hread with htemp
      obtain ⟨g, hg, hname, htype, hnull, hfind⟩ := tblFld_eq_some hread
      have hX : f.X = 4 * f.index := by
        rw [CompFld.X, CompFld.isTemp, name_of_tblFld hread, if_neg htemp]
        rfl
      obtain ⟨hcells, hnn⟩ := h.base f.index g hg
      rw [Option.map_none, Option.none_or, hfind]
      have hsame : (if g.nn.isSome then some (g.nn.getD (List.replicate nR 0)) else none) = g.nn := by
        cases g.nn <;> rfl
      rw [CompFld.toFld, CompFld.nnX, hX, hcells, hnn, hname, htype, hnull, hsame]
  · rw [if_neg hfits] at hread
    cases hread

/-- A buffer read as a whole. -/
lemma SeqRel.readBuf (h : SeqRel flds nR done s st) (k : Nat) :
    readBuf st.mem 0 nR k = some (st.mem k) := by
  have hoff : RowProgram.off isTempBuf 0 k = 0 := by
    rw [RowProgram.off, ite_self]
  rw [Datacl.readBuf, hoff, RowProgram.slice_of_le (by rw [h.length k]; omega), List.drop_zero,
    List.take_of_length_le (h.length k).le]

lemma SeqRel.readNn (h : SeqRel flds nR done s st) (f : CompFld) :
    readNn st.mem 0 nR f = some (f.toFld st.mem).nn := by
  rw [Datacl.readNn, h.readBuf]
  cases hnull : f.hasNull <;> simp [CompFld.toFld, hnull]

lemma SeqRel.length_nn (h : SeqRel flds nR done s st) (f : CompFld) :
    ∀ nn ∈ (f.toFld st.mem).nn, nn.length = nR := by
  intro nn hnn
  rw [CompFld.toFld] at hnn
  dsimp only at hnn
  split_ifs at hnn
  · rw [← Option.some.inj hnn]
    exact h.length _
  · cases hnn

def storeNn (mem : Nat → List Int) (f : CompFld) : Option (List Int) → Nat → List Int
  | none => mem
  | some nn => Function.update mem f.nnX nn

/-- The buffers after a field has been stored. -/
def storeWhole (mem : Nat → List Int) (f : CompFld) (nn : Option (List Int)) (out : List Int) :
    Nat → List Int :=
  Function.update (storeNn mem f nn) f.X out

lemma storeWhole_of_ne {mem : Nat → List Int} {f : CompFld} {k : Nat} (nn : Option (List Int))
    (out : List Int) (hk : k / 4 ≠ f.index) : storeWhole mem f nn out k = mem k := by
  have hX : k ≠ f.X := by
    rintro rfl
    exact hk (X_div f)
  have hnnX : k ≠ f.nnX := by
    rintro rfl
    exact hk (nnX_div f)
  rw [storeWhole, Function.update_of_ne hX]
  cases nn with
  | none => rfl
  | some nn => exact Function.update_of_ne hnnX ..

lemma toFld_storeWhole_self {mem : Nat → List Int} {f : CompFld} {nn : Option (List Int)}
    (hnull : nn.isSome = f.hasNull) (out : List Int) :
    f.toFld (storeWhole mem f nn out) = ⟨f.name, f.fldtype, out, nn⟩ := by
  rw [CompFld.toFld, ← hnull]
  cases nn with
  | none => simp [storeWhole, storeNn]
  | some nn => simp [storeWhole, storeNn, nnX_ne_X]

lemma writeBuf_whole {mem : Nat → List Int} {k : Nat} {out : List Int}
    (hlen : out.length = (mem k).length) :
    writeBuf mem 0 k (some out) = some (Function.update mem k out) := by
  have hoff : RowProgram.off isTempBuf 0 k = 0 := by
    rw [RowProgram.off, ite_self]
  rw [writeBuf, hoff, RowProgram.splice, if_pos (by omega), Option.map_some, List.take_zero,
    List.nil_append, Nat.zero_add, hlen, List.drop_length, List.append_nil]

lemma SeqRel.storeOut (h : SeqRel flds nR done s st) {f : CompFld} {nn : Option (List Int)}
    {out : List Int} (hlen : out.length = nR) (hnn : ∀ l ∈ nn, l.length = nR) (ok : Bool) :
    storeOut 0 f ⟨st, ok⟩ ⟨true, nn, some out⟩ =
      some ⟨⟨storeWhole st.mem f nn out, st.acc⟩, true⟩ := by
  rw [Datacl.storeOut]
  dsimp only
  cases nn with
  | none =>
    rw [writeBuf, Option.bind_eq_bind, Option.bind_some,
      writeBuf_whole (by rw [hlen, h.length])]
    rfl
  | some l =>
    have hl := hnn l rfl
    have hne : f.X ≠ f.nnX := (nnX_ne_X f f).symm
    rw [writeBuf_whole (by rw [hl, h.length]), Option.bind_eq_bind, Option.bind_some,
      writeBuf_whole (by rw [Function.update_of_ne hne, hlen, h.length])]
    rfl

/-- A statement that has written a field. -/
lemma SeqRel.put (h : SeqRel flds nR done s st) {e : CompExpr CompFld} {f : CompFld}
    (hlink : Linked flds done e) (hout : e.out = some f) {nn : Option (List Int)} {out : List Int}
    (hlen : out.length = nR) (hnn : ∀ l ∈ nn, l.length = nR) (hnull : nn.isSome = f.hasNull)
    (hfits : MemFits (storeWhole st.mem f nn out)) :
    SeqRel flds nR (done ++ [e]) ⟨⟨f.name, f.fldtype, out, nn⟩ :: s.flds, s.lines⟩
      ⟨storeWhole st.mem f nn out, st.acc⟩ := by
  have hindex := hlink.index f hout
  refine ⟨?_, ?_, fun i hi => ?_, fun i g hg => ?_, fun k => ?_, hfits, fun g hg => ?_⟩
  · dsimp only
    rw [written_append, hout, h.flds_eq, Option.toList_some, List.singleton_append, List.map_cons,
      toFld_storeWhole_self hnull, List.cons_append]
    congr 2
    refine List.map_congr_left fun g hg => ?_
    have hlt := (h.index g hg).2
    have hX : storeWhole st.mem f nn out g.X = st.mem g.X :=
      storeWhole_of_ne nn out (by rw [X_div]; omega)
    have hnnX : storeWhole st.mem f nn out g.nnX = st.mem g.nnX :=
      storeWhole_of_ne nn out (by rw [nnX_div]; omega)
    rw [CompFld.toFld, CompFld.toFld, hX, hnnX]
  · have hline : scalarLine st.acc (e, done.length) = none := by
      cases e with
      | fToS f1 op envVar => cases hout
      | f1s1opf2 f1 scalars op f2 => rfl
      | f1f2opf3 f1 f2 op f3 => rfl
      | f1opf2 f1 op f2 => rfl
    rw [h.lines_eq, List.zipIdx_append, List.filterMap_append]
    simp [hline]
  · rw [List.length_append] at hi
    exact h.zero i (by omega)
  · have hlt := (List.getElem?_eq_some_iff.mp hg).1
    dsimp only
    rw [storeWhole_of_ne nn out (by omega), storeWhole_of_ne nn out (by omega)]
    exact h.base i g hg
  · dsimp only
    by_cases hX : k = f.X
    · rw [hX, storeWhole, Function.update_self]
      exact hlen
    · rw [storeWhole, Function.update_of_ne hX]
      cases nn with
      | none => exact h.length k
      | some l =>
        by_cases hnnX : k = f.nnX
        · rw [hnnX, storeNn, Function.update_self]
          exact hnn l rfl
        · rw [storeNn, Function.update_of_ne hnnX]
          exact h.length k
  · rw [written_append, hout, Option.toList_some, List.singleton_append, List.mem_cons] at hg
    rw [List.length_append, List.length_singleton]
    rcases hg with rfl | hg
    · omega
    · have hlt := h.index g hg
      omega

/-- A statement fails on whole columns as it does in a single block, or both have the same
results. -/
def StepAgrees (flds : List TblFld) (nR : Nat) (done : List (CompExpr CompFld))
    (r : Option SeqState) (r' : Option CompState) : Prop :=
  (r = none ∧ r' = none) ∨
    ∃ s st, r = some s ∧ r' = some ⟨st, true⟩ ∧ SeqRel flds nR done s st

/-- A vector operation and the field that it makes. -/
lemma SeqRel.stepAgrees (h : SeqRel flds nR done s st) (hrt : rt.Ok) {e : CompExpr CompFld}
    {f : CompFld} (hlink : Linked flds done e) (hout : e.out = some f) (hsup : e.Supported rt)
    (h0 : 0 < nR) (hmax : nR < 2 ^ 31) (nn cells : Option (List Int))
    (hlen : ∀ out ∈ cells, out.length = nR) (hnn : ∀ l ∈ nn, l.length = nR)
    (hnull : nn.isSome = f.hasNull) {stm : CompExpr String}
    (hseq : seqStmt rt s stm =
      (cells.map fun out => VecOut.mk true nn (some out)).bind (s.put f.name f.fldtype))
    (hexec : execExpr rt 0 nR ⟨st, true⟩ (e, done.length) =
      (cells.map fun out => VecOut.mk true nn (some out)).bind (Datacl.storeOut 0 f ⟨st, true⟩)) :
    StepAgrees flds nR (done ++ [e]) (seqStmt rt s stm)
      (execExpr rt 0 nR ⟨st, true⟩ (e, done.length)) := by
  cases cells with
  | none => exact .inl ⟨hseq, hexec⟩
  | some out =>
    have hstore := hexec.trans (h.storeOut (hlen out rfl) hnn true)
    have hrun := (execExpr_eq hrt hsup done.length h.fits h0 hmax true).symm.trans hstore
    obtain ⟨st', hrun, heq⟩ := Option.map_eq_some_iff.mp hrun
    have hfits := memFits_run (yields_prog hrt hsup done.length) h.fits hrun
    obtain rfl : st' = ⟨storeWhole st.mem f nn out, st.acc⟩ := (CompState.mk.inj heq).1
    exact .inr ⟨_, _, hseq, hstore, h.put hlink hout (hlen out rfl) hnn hnull hfits⟩

lemma length_of_mapM {γ δ : Type} {f : γ → Option δ} {l : List γ} {ys : List δ}
    (h : l.mapM f = some ys) : ys.length = l.length := by
  have hlen := congrArg List.length (RowProgram.mapM_eq_some_iff.mp h)
  rwa [List.length_map, List.length_map, eq_comm] at hlen

lemma isSome_pairNn (nn1 nn2 : Option (List Int)) :
    (pairNn nn1 nn2).isSome = (nn1.isSome || nn2.isSome) := by
  cases nn1 <;> cases nn2 <;> rfl

lemma length_pairNn {nn1 nn2 : Option (List Int)} {N : Nat} (h1 : ∀ l ∈ nn1, l.length = N)
    (h2 : ∀ l ∈ nn2, l.length = N) : ∀ l ∈ pairNn nn1 nn2, l.length = N := by
  intro l hl
  cases nn1 with
  | none =>
    cases nn2 with
    | none => cases hl
    | some l2 =>
      rw [← Option.some.inj hl]
      exact h2 l2 rfl
  | some l1 =>
    cases nn2 with
    | none =>
      rw [← Option.some.inj hl]
      exact h1 l1 rfl
    | some l2 =>
      have hl1 := h1 l1 rfl
      have hl2 := h2 l2 rfl
      rw [← Option.some.inj hl, List.length_map, List.length_zip]
      omega

lemma isSome_toFld_nn (mem : Nat → List Int) (f : CompFld) :
    (f.toFld mem).nn.isSome = f.hasNull := by
  rw [CompFld.toFld]
  cases f.hasNull <;> rfl

/-- The line of a result. -/
lemma scalarLine_addVals (acc : Nat → PartSum) (f : CompFld) (op : RedOp) (envVar : String) (i : Nat)
    (vals : List Int) :
    scalarLine (Function.update acc i (PartSum.zero.addVals f.fldtype op vals)) (.fToS f op envVar, i) =
      some (envVar ++ "=" ++ if vals.isEmpty then "0:0"
        else rsltBuf (vals.length, fToS op vals (op.init f.fldtype))) := by
  rw [scalarLine, Function.update_self, PartSum.addVals]
  by_cases hvals : vals = []
  · rw [if_pos hvals, hvals]
    rfl
  · have hempty : vals.isEmpty = false := by simpa using hvals
    rw [if_neg hvals, hempty]
    simp [PartSum.zero]

lemma scalarLine_update_of_lt {acc : Nat → PartSum} {i : Nat} (p : PartSum)
    {exprs : List (CompExpr CompFld)} (h : exprs.length ≤ i) :
    exprs.zipIdx.filterMap (scalarLine (Function.update acc i p)) =
      exprs.zipIdx.filterMap (scalarLine acc) := by
  refine List.filterMap_congr fun e he => ?_
  obtain ⟨e, j⟩ := e
  have hj : j < exprs.length := (List.getElem?_eq_some_iff.mp (List.mem_zipIdx_iff_getElem?.mp he)).1
  have hne : j ≠ i := by omega
  cases e with
  | fToS f op envVar => rw [scalarLine, scalarLine, Function.update_of_ne hne]
  | f1s1opf2 f1 scalars op f2 => rfl
  | f1f2opf3 f1 f2 op f3 => rfl
  | f1opf2 f1 op f2 => rfl

/-- A statement that prints a result. -/
lemma SeqRel.print (h : SeqRel flds nR done s st) (f : CompFld) (op : RedOp) (envVar : String)
    (vals : List Int) :
    SeqRel flds nR (done ++ [.fToS f op envVar])
      ⟨s.flds, s.lines ++ [envVar ++ "=" ++ if vals.isEmpty then "0:0"
        else rsltBuf (vals.length, fToS op vals (op.init f.fldtype))]⟩
      ⟨st.mem, Function.update st.acc done.length (PartSum.zero.addVals f.fldtype op vals)⟩ where
  flds_eq := by
    rw [written_append]
    exact h.flds_eq
  lines_eq := by
    rw [List.zipIdx_append, List.filterMap_append, Nat.zero_add, List.zipIdx_singleton,
      scalarLine_update_of_lt _ le_rfl, List.filterMap_cons_some (scalarLine_addVals ..), h.lines_eq]
    rfl
  zero i hi := by
    rw [List.length_append, List.length_singleton] at hi
    dsimp only
    rw [Function.update_of_ne (by omega)]
    exact h.zero i (by omega)
  base := h.base
  length := h.length
  fits := h.fits
  index g hg := by
    rw [written_append] at hg
    have hlt := h.index g hg
    rw [List.length_append]
    omega

/-- A line that is accepted, on whole columns and in a single block. -/
lemma SeqRel.step (h : SeqRel flds nR done s st) (hrt : rt.Ok) {stm : CompExpr String}
    {e : CompExpr CompFld} (hchk : chkStmt flds done stm = some e) (hsup : e.Supported rt)
    (h0 : 0 < nR) (hmax : nR < 2 ^ 31) :
    StepAgrees flds nR (done ++ [e]) (seqStmt rt s stm)
      (execExpr rt 0 nR ⟨st, true⟩ (e, done.length)) := by
  have hlink := linked_of_chkStmt hchk
  cases stm with
  | f1s1opf2 f1 scalars op f2 =>
    obtain ⟨r1, hr1, hrest⟩ := Option.bind_eq_some_iff.mp hchk
    split_ifs at hrest
    obtain ⟨t, ht, hrest⟩ := Option.bind_eq_some_iff.mp hrest
    obtain ⟨w, hw, hrest⟩ := Option.bind_eq_some_iff.mp hrest
    obtain ⟨rfl, -⟩ := of_procFldWrite hw
    obtain rfl := Option.some.inj hrest
    obtain ⟨hbare, hfew, sc, hsc, hacc⟩ := hsup
    have hX := h.length r1.X
    have hvec := vecF1s1opf2Op_eq hsc ⟨hacc, hbare⟩ (r1.toFld st.mem).nn
      (show 0 < (st.mem r1.X).length by omega) (by omega)
    refine h.stepAgrees hrt hlink rfl ⟨hbare, hfew, sc, hsc, hacc⟩ h0 hmax (r1.toFld st.mem).nn
      ((st.mem r1.X).mapM (op.op.scalarRow r1.fldtype sc))
      (fun out hout => (length_of_mapM hout).trans hX) (h.length_nn r1) (isSome_toFld_nn _ _) ?_ ?_
    · rw [seqStmt, h.find hr1, ← hvec]
      simp only [CompFld.toFld, Option.bind_eq_bind, Option.bind_some, ht]
    · simp only [execExpr, h.readBuf, h.readNn, Option.bind_eq_bind, Option.bind_some, ← hvec]
  | f1f2opf3 f1 f2 op f3 =>
    obtain ⟨r1, hr1, hrest⟩ := Option.bind_eq_some_iff.mp hchk
    obtain ⟨r2, hr2, hrest⟩ := Option.bind_eq_some_iff.mp hrest
    obtain ⟨t, ht, hrest⟩ := Option.bind_eq_some_iff.mp hrest
    obtain ⟨w, hw, hrest⟩ := Option.bind_eq_some_iff.mp hrest
    obtain ⟨rfl, -⟩ := of_procFldWrite hw
    obtain rfl := Option.some.inj hrest
    obtain ⟨hbare, htype, hacc⟩ := hsup
    have hX := h.length r1.X
    have hvec := vecF1f2opf3_eq ⟨hacc, hbare⟩ (st.mem r2.X) (r1.toFld st.mem).nn
      (r2.toFld st.mem).nn (show 0 < (st.mem r1.X).length by omega) (by omega)
    refine h.stepAgrees hrt hlink rfl ⟨hbare, htype, hacc⟩ h0 hmax
      (pairNn (r1.toFld st.mem).nn (r2.toFld st.mem).nn)
      (((st.mem r1.X).zip (st.mem r2.X)).mapM fun p => op.op.row r1.fldtype p.1 p.2)
      (fun out hout => (length_of_mapM hout).trans (by rw [List.length_zip, h.length, h.length, Nat.min_self]))
      (length_pairNn (h.length_nn r1) (h.length_nn r2)) ?_ ?_ ?_
    · rw [isSome_pairNn, isSome_toFld_nn, isSome_toFld_nn]
    · rw [seqStmt, h.find hr1, h.find hr2, ← hvec]
      simp only [CompFld.toFld, Option.bind_eq_bind, Option.bind_some, ht]
      rw [htype]
    · simp only [execExpr, h.readBuf, h.readNn, Option.bind_eq_bind, Option.bind_some, ← hvec]
      rw [htype]
  | f1opf2 f1 op f2 =>
    obtain ⟨r1, hr1, hrest⟩ := Option.bind_eq_some_iff.mp hchk
    obtain ⟨t, ht, hrest⟩ := Option.bind_eq_some_iff.mp hrest
    obtain ⟨w, hw, hrest⟩ := Option.bind_eq_some_iff.mp hrest
    obtain ⟨rfl, -⟩ := of_procFldWrite hw
    obtain rfl := Option.some.inj hrest
    obtain ⟨hspec, hacc, hfirst⟩ := hsup
    have hX := h.length r1.X
    have hvec : ∀ f2X : List Int, f2X.length = (st.mem r1.X).length →
        vecF1opf2Out rt r1.fldtype op.op (st.mem r1.X) (r1.toFld st.mem).nn f2X =
          ⟨true, (r1.toFld st.mem).nn, some ((st.mem r1.X).map fun x =>
            op.op.row rt.hash r1.fldtype x)⟩ := by
      intro f2X hlen
      rw [vecF1opf2Out, vecF1opf2_eq_map _ hlen hacc hfirst (by omega) (by omega)]
    refine h.stepAgrees hrt hlink rfl ⟨hspec, hacc, hfirst⟩ h0 hmax (r1.toFld st.mem).nn
      (some ((st.mem r1.X).map fun x => op.op.row rt.hash r1.fldtype x)) (fun out hout => ?_) (h.length_nn r1) (isSome_toFld_nn _ _) ?_ ?_
    · rw [← Option.some.inj hout, List.length_map, hX]
    · rw [seqStmt, h.find hr1]
      simp only [CompFld.toFld, Option.bind_eq_bind, Option.bind_some, ht, Option.map_some]
      rw [show (if r1.hasNull = true then some (st.mem r1.nnX) else none) = (r1.toFld st.mem).nn from rfl,
        hvec _ List.length_replicate]
    · simp only [execExpr, h.readBuf, h.readNn, Option.bind_eq_bind, Option.bind_some, hspec, if_true,
        Option.map_some]
      rw [hvec _ (by rw [h.length, h.length])]
  | fToS f1 op envVar =>
    obtain ⟨r1, hr1, hrest⟩ := Option.bind_eq_some_iff.mp hchk
    split_ifs at hrest
    obtain rfl := Option.some.inj hrest
    have hX := h.length r1.X
    obtain ⟨⟨blockSize, nT⟩, hp⟩ := exists_partition_cores
      (show 0 < (st.mem r1.X).length by omega) (by omega) hrt.cores
    have hadd := addBuf_vecFToS r1.fldtype op (r1.toFld st.mem).nn (st.acc done.length)
      (h.fits r1.X) (by omega) (by omega) hrt.cores
    refine .inr ⟨_, ⟨st.mem, Function.update st.acc done.length (PartSum.zero.addVals r1.fldtype op
      (nonNull (st.mem r1.X) (r1.toFld st.mem).nn))⟩, ?_, ?_, h.print r1 op envVar _⟩
    · rw [seqStmt, h.find hr1, Option.bind_eq_bind, Option.bind_some]
      have hbuf := vecFToS_rsltBuf r1.fldtype op (r1.toFld st.mem).nn hp
      show ((vecFToS r1.fldtype (st.mem r1.X) (r1.toFld st.mem).nn op rt.numCores).bind _) = _
      rw [hbuf, Option.bind_some]
      show some (SeqState.mk s.flds (s.lines ++ [envVar ++ "=" ++
        if (nonNull (st.mem r1.X) (r1.toFld st.mem).nn).isEmpty then "0:0" else _])) = _
      by_cases hvals : nonNull (st.mem r1.X) (r1.toFld st.mem).nn = []
      · simp only [hvals]
        rfl
      · have hempty : (nonNull (st.mem r1.X) (r1.toFld st.mem).nn).isEmpty = false := by
          simpa using hvals
        rw [hempty, if_neg hvals]
    · simp only [execExpr, h.readBuf, h.readNn, Option.bind_eq_bind, Option.bind_some]
      rw [← Option.bind_assoc, hadd, h.zero done.length le_rfl]
      rfl

/-- The lines that are accepted. -/
lemma OwnBuffers.run (halloc : OwnBuffers rt flds done) {stmts : List (CompExpr String)}
    {exprs : List (CompExpr CompFld)} (hchk : chkStmts flds done stmts = some exprs) :
    OwnBuffers rt flds exprs ∧ ∃ rest, exprs = done ++ rest := by
  induction stmts generalizing done with
  | nil =>
    obtain rfl := Option.some.inj hchk
    exact ⟨halloc, [], (List.append_nil _).symm⟩
  | cons stm stmts ih =>
    obtain ⟨done', hstm, hrest⟩ := Option.bind_eq_some_iff.mp hchk
    obtain ⟨e, he, rfl⟩ := Option.map_eq_some_iff.mp hstm
    obtain ⟨hall, rest, rfl⟩ := ih (halloc.step (linked_of_chkStmt he)) hrest
    exact ⟨hall, e :: rest, by simp⟩

/-- The lines that are accepted, on whole columns and in a single block. -/
lemma SeqRel.run (h : SeqRel flds nR done s st) (halloc : OwnBuffers rt flds done) (hrt : rt.Ok)
    {stmts : List (CompExpr String)} {rest : List (CompExpr CompFld)}
    (hchk : chkStmts flds done stmts = some (done ++ rest))
    (hsup : ∀ e ∈ rest, e.Supported rt) (h0 : 0 < nR) (hmax : nR < 2 ^ 31) :
    StepAgrees flds nR (done ++ rest) (stmts.foldlM (seqStmt rt) s)
      ((rest.zipIdx done.length).foldlM (execExpr rt 0 nR) ⟨st, true⟩) := by
  induction stmts generalizing done s st rest with
  | nil =>
    obtain rfl : [] = rest := by simpa [chkStmts] using hchk
    rw [List.append_nil]
    exact .inr ⟨s, st, rfl, rfl, h⟩
  | cons stm stmts ih =>
    obtain ⟨done', hstm, hrest⟩ := Option.bind_eq_some_iff.mp hchk
    obtain ⟨e, he, rfl⟩ := Option.map_eq_some_iff.mp hstm
    have halloc' := halloc.step (linked_of_chkStmt he)
    obtain ⟨-, rest', hsplit⟩ := halloc'.run hrest
    rw [List.append_assoc, List.singleton_append, List.append_cancel_left_eq] at hsplit
    subst hsplit
    rw [List.forall_mem_cons] at hsup
    rw [List.foldlM_cons, List.zipIdx_cons, List.foldlM_cons]
    rcases h.step hrt he hsup.1 h0 hmax with ⟨hseq, hexec⟩ | ⟨s', st', hseq, hexec, h'⟩
    · rw [hseq, hexec]
      exact .inl ⟨rfl, rfl⟩
    · have hcons : done ++ e :: rest' = done ++ [e] ++ rest' := by simp
      rw [hcons] at hrest ⊢
      have hagree := ih h' halloc' hrest hsup.2
      rw [hseq, hexec]
      rwa [List.length_append] at hagree

end

/-! ### Compound expressions -/

section

variable {rt : Runtime} {flds : List TblFld} {nR : Nat} {garbage : Nat → List Int}

/-- The lines of the same results. -/
lemma scalarLine_congr {acc acc' : Nat → PartSum} {exprs : List (CompExpr CompFld)}
    (h : ∀ i ∈ RowProgram.slots (progOf rt exprs.zipIdx), acc i = acc' i) :
    exprs.zipIdx.filterMap (scalarLine acc) = exprs.zipIdx.filterMap (scalarLine acc') := by
  refine List.filterMap_congr fun e he => ?_
  obtain ⟨e, i⟩ := e
  cases e with
  | fToS f op envVar =>
    have hmem : i ∈ RowProgram.slots (progOf rt exprs.zipIdx) := by
      apply RowProgram.mem_slots
      exact List.mem_flatMap.mpr ⟨_, he, List.mem_singleton_self _⟩
    rw [scalarLine, scalarLine, h i hmem]
  | f1s1opf2 f1 scalars op f2 => rfl
  | f1f2opf3 f1 f2 op f3 => rfl
  | f1opf2 f1 op f2 => rfl

lemma isTempBuf_X (f : CompFld) : isTempBuf f.X = f.isTemp := by
  unfold isTempBuf CompFld.X
  cases f.isTemp
  · have h : ¬ 2 ≤ (4 * f.index + 0) % 4 := by omega
    exact decide_eq_false h
  · have h : 2 ≤ (4 * f.index + 2) % 4 := by omega
    exact decide_eq_true h

lemma isTempBuf_nnX (f : CompFld) : isTempBuf f.nnX = f.isTemp := by
  unfold isTempBuf CompFld.nnX CompFld.X
  cases f.isTemp
  · have h : ¬ 2 ≤ (4 * f.index + 0 + 1) % 4 := by omega
    exact decide_eq_false h
  · have h : 2 ≤ (4 * f.index + 2 + 1) % 4 := by omega
    exact decide_eq_true h

/-- The fields kept are the same if the buffers are. -/
lemma map_toFld_congr {exprs : List (CompExpr CompFld)} (halloc : OwnBuffers rt flds exprs)
    {mem mem' : Nat → List Int}
    (h : ∀ k ∈ RowProgram.dsts (progOf rt exprs.zipIdx), isTempBuf k = false → mem k = mem' k) :
    ((exprs.filterMap CompExpr.out).filter fun f => !f.isTemp).map (CompFld.toFld mem) =
      ((exprs.filterMap CompExpr.out).filter fun f => !f.isTemp).map (CompFld.toFld mem') := by
  refine List.map_congr_left fun f hf => ?_
  obtain ⟨hf, htemp⟩ := List.mem_filter.mp hf
  have htemp : f.isTemp = false := by simpa using htemp
  obtain ⟨hmem, hmemnn⟩ := halloc.written f (List.mem_reverse.mpr hf)
  rw [CompFld.toFld, CompFld.toFld, h _ hmem (by rw [isTempBuf_X, htemp])]
  cases hnull : f.hasNull with
  | false => rfl
  | true => rw [h _ (hmemnn hnull) (by rw [isTempBuf_nnX, htemp])]

/-- What is left of the statements on whole columns. -/
lemma sequential_eq {exprs : List (CompExpr CompFld)} {s : SeqState}
    {st : RowProgram.State Int PartSum} (h : SeqRel flds nR exprs s st)
    {stmts : List (CompExpr String)} (hrun : stmts.foldlM (seqStmt rt) ⟨flds, []⟩ = some s) :
    sequential rt flds stmts =
      some (((exprs.filterMap CompExpr.out).filter fun f => !f.isTemp).map (CompFld.toFld st.mem),
        exprs.zipIdx.filterMap (scalarLine st.acc)) := by
  have hnew : (s.flds.take (s.flds.length - flds.length)).reverse =
      (exprs.filterMap CompExpr.out).map (CompFld.toFld st.mem) := by
    rw [h.flds_eq, List.length_append, Nat.add_sub_cancel, List.take_left, ← List.map_reverse,
      written, List.reverse_reverse]
  rw [sequential, hrun, Option.bind_eq_bind, Option.bind_some, hnew, h.lines_eq]
  dsimp only
  rw [List.filter_map]
  rfl

end

/-- A table of two rows. -/
def smallTbl : List TblFld := [⟨"a", .I4, [3, 4], none⟩]

/-- One core, and no random numbers. -/
def smallRuntime : Runtime := ⟨1, fun _ _ _ => 0, []⟩

def smallTemp : String := String.ofList ['t', Char.ofNat 39]

/-- Add 1 in a temporary field, multiply, and add up. -/
def smallStmts : List (CompExpr String) :=
  [.f1s1opf2 "a" [1] ⟨.add, false⟩ smallTemp, .f1f2opf3 "a" smallTemp ⟨.mul, false⟩ "b",
    .fToS "b" .sum "total"]

def smallExprs : List (CompExpr CompFld) :=
  [.f1s1opf2 ⟨"a", 0, .I4, false⟩ [1] ⟨.add, false⟩ ⟨smallTemp, 1, .I4, false⟩,
    .f1f2opf3 ⟨"a", 0, .I4, false⟩ ⟨smallTemp, 1, .I4, false⟩ ⟨.mul, false⟩ ⟨"b", 2, .I4, false⟩,
    .fToS ⟨"b", 2, .I4, false⟩ .sum "total"]

lemma smallRuntime_ok : smallRuntime.Ok where
  cores := by decide
  hash _ _ _ := show IntType.I8.InRange 0 by decide

lemma smallTbl_ok : TblOk smallTbl 2 where
  length := by decide
  nn := by decide
  cells := by decide
  flags := by decide

end Datacl
