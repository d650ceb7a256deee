import Datacl.Docroots.Confined
import Datacl.Order.StatsRun

/-!
# Columns that are changed in place

The operations that write to the file of a field refuse a field that is external.
-/

namespace Datacl

variable {own : Int → Prop} {k : Kernel} {env : Env} {s s₀ : Store}

lemma Confined.setData (h : Confined own s₀ s) {r : FldRec} {x : DataFile} (hr : r.Placed own)
    (hext : r.isExternal = false) (hx : getData env s r = some x) (f : DataFile) :
    Confined own s₀ (s.setData r f) :=
  h.setFile (hr.own hext (canEnter_nonneg (qMmap_eq_some hx).1))

lemma confined_intSetSrttype (tblId fldId : Nat) (srttype : SortType) :
    Cmd.Keeps (Confined own s₀) (intSetSrttype env tblId fldId srttype) := by
  unfold intSetSrttype
  refine Cmd.keeps_bind (Cmd.keeps_modify fun s h => ?_) fun _ _ _ _ => ?_
  · exact h.setFld ⟨(h.fld fldId).own, (h.fld fldId).dir, (h.fld fldId).fileno⟩
  · exact Cmd.keeps_get_bind fun s _ => Cmd.keeps_require_bind fun _ => Cmd.keeps_require _

/-! ### `fop` -/

section

variable {i : Nat} {x : DataFile}

lemma Confined.writeRows (h : Confined own s₀ s) (hext : (s.fld i).isExternal = false)
    (hx : getData env s (s.fld i) = some x) (nR : Nat) (rows : List Int) :
    Confined own s₀ (writeRows i nR x rows s).2 :=
  h.setData (h.fld i) hext hx _

lemma Confined.fopExec (h : Confined own s₀ s) (henv : env.WritesTo own)
    (hext : (s.fld i).isExternal = false) (hx : getData env s (s.fld i) = some x) (tblId : Nat)
    (nR : Int) (spec : FopSpec) : Confined own s₀ (spec.exec k env tblId i nR x s).2 := by
  have hwrite := fun n rows => h.writeRows hext hx n rows
  cases spec with
  | sort dir distribution =>
    show Confined own s₀ (fopSort k env tblId i nR.toNat x dir distribution s).2
    unfold fopSort
    rw [Cmd.get_bind]
    by_cases hpar : dir = .asc ∧ decideOnParallelism distribution (s.fld i).fldtype nR.toNat = true
    · rw [if_pos hpar]
      exact Cmd.keeps_bind (confined_mkTempFile henv _) (fun _ _ _ _ _ h => h) s h
    · rw [if_neg hpar]
      refine Cmd.require_bind_keeps h fun _ => Cmd.ofOption_bind_keeps h fun rows _ => ?_
      exact confined_intSetSrttype _ _ _ _ (hwrite nR.toNat rows)
  | permute =>
    show Confined own s₀ (fopPermute k env tblId i nR.toNat x s).2
    unfold fopPermute
    rw [Cmd.get_bind]
    refine Cmd.require_bind_keeps h fun _ => Cmd.require_bind_keeps h fun _ => ?_
    cases permute k.fl k.draw (x.cells.take nR.toNat) with
    | error e =>
      cases e with
      | outside => exact h
      | status => exact confined_intSetSrttype _ _ _ _ h
    | ok rows => exact confined_intSetSrttype _ _ _ _ (hwrite nR.toNat rows)
  | zeroAfterN oneCnt =>
    show Confined own s₀ (fopZeroAfterN i nR x oneCnt s).2
    unfold fopZeroAfterN
    rw [Cmd.get_bind]
    refine Cmd.require_bind_keeps h fun _ => Cmd.require_bind_keeps h fun _ => ?_
    exact Cmd.ofOption_bind_keeps h fun words _ => hwrite _ words
  | saturate maxval =>
    show Confined own s₀ (fopSaturate i nR.toNat x maxval s).2
    unfold fopSaturate
    rw [Cmd.get_bind]
    refine Cmd.ofOption_bind_keeps h fun t _ => Cmd.require_bind_keeps h fun _ => ?_
    exact Cmd.require_bind_keeps h fun _ => hwrite _ _

end

lemma Confined.fop (h : Confined own s₀ s) (henv : env.WritesTo own) (tbl fld strOpSpec : Name) :
    Confined own s₀ (fop k env tbl fld strOpSpec s).2 := by
  unfold Datacl.fop
  refine Cmd.require_bind_keeps h fun _ => Cmd.require_bind_keeps h fun _ =>
    Cmd.require_bind_keeps h fun _ => ?_
  rw [Cmd.get_bind]
  refine Cmd.ofOption_bind_keeps h fun tblId _ => Cmd.ofOption_bind_keeps h fun i _ =>
    Cmd.require_bind_keeps h fun hext => Cmd.require_bind_keeps h fun _ =>
      Cmd.ofOption_bind_keeps h fun x hx => Cmd.ofOption_bind_keeps h fun spec _ => ?_
  exact h.fopExec henv hext hx tblId _ spec

/-! ### `f_to_s` -/

lemma confined_fToSStat (tblId i nR : Nat) (x : DataFile) (nnX : Option DataFile) (stat : Stat) :
    Cmd.Keeps (Confined own s₀) (fToSStat k env tblId i nR x nnX stat) := by
  unfold fToSStat
  refine Cmd.keeps_get_bind fun s _ => ?_
  dsimp only
  split
  · exact Cmd.keeps_ofOption _
  · refine Cmd.keeps_ofOption_bind fun buf _ => Cmd.keeps_bind ?_ fun _ _ _ _ => Cmd.keeps_pure buf
    refine Cmd.keeps_require_bind fun _ => Cmd.keeps_require_bind fun _ => ?_
    refine Cmd.keeps_require_bind fun _ => ?_
    exact Cmd.keeps_bind (confined_setAttr _ _ _ nofun) fun _ _ _ _ => confined_chkAttr _ _

lemma confined_fToSOrder (i nR : Nat) (x : DataFile) :
    Cmd.Keeps (Confined own s₀) (fToSOrder i nR x) := by
  have hmark : ∀ t s, Confined own s₀ s → Confined own s₀ (s.setFld i { s.fld i with srttype := t }) :=
    fun t s h => h.setFld ⟨(h.fld i).own, (h.fld i).dir, (h.fld i).fileno⟩
  unfold fToSOrder
  refine Cmd.keeps_get_bind fun s _ => ?_
  dsimp only
  split_ifs
  · refine Cmd.keeps_bind (Cmd.keeps_modify fun s h => hmark _ s h) fun _ _ _ _ => ?_
    exact Cmd.keeps_get_bind fun s _ => Cmd.keeps_pure _
  · refine Cmd.keeps_bind (Cmd.keeps_when ?_) fun _ _ _ _ => ?_
    · refine Cmd.keeps_require_bind fun _ => Cmd.keeps_require_bind fun _ => ?_
      exact Cmd.keeps_modify fun s h => hmark _ s h
    · exact Cmd.keeps_get_bind fun s _ => Cmd.keeps_pure _

lemma confined_fToSCmd (tbl fld strOpSpec : Name) :
    Cmd.Keeps (Confined own s₀) (fToSCmd k env tbl fld strOpSpec) := by
  unfold fToSCmd
  refine Cmd.keeps_require_bind fun _ => Cmd.keeps_require_bind fun _ => ?_
  refine Cmd.keeps_require_bind fun _ => Cmd.keeps_get_bind fun s _ => ?_
  refine Cmd.keeps_ofOption_bind fun tblId _ => Cmd.keeps_ofOption_bind fun i _ => ?_
  refine Cmd.keeps_ofOption_bind fun x _ => Cmd.keeps_ofOption_bind fun nnX _ => ?_
  refine Cmd.keeps_ofOption_bind fun op _ => ?_
  split_ifs
  · exact confined_fToSOrder _ _ _
  · exact Cmd.keeps_ofOption _
  · exact Cmd.keeps_ofOption_bind fun stat _ => confined_fToSStat _ _ _ _ _ _

/-! ### Sorting several columns -/

lemma Confined.sortf1f2 (h : Confined own s₀ s) (q : PairSort) (tbl f1 f2 strOpSpec : Name) :
    Confined own s₀ (sortf1f2 env q tbl f1 f2 strOpSpec s).2 := by
  unfold Datacl.sortf1f2
  refine Cmd.require_bind_keeps h fun _ => Cmd.require_bind_keeps h fun _ =>
    Cmd.require_bind_keeps h fun _ => Cmd.require_bind_keeps h fun _ => ?_
  rw [Cmd.get_bind]
  refine Cmd.ofOption_bind_keeps h fun tblId _ => Cmd.ofOption_bind_keeps h fun i _ =>
    Cmd.require_bind_keeps h fun _ => Cmd.require_bind_keeps h fun hext1 =>
      Cmd.ofOption_bind_keeps h fun x1 hx1 => Cmd.ofOption_bind_keeps h fun j _ =>
        Cmd.require_bind_keeps h fun _ => Cmd.require_bind_keeps h fun hext2 =>
          Cmd.ofOption_bind_keeps h fun x2 hx2 => Cmd.ofOption_bind_keeps h fun dir _ =>
            Cmd.require_bind_keeps h fun _ => Cmd.require_bind_keeps h fun _ =>
              Cmd.require_bind_keeps h fun _ => ?_
  rw [Cmd.modify_bind, Cmd.modify_bind]
  refine confined_intSetSrttype _ _ _ _ ?_
  refine Confined.setFile ?_ ((h.fld j).own hext2 (canEnter_nonneg (qMmap_eq_some hx2).1))
  exact h.setData (h.fld i) hext1 hx1 _

lemma confined_getRanges (tblId : Nat) (lb ub : Name) :
    Cmd.Keeps (Confined own s₀) (getRanges env tblId lb ub) := by
  unfold getRanges
  refine Cmd.keeps_get_bind fun s _ => Cmd.keeps_ofOption_bind fun lbId _ => ?_
  refine Cmd.keeps_ofOption_bind fun lbX _ => Cmd.keeps_require_bind fun _ => ?_
  refine Cmd.keeps_require_bind fun _ => Cmd.keeps_ofOption_bind fun ubId _ => ?_
  refine Cmd.keeps_ofOption_bind fun ubX _ => Cmd.keeps_require_bind fun _ => ?_
  exact Cmd.keeps_require_bind fun _ => Cmd.keeps_pure _

lemma Confined.rngSort (h : Confined own s₀ s) (t1 f1 mode t2 lb ub : Name) :
    Confined own s₀ (rngSort env t1 f1 mode t2 lb ub s).2 := by
  unfold Datacl.rngSort
  refine Cmd.require_bind_keeps h fun _ => Cmd.require_bind_keeps h fun _ =>
    Cmd.require_bind_keeps h fun _ => Cmd.require_bind_keeps h fun _ =>
      Cmd.require_bind_keeps h fun _ => Cmd.require_bind_keeps h fun _ =>
        Cmd.require_bind_keeps h fun _ => Cmd.ofOption_bind_keeps h fun dir _ => ?_
  rw [Cmd.get_bind]
  refine Cmd.ofOption_bind_keeps h fun t1Id _ => Cmd.ofOption_bind_keeps h fun i _ =>
    Cmd.require_bind_keeps h fun hext => Cmd.ofOption_bind_keeps h fun x hx =>
      Cmd.require_bind_keeps h fun _ => Cmd.require_bind_keeps h fun _ =>
        Cmd.ofOption_bind_keeps h fun t2Id _ => ?_
  refine Cmd.bind_keeps (fun _ => confined_getRanges _ _ _ _ h) fun ranges s₁ hranges => ?_
  obtain rfl := getRanges_state hranges
  rw [Cmd.modify_bind]
  exact h.setData (h.fld i) hext hx _

/-! ### Calls -/

/-- A call on tables and fields, or on the rows of a column. -/
inductive DocrootOp where
  | store (op : StoreOp)
  | column (op : ColumnOp)

/-- What the calls are run with: the answers that are not modelled, and the sort of two columns. -/
structure Backend where
  kernel : Kernel
  pairSort : PairSort

def DocrootOp.exec (b : Backend) (env : Env) : DocrootOp → Cmd Store Unit
  | .store op => op.exec env b.kernel.stoF8
  | .column op => op.exec b.kernel env b.pairSort

/-- The condition on a call: the calls on columns have none. -/
def DocrootOp.Respects (s : Store) : DocrootOp → Prop
  | .store op => op.Respects s
  | .column _ => True

instance (s : Store) : (op : DocrootOp) → Decidable (op.Respects s)
  | .store op => inferInstanceAs (Decidable (op.Respects s))
  | .column _ => inferInstanceAs (Decidable True)

/-- A call, successful or not, changes no file outside the own directories. -/
lemma Confined.exec (h : Confined own s₀ s) {b : Backend} (henv : env.WritesTo own) {op : DocrootOp}
    (hok : op.Respects s) : Confined own s₀ (op.exec b env s).2 := by
  cases op with
  | store op => exact h.step henv hok
  | column op =>
    cases op with
    | fop tbl fld strOpSpec => exact h.fop henv tbl fld strOpSpec
    | fToS tbl fld strOpSpec => exact confined_fToSCmd tbl fld strOpSpec s h
    | sortf1f2 tbl f1 f2 strOpSpec => exact h.sortf1f2 b.pairSort tbl f1 f2 strOpSpec
    | rngSort t1 f1 mode t2 lb ub => exact h.rngSort t1 f1 mode t2 lb ub

end Datacl
