import Datacl.Order.TruthfulCopy

/-!
# The recorded order along a run
-/

namespace Datacl

/-- The operations that set or rely on the recorded order. -/
inductive SortOp where
  | sortf1f2 (tbl f1 f2 strOpSpec : Name)
  | copyFldRanges (t1 f1 : Name) (rng : RangeArg) (t2 : Name)
  | rngSort (t1 f1 mode t2 lb ub : Name)
  | t1f1t2f2opt3f3 (t1 f1 t2 f2 : Name) (op : SetOp) (t3 f3 : Name)
  | appFld (t1 fld t2 : Name)

def SortOp.exec (env : Env) (q : PairSort) : SortOp → Cmd Store Unit
  | .sortf1f2 tbl f1 f2 strOpSpec => Datacl.sortf1f2 env q tbl f1 f2 strOpSpec
  | .copyFldRanges t1 f1 rng t2 => Datacl.copyFldRanges env t1 f1 rng t2
  | .rngSort t1 f1 mode t2 lb ub => Datacl.rngSort env t1 f1 mode t2 lb ub
  | .t1f1t2f2opt3f3 t1 f1 t2 f2 op t3 f3 => Datacl.t1f1t2f2opt3f3 env t1 f1 t2 f2 op t3 f3
  | .appFld t1 fld t2 => appTblFld env t1 fld t2

/-- The condition on a step. `app_fld` has none: it forgets the order. -/
def Careful (env : Env) (s : Store) : SortOp → Prop
  | .sortf1f2 tbl f1 f2 strOpSpec => DragOk s tbl f1 f2 strOpSpec
  | .copyFldRanges t1 f1 rng _ => CopyOk env s t1 f1 rng
  | .rngSort t1 f1 mode t2 lb ub => RangeSortOk env s t1 f1 mode t2 lb ub
  | .t1f1t2f2opt3f3 t1 f1 t2 f2 op _ _ => UnionOk s t1 f1 t2 f2 op
  | .appFld _ _ _ => True

/-- One step keeps the invariant. -/
lemma SortInv.step {env : Env} {q : PairSort} {s s' : Store} (h : SortInv [] s) {op : SortOp}
    (hok : Careful env s op) (hrun : op.exec env q s = (some (), s')) : SortInv [] s' := by
  cases op with
  | sortf1f2 tbl f1 f2 strOpSpec => exact h.sortf1f2 hok hrun
  | copyFldRanges t1 f1 rng t2 => exact h.copyFldRanges hok hrun
  | rngSort t1 f1 mode t2 lb ub => exact h.rngSort hok hrun
  | t1f1t2f2opt3f3 t1 f1 t2 f2 op t3 f3 => exact h.t1f1t2f2opt3f3 hok hrun
  | appFld t1 fld t2 => exact h.appTblFld hrun

/-- In every run of careful steps from a truthful state whose fields have files of their own the
recorded order stays true. -/
theorem truthful_of_reach (env : Env) (q : PairSort) (s₀ s : Store) (h₀ : SortInv [] s₀)
    (h : Cmd.Reach (SortOp.exec env q) (Careful env) s₀ s) : Truthful s := by
  have hinv : SortInv [] s :=
    Cmd.Reach.invariant (fun _ _ _ hs hok hrun => hs.step hok hrun) h₀ h
  exact fun i => hinv.truthful i List.not_mem_nil

/-- Pairs in the order of their first components. -/
def SortDir.lePair (d : SortDir) (p q : Int × Int) : Prop := d.le p.1 q.1

instance (d : SortDir) : DecidableRel d.lePair := fun p q => inferInstanceAs (Decidable (d.le p.1 q.1))

instance (d : SortDir) : Std.Total d.lePair :=
  ⟨fun p q => by cases d <;> exact Int.le_total _ _⟩

instance (d : SortDir) : IsTrans (Int × Int) d.lePair := ⟨fun _ _ _ => SortDir.le_trans⟩

/-- A sort that does not touch pairs that are in order. -/
def stablePairSort : PairSort where
  sort d ps := ps.insertionSort d.lePair
  perm d ps := List.perm_insertionSort d.lePair ps
  sorted d ps := List.pairwise_insertionSort d.lePair ps

/-- One directory, and a name hashes to its length. -/
def oneDir : Env := ⟨List.length, [true], fun _ => some 0⟩

def intColumn (name : Name) (fileno : Int) : FldRec :=
  { zeroFldRec with
    tblId := 0
    ddirId := 0
    fileno := fileno
    filesz := 8
    fldtype := .I4
    name := name }

/-- A table `T` with columns `a` and `b` of two rows whose order is not known. -/
def twoColumns (a b : List Int) : Store where
  tbls := [⟨2, false, ['T'], .regular⟩, zeroTblRec]
  flds := [intColumn ['a'] 1, intColumn ['b'] 2, zeroFldRec]
  info := []
  nextFileno := 3
  disk := fun d n =>
    if d = 0 ∧ n = 1 then some ⟨4, a⟩ else if d = 0 ∧ n = 2 then some ⟨4, b⟩ else none

lemma twoColumns_used {a b : List Int} {i : Nat} (h : ((twoColumns a b).fld i).Used) :
    (i = 0 ∧ (twoColumns a b).fld i = intColumn ['a'] 1) ∨
      (i = 1 ∧ (twoColumns a b).fld i = intColumn ['b'] 2) := by
  match i with
  | 0 => exact .inl ⟨rfl, rfl⟩
  | 1 => exact .inr ⟨rfl, rfl⟩
  | 2 => exact absurd rfl h
  | i + 3 => exact absurd rfl h

lemma sortInv_twoColumns {a b : List Int} (ha : ∀ x ∈ a, InBits 32 x) (hb : ∀ x ∈ b, InBits 32 x) :
    SortInv [] (twoColumns a b) := by
  constructor
  · intro i _ hused f _
    apply FldRec.ordered_unknown
    rcases twoColumns_used hused with ⟨-, h⟩ | ⟨-, h⟩ <;> rw [h] <;> rfl
  · intro i j hi hj _ hn
    rcases twoColumns_used hi with ⟨rfl, h⟩ | ⟨rfl, h⟩ <;>
      rcases twoColumns_used hj with ⟨rfl, h'⟩ | ⟨rfl, h'⟩ <;>
      simp_all [intColumn]
  · intro i hi
    rcases twoColumns_used hi with ⟨-, h⟩ | ⟨-, h⟩ <;> rw [h] <;> simp [intColumn, twoColumns]
  · intro i hi f hf _
    rcases twoColumns_used hi with ⟨-, h⟩ | ⟨-, h⟩
    · rw [h] at hf ⊢
      obtain rfl := Option.some.inj hf
      exact ⟨rfl, ha⟩
    · rw [h] at hf ⊢
      obtain rfl := Option.some.inj hf
      exact ⟨rfl, hb⟩

/-- The store after a run on the two columns. -/
def columnsAfter (a b : List Int) (ops : List SortOp) : Store :=
  (Cmd.run (SortOp.exec oneDir stablePairSort) (twoColumns a b) ops).getD (twoColumns a b)

lemma run_columnsAfter {a b : List Int} {ops : List SortOp}
    (h : (Cmd.run (SortOp.exec oneDir stablePairSort) (twoColumns a b) ops).isSome = true) :
    Cmd.run (SortOp.exec oneDir stablePairSort) (twoColumns a b) ops = some (columnsAfter a b ops) := by
  obtain ⟨s, hs⟩ := Option.isSome_iff_exists.mp h
  rw [columnsAfter, hs, Option.getD_some]

/-- Sorting `a` with `b` dragged along and copying a row of `a` to a new table. -/
theorem truthful_of_reach_sort_copy :
    ∃ s, Cmd.Reach (SortOp.exec oneDir stablePairSort) (Careful oneDir) (twoColumns [2, 1] [5, 3]) s ∧
      (column s ['U'] ['a']).map (fun c => c.1.srttype) = some .ascending ∧ Truthful s := by
  have hsort : Careful oneDir (twoColumns [2, 1] [5, 3]) (.sortf1f2 ['T'] ['a'] ['b'] ['A', '_']) := by
    intro dir r1 x1 r2 x2 _ _ hb d hd
    have hr2 : r2 = intColumn ['b'] 2 := (Prod.ext_iff.mp (Option.some.inj hb)).1.symm
    rw [hr2] at hd
    exact absurd hd d.unknown_ne
  have hreach₁ : Cmd.Reach (SortOp.exec oneDir stablePairSort) (Careful oneDir)
      (twoColumns [2, 1] [5, 3])
      (columnsAfter [2, 1] [5, 3] [.sortf1f2 ['T'] ['a'] ['b'] ['A', '_']]) :=
    .single ⟨_, hsort, Cmd.run_singleton_eq_some.mp (run_columnsAfter (by decide +kernel))⟩
  have hcopy : Careful oneDir (columnsAfter [2, 1] [5, 3] [.sortf1f2 ['T'] ['a'] ['b'] ['A', '_']])
      (.copyFldRanges ['T'] ['a'] (.rows 0 1) ['U']) := by
    intro r x ranges _ hranges d _
    have hsingle : ranges = [(0, 1)] := (Cmd.pure_eq_some.mp hranges).1
    rw [hsingle]
    exact List.pairwise_singleton _ _
  have hreach := hreach₁.tail
    ⟨.copyFldRanges ['T'] ['a'] (.rows 0 1) ['U'], hcopy, Prod.ext (by decide +kernel) rfl⟩
  exact ⟨_, hreach, by decide +kernel, truthful_of_reach oneDir stablePairSort _ _
    (sortInv_twoColumns (by decide) (by decide)) hreach⟩

/-- Sorting `b` and then `a` with `b` dragged along leaves `b` recorded as ascending, with the
cells 2 and 1. -/
theorem sortf1f2_drags_sorted_column :
    SortInv [] (twoColumns [1, 2] [2, 1]) ∧
      ∃ s, Cmd.Reach (SortOp.exec oneDir stablePairSort) (fun _ _ => True)
        (twoColumns [1, 2] [2, 1]) s ∧ ¬ Truthful s := by
  refine ⟨sortInv_twoColumns (by decide) (by decide), columnsAfter [1, 2] [2, 1]
    [.sortf1f2 ['T'] ['b'] ['a'] ['A', '_'], .sortf1f2 ['T'] ['a'] ['b'] ['A', '_']],
    Cmd.reach_of_run (fun _ _ _ => trivial) (run_columnsAfter (by decide +kernel)), ?_⟩
  intro htrue
  have hb := htrue 1 (by decide +kernel) ⟨4, [2, 1]⟩ (by decide +kernel) .asc (by decide +kernel)
  revert hb
  decide +kernel

end Datacl
