import Datacl.Compound.ExprTotals

/-!
# A run of a compound expression is a run of a program on rows
-/

namespace Datacl

/-- The program of all statements. -/
def progOf (rt : Runtime) (exprs : List (CompExpr CompFld × Nat)) :
    List (RowProgram.Stmt Int PartSum) :=
  exprs.flatMap (CompExpr.prog rt)

/-- What a run needs of its surroundings: cores, and hash values of 64 bits. -/
structure Runtime.Ok (rt : Runtime) : Prop where
  cores : 1 ≤ rt.numCores ∧ rt.numCores ≤ 1024
  hash : ∀ w v seed, IntType.I8.InRange (rt.hash w v seed)

section

variable {rt : Runtime} {lb n : Nat}

/-! ### Every cell is a number of 64 bits -/

lemma yields_nnPart (fs : List CompFld) (f : CompFld) :
    ∀ st ∈ nnPart fs f, st.Yields IntType.I8.InRange := by
  unfold nnPart
  split
  · intro st hst
    cases hst
  · intro st hst
    obtain rfl := List.mem_singleton.mp hst
    intro args a hargs ha
    rw [← Option.some.inj ha]
    exact RowProgram.forall_getD (by decide) hargs 0
  · intro st hst
    obtain rfl := List.mem_singleton.mp hst
    intro args a _ ha
    rw [← Option.some.inj ha]
    exact inRange_cmpFlag .I8 _

/-- The cells that a statement writes are numbers of 64 bits. -/
lemma yields_prog (hrt : rt.Ok) {e : CompExpr CompFld} (h : e.Supported rt) (i : Nat) :
    ∀ st ∈ CompExpr.prog rt (e, i), st.Yields IntType.I8.InRange := by
  have hlast : ∀ (fs : List CompFld) (f : CompFld) (last : RowProgram.Stmt Int PartSum),
      last.Yields IntType.I8.InRange → ∀ st ∈ nnPart fs f ++ [last], st.Yields IntType.I8.InRange := by
    intro fs f last hlast st hst
    rcases List.mem_append.mp hst with hst | hst
    · exact yields_nnPart fs f st hst
    · rwa [List.mem_singleton.mp hst]
  cases e with
  | f1s1opf2 f1 scalars op f2 =>
    obtain ⟨-, -, sc, hsc, hacc⟩ := h
    obtain ⟨t', ht'⟩ := FldOp.exists_scalarType hacc
    refine hlast _ _ _ fun args a _ ha => ?_
    dsimp only at ha
    rw [hsc, Option.bind_some] at ha
    exact inRange_I8 (FldOp.scalarRow_inRange ht' ha)
  | f1f2opf3 f1 f2 op f3 =>
    obtain ⟨t', ht'⟩ := FldOp.exists_pairType h.2.2
    exact hlast _ _ _ fun args a _ ha => inRange_I8 (FldOp.row_inRange ht' ha)
  | f1opf2 f1 op f2 =>
    refine hlast _ _ _ fun args a _ ha => ?_
    rw [← Option.some.inj ha]
    exact UnOp.row_inRange hrt.hash _
  | fToS f1 op envVar =>
    intro st hst
    rw [List.mem_singleton.mp hst]
    trivial

/-! ### Statements, blocks and the run -/

/-- A statement on a block. -/
lemma execExpr_eq (hrt : rt.Ok) {e : CompExpr CompFld} (h : e.Supported rt) (i : Nat)
    {st : RowProgram.State Int PartSum} (hfits : MemFits st.mem) (h0 : 0 < n) (hmax : n < 2 ^ 31)
    (ok : Bool) :
    execExpr rt lb n ⟨st, ok⟩ (e, i) =
      ((CompExpr.prog rt (e, i)).foldlM (RowProgram.execStmt isTempBuf lb n) st).map
        fun st => ⟨st, true⟩ := by
  cases e with
  | f1s1opf2 f1 scalars op f2 => exact execExpr_f1s1opf2 i h h0 hmax
  | f1f2opf3 f1 f2 op f3 => exact execExpr_f1f2opf3 i h h0 hmax
  | f1opf2 f1 op f2 => exact execExpr_f1opf2 i h h0 hmax
  | fToS f1 op envVar => exact execExpr_fToS i hfits hrt.cores h0 hmax

lemma memFits_run {p : List (RowProgram.Stmt Int PartSum)}
    (hp : ∀ st ∈ p, st.Yields IntType.I8.InRange) {st st' : RowProgram.State Int PartSum}
    (hfits : MemFits st.mem) (hrun : p.foldlM (RowProgram.execStmt isTempBuf lb n) st = some st') :
    MemFits st'.mem :=
  RowProgram.foldlM_execStmt_forall (by decide) hp hfits hrun

/-- All statements on a block. -/
lemma foldlM_execExpr (hrt : rt.Ok) {exprs : List (CompExpr CompFld × Nat)}
    (h : ∀ e ∈ exprs, e.1.Supported rt) {st : RowProgram.State Int PartSum} (hfits : MemFits st.mem)
    (h0 : 0 < n) (hmax : n < 2 ^ 31) :
    exprs.foldlM (execExpr rt lb n) ⟨st, true⟩ =
      ((progOf rt exprs).foldlM (RowProgram.execStmt isTempBuf lb n) st).map fun st => ⟨st, true⟩ := by
  induction exprs generalizing st with
  | nil => rfl
  | cons e exprs ih =>
    rw [List.forall_mem_cons] at h
    have hprog : progOf rt (e :: exprs) = CompExpr.prog rt e ++ progOf rt exprs := List.flatMap_cons
    rw [List.foldlM_cons, execExpr_eq hrt h.1 e.2 hfits h0 hmax, hprog, List.foldlM_append]
    cases hst : (CompExpr.prog rt (e.1, e.2)).foldlM (RowProgram.execStmt isTempBuf lb n) st with
    | none => rfl
    | some st' =>
      exact ih h.2 (memFits_run (yields_prog hrt h.1 e.2) hfits hst)

lemma yields_progOf (hrt : rt.Ok) {exprs : List (CompExpr CompFld × Nat)}
    (h : ∀ e ∈ exprs, e.1.Supported rt) : ∀ st ∈ progOf rt exprs, st.Yields IntType.I8.InRange := by
  intro st hst
  obtain ⟨e, he, hst⟩ := List.mem_flatMap.mp hst
  exact yields_prog hrt (h e he) e.2 st hst

/-- All blocks. -/
lemma foldlM_blocks (hrt : rt.Ok) {exprs : List (CompExpr CompFld × Nat)}
    (h : ∀ e ∈ exprs, e.1.Supported rt) {blocks : List (Nat × Nat)}
    (hblocks : ∀ b ∈ blocks, 0 < b.2 ∧ b.2 < 2 ^ 31) {st : RowProgram.State Int PartSum}
    (hfits : MemFits st.mem) :
    blocks.foldlM (fun s b => exprs.foldlM (execExpr rt b.1 b.2) s) (CompState.mk st true) =
      (RowProgram.execBlocks isTempBuf (progOf rt exprs) blocks st).map fun st => ⟨st, true⟩ := by
  induction blocks generalizing st with
  | nil => rfl
  | cons b blocks ih =>
    rw [List.forall_mem_cons] at hblocks
    rw [List.foldlM_cons, foldlM_execExpr hrt h hfits hblocks.1.1 hblocks.1.2,
      RowProgram.execBlocks, List.foldlM_cons, RowProgram.execBlock]
    cases hst : (progOf rt exprs).foldlM (RowProgram.execStmt isTempBuf b.1 b.2) st with
    | none => rfl
    | some st' =>
      exact ih hblocks.2 (memFits_run (yields_progOf hrt h) hfits hst)

end

/-! ### The blocks of `exec_comp_expr` -/

lemma tiles_blockRange {N B : Nat} {f : Nat → Nat × Nat} {n k : Nat}
    (h : ∀ b < n, (f (k + b)).1 = B * (k + b) ∧
      (f (k + b)).1 + (f (k + b)).2 = if b + 1 = n then N else B * (k + b + 1)) (hn : n = 0 → B * k = N) :
    RowProgram.Tiles N (B * k) ((List.range' k n).map f) := by
  induction n generalizing k with
  | zero => exact hn rfl
  | succ n ih =>
    rw [List.range'_succ, List.map_cons]
    have h0 := h 0 (Nat.succ_pos n)
    rw [Nat.add_zero] at h0
    refine ⟨h0.1, ?_⟩
    by_cases hn0 : n = 0
    · subst hn0
      rw [h0.1] at h0
      have hend := h0.2
      rw [if_pos rfl] at hend
      exact hend
    · have hend := h0.2
      rw [if_neg (by omega), h0.1] at hend
      rw [hend]
      refine ih (fun b hb => ?_) fun hzero => absurd hzero hn0
      have hb' := h (b + 1) (by omega)
      rw [show k + (b + 1) = k + 1 + b by omega] at hb'
      refine ⟨hb'.1, hb'.2.trans ?_⟩
      by_cases hlast : b + 1 = n
      · rw [if_pos hlast, if_pos (by omega)]
      · rw [if_neg hlast, if_neg (by omega)]

/-- The blocks follow each other and have fewer than `2 * COMP_EXPR_BLOCK_SIZE` rows. -/
lemma compBlocks_eq {nR : Nat} (h0 : 0 < nR) (hmax : nR < 2 ^ 31) :
    ∃ blocks, compBlocks nR = some blocks ∧ RowProgram.Tiles nR 0 blocks ∧
      ∀ b ∈ blocks, 0 < b.2 ∧ b.2 ≤ 2 * compExprBlockSize := by
  unfold compBlocks numCompBlocks compExprBlockSize
  obtain ⟨n, hn⟩ : ∃ n, max 1 (nR / 1048576) = n := ⟨_, rfl⟩
  have hn1 : 1 ≤ n := by omega
  have hlast : 1048576 * (n - 1) < nR := by omega
  refine ⟨(List.range n).map fun b =>
    (1048576 * b, if b + 1 = n then nR - 1048576 * b else 1048576), ?_, ?_, ?_⟩
  · rw [if_pos (by omega), hn, Option.bind_eq_bind, Option.bind_some, if_neg (by omega)]
    rfl
  · rw [List.range_eq_range']
    refine tiles_blockRange (B := 1048576) (k := 0) (fun b hb => ?_) (by omega)
    rw [Nat.zero_add]
    refine ⟨rfl, ?_⟩
    split_ifs with hb1
    · dsimp only
      have hb' : b = n - 1 := by omega
      rw [hb']
      omega
    · rfl
  · intro b hb
    obtain ⟨i, hi, rfl⟩ := List.mem_map.mp hb
    have hi := List.mem_range.mp hi
    dsimp only
    split_ifs with hi1
    · have hi' : i = n - 1 := by omega
      rw [hi']
      omega
    · omega

/-- `exec_comp_expr` is a run of the program. -/
theorem execCompExpr_eq {rt : Runtime} (hrt : rt.Ok) {exprs : List (CompExpr CompFld)}
    (h : ∀ e ∈ exprs, e.Supported rt) {nR : Nat} {blocks : List (Nat × Nat)}
    (hblocks : compBlocks nR = some blocks)
    (hsize : ∀ b ∈ blocks, 0 < b.2 ∧ b.2 ≤ 2 * compExprBlockSize)
    {st : RowProgram.State Int PartSum} (hfits : MemFits st.mem) :
    execCompExpr rt exprs nR ⟨st, true⟩ =
      (RowProgram.execBlocks isTempBuf (progOf rt exprs.zipIdx) blocks st).map
        fun st => ⟨st, true⟩ := by
  rw [execCompExpr, hblocks, Option.bind_eq_bind, Option.bind_some]
  refine foldlM_blocks hrt (fun e he => ?_) (fun b hb => ?_) hfits
  · exact h e.1 (List.fst_mem_of_mem_zipIdx he)
  · have hb := hsize b hb
    have hsize : compExprBlockSize = 1048576 := rfl
    omega

end Datacl
