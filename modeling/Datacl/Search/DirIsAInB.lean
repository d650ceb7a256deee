import Datacl.Search.Blocks

/-!
# Membership with a directory: `dir_is_a_in_b.c`

Both columns ascend, so the scan of the directory goes on at the block where the row before has stopped.
A value that lies between two blocks moves it to the last block, and all later rows look there only.
-/

namespace Datacl

/-- A row of the directory. -/
structure DirRow where
  lbVal : Int
  ubVal : Int
  lbIdx : Nat
  ubIdx : Nat

/-- The columns `f1` and `f2` and the directory. -/
structure DirArgs where
  f1 : List Int
  f2 : List Int
  dir : List DirRow

/-- The scan of the directory from block `j` on: `t3_start`, and `t2lb` and `t2ub` if a block is found. -/
def dirScan (nR2 : Nat) (minval maxval f1val : Int) : Nat → List DirRow → Nat → Nat × Option (Nat × Nat)
  | _, [], t3Start => (t3Start, none)
  | j, row :: dir, t3Start =>
    if f1val < minval then (t3Start, none)
    else if maxval < f1val then (t3Start, none)
    else if row.lbVal ≤ f1val ∧ f1val ≤ row.ubVal then (j, some (row.lbIdx, min row.ubIdx nR2))
    else dirScan nR2 minval maxval f1val (j + 1) dir j

/-- One row: `t3_start` and the flag. -/
def dirRow (f2 : List Int) (dir : List DirRow) (minval maxval : Int) (t3Start : Nat) (f1val : Int) :
    Option (Nat × Bool) :=
  match dirScan f2.length minval maxval f1val t3Start (dir.drop t3Start) t3Start with
  | (t3Start', none) => some (t3Start', false)
  | (t3Start', some (t2lb, t2ub)) =>
    (binSearch ((f2.drop t2lb).take (t2ub - t2lb)) f1val .dontcare).map fun pos =>
      (t3Start', decide (0 ≤ pos))

/-- The rows of `f1`. -/
def dirLoop (f2 : List Int) (dir : List DirRow) (minval maxval : Int) :
    Nat → List Int → Option (List Bool)
  | _, [] => some []
  | t3Start, f1val :: f1 =>
    (dirRow f2 dir minval maxval t3Start f1val).bind fun (t3Start', flag) =>
      (dirLoop f2 dir minval maxval t3Start' f1).map (flag :: ·)

/-- `dir_is_a_in_b`: the flags. The tables are not empty. -/
def dirIsAInB (args : DirArgs) : Option (List Bool) :=
  if args.f1 = [] ∨ args.f2 = [] then none
  else
    match args.dir.head?, args.dir.getLast? with
    | some first, some last => dirLoop args.f2 args.dir first.lbVal last.ubVal 0 args.f1
    | _, _ => none

/-! ### Directories -/

/-- The directory of consecutive blocks, the first of which begins at `lb`. -/
def directory : Nat → List Block → List DirRow
  | _, [] => []
  | lb, b :: blocks =>
    ⟨b.lbVal, b.ubVal, lb, lb + b.vals.length⟩ :: directory (lb + b.vals.length) blocks

/-- The value lies between two blocks. -/
def InHole (blocks : List Block) (v : Int) : Prop :=
  (∃ b ∈ blocks, b.lbVal ≤ v) ∧ (∃ b ∈ blocks, v ≤ b.ubVal) ∧ ∀ b ∈ blocks, ¬ b.Covers v

/-- After a value between two blocks only values of the last block occur in the column. -/
def NoHoleBefore (blocks : List Block) (f1 : List Int) : Prop :=
  f1.Pairwise fun u v => InHole blocks u → v ∈ valsOf blocks → ∃ b, blocks.getLast? = some b ∧ v ∈ b.vals

section

variable {blocks pre mid post : List Block} {b b' : Block} {v u minval maxval : Int} {f2 f1 : List Int}
  {lb j t3Start nR2 : Nat}

/-! ### Scanning the directory -/

lemma drop_directory (blocks : List Block) (n lb : Nat) :
    (directory lb blocks).drop n = directory (lb + (valsOf (blocks.take n)).length) (blocks.drop n) := by
  induction blocks generalizing n lb with
  | nil => simp [directory]
  | cons b blocks ih =>
    cases n with
    | zero => rfl
    | succ n =>
      rw [directory, List.drop_succ_cons, ih, List.take_succ_cons, List.drop_succ_cons, Nat.add_assoc]
      congr 1
      simp [valsOf]

/-- Blocks that do not cover the value are passed. -/
lemma dirScan_append (hmin : minval ≤ v) (hmax : v ≤ maxval) (hmid : ∀ b ∈ mid, ¬ b.Covers v) :
    dirScan nR2 minval maxval v j (directory lb (mid ++ post)) t3Start =
      dirScan nR2 minval maxval v (j + mid.length) (directory (lb + (valsOf mid).length) post)
        (if mid = [] then t3Start else j + mid.length - 1) := by
  induction mid generalizing j lb t3Start with
  | nil => rfl
  | cons b mid ih =>
    rw [List.forall_mem_cons] at hmid
    have hcol : (valsOf (b :: mid)).length = b.vals.length + (valsOf mid).length := List.length_append
    have hnot : ¬ (b.lbVal ≤ v ∧ v ≤ b.ubVal) := hmid.1
    rw [List.cons_append, directory, dirScan, if_neg (by omega), if_neg (by omega), if_neg hnot, ih hmid.2, hcol, List.length_cons, Nat.add_assoc, Nat.add_comm 1, Nat.add_assoc]
    congr 1
    cases mid with
    | nil => rfl
    | cons b' mid => simp

/-- The part of the column that a row of the directory describes. -/
lemma take_drop_valsOf (pre : List Block) (b : Block) (post : List Block) :
    (((valsOf (pre ++ b :: post)).drop (valsOf pre).length).take
      (min ((valsOf pre).length + b.vals.length) (valsOf (pre ++ b :: post)).length -
        (valsOf pre).length)) = b.vals := by
  have hcol : valsOf (pre ++ b :: post) = valsOf pre ++ (b.vals ++ valsOf post) := valsOf_append
  rw [hcol, List.drop_left, List.length_append, List.length_append, Nat.min_eq_left (by omega),
    Nat.add_sub_cancel_left, List.take_left]

/-- The flag of a search in a block. -/
lemma search_block (hb : b.vals.Pairwise (· ≤ ·)) :
    (binSearch b.vals v .dontcare).map (fun pos => (j, decide (0 ≤ pos))) =
      some (j, decide (v ∈ b.vals)) := by
  obtain ⟨pos, hrun, hfound⟩ := binSearch_dontcare v hb b.ne_nil
  rw [hrun, Option.map_some]
  obtain ⟨rfl, hnot⟩ | ⟨p, rfl, hp⟩ := hfound
  · rw [decide_eq_false hnot]
    rfl
  · rw [decide_eq_true (List.mem_of_getElem? hp), decide_eq_true (Int.natCast_nonneg p)]

section

variable (hmin : minval ≤ v) (hmax : v ≤ maxval)
include hmin hmax

/-- The first block from `t3_start` on that covers the value. -/
lemma dirRow_found (pre mid post : List Block)
    (hf2 : (valsOf (pre ++ (mid ++ b :: post))).Pairwise (· ≤ ·))
    (hmid : ∀ b ∈ mid, ¬ b.Covers v) (hb : b.Covers v) :
    dirRow (valsOf (pre ++ (mid ++ b :: post))) (directory 0 (pre ++ (mid ++ b :: post))) minval maxval
        pre.length v = some (pre.length + mid.length, decide (v ∈ b.vals)) := by
  have hcov : b.lbVal ≤ v ∧ v ≤ b.ubVal := hb
  have hlb : 0 + (valsOf pre).length + (valsOf mid).length = (valsOf (pre ++ mid)).length := by
    rw [valsOf_append, List.length_append, Nat.zero_add]
  have hscan : dirScan (valsOf (pre ++ (mid ++ b :: post))).length minval maxval v pre.length
      ((directory 0 (pre ++ (mid ++ b :: post))).drop pre.length) pre.length =
      (pre.length + mid.length, some ((valsOf (pre ++ mid)).length,
        min ((valsOf (pre ++ mid)).length + b.vals.length) (valsOf (pre ++ (mid ++ b :: post))).length)) := by
    rw [drop_directory, List.take_left, List.drop_left, dirScan_append hmin hmax hmid, directory, dirScan,
      if_neg (by omega), if_neg (by omega), if_pos hcov, hlb]
  have hslice := take_drop_valsOf (pre ++ mid) b post
  rw [List.append_assoc] at hslice
  rw [dirRow, hscan]
  dsimp only
  rw [hslice]
  exact search_block (block_sorted hf2 (by simp))

/-- No block from `t3_start` on covers the value. -/
lemma dirRow_hole (f2 : List Int) (pre : List Block) (hpost : post ≠ []) (hnot : ∀ b ∈ post, ¬ b.Covers v) :
    dirRow f2 (directory 0 (pre ++ post)) minval maxval pre.length v =
      some (pre.length + post.length - 1, false) := by
  have hscan : dirScan f2.length minval maxval v pre.length
      (directory (0 + (valsOf pre).length) (post ++ [])) pre.length = _ := dirScan_append hmin hmax hnot
  rw [List.append_nil] at hscan
  rw [dirRow, drop_directory, List.take_left, List.drop_left, hscan, directory, dirScan, if_neg hpost]

end

/-- A value outside of the overall range. -/
lemma dirRow_outside (hout : v < minval ∨ maxval < v) (hlt : t3Start < blocks.length) :
    dirRow f2 (directory 0 blocks) minval maxval t3Start v = some (t3Start, false) := by
  have hne : blocks.drop t3Start ≠ [] := by
    rw [Ne, List.drop_eq_nil_iff]
    omega
  obtain ⟨b, post, hpost⟩ := List.exists_cons_of_ne_nil hne
  rw [dirRow, drop_directory, hpost, directory, dirScan]
  by_cases hlow : v < minval
  · rw [if_pos hlow]
  · rw [if_neg hlow, if_pos (hout.resolve_left hlow)]

/-! ### The rows -/

/-- `minval` and `maxval` are the bounds of all blocks. -/
structure Overall (blocks : List Block) (minval maxval : Int) : Prop where
  sorted : (valsOf blocks).Pairwise (· ≤ ·)
  min_le : ∀ b ∈ blocks, minval ≤ b.lbVal
  le_max : ∀ b ∈ blocks, b.ubVal ≤ maxval
  exists_min : ∃ b ∈ blocks, b.lbVal = minval
  exists_max : ∃ b ∈ blocks, b.ubVal = maxval

/-- If a block below `t3_start` covers the value, then the block at `t3_start` does too. -/
def Resumes (blocks : List Block) (t3Start : Nat) (v : Int) : Prop :=
  (∃ b ∈ blocks, b.Covers v) → ∃ b ∈ blocks.drop t3Start, b.Covers v

lemma Overall.not_outside (h : Overall blocks minval maxval) (hb : b ∈ blocks) (hv : b.Covers v) :
    ¬ (v < minval ∨ maxval < v) := by
  have hmin := h.min_le b hb
  have hmax := h.le_max b hb
  have hlb := hv.1
  have hub := hv.2
  omega

lemma Overall.not_mem (h : Overall blocks minval maxval) (hnot : ∀ b ∈ blocks, ¬ b.Covers v) :
    v ∉ valsOf blocks := by
  intro hv
  obtain ⟨b, hb, hmem⟩ := mem_valsOf_iff.mp hv
  exact hnot b hb (Block.covers_of_mem (block_sorted h.sorted hb) hmem)

/-- What a row does: nothing outside of the overall range, it finds the first block that covers the
value, or it goes to the last block. -/
lemma dirRow_cases (h : Overall blocks minval maxval) (hlt : t3Start < blocks.length)
    (hresume : Resumes blocks t3Start v) :
    ∃ t3Start' < blocks.length, dirRow (valsOf blocks) (directory 0 blocks) minval maxval t3Start v =
        some (t3Start', decide (v ∈ valsOf blocks)) ∧
      ((¬ InHole blocks v ∧ t3Start' = t3Start) ∨
        (¬ InHole blocks v ∧ ∃ pre b post, blocks = pre ++ b :: post ∧ pre.length = t3Start' ∧ b.Covers v) ∨
        (InHole blocks v ∧ t3Start' = blocks.length - 1)) := by
  by_cases hcov : ∃ b ∈ blocks.drop t3Start, b.Covers v
  · -- the first block from here on
    obtain ⟨c, hc, hcv⟩ := hcov
    have hsome : ((blocks.drop t3Start).find? fun b => b.Covers v).isSome :=
      List.find?_isSome.mpr ⟨c, hc, decide_eq_true hcv⟩
    obtain ⟨b, hfind⟩ := Option.isSome_iff_exists.mp hsome
    obtain ⟨hb, mid, post, hdrop, hmid⟩ := List.find?_eq_some_iff_append.mp hfind
    have hb' : b.Covers v := of_decide_eq_true hb
    have hmid' : ∀ b ∈ mid, ¬ b.Covers v := fun b hb => by simpa using hmid b hb
    have hblocks : blocks = blocks.take t3Start ++ (mid ++ b :: post) := by
      rw [← hdrop, List.take_append_drop]
    have hlen : (blocks.take t3Start).length = t3Start := by
      rw [List.length_take]
      omega
    have hmemb : b ∈ blocks := by
      rw [hblocks]
      simp
    have hin := h.not_outside hmemb hb'
    have hrow := dirRow_found (show minval ≤ v by omega) (show v ≤ maxval by omega)
      (blocks.take t3Start) mid post (hblocks ▸ h.sorted) hmid' hb'
    rw [← hblocks, hlen] at hrow
    have hsplit : blocks = (blocks.take t3Start ++ mid) ++ b :: post := by rw [List.append_assoc, ← hblocks]
    have hsorted := h.sorted
    rw [hsplit] at hsorted
    have hiff := mem_valsOf_iff_of_covers hsorted hb'
    rw [← hsplit] at hiff
    refine ⟨t3Start + mid.length, ?_, ?_, .inr (.inl ⟨fun hole => hole.2.2 b hmemb hb', _, b, post, hsplit, ?_, hb'⟩)⟩
    · rw [hsplit]
      simp only [List.length_append, List.length_cons, hlen]
      omega
    · rw [hrow, decide_eq_decide.mpr hiff]
    · rw [List.length_append, hlen]
  · have hnot : ∀ b ∈ blocks, ¬ b.Covers v := fun b hb hv => hcov (hresume ⟨b, hb, hv⟩)
    rw [decide_eq_false (h.not_mem hnot)]
    by_cases hout : v < minval ∨ maxval < v
    · refine ⟨t3Start, hlt, dirRow_outside hout hlt, .inl ⟨?_, rfl⟩⟩
      rintro ⟨⟨b, hb, hle⟩, ⟨b', hb', hge⟩, -⟩
      have hmin := h.min_le b hb
      have hmax := h.le_max b' hb'
      omega
    · have hblocks : blocks.take t3Start ++ blocks.drop t3Start = blocks := List.take_append_drop _ _
      have hlen : (blocks.take t3Start).length = t3Start := by
        rw [List.length_take]
        omega
      have hrow := dirRow_hole (show minval ≤ v by omega) (show v ≤ maxval by omega) (valsOf blocks)
        (blocks.take t3Start) (show blocks.drop t3Start ≠ [] by rw [Ne, List.drop_eq_nil_iff]; omega) fun b hb => hnot b (List.mem_of_mem_drop hb)
      rw [hblocks, hlen, List.length_drop, Nat.add_sub_cancel' hlt.le] at hrow
      obtain ⟨b, hb, hmin⟩ := h.exists_min
      obtain ⟨b', hb', hmax⟩ := h.exists_max
      exact ⟨blocks.length - 1, by omega, hrow,
        .inr (.inr ⟨⟨⟨b, hb, by omega⟩, ⟨b', hb', by omega⟩, hnot⟩, rfl⟩)⟩

/-- Later rows go on at the block that was found. -/
lemma resumes_of_covers (hf2 : (valsOf (pre ++ b :: post)).Pairwise (· ≤ ·)) (hv : b.Covers v) (huv : v ≤ u) :
    Resumes (pre ++ b :: post) pre.length u := by
  rintro ⟨c, hc, hcu⟩
  rw [List.drop_left]
  rcases List.mem_append.mp hc with hc | hc
  · have hle := ubVal_le_lbVal hf2 hc
    have hcu' := hcu.2
    obtain ⟨hlb, hub⟩ := hv
    exact ⟨b, List.mem_cons_self, by omega, by omega⟩
  · exact ⟨c, hc, hcu⟩

/-- At the last block a row finds what is in it. -/
lemma dirRow_last (h : Overall (pre ++ [b]) minval maxval) (v : Int) :
    dirRow (valsOf (pre ++ [b])) (directory 0 (pre ++ [b])) minval maxval pre.length v =
      some (pre.length, decide (v ∈ b.vals)) := by
  have hb : b ∈ pre ++ [b] := by simp
  by_cases hcov : b.Covers v
  · have hin := h.not_outside hb hcov
    exact dirRow_found (by omega) (by omega) pre [] [] h.sorted (by simp) hcov
  · have hnot : v ∉ b.vals := fun hv => hcov (Block.covers_of_mem (block_sorted h.sorted hb) hv)
    rw [decide_eq_false hnot]
    by_cases hout : v < minval ∨ maxval < v
    · exact dirRow_outside hout (by simp)
    · exact dirRow_hole (by omega) (by omega) _ pre (List.cons_ne_nil b []) (by simpa using hcov)

lemma dirLoop_last (h : Overall (pre ++ [b]) minval maxval) (f1 : List Int) :
    dirLoop (valsOf (pre ++ [b])) (directory 0 (pre ++ [b])) minval maxval pre.length f1 =
      some (f1.map fun v => decide (v ∈ b.vals)) := by
  induction f1 with
  | nil => rfl
  | cons v f1 ih =>
    rw [dirLoop, dirRow_last h, Option.bind_some]
    dsimp only
    rw [ih]
    rfl

/-- The flags are right exactly if no value of the column is sought behind a hole but in the last
block. -/
lemma dirLoop_right_iff (h : Overall blocks minval maxval) (hlt : t3Start < blocks.length)
    (hf1 : f1.Pairwise (· ≤ ·)) (hresume : ∀ v ∈ f1, Resumes blocks t3Start v) :
    dirLoop (valsOf blocks) (directory 0 blocks) minval maxval t3Start f1 =
        some (f1.map fun v => decide (v ∈ valsOf blocks)) ↔ NoHoleBefore blocks f1 := by
  induction f1 generalizing t3Start with
  | nil => exact iff_of_true rfl List.Pairwise.nil
  | cons v f1 ih =>
    obtain ⟨hle, hf1⟩ := List.pairwise_cons.mp hf1
    obtain ⟨t3Start', hlt', hrow, hcases⟩ := dirRow_cases h hlt (hresume v List.mem_cons_self)
    rw [dirLoop, hrow, Option.bind_some, List.map_cons]
    dsimp only
    have hcons : ∀ run : Option (List Bool),
        run.map (decide (v ∈ valsOf blocks) :: ·) =
            some (decide (v ∈ valsOf blocks) :: f1.map fun v => decide (v ∈ valsOf blocks)) ↔
          run = some (f1.map fun v => decide (v ∈ valsOf blocks)) := by
      intro run
      cases run <;> simp
    rw [hcons, NoHoleBefore, List.pairwise_cons]
    rcases hcases with ⟨hno, rfl⟩ | ⟨hno, pre, b, post, rfl, rfl, hcov⟩ | ⟨hhole, rfl⟩
    · rw [ih hlt' hf1 fun w hw => hresume w (List.mem_cons_of_mem _ hw)]
      exact (and_iff_right fun w _ hhole => absurd hhole hno).symm
    · rw [ih hlt' hf1 fun w hw => resumes_of_covers h.sorted hcov (hle w hw)]
      exact (and_iff_right fun w _ hhole => absurd hhole hno).symm
    · -- from here on only the last block is looked at
      obtain ⟨pre, b, rfl⟩ : ∃ pre b, blocks = pre ++ [b] :=
        ⟨blocks.dropLast, blocks.getLast (List.length_pos_iff.mp (by omega)),
          (List.dropLast_concat_getLast _).symm⟩
      have hlast : (pre ++ [b]).length - 1 = pre.length := by simp
      have hget : ∀ w, (∃ c, (pre ++ [b]).getLast? = some c ∧ w ∈ c.vals) ↔ w ∈ b.vals := by
        intro w
        simp
      have hsub : ∀ w, w ∈ b.vals → w ∈ valsOf (pre ++ [b]) := fun w hw =>
        mem_valsOf_iff.mpr ⟨b, by simp, hw⟩
      rw [hlast, dirLoop_last h, Option.some_inj, List.map_inj_left]
      simp only [hget, decide_eq_decide]
      constructor
      · intro hall
        refine ⟨fun w hw _ hmem => (hall w hw).mpr hmem, List.pairwise_of_forall_mem_list ?_⟩
        exact fun _ _ w hw _ hmem => (hall w hw).mpr hmem
      · rintro ⟨hfirst, -⟩ w hw
        exact ⟨hsub w, hfirst w hw hhole⟩

end

lemma directory_getLast? (b : Block) (pre : List Block) (lb : Nat) :
    ∃ row, (directory lb (pre ++ [b])).getLast? = some row ∧ row.ubVal = b.ubVal := by
  induction pre generalizing lb with
  | nil => exact ⟨_, rfl, rfl⟩
  | cons c pre ih =>
    obtain ⟨row, hrow, hub⟩ := ih (lb + c.vals.length)
    refine ⟨row, ?_, hub⟩
    rw [List.cons_append, directory, List.getLast?_cons, hrow]
    rfl

/-- The first and the last row give the bounds. -/
lemma overall_of_sorted {blocks pre post : List Block} {first last : Block}
    (hf2 : (valsOf blocks).Pairwise (· ≤ ·)) (hfirst : blocks = first :: post)
    (hlast : blocks = pre ++ [last]) : Overall blocks first.lbVal last.ubVal := by
  have hmemf : first ∈ blocks := by
    rw [hfirst]
    exact List.mem_cons_self
  have hmeml : last ∈ blocks := by
    rw [hlast]
    simp
  refine ⟨hf2, ?_, ?_, ⟨first, hmemf, rfl⟩, ⟨last, hmeml, rfl⟩⟩
  · intro b hb
    have hcol : valsOf blocks = first.vals ++ valsOf post := by rw [hfirst]; rfl
    rw [hfirst] at hb
    rcases List.mem_cons.mp hb with rfl | hb
    · exact le_rfl
    · exact (List.pairwise_append.mp (hcol ▸ hf2)).2.2 _ first.lbVal_mem _
        (mem_valsOf_iff.mpr ⟨b, hb, b.lbVal_mem⟩)
  · intro b hb
    have hcol : valsOf blocks = valsOf pre ++ last.vals := by
      rw [hlast, valsOf_append]
      simp [valsOf]
    rw [hlast] at hb
    rcases List.mem_append.mp hb with hb | hb
    · exact (List.pairwise_append.mp (hcol ▸ hf2)).2.2 _ (mem_valsOf_iff.mpr ⟨b, hb, b.ubVal_mem⟩) _
        last.ubVal_mem
    · rw [List.mem_singleton.mp hb]

/-- The column 1, 2, 5, 7 in three blocks. -/
def threeBlocks : List Block := [⟨[1, 2], by simp⟩, ⟨[5], by simp⟩, ⟨[7], by simp⟩]

end Datacl
