import Datacl.Compound.Count

/-!
# Counting with range checks

The command `count` with `safe_mode=[true]`. Its counters skip a key that is out of range and report
it. With several threads the counters run in parallel and share one status.
-/

namespace Datacl

open Tally

/-- One row of `count` and `count_nn` with `safe_mode`: the status and the counters. -/
def safeStep (nOut : Int) (acc : Int × List Int) (idx : Int) : Int × List Int :=
  if idx < 0 ∨ nOut ≤ idx then (-1, acc.2) else (acc.1, acc.2.modify idx.toNat (· + 1))

/-- `count` with `safe_mode`. -/
def countSafe (fk cnt : List Int) (nOut : Int) : Int × List Int := fk.foldl (safeStep nOut) (0, cnt)

/-- `count_nn` with `safe_mode`. -/
def countNnSafe (fk cfld cnt : List Int) (nOut : Int) : Int × List Int :=
  (fk.zip cfld).foldl (fun acc r => if r.2 = 0 then acc else safeStep nOut acc r.1) (0, cnt)

/-- A condition field: its type, whether it has a null column, and its cells. -/
structure CondFld where
  fldtype : FldType
  hasNn : Bool
  cells : List Int

/-- What `count` reads of its fields and of the destination table. -/
structure CountArgs where
  fkType : FldType
  fkHasNn : Bool
  fk : List Int
  cfld : Option CondFld
  dstNR : Nat

/-- The counter for the type of the key, on some rows. -/
def safeKernel (fkType : FldType) (fk : List Int) (cfld : Option (List Int)) (cnt : List Int) :
    Int × List Int :=
  match cfld, fkType with
  | some cfld, .I1 => countNnSafe fk cfld cnt cnt.length
  | some cfld, .I2 => countNnSafe fk cfld cnt cnt.length
  | some cfld, .I4 => countNnSafe fk cfld cnt cnt.length
  | some cfld, .I8 => countNnSafe fk cfld cnt cnt.length
  | none, .I1 => countSafe fk cnt cnt.length
  | none, .I2 => countSafe fk cnt cnt.length
  | none, .I4 => countSafe fk cnt cnt.length
  | none, .I8 => countSafe fk cnt cnt.length
  | _, _ => (-1, cnt)

/-! ### The threads -/

/-- A thread sets its counters to 0 and, unless the status is negative, calls the counter; when the
counter returns, the thread sets the status. The calls of different threads overlap. -/
inductive ThreadEvent where
  | start (tid : Nat)
  | finish (tid : Nat)
  deriving DecidableEq

/-- The shared status, the threads whose call has not returned, and the partial counters. -/
structure Threads where
  status : Int
  running : List Nat
  partialCnt : Nat → List Int

def Threads.step (zeros : List Int) (call : Nat → Int × List Int) (s : Threads) : ThreadEvent → Threads
  | .start tid =>
    if s.status < 0 then { s with partialCnt := Function.update s.partialCnt tid zeros }
    else
      { s with
        running := tid :: s.running
        partialCnt := Function.update s.partialCnt tid (call tid).2 }
  | .finish tid =>
    if tid ∈ s.running then { s with status := (call tid).1, running := s.running.erase tid } else s

/-- An order of the events in which every thread starts. -/
structure Schedule (nT : Nat) where
  events : List ThreadEvent
  once : events.Nodup
  starts : ∀ tid < nT, .start tid ∈ events

/-- The threads run. -/
def runThreads {nT : Nat} (sched : Schedule nT) (zeros : List Int) (call : Nat → Int × List Int) :
    Threads :=
  sched.events.foldl (Threads.step zeros call) ⟨0, [], fun _ => []⟩

/-! ### The command -/

/-- `INT_MAX`, from which on tables are too long. -/
def countMaxNR : Nat := 2 ^ 31 - 1

/-- The counters of `count` with `safe_mode=[true]`. The status of several threads is not looked at. -/
def safeCounts (args : CountArgs) (nT : Nat) (sched : Schedule nT) : Option (List Int) :=
  let cntI8 := List.replicate args.dstNR 0
  let cfld := args.cfld.map CondFld.cells
  if nT = 1 then
    let (status, cntI8) := safeKernel args.fkType args.fk cfld cntI8
    if status < 0 then none else some cntI8
  else
    let blockSize := args.fk.length / nT
    let call tid :=
      safeKernel args.fkType (blockOf args.fk blockSize nT tid)
        (cfld.map fun c => blockOf c blockSize nT tid) cntI8
    let s := runThreads sched cntI8 call
    some (cntI8.mapIdx fun j c => c + ((List.range nT).map fun tid => (s.partialCnt tid).getD j 0).sum)

/-- `count` with `safe_mode=[true]`: the counters that `add_fld` gets. -/
def countCmd (numCores : Nat) (args : CountArgs)
    (sched : Schedule (computeNTForCount numCores args.fk.length args.dstNR)) : Option (List Int) :=
  if countMaxNR ≤ args.dstNR then none
  else if countMaxNR ≤ args.fk.length then none
  else if args.fkHasNn then none
  else if ∃ c ∈ args.cfld, c.fldtype ≠ .I1 ∨ c.hasNn then none
  else do
    let _ ← partition args.dstNR 4096 (-1)
    safeCounts args (computeNTForCount numCores args.fk.length args.dstNR) sched

/-! ### The counters -/

/-- The key is in the range of `n` counters. -/
def keyFits (n : Nat) (idx : Int) : Bool := decide (0 ≤ idx ∧ idx < n)

/-- The keys of the rows whose condition is not `FALSE`. -/
def selectedKeys (fk : List Int) (cfld : Option (List Int)) : List Int :=
  match cfld with
  | none => fk
  | some cfld => (fk.zip cfld).filterMap fun r => if r.2 = 0 then none else some r.1

/-- The number of keys for every counter. -/
def keyCounts (n : Nat) (keys : List Int) : List Int :=
  (List.range n).map fun j : Nat => (keys.count (j : Int) : Int)

lemma total_ones (keys : List Int) (j : Int) :
    total (keys.map fun idx => (idx, (1 : Int))) j = keys.count j := by
  induction keys with
  | nil => rfl
  | cons idx keys ih =>
    rw [List.map_cons, total_cons, ih, List.count_cons]
    by_cases hj : idx = j
    · simp [hj, add_comm]
    · simp [hj]

/-- The counters count the keys that are in range, and the status tells whether all are. -/
lemma foldl_safeStep (keys : List Int) (status : Int) (cnt : List Int) :
    keys.foldl (safeStep cnt.length) (status, cnt) =
      (if keys.all (keyFits cnt.length) then status else -1,
        addTotals cnt ((keys.filter (keyFits cnt.length)).map fun idx => (idx, 1))) := by
  induction keys generalizing status cnt with
  | nil => simp [addTotals_nil]
  | cons idx keys ih =>
    rw [List.foldl_cons, safeStep]
    by_cases hidx : 0 ≤ idx ∧ idx < cnt.length
    · have hfit : keyFits cnt.length idx = true := decide_eq_true hidx
      have hlen : (cnt.modify idx.toNat (· + 1)).length = cnt.length := List.length_modify ..
      have ih := ih status (cnt.modify idx.toNat (· + 1))
      rw [hlen] at ih
      rw [if_neg (by omega)]
      dsimp only
      rw [ih, List.all_cons, hfit, Bool.true_and, List.filter_cons_of_pos hfit, List.map_cons,
        ← List.singleton_append, addTotals_append, addTotals_singleton cnt hidx.1]
    · have hfit : keyFits cnt.length idx = false := decide_eq_false hidx
      rw [if_pos (by omega), ih, List.all_cons, hfit, Bool.false_and,
        List.filter_cons_of_neg (by simp [hfit])]
      simp

lemma countNnSafe_eq (fk cfld cnt : List Int) (nOut : Int) :
    countNnSafe fk cfld cnt nOut = countSafe (selectedKeys fk (some cfld)) cnt nOut := by
  rw [countNnSafe, countSafe]
  generalize ((0 : Int), cnt) = acc
  show List.foldl _ acc (fk.zip cfld) =
    ((fk.zip cfld).filterMap fun r => if r.2 = 0 then none else some r.1).foldl (safeStep nOut) acc
  induction fk.zip cfld generalizing acc with
  | nil => rfl
  | cons r rows ih =>
    rw [List.foldl_cons, ih, List.filterMap_cons]
    by_cases hr : r.2 = 0
    · simp [hr]
    · simp [hr]

/-- The types of the key that the counters are made for. -/
def FldType.IsKey (t : FldType) : Prop := t = .I1 ∨ t = .I2 ∨ t = .I4 ∨ t = .I8

instance (t : FldType) : Decidable t.IsKey := by unfold FldType.IsKey; infer_instance

lemma safeKernel_eq {fkType : FldType} (hkey : fkType.IsKey) (fk : List Int)
    (cfld : Option (List Int)) (cnt : List Int) :
    safeKernel fkType fk cfld cnt =
      (if (selectedKeys fk cfld).all (keyFits cnt.length) then 0 else -1,
        addTotals cnt (((selectedKeys fk cfld).filter (keyFits cnt.length)).map fun idx => (idx, 1))) := by
  have hcall : safeKernel fkType fk cfld cnt = countSafe (selectedKeys fk cfld) cnt cnt.length := by
    cases cfld with
    | none => rcases hkey with rfl | rfl | rfl | rfl <;> rfl
    | some cfld => rcases hkey with rfl | rfl | rfl | rfl <;> exact countNnSafe_eq fk cfld cnt _
  rw [hcall, countSafe, foldl_safeStep]

/-- If all keys are in range, the counters are exact. -/
lemma addTotals_ones {keys : List Int} {n : Nat} (hfit : keys.all (keyFits n)) :
    addTotals (List.replicate n (0 : Int)) ((keys.filter (keyFits n)).map fun idx => (idx, 1)) =
      keyCounts n keys := by
  rw [List.filter_eq_self.mpr (List.all_eq_true.mp hfit), addTotals_replicate_zero, keyCounts]
  exact List.map_congr_left fun j _ => total_ones keys j

/-! ### The threads -/

/-- While no counter fails, every thread that started has counted its rows. -/
lemma runThreads_of_ok {zeros : List Int} {call : Nat → Int × List Int} (hok : ∀ tid, (call tid).1 = 0)
    {nT : Nat} (sched : Schedule nT) {tid : Nat} (htid : tid < nT) :
    (runThreads sched zeros call).partialCnt tid = (call tid).2 := by
  have hrun : ∀ (evs : List ThreadEvent) (s : Threads), s.status = 0 →
      .start tid ∈ evs ∨ s.partialCnt tid = (call tid).2 →
        (evs.foldl (Threads.step zeros call) s).partialCnt tid = (call tid).2 := by
    intro evs
    induction evs with
    | nil => exact fun s _ h => h.resolve_left List.not_mem_nil
    | cons ev evs ih =>
      intro s hstatus h
      rw [List.foldl_cons]
      cases ev with
      | start t =>
        have hstep : Threads.step zeros call s (.start t) =
            ⟨s.status, t :: s.running, Function.update s.partialCnt t (call t).2⟩ := by
          rw [Threads.step, if_neg (by omega)]
        rw [hstep]
        refine ih ⟨_, _, _⟩ hstatus ?_
        dsimp only
        by_cases ht : tid = t
        · right
          rw [ht]
          exact Function.update_self ..
        · rw [Function.update_of_ne ht]
          rcases h with h | h
          · left
            rcases List.mem_cons.mp h with heq | h
            · exact absurd (ThreadEvent.start.inj heq) ht
            · exact h
          · exact .inr h
      | finish t =>
        have hrest : .start tid ∈ evs ∨ s.partialCnt tid = (call tid).2 := by
          rcases h with h | h
          · rcases List.mem_cons.mp h with heq | h
            · cases heq
            · exact .inl h
          · exact .inr h
        rw [Threads.step]
        split_ifs
        · exact ih _ (hok t) hrest
        · exact ih _ hstatus hrest
  exact hrun sched.events _ rfl (.inl (sched.starts tid htid))

/-! ### The command -/

/-- The keys of the selected rows of a thread. -/
def threadKeys (fk : List Int) (cfld : Option (List Int)) (nT tid : Nat) : List Int :=
  selectedKeys (blockOf fk (fk.length / nT) nT tid)
    (cfld.map fun c => blockOf c (fk.length / nT) nT tid)

section

variable {fk : List Int} {cfld : Option (List Int)} {nT : Nat}

lemma threadKeys_some {c : List Int} (hc : c.length = fk.length) (tid : Nat) :
    threadKeys fk (some c) nT tid = (blockOf (fk.zip c) (fk.length / nT) nT tid).filterMap
      fun r => if r.2 = 0 then none else some r.1 := by
  rw [blockOf_zip hc]
  rfl

lemma flatMap_threadKeys (hcfld : ∀ c ∈ cfld, c.length = fk.length) (hn : 0 < nT) :
    (List.range nT).flatMap (threadKeys fk cfld nT) = selectedKeys fk cfld := by
  cases cfld with
  | none => exact flatMap_blockOf fk _ hn
  | some c =>
    rw [show threadKeys fk (some c) nT = _ from funext (threadKeys_some (hcfld c rfl)),
      ← List.filterMap_flatMap, flatMap_blockOf _ _ hn]
    rfl

lemma threadKeys_subset (hcfld : ∀ c ∈ cfld, c.length = fk.length) (tid : Nat) :
    threadKeys fk cfld nT tid ⊆ selectedKeys fk cfld := by
  cases cfld with
  | none => exact blockOf_subset fk
  | some c =>
    rw [threadKeys_some (hcfld c rfl)]
    intro idx hidx
    obtain ⟨r, hr, hsel⟩ := List.mem_filterMap.mp hidx
    exact List.mem_filterMap.mpr ⟨r, blockOf_subset _ hr, hsel⟩

end

/-- The partial counters add up. -/
lemma sum_keyCounts (f : Nat → List Int) (nT n : Nat) :
    (List.replicate n (0 : Int)).mapIdx (fun j c =>
        c + ((List.range nT).map fun tid => (keyCounts n (f tid)).getD j 0).sum) =
      keyCounts n ((List.range nT).flatMap f) := by
  apply List.ext_getElem?
  intro j
  rw [List.getElem?_mapIdx, List.getElem?_replicate, keyCounts, List.getElem?_map]
  by_cases hj : j < n
  · rw [if_pos hj, List.getElem?_range hj, Option.map_some, Option.map_some, Int.zero_add,
      List.count_flatMap]
    have hpart : ∀ tid, (keyCounts n (f tid)).getD j 0 = ((f tid).count (j : Int) : Int) := by
      intro tid
      rw [List.getD_eq_getElem?_getD, keyCounts, List.getElem?_map, List.getElem?_range hj]
      rfl
    simp only [hpart]
    rw [Nat.cast_list_sum, List.map_map]
    rfl
  · rw [if_neg hj, List.getElem?_eq_none (by simpa using hj)]
    rfl

/-- The checks that `count` makes before it counts. -/
structure CountArgs.Accepted (args : CountArgs) : Prop where
  dst : 0 < args.dstNR ∧ args.dstNR < countMaxNR
  src : args.fk.length < countMaxNR
  fkNn : args.fkHasNn = false
  cfld : ∀ c ∈ args.cfld, c.fldtype = .I1 ∧ c.hasNn = false

/-- The keys of the selected rows. -/
def CountArgs.keys (args : CountArgs) : List Int :=
  selectedKeys args.fk (args.cfld.map CondFld.cells)

/-- A selected row has a key without a counter. -/
def CountArgs.HasBadKey (args : CountArgs) : Prop :=
  ∃ idx ∈ args.keys, ¬ (0 ≤ idx ∧ idx < args.dstNR)

/-- An error is returned just for a bad key, and the counters are exact. -/
def SafeCount (args : CountArgs) (result : Option (List Int)) : Prop :=
  (result = none ↔ args.HasBadKey) ∧
    (¬ args.HasBadKey → result = some (keyCounts args.dstNR args.keys))

/-- The selected keys decide: a bad key is missed by several threads. -/
structure CountArgs.SafeCond (numCores : Nat) (args : CountArgs) : Prop where
  bad : args.HasBadKey → args.Accepted → computeNTForCount numCores args.fk.length args.dstNR = 1
  good : ¬ args.HasBadKey → args.Accepted

section

variable {numCores : Nat} {args : CountArgs}
  {sched : Schedule (computeNTForCount numCores args.fk.length args.dstNR)}

lemma hasBadKey_iff : args.HasBadKey ↔ args.keys.all (keyFits args.dstNR) = false := by
  rw [← Bool.not_eq_true, List.all_eq_true]
  simp [CountArgs.HasBadKey, keyFits]

lemma countCmd_of_not_accepted (h : ¬ args.Accepted) : countCmd numCores args sched = none := by
  unfold countCmd
  split_ifs with h1 h2 h3 h4
  · rfl
  · rfl
  · rfl
  · rfl
  · have hdst : args.dstNR = 0 := by
      by_contra hne
      push Not at h4
      refine h ⟨by omega, by omega, by simpa using h3, ?_⟩
      intro c hc
      exact ⟨(h4 c hc).1, by simpa using (h4 c hc).2⟩
    have hpart : partition args.dstNR 4096 (-1) = none := by
      rw [hdst]
      rfl
    rw [hpart]
    rfl

lemma countCmd_of_accepted (h : args.Accepted) :
    countCmd numCores args sched =
      safeCounts args (computeNTForCount numCores args.fk.length args.dstNR) sched := by
  have hmax : countMaxNR = 2 ^ 31 - 1 := rfl
  have hdst := h.dst
  obtain ⟨p, hp⟩ := Option.isSome_iff_exists.mp (partition_isSome
    (show (0 : Int) < args.dstNR by omega) (show (0 : Int) < 4096 by decide)
    (show (args.dstNR : Int) < 4096 * (2 ^ 31 - 1) by omega))
  have hcfld : ¬ ∃ c ∈ args.cfld, c.fldtype ≠ .I1 ∨ c.hasNn := by
    rintro ⟨c, hc, hne | hnn⟩
    · exact hne (h.cfld c hc).1
    · rw [(h.cfld c hc).2] at hnn
      cases hnn
  unfold countCmd
  rw [if_neg h.dst.2.not_ge, if_neg h.src.not_ge, if_neg (by simp [h.fkNn]), if_neg hcfld, hp]
  rfl

/-- One thread returns an error for a bad key. -/
lemma safeCounts_serial (hkey : args.fkType.IsKey) (sched : Schedule 1) :
    safeCounts args 1 sched =
      if args.keys.all (keyFits args.dstNR) then some (keyCounts args.dstNR args.keys) else none := by
  unfold safeCounts
  rw [if_pos rfl]
  dsimp only
  rw [safeKernel_eq hkey, List.length_replicate]
  show (if (if args.keys.all (keyFits args.dstNR) then (0 : Int) else -1) < 0 then none
    else some (addTotals _ ((args.keys.filter _).map _))) = _
  cases hfit : args.keys.all (keyFits args.dstNR) with
  | true => simp [addTotals_ones hfit]
  | false => simp

/-- Several threads return no error. -/
lemma safeCounts_ne_none {nT : Nat} (hn : nT ≠ 1) (sched : Schedule nT) :
    safeCounts args nT sched ≠ none := by
  unfold safeCounts
  rw [if_neg hn]
  exact Option.some_ne_none _

/-- Several threads count exactly if there is no bad key. -/
lemma safeCounts_threads (hkey : args.fkType.IsKey)
    (hcfld : ∀ c ∈ args.cfld, c.cells.length = args.fk.length) {nT : Nat} (hn : 1 < nT)
    (sched : Schedule nT) (hfit : args.keys.all (keyFits args.dstNR)) :
    safeCounts args nT sched = some (keyCounts args.dstNR args.keys) := by
  have hlen : ∀ c ∈ args.cfld.map CondFld.cells, c.length = args.fk.length := by
    intro c hc
    obtain ⟨fld, hfld, rfl⟩ := Option.mem_map.mp hc
    exact hcfld fld hfld
  have hcall : ∀ tid, safeKernel args.fkType (blockOf args.fk (args.fk.length / nT) nT tid)
      ((args.cfld.map CondFld.cells).map fun c => blockOf c (args.fk.length / nT) nT tid)
      (List.replicate args.dstNR 0) =
      (0, keyCounts args.dstNR (threadKeys args.fk (args.cfld.map CondFld.cells) nT tid)) := by
    intro tid
    have hthread : (threadKeys args.fk (args.cfld.map CondFld.cells) nT tid).all
        (keyFits args.dstNR) = true := by
      rw [List.all_eq_true] at hfit ⊢
      exact fun idx hidx => hfit idx (threadKeys_subset hlen tid hidx)
    rw [safeKernel_eq hkey, List.length_replicate, ← threadKeys, hthread, if_pos rfl,
      addTotals_ones hthread]
  unfold safeCounts
  rw [if_neg (by omega)]
  dsimp only
  congr 1
  rw [CountArgs.keys, ← flatMap_threadKeys hlen (by omega : 0 < nT), ← sum_keyCounts]
  congr 1
  funext j c
  congr 2
  refine List.map_congr_left fun tid htid => ?_
  rw [runThreads_of_ok (fun tid => by rw [hcall]) sched (List.mem_range.mp htid), hcall]

/-- The counting is right unless several threads have a bad key. -/
lemma safeCounts_iff (hkey : args.fkType.IsKey)
    (hcfld : ∀ c ∈ args.cfld, c.cells.length = args.fk.length) {nT : Nat} (hn : 0 < nT)
    (sched : Schedule nT) :
    SafeCount args (safeCounts args nT sched) ↔ (args.HasBadKey → nT = 1) := by
  cases hfit : args.keys.all (keyFits args.dstNR) with
  | true =>
    have hgood : ¬ args.HasBadKey := by
      rw [hasBadKey_iff, hfit]
      exact Bool.noConfusion
    have hcounts : safeCounts args nT sched = some (keyCounts args.dstNR args.keys) := by
      rcases Nat.lt_or_eq_of_le (Nat.succ_le_of_lt hn) with h1 | rfl
      · exact safeCounts_threads hkey hcfld h1 sched hfit
      · rw [safeCounts_serial hkey, hfit]
        rfl
    refine iff_of_true ⟨iff_of_false ?_ hgood, fun _ => hcounts⟩ fun h => absurd h hgood
    rw [hcounts]
    exact Option.some_ne_none _
  | false =>
    have hbad : args.HasBadKey := hasBadKey_iff.mpr hfit
    constructor
    · rintro ⟨hiff, -⟩ -
      by_contra h1
      exact safeCounts_ne_none h1 sched (hiff.mpr hbad)
    · intro h1
      obtain rfl := h1 hbad
      refine ⟨iff_of_true ?_ hbad, fun h => absurd hbad h⟩
      rw [safeCounts_serial hkey, hfit]
      rfl

end

/-- Several threads never see a bad key that one of them meets. -/
theorem countCmd_safe_iff {numCores : Nat} {args : CountArgs} (hkey : args.fkType.IsKey)
    (hcfld : ∀ c ∈ args.cfld, c.cells.length = args.fk.length)
    (sched : Schedule (computeNTForCount numCores args.fk.length args.dstNR)) :
    SafeCount args (countCmd numCores args sched) ↔ args.SafeCond numCores := by
  by_cases hacc : args.Accepted
  · rw [countCmd_of_accepted hacc, safeCounts_iff hkey hcfld (computeNTForCount_pos ..)]
    exact ⟨fun h => ⟨fun hbad _ => h hbad, fun _ => hacc⟩, fun h hbad => h.bad hbad hacc⟩
  · rw [countCmd_of_not_accepted hacc]
    constructor
    · rintro ⟨hbad, -⟩
      exact ⟨fun _ h => absurd h hacc, fun h => absurd (hbad.mp rfl) h⟩
    · rintro ⟨-, hgood⟩
      have hbad : args.HasBadKey := by
        by_contra h
        exact hacc (hgood h)
      exact ⟨iff_of_true rfl hbad, fun h => absurd hbad h⟩

/-- The threads one after another. -/
def inTurn (nT : Nat) : Schedule nT where
  events := (List.range nT).map .start
  once := List.nodup_range.map fun _ _ h => ThreadEvent.start.inj h
  starts _ htid := List.mem_map_of_mem (List.mem_range.mpr htid)

/-- Three rows, of which the condition takes two. -/
def threeRows : CountArgs where
  fkType := .I4
  fkHasNn := false
  fk := [1, 7, 1]
  cfld := some ⟨.I1, false, [1, 0, 1]⟩
  dstNR := 2

/-- The bad key is not selected. -/
theorem countCmd_safe_three_rows : SafeCount threeRows (countCmd 4 threeRows (inTurn _)) := by
  have hgood : ¬ threeRows.HasBadKey := by
    rw [hasBadKey_iff]
    decide
  refine (countCmd_safe_iff (by decide) ?_ _).mpr ⟨fun h => absurd h hgood, fun _ => ?_⟩
  · rintro c ⟨⟩
    rfl
  · refine ⟨by decide, by decide, rfl, ?_⟩
    rintro c ⟨⟩
    exact ⟨rfl, rfl⟩

/-- Two thousand rows with the key 5 and one counter, which two threads share. -/
def badRows : CountArgs where
  fkType := .I4
  fkHasNn := false
  fk := List.replicate 2048 5
  cfld := none
  dstNR := 1

/-- No error. -/
theorem not_countCmd_safe_bad_rows : ¬ SafeCount badRows (countCmd 2 badRows (inTurn _)) := by
  have hlen : badRows.fk.length = 2048 := List.length_replicate
  have hnT : computeNTForCount 2 badRows.fk.length badRows.dstNR ≠ 1 := by
    rw [hlen]
    decide
  have hacc : badRows.Accepted := by
    refine ⟨by decide, ?_, rfl, ?_⟩
    · rw [hlen]
      decide
    · rintro c ⟨⟩
  have hbad : badRows.HasBadKey := ⟨5, List.mem_replicate.mpr ⟨by decide, rfl⟩, by decide⟩
  rw [countCmd_of_accepted hacc]
  rintro ⟨hiff, -⟩
  exact safeCounts_ne_none hnT _ (hiff.mpr hbad)

end Datacl
