import Datacl.Csv.Reading

/-!
# Which bytes of a file are loaded

After a run without an error every byte before the current cell belongs to a call of
`print_cell`. The loop ends with the last byte of the file, so a cell that is still open there is
never passed to `print_cell`; if it is the first of its row, the final count of cells does not
notice.
-/

namespace Datacl

variable {σ : Type} {spec : CsvSpec σ} {X : List UInt8}

/-- The opening delimiter, if there is one, or the first byte of the cell. -/
def CellCall.start (c : CellCall) : Nat := if c.quoted then c.lb - 1 else c.lb

/-- The byte after the terminator of the cell. -/
def CellCall.stop (c : CellCall) : Nat := if c.quoted then c.ub + 2 else c.ub + 1

/-- Every byte is in a cell that was passed to `print_cell` as part of a counted row, or is a
delimiter or the terminator of one. -/
def Covered (spec : CsvSpec σ) (X : List UInt8) (s : ReadState σ) : Prop :=
  ∀ p < X.length, ∃ k c, s.calls[k]? = some c ∧ k / spec.nFlds < s.numRows ∧
    c.start ≤ p ∧ p < c.stop

/-- Where the current cell starts, or `i` between two cells. -/
def ReadState.cellStart (s : ReadState σ) (i : Nat) : Nat :=
  if s.inFld = false then i else if s.isFldDelim then s.lb - 1 else s.lb

/-- The calls made so far cover everything before the current cell and nothing else. -/
structure Tracked (spec : CsvSpec σ) (X : List UInt8) (i : Nat) (s : ReadState σ) : Prop where
  le : i ≤ X.length
  covered : ∀ p < s.cellStart i, ∃ c ∈ s.calls, c.start ≤ p ∧ p < c.stop
  stop_le : ∀ c ∈ s.calls, c.stop ≤ s.cellStart i
  inside : s.inFld = true → s.cellStart i < i
  lb_pos : s.inFld = true → s.isFldDelim = true → 0 < s.lb
  calls_length : s.calls.length = s.numCells
  numCells_eq : s.numCells = spec.nFlds * s.numRows + s.fldIdx

lemma emitCell_loaded (hhdr : spec.ignoreHdr = false) (hload : ∀ j < spec.nFlds, spec.isLoad j = true)
    {isHdr quoted : Bool} {ub : Nat} {s t : ReadState σ} (hlt : s.fldIdx < spec.nFlds)
    (h : spec.emitCell X isHdr quoted ub s = some t) :
    ∃ out, t = { s with out := out, calls := s.calls ++ [⟨s.fldIdx, quoted, s.lb, ub⟩] } := by
  rw [emitCell_load hhdr (hload _ hlt)] at h
  obtain ⟨out, -, rfl⟩ := Option.map_eq_some_iff.mp h
  exact ⟨out, rfl⟩

lemma cellStart_enter {s : ReadState σ} {i : Nat} (hquote : s.isFldDelim = false) :
    (s.enter i).lb = s.cellStart i := by
  unfold ReadState.enter ReadState.cellStart
  cases hfld : s.inFld <;> simp [hquote]

/-- One more call covers the bytes up to the next cell. -/
lemma covered_snoc {calls : List CellCall} {c : CellCall} {start stop : Nat}
    (hcov : ∀ p < start, ∃ c ∈ calls, c.start ≤ p ∧ p < c.stop) (hstart : c.start = start)
    (hstop : c.stop = stop) :
    ∀ p < stop, ∃ d ∈ calls ++ [c], d.start ≤ p ∧ p < d.stop := by
  intro p hp
  by_cases hlt : p < start
  · obtain ⟨d, hd, h⟩ := hcov p hlt
    exact ⟨d, by simp [hd], h⟩
  · exact ⟨c, by simp, by omega, by omega⟩

lemma stop_le_snoc {calls : List CellCall} {c : CellCall} {start stop : Nat}
    (hle : ∀ d ∈ calls, d.stop ≤ start) (hmono : start ≤ stop) (hstop : c.stop = stop) :
    ∀ d ∈ calls ++ [c], d.stop ≤ stop := by
  intro d hd
  rw [List.mem_append, List.mem_singleton] at hd
  rcases hd with hd | rfl
  · exact (hle d hd).trans hmono
  · exact hstop.le

/-- A cell that ends before `j` was given to one more call. -/
lemma Tracked.cellEnd {i j : Nat} {s t : ReadState σ} (ht : Tracked spec X i s) (hj : j ≤ X.length)
    (hle : s.cellStart i ≤ j) {c : CellCall} (hstart : c.start = s.cellStart i) (hstop : c.stop = j)
    (hcalls : t.calls = s.calls ++ [c]) (hout : t.inFld = false) (hcells : t.numCells = s.numCells + 1)
    (hnum : t.numCells = spec.nFlds * t.numRows + t.fldIdx) : Tracked spec X j t := by
  have hend : t.cellStart j = j := by rw [ReadState.cellStart, if_pos hout]
  have hno : ¬ t.inFld = true := by simp [hout]
  refine ⟨hj, ?_, ?_, fun h => absurd h hno, fun h => absurd h hno, ?_, hnum⟩
  · rw [hend, hcalls]
    exact covered_snoc ht.covered hstart hstop
  · rw [hend, hcalls]
    exact stop_le_snoc ht.stop_le hle hstop
  · rw [hcalls, List.length_append, List.length_singleton, ht.calls_length, hcells]

/-- A byte of the cell leaves the calls as they are. -/
lemma Tracked.cellByte {i : Nat} {s t : ReadState σ} (ht : Tracked spec X i s) (hi : i < X.length)
    (hstart : t.cellStart (i + 1) = s.cellStart i) (hle : s.cellStart i ≤ i) (hcalls : t.calls = s.calls)
    (hlb : t.inFld = true → t.isFldDelim = true → 0 < t.lb) (hcells : t.numCells = s.numCells)
    (hrows : t.numRows = s.numRows) (hfld : t.fldIdx = s.fldIdx) : Tracked spec X (i + 1) t := by
  refine ⟨hi, ?_, ?_, fun _ => ?_, hlb, ?_, ?_⟩
  · rw [hstart, hcalls]
    exact ht.covered
  · rw [hstart, hcalls]
    exact ht.stop_le
  · rw [hstart]
    exact Nat.lt_succ_of_le hle
  · rw [hcalls, hcells]
    exact ht.calls_length
  · rw [hcells, hrows, hfld]
    exact ht.numCells_eq

lemma Tracked.cellStart_le {i : Nat} {s : ReadState σ} (ht : Tracked spec X i s) : s.cellStart i ≤ i := by
  by_cases hfld : s.inFld = true
  · exact (ht.inside hfld).le
  · simp [ReadState.cellStart, hfld]

lemma Step.tracked (hd : spec.IsDld) (hhdr : spec.ignoreHdr = false)
    (hload : ∀ j < spec.nFlds, spec.isLoad j = true) {i : Nat} {s s' : ReadState σ} {skip : Bool}
    (hi : i < X.length) (hf : s.Flags spec) (ht : Tracked spec X i s)
    (h : Step spec X i s s' skip) : Tracked spec X (if skip then i + 2 else i + 1) s' := by
  have hlt := hf.fldIdx_lt
  cases h with
  | openQuote hfld hc =>
    have hstart : s.cellStart i = i := by simp [ReadState.cellStart, hfld]
    refine ht.cellByte hi ?_ hstart.le rfl (fun _ _ => Nat.succ_pos i) rfl rfl rfl
    simp [ReadState.cellStart, hfld]
  | @endPlain hquote hmode hc hopen t hcell =>
    obtain ⟨out, rfl⟩ := emitCell_loaded hhdr hload (by simpa using hlt) hcell
    have hrec : (s.fldIdx + 1 = spec.nFlds ∧ byteAt X i = spec.recDelim) ↔
        s.fldIdx + 1 = spec.nFlds := by
      rw [hc, CsvSpec.term, and_iff_left_iff_imp]
      intro hlast
      rw [if_pos hlast]
    refine ht.cellEnd (c := ⟨(s.enter i).fldIdx, false, (s.enter i).lb, i⟩) hi
      (ht.cellStart_le.trans (Nat.le_succ i)) (cellStart_enter hquote) rfl ?_ ?_ ?_ ?_
    · simp only [CsvSpec.endPlain, enter_calls]
    · simp [CsvSpec.endPlain]
    · simp only [CsvSpec.endPlain, enter_numCells]
    · simp only [CsvSpec.endPlain, enter_numCells, enter_numRows, enter_fldIdx, hrec]
      exact numCells_next spec ht.numCells_eq
  | plainByte hquote hmode hc hopen =>
    have hstart : ({ s.enter i with inEscapeMode := spec.nextEscape (byteAt X i) s } :
        ReadState σ).cellStart (i + 1) = s.cellStart i := by
      have hlb := cellStart_enter (i := i) hquote
      simp [ReadState.cellStart, hquote] at hlb ⊢
      exact hlb
    refine ht.cellByte hi hstart ht.cellStart_le ?_ (fun _ h => ?_) ?_ ?_ ?_
    · exact enter_calls s i
    · simp [hquote] at h
    · exact enter_numCells s i
    · exact enter_numRows s i
    · exact enter_fldIdx s i
  | @closeQuote hfld hquote hmode hc hterm t rows hrows hcell =>
    obtain ⟨out, rfl⟩ := emitCell_loaded hhdr hload (by simpa using hlt) hcell
    have hi' : i + 1 < X.length :=
      lt_length_of_byteAt_ne (hterm ▸ (IsDld.term_ne hd s.fldIdx).2.2.2)
    have hstart : s.lb - 1 = s.cellStart i := by simp [ReadState.cellStart, hfld, hquote]
    refine ht.cellEnd (c := ⟨s.fldIdx, true, s.lb, i⟩) hi' (ht.cellStart_le.trans (Nat.le_add_right i 2))
      hstart rfl rfl rfl rfl ?_
    simp only [CsvSpec.endQuoted, hrows]
    exact numCells_next spec ht.numCells_eq
  | quotedByte hfld hquote hmode hc =>
    refine ht.cellByte hi ?_ ht.cellStart_le rfl ht.lb_pos rfl rfl rfl
    simp [ReadState.cellStart, hfld, hquote]

lemma readLoop_tracked (hd : spec.IsDld) (hhdr : spec.ignoreHdr = false)
    (hload : ∀ j < spec.nFlds, spec.isLoad j = true) (hn : 0 < spec.nFlds) {out : σ}
    {t : ReadState σ} (hrun : spec.readLoop X 0 (ReadState.start out) = some t) :
    t.Flags spec ∧ Tracked spec X X.length t := by
  have hstart : Tracked spec X 0 (ReadState.start out) :=
    ⟨Nat.zero_le _, by simp [ReadState.start, ReadState.cellStart], by simp [ReadState.start],
      by simp [ReadState.start], by simp [ReadState.start], rfl, by simp [ReadState.start]⟩
  obtain ⟨j, hj, hf, ht⟩ := readLoop_induction hd
    (fun i s s' skip hi hf ht h => h.tracked hd hhdr hload hi hf ht) (flags_start hn out) hstart hrun
  obtain rfl : j = X.length := le_antisymm ht.le hj
  exact ⟨hf, ht⟩

/-- Nothing is lost exactly when the file does not end inside a cell. -/
lemma covered_iff_not_inFld (hn : 0 < spec.nFlds) {s : ReadState σ} (ht : Tracked spec X X.length s)
    (hcells : s.numCells = spec.nFlds * s.numRows) : Covered spec X s ↔ s.inFld = false := by
  constructor
  · intro hcov
    by_contra hfld
    have hin := ht.inside (by simpa using hfld)
    obtain ⟨k, c, hk, -, -, hp⟩ := hcov (X.length - 1) (by omega)
    have hstop := ht.stop_le c (List.mem_of_getElem? hk)
    omega
  · intro hfld p hp
    have hstart : s.cellStart X.length = X.length := by simp [ReadState.cellStart, hfld]
    obtain ⟨c, hc, hrange⟩ := ht.covered p (by rwa [hstart])
    obtain ⟨k, hk⟩ := List.getElem?_of_mem hc
    refine ⟨k, c, hk, ?_, hrange⟩
    have hlen := (List.getElem?_eq_some_iff.mp hk).1
    rw [ht.calls_length, hcells, Nat.mul_comm] at hlen
    exact (Nat.div_lt_iff_lt_mul hn).mpr hlen

lemma readCsv_inv {out : σ} {s : ReadState σ} {n : Int} (h : readCsv spec X out = some (s, n)) :
    0 < spec.nFlds ∧ spec.readLoop X 0 (ReadState.start out) = some s ∧
      s.numCells = spec.nFlds * s.numRows := by
  unfold readCsv at h
  split at h
  · simp at h
  next hn =>
    split at h
    · simp at h
    next t hrun =>
      split at h
      · simp at h
      next hcells =>
        simp only [Option.some.injEq, Prod.mk.injEq] at h
        obtain ⟨rfl, -⟩ := h
        exact ⟨Nat.pos_of_ne_zero hn, hrun, not_not.mp hcells⟩

/-- A run without an error covers every byte of the file exactly when the file consists of
complete rows. -/
theorem readCsv_covered_iff (spec : CsvSpec σ) (hd : spec.IsDld) (hhdr : spec.ignoreHdr = false)
    (hload : ∀ j < spec.nFlds, spec.isLoad j = true) (X : List UInt8) (out : σ)
    (s : ReadState σ) (n : Int) (hrun : readCsv spec X out = some (s, n)) :
    Covered spec X s ↔ CompleteRows spec X := by
  obtain ⟨hn, hloop, hcells⟩ := readCsv_inv hrun
  obtain ⟨hf, ht⟩ := readLoop_tracked hd hhdr hload hn hloop
  rw [covered_iff_not_inFld hn ht hcells]
  constructor
  · intro hfld
    obtain ⟨pre, part, hseq, hpart, hX⟩ := readLoop_parsed hd hn hloop
    have hnil : part = [] := by simpa [PartialCell, hfld] using hpart
    have hidx : s.fldIdx = 0 := by
      have := ht.numCells_eq
      omega
    rw [hnil, List.append_nil] at hX
    exact ⟨s.numRows, by rw [hX, ← hidx]; exact hseq⟩
  · rintro ⟨rows, hseq⟩
    rcases readLoop_cellSeq hd hn hseq out [] with hnone | ⟨t, ht', hsame⟩
    · rw [List.append_nil, hloop] at hnone
      simp at hnone
    · rw [List.append_nil, hloop, readLoop_of_le le_rfl] at hsame
      rw [Option.some.inj hsame]
      exact ht'.outside

/-- The file `a\nb` is read without an error and its last byte is lost. -/
theorem readCsv_loses_last_row :
    ∃ s, readCsv (svSpec 1 fun _ => ⟨false, 0⟩) [97, 10, 98] LoadState.start = some (s, 1) ∧
      ¬ Covered (svSpec 1 fun _ => ⟨false, 0⟩) [97, 10, 98] s := by
  have hrun : (readCsv (svSpec 1 fun _ => ⟨false, 0⟩) [97, 10, 98] LoadState.start).map
      (fun r => (r.1.calls, r.2)) = some ([⟨0, false, 0, 1⟩], 1) := by decide +kernel
  obtain ⟨⟨s, n⟩, hs, heq⟩ := Option.map_eq_some_iff.mp hrun
  simp only [Prod.mk.injEq] at heq
  obtain ⟨hcalls, rfl⟩ := heq
  refine ⟨s, hs, fun hcov => ?_⟩
  obtain ⟨k, c, hk, -, -, hp⟩ := hcov 2 (by decide)
  have hc : c = ⟨0, false, 0, 1⟩ := by
    have hmem := List.mem_of_getElem? hk
    rw [hcalls] at hmem
    simpa using hmem
  rw [hc] at hp
  simp [CellCall.stop] at hp

/-- A file of one complete row, read with every byte covered. -/
theorem readCsv_covered_iff_one_row :
    ∃ s, readCsv (svSpec 1 fun _ => ⟨false, 0⟩) [97, 10] LoadState.start = some (s, 1) ∧
      Covered (svSpec 1 fun _ => ⟨false, 0⟩) [97, 10] s := by
  have hrun : (readCsv (svSpec 1 fun _ => ⟨false, 0⟩) [97, 10] LoadState.start).map
      (fun r => r.2) = some 1 := by decide +kernel
  obtain ⟨⟨s, n⟩, hs, rfl⟩ := Option.map_eq_some_iff.mp hrun
  refine ⟨s, hs, ?_⟩
  have hd : (svSpec 1 fun _ => ⟨false, 0⟩).IsDld := ⟨rfl, .inl ⟨rfl, rfl⟩⟩
  rw [readCsv_covered_iff _ hd rfl (fun _ _ => rfl) _ _ s _ hs]
  exact ⟨1, .cell .nil (.plain [97] (.byte (by decide) (by decide) .nil) (by decide))⟩

end Datacl
