import Datacl.Csv.Reading

/-!
# Skipping the header

A file is given by its cells in order: cell `k` stands in row `k / n_flds` and column `k % n_flds`.
`read_csv` takes a cell for a part of the header if `num_rows` is 0. Behind a quoted cell it asks
whether `num_rows` is 1, but it has counted the row before only if the cell is the last of its row.
-/

namespace Datacl

variable {σ : Type}

/-- A cell of a file: whether it is enclosed in field delimiters, and what stands inside. -/
structure CsvCell where
  quoted : Bool
  body : List UInt8
  deriving DecidableEq

namespace CsvSpec

/-- The text of cell `k` with its terminator. -/
def cellText (spec : CsvSpec σ) (k : Nat) (c : CsvCell) : List UInt8 :=
  if c.quoted then spec.fldDelim :: (c.body ++ [spec.fldDelim, spec.term (k % spec.nFlds)])
  else c.body ++ [spec.term (k % spec.nFlds)]

/-- The cell is well formed: escapes are complete, and what ends the cell occurs only escaped. -/
def CellOk (spec : CsvSpec σ) (k : Nat) (c : CsvCell) : Prop :=
  if c.quoted then Body spec.escapes spec.fldDelim c.body
  else Body spec.escapes (spec.term (k % spec.nFlds)) c.body ∧ c.body.head? ≠ some spec.fldDelim

/-- The text of the cells from cell `k` on. -/
def fileText (spec : CsvSpec σ) : Nat → List CsvCell → List UInt8
  | _, [] => []
  | k, c :: cells => spec.cellText k c ++ fileText spec (k + 1) cells

/-- The call of `print_cell` for cell `k`, whose text starts at the byte `off`, with the number of
the row it is given. -/
def cellCall (spec : CsvSpec σ) (k off : Nat) (c : CsvCell) : Nat × CellCall :=
  let fldIdx := k % spec.nFlds
  let row := k / spec.nFlds
  if c.quoted then
    (if fldIdx + 1 = spec.nFlds then row + 1 else row,
      ⟨fldIdx, true, off + 1, off + 1 + c.body.length⟩)
  else (row, ⟨fldIdx, false, off, off + c.body.length⟩)

/-- The calls for the cells from cell `k` on that are loaded and satisfy `p`. -/
def callsFor (spec : CsvSpec σ) (p : Nat → CsvCell → Bool) :
    Nat → Nat → List CsvCell → List (Nat × CellCall)
  | _, _, [] => []
  | k, off, c :: cells =>
    let rest := callsFor spec p (k + 1) (off + (spec.cellText k c).length) cells
    if spec.isLoad (k % spec.nFlds) && p k c then spec.cellCall k off c :: rest else rest

/-- The columns and the texts of the same cells. -/
def textsFor (spec : CsvSpec σ) (p : Nat → CsvCell → Bool) :
    Nat → List CsvCell → List (Nat × List UInt8)
  | _, [] => []
  | k, c :: cells =>
    let rest := textsFor spec p (k + 1) cells
    if spec.isLoad (k % spec.nFlds) && p k c then (k % spec.nFlds, c.body) :: rest else rest

/-- Calls of `print_cell`, one after the other. -/
def printAll (spec : CsvSpec σ) (X : List UInt8) (calls : List (Nat × CellCall)) (out : σ) :
    Option σ :=
  calls.foldlM (fun out c => spec.printCell c.1 c.2.fldIdx (slice X c.2.lb c.2.ub) out) out

/-- The cell belongs to the second row or a later one. -/
def isData (spec : CsvSpec σ) (k : Nat) (_c : CsvCell) : Bool := decide (k / spec.nFlds ≠ 0)

/-- The cell is not taken for a part of the header. -/
def isPrinted (spec : CsvSpec σ) (k : Nat) (c : CsvCell) : Bool :=
  if c.quoted then
    (if k % spec.nFlds + 1 = spec.nFlds then k / spec.nFlds + 1 else k / spec.nFlds) != 1
  else k / spec.nFlds != 0

end CsvSpec

/-- What the reader has done before cell `k`. -/
structure Before (spec : CsvSpec σ) (k : Nat) (calls : List CellCall) (out : σ) (s : ReadState σ) :
    Prop extends Between spec (k / spec.nFlds) (k % spec.nFlds) s where
  cells_eq : s.numCells = k
  calls_eq : s.calls = calls
  out_eq : s.out = out

section

variable {spec : CsvSpec σ} {X : List UInt8}

/-- The row and the column of the next cell. -/
lemma next_cell (hn : 0 < spec.nFlds) (k : Nat) :
    (if k % spec.nFlds + 1 = spec.nFlds then k / spec.nFlds + 1 else k / spec.nFlds) =
      (k + 1) / spec.nFlds ∧ spec.nextFld (k % spec.nFlds) = (k + 1) % spec.nFlds := by
  have hlt := Nat.mod_lt k hn
  have hk := Nat.div_add_mod k spec.nFlds
  unfold CsvSpec.nextFld
  by_cases hlast : k % spec.nFlds + 1 = spec.nFlds
  · have hnext : k + 1 = spec.nFlds * (k / spec.nFlds + 1) := by
      rw [Nat.mul_succ]
      omega
    rw [if_pos hlast, if_pos hlast, hnext, Nat.mul_div_cancel_left _ hn, Nat.mul_mod_right]
    exact ⟨rfl, rfl⟩
  · have hnext : k + 1 = spec.nFlds * (k / spec.nFlds) + (k % spec.nFlds + 1) := by omega
    have hsmall : k % spec.nFlds + 1 < spec.nFlds := by omega
    rw [if_neg hlast, if_neg hlast, hnext, Nat.mul_add_div hn, Nat.div_eq_of_lt hsmall,
      Nat.mul_add_mod, Nat.mod_eq_of_lt hsmall]
    exact ⟨rfl, rfl⟩

/-- A cell is printed, or left out if it is not loaded or taken for a part of the header. -/
lemma emitCell_hdr (hhdr : spec.ignoreHdr = true) (isHdr quoted : Bool) (ub : Nat)
    (s : ReadState σ) {calls : List (Nat × CellCall)}
    (hcalls : calls = if spec.isLoad s.fldIdx && !isHdr then
      [(s.numRows, ⟨s.fldIdx, quoted, s.lb, ub⟩)] else []) :
    spec.emitCell X isHdr quoted ub s = (spec.printAll X calls s.out).map fun out =>
      { s with out := out, calls := s.calls ++ calls.map Prod.snd } := by
  unfold CsvSpec.emitCell
  subst hcalls
  rw [hhdr, Bool.true_and]
  by_cases hload : spec.isLoad s.fldIdx = true
  · cases isHdr
    · rw [if_pos hload, hload]
      simp [CsvSpec.printAll]
    · rw [if_pos hload, hload]
      simp [CsvSpec.printAll]
  · rw [if_neg hload]
    simp [CsvSpec.printAll, hload]

/-- From `off` to `off'` the cell number `k` is read: these calls are made for it, and it is left behind. -/
def ReadsCell (spec : CsvSpec σ) (X : List UInt8) (k off off' : Nat) (one : List (Nat × CellCall))
    (s : ReadState σ) : Prop :=
  ∃ next : σ → ReadState σ,
    (∀ out', spec.printAll X one s.out = some out' →
      Before spec (k + 1) (s.calls ++ one.map Prod.snd) out' (next out')) ∧
    spec.readLoop X off s = (spec.printAll X one s.out).bind fun out' => spec.readLoop X off' (next out')

lemma readsCell_quoted (hd : spec.IsDld) (hhdr : spec.ignoreHdr = true) {k : Nat} (hn : 0 < spec.nFlds)
    {pre body post : List UInt8} {s : ReadState σ} (hb : Between spec (k / spec.nFlds) (k % spec.nFlds) s)
    (hcells : s.numCells = k) (hok : Body spec.escapes spec.fldDelim body)
    (hX : X = pre ++ (spec.fldDelim :: (body ++ [spec.fldDelim, spec.term (k % spec.nFlds)])) ++ post)
    {one : List (Nat × CellCall)} (hone : one = spec.callsFor spec.isPrinted k pre.length [⟨true, body⟩]) :
    ReadsCell spec X k pre.length
      (pre.length + (spec.fldDelim :: (body ++ [spec.fldDelim, spec.term (k % spec.nFlds)])).length) one s := by
  obtain ⟨hrow, hfld⟩ := next_cell hn k
  have hcount : s.numCells + 1 = k + 1 := by rw [hcells]
  have hX' := hX
  rw [← hb.fld_eq] at hX'
  obtain ⟨rows, hrows⟩ : ∃ rows, rows =
      if s.fldIdx + 1 = spec.nFlds then s.numRows + 1 else s.numRows := ⟨_, rfl⟩
  have hcall : one = if spec.isLoad s.fldIdx && !(rows == 1) then
      [(rows, ⟨s.fldIdx, true, pre.length + 1, pre.length + 1 + body.length⟩)] else [] := by
    rw [hone, hrows, hb.fld_eq, hb.rows_eq]
    rfl
  set t : ReadState σ := { s with
    inFld := true
    isFldDelim := true
    lb := pre.length + 1
    numRows := rows } with ht
  have hemit := emitCell_hdr (X := X) hhdr (rows == 1) true (pre.length + 1 + body.length) t hcall
  refine ⟨fun out => spec.endQuoted { t with out := out, calls := s.calls ++ one.map Prod.snd }, ?_, ?_⟩
  · intro out' hprint
    rw [show spec.printAll X one t.out = some out' from hprint, Option.map_some] at hemit
    rw [hb.fld_eq, hb.rows_eq] at hrows
    rw [ht, hrows] at hemit
    have hnext := between_endQuoted hb hemit
    rw [hrow, hfld] at hnext
    refine ⟨?_, hcount, rfl, rfl⟩
    rw [ht, hrows, hrow]
    exact hnext
  · rw [readLoop_quoted hd hb.flags hX' hb.outside hok hrows, hemit]
    have hlen : (spec.fldDelim :: (body ++ [spec.fldDelim, spec.term (k % spec.nFlds)])).length =
        1 + body.length + 2 := by
      simp only [List.length_cons, List.length_append, List.length_nil]
      omega
    rw [hlen, Option.bind_map, Nat.add_assoc, Nat.add_assoc, Nat.add_assoc]
    rfl

lemma readsCell_plain (hd : spec.IsDld) (hhdr : spec.ignoreHdr = true) {k : Nat} (hn : 0 < spec.nFlds)
    {pre body post : List UInt8} {s : ReadState σ}
    (hb : Between spec (k / spec.nFlds) (k % spec.nFlds) s) (hcells : s.numCells = k)
    (hok : spec.CellOk k ⟨false, body⟩)
    (hX : X = pre ++ (body ++ [spec.term (k % spec.nFlds)]) ++ post)
    {one : List (Nat × CellCall)} (hone : one = spec.callsFor spec.isPrinted k pre.length [⟨false, body⟩]) :
    ReadsCell spec X k pre.length (pre.length + (body ++ [spec.term (k % spec.nFlds)]).length) one s := by
  obtain ⟨hrow, hfld⟩ := next_cell hn k
  have hcount : s.numCells + 1 = k + 1 := by rw [hcells]
  simp only [CsvSpec.CellOk, Bool.false_eq_true, if_false] at hok
  obtain ⟨hbody, hhead⟩ := hok
  have hX' := hX
  rw [← hb.fld_eq] at hX' hbody
  have hcall : one = if spec.isLoad s.fldIdx && !(s.numRows == 0) then
      [(s.numRows, ⟨s.fldIdx, false, pre.length, pre.length + body.length⟩)] else [] := by
    rw [hone, hb.fld_eq, hb.rows_eq]
    rfl
  set t : ReadState σ := { s with
    inFld := true
    lb := pre.length } with ht
  have hemit := emitCell_hdr (X := X) hhdr (s.numRows == 0) false (pre.length + body.length) t hcall
  refine ⟨fun out => spec.endPlain (spec.term (k % spec.nFlds))
    { t with out := out, calls := s.calls ++ one.map Prod.snd }, ?_, ?_⟩
  · intro out' hprint
    rw [show spec.printAll X one t.out = some out' from hprint, Option.map_some] at hemit
    have hnext := between_endPlain hb hemit
    rw [hrow, hfld] at hnext
    exact ⟨hnext, hcount, rfl, rfl⟩
  · rw [readLoop_plain hd hb.flags hX' hb.outside hbody hhead, hemit, hb.fld_eq, Option.bind_map,
      List.length_append, List.length_singleton, ← Nat.add_assoc]
    rfl

/-- One cell is read, printed unless it is taken for a part of the header, and left behind. -/
lemma readLoop_cell (hd : spec.IsDld) (hhdr : spec.ignoreHdr = true) (hn : 0 < spec.nFlds) {k : Nat}
    {pre post : List UInt8} {c : CsvCell} {calls : List CellCall} {out : σ} {s : ReadState σ}
    (h : Before spec k calls out s) (hok : spec.CellOk k c)
    (hX : X = pre ++ spec.cellText k c ++ post) {one : List (Nat × CellCall)}
    (hone : one = spec.callsFor spec.isPrinted k pre.length [c]) :
    ∃ next : σ → ReadState σ,
      (∀ out', spec.printAll X one out = some out' →
        Before spec (k + 1) (calls ++ one.map Prod.snd) out' (next out')) ∧
      spec.readLoop X pre.length s = (spec.printAll X one out).bind fun out' =>
        spec.readLoop X (pre.length + (spec.cellText k c).length) (next out') := by
  obtain ⟨hb, hcells, rfl, rfl⟩ := h
  obtain ⟨quoted, body⟩ := c
  cases quoted with
  | true => exact readsCell_quoted hd hhdr hn hb hcells hok hX hone
  | false => exact readsCell_plain hd hhdr hn hb hcells hok hX hone

lemma printAll_append (X : List UInt8) (a b : List (Nat × CellCall)) (out : σ) :
    spec.printAll X (a ++ b) out = (spec.printAll X a out).bind (spec.printAll X b) :=
  List.foldlM_append ..

lemma callsFor_cons (p : Nat → CsvCell → Bool) (k off : Nat) (c : CsvCell) (cells : List CsvCell) :
    spec.callsFor p k off (c :: cells) = spec.callsFor p k off [c] ++
      spec.callsFor p (k + 1) (off + (spec.cellText k c).length) cells := by
  simp only [CsvSpec.callsFor]
  split <;> rfl

/-- The cells of the file are read in order. -/
lemma readLoop_cells (hd : spec.IsDld) (hhdr : spec.ignoreHdr = true) (hn : 0 < spec.nFlds)
    {cells : List CsvCell} {k : Nat} {pre : List UInt8} {calls : List CellCall} {out : σ}
    {s : ReadState σ} (h : Before spec k calls out s)
    (hok : ∀ i c, cells[i]? = some c → spec.CellOk (k + i) c)
    (hX : X = pre ++ spec.fileText k cells) :
    ∃ next : σ → ReadState σ,
      (∀ out', spec.printAll X (spec.callsFor spec.isPrinted k pre.length cells) out = some out' →
        Before spec (k + cells.length)
          (calls ++ (spec.callsFor spec.isPrinted k pre.length cells).map Prod.snd) out'
          (next out')) ∧
      spec.readLoop X pre.length s =
        (spec.printAll X (spec.callsFor spec.isPrinted k pre.length cells) out).bind fun out' =>
          spec.readLoop X X.length (next out') := by
  induction cells generalizing k pre calls out s with
  | nil =>
    have hlen : X.length = pre.length := by simp [hX, CsvSpec.fileText]
    refine ⟨fun _ => s, ?_, ?_⟩
    · intro out' hprint
      obtain rfl := Option.some.inj hprint
      simpa [CsvSpec.callsFor] using h
    · rw [hlen]
      rfl
  | cons c cells ih =>
    rw [CsvSpec.fileText, ← List.append_assoc] at hX
    obtain ⟨next, hnext, hrun⟩ := readLoop_cell hd hhdr hn h (by simpa using hok 0 c rfl) hX rfl
    rw [callsFor_cons, printAll_append, hrun]
    cases hone : spec.printAll X (spec.callsFor spec.isPrinted k pre.length [c]) out with
    | none => exact ⟨fun _ => s, by simp, rfl⟩
    | some out₁ =>
      have hrest : ∀ i d, cells[i]? = some d → spec.CellOk (k + 1 + i) d := by
        intro i d hi
        rw [Nat.add_right_comm, Nat.add_assoc]
        exact hok (i + 1) d (by simpa using hi)
      obtain ⟨next', hnext', hrun'⟩ := ih (hnext out₁ hone) hrest hX
      rw [List.length_append] at hnext' hrun'
      refine ⟨next', ?_, ?_⟩
      · intro out' hprint
        have hlast := hnext' out' hprint
        rw [List.append_assoc, ← List.map_append] at hlast
        rw [List.length_cons, Nat.add_comm cells.length, ← Nat.add_assoc]
        exact hlast
      · rw [Option.bind_some, hrun']
        rfl

/-- With `ignore_hdr` the calls are those for the cells that are not taken for a part of the
header; the number of rows is one less than that of the file. -/
lemma readCsv_hdr (hd : spec.IsDld) (hhdr : spec.ignoreHdr = true) (hn : 0 < spec.nFlds)
    {cells : List CsvCell} {rows : Nat} (hlen : cells.length = spec.nFlds * rows)
    (hok : ∀ k c, cells[k]? = some c → spec.CellOk k c) (out : σ) :
    (spec.printAll (spec.fileText 0 cells) (spec.callsFor spec.isPrinted 0 0 cells) out = none →
      readCsv spec (spec.fileText 0 cells) out = none) ∧
    ∀ out', spec.printAll (spec.fileText 0 cells) (spec.callsFor spec.isPrinted 0 0 cells) out =
        some out' →
      ∃ s, readCsv spec (spec.fileText 0 cells) out = some (s, (rows : Int) - 1) ∧
        s.calls = (spec.callsFor spec.isPrinted 0 0 cells).map Prod.snd ∧ s.out = out' := by
  have hstart : Before spec 0 [] out (ReadState.start out) := by
    refine ⟨⟨flags_start hn out, rfl, ?_, ?_⟩, rfl, rfl, rfl⟩
    · rw [Nat.zero_div]
      rfl
    · rw [Nat.zero_mod]
      rfl
  have hok' : ∀ i c, cells[i]? = some c → spec.CellOk (0 + i) c := by simpa using hok
  obtain ⟨next, hnext, hrun⟩ :=
    readLoop_cells hd hhdr hn hstart hok' (List.nil_append _).symm
  rw [List.length_nil] at hnext hrun
  constructor
  · intro hprint
    rw [readCsv, if_neg hn.ne', hrun, hprint]
    rfl
  · intro out' hprint
    obtain ⟨hb, hcells, hcalls, hout⟩ := hnext out' hprint
    rw [hlen, Nat.zero_add] at hcells
    rw [hlen, Nat.zero_add, Nat.mul_div_cancel_left _ hn] at hb
    refine ⟨next out', ?_, hcalls, hout⟩
    rw [readCsv, if_neg hn.ne', hrun, hprint, Option.bind_some, readLoop_of_le le_rfl]
    dsimp only
    rw [if_neg (not_not.mpr (by rw [hcells, hb.rows_eq])), hhdr, if_pos rfl, hb.rows_eq]

/-! ### Which cells the calls are for -/

/-- The inside of a cell starts within its text. -/
lemma lb_cellCall (k off : Nat) (c : CsvCell) :
    off ≤ (spec.cellCall k off c).2.lb ∧
      (spec.cellCall k off c).2.lb < off + (spec.cellText k c).length := by
  unfold CsvSpec.cellCall CsvSpec.cellText
  cases c.quoted
  all_goals
    simp only [if_true, Bool.false_eq_true, if_false, List.length_cons, List.length_append,
      List.length_nil]
    omega

/-- The calls for the cells from the byte `off` on start there or behind it. -/
lemma le_lb_of_callsFor {p : Nat → CsvCell → Bool} {cells : List CsvCell} {k off : Nat}
    {c : CellCall} (h : c ∈ (spec.callsFor p k off cells).map Prod.snd) : off ≤ c.lb := by
  induction cells generalizing k off with
  | nil => simp [CsvSpec.callsFor] at h
  | cons d cells ih =>
    rw [callsFor_cons, List.map_append, List.mem_append] at h
    rcases h with hhead | hrest
    · simp only [CsvSpec.callsFor] at hhead
      split at hhead
      · obtain rfl := List.mem_singleton.mp hhead
        exact (lb_cellCall k off d).1
      · simp at hhead
    · exact (Nat.le_add_right _ _).trans (ih hrest)

/-- Different choices of cells have different calls. -/
lemma callsFor_inj {p q : Nat → CsvCell → Bool} {cells : List CsvCell} {k off : Nat}
    (h : (spec.callsFor p k off cells).map Prod.snd = (spec.callsFor q k off cells).map Prod.snd)
    {i : Nat} {c : CsvCell} (hc : cells[i]? = some c)
    (hload : spec.isLoad ((k + i) % spec.nFlds) = true) : p (k + i) c = q (k + i) c := by
  induction cells generalizing k off i with
  | nil => simp at hc
  | cons d cells ih =>
    -- a call of this cell is none of the calls for the later cells
    have hlater : ∀ r : Nat → CsvCell → Bool, (spec.cellCall k off d).2 ∉
        (spec.callsFor r (k + 1) (off + (spec.cellText k d).length) cells).map Prod.snd :=
      fun r hmem => absurd (le_lb_of_callsFor hmem) (not_le.mpr (lb_cellCall k off d).2)
    have hboth : (spec.isLoad (k % spec.nFlds) && p k d) = (spec.isLoad (k % spec.nFlds) && q k d) ∧
        (spec.callsFor p (k + 1) (off + (spec.cellText k d).length) cells).map Prod.snd =
          (spec.callsFor q (k + 1) (off + (spec.cellText k d).length) cells).map Prod.snd := by
      simp only [CsvSpec.callsFor] at h
      cases hp : spec.isLoad (k % spec.nFlds) && p k d <;>
        cases hq : spec.isLoad (k % spec.nFlds) && q k d
      · rw [hp, hq] at h
        exact ⟨rfl, h⟩
      · rw [hp, hq, if_neg Bool.false_ne_true, if_pos rfl, List.map_cons] at h
        exact absurd (h ▸ List.mem_cons_self) (hlater p)
      · rw [hp, hq, if_neg Bool.false_ne_true, if_pos rfl, List.map_cons] at h
        exact absurd (h ▸ List.mem_cons_self) (hlater q)
      · rw [hp, hq, if_pos rfl, if_pos rfl, List.map_cons, List.map_cons] at h
        exact ⟨rfl, (List.cons.inj h).2⟩
    cases i with
    | zero =>
      obtain rfl := Option.some.inj hc
      rw [Nat.add_zero] at hload ⊢
      simpa [hload] using hboth.1
    | succ i =>
      have hi : k + (i + 1) = k + 1 + i := by omega
      rw [hi] at hload ⊢
      exact ih hboth.2 (by simpa using hc) hload

lemma callsFor_congr {p q : Nat → CsvCell → Bool} {cells : List CsvCell} {k off : Nat}
    (h : ∀ i c, cells[i]? = some c → spec.isLoad ((k + i) % spec.nFlds) = true →
      p (k + i) c = q (k + i) c) : spec.callsFor p k off cells = spec.callsFor q k off cells := by
  induction cells generalizing k off with
  | nil => rfl
  | cons d cells ih =>
    have hhead : (spec.isLoad (k % spec.nFlds) && p k d) = (spec.isLoad (k % spec.nFlds) && q k d) := by
      cases hload : spec.isLoad (k % spec.nFlds)
      · rfl
      · rw [Bool.true_and, Bool.true_and]
        exact h 0 d rfl hload
    have hrest : spec.callsFor p (k + 1) (off + (spec.cellText k d).length) cells =
        spec.callsFor q (k + 1) (off + (spec.cellText k d).length) cells := by
      refine ih fun i c hi hload => ?_
      have hk : k + 1 + i = k + (i + 1) := by omega
      rw [hk] at hload ⊢
      exact h (i + 1) c (by simpa using hi) hload
    simp only [CsvSpec.callsFor, hhead, hrest]

/-- The calls are given the texts of their cells. -/
lemma texts_callsFor (p : Nat → CsvCell → Bool) {cells : List CsvCell} {k : Nat} {pre : List UInt8}
    (hX : X = pre ++ spec.fileText k cells) :
    (spec.callsFor p k pre.length cells).map (fun c => (c.2.fldIdx, slice X c.2.lb c.2.ub)) =
      spec.textsFor p k cells := by
  induction cells generalizing k pre with
  | nil => rfl
  | cons c cells ih =>
    have hrest := ih (hX.trans (List.append_assoc pre (spec.cellText k c) _).symm)
    rw [List.length_append] at hrest
    have hcall : slice X (spec.cellCall k pre.length c).2.lb (spec.cellCall k pre.length c).2.ub =
        c.body := by
      rw [hX, CsvSpec.fileText]
      unfold CsvSpec.cellCall CsvSpec.cellText
      cases c.quoted with
      | true =>
        have hmid := slice_middle (pre ++ [spec.fldDelim]) c.body
          ([spec.fldDelim, spec.term (k % spec.nFlds)] ++ spec.fileText (k + 1) cells)
        rw [List.length_append, List.length_singleton] at hmid
        simpa using hmid
      | false =>
        have hmid := slice_middle pre c.body
          ([spec.term (k % spec.nFlds)] ++ spec.fileText (k + 1) cells)
        simpa using hmid
    have hfld : (spec.cellCall k pre.length c).2.fldIdx = k % spec.nFlds := by
      unfold CsvSpec.cellCall
      split <;> rfl
    simp only [CsvSpec.callsFor, CsvSpec.textsFor]
    split
    · rw [List.map_cons, hrest, hcall, hfld]
    · exact hrest

/-- Only the quoted cells of the first two rows that are not the last of their row are taken for
cells of the other row. -/
lemma isPrinted_eq_isData_iff (hn : 0 < spec.nFlds) (k : Nat) (c : CsvCell) :
    spec.isPrinted k c = spec.isData k c ↔
      (k < 2 * spec.nFlds → k % spec.nFlds + 1 < spec.nFlds → c.quoted = false) := by
  have hlt := Nat.mod_lt k hn
  rw [← Nat.div_lt_iff_lt_mul hn, Bool.eq_iff_iff]
  unfold CsvSpec.isPrinted CsvSpec.isData
  generalize k / spec.nFlds = row
  cases c.quoted
  · simp
  · rw [if_pos rfl, bne_iff_ne, decide_eq_true_iff]
    constructor
    · intro hsame hrow hinner
      rw [if_neg hinner.ne] at hsame
      omega
    · intro houter
      split
      · omega
      next hlast =>
        have hrow : ¬ row < 2 := fun h => Bool.noConfusion (houter h (by omega))
        omega

/-- Exactly the cells of the second row and the later ones are printed, in order, with their texts,
and the rows without the first are counted. -/
def DropsHeader (spec : CsvSpec σ) (cells : List CsvCell) (rows : Nat) (out out' : σ) : Prop :=
  ∃ s, readCsv spec (spec.fileText 0 cells) out = some (s, (rows : Int) - 1) ∧
    s.calls = (spec.callsFor spec.isData 0 0 cells).map Prod.snd ∧
    s.calls.map (fun c => (c.fldIdx, slice (spec.fileText 0 cells) c.lb c.ub)) =
      spec.textsFor spec.isData 0 cells ∧
    s.out = out'

/-- For every file of rows of well formed cells, `read_csv` with `ignore_hdr` drops exactly the first
row if and only if every quoted cell that is loaded from the first two rows is the last of its row. -/
theorem readCsv_dropsHeader_iff (spec : CsvSpec σ) (hd : spec.IsDld) (hhdr : spec.ignoreHdr = true)
    (hn : 0 < spec.nFlds) (cells : List CsvCell) (rows : Nat)
    (hlen : cells.length = spec.nFlds * rows)
    (hok : ∀ k c, cells[k]? = some c → spec.CellOk k c) (out out' : σ)
    (hprint : spec.printAll (spec.fileText 0 cells) (spec.callsFor spec.isData 0 0 cells) out =
      some out') :
    DropsHeader spec cells rows out out' ↔
      ∀ k c, cells[k]? = some c → spec.isLoad (k % spec.nFlds) = true → k < 2 * spec.nFlds →
        k % spec.nFlds + 1 < spec.nFlds → c.quoted = false := by
  obtain ⟨hnone, hsome⟩ := readCsv_hdr hd hhdr hn hlen hok out
  constructor
  · rintro ⟨s, hrun, hcalls, -⟩ k c hc hload
    cases hp : spec.printAll (spec.fileText 0 cells) (spec.callsFor spec.isPrinted 0 0 cells) out with
    | none =>
      rw [hnone hp] at hrun
      cases hrun
    | some out₁ =>
      obtain ⟨s', hrun', hcalls', -⟩ := hsome out₁ hp
      obtain ⟨rfl, -⟩ := Prod.mk.inj (Option.some.inj (hrun.symm.trans hrun'))
      have hsame := callsFor_inj (hcalls'.symm.trans hcalls) hc (by rwa [Nat.zero_add])
      rw [Nat.zero_add] at hsame
      exact (isPrinted_eq_isData_iff hn k c).mp hsame
  · intro houter
    have hcalls : spec.callsFor spec.isPrinted 0 0 cells = spec.callsFor spec.isData 0 0 cells := by
      apply callsFor_congr
      intro k c hc hload
      rw [Nat.zero_add] at hload ⊢
      exact (isPrinted_eq_isData_iff hn k c).mpr (houter k c hc hload)
    rw [← hcalls] at hprint
    obtain ⟨s, hrun, hcalls', hout⟩ := hsome out' hprint
    rw [hcalls] at hcalls'
    refine ⟨s, hrun, hcalls', ?_, hout⟩
    have htexts := texts_callsFor spec.isData (List.nil_append (spec.fileText 0 cells)).symm
    rw [hcalls', List.map_map]
    exact htexts

end

/-- Two columns; `print_cell` records what it is given. -/
def recordSpec : CsvSpec (List (Nat × List UInt8)) :=
  ⟨dquote, 44, 10, true, 2, fun _ => true, fun _ fldIdx raw out => some (out ++ [(fldIdx, raw)])⟩

/-- Of the file `"a",b` and `"1",2` the quoted name is loaded and the quoted value is dropped. -/
theorem readCsv_loads_quoted_name :
    ∃ s, readCsv recordSpec
        (recordSpec.fileText 0 [⟨true, [97]⟩, ⟨false, [98]⟩, ⟨true, [49]⟩, ⟨false, [50]⟩]) [] =
        some (s, 1) ∧
      s.out = [(0, [97]), (1, [50])] ∧
      ¬ DropsHeader recordSpec [⟨true, [97]⟩, ⟨false, [98]⟩, ⟨true, [49]⟩, ⟨false, [50]⟩] 2 []
        [(0, [49]), (1, [50])] := by
  have hrun : (readCsv recordSpec
      (recordSpec.fileText 0 [⟨true, [97]⟩, ⟨false, [98]⟩, ⟨true, [49]⟩, ⟨false, [50]⟩]) []).map
      (fun r => (r.1.out, r.2)) = some ([(0, [97]), (1, [50])], 1) := by
    decide +kernel
  obtain ⟨⟨s, n⟩, hs, heq⟩ := Option.map_eq_some_iff.mp hrun
  obtain ⟨hout, rfl⟩ := Prod.mk.inj heq
  refine ⟨s, hs, hout, ?_⟩
  rintro ⟨s', hs', -, -, hout'⟩
  obtain ⟨rfl, -⟩ := Prod.mk.inj (Option.some.inj (hs.symm.trans hs'))
  rw [show s.out = _ from hout] at hout'
  revert hout'
  decide

/-- The file `a,"b"` and `1,"2"`: the cells of the second row are loaded. -/
theorem readCsv_dropsHeader_last_quoted :
    DropsHeader recordSpec [⟨false, [97]⟩, ⟨true, [98]⟩, ⟨false, [49]⟩, ⟨true, [50]⟩] 2 []
      [(0, [49]), (1, [50])] := by
  have hbyte : ∀ c stop : UInt8, c ≠ bslash → c ≠ stop → Body true stop [c] := fun c stop hc hstop =>
    .byte (fun h => hc h.2) hstop .nil
  apply (readCsv_dropsHeader_iff recordSpec ⟨rfl, .inl ⟨rfl, rfl⟩⟩ rfl (by decide) _ 2 rfl ?_ [] _
    (by decide +kernel)).mpr
  · intro k c hc hload hk hinner
    match k, hc with
    | 0, hc => exact Option.some.inj hc ▸ rfl
    | 1, hc => exact absurd hinner (by decide)
    | 2, hc => exact Option.some.inj hc ▸ rfl
    | 3, hc => exact absurd hinner (by decide)
  · intro k c hc
    match k, hc with
    | 0, rfl => exact ⟨hbyte _ _ (by decide) (by decide), by decide⟩
    | 1, rfl => exact hbyte _ _ (by decide) (by decide)
    | 2, rfl => exact ⟨hbyte _ _ (by decide) (by decide), by decide⟩
    | 3, rfl => exact hbyte _ _ (by decide) (by decide)

end Datacl
