import Datacl.Csv.Reading

/-!
# Reading back a written file

A string printed by `pr_fld_SV` is a complete quoted cell, and `print_cell` undoes the escapes.
-/

namespace Datacl

/-! ### Escapes -/

lemma escapeText_cons (c : UInt8) (cell : List UInt8) :
    escapeText (c :: cell) =
      (if c = bslash ∨ c = dquote then [bslash, c] else [c]) ++ escapeText cell := by
  simp [escapeText]

lemma body_escapeText (cell : List UInt8) : Body true dquote (escapeText cell) := by
  induction cell with
  | nil => exact .nil
  | cons c cell ih =>
    rw [escapeText_cons]
    split
    next h => exact .escape rfl h ih
    next h =>
      rw [not_or] at h
      exact .byte (fun hb => h.1 hb.2) h.2 ih

lemma dldText_cons {c : UInt8} (hc : c ≠ bslash) (rest : List UInt8) :
    dldText (c :: rest) = (dldText rest).map (c :: ·) := by
  cases rest with
  | nil => simp [dldText, hc]
  | cons d rest => rw [dldText, if_neg hc]

/-- `print_cell` builds the string that `pr_fld_SV` printed. -/
lemma dldText_escapeText (cell : List UInt8) : dldText (escapeText cell) = some cell := by
  induction cell with
  | nil => rfl
  | cons c cell ih =>
    rw [escapeText_cons]
    split
    next h =>
      have hok : ¬ (c ≠ bslash ∧ c ≠ dquote) := by
        rintro ⟨h1, h2⟩
        exact h.elim h1 h2
      rw [List.cons_append, List.cons_append, List.nil_append, dldText, if_pos rfl, if_neg hok, ih,
        Option.map_some]
    next h =>
      rw [not_or] at h
      rw [List.cons_append, List.nil_append, dldText_cons h.1, ih, Option.map_some]

lemma length_le_escapeText (cell : List UInt8) : cell.length ≤ (escapeText cell).length := by
  induction cell with
  | nil => simp
  | cons c cell ih =>
    rw [escapeText_cons, List.length_append, List.length_cons]
    split
    · rw [List.length_cons, List.length_singleton]
      omega
    · rw [List.length_singleton]
      omega

/-! ### One cell -/

section Load

variable {n : Nat} {props : Nat → FldProps} {X : List UInt8}

/-- The field and the text in `g_dld_buf` for each call of `print_cell`. -/
def callTexts {σ : Type} (X : List UInt8) (s : ReadState σ) : List (Nat × Option (List UInt8)) :=
  s.calls.map fun c => (c.fldIdx, dldText (slice X c.lb c.ub))

/-- Between two cells, with `texts` loaded so far and the buffer at its first size. -/
structure Loaded (n : Nat) (props : Nat → FldProps) (X : List UInt8) (rows fldIdx : Nat)
    (texts : List (Nat × Option (List UInt8))) (s : ReadState LoadState) : Prop where
  between : Between (svSpec n props) rows fldIdx s
  texts_eq : callTexts X s = texts
  cells_eq : s.numCells = n * rows + fldIdx
  buflen_eq : s.out.dldBuflen = 8191

/-- The cell is short enough for the buffer and for its field. -/
def Fits (props : Nat → FldProps) (fldIdx : Nat) (cell : List UInt8) : Prop :=
  (escapeText cell).length < 8191 ∧ (props fldIdx).isAllDef = false ∧
    ((props fldIdx).maxlen = 0 ∨ cell.length ≤ (props fldIdx).maxlen)

lemma printCellSV_escapeText {fldIdx : Nat} {cell : List UInt8} (hfit : Fits props fldIdx cell)
    (nR : Nat) {st : LoadState} (hbuf : st.dldBuflen = 8191) :
    ∃ st', printCellSV props nR fldIdx (escapeText cell) st = some st' ∧ st'.dldBuflen = 8191 := by
  obtain ⟨hlen, hnull, hmax⟩ := hfit
  have hcell := (length_le_escapeText cell).trans_lt hlen
  have hmaxlen : ¬ (0 < (props fldIdx).maxlen ∧ (props fldIdx).maxlen < cell.length) := by omega
  have hstr : ¬ maxLenStr ≤ cell.length := by
    rw [maxLenStr]
    omega
  unfold printCellSV
  simp only [dldText_escapeText, hstr, hnull, hmaxlen, if_false, Bool.false_eq_true, and_false]
  rw [if_neg (by omega)]
  refine ⟨_, rfl, ?_⟩
  rw [if_neg (by omega), hbuf]

lemma emitCell_of_printCell {σ : Type} {spec : CsvSpec σ} {isHdr quoted : Bool} {ub : Nat}
    {s : ReadState σ} {out : σ} (hhdr : spec.ignoreHdr = false)
    (hload : spec.isLoad s.fldIdx = true)
    (h : spec.printCell s.numRows s.fldIdx (slice X s.lb ub) s.out = some out) :
    spec.emitCell X isHdr quoted ub s =
      some { s with out := out, calls := s.calls ++ [⟨s.fldIdx, quoted, s.lb, ub⟩] } := by
  rw [emitCell_load hhdr hload, h, Option.map_some]

/-- A written cell is loaded by one call that builds its text. -/
lemma loaded_cell {rows fldIdx : Nat} {texts : List (Nat × Option (List UInt8))}
    {s : ReadState LoadState} (pre post : List UInt8) {cell : List UInt8}
    (h : Loaded n props X rows fldIdx texts s) (hfit : Fits props fldIdx cell)
    (hX : X = pre ++ (quoteCell cell ++ [(svSpec n props).term fldIdx]) ++ post) :
    ∃ s', (svSpec n props).readLoop X pre.length s =
        (svSpec n props).readLoop X
          (pre ++ (quoteCell cell ++ [(svSpec n props).term fldIdx])).length s' ∧
      Loaded n props X (if fldIdx + 1 = n then rows + 1 else rows) ((svSpec n props).nextFld fldIdx)
        (texts ++ [(fldIdx, some cell)]) s' := by
  obtain ⟨hb, htexts, hcells, hbuf⟩ := h
  have hd : (svSpec n props).IsDld := ⟨rfl, .inl ⟨rfl, rfl⟩⟩
  obtain rfl := hb.fld_eq
  have hX' : X = pre ++ ((svSpec n props).fldDelim ::
      (escapeText cell ++ [(svSpec n props).fldDelim, (svSpec n props).term s.fldIdx])) ++ post := by
    simp [hX, quoteCell, svSpec]
  have hslice : slice X (pre.length + 1) (pre.length + 1 + (escapeText cell).length) =
      escapeText cell := by
    have hsplit : X = (pre ++ [dquote]) ++ escapeText cell ++
        (dquote :: (svSpec n props).term s.fldIdx :: post) := by simp [hX, quoteCell]
    have hlen : (pre ++ [dquote]).length = pre.length + 1 := by simp
    rw [hsplit, ← hlen, slice_middle]
  obtain ⟨st, hprint, hst⟩ := printCellSV_escapeText hfit
    (if s.fldIdx + 1 = (svSpec n props).nFlds then s.numRows + 1 else s.numRows) hbuf
  have hcell : (svSpec n props).emitCell X
      ((if s.fldIdx + 1 = (svSpec n props).nFlds then s.numRows + 1 else s.numRows) == 1) true
      (pre.length + 1 + (escapeText cell).length) { s with
        inFld := true
        isFldDelim := true
        lb := pre.length + 1
        numRows := if s.fldIdx + 1 = (svSpec n props).nFlds then s.numRows + 1 else s.numRows } =
      some _ := emitCell_of_printCell rfl rfl (hslice.symm ▸ hprint)
  rw [readLoop_quoted hd hb.flags hX' hb.outside (body_escapeText cell) rfl, hcell, Option.bind_some]
  obtain rfl := hb.rows_eq
  refine ⟨_, ?_, between_endQuoted hb hcell, ?_, ?_, hst⟩
  · congr 1
    simp [quoteCell]
    omega
  · simp only [callTexts, CsvSpec.endQuoted, List.map_append, List.map_cons, List.map_nil, hslice,
      dldText_escapeText, ← htexts]
  · exact numCells_next (svSpec n props) hcells

/-! ### Rows and files -/

/-- The calls for the cells of a row from field `fldIdx` on. -/
def rowTexts (fldIdx : Nat) (cells : List (List UInt8)) : List (Nat × Option (List UInt8)) :=
  (cells.zipIdx fldIdx).map fun p => (p.2, some p.1)

lemma loaded_row {rows fldIdx : Nat} {texts : List (Nat × Option (List UInt8))}
    {s : ReadState LoadState} (pre : List UInt8) {post : List UInt8} {cells : List (List UInt8)}
    (h : Loaded n props X rows fldIdx texts s) (hne : cells ≠ []) (hn : fldIdx + cells.length = n)
    (hfit : ∀ j cell, cells[j]? = some cell → Fits props (fldIdx + j) cell)
    (hX : X = pre ++ writeRow cells ++ post) :
    ∃ s', (svSpec n props).readLoop X pre.length s =
        (svSpec n props).readLoop X (pre ++ writeRow cells).length s' ∧
      Loaded n props X (rows + 1) 0 (texts ++ rowTexts fldIdx cells) s' := by
  induction cells generalizing fldIdx texts s pre with
  | nil => exact absurd rfl hne
  | cons cell cells ih =>
    have hfirst : Fits props fldIdx cell := hfit 0 cell rfl
    cases cells with
    | nil =>
      have hlast : fldIdx + 1 = n := hn
      have hterm : (svSpec n props).term fldIdx = 10 := by simp [CsvSpec.term, svSpec, hlast]
      have hnext : (svSpec n props).nextFld fldIdx = 0 := by simp [CsvSpec.nextFld, svSpec, hlast]
      have hstep := loaded_cell pre post h hfirst (by simpa [hterm, writeRow] using hX)
      rw [hterm, hnext, if_pos hlast] at hstep
      exact hstep
    | cons cell' cells =>
      have hmore : ¬ fldIdx + 1 = n := by
        rw [List.length_cons, List.length_cons] at hn
        omega
      have hterm : (svSpec n props).term fldIdx = 44 := by simp [CsvSpec.term, svSpec, hmore]
      have hnext : (svSpec n props).nextFld fldIdx = fldIdx + 1 := by
        simp [CsvSpec.nextFld, svSpec, hmore]
      have hX1 : X = pre ++ (quoteCell cell ++ [44]) ++ (writeRow (cell' :: cells) ++ post) := by
        simp [hX, writeRow]
      have hX2 : X = (pre ++ (quoteCell cell ++ [44])) ++ writeRow (cell' :: cells) ++ post := by
        simp [hX, writeRow]
      obtain ⟨s₁, hrun₁, hload₁⟩ := loaded_cell pre _ h hfirst (by rw [hterm]; exact hX1)
      rw [hterm] at hrun₁
      rw [hnext, if_neg hmore] at hload₁
      obtain ⟨s₂, hrun₂, hload₂⟩ := ih _ hload₁ (by simp)
        (by rw [List.length_cons] at hn; omega)
        (fun j c hj => by
          have := hfit (j + 1) c (by simpa using hj)
          rwa [show fldIdx + (j + 1) = fldIdx + 1 + j by omega] at this) hX2
      refine ⟨s₂, ?_, ?_⟩
      · rw [hrun₁, hrun₂]
        congr 1
        simp [writeRow]
      · simpa [rowTexts] using hload₂

lemma loaded_rows {texts : List (Nat × Option (List UInt8))} {rows : Nat}
    {s : ReadState LoadState} (pre : List UInt8) {cells : List (List (List UInt8))} (hn : 0 < n)
    (h : Loaded n props X rows 0 texts s) (hcols : ∀ row ∈ cells, row.length = n)
    (hfit : ∀ row ∈ cells, ∀ j cell, row[j]? = some cell → Fits props j cell)
    (hX : X = pre ++ writeCsv cells) :
    ∃ s', (svSpec n props).readLoop X pre.length s = some s' ∧
      Loaded n props X (rows + cells.length) 0 (texts ++ cells.flatMap (rowTexts 0)) s' := by
  induction cells generalizing texts rows s pre with
  | nil =>
    refine ⟨s, readLoop_of_le ?_, by simpa using h⟩
    simp [hX, writeCsv]
  | cons row cells ih =>
    rw [List.forall_mem_cons] at hcols hfit
    have hne : row ≠ [] := by
      rintro rfl
      have := hcols.1
      simp at this
      omega
    have hX1 : X = pre ++ writeRow row ++ writeCsv cells := by simp [hX, writeCsv]
    obtain ⟨s₁, hrun₁, hload₁⟩ := loaded_row _ h hne (by simpa using hcols.1)
      (fun j c hj => by simpa using hfit.1 j c hj) hX1
    obtain ⟨s₂, hrun₂, hload₂⟩ := ih _ hload₁ hcols.2 hfit.2 hX1
    refine ⟨s₂, hrun₁.trans hrun₂, ?_⟩
    rw [List.flatMap_cons, ← List.append_assoc, List.length_cons, ← Nat.add_assoc,
      Nat.add_right_comm]
    exact hload₂

/-- `read_csv` loads every cell of a written file once, in row-major order and with its text. -/
theorem readCsv_writeCsv (n : Nat) (hn : 0 < n) (props : Nat → FldProps)
    (hnull : ∀ j < n, (props j).isAllDef = false) (rows : List (List (List UInt8)))
    (hcols : ∀ row ∈ rows, row.length = n)
    (hlen : ∀ row ∈ rows, ∀ cell ∈ row, (escapeText cell).length < 8191)
    (hmax : ∀ row ∈ rows, ∀ j cell, row[j]? = some cell →
      (props j).maxlen = 0 ∨ cell.length ≤ (props j).maxlen) :
    ∃ s, readCsv (svSpec n props) (writeCsv rows) LoadState.start = some (s, (rows.length : Int)) ∧
      callTexts (writeCsv rows) s = rows.flatMap fun row =>
        row.zipIdx.map fun p => (p.2, some p.1) := by
  have hstart : Loaded n props (writeCsv rows) 0 0 [] (ReadState.start LoadState.start) :=
    ⟨⟨flags_start hn _, rfl, rfl, rfl⟩, rfl, rfl, rfl⟩
  have hfit : ∀ row ∈ rows, ∀ j cell, row[j]? = some cell → Fits props j cell := by
    intro row hrow j cell hj
    have hj' : j < n := by
      rw [← hcols row hrow]
      exact (List.getElem?_eq_some_iff.mp hj).1
    exact ⟨hlen row hrow cell (List.mem_of_getElem? hj), hnull j hj', hmax row hrow j cell hj⟩
  obtain ⟨s, hrun, hload⟩ := loaded_rows [] hn hstart hcols hfit (by simp)
  rw [Nat.zero_add] at hload
  refine ⟨s, ?_, hload.texts_eq⟩
  have hcells : ¬ s.numCells ≠ (svSpec n props).nFlds * rows.length := by
    rw [hload.cells_eq]
    simp [svSpec]
  have hn' : ¬ (svSpec n props).nFlds = 0 := hn.ne'
  rw [List.length_nil] at hrun
  simp only [readCsv, if_neg hn', hrun, hload.between.rows_eq, if_neg hcells]
  rfl

theorem readCsv_writeCsv_two_cells :
    ∃ s, readCsv (svSpec 2 fun _ => ⟨false, 0⟩) (writeCsv [[[34, 44], [92, 10]]]) LoadState.start =
        some (s, 1) ∧
      callTexts (writeCsv [[[34, 44], [92, 10]]]) s = [(0, some [34, 44]), (1, some [92, 10])] :=
  readCsv_writeCsv 2 (by decide) (fun _ => ⟨false, 0⟩) (fun _ _ => rfl) [[[34, 44], [92, 10]]]
    (by decide) (by decide) (fun _ _ _ _ _ => .inl rfl)

end Load

end Datacl
