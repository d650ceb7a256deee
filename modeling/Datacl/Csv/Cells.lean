import Datacl.Csv.ReadCsv
import Mathlib.Data.List.GetD

/-!
# Cells of a CSV file

The texts that `read_csv` takes for a complete cell, and what one iteration of its loop does.
A cell is either enclosed in field delimiters or runs up to its terminator; in both cases a
backslash is followed by a backslash or a double quote.
-/

namespace Datacl

variable {σ : Type}

/-- The byte after a cell of the field: `rec_delim` after the last one, else `fld_sep`. -/
def CsvSpec.term (spec : CsvSpec σ) (fldIdx : Nat) : UInt8 :=
  if fldIdx + 1 = spec.nFlds then spec.recDelim else spec.fldSep

/-- The separators and delimiters `process_aux_info` chooses, with the record delimiter of `dld`:
comma, tab and control-Z. -/
def CsvSpec.IsDld (spec : CsvSpec σ) : Prop :=
  spec.recDelim = 10 ∧
    ((spec.fldSep = 44 ∧ spec.fldDelim = dquote) ∨ (spec.fldSep = 9 ∧ spec.fldDelim = 0) ∨
      (spec.fldSep = 26 ∧ spec.fldDelim = 0))

/-- The inside of a cell: escapes are complete and `stop` occurs only escaped. -/
inductive Body (esc : Bool) (stop : UInt8) : List UInt8 → Prop
  | nil : Body esc stop []
  | escape {d : UInt8} {rest : List UInt8} (hesc : esc = true) (hd : d = bslash ∨ d = dquote)
      (hrest : Body esc stop rest) : Body esc stop (bslash :: d :: rest)
  | byte {c : UInt8} {rest : List UInt8} (hc : ¬ (esc = true ∧ c = bslash)) (hstop : c ≠ stop)
      (hrest : Body esc stop rest) : Body esc stop (c :: rest)

/-- A complete cell of the field with its terminator. -/
inductive CellText (spec : CsvSpec σ) (fldIdx : Nat) : List UInt8 → Prop
  | quoted (body : List UInt8) (h : Body spec.escapes spec.fldDelim body) :
      CellText spec fldIdx (spec.fldDelim :: (body ++ [spec.fldDelim, spec.term fldIdx]))
  | plain (body : List UInt8) (h : Body spec.escapes (spec.term fldIdx) body)
      (hhead : body.head? ≠ some spec.fldDelim) :
      CellText spec fldIdx (body ++ [spec.term fldIdx])

/-- A sequence of complete cells: `rows` whole rows and the first `fldIdx` cells of the next. -/
inductive CellSeq (spec : CsvSpec σ) : Nat → Nat → List UInt8 → Prop
  | nil : CellSeq spec 0 0 []
  | cell {rows fldIdx : Nat} {pre txt : List UInt8} (hpre : CellSeq spec rows fldIdx pre)
      (htxt : CellText spec fldIdx txt) :
      CellSeq spec (if fldIdx + 1 = spec.nFlds then rows + 1 else rows) (spec.nextFld fldIdx)
        (pre ++ txt)

/-- The file consists of complete rows. -/
def CompleteRows (spec : CsvSpec σ) (X : List UInt8) : Prop := ∃ rows, CellSeq spec rows 0 X

lemma Body.append {esc : Bool} {stop : UInt8} {a b : List UInt8} (ha : Body esc stop a)
    (hb : Body esc stop b) : Body esc stop (a ++ b) := by
  induction ha with
  | nil => exact hb
  | escape hesc hd _ ih => exact .escape hesc hd ih
  | byte hc hstop _ ih => exact .byte hc hstop ih

lemma CellSeq.fldIdx_lt {spec : CsvSpec σ} {rows fldIdx : Nat} {pre : List UInt8}
    (hn : 0 < spec.nFlds) (h : CellSeq spec rows fldIdx pre) : fldIdx < spec.nFlds := by
  induction h with
  | nil => exact hn
  | cell hpre htxt ih =>
    rw [CsvSpec.nextFld]
    split
    · exact hn
    · omega

/-! ### Bytes of the file -/

lemma byteAt_append_cons (pre post : List UInt8) (c : UInt8) :
    byteAt (pre ++ c :: post) pre.length = c := by
  simp [byteAt, List.getD_eq_getElem?_getD]

lemma take_succ_byteAt {X : List UInt8} {i : Nat} (h : i < X.length) :
    X.take (i + 1) = X.take i ++ [byteAt X i] := by
  rw [List.take_add_one, List.getElem?_eq_getElem h, Option.toList_some, byteAt,
    List.getD_eq_getElem _ _ h]

lemma lt_length_of_byteAt_ne {X : List UInt8} {i : Nat} (h : byteAt X i ≠ 0) : i < X.length := by
  by_contra hle
  exact h (List.getD_eq_default _ _ (not_lt.mp hle))

lemma slice_middle (pre mid post : List UInt8) :
    slice (pre ++ mid ++ post) pre.length (pre.length + mid.length) = mid := by
  rw [slice, List.append_assoc, List.drop_left, Nat.add_sub_cancel_left, List.take_left]

/-! ### One iteration -/

section Step

variable {spec : CsvSpec σ} {X : List UInt8} {i : Nat} {s : ReadState σ}

/-- What holds of the flags between two iterations. -/
structure ReadState.Flags (spec : CsvSpec σ) (s : ReadState σ) : Prop where
  fldIdx_lt : s.fldIdx < spec.nFlds
  not_escaped : s.isFldDelimEscaped = false
  escape_off : spec.escapes = false → s.inEscapeMode = false
  outside : s.inFld = false → s.isFldDelim = false ∧ s.inEscapeMode = false

/-- The value of `in_escape_mode` after the byte `c`. -/
def CsvSpec.nextEscape (spec : CsvSpec σ) (c : UInt8) (s : ReadState σ) : Bool :=
  spec.escapes && c == bslash && !s.inEscapeMode

lemma terminates_iff {fldIdx : Nat} (h : fldIdx < spec.nFlds) {c : UInt8} :
    spec.terminates fldIdx c = true ↔ c = spec.term fldIdx := by
  unfold CsvSpec.terminates CsvSpec.term
  by_cases hlast : fldIdx + 1 = spec.nFlds
  · simp [hlast]
  · have hlt : fldIdx + 1 < spec.nFlds := by omega
    simp [hlast, hlt]

/-- Unless the byte is rejected, it only changes the two escape flags. -/
lemma noteEscape_eq (hf : s.Flags spec) {c : UInt8}
    (hok : ¬ (spec.escapes && s.inEscapeMode && c != bslash && c != dquote) = true) :
    spec.noteEscape c s = { s with
      inEscapeMode := spec.nextEscape c s
      isFldDelimEscaped := s.inEscapeMode && c == dquote } := by
  have hesc := hf.not_escaped
  have hoff := hf.escape_off
  have hne : bslash ≠ dquote := by decide
  unfold CsvSpec.noteEscape CsvSpec.nextEscape
  cases s with
  | mk inFld isFldDelim inEscapeMode isFldDelimEscaped lb fldIdx numCells numRows calls out =>
    dsimp only at hesc hoff hok ⊢
    subst hesc
    cases he : spec.escapes
    · rw [hoff he]
      simp
    · rw [he] at hok
      cases inEscapeMode
      · by_cases hb : c = bslash
        · simp [hb, hne]
        · simp [hb]
      · by_cases hb : c = bslash
        · simp [hb, hne]
        · have hd : c = dquote := by simpa [hb] using hok
          simp [hd, hne.symm]

/-- The state in which a byte that is not an opening delimiter is read. -/
def ReadState.enter (s : ReadState σ) (i : Nat) : ReadState σ :=
  if s.inFld then s else { s with inFld := true, lb := i }

@[simp] lemma enter_inFld (s : ReadState σ) (i : Nat) : (s.enter i).inFld = true := by
  unfold ReadState.enter
  split
  next hin => exact hin
  next => rfl

@[simp] lemma enter_isFldDelim (s : ReadState σ) (i : Nat) :
    (s.enter i).isFldDelim = s.isFldDelim := by
  unfold ReadState.enter
  split <;> rfl

@[simp] lemma enter_isFldDelimEscaped (s : ReadState σ) (i : Nat) :
    (s.enter i).isFldDelimEscaped = s.isFldDelimEscaped := by
  unfold ReadState.enter
  split <;> rfl

@[simp] lemma enter_fldIdx (s : ReadState σ) (i : Nat) : (s.enter i).fldIdx = s.fldIdx := by
  unfold ReadState.enter
  split <;> rfl

@[simp] lemma enter_numRows (s : ReadState σ) (i : Nat) : (s.enter i).numRows = s.numRows := by
  unfold ReadState.enter
  split <;> rfl

@[simp] lemma enter_numCells (s : ReadState σ) (i : Nat) : (s.enter i).numCells = s.numCells := by
  unfold ReadState.enter
  split <;> rfl

@[simp] lemma enter_calls (s : ReadState σ) (i : Nat) : (s.enter i).calls = s.calls := by
  unfold ReadState.enter
  split <;> rfl

/-- One successful iteration. -/
inductive Step (spec : CsvSpec σ) (X : List UInt8) (i : Nat) (s : ReadState σ) :
    ReadState σ → Bool → Prop
  | openQuote (hfld : s.inFld = false) (hc : byteAt X i = spec.fldDelim) :
      Step spec X i s { s with
        inFld := true
        isFldDelim := true
        lb := i + 1
        inEscapeMode := spec.nextEscape (byteAt X i) s } false
  | endPlain (hquote : s.isFldDelim = false) (hmode : s.inEscapeMode = false)
      (hc : byteAt X i = spec.term s.fldIdx)
      (hopen : s.inFld = false → byteAt X i ≠ spec.fldDelim) {t : ReadState σ}
      (hcell : spec.emitCell X (s.numRows == 0) false i { s.enter i with
        inEscapeMode := spec.nextEscape (byteAt X i) s } = some t) :
      Step spec X i s (spec.endPlain (byteAt X i) t) false
  | plainByte (hquote : s.isFldDelim = false)
      (hmode : s.inEscapeMode = true → byteAt X i = bslash ∨ byteAt X i = dquote)
      (hc : byteAt X i ≠ spec.term s.fldIdx) (hopen : s.inFld = false → byteAt X i ≠ spec.fldDelim) :
      Step spec X i s { s.enter i with inEscapeMode := spec.nextEscape (byteAt X i) s } false
  | closeQuote (hfld : s.inFld = true) (hquote : s.isFldDelim = true)
      (hmode : s.inEscapeMode = false) (hc : byteAt X i = spec.fldDelim) (hterm : byteAt X (i + 1) = spec.term s.fldIdx)
      {t : ReadState σ} {rows : Nat}
      (hrows : rows = if s.fldIdx + 1 = spec.nFlds then s.numRows + 1 else s.numRows)
      (hcell : spec.emitCell X (rows == 1) true i { s with
        numRows := rows
        inEscapeMode := spec.nextEscape (byteAt X i) s } = some t) :
      Step spec X i s (spec.endQuoted t) true
  | quotedByte (hfld : s.inFld = true) (hquote : s.isFldDelim = true)
      (hmode : s.inEscapeMode = true → byteAt X i = bslash ∨ byteAt X i = dquote)
      (hc : byteAt X i = spec.fldDelim → s.inEscapeMode = true ∧ byteAt X i = dquote) :
      Step spec X i s { s with inEscapeMode := spec.nextEscape (byteAt X i) s } false

lemma IsDld.term_ne (hd : spec.IsDld) (fldIdx : Nat) :
    spec.term fldIdx ≠ dquote ∧ spec.term fldIdx ≠ bslash ∧ spec.term fldIdx ≠ spec.fldDelim ∧
      spec.term fldIdx ≠ 0 := by
  obtain ⟨hrec, hsep⟩ := hd
  unfold CsvSpec.term
  rcases hsep with ⟨hs, hq⟩ | ⟨hs, hq⟩ | ⟨hs, hq⟩
  all_goals
    rw [hrec, hs, hq]
    split <;> decide

lemma IsDld.fldDelim_ne (hd : spec.IsDld) : spec.fldDelim ≠ bslash := by
  rcases hd.2 with ⟨-, hq⟩ | ⟨-, hq⟩ | ⟨-, hq⟩
  all_goals
    rw [hq]
    decide

/-- A column that is loaded gets the text of the cell. -/
lemma emitCell_load (hhdr : spec.ignoreHdr = false) (hload : spec.isLoad s.fldIdx = true)
    (isHdr quoted : Bool) (ub : Nat) :
    spec.emitCell X isHdr quoted ub s =
      (spec.printCell s.numRows s.fldIdx (slice X s.lb ub) s.out).map fun out =>
        { s with out := out, calls := s.calls ++ [⟨s.fldIdx, quoted, s.lb, ub⟩] } := by
  rw [CsvSpec.emitCell, if_pos hload, hhdr, Bool.false_and, if_neg Bool.false_ne_true]

lemma emitCell_eq {isHdr quoted : Bool} {ub : Nat} {t : ReadState σ}
    (h : spec.emitCell X isHdr quoted ub s = some t) :
    ∃ calls out, t = { s with calls := calls, out := out } := by
  unfold CsvSpec.emitCell at h
  split at h
  · split at h
    · exact ⟨s.calls, s.out, (Option.some.inj h).symm⟩
    · obtain ⟨out, -, rfl⟩ := Option.map_eq_some_iff.mp h
      exact ⟨_, out, rfl⟩
  · exact ⟨s.calls, s.out, (Option.some.inj h).symm⟩

/-- A byte that is not rejected in escape mode. -/
lemma mode_of_not_rejected (hf : s.Flags spec) {c : UInt8}
    (hok : ¬ (spec.escapes && s.inEscapeMode && c != bslash && c != dquote) = true)
    (hmode : s.inEscapeMode = true) : c = bslash ∨ c = dquote := by
  have hon : spec.escapes = true := by
    by_contra hoff
    simpa [hmode] using hf.escape_off (Bool.not_eq_true _ ▸ hoff)
  by_contra hne
  rw [not_or] at hne
  simp [hon, hmode, hne.1, hne.2] at hok

/-- The state after the escape flags have been updated for the byte `c`. -/
def CsvSpec.noted (spec : CsvSpec σ) (c : UInt8) (s : ReadState σ) : ReadState σ :=
  { s with
    inEscapeMode := spec.nextEscape c s
    isFldDelimEscaped := s.inEscapeMode && c == dquote }

lemma step_of_startCell (hf : s.Flags spec) (hfld : s.inFld = false) {r : ReadState σ} {skip : Bool}
    (hr : spec.startCell X i (byteAt X i) (spec.noted (byteAt X i) s) = some (r, skip)) :
    Step spec X i s { r with isFldDelimEscaped := false } skip := by
  have hlt := hf.fldIdx_lt
  have hesc := hf.not_escaped
  obtain ⟨hquote, hmode⟩ := hf.outside hfld
  obtain ⟨inFld, isFldDelim, mode, escaped, lb, fldIdx, numCells, numRows, calls, out⟩ := s
  dsimp only at hfld hesc hquote hmode hlt
  subst hfld hesc hquote hmode
  rw [CsvSpec.noted, Bool.false_and] at hr
  unfold CsvSpec.startCell at hr
  split at hr
  next hc =>
    obtain ⟨rfl, rfl⟩ := Prod.mk.inj (Option.some.inj hr)
    exact Step.openQuote rfl hc
  next hc =>
    dsimp only at hr
    split at hr
    next hterm =>
      obtain ⟨t, ht, hpair⟩ := Option.map_eq_some_iff.mp hr
      obtain ⟨rfl, rfl⟩ := Prod.mk.inj hpair
      have hstep := Step.endPlain (s := ⟨false, false, false, false, lb, fldIdx, numCells, numRows,
        calls, out⟩) rfl rfl ((terminates_iff hlt).mp hterm) (fun _ => hc) ht
      obtain ⟨calls', out', rfl⟩ := emitCell_eq ht
      exact hstep
    next hterm =>
      obtain ⟨rfl, rfl⟩ := Prod.mk.inj (Option.some.inj hr)
      exact Step.plainByte rfl (fun h => Bool.noConfusion h) (mt (terminates_iff hlt).mpr hterm) (fun _ => hc)

lemma step_of_insideQuoted (hd : spec.IsDld) (hf : s.Flags spec) (hfld : s.inFld = true) (hquote : s.isFldDelim = true)
    (hmode : s.inEscapeMode = true → byteAt X i = bslash ∨ byteAt X i = dquote) {r : ReadState σ} {skip : Bool}
    (hr : spec.insideQuoted X i (byteAt X i) (spec.noted (byteAt X i) s) = some (r, skip)) :
    Step spec X i s { r with isFldDelimEscaped := false } skip := by
  have hlt := hf.fldIdx_lt
  have hesc := hf.not_escaped
  obtain ⟨inFld, isFldDelim, mode, escaped, lb, fldIdx, numCells, numRows, calls, out⟩ := s
  dsimp only at hfld hesc hquote hmode hlt
  subst hfld hesc hquote
  rw [CsvSpec.noted] at hr
  unfold CsvSpec.insideQuoted at hr
  dsimp only at hr
  split at hr
  next hclose =>
    split at hr
    · simp at hr
    · split at hr
      · simp at hr
      next hsep =>
        split at hr
        · simp at hr
        next hrec =>
          obtain ⟨t, ht, hpair⟩ := Option.map_eq_some_iff.mp hr
          obtain ⟨rfl, rfl⟩ := Prod.mk.inj hpair
          have hterm : byteAt X (i + 1) = spec.term fldIdx := by
            unfold CsvSpec.term
            split
            next hlast => exact not_not.mp fun h => hrec ⟨hlast, h⟩
            next hlast => exact not_not.mp fun h => hsep ⟨by omega, h⟩
          have hoff : mode = false := by
            by_contra hon
            rcases hmode (Bool.not_eq_false _ ▸ hon) with h | h
            · exact IsDld.fldDelim_ne hd (hclose.1.symm.trans h)
            · simpa [hon, h] using hclose.2
          rw [hclose.2] at ht
          have hstep := Step.closeQuote (s := ⟨true, true, mode, false, lb, fldIdx, numCells,
            numRows, calls, out⟩) rfl rfl hoff hclose.1 hterm rfl ht
          obtain ⟨calls', out', rfl⟩ := emitCell_eq ht
          exact hstep
  next hopen =>
    obtain ⟨rfl, rfl⟩ := Prod.mk.inj (Option.some.inj hr)
    apply Step.quotedByte rfl rfl hmode
    intro hc
    simpa [hc] using hopen

lemma step_of_insidePlain (hd : spec.IsDld) (hf : s.Flags spec) (hi : i < X.length) (hfld : s.inFld = true)
    (hquote : s.isFldDelim = false)
    (hmode : s.inEscapeMode = true → byteAt X i = bslash ∨ byteAt X i = dquote) {r : ReadState σ} {skip : Bool}
    (hr : spec.insidePlain X i (byteAt X i) (spec.noted (byteAt X i) s) = some (r, skip)) :
    Step spec X i s { r with isFldDelimEscaped := false } skip := by
  obtain ⟨htq, htb, -, -⟩ := IsDld.term_ne hd s.fldIdx
  have hlt := hf.fldIdx_lt
  have hesc := hf.not_escaped
  obtain ⟨inFld, isFldDelim, mode, escaped, lb, fldIdx, numCells, numRows, calls, out⟩ := s
  dsimp only at hfld hesc hquote hmode hlt htq htb
  subst hfld hesc hquote
  rw [CsvSpec.noted] at hr
  unfold CsvSpec.insidePlain at hr
  dsimp only at hr
  rw [if_neg hi.ne] at hr
  split at hr
  next hterm =>
    obtain ⟨t, ht, hpair⟩ := Option.map_eq_some_iff.mp hr
    obtain ⟨rfl, rfl⟩ := Prod.mk.inj hpair
    have hc := (terminates_iff hlt).mp (hterm.resolve_left hi.ne)
    -- the terminator is neither of the bytes that may be escaped
    have hoff : mode = false := by
      by_contra hon
      rcases hmode (Bool.not_eq_false _ ▸ hon) with h | h
      · exact htb (hc.symm.trans h)
      · exact htq (hc.symm.trans h)
    subst hoff
    have hstep := Step.endPlain (s := ⟨true, false, false, false, lb, fldIdx, numCells, numRows,
      calls, out⟩) rfl rfl hc (fun h => by simp at h) ht
    obtain ⟨calls', out', rfl⟩ := emitCell_eq ht
    exact hstep
  next hterm =>
    obtain ⟨rfl, rfl⟩ := Prod.mk.inj (Option.some.inj hr)
    have hc := mt (terminates_iff hlt).mpr (fun h => hterm (.inr h))
    exact Step.plainByte rfl hmode hc (fun h => by simp at h)

/-- A successful iteration is one of the steps. -/
lemma step_of_readByte (hd : spec.IsDld) (hf : s.Flags spec) (hi : i < X.length)
    {s' : ReadState σ} {skip : Bool} (h : spec.readByte X i s = some (s', skip)) :
    Step spec X i s s' skip := by
  unfold CsvSpec.readByte at h
  dsimp only at h
  split at h
  next => simp at h
  next hok =>
    have hmode := mode_of_not_rejected hf hok
    rw [noteEscape_eq hf hok, Option.map_eq_some_iff] at h
    obtain ⟨⟨r, skip'⟩, hr, heq⟩ := h
    obtain ⟨rfl, rfl⟩ := Prod.mk.inj heq
    split at hr
    next hfld => exact step_of_startCell hf hfld hr
    next hfld =>
      have hfld' : s.inFld = true := by simpa using hfld
      split at hr
      next hquote => exact step_of_insideQuoted hd hf hfld' hquote hmode hr
      next hquote => exact step_of_insidePlain hd hf hi hfld' (by simpa using hquote) hmode hr

lemma nextEscape_eq_false {c : UInt8} (hc : c ≠ bslash) : spec.nextEscape c s = false := by
  simp [CsvSpec.nextEscape, hc]

lemma nextEscape_of_escapes {c : UInt8} (h : spec.escapes = false) :
    spec.nextEscape c s = false := by
  simp [CsvSpec.nextEscape, h]

lemma nextFld_lt (h : s.fldIdx < spec.nFlds) : spec.nextFld s.fldIdx < spec.nFlds := by
  unfold CsvSpec.nextFld
  split <;> omega

/-- The count of cells after a cell is complete. -/
lemma numCells_next (spec : CsvSpec σ) {rows fldIdx cells : Nat} (h : cells = spec.nFlds * rows + fldIdx) :
    cells + 1 = spec.nFlds * (if fldIdx + 1 = spec.nFlds then rows + 1 else rows) +
      spec.nextFld fldIdx := by
  unfold CsvSpec.nextFld
  split
  next hlast =>
    rw [Nat.mul_succ]
    omega
  next => omega

/-- The flags stay consistent. -/
lemma Step.flags (hd : spec.IsDld) (hf : s.Flags spec) {s' : ReadState σ} {skip : Bool}
    (h : Step spec X i s s' skip) : s'.Flags spec := by
  have hlt := hf.fldIdx_lt
  have hesc := hf.not_escaped
  cases h with
  | openQuote hfld hc => exact ⟨hlt, hesc, nextEscape_of_escapes, fun h => by simp at h⟩
  | endPlain hquote hmode hc hopen hcell =>
    obtain ⟨calls, out, rfl⟩ := emitCell_eq hcell
    have hoff : spec.nextEscape (byteAt X i) s = false :=
      nextEscape_eq_false (hc ▸ (IsDld.term_ne hd s.fldIdx).2.1)
    refine ⟨?_, ?_, fun _ => hoff, fun _ => ⟨?_, hoff⟩⟩
    · simpa [CsvSpec.endPlain] using nextFld_lt hlt
    · simpa [CsvSpec.endPlain] using hesc
    · simpa [CsvSpec.endPlain] using hquote
  | plainByte hquote hmode hc hopen =>
    exact ⟨by simpa using hlt, by simpa using hesc, nextEscape_of_escapes, fun h => by simp at h⟩
  | closeQuote hfld hquote hmode hc hterm hrows hcell =>
    obtain ⟨calls, out, rfl⟩ := emitCell_eq hcell
    have hoff : spec.nextEscape (byteAt X i) s = false :=
      nextEscape_eq_false (hc ▸ IsDld.fldDelim_ne hd)
    exact ⟨nextFld_lt hlt, hesc, fun _ => hoff, fun _ => ⟨rfl, hoff⟩⟩
  | quotedByte hfld hquote hmode hc =>
    exact ⟨hlt, hesc, nextEscape_of_escapes, fun h => by simp [hfld] at h⟩

end Step

/-! ### Whole runs -/

section Run

variable {spec : CsvSpec σ} {X : List UInt8}

lemma readLoop_of_le {i : Nat} {s : ReadState σ} (h : X.length ≤ i) :
    spec.readLoop X i s = some s := by
  rw [CsvSpec.readLoop, if_neg (not_lt.mpr h)]

lemma readLoop_of_readByte {i : Nat} {s s' : ReadState σ} {skip : Bool} (hi : i < X.length)
    (h : spec.readByte X i s = some (s', skip)) :
    spec.readLoop X i s = spec.readLoop X (if skip then i + 2 else i + 1) s' := by
  rw [CsvSpec.readLoop, if_pos hi, h]

/-- What every step preserves holds at the end of a run. -/
lemma readLoop_induction (hd : spec.IsDld) {P : Nat → ReadState σ → Prop}
    (hstep : ∀ i s s' skip, i < X.length → s.Flags spec → P i s → Step spec X i s s' skip →
      P (if skip then i + 2 else i + 1) s')
    {i : Nat} {s t : ReadState σ} (hf : s.Flags spec) (hp : P i s)
    (hrun : spec.readLoop X i s = some t) : ∃ j, X.length ≤ j ∧ t.Flags spec ∧ P j t := by
  induction hk : X.length - i using Nat.strong_induction_on generalizing i s with
  | h k ih =>
    by_cases hi : i < X.length
    · cases hbyte : spec.readByte X i s with
      | none => rw [CsvSpec.readLoop, if_pos hi, hbyte] at hrun; simp at hrun
      | some r =>
        obtain ⟨s', skip⟩ := r
        have h := step_of_readByte hd hf hi hbyte
        rw [readLoop_of_readByte hi hbyte] at hrun
        refine ih _ ?_ (h.flags hd hf) (hstep i s s' skip hi hf hp h) hrun rfl
        split <;> omega
    · rw [readLoop_of_le (not_lt.mp hi)] at hrun
      obtain rfl := Option.some.inj hrun
      exact ⟨i, not_lt.mp hi, hf, hp⟩

lemma flags_start (hn : 0 < spec.nFlds) (out : σ) : (ReadState.start out).Flags spec :=
  ⟨hn, rfl, fun _ => rfl, fun _ => ⟨rfl, rfl⟩⟩

end Run

end Datacl
