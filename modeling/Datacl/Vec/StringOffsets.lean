import Datacl.Vec.StringLayout

/-!
# When the columns of a string field decode

The offset of a row is the number of bytes before it, a NUL counted for each string. One row is
one too few for `f1opf2_shift`, and long cells outgrow the buffer of `print_cell`.
-/

namespace Datacl

/-! ### What `print_cell` writes -/

/-- The text column after the given cells. -/
def textOf (cells : List SvCell) : List UInt8 := cells.flatMap fun c => c.text ++ [0]

/-- The number of bytes before row `i`. -/
def bytesBefore (cells : List SvCell) (i : Nat) : Nat :=
  ((cells.take i).map fun c => c.text.length + 1).sum

section Load

variable {props : Nat → FldProps} {fld : Nat}

lemma printCellSV_allowed {c : SvCell} (st : LoadState) (h : c.Allowed (props fld)) :
    ∃ st', printCellSV props 0 fld c.raw st = some st' ∧
      st'.dldBuflen = grownBuflen st.dldBuflen c.raw.length ∧
      (st'.files fld).text = (st.files fld).text ++ (c.text ++ [0]) ∧
      (st'.files fld).lens = (st.files fld).lens ++ [c.text.length] := by
  have hshort := c.short
  have hmax : maxLenStr = 32765 := rfl
  have h1 : ¬ maxLenStr ≤ c.text.length := by omega
  have h2 : ¬ (c.text.length = 0 ∧ (props fld).isAllDef = true) := fun hc => h.1 hc.2 hc.1
  have h3 : ¬ (0 < (props fld).maxlen ∧ (props fld).maxlen < c.text.length) := by
    intro hc
    have := h.2 hc.1
    omega
  unfold printCellSV
  simp only [c.unescaped, if_neg h1, if_neg h2, if_neg h3]
  rw [if_neg (by omega)]
  refine ⟨_, rfl, rfl, ?_, ?_⟩
  · simp only [Function.update_self, List.append_assoc]
  · simp only [Function.update_self]

/-- Loading succeeds as long as the buffer holds the texts. -/
lemma loadCells_some {cells : List SvCell} (st : LoadState)
    (hall : ∀ c ∈ cells, c.Allowed (props fld)) (hbuf : BufferHolds st.dldBuflen cells) :
    ∃ st', loadCells props fld cells st = some st' ∧
      (st'.files fld).text = (st.files fld).text ++ textOf cells ∧
      (st'.files fld).lens = (st.files fld).lens ++ cells.map (fun c => c.text.length) := by
  induction cells generalizing st with
  | nil => exact ⟨st, rfl, by simp [textOf], by simp⟩
  | cons c cells ih =>
    rw [List.forall_mem_cons] at hall
    obtain ⟨st₁, hprint, hgrown, htext, hlens⟩ := printCellSV_allowed st hall.1
    obtain ⟨st₂, hload, htext₂, hlens₂⟩ := ih st₁ hall.2 (hgrown ▸ hbuf.2)
    refine ⟨st₂, ?_, ?_, ?_⟩
    · rw [loadCells, if_neg (not_lt.mpr hbuf.1), hprint]
      exact hload
    · rw [htext₂, htext, textOf, textOf, List.flatMap_cons, List.append_assoc]
    · rw [hlens₂, hlens, List.map_cons, List.append_assoc, List.singleton_append]

lemma bufferHolds_of_loadCells {cells : List SvCell} {st st' : LoadState}
    (hall : ∀ c ∈ cells, c.Allowed (props fld)) (h : loadCells props fld cells st = some st') :
    BufferHolds st.dldBuflen cells := by
  induction cells generalizing st with
  | nil => trivial
  | cons c cells ih =>
    rw [List.forall_mem_cons] at hall
    obtain ⟨st₁, hprint, hgrown, -⟩ := printCellSV_allowed st hall.1
    rw [loadCells] at h
    split_ifs at h with hlong
    rw [hprint] at h
    exact ⟨not_lt.mp hlong, hgrown ▸ ih hall.2 h⟩

end Load

/-! ### What `dld` computes -/

lemma wrap_add_wrap (w : Nat) (a b : Int) : CInt.wrap w (a + CInt.wrap w b) = CInt.wrap w (a + b) := by
  rw [CInt.wrap, CInt.wrap, Int.add_bmod_bmod]
  rfl

lemma cumLoop_getElem? {xs : List Int} (prev : Int) {i : Nat} (hi : i < xs.length) :
    (cumLoop (CInt.wrap 64 prev) xs)[i]? = some (CInt.wrap 64 (prev + (xs.take (i + 1)).sum)) := by
  induction xs generalizing prev i with
  | nil => cases hi
  | cons x xs ih =>
    rw [cumLoop, wrap_add_wrap]
    cases i with
    | zero => simp [add_comm]
    | succ i =>
      rw [List.getElem?_cons_succ, ih (x + prev) (Nat.lt_of_succ_lt_succ hi), List.take_succ_cons,
        List.sum_cons]
      congr 2
      ring

/-- The cumulative sum in 64 bits. -/
lemma cumI2toI8_getElem? {xs : List Int} {i : Nat} (hi : i < xs.length) :
    (cumI2toI8 xs)[i]? = some (CInt.wrap 64 (xs.take (i + 1)).sum) := by
  cases xs with
  | nil => cases hi
  | cons x xs =>
    rw [cumI2toI8]
    cases i with
    | zero => simp
    | succ i =>
      rw [List.getElem?_cons_succ, cumLoop_getElem? x (Nat.lt_of_succ_lt_succ hi),
        List.take_succ_cons, List.sum_cons]

lemma f1opf2Shift_one {X : List Int} (newval : Int) :
    f1opf2Shift X 1 newval =
      if 2 ≤ X.length then some (newval :: X.take (X.length - 1)) else none := by
  have h1 : ¬ ((1 : Int) ≤ -maxShift ∨ maxShift ≤ 1) := by decide
  rw [f1opf2Shift, if_neg one_ne_zero, if_neg h1]
  by_cases h : 2 ≤ X.length
  · rw [if_neg (by omega), if_pos zero_lt_one, if_pos h]
    rfl
  · rw [if_pos (by omega), if_neg h]

/-- The lengths as `print_cell` writes them. -/
def lensOf (cells : List SvCell) : List Int := cells.map fun c => (c.text.length : Int)

lemma map_addScalarI2 (cells : List SvCell) :
    (lensOf cells).map (addScalarI2 1) = cells.map fun c => ((c.text.length + 1 : Nat) : Int) := by
  rw [lensOf, List.map_map]
  refine List.map_congr_left fun c _ => ?_
  have hshort := c.short
  have hmax : maxLenStr = 32765 := rfl
  rw [Function.comp_apply, addScalarI2, CInt.wrap_of_lt (by omega) (by omega)]
  rfl

lemma dldOffsets_eq (cells : List SvCell) :
    dldOffsets (lensOf cells) =
      if 2 ≤ cells.length ∧ (partition cells.length 8192 (-1)).isSome then
        some (cumI2toI8 (0 :: (cells.map fun c => ((c.text.length + 1 : Nat) : Int)).take
          (cells.length - 1)))
      else none := by
  have hlen : (lensOf cells).length = cells.length := List.length_map ..
  have hlen' : (cells.map fun c => ((c.text.length + 1 : Nat) : Int)).length = cells.length :=
    List.length_map ..
  rw [dldOffsets]
  cases hp : partition cells.length 8192 (-1) with
  | none =>
    rw [if_neg (by simp), vecMap, hlen]
    simp only [Nat.cast_ofNat, hp]
    rfl
  | some p =>
    rw [vecMap_eq (p := p) _ (by rw [hlen]; exact hp), Option.bind_eq_bind, Option.bind_some,
      map_addScalarI2, f1opf2Shift_one, hlen']
    by_cases h2 : 2 ≤ cells.length
    · rw [if_pos h2, if_pos ⟨h2, rfl⟩, Option.bind_some]
    · rw [if_neg h2, if_neg (fun h => h2 h.1)]
      rfl

/-- The offsets are the numbers of bytes before the rows, as long as they fit in 63 bits. -/
lemma cumI2toI8_bytesBefore {cells : List SvCell} {i : Nat} (hi : i < cells.length) :
    (cumI2toI8 (0 :: (cells.map fun c => ((c.text.length + 1 : Nat) : Int)).take
      (cells.length - 1)))[i]? = some (CInt.wrap 64 (bytesBefore cells i)) := by
  rw [cumI2toI8_getElem? (by simp; omega), List.take_succ_cons, List.sum_cons, zero_add,
    List.take_take, min_eq_left (by omega), ← List.map_take, bytesBefore, Nat.cast_list_sum,
    List.map_map]
  rfl

/-! ### Reading back -/

lemma textOf_split {cells : List SvCell} {i : Nat} {c : SvCell} (h : cells[i]? = some c) :
    ∃ before after, textOf cells = before ++ (c.text ++ 0 :: after) ∧
      before.length = bytesBefore cells i := by
  obtain ⟨hi, rfl⟩ := List.getElem?_eq_some_iff.mp h
  refine ⟨textOf (cells.take i), textOf (cells.drop (i + 1)), ?_, ?_⟩
  · calc textOf cells = textOf (cells.take i ++ cells.drop i) := by rw [List.take_append_drop]
      _ = textOf (cells.take i) ++ textOf (cells.drop i) := List.flatMap_append
      _ = textOf (cells.take i) ++ (cells[i].text ++ 0 :: textOf (cells.drop (i + 1))) := by
        rw [List.drop_eq_getElem_cons hi, textOf, textOf, textOf, List.flatMap_cons,
          List.append_assoc, List.singleton_append]
  · rw [textOf, List.length_flatMap, bytesBefore]
    simp

lemma bytesBefore_succ (cells : List SvCell) {i : Nat} (hi : i < cells.length) :
    bytesBefore cells (i + 1) = bytesBefore cells i + (cells[i].text.length + 1) := by
  rw [bytesBefore, bytesBefore, List.take_add_one, List.getElem?_eq_getElem hi, List.map_append,
    List.sum_append]
  simp

lemma bytesBefore_le (cells : List SvCell) {i j : Nat} (h : i ≤ j) :
    bytesBefore cells i ≤ bytesBefore cells j := by
  obtain ⟨k, rfl⟩ := Nat.exists_eq_add_of_le h
  rw [bytesBefore, bytesBefore, List.take_add, List.map_append, List.sum_append]
  exact Nat.le_add_right ..

/-- The columns that loading leaves when every step succeeds. -/
def columnsOf (cells : List SvCell) : SvColumns :=
  ⟨textOf cells, lensOf cells, cumI2toI8 (0 :: (cells.map fun c =>
    ((c.text.length + 1 : Nat) : Int)).take (cells.length - 1))⟩

lemma map_wrap_length (cells : List SvCell) :
    (cells.map fun c => c.text.length).map (fun n : Nat => CInt.wrap 16 n) = lensOf cells := by
  rw [List.map_map, lensOf]
  refine List.map_congr_left fun c _ => ?_
  have hshort := c.short
  have hmax : maxLenStr = 32765 := rfl
  rw [Function.comp_apply, CInt.wrap_of_lt (by omega) (by omega)]

lemma loadSv_eq_some_iff {props : Nat → FldProps} {fld : Nat} {cells : List SvCell}
    (hall : ∀ c ∈ cells, c.Allowed (props fld)) (cols : SvColumns) :
    loadSv props fld cells = some cols ↔
      (BufferHolds 8191 cells ∧ 2 ≤ cells.length ∧ (partition cells.length 8192 (-1)).isSome) ∧
        cols = columnsOf cells := by
  by_cases hbuf : BufferHolds 8191 cells
  · obtain ⟨st, hload, htext, hlens⟩ := loadCells_some LoadState.start hall hbuf
    have htext' : (st.files fld).text = textOf cells := htext
    have hlens' : (st.files fld).lens = cells.map fun c => c.text.length := hlens
    rw [loadSv, hload, Option.bind_eq_bind, Option.bind_some, htext', hlens', map_wrap_length]
    dsimp only
    rw [dldOffsets_eq]
    by_cases hrest : 2 ≤ cells.length ∧ (partition cells.length 8192 (-1)).isSome
    · rw [if_pos hrest]
      exact ⟨fun h => ⟨⟨hbuf, hrest⟩, (Option.some.inj h).symm⟩, fun h => h.2 ▸ rfl⟩
    · rw [if_neg hrest]
      exact ⟨fun h => (nomatch h), fun h => absurd h.1.2 hrest⟩
  · refine ⟨fun h => ?_, fun h => absurd h.1.1 hbuf⟩
    obtain ⟨st, hload, -⟩ := Option.bind_eq_some_iff.mp h
    exact absurd (bufferHolds_of_loadCells hall hload) hbuf

lemma columnsOf_decodes {cells : List SvCell} (h : bytesBefore cells (cells.length - 1) < 2 ^ 63) :
    (columnsOf cells).Decodes cells := by
  intro i c hc
  obtain ⟨hi, rfl⟩ := List.getElem?_eq_some_iff.mp hc
  obtain ⟨before, after, htext, hbefore⟩ := textOf_split hc
  have hle := bytesBefore_le cells (Nat.le_sub_one_of_lt hi)
  refine ⟨cells[i].text.length, bytesBefore cells i, ?_, ?_, ?_, ?_⟩
  · simp [columnsOf, lensOf, hi]
  · rw [columnsOf, cumI2toI8_bytesBefore hi, CInt.wrap_of_lt (by omega) (by omega)]
  · rw [columnsOf, htext, ← hbefore, List.drop_left, List.take_left]
  · rw [columnsOf, htext, ← hbefore, List.getElem?_append_right (by omega),
      Nat.add_sub_cancel_left, List.getElem?_append_right le_rfl, Nat.sub_self]
    rfl

lemma exists_crossing {f : Nat → Nat} {n B : Nat} (h0 : f 0 < B) (hn : B ≤ f n) :
    ∃ i < n, f i < B ∧ B ≤ f (i + 1) := by
  induction n with
  | zero => omega
  | succ n ih =>
    by_cases h : B ≤ f n
    · obtain ⟨i, hi, hcross⟩ := ih h
      exact ⟨i, by omega, hcross⟩
    · exact ⟨n, by omega, by omega, hn⟩

/-- The first offset beyond 63 bits is negative. -/
lemma not_columnsOf_decodes {cells : List SvCell} (hne : 2 ≤ cells.length)
    (h : 2 ^ 63 ≤ bytesBefore cells (cells.length - 1)) : ¬ (columnsOf cells).Decodes cells := by
  intro hdec
  obtain ⟨i, hi, hlow, hhigh⟩ := exists_crossing (f := bytesBefore cells) (by simp [bytesBefore]) h
  have hsucc := bytesBefore_succ cells (show i < cells.length by omega)
  have hshort := cells[i].short
  have hmax : maxLenStr = 32765 := rfl
  obtain ⟨len, off, -, hoff, -⟩ := hdec (i + 1) _ (List.getElem?_eq_getElem (by omega))
  rw [columnsOf, cumI2toI8_bytesBefore (by omega), CInt.wrap_of_ge (by omega) (by omega)] at hoff
  have heq : (bytesBefore cells (i + 1) : Int) - 2 ^ 64 = off := Option.some.inj hoff
  omega

theorem loadSv_decodes_iff (props : Nat → FldProps) (fld : Nat) {cells : List SvCell}
    (hall : ∀ c ∈ cells, c.Allowed (props fld)) :
    (∃ cols, loadSv props fld cells = some cols ∧ cols.Decodes cells) ↔
      2 ≤ cells.length ∧ (partition cells.length 8192 (-1)).isSome ∧ BufferHolds 8191 cells ∧
        bytesBefore cells (cells.length - 1) < 2 ^ 63 := by
  constructor
  · rintro ⟨cols, hload, hdec⟩
    obtain ⟨⟨hbuf, hrows, hpart⟩, rfl⟩ := (loadSv_eq_some_iff hall cols).mp hload
    refine ⟨hrows, hpart, hbuf, ?_⟩
    by_contra hge
    exact not_columnsOf_decodes hrows (not_lt.mp hge) hdec
  · rintro ⟨hrows, hpart, hbuf, hlt⟩
    exact ⟨_, (loadSv_eq_some_iff hall _).mpr ⟨⟨hbuf, hrows, hpart⟩, rfl⟩, columnsOf_decodes hlt⟩

/-- The cell `ab`. -/
def cellAb : SvCell := ⟨[97, 98], [97, 98], by decide, by decide⟩

/-- The cell `\"` of one escaped quote. -/
def cellQuote : SvCell := ⟨[92, 34], [34], by decide, by decide⟩

theorem loadSv_decodes_two_rows :
    (∀ c ∈ [cellAb, cellQuote], c.Allowed ⟨false, 0⟩) ∧
      ∃ cols, loadSv (fun _ => ⟨false, 0⟩) 0 [cellAb, cellQuote] = some cols ∧
        cols.Decodes [cellAb, cellQuote] := by
  have hall : ∀ c ∈ [cellAb, cellQuote], c.Allowed ⟨false, 0⟩ :=
    fun c _ => ⟨fun h => absurd h (by decide), fun h => absurd h (by decide)⟩
  exact ⟨hall, (loadSv_decodes_iff (fun _ => ⟨false, 0⟩) 0 hall).mpr
    ⟨by decide, by decide, by decide, by decide⟩⟩

/-- A single row is one too few for `f1opf2_shift`. -/
theorem loadSv_one_row_fails :
    cellAb.Allowed ⟨false, 0⟩ ∧
      ¬ ∃ cols, loadSv (fun _ => ⟨false, 0⟩) 0 [cellAb] = some cols ∧ cols.Decodes [cellAb] := by
  refine ⟨⟨fun h => absurd h (by decide), fun h => absurd h (by decide)⟩, ?_⟩
  have hfail : loadSv (fun _ => ⟨false, 0⟩) 0 [cellAb] = none := by decide
  rintro ⟨cols, hload, -⟩
  rw [hfail] at hload
  cases hload

end Datacl
