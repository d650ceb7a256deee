import Datacl.Csv.Cells

/-!
# Reading complete cells

Every run leaves a sequence of complete cells behind it, and a complete cell is read in one go
from any state between two cells.
-/

namespace Datacl

variable {σ : Type} {spec : CsvSpec σ} {X : List UInt8}

/-! ### What a run has read -/

/-- A body of which the last byte may be an open backslash. -/
def PartialBody (esc : Bool) (stop : UInt8) (mode : Bool) (body : List UInt8) : Prop :=
  ∃ b, Body esc stop b ∧ body = if mode then b ++ [bslash] else b

/-- The part of the current cell that has been read. -/
def PartialCell (spec : CsvSpec σ) (s : ReadState σ) (part : List UInt8) : Prop :=
  if s.inFld = false then part = []
  else if s.isFldDelim = true then
    ∃ body, part = spec.fldDelim :: body ∧
      PartialBody spec.escapes spec.fldDelim s.inEscapeMode body
  else part ≠ [] ∧ part.head? ≠ some spec.fldDelim ∧
    PartialBody spec.escapes (spec.term s.fldIdx) s.inEscapeMode part

/-- The bytes before `i` are complete cells and the part of the current one. -/
structure Parsed (spec : CsvSpec σ) (X : List UInt8) (i : Nat) (s : ReadState σ) : Prop where
  le : i ≤ X.length
  cells : ∃ pre part, CellSeq spec s.numRows s.fldIdx pre ∧ PartialCell spec s part ∧
    X.take i = pre ++ part

lemma PartialBody.snoc {esc : Bool} {stop c : UInt8} {mode : Bool} {body : List UInt8}
    (h : PartialBody esc stop mode body) (hmode : mode = true → c = bslash ∨ c = dquote)
    (hesc : esc = false → mode = false) (hc : mode = false → c ≠ stop) :
    PartialBody esc stop (esc && c == bslash && !mode) (body ++ [c]) := by
  obtain ⟨b, hb, rfl⟩ := h
  cases mode with
  | true =>
    have hon : esc = true := by
      by_contra hoff
      simpa using hesc (Bool.not_eq_true _ ▸ hoff)
    refine ⟨b ++ [bslash, c], hb.append (.escape hon (hmode rfl) .nil), ?_⟩
    simp
  | false =>
    by_cases hbs : esc = true ∧ c = bslash
    · exact ⟨b, hb, by simp [hbs.1, hbs.2]⟩
    · refine ⟨b ++ [c], hb.append (.byte hbs (hc rfl) .nil), ?_⟩
      have hoff : (esc && c == bslash) = false := by
        rw [Bool.and_eq_false_iff]
        by_cases he : esc = true
        · exact .inr (by simpa using fun h => hbs ⟨he, h⟩)
        · exact .inl (by simpa using he)
      simp [hoff]

lemma PartialBody.body {esc : Bool} {stop : UInt8} {body : List UInt8}
    (h : PartialBody esc stop false body) : Body esc stop body := by
  obtain ⟨b, hb, rfl⟩ := h
  exact hb

/-- The next byte of an unquoted cell, which may be its first. -/
lemma partialCell_enter {s : ReadState σ} {part : List UInt8} (hf : s.Flags spec)
    (hquote : s.isFldDelim = false) (h : PartialCell spec s part) {c : UInt8}
    (hopen : s.inFld = false → c ≠ spec.fldDelim) :
    (part ++ [c]).head? ≠ some spec.fldDelim ∧
      PartialBody spec.escapes (spec.term s.fldIdx) s.inEscapeMode part := by
  unfold PartialCell at h
  split at h
  next hfld =>
    subst h
    obtain ⟨-, hmode⟩ := hf.outside hfld
    rw [hmode]
    exact ⟨by simpa using hopen hfld, [], .nil, rfl⟩
  next hfld =>
    rw [hquote] at h
    simp only [Bool.false_eq_true, if_false] at h
    refine ⟨?_, h.2.2⟩
    rw [List.head?_append_of_ne_nil _ h.1]
    exact h.2.1

lemma Step.parsed (hd : spec.IsDld) {i : Nat} {s s' : ReadState σ} {skip : Bool}
    (hi : i < X.length) (hf : s.Flags spec) (hp : Parsed spec X i s)
    (h : Step spec X i s s' skip) : Parsed spec X (if skip then i + 2 else i + 1) s' := by
  obtain ⟨hle, pre, part, hseq, hpart, htake⟩ := hp
  have htake' : X.take (i + 1) = pre ++ (part ++ [byteAt X i]) := by
    rw [take_succ_byteAt hi, htake, List.append_assoc]
  cases h with
  | openQuote hfld hc =>
    refine ⟨hi, pre, part ++ [byteAt X i], hseq, ?_, htake'⟩
    have hnil : part = [] := by simpa [PartialCell, hfld] using hpart
    have hoff : spec.nextEscape (byteAt X i) s = false :=
      nextEscape_eq_false (hc ▸ IsDld.fldDelim_ne hd)
    simp only [PartialCell, Bool.true_eq_false, if_false, if_true, hoff]
    exact ⟨[], by simp [hnil, hc], [], .nil, rfl⟩
  | endPlain hquote hmode hc hopen hcell =>
    obtain ⟨calls, out, rfl⟩ := emitCell_eq hcell
    obtain ⟨hhead, hbody⟩ := partialCell_enter hf hquote hpart hopen
    rw [hmode] at hbody
    have hcell : CellText spec s.fldIdx (part ++ [byteAt X i]) := by
      rw [hc] at hhead ⊢
      refine .plain part hbody.body ?_
      cases part with
      | nil => simp
      | cons a l => simpa using hhead
    refine ⟨hi, pre ++ (part ++ [byteAt X i]), [], ?_, ?_, by simpa using htake'⟩
    · have hnext := hseq.cell hcell
      simp only [CsvSpec.endPlain, enter_fldIdx, enter_numRows]
      have hrec : (s.fldIdx + 1 = spec.nFlds ∧ byteAt X i = spec.recDelim) ↔
          s.fldIdx + 1 = spec.nFlds := by
        rw [hc, CsvSpec.term, and_iff_left_iff_imp]
        intro hlast
        rw [if_pos hlast]
      simp only [hrec]
      exact hnext
    · simp [PartialCell, CsvSpec.endPlain]
  | plainByte hquote hmode hc hopen =>
    obtain ⟨hhead, hbody⟩ := partialCell_enter hf hquote hpart hopen
    refine ⟨hi, pre, part ++ [byteAt X i], ?_, ?_, htake'⟩
    · simpa using hseq
    · simp only [PartialCell, enter_inFld, enter_isFldDelim, enter_fldIdx, hquote,
        Bool.true_eq_false, Bool.false_eq_true, if_false]
      exact ⟨by simp, hhead, hbody.snoc hmode hf.escape_off fun _ => hc⟩
  | closeQuote hfld hquote hmode hc hterm hrows hcell =>
    obtain ⟨calls, out, rfl⟩ := emitCell_eq hcell
    have hi' : i + 1 < X.length :=
      lt_length_of_byteAt_ne (hterm ▸ (IsDld.term_ne hd s.fldIdx).2.2.2)
    simp only [PartialCell, hfld, hquote, hmode, Bool.true_eq_false, if_false, if_true] at hpart
    obtain ⟨body, rfl, hbody⟩ := hpart
    have hcell : CellText spec s.fldIdx
        (spec.fldDelim :: (body ++ [spec.fldDelim, spec.term s.fldIdx])) := .quoted body hbody.body
    refine ⟨hi', pre ++ (spec.fldDelim :: (body ++ [spec.fldDelim, spec.term s.fldIdx])), [], ?_,
      ?_, ?_⟩
    · rw [hrows]
      exact hseq.cell hcell
    · simp [PartialCell, CsvSpec.endQuoted]
    · rw [if_pos rfl, take_succ_byteAt hi', htake', hc, hterm]
      simp
  | quotedByte hfld hquote hmode hc =>
    refine ⟨hi, pre, part ++ [byteAt X i], hseq, ?_, htake'⟩
    simp only [PartialCell, hfld, hquote, Bool.true_eq_false, if_false, if_true] at hpart ⊢
    obtain ⟨body, rfl, hbody⟩ := hpart
    refine ⟨body ++ [byteAt X i], rfl, hbody.snoc hmode hf.escape_off fun hoff hstop => ?_⟩
    simp [(hc hstop).1] at hoff

/-- After a run the file is a sequence of complete cells and a part of a cell. -/
theorem readLoop_parsed (hd : spec.IsDld) (hn : 0 < spec.nFlds) {out : σ} {t : ReadState σ}
    (hrun : spec.readLoop X 0 (ReadState.start out) = some t) :
    ∃ pre part, CellSeq spec t.numRows t.fldIdx pre ∧ PartialCell spec t part ∧
      X = pre ++ part := by
  have hstart : Parsed spec X 0 (ReadState.start out) :=
    ⟨Nat.zero_le _, [], [], .nil, by simp [PartialCell, ReadState.start], by simp⟩
  obtain ⟨j, hj, -, hp⟩ := readLoop_induction hd
    (fun i s s' skip hi hf hp h => h.parsed hd hi hf hp) (flags_start hn out) hstart hrun
  obtain ⟨pre, part, hseq, hpart, htake⟩ := hp.cells
  rw [List.take_of_length_le hj] at htake
  exact ⟨pre, part, hseq, hpart, htake⟩

/-! ### Reading one cell -/

section Forward

variable {s : ReadState σ}

/-- The bytes that keep the reader inside the current cell. -/
lemma readByte_inside {i : Nat} {c : UInt8} (hi : i < X.length) (hbyte : byteAt X i = c)
    (hf : s.Flags spec) (hfld : s.inFld = true)
    (hmode : s.inEscapeMode = true → c = bslash ∨ c = dquote)
    (hquoted : s.isFldDelim = true → c = spec.fldDelim → s.inEscapeMode = true ∧ c = dquote)
    (hplain : s.isFldDelim = false → c ≠ spec.term s.fldIdx) :
    spec.readByte X i s = some ({ s with inEscapeMode := spec.nextEscape c s }, false) := by
  have hesc := hf.not_escaped
  have hok : ¬ (spec.escapes && s.inEscapeMode && c != bslash && c != dquote) = true := by
    cases hm : s.inEscapeMode
    · simp
    · rcases hmode hm with h | h <;> simp [h]
  unfold CsvSpec.readByte
  dsimp only
  rw [hbyte, if_neg hok, noteEscape_eq hf hok]
  rw [if_neg (by simp [hfld])]
  by_cases hq : s.isFldDelim = true
  · rw [if_pos hq, CsvSpec.insideQuoted, if_neg]
    · simp only [Option.map_some, hesc]
    · rintro ⟨hc, hno⟩
      obtain ⟨h1, h2⟩ := hquoted hq hc
      simp [h1, h2] at hno
  · have hnot : ¬ spec.terminates s.fldIdx c = true := by
      rw [terminates_iff hf.fldIdx_lt]
      exact hplain (by simpa using hq)
    rw [if_neg hq, CsvSpec.insidePlain, if_neg]
    · simp only [Option.map_some, hesc]
    · rintro (h | h)
      · omega
      · exact hnot h

/-- The inside of a cell is read without leaving it. -/
lemma readLoop_body (hd : spec.IsDld) (pre : List UInt8) {body post : List UInt8}
    (hX : X = pre ++ body ++ post)
    (hf : s.Flags spec) (hfld : s.inFld = true) (hmode : s.inEscapeMode = false)
    (hbody : Body spec.escapes (if s.isFldDelim then spec.fldDelim else spec.term s.fldIdx) body) :
    spec.readLoop X pre.length s = spec.readLoop X (pre.length + body.length) s := by
  induction hbody generalizing pre with
  | nil => simp
  | @escape d rest hesc hstop hrest ih =>
    have hne : bslash ≠ dquote := by decide
    have hterm := IsDld.term_ne hd s.fldIdx
    have h1 : byteAt X pre.length = bslash := by
      rw [hX, List.append_assoc, List.cons_append, byteAt_append_cons]
    have h2 : byteAt X (pre.length + 1) = d := by
      have hX' : X = (pre ++ [bslash]) ++ d :: (rest ++ post) := by simp [hX]
      rw [hX', ← List.length_singleton (a := bslash), ← List.length_append, byteAt_append_cons]
    have hlen : pre.length + 1 < X.length := by
      simp [hX]
    set s1 : ReadState σ := { s with inEscapeMode := true } with hs1
    have hstep1 : spec.readByte X pre.length s = some (s1, false) := by
      rw [readByte_inside (by omega) h1 hf hfld (by simp [hmode])
        (fun _ h => absurd h.symm (IsDld.fldDelim_ne hd)) (fun _ => hterm.2.1.symm)]
      simp [CsvSpec.nextEscape, hesc, hmode, hs1]
    have hf1 : s1.Flags spec :=
      ⟨hf.fldIdx_lt, hf.not_escaped, fun h => by simp [hesc] at h, fun h => by simp [hs1, hfld] at h⟩
    have hback : spec.nextEscape d s1 = s.inEscapeMode := by simp [CsvSpec.nextEscape, hs1, hmode]
    have hstep2 : spec.readByte X (pre.length + 1) s1 = some (s, false) := by
      rw [readByte_inside hlen h2 hf1 hfld (fun _ => hstop), hback]
      · intro _ hdel
        refine ⟨rfl, hstop.resolve_left fun h => IsDld.fldDelim_ne hd (hdel.symm.trans h)⟩
      · intro _ h
        rcases hstop with h' | h'
        · exact hterm.2.1 (h.symm.trans h')
        · exact hterm.1 (h.symm.trans h')
    rw [readLoop_of_readByte (by omega) hstep1, if_neg (by simp), readLoop_of_readByte hlen hstep2,
      if_neg (by simp)]
    have hnext := ih (pre ++ [bslash, d]) (by simp [hX])
    simp only [List.length_append, List.length_cons, List.length_nil] at hnext ⊢
    rw [show pre.length + 1 + 1 = pre.length + (0 + 1 + 1) by omega, hnext]
    congr 1
    omega
  | @byte c rest hc hstop hrest ih =>
    have h1 : byteAt X pre.length = c := by
      rw [hX, List.append_assoc, List.cons_append, byteAt_append_cons]
    have hlen : pre.length < X.length := by
      simp [hX]
    have hsame : spec.nextEscape c s = s.inEscapeMode := by
      rw [hmode, CsvSpec.nextEscape]
      by_cases hesc : spec.escapes = true
      · simp [show c ≠ bslash from fun h => hc ⟨hesc, h⟩]
      · simp [hesc]
    have hstep : spec.readByte X pre.length s = some (s, false) := by
      rw [readByte_inside hlen h1 hf hfld (by simp [hmode]), hsame]
      · intro hq h
        rw [if_pos hq] at hstop
        exact absurd h hstop
      · intro hq
        rwa [hq, if_neg (by simp)] at hstop
    rw [readLoop_of_readByte hlen hstep, if_neg (by simp)]
    have hnext := ih (pre ++ [c]) (by simp [hX])
    simp only [List.length_append, List.length_cons, List.length_nil] at hnext ⊢
    rw [show pre.length + 1 = pre.length + (0 + 1) by omega, hnext]
    congr 1
    omega

lemma readLoop_eq_bind {i : Nat} (hi : i < X.length) :
    spec.readLoop X i s = (spec.readByte X i s).bind fun r =>
      spec.readLoop X (if r.2 then i + 2 else i + 1) r.1 := by
  rw [CsvSpec.readLoop, if_pos hi]
  cases spec.readByte X i s with
  | none => rfl
  | some r => rfl

lemma noteEscape_self {c : UInt8} (hmode : s.inEscapeMode = false) (hc : c ≠ bslash) :
    spec.noteEscape c s = s := by
  simp [CsvSpec.noteEscape, hc, hmode]

lemma map_reset {o : Option (ReadState σ × Bool)}
    (h : ∀ r, o = some r → r.1.isFldDelimEscaped = false) :
    o.map (fun r => ({ r.1 with isFldDelimEscaped := false }, r.2)) = o := by
  cases o with
  | none => rfl
  | some r =>
    have hr := h r rfl
    rw [Option.map_some, ← hr]

/-- A byte read outside of escape mode, other than a backslash. -/
lemma readByte_eq {i : Nat} (hf : s.Flags spec) (hmode : s.inEscapeMode = false)
    (hc : byteAt X i ≠ bslash) {o : Option (ReadState σ × Bool)}
    (ho : (if s.inFld = false then spec.startCell X i (byteAt X i) s
      else if s.isFldDelim then spec.insideQuoted X i (byteAt X i) s
      else spec.insidePlain X i (byteAt X i) s) = o)
    (hkeep : ∀ r, o = some r → r.1.isFldDelimEscaped = s.isFldDelimEscaped) :
    spec.readByte X i s = o := by
  unfold CsvSpec.readByte
  dsimp only
  rw [if_neg (by simp [hmode]), noteEscape_self hmode hc, ho, map_reset]
  intro r hr
  rw [hkeep r hr, hf.not_escaped]

lemma readByte_open (hd : spec.IsDld) {i : Nat} (hf : s.Flags spec) (hfld : s.inFld = false)
    (hbyte : byteAt X i = spec.fldDelim) :
    spec.readByte X i s =
      some ({ s with inFld := true, isFldDelim := true, lb := i + 1 }, false) := by
  apply readByte_eq hf (hf.outside hfld).2 (hbyte ▸ IsDld.fldDelim_ne hd)
  · rw [if_pos hfld, CsvSpec.startCell, if_pos hbyte]
  · intro r hr
    obtain rfl := Option.some.inj hr
    rfl

lemma emitCell_map_keeps {isHdr quoted skip : Bool} {ub : Nat} (g : ReadState σ → ReadState σ)
    (hg : ∀ t, (g t).isFldDelimEscaped = t.isFldDelimEscaped) (r : ReadState σ × Bool)
    (hr : ((spec.emitCell X isHdr quoted ub s).map fun t => (g t, skip)) = some r) :
    r.1.isFldDelimEscaped = s.isFldDelimEscaped := by
  obtain ⟨t, ht, rfl⟩ := Option.map_eq_some_iff.mp hr
  obtain ⟨calls, out, rfl⟩ := emitCell_eq ht
  exact hg _

lemma readByte_close (hd : spec.IsDld) {i : Nat} (hi : i < X.length) (hf : s.Flags spec)
    (hfld : s.inFld = true) (hquote : s.isFldDelim = true) (hmode : s.inEscapeMode = false)
    (hbyte : byteAt X i = spec.fldDelim) (hterm : byteAt X (i + 1) = spec.term s.fldIdx)
    {rows : Nat} (hrows : rows = if s.fldIdx + 1 = spec.nFlds then s.numRows + 1 else s.numRows) :
    spec.readByte X i s =
      (spec.emitCell X (rows == 1) true i { s with numRows := rows }).map fun t =>
        (spec.endQuoted t, true) := by
  have hsep : ¬ (s.fldIdx + 1 < spec.nFlds ∧ byteAt X (i + 1) ≠ spec.fldSep) := by
    rintro ⟨hlt, hne⟩
    rw [hterm, CsvSpec.term, if_neg (by omega)] at hne
    exact hne rfl
  have hrec : ¬ (s.fldIdx + 1 = spec.nFlds ∧ byteAt X (i + 1) ≠ spec.recDelim) := by
    rintro ⟨hlast, hne⟩
    rw [hterm, CsvSpec.term, if_pos hlast] at hne
    exact hne rfl
  apply readByte_eq hf hmode (hbyte ▸ IsDld.fldDelim_ne hd)
  · rw [if_neg (by simp [hfld]), if_pos hquote, CsvSpec.insideQuoted,
      if_pos ⟨hbyte, hf.not_escaped⟩, if_neg (by omega), if_neg hsep, if_neg hrec, hrows]
  · exact fun r hr => emitCell_map_keeps (s := { s with numRows := rows }) spec.endQuoted
      (fun t => rfl) r hr

/-- The first byte of an unquoted cell is read as if the cell had been entered before it. -/
lemma readByte_enter {i : Nat} (hi : i < X.length) (hf : s.Flags spec) (hfld : s.inFld = false)
    (hbyte : byteAt X i ≠ spec.fldDelim) :
    spec.readByte X i s = spec.readByte X i { s with inFld := true, lb := i } := by
  obtain ⟨hquote, hmode⟩ := hf.outside hfld
  set s1 : ReadState σ := { s with inFld := true, lb := i } with hs1
  have hf1 : s1.Flags spec :=
    ⟨hf.fldIdx_lt, hf.not_escaped, hf.escape_off, fun h => by simp [hs1] at h⟩
  have hok : ¬ (spec.escapes && s.inEscapeMode && byteAt X i != bslash && byteAt X i != dquote) =
      true := by simp [hmode]
  unfold CsvSpec.readByte
  dsimp only
  rw [if_neg hok, if_neg hok, noteEscape_eq hf hok, noteEscape_eq hf1 hok, if_pos hfld,
    if_neg (by simp [hs1]), if_neg (by simp [hs1, hquote]), CsvSpec.startCell, if_neg hbyte,
    CsvSpec.insidePlain]
  simp only [hi.ne, false_or, if_false, hs1, CsvSpec.nextEscape]

lemma readByte_endPlain (hd : spec.IsDld) {i : Nat} (hi : i < X.length) (hf : s.Flags spec)
    (hfld : s.inFld = true) (hquote : s.isFldDelim = false) (hmode : s.inEscapeMode = false)
    (hbyte : byteAt X i = spec.term s.fldIdx) :
    spec.readByte X i s = (spec.emitCell X (s.numRows == 0) false i s).map fun t =>
      (spec.endPlain (spec.term s.fldIdx) t, false) := by
  apply readByte_eq hf hmode (hbyte ▸ (IsDld.term_ne hd s.fldIdx).2.1)
  · rw [if_neg (by simp [hfld]), if_neg (by simp [hquote]), CsvSpec.insidePlain, hbyte,
      if_pos (.inr ((terminates_iff hf.fldIdx_lt).mpr rfl)), if_neg hi.ne]
  · exact fun r hr => emitCell_map_keeps (spec.endPlain _) (fun t => rfl) r hr

/-- A quoted cell is one call of `print_cell` between its delimiters. -/
lemma readLoop_quoted (hd : spec.IsDld) {pre body post : List UInt8} (hf : s.Flags spec)
    (hX : X = pre ++ (spec.fldDelim :: (body ++ [spec.fldDelim, spec.term s.fldIdx])) ++ post)
    (hfld : s.inFld = false) (hbody : Body spec.escapes spec.fldDelim body) {rows : Nat}
    (hrows : rows = if s.fldIdx + 1 = spec.nFlds then s.numRows + 1 else s.numRows) :
    spec.readLoop X pre.length s =
      (spec.emitCell X (rows == 1) true (pre.length + 1 + body.length) { s with
        inFld := true
        isFldDelim := true
        lb := pre.length + 1
        numRows := rows }).bind fun t =>
          spec.readLoop X (pre.length + 1 + body.length + 2) (spec.endQuoted t) := by
  obtain ⟨-, hmode⟩ := hf.outside hfld
  set s1 : ReadState σ := { s with inFld := true, isFldDelim := true, lb := pre.length + 1 } with hs1
  have hf1 : s1.Flags spec :=
    ⟨hf.fldIdx_lt, hf.not_escaped, hf.escape_off, fun h => by simp [hs1] at h⟩
  have hX1 : X = (pre ++ [spec.fldDelim]) ++ body ++
      (spec.fldDelim :: spec.term s.fldIdx :: post) := by simp [hX]
  have hX2 : X = (pre ++ [spec.fldDelim] ++ body ++ [spec.fldDelim]) ++
      (spec.term s.fldIdx :: post) := by simp [hX]
  have hlen1 : (pre ++ [spec.fldDelim]).length = pre.length + 1 := by simp
  have hlen2 : (pre ++ [spec.fldDelim] ++ body).length = pre.length + 1 + body.length := by
    rw [List.length_append, hlen1]
  have hlen3 : (pre ++ [spec.fldDelim] ++ body ++ [spec.fldDelim]).length =
      pre.length + 1 + body.length + 1 := by
    rw [List.length_append, hlen2, List.length_singleton]
  have hopen : byteAt X pre.length = spec.fldDelim := by
    rw [hX, List.append_assoc, List.cons_append, byteAt_append_cons]
  have hclose : byteAt X (pre.length + 1 + body.length) = spec.fldDelim := by
    rw [hX1, ← hlen2, byteAt_append_cons]
  have hterm : byteAt X (pre.length + 1 + body.length + 1) = spec.term s.fldIdx := by
    rw [hX2, ← hlen3, byteAt_append_cons]
  have hin : pre.length + 1 + body.length < X.length := by
    rw [hX1, List.length_append, hlen2]
    simp
  have hinside := readLoop_body hd _ hX1 hf1 rfl hmode (by simpa [hs1] using hbody)
  rw [hlen1] at hinside
  rw [readLoop_of_readByte (by omega) (readByte_open hd hf hfld hopen), if_neg (by simp), hinside,
    readLoop_eq_bind hin, readByte_close hd hin hf1 rfl rfl hmode hclose hterm hrows]
  cases spec.emitCell X (rows == 1) true (pre.length + 1 + body.length) { s1 with numRows := rows } with
  | none => rfl
  | some t => rfl

/-- An unquoted cell is one call of `print_cell` up to its terminator. -/
lemma readLoop_plain (hd : spec.IsDld) {pre body post : List UInt8} (hf : s.Flags spec)
    (hX : X = pre ++ (body ++ [spec.term s.fldIdx]) ++ post) (hfld : s.inFld = false)
    (hbody : Body spec.escapes (spec.term s.fldIdx) body)
    (hhead : body.head? ≠ some spec.fldDelim) :
    spec.readLoop X pre.length s =
      (spec.emitCell X (s.numRows == 0) false (pre.length + body.length) { s with
        inFld := true
        lb := pre.length }).bind fun t =>
          spec.readLoop X (pre.length + body.length + 1) (spec.endPlain (spec.term s.fldIdx) t) := by
  obtain ⟨hquote, hmode⟩ := hf.outside hfld
  set s1 : ReadState σ := { s with inFld := true, lb := pre.length } with hs1
  have hf1 : s1.Flags spec :=
    ⟨hf.fldIdx_lt, hf.not_escaped, hf.escape_off, fun h => by simp [hs1] at h⟩
  have hX1 : X = pre ++ body ++ (spec.term s.fldIdx :: post) := by simp [hX]
  have hterm : byteAt X (pre.length + body.length) = spec.term s.fldIdx := by
    rw [hX1, ← List.length_append, byteAt_append_cons]
  have hin : pre.length + body.length < X.length := by
    rw [hX1, List.length_append, List.length_append]
    simp
  have hfirst : byteAt X pre.length ≠ spec.fldDelim := by
    cases body with
    | nil =>
      rw [List.length_nil, add_zero] at hterm
      rw [hterm]
      exact (IsDld.term_ne hd s.fldIdx).2.2.1
    | cons c body =>
      rw [hX1, List.append_assoc, List.cons_append, byteAt_append_cons]
      simpa using hhead
  have hinside := readLoop_body hd _ hX1 hf1 rfl hmode (by simpa [hs1, hquote] using hbody)
  rw [readLoop_eq_bind (by omega), readByte_enter (by omega) hf hfld hfirst,
    ← readLoop_eq_bind (by omega), hinside, readLoop_eq_bind hin,
    readByte_endPlain hd hin hf1 rfl hquote hmode hterm]
  cases spec.emitCell X (s1.numRows == 0) false (pre.length + body.length) s1 with
  | none => rfl
  | some t => rfl

end Forward

/-! ### Reading a sequence of cells -/

/-- Between two cells, at the given row and field. -/
structure Between (spec : CsvSpec σ) (rows fldIdx : Nat) (s : ReadState σ) : Prop where
  flags : s.Flags spec
  outside : s.inFld = false
  rows_eq : s.numRows = rows
  fld_eq : s.fldIdx = fldIdx

lemma between_endQuoted {rows fldIdx lb ub : Nat} {isHdr : Bool} {s t : ReadState σ}
    (h : Between spec rows fldIdx s)
    (hcell : spec.emitCell X isHdr true ub { s with
      inFld := true
      isFldDelim := true
      lb := lb
      numRows := if fldIdx + 1 = spec.nFlds then rows + 1 else rows } = some t) :
    Between spec (if fldIdx + 1 = spec.nFlds then rows + 1 else rows) (spec.nextFld fldIdx)
      (spec.endQuoted t) := by
  obtain ⟨hf, hfld, hrows, rfl⟩ := h
  obtain ⟨calls, out, rfl⟩ := emitCell_eq hcell
  have hmode := (hf.outside hfld).2
  exact ⟨⟨nextFld_lt hf.fldIdx_lt, hf.not_escaped, hf.escape_off, fun _ => ⟨rfl, hmode⟩⟩, rfl, rfl,
    rfl⟩

lemma between_endPlain {rows fldIdx lb ub : Nat} {isHdr : Bool} {s t : ReadState σ}
    (h : Between spec rows fldIdx s)
    (hcell : spec.emitCell X isHdr false ub { s with inFld := true, lb := lb } = some t) :
    Between spec (if fldIdx + 1 = spec.nFlds then rows + 1 else rows) (spec.nextFld fldIdx)
      (spec.endPlain (spec.term fldIdx) t) := by
  obtain ⟨hf, hfld, rfl, rfl⟩ := h
  obtain ⟨calls, out, rfl⟩ := emitCell_eq hcell
  refine ⟨⟨nextFld_lt hf.fldIdx_lt, hf.not_escaped, hf.escape_off, fun _ => hf.outside hfld⟩, rfl,
    ?_, rfl⟩
  have hrec : (s.fldIdx + 1 = spec.nFlds ∧ spec.term s.fldIdx = spec.recDelim) ↔
      s.fldIdx + 1 = spec.nFlds := by
    rw [CsvSpec.term, and_iff_left_iff_imp]
    intro hlast
    rw [if_pos hlast]
  simp only [CsvSpec.endPlain, hrec]

/-- The reader passes over a sequence of complete cells, unless `print_cell` rejects one. -/
lemma readLoop_cellSeq (hd : spec.IsDld) (hn : 0 < spec.nFlds) {rows fldIdx : Nat}
    {pre : List UInt8} (hseq : CellSeq spec rows fldIdx pre) (out : σ) (post : List UInt8) :
    spec.readLoop (pre ++ post) 0 (ReadState.start out) = none ∨
      ∃ s, Between spec rows fldIdx s ∧
        spec.readLoop (pre ++ post) 0 (ReadState.start out) =
          spec.readLoop (pre ++ post) pre.length s := by
  induction hseq generalizing post with
  | nil => exact .inr ⟨ReadState.start out, ⟨flags_start hn out, rfl, rfl, rfl⟩, rfl⟩
  | @cell rows fldIdx pre txt hpre htxt ih =>
    rw [List.append_assoc]
    rcases ih (txt ++ post) with hnone | ⟨s, hs, hrun⟩
    · exact .inl hnone
    rw [hrun]
    obtain rfl := hs.fld_eq
    obtain rfl := hs.rows_eq
    cases htxt with
    | quoted body hbody =>
      rw [readLoop_quoted hd hs.flags (List.append_assoc _ _ _).symm hs.outside hbody rfl]
      cases hcell : spec.emitCell _ _ _ _ _ with
      | none => exact .inl rfl
      | some t =>
        refine .inr ⟨_, between_endQuoted hs hcell, ?_⟩
        rw [Option.bind_some]
        congr 1
        simp only [List.length_append, List.length_cons, List.length_nil]
        omega
    | plain body hbody hhead =>
      rw [readLoop_plain hd hs.flags (List.append_assoc _ _ _).symm hs.outside hbody hhead]
      cases hcell : spec.emitCell _ _ _ _ _ with
      | none => exact .inl rfl
      | some t =>
        refine .inr ⟨_, between_endPlain hs hcell, ?_⟩
        rw [Option.bind_some]
        congr 1
        simp only [List.length_append, List.length_cons, List.length_nil]
        omega

end Datacl
