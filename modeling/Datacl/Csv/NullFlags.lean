import Datacl.Csv.PrintCell

/-!
# The null column of a loaded field

`is_any_null` tells `dld` whether the null column of a field is needed. `print_cell` sets it for
empty cells only. There are two more kinds of cells for which it writes FALSE: a string that an
existing dictionary lacks, where `is_null_if_missing` makes it null, and a string of fixed length
that starts with a NUL.
-/

namespace Datacl

/-- The cell is not empty, and yet FALSE is written for it. -/
def LosesNull (env : CellEnv) (fld : CellFld) (raw : List UInt8) : Prop :=
  ∃ txt, dldText raw = some txt ∧ txt ≠ [] ∧
    if fld.props.isLkp then
      ∃ files nKeys v, fld.dictOld = some (files, nKeys) ∧
        getFromDict env.H.hash files nKeys (cString txt) = some v ∧ v < 0
    else fld.fldtype = .SC ∧ txt.headD 0 = 0

section

variable {env : CellEnv} {fld : CellFld} {raw buf txt : List UInt8}

/-- Only an empty cell has an empty text. -/
lemma dldText_eq_nil_iff : dldText raw = some [] ↔ raw = [] := by
  constructor
  · intro h
    match raw with
    | [] => rfl
    | [c] =>
      rw [dldText] at h
      split at h <;> simp at h
    | c :: d :: rest =>
      rw [dldText] at h
      split at h
      · split at h <;> simp at h
      · simp at h
  · rintro rfl
    rfl

lemma takeWhile_append_zero (txt rest : List UInt8) :
    (txt ++ 0 :: rest).takeWhile (· ≠ 0) = txt.takeWhile (· ≠ 0) := by
  induction txt with
  | nil => simp
  | cons c txt ih =>
    rw [List.cons_append, List.takeWhile_cons, List.takeWhile_cons]
    split
    · rw [ih]
    · rfl

/-- What the buffer held before lies behind the NUL. -/
lemma cString_fillBuf (buf txt : List UInt8) : cString (fillBuf buf txt) = cString txt :=
  Subtype.ext (takeWhile_append_zero txt _)

lemma headD_fillBuf (buf txt : List UInt8) : (fillBuf buf txt).headD 0 = txt.headD 0 := by
  cases txt <;> rfl

/-- The null flag of a lookup field. -/
lemma lookupCell_nn {cNn : Bool} {dict : Dict} {r : Bool × List UInt8 × Dict}
    (h : lookupCell env fld buf cNn dict = some r) :
    r.1 = false ↔ cNn = false ∨ ∃ files nKeys v, fld.dictOld = some (files, nKeys) ∧
      getFromDict env.H.hash files nKeys (cString buf) = some v ∧ v < 0 := by
  unfold lookupCell at h
  cases hold : fld.dictOld with
  | none =>
    rw [hold] at h
    dsimp only at h
    split at h
    next hnn =>
      split at h
      · simp at h
      · obtain rfl := Option.some.inj h
        simp [hnn]
    next hnn =>
      obtain rfl := Option.some.inj h
      simpa using hnn
  | some old =>
    obtain ⟨files, nKeys⟩ := old
    rw [hold] at h
    dsimp only at h
    split at h
    next hnn =>
      cases hget : getFromDict env.H.hash files nKeys (cString buf) with
      | none => simp [hget] at h
      | some v =>
        rw [hget] at h
        dsimp only at h
        split at h
        next hneg =>
          split at h
          · obtain rfl := Option.some.inj h
            simp [hget, hneg]
          · simp at h
        next hpos =>
          obtain rfl := Option.some.inj h
          simp [hnn, hget, hpos]
    next hnn =>
      obtain rfl := Option.some.inj h
      simp [hnn]

/-- The null flag of a field without a dictionary. -/
lemma plainCell_nn {cNn : Bool} {r : Bool × List UInt8 × List UInt8}
    (h : plainCell env fld buf txt cNn = some r) :
    r.1 = if fld.fldtype = .SC then decide (buf.headD 0 ≠ 0) else cNn := by
  unfold plainCell at h
  cases hty : fld.fldtype <;> rw [hty] at h <;> dsimp only at h
  case SC | I1 | I2 | I4 | I8 | F4 | F8 | SV =>
    obtain ⟨x, -, rfl⟩ := Option.map_eq_some_iff.mp h
    simp
  all_goals simp at h

/-- FALSE is written for the empty text and for what `LosesNull` describes. -/
lemma cellValue_nn {dict : Dict} {r : Bool × List UInt8 × List UInt8 × Dict}
    (htxt : dldText raw = some txt)
    (h : cellValue env fld (fillBuf buf txt) txt (txt.length ≠ 0) dict = some r) :
    r.1 = false ↔ raw = [] ∨ LosesNull env fld raw := by
  have hnil : raw = [] ↔ txt = [] := by
    rw [← dldText_eq_nil_iff, htxt, Option.some.injEq]
  have hloses : LosesNull env fld raw ↔ txt ≠ [] ∧
      if fld.props.isLkp then
        ∃ files nKeys v, fld.dictOld = some (files, nKeys) ∧
          getFromDict env.H.hash files nKeys (cString txt) = some v ∧ v < 0
      else fld.fldtype = .SC ∧ txt.headD 0 = 0 := by
    constructor
    · rintro ⟨txt', htxt', hne, hrest⟩
      obtain rfl := Option.some.inj (htxt.symm.trans htxt')
      exact ⟨hne, hrest⟩
    · rintro ⟨hne, hrest⟩
      exact ⟨txt, htxt, hne, hrest⟩
  rw [hnil, hloses]
  unfold cellValue at h
  split at h
  next hlkp =>
    obtain ⟨p, hp, rfl⟩ := Option.map_eq_some_iff.mp h
    rw [lookupCell_nn hp, if_pos hlkp, cString_fillBuf]
    by_cases hempty : txt = [] <;> simp [hempty]
  next hlkp =>
    obtain ⟨p, hp, rfl⟩ := Option.map_eq_some_iff.mp h
    rw [plainCell_nn hp, if_neg hlkp, headD_fillBuf]
    by_cases hempty : txt = []
    · subst hempty
      split <;> simp
    · split
      next hsc => simp [hempty, hsc]
      next hsc => simp [hempty, hsc]

/-- What a successful call adds to the null column and to `is_any_null`. -/
lemma printCell_spec {buf' : List UInt8} {out out' : FldOut} (hnull : fld.props.isAllDef = false)
    (h : printCell env fld raw buf out = some (buf', out')) :
    ∃ cNn, out'.nn = out.nn ++ [cNn] ∧ out'.isAnyNull = (out.isAnyNull || decide (raw = [])) ∧
      (cNn = false ↔ raw = [] ∨ LosesNull env fld raw) := by
  obtain ⟨txt, r, htxt, -, -, -, hval, -, rfl⟩ := printCell_cases h
  have hempty : decide (txt.length = 0) = decide (raw = []) := by
    rw [decide_eq_decide, List.length_eq_zero_iff, ← (dldText_eq_nil_iff : dldText raw = some [] ↔ raw = []), htxt,
      Option.some.injEq]
  refine ⟨r.1, ?_, ?_, cellValue_nn htxt hval⟩
  · simp [hnull]
  · rw [← hempty]

/-- One call adds to the files of its own field only. -/
lemma loadCell_outs {flds : Nat → CellFld} {s s' : Loading} {c : Nat × List UInt8}
    (h : loadCell env flds s c = some s') : ∃ out',
      printCell env (flds c.1) c.2 s.buf (s.outs c.1) = some (s'.buf, out') ∧
        s'.outs = Function.update s.outs c.1 out' := by
  obtain ⟨r, hr, rfl⟩ := Option.map_eq_some_iff.mp h
  exact ⟨r.2, hr, rfl⟩

/-- A call sets `is_any_null` for an empty cell, and adds FALSE to the null column for more. -/
lemma loadCell_nulls {flds : Nat → CellFld} {s s' : Loading} {c : Nat × List UInt8} {f : Nat}
    (hnull : (flds f).props.isAllDef = false) (h : loadCell env flds s c = some s') :
    ((s'.outs f).isAnyNull = true ↔ (s.outs f).isAnyNull = true ∨ c.1 = f ∧ c.2 = []) ∧
      (false ∈ (s'.outs f).nn ↔
        false ∈ (s.outs f).nn ∨ c.1 = f ∧ (c.2 = [] ∨ LosesNull env (flds f) c.2)) := by
  obtain ⟨out', hcell, houts⟩ := loadCell_outs h
  rw [houts]
  by_cases hf : c.1 = f
  · subst hf
    obtain ⟨cNn, hnn, hany, hflag⟩ := printCell_spec hnull hcell
    rw [Function.update_self, hnn, hany, List.mem_append, List.mem_singleton, eq_comm (b := cNn),
      hflag]
    simp
  · rw [Function.update_of_ne (Ne.symm hf)]
    simp [hf]

/-- The null column and `is_any_null` of a field after a run. -/
lemma printCells_nulls {flds : Nat → CellFld} {cells : List (Nat × List UInt8)} {s s' : Loading}
    {f : Nat} (hnull : (flds f).props.isAllDef = false)
    (h : printCells env flds s cells = some s') :
    ((s'.outs f).isAnyNull = true ↔ (s.outs f).isAnyNull = true ∨ (f, []) ∈ cells) ∧
      (false ∈ (s'.outs f).nn ↔ false ∈ (s.outs f).nn ∨ (f, []) ∈ cells ∨
        ∃ raw, (f, raw) ∈ cells ∧ LosesNull env (flds f) raw) := by
  induction cells generalizing s with
  | nil =>
    obtain rfl := Option.some.inj h
    simp
  | cons c cells ih =>
    rw [printCells, List.foldlM_cons] at h
    obtain ⟨t, ht, hrest⟩ := Option.bind_eq_some_iff.mp h
    obtain ⟨hany, hnn⟩ := loadCell_nulls hnull ht
    obtain ⟨ihany, ihnn⟩ := ih hrest
    obtain ⟨g, raw⟩ := c
    rw [ihany, ihnn, hany, hnn]
    constructor
    · rw [List.mem_cons, Prod.mk.injEq, or_assoc, eq_comm (a := g), eq_comm (a := raw)]
    · simp only [List.mem_cons, Prod.mk.injEq, or_and_right, exists_or]
      constructor
      · rintro ((hc | ⟨rfl, hc | hc⟩) | hc | hc)
        · exact .inl hc
        · exact .inr (.inl (.inl ⟨rfl, hc.symm⟩))
        · exact .inr (.inr (.inl ⟨raw, ⟨rfl, rfl⟩, hc⟩))
        · exact .inr (.inl (.inr hc))
        · exact .inr (.inr (.inr hc))
      · rintro (hc | (⟨rfl, hc⟩ | hc) | ⟨raw', ⟨rfl, rfl⟩, hc⟩ | hc)
        · exact .inl (.inl hc)
        · exact .inl (.inr ⟨rfl, .inl hc.symm⟩)
        · exact .inr (.inl hc)
        · exact .inl (.inr ⟨rfl, .inr hc⟩)
        · exact .inr (.inr hc)

/-- The summary agrees with the null column: it is set exactly if FALSE was written, and the null
column is deleted only if all flags are TRUE. -/
def NullsKept (props : CellProps) (out : FldOut) : Prop :=
  (out.isAnyNull = true ↔ false ∈ out.nn) ∧ (dldNn props out = none → ∀ b ∈ out.nn, b = true)

instance (props : CellProps) (out : FldOut) : Decidable (NullsKept props out) :=
  inferInstanceAs (Decidable (_ ∧ _))

lemma nullsKept_iff {props : CellProps} {out : FldOut} (hnull : props.isAllDef = false) :
    NullsKept props out ↔ (out.isAnyNull = true ↔ false ∈ out.nn) := by
  rw [NullsKept, and_iff_left_iff_imp]
  intro hany hdel b hb
  rw [dldNn, hnull, if_neg Bool.false_ne_true] at hdel
  split at hdel
  next hoff =>
    by_contra hfalse
    rw [Bool.not_eq_true] at hfalse
    rw [hany.mpr (hfalse ▸ hb)] at hoff
    cases hoff
  · cases hdel

end

/-- A hash of the first byte. -/
def firstByteEnv : CellEnv :=
  ⟨⟨fun _ s => BitVec.ofNat 64 (s.val.headD 0).toNat, fun k => k.truncate 32⟩, fun _ => none,
    fun _ => none⟩

/-- A lookup field against a dictionary of the string `A`; strings that are missing are null. -/
def lookupA : CellFld where
  fldtype := .I4
  props := ⟨false, true, true, false, 0⟩
  dictOld := some (⟨[65, 0], Bytes.put 8 65, Bytes.put 2 1, Bytes.put 8 0⟩, 1)
  nnFp := true
  lenFp := false

end Datacl
