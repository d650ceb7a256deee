import Datacl.Lib.BitFields
import Datacl.Vec.PackBounds

/-!
# Unpacking what was packed
-/

namespace Datacl

open BitFields (insertAll mask)

/-- A column that is packed: its name and type, the type it is unpacked to, and its bits. -/
structure PackFld where
  name : Name
  src : FldType
  dst : FldType
  field : BitFields.Field
  col : List Int

/-- The value in row `i`. -/
def PackFld.val (f : PackFld) (i : Nat) : Int := f.col.getD i 0

/-- The field can be packed into type `t` and unpacked again. -/
structure Packable (t : FldType) (nR : Nat) (f : PackFld) : Prop where
  src : f.src ∈ [FldType.I1, .I2, .I4, .I8] ∧ ¬ (t = .I4 ∧ f.src = .I8)
  dst : f.dst ∈ [FldType.I1, .I2, .I4, .I8] ∧ ¬ (t = .I4 ∧ f.dst = .I8)
  nbits : 1 ≤ f.field.nbits ∧ f.field.nbits ≤ maxNbits f.dst ∧ f.field.nbits < fldBits t
  room : f.field.shift + f.field.nbits ≤ fldBits t
  length : f.col.length = nR
  values : ∀ x ∈ f.col, 0 ≤ x ∧ x < 2 ^ f.field.nbits

instance (t : FldType) (nR : Nat) (f : PackFld) : Decidable (Packable t nR f) :=
  decidable_of_iff ((f.src ∈ [FldType.I1, .I2, .I4, .I8] ∧ ¬ (t = .I4 ∧ f.src = .I8)) ∧
      (f.dst ∈ [FldType.I1, .I2, .I4, .I8] ∧ ¬ (t = .I4 ∧ f.dst = .I8)) ∧
      (1 ≤ f.field.nbits ∧ f.field.nbits ≤ maxNbits f.dst ∧ f.field.nbits < fldBits t) ∧
      f.field.shift + f.field.nbits ≤ fldBits t ∧ f.col.length = nR ∧
      ∀ x ∈ f.col, 0 ≤ x ∧ x < 2 ^ f.field.nbits)
    ⟨fun ⟨h1, h2, h3, h4, h5, h6⟩ => ⟨h1, h2, h3, h4, h5, h6⟩,
      fun h => ⟨h.src, h.dst, h.nbits, h.room, h.length, h.values⟩⟩

lemma Packable.val {t : FldType} {nR : Nat} {f : PackFld} (h : Packable t nR f) (i : Nat) :
    0 ≤ f.val i ∧ f.val i < 2 ^ f.field.nbits := by
  rw [PackFld.val, List.getD_eq_getElem?_getD]
  by_cases hi : i < f.col.length
  · rw [List.getElem?_eq_getElem hi, Option.getD_some]
    exact h.values _ (List.getElem_mem hi)
  · rw [List.getElem?_eq_none (by omega), Option.getD_none]
    exact ⟨le_rfl, by positivity⟩

/-! ### One row -/

lemma toInt_ofNat_of_lt {w n x : Nat} (hx : x < 2 ^ n) (hn : n < w) : (BitVec.ofNat w x).toInt = x := by
  have hpow : 2 * 2 ^ n ≤ 2 ^ w := by
    rw [← pow_succ']
    exact Nat.pow_le_pow_right (by omega) hn
  have hmod : (BitVec.ofNat w x).toNat = x := by
    rw [BitVec.toNat_ofNat, Nat.mod_eq_of_lt (by omega)]
  rw [BitVec.toInt_eq_toNat_of_lt (by omega), hmod]

/-- The fields of a row with their numbers. -/
def rowFields (flds : List PackFld) (i : Nat) : List (BitFields.Field × Nat) :=
  flds.map fun f => (f.field, (f.val i).toNat)

section

variable {t : FldType} {nR : Nat} {flds : List PackFld}

lemma packRow_eq (h : ∀ f ∈ flds, Packable t nR f) (i : Nat) (outval : BitVec (fldBits t)) :
    packRow (fldBits t) (flds.map fun f => (f.val i, f.field.shift)) outval =
      some (outval ||| insertAll (fldBits t) (rowFields flds i)) := by
  induction flds generalizing outval with
  | nil => simp [packRow, rowFields, insertAll]
  | cons f flds ih =>
    obtain ⟨hf, hrest⟩ := List.forall_mem_cons.mp h
    obtain ⟨h0, hlt⟩ := hf.val i
    obtain ⟨x, hx⟩ := Int.eq_ofNat_of_zero_le h0
    have hbound : x < 2 ^ f.field.nbits := by
      rw [hx] at hlt
      exact_mod_cast hlt
    have hnonneg : ¬ (BitVec.ofNat (fldBits t) x).toInt < 0 := by
      rw [toInt_ofNat_of_lt hbound hf.nbits.2.2]
      omega
    have hcons : rowFields (f :: flds) i = (f.field, x) :: rowFields flds i := by
      rw [rowFields, List.map_cons, hx, Int.toNat_natCast, rowFields]
    rw [List.map_cons, packRow, hx, BitVec.ofInt_natCast, if_neg hnonneg, ih hrest, hcons, insertAll,
      BitVec.or_assoc]

lemma twoRaisedTo_eq (n : Nat) : twoRaisedTo n = BitVec.ofNat 64 (2 ^ n) := by
  induction n with
  | zero => rfl
  | succ n ih =>
    rw [twoRaisedTo, ih, pow_succ, BitVec.ofNat_mul]
    rfl

lemma twoRaisedTo_sub_one {n : Nat} (hn : n < 64) : twoRaisedTo n - 1 = mask 64 n := by
  have hpow : 2 ^ n < 2 ^ 64 := Nat.pow_lt_pow_right (by omega) hn
  have hpos : 0 < 2 ^ n := by positivity
  rw [twoRaisedTo_eq, mask]
  apply BitVec.eq_of_toNat_eq
  rw [BitVec.toNat_sub, BitVec.toNat_ofNat, BitVec.toNat_ofNat, Nat.mod_eq_of_lt hpow]
  have hone : (1 : BitVec 64).toNat = 1 := rfl
  rw [hone]
  omega

lemma fldBits_le (t : FldType) : fldBits t ≤ 64 := by
  cases t <;> decide

lemma unpackVal_eq {w : Nat} (hw : w ≤ 64) (inVal : BitVec w) (shift : Nat) {n : Nat} (hn : n < 64) :
    unpackVal w inVal shift n = ((inVal >>> shift) &&& mask w n).toInt := by
  rw [unpackVal, twoRaisedTo_sub_one hn]
  congr 1
  refine BitVec.eq_of_getLsbD_eq fun j hj => ?_
  have h64 : j < 64 := by omega
  rw [BitVec.getLsbD_setWidth, BitVec.getLsbD_and, BitVec.getLsbD_and, BitVec.getLsbD_setWidth,
    BitFields.getLsbD_mask, BitFields.getLsbD_mask]
  simp only [hj, h64, decide_true, Bool.true_and]

lemma fits_of_packable {f : PackFld} (h : Packable t nR f) (i : Nat) :
    fitsFldtype (f.val i) f.dst = true := by
  obtain ⟨h0, hlt⟩ := h.val i
  have hpow : (2 : Int) ^ f.field.nbits ≤ 2 ^ maxNbits f.dst :=
    pow_le_pow_right₀ (by omega) h.nbits.2.1
  have hcases := h.dst.1
  simp only [List.mem_cons, List.not_mem_nil, or_false] at hcases
  rcases hcases with hd | hd | hd | hd <;> rw [hd] at hpow ⊢ <;> simp only [maxNbits] at hpow <;>
    simp only [fitsFldtype, decide_eq_true_eq] <;> omega

lemma unpackRow_eq (h : ∀ f ∈ flds, Packable t nR f)
    (hapart : flds.Pairwise fun f g => BitFields.Apart f.field g.field) (i : Nat) :
    unpackRow (fldBits t) (flds.map fun f => (f.field.shift, f.field.nbits, f.dst))
        (insertAll (fldBits t) (rowFields flds i)).toInt = some (flds.map fun f => f.val i) := by
  have hx : ∀ p ∈ rowFields flds i, p.2 < 2 ^ p.1.nbits := by
    intro p hp
    obtain ⟨f, hf, rfl⟩ := List.mem_map.mp hp
    obtain ⟨h0, hlt⟩ := (h f hf).val i
    zify
    rwa [Int.toNat_of_nonneg h0]
  have hpair : (rowFields flds i).Pairwise fun p q => BitFields.Apart p.1 q.1 :=
    List.pairwise_map.mpr hapart
  rw [unpackRow, List.mapM_map]
  refine mapM_eq_some_map fun f hf => ?_
  have hpack := h f hf
  obtain ⟨h0, hlt⟩ := hpack.val i
  have hbound : (f.val i).toNat < 2 ^ f.field.nbits := hx _ (List.mem_map_of_mem hf)
  have hn : f.field.nbits < 64 := hpack.nbits.2.2.trans_le (fldBits_le t)
  have hval : unpackVal (fldBits t)
      (BitVec.ofInt (fldBits t) (insertAll (fldBits t) (rowFields flds i)).toInt)
      f.field.shift f.field.nbits = f.val i := by
    have hfound := BitFields.extract_insertAll hx hpair (List.mem_map_of_mem hf) hpack.room
    rw [BitVec.ofInt_toInt, unpackVal_eq (fldBits_le t) _ _ hn, hfound,
      toInt_ofNat_of_lt hbound hpack.nbits.2.2, Int.toNat_of_nonneg h0]
  rw [Function.comp_apply]
  dsimp only
  rw [hval, if_pos (fits_of_packable hpack i)]

/-! ### All rows -/

/-- The packed column. -/
def packedCells (t : FldType) (nR : Nat) (flds : List PackFld) : List Int :=
  (List.range nR).map fun i => (insertAll (fldBits t) (rowFields flds i)).toInt

lemma packCells_eq (h : ∀ f ∈ flds, Packable t nR f) :
    packCells (fldBits t) nR (flds.map PackFld.col) (flds.map fun f => f.field.shift) =
      some (packedCells t nR flds) := by
  refine mapM_eq_some_map fun i _ => ?_
  have hrow : ((flds.map PackFld.col).map fun x => x.getD i 0).zip (flds.map fun f => f.field.shift) =
      flds.map fun f => (f.val i, f.field.shift) := by
    rw [List.map_map, List.zip_map']
    rfl
  have hor : 0 ||| insertAll (fldBits t) (rowFields flds i) =
      insertAll (fldBits t) (rowFields flds i) := BitVec.zero_or
  rw [hrow, packRow_eq h, hor, Option.map_some]

/-- The rows that are unpacked. -/
def fldRows (nR : Nat) (flds : List PackFld) : List (List Int) :=
  (List.range nR).map fun i => flds.map fun f => f.val i

lemma unpackRows_eq (h : ∀ f ∈ flds, Packable t nR f)
    (hapart : flds.Pairwise fun f g => BitFields.Apart f.field g.field)
    (hpart : (partition nR 8192 (-1)).isSome) :
    unpackRows (fldBits t) nR (flds.map fun f => (f.field.shift, f.field.nbits, f.dst))
      (packedCells t nR flds) = some (fldRows nR flds) := by
  have hcells : (List.range nR).map (fun i => (packedCells t nR flds).getD i 0) =
      packedCells t nR flds := by
    refine List.ext_getElem (by simp [packedCells]) fun i h1 h2 => ?_
    rw [List.getElem_map, List.getElem_range, List.getD_eq_getElem _ _ h2]
  obtain ⟨p, hp⟩ := Option.isSome_iff_exists.mp hpart
  have hlen : (packedCells t nR flds).length = nR := by
    rw [packedCells, List.length_map, List.length_range]
  have hblocks : partition (packedCells t nR flds).length 8192 (-1) = some p := by
    rw [hlen]
    exact hp
  have hmap := vecMap_eq
    (unpackRow (fldBits t) (flds.map fun f => (f.field.shift, f.field.nbits, f.dst))) hblocks
  rw [unpackRows, hcells, hmap, Option.bind_some, packedCells, List.map_map, List.mapM_map]
  exact mapM_eq_some_map fun i _ => unpackRow_eq h hapart i

lemma unpackRows_isSome {w : Nat} {l : List (Nat × Nat × FldType)} {cells : List Int}
    {rows : List (List Int)} (h : unpackRows w nR l cells = some rows) :
    (partition nR 8192 (-1)).isSome := by
  cases hpart : partition nR 8192 (-1) with
  | some p => rfl
  | none =>
    rw [unpackRows, vecMap, List.length_map, List.length_range] at h
    have hcast : ((8192 : Nat) : Int) = 8192 := rfl
    rw [hcast, hpart] at h
    cases h

lemma columns_fldRows (h : ∀ f ∈ flds, f.col.length = nR) :
    ((List.range flds.length).map fun j => (fldRows nR flds).map fun row => row.getD j 0) =
      flds.map PackFld.col := by
  refine List.ext_getElem (by simp) fun j h1 h2 => ?_
  have hj : j < flds.length := by simpa using h1
  have hlen : flds[j].col.length = nR := h _ (List.getElem_mem hj)
  rw [List.getElem_map, List.getElem_range, List.getElem_map, fldRows, List.map_map]
  refine List.ext_getElem (by simp [hlen]) fun i hi1 hi2 => ?_
  rw [List.getElem_map, List.getElem_range, Function.comp_apply, List.getD_eq_getElem _ _ (by simpa using hj),
    List.getElem_map, PackFld.val, List.getD_eq_getElem _ _ hi2]

/-! ### The calls -/

/-- Arguments of `pack` and `unpack` that name the fields, with the same shifts, in a table where
the fields are found and new ones can be made. -/
structure PackCall (calls : PackCalls) (a : PackArgs) (b : UnpackArgs) (t : FldType) (nR : Nat)
    (flds : List PackFld) : Prop where
  tbl : a.tbl ≠ []
  fout : a.fout ≠ []
  isTbl : calls.isTbl = some nR
  newFile : ∀ i, calls.newFile i = true
  addFld : ∀ i, calls.addFld i = true
  isFld : ∀ f ∈ flds, calls.isFld f.name = some ⟨f.src, false, some f.col⟩ ∧ f.name ≠ a.fout
  readsDst : unstrFldtype a.strDstFldtype = some t
  dstOk : t = .I4 ∨ t = .I8
  names : explode ':' a.strFlds = flds.map PackFld.name
  readsShifts : (explode ':' a.strShifts).map readShift = flds.map fun f => some f.field.shift
  sameTbl : b.tbl = a.tbl
  sameFld : b.fin = a.fout
  sameShifts : b.strShifts = a.strShifts
  newNames : (explode ':' b.strFlds).length = flds.length
  readsNbits : (explode ':' b.strNbits).map (readNbits t) = flds.map fun f => some f.field.nbits
  readsTypes : (explode ':' b.strDstFldtypes).map unstrFldtype = flds.map fun f => some f.dst

/-- The table once the packed field is there. -/
def PackCalls.withFld (calls : PackCalls) (fout : Name) (t : FldType) (cells : List Int) : PackCalls :=
  { calls with isFld := fun f => if f = fout then some ⟨t, false, some cells⟩ else calls.isFld f }

lemma openFlds_eq {calls : PackCalls} {fout : Name} (hisTbl : calls.isTbl = some nR)
    (h : ∀ f ∈ flds, Packable t nR f)
    (hisFld : ∀ f ∈ flds, calls.isFld f.name = some ⟨f.src, false, some f.col⟩ ∧ f.name ≠ fout)
    (i : Nat) (s : PackFrame) :
    openFlds calls fout t i (flds.map PackFld.name) s =
      (some (flds.map PackFld.col), { s with used := s.used ++ List.range' i flds.length }) := by
  induction flds generalizing i s with
  | nil => simp [openFlds]
  | cons f flds ih =>
    obtain ⟨hf, hrest⟩ := List.forall_mem_cons.mp h
    obtain ⟨⟨hfound, hname⟩, hothers⟩ := List.forall_mem_cons.mp hisFld
    have hrun := ih hrest hothers (i + 1) { s with used := s.used ++ [i] }
    rw [List.map_cons, openFlds, Cmd.require_bind, if_pos hname, touch, Cmd.modify_bind, hisTbl,
      Option.bind_some, hfound, Cmd.ofOption_some_bind, Cmd.require_bind, if_pos rfl,
      Cmd.require_bind, if_pos hf.src.1, Cmd.ofOption_some_bind, Cmd.require_bind, if_pos hf.src.2,
      Cmd.bind_of_eq hrun, Cmd.pure_apply, List.append_assoc, List.singleton_append, List.length_cons,
      List.range'_succ, List.map_cons]

lemma openOutputs_eq {calls : PackCalls} (hnew : ∀ i, calls.newFile i = true)
    (h : ∀ f ∈ flds, Packable t nR f) {l : List (Name × Nat)}
    (hl : l.map (fun p => (unstrFldtype p.1, p.2)) = flds.map fun f => (some f.dst, f.field.nbits))
    (i : Nat) (s : PackFrame) :
    openOutputs calls t i l s =
      (some (flds.map PackFld.dst), { s with used := s.used ++ List.range' i flds.length }) := by
  induction flds generalizing i s l with
  | nil =>
    obtain rfl : l = [] := by simpa using hl
    simp [openOutputs]
  | cons f flds ih =>
    obtain ⟨p, l, rfl⟩ : ∃ p l', l = p :: l' := by
      cases l with
      | nil => simp at hl
      | cons p l' => exact ⟨p, l', rfl⟩
    rw [List.map_cons, List.map_cons, List.cons.injEq, Prod.mk.injEq] at hl
    obtain ⟨⟨htype, hnbits⟩, hl⟩ := hl
    obtain ⟨hf, hrest⟩ := List.forall_mem_cons.mp h
    have hrun := ih hrest hl (i + 1) { s with used := s.used ++ [i] }
    rw [openOutputs, touch, Cmd.modify_bind, htype, Cmd.ofOption_some_bind, Cmd.require_bind,
      if_pos hf.dst.1, Cmd.require_bind, if_pos hf.dst.2, Cmd.require_bind,
      if_pos (hnbits ▸ hf.nbits.2.1), Cmd.require_bind, if_pos (hnew i), Cmd.bind_of_eq hrun,
      Cmd.pure_apply, List.append_assoc, List.singleton_append, List.length_cons, List.range'_succ,
      List.map_cons]

lemma forEach_addOutput {calls : PackCalls} (hadd : ∀ i, calls.addFld i = true) (xs : List Nat)
    (s : PackFrame) :
    Cmd.forEach (addOutput calls) xs s = (some (), { s with used := s.used ++ xs }) := by
  induction xs generalizing s with
  | nil => simp [Cmd.forEach]
  | cons i xs ih =>
    have hone : addOutput calls i s = (some (), { s with used := s.used ++ [i] }) := by
      rw [addOutput, touch, Cmd.modify_bind, Cmd.require_pos (hadd i)]
    rw [Cmd.forEach, Cmd.bind_of_eq hone, ih, List.append_assoc, List.singleton_append]

lemma when_touchAll (p : Prop) [Decidable p] (n : Nat) (s : PackFrame) :
    ∃ s', Cmd.when p (touchAll n) s = (some (), s') := by
  by_cases hp : p
  · exact ⟨_, by rw [Cmd.when_pos hp, touchAll_apply]⟩
  · exact ⟨s, by rw [Cmd.when_neg hp, Cmd.pure_apply]⟩

variable {calls : PackCalls} {a : PackArgs} {b : UnpackArgs}

lemma PackCall.accepted (hc : PackCall calls a b t nR flds) (h2 : 2 ≤ flds.length)
    (hmax : flds.length ≤ maxNumFlds) :
    PackAccepted a t (flds.map fun f => f.field.shift) where
  tbl := hc.tbl
  fout := hc.fout
  readsDst := hc.readsDst
  dstOk := hc.dstOk
  two := by rwa [hc.names, List.length_map]
  number := by rwa [hc.names, List.length_map]
  readsShifts := by rw [hc.readsShifts, List.map_map]; rfl
  lenShifts := by
    have hlen := congrArg List.length hc.readsShifts
    rw [List.length_map, List.length_map] at hlen
    rw [hlen, hc.names, List.length_map]

lemma PackCall.found (hc : PackCall calls a b t nR flds) (cells : List Int) :
    UnpackFound (calls.withFld a.fout t cells) b nR t cells where
  tbl := hc.sameTbl ▸ hc.tbl
  finName := hc.sameFld ▸ hc.fout
  isTbl := hc.isTbl
  isFld := ⟨false, if_pos hc.sameFld⟩
  finOk := hc.dstOk.symm

lemma PackCall.unpackAccepted (hc : PackCall calls a b t nR flds) (h : ∀ f ∈ flds, Packable t nR f)
    (h2 : 2 ≤ flds.length) (hmax : flds.length ≤ maxNumFlds) :
    UnpackAccepted b t (flds.map fun f => f.field.shift) (flds.map fun f => f.field.nbits)
      (flds.map PackFld.dst) := by
  have hlen : ∀ {α : Type} {ys : List Name} {read : Name → Option α} {g : PackFld → Option α},
      ys.map read = flds.map g → ys.length = (explode ':' b.strFlds).length := by
    intro α ys read g hmap
    have hcongr := congrArg List.length hmap
    rwa [List.length_map, List.length_map, ← hc.newNames] at hcongr
  refine ⟨?_, ?_, ?_, ?_, ?_, hlen hc.readsNbits, ?_, hlen hc.readsTypes, ?_, ?_⟩
  · rwa [hc.newNames]
  · rwa [hc.newNames]
  · rw [hc.sameShifts, hc.readsShifts, List.map_map]
    rfl
  · rw [hc.sameShifts]
    exact hlen hc.readsShifts
  · rw [hc.readsNbits, List.map_map]
    rfl
  · rw [hc.readsTypes, List.map_map]
    rfl
  · intro u hu
    obtain ⟨f, hf, rfl⟩ := List.mem_map.mp hu
    exact (h f hf).dst
  · intro p hp
    rw [List.zip_map'] at hp
    obtain ⟨f, hf, rfl⟩ := List.mem_map.mp hp
    exact (h f hf).nbits.2.1

lemma packColumns_eq (hc : PackCall calls a b t nR flds) (h : ∀ f ∈ flds, Packable t nR f)
    (s : PackFrame) :
    ∃ s', packColumns calls a.fout t (flds.map PackFld.name) (flds.map fun f => f.field.shift) s =
      (some (packedCells t nR flds), s') := by
  have hopen := openFlds_eq hc.isTbl h hc.isFld 0 s
  obtain ⟨s', hwhen⟩ := when_touchAll (0 < nR) (flds.map PackFld.name).length
    { s with used := s.used ++ List.range' 0 flds.length }
  refine ⟨s', ?_⟩
  rw [packColumns, hc.isTbl, Option.getD_some, Cmd.bind_of_eq hopen, Cmd.require_bind,
    if_pos (hc.newFile 0), Cmd.bind_of_eq hwhen, packCells_eq h, Cmd.ofOption_some_bind,
    Cmd.require_bind, if_pos (hc.addFld 0), Cmd.pure_apply]

lemma unpackColumns_eq (hc : PackCall calls a b t nR flds) (h : ∀ f ∈ flds, Packable t nR f)
    (hapart : flds.Pairwise fun f g => BitFields.Apart f.field g.field)
    (hpart : (partition nR 8192 (-1)).isSome) (s : PackFrame) :
    ∃ s', unpackColumns (calls.withFld a.fout t (packedCells t nR flds)) nR t (packedCells t nR flds)
        ⟨explode ':' b.strFlds, flds.map fun f => f.field.shift, flds.map fun f => f.field.nbits,
          explode ':' b.strDstFldtypes⟩ s = (some (flds.map PackFld.col), s') := by
  have htypes : ((explode ':' b.strDstFldtypes).zip (flds.map fun f => f.field.nbits)).map
      (fun p => (unstrFldtype p.1, p.2)) = flds.map fun f => (some f.dst, f.field.nbits) := by
    have hmap : ((explode ':' b.strDstFldtypes).map unstrFldtype).zip
        ((flds.map fun f => f.field.nbits).map id) = _ := List.zip_map
    rw [List.map_id, hc.readsTypes, List.zip_map'] at hmap
    exact hmap.symm
  obtain ⟨calls', hcalls⟩ : ∃ calls', calls' = calls.withFld a.fout t (packedCells t nR flds) := ⟨_, rfl⟩
  have hnewFile : ∀ i, calls'.newFile i = true := by
    rw [hcalls]
    exact hc.newFile
  have haddFld : ∀ i, calls'.addFld i = true := by
    rw [hcalls]
    exact hc.addFld
  have hopen := openOutputs_eq hnewFile h htypes 0 s
  have hrows := unpackRows_eq h hapart hpart
  obtain ⟨s', hwhen⟩ := when_touchAll (0 < nR) flds.length
    { s with used := s.used ++ List.range' 0 flds.length ++ List.range flds.length }
  refine ⟨{ s' with used := s'.used ++ List.range flds.length }, ?_⟩
  rw [unpackColumns, ← hcalls]
  dsimp only
  rw [hc.newNames, Cmd.bind_of_eq hopen, Cmd.bind_of_eq (touchAll_apply _ _), List.zip_map',
    List.zip_map', hrows, Cmd.ofOption_some_bind, Cmd.bind_of_eq hwhen,
    Cmd.bind_of_eq (forEach_addOutput haddFld _ _), Cmd.pure_apply,
    columns_fldRows fun f hf => (h f hf).length]

lemma unpackColumns_partition {fin : FldType} {cells : List Int} {l : UnpackLists}
    {columns : List (List Int)} {s s' : PackFrame}
    (hrun : unpackColumns calls nR fin cells l s = (some columns, s')) :
    (partition nR 8192 (-1)).isSome := by
  obtain ⟨_, _, -, hrun⟩ := Cmd.bind_eq_some.mp hrun
  obtain ⟨_, _, -, hrun⟩ := Cmd.bind_eq_some.mp hrun
  obtain ⟨rows, hrows, -⟩ := Cmd.ofOption_bind_eq_some.mp hrun
  exact unpackRows_isSome hrows

/-- Packing columns and unpacking them again gives the columns back if and only if the number of
fields is accepted and fits into the arrays, and the rows can be divided into blocks. -/
theorem unpack_pack_iff (hc : PackCall calls a b t nR flds) (h : ∀ f ∈ flds, Packable t nR f)
    (hapart : flds.Pairwise fun f g => BitFields.Apart f.field g.field) :
    (∃ cells, pack calls a = some cells ∧
        unpack (calls.withFld a.fout t cells) b = some (flds.map PackFld.col)) ↔
      2 ≤ flds.length ∧ flds.length ≤ maxPackFlds ∧ (partition nR 8192 (-1)).isSome := by
  have hlen : (explode ':' a.strFlds).length = flds.length := by rw [hc.names, List.length_map]
  constructor
  · rintro ⟨cells, hpack, hunpack⟩
    obtain ⟨hin, hrun⟩ := Option.ite_none_right_eq_some.mp hpack
    obtain ⟨-, hrun'⟩ := Option.ite_none_right_eq_some.mp hunpack
    obtain ⟨r, s, hlists, -⟩ := Cmd.bind_eq_some.mp
      (show packBody calls a .start = (some cells, (packBody calls a .start).2) from Prod.ext hrun rfl)
    obtain ⟨-, h2, hmax⟩ := packLists_flds hlists
    have hsmall := hin.length_le h2 fun i hi => mem_packRun (hc.accepted (hlen ▸ h2) (hlen ▸ hmax)) hi
    rw [hlen] at h2 hmax hsmall
    have hbody := unpackBody_eq (hc.found cells) (hc.unpackAccepted h h2 hmax)
    exact ⟨h2, hsmall, unpackColumns_partition (Prod.ext ((congrArg Prod.fst hbody).symm.trans hrun') rfl)⟩
  · rintro ⟨h2, hsmall, hpart⟩
    have hmax : flds.length ≤ maxNumFlds := hsmall.trans (by decide)
    refine ⟨packedCells t nR flds, ?_, ?_⟩
    · have hbody : packBody calls a .start = _ := packBody_eq (hc.accepted h2 hmax)
      rw [hc.names] at hbody
      obtain ⟨s, hpack⟩ := packColumns_eq hc h _
      rw [pack, if_pos (packRun_inBounds calls (hlen ▸ hsmall))]
      exact (congrArg Prod.fst hbody).trans (congrArg Prod.fst hpack)
    · have hbody := unpackBody_eq (hc.found (packedCells t nR flds)) (hc.unpackAccepted h h2 hmax)
      obtain ⟨s', hunpack⟩ := unpackColumns_eq hc h hapart hpart _
      rw [unpack, if_pos (unpackRun_inBounds _ (hc.newNames ▸ hsmall))]
      exact (congrArg Prod.fst hbody).trans (congrArg Prod.fst hunpack)

end

/-- A table of two rows with the columns `a` and `b`. -/
def twoRows : PackCalls where
  isTbl := some 2
  isFld := fun f =>
    if f = ['a'] then some ⟨.I1, false, some [5, 15]⟩
    else if f = ['b'] then some ⟨.I8, false, some [4294967295, 1]⟩ else none
  newFile := fun _ => true
  addFld := fun _ => true

/-- Its columns; the second one gets the upper half of the word. -/
def twoFlds : List PackFld :=
  [⟨['a'], .I1, .I2, ⟨3, 4⟩, [5, 15]⟩, ⟨['b'], .I8, .I8, ⟨32, 32⟩, [4294967295, 1]⟩]

theorem unpack_pack_two_fields :
    (∃ cells, pack twoRows ⟨['t'], "a:b".toList, "3:32".toList, "I8".toList, ['c']⟩ = some cells ∧
        unpack (twoRows.withFld ['c'] .I8 cells)
          ⟨['t'], ['c'], "3:32".toList, "4:32".toList, "I2:I8".toList, "d:e".toList⟩ =
            some (twoFlds.map PackFld.col)) ↔
      2 ≤ twoFlds.length ∧ twoFlds.length ≤ maxPackFlds ∧
        (partition ((2 : Nat) : Int) 8192 (-1)).isSome := by
  refine unpack_pack_iff (a := ⟨['t'], "a:b".toList, "3:32".toList, "I8".toList, ['c']⟩)
    ?_ (by decide) (by decide)
  exact ⟨by decide, by decide, rfl, fun _ => rfl, fun _ => rfl, by decide, by decide, by decide,
    by decide, by decide, rfl, rfl, rfl, by decide, by decide, by decide⟩

/-- Nine columns of type I1 for one bit each. -/
def nineFlds : List PackFld :=
  (List.range 9).map fun i => ⟨[Char.ofNat (97 + i)], .I1, .I1, ⟨i, 1⟩, [1]⟩

/-- `pack` leaves its arrays with nine fields. -/
theorem pack_nine_columns :
    pack oneRow ⟨['t'], "a:b:c:d:e:f:g:h:i".toList, "0:1:2:3:4:5:6:7:8".toList, "I4".toList, ['z']⟩ =
        none ∧
      PackCall oneRow
        ⟨['t'], "a:b:c:d:e:f:g:h:i".toList, "0:1:2:3:4:5:6:7:8".toList, "I4".toList, ['z']⟩
        ⟨['t'], ['z'], "0:1:2:3:4:5:6:7:8".toList, "1:1:1:1:1:1:1:1:1".toList,
          "I1:I1:I1:I1:I1:I1:I1:I1:I1".toList, "j:k:l:m:n:o:p:q:r".toList⟩ .I4 1 nineFlds ∧
      (∀ f ∈ nineFlds, Packable .I4 1 f) ∧
      nineFlds.Pairwise fun f g => BitFields.Apart f.field g.field := by
  refine ⟨by decide, ?_, by decide, by decide⟩
  exact ⟨by decide, by decide, rfl, fun _ => rfl, fun _ => rfl, by decide, by decide, by decide,
    by decide, by decide, rfl, rfl, rfl, by decide, by decide, by decide⟩

end Datacl
