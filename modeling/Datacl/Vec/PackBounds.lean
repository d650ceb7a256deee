import Datacl.Vec.Pack

/-!
# The arrays of `pack` and `unpack`

The number of fields is checked against `MAX_NUM_FLDS`, and the arrays have room for
`MAX_PACK_FLDS`.
-/

namespace Datacl

/-! ### Loops over the fields -/

lemma forEach_touch (xs : List Nat) (s : PackFrame) :
    Cmd.forEach touch xs s = (some (), { s with used := s.used ++ xs }) := by
  induction xs generalizing s with
  | nil => simp [Cmd.forEach]
  | cons i xs ih =>
    have hrest := ih { s with used := s.used ++ [i] }
    rw [Cmd.forEach, touch, Cmd.modify_bind, hrest, List.append_assoc, List.singleton_append]

lemma touchAll_apply (n : Nat) (s : PackFrame) :
    touchAll n s = (some (), { s with used := s.used ++ List.range n }) := forEach_touch _ s

/-- A list of pieces that can all be read. -/
lemma readEach_eq {α : Type} {read : Name → Option α} {ys : List Name} {vs : List α}
    (h : ys.map read = vs.map some) (i : Nat) (s : PackFrame) :
    readEach read i ys s = (some vs, { s with used := s.used ++ List.range' i ys.length }) := by
  induction ys generalizing vs i s with
  | nil =>
    obtain rfl : vs = [] := by simpa using h.symm
    simp [readEach]
  | cons y ys ih =>
    obtain ⟨v, vs, rfl⟩ : ∃ v vs', vs = v :: vs' := by
      cases vs with
      | nil => simp at h
      | cons v vs' => exact ⟨v, vs', rfl⟩
    rw [List.map_cons, List.map_cons, List.cons.injEq] at h
    have hrest := ih h.2 (i + 1) { s with used := s.used ++ [i] }
    rw [readEach, touch, Cmd.modify_bind, h.1, Cmd.ofOption_some_bind, Cmd.bind_of_eq hrest,
      Cmd.pure_apply, List.append_assoc, List.singleton_append, List.length_cons, List.range'_succ]

section

variable {I : PackFrame → Prop} {n i : Nat}

lemma touchAll_keeps (hI : ∀ j < n, Cmd.Keeps I (touch j)) : Cmd.Keeps I (touchAll n) :=
  Cmd.keeps_forEach fun j hj => hI j (List.mem_range.mp hj)

lemma readEach_keeps {α : Type} {read : Name → Option α} {ys : List Name}
    (hI : ∀ j < n, Cmd.Keeps I (touch j)) (h : i + ys.length ≤ n) :
    Cmd.Keeps I (readEach read i ys) := by
  induction ys generalizing i with
  | nil => exact Cmd.keeps_pure []
  | cons y ys ih =>
    rw [List.length_cons] at h
    refine Cmd.keeps_bind (hI i (by omega)) fun _ _ _ _ => ?_
    refine Cmd.keeps_ofOption_bind fun v _ => ?_
    exact Cmd.keeps_bind (ih (by omega)) fun _ _ _ _ => Cmd.keeps_pure _

lemma openFlds_keeps {calls : PackCalls} {fout : Name} {dst : FldType} {flds : List Name}
    (hI : ∀ j < n, Cmd.Keeps I (touch j)) (h : i + flds.length ≤ n) :
    Cmd.Keeps I (openFlds calls fout dst i flds) := by
  induction flds generalizing i with
  | nil => exact Cmd.keeps_pure []
  | cons fld flds ih =>
    rw [List.length_cons] at h
    refine Cmd.keeps_require_bind fun _ => ?_
    refine Cmd.keeps_bind (hI i (by omega)) fun _ _ _ _ => ?_
    refine Cmd.keeps_ofOption_bind fun fldRec _ => ?_
    refine Cmd.keeps_require_bind fun _ => ?_
    refine Cmd.keeps_require_bind fun _ => ?_
    refine Cmd.keeps_ofOption_bind fun x _ => ?_
    refine Cmd.keeps_require_bind fun _ => ?_
    exact Cmd.keeps_bind (ih (by omega)) fun _ _ _ _ => Cmd.keeps_pure _

lemma openOutputs_keeps {calls : PackCalls} {fin : FldType} {l : List (Name × Nat)}
    (hI : ∀ j < n, Cmd.Keeps I (touch j)) (h : i + l.length ≤ n) :
    Cmd.Keeps I (openOutputs calls fin i l) := by
  induction l generalizing i with
  | nil => exact Cmd.keeps_pure []
  | cons p l ih =>
    rw [List.length_cons] at h
    refine Cmd.keeps_bind (hI i (by omega)) fun _ _ _ _ => ?_
    refine Cmd.keeps_ofOption_bind fun fldtype _ => ?_
    refine Cmd.keeps_require_bind fun _ => ?_
    refine Cmd.keeps_require_bind fun _ => ?_
    refine Cmd.keeps_require_bind fun _ => ?_
    refine Cmd.keeps_require_bind fun _ => ?_
    exact Cmd.keeps_bind (ih (by omega)) fun _ _ _ _ => Cmd.keeps_pure _

lemma packColumns_keeps {calls : PackCalls} {fout : Name} {dst : FldType} {flds : List Name}
    {shifts : List Nat} (hI : ∀ j < n, Cmd.Keeps I (touch j)) (h : flds.length ≤ n) :
    Cmd.Keeps I (packColumns calls fout dst flds shifts) := by
  refine Cmd.keeps_bind (openFlds_keeps hI (by omega)) fun _ xs _ _ => ?_
  refine Cmd.keeps_require_bind fun _ => ?_
  refine Cmd.keeps_bind (Cmd.keeps_when (touchAll_keeps fun j hj => hI j (by omega))) fun _ _ _ _ => ?_
  refine Cmd.keeps_ofOption_bind fun cells _ => ?_
  exact Cmd.keeps_require_bind fun _ => Cmd.keeps_pure cells

lemma unpackColumns_keeps {calls : PackCalls} {nR : Nat} {fin : FldType} {cells : List Int}
    {l : UnpackLists} (hI : ∀ j < n, Cmd.Keeps I (touch j)) (h : l.flds.length ≤ n)
    (htypes : l.types.length = l.flds.length) : Cmd.Keeps I (unpackColumns calls nR fin cells l) := by
  have hall : Cmd.Keeps I (touchAll l.flds.length) := touchAll_keeps fun j hj => hI j (by omega)
  have hzip : 0 + (l.types.zip l.nbits).length ≤ n := by
    rw [List.length_zip]
    omega
  refine Cmd.keeps_bind (openOutputs_keeps hI hzip) fun _ dstFldtypes _ _ => ?_
  refine Cmd.keeps_bind hall fun _ _ _ _ => ?_
  refine Cmd.keeps_ofOption_bind fun rows _ => ?_
  refine Cmd.keeps_bind (Cmd.keeps_when hall) fun _ _ _ _ => ?_
  refine Cmd.keeps_bind (Cmd.keeps_forEach fun j hj => ?_) fun _ _ _ _ => Cmd.keeps_pure _
  rw [List.mem_range] at hj
  exact Cmd.keeps_bind (hI j (by omega)) fun _ _ _ _ => Cmd.keeps_require _

end

/-! ### Few fields -/

/-- The arrays suffice so far, and will do in the last loop. -/
def PackFrame.Small (s : PackFrame) : Prop := PackInBounds s.used ∧ s.nFlds ≤ maxPackFlds

lemma PackFrame.small_start : PackFrame.start.Small := ⟨by decide, by decide⟩

lemma touch_keeps_small {i : Nat} (hi : i < maxPackFlds) : Cmd.Keeps PackFrame.Small (touch i) := by
  rintro s ⟨hused, hn⟩
  refine ⟨fun j hj => ?_, hn⟩
  rcases List.mem_append.mp hj with h | h
  · exact hused j h
  · exact (List.mem_singleton.mp h) ▸ hi

lemma PackFrame.Small.cleanUp {s : PackFrame} (h : s.Small) (shortest : Nat) :
    PackInBounds (s.cleanUp shortest) := by
  intro i hi
  rcases List.mem_append.mp hi with hi | hi
  · exact h.1 i hi
  · have hn := h.2
    rw [List.mem_range] at hi
    omega

lemma keeps_small_nFlds {n : Nat} (hn : n ≤ maxPackFlds) :
    Cmd.Keeps PackFrame.Small (Cmd.modify fun s => { s with nFlds := n }) := fun _ hs => ⟨hs.1, hn⟩

lemma packLists_keeps {a : PackArgs} (h : (explode ':' a.strFlds).length ≤ maxPackFlds) :
    Cmd.Keeps PackFrame.Small (packLists a) := by
  have hI : ∀ j < maxPackFlds, Cmd.Keeps PackFrame.Small (touch j) := fun _ => touch_keeps_small
  refine Cmd.keeps_require_bind fun _ => Cmd.keeps_require_bind fun _ => ?_
  refine Cmd.keeps_require_bind fun _ => Cmd.keeps_require_bind fun _ => ?_
  refine Cmd.keeps_require_bind fun _ => Cmd.keeps_ofOption_bind fun _ _ => ?_
  refine Cmd.keeps_require_bind fun _ => ?_
  refine Cmd.keeps_bind (touchAll_keeps hI) fun _ _ _ _ => ?_
  refine Cmd.keeps_bind (keeps_small_nFlds h) fun _ _ _ _ => ?_
  refine Cmd.keeps_require_bind fun _ => ?_
  refine Cmd.keeps_bind (Cmd.keeps_modify fun s hs => hs) fun _ _ _ _ => ?_
  refine Cmd.keeps_require_bind fun hY => ?_
  exact Cmd.keeps_bind (readEach_keeps hI (by omega)) fun _ _ _ _ => Cmd.keeps_pure _

lemma packLists_flds {a : PackArgs} {s s' : PackFrame} {r : FldType × List Name × List Nat}
    (h : packLists a s = (some r, s')) : r.2.1 = explode ':' a.strFlds ∧
      2 ≤ (explode ':' a.strFlds).length ∧ (explode ':' a.strFlds).length ≤ maxNumFlds := by
  simp only [packLists, Cmd.require_bind_eq_some, Cmd.ofOption_bind_eq_some] at h
  obtain ⟨-, -, -, -, -, dst, -, -, h⟩ := h
  obtain ⟨_, _, -, h⟩ := Cmd.bind_eq_some.mp h
  rw [Cmd.modify_bind, Cmd.require_bind_eq_some] at h
  rw [Cmd.modify_bind, Cmd.require_bind_eq_some] at h
  obtain ⟨hnumber, -, h⟩ := h
  obtain ⟨_, _, -, h⟩ := Cmd.bind_eq_some.mp h
  obtain ⟨rfl, -⟩ := Cmd.pure_eq_some.mp h
  exact ⟨rfl, by omega, by omega⟩

/-- With few fields no array is left, whatever else the arguments are. -/
lemma packRun_inBounds (calls : PackCalls) {a : PackArgs}
    (h : (explode ':' a.strFlds).length ≤ maxPackFlds) : PackInBounds (packRun calls a).2 := by
  have hbody : Cmd.Keeps PackFrame.Small (packBody calls a) := by
    refine Cmd.keeps_bind (packLists_keeps h) fun s r s' hr => ?_
    have hflds := (packLists_flds hr).1
    exact packColumns_keeps (fun _ => touch_keeps_small) (hflds ▸ h)
  exact (hbody .start PackFrame.small_start).cleanUp _

lemma unpackInput_state (calls : PackCalls) (a : UnpackArgs) (s : PackFrame) :
    (unpackInput calls a s).2 = s := by
  have hkeeps : Cmd.Keeps (fun s' => s' = s) (unpackInput calls a) := by
    refine Cmd.keeps_require_bind fun _ => Cmd.keeps_require_bind fun _ => ?_
    refine Cmd.keeps_require_bind fun _ => Cmd.keeps_require_bind fun _ => ?_
    refine Cmd.keeps_require_bind fun _ => Cmd.keeps_ofOption_bind fun _ _ => ?_
    refine Cmd.keeps_ofOption_bind fun _ _ => Cmd.keeps_require_bind fun _ => ?_
    exact Cmd.keeps_ofOption_bind fun _ _ => Cmd.keeps_pure _
  exact hkeeps s rfl

lemma unpackLists_keeps {a : UnpackArgs} (fin : FldType)
    (h : (explode ':' a.strFlds).length ≤ maxPackFlds) :
    Cmd.Keeps PackFrame.Small (unpackLists a fin) := by
  have hI : ∀ j < maxPackFlds, Cmd.Keeps PackFrame.Small (touch j) := fun _ => touch_keeps_small
  refine Cmd.keeps_bind (touchAll_keeps hI) fun _ _ _ _ => ?_
  refine Cmd.keeps_bind (keeps_small_nFlds h) fun _ _ _ _ => ?_
  refine Cmd.keeps_require_bind fun _ => ?_
  refine Cmd.keeps_bind (Cmd.keeps_modify fun s hs => hs) fun _ _ _ _ => ?_
  refine Cmd.keeps_require_bind fun hY => ?_
  refine Cmd.keeps_bind (readEach_keeps hI (by omega)) fun _ _ _ _ => ?_
  refine Cmd.keeps_bind (Cmd.keeps_modify fun s hs => hs) fun _ _ _ _ => ?_
  refine Cmd.keeps_require_bind fun hW => ?_
  refine Cmd.keeps_bind (readEach_keeps hI (by omega)) fun _ _ _ _ => ?_
  refine Cmd.keeps_bind (Cmd.keeps_modify fun s hs => hs) fun _ _ _ _ => ?_
  exact Cmd.keeps_require_bind fun _ => Cmd.keeps_pure _

lemma unpackLists_flds {a : UnpackArgs} {fin : FldType} {s s' : PackFrame} {l : UnpackLists}
    (h : unpackLists a fin s = (some l, s')) :
    l.flds = explode ':' a.strFlds ∧ l.types.length = l.flds.length := by
  obtain ⟨_, _, -, h⟩ := Cmd.bind_eq_some.mp h
  rw [Cmd.modify_bind, Cmd.require_bind_eq_some] at h
  rw [Cmd.modify_bind, Cmd.require_bind_eq_some] at h
  obtain ⟨_, _, -, h⟩ := Cmd.bind_eq_some.mp h.2.2
  rw [Cmd.modify_bind, Cmd.require_bind_eq_some] at h
  obtain ⟨_, _, -, h⟩ := Cmd.bind_eq_some.mp h.2
  rw [Cmd.modify_bind, Cmd.require_bind_eq_some] at h
  obtain ⟨hZ, h⟩ := h
  obtain ⟨rfl, -⟩ := Cmd.pure_eq_some.mp h
  exact ⟨rfl, hZ⟩

lemma unpackRun_inBounds (calls : PackCalls) {a : UnpackArgs}
    (h : (explode ':' a.strFlds).length ≤ maxPackFlds) : PackInBounds (unpackRun calls a).2 := by
  have hbody : Cmd.Keeps PackFrame.Small (unpackBody calls a) := by
    refine Cmd.keeps_bind (fun s hs => ?_) fun s p s' _ => ?_
    · rwa [unpackInput_state]
    · refine Cmd.keeps_bind (unpackLists_keeps _ h) fun s l s' hl => ?_
      obtain ⟨hflds, htypes⟩ := unpackLists_flds hl
      exact unpackColumns_keeps (fun _ => touch_keeps_small) (hflds ▸ h) htypes
  exact (hbody .start PackFrame.small_start).cleanUp _

/-! ### Lists that are accepted -/

/-- `pack` accepts the lists: they are of the same length and the checks of their entries pass. -/
structure PackAccepted (a : PackArgs) (dst : FldType) (shifts : List Nat) : Prop where
  tbl : a.tbl ≠ []
  fout : a.fout ≠ []
  readsDst : unstrFldtype a.strDstFldtype = some dst
  dstOk : dst = .I4 ∨ dst = .I8
  two : 2 ≤ (explode ':' a.strFlds).length
  number : (explode ':' a.strFlds).length ≤ maxNumFlds
  readsShifts : (explode ':' a.strShifts).map readShift = shifts.map some
  lenShifts : (explode ':' a.strShifts).length = (explode ':' a.strFlds).length

/-- The field to unpack is there. -/
structure UnpackFound (calls : PackCalls) (a : UnpackArgs) (nR : Nat) (fin : FldType)
    (cells : List Int) : Prop where
  tbl : a.tbl ≠ []
  finName : a.fin ≠ []
  isTbl : calls.isTbl = some nR
  isFld : ∃ hasNn, calls.isFld a.fin = some ⟨fin, hasNn, some cells⟩
  finOk : fin = .I8 ∨ fin = .I4

/-- `unpack` accepts the lists for a field of type `fin`. -/
structure UnpackAccepted (a : UnpackArgs) (fin : FldType) (shifts nbits : List Nat)
    (types : List FldType) : Prop where
  two : 2 ≤ (explode ':' a.strFlds).length
  number : (explode ':' a.strFlds).length ≤ maxNumFlds
  readsShifts : (explode ':' a.strShifts).map readShift = shifts.map some
  lenShifts : (explode ':' a.strShifts).length = (explode ':' a.strFlds).length
  readsNbits : (explode ':' a.strNbits).map (readNbits fin) = nbits.map some
  lenNbits : (explode ':' a.strNbits).length = (explode ':' a.strFlds).length
  readsTypes : (explode ':' a.strDstFldtypes).map unstrFldtype = types.map some
  lenTypes : (explode ':' a.strDstFldtypes).length = (explode ':' a.strFlds).length
  typesOk : ∀ t ∈ types, t ∈ [FldType.I1, .I2, .I4, .I8] ∧ ¬ (fin = .I4 ∧ t = .I8)
  fits : ∀ p ∈ nbits.zip types, p.1 ≤ maxNbits p.2

lemma ne_nil_of_explode {x : Name} (h : 2 ≤ (explode ':' x).length) : x ≠ [] := by
  rintro rfl
  rw [explode, if_pos rfl, List.length_nil] at h
  omega

/-- The frame once the lists have been read. -/
lemma packLists_eq {a : PackArgs} {dst : FldType} {shifts : List Nat} (h : PackAccepted a dst shifts) :
    packLists a .start = (some (dst, explode ':' a.strFlds, shifts),
      ⟨(explode ':' a.strFlds).length, (explode ':' a.strFlds).length, 0, 0,
        List.range maxPackFlds ++ List.range' 0 (explode ':' a.strFlds).length⟩) := by
  have hdst : a.strDstFldtype ≠ [] := by
    intro hnil
    have hd := h.readsDst
    rw [hnil] at hd
    cases hd
  have hnumber : ¬ ((explode ':' a.strFlds).length < 2 ∨ maxNumFlds < (explode ':' a.strFlds).length) := by
    have h2 := h.two
    have hmax := h.number
    omega
  rw [packLists, Cmd.require_bind, if_pos h.tbl, Cmd.require_bind, if_pos (ne_nil_of_explode h.two),
    Cmd.require_bind, if_pos (ne_nil_of_explode (h.lenShifts ▸ h.two)), Cmd.require_bind, if_pos hdst,
    Cmd.require_bind, if_pos h.fout, h.readsDst, Cmd.ofOption_some_bind, Cmd.require_bind, if_pos h.dstOk,
    Cmd.bind_of_eq (touchAll_apply _ _), Cmd.modify_bind, Cmd.require_bind, if_pos hnumber,
    Cmd.modify_bind, Cmd.require_bind, if_pos h.lenShifts, Cmd.bind_of_eq (readEach_eq h.readsShifts _ _),
    Cmd.pure_apply, h.lenShifts]
  rfl

lemma unpackInput_eq {calls : PackCalls} {a : UnpackArgs} {nR : Nat} {fin : FldType}
    {cells : List Int} {shifts nbits : List Nat} {types : List FldType}
    (hf : UnpackFound calls a nR fin cells) (h : UnpackAccepted a fin shifts nbits types)
    (s : PackFrame) : unpackInput calls a s = (some (nR, fin, cells), s) := by
  obtain ⟨hasNn, hisFld⟩ := hf.isFld
  rw [unpackInput, Cmd.require_bind, if_pos hf.tbl, Cmd.require_bind, if_pos hf.finName,
    Cmd.require_bind, if_pos (ne_nil_of_explode h.two), Cmd.require_bind,
    if_pos (ne_nil_of_explode (h.lenShifts ▸ h.two)), Cmd.require_bind,
    if_pos (ne_nil_of_explode (h.lenTypes ▸ h.two)), hf.isTbl, Cmd.ofOption_some_bind, hisFld,
    Cmd.ofOption_some_bind, Cmd.require_bind, if_pos hf.finOk, Cmd.ofOption_some_bind, Cmd.pure_apply]

lemma unpackLists_eq {a : UnpackArgs} {fin : FldType} {shifts nbits : List Nat}
    {types : List FldType} (h : UnpackAccepted a fin shifts nbits types) :
    unpackLists a fin .start =
      (some ⟨explode ':' a.strFlds, shifts, nbits, explode ':' a.strDstFldtypes⟩,
        ⟨(explode ':' a.strFlds).length, (explode ':' a.strFlds).length,
          (explode ':' a.strFlds).length, (explode ':' a.strFlds).length,
          List.range maxPackFlds ++ List.range' 0 (explode ':' a.strFlds).length ++
            List.range' 0 (explode ':' a.strFlds).length⟩) := by
  have hnumber : ¬ ((explode ':' a.strFlds).length < 2 ∨ maxNumFlds < (explode ':' a.strFlds).length) := by
    have h2 := h.two
    have hmax := h.number
    omega
  rw [unpackLists, Cmd.bind_of_eq (touchAll_apply _ _), Cmd.modify_bind, Cmd.require_bind,
    if_pos hnumber, Cmd.modify_bind, Cmd.require_bind, if_pos h.lenShifts,
    Cmd.bind_of_eq (readEach_eq h.readsShifts _ _), Cmd.modify_bind, Cmd.require_bind, if_pos h.lenNbits,
    Cmd.bind_of_eq (readEach_eq h.readsNbits _ _), Cmd.modify_bind, Cmd.require_bind, if_pos h.lenTypes,
    Cmd.pure_apply, h.lenShifts, h.lenNbits, h.lenTypes]
  rfl

lemma packBody_eq {calls : PackCalls} {a : PackArgs} {dst : FldType} {shifts : List Nat}
    (h : PackAccepted a dst shifts) :
    packBody calls a .start = packColumns calls a.fout dst (explode ':' a.strFlds) shifts
      ⟨(explode ':' a.strFlds).length, (explode ':' a.strFlds).length, 0, 0,
        List.range maxPackFlds ++ List.range' 0 (explode ':' a.strFlds).length⟩ :=
  Cmd.bind_of_eq (packLists_eq h)

lemma unpackBody_eq {calls : PackCalls} {a : UnpackArgs} {nR : Nat} {fin : FldType}
    {cells : List Int} {shifts nbits : List Nat} {types : List FldType}
    (hf : UnpackFound calls a nR fin cells) (h : UnpackAccepted a fin shifts nbits types) :
    unpackBody calls a .start = unpackColumns calls nR fin cells
      ⟨explode ':' a.strFlds, shifts, nbits, explode ':' a.strDstFldtypes⟩
      ⟨(explode ':' a.strFlds).length, (explode ':' a.strFlds).length,
        (explode ':' a.strFlds).length, (explode ':' a.strFlds).length,
        List.range maxPackFlds ++ List.range' 0 (explode ':' a.strFlds).length ++
          List.range' 0 (explode ':' a.strFlds).length⟩ :=
  (Cmd.bind_of_eq (unpackInput_eq hf h _)).trans (Cmd.bind_of_eq (unpackLists_eq h))

/-! ### Many fields -/

lemma touch_keeps_mem (i j : Nat) : Cmd.Keeps (fun s : PackFrame => i ∈ s.used) (touch j) :=
  fun _ hs => List.mem_append_left _ hs

lemma mem_packRun {calls : PackCalls} {a : PackArgs} {dst : FldType} {shifts : List Nat}
    (h : PackAccepted a dst shifts) {i : Nat} (hi : i < (explode ':' a.strFlds).length) :
    i ∈ (packRun calls a).2 := by
  have hkeeps : Cmd.Keeps (fun s : PackFrame => i ∈ s.used)
      (packColumns calls a.fout dst (explode ':' a.strFlds) shifts) :=
    packColumns_keeps (fun j _ => touch_keeps_mem i j) le_rfl
  have hmem : i ∈ (packBody calls a .start).2.used := by
    rw [packBody_eq h]
    exact hkeeps _ (List.mem_append_right _ (List.mem_range'.mpr ⟨i, hi, by omega⟩))
  exact List.mem_append_left _ hmem

lemma mem_unpackRun {calls : PackCalls} {a : UnpackArgs} {nR : Nat} {fin : FldType}
    {cells : List Int} {shifts nbits : List Nat} {types : List FldType}
    (hf : UnpackFound calls a nR fin cells) (h : UnpackAccepted a fin shifts nbits types) {i : Nat}
    (hi : i < (explode ':' a.strFlds).length) : i ∈ (unpackRun calls a).2 := by
  have hkeeps : Cmd.Keeps (fun s : PackFrame => i ∈ s.used) (unpackColumns calls nR fin cells
      ⟨explode ':' a.strFlds, shifts, nbits, explode ':' a.strDstFldtypes⟩) :=
    unpackColumns_keeps (fun j _ => touch_keeps_mem i j) le_rfl h.lenTypes
  have hmem : i ∈ (unpackBody calls a .start).2.used := by
    rw [unpackBody_eq hf h]
    exact hkeeps _ (List.mem_append_right _ (List.mem_range'.mpr ⟨i, hi, by omega⟩))
  exact List.mem_append_left _ hmem

lemma PackInBounds.length_le {used : List Nat} (h : PackInBounds used) {n : Nat} (hn : 2 ≤ n)
    (hmem : ∀ i < n, i ∈ used) : n ≤ maxPackFlds := by
  have hlast := h (n - 1) (hmem _ (by omega))
  omega

/-- For lists that the functions accept, every index is inside of the arrays if and only if there
are not more fields than the arrays have entries. If the field to unpack is not found, no array is
used. -/
theorem pack_inBounds_iff (calls : PackCalls) :
    (∀ a dst shifts, PackAccepted a dst shifts →
      (PackInBounds (packRun calls a).2 ↔ (explode ':' a.strFlds).length ≤ maxPackFlds)) ∧
    (∀ a nR fin cells shifts nbits types, UnpackFound calls a nR fin cells →
      UnpackAccepted a fin shifts nbits types →
        (PackInBounds (unpackRun calls a).2 ↔ (explode ':' a.strFlds).length ≤ maxPackFlds)) ∧
    (∀ a, (unpackInput calls a .start).1 = none → (unpackRun calls a).2 = []) := by
  refine ⟨fun a dst shifts h => ?_, fun a nR fin cells shifts nbits types hf h => ?_, fun a h => ?_⟩
  · exact ⟨fun hin => hin.length_le h.two fun i hi => mem_packRun h hi, packRun_inBounds calls⟩
  · exact ⟨fun hin => hin.length_le h.two fun i hi => mem_unpackRun hf h hi, unpackRun_inBounds calls⟩
  · have hbody : unpackBody calls a .start = (none, .start) := by
      rw [unpackBody, Cmd.bind_apply]
      have hstate := unpackInput_state calls a .start
      rcases hrun : unpackInput calls a .start with ⟨_ | r, s⟩
      · rw [hrun] at hstate
        exact congrArg _ hstate
      · rw [hrun] at h
        cases h
    rw [unpackRun, hbody]
    rfl

/-- A table of one row in which every field is of type I1 and holds a 1. -/
def oneRow : PackCalls where
  isTbl := some 1
  isFld := fun _ => some ⟨.I1, false, some [1]⟩
  newFile := fun _ => true
  addFld := fun _ => true

/-- The same with fields of type I8. -/
def oneRowI8 : PackCalls := { oneRow with isFld := fun _ => some ⟨.I8, false, some [1]⟩ }

theorem pack_inBounds_two_fields :
    (PackInBounds (packRun oneRow ⟨['t'], "a:b".toList, "0:1".toList, "I4".toList, ['c']⟩).2 ↔
        (explode ':' "a:b".toList).length ≤ maxPackFlds) ∧
      (PackInBounds (unpackRun oneRowI8
          ⟨['t'], ['c'], "0:1".toList, "1:1".toList, "I1:I1".toList, "d:e".toList⟩).2 ↔
        (explode ':' "d:e".toList).length ≤ maxPackFlds) ∧
      (unpackRun { oneRow with isTbl := none } ⟨['t'], ['c'], ['0'], ['1'], ['I'], ['d']⟩).2 = [] := by
  obtain ⟨hpack, -, -⟩ := pack_inBounds_iff oneRow
  obtain ⟨-, hunpack, -⟩ := pack_inBounds_iff oneRowI8
  obtain ⟨-, -, hnone⟩ := pack_inBounds_iff { oneRow with isTbl := none }
  refine ⟨hpack _ .I4 [0, 1] ?_, hunpack _ 1 .I8 [1] [0, 1] [1, 1] [.I1, .I1] ?_ ?_, hnone _ (by decide)⟩
  · exact ⟨by decide, by decide, by decide, by decide, by decide, by decide, by decide, by decide⟩
  · exact ⟨by decide, by decide, rfl, ⟨false, rfl⟩, by decide⟩
  · exact ⟨by decide, by decide, by decide, by decide, by decide, by decide, by decide, by decide,
      by decide, by decide⟩

/-- Nine fields of one bit are accepted, and the entries number 8 of the arrays are used. -/
theorem pack_nine_fields :
    PackAccepted ⟨['t'], "a:b:c:d:e:f:g:h:i".toList, "0:1:2:3:4:5:6:7:8".toList, "I4".toList, ['z']⟩
        .I4 [0, 1, 2, 3, 4, 5, 6, 7, 8] ∧
      8 ∈ (packRun oneRow ⟨['t'], "a:b:c:d:e:f:g:h:i".toList, "0:1:2:3:4:5:6:7:8".toList,
        "I4".toList, ['z']⟩).2 ∧
      8 ∈ (unpackRun oneRowI8 ⟨['t'], ['z'], "0:1:2:3:4:5:6:7:8".toList, "1:1:1:1:1:1:1:1:1".toList,
        "I1:I1:I1:I1:I1:I1:I1:I1:I1".toList, "a:b:c:d:e:f:g:h:i".toList⟩).2 := by
  refine ⟨⟨by decide, by decide, by decide, by decide, by decide, by decide, by decide, by decide⟩,
    by decide, by decide +kernel⟩

end Datacl
