import Datacl.Meta.LinksOps

/-!
# Adding, deleting and renaming fields with auxiliary fields
-/

namespace Datacl

variable {env : Env} {s s₁ s' : Store}

/-! ### Fields of strings -/

/-- No field of strings is new, and those that are left keep their records of the index. -/
structure KeepsStrings (s s' : Store) : Prop where
  old : ∀ i, (s'.fld i).Used → (s'.fld i).fldtype = .SV →
    (s.fld i).Used ∧ (s.fld i).fldtype = .SV
  recs : ∀ i, (s'.fld i).Used → (s'.fld i).fldtype = .SV →
    ∀ r ∈ s.info, r.mode ≠ .undefFldInfo → r.fldId = i → r ∈ s'.info

lemma KeepsStrings.refl (s : Store) : KeepsStrings s s :=
  ⟨fun _ hu ht => ⟨hu, ht⟩, fun _ _ _ _ hr _ _ => hr⟩

lemma KeepsStrings.trans (h : KeepsStrings s s₁) (h' : KeepsStrings s₁ s') : KeepsStrings s s' := by
  constructor
  · intro i hu ht
    obtain ⟨hu₁, ht₁⟩ := h'.old i hu ht
    exact h.old i hu₁ ht₁
  · intro i hu ht r hr hm hf
    obtain ⟨hu₁, ht₁⟩ := h'.old i hu ht
    exact h'.recs i hu ht r (h.recs i hu₁ ht₁ r hr hm hf) hm hf

lemma KeepsStrings.of_info (hfld : ∀ i, s'.fld i = s.fld i)
    (hinfo : ∀ r ∈ s.info, r.mode ≠ .undefFldInfo → r ∈ s'.info) : KeepsStrings s s' := by
  constructor
  · intro i hu ht
    rw [hfld] at hu ht
    exact ⟨hu, ht⟩
  · exact fun _ _ _ r hr hm _ => hinfo r hr hm

lemma KeepsStrings.sameRecs (h : SameRecs s s') : KeepsStrings s s' :=
  .of_info h.fld (by rw [h.info]; exact fun r hr _ => hr)

/-- Writing a record that is not one of strings, unless it was there before. -/
lemma KeepsStrings.setFld {i : Nat} {r : FldRec}
    (hr : r.Used → r.fldtype = .SV → (s.fld i).Used ∧ (s.fld i).fldtype = .SV) :
    KeepsStrings s (s.setFld i r) := by
  refine ⟨fun j hu ht => ?_, fun _ _ _ r hr _ _ => hr⟩
  rw [Store.fld_setFld] at hu ht
  by_cases hj : j = i ∧ i < s.flds.length
  · rw [if_pos hj] at hu ht
    rw [hj.1]
    exact hr hu ht
  · rw [if_neg hj] at hu ht
    exact ⟨hu, ht⟩

lemma KeepsStrings.removed {p : Nat} (h : Removed p s s') : KeepsStrings s s' := by
  have hkeep : ∀ i, (s'.fld i).Used → s'.fld i = s.fld i ∧ i ≠ p := by
    intro i hu
    rw [h.flds i] at hu ⊢
    split at hu
    · exact absurd rfl hu
    · next hi => exact ⟨if_neg hi, fun hip => hi (.inl hip)⟩
  constructor
  · intro i hu ht
    rw [← (hkeep i hu).1]
    exact ⟨hu, ht⟩
  · intro i hu _ r hr hm hf
    refine (h.info r hm).mpr ⟨hr, ?_⟩
    have := (hkeep i hu).2
    omega

/-- The rules for the lengths and the offsets hold if there are records of both kinds. -/
lemma MetaInv.chkLenOff (h : MetaInv s) {i : Nat} (ht : (s.fld i).fldtype = .SV) :
    chkLenOff s i (s.fld i) = true ↔
      ∀ k : AuxType, k.mode ≠ .undefFldInfo → ∃ r ∈ s.info, r.mode = k.mode ∧ r.fldId = i := by
  have hspec : ∀ {k : AuxType} {t : FldType}, k.mode ≠ .undefFldInfo →
      (∀ t', k.Allows t' → t' = t) →
      ((0 ≤ getFldInfo k.mode i s.info ∧
          (s.fld (getFldInfo k.mode i s.info).toNat).fldtype = t) ↔
        ∃ r ∈ s.info, r.mode = k.mode ∧ r.fldId = i) := by
    intro k t hk hallow
    rcases getFldInfo_spec h.length h.index hk i with ⟨h0, r, hr, hm, hf, hx⟩ | ⟨hnone, hno⟩
    · refine ⟨fun _ => ⟨r, hr, hm, hf⟩, fun _ => ⟨h0, ?_⟩⟩
      have hcheck := h.chkAuxInfo hr hk hm hallow
      rw [← hx]
      simp only [Datacl.chkAuxInfo, Bool.and_eq_true, decide_eq_true_eq] at hcheck
      exact hcheck.1.1.2
    · constructor
      · rintro ⟨h0, -⟩
        omega
      · rintro ⟨r, hr, hm, hf⟩
        exact absurd hf (hno r hr hm)
  have hlen := hspec (k := .len) (t := .I2) (by decide) fun _ ht => ht
  have hoff := hspec (k := .off) (t := .I8) (by decide) fun _ ht => ht
  simp only [AuxType.mode] at hlen hoff
  simp only [Datacl.chkLenOff, ht, if_true, Bool.and_eq_true, decide_eq_true_eq]
  constructor
  · rintro ⟨⟨⟨hl, ho⟩, htl⟩, hto⟩ k hk
    cases k with
    | len => exact hlen.mp ⟨hl, htl⟩
    | off => exact hoff.mp ⟨ho, hto⟩
    | nn => exact absurd rfl hk
    | undefAuxtype => exact absurd rfl hk
  · intro hall
    obtain ⟨hl, htl⟩ := hlen.mpr (hall .len (by decide))
    obtain ⟨ho, hto⟩ := hoff.mpr (hall .off (by decide))
    exact ⟨⟨⟨hl, ho⟩, htl⟩, hto⟩

/-! ### Deleting and adding -/

lemma MetaInv.deleted (h : MetaInv s) {i : Nat} {reset : List FldInfo} (hdel : Deleted i s s' reset)
    (hapart : Apart i s.info) : MetaInv s' ∧ KeepsStrings s s' := by
  have hremoved := hdel.removed hapart
  exact ⟨h.removed hremoved, .removed hremoved⟩

lemma MetaInv.freed (h : MetaInv s) {tblId : Int} {fld : Name} (hfreed : Freed tblId fld s s')
    (hapart : ∀ i, isFld s tblId fld = some i → Apart i s.info) : MetaInv s' ∧ KeepsStrings s s' := by
  cases hfreed with
  | absent hnone => exact ⟨h, .refl s⟩
  | deleted hfound hdel => exact h.deleted hdel (hapart _ hfound)

lemma delExisting_eq_some (hn : s.flds.length ≤ 32768) (hidx : IndexOk s.flds.length s.info)
    {tblId : Nat} {found : Option Nat} (h : delExisting env tblId found s = (some (), s')) :
    (found = none ∧ s' = s) ∨ ∃ i reset, found = some i ∧ Deleted i s s' reset := by
  cases found with
  | none => exact .inl ⟨rfl, (Cmd.pure_eq_some.mp h).2⟩
  | some i =>
    rw [delExisting, delFld_slot] at h
    obtain ⟨reset, hdel⟩ := delFldAt_eq_some hn hidx h
    exact .inr ⟨i, reset, rfl, hdel⟩

lemma chkFldName_ne_nil {fld : Name} (h : chkFldName fld = true) : fld ≠ [] := by
  rintro rfl
  simp [chkFldName] at h

lemma MetaInv.addFld (h : MetaInv s) {tblId ddirId fileno : Int} {fld : Name} {rec : FldRec}
    (hplain : rec.Plain) {fldId : Nat}
    (hapart : ∀ i, isFld s tblId fld = some i → Apart i s.info)
    (hrun : addFld env tblId fld ddirId fileno rec s = (some fldId, s')) :
    MetaInv s' ∧ (rec.fldtype ≠ .SV → KeepsStrings s s') := by
  obtain ⟨-, hname, -, -, -, s₁, filesz, hfreed, hlt, hfree, rfl⟩ :=
    addFld_eq_some h.length h.index hrun
  obtain ⟨hinv, hkeep⟩ := h.freed hfreed hapart
  constructor
  · refine hinv.newFld hlt (fun hused => hused hfree) (chkFldName_ne_nil hname) hplain.2.2 ?_ ?_
    · exact hplain.2.1.trans_lt (by decide)
    · exact hplain.1.trans_lt (by decide)
  · intro htype
    exact hkeep.trans (.setFld fun _ ht => absurd ht htype)

/-! ### Adding an auxiliary field -/

lemma isFld_eq_some_iff {tblId : Int} {fld : Name} {i : Nat} :
    isFld s tblId fld = some i ↔ i < s.flds.length ∧
      ((s.fld i).tblId = tblId ∧ (s.fld i).name = fld) ∧
      ∀ j < i, ¬ ((s.fld j).tblId = tblId ∧ (s.fld j).name = fld) := by
  rw [isFld, List.findIdx?_eq_some_iff_getElem]
  have hget : ∀ {j}, (hj : j < s.flds.length) → s.fld j = s.flds[j] := by
    intro j hj
    simp [Store.fld, hj]
  constructor
  · rintro ⟨hi, hp, hbefore⟩
    refine ⟨hi, by rw [hget hi]; exact of_decide_eq_true hp, fun j hj => ?_⟩
    rw [hget (hj.trans hi)]
    simpa using hbefore j hj
  · rintro ⟨hi, hp, hbefore⟩
    refine ⟨hi, by rw [← hget hi]; exact decide_eq_true hp, fun j hj => ?_⟩
    have := hbefore j hj
    rw [hget (hj.trans hi)] at this
    simpa using this

/-- The auxiliary field that a new one of the field `p` replaces is gone. -/
structure AuxDropped (p : Nat) (k : AuxType) (s s' : Store) : Prop where
  inv : MetaInv s'
  strings : KeepsStrings s s'
  tbls : s'.tbls = s.tbls
  info : s'.info = s.info
  length : s'.flds.length = s.flds.length
  field : s'.fld p = { s.fld p with nnFldId := (s'.fld p).nnFldId }
  others : ∀ j : Nat, j ≠ p →
    s'.fld j = s.fld j ∨ ((j : Int) = (s.fld p).nnFldId ∧ s'.fld j = zeroFldRec)
  nn : k = .nn → (s'.fld p).nnFldId < 0

lemma AuxDropped.of_none {p : Nat} {k : AuxType} (h : MetaInv s)
    (hnn : k = .nn → (s.fld p).nnFldId < 0) : AuxDropped p k s s :=
  ⟨h, .refl s, rfl, rfl, rfl, rfl, fun _ _ => .inl rfl, hnn⟩

/-- The lookup of the field gives the same slot afterwards. -/
lemma AuxDropped.isFld {p : Nat} {k : AuxType} (h : AuxDropped p k s s') {tblId : Int} {fld : Name}
    (hfld : fld ≠ []) (hp : isFld s tblId fld = some p) : isFld s' tblId fld = some p := by
  obtain ⟨hlt, hmatch, hbefore⟩ := isFld_eq_some_iff.mp hp
  refine isFld_eq_some_iff.mpr ⟨by rw [h.length]; exact hlt, by rw [h.field]; exact hmatch, ?_⟩
  intro j hj hmatch'
  rcases h.others j hj.ne with hsame | ⟨-, hzero⟩
  · rw [hsame] at hmatch'
    exact hbefore j hj hmatch'
  · rw [hzero] at hmatch'
    exact hfld hmatch'.2.symm

/-- `del_aux_fld` where it does what it should: for the nn field, or if there is no field of this
kind. -/
lemma MetaInv.delAuxFld (h : MetaInv s) {p : Nat} {k : AuxType}
    (hk : k ≠ .nn → auxFldId s p k < 0) (hrun : delAuxFld env p k s = (some (), s')) :
    AuxDropped p k s s' := by
  unfold Datacl.delAuxFld at hrun
  rw [Cmd.get_bind] at hrun
  obtain ⟨hlt, hrun⟩ := Cmd.require_bind_eq_some.mp hrun
  obtain ⟨-, hrun⟩ := Cmd.require_bind_eq_some.mp hrun
  by_cases hneg : auxFldId s p k < 0
  · rw [if_pos hneg] at hrun
    obtain ⟨-, rfl⟩ := Cmd.pure_eq_some.mp hrun
    refine .of_none h ?_
    rintro rfl
    exact hneg
  · have hnn : k = .nn := not_not.mp fun hne => hneg (hk hne)
    subst hnn
    rw [if_neg hneg, Cmd.modify_bind, Cmd.get_bind] at hrun
    obtain ⟨_, s₁, hunlink, hmod⟩ := Cmd.bind_eq_some.mp hrun
    obtain rfl := Cmd.modify_eq_some.mp hmod
    obtain ⟨a, ha⟩ : ∃ a : Nat, (s.fld p).nnFldId = a := Int.eq_ofNat_of_zero_le (not_lt.mp hneg)
    have hauxId : (auxFldId s p .nn).toNat = a := by
      rw [auxFldId, ha]
      rfl
    have hsame : SameRecs (s.setFld p { s.fld p with nnFldId := -1 }) s₁ := by
      rcases Cmd.when_eq_some.mp hunlink with ⟨-, hdel⟩ | ⟨-, rfl⟩
      · obtain ⟨-, hdel⟩ := Cmd.require_bind_eq_some.mp hdel
        rw [qDelete_eq_some hdel]
        exact .setFile ..
      · exact .refl _
    rw [hauxId]
    have hisaux : IsAux s p a := h.linked_iff.mp (.inl ha.symm)
    have htype : (s.fld a).auxtype = .nn := by
      obtain ⟨a', ha', htype, -⟩ := h.nn p (by omega)
      obtain rfl : a' = a := by omega
      exact htype
    have hpa : p ≠ a := by
      rintro rfl
      exact hisaux.auxtype_ne hisaux.primary
    have hself : (s₁.setFld a zeroFldRec).fld a = zeroFldRec := by
      rw [Store.fld_setFld_zero, if_pos rfl]
    have hpar : (s₁.setFld a zeroFldRec).fld p = { s.fld p with nnFldId := -1 } := by
      rw [Store.fld_setFld_of_ne hpa, hsame.fld, Store.fld_setFld_of_lt hlt]
    have hother : ∀ j, j ≠ a → j ≠ p → (s₁.setFld a zeroFldRec).fld j = s.fld j := by
      intro j hja hjp
      rw [Store.fld_setFld_of_ne hja, hsame.fld, Store.fld_setFld_of_ne hjp]
    have hlen : (s₁.setFld a zeroFldRec).flds.length = s.flds.length := by
      rw [Store.length_setFld, hsame.flds, Store.length_setFld]
    have hinfo : (s₁.setFld a zeroFldRec).info = s.info := by
      rw [Store.setFld_info, hsame.info, Store.setFld_info]
    refine ⟨?_, ?_, ?_, hinfo, hlen, ?_, ?_, ?_⟩
    · exact h.cutNn ⟨hisaux, htype, rfl, by decide, by decide, fun _ => rfl, hlen, hinfo, hself, hpar,
        hother⟩
    · have hcut : KeepsStrings s (s.setFld p { s.fld p with nnFldId := -1 }) :=
        .setFld fun hu ht => ⟨hu, ht⟩
      refine (hcut.trans (.sameRecs hsame)).trans ?_
      exact .setFld fun hu => absurd rfl hu
    · rw [Store.setFld_tbls, hsame.tbls, Store.setFld_tbls]
    · rw [hpar]
    · intro j hjp
      by_cases hja : j = a
      · rw [hja]
        exact .inr ⟨ha.symm, hself⟩
      · exact .inl (hother j hja hjp)
    · intro _
      rw [hpar]
      show (-1 : Int) < 0
      decide

/-- The table and the field that a call of `add_aux_fld` is for. -/
def auxSlot (s : Store) (tbl : Name) (inTblId : Int) (fld : Name) (inFldId : Int) :
    Option (Int × Nat) :=
  if 0 ≤ inTblId ∧ 0 ≤ inFldId then some (inTblId, inFldId.toNat)
  else do
    let tblId ← isTbl s tbl
    let fldId ← isFld s tblId fld
    some ((tblId : Int), fldId)

lemma auxSlot_ids {tbl fld : Name} {inTblId inFldId : Int} (h : 0 ≤ inTblId ∧ 0 ≤ inFldId) :
    auxSlot s tbl inTblId fld inFldId = some (inTblId, inFldId.toNat) := if_pos h

lemma auxSlot_names {tbl fld : Name} {inTblId inFldId : Int} (h : ¬ (0 ≤ inTblId ∧ 0 ≤ inFldId))
    {t p : Nat} (ht : isTbl s tbl = some t) (hp : isFld s t fld = some p) :
    auxSlot s tbl inTblId fld inFldId = some ((t : Int), p) := by
  rw [auxSlot, if_neg h, ht]
  simp [hp]

/-- If the field found has no lengths or offsets yet, they are what is added. -/
lemma MetaInv.auxTarget (h : MetaInv s) {tbl fld : Name} {inTblId inFldId : Int} {k : AuxType}
    (hk : ∀ t p, auxSlot s tbl inTblId fld inFldId = some (t, p) → k ≠ .nn → auxFldId s p k < 0)
    {t : Int} {p : Nat} (hrun : auxTarget env tbl inTblId fld inFldId k s = (some (t, p), s')) :
    auxSlot s tbl inTblId fld inFldId = some (t, p) ∧ AuxDropped p k s s' := by
  unfold Datacl.auxTarget at hrun
  by_cases hids : 0 ≤ inTblId ∧ 0 ≤ inFldId
  · rw [if_pos hids] at hrun
    obtain ⟨_, s₁, hdrop, hrun⟩ := Cmd.bind_eq_some.mp hrun
    obtain ⟨heq, rfl⟩ := Cmd.pure_eq_some.mp hrun
    obtain ⟨rfl, rfl⟩ := Prod.mk.inj heq
    rw [dropAuxFld, if_pos hids.2] at hdrop
    exact ⟨auxSlot_ids hids, h.delAuxFld (hk _ _ (auxSlot_ids hids)) hdrop⟩
  · rw [if_neg hids] at hrun
    obtain ⟨_, s₁, hdrop, hrun⟩ := Cmd.bind_eq_some.mp hrun
    rw [Cmd.get_bind] at hrun
    obtain ⟨t₁, ht₁, hrun⟩ := Cmd.ofOption_bind_eq_some.mp hrun
    obtain ⟨p₁, hp₁, hrun⟩ := Cmd.ofOption_bind_eq_some.mp hrun
    obtain ⟨heq, rfl⟩ := Cmd.pure_eq_some.mp hrun
    obtain ⟨rfl, rfl⟩ := Prod.mk.inj heq
    rw [dropAuxFld, if_neg (by decide)] at hdrop
    obtain ⟨-, hdrop⟩ := Cmd.require_bind_eq_some.mp hdrop
    obtain ⟨hfld, hdrop⟩ := Cmd.require_bind_eq_some.mp hdrop
    rw [Cmd.get_bind] at hdrop
    obtain ⟨t, ht, hdrop⟩ := Cmd.ofOption_bind_eq_some.mp hdrop
    cases hp : isFld s t fld with
    | none =>
      rw [hp] at hdrop
      obtain ⟨-, rfl⟩ := Cmd.pure_eq_some.mp hdrop
      obtain rfl := Option.some.inj (ht.symm.trans ht₁)
      rw [hp] at hp₁
      cases hp₁
    | some p =>
      rw [hp] at hdrop
      have hslot := auxSlot_names hids ht hp
      have hdropped := h.delAuxFld (hk _ _ hslot) hdrop
      have htt : t₁ = t := by
        rw [isTbl, hdropped.tbls, ← isTbl, ht] at ht₁
        exact (Option.some.inj ht₁).symm
      subst htt
      rw [hdropped.isFld hfld hp] at hp₁
      obtain rfl := Option.some.inj hp₁
      exact ⟨hslot, hdropped⟩

/-- An auxiliary field has a name that is not valid for a primary one. -/
lemma MetaInv.primary_of_chkFldName (h : MetaInv s) {i : Nat}
    (hi : chkFldName (s.fld i).name = true) : (s.fld i).auxtype = .undefAuxtype := by
  by_contra hk
  obtain ⟨p, hp⟩ := h.aux i hk
  rw [hp.name, auxPrefix] at hi
  simp [chkFldName, Char.isAlphanum] at hi

lemma mkNameAuxFld_eq_some {fld name : Name} {k : AuxType} (h : mkNameAuxFld fld k = some name) :
    chkFldName fld = true ∧ name = auxPrefix k ++ fld := by
  unfold mkNameAuxFld at h
  split at h
  · cases h
  · split at h
    · cases h
    · split at h
      · cases h
      · next hname _ _ => exact ⟨by simpa using hname, (Option.some.inj h).symm⟩

lemma auxFldtype_eq_some {rec : FldRec} {k : AuxType} {t : FldType}
    (h : auxFldtype rec k = some t) : k.Allows t := by
  cases k with
  | nn =>
    simp only [auxFldtype] at h
    split at h
    · next ht =>
      rw [← Option.some.inj h]
      exact ht
    · cases h
  | len => exact (Option.some.inj h).symm
  | off => exact (Option.some.inj h).symm
  | undefAuxtype => cases h

/-- What pointing to a new auxiliary field changes. -/
lemma MetaInv.linkAux (h : MetaInv s) {p a : Nat} {k : AuxType} (hp : p < s.flds.length)
    (hrun : linkAux p a k s = (some (), s')) :
    s'.flds.length = s.flds.length ∧ IndexOk s'.flds.length s'.info ∧
      (∀ r ∈ s.info, r.mode ≠ .undefFldInfo → r ∈ s'.info) ∧
      (∀ r ∈ s'.info, r.mode ≠ .undefFldInfo →
        r ∈ s.info ∨ (r.mode = k.mode ∧ r.fldId = p ∧ r.xxx = a)) ∧
      s'.fld p = { s.fld p with nnFldId := if k = .nn then (a : Int) else (s.fld p).nnFldId } ∧
      (∀ j, j ≠ p → s'.fld j = s.fld j) ∧ LinksTo s' p a k := by
  have hindex : ∀ {m : FldInfoMode}, m ≠ .undefFldInfo →
      onInfo (addToFldInfo s.flds.length p m a) s = (some (), s') →
      s'.flds.length = s.flds.length ∧ IndexOk s'.flds.length s'.info ∧
        (∀ r ∈ s.info, r.mode ≠ .undefFldInfo → r ∈ s'.info) ∧
        (∀ r ∈ s'.info, r.mode ≠ .undefFldInfo →
          r ∈ s.info ∨ (r.mode = m ∧ r.fldId = p ∧ r.xxx = a)) ∧
        (∀ j, s'.fld j = s.fld j) ∧ ∃ r ∈ s'.info, r.mode = m ∧ r.fldId = p ∧ r.xxx = a := by
    intro m hm hrun
    obtain ⟨hflds, hidx, hmem⟩ := h.onInfo_add hrun
    refine ⟨by rw [hflds], hidx, fun r hr hmode => (hmem r hmode).mpr (.inl hr), ?_,
      Store.fld_congr hflds, ?_⟩
    · intro r hr hmode
      rcases (hmem r hmode).mp hr with hr | rfl
      · exact .inl hr
      · exact .inr ⟨rfl, rfl, rfl⟩
    · exact ⟨⟨m, 0, p, a, 0⟩, (hmem _ hm).mpr (.inr rfl), rfl, rfl, rfl⟩
  cases k with
  | undefAuxtype => cases hrun
  | nn =>
    obtain rfl := Cmd.modify_eq_some.mp hrun
    have hself := Store.fld_setFld_of_lt hp { s.fld p with nnFldId := (a : Int) }
    refine ⟨Store.length_setFld .., ?_, fun r hr _ => hr, fun r hr _ => .inl hr, hself,
      fun j hj => Store.fld_setFld_of_ne hj _, ?_⟩
    · rw [Store.length_setFld]
      exact h.index
    · show ((s.setFld p { s.fld p with nnFldId := (a : Int) }).fld p).nnFldId = a
      rw [hself]
  | len =>
    obtain ⟨hlen, hidx, hold, hnew, hfld, hlink⟩ := hindex (by decide) hrun
    exact ⟨hlen, hidx, hold, hnew, hfld p, fun j _ => hfld j, hlink⟩
  | off =>
    obtain ⟨hlen, hidx, hold, hnew, hfld, hlink⟩ := hindex (by decide) hrun
    exact ⟨hlen, hidx, hold, hnew, hfld p, fun j _ => hfld j, hlink⟩

/-- Resetting a free slot changes nothing. -/
lemma SameRecs.setFld_zero {i : Nat} (hi : s.fld i = zeroFldRec) :
    SameRecs s (s.setFld i zeroFldRec) := by
  refine ⟨rfl, Store.flds_ext (Store.length_setFld ..) fun j => ?_, rfl⟩
  rw [Store.fld_setFld_zero]
  by_cases hj : j = i
  · rw [if_pos hj, hj, hi]
  · rw [if_neg hj]

/-- The field `p` got an auxiliary field. -/
structure AuxAdded (p : Nat) (k : AuxType) (s s' : Store) : Prop where
  inv : MetaInv s'
  strings : KeepsStrings s s'
  length : s'.flds.length = s.flds.length
  info : k = .nn → s'.info = s.info
  link : ∃ a, LinksTo s' p a k
  field : (s.fld p).SameRole (s'.fld p)
  others : ∀ j : Nat, (s.fld j).Used → j ≠ p → (j : Int) ≠ (s.fld p).nnFldId →
    s'.fld j = s.fld j

/-- The call is for a field in the table that is given with it, and adds lengths and offsets only
to a field of strings that has none. -/
def AuxCareful (s : Store) (tbl : Name) (inTblId : Int) (fld : Name) (inFldId : Int)
    (k : AuxType) : Prop :=
  ∀ t p, auxSlot s tbl inTblId fld inFldId = some (t, p) → (s.fld p).tblId = t ∧
    (k ≠ .nn → (s.fld p).fldtype = .SV ∧ auxFldId s p k < 0)

/-- The record that `add_aux_fld` writes. -/
def addedAux (t : Int) (p : Nat) (ddirId fileno : Int) (k : AuxType) (fldtype : FldType)
    (name : Name) (filesz : Nat) : FldRec :=
  { zeroFldRec with
    parentId := p
    tblId := t
    auxtype := k
    fldtype := fldtype
    name := name
    fileno := fileno
    ddirId := ddirId
    filesz := filesz }

lemma addAuxFld_eq_some {tbl fld : Name} {inTblId inFldId ddirId fileno : Int} {k : AuxType}
    {rec : FldRec} {auxId : Nat}
    (hrun : addAuxFld env tbl inTblId fld inFldId ddirId fileno k rec s = (some auxId, s')) :
    ∃ t p fldtype filesz s₁ s₂, auxTarget env tbl inTblId fld inFldId k s = (some (t, p), s₁) ∧
      k.Allows fldtype ∧ chkFldName (s₁.fld p).name = true ∧
      auxId < s₁.flds.length ∧ (s₁.fld auxId).name = [] ∧
      linkAux p auxId k (s₁.setFld auxId zeroFldRec) = (some (), s₂) ∧
      s' = s₂.setFld auxId
        (addedAux t p ddirId fileno k fldtype (auxPrefix k ++ (s₁.fld p).name) filesz) := by
  unfold addAuxFld at hrun
  obtain ⟨fldtype, htype, hrun⟩ := Cmd.ofOption_bind_eq_some.mp hrun
  obtain ⟨-, hrun⟩ := Cmd.require_bind_eq_some.mp hrun
  obtain ⟨-, hrun⟩ := Cmd.require_bind_eq_some.mp hrun
  obtain ⟨-, hrun⟩ := Cmd.require_bind_eq_some.mp hrun
  obtain ⟨⟨t, p⟩, s₁, htarget, hrun⟩ := Cmd.bind_eq_some.mp hrun
  dsimp only at hrun
  rw [Cmd.get_bind] at hrun
  obtain ⟨file, -, hrun⟩ := Cmd.ofOption_bind_eq_some.mp hrun
  obtain ⟨auxFld, hname, hrun⟩ := Cmd.ofOption_bind_eq_some.mp hrun
  obtain ⟨a, hempty, hrun⟩ := Cmd.ofOption_bind_eq_some.mp hrun
  rw [Cmd.modify_bind] at hrun
  obtain ⟨_, s₂, hlink, hrun⟩ := Cmd.bind_eq_some.mp hrun
  rw [Cmd.modify_bind] at hrun
  obtain ⟨rfl, rfl⟩ := Cmd.pure_eq_some.mp hrun
  obtain ⟨hvalid, rfl⟩ := mkNameAuxFld_eq_some hname
  obtain ⟨hlt, hfree⟩ := getEmptyFld_eq_some hempty
  exact ⟨t, p, fldtype, file.size, s₁, s₂, htarget, auxFldtype_eq_some htype, hvalid, hlt, hfree,
    hlink, rfl⟩

lemma AuxType.Allows.ne_SV {k : AuxType} {t : FldType} (h : k.Allows t) : t ≠ .SV := by
  rintro rfl
  cases k <;> simp [AuxType.Allows] at h

/-- Once the present auxiliary field has been dropped, the new one can be linked and written. -/
lemma AuxDropped.added {p auxId : Nat} {k : AuxType} {c : FldRec} {s₂ : Store}
    (hdrop : AuxDropped p k s s₁) (hp : (s₁.fld p).Used)
    (hprim : (s₁.fld p).auxtype = .undefAuxtype) (halt : auxId < s₁.flds.length)
    (ha : ¬ (s₁.fld auxId).Used) (hc : AuxRec s₁ p c) (hkind : c.auxtype = k)
    (hstr : k ≠ .nn → (s₁.fld p).fldtype = .SV)
    (hlinkrun : linkAux p auxId k (s₁.setFld auxId zeroFldRec) = (some (), s₂)) :
    AuxAdded p k s (s₂.setFld auxId c) := by
  have hpa : p ≠ auxId := by
    rintro rfl
    exact ha hp
  have hsame : SameRecs s₁ (s₁.setFld auxId zeroFldRec) := .setFld_zero (hdrop.inv.unused _ ha)
  obtain ⟨hlen, hidx, hold, hnew, hpfld, hother, hlink⟩ :=
    (hdrop.inv.sameRecs hsame).linkAux (by rw [hsame.flds]; exact Store.used_lt hp) hlinkrun
  rw [hsame.fld] at hpfld
  rw [hsame.info] at hold hnew
  rw [hsame.flds] at hlen
  simp only [hsame.fld] at hother
  have hself : (s₂.setFld auxId c).fld auxId = c :=
    Store.fld_setFld_of_lt (by rw [hlen]; exact halt) c
  have hpeq : (s₂.setFld auxId c).fld p = s₂.fld p := Store.fld_setFld_of_ne hpa c
  have hrest : ∀ j, j ≠ auxId → j ≠ p → (s₂.setFld auxId c).fld j = s₁.fld j := by
    intro j hja hjp
    rw [Store.fld_setFld_of_ne hja, hother j hjp]
  have hlink' : LinksTo (s₂.setFld auxId c) p auxId k :=
    hlink.mono (by rw [hpeq]) fun r hr _ _ => hr
  refine ⟨?_, ?_, ?_, ?_, ⟨auxId, hlink'⟩, ?_, ?_⟩
  · refine hdrop.inv.addAux ⟨hp, hprim, ha, hc, ?_, ?_, hself, hpeq.trans hpfld, hrest, ?_, ?_, hold, ?_⟩
    · rw [Store.length_setFld, hlen]
    · rw [Store.length_setFld]
      exact hidx
    · rw [hkind]
      by_cases hk : k = .nn
      · exact .inl ⟨hk, if_pos hk, hdrop.nn hk⟩
      · exact .inr ⟨hk, if_neg hk, hstr hk⟩
    · rw [hkind]
      exact hlink'
    · rw [hkind]
      exact hnew
  · refine hdrop.strings.trans ⟨fun j hu ht => ?_, fun _ _ _ r hr hm _ => hold r hr hm⟩
    by_cases hja : j = auxId
    · rw [hja, hself] at ht
      exact absurd ht hc.type.ne_SV
    · by_cases hjp : j = p
      · rw [hjp, hpeq, hpfld] at hu ht
        rw [hjp]
        exact ⟨hu, ht⟩
      · rw [hrest j hja hjp] at hu ht
        exact ⟨hu, ht⟩
  · rw [Store.length_setFld, hlen, hdrop.length]
  · rintro rfl
    obtain rfl := Cmd.modify_eq_some.mp hlinkrun
    exact hdrop.info
  · rw [hpeq, hpfld, hdrop.field]
    exact ⟨id, rfl, rfl, rfl⟩
  · intro j hj hjp hjn
    rcases hdrop.others j hjp with hsamej | ⟨hjn', -⟩
    · have hja : j ≠ auxId := by
        rintro rfl
        rw [hsamej] at ha
        exact ha hj
      exact (hrest j hja hjp).trans hsamej
    · exact absurd hjn' hjn

lemma MetaInv.addAuxFld (h : MetaInv s) {tbl fld : Name} {inTblId inFldId ddirId fileno : Int}
    {k : AuxType} {rec : FldRec} {auxId : Nat} (hok : AuxCareful s tbl inTblId fld inFldId k)
    (hrun : addAuxFld env tbl inTblId fld inFldId ddirId fileno k rec s = (some auxId, s')) :
    ∃ t p, auxSlot s tbl inTblId fld inFldId = some (t, p) ∧ AuxAdded p k s s' := by
  obtain ⟨t, p, fldtype, filesz, s₁, s₂, htarget, hallow, hvalid, halt, hafree, hlinkrun, rfl⟩ :=
    addAuxFld_eq_some hrun
  obtain ⟨hslot, hdrop⟩ := h.auxTarget (fun t p hs hne => ((hok t p hs).2 hne).2) htarget
  obtain ⟨htbl, hstr⟩ := hok t p hslot
  have hptbl : (s₁.fld p).tblId = t := by
    rw [hdrop.field]
    exact htbl
  have hptype : (s₁.fld p).fldtype = (s.fld p).fldtype := by rw [hdrop.field]
  have hauxrec : AuxRec s₁ p
      (addedAux t p ddirId fileno k fldtype (auxPrefix k ++ (s₁.fld p).name) filesz) :=
    ⟨rfl, hptbl.symm, rfl, hallow, Int.negSucc_lt_zero 0⟩
  exact ⟨t, p, hslot, hdrop.added (chkFldName_ne_nil hvalid)
    (hdrop.inv.primary_of_chkFldName hvalid) halt (fun hused => hused hafree) hauxrec rfl
    (fun hk => hptype.trans (hstr hk).1) hlinkrun⟩

end Datacl
