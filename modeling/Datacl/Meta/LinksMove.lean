import Datacl.Meta.LinksFields

/-!
# Renaming, moving and duplicating fields with auxiliary fields
-/

namespace Datacl

variable {env : Env} {s s₁ s' : Store}

/-! ### Renaming -/

/-- Cutting an nn field off makes it a primary field. -/
lemma MetaInv.unlinkNn (h : MetaInv s) {i : Nat} (hi : (s.fld i).Used)
    (hrun : unlinkNn i s = (some (), s')) :
    MetaInv s' ∧ KeepsStrings s s' ∧ s'.info = s.info ∧
      s'.fld i = { s.fld i with parentId := (s'.fld i).parentId, auxtype := .undefAuxtype } := by
  have hlt := Store.used_lt hi
  unfold Datacl.unlinkNn at hrun
  rw [Cmd.get_bind] at hrun
  rcases Cmd.when_eq_some.mp hrun with ⟨hpar, hrun⟩ | ⟨hpar, rfl⟩
  · obtain ⟨p, hp, hpeq⟩ := h.parent hpar
    rw [hpeq] at hrun
    obtain ⟨hnn, hrun⟩ := Cmd.require_bind_eq_some.mp hrun
    obtain ⟨-, hrun⟩ := Cmd.require_bind_eq_some.mp hrun
    rw [Cmd.modify_bind] at hrun
    obtain rfl := Cmd.modify_eq_some.mp hrun
    have htype : (s.fld i).auxtype = .nn := by
      obtain ⟨k, hk, htype, -⟩ := h.nn p (by omega)
      obtain rfl : k = i := by omega
      exact htype
    have hpi : p ≠ i := by
      rintro rfl
      exact hp.auxtype_ne hp.primary
    rw [Store.fld_setFld_of_ne hpi.symm]
    have hself : ∀ r, ((s.setFld p { s.fld p with nnFldId := -1 }).setFld i r).fld i = r :=
      Store.fld_setFld_of_lt (by rw [Store.length_setFld]; exact hlt)
    refine ⟨?_, ?_, rfl, ?_⟩
    · refine h.cutNn (c := { s.fld i with parentId := -1, auxtype := .undefAuxtype }) ⟨hp, htype, rfl,
        Int.negSucc_lt_zero 0, hp.nn, fun hno => absurd hi hno, ?_, rfl, hself _, ?_, ?_⟩
      · rw [Store.length_setFld, Store.length_setFld]
      · rw [Store.fld_setFld_of_ne hpi, Store.fld_setFld_of_lt (Store.used_lt hp.used)]
      · intro j hji hjp
        rw [Store.fld_setFld_of_ne hji, Store.fld_setFld_of_ne hjp]
    · have hcut : KeepsStrings s (s.setFld p { s.fld p with nnFldId := -1 }) :=
        .setFld fun hu ht => ⟨hu, ht⟩
      refine hcut.trans (.setFld fun _ ht => ?_)
      exact absurd ht hp.type.ne_SV
    · rw [hself]
  · have hprim : (s'.fld i).auxtype = .undefAuxtype := by
      by_contra hk
      obtain ⟨p, hp⟩ := h.aux i hk
      have := hp.parent
      omega
    refine ⟨h, .refl s', rfl, ?_⟩
    rw [← hprim]

/-- A deletion of another field leaves a primary field alone. -/
lemma MetaInv.delExisting (h : MetaInv s) {tblId : Nat} {found : Option Nat}
    (hapart : ∀ k, found = some k → Apart k s.info)
    (hrun : delExisting env tblId found s = (some (), s')) :
    MetaInv s' ∧ KeepsStrings s s' ∧ (∀ j, (s'.fld j).Used → s'.fld j = s.fld j) ∧
      ∀ j, (s.fld j).auxtype = .undefAuxtype → found ≠ some j → s'.fld j = s.fld j := by
  rcases delExisting_eq_some h.length h.index hrun with ⟨-, rfl⟩ | ⟨k, reset, rfl, hdel⟩
  · exact ⟨h, .refl _, fun _ _ => rfl, fun _ _ _ => rfl⟩
  · have hremoved := hdel.removed (hapart k rfl)
    refine ⟨h.removed hremoved, .removed hremoved, fun j hj => ?_, fun j hj hne => ?_⟩
    · rw [hdel.flds j] at hj ⊢
      split at hj
      · exact absurd rfl hj
      · next hz => exact if_neg hz
    · refine h.removed_fld hremoved ?_ fun haux => haux.auxtype_ne hj
      rintro rfl
      exact hne rfl

/-- A field that is not one of strings has no lengths or offsets. -/
lemma MetaInv.not_lists (h : MetaInv s) {p j : Nat} (hp : (s.fld p).fldtype ≠ .SV) {r : FldInfo}
    (hr : r ∈ s.info) : ¬ r.Lists p j := by
  rintro ⟨hmode, hf, -⟩
  obtain ⟨k, hk, hm⟩ : ∃ k : AuxType, k.mode ≠ .undefFldInfo ∧ r.mode = k.mode := by
    rcases hmode with hm | hm
    · exact ⟨.len, by decide, hm⟩
    · exact ⟨.off, by decide, hm⟩
  obtain ⟨q, a, hrec⟩ := h.recs r hr (by rw [hm]; exact hk)
  obtain rfl : q = p := by
    have := hrec.fldId
    omega
  exact hp (hrec.aux k hk hm).2.2

lemma MetaInv.only_nn (h : MetaInv s) {p j : Nat} (hp : (s.fld p).fldtype ≠ .SV)
    (hj : IsAux s p j) : (s.fld j).auxtype = .nn := by
  rcases h.linked_iff.mpr hj with hnn | ⟨r, hr, hlists⟩
  · obtain ⟨k, hk, htype, -⟩ := h.nn p (by omega)
    obtain rfl : k = j := by omega
    exact htype
  · exact absurd hlists (h.not_lists hp hr)

lemma MetaInv.renameFld (h : MetaInv s) {tbl oldFld newFld : Name}
    (hapart : ∀ t k, isTbl s tbl = some t → isFld s t newFld = some k → Apart k s.info)
    (hold : ∀ t i, isTbl s tbl = some t → isFld s t oldFld = some i → (s.fld i).fldtype ≠ .SV)
    (hrun : renameFld env tbl oldFld newFld s = (some (), s')) : MetaInv s' ∧ KeepsStrings s s' := by
  unfold Datacl.renameFld at hrun
  obtain ⟨-, hrun⟩ := Cmd.require_bind_eq_some.mp hrun
  obtain ⟨hnew, hrun⟩ := Cmd.require_bind_eq_some.mp hrun
  obtain ⟨hne, hrun⟩ := Cmd.require_bind_eq_some.mp hrun
  obtain ⟨hdiff, hrun⟩ := Cmd.require_bind_eq_some.mp hrun
  rw [Cmd.get_bind] at hrun
  obtain ⟨t, ht, hrun⟩ := Cmd.ofOption_bind_eq_some.mp hrun
  obtain ⟨i, hi, hrun⟩ := Cmd.ofOption_bind_eq_some.mp hrun
  obtain ⟨_, s₁, hunlink, hrun⟩ := Cmd.bind_eq_some.mp hrun
  obtain ⟨_, s₂, hdel, hrun⟩ := Cmd.bind_eq_some.mp hrun
  obtain ⟨-, hrun⟩ := Cmd.require_bind_eq_some.mp hrun
  rw [Cmd.modify_bind] at hrun
  obtain ⟨-, -, hiname⟩ := isFld_eq_some hi
  have hused : (s.fld i).Used := by
    rw [FldRec.Used, hiname]
    exact hne
  obtain ⟨hinv₁, hkeep₁, hinfo₁, hfld₁⟩ := h.unlinkNn hused hunlink
  obtain ⟨hinv₂, hkeep₂, -, hfld₂⟩ := hinv₁.delExisting
    (fun k hk => by rw [hinfo₁]; exact hapart t k ht hk) hdel
  have hi₂ : s₂.fld i = s₁.fld i := by
    refine hfld₂ i (by rw [hfld₁]) fun hk => hdiff ?_
    exact (isFld_eq_some hk).2.2.symm.trans hiname
  have hused₂ : (s₂.fld i).Used := by
    rw [hi₂, hfld₁]
    exact hused
  have hprim₂ : (s₂.fld i).auxtype = .undefAuxtype := by rw [hi₂, hfld₁]
  have hnn₂ : (s₂.fld i).nnFldId = (s.fld i).nnFldId := by rw [hi₂, hfld₁]
  have htype₂ : (s₂.fld i).fldtype ≠ .SV := by
    rw [hi₂, hfld₁]
    exact hold t i ht hi
  have hself := Store.fld_setFld_of_lt (Store.used_lt hused₂) { s₂.fld i with name := newFld }
  have hkeep₃ : KeepsStrings s (s₂.setFld i { s₂.fld i with name := newFld }) :=
    (hkeep₁.trans hkeep₂).trans (.setFld fun _ hsv => absurd hsv htype₂)
  rcases Cmd.when_eq_some.mp hrun with ⟨hnn, hrun⟩ | ⟨hnn, rfl⟩
  · obtain ⟨-, hrun⟩ := Cmd.require_bind_eq_some.mp hrun
    obtain rfl := Cmd.modify_eq_some.mp hrun
    obtain ⟨a, ha⟩ : ∃ a : Nat, (s.fld i).nnFldId = a := Int.eq_ofNat_of_zero_le hnn
    have haux : IsAux s₂ i a := hinv₂.linked_iff.mp (.inl (by rw [hnn₂, ha]))
    have hai : a ≠ i := by
      rintro rfl
      exact haux.auxtype_ne hprim₂
    have halt : a < (s₂.setFld i { s₂.fld i with name := newFld }).flds.length := by
      rw [Store.length_setFld]
      exact Store.used_lt (hinv₂.auxUsed haux.auxtype_ne)
    have haId : (s.fld i).nnFldId.toNat = a := by
      rw [ha]
      rfl
    rw [haId, Store.fld_setFld_of_ne hai]
    constructor
    · refine hinv₂.renamed hused₂ hprim₂ hnew (fun j hj => hinv₂.only_nn htype₂ hj) ?_ rfl
        fun j => ?_
      · rw [Store.length_setFld, Store.length_setFld]
      · by_cases hj : j = i
        · rw [if_pos hj, hj, Store.fld_setFld_of_ne hai.symm, hself]
        · rw [if_neg hj, hnn₂, ha]
          by_cases hja : j = a
          · rw [if_pos (by omega), hja, Store.fld_setFld_of_lt halt]
          · rw [if_neg (by omega), Store.fld_setFld_of_ne hja, Store.fld_setFld_of_ne hj]
    · exact hkeep₃.trans (.setFld fun _ hsv => absurd hsv haux.type.ne_SV)
  · refine ⟨?_, hkeep₃⟩
    refine hinv₂.renamed hused₂ hprim₂ hnew (fun j hj => hinv₂.only_nn htype₂ hj)
      (Store.length_setFld ..) rfl fun j => ?_
    by_cases hj : j = i
    · rw [if_pos hj, hj, hself]
    · rw [if_neg hj, if_neg (by omega), Store.fld_setFld_of_ne hj]

/-! ### Duplicating -/

lemma SameRecs.mkTempFile {f : DataFile} {d n : Int} (h : mkTempFile env f s = (some (d, n), s')) :
    SameRecs s s' := by
  obtain ⟨-, rfl⟩ := mkTempFile_eq_some h
  exact ⟨rfl, rfl, rfl⟩

lemma auxCareful_nn {t p : Nat} (h : (s.fld p).tblId = t) : AuxCareful s [] t [] p .nn := by
  intro t' p' hslot
  rw [auxSlot_ids ⟨Int.natCast_nonneg t, Int.natCast_nonneg p⟩] at hslot
  obtain ⟨rfl, rfl⟩ := Prod.mk.inj (Option.some.inj hslot)
  exact ⟨h, fun hne => absurd rfl hne⟩

/-- Adding an nn field to a field given by its slot. -/
lemma MetaInv.addNn (h : MetaInv s) {t p : Nat} {ddirId fileno : Int} {rec : FldRec} {auxId : Nat}
    (htbl : (s.fld p).tblId = t)
    (hrun : Datacl.addAuxFld env [] t [] p ddirId fileno .nn rec s = (some auxId, s')) :
    AuxAdded p .nn s s' := by
  obtain ⟨t', p', hslot, hadded⟩ := h.addAuxFld (auxCareful_nn htbl) hrun
  rw [auxSlot_ids ⟨Int.natCast_nonneg t, Int.natCast_nonneg p⟩] at hslot
  obtain ⟨-, rfl⟩ := Prod.mk.inj (Option.some.inj hslot)
  exact hadded

lemma MetaInv.dupNn (h : MetaInv s) {t f1Id f2Id : Nat} (htbl : (s.fld f2Id).tblId = t)
    (hrun : dupNn env t f1Id f2Id s = (some (), s')) : MetaInv s' ∧ KeepsStrings s s' := by
  unfold Datacl.dupNn at hrun
  rw [Cmd.get_bind] at hrun
  rcases Cmd.when_eq_some.mp hrun with ⟨-, hrun⟩ | ⟨-, rfl⟩
  · obtain ⟨file, -, hrun⟩ := Cmd.ofOption_bind_eq_some.mp hrun
    obtain ⟨⟨d, n⟩, s₁, htemp, hrun⟩ := Cmd.bind_eq_some.mp hrun
    dsimp only at hrun
    obtain ⟨a, s₂, hadd, hrun⟩ := Cmd.bind_eq_some.mp hrun
    obtain ⟨-, rfl⟩ := Cmd.pure_eq_some.mp hrun
    have hsame := SameRecs.mkTempFile htemp
    have hadded := (h.sameRecs hsame).addNn (by rw [hsame.fld]; exact htbl) hadd
    exact ⟨hadded.inv, (KeepsStrings.sameRecs hsame).trans hadded.strings⟩
  · exact ⟨h, .refl _⟩

lemma MetaInv.dupFld (h : MetaInv s) {tbl f1 f2 : Name}
    (hapart : ∀ t k, isTbl s tbl = some t → isFld s t f2 = some k → Apart k s.info)
    (hf1 : ∀ t i, isTbl s tbl = some t → (s.fld i).tblId = t → (s.fld i).name = f1 →
      (s.fld i).auxtype = .undefAuxtype ∧ (s.fld i).fldtype ≠ .SV)
    (hrun : dupFld env tbl f1 f2 s = (some (), s')) : MetaInv s' ∧ KeepsStrings s s' := by
  unfold Datacl.dupFld at hrun
  obtain ⟨-, hrun⟩ := Cmd.require_bind_eq_some.mp hrun
  obtain ⟨hne1, hrun⟩ := Cmd.require_bind_eq_some.mp hrun
  obtain ⟨hne2, hrun⟩ := Cmd.require_bind_eq_some.mp hrun
  obtain ⟨-, hrun⟩ := Cmd.require_bind_eq_some.mp hrun
  rw [Cmd.get_bind] at hrun
  obtain ⟨t, ht, hrun⟩ := Cmd.ofOption_bind_eq_some.mp hrun
  obtain ⟨_, s₁, hdel, hrun⟩ := Cmd.bind_eq_some.mp hrun
  rw [Cmd.get_bind] at hrun
  obtain ⟨i, hi, hrun⟩ := Cmd.ofOption_bind_eq_some.mp hrun
  obtain ⟨file, -, hrun⟩ := Cmd.ofOption_bind_eq_some.mp hrun
  obtain ⟨⟨d, n⟩, s₂, htemp, hrun⟩ := Cmd.bind_eq_some.mp hrun
  dsimp only at hrun
  rw [Cmd.get_bind] at hrun
  obtain ⟨j, hempty, hrun⟩ := Cmd.ofOption_bind_eq_some.mp hrun
  rw [Cmd.modify_bind] at hrun
  obtain ⟨_, s₃, hnn, hrun⟩ := Cmd.bind_eq_some.mp hrun
  obtain ⟨-, rfl⟩ := Cmd.require_eq_some.mp hrun
  obtain ⟨hinv₁, hkeep₁, hsame₁, -⟩ := h.delExisting (fun k hk => hapart t k ht hk) hdel
  obtain ⟨-, hitbl, hiname⟩ := isFld_eq_some hi
  have hieq : s₁.fld i = s.fld i := hsame₁ i (by rw [FldRec.Used, hiname]; exact hne1)
  obtain ⟨hprim, htype⟩ : (s₁.fld i).auxtype = .undefAuxtype ∧ (s₁.fld i).fldtype ≠ .SV := by
    rw [hieq] at hitbl hiname ⊢
    exact hf1 t i ht hitbl hiname
  have hsame₂ := SameRecs.mkTempFile htemp
  obtain ⟨hlt, hfree⟩ := getEmptyFld_eq_some hempty
  have hinv₃ := (hinv₁.sameRecs hsame₂).newFld hlt (fun hused => hused hfree)
    (r := { s₁.fld i with
      isExternal := false
      nnFldId := -1
      name := f2
      fileno := n
      ddirId := d }) hne2 hprim (hinv₁.primary i hprim) (Int.negSucc_lt_zero 0)
  obtain ⟨hinv, hkeep⟩ := hinv₃.dupNn (by rw [Store.fld_setFld_of_lt hlt]; exact hitbl) hnn
  refine ⟨hinv, ((hkeep₁.trans (.sameRecs hsame₂)).trans ?_).trans hkeep⟩
  exact .setFld fun _ hsv => absurd hsv htype

/-! ### Moving -/

lemma MetaInv.copyFldInfo_none (h : MetaInv s) {dst src : Nat} (hsrc : (s.fld src).fldtype ≠ .SV)
    {k : AuxType} (hk : k.mode ≠ .undefFldInfo)
    (hrun : copyFldInfo dst src k.mode s = (some (), s')) : s' = s := by
  unfold copyFldInfo at hrun
  rw [Cmd.get_bind, h.getFldInfo_eq hsrc hk, Cmd.when_neg (by decide)] at hrun
  exact (Cmd.pure_eq_some.mp hrun).2

/-- A field that is moved keeps its dictionary. -/
lemma MetaInv.copyFldInfo_dict (h : MetaInv s) {dst src : Nat} (hdst : (s.fld dst).Used)
    (hprim : (s.fld dst).auxtype = .undefAuxtype)
    (hrun : copyFldInfo dst src .fkFldTxtLkp s = (some (), s')) :
    MetaInv s' ∧ KeepsStrings s s' ∧ (∀ j, s'.fld j = s.fld j) ∧
      ∀ r ∈ s'.info, r.mode = .fkFldTxtLkp →
        ∃ r₀ ∈ s.info, r₀.mode = .fkFldTxtLkp ∧ r₀.xxx = r.xxx := by
  unfold copyFldInfo at hrun
  rw [Cmd.get_bind] at hrun
  rcases Cmd.when_eq_some.mp hrun with ⟨h0, hrun⟩ | ⟨-, rfl⟩
  · have hmode : FldInfoMode.fkFldTxtLkp ≠ .undefFldInfo := by decide
    rcases getFldInfo_spec h.length h.index hmode src with ⟨-, r₀, hr₀, hm₀, -, hx₀⟩ | ⟨hnone, -⟩
    · obtain ⟨p, a, hrec⟩ := h.recs r₀ hr₀ (by rw [hm₀]; exact hmode)
      rw [← hx₀, hrec.xxx] at hrun
      have hinv := h.addDict hdst hprim hrec.auxUsed (hrec.dict hm₀) hrun
      obtain ⟨hflds, -, hmem⟩ := h.onInfo_add hrun
      have hfld := Store.fld_congr hflds
      refine ⟨hinv, .of_info hfld fun r hr hm => (hmem r hm).mpr (.inl hr), hfld, ?_⟩
      intro r hr hm
      rcases (hmem r (by rw [hm]; exact hmode)).mp hr with hr | rfl
      · exact ⟨r, hr, hm, rfl⟩
      · exact ⟨r₀, hr₀, hm₀, hrec.xxx⟩
    · omega
  · exact ⟨h, .refl _, fun _ => rfl, fun r hr hm => ⟨r, hr, hm, rfl⟩⟩

lemma MetaInv.copyMeta (h : MetaInv s) {dst src : Nat} (hdst : (s.fld dst).Used)
    (hprim : (s.fld dst).auxtype = .undefAuxtype) (hsrc : (s.fld src).fldtype ≠ .SV)
    (hrun : copyMeta dst src s = (some (), s')) :
    MetaInv s' ∧ KeepsStrings s s' ∧ (∀ j, j ≠ dst → s'.fld j = s.fld j) ∧
      s'.fld dst = { s.fld dst with srttype := (s.fld src).srttype } ∧
      ∀ r ∈ s'.info, r.mode = .fkFldTxtLkp →
        ∃ r₀ ∈ s.info, r₀.mode = .fkFldTxtLkp ∧ r₀.xxx = r.xxx := by
  unfold Datacl.copyMeta at hrun
  obtain ⟨hne, hrun⟩ := Cmd.require_bind_eq_some.mp hrun
  rw [Cmd.modify_bind] at hrun
  obtain ⟨_, s₂, hdict, hrun⟩ := Cmd.bind_eq_some.mp hrun
  obtain ⟨_, s₃, hlen, hoff⟩ := Cmd.bind_eq_some.mp hrun
  have hself := Store.fld_setFld_of_lt (Store.used_lt hdst)
    { s.fld dst with srttype := (s.fld src).srttype }
  have hinv₁ := h.updateFld (r := { s.fld dst with srttype := (s.fld src).srttype }) hdst rfl rfl rfl
    ⟨id, rfl, rfl, rfl⟩
  have hkeep₁ : KeepsStrings s (s.setFld dst { s.fld dst with srttype := (s.fld src).srttype }) :=
    .setFld fun hu ht => ⟨hu, ht⟩
  obtain ⟨hinv₂, hkeep₂, hfld₂, hrecs⟩ := hinv₁.copyFldInfo_dict (by rw [hself]; exact hdst)
    (by rw [hself]; exact hprim) hdict
  have hsrc₂ : (s₂.fld src).fldtype ≠ .SV := by
    rw [hfld₂, Store.fld_setFld_of_ne (Ne.symm hne)]
    exact hsrc
  obtain rfl := hinv₂.copyFldInfo_none (k := .len) hsrc₂ (by decide) hlen
  obtain rfl := hinv₂.copyFldInfo_none (k := .off) hsrc₂ (by decide) hoff
  refine ⟨hinv₂, hkeep₁.trans hkeep₂, fun j hj => ?_, ?_, hrecs⟩
  · rw [hfld₂, Store.fld_setFld_of_ne hj]
  · rw [hfld₂, hself]

/-- What `add_fld` leaves of the other primary fields and of the index. -/
lemma MetaInv.addFld_frame (h : MetaInv s) {tblId ddirId fileno : Int} {fld : Name} {rec : FldRec}
    {d : Nat} (hapart : ∀ i, isFld s tblId fld = some i → Apart i s.info)
    (hrun : Datacl.addFld env tblId fld ddirId fileno rec s = (some d, s')) :
    chkFldName fld = true ∧
      (∃ filesz, s'.fld d = addedRec tblId fld ddirId fileno filesz rec) ∧
      (∀ r ∈ s'.info, r.mode ≠ .undefFldInfo → r ∈ s.info) ∧
      ∀ j, (s.fld j).Used → (s.fld j).auxtype = .undefAuxtype → isFld s tblId fld ≠ some j →
        j ≠ d ∧ s'.fld j = s.fld j := by
  obtain ⟨-, hname, -, -, -, s₁, filesz, hfreed, hlt, hfree, rfl⟩ :=
    addFld_eq_some h.length h.index hrun
  refine ⟨hname, ⟨filesz, Store.fld_setFld_of_lt hlt _⟩, ?_, ?_⟩
  · intro r hr hm
    cases hfreed with
    | absent _ => exact hr
    | deleted hfound hdel => exact (((hdel.removed (hapart _ hfound)).info r hm).mp hr).1
  · intro j hj hprim hne
    have hsame : s₁.fld j = s.fld j := by
      cases hfreed with
      | absent _ => rfl
      | deleted hfound hdel =>
        refine h.removed_fld (hdel.removed (hapart _ hfound)) ?_ fun haux => haux.auxtype_ne hprim
        rintro rfl
        exact hne hfound
    have hjd : j ≠ d := by
      rintro rfl
      rw [hsame] at hfree
      exact hj hfree
    exact ⟨hjd, by rw [Store.fld_setFld_of_ne hjd, hsame]⟩

lemma onInfo_del_eq_some {n : Nat} {fldId : Int}
    (hrun : onInfo (delFromFldInfo n fldId) s = (some (), s')) :
    s' = { s with info := zeroFldInfo (fun r => decide (r.fldId = fldId)) s.info } := by
  rw [onInfo, Cmd.on_apply] at hrun
  obtain ⟨hsome, rfl⟩ := Prod.ext_iff.mp hrun
  obtain ⟨-, hmod⟩ := Cmd.require_bind_eq_some.mp
    (show delFromFldInfo n fldId s.info = (some (), (delFromFldInfo n fldId s.info).2) from
      Prod.ext hsome rfl)
  exact congrArg (fun info => { s with info := info }) (Cmd.modify_eq_some.mp hmod)

/-- The last statements of `mv_fld` remove the field from where it was. -/
lemma MetaInv.cleared (h : MetaInv s) {i n : Nat} {nnId : Int} (hnn : nnId = (s.fld i).nnFldId)
    (hprim : (s.fld i).auxtype = .undefAuxtype) (htype : (s.fld i).fldtype ≠ .SV)
    (hunused : ∀ r ∈ s.info, r.mode = .fkFldTxtLkp → r.xxx ≠ i)
    (hzero : Cmd.when (0 ≤ nnId) (Cmd.modify (Store.setFld nnId.toNat zeroFldRec))
      (s.setFld i zeroFldRec) = (some (), s₁))
    (hrun : onInfo (delFromFldInfo n i) s₁ = (some (), s')) : Removed i s s' := by
  obtain ⟨hlen, hinfo, hfld⟩ : s₁.flds.length = s.flds.length ∧ s₁.info = s.info ∧ ∀ j : Nat,
      s₁.fld j = if j = i ∨ j = nnId then zeroFldRec else s.fld j := by
    rcases Cmd.when_eq_some.mp hzero with ⟨h0, hmod⟩ | ⟨h0, rfl⟩
    · obtain rfl := Cmd.modify_eq_some.mp hmod
      refine ⟨by rw [Store.length_setFld, Store.length_setFld], rfl, fun j => ?_⟩
      have hj : j = nnId.toNat ↔ (j : Int) = nnId := by omega
      rw [Store.fld_setFld_zero, Store.fld_setFld_zero]
      simp only [hj]
      by_cases h2 : (j : Int) = nnId
      · rw [if_pos h2, if_pos (.inr h2)]
      · simp [h2]
    · refine ⟨Store.length_setFld .., rfl, fun j => ?_⟩
      have hj : ¬ (j : Int) = nnId := by omega
      rw [Store.fld_setFld_zero]
      simp [hj]
  obtain rfl := onInfo_del_eq_some hrun
  obtain ⟨hidx, hmem⟩ := h.index.zeroFldInfo fun r => decide (r.fldId = (i : Int))
  refine ⟨hprim, hunused, hlen, ?_, fun j => ?_, fun r hm => ?_⟩
  · show IndexOk s₁.flds.length (zeroFldInfo _ s₁.info)
    rw [hlen, hinfo]
    exact hidx
  · show s₁.fld j = _
    have hno : ¬ ∃ r ∈ s.info, r.Lists i j := by
      rintro ⟨r, hr, hlists⟩
      exact h.not_lists htype hr hlists
    rw [hfld j, hnn]
    simp [hno]
  · show r ∈ zeroFldInfo _ s₁.info ↔ _
    rw [hinfo, hmem r hm]
    simp

lemma MetaInv.mvFld (h : MetaInv s) {srcTbl srcFld dstTbl : Name}
    (hapart : ∀ t k, isTbl s dstTbl = some t → isFld s t srcFld = some k → Apart k s.info)
    (hdict : ∀ t i, isTbl s srcTbl = some t → isFld s t srcFld = some i →
      ∀ r ∈ s.info, r.mode = .fkFldTxtLkp → r.xxx ≠ i)
    (hrun : mvFld env srcTbl srcFld dstTbl s = (some (), s')) : MetaInv s' ∧ KeepsStrings s s' := by
  unfold Datacl.mvFld at hrun
  obtain ⟨-, hrun⟩ := Cmd.require_bind_eq_some.mp hrun
  obtain ⟨hne, hrun⟩ := Cmd.require_bind_eq_some.mp hrun
  obtain ⟨-, hrun⟩ := Cmd.require_bind_eq_some.mp hrun
  obtain ⟨hdiff, hrun⟩ := Cmd.require_bind_eq_some.mp hrun
  rw [Cmd.get_bind] at hrun
  obtain ⟨t, ht, hrun⟩ := Cmd.ofOption_bind_eq_some.mp hrun
  obtain ⟨t', ht', hrun⟩ := Cmd.ofOption_bind_eq_some.mp hrun
  obtain ⟨-, hrun⟩ := Cmd.require_bind_eq_some.mp hrun
  obtain ⟨i, hi, hrun⟩ := Cmd.ofOption_bind_eq_some.mp hrun
  obtain ⟨hnum, hrun⟩ := Cmd.require_bind_eq_some.mp hrun
  obtain ⟨d, s₁, hadd, hrun⟩ := Cmd.bind_eq_some.mp hrun
  obtain ⟨_, s₂, hcopy, hrun⟩ := Cmd.bind_eq_some.mp hrun
  obtain ⟨_, s₃, hnn, hrun⟩ := Cmd.bind_eq_some.mp hrun
  rw [Cmd.modify_bind] at hrun
  obtain ⟨_, s₄, hzero, hdel⟩ := Cmd.bind_eq_some.mp hrun
  obtain ⟨-, hitbl, hiname⟩ := isFld_eq_some hi
  have hused : (s.fld i).Used := by
    rw [FldRec.Used, hiname]
    exact hne
  have htype : (s.fld i).fldtype ≠ .SV := by
    intro hsv
    rw [hsv] at hnum
    simp at hnum
  have htt : t ≠ t' := by
    rintro rfl
    exact hdiff ((isTbl_eq_some ht).2.symm.trans (isTbl_eq_some ht').2)
  have hfound : isFld s t' srcFld ≠ some i := by
    intro hk
    have := (isFld_eq_some hk).2.1
    omega
  -- the new field
  have hplain : ({ zeroFldRec with fldtype := (s.fld i).fldtype } : FldRec).Plain := ⟨rfl, rfl, rfl⟩
  obtain ⟨hinv₁, hkeep₁⟩ := h.addFld hplain (fun k hk => hapart t' k ht' hk) hadd
  obtain ⟨hname, ⟨filesz, hd₁⟩, hinfo₁, hframe₁⟩ :=
    h.addFld_frame (fun k hk => hapart t' k ht' hk) hadd
  have hprim : (s.fld i).auxtype = .undefAuxtype :=
    h.primary_of_chkFldName (by rw [hiname]; exact hname)
  obtain ⟨hid, hi₁⟩ := hframe₁ i hused hprim hfound
  -- its dictionary
  obtain ⟨hinv₂, hkeep₂, hother₂, hd₂, hdict₂⟩ := hinv₁.copyMeta
    (by rw [hd₁]; exact chkFldName_ne_nil hname) (by rw [hd₁]; rfl) (by rw [hi₁]; exact htype) hcopy
  have hi₂ : s₂.fld i = s.fld i := (hother₂ i hid).trans hi₁
  -- its nn field
  obtain ⟨hinv₃, hkeep₃, hinfo₃, hi₃⟩ : MetaInv s₃ ∧ KeepsStrings s₂ s₃ ∧ s₃.info = s₂.info ∧
      s₃.fld i = s.fld i := by
    rcases Cmd.when_eq_some.mp hnn with ⟨-, hrunnn⟩ | ⟨-, rfl⟩
    · obtain ⟨a, s₅, haux, hret⟩ := Cmd.bind_eq_some.mp hrunnn
      obtain ⟨-, rfl⟩ := Cmd.pure_eq_some.mp hret
      have hadded := hinv₂.addNn (by rw [hd₂, hd₁]; rfl) haux
      refine ⟨hadded.inv, hadded.strings, hadded.info rfl, ?_⟩
      refine (hadded.others i (by rw [hi₂]; exact hused) hid ?_).trans hi₂
      rw [hd₂, hd₁]
      exact fun h => absurd h (by simp [addedRec, zeroFldRec])
    · exact ⟨hinv₂, .refl _, rfl, hi₂⟩
  have hremoved : Removed i s₃ s' := by
    refine hinv₃.cleared (by rw [hi₃]) (by rw [hi₃]; exact hprim) (by rw [hi₃]; exact htype) ?_ hzero
      hdel
    intro r hr hm
    rw [hinfo₃] at hr
    obtain ⟨r₀, hr₀, hm₀, hx₀⟩ := hdict₂ r hr hm
    rw [← hx₀]
    exact hdict t i ht hi r₀ (hinfo₁ r₀ hr₀ (by rw [hm₀]; decide)) hm₀
  refine ⟨hinv₃.removed hremoved, ?_⟩
  exact (((hkeep₁ htype).trans hkeep₂).trans hkeep₃).trans (.removed hremoved)

end Datacl
