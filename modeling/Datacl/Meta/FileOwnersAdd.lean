import Datacl.Meta.FileOwnersDel

/-!
# Additions and the owners of files

A record that is written refers to a new file.
-/

namespace Datacl

variable {env : Env} {stoF8 : List Char → Option Int} {s s' s₀ : Store}

/-! ### New files -/

/-- A file of a new number. -/
lemma OwnedSince.newFile (h : OwnedSince s₀ s) (d : Int) (f : DataFile) :
    OwnedSince s₀ ({ s with nextFileno := s.nextFileno + 1 }.setFile d s.nextFileno (some f)) := by
  have hlt := fun i hi => h.toFilesOwned.fileno i hi
  have hnext := h.toFilesKept.nextFileno
  have hdisk : ∀ d' n', n' < s.nextFileno →
      ({ s with nextFileno := s.nextFileno + 1 }.setFile d s.nextFileno (some f)).disk d' n' =
        s.disk d' n' := fun d' n' hn => setFile_of_ne fun heq => hn.ne heq.2
  refine ⟨⟨fun i hi => ?_, h.owner, fun i hi => ?_⟩, ⟨?_, fun d' n' hn => ?_⟩, h.free, h.nn⟩
  · have hfile := h.file i hi
    rw [← hdisk _ _ (hlt i hi)] at hfile
    exact hfile
  · have hi := hlt i hi
    show (s.fld i).fileno < s.nextFileno + 1
    omega
  · show s₀.nextFileno ≤ s.nextFileno + 1
    omega
  · rw [hdisk _ _ (by omega)]
    exact h.disk d' n' hn

lemma ownedSince_mkTempFile (f : DataFile) : Cmd.Keeps (OwnedSince s₀) (mkTempFile env f) := by
  unfold mkTempFile
  refine Cmd.keeps_require_bind fun _ => Cmd.keeps_ofOption_bind fun d _ => ?_
  refine Cmd.keeps_require_bind fun _ => fun s h => ?_
  have hnew := h.newFile d f
  rw [Cmd.get_bind, Cmd.modify_bind, Cmd.require_bind]
  split_ifs
  · exact hnew
  · have hnext := h.toFilesKept.nextFileno
    refine ⟨⟨h.file, h.owner, fun i hi => ?_⟩, ⟨?_, h.disk⟩, h.free, h.nn⟩
    · have hi := h.toFilesOwned.fileno i hi
      show (s.fld i).fileno < s.nextFileno + 1
      omega
    · show s₀.nextFileno ≤ s.nextFileno + 1
      omega

/-- No record refers to the file that `mk_temp_file` makes. -/
lemma OwnedSince.spare (h : OwnedSince s₀ s) {f : DataFile} {d n : Int}
    (hrun : mkTempFile env f s = (some (d, n), s')) : Spare d n f s' := by
  have hdir : 0 ≤ d := by
    unfold mkTempFile at hrun
    obtain ⟨-, hrun⟩ := Cmd.require_bind_eq_some.mp hrun
    obtain ⟨dir, -, hrun⟩ := Cmd.ofOption_bind_eq_some.mp hrun
    obtain ⟨hdir, hrun⟩ := Cmd.require_bind_eq_some.mp hrun
    rw [Cmd.get_bind, Cmd.modify_bind] at hrun
    obtain ⟨-, hrun⟩ := Cmd.require_bind_eq_some.mp hrun
    rw [Cmd.modify_bind] at hrun
    obtain ⟨hret, -⟩ := Cmd.pure_eq_some.mp hrun
    have hd : d = (dir : Int) := (Prod.ext_iff.mp hret).1
    omega
  obtain ⟨rfl, rfl⟩ := mkTempFile_eq_some hrun
  refine ⟨setFile_self d _ _, hdir, ?_, fun i hi => ?_⟩
  · show s.nextFileno < s.nextFileno + 1
    omega
  · have hlt := h.toFilesOwned.fileno i (by
      show 0 ≤ (s.fld i).ddirId
      rw [show (s.fld i).ddirId = d from hi]
      exact hdir)
    exact hlt.ne

/-- What is done with a new file. -/
lemma ownedSince_withFile {β : Type} {f : DataFile} {g : Int × Int → Cmd Store β}
    (hg : ∀ d n, Cmd.Leads (fun s => OwnedSince s₀ s ∧ Spare d n f s) (OwnedSince s₀) (g (d, n))) :
    Cmd.Keeps (OwnedSince s₀) (mkTempFile env f >>= g) := by
  intro s h
  refine Cmd.bind_keeps (fun _ => ownedSince_mkTempFile f s h) fun p s' hrun => ?_
  have hkept : OwnedSince s₀ (mkTempFile env f s).2 := ownedSince_mkTempFile f s h
  rw [hrun] at hkept
  exact hg p.1 p.2 s' ⟨hkept, h.spare hrun⟩

/-! ### Adding -/

lemma qMmap_eq_some {d n : Int} {f : DataFile} (h : qMmap env s d n = some f) :
    env.canEnter d = true ∧ s.disk d n = some f := by
  unfold qMmap at h
  split_ifs at h with hd
  exact ⟨hd.1, (Option.filter_eq_some_iff.mp h).1⟩

lemma chkFileSize_eq_some {nR : Int} {rec : FldRec} {filesz : Nat}
    (h : chkFileSize env s nR rec = some filesz) :
    ∃ f, s.disk rec.ddirId rec.fileno = some f ∧ filesz = f.size := by
  unfold chkFileSize at h
  by_cases hnR : nR ≤ 0
  · rw [if_pos hnR] at h
    cases h
  · rw [if_neg hnR] at h
    cases hf : qMmap env s rec.ddirId rec.fileno with
    | none =>
      rw [hf] at h
      cases h
    | some f =>
      rw [hf] at h
      refine ⟨f, (qMmap_eq_some hf).2, ?_⟩
      dsimp only at h
      split_ifs at h
      exact (Option.some.inj h).symm

section

variable {d n : Int} {f : DataFile}

lemma name_ne_nil_of_chkFldName {x : Name} (h : chkFldName x = true) : x ≠ [] := by
  rintro rfl
  simp [chkFldName] at h

/-- `add_fld` with a file that no record refers to. -/
lemma leads_addFld (tblId : Int) (fld : Name) {rec : FldRec} (hrec : rec.nnFldId = -1) :
    Cmd.Leads (fun s => OwnedSince s₀ s ∧ Spare d n f s) (OwnedSince s₀)
      (addFld env tblId fld d n rec) := by
  have hdel := (ownedSince_keptByDiscard s₀).and (spare_keptByDiscard d n f)
  have hleft : ∀ s, OwnedSince s₀ s ∧ Spare d n f s → OwnedSince s₀ s := fun _ h => h.1
  unfold addFld
  refine Cmd.leads_require_bind hleft fun _ => Cmd.leads_require_bind hleft fun hname => ?_
  refine Cmd.leads_require_bind hleft fun _ => Cmd.leads_require_bind hleft fun _ => ?_
  refine Cmd.leads_get_bind fun s hs => Cmd.leads_require_bind hleft fun _ => ?_
  refine Cmd.leads_require_bind hleft fun _ => Cmd.leads_ofOption_bind hleft fun filesz hsize => ?_
  obtain ⟨f', hf', rfl⟩ := chkFileSize_eq_some hsize
  obtain rfl : f = f' := Option.some.inj (hs.2.file.symm.trans hf')
  refine Cmd.leads_bind hleft (hdel.keeps_delFld _ _ _ _) fun _ => ?_
  refine Cmd.leads_get_bind fun s₁ _ => Cmd.leads_ofOption_bind hleft fun fldId _ => ?_
  rintro s₂ ⟨h₂, hspare₂⟩
  refine h₂.place hspare₂ rfl rfl rfl (name_ne_nil_of_chkFldName hname) ?_
  show rec.nnFldId ≠ fldId
  omega

lemma keeps_linkAux_ownedSince {fldId auxId : Nat} (hne : fldId ≠ auxId) (auxtype : AuxType) :
    Cmd.Keeps (fun s => OwnedSince s₀ s ∧ Spare d n f s) (linkAux fldId auxId auxtype) := by
  have hinfo : ∀ s info, OwnedSince s₀ s ∧ Spare d n f s →
      OwnedSince s₀ { s with info := info } ∧ Spare d n f { s with info := info } :=
    fun s info h => ⟨h.1.congr rfl rfl rfl, h.2.congr rfl rfl rfl⟩
  cases auxtype with
  | undefAuxtype => exact fun _ h => h
  | nn =>
    refine Cmd.keeps_modify fun s h => ⟨h.1.setFld ⟨rfl, rfl, rfl, id⟩ ?_, h.2.setFld (h.2.unowned fldId)⟩
    show (auxId : Int) ≠ fldId
    omega
  | len => exact Cmd.keeps_get_bind fun s _ => keeps_onInfo hinfo _
  | off => exact Cmd.keeps_get_bind fun s _ => keeps_onInfo hinfo _

/-- `add_aux_fld` with a file that no record refers to. -/
lemma leads_addAuxFld (tbl : Name) (inTblId : Int) (fld : Name) (inFldId : Int) (auxtype : AuxType)
    (rec : FldRec) : Cmd.Leads (fun s => OwnedSince s₀ s ∧ Spare d n f s) (OwnedSince s₀)
      (addAuxFld env tbl inTblId fld inFldId d n auxtype rec) := by
  have hdel := (ownedSince_keptByDiscard s₀).and (spare_keptByDiscard d n f)
  have hleft : ∀ s, OwnedSince s₀ s ∧ Spare d n f s → OwnedSince s₀ s := fun _ h => h.1
  unfold addAuxFld
  refine Cmd.leads_ofOption_bind hleft fun fldtype _ => Cmd.leads_require_bind hleft fun _ => ?_
  refine Cmd.leads_require_bind hleft fun _ => Cmd.leads_require_bind hleft fun _ => ?_
  refine Cmd.leads_bind hleft (hdel.keeps_auxTarget _ _ _ _ _) fun target => ?_
  refine Cmd.leads_get_bind fun s hs => Cmd.leads_ofOption_bind hleft fun file hfile => ?_
  obtain rfl : f = file := Option.some.inj (hs.2.file.symm.trans (qMmap_eq_some hfile).2)
  refine Cmd.leads_ofOption_bind hleft fun auxFld haux => ?_
  refine Cmd.leads_ofOption_bind hleft fun auxId hslot => ?_
  have hvalid : chkFldName (s.fld target.2).name = true ∧ auxFld ≠ [] := by
    unfold mkNameAuxFld at haux
    split_ifs at haux with hchk
    obtain rfl := Option.some.inj haux
    exact ⟨by simpa using hchk, by simp [auxPrefix]⟩
  have hne : target.2 ≠ auxId := by
    rintro rfl
    exact name_ne_nil_of_chkFldName hvalid.1 (getEmptyFld_eq_some hslot).2
  refine Cmd.leads_bind hleft (Cmd.keeps_modify fun s h => hdel.reset auxId s h) fun _ => ?_
  refine Cmd.leads_bind hleft (keeps_linkAux_ownedSince hne auxtype) fun _ => ?_
  rintro s₁ ⟨h₁, hspare₁⟩
  refine h₁.place hspare₁ rfl rfl rfl hvalid.2 ?_
  show (-1 : Int) ≠ auxId
  omega

end

/-! ### Fields -/

lemma ownedSince_unlinkNn (fldId : Nat) : Cmd.Keeps (OwnedSince s₀) (unlinkNn fldId) := by
  unfold unlinkNn
  refine Cmd.keeps_get_bind fun s _ => Cmd.keeps_when ?_
  refine Cmd.keeps_require_bind fun _ => Cmd.keeps_require_bind fun _ => ?_
  refine Cmd.keeps_bind (Cmd.keeps_modify fun s' h => ?_) fun _ _ _ _ => ?_
  · exact h.setFld ⟨rfl, rfl, rfl, id⟩ (show (-1 : Int) ≠ (s.fld fldId).parentId.toNat by omega)
  · exact Cmd.keeps_modify fun s h => h.setFld ⟨rfl, rfl, rfl, id⟩ (h.nn fldId)

lemma ownedSince_renameFld (tbl oldFld newFld : Name) :
    Cmd.Keeps (OwnedSince s₀) (renameFld env tbl oldFld newFld) := by
  have hdel := ownedSince_keptByDiscard s₀
  unfold renameFld
  refine Cmd.keeps_require_bind fun _ => Cmd.keeps_require_bind fun hnew => ?_
  refine Cmd.keeps_require_bind fun _ => Cmd.keeps_require_bind fun _ => ?_
  refine Cmd.keeps_get_bind fun s _ => Cmd.keeps_ofOption_bind fun tblId _ => ?_
  refine Cmd.keeps_ofOption_bind fun old _ => ?_
  refine Cmd.keeps_bind (ownedSince_unlinkNn old) fun _ _ _ _ => ?_
  refine Cmd.keeps_bind (hdel.keeps_delExisting tblId _) fun _ _ _ _ => ?_
  refine Cmd.keeps_require_bind fun _ => ?_
  refine Cmd.keeps_bind (Cmd.keeps_modify fun s h => ?_) fun _ _ _ _ => Cmd.keeps_when ?_
  · exact h.setFld ⟨rfl, rfl, rfl, fun hnil => absurd hnil hnew⟩ (h.nn old)
  · refine Cmd.keeps_require_bind fun _ => Cmd.keeps_modify fun s h => ?_
    exact h.setFld ⟨rfl, rfl, rfl, fun hnil => by simp [auxPrefix] at hnil⟩ (h.nn _)

lemma ownedSince_dupFld (tbl f1 f2 : Name) :
    Cmd.Keeps (OwnedSince s₀) (dupFld env tbl f1 f2) := by
  have hdel := ownedSince_keptByDiscard s₀
  unfold dupFld
  refine Cmd.keeps_require_bind fun _ => Cmd.keeps_require_bind fun _ => ?_
  refine Cmd.keeps_require_bind fun hf2 => Cmd.keeps_require_bind fun _ => ?_
  refine Cmd.keeps_get_bind fun s _ => Cmd.keeps_ofOption_bind fun tblId _ => ?_
  refine Cmd.keeps_bind (hdel.keeps_delExisting tblId _) fun _ _ _ _ => ?_
  refine Cmd.keeps_get_bind fun s h => Cmd.keeps_ofOption_bind fun f1Id _ => ?_
  refine Cmd.keeps_ofOption_bind fun file hfile => ?_
  -- The copy has the size that is recorded for the field.
  obtain ⟨hdir, hdisk⟩ := qMmap_eq_some hfile
  have hsize : (s.fld f1Id).filesz = file.size := by
    obtain ⟨f', hf', hsize⟩ := h.file f1Id (of_decide_eq_true hdir).1
    rw [Option.mem_def, hdisk] at hf'
    rw [← hsize, Option.some.inj hf']
  refine ownedSince_withFile fun d n => ?_
  have hleft : ∀ s, OwnedSince s₀ s ∧ Spare d n file s → OwnedSince s₀ s := fun _ h => h.1
  refine Cmd.leads_get_bind fun s₁ _ => Cmd.leads_ofOption_bind hleft fun f2Id _ => ?_
  refine Cmd.Leads.bind (fun s₂ h₂ => ?_) fun _ => ?_
  · refine h₂.1.place h₂.2 rfl rfl hsize hf2 ?_
    show (-1 : Int) ≠ f2Id
    omega
  · refine Cmd.keeps_bind ?_ fun _ _ _ _ => Cmd.keeps_require _
    unfold dupNn
    refine Cmd.keeps_get_bind fun s _ => Cmd.keeps_when ?_
    refine Cmd.keeps_ofOption_bind fun nnFile _ => ownedSince_withFile fun d n => ?_
    exact (leads_addAuxFld _ _ _ _ _ _).bind fun _ => Cmd.keeps_pure _

/-! ### Attributes -/

lemma ownedSince_setAttr (tblId fldId : Nat) (attr : Attr) (value : List Char) (isInternal : Bool) :
    Cmd.Keeps (OwnedSince s₀) (setAttr stoF8 tblId fldId attr value isInternal) := by
  cases attr with
  | tbltype =>
    refine Cmd.keeps_ofOption_bind fun tbltype _ => Cmd.keeps_require_bind fun _ => ?_
    refine Cmd.keeps_get_bind fun s _ => Cmd.keeps_ofOption_bind fun txt _ => ?_
    exact Cmd.keeps_require_bind fun _ => Cmd.keeps_modify fun _ h => h.congr rfl rfl rfl
  | dictFld =>
    refine Cmd.keeps_ofOption_bind fun strtbl _ => Cmd.keeps_require_bind fun _ => ?_
    refine Cmd.keeps_ofOption_bind fun strfld _ => Cmd.keeps_require_bind fun _ => ?_
    refine Cmd.keeps_get_bind fun s h => Cmd.keeps_ofOption_bind fun tblId _ => ?_
    refine Cmd.keeps_ofOption_bind fun dict _ => Cmd.keeps_require_bind fun _ => ?_
    exact keeps_onInfo (fun _ _ h => h.congr rfl rfl rfl) _
  | stat stat =>
    refine Cmd.keeps_ofOption_bind fun buf _ => Cmd.keeps_ofOption_bind fun numNn _ => ?_
    refine Cmd.keeps_require_bind fun _ => ?_
    refine Cmd.keeps_bind (Cmd.keeps_modify fun s h => ?_) fun _ _ _ _ => ?_
    · exact h.setFld ⟨rfl, rfl, rfl, id⟩ (h.nn fldId)
    refine Cmd.keeps_ofOption_bind fun buf _ => Cmd.keeps_get_bind fun s _ => ?_
    refine Cmd.keeps_ofOption_bind fun v _ => ?_
    refine Cmd.keeps_bind (Cmd.keeps_modify fun s h => ?_) fun _ _ _ _ => ?_
    · cases stat <;> exact h.setFld ⟨rfl, rfl, rfl, id⟩ (h.nn fldId)
    refine Cmd.keeps_get_bind fun s _ => Cmd.keeps_require_bind fun _ => ?_
    exact Cmd.keeps_require_bind fun _ => Cmd.keeps_require _
  | fldtype =>
    refine Cmd.keeps_ofOption_bind fun fldtype _ => Cmd.keeps_get_bind fun s _ => ?_
    refine Cmd.keeps_require_bind fun _ => Cmd.keeps_modify fun s h => ?_
    exact h.setFld ⟨rfl, rfl, rfl, id⟩ (h.nn fldId)
  | srttype =>
    refine Cmd.keeps_ofOption_bind fun srttype _ => ?_
    refine Cmd.keeps_require_bind fun _ => Cmd.keeps_modify fun s h => ?_
    exact h.setFld ⟨rfl, rfl, rfl, id⟩ (h.nn fldId)
  | external =>
    refine Cmd.keeps_require_bind fun _ => ?_
    refine Cmd.keeps_require_bind fun _ => Cmd.keeps_modify fun s h => ?_
    exact h.setFld ⟨rfl, rfl, rfl, id⟩ (h.nn fldId)
  | other => exact fun _ h => h

lemma ownedSince_unsetAttr (tblId fldId : Nat) (attr : Attr) :
    Cmd.Keeps (OwnedSince s₀) (unsetAttr tblId fldId attr) := by
  cases attr with
  | tbltype => exact Cmd.keeps_modify fun _ h => h.congr rfl rfl rfl
  | dictFld =>
    exact Cmd.keeps_get_bind fun s _ => keeps_onInfo (fun _ _ h => h.congr rfl rfl rfl) _
  | stat stat =>
    refine Cmd.keeps_bind (Cmd.keeps_modify fun s h => ?_) fun _ _ _ _ => ?_
    · cases stat <;> exact h.setFld ⟨rfl, rfl, rfl, id⟩ (h.nn fldId)
    refine Cmd.keeps_get_bind fun s _ => Cmd.keeps_when (Cmd.keeps_modify fun s h => ?_)
    exact h.setFld ⟨rfl, rfl, rfl, id⟩ (h.nn fldId)
  | srttype => exact Cmd.keeps_modify fun s h => h.setFld ⟨rfl, rfl, rfl, id⟩ (h.nn fldId)
  | fldtype => exact fun _ h => h
  | external => exact fun _ h => h
  | other => exact fun _ h => h

lemma ownedSince_chkAttr (tblId fldId : Int) : Cmd.Keeps (OwnedSince s₀) (chkAttr env tblId fldId) :=
  Cmd.keeps_get_bind fun _ _ => Cmd.keeps_require_bind fun _ => Cmd.keeps_require _

end Datacl
