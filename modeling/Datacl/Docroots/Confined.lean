import Datacl.Meta.FileOwnersRun

/-!
# What a docroot writes to

The fields of a docroot that are not external have their files in its own directories. The files of
other directories stay as they are, unless a field is deleted that has an external length or offset
field, or an external field is moved: its new record is no longer external.
-/

namespace Datacl

variable {own : Int → Prop} {env : Env} {stoF8 : List Char → Option Int} {s s' s₀ : Store}

/-- The record is that of no field, or of one in the own directories or an external one. -/
structure FldRec.Placed (own : Int → Prop) (r : FldRec) : Prop where
  own : r.isExternal = false → 0 ≤ r.ddirId → own r.ddirId
  dir : 0 ≤ r.tblId → 0 ≤ r.ddirId
  fileno : 0 ≤ r.ddirId → 0 < r.fileno

/-- The records are placed, and the files of other directories are as they were in `s₀`. -/
structure Confined (own : Int → Prop) (s₀ s : Store) : Prop where
  fld : ∀ i, (s.fld i).Placed own
  nextFileno : 0 < s.nextFileno
  disk : ∀ d n, ¬ own d → s.disk d n = s₀.disk d n

/-- The index names no external field as the lengths or offsets of a field. -/
def ExternalUnlisted (s : Store) : Prop :=
  ∀ r ∈ s.info, r.NamesAux → (s.fld r.xxx.toNat).isExternal = false

instance (s : Store) : Decidable (ExternalUnlisted s) := inferInstanceAs (Decidable (∀ _ ∈ _, _))

lemma placed_zeroFldRec : zeroFldRec.Placed own :=
  ⟨fun _ h => absurd h (by decide), fun h => absurd h (by decide), fun h => absurd h (by decide)⟩

namespace Confined

lemma self (h : Confined own s₀ s) : Confined own s s := ⟨h.fld, h.nextFileno, fun _ _ _ => rfl⟩

lemma setFld (h : Confined own s₀ s) {i : Nat} {r : FldRec} (hr : r.Placed own) :
    Confined own s₀ (s.setFld i r) := by
  refine ⟨fun j => ?_, h.nextFileno, h.disk⟩
  rw [Store.fld_setFld]
  split_ifs
  · exact hr
  · exact h.fld j

lemma setFile (h : Confined own s₀ s) {d n : Int} {f : Option DataFile} (hd : own d) :
    Confined own s₀ (s.setFile d n f) := by
  refine ⟨h.fld, h.nextFileno, fun d' n' hother => ?_⟩
  rw [setFile_of_ne fun heq => hother (by rw [heq.1]; exact hd)]
  exact h.disk d' n' hother

lemma congr (h : Confined own s₀ s) (hflds : s'.flds = s.flds) (hdisk : s'.disk = s.disk)
    (hnext : s'.nextFileno = s.nextFileno) : Confined own s₀ s' := by
  refine ⟨fun i => ?_, ?_, ?_⟩
  · rw [Store.fld_congr hflds]
    exact h.fld i
  · rw [hnext]
    exact h.nextFileno
  · rw [hdisk]
    exact h.disk

end Confined

lemma ExternalUnlisted.setFld (h : ExternalUnlisted s) {i : Nat} {r : FldRec}
    (hr : (s.fld i).isExternal = false → r.isExternal = false) : ExternalUnlisted (s.setFld i r) := by
  intro e he hnames
  have hold := h e he hnames
  rw [Store.fld_setFld]
  split_ifs with hi
  · rw [hi.1] at hold
    exact hr hold
  · exact hold

lemma confined_keptByUnlink (own : Int → Prop) (s₀ : Store) :
    KeptByUnlink (Confined own s₀) fun r => r.isExternal = false where
  own _ h := h
  reset _ _ h := h.setFld placed_zeroFldRec
  discard i _ h hext hi := (h.setFile ((h.fld i).own hext hi)).setFld placed_zeroFldRec
  cutNn i _ h := h.setFld ⟨(h.fld i).own, (h.fld i).dir, (h.fld i).fileno⟩

lemma confined_keptByDiscard (own : Int → Prop) (s₀ : Store) :
    KeptByDiscard (fun s => Confined own s₀ s ∧ ExternalUnlisted s) fun r => r.isExternal = false where
  own _ h := h
  reset i s h := ⟨(confined_keptByUnlink own s₀).reset i s h.1, h.2.setFld fun _ => rfl⟩
  discard i s h hext hi :=
    ⟨(confined_keptByUnlink own s₀).discard i s h.1 hext hi,
      ExternalUnlisted.setFld (s := s.setFile _ _ _) h.2 fun _ => rfl⟩
  cutNn i s h := ⟨(confined_keptByUnlink own s₀).cutNn i s h.1, h.2.setFld id⟩
  drop s info h hinfo := by
    refine ⟨h.1.congr rfl rfl rfl, fun r hr hnames => ?_⟩
    rcases hinfo r hr with hmem | rfl
    · exact h.2 r hmem hnames
    · exact absurd hnames (by decide)
  named _ r h hr hnames := h.2 r hr hnames

/-! ### New files -/

/-- Temporary files go to the own directories. -/
def Env.WritesTo (env : Env) (own : Int → Prop) : Prop := ∀ sz d, env.tempDir sz = some d → own d

/-- A directory and a number that a record can be given. -/
structure OwnPlace (own : Int → Prop) (d n : Int) : Prop where
  own : 0 ≤ d → own d
  fileno : 0 ≤ d → 0 < n

section

variable (henv : env.WritesTo own)
include henv

lemma keeps_ownTempFile {I : Store → Prop}
    (hnext : ∀ s n, s.nextFileno ≤ n → I s → I { s with nextFileno := n })
    (hfile : ∀ s d n f, own d → I s → I (s.setFile d n f)) (f : DataFile) :
    Cmd.Keeps I (mkTempFile env f) := by
  unfold mkTempFile
  refine Cmd.keeps_require_bind fun _ => Cmd.keeps_ofOption_bind fun d hd => ?_
  refine Cmd.keeps_require_bind fun _ => Cmd.keeps_get_bind fun s _ => ?_
  refine Cmd.keeps_bind (Cmd.keeps_modify fun s h => hnext s _ (by omega) h) fun _ _ _ _ => ?_
  refine Cmd.keeps_require_bind fun _ => ?_
  refine Cmd.keeps_bind (Cmd.keeps_modify fun s h => ?_) fun _ _ _ _ => Cmd.keeps_pure _
  exact hfile s d _ _ (henv _ d hd) h

lemma confined_mkTempFile (f : DataFile) : Cmd.Keeps (Confined own s₀) (mkTempFile env f) :=
  keeps_ownTempFile henv
    (fun _ _ hn h => ⟨h.fld, lt_of_lt_of_le h.nextFileno hn, h.disk⟩)
    (fun _ _ _ _ hd h => h.setFile hd) f

lemma confined_unlisted_mkTempFile (f : DataFile) :
    Cmd.Keeps (fun s => Confined own s₀ s ∧ ExternalUnlisted s) (mkTempFile env f) :=
  keeps_ownTempFile henv
    (fun _ _ hn h => ⟨⟨h.1.fld, lt_of_lt_of_le h.1.nextFileno hn, h.1.disk⟩, h.2⟩)
    (fun _ _ _ _ hd h => ⟨h.1.setFile hd, h.2⟩) f

lemma ownPlace_of_mkTempFile {f : DataFile} {p : Int × Int} (h : Confined own s₀ s)
    (hrun : mkTempFile env f s = (some p, s')) : 0 ≤ p.1 ∧ OwnPlace own p.1 p.2 := by
  unfold mkTempFile at hrun
  obtain ⟨-, hrun⟩ := Cmd.require_bind_eq_some.mp hrun
  obtain ⟨d, hd, hrun⟩ := Cmd.ofOption_bind_eq_some.mp hrun
  obtain ⟨-, hrun⟩ := Cmd.require_bind_eq_some.mp hrun
  rw [Cmd.get_bind, Cmd.modify_bind] at hrun
  obtain ⟨-, hrun⟩ := Cmd.require_bind_eq_some.mp hrun
  rw [Cmd.modify_bind] at hrun
  obtain ⟨rfl, -⟩ := Cmd.pure_eq_some.mp hrun
  exact ⟨Int.natCast_nonneg d, fun _ => henv _ d hd, fun _ => h.nextFileno⟩

/-- What is done with a new file. -/
lemma confined_withFile {β : Type} {f : DataFile} {I : Store → Prop} {g : Int × Int → Cmd Store β}
    (hI : ∀ s, I s → Confined own s₀ s) (hfile : Cmd.Keeps I (mkTempFile env f))
    (hg : ∀ p, 0 ≤ p.1 → OwnPlace own p.1 p.2 → Cmd.Leads I (Confined own s₀) (g p)) :
    Cmd.Leads I (Confined own s₀) (mkTempFile env f >>= g) := by
  intro s h
  refine Cmd.bind_keeps (fun _ => hI _ (hfile s h)) fun p s' hrun => ?_
  have hkept := hfile s h
  rw [hrun] at hkept
  obtain ⟨hdir, hplace⟩ := ownPlace_of_mkTempFile henv (hI s h) hrun
  exact hg p hdir hplace s' hkept

end

/-! ### Adding -/

lemma canEnter_nonneg {d : Int} (h : env.canEnter d = true) : 0 ≤ d := (of_decide_eq_true h).1

/-- `add_fld` in the own directories. -/
lemma confined_addFld (tblId : Int) (fld : Name) {d n : Int} (rec : FldRec) (hd : OwnPlace own d n) :
    Cmd.Leads (fun s => Confined own s₀ s ∧ ExternalUnlisted s) (Confined own s₀)
      (addFld env tblId fld d n rec) := by
  have hdel := confined_keptByDiscard own s₀
  have hleft : ∀ s, Confined own s₀ s ∧ ExternalUnlisted s → Confined own s₀ s := fun _ h => h.1
  unfold addFld
  refine Cmd.leads_require_bind hleft fun _ => Cmd.leads_require_bind hleft fun _ => ?_
  refine Cmd.leads_require_bind hleft fun hn => Cmd.leads_require_bind hleft fun hdir => ?_
  refine Cmd.leads_get_bind fun s hs => Cmd.leads_require_bind hleft fun _ => ?_
  refine Cmd.leads_require_bind hleft fun _ => Cmd.leads_ofOption_bind hleft fun filesz _ => ?_
  refine Cmd.leads_bind hleft (hdel.keeps_delFld _ _ _ _) fun _ => ?_
  refine Cmd.leads_get_bind fun s₁ _ => Cmd.leads_ofOption_bind hleft fun fldId _ => ?_
  exact fun s₂ h₂ => h₂.1.setFld ⟨fun _ => hd.own, fun _ => hdir.1, fun _ => hn⟩

lemma confined_linkAux (fldId auxId : Nat) (auxtype : AuxType) :
    Cmd.Keeps (Confined own s₀) (linkAux fldId auxId auxtype) := by
  have hinfo : ∀ s info, Confined own s₀ s → Confined own s₀ { s with info := info } :=
    fun s info h => h.congr rfl rfl rfl
  cases auxtype with
  | undefAuxtype => exact fun _ h => h
  | nn =>
    refine Cmd.keeps_modify fun s h => h.setFld ?_
    exact ⟨(h.fld fldId).own, (h.fld fldId).dir, (h.fld fldId).fileno⟩
  | len => exact Cmd.keeps_get_bind fun s _ => keeps_onInfo hinfo _
  | off => exact Cmd.keeps_get_bind fun s _ => keeps_onInfo hinfo _

/-- `add_aux_fld` in the own directories. -/
lemma confined_addAuxFld (tbl : Name) (inTblId : Int) (fld : Name) (inFldId : Int) {d n : Int}
    (auxtype : AuxType) (rec : FldRec) (hd : OwnPlace own d n) :
    Cmd.Keeps (Confined own s₀) (addAuxFld env tbl inTblId fld inFldId d n auxtype rec) := by
  have hdel := confined_keptByUnlink own s₀
  unfold addAuxFld
  refine Cmd.keeps_ofOption_bind fun fldtype _ => Cmd.keeps_require_bind fun _ => ?_
  refine Cmd.keeps_require_bind fun _ => Cmd.keeps_require_bind fun _ => ?_
  refine Cmd.keeps_bind (hdel.keeps_auxTarget _ _ _ _ _) fun _ target _ _ => ?_
  refine Cmd.keeps_get_bind fun s _ => Cmd.keeps_ofOption_bind fun file hfile => ?_
  have hdir := canEnter_nonneg (qMmap_eq_some hfile).1
  refine Cmd.keeps_ofOption_bind fun auxFld _ => Cmd.keeps_ofOption_bind fun auxId _ => ?_
  refine Cmd.keeps_bind (Cmd.keeps_modify fun s h => hdel.reset auxId s h) fun _ _ _ _ => ?_
  refine Cmd.keeps_bind (confined_linkAux _ _ _) fun _ _ _ _ => ?_
  refine Cmd.keeps_bind (Cmd.keeps_modify fun s h => h.setFld ?_) fun _ _ _ _ => Cmd.keeps_pure _
  exact ⟨fun _ => hd.own, fun _ => hdir, hd.fileno⟩

/-! ### Fields -/

lemma confined_unlinkNn (fldId : Nat) :
    Cmd.Keeps (fun s => Confined own s₀ s ∧ ExternalUnlisted s) (unlinkNn fldId) := by
  unfold unlinkNn
  refine Cmd.keeps_get_bind fun s _ => Cmd.keeps_when ?_
  refine Cmd.keeps_require_bind fun _ => Cmd.keeps_require_bind fun _ => ?_
  refine Cmd.keeps_bind (Cmd.keeps_modify fun s' h => ?_) fun _ _ _ _ => ?_
  · exact (confined_keptByDiscard own s₀).cutNn _ s' h
  · refine Cmd.keeps_modify fun s h => ⟨h.1.setFld ?_, h.2.setFld id⟩
    exact ⟨(h.1.fld fldId).own, (h.1.fld fldId).dir, (h.1.fld fldId).fileno⟩

lemma confined_renameFld (tbl oldFld newFld : Name) :
    Cmd.Keeps (fun s => Confined own s₀ s ∧ ExternalUnlisted s) (renameFld env tbl oldFld newFld) := by
  have hdel := confined_keptByDiscard own s₀
  have hname : ∀ (i : Nat) (x : Name) s, Confined own s₀ s ∧ ExternalUnlisted s →
      Confined own s₀ (s.setFld i { s.fld i with name := x }) ∧
        ExternalUnlisted (s.setFld i { s.fld i with name := x }) := fun i x s h =>
    ⟨h.1.setFld ⟨(h.1.fld i).own, (h.1.fld i).dir, (h.1.fld i).fileno⟩, h.2.setFld id⟩
  unfold renameFld
  refine Cmd.keeps_require_bind fun _ => Cmd.keeps_require_bind fun _ => ?_
  refine Cmd.keeps_require_bind fun _ => Cmd.keeps_require_bind fun _ => ?_
  refine Cmd.keeps_get_bind fun s _ => Cmd.keeps_ofOption_bind fun tblId _ => ?_
  refine Cmd.keeps_ofOption_bind fun old _ => ?_
  refine Cmd.keeps_bind (confined_unlinkNn old) fun _ _ _ _ => ?_
  refine Cmd.keeps_bind (hdel.keeps_delExisting tblId _) fun _ _ _ _ => ?_
  refine Cmd.keeps_require_bind fun _ => ?_
  refine Cmd.keeps_bind (Cmd.keeps_modify fun s h => hname old _ s h) fun _ _ _ _ => ?_
  refine Cmd.keeps_when (Cmd.keeps_require_bind fun _ => ?_)
  exact Cmd.keeps_modify fun s h => hname _ _ s h

lemma confined_copyFldInfo (dst src : Nat) (mode : FldInfoMode) :
    Cmd.Keeps (Confined own s₀) (copyFldInfo dst src mode) :=
  Cmd.keeps_get_bind fun _ _ => Cmd.keeps_when (keeps_onInfo (fun _ _ h => h.congr rfl rfl rfl) _)

lemma confined_copyMeta (dst src : Nat) : Cmd.Keeps (Confined own s₀) (copyMeta dst src) := by
  unfold copyMeta
  refine Cmd.keeps_require_bind fun _ => Cmd.keeps_bind (Cmd.keeps_modify fun s h => ?_) fun _ _ _ _ => ?_
  · exact h.setFld ⟨(h.fld dst).own, (h.fld dst).dir, (h.fld dst).fileno⟩
  refine Cmd.keeps_bind (confined_copyFldInfo _ _ _) fun _ _ _ _ => ?_
  exact Cmd.keeps_bind (confined_copyFldInfo _ _ _) fun _ _ _ _ => confined_copyFldInfo _ _ _

lemma FldRec.Placed.ownPlace {r : FldRec} (h : r.Placed own) (hext : r.isExternal = false) :
    OwnPlace own r.ddirId r.fileno := ⟨h.own hext, h.fileno⟩

/-- Neither the field nor its nn field is external. -/
def FreeToMove (s : Store) (tbl fld : Name) : Prop :=
  ∀ i ∈ fldSlot s tbl fld, (s.fld i).isExternal = false ∧
    (0 ≤ (s.fld i).nnFldId → (s.fld (s.fld i).nnFldId.toNat).isExternal = false)

instance (s : Store) (tbl fld : Name) : Decidable (FreeToMove s tbl fld) :=
  inferInstanceAs (Decidable (∀ i ∈ fldSlot s tbl fld, _))

lemma confined_mvFld {srcTbl srcFld dstTbl : Name} (h : Confined own s₀ s)
    (hunlisted : ExternalUnlisted s) (hfree : FreeToMove s srcTbl srcFld) :
    Confined own s₀ (mvFld env srcTbl srcFld dstTbl s).2 := by
  have hdel := confined_keptByUnlink own s₀
  unfold mvFld
  refine Cmd.require_bind_keeps h fun _ => Cmd.require_bind_keeps h fun _ => ?_
  refine Cmd.require_bind_keeps h fun _ => Cmd.require_bind_keeps h fun _ => ?_
  rw [Cmd.get_bind]
  refine Cmd.ofOption_bind_keeps h fun srcTblId hsrc => Cmd.ofOption_bind_keeps h fun dstTblId _ => ?_
  refine Cmd.require_bind_keeps h fun _ => Cmd.ofOption_bind_keeps h fun i hi => ?_
  refine Cmd.require_bind_keeps h fun _ => ?_
  have hslot : fldSlot s srcTbl srcFld = some i := by
    rw [fldSlot, hsrc]
    exact hi
  obtain ⟨hext, hextNn⟩ := hfree i hslot
  have hmove : Confined own s₀ (addFld env dstTblId srcFld (s.fld i).ddirId (s.fld i).fileno
      { zeroFldRec with fldtype := (s.fld i).fldtype } s).2 :=
    confined_addFld _ _ _ ((h.fld i).ownPlace hext) s ⟨h, hunlisted⟩
  refine Cmd.bind_keeps (fun _ => hmove) fun j s₁ hrun => ?_
  rw [hrun] at hmove
  refine Cmd.keeps_bind (confined_copyMeta j i) (fun _ _ _ _ => ?_) s₁ hmove
  refine Cmd.keeps_bind ?_ fun _ _ _ _ => ?_
  · by_cases h0 : 0 ≤ (s.fld i).nnFldId
    · rw [Cmd.when_pos h0]
      refine Cmd.keeps_bind (confined_addAuxFld _ _ _ _ _ _ ?_) fun _ _ _ _ => Cmd.keeps_pure _
      exact (h.fld _).ownPlace (hextNn h0)
    · rw [Cmd.when_neg h0]
      exact Cmd.keeps_pure ()
  refine Cmd.keeps_bind (Cmd.keeps_modify fun s h => hdel.reset i s h) fun _ _ _ _ => ?_
  refine Cmd.keeps_bind (Cmd.keeps_when (Cmd.keeps_modify fun s h => hdel.reset _ s h)) fun _ _ _ _ => ?_
  exact keeps_onInfo (fun _ _ h => h.congr rfl rfl rfl) _

lemma confined_dupNn (henv : env.WritesTo own) (tblId f1Id f2Id : Nat) :
    Cmd.Keeps (Confined own s₀) (dupNn env tblId f1Id f2Id) := by
  unfold dupNn
  refine Cmd.keeps_get_bind fun s _ => Cmd.keeps_when (Cmd.keeps_ofOption_bind fun file _ => ?_)
  refine confined_withFile henv (fun _ h => h) (confined_mkTempFile henv file) fun p _ hp => ?_
  exact Cmd.keeps_bind (confined_addAuxFld _ _ _ _ _ _ hp) fun _ _ _ _ => Cmd.keeps_pure _

lemma confined_dupFld (henv : env.WritesTo own) (tbl f1 f2 : Name) :
    Cmd.Leads (fun s => Confined own s₀ s ∧ ExternalUnlisted s) (Confined own s₀)
      (dupFld env tbl f1 f2) := by
  have hdel := confined_keptByDiscard own s₀
  have hleft : ∀ s, Confined own s₀ s ∧ ExternalUnlisted s → Confined own s₀ s := fun _ h => h.1
  unfold dupFld
  refine Cmd.leads_require_bind hleft fun _ => Cmd.leads_require_bind hleft fun _ => ?_
  refine Cmd.leads_require_bind hleft fun _ => Cmd.leads_require_bind hleft fun _ => ?_
  refine Cmd.leads_get_bind fun s _ => Cmd.leads_ofOption_bind hleft fun tblId _ => ?_
  refine Cmd.leads_bind hleft (hdel.keeps_delExisting tblId _) fun _ => ?_
  refine Cmd.leads_get_bind fun s hs => Cmd.leads_ofOption_bind hleft fun f1Id _ => ?_
  refine Cmd.leads_ofOption_bind hleft fun file _ => ?_
  refine confined_withFile henv hleft (confined_unlisted_mkTempFile henv file) fun p hdir hp => ?_
  refine Cmd.leads_get_bind fun s₁ _ => Cmd.leads_ofOption_bind hleft fun f2Id _ => ?_
  refine Cmd.Leads.bind (fun s₂ h₂ => ?_) fun _ => ?_
  · exact h₂.1.setFld ⟨fun _ => hp.own, fun _ => hdir, hp.fileno⟩
  · exact Cmd.keeps_bind (confined_dupNn henv _ _ _) fun _ _ _ _ => Cmd.keeps_require _

/-! ### Attributes -/

/-- A change of attributes other than `external`. -/
lemma confined_setAttr (tblId fldId : Nat) {attr : Attr} (value : List Char) {isInternal : Bool}
    (hext : attr = .external → isInternal = false) :
    Cmd.Keeps (Confined own s₀) (setAttr stoF8 tblId fldId attr value isInternal) := by
  have hfld : ∀ {r : FldRec} s, Confined own s₀ s → r.isExternal = (s.fld fldId).isExternal →
      r.ddirId = (s.fld fldId).ddirId → r.tblId = (s.fld fldId).tblId →
        r.fileno = (s.fld fldId).fileno → Confined own s₀ (s.setFld fldId r) := by
    intro r s h he hd ht hn
    refine h.setFld ⟨?_, ?_, ?_⟩
    · rw [he, hd]
      exact (h.fld fldId).own
    · rw [hd, ht]
      exact (h.fld fldId).dir
    · rw [hd, hn]
      exact (h.fld fldId).fileno
  cases attr with
  | tbltype =>
    refine Cmd.keeps_ofOption_bind fun tbltype _ => Cmd.keeps_require_bind fun _ => ?_
    refine Cmd.keeps_get_bind fun s _ => Cmd.keeps_ofOption_bind fun txt _ => ?_
    exact Cmd.keeps_require_bind fun _ => Cmd.keeps_modify fun _ h => h.congr rfl rfl rfl
  | dictFld =>
    refine Cmd.keeps_ofOption_bind fun strtbl _ => Cmd.keeps_require_bind fun _ => ?_
    refine Cmd.keeps_ofOption_bind fun strfld _ => Cmd.keeps_require_bind fun _ => ?_
    refine Cmd.keeps_get_bind fun s h => Cmd.keeps_ofOption_bind fun tblId _ => ?_
    refine Cmd.keeps_ofOption_bind fun dict _ => Cmd.keeps_require_bind fun _ => ?_
    exact keeps_onInfo (fun _ _ h => h.congr rfl rfl rfl) _
  | stat stat =>
    refine Cmd.keeps_ofOption_bind fun buf _ => Cmd.keeps_ofOption_bind fun numNn _ => ?_
    refine Cmd.keeps_require_bind fun _ => ?_
    refine Cmd.keeps_bind (Cmd.keeps_modify fun s h => hfld s h rfl rfl rfl rfl) fun _ _ _ _ => ?_
    refine Cmd.keeps_ofOption_bind fun buf _ => Cmd.keeps_get_bind fun s _ => ?_
    refine Cmd.keeps_ofOption_bind fun v _ => ?_
    refine Cmd.keeps_bind (Cmd.keeps_modify fun s h => ?_) fun _ _ _ _ => ?_
    · cases stat <;> exact hfld s h rfl rfl rfl rfl
    refine Cmd.keeps_get_bind fun s _ => Cmd.keeps_require_bind fun _ => ?_
    exact Cmd.keeps_require_bind fun _ => Cmd.keeps_require _
  | fldtype =>
    refine Cmd.keeps_ofOption_bind fun fldtype _ => Cmd.keeps_get_bind fun s _ => ?_
    refine Cmd.keeps_require_bind fun _ => Cmd.keeps_modify fun s h => ?_
    exact hfld s h rfl rfl rfl rfl
  | srttype =>
    refine Cmd.keeps_ofOption_bind fun srttype _ => ?_
    refine Cmd.keeps_require_bind fun _ => Cmd.keeps_modify fun s h => ?_
    exact hfld s h rfl rfl rfl rfl
  | external =>
    rw [hext rfl]
    exact Cmd.keeps_require_bind fun hint => absurd hint (by decide)
  | other => exact fun _ h => h

lemma confined_unsetAttr (tblId fldId : Nat) (attr : Attr) :
    Cmd.Keeps (Confined own s₀) (unsetAttr tblId fldId attr) := by
  cases attr with
  | tbltype => exact Cmd.keeps_modify fun _ h => h.congr rfl rfl rfl
  | dictFld =>
    exact Cmd.keeps_get_bind fun s _ => keeps_onInfo (fun _ _ h => h.congr rfl rfl rfl) _
  | stat stat =>
    refine Cmd.keeps_bind (Cmd.keeps_modify fun s h => ?_) fun _ _ _ _ => ?_
    · cases stat <;>
        exact h.setFld ⟨(h.fld fldId).own, (h.fld fldId).dir, (h.fld fldId).fileno⟩
    refine Cmd.keeps_get_bind fun s _ => Cmd.keeps_when (Cmd.keeps_modify fun s h => ?_)
    exact h.setFld ⟨(h.fld fldId).own, (h.fld fldId).dir, (h.fld fldId).fileno⟩
  | srttype =>
    refine Cmd.keeps_modify fun s h => h.setFld ?_
    exact ⟨(h.fld fldId).own, (h.fld fldId).dir, (h.fld fldId).fileno⟩
  | fldtype => exact fun _ h => h
  | external => exact fun _ h => h
  | other => exact fun _ h => h

lemma confined_chkAttr (tblId fldId : Int) : Cmd.Keeps (Confined own s₀) (chkAttr env tblId fldId) :=
  Cmd.keeps_get_bind fun _ _ => Cmd.keeps_require_bind fun _ => Cmd.keeps_require _

/-! ### Calls -/

/-- The condition on a call: a call that can delete a field is not made while the index lists an external
field, an external field is not moved, and no field is declared to be external or not. -/
def StoreOp.Respects (s : Store) : StoreOp → Prop
  | .mvFld srcTbl srcFld _ => ExternalUnlisted s ∧ FreeToMove s srcTbl srcFld
  | .setMeta _ _ attr _ isInternal => attr = .external → isInternal = false
  | .makeAuxFld .. | .dropAuxFld .. | .unsetMeta .. => True
  | .addTbl .. | .delTbl .. | .renameTbl .. | .makeFld .. | .delFld .. | .renameFld .. | .dupFld .. =>
    ExternalUnlisted s

instance (s : Store) : (op : StoreOp) → Decidable (op.Respects s)
  | .mvFld srcTbl srcFld _ => inferInstanceAs (Decidable (_ ∧ FreeToMove s srcTbl srcFld))
  | .setMeta _ _ attr _ isInternal =>
    inferInstanceAs (Decidable (attr = .external → isInternal = false))
  | .makeAuxFld .. | .dropAuxFld .. | .unsetMeta .. => inferInstanceAs (Decidable True)
  | .addTbl .. | .delTbl .. | .renameTbl .. | .makeFld .. | .delFld .. | .renameFld .. | .dupFld .. =>
    inferInstanceAs (Decidable (ExternalUnlisted s))

/-- A call, successful or not, changes no file outside the own directories. -/
lemma Confined.step (h : Confined own s₀ s) (henv : env.WritesTo own) {op : StoreOp}
    (hok : op.Respects s) : Confined own s₀ (op.exec env stoF8 s).2 := by
  have hdel := confined_keptByDiscard own s₀
  have htbls : ∀ s tbls, Confined own s₀ s ∧ ExternalUnlisted s →
      Confined own s₀ { s with tbls := tbls } ∧ ExternalUnlisted { s with tbls := tbls } :=
    fun s tbls h => ⟨h.1.congr rfl rfl rfl, h.2⟩
  cases op with
  | addTbl tbl nR =>
    exact (Cmd.keeps_bind (hdel.keeps_addTbl htbls tbl nR) (fun _ _ _ _ => Cmd.keeps_pure ()) s
      ⟨h, hok⟩).1
  | delTbl tbl inTblId => exact (hdel.keeps_delTbl htbls tbl inTblId s ⟨h, hok⟩).1
  | renameTbl oldTbl newTbl => exact (hdel.keeps_renameTbl htbls oldTbl newTbl s ⟨h, hok⟩).1
  | makeFld tblId fld rec file =>
    refine confined_withFile henv (fun _ h => h.1) (confined_unlisted_mkTempFile henv file)
      (fun p _ hp => ?_) s ⟨h, hok⟩
    exact (confined_addFld _ _ _ hp).bind fun _ => Cmd.keeps_pure ()
  | makeAuxFld tbl inTblId fld inFldId auxtype rec file =>
    refine confined_withFile henv (fun _ h => h) (confined_mkTempFile henv file) (fun p _ hp => ?_) s h
    exact Cmd.keeps_bind (confined_addAuxFld _ _ _ _ _ _ hp) fun _ _ _ _ => Cmd.keeps_pure ()
  | dropAuxFld tbl fld auxtype inFldId =>
    exact (confined_keptByUnlink own s₀).keeps_dropAuxFld tbl fld auxtype inFldId s h
  | delFld tbl tblId fld fldId => exact (hdel.keeps_delFld tbl tblId fld fldId s ⟨h, hok⟩).1
  | renameFld tbl oldFld newFld => exact (confined_renameFld tbl oldFld newFld s ⟨h, hok⟩).1
  | mvFld srcTbl srcFld dstTbl => exact confined_mvFld h hok.1 hok.2
  | dupFld tbl f1 f2 => exact confined_dupFld henv tbl f1 f2 s ⟨h, hok⟩
  | setMeta tblId fldId attr value isInternal =>
    refine Cmd.keeps_require_bind (fun _ => ?_) s h
    refine Cmd.keeps_require_bind fun _ => Cmd.keeps_require_bind fun _ => ?_
    exact Cmd.keeps_bind (confined_setAttr _ _ value hok) fun _ _ _ _ => confined_chkAttr _ _
  | unsetMeta tblId fldId attr =>
    refine Cmd.keeps_require_bind (fun _ => ?_) s h
    refine Cmd.keeps_require_bind fun _ => ?_
    exact Cmd.keeps_bind (confined_unsetAttr _ _ attr) fun _ _ _ _ => confined_chkAttr _ _

end Datacl
