import Datacl.Meta.FileOwners

/-!
# Deletions and the owners of files

A deletion removes a file together with the record that refers to it, or stops before.
-/

namespace Datacl

variable {env : Env} {s s' : Store} {I : Store → Prop}

/-! ### Removing a file -/

lemma qDelete_apply (env : Env) (d n : Int) (s : Store) :
    qDelete env d n s = if env.canEnter d ∧ 0 ≤ n then (some (), s.setFile d n none) else (none, s) := by
  unfold qDelete
  rw [Cmd.require_bind, ite_and]
  by_cases hd : env.canEnter d = true
  · rw [if_pos hd, if_pos hd, Cmd.require_bind]
    rfl
  · rw [if_neg hd, if_neg hd]

lemma setFile_setFile (s : Store) (d n : Int) (f : Option DataFile) :
    (s.setFile d n f).setFile d n f = s.setFile d n f := by
  unfold Store.setFile
  congr 1
  funext d' n'
  dsimp only
  split_ifs <;> rfl

/-- The command removes the file of the field, which it does only where `p` holds, or changes
nothing. -/
inductive Unlinks (p : Prop) (s : Store) (i : Nat) : Option Unit × Store → Prop where
  | passed : Unlinks p s i (some (), s)
  | failed : Unlinks p s i (none, s)
  | removed (hp : p) (h : 0 ≤ (s.fld i).ddirId) :
    Unlinks p s i (some (), s.setFile (s.fld i).ddirId (s.fld i).fileno none)

section

variable {p : Prop} {i : Nat}

lemma unlinks_qDelete (env : Env) (s : Store) (i : Nat) (hp : p) :
    Unlinks p s i (qDelete env (s.fld i).ddirId (s.fld i).fileno s) := by
  rw [qDelete_apply]
  split_ifs with h
  · exact .removed hp (of_decide_eq_true h.1).1
  · exact .failed

lemma unlinks_when {c : Cmd Store Unit} {q : Prop} [Decidable q] (h : q → Unlinks p s i (c s)) :
    Unlinks p s i (Cmd.when q c s) := by
  by_cases hq : q
  · rw [Cmd.when_pos hq]
    exact h hq
  · rw [Cmd.when_neg hq]
    exact .passed

lemma unlinks_require {c : Cmd Store Unit} {q : Prop} [Decidable q] (h : q → Unlinks p s i (c s)) :
    Unlinks p s i ((Cmd.require q >>= fun _ => c) s) := by
  rw [Cmd.require_bind]
  split_ifs with hq
  · exact h hq
  · exact .failed

end

/-! ### What deletions keep -/

/-- A record of the index that names a length or an offset field. -/
def FldInfo.NamesAux (r : FldInfo) : Prop := (r.mode = .fkFldLen ∨ r.mode = .fkFldOff) ∧ 0 ≤ r.xxx

instance (r : FldInfo) : Decidable r.NamesAux := inferInstanceAs (Decidable (_ ∧ _))

/-- What resetting a record, deleting a field with its file and forgetting an nn field keep. Only the
fields that satisfy `D` may lose their files, among them every field that is not external. -/
structure KeptByUnlink (I : Store → Prop) (D : FldRec → Prop) : Prop where
  own : ∀ r, r.isExternal = false → D r
  reset : ∀ i s, I s → I (s.setFld i zeroFldRec)
  discard : ∀ i s, I s → D (s.fld i) → 0 ≤ (s.fld i).ddirId →
    I ((s.setFile (s.fld i).ddirId (s.fld i).fileno none).setFld i zeroFldRec)
  cutNn : ∀ i s, I s → I (s.setFld i { s.fld i with nnFldId := -1 })

/-- What deletions from the index keep as well. The length and offset fields it names may lose their
files. -/
structure KeptByDiscard (I : Store → Prop) (D : FldRec → Prop) : Prop extends KeptByUnlink I D where
  drop : ∀ s info, I s → (∀ r ∈ info, r ∈ s.info ∨ r = zeroFldInfoRec) → I { s with info := info }
  named : ∀ s r, I s → r ∈ s.info → r.NamesAux → D (s.fld r.xxx.toNat)

lemma ownedSince_keptByDiscard (s₀ : Store) : KeptByDiscard (OwnedSince s₀) fun _ => True where
  own _ _ := trivial
  reset i _ h := h.reset i
  discard _ _ h _ hi := h.discard hi
  cutNn i _ h := h.setFld ⟨rfl, rfl, rfl, id⟩ (show (-1 : Int) ≠ i by omega)
  drop _ _ h _ := h.congr rfl rfl rfl
  named _ _ _ _ _ := trivial

lemma spare_keptByDiscard (d n : Int) (f : DataFile) : KeptByDiscard (Spare d n f) fun _ => True where
  own _ _ := trivial
  reset i _ h := h.reset i
  discard i _ h _ _ := h.discard i
  cutNn i _ h := h.setFld (h.unowned i)
  drop _ _ h _ := h.congr rfl rfl rfl
  named _ _ _ _ _ := trivial

lemma keeps_onInfo {α : Type} (h : ∀ s info, I s → I { s with info := info })
    (c : Cmd (List FldInfo) α) : Cmd.Keeps I (onInfo c) :=
  fun s hs => h s _ hs

namespace KeptByUnlink

variable {D : FldRec → Prop} {p : Prop} (hI : KeptByUnlink I D)
include hI

lemma of_unlinks {i : Nat} {r : Option Unit × Store} (h : Unlinks p s i r) (hp : p → D (s.fld i))
    (hs : I s) : (r.1 = none → I r.2) ∧ I (r.2.setFld i zeroFldRec) := by
  cases h with
  | passed => exact ⟨fun _ => hs, hI.reset i s hs⟩
  | failed => exact ⟨fun _ => hs, hI.reset i s hs⟩
  | removed hq h => exact ⟨fun hfail => (by cases hfail), hI.discard i s hs (hp hq) h⟩

/-- A file is removed and then its record reset. -/
lemma unlink_reset {β : Type} {i : Nat} {c : Cmd Store Unit} (h : Unlinks p s i (c s))
    (hp : p → D (s.fld i)) (hs : I s) {g : Cmd Store β} (hg : Cmd.Keeps I g) :
    I ((c >>= fun _ => Cmd.modify (Store.setFld i zeroFldRec) >>= fun _ => g) s).2 := by
  obtain ⟨hfail, hreset⟩ := hI.of_unlinks h hp hs
  refine Cmd.bind_keeps hfail fun _ s₁ hrun => ?_
  rw [hrun] at hreset
  exact hg _ hreset

lemma kept_delAuxRec {auxId : Nat} (hD : D (s.fld auxId)) (hs : I s) : I (delAuxRec env auxId s).2 := by
  unfold delAuxRec
  rw [Cmd.get_bind]
  by_cases hext : (s.fld auxId).isExternal = false
  · rw [Cmd.when_pos hext, Cmd.attempt_bind, qDelete_apply]
    split_ifs with hok
    · -- The file has been removed when it is removed again.
      rw [Cmd.bind_apply, qDelete_apply, if_pos hok, setFile_setFile]
      exact hI.discard auxId s hs hD (of_decide_eq_true hok.1).1
    · rw [Cmd.bind_apply, qDelete_apply, if_neg hok]
      exact hs
  · rw [Cmd.when_neg hext]
    exact hI.unlink_reset (unlinks_qDelete env s auxId hD) id hs (Cmd.keeps_pure ())

lemma keeps_delNnFld (fldId : Nat) (nnFldId : Int) : Cmd.Keeps I (delNnFld env fldId nnFldId) := by
  intro s hs
  unfold delNnFld
  by_cases h0 : 0 ≤ nnFldId
  · rw [if_pos h0, Cmd.get_bind, Cmd.require_bind]
    split_ifs
    · exact (hI.of_unlinks (unlinks_when (unlinks_qDelete env s nnFldId.toNat)) (hI.own _) hs).2
    · exact hs
  · rw [if_neg h0]
    exact hs

/-- The nn field is forgotten before its file is removed. -/
lemma keeps_delAuxFld (fldId : Nat) (auxtype : AuxType) :
    Cmd.Keeps I (delAuxFld env fldId auxtype) := by
  intro s hs
  unfold delAuxFld
  rw [Cmd.get_bind, Cmd.require_bind]
  by_cases hlt : fldId < s.flds.length
  · rw [if_pos hlt, Cmd.require_bind]
    by_cases htype : auxtype ≠ .undefAuxtype
    · rw [if_pos htype]
      by_cases haux : auxFldId s fldId auxtype < 0
      · rw [if_pos haux]
        exact hs
      · rw [if_neg haux, Cmd.modify_bind, Cmd.get_bind]
        refine hI.unlink_reset ?_ (hI.own _) (hI.cutNn fldId s hs) (Cmd.keeps_pure ())
        exact unlinks_when fun _ => unlinks_require (unlinks_qDelete env _ _)
    · rw [if_neg htype]
      exact hs
  · rw [if_neg hlt]
    exact hs

lemma keeps_dropAuxFld (tbl fld : Name) (auxtype : AuxType) (inFldId : Int) :
    Cmd.Keeps I (dropAuxFld env tbl fld auxtype inFldId) := by
  unfold dropAuxFld
  split
  · exact hI.keeps_delAuxFld _ _
  · refine Cmd.keeps_require_bind fun _ => Cmd.keeps_require_bind fun _ => ?_
    refine Cmd.keeps_get_bind fun s _ => Cmd.keeps_ofOption_bind fun tblId _ => ?_
    split
    · exact Cmd.keeps_pure ()
    · exact hI.keeps_delAuxFld _ _

lemma keeps_auxTarget (tbl : Name) (inTblId : Int) (fld : Name) (inFldId : Int) (auxtype : AuxType) :
    Cmd.Keeps I (auxTarget env tbl inTblId fld inFldId auxtype) := by
  unfold auxTarget
  split
  · exact Cmd.keeps_bind (hI.keeps_dropAuxFld _ _ _ _) fun _ _ _ _ => Cmd.keeps_pure _
  · refine Cmd.keeps_bind (hI.keeps_dropAuxFld _ _ _ _) fun _ _ _ _ => ?_
    refine Cmd.keeps_get_bind fun s _ => Cmd.keeps_ofOption_bind fun tblId _ => ?_
    exact Cmd.keeps_ofOption_bind fun fldId _ => Cmd.keeps_pure _

end KeptByUnlink

namespace KeptByDiscard

variable {D : FldRec → Prop}

lemma and {J : Store → Prop} (hI : KeptByDiscard I D) (hJ : KeptByDiscard J D) :
    KeptByDiscard (fun s => I s ∧ J s) D where
  own := hI.own
  reset i s h := ⟨hI.reset i s h.1, hJ.reset i s h.2⟩
  discard i s h hD hi := ⟨hI.discard i s h.1 hD hi, hJ.discard i s h.2 hD hi⟩
  cutNn i s h := ⟨hI.cutNn i s h.1, hJ.cutNn i s h.2⟩
  drop s info h hinfo := ⟨hI.drop s info h.1 hinfo, hJ.drop s info h.2 hinfo⟩
  named s r h := hI.named s r h.1

variable (hI : KeptByDiscard I D)
include hI

lemma keeps_delInfoAt (fldId i : Nat) (st : Bool) : Cmd.Keeps I (delInfoAt env fldId i st) := by
  intro s hs
  unfold delInfoAt
  rw [Cmd.get_bind]
  by_cases hfld : (s.info.getD i zeroFldInfoRec).fldId ≠ fldId
  · rw [if_pos hfld]
    exact hs
  rw [if_neg hfld]
  by_cases hundef : (s.info.getD i zeroFldInfoRec).mode = .undefFldInfo
  · rw [if_pos hundef]
    exact hs
  rw [if_neg hundef, Cmd.modify_bind]
  have hdrop := hI.drop s (sortFldInfo (s.info.set i zeroFldInfoRec)) hs fun r hr =>
    List.mem_or_eq_of_mem_set ((List.perm_insertionSort _ _).mem_iff.mp hr)
  by_cases hdict : (s.info.getD i zeroFldInfoRec).mode = .fkFldTxtLkp ∨
      (s.info.getD i zeroFldInfoRec).xxx < 0
  · rw [if_pos hdict]
    exact hdrop
  rw [if_neg hdict]
  -- The field that is deleted is one that the index named.
  obtain ⟨hmode, hx⟩ := not_or.mp hdict
  have hnames : (s.info.getD i zeroFldInfoRec).NamesAux := by
    refine ⟨?_, not_lt.mp hx⟩
    cases hm : (s.info.getD i zeroFldInfoRec).mode with
    | undefFldInfo => exact absurd hm hundef
    | fkFldTxtLkp => exact absurd hm hmode
    | fkFldLen => exact .inl rfl
    | fkFldOff => exact .inr rfl
  have hmem : s.info.getD i zeroFldInfoRec ∈ s.info := by
    rcases lt_or_ge i s.info.length with hi | hi
    · rw [List.getD_eq_getElem _ _ hi]
      exact List.getElem_mem hi
    · rw [List.getD_eq_default _ _ hi] at hundef
      exact absurd rfl hundef
  have hD := hI.named s _ hs hmem hnames
  generalize sortFldInfo (s.info.set i zeroFldInfoRec) = info at hdrop ⊢
  have haux : I (delAuxRec env (s.info.getD i zeroFldInfoRec).xxx.toNat { s with info := info }).2 :=
    hI.kept_delAuxRec hD hdrop
  exact Cmd.bind_keeps (fun _ => haux) fun _ s₁ hrun => by
    rw [hrun] at haux
    exact haux

lemma keeps_delInfoLoop (fldId : Nat) (is : List Nat) (st : Bool) :
    Cmd.Keeps I (delInfoLoop env fldId is st) := by
  induction is generalizing st with
  | nil => exact Cmd.keeps_pure st
  | cons i is ih => exact Cmd.keeps_bind (hI.keeps_delInfoAt fldId i st) fun _ _ _ _ => ih _

lemma keeps_delFldAt (fldId : Nat) : Cmd.Keeps I (delFldAt env fldId) := by
  intro s hs
  unfold delFldAt
  rw [Cmd.get_bind, Cmd.require_bind]
  split_ifs
  · exact hs
  rw [Cmd.require_bind]
  split_ifs
  · refine hI.unlink_reset (unlinks_when (unlinks_qDelete env s fldId)) (hI.own _) hs ?_
    refine Cmd.keeps_bind (hI.keeps_delNnFld fldId _) fun _ _ _ _ => ?_
    exact Cmd.keeps_bind (hI.keeps_delInfoLoop fldId _ _) fun _ _ _ _ => Cmd.keeps_require _
  · exact hs

lemma keeps_delFld (tbl : Name) (tblId : Int) (fld : Name) (fldId : Int) :
    Cmd.Keeps I (delFld env tbl tblId fld fldId) := by
  unfold delFld
  refine Cmd.keeps_bind (keeps_lookupTbl tbl tblId) fun _ t _ _ => ?_
  cases t with
  | none => exact Cmd.keeps_pure ()
  | some t =>
    refine Cmd.keeps_bind (keeps_lookupFld t fld fldId) fun _ i _ _ => ?_
    cases i with
    | none => exact Cmd.keeps_pure ()
    | some i => exact hI.keeps_delFldAt i

lemma keeps_delExisting (tblId : Nat) (found : Option Nat) :
    Cmd.Keeps I (delExisting env tblId found) := by
  cases found with
  | none => exact Cmd.keeps_pure ()
  | some i => exact hI.keeps_delFld _ _ _ _

/-! ### Tables -/

variable (htbls : ∀ s tbls, I s → I { s with tbls := tbls })
include htbls

lemma keeps_delTbl (tbl : Name) (inTblId : Int) : Cmd.Keeps I (delTbl env tbl inTblId) := by
  unfold delTbl
  refine Cmd.keeps_bind (keeps_lookupTbl tbl inTblId) fun _ t _ _ => ?_
  cases t with
  | none => exact Cmd.keeps_pure ()
  | some t =>
    show Cmd.Keeps _ (delTblAt env t.toNat)
    unfold delTblAt
    refine Cmd.keeps_get_bind fun s _ => Cmd.keeps_require_bind fun _ => ?_
    refine Cmd.keeps_bind (Cmd.keeps_forEach fun i _ => ?_) fun _ _ _ _ => ?_
    · exact Cmd.keeps_get_bind fun s _ => Cmd.keeps_when (hI.keeps_delFld _ _ _ _)
    · exact Cmd.keeps_modify fun s h => htbls s _ h

lemma keeps_addTbl (tbl : Name) (nR : Int) : Cmd.Keeps I (addTbl env tbl nR) := by
  unfold addTbl
  refine Cmd.keeps_require_bind fun _ => Cmd.keeps_require_bind fun _ => ?_
  refine Cmd.keeps_require_bind fun _ => Cmd.keeps_bind ?_ fun _ tblId _ _ => ?_
  · unfold tblSlot
    refine Cmd.keeps_get_bind fun s _ => ?_
    cases isTbl s tbl with
    | some t => exact Cmd.keeps_bind (hI.keeps_delTbl htbls [] t) fun _ _ _ _ => Cmd.keeps_pure t
    | none =>
      cases getEmptyTbl env s tbl with
      | none => exact fun _ h => h
      | some t => exact Cmd.keeps_pure t
  · exact Cmd.keeps_bind (Cmd.keeps_modify fun s h => htbls s _ h) fun _ _ _ _ =>
      Cmd.keeps_pure tblId

lemma keeps_renameTbl (oldTbl newTbl : Name) : Cmd.Keeps I (renameTbl env oldTbl newTbl) := by
  unfold renameTbl
  refine Cmd.keeps_require_bind fun _ => Cmd.keeps_require_bind fun _ => ?_
  refine Cmd.keeps_require_bind fun _ => Cmd.keeps_get_bind fun s _ => ?_
  refine Cmd.keeps_ofOption_bind fun old _ => Cmd.keeps_bind ?_ fun _ _ _ _ => ?_
  · cases isTbl s newTbl with
    | none => exact Cmd.keeps_pure ()
    | some t => exact Cmd.keeps_attempt (hI.keeps_delTbl htbls [] t)
  · exact Cmd.keeps_require_bind fun _ => Cmd.keeps_modify fun s h => htbls s _ h

end KeptByDiscard

end Datacl
