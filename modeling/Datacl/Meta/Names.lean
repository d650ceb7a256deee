import Datacl.Meta.FieldSpecs
import Datacl.Meta.FldInfoHistory
import Datacl.Meta.Tables

/-!
# Unique names

Tables and fields are found by name. Every operation that gives a name first deletes whatever
has it; the names stay unique as long as that deletion goes through.
-/

namespace Datacl

/-- No two used tables have the same name and no two used fields of a table have the same name. -/
structure UniqueNames (s : Store) : Prop where
  tbls : ∀ i j, (s.tbl i).Used → (s.tbl i).name = (s.tbl j).name → i = j
  flds : ∀ i j, (s.fld i).Used → (s.fld i).tblId = (s.fld j).tblId →
    (s.fld i).name = (s.fld j).name → i = j

/-- A record without auxiliary fields and not auxiliary itself, as `zero_fld_rec` sets it up. -/
def FldRec.Plain (r : FldRec) : Prop :=
  r.nnFldId = -1 ∧ r.parentId = -1 ∧ r.auxtype = .undefAuxtype

/-- The record a caller passes to `add_fld`. -/
def PreparedRec : Type := { r : FldRec // r.Plain }

/-- A call of one of the operations, or a change of the data files by something else. -/
inductive NameOp where
  | addTbl (tbl : Name) (nR : Int)
  | delTbl (tbl : Name) (inTblId : Int)
  | renameTbl (oldTbl newTbl : Name)
  | addFld (tblId : Int) (fld : Name) (ddirId fileno : Int) (rec : PreparedRec)
  | delFld (tbl : Name) (tblId : Int) (fld : Name) (fldId : Int)
  | renameFld (tbl oldFld newFld : Name)
  | mvFld (srcTbl srcFld dstTbl : Name)
  | writeFile (ddirId fileno : Int) (file : Option DataFile)

/-- The call. -/
def NameOp.exec (env : Env) : NameOp → Cmd Store Unit
  | .addTbl tbl nR => do let _ ← Datacl.addTbl env tbl nR
  | .delTbl tbl inTblId => Datacl.delTbl env tbl inTblId
  | .renameTbl oldTbl newTbl => Datacl.renameTbl env oldTbl newTbl
  | .addFld tblId fld ddirId fileno rec => do
    let _ ← Datacl.addFld env tblId fld ddirId fileno rec.1
  | .delFld tbl tblId fld fldId => Datacl.delFld env tbl tblId fld fldId
  | .renameFld tbl oldFld newFld => Datacl.renameFld env tbl oldFld newFld
  | .mvFld srcTbl srcFld dstTbl => Datacl.mvFld env srcTbl srcFld dstTbl
  | .writeFile ddirId fileno file => Cmd.modify (Store.setFile ddirId fileno file)

/-- What holds besides in the states these operations reach: the index is empty, no field has or
is an auxiliary field, free slots are reset, and used ones refer to files that can be unlinked. -/
structure NameInv (env : Env) (s : Store) : Prop where
  names : UniqueNames s
  info : ∀ r ∈ s.info, r = zeroFldInfoRec
  plain : ∀ i, (s.fld i).Plain
  unused : ∀ i, ¬ (s.fld i).Used → s.fld i = zeroFldRec
  files : ∀ i, (s.fld i).Used → env.canEnter (s.fld i).ddirId = true ∧ 0 ≤ (s.fld i).fileno
  tbltype : ∀ i, (s.tbl i).Used → (s.tbl i).tbltype = .regular
  length : s.flds.length ≤ 32768

section Updates

variable {env : Env} {s s' : Store}

lemma zeroFldRec_plain : zeroFldRec.Plain := ⟨rfl, rfl, rfl⟩

lemma NameInv.index (h : NameInv env s) : IndexOk s.flds.length s.info := by
  constructor
  · refine List.pairwise_of_forall_mem_list ?_
    intro a ha b hb
    rw [h.info a ha, h.info b hb]
    exact le_refl zeroFldInfoRec.toI8
  · exact fun r hr => .inl (h.info r hr)

lemma SameRecs.tbl (h : SameRecs s s') (i : Nat) : s'.tbl i = s.tbl i := by
  rw [Store.tbl, h.tbls, Store.tbl]

lemma NameInv.sameRecs (h : NameInv env s) (hs : SameRecs s s') : NameInv env s' where
  names := by
    constructor
    · intro i j
      rw [hs.tbl, hs.tbl]
      exact h.names.tbls i j
    · intro i j
      rw [hs.fld, hs.fld]
      exact h.names.flds i j
  info := by
    rw [hs.info]
    exact h.info
  plain i := by
    rw [hs.fld]
    exact h.plain i
  unused i := by
    rw [hs.fld]
    exact h.unused i
  files i := by
    rw [hs.fld]
    exact h.files i
  tbltype i := by
    rw [hs.tbl]
    exact h.tbltype i
  length := by
    rw [hs.flds]
    exact h.length

/-- Writing a record to a field slot. -/
lemma NameInv.setFld (h : NameInv env s) {i : Nat} {r : FldRec} (hplain : r.Plain)
    (hfree : ¬ r.Used → r = zeroFldRec)
    (hfile : r.Used → env.canEnter r.ddirId = true ∧ 0 ≤ r.fileno)
    (hname : r.Used → ∀ j, j ≠ i → (s.fld j).tblId = r.tblId → (s.fld j).name ≠ r.name) :
    NameInv env (s.setFld i r) := by
  have hfld : ∀ j, (s.setFld i r).fld j = s.fld j ∨ (j = i ∧ (s.setFld i r).fld j = r) := by
    intro j
    rw [Store.fld_setFld]
    by_cases hj : j = i ∧ i < s.flds.length
    · exact .inr ⟨hj.1, if_pos hj⟩
    · exact .inl (if_neg hj)
  constructor
  · constructor
    · exact h.names.tbls
    · intro j k hused htbl heq
      rcases hfld j with hj | ⟨rfl, hj⟩ <;> rcases hfld k with hk | ⟨rfl, hk⟩
      · rw [hj] at hused htbl heq
        rw [hk] at htbl heq
        exact h.names.flds j k hused htbl heq
      · rw [hj] at hused htbl heq
        rw [hk] at htbl heq
        by_contra hne
        exact hname (by rw [FldRec.Used, ← heq]; exact hused) j hne htbl heq
      · rw [hj] at hused htbl heq
        rw [hk] at htbl heq
        by_contra hne
        exact hname hused k (Ne.symm hne) htbl.symm heq.symm
      · rfl
  · exact h.info
  · intro j
    rcases hfld j with hj | ⟨-, hj⟩
    · rw [hj]
      exact h.plain j
    · rw [hj]
      exact hplain
  · intro j hj'
    rcases hfld j with hj | ⟨-, hj⟩
    · rw [hj] at hj' ⊢
      exact h.unused j hj'
    · rw [hj] at hj' ⊢
      exact hfree hj'
  · intro j hj'
    rcases hfld j with hj | ⟨-, hj⟩
    · rw [hj] at hj' ⊢
      exact h.files j hj'
    · rw [hj] at hj' ⊢
      exact hfile hj'
  · exact h.tbltype
  · rw [Store.length_setFld]
    exact h.length

lemma NameInv.zeroFld (h : NameInv env s) (i : Nat) : NameInv env (s.setFld i zeroFldRec) :=
  h.setFld zeroFldRec_plain (fun _ => rfl) (fun hused => absurd rfl hused)
    fun hused => absurd rfl hused

/-- Writing a record to a table slot. -/
lemma NameInv.setTbl (h : NameInv env s) {i : Nat} {r : TblRec}
    (htype : r.Used → r.tbltype = .regular)
    (hname : r.Used → ∀ j, j ≠ i → (s.tbl j).name ≠ r.name) : NameInv env (s.setTbl i r) := by
  have htbl : ∀ j, (s.setTbl i r).tbl j = s.tbl j ∨ (j = i ∧ (s.setTbl i r).tbl j = r) := by
    intro j
    rw [Store.tbl_setTbl]
    by_cases hj : j = i ∧ i < s.tbls.length
    · exact .inr ⟨hj.1, if_pos hj⟩
    · exact .inl (if_neg hj)
  refine ⟨⟨?_, h.names.flds⟩, h.info, h.plain, h.unused, h.files, ?_, h.length⟩
  · intro j k hused heq
    rcases htbl j with hj | ⟨rfl, hj⟩ <;> rcases htbl k with hk | ⟨rfl, hk⟩
    · rw [hj] at hused heq
      rw [hk] at heq
      exact h.names.tbls j k hused heq
    · rw [hj] at hused heq
      rw [hk] at heq
      by_contra hne
      exact hname (by rw [TblRec.Used, ← heq]; exact hused) j hne heq
    · rw [hj] at hused heq
      rw [hk] at heq
      by_contra hne
      exact hname hused k (Ne.symm hne) heq.symm
    · rfl
  · intro j hj'
    rcases htbl j with hj | ⟨-, hj⟩
    · rw [hj] at hj' ⊢
      exact h.tbltype j hj'
    · rw [hj] at hj' ⊢
      exact htype hj'

end Updates

/-! ### Deleting -/

section Deleting

variable {env : Env} {s s' : Store}

lemma sweep_of_zero {fldId : Nat} {info left reset : List FldInfo}
    (h : Sweep fldId info left reset) (hzero : ∀ r ∈ info, r = zeroFldInfoRec) :
    left = info ∧ reset = [] := by
  induction h with
  | nil => exact ⟨rfl, rfl⟩
  | skip _ _ ih =>
    obtain ⟨hleft, hreset⟩ := ih fun r hr => hzero r (List.mem_cons_of_mem _ hr)
    exact ⟨by rw [hleft], hreset⟩
  | last h =>
    rw [hzero _ List.mem_cons_self] at h
    exact absurd h (not_mentions_zero _)
  | reset h =>
    rw [hzero _ List.mem_cons_self] at h
    exact absurd h (not_mentions_zero _)

lemma Store.flds_ext (hlen : s'.flds.length = s.flds.length) (h : ∀ j, s'.fld j = s.fld j) :
    s'.flds = s.flds := by
  apply List.ext_getElem hlen
  intro j h1 h2
  have := h j
  simpa [Store.fld, h1, h2] using this

/-- Without auxiliary fields a deletion resets one slot. -/
lemma NameInv.deleted (h : NameInv env s) {i : Nat} {reset : List FldInfo}
    (hdel : Deleted i s s' reset) : SameRecs (s.setFld i zeroFldRec) s' := by
  obtain ⟨hleft, hreset⟩ := sweep_of_zero hdel.sweep h.info
  refine ⟨hdel.frame.tbls, ?_, hleft⟩
  apply Store.flds_ext
  · rw [hdel.frame.length, Store.length_setFld]
  · intro j
    rw [hdel.flds j, Store.fld_setFld_zero, hreset, (h.plain i).1]
    have hneg : ¬ (j : Int) = -1 := by omega
    simp [hneg]

lemma NameInv.delFld (h : NameInv env s) {tbl fld : Name} {tblId fldId : Int}
    (hrun : delFld env tbl tblId fld fldId s = (some (), s')) : NameInv env s' := by
  rcases delFld_eq_some h.length h.index hrun with rfl | ⟨i, reset, hdel⟩
  · exact h
  · exact (h.zeroFld i).sameRecs (h.deleted hdel)

lemma NameInv.delTblFld (h : NameInv env s) {tblId i : Nat}
    (hrun : delTblFld env tblId i s = (some (), s')) : NameInv env s' := by
  unfold Datacl.delTblFld at hrun
  rw [Cmd.get_bind] at hrun
  rcases Cmd.when_eq_some.mp hrun with ⟨-, hrun⟩ | ⟨-, rfl⟩
  · exact h.delFld hrun
  · exact h

/-- A deleted table leaves its slot reset. -/
lemma NameInv.delTblAt (h : NameInv env s) {tblId : Nat}
    (hrun : delTblAt env tblId s = (some (), s')) :
    NameInv env s' ∧ s'.tbls = s.tbls.set tblId zeroTblRec := by
  unfold Datacl.delTblAt at hrun
  rw [Cmd.get_bind] at hrun
  obtain ⟨-, hrun⟩ := Cmd.require_bind_eq_some.mp hrun
  obtain ⟨_, s₁, hloop, hrun⟩ := Cmd.bind_eq_some.mp hrun
  obtain rfl := Cmd.modify_eq_some.mp hrun
  have hinv : NameInv env s₁ ∧ s₁.tbls = s.tbls := by
    refine Cmd.forEach_keeps (I := fun t => NameInv env t ∧ t.tbls = s.tbls)
      (fun i _ t t' ht hstep => ?_) ⟨h, rfl⟩ hloop
    refine ⟨ht.1.delTblFld hstep, ?_⟩
    unfold Datacl.delTblFld at hstep
    rw [Cmd.get_bind] at hstep
    rcases Cmd.when_eq_some.mp hstep with ⟨-, hdel⟩ | ⟨-, rfl⟩
    · rcases delFld_eq_some ht.1.length ht.1.index hdel with rfl | ⟨k, reset, hdel⟩
      · exact ht.2
      · exact hdel.frame.tbls.trans ht.2
    · exact ht.2
  refine ⟨?_, ?_⟩
  · exact hinv.1.setTbl (fun hused => absurd rfl hused) fun hused => absurd rfl hused
  · rw [Store.setTbl, hinv.2]

lemma delTbl_slot {tblId : Nat} : delTbl env [] tblId s = delTblAt env tblId s := by
  unfold delTbl lookupTbl
  simp [Cmd.bind_apply]

lemma NameInv.delTbl (h : NameInv env s) {tbl : Name} {inTblId : Int}
    (hrun : delTbl env tbl inTblId s = (some (), s')) : NameInv env s' := by
  unfold Datacl.delTbl at hrun
  obtain ⟨t, s₁, hlookup, hrun⟩ := Cmd.bind_eq_some.mp hrun
  obtain ⟨-, rfl⟩ := lookupTbl_eq_some hlookup
  cases t with
  | none =>
    obtain ⟨-, rfl⟩ := Cmd.pure_eq_some.mp hrun
    exact h
  | some t => exact (h.delTblAt hrun).1

/-! ### When a deletion goes through -/

lemma delInfoLoop_of_zero {i : Nat} (hzero : ∀ r ∈ s.info, r = zeroFldInfoRec) (hi : i ≠ 0)
    (is : List Nat) (st : Bool) : delInfoLoop env i is st s = (some st, s) := by
  induction is with
  | nil => rfl
  | cons k is ih =>
    have hget : s.info.getD k zeroFldInfoRec = zeroFldInfoRec := by
      by_cases hk : k < s.info.length
      · simpa [hk] using hzero s.info[k] (List.getElem_mem hk)
      · simp [hk]
    have hpass : delInfoAt env i k st s = (some st, s) := by
      unfold delInfoAt
      rw [Cmd.get_bind, hget, if_pos]
      · rfl
      · show (0 : Int) ≠ i
        omega
    rw [delInfoLoop, Cmd.bind_of_eq hpass, ih]

lemma qDelete_succeeds {d n : Int} (hd : env.canEnter d = true) (hn : 0 ≤ n) :
    qDelete env d n s = (some (), s.setFile d n none) := by
  unfold qDelete
  rw [Cmd.require_bind, if_pos hd, Cmd.require_bind, if_pos hn]
  rfl

/-- The file of a field is deleted unless it is external; the records stay as they are. -/
lemma unlink_succeeds {r : FldRec}
    (h : r.isExternal = false → env.canEnter r.ddirId = true ∧ 0 ≤ r.fileno) : ∃ s',
      Cmd.when (r.isExternal = false) (qDelete env r.ddirId r.fileno) s = (some (), s') ∧ SameRecs s s' := by
  by_cases hext : r.isExternal = false
  · rw [Cmd.when_pos hext, qDelete_succeeds (h hext).1 (h hext).2]
    exact ⟨_, rfl, SameRecs.setFile ..⟩
  · rw [Cmd.when_neg hext]
    exact ⟨s, rfl, SameRecs.refl s⟩

/-- A used field can be deleted unless it is in slot 0: the unused records of the index carry the
field number 0, and the loop of `del_fld` takes them for records of that field. -/
lemma NameInv.delFldAt_succeeds (h : NameInv env s) {i : Nat} (hused : (s.fld i).Used)
    (hi : i = 0 → s.info = []) : ∃ s', delFldAt env i s = (some (), s') := by
  obtain ⟨hdir, hfileno⟩ := h.files i hused
  have hdict : ¬ (s.info.any fun r => r.mode = .fkFldTxtLkp ∧ r.xxx = i) = true := by
    rw [List.any_eq_true]
    rintro ⟨r, hr, hmode⟩
    rw [h.info r hr] at hmode
    simp [zeroFldInfoRec] at hmode
  obtain ⟨s₁, hunlink, hsame⟩ := unlink_succeeds (s := s) (r := s.fld i) fun _ => ⟨hdir, hfileno⟩
  have hnn : ∀ t, delNnFld env i (s.fld i).nnFldId t = (some true, t) := by
    intro t
    rw [delNnFld, (h.plain i).1, if_neg (by decide)]
    rfl
  have hloop : delInfoLoop env i (List.range s.info.length) true (s₁.setFld i zeroFldRec) =
      (some true, s₁.setFld i zeroFldRec) := by
    by_cases h0 : i = 0
    · rw [hi h0]
      rfl
    · refine delInfoLoop_of_zero ?_ h0 _ _
      rw [Store.setFld_info, hsame.info]
      exact h.info
  refine ⟨s₁.setFld i zeroFldRec, ?_⟩
  unfold delFldAt
  rw [Cmd.get_bind, Cmd.require_bind, if_pos hdict, Cmd.require_bind, if_pos (h.plain i).2.2,
    Cmd.bind_of_eq hunlink, Cmd.modify_bind, Cmd.bind_of_eq (hnn _), Cmd.bind_of_eq hloop]
  rfl

/-- Slot 0 holds no field of the table, unless the index has no records at all. -/
def SlotFree (s : Store) (tblId : Nat) : Prop := (s.fld 0).tblId = tblId → s.info = []

lemma NameInv.used_of_tblId (h : NameInv env s) {i tblId : Nat} (htbl : (s.fld i).tblId = tblId) :
    (s.fld i).Used := by
  by_contra hused
  rw [h.unused i hused] at htbl
  simp [zeroFldRec] at htbl

lemma NameInv.delTblFld_succeeds (h : NameInv env s) {tblId i : Nat} (hslot : SlotFree s tblId) :
    ∃ s', Datacl.delTblFld env tblId i s = (some (), s') ∧ NameInv env s' ∧ SlotFree s' tblId := by
  unfold Datacl.delTblFld
  rw [Cmd.get_bind]
  by_cases hcond : (s.fld i).tblId = tblId ∧ (s.fld i).auxtype = .undefAuxtype
  · rw [Cmd.when_pos hcond, delFld_slot]
    have hi : i = 0 → s.info = [] := by
      rintro rfl
      exact hslot hcond.1
    obtain ⟨s', hdel⟩ := h.delFldAt_succeeds (h.used_of_tblId hcond.1) hi
    obtain ⟨reset, hd⟩ := delFldAt_eq_some h.length h.index hdel
    have hsame := h.deleted hd
    refine ⟨s', hdel, (h.zeroFld i).sameRecs hsame, ?_⟩
    intro htbl
    rw [hsame.fld, Store.fld_setFld_zero] at htbl
    rw [hsame.info, Store.setFld_info]
    by_cases h0 : 0 = i
    · exact hi h0.symm
    · rw [if_neg h0] at htbl
      exact hslot htbl
  · rw [Cmd.when_neg hcond]
    exact ⟨s, rfl, h, hslot⟩

lemma NameInv.delTblAt_succeeds (h : NameInv env s) {tblId : Nat} (hused : (s.tbl tblId).Used)
    (hslot : SlotFree s tblId) : ∃ s', Datacl.delTblAt env tblId s = (some (), s') := by
  obtain ⟨s₁, hloop, -⟩ := Cmd.forEach_succeeds (I := fun t => NameInv env t ∧ SlotFree t tblId)
    (List.range s.flds.length) (fun i _ t ht => ht.1.delTblFld_succeeds (i := i) ht.2) ⟨h, hslot⟩
  refine ⟨s₁.setTbl tblId zeroTblRec, ?_⟩
  unfold Datacl.delTblAt
  rw [Cmd.get_bind, Cmd.require_bind, if_pos (.inl (h.tbltype tblId hused)), Cmd.bind_of_eq hloop]
  rfl

end Deleting

/-! ### Adding and renaming tables -/

section Tables

variable {env : Env} {s s' : Store}

lemma NameInv.addTbl (h : NameInv env s) {tbl : Name} {nR : Int} {tblId : Nat}
    (hrun : addTbl env tbl nR s = (some tblId, s')) : NameInv env s' := by
  unfold Datacl.addTbl at hrun
  obtain ⟨htbl, hrun⟩ := Cmd.require_bind_eq_some.mp hrun
  obtain ⟨-, hrun⟩ := Cmd.require_bind_eq_some.mp hrun
  obtain ⟨-, hrun⟩ := Cmd.require_bind_eq_some.mp hrun
  obtain ⟨i, s₁, hslot, hrun⟩ := Cmd.bind_eq_some.mp hrun
  rw [Cmd.modify_bind] at hrun
  obtain ⟨-, rfl⟩ := Cmd.pure_eq_some.mp hrun
  have hfree : NameInv env s₁ ∧ ∀ j, j ≠ i → (s₁.tbl j).name ≠ tbl := by
    unfold tblSlot at hslot
    rw [Cmd.get_bind] at hslot
    cases hfound : isTbl s tbl with
    | some k =>
      simp only [hfound] at hslot
      obtain ⟨_, s₂, hdel, hret⟩ := Cmd.bind_eq_some.mp hslot
      obtain ⟨rfl, rfl⟩ := Cmd.pure_eq_some.mp hret
      rw [delTbl_slot] at hdel
      obtain ⟨hinv, htbls⟩ := h.delTblAt hdel
      obtain ⟨-, hname⟩ := isTbl_eq_some hfound
      refine ⟨hinv, fun j hj heq => hj ?_⟩
      have hsame : s₁.tbl j = s.tbl j := by
        simp [Store.tbl, htbls, Ne.symm hj]
      rw [hsame] at heq
      exact h.names.tbls j i (by rw [TblRec.Used, heq]; exact htbl) (heq.trans hname.symm)
    | none =>
      simp only [hfound] at hslot
      cases hempty : getEmptyTbl env s tbl with
      | none =>
        rw [hempty] at hslot
        cases hslot
      | some k =>
        rw [hempty] at hslot
        obtain ⟨rfl, rfl⟩ := Cmd.pure_eq_some.mp hslot
        exact ⟨h, fun j _ => isTbl_eq_none htbl hfound j⟩
  exact hfree.1.setTbl (fun _ => rfl) fun _ => hfree.2

lemma NameInv.renameTbl (h : NameInv env s) {oldTbl newTbl : Name}
    (hok : ∀ newTblId, isTbl s newTbl = some newTblId → SlotFree s newTblId)
    (hrun : renameTbl env oldTbl newTbl s = (some (), s')) : NameInv env s' := by
  unfold Datacl.renameTbl at hrun
  obtain ⟨hnew, hrun⟩ := Cmd.require_bind_eq_some.mp hrun
  obtain ⟨hold, hrun⟩ := Cmd.require_bind_eq_some.mp hrun
  obtain ⟨hne, hrun⟩ := Cmd.require_bind_eq_some.mp hrun
  rw [Cmd.get_bind] at hrun
  obtain ⟨i, hi, hrun⟩ := Cmd.ofOption_bind_eq_some.mp hrun
  obtain ⟨_, s₁, hdel, hrun⟩ := Cmd.bind_eq_some.mp hrun
  obtain ⟨-, hrun⟩ := Cmd.require_bind_eq_some.mp hrun
  obtain rfl := Cmd.modify_eq_some.mp hrun
  obtain ⟨-, hiname⟩ := isTbl_eq_some hi
  have hfree : NameInv env s₁ ∧ (s₁.tbl i).tbltype = .regular ∧
      ∀ j, j ≠ i → (s₁.tbl j).name ≠ newTbl := by
    have hreg : (s.tbl i).tbltype = .regular :=
      h.tbltype i (by rw [TblRec.Used, hiname]; exact hold)
    cases hfound : isTbl s newTbl with
    | some k =>
      rw [hfound] at hdel
      obtain ⟨-, hkname⟩ := isTbl_eq_some hfound
      have hused : (s.tbl k).Used := by
        rw [TblRec.Used, hkname]
        exact hnew
      obtain ⟨s₂, hsucc⟩ := h.delTblAt_succeeds hused (hok k hfound)
      have hs₂ : s₁ = s₂ := by
        rw [delRenamed, Cmd.attempt_apply, delTbl_slot, hsucc] at hdel
        exact (Prod.ext_iff.mp hdel).2.symm
      rw [hs₂]
      obtain ⟨hinv, htbls⟩ := h.delTblAt hsucc
      have hsame : ∀ j, j ≠ k → s₂.tbl j = s.tbl j := by
        intro j hj
        simp [Store.tbl, htbls, Ne.symm hj]
      have hik : i ≠ k := by
        rintro rfl
        exact hne (hkname.symm.trans hiname)
      refine ⟨hinv, by rw [hsame i hik]; exact hreg, fun j _ heq => ?_⟩
      by_cases hj : j = k
      · rw [hj] at heq
        have hzero : (s₂.tbl k).name = [] := by
          simp [Store.tbl, htbls, List.getElem?_set, zeroTblRec]
          split <;> simp_all [zeroTblRec]
        exact hnew (heq.symm.trans hzero)
      · rw [hsame j hj] at heq
        exact hj (h.names.tbls j k (by rw [TblRec.Used, heq]; exact hnew) (heq.trans hkname.symm))
    | none =>
      rw [hfound] at hdel
      obtain ⟨-, rfl⟩ := Cmd.pure_eq_some.mp hdel
      exact ⟨h, hreg, fun j _ => isTbl_eq_none hnew hfound j⟩
  exact hfree.1.setTbl (fun _ => hfree.2.1) fun _ => hfree.2.2

end Tables

end Datacl
