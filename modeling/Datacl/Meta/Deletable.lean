import Datacl.Meta.LinksRun
import Mathlib.Data.List.Count

/-!
# Fields that can be deleted

`del_fld` resets the record of the field before it looks at the null field and at the index. If
these are in order the deletion goes through.
-/

namespace Datacl

/-- The data file of the field can be unlinked. -/
def FileOk (env : Env) (r : FldRec) : Prop := env.canEnter r.ddirId = true ∧ 0 ≤ r.fileno

/-- The field `a` is an auxiliary field of `i` that can be deleted with it. -/
structure AuxOk (env : Env) (s : Store) (i : Nat) (k : AuxType) (a : Nat) : Prop where
  auxtype : (s.fld a).auxtype = k
  parent : (s.fld a).parentId = i
  file : FileOk env (s.fld a)

/-- The records of the index for the field: none at all for slot 0, whose number the unused records
carry; and lengths or offsets at most once. -/
structure RecsOk (env : Env) (s : Store) (i : Nat) : Prop where
  recs : ∀ r ∈ s.info, r.fldId = i → i ≠ 0 ∧ r.mode ≠ .undefFldInfo ∧
    (r.mode ≠ .fkFldTxtLkp → 0 ≤ r.xxx → ∃ k : AuxType, k.mode = r.mode ∧ AuxOk env s i k r.xxx.toNat)
  once : ∀ k : AuxType, k.mode ≠ .undefFldInfo →
    s.info.countP (fun r => r.fldId = (i : Int) ∧ r.mode = k.mode) ≤ 1

/-- Nothing but its use as a dictionary is in the way of a deletion of the field. -/
structure Deletable (env : Env) (s : Store) (i : Nat) : Prop where
  primary : (s.fld i).auxtype = .undefAuxtype
  file : (s.fld i).isExternal = false → FileOk env (s.fld i)
  nn : 0 ≤ (s.fld i).nnFldId → AuxOk env s i .nn (s.fld i).nnFldId.toNat ∧
    (s.fld (s.fld i).nnFldId.toNat).isExternal = false
  index : RecsOk env s i

/-- The field is the dictionary of another one. -/
def IsDict (s : Store) (i : Nat) : Prop := ∃ r ∈ s.info, r.mode = .fkFldTxtLkp ∧ r.xxx = i

/-- `del_fld` is refused before it changes anything. -/
def Refused (env : Env) (s : Store) (i : Nat) : Prop :=
  IsDict s i ∨ (s.fld i).auxtype ≠ .undefAuxtype ∨
    (s.fld i).isExternal = false ∧ ¬ FileOk env (s.fld i)

/-- What a deletion may change: the field, its auxiliary fields, and records of the index. -/
structure Swept (i : Nat) (s s' : Store) : Prop where
  tbls : s'.tbls = s.tbls
  flds : ∀ j, s'.fld j = s.fld j ∨ s'.fld j = zeroFldRec ∧
    (j = i ∨ (s.fld j).parentId = i ∧ (s.fld j).auxtype ≠ .undefAuxtype)
  info : ∀ p : FldInfo → Bool, p zeroFldInfoRec = false → s'.info.countP p ≤ s.info.countP p
  length : s'.info.length = s.info.length

section

variable {env : Env} {s s' : Store} {i : Nat}

lemma Swept.refl (i : Nat) (s : Store) : Swept i s s :=
  ⟨rfl, fun _ => .inl rfl, fun _ _ => le_rfl, rfl⟩

lemma Swept.trans {s₁ : Store} (h : Swept i s s₁) (h' : Swept i s₁ s') : Swept i s s' := by
  refine ⟨h'.tbls.trans h.tbls, fun j => ?_, fun p hp => (h'.info p hp).trans (h.info p hp),
    h'.length.trans h.length⟩
  rcases h'.flds j with heq' | ⟨hzero', hwhy'⟩
  · rw [heq']
    exact h.flds j
  · rcases h.flds j with heq | ⟨hzero, hwhy⟩
    · rw [heq] at hwhy'
      exact .inr ⟨hzero', hwhy'⟩
    · exact .inr ⟨hzero', hwhy⟩

lemma Swept.sameRecs (h : SameRecs s s') (i : Nat) : Swept i s s' :=
  ⟨h.tbls, fun j => .inl (h.fld j), fun p _ => by rw [h.info], by rw [h.info]⟩

/-- A record of the index that is not reset was there before. -/
lemma Swept.mem (h : Swept i s s') {r : FldInfo} (hr : r ∈ s'.info) (hne : r ≠ zeroFldInfoRec) :
    r ∈ s.info := by
  have hzero : (fun r' => decide (r' = r)) zeroFldInfoRec = false := decide_eq_false hne.symm
  have hpos : 0 < s'.info.countP (fun r' => decide (r' = r)) :=
    List.countP_pos_iff.mpr ⟨r, hr, decide_eq_true rfl⟩
  obtain ⟨r', hr', heq⟩ := List.countP_pos_iff.mp (hpos.trans_le (h.info _ hzero))
  rw [← of_decide_eq_true heq]
  exact hr'

/-! ### The loop over the index -/

lemma delAuxRec_succeeds {a : Nat} (h : FileOk env (s.fld a)) :
    ∃ s', delAuxRec env a s = (some (), s') ∧ SameRecs (s.setFld a zeroFldRec) s' := by
  obtain ⟨s₁, hfirst, hsame⟩ : ∃ s₁, Cmd.when ((s.fld a).isExternal = false)
      (Cmd.attempt (qDelete env (s.fld a).ddirId (s.fld a).fileno)) s = (some (), s₁) ∧
        SameRecs s s₁ := by
    by_cases hext : (s.fld a).isExternal = false
    · rw [Cmd.when_pos hext]
      exact ⟨_, rfl, qDelete_sameRecs ..⟩
    · rw [Cmd.when_neg hext]
      exact ⟨s, rfl, SameRecs.refl s⟩
  unfold delAuxRec
  rw [Cmd.get_bind, Cmd.bind_of_eq hfirst, Cmd.bind_of_eq (qDelete_succeeds h.1 h.2)]
  refine ⟨_, rfl, hsame.tbls, ?_, hsame.info⟩
  show (s₁.flds).set a zeroFldRec = s.flds.set a zeroFldRec
  rw [hsame.flds]

/-- The store after a record of the index has been reset. -/
def Store.resetRec (s : Store) (p : Nat) : Store :=
  { s with info := sortFldInfo (s.info.set p zeroFldInfoRec) }

lemma countP_resetRec {p : Nat} (hp : p < s.info.length) {q : FldInfo → Bool}
    (hq : q zeroFldInfoRec = false) : (s.resetRec p).info.countP q =
      s.info.countP q - if q (s.info.getD p zeroFldInfoRec) then 1 else 0 := by
  rw [Store.resetRec, (sortFldInfo_perm _).countP_eq, List.countP_set hp, hq]
  simp [hp]

lemma length_resetRec (s : Store) (p : Nat) : (s.resetRec p).info.length = s.info.length := by
  rw [Store.resetRec, (sortFldInfo_perm _).length_eq, List.length_set]

/-- Resetting the field or an auxiliary field of it. -/
lemma swept_zero {a : Nat}
    (ha : a = i ∨ (s.fld a).parentId = i ∧ (s.fld a).auxtype ≠ .undefAuxtype) :
    Swept i s (s.setFld a zeroFldRec) := by
  refine ⟨rfl, fun j => ?_, fun q _ => le_rfl, rfl⟩
  rw [Store.fld_setFld_zero]
  by_cases hj : j = a
  · rw [if_pos hj, hj]
    exact .inr ⟨rfl, ha⟩
  · rw [if_neg hj]
    exact .inl rfl

lemma swept_resetRec {p : Nat} (hp : p < s.info.length) : Swept i s (s.resetRec p) := by
  refine ⟨rfl, fun j => .inl rfl, fun q hq => ?_, length_resetRec s p⟩
  rw [countP_resetRec hp hq]
  exact Nat.sub_le _ _

lemma AuxOk.congr {k : AuxType} {a : Nat} (h : AuxOk env s i k a) (heq : s'.fld a = s.fld a) :
    AuxOk env s' i k a := by
  constructor
  · rw [heq]
    exact h.auxtype
  · rw [heq]
    exact h.parent
  · rw [heq]
    exact h.file

/-- The rules for the index hold after a deletion that leaves the auxiliary fields alone. -/
lemma RecsOk.swept {j : Nat} (h : RecsOk env s j) (hswept : Swept i s s')
    (hflds : ∀ r ∈ s'.info, r.fldId = j → ∀ k : AuxType, k.mode = r.mode →
      AuxOk env s j k r.xxx.toNat → s'.fld r.xxx.toNat = s.fld r.xxx.toNat)
    (hmem : ∀ r ∈ s'.info, r.fldId = j → r ∈ s.info) : RecsOk env s' j := by
  refine ⟨fun r hr hj => ?_, fun k hk => ?_⟩
  · obtain ⟨h0, hmode, haux⟩ := h.recs r (hmem r hr hj) hj
    refine ⟨h0, hmode, fun htxt hx => ?_⟩
    obtain ⟨k, hk, hok⟩ := haux htxt hx
    exact ⟨k, hk, hok.congr (hflds r hr hj k hk hok)⟩
  · refine (hswept.info _ ?_).trans (h.once k hk)
    apply decide_eq_false
    rintro ⟨-, hmode⟩
    exact hk hmode.symm

/-- One iteration passes over the record or resets it. -/
lemma delInfoAt_succeeds {p : Nat} (h : RecsOk env s i) (hp : p < s.info.length) :
    ∃ s', delInfoAt env i p true s = (some true, s') ∧ RecsOk env s' i ∧ Swept i s s' ∧
      ((s.info.getD p zeroFldInfoRec).fldId ≠ i ∧ s' = s ∨
        (s.info.getD p zeroFldInfoRec).fldId = i ∧ i ≠ 0 ∧ s'.info = (s.resetRec p).info) := by
  unfold delInfoAt
  rw [Cmd.get_bind]
  by_cases hfld : (s.info.getD p zeroFldInfoRec).fldId = i
  · have hr : s.info.getD p zeroFldInfoRec ∈ s.info := by simp [hp]
    generalize hrec : s.info.getD p zeroFldInfoRec = r at hfld hr ⊢
    obtain ⟨h0, hmode, haux⟩ := h.recs r hr hfld
    have hmem : ∀ r' ∈ (s.resetRec p).info, r'.fldId = i → r' ∈ s.info := by
      intro r' hr' hi
      have hset : r' ∈ s.info.set p zeroFldInfoRec := (sortFldInfo_perm _).mem_iff.mp hr'
      rcases List.mem_or_eq_of_mem_set hset with hmem | rfl
      · exact hmem
      · exact absurd (Int.natCast_eq_zero.mp hi.symm) h0
    rw [if_neg (not_not.mpr hfld), if_neg hmode, Cmd.modify_bind]
    by_cases htxt : r.mode = .fkFldTxtLkp ∨ r.xxx < 0
    · rw [if_pos htxt]
      have hswept : Swept i s (s.resetRec p) := swept_resetRec hp
      exact ⟨s.resetRec p, rfl, h.swept hswept (fun _ _ _ _ _ _ => rfl) hmem, hswept,
        .inr ⟨hfld, h0, rfl⟩⟩
    · rw [if_neg htxt]
      rw [not_or, not_lt] at htxt
      obtain ⟨k, hk, hok⟩ := haux htxt.1 htxt.2
      obtain ⟨s', hdel, hsame⟩ := delAuxRec_succeeds (s := s.resetRec p) hok.file
      have hkind : (s.fld r.xxx.toNat).auxtype ≠ .undefAuxtype := by
        rw [hok.auxtype]
        rintro rfl
        exact hmode hk.symm
      have hswept : Swept i s s' :=
        ((swept_resetRec hp).trans (swept_zero (.inr ⟨hok.parent, hkind⟩))).trans (.sameRecs hsame i)
      refine ⟨s', ?_, h.swept hswept ?_ ?_, hswept, .inr ⟨hfld, h0, hsame.info⟩⟩
      · exact Cmd.bind_of_eq hdel
      · intro r' hr' hi' k' hk' hok'
        rw [hsame.info] at hr'
        rw [hsame.fld, Store.fld_setFld_zero, if_neg]
        · rfl
        · -- Two records for the same auxiliary field would be of the same kind.
          intro heq
          have hkk : k' = k := by rw [← hok'.auxtype, ← hok.auxtype, heq]
          have hcount := countP_resetRec hp (q := fun r => r.fldId = (i : Int) ∧ r.mode = k.mode)
            (decide_eq_false fun hzero => hmode (hk.symm.trans hzero.2.symm))
          have hle := h.once k (by rw [hk]; exact hmode)
          have hpos : 0 < (s.resetRec p).info.countP
              fun r => r.fldId = (i : Int) ∧ r.mode = k.mode :=
            List.countP_pos_iff.mpr ⟨r', hr', by simp [hi', ← hk', hkk]⟩
          rw [hrec, if_pos (by simp [hfld, hk])] at hcount
          omega
      · rw [hsame.info]
        exact hmem
  · rw [if_pos hfld]
    exact ⟨s, rfl, h, .refl i s, .inl ⟨hfld, rfl⟩⟩

/-- The loop passes over all records or resets at least one. -/
lemma delInfoLoop_succeeds (ps : List Nat) (h : RecsOk env s i) (hps : ∀ p ∈ ps, p < s.info.length) :
    ∃ s', delInfoLoop env i ps true s = (some true, s') ∧ Swept i s s' ∧
      ((s'.info = s.info ∧ ∀ p ∈ ps, (s.info.getD p zeroFldInfoRec).fldId ≠ i) ∨
        i ≠ 0 ∧ s'.info.countP (fun r => r.fldId = (i : Int)) <
          s.info.countP (fun r => r.fldId = (i : Int))) := by
  induction ps generalizing s with
  | nil => exact ⟨s, rfl, .refl i s, .inl ⟨rfl, fun _ hp => by cases hp⟩⟩
  | cons p ps ih =>
    have hp := hps p List.mem_cons_self
    obtain ⟨s₁, hstep, hrecs, hswept, hcase⟩ := delInfoAt_succeeds h hp
    obtain ⟨s', hloop, hswept', hcase'⟩ := ih hrecs fun q hq => by
      rw [hswept.length]
      exact hps q (List.mem_cons_of_mem p hq)
    refine ⟨s', ?_, hswept.trans hswept', ?_⟩
    · rw [delInfoLoop, Cmd.bind_of_eq hstep]
      exact hloop
    · rcases hcase with ⟨hno, rfl⟩ | ⟨hfld, h0, hinfo⟩
      · refine hcase'.imp_left fun hpass => ⟨hpass.1, fun q hq => ?_⟩
        rcases List.mem_cons.mp hq with rfl | hq
        · exact hno
        · exact hpass.2 q hq
      · right
        have hzero : (fun r : FldInfo => decide (r.fldId = (i : Int))) zeroFldInfoRec = false := by
          apply decide_eq_false
          intro heq
          exact h0 (Int.natCast_eq_zero.mp heq.symm)
        have hpos : 0 < s.info.countP fun r => r.fldId = (i : Int) :=
          List.countP_pos_iff.mpr ⟨_, by simp [hp], decide_eq_true hfld⟩
        have hcount := countP_resetRec hp (q := fun r => r.fldId = (i : Int)) hzero
        rw [← hinfo, if_pos (decide_eq_true hfld)] at hcount
        have hle := hswept'.info (fun r => r.fldId = (i : Int)) hzero
        exact ⟨h0, by omega⟩

/-! ### The whole deletion -/

lemma delNnFld_succeeds (env : Env) (nnFldId : Int) (hext : (s.fld i).isExternal = false)
    (h : 0 ≤ nnFldId → FileOk env (s.fld nnFldId.toNat) ∧
      (s.fld nnFldId.toNat).isExternal = false) :
    ∃ s', delNnFld env i nnFldId s = (some true, s') ∧
      SameRecs (if 0 ≤ nnFldId then s.setFld nnFldId.toNat zeroFldRec else s) s' := by
  unfold delNnFld
  by_cases hnn : 0 ≤ nnFldId
  · obtain ⟨hfile, hnnext⟩ := h hnn
    rw [if_pos hnn, if_pos hnn, Cmd.get_bind, Cmd.require_bind, if_pos (hext.trans hnnext.symm),
      Cmd.when_pos hnnext, Cmd.status_bind, qDelete_succeeds hfile.1 hfile.2]
    exact ⟨_, rfl, rfl, rfl, rfl⟩
  · rw [if_neg hnn, if_neg hnn]
    exact ⟨s, rfl, SameRecs.refl s⟩

/-- No record of the index names the field as a dictionary. -/
lemma not_any_of_not_isDict (h : ¬ IsDict s i) :
    ¬ (s.info.any fun r => r.mode = .fkFldTxtLkp ∧ r.xxx = i) = true := by
  intro hany
  obtain ⟨r, hr, hx⟩ := List.any_eq_true.mp hany
  obtain ⟨hmode, hx⟩ := of_decide_eq_true hx
  exact h ⟨r, hr, hmode, hx⟩

/-- A field that is refused stays as it is. -/
lemma delFldAt_refused (h : Refused env s i) : delFldAt env i s = (none, s) := by
  unfold delFldAt
  rw [Cmd.get_bind, Cmd.require_bind]
  by_cases hdict : IsDict s i
  · obtain ⟨r, hr, hmode, hx⟩ := hdict
    rw [if_neg]
    exact not_not.mpr (List.any_eq_true.mpr ⟨r, hr, by simp [hmode, hx]⟩)
  · rw [if_pos (not_any_of_not_isDict hdict), Cmd.require_bind]
    by_cases hprim : (s.fld i).auxtype = .undefAuxtype
    · rw [if_pos hprim]
      obtain ⟨hext, hfile⟩ : (s.fld i).isExternal = false ∧ ¬ FileOk env (s.fld i) := by
        rcases h with h | h | h
        · exact absurd h hdict
        · exact absurd hprim h
        · exact h
      have hfail : qDelete env (s.fld i).ddirId (s.fld i).fileno s = (none, s) := by
        unfold qDelete
        rw [Cmd.require_bind]
        by_cases hdir : env.canEnter (s.fld i).ddirId = true
        · rw [if_pos hdir, Cmd.require_bind, if_neg fun hno => hfile ⟨hdir, hno⟩]
        · rw [if_neg hdir]
      rw [Cmd.when_pos hext, Cmd.bind_apply, hfail]
    · rw [if_neg hprim]

/-- A field that can be deleted and is not a dictionary is deleted. If the index has one record for
it, the record is reset. -/
lemma delFldAt_succeeds (h : Deletable env s i) (hdict : ¬ IsDict s i) :
    ∃ s', delFldAt env i s = (some (), s') ∧ Swept i s s' ∧
      (s.info.countP (fun r => r.fldId = (i : Int)) ≤ 1 → ∀ r ∈ s'.info, r.mode ≠ .undefFldInfo →
        r.fldId ≠ i) := by
  obtain ⟨s₁, hunlink, hsame⟩ := unlink_succeeds (s := s) h.file
  have hzero : Swept i s (s₁.setFld i zeroFldRec) :=
    (Swept.sameRecs hsame i).trans (swept_zero (.inl rfl))
  have hfld : ∀ j, j ≠ i → (s₁.setFld i zeroFldRec).fld j = s.fld j := by
    intro j hj
    rw [Store.fld_setFld_zero, if_neg hj, hsame.fld]
  have hext : ((s₁.setFld i zeroFldRec).fld i).isExternal = false := by
    rw [Store.fld_setFld_zero, if_pos rfl]
    rfl
  have hne : 0 ≤ (s.fld i).nnFldId → (s.fld i).nnFldId.toNat ≠ i := by
    intro hnn heq
    have hkind := (h.nn hnn).1.auxtype
    rw [heq, h.primary] at hkind
    cases hkind
  obtain ⟨s₂, hnn, hsame₂⟩ := delNnFld_succeeds env (s.fld i).nnFldId hext fun hnn => by
    rw [hfld _ (hne hnn)]
    exact ⟨(h.nn hnn).1.file, (h.nn hnn).2⟩
  have hswept₂ : Swept i s s₂ ∧ s₂.info = s.info ∧ ∀ j, j ≠ i →
      (0 ≤ (s.fld i).nnFldId → j ≠ (s.fld i).nnFldId.toNat) → s₂.fld j = s.fld j := by
    by_cases h0 : 0 ≤ (s.fld i).nnFldId
    · rw [if_pos h0] at hsame₂
      have hwhy : ((s₁.setFld i zeroFldRec).fld (s.fld i).nnFldId.toNat).parentId = i ∧
          ((s₁.setFld i zeroFldRec).fld (s.fld i).nnFldId.toNat).auxtype ≠ .undefAuxtype := by
        rw [hfld _ (hne h0), (h.nn h0).1.auxtype]
        exact ⟨(h.nn h0).1.parent, by decide⟩
      refine ⟨(hzero.trans (swept_zero (.inr hwhy))).trans (.sameRecs hsame₂ i),
        hsame₂.info.trans hsame.info, fun j hj hnnj => ?_⟩
      rw [hsame₂.fld, Store.fld_setFld_zero, if_neg (hnnj h0), hfld j hj]
    · rw [if_neg h0] at hsame₂
      refine ⟨hzero.trans (.sameRecs hsame₂ i), hsame₂.info.trans hsame.info, fun j hj _ => ?_⟩
      rw [hsame₂.fld, hfld j hj]
  obtain ⟨hswept₂, hinfo₂, hfld₂⟩ := hswept₂
  have hrecs₂ : RecsOk env s₂ i := by
    refine h.index.swept hswept₂ (fun r hr hri k hk hok => ?_) fun r hr _ => by rwa [hinfo₂] at hr
    rw [hinfo₂] at hr
    have hmode := (h.index.recs r hr hri).2.1
    apply hfld₂
    · intro heq
      rw [← hk, ← hok.auxtype, heq, h.primary] at hmode
      exact hmode rfl
    · intro h0 heq
      rw [← hk, ← hok.auxtype, heq, (h.nn h0).1.auxtype] at hmode
      exact hmode rfl
  obtain ⟨s₃, hloop, hswept₃, hcase⟩ := delInfoLoop_succeeds (List.range s.info.length) hrecs₂
    fun p hp => by
      rw [hinfo₂]
      exact List.mem_range.mp hp
  refine ⟨s₃, ?_, hswept₂.trans hswept₃, ?_⟩
  · unfold delFldAt
    rw [Cmd.get_bind, Cmd.require_bind, if_pos (not_any_of_not_isDict hdict), Cmd.require_bind, if_pos h.primary,
      Cmd.bind_of_eq hunlink, Cmd.modify_bind, Cmd.bind_of_eq hnn, Cmd.bind_of_eq hloop]
    rfl
  · intro hone r hr hmode hfldr
    rw [hinfo₂] at hcase
    rcases hcase with ⟨hinfo₃, hnone⟩ | ⟨h0, hlt⟩
    · rw [hinfo₃] at hr
      obtain ⟨p, hp, rfl⟩ := List.mem_iff_getElem.mp hr
      exact hnone p (List.mem_range.mpr hp) (by simpa [hp] using hfldr)
    · have hpos : 0 < s₃.info.countP fun r => r.fldId = (i : Int) :=
        List.countP_pos_iff.mpr ⟨r, hr, decide_eq_true hfldr⟩
      omega

/-- The deletion of a field leaves another one deletable, unless that is in slot 0. -/
lemma Deletable.swept {j : Nat} (h : Deletable env s j) (hij : j ≠ i) (h0 : j ≠ 0)
    (hi : (s.fld i).auxtype = .undefAuxtype) (hswept : Swept i s s') :
    Deletable env s' j ∧ s'.fld j = s.fld j := by
  have hkeep : ∀ k a, k ≠ .undefAuxtype → AuxOk env s j k a → s'.fld a = s.fld a := by
    intro k a hk hok
    rcases hswept.flds a with heq | ⟨-, rfl | ⟨hparent, -⟩⟩
    · exact heq
    · exact absurd (hok.auxtype.symm.trans hi) hk
    · rw [hok.parent] at hparent
      exact absurd (Int.natCast_inj.mp hparent) hij
  have hself : s'.fld j = s.fld j := by
    rcases hswept.flds j with heq | ⟨-, rfl | ⟨-, haux⟩⟩
    · exact heq
    · exact absurd rfl hij
    · exact absurd h.primary haux
  refine ⟨⟨?_, ?_, ?_, ?_⟩, hself⟩
  · rw [hself]
    exact h.primary
  · rw [hself]
    exact h.file
  · rw [hself]
    intro hnn
    obtain ⟨hok, hext⟩ := h.nn hnn
    have heq := hkeep .nn _ (by decide) hok
    exact ⟨hok.congr heq, by rw [heq]; exact hext⟩
  · have hmem : ∀ r ∈ s'.info, r.fldId = j → r ∈ s.info := by
      intro r hr hrj
      apply hswept.mem hr
      rintro rfl
      exact h0 (Int.natCast_eq_zero.mp hrj.symm)
    refine h.index.swept hswept (fun r hr hj k hk hok => ?_) hmem
    apply hkeep k _ _ hok
    rintro rfl
    exact (h.index.recs r (hmem r hr hj) hj).2.1 hk.symm

end

end Datacl
