import Datacl.Meta.Check
import Datacl.Meta.FldInfoIndex

/-!
# Deleting a field

The last loop of `del_fld` walks the index by position. When it resets a record the sort moves
the records behind it up by one, so the next record is never looked at.
-/

namespace Datacl

/-- A used record of the index with this field as parent. -/
def FldInfo.Mentions (fldId : Nat) (r : FldInfo) : Prop :=
  r.mode ≠ .undefFldInfo ∧ r.fldId = fldId

/-- A record of the index that makes `auxId` the lengths or the offsets of a field. -/
def FldInfo.Lists (fldId auxId : Nat) (r : FldInfo) : Prop :=
  (r.mode = .fkFldLen ∨ r.mode = .fkFldOff) ∧ r.fldId = fldId ∧ r.xxx = auxId

instance (fldId : Nat) (r : FldInfo) : Decidable (r.Mentions fldId) :=
  inferInstanceAs (Decidable (_ ∧ _))

instance (fldId auxId : Nat) (r : FldInfo) : Decidable (r.Lists fldId auxId) :=
  inferInstanceAs (Decidable (_ ∧ _))

lemma FldInfo.Lists.mentions {fldId auxId : Nat} {r : FldInfo} (h : r.Lists fldId auxId) :
    r.Mentions fldId := by
  refine ⟨?_, h.2.1⟩
  rcases h.1 with hm | hm <;> simp [hm]

lemma not_mentions_zero (fldId : Nat) : ¬ zeroFldInfoRec.Mentions fldId := fun h => h.1 rfl

/-- A walk over the records of the index for one parent: what is left of them and which records
were reset. -/
inductive Sweep (fldId : Nat) : List FldInfo → List FldInfo → List FldInfo → Prop where
  | nil : Sweep fldId [] [] []
  | skip {r : FldInfo} {rest left reset : List FldInfo} (h : r.fldId ≠ fldId)
      (hrest : Sweep fldId rest left reset) : Sweep fldId (r :: rest) (r :: left) reset
  | last {r : FldInfo} (h : r.Mentions fldId) : Sweep fldId [r] [zeroFldInfoRec] [r]
  | reset {r r' : FldInfo} {rest left reset : List FldInfo} (h : r.Mentions fldId)
      (hrest : Sweep fldId (rest ++ [zeroFldInfoRec]) left reset) :
      Sweep fldId (r :: r' :: rest) (r' :: left) (r :: reset)

/-- No two consecutive records have the field as parent. -/
def Apart (fldId : Nat) (info : List FldInfo) : Prop :=
  info.IsChain fun a b => ¬ (a.Mentions fldId ∧ b.Mentions fldId)

lemma Apart.tail {fldId : Nat} {r : FldInfo} {rest : List FldInfo} (h : Apart fldId (r :: rest)) :
    Apart fldId rest := List.IsChain.tail h

lemma Apart.append_zero {fldId : Nat} {rest : List FldInfo} (h : Apart fldId rest) :
    Apart fldId (rest ++ [zeroFldInfoRec]) := by
  refine List.isChain_append.mpr ⟨h, List.isChain_singleton _, ?_⟩
  intro a _ b hb hab
  simp only [List.head?_cons, Option.mem_def, Option.some.injEq] at hb
  exact not_mentions_zero fldId (hb ▸ hab.2)

lemma Apart.of_append {fldId : Nat} {rest rest' : List FldInfo} (h : Apart fldId (rest ++ rest')) :
    Apart fldId rest := List.IsChain.left_of_append h

section Sweep

variable {fldId : Nat} {info left reset : List FldInfo}

lemma Sweep.reset_mentions (h : Sweep fldId info left reset) :
    ∀ r ∈ reset, r ∈ info ∧ r.Mentions fldId := by
  induction h with
  | nil => simp
  | skip _ _ ih => exact fun r hr => ⟨List.mem_cons_of_mem _ (ih r hr).1, (ih r hr).2⟩
  | last h =>
    intro a ha
    rw [List.mem_singleton.mp ha]
    exact ⟨List.mem_singleton_self _, h⟩
  | @reset r r' rest left reset h _ ih =>
    intro a ha
    rcases List.mem_cons.mp ha with rfl | ha
    · exact ⟨List.mem_cons_self, h⟩
    · obtain ⟨hmem, hment⟩ := ih a ha
      rcases List.mem_append.mp hmem with hmem | hmem
      · exact ⟨by simp [hmem], hment⟩
      · rw [List.mem_singleton.mp hmem] at hment
        exact absurd hment (not_mentions_zero fldId)

/-- If no two consecutive records have the parent, the walk resets all its records. -/
lemma Sweep.complete (h : Sweep fldId info left reset) (hapart : Apart fldId info) :
    (∀ r ∈ left, ¬ r.Mentions fldId) ∧ ∀ r ∈ info, r.Mentions fldId → r ∈ reset := by
  induction h with
  | nil => simp
  | @skip r rest left reset hr _ ih =>
    obtain ⟨hleft, hreset⟩ := ih hapart.tail
    constructor
    · intro a ha hment
      rcases List.mem_cons.mp ha with rfl | ha
      · exact hr hment.2
      · exact hleft a ha hment
    · intro a ha hment
      rcases List.mem_cons.mp ha with rfl | ha
      · exact absurd hment.2 hr
      · exact hreset a ha hment
  | last h =>
    constructor
    · intro a ha
      rw [List.mem_singleton.mp ha]
      exact not_mentions_zero fldId
    · exact fun a ha _ => ha
  | @reset r r' rest left reset h _ ih =>
    have hr' : ¬ r'.Mentions fldId := fun h' => (List.isChain_cons_cons.mp hapart).1 ⟨h, h'⟩
    obtain ⟨hleft, hreset⟩ := ih hapart.tail.tail.append_zero
    constructor
    · intro a ha
      rcases List.mem_cons.mp ha with rfl | ha
      · exact hr'
      · exact hleft a ha
    · intro a ha hment
      rcases List.mem_cons.mp ha with rfl | ha
      · exact List.mem_cons_self
      · rcases List.mem_cons.mp ha with rfl | ha
        · exact absurd hment hr'
        · exact List.mem_cons_of_mem _ (hreset a (by simp [ha]) hment)

/-- If two consecutive records have the parent, the walk leaves one of its records. -/
lemma Sweep.incomplete (h : Sweep fldId info left reset) (hapart : ¬ Apart fldId info) :
    ∃ r ∈ left, r.Mentions fldId := by
  induction h with
  | nil => exact absurd List.isChain_nil hapart
  | @skip r rest left reset hr _ ih =>
    have hrest : ¬ Apart fldId rest := by
      intro hrest
      apply hapart
      cases rest with
      | nil => exact List.isChain_singleton _
      | cons r' rest =>
        exact List.isChain_cons_cons.mpr ⟨fun h => hr h.1.2, hrest⟩
    obtain ⟨a, ha, hment⟩ := ih hrest
    exact ⟨a, List.mem_cons_of_mem _ ha, hment⟩
  | last h => exact absurd (List.isChain_singleton _) hapart
  | @reset r r' rest left reset h _ ih =>
    by_cases hr' : r'.Mentions fldId
    · exact ⟨r', List.mem_cons_self, hr'⟩
    · have hrest : ¬ Apart fldId (rest ++ [zeroFldInfoRec]) := by
        intro hrest
        apply hapart
        refine List.isChain_cons_cons.mpr ⟨fun h => hr' h.2, ?_⟩
        have hrest' := hrest.of_append
        cases rest with
        | nil => exact List.isChain_singleton _
        | cons r'' rest =>
          exact List.isChain_cons_cons.mpr ⟨fun h => hr' h.1, hrest'⟩
      obtain ⟨a, ha, hment⟩ := ih hrest
      exact ⟨a, List.mem_cons_of_mem _ ha, hment⟩

end Sweep

/-! ### The loop -/

section Loop

variable {env : Env} {fldId : Nat} {s s' : Store} {st st' : Bool}

/-- Resetting a record and sorting moves the records behind it up. -/
lemma IndexOk.reset {nFld : Nat} (hn : nFld ≤ 32768) {before rest : List FldInfo} {r : FldInfo}
    (h : IndexOk nFld (before ++ r :: rest)) :
    Datacl.sortFldInfo (before ++ zeroFldInfoRec :: rest) = before ++ (rest ++ [zeroFldInfoRec]) ∧
      IndexOk nFld (before ++ (rest ++ [zeroFldInfoRec])) := by
  have hok : ∀ a ∈ before ++ (rest ++ [zeroFldInfoRec]), a.Ok nFld := by
    intro a ha
    simp only [List.mem_append, List.mem_singleton] at ha
    rcases ha with ha | ha | rfl
    · exact h.ok a (by simp [ha])
    · exact h.ok a (by simp [ha])
    · exact .inl rfl
  have hsorted : (before ++ (rest ++ [zeroFldInfoRec])).Pairwise FldInfo.Le := by
    have hsub : (before ++ rest).Pairwise FldInfo.Le :=
      h.sorted.sublist ((List.sublist_cons_self r rest).append_left before)
    rw [← List.append_assoc]
    refine List.pairwise_append.mpr ⟨hsub, List.pairwise_singleton _ _, ?_⟩
    intro a ha b hb
    rw [List.mem_singleton.mp hb]
    exact (hok a (by simpa using List.mem_append.mp ha |>.imp_right Or.inl)).le_zero hn
  have hnew : IndexOk nFld (before ++ (rest ++ [zeroFldInfoRec])) := ⟨hsorted, hok⟩
  refine ⟨hnew.sortFldInfo_eq hn ?_, hnew⟩
  exact List.Perm.append_left before List.perm_append_comm

lemma delAuxRec_eq_some {auxId : Nat} (h : delAuxRec env auxId s = (some (), s')) :
    Frame s s' ∧ s'.info = s.info ∧
      ∀ j, s'.fld j = if j = auxId then zeroFldRec else s.fld j := by
  unfold delAuxRec at h
  rw [Cmd.get_bind] at h
  obtain ⟨_, s₁, hfirst, h⟩ := Cmd.bind_eq_some.mp h
  obtain ⟨_, s₂, hdel, hmod⟩ := Cmd.bind_eq_some.mp h
  have hsame : SameRecs s s₁ ∧ Frame s s₁ := by
    rcases Cmd.when_eq_some.mp hfirst with ⟨-, h⟩ | ⟨-, rfl⟩
    · rw [Cmd.attempt_apply] at h
      obtain rfl := (Prod.ext_iff.mp h).2
      exact ⟨qDelete_sameRecs .., qDelete_frame ..⟩
    · exact ⟨SameRecs.refl s₁, Frame.refl s₁⟩
  obtain ⟨hsame, hframe⟩ := hsame
  obtain rfl := qDelete_eq_some hdel
  obtain rfl := Cmd.modify_eq_some.mp hmod
  refine ⟨(hframe.trans (Frame.setFile_none ..)).trans (Frame.setFld ..), hsame.info, fun j => ?_⟩
  rw [Store.fld_setFld_zero, Store.fld_setFile, hsame.fld]

/-- One iteration: the record is passed over, or it is reset with the auxiliary field it lists. -/
lemma delInfoAt_eq_some (hn : s.flds.length ≤ 32768) (hidx : IndexOk s.flds.length s.info)
    {before rest : List FldInfo} {r : FldInfo} (hinfo : s.info = before ++ r :: rest)
    (h : delInfoAt env fldId before.length st s = (some st', s')) :
    (r.fldId ≠ fldId ∧ s' = s) ∨
      (r.Mentions fldId ∧ s'.info = before ++ (rest ++ [zeroFldInfoRec]) ∧ Frame s s' ∧
        ∀ j, s'.fld j = if r.Lists fldId j then zeroFldRec else s.fld j) := by
  have hget : s.info.getD before.length zeroFldInfoRec = r := by simp [hinfo]
  have hset : s.info.set before.length zeroFldInfoRec = before ++ zeroFldInfoRec :: rest := by
    simp [hinfo]
  have hok : r.Ok s.flds.length := hidx.ok r (by simp [hinfo])
  rw [hinfo] at hidx
  unfold delInfoAt at h
  simp only [Cmd.get_bind, hget] at h
  by_cases hfld : r.fldId = fldId
  · rw [if_neg (not_not.mpr hfld)] at h
    by_cases hmode : r.mode = .undefFldInfo
    · simp [hmode] at h
    · have hment : r.Mentions fldId := ⟨hmode, hfld⟩
      have hxxx : ¬ r.xxx < 0 := by
        obtain rfl | hok := hok
        · exact absurd rfl hmode
        · omega
      rw [if_neg hmode, Cmd.modify_bind, hset, (hidx.reset hn).1] at h
      right
      by_cases htxt : r.mode = .fkFldTxtLkp
      · rw [if_pos (.inl htxt)] at h
        obtain ⟨-, rfl⟩ := Cmd.pure_eq_some.mp h
        refine ⟨hment, rfl, ⟨rfl, rfl, rfl, fun _ _ => .inr rfl⟩, fun j => ?_⟩
        have hno : ¬ r.Lists fldId j := by
          rintro ⟨hl | hl, -⟩ <;> simp [htxt] at hl
        rw [if_neg hno]
        rfl
      · rw [if_neg (by simp [htxt, hxxx])] at h
        obtain ⟨_, s₁, hdel, hret⟩ := Cmd.bind_eq_some.mp h
        obtain ⟨-, rfl⟩ := Cmd.pure_eq_some.mp hret
        obtain ⟨hframe, hinfo', hflds⟩ := delAuxRec_eq_some hdel
        refine ⟨hment, hinfo', ⟨hframe.tbls, hframe.length, hframe.nextFileno, hframe.disk⟩,
          fun j => ?_⟩
        have hlists : r.Lists fldId j ↔ j = r.xxx.toNat := by
          have hm : r.mode = .fkFldLen ∨ r.mode = .fkFldOff := by
            cases hm : r.mode <;> simp_all
          constructor
          · rintro ⟨-, -, hj⟩
            omega
          · rintro rfl
            exact ⟨hm, hfld, by omega⟩
        rw [hflds j]
        by_cases hj : j = r.xxx.toNat
        · rw [if_pos hj, if_pos (hlists.mpr hj)]
        · rw [if_neg hj, if_neg fun hl => hj (hlists.mp hl)]
          rfl
  · rw [if_pos hfld] at h
    exact .inl ⟨hfld, (Cmd.pure_eq_some.mp h).2⟩

/-- The loop performs a walk and resets the auxiliary fields that the records it reset list. -/
lemma delInfoLoop_eq_some (hn : s.flds.length ≤ 32768) (hidx : IndexOk s.flds.length s.info)
    {before rest : List FldInfo} (hinfo : s.info = before ++ rest)
    (h : delInfoLoop env fldId (List.range' before.length rest.length) st s = (some st', s')) :
    ∃ left reset, Sweep fldId rest left reset ∧ s'.info = before ++ left ∧ Frame s s' ∧
      IndexOk s'.flds.length s'.info ∧
      ∀ j, s'.fld j = if ∃ r ∈ reset, r.Lists fldId j then zeroFldRec else s.fld j := by
  induction hk : rest.length generalizing s st before rest with
  | zero =>
    obtain rfl := List.length_eq_zero_iff.mp hk
    obtain ⟨-, rfl⟩ := Cmd.pure_eq_some.mp h
    exact ⟨[], [], .nil, hinfo, Frame.refl s', hidx, by simp⟩
  | succ k ih =>
    obtain ⟨r, rest, rfl⟩ := List.exists_cons_of_length_eq_add_one hk
    rw [List.length_cons, Nat.add_right_cancel_iff] at hk
    rw [List.length_cons, List.range'_succ, delInfoLoop] at h
    obtain ⟨st₁, s₁, hstep, hloop⟩ := Cmd.bind_eq_some.mp h
    rcases delInfoAt_eq_some hn hidx hinfo hstep with ⟨hskip, rfl⟩ | ⟨hment, hinfo₁, hframe, hflds⟩
    · have hinfo' : s₁.info = (before ++ [r]) ++ rest := by simp [hinfo]
      obtain ⟨left, reset, hsweep, hleft, hrest⟩ :=
        ih hn hidx hinfo' (by simpa using hloop) hk
      exact ⟨r :: left, reset, .skip hskip hsweep, by simp [hleft], hrest⟩
    · have hidx₁ : IndexOk s₁.flds.length s₁.info := by
        rw [hinfo₁, hframe.length]
        rw [hinfo] at hidx
        exact (hidx.reset hn).2
      cases rest with
      | nil =>
        obtain ⟨-, rfl⟩ := Cmd.pure_eq_some.mp hloop
        refine ⟨[zeroFldInfoRec], [r], .last hment, by simpa using hinfo₁, hframe, hidx₁, ?_⟩
        simpa using hflds
      | cons r' rest =>
        have hinfo' : s₁.info = (before ++ [r']) ++ (rest ++ [zeroFldInfoRec]) := by simp [hinfo₁]
        obtain ⟨left, reset, hsweep, hleft, hframe', hidx', hflds'⟩ :=
          ih (hframe.length.trans_le hn) hidx₁ hinfo' (by simpa using hloop) (by simpa using hk)
        refine ⟨r' :: left, r :: reset, .reset hment hsweep, by simp [hleft], hframe.trans hframe',
          hidx', fun j => ?_⟩
        rw [hflds' j, hflds j]
        by_cases hr : r.Lists fldId j
        · simp [hr]
        · simp [hr]

end Loop

/-! ### The whole deletion -/

section Delete

variable {env : Env} {fldId : Nat} {s s' : Store}

lemma delNnFld_eq_some {nnFldId : Int} {st : Bool}
    (h : delNnFld env fldId nnFldId s = (some st, s')) :
    Frame s s' ∧ s'.info = s.info ∧
      ∀ j : Nat, s'.fld j = if j = nnFldId then zeroFldRec else s.fld j := by
  unfold delNnFld at h
  by_cases hnn : 0 ≤ nnFldId
  · rw [if_pos hnn, Cmd.get_bind] at h
    obtain ⟨-, h⟩ := Cmd.require_bind_eq_some.mp h
    obtain ⟨st₁, s₁, hdel, h⟩ := Cmd.bind_eq_some.mp h
    rw [Cmd.modify_bind] at h
    obtain ⟨-, rfl⟩ := Cmd.pure_eq_some.mp h
    have hsame : SameRecs s s₁ ∧ Frame s s₁ := by
      rw [Cmd.status_apply] at hdel
      obtain rfl := (Prod.ext_iff.mp hdel).2
      exact ⟨when_qDelete_sameRecs .., when_qDelete_frame ..⟩
    obtain ⟨hsame, hframe⟩ := hsame
    refine ⟨hframe.trans (Frame.setFld ..), hsame.info, fun j => ?_⟩
    rw [Store.fld_setFld_zero, hsame.fld]
    have hj : j = nnFldId.toNat ↔ (j : Int) = nnFldId := by omega
    simp only [hj]
  · rw [if_neg hnn] at h
    obtain ⟨-, rfl⟩ := Cmd.pure_eq_some.mp h
    refine ⟨Frame.refl s', rfl, fun j => ?_⟩
    rw [if_neg (by omega)]

/-- A successful deletion of a field. -/
structure Deleted (fldId : Nat) (s s' : Store) (reset : List FldInfo) : Prop where
  primary : (s.fld fldId).auxtype = .undefAuxtype
  unused : ∀ r ∈ s.info, r.mode = .fkFldTxtLkp → r.xxx ≠ fldId
  sweep : Sweep fldId s.info s'.info reset
  frame : Frame s s'
  index : IndexOk s'.flds.length s'.info
  flds : ∀ j : Nat, s'.fld j =
    if j = fldId ∨ j = (s.fld fldId).nnFldId ∨ ∃ r ∈ reset, r.Lists fldId j then zeroFldRec
    else s.fld j

lemma delFldAt_eq_some (hn : s.flds.length ≤ 32768) (hidx : IndexOk s.flds.length s.info)
    (h : delFldAt env fldId s = (some (), s')) : ∃ reset, Deleted fldId s s' reset := by
  unfold delFldAt at h
  rw [Cmd.get_bind] at h
  obtain ⟨hunused, h⟩ := Cmd.require_bind_eq_some.mp h
  obtain ⟨hprimary, h⟩ := Cmd.require_bind_eq_some.mp h
  obtain ⟨_, s₁, hunlink, hrun⟩ := Cmd.bind_eq_some.mp h
  have hsame : SameRecs s s₁ ∧ Frame s s₁ := by
    obtain rfl := (Prod.ext_iff.mp hunlink).2
    exact ⟨when_qDelete_sameRecs .., when_qDelete_frame ..⟩
  obtain ⟨hsame, hframe₁⟩ := hsame
  rw [Cmd.modify_bind] at hrun
  obtain ⟨st₂, s₂, hnn, hrun⟩ := Cmd.bind_eq_some.mp hrun
  obtain ⟨st₃, s₃, hloop, hrun⟩ := Cmd.bind_eq_some.mp hrun
  obtain ⟨-, rfl⟩ := Cmd.require_eq_some.mp hrun
  obtain ⟨hframe₂, hinfo₂, hfld₂⟩ := delNnFld_eq_some hnn
  have hframe : Frame s s₂ := (hframe₁.trans (Frame.setFld ..)).trans hframe₂
  have hinfo₂' : s₂.info = [] ++ s.info := by
    rw [hinfo₂, Store.setFld_info, hsame.info, List.nil_append]
  have hidx₂ : IndexOk s₂.flds.length s₂.info := by
    rw [hframe.length, hinfo₂']
    exact hidx
  rw [List.range_eq_range'] at hloop
  obtain ⟨left, reset, hsweep, hleft, hframe₃, hidx₃, hfld₃⟩ :=
    delInfoLoop_eq_some (hframe.length.trans_le hn) hidx₂ hinfo₂' hloop
  rw [List.nil_append] at hleft
  refine ⟨reset, hprimary, ?_, hleft ▸ hsweep, hframe.trans hframe₃, hidx₃, fun j => ?_⟩
  · intro r hr hmode hx
    exact hunused (List.any_eq_true.mpr ⟨r, hr, by simp [hmode, hx]⟩)
  · rw [hfld₃ j, hfld₂ j, Store.fld_setFld_zero, hsame.fld]
    by_cases h1 : j = fldId
    · simp [h1]
    · by_cases h2 : (j : Int) = (s.fld fldId).nnFldId
      · simp [h2]
      · simp [h1, h2]

lemma delFld_of_isFld {tbl fld : Name} {tblId : Nat} (htbl : tbl ≠ []) (hfld : fld ≠ [])
    (htblId : isTbl s tbl = some tblId) (hfldId : isFld s tblId fld = some fldId) :
    delFld env tbl (-1) fld (-1) s = delFldAt env fldId s := by
  unfold delFld lookupTbl lookupFld
  simp [Cmd.bind_apply, htbl, hfld, htblId, hfldId]

end Delete

end Datacl
