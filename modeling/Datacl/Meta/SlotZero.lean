import Datacl.Meta.Deletable
import Datacl.Meta.DelFld
import Datacl.Meta.NamesRun

/-!
# Deleting the field in slot 0

The last loop of `del_fld` takes the unused records of the index for records of the field in slot 0,
whose number they carry, and gives up at the first of them; the field has been erased by then. It gives
up as well if the null field is external, since it compares the flag of the erased record.
-/

namespace Datacl

/-- The metadata is consistent: fields, auxiliary fields and the index refer to each other, names are
unique, the used records of the index are distinct and the data files can be unlinked. -/
structure ConsistentMeta (env : Env) (s : Store) : Prop where
  inv : MetaInv s
  names : UniqueNames s
  distinct : ∀ r : FldInfo, r.mode ≠ .undefFldInfo → s.info.count r ≤ 1
  files : ∀ i, (s.fld i).Used → FileOk env (s.fld i)

/-- The call is for the field in slot `i`: the slots or the names that are passed say so. -/
def CallsFor (s : Store) (tbl : Name) (tblId : Int) (fld : Name) (fldId : Int) (i : Nat) : Prop :=
  ∃ t : Int, (0 ≤ tblId ∧ t = tblId ∨ tblId < 0 ∧ tbl ≠ [] ∧ (isTbl s tbl).map Nat.cast = some t) ∧
    (fldId = i ∨ fldId < 0 ∧ fld ≠ [] ∧ isFld s t fld = some i)

section

variable {env : Env} {s s' : Store} {i : Nat}

lemma delFld_eq_delFldAt {tbl fld : Name} {tblId fldId : Int}
    (h : CallsFor s tbl tblId fld fldId i) : delFld env tbl tblId fld fldId s = delFldAt env i s := by
  obtain ⟨t, htbl, hfld⟩ := h
  have htbl' : lookupTbl tbl tblId s = (some (some t), s) := by
    unfold lookupTbl
    rcases htbl with ⟨h0, rfl⟩ | ⟨hneg, hne, hfind⟩
    · rw [if_pos h0]
      rfl
    · obtain ⟨k, hk, rfl⟩ := Option.map_eq_some_iff.mp hfind
      rw [if_neg (not_le.mpr hneg), Cmd.require_bind, if_pos hne, Cmd.get_bind, hk]
      rfl
  have hfld' : lookupFld t fld fldId s = (some (some i), s) := by
    unfold lookupFld
    rcases hfld with rfl | ⟨hneg, hne, hfind⟩
    · rw [if_pos (Int.natCast_nonneg i)]
      rfl
    · rw [if_neg (not_le.mpr hneg), Cmd.require_bind, if_pos hne, Cmd.get_bind]
      exact congrArg (fun o => (some o, s)) hfind
  unfold delFld
  rw [Cmd.bind_of_eq htbl']
  dsimp only
  rw [Cmd.bind_of_eq hfld']

/-! ### What stops the deletion -/

/-- A walk for slot 0 does not come behind an unused record. -/
lemma Sweep.zero_not_mem {info left reset : List FldInfo} (h : Sweep 0 info left reset) :
    zeroFldInfoRec ∉ info := by
  induction h with
  | nil => exact List.not_mem_nil
  | skip hskip _ ih =>
    rw [List.mem_cons, not_or]
    refine ⟨?_, ih⟩
    rintro rfl
    exact hskip rfl
  | last h =>
    rw [List.mem_singleton]
    rintro rfl
    exact not_mentions_zero 0 h
  | reset h _ ih => exact absurd (List.mem_append_right _ (List.mem_singleton_self _)) ih

/-- A deletion that goes through finds an nn field that is not external. -/
lemma delFldAt_nn_internal (hne : (s.fld i).nnFldId ≠ i) (h : delFldAt env i s = (some (), s'))
    (hnn : 0 ≤ (s.fld i).nnFldId) : (s.fld (s.fld i).nnFldId.toNat).isExternal = false := by
  unfold delFldAt at h
  rw [Cmd.get_bind] at h
  obtain ⟨-, h⟩ := Cmd.require_bind_eq_some.mp h
  obtain ⟨-, h⟩ := Cmd.require_bind_eq_some.mp h
  obtain ⟨_, s₁, hunlink, h⟩ := Cmd.bind_eq_some.mp h
  have hsame : SameRecs s s₁ := by
    obtain rfl := (Prod.ext_iff.mp hunlink).2
    exact when_qDelete_sameRecs ..
  rw [Cmd.modify_bind] at h
  obtain ⟨st, s₂, hdel, -⟩ := Cmd.bind_eq_some.mp h
  unfold delNnFld at hdel
  rw [if_pos hnn, Cmd.get_bind] at hdel
  obtain ⟨hext, -⟩ := Cmd.require_bind_eq_some.mp hdel
  rw [Store.fld_setFld_zero, if_pos rfl, Store.fld_setFld_zero, if_neg (by omega), hsame.fld] at hext
  exact hext.symm

/-! ### What lets it go through -/

lemma ConsistentMeta.auxOk (h : ConsistentMeta env s) {a : Nat} {k : AuxType}
    (hkind : (s.fld a).auxtype = k) (hk : k ≠ .undefAuxtype) (hparent : (s.fld a).parentId = i) :
    AuxOk env s i k a :=
  ⟨hkind, hparent, h.files a (h.inv.auxUsed (by rw [hkind]; exact hk))⟩

/-- The index refers to one auxiliary field of a kind, and by one record. -/
lemma ConsistentMeta.rec_unique (h : ConsistentMeta env s) {k : AuxType}
    (hk : k.mode ≠ .undefFldInfo) {r r' : FldInfo} (hr : r ∈ s.info) (hr' : r' ∈ s.info)
    (hm : r.mode = k.mode) (hm' : r'.mode = k.mode) (hfld : r.fldId = r'.fldId) : r = r' := by
  have hmode : r.mode ≠ .undefFldInfo := by rwa [hm]
  have hmode' : r'.mode ≠ .undefFldInfo := by rwa [hm']
  obtain ⟨p, a, hrec⟩ := h.inv.recs r hr hmode
  obtain ⟨p', a', hrec'⟩ := h.inv.recs r' hr' hmode'
  obtain rfl : p = p' :=
    Int.natCast_inj.mp (hrec.fldId.symm.trans (hfld.trans hrec'.fldId))
  obtain ⟨hak, hparent, -⟩ := hrec.aux k hk hm
  obtain ⟨hak', hparent', -⟩ := hrec'.aux k hk hm'
  have haux {b : Nat} (hb : (s.fld b).auxtype = k) (hpb : (s.fld b).parentId = p) : IsAux s p b := by
    obtain ⟨q, hq⟩ := h.inv.aux b (by rw [hb]; rintro rfl; exact hk rfl)
    obtain rfl : q = p := Int.natCast_inj.mp (hq.parent.symm.trans hpb)
    exact hq
  have hname : (s.fld a).name = (s.fld a').name := by
    rw [(haux hak hparent).name, (haux hak' hparent').name, hak, hak']
  have htbl := (haux hak hparent).tbl.trans (haux hak' hparent').tbl.symm
  obtain rfl := h.names.flds a a' hrec.auxUsed htbl hname
  rcases h.inv.index.ok r hr with rfl | ⟨-, h1, -, -, h2⟩
  · exact absurd rfl hmode
  rcases h.inv.index.ok r' hr' with rfl | ⟨-, h1', -, -, h2'⟩
  · exact absurd rfl hmode'
  cases r
  cases r'
  have hx := hrec.xxx.trans hrec'.xxx.symm
  simp_all

/-- The lengths, or the offsets, of a field have one record. -/
lemma ConsistentMeta.once (h : ConsistentMeta env s) (i : Nat) {k : AuxType}
    (hk : k.mode ≠ .undefFldInfo) :
    s.info.countP (fun r => r.fldId = (i : Int) ∧ r.mode = k.mode) ≤ 1 := by
  by_cases hany : ∃ r ∈ s.info, r.fldId = i ∧ r.mode = k.mode
  · obtain ⟨r, hr, hfld, hm⟩ := hany
    calc s.info.countP (fun r => r.fldId = (i : Int) ∧ r.mode = k.mode)
        ≤ s.info.count r := by
          apply List.countP_mono_left
          intro r' hr' h'
          obtain ⟨hfld', hm'⟩ := of_decide_eq_true h'
          rw [h.rec_unique hk hr' hr hm' hm (hfld'.trans hfld.symm)]
          exact beq_self_eq_true r
      _ ≤ 1 := h.distinct r (by rwa [hm])
  · rw [List.countP_eq_zero.mpr]
    · exact Nat.zero_le 1
    · intro r hr hdec
      exact hany ⟨r, hr, of_decide_eq_true hdec⟩

/-- Only the slot and the nn field can be in the way. -/
lemma ConsistentMeta.deletable (h : ConsistentMeta env s) (hused : (s.fld i).Used)
    (hprimary : (s.fld i).auxtype = .undefAuxtype) (h0 : i ≠ 0)
    (hnn : 0 ≤ (s.fld i).nnFldId → (s.fld (s.fld i).nnFldId.toNat).isExternal = false) :
    Deletable env s i := by
  refine ⟨hprimary, fun _ => h.files i hused, ?_, ?_, fun k hk => h.once i hk⟩
  · intro hnn0
    obtain ⟨a, ha, hkind, hparent⟩ := h.inv.nn i hnn0
    rw [ha] at hnn ⊢
    exact ⟨h.auxOk hkind (by decide) hparent, hnn (Int.natCast_nonneg a)⟩
  · intro r hr hi
    have hmode : r.mode ≠ .undefFldInfo := by
      intro hmode
      rw [(h.inv.index.ok r hr).eq_zero hmode] at hi
      exact h0 (Int.natCast_eq_zero.mp hi.symm)
    refine ⟨h0, hmode, fun htxt _ => ?_⟩
    obtain ⟨p, a, hrec⟩ := h.inv.recs r hr hmode
    obtain rfl : p = i := Int.natCast_inj.mp (hrec.fldId.symm.trans hi)
    have hkind : ∃ k : AuxType, k.mode = r.mode := by
      cases hm : r.mode with
      | undefFldInfo => exact absurd hm hmode
      | fkFldTxtLkp => exact absurd hm htxt
      | fkFldLen => exact ⟨.len, rfl⟩
      | fkFldOff => exact ⟨.off, rfl⟩
    obtain ⟨k, hk⟩ := hkind
    obtain ⟨hak, hparent, -⟩ := hrec.aux k (by rw [hk]; exact hmode) hk.symm
    rw [hrec.xxx]
    refine ⟨k, hk, h.auxOk hak ?_ hparent⟩
    rintro rfl
    exact hmode hk.symm

/-- In a state without auxiliary fields the index is not needed. -/
lemma NameInv.consistentMeta (h : NameInv env s) : ConsistentMeta env s where
  inv :=
    { length := h.length
      index := h.index
      unused := h.unused
      primary := fun i _ => by rw [(h.plain i).2.1]; decide
      aux := fun i hi => absurd (h.plain i).2.2 hi
      nn := fun p hp => by rw [(h.plain p).1] at hp; exact absurd hp (by decide)
      recs := fun r hr hm => absurd (congrArg FldInfo.mode (h.info r hr)) hm }
  names := h.names
  distinct r hm := by
    rw [List.count_eq_zero_of_not_mem]
    · exact Nat.zero_le 1
    · exact fun hr => hm (congrArg FldInfo.mode (h.info r hr))
  files := h.files

end

/-- With an unused record in the index a primary field that is no dictionary is deleted exactly if it is
not in slot 0 and has no external nn field. -/
theorem delFld_every_slot_iff (env : Env) (s : Store) (tbl fld : Name) (tblId fldId : Int) (i : Nat)
    (hmeta : ConsistentMeta env s) (hunused : ∃ r ∈ s.info, r.mode = .undefFldInfo)
    (hused : (s.fld i).Used) (hprimary : (s.fld i).auxtype = .undefAuxtype) (hdict : ¬ IsDict s i)
    (hcall : CallsFor s tbl tblId fld fldId i) :
    (∃ s', delFld env tbl tblId fld fldId s = (some (), s') ∧ s'.fld i = zeroFldRec) ↔
      i ≠ 0 ∧
      (0 ≤ (s.fld i).nnFldId → (s.fld (s.fld i).nnFldId.toNat).isExternal = false) := by
  rw [delFld_eq_delFldAt hcall]
  constructor
  · rintro ⟨s', hrun, -⟩
    constructor
    · rintro rfl
      obtain ⟨r, hr, hmode⟩ := hunused
      obtain ⟨reset, hdel⟩ := delFldAt_eq_some hmeta.inv.length hmeta.inv.index hrun
      rw [(hmeta.inv.index.ok r hr).eq_zero hmode] at hr
      exact hdel.sweep.zero_not_mem hr
    · intro hnn
      refine delFldAt_nn_internal ?_ hrun hnn
      intro heq
      obtain ⟨a, ha, hkind, -⟩ := hmeta.inv.nn i hnn
      obtain rfl : a = i := Int.natCast_inj.mp (ha.symm.trans heq)
      rw [hprimary] at hkind
      cases hkind
  · rintro ⟨h0, hnn⟩
    obtain ⟨s', hrun, -, -⟩ := delFldAt_succeeds (hmeta.deletable hused hprimary h0 hnn) hdict
    obtain ⟨reset, hdel⟩ := delFldAt_eq_some hmeta.inv.length hmeta.inv.index hrun
    exact ⟨s', hrun, by rw [hdel.flds i, if_pos (Or.inl rfl)]⟩

/-- A field of `B` with a short name. -/
lemma twoTables_consistent {fld : Name}
    (h : (Cmd.run (NameOp.exec shortEnv) (Store.empty 2 3 1 oneColumn) (twoTables fld)).isSome = true) :
    ConsistentMeta shortEnv (storeAfter (twoTables fld)) := by
  have hreach : Cmd.Reach (NameOp.exec shortEnv) RenameSlotFree (Store.empty 2 3 1 oneColumn)
      (storeAfter (twoTables fld)) := by
    refine Cmd.reach_of_run ?_ (run_storeAfter h)
    intro op hop s
    simp only [twoTables, List.mem_cons, List.not_mem_nil, or_false] at hop
    rcases hop with rfl | rfl | rfl <;> trivial
  have hinv : NameInv shortEnv (storeAfter (twoTables fld)) :=
    Cmd.Reach.invariant (fun _ _ _ hs hok hrun => hs.step hok hrun)
      (nameInv_empty shortEnv 2 3 1 (by decide) oneColumn) hreach
  exact hinv.consistentMeta

/-- The field `ab` of `B` is in slot 1 and can be deleted. -/
theorem delFld_every_slot_iff_one :
    ∃ s', delFld shortEnv ['B'] (-1) ['a', 'b'] (-1) (storeAfter (twoTables ['a', 'b'])) =
      (some (), s') ∧ s'.fld 1 = zeroFldRec := by
  apply (delFld_every_slot_iff shortEnv (storeAfter (twoTables ['a', 'b'])) ['B'] ['a', 'b'] (-1) (-1) 1
    (twoTables_consistent (by decide +kernel)) ?_ (by decide +kernel) (by decide +kernel) ?_ ?_).mpr
  · exact ⟨by decide, by decide +kernel⟩
  · exact ⟨zeroFldInfoRec, by decide +kernel, rfl⟩
  · rintro ⟨r, hr, hm, -⟩
    have hinfo : (storeAfter (twoTables ['a', 'b'])).info = [zeroFldInfoRec] := by decide +kernel
    rw [hinfo, List.mem_singleton] at hr
    rw [hr] at hm
    cases hm
  · exact ⟨1, Or.inr ⟨by decide, by decide, by decide +kernel⟩,
      Or.inr ⟨by decide, by decide, by decide +kernel⟩⟩

/-- The field `a` of `B` is in slot 0: the deletion fails, and the field is gone. -/
theorem delFld_fails_in_slot_zero :
    ConsistentMeta shortEnv (storeAfter (twoTables ['a'])) ∧
      (storeAfter (twoTables ['a'])).info = [zeroFldInfoRec] ∧
      ((storeAfter (twoTables ['a'])).fld 0).auxtype = .undefAuxtype ∧
      CallsFor (storeAfter (twoTables ['a'])) ['B'] (-1) ['a'] (-1) 0 ∧
      (delFld shortEnv ['B'] (-1) ['a'] (-1) (storeAfter (twoTables ['a']))).1 = none ∧
      (delFld shortEnv ['B'] (-1) ['a'] (-1) (storeAfter (twoTables ['a']))).2.fld 0 = zeroFldRec := by
  refine ⟨twoTables_consistent (by decide +kernel), by decide +kernel, by decide +kernel, ?_,
    by decide +kernel, by decide +kernel⟩
  exact ⟨1, Or.inr ⟨by decide, by decide, by decide +kernel⟩,
    Or.inr ⟨by decide, by decide, by decide +kernel⟩⟩

end Datacl
