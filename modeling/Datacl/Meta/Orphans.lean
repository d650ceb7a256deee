import Datacl.Meta.DelFld

/-!
# What a deletion leaves behind
-/

namespace Datacl

/-- The field is an auxiliary field of another one: its nn field, listed in the index as its
lengths or offsets, or naming it as parent. -/
def AuxOf (s : Store) (fldId auxId : Nat) : Prop :=
  (s.fld auxId).Used ∧ ((s.fld fldId).nnFldId = auxId ∨ (∃ r ∈ s.info, r.Lists fldId auxId) ∨
    (s.fld auxId).parentId = fldId)

/-- After the deletion of a field no record of the index has it as parent, and its auxiliary
fields are gone. -/
def NoOrphans (fldId : Nat) (s s' : Store) : Prop :=
  (∀ r ∈ s'.info, ¬ r.Mentions fldId) ∧ ∀ auxId, AuxOf s fldId auxId → s'.fld auxId = zeroFldRec

/-- A field that names another one as parent is its nn field or listed for it in the index. -/
def Listed (s : Store) (fldId : Nat) : Prop :=
  ∀ auxId, (s.fld auxId).Used → (s.fld auxId).parentId = fldId →
    (s.fld fldId).nnFldId = auxId ∨ ∃ r ∈ s.info, r.Lists fldId auxId

lemma not_used_zeroFldRec : ¬ zeroFldRec.Used := fun h => h rfl

lemma Deleted.noOrphans_iff {fldId : Nat} {s s' : Store} {reset : List FldInfo}
    (h : Deleted fldId s s' reset) (hparent : (s.fld fldId).parentId < 0) :
    NoOrphans fldId s s' ↔ Apart fldId s.info ∧ Listed s fldId := by
  constructor
  · rintro ⟨hindex, haux⟩
    constructor
    · by_contra hapart
      obtain ⟨r, hr, hment⟩ := h.sweep.incomplete hapart
      exact hindex r hr hment
    · intro auxId hused hpar
      have hzero := haux auxId ⟨hused, .inr (.inr hpar)⟩
      rw [h.flds auxId] at hzero
      by_cases hcond : auxId = fldId ∨ (auxId : Int) = (s.fld fldId).nnFldId ∨
          ∃ r ∈ reset, r.Lists fldId auxId
      · rcases hcond with rfl | hnn | ⟨r, hr, hlists⟩
        · omega
        · exact .inl hnn.symm
        · exact .inr ⟨r, (h.sweep.reset_mentions r hr).1, hlists⟩
      · rw [if_neg hcond] at hzero
        rw [hzero] at hused
        exact absurd hused not_used_zeroFldRec
  · rintro ⟨hapart, hlisted⟩
    obtain ⟨hleft, hreset⟩ := h.sweep.complete hapart
    refine ⟨hleft, ?_⟩
    rintro auxId ⟨hused, haux⟩
    have hlink : (s.fld fldId).nnFldId = auxId ∨ ∃ r ∈ s.info, r.Lists fldId auxId := by
      rcases haux with hnn | hlists | hpar
      · exact .inl hnn
      · exact .inr hlists
      · exact hlisted auxId hused hpar
    rw [h.flds auxId, if_pos]
    rcases hlink with hnn | ⟨r, hr, hlists⟩
    · exact .inr (.inl hnn.symm)
    · exact .inr (.inr ⟨r, hreset r hr hlists.mentions, hlists⟩)

/-- A successful deletion of a primary field leaves no orphan exactly if no two consecutive
records of the index have the field as parent, and the fields that name it as parent are linked
from it. -/
theorem delFld_noOrphans_iff (env : Env) (s s' : Store) (tbl fld : Name) (tblId fldId : Nat)
    (hn : s.flds.length ≤ 32768) (hidx : IndexOk s.flds.length s.info) (htbl : tbl ≠ [])
    (hfld : fld ≠ []) (htblId : isTbl s tbl = some tblId) (hfldId : isFld s tblId fld = some fldId)
    (hparent : (s.fld fldId).parentId < 0)
    (hrun : delFld env tbl (-1) fld (-1) s = (some (), s')) :
    NoOrphans fldId s s' ↔ Apart fldId s.info ∧ Listed s fldId := by
  rw [delFld_of_isFld htbl hfld htblId hfldId] at hrun
  obtain ⟨reset, hdel⟩ := delFldAt_eq_some hn hidx hrun
  exact hdel.noOrphans_iff hparent

/-- Every name hashes to its length; there is one data directory. -/
def lengthEnv : Env := ⟨List.length, [true], fun _ => some 0⟩

/-- A table `T` of two rows with a field `a` of strings, as `add_fld` and `add_aux_fld` leave it. -/
def stringStore : Store :=
  let recA : FldRec := { zeroFldRec with
    tblId := 0, ddirId := 0, fldtype := .SV, name := ['a'], fileno := 1, filesz := 8 }
  let aux : FldRec := { zeroFldRec with tblId := 0, ddirId := 0, parentId := 1 }
  { tbls := [⟨2, false, ['T'], .regular⟩]
    flds := [zeroFldRec, recA,
      { aux with fldtype := .I2, auxtype := .len, name := auxPrefix .len ++ ['a'], fileno := 2, filesz := 4 },
      { aux with fldtype := .I8, auxtype := .off, name := auxPrefix .off ++ ['a'], fileno := 3, filesz := 16 }]
    info := [⟨.fkFldLen, 0, 1, 2, 0⟩, ⟨.fkFldOff, 0, 1, 3, 0⟩, zeroFldInfoRec]
    nextFileno := 4
    disk := fun d n =>
      if d = 0 ∧ n = 1 then some ⟨1, [104, 105, 0, 104, 101, 108, 111, 0]⟩
      else if d = 0 ∧ n = 2 then some ⟨2, [2, 4]⟩
      else if d = 0 ∧ n = 3 then some ⟨8, [0, 3]⟩
      else none }

lemma stringStore_index : IndexOk stringStore.flds.length stringStore.info := by
  constructor
  · decide
  · intro r hr
    simp only [stringStore, List.mem_cons, List.not_mem_nil, or_false] at hr
    rcases hr with rfl | rfl | rfl
    · exact .inr (by decide)
    · exact .inr (by decide)
    · exact .inl rfl

theorem delFld_noOrphans_iff_strings :
    ∃ s', delFld lengthEnv ['T'] (-1) ['a'] (-1) stringStore = (some (), s') ∧
      (NoOrphans 1 stringStore s' ↔ Apart 1 stringStore.info ∧ Listed stringStore 1) := by
  have hrun : delFld lengthEnv ['T'] (-1) ['a'] (-1) stringStore =
      (some (), (delFld lengthEnv ['T'] (-1) ['a'] (-1) stringStore).2) :=
    Prod.ext (by decide +kernel) rfl
  exact ⟨_, hrun, delFld_noOrphans_iff lengthEnv stringStore _ ['T'] ['a'] 0 1 (by decide)
    stringStore_index (by decide) (by decide) (by decide) (by decide) (by decide) hrun⟩

/-- The offsets of a string field survive its deletion. -/
theorem delFld_leaves_offsets :
    chkMeta lengthEnv stringStore = true ∧ IndexOk stringStore.flds.length stringStore.info ∧
      isTbl stringStore ['T'] = some 0 ∧ isFld stringStore 0 ['a'] = some 1 ∧
      ∃ s', delFld lengthEnv ['T'] (-1) ['a'] (-1) stringStore = (some (), s') ∧
        ¬ NoOrphans 1 stringStore s' := by
  refine ⟨by decide +kernel, stringStore_index, by decide, by decide,
    (delFld lengthEnv ['T'] (-1) ['a'] (-1) stringStore).2, Prod.ext (by decide +kernel) rfl, ?_⟩
  rintro ⟨-, haux⟩
  have hoff := haux 3 ⟨by decide, .inr (.inr (by decide))⟩
  revert hoff
  decide +kernel

end Datacl
