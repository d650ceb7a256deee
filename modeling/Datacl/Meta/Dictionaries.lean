import Datacl.Meta.IndexRuns

/-!
# Dictionaries

`int_set_meta` puts the dictionary of a field into the index beside those that the field has, and a
lookup finds the one in the least slot.
-/

namespace Datacl

/-- The field that a value `tbl:fld` names. -/
def namedFld (s : Store) (value : List Char) : Option Nat := do
  let strtbl ← readNthVal value [':'] 0 128
  let strfld ← readNthVal value [':'] 1 128
  let tblId ← isTbl s strtbl
  isFld s tblId strfld

/-- No dictionary of the field is in a slot below `d`. -/
def NoLesserDict (s : Store) (fldId d : Int) : Prop :=
  ∀ r ∈ s.info, r.mode = .fkFldTxtLkp → r.fldId = fldId → d ≤ r.xxx

variable {env : Env} {stoF8 : List Char → Option Int} {s s' : Store} {n : Nat}

/-! ### One call -/

lemma setDictFld_eq_some {fldId : Nat} {value : List Char}
    (h : setDictFld fldId value s = (some (), s')) :
    ∃ d info, namedFld s value = some d ∧ s' = { s with info := info } ∧
      addToFldInfo s.flds.length fldId .fkFldTxtLkp d s.info = (some (), info) := by
  unfold setDictFld at h
  obtain ⟨strtbl, htbl, h⟩ := Cmd.ofOption_bind_eq_some.mp h
  obtain ⟨-, h⟩ := Cmd.require_bind_eq_some.mp h
  obtain ⟨strfld, hfld, h⟩ := Cmd.ofOption_bind_eq_some.mp h
  obtain ⟨-, h⟩ := Cmd.require_bind_eq_some.mp h
  rw [Cmd.get_bind] at h
  obtain ⟨t, ht, h⟩ := Cmd.ofOption_bind_eq_some.mp h
  obtain ⟨d, hd, h⟩ := Cmd.ofOption_bind_eq_some.mp h
  obtain ⟨-, h⟩ := Cmd.require_bind_eq_some.mp h
  have hname : namedFld s value = some d := by
    rw [namedFld, htbl, hfld]
    show (isTbl s strtbl).bind (fun t : Nat => isFld s t strfld) = some d
    rw [ht]
    exact hd
  rw [onInfo, Cmd.on_apply] at h
  obtain ⟨hret, rfl⟩ := Prod.mk.inj h
  exact ⟨d, _, hname, rfl, Prod.ext hret rfl⟩

lemma intSetMeta_dict_eq_some {tblId fldId : Int} {value : List Char} {isInternal : Bool}
    (h : intSetMeta env stoF8 tblId fldId .dictFld value isInternal s = (some (), s')) :
    ∃ d info, namedFld s value = some d ∧ s' = { s with info := info } ∧
      addToFldInfo s.flds.length fldId .fkFldTxtLkp d s.info = (some (), info) := by
  obtain ⟨i, rfl, -, -, hset⟩ := intSetMeta_eq_some (by simp) h
  exact setDictFld_eq_some hset

lemma intUnsetMeta_dict_eq_some {tblId fldId : Int}
    (h : intUnsetMeta env tblId fldId .dictFld s = (some (), s')) :
    s' = { s with info := zeroFldInfo (fun r => r.fldId = fldId ∧ r.mode = .fkFldTxtLkp) s.info } := by
  obtain ⟨i, rfl, -, -, hunset⟩ := intUnsetMeta_eq_some (by simp) h
  rw [unsetAttr, Cmd.get_bind, onInfo, Cmd.on_apply] at hunset
  obtain ⟨hret, rfl⟩ := Prod.mk.inj hunset
  exact congrArg (fun info => { s with info := info }) (delFromFldInfo1_eq_some (Prod.ext hret rfl))

/-! ### Lookups -/

/-- The dictionary that is added is found if and only if no other one is in a lesser slot. -/
lemma Indexed.lookup_added (hn : n ≤ 32768) (h : Indexed n s) {fldId d : Int} {info : List FldInfo}
    (hadd : addToFldInfo n fldId .fkFldTxtLkp d s.info = (some (), info)) :
    getFldInfo .fkFldTxtLkp fldId info = d ↔ NoLesserDict s fldId d := by
  obtain ⟨hidx, hmem⟩ := h.index.add hn hadd
  have hmode : FldInfoMode.fkFldTxtLkp ≠ .undefFldInfo := by decide
  have hnew : (⟨.fkFldTxtLkp, 0, fldId, d, 0⟩ : FldInfo) ∈ info := (hmem _ hmode).mpr (.inr rfl)
  constructor
  · intro hfound r hr hm hf
    have hused : r.mode ≠ .undefFldInfo := hm ▸ hmode
    have hle := getFldInfo_le hn hidx ((hmem r hused).mpr (.inl hr)) hused
    rwa [hm, hf, hfound] at hle
  · intro hleast
    have hle : getFldInfo .fkFldTxtLkp fldId info ≤ d := getFldInfo_le hn hidx hnew hmode
    rcases getFldInfo_spec hn hidx hmode fldId with ⟨-, r, hr, hm, hf, hx⟩ | ⟨-, hnone⟩
    · have hge : d ≤ r.xxx := by
        rcases (hmem r (hm ▸ hmode)).mp hr with hold | rfl
        · exact hleast r hold hm hf
        · exact le_refl d
      omega
    · exact absurd rfl (hnone _ hnew rfl)

lemma Indexed.lookup_cleared (hn : n ≤ 32768) (h : Indexed n s) (mode : FldInfoMode)
    (hmode : mode ≠ .undefFldInfo) (fldId : Int) :
    getFldInfo mode fldId (zeroFldInfo (fun r => r.fldId = fldId ∧ r.mode = mode) s.info) = -1 := by
  obtain ⟨hidx, hmem⟩ := h.index.zeroFldInfo fun r => r.fldId = fldId ∧ r.mode = mode
  rcases getFldInfo_spec hn hidx hmode fldId with ⟨-, r, hr, hm, hf, -⟩ | ⟨hneg, -⟩
  · obtain ⟨-, hp⟩ := (hmem r (hm ▸ hmode)).mp hr
    simp [hm, hf] at hp
  · exact hneg

lemma indexed_empty (nTbl nFld nFldInfo : Nat) (disk : Int → Int → Option DataFile) :
    Indexed nFld (Store.empty nTbl nFld nFldInfo disk) :=
  ⟨List.length_replicate, (represents_nil nFld nFldInfo).index⟩

/-- In every state that any calls leave, failed ones included, a dictionary that is set is the one
looked up if and only if the field has none in a lesser slot, and none is looked up once it is
unset. -/
theorem dictFld_takes_effect_iff (env : Env) (stoF8 : List Char → Option Int)
    (nTbl nFld nFldInfo : Nat) (hn : nFld ≤ 32768) (disk : Int → Int → Option DataFile)
    (calls : List IndexCall) (tblId fldId : Int) :
    let s := Cmd.after (IndexCall.exec env stoF8) (Store.empty nTbl nFld nFldInfo disk) calls
    (∀ value isInternal d s', namedFld s value = some d →
      intSetMeta env stoF8 tblId fldId .dictFld value isInternal s = (some (), s') →
        (getFldInfo .fkFldTxtLkp fldId s'.info = d ↔ NoLesserDict s fldId d)) ∧
      ∀ s', intUnsetMeta env tblId fldId .dictFld s = (some (), s') →
        getFldInfo .fkFldTxtLkp fldId s'.info = -1 := by
  intro s
  have h : Indexed nFld s :=
    Cmd.keeps_after (keeps_exec hn) (indexed_empty nTbl nFld nFldInfo disk) calls
  constructor
  · intro value isInternal d s' hname hrun
    obtain ⟨d', info, hname', rfl, hadd⟩ := intSetMeta_dict_eq_some hrun
    obtain rfl : d = d' := Option.some.inj (hname.symm.trans hname')
    rw [h.length] at hadd
    exact h.lookup_added hn hadd
  · intro s' hrun
    rw [intUnsetMeta_dict_eq_some hrun]
    exact h.lookup_cleared hn .fkFldTxtLkp (by simp) fldId

/-! ### Two dictionaries -/

/-- Two columns of fixed strings and one of small numbers. -/
def dictFiles : Int → Int → Option DataFile :=
  fun d n => if d = 0 ∧ (n = 1 ∨ n = 2) then some ⟨3, [7, 8]⟩
    else if d = 0 ∧ n = 3 then some ⟨1, [7, 8]⟩ else none

/-- The table `T` with the fields `d` and `e` of strings in slots 0 and 1, and `f` of numbers. -/
def dictCalls : List IndexCall :=
  [.addTbl ['T'] 2, .addFld 0 ['d'] 0 1 { zeroFldRec with fldtype := .SC, len := 2 },
    .addFld 0 ['e'] 0 2 { zeroFldRec with fldtype := .SC, len := 2 },
    .addFld 0 ['f'] 0 3 { zeroFldRec with fldtype := .I1 }]

/-- The store in which `f` has one of them as its dictionary. -/
def dictStore (value : List Char) : Store :=
  Cmd.after (IndexCall.exec shortEnv fun _ => none) (Store.empty 1 3 2 dictFiles)
    (dictCalls ++ [.setMeta 0 2 .dictFld value false])

/-- The dictionary `d` replaces `e`. -/
theorem dictFld_takes_effect_iff_lesser :
    getFldInfo .fkFldTxtLkp 2 (dictStore ['T', ':', 'e']).info = 1 ∧
      ∃ s', intSetMeta shortEnv (fun _ => none) 0 2 .dictFld ['T', ':', 'd'] false
        (dictStore ['T', ':', 'e']) = (some (), s') ∧ getFldInfo .fkFldTxtLkp 2 s'.info = 0 := by
  refine ⟨by decide +kernel, _, Prod.ext (by decide +kernel) rfl, ?_⟩
  have hiff := (dictFld_takes_effect_iff shortEnv (fun _ => none) 1 3 2 (by decide) dictFiles
    (dictCalls ++ [.setMeta 0 2 .dictFld ['T', ':', 'e'] false]) 0 2).1 ['T', ':', 'd'] false 0 _
      (by decide +kernel) (Prod.ext (by decide +kernel) rfl)
  refine hiff.mpr fun r hr _ _ => ?_
  have hnone : ∀ r ∈ (dictStore ['T', ':', 'e']).info, r.mode = .fkFldTxtLkp → (0 : Int) ≤ r.xxx := by
    decide +kernel
  exact hnone r hr ‹_›

/-- The dictionary `e` does not replace `d`. -/
theorem dictFld_keeps_lesser :
    namedFld (dictStore ['T', ':', 'd']) ['T', ':', 'e'] = some 1 ∧
      (intSetMeta shortEnv (fun _ => none) 0 2 .dictFld ['T', ':', 'e'] false
        (dictStore ['T', ':', 'd'])).1 = some () ∧
      getFldInfo .fkFldTxtLkp 2 (intSetMeta shortEnv (fun _ => none) 0 2 .dictFld ['T', ':', 'e'] false
        (dictStore ['T', ':', 'd'])).2.info = 0 := by
  decide +kernel

end Datacl
