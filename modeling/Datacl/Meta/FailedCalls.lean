import Datacl.Meta.Deletable
import Datacl.Meta.Stats

/-!
# What failed calls leave behind

`int_set_meta` and `add_to_fld_info` write before their last check, `rename_fld` and `del_tbl` delete
fields before theirs. A call that fails changes no record if its values pass the checks after the
write, or the deletions go through, or it is refused before.
-/

namespace Datacl

/-- A call that changes records. -/
inductive MetaCall where
  | setMeta (tblId fldId : Int) (attr : Attr) (value : List Char) (isInternal : Bool)
  | addToFldInfo (fldId : Int) (mode : FldInfoMode) (auxId : Int)
  | renameFld (tbl oldFld newFld : Name)
  | delTbl (tbl : Name) (inTblId : Int)

/-- The call. -/
def MetaCall.exec (env : Env) (stoF8 : List Char → Option Int) : MetaCall → Cmd Store Unit
  | .setMeta tblId fldId attr value isInternal =>
    intSetMeta env stoF8 tblId fldId attr value isInternal
  | .addToFldInfo fldId mode auxId => do
    let s ← Cmd.get
    onInfo (Datacl.addToFldInfo s.flds.length fldId mode auxId)
  | .renameFld tbl oldFld newFld => Datacl.renameFld env tbl oldFld newFld
  | .delTbl tbl inTblId => Datacl.delTbl env tbl inTblId

/-- If the call fails, all records are as before. -/
def Harmless (env : Env) (stoF8 : List Char → Option Int) (s : Store) (call : MetaCall) : Prop :=
  Cmd.OnFailure (SameRecs s) (call.exec env stoF8) s

/-! ### The condition -/

/-- The checks that `int_set_meta` makes last. -/
def PassesChecks (env : Env) (s : Store) (tblId fldId : Int) : Prop :=
  chkTblMeta s tblId.toNat = true ∧
    (0 ≤ fldId → chkFldMeta env s fldId.toNat (s.tbl tblId.toNat).nR = true)

/-- The store `s'` with the new value passes the checks, or the value is not new. -/
def AttrAccepted (env : Env) (s s' : Store) (tblId fldId : Int) : Prop :=
  SameRecs s s' ∨ PassesChecks env s' tblId fldId

/-- A record of the index filled in. -/
def Store.addRef (s : Store) (i : Nat) (fldId : Int) (mode : FldInfoMode) (auxId : Int) : Store :=
  { s with info := sortFldInfo (s.info.set i { s.info.getD i zeroFldInfoRec with
      mode := mode, fldId := toShort fldId, xxx := toShort auxId }) }

/-- A record with a statistic and its count. -/
def FldRec.withStat (r : FldRec) (numNn v : Int) (stat : Stat) : FldRec :=
  { r with numNn := numNn }.setStat v stat

/-- The condition on a statistic: its count is no number, or the value is one and passes all checks,
or the write changes nothing. -/
def StatCond (env : Env) (stoF8 : List Char → Option Int) (s : Store) (tblId fldId : Int)
    (stat : Stat) (value : List Char) : Prop :=
  let r := s.fld fldId.toNat
  ∀ numNn, (readNthVal value [':'] 1 32).bind stoI8 = some numNn → 0 ≤ numNn →
    match (readNthVal value [':'] 0 32).bind fun buf => parseStat stoF8 buf r.fldtype with
    | none => SameRecs s (s.setFld fldId.toNat { r with numNn := numNn })
    | some v =>
      let r' := r.withStat numNn v stat
      SameRecs s (s.setFld fldId.toNat r') ∨
        minMaxOk r' = true ∧ (r'.isMinNn = true → statInRange r'.fldtype r'.minval = true) ∧
          (r'.isMaxNn = true → statInRange r'.fldtype r'.maxval = true) ∧
          PassesChecks env (s.setFld fldId.toNat r') tblId fldId

/-- The condition on `int_set_meta`: a value that is written is accepted. -/
def AttrCond (env : Env) (stoF8 : List Char → Option Int) (s : Store) (tblId fldId : Int)
    (value : List Char) (isInternal : Bool) : Attr → Prop
  | .tbltype => ∀ f, unstrTbltype value = some .txtLkp →
    isFld s tblId.toNat ['t', 'x', 't'] = some f → (s.fld f).fldtype = .SV →
      AttrAccepted env s (s.setTbl tblId.toNat { s.tbl tblId.toNat with tbltype := .txtLkp }) tblId fldId
  | .dictFld => ∀ strtbl strfld t d i, readNthVal value [':'] 0 128 = some strtbl →
    readNthVal value [':'] 1 128 = some strfld → isTbl s strtbl = some t →
      isFld s t strfld = some d → s.info.findIdx? (fun r => r.mode = .undefFldInfo) = some i →
        AttrAccepted env s (s.addRef i fldId.toNat .fkFldTxtLkp d) tblId fldId
  | .stat stat => StatCond env stoF8 s tblId fldId stat value
  | .fldtype => ∀ t, unstrFldtype value = some t →
    isInternal = true ∨ castOk (s.fld fldId.toNat).fldtype t = true →
      AttrAccepted env s (s.setFld fldId.toNat { s.fld fldId.toNat with fldtype := t }) tblId fldId
  | .srttype => ∀ t, unstrSrttype value = some t → t = .unknown ∨ isInternal = true →
    AttrAccepted env s (s.setFld fldId.toNat { s.fld fldId.toNat with srttype := t }) tblId fldId
  | .external => isInternal = true → value = "true".toList ∨ value = "false".toList →
    AttrAccepted env s (s.setFld fldId.toNat
      { s.fld fldId.toNat with isExternal := value = "true".toList }) tblId fldId
  | .other => True

/-- The condition on `add_to_fld_info`: the mode is a kind of reference and the auxiliary field a
slot, unless the call is refused before it writes. -/
def AddCond (s : Store) (fldId : Int) (mode : FldInfoMode) (auxId : Int) : Prop :=
  0 ≤ fldId → fldId < s.flds.length → ∀ i, s.info.findIdx? (fun r => r.mode = .undefFldInfo) = some i →
    mode ≠ .undefFldInfo ∧ 0 ≤ auxId ∧ auxId < s.flds.length ∨
      mode = .undefFldInfo ∧ (s.info.getD i zeroFldInfoRec).fldId = toShort fldId

/-- An nn field cut off from its parent. -/
def Store.cutNn (s : Store) (o : Nat) : Store :=
  let parent := (s.fld o).parentId.toNat
  let s₁ := s.setFld parent { s.fld parent with nnFldId := -1 }
  s₁.setFld o { s₁.fld o with parentId := -1, auxtype := .undefAuxtype }

/-- The condition on `rename_fld`. -/
def RenameCond (env : Env) (s : Store) (tbl oldFld newFld : Name) : Prop :=
  ∀ t o, isTbl s tbl = some t → isFld s t oldFld = some o →
    let old := s.fld o
    let goesThrough := fun s' : Store => chkFldName newFld = true ∧
      (0 ≤ old.nnFldId → newFld.length + (auxPrefix .nn).length ≤ maxLenName) ∧
        ∀ j, isFld s t newFld = some j → Deletable env s' j ∧ ¬ IsDict s' j
    if 0 ≤ old.parentId then
      (s.fld old.parentId.toNat).nnFldId = o → old.fldtype = .I1 ∨ old.fldtype = .B →
        goesThrough (s.cutNn o)
    else
      goesThrough s ∨ match isFld s t newFld with
        | none => chkFldName newFld = false
        | some j => Refused env s j

/-- A field that `del_tbl` deletes. -/
def PrimaryOf (s : Store) (t j : Nat) : Prop :=
  (s.fld j).tblId = t ∧ (s.fld j).auxtype = .undefAuxtype

/-- A dictionary among the fields of the table is used by a field that is deleted before it, which has
no other record in the index. -/
def DictsFirst (s : Store) (t k j : Nat) : Prop :=
  ∀ r ∈ s.info, r.mode = .fkFldTxtLkp → r.xxx = j → ∃ i, k ≤ i ∧ i < j ∧ r.fldId = i ∧
    PrimaryOf s t i ∧ s.info.countP (fun r => r.fldId = (i : Int)) ≤ 1

/-- The condition on `del_tbl`: all fields can be deleted, or the first one is refused. -/
def DelTblCond (env : Env) (s : Store) (t : Nat) : Prop :=
  (s.tbl t).tbltype = .regular ∨ (s.tbl t).tbltype = .txtLkp →
    (∀ j < s.flds.length, PrimaryOf s t j → Deletable env s j ∧ DictsFirst s t 0 j) ∨
      ∃ i < s.flds.length, PrimaryOf s t i ∧ Refused env s i ∧ ∀ j < i, ¬ PrimaryOf s t j

/-- The condition on a call. -/
def CallCond (env : Env) (stoF8 : List Char → Option Int) (s : Store) : MetaCall → Prop
  | .setMeta tblId fldId attr value isInternal =>
    AttrCond env stoF8 s tblId fldId value isInternal attr
  | .addToFldInfo fldId mode auxId => AddCond s fldId mode auxId
  | .renameFld tbl oldFld newFld => RenameCond env s tbl oldFld newFld
  | .delTbl tbl inTblId => ∀ t, givenTbl s tbl inTblId = some t → DelTblCond env s t.toNat

section

variable {env : Env} {stoF8 : List Char → Option Int} {s s' : Store}

/-! ### `int_set_meta` -/

lemma onFailure_chkAttr {tblId fldId : Int} (h : AttrAccepted env s s' tblId fldId) :
    Cmd.OnFailure (SameRecs s) (chkAttr env tblId fldId) s' := by
  rcases h with hsame | ⟨htbl, hfld⟩
  · unfold chkAttr
    refine Cmd.onFailure_require_bind hsame fun _ => ?_
    exact Cmd.onFailure_require fun _ => hsame
  · have hrun : chkAttr env tblId fldId s' = (some (), s') := by
      unfold chkAttr
      rw [Cmd.get_bind, Cmd.require_bind, if_pos htbl]
      exact Cmd.require_pos hfld s'
    exact Cmd.onFailure_of_eq_some hrun

/-- The write of an attribute fails without a change, or what it writes is accepted. -/
def WriteOk (env : Env) (s : Store) (tblId fldId : Int) (c : Cmd Store Unit) : Prop :=
  Cmd.OnFailure (SameRecs s) c s ∧ ∀ s', c s = (some (), s') → AttrAccepted env s s' tblId fldId

lemma writeOk_require_bind {tblId fldId : Int} {p : Prop} [Decidable p] {f : Unit → Cmd Store Unit}
    (h : p → WriteOk env s tblId fldId (f ())) :
    WriteOk env s tblId fldId (Cmd.require p >>= f) :=
  ⟨Cmd.onFailure_require_bind (.refl s) fun hp => (h hp).1, fun _ hrun =>
    (h (Cmd.require_bind_eq_some.mp hrun).1).2 _ (Cmd.require_bind_eq_some.mp hrun).2⟩

lemma writeOk_ofOption_bind {α : Type} {tblId fldId : Int} {o : Option α} {f : α → Cmd Store Unit}
    (h : ∀ a, o = some a → WriteOk env s tblId fldId (f a)) :
    WriteOk env s tblId fldId (Cmd.ofOption o >>= f) := by
  refine ⟨Cmd.onFailure_ofOption_bind (fun _ => .refl s) fun a ha => (h a ha).1, fun s' hrun => ?_⟩
  obtain ⟨a, ha, hrun⟩ := Cmd.ofOption_bind_eq_some.mp hrun
  exact (h a ha).2 s' hrun

lemma writeOk_get_bind {tblId fldId : Int} {f : Store → Cmd Store Unit}
    (h : WriteOk env s tblId fldId (f s)) : WriteOk env s tblId fldId (Cmd.get >>= f) := h

lemma writeOk_modify {tblId fldId : Int} {f : Store → Store}
    (h : AttrAccepted env s (f s) tblId fldId) : WriteOk env s tblId fldId (Cmd.modify f) := by
  refine ⟨Cmd.onFailure_of_eq_some rfl, fun s' hrun => ?_⟩
  rw [Cmd.modify_eq_some.mp hrun]
  exact h

lemma addToFldInfo_cases (nFld : Nat) (fldId auxId : Int) (mode : FldInfoMode) (info : List FldInfo) :
    (Datacl.addToFldInfo nFld fldId mode auxId info = (none, info)) ∨
      0 ≤ fldId ∧ fldId < nFld ∧ ∃ i, info.findIdx? (fun r => r.mode = .undefFldInfo) = some i ∧
        Datacl.addToFldInfo nFld fldId mode auxId info =
          if mode = .undefFldInfo ∨ auxId < 0 ∨ nFld ≤ auxId then
            (none, info.set i { info.getD i zeroFldInfoRec with mode := mode, fldId := toShort fldId })
          else
            (some (), sortFldInfo (info.set i { info.getD i zeroFldInfoRec with
              mode := mode, fldId := toShort fldId, xxx := toShort auxId })) := by
  unfold Datacl.addToFldInfo
  rw [Cmd.require_bind]
  by_cases hfld : 0 ≤ fldId ∧ fldId < nFld
  · rw [if_pos hfld, Cmd.get_bind]
    cases hfind : info.findIdx? (fun r => r.mode = .undefFldInfo) with
    | none => exact .inl rfl
    | some i =>
      refine .inr ⟨hfld.1, hfld.2, i, rfl, ?_⟩
      dsimp only
      rw [Cmd.modify_bind, fillFldInfo]
      split_ifs
      · rfl
      · simp only [Cmd.modify_apply, List.set_set]
  · rw [if_neg hfld]
    exact .inl rfl

lemma writeOk_setDictFld {tblId fldId : Int} {value : List Char} {isInternal : Bool}
    (h : AttrCond env stoF8 s tblId fldId value isInternal .dictFld) :
    WriteOk env s tblId fldId (setDictFld fldId.toNat value) := by
  unfold setDictFld
  apply writeOk_ofOption_bind
  intro strtbl htbl
  apply writeOk_require_bind
  intro _
  apply writeOk_ofOption_bind
  intro strfld hfld
  apply writeOk_require_bind
  intro _
  apply writeOk_get_bind
  apply writeOk_ofOption_bind
  intro t ht
  apply writeOk_ofOption_bind
  intro d hd
  apply writeOk_require_bind
  intro _
  rcases addToFldInfo_cases s.flds.length fldId.toNat d .fkFldTxtLkp s.info with hnone | ⟨-, -, i, hi, hadd⟩
  · have hrun : onInfo (Datacl.addToFldInfo s.flds.length fldId.toNat .fkFldTxtLkp d) s = (none, s) := by
      unfold onInfo
      rw [Cmd.on_apply, hnone]
    refine ⟨Cmd.onFailure_of_eq_none hrun (.refl s), fun s' hs' => ?_⟩
    rw [hrun] at hs'
    cases hs'
  · have hd' := (isFld_eq_some hd).1
    rw [if_neg (by simp; omega)] at hadd
    have hrun : onInfo (Datacl.addToFldInfo s.flds.length fldId.toNat .fkFldTxtLkp d) s =
        (some (), s.addRef i fldId.toNat .fkFldTxtLkp d) := by
      unfold onInfo
      rw [Cmd.on_apply, hadd]
      rfl
    refine ⟨Cmd.onFailure_of_eq_some hrun, fun s' hs' => ?_⟩
    rw [hrun] at hs'
    obtain rfl := (Prod.ext_iff.mp hs').2
    exact h strtbl strfld t d i htbl hfld ht hd hi

/-- A type with statistics is that of a used slot. -/
lemma lt_of_parseStat {i : Nat} {buf : List Char} {v : Int}
    (h : parseStat stoF8 buf (s.fld i).fldtype = some v) : i < s.flds.length := by
  by_contra hge
  rw [Store.fld_of_le (not_lt.mp hge)] at h
  cases h

lemma fldtype_setNumNn (s : Store) (i : Nat) (numNn : Int) :
    ((s.setFld i { s.fld i with numNn := numNn }).fld i).fldtype = (s.fld i).fldtype := by
  rw [Store.fld_setFld]
  split_ifs <;> rfl

/-- The store after a statistic has been written. -/
lemma setFld_withStat {i : Nat} (hi : i < s.flds.length) (numNn v : Int) (stat : Stat) :
    (s.setFld i { s.fld i with numNn := numNn }).setFld i
        (((s.setFld i { s.fld i with numNn := numNn }).fld i).setStat v stat) =
      s.setFld i ((s.fld i).withStat numNn v stat) := by
  rw [Store.setFld_setFld, Store.fld_setFld_of_lt hi]
  rfl

lemma writeOk_setMinMaxSum {tblId fldId : Int} {stat : Stat} {value : List Char}
    (h : StatCond env stoF8 s tblId fldId stat value) :
    WriteOk env s tblId fldId (setMinMaxSum stoF8 stat value fldId.toNat) := by
  unfold setMinMaxSum
  apply writeOk_ofOption_bind
  intro buf hbuf
  apply writeOk_ofOption_bind
  intro numNn hnum
  apply writeOk_require_bind
  intro h0
  have hcond := h numNn (by rw [hbuf]; exact hnum) h0
  have hstat : ∀ buf' v, readNthVal value [':'] 0 32 = some buf' →
      parseStat stoF8 buf' (s.fld fldId.toNat).fldtype = some v →
        let r' := (s.fld fldId.toNat).withStat numNn v stat
        SameRecs s (s.setFld fldId.toNat r') ∨ minMaxOk r' = true ∧
          (r'.isMinNn = true → statInRange r'.fldtype r'.minval = true) ∧
          (r'.isMaxNn = true → statInRange r'.fldtype r'.maxval = true) ∧
          PassesChecks env (s.setFld fldId.toNat r') tblId fldId := by
    intro buf' v hbuf' hv
    rw [hbuf', Option.bind_some, hv] at hcond
    exact hcond
  constructor
  · show Cmd.OnFailure (SameRecs s) _ (s.setFld fldId.toNat { s.fld fldId.toNat with numNn := numNn })
    refine Cmd.onFailure_ofOption_bind (fun hnone => ?_) fun buf' hbuf' => ?_
    · rw [hnone] at hcond
      exact hcond
    show Cmd.OnFailure (SameRecs s) (Cmd.ofOption (parseStat stoF8 buf' _) >>= _) _
    rw [fldtype_setNumNn]
    refine Cmd.onFailure_ofOption_bind (fun hnone => ?_) fun v hv => ?_
    · rw [hbuf', Option.bind_some, hnone] at hcond
      exact hcond
    have hlt := lt_of_parseStat hv
    show Cmd.OnFailure (SameRecs s) _ (Store.setFld _ _ (Store.setFld _ _ s))
    rw [setFld_withStat hlt]
    rcases hstat buf' v hbuf' hv with hsame | ⟨hminmax, hmin, hmax, -⟩
    · refine Cmd.onFailure_require_bind hsame fun _ => ?_
      refine Cmd.onFailure_require_bind hsame fun _ => ?_
      exact Cmd.onFailure_require fun _ => hsame
    · have hr := Store.fld_setFld_of_lt hlt ((s.fld fldId.toNat).withStat numNn v stat)
      apply Cmd.onFailure_get_bind
      refine Cmd.onFailure_bind (Cmd.onFailure_require fun hno => ?_) fun _ s₁ hrun => ?_
      · rw [hr] at hno
        exact absurd hminmax hno
      obtain rfl := (Cmd.require_eq_some.mp hrun).2
      refine Cmd.onFailure_bind (Cmd.onFailure_require fun hno => ?_) fun _ s₁ hrun => ?_
      · rw [hr] at hno
        exact absurd hmin hno
      obtain rfl := (Cmd.require_eq_some.mp hrun).2
      refine Cmd.onFailure_require fun hno => ?_
      rw [hr] at hno
      exact absurd hmax hno
  · intro s' hrun
    rw [Cmd.modify_bind] at hrun
    obtain ⟨buf', hbuf', hrun⟩ := Cmd.ofOption_bind_eq_some.mp hrun
    rw [Cmd.get_bind, fldtype_setNumNn] at hrun
    obtain ⟨v, hv, hrun⟩ := Cmd.ofOption_bind_eq_some.mp hrun
    rw [Cmd.modify_bind, setFld_withStat (lt_of_parseStat hv), Cmd.get_bind] at hrun
    obtain ⟨-, hrun⟩ := Cmd.require_bind_eq_some.mp hrun
    obtain ⟨-, hrun⟩ := Cmd.require_bind_eq_some.mp hrun
    obtain ⟨-, rfl⟩ := Cmd.require_eq_some.mp hrun
    rcases hstat buf' v hbuf' hv with hsame | ⟨-, -, -, hpass⟩
    · exact .inl hsame
    · exact .inr hpass

/-- Every attribute is written as its condition says. -/
lemma writeOk_setAttr {tblId fldId : Int} {attr : Attr} {value : List Char} {isInternal : Bool}
    (h : AttrCond env stoF8 s tblId fldId value isInternal attr) :
    WriteOk env s tblId fldId (setAttr stoF8 tblId.toNat fldId.toNat attr value isInternal) := by
  cases attr with
  | tbltype =>
    apply writeOk_ofOption_bind
    intro tbltype htype
    apply writeOk_require_bind
    rintro rfl
    apply writeOk_get_bind
    apply writeOk_ofOption_bind
    intro f hf
    apply writeOk_require_bind
    intro hSV
    exact writeOk_modify (h f htype hf hSV)
  | dictFld => exact writeOk_setDictFld h
  | stat stat => exact writeOk_setMinMaxSum h
  | fldtype =>
    apply writeOk_ofOption_bind
    intro t ht
    apply writeOk_get_bind
    apply writeOk_require_bind
    intro hcast
    exact writeOk_modify (h t ht hcast)
  | srttype =>
    apply writeOk_ofOption_bind
    intro t ht
    apply writeOk_require_bind
    intro hsort
    exact writeOk_modify (h t ht hsort)
  | external =>
    apply writeOk_require_bind
    intro hint
    apply writeOk_require_bind
    intro hval
    exact writeOk_modify (h hint hval)
  | other =>
    refine ⟨fun _ => .refl s, fun s' hrun => ?_⟩
    cases hrun

lemma harmless_intSetMeta {tblId fldId : Int} {attr : Attr} {value : List Char} {isInternal : Bool}
    (h : AttrCond env stoF8 s tblId fldId value isInternal attr) :
    Cmd.OnFailure (SameRecs s) (intSetMeta env stoF8 tblId fldId attr value isInternal) s := by
  unfold intSetMeta
  refine Cmd.onFailure_require_bind (.refl s) fun _ => ?_
  refine Cmd.onFailure_require_bind (.refl s) fun _ => ?_
  refine Cmd.onFailure_require_bind (.refl s) fun _ => ?_
  obtain ⟨hfail, hwrite⟩ := writeOk_setAttr h
  exact Cmd.onFailure_bind hfail fun _ s' hrun => onFailure_chkAttr (hwrite s' hrun)

/-! ### `add_to_fld_info` -/

lemma harmless_addToFldInfo {fldId auxId : Int} {mode : FldInfoMode} (h : AddCond s fldId mode auxId) :
    Cmd.OnFailure (SameRecs s) (onInfo (addToFldInfo s.flds.length fldId mode auxId)) s := by
  rcases addToFldInfo_cases s.flds.length fldId auxId mode s.info with
    hnone | ⟨hfld0, hfld, i, hi, hadd⟩
  · have hrun : onInfo (addToFldInfo s.flds.length fldId mode auxId) s = (none, s) := by
      unfold onInfo
      rw [Cmd.on_apply, hnone]
    exact Cmd.onFailure_of_eq_none hrun (.refl s)
  · rcases h hfld0 hfld i hi with ⟨hmode, haux0, haux⟩ | ⟨rfl, hsame⟩
    · rw [if_neg (by simp [hmode]; omega)] at hadd
      have hrun : onInfo (addToFldInfo s.flds.length fldId mode auxId) s =
          (some (), s.addRef i fldId mode auxId) := by
        unfold onInfo
        rw [Cmd.on_apply, hadd]
        rfl
      exact Cmd.onFailure_of_eq_some hrun
    · rw [if_pos (.inl rfl)] at hadd
      obtain ⟨hlt, hmode⟩ := findIdx?_getD zeroFldInfoRec hi
      have hself : { s.info.getD i zeroFldInfoRec with
          mode := .undefFldInfo, fldId := toShort fldId } = s.info.getD i zeroFldInfoRec := by
        rw [← hsame, ← of_decide_eq_true hmode]
      have hset : s.info.set i (s.info.getD i zeroFldInfoRec) = s.info := by simp [hlt]
      have hrun : onInfo (addToFldInfo s.flds.length fldId .undefFldInfo auxId) s = (none, s) := by
        unfold onInfo
        rw [Cmd.on_apply, hadd, hself, hset]
      exact Cmd.onFailure_of_eq_none hrun (.refl s)

/-! ### `rename_fld` -/

lemma unlinkNn_eq (s : Store) (o : Nat) :
    unlinkNn o s =
      if 0 ≤ (s.fld o).parentId then
        if (s.fld (s.fld o).parentId.toNat).nnFldId = o ∧
            ((s.fld o).fldtype = .I1 ∨ (s.fld o).fldtype = .B) then (some (), s.cutNn o)
        else (none, s)
      else (some (), s) := by
  unfold unlinkNn
  rw [Cmd.get_bind]
  by_cases hparent : 0 ≤ (s.fld o).parentId
  · rw [if_pos hparent, Cmd.when_pos hparent, Cmd.require_bind]
    by_cases hnn : (s.fld (s.fld o).parentId.toNat).nnFldId = o
    · rw [if_pos hnn, Cmd.require_bind]
      by_cases htype : (s.fld o).fldtype = .I1 ∨ (s.fld o).fldtype = .B
      · rw [if_pos htype, if_pos ⟨hnn, htype⟩]
        rfl
      · rw [if_neg htype, if_neg fun h => htype h.2]
    · rw [if_neg hnn, if_neg fun h => hnn h.1]
  · rw [if_neg hparent, Cmd.when_neg hparent]
    rfl

lemma delExisting_succeeds {t : Nat} {found : Option Nat}
    (h : ∀ j, found = some j → Deletable env s j ∧ ¬ IsDict s j) :
    ∃ s', delExisting env t found s = (some (), s') := by
  cases found with
  | none => exact ⟨s, rfl⟩
  | some j =>
    obtain ⟨hdel, hdict⟩ := h j rfl
    obtain ⟨s', hrun, -⟩ := delFldAt_succeeds hdel hdict
    exact ⟨s', delFld_slot.trans hrun⟩

lemma harmless_renameFld {tbl oldFld newFld : Name} (h : RenameCond env s tbl oldFld newFld) :
    Cmd.OnFailure (SameRecs s) (renameFld env tbl oldFld newFld) s := by
  unfold renameFld
  refine Cmd.onFailure_require_bind (.refl s) fun _ => ?_
  refine Cmd.onFailure_require_bind (.refl s) fun _ => ?_
  refine Cmd.onFailure_require_bind (.refl s) fun _ => ?_
  refine Cmd.onFailure_require_bind (.refl s) fun _ => ?_
  apply Cmd.onFailure_get_bind
  refine Cmd.onFailure_ofOption_bind (fun _ => .refl s) fun t ht => ?_
  refine Cmd.onFailure_ofOption_bind (fun _ => .refl s) fun o ho => ?_
  have hcond := h t o ht ho
  dsimp only at hcond
  -- Once the existing field is deleted nothing fails.
  have hthrough : ∀ s₁, unlinkNn o s = (some (), s₁) → chkFldName newFld = true ∧
      (0 ≤ (s.fld o).nnFldId → newFld.length + (auxPrefix .nn).length ≤ maxLenName) ∧
        (∀ j, isFld s t newFld = some j → Deletable env s₁ j ∧ ¬ IsDict s₁ j) → ∃ s', (do
          unlinkNn o
          delExisting env t (isFld s t newFld)
          Cmd.require (chkFldName newFld = true)
          Cmd.modify fun s => s.setFld o { s.fld o with name := newFld }
          Cmd.when (0 ≤ (s.fld o).nnFldId) do
            Cmd.require (newFld.length + (auxPrefix .nn).length ≤ maxLenName)
            Cmd.modify fun s₂ => s₂.setFld (s.fld o).nnFldId.toNat
              { s₂.fld (s.fld o).nnFldId.toNat with name := auxPrefix .nn ++ newFld } :
          Cmd Store Unit) s = (some (), s') := by
    rintro s₁ hunlink ⟨hname, hlen, hdel⟩
    obtain ⟨s₂, hdel⟩ := delExisting_succeeds (t := t) hdel
    rw [Cmd.bind_of_eq hunlink, Cmd.bind_of_eq hdel, Cmd.require_bind, if_pos hname, Cmd.modify_bind]
    by_cases hnn : 0 ≤ (s.fld o).nnFldId
    · rw [Cmd.when_pos hnn, Cmd.require_bind, if_pos (hlen hnn)]
      exact ⟨_, rfl⟩
    · rw [Cmd.when_neg hnn]
      exact ⟨_, rfl⟩
  have hunlink := unlinkNn_eq s o
  by_cases hparent : 0 ≤ (s.fld o).parentId
  · rw [if_pos hparent] at hunlink hcond
    by_cases hnn : (s.fld (s.fld o).parentId.toNat).nnFldId = o ∧
        ((s.fld o).fldtype = .I1 ∨ (s.fld o).fldtype = .B)
    · rw [if_pos hnn] at hunlink
      obtain ⟨s', hrun⟩ := hthrough _ hunlink (hcond hnn.1 hnn.2)
      exact Cmd.onFailure_of_eq_some hrun
    · rw [if_neg hnn] at hunlink
      refine Cmd.onFailure_bind (Cmd.onFailure_of_eq_none hunlink (.refl s)) fun _ s₁ hrun => ?_
      rw [hunlink] at hrun
      cases hrun
  · rw [if_neg hparent] at hunlink hcond
    rcases hcond with hgo | hrefused
    · obtain ⟨s', hrun⟩ := hthrough s hunlink hgo
      exact Cmd.onFailure_of_eq_some hrun
    · refine Cmd.onFailure_bind (Cmd.onFailure_of_eq_some hunlink) fun _ s₁ hrun => ?_
      rw [hunlink] at hrun
      obtain rfl := (Prod.ext_iff.mp hrun).2
      cases hnew : isFld s t newFld with
      | none =>
        rw [hnew] at hrefused
        refine Cmd.onFailure_bind (Cmd.onFailure_of_eq_some rfl) fun _ s₂ hrun => ?_
        obtain rfl := (Prod.ext_iff.mp hrun).2
        refine Cmd.onFailure_require_bind (.refl s) fun hname => ?_
        rw [hrefused] at hname
        cases hname
      | some j =>
        rw [hnew] at hrefused
        have hdel : delExisting env t (some j) s = (none, s) :=
          delFld_slot.trans (delFldAt_refused hrefused)
        refine Cmd.onFailure_bind (Cmd.onFailure_of_eq_none hdel (.refl s)) fun _ s₂ hrun => ?_
        rw [hdel] at hrun
        cases hrun

/-! ### `del_tbl` -/

/-- What the loop of `del_tbl` needs from slot `k` on. -/
def TblDeletable (env : Env) (t k : Nat) (s : Store) : Prop :=
  ∀ j, k ≤ j → PrimaryOf s t j → Deletable env s j ∧ DictsFirst s t k j

lemma delTblFld_primary {t k : Nat} (h : PrimaryOf s t k) :
    delTblFld env t k s = delFldAt env k s := by
  unfold delTblFld
  rw [Cmd.get_bind, Cmd.when_pos ⟨h.1, h.2⟩, delFld_slot]

lemma delTblFld_other {t k : Nat} (h : ¬ PrimaryOf s t k) : delTblFld env t k s = (some (), s) := by
  unfold delTblFld
  unfold PrimaryOf at h
  rw [Cmd.get_bind, Cmd.when_neg h]
  rfl

lemma zeroFldRec_tblId_ne (t : Nat) : zeroFldRec.tblId ≠ t := by
  show (-1 : Int) ≠ t
  omega

/-- A deletion keeps the other primary fields. -/
lemma Swept.primaryOf {t k j : Nat} (h : Swept k s s') (hj : PrimaryOf s t j) (hne : j ≠ k) :
    s'.fld j = s.fld j := by
  rcases h.flds j with heq | ⟨-, rfl | ⟨-, haux⟩⟩
  · exact heq
  · exact absurd rfl hne
  · exact absurd hj.2 haux

/-- One iteration deletes the field and keeps the rest deletable. -/
lemma TblDeletable.step {t k : Nat} (h : TblDeletable env t k s) :
    ∃ s', delTblFld env t k s = (some (), s') ∧ TblDeletable env t (k + 1) s' := by
  by_cases hk : PrimaryOf s t k
  · obtain ⟨hdel, hdicts⟩ := h k le_rfl hk
    have hdict : ¬ IsDict s k := by
      rintro ⟨r, hr, hmode, hx⟩
      obtain ⟨i, hki, hik, -⟩ := hdicts r hr hmode hx
      omega
    obtain ⟨s', hrun, hswept, hsingle⟩ := delFldAt_succeeds hdel hdict
    refine ⟨s', (delTblFld_primary hk).trans hrun, fun j hj hprim => ?_⟩
    have hold : PrimaryOf s t j := by
      rcases hswept.flds j with heq | ⟨hzero, -⟩
      · rwa [PrimaryOf, heq] at hprim
      · rw [PrimaryOf, hzero] at hprim
        exact absurd hprim.1 (zeroFldRec_tblId_ne t)
    obtain ⟨hdelj, hdictsj⟩ := h j (by omega) hold
    refine ⟨(hdelj.swept (by omega) (by omega) hk.2 hswept).1, fun r hr hmode hx => ?_⟩
    have hne : r ≠ zeroFldInfoRec := by
      rintro rfl
      cases hmode
    obtain ⟨i, hki, hij, hfld, hprimi, hcount⟩ := hdictsj r (hswept.mem hr hne) hmode hx
    have hik : i ≠ k := by
      rintro rfl
      exact hsingle hcount r hr (by rw [hmode]; decide) hfld
    refine ⟨i, by omega, hij, hfld, ?_, ?_⟩
    · rw [PrimaryOf, hswept.primaryOf hprimi hik]
      exact hprimi
    · refine (hswept.info _ (decide_eq_false ?_)).trans hcount
      show (0 : Int) ≠ i
      omega
  · refine ⟨s, delTblFld_other hk, fun j hj hprim => ?_⟩
    obtain ⟨hdel, hdicts⟩ := h j (by omega) hprim
    refine ⟨hdel, fun r hr hmode hx => ?_⟩
    obtain ⟨i, hki, hij, hfld, hprimi, hcount⟩ := hdicts r hr hmode hx
    have hik : i ≠ k := by
      rintro rfl
      exact hk hprimi
    exact ⟨i, by omega, hij, hfld, hprimi, hcount⟩

lemma TblDeletable.loop {t k : Nat} (h : TblDeletable env t k s) (m : Nat) :
    ∃ s', Cmd.forEach (delTblFld env t) (List.range' k m) s = (some (), s') := by
  induction m generalizing k s with
  | zero => exact ⟨s, rfl⟩
  | succ m ih =>
    obtain ⟨s₁, hstep, h₁⟩ := h.step
    obtain ⟨s', hloop⟩ := ih h₁
    rw [List.range'_succ, Cmd.forEach]
    exact ⟨s', (Cmd.bind_of_eq hstep).trans hloop⟩

/-- The loop stops at the first field if that is refused. -/
lemma forEach_refused {t i n : Nat} (hi : i < n) (hprim : PrimaryOf s t i) (href : Refused env s i)
    (hfirst : ∀ j < i, ¬ PrimaryOf s t j) :
    Cmd.forEach (delTblFld env t) (List.range n) s = (none, s) := by
  have hsplit : List.range n = List.range i ++ i :: List.range' (i + 1) (n - i - 1) := by
    have happ := List.range'_append_1 (s := 0) (m := i) (n := n - i)
    rw [Nat.zero_add, Nat.add_sub_cancel' hi.le] at happ
    rw [List.range_eq_range', List.range_eq_range', ← happ, ← List.range'_succ]
    congr 2
    omega
  rw [hsplit, Cmd.forEach_append_of_pass fun j hj => delTblFld_other (hfirst j (List.mem_range.mp hj)),
    Cmd.forEach, Cmd.bind_apply, delTblFld_primary hprim, delFldAt_refused href]

lemma harmless_delTbl {tbl : Name} {inTblId : Int}
    (h : ∀ t, givenTbl s tbl inTblId = some t → DelTblCond env s t.toNat) :
    Cmd.OnFailure (SameRecs s) (delTbl env tbl inTblId) s := by
  unfold delTbl
  have hlookup : Cmd.OnFailure (SameRecs s) (lookupTbl tbl inTblId) s := by
    unfold lookupTbl
    by_cases h0 : 0 ≤ inTblId
    · rw [if_pos h0]
      exact Cmd.onFailure_of_eq_some rfl
    · rw [if_neg h0]
      refine Cmd.onFailure_require_bind (.refl s) fun _ => ?_
      exact Cmd.onFailure_of_eq_some rfl
  refine Cmd.onFailure_bind hlookup fun t s₁ hrun => ?_
  obtain ⟨ht, rfl⟩ := lookupTbl_eq_some hrun
  cases t with
  | none => exact Cmd.onFailure_of_eq_some rfl
  | some t =>
    have hcond := h t ht.symm
    unfold delTblAt
    apply Cmd.onFailure_get_bind
    refine Cmd.onFailure_require_bind (.refl s₁) fun htype => ?_
    rcases hcond htype with hall | ⟨i, hi, hprim, href, hfirst⟩
    · have hinv : TblDeletable env t.toNat 0 s₁ := by
        intro j _ hprim
        refine hall j ?_ hprim
        by_contra hge
        rw [PrimaryOf, Store.fld_of_le (not_lt.mp hge)] at hprim
        exact zeroFldRec_tblId_ne t.toNat hprim.1
      obtain ⟨s', hloop⟩ := hinv.loop s₁.flds.length
      rw [← List.range_eq_range'] at hloop
      exact Cmd.onFailure_bind (Cmd.onFailure_of_eq_some hloop) fun _ s₂ _ =>
        Cmd.onFailure_of_eq_some rfl
    · have hloop := forEach_refused hi hprim href hfirst
      refine Cmd.onFailure_bind (Cmd.onFailure_of_eq_none hloop (.refl s₁)) fun _ s₂ hrun => ?_
      rw [hloop] at hrun
      cases hrun

/-! ### Runs -/

lemma harmless_of_callCond {call : MetaCall} (h : CallCond env stoF8 s call) :
    Harmless env stoF8 s call := by
  cases call with
  | setMeta tblId fldId attr value isInternal => exact harmless_intSetMeta h
  | addToFldInfo fldId mode auxId => exact harmless_addToFldInfo h
  | renameFld tbl oldFld newFld => exact harmless_renameFld h
  | delTbl tbl inTblId => exact harmless_delTbl h

end

/-- A step of the store: one of these calls, or another operation. -/
inductive StoreStep where
  | call (call : MetaCall)
  | op (op : MetaOp)

/-- The step. -/
def StoreStep.exec (env : Env) (stoF8 : List Char → Option Int) : StoreStep → Cmd Store Unit
  | .call c => c.exec env stoF8
  | .op o => o.exec env

/-- The store that the steps leave, whether they fail or not. -/
def afterSteps (env : Env) (stoF8 : List Char → Option Int) (s : Store) (steps : List StoreStep) :
    Store :=
  steps.foldl (fun s step => (step.exec env stoF8 s).2) s

/-- In every run, from whatever store, in which each call meets the condition in the store it is made
in, a call that fails leaves all records as they were. -/
theorem failed_calls_change_nothing (env : Env) (stoF8 : List Char → Option Int) (s : Store)
    (steps : List StoreStep)
    (hcond : ∀ pre call, pre ++ [StoreStep.call call] <+: steps →
      CallCond env stoF8 (afterSteps env stoF8 s pre) call) :
    ∀ pre call, pre ++ [StoreStep.call call] <+: steps →
      Harmless env stoF8 (afterSteps env stoF8 s pre) call :=
  fun pre call hpre => harmless_of_callCond (hcond pre call hpre)

lemma plain_of_fldtype (t : FldType) : ({ zeroFldRec with fldtype := t } : FldRec).Plain :=
  ⟨rfl, rfl, rfl⟩

/-- The table `T` with the field `a` of small numbers. -/
def smallStore : Store :=
  (MetaOp.exec shortEnv (.addFld 0 ['a'] 0 1 ⟨{ zeroFldRec with fldtype := .I1 }, plain_of_fldtype .I1⟩)
    emptyTblStore).2

/-- A field out of range, and a sort type that callers from outside cannot set. -/
def refusedSteps : List StoreStep :=
  [.call (.addToFldInfo 9 .fkFldLen 0), .call (.setMeta 0 0 .srttype "ascending".toList false)]

theorem failed_calls_change_nothing_refused :
    (∀ step ∈ refusedSteps, (step.exec shortEnv (fun _ => none) smallStore).1 = none) ∧
      ∀ pre call, pre ++ [StoreStep.call call] <+: refusedSteps →
        Harmless shortEnv (fun _ => none) (afterSteps shortEnv (fun _ => none) smallStore pre) call := by
  refine ⟨by decide +kernel, ?_⟩
  apply failed_calls_change_nothing
  intro pre call hpre
  rcases pre with _ | ⟨step, _ | ⟨step', pre⟩⟩
  · obtain ⟨hcall, -⟩ := List.cons_prefix_cons.mp hpre
    obtain rfl := StoreStep.call.inj hcall
    intro _ hlt
    exact absurd hlt (by decide +kernel)
  · obtain ⟨-, hpre⟩ := List.cons_prefix_cons.mp hpre
    obtain ⟨hcall, -⟩ := List.cons_prefix_cons.mp hpre
    obtain rfl := StoreStep.call.inj hcall
    intro t ht hsort
    obtain rfl : SortType.ascending = t := Option.some.inj ht
    exact absurd hsort (by decide)
  · obtain ⟨-, hpre⟩ := List.cons_prefix_cons.mp hpre
    obtain ⟨-, hpre⟩ := List.cons_prefix_cons.mp hpre
    exact absurd (List.prefix_nil.mp hpre) (by simp)

/-- The minimum is no number, but the number of values is set. -/
theorem setMeta_failed_sets_count :
    Cmd.Reach (MetaOp.exec shortEnv) (fun _ _ => True) (Store.empty 2 4 3 threeFiles) smallStore ∧
      (smallStore.fld 0).numNn = -1 ∧
      ((MetaCall.setMeta 0 0 (.stat .min) ['x', ':', '3'] false).exec shortEnv (fun _ => none)
        smallStore).1 = none ∧
      (((MetaCall.setMeta 0 0 (.stat .min) ['x', ':', '3'] false).exec shortEnv (fun _ => none)
        smallStore).2.fld 0).numNn = 3 ∧
      ¬ Harmless shortEnv (fun _ => none) smallStore
        (.setMeta 0 0 (.stat .min) ['x', ':', '3'] false) := by
  have hbefore : (smallStore.fld 0).numNn = -1 := by decide +kernel
  have hfail : ((MetaCall.setMeta 0 0 (.stat .min) ['x', ':', '3'] false).exec shortEnv
      (fun _ => none) smallStore).1 = none := by decide +kernel
  have hafter : (((MetaCall.setMeta 0 0 (.stat .min) ['x', ':', '3'] false).exec shortEnv
      (fun _ => none) smallStore).2.fld 0).numNn = 3 := by decide +kernel
  refine ⟨?_, hbefore, hfail, hafter, fun h => ?_⟩
  · exact (reach_emptyTblStore _ trivial).tail ⟨_, trivial, Prod.ext (by decide +kernel) rfl⟩
  · have hsame := (h hfail).fld 0
    rw [hsame, hbefore] at hafter
    cases hafter

end Datacl
