import Datacl.Meta.DelFld

/-!
# What the operations on fields do when they succeed
-/

namespace Datacl

variable {env : Env} {s s' : Store}

/-! ### Lookups -/

lemma findIdx?_getD {α : Type} {p : α → Bool} {xs : List α} {i : Nat} (d : α)
    (h : xs.findIdx? p = some i) : i < xs.length ∧ p (xs.getD i d) = true := by
  obtain ⟨hi, hp, -⟩ := List.findIdx?_eq_some_iff_getElem.mp h
  exact ⟨hi, by simpa [hi] using hp⟩

lemma findIdx?_none_getD {α : Type} {p : α → Bool} {xs : List α} {d : α}
    (h : xs.findIdx? p = none) (hd : p d = false) (i : Nat) : p (xs.getD i d) = false := by
  by_cases hi : i < xs.length
  · rw [List.findIdx?_eq_none_iff] at h
    simpa [hi] using h xs[i] (List.getElem_mem hi)
  · simpa [hi] using hd

lemma isTbl_eq_some {tbl : Name} {tblId : Nat} (h : isTbl s tbl = some tblId) :
    tblId < s.tbls.length ∧ (s.tbl tblId).name = tbl := by
  obtain ⟨hlt, hp⟩ := findIdx?_getD zeroTblRec h
  exact ⟨hlt, of_decide_eq_true hp⟩

lemma isTbl_eq_none {tbl : Name} (htbl : tbl ≠ []) (h : isTbl s tbl = none) (i : Nat) :
    (s.tbl i).name ≠ tbl :=
  of_decide_eq_false (findIdx?_none_getD h (decide_eq_false (Ne.symm htbl)) i)

lemma isFld_eq_some {tblId : Int} {fld : Name} {fldId : Nat} (h : isFld s tblId fld = some fldId) :
    fldId < s.flds.length ∧ (s.fld fldId).tblId = tblId ∧ (s.fld fldId).name = fld := by
  obtain ⟨hlt, hp⟩ := findIdx?_getD zeroFldRec h
  exact ⟨hlt, of_decide_eq_true hp⟩

lemma isFld_eq_none {tblId : Int} {fld : Name} (hfld : fld ≠ []) (h : isFld s tblId fld = none)
    (i : Nat) : ¬ ((s.fld i).tblId = tblId ∧ (s.fld i).name = fld) :=
  of_decide_eq_false (findIdx?_none_getD h (decide_eq_false fun h => hfld h.2.symm) i)

lemma findFrom_eq_some {α : Type} {p : α → Bool} {xs : List α} {start i : Nat} (d : α)
    (h : findFrom p xs start = some i) : i < xs.length ∧ p (xs.getD i d) = true := by
  unfold findFrom at h
  cases hdrop : (xs.drop start).findIdx? p with
  | some j =>
    rw [hdrop] at h
    obtain rfl := Option.some.inj h
    obtain ⟨hj, hp⟩ := findIdx?_getD d hdrop
    rw [List.length_drop] at hj
    refine ⟨by omega, ?_⟩
    simpa [List.getD_eq_getElem?_getD] using hp
  | none =>
    rw [hdrop] at h
    obtain ⟨hi, hp⟩ := findIdx?_getD d h
    rw [List.length_take] at hi
    refine ⟨by omega, ?_⟩
    simpa [List.getD_eq_getElem?_getD, List.getElem?_take, show i < start by omega] using hp

lemma getEmptyFld_eq_some {fld : Name} {fldId : Nat} (h : getEmptyFld env s fld = some fldId) :
    fldId < s.flds.length ∧ (s.fld fldId).name = [] := by
  unfold getEmptyFld at h
  by_cases hfld : fld = []
  · simp [hfld] at h
  · rw [if_neg hfld] at h
    obtain ⟨hlt, hp⟩ := findFrom_eq_some zeroFldRec h
    exact ⟨hlt, of_decide_eq_true hp⟩

lemma mkTempFile_eq_some {f : DataFile} {d n : Int}
    (h : mkTempFile env f s = (some (d, n), s')) :
    n = s.nextFileno ∧ s' = { s with nextFileno := s.nextFileno + 1 }.setFile d n (some f) := by
  unfold mkTempFile at h
  obtain ⟨-, h⟩ := Cmd.require_bind_eq_some.mp h
  obtain ⟨dir, -, h⟩ := Cmd.ofOption_bind_eq_some.mp h
  obtain ⟨-, h⟩ := Cmd.require_bind_eq_some.mp h
  rw [Cmd.get_bind, Cmd.modify_bind] at h
  obtain ⟨-, h⟩ := Cmd.require_bind_eq_some.mp h
  rw [Cmd.modify_bind] at h
  obtain ⟨hret, rfl⟩ := Cmd.pure_eq_some.mp h
  obtain ⟨rfl, rfl⟩ := Prod.ext_iff.mp hret
  exact ⟨rfl, rfl⟩

/-! ### Deleting and adding -/

/-- The table a call is for. -/
def givenTbl (s : Store) (tbl : Name) (tblId : Int) : Option Int :=
  if 0 ≤ tblId then some tblId else (isTbl s tbl).map fun i => (i : Int)

/-- The field of the table a call is for. -/
def givenFld (s : Store) (tblId : Int) (fld : Name) (fldId : Int) : Option Nat :=
  if 0 ≤ fldId then some fldId.toNat else isFld s tblId fld

/-- The field that a call of `del_fld` is for. -/
def delSlot (s : Store) (tbl : Name) (tblId : Int) (fld : Name) (fldId : Int) : Option Nat :=
  (givenTbl s tbl tblId).bind fun t => givenFld s t fld fldId

/-- A number that is given is used, otherwise the name is looked up. -/
lemma given_eq_some {α : Type} {id : Int} {a b : α} {f : Store → α} {named : Prop} [Decidable named]
    (h : (if 0 ≤ id then pure a
      else Cmd.require named >>= fun _ => Cmd.get >>= fun s => pure (f s) : Cmd Store α) s = (some b, s')) :
    b = (if 0 ≤ id then a else f s) ∧ s' = s := by
  by_cases h0 : 0 ≤ id
  · rw [if_pos h0] at h ⊢
    exact Cmd.pure_eq_some.mp h
  · rw [if_neg h0] at h ⊢
    obtain ⟨-, h⟩ := Cmd.require_bind_eq_some.mp h
    rw [Cmd.get_bind] at h
    exact Cmd.pure_eq_some.mp h

lemma lookupTbl_eq_some {tbl : Name} {tblId : Int} {t : Option Int}
    (h : lookupTbl tbl tblId s = (some t, s')) : t = givenTbl s tbl tblId ∧ s' = s := given_eq_some h

lemma lookupFld_eq_some {tblId fldId : Int} {fld : Name} {f : Option Nat}
    (h : lookupFld tblId fld fldId s = (some f, s')) : f = givenFld s tblId fld fldId ∧ s' = s :=
  given_eq_some h

/-- A successful call of `del_fld` deletes the field it is for, if there is one. -/
lemma delFld_delSlot (hn : s.flds.length ≤ 32768) (hidx : IndexOk s.flds.length s.info)
    {tbl fld : Name} {tblId fldId : Int} (h : delFld env tbl tblId fld fldId s = (some (), s')) :
    s' = s ∨ ∃ i reset, delSlot s tbl tblId fld fldId = some i ∧ Deleted i s s' reset := by
  unfold delFld at h
  obtain ⟨t, s₁, htbl, h⟩ := Cmd.bind_eq_some.mp h
  obtain ⟨ht, rfl⟩ := lookupTbl_eq_some htbl
  cases t with
  | none => exact .inl (Cmd.pure_eq_some.mp h).2
  | some t =>
    obtain ⟨f, s₂, hfld, h⟩ := Cmd.bind_eq_some.mp h
    obtain ⟨hf, rfl⟩ := lookupFld_eq_some hfld
    cases f with
    | none => exact .inl (Cmd.pure_eq_some.mp h).2
    | some f =>
      obtain ⟨reset, hdel⟩ := delFldAt_eq_some hn hidx h
      refine .inr ⟨f, reset, ?_, hdel⟩
      rw [delSlot, ← ht, Option.bind_some, ← hf]

lemma delFld_eq_some (hn : s.flds.length ≤ 32768) (hidx : IndexOk s.flds.length s.info)
    {tbl fld : Name} {tblId fldId : Int} (h : delFld env tbl tblId fld fldId s = (some (), s')) :
    s' = s ∨ ∃ i reset, Deleted i s s' reset := by
  rcases delFld_delSlot hn hidx h with rfl | ⟨i, reset, -, hdel⟩
  · exact .inl rfl
  · exact .inr ⟨i, reset, hdel⟩

lemma delFld_slot {tblId : Nat} {fldId : Nat} :
    delFld env [] tblId [] fldId s = delFldAt env fldId s := by
  unfold delFld lookupTbl lookupFld
  simp [Cmd.bind_apply]

lemma delFld_name {tblId : Int} {fld : Name} (htbl : 0 ≤ tblId) (hfld : fld ≠ []) :
    delFld env [] tblId fld (-1) s =
      match isFld s tblId fld with
      | none => (some (), s)
      | some fldId => delFldAt env fldId s := by
  unfold delFld lookupTbl lookupFld
  cases hf : isFld s tblId fld with
  | none => simp [Cmd.bind_apply, htbl, hfld, hf]
  | some i => simp [Cmd.bind_apply, htbl, hfld, hf]

/-- What is left once the field of this name has been deleted, if there is one. -/
inductive Freed (tblId : Int) (fld : Name) (s : Store) : Store → Prop where
  | absent (h : isFld s tblId fld = none) : Freed tblId fld s s
  | deleted {s' : Store} {fldId : Nat} {reset : List FldInfo} (h : isFld s tblId fld = some fldId)
      (hdel : Deleted fldId s s' reset) : Freed tblId fld s s'

/-- The record that `add_fld` writes. -/
def addedRec (tblId : Int) (fld : Name) (ddirId fileno : Int) (filesz : Nat) (rec : FldRec) :
    FldRec :=
  { rec with tblId := tblId, ddirId := ddirId, fileno := fileno, filesz := filesz, name := fld }

lemma addFld_eq_some (hn : s.flds.length ≤ 32768) (hidx : IndexOk s.flds.length s.info)
    {tblId ddirId fileno : Int} {fld : Name} {rec : FldRec} {fldId : Nat}
    (h : addFld env tblId fld ddirId fileno rec s = (some fldId, s')) :
    rec.fldtype ≠ .undefFldtype ∧ chkFldName fld = true ∧ 0 < fileno ∧
      (0 ≤ tblId ∧ tblId < s.tbls.length) ∧ env.canEnter ddirId = true ∧
      ∃ s₁ filesz, Freed tblId fld s s₁ ∧ fldId < s₁.flds.length ∧ (s₁.fld fldId).name = [] ∧
        s' = s₁.setFld fldId (addedRec tblId fld ddirId fileno filesz rec) := by
  unfold addFld at h
  obtain ⟨htype, h⟩ := Cmd.require_bind_eq_some.mp h
  obtain ⟨hname, h⟩ := Cmd.require_bind_eq_some.mp h
  obtain ⟨hfileno, h⟩ := Cmd.require_bind_eq_some.mp h
  obtain ⟨-, h⟩ := Cmd.require_bind_eq_some.mp h
  rw [Cmd.get_bind] at h
  obtain ⟨htbl, h⟩ := Cmd.require_bind_eq_some.mp h
  obtain ⟨-, h⟩ := Cmd.require_bind_eq_some.mp h
  obtain ⟨filesz, hsize, h⟩ := Cmd.ofOption_bind_eq_some.mp h
  have hdir : env.canEnter ddirId = true := by
    unfold chkFileSize qMmap at hsize
    by_contra hdir
    simp [hdir] at hsize
  have hne : fld ≠ [] := by
    rintro rfl
    simp [chkFldName] at hname
  obtain ⟨_, s₁, hdel, h⟩ := Cmd.bind_eq_some.mp h
  rw [Cmd.get_bind] at h
  obtain ⟨i, hempty, h⟩ := Cmd.ofOption_bind_eq_some.mp h
  rw [Cmd.modify_bind] at h
  obtain ⟨rfl, rfl⟩ := Cmd.pure_eq_some.mp h
  have hfreed : Freed tblId fld s s₁ := by
    rw [delFld_name htbl.1 hne] at hdel
    cases hfld : isFld s tblId fld with
    | none =>
      rw [hfld] at hdel
      obtain rfl := (Prod.ext_iff.mp hdel).2
      exact .absent hfld
    | some f =>
      rw [hfld] at hdel
      obtain ⟨reset, hdel⟩ := delFldAt_eq_some hn hidx hdel
      exact .deleted hfld hdel
  obtain ⟨hlt, hfree⟩ := getEmptyFld_eq_some hempty
  exact ⟨htype, hname, hfileno, htbl, hdir, s₁, filesz, hfreed, hlt, hfree, rfl⟩

end Datacl
