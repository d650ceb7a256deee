import Datacl.Meta.Names

/-!
# Names along a run
-/

namespace Datacl

variable {env : Env} {s s' : Store}

/-! ### Fields -/

/-- Once the field of a name has been deleted no field of the table has the name. -/
lemma NameInv.freed (h : NameInv env s) {tblId : Int} {fld : Name} (hfld : fld ≠ [])
    (hfreed : Freed tblId fld s s') :
    NameInv env s' ∧ ∀ j, (s'.fld j).tblId = tblId → (s'.fld j).name ≠ fld := by
  cases hfreed with
  | absent hnone => exact ⟨h, fun j htbl hname => isFld_eq_none hfld hnone j ⟨htbl, hname⟩⟩
  | @deleted s' i reset hfound hdel =>
    have hsame := h.deleted hdel
    refine ⟨(h.zeroFld i).sameRecs hsame, fun j htbl hname => ?_⟩
    obtain ⟨-, hitbl, hiname⟩ := isFld_eq_some hfound
    rw [hsame.fld, Store.fld_setFld_zero] at htbl hname
    by_cases hj : j = i
    · rw [if_pos hj] at hname
      exact hfld hname.symm
    · rw [if_neg hj] at htbl hname
      exact hj (h.names.flds j i (by rw [FldRec.Used, hname]; exact hfld)
        (htbl.trans hitbl.symm) (hname.trans hiname.symm))

lemma NameInv.addFld (h : NameInv env s) {tblId ddirId fileno : Int} {fld : Name} {rec : FldRec}
    (hplain : rec.Plain) {fldId : Nat}
    (hrun : addFld env tblId fld ddirId fileno rec s = (some fldId, s')) : NameInv env s' := by
  obtain ⟨-, hname, hfileno, -, hdir, s₁, filesz, hfreed, -, -, rfl⟩ :=
    addFld_eq_some h.length h.index hrun
  have hne : fld ≠ [] := by
    rintro rfl
    simp [chkFldName] at hname
  obtain ⟨hinv, hfree⟩ := h.freed hne hfreed
  refine hinv.setFld hplain (fun hused => absurd hne hused) (fun _ => ⟨hdir, hfileno.le⟩) ?_
  exact fun _ j _ => hfree j

/-- A change of a record that keeps its table, name and files. -/
lemma NameInv.updateFld (h : NameInv env s) (i : Nat) {r : FldRec} (hplain : r.Plain)
    (htbl : r.tblId = (s.fld i).tblId) (hname : r.name = (s.fld i).name)
    (hddir : r.ddirId = (s.fld i).ddirId) (hfileno : r.fileno = (s.fld i).fileno)
    (hzero : s.fld i = zeroFldRec → r = zeroFldRec) : NameInv env (s.setFld i r) := by
  have hused : r.Used ↔ (s.fld i).Used := by rw [FldRec.Used, FldRec.Used, hname]
  refine h.setFld hplain ?_ ?_ ?_
  · exact fun hr => hzero (h.unused i fun hi => hr (hused.mpr hi))
  · intro hr
    rw [hddir, hfileno]
    exact h.files i (hused.mp hr)
  · intro hr j hj htblj hnamej
    rw [htbl] at htblj
    rw [hname] at hnamej
    exact hj (h.names.flds i j (hused.mp hr) htblj.symm hnamej.symm).symm

lemma getFldInfo_of_zero {info : List FldInfo} (hzero : ∀ r ∈ info, r = zeroFldInfoRec)
    (mode : FldInfoMode) (fldId : Int) : getFldInfo mode fldId info = -1 := by
  cases info with
  | nil => rfl
  | cons r info =>
    rw [hzero r List.mem_cons_self]
    rfl

lemma NameInv.copyFldInfo (h : NameInv env s) {dst src : Nat} {mode : FldInfoMode}
    (hrun : copyFldInfo dst src mode s = (some (), s')) : s' = s := by
  unfold Datacl.copyFldInfo at hrun
  rw [Cmd.get_bind, getFldInfo_of_zero h.info, Cmd.when_neg (by decide)] at hrun
  exact (Cmd.pure_eq_some.mp hrun).2

lemma NameInv.copyMeta (h : NameInv env s) {dst src : Nat} (hdst : (s.fld dst).Used)
    (hrun : copyMeta dst src s = (some (), s')) : NameInv env s' := by
  unfold Datacl.copyMeta at hrun
  obtain ⟨-, hrun⟩ := Cmd.require_bind_eq_some.mp hrun
  rw [Cmd.modify_bind] at hrun
  obtain ⟨_, s₁, h1, hrun⟩ := Cmd.bind_eq_some.mp hrun
  obtain ⟨_, s₂, h2, h3⟩ := Cmd.bind_eq_some.mp hrun
  have hinv : NameInv env
      (s.setFld dst { s.fld dst with srttype := (s.fld src).srttype }) := by
    refine h.updateFld dst (h.plain dst) rfl rfl rfl rfl fun hzero => ?_
    rw [hzero] at hdst
    exact absurd rfl hdst
  obtain rfl := hinv.copyFldInfo h1
  obtain rfl := hinv.copyFldInfo h2
  obtain rfl := hinv.copyFldInfo h3
  exact hinv

lemma NameInv.delFromFldInfo (h : NameInv env s) {nFld : Nat} {fldId : Int}
    (hrun : onInfo (delFromFldInfo nFld fldId) s = (some (), s')) : NameInv env s' := by
  have hzero : ∀ (p : FldInfo → Bool), ∀ r ∈ zeroFldInfo p s.info, r = zeroFldInfoRec := by
    intro p r hr
    rw [zeroFldInfo, (sortFldInfo_perm _).mem_iff] at hr
    obtain ⟨a, ha, rfl⟩ := List.mem_map.mp hr
    rw [h.info a ha]
    split <;> rfl
  rw [onInfo, Cmd.on_apply] at hrun
  obtain ⟨hsome, rfl⟩ := Prod.ext_iff.mp hrun
  have hinfo : ∀ r ∈ (Datacl.delFromFldInfo nFld fldId s.info).2, r = zeroFldInfoRec := by
    unfold Datacl.delFromFldInfo
    rw [Cmd.require_bind]
    split
    · exact hzero _
    · exact h.info
  exact ⟨⟨h.names.tbls, h.names.flds⟩, hinfo, h.plain, h.unused, h.files, h.tbltype, h.length⟩

lemma NameInv.mvFld (h : NameInv env s) {srcTbl srcFld dstTbl : Name}
    (hrun : mvFld env srcTbl srcFld dstTbl s = (some (), s')) : NameInv env s' := by
  unfold Datacl.mvFld at hrun
  obtain ⟨-, hrun⟩ := Cmd.require_bind_eq_some.mp hrun
  obtain ⟨-, hrun⟩ := Cmd.require_bind_eq_some.mp hrun
  obtain ⟨-, hrun⟩ := Cmd.require_bind_eq_some.mp hrun
  obtain ⟨-, hrun⟩ := Cmd.require_bind_eq_some.mp hrun
  rw [Cmd.get_bind] at hrun
  obtain ⟨srcTblId, -, hrun⟩ := Cmd.ofOption_bind_eq_some.mp hrun
  obtain ⟨dstTblId, -, hrun⟩ := Cmd.ofOption_bind_eq_some.mp hrun
  obtain ⟨-, hrun⟩ := Cmd.require_bind_eq_some.mp hrun
  obtain ⟨src, -, hrun⟩ := Cmd.ofOption_bind_eq_some.mp hrun
  obtain ⟨-, hrun⟩ := Cmd.require_bind_eq_some.mp hrun
  obtain ⟨dst, s₁, hadd, hrun⟩ := Cmd.bind_eq_some.mp hrun
  obtain ⟨_, s₂, hcopy, hrun⟩ := Cmd.bind_eq_some.mp hrun
  have hnn : ¬ 0 ≤ (s.fld src).nnFldId := by
    rw [(h.plain src).1]
    decide
  simp only [Cmd.when_neg hnn] at hrun
  have hdst : (s₁.fld dst).Used := by
    obtain ⟨-, hname, -, -, -, s₀, filesz, -, hlt, -, rfl⟩ :=
      addFld_eq_some h.length h.index hadd
    rw [Store.fld_setFld_of_lt hlt]
    rintro rfl
    simp [chkFldName] at hname
  have hplain : ({ zeroFldRec with fldtype := (s.fld src).fldtype } : FldRec).Plain :=
    ⟨rfl, rfl, rfl⟩
  have hinv₂ : NameInv env s₂ := (h.addFld hplain hadd).copyMeta hdst hcopy
  exact (hinv₂.zeroFld src).delFromFldInfo hrun

lemma NameInv.renameFld (h : NameInv env s) {tbl oldFld newFld : Name}
    (hrun : renameFld env tbl oldFld newFld s = (some (), s')) : NameInv env s' := by
  unfold Datacl.renameFld at hrun
  obtain ⟨-, hrun⟩ := Cmd.require_bind_eq_some.mp hrun
  obtain ⟨hnew, hrun⟩ := Cmd.require_bind_eq_some.mp hrun
  obtain ⟨hold, hrun⟩ := Cmd.require_bind_eq_some.mp hrun
  obtain ⟨hne, hrun⟩ := Cmd.require_bind_eq_some.mp hrun
  rw [Cmd.get_bind] at hrun
  obtain ⟨tblId, -, hrun⟩ := Cmd.ofOption_bind_eq_some.mp hrun
  obtain ⟨i, hi, hrun⟩ := Cmd.ofOption_bind_eq_some.mp hrun
  obtain ⟨_, s₁, hunlink, hrun⟩ := Cmd.bind_eq_some.mp hrun
  have hs₁ : s₁ = s := by
    unfold unlinkNn at hunlink
    rw [Cmd.get_bind, (h.plain i).2.1, Cmd.when_neg (by decide)] at hunlink
    exact (Cmd.pure_eq_some.mp hunlink).2
  rw [hs₁] at hrun
  obtain ⟨_, s₂, hdel, hrun⟩ := Cmd.bind_eq_some.mp hrun
  obtain ⟨-, hrun⟩ := Cmd.require_bind_eq_some.mp hrun
  have hnn : ¬ 0 ≤ (s.fld i).nnFldId := by
    rw [(h.plain i).1]
    decide
  rw [Cmd.modify_bind, Cmd.when_neg hnn] at hrun
  obtain ⟨-, rfl⟩ := Cmd.pure_eq_some.mp hrun
  obtain ⟨-, hitbl, hiname⟩ := isFld_eq_some hi
  have hused : (s.fld i).Used := by
    rw [FldRec.Used, hiname]
    exact hold
  have hfreed : Freed tblId newFld s s₂ := by
    cases hfound : isFld s tblId newFld with
    | none =>
      rw [hfound] at hdel
      obtain ⟨-, rfl⟩ := Cmd.pure_eq_some.mp hdel
      exact .absent hfound
    | some k =>
      rw [hfound, delExisting, delFld_slot] at hdel
      obtain ⟨reset, hd⟩ := delFldAt_eq_some h.length h.index hdel
      exact .deleted hfound hd
  obtain ⟨hinv, hfree⟩ := h.freed hnew hfreed
  have hsame : s₂.fld i = s.fld i := by
    cases hfreed with
    | absent _ => rfl
    | @deleted s' k reset hfound hd =>
      rw [(h.deleted hd).fld, Store.fld_setFld_zero, if_neg]
      rintro rfl
      exact hne ((isFld_eq_some hfound).2.2.symm.trans hiname)
  rw [hsame]
  refine hinv.setFld (h.plain i) (fun hno => absurd hnew hno) (fun _ => h.files i hused) ?_
  intro _ j _ htbl
  exact hfree j (htbl.trans hitbl)

/-! ### Runs -/

/-- The condition on a step: if `rename_tbl` finds the new name in use, slot 0 holds no field of
the table that has it. -/
def RenameSlotFree (s : Store) : NameOp → Prop
  | .renameTbl _ newTbl => ∀ newTblId, isTbl s newTbl = some newTblId → SlotFree s newTblId
  | _ => True

lemma nameInv_empty (env : Env) (nTbl nFld nFldInfo : Nat) (hn : nFld ≤ 32768)
    (disk : Int → Int → Option DataFile) : NameInv env (Store.empty nTbl nFld nFldInfo disk) := by
  have hfld : ∀ i, (Store.empty nTbl nFld nFldInfo disk).fld i = zeroFldRec :=
    Store.fld_of_replicate rfl
  have htbl : ∀ i, (Store.empty nTbl nFld nFldInfo disk).tbl i = zeroTblRec := by
    intro i
    simp [Store.empty, Store.tbl, List.getElem?_replicate]
    split <;> rfl
  constructor
  · constructor
    · intro i j hused
      rw [htbl] at hused
      exact absurd rfl hused
    · intro i j hused
      rw [hfld] at hused
      exact absurd rfl hused
  · exact fun r hr => List.eq_of_mem_replicate hr
  · intro i
    rw [hfld]
    exact zeroFldRec_plain
  · exact fun i _ => hfld i
  · intro i hused
    rw [hfld] at hused
    exact absurd rfl hused
  · intro i hused
    rw [htbl] at hused
    exact absurd rfl hused
  · simpa [Store.empty] using hn

/-- One step keeps the invariant. -/
lemma NameInv.step (h : NameInv env s) {op : NameOp} (hok : RenameSlotFree s op)
    (hrun : op.exec env s = (some (), s')) : NameInv env s' := by
  cases op with
  | addTbl tbl nR =>
    obtain ⟨tblId, s₁, hadd, hret⟩ := Cmd.bind_eq_some.mp hrun
    obtain ⟨-, rfl⟩ := Cmd.pure_eq_some.mp hret
    exact h.addTbl hadd
  | delTbl tbl inTblId => exact h.delTbl hrun
  | renameTbl oldTbl newTbl => exact h.renameTbl hok hrun
  | addFld tblId fld ddirId fileno rec =>
    obtain ⟨fldId, s₁, hadd, hret⟩ := Cmd.bind_eq_some.mp hrun
    obtain ⟨-, rfl⟩ := Cmd.pure_eq_some.mp hret
    exact h.addFld rec.2 hadd
  | delFld tbl tblId fld fldId => exact h.delFld hrun
  | renameFld tbl oldFld newFld => exact h.renameFld hrun
  | mvFld srcTbl srcFld dstTbl => exact h.mvFld hrun
  | writeFile ddirId fileno file =>
    obtain rfl := Cmd.modify_eq_some.mp hrun
    exact h.sameRecs (SameRecs.setFile ..)

/-- Names stay unique in every run from an empty store in which no `rename_tbl` meets a table
with a field in slot 0 under its new name. -/
theorem uniqueNames_of_reach (env : Env) (nTbl nFld nFldInfo : Nat) (hn : nFld ≤ 32768)
    (disk : Int → Int → Option DataFile) (s : Store)
    (h : Cmd.Reach (NameOp.exec env) RenameSlotFree (Store.empty nTbl nFld nFldInfo disk) s) :
    UniqueNames s := by
  have hinv : NameInv env s :=
    Cmd.Reach.invariant (fun _ _ _ hs hok hrun => hs.step hok hrun)
      (nameInv_empty env nTbl nFld nFldInfo hn disk) h
  exact hinv.names

/-- A data file for a column of two rows. -/
def oneColumn : Int → Int → Option DataFile :=
  fun d n => if d = 0 ∧ n = 1 then some ⟨1, [7, 8]⟩ else none

/-- A name of one letter hashes to slot 0 and a name of two letters to slot 1. -/
def shortEnv : Env := ⟨fun n => n.length - 1, [true], fun _ => some 0⟩

/-- Tables `A` and `B`, and a field of `B`. -/
def twoTables (fld : Name) : List NameOp :=
  [.addTbl ['A'] 2, .addTbl ['B'] 2,
    .addFld 1 fld 0 1 ⟨{ zeroFldRec with fldtype := .I1 }, ⟨rfl, rfl, rfl⟩⟩]

/-- The store after a run. -/
def storeAfter (ops : List NameOp) : Store :=
  (Cmd.run (NameOp.exec shortEnv) (Store.empty 2 3 1 oneColumn) ops).getD
    (Store.empty 2 3 1 oneColumn)

lemma run_storeAfter {ops : List NameOp}
    (h : (Cmd.run (NameOp.exec shortEnv) (Store.empty 2 3 1 oneColumn) ops).isSome = true) :
    Cmd.run (NameOp.exec shortEnv) (Store.empty 2 3 1 oneColumn) ops = some (storeAfter ops) := by
  obtain ⟨s, hs⟩ := Option.isSome_iff_exists.mp h
  rw [storeAfter, hs, Option.getD_some]

/-- With the field of `B` in slot 1 the table is deleted before `A` takes its name. -/
theorem uniqueNames_of_reach_slot_one :
    ∃ s, Cmd.Reach (NameOp.exec shortEnv) RenameSlotFree (Store.empty 2 3 1 oneColumn) s ∧
      isTbl s ['B'] = some 0 ∧ UniqueNames s := by
  have hadd : Cmd.Reach (NameOp.exec shortEnv) RenameSlotFree (Store.empty 2 3 1 oneColumn)
      (storeAfter (twoTables ['a', 'b'])) := by
    refine Cmd.reach_of_run ?_ (run_storeAfter (by decide +kernel))
    intro op hop s
    simp only [twoTables, List.mem_cons, List.not_mem_nil, or_false] at hop
    rcases hop with rfl | rfl | rfl <;> trivial
  have hfree : RenameSlotFree (storeAfter (twoTables ['a', 'b'])) (.renameTbl ['A'] ['B']) := by
    intro i hi h0
    revert h0
    rw [show (storeAfter (twoTables ['a', 'b'])).fld 0 = zeroFldRec by decide +kernel]
    intro h0
    simp [zeroFldRec] at h0
  have hreach := hadd.tail ⟨.renameTbl ['A'] ['B'], hfree, Prod.ext (by decide +kernel) rfl⟩
  exact ⟨_, hreach, by decide +kernel,
    uniqueNames_of_reach shortEnv 2 3 1 (by decide) oneColumn _ hreach⟩

/-- With the field of `B` in slot 0 its deletion fails half-way, the status is ignored, and two
tables end up with the name `B`. -/
theorem renameTbl_duplicates_name :
    ∃ s, Cmd.Reach (NameOp.exec shortEnv) (fun _ _ => True) (Store.empty 2 3 1 oneColumn) s ∧
      ¬ UniqueNames s := by
  refine ⟨storeAfter (twoTables ['a'] ++ [.renameTbl ['A'] ['B']]),
    Cmd.reach_of_run (fun _ _ _ => trivial) (run_storeAfter (by decide +kernel)), ?_⟩
  intro hunique
  have hsame := hunique.tbls 0 1 (by decide +kernel) (by decide +kernel)
  exact absurd hsame (by decide)

end Datacl
