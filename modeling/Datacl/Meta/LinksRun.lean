import Datacl.Meta.LinksMove
import Datacl.Meta.NamesRun

/-!
# Auxiliary fields along a run
-/

namespace Datacl

variable {env : Env} {s s' : Store}

/-! ### Operations -/

/-- A call of one of the operations on fields, the creation of a table, the choice of a dictionary,
or a change of the data files by something else. -/
inductive MetaOp where
  | addTbl (tbl : Name) (nR : Int)
  | addFld (tblId : Int) (fld : Name) (ddirId fileno : Int) (rec : PreparedRec)
  | addAuxFld (tbl : Name) (inTblId : Int) (fld : Name) (inFldId : Int) (ddirId fileno : Int)
      (auxtype : AuxType) (rec : FldRec)
  | delFld (tbl : Name) (tblId : Int) (fld : Name) (fldId : Int)
  | renameFld (tbl oldFld newFld : Name)
  | mvFld (srcTbl srcFld dstTbl : Name)
  | dupFld (tbl f1 f2 : Name)
  | setDictFld (tblId fldId dictFldId : Nat)
  | writeFile (ddirId fileno : Int) (file : Option DataFile)

/-- The call. -/
def MetaOp.exec (env : Env) : MetaOp → Cmd Store Unit
  | .addTbl tbl nR => do let _ ← Datacl.addTbl env tbl nR
  | .addFld tblId fld ddirId fileno rec => do
    let _ ← Datacl.addFld env tblId fld ddirId fileno rec.1
  | .addAuxFld tbl inTblId fld inFldId ddirId fileno auxtype rec => do
    let _ ← Datacl.addAuxFld env tbl inTblId fld inFldId ddirId fileno auxtype rec
  | .delFld tbl tblId fld fldId => Datacl.delFld env tbl tblId fld fldId
  | .renameFld tbl oldFld newFld => Datacl.renameFld env tbl oldFld newFld
  | .mvFld srcTbl srcFld dstTbl => Datacl.mvFld env srcTbl srcFld dstTbl
  | .dupFld tbl f1 f2 => Datacl.dupFld env tbl f1 f2
  | .setDictFld tblId fldId dictFldId => intSetDictFld env tblId fldId dictFldId
  | .writeFile ddirId fileno file => Cmd.modify (Store.setFile ddirId fileno file)

/-- The call adds a field of strings, which has no lengths and offsets yet. -/
def MetaOp.AddsStrings : MetaOp → Prop
  | .addFld _ _ _ _ rec => rec.1.fldtype = .SV
  | _ => False

/-- The field of this name in the table of this name. -/
def fldSlot (s : Store) (tbl fld : Name) : Option Nat := do
  let tblId ← isTbl s tbl
  isFld s tblId fld

/-- The condition on a step. A field that is deleted, also to make room for another one of its
name, has no two consecutive records in the index; an auxiliary field goes to the table of its
parent, and lengths and offsets to fields of strings that have none; a field that is renamed or
duplicated is a primary one that is not one of strings; a field that is moved is nobody's
dictionary; tables are new; and only primary fields have dictionaries. -/
def MetaCareful (s : Store) : MetaOp → Prop
  | .addTbl tbl _ => isTbl s tbl = none
  | .addFld tblId fld _ _ _ => ∀ i, isFld s tblId fld = some i → Apart i s.info
  | .addAuxFld tbl inTblId fld inFldId _ _ auxtype _ => AuxCareful s tbl inTblId fld inFldId auxtype
  | .delFld tbl tblId fld fldId => ∀ i, delSlot s tbl tblId fld fldId = some i → Apart i s.info
  | .renameFld tbl oldFld newFld =>
    (∀ i, fldSlot s tbl newFld = some i → Apart i s.info) ∧
      ∀ i, fldSlot s tbl oldFld = some i → (s.fld i).fldtype ≠ .SV
  | .mvFld srcTbl srcFld dstTbl =>
    (∀ i, fldSlot s dstTbl srcFld = some i → Apart i s.info) ∧
      ∀ i, fldSlot s srcTbl srcFld = some i → ∀ r ∈ s.info, r.mode = .fkFldTxtLkp → r.xxx ≠ i
  | .dupFld tbl f1 f2 =>
    (∀ i, fldSlot s tbl f2 = some i → Apart i s.info) ∧
      ∀ i tblId, isTbl s tbl = some tblId → (s.fld i).tblId = tblId → (s.fld i).name = f1 →
        (s.fld i).auxtype = .undefAuxtype ∧ (s.fld i).fldtype ≠ .SV
  | .setDictFld _ fldId _ => (s.fld fldId).auxtype = .undefAuxtype
  | .writeFile _ _ _ => True

/-! ### One step -/

lemma fldSlot_eq_some {tbl fld : Name} {t i : Nat} (ht : isTbl s tbl = some t)
    (hi : isFld s t fld = some i) : fldSlot s tbl fld = some i := by
  rw [fldSlot, ht]
  exact hi

lemma addTbl_flds {tbl : Name} {nR : Int} {tblId : Nat} (hnew : isTbl s tbl = none)
    (h : addTbl env tbl nR s = (some tblId, s')) : s'.flds = s.flds ∧ s'.info = s.info := by
  unfold addTbl at h
  obtain ⟨-, h⟩ := Cmd.require_bind_eq_some.mp h
  obtain ⟨-, h⟩ := Cmd.require_bind_eq_some.mp h
  obtain ⟨-, h⟩ := Cmd.require_bind_eq_some.mp h
  obtain ⟨i, s₁, hslot, h⟩ := Cmd.bind_eq_some.mp h
  rw [Cmd.modify_bind] at h
  obtain ⟨-, rfl⟩ := Cmd.pure_eq_some.mp h
  unfold tblSlot at hslot
  rw [Cmd.get_bind, hnew] at hslot
  cases hempty : getEmptyTbl env s tbl with
  | none =>
    rw [hempty] at hslot
    cases hslot
  | some j =>
    rw [hempty] at hslot
    obtain ⟨-, rfl⟩ := Cmd.pure_eq_some.mp hslot
    exact ⟨rfl, rfl⟩

/-- Fields of strings and of fixed strings are primary fields. -/
lemma MetaInv.primary_of_text (h : MetaInv s) {i : Nat}
    (hi : (s.fld i).fldtype = .SV ∨ (s.fld i).fldtype = .SC) :
    (s.fld i).Used ∧ (s.fld i).auxtype = .undefAuxtype := by
  constructor
  · by_contra hused
    rw [h.unused i hused] at hi
    simp [zeroFldRec] at hi
  · by_contra hk
    obtain ⟨p, hp⟩ := h.aux i hk
    have htype := hp.type
    rcases hi with hi | hi <;> rw [hi] at htype <;>
      cases hkind : (s.fld i).auxtype <;> simp [hkind, AuxType.Allows] at htype

lemma MetaInv.setDictFld (h : MetaInv s) {tblId fldId dictFldId : Nat}
    (hprim : (s.fld fldId).auxtype = .undefAuxtype)
    (hrun : intSetDictFld env tblId fldId dictFldId s = (some (), s')) :
    MetaInv s' ∧ KeepsStrings s s' := by
  unfold intSetDictFld at hrun
  rw [Cmd.get_bind] at hrun
  obtain ⟨htext, hrun⟩ := Cmd.require_bind_eq_some.mp hrun
  obtain ⟨_, s₁, hadd, hrun⟩ := Cmd.bind_eq_some.mp hrun
  rw [Cmd.get_bind] at hrun
  obtain ⟨-, hrun⟩ := Cmd.require_bind_eq_some.mp hrun
  obtain ⟨hcheck, rfl⟩ := Cmd.require_eq_some.mp hrun
  obtain ⟨hflds, -, hmem⟩ := h.onInfo_add hadd
  have hused : (s.fld fldId).Used := by
    by_contra hno
    rw [chkFldMeta, Store.fld_congr hflds, h.unused fldId hno] at hcheck
    simp [zeroFldRec] at hcheck
  obtain ⟨hdict, hdictprim⟩ := h.primary_of_text htext
  refine ⟨h.addDict hused hprim hdict hdictprim hadd, ?_⟩
  exact .of_info (Store.fld_congr hflds) fun r hr hm => (hmem r hm).mpr (.inl hr)

/-- One step keeps the invariant and, unless it adds a field of strings, leaves the fields of
strings with their lengths and offsets. -/
lemma MetaInv.step (h : MetaInv s) {op : MetaOp} (hok : MetaCareful s op)
    (hrun : op.exec env s = (some (), s')) :
    MetaInv s' ∧ (¬ op.AddsStrings → KeepsStrings s s') := by
  cases op with
  | addTbl tbl nR =>
    obtain ⟨tblId, s₁, hadd, hret⟩ := Cmd.bind_eq_some.mp hrun
    obtain ⟨-, rfl⟩ := Cmd.pure_eq_some.mp hret
    obtain ⟨hflds, hinfo⟩ := addTbl_flds hok hadd
    refine ⟨h.congr hflds hinfo, fun _ => .of_info (Store.fld_congr hflds) ?_⟩
    rw [hinfo]
    exact fun r hr _ => hr
  | addFld tblId fld ddirId fileno rec =>
    obtain ⟨fldId, s₁, hadd, hret⟩ := Cmd.bind_eq_some.mp hrun
    obtain ⟨-, rfl⟩ := Cmd.pure_eq_some.mp hret
    exact h.addFld rec.2 hok hadd
  | addAuxFld tbl inTblId fld inFldId ddirId fileno auxtype rec =>
    obtain ⟨auxId, s₁, hadd, hret⟩ := Cmd.bind_eq_some.mp hrun
    obtain ⟨-, rfl⟩ := Cmd.pure_eq_some.mp hret
    obtain ⟨t, p, -, hadded⟩ := h.addAuxFld hok hadd
    exact ⟨hadded.inv, fun _ => hadded.strings⟩
  | delFld tbl tblId fld fldId =>
    rcases delFld_delSlot h.length h.index hrun with rfl | ⟨i, reset, hslot, hdel⟩
    · exact ⟨h, fun _ => .refl _⟩
    · obtain ⟨hinv, hkeep⟩ := h.deleted hdel (hok i hslot)
      exact ⟨hinv, fun _ => hkeep⟩
  | renameFld tbl oldFld newFld =>
    obtain ⟨hinv, hkeep⟩ := h.renameFld (fun t i ht hi => hok.1 i (fldSlot_eq_some ht hi))
      (fun t i ht hi => hok.2 i (fldSlot_eq_some ht hi)) hrun
    exact ⟨hinv, fun _ => hkeep⟩
  | mvFld srcTbl srcFld dstTbl =>
    obtain ⟨hinv, hkeep⟩ := h.mvFld (fun t i ht hi => hok.1 i (fldSlot_eq_some ht hi))
      (fun t i ht hi => hok.2 i (fldSlot_eq_some ht hi)) hrun
    exact ⟨hinv, fun _ => hkeep⟩
  | dupFld tbl f1 f2 =>
    obtain ⟨hinv, hkeep⟩ := h.dupFld (fun t i ht hi => hok.1 i (fldSlot_eq_some ht hi))
      (fun t i ht htbl hname => hok.2 i t ht htbl hname) hrun
    exact ⟨hinv, fun _ => hkeep⟩
  | setDictFld tblId fldId dictFldId =>
    obtain ⟨hinv, hkeep⟩ := h.setDictFld hok hrun
    exact ⟨hinv, fun _ => hkeep⟩
  | writeFile ddirId fileno file =>
    obtain rfl := Cmd.modify_eq_some.mp hrun
    have hsame := SameRecs.setFile s ddirId fileno file
    exact ⟨h.sameRecs hsame, fun _ => .sameRecs hsame⟩

/-! ### Runs -/

lemma metaInv_empty (nTbl nFld nFldInfo : Nat) (hn : nFld ≤ 32768)
    (disk : Int → Int → Option DataFile) : MetaInv (Store.empty nTbl nFld nFldInfo disk) := by
  have hfld : ∀ i, (Store.empty nTbl nFld nFldInfo disk).fld i = zeroFldRec :=
    Store.fld_of_replicate rfl
  have hinfo : ∀ r ∈ (Store.empty nTbl nFld nFldInfo disk).info, r = zeroFldInfoRec :=
    fun r hr => List.eq_of_mem_replicate hr
  constructor
  · simpa [Store.empty] using hn
  · refine ⟨List.pairwise_of_forall_mem_list fun a ha b hb => ?_, fun r hr => .inl (hinfo r hr)⟩
    rw [hinfo a ha, hinfo b hb]
    exact le_refl zeroFldInfoRec.toI8
  · exact fun i _ => hfld i
  · intro i _
    rw [hfld]
    decide
  · intro i hi
    rw [hfld] at hi
    exact absurd rfl hi
  · intro p hp
    rw [hfld] at hp
    exact absurd hp (by decide)
  · intro r hr hm
    rw [hinfo r hr] at hm
    exact absurd rfl hm

lemma MetaInv.reach {s₀ : Store} (h : MetaInv s₀)
    (hreach : Cmd.Reach (MetaOp.exec env) MetaCareful s₀ s) : MetaInv s :=
  Cmd.Reach.invariant (fun _ _ _ hs hok hrun => (hs.step hok hrun).1) h hreach

/-- A field of strings that had its lengths and offsets still has them. -/
lemma KeepsStrings.chkLenOff (hkeep : KeepsStrings s s') (h : MetaInv s) (h' : MetaInv s') {i : Nat}
    (hused : (s'.fld i).Used) (htype : (s'.fld i).fldtype = .SV)
    (hc : chkLenOff s i (s.fld i) = true) : chkLenOff s' i (s'.fld i) = true := by
  obtain ⟨-, ht⟩ := hkeep.old i hused htype
  rw [h.chkLenOff ht] at hc
  rw [h'.chkLenOff htype]
  intro k hk
  obtain ⟨r, hr, hm, hf⟩ := hc k hk
  exact ⟨r, hkeep.recs i hused htype r hr (by rw [hm]; exact hk) hf, hm, hf⟩

/-- Every field of strings but the one in slot `i` has its lengths and its offsets. -/
def StringsCompleteBut (i : Nat) (s : Store) : Prop :=
  ∀ j, j ≠ i → (s.fld j).Used → (s.fld j).fldtype = .SV → chkLenOff s j (s.fld j) = true

lemma AuxAdded.rec_mem {p : Nat} {k : AuxType} (h : AuxAdded p k s s')
    (hk : k.mode ≠ .undefFldInfo) : ∃ r ∈ s'.info, r.mode = k.mode ∧ r.fldId = p := by
  obtain ⟨a, hlink⟩ := h.link
  cases k with
  | undefAuxtype => exact absurd rfl hk
  | nn => exact absurd rfl hk
  | len =>
    obtain ⟨r, hr, hm, hf, -⟩ := hlink
    exact ⟨r, hr, hm, hf⟩
  | off =>
    obtain ⟨r, hr, hm, hf, -⟩ := hlink
    exact ⟨r, hr, hm, hf⟩

lemma MetaInv.addAux_exec (h : MetaInv s) {t i : Nat} {d n : Int} {k : AuxType} {rec : FldRec}
    (hok : MetaCareful s (.addAuxFld [] t [] i d n k rec))
    (hrun : (MetaOp.addAuxFld [] t [] i d n k rec).exec env s = (some (), s')) :
    AuxAdded i k s s' := by
  obtain ⟨auxId, s₁, hadd, hret⟩ := Cmd.bind_eq_some.mp hrun
  obtain ⟨-, rfl⟩ := Cmd.pure_eq_some.mp hret
  obtain ⟨t', p, hslot, hadded⟩ := h.addAuxFld hok hadd
  rw [auxSlot_ids ⟨Int.natCast_nonneg t, Int.natCast_nonneg i⟩] at hslot
  obtain ⟨-, rfl⟩ := Prod.mk.inj (Option.some.inj hslot)
  exact hadded

/-- Lengths and offsets complete a field of strings. -/
lemma MetaInv.complete (h : MetaInv s) {t i : Nat} {d n d' n' : Int} {rec rec' : FldRec}
    {s₁ s₂ : Store} (hbut : StringsCompleteBut i s)
    (hok₁ : MetaCareful s (.addAuxFld [] t [] i d n .len rec))
    (hrun₁ : (MetaOp.addAuxFld [] t [] i d n .len rec).exec env s = (some (), s₁))
    (hok₂ : MetaCareful s₁ (.addAuxFld [] t [] i d' n' .off rec'))
    (hrun₂ : (MetaOp.addAuxFld [] t [] i d' n' .off rec').exec env s₁ = (some (), s₂)) :
    StringsComplete s₂ := by
  have h₁ := h.addAux_exec hok₁ hrun₁
  have h₂ := h₁.inv.addAux_exec hok₂ hrun₂
  have hkeep := h₁.strings.trans h₂.strings
  intro j hused htype
  by_cases hj : j = i
  · subst hj
    rw [h₂.inv.chkLenOff htype]
    intro k hk
    cases k with
    | undefAuxtype => exact absurd rfl hk
    | nn => exact absurd rfl hk
    | len =>
      obtain ⟨r, hr, hm, hf⟩ := h₁.rec_mem (by decide)
      exact ⟨r, h₂.strings.recs j hused htype r hr (by rw [hm]; decide) hf, hm, hf⟩
    | off => exact h₂.rec_mem (by decide)
  · obtain ⟨hu, ht⟩ := hkeep.old j hused htype
    exact hkeep.chkLenOff h h₂.inv hused htype (hbut j hj hu ht)

/-- Data files for a column of strings, its lengths and its offsets. -/
def threeFiles : Int → Int → Option DataFile :=
  fun d n => if d = 0 ∧ 1 ≤ n ∧ n ≤ 3 then some ⟨1, [7, 8]⟩ else none

/-- A store with the table `T`. -/
def emptyTblStore : Store :=
  (MetaOp.exec shortEnv (.addTbl ['T'] 2) (Store.empty 2 4 3 threeFiles)).2

/-- Add the field `a` of strings to `T`. -/
def addStrings : MetaOp :=
  .addFld 0 ['a'] 0 1 ⟨{ zeroFldRec with fldtype := .SV }, ⟨rfl, rfl, rfl⟩⟩

/-- The store with the field of strings. -/
def svStore : Store := (addStrings.exec shortEnv emptyTblStore).2

/-- The store with its lengths as well. -/
def svLenStore : Store :=
  ((MetaOp.addAuxFld [] (0 : Nat) [] (0 : Nat) 0 2 .len zeroFldRec).exec shortEnv svStore).2

/-- The store with its offsets as well. -/
def svOffStore : Store :=
  ((MetaOp.addAuxFld [] (0 : Nat) [] (0 : Nat) 0 3 .off zeroFldRec).exec shortEnv svLenStore).2

lemma emptyTblStore_careful : MetaCareful (Store.empty 2 4 3 threeFiles) (.addTbl ['T'] 2) := by
  show isTbl _ _ = none
  decide +kernel

lemma reach_emptyTblStore (ok : Store → MetaOp → Prop)
    (hok : ok (Store.empty 2 4 3 threeFiles) (.addTbl ['T'] 2)) :
    Cmd.Reach (MetaOp.exec shortEnv) ok (Store.empty 2 4 3 threeFiles) emptyTblStore :=
  .single ⟨_, hok, Prod.ext (by decide +kernel) rfl⟩

lemma metaInv_emptyTblStore : MetaInv emptyTblStore :=
  (metaInv_empty 2 4 3 (by decide) threeFiles).reach
    (reach_emptyTblStore MetaCareful emptyTblStore_careful)

lemma auxCareful_zero {s : Store} {k : AuxType} (htbl : (s.fld 0).tblId = 0)
    (htype : (s.fld 0).fldtype = .SV) (hno : auxFldId s 0 k < 0) :
    AuxCareful s [] (0 : Nat) [] (0 : Nat) k := by
  intro t p hslot
  rw [auxSlot_ids (by decide)] at hslot
  obtain ⟨rfl, rfl⟩ := Prod.mk.inj (Option.some.inj hslot)
  exact ⟨htbl, fun _ => ⟨htype, hno⟩⟩

end Datacl
