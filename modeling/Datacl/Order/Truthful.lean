import Datacl.Meta.FieldSpecs
import Datacl.Order.Columns

/-!
# The recorded order of a column

A field is truthful if its column is in the order its record says. The invariant of a run also
says that no two fields share a data file, so that writing the file of one field leaves the
others alone; the fields whose files have been written and whose records are not settled yet are
listed as dirty.
-/

namespace Datacl

/-- Floating-point numbers are ordered by their magnitudes, with the sign of the first bit. -/
def floatKey (w : Nat) (x : Int) : Int := if x < 0 then -(x % 2 ^ (w - 1)) else x

/-- What the cells of a column are ordered by. -/
def cellKey : FldType → Int → Int
  | .F4 => floatKey 32
  | .F8 => floatKey 64
  | _ => id

/-- The cells are in the order that the record says, if it says one. -/
def FldRec.Ordered (r : FldRec) (cells : List Int) : Prop :=
  ∀ d : SortDir, r.srttype = d.srttype →
    cells.Pairwise fun a b => d.le (cellKey r.fldtype a) (cellKey r.fldtype b)

def TruthfulAt (s : Store) (i : Nat) : Prop :=
  (s.fld i).Used → ∀ f, s.disk (s.fld i).ddirId (s.fld i).fileno = some f →
    (s.fld i).Ordered f.cells

/-- Every field that is recorded as ascending (descending) has a non-decreasing (non-increasing)
column. -/
def Truthful (s : Store) : Prop := ∀ i, TruthfulAt s i

/-- The cells of the file have the width and the range of the type, for the types that can be
sorted. -/
def DataFile.Fits (t : FldType) (f : DataFile) : Prop :=
  t = .I4 ∨ t = .I8 → 8 * f.width = fldBits t ∧ ∀ x ∈ f.cells, InBits (fldBits t) x

structure SortInv (dirty : List Nat) (s : Store) : Prop where
  truthful : ∀ i ∉ dirty, TruthfulAt s i
  files : ∀ i j, (s.fld i).Used → (s.fld j).Used → (s.fld i).ddirId = (s.fld j).ddirId →
    (s.fld i).fileno = (s.fld j).fileno → i = j
  fileno : ∀ i, (s.fld i).Used → (s.fld i).fileno < s.nextFileno
  fits : ∀ i, (s.fld i).Used → ∀ f, s.disk (s.fld i).ddirId (s.fld i).fileno = some f →
    f.Fits (s.fld i).fldtype

/-! ### Orders -/

lemma SortDir.le_refl (d : SortDir) (a : Int) : d.le a a := by
  cases d with
  | asc => exact Int.le_refl a
  | desc => exact Int.le_refl a

lemma SortDir.le_trans {d : SortDir} {a b c : Int} (h : d.le a b) (h' : d.le b c) : d.le a c := by
  cases d with
  | asc => exact Int.le_trans h h'
  | desc => exact Int.le_trans h' h

lemma SortDir.le_antisymm {d : SortDir} {a b : Int} (h : d.le a b) (h' : d.le b a) : a = b := by
  cases d with
  | asc => exact Int.le_antisymm h h'
  | desc => exact Int.le_antisymm h' h

lemma SortDir.srttype_inj {d d' : SortDir} (h : d.srttype = d'.srttype) : d = d' := by
  cases d <;> cases d' <;> simp_all [SortDir.srttype]

lemma FldRec.ordered_unknown {r : FldRec} (h : r.srttype = .unknown) (cells : List Int) :
    r.Ordered cells := by
  intro d hd
  cases d <;> simp [h, SortDir.srttype] at hd

lemma DataFile.Fits.cells {t : FldType} {f : DataFile} (h : f.Fits t) {cells : List Int}
    (hsub : ∀ x ∈ cells, x ∈ f.cells) : DataFile.Fits t { f with cells := cells } :=
  fun ht => ⟨(h ht).1, fun x hx => (h ht).2 x (hsub x hx)⟩

/-! ### What deletions leave -/

/-- The two records have the same column and the same recorded order. -/
structure FldRec.SameColumn (r r' : FldRec) : Prop where
  used : r'.Used ↔ r.Used
  ddirId : r'.ddirId = r.ddirId
  fileno : r'.fileno = r.fileno
  srttype : r'.srttype = r.srttype
  fldtype : r'.fldtype = r.fldtype

lemma FldRec.SameColumn.refl (r : FldRec) : r.SameColumn r := ⟨Iff.rfl, rfl, rfl, rfl, rfl⟩

lemma FldRec.SameColumn.trans {r r₁ r' : FldRec} (h : r.SameColumn r₁) (h' : r₁.SameColumn r') :
    r.SameColumn r' :=
  ⟨h'.used.trans h.used, h'.ddirId.trans h.ddirId, h'.fileno.trans h.fileno,
    h'.srttype.trans h.srttype, h'.fldtype.trans h.fldtype⟩

/-- The record of a slot without a column. -/
def FldRec.Blank (r : FldRec) : Prop := ¬ r.Used ∧ r.srttype = .unknown

lemma zeroFldRec_blank : zeroFldRec.Blank := ⟨fun h => h rfl, rfl⟩

lemma FldRec.SameColumn.blank {r r' : FldRec} (h : r.SameColumn r') (hr : r.Blank) : r'.Blank :=
  ⟨fun hused => hr.1 (h.used.mp hused), h.srttype.trans hr.2⟩

/-- Fields and files of `s` are gone or unchanged. -/
structure Shrinks (s s' : Store) : Prop where
  nextFileno : s'.nextFileno = s.nextFileno
  disk : ∀ d n, s'.disk d n = none ∨ s'.disk d n = s.disk d n
  flds : ∀ j, (s.fld j).SameColumn (s'.fld j) ∨ (s'.fld j).Blank

lemma Shrinks.refl (s : Store) : Shrinks s s :=
  ⟨rfl, fun _ _ => .inr rfl, fun _ => .inl (FldRec.SameColumn.refl _)⟩

lemma Shrinks.trans {s s₁ s' : Store} (h : Shrinks s s₁) (h' : Shrinks s₁ s') : Shrinks s s' := by
  refine ⟨h'.nextFileno.trans h.nextFileno, fun d n => ?_, fun j => ?_⟩
  · rcases h'.disk d n with hnone | hsame
    · exact .inl hnone
    · rw [hsame]
      exact h.disk d n
  · rcases h'.flds j with hj' | hblank
    · rcases h.flds j with hj | hblank
      · exact .inl (hj.trans hj')
      · exact .inr (hj'.blank hblank)
    · exact .inr hblank

section Shrinks

variable {env : Env} {s s' : Store}

lemma Shrinks.setFld {i : Nat} {r : FldRec} (h : (s.fld i).SameColumn r ∨ r.Blank) :
    Shrinks s (s.setFld i r) := by
  refine ⟨rfl, fun _ _ => .inr rfl, fun j => ?_⟩
  rw [Store.fld_setFld]
  split
  · next hj =>
    rw [hj.1]
    exact h
  · exact .inl (FldRec.SameColumn.refl _)

lemma Shrinks.setFile_none (s : Store) (d n : Int) : Shrinks s (s.setFile d n none) :=
  ⟨rfl, (Frame.setFile_none s d n).disk, fun _ => .inl (FldRec.SameColumn.refl _)⟩

lemma Shrinks.of_eq (hflds : s'.flds = s.flds) (hdisk : s'.disk = s.disk)
    (hnext : s'.nextFileno = s.nextFileno) : Shrinks s s' := by
  refine ⟨hnext, fun d n => .inr (by rw [hdisk]), fun j => .inl ?_⟩
  rw [Store.fld, Store.fld, hflds]
  exact FldRec.SameColumn.refl _

lemma onInfo_shrinks {α : Type} (c : Cmd (List FldInfo) α) (s : Store) :
    Shrinks s (onInfo c s).2 := Shrinks.of_eq rfl rfl rfl

lemma qDelete_shrinks (env : Env) (d n : Int) (s : Store) : Shrinks s (qDelete env d n s).2 := by
  rcases qDelete_state env d n s with h | h
  · rw [h]
    exact Shrinks.refl s
  · rw [h]
    exact Shrinks.setFile_none s d n

/-! ### Commands that only delete -/

/-- The command deletes fields and files and changes no column. -/
def Deletes {α : Type} (c : Cmd Store α) : Prop := ∀ s, Shrinks s (c s).2

lemma Deletes.pure {α : Type} (a : α) : Deletes (pure a : Cmd Store α) := fun s => Shrinks.refl s

lemma Deletes.get : Deletes (Cmd.get : Cmd Store Store) := fun s => Shrinks.refl s

lemma Deletes.fail {α : Type} : Deletes (Cmd.fail : Cmd Store α) := fun s => Shrinks.refl s

lemma Deletes.require (p : Prop) [Decidable p] : Deletes (Cmd.require p : Cmd Store Unit) :=
  fun s => Shrinks.refl s

lemma Deletes.ofOption {α : Type} (o : Option α) : Deletes (Cmd.ofOption o : Cmd Store α) := by
  cases o with
  | none => exact Deletes.fail
  | some a => exact Deletes.pure a

lemma Deletes.bind {α β : Type} {c : Cmd Store α} {f : α → Cmd Store β} (hc : Deletes c)
    (hf : ∀ a, Deletes (f a)) : Deletes (c >>= f) := by
  intro s
  rw [Cmd.bind_apply]
  have h := hc s
  cases hrun : c s with
  | mk a s₁ =>
    rw [hrun] at h
    cases a with
    | none => exact h
    | some a => exact h.trans (hf a s₁)

lemma Deletes.when (p : Prop) [Decidable p] {c : Cmd Store Unit} (hc : Deletes c) :
    Deletes (Cmd.when p c) := by
  by_cases h : p
  · rw [Cmd.when_pos h]
    exact hc
  · rw [Cmd.when_neg h]
    exact Deletes.pure ()

lemma Deletes.attempt {α : Type} {c : Cmd Store α} (hc : Deletes c) : Deletes (Cmd.attempt c) := hc

lemma Deletes.status {α : Type} {c : Cmd Store α} (hc : Deletes c) : Deletes (Cmd.status c) := hc

lemma Deletes.qDelete (env : Env) (d n : Int) : Deletes (qDelete env d n) := qDelete_shrinks env d n

lemma Deletes.zeroFld (i : Nat) : Deletes (Cmd.modify (Store.setFld i zeroFldRec)) :=
  fun _ => Shrinks.setFld (.inr zeroFldRec_blank)

lemma Deletes.forEach {ι : Type} {f : ι → Cmd Store Unit} (hf : ∀ x, Deletes (f x))
    (xs : List ι) : Deletes (Cmd.forEach f xs) := by
  induction xs with
  | nil => exact Deletes.pure ()
  | cons x xs ih => exact (hf x).bind fun _ => ih

lemma Deletes.delAuxRec (env : Env) (auxId : Nat) : Deletes (delAuxRec env auxId) :=
  Deletes.get.bind fun _ =>
    (Deletes.when _ (Deletes.qDelete env _ _).attempt).bind fun _ =>
      (Deletes.qDelete env _ _).bind fun _ => Deletes.zeroFld auxId

lemma Deletes.delInfoAt (env : Env) (fldId i : Nat) (st : Bool) :
    Deletes (delInfoAt env fldId i st) := by
  unfold Datacl.delInfoAt
  refine Deletes.get.bind fun s => ?_
  dsimp only
  split
  · exact Deletes.pure st
  · split
    · exact Deletes.fail
    · refine Deletes.bind (fun _ => Shrinks.of_eq rfl rfl rfl) fun _ => ?_
      split
      · exact Deletes.pure st
      · exact (Deletes.delAuxRec env _).bind fun _ => Deletes.pure true

lemma Deletes.delInfoLoop (env : Env) (fldId : Nat) (is : List Nat) (st : Bool) :
    Deletes (delInfoLoop env fldId is st) := by
  induction is generalizing st with
  | nil => exact Deletes.pure st
  | cons i is ih => exact (Deletes.delInfoAt env fldId i st).bind ih

lemma Deletes.delNnFld (env : Env) (fldId : Nat) (nnFldId : Int) :
    Deletes (delNnFld env fldId nnFldId) := by
  unfold Datacl.delNnFld
  split
  · exact Deletes.get.bind fun _ => (Deletes.require _).bind fun _ =>
      (Deletes.when _ (Deletes.qDelete env _ _)).status.bind fun _ =>
        (Deletes.zeroFld _).bind fun _ => Deletes.pure _
  · exact Deletes.pure true

lemma Deletes.delFldAt (env : Env) (fldId : Nat) : Deletes (delFldAt env fldId) :=
  Deletes.get.bind fun _ => (Deletes.require _).bind fun _ => (Deletes.require _).bind fun _ =>
    (Deletes.when _ (Deletes.qDelete env _ _)).bind fun _ => (Deletes.zeroFld fldId).bind fun _ =>
      (Deletes.delNnFld env fldId _).bind fun _ =>
        (Deletes.delInfoLoop env fldId _ _).bind fun _ => Deletes.require _

lemma Deletes.lookupTbl (tbl : Name) (tblId : Int) : Deletes (lookupTbl tbl tblId) := by
  unfold Datacl.lookupTbl
  split
  · exact Deletes.pure _
  · exact (Deletes.require _).bind fun _ => Deletes.get.bind fun _ => Deletes.pure _

lemma Deletes.lookupFld (tblId : Int) (fld : Name) (fldId : Int) :
    Deletes (lookupFld tblId fld fldId) := by
  unfold Datacl.lookupFld
  split
  · exact Deletes.pure _
  · exact (Deletes.require _).bind fun _ => Deletes.get.bind fun _ => Deletes.pure _

lemma Deletes.delFld (env : Env) (tbl : Name) (tblId : Int) (fld : Name) (fldId : Int) :
    Deletes (delFld env tbl tblId fld fldId) := by
  refine (Deletes.lookupTbl tbl tblId).bind fun t => ?_
  cases t with
  | none => exact Deletes.pure ()
  | some t =>
    refine (Deletes.lookupFld t fld fldId).bind fun f => ?_
    cases f with
    | none => exact Deletes.pure ()
    | some f => exact Deletes.delFldAt env f

lemma Deletes.delTbl (env : Env) (tbl : Name) (inTblId : Int) : Deletes (delTbl env tbl inTblId) := by
  refine (Deletes.lookupTbl tbl inTblId).bind fun t => ?_
  cases t with
  | none => exact Deletes.pure ()
  | some t =>
    refine Deletes.get.bind fun s => (Deletes.require _).bind fun _ =>
      (Deletes.forEach (fun i => ?_) _).bind fun _ =>
        fun _ => Shrinks.of_eq rfl rfl rfl
    exact Deletes.get.bind fun _ => Deletes.when _ (Deletes.delFld env _ _ _ _)

lemma Deletes.tblSlot (env : Env) (tbl : Name) : Deletes (tblSlot env tbl) := by
  refine Deletes.get.bind fun s => ?_
  cases isTbl s tbl with
  | none => exact Deletes.ofOption _
  | some tblId => exact (Deletes.delTbl env [] tblId).bind fun _ => Deletes.pure tblId

lemma Deletes.addTbl (env : Env) (tbl : Name) (nR : Int) : Deletes (addTbl env tbl nR) :=
  (Deletes.require _).bind fun _ => (Deletes.require _).bind fun _ =>
    (Deletes.require _).bind fun _ => (Deletes.tblSlot env tbl).bind fun tblId =>
      Deletes.bind (fun _ => Shrinks.of_eq rfl rfl rfl) fun _ => Deletes.pure tblId

lemma Deletes.shrinks {α : Type} {c : Cmd Store α} (hc : Deletes c) {r : Option α}
    (h : c s = (r, s')) : Shrinks s s' := by
  have := hc s
  rwa [h] at this

end Shrinks

/-! ### The invariant -/

section Invariant

variable {env : Env} {s s' : Store} {dirty : List Nat}

lemma SortInv.shrinks (h : SortInv dirty s) (hs : Shrinks s s') : SortInv dirty s' := by
  have hcol : ∀ i, (s'.fld i).Used → (s.fld i).Used ∧ (s.fld i).SameColumn (s'.fld i) := by
    intro i hi
    rcases hs.flds i with hsame | hblank
    · exact ⟨hsame.used.mp hi, hsame⟩
    · exact absurd hi hblank.1
  have hfile : ∀ i, (s'.fld i).Used → ∀ f,
      s'.disk (s'.fld i).ddirId (s'.fld i).fileno = some f →
        s.disk (s.fld i).ddirId (s.fld i).fileno = some f := by
    intro i hi f hf
    obtain ⟨-, hsame⟩ := hcol i hi
    rw [hsame.ddirId, hsame.fileno] at hf
    rcases hs.disk (s.fld i).ddirId (s.fld i).fileno with hnone | hdisk
    · rw [hnone] at hf
      cases hf
    · rwa [hdisk] at hf
  constructor
  · intro i hi hused f hf d hd
    obtain ⟨hused', hsame⟩ := hcol i hused
    rw [hsame.srttype] at hd
    rw [hsame.fldtype]
    exact h.truthful i hi hused' f (hfile i hused f hf) d hd
  · intro i j hi hj hd hn
    obtain ⟨hi', hsi⟩ := hcol i hi
    obtain ⟨hj', hsj⟩ := hcol j hj
    rw [hsi.ddirId, hsj.ddirId] at hd
    rw [hsi.fileno, hsj.fileno] at hn
    exact h.files i j hi' hj' hd hn
  · intro i hi
    obtain ⟨hi', hsame⟩ := hcol i hi
    rw [hsame.fileno, hs.nextFileno]
    exact h.fileno i hi'
  · intro i hi f hf
    obtain ⟨hi', hsame⟩ := hcol i hi
    rw [hsame.fldtype]
    exact h.fits i hi' f (hfile i hi f hf)

/-- The record at a slot that reads back as itself or, out of range, as a reset record. -/
lemma SortInv.setFld (h : SortInv dirty s) {i : Nat} {r : FldRec}
    (hfile : r.Used → ∀ j ≠ i, (s.fld j).Used →
      ¬ ((s.fld j).ddirId = r.ddirId ∧ (s.fld j).fileno = r.fileno))
    (hnext : r.Used → r.fileno < s.nextFileno)
    (hfits : r.Used → ∀ f, s.disk r.ddirId r.fileno = some f → f.Fits r.fldtype)
    (hord : i ∉ dirty → r.Used → ∀ f, s.disk r.ddirId r.fileno = some f → r.Ordered f.cells) :
    SortInv dirty (s.setFld i r) := by
  by_cases hi : i < s.flds.length
  · have hself : (s.setFld i r).fld i = r := Store.fld_setFld_of_lt hi r
    have hother : ∀ j ≠ i, (s.setFld i r).fld j = s.fld j := fun j hj =>
      Store.fld_setFld_of_ne hj r
    constructor
    · intro j hj
      by_cases hij : j = i
      · subst hij
        rw [TruthfulAt, hself]
        exact hord hj
      · rw [TruthfulAt, hother j hij]
        exact h.truthful j hj
    · intro j k hj hk hd hn
      by_cases hji : j = i
      · by_cases hki : k = i
        · rw [hji, hki]
        · rw [hji, hself] at hj hd hn
          rw [hother k hki] at hk hd hn
          exact absurd ⟨hd.symm, hn.symm⟩ (hfile hj k hki hk)
      · rw [hother j hji] at hj hd hn
        by_cases hki : k = i
        · rw [hki, hself] at hk hd hn
          exact absurd ⟨hd, hn⟩ (hfile hk j hji hj)
        · rw [hother k hki] at hk hd hn
          exact h.files j k hj hk hd hn
    · intro j hj
      by_cases hji : j = i
      · rw [hji, hself] at hj ⊢
        exact hnext hj
      · rw [hother j hji] at hj ⊢
        exact h.fileno j hj
    · intro j hj f hf
      by_cases hji : j = i
      · rw [hji, hself] at hj hf ⊢
        exact hfits hj f hf
      · rw [hother j hji] at hj hf ⊢
        exact h.fits j hj f hf
  · have hset : s.setFld i r = s := by
      rw [Store.setFld, List.set_eq_of_length_le (not_lt.mp hi)]
    rw [hset]
    exact h

/-- A change of a record that keeps its file. -/
lemma SortInv.updateFld (h : SortInv dirty s) {i : Nat} {r : FldRec}
    (hused : r.Used → (s.fld i).Used) (hddir : r.ddirId = (s.fld i).ddirId)
    (hfileno : r.fileno = (s.fld i).fileno) (htype : r.fldtype = (s.fld i).fldtype)
    (hord : i ∉ dirty → r.Used → ∀ f, s.disk r.ddirId r.fileno = some f → r.Ordered f.cells) :
    SortInv dirty (s.setFld i r) := by
  refine h.setFld ?_ ?_ ?_ hord
  · rintro hr j hj hjused ⟨hd, hn⟩
    rw [hddir] at hd
    rw [hfileno] at hn
    exact hj (h.files j i hjused (hused hr) hd hn)
  · intro hr
    rw [hfileno]
    exact h.fileno i (hused hr)
  · intro hr f hf
    rw [hddir, hfileno] at hf
    rw [htype]
    exact h.fits i (hused hr) f hf

@[simp] lemma Store.fld_setData (s : Store) (r : FldRec) (f : DataFile) (i : Nat) :
    (s.setData r f).fld i = s.fld i := rfl

lemma Store.disk_setData (s : Store) (r : FldRec) (f : DataFile) (d n : Int) :
    (s.setData r f).disk d n = if d = r.ddirId ∧ n = r.fileno then some f else s.disk d n := rfl

/-- Writing the file of a field makes the field dirty. -/
lemma SortInv.setData (h : SortInv dirty s) {i : Nat} (hi : (s.fld i).Used) {f : DataFile}
    (hf : f.Fits (s.fld i).fldtype) : SortInv (i :: dirty) (s.setData (s.fld i) f) := by
  have hother : ∀ j, (s.fld j).Used → j ≠ i → ∀ g,
      (s.setData (s.fld i) f).disk (s.fld j).ddirId (s.fld j).fileno = some g →
        s.disk (s.fld j).ddirId (s.fld j).fileno = some g := by
    intro j hj hji g hg
    rw [Store.disk_setData] at hg
    rwa [if_neg fun hsame => hji (h.files j i hj hi hsame.1 hsame.2)] at hg
  constructor
  · intro j hj hused g hg
    obtain ⟨hji, hj⟩ := not_or.mp (fun hor => hj (List.mem_cons.mpr hor))
    exact h.truthful j hj hused g (hother j hused hji g hg)
  · exact h.files
  · exact h.fileno
  · intro j hj g hg
    by_cases hji : j = i
    · subst hji
      rw [Store.disk_setData, Store.fld_setData, if_pos ⟨rfl, rfl⟩] at hg
      obtain rfl := Option.some.inj hg
      exact hf
    · exact h.fits j hj g (hother j hj hji g hg)

/-- A dirty field that is truthful is not dirty. -/
lemma SortInv.settle {i : Nat} (h : SortInv (i :: dirty) s) (hi : TruthfulAt s i) :
    SortInv dirty s := by
  refine ⟨fun j hj => ?_, h.files, h.fileno, h.fits⟩
  by_cases hji : j = i
  · rw [hji]
    exact hi
  · exact h.truthful j fun hmem => (List.mem_cons.mp hmem).elim hji hj

/-- A new file with these contents, which no field has as yet. -/
structure Fresh (s : Store) (ddirId fileno : Int) (f : DataFile) : Prop where
  unowned : ∀ j, (s.fld j).Used → ¬ ((s.fld j).ddirId = ddirId ∧ (s.fld j).fileno = fileno)
  lt : fileno < s.nextFileno
  file : ∀ g, s.disk ddirId fileno = some g → g = f

lemma Fresh.shrinks {d n : Int} {f : DataFile} (h : Fresh s d n f) (hs : Shrinks s s') :
    Fresh s' d n f := by
  refine ⟨fun j hj hsame => ?_, hs.nextFileno ▸ h.lt, fun g hg => ?_⟩
  · rcases hs.flds j with hcol | hblank
    · rw [hcol.ddirId, hcol.fileno] at hsame
      exact h.unowned j (hcol.used.mp hj) hsame
    · exact hblank.1 hj
  · rcases hs.disk d n with hnone | hdisk
    · rw [hnone] at hg
      cases hg
    · rw [hdisk] at hg
      exact h.file g hg

lemma Store.disk_setFile (s : Store) (d n : Int) (f : Option DataFile) (d' n' : Int) :
    (s.setFile d n f).disk d' n' = if d' = d ∧ n' = n then f else s.disk d' n' := rfl

/-- Writing a file that no field has changes no column. -/
lemma SortInv.setFile (h : SortInv dirty s) {d n : Int}
    (hfree : ∀ j, (s.fld j).Used → ¬ ((s.fld j).ddirId = d ∧ (s.fld j).fileno = n))
    (f : Option DataFile) : SortInv dirty (s.setFile d n f) := by
  have hdisk : ∀ j, (s.fld j).Used →
      (s.setFile d n f).disk (s.fld j).ddirId (s.fld j).fileno =
        s.disk (s.fld j).ddirId (s.fld j).fileno := by
    intro j hj
    rw [Store.disk_setFile, if_neg (hfree j hj)]
  refine ⟨fun j hj hused g hg => ?_, h.files, h.fileno, fun j hj g hg => ?_⟩
  · rw [Store.fld_setFile] at hused hg ⊢
    rw [hdisk j hused] at hg
    exact h.truthful j hj hused g hg
  · rw [Store.fld_setFile] at hj hg ⊢
    rw [hdisk j hj] at hg
    exact h.fits j hj g hg

lemma Fresh.setFile {d n : Int} {f : DataFile} (h : Fresh s d n f) (g : DataFile) :
    Fresh (s.setFile d n (some g)) d n g := by
  refine ⟨h.unowned, h.lt, fun g' hg' => ?_⟩
  rw [Store.disk_setFile, if_pos ⟨rfl, rfl⟩] at hg'
  exact (Option.some.inj hg').symm

lemma SortInv.mkTempFile (h : SortInv dirty s) {f : DataFile} {d n : Int}
    (hrun : mkTempFile env f s = (some (d, n), s')) :
    SortInv dirty s' ∧ Fresh s' d n f ∧ ∀ j, s'.fld j = s.fld j := by
  obtain ⟨rfl, rfl⟩ := mkTempFile_eq_some hrun
  have hnext : SortInv dirty { s with nextFileno := s.nextFileno + 1 } := by
    refine ⟨h.truthful, h.files, fun j hj => ?_, h.fits⟩
    have := h.fileno j hj
    exact Int.lt_add_one_of_le this.le
  have hfree : ∀ j, (s.fld j).Used →
      ¬ ((s.fld j).ddirId = d ∧ (s.fld j).fileno = s.nextFileno) := by
    rintro j hj ⟨-, hn⟩
    have := h.fileno j hj
    omega
  refine ⟨hnext.setFile hfree (some f), ⟨hfree, Int.lt_succ s.nextFileno, fun g hg => ?_⟩, fun _ => rfl⟩
  rw [Store.disk_setFile, if_pos ⟨rfl, rfl⟩] at hg
  exact (Option.some.inj hg).symm

/-- Another new file gets another number. -/
lemma Fresh.mkTempFile {d n : Int} {f : DataFile} (h : Fresh s d n f) {g : DataFile} {d' n' : Int}
    (hrun : mkTempFile env g s = (some (d', n'), s')) : Fresh s' d n f ∧ n ≠ n' := by
  obtain ⟨rfl, rfl⟩ := mkTempFile_eq_some hrun
  have hne : n ≠ s.nextFileno := h.lt.ne
  refine ⟨⟨h.unowned, Int.lt_add_one_of_le h.lt.le, fun g' hg' => ?_⟩, hne⟩
  rw [Store.disk_setFile, if_neg fun hsame => hne hsame.2] at hg'
  exact h.file g' hg'

end Invariant

end Datacl
