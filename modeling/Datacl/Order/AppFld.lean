import Datacl.Meta.Links
import Datacl.Meta.Stats
import Datacl.Order.AppTbl

/-!
# Appending one column

`app_fld` appends the data before it looks at the null columns. What it leaves is worked out for
each of their combinations.
-/

namespace Datacl

section

variable {env : Env} {s s' : Store}

/-! ### Free slots -/

lemma findFrom_eq_none {α : Type} {p : α → Bool} {xs : List α} {start : Nat} :
    findFrom p xs start = none ↔ ∀ x ∈ xs, p x = false := by
  unfold findFrom
  have hsplit : (∀ x ∈ xs, p x = false) ↔
      (∀ x ∈ xs.drop start, p x = false) ∧ ∀ x ∈ xs.take start, p x = false := by
    conv_lhs => rw [← List.take_append_drop start xs]
    rw [List.forall_mem_append]
    exact and_comm
  rw [hsplit]
  cases hdrop : (xs.drop start).findIdx? p with
  | none =>
    show (xs.take start).findIdx? p = none ↔ _
    rw [List.findIdx?_eq_none_iff]
    exact ⟨fun h => ⟨List.findIdx?_eq_none_iff.mp hdrop, h⟩, And.right⟩
  | some i =>
    obtain ⟨hi, hp, -⟩ := List.findIdx?_eq_some_iff_getElem.mp hdrop
    refine iff_of_false (by simp) fun h => ?_
    rw [h.1 _ (List.getElem_mem hi)] at hp
    cases hp

lemma getEmptyFld_eq_none {fld : Name} (hfld : fld ≠ []) :
    getEmptyFld env s fld = none ↔ s.freeSlots = 0 := by
  unfold getEmptyFld Store.freeSlots
  rw [if_neg hfld, findFrom_eq_none, List.countP_eq_zero]
  simp

lemma Store.freeSlots_setFld {i : Nat} (hi : i < s.flds.length) (r : FldRec) :
    (s.setFld i r).freeSlots + (if (s.fld i).name = [] then 1 else 0) =
      s.freeSlots + (if r.name = [] then 1 else 0) := by
  have hget : s.fld i = s.flds[i] := by simp [Store.fld, hi]
  have hle : (if (s.fld i).name = [] then 1 else 0) ≤ s.freeSlots := by
    by_cases hname : (s.fld i).name = []
    · rw [if_pos hname]
      refine List.countP_pos_iff.mpr ⟨s.flds[i], List.getElem_mem hi, ?_⟩
      rw [← hget]
      exact decide_eq_true hname
    · rw [if_neg hname]
      exact Nat.zero_le _
  unfold Store.setFld Store.freeSlots at *
  rw [List.countP_set hi, ← hget]
  simp only [decide_eq_true_eq]
  omega

lemma Store.freeSlots_setFld_same {i : Nat} (hi : i < s.flds.length) {r : FldRec}
    (h : r.name = [] ↔ (s.fld i).name = []) : (s.setFld i r).freeSlots = s.freeSlots := by
  have hcount := s.freeSlots_setFld hi r
  simp only [h] at hcount
  omega

/-! ### A null column -/

/-- The record of a new null column. -/
def newNn (t1Id a : Nat) (d n : Int) (name : Name) (filesz : Nat) : FldRec :=
  { zeroFldRec with
    parentId := a
    tblId := t1Id
    auxtype := .nn
    fldtype := .I1
    name := name
    fileno := n
    ddirId := d
    filesz := filesz }

/-- The store with a new null column of `a` in slot `k`. -/
def Store.linkNn (s : Store) (a k : Nat) (r : FldRec) : Store :=
  ((s.setFld k zeroFldRec).setFld a { (s.setFld k zeroFldRec).fld a with nnFldId := k }).setFld k r

lemma Store.linkNn_setFld {a k : Nat} (hk : k < s.flds.length) (r : FldRec) (n : Nat) :
    (s.linkNn a k r).setFld k { (s.linkNn a k r).fld k with filesz := n } =
      s.linkNn a k { r with filesz := n } := by
  unfold Store.linkNn
  rw [Store.setFld_setFld, Store.fld_setFld_of_lt (by simpa using hk)]

/-- The slot for a new null column, and its name. -/
def nnSlot (env : Env) (s : Store) (fld : Name) : Option (Name × Nat) :=
  (mkNameAuxFld fld .nn).bind fun name => (getEmptyFld env s name).map fun k => (name, k)

lemma nnSlot_eq_some {fld name : Name} {k : Nat} (h : nnSlot env s fld = some (name, k)) :
    mkNameAuxFld fld .nn = some name ∧ k < s.flds.length ∧ (s.fld k).name = [] := by
  obtain ⟨name', hname, hmap⟩ := Option.bind_eq_some_iff.mp h
  obtain ⟨k', hk, heq⟩ := Option.map_eq_some_iff.mp hmap
  obtain ⟨rfl, rfl⟩ := Prod.mk.inj heq
  exact ⟨hname, getEmptyFld_eq_some hk⟩

lemma nnName_ne_nil {fld name : Name} (h : mkNameAuxFld fld .nn = some name) : name ≠ [] := by
  unfold mkNameAuxFld at h
  split_ifs at h
  obtain rfl := Option.some.inj h
  exact List.cons_ne_nil _ _

/-- `add_aux_fld` for a field without a null column. -/
lemma addNn_eq (t1Id : Nat) {a : Nat} {d n : Int} {f : DataFile} (ha : a < s.flds.length)
    (hnn : (s.fld a).nnFldId < 0) (hn : 0 ≤ n) (hfile : qMmap env s d n = some f) :
    addAuxFld env [] t1Id [] a d n .nn { zeroFldRec with fldtype := .I1 } s =
      match nnSlot env s (s.fld a).name with
      | none => (none, s)
      | some (name, k) => (some k, s.linkNn a k (newNn t1Id a d n name f.size)) := by
  have htarget : auxTarget env [] t1Id [] a .nn s = (some ((t1Id : Int), a), s) := by
    simp [auxTarget, dropAuxFld, delAuxFld, auxFldId, Cmd.bind_apply, ha, hnn]
  have htype : (Cmd.ofOption (auxFldtype { zeroFldRec with fldtype := .I1 } .nn) : Cmd Store FldType) s =
      (some .I1, s) := rfl
  have htbl : ¬ (([] : Name) = [] ∧ (t1Id : Int) < 0) := by simp
  have hfld : ¬ (([] : Name) = [] ∧ (a : Int) < 0) := by simp
  unfold addAuxFld
  rw [Cmd.bind_of_eq htype, Cmd.require_bind, if_pos htbl, Cmd.require_bind, if_pos hfld,
    Cmd.require_bind, if_pos hn, Cmd.bind_of_eq htarget]
  dsimp only
  rw [Cmd.get_bind, hfile]
  show (Cmd.ofOption (mkNameAuxFld (s.fld a).name .nn) >>= _) s = _
  unfold nnSlot
  cases hname : mkNameAuxFld (s.fld a).name .nn with
  | none => rfl
  | some name =>
    show (Cmd.ofOption (getEmptyFld env s name) >>= _) s = _
    rw [Option.bind_some]
    cases hempty : getEmptyFld env s name with
    | none => rfl
    | some k => rfl

/-- The directory for a temporary file of a size, if there is room in one that can be entered. -/
def Env.roomDir (env : Env) (size : Nat) : Option Nat :=
  (env.tempDir size).filter fun d : Nat => env.canEnter d

lemma roomDir_eq_some {size d : Nat} :
    env.roomDir size = some d ↔ env.tempDir size = some d ∧ env.canEnter d = true := by
  simp [Env.roomDir, Option.filter_eq_some_iff]

/-- The store with a new temporary file. -/
def Store.withTemp (s : Store) (d : Int) (f : DataFile) : Store :=
  Store.setFile d s.nextFileno (some f) { s with nextFileno := s.nextFileno + 1 }

lemma mkTempFile_eq {f : DataFile} (hsize : f.size ≠ 0) (hnext : 0 ≤ s.nextFileno) :
    mkTempFile env f s =
      match env.roomDir f.size with
      | none => (none, s)
      | some d => (some ((d : Int), s.nextFileno), s.withTemp d f) := by
  unfold mkTempFile Env.roomDir
  rw [Cmd.require_bind, if_pos hsize]
  cases env.tempDir f.size with
  | none => rfl
  | some d =>
    show (Cmd.require (env.canEnter d = true) >>= _) s = _
    rw [Cmd.require_bind, Option.filter_some]
    by_cases hd : env.canEnter d = true
    · rw [if_pos hd, if_pos hd, Cmd.get_bind, Cmd.modify_bind, Cmd.require_bind, if_pos hnext]
      rfl
    · rw [if_neg hd, if_neg hd]

/-- `app_fld` where only the second field has a null column. -/
lemma appNn_eq (t1Id nR1 : Nat) {a nR2 : Nat} {nn1 nn2 : Int} {y : DataFile} (ha : a < s.flds.length)
    (hnn : (s.fld a).nnFldId < 0) (hnn1 : nn1 < 0) (hnn2 : 0 ≤ nn2)
    (hy : getData env s (s.fld nn2.toNat) = some y) (hlen : y.cells.length = nR2)
    (hpos : 0 < nR1 + nR2) (hnext : 0 ≤ s.nextFileno) :
    appNn env t1Id a nR1 nR2 nn1 nn2 s =
      match env.roomDir (nR1 + nR2) with
      | none => (none, s)
      | some d =>
        match nnSlot env s (s.fld a).name with
        | none => (none, s.withTemp d ⟨1, List.replicate nR1 1 ++ y.cells⟩)
        | some (name, k) => (some (), (s.withTemp d ⟨1, List.replicate nR1 1 ++ y.cells⟩).linkNn a k
            (newNn t1Id a d s.nextFileno name (nR1 + nR2))) := by
  have hcells : (List.replicate nR1 1 ++ y.cells ++ List.replicate nR2 0).take (nR1 + nR2) =
      List.replicate nR1 1 ++ y.cells := by
    refine List.take_left' ?_
    rw [List.length_append, List.length_replicate, hlen]
  have hsize : (⟨1, List.replicate nR1 1 ++ y.cells⟩ : DataFile).size = nR1 + nR2 := by
    simp [DataFile.size, hlen]
  unfold appNn
  rw [Cmd.require_bind, if_pos hnn1, Cmd.when_pos hnn2, Cmd.get_bind, hy]
  show (mkTempFile env _ >>= _) s = _
  rw [hcells, Cmd.bind_apply, mkTempFile_eq (by omega) hnext, hsize]
  cases hroom : env.roomDir (nR1 + nR2) with
  | none => rfl
  | some d =>
    have hd : env.canEnter d = true := (roomDir_eq_some.mp hroom).2
    have hmap : qMmap env (s.withTemp d ⟨1, List.replicate nR1 1 ++ y.cells⟩) d s.nextFileno =
        some ⟨1, List.replicate nR1 1 ++ y.cells⟩ := by
      simp [qMmap, hd, hnext, Store.withTemp, Store.setFile, Option.filter_some, hsize]
      omega
    have hadd := addNn_eq t1Id (s := s.withTemp d ⟨1, List.replicate nR1 1 ++ y.cells⟩)
      ha hnn hnext hmap
    dsimp only at hadd ⊢
    rw [Cmd.bind_apply, hadd]
    have hsame : nnSlot env (s.withTemp d ⟨1, List.replicate nR1 1 ++ y.cells⟩)
        ((s.withTemp d ⟨1, List.replicate nR1 1 ++ y.cells⟩).fld a).name =
          nnSlot env s (s.fld a).name := rfl
    rw [hsame]
    cases hslot : nnSlot env s (s.fld a).name with
    | none => rfl
    | some q =>
      obtain ⟨name, k⟩ := q
      obtain ⟨-, hk, -⟩ := nnSlot_eq_some hslot
      exact congrArg (Prod.mk (some ())) (Store.linkNn_setFld (s := s.withTemp d _) hk _ (nR1 + nR2))

/-! ### A column -/

/-- The column of a field can be read: it has `n` cells, of the width of the type. -/
structure HasColumn (env : Env) (s : Store) (i n : Nat) (f : DataFile) : Prop where
  data : getData env s (s.fld i) = some f
  length : f.cells.length = n
  width : getFldSz (s.fld i).fldtype = some (f.width : Int)

/-- The store after the metadata updates at the end of `app_fld`. -/
def Store.settled (s : Store) (a n : Nat) : Store :=
  s.setFld a { s.fld a with
    srttype := .unknown
    sumval := 0
    minval := 0
    maxval := 0
    isSumNn := false
    isMinNn := false
    isMaxNn := false
    filesz := n }

/-- The store once the data of the second field has been appended to that of the first. -/
def Store.appData (s : Store) (a : Nat) (x1 x2 : DataFile) : Store :=
  s.setData (s.fld a) { x1 with cells := x1.cells ++ x2.cells }

lemma Store.setFld_filesz (s : Store) (i : Nat) (r : FldRec) (n : Nat) :
    (s.setFld i r).setFld i { (s.setFld i r).fld i with filesz := n } =
      s.setFld i { r with filesz := n } := by
  by_cases hi : i < s.flds.length
  · rw [Store.setFld_setFld, Store.fld_setFld_of_lt hi]
  · have hset : ∀ r, s.flds.set i r = s.flds := fun r => List.set_eq_of_length_le (not_lt.mp hi)
    simp [Store.setFld, hset]

lemma appFld_eq {t1Id t2Id a b nR1 nR2 : Nat} {x1 x2 : DataFile} (h1 : HasColumn env s a nR1 x1)
    (h2 : HasColumn env s b nR2 x2) (hnR1 : (s.tbl t1Id).nR.toNat = nR1)
    (hnR2 : (s.tbl t2Id).nR.toNat = nR2) :
    appFld env t1Id a t2Id b s =
      match appNn env t1Id a nR1 nR2 (s.fld a).nnFldId (s.fld b).nnFldId (s.appData a x1 x2) with
      | (none, s') => (none, s')
      | (some _, s') => (some (), s'.settled a (x1.width * (nR1 + nR2))) := by
  have henter : env.canEnter (s.fld a).ddirId = true := by
    have hdata := h1.data
    unfold getData qMmap at hdata
    by_contra hno
    simp [hno] at hdata
  have hdisk : (s.disk (s.fld a).ddirId (s.fld a).fileno).getD ⟨x2.width, []⟩ = x1 := by
    rw [getData_eq_some h1.data, Option.getD_some]
  unfold appFld
  rw [Cmd.get_bind, Cmd.require_bind, if_pos henter, h2.data, Cmd.ofOption_some_bind]
  dsimp only
  rw [Cmd.modify_bind, hdisk, hnR1, hnR2, Cmd.bind_apply, h1.width]
  rw [show s.setData (s.fld a) { x1 with cells := x1.cells ++ x2.cells } = s.appData a x1 x2 from rfl]
  rcases appNn env t1Id a nR1 nR2 (s.fld a).nnFldId (s.fld b).nnFldId (s.appData a x1 x2) with
    ⟨_ | _, s'⟩
  · rfl
  · have hsize : ((x1.width : Int) * ((nR1 : Int) + nR2)).toNat = x1.width * (nR1 + nR2) := by
      exact_mod_cast Int.toNat_natCast (x1.width * (nR1 + nR2))
    dsimp only
    rw [Cmd.modify_bind, Cmd.ofOption_some_bind, hsize]
    exact congrArg (Prod.mk (some ())) (Store.setFld_filesz s' a _ _)

/-! ### What is left alone -/

/-- Besides `a` and its file, nothing that is in use has changed. -/
structure Touched (s s' : Store) (a : Nat) : Prop where
  tbls : s'.tbls = s.tbls
  length : s'.flds.length = s.flds.length
  next : s.nextFileno ≤ s'.nextFileno
  flds : ∀ i, i ≠ a → (s.fld i).Used → s'.fld i = s.fld i
  name : (s'.fld a).name = (s.fld a).name
  ddirId : (s'.fld a).ddirId = (s.fld a).ddirId
  fileno : (s'.fld a).fileno = (s.fld a).fileno
  disk : ∀ d n, n < s.nextFileno → ¬ (d = (s.fld a).ddirId ∧ n = (s.fld a).fileno) →
    s'.disk d n = s.disk d n

lemma Touched.trans {s₁ : Store} {a : Nat} (h : Touched s s₁ a) (h' : Touched s₁ s' a) :
    Touched s s' a where
  tbls := h'.tbls.trans h.tbls
  length := h'.length.trans h.length
  next := h.next.trans h'.next
  flds := by
    intro i hi hu
    have hsame := h.flds i hi hu
    rw [h'.flds i hi (by rw [hsame]; exact hu), hsame]
  name := h'.name.trans h.name
  ddirId := h'.ddirId.trans h.ddirId
  fileno := h'.fileno.trans h.fileno
  disk := by
    intro d n hn hne
    rw [h'.disk d n (lt_of_lt_of_le hn h.next) (by rw [h.ddirId, h.fileno]; exact hne),
      h.disk d n hn hne]

lemma Touched.appData (s : Store) (a : Nat) (x1 x2 : DataFile) :
    Touched s (s.appData a x1 x2) a := by
  refine ⟨rfl, rfl, le_rfl, fun _ _ _ => rfl, rfl, rfl, rfl, ?_⟩
  intro d n _ hne
  exact if_neg hne

lemma Touched.withTemp (s : Store) (a : Nat) (d : Int) (f : DataFile) :
    Touched s (s.withTemp d f) a := by
  refine ⟨rfl, rfl, Int.le_add_one le_rfl, fun _ _ _ => rfl, rfl, rfl, rfl, ?_⟩
  intro d' n hn _
  exact if_neg fun h => by omega

/-- Writing a record that keeps its name and its file, or one in a free slot. -/
lemma Touched.setFld {a i : Nat} {r : FldRec}
    (h : (i = a ∧ r.name = (s.fld a).name ∧ r.ddirId = (s.fld a).ddirId ∧
      r.fileno = (s.fld a).fileno) ∨ (i ≠ a ∧ (s.fld i).name = [])) :
    Touched s (s.setFld i r) a := by
  have hfield : ∀ {β : Type} (g : FldRec → β), (i = a → g r = g (s.fld a)) →
      g ((s.setFld i r).fld a) = g (s.fld a) := by
    intro β g hg
    rw [Store.fld_setFld]
    by_cases hai : a = i ∧ i < s.flds.length
    · rw [if_pos hai]
      exact hg hai.1.symm
    · rw [if_neg hai]
  refine ⟨rfl, Store.length_setFld s i r, le_rfl, ?_, hfield _ ?_, hfield _ ?_, hfield _ ?_,
    fun _ _ _ _ => rfl⟩
  · intro j hj hu
    refine Store.fld_setFld_of_ne ?_ r
    rintro rfl
    rcases h with ⟨rfl, -⟩ | ⟨-, hfree⟩
    · exact hj rfl
    · exact hu hfree
  all_goals
    intro hia
    rcases h with ⟨-, hn, hd, hf⟩ | ⟨hne, -⟩
    · assumption
    · exact absurd hia hne

lemma Touched.settled (s : Store) (a n : Nat) : Touched s (s.settled a n) a :=
  Touched.setFld (.inl ⟨rfl, rfl, rfl, rfl⟩)

lemma Touched.linkNn {a k : Nat} (hak : k ≠ a) (hfree : (s.fld k).name = []) (r : FldRec) :
    Touched s (s.linkNn a k r) a := by
  have hzero : (s.setFld k zeroFldRec).fld k = zeroFldRec := by
    rw [Store.fld_setFld_zero, if_pos rfl]
  have hfirst : Touched s (s.setFld k zeroFldRec) a := Touched.setFld (.inr ⟨hak, hfree⟩)
  have hlink : Touched (s.setFld k zeroFldRec) ((s.setFld k zeroFldRec).setFld a
      { (s.setFld k zeroFldRec).fld a with nnFldId := k }) a :=
    Touched.setFld (.inl ⟨rfl, rfl, rfl, rfl⟩)
  refine (hfirst.trans hlink).trans (Touched.setFld (.inr ⟨hak, ?_⟩))
  rw [Store.fld_setFld_of_ne hak, hzero]
  rfl

/-! ### The records after a step -/

section

variable {a k : Nat}

lemma Store.settled_fld (ha : a < s.flds.length) (n : Nat) :
    (s.settled a n).fld a = { s.fld a with
      srttype := .unknown
      sumval := 0
      minval := 0
      maxval := 0
      isSumNn := false
      isMinNn := false
      isMaxNn := false
      filesz := n } :=
  Store.fld_setFld_of_lt ha _

lemma Store.settled_fld_ne (hka : k ≠ a) (n : Nat) : (s.settled a n).fld k = s.fld k :=
  Store.fld_setFld_of_ne hka _

lemma Store.freeSlots_settled (ha : a < s.flds.length) (n : Nat) :
    (s.settled a n).freeSlots = s.freeSlots := Store.freeSlots_setFld_same ha Iff.rfl

lemma Store.linkNn_fld (ha : a < s.flds.length) (hka : k ≠ a) (r : FldRec) :
    (s.linkNn a k r).fld a = { s.fld a with nnFldId := k } := by
  unfold Store.linkNn
  rw [Store.fld_setFld_of_ne (Ne.symm hka), Store.fld_setFld_of_lt (by simpa using ha),
    Store.fld_setFld_of_ne (Ne.symm hka)]

lemma Store.linkNn_fld_nn (hk : k < s.flds.length) (r : FldRec) : (s.linkNn a k r).fld k = r :=
  Store.fld_setFld_of_lt (by simpa using hk) r

lemma Store.freeSlots_linkNn (ha : a < s.flds.length) (hk : k < s.flds.length) (hka : k ≠ a)
    (hfree : (s.fld k).name = []) {r : FldRec} (hr : r.name ≠ []) :
    (s.linkNn a k r).freeSlots + 1 = s.freeSlots := by
  have hzero : (s.setFld k zeroFldRec).freeSlots = s.freeSlots :=
    Store.freeSlots_setFld_same hk (iff_of_true rfl hfree)
  have hlink : ((s.setFld k zeroFldRec).setFld a
      { (s.setFld k zeroFldRec).fld a with nnFldId := k }).freeSlots = s.freeSlots := by
    rw [Store.freeSlots_setFld_same (by simpa using ha), hzero]
    exact Iff.rfl
  have hcount := Store.freeSlots_setFld (s := (s.setFld k zeroFldRec).setFld a
    { (s.setFld k zeroFldRec).fld a with nnFldId := k }) (by simpa using hk) r
  have hname : (((s.setFld k zeroFldRec).setFld a
      { (s.setFld k zeroFldRec).fld a with nnFldId := k }).fld k).name = [] := by
    rw [Store.fld_setFld_of_ne hka, Store.fld_setFld_zero, if_pos rfl]
    rfl
  rw [if_pos hname, if_neg hr, hlink] at hcount
  exact hcount

lemma Store.file_settled (ha : a < s.flds.length) (n i : Nat) : (s.settled a n).file i = s.file i := by
  unfold Store.file
  by_cases hi : i = a
  · rw [hi, Store.settled_fld ha]
    rfl
  · rw [Store.settled_fld_ne hi]
    rfl

lemma Store.file_appData (s : Store) (a : Nat) (x1 x2 : DataFile) :
    (s.appData a x1 x2).file a = some { x1 with cells := x1.cells ++ x2.cells } := if_pos ⟨rfl, rfl⟩

lemma Store.file_withTemp {i : Nat} (hi : (s.fld i).fileno < s.nextFileno) (d : Int) (f : DataFile) :
    (s.withTemp d f).file i = s.file i := if_neg fun h => (ne_of_lt hi) h.2

lemma Store.file_linkNn (ha : a < s.flds.length) (hka : k ≠ a) (r : FldRec) :
    (s.linkNn a k r).file a = s.file a := by
  unfold Store.file
  rw [Store.linkNn_fld ha hka]
  rfl

end

/-! ### One pair of fields -/

lemma HasColumn.file {i n : Nat} {f : DataFile} (h : HasColumn env s i n f) : s.file i = some f :=
  getData_eq_some h.data

lemma HasColumn.cells {i n : Nat} {f : DataFile} (h : HasColumn env s i n f) : s.cells i = f.cells := by
  rw [Store.cells, h.file]
  rfl

/-- A null column made after the file counter was at `n`. -/
structure NewNn (s : Store) (n : Int) (k : Nat) : Prop where
  used : (s.fld k).Used
  auxtype : (s.fld k).auxtype = .nn
  le_fileno : n ≤ (s.fld k).fileno
  fileno_lt : (s.fld k).fileno < s.nextFileno

/-- What a successful call of `app_fld` does. -/
structure ColStep (s s' : Store) (nR1 nR2 a b : Nat) : Prop where
  touched : Touched s s' a
  appended : ColAppended s s' nR1 nR2 a b
  nn : 0 ≤ (s'.fld a).nnFldId → NewNn s' s.nextFileno (s'.fld a).nnFldId.toNat
  slots : s'.freeSlots + (if 0 ≤ (s.fld b).nnFldId then 1 else 0) = s.freeSlots

section

variable {t1Id t2Id a b nR1 nR2 : Nat} {x1 x2 : DataFile}

/-- The column of `a` in a store in which it has been written. -/
lemma appended_cells (h1 : HasColumn env s a nR1 x1) (h2 : HasColumn env s b nR2 x2)
    (hfile : s'.file a = some { x1 with cells := x1.cells ++ x2.cells })
    (hsize : (s'.fld a).filesz = x1.width * (nR1 + nR2)) :
    s'.cells a = s.cells a ++ s.cells b ∧ s'.FileszOk a := by
  constructor
  · rw [Store.cells, hfile, h1.cells, h2.cells]
    rfl
  · rw [Store.FileszOk, hfile, hsize, Option.map_some, DataFile.size, List.length_append, h1.length,
      h2.length]

lemma appFld_plain (h1 : HasColumn env s a nR1 x1) (h2 : HasColumn env s b nR2 x2)
    (hnR1 : (s.tbl t1Id).nR.toNat = nR1) (hnR2 : (s.tbl t2Id).nR.toNat = nR2)
    (hu : (s.fld a).Used) (hn1 : (s.fld a).nnFldId < 0) (hn2 : (s.fld b).nnFldId < 0) :
    ∃ s', appFld env t1Id a t2Id b s = (some (), s') ∧ ColStep s s' nR1 nR2 a b := by
  have hnn : appNn env t1Id a nR1 nR2 (s.fld a).nnFldId (s.fld b).nnFldId (s.appData a x1 x2) =
      (some (), s.appData a x1 x2) := by
    unfold appNn
    rw [Cmd.require_bind, if_pos hn1, Cmd.when_neg (not_le.mpr hn2)]
    rfl
  have ha : a < (s.appData a x1 x2).flds.length := Store.used_lt hu
  have hfld := Store.settled_fld ha (x1.width * (nR1 + nR2))
  have hneg : ¬ 0 ≤ (((s.appData a x1 x2).settled a (x1.width * (nR1 + nR2))).fld a).nnFldId := by
    rw [hfld]
    exact not_le.mpr hn1
  obtain ⟨hcells, hsize⟩ := appended_cells h1 h2
    (((s.appData a x1 x2).file_settled ha (x1.width * (nR1 + nR2)) a).trans (s.file_appData a x1 x2))
    (by rw [hfld])
  refine ⟨_, by rw [appFld_eq h1 h2 hnR1 hnR2, hnn], ?_, ⟨hcells, ?_, hsize, ?_⟩, ?_, ?_⟩
  · exact (Touched.appData s a x1 x2).trans (Touched.settled _ a _)
  · unfold Store.flags
    rw [if_neg hneg, if_neg (not_le.mpr hn1), if_neg (not_le.mpr hn2), List.replicate_append_replicate]
  · exact fun h => absurd h hneg
  · exact fun h => absurd h hneg
  · rw [if_neg (not_le.mpr hn2), Store.freeSlots_settled ha]
    rfl

/-- The null column of `a` can be made. -/
structure NnFits (env : Env) (s : Store) (a b nR1 nR2 d k : Nat) (name : Name) (y : DataFile) : Prop where
  data : getData env s (s.fld (s.fld b).nnFldId.toNat) = some y
  length : y.cells.length = nR2
  other : ¬ ((s.fld (s.fld b).nnFldId.toNat).ddirId = (s.fld a).ddirId ∧
    (s.fld (s.fld b).nnFldId.toNat).fileno = (s.fld a).fileno)
  room : env.roomDir (nR1 + nR2) = some d
  slot : nnSlot env s (s.fld a).name = some (name, k)

lemma getData_appData {r : FldRec} (hother : ¬ (r.ddirId = (s.fld a).ddirId ∧ r.fileno = (s.fld a).fileno)) :
    getData env (s.appData a x1 x2) r = getData env s r := by
  have hdisk : (s.appData a x1 x2).disk r.ddirId r.fileno = s.disk r.ddirId r.fileno := if_neg hother
  unfold getData qMmap
  rw [hdisk]

/-- The column `x` of `a` has been written, with the new null column `f` in slot `k`. -/
structure WithNn (s s' : Store) (a k : Nat) (r : FldRec) (x f : DataFile) : Prop where
  touched : Touched s s' a
  nnFldId : (s'.fld a).nnFldId = k
  filesz : (s'.fld a).filesz = x.size
  file : s'.file a = some x
  nn : s'.fld k = r
  nnFile : s'.file k = some f
  next : s'.nextFileno = s.nextFileno + 1
  slots : s'.freeSlots + 1 = s.freeSlots

/-- The steps of `app_fld` one after another. -/
lemma Store.withNn (x1 x2 f : DataFile) {k : Nat} {r : FldRec} {d : Int} (hu : (s.fld a).Used)
    (hfileno : (s.fld a).fileno < s.nextFileno) (hk : k < s.flds.length) (hfree : (s.fld k).name = [])
    (hname : r.name ≠ []) (hdir : r.ddirId = d) (hno : r.fileno = s.nextFileno) {n : Nat}
    (hn : n = ({ x1 with cells := x1.cells ++ x2.cells } : DataFile).size) :
    WithNn s ((((s.appData a x1 x2).withTemp d f).linkNn a k r).settled a n) a k r
      { x1 with cells := x1.cells ++ x2.cells } f := by
  have ha : a < s.flds.length := Store.used_lt hu
  have hka : k ≠ a := by
    rintro rfl
    exact hu hfree
  have hlt : ((s.appData a x1 x2).fld a).fileno < (s.appData a x1 x2).nextFileno := hfileno
  obtain ⟨s₂, hs₂⟩ : ∃ s₂, (s.appData a x1 x2).withTemp d f = s₂ := ⟨_, rfl⟩
  have ha₂ : a < s₂.flds.length := hs₂ ▸ ha
  have hk₂ : k < s₂.flds.length := hs₂ ▸ hk
  have hfree₂ : (s₂.fld k).name = [] := by
    rw [← hs₂]
    exact hfree
  have ha₃ : a < (s₂.linkNn a k r).flds.length := by
    simpa [Store.linkNn, Store.length_setFld] using ha₂
  have hfldk : ((s₂.linkNn a k r).settled a n).fld k = r := by
    rw [Store.settled_fld_ne hka, Store.linkNn_fld_nn hk₂]
  rw [hs₂]
  refine ⟨?_, ?_, ?_, ?_, hfldk, ?_, ?_, ?_⟩
  · rw [← hs₂]
    refine (((Touched.appData s a x1 x2).trans (Touched.withTemp _ a d f)).trans ?_).trans
      (Touched.settled _ a _)
    exact Touched.linkNn (s := (s.appData a x1 x2).withTemp d f) hka hfree r
  · rw [Store.settled_fld ha₃, Store.linkNn_fld ha₂ hka]
  · rw [Store.settled_fld ha₃, hn]
  · rw [Store.file_settled ha₃, Store.file_linkNn ha₂ hka, ← hs₂, Store.file_withTemp hlt, Store.file_appData]
  · rw [Store.file, hfldk, hdir, hno, ← hs₂]
    exact if_pos ⟨rfl, rfl⟩
  · rw [← hs₂]
    rfl
  · rw [Store.freeSlots_settled ha₃, Store.freeSlots_linkNn ha₂ hk₂ hka hfree₂ hname, ← hs₂]
    rfl

lemma appFld_nn {y : DataFile} {d k : Nat} {name : Name} (h1 : HasColumn env s a nR1 x1)
    (h2 : HasColumn env s b nR2 x2) (hnR1 : (s.tbl t1Id).nR.toNat = nR1)
    (hnR2 : (s.tbl t2Id).nR.toNat = nR2) (hu : (s.fld a).Used) (hpos : 0 < nR1 + nR2)
    (hfileno : 0 ≤ (s.fld a).fileno ∧ (s.fld a).fileno < s.nextFileno)
    (hn1 : (s.fld a).nnFldId < 0) (hn2 : 0 ≤ (s.fld b).nnFldId)
    (hfits : NnFits env s a b nR1 nR2 d k name y) :
    ∃ s', appFld env t1Id a t2Id b s = (some (), s') ∧ ColStep s s' nR1 nR2 a b := by
  obtain ⟨hname, hk, hfree⟩ := nnSlot_eq_some hfits.slot
  obtain ⟨f, hf⟩ : ∃ f : DataFile, ⟨1, List.replicate nR1 1 ++ y.cells⟩ = f := ⟨_, rfl⟩
  obtain ⟨r, hr⟩ : ∃ r, newNn t1Id a d s.nextFileno name (nR1 + nR2) = r := ⟨_, rfl⟩
  have hnn : appNn env t1Id a nR1 nR2 (s.fld a).nnFldId (s.fld b).nnFldId (s.appData a x1 x2) =
      (some (), ((s.appData a x1 x2).withTemp d f).linkNn a k r) := by
    have heq := appNn_eq t1Id nR1 (s := s.appData a x1 x2) (Store.used_lt hu) hn1 hn1 hn2
      ((getData_appData hfits.other).trans hfits.data) hfits.length hpos
      (hfileno.1.trans hfileno.2.le)
    have hslot : nnSlot env (s.appData a x1 x2) ((s.appData a x1 x2).fld a).name = some (name, k) :=
      hfits.slot
    rw [hfits.room] at heq
    dsimp only at heq
    rw [hslot, hf] at heq
    rw [← hr]
    exact heq
  have hwidth : x1.width * (nR1 + nR2) = ({ x1 with cells := x1.cells ++ x2.cells } : DataFile).size := by
    rw [DataFile.size, List.length_append, h1.length, h2.length]
  have hname' : r.name ≠ [] := by
    rw [← hr]
    exact nnName_ne_nil hname
  have hwith := Store.withNn x1 x2 f hu hfileno.2 hk hfree hname'
    (show r.ddirId = (d : Int) by rw [← hr]; rfl) (show r.fileno = s.nextFileno by rw [← hr]; rfl) hwidth
  obtain ⟨s', hs'⟩ : ∃ s', (((s.appData a x1 x2).withTemp d f).linkNn a k r).settled a (x1.width * (nR1 + nR2)) =
    s' := ⟨_, rfl⟩
  rw [hs'] at hwith
  have hnnsize : f.size = nR1 + nR2 := by
    rw [← hf, DataFile.size, List.length_append, List.length_replicate, hfits.length, Nat.one_mul]
  obtain ⟨hcells, hsize⟩ := appended_cells h1 h2 hwith.file (hwith.filesz.trans hwidth.symm)
  refine ⟨s', by rw [appFld_eq h1 h2 hnR1 hnR2, hnn, ← hs'], hwith.touched, ⟨hcells, ?_, hsize, ?_⟩, ?_, ?_⟩
  · have hnn' : s.cells (s.fld b).nnFldId.toNat = y.cells := by
      rw [Store.cells, Store.file, getData_eq_some hfits.data]
      rfl
    unfold Store.flags
    rw [hwith.nnFldId, if_pos (Int.natCast_nonneg k), if_neg (not_le.mpr hn1), if_pos hn2, hnn', Store.cells,
      Int.toNat_natCast, hwith.nnFile, ← hf]
    rfl
  · intro _
    rw [hwith.nnFldId, Int.toNat_natCast, Store.FileszOk, hwith.nnFile, hwith.nn, Option.map_some, hnnsize, ← hr]
    rfl
  · intro _
    rw [hwith.nnFldId, Int.toNat_natCast]
    refine ⟨?_, ?_, ?_, ?_⟩
    · rw [hwith.nn]
      exact hname'
    · rw [hwith.nn, ← hr]
      rfl
    · rw [hwith.nn, ← hr]
      exact le_rfl
    · rw [hwith.nn, ← hr, hwith.next]
      exact Int.lt_succ s.nextFileno
  · rw [if_pos hn2]
    exact hwith.slots

/-- The pair of columns can be appended, as far as it alone is concerned. -/
def PairFits (env : Env) (s : Store) (a b nR : Nat) : Prop :=
  (s.fld a).nnFldId < 0 ∧ (0 ≤ (s.fld b).nnFldId →
    ∃ d, env.roomDir nR = some d ∧ (mkNameAuxFld (s.fld a).name .nn).isSome)

/-- The data has been appended by the time the null columns are looked at. -/
lemma appFld_fails (h1 : HasColumn env s a nR1 x1) (h2 : HasColumn env s b nR2 x2)
    (hnR1 : (s.tbl t1Id).nR.toNat = nR1) (hnR2 : (s.tbl t2Id).nR.toNat = nR2)
    (hnone : (appNn env t1Id a nR1 nR2 (s.fld a).nnFldId (s.fld b).nnFldId (s.appData a x1 x2)).1 = none)
    (hfile : (appNn env t1Id a nR1 nR2 (s.fld a).nnFldId (s.fld b).nnFldId
      (s.appData a x1 x2)).2.file a = (s.appData a x1 x2).file a) :
    ∃ s', appFld env t1Id a t2Id b s = (none, s') ∧
      s'.file a = some { x1 with cells := x1.cells ++ x2.cells } := by
  obtain ⟨r, s', heq⟩ : ∃ r s', appNn env t1Id a nR1 nR2 (s.fld a).nnFldId (s.fld b).nnFldId
      (s.appData a x1 x2) = (r, s') := ⟨_, _, rfl⟩
  rw [heq] at hnone hfile
  dsimp only at hnone hfile
  subst hnone
  refine ⟨s', by rw [appFld_eq h1 h2 hnR1 hnR2, heq], ?_⟩
  rw [hfile, Store.file_appData]

lemma nnSlot_isSome {fld : Name} :
    (nnSlot env s fld).isSome ↔ (mkNameAuxFld fld .nn).isSome ∧ 0 < s.freeSlots := by
  unfold nnSlot
  cases hname : mkNameAuxFld fld .nn with
  | none => simp
  | some name =>
    rw [Option.bind_some, Option.isSome_map, ← Option.ne_none_iff_isSome, Ne,
      getEmptyFld_eq_none (nnName_ne_nil hname), Nat.pos_iff_ne_zero]
    simp

/-- What a call of `app_fld` finds. -/
structure PairReady (env : Env) (s : Store) (t1Id t2Id a b nR1 nR2 : Nat) (x1 x2 : DataFile) : Prop where
  first : HasColumn env s a nR1 x1
  second : HasColumn env s b nR2 x2
  rows1 : (s.tbl t1Id).nR.toNat = nR1
  rows2 : (s.tbl t2Id).nR.toNat = nR2
  used : (s.fld a).Used
  pos : 0 < nR2
  fileno : 0 ≤ (s.fld a).fileno ∧ (s.fld a).fileno < s.nextFileno
  nn : 0 ≤ (s.fld b).nnFldId → ∃ y, getData env s (s.fld (s.fld b).nnFldId.toNat) = some y ∧
    y.cells.length = nR2 ∧ ¬ ((s.fld (s.fld b).nnFldId.toNat).ddirId = (s.fld a).ddirId ∧
      (s.fld (s.fld b).nnFldId.toNat).fileno = (s.fld a).fileno)

/-- A call of `app_fld` appends the column, or fails once the data is written. -/
lemma appFld_pair (h : PairReady env s t1Id t2Id a b nR1 nR2 x1 x2) :
    (PairFits env s a b (nR1 + nR2) ∧ (0 ≤ (s.fld b).nnFldId → 0 < s.freeSlots)) ∧
        (∃ s', appFld env t1Id a t2Id b s = (some (), s') ∧ ColStep s s' nR1 nR2 a b) ∨
      ¬ (PairFits env s a b (nR1 + nR2) ∧ (0 ≤ (s.fld b).nnFldId → 0 < s.freeSlots)) ∧
        ∃ s', appFld env t1Id a t2Id b s = (none, s') ∧
          s'.file a = some { x1 with cells := x1.cells ++ x2.cells } := by
  by_cases hn1 : (s.fld a).nnFldId < 0
  · by_cases hn2 : 0 ≤ (s.fld b).nnFldId
    · obtain ⟨y, hy, hlen, hother⟩ := h.nn hn2
      have hpos := h.pos
      have heq := appNn_eq t1Id nR1 (s := s.appData a x1 x2) (a := a) (Store.used_lt h.used) hn1 hn1
        hn2 ((getData_appData hother).trans hy) hlen (by omega : 0 < nR1 + nR2)
        (h.fileno.1.trans h.fileno.2.le)
      cases hroom : env.roomDir (nR1 + nR2) with
      | none =>
        rw [hroom] at heq
        refine .inr ⟨?_, appFld_fails h.first h.second h.rows1 h.rows2 (by rw [heq]) (by rw [heq])⟩
        rintro ⟨hfits, -⟩
        obtain ⟨d, hd, -⟩ := hfits.2 hn2
        rw [hroom] at hd
        cases hd
      | some d =>
        rw [hroom] at heq
        cases hslot : nnSlot env s (s.fld a).name with
        | none =>
          have hslot' : nnSlot env (s.appData a x1 x2) ((s.appData a x1 x2).fld a).name = none := hslot
          dsimp only at heq
          rw [hslot'] at heq
          refine .inr ⟨?_, appFld_fails h.first h.second h.rows1 h.rows2 (by rw [heq]) ?_⟩
          · rintro ⟨hfits, hfree⟩
            obtain ⟨-, -, hname⟩ := hfits.2 hn2
            have hsome : (nnSlot env s (s.fld a).name).isSome := nnSlot_isSome.mpr ⟨hname, hfree hn2⟩
            rw [hslot] at hsome
            cases hsome
          · rw [heq]
            exact Store.file_withTemp (s := s.appData a x1 x2) h.fileno.2 _ _
        | some q =>
          obtain ⟨name, k⟩ := q
          obtain ⟨hname, hfree⟩ := nnSlot_isSome.mp (Option.isSome_iff_exists.mpr ⟨_, hslot⟩)
          exact .inl ⟨⟨⟨hn1, fun _ => ⟨d, hroom, hname⟩⟩, fun _ => hfree⟩,
            appFld_nn h.first h.second h.rows1 h.rows2 h.used (by omega) h.fileno hn1 hn2
              ⟨hy, hlen, hother, hroom, hslot⟩⟩
    · exact .inl ⟨⟨⟨hn1, fun h => absurd h hn2⟩, fun h => absurd h hn2⟩,
        appFld_plain h.first h.second h.rows1 h.rows2 h.used hn1 (not_le.mp hn2)⟩
  · have heq : appNn env t1Id a nR1 nR2 (s.fld a).nnFldId (s.fld b).nnFldId (s.appData a x1 x2) =
        (none, s.appData a x1 x2) := by
      unfold appNn
      rw [Cmd.require_bind, if_neg hn1]
    refine .inr ⟨fun hfits => hn1 hfits.1.1, ?_⟩
    exact appFld_fails h.first h.second h.rows1 h.rows2 (by rw [heq]) (by rw [heq])

end

end

end Datacl
