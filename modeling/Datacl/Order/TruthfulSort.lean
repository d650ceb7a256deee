import Datacl.Order.Truthful

/-!
# The recorded order and sorting

New fields keep the invariant, and so do `sortf1f2` and `rng_sort` where they do not disturb a
column that is recorded as sorted.
-/

namespace Datacl

variable {env : Env} {s s' : Store} {dirty : List Nat}

/-! ### New fields -/

/-- A field of type `t` with this file is put into slot `i`, over what deletions left. -/
inductive Placed (i : Nat) (t : FldType) (d n : Int) (s : Store) : Store → Prop where
  | mk {s₁ : Store} {r : FldRec} (hs : Shrinks s s₁) (hi : i < s₁.flds.length)
      (hd : r.ddirId = d) (hn : r.fileno = n) (ht : r.fldtype = t) (hr : r.srttype = .unknown) :
      Placed i t d n s (s₁.setFld i r)

section Placed

variable {i : Nat} {t : FldType} {d n : Int} {f : DataFile}

lemma SortInv.placed (h : SortInv dirty s) (hfresh : Fresh s d n f) (hfits : f.Fits t)
    (hp : Placed i t d n s s') : SortInv dirty s' := by
  cases hp with
  | @mk s₁ r hs hi hd hn ht hr =>
    subst hd hn ht
    have hfresh₁ := hfresh.shrinks hs
    refine (h.shrinks hs).setFld ?_ ?_ ?_ ?_
    · exact fun _ j _ hj => hfresh₁.unowned j hj
    · exact fun _ => hfresh₁.lt
    · intro _ g hg
      rw [hfresh₁.file g hg]
      exact hfits
    · exact fun _ _ g _ => FldRec.ordered_unknown hr g.cells

lemma Placed.lt (hp : Placed i t d n s s') : i < s'.flds.length := by
  cases hp with
  | mk hs hi hd hn ht hr => simpa using hi

lemma Fresh.placed {d' n' : Int} {g : DataFile} (h : Fresh s d' n' g)
    (hp : Placed i t d n s s') (hne : n ≠ n') : Fresh s' d' n' g := by
  cases hp with
  | @mk s₁ r hs hi hd hn ht hr =>
    have h₁ := h.shrinks hs
    refine ⟨fun j hj hsame => ?_, h₁.lt, h₁.file⟩
    by_cases hji : j = i
    · rw [hji, Store.fld_setFld_of_lt hi] at hsame
      exact hne (hn.symm.trans hsame.2)
    · rw [Store.fld_setFld_of_ne hji] at hj hsame
      exact h₁.unowned j hj hsame

lemma Placed.other (hp : Placed i t d n s s') {j : Nat} (hj : j ≠ i) :
    (s.fld j).SameColumn (s'.fld j) ∨ (s'.fld j).Blank := by
  cases hp with
  | @mk s₁ r hs hi hd hn ht hr =>
    rw [Store.fld_setFld_of_ne hj]
    exact hs.flds j

/-- The file of the new field, if it is there. -/
lemma Placed.file (hp : Placed i t d n s s') (hfresh : Fresh s d n f) {g : DataFile}
    (hg : s'.disk (s'.fld i).ddirId (s'.fld i).fileno = some g) :
    g = f ∧ (s'.fld i).fldtype = t := by
  cases hp with
  | @mk s₁ r hs hi hd hn ht hr =>
    rw [Store.fld_setFld_of_lt hi] at hg ⊢
    rw [hd, hn] at hg
    exact ⟨(hfresh.shrinks hs).file g hg, ht⟩

lemma addFld_placed {tblId : Int} {fld : Name}
    (h : addFld env tblId fld d n { zeroFldRec with fldtype := t } s = (some i, s')) :
    Placed i t d n s s' := by
  unfold addFld at h
  obtain ⟨-, h⟩ := Cmd.require_bind_eq_some.mp h
  obtain ⟨-, h⟩ := Cmd.require_bind_eq_some.mp h
  obtain ⟨-, h⟩ := Cmd.require_bind_eq_some.mp h
  obtain ⟨-, h⟩ := Cmd.require_bind_eq_some.mp h
  rw [Cmd.get_bind] at h
  obtain ⟨-, h⟩ := Cmd.require_bind_eq_some.mp h
  obtain ⟨-, h⟩ := Cmd.require_bind_eq_some.mp h
  obtain ⟨filesz, -, h⟩ := Cmd.ofOption_bind_eq_some.mp h
  obtain ⟨_, s₁, hdel, h⟩ := Cmd.bind_eq_some.mp h
  rw [Cmd.get_bind] at h
  obtain ⟨j, hempty, h⟩ := Cmd.ofOption_bind_eq_some.mp h
  rw [Cmd.modify_bind] at h
  obtain ⟨rfl, rfl⟩ := Cmd.pure_eq_some.mp h
  exact .mk ((Deletes.delFld env _ _ _ _).shrinks hdel) (getEmptyFld_eq_some hempty).1 rfl rfl rfl rfl

end Placed

/-! ### Null values -/

lemma Deletes.delAuxFld (env : Env) (fldId : Nat) (auxtype : AuxType) :
    Deletes (delAuxFld env fldId auxtype) := by
  intro s
  unfold Datacl.delAuxFld
  rw [Cmd.get_bind, Cmd.require_bind]
  split
  · rw [Cmd.require_bind]
    split
    · dsimp only
      split
      · exact Shrinks.refl s
      · rw [Cmd.modify_bind]
        have hset : Shrinks s (s.setFld fldId { s.fld fldId with nnFldId := -1 }) :=
          Shrinks.setFld (.inl ⟨Iff.rfl, rfl, rfl, rfl, rfl⟩)
        refine hset.trans (Deletes.get.bind (fun _ => ?_) _)
        exact (Deletes.when _ ((Deletes.require _).bind fun _ => Deletes.qDelete env _ _)).bind
          fun _ => Deletes.zeroFld _
    · exact Shrinks.refl s
  · exact Shrinks.refl s

lemma Deletes.auxTarget (env : Env) (tblId fldId : Nat) :
    Deletes (auxTarget env [] tblId [] fldId .nn) := by
  unfold Datacl.auxTarget
  rw [if_pos ⟨Int.natCast_nonneg tblId, Int.natCast_nonneg fldId⟩]
  refine Deletes.bind ?_ fun _ => Deletes.pure _
  unfold dropAuxFld
  rw [if_pos (Int.natCast_nonneg fldId)]
  exact Deletes.delAuxFld env _ _

lemma addNn_placed {tblId fldId i : Nat} {d n : Int}
    (h : addAuxFld env [] tblId [] fldId d n .nn { zeroFldRec with fldtype := .I1 } s =
      (some i, s')) : Placed i .I1 d n s s' := by
  unfold addAuxFld at h
  obtain ⟨t, ht, h⟩ := Cmd.ofOption_bind_eq_some.mp h
  obtain rfl : t = .I1 := by simpa [auxFldtype] using ht.symm
  obtain ⟨-, h⟩ := Cmd.require_bind_eq_some.mp h
  obtain ⟨-, h⟩ := Cmd.require_bind_eq_some.mp h
  obtain ⟨-, h⟩ := Cmd.require_bind_eq_some.mp h
  obtain ⟨⟨_, target⟩, s₁, htarget, h⟩ := Cmd.bind_eq_some.mp h
  dsimp only at h
  rw [Cmd.get_bind] at h
  obtain ⟨file, -, h⟩ := Cmd.ofOption_bind_eq_some.mp h
  obtain ⟨name, -, h⟩ := Cmd.ofOption_bind_eq_some.mp h
  obtain ⟨j, hempty, h⟩ := Cmd.ofOption_bind_eq_some.mp h
  rw [Cmd.modify_bind, linkAux, Cmd.modify_bind, Cmd.modify_bind] at h
  obtain ⟨rfl, rfl⟩ := Cmd.pure_eq_some.mp h
  have hs₁ : Shrinks s s₁ := (Deletes.auxTarget env tblId fldId).shrinks htarget
  have hlink : ∀ s₂ : Store,
      Shrinks s₂ (s₂.setFld target { s₂.fld target with nnFldId := i }) := fun s₂ =>
    Shrinks.setFld (.inl ⟨Iff.rfl, rfl, rfl, rfl, rfl⟩)
  refine .mk ((hs₁.trans (Deletes.zeroFld i s₁)).trans (hlink _)) ?_ rfl rfl rfl rfl
  simpa using (getEmptyFld_eq_some hempty).1

/-! ### Sorting -/

lemma getData_eq_some {r : FldRec} {f : DataFile} (h : getData env s r = some f) :
    s.disk r.ddirId r.fileno = some f := by
  unfold getData qMmap at h
  split at h
  · exact (Option.filter_eq_some_iff.mp h).1
  · cases h

lemma isFld_used {tblId : Int} {fld : Name} {i : Nat} (hfld : fld ≠ [])
    (h : isFld s tblId fld = some i) : (s.fld i).Used := by
  rw [FldRec.Used, (isFld_eq_some h).2.2]
  exact hfld

/-- The record and the file of a column. -/
def column (s : Store) (tbl fld : Name) : Option (FldRec × DataFile) := do
  let tblId ← isTbl s tbl
  let fldId ← isFld s tblId fld
  let f ← s.disk (s.fld fldId).ddirId (s.fld fldId).fileno
  pure (s.fld fldId, f)

lemma column_eq_some {tbl fld : Name} {tblId i : Nat} {f : DataFile}
    (htbl : isTbl s tbl = some tblId) (hfld : isFld s tblId fld = some i)
    (hf : getData env s (s.fld i) = some f) : column s tbl fld = some (s.fld i, f) := by
  simp [column, htbl, hfld, getData_eq_some hf]

lemma cellKey_int {t : FldType} (h : t = .I4 ∨ t = .I8) (x : Int) : cellKey t x = x := by
  rcases h with rfl | rfl <;> rfl

lemma intSetSrttype_eq_some {tblId i : Nat} {t : SortType}
    (h : intSetSrttype env tblId i t s = (some (), s')) :
    s' = s.setFld i { s.fld i with srttype := t } ∧ 0 < (s'.tbl tblId).nR ∧
      chkFldMeta env s' i (s'.tbl tblId).nR = true := by
  unfold intSetSrttype at h
  rw [Cmd.modify_bind, Cmd.get_bind] at h
  obtain ⟨htbl, h⟩ := Cmd.require_bind_eq_some.mp h
  obtain ⟨hfld, rfl⟩ := Cmd.require_eq_some.mp h
  simp only [chkTblMeta, Bool.and_eq_true, decide_eq_true_eq] at htbl
  exact ⟨rfl, htbl.1.1.2, hfld⟩

/-- A field that passes the check has as many rows as its table. -/
lemma length_of_chkFldMeta {i k : Nat} {nR : Int} (hk : 0 < k)
    (ht : getFldSz (s.fld i).fldtype = some (k : Int)) (hnR : 0 < nR)
    (h : chkFldMeta env s i nR = true) {f : DataFile}
    (hf : s.disk (s.fld i).ddirId (s.fld i).fileno = some f) (hw : f.width = k) :
    (f.cells.length : Int) = nR := by
  have hfile : chkFile env s nR (s.fld i) = true := by
    unfold chkFldMeta at h
    exact (Bool.and_eq_true_iff.mp h).2
  unfold chkFile at hfile
  obtain ⟨-, hany⟩ := Bool.and_eq_true_iff.mp hfile
  obtain ⟨g, hg, hchk⟩ := (Option.any_eq_true _ _).mp hany
  have hgf : g = f := Option.some.inj ((getData_eq_some hg).symm.trans hf)
  subst hgf
  obtain ⟨-, hchk⟩ := Bool.and_eq_true_iff.mp hchk
  rw [ht, Option.any_some] at hchk
  have hsc : (s.fld i).fldtype ≠ .SC := by
    intro hsc
    rw [hsc, getFldSz] at ht
    have := Option.some.inj ht
    omega
  have hsv : (s.fld i).fldtype ≠ .SV := by
    intro hsv
    rw [hsv, getFldSz] at ht
    have := Option.some.inj ht
    omega
  simp only [hsc, hsv, DataFile.size, hw, not_le.mpr hnR, decide_false, Bool.false_or,
    decide_eq_true_eq, Nat.cast_mul] at hchk
  exact (mul_left_cancel₀ (by omega) hchk).symm

/-- `sortf1f2` drags along a column that is recorded as sorted only if it is in this order
wherever the other one is in the order it is sorted by. -/
def DragOk (s : Store) (tbl f1 f2 strOpSpec : Name) : Prop :=
  ∀ dir r1 x1 r2 x2, sortSpec strOpSpec = some dir → column s tbl f1 = some (r1, x1) →
    column s tbl f2 = some (r2, x2) → ∀ d : SortDir, r2.srttype = d.srttype →
      x1.cells.length = x2.cells.length ∧
        ∀ p ∈ x1.cells.zip x2.cells, ∀ q ∈ x1.cells.zip x2.cells, dir.le p.1 q.1 → d.le p.2 q.2

lemma getFldSz_int {t : FldType} (h : t = .I4 ∨ t = .I8) :
    ∃ k : Nat, 0 < k ∧ getFldSz t = some (k : Int) ∧ fldBits t = 8 * k := by
  rcases h with rfl | rfl
  · exact ⟨4, by decide, rfl, rfl⟩
  · exact ⟨8, by decide, rfl, rfl⟩

/-- A checked file of integers has the rows of its table. -/
lemma length_of_chk_int {i : Nat} {nR : Int} (ht : (s.fld i).fldtype = .I4 ∨ (s.fld i).fldtype = .I8)
    (hnR : 0 < nR) (h : chkFldMeta env s i nR = true) {f : DataFile}
    (hf : s.disk (s.fld i).ddirId (s.fld i).fileno = some f) (hfits : f.Fits (s.fld i).fldtype) :
    (f.cells.length : Int) = nR := by
  obtain ⟨k, hk, hsz, hbits⟩ := getFldSz_int ht
  have hwidth : f.width = k := by
    have := (hfits ht).1
    omega
  exact length_of_chkFldMeta hk hsz hnR h hf hwidth

/-- The first cells of a file are replaced by others of its cells. -/
lemma DataFile.Fits.replace {t : FldType} {f : DataFile} (h : f.Fits t) {cells : List Int}
    (hsub : ∀ x ∈ cells, x ∈ f.cells) (n : Nat) :
    DataFile.Fits t { f with cells := cells ++ f.cells.drop n } := by
  refine h.cells fun x hx => ?_
  rcases List.mem_append.mp hx with hx | hx
  · exact hsub x hx
  · exact List.mem_of_mem_drop hx

/-- What a successful call of `sortf1f2` does: it writes the sorted rows back to both columns. -/
structure PairSorted (env : Env) (q : PairSort) (s s' : Store) (tbl f1 f2 strOpSpec : Name) (tblId i j : Nat)
    (x1 x2 : DataFile) (dir : SortDir) (nR : Nat) (rows : List (Int × Int)) : Prop where
  table : isTbl s tbl = some tblId
  first : isFld s tblId f1 = some i
  second : isFld s tblId f2 = some j
  used1 : (s.fld i).Used
  used2 : (s.fld j).Used
  ne : i ≠ j
  data1 : getData env s (s.fld i) = some x1
  data2 : getData env s (s.fld j) = some x2
  spec : sortSpec strOpSpec = some dir
  int1 : (s.fld i).fldtype = .I4 ∨ (s.fld i).fldtype = .I8
  int2 : (s.fld j).fldtype = .I4 ∨ (s.fld j).fldtype = .I8
  enough : nR ≤ x1.cells.length ∧ nR ≤ x2.cells.length
  nR_eq : nR = (s.tbl tblId).nR.toNat
  rows_eq : rows = q.sort dir ((x1.cells.zip x2.cells).take nR)
  state : s' = Store.setFld i { s.fld i with srttype := dir.srttype }
    ((s.setData (s.fld i) { x1 with cells := rows.map Prod.fst ++ x1.cells.drop nR }).setData (s.fld j)
      { x2 with cells := rows.map Prod.snd ++ x2.cells.drop nR })
  pos : 0 < (s'.tbl tblId).nR
  checked : chkFldMeta env s' i (s'.tbl tblId).nR = true

lemma sortf1f2_eq_some {q : PairSort} {tbl f1 f2 strOpSpec : Name}
    (hrun : sortf1f2 env q tbl f1 f2 strOpSpec s = (some (), s')) :
    ∃ tblId i j x1 x2 dir nR rows, PairSorted env q s s' tbl f1 f2 strOpSpec tblId i j x1 x2 dir nR rows := by
  unfold Datacl.sortf1f2 at hrun
  obtain ⟨-, hrun⟩ := Cmd.require_bind_eq_some.mp hrun
  obtain ⟨hf1, hrun⟩ := Cmd.require_bind_eq_some.mp hrun
  obtain ⟨hf2, hrun⟩ := Cmd.require_bind_eq_some.mp hrun
  obtain ⟨hne, hrun⟩ := Cmd.require_bind_eq_some.mp hrun
  rw [Cmd.get_bind] at hrun
  obtain ⟨tblId, htbl, hrun⟩ := Cmd.ofOption_bind_eq_some.mp hrun
  obtain ⟨i, hi, hrun⟩ := Cmd.ofOption_bind_eq_some.mp hrun
  obtain ⟨-, hrun⟩ := Cmd.require_bind_eq_some.mp hrun
  obtain ⟨-, hrun⟩ := Cmd.require_bind_eq_some.mp hrun
  obtain ⟨x1, hx1, hrun⟩ := Cmd.ofOption_bind_eq_some.mp hrun
  obtain ⟨j, hj, hrun⟩ := Cmd.ofOption_bind_eq_some.mp hrun
  obtain ⟨-, hrun⟩ := Cmd.require_bind_eq_some.mp hrun
  obtain ⟨-, hrun⟩ := Cmd.require_bind_eq_some.mp hrun
  obtain ⟨x2, hx2, hrun⟩ := Cmd.ofOption_bind_eq_some.mp hrun
  obtain ⟨dir, hdir, hrun⟩ := Cmd.ofOption_bind_eq_some.mp hrun
  obtain ⟨ht1, hrun⟩ := Cmd.require_bind_eq_some.mp hrun
  obtain ⟨ht2, hrun⟩ := Cmd.require_bind_eq_some.mp hrun
  obtain ⟨hlen, hrun⟩ := Cmd.require_bind_eq_some.mp hrun
  rw [Cmd.modify_bind, Cmd.modify_bind] at hrun
  obtain ⟨hs', hnR, hchk⟩ := intSetSrttype_eq_some hrun
  have hij : i ≠ j := by
    rintro rfl
    exact hne ((isFld_eq_some hi).2.2.symm.trans (isFld_eq_some hj).2.2)
  exact ⟨tblId, i, j, x1, x2, dir, (s.tbl tblId).nR.toNat, _, htbl, hi, hj, isFld_used hf1 hi, isFld_used hf2 hj,
    hij, hx1, hx2, hdir, ht1, ht2, hlen, rfl, rfl, hs', hnR, hchk⟩

section

variable {q : PairSort} {tbl f1 f2 strOpSpec : Name} {tblId i j nR : Nat} {x1 x2 : DataFile} {dir : SortDir}
  {rows : List (Int × Int)}

lemma PairSorted.mem_zip (h : PairSorted env q s s' tbl f1 f2 strOpSpec tblId i j x1 x2 dir nR rows)
    {p : Int × Int} (hp : p ∈ rows) : p ∈ x1.cells.zip x2.cells := by
  rw [h.rows_eq] at hp
  exact List.mem_of_mem_take ((q.perm dir _).mem_iff.mp hp)

lemma PairSorted.length_rows (h : PairSorted env q s s' tbl f1 f2 strOpSpec tblId i j x1 x2 dir nR rows) :
    rows.length = nR := by
  have hlen := h.enough
  rw [h.rows_eq, (q.perm dir _).length_eq, List.length_take, List.length_zip]
  omega

lemma PairSorted.fits (h : PairSorted env q s s' tbl f1 f2 strOpSpec tblId i j x1 x2 dir nR rows)
    (hinv : SortInv [] s) :
    DataFile.Fits (s.fld i).fldtype { x1 with cells := rows.map Prod.fst ++ x1.cells.drop nR } ∧
      DataFile.Fits (s.fld j).fldtype { x2 with cells := rows.map Prod.snd ++ x2.cells.drop nR } := by
  constructor
  · refine (hinv.fits i h.used1 x1 (getData_eq_some h.data1)).replace (fun x hx => ?_) nR
    obtain ⟨p, hp, rfl⟩ := List.mem_map.mp hx
    exact (List.of_mem_zip (h.mem_zip hp)).1
  · refine (hinv.fits j h.used2 x2 (getData_eq_some h.data2)).replace (fun x hx => ?_) nR
    obtain ⟨p, hp, rfl⟩ := List.mem_map.mp hx
    exact (List.of_mem_zip (h.mem_zip hp)).2

/-- The records and the files of the two fields afterwards. -/
lemma PairSorted.after (h : PairSorted env q s s' tbl f1 f2 strOpSpec tblId i j x1 x2 dir nR rows)
    (hinv : SortInv [] s) :
    s'.fld i = { s.fld i with srttype := dir.srttype } ∧ s'.fld j = s.fld j ∧
      s'.disk (s.fld i).ddirId (s.fld i).fileno =
        some { x1 with cells := rows.map Prod.fst ++ x1.cells.drop nR } ∧
      s'.disk (s.fld j).ddirId (s.fld j).fileno =
        some { x2 with cells := rows.map Prod.snd ++ x2.cells.drop nR } := by
  have hi_lt : i < s.flds.length := (isFld_eq_some h.first).1
  have hfiles : ¬ ((s.fld i).ddirId = (s.fld j).ddirId ∧ (s.fld i).fileno = (s.fld j).fileno) :=
    fun hsame => h.ne (hinv.files i j h.used1 h.used2 hsame.1 hsame.2)
  refine ⟨?_, ?_, ?_, ?_⟩
  · rw [h.state, Store.fld_setFld_of_lt (by exact hi_lt)]
  · rw [h.state, Store.fld_setFld_of_ne (Ne.symm h.ne)]
    rfl
  · rw [h.state]
    change (Store.setData _ _ _).disk _ _ = _
    rw [Store.disk_setData, if_neg hfiles, Store.disk_setData, if_pos ⟨rfl, rfl⟩]
  · rw [h.state]
    change (Store.setData _ _ _).disk _ _ = _
    rw [Store.disk_setData, if_pos ⟨rfl, rfl⟩]

/-- The check at the end has counted the cells. -/
lemma PairSorted.length_cells (h : PairSorted env q s s' tbl f1 f2 strOpSpec tblId i j x1 x2 dir nR rows)
    (hinv : SortInv [] s) : x1.cells.length = nR := by
  obtain ⟨hfi, -, hdi, -⟩ := h.after hinv
  have htype : (s'.fld i).fldtype = (s.fld i).fldtype := by rw [hfi]
  have hdi' : s'.disk (s'.fld i).ddirId (s'.fld i).fileno =
      some { x1 with cells := rows.map Prod.fst ++ x1.cells.drop nR } := by
    rw [hfi]
    exact hdi
  have hrows := length_of_chk_int (htype ▸ h.int1) h.pos h.checked hdi' (htype ▸ (h.fits hinv).1)
  have hpos := h.pos
  have htbls : (s'.tbl tblId).nR = (s.tbl tblId).nR := by
    rw [h.state]
    rfl
  have hlen := h.length_rows
  have hnR := h.nR_eq
  have henough := h.enough
  rw [htbls] at hrows hpos
  simp only [List.length_append, List.length_map, List.length_drop, hlen] at hrows
  omega

end

lemma SortInv.sortf1f2 (h : SortInv [] s) {q : PairSort} {tbl f1 f2 strOpSpec : Name}
    (hok : DragOk s tbl f1 f2 strOpSpec)
    (hrun : sortf1f2 env q tbl f1 f2 strOpSpec s = (some (), s')) : SortInv [] s' := by
  obtain ⟨tblId, i, j, x1, x2, dir, nR, rows, hcall⟩ := sortf1f2_eq_some hrun
  obtain ⟨hfits1, hfits2⟩ := hcall.fits h
  obtain ⟨hfi, hfj, hdi, hdj⟩ := hcall.after h
  have hlen1 := hcall.length_cells h
  have hinv : SortInv [j, i] s' := by
    rw [hcall.state]
    refine ((h.setData hcall.used1 hfits1).setData hcall.used2 hfits2).updateFld id rfl rfl rfl fun hdirty => ?_
    exact absurd (by simp) hdirty
  have hsorted := q.sorted dir ((x1.cells.zip x2.cells).take nR)
  rw [← hcall.rows_eq] at hsorted
  refine (hinv.settle ?_).settle ?_
  · intro _ f hf d hd
    rw [hfj] at hf hd ⊢
    rw [hdj] at hf
    obtain rfl := Option.some.inj hf
    obtain ⟨hsame, hdrag⟩ := hok dir _ _ _ _ hcall.spec (column_eq_some hcall.table hcall.first hcall.data1)
      (column_eq_some hcall.table hcall.second hcall.data2) d hd
    simp only [cellKey_int hcall.int2]
    rw [List.drop_of_length_le (by omega), List.append_nil, List.pairwise_map]
    exact hsorted.imp_of_mem fun hp hp' => hdrag _ (hcall.mem_zip hp) _ (hcall.mem_zip hp')
  · intro _ f hf d hd
    rw [hfi] at hf hd ⊢
    rw [hdi] at hf
    obtain rfl := Option.some.inj hf
    obtain rfl := SortDir.srttype_inj hd
    simp only [cellKey_int hcall.int1]
    rw [List.drop_of_length_le (by omega), List.append_nil, List.pairwise_map]
    exact hsorted

/-! ### Sorting ranges -/

lemma getRanges_state {tblId : Nat} {lb ub : Name} {ranges : List (Int × Int)}
    (h : getRanges env tblId lb ub s = (some ranges, s')) : s' = s := by
  unfold getRanges at h
  rw [Cmd.get_bind] at h
  obtain ⟨lbId, -, h⟩ := Cmd.ofOption_bind_eq_some.mp h
  obtain ⟨lbX, -, h⟩ := Cmd.ofOption_bind_eq_some.mp h
  obtain ⟨-, h⟩ := Cmd.require_bind_eq_some.mp h
  obtain ⟨-, h⟩ := Cmd.require_bind_eq_some.mp h
  obtain ⟨ubId, -, h⟩ := Cmd.ofOption_bind_eq_some.mp h
  obtain ⟨ubX, -, h⟩ := Cmd.ofOption_bind_eq_some.mp h
  obtain ⟨-, h⟩ := Cmd.require_bind_eq_some.mp h
  obtain ⟨-, h⟩ := Cmd.require_bind_eq_some.mp h
  exact (Cmd.pure_eq_some.mp h).2

instance (d : SortDir) : Std.Total d.le :=
  ⟨fun a b => by cases d <;> simp only [SortDir.le] <;> omega⟩

instance (d : SortDir) : IsTrans Int d.le := ⟨fun _ _ _ => SortDir.le_trans⟩

lemma sliceRows_sublist (cells : List Int) (r : Int × Int) : (sliceRows cells r).Sublist cells :=
  (List.take_sublist _ _).trans (List.drop_sublist _ _)

lemma take_slice_drop (cells : List Int) {r : Int × Int} (h0 : 0 ≤ r.1) (hlt : r.1 < r.2) :
    cells.take r.1.toNat ++ sliceRows cells r ++ cells.drop r.2.toNat = cells := by
  have hdrop : cells.drop r.2.toNat = (cells.drop r.1.toNat).drop (r.2 - r.1).toNat := by
    rw [List.drop_drop]
    congr 1
    omega
  rw [sliceRows, hdrop, List.append_assoc, List.take_append_drop, List.take_append_drop]

lemma rngSortAt_mem {dir : SortDir} {nR : Int} {cells : List Int} {r : Int × Int} {x : Int}
    (h : x ∈ rngSortAt dir nR cells r) : x ∈ cells := by
  unfold rngSortAt at h
  split at h
  · rcases List.mem_append.mp h with h | h
    · rcases List.mem_append.mp h with h | h
      · exact List.mem_of_mem_take h
      · exact (sliceRows_sublist cells r).subset ((List.perm_insertionSort _ _).mem_iff.mp h)
    · exact List.mem_of_mem_drop h
  · exact h

lemma rngSort_mem {dir : SortDir} {nR : Int} {ranges : List (Int × Int)} {cells : List Int}
    {x : Int} (h : x ∈ ranges.foldl (rngSortAt dir nR) cells) : x ∈ cells := by
  induction ranges generalizing cells with
  | nil => exact h
  | cons r ranges ih => exact rngSortAt_mem (ih h)

/-- A range that is in order is left alone. -/
lemma rngSortAt_eq {dir : SortDir} {nR : Int} {cells : List Int} {r : Int × Int}
    (h : (sliceRows cells r).Pairwise dir.le) : rngSortAt dir nR cells r = cells := by
  unfold rngSortAt
  split
  · next hok =>
    simp only [rngSortOk, Bool.and_eq_true, decide_eq_true_eq] at hok
    rw [SortDir.qsort, h.insertionSort_eq, take_slice_drop cells hok.1.1.1.1 hok.1.2]
  · rfl

lemma rngSort_eq {dir : SortDir} {nR : Int} {ranges : List (Int × Int)} {cells : List Int}
    (h : ∀ r ∈ ranges, (sliceRows cells r).Pairwise dir.le) :
    ranges.foldl (rngSortAt dir nR) cells = cells := by
  induction ranges with
  | nil => rfl
  | cons r ranges ih =>
    rw [List.foldl_cons, rngSortAt_eq (h r List.mem_cons_self)]
    exact ih fun r' hr' => h r' (List.mem_cons_of_mem r hr')

/-- `rng_sort` sorts ranges of a column that is recorded as sorted only in the recorded
direction, or where all values of a range are equal. -/
def RangeSortOk (env : Env) (s : Store) (t1 f1 mode t2 lb ub : Name) : Prop :=
  ∀ dir r x t2Id ranges, rngSortMode mode = some dir → column s t1 f1 = some (r, x) →
    isTbl s t2 = some t2Id → getRanges env t2Id lb ub s = (some ranges, s) →
      ∀ d : SortDir, r.srttype = d.srttype → d = dir ∨
        ∀ rng ∈ ranges, ∀ a ∈ sliceRows x.cells rng, ∀ b ∈ sliceRows x.cells rng, a = b

lemma SortInv.rngSort (h : SortInv [] s) {t1 f1 mode t2 lb ub : Name}
    (hok : RangeSortOk env s t1 f1 mode t2 lb ub)
    (hrun : rngSort env t1 f1 mode t2 lb ub s = (some (), s')) : SortInv [] s' := by
  unfold Datacl.rngSort at hrun
  obtain ⟨-, hrun⟩ := Cmd.require_bind_eq_some.mp hrun
  obtain ⟨hf1, hrun⟩ := Cmd.require_bind_eq_some.mp hrun
  obtain ⟨-, hrun⟩ := Cmd.require_bind_eq_some.mp hrun
  obtain ⟨-, hrun⟩ := Cmd.require_bind_eq_some.mp hrun
  obtain ⟨-, hrun⟩ := Cmd.require_bind_eq_some.mp hrun
  obtain ⟨-, hrun⟩ := Cmd.require_bind_eq_some.mp hrun
  obtain ⟨-, hrun⟩ := Cmd.require_bind_eq_some.mp hrun
  obtain ⟨dir, hdir, hrun⟩ := Cmd.ofOption_bind_eq_some.mp hrun
  rw [Cmd.get_bind] at hrun
  obtain ⟨t1Id, ht1, hrun⟩ := Cmd.ofOption_bind_eq_some.mp hrun
  obtain ⟨i, hi, hrun⟩ := Cmd.ofOption_bind_eq_some.mp hrun
  obtain ⟨-, hrun⟩ := Cmd.require_bind_eq_some.mp hrun
  obtain ⟨x, hx, hrun⟩ := Cmd.ofOption_bind_eq_some.mp hrun
  obtain ⟨htype, hrun⟩ := Cmd.require_bind_eq_some.mp hrun
  obtain ⟨-, hrun⟩ := Cmd.require_bind_eq_some.mp hrun
  obtain ⟨t2Id, ht2, hrun⟩ := Cmd.ofOption_bind_eq_some.mp hrun
  obtain ⟨ranges, s₁, hranges, hrun⟩ := Cmd.bind_eq_some.mp hrun
  obtain rfl := getRanges_state hranges
  rw [Cmd.modify_bind] at hrun
  obtain ⟨-, rfl⟩ := Cmd.require_eq_some.mp hrun
  have hused : (s₁.fld i).Used := isFld_used hf1 hi
  have hfile : s₁.disk (s₁.fld i).ddirId (s₁.fld i).fileno = some x := getData_eq_some hx
  refine (h.setData hused ((h.fits i hused x hfile).cells fun _ => rngSort_mem)).settle ?_
  intro _ f hf d hd
  rw [Store.fld_setData] at hf hd ⊢
  rw [Store.disk_setData, if_pos ⟨rfl, rfl⟩] at hf
  obtain rfl := Option.some.inj hf
  have hord := h.truthful i List.not_mem_nil hused x hfile d hd
  rw [rngSort_eq]
  · exact hord
  · intro rng hrng
    rcases hok dir _ _ _ _ hdir (column_eq_some ht1 hi hx) ht2 hranges d hd with rfl | hconst
    · simp only [cellKey_int htype] at hord
      exact hord.sublist (sliceRows_sublist x.cells rng)
    · refine List.Pairwise.imp_of_mem (fun ha hb _ => ?_) (List.pairwise_of_forall fun _ _ => trivial)
      rw [hconst rng hrng _ ha _ hb]
      exact dir.le_refl _

end Datacl
