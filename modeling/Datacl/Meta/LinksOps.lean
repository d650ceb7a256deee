import Datacl.Meta.Links
import Datacl.Meta.Names

/-!
# Operations on fields keep the links
-/

namespace Datacl

variable {env : Env} {s s' : Store}

/-! ### Single changes -/

lemma Store.fld_congr (h : s'.flds = s.flds) (j : Nat) : s'.fld j = s.fld j := by
  rw [Store.fld, h, Store.fld]

/-- Every field keeps its role, its table and its nn field, names still match, and the index only
gets new records. -/
lemma MetaInv.keepRoles (h : MetaInv s) (hlen : s'.flds.length = s.flds.length)
    (hidx : IndexOk s'.flds.length s'.info) (hrole : ∀ j, (s.fld j).SameRole (s'.fld j))
    (hunused : ∀ j, ¬ (s.fld j).Used → s'.fld j = s.fld j)
    (htbl : ∀ j, (s'.fld j).tblId = (s.fld j).tblId)
    (hnn : ∀ j, (s'.fld j).nnFldId = (s.fld j).nnFldId)
    (hname : ∀ p j, IsAux s p j →
      (s'.fld j).name = auxPrefix (s.fld j).auxtype ++ (s'.fld p).name)
    (hold : ∀ r ∈ s.info, r.mode ≠ .undefFldInfo → r ∈ s'.info)
    (hnew : ∀ r ∈ s'.info, r.mode ≠ .undefFldInfo → r ∈ s.info ∨ ∃ p a, RecOk s' r p a) :
    MetaInv s' := by
  constructor
  · rw [hlen]
    exact h.length
  · exact hidx
  · intro i hi
    have hi' : ¬ (s.fld i).Used := fun hused => hi ((hrole i).used hused)
    rw [hunused i hi']
    exact h.unused i hi'
  · intro i hi
    rw [(hrole i).parentId]
    exact h.primary i ((hrole i).auxtype.symm.trans hi)
  · intro i hi
    rw [(hrole i).auxtype] at hi
    obtain ⟨p, hp⟩ := h.aux i hi
    refine ⟨p, ⟨?_, (hrole p).used hp.used, (hrole p).auxtype.trans hp.primary, ?_, ?_, ?_, ?_, ?_⟩⟩
    · exact (hrole i).parentId.trans hp.parent
    · rw [htbl, htbl]
      exact hp.tbl
    · rw [(hrole i).auxtype]
      exact hname p i hp
    · rw [(hrole i).auxtype, (hrole i).fldtype]
      exact hp.type
    · rw [hnn]
      exact hp.nn
    · rw [(hrole i).auxtype]
      exact hp.link.mono (hnn p) fun r hr hm _ => hold r hr hm
  · intro p hp
    rw [hnn] at hp ⊢
    obtain ⟨k, hk, htype, hpar⟩ := h.nn p hp
    exact ⟨k, hk, (hrole k).auxtype.trans htype, (hrole k).parentId.trans hpar⟩
  · intro r hr hm
    rcases hnew r hr hm with hr | hrec
    · obtain ⟨p, a, hrec⟩ := h.recs r hr hm
      exact ⟨p, a, hrec.keep (hrole p) (hrole a)⟩
    · exact hrec

/-- Tables and data files do not matter. -/
lemma MetaInv.congr (h : MetaInv s) (hflds : s'.flds = s.flds) (hinfo : s'.info = s.info) :
    MetaInv s' := by
  have hfld := Store.fld_congr hflds
  refine h.keepRoles (by rw [hflds]) (by rw [hflds, hinfo]; exact h.index)
    (fun j => .of_eq (hfld j)) (fun j _ => hfld j) (fun j => by rw [hfld]) (fun j => by rw [hfld])
    (fun p j hj => by rw [hfld, hfld]; exact hj.name) ?_ ?_
  · rw [hinfo]
    exact fun r hr _ => hr
  · rw [hinfo]
    exact fun r hr _ => .inl hr

lemma MetaInv.sameRecs (h : MetaInv s) (hs : SameRecs s s') : MetaInv s' :=
  h.congr hs.flds hs.info

/-- A new primary field in a free slot. -/
lemma MetaInv.newFld (h : MetaInv s) {i : Nat} (hi : i < s.flds.length)
    (hfree : ¬ (s.fld i).Used) {r : FldRec} (hused : r.Used) (hprim : r.auxtype = .undefAuxtype)
    (hpar : r.parentId < 0) (hnn : r.nnFldId < 0) : MetaInv (s.setFld i r) := by
  have hself : (s.setFld i r).fld i = r := Store.fld_setFld_of_lt hi r
  have hother : ∀ {j}, j ≠ i → (s.setFld i r).fld j = s.fld j := fun hj =>
    Store.fld_setFld_of_ne hj r
  have hne : ∀ {j}, (s.fld j).Used → j ≠ i := by
    rintro j hj rfl
    exact hfree hj
  constructor
  · rw [Store.length_setFld]
    exact h.length
  · rw [Store.length_setFld]
    exact h.index
  · intro j hj
    by_cases hji : j = i
    · rw [hji, hself] at hj
      exact absurd hused hj
    · rw [hother hji] at hj ⊢
      exact h.unused j hj
  · intro j hj
    by_cases hji : j = i
    · rw [hji, hself]
      exact hpar
    · rw [hother hji] at hj ⊢
      exact h.primary j hj
  · intro j hj
    by_cases hji : j = i
    · rw [hji, hself] at hj
      exact absurd hprim hj
    · rw [hother hji] at hj
      obtain ⟨p, hp⟩ := h.aux j hj
      have hpeq := hother (hne hp.used)
      exact ⟨p, hp.keep (hother hji) (.of_eq hpeq) (by rw [hpeq]) (by rw [hpeq])
        (hp.link.mono (by rw [hpeq]) fun r hr _ _ => hr)⟩
  · intro p hp
    by_cases hpi : p = i
    · rw [hpi, hself] at hp
      omega
    · rw [hother hpi] at hp ⊢
      obtain ⟨k, hk, htype, hkpar⟩ := h.nn p hp
      have hki : k ≠ i := hne (h.auxUsed (by rw [htype]; decide))
      exact ⟨k, hk, by rw [hother hki]; exact htype, by rw [hother hki]; exact hkpar⟩
  · intro r' hr' hm
    obtain ⟨p, a, hrec⟩ := h.recs r' hr' hm
    exact ⟨p, a, hrec.keep (.of_eq (hother (hne hrec.used))) (.of_eq (hother (hne hrec.auxUsed)))⟩

/-- The record of an auxiliary field of `p`. -/
structure AuxRec (s : Store) (p : Nat) (c : FldRec) : Prop where
  parent : c.parentId = p
  tbl : c.tblId = (s.fld p).tblId
  name : c.name = auxPrefix c.auxtype ++ (s.fld p).name
  type : c.auxtype.Allows c.fldtype
  nn : c.nnFldId < 0

lemma AuxRec.used {p : Nat} {c : FldRec} (h : AuxRec s p c) : c.Used := by
  rw [FldRec.Used, h.name, auxPrefix]
  exact List.cons_ne_nil _ _

lemma AuxRec.auxtype_ne {p : Nat} {c : FldRec} (h : AuxRec s p c) : c.auxtype ≠ .undefAuxtype := by
  intro hk
  have := h.type
  rw [hk] at this
  exact this

/-- A new auxiliary field `k` of `p` in a free slot. Either it is the nn field of `p`, which had
none, or the index has a new record for it. -/
structure NewAux (s s' : Store) (p k : Nat) (c : FldRec) (m : Int) : Prop where
  used : (s.fld p).Used
  prim : (s.fld p).auxtype = .undefAuxtype
  free : ¬ (s.fld k).Used
  auxRec : AuxRec s p c
  length : s'.flds.length = s.flds.length
  index : IndexOk s'.flds.length s'.info
  self : s'.fld k = c
  par : s'.fld p = { s.fld p with nnFldId := m }
  other : ∀ j, j ≠ k → j ≠ p → s'.fld j = s.fld j
  nn : c.auxtype = .nn ∧ m = k ∧ (s.fld p).nnFldId < 0 ∨
    c.auxtype ≠ .nn ∧ m = (s.fld p).nnFldId ∧ (s.fld p).fldtype = .SV
  link : LinksTo s' p k c.auxtype
  old : ∀ r ∈ s.info, r.mode ≠ .undefFldInfo → r ∈ s'.info
  new : ∀ r ∈ s'.info, r.mode ≠ .undefFldInfo →
    r ∈ s.info ∨ (r.mode = c.auxtype.mode ∧ r.fldId = p ∧ r.xxx = k)

section

variable {p k : Nat} {c : FldRec} {m : Int}

lemma NewAux.ne (hadd : NewAux s s' p k c m) {j : Nat} (hj : (s.fld j).Used) : j ≠ k := by
  rintro rfl
  exact hadd.free hj

lemma NewAux.role (hadd : NewAux s s' p k c m) {j : Nat} (hj : (s.fld j).Used) :
    (s.fld j).SameRole (s'.fld j) := by
  by_cases hjp : j = p
  · rw [hjp, hadd.par]
    exact ⟨id, rfl, rfl, rfl⟩
  · exact .of_eq (hadd.other j (hadd.ne hj) hjp)

/-- The new field belongs to `p`. -/
lemma NewAux.isAux (hadd : NewAux s s' p k c m) : IsAux s' p k := by
  have hself := hadd.self
  have hpar := hadd.par
  refine ⟨?_, ?_, ?_, ?_, ?_, ?_, ?_, ?_⟩
  · rw [hself]
    exact hadd.auxRec.parent
  · exact (hadd.role hadd.used).used hadd.used
  · exact (hadd.role hadd.used).auxtype.trans hadd.prim
  · rw [hself, hpar]
    exact hadd.auxRec.tbl
  · rw [hself, hpar]
    exact hadd.auxRec.name
  · rw [hself]
    exact hadd.auxRec.type
  · rw [hself]
    exact hadd.auxRec.nn
  · rw [hself]
    exact hadd.link

/-- The other auxiliary fields still belong to their fields. -/
lemma NewAux.keepAux (hadd : NewAux s s' p k c m) {q j : Nat} (hq : IsAux s q j) (hjk : j ≠ k)
    (hjp : j ≠ p) : IsAux s' q j := by
  have hpar := hadd.par
  by_cases hqp : q = p
  · subst hqp
    refine hq.keep (hadd.other j hjk hjp) (hadd.role hadd.used) (by rw [hpar]) (by rw [hpar]) ?_
    rcases hadd.nn with ⟨-, -, hno⟩ | ⟨-, rfl, -⟩
    · -- `q` had no nn field, so the link is a record of the index
      refine hq.link.of_index (fun hkind => ?_) hadd.old
      have := hq.nnFldId_eq hkind
      omega
    · exact hq.link.mono (by rw [hpar]) fun r hr hm _ => hadd.old r hr hm
  · have hqeq := hadd.other q (hadd.ne hq.used) hqp
    exact hq.keep (hadd.other j hjk hjp) (.of_eq hqeq) (by rw [hqeq]) (by rw [hqeq])
      (hq.link.mono (by rw [hqeq]) fun r hr hm _ => hadd.old r hr hm)

/-- The nn fields are found where their fields say. -/
lemma NewAux.hasNn (h : MetaInv s) (hadd : NewAux s s' p k c m) {q : Nat}
    (hq : 0 ≤ (s'.fld q).nnFldId) :
    ∃ i : Nat, (s'.fld q).nnFldId = i ∧ (s'.fld i).auxtype = .nn ∧ (s'.fld i).parentId = q := by
  have hkept : 0 ≤ (s.fld q).nnFldId → (s'.fld q).nnFldId = (s.fld q).nnFldId →
      ∃ i : Nat, (s'.fld q).nnFldId = i ∧ (s'.fld i).auxtype = .nn ∧ (s'.fld i).parentId = q := by
    intro hold heq
    obtain ⟨i, hi, htype, hipar⟩ := h.nn q hold
    have hrole := hadd.role (h.auxUsed (i := i) (by rw [htype]; decide))
    exact ⟨i, heq.trans hi, hrole.auxtype.trans htype, hrole.parentId.trans hipar⟩
  by_cases hqk : q = k
  · rw [hqk, hadd.self] at hq
    have := hadd.auxRec.nn
    omega
  · by_cases hqp : q = p
    · subst hqp
      rcases hadd.nn with ⟨hkind, rfl, -⟩ | ⟨-, hm, -⟩
      · refine ⟨k, by rw [hadd.par], ?_, ?_⟩
        · rw [hadd.self]
          exact hkind
        · rw [hadd.self]
          exact hadd.auxRec.parent
      · have heq : (s'.fld q).nnFldId = (s.fld q).nnFldId := by rw [hadd.par, ← hm]
        exact hkept (heq ▸ hq) heq
    · have heq := congrArg FldRec.nnFldId (hadd.other q hqk hqp)
      exact hkept (heq ▸ hq) heq

/-- The records of the index refer to fields and their auxiliary fields. -/
lemma NewAux.recOk (h : MetaInv s) (hadd : NewAux s s' p k c m) {r : FldInfo} (hr : r ∈ s'.info)
    (hmode : r.mode ≠ .undefFldInfo) : ∃ q a, RecOk s' r q a := by
  have hrole := hadd.role hadd.used
  rcases hadd.new r hr hmode with hr | ⟨hrm, hrf, hrx⟩
  · obtain ⟨q, a, hrec⟩ := h.recs r hr hmode
    exact ⟨q, a, hrec.keep (hadd.role hrec.used) (hadd.role hrec.auxUsed)⟩
  · have hkind : c.auxtype.mode ≠ .undefFldInfo := hrm ▸ hmode
    have hsv : (s.fld p).fldtype = .SV := by
      rcases hadd.nn with ⟨hnn, -⟩ | ⟨-, -, hsv⟩
      · rw [hnn] at hkind
        exact absurd rfl hkind
      · exact hsv
    refine ⟨p, k, ⟨hrf, hrx, hrole.used hadd.used, hrole.auxtype.trans hadd.prim, ?_, ?_, ?_⟩⟩
    · rw [hadd.self]
      exact hadd.auxRec.used
    · intro htxt
      rw [htxt] at hrm
      cases hkc : c.auxtype <;> simp [hkc, AuxType.mode] at hrm
    · intro k' hk' hmk'
      rw [hadd.self, hrole.fldtype]
      refine ⟨?_, hadd.auxRec.parent, hsv⟩
      rw [hrm] at hmk'
      cases hkc : c.auxtype <;> cases k' <;> simp_all [AuxType.mode]

lemma MetaInv.addAux (h : MetaInv s) (hadd : NewAux s s' p k c m) : MetaInv s' := by
  constructor
  · rw [hadd.length]
    exact h.length
  · exact hadd.index
  · intro j hj
    by_cases hjk : j = k
    · rw [hjk, hadd.self] at hj
      exact absurd hadd.auxRec.used hj
    · by_cases hjp : j = p
      · rw [hjp, hadd.par] at hj
        exact absurd hadd.used hj
      · rw [hadd.other j hjk hjp] at hj ⊢
        exact h.unused j hj
  · intro j hj
    by_cases hjk : j = k
    · rw [hjk, hadd.self] at hj
      exact absurd hj hadd.auxRec.auxtype_ne
    · by_cases hjp : j = p
      · rw [hjp, hadd.par]
        exact h.primary p hadd.prim
      · rw [hadd.other j hjk hjp] at hj ⊢
        exact h.primary j hj
  · intro j hj
    by_cases hjk : j = k
    · exact ⟨p, hjk ▸ hadd.isAux⟩
    · by_cases hjp : j = p
      · rw [hjp, hadd.par] at hj
        exact absurd hadd.prim hj
      · rw [hadd.other j hjk hjp] at hj
        obtain ⟨q, hq⟩ := h.aux j hj
        exact ⟨q, hadd.keepAux hq hjk hjp⟩
  · exact fun q hq => hadd.hasNn h hq
  · exact fun r hr hmode => hadd.recOk h hr hmode

end

/-- The nn field `k` of `p` is cut off: reset, or made a primary field. -/
structure NnCut (s s' : Store) (p k : Nat) (c : FldRec) : Prop where
  aux : IsAux s p k
  isNn : (s.fld k).auxtype = .nn
  prim : c.auxtype = .undefAuxtype
  noParent : c.parentId < 0
  noNn : c.nnFldId < 0
  unused : ¬ c.Used → c = zeroFldRec
  length : s'.flds.length = s.flds.length
  info : s'.info = s.info
  self : s'.fld k = c
  par : s'.fld p = { s.fld p with nnFldId := -1 }
  other : ∀ j, j ≠ k → j ≠ p → s'.fld j = s.fld j

section

variable {p k : Nat} {c : FldRec}

lemma NnCut.role (hcut : NnCut s s' p k c) {j : Nat} (hj : j ≠ k) : (s.fld j).SameRole (s'.fld j) := by
  by_cases hjp : j = p
  · rw [hjp, hcut.par]
    exact ⟨id, rfl, rfl, rfl⟩
  · exact .of_eq (hcut.other j hj hjp)

/-- The auxiliary fields but `k` keep their fields. -/
lemma NnCut.keepAux (hcut : NnCut s s' p k c) {q j : Nat} (hq : IsAux s q j) (hjk : j ≠ k) (hjp : j ≠ p) :
    IsAux s' q j := by
  have hpar := hcut.par
  have hinfo := hcut.info
  have hqk : q ≠ k := by
    rintro rfl
    exact hcut.aux.auxtype_ne hq.primary
  by_cases hqp : q = p
  · subst hqp
    refine hq.keep (hcut.other j hjk hjp) (hcut.role hqk) (by rw [hpar]) (by rw [hpar]) ?_
    refine hq.link.of_index (fun hkind => ?_) (by rw [hinfo]; exact fun r hr _ => hr)
    -- the nn field of `q` is `k`
    have hself := hcut.aux.nnFldId_eq hcut.isNn
    have := hq.nnFldId_eq hkind
    omega
  · have hqeq := hcut.other q hqk hqp
    exact hq.keep (hcut.other j hjk hjp) (.of_eq hqeq) (by rw [hqeq]) (by rw [hqeq])
      (hq.link.mono (by rw [hqeq]) fun r hr _ _ => hinfo ▸ hr)

/-- No record of the index refers to `k`. -/
lemma NnCut.keepRec (hcut : NnCut s s' p k c) {r : FldInfo} (hmode : r.mode ≠ .undefFldInfo) {q a : Nat}
    (hrec : RecOk s r q a) : RecOk s' r q a := by
  have hqk : q ≠ k := by
    rintro rfl
    exact hcut.aux.auxtype_ne hrec.primary
  have hak : a ≠ k := by
    rintro rfl
    rcases FldInfoMode.cases hmode with htxt | ⟨k', hk', hmk'⟩
    · exact hcut.aux.auxtype_ne (hrec.dict htxt)
    · have hkind := (hrec.aux k' hk' hmk').1
      rw [hcut.isNn] at hkind
      rw [← hkind] at hk'
      exact hk' rfl
  exact hrec.keep (hcut.role hqk) (hcut.role hak)

lemma MetaInv.cutNn (h : MetaInv s) (hcut : NnCut s s' p k c) : MetaInv s' := by
  constructor
  · rw [hcut.length]
    exact h.length
  · rw [hcut.length, hcut.info]
    exact h.index
  · intro j hj
    by_cases hjk : j = k
    · rw [hjk, hcut.self] at hj ⊢
      exact hcut.unused hj
    · by_cases hjp : j = p
      · rw [hjp, hcut.par] at hj
        exact absurd hcut.aux.used hj
      · rw [hcut.other j hjk hjp] at hj ⊢
        exact h.unused j hj
  · intro j hj
    by_cases hjk : j = k
    · rw [hjk, hcut.self]
      exact hcut.noParent
    · rw [(hcut.role hjk).auxtype] at hj
      rw [(hcut.role hjk).parentId]
      exact h.primary j hj
  · intro j hj
    by_cases hjk : j = k
    · rw [hjk, hcut.self] at hj
      exact absurd hcut.prim hj
    · by_cases hjp : j = p
      · rw [hjp, hcut.par] at hj
        exact absurd hcut.aux.primary hj
      · rw [hcut.other j hjk hjp] at hj
        obtain ⟨q, hq⟩ := h.aux j hj
        exact ⟨q, hcut.keepAux hq hjk hjp⟩
  · intro q hq
    by_cases hqk : q = k
    · rw [hqk, hcut.self] at hq
      have := hcut.noNn
      omega
    · by_cases hqp : q = p
      · rw [hqp, hcut.par] at hq
        simp at hq
      · rw [hcut.other q hqk hqp] at hq ⊢
        obtain ⟨i, hi, htype, hipar⟩ := h.nn q hq
        have hik : i ≠ k := by
          rintro rfl
          have := hcut.aux.parent
          omega
        exact ⟨i, hi, (hcut.role hik).auxtype.trans htype, (hcut.role hik).parentId.trans hipar⟩
  · intro r hr hmode
    rw [hcut.info] at hr
    obtain ⟨q, a, hrec⟩ := h.recs r hr hmode
    exact ⟨q, a, hcut.keepRec hmode hrec⟩

end

/-- A change of a record that keeps its links. -/
lemma MetaInv.updateFld (h : MetaInv s) {i : Nat} {r : FldRec} (hused : (s.fld i).Used)
    (hname : r.name = (s.fld i).name) (htbl : r.tblId = (s.fld i).tblId)
    (hnn : r.nnFldId = (s.fld i).nnFldId) (hrole : (s.fld i).SameRole r) :
    MetaInv (s.setFld i r) := by
  have hself : (s.setFld i r).fld i = r := Store.fld_setFld_of_lt (Store.used_lt hused) r
  have hall : ∀ j, ((s.setFld i r).fld j).name = (s.fld j).name ∧
      ((s.setFld i r).fld j).tblId = (s.fld j).tblId ∧
      ((s.setFld i r).fld j).nnFldId = (s.fld j).nnFldId := by
    intro j
    by_cases hj : j = i
    · rw [hj, hself]
      exact ⟨hname, htbl, hnn⟩
    · rw [Store.fld_setFld_of_ne hj]
      exact ⟨rfl, rfl, rfl⟩
  refine h.keepRoles (Store.length_setFld ..) ?_ ?_ ?_ (fun j => (hall j).2.1)
    (fun j => (hall j).2.2) ?_ (fun r hr _ => hr) (fun r hr _ => .inl hr)
  · rw [Store.length_setFld]
    exact h.index
  · intro j
    by_cases hj : j = i
    · rw [hj, hself]
      exact hrole
    · exact .of_eq (Store.fld_setFld_of_ne hj r)
  · intro j hj
    refine Store.fld_setFld_of_ne ?_ r
    rintro rfl
    exact hj hused
  · intro p j hj
    rw [(hall j).1, (hall p).1]
    exact hj.name

/-- A record added to the index. -/
lemma MetaInv.onInfo_add (h : MetaInv s) {p a : Nat} {m : FldInfoMode}
    (hrun : onInfo (addToFldInfo s.flds.length p m a) s = (some (), s')) :
    s'.flds = s.flds ∧ IndexOk s'.flds.length s'.info ∧
      ∀ r : FldInfo, r.mode ≠ .undefFldInfo →
        (r ∈ s'.info ↔ r ∈ s.info ∨ r = ⟨m, 0, p, a, 0⟩) := by
  rw [onInfo, Cmd.on_apply] at hrun
  obtain ⟨hsome, rfl⟩ := Prod.ext_iff.mp hrun
  exact ⟨rfl, h.index.add h.length (Prod.ext hsome rfl)⟩

/-- A field gets a dictionary. -/
lemma MetaInv.addDict (h : MetaInv s) {p a : Nat} (hp : (s.fld p).Used)
    (hprim : (s.fld p).auxtype = .undefAuxtype) (ha : (s.fld a).Used)
    (haprim : (s.fld a).auxtype = .undefAuxtype)
    (hrun : onInfo (addToFldInfo s.flds.length p .fkFldTxtLkp a) s = (some (), s')) :
    MetaInv s' := by
  obtain ⟨hflds, hidx, hmem⟩ := h.onInfo_add hrun
  have hfld := Store.fld_congr hflds
  refine h.keepRoles (by rw [hflds]) hidx (fun j => .of_eq (hfld j)) (fun j _ => hfld j)
    (fun j => by rw [hfld]) (fun j => by rw [hfld]) (fun p j hj => by rw [hfld, hfld]; exact hj.name)
    (fun r hr hm => (hmem r hm).mpr (.inl hr)) ?_
  intro r hr hm
  rcases (hmem r hm).mp hr with hr | rfl
  · exact .inl hr
  · rw [← hfld] at hp hprim ha haprim
    refine .inr ⟨p, a, rfl, rfl, hp, hprim, ha, fun _ => haprim, ?_⟩
    intro k _ hmode
    cases k <;> cases hmode

/-- A primary field without lengths and offsets gets a new name, and so does its nn field. -/
lemma MetaInv.renamed (h : MetaInv s) {p : Nat} {new : Name} (hp : (s.fld p).Used)
    (hprim : (s.fld p).auxtype = .undefAuxtype) (hnew : new ≠ [])
    (honly : ∀ j, IsAux s p j → (s.fld j).auxtype = .nn)
    (hlen : s'.flds.length = s.flds.length) (hinfo : s'.info = s.info)
    (hfld : ∀ j : Nat, s'.fld j =
      if j = p then { s.fld p with name := new }
      else if j = (s.fld p).nnFldId then { s.fld j with name := auxPrefix .nn ++ new }
      else s.fld j) : MetaInv s' := by
  have hrec : ∀ j, ∃ x, s'.fld j = { s.fld j with name := x } ∧ ((s.fld j).Used → x ≠ []) := by
    intro j
    rw [hfld j]
    by_cases hj : j = p
    · rw [if_pos hj, hj]
      exact ⟨new, rfl, fun _ => hnew⟩
    · rw [if_neg hj]
      by_cases hjn : (j : Int) = (s.fld p).nnFldId
      · rw [if_pos hjn]
        exact ⟨_, rfl, fun _ => List.cons_ne_nil _ _⟩
      · rw [if_neg hjn]
        exact ⟨_, rfl, id⟩
  have hauxp : ∀ {q j}, IsAux s q j → j ≠ p := by
    rintro q j hj rfl
    exact hj.auxtype_ne hprim
  refine h.keepRoles hlen (by rw [hlen, hinfo]; exact h.index) ?_ ?_ ?_ ?_ ?_
    (by rw [hinfo]; exact fun r hr _ => hr) (by rw [hinfo]; exact fun r hr _ => .inl hr)
  · intro j
    obtain ⟨x, hx, hne⟩ := hrec j
    rw [hx]
    exact ⟨hne, rfl, rfl, rfl⟩
  · intro j hj
    rw [hfld j, if_neg, if_neg]
    · intro hjn
      have hnn := h.linked_iff.mp (.inl hjn)
      exact hj (h.auxUsed hnn.auxtype_ne)
    · rintro rfl
      exact hj hp
  · intro j
    obtain ⟨x, hx, -⟩ := hrec j
    rw [hx]
  · intro j
    obtain ⟨x, hx, -⟩ := hrec j
    rw [hx]
  · intro q j hj
    by_cases hqp : q = p
    · subst hqp
      have hnn := honly j hj
      rw [hfld j, if_neg (hauxp hj), if_pos (hj.nnFldId_eq hnn).symm, hfld q, if_pos rfl, hnn]
    · have hjn : ¬ (j : Int) = (s.fld p).nnFldId := by
        intro hjn
        have := (h.linked_iff.mp (.inl hjn)).parent
        have := hj.parent
        omega
      have hqn : ¬ (q : Int) = (s.fld p).nnFldId := fun hqn =>
        (h.linked_iff.mp (.inl hqn)).auxtype_ne hj.primary
      rw [hfld j, if_neg (hauxp hj), if_neg hjn, hfld q, if_neg hqp, if_neg hqn]
      exact hj.name

end Datacl
