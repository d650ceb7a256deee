import Datacl.Meta.FieldSpecs
import Datacl.Meta.FldInfoHistory

/-!
# Fields and their auxiliary fields

An auxiliary field names its parent, and the parent refers to it: to the nn field by its own
record, to the lengths and offsets of strings by a record of the index.
-/

namespace Datacl

/-! ### Consistency -/

/-- The metadata is consistent, except that a field of strings may lack its lengths or offsets:
the rules of `chk_fld_meta` for auxiliary fields, each in the table of its parent and an nn field
the one its parent points to; lengths and offsets for strings only; and the rules of
`chk_fld_info` for the records of the index. -/
structure Consistent (s : Store) : Prop where
  aux : ∀ i, (s.fld i).Used → 0 ≤ (s.fld i).parentId → chkAux s (s.fld i) = true
  auxTbl : ∀ i, (s.fld i).Used → 0 ≤ (s.fld i).parentId →
    (s.fld i).tblId = (s.fld (s.fld i).parentId.toNat).tblId
  auxNn : ∀ i, (s.fld i).Used → 0 ≤ (s.fld i).parentId → (s.fld i).auxtype = .nn →
    (s.fld (s.fld i).parentId.toNat).nnFldId = i
  others : ∀ i, (s.fld i).Used → (s.fld i).fldtype ≠ .SV → chkLenOff s i (s.fld i) = true
  parents : ∀ r ∈ s.info, r.mode ≠ .undefFldInfo → 0 ≤ r.fldId ∧ (s.fld r.fldId.toNat).Used
  dicts : ∀ r ∈ s.info, r.mode = .fkFldTxtLkp →
    (0 ≤ r.xxx ∧ r.xxx < s.flds.length) ∧ isZeroFldRec (s.fld r.xxx.toNat) = false
  lens : ∀ r ∈ s.info, r.mode = .fkFldLen → chkAuxInfo s r .I2 .len = true
  offs : ∀ r ∈ s.info, r.mode = .fkFldOff → chkAuxInfo s r .I8 .off = true

/-- Every field of strings has its lengths and its offsets. -/
def StringsComplete (s : Store) : Prop :=
  ∀ i, (s.fld i).Used → (s.fld i).fldtype = .SV → chkLenOff s i (s.fld i) = true

/-! ### The invariant -/

/-- The kind of record of the index that refers to an auxiliary field. -/
def AuxType.mode : AuxType → FldInfoMode
  | .len => .fkFldLen
  | .off => .fkFldOff
  | _ => .undefFldInfo

/-- The field `p` refers to `i` as its auxiliary field of this kind. -/
def LinksTo (s : Store) (p i : Nat) : AuxType → Prop
  | .undefAuxtype => False
  | .nn => (s.fld p).nnFldId = i
  | k => ∃ r ∈ s.info, r.mode = k.mode ∧ r.fldId = p ∧ r.xxx = i

/-- The types an auxiliary field of this kind can have. -/
def AuxType.Allows : AuxType → FldType → Prop
  | .nn, t => t = .I1 ∨ t = .B
  | .len, t => t = .I2
  | .off, t => t = .I8
  | .undefAuxtype, _ => False

/-- The field `i` is an auxiliary field of the primary field `p`. -/
structure IsAux (s : Store) (p i : Nat) : Prop where
  parent : (s.fld i).parentId = p
  used : (s.fld p).Used
  primary : (s.fld p).auxtype = .undefAuxtype
  tbl : (s.fld i).tblId = (s.fld p).tblId
  name : (s.fld i).name = auxPrefix (s.fld i).auxtype ++ (s.fld p).name
  type : (s.fld i).auxtype.Allows (s.fld i).fldtype
  nn : (s.fld i).nnFldId < 0
  link : LinksTo s p i (s.fld i).auxtype

/-- The record of the index refers from the primary field `p` to the field `a`. -/
structure RecOk (s : Store) (r : FldInfo) (p a : Nat) : Prop where
  fldId : r.fldId = p
  xxx : r.xxx = a
  used : (s.fld p).Used
  primary : (s.fld p).auxtype = .undefAuxtype
  auxUsed : (s.fld a).Used
  dict : r.mode = .fkFldTxtLkp → (s.fld a).auxtype = .undefAuxtype
  aux : ∀ k : AuxType, k.mode ≠ .undefFldInfo → r.mode = k.mode →
    (s.fld a).auxtype = k ∧ (s.fld a).parentId = p ∧ (s.fld p).fldtype = .SV

structure MetaInv (s : Store) : Prop where
  length : s.flds.length ≤ 32768
  index : IndexOk s.flds.length s.info
  unused : ∀ i, ¬ (s.fld i).Used → s.fld i = zeroFldRec
  primary : ∀ i, (s.fld i).auxtype = .undefAuxtype → (s.fld i).parentId < 0
  aux : ∀ i, (s.fld i).auxtype ≠ .undefAuxtype → ∃ p, IsAux s p i
  nn : ∀ p, 0 ≤ (s.fld p).nnFldId → ∃ k : Nat, (s.fld p).nnFldId = k ∧
    (s.fld k).auxtype = .nn ∧ (s.fld k).parentId = p
  recs : ∀ r ∈ s.info, r.mode ≠ .undefFldInfo → ∃ p a, RecOk s r p a

variable {s s' : Store}

lemma MetaInv.auxUsed (h : MetaInv s) {i : Nat} (hi : (s.fld i).auxtype ≠ .undefAuxtype) :
    (s.fld i).Used := by
  by_contra hused
  exact hi (by rw [h.unused i hused]; rfl)

lemma Store.used_lt {i : Nat} (hi : (s.fld i).Used) : i < s.flds.length := by
  by_contra hlt
  rw [Store.fld_of_le (not_lt.mp hlt)] at hi
  exact hi rfl

lemma used_not_zero {r : FldRec} (h : r.Used) : isZeroFldRec r = false := by
  refine decide_eq_false fun heq => h ?_
  have : ({ r with numNn := -1 } : FldRec).name = [] := by
    rw [heq]
    rfl
  exact this

/-- The rules for auxiliary fields. -/
lemma IsAux.chkAux {p i : Nat} (h : IsAux s p i) : chkAux s (s.fld i) = true := by
  have hp : (s.fld i).parentId.toNat = p := by
    rw [h.parent]
    rfl
  have htype := h.type
  have hlink := h.link
  have hname := h.name
  have hnn := h.nn
  unfold Datacl.chkAux
  rw [hp]
  cases hk : (s.fld i).auxtype with
  | undefAuxtype => simp [hk, AuxType.Allows] at htype
  | nn =>
    rw [hk] at htype hlink hname
    simp only [AuxType.Allows] at htype
    simp only [LinksTo] at hlink
    simp [htype, hname, hlink, hnn]
  | len =>
    rw [hk] at htype hname
    simp only [AuxType.Allows] at htype
    simp [htype, hname, hnn]
  | off =>
    rw [hk] at htype hname
    simp only [AuxType.Allows] at htype
    simp [htype, hname, hnn]

lemma MetaInv.parent (h : MetaInv s) {i : Nat} (hi : 0 ≤ (s.fld i).parentId) :
    ∃ p, IsAux s p i ∧ (s.fld i).parentId.toNat = p := by
  have hk : (s.fld i).auxtype ≠ .undefAuxtype := by
    intro hk
    have := h.primary i hk
    omega
  obtain ⟨p, hp⟩ := h.aux i hk
  exact ⟨p, hp, by rw [hp.parent]; rfl⟩

/-- A field of strings is the only one with lengths and offsets. -/
lemma MetaInv.getFldInfo_eq (h : MetaInv s) {i : Nat} (hi : (s.fld i).fldtype ≠ .SV)
    {k : AuxType} (hk : k.mode ≠ .undefFldInfo) : getFldInfo k.mode i s.info = -1 := by
  rcases getFldInfo_spec h.length h.index hk i with ⟨-, r, hr, hm, hf, -⟩ | ⟨hnone, -⟩
  · obtain ⟨p, a, hrec⟩ := h.recs r hr (by rw [hm]; exact hk)
    have hpi : p = i := by
      have := hrec.fldId
      omega
    exact absurd (hpi ▸ (hrec.aux k hk hm).2.2) hi
  · exact hnone

/-- The rules for a record of lengths or offsets. -/
lemma MetaInv.chkAuxInfo (h : MetaInv s) {r : FldInfo} (hr : r ∈ s.info) {k : AuxType}
    (hk : k.mode ≠ .undefFldInfo) (hm : r.mode = k.mode) {t : FldType}
    (ht : ∀ t', k.Allows t' → t' = t) : chkAuxInfo s r t k = true := by
  obtain ⟨p, a, hrec⟩ := h.recs r hr (by rw [hm]; exact hk)
  obtain ⟨hak, hpar, -⟩ := hrec.aux k hk hm
  obtain ⟨p', haux⟩ := h.aux a (by rw [hak]; rintro rfl; exact hk rfl)
  obtain rfl : p' = p := by
    have := haux.parent
    omega
  have hp : r.fldId.toNat = p' := by
    rw [hrec.fldId]
    rfl
  have ha : r.xxx.toNat = a := by
    rw [hrec.xxx]
    rfl
  have hlt : a < s.flds.length := Store.used_lt hrec.auxUsed
  have htype : (s.fld a).fldtype = t := ht _ (hak ▸ haux.type)
  have hname := haux.name
  rw [hak] at hname
  unfold Datacl.chkAuxInfo
  rw [hp, ha, hrec.xxx]
  simp [hlt, used_not_zero hrec.auxUsed, htype, hname, haux.tbl]

lemma MetaInv.consistent (h : MetaInv s) : Consistent s := by
  constructor
  · intro i _ hi
    obtain ⟨p, hp, -⟩ := h.parent hi
    exact hp.chkAux
  · intro i _ hi
    obtain ⟨p, hp, heq⟩ := h.parent hi
    rw [heq]
    exact hp.tbl
  · intro i _ hi hk
    obtain ⟨p, hp, heq⟩ := h.parent hi
    have hlink := hp.link
    rw [hk] at hlink
    rw [heq]
    exact hlink
  · intro i _ hi
    have hlen : getFldInfo .fkFldLen i s.info = -1 := h.getFldInfo_eq (k := .len) hi (by decide)
    have hoff : getFldInfo .fkFldOff i s.info = -1 := h.getFldInfo_eq (k := .off) hi (by decide)
    simp [chkLenOff, hi, hlen, hoff]
  · intro r hr hm
    obtain ⟨p, a, hrec⟩ := h.recs r hr hm
    rw [hrec.fldId]
    exact ⟨Int.natCast_nonneg p, hrec.used⟩
  · intro r hr hm
    obtain ⟨p, a, hrec⟩ := h.recs r hr (by rw [hm]; decide)
    have := Store.used_lt hrec.auxUsed
    rw [hrec.xxx]
    exact ⟨by omega, used_not_zero hrec.auxUsed⟩
  · exact fun r hr hm => h.chkAuxInfo (k := .len) hr (by decide) hm fun _ ht => ht
  · exact fun r hr hm => h.chkAuxInfo (k := .off) hr (by decide) hm fun _ ht => ht

/-! ### Removing a field -/

/-- The field and its auxiliary fields are reset and the records of the index that have it as
parent are gone. -/
structure Removed (p : Nat) (s s' : Store) : Prop where
  primary : (s.fld p).auxtype = .undefAuxtype
  unused : ∀ r ∈ s.info, r.mode = .fkFldTxtLkp → r.xxx ≠ p
  length : s'.flds.length = s.flds.length
  index : IndexOk s'.flds.length s'.info
  flds : ∀ j : Nat, s'.fld j =
    if j = p ∨ j = (s.fld p).nnFldId ∨ ∃ r ∈ s.info, r.Lists p j then zeroFldRec else s.fld j
  info : ∀ r : FldInfo, r.mode ≠ .undefFldInfo → (r ∈ s'.info ↔ r ∈ s.info ∧ r.fldId ≠ p)

lemma Sweep.mem_left {p : Nat} {info left reset : List FldInfo} (h : Sweep p info left reset)
    {r : FldInfo} (hr : r.mode ≠ .undefFldInfo) :
    (r ∈ left → r ∈ info) ∧ (r ∈ info → r.fldId ≠ p → r ∈ left) := by
  have hzero : r ≠ zeroFldInfoRec := by
    rintro rfl
    exact hr rfl
  induction h with
  | nil => simp
  | skip _ _ ih =>
    simp only [List.mem_cons]
    exact ⟨fun h => h.imp_right ih.1, fun h hp => h.imp_right fun h => ih.2 h hp⟩
  | last hment =>
    simp only [List.mem_singleton]
    exact ⟨fun h => absurd h hzero, fun h hp => absurd (h ▸ hment.2) hp⟩
  | reset hment _ ih =>
    simp only [List.mem_append, List.mem_cons, List.not_mem_nil, hzero, or_false] at ih ⊢
    constructor
    · rintro (h | h)
      · exact .inr (.inl h)
      · exact .inr (.inr (ih.1 h))
    · rintro (rfl | h | h) hp
      · exact absurd hment.2 hp
      · exact .inl h
      · exact .inr (ih.2 h hp)

lemma Deleted.removed {p : Nat} {reset : List FldInfo} (h : Deleted p s s' reset)
    (hapart : Apart p s.info) : Removed p s s' := by
  obtain ⟨hleft, hreset⟩ := h.sweep.complete hapart
  refine ⟨h.primary, h.unused, h.frame.length, h.index, fun j => ?_, fun r hr => ?_⟩
  · rw [h.flds j]
    have hiff : (∃ r ∈ reset, r.Lists p j) ↔ ∃ r ∈ s.info, r.Lists p j := by
      constructor
      · rintro ⟨r, hr, hl⟩
        exact ⟨r, (h.sweep.reset_mentions r hr).1, hl⟩
      · rintro ⟨r, hr, hl⟩
        exact ⟨r, hreset r hr hl.mentions, hl⟩
    simp only [hiff]
  · obtain ⟨h1, h2⟩ := h.sweep.mem_left hr
    constructor
    · intro hmem
      exact ⟨h1 hmem, fun hp => hleft r hmem ⟨hr, hp⟩⟩
    · rintro ⟨hmem, hp⟩
      exact h2 hmem hp

/-- The kind of a record of the index that is not a dictionary. -/
lemma FldInfoMode.cases {m : FldInfoMode} (h : m ≠ .undefFldInfo) :
    m = .fkFldTxtLkp ∨ ∃ k : AuxType, k.mode ≠ .undefFldInfo ∧ m = k.mode := by
  cases m with
  | undefFldInfo => exact absurd rfl h
  | fkFldTxtLkp => exact .inl rfl
  | fkFldLen => exact .inr ⟨.len, by decide, rfl⟩
  | fkFldOff => exact .inr ⟨.off, by decide, rfl⟩

lemma AuxType.mode_lists {k : AuxType} (hk : k.mode ≠ .undefFldInfo) :
    k.mode = .fkFldLen ∨ k.mode = .fkFldOff := by
  cases k <;> simp [AuxType.mode] at hk ⊢

lemma AuxType.ne_undef {k : AuxType} (hk : k.mode ≠ .undefFldInfo) : k ≠ .undefAuxtype := by
  rintro rfl
  exact hk rfl

/-- A primary field refers to its auxiliary fields and to nothing else. -/
lemma MetaInv.linked_iff (h : MetaInv s) {p j : Nat} :
    (j = (s.fld p).nnFldId ∨ ∃ r ∈ s.info, r.Lists p j) ↔ IsAux s p j := by
  have haux : ∀ {k : AuxType}, (s.fld j).auxtype = k → k ≠ .undefAuxtype →
      (s.fld j).parentId = p → IsAux s p j := by
    intro k hk hne hpar
    obtain ⟨q, hq⟩ := h.aux j (by rw [hk]; exact hne)
    obtain rfl : q = p := by
      have := hq.parent
      omega
    exact hq
  constructor
  · rintro (hnn | ⟨r, hr, hmode, hfld, hxxx⟩)
    · obtain ⟨k, hk, htype, hpar⟩ := h.nn p (by omega)
      obtain rfl : k = j := by omega
      exact haux htype (by decide) hpar
    · obtain ⟨k, hk, hm⟩ : ∃ k : AuxType, k.mode ≠ .undefFldInfo ∧ r.mode = k.mode := by
        rcases hmode with hm | hm
        · exact ⟨.len, by decide, hm⟩
        · exact ⟨.off, by decide, hm⟩
      obtain ⟨q, a, hrec⟩ := h.recs r hr (by rw [hm]; exact hk)
      obtain ⟨hak, hpar, -⟩ := hrec.aux k hk hm
      have := hrec.fldId
      have := hrec.xxx
      obtain rfl : a = j := by omega
      obtain rfl : q = p := by omega
      exact haux hak (AuxType.ne_undef hk) hpar
  · intro hj
    have hlink := hj.link
    cases hk : (s.fld j).auxtype with
    | undefAuxtype => simp [hk, LinksTo] at hlink
    | nn =>
      rw [hk] at hlink
      exact .inl hlink.symm
    | len =>
      rw [hk] at hlink
      obtain ⟨r, hr, hm, hf, hx⟩ := hlink
      exact .inr ⟨r, hr, .inl hm, hf, hx⟩
    | off =>
      rw [hk] at hlink
      obtain ⟨r, hr, hm, hf, hx⟩ := hlink
      exact .inr ⟨r, hr, .inr hm, hf, hx⟩

lemma IsAux.auxtype_ne {p i : Nat} (h : IsAux s p i) : (s.fld i).auxtype ≠ .undefAuxtype := by
  intro hk
  have := h.type
  rw [hk] at this
  exact this

/-- Auxiliary fields of the same parent stay linked if the records of the parent stay. -/
lemma LinksTo.mono {p i : Nat} {k : AuxType} (h : LinksTo s p i k)
    (hnn : (s'.fld p).nnFldId = (s.fld p).nnFldId)
    (hinfo : ∀ r ∈ s.info, r.mode ≠ .undefFldInfo → r.fldId = p → r ∈ s'.info) :
    LinksTo s' p i k := by
  cases k with
  | undefAuxtype => exact h
  | nn => exact hnn.trans h
  | len =>
    obtain ⟨r, hr, hm, hf, hx⟩ := h
    exact ⟨r, hinfo r hr (by rw [hm]; decide) hf, hm, hf, hx⟩
  | off =>
    obtain ⟨r, hr, hm, hf, hx⟩ := h
    exact ⟨r, hinfo r hr (by rw [hm]; decide) hf, hm, hf, hx⟩

/-- A link other than to the nn field is a record of the index. -/
lemma LinksTo.of_index {p i : Nat} {k : AuxType} (h : LinksTo s p i k) (hk : k ≠ .nn)
    (hinfo : ∀ r ∈ s.info, r.mode ≠ .undefFldInfo → r ∈ s'.info) : LinksTo s' p i k := by
  cases k with
  | undefAuxtype => exact h
  | nn => exact absurd rfl hk
  | len =>
    obtain ⟨r, hr, hm, hrest⟩ := h
    exact ⟨r, hinfo r hr (by rw [hm]; decide), hm, hrest⟩
  | off =>
    obtain ⟨r, hr, hm, hrest⟩ := h
    exact ⟨r, hinfo r hr (by rw [hm]; decide), hm, hrest⟩

lemma IsAux.nnFldId_eq {p i : Nat} (h : IsAux s p i) (hk : (s.fld i).auxtype = .nn) :
    (s.fld p).nnFldId = i := by
  have hlink := h.link
  rwa [hk] at hlink

/-- What the links of a field to others depend on. -/
structure FldRec.SameRole (r r' : FldRec) : Prop where
  used : r.Used → r'.Used
  auxtype : r'.auxtype = r.auxtype
  parentId : r'.parentId = r.parentId
  fldtype : r'.fldtype = r.fldtype

lemma FldRec.SameRole.of_eq {r r' : FldRec} (h : r' = r) : r.SameRole r' := by
  subst h
  exact ⟨id, rfl, rfl, rfl⟩

lemma RecOk.keep {r : FldInfo} {p a : Nat} (h : RecOk s r p a)
    (hp : (s.fld p).SameRole (s'.fld p)) (ha : (s.fld a).SameRole (s'.fld a)) :
    RecOk s' r p a := by
  refine ⟨h.fldId, h.xxx, hp.used h.used, hp.auxtype.trans h.primary, ha.used h.auxUsed, ?_, ?_⟩
  · rw [ha.auxtype]
    exact h.dict
  · rw [ha.auxtype, ha.parentId, hp.fldtype]
    exact h.aux

lemma IsAux.keep {p i : Nat} (h : IsAux s p i) (hi : s'.fld i = s.fld i)
    (hp : (s.fld p).SameRole (s'.fld p)) (htbl : (s'.fld p).tblId = (s.fld p).tblId)
    (hname : (s'.fld p).name = (s.fld p).name) (hlink : LinksTo s' p i (s.fld i).auxtype) :
    IsAux s' p i := by
  refine ⟨?_, hp.used h.used, hp.auxtype.trans h.primary, ?_, ?_, ?_, ?_, ?_⟩
  · rw [hi]
    exact h.parent
  · rw [hi, htbl]
    exact h.tbl
  · rw [hi, hname]
    exact h.name
  · rw [hi]
    exact h.type
  · rw [hi]
    exact h.nn
  · rw [hi]
    exact hlink

/-- A field stays if it is neither the field removed nor one of its auxiliary fields. -/
lemma MetaInv.removed_fld (h : MetaInv s) {p j : Nat} (hr : Removed p s s') (hne : j ≠ p)
    (hnot : ¬ IsAux s p j) : s'.fld j = s.fld j := by
  rw [hr.flds j, if_neg]
  exact fun hz => hz.elim hne fun hz => hnot (h.linked_iff.mp hz)

lemma MetaInv.removed (h : MetaInv s) {p : Nat} (hr : Removed p s s') : MetaInv s' := by
  have hzero : ∀ {j}, j = p ∨ IsAux s p j → s'.fld j = zeroFldRec := by
    intro j hj
    rw [hr.flds j, if_pos]
    exact hj.imp_right h.linked_iff.mpr
  have hkeep : ∀ {j}, s'.fld j ≠ zeroFldRec → s'.fld j = s.fld j ∧ j ≠ p ∧ ¬ IsAux s p j := by
    intro j hj
    have hne : j ≠ p := fun he => hj (hzero (.inl he))
    have hnot : ¬ IsAux s p j := fun ha => hj (hzero (.inr ha))
    exact ⟨h.removed_fld hr hne hnot, hne, hnot⟩
  have hprim : ∀ {j}, (s.fld j).auxtype = .undefAuxtype → j ≠ p → s'.fld j = s.fld j :=
    fun hj hne => h.removed_fld hr hne fun ha => ha.auxtype_ne hj
  have hstay : ∀ {j q}, IsAux s q j → q ≠ p → s'.fld j = s.fld j := by
    intro j q hj hne
    apply h.removed_fld hr
    · rintro rfl
      exact hj.auxtype_ne hr.primary
    · intro ha
      have := hj.parent
      have := ha.parent
      omega
  have hindex : ∀ {q : Nat}, q ≠ p → ∀ r ∈ s.info, r.mode ≠ .undefFldInfo → r.fldId = q →
      r ∈ s'.info := by
    intro q hne r hmem hm hf
    refine (hr.info r hm).mpr ⟨hmem, ?_⟩
    omega
  constructor
  · rw [hr.length]
    exact h.length
  · exact hr.index
  · intro i hi
    by_contra hne
    rw [(hkeep hne).1] at hi hne
    exact hne (h.unused i hi)
  · intro i hi
    by_cases hz : s'.fld i = zeroFldRec
    · rw [hz]
      decide
    · rw [(hkeep hz).1] at hi ⊢
      exact h.primary i hi
  · intro i hi
    have hne : s'.fld i ≠ zeroFldRec := by
      intro hz
      rw [hz] at hi
      exact hi rfl
    obtain ⟨heq, hip, hnot⟩ := hkeep hne
    rw [heq] at hi
    obtain ⟨q, hq⟩ := h.aux i hi
    have hqp : q ≠ p := by
      rintro rfl
      exact hnot hq
    have hqeq := hprim hq.primary hqp
    exact ⟨q, hq.keep heq (.of_eq hqeq) (by rw [hqeq]) (by rw [hqeq])
      (hq.link.mono (by rw [hqeq]) (hindex hqp))⟩
  · intro q hq
    have hne : s'.fld q ≠ zeroFldRec := by
      intro hz
      rw [hz] at hq
      exact absurd hq (by decide)
    obtain ⟨heq, hqp, -⟩ := hkeep hne
    rw [heq] at hq ⊢
    obtain ⟨k, hk, htype, hpar⟩ := h.nn q hq
    have hkeq := hstay (h.linked_iff.mp (.inl hk.symm)) hqp
    exact ⟨k, hk, by rw [hkeq]; exact htype, by rw [hkeq]; exact hpar⟩
  · intro r hmem hm
    obtain ⟨hmem, hfp⟩ := (hr.info r hm).mp hmem
    obtain ⟨q, a, hrec⟩ := h.recs r hmem hm
    have hqp : q ≠ p := by
      rintro rfl
      exact hfp hrec.fldId
    have hqeq := hprim hrec.primary hqp
    have haeq : s'.fld a = s.fld a := by
      rcases FldInfoMode.cases hm with htxt | ⟨k, hk, hmk⟩
      · refine hprim (hrec.dict htxt) ?_
        rintro rfl
        exact hr.unused r hmem htxt hrec.xxx
      · have hlists : r.Lists q a := ⟨hmk ▸ AuxType.mode_lists hk, hrec.fldId, hrec.xxx⟩
        exact hstay (h.linked_iff.mp (.inr ⟨r, hmem, hlists⟩)) hqp
    exact ⟨q, a, hrec.keep (.of_eq hqeq) (.of_eq haeq)⟩

end Datacl
