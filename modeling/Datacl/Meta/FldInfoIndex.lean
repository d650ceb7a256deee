import Datacl.Meta.FldInfo

/-!
# The order of the auxiliary-field index

A used record compares below an unused one: the auxiliary field of an unused record is `-1`,
whose bytes are the largest an unsigned reading can give, while a used record names a field. So
the sort that ends every mutator keeps the used records in front.
-/

namespace Datacl

/-- The records that the mutators leave: unused ones, and used ones that name two fields. -/
def FldInfo.Ok (nFld : Nat) (r : FldInfo) : Prop :=
  r = zeroFldInfoRec ∨ (r.mode ≠ .undefFldInfo ∧ r.unused1 = 0 ∧ (0 ≤ r.fldId ∧ r.fldId < nFld) ∧
    (0 ≤ r.xxx ∧ r.xxx < nFld) ∧ r.unused2 = 0)

/-- The invariant of the index. -/
structure IndexOk (nFld : Nat) (info : List FldInfo) : Prop where
  sorted : info.Pairwise FldInfo.Le
  ok : ∀ r ∈ info, r.Ok nFld

variable {nFld : Nat} {info info' : List FldInfo}

/-! ### Comparing records -/

lemma FldInfoMode.toNat_lt (m : FldInfoMode) : m.toNat < 4 := by
  cases m <;> decide

lemma FldInfoMode.toNat_injective {m m' : FldInfoMode} (h : m.toNat = m'.toNat) : m = m' := by
  cases m <;> cases m' <;> first | rfl | cases h

lemma toShort_of_range (hn : nFld ≤ 32768) {x : Int} (h0 : 0 ≤ x) (h1 : x < nFld) :
    toShort x = x := by
  unfold toShort
  rw [Int.bmod_def]
  omega

lemma zeroFldInfoRec_toI8 : zeroFldInfoRec.toI8 = 2 ^ 32 * 65535 := by decide

lemma FldInfo.Ok.toI8_of_used (hn : nFld ≤ 32768) {r : FldInfo} (h : r.Ok nFld)
    (hused : r.mode ≠ .undefFldInfo) :
    r.toI8 = r.mode.toNat + 2 ^ 16 * r.fldId + 2 ^ 32 * r.xxx := by
  obtain rfl | ⟨-, h1, hf, hx, h2⟩ := h
  · exact absurd rfl hused
  · have hf' : r.fldId % 2 ^ 16 = r.fldId := by omega
    have hx' : r.xxx % 2 ^ 16 = r.xxx := by omega
    rw [FldInfo.toI8, h1, h2, hf', hx']
    ring

/-- An unused record is above every used one. -/
lemma FldInfo.Ok.lt_zero (hn : nFld ≤ 32768) {r : FldInfo} (h : r.Ok nFld)
    (hused : r.mode ≠ .undefFldInfo) : r.toI8 < zeroFldInfoRec.toI8 := by
  have hr := h.toI8_of_used hn hused
  have hm := r.mode.toNat_lt
  obtain rfl | ⟨-, h1, hf, hx, h2⟩ := h
  · exact absurd rfl hused
  · rw [hr, zeroFldInfoRec_toI8]
    omega

lemma FldInfo.Ok.le_zero (hn : nFld ≤ 32768) {r : FldInfo} (h : r.Ok nFld) :
    r.Le zeroFldInfoRec := by
  by_cases hused : r.mode = .undefFldInfo
  · obtain rfl | hr := h
    · exact le_refl _
    · exact absurd hused hr.1
  · exact (h.lt_zero hn hused).le

lemma FldInfo.Ok.eq_zero {r : FldInfo} (h : r.Ok nFld) (hmode : r.mode = .undefFldInfo) :
    r = zeroFldInfoRec := by
  obtain h | h := h
  · exact h
  · exact absurd hmode h.1

/-- The integer a record is sorted by determines the record. -/
lemma FldInfo.Ok.eq_of_toI8_eq (hn : nFld ≤ 32768) {a b : FldInfo} (ha : a.Ok nFld)
    (hb : b.Ok nFld) (h : a.toI8 = b.toI8) : a = b := by
  by_cases hma : a.mode = .undefFldInfo
  · have hmb : b.mode = .undefFldInfo := by
      by_contra hmb
      have := hb.lt_zero hn hmb
      rw [ha.eq_zero hma] at h
      omega
    rw [ha.eq_zero hma, hb.eq_zero hmb]
  · have hmb : b.mode ≠ .undefFldInfo := by
      intro hmb
      have := ha.lt_zero hn hma
      rw [hb.eq_zero hmb] at h
      omega
    rw [ha.toI8_of_used hn hma, hb.toI8_of_used hn hmb] at h
    have h1 := a.mode.toNat_lt
    have h2 := b.mode.toNat_lt
    obtain rfl | ⟨-, ha1, haf, hax, ha2⟩ := ha
    · exact absurd rfl hma
    obtain rfl | ⟨-, hb1, hbf, hbx, hb2⟩ := hb
    · exact absurd rfl hmb
    have hx : a.xxx = b.xxx := by omega
    have hf : a.fldId = b.fldId := by omega
    have hm : a.mode = b.mode := FldInfoMode.toNat_injective (by omega)
    cases a
    cases b
    simp_all

/-- A used record refers to a slot. -/
lemma FldInfo.Ok.slot {r : FldInfo} (h : r.Ok nFld) (hused : r.mode ≠ .undefFldInfo) :
    0 ≤ r.xxx ∧ r.xxx < nFld := by
  obtain rfl | ⟨-, -, -, hx, -⟩ := h
  · exact absurd rfl hused
  · exact hx

/-! ### Sorting -/

lemma sortFldInfo_perm (info : List FldInfo) : (sortFldInfo info).Perm info :=
  List.perm_insertionSort _ info

lemma IndexOk.sortFldInfo (h : ∀ r ∈ info, r.Ok nFld) : IndexOk nFld (sortFldInfo info) :=
  ⟨List.pairwise_insertionSort _ info, fun r hr => h r ((sortFldInfo_perm info).mem_iff.mp hr)⟩

/-- Sorting gives the one sorted arrangement of the records. -/
lemma IndexOk.sortFldInfo_eq (hn : nFld ≤ 32768) (h : IndexOk nFld info')
    (hperm : info'.Perm info) : Datacl.sortFldInfo info = info' := by
  have hok : ∀ r ∈ info, r.Ok nFld := fun r hr => h.ok r (hperm.mem_iff.mpr hr)
  have hs : IndexOk nFld (Datacl.sortFldInfo info) := IndexOk.sortFldInfo hok
  have hp : (Datacl.sortFldInfo info).Perm info' := (sortFldInfo_perm info).trans hperm.symm
  refine hp.eq_of_pairwise ?_ hs.sorted h.sorted
  intro a b ha hb hab hba
  exact (hs.ok a ha).eq_of_toI8_eq hn (h.ok b hb) (le_antisymm hab hba)

lemma IndexOk.tail {r : FldInfo} (h : IndexOk nFld (r :: info)) : IndexOk nFld info :=
  ⟨h.sorted.of_cons, fun a ha => h.ok a (List.mem_cons_of_mem r ha)⟩

/-- Used records precede unused ones. -/
lemma IndexOk.used_first (hn : nFld ≤ 32768) (h : IndexOk nFld info) :
    info.Pairwise fun a b => b.mode ≠ .undefFldInfo → a.mode ≠ .undefFldInfo := by
  refine h.sorted.imp_of_mem ?_
  intro a b ha hb hab hused hmode
  have hlt := (h.ok b hb).lt_zero hn hused
  have hle : a.toI8 ≤ b.toI8 := hab
  rw [(h.ok a ha).eq_zero hmode] at hle
  omega

/-! ### Searching -/

lemma searchFldInfo_of_nonneg (mode : FldInfoMode) (fldId : Int) (info : List FldInfo)
    {outId : Int} (h : 0 ≤ outId) : searchFldInfo mode fldId info outId = outId := by
  cases info with
  | nil => rfl
  | cons r info => rw [searchFldInfo, if_pos h]

/-- One step of the search. -/
lemma IndexOk.getFldInfo_cons {r : FldInfo} (h : IndexOk nFld (r :: info)) (mode : FldInfoMode)
    (fldId : Int) : getFldInfo mode fldId (r :: info) =
      if r.mode = .undefFldInfo then -1
      else if r.mode = mode ∧ r.fldId = fldId then r.xxx
      else getFldInfo mode fldId info := by
  rw [getFldInfo, searchFldInfo, if_neg (by omega)]
  by_cases hr : r.mode = .undefFldInfo
  · rw [if_pos hr, if_pos hr]
  · rw [if_neg hr, if_neg hr]
    by_cases hm : r.mode = mode
    · rw [if_neg (not_not.mpr hm)]
      by_cases hf : r.fldId = fldId
      · have hx : 0 ≤ r.xxx := ((h.ok r List.mem_cons_self).slot hr).1
        rw [if_pos hf, if_pos ⟨hm, hf⟩, searchFldInfo_of_nonneg _ _ _ hx]
      · rw [if_neg hf, if_neg fun hmatch => hf hmatch.2]
        rfl
    · rw [if_pos hm, if_neg fun hmatch => hm hmatch.1]
      rfl

/-- Behind an unused record there are only unused ones. -/
lemma IndexOk.unused_of_cons (hn : nFld ≤ 32768) {r : FldInfo} (h : IndexOk nFld (r :: info))
    (hr : r.mode = .undefFldInfo) : ∀ a ∈ r :: info, a.mode = .undefFldInfo := by
  intro a ha
  by_contra hused
  rcases List.mem_cons.mp ha with rfl | ha
  · exact hused hr
  · exact (List.pairwise_cons.mp (h.used_first hn)).1 a ha hused hr

/-- The search finds a record of the field and the mode if the index has one. -/
lemma getFldInfo_spec (hn : nFld ≤ 32768) (h : IndexOk nFld info) {mode : FldInfoMode}
    (hmode : mode ≠ .undefFldInfo) (fldId : Int) :
    (0 ≤ getFldInfo mode fldId info ∧
      ∃ r ∈ info, r.mode = mode ∧ r.fldId = fldId ∧ r.xxx = getFldInfo mode fldId info) ∨
    (getFldInfo mode fldId info = -1 ∧ ∀ r ∈ info, r.mode = mode → r.fldId ≠ fldId) := by
  induction info with
  | nil => exact .inr ⟨rfl, by simp⟩
  | cons r info ih =>
    rw [h.getFldInfo_cons]
    by_cases hr : r.mode = .undefFldInfo
    · rw [if_pos hr]
      refine .inr ⟨rfl, fun a ha hma => ?_⟩
      exact absurd (hma.symm.trans (h.unused_of_cons hn hr a ha)) hmode
    · rw [if_neg hr]
      by_cases hmatch : r.mode = mode ∧ r.fldId = fldId
      · have hx : 0 ≤ r.xxx := ((h.ok r List.mem_cons_self).slot hr).1
        rw [if_pos hmatch]
        exact .inl ⟨hx, r, List.mem_cons_self, hmatch.1, hmatch.2, rfl⟩
      · rw [if_neg hmatch]
        rcases ih h.tail with ⟨h0, a, ha, hres⟩ | ⟨h0, hnone⟩
        · exact .inl ⟨h0, a, List.mem_cons_of_mem r ha, hres⟩
        · refine .inr ⟨h0, ?_⟩
          intro a ha hma hfa
          rcases List.mem_cons.mp ha with rfl | ha
          · exact hmatch ⟨hma, hfa⟩
          · exact hnone a ha hma hfa

lemma IndexOk.getFldInfo_lt (hn : nFld ≤ 32768) (h : IndexOk nFld info) {mode : FldInfoMode}
    (hmode : mode ≠ .undefFldInfo) {fldId : Int} (h0 : 0 ≤ getFldInfo mode fldId info) :
    getFldInfo mode fldId info < nFld := by
  rcases getFldInfo_spec hn h hmode fldId with ⟨-, r, hr, hm, -, hx⟩ | ⟨hneg, -⟩
  · rw [← hx]
    exact ((h.ok r hr).slot (hm ▸ hmode)).2
  · omega

/-- It finds the first one, which refers to the least slot. -/
lemma getFldInfo_le (hn : nFld ≤ 32768) (h : IndexOk nFld info) {r : FldInfo} (hr : r ∈ info)
    (hused : r.mode ≠ .undefFldInfo) : getFldInfo r.mode r.fldId info ≤ r.xxx := by
  induction info with
  | nil => cases hr
  | cons a info ih =>
    rw [h.getFldInfo_cons]
    by_cases ha : a.mode = .undefFldInfo
    · exact absurd (h.unused_of_cons hn ha r hr) hused
    · rw [if_neg ha]
      by_cases hmatch : a.mode = r.mode ∧ a.fldId = r.fldId
      · rw [if_pos hmatch]
        rcases List.mem_cons.mp hr with rfl | hr'
        · exact le_refl _
        · have hle : a.toI8 ≤ r.toI8 := (List.pairwise_cons.mp h.sorted).1 r hr'
          rw [(h.ok a List.mem_cons_self).toI8_of_used hn ha, (h.ok r hr).toI8_of_used hn hused,
            hmatch.1, hmatch.2] at hle
          omega
      · rw [if_neg hmatch]
        refine ih h.tail ?_
        rcases List.mem_cons.mp hr with rfl | hr'
        · exact absurd ⟨rfl, rfl⟩ hmatch
        · exact hr'

end Datacl
