import Datacl.Meta.FldInfoIndex

/-!
# Histories of the auxiliary-field index

What the index holds after any sequence of successful additions and deletions.
-/

namespace Datacl

/-- A call of one of the three mutators of the index. -/
inductive FldInfoOp where
  | add (fldId : Int) (mode : FldInfoMode) (auxId : Int)
  | del (fldId : Int)
  | del1 (fldId : Int) (mode : FldInfoMode)
  deriving DecidableEq, Repr

/-- The call. -/
def FldInfoOp.exec (nFld : Nat) : FldInfoOp → Cmd (List FldInfo) Unit
  | .add fldId mode auxId => addToFldInfo nFld fldId mode auxId
  | .del fldId => delFromFldInfo nFld fldId
  | .del1 fldId mode => delFromFldInfo1 nFld fldId mode

/-- The call deletes the records of this field and mode. -/
def FldInfoOp.Deletes (fldId : Int) (mode : FldInfoMode) : FldInfoOp → Prop
  | .add _ _ _ => False
  | .del f => f = fldId
  | .del1 f m => f = fldId ∧ m = mode

/-- The record was added and not deleted since. -/
def Kept (ops : List FldInfoOp) (fldId : Int) (mode : FldInfoMode) (auxId : Int) : Prop :=
  ∃ before after, ops = before ++ .add fldId mode auxId :: after ∧
    ∀ op ∈ after, ¬ op.Deletes fldId mode

variable {nFld : Nat} {info info' : List FldInfo}

lemma kept_nil (fldId : Int) (mode : FldInfoMode) (auxId : Int) : ¬ Kept [] fldId mode auxId := by
  rintro ⟨before, after, h, -⟩
  simp at h

lemma kept_append_singleton (ops : List FldInfoOp) (op : FldInfoOp) (fldId : Int)
    (mode : FldInfoMode) (auxId : Int) :
    Kept (ops ++ [op]) fldId mode auxId ↔
      op = .add fldId mode auxId ∨ (Kept ops fldId mode auxId ∧ ¬ op.Deletes fldId mode) := by
  constructor
  · rintro ⟨before, after, heq, hkeep⟩
    rcases List.eq_nil_or_concat after with rfl | ⟨after, last, rfl⟩
    · obtain ⟨-, hop⟩ := List.append_inj' heq rfl
      exact .inl (List.singleton_injective hop)
    · rw [List.concat_eq_append] at heq hkeep
      rw [← List.cons_append, ← List.append_assoc] at heq
      obtain ⟨hops, hop⟩ := List.append_inj' heq rfl
      rw [List.singleton_inj] at hop
      refine .inr ⟨⟨before, after, hops, ?_⟩, ?_⟩
      · intro op' hop'
        exact hkeep op' (by simp [hop'])
      · rw [hop]
        exact hkeep last (by simp)
  · rintro (rfl | ⟨⟨before, after, rfl, hkeep⟩, hop⟩)
    · exact ⟨ops, [], rfl, by simp⟩
    · refine ⟨before, after ++ [op], by simp, ?_⟩
      intro op' hop'
      rcases List.mem_append.mp hop' with h | h
      · exact hkeep op' h
      · rw [List.mem_singleton.mp h]
        exact hop

/-! ### One call -/

/-- A successful addition replaces an unused record and sorts. -/
lemma addToFldInfo_eq_some {fldId auxId : Int} {mode : FldInfoMode}
    (h : addToFldInfo nFld fldId mode auxId info = (some (), info')) :
    (0 ≤ fldId ∧ fldId < nFld) ∧ (0 ≤ auxId ∧ auxId < nFld) ∧ mode ≠ .undefFldInfo ∧
      ∃ before r after, info = before ++ r :: after ∧ r.mode = .undefFldInfo ∧
        info' = sortFldInfo (before ++
          { r with mode := mode, fldId := toShort fldId, xxx := toShort auxId } :: after) := by
  unfold addToFldInfo at h
  rw [Cmd.require_bind_eq_some, Cmd.get_bind] at h
  obtain ⟨hfld, h⟩ := h
  cases hidx : info.findIdx? (fun r => r.mode = .undefFldInfo) with
  | none =>
    rw [hidx] at h
    simp at h
  | some i =>
    rw [hidx] at h
    obtain ⟨hi, hfree, -⟩ := List.findIdx?_eq_some_iff_getElem.mp hidx
    simp only [Cmd.modify_bind] at h
    have hget : info.getD i zeroFldInfoRec = info[i] := by simp [hi]
    by_cases hbad : mode = .undefFldInfo ∨ auxId < 0 ∨ nFld ≤ auxId
    · simp [fillFldInfo, hbad] at h
    · simp only [fillFldInfo, if_neg hbad, Cmd.modify_apply, List.set_set] at h
      push Not at hbad
      refine ⟨hfld, hbad.2, hbad.1, info.take i, info[i], info.drop (i + 1), ?_, ?_, ?_⟩
      · simp
      · simpa using hfree
      · rw [hget, List.set_eq_take_append_cons_drop, if_pos hi] at h
        exact (Prod.ext_iff.mp h).2.symm

lemma delFromFldInfo1_eq_some {fldId : Int} {mode : FldInfoMode}
    (h : delFromFldInfo1 nFld fldId mode info = (some (), info')) :
    info' = zeroFldInfo (fun r => r.fldId = fldId ∧ r.mode = mode) info := by
  obtain ⟨-, h⟩ := Cmd.require_bind_eq_some.mp h
  obtain ⟨-, h⟩ := Cmd.require_bind_eq_some.mp h
  exact Cmd.modify_eq_some.mp h

lemma IndexOk.add (hn : nFld ≤ 32768) (h : IndexOk nFld info) {fldId auxId : Int}
    {mode : FldInfoMode} (hrun : addToFldInfo nFld fldId mode auxId info = (some (), info')) :
    IndexOk nFld info' ∧ ∀ r : FldInfo, r.mode ≠ .undefFldInfo →
      (r ∈ info' ↔ r ∈ info ∨ r = ⟨mode, 0, fldId, auxId, 0⟩) := by
  obtain ⟨hf, ha, hm, before, z, after, rfl, hz, rfl⟩ := addToFldInfo_eq_some hrun
  have hzero : z = zeroFldInfoRec := (h.ok z (by simp)).eq_zero hz
  have hnew : ({ z with mode := mode, fldId := toShort fldId, xxx := toShort auxId } : FldInfo) =
      ⟨mode, 0, fldId, auxId, 0⟩ := by
    rw [hzero, toShort_of_range hn hf.1 hf.2, toShort_of_range hn ha.1 ha.2]
    rfl
  rw [hnew]
  constructor
  · apply IndexOk.sortFldInfo
    intro r hr
    rcases List.mem_append.mp hr with hr | hr
    · exact h.ok r (by simp [hr])
    · rcases List.mem_cons.mp hr with rfl | hr
      · exact .inr ⟨hm, rfl, hf, ha, rfl⟩
      · exact h.ok r (by simp [hr])
  · intro r hr
    have hne : r ≠ z := by
      rintro rfl
      exact hr hz
    rw [(sortFldInfo_perm _).mem_iff]
    simp only [List.mem_append, List.mem_cons]
    tauto

lemma IndexOk.zeroFldInfo (h : IndexOk nFld info) (p : FldInfo → Bool) :
    IndexOk nFld (zeroFldInfo p info) ∧ ∀ r : FldInfo, r.mode ≠ .undefFldInfo →
      (r ∈ Datacl.zeroFldInfo p info ↔ r ∈ info ∧ p r = false) := by
  constructor
  · apply IndexOk.sortFldInfo
    intro r hr
    obtain ⟨a, ha, rfl⟩ := List.mem_map.mp hr
    by_cases hp : p a = true
    · rw [if_pos hp]
      exact .inl rfl
    · rw [if_neg hp]
      exact h.ok a ha
  · intro r hr
    unfold Datacl.zeroFldInfo
    rw [(sortFldInfo_perm _).mem_iff, List.mem_map]
    constructor
    · rintro ⟨a, ha, rfl⟩
      by_cases hp : p a = true
      · rw [if_pos hp] at hr
        exact absurd rfl hr
      · rw [if_neg hp]
        exact ⟨ha, by simpa using hp⟩
    · rintro ⟨hmem, hp⟩
      exact ⟨r, hmem, by simp [hp]⟩

/-! ### Whole histories -/

/-- The index is in order and its used records are those that were added and kept. -/
structure Represents (nFld : Nat) (ops : List FldInfoOp) (info : List FldInfo) : Prop where
  index : IndexOk nFld info
  kept : ∀ fldId mode auxId, (mode ≠ .undefFldInfo ∧ ⟨mode, 0, fldId, auxId, 0⟩ ∈ info) ↔
    Kept ops fldId mode auxId

lemma represents_nil (nFld nFldInfo : Nat) :
    Represents nFld [] (List.replicate nFldInfo zeroFldInfoRec) := by
  constructor
  · constructor
    · exact List.pairwise_replicate.mpr (.inr (le_refl zeroFldInfoRec.toI8))
    · intro r hr
      exact .inl (List.eq_of_mem_replicate hr)
  · intro fldId mode auxId
    constructor
    · rintro ⟨hm, hmem⟩
      have := List.eq_of_mem_replicate hmem
      exact absurd (congrArg FldInfo.mode this) hm
    · intro h
      exact absurd h (kept_nil _ _ _)

/-- One successful call keeps the index in step with the history. -/
lemma Represents.step (hn : nFld ≤ 32768) {ops : List FldInfoOp} (h : Represents nFld ops info)
    {op : FldInfoOp} (hrun : op.exec nFld info = (some (), info')) :
    Represents nFld (ops ++ [op]) info' := by
  cases op with
  | add fldId mode auxId =>
    have hmode := (addToFldInfo_eq_some hrun).2.2.1
    obtain ⟨hidx, hmem⟩ := h.index.add hn hrun
    refine ⟨hidx, fun f m a => ?_⟩
    rw [kept_append_singleton, ← h.kept]
    constructor
    · rintro ⟨hm, hr⟩
      rcases (hmem _ hm).mp hr with hr | hr
      · exact .inr ⟨⟨hm, hr⟩, fun h => h⟩
      · obtain ⟨rfl, -, rfl, rfl, -⟩ := FldInfo.mk.injEq .. ▸ hr
        exact .inl rfl
    · rintro (heq | ⟨⟨hm, hr⟩, -⟩)
      · obtain ⟨rfl, rfl, rfl⟩ := FldInfoOp.add.injEq .. ▸ heq
        exact ⟨hmode, (hmem _ hmode).mpr (.inr rfl)⟩
      · exact ⟨hm, (hmem _ hm).mpr (.inl hr)⟩
  | del fldId =>
    obtain ⟨-, hinfo⟩ := Cmd.require_bind_eq_some.mp hrun
    obtain rfl := Cmd.modify_eq_some.mp hinfo
    obtain ⟨hidx, hmem⟩ := h.index.zeroFldInfo fun r => r.fldId = fldId
    refine ⟨hidx, fun f m a => ?_⟩
    rw [kept_append_singleton, ← h.kept]
    constructor
    · rintro ⟨hm, hr⟩
      obtain ⟨hr, hp⟩ := (hmem _ hm).mp hr
      exact .inr ⟨⟨hm, hr⟩, fun hdel => of_decide_eq_false hp hdel.symm⟩
    · rintro (heq | ⟨⟨hm, hr⟩, hdel⟩)
      · cases heq
      · refine ⟨hm, (hmem _ hm).mpr ⟨hr, ?_⟩⟩
        exact decide_eq_false fun hf => hdel hf.symm
  | del1 fldId mode =>
    obtain rfl := delFromFldInfo1_eq_some hrun
    obtain ⟨hidx, hmem⟩ := h.index.zeroFldInfo fun r => r.fldId = fldId ∧ r.mode = mode
    refine ⟨hidx, fun f m a => ?_⟩
    rw [kept_append_singleton, ← h.kept]
    constructor
    · rintro ⟨hm, hr⟩
      obtain ⟨hr, hp⟩ := (hmem _ hm).mp hr
      refine .inr ⟨⟨hm, hr⟩, ?_⟩
      rintro ⟨hf, hmd⟩
      simp [hf, hmd] at hp
    · rintro (heq | ⟨⟨hm, hr⟩, hdel⟩)
      · cases heq
      · refine ⟨hm, (hmem _ hm).mpr ⟨hr, ?_⟩⟩
        exact decide_eq_false fun h => hdel ⟨h.1.symm, h.2.symm⟩

lemma represents_run (hn : nFld ≤ 32768) (nFldInfo : Nat) {ops : List FldInfoOp}
    (hrun : Cmd.run (FldInfoOp.exec nFld) (List.replicate nFldInfo zeroFldInfoRec) ops = some info) :
    Represents nFld ops info := by
  induction ops using List.reverseRecOn generalizing info with
  | nil =>
    obtain rfl := Option.some.inj hrun
    exact represents_nil nFld nFldInfo
  | append_singleton ops op ih =>
    rw [Cmd.run_append] at hrun
    obtain ⟨info₁, hrun₁, hlast⟩ := Option.bind_eq_some_iff.mp hrun
    exact (ih hrun₁).step hn (Cmd.run_singleton_eq_some.mp hlast)

/-- After any successful history the index is in ascending order with the used records first,
and a lookup answers exactly for what was added and kept. -/
theorem fldInfo_history (nFld : Nat) (hn : nFld ≤ 32768) (nFldInfo : Nat) (ops : List FldInfoOp)
    (info : List FldInfo)
    (hrun : Cmd.run (FldInfoOp.exec nFld) (List.replicate nFldInfo zeroFldInfoRec) ops =
      some info) :
    info.Pairwise (fun a b => a.toI8 ≤ b.toI8) ∧
      info.Pairwise (fun a b => b.mode ≠ .undefFldInfo → a.mode ≠ .undefFldInfo) ∧
      ∀ mode ≠ FldInfoMode.undefFldInfo, ∀ fldId,
        (0 ≤ getFldInfo mode fldId info ↔ ∃ auxId, Kept ops fldId mode auxId) ∧
        (0 ≤ getFldInfo mode fldId info →
          Kept ops fldId mode (getFldInfo mode fldId info)) := by
  have hrep := represents_run hn nFldInfo hrun
  refine ⟨hrep.index.sorted, hrep.index.used_first hn, ?_⟩
  intro mode hmode fldId
  have hfound : 0 ≤ getFldInfo mode fldId info →
      Kept ops fldId mode (getFldInfo mode fldId info) := by
    intro h0
    rcases getFldInfo_spec hn hrep.index hmode fldId with ⟨-, r, hr, hrm, hrf, hrx⟩ | ⟨h1, -⟩
    · have hrec : r = ⟨mode, 0, fldId, getFldInfo mode fldId info, 0⟩ := by
        obtain rfl | hok := hrep.index.ok r hr
        · exact absurd hrm.symm hmode
        · rw [← hrx]
          cases r
          simp_all
      exact (hrep.kept _ _ _).mp ⟨hmode, hrec ▸ hr⟩
    · omega
  refine ⟨⟨fun h0 => ⟨_, hfound h0⟩, ?_⟩, hfound⟩
  rintro ⟨auxId, hkept⟩
  obtain ⟨-, hmem⟩ := (hrep.kept _ _ _).mpr hkept
  rcases getFldInfo_spec hn hrep.index hmode fldId with ⟨h0, -⟩ | ⟨-, hnone⟩
  · exact h0
  · exact absurd rfl (hnone _ hmem rfl)

theorem fldInfo_history_two_kinds :
    Cmd.run (FldInfoOp.exec 8) (List.replicate 3 zeroFldInfoRec)
        [.add 5 .fkFldOff 2, .add 5 .fkFldLen 7, .add 1 .fkFldTxtLkp 4, .del 5, .add 5 .fkFldLen 6] =
      some [⟨.fkFldTxtLkp, 0, 1, 4, 0⟩, ⟨.fkFldLen, 0, 5, 6, 0⟩, zeroFldInfoRec] ∧
    Kept [.add 5 .fkFldOff 2, .add 5 .fkFldLen 7, .add 1 .fkFldTxtLkp 4, .del 5, .add 5 .fkFldLen 6]
      5 .fkFldLen 6 := by
  have hrun : Cmd.run (FldInfoOp.exec 8) (List.replicate 3 zeroFldInfoRec)
        [.add 5 .fkFldOff 2, .add 5 .fkFldLen 7, .add 1 .fkFldTxtLkp 4, .del 5, .add 5 .fkFldLen 6] =
      some [⟨.fkFldTxtLkp, 0, 1, 4, 0⟩, ⟨.fkFldLen, 0, 5, 6, 0⟩, zeroFldInfoRec] := by decide +kernel
  exact ⟨hrun, ((fldInfo_history 8 (by decide) 3 _ _ hrun).2.2 .fkFldLen (by decide) 5).2 (by decide)⟩

end Datacl
