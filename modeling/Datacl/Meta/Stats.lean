import Datacl.Meta.SetMeta

/-!
# The cached statistics of a field

The number of values that are not null is shared by the minimum, the maximum and the sum. It is
dropped whenever a statistic is unset and the maximum is then unset.
-/

namespace Datacl

/-- A call that sets or unsets a statistic. -/
inductive StatCall where
  | set (tblId fldId : Int) (stat : Stat) (value : List Char) (isInternal : Bool)
  | unset (tblId fldId : Int) (stat : Stat)

def StatCall.exec (env : Env) (stoF8 : List Char → Option Int) : StatCall → Cmd Store Unit
  | .set tblId fldId stat value isInternal =>
    intSetMeta env stoF8 tblId fldId (.stat stat) value isInternal
  | .unset tblId fldId stat => intUnsetMeta env tblId fldId (.stat stat)

/-- The statistics of a record that has been reset. -/
structure FldRec.FreshStats (r : FldRec) : Prop where
  numNn : r.numNn = -1
  unset : r.isMinNn = false ∧ r.isMaxNn = false ∧ r.isSumNn = false
  zero : r.minval = 0 ∧ r.maxval = 0 ∧ r.sumval = 0

def FldType.IsInteger (t : FldType) : Prop := t ∈ [FldType.I1, .I2, .I4, .I8]

instance (t : FldType) : Decidable t.IsInteger :=
  inferInstanceAs (Decidable (t ∈ [FldType.I1, .I2, .I4, .I8]))

/-- The statistics agree with each other. -/
structure FldRec.StatsCoherent (r : FldRec) : Prop where
  numNn : 0 ≤ r.numNn ↔ r.isMinNn = true ∨ r.isMaxNn = true ∨ r.isSumNn = true
  minMax : r.isMinNn = true → r.isMaxNn = true → r.minval ≤ r.maxval
  minval : r.isMinNn = false → r.minval = 0
  maxval : r.isMaxNn = false → r.maxval = 0
  sumval : r.isSumNn = false → r.sumval = 0

/-- Unsetting this statistic leaves the maximum set, or leaves no statistic set. -/
def FldRec.KeepsCount (r : FldRec) : Stat → Prop
  | .max => r.isMinNn = false ∧ r.isSumNn = false
  | .min => r.isMaxNn = true ∨ r.isSumNn = false
  | .sum => r.isMaxNn = true ∨ r.isMinNn = false

/-- The condition for a call, with regard to the field `f`. -/
def StatCall.KeepsCount (f : Nat) (s : Store) : StatCall → Prop
  | .set .. => True
  | .unset _ fldId stat => fldId = f → (s.fld f).KeepsCount stat

/-! ### What a call does -/

section

variable {env : Env} {stoF8 : List Char → Option Int} {s s' : Store}

lemma Store.setFld_setFld (s : Store) (i : Nat) (r r' : FldRec) :
    (s.setFld i r).setFld i r' = s.setFld i r' := by
  simp only [Store.setFld, List.set_set]

lemma chkStats_of_chkFldMeta {i : Nat} {nR : Int} (h : chkFldMeta env s i nR = true) :
    i < s.flds.length ∧ chkStats (s.fld i) = true := by
  simp only [chkFldMeta, Bool.and_eq_true, decide_eq_true_eq] at h
  exact ⟨h.1.1.1.1.1.1.1.1.1.1.1.1, h.1.2⟩

lemma chkAttr_eq_some {tblId fldId : Int} (hfld : 0 ≤ fldId)
    (h : chkAttr env tblId fldId s = (some (), s')) :
    s' = s ∧ fldId.toNat < s.flds.length ∧ chkStats (s.fld fldId.toNat) = true := by
  unfold chkAttr at h
  rw [Cmd.get_bind] at h
  obtain ⟨-, h⟩ := Cmd.require_bind_eq_some.mp h
  obtain ⟨hchk, rfl⟩ := Cmd.require_eq_some.mp h
  exact ⟨rfl, chkStats_of_chkFldMeta (hchk hfld)⟩

/-- A successful call writes the attribute to a slot, and the result passes the checks. -/
lemma intSetMeta_eq_some {tblId fldId : Int} {attr : Attr} {value : List Char} {isInternal : Bool}
    (hattr : attr ≠ .tbltype)
    (h : intSetMeta env stoF8 tblId fldId attr value isInternal s = (some (), s')) :
    ∃ i : Nat, fldId = i ∧ i < s'.flds.length ∧ chkStats (s'.fld i) = true ∧
      setAttr stoF8 tblId.toNat i attr value isInternal s = (some (), s') := by
  unfold intSetMeta at h
  obtain ⟨-, h⟩ := Cmd.require_bind_eq_some.mp h
  obtain ⟨-, h⟩ := Cmd.require_bind_eq_some.mp h
  obtain ⟨hfld, h⟩ := Cmd.require_bind_eq_some.mp h
  have hfld : 0 ≤ fldId := hfld.resolve_left hattr
  obtain ⟨_, s₁, hset, h⟩ := Cmd.bind_eq_some.mp h
  obtain ⟨rfl, hlt, hchk⟩ := chkAttr_eq_some hfld h
  exact ⟨fldId.toNat, (Int.toNat_of_nonneg hfld).symm, hlt, hchk, hset⟩

lemma intUnsetMeta_eq_some {tblId fldId : Int} {attr : Attr} (hattr : attr ≠ .tbltype)
    (h : intUnsetMeta env tblId fldId attr s = (some (), s')) :
    ∃ i : Nat, fldId = i ∧ i < s'.flds.length ∧ chkStats (s'.fld i) = true ∧
      unsetAttr tblId.toNat i attr s = (some (), s') := by
  unfold intUnsetMeta at h
  obtain ⟨-, h⟩ := Cmd.require_bind_eq_some.mp h
  obtain ⟨hfld, h⟩ := Cmd.require_bind_eq_some.mp h
  have hfld : 0 ≤ fldId := hfld.resolve_left hattr
  obtain ⟨_, s₁, hunset, h⟩ := Cmd.bind_eq_some.mp h
  obtain ⟨rfl, hlt, hchk⟩ := chkAttr_eq_some hfld h
  exact ⟨fldId.toNat, (Int.toNat_of_nonneg hfld).symm, hlt, hchk, hunset⟩

/-- Setting a statistic also sets the number of values. -/
lemma setMinMaxSum_eq_some {stat : Stat} {value : List Char} {i : Nat}
    (h : setMinMaxSum stoF8 stat value i s = (some (), s')) :
    ∃ numNn v, 0 ≤ numNn ∧ ∃ s₁, s₁ = s.setFld i { s.fld i with numNn := numNn } ∧
      s' = s₁.setFld i ((s₁.fld i).setStat v stat) := by
  unfold setMinMaxSum at h
  obtain ⟨strbuf, -, h⟩ := Cmd.ofOption_bind_eq_some.mp h
  obtain ⟨numNn, -, h⟩ := Cmd.ofOption_bind_eq_some.mp h
  obtain ⟨hnum, h⟩ := Cmd.require_bind_eq_some.mp h
  rw [Cmd.modify_bind] at h
  obtain ⟨strbuf', -, h⟩ := Cmd.ofOption_bind_eq_some.mp h
  rw [Cmd.get_bind] at h
  obtain ⟨v, -, h⟩ := Cmd.ofOption_bind_eq_some.mp h
  rw [Cmd.modify_bind, Cmd.get_bind] at h
  obtain ⟨-, h⟩ := Cmd.require_bind_eq_some.mp h
  obtain ⟨-, h⟩ := Cmd.require_bind_eq_some.mp h
  obtain ⟨-, rfl⟩ := Cmd.require_eq_some.mp h
  exact ⟨numNn, v, hnum, _, rfl, rfl⟩

lemma intSetMeta_stat_eq_some {tblId fldId : Int} {stat : Stat} {value : List Char}
    {isInternal : Bool}
    (h : intSetMeta env stoF8 tblId fldId (.stat stat) value isInternal s = (some (), s')) :
    ∃ i : Nat, fldId = i ∧ i < s.flds.length ∧ chkStats (s'.fld i) = true ∧
      ∃ numNn v, 0 ≤ numNn ∧
        s' = s.setFld i (({ s.fld i with numNn := numNn } : FldRec).setStat v stat) := by
  obtain ⟨i, rfl, hlt, hchk, hset⟩ := intSetMeta_eq_some (by simp) h
  obtain ⟨numNn, v, hnum, s₂, rfl, rfl⟩ := setMinMaxSum_eq_some hset
  rw [Store.length_setFld, Store.length_setFld] at hlt
  refine ⟨i, rfl, hlt, hchk, numNn, v, hnum, ?_⟩
  rw [Store.fld_setFld_of_lt hlt, Store.setFld_setFld]

/-- The record after a statistic has been unset. -/
def FldRec.dropStat (r : FldRec) (stat : Stat) : FldRec :=
  if (r.unsetStat stat).isMaxNn = true then r.unsetStat stat
  else { r.unsetStat stat with numNn := -1 }

lemma intUnsetMeta_stat_eq_some {tblId fldId : Int} {stat : Stat}
    (h : intUnsetMeta env tblId fldId (.stat stat) s = (some (), s')) :
    ∃ i : Nat, fldId = i ∧ i < s.flds.length ∧ chkStats (s'.fld i) = true ∧
      s' = s.setFld i ((s.fld i).dropStat stat) := by
  obtain ⟨i, rfl, hlt, hchk, hunset⟩ := intUnsetMeta_eq_some (by simp) h
  refine ⟨i, rfl, ?_⟩
  have hunset : unsetMinMaxSum stat i s = (some (), s') := hunset
  unfold unsetMinMaxSum at hunset
  rw [Cmd.modify_bind, Cmd.get_bind] at hunset
  rcases Cmd.when_eq_some.mp hunset with ⟨hmax, hdrop⟩ | ⟨hmax, rfl⟩
  · obtain rfl := Cmd.modify_eq_some.mp hdrop
    rw [Store.length_setFld, Store.length_setFld] at hlt
    refine ⟨hlt, hchk, ?_⟩
    rw [Store.fld_setFld_of_lt hlt] at hmax ⊢
    rw [Store.setFld_setFld, FldRec.dropStat, if_neg (by simp [hmax.1])]
  · rw [Store.length_setFld] at hlt
    refine ⟨hlt, hchk, ?_⟩
    rw [Store.fld_setFld_of_lt hlt] at hmax
    rw [FldRec.dropStat, if_pos (by simpa using hmax)]

/-! ### Coherence -/

/-- The checks leave only the number of values open. -/
lemma statsCoherent_iff {r : FldRec} (hint : r.fldtype.IsInteger) (h : chkStats r = true) :
    r.StatsCoherent ↔
      (0 ≤ r.numNn ↔ r.isMinNn = true ∨ r.isMaxNn = true ∨ r.isSumNn = true) := by
  refine ⟨fun hc => hc.numNn, fun hnum => ?_⟩
  simp only [chkStats, Bool.and_eq_true, Bool.or_eq_true, decide_eq_true_eq] at h
  obtain ⟨⟨⟨⟨-, hmin⟩, hmax⟩, hsum⟩, hle⟩ := h
  refine ⟨hnum, fun h1 h2 => ?_, fun h0 => ?_, fun h0 => ?_, fun h0 => ?_⟩
  · simp only [FldType.IsInteger, List.mem_cons, List.not_mem_nil, or_false] at hint
    rcases hint with ht | ht | ht | ht <;> simpa [h1, h2, ht] using hle
  · simpa [h0] using hmin
  · simpa [h0] using hmax
  · simpa [h0] using hsum

lemma FldRec.FreshStats.statsCoherent {r : FldRec} (h : r.FreshStats) : r.StatsCoherent := by
  obtain ⟨hmin, hmax, hsum⟩ := h.unset
  obtain ⟨hmin0, hmax0, hsum0⟩ := h.zero
  refine ⟨?_, fun h1 => ?_, fun _ => hmin0, fun _ => hmax0, fun _ => hsum0⟩
  · simp [h.numNn, hmin, hmax, hsum]
  · rw [hmin] at h1
    cases h1

lemma fldtype_setStat (r : FldRec) (v : Int) (stat : Stat) : (r.setStat v stat).fldtype = r.fldtype := by
  cases stat <;> rfl

lemma fldtype_dropStat (r : FldRec) (stat : Stat) : (r.dropStat stat).fldtype = r.fldtype := by
  unfold FldRec.dropStat
  split_ifs <;> cases stat <;> rfl

/-- A statistic that is set has a number of values. -/
lemma numNn_setStat (r : FldRec) (v : Int) (stat : Stat) (h : 0 ≤ r.numNn) :
    0 ≤ (r.setStat v stat).numNn ↔ (r.setStat v stat).isMinNn = true ∨
      (r.setStat v stat).isMaxNn = true ∨ (r.setStat v stat).isSumNn = true := by
  cases stat <;> simp [FldRec.setStat, h]

/-- The number of values is right after a statistic has been unset if and only if the maximum stays
set or nothing does. -/
lemma numNn_dropStat {r : FldRec} (h : r.StatsCoherent) (stat : Stat) :
    (0 ≤ (r.dropStat stat).numNn ↔ (r.dropStat stat).isMinNn = true ∨
      (r.dropStat stat).isMaxNn = true ∨ (r.dropStat stat).isSumNn = true) ↔
      r.KeepsCount stat := by
  have hnum := h.numNn
  cases stat with
  | sum =>
    cases hmax : r.isMaxNn <;> cases hmin : r.isMinNn <;>
      simp [FldRec.dropStat, FldRec.unsetStat, FldRec.KeepsCount, hmax, hmin, hnum]
  | min =>
    cases hmax : r.isMaxNn <;> cases hsum : r.isSumNn <;>
      simp [FldRec.dropStat, FldRec.unsetStat, FldRec.KeepsCount, hmax, hsum, hnum]
  | max =>
    cases hmin : r.isMinNn <;> cases hsum : r.isSumNn <;>
      simp [FldRec.dropStat, FldRec.unsetStat, FldRec.KeepsCount, hmin, hsum]

/-- One call leaves the statistics of an integer field coherent if and only if it keeps the
condition. -/
lemma statCall_step {f : Nat} {c : StatCall} (hint : (s.fld f).fldtype.IsInteger)
    (hcoh : (s.fld f).StatsCoherent) (h : c.exec env stoF8 s = (some (), s')) :
    (s'.fld f).fldtype.IsInteger ∧ ((s'.fld f).StatsCoherent ↔ c.KeepsCount f s) := by
  cases c with
  | set tblId fldId stat value isInternal =>
    obtain ⟨i, -, hi, hchk, numNn, v, hnum, rfl⟩ := intSetMeta_stat_eq_some h
    by_cases hif : f = i
    · subst hif
      rw [Store.fld_setFld_of_lt hi] at hchk ⊢
      have hint' : (({ s.fld f with numNn := numNn } : FldRec).setStat v stat).fldtype.IsInteger := by
        rw [fldtype_setStat]
        exact hint
      rw [statsCoherent_iff hint' hchk]
      exact ⟨hint', iff_of_true (numNn_setStat _ v stat hnum) trivial⟩
    · rw [Store.fld_setFld_of_ne hif]
      exact ⟨hint, iff_of_true hcoh trivial⟩
  | unset tblId fldId stat =>
    obtain ⟨i, rfl, hi, hchk, rfl⟩ := intUnsetMeta_stat_eq_some h
    by_cases hif : f = i
    · subst hif
      rw [Store.fld_setFld_of_lt hi] at hchk ⊢
      have hint' : ((s.fld f).dropStat stat).fldtype.IsInteger := by
        rw [fldtype_dropStat]
        exact hint
      rw [statsCoherent_iff hint' hchk, numNn_dropStat hcoh]
      exact ⟨hint', ⟨fun hk _ => hk, fun hk => hk rfl⟩⟩
    · rw [Store.fld_setFld_of_ne hif]
      refine ⟨hint, iff_of_true hcoh fun heq => ?_⟩
      exact absurd (Int.ofNat.inj heq).symm hif

/-- In a run of successful calls the statistics of an integer field that starts without any stay
coherent if and only if no call that unsets one leaves the maximum unset and another one set. -/
theorem statCalls_coherent_iff {f : Nat} {calls : List StatCall}
    (hint : (s.fld f).fldtype.IsInteger) (hfresh : (s.fld f).FreshStats)
    (hrun : Cmd.run (StatCall.exec env stoF8) s calls = some s') :
    (∀ pre s₁, pre <+: calls → Cmd.run (StatCall.exec env stoF8) s pre = some s₁ →
        (s₁.fld f).StatsCoherent) ↔
      ∀ pre c s₁, pre ++ [c] <+: calls → Cmd.run (StatCall.exec env stoF8) s pre = some s₁ →
        c.KeepsCount f s₁ :=
  Cmd.run_all_iff (fun s => (s.fld f).fldtype.IsInteger) (fun s => (s.fld f).StatsCoherent)
    (fun s c => c.KeepsCount f s) (fun _ _ _ hint hcoh h => statCall_step hint hcoh h) hint hfresh.statsCoherent hrun

end

/-- One table of one row with one field of four bytes. -/
def statsStore : Store where
  tbls := [⟨1, false, ['t'], .regular⟩]
  flds := [{ zeroFldRec with tblId := 0, ddirId := 0, filesz := 4, fldtype := .I4, name := ['f'], fileno := 1 }]
  info := [zeroFldInfoRec]
  nextFileno := 2
  disk := fun d n => if d = 0 ∧ n = 1 then some ⟨4, [7]⟩ else none

def statsEnv : Env := ⟨fun _ => 0, [true], fun _ => none⟩

/-- The minimum is unset while the maximum is set. -/
theorem statCalls_coherent_unset_min :
    ∃ s', Cmd.run (StatCall.exec statsEnv fun _ => none) statsStore
      [.set 0 0 .max ['7', ':', '1'] true, .set 0 0 .min ['7', ':', '1'] true, .unset 0 0 .min] =
        some s' ∧ (s'.fld 0).StatsCoherent := by
  have hsome : (Cmd.run (StatCall.exec statsEnv fun _ => none) statsStore
      [.set 0 0 .max ['7', ':', '1'] true, .set 0 0 .min ['7', ':', '1'] true,
        .unset 0 0 .min]).isSome = true := by
    decide +kernel
  have hmax : (Cmd.run (StatCall.exec statsEnv fun _ => none) statsStore
      [.set 0 0 .max ['7', ':', '1'] true, .set 0 0 .min ['7', ':', '1'] true]).map
        (fun s => (s.fld 0).isMaxNn) = some true := by
    decide +kernel
  obtain ⟨s', hrun⟩ := Option.isSome_iff_exists.mp hsome
  have hfresh : (statsStore.fld 0).FreshStats := ⟨rfl, ⟨rfl, rfl, rfl⟩, rfl, rfl, rfl⟩
  refine ⟨s', hrun, (statCalls_coherent_iff (by decide) hfresh hrun).mpr ?_ _ s' (List.prefix_refl _) hrun⟩
  intro pre c s₁ hpre h
  rcases pre with _ | ⟨x, _ | ⟨y, _ | ⟨z, pre⟩⟩⟩
  · obtain rfl := (List.cons_prefix_cons.mp hpre).1
    trivial
  · obtain ⟨-, hpre'⟩ := List.cons_prefix_cons.mp hpre
    obtain rfl := (List.cons_prefix_cons.mp hpre').1
    trivial
  · obtain ⟨rfl, hpre'⟩ := List.cons_prefix_cons.mp hpre
    obtain ⟨rfl, hlast⟩ := List.cons_prefix_cons.mp hpre'
    obtain rfl := (List.cons_prefix_cons.mp hlast).1
    rw [h] at hmax
    exact fun _ => .inl (Option.some.inj hmax)
  · simp at hpre

/-- Unsetting the sum, which is not set, drops the number of values of the minimum. -/
theorem statCalls_lose_count :
    (statsStore.fld 0).fldtype.IsInteger ∧ (statsStore.fld 0).FreshStats ∧
      ∃ s', Cmd.run (StatCall.exec statsEnv fun _ => none) statsStore
        [.set 0 0 .min ['7', ':', '1'] true, .unset 0 0 .sum] = some s' ∧
          ¬ (s'.fld 0).StatsCoherent := by
  refine ⟨by decide, ⟨rfl, ⟨rfl, rfl, rfl⟩, rfl, rfl, rfl⟩, ?_⟩
  have hend : (Cmd.run (StatCall.exec statsEnv fun _ => none) statsStore
      [.set 0 0 .min ['7', ':', '1'] true, .unset 0 0 .sum]).map
        (fun s => ((s.fld 0).isMinNn, (s.fld 0).numNn)) = some (true, -1) := by
    decide +kernel
  obtain ⟨s', hrun, hrec⟩ := Option.map_eq_some_iff.mp hend
  obtain ⟨hmin, hnum⟩ := Prod.mk.inj hrec
  refine ⟨s', hrun, fun hcoh => ?_⟩
  have hpos := hcoh.numNn.mpr (.inl hmin)
  rw [hnum] at hpos
  exact absurd hpos (by decide)

end Datacl
