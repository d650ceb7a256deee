import Datacl.Compound.CountHt
import Mathlib.Data.Finset.Card
import Mathlib.Data.List.Dedup

/-!
# The table of `count_ht`

A value is found again where it was put first. Every value has one slot, whose count is the number of
times the value was inserted, and one more for the value 0.
-/

namespace Datacl

/-! ### One probe -/

section Probe

variable {mix : BitVec 64 → BitVec 32} {ht : List HtI8Rec} {v : BitVec 64}

/-- The slots that are visited. -/
def countPath (n loc : Nat) : List Nat := List.range' loc (n - loc) ++ List.range loc

lemma mem_countPath {q n loc : Nat} (hq : q < n) : q ∈ countPath n loc := by
  rw [countPath, List.mem_append, List.mem_range'_1, List.mem_range]
  omega

lemma countProbe_eq_scan (mix : BitVec 64 → BitVec 32) (ht : List HtI8Rec) (v : BitVec 64) :
    countProbe mix ht v =
      Probing.scan (countStopAt v) ht (countPath ht.length ((mix v).toNat % ht.length)) :=
  (Probing.scan_append _).symm

lemma countStopAt_key (v : BitVec 64) (cnt : Nat) : countStopAt v ⟨v, cnt⟩ = some .keyExists := if_pos rfl

/-- A slot without a value stops every probe. -/
lemma countStopAt_free (v : BitVec 64) {rec : HtI8Rec} (hcnt : rec.cnt = 0) :
    ∃ stop, countStopAt v rec = some stop := by
  unfold countStopAt
  split_ifs
  · exact ⟨_, rfl⟩
  · exact ⟨_, rfl⟩

lemma countStopAt_keyExists {rec : HtI8Rec} (h : countStopAt v rec = some .keyExists) : rec.key = v := by
  rw [countStopAt] at h
  split_ifs at h with hkey hcnt
  · exact hkey
  · cases h

lemma countStopAt_unoccupied {rec : HtI8Rec} (h : countStopAt v rec = some .unoccupied) :
    rec.key ≠ v ∧ rec.cnt = 0 := by
  rw [countStopAt] at h
  split_ifs at h with hkey hcnt
  · cases h
  · exact ⟨hkey, hcnt⟩

lemma countProbe_stop {p : Nat} {stop : CountStop} (h : countProbe mix ht v = some (p, stop)) :
    ∃ rec, ht[p]? = some rec ∧ countStopAt v rec = some stop := by
  rw [countProbe_eq_scan] at h
  exact Probing.scan_eq_some h

lemma countProbe_ne_none {q : Nat} {rec : HtI8Rec} (hq : ht[q]? = some rec) (hcnt : rec.cnt = 0) :
    countProbe mix ht v ≠ none := by
  obtain ⟨stop, hstop⟩ := countStopAt_free v hcnt
  rw [countProbe_eq_scan]
  exact Probing.scan_ne_none (mem_countPath (List.getElem?_eq_some_iff.mp hq).1) hq hstop

/-- The slot where a probe ended gets the value. -/
lemma countProbe_set_self {p : Nat} {stop : CountStop} (h : countProbe mix ht v = some (p, stop))
    (cnt : Nat) : countProbe mix (ht.set p ⟨v, cnt⟩) v = some (p, .keyExists) := by
  rw [countProbe_eq_scan] at h
  rw [countProbe_eq_scan, List.length_set]
  exact Probing.scan_set_self h (countStopAt_key v cnt)

/-- Filling a free slot changes no probe that ended elsewhere. -/
lemma countProbe_set_free {p q : Nat} {rec rec' : HtI8Rec} {stop : CountStop}
    (h : countProbe mix ht v = some (p, stop)) (hq : ht[q]? = some rec) (hcnt : rec.cnt = 0)
    (hne : p ≠ q) : countProbe mix (ht.set q rec') v = some (p, stop) := by
  obtain ⟨stop', hstop'⟩ := countStopAt_free v hcnt
  rw [countProbe_eq_scan] at h
  rw [countProbe_eq_scan, List.length_set]
  exact Probing.scan_set_of_ne h hq hstop' hne

/-- Counting a value again changes no probe. -/
lemma countProbe_set_cnt {q : Nat} {rec : HtI8Rec} (hq : ht[q]? = some rec) (hcnt : rec.cnt ≠ 0)
    (cnt : Nat) : countProbe mix (ht.set q ⟨rec.key, cnt + 1⟩) v = countProbe mix ht v := by
  have hstop : countStopAt v ⟨rec.key, cnt + 1⟩ = countStopAt v rec := by
    unfold countStopAt
    rw [if_neg (show ¬ cnt + 1 = 0 by omega), if_neg hcnt]
  rw [countProbe_eq_scan, countProbe_eq_scan, List.length_set]
  exact Probing.scan_set_of_eq hq hstop

end Probe

/-! ### One value -/

/-- What is counted beyond the number of times that a value was inserted. -/
def extraCount (v : BitVec 64) : Nat := if v = 0 then 1 else 0

/-- The table after the given values have been inserted. -/
structure Grouped (mix : BitVec 64 → BitVec 32) (t : CountTbl) (vals : List (BitVec 64)) : Prop where
  free : ∀ rec ∈ t.ht, rec.cnt = 0 → rec.key = 0
  occupied : ∀ p rec, t.ht[p]? = some rec → rec.cnt ≠ 0 →
    rec.key ∈ vals ∧ rec.cnt = vals.count rec.key + extraCount rec.key ∧
      countProbe mix t.ht rec.key = some (p, .keyExists)
  stored : ∀ v ∈ vals, ∃ (p : Nat) (rec : HtI8Rec), t.ht[p]? = some rec ∧ rec.cnt ≠ 0 ∧ rec.key = v
  distinct : t.nHt = vals.toFinset.card
  maxCount : ∀ rec ∈ t.ht, rec.cnt ≤ max t.maxCount 1

lemma grouped_setup (mix : BitVec 64 → BitVec 32) (szHt : Nat) : Grouped mix (setupCountTbl szHt) [] where
  free rec hrec _ := by rw [List.eq_of_mem_replicate hrec]
  occupied p rec hrec hcnt := by
    rw [List.eq_of_mem_replicate (List.mem_of_getElem? hrec)] at hcnt
    exact absurd rfl hcnt
  stored v hv := absurd hv List.not_mem_nil
  distinct := rfl
  maxCount rec hrec := by
    rw [List.eq_of_mem_replicate hrec]
    exact Nat.zero_le _

section

variable {mix : BitVec 64 → BitVec 32} {t t' : CountTbl} {vals : List (BitVec 64)} {v : BitVec 64}
  {p : Nat} {rec : HtI8Rec}

lemma mem_set_cases {α : Type} {xs : List α} {q r : Nat} {a x : α} (h : (xs.set q a)[r]? = some x) :
    (r = q ∧ x = a) ∨ (r ≠ q ∧ xs[r]? = some x) := by
  rw [List.getElem?_set] at h
  split_ifs at h with heq hlt
  · exact .inl ⟨heq.symm, (Option.some.inj h).symm⟩
  · exact .inr ⟨fun hr => heq hr.symm, h⟩

/-- A value that is there has been found. -/
lemma Grouped.probe_of_mem (h : Grouped mix t vals) (hv : v ∈ vals) :
    ∃ (p : Nat) (rec : HtI8Rec), t.ht[p]? = some rec ∧ rec.cnt ≠ 0 ∧
      countProbe mix t.ht v = some (p, .keyExists) := by
  obtain ⟨p, rec, hp, hcnt, rfl⟩ := h.stored v hv
  exact ⟨p, rec, hp, hcnt, (h.occupied p rec hp hcnt).2.2⟩

/-- A new value goes into a free slot. -/
lemma Grouped.insert_new (h : Grouped mix t vals) (hnew : v ∉ vals) {stop : CountStop}
    (hprobe : countProbe mix t.ht v = some (p, stop)) (hp : t.ht[p]? = some rec) (hcnt : rec.cnt = 0)
    {maxCount : Nat} (hmax : max t.maxCount 1 ≤ max maxCount 1)
    (hle : 1 + extraCount v ≤ max maxCount 1) :
    Grouped mix ⟨t.ht.set p ⟨v, 1 + extraCount v⟩, t.nHt + 1, maxCount⟩ (vals ++ [v]) := by
  have hself := countProbe_set_self hprobe (1 + extraCount v)
  have hlt : p < t.ht.length := (List.getElem?_eq_some_iff.mp hp).1
  have hv0 : vals.count v = 0 := List.count_eq_zero.mpr hnew
  refine ⟨?_, ?_, ?_, ?_, ?_⟩
  · intro r hr hr0
    rcases List.mem_or_eq_of_mem_set hr with hr | rfl
    · exact h.free r hr hr0
    · dsimp only at hr0
      omega
  · intro q r hr hr0
    rcases mem_set_cases hr with ⟨rfl, rfl⟩ | ⟨hq, hr⟩
    · refine ⟨by simp, ?_, hself⟩
      dsimp only
      rw [List.count_append, hv0, List.count_singleton_self, Nat.zero_add]
    · obtain ⟨hmem, hcount, hprobe'⟩ := h.occupied q r hr hr0
      have hne : r.key ≠ v := fun heq => hnew (heq ▸ hmem)
      refine ⟨List.mem_append_left _ hmem, ?_, countProbe_set_free hprobe' hp hcnt hq⟩
      rw [hcount, List.count_append, List.count_singleton]
      simp [hne.symm]
  · intro w hw
    rcases List.mem_append.mp hw with hw | hw
    · obtain ⟨q, r, hr, hr0, hkey⟩ := h.stored w hw
      have hq : p ≠ q := by
        rintro rfl
        rw [hp] at hr
        cases hr
        exact hr0 hcnt
      refine ⟨q, r, ?_, hr0, hkey⟩
      rw [List.getElem?_set_ne hq]
      exact hr
    · refine ⟨p, _, List.getElem?_set_self hlt, ?_, (List.mem_singleton.mp hw).symm⟩
      dsimp only
      omega
  · show t.nHt + 1 = _
    rw [List.toFinset_append, h.distinct, Finset.union_comm]
    simp only [List.toFinset_cons, List.toFinset_nil, insert_empty_eq]
    rw [← Finset.insert_eq, Finset.card_insert_of_notMem (by simpa using hnew)]
  · intro r hr
    rcases List.mem_or_eq_of_mem_set hr with hr | rfl
    · exact (h.maxCount r hr).trans hmax
    · exact hle

/-- A value that is there is counted. -/
lemma Grouped.insert_again (h : Grouped mix t vals) (hp : t.ht[p]? = some rec) (hcnt : rec.cnt ≠ 0) :
    Grouped mix ⟨t.ht.set p ⟨rec.key, rec.cnt + 1⟩, t.nHt, max t.maxCount (rec.cnt + 1)⟩
      (vals ++ [rec.key]) := by
  have hlt : p < t.ht.length := (List.getElem?_eq_some_iff.mp hp).1
  obtain ⟨hmem, hcount, hprobe⟩ := h.occupied p rec hp hcnt
  refine ⟨?_, ?_, ?_, ?_, ?_⟩
  · intro r hr hr0
    rcases List.mem_or_eq_of_mem_set hr with hr | rfl
    · exact h.free r hr hr0
    · exact absurd hr0 (Nat.succ_ne_zero _)
  · intro q r hr hr0
    rcases mem_set_cases hr with ⟨rfl, rfl⟩ | ⟨hq, hr⟩
    · refine ⟨by simp, ?_, ?_⟩
      · dsimp only
        rw [List.count_append, List.count_singleton_self, hcount]
        omega
      · rw [countProbe_set_cnt hp hcnt]
        exact hprobe
    · obtain ⟨hmem', hcount', hprobe'⟩ := h.occupied q r hr hr0
      have hne : r.key ≠ rec.key := by
        intro heq
        rw [heq, hprobe] at hprobe'
        cases hprobe'
        exact hq rfl
      refine ⟨List.mem_append_left _ hmem', ?_, ?_⟩
      · rw [hcount', List.count_append, List.count_singleton]
        simp [hne.symm]
      · rw [countProbe_set_cnt hp hcnt]
        exact hprobe'
  · intro w hw
    have hw : w ∈ vals := by
      rcases List.mem_append.mp hw with hw | hw
      · exact hw
      · rwa [List.mem_singleton.mp hw]
    obtain ⟨q, r, hr, hr0, hkey⟩ := h.stored w hw
    by_cases hq : p = q
    · rw [← hq, hp] at hr
      cases hr
      exact ⟨p, _, List.getElem?_set_self hlt, Nat.succ_ne_zero _, hkey⟩
    · refine ⟨q, r, ?_, hr0, hkey⟩
      rw [List.getElem?_set_ne hq]
      exact hr
  · show t.nHt = _
    rw [h.distinct, List.toFinset_append, Finset.union_eq_left.mpr (by simpa using hmem)]
  · intro r hr
    rcases List.mem_or_eq_of_mem_set hr with hr | rfl
    · have hle := h.maxCount r hr
      show r.cnt ≤ max (max t.maxCount (rec.cnt + 1)) 1
      omega
    · show rec.cnt + 1 ≤ max (max t.maxCount (rec.cnt + 1)) 1
      omega

/-- What an insertion does: a new value takes a free slot, another one is counted. -/
lemma Grouped.insertVal (h : Grouped mix t vals) (hins : insertVal mix t v = some t') :
    Grouped mix t' (vals ++ [v]) ∧ t'.ht.length = t.ht.length := by
  unfold Datacl.insertVal at hins
  cases hprobe : countProbe mix t.ht v with
  | none =>
    rw [hprobe] at hins
    cases hins
  | some r =>
    obtain ⟨p, stop⟩ := r
    obtain ⟨rec, hp, hstop⟩ := countProbe_stop hprobe
    have hget : (t.ht.getD p ⟨0, 0⟩) = rec := by
      rw [List.getD_eq_getElem?_getD, hp, Option.getD_some]
    have hnew : rec.cnt = 0 → v ∉ vals := by
      intro hcnt hv
      obtain ⟨q, r, hq, hr, hprobe'⟩ := h.probe_of_mem hv
      rw [hprobe] at hprobe'
      cases hprobe'
      rw [hp] at hq
      cases hq
      exact hr hcnt
    rw [hprobe] at hins
    cases stop with
    | unoccupied =>
      obtain rfl := (Option.some.inj hins).symm
      obtain ⟨hkey, hcnt⟩ := countStopAt_unoccupied hstop
      have hv : extraCount v = 0 := by
        rw [extraCount, if_neg]
        rintro rfl
        exact hkey (h.free rec (List.mem_of_getElem? hp) hcnt)
      have hgrouped := h.insert_new (hnew hcnt) hprobe hp hcnt (le_refl (max t.maxCount 1)) (by omega)
      rw [hv] at hgrouped
      exact ⟨hgrouped, List.length_set ..⟩
    | keyExists =>
      dsimp only at hins
      rw [hget] at hins
      obtain rfl := countStopAt_keyExists hstop
      split_ifs at hins with hcnt
      · obtain rfl := (Option.some.inj hins).symm
        have hv : extraCount rec.key = 1 := by
          rw [extraCount, if_pos (h.free rec (List.mem_of_getElem? hp) hcnt)]
        have hgrouped := h.insert_new (hnew hcnt) hprobe hp hcnt
          (show max t.maxCount 1 ≤ max (max t.maxCount 2) 1 by omega) (by omega)
        rw [hv] at hgrouped
        exact ⟨hgrouped, List.length_set ..⟩
      · obtain rfl := (Option.some.inj hins).symm
        exact ⟨h.insert_again hp hcnt, List.length_set ..⟩

/-! ### The slots with a value -/

lemma mem_recs : rec ∈ t.recs ↔ rec ∈ t.ht ∧ rec.cnt ≠ 0 := by
  rw [CountTbl.recs, List.mem_filter, decide_eq_true_eq]

lemma Grouped.mem_keys (h : Grouped mix t vals) : v ∈ t.recs.map HtI8Rec.key ↔ v ∈ vals := by
  rw [List.mem_map]
  constructor
  · rintro ⟨rec, hrec, rfl⟩
    obtain ⟨hmem, hcnt⟩ := mem_recs.mp hrec
    obtain ⟨p, hp⟩ := List.mem_iff_getElem?.mp hmem
    exact (h.occupied p rec hp hcnt).1
  · intro hv
    obtain ⟨p, rec, hp, hcnt, hkey⟩ := h.stored v hv
    exact ⟨rec, mem_recs.mpr ⟨List.mem_of_getElem? hp, hcnt⟩, hkey⟩

/-- Every value has one slot. -/
lemma Grouped.nodup_keys (h : Grouped mix t vals) : (t.recs.map HtI8Rec.key).Nodup := by
  rw [List.Nodup, List.pairwise_map, CountTbl.recs, List.pairwise_filter, List.pairwise_iff_getElem]
  intro i j hi hj hlt hicnt hjcnt heq
  have hpi := h.occupied i _ (List.getElem?_eq_getElem hi) (by simpa using hicnt)
  have hpj := h.occupied j _ (List.getElem?_eq_getElem hj) (by simpa using hjcnt)
  have hsame := hpi.2.2
  rw [heq, hpj.2.2] at hsame
  cases hsame
  exact absurd hlt (lt_irrefl _)

lemma Grouped.length_recs (h : Grouped mix t vals) : t.recs.length = t.nHt := by
  have hset : (t.recs.map HtI8Rec.key).toFinset = vals.toFinset := by
    ext v
    rw [List.mem_toFinset, List.mem_toFinset, h.mem_keys]
  rw [h.distinct, ← hset, List.toFinset_card_of_nodup h.nodup_keys, List.length_map]

/-- There is space while the table is no more than half full. -/
lemma Grouped.insertVal_ne_none (h : Grouped mix t vals) (hpos : 0 < t.ht.length)
    (hroom : t.nHt ≤ t.ht.length / 2) (v : BitVec 64) : Datacl.insertVal mix t v ≠ none := by
  obtain ⟨rec, hrec, hcnt⟩ : ∃ rec ∈ t.ht, rec.cnt = 0 := by
    by_contra hall
    push Not at hall
    have hfull : t.recs = t.ht := List.filter_eq_self.mpr fun rec hrec => decide_eq_true (hall rec hrec)
    have hlen := h.length_recs
    rw [hfull] at hlen
    omega
  obtain ⟨q, hq⟩ := List.mem_iff_getElem?.mp hrec
  unfold Datacl.insertVal
  cases hprobe : countProbe mix t.ht v with
  | none => exact absurd hprobe (countProbe_ne_none hq hcnt)
  | some r =>
    obtain ⟨p, stop⟩ := r
    cases stop with
    | unoccupied => exact Option.some_ne_none _
    | keyExists =>
      dsimp only
      split_ifs
      · exact Option.some_ne_none _
      · exact Option.some_ne_none _

/-! ### The rows of a block -/

/-- All rows are inserted, or the last one that is makes the table more than half full. -/
lemma Grouped.insertRows_spec (h : Grouped mix t vals) (hpos : 0 < t.ht.length)
    (hroom : t.nHt ≤ t.ht.length / 2) (val : Nat → BitVec 64) (rows : List Nat) :
    (∃ t', insertRows mix val t rows = (rows, some t') ∧ Grouped mix t' (vals ++ rows.map val) ∧
        t'.ht.length = t.ht.length ∧ t'.nHt ≤ t.ht.length / 2) ∨
      ∃ pre i post, rows = pre ++ i :: post ∧ insertRows mix val t rows = (pre ++ [i], none) ∧
        (vals ++ pre.map val).toFinset.card ≤ t.ht.length / 2 ∧
        t.ht.length / 2 < (vals ++ (pre ++ [i]).map val).toFinset.card := by
  induction rows generalizing t vals with
  | nil =>
    left
    refine ⟨t, rfl, ?_, rfl, hroom⟩
    rw [List.map_nil, List.append_nil]
    exact h
  | cons j rows ih =>
    obtain ⟨t₁, hins⟩ := Option.ne_none_iff_exists'.mp (h.insertVal_ne_none hpos hroom (val j))
    obtain ⟨h₁, hlen⟩ := h.insertVal hins
    rw [insertRows, hins]
    dsimp only
    by_cases hfull : t₁.ht.length / 2 < t₁.nHt
    · right
      rw [if_pos hfull]
      refine ⟨[], j, rows, rfl, rfl, ?_, ?_⟩
      · rw [List.map_nil, List.append_nil, ← h.distinct]
        exact hroom
      · rw [← hlen]
        exact h₁.distinct ▸ hfull
    · rw [if_neg hfull]
      have happend : ∀ rs, vals ++ (j :: rs).map val = (vals ++ [val j]) ++ rs.map val := by
        intro rs
        rw [List.map_cons, List.append_assoc, List.singleton_append]
      rcases ih h₁ (hlen ▸ hpos) (not_lt.mp hfull) with
        ⟨t', hrun, hgrouped, hlen', hroom'⟩ | ⟨pre, i, post, hrows, hrun, hle, hlt⟩
      · left
        rw [hrun]
        refine ⟨t', rfl, ?_, hlen'.trans hlen, hlen ▸ hroom'⟩
        rw [happend]
        exact hgrouped
      · right
        rw [hrun]
        refine ⟨j :: pre, i, post, by rw [hrows]; rfl, rfl, ?_, ?_⟩
        · rw [happend, ← hlen]
          exact hle
        · rw [List.cons_append, happend, ← hlen]
          exact hlt

end

end Datacl
