import Datacl.Dict.MkDict
import Mathlib.Data.Finset.Card

/-!
# Dictionary keys name strings

A string is found again through the first seed under which it met no other string. Slots are
never emptied, so neither the seeds passed over nor the slot found change when strings are added.
-/

namespace Datacl

/-! ### One probe -/

section Probe

variable {H : Hashing} {ht : List HtRec} {ulhash : BitVec 64} {inval : CString}

lemma probe_eq_scan (H : Hashing) (ht : List HtRec) (ulhash : BitVec 64) (inval : CString) :
    probe H ht ulhash inval = Probing.scan (stopAt ulhash inval) ht
      (List.range' ((H.mix ulhash).toNat % ht.length)
          (ht.length - (H.mix ulhash).toNat % ht.length) ++
        List.range ((H.mix ulhash).toNat % ht.length)) :=
  (Probing.scan_append _).symm

/-- The two loops together visit every slot. -/
lemma mem_probePath {q loc n : Nat} (hq : q < n) :
    q ∈ List.range' loc (n - loc) ++ List.range loc := by
  rw [List.mem_append, List.mem_range'_1, List.mem_range]
  omega

lemma stopAt_free {rec : HtRec} (inval : CString) (hzero : ulhash ≠ 0) (hkey : rec.key = 0) (hcnt : rec.cnt = 0) :
    stopAt ulhash inval rec = some .unoccupied := by
  rw [stopAt, if_neg (by rw [hkey]; exact hzero.symm), if_pos hcnt]

lemma stopAt_new (ulhash : BitVec 64) (inval : CString) (cnt : Nat) :
    stopAt ulhash inval ⟨some inval, ulhash, cnt⟩ = some .keyExists := by
  rw [stopAt, if_pos rfl, if_pos rfl]

lemma stopAt_keyExists {rec : HtRec} (h : stopAt ulhash inval rec = some .keyExists) :
    rec.key = ulhash ∧ rec.strkey = some inval := by
  rw [stopAt] at h
  split_ifs at h with hkey hstr
  · exact ⟨hkey, hstr⟩
  · cases h
  · cases h

lemma stopAt_unoccupied {rec : HtRec} (h : stopAt ulhash inval rec = some .unoccupied) :
    rec.cnt = 0 := by
  rw [stopAt] at h
  split_ifs at h with hkey hstr hcnt
  · cases h
  · cases h
  · exact hcnt

lemma stopAt_pickNewHash {rec : HtRec} (h : stopAt ulhash inval rec = some .pickNewHash) :
    rec.key = ulhash ∧ rec.strkey ≠ some inval := by
  rw [stopAt] at h
  split_ifs at h with hkey hstr
  · cases h
  · exact ⟨hkey, hstr⟩
  · cases h

/-- Counting one more call at an occupied slot changes no probe. -/
lemma probe_set_cnt {q : Nat} {rec : HtRec} (hq : ht[q]? = some rec) (hcnt : rec.cnt ≠ 0) :
    probe H (ht.set q { rec with cnt := rec.cnt + 1 }) ulhash inval = probe H ht ulhash inval := by
  rw [probe_eq_scan, probe_eq_scan, List.length_set]
  apply Probing.scan_set_of_eq hq
  simp only [stopAt, hcnt, Nat.add_one_ne_zero]

/-- A free slot ends every probe, so none runs through the whole table. -/
lemma probe_ne_none {q : Nat} {rec : HtRec} (hq : ht[q]? = some rec) (hzero : ulhash ≠ 0)
    (hkey : rec.key = 0) (hcnt : rec.cnt = 0) : probe H ht ulhash inval ≠ none := by
  rw [probe_eq_scan]
  exact Probing.scan_ne_none (mem_probePath (List.getElem?_eq_some_iff.mp hq).1) hq
    (stopAt_free inval hzero hkey hcnt)

/-- Filling a free slot changes no probe that ended elsewhere. -/
lemma probe_set_free {p q : Nat} {rec rec' : HtRec} {stop : Stop}
    (h : probe H ht ulhash inval = some (p, stop)) (hq : ht[q]? = some rec) (hzero : ulhash ≠ 0)
    (hkey : rec.key = 0) (hcnt : rec.cnt = 0) (hstop : stop ≠ .unoccupied) :
    probe H (ht.set q rec') ulhash inval = some (p, stop) := by
  rw [probe_eq_scan] at h
  rw [probe_eq_scan, List.length_set]
  have hfree := stopAt_free inval hzero hkey hcnt
  refine Probing.scan_set_of_ne h hq hfree ?_
  rintro rfl
  obtain ⟨a, ha, hb⟩ := Probing.scan_eq_some h
  rw [hq] at ha
  cases ha
  exact hstop (Option.some.inj (hb.symm.trans hfree))

lemma probe_set_self {p : Nat} {stop : Stop} (cnt : Nat)
    (h : probe H ht ulhash inval = some (p, stop)) :
    probe H (ht.set p ⟨some inval, ulhash, cnt⟩) ulhash inval = some (p, .keyExists) := by
  rw [probe_eq_scan] at h
  rw [probe_eq_scan, List.length_set]
  exact Probing.scan_set_self h (stopAt_new ulhash inval cnt)

lemma probe_stop {p : Nat} {stop : Stop} (h : probe H ht ulhash inval = some (p, stop)) :
    ∃ rec, ht[p]? = some rec ∧ stopAt ulhash inval rec = some stop := by
  rw [probe_eq_scan] at h
  exact Probing.scan_eq_some h

end Probe

/-! ### The loop over the seeds -/

/-- No hash function of the family maps the string to 0. -/
def HashNonzero (H : Hashing) (s : CString) : Prop := ∀ t < numSeeds, H.hash t s ≠ 0

section Seeds

variable {H : Hashing} {ht : List HtRec} {inval : CString} {t p : Nat} {ulhash : BitVec 64}

lemma trySeed_eq_some_true :
    trySeed H ht inval t = some (p, true, ulhash) ↔
      ulhash = H.hash t inval ∧ probe H ht (H.hash t inval) inval = some (p, .keyExists) := by
  unfold trySeed
  generalize probe H ht (H.hash t inval) inval = r
  split <;> simp [eq_comm, and_comm]

lemma trySeed_eq_some_false :
    trySeed H ht inval t = some (p, false, ulhash) ↔
      ulhash = H.hash t inval ∧ probe H ht (H.hash t inval) inval = some (p, .unoccupied) := by
  unfold trySeed
  generalize probe H ht (H.hash t inval) inval = r
  split <;> simp [eq_comm, and_comm]

lemma trySeed_eq_none :
    trySeed H ht inval t = none ↔ probe H ht (H.hash t inval) inval = none ∨
      ∃ i, probe H ht (H.hash t inval) inval = some (i, .pickNewHash) := by
  unfold trySeed
  generalize probe H ht (H.hash t inval) inval = r
  split <;> simp

/-- The seeds before the chosen one and the chosen one. -/
lemma chooseSlot_eq_some {r : Nat × Bool × BitVec 64} :
    chooseSlot H ht inval = some r ↔
      ∃ t < numSeeds, trySeed H ht inval t = some r ∧
        ∀ u < t, trySeed H ht inval u = none := by
  rw [chooseSlot, List.findSome?_eq_some_iff]
  constructor
  · rintro ⟨l₁, t, l₂, hrange, hsome, hnone⟩
    have hlen : l₁.length < numSeeds := by
      have hsum := congrArg List.length hrange
      rw [List.length_range, List.length_append, List.length_cons] at hsum
      omega
    have hget : ∀ u, u < numSeeds → (l₁ ++ t :: l₂)[u]? = some u := by
      intro u hu
      rw [← hrange, List.getElem?_range hu]
    have ht : t = l₁.length := by
      have := hget l₁.length hlen
      rw [List.getElem?_append_right le_rfl, Nat.sub_self, List.getElem?_cons_zero] at this
      exact Option.some.inj this
    refine ⟨t, ht ▸ hlen, hsome, fun u hu => hnone u ?_⟩
    have := hget u (by omega)
    rw [List.getElem?_append_left (by omega)] at this
    exact List.mem_of_getElem? this
  · rintro ⟨t, ht, hsome, hnone⟩
    refine ⟨List.range t, t, List.range' (t + 1) (numSeeds - (t + 1)), ?_, hsome, ?_⟩
    · have hrest : t :: List.range' (t + 1) (numSeeds - (t + 1)) = List.range' t (numSeeds - t) := by
        rw [← List.range'_succ]
        congr 1
        omega
      have happ := List.range'_append_1 (s := 0) (m := t) (n := numSeeds - t)
      rw [Nat.zero_add, ← List.range_eq_range', ← List.range_eq_range'] at happ
      rw [hrest, happ, Nat.add_sub_cancel' (Nat.le_of_lt ht)]
    · intro u hu
      exact hnone u (List.mem_range.mp hu)

lemma chooseSlot_congr {ht' : List HtRec}
    (h : ∀ ulhash, probe H ht' ulhash inval = probe H ht ulhash inval) :
    chooseSlot H ht' inval = chooseSlot H ht inval := by
  rw [chooseSlot, chooseSlot]
  congr 1
  funext t
  unfold trySeed
  rw [h]

section Filling

variable {q : Nat} {rec : HtRec} (hq : ht[q]? = some rec) (hzero : HashNonzero H inval)
  (hkey : rec.key = 0) (hcnt : rec.cnt = 0)

include hq hzero hkey hcnt

/-- A seed that was passed over is passed over again once a free slot is filled. -/
lemma trySeed_set_free (rec' : HtRec) (ht' : t < numSeeds)
    (h : trySeed H ht inval t = none) : trySeed H (ht.set q rec') inval t = none := by
  obtain hnone | ⟨i, hi⟩ := trySeed_eq_none.mp h
  · exact absurd hnone (probe_ne_none hq (hzero t ht') hkey hcnt)
  · exact trySeed_eq_none.mpr
      (.inr ⟨i, probe_set_free hi hq (hzero t ht') hkey hcnt (by decide)⟩)

/-- A stored string keeps its slot and its key when a free slot is filled. -/
lemma chooseSlot_set_free (rec' : HtRec) (h : chooseSlot H ht inval = some (p, true, ulhash)) :
    chooseSlot H (ht.set q rec') inval = some (p, true, ulhash) := by
  obtain ⟨t, hlt, hsome, hnone⟩ := chooseSlot_eq_some.mp h
  obtain ⟨hulhash, hprobe⟩ := trySeed_eq_some_true.mp hsome
  refine chooseSlot_eq_some.mpr ⟨t, hlt, trySeed_eq_some_true.mpr ⟨hulhash, ?_⟩, fun u hu => ?_⟩
  · exact probe_set_free hprobe hq (hzero t hlt) hkey hcnt (by decide)
  · exact trySeed_set_free hq hzero hkey hcnt rec' (hu.trans hlt) (hnone u hu)

/-- A string put into the free slot it was given is found there. -/
lemma chooseSlot_set_self (cnt : Nat) (h : chooseSlot H ht inval = some (q, false, ulhash)) :
    chooseSlot H (ht.set q ⟨some inval, ulhash, cnt⟩) inval = some (q, true, ulhash) := by
  obtain ⟨t, hlt, hsome, hnone⟩ := chooseSlot_eq_some.mp h
  obtain ⟨hulhash, hprobe⟩ := trySeed_eq_some_false.mp hsome
  refine chooseSlot_eq_some.mpr ⟨t, hlt, trySeed_eq_some_true.mpr ⟨hulhash, ?_⟩, fun u hu => ?_⟩
  · rw [hulhash]
    exact probe_set_self cnt hprobe
  · exact trySeed_set_free hq hzero hkey hcnt _ (hu.trans hlt) (hnone u hu)

end Filling

end Seeds

/-! ### One call -/

/-- What a call that returns 0 can have done. -/
lemma addToDict_cases {H : Hashing} {d d' : Dict} {s : CString} {key : BitVec 64}
    (h : addToDict H d s = (d', some key)) :
    ∃ p rec, d.ht[p]? = some rec ∧ d'.nHt ≤ d'.ht.length / 2 ∧
      ((chooseSlot H d.ht s = some (p, true, key) ∧ rec.key = key ∧
          (rec.cnt = 0 ∨ d' = ⟨d.ht.set p { rec with cnt := rec.cnt + 1 }, d.nHt⟩)) ∨
        (chooseSlot H d.ht s = some (p, false, key) ∧
          d' = ⟨d.ht.set p ⟨some s, key, 1⟩, d.nHt + 1⟩)) := by
  have hclose : ∀ {ht nHt ulhash}, closeAdd d ht nHt ulhash = (d', some key) →
      d' = ⟨ht, nHt⟩ ∧ ulhash = key ∧ nHt ≤ ht.length / 2 := by
    intro ht nHt ulhash hc
    rw [closeAdd] at hc
    split_ifs at hc with hfull
    · cases hc
    · cases hc
      exact ⟨rfl, rfl, not_lt.mp hfull⟩
  rw [addToDict] at h
  cases hslot : chooseSlot H d.ht s with
  | none =>
    rw [hslot] at h
    cases h
  | some r =>
    obtain ⟨p, keyExists, ulhash⟩ := r
    rw [hslot] at h
    dsimp only at h
    cases hrec : d.ht[p]? with
    | none =>
      rw [hrec] at h
      cases h
    | some rec =>
      rw [hrec] at h
      dsimp only at h
      refine ⟨p, rec, hrec, ?_⟩
      cases keyExists with
      | false =>
        rw [if_neg (by decide)] at h
        obtain ⟨rfl, rfl, hroom⟩ := hclose h
        exact ⟨hroom, .inr ⟨rfl, rfl⟩⟩
      | true =>
        rw [if_pos rfl] at h
        split_ifs at h with hbad hcnt
        · cases h
        · obtain ⟨rfl, rfl, hroom⟩ := hclose h
          exact ⟨hroom, .inl ⟨rfl, by tauto, .inl hcnt⟩⟩
        · obtain ⟨rfl, rfl, hroom⟩ := hclose h
          exact ⟨hroom, .inl ⟨rfl, by tauto, .inr rfl⟩⟩

/-- The table after the given strings have been added, in this order. -/
structure Names (H : Hashing) (d : Dict) (adds : List CString) : Prop where
  free : ∀ rec ∈ d.ht, rec.cnt = 0 → rec.key = 0
  occupied : ∀ p rec, d.ht[p]? = some rec → rec.cnt ≠ 0 →
    ∃ s, rec.strkey = some s ∧ rec.cnt = adds.count s ∧
      chooseSlot H d.ht s = some (p, true, rec.key)
  stored : ∀ s ∈ adds, ∃ p key, chooseSlot H d.ht s = some (p, true, key)
  distinct : d.nHt = adds.toFinset.card
  room : d.nHt ≤ d.ht.length / 2

/-- The slot a string is found in holds the string. -/
lemma slot_of_chooseSlot {H : Hashing} {ht : List HtRec} {s : CString} {p : Nat}
    {key : BitVec 64} (h : chooseSlot H ht s = some (p, true, key)) :
    ∃ rec, ht[p]? = some rec ∧ rec.key = key ∧ rec.strkey = some s := by
  obtain ⟨t, -, hsome, -⟩ := chooseSlot_eq_some.mp h
  obtain ⟨rfl, hprobe⟩ := trySeed_eq_some_true.mp hsome
  obtain ⟨rec, hrec, hstop⟩ := probe_stop hprobe
  exact ⟨rec, hrec, stopAt_keyExists hstop⟩

/-- The slot a new string is given is free. -/
lemma free_of_chooseSlot {H : Hashing} {ht : List HtRec} {s : CString} {p : Nat}
    {key : BitVec 64} (h : chooseSlot H ht s = some (p, false, key)) :
    ∃ rec, ht[p]? = some rec ∧ rec.cnt = 0 := by
  obtain ⟨t, -, hsome, -⟩ := chooseSlot_eq_some.mp h
  obtain ⟨rfl, hprobe⟩ := trySeed_eq_some_false.mp hsome
  obtain ⟨rec, hrec, hstop⟩ := probe_stop hprobe
  exact ⟨rec, hrec, stopAt_unoccupied hstop⟩

/-- A string that is found has been counted. -/
lemma Names.cnt_ne_zero {H : Hashing} {d : Dict} {adds : List CString} {s : CString} {p : Nat}
    {key : BitVec 64} {rec : HtRec} (hd : Names H d adds) (hs : HashNonzero H s)
    (h : chooseSlot H d.ht s = some (p, true, key)) (hrec : d.ht[p]? = some rec) :
    rec.cnt ≠ 0 := by
  intro hzero
  obtain ⟨t, ht, hsome, -⟩ := chooseSlot_eq_some.mp h
  obtain ⟨rec', hrec', hkey, -⟩ := slot_of_chooseSlot h
  obtain rfl : rec' = rec := Option.some.inj (hrec'.symm.trans hrec)
  apply hs t ht
  rw [← (trySeed_eq_some_true.mp hsome).1, ← hkey]
  exact hd.free rec' (List.mem_of_getElem? hrec) hzero

lemma names_setup (H : Hashing) (szHt : Nat) : Names H (setupHtDict szHt) [] where
  free rec hrec _ := by rw [List.eq_of_mem_replicate hrec]
  occupied p rec hrec hcnt := by
    rw [List.eq_of_mem_replicate (List.mem_of_getElem? hrec)] at hcnt
    exact absurd rfl hcnt
  stored s hs := absurd hs List.not_mem_nil
  distinct := rfl
  room := Nat.zero_le _

section Step

variable {H : Hashing} {d : Dict} {adds : List CString} {s : CString} {key : BitVec 64} {p : Nat}
  {rec : HtRec}

/-- A slot other than that of the string added holds another string. -/
lemma ne_of_chooseSlot_ne {ht : List HtRec} {a : CString} {q : Nat} {k : BitVec 64}
    (hs : chooseSlot H ht s = some (p, true, key)) (ha : chooseSlot H ht a = some (q, true, k))
    (hne : p ≠ q) : a ≠ s := by
  rintro rfl
  rw [hs] at ha
  cases ha
  exact hne rfl

lemma count_snoc_of_ne {a : CString} (h : a ≠ s) : (adds ++ [s]).count a = adds.count a := by
  rw [List.count_append, List.count_singleton, beq_eq_false_iff_ne.mpr h.symm]
  rfl

/-- A string that is in the table: only its count changes. -/
lemma Names.count (hd : Names H d adds) (hrec : d.ht[p]? = some rec) (hcnt : rec.cnt ≠ 0)
    (hslot : chooseSlot H d.ht s = some (p, true, rec.key)) :
    Names H ⟨d.ht.set p { rec with cnt := rec.cnt + 1 }, d.nHt⟩ (adds ++ [s]) := by
  have hsame : ∀ a, chooseSlot H (d.ht.set p { rec with cnt := rec.cnt + 1 }) a =
      chooseSlot H d.ht a := fun a => chooseSlot_congr fun _ => probe_set_cnt hrec hcnt
  obtain ⟨s', hstr, hcount, -⟩ := hd.occupied p rec hrec hcnt
  obtain ⟨rec', hrec', -, hstr'⟩ := slot_of_chooseSlot hslot
  obtain rfl : rec' = rec := Option.some.inj (hrec'.symm.trans hrec)
  obtain rfl : s' = s := Option.some.inj (hstr.symm.trans hstr')
  have hmem : s' ∈ adds := by
    rw [← List.count_pos_iff, ← hcount]
    exact Nat.pos_of_ne_zero hcnt
  refine ⟨?_, ?_, ?_, ?_, ?_⟩
  · intro r hr hzero
    rcases List.mem_or_eq_of_mem_set hr with hr | rfl
    · exact hd.free r hr hzero
    · exact absurd hzero (Nat.succ_ne_zero _)
  · intro q r hr hne
    simp only [hsame]
    by_cases hq : p = q
    · subst hq
      rw [List.getElem?_set_self (List.getElem?_eq_some_iff.mp hrec).1] at hr
      cases hr
      refine ⟨s', hstr, ?_, hslot⟩
      rw [List.count_append, List.count_singleton_self, hcount]
    · rw [List.getElem?_set_ne hq] at hr
      obtain ⟨a, hstra, hcounta, hslota⟩ := hd.occupied q r hr hne
      exact ⟨a, hstra, by rw [count_snoc_of_ne (ne_of_chooseSlot_ne hslot hslota hq), hcounta],
        hslota⟩
  · intro a ha
    rw [hsame]
    rcases List.mem_append.mp ha with ha | ha
    · exact hd.stored a ha
    · rw [List.mem_singleton.mp ha]
      exact ⟨p, rec'.key, hslot⟩
  · have hset : (adds ++ [s']).toFinset = adds.toFinset := by
      rw [List.toFinset_append, List.toFinset_cons, List.toFinset_nil, insert_empty_eq,
        Finset.union_singleton, Finset.insert_eq_of_mem (List.mem_toFinset.mpr hmem)]
    rw [hset]
    exact hd.distinct
  · rw [List.length_set]
    exact hd.room

/-- A new string: a free slot is filled. -/
lemma Names.fill (hd : Names H d adds) (hadds : ∀ a ∈ adds, HashNonzero H a)
    (hs : HashNonzero H s) (hslot : chooseSlot H d.ht s = some (p, false, key))
    (hroom : d.nHt + 1 ≤ d.ht.length / 2) :
    Names H ⟨d.ht.set p ⟨some s, key, 1⟩, d.nHt + 1⟩ (adds ++ [s]) := by
  obtain ⟨rec, hrec, hcnt⟩ := free_of_chooseSlot hslot
  have hkey := hd.free rec (List.mem_of_getElem? hrec) hcnt
  have hself := chooseSlot_set_self hrec hs hkey hcnt 1 hslot
  have hnew : s ∉ adds := by
    intro hmem
    obtain ⟨q, k, hk⟩ := hd.stored s hmem
    rw [hslot] at hk
    cases hk
  have hold : ∀ a ∈ adds, ∀ q k, chooseSlot H d.ht a = some (q, true, k) →
      chooseSlot H (d.ht.set p ⟨some s, key, 1⟩) a = some (q, true, k) :=
    fun a ha q k hk => chooseSlot_set_free hrec (hadds a ha) hkey hcnt _ hk
  refine ⟨?_, ?_, ?_, ?_, ?_⟩
  · intro r hr hzero
    rcases List.mem_or_eq_of_mem_set hr with hr | rfl
    · exact hd.free r hr hzero
    · cases hzero
  · intro q r hr hne
    by_cases hq : p = q
    · subst hq
      rw [List.getElem?_set_self (List.getElem?_eq_some_iff.mp hrec).1] at hr
      cases hr
      refine ⟨s, rfl, ?_, hself⟩
      rw [List.count_append, List.count_singleton_self, List.count_eq_zero.mpr hnew]
    · rw [List.getElem?_set_ne hq] at hr
      obtain ⟨a, hstra, hcounta, hslota⟩ := hd.occupied q r hr hne
      have hmem : a ∈ adds := by
        rw [← List.count_pos_iff, ← hcounta]
        exact Nat.pos_of_ne_zero hne
      have hne' : a ≠ s := fun heq => hnew (heq ▸ hmem)
      exact ⟨a, hstra, by rw [count_snoc_of_ne hne', hcounta], hold a hmem q _ hslota⟩
  · intro a ha
    rcases List.mem_append.mp ha with ha | ha
    · obtain ⟨q, k, hk⟩ := hd.stored a ha
      exact ⟨q, k, hold a ha q k hk⟩
    · rw [List.mem_singleton.mp ha]
      exact ⟨p, key, hself⟩
  · rw [List.toFinset_append, List.toFinset_cons, List.toFinset_nil, insert_empty_eq,
      Finset.union_singleton, Finset.card_insert_of_notMem (by rwa [List.mem_toFinset]),
      hd.distinct]
  · rwa [List.length_set]

/-- A call that returns 0 keeps the naming: its string is found under the key returned, and every
string found before keeps its slot and its key. -/
lemma Names.call {d' : Dict} (hd : Names H d adds) (hadds : ∀ a ∈ adds, HashNonzero H a)
    (hs : HashNonzero H s) (h : addToDict H d s = (d', some key)) :
    Names H d' (adds ++ [s]) ∧ (∃ p, chooseSlot H d'.ht s = some (p, true, key)) ∧
      ∀ a ∈ adds, ∀ p k, chooseSlot H d.ht a = some (p, true, k) →
        chooseSlot H d'.ht a = some (p, true, k) := by
  obtain ⟨p, rec, hrec, hroom, ⟨hslot, rfl, hd'⟩ | ⟨hslot, rfl⟩⟩ := addToDict_cases h
  · have hcnt := hd.cnt_ne_zero hs hslot hrec
    obtain rfl := hd'.resolve_left hcnt
    have hsame : ∀ a, chooseSlot H (d.ht.set p { rec with cnt := rec.cnt + 1 }) a =
        chooseSlot H d.ht a := fun a => chooseSlot_congr fun _ => probe_set_cnt hrec hcnt
    exact ⟨hd.count hrec hcnt hslot, ⟨p, by rw [hsame, hslot]⟩,
      fun a _ q k ha => by rw [hsame, ha]⟩
  · obtain ⟨rec', hrec', hcnt⟩ := free_of_chooseSlot hslot
    have hkey := hd.free rec' (List.mem_of_getElem? hrec') hcnt
    rw [List.length_set] at hroom
    exact ⟨hd.fill hadds hs hslot hroom, ⟨p, chooseSlot_set_self hrec' hs hkey hcnt 1 hslot⟩,
      fun a ha q k hk => chooseSlot_set_free hrec' (hadds a ha) hkey hcnt _ hk⟩

end Step

/-! ### A run of calls -/

/-- At the end of a run every string is found under the key its calls returned. -/
lemma Names.run {H : Hashing} {d d' : Dict} {adds ss : List CString}
    {keys : List (BitVec 64)} (hd : Names H d adds)
    (hnz : ∀ a ∈ adds ++ ss, HashNonzero H a) (h : addAll H d ss = some (d', keys)) :
    Names H d' (adds ++ ss) ∧
      (∀ a ∈ adds, ∀ p k, chooseSlot H d.ht a = some (p, true, k) →
        chooseSlot H d'.ht a = some (p, true, k)) ∧
      List.Forall₂ (fun s key => ∃ p, chooseSlot H d'.ht s = some (p, true, key)) ss keys := by
  induction ss generalizing d adds keys with
  | nil =>
    rw [addAll] at h
    cases h
    rw [List.append_nil]
    exact ⟨hd, fun a _ p k hk => hk, List.Forall₂.nil⟩
  | cons s ss ih =>
    rw [addAll] at h
    cases hcall : addToDict H d s with
    | mk d₁ outval =>
      cases outval with
      | none =>
        rw [hcall] at h
        cases h
      | some key =>
        rw [hcall] at h
        obtain ⟨⟨d₂, keys₂⟩, hrest, heq⟩ := Option.map_eq_some_iff.mp h
        cases heq
        obtain ⟨hd₁, ⟨p, hp⟩, hkeep⟩ := hd.call
          (fun a ha => hnz a (List.mem_append_left _ ha)) (hnz s (by simp)) hcall
        have happ : adds ++ s :: ss = (adds ++ [s]) ++ ss := by
          rw [List.append_assoc, List.singleton_append]
        obtain ⟨hd₂, hkeep₂, hall⟩ := ih hd₁ (happ ▸ hnz) hrest
        refine ⟨happ ▸ hd₂, fun a ha q k hk => ?_, List.Forall₂.cons ?_ hall⟩
        · exact hkeep₂ a (List.mem_append_left _ ha) q k (hkeep a ha q k hk)
        · exact ⟨p, hkeep₂ s (by simp) p key hp⟩

lemma isSome_stopAt (ulhash : BitVec 64) (s s' : CString) (rec : HtRec) :
    (stopAt ulhash s rec).isSome = (stopAt ulhash s' rec).isSome := by
  unfold stopAt
  by_cases hkey : rec.key = ulhash
  · simp only [if_pos hkey]
    split_ifs <;> rfl
  · simp only [if_neg hkey]

/-- Two strings found under one key are found in one slot, so they are the same. -/
lemma eq_of_chooseSlot {H : Hashing} {ht : List HtRec} {s s' : CString} {p p' : Nat}
    {key : BitVec 64} (h : chooseSlot H ht s = some (p, true, key))
    (h' : chooseSlot H ht s' = some (p', true, key)) : s = s' := by
  obtain ⟨t, -, hsome, -⟩ := chooseSlot_eq_some.mp h
  obtain ⟨t', -, hsome', -⟩ := chooseSlot_eq_some.mp h'
  obtain ⟨hkey, hprobe⟩ := trySeed_eq_some_true.mp hsome
  obtain ⟨hkey', hprobe'⟩ := trySeed_eq_some_true.mp hsome'
  rw [← hkey, probe_eq_scan] at hprobe
  rw [← hkey', probe_eq_scan] at hprobe'
  have hpos := Probing.map_fst_scan ht
    (List.range' ((H.mix key).toNat % ht.length)
      (ht.length - (H.mix key).toNat % ht.length) ++
      List.range ((H.mix key).toNat % ht.length)) (isSome_stopAt key s s')
  rw [hprobe, hprobe'] at hpos
  obtain rfl : p = p' := Option.some.inj hpos
  obtain ⟨rec, hrec, -, hstr⟩ := slot_of_chooseSlot h
  obtain ⟨rec', hrec', -, hstr'⟩ := slot_of_chooseSlot h'
  obtain rfl : rec = rec' := Option.some.inj (hrec.symm.trans hrec')
  exact Option.some.inj (hstr.symm.trans hstr')

/-- In a run of calls that all return 0, equal keys are returned for equal strings and for no
others, each string stays stored under its key, and the counts are those of the run. -/
theorem keys_name_strings (H : Hashing) (szHt : Nat) (ss : List CString) (d : Dict)
    (keys : List (BitVec 64)) (hnz : ∀ s ∈ ss, HashNonzero H s)
    (hrun : addAll H (setupHtDict szHt) ss = some (d, keys)) :
    keys.length = ss.length ∧
    (∀ (i j : Nat) s s' k k', ss[i]? = some s → ss[j]? = some s' → keys[i]? = some k →
      keys[j]? = some k' → (k = k' ↔ s = s')) ∧
    (∀ (i : Nat) s k, ss[i]? = some s → keys[i]? = some k →
      ∃ rec ∈ d.ht, rec.strkey = some s ∧ rec.key = k ∧ rec.cnt = ss.count s) ∧
    d.nHt = ss.toFinset.card ∧
    ∀ rec ∈ d.ht, rec.cnt ≠ 0 → ∃ s, rec.strkey = some s ∧ rec.cnt = ss.count s := by
  obtain ⟨hnames, -, hkeys⟩ := (names_setup H szHt).run (by rwa [List.nil_append]) hrun
  rw [List.nil_append] at hnames
  have hfound : ∀ (i : Nat) s k, ss[i]? = some s → keys[i]? = some k →
      ∃ p, chooseSlot H d.ht s = some (p, true, k) := by
    intro i s k hs hk
    obtain ⟨hi, rfl⟩ := List.getElem?_eq_some_iff.mp hs
    obtain ⟨hi', rfl⟩ := List.getElem?_eq_some_iff.mp hk
    exact hkeys.get hi hi'
  refine ⟨hkeys.length_eq.symm, ?_, ?_, hnames.distinct, ?_⟩
  · intro i j s s' k k' hs hs' hk hk'
    obtain ⟨p, hp⟩ := hfound i s k hs hk
    obtain ⟨p', hp'⟩ := hfound j s' k' hs' hk'
    constructor
    · rintro rfl
      exact eq_of_chooseSlot hp hp'
    · rintro rfl
      rw [hp] at hp'
      cases hp'
      rfl
  · intro i s k hs hk
    obtain ⟨p, hp⟩ := hfound i s k hs hk
    obtain ⟨rec, hrec, hkey, hstr⟩ := slot_of_chooseSlot hp
    have hcnt := hnames.cnt_ne_zero (hnz s (List.mem_of_getElem? hs)) hp hrec
    obtain ⟨s', hstr', hcount, -⟩ := hnames.occupied p rec hrec hcnt
    obtain rfl : s' = s := Option.some.inj (hstr'.symm.trans hstr)
    exact ⟨rec, List.mem_of_getElem? hrec, hstr, hkey, hcount⟩
  · intro rec hrec hcnt
    obtain ⟨p, hp⟩ := List.mem_iff_getElem?.mp hrec
    obtain ⟨s, hstr, hcount, -⟩ := hnames.occupied p rec hp hcnt
    exact ⟨s, hstr, hcount⟩

theorem keys_name_strings_collision :
    ∃ d keys, addAll ⟨fun t s => BitVec.ofNat 64 (t + s.val.length + 1), mixI8⟩ (setupHtDict 7)
        [⟨[97], by simp⟩, ⟨[98], by simp⟩, ⟨[97], by simp⟩] = some (d, keys) ∧
      d.nHt = 2 := by
  have hsome : (addAll ⟨fun t s => BitVec.ofNat 64 (t + s.val.length + 1), mixI8⟩ (setupHtDict 7)
      [⟨[97], by simp⟩, ⟨[98], by simp⟩, ⟨[97], by simp⟩]).isSome := by decide +kernel
  obtain ⟨⟨d, keys⟩, hrun⟩ := Option.isSome_iff_exists.mp hsome
  refine ⟨d, keys, hrun, ?_⟩
  obtain ⟨-, -, -, hn, -⟩ := keys_name_strings _ 7 _ d keys (by
    unfold HashNonzero
    decide +kernel) hrun
  rw [hn]
  decide +kernel

end Datacl
