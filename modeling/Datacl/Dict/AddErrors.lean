import Datacl.Dict.Naming
import Mathlib.Tactic

/-!
# When `add_to_dict` returns an error

A table reached by any calls, failing ones included. A call that finds the table half full has
already filled a slot when it fails, so `n_ht` counts the strings of the calls that succeeded and
falls behind the number of occupied slots once the table is half full.
-/

namespace Datacl

/-- The table after any calls, whatever they return. -/
def afterAdds (H : Hashing) (d : Dict) (ss : List CString) : Dict :=
  ss.foldl (fun d s => (addToDict H d s).1) d

/-- Slot `p` holds the string. -/
def HoldsAt (d : Dict) (s : CString) (p : Nat) : Prop :=
  ∃ rec, d.ht[p]? = some rec ∧ rec.cnt ≠ 0 ∧ rec.strkey = some s

def Stored (d : Dict) (s : CString) : Prop := ∃ p, HoldsAt d s p

/-- The number of occupied slots. -/
def occupied (d : Dict) : Nat := d.ht.countP (fun rec => decide (rec.cnt ≠ 0))

/-- Every hash of the string is the key of another string. -/
def AllCollide (H : Hashing) (d : Dict) (s : CString) : Prop :=
  ∀ t < numSeeds, ∃ rec ∈ d.ht, rec.cnt ≠ 0 ∧ rec.key = H.hash t s ∧
    ∃ s', rec.strkey = some s' ∧ s' ≠ s

/-- A table reached by calls: every stored string is found where it is, and `n_ht` is the number
of occupied slots unless the table is half full. -/
structure Reached (H : Hashing) (d : Dict) : Prop where
  free : ∀ rec ∈ d.ht, rec.cnt = 0 → rec.key = 0
  found : ∀ p rec, d.ht[p]? = some rec → rec.cnt ≠ 0 →
    ∃ s, rec.strkey = some s ∧ HashNonzero H s ∧ chooseSlot H d.ht s = some (p, true, rec.key)
  room : d.nHt ≤ d.ht.length / 2
  counted : d.nHt = occupied d ∨ (d.nHt = d.ht.length / 2 ∧ d.nHt ≤ occupied d)

section Reached

variable {H : Hashing} {d : Dict} {s : CString} {p : Nat} {key : BitVec 64}

lemma Reached.chooseSlot_of_holdsAt (hd : Reached H d) (h : HoldsAt d s p) :
    ∃ key, chooseSlot H d.ht s = some (p, true, key) := by
  obtain ⟨rec, hrec, hcnt, hstr⟩ := h
  obtain ⟨s', hstr', -, hslot⟩ := hd.found p rec hrec hcnt
  obtain rfl : s' = s := Option.some.inj (hstr'.symm.trans hstr)
  exact ⟨rec.key, hslot⟩

lemma Reached.holdsAt_of_chooseSlot (hd : Reached H d) (hs : HashNonzero H s)
    (h : chooseSlot H d.ht s = some (p, true, key)) : HoldsAt d s p := by
  obtain ⟨t, ht, hsome, -⟩ := chooseSlot_eq_some.mp h
  obtain ⟨rec, hrec, hkey, hstr⟩ := slot_of_chooseSlot h
  refine ⟨rec, hrec, fun hzero => ?_, hstr⟩
  apply hs t ht
  rw [← (trySeed_eq_some_true.mp hsome).1, ← hkey]
  exact hd.free rec (List.mem_of_getElem? hrec) hzero

/-- A string that is given a free slot is not stored. -/
lemma Reached.not_stored (hd : Reached H d) (h : chooseSlot H d.ht s = some (p, false, key)) :
    ¬ Stored d s := by
  rintro ⟨q, hq⟩
  obtain ⟨k, hk⟩ := hd.chooseSlot_of_holdsAt hq
  rw [h] at hk
  cases hk

lemma Reached.nHt_le (hd : Reached H d) : d.nHt ≤ occupied d :=
  hd.counted.elim le_of_eq And.right

/-! ### One call -/

lemma addToDict_none (h : chooseSlot H d.ht s = none) : addToDict H d s = (d, none) := by
  rw [addToDict, h]

lemma addToDict_new (h : chooseSlot H d.ht s = some (p, false, key)) :
    addToDict H d s =
      if d.ht.length / 2 < d.nHt + 1 then (⟨d.ht.set p ⟨some s, key, 1⟩, d.nHt⟩, none)
      else (⟨d.ht.set p ⟨some s, key, 1⟩, d.nHt + 1⟩, some key) := by
  obtain ⟨rec, hrec, -⟩ := free_of_chooseSlot h
  simp only [addToDict, h, hrec, closeAdd, List.length_set, Bool.false_eq_true, if_false]

/-- A stored string is counted, unless its slot is slot 1. -/
lemma Reached.addToDict_held (hd : Reached H d) (hs : HashNonzero H s)
    (h : chooseSlot H d.ht s = some (p, true, key)) :
    ∃ rec, d.ht[p]? = some rec ∧ rec.cnt ≠ 0 ∧ addToDict H d s =
      if p = 1 then (d, none)
      else (⟨d.ht.set p { rec with cnt := rec.cnt + 1 }, d.nHt⟩, some key) := by
  obtain ⟨rec, hrec, hcnt, -⟩ := hd.holdsAt_of_chooseSlot hs h
  obtain ⟨rec', hrec', hkey, -⟩ := slot_of_chooseSlot h
  obtain rfl : rec' = rec := Option.some.inj (hrec'.symm.trans hrec)
  refine ⟨rec', hrec, hcnt, ?_⟩
  have hroom : ¬ d.ht.length / 2 < d.nHt := not_lt.mpr hd.room
  simp only [addToDict, h, hrec, if_true, hkey, ne_eq, not_true_eq_false, false_or, hcnt, if_false,
    closeAdd, List.length_set, hroom]

lemma Reached.count (hd : Reached H d) {rec : HtRec} (hrec : d.ht[p]? = some rec)
    (hcnt : rec.cnt ≠ 0) : Reached H ⟨d.ht.set p { rec with cnt := rec.cnt + 1 }, d.nHt⟩ := by
  have hsame : ∀ a, chooseSlot H (d.ht.set p { rec with cnt := rec.cnt + 1 }) a =
      chooseSlot H d.ht a := fun a => chooseSlot_congr fun _ => probe_set_cnt hrec hcnt
  obtain ⟨hlt, hget⟩ := List.getElem?_eq_some_iff.mp hrec
  have hocc : occupied ⟨d.ht.set p { rec with cnt := rec.cnt + 1 }, d.nHt⟩ = occupied d := by
    have hpos : 0 < occupied d := List.countP_pos_iff.mpr
      ⟨rec, List.mem_of_getElem? hrec, by simpa using hcnt⟩
    unfold occupied at hpos ⊢
    rw [List.countP_set hlt, hget, if_pos (decide_eq_true hcnt), if_pos (by simp)]
    omega
  refine ⟨fun r hr hzero => ?_, fun q r hr hne => ?_, ?_, ?_⟩
  · rcases List.mem_or_eq_of_mem_set hr with hr | rfl
    · exact hd.free r hr hzero
    · exact absurd hzero (Nat.succ_ne_zero _)
  · simp only [hsame]
    by_cases hq : p = q
    · subst hq
      rw [List.getElem?_set_self hlt] at hr
      cases hr
      exact hd.found p rec hrec hcnt
    · rw [List.getElem?_set_ne hq] at hr
      obtain ⟨a, hstr, hnz, hslot⟩ := hd.found q r hr hne
      exact ⟨a, hstr, hnz, hslot⟩
  · rw [List.length_set]
    exact hd.room
  · rw [hocc, List.length_set]
    exact hd.counted

/-- A free slot is filled; `n_ht` grows unless the table is half full. -/
lemma Reached.fill (hd : Reached H d) (hs : HashNonzero H s)
    (h : chooseSlot H d.ht s = some (p, false, key)) {n : Nat}
    (hn : (d.ht.length / 2 < d.nHt + 1 ∧ n = d.nHt) ∨
      (¬ d.ht.length / 2 < d.nHt + 1 ∧ n = d.nHt + 1)) :
    Reached H ⟨d.ht.set p ⟨some s, key, 1⟩, n⟩ := by
  obtain ⟨rec, hrec, hcnt⟩ := free_of_chooseSlot h
  have hkey := hd.free rec (List.mem_of_getElem? hrec) hcnt
  obtain ⟨hlt, hget⟩ := List.getElem?_eq_some_iff.mp hrec
  have hocc : occupied ⟨d.ht.set p ⟨some s, key, 1⟩, n⟩ = occupied d + 1 := by
    unfold occupied
    rw [List.countP_set hlt, hget]
    simp [hcnt]
  refine ⟨fun r hr hzero => ?_, fun q r hr hne => ?_, ?_, ?_⟩
  · rcases List.mem_or_eq_of_mem_set hr with hr | rfl
    · exact hd.free r hr hzero
    · cases hzero
  · by_cases hq : p = q
    · subst hq
      rw [List.getElem?_set_self hlt] at hr
      cases hr
      exact ⟨s, rfl, hs, chooseSlot_set_self hrec hs hkey hcnt 1 h⟩
    · rw [List.getElem?_set_ne hq] at hr
      obtain ⟨a, hstr, hnz, hslot⟩ := hd.found q r hr hne
      exact ⟨a, hstr, hnz, chooseSlot_set_free hrec hnz hkey hcnt _ hslot⟩
  · have hroom := hd.room
    dsimp only
    rw [List.length_set]
    omega
  · rw [hocc, List.length_set]
    have hroom := hd.room
    have hcounted := hd.counted
    dsimp only
    omega

lemma Reached.step (hd : Reached H d) (hs : HashNonzero H s) : Reached H (addToDict H d s).1 := by
  cases hslot : chooseSlot H d.ht s with
  | none => rwa [addToDict_none hslot]
  | some r =>
    obtain ⟨p, keyExists, key⟩ := r
    cases keyExists with
    | true =>
      obtain ⟨rec, hrec, hcnt, hcall⟩ := hd.addToDict_held hs hslot
      rw [hcall]
      split
      · exact hd
      · exact hd.count hrec hcnt
    | false =>
      rw [addToDict_new hslot]
      split
      next hfull => exact hd.fill hs hslot (.inl ⟨hfull, rfl⟩)
      next hfull => exact hd.fill hs hslot (.inr ⟨hfull, rfl⟩)

end Reached

lemma reached_setup (H : Hashing) (szHt : Nat) : Reached H (setupHtDict szHt) where
  free rec hrec _ := by rw [List.eq_of_mem_replicate hrec]
  found p rec hrec hcnt := by
    rw [List.eq_of_mem_replicate (List.mem_of_getElem? hrec)] at hcnt
    exact absurd rfl hcnt
  room := Nat.zero_le _
  counted := by
    left
    simp [occupied, setupHtDict, List.countP_replicate]

/-- Every table reached by calls. -/
lemma Reached.run {H : Hashing} {d : Dict} {ss : List CString} (hd : Reached H d)
    (hss : ∀ s ∈ ss, HashNonzero H s) : Reached H (afterAdds H d ss) := by
  induction ss generalizing d with
  | nil => exact hd
  | cons s ss ih =>
    rw [List.forall_mem_cons] at hss
    exact ih (hd.step hss.1) hss.2

/-! ### Why a call fails -/

section Errors

variable {H : Hashing} {d : Dict} {s : CString}

/-- A probe that runs through the whole table has found every slot occupied. -/
lemma Reached.full_of_probe_none (hd : Reached H d) (hs : HashNonzero H s) {t : Nat}
    (ht : t < numSeeds) (h : probe H d.ht (H.hash t s) s = none) : occupied d = d.ht.length := by
  apply List.countP_eq_length.mpr
  intro rec hrec
  apply decide_eq_true
  intro hzero
  obtain ⟨q, hq⟩ := List.mem_iff_getElem?.mp hrec
  exact probe_ne_none hq (hs t ht) (hd.free rec hrec hzero) hzero h

/-- A seed that is passed over has met another string under its key. -/
lemma Reached.collision (hd : Reached H d) (hs : HashNonzero H s) {t i : Nat} (ht : t < numSeeds)
    (h : probe H d.ht (H.hash t s) s = some (i, .pickNewHash)) :
    ∃ rec ∈ d.ht, rec.cnt ≠ 0 ∧ rec.key = H.hash t s ∧ ∃ s', rec.strkey = some s' ∧ s' ≠ s := by
  obtain ⟨rec, hrec, hstop⟩ := probe_stop h
  obtain ⟨hkey, hne⟩ := stopAt_pickNewHash hstop
  have hmem := List.mem_of_getElem? hrec
  have hcnt : rec.cnt ≠ 0 := by
    intro hzero
    apply hs t ht
    rw [← hkey]
    exact hd.free rec hmem hzero
  obtain ⟨s', hstr, -⟩ := hd.found i rec hrec hcnt
  refine ⟨rec, hmem, hcnt, hkey, s', hstr, fun heq => ?_⟩
  rw [heq] at hstr
  exact hne hstr

/-- No slot is chosen only if the table is full or every seed collides. -/
lemma Reached.of_chooseSlot_none (hd : Reached H d) (hs : HashNonzero H s)
    (h : chooseSlot H d.ht s = none) :
    (¬ Stored d s ∧ d.ht.length < 2 * (occupied d + 1)) ∨ AllCollide H d s := by
  have hseeds := List.findSome?_eq_none_iff.mp h
  by_cases hfull : ∃ t < numSeeds, probe H d.ht (H.hash t s) s = none
  · obtain ⟨t, ht, hnone⟩ := hfull
    left
    refine ⟨?_, ?_⟩
    · rintro ⟨p, hp⟩
      obtain ⟨key, hkey⟩ := hd.chooseSlot_of_holdsAt hp
      rw [h] at hkey
      cases hkey
    · have := hd.full_of_probe_none hs ht hnone
      omega
  · right
    intro t ht
    rcases trySeed_eq_none.mp (hseeds t (List.mem_range.mpr ht)) with hnone | ⟨i, hi⟩
    · exact absurd ⟨t, ht, hnone⟩ hfull
    · exact hd.collision hs ht hi

/-- Insertion fails only for lack of room or because every seed collides, and a stored string can
be added again. -/
def FailsForRoomOnly (H : Hashing) (d : Dict) (s : CString) : Prop :=
  ((addToDict H d s).2 = none →
    (¬ Stored d s ∧ d.ht.length < 2 * (occupied d + 1)) ∨ AllCollide H d s) ∧
  (Stored d s → (addToDict H d s).2 ≠ none)

lemma Reached.failsForRoomOnly_iff (hd : Reached H d) (hs : HashNonzero H s) :
    FailsForRoomOnly H d s ↔ ¬ HoldsAt d s 1 := by
  have hone (h : HoldsAt d s 1) : (addToDict H d s).2 = none := by
    obtain ⟨key, hslot⟩ := hd.chooseSlot_of_holdsAt h
    obtain ⟨rec, -, -, hcall⟩ := hd.addToDict_held hs hslot
    rw [hcall, if_pos rfl]
  constructor
  · intro h h1
    exact h.2 ⟨1, h1⟩ (hone h1)
  · intro h1
    have hheld {p : Nat} {key : BitVec 64} (h : chooseSlot H d.ht s = some (p, true, key)) :
        (addToDict H d s).2 ≠ none := by
      obtain ⟨rec, -, -, hcall⟩ := hd.addToDict_held hs h
      rw [hcall, if_neg]
      · exact Option.some_ne_none _
      · rintro rfl
        exact h1 (hd.holdsAt_of_chooseSlot hs h)
    constructor
    · intro herr
      cases hslot : chooseSlot H d.ht s with
      | none => exact hd.of_chooseSlot_none hs hslot
      | some r =>
        obtain ⟨p, keyExists, key⟩ := r
        cases keyExists with
        | true => exact absurd herr (hheld hslot)
        | false =>
          left
          rw [addToDict_new hslot] at herr
          split at herr
          next hfull =>
            have := hd.nHt_le
            exact ⟨hd.not_stored hslot, by omega⟩
          next => cases herr
    · rintro ⟨p, hp⟩
      obtain ⟨key, hslot⟩ := hd.chooseSlot_of_holdsAt hp
      exact hheld hslot

end Errors

/-- In every table reached by calls, adding a string fails for lack of room only, if and only if
the string is not in slot 1. -/
theorem addToDict_fails_for_room_only_iff (H : Hashing) (szHt : Nat) (ss : List CString)
    (s : CString) (hss : ∀ a ∈ ss, HashNonzero H a) (hs : HashNonzero H s) :
    FailsForRoomOnly H (afterAdds H (setupHtDict szHt) ss) s ↔
      ¬ HoldsAt (afterAdds H (setupHtDict szHt) ss) s 1 :=
  ((reached_setup H szHt).run hss).failsForRoomOnly_iff hs

theorem addToDict_fails_for_room_only_iff_seven :
    FailsForRoomOnly ⟨fun t s => BitVec.ofNat 64 (t + s.val.length + 1), mixI8⟩
        (afterAdds ⟨fun t s => BitVec.ofNat 64 (t + s.val.length + 1), mixI8⟩ (setupHtDict 7)
          [⟨[97], by simp⟩, ⟨[98], by simp⟩]) ⟨[97], by simp⟩ ↔
      ¬ HoldsAt (afterAdds ⟨fun t s => BitVec.ofNat 64 (t + s.val.length + 1), mixI8⟩
        (setupHtDict 7) [⟨[97], by simp⟩, ⟨[98], by simp⟩]) ⟨[97], by simp⟩ 1 := by
  apply addToDict_fails_for_room_only_iff
  · unfold HashNonzero
    decide +kernel
  · unfold HashNonzero
    decide +kernel

/-- The first string goes to the slot its first hash leads to. -/
lemma holdsAt_first {H : Hashing} {szHt p : Nat} {s : CString} (hs : HashNonzero H s)
    (hp : (H.mix (H.hash 0 s)).toNat % szHt = p) (hlt : p < szHt) :
    HoldsAt (afterAdds H (setupHtDict szHt) [s]) s p := by
  have hlen : (setupHtDict szHt).ht.length = szHt := List.length_replicate
  have hget : (setupHtDict szHt).ht[p]? = some ⟨none, 0, 0⟩ := by
    rw [setupHtDict, List.getElem?_replicate, if_pos hlt]
  have hprobe : probe H (setupHtDict szHt).ht (H.hash 0 s) s = some (p, .unoccupied) := by
    have hstop : stopAt (H.hash 0 s) s ⟨none, 0, 0⟩ = some .unoccupied :=
      stopAt_free s (hs 0 (by decide)) rfl rfl
    have hrange : List.range' p (szHt - p) = p :: List.range' (p + 1) (szHt - p - 1) := by
      rw [← List.range'_succ]
      congr 1
      omega
    simp only [probe, hlen, hp]
    rw [hrange, Probing.scan, hget, Option.bind_some, hstop]
    rfl
  have hslot : chooseSlot H (setupHtDict szHt).ht s = some (p, false, H.hash 0 s) :=
    chooseSlot_eq_some.mpr ⟨0, by decide, trySeed_eq_some_false.mpr ⟨rfl, hprobe⟩,
      fun u hu => absurd hu (Nat.not_lt_zero u)⟩
  have hset : ((setupHtDict szHt).ht.set p ⟨some s, H.hash 0 s, 1⟩)[p]? =
      some ⟨some s, H.hash 0 s, 1⟩ := List.getElem?_set_self (by rwa [hlen])
  rw [afterAdds, List.foldl_cons, List.foldl_nil, addToDict_new hslot]
  split
  · exact ⟨_, hset, Nat.one_ne_zero, rfl⟩
  · exact ⟨_, hset, Nat.one_ne_zero, rfl⟩

/-- A string that goes to slot 1 of the empty table cannot be added again. -/
lemma addToDict_slot_one {H : Hashing} {szHt : Nat} {s : CString} (hs : HashNonzero H s)
    (hp : (H.mix (H.hash 0 s)).toNat % szHt = 1) (hlt : 1 < szHt) :
    Stored (afterAdds H (setupHtDict szHt) [s]) s ∧
      (addToDict H (afterAdds H (setupHtDict szHt) [s]) s).2 = none := by
  have hholds := holdsAt_first hs hp hlt
  have hreached : Reached H (afterAdds H (setupHtDict szHt) [s]) := by
    apply (reached_setup H szHt).run
    intro a ha
    rwa [List.mem_singleton.mp ha]
  obtain ⟨key, hslot⟩ := hreached.chooseSlot_of_holdsAt hholds
  obtain ⟨rec, -, -, hcall⟩ := hreached.addToDict_held hs hslot
  refine ⟨⟨1, hholds⟩, ?_⟩
  rw [hcall, if_pos rfl]

/-- In the table of the source, a string whose hash is 214099 goes to slot 1. -/
theorem addToDict_fails_in_slot_one :
    HashNonzero ⟨fun _ _ => 214099, mixI8⟩ ⟨[97], by simp⟩ ∧
      Stored (afterAdds ⟨fun _ _ => 214099, mixI8⟩ (setupHtDict 4194319) [⟨[97], by simp⟩])
        ⟨[97], by simp⟩ ∧
      (addToDict ⟨fun _ _ => 214099, mixI8⟩
        (afterAdds ⟨fun _ _ => 214099, mixI8⟩ (setupHtDict 4194319) [⟨[97], by simp⟩])
        ⟨[97], by simp⟩).2 = none := by
  have hnz : HashNonzero ⟨fun _ _ => 214099, mixI8⟩ ⟨[97], by simp⟩ :=
    fun _ _ => (by decide : (214099 : BitVec 64) ≠ 0)
  exact ⟨hnz, addToDict_slot_one hnz (by decide +kernel) (by norm_num)⟩

end Datacl
