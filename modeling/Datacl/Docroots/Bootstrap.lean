import Datacl.Docroots.Machine

/-!
# What a docroot lists

The directories after the first two are those of the docroot that was copied. `bootstrap` moves the
list on by two from the first entry to the last, and so reads entries that it has written itself: only
the first two are taken over, again and again up to the end of the list.
-/

namespace Datacl

variable {q r : Docroot} {dsk ram : Name} {ds ds' : List DdirRec} {i : Nat}

lemma getD_set_ddir (ds : List DdirRec) (i k : Nat) (x : DdirRec) :
    (ds.set i x).getD k newDdirRec = if i = k ∧ i < ds.length then x else ds.getD k newDdirRec := by
  rw [List.getD_eq_getElem?_getD, List.getD_eq_getElem?_getD, List.getElem?_set]
  by_cases hik : i = k
  · subst hik
    by_cases hi : i < ds.length
    · simp [hi]
    · simp [hi]
  · simp [hik]

lemma getD_initDdirs (h : initDdirs dsk ram ds = some ds') (hi : 2 ≤ i) :
    ds'.getD i newDdirRec = ds.getD i newDdirRec := by
  have hset : ∀ (ds : List DdirRec) (k : Nat) (x : DdirRec), k < 2 →
      (ds.set k x).getD i newDdirRec = ds.getD i newDdirRec := by
    intro ds k x hk
    rw [getD_set_ddir, if_neg (by omega)]
  unfold initDdirs at h
  obtain ⟨x, -, h⟩ := Option.bind_eq_some_iff.mp h
  dsimp only at h
  split_ifs at h
  · obtain rfl := Option.some.inj h
    exact hset _ _ _ (by omega)
  · obtain ⟨y, -, h⟩ := Option.bind_eq_some_iff.mp h
    obtain rfl := Option.some.inj h
    rw [hset _ _ _ (by omega), hset _ _ _ (by omega)]

lemma length_initDdirs (h : initDdirs dsk ram ds = some ds') : ds'.length = ds.length := by
  unfold initDdirs at h
  obtain ⟨x, -, h⟩ := Option.bind_eq_some_iff.mp h
  dsimp only at h
  split_ifs at h
  · obtain rfl := Option.some.inj h
    exact List.length_set
  · obtain ⟨y, -, h⟩ := Option.bind_eq_some_iff.mp h
    obtain rfl := Option.some.inj h
    rw [List.length_set, List.length_set]

/-- The entries that the loop has passed. -/
lemma getD_shift_passed (ds : List DdirRec) {c : Nat} (hc : c + 2 ≤ ds.length) :
    ((List.range' 2 c).foldl (fun ds i => ds.set i (ds.getD (i - 2) newDdirRec)) ds).length = ds.length ∧
      ∀ i, ((List.range' 2 c).foldl (fun ds i => ds.set i (ds.getD (i - 2) newDdirRec)) ds).getD i
          newDdirRec = ds.getD (if i < c + 2 then i % 2 else i) newDdirRec := by
  induction c with
  | zero =>
    refine ⟨rfl, fun i => ?_⟩
    by_cases hi : i < 2
    · rw [if_pos (by omega), Nat.mod_eq_of_lt hi]
      rfl
    · rw [if_neg (by omega)]
      rfl
  | succ c ih =>
    obtain ⟨hlen, hpassed⟩ := ih (by omega)
    rw [List.range'_1_concat, List.foldl_append]
    refine ⟨(List.length_set).trans hlen, fun i => ?_⟩
    show (List.set _ _ _).getD i newDdirRec = _
    rw [getD_set_ddir, hlen, hpassed, hpassed]
    by_cases hi : 2 + c = i
    · rw [if_pos ⟨hi, by omega⟩, if_pos (by omega), if_pos (by omega)]
      congr 1
      omega
    · rw [if_neg fun h => hi h.1]
      congr 1
      split_ifs <;> omega

lemma getD_shiftDdirs (hds : 2 ≤ ds.length) :
    (shiftDdirs ds).getD i newDdirRec = ds.getD (if i < ds.length then i % 2 else i) newDdirRec := by
  have h := (getD_shift_passed ds (c := ds.length - 2) (by omega)).2 i
  rwa [Nat.sub_add_cancel hds] at h

lemma length_shiftDdirs (hds : 2 ≤ ds.length) : (shiftDdirs ds).length = ds.length :=
  (getD_shift_passed ds (c := ds.length - 2) (by omega)).1

/-! ### Making a docroot -/

lemma Docroot.name_natCast (r : Docroot) (i : Nat) : r.name i = (r.ddirs.getD i newDdirRec).name := by
  unfold Docroot.name Docroot.ddir
  rw [if_pos (Int.natCast_nonneg i), Int.toNat_natCast]

/-- A directory of the list. -/
lemma Docroot.exists_index {d : Int} (h : r.name d ≠ []) : ∃ i : Nat, i < r.ddirs.length ∧ d = i := by
  by_cases h0 : 0 ≤ d
  · obtain ⟨i, rfl⟩ := Int.eq_ofNat_of_zero_le h0
    refine ⟨i, ?_, rfl⟩
    by_contra hlen
    rw [Docroot.name_natCast, List.getD_eq_default _ _ (not_lt.mp hlen)] at h
    exact h rfl
  · unfold Docroot.name Docroot.ddir at h
    rw [if_neg h0] at h
    exact absurd rfl h

/-- The docroot lists no directories but its own. -/
def Docroot.Alone (r : Docroot) : Prop := ∀ d, r.name d ≠ [] → r.OwnDir d

lemma alone_initMetaData {sz : Sizes} (h : initMetaData sz dsk ram = some r) : r.Alone := by
  obtain ⟨ds, hds, h⟩ := Option.bind_eq_some_iff.mp h
  obtain rfl := Option.some.inj h
  intro d hd
  obtain ⟨i, -, rfl⟩ := Docroot.exists_index hd
  refine ⟨?_, hd⟩
  by_contra hi
  rw [Docroot.name_natCast, getD_initDdirs hds (by omega)] at hd
  refine hd ?_
  rw [List.getD_eq_getElem?_getD, List.getElem?_replicate]
  split_ifs <;> rfl

/-- The list of a docroot that `bootstrap` has made. -/
lemma bootstrapMetaData_eq_some (h : bootstrapMetaData q dsk ram = some r) :
    r.tbls = q.tbls ∧ r.flds = q.flds.map inherit ∧ r.info = q.info ∧ r.nextFileno = q.nextFileno ∧
      roomForDdirs q.ddirs = true ∧ r.ddirs.length = q.ddirs.length ∧
        ∀ i : Nat, 2 ≤ i → r.name i = q.name (if i < q.ddirs.length then i % 2 else i : Nat) := by
  unfold bootstrapMetaData at h
  split_ifs at h with hroom
  obtain ⟨ds, hds, h⟩ := Option.bind_eq_some_iff.mp h
  obtain rfl := Option.some.inj h
  have hlen : 2 ≤ q.ddirs.length := by
    have := Bool.eq_true_of_not_eq_false hroom
    unfold roomForDdirs at this
    simp only [Bool.and_eq_true, decide_eq_true_eq] at this
    omega
  refine ⟨rfl, rfl, rfl, rfl, Bool.eq_true_of_not_eq_false hroom, ?_, fun i hi => ?_⟩
  · rw [length_initDdirs hds, List.length_set, List.length_set, length_shiftDdirs hlen]
  · rw [Docroot.name_natCast, Docroot.name_natCast, getD_initDdirs hds hi, getD_set_ddir,
      if_neg (by omega), getD_set_ddir, if_neg (by omega), getD_shiftDdirs hlen]

/-! ### Room for two more directories -/

def numDdirs (ds : List DdirRec) : Nat := ds.countP fun x => x.name ≠ []

/-- The names come first. -/
def NoGaps (ds : List DdirRec) : Prop :=
  ∀ i < ds.length, i = 0 ∨ (ds.getD i newDdirRec).name = [] ∨ (ds.getD (i - 1) newDdirRec).name ≠ []

lemma roomForDdirs_iff (ds : List DdirRec) :
    roomForDdirs ds = true ↔ 1 ≤ numDdirs ds ∧ numDdirs ds + 2 ≤ ds.length ∧ NoGaps ds := by
  simp [roomForDdirs, numDdirs, NoGaps, and_assoc, or_assoc]

lemma NoGaps.before (h : NoGaps ds) (hi : i < ds.length) (hname : (ds.getD i newDdirRec).name ≠ []) :
    ∀ k ≤ i, (ds.getD k newDdirRec).name ≠ [] := by
  induction i with
  | zero =>
    intro k hk
    obtain rfl : k = 0 := by omega
    exact hname
  | succ i ih =>
    intro k hk
    have hprev : (ds.getD i newDdirRec).name ≠ [] := by
      rcases h (i + 1) hi with h0 | hnone | hprev
      · omega
      · exact absurd hnone hname
      · exact hprev
    rcases Nat.lt_or_ge k (i + 1) with hlt | hge
    · exact ih (by omega) hprev k (by omega)
    · obtain rfl : k = i + 1 := by omega
      exact hname

lemma le_numDdirs {c : Nat} (hc : c ≤ ds.length)
    (h : ∀ k < c, (ds.getD k newDdirRec).name ≠ []) : c ≤ numDdirs ds := by
  have hall : ∀ x ∈ ds.take c, decide (x.name ≠ []) = true := by
    intro x hx
    obtain ⟨k, hk, rfl⟩ := List.getElem_of_mem hx
    rw [List.length_take] at hk
    have hname := h k (by omega)
    rw [List.getD_eq_getElem _ _ (by omega)] at hname
    rw [List.getElem_take]
    exact decide_eq_true hname
  calc c = (ds.take c).length := by rw [List.length_take, min_eq_left hc]
    _ = (ds.take c).countP fun x => x.name ≠ [] := (List.countP_eq_length.mpr hall).symm
    _ ≤ numDdirs ds := (List.take_sublist c ds).countP_le

/-- If there is room, the first directory has a name. -/
lemma name_zero_of_room (h : roomForDdirs q.ddirs = true) : q.name (0 : Nat) ≠ [] := by
  obtain ⟨hone, -, hgaps⟩ := (roomForDdirs_iff _).mp h
  obtain ⟨x, hx, hname⟩ := List.countP_pos_iff.mp hone
  obtain ⟨k, hk, rfl⟩ := List.getElem_of_mem hx
  rw [Docroot.name_natCast]
  refine hgaps.before hk ?_ 0 (Nat.zero_le k)
  rw [List.getD_eq_getElem _ _ hk]
  exact of_decide_eq_true hname

/-- The entries go on up to the end, so that no room is left. -/
lemma no_room_of_bootstrap (h : bootstrapMetaData q dsk ram = some r) : roomForDdirs r.ddirs = false := by
  obtain ⟨-, -, -, -, hroom, hlen, hnames⟩ := bootstrapMetaData_eq_some h
  obtain ⟨hone, htwo, -⟩ := (roomForDdirs_iff _).mp hroom
  rw [← Bool.not_eq_true, roomForDdirs_iff]
  rintro ⟨-, hspace, hgaps⟩
  -- the last entry at an even place
  obtain ⟨k, hk, hlt, hlast⟩ : ∃ k, 2 ≤ 2 * k ∧ 2 * k < r.ddirs.length ∧ r.ddirs.length ≤ 2 * k + 2 :=
    ⟨(r.ddirs.length - 1) / 2, by omega, by omega, by omega⟩
  have heven : (r.ddirs.getD (2 * k) newDdirRec).name ≠ [] := by
    rw [← Docroot.name_natCast, hnames _ hk, if_pos (by omega), Nat.mul_mod_right]
    exact name_zero_of_room hroom
  have hcount := le_numDdirs (c := 2 * k + 1) (by omega) fun j hj => hgaps.before hlt heven j (by omega)
  omega

/-- The directories of the old docroot are the next two of the new one. -/
lemma name_of_bootstrap (h : bootstrapMetaData q dsk ram = some r) {d : Int} (hd : q.OwnDir d) :
    r.name (d + 2) = q.name d := by
  obtain ⟨-, -, -, -, hroom, hlen, hnames⟩ := bootstrapMetaData_eq_some h
  obtain ⟨hone, htwo, hgaps⟩ := (roomForDdirs_iff _).mp hroom
  obtain ⟨i, hi, rfl⟩ := Docroot.exists_index hd.2
  have hi2 : i < 2 := by
    rcases hd.1 with h0 | h1 <;> omega
  have hname := hd.2
  rw [Docroot.name_natCast] at hname
  have hcount := le_numDdirs (c := i + 1) hi fun k hk => hgaps.before hi hname k (by omega)
  have hnext := hnames (i + 2) (by omega)
  rw [if_pos (by omega), Nat.add_mod_right, Nat.mod_eq_of_lt hi2] at hnext
  exact_mod_cast hnext

end Datacl
