import Datacl.Compound.Count
import Datacl.Compound.CountHtRows
import Datacl.Dict.MkDict
import Datacl.Vec.Partition
import Mathlib.Data.List.Perm.Basic

/-!
# The groups of `count_ht`

The table and the output of a column without nulls and without a condition field.
-/

namespace Datacl

/-- A column without nulls and without a condition field. -/
def plainColumn (fldtype : FldType) (cells : List Int) : CountHtArgs := ⟨fldtype, cells, none, none⟩

section

variable {fldtype : FldType} {cells : List Int}

lemma CellsFit.hasVal (h : CellsFit fldtype cells) : fldtype.hasVal = true := by
  cases fldtype with
  | I4 => rfl
  | I8 => rfl
  | _ => exact absurd h id

lemma CellsFit.toInt (h : CellsFit fldtype cells) {v : Int} (hv : v ∈ cells) :
    (BitVec.ofInt 64 v).toInt = v := by
  have hrange : -2 ^ 63 ≤ v ∧ v < 2 ^ 63 := by
    cases fldtype with
    | I4 =>
      have := h v hv
      omega
    | I8 => exact h v hv
    | _ => exact absurd h id
  rw [BitVec.toInt_ofInt]
  exact CInt.wrap_of_mem hrange.1 hrange.2

/-- The cast back gives the value. -/
lemma CellsFit.valueOut (h : CellsFit fldtype cells) {v : Int} (hv : v ∈ cells) :
    valueOut fldtype (BitVec.ofInt 64 v) = some v := by
  have hnat : ((BitVec.ofInt 64 v).toNat : Int) = v % 2 ^ 64 := by
    rw [BitVec.toNat_ofInt, Int.toNat_of_nonneg (Int.emod_nonneg _ (by decide))]
    rfl
  cases fldtype with
  | I4 =>
    show some (CInt.wrap 32 _) = _
    rw [hnat, CInt.wrap, Int.bmod_def, Int.emod_emod_of_dvd _ (by decide), ← Int.bmod_def]
    exact congrArg some (CInt.wrap_of_mem (h v hv).1 (h v hv).2)
  | I8 =>
    show some (CInt.wrap 64 _) = _
    rw [hnat, CInt.wrap, Int.bmod_def, Int.emod_emod_of_dvd _ (by decide), ← Int.bmod_def]
    exact congrArg some (CInt.wrap_of_mem (h v hv).1 (h v hv).2)
  | _ => exact absurd h id

/-- All rows are marked. -/
lemma rows_plainColumn (n : Nat) : (plainColumn fldtype cells).rows n = List.range n :=
  List.filter_eq_self.mpr fun _ _ => rfl

lemma map_val_plainColumn :
    (List.range cells.length).map (plainColumn fldtype cells).val = cells.map (BitVec.ofInt 64) := by
  apply List.ext_getElem?
  intro i
  rw [List.getElem?_map, List.getElem?_map]
  by_cases hi : i < cells.length
  · rw [List.getElem?_range hi, List.getElem?_eq_getElem hi, Option.map_some, Option.map_some,
      CountHtArgs.val, plainColumn, List.getD_eq_getElem?_getD, List.getElem?_eq_getElem hi,
      Option.getD_some]
  · rw [List.getElem?_eq_none (by simpa using hi), List.getElem?_eq_none (by omega)]
    rfl

lemma card_map_ofInt (h : CellsFit fldtype cells) :
    (cells.map (BitVec.ofInt 64)).toFinset.card = cells.toFinset.card := by
  have himage : (cells.map (BitVec.ofInt 64)).toFinset = cells.toFinset.image (BitVec.ofInt 64) := by
    ext v
    simp
  rw [himage, Finset.card_image_of_injOn]
  intro a ha b hb hab
  rw [← h.toInt (List.mem_toFinset.mp ha), ← h.toInt (List.mem_toFinset.mp hb), hab]

lemma count_map_ofInt (h : CellsFit fldtype cells) {v : Int} (hv : v ∈ cells) :
    (cells.map (BitVec.ofInt 64)).count (BitVec.ofInt 64 v) = cells.count v := by
  rw [List.count, List.countP_map]
  apply List.countP_congr
  intro w hw
  simp only [Function.comp_apply, beq_iff_eq]
  constructor
  · intro heq
    rw [← h.toInt hw, ← h.toInt hv, heq]
  · rintro rfl
    rfl

/-- The table at the end has all values. -/
lemma scanRows_plainColumn (h : CellsFit fldtype cells) (hnR : cells.length < 2 ^ 31) {szHt : Nat}
    (hroom : cells.toFinset.card ≤ szHt / 2) (hpos : 0 < szHt) (mix : BitVec 64 → BitVec 32) :
    ∃ t, scanRows szHt mix (plainColumn fldtype cells) = (List.range cells.length, some t) ∧
      Grouped mix t (cells.map (BitVec.ofInt 64)) := by
  have hlen : (setupCountTbl szHt).ht.length = szHt := List.length_replicate
  rw [scanRows_eq h.hasVal hnR, rows_plainColumn]
  rcases (grouped_setup mix szHt).insertRows_spec (by rw [hlen]; exact hpos) (Nat.zero_le _)
    (plainColumn fldtype cells).val (List.range cells.length) with
    ⟨t, hrun, hgrouped, -, -⟩ | ⟨pre, i, post, hrows, -, -, hlt⟩
  · refine ⟨t, hrun, ?_⟩
    rwa [List.nil_append, map_val_plainColumn] at hgrouped
  · exfalso
    rw [List.nil_append, hlen] at hlt
    have hsub : ((pre ++ [i]).map (plainColumn fldtype cells).val).toFinset ⊆
        (cells.map (BitVec.ofInt 64)).toFinset := by
      have hval : (List.range cells.length).map (plainColumn fldtype cells).val =
          cells.map (BitVec.ofInt 64) := map_val_plainColumn
      intro v hv
      rw [← hval, hrows]
      simp only [List.mem_toFinset, List.map_append, List.mem_append, List.map_cons,
        List.map_nil, List.mem_cons] at hv ⊢
      tauto
    have hcard := Finset.card_le_card hsub
    rw [card_map_ofInt h] at hcard
    omega

/-! ### The output -/

/-- The count that is written out for a value. -/
def countFor (cells : List Int) (v : Int) : Int := cells.count v + if v = 0 then 1 else 0

/-- A count is written out as it is. -/
lemma countOut_eq {maxCount cnt : Nat} (hle : cnt ≤ max maxCount 1) (hlt : cnt ≤ 2 ^ 31) :
    countOut maxCount cnt = cnt := by
  unfold countOut
  split_ifs with hmax
  · exact CInt.wrap_of_mem (by omega) (by omega)
  · exact CInt.wrap_of_mem (by omega) (by omega)

lemma extraCount_ofInt (h : CellsFit fldtype cells) {v : Int} (hv : v ∈ cells) :
    (extraCount (BitVec.ofInt 64 v) : Int) = if v = 0 then 1 else 0 := by
  have hzero : BitVec.ofInt 64 v = 0 ↔ v = 0 := by
    constructor
    · intro heq
      rw [← h.toInt hv, heq]
      rfl
    · rintro rfl
      rfl
  rw [extraCount]
  by_cases hv0 : v = 0
  · rw [if_pos (hzero.mpr hv0), if_pos hv0]
    rfl
  · rw [if_neg (fun heq => hv0 (hzero.mp heq)), if_neg hv0]
    rfl

/-- One row for every value, with its count. -/
lemma countHt_eq (h : CellsFit fldtype cells) (hnR : cells.length < 2 ^ 31) {szHt : Nat}
    (hroom : cells.toFinset.card ≤ szHt / 2) (hpos : 0 < szHt) (mix : BitVec 64 → BitVec 32) :
    ∃ rows, countHt szHt mix (plainColumn fldtype cells) = some rows ∧
      rows.Perm (cells.dedup.map fun v => (v, countFor cells v)) := by
  obtain ⟨t, hrun, hgrouped⟩ := scanRows_plainColumn h hnR hroom hpos mix
  -- what is written out for a record depends on its key
  have hout : ∀ rec ∈ t.recs,
      (valueOut fldtype rec.key).map (·, countOut t.maxCount rec.cnt) =
        some (rec.key.toInt, countFor cells rec.key.toInt) := by
    intro rec hrec
    obtain ⟨hmem, hcnt⟩ := mem_recs.mp hrec
    obtain ⟨p, hp⟩ := List.mem_iff_getElem?.mp hmem
    obtain ⟨hkey, hcount, -⟩ := hgrouped.occupied p rec hp hcnt
    obtain ⟨v, hv, hvkey⟩ := List.mem_map.mp hkey
    have hle : cells.count v ≤ cells.length := List.count_le_length
    have hextra : extraCount (BitVec.ofInt 64 v) ≤ 1 := by
      unfold extraCount
      split_ifs <;> omega
    rw [← hvkey] at hcount ⊢
    rw [count_map_ofInt h hv] at hcount
    rw [h.valueOut hv, Option.map_some, h.toInt hv,
      countOut_eq (hgrouped.maxCount rec hmem) (by omega), hcount, countFor, Nat.cast_add,
      extraCount_ofInt h hv]
  have hkeys : (t.recs.map fun rec => rec.key.toInt).Perm cells.dedup := by
    have hnodup : (t.recs.map fun rec => rec.key.toInt).Nodup := by
      have hmap := hgrouped.nodup_keys.map (f := BitVec.toInt) fun a b hab => BitVec.eq_of_toInt_eq hab
      rwa [List.map_map] at hmap
    refine (List.perm_ext_iff_of_nodup hnodup cells.nodup_dedup).mpr fun v => ?_
    rw [List.mem_dedup]
    constructor
    · intro hv
      obtain ⟨rec, hrec, rfl⟩ := List.mem_map.mp hv
      obtain ⟨w, hw, hkey⟩ := List.mem_map.mp (hgrouped.mem_keys.mp (List.mem_map_of_mem hrec))
      rwa [← hkey, h.toInt hw]
    · intro hv
      obtain ⟨rec, hrec, hkey⟩ := List.mem_map.mp (hgrouped.mem_keys.mpr (List.mem_map_of_mem hv))
      exact List.mem_map.mpr ⟨rec, hrec, by rw [hkey, h.toInt hv]⟩
  refine ⟨t.recs.map fun rec => (rec.key.toInt, countFor cells rec.key.toInt), ?_, ?_⟩
  · have hrecs := mapM_eq_some_map hout
    unfold countHt
    rw [hrun]
    dsimp only
    by_cases hzero : t.nHt = 0
    · rw [if_pos hzero]
      have hnil : t.recs = [] := List.eq_nil_of_length_eq_zero (hgrouped.length_recs.trans hzero)
      rw [hnil]
      rfl
    · rw [if_neg hzero, if_neg (by rw [hgrouped.length_recs]; exact not_not.mpr rfl)]
      exact hrecs
  · have hmap := hkeys.map fun v => (v, countFor cells v)
    rwa [List.map_map] at hmap

lemma countHt_nil (szHt : Nat) (mix : BitVec 64 → BitVec 32) :
    countHt szHt mix (plainColumn fldtype []) = some [] := by
  have hn : numCountHtBlocks (plainColumn fldtype []).cells.length = some 0 := by
    show numCountHtBlocks 0 = some 0
    decide
  rw [countHt, scanRows, hn]
  rfl

/-- The last block starts beyond what an `int` holds. -/
lemma countHt_long (hnR : 2 ^ 31 ≤ cells.length) (szHt : Nat) (mix : BitVec 64 → BitVec 32) :
    countHt szHt mix (plainColumn fldtype cells) = none := by
  unfold countHt scanRows
  rw [show (plainColumn fldtype cells).cells = cells from rfl, numCountHtBlocks_eq_none hnR]

end

/-- One row for every distinct value, with the number of its occurrences. -/
def GroupsExactly (cells : List Int) (result : Option (List (Int × Int))) : Prop :=
  ∃ rows, result = some rows ∧ rows.Perm (cells.dedup.map fun v => (v, (cells.count v : Int)))

/-- The groups are exact if 0, the key of a slot without a value, does not occur. -/
theorem countHt_groups_iff {fldtype : FldType} {cells : List Int} (h : CellsFit fldtype cells)
    {szHt : Nat} (hroom : cells.toFinset.card ≤ szHt / 2) (mix : BitVec 64 → BitVec 32) :
    GroupsExactly cells (countHt szHt mix (plainColumn fldtype cells)) ↔
      cells.length < 2 ^ 31 ∧ 0 ∉ cells := by
  by_cases hnil : cells = []
  · subst hnil
    rw [countHt_nil]
    exact iff_of_true ⟨[], rfl, List.Perm.refl []⟩ ⟨by decide, List.not_mem_nil⟩
  have hpos : 0 < szHt := by
    have hcard : cells.toFinset.card ≠ 0 := by
      rwa [Ne, Finset.card_eq_zero, List.toFinset_eq_empty_iff]
    omega
  by_cases hnR : cells.length < 2 ^ 31
  · obtain ⟨rows, hrows, hperm⟩ := countHt_eq h hnR hroom hpos mix
    rw [hrows]
    constructor
    · rintro ⟨rows', hrows', hexact⟩
      obtain rfl := Option.some.inj hrows'
      refine ⟨hnR, fun hzero => ?_⟩
      have hmem : (0, countFor cells 0) ∈ rows :=
        hperm.mem_iff.mpr (List.mem_map.mpr ⟨0, List.mem_dedup.mpr hzero, rfl⟩)
      obtain ⟨v, -, hv⟩ := List.mem_map.mp (hexact.mem_iff.mp hmem)
      obtain ⟨rfl, hcount⟩ := Prod.mk.inj hv
      rw [countFor, if_pos rfl] at hcount
      omega
    · rintro ⟨-, hzero⟩
      refine ⟨rows, rfl, ?_⟩
      have hsame : cells.dedup.map (fun v => (v, countFor cells v)) =
          cells.dedup.map fun v => (v, (cells.count v : Int)) := by
        refine List.map_congr_left fun v hv => ?_
        have hne : v ≠ 0 := by
          rintro rfl
          exact hzero (List.mem_dedup.mp hv)
        rw [countFor, if_neg hne, Int.add_zero]
      rwa [hsame] at hperm
  · rw [countHt_long (not_lt.mp hnR)]
    refine iff_of_false ?_ fun hcond => hnR hcond.1
    rintro ⟨rows, hrows, -⟩
    cases hrows

/-- Three values, two of them equal. -/
theorem countHt_groups_three_values :
    GroupsExactly [5, 7, 5] (countHt countHtSize mixI8 (plainColumn .I4 [5, 7, 5])) :=
  (countHt_groups_iff (by unfold CellsFit; decide) (by decide) mixI8).mpr (by decide)

/-- The value 0 is counted twice when it is new. -/
theorem not_countHt_groups_zero :
    ¬ GroupsExactly [0] (countHt countHtSize mixI8 (plainColumn .I4 [0])) := by
  obtain ⟨rows, hrows, hperm⟩ := countHt_eq
    (show CellsFit .I4 [0] by unfold CellsFit; decide) (by decide)
    (show ([0] : List Int).toFinset.card ≤ countHtSize / 2 by decide) (by decide) mixI8
  rw [hrows]
  rintro ⟨rows', hrows', hexact⟩
  obtain rfl := Option.some.inj hrows'
  have hsame := (hperm.symm.trans hexact).mem_iff (a := (0, 2))
  revert hsame
  decide

end Datacl
