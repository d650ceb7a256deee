import Mathlib.Data.List.GetD
import Datacl.Vec.BitColumn

/-!
# Rows to bits and back

`conv_I1_to_B` and `conv_B_to_I1` with their two loops, one over the groups of eight rows and one
over the rows that are left, and with the checks of the indices after them. The number of entries
written to `Y` is `yindex`. A read outside of `X`, a loop that is out of fuel and a failed check
give `none`.
-/

namespace Datacl

open Words

/-! ### The loops -/

/-- The inner loop of `conv_I1_to_B`, with `steps` rounds to go. -/
def packGroup (X : List Byte) : Nat → Nat → Nat → BitVec 32 → Option (Nat × BitVec 32)
  | 0, _, xindex, uiy => some (xindex, uiy)
  | steps + 1, j, xindex, uiy => do
    let uix ← X[xindex]?
    packGroup X steps (j + 1) (xindex + 1) (uiy ||| (uix.signExtend 32 <<< j))

/-- The outer loops of `conv_I1_to_B`: a byte for each group of `group` rows, up to row `bound`. -/
def packGroups (X : List Byte) (group bound : Nat) :
    Nat → Nat × List Byte → Option (Nat × List Byte)
  | 0, (xindex, Y) => if xindex < bound then none else some (xindex, Y)
  | fuel + 1, (xindex, Y) =>
    if xindex < bound then do
      let (xindex, uiy) ← packGroup X group 0 xindex 0
      packGroups X group bound fuel (xindex, Y ++ [uiy.setWidth 8])
    else some (xindex, Y)

/-- `conv_I1_to_B` for `nX` rows. -/
def convI1toBRun (X : List Byte) (nX : Nat) : Option (List Byte) := do
  let n := nX / 8 * 8
  let (xindex, Y) ← packGroups X 8 n nX (0, [])
  let leftover := nX - n
  let (xindex, Y) ← packGroups X leftover nX nX (xindex, Y)
  if xindex ≠ nX then none
  else
    let chkYindex := if n ≠ nX then nX / 8 + 1 else nX / 8
    if Y.length ≠ chkYindex then none else some Y

/-- The outer loops of `conv_B_to_I1`: `group` rows for each byte, up to row `bound`. -/
def unpackGroups (X : List Byte) (group bound : Nat) :
    Nat → Nat × List Byte → Option (Nat × List Byte)
  | 0, (xindex, Y) => if Y.length < bound then none else some (xindex, Y)
  | fuel + 1, (xindex, Y) =>
    if Y.length < bound then do
      let uix ← X[xindex]?
      unpackGroups X group bound fuel (xindex + 1, Y ++ unpackByte group uix)
    else some (xindex, Y)

/-- `conv_B_to_I1` for `nX` rows. -/
def convBtoI1Run (X : List Byte) (nX : Nat) : Option (List Byte) := do
  let n := nX / 8 * 8
  let (xindex, Y) ← unpackGroups X 8 n nX (0, [])
  if xindex ≠ Y.length / 8 then none
  else
    let leftover := nX - n
    let (_, Y) ← unpackGroups X leftover nX nX (xindex, Y)
    if Y.length ≠ nX then none else some Y

/-! ### What the loops write -/

section

variable {X : List Byte} {group bound fuel xindex m nX : Nat}

lemma packGroup_eq {steps : Nat} (h : xindex + steps ≤ X.length) (j : Nat) (uiy : BitVec 32) :
    packGroup X steps j xindex uiy =
      some (xindex + steps, packLoop j uiy ((X.drop xindex).take steps)) := by
  induction steps generalizing j xindex uiy with
  | zero => rw [packGroup, List.take_zero, packLoop, Nat.add_zero]
  | succ steps ih =>
    have hlt : xindex < X.length := by omega
    have hnext : xindex + 1 + steps ≤ X.length := by omega
    have hsum : xindex + 1 + steps = xindex + (steps + 1) := by omega
    rw [packGroup, List.getElem?_eq_getElem hlt, Option.bind_eq_bind, Option.bind_some, ih hnext,
      List.drop_eq_getElem_cons hlt, List.take_succ_cons, packLoop, hsum]

lemma packGroups_step (hlt : xindex < bound) (hrows : xindex + group ≤ X.length) (Y : List Byte) :
    packGroups X group bound (fuel + 1) (xindex, Y) = packGroups X group bound fuel
      (xindex + group, Y ++ [packByte ((X.drop xindex).take group)]) := by
  rw [packGroups, if_pos hlt, packGroup_eq hrows]
  rfl

lemma packGroups_eq (hgroup : 0 < group) (hbound : xindex + group * m = bound)
    (hX : bound ≤ X.length) (hfuel : m ≤ fuel) (Y : List Byte) :
    packGroups X group bound fuel (xindex, Y) = some (bound, Y ++
      (List.range m).map fun k => packByte ((X.drop (xindex + group * k)).take group)) := by
  induction m generalizing xindex Y fuel with
  | zero =>
    have hend : xindex = bound := by omega
    cases fuel <;> simp [packGroups, hend]
  | succ m ih =>
    rw [Nat.mul_succ] at hbound
    obtain ⟨fuel, rfl⟩ : ∃ f, fuel = f + 1 := ⟨fuel - 1, by omega⟩
    have hlt : xindex < bound := by omega
    have hrows : xindex + group ≤ X.length := by omega
    have hnext : xindex + group + group * m = bound := by omega
    rw [packGroups_step hlt hrows, ih hnext (by omega), List.range_succ_eq_map, List.map_cons,
      List.map_map, List.append_assoc, List.singleton_append, Nat.mul_zero, Nat.add_zero]
    congr 4
    refine List.map_congr_left fun k _ => ?_
    rw [Function.comp_apply, Nat.mul_succ, Nat.add_assoc, Nat.add_comm group]

/-- The loops write what the function was seen to write above. -/
lemma convI1toBRun_eq (X : List Byte) : convI1toBRun X X.length = convI1toB X := by
  have hn : 0 + 8 * (X.length / 8) = X.length / 8 * 8 := by omega
  rw [convI1toBRun, packGroups_eq (by omega) hn (by omega) (by omega)]
  simp only [Option.bind_eq_bind, Option.bind_some, List.nil_append, Nat.zero_add]
  by_cases hrest : X.length / 8 * 8 < X.length
  · have hlast : X.length / 8 * 8 + (X.length - X.length / 8 * 8) * 1 = X.length := by omega
    have htake : (X.drop (X.length / 8 * 8)).take (X.length - X.length / 8 * 8) =
        X.drop (X.length / 8 * 8) := by
      apply List.take_of_length_le
      rw [List.length_drop]
    rw [packGroups_eq (by omega) hlast le_rfl (by omega), Option.bind_some]
    simp only [List.range_one, List.map_singleton, Nat.mul_zero, Nat.add_zero, htake]
    rw [convI1toB, if_pos hrest, if_neg (not_not.mpr rfl)]
  · have hend : X.length / 8 * 8 = X.length := by omega
    have hstop : ∀ Y, packGroups X (X.length - X.length / 8 * 8) X.length X.length
        (X.length / 8 * 8, Y) = some (X.length, Y) := by
      intro Y
      cases hX : X.length with
      | zero => simp [packGroups]
      | succ l => rw [packGroups, if_neg (by omega), ← hX, hend]
    rw [hstop, Option.bind_some, if_neg (not_not.mpr rfl), convI1toB, if_neg hrest,
      List.append_nil]

lemma length_unpackByte (n : Nat) (uix : Byte) : (unpackByte n uix).length = n := by
  rw [unpackByte_eq, List.length_map, List.length_range]

lemma unpackGroups_eq {Y : List Byte} (hgroup : 0 < group) (hbound : Y.length + group * m = bound)
    (hX : xindex + m ≤ X.length) (hfuel : m ≤ fuel) :
    unpackGroups X group bound fuel (xindex, Y) = some (xindex + m, Y ++
      (List.range m).flatMap fun k => unpackByte group (X.getD (xindex + k) 0)) := by
  induction m generalizing xindex Y fuel with
  | zero =>
    have hend : Y.length = bound := by omega
    cases fuel <;> simp [unpackGroups, hend]
  | succ m ih =>
    rw [Nat.mul_succ] at hbound
    obtain ⟨fuel, rfl⟩ : ∃ f, fuel = f + 1 := ⟨fuel - 1, by omega⟩
    have hlt : Y.length < bound := by omega
    have hread : X[xindex]? = some (X.getD xindex 0) := by
      rw [List.getD_eq_getElem?_getD, List.getElem?_eq_getElem (by omega), Option.getD_some]
    have hnext : (Y ++ unpackByte group (X.getD xindex 0)).length + group * m = bound := by
      rw [List.length_append, length_unpackByte]
      omega
    rw [unpackGroups, if_pos hlt, hread, Option.bind_eq_bind, Option.bind_some,
      ih hnext (by omega) (by omega), List.range_succ_eq_map, List.flatMap_cons, List.flatMap_map,
      List.append_assoc, Nat.add_zero, Nat.add_assoc, Nat.add_comm 1 m]
    congr 5
    funext k
    rw [Nat.add_assoc, Nat.add_comm 1 k]

lemma convBtoI1Run_eq (hX : X.length = (nX + 7) / 8) : convBtoI1Run X nX = convBtoI1 X nX := by
  have hn : ([] : List Byte).length + 8 * (nX / 8) = nX / 8 * 8 := by
    rw [List.length_nil]
    omega
  have hlen : ((List.range (nX / 8)).flatMap fun k => unpackByte 8 (X.getD k 0)).length =
      8 * (nX / 8) := by
    rw [flatMap_unpackByte, List.length_map, List.length_range]
  rw [convBtoI1Run, unpackGroups_eq (by omega) hn (by omega) (by omega)]
  simp only [Option.bind_eq_bind, Option.bind_some, List.nil_append, Nat.zero_add, hlen]
  rw [if_neg (by omega), convBtoI1]
  by_cases hrest : nX / 8 * 8 < nX
  · have hlast : ((List.range (nX / 8)).flatMap fun k => unpackByte 8 (X.getD k 0)).length +
        (nX - nX / 8 * 8) * 1 = nX := by omega
    rw [unpackGroups_eq (by omega) hlast (by omega) (by omega), Option.bind_some]
    simp only [List.range_one, List.flatMap_singleton, Nat.add_zero]
  · have hnone : nX - nX / 8 * 8 = 0 := by omega
    have hstop : ∀ p : Nat × List Byte, nX ≤ p.2.length →
        unpackGroups X (nX - nX / 8 * 8) nX nX p = some p := by
      rintro ⟨xindex, Y⟩ hY
      cases nX with
      | zero => simp [unpackGroups]
      | succ l => exact if_neg (by simpa using hY)
    rw [hstop _ (by rw [hlen]; omega), Option.bind_some, hnone, unpackByte, List.append_nil]

end

/-! ### There and back -/

lemma length_packed (X : List Byte) : (packed X).length = (X.length + 7) / 8 := by
  rw [packed]
  split_ifs <;> simp <;> omega

lemma bitAt_packed_of_ge {X : List Byte} (hX : IsFlags X) {i : Nat} (hi : X.length ≤ i) :
    bitAt (packed X) i = false := by
  have hlen := length_packed X
  by_cases hbyte : i / 8 < (packed X).length
  · have hbit : i % 8 < 8 := Nat.mod_lt _ (by omega)
    have hlast : i / 8 = X.length / 8 := by omega
    have hrest : X.length / 8 * 8 < X.length := by omega
    have hout : (X.drop (X.length / 8 * 8)).length ≤ i % 8 := by
      rw [List.length_drop]
      omega
    rw [bitAt, packed, List.getD_eq_getElem?_getD, List.getElem?_append_right (by simp; omega),
      if_pos hrest, List.length_map, List.length_range, hlast, Nat.sub_self,
      List.getElem?_cons_zero, Option.getD_some, getLsbD_packByte (hX.drop _) hbit,
      List.getD_eq_default _ _ hout]
    decide
  · rw [bitAt, List.getD_eq_default _ _ (by omega)]
    exact BitVec.getLsbD_zero

lemma eq_of_bitAt {A B : List Byte} (hlen : A.length = B.length)
    (h : ∀ i, bitAt A i = bitAt B i) : A = B := by
  refine List.ext_getElem hlen fun k hA hB => ?_
  refine BitVec.eq_of_getLsbD_eq fun j hj => ?_
  have hdiv : (8 * k + j) / 8 = k := by omega
  have hmod : (8 * k + j) % 8 = j := by omega
  have hbit := h (8 * k + j)
  rwa [bitAt, bitAt, hdiv, hmod, List.getD_eq_getElem _ _ hA, List.getD_eq_getElem _ _ hB] at hbit

lemma flagOf_isFlag (b : Bool) : flagOf b = 0 ∨ flagOf b = 1 := by
  cases b <;> decide

lemma flagOf_decide {x : Byte} (hx : x = 0 ∨ x = 1) : flagOf (decide (x = 1)) = x := by
  rcases hx with rfl | rfl <;> decide

lemma convBtoI1Run_packed {X : List Byte} (hX : IsFlags X) :
    convBtoI1Run (packed X) X.length = some X := by
  rw [convBtoI1Run_eq (length_packed X), convBtoI1_eq]
  congr 1
  refine List.ext_getElem (by simp) fun i _ hi => ?_
  rw [List.getElem_map, List.getElem_range, bitAt_packed hX hi, List.getD_eq_getElem _ _ hi,
    flagOf_decide (hX _ (List.getElem_mem hi))]

/-- The rows that `conv_B_to_I1` reads from some bytes. -/
def rowsOf (B : List Byte) (nX : Nat) : List Byte := (List.range nX).map fun i => flagOf (bitAt B i)

@[simp] lemma length_rowsOf (B : List Byte) (nX : Nat) : (rowsOf B nX).length = nX := by
  rw [rowsOf, List.length_map, List.length_range]

lemma isFlags_rowsOf (B : List Byte) (nX : Nat) : IsFlags (rowsOf B nX) := by
  intro x hx
  obtain ⟨i, -, rfl⟩ := List.mem_map.mp hx
  exact flagOf_isFlag _

lemma packed_rowsOf {B : List Byte} {nX : Nat} (hB : B.length = (nX + 7) / 8)
    (hhigh : ∀ i, nX ≤ i → bitAt B i = false) : packed (rowsOf B nX) = B := by
  apply eq_of_bitAt
  · rw [length_packed, length_rowsOf, hB]
  · intro i
    by_cases hi : i < nX
    · have hrow : (rowsOf B nX).getD i 0 = flagOf (bitAt B i) := by
        rw [List.getD_eq_getElem _ _ (by simpa using hi)]
        simp [rowsOf]
      rw [bitAt_packed (isFlags_rowsOf B nX) (by simpa using hi), hrow]
      cases bitAt B i <;> decide
    · rw [bitAt_packed_of_ge (isFlags_rowsOf B nX) (by simpa using hi), hhigh i (by omega)]

/-- The two conversions undo each other: on every column of flags, and on all bytes of the right
number whose unused bits are off. -/
theorem conv_roundTrip :
    (∀ X, IsFlags X → ∃ B, convI1toBRun X X.length = some B ∧ B.length = (X.length + 7) / 8 ∧
      convBtoI1Run B X.length = some X) ∧
    (∀ nX B, B.length = (nX + 7) / 8 → (∀ i, nX ≤ i → bitAt B i = false) →
      ∃ X, convBtoI1Run B nX = some X ∧ X.length = nX ∧ convI1toBRun X nX = some B) := by
  constructor
  · intro X hX
    refine ⟨packed X, ?_, length_packed X, convBtoI1Run_packed hX⟩
    rw [convI1toBRun_eq, convI1toB_eq]
  · intro nX B hB hhigh
    refine ⟨rowsOf B nX, ?_, length_rowsOf B nX, ?_⟩
    · rw [convBtoI1Run_eq hB, convBtoI1_eq, rowsOf]
    · have hrun := convI1toBRun_eq (rowsOf B nX)
      rw [length_rowsOf] at hrun
      rw [hrun, convI1toB_eq, packed_rowsOf hB hhigh]

theorem conv_roundTrip_nine_rows :
    (∃ B, convI1toBRun [1, 0, 0, 0, 0, 0, 0, 1, 1] 9 = some B ∧ B.length = 2 ∧
      convBtoI1Run B 9 = some [1, 0, 0, 0, 0, 0, 0, 1, 1]) ∧
    ∃ X, convBtoI1Run [0x81] 8 = some X ∧ X.length = 8 ∧ convI1toBRun X 8 = some [0x81] := by
  refine ⟨conv_roundTrip.1 [1, 0, 0, 0, 0, 0, 0, 1, 1] (by unfold IsFlags; decide),
    conv_roundTrip.2 8 [0x81] (by decide) fun i hi => ?_⟩
  have hbyte : [(0x81 : Byte)].length ≤ i / 8 := by
    rw [List.length_singleton]
    omega
  rw [bitAt, List.getD_eq_default _ _ hbyte]
  exact BitVec.getLsbD_zero

end Datacl
