import Datacl.Compound.CountAgreement

/-!
# When the counters are right

Source columns of one value show which rows a statement loses, or adds to another counter.
-/

namespace Datacl

open Tally

section

variable {numCores : Nat} {st : CountStmt} {src : List Int} {n b : Nat}

/-- A source column of one value. -/
def CountStmt.constSrc (st : CountStmt) (v : Int) : List Int := st.fk.map fun _ => v

lemma constSrc_fits {v : Int} (h : -2 ^ 31 ≤ v ∧ v < 2 ^ 31 ∨ st.srcType = some .I8 ∧ v = 2 ^ 32) :
    st.SrcFits (st.constSrc v) := by
  refine ⟨List.length_map _, fun x hx => ?_⟩
  obtain ⟨k, -, rfl⟩ := List.mem_map.mp hx
  rcases h with h | ⟨h8, rfl⟩
  · exact ⟨by omega, by omega, fun _ => h⟩
  · rw [h8]
    exact ⟨by decide, by decide, fun h => by cases h⟩

/-- What the counters are made of if they are right. -/
structure Agrees (numCores : Nat) (st : CountStmt) (src : List Int) (n : Nat) : Prop where
  fit : KeysFit st.dstNR (castKeys ((List.range n).flatMap (blockEntries numCores st src n)))
  totals : ∀ j : Nat, j < st.dstNR →
    total (castKeys ((List.range n).flatMap (blockEntries numCores st src n))) j =
      total (taken (· ≠ 0) (st.rows src)) j

lemma CountsRight.agrees (hwf : st.WellFormed) (h : CountsRight numCores st)
    (hn : numCompBlocks st.fk.length = some n) (hle : n ≤ 2048) (hsrc : st.SrcFits src) :
    Agrees numCores st src n := by
  have hexec := h src hsrc
  rw [execCount_eq hwf hn hle, countLoop_eq_some, List.length_replicate, addTotals_replicate_zero,
    countSpec] at hexec
  refine ⟨hexec.1, fun j hj => ?_⟩
  exact (List.map_inj_left.mp hexec.2 j (List.mem_range.mpr hj)).symm

/-- The values that are added have the same sum. -/
lemma Agrees.sum_eq (hwf : st.WellFormed) (h : Agrees numCores st src n) :
    (((List.range n).flatMap (blockEntries numCores st src n)).map Prod.snd).sum =
      ((taken (· ≠ 0) (st.rows src)).map Prod.snd).sum := by
  have hcast : (castKeys ((List.range n).flatMap (blockEntries numCores st src n))).map Prod.snd =
      ((List.range n).flatMap (blockEntries numCores st src n)).map Prod.snd := by
    rw [castKeys, List.map_map]
    rfl
  rw [← hcast, ← sum_total h.fit, ← sum_total fun e he => hwf.keys e.1 (key_mem_of_taken he)]
  exact Finset.sum_congr rfl fun j hj => h.totals j (Finset.mem_range.mp hj)

/-! ### Numbers of entries -/

/-- The selected rows of a block. -/
def blockSelected (st : CountStmt) (src : List Int) (n b : Nat) : List (Int × Int) :=
  taken (· ≠ 0) (blockOf (st.rows src) compExprBlockSize n b)

lemma flatMap_blockSelected (hn : 0 < n) :
    (List.range n).flatMap (blockSelected st src n) = taken (· ≠ 0) (st.rows src) :=
  flatMap_taken_blocks _ _ hn

lemma length_taken {p : Int → Bool} {xs : List (Int × Int)} {cs : List Int}
    (h : xs.length = cs.length) : (taken p (xs.zip cs)).length = cs.countP p := by
  induction xs generalizing cs with
  | nil =>
    obtain rfl := List.length_eq_zero_iff.mp h.symm
    rfl
  | cons x xs ih =>
    cases cs with
    | nil => cases h
    | cons c cs =>
      have ih := ih (Nat.succ.inj h)
      rw [taken] at ih ⊢
      rw [List.zip_cons_cons, List.flatMap_cons, List.length_append, ih, List.countP_cons]
      by_cases hp : p c = true
      · simp [hp, Nat.add_comm]
      · simp [hp]

lemma length_readInts (t : FldType) (cells : List Int) : cells.length ≤ (readInts t cells).length := by
  unfold readInts
  split_ifs
  · rw [List.length_flatMap]
    simp
    omega
  · exact le_rfl

lemma length_readChars (t : FldType) (cells : List Int) :
    cells.length ≤ (readChars t cells).length := by
  unfold readChars
  rw [List.length_flatMap]
  simp
  split_ifs <;> omega

/-- The columns that the counter of a block is given have one cell for each row. -/
lemma length_blockColumns {nT : Nat} {srcB fk : List Int} (h : srcB.length = fk.length) :
    ((blockKeys nT st srcB fk).zip (blockVals st srcB fk)).length = fk.length := by
  have hchars : ∀ t, fk.length ≤ (readChars t srcB).length :=
    fun t => h.symm.le.trans (length_readChars t srcB)
  have hints : ∀ t, fk.length ≤ (readInts t srcB).length :=
    fun t => h.symm.le.trans (length_readInts t srcB)
  rw [List.length_zip, blockKeys, blockVals]
  cases st.srcType with
  | none => simp
  | some t =>
    dsimp only
    split_ifs <;> simp [hchars t, hints t]

lemma length_blockEntries (hwf : st.WellFormed) (hsrc : st.SrcFits src) :
    (blockEntries numCores st src n b).length =
      (blockOf st.conds compExprBlockSize n b).countP (condTest (blockNT numCores st n b)) := by
  unfold blockEntries
  apply length_taken
  rw [length_blockColumns (length_blockOf hsrc.length), length_blockOf hwf.conds]

lemma length_blockSelected (hwf : st.WellFormed) (hsrc : st.SrcFits src) :
    (blockSelected st src n b).length =
      (blockOf st.conds compExprBlockSize n b).countP (· ≠ 0) := by
  unfold blockSelected
  rw [blockOf_rows hwf hsrc]
  apply length_taken
  rw [List.length_zip, length_blockOf (length_vals hsrc), length_blockOf hwf.conds, Nat.min_self]

/-- A block adds no more entries than it has selected rows. -/
lemma length_blockEntries_le (hwf : st.WellFormed) (hsrc : st.SrcFits src) :
    (blockEntries numCores st src n b).length ≤ (blockSelected st src n b).length := by
  rw [length_blockEntries hwf hsrc, length_blockSelected hwf hsrc]
  apply List.countP_mono_left
  intro c _ hc
  exact decide_eq_true (ne_zero_of_condTest hc)

/-- A block loses the selected rows that its counter does not take. -/
lemma length_blockEntries_lt (hwf : st.WellFormed) (hsrc : st.SrcFits src) {c : Int}
    (hc : c ∈ blockOf st.conds compExprBlockSize n b) (h0 : c ≠ 0)
    (hlost : condTest (blockNT numCores st n b) c = false) :
    (blockEntries numCores st src n b).length < (blockSelected st src n b).length := by
  rw [length_blockEntries hwf hsrc, length_blockSelected hwf hsrc]
  obtain ⟨l₁, l₂, heq⟩ := List.append_of_mem hc
  have hmono : ∀ l : List Int, l.countP (condTest (blockNT numCores st n b)) ≤ l.countP (· ≠ 0) :=
    fun l => List.countP_mono_left fun c _ hc => decide_eq_true (ne_zero_of_condTest hc)
  have h₁ := hmono l₁
  have h₂ := hmono l₂
  rw [heq, List.countP_append, List.countP_append, List.countP_cons, List.countP_cons,
    if_neg (by rw [hlost]; decide), if_pos (decide_eq_true h0)]
  omega

/-- An entry of the selected rows of a block comes from a row. -/
lemma exists_row_of_blockSelected (hwf : st.WellFormed) (hsrc : st.SrcFits src) {e : Int × Int}
    (h : e ∈ blockSelected st src n b) :
    ∃ r ∈ blockOf (st.fk.zip st.conds) compExprBlockSize n b, r.1 = e.1 ∧ r.2 ≠ 0 := by
  obtain ⟨c, hc, h0⟩ := mem_taken.mp h
  rw [blockOf_rows hwf hsrc] at hc
  refine ⟨(e.1, c), ?_, rfl, of_decide_eq_true h0⟩
  rw [blockOf_zip hwf.conds]
  exact mem_zip_of_mem_zip_zip hc

/-! ### Values of the entries -/

/-- The values of the entries of a block are values that its counter is given. -/
lemma val_mem_of_blockEntries {e : Int × Int} (h : e ∈ blockEntries numCores st src n b) :
    e.2 ∈ blockVals st (blockOf src compExprBlockSize n b) (blockOf st.fk compExprBlockSize n b) := by
  obtain ⟨c, hc, -⟩ := mem_taken.mp h
  exact (List.of_mem_zip (List.of_mem_zip hc).1).2

lemma val_mem_of_taken {p : Int → Bool} {e : Int × Int} (h : e ∈ taken p (st.rows src)) :
    e.2 ∈ st.vals src := by
  obtain ⟨c, hc, -⟩ := mem_taken.mp h
  exact (List.of_mem_zip (List.of_mem_zip hc).1).2

lemma val_eq_of_mem_vals {v x : Int} (hv : st.srcType = none → v = 1)
    (h : x ∈ st.vals (st.constSrc v)) : x = v := by
  rw [CountStmt.vals] at h
  cases ht : st.srcType with
  | none =>
    rw [ht] at h
    obtain ⟨k, -, rfl⟩ := List.mem_map.mp h
    exact (hv ht).symm
  | some t =>
    rw [ht] at h
    obtain ⟨k, -, rfl⟩ := List.mem_map.mp h
    rfl

/-- All selected rows have the value of the column. -/
lemma val_eq_of_selected {v : Int} (hv : st.srcType = none → v = 1) {e : Int × Int}
    (h : e ∈ taken (· ≠ 0) (st.rows (st.constSrc v))) : e.2 = v :=
  val_eq_of_mem_vals hv (val_mem_of_taken h)

/-- With cells of four bytes the entries have the value of the column. -/
lemma val_eq_of_blockEntries {v : Int} (hv : st.srcType = none → v = 1)
    (hsrc : st.SrcFits (st.constSrc v)) (h8 : st.srcType ≠ some .I8) {e : Int × Int}
    (h : e ∈ blockEntries numCores st (st.constSrc v) n b) : e.2 = v := by
  have hmem := val_mem_of_blockEntries h
  rw [blockVals_eq hsrc h8] at hmem
  exact val_eq_of_mem_vals hv (blockOf_subset _ hmem)

lemma sum_map_snd {entries : List (Int × Int)} {v : Int} (h : ∀ e ∈ entries, e.2 = v) :
    (entries.map Prod.snd).sum = v * entries.length := by
  rw [List.map_congr_left h, List.map_const', List.sum_replicate, nsmul_eq_mul, mul_comm]

lemma sum_map_snd_le {entries : List (Int × Int)} (h : ∀ e ∈ entries, e.2 ≤ 1) :
    (entries.map Prod.snd).sum ≤ entries.length := by
  have hle := List.sum_le_card_nsmul (entries.map Prod.snd) 1 (List.forall_mem_map.mpr h)
  rwa [List.length_map, nsmul_eq_mul, mul_one] at hle

/-! ### What the rows need -/

section

variable (hwf : st.WellFormed) (h : CountsRight numCores st)
  (hn : numCompBlocks st.fk.length = some n) (hle : n ≤ 2048) (hb : b < n) {r : Int × Int}
  (hr : r ∈ blockOf (st.fk.zip st.conds) compExprBlockSize n b) (h0 : r.2 ≠ 0)

include hr h0 in
/-- A selected row has an entry. -/
lemma exists_selected (hwf : st.WellFormed) (hsrc : st.SrcFits src) :
    ∃ v, (r.1, v) ∈ blockSelected st src n b := by
  rw [blockOf_zip hwf.conds] at hr
  have hlen : (blockOf (st.vals src) compExprBlockSize n b).length =
      (blockOf st.fk compExprBlockSize n b).length := length_blockOf (length_vals hsrc)
  obtain ⟨v, hv⟩ := exists_mem_zip_zip hlen hr
  refine ⟨v, mem_taken.mpr ⟨r.2, ?_, decide_eq_true h0⟩⟩
  rw [blockOf_rows hwf hsrc]
  exact hv

lemma constSrc_one_fits : st.SrcFits (st.constSrc 1) := constSrc_fits (.inl (by decide))

include hwf h hn hle hb hr h0 in
/-- The counter of the key is not the one of the key cast to an `int`. -/
lemma key_lt : r.1 < 2 ^ 31 := by
  by_contra hge
  have hsrc : st.SrcFits (st.constSrc 1) := constSrc_one_fits
  have hagree := h.agrees hwf hn hle hsrc
  obtain ⟨v, hv⟩ := exists_selected hr h0 hwf hsrc
  have hmem : (r.1, v) ∈ taken (· ≠ 0) (st.rows (st.constSrc 1)) := by
    rw [← flatMap_blockSelected (numCompBlocks_pos hn)]
    exact List.mem_flatMap.mpr ⟨b, List.mem_range.mpr hb, hv⟩
  have hpos : 0 < total (taken (· ≠ 0) (st.rows (st.constSrc 1))) r.1 :=
    total_pos Int.one_pos (fun e he => val_eq_of_selected (fun _ => rfl) he) ⟨_, hmem, rfl⟩
  have hkey : r.1 ∈ st.fk := key_mem_of_taken (e := (r.1, v)) hmem
  obtain ⟨hkey0, hkeyn⟩ := hwf.keys r.1 hkey
  have htotal := hagree.totals r.1.toNat (by omega)
  rw [Int.toNat_of_nonneg hkey0, total_eq_zero] at htotal
  · omega
  · intro e he heq
    obtain ⟨e', -, rfl⟩ := List.mem_map.mp he
    have hwrap : CInt.wrap 32 e'.1 < 2 ^ 31 := CInt.wrap_lt 31 e'.1
    dsimp only at heq
    omega

include hn in
lemma length_taken_rows :
    (taken (· ≠ 0) (st.rows src)).length =
      ((List.range n).map fun b => (blockSelected st src n b).length).sum := by
  rw [← flatMap_blockSelected (numCompBlocks_pos hn), List.length_flatMap]

include hwf h hn hle hb hr h0 in
/-- Of a number of eight bytes a counter adds the four low or the four high bytes. -/
lemma srcType_ne : st.srcType ≠ some .I8 := by
  intro h8
  have hsrc : st.SrcFits (st.constSrc (2 ^ 32)) := constSrc_fits (.inr ⟨h8, rfl⟩)
  have hsum := (h.agrees hwf hn hle hsrc).sum_eq hwf
  have hselected : ((taken (· ≠ 0) (st.rows (st.constSrc (2 ^ 32)))).map Prod.snd).sum =
      2 ^ 32 * (taken (· ≠ 0) (st.rows (st.constSrc (2 ^ 32)))).length :=
    sum_map_snd fun e he => val_eq_of_selected (fun hnone => by rw [h8] at hnone; cases hnone) he
  have hlow : CInt.wrap 32 (2 ^ 32) = 0 := by decide
  have hhigh : CInt.wrap 32 (2 ^ 32 / 2 ^ 32) = 1 := by decide
  have hbits : (((List.range n).flatMap
      (blockEntries numCores st (st.constSrc (2 ^ 32)) n)).map Prod.snd).sum ≤
        ((List.range n).flatMap (blockEntries numCores st (st.constSrc (2 ^ 32)) n)).length := by
    apply sum_map_snd_le
    intro e he
    obtain ⟨b', -, he⟩ := List.mem_flatMap.mp he
    have hmem := val_mem_of_blockEntries he
    rw [blockVals, h8] at hmem
    have hread := List.mem_of_mem_take hmem
    rw [readInts, if_pos rfl] at hread
    obtain ⟨y, hy, hx⟩ := List.mem_flatMap.mp hread
    obtain ⟨k, -, rfl⟩ := List.mem_map.mp (blockOf_subset _ hy)
    rw [hlow, hhigh] at hx
    simp only [List.mem_cons, List.not_mem_nil, or_false] at hx
    omega
  have hlen : ((List.range n).flatMap (blockEntries numCores st (st.constSrc (2 ^ 32)) n)).length ≤
      (taken (· ≠ 0) (st.rows (st.constSrc (2 ^ 32)))).length := by
    rw [length_taken_rows hn, List.length_flatMap]
    apply List.sum_le_sum
    intro b' _
    exact length_blockEntries_le hwf hsrc
  obtain ⟨v, hv⟩ := exists_selected hr h0 hwf hsrc
  have hpos : 0 < (taken (· ≠ 0) (st.rows (st.constSrc (2 ^ 32)))).length := by
    rw [← flatMap_blockSelected (numCompBlocks_pos hn)]
    exact List.length_pos_of_mem (List.mem_flatMap.mpr ⟨b, List.mem_range.mpr hb, hv⟩)
  omega

include hwf h hn hle hb hr h0 in
/-- The counter of a block takes all selected rows. -/
lemma condTest_eq_true : condTest (blockNT numCores st n b) r.2 = true := by
  by_contra hlost
  have hsrc : st.SrcFits (st.constSrc 1) := constSrc_one_fits
  have h8 := srcType_ne hwf h hn hle hb hr h0
  have hsum := (h.agrees hwf hn hle hsrc).sum_eq hwf
  have hselected : ((taken (· ≠ 0) (st.rows (st.constSrc 1))).map Prod.snd).sum =
      1 * (taken (· ≠ 0) (st.rows (st.constSrc 1))).length :=
    sum_map_snd fun e he => val_eq_of_selected (fun _ => rfl) he
  have hentries : (((List.range n).flatMap
      (blockEntries numCores st (st.constSrc 1) n)).map Prod.snd).sum =
        1 * ((List.range n).flatMap (blockEntries numCores st (st.constSrc 1) n)).length := by
    apply sum_map_snd
    intro e he
    obtain ⟨b', -, he⟩ := List.mem_flatMap.mp he
    exact val_eq_of_blockEntries (fun _ => rfl) hsrc h8 he
  have hcond : r.2 ∈ blockOf st.conds compExprBlockSize n b := by
    rw [blockOf_zip hwf.conds] at hr
    exact (List.of_mem_zip hr).2
  have hlen : ((List.range n).flatMap (blockEntries numCores st (st.constSrc 1) n)).length <
      (taken (· ≠ 0) (st.rows (st.constSrc 1))).length := by
    rw [length_taken_rows hn, List.length_flatMap]
    apply List.sum_lt_sum
    · intro b' _
      exact length_blockEntries_le hwf hsrc
    · exact ⟨b, List.mem_range.mpr hb,
        length_blockEntries_lt hwf hsrc hcond h0 (by simpa using hlost)⟩
  omega

include hwf h hn hle hb hr h0 in
/-- Outside the serial counter for a key of one byte every selected row is counted. -/
lemma rowCounted (hcounter : st.fkType = .I1 → st.cfld.isSome →
      blockNT numCores st n b = 1 → st.srcType = none) :
    RowCounted numCores st (blockOf st.fk compExprBlockSize n b).length r.1 r.2 := by
  refine ⟨key_lt hwf h hn hle hb hr h0, srcType_ne hwf h hn hle hb hr h0, fun hfk hcfld => ?_⟩
  have htest := condTest_eq_true hwf h hn hle hb hr h0
  rw [← blockNT_of_cfld (n := n) (b := b) hfk hcfld]
  by_cases h1 : blockNT numCores st n b = 1
  · exact .inr ⟨h1, hcounter hfk hcfld h1⟩
  · rw [condTest, if_neg h1] at htest
    exact .inl ⟨h1, of_decide_eq_true htest⟩

/-- The serial counter takes the bytes of the source column for keys. -/
lemma serial_blockEntries {k v : Int} (hv : ∀ j < 4, CInt.wrap 8 (v / 2 ^ (8 * j)) = k)
    (hsrc : st.SrcFits (st.constSrc v)) (hfk : st.fkType = .I1) (hcfld : st.cfld.isSome)
    (h4 : st.srcType = some .I4) (h1 : blockNT numCores st n b = 1) {e : Int × Int}
    (he : e ∈ blockEntries numCores st (st.constSrc v) n b) : e = (k, v) := by
  have hval : e.2 = v := by
    apply val_eq_of_blockEntries _ hsrc _ he
    · intro hnone
      rw [h4] at hnone
      cases hnone
    · rw [h4]
      decide
  have hkey : e.1 = k := by
    obtain ⟨c, hc, -⟩ := mem_taken.mp he
    have hmem := (List.of_mem_zip (List.of_mem_zip hc).1).1
    rw [blockKeys, h4] at hmem
    dsimp only at hmem
    rw [if_pos ⟨hfk, hcfld, h1⟩] at hmem
    have hread := List.mem_of_mem_take hmem
    rw [readChars, if_neg (by decide)] at hread
    obtain ⟨y, hy, hx⟩ := List.mem_flatMap.mp hread
    obtain ⟨x, -, rfl⟩ := List.mem_map.mp (blockOf_subset _ hy)
    obtain ⟨j, hj, hjx⟩ := List.mem_map.mp hx
    rw [← hjx, hv j (List.mem_range.mp hj)]
  rw [← hkey, ← hval]

lemma castKeys_flatMap {ι : Type} (f : ι → List (Int × Int)) (l : List ι) :
    castKeys (l.flatMap f) = l.flatMap fun i => castKeys (f i) := List.map_flatMap

lemma val_eq_of_blockSelected {v : Int} (hv : st.srcType = none → v = 1) {e : Int × Int}
    (h : e ∈ blockSelected st (st.constSrc v) n b) : e.2 = v := by
  obtain ⟨c, hc, h0⟩ := mem_taken.mp h
  exact val_eq_of_selected hv (mem_taken.mpr ⟨c, blockOf_subset _ hc, h0⟩)

section

variable {k v : Int} (hk0 : 0 ≤ k) (hk : k < 2 ^ 31) (hv : 0 < v)
  (hbytes : ∀ j < 4, CInt.wrap 8 (v / 2 ^ (8 * j)) = k) (hsrc : st.SrcFits (st.constSrc v))
  (hfk : st.fkType = .I1) (hcfld : st.cfld.isSome) (h4 : st.srcType = some .I4)

include hwf hk0 hk hbytes hsrc hfk hcfld h4 in
/-- A serial block adds all its rows to one counter. -/
lemma total_serial_block (h1 : blockNT numCores st n b = 1) :
    total (castKeys (blockEntries numCores st (st.constSrc v) n b)) k =
      v * (blockSelected st (st.constSrc v) n b).length := by
  have hconst : ∀ e ∈ castKeys (blockEntries numCores st (st.constSrc v) n b), e = (k, v) := by
    intro e he
    obtain ⟨e', he', rfl⟩ := List.mem_map.mp he
    rw [serial_blockEntries hbytes hsrc hfk hcfld h4 h1 he', wrap_of_key hk0 hk]
  rw [total_const hconst, castKeys, List.length_map, length_blockEntries hwf hsrc,
    length_blockSelected hwf hsrc, h1]
  rfl

include hwf h hn hle hb hk0 hk hv hbytes hsrc hfk hcfld h4 in
/-- No block adds less to that counter than it should. -/
lemma total_blockSelected_le : total (blockSelected st (st.constSrc v) n b) k ≤
    total (castKeys (blockEntries numCores st (st.constSrc v) n b)) k := by
  have hnone : st.srcType = none → v = 1 := fun hnone => by rw [h4] at hnone; cases hnone
  by_cases h1 : blockNT numCores st n b = 1
  · rw [total_serial_block hwf hk0 hk hbytes hsrc hfk hcfld h4 h1]
    exact (total_le hv.le (fun e he => val_eq_of_blockSelected hnone he) k).2
  · have heq : blockEntries numCores st (st.constSrc v) n b = blockSelected st (st.constSrc v) n b :=
      blockEntries_eq hwf hsrc fun r hr h0 =>
        rowCounted hwf h hn hle hb hr h0 fun _ _ h1' => absurd h1' h1
    rw [heq, castKeys_eq]
    intro e he
    obtain ⟨r, hr, hkey, h0⟩ := exists_row_of_blockSelected hwf hsrc he
    rw [← hkey]
    refine ⟨?_, key_lt hwf h hn hle hb hr h0⟩
    exact (hwf.keys r.1 (List.of_mem_zip (blockOf_subset _ hr)).1).1

include hwf h hn hle hb hr h0 hk0 hk hv hbytes hsrc hfk hcfld h4 in
/-- A selected row with another key is added to the wrong counter. -/
lemma key_eq_of_serial (h1 : blockNT numCores st n b = 1) : r.1 = k := by
  by_contra hkr
  have hnone : st.srcType = none → v = 1 := fun hnone => by rw [h4] at hnone; cases hnone
  have hvals : ∀ e ∈ blockSelected st (st.constSrc v) n b, e.2 = v :=
    fun e he => val_eq_of_blockSelected hnone he
  have hagree := h.agrees hwf hn hle hsrc
  obtain ⟨w, hw⟩ := exists_selected hr h0 hwf hsrc
  have hlt : total (taken (· ≠ 0) (st.rows (st.constSrc v))) k <
      total (castKeys ((List.range n).flatMap (blockEntries numCores st (st.constSrc v) n))) k := by
    rw [← flatMap_blockSelected (numCompBlocks_pos hn), castKeys_flatMap, total_flatMap, total_flatMap]
    apply List.sum_lt_sum
    · intro b' hb'
      exact total_blockSelected_le hwf h hn hle (List.mem_range.mp hb') hk0 hk hv hbytes hsrc hfk hcfld h4
    · refine ⟨b, List.mem_range.mpr hb, ?_⟩
      rw [total_serial_block hwf hk0 hk hbytes hsrc hfk hcfld h4 h1]
      exact total_lt hv hvals ⟨(r.1, w), hw, hkr⟩
  have hkn : k < st.dstNR := by
    by_contra hge
    have hzero : total (castKeys ((List.range n).flatMap
        (blockEntries numCores st (st.constSrc v) n))) k = 0 := by
      apply total_eq_zero
      rintro e he rfl
      exact hge (hagree.fit e he).2
    have hnonneg := (total_le hv.le (fun e he => val_eq_of_selected hnone he) k).1
    omega
  have htotal := hagree.totals k.toNat (by omega)
  rw [Int.toNat_of_nonneg hk0] at htotal
  omega

end

include hwf h hn hle hb hr h0 in
/-- No selected row is left to the serial counter. -/
lemma no_serial (hfk : st.fkType = .I1) (hcfld : st.cfld.isSome)
    (h1 : blockNT numCores st n b = 1) : st.srcType = none := by
  cases ht : st.srcType with
  | none => rfl
  | some t =>
    have h4 : st.srcType = some .I4 := by
      rcases hwf.srcType t ht with rfl | rfl
      · exact ht
      · exact absurd ht (srcType_ne hwf h hn hle hb hr h0)
    -- The bytes of the source column are `1`, or `2`: the row has both keys.
    have hone : r.1 = 1 := key_eq_of_serial (v := 0x01010101) hwf h hn hle hb hr h0 (by decide)
      (by decide) (by decide) (by decide) (constSrc_fits (.inl (by decide))) hfk hcfld h4 h1
    have htwo : r.1 = 2 := key_eq_of_serial (v := 0x02020202) hwf h hn hle hb hr h0 (by decide)
      (by decide) (by decide) (by decide) (constSrc_fits (.inl (by decide))) hfk hcfld h4 h1
    omega

end

lemma cond_of_countsRight (hwf : st.WellFormed) (h : CountsRight numCores st) :
    CountCond numCores st := by
  obtain ⟨n, hn, hle⟩ := blocks_of_execCount (h (st.constSrc 1) constSrc_one_fits)
  refine ⟨n, hn, hle, fun b hb r hr h0 => ?_⟩
  exact rowCounted hwf h hn hle hb hr h0 fun hfk hcfld h1 =>
    no_serial hwf h hn hle hb hr h0 hfk hcfld h1

end

/-- A statement leaves in every counter the number (or the sum of the source values) of the selected
rows with its key, whatever the source column, just if its blocks fit and every selected row is
counted. -/
theorem countsRight_iff {numCores : Nat} {st : CountStmt} (hwf : st.WellFormed) :
    CountsRight numCores st ↔ CountCond numCores st :=
  ⟨cond_of_countsRight hwf, countsRight_of_cond hwf⟩

/-- A sum by a key of four bytes under a condition. -/
def countfByI4 : CountStmt :=
  { srcType := some .I4, fkType := .I4, fk := [0, 1, 0], cfld := some [1, 0, 1], dstNR := 2 }

theorem countfByI4_countsRight : countfByI4.WellFormed ∧ CountsRight 4 countfByI4 := by
  have hwf : countfByI4.WellFormed :=
    ⟨by decide, by rintro t ⟨⟩; exact .inl rfl, by decide, by decide⟩
  refine ⟨hwf, (countsRight_iff hwf).mpr ⟨1, by decide, by decide, ?_⟩⟩
  intro b _ r hr _
  have hkey : ∀ x ∈ countfByI4.fk, x < 2 ^ 31 := by decide
  refine ⟨hkey r.1 (List.of_mem_zip (blockOf_subset _ hr)).1, by decide, ?_⟩
  intro hfk
  cases hfk

/-- A sum by a key of one byte under a condition. -/
def countfByI1 : CountStmt :=
  { srcType := some .I4, fkType := .I1, fk := [0], cfld := some [1], dstNR := 2 }

/-- The one row has the key 0 and the value 1. The code adds it to the counter 1. -/
theorem countfByI1_not_countsRight :
    countfByI1.WellFormed ∧ countfByI1.SrcFits [1] ∧ countSpec countfByI1 [1] = [1, 0] ∧
      execCount 1 countfByI1 [1] = some [0, 1] ∧ ¬ CountsRight 1 countfByI1 := by
  have hfits : countfByI1.SrcFits [1] := ⟨rfl, by decide⟩
  have hspec : countSpec countfByI1 [1] = [1, 0] := by decide
  have hexec : execCount 1 countfByI1 [1] = some [0, 1] := by decide +kernel
  refine ⟨⟨by decide, by rintro t ⟨⟩; exact .inl rfl, by decide, by decide⟩, hfits, hspec, hexec, ?_⟩
  intro h
  have hright := h [1] hfits
  rw [hexec, hspec] at hright
  exact absurd hright (by decide)

end Datacl
