import Datacl.Csv.Cells
import Datacl.Meta.FieldSpecs
import Datacl.Meta.Tables

/-!
# The status of `read_csv`

All error branches of `read_csv` lead to the label `BYE`, where the files are closed and, on an
error, removed. The status is then overwritten with that of the last `chdir`.
-/

namespace Datacl

variable {σ : Type}

/-- The loop of `read_csv` comes to the byte `i` with these variables. -/
inductive Reaches (spec : CsvSpec σ) (X : List UInt8) (out : σ) : Nat → ReadState σ → Prop where
  | start : Reaches spec X out 0 (ReadState.start out)
  | next {i : Nat} {s s' : ReadState σ} {skip : Bool} (h : Reaches spec X out i s)
      (hi : i < X.length) (hbyte : spec.readByte X i s = some (s', skip)) :
      Reaches spec X out (if skip then i + 2 else i + 1) s'

/-- An error branch is taken: by the body of the loop for some byte (a bad backslash, a bad
character after a closing quote, an error of `print_cell`) or because the number of cells does not
fit the number of rows. -/
inductive CsvError (spec : CsvSpec σ) (X : List UInt8) (out : σ) : Prop where
  | byte {i : Nat} {s : ReadState σ} (h : Reaches spec X out i s) (hi : i < X.length)
      (hbyte : spec.readByte X i s = none)
  | count {i : Nat} {s : ReadState σ} (h : Reaches spec X out i s) (hi : X.length ≤ i)
      (hcount : s.numCells ≠ spec.nFlds * s.numRows)

/-- `filenos` and `nn_filenos`; a number that is not positive stands for no file. The files of
lengths are not removed on an error. -/
structure CsvFiles where
  filenos : List Int
  nnFilenos : List Int

/-- What `read_csv` leaves to its caller: the status, the number of rows if it is written, and the
files it removed. -/
structure CsvReturn where
  status : Int
  numRows : Option Int
  unlinked : List Int

/-- The status at the label `BYE`. -/
def byeStatus {α : Type} (r : Option α) : Int := if r.isNone then -1 else 0

/-- `read_csv`; `chdir` is the status of the last `chdir`. -/
def readCsvReturn (spec : CsvSpec σ) (files : CsvFiles) (chdir : Int) (X : List UInt8) (out : σ) :
    CsvReturn :=
  let r := readCsv spec X out
  let status := byeStatus r
  let unlinked := if status < 0 then (files.filenos ++ files.nnFilenos).filter (0 < ·) else []
  let status := chdir
  ⟨status, r.map Prod.snd, unlinked⟩

/-- `dld` from the return of `read_csv` to `add_tbl`. Its variable `nR` is not initialised. -/
def dldAddTbl (env : Env) (r : CsvReturn) (nR : Int) (tbl : Name) : Cmd Store Nat := do
  Cmd.require (0 ≤ r.status)
  delTbl env tbl (-1)
  addTbl env tbl (r.numRows.getD nR)

/-- The error is reported, and no table is added. -/
def ErrorReported (spec : CsvSpec σ) (files : CsvFiles) (chdir : Int) (X : List UInt8) (out : σ) :
    Prop :=
  (readCsvReturn spec files chdir X out).status < 0 ∧
    ∀ env nR tbl s, (dldAddTbl env (readCsvReturn spec files chdir X out) nR tbl s).1 = none

section

variable {spec : CsvSpec σ} {X : List UInt8} {out : σ}

/-- The rest of the loop decides. -/
lemma Reaches.readLoop_eq {i : Nat} {s : ReadState σ} (h : Reaches spec X out i s) :
    spec.readLoop X 0 (ReadState.start out) = spec.readLoop X i s := by
  induction h with
  | start => rfl
  | next _ hi hbyte ih => exact ih.trans (readLoop_of_readByte hi hbyte)

/-- A loop that fails does so at a byte it comes to. -/
lemma Reaches.csvError {i : Nat} {s : ReadState σ} (h : Reaches spec X out i s)
    (hnone : spec.readLoop X i s = none) : CsvError spec X out := by
  induction hk : X.length - i using Nat.strong_induction_on generalizing i s with
  | h k ih =>
    by_cases hi : i < X.length
    · cases hbyte : spec.readByte X i s with
      | none => exact .byte h hi hbyte
      | some r =>
        obtain ⟨s', skip⟩ := r
        rw [readLoop_of_readByte hi hbyte] at hnone
        refine ih _ ?_ (h.next hi hbyte) hnone rfl
        split <;> omega
    · rw [readLoop_of_le (not_lt.mp hi)] at hnone
      cases hnone

/-- A loop that ends does so behind the last byte. -/
lemma Reaches.exists_end {i : Nat} {s t : ReadState σ} (h : Reaches spec X out i s)
    (hsome : spec.readLoop X i s = some t) : ∃ j, X.length ≤ j ∧ Reaches spec X out j t := by
  induction hk : X.length - i using Nat.strong_induction_on generalizing i s with
  | h k ih =>
    by_cases hi : i < X.length
    · cases hbyte : spec.readByte X i s with
      | none =>
        rw [CsvSpec.readLoop, if_pos hi, hbyte] at hsome
        cases hsome
      | some r =>
        obtain ⟨s', skip⟩ := r
        rw [readLoop_of_readByte hi hbyte] at hsome
        refine ih _ ?_ (h.next hi hbyte) hsome rfl
        split <;> omega
    · rw [readLoop_of_le (not_lt.mp hi)] at hsome
      obtain rfl := Option.some.inj hsome
      exact ⟨i, not_lt.mp hi, h⟩

/-- The error branches, and no others, lead to a negative status at `BYE`. -/
lemma readCsv_eq_none_iff (hn : 0 < spec.nFlds) :
    readCsv spec X out = none ↔ CsvError spec X out := by
  rw [readCsv, if_neg hn.ne']
  constructor
  · intro h
    cases hloop : spec.readLoop X 0 (ReadState.start out) with
    | none => exact Reaches.start.csvError hloop
    | some t =>
      rw [hloop] at h
      dsimp only at h
      split_ifs at h with hcount
      obtain ⟨j, hj, hreach⟩ := Reaches.start.exists_end hloop
      exact .count hreach hj hcount
  · rintro (⟨h, hi, hbyte⟩ | ⟨h, hi, hcount⟩)
    · rw [h.readLoop_eq, CsvSpec.readLoop, if_pos hi, hbyte]
    · rw [h.readLoop_eq, readLoop_of_le hi]
      exact if_pos hcount

/-! ### The table of a failed load -/

lemma delTbl_missing {env : Env} {s : Store} {tbl : Name} (hne : tbl ≠ []) (h : isTbl s tbl = none) :
    delTbl env tbl (-1) s = (some (), s) := by
  have hlookup : lookupTbl tbl (-1) s = (some none, s) := by
    rw [lookupTbl, if_neg (by decide), Cmd.require_bind, if_pos hne, Cmd.get_bind, h]
    rfl
  rw [delTbl, Cmd.bind_of_eq hlookup]
  rfl

lemma addTbl_missing {env : Env} {s : Store} {tbl : Name} {nR : Int} {i : Nat}
    (h : isTbl s tbl = none) (hname : chkTblName tbl = true) (hnR : 0 < nR)
    (hempty : getEmptyTbl env s tbl = some i) :
    addTbl env tbl nR s =
      (some i, s.setTbl i { s.tbl i with name := tbl, nR := nR, tbltype := .regular }) := by
  have hne : tbl ≠ [] := by
    rintro rfl
    cases hname
  have hslot : tblSlot env tbl s = (some i, s) := by
    rw [tblSlot, Cmd.get_bind, h]
    dsimp only
    rw [hempty]
    rfl
  rw [addTbl, Cmd.require_bind, if_pos hne, Cmd.require_bind, if_pos hnR, Cmd.require_bind,
    if_pos hname, Cmd.bind_of_eq hslot]
  rfl

/-- After an error the table is added with whatever number of rows `dld` finds in its variable. -/
lemma dldAddTbl_error {env : Env} {s : Store} {tbl : Name} {nR : Int} {i : Nat} {r : CsvReturn}
    (hstatus : 0 ≤ r.status) (hrows : r.numRows = none) (h : isTbl s tbl = none)
    (hname : chkTblName tbl = true) (hnR : 0 < nR) (hempty : getEmptyTbl env s tbl = some i) :
    dldAddTbl env r nR tbl s =
      (some i, s.setTbl i { s.tbl i with name := tbl, nR := nR, tbltype := .regular }) := by
  have hne : tbl ≠ [] := by
    rintro rfl
    cases hname
  rw [dldAddTbl, Cmd.require_bind, if_pos hstatus, Cmd.bind_of_eq (delTbl_missing hne h), hrows]
  exact addTbl_missing h hname hnR hempty

/-- No error is reported: whatever error branch is taken, the status is that of the last `chdir`, and
`dld` goes on to add a table that was not there if its uninitialised number of rows is positive. -/
theorem readCsv_error_not_reported (hn : 0 < spec.nFlds) (files : CsvFiles) {chdir : Int}
    (hchdir : chdir = 0) (herr : CsvError spec X out) :
    ¬ ErrorReported spec files chdir X out ∧
      (readCsvReturn spec files chdir X out).status = 0 ∧
      ∀ env nR tbl s i, isTbl s tbl = none → chkTblName tbl = true → 0 < nR →
        getEmptyTbl env s tbl = some i →
          dldAddTbl env (readCsvReturn spec files chdir X out) nR tbl s =
            (some i, s.setTbl i { s.tbl i with name := tbl, nR := nR, tbltype := .regular }) := by
  have hnone := (readCsv_eq_none_iff hn).mpr herr
  have hrows : (readCsvReturn spec files chdir X out).numRows = none := by
    rw [readCsvReturn, hnone]
    rfl
  have hstatus : (readCsvReturn spec files chdir X out).status = 0 := hchdir
  refine ⟨fun h => absurd h.1 (not_lt.mpr hstatus.ge), hstatus, ?_⟩
  intro env nR tbl s i hfresh hname hnR hempty
  exact dldAddTbl_error hstatus.ge hrows hfresh hname hnR hempty

end

/-- The file `a\b` has a bad backslash. -/
lemma csvError_bad_backslash :
    CsvError (svSpec 1 fun _ => ⟨false, 0⟩) [97, 92, 98, 10] LoadState.start := by
  have hnone : (readCsv (svSpec 1 fun _ => ⟨false, 0⟩) [97, 92, 98, 10] LoadState.start).isNone = true := by
    decide +kernel
  exact (readCsv_eq_none_iff Nat.one_pos).mp (Option.isNone_iff_eq_none.mp hnone)

theorem readCsv_bad_backslash_not_reported :
    ¬ ErrorReported (svSpec 1 fun _ => ⟨false, 0⟩) ⟨[1], [2]⟩ 0 [97, 92, 98, 10] LoadState.start :=
  (readCsv_error_not_reported Nat.one_pos ⟨[1], [2]⟩ rfl csvError_bad_backslash).1

/-- The status is 0 and the files are gone. -/
theorem readCsv_bad_backslash_status :
    CsvError (svSpec 1 fun _ => ⟨false, 0⟩) [97, 92, 98, 10] LoadState.start ∧
      (readCsvReturn (svSpec 1 fun _ => ⟨false, 0⟩) ⟨[1], [2]⟩ 0 [97, 92, 98, 10]
        LoadState.start).unlinked = [1, 2] ∧
      ¬ ErrorReported (svSpec 1 fun _ => ⟨false, 0⟩) ⟨[1], [2]⟩ 0 [97, 92, 98, 10] LoadState.start :=
  ⟨csvError_bad_backslash, by decide +kernel, fun h => absurd h.1 (by decide)⟩

end Datacl
