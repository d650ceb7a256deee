import Datacl.Lib.Runs
import Datacl.Pattern.Terminates
import Mathlib.Data.List.GetD

/-!
# The rounds of a search

What the automaton does with a row, if the first value of the pattern does not occur again. Between
searches it skips rows; in a search it counts rows, goes on to the next position or gives up.
-/

namespace Datacl

def Pattern.fpAt (p : Pattern) (k : Nat) : Int := p.fp.getD k 0

def Pattern.lbAt (p : Pattern) (k : Nat) : Int := p.lb.getD k 0

def Pattern.ubAt (p : Pattern) (k : Nat) : Int := p.ub.getD k 0

/-- The rows with the flags of the breaks. -/
def PatInput.rows (inp : PatInput) : List (Int × Bool) :=
  match inp.fb with
  | none => inp.f1.map fun v => (v, false)
  | some fb => inp.f1.zip (fb.map fun b => decide (b = 1))

/-- The variables between searches. -/
def idleAt (p : Pattern) (i : Nat) (fout : List Int) : PatState :=
  ⟨i, -1, 0, p.fpAt 0, p.lbAt 0, p.ubAt 0, 0, -1, false, fout⟩

/-- The variables in a search that began at row `m`, with `n` rows seen for position `k`. -/
def searchAt (p : Pattern) (k n m i : Nat) (fout : List Int) : PatState :=
  ⟨i, m, k, p.fpAt k, p.lbAt k, p.ubAt k, n, -1, true, fout⟩

/-- The loop and what follows it give the output. -/
def PatInput.Yields (inp : PatInput) (s : PatState) (fout : List Int) : Prop :=
  ∃ t, Looping.Ends inp.more inp.body s t ∧ inp.finish t = .done fout

/-- A pattern whose first value does not occur again, and a break field as long as the column. -/
structure PatInput.Simple (inp : PatInput) : Prop where
  pat : inp.pat.WellFormed
  fb : ∀ fb ∈ inp.fb, fb.length = inp.f1.length
  isx : inp.pat.isx = false

lemma Pattern.WellFormed.read_eq {p : Pattern} (h : p.WellFormed) {k : Nat} (hk : k < p.fp.length) :
    p.read k = some (p.fpAt k, p.lbAt k, p.ubAt k) := by
  have hlb : k < p.lb.length := by rw [h.lb]; exact hk
  have hub : k < p.ub.length := by rw [h.ub]; exact hk
  unfold Pattern.read Pattern.fpAt Pattern.lbAt Pattern.ubAt
  rw [List.getElem?_eq_getElem hk, List.getElem?_eq_getElem hlb, List.getElem?_eq_getElem hub,
    List.getD_eq_getElem _ _ hk, List.getD_eq_getElem _ _ hlb, List.getD_eq_getElem _ _ hub]
  rfl

lemma Pattern.WellFormed.one_le_lbAt {p : Pattern} (h : p.WellFormed) {k : Nat} (hk : k < p.fp.length) :
    1 ≤ p.lbAt k := by
  have hlb : k < p.lb.length := by rw [h.lb]; exact hk
  rw [Pattern.lbAt, List.getD_eq_getElem _ _ hlb]
  exact h.pos _ (List.getElem_mem hlb)

section

variable {inp : PatInput} {s s' : PatState} {fout fout' : List Int} {i k n m : Nat} {v : Int} {b : Bool}
  {rest : List (Int × Bool)}

lemma Yields.of_body (hi : s.i < inp.f1.length) (hbody : inp.body s = some s')
    (h : inp.Yields s' fout') : inp.Yields s fout' := by
  obtain ⟨t, hend, hfinish⟩ := h
  exact ⟨t, hend.step (decide_eq_true hi) hbody, hfinish⟩

lemma length_rows (hfb : ∀ fb ∈ inp.fb, fb.length = inp.f1.length) :
    inp.rows.length = inp.f1.length := by
  unfold PatInput.rows
  cases hcases : inp.fb with
  | none => exact List.length_map ..
  | some fb =>
    dsimp only
    rw [List.length_zip, List.length_map, hfb fb hcases, Nat.min_self]

lemma lt_of_row (hfb : ∀ fb ∈ inp.fb, fb.length = inp.f1.length)
    (hrow : inp.rows.drop i = (v, b) :: rest) : i < inp.f1.length := by
  rw [← length_rows hfb]
  by_contra hge
  rw [List.drop_eq_nil_of_le (not_lt.mp hge)] at hrow
  cases hrow

/-- A row as the body of the loop reads it. -/
lemma body_of_row (h : inp.Simple) (hrow : inp.rows.drop s.i = (v, b) :: rest) :
    inp.body s =
      if 0 < s.numSeen ∧ b = true then
        if s.complete inp.pat.fp.length then s.mark.bind (PatState.reset inp.pat) else s.reset inp.pat
      else if s.atEnd inp.pat.fp.length then s.stepEnd inp.pat v
      else s.stepMiddle inp.pat v := by
  have hget : inp.rows[s.i]? = some (v, b) := by
    have hdrop : (inp.rows.drop s.i)[0]? = inp.rows[s.i + 0]? := List.getElem?_drop
    rw [hrow, Nat.add_zero] at hdrop
    exact hdrop.symm
  have hitem : inp.f1[s.i]? = some v ∧
      s.atBreak inp.fb = some (decide (0 < s.numSeen) && b) := by
    unfold PatState.atBreak
    unfold PatInput.rows at hget
    cases hcases : inp.fb with
    | none =>
      rw [hcases] at hget
      rw [List.getElem?_map] at hget
      obtain ⟨x, hx, hxv⟩ := Option.map_eq_some_iff.mp hget
      cases hxv
      exact ⟨hx, by rw [Bool.and_false]⟩
    | some fb =>
      rw [hcases] at hget
      obtain ⟨hv, hb⟩ := List.getElem?_zip_eq_some.mp hget
      refine ⟨hv, ?_⟩
      rw [List.getElem?_map] at hb
      dsimp only
      split_ifs with hseen
      · rw [hb]
        simp [hseen]
      · simp [hseen]
  have hnote : s.noteRestart inp.pat.isx (inp.pat.fp.headD 0) v = s := by
    rw [PatState.noteRestart, h.isx, if_neg (fun hnot => Bool.false_ne_true hnot.1)]
  unfold PatInput.body
  rw [hitem.1, Option.bind_eq_bind, Option.bind_some, hnote]
  dsimp only
  rw [hitem.2]
  by_cases hbreak : 0 < s.numSeen ∧ b = true
  · rw [if_pos hbreak, hbreak.2]
    simp [hbreak.1]
  · have hbrk : (decide (0 < s.numSeen) && b) = false := by
      rw [Bool.and_eq_false_iff]
      by_cases hseen : 0 < s.numSeen
      · right
        rw [← Bool.not_eq_true]
        exact fun hb => hbreak ⟨hseen, hb⟩
      · left
        exact decide_eq_false hseen
    rw [if_neg hbreak, hbrk]
    rfl

/-- A reset ends a search. -/
lemma reset_eq (h : inp.Simple) (hs : s.restart = -1) :
    s.reset inp.pat = some (idleAt inp.pat s.i s.fout) := by
  have htwo := h.pat.two
  unfold PatState.reset
  rw [h.pat.read_eq (k := 0) (by omega), hs]
  rfl

lemma mark_searchAt (hm : m < fout.length) (p : Pattern) :
    (searchAt p k n m i fout).mark = some (searchAt p k n m i (fout.set m 1)) := by
  have hlt : (0 : Int) ≤ m ∧ (m : Int) < fout.length := by omega
  exact if_pos hlt

/-! ### Between searches -/

lemma yields_skip (h : inp.Simple) (hrow : inp.rows.drop i = (v, b) :: rest) (hv : v ≠ inp.pat.fpAt 0)
    (hrest : inp.Yields (idleAt inp.pat (i + 1) fout) fout') :
    inp.Yields (idleAt inp.pat i fout) fout' := by
  have htwo := h.pat.two
  have hlb := h.pat.one_le_lbAt (k := 0) (by omega)
  refine Yields.of_body (lt_of_row h.fb hrow) ?_ hrest
  rw [body_of_row h hrow, if_neg (fun hbreak => absurd hbreak.1 (lt_irrefl 0)), if_pos (.inl rfl),
    PatState.stepEnd, if_neg (show ¬ v = (idleAt inp.pat i fout).target from hv),
    if_neg (show ¬ (idleAt inp.pat i fout).minNumWanted ≤ (idleAt inp.pat i fout).numSeen from
      not_le.mpr hlb)]
  exact reset_eq (s := { idleAt inp.pat i fout with i := i + 1 }) h rfl

lemma yields_start (h : inp.Simple) (hrow : inp.rows.drop i = (v, b) :: rest) (hv : v = inp.pat.fpAt 0)
    (hrest : inp.Yields (searchAt inp.pat 0 1 i (i + 1) fout) fout') :
    inp.Yields (idleAt inp.pat i fout) fout' := by
  refine Yields.of_body (lt_of_row h.fb hrow) ?_ hrest
  rw [body_of_row h hrow, if_neg (fun hbreak => absurd hbreak.1 (lt_irrefl 0)), if_pos (.inl rfl),
    PatState.stepEnd, if_pos (show v = (idleAt inp.pat i fout).target from hv), if_pos ⟨rfl, rfl⟩]
  rfl

/-! ### In a search -/

lemma yields_break (h : inp.Simple) (hrow : inp.rows.drop i = (v, true) :: rest) (hn : 0 < n)
    (hm : m < fout.length)
    (hrest : inp.Yields (idleAt inp.pat i
      (if k + 1 = inp.pat.fp.length ∧ inp.pat.lbAt k ≤ n then fout.set m 1 else fout)) fout') :
    inp.Yields (searchAt inp.pat k n m i fout) fout' := by
  refine Yields.of_body (lt_of_row h.fb hrow) ?_ hrest
  have hseen : 0 < (searchAt inp.pat k n m i fout).numSeen := Int.natCast_pos.mpr hn
  rw [body_of_row h hrow, if_pos ⟨hseen, rfl⟩]
  by_cases hcomplete : k + 1 = inp.pat.fp.length ∧ inp.pat.lbAt k ≤ n
  · rw [if_pos hcomplete, if_pos (show (searchAt inp.pat k n m i fout).complete _ from hcomplete),
      mark_searchAt hm, Option.bind_some]
    exact reset_eq h rfl
  · rw [if_neg hcomplete, if_neg (show ¬ (searchAt inp.pat k n m i fout).complete _ from hcomplete)]
    exact reset_eq h rfl

/-- The first or the last position of the pattern. -/
def Pattern.IsEnd (p : Pattern) (k : Nat) : Prop := k = 0 ∨ k + 1 = p.fp.length

instance (p : Pattern) (k : Nat) : Decidable (p.IsEnd k) := by
  unfold Pattern.IsEnd
  infer_instance

/-- A row that begins no session is no break. -/
lemma not_break (hb : b = false) : ¬ (0 < n ∧ b = true) := by
  rintro ⟨-, hnew⟩
  exact Bool.false_ne_true (hb.symm.trans hnew)

lemma body_searchAt (h : inp.Simple) (hrow : inp.rows.drop i = (v, b) :: rest)
    (hb : ¬ (0 < n ∧ b = true)) :
    inp.body (searchAt inp.pat k n m i fout) =
      if inp.pat.IsEnd k then (searchAt inp.pat k n m i fout).stepEnd inp.pat v
      else (searchAt inp.pat k n m i fout).stepMiddle inp.pat v := by
  rw [body_of_row h hrow, if_neg]
  · rfl
  · rintro ⟨hseen, hnew⟩
    exact hb ⟨Int.natCast_pos.mp hseen, hnew⟩

/-- The variables of a search are read. -/
lemma stepEnd_searchAt (p : Pattern) (k n m i : Nat) (fout : List Int) (v : Int) :
    (searchAt p k n m i fout).stepEnd p v =
      if v = p.fpAt k then
        if (n : Int) = 0 ∧ k = 0 then some { searchAt p k n m i fout with matIdx := i }.consume
        else some (searchAt p k n m i fout).consume
      else if p.lbAt k ≤ n then
        if k + 1 = p.fp.length then (searchAt p k n m i fout).mark.bind (PatState.reset p)
        else (searchAt p k n m i fout).advance p
      else PatState.reset p (searchAt p k n m (i + 1) fout) := rfl

lemma stepMiddle_searchAt (p : Pattern) (k n m i : Nat) (fout : List Int) (v : Int) :
    (searchAt p k n m i fout).stepMiddle p v =
      if v = p.fpAt k then
        if (n : Int) ≤ p.ubAt k then some (searchAt p k n m i fout).consume
        else (searchAt p k n m i fout).reset p
      else if (n : Int) = p.ubAt k then (searchAt p k n m i fout).advance p
      else (searchAt p k n m i fout).reset p := rfl

lemma yields_consume (h : inp.Simple) (hrow : inp.rows.drop i = (inp.pat.fpAt k, b) :: rest)
    (hb : ¬ (0 < n ∧ b = true)) (hfirst : k = 0 → n ≠ 0) (hsmall : n + 1 < 2 ^ 31)
    (hmiddle : ¬ inp.pat.IsEnd k → n ≤ inp.pat.ubAt k)
    (hrest : inp.Yields (searchAt inp.pat k (n + 1) m (i + 1) fout) fout') :
    inp.Yields (searchAt inp.pat k n m i fout) fout' := by
  have hconsume : (searchAt inp.pat k n m i fout).consume = searchAt inp.pat k (n + 1) m (i + 1) fout := by
    have hwrap : CInt.wrap 32 ((n : Int) + 1) = ((n + 1 : Nat) : Int) :=
      CInt.wrap_of_lt (by omega) (by omega)
    unfold PatState.consume searchAt
    dsimp only
    rw [hwrap]
  refine Yields.of_body (lt_of_row h.fb hrow) ?_ hrest
  rw [body_searchAt h hrow hb]
  by_cases hend : inp.pat.IsEnd k
  · rw [if_pos hend, stepEnd_searchAt, if_pos rfl, if_neg, hconsume]
    rintro ⟨hn, hk⟩
    exact hfirst hk (Int.natCast_eq_zero.mp hn)
  · rw [if_neg hend, stepMiddle_searchAt, if_pos rfl, if_pos (hmiddle hend), hconsume]

/-- The rows of a position are accepted: enough for the first and the last one, else as many as the
upper bound. -/
def Pattern.accepts (p : Pattern) (k n : Nat) : Bool :=
  if p.IsEnd k then decide (p.lbAt k ≤ n) else decide ((n : Int) = p.ubAt k)

lemma yields_advance (h : inp.Simple) (hrow : inp.rows.drop i = (v, b) :: rest)
    (hb : ¬ (0 < n ∧ b = true)) (hv : v ≠ inp.pat.fpAt k) (hacc : inp.pat.accepts k n = true)
    (hk : k + 1 < inp.pat.fp.length)
    (hrest : inp.Yields (searchAt inp.pat (k + 1) 0 m i fout) fout') :
    inp.Yields (searchAt inp.pat k n m i fout) fout' := by
  have hadvance : (searchAt inp.pat k n m i fout).advance inp.pat =
      some (searchAt inp.pat (k + 1) 0 m i fout) := by
    unfold PatState.advance
    rw [show (searchAt inp.pat k n m i fout).patIdx = k from rfl, h.pat.read_eq hk]
    rfl
  refine Yields.of_body (lt_of_row h.fb hrow) ?_ hrest
  rw [body_searchAt h hrow hb]
  unfold Pattern.accepts at hacc
  by_cases hend : inp.pat.IsEnd k
  · rw [if_pos hend, decide_eq_true_eq] at hacc
    rw [if_pos hend, stepEnd_searchAt, if_neg hv, if_pos hacc, if_neg hk.ne, hadvance]
  · rw [if_neg hend, decide_eq_true_eq] at hacc
    rw [if_neg hend, stepMiddle_searchAt, if_neg hv, if_pos hacc, hadvance]

lemma yields_match (h : inp.Simple) (hrow : inp.rows.drop i = (v, b) :: rest)
    (hb : ¬ (0 < n ∧ b = true)) (hv : v ≠ inp.pat.fpAt k) (hacc : inp.pat.accepts k n = true)
    (hk : k + 1 = inp.pat.fp.length) (hm : m < fout.length)
    (hrest : inp.Yields (idleAt inp.pat i (fout.set m 1)) fout') :
    inp.Yields (searchAt inp.pat k n m i fout) fout' := by
  refine Yields.of_body (lt_of_row h.fb hrow) ?_ hrest
  unfold Pattern.accepts at hacc
  rw [if_pos (show inp.pat.IsEnd k from .inr hk), decide_eq_true_eq] at hacc
  rw [body_searchAt h hrow hb, if_pos (.inr hk), stepEnd_searchAt, if_neg hv, if_pos hacc, if_pos hk,
    mark_searchAt hm, Option.bind_some]
  exact reset_eq h rfl

/-- Too few rows for the first or the last position: the row is lost. -/
lemma yields_give_up (h : inp.Simple) (hrow : inp.rows.drop i = (v, b) :: rest)
    (hb : ¬ (0 < n ∧ b = true)) (hv : v ≠ inp.pat.fpAt k) (hend : inp.pat.IsEnd k)
    (hacc : inp.pat.accepts k n = false)
    (hrest : inp.Yields (idleAt inp.pat (i + 1) fout) fout') :
    inp.Yields (searchAt inp.pat k n m i fout) fout' := by
  refine Yields.of_body (lt_of_row h.fb hrow) ?_ hrest
  unfold Pattern.accepts at hacc
  rw [if_pos hend, decide_eq_false_iff_not] at hacc
  rw [body_searchAt h hrow hb, if_pos hend, stepEnd_searchAt, if_neg hv, if_neg hacc]
  exact reset_eq h rfl

/-- Too few or too many rows for another position. -/
lemma yields_give_up_middle (h : inp.Simple) (hrow : inp.rows.drop i = (v, b) :: rest)
    (hb : ¬ (0 < n ∧ b = true)) (hend : ¬ inp.pat.IsEnd k)
    (hn : v ≠ inp.pat.fpAt k ∧ (n : Int) ≠ inp.pat.ubAt k ∨
      v = inp.pat.fpAt k ∧ inp.pat.ubAt k < (n : Int))
    (hrest : inp.Yields (idleAt inp.pat i fout) fout') :
    inp.Yields (searchAt inp.pat k n m i fout) fout' := by
  refine Yields.of_body (lt_of_row h.fb hrow) ?_ hrest
  rw [body_searchAt h hrow hb, if_neg hend, stepMiddle_searchAt]
  rcases hn with ⟨hv, hn⟩ | ⟨hv, hn⟩
  · rw [if_neg hv, if_neg hn]
    exact reset_eq h rfl
  · rw [if_pos hv, if_neg (not_le.mpr hn)]
    exact reset_eq h rfl

end

end Datacl
