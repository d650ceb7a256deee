import Datacl.Pattern.Rounds

/-!
# A search, run by run

What the automaton does with whole runs. Between searches a run of the first value begins one; in a
search a run takes it to the next position or ends it. A search that fails at its last position takes
the first row of the next run with it.
-/

namespace Datacl

open Runs

/-- `n` rows of a position, and the runs behind them, are those of the rest of the pattern. -/
def Pattern.chain (p : Pattern) (ok : Nat → Nat → Bool) : Nat → Nat → List (Run Int) → Bool
  | k, n, [] => ok k n && decide (k + 1 = p.fp.length)
  | k, n, r :: rs =>
    ok k n && (decide (k + 1 = p.fp.length) ||
      (!r.isNew && decide (r.value = p.fpAt (k + 1)) && p.chain ok (k + 1) r.len rs))

/-- A run is that of the next position of a search. -/
def Pattern.goesOn (p : Pattern) (k n : Nat) (r : Run Int) : Bool :=
  !r.isNew && p.accepts k n && decide (k + 1 < p.fp.length) && decide (r.value = p.fpAt (k + 1))

/-- The rows of a run that are lost to the search before it. -/
def Pattern.lost (p : Pattern) (mode : Option (Nat × Nat)) (r : Run Int) : Nat :=
  match mode with
  | none => 0
  | some (k, n) =>
    if r.isNew = false ∧ (if p.accepts k n then k + 2 else k + 1) = p.fp.length then 1 else 0

/-- The search that begins in a run. -/
def Pattern.begin (p : Pattern) (lost : Nat) (r : Run Int) : Option (Nat × Nat) :=
  if r.value = p.fpAt 0 ∧ lost < r.len then some (0, r.len - lost) else none

/-- The position and the rows of the search in progress at the end of a run. -/
def Pattern.next (p : Pattern) (mode : Option (Nat × Nat)) (r : Run Int) : Option (Nat × Nat) :=
  match mode with
  | none => p.begin 0 r
  | some (k, n) => if p.goesOn k n r then some (k + 1, r.len) else p.begin (p.lost mode r) r

/-- The row of a run that a search marks. -/
def Pattern.markIn (p : Pattern) (lost off : Nat) (r : Run Int) (rs : List (Run Int)) : List Nat :=
  if r.value = p.fpAt 0 ∧ lost < r.len ∧ p.chain p.accepts 0 (r.len - lost) rs then [off + lost] else []

/-- The rows that the searches mark which begin in some runs. -/
def Pattern.marks (p : Pattern) : Option (Nat × Nat) → Nat → List (Run Int) → List Nat
  | _, _, [] => []
  | mode, off, r :: rs =>
    p.markIn (p.lost mode r) off r rs ++ p.marks (p.next mode r) (off + r.len) rs

/-- The row that the search in progress marks. -/
def Pattern.pending (p : Pattern) (mode : Option (Nat × Nat)) (m : Nat) (rs : List (Run Int)) :
    List Nat :=
  match mode with
  | none => []
  | some (k, n) => if p.chain p.accepts k n rs then [m] else []

/-- Some rows are marked. -/
def setMarks (fout : List Int) (ms : List Nat) : List Int := ms.foldl (fun fout m => fout.set m 1) fout

/-- The variables at the end of a run. -/
def stateAt (p : Pattern) (mode : Option (Nat × Nat)) (m i : Nat) (fout : List Int) : PatState :=
  match mode with
  | none => idleAt p i fout
  | some (k, n) => searchAt p k n m i fout

section

variable {inp : PatInput} {p : Pattern} {fout fout' : List Int} {off k n m : Nat} {r : Run Int}
  {rs : List (Run Int)} {rest : List (Int × Bool)}

/-! ### Through a run -/

lemma row_of_run {rows : List (Int × Bool)} (hrows : rows.drop off = (r :: rs).flatMap Run.rows) {j : Nat}
    (hj : j < r.len) : ∃ b rest, rows.drop (off + j) = (r.value, b) :: rest := by
  by_cases hj0 : j = 0
  · exact ⟨r.isNew, _, by rw [hj0, Nat.add_zero, hrows]; rfl⟩
  · obtain ⟨rest, hrow⟩ := drop_in_run hrows (Nat.pos_of_ne_zero hj0) hj
    exact ⟨false, rest, hrow⟩

/-- A run of another value is skipped. -/
lemma yields_skip_run (h : inp.Simple) (hrows : inp.rows.drop off = (r :: rs).flatMap Run.rows)
    (hv : r.value ≠ inp.pat.fpAt 0) {j : Nat} (hj : j ≤ r.len)
    (hrest : inp.Yields (idleAt inp.pat (off + r.len) fout) fout') :
    inp.Yields (idleAt inp.pat (off + j) fout) fout' := by
  obtain ⟨d, hd⟩ : ∃ d, r.len = j + d := ⟨r.len - j, by omega⟩
  induction d generalizing j with
  | zero => rwa [hd, Nat.add_zero] at hrest
  | succ d ih =>
    have hnext := ih (j := j + 1) (by omega) (by omega)
    obtain ⟨b, rest, hrow⟩ := row_of_run hrows (by omega : j < r.len)
    exact yields_skip h hrow hv hnext

lemma yields_count_run (h : inp.Simple) (hrows : inp.rows.drop off = (r :: rs).flatMap Run.rows)
    (hv : r.value = inp.pat.fpAt k) (hsmall : r.len < 2 ^ 31) {j c : Nat} (hc : 1 ≤ c)
    (c' : Nat) (hcc : c ≤ c')
    (hc' : j + c' ≤ r.len) (hmiddle : ¬ inp.pat.IsEnd k → (c' : Int) ≤ inp.pat.ubAt k + 1)
    (hrest : inp.Yields (searchAt inp.pat k c' m (off + (j + c')) fout) fout') :
    inp.Yields (searchAt inp.pat k c m (off + (j + c)) fout) fout' := by
  obtain ⟨d, hd⟩ : ∃ d, c' = c + d := ⟨c' - c, by omega⟩
  induction d generalizing c with
  | zero => rwa [hd, Nat.add_zero] at hrest
  | succ d ih =>
    have hnext := ih (c := c + 1) (by omega) (by omega) (by omega)
    obtain ⟨rest, hrow⟩ := drop_in_run hrows (j := j + c) (by omega) (by omega)
    rw [hv] at hrow
    refine yields_consume h hrow (not_break rfl) (fun _ => by omega) (by omega) ?_
      hnext
    intro hmid
    have := hmiddle hmid
    omega

lemma yields_begin_run (h : inp.Simple) (hrows : inp.rows.drop off = (r :: rs).flatMap Run.rows)
    (hv : r.value = inp.pat.fpAt 0) (hsmall : r.len < 2 ^ 31) {j : Nat} (hj : j < r.len)
    (hrest : inp.Yields (searchAt inp.pat 0 (r.len - j) (off + j) (off + r.len) fout) fout') :
    inp.Yields (idleAt inp.pat (off + j) fout) fout' := by
  have hcount : inp.Yields (searchAt inp.pat 0 1 (off + j) (off + (j + 1)) fout) fout' := by
    refine yields_count_run h hrows hv hsmall le_rfl (r.len - j) (by omega) (by omega)
      (fun hmid => absurd (.inl rfl) hmid) ?_
    rwa [show j + (r.len - j) = r.len by omega]
  obtain ⟨b, rest, hrow⟩ := row_of_run hrows hj
  exact yields_start h hrow hv hcount

lemma fpAt_mem (hk : k < p.fp.length) : p.fpAt k ∈ p.fp := by
  rw [Pattern.fpAt, List.getD_eq_getElem _ _ hk]
  exact List.getElem_mem hk

lemma fpAt_ne (h : inp.Simple) (hk : k + 1 < inp.pat.fp.length) : inp.pat.fpAt (k + 1) ≠ inp.pat.fpAt 0 := by
  intro heq
  have hmem : inp.pat.fpAt (k + 1) ∈ inp.pat.fp.tail := by
    rw [Pattern.fpAt, List.getD_eq_getElem _ _ hk]
    exact List.mem_of_getElem? (i := k) (by rw [List.getElem?_tail, List.getElem?_eq_getElem hk])
  have hisx : inp.pat.isx = true := by
    unfold Pattern.isx
    refine List.any_eq_true.mpr ⟨_, hmem, decide_eq_true ?_⟩
    rw [heq, Pattern.fpAt, List.getD_eq_getElem?_getD, List.headD_eq_head?_getD, List.head?_eq_getElem?]
  exact Bool.false_ne_true (h.isx.symm.trans hisx)

/-- A run of the next position is counted. In the middle of the pattern a run that is too long ends the
search before its end. -/
lemma yields_goesOn (h : inp.Simple) (hrows : inp.rows.drop off = (r :: rs).flatMap Run.rows)
    (hpos : 0 < r.len) (hsmall : r.len < 2 ^ 31) (hk : k + 1 < inp.pat.fp.length)
    (hv : r.value = inp.pat.fpAt (k + 1)) (hub : 0 ≤ inp.pat.ubAt (k + 1))
    (hrest : if ¬ inp.pat.IsEnd (k + 1) ∧ inp.pat.ubAt (k + 1) + 1 < r.len then
        inp.Yields (idleAt inp.pat (off + r.len) fout) fout'
      else inp.Yields (searchAt inp.pat (k + 1) r.len m (off + r.len) fout) fout') :
    inp.Yields (searchAt inp.pat (k + 1) 0 m off fout) fout' := by
  obtain ⟨b, rest, hrow⟩ := row_of_run hrows hpos
  have hfirst : inp.Yields (searchAt inp.pat (k + 1) 1 m (off + (0 + 1)) fout) fout' := by
    split_ifs at hrest with hlong
    · obtain ⟨hmid, hlong⟩ := hlong
      obtain ⟨c, hc⟩ : ∃ c : Nat, (c : Int) = inp.pat.ubAt (k + 1) + 1 :=
        ⟨(inp.pat.ubAt (k + 1) + 1).toNat, Int.toNat_of_nonneg (by omega)⟩
      refine yields_count_run h hrows hv hsmall le_rfl c (by omega) (by omega)
        (fun _ => hc.le) ?_
      rw [Nat.zero_add]
      obtain ⟨rest', hrow'⟩ := drop_in_run hrows (j := c) (by omega) (by omega)
      refine yields_give_up_middle h hrow' (not_break rfl) hmid
        (.inr ⟨hv, by omega⟩) ?_
      exact yields_skip_run h hrows (hv ▸ fpAt_ne h hk) (by omega) hrest
    · refine yields_count_run h hrows hv hsmall le_rfl r.len hpos (by omega) ?_ ?_
      · intro hmid
        have := not_and.mp hlong hmid
        omega
      · rwa [Nat.zero_add]
  rw [Nat.add_zero, hv] at hrow
  exact yields_consume h hrow (fun hbreak => absurd hbreak.1 (lt_irrefl 0))
    (fun hzero => absurd hzero (Nat.succ_ne_zero k)) (by omega) (fun _ => hub) hfirst

/-! ### From run to run -/

lemma lost_one
    (hc : r.isNew = false ∧ (if p.accepts k n = true then k + 2 else k + 1) = p.fp.length) :
    p.lost (some (k, n)) r = 1 := if_pos hc

lemma lost_zero
    (hc : ¬ (r.isNew = false ∧ (if p.accepts k n = true then k + 2 else k + 1) = p.fp.length)) :
    p.lost (some (k, n)) r = 0 := if_neg hc

/-- A search that accepts too few rows marks nothing. -/
lemma chain_eq_false (ok : Nat → Nat → Bool) (hno : ok k n = false) : p.chain ok k n rs = false := by
  cases rs with
  | nil => rw [Pattern.chain, hno, Bool.false_and]
  | cons r rs => rw [Pattern.chain, hno, Bool.false_and]

lemma goesOn_value (h : p.goesOn k n r = true) : k + 1 < p.fp.length ∧ r.value = p.fpAt (k + 1) := by
  unfold Pattern.goesOn at h
  simp only [Bool.and_eq_true, decide_eq_true_eq] at h
  exact ⟨h.1.2, h.2⟩

lemma chain_cons_of_goesOn (h : p.goesOn k n r = true) :
    p.chain p.accepts k n (r :: rs) = p.chain p.accepts (k + 1) r.len rs := by
  unfold Pattern.goesOn at h
  simp only [Bool.and_eq_true, Bool.not_eq_true', decide_eq_true_eq] at h
  obtain ⟨⟨⟨hnew, hacc⟩, hk⟩, hv⟩ := h
  rw [Pattern.chain, hacc, hnew, decide_eq_false hk.ne, decide_eq_true hv]
  rfl

lemma chain_cons_of_not_goesOn (h : p.goesOn k n r = false) (hk : k < p.fp.length) :
    p.chain p.accepts k n (r :: rs) = (p.accepts k n && decide (k + 1 = p.fp.length)) := by
  rw [Pattern.chain]
  by_cases hlast : k + 1 = p.fp.length
  · rw [decide_eq_true hlast, Bool.true_or]
  · rw [decide_eq_false hlast, Bool.false_or]
    unfold Pattern.goesOn at h
    rw [decide_eq_true (by omega : k + 1 < p.fp.length), Bool.and_true] at h
    cases hacc : p.accepts k n with
    | false => rfl
    | true =>
      rw [hacc, Bool.and_true] at h
      rw [h]
      rfl

/-- A search that failed in the middle of the pattern leaves nothing behind. -/
lemma marks_of_rejected (hmid : ¬ p.IsEnd k) (hno : p.accepts k n = false) :
    p.marks (some (k, n)) off rs = p.marks none off rs := by
  cases rs with
  | nil => rfl
  | cons r rs =>
    have hlost : p.lost (some (k, n)) r = 0 := by
      refine lost_zero fun hc => hmid (.inr ?_)
      rw [← hc.2, hno, if_neg Bool.false_ne_true]
    have hnext : p.next (some (k, n)) r = p.next none r := by
      unfold Pattern.next
      dsimp only
      rw [hlost, if_neg]
      unfold Pattern.goesOn
      rw [hno, Bool.and_false]
      exact Bool.false_ne_true
    rw [Pattern.marks, Pattern.marks, hlost, hnext]
    rfl

/-- What the rest of the runs comes to, from the end of a run on. -/
def EndsWell (inp : PatInput) (off : Nat) (rs : List (Run Int)) : Prop :=
  ∀ mode m fout, fout.length = inp.f1.length →
    (∀ k n, mode = some (k, n) →
      0 < n ∧ k < inp.pat.fp.length ∧ m < inp.f1.length ∧ EndsRun (inp.pat.fpAt k) rs) →
    inp.Yields (stateAt inp.pat mode m off fout)
      (setMarks fout (inp.pat.pending mode m rs ++ inp.pat.marks mode off rs))

/-- A run that no search goes on with. -/
lemma yields_fresh (h : inp.Simple) (hrows : inp.rows.drop off = (r :: rs).flatMap Run.rows)
    (hmax : Maximal (r :: rs)) (hsmall : r.value ∈ inp.pat.fp → r.len < 2 ^ 31)
    (hrest : EndsWell inp (off + r.len) rs) (hfout : fout.length = inp.f1.length) {j : Nat}
    (hj : j ≤ r.len) :
    inp.Yields (idleAt inp.pat (off + j) fout)
      (setMarks fout (inp.pat.markIn j off r rs ++
        inp.pat.marks (inp.pat.begin j r) (off + r.len) rs)) := by
  obtain ⟨hpos, hends, -⟩ := maximal_cons.mp hmax
  unfold Pattern.markIn Pattern.begin
  by_cases hbegin : r.value = inp.pat.fpAt 0 ∧ j < r.len
  · obtain ⟨hv, hlt⟩ := hbegin
    obtain ⟨b, rest, hrow⟩ := row_of_run hrows hlt
    have hsearch := hrest (some (0, r.len - j)) (off + j) fout hfout (by
      rintro k n ⟨⟩
      have htwo := h.pat.two
      exact ⟨by omega, by omega, lt_of_row h.fb hrow, hv ▸ hends⟩)
    have hif : (if r.value = inp.pat.fpAt 0 ∧ j < r.len ∧
        inp.pat.chain inp.pat.accepts 0 (r.len - j) rs = true then [off + j] else []) =
        inp.pat.pending (some (0, r.len - j)) (off + j) rs := by
      unfold Pattern.pending
      simp only [hv, hlt, true_and]
    rw [hif, if_pos ⟨hv, hlt⟩]
    exact yields_begin_run h hrows hv (hsmall (hv ▸ fpAt_mem (by have := h.pat.two; omega))) hlt hsearch
  · rw [if_neg hbegin, if_neg (fun hmark => hbegin ⟨hmark.1, hmark.2.1⟩), List.nil_append]
    have hidle := hrest none 0 fout hfout (by rintro k n ⟨⟩)
    by_cases hv : r.value = inp.pat.fpAt 0
    · have hj' : j = r.len := by
        by_contra hne
        exact hbegin ⟨hv, by omega⟩
      rw [hj']
      exact hidle
    · exact yields_skip_run h hrows hv hj hidle

lemma endsWell_nil (h : inp.Simple) (hoff : inp.f1.length ≤ off) : EndsWell inp off [] := by
  intro mode m fout hfout hmode
  have hend : ∀ s : PatState, s.i = off → inp.more s = false :=
    fun s hs => decide_eq_false (by rw [hs]; exact not_lt.mpr hoff)
  have htwo := h.pat.two
  cases mode with
  | none =>
    refine ⟨_, Looping.Ends.stop (hend _ rfl), ?_⟩
    have hcomplete : ¬ (idleAt inp.pat off fout).complete inp.pat.fp.length := by
      rintro ⟨hlast, -⟩
      have hone : 0 + 1 = inp.pat.fp.length := hlast
      omega
    exact if_neg hcomplete
  | some q =>
    obtain ⟨k, n⟩ := q
    obtain ⟨-, -, hm, -⟩ := hmode k n rfl
    refine ⟨_, Looping.Ends.stop (hend _ rfl), ?_⟩
    have hchain : inp.pat.chain inp.pat.accepts k n [] = true ↔
        (searchAt inp.pat k n m off fout).complete inp.pat.fp.length := by
      rw [Pattern.chain, Bool.and_eq_true, decide_eq_true_eq, and_comm]
      refine and_congr_right fun hlast => ?_
      rw [Pattern.accepts, if_pos (.inr hlast), decide_eq_true_eq]
      rfl
    unfold PatInput.finish Pattern.pending Pattern.marks stateAt
    dsimp only
    by_cases hcomplete : inp.pat.chain inp.pat.accepts k n [] = true
    · rw [if_pos (hchain.mp hcomplete), if_pos hcomplete, mark_searchAt (hfout ▸ hm)]
      rfl
    · rw [if_neg (fun hc => hcomplete (hchain.mpr hc)), if_neg hcomplete]
      rfl

/-- The marks that are left when no search goes on with a run. -/
def freshMarks (p : Pattern) (fout : List Int) (lost off : Nat) (r : Run Int) (rs : List (Run Int)) :
    List Int :=
  setMarks fout (p.markIn lost off r rs ++ p.marks (p.begin lost r) (off + r.len) rs)

lemma freshMarks_of_ne (hv : r.value ≠ p.fpAt 0) (j j' : Nat) :
    freshMarks p fout j off r rs = freshMarks p fout j' off r rs := by
  have hnot : ∀ j (P : Prop), ¬ (r.value = p.fpAt 0 ∧ j < r.len ∧ P) := fun _ _ hc => hv hc.1
  have hnone : ∀ j, p.begin j r = none := fun j => if_neg fun hc => hv hc.1
  unfold freshMarks Pattern.markIn
  rw [hnone, hnone, if_neg (hnot _ _), if_neg (hnot _ _)]

/-- A search that is complete ends with its run. -/
lemma yields_found (h : inp.Simple) (hrow : inp.rows.drop off = (r.value, r.isNew) :: rest) (hn : 0 < n)
    (hm : m < fout.length) (hends : EndsRun (inp.pat.fpAt k) (r :: rs))
    (hacc : inp.pat.accepts k n = true) (hlast : k + 1 = inp.pat.fp.length)
    (hrest : inp.Yields (idleAt inp.pat off (fout.set m 1)) fout') :
    inp.Yields (searchAt inp.pat k n m off fout) fout' := by
  cases hnew : r.isNew with
  | true =>
    rw [hnew] at hrow
    refine yields_break h hrow hn hm ?_
    rw [Pattern.accepts, if_pos (.inr hlast), decide_eq_true_eq] at hacc
    rwa [if_pos ⟨hlast, hacc⟩]
  | false =>
    rw [hnew] at hrow
    exact yields_match h hrow (not_break rfl) (hends r rfl hnew) hacc hlast hm
      hrest

/-- The session ends before a search is complete. -/
lemma yields_fail_new (h : inp.Simple) (hrow : inp.rows.drop off = (r.value, r.isNew) :: rest) (hn : 0 < n)
    (hm : m < fout.length) (hnew : r.isNew = true)
    (hnot : ¬ (inp.pat.accepts k n = true ∧ k + 1 = inp.pat.fp.length))
    (hrest : inp.Yields (idleAt inp.pat off fout) fout') :
    inp.Yields (searchAt inp.pat k n m off fout) fout' := by
  rw [hnew] at hrow
  refine yields_break h hrow hn hm ?_
  have hcomplete : ¬ (k + 1 = inp.pat.fp.length ∧ inp.pat.lbAt k ≤ n) := by
    rintro ⟨hlast, hle⟩
    refine hnot ⟨?_, hlast⟩
    rw [Pattern.accepts, if_pos (.inr hlast)]
    exact decide_eq_true hle
  rwa [if_neg hcomplete]

/-- The run is not one of the next position. Its first row is lost if that is the last one. -/
lemma yields_fail_next (h : inp.Simple)
    (hub : ∀ k < inp.pat.fp.length, inp.pat.lbAt k ≤ inp.pat.ubAt k)
    (hrow : inp.rows.drop off = (r.value, r.isNew) :: rest) (hnew : r.isNew = false)
    (hends : EndsRun (inp.pat.fpAt k) (r :: rs)) (hacc : inp.pat.accepts k n = true)
    (hk : k + 1 < inp.pat.fp.length) (hv : r.value ≠ inp.pat.fpAt (k + 1))
    (hrest : ∀ j ≤ 1, inp.Yields (idleAt inp.pat (off + j) fout) (freshMarks inp.pat fout j off r rs)) :
    inp.Yields (searchAt inp.pat k n m off fout)
      (freshMarks inp.pat fout (inp.pat.lost (some (k, n)) r) off r rs) := by
  have hlb := h.pat.one_le_lbAt hk
  refine yields_advance h hrow (not_break hnew) (hends r rfl hnew) hacc hk ?_
  by_cases hlast : k + 2 = inp.pat.fp.length
  · rw [lost_one ⟨hnew, by rwa [if_pos hacc]⟩]
    have hend : inp.pat.IsEnd (k + 1) := .inr hlast
    refine yields_give_up h hrow (not_break hnew) hv hend ?_ (hrest 1 le_rfl)
    rw [Pattern.accepts, if_pos hend]
    exact decide_eq_false (by omega)
  · rw [lost_zero fun hc => hlast (by rw [← hc.2, if_pos hacc])]
    have hmid : ¬ inp.pat.IsEnd (k + 1) := by
      rintro (hzero | hlast')
      · exact Nat.succ_ne_zero k hzero
      · exact hlast hlast'
    have hubk := hub (k + 1) hk
    exact yields_give_up_middle h hrow (not_break hnew) hmid (.inl ⟨hv, by omega⟩)
      (hrest 0 (Nat.zero_le _))

/-- The search has not seen enough rows. The first row of the run is lost at the first and the last
position; at the first one it is not of the first value. -/
lemma yields_fail_few (h : inp.Simple) (hrow : inp.rows.drop off = (r.value, r.isNew) :: rest)
    (hnew : r.isNew = false) (hends : EndsRun (inp.pat.fpAt k) (r :: rs))
    (hacc : ¬ inp.pat.accepts k n = true)
    (hrest : ∀ j ≤ 1, inp.Yields (idleAt inp.pat (off + j) fout) (freshMarks inp.pat fout j off r rs)) :
    inp.Yields (searchAt inp.pat k n m off fout)
      (freshMarks inp.pat fout (inp.pat.lost (some (k, n)) r) off r rs) := by
  have hv := hends r rfl hnew
  have hno : inp.pat.accepts k n = false := Bool.eq_false_iff.mpr hacc
  by_cases hend : inp.pat.IsEnd k
  · have hone := yields_give_up h hrow (not_break hnew) hv hend hno (hrest 1 le_rfl) (m := m)
    by_cases hlast : k + 1 = inp.pat.fp.length
    · rwa [lost_one ⟨hnew, by rwa [if_neg hacc]⟩]
    · rw [lost_zero fun hc => hlast (by rw [← hc.2, if_neg hacc])]
      have hzero : k = 0 := hend.resolve_right hlast
      rwa [freshMarks_of_ne (hzero ▸ hv) 0 1]
  · have hlast : k + 1 ≠ inp.pat.fp.length := fun hlast => hend (.inr hlast)
    rw [lost_zero fun hc => hlast (by rw [← hc.2, if_neg hacc])]
    have hne : (n : Int) ≠ inp.pat.ubAt k := by
      rw [Pattern.accepts, if_neg hend] at hno
      exact of_decide_eq_false hno
    exact yields_give_up_middle h hrow (not_break hnew) hend (.inl ⟨hv, hne⟩) (hrest 0 (Nat.zero_le _))

/-- A search that is not complete and that no run goes on with. -/
lemma yields_fail (h : inp.Simple) (hub : ∀ k < inp.pat.fp.length, inp.pat.lbAt k ≤ inp.pat.ubAt k)
    (hrow : inp.rows.drop off = (r.value, r.isNew) :: rest) (hn : 0 < n) (hm : m < fout.length)
    (hk : k < inp.pat.fp.length) (hends : EndsRun (inp.pat.fpAt k) (r :: rs))
    (hgo : inp.pat.goesOn k n r = false)
    (hnot : ¬ (inp.pat.accepts k n = true ∧ k + 1 = inp.pat.fp.length))
    (hrest : ∀ j ≤ 1, inp.Yields (idleAt inp.pat (off + j) fout) (freshMarks inp.pat fout j off r rs)) :
    inp.Yields (searchAt inp.pat k n m off fout)
      (freshMarks inp.pat fout (inp.pat.lost (some (k, n)) r) off r rs) := by
  cases hnew : r.isNew with
  | true =>
    rw [lost_zero fun hc => Bool.false_ne_true (hc.1.symm.trans hnew)]
    exact yields_fail_new h hrow hn hm hnew hnot (hrest 0 (Nat.zero_le _))
  | false =>
    by_cases hacc : inp.pat.accepts k n = true
    · have hk' : k + 1 < inp.pat.fp.length := by
        have hlast : k + 1 ≠ inp.pat.fp.length := fun hlast => hnot ⟨hacc, hlast⟩
        omega
      refine yields_fail_next h hub hrow hnew hends hacc hk' ?_ hrest
      intro heq
      unfold Pattern.goesOn at hgo
      rw [hnew, hacc, decide_eq_true hk', decide_eq_true heq] at hgo
      cases hgo
    · exact yields_fail_few h hrow hnew hends hacc hrest

lemma yields_next (h : inp.Simple) (hub : ∀ k < inp.pat.fp.length, inp.pat.lbAt k ≤ inp.pat.ubAt k)
    (hrows : inp.rows.drop off = (r :: rs).flatMap Run.rows) (hmax : Maximal (r :: rs))
    (hsmall : r.value ∈ inp.pat.fp → r.len < 2 ^ 31) (hrest : EndsWell inp (off + r.len) rs)
    (hfout : fout.length = inp.f1.length) (hm : m < fout.length)
    (hends : EndsRun (inp.pat.fpAt k) (r :: rs)) (hgo : inp.pat.goesOn k n r = true) :
    inp.Yields (searchAt inp.pat k n m off fout)
      (setMarks fout (inp.pat.pending (some (k + 1, r.len)) m rs ++
        inp.pat.marks (some (k + 1, r.len)) (off + r.len) rs)) := by
  obtain ⟨hpos, hendsr, -⟩ := maximal_cons.mp hmax
  unfold Pattern.goesOn at hgo
  simp only [Bool.and_eq_true, Bool.not_eq_true', decide_eq_true_eq] at hgo
  obtain ⟨⟨⟨hnew, hacc⟩, hk⟩, hv⟩ := hgo
  have hlb := h.pat.one_le_lbAt hk
  have hubk := hub (k + 1) hk
  refine yields_advance h hrows (not_break hnew) (hends r rfl hnew) hacc hk ?_
  refine yields_goesOn h hrows hpos (hsmall (hv ▸ fpAt_mem hk)) hk hv (by omega) ?_
  by_cases hlong : ¬ inp.pat.IsEnd (k + 1) ∧ inp.pat.ubAt (k + 1) + 1 < r.len
  · have hno : inp.pat.accepts (k + 1) r.len = false := by
      rw [Pattern.accepts, if_neg hlong.1]
      exact decide_eq_false (by omega)
    rw [if_pos hlong, Pattern.pending, chain_eq_false _ hno, marks_of_rejected hlong.1 hno]
    exact hrest none 0 fout hfout (by rintro k n ⟨⟩)
  · rw [if_neg hlong]
    refine hrest (some (k + 1, r.len)) m fout hfout ?_
    rintro k₁ n₁ ⟨⟩
    exact ⟨hpos, hk, hfout ▸ hm, hv ▸ hendsr⟩

/-- A run that ends a search, or goes on with it. -/
lemma endsWell_cons (h : inp.Simple) (hub : ∀ k < inp.pat.fp.length, inp.pat.lbAt k ≤ inp.pat.ubAt k)
    (hrows : inp.rows.drop off = (r :: rs).flatMap Run.rows) (hmax : Maximal (r :: rs))
    (hsmall : r.value ∈ inp.pat.fp → r.len < 2 ^ 31) (hrest : EndsWell inp (off + r.len) rs) :
    EndsWell inp off (r :: rs) := by
  intro mode m fout hfout hmode
  have hpos := (maximal_cons.mp hmax).1
  have hfresh : ∀ fout, fout.length = inp.f1.length → ∀ j ≤ 1,
      inp.Yields (idleAt inp.pat (off + j) fout) (freshMarks inp.pat fout j off r rs) :=
    fun fout hfout j hj => yields_fresh h hrows hmax hsmall hrest hfout (by omega)
  cases mode with
  | none => exact hfresh fout hfout 0 (Nat.zero_le _)
  | some q =>
    obtain ⟨k, n⟩ := q
    obtain ⟨hn, hk, hm, hends⟩ := hmode k n rfl
    rw [← hfout] at hm
    unfold stateAt Pattern.pending Pattern.marks Pattern.next
    dsimp only
    cases hgo : inp.pat.goesOn k n r with
    | false =>
      rw [chain_cons_of_not_goesOn hgo hk, if_neg Bool.false_ne_true]
      by_cases hfound : inp.pat.accepts k n = true ∧ k + 1 = inp.pat.fp.length
      · obtain ⟨hacc, hlast⟩ := hfound
        have hlost : inp.pat.lost (some (k, n)) r = 0 := by
          refine lost_zero fun hc => ?_
          rw [if_pos hacc] at hc
          omega
        rw [hacc, decide_eq_true hlast, hlost]
        exact yields_found h hrows hn hm hends hacc hlast
          (hfresh (fout.set m 1) (by rw [List.length_set, hfout]) 0 (Nat.zero_le _))
      · rw [if_neg (by rwa [Bool.and_eq_true, decide_eq_true_eq]), List.nil_append]
        exact yields_fail h hub hrows hn hm hk hends hgo hfound (hfresh fout hfout)
    | true =>
      have hmark : inp.pat.markIn (inp.pat.lost (some (k, n)) r) off r rs = [] := by
        obtain ⟨hk', hv⟩ := goesOn_value hgo
        exact if_neg fun hc => fpAt_ne h hk' (hv ▸ hc.1)
      rw [chain_cons_of_goesOn hgo, if_pos rfl, hmark, List.nil_append]
      exact yields_next h hub hrows hmax hsmall hrest hfout hm hends hgo

lemma endsWell (h : inp.Simple) (hub : ∀ k < inp.pat.fp.length, inp.pat.lbAt k ≤ inp.pat.ubAt k)
    (hrows : inp.rows.drop off = rs.flatMap Run.rows) (hmax : Maximal rs)
    (hsmall : ∀ r ∈ rs, r.value ∈ inp.pat.fp → r.len < 2 ^ 31) : EndsWell inp off rs := by
  induction rs generalizing off with
  | nil =>
    refine endsWell_nil h ?_
    rw [← length_rows h.fb]
    exact List.drop_eq_nil_iff.mp hrows
  | cons r rs ih =>
    obtain ⟨hpos, -, hmax'⟩ := maximal_cons.mp hmax
    exact endsWell_cons h hub hrows hmax (hsmall r List.mem_cons_self)
      (ih (drop_run hpos hrows) hmax' fun r' hr' => hsmall r' (List.mem_cons_of_mem r hr'))

end

end Datacl
