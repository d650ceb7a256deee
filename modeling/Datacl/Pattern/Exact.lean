import Datacl.Pattern.RunMarks

/-!
# Where the matches are

The search marks the rows at which the pattern begins, if and only if it accepts the runs of the first
value that it should. The upper bounds of the first and the last position are not read, those between
have to be met, and a failure at the last position loses a row.
-/

namespace Datacl

open Runs

/-- The pattern begins at row `m`: the maximal runs of its session from there on are those of the
pattern. -/
def Pattern.MatchesAt (p : Pattern) (rows : List (Int × Bool)) (m : Nat) : Prop :=
  ∃ pre rs post, runs rows = pre ++ rs ++ post ∧ (pre.map Run.len).sum = m ∧
    rs.length = p.fp.length ∧ (∀ r ∈ rs.tail, r.isNew = false) ∧
    ∀ k r, rs[k]? = some r → r.value = p.fpAt k ∧ p.lbAt k ≤ r.len ∧ (r.len : Int) ≤ p.ubAt k

/-- The rows of a position are within its bounds. -/
def Pattern.inBounds (p : Pattern) (k n : Nat) : Bool := decide (p.lbAt k ≤ n ∧ (n : Int) ≤ p.ubAt k)

/-- The rows at which the pattern begins. -/
def Pattern.begins (p : Pattern) : Nat → List (Run Int) → List Nat
  | _, [] => []
  | off, r :: rs =>
    (if r.value = p.fpAt 0 ∧ p.chain p.inBounds 0 r.len rs then [off] else []) ++
      p.begins (off + r.len) rs

/-- At a run of the first value the search accepts what is within the bounds. If a row of the run is
lost, the pattern begins neither there nor, for the search, at the row behind it. -/
def Pattern.AgreesAt (p : Pattern) (lost : Nat) (r : Run Int) (rs : List (Run Int)) : Prop :=
  if lost = 0 then p.chain p.accepts 0 r.len rs = p.chain p.inBounds 0 r.len rs
  else p.chain p.inBounds 0 r.len rs = false ∧ (1 < r.len → p.chain p.accepts 0 (r.len - 1) rs = false)

instance (p : Pattern) (lost : Nat) (r : Run Int) (rs : List (Run Int)) :
    Decidable (p.AgreesAt lost r rs) := by
  unfold Pattern.AgreesAt
  infer_instance

/-- The search accepts what it should at every run of the first value. -/
def Pattern.Agrees (p : Pattern) : Option (Nat × Nat) → List (Run Int) → Prop
  | _, [] => True
  | mode, r :: rs =>
    (r.value = p.fpAt 0 → p.AgreesAt (p.lost mode r) r rs) ∧ p.Agrees (p.next mode r) rs

instance Pattern.decAgrees (p : Pattern) :
    ∀ (mode : Option (Nat × Nat)) (rs : List (Run Int)), Decidable (p.Agrees mode rs)
  | _, [] => isTrue trivial
  | mode, r :: rs =>
    have := p.decAgrees (p.next mode r) rs
    inferInstanceAs
      (Decidable ((r.value = p.fpAt 0 → p.AgreesAt (p.lost mode r) r rs) ∧ p.Agrees (p.next mode r) rs))

section

variable {p : Pattern} {off k n m : Nat} {r : Run Int} {rs : List (Run Int)}

/-- A chain, written out. -/
lemma chain_eq_true_iff {ok : Nat → Nat → Bool} (hk : k < p.fp.length) :
    p.chain ok k n rs = true ↔
      ok k n = true ∧ ∃ rs' post, rs = rs' ++ post ∧ k + 1 + rs'.length = p.fp.length ∧
        ∀ j r, rs'[j]? = some r →
          r.isNew = false ∧ r.value = p.fpAt (k + 1 + j) ∧ ok (k + 1 + j) r.len = true := by
  induction rs generalizing k n with
  | nil =>
    rw [Pattern.chain, Bool.and_eq_true, decide_eq_true_eq]
    refine and_congr_right fun _ => ?_
    constructor
    · intro hlast
      exact ⟨[], [], rfl, hlast, by simp⟩
    · rintro ⟨rs', post, hnil, hlen, -⟩
      obtain ⟨rfl, -⟩ := List.append_eq_nil_iff.mp hnil.symm
      exact hlen
  | cons r rs ih =>
    rw [Pattern.chain, Bool.and_eq_true]
    refine and_congr_right fun _ => ?_
    rw [Bool.or_eq_true, decide_eq_true_eq]
    constructor
    · intro h
      by_cases hlast : k + 1 = p.fp.length
      · exact ⟨[], r :: rs, rfl, hlast, by simp⟩
      · have hgo := h.resolve_left hlast
        simp only [Bool.and_eq_true, Bool.not_eq_true', decide_eq_true_eq] at hgo
        obtain ⟨⟨hnew, hv⟩, hchain⟩ := hgo
        obtain ⟨hok, rs', post, rfl, hlen, hall⟩ := (ih (by omega)).mp hchain
        refine ⟨r :: rs', post, rfl, by rw [List.length_cons]; omega, ?_⟩
        intro j r' hr'
        cases j with
        | zero =>
          obtain rfl := Option.some.inj hr'
          exact ⟨hnew, hv, hok⟩
        | succ j =>
          rw [show k + 1 + (j + 1) = k + 1 + 1 + j by omega]
          exact hall j r' hr'
    · rintro ⟨rs', post, heq, hlen, hall⟩
      cases rs' with
      | nil => exact .inl hlen
      | cons r' rs' =>
        obtain ⟨rfl, rfl⟩ := List.cons_eq_cons.mp heq
        obtain ⟨hnew, hv, hok⟩ := hall 0 r rfl
        rw [List.length_cons] at hlen
        right
        simp only [Bool.and_eq_true, Bool.not_eq_true', decide_eq_true_eq]
        refine ⟨⟨hnew, hv⟩, (ih (by omega)).mpr ⟨hok, rs', post, rfl, by omega, ?_⟩⟩
        intro j r' hr'
        rw [show k + 1 + 1 + j = k + 1 + (j + 1) by omega]
        exact hall (j + 1) r' hr'

/-- The rows at which the pattern begins, from an offset on. -/
lemma mem_begins :
    m ∈ p.begins off rs ↔ ∃ pre r post, rs = pre ++ r :: post ∧ off + (pre.map Run.len).sum = m ∧
      r.value = p.fpAt 0 ∧ p.chain p.inBounds 0 r.len post = true := by
  induction rs generalizing off with
  | nil => simp [Pattern.begins]
  | cons r rs ih =>
    rw [Pattern.begins, List.mem_append, ih]
    constructor
    · rintro (hhead | ⟨pre, r', post, rfl, rfl, hr'⟩)
      · split_ifs at hhead with hbegin
        · exact ⟨[], r, rs, rfl, (List.mem_singleton.mp hhead).symm, hbegin⟩
        · cases hhead
      · refine ⟨r :: pre, r', post, rfl, ?_, hr'⟩
        rw [List.map_cons, List.sum_cons, Nat.add_assoc]
    · rintro ⟨pre, r', post, heq, hm, hr'⟩
      cases pre with
      | nil =>
        obtain ⟨rfl, rfl⟩ := List.cons_eq_cons.mp heq
        left
        rw [if_pos hr']
        exact List.mem_singleton.mpr hm.symm
      | cons r₀ pre =>
        obtain ⟨rfl, rfl⟩ := List.cons_eq_cons.mp heq
        right
        refine ⟨pre, r', post, rfl, ?_, hr'⟩
        rw [← hm, List.map_cons, List.sum_cons, Nat.add_assoc]

lemma matchesAt_iff (hp : p.WellFormed) {rows : List (Int × Bool)} :
    p.MatchesAt rows m ↔ m ∈ p.begins 0 (runs rows) := by
  have htwo := hp.two
  have hlen : 0 < p.fp.length := by omega
  rw [mem_begins]
  constructor
  · rintro ⟨pre, rs, post, hruns, hm, hlength, hnew, hall⟩
    cases rs with
    | nil => exact absurd hlength (by rw [List.length_nil]; omega)
    | cons r rs =>
      obtain ⟨hv, hin⟩ := hall 0 r rfl
      rw [List.append_assoc, List.cons_append] at hruns
      refine ⟨pre, r, rs ++ post, hruns, by rw [hm, Nat.zero_add], hv, ?_⟩
      rw [List.length_cons] at hlength
      refine (chain_eq_true_iff hlen).mpr ⟨decide_eq_true hin, rs, post, rfl, by omega, ?_⟩
      intro j r' hr'
      obtain ⟨hv', hin'⟩ := hall (j + 1) r' hr'
      rw [Nat.zero_add, Nat.add_comm 1 j]
      exact ⟨hnew r' (List.mem_of_getElem? hr'), hv', decide_eq_true hin'⟩
  · rintro ⟨pre, r, post, hruns, hm, hv, hchain⟩
    obtain ⟨hin, rs, post, rfl, hlength, hall⟩ := (chain_eq_true_iff hlen).mp hchain
    refine ⟨pre, r :: rs, post, by rw [hruns]; simp, by rw [← hm, Nat.zero_add], ?_, ?_, ?_⟩
    · rw [List.length_cons]
      omega
    · intro r' hr'
      obtain ⟨j, hj⟩ := List.mem_iff_getElem?.mp hr'
      exact (hall j r' hj).1
    · intro k r' hr'
      cases k with
      | zero =>
        obtain rfl := Option.some.inj hr'
        exact ⟨hv, of_decide_eq_true hin⟩
      | succ k =>
        obtain ⟨-, hv', hin'⟩ := hall k r' hr'
        rw [Nat.zero_add, Nat.add_comm 1 k] at hv' hin'
        exact ⟨hv', of_decide_eq_true hin'⟩

/-! ### Run by run -/

lemma lost_le_one (mode : Option (Nat × Nat)) (r : Run Int) : p.lost mode r ≤ 1 := by
  cases mode with
  | none => exact Nat.zero_le _
  | some q =>
    by_cases hc : r.isNew = false ∧ (if p.accepts q.1 q.2 = true then q.1 + 2 else q.1 + 1) = p.fp.length
    · exact (lost_one hc).le
    · exact (lost_zero hc).le.trans (Nat.zero_le _)

lemma mem_markIn {j : Nat} :
    m ∈ p.markIn j off r rs ↔
      m = off + j ∧ r.value = p.fpAt 0 ∧ j < r.len ∧ p.chain p.accepts 0 (r.len - j) rs = true := by
  unfold Pattern.markIn
  split_ifs with hmark
  · rw [List.mem_singleton, and_iff_left hmark]
  · simp [hmark]

/-- The marks lie in the runs. -/
lemma marks_bounds {mode : Option (Nat × Nat)} (h : m ∈ p.marks mode off rs) :
    off ≤ m ∧ m < off + (rs.map Run.len).sum := by
  induction rs generalizing mode off with
  | nil => cases h
  | cons r rs ih =>
    rw [List.map_cons, List.sum_cons]
    rw [Pattern.marks, List.mem_append] at h
    rcases h with h | h
    · obtain ⟨rfl, -, hlt, -⟩ := mem_markIn.mp h
      omega
    · have := ih h
      omega

lemma begins_le (h : m ∈ p.begins off rs) : off ≤ m := by
  obtain ⟨pre, -, -, -, rfl, -⟩ := mem_begins.mp h
  exact Nat.le_add_right _ _

/-- What holds of the rows of a run and of the rows behind it. -/
lemma mem_append_congr_iff {A A' B B' : List Nat} {b : Nat} (hA : ∀ m ∈ A, m < b) (hA' : ∀ m ∈ A', m < b)
    (hB : ∀ m ∈ B, b ≤ m) (hB' : ∀ m ∈ B', b ≤ m) :
    (∀ m, m ∈ A ++ B ↔ m ∈ A' ++ B') ↔ (∀ m, m ∈ A ↔ m ∈ A') ∧ ∀ m, m ∈ B ↔ m ∈ B' := by
  simp only [List.mem_append]
  constructor
  · intro h
    refine ⟨fun m => ?_, fun m => ?_⟩
    · constructor
      · intro hm
        exact ((h m).mp (.inl hm)).resolve_right fun hb => absurd (hB' m hb) (not_le.mpr (hA m hm))
      · intro hm
        exact ((h m).mpr (.inl hm)).resolve_right fun hb => absurd (hB m hb) (not_le.mpr (hA' m hm))
    · constructor
      · intro hm
        exact ((h m).mp (.inr hm)).resolve_left fun ha => absurd (hB m hm) (not_le.mpr (hA' m ha))
      · intro hm
        exact ((h m).mpr (.inr hm)).resolve_left fun ha => absurd (hB' m hm) (not_le.mpr (hA m ha))
  · rintro ⟨hhead, htail⟩ m
    rw [hhead, htail]

lemma agreesAt_iff (off : Nat) (hpos : 0 < r.len) {lost : Nat} (hlost : lost ≤ 1) :
    (∀ m, m ∈ p.markIn lost off r rs ↔
        m ∈ if r.value = p.fpAt 0 ∧ p.chain p.inBounds 0 r.len rs then [off] else []) ↔
      (r.value = p.fpAt 0 → p.AgreesAt lost r rs) := by
  have hmem : ∀ m, (m ∈ if r.value = p.fpAt 0 ∧ p.chain p.inBounds 0 r.len rs then [off] else []) ↔
      m = off ∧ r.value = p.fpAt 0 ∧ p.chain p.inBounds 0 r.len rs = true := by
    intro m
    split_ifs with hbegin
    · rw [List.mem_singleton, and_iff_left hbegin]
    · simp [hbegin]
  simp only [hmem, mem_markIn]
  unfold Pattern.AgreesAt
  rcases Nat.le_one_iff_eq_zero_or_eq_one.mp hlost with rfl | rfl
  · rw [if_pos rfl, Nat.add_zero, Nat.sub_zero]
    constructor
    · intro h hv
      rw [Bool.eq_iff_iff]
      constructor
      · intro hacc
        exact ((h off).mp ⟨rfl, hv, hpos, hacc⟩).2.2
      · intro hin
        exact ((h off).mpr ⟨rfl, hv, hin⟩).2.2.2
    · intro h m
      constructor
      · rintro ⟨hm, hv, -, hacc⟩
        exact ⟨hm, hv, h hv ▸ hacc⟩
      · rintro ⟨hm, hv, hin⟩
        exact ⟨hm, hv, hpos, (h hv).symm ▸ hin⟩
  · simp only [if_neg Nat.one_ne_zero]
    constructor
    · intro h hv
      refine ⟨Bool.eq_false_iff.mpr fun hin => ?_, fun hlt => Bool.eq_false_iff.mpr fun hacc => ?_⟩
      · have := ((h off).mpr ⟨rfl, hv, hin⟩).1
        omega
      · have := ((h (off + 1)).mp ⟨rfl, hv, hlt, hacc⟩).1
        omega
    · intro h m
      constructor
      · rintro ⟨-, hv, hlt, hacc⟩
        rw [(h hv).2 hlt] at hacc
        cases hacc
      · rintro ⟨-, hv, hin⟩
        rw [(h hv).1] at hin
        cases hin

lemma agrees_iff (hmax : Maximal rs) (mode : Option (Nat × Nat)) (off : Nat) :
    (∀ m, m ∈ p.marks mode off rs ↔ m ∈ p.begins off rs) ↔ p.Agrees mode rs := by
  induction rs generalizing mode off with
  | nil => exact iff_of_true (fun _ => Iff.rfl) trivial
  | cons r rs ih =>
    obtain ⟨hpos, -, hmax'⟩ := maximal_cons.mp hmax
    rw [Pattern.marks, Pattern.begins, Pattern.Agrees, ← ih hmax' (p.next mode r) (off + r.len),
      ← agreesAt_iff off hpos (lost_le_one mode r)]
    refine mem_append_congr_iff (b := off + r.len) ?_ ?_ ?_ ?_
    · intro m hm
      obtain ⟨rfl, -, hlt, -⟩ := mem_markIn.mp hm
      omega
    · intro m hm
      split_ifs at hm
      · rw [List.mem_singleton.mp hm]
        omega
      · cases hm
    · intro m hm
      exact (marks_bounds hm).1
    · intro m hm
      exact begins_le hm

end

/-! ### The column -/

lemma getElem?_setMarks (fout : List Int) (ms : List Nat) (m : Nat) :
    (setMarks fout ms)[m]? = if m ∈ ms ∧ m < fout.length then some 1 else fout[m]? := by
  induction ms generalizing fout with
  | nil => simp [setMarks]
  | cons m₀ ms ih =>
    have hcons : setMarks fout (m₀ :: ms) = setMarks (fout.set m₀ 1) ms := rfl
    rw [hcons, ih, List.length_set, List.getElem?_set]
    by_cases heq : m₀ = m
    · by_cases hm : m < fout.length
      · simp [heq, hm]
      · simp [heq, hm]
    · simp [heq, Ne.symm heq]

/-- The variables before the loop are those between searches. -/
lemma start_eq {inp : PatInput} (hp : inp.pat.WellFormed) (fout : List Int) :
    inp.start fout = some (idleAt inp.pat 0 fout) := by
  have htwo := hp.two
  unfold PatInput.start
  rw [hp.read_eq (k := 0) (by omega)]
  rfl

lemma innerPatmatch_marks {inp : PatInput} (h : inp.Simple)
    (hub : ∀ k < inp.pat.fp.length, inp.pat.lbAt k ≤ inp.pat.ubAt k)
    (hsmall : ∀ r ∈ runs inp.rows, r.value ∈ inp.pat.fp → r.len < 2 ^ 31)
    {fout : List Int} (hfout : fout.length = inp.f1.length) {fuel : Nat} (hfuel : patRounds inp ≤ fuel) :
    innerPatmatch fuel inp fout =
      .done (setMarks fout (inp.pat.marks none 0 (runs inp.rows))) := by
  have hwell : EndsWell inp 0 (runs inp.rows) :=
    endsWell h hub (by rw [flatMap_rows_runs, List.drop_zero]) (maximal_runs _) hsmall
  obtain ⟨t, hends, hfinish⟩ := hwell none 0 fout hfout (by rintro k n ⟨⟩)
  obtain ⟨t', o, hloop, -⟩ := loop_done ⟨h.pat, h.fb, hfout⟩ (start_eq h.pat fout) hfuel
  rw [innerPatmatch_eq h.pat (start_eq h.pat fout), hloop]
  dsimp only
  rw [← hends.unique hloop, hfinish]
  rfl

/-- A search marks the rows at which the pattern begins, and no others. -/
def PatInput.Exact (inp : PatInput) (fuel : Nat) : Prop :=
  ∃ fout, innerPatmatch fuel inp (List.replicate inp.f1.length 0) = .done fout ∧
    ∀ m, fout[m]? = some 1 ↔ inp.pat.MatchesAt inp.rows m

/-- The search is exact if and only if it accepts the runs that it should. -/
theorem innerPatmatch_exact_iff {inp : PatInput} (h : inp.Simple)
    (hub : ∀ k < inp.pat.fp.length, inp.pat.lbAt k ≤ inp.pat.ubAt k)
    (hsmall : ∀ r ∈ runs inp.rows, r.value ∈ inp.pat.fp → r.len < 2 ^ 31)
    {fuel : Nat} (hfuel : patRounds inp ≤ fuel) :
    inp.Exact fuel ↔ inp.pat.Agrees none (runs inp.rows) := by
  have hzeros : (List.replicate inp.f1.length (0 : Int)).length = inp.f1.length := List.length_replicate
  have hmark : ∀ m, (setMarks (List.replicate inp.f1.length 0)
      (inp.pat.marks none 0 (runs inp.rows)))[m]? = some 1 ↔
        m ∈ inp.pat.marks none 0 (runs inp.rows) := by
    intro m
    rw [getElem?_setMarks, hzeros]
    constructor
    · intro hone
      by_contra hnot
      rw [if_neg (fun hc => hnot hc.1), List.getElem?_replicate] at hone
      split_ifs at hone
      exact absurd (Option.some.inj hone) Int.zero_ne_one
    · intro hm
      have hlt := (marks_bounds hm).2
      rw [Nat.zero_add, sum_len_runs, length_rows h.fb] at hlt
      rw [if_pos ⟨hm, hlt⟩]
  have hdone := innerPatmatch_marks h hub hsmall hzeros hfuel
  rw [← agrees_iff (maximal_runs inp.rows) none 0]
  constructor
  · rintro ⟨fout, hfout, hexact⟩ m
    rw [hdone] at hfout
    cases hfout
    rw [← hmark, hexact, matchesAt_iff h.pat]
  · intro hagree
    refine ⟨_, hdone, fun m => ?_⟩
    rw [hmark, hagree, matchesAt_iff h.pat]

/-- Two sessions, of which the first has a match and the beginning of one. -/
def twoSessions : PatInput where
  pat := ⟨[1, 2, 3], [1, 1, 1], [2, 1, 2]⟩
  f1 := [1, 1, 2, 3, 3, 1, 2, 1, 2, 3]
  fb := some [1, 0, 0, 0, 0, 0, 0, 1, 0, 0]

theorem innerPatmatch_exact_two_sessions : twoSessions.Exact (patRounds twoSessions) := by
  have hfb : ∀ fb ∈ twoSessions.fb, fb.length = twoSessions.f1.length := by
    rintro fb ⟨⟩
    rfl
  have hsimple : twoSessions.Simple := ⟨⟨by decide, rfl, rfl, by decide, by decide⟩, hfb, by decide⟩
  exact (innerPatmatch_exact_iff hsimple (by decide) (by decide) (Nat.le_refl (patRounds twoSessions))).mpr
    (by decide)

lemma not_exact_of {inp : PatInput} (hp : inp.pat.WellFormed) {fuel : Nat} (fout : List Int)
    (hdone : innerPatmatch fuel inp (List.replicate inp.f1.length 0) = .done fout) (m : Nat)
    (hm : ¬ (fout[m]? = some 1 ↔ m ∈ inp.pat.begins 0 (runs inp.rows))) : ¬ inp.Exact fuel := by
  rintro ⟨fout', hfout', hexact⟩
  rw [hdone] at hfout'
  cases hfout'
  exact hm ((hexact m).trans (matchesAt_iff hp))

/-- A column in which the rows of 1, 2, 3 are looked for. -/
def oneTwoThree (ub f1 : List Int) : PatInput := ⟨⟨[1, 2, 3], [1, 1, 1], ub⟩, f1, none⟩

/-- A match is lost behind a failure at the last position. A run at the last position, and one at the
first, may be too long; one between them has to be as long as it may be. -/
theorem not_innerPatmatch_exact :
    (oneTwoThree [1, 1, 1] [1, 2, 1, 2, 3]).Simple ∧
      ¬ (oneTwoThree [1, 1, 1] [1, 2, 1, 2, 3]).Exact (patRounds (oneTwoThree [1, 1, 1] [1, 2, 1, 2, 3])) ∧
      ¬ (oneTwoThree [1, 1, 1] [1, 2, 3, 3]).Exact (patRounds (oneTwoThree [1, 1, 1] [1, 2, 3, 3])) ∧
      ¬ (oneTwoThree [1, 1, 1] [1, 1, 2, 3]).Exact (patRounds (oneTwoThree [1, 1, 1] [1, 1, 2, 3])) ∧
      ¬ (oneTwoThree [1, 2, 1] [1, 2, 3]).Exact (patRounds (oneTwoThree [1, 2, 1] [1, 2, 3])) := by
  have hp : ∀ ub f1, ub.length = 3 → (oneTwoThree ub f1).pat.WellFormed :=
    fun ub f1 hub => ⟨(by decide : 2 ≤ 3), rfl, hub,
      (by decide : ∀ q ∈ ([1, 2, 3] : List Int).zip [2, 3], q.1 ≠ q.2),
      (by decide : ∀ n ∈ ([1, 1, 1] : List Int), 1 ≤ n)⟩
  refine ⟨⟨hp _ _ rfl, ?_, by decide⟩, ?_, ?_, ?_, ?_⟩
  · rintro fb ⟨⟩
  · exact not_exact_of (hp _ _ rfl) [0, 0, 0, 0, 0] (by decide) 2 (by decide)
  · exact not_exact_of (hp _ _ rfl) [1, 0, 0, 0] (by decide) 0 (by decide)
  · exact not_exact_of (hp _ _ rfl) [1, 0, 0, 0] (by decide) 0 (by decide)
  · exact not_exact_of (hp _ _ rfl) [0, 0, 0] (by decide) 0 (by decide)

end Datacl
