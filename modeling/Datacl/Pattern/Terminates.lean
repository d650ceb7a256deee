import Datacl.Pattern.Patmatch

/-!
# The search ends

Every search for a match begins behind the one before. Within a search the row or the position of the
pattern advances.
-/

namespace Datacl

/-- A pattern that `patmatch` accepts, but for the upper bounds: its columns have the same length, which
is at least 2, adjacent values are distinct and the lower bounds are positive. -/
structure Pattern.WellFormed (p : Pattern) : Prop where
  two : 2 ≤ p.fp.length
  lb : p.lb.length = p.fp.length
  ub : p.ub.length = p.fp.length
  adjacent : ∀ q ∈ p.fp.zip p.fp.tail, q.1 ≠ q.2
  pos : ∀ n ∈ p.lb, 1 ≤ n

/-- The breaks and the output are as long as the column. -/
structure PatInput.WellFormed (inp : PatInput) (fout : List Int) : Prop where
  pat : inp.pat.WellFormed
  fb : ∀ fb ∈ inp.fb, fb.length = inp.f1.length
  fout : fout.length = inp.f1.length

/-- The variables in a search that began at row `o`. -/
structure PatInv (inp : PatInput) (o : Nat) (s : PatState) : Prop where
  fout : s.fout.length = inp.f1.length
  i : s.i ≤ inp.f1.length
  read : inp.pat.read s.patIdx = some (s.target, s.minNumWanted, s.maxNumWanted)
  idle : s.isInPat = false → s.patIdx = 0 ∧ s.numSeen = 0 ∧ s.restart = -1 ∧ o = s.i
  active : s.isInPat = true → o ≤ s.matIdx ∧ s.matIdx < s.i ∧
    (s.restart = -1 ∨ o < s.restart ∧ s.restart ≤ inp.f1.length)

/-- The rounds that are left at most. -/
def patMeasure (inp : PatInput) (o : Nat) (s : PatState) : Nat :=
  (inp.f1.length - o) * (inp.f1.length + inp.pat.fp.length + 2) +
    if s.isInPat then inp.pat.fp.length - s.patIdx + (inp.f1.length - s.i)
    else inp.f1.length + inp.pat.fp.length + 1

section

variable {inp : PatInput} {fout : List Int} {o : Nat} {s : PatState}

/-- A position of the pattern can be read. -/
lemma Pattern.WellFormed.read (h : inp.pat.WellFormed) {k : Nat} (hk : k < inp.pat.fp.length) :
    ∃ q, inp.pat.read k = some q := by
  have hlb : k < inp.pat.lb.length := by rw [h.lb]; exact hk
  have hub : k < inp.pat.ub.length := by rw [h.ub]; exact hk
  unfold Pattern.read
  rw [List.getElem?_eq_getElem hk, List.getElem?_eq_getElem hlb, List.getElem?_eq_getElem hub]
  exact ⟨_, rfl⟩

lemma patIdx_lt (h : PatInv inp o s) : s.patIdx < inp.pat.fp.length := by
  by_contra hge
  have hread := h.read
  unfold Pattern.read at hread
  rw [List.getElem?_eq_none (not_lt.mp hge)] at hread
  cases hread

/-- A new search begins behind the last one. -/
lemma measure_lt_of_lt {o' : Nat} (hlt : o < o') (hle : o' ≤ inp.f1.length) :
    (inp.f1.length - o') * (inp.f1.length + inp.pat.fp.length + 2) +
        (inp.f1.length + inp.pat.fp.length + 1) <
      (inp.f1.length - o) * (inp.f1.length + inp.pat.fp.length + 2) := by
  have hmul : (inp.f1.length - o' + 1) * (inp.f1.length + inp.pat.fp.length + 2) ≤
      (inp.f1.length - o) * (inp.f1.length + inp.pat.fp.length + 2) :=
    Nat.mul_le_mul_right _ (by omega)
  rw [Nat.add_mul, Nat.one_mul] at hmul
  omega

/-- The body of the loop goes on with a later search or a later point of this one. -/
def Progress (inp : PatInput) (o : Nat) (s : PatState) (res : Option PatState) : Prop :=
  ∃ s' o', res = some s' ∧ PatInv inp o' s' ∧ patMeasure inp o' s' < patMeasure inp o s

/-- A reset begins a search where it leaves off, or where a restart was noted. -/
lemma progress_reset (hp : inp.pat.WellFormed) (hfout : s.fout.length = inp.f1.length)
    (hi : s.i ≤ inp.f1.length) (hoi : o < s.i)
    (hrestart : s.restart = -1 ∨ o < s.restart ∧ s.restart ≤ inp.f1.length) {s₀ : PatState} :
    Progress inp o s₀ (s.reset inp.pat) := by
  obtain ⟨⟨target, minNumWanted, maxNumWanted⟩, hq⟩ := hp.read (k := 0) (by have := hp.two; omega)
  unfold PatState.reset
  rw [hq]
  obtain ⟨i', hi'⟩ : ∃ i', (if 0 < s.restart then s.restart.toNat else s.i) = i' := ⟨_, rfl⟩
  have hlt : o < i' ∧ i' ≤ inp.f1.length := by
    split_ifs at hi' <;> omega
  simp only [hi']
  refine ⟨_, i', rfl, ⟨hfout, hlt.2, hq, fun _ => ⟨rfl, rfl, rfl, rfl⟩, ?_⟩, ?_⟩
  · intro h
    cases h
  · have hmul := measure_lt_of_lt hlt.1 hlt.2
    unfold patMeasure
    dsimp only
    rw [if_neg Bool.false_ne_true]
    omega

/-- A search that is under way has a start. -/
lemma PatInv.isActive (h : PatInv inp o s) (hseen : s.numSeen ≠ 0 ∨ s.patIdx ≠ 0) :
    s.isInPat = true := by
  rw [← Bool.not_eq_false]
  intro hidle
  obtain ⟨hpat, hnum, -⟩ := h.idle hidle
  rcases hseen with hseen | hseen
  · exact hseen hnum
  · exact hseen hpat

/-- The match index of a search under way is a row. -/
lemma PatInv.mark (h : PatInv inp o s) (hact : s.isInPat = true) :
    s.mark = some { s with fout := s.fout.set s.matIdx.toNat 1 } := by
  obtain ⟨hle, hlt, -⟩ := h.active hact
  have hi := h.i
  have hfout := h.fout
  exact if_pos (by omega)

lemma PatInv.reset (hp : inp.pat.WellFormed) (h : PatInv inp o s) (hact : s.isInPat = true)
    {s₀ : PatState} : Progress inp o s₀ (s.reset inp.pat) := by
  obtain ⟨hle, hlt, hrestart⟩ := h.active hact
  exact progress_reset hp h.fout h.i (by omega) hrestart

lemma PatInv.mark_reset (hp : inp.pat.WellFormed) (h : PatInv inp o s) (hact : s.isInPat = true)
    {s₀ : PatState} : Progress inp o s₀ (s.mark.bind (PatState.reset inp.pat)) := by
  obtain ⟨hle, hlt, hrestart⟩ := h.active hact
  rw [h.mark hact, Option.bind_some]
  have hfout : (s.fout.set s.matIdx.toNat 1).length = inp.f1.length := by rw [List.length_set, h.fout]
  exact progress_reset (s := { s with fout := s.fout.set s.matIdx.toNat 1 }) hp hfout h.i
    (show o < s.i by omega) hrestart

lemma PatInv.consume (h : PatInv inp o s) (hact : s.isInPat = true) (hi : s.i < inp.f1.length) :
    Progress inp o s (some s.consume) := by
  obtain ⟨hle, hlt, hrestart⟩ := h.active hact
  refine ⟨_, o, rfl, ⟨h.fout, hi, h.read, ?_, ?_⟩, ?_⟩
  · intro hidle
    exact absurd (hact.symm.trans hidle) (by decide)
  · intro _
    refine ⟨hle, ?_, hrestart⟩
    show s.matIdx < ((s.i + 1 : Nat) : Int)
    omega
  · unfold patMeasure PatState.consume
    dsimp only
    rw [if_pos hact, if_pos hact]
    omega

/-- A search begins, or goes on in a run so long that `num_seen` has come back to 0. -/
lemma PatInv.consume_first (h : PatInv inp o s) (hi : s.i < inp.f1.length) :
    Progress inp o s (some { s with matIdx := s.i, isInPat := true }.consume) := by
  have ho : o ≤ s.i ∧ (s.restart = -1 ∨ o < s.restart ∧ s.restart ≤ inp.f1.length) := by
    cases hact : s.isInPat with
    | false =>
      obtain ⟨-, -, hrestart, rfl⟩ := h.idle hact
      exact ⟨le_rfl, .inl hrestart⟩
    | true =>
      obtain ⟨hle, hlt, hrestart⟩ := h.active hact
      exact ⟨by omega, hrestart⟩
  refine ⟨_, o, rfl, ⟨h.fout, hi, h.read, ?_, ?_⟩, ?_⟩
  · intro hidle
    cases hidle
  · intro _
    refine ⟨?_, ?_, ho.2⟩
    · exact Int.ofNat_le.mpr ho.1
    · show (s.i : Int) < ((s.i + 1 : Nat) : Int)
      omega
  · unfold patMeasure PatState.consume
    dsimp only
    rw [if_pos rfl]
    split_ifs <;> omega

lemma PatInv.advance (hp : inp.pat.WellFormed) (h : PatInv inp o s) (hact : s.isInPat = true)
    (hlast : s.patIdx + 1 < inp.pat.fp.length) : Progress inp o s (s.advance inp.pat) := by
  obtain ⟨⟨target, minNumWanted, maxNumWanted⟩, hq⟩ := hp.read hlast
  unfold PatState.advance
  rw [hq]
  refine ⟨_, o, rfl, ⟨h.fout, h.i, hq, ?_, ?_⟩, ?_⟩
  · intro hidle
    exact absurd (hact.symm.trans hidle) (by decide)
  · intro _
    exact h.active hact
  · unfold patMeasure
    dsimp only
    rw [if_pos hact, if_pos hact]
    omega

/-- Noting a restart changes nothing else. -/
lemma PatInv.noteRestart (h : PatInv inp o s) (hi : s.i < inp.f1.length) (isx : Bool) (first item : Int) :
    PatInv inp o (s.noteRestart isx first item) ∧
      patMeasure inp o (s.noteRestart isx first item) = patMeasure inp o s ∧
      (s.noteRestart isx first item).i = s.i := by
  unfold PatState.noteRestart
  split_ifs with hnote
  · obtain ⟨-, hact, -, -⟩ := hnote
    obtain ⟨hle, hlt, -⟩ := h.active hact
    refine ⟨⟨h.fout, h.i, h.read, ?_, ?_⟩, rfl, rfl⟩
    · intro hidle
      exact absurd (hact.symm.trans hidle) (by decide)
    · intro _
      refine ⟨hle, hlt, .inr ⟨?_, ?_⟩⟩
      · dsimp only
        omega
      · dsimp only
        omega
  · exact ⟨h, rfl, rfl⟩

/-- Breaks are looked for in a search under way only. -/
lemma atBreak_cases (hfb : ∀ fb ∈ inp.fb, fb.length = inp.f1.length) (hi : s.i < inp.f1.length) :
    ∃ b, s.atBreak inp.fb = some b ∧ (b = true → s.numSeen ≠ 0) := by
  unfold PatState.atBreak
  cases hcases : inp.fb with
  | none => exact ⟨false, rfl, fun h => absurd h (by decide)⟩
  | some fb =>
    have hlt : s.i < fb.length := by
      rw [hfb fb hcases]
      exact hi
    dsimp only
    split_ifs with hseen
    · rw [List.getElem?_eq_getElem hlt]
      exact ⟨_, rfl, fun _ => by omega⟩
    · exact ⟨false, rfl, fun h => absurd h (by decide)⟩

lemma PatInv.stepEnd (hp : inp.pat.WellFormed) (h : PatInv inp o s) (hi : s.i < inp.f1.length)
    (hend : s.atEnd inp.pat.fp.length) (item : Int) : Progress inp o s (s.stepEnd inp.pat item) := by
  have hlt := patIdx_lt h
  have htwo := hp.two
  -- before a search the lower bound is not reached
  have hmin : s.minNumWanted ≤ s.numSeen → s.isInPat = true := by
    intro hle
    rw [← Bool.not_eq_false]
    intro hidle
    obtain ⟨hpat, hnum, -⟩ := h.idle hidle
    have hread := h.read
    unfold Pattern.read at hread
    obtain ⟨target, -, hread⟩ := Option.bind_eq_some_iff.mp hread
    obtain ⟨n, hn, hread⟩ := Option.bind_eq_some_iff.mp hread
    obtain ⟨m, -, hread⟩ := Option.bind_eq_some_iff.mp hread
    have hmin : n = s.minNumWanted := (Prod.mk.inj (Prod.mk.inj (Option.some.inj hread)).2).1
    have hpos := hp.pos n (List.mem_of_getElem? hn)
    omega
  unfold PatState.stepEnd
  split_ifs with hitem hfirst hseen hlast
  · exact h.consume_first hi
  · exact h.consume (h.isActive (by tauto)) hi
  · exact h.mark_reset hp (hmin hseen)
  · refine h.advance hp (hmin hseen) ?_
    rcases hend with hzero | hlast'
    · omega
    · exact absurd hlast' hlast
  · cases hact : s.isInPat with
    | false =>
      obtain ⟨-, -, hrestart, ho⟩ := h.idle hact
      exact progress_reset (s := { s with i := s.i + 1 }) hp h.fout hi (show o < s.i + 1 by omega)
        (.inl hrestart)
    | true =>
      obtain ⟨hle, hlt', hrestart⟩ := h.active hact
      exact progress_reset (s := { s with i := s.i + 1 }) hp h.fout hi (show o < s.i + 1 by omega)
        hrestart

lemma PatInv.stepMiddle (hp : inp.pat.WellFormed) (h : PatInv inp o s) (hi : s.i < inp.f1.length)
    (hend : ¬ s.atEnd inp.pat.fp.length) (item : Int) :
    Progress inp o s (s.stepMiddle inp.pat item) := by
  have hlt := patIdx_lt h
  obtain ⟨hzero, hlast⟩ := not_or.mp hend
  have hact := h.isActive (.inr hzero)
  unfold PatState.stepMiddle
  split_ifs
  · exact h.consume hact hi
  · exact h.reset hp hact
  · exact h.advance hp hact (by omega)
  · exact h.reset hp hact

/-- One round. -/
lemma PatInv.body (hwf : inp.WellFormed fout) (h : PatInv inp o s) (hmore : inp.more s = true) :
    Progress inp o s (inp.body s) := by
  have hi : s.i < inp.f1.length := of_decide_eq_true hmore
  obtain ⟨s₁, hs₁⟩ : ∃ s₁, s.noteRestart inp.pat.isx (inp.pat.fp.headD 0) inp.f1[s.i] = s₁ := ⟨_, rfl⟩
  obtain ⟨h₁, hmeasure, hi₁⟩ := h.noteRestart hi inp.pat.isx (inp.pat.fp.headD 0) inp.f1[s.i]
  rw [hs₁] at h₁ hmeasure hi₁
  obtain ⟨brk, hbrk, hseen⟩ := atBreak_cases (s := s₁) hwf.fb (by rw [hi₁]; exact hi)
  have hbody : inp.body s =
      if brk then
        if s₁.complete inp.pat.fp.length then s₁.mark.bind (PatState.reset inp.pat)
        else s₁.reset inp.pat
      else if s₁.atEnd inp.pat.fp.length then s₁.stepEnd inp.pat inp.f1[s.i]
      else s₁.stepMiddle inp.pat inp.f1[s.i] := by
    unfold PatInput.body
    rw [List.getElem?_eq_getElem hi, Option.bind_eq_bind, Option.bind_some, hs₁]
    dsimp only
    rw [hbrk]
    rfl
  have hprogress : Progress inp o s₁ (inp.body s) := by
    rw [hbody]
    split_ifs with hb hcomplete hend
    · exact h₁.mark_reset hwf.pat (h₁.isActive (.inl (hseen hb)))
    · exact h₁.reset hwf.pat (h₁.isActive (.inl (hseen hb)))
    · exact h₁.stepEnd hwf.pat (by rw [hi₁]; exact hi) hend _
    · exact h₁.stepMiddle hwf.pat (by rw [hi₁]; exact hi) hend _
  obtain ⟨s', o', hres, hinv, hlt⟩ := hprogress
  exact ⟨s', o', hres, hinv, hmeasure ▸ hlt⟩

end

/-- The number of rounds that suffices. -/
def patRounds (inp : PatInput) : Nat :=
  inp.f1.length * (inp.f1.length + inp.pat.fp.length + 2) + (inp.f1.length + inp.pat.fp.length + 1)

section

variable {inp : PatInput} {fout : List Int} {s : PatState}

/-- The loop is reached. -/
lemma innerPatmatch_eq (hp : inp.pat.WellFormed) (hstart : inp.start fout = some s) (fuel : Nat) :
    innerPatmatch fuel inp fout =
      match Looping.loop inp.more inp.body fuel s with
      | .done s => inp.finish s
      | .failed => .failed
      | .running => .running := by
  have htwo := hp.two
  have hadjacent : ¬ ((inp.pat.fp.zip inp.pat.fp.tail).any fun q => q.1 = q.2) = true := by
    rw [List.any_eq_true]
    rintro ⟨q, hq, heq⟩
    exact hp.adjacent q hq (of_decide_eq_true heq)
  unfold innerPatmatch
  rw [hstart]
  exact (if_neg (by omega)).trans (if_neg hadjacent)

/-- The loop ends. -/
lemma loop_done (hwf : inp.WellFormed fout) (hstart : inp.start fout = some s) {fuel : Nat}
    (hfuel : patRounds inp ≤ fuel) :
    ∃ t o, Looping.loop inp.more inp.body fuel s = .done t ∧ PatInv inp o t := by
  have htwo := hwf.pat.two
  obtain ⟨⟨target, minNumWanted, maxNumWanted⟩, hq⟩ := hwf.pat.read (k := 0) (by omega)
  obtain rfl : ⟨0, -1, 0, target, minNumWanted, maxNumWanted, 0, -1, false, fout⟩ = s := by
    unfold PatInput.start at hstart
    rw [hq] at hstart
    exact Option.some.inj hstart
  have hinv : PatInv inp 0 ⟨0, -1, 0, target, minNumWanted, maxNumWanted, 0, -1, false, fout⟩ := by
    refine ⟨hwf.fout, Nat.zero_le _, hq, fun _ => ⟨rfl, rfl, rfl, rfl⟩, ?_⟩
    intro h
    cases h
  obtain ⟨t, o, hloop, hend, -⟩ := Looping.loop_ends
    (fun o s h hmore => PatInv.body hwf h hmore) hinv (n := fuel) (by
      unfold patMeasure
      rw [if_neg Bool.false_ne_true, Nat.sub_zero]
      exact hfuel)
  exact ⟨t, o, hloop, hend⟩

end

/-- The search ends without an access outside an array. -/
theorem innerPatmatch_terminates {inp : PatInput} {fout : List Int} (hwf : inp.WellFormed fout)
    {fuel : Nat} (hfuel : patRounds inp ≤ fuel) :
    ∃ fout', innerPatmatch fuel inp fout = .done fout' ∧ fout'.length = inp.f1.length := by
  have htwo := hwf.pat.two
  obtain ⟨⟨target, minNumWanted, maxNumWanted⟩, hq⟩ := hwf.pat.read (k := 0) (by omega)
  have hstart : inp.start fout =
      some ⟨0, -1, 0, target, minNumWanted, maxNumWanted, 0, -1, false, fout⟩ := by
    unfold PatInput.start
    rw [hq]
    rfl
  obtain ⟨s, o, hloop, hend⟩ := loop_done hwf hstart hfuel
  rw [innerPatmatch_eq hwf.pat hstart, hloop]
  dsimp only
  unfold PatInput.finish
  split_ifs with hcomplete
  · have hact := hend.isActive (.inr (by have := hcomplete.1; omega))
    rw [hend.mark hact]
    exact ⟨_, rfl, by rw [← hend.fout]; exact List.length_set ..⟩
  · exact ⟨_, rfl, hend.fout⟩

/-- A pattern whose first value occurs again. -/
def recurring : PatInput where
  pat := ⟨[1, 2, 1, 3], [1, 1, 1, 1], [2, 1, 1, 1]⟩
  f1 := [1, 1, 2, 1, 2, 1, 3]
  fb := some [1, 0, 0, 0, 0, 0, 0]

/-- The search for it begins again at the fourth row. -/
theorem innerPatmatch_terminates_recurring :
    ∃ fout', innerPatmatch (patRounds recurring) recurring (List.replicate 7 0) = .done fout' ∧
      fout'.length = recurring.f1.length := by
  have hfb : ∀ fb ∈ recurring.fb, fb.length = recurring.f1.length := by
    rintro fb ⟨⟩
    rfl
  have hwf : recurring.WellFormed (List.replicate 7 0) :=
    ⟨⟨by decide, rfl, rfl, by decide, by decide⟩, hfb, rfl⟩
  exact innerPatmatch_terminates hwf (Nat.le_refl (patRounds recurring))

end Datacl
