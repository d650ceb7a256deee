import Datacl.Order.AppFld

/-!
# The loop of `app_tbl`

Every column is appended in its turn. Those that have been appended stay as they are, and so do the
ones to come.
-/

namespace Datacl

variable {env : Env} {s₀ s s' : Store}

/-- The field `i` has a column of `n` cells, and so has its null column. -/
structure FieldReady (env : Env) (s : Store) (i n : Nat) : Prop where
  used : (s.fld i).Used
  prim : (s.fld i).auxtype = .undefAuxtype
  column : ∃ f, HasColumn env s i n f
  nnUsed : 0 ≤ (s.fld i).nnFldId → (s.fld (s.fld i).nnFldId.toNat).Used
  nnType : 0 ≤ (s.fld i).nnFldId → (s.fld (s.fld i).nnFldId.toNat).auxtype = .nn
  nnColumn : 0 ≤ (s.fld i).nnFldId →
    ∃ y, getData env s (s.fld (s.fld i).nnFldId.toNat) = some y ∧ y.cells.length = n

/-- What the loop starts from. -/
structure AppSetup (env : Env) (s : Store) (t1Id t2Id nR1 nR2 : Nat) (pairs : List (Nat × Nat)) :
    Prop where
  rows1 : (s.tbl t1Id).nR.toNat = nR1
  rows2 : (s.tbl t2Id).nR.toNat = nR2
  pos : 0 < nR2
  files : ∀ i j, (s.fld i).Used → (s.fld j).Used → (s.fld i).ddirId = (s.fld j).ddirId →
    (s.fld i).fileno = (s.fld j).fileno → i = j
  fileno : ∀ i, (s.fld i).Used → 0 ≤ (s.fld i).fileno ∧ (s.fld i).fileno < s.nextFileno
  first : ∀ p ∈ pairs, FieldReady env s p.1 nR1
  second : ∀ p ∈ pairs, FieldReady env s p.2 nR2
  nodup : (pairs.map Prod.fst).Nodup
  other : ∀ p ∈ pairs, ∀ q ∈ pairs, q.2 = p.1 → q = p

/-- The columns of some pairs have been appended. -/
structure Appending (s₀ s : Store) (nR1 nR2 : Nat) (done : List (Nat × Nat)) : Prop where
  tbls : s.tbls = s₀.tbls
  next : s₀.nextFileno ≤ s.nextFileno
  same : ∀ i, (s₀.fld i).Used → (∀ p ∈ done, i ≠ p.1) → s.fld i = s₀.fld i ∧ s.file i = s₀.file i
  kept : ∀ p ∈ done, (s.fld p.1).name = (s₀.fld p.1).name ∧ (s.fld p.1).ddirId = (s₀.fld p.1).ddirId ∧
    (s.fld p.1).fileno = (s₀.fld p.1).fileno
  appended : ∀ p ∈ done, ColAppended s₀ s nR1 nR2 p.1 p.2
  nn : ∀ p ∈ done, 0 ≤ (s.fld p.1).nnFldId → NewNn s s₀.nextFileno (s.fld p.1).nnFldId.toNat
  slots : s.freeSlots + done.countP (fun p => 0 ≤ (s₀.fld p.2).nnFldId) = s₀.freeSlots

lemma appending_nil (s : Store) (nR1 nR2 : Nat) : Appending s s nR1 nR2 [] where
  tbls := rfl
  next := le_rfl
  same := fun _ _ _ => ⟨rfl, rfl⟩
  kept := fun _ h => absurd h List.not_mem_nil
  appended := fun _ h => absurd h List.not_mem_nil
  nn := fun _ h => absurd h List.not_mem_nil
  slots := rfl

/-! ### What a step leaves alone -/

lemma Touched.file {a i : Nat} (h : Touched s s' a) (hia : i ≠ a) (hu : (s.fld i).Used)
    (hlt : (s.fld i).fileno < s.nextFileno)
    (hother : ¬ ((s.fld i).ddirId = (s.fld a).ddirId ∧ (s.fld i).fileno = (s.fld a).fileno)) :
    s'.fld i = s.fld i ∧ s'.file i = s.file i := by
  have hfld := h.flds i hia hu
  refine ⟨hfld, ?_⟩
  unfold Store.file
  rw [hfld]
  exact h.disk _ _ hlt hother

lemma HasColumn.keep {i n : Nat} {f : DataFile} (h : HasColumn env s i n f)
    (hsame : s'.fld i = s.fld i ∧ s'.file i = s.file i) : HasColumn env s' i n f := by
  obtain ⟨hfld, hfile⟩ := hsame
  unfold Store.file at hfile
  rw [hfld] at hfile
  refine ⟨?_, h.length, by rw [hfld]; exact h.width⟩
  unfold getData qMmap
  rw [hfld, hfile]
  exact h.data

lemma ColAppended.keep {nR1 nR2 a b : Nat} (h : ColAppended s₀ s nR1 nR2 a b)
    (hsame : s'.fld a = s.fld a ∧ s'.file a = s.file a)
    (hnn : 0 ≤ (s.fld a).nnFldId → s'.fld (s.fld a).nnFldId.toNat = s.fld (s.fld a).nnFldId.toNat ∧
      s'.file (s.fld a).nnFldId.toNat = s.file (s.fld a).nnFldId.toNat) :
    ColAppended s₀ s' nR1 nR2 a b := by
  obtain ⟨hfld, hfile⟩ := hsame
  refine ⟨?_, ?_, ?_, ?_⟩
  · rw [Store.cells, hfile]
    exact h.cells
  · rw [← h.flags]
    unfold Store.flags
    rw [hfld]
    split_ifs with hpos
    · rw [Store.cells, (hnn hpos).2]
      rfl
    · rfl
  · rw [Store.FileszOk, hfile, hfld]
    exact h.filesz
  · intro hpos
    rw [hfld] at hpos ⊢
    rw [Store.FileszOk, (hnn hpos).1, (hnn hpos).2]
    exact h.nnFilesz hpos

/-- The flags that a step finds are those from before the loop. -/
lemma flags_eq {i : Nat} (hsame : s.fld i = s₀.fld i)
    (hnn : 0 ≤ (s₀.fld i).nnFldId → s.file (s₀.fld i).nnFldId.toNat = s₀.file (s₀.fld i).nnFldId.toNat)
    (n : Nat) : s.flags i n = s₀.flags i n := by
  unfold Store.flags
  rw [hsame]
  split_ifs with hpos
  · rw [Store.cells, hnn hpos]
    rfl
  · rfl

/-! ### A step -/

section

variable {t1Id t2Id nR1 nR2 : Nat} {pairs done rest : List (Nat × Nat)} {p : Nat × Nat}

lemma AppSetup.fst_notMem (hsetup : AppSetup env s₀ t1Id t2Id nR1 nR2 (done ++ p :: rest)) :
    ∀ q ∈ done, p.1 ≠ q.1 := by
  intro q hq heq
  have hnodup := hsetup.nodup
  rw [List.map_append, List.map_cons, List.nodup_append] at hnodup
  exact hnodup.2.2 q.1 (List.mem_map_of_mem hq) p.1 List.mem_cons_self heq.symm

lemma AppSetup.snd_notMem (hsetup : AppSetup env s₀ t1Id t2Id nR1 nR2 (done ++ p :: rest)) :
    ∀ q ∈ done, p.2 ≠ q.1 := by
  intro q hq heq
  have hpq := hsetup.other q (List.mem_append_left _ hq) p (List.mem_append_right _ List.mem_cons_self) heq
  exact hsetup.fst_notMem q hq (congrArg Prod.fst hpq)

lemma AppSetup.nn_notMem (hsetup : AppSetup env s₀ t1Id t2Id nR1 nR2 pairs) {k : Nat}
    (hk : (s₀.fld k).auxtype = .nn) : ∀ q ∈ pairs, k ≠ q.1 := by
  rintro q hq rfl
  rw [(hsetup.first q hq).prim] at hk
  cases hk

/-- A field that has not been appended to is as it was, with its null column. -/
lemma Appending.field (h : Appending s₀ s nR1 nR2 done)
    (hsetup : AppSetup env s₀ t1Id t2Id nR1 nR2 (done ++ p :: rest)) {i n : Nat}
    (hi : FieldReady env s₀ i n) (hnot : ∀ q ∈ done, i ≠ q.1) :
    (s.fld i = s₀.fld i ∧ s.file i = s₀.file i) ∧
      (0 ≤ (s₀.fld i).nnFldId → s.fld (s₀.fld i).nnFldId.toNat = s₀.fld (s₀.fld i).nnFldId.toNat ∧
        s.file (s₀.fld i).nnFldId.toNat = s₀.file (s₀.fld i).nnFldId.toNat) := by
  refine ⟨h.same i hi.used hnot, fun hpos => h.same _ (hi.nnUsed hpos) fun q hq => ?_⟩
  exact hsetup.nn_notMem (hi.nnType hpos) q (List.mem_append_left _ hq)

lemma Appending.ready (h : Appending s₀ s nR1 nR2 done)
    (hsetup : AppSetup env s₀ t1Id t2Id nR1 nR2 (done ++ p :: rest)) {x1 x2 : DataFile}
    (h1 : HasColumn env s₀ p.1 nR1 x1) (h2 : HasColumn env s₀ p.2 nR2 x2) :
    PairReady env s t1Id t2Id p.1 p.2 nR1 nR2 x1 x2 := by
  have hmem : p ∈ done ++ p :: rest := List.mem_append_right _ List.mem_cons_self
  have hfirst := hsetup.first p hmem
  have hsecond := hsetup.second p hmem
  obtain ⟨hsame1, -⟩ := h.field hsetup hfirst hsetup.fst_notMem
  obtain ⟨hsame2, hnn2⟩ := h.field hsetup hsecond hsetup.snd_notMem
  have htbl : ∀ t, s.tbl t = s₀.tbl t := fun t => by rw [Store.tbl, h.tbls]; rfl
  have hfileno := hsetup.fileno p.1 hfirst.used
  refine ⟨h1.keep hsame1, h2.keep hsame2, ?_, ?_, ?_, hsetup.pos, ?_, ?_⟩
  · rw [htbl]
    exact hsetup.rows1
  · rw [htbl]
    exact hsetup.rows2
  · rw [hsame1.1]
    exact hfirst.used
  · rw [hsame1.1]
    exact ⟨hfileno.1, hfileno.2.trans_le h.next⟩
  · rw [hsame1.1, hsame2.1]
    intro hpos
    obtain ⟨y, hy, hlen⟩ := hsecond.nnColumn hpos
    obtain ⟨hfld, hfile⟩ := hnn2 hpos
    refine ⟨y, ?_, hlen, ?_⟩
    · unfold Store.file at hfile
      rw [hfld] at hfile
      unfold getData qMmap
      rw [hfld, hfile]
      exact hy
    · rw [hfld]
      rintro ⟨hd, hn⟩
      exact hsetup.nn_notMem (hsecond.nnType hpos) p hmem
        (hsetup.files _ _ (hsecond.nnUsed hpos) hfirst.used hd hn)

/-- A field that has been appended to is left alone by the next step, with its null column. -/
lemma Appending.untouched (h : Appending s₀ s nR1 nR2 done)
    (hsetup : AppSetup env s₀ t1Id t2Id nR1 nR2 (done ++ p :: rest)) (htouched : Touched s s' p.1)
    {q : Nat × Nat} (hq : q ∈ done) :
    (s'.fld q.1 = s.fld q.1 ∧ s'.file q.1 = s.file q.1) ∧
      (0 ≤ (s.fld q.1).nnFldId → s'.fld (s.fld q.1).nnFldId.toNat = s.fld (s.fld q.1).nnFldId.toNat ∧
        s'.file (s.fld q.1).nnFldId.toNat = s.file (s.fld q.1).nnFldId.toNat) := by
  have hmem : p ∈ done ++ p :: rest := List.mem_append_right _ List.mem_cons_self
  have hfirst := hsetup.first p hmem
  have husedq := (hsetup.first q (List.mem_append_left _ hq)).used
  obtain ⟨⟨hfldp, -⟩, -⟩ := h.field hsetup hfirst hsetup.fst_notMem
  obtain ⟨hname, hdir, hno⟩ := h.kept q hq
  have hnep := hsetup.fst_notMem q hq
  constructor
  · refine htouched.file (Ne.symm hnep) ?_ ?_ ?_
    · rw [FldRec.Used, hname]
      exact husedq
    · rw [hno]
      exact (hsetup.fileno q.1 husedq).2.trans_le h.next
    · rw [hdir, hno, hfldp]
      rintro ⟨hd, hn⟩
      exact hnep (hsetup.files _ _ husedq hfirst.used hd hn).symm
  · intro hpos
    have hnn := h.nn q hq hpos
    refine htouched.file ?_ hnn.used hnn.fileno_lt ?_
    · intro heq
      have htype := hnn.auxtype
      rw [heq, hfldp, hfirst.prim] at htype
      cases htype
    · rintro ⟨-, hn⟩
      rw [hfldp] at hn
      exact absurd (hn ▸ hnn.le_fileno) (not_le.mpr (hsetup.fileno p.1 hfirst.used).2)

lemma Appending.step (h : Appending s₀ s nR1 nR2 done)
    (hsetup : AppSetup env s₀ t1Id t2Id nR1 nR2 (done ++ p :: rest))
    (hstep : ColStep s s' nR1 nR2 p.1 p.2) : Appending s₀ s' nR1 nR2 (done ++ [p]) := by
  have hmem : p ∈ done ++ p :: rest := List.mem_append_right _ List.mem_cons_self
  have hfirst := hsetup.first p hmem
  obtain ⟨hsame1, hnn1⟩ := h.field hsetup hfirst hsetup.fst_notMem
  obtain ⟨hsame2, hnn2⟩ := h.field hsetup (hsetup.second p hmem) hsetup.snd_notMem
  have htouched := hstep.touched
  have hall : ∀ {P : Nat × Nat → Prop}, (∀ q ∈ done, P q) → P p → ∀ q ∈ done ++ [p], P q := by
    intro P hdone hp q hq
    rcases List.mem_append.mp hq with hq | hq
    · exact hdone q hq
    · rw [List.mem_singleton.mp hq]
      exact hp
  refine ⟨htouched.tbls.trans h.tbls, h.next.trans htouched.next, ?_, hall ?_ ?_, hall ?_ ?_, hall ?_ ?_,
    ?_⟩
  · intro i hi hnot
    have hip : i ≠ p.1 := hnot p (List.mem_append_right _ List.mem_cons_self)
    obtain ⟨hfld, hfile⟩ := h.same i hi fun q hq => hnot q (List.mem_append_left _ hq)
    obtain ⟨hfld', hfile'⟩ := htouched.file hip (by rw [hfld]; exact hi)
      (by rw [hfld]; exact (hsetup.fileno i hi).2.trans_le h.next) (by
        rw [hfld, hsame1.1]
        rintro ⟨hd, hn⟩
        exact hip (hsetup.files _ _ hi hfirst.used hd hn))
    exact ⟨hfld'.trans hfld, hfile'.trans hfile⟩
  · intro q hq
    rw [(h.untouched hsetup htouched hq).1.1]
    exact h.kept q hq
  · rw [← hsame1.1]
    exact ⟨htouched.name, htouched.ddirId, htouched.fileno⟩
  · intro q hq
    obtain ⟨hsame, hnn⟩ := h.untouched hsetup htouched hq
    exact (h.appended q hq).keep hsame hnn
  · have hcells : ∀ i, s.file i = s₀.file i → s.cells i = s₀.cells i := by
      intro i hi
      rw [Store.cells, hi]
      rfl
    have happ := hstep.appended
    refine ⟨?_, ?_, happ.filesz, happ.nnFilesz⟩
    · rw [happ.cells, hcells _ hsame1.2, hcells _ hsame2.2]
    · rw [happ.flags, flags_eq hsame1.1 fun hpos => (hnn1 hpos).2,
        flags_eq hsame2.1 fun hpos => (hnn2 hpos).2]
  · intro q hq
    obtain ⟨⟨hfld, -⟩, hnn⟩ := h.untouched hsetup htouched hq
    rw [hfld]
    intro hpos
    have hnew := h.nn q hq hpos
    have hfldk := (hnn hpos).1
    refine ⟨?_, ?_, ?_, ?_⟩
    · rw [hfldk]
      exact hnew.used
    · rw [hfldk]
      exact hnew.auxtype
    · rw [hfldk]
      exact hnew.le_fileno
    · rw [hfldk]
      exact hnew.fileno_lt.trans_le htouched.next
  · intro hpos
    have hnew := hstep.nn hpos
    exact ⟨hnew.used, hnew.auxtype, h.next.trans hnew.le_fileno, hnew.fileno_lt⟩
  · have hslots := hstep.slots
    have hslots₀ := h.slots
    rw [List.countP_append, List.countP_singleton]
    rw [hsame2.1] at hslots
    simp only [decide_eq_true_eq]
    omega

/-! ### The loop -/

/-- All pairs can be appended, with free slots for the null columns they need. -/
def LoopFits (env : Env) (s : Store) (nR : Nat) (pairs : List (Nat × Nat)) (slots : Nat) : Prop :=
  (∀ p ∈ pairs, PairFits env s p.1 p.2 nR) ∧
    pairs.countP (fun p => 0 ≤ (s.fld p.2).nnFldId) ≤ slots

lemma loopFits_cons {nR slots : Nat} :
    LoopFits env s₀ nR (p :: rest) slots ↔
      (PairFits env s₀ p.1 p.2 nR ∧ (0 ≤ (s₀.fld p.2).nnFldId → 0 < slots)) ∧
        LoopFits env s₀ nR rest (slots - if 0 ≤ (s₀.fld p.2).nnFldId then 1 else 0) := by
  unfold LoopFits
  rw [List.forall_mem_cons, List.countP_cons]
  simp only [decide_eq_true_eq]
  split_ifs with hnn
  · constructor
    · rintro ⟨⟨hp, hrest⟩, hle⟩
      exact ⟨⟨hp, fun _ => by omega⟩, hrest, by omega⟩
    · rintro ⟨⟨hp, hpos⟩, hrest, hle⟩
      have := hpos hnn
      exact ⟨⟨hp, hrest⟩, by omega⟩
  · constructor
    · rintro ⟨⟨hp, hrest⟩, hle⟩
      exact ⟨⟨hp, fun h => absurd h hnn⟩, hrest, hle⟩
    · rintro ⟨⟨hp, -⟩, hrest, hle⟩
      exact ⟨⟨hp, hrest⟩, hle⟩

/-- The loop appends all columns, or it fails and has changed the data of one. -/
lemma appLoop (h : Appending s₀ s nR1 nR2 done)
    (hsetup : AppSetup env s₀ t1Id t2Id nR1 nR2 (done ++ rest)) :
    (LoopFits env s₀ (nR1 + nR2) rest s.freeSlots ∧
        ∃ s', Cmd.forEach (fun p => appFld env t1Id p.1 t2Id p.2) rest s = (some (), s') ∧
          Appending s₀ s' nR1 nR2 (done ++ rest)) ∨
      (¬ LoopFits env s₀ (nR1 + nR2) rest s.freeSlots ∧
        ∃ s', Cmd.forEach (fun p => appFld env t1Id p.1 t2Id p.2) rest s = (none, s') ∧
          ∃ q ∈ rest, s'.file q.1 ≠ s₀.file q.1) := by
  induction rest generalizing done s with
  | nil =>
    refine .inl ⟨⟨fun _ hp => absurd hp List.not_mem_nil, Nat.zero_le _⟩, s, rfl, ?_⟩
    rwa [List.append_nil]
  | cons p rest ih =>
    have hmem : p ∈ done ++ p :: rest := List.mem_append_right _ List.mem_cons_self
    obtain ⟨x1, h1⟩ := (hsetup.first p hmem).column
    obtain ⟨x2, h2⟩ := (hsetup.second p hmem).column
    obtain ⟨hsame1, -⟩ := h.field hsetup (hsetup.first p hmem) hsetup.fst_notMem
    obtain ⟨hsame2, -⟩ := h.field hsetup (hsetup.second p hmem) hsetup.snd_notMem
    have hfits : PairFits env s p.1 p.2 (nR1 + nR2) ↔ PairFits env s₀ p.1 p.2 (nR1 + nR2) := by
      unfold PairFits
      rw [hsame1.1, hsame2.1]
    rw [loopFits_cons, Cmd.forEach]
    rcases appFld_pair (h.ready hsetup h1 h2) with ⟨hok, s₁, hrun, hstep⟩ | ⟨hno, s₁, hrun, hfile⟩
    · rw [hfits, hsame2.1] at hok
      have hslots : s.freeSlots - (if 0 ≤ (s₀.fld p.2).nnFldId then 1 else 0) = s₁.freeSlots := by
        have := hstep.slots
        rw [hsame2.1] at this
        omega
      have hnext := h.step hsetup hstep
      rw [List.append_cons] at hsetup ⊢
      rw [hslots, Cmd.bind_of_eq hrun]
      rcases ih hnext hsetup with ⟨hrest, hsuccess⟩ | ⟨hrest, s', hfail, q, hq, hqfile⟩
      · exact .inl ⟨⟨hok, hrest⟩, hsuccess⟩
      · exact .inr ⟨fun hc => hrest hc.2, s', hfail, q, List.mem_cons_of_mem p hq, hqfile⟩
    · rw [hfits, hsame2.1] at hno
      refine .inr ⟨fun hc => hno hc.1, s₁, ?_, p, List.mem_cons_self, ?_⟩
      · rw [Cmd.bind_apply, hrun]
      · rw [hfile, h1.file]
        intro heq
        have hlen := congrArg (fun f : DataFile => f.cells.length) (Option.some.inj heq)
        rw [List.length_append, h2.length] at hlen
        have := hsetup.pos
        omega

end

end Datacl
