import Datacl.Compound.ExprRun

/-!
# The buffers of a compound expression

The fields that `chk_comp_expr` finds are fields of the table or were written by an earlier
statement, and every statement writes buffers of its own.
-/

namespace Datacl

/-- The fields that a statement reads. -/
def CompExpr.ins {φ : Type} : CompExpr φ → List φ
  | .f1s1opf2 f1 _ _ _ => [f1]
  | .f1f2opf3 f1 f2 _ _ => [f1, f2]
  | .f1opf2 f1 _ _ => [f1]
  | .fToS f1 _ _ => [f1]

/-- A field of the table, or one that has been written. -/
def Known (flds : List TblFld) (done : List (CompExpr CompFld)) (f : CompFld) : Prop :=
  f ∈ written done ∨ (f.isTemp = false ∧ tblFld flds f.name = some f)

/-- What `chk_comp_expr` makes sure of for a statement. -/
structure Linked (flds : List TblFld) (done : List (CompExpr CompFld)) (e : CompExpr CompFld) :
    Prop where
  ins : ∀ f ∈ e.ins, Known flds done f
  index : ∀ f ∈ e.out, f.index = flds.length + done.length
  hasNull : ∀ f ∈ e.out, f.hasNull = e.ins.any CompFld.hasNull
  fresh : ∀ f ∈ e.out, isCreatedPrior done f.name = none

section

variable {flds : List TblFld} {done : List (CompExpr CompFld)}

lemma name_of_tblFld {name : String} {f : CompFld} (h : tblFld flds name = some f) :
    f.name = name := by
  obtain ⟨p, -, rfl⟩ := Option.map_eq_some_iff.mp h
  rfl

lemma known_of_procFldRead {name : String} {f : CompFld} (h : procFldRead flds done name = some f) :
    Known flds done f ∧ f.name = name := by
  unfold procFldRead at h
  by_cases hfits : compNameFits name = true
  · rw [if_pos hfits] at h
    cases hprior : isCreatedPrior done name with
    | some g =>
      rw [hprior] at h
      obtain rfl := Option.some.inj h
      exact ⟨.inl (List.mem_of_find?_eq_some hprior), by simpa using List.find?_some hprior⟩
    | none =>
      rw [hprior] at h
      dsimp only at h
      split_ifs at h with htemp
      have hname := name_of_tblFld h
      refine ⟨.inr ⟨?_, by rwa [hname]⟩, hname⟩
      rw [CompFld.isTemp, hname]
      simpa using htemp
  · rw [if_neg hfits] at h
    cases h

lemma of_procFldWrite {name : String} {t : IntType} {hasNull : Bool} {f : CompFld}
    (h : procFldWrite flds done name t hasNull = some f) :
    f = ⟨name, flds.length + done.length, t, hasNull⟩ ∧ isCreatedPrior done name = none := by
  unfold procFldWrite at h
  split_ifs at h with hok
  exact ⟨(Option.some.inj h).symm, by simpa using hok.2⟩

/-- A line that is accepted. -/
lemma linked_of_chkStmt {st : CompExpr String} {e : CompExpr CompFld}
    (h : chkStmt flds done st = some e) : Linked flds done e := by
  cases st with
  | f1s1opf2 f1 scalars op f2 =>
    obtain ⟨r1, hr1, h⟩ := Option.bind_eq_some_iff.mp h
    split_ifs at h
    obtain ⟨t, -, h⟩ := Option.bind_eq_some_iff.mp h
    obtain ⟨w, hw, h⟩ := Option.bind_eq_some_iff.mp h
    obtain ⟨rfl, hfresh⟩ := of_procFldWrite hw
    rw [← Option.some.inj h]
    refine ⟨?_, ?_, ?_, ?_⟩ <;> simp only [CompExpr.ins, CompExpr.out, List.mem_singleton,
      Option.mem_def, Option.some_inj, forall_eq, forall_eq', List.any_cons, List.any_nil,
      Bool.or_false]
    · exact (known_of_procFldRead hr1).1
    · exact hfresh
  | f1f2opf3 f1 f2 op f3 =>
    obtain ⟨r1, hr1, h⟩ := Option.bind_eq_some_iff.mp h
    obtain ⟨r2, hr2, h⟩ := Option.bind_eq_some_iff.mp h
    obtain ⟨t, -, h⟩ := Option.bind_eq_some_iff.mp h
    obtain ⟨w, hw, h⟩ := Option.bind_eq_some_iff.mp h
    obtain ⟨rfl, hfresh⟩ := of_procFldWrite hw
    rw [← Option.some.inj h]
    refine ⟨?_, ?_, ?_, ?_⟩ <;> simp only [CompExpr.ins, CompExpr.out, List.forall_mem_cons,
      Option.mem_def, Option.some_inj, forall_eq', List.any_cons, List.any_nil, Bool.or_false]
    · exact ⟨(known_of_procFldRead hr1).1, (known_of_procFldRead hr2).1, by simp⟩
    · exact hfresh
  | f1opf2 f1 op f2 =>
    obtain ⟨r1, hr1, h⟩ := Option.bind_eq_some_iff.mp h
    obtain ⟨t, -, h⟩ := Option.bind_eq_some_iff.mp h
    obtain ⟨w, hw, h⟩ := Option.bind_eq_some_iff.mp h
    obtain ⟨rfl, hfresh⟩ := of_procFldWrite hw
    rw [← Option.some.inj h]
    refine ⟨?_, ?_, ?_, ?_⟩ <;> simp only [CompExpr.ins, CompExpr.out, List.mem_singleton,
      Option.mem_def, Option.some_inj, forall_eq, forall_eq', List.any_cons, List.any_nil,
      Bool.or_false]
    · exact (known_of_procFldRead hr1).1
    · exact hfresh
  | fToS f1 op envVar =>
    obtain ⟨r1, hr1, h⟩ := Option.bind_eq_some_iff.mp h
    split_ifs at h
    rw [← Option.some.inj h]
    refine ⟨?_, ?_, ?_, ?_⟩ <;> simp only [CompExpr.ins, CompExpr.out, List.mem_singleton,
      Option.not_mem_none, forall_eq, false_implies, implies_true]
    exact (known_of_procFldRead hr1).1

/-! ### Programs -/

lemma written_append (done : List (CompExpr CompFld)) (e : CompExpr CompFld) :
    written (done ++ [e]) = e.out.toList ++ written done := by
  rw [written, written, List.filterMap_append, List.reverse_append]
  cases h : e.out <;> simp [h]

lemma progOf_append (rt : Runtime) (done : List (CompExpr CompFld)) (e : CompExpr CompFld) :
    progOf rt (done ++ [e]).zipIdx =
      progOf rt done.zipIdx ++ CompExpr.prog rt (e, done.length) := by
  rw [progOf, progOf, List.zipIdx_append, List.flatMap_append]
  simp

/-- The program of a statement that writes a field. -/
lemma prog_of_out (rt : Runtime) {e : CompExpr CompFld} {f : CompFld} (h : e.out = some f) (i : Nat) :
    ∃ row, CompExpr.prog rt (e, i) =
      nnPart e.ins f ++ [.assign (e.ins.map CompFld.X) f.X row] := by
  cases e with
  | f1s1opf2 f1 scalars op f2 =>
    obtain rfl := Option.some.inj h
    exact ⟨_, rfl⟩
  | f1f2opf3 f1 f2 op f3 =>
    obtain rfl := Option.some.inj h
    exact ⟨_, rfl⟩
  | f1opf2 f1 op f2 =>
    obtain rfl := Option.some.inj h
    exact ⟨_, rfl⟩
  | fToS f1 op envVar => cases h

/-- The program of a statement that prints a result. -/
lemma prog_of_out_none (rt : Runtime) {e : CompExpr CompFld} (h : e.out = none) (i : Nat) :
    ∃ t op srcs, CompExpr.prog rt (e, i) =
      [.observe i srcs fun p cols => PartSum.addVals t op p (colVals cols)] ∧
      ∀ k ∈ srcs, ∃ f ∈ e.ins, k = f.X ∨ (f.hasNull = true ∧ k = f.nnX) := by
  cases e with
  | f1s1opf2 f1 scalars op f2 => cases h
  | f1f2opf3 f1 f2 op f3 => cases h
  | f1opf2 f1 op f2 => cases h
  | fToS f1 op envVar =>
    refine ⟨_, _, _, rfl, fun k hk => ⟨f1, List.mem_singleton_self f1, ?_⟩⟩
    split_ifs at hk with hnull
    · rcases List.mem_cons.mp hk with rfl | hk
      · exact .inl rfl
      · exact .inr ⟨hnull, List.mem_singleton.mp hk⟩
    · exact .inl (List.mem_singleton.mp hk)

/-- The null column is written if one is read. -/
lemma nnPart_cases (fs : List CompFld) (f : CompFld) :
    (fs.any CompFld.hasNull = false ∧ nnPart fs f = []) ∨
      (fs.any CompFld.hasNull = true ∧ ∃ row, nnPart fs f =
        [.assign ((fs.filter CompFld.hasNull).map CompFld.nnX) f.nnX row]) := by
  have hany : fs.any CompFld.hasNull = false ↔ (fs.filter CompFld.hasNull).map CompFld.nnX = [] := by
    simp
  unfold nnPart
  split
  next h => exact .inl ⟨hany.mpr h, rfl⟩
  next k h =>
    refine .inr ⟨?_, _, by rw [h]⟩
    rw [← Bool.not_eq_false, hany, h]
    simp
  next ks h1 h2 =>
    refine .inr ⟨?_, _, rfl⟩
    rw [← Bool.not_eq_false, hany]
    exact h1

lemma dsts_vec {fs : List CompFld} {f : CompFld} {srcs : List Nat}
    {row : List Int → Option Int} (hnull : f.hasNull = fs.any CompFld.hasNull) {k : Nat} :
    k ∈ RowProgram.dsts (nnPart fs f ++ [.assign srcs f.X row]) ↔
      k = f.X ∨ (f.hasNull = true ∧ k = f.nnX) := by
  rw [RowProgram.dsts_append, hnull]
  rcases nnPart_cases fs f with ⟨hany, h⟩ | ⟨hany, row', h⟩
  · simp [h, hany, RowProgram.dsts]
  · simp only [h, hany, RowProgram.dsts, List.mem_append, List.mem_singleton, true_and]
    tauto

/-! ### Every statement writes buffers of its own -/

/-- The buffers of the fields of the table. -/
def baseBufs (flds : List TblFld) : List Nat :=
  (List.range flds.length).flatMap fun i => [4 * i, 4 * i + 1]

lemma mem_baseBufs {k : Nat} : k ∈ baseBufs flds ↔ k / 4 < flds.length ∧ k % 4 < 2 := by
  simp only [baseBufs, List.mem_flatMap, List.mem_range, List.mem_cons, List.not_mem_nil, or_false]
  constructor
  · rintro ⟨i, hi, rfl | rfl⟩ <;> omega
  · intro h
    exact ⟨k / 4, h.1, by omega⟩

lemma X_div (f : CompFld) : f.X / 4 = f.index := by
  unfold CompFld.X
  split_ifs <;> omega

lemma nnX_div (f : CompFld) : f.nnX / 4 = f.index := by
  unfold CompFld.nnX CompFld.X
  split_ifs <;> omega

lemma tblFld_eq_some {name : String} {f : CompFld} (h : tblFld flds name = some f) :
    ∃ g, flds[f.index]? = some g ∧ f.name = g.name ∧ f.fldtype = g.fldtype ∧
      f.hasNull = g.nn.isSome ∧ flds.find? (fun g => g.name = name) = some g := by
  obtain ⟨⟨g, i⟩, hfind, rfl⟩ := Option.map_eq_some_iff.mp h
  have hmem := List.mem_of_find?_eq_some hfind
  have hname : g.name = name := by simpa using List.find?_some hfind
  have hfst : flds.find? (fun g => g.name = name) =
      (flds.zipIdx.find? fun p => p.1.name = name).map Prod.fst := by
    have hmap : flds = flds.zipIdx.map Prod.fst := (List.zipIdx_map_fst 0 flds).symm
    conv_lhs => rw [hmap]
    rw [List.find?_map]
    rfl
  refine ⟨g, List.mem_zipIdx_iff_getElem?.mp hmem, hname.symm, rfl, rfl, ?_⟩
  rw [hfst, hfind]
  rfl

lemma index_lt_of_tblFld {name : String} {f : CompFld} (h : tblFld flds name = some f) :
    f.index < flds.length := by
  obtain ⟨g, hg, -⟩ := tblFld_eq_some h
  exact (List.getElem?_eq_some_iff.mp hg).1

/-- The buffers of a field of the table. -/
lemma mem_baseBufs_of_tblFld {f : CompFld} (htemp : f.isTemp = false)
    (h : tblFld flds f.name = some f) : f.X ∈ baseBufs flds ∧ f.nnX ∈ baseBufs flds := by
  have hlt := index_lt_of_tblFld h
  have hX : f.X = 4 * f.index := by
    rw [CompFld.X, htemp]
    rfl
  rw [mem_baseBufs, mem_baseBufs, CompFld.nnX, hX]
  omega

/-- The buffers that the statements so far have. -/
structure OwnBuffers (rt : Runtime) (flds : List TblFld) (done : List (CompExpr CompFld)) : Prop where
  wf : RowProgram.WF (baseBufs flds) (progOf rt done.zipIdx)
  written : ∀ f ∈ written done, f.X ∈ RowProgram.dsts (progOf rt done.zipIdx) ∧
    (f.hasNull = true → f.nnX ∈ RowProgram.dsts (progOf rt done.zipIdx))
  index : ∀ k ∈ RowProgram.dsts (progOf rt done.zipIdx),
    flds.length ≤ k / 4 ∧ k / 4 < flds.length + done.length
  nodup : (RowProgram.slots (progOf rt done.zipIdx)).Nodup
  slots : ∀ i ∈ RowProgram.slots (progOf rt done.zipIdx), i < done.length
  splits : ∀ slot srcs upd, RowProgram.Stmt.observe slot srcs upd ∈ progOf rt done.zipIdx →
    RowProgram.Splits upd

variable {rt : Runtime}

lemma ownBuffers_nil (rt : Runtime) (flds : List TblFld) : OwnBuffers rt flds [] where
  wf := trivial
  written f hf := by cases hf
  index k hk := by cases hk
  nodup := List.nodup_nil
  slots i hi := by cases hi
  splits slot srcs upd h := by cases h

/-- The buffers of a known field. -/
lemma OwnBuffers.known (h : OwnBuffers rt flds done) {f : CompFld} (hf : Known flds done f) :
    f.X ∈ baseBufs flds ++ RowProgram.dsts (progOf rt done.zipIdx) ∧
      (f.hasNull = true → f.nnX ∈ baseBufs flds ++ RowProgram.dsts (progOf rt done.zipIdx)) := by
  rcases hf with hf | ⟨htemp, hf⟩
  · obtain ⟨hX, hnnX⟩ := h.written f hf
    exact ⟨List.mem_append_right _ hX, fun hnull => List.mem_append_right _ (hnnX hnull)⟩
  · obtain ⟨hX, hnnX⟩ := mem_baseBufs_of_tblFld htemp hf
    exact ⟨List.mem_append_left _ hX, fun _ => List.mem_append_left _ hnnX⟩

/-- The buffers of the next statement are new. -/
lemma OwnBuffers.not_mem (h : OwnBuffers rt flds done) {k : Nat}
    (hk : k / 4 = flds.length + done.length) :
    k ∉ baseBufs flds ++ RowProgram.dsts (progOf rt done.zipIdx) := by
  rw [List.mem_append, not_or, mem_baseBufs]
  refine ⟨by omega, fun hmem => ?_⟩
  have hlt := (h.index k hmem).2
  omega

lemma slots_vec {fs : List CompFld} {f : CompFld} {srcs : List Nat}
    {row : List Int → Option Int} :
    RowProgram.slots (nnPart fs f ++ [RowProgram.Stmt.assign (β := PartSum) srcs f.X row]) = [] := by
  rw [RowProgram.slots_append]
  rcases nnPart_cases fs f with ⟨-, h⟩ | ⟨-, row', h⟩ <;> rw [h] <;> rfl

lemma wf_vec {avail : List Nat} {fs : List CompFld} {f : CompFld} {row : List Int → Option Int}
    (hX : ∀ g ∈ fs, g.X ∈ avail) (hnnX : ∀ g ∈ fs, g.hasNull = true → g.nnX ∈ avail)
    (hnew : f.X ∉ avail) (hnewnn : f.nnX ∉ avail) :
    RowProgram.WF avail (nnPart fs f ++ [RowProgram.Stmt.assign (β := PartSum)
      (fs.map CompFld.X) f.X row]) := by
  have hsrcs : ∀ avail' : List Nat, avail ⊆ avail' → fs.map CompFld.X ⊆ avail' := by
    intro avail' hsub k hk
    obtain ⟨g, hg, rfl⟩ := List.mem_map.mp hk
    exact hsub (hX g hg)
  rcases nnPart_cases fs f with ⟨-, h⟩ | ⟨-, row', h⟩
  · rw [h]
    exact ⟨hsrcs avail fun _ hk => hk, hnew, trivial⟩
  · rw [h]
    refine ⟨fun k hk => ?_, hnewnn, hsrcs _ (List.subset_cons_self _ _), ?_, trivial⟩
    · obtain ⟨g, hg, rfl⟩ := List.mem_map.mp hk
      obtain ⟨hg, hnull⟩ := List.mem_filter.mp hg
      exact hnnX g hg hnull
    · rw [List.mem_cons, not_or]
      exact ⟨(nnX_ne_X f f).symm, hnew⟩

/-- One more statement. -/
lemma OwnBuffers.step (h : OwnBuffers rt flds done) {e : CompExpr CompFld}
    (hlink : Linked flds done e) : OwnBuffers rt flds (done ++ [e]) := by
  cases hout : e.out with
  | some f =>
    obtain ⟨row, hprog⟩ := prog_of_out rt hout done.length
    have hindex := hlink.index f hout
    have hdsts : ∀ k, k ∈ RowProgram.dsts (progOf rt (done ++ [e]).zipIdx) ↔
        k ∈ RowProgram.dsts (progOf rt done.zipIdx) ∨ k = f.X ∨ (f.hasNull = true ∧ k = f.nnX) := by
      intro k
      rw [progOf_append, RowProgram.dsts_append, List.mem_append, hprog,
        dsts_vec (hlink.hasNull f hout)]
    have hslots : RowProgram.slots (progOf rt (done ++ [e]).zipIdx) =
        RowProgram.slots (progOf rt done.zipIdx) := by
      rw [progOf_append, RowProgram.slots_append, hprog, slots_vec, List.append_nil]
    refine ⟨?_, fun g hg => ?_, fun k hk => ?_, ?_, fun i hi => ?_, fun slot srcs upd hmem => ?_⟩
    · rw [progOf_append, hprog]
      refine h.wf.append (wf_vec (fun g hg => ?_) (fun g hg => ?_) ?_ ?_)
      · exact (h.known (hlink.ins g hg)).1
      · exact (h.known (hlink.ins g hg)).2
      · exact h.not_mem (by rw [X_div, hindex])
      · exact h.not_mem (by rw [nnX_div, hindex])
    · rw [hdsts, hdsts]
      rw [written_append, hout, Option.toList_some, List.singleton_append, List.mem_cons] at hg
      rcases hg with rfl | hg
      · exact ⟨.inr (.inl rfl), fun hnull => .inr (.inr ⟨hnull, rfl⟩)⟩
      · obtain ⟨hX, hnnX⟩ := h.written g hg
        exact ⟨.inl hX, fun hnull => .inl (hnnX hnull)⟩
    · rw [List.length_append, List.length_singleton]
      rcases (hdsts k).mp hk with hk | rfl | ⟨-, rfl⟩
      · have hlt := h.index k hk
        omega
      · rw [X_div, hindex]
        omega
      · rw [nnX_div, hindex]
        omega
    · rw [hslots]
      exact h.nodup
    · rw [hslots] at hi
      have hlt := h.slots i hi
      rw [List.length_append]
      omega
    · rw [progOf_append, hprog, List.mem_append] at hmem
      rcases hmem with hmem | hmem
      · exact h.splits slot srcs upd hmem
      · have hnone := RowProgram.mem_slots hmem
        rw [slots_vec] at hnone
        cases hnone
  | none =>
    obtain ⟨t, op, srcs, hprog, hsrcs⟩ := prog_of_out_none rt hout done.length
    have hdsts : RowProgram.dsts (progOf rt (done ++ [e]).zipIdx) =
        RowProgram.dsts (progOf rt done.zipIdx) := by
      rw [progOf_append, RowProgram.dsts_append, hprog]
      exact List.append_nil _
    have hslots : RowProgram.slots (progOf rt (done ++ [e]).zipIdx) =
        RowProgram.slots (progOf rt done.zipIdx) ++ [done.length] := by
      rw [progOf_append, RowProgram.slots_append, hprog]
      rfl
    refine ⟨?_, fun g hg => ?_, fun k hk => ?_, ?_, fun i hi => ?_, fun slot srcs' upd hmem => ?_⟩
    · rw [progOf_append, hprog]
      refine h.wf.append ⟨fun k hk => ?_, trivial⟩
      obtain ⟨f, hf, rfl | ⟨hnull, rfl⟩⟩ := hsrcs k hk
      · exact (h.known (hlink.ins f hf)).1
      · exact (h.known (hlink.ins f hf)).2 hnull
    · rw [hdsts]
      rw [written_append, hout] at hg
      exact h.written g hg
    · rw [hdsts] at hk
      have hlt := h.index k hk
      rw [List.length_append]
      omega
    · rw [hslots, List.nodup_append]
      refine ⟨h.nodup, List.nodup_singleton _, fun i hi j hj => ?_⟩
      rw [List.mem_singleton.mp hj]
      exact (h.slots i hi).ne
    · rw [hslots, List.mem_append, List.mem_singleton] at hi
      rw [List.length_append, List.length_singleton]
      rcases hi with hi | rfl
      · have hlt := h.slots i hi
        omega
      · omega
    · rw [progOf_append, hprog, List.mem_append, List.mem_singleton] at hmem
      rcases hmem with hmem | hmem
      · exact h.splits slot srcs' upd hmem
      · injection hmem with _ _ hupd
        rw [hupd]
        exact splits_addVals t op

end

end Datacl
