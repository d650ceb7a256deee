import Datacl.Docroots.Bootstrap

/-!
# Docroots side by side

The calls in one docroot write to its own directories, which are those of no other one. A docroot that
lists no other directories is therefore what its own calls make of it, whatever is done in between
in other docroots, in those that were made from it as well.
-/

namespace Datacl

open Interleaving

variable {q r : Docroot} {dsk ram : Name} {w : World} {files : Files} {s' : Store} {b : Backend}
  {sz : Sizes} {m : Machine}

namespace Docroot

/-! ### What a call writes back -/

lemma env_writesTo (r : Docroot) (w : World) : (r.env w).WritesTo r.OwnDir := by
  intro filesz d hd
  have hchoice : r.tempDir w filesz = some d := hd
  unfold tempDir at hchoice
  dsimp only at hchoice
  split_ifs at hchoice with hram hroom hroom
  · obtain rfl := Option.some.inj hchoice
    exact ⟨.inr rfl, (of_decide_eq_true hroom).1⟩
  · obtain rfl := Option.some.inj hchoice
    exact ⟨.inl rfl, (of_decide_eq_true hroom).1⟩

lemma env_congr (h : q.ddirs = r.ddirs) : q.env w = r.env w := by
  cases q
  cases h
  rfl

/-- Files of other directories do not matter. -/
lemma store_congr {files' : Files}
    (h : ∀ d n, r.name d ≠ [] → files (r.name d) n = files' (r.name d) n) :
    r.store files = r.store files' := by
  have hdisk : (r.store files).disk = (r.store files').disk := by
    funext d n
    show (if r.name d = [] then none else files (r.name d) n) =
      if r.name d = [] then none else files' (r.name d) n
    split_ifs with hname
    · rfl
    · exact h d n hname
  calc r.store files = { r.store files' with disk := (r.store files).disk } := rfl
    _ = r.store files' := by rw [hdisk]

lemma disk_congr (h : q.ddirs = r.ddirs) : (q.store files).disk = (r.store files).disk := by
  cases q
  cases h
  rfl

/-- The names of the own directories are those of no other ones in the list. -/
def OwnNamed (r : Docroot) : Prop := ∀ d d', r.OwnDir d → r.name d' = r.name d → d' = d

/-- A file is as it was if it was changed in no directory of that name. -/
lemma writeBack_unchanged {s : Store} {p : Name} {n : Int}
    (h : ∀ d, r.name d = p → s'.disk d n = s.disk d n) :
    r.writeBack s s' files p n = files p n := by
  unfold writeBack
  have hnone : (List.range r.ddirs.length).find?
      (fun d : Nat => r.name d = p ∧ s'.disk d n ≠ s.disk d n) = none := by
    rw [List.find?_eq_none]
    intro d _ hd
    have hchanged := of_decide_eq_true hd
    exact hchanged.2 (h d hchanged.1)
  rw [hnone]

/-- The file in a directory is what the call made it. -/
lemma writeBack_changed {s : Store} {d n : Int} (hname : r.name d ≠ [])
    (honly : ∀ e, r.name e = r.name d → s'.disk e n ≠ s.disk e n → e = d)
    (hdisk : s.disk d n = files (r.name d) n) :
    r.writeBack s s' files (r.name d) n = s'.disk d n := by
  unfold writeBack
  cases hfind : (List.range r.ddirs.length).find?
      (fun e : Nat => r.name e = r.name d ∧ s'.disk e n ≠ s.disk e n) with
  | some e =>
    have hfound := List.find?_some hfind
    have hchanged := of_decide_eq_true hfound
    rw [← honly e hchanged.1 hchanged.2]
  | none =>
    obtain ⟨i, hi, rfl⟩ := exists_index hname
    rw [List.find?_eq_none] at hfind
    by_contra hne
    refine hfind i (List.mem_range.mpr hi) (decide_eq_true ⟨rfl, fun heq => hne ?_⟩)
    rw [heq, hdisk]

/-- The next call finds what this one has left. -/
lemma store_writeBack (hnamed : r.OwnNamed) (h : Confined r.OwnDir (r.store files) s') :
    (r.withRecs s').store (r.writeBack (r.store files) s' files) = s' := by
  have hdisk : ((r.withRecs s').store (r.writeBack (r.store files) s' files)).disk = s'.disk := by
    funext d n
    show (if r.name d = [] then none else r.writeBack (r.store files) s' files (r.name d) n) = _
    by_cases hname : r.name d = []
    · rw [if_pos hname, h.disk d n fun hown => hown.2 hname]
      exact (if_pos hname).symm
    · rw [if_neg hname]
      refine writeBack_changed hname (fun e he hne => ?_) (if_neg hname)
      have hown : r.OwnDir e := by
        by_contra hother
        exact hne (h.disk e n hother)
      exact (hnamed e d hown he.symm).symm
  calc (r.withRecs s').store (r.writeBack (r.store files) s' files)
      = { s' with disk := ((r.withRecs s').store (r.writeBack (r.store files) s' files)).disk } := rfl
    _ = s' := by rw [hdisk]

/-- No own directory of the one is an own directory of the other. -/
def Apart (q r : Docroot) : Prop := ∀ d e, q.OwnDir d → r.OwnDir e → q.name d ≠ r.name e

lemma Apart.congr {q' r' : Docroot} (h : q.Apart r) (hq : q'.ddirs = q.ddirs)
    (hr : r'.ddirs = r.ddirs) : q'.Apart r' := by
  cases q
  cases r
  cases hq
  cases hr
  exact h

lemma Alone.congr (h : r.Alone) (hq : q.ddirs = r.ddirs) : q.Alone := by
  cases r
  cases hq
  exact h

/-- A docroot with its own directories only sees nothing of a call in another one. -/
lemma store_writeBack_alone (hq : q.Alone) (hapart : q.Apart r)
    (h : Confined r.OwnDir (r.store files) s') :
    q.store (r.writeBack (r.store files) s' files) = q.store files := by
  refine store_congr fun d n hname => writeBack_unchanged fun e he => h.disk e n fun hown => ?_
  exact hapart d e (hq d hname) hown he.symm

/-- What holds of a docroot between calls. -/
structure Sound (r : Docroot) : Prop where
  named : r.OwnNamed
  confined : ∀ files, Confined r.OwnDir (r.store files) (r.store files)

lemma Sound.withRecs (h : r.Sound) (hs : Confined r.OwnDir (r.store files) s') :
    (r.withRecs s').Sound :=
  ⟨h.named, fun _ => ⟨hs.fld, hs.nextFileno, fun _ _ _ => rfl⟩⟩

end Docroot

/-! ### New docroots -/

lemma placed_inherit {own own' : Int → Prop} {x : FldRec} (h : x.Placed own) :
    (inherit x).Placed own' := by
  have hdir : 0 ≤ (inherit x).ddirId → 0 < x.fileno := by
    intro hd
    unfold inherit at hd
    dsimp only at hd
    split_ifs at hd with htbl
    · exact h.fileno (h.dir htbl)
    · exact h.fileno hd
  refine ⟨fun hext hd => ?_, fun htbl => ?_, hdir⟩
  · have hn := hdir hd
    exact absurd hext (by simp [inherit, hn])
  · have hd := h.dir htbl
    show 0 ≤ if 0 ≤ x.tblId then x.ddirId + 2 else x.ddirId
    split_ifs <;> omega

lemma inherit_zeroFldRec : inherit zeroFldRec = zeroFldRec := by decide

lemma fld_of_bootstrap (h : bootstrapMetaData q dsk ram = some r) (files : Files) (i : Nat) :
    (r.store files).fld i = inherit ((q.store files).fld i) := by
  obtain ⟨-, hflds, -⟩ := bootstrapMetaData_eq_some h
  show r.flds.getD i zeroFldRec = inherit (q.flds.getD i zeroFldRec)
  rw [hflds, ← inherit_zeroFldRec, List.getD_map, inherit_zeroFldRec]

namespace Machine

lemma Fresh.ne (h : m.Fresh r) (hq : q ∈ m.docroots) {d d' : Int} (hown : r.OwnDir d) :
    q.name d' ≠ r.name d := by
  intro hsame
  have hname : q.name d' ≠ [] := by
    rw [hsame]
    exact hown.2
  obtain ⟨i, hi, rfl⟩ := Docroot.exists_index hname
  rw [Docroot.name_natCast, List.getD_eq_getElem _ _ hi] at hname hsame
  have hfree := h.2 q hq _ (List.getElem_mem hi) hname
  rcases hown.1 with rfl | rfl
  · exact hfree.1 hsame
  · exact hfree.2 hsame

/-- The own directories of a new docroot are no other ones that it lists. -/
lemma Fresh.ownNamed (h : m.Fresh r)
    (hother : ∀ i : Nat, 2 ≤ i → r.name i ≠ [] → ∃ q ∈ m.docroots, ∃ d, q.name d = r.name i) :
    r.OwnNamed := by
  intro d d' hown hsame
  have hname : r.name d' ≠ [] := by
    rw [hsame]
    exact hown.2
  obtain ⟨i, -, rfl⟩ := Docroot.exists_index hname
  by_cases hi : 2 ≤ i
  · obtain ⟨q, hq, e, he⟩ := hother i hi hname
    exact absurd (he.trans hsame) (h.ne hq hown)
  · obtain rfl | rfl : i = 0 ∨ i = 1 := by omega
    · rcases hown.1 with rfl | rfl
      · rfl
      · exact absurd hsame h.1
    · rcases hown.1 with rfl | rfl
      · exact absurd hsame.symm h.1
      · rfl

lemma Fresh.sound_init (h : m.Fresh r) (hr : initMetaData sz dsk ram = some r) : r.Sound := by
  refine ⟨h.ownNamed fun i hi hname => ?_, fun files => ?_⟩
  · have hown := (alone_initMetaData hr i hname).1
    omega
  · obtain ⟨ds, -, hr⟩ := Option.bind_eq_some_iff.mp hr
    obtain rfl := Option.some.inj hr
    refine ⟨fun i => ?_, one_pos, fun _ _ _ => rfl⟩
    rw [Store.fld_of_replicate (n := sz.nFld) rfl i]
    exact placed_zeroFldRec

lemma Fresh.sound_bootstrap (h : m.Fresh r) (hq : q ∈ m.docroots) (hsound : q.Sound)
    (hr : bootstrapMetaData q dsk ram = some r) : r.Sound := by
  obtain ⟨-, -, -, hnext, -, -, hnames⟩ := bootstrapMetaData_eq_some hr
  refine ⟨h.ownNamed fun i hi _ => ⟨q, hq, _, (hnames i hi).symm⟩, fun files => ?_⟩
  have hconf := hsound.confined files
  refine ⟨fun i => ?_, ?_, fun _ _ _ => rfl⟩
  · rw [fld_of_bootstrap hr]
    exact placed_inherit (hconf.fld i)
  · show 0 < r.nextFileno
    rw [hnext]
    exact hconf.nextFileno

/-! ### Several docroots -/

/-- The docroots are sound, and their own directories differ. -/
structure Wf (m : Machine) : Prop where
  sound : ∀ r ∈ m.docroots, r.Sound
  apart : ∀ (i j : Nat) (q r : Docroot), m.docroots[i]? = some q → m.docroots[j]? = some r →
    i ≠ j → q.Apart r

lemma wf_empty (files : Files) : Wf ⟨files, []⟩ :=
  ⟨fun _ h => absurd h List.not_mem_nil, fun _ _ _ _ h => by simp at h⟩

lemma Wf.add (h : m.Wf) (hr : r.Sound) (hfresh : m.Fresh r) : (m.add (some r)).Wf := by
  have hnew : ∀ {i : Nat} {q}, (m.docroots ++ [r])[i]? = some q →
      m.docroots[i]? = some q ∨ i = m.docroots.length ∧ q = r := by
    intro i q hi
    rw [List.getElem?_append] at hi
    split_ifs at hi with hlt
    · exact .inl hi
    · rw [List.getElem?_singleton] at hi
      split_ifs at hi with hlen
      exact .inr ⟨by omega, (Option.some.inj hi).symm⟩
  refine ⟨fun q hq => ?_, fun i j q q' hi hj hne => ?_⟩
  · rcases List.mem_append.mp hq with hq | hq
    · exact h.sound q hq
    · rw [List.mem_singleton.mp hq]
      exact hr
  · rcases hnew hi with hold | ⟨hlast, rfl⟩
    · rcases hnew hj with hold' | ⟨-, rfl⟩
      · exact h.apart i j q q' hold hold' hne
      · exact fun d e hd he => hfresh.ne (List.mem_of_getElem? hold) he
    · rcases hnew hj with hold' | ⟨hlast', -⟩
      · exact fun d e hd he heq => hfresh.ne (List.mem_of_getElem? hold') hd heq.symm
      · exact absurd (hlast.trans hlast'.symm) hne

/-- What a call in a docroot does. -/
lemma Wf.confined_call (h : m.Wf) {j : Nat} (hr : m.docroots[j]? = some r) {op : DocrootOp}
    (hok : op.Respects (r.store m.files)) :
    Confined r.OwnDir (r.store m.files) (op.exec b (r.env w) (r.store m.files)).2 :=
  ((h.sound r (List.mem_of_getElem? hr)).confined m.files).exec (r.env_writesTo w) hok

lemma Wf.call (h : m.Wf) {j : Nat} (hr : m.docroots[j]? = some r) {op : DocrootOp}
    (hok : op.Respects (r.store m.files)) : (m.call b j w op r).Wf := by
  have hconf := h.confined_call (b := b) (w := w) hr hok
  have hsound := (h.sound r (List.mem_of_getElem? hr)).withRecs hconf
  have hold : ∀ {i : Nat} {q : Docroot}, (m.call b j w op r).docroots[i]? = some q →
      q.Sound ∧ ∃ q₀, m.docroots[i]? = some q₀ ∧ q.ddirs = q₀.ddirs := by
    intro i q hi
    have hset : (m.docroots.set j (r.withRecs _))[i]? = some q := hi
    rw [List.getElem?_set] at hset
    split_ifs at hset with hij hlen
    · obtain rfl := Option.some.inj hset
      exact ⟨hsound, r, hij ▸ hr, rfl⟩
    · exact ⟨h.sound q (List.mem_of_getElem? hset), q, hset, rfl⟩
  refine ⟨fun q hq => ?_, fun i k q q' hi hk hne => ?_⟩
  · obtain ⟨i, hi⟩ := List.mem_iff_getElem?.mp hq
    exact (hold hi).1
  · obtain ⟨-, q₀, hi₀, hdirs⟩ := hold hi
    obtain ⟨-, q₁, hk₁, hdirs'⟩ := hold hk
    exact Docroot.Apart.congr (h.apart i k q₀ q₁ hi₀ hk₁ hne) hdirs hdirs'

lemma Wf.step (h : m.Wf) {x : MachineCall} (hok : m.Careful sz x) : (m.step sz b x).Wf := by
  cases x with
  | init dsk ram =>
    show (m.add (initMetaData sz dsk ram)).Wf
    cases hr : initMetaData sz dsk ram with
    | none => exact h
    | some r => exact h.add ((hok r hr).sound_init hr) (hok r hr)
  | bootstrap j dsk ram =>
    show (m.add (m.docroots[j]?.bind fun r => bootstrapMetaData r dsk ram)).Wf
    cases hq : m.docroots[j]? with
    | none => exact h
    | some q =>
      show (m.add (bootstrapMetaData q dsk ram)).Wf
      have hmem := List.mem_of_getElem? hq
      cases hr : bootstrapMetaData q dsk ram with
      | none => exact h
      | some r => exact h.add ((hok q hq r hr).sound_bootstrap hmem (h.sound q hmem) hr) (hok q hq r hr)
  | call j w op =>
    show ((m.docroots[j]?.map (m.call b j w op)).getD m).Wf
    cases hr : m.docroots[j]? with
    | none => exact h
    | some r => exact h.call hr (hok r hr)

/-! ### One docroot among others -/

/-- The calls in a docroot. -/
def callIn (j : Nat) : MachineCall → Option (World × DocrootOp)
  | .call i w op => if i = j then some (w, op) else none
  | _ => none

end Machine

/-- A call in a docroot of which the store is `s`. -/
def Docroot.act (b : Backend) (r : Docroot) (s : Store) (x : World × DocrootOp) : Store :=
  (x.2.exec b (r.env x.1) s).2

namespace Machine

/-- The docroot lists the directories of `r`, and its store is `s`. -/
def Holds (j : Nat) (r : Docroot) (m : Machine) (s : Store) : Prop :=
  ∃ r', m.docroots[j]? = some r' ∧ r'.ddirs = r.ddirs ∧ r'.store m.files = s

lemma getElem?_add {j : Nat} (h : m.docroots[j]? = some q) (new : Option Docroot) :
    (m.add new).docroots[j]? = some q ∧ (m.add new).files = m.files := by
  cases new with
  | none => exact ⟨h, rfl⟩
  | some r =>
    refine ⟨?_, rfl⟩
    show (m.docroots ++ [r])[j]? = some q
    rw [List.getElem?_append_left (List.getElem?_eq_some_iff.mp h).1, h]

lemma Holds.add {j : Nat} {s : Store} (h : m.Holds j r s) (new : Option Docroot) :
    (m.add new).Holds j r s := by
  obtain ⟨r', hr', hdirs, hstore⟩ := h
  obtain ⟨hget, hfiles⟩ := getElem?_add hr' new
  exact ⟨r', hget, hdirs, by rw [hfiles, hstore]⟩

lemma Holds.call {j : Nat} {s : Store} (h : m.Holds j r s) (hm : m.Wf) {op : DocrootOp}
    (hok : m.Careful sz (.call j w op)) :
    (m.step sz b (.call j w op)).Holds j r (r.act b s (w, op)) := by
  obtain ⟨r', hr', hdirs, rfl⟩ := h
  have hconf := hm.confined_call (b := b) (w := w) hr' (hok r' hr')
  have hstep : m.step sz b (.call j w op) = m.call b j w op r' := by
    show (m.docroots[j]?.map (m.call b j w op)).getD m = m.call b j w op r'
    rw [hr']
    rfl
  have hact : (op.exec b (r'.env w) (r'.store m.files)).2 = r.act b (r'.store m.files) (w, op) := by
    rw [Docroot.env_congr hdirs]
    rfl
  rw [hstep, ← hact]
  refine ⟨r'.withRecs (op.exec b (r'.env w) (r'.store m.files)).2, ?_, hdirs, ?_⟩
  · exact List.getElem?_set_self (List.getElem?_eq_some_iff.mp hr').1
  · exact Docroot.store_writeBack (hm.sound r' (List.mem_of_getElem? hr')).named hconf

lemma Holds.call_other {i j : Nat} {s : Store} (h : m.Holds j r s) (hm : m.Wf) (halone : r.Alone)
    (hij : i ≠ j) {op : DocrootOp} (hok : m.Careful sz (.call i w op)) :
    (m.step sz b (.call i w op)).Holds j r s := by
  show ((m.docroots[i]?.map (m.call b i w op)).getD m).Holds j r s
  cases hq : m.docroots[i]? with
  | none => exact h
  | some q =>
    obtain ⟨r', hr', hdirs, rfl⟩ := h
    have hconf := hm.confined_call (b := b) (w := w) hq (hok q hq)
    refine ⟨r', ?_, hdirs, ?_⟩
    · exact (List.getElem?_set_ne hij).trans hr'
    · refine Docroot.store_writeBack_alone (halone.congr hdirs) ?_ hconf
      exact hm.apart j i r' q hr' hq hij.symm

lemma follows_alone {j : Nat} (halone : r.Alone) :
    Follows (Machine.step sz b) (Machine.Careful sz) (callIn j) (r.act b)
      fun m s => m.Wf ∧ m.Holds j r s where
  own m s x y h hok hx := by
    cases x with
    | init dsk ram => simp [callIn] at hx
    | bootstrap i dsk ram => simp [callIn] at hx
    | call i w op =>
      unfold callIn at hx
      dsimp only at hx
      split_ifs at hx with hij
      obtain rfl := Option.some.inj hx
      subst hij
      exact ⟨h.1.step hok, h.2.call h.1 hok⟩
  other m s x h hok hx := by
    refine ⟨h.1.step hok, ?_⟩
    cases x with
    | init dsk ram => exact h.2.add _
    | bootstrap i dsk ram => exact h.2.add _
    | call i w op =>
      have hij : i ≠ j := fun hij => by simp [callIn, hij] at hx
      exact h.2.call_other h.1 halone hij hok

end Machine

def fewRecords : Sizes := ⟨1, 2, 1, 6⟩

/-- Room for any file. -/
def roomyWorld : World := ⟨List.length, fun _ => true, fun _ => 2 ^ 32, false⟩

/-- A docroot in one directory. -/
def siteA : Docroot where
  tbls := [zeroTblRec]
  flds := [zeroFldRec, zeroFldRec]
  info := [zeroFldInfoRec]
  nextFileno := 1
  ddirs := ⟨['/', 'a'], true, false⟩ :: List.replicate 5 newDdirRec

lemma alone_siteA : siteA.Alone := by
  have hinit : initMetaData fewRecords ['/', 'a'] [] = some siteA := rfl
  exact alone_initMetaData hinit

def twoDocroots : List MachineCall := [.init ['/', 'a'] [], .init ['/', 'b'] []]

/-- A table in each docroot, a column in the first one, and a copy of it in which the column is
deleted. The column is sorted in the end. -/
def sideBySide : List MachineCall :=
  [.call 0 roomyWorld (.store (.addTbl ['T'] 2)), .call 1 roomyWorld (.store (.addTbl ['U'] 1)),
    .call 0 roomyWorld (.store (.makeFld 0 ['x'] ⟨{ zeroFldRec with fldtype := .I8 }, rfl, rfl, rfl⟩
      ⟨8, [6, 5]⟩)),
    .bootstrap 0 ['/', 'c'] [], .call 2 roomyWorld (.store (.delFld ['T'] (-1) ['x'] (-1))),
    .call 0 roomyWorld (.column (.fop ['T'] ['x'] "sortA".toList))]

def besideEachOther : Machine :=
  (twoDocroots ++ sideBySide).foldl (Machine.step fewRecords ⟨plainKernel, stablePairSort⟩)
    ⟨fun _ _ => none, []⟩

end Datacl
