import Datacl.Meta.IndexRuns

/-!
# Every data file has one owner

A record refers to a data file by a directory and a file number. Nothing but a fresh number from
`mk_temp_file` and a deletion changes what there is, and `mv_fld` passes a file on.
-/

namespace Datacl

variable {env : Env} {s s' s₀ : Store}

/-! ### What holds between calls -/

/-- The file that a record refers to is there with the size recorded, no other record refers to it,
and its number has been given out. -/
structure FilesOwned (s : Store) : Prop where
  file : ∀ i, 0 ≤ (s.fld i).ddirId →
    ∃ f ∈ s.disk (s.fld i).ddirId (s.fld i).fileno, f.size = (s.fld i).filesz
  owner : ∀ i j, 0 ≤ (s.fld i).ddirId → (s.fld j).ddirId = (s.fld i).ddirId →
    (s.fld j).fileno = (s.fld i).fileno → j = i
  fileno : ∀ i, 0 ≤ (s.fld i).ddirId → (s.fld i).fileno < s.nextFileno

/-- Files that were there before have been removed or are as they were. -/
structure FilesKept (s₀ s : Store) : Prop where
  nextFileno : s₀.nextFileno ≤ s.nextFileno
  disk : ∀ d n, n < s₀.nextFileno → s.disk d n = none ∨ s.disk d n = s₀.disk d n

/-- The files are owned and kept; free slots refer to no file, and no field is its own nn field. -/
structure OwnedSince (s₀ s : Store) : Prop extends FilesOwned s, FilesKept s₀ s where
  free : ∀ i, (s.fld i).name = [] → (s.fld i).ddirId < 0
  nn : ∀ i, (s.fld i).nnFldId ≠ i

lemma FilesOwned.unique (h : FilesOwned s) {i j : Nat} (hne : j ≠ i)
    (hd : (s.fld j).ddirId = (s.fld i).ddirId) (h0 : 0 ≤ (s.fld j).ddirId) :
    (s.fld j).fileno ≠ (s.fld i).fileno :=
  fun hn => hne (h.owner i j (hd ▸ h0) hd hn)

lemma FilesKept.refl (s : Store) : FilesKept s s := ⟨le_rfl, fun _ _ _ => .inr rfl⟩

/-- An empty store. -/
lemma ownedSince_empty (nTbl nFld nFldInfo : Nat) (disk : Int → Int → Option DataFile) :
    OwnedSince (Store.empty nTbl nFld nFldInfo disk) (Store.empty nTbl nFld nFldInfo disk) := by
  have hzero : ∀ i, (Store.empty nTbl nFld nFldInfo disk).fld i = zeroFldRec :=
    Store.fld_of_replicate rfl
  have hdir : ∀ i, ¬ 0 ≤ ((Store.empty nTbl nFld nFldInfo disk).fld i).ddirId := by
    intro i
    rw [hzero i]
    decide
  refine ⟨⟨fun i hi => absurd hi (hdir i), fun i j hi => absurd hi (hdir i),
    fun i hi => absurd hi (hdir i)⟩, FilesKept.refl _, fun i _ => ?_, fun i => ?_⟩
  · exact not_le.mp (hdir i)
  · rw [hzero i]
    show (-1 : Int) ≠ i
    omega

/-- A store in such a state to go on from. -/
lemma OwnedSince.self (h : OwnedSince s₀ s) : OwnedSince s s :=
  ⟨h.toFilesOwned, FilesKept.refl s, h.free, h.nn⟩

/-- The records refer to the same file, and a name is not taken away. -/
structure SameFile (r r' : FldRec) : Prop where
  ddirId : r'.ddirId = r.ddirId
  fileno : r'.fileno = r.fileno
  filesz : r'.filesz = r.filesz
  name : r'.name = [] → r.name = []

lemma OwnedSince.of_fld (h : OwnedSince s₀ s) (hfld : ∀ i, s'.fld i = s.fld i)
    (hdisk : s'.disk = s.disk) (hnext : s'.nextFileno = s.nextFileno) : OwnedSince s₀ s' := by
  refine ⟨⟨fun i hi => ?_, fun i j hi hd hn => ?_, fun i hi => ?_⟩, ⟨?_, fun d n hlt => ?_⟩,
    fun i hi => ?_, fun i => ?_⟩
  · rw [hfld] at hi ⊢
    rw [hdisk]
    exact h.file i hi
  · rw [hfld] at hi hd hn
    rw [hfld] at hd hn
    exact h.owner i j hi hd hn
  · rw [hfld] at hi ⊢
    rw [hnext]
    exact h.toFilesOwned.fileno i hi
  · rw [hnext]
    exact h.toFilesKept.nextFileno
  · rw [hdisk]
    exact h.disk d n hlt
  · rw [hfld] at hi ⊢
    exact h.free i hi
  · rw [hfld]
    exact h.nn i

lemma OwnedSince.congr (h : OwnedSince s₀ s) (hflds : s'.flds = s.flds) (hdisk : s'.disk = s.disk)
    (hnext : s'.nextFileno = s.nextFileno) : OwnedSince s₀ s' :=
  h.of_fld (Store.fld_congr hflds) hdisk hnext

/-- A record changed in what does not concern its file. -/
lemma OwnedSince.setFld (h : OwnedSince s₀ s) {i : Nat} {r : FldRec} (hr : SameFile (s.fld i) r)
    (hnn : r.nnFldId ≠ i) : OwnedSince s₀ (s.setFld i r) := by
  have hfile : ∀ j, SameFile (s.fld j) ((s.setFld i r).fld j) := by
    intro j
    rw [Store.fld_setFld]
    split_ifs with hj
    · rw [hj.1]
      exact hr
    · exact ⟨rfl, rfl, rfl, id⟩
  refine ⟨⟨fun j hj => ?_, fun j k hj hd hn => ?_, fun j hj => ?_⟩, ⟨h.toFilesKept.nextFileno, h.disk⟩,
    fun j hj => ?_,
    fun j => ?_⟩
  · rw [(hfile j).ddirId] at hj ⊢
    rw [(hfile j).fileno, (hfile j).filesz]
    exact h.file j hj
  · rw [(hfile j).ddirId] at hj hd
    rw [(hfile k).ddirId] at hd
    rw [(hfile j).fileno, (hfile k).fileno] at hn
    exact h.owner j k hj hd hn
  · rw [(hfile j).ddirId] at hj
    rw [(hfile j).fileno]
    exact h.toFilesOwned.fileno j hj
  · rw [(hfile j).ddirId]
    exact h.free j ((hfile j).name hj)
  · rw [Store.fld_setFld]
    split_ifs with hj
    · rw [hj.1]
      exact hnn
    · exact h.nn j

/-- A record is reset. -/
lemma OwnedSince.reset (h : OwnedSince s₀ s) (i : Nat) : OwnedSince s₀ (s.setFld i zeroFldRec) := by
  have hfld : ∀ j, 0 ≤ ((s.setFld i zeroFldRec).fld j).ddirId →
      (s.setFld i zeroFldRec).fld j = s.fld j := by
    intro j hj
    rw [Store.fld_setFld_zero] at hj ⊢
    split_ifs at hj ⊢
    · exact absurd hj (by decide)
    · rfl
  refine ⟨⟨fun j hj => ?_, fun j k hj hd hn => ?_, fun j hj => ?_⟩, ⟨h.toFilesKept.nextFileno, h.disk⟩,
    fun j hj => ?_,
    fun j => ?_⟩
  · have hsame := hfld j hj
    rw [hsame] at hj ⊢
    exact h.file j hj
  · have hk := hfld k (by rw [hd]; exact hj)
    have hsame := hfld j hj
    rw [hsame] at hj hd hn
    rw [hk] at hd hn
    exact h.owner j k hj hd hn
  · have hsame := hfld j hj
    rw [hsame] at hj ⊢
    exact h.toFilesOwned.fileno j hj
  · rw [Store.fld_setFld_zero] at hj ⊢
    split_ifs at hj ⊢ with hji
    · decide
    · exact h.free j hj
  · rw [Store.fld_setFld_zero]
    split_ifs with hji
    · show (-1 : Int) ≠ j
      omega
    · exact h.nn j

lemma setFile_of_ne {d n d' n' : Int} {f : Option DataFile} (h : ¬ (d' = d ∧ n' = n)) :
    (s.setFile d n f).disk d' n' = s.disk d' n' := if_neg h

lemma setFile_self (d n : Int) (f : Option DataFile) : (s.setFile d n f).disk d n = f :=
  if_pos ⟨rfl, rfl⟩

/-- A field is deleted together with its file. -/
lemma OwnedSince.discard (h : OwnedSince s₀ s) {i : Nat} (hi : 0 ≤ (s.fld i).ddirId) :
    OwnedSince s₀ ((s.setFile (s.fld i).ddirId (s.fld i).fileno none).setFld i zeroFldRec) := by
  have hreset := h.reset i
  have hfld : ∀ j, ((s.setFile (s.fld i).ddirId (s.fld i).fileno none).setFld i zeroFldRec).fld j =
      (s.setFld i zeroFldRec).fld j := by
    intro j
    rw [Store.fld_setFld_zero, Store.fld_setFld_zero, Store.fld_setFile]
  refine ⟨⟨fun j hj => ?_, fun j k hj hd hn => ?_, fun j hj => ?_⟩,
    ⟨h.toFilesKept.nextFileno, fun d n hlt => ?_⟩, fun j hj => ?_, fun j => ?_⟩
  · rw [hfld] at hj ⊢
    have hji : j ≠ i := by
      rintro rfl
      rw [Store.fld_setFld_zero, if_pos rfl] at hj
      exact absurd hj (by decide)
    rw [Store.fld_setFld_zero, if_neg hji] at hj ⊢
    have hne : ¬ ((s.fld j).ddirId = (s.fld i).ddirId ∧ (s.fld j).fileno = (s.fld i).fileno) :=
      fun heq => h.toFilesOwned.unique hji heq.1 hj heq.2
    show ∃ f ∈ (s.setFile (s.fld i).ddirId (s.fld i).fileno none).disk _ _, _
    rw [setFile_of_ne hne]
    exact h.file j hj
  · rw [hfld] at hj hd hn
    rw [hfld] at hd hn
    exact hreset.owner j k hj hd hn
  · rw [hfld] at hj ⊢
    exact hreset.toFilesOwned.fileno j hj
  · show (s.setFile (s.fld i).ddirId (s.fld i).fileno none).disk d n = none ∨
      (s.setFile (s.fld i).ddirId (s.fld i).fileno none).disk d n = _
    by_cases heq : d = (s.fld i).ddirId ∧ n = (s.fld i).fileno
    · exact .inl (if_pos heq)
    · rw [setFile_of_ne heq]
      exact h.disk d n hlt
  · rw [hfld] at hj ⊢
    exact hreset.free j hj
  · rw [hfld]
    exact hreset.nn j

/-! ### A file that no record refers to -/

/-- The file is there, and no record refers to it. -/
structure Spare (d n : Int) (f : DataFile) (s : Store) : Prop where
  file : s.disk d n = some f
  dir : 0 ≤ d
  fileno : n < s.nextFileno
  unowned : ∀ i, (s.fld i).ddirId = d → (s.fld i).fileno ≠ n

section

variable {d n : Int} {f : DataFile}

lemma Spare.congr (h : Spare d n f s) (hflds : s'.flds = s.flds) (hdisk : s'.disk = s.disk)
    (hnext : s'.nextFileno = s.nextFileno) : Spare d n f s' := by
  refine ⟨?_, h.dir, ?_, fun i => ?_⟩
  · rw [hdisk]
    exact h.file
  · rw [hnext]
    exact h.fileno
  · rw [Store.fld_congr hflds]
    exact h.unowned i

lemma Spare.setFld (h : Spare d n f s) {i : Nat} {r : FldRec} (hr : r.ddirId = d → r.fileno ≠ n) :
    Spare d n f (s.setFld i r) := by
  refine ⟨h.file, h.dir, h.fileno, fun j => ?_⟩
  rw [Store.fld_setFld]
  split_ifs
  · exact hr
  · exact h.unowned j

lemma Spare.reset (h : Spare d n f s) (i : Nat) : Spare d n f (s.setFld i zeroFldRec) := by
  apply h.setFld
  have hdir := h.dir
  show (-1 : Int) = d → _
  omega

lemma Spare.discard (h : Spare d n f s) (i : Nat) :
    Spare d n f ((s.setFile (s.fld i).ddirId (s.fld i).fileno none).setFld i zeroFldRec) := by
  refine ⟨?_, h.dir, h.fileno, fun j => ?_⟩
  · show (s.setFile (s.fld i).ddirId (s.fld i).fileno none).disk d n = some f
    rw [setFile_of_ne fun heq => h.unowned i heq.1.symm heq.2.symm]
    exact h.file
  · rw [Store.fld_setFld_zero, Store.fld_setFile]
    have hj := (h.reset i).unowned j
    rwa [Store.fld_setFld_zero] at hj

/-- A record is given the file. -/
lemma OwnedSince.place (h : OwnedSince s₀ s) (hspare : Spare d n f s) {i : Nat} {r : FldRec}
    (hd : r.ddirId = d) (hn : r.fileno = n) (hsize : r.filesz = f.size) (hname : r.name ≠ [])
    (hnn : r.nnFldId ≠ i) : OwnedSince s₀ (s.setFld i r) := by
  have hother : ∀ j, (s.setFld i r).fld j = s.fld j ∨ (j = i ∧ (s.setFld i r).fld j = r) := by
    intro j
    rw [Store.fld_setFld]
    split_ifs with hj
    · exact .inr ⟨hj.1, rfl⟩
    · exact .inl rfl
  refine ⟨⟨fun j hj => ?_, fun j k hj hdir hno => ?_, fun j hj => ?_⟩, ⟨h.toFilesKept.nextFileno, h.disk⟩,
    fun j hj => ?_,
    fun j => ?_⟩
  · rcases hother j with hsame | ⟨-, hnew⟩
    · rw [hsame] at hj ⊢
      exact h.file j hj
    · rw [hnew, hd, hn, hsize]
      exact ⟨f, hspare.file, rfl⟩
  · rcases hother j with hsame | ⟨rfl, hnew⟩
    · rcases hother k with hsame' | ⟨rfl, hnew'⟩
      · rw [hsame] at hj hdir hno
        rw [hsame'] at hdir hno
        exact h.owner j k hj hdir hno
      · rw [hsame, hnew', hd] at hdir
        rw [hsame, hnew', hn] at hno
        exact absurd hno.symm (hspare.unowned j hdir.symm)
    · rcases hother k with hsame' | ⟨rfl, -⟩
      · rw [hsame', hnew, hd] at hdir
        rw [hsame', hnew, hn] at hno
        exact absurd hno (hspare.unowned k hdir)
      · rfl
  · rcases hother j with hsame | ⟨-, hnew⟩
    · rw [hsame] at hj ⊢
      exact h.toFilesOwned.fileno j hj
    · rw [hnew, hn]
      exact hspare.fileno
  · rcases hother j with hsame | ⟨-, hnew⟩
    · rw [hsame] at hj ⊢
      exact h.free j hj
    · rw [hnew] at hj
      exact absurd hj hname
  · rcases hother j with hsame | ⟨rfl, hnew⟩
    · rw [hsame]
      exact h.nn j
    · rw [hnew]
      exact hnn

end

/-- The file of a record that is reset. -/
lemma OwnedSince.spare_reset (h : OwnedSince s₀ s) {i : Nat} (hi : 0 ≤ (s.fld i).ddirId) :
    ∃ f, f.size = (s.fld i).filesz ∧
      Spare (s.fld i).ddirId (s.fld i).fileno f (s.setFld i zeroFldRec) := by
  obtain ⟨f, hf, hsize⟩ := h.file i hi
  refine ⟨f, hsize, hf, hi, h.toFilesOwned.fileno i hi, fun j hj => ?_⟩
  rw [Store.fld_setFld_zero] at hj ⊢
  split_ifs at hj ⊢ with hji
  · have hneg : (-1 : Int) = (s.fld i).ddirId := hj
    omega
  · exact h.toFilesOwned.unique hji hj (hj ▸ hi)

/-- A file passes from one record to another. -/
lemma OwnedSince.pass (h : OwnedSince s₀ s) {i j : Nat} {r : FldRec} (hne : i ≠ j)
    (hi : 0 ≤ (s.fld i).ddirId) (hr : SameFile (s.fld i) r) (hname : r.name ≠ [])
    (hnn : r.nnFldId ≠ j) : OwnedSince s₀ ((s.setFld j r).setFld i zeroFldRec) := by
  obtain ⟨f, hsize, hspare⟩ := h.spare_reset hi
  have hplace := (h.reset i).place hspare hr.ddirId hr.fileno (hr.filesz.trans hsize.symm) hname hnn
  refine hplace.of_fld (fun k => ?_) rfl rfl
  rw [Store.fld_setFld_zero, Store.fld_setFld, Store.fld_setFld, Store.fld_setFld_zero,
    Store.length_setFld]
  by_cases hk : k = i
  · subst hk
    simp [hne]
  · rw [if_neg hk, if_neg hk]

end Datacl
