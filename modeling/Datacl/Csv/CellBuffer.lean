import Datacl.Csv.PrintCell

/-!
# The buffer of `print_cell`

`g_dld_buf` is doubled at most once for a cell, whatever the length of the cell. Whether the cell
fits depends on how often the cells before it made the buffer grow.
-/

namespace Datacl

/-- The copy of a cell and its NUL stay within the buffer of the call. -/
def CellFits (buf raw : List UInt8) : Prop := bufBytes raw ≤ (growBuf buf raw.length).length

/-- A cell of `8191` bytes or more makes the first buffer grow. -/
def GrowsOnce (pre : List (Nat × List UInt8)) : Prop := ∃ d ∈ pre, 8191 ≤ d.2.length

/-- After that a cell of `16383` bytes or more makes it grow again. -/
def GrowsTwice (pre : List (Nat × List UInt8)) : Prop :=
  ∃ p e, p ++ [e] <+: pre ∧ GrowsOnce p ∧ 16383 ≤ e.2.length

/-- The cells before a long cell made the buffer grow: once if it takes more than 16384 bytes, twice
if it takes more than 32768. -/
def GrownFor (pre : List (Nat × List UInt8)) (raw : List UInt8) : Prop :=
  (16384 < bufBytes raw → GrowsOnce pre) ∧ (32768 < bufBytes raw → GrowsTwice pre)

/-! ### Sizes -/

lemma length_growBuf (buf : List UInt8) (n : Nat) :
    (growBuf buf n).length = if buf.length ≤ n + 1 then 2 * buf.length else buf.length := by
  unfold growBuf
  split
  · exact List.length_replicate
  · rfl

lemma length_fillBuf {buf txt : List UInt8} (h : txt.length + 1 ≤ buf.length) :
    (fillBuf buf txt).length = buf.length := by
  rw [fillBuf, List.length_append, List.length_cons, List.length_drop]
  omega

lemma length_zeroStringToNullc (buf : List UInt8) :
    (zeroStringToNullc buf).length = buf.length := by
  rw [zeroStringToNullc, List.length_append, List.length_map, ← List.length_append,
    List.takeWhile_append_dropWhile]

/-- The copy takes at most one byte for each byte of the cell, and one for the NUL. -/
lemma bufBytes_le (raw : List UInt8) : bufBytes raw ≤ raw.length + 1 := by
  fun_induction bufBytes raw with
  | case1 => simp
  | case2 => simp
  | case3 c hc => simp
  | case4 => simp
  | case5 d rest hd ih => simp only [List.length_cons]; omega
  | case6 c d rest hc ih => simp only [List.length_cons] at ih ⊢; omega

/-- Without a backslash it takes all of them. -/
lemma bufBytes_eq {raw : List UInt8} (h : bslash ∉ raw) : bufBytes raw = raw.length + 1 := by
  fun_induction bufBytes raw with
  | case1 => rfl
  | case2 => simp at h
  | case3 c hc => rfl
  | case4 => simp at h
  | case5 d rest hd ih => simp at h
  | case6 c d rest hc ih =>
    have hrest := ih fun hmem => h (List.mem_cons_of_mem _ hmem)
    simp only [List.length_cons] at hrest ⊢
    omega

/-- A call leaves the buffer as large as it made it. -/
lemma loadCell_length {env : CellEnv} {flds : Nat → CellFld} {s s' : Loading}
    {c : Nat × List UInt8} (h : loadCell env flds s c = some s') :
    s'.buf.length = (growBuf s.buf c.2.length).length := by
  obtain ⟨⟨buf, out⟩, hcell, rfl⟩ := Option.map_eq_some_iff.mp h
  obtain ⟨txt, r, -, hroom, -, -, -, rfl, -⟩ := printCell_cases hcell
  rw [length_zeroStringToNullc, length_fillBuf hroom]

/-! ### Runs -/

section

variable {env : CellEnv} {flds : Nat → CellFld} {szHts : Nat → Nat}

lemma growsOnce_concat {pre : List (Nat × List UInt8)} {c : Nat × List UInt8} :
    GrowsOnce (pre ++ [c]) ↔ GrowsOnce pre ∨ 8191 ≤ c.2.length := by
  simp [GrowsOnce, or_and_right, exists_or]

lemma growsTwice_concat {pre : List (Nat × List UInt8)} {c : Nat × List UInt8} :
    GrowsTwice (pre ++ [c]) ↔ GrowsTwice pre ∨ (GrowsOnce pre ∧ 16383 ≤ c.2.length) := by
  unfold GrowsTwice
  constructor
  · rintro ⟨p, e, hpre, honce, he⟩
    rcases List.prefix_concat_iff.mp hpre with heq | hpre
    · obtain ⟨rfl, hce⟩ := List.append_inj' heq rfl
      obtain rfl := List.singleton_inj.mp hce
      exact .inr ⟨honce, he⟩
    · exact .inl ⟨p, e, hpre, honce, he⟩
  · rintro (⟨p, e, hpre, honce, he⟩ | ⟨honce, hc⟩)
    · exact ⟨p, e, hpre.trans (List.prefix_append _ _), honce, he⟩
    · exact ⟨pre, c, List.prefix_rfl, honce, hc⟩

lemma GrowsTwice.once {pre : List (Nat × List UInt8)} (h : GrowsTwice pre) : GrowsOnce pre := by
  obtain ⟨p, e, hpre, ⟨d, hd, hlen⟩, -⟩ := h
  exact ⟨d, hpre.subset (List.mem_append_left _ hd), hlen⟩

/-- The size of the buffer after a run. -/
structure BufferSize (pre : List (Nat × List UInt8)) (size : Nat) : Prop where
  doubled : size = 8192 ∨ size = 16384 ∨ size = 32768 ∨ size = 65536
  once : 8192 < size ↔ GrowsOnce pre
  twice : 16384 < size ↔ GrowsTwice pre

lemma bufferSize_start : BufferSize [] 8192 where
  doubled := .inl rfl
  once := by simp [GrowsOnce]
  twice := by simp [GrowsTwice]

/-- What one cell makes of the size. -/
lemma BufferSize.concat {pre : List (Nat × List UInt8)} {c : Nat × List UInt8} {buf : List UInt8}
    (h : BufferSize pre buf.length) (hlen : c.2.length < 2 * maxLenStr) :
    BufferSize (pre ++ [c]) (growBuf buf c.2.length).length := by
  obtain ⟨hsize, honce, htwice⟩ := h
  rw [length_growBuf]
  rw [maxLenStr] at hlen
  refine ⟨?_, ?_, ?_⟩
  · split <;> omega
  · rw [growsOnce_concat, ← honce]
    split <;> omega
  · rw [growsTwice_concat, ← htwice, ← honce]
    split <;> omega

/-- The size of the buffer after any number of calls. -/
lemma bufferSize_of_run {pre : List (Nat × List UInt8)} (hlen : ∀ c ∈ pre, c.2.length < 2 * maxLenStr)
    {s : Loading} (hrun : printCells env flds (Loading.start szHts) pre = some s) :
    BufferSize pre s.buf.length := by
  induction pre using List.reverseRecOn generalizing s with
  | nil =>
    obtain rfl := Option.some.inj hrun
    rw [Loading.start, List.length_replicate]
    exact bufferSize_start
  | append_singleton pre c ih =>
    rw [printCells, List.foldlM_append] at hrun
    obtain ⟨t, ht, hcell⟩ := Option.bind_eq_some_iff.mp hrun
    obtain ⟨u, hu, hnil⟩ := Option.bind_eq_some_iff.mp hcell
    obtain rfl := Option.some.inj hnil
    rw [loadCell_length hu]
    exact (ih (fun d hd => hlen d (List.mem_append_left _ hd)) ht).concat (hlen c (by simp))

/-- A cell fits exactly if the cells before it made the buffer grow as often as it needs. -/
lemma BufferSize.fits_iff {pre : List (Nat × List UInt8)} {buf raw : List UInt8}
    (h : BufferSize pre buf.length) (hlen : raw.length < 2 * maxLenStr) :
    CellFits buf raw ↔ GrownFor pre raw := by
  obtain ⟨hsize, honce, htwice⟩ := h
  have hle := bufBytes_le raw
  rw [CellFits, GrownFor, length_growBuf, ← honce, ← htwice]
  rw [maxLenStr] at hlen
  split <;> omega

/-- For cells below `2 * MAX_LEN_STR` bytes every call stays within the buffer exactly if, for every
call that is made, the cells before it made the buffer grow as often as its cell needs. -/
theorem cells_fit_iff (env : CellEnv) (flds : Nat → CellFld) (szHts : Nat → Nat)
    (cells : List (Nat × List UInt8)) (hlen : ∀ c ∈ cells, c.2.length < 2 * maxLenStr) :
    (∀ pre c s, pre ++ [c] <+: cells → printCells env flds (Loading.start szHts) pre = some s →
      CellFits s.buf c.2) ↔
    ∀ pre c, pre ++ [c] <+: cells → (printCells env flds (Loading.start szHts) pre).isSome = true →
      GrownFor pre c.2 := by
  have hfits : ∀ pre c s, pre ++ [c] <+: cells →
      printCells env flds (Loading.start szHts) pre = some s →
      (CellFits s.buf c.2 ↔ GrownFor pre c.2) := by
    intro pre c s hpre hrun
    have hmem : ∀ d ∈ pre ++ [c], d.2.length < 2 * maxLenStr := fun d hd =>
      hlen d (hpre.subset hd)
    have hsize := bufferSize_of_run (fun d hd => hmem d (List.mem_append_left _ hd)) hrun
    exact hsize.fits_iff (hmem c (by simp))
  constructor
  · intro h pre c hpre hsome
    obtain ⟨s, hrun⟩ := Option.isSome_iff_exists.mp hsome
    exact (hfits pre c s hpre hrun).mp (h pre c s hpre hrun)
  · intro h pre c s hpre hrun
    exact (hfits pre c s hpre hrun).mpr (h pre c hpre (Option.isSome_of_mem hrun))

end

/-- A field for strings of fixed length. -/
def fixedFld : CellFld where
  fldtype := .SC
  props := ⟨false, false, false, false, 30000⟩
  dictOld := none
  nnFp := true
  lenFp := false

lemma bufBytes_replicate (n : Nat) : bufBytes (List.replicate n 65) = n + 1 := by
  rw [bufBytes_eq, List.length_replicate]
  intro hmem
  have hb := List.eq_of_mem_replicate hmem
  revert hb
  decide

/-- A first cell of 20000 bytes is copied to a buffer of 16384. -/
theorem cells_fit_long_cell : ¬ ∀ pre c s, pre ++ [c] <+: [(0, List.replicate 20000 65)] →
    printCells ⟨⟨fun _ _ => 1, fun _ => 0⟩, fun _ => none, fun _ => none⟩ (fun _ => fixedFld)
      (Loading.start fun _ => 1) pre = some s → CellFits s.buf c.2 := by
  intro h
  have hfits := h [] (0, List.replicate 20000 65) _ List.prefix_rfl rfl
  rw [CellFits, bufBytes_replicate, length_growBuf, List.length_replicate, Loading.start] at hfits
  dsimp only at hfits
  rw [List.length_replicate] at hfits
  split at hfits <;> omega

/-- Two cells of 10000 and 20000 bytes are copied within the buffer. -/
theorem cells_fit_growing :
    (∀ c ∈ [(0, List.replicate 10000 (65 : UInt8))] ++ [(0, List.replicate 20000 65)],
      c.2.length < 2 * maxLenStr) ∧
    ∀ pre c s, pre ++ [c] <+: [(0, List.replicate 10000 65)] ++ [(0, List.replicate 20000 65)] →
      printCells ⟨⟨fun _ _ => 1, fun _ => 0⟩, fun _ => none, fun _ => none⟩ (fun _ => fixedFld)
        (Loading.start fun _ => 1) pre = some s → CellFits s.buf c.2 := by
  have hlen : ∀ c ∈ [(0, List.replicate 10000 (65 : UInt8))] ++ [(0, List.replicate 20000 65)],
      c.2.length < 2 * maxLenStr := by
    intro c hc
    rw [List.singleton_append, List.mem_pair] at hc
    rcases hc with rfl | rfl
    all_goals
      rw [List.length_replicate]
      decide
  refine ⟨hlen, (cells_fit_iff _ _ _ _ hlen).mpr ?_⟩
  intro pre c hpre hsome
  rcases List.prefix_concat_iff.mp hpre with heq | hpre
  · obtain ⟨rfl, hce⟩ := List.append_inj' heq rfl
    obtain rfl := List.singleton_inj.mp hce
    rw [GrownFor, bufBytes_replicate]
    refine ⟨fun _ => ⟨_, List.mem_singleton_self _, ?_⟩, fun hlong => ?_⟩
    · rw [List.length_replicate]
      decide
    · omega
  · have hmem := hpre.subset (List.mem_append_right pre (List.mem_singleton_self c))
    obtain rfl := List.mem_singleton.mp hmem
    rw [GrownFor, bufBytes_replicate]
    exact ⟨fun hlong => by omega, fun hlong => by omega⟩

end Datacl
