import Datacl.Dict.Dump
import Datacl.Dict.Naming

/-!
# When a dumped dictionary can be looked up again

`dump_ht` writes 16-bit lengths and `get_from_dict` reads 32-bit ones. With two strings or more
the first length it reads has the length of the second string in its upper half, so the first
string is never found. With one string the upper half lies behind the end of the file.
-/

namespace Datacl

/-! ### The records that are written -/

section Hops

variable {H : Hashing} {d : Dict} {ss : List CString}

/-- Different occupied slots hold different strings. -/
lemma Names.pairwise_strkey (hd : Names H d ss) :
    (d.ht.filter (fun rec => decide (0 < rec.cnt))).Pairwise (fun a b => a.strkey ≠ b.strkey) := by
  have hslots : d.ht.Pairwise (fun a b => 0 < a.cnt → 0 < b.cnt → a.strkey ≠ b.strkey) := by
    rw [List.pairwise_iff_getElem]
    intro p q hp hq hlt hpc hqc heq
    obtain ⟨s, hs, -, hslot⟩ := hd.occupied p _ (List.getElem?_eq_getElem hp) hpc.ne'
    obtain ⟨s', hs', -, hslot'⟩ := hd.occupied q _ (List.getElem?_eq_getElem hq) hqc.ne'
    obtain rfl : s = s' := Option.some.inj (hs.symm.trans (heq.trans hs'))
    rw [hslot] at hslot'
    cases hslot'
    exact lt_irrefl _ hlt
  refine (hslots.filter _).imp_of_mem fun {a b} ha hb hab => hab ?_ ?_
  · simpa using (List.mem_filter.mp ha).2
  · simpa using (List.mem_filter.mp hb).2

/-- The occupied slots hold the strings added. -/
lemma Names.mem_strkeys (hd : Names H d ss) (hnz : ∀ s ∈ ss, HashNonzero H s) (a : Option CString) :
    a ∈ (d.ht.filter (fun rec => decide (0 < rec.cnt))).map HtRec.strkey ↔
      ∃ s ∈ ss, some s = a := by
  rw [List.mem_map]
  constructor
  · rintro ⟨rec, hrec, rfl⟩
    obtain ⟨hmem, hcnt⟩ := List.mem_filter.mp hrec
    have hpos : 0 < rec.cnt := by simpa using hcnt
    obtain ⟨p, hp⟩ := List.mem_iff_getElem?.mp hmem
    obtain ⟨s, hs, hcount, -⟩ := hd.occupied p rec hp hpos.ne'
    exact ⟨s, List.count_pos_iff.mp (hcount ▸ hpos), hs.symm⟩
  · rintro ⟨s, hs, rfl⟩
    obtain ⟨p, key, hslot⟩ := hd.stored s hs
    obtain ⟨rec, hrec, hkey, hstr⟩ := slot_of_chooseSlot hslot
    have hcnt := hd.cnt_ne_zero (hnz s hs) hslot hrec
    refine ⟨rec, List.mem_filter.mpr ⟨List.mem_of_getElem? hrec, ?_⟩, hstr⟩
    simpa using Nat.pos_of_ne_zero hcnt

/-- All occupied slots are written: there are `n_ht` of them. -/
lemma Names.hops_perm (hd : Names H d ss) (hnz : ∀ s ∈ ss, HashNonzero H s) :
    (hops d).Perm (d.ht.filter (fun rec => decide (0 < rec.cnt))) ∧ (hops d).length = d.nHt := by
  have hnodup : ((d.ht.filter (fun rec => decide (0 < rec.cnt))).map HtRec.strkey).Nodup := by
    rw [List.Nodup, List.pairwise_map]
    exact hd.pairwise_strkey
  have hset : ((d.ht.filter (fun rec => decide (0 < rec.cnt))).map HtRec.strkey).toFinset =
      ss.toFinset.image some := by
    ext a
    rw [List.mem_toFinset, hd.mem_strkeys hnz, Finset.mem_image]
    simp only [List.mem_toFinset]
  have hlen : (d.ht.filter (fun rec => decide (0 < rec.cnt))).length = d.nHt := by
    rw [← List.length_map (f := HtRec.strkey), ← List.toFinset_card_of_nodup hnodup, hset,
      Finset.card_image_of_injective _ (Option.some_injective _), hd.distinct]
  have hperm := List.perm_insertionSort hopLe (d.ht.filter (fun rec => decide (0 < rec.cnt)))
  have hall : hops d = (d.ht.filter (fun rec => decide (0 < rec.cnt))).insertionSort hopLe :=
    List.take_of_length_le (by rw [hperm.length_eq, hlen])
  rw [hall]
  exact ⟨hperm, hperm.length_eq.trans hlen⟩

lemma Names.mem_hops (hd : Names H d ss) (hnz : ∀ s ∈ ss, HashNonzero H s) {rec : HtRec}
    (h : rec ∈ hops d) : ∃ s ∈ ss, rec.strkey = some s ∧ rec.bytes = s.val := by
  have hmem := List.mem_map_of_mem (f := HtRec.strkey) ((hd.hops_perm hnz).1.mem_iff.mp h)
  obtain ⟨s, hs, heq⟩ := (hd.mem_strkeys hnz _).mp hmem
  exact ⟨s, hs, heq.symm, by rw [HtRec.bytes, ← heq]; rfl⟩

/-- An index stands for one string only. -/
lemma Names.dictText_inj (hd : Names H d ss) (hnz : ∀ s ∈ ss, HashNonzero H s) {i j : Nat}
    {s : CString} (hi : dictText d i = some s) (hj : dictText d j = some s) : i = j := by
  have hpair : (hops d).Pairwise (fun a b => a.strkey ≠ b.strkey) :=
    ((hd.hops_perm hnz).1.pairwise_iff (fun h => h.symm)).mpr hd.pairwise_strkey
  obtain ⟨a, ha, has⟩ := Option.bind_eq_some_iff.mp hi
  obtain ⟨b, hb, hbs⟩ := Option.bind_eq_some_iff.mp hj
  obtain ⟨hil, rfl⟩ := List.getElem?_eq_some_iff.mp ha
  obtain ⟨hjl, rfl⟩ := List.getElem?_eq_some_iff.mp hb
  rw [List.pairwise_iff_getElem] at hpair
  obtain hlt | heq | hgt := lt_trichotomy i j
  · exact absurd (has.trans hbs.symm) (hpair i j hil hjl hlt)
  · exact heq
  · exact absurd (hbs.trans has.symm) (hpair j i hjl hil hgt)

end Hops

/-! ### Reading the files -/

lemma length_mapped_pos {file : List UInt8} (h : file ≠ []) : 4096 ≤ (mapped file).length := by
  have hpos := List.length_pos_of_ne_nil h
  rw [mapped, List.length_append, List.length_replicate]
  omega

lemma readAt_zero {w : Nat} {file : List UInt8} (hw : w ≤ 4096) (h : file ≠ []) :
    readAt w file 0 = some (Bytes.getSigned w ((mapped file).take w)) := by
  have hlen := length_mapped_pos h
  rw [readAt, if_pos (by omega), Nat.mul_zero, List.drop_zero]

/-- Two lengths that follow each other in the file are read as one. -/
lemma readAt_two_lens {a b : Nat} (ha : a < 32768) (hb : b < 32768) (rest : List UInt8) :
    readAt 4 (Bytes.put 2 a ++ (Bytes.put 2 b ++ rest)) 0 = some ((a + 65536 * b : Nat) : Int) := by
  have htake : (mapped (Bytes.put 2 a ++ (Bytes.put 2 b ++ rest))).take 4 =
      Bytes.put 2 a ++ Bytes.put 2 b := by
    rw [mapped, List.append_assoc, List.append_assoc, ← List.append_assoc (Bytes.put 2 a),
      List.take_left' (by simp)]
  have hget : Bytes.get (Bytes.put 2 a ++ Bytes.put 2 b) = a + 65536 * b := by
    rw [Bytes.get_append, Bytes.get_put, Bytes.get_put, Bytes.length_put,
      Nat.mod_eq_of_lt (by omega), Nat.mod_eq_of_lt (by omega)]
    norm_num
  rw [readAt_zero (by decide) (by simp [Bytes.put]), htake, Bytes.getSigned_of_lt, hget]
  rw [hget]
  omega

/-- The only length in the file is followed by zeros. -/
lemma readAt_one_len {a : Nat} (ha : a < 32768) : readAt 4 (Bytes.put 2 a) 0 = some (a : Int) := by
  have htake : (mapped (Bytes.put 2 a)).take 4 = Bytes.put 2 a ++ List.replicate 2 0 := by
    rw [mapped, List.take_append, Bytes.length_put, List.take_of_length_le (by simp),
      List.take_replicate]
    rfl
  have hget : Bytes.get (Bytes.put 2 a ++ List.replicate 2 0) = a := by
    rw [Bytes.get_append, Bytes.get_put, Bytes.get_replicate_zero, Nat.mod_eq_of_lt (by omega),
      Nat.mul_zero, Nat.add_zero]
  rw [readAt_zero (by decide) (by simp [Bytes.put]), htake, Bytes.getSigned_of_lt, hget]
  rw [hget]
  omega

lemma readAt_key (key : BitVec 64) : readAt 8 (Bytes.put 8 key.toNat) 0 = some key.toInt := by
  have htake : (mapped (Bytes.put 8 key.toNat)).take 8 = Bytes.put 8 key.toNat := by
    rw [mapped, List.take_left' (by simp)]
  have hpow : 256 ^ 8 = 2 ^ 64 := by norm_num
  rw [readAt_zero (by decide) (by simp [Bytes.put]), htake, Bytes.getSigned, Bytes.get_put, hpow,
    Nat.mod_eq_of_lt key.isLt, BitVec.toInt_eq_toNat_bmod]

lemma strncmpEq_of_length {bs cs rest : List UInt8} (h : bs.length = cs.length) :
    strncmpEq bs (cs ++ rest) = some (decide (bs = cs)) := by
  induction bs generalizing cs with
  | nil =>
    obtain rfl := List.eq_nil_of_length_eq_zero h.symm
    rfl
  | cons b bs ih =>
    cases cs with
    | nil => cases h
    | cons c cs =>
      rw [List.cons_append, strncmpEq, ih (Nat.succ.inj h)]
      by_cases hbc : b = c
      · simp [hbc]
      · simp [hbc]

/-! ### Writing the files -/

/-- Files are written whenever all strings are short enough. -/
lemma dumpLoop_some {recs : List HtRec} (h : ∀ rec ∈ recs, rec.bytes.length < maxLenStr)
    (offset : Nat) : ∃ files, dumpLoop recs offset = some files := by
  induction recs generalizing offset with
  | nil => exact ⟨_, rfl⟩
  | cons rec recs ih =>
    rw [List.forall_mem_cons] at h
    obtain ⟨files, hfiles⟩ := ih h.2 (offset + (rec.bytes.length + 1))
    rw [dumpLoop, if_neg (by omega), hfiles]
    exact ⟨_, rfl⟩

lemma dumpLoop_cons {rec : HtRec} {recs : List HtRec} {offset : Nat} {files : DictFiles}
    (h : dumpLoop (rec :: recs) offset = some files) :
    rec.bytes.length < maxLenStr ∧
      ∃ rest, dumpLoop recs (offset + (rec.bytes.length + 1)) = some rest ∧
        files = ⟨rec.bytes ++ 0 :: rest.chr, Bytes.put 8 rec.key.toNat ++ rest.key,
          Bytes.put 2 rec.bytes.length ++ rest.len, Bytes.put 8 offset ++ rest.off⟩ := by
  rw [dumpLoop] at h
  split_ifs at h with hlong
  obtain ⟨rest, hrest, rfl⟩ := Option.map_eq_some_iff.mp h
  exact ⟨by omega, rest, hrest, rfl⟩

/-! ### The search -/

lemma readAt_of_compareAt {files : DictFiles} {s : CString} {pos : Nat}
    (h : compareAt files s pos = some true) :
    readAt 4 files.len pos = some (s.val.length : Int) := by
  rw [compareAt] at h
  cases hlen : readAt 4 files.len pos with
  | none =>
    rw [hlen] at h
    cases h
  | some len =>
    rw [hlen] at h
    by_cases heq : len = s.val.length
    · rw [heq]
    · simp only [ne_eq, heq, not_false_eq_true, if_true] at h
      cases h

/-- An index that is returned has passed the comparison. -/
lemma compareAt_of_lookupLoop {hash : Nat → CString → BitVec 64} {files : DictFiles}
    {nKeys i : Nat} {s : CString} {seeds : List Nat}
    (h : lookupLoop hash files nKeys s seeds = some (i : Int)) :
    compareAt files s i = some true := by
  induction seeds with
  | nil =>
    rw [lookupLoop] at h
    exact absurd (Option.some.inj h) (by omega)
  | cons t seeds ih =>
    rw [lookupLoop] at h
    generalize binSearchI8 (keysOf files nKeys) (hash t s).toInt = pos at h
    split_ifs at h with hneg
    · exact absurd (Option.some.inj h) (by omega)
    · cases hcmp : compareAt files s pos.toNat with
      | none =>
        rw [hcmp] at h
        cases h
      | some same =>
        rw [hcmp] at h
        cases same with
        | false => exact ih h
        | true =>
          obtain rfl : pos = i := Option.some.inj h
          exact hcmp

/-- What is required of the lookup after the given strings have been added. -/
def LooksUp (H : Hashing) (d : Dict) (ss : List CString) : Prop :=
  ∀ s : CString, s.val ≠ [] →
    (s ∈ ss → ∃ i : Nat, lookupDumped H d s = some (i : Int) ∧ dictText d i = some s) ∧
    (s ∉ ss → lookupDumped H d s = some (-1))

/-- The lookup once the files are there. -/
lemma lookupDumped_eq (H : Hashing) {d : Dict} {rec : HtRec} {recs : List HtRec}
    {files : DictFiles} {s : CString} (hhops : hops d = rec :: recs)
    (hdump : dumpHt d = some files) (hs : s.val ≠ []) :
    lookupDumped H d s = lookupLoop H.hash files d.nHt s (List.range numSeeds) := by
  have hloop := hdump
  rw [dumpHt, hhops] at hloop
  obtain ⟨-, rest, -, hfiles⟩ := dumpLoop_cons hloop
  have hnonempty : ¬ (files.chr = [] ∨ files.key = [] ∨ files.len = [] ∨ files.off = []) := by
    rw [hfiles]
    simp [Bytes.put]
  rw [lookupDumped, hdump]
  dsimp only
  rw [if_neg hnonempty, getFromDict, if_neg hs]

section Directions

variable {H : Hashing} {d : Dict} {ss : List CString} (hd : Names H d ss)
  (hnz : ∀ s ∈ ss, HashNonzero H s) (hshort : ∀ s ∈ ss, s.val.length < maxLenStr)
  (hne : ∀ s ∈ ss, s.val ≠ [])

include hd hnz hshort in
lemma Names.dumpHt_some : ∃ files, dumpHt d = some files := by
  apply dumpLoop_some
  intro rec hrec
  obtain ⟨s, hs, -, hbytes⟩ := hd.mem_hops hnz hrec
  rw [hbytes]
  exact hshort s hs

include hd hnz hshort hne in
/-- With two strings the first one written is lost. -/
lemma Names.not_looksUp (h2 : 2 ≤ d.nHt) : ¬ LooksUp H d ss := by
  intro hlook
  obtain ⟨r0, r1, recs, hhops⟩ : ∃ r0 r1 recs, hops d = r0 :: r1 :: recs := by
    have hlen := (hd.hops_perm hnz).2
    cases hh : hops d with
    | nil =>
      rw [hh, List.length_nil] at hlen
      omega
    | cons r0 recs =>
      cases recs with
      | nil =>
        rw [hh, List.length_singleton] at hlen
        omega
      | cons r1 recs => exact ⟨r0, r1, recs, rfl⟩
  have hmem0 : r0 ∈ hops d := by rw [hhops]; simp
  have hmem1 : r1 ∈ hops d := by rw [hhops]; simp
  obtain ⟨s0, hs0, hstr0, hbytes0⟩ := hd.mem_hops hnz hmem0
  obtain ⟨s1, hs1, -, hbytes1⟩ := hd.mem_hops hnz hmem1
  obtain ⟨files, hdump⟩ := hd.dumpHt_some hnz hshort
  obtain ⟨i, hi, htext⟩ := (hlook s0 (hne s0 hs0)).1 hs0
  obtain rfl : i = 0 := hd.dictText_inj hnz htext (by rw [dictText, hhops]; simpa using hstr0)
  rw [lookupDumped_eq H hhops hdump (hne s0 hs0)] at hi
  have hread := readAt_of_compareAt (compareAt_of_lookupLoop hi)
  rw [dumpHt, hhops] at hdump
  obtain ⟨hlt0, rest, hrest, rfl⟩ := dumpLoop_cons hdump
  obtain ⟨hlt1, rest', -, rfl⟩ := dumpLoop_cons hrest
  have hmax : maxLenStr ≤ 32768 := by decide
  rw [readAt_two_lens (by omega) (by omega), Option.some.injEq, Nat.cast_inj, hbytes0,
    hbytes1] at hread
  have hpos := List.length_pos_of_ne_nil (hne s1 hs1)
  omega

include hd hnz in
/-- A string that is alone in the table is stored under its first hash value. -/
lemma Names.key_of_single {rec : HtRec} {s : CString} (hhops : hops d = [rec])
    (hs : s ∈ ss) (hstr : rec.strkey = some s) : rec.key = H.hash 0 s := by
  obtain ⟨hperm, hlen⟩ := hd.hops_perm hnz
  rw [hhops] at hperm hlen
  have hsingle : ∀ r ∈ d.ht, r.cnt ≠ 0 → r = rec := by
    intro r hr hcnt
    have hmem : r ∈ d.ht.filter (fun rec => decide (0 < rec.cnt)) :=
      List.mem_filter.mpr ⟨hr, by simpa using Nat.pos_of_ne_zero hcnt⟩
    exact List.mem_singleton.mp (hperm.mem_iff.mpr hmem)
  obtain ⟨p, key, hslot⟩ := hd.stored s hs
  obtain ⟨rec', hrec', hkey, -⟩ := slot_of_chooseSlot hslot
  obtain rfl := hsingle rec' (List.mem_of_getElem? hrec') (hd.cnt_ne_zero (hnz s hs) hslot hrec')
  obtain ⟨t, ht, hsome, hnone⟩ := chooseSlot_eq_some.mp hslot
  have hfirst : t = 0 := by
    by_contra hpos
    have hzero := hnz s hs 0 (by omega)
    obtain hfull | ⟨i, hi⟩ := trySeed_eq_none.mp (hnone 0 (by omega))
    · -- a probe through the whole table would find all slots occupied
      have hall : ∀ r ∈ d.ht, decide (0 < r.cnt) = true := by
        intro r hr
        by_contra hcnt
        have hcnt0 : r.cnt = 0 := by simpa using hcnt
        obtain ⟨q, hq⟩ := List.mem_iff_getElem?.mp hr
        exact probe_ne_none hq hzero (hd.free r hr hcnt0) hcnt0 hfull
      rw [List.filter_eq_self.mpr hall] at hperm
      have hroom := hd.room
      rw [← hlen, ← hperm.length_eq, List.length_singleton] at hroom
      omega
    · -- a slot with this hash value holds the string itself
      obtain ⟨r, hr, hstop⟩ := probe_stop hi
      have hkeyr := (stopAt_pickNewHash hstop).1
      have hcnt : r.cnt ≠ 0 := fun h0 => hzero (hkeyr ▸ hd.free r (List.mem_of_getElem? hr) h0)
      obtain rfl := hsingle r (List.mem_of_getElem? hr) hcnt
      exact (stopAt_pickNewHash hstop).2 hstr
  rw [hkey, (trySeed_eq_some_true.mp hsome).1, hfirst]

end Directions

/-! ### A dictionary with one string -/

/-- The files of a dictionary with one string. -/
def singleFiles (s : CString) (key : BitVec 64) : DictFiles :=
  ⟨s.val ++ [0], Bytes.put 8 key.toNat, Bytes.put 2 s.val.length, Bytes.put 8 0⟩

lemma dumpLoop_single {rec : HtRec} {s : CString} (hbytes : rec.bytes = s.val)
    (hshort : s.val.length < maxLenStr) : dumpLoop [rec] 0 = some (singleFiles s rec.key) := by
  rw [dumpLoop, hbytes, if_neg (by omega), dumpLoop, Option.map_some, singleFiles, List.append_nil,
    List.append_nil, List.append_nil]

lemma compareAt_single {s0 : CString} (key : BitVec 64) (hshort : s0.val.length < maxLenStr)
    (s : CString) : compareAt (singleFiles s0 key) s 0 = some (decide (s = s0)) := by
  have hmax : maxLenStr ≤ 32768 := by decide
  have hzero : readAt 4 (Bytes.put 8 0) 0 = some 0 := by decide +kernel
  have hoff : readAt 4 (singleFiles s0 key).off 0 = some 0 := hzero
  have hlen0 : readAt 4 (singleFiles s0 key).len 0 = some (s0.val.length : Int) :=
    readAt_one_len (by omega)
  rw [compareAt, hlen0, hoff]
  dsimp only
  by_cases hlen : s.val.length = s0.val.length
  · rw [if_neg (by omega), if_neg (by decide), Int.toNat_zero, List.drop_zero, singleFiles, mapped,
      List.append_assoc, strncmpEq_of_length hlen]
    exact congrArg some (decide_eq_decide.mpr ⟨Subtype.ext, congrArg Subtype.val⟩)
  · have hne : s ≠ s0 := fun h => hlen (congrArg (fun c : CString => c.val.length) h)
    rw [if_pos (by omega), decide_eq_false hne]

lemma binSearchI8_single (s0 : CString) (key : BitVec 64) (x : Int) :
    binSearchI8 (keysOf (singleFiles s0 key) 1) x = if key.toInt = x then 0 else -1 := by
  have hkeys : keysOf (singleFiles s0 key) 1 = [key.toInt] := by
    have hread : readAt 8 (singleFiles s0 key).key 0 = some key.toInt := readAt_key key
    simp only [keysOf, List.range_one, List.map_cons, List.map_nil, hread, Option.getD_some]
  rw [hkeys, binSearchI8, List.length_singleton, if_pos rfl]
  rfl

/-- Another string is not found, whichever seeds give the key of the only string. -/
lemma lookupLoop_single_ne (hash : Nat → CString → BitVec 64) {s0 s : CString} (key : BitVec 64)
    (hshort : s0.val.length < maxLenStr) (hne : s ≠ s0) (seeds : List Nat) :
    lookupLoop hash (singleFiles s0 key) 1 s seeds = some (-1) := by
  induction seeds with
  | nil => rw [lookupLoop]
  | cons t seeds ih =>
    rw [lookupLoop, binSearchI8_single]
    by_cases hkey : key.toInt = (hash t s).toInt
    · rw [if_pos hkey, if_neg (by decide), Int.toNat_zero, compareAt_single key hshort, decide_eq_false hne]
      exact ih
    · rw [if_neg hkey]
      rfl

lemma lookupLoop_single_self (hash : Nat → CString → BitVec 64) {s0 : CString}
    (hshort : s0.val.length < maxLenStr) (t : Nat) (seeds : List Nat) :
    lookupLoop hash (singleFiles s0 (hash t s0)) 1 s0 (t :: seeds) = some 0 := by
  rw [lookupLoop, binSearchI8_single, if_pos rfl, if_neg (by decide), Int.toNat_zero,
    compareAt_single _ hshort, decide_eq_true rfl]

/-- With one string the lookup works. -/
lemma Names.looksUp {H : Hashing} {d : Dict} {ss : List CString} (hd : Names H d ss)
    (hnz : ∀ s ∈ ss, HashNonzero H s) (hshort : ∀ s ∈ ss, s.val.length < maxLenStr)
    (h1 : d.nHt = 1) : LooksUp H d ss := by
  obtain ⟨rec, hhops⟩ : ∃ rec, hops d = [rec] :=
    List.length_eq_one_iff.mp ((hd.hops_perm hnz).2.trans h1)
  obtain ⟨s0, hs0, hstr, hbytes⟩ := hd.mem_hops hnz (hhops ▸ List.mem_singleton_self rec)
  have hdump : dumpHt d = some (singleFiles s0 rec.key) := by
    rw [dumpHt, hhops, dumpLoop_single hbytes (hshort s0 hs0)]
  have honly : ∀ s, s ∈ ss ↔ s = s0 := by
    intro s
    constructor
    · intro hs
      obtain ⟨a, ha⟩ := Finset.card_eq_one.mp (hd.distinct.symm.trans h1)
      have h0 : s0 ∈ ss.toFinset := List.mem_toFinset.mpr hs0
      have h : s ∈ ss.toFinset := List.mem_toFinset.mpr hs
      rw [ha, Finset.mem_singleton] at h0 h
      rw [h, h0]
    · rintro rfl
      exact hs0
  intro s hs
  rw [honly s, lookupDumped_eq H hhops hdump hs, h1]
  refine ⟨?_, fun hne => lookupLoop_single_ne H.hash rec.key (hshort s0 hs0) hne _⟩
  rintro rfl
  refine ⟨0, ?_, ?_⟩
  · have hseeds : List.range numSeeds = 0 :: (List.range 63).map Nat.succ :=
      List.range_succ_eq_map
    rw [hseeds, hd.key_of_single hnz hhops hs0 hstr, lookupLoop_single_self H.hash (hshort s hs0)]
    rfl
  · rw [dictText, hhops]
    simpa using hstr

/-! ### The whole way -/

/-- A dumped dictionary can be looked up exactly when one string has been added to it. -/
theorem looksUp_iff_one_string (H : Hashing) (szHt : Nat) (ss : List CString) (d : Dict)
    (keys : List (BitVec 64)) (hnz : ∀ s ∈ ss, HashNonzero H s)
    (hne : ∀ s ∈ ss, s.val ≠ []) (hshort : ∀ s ∈ ss, s.val.length < maxLenStr)
    (hrun : addAll H (setupHtDict szHt) ss = some (d, keys)) :
    LooksUp H d ss ↔ ss.toFinset.card = 1 := by
  obtain ⟨hd, -, -⟩ := (names_setup H szHt).run (by rwa [List.nil_append]) hrun
  rw [List.nil_append] at hd
  rw [← hd.distinct]
  obtain h0 | h1 | h2 : d.nHt = 0 ∨ d.nHt = 1 ∨ 2 ≤ d.nHt := by omega
  · refine ⟨fun hlook => ?_, fun h => by omega⟩
    have hnil : hops d = [] := List.eq_nil_of_length_eq_zero ((hd.hops_perm hnz).2.trans h0)
    have hdump : dumpHt d = some ⟨[], [], [], []⟩ := by rw [dumpHt, hnil, dumpLoop]
    have hnone : lookupDumped H d ⟨[1], by simp⟩ = none := by
      unfold lookupDumped
      rw [hdump]
      rfl
    have hss : ss = [] := by
      rw [← List.toFinset_eq_empty_iff, ← Finset.card_eq_zero, ← hd.distinct, h0]
    have hlost := (hlook ⟨[1], by simp⟩ (List.cons_ne_nil 1 [])).2
      (hss ▸ List.not_mem_nil)
    rw [hnone] at hlost
    cases hlost
  · exact ⟨fun _ => h1, fun _ => hd.looksUp hnz hshort h1⟩
  · exact ⟨fun hlook => absurd hlook (hd.not_looksUp hnz hshort hne h2), fun h => by omega⟩

theorem looksUp_iff_one_string_added_twice :
    ∃ d keys, addAll ⟨fun t s => BitVec.ofNat 64 (t + s.val.length + 1), mixI8⟩ (setupHtDict 7)
        [⟨[97], by simp⟩, ⟨[97], by simp⟩] = some (d, keys) ∧
      LooksUp ⟨fun t s => BitVec.ofNat 64 (t + s.val.length + 1), mixI8⟩ d
        [⟨[97], by simp⟩, ⟨[97], by simp⟩] := by
  have hsome : (addAll ⟨fun t s => BitVec.ofNat 64 (t + s.val.length + 1), mixI8⟩ (setupHtDict 7)
      [⟨[97], by simp⟩, ⟨[97], by simp⟩]).isSome := by decide +kernel
  obtain ⟨⟨d, keys⟩, hrun⟩ := Option.isSome_iff_exists.mp hsome
  refine ⟨d, keys, hrun, ?_⟩
  refine (looksUp_iff_one_string _ 7 _ d keys ?_ ?_ ?_ hrun).mpr (by decide +kernel)
  · unfold HashNonzero
    decide +kernel
  · decide +kernel
  · decide +kernel

/-- Of two strings the first one written is not found. -/
theorem lookupDumped_first_of_two_lost :
    ∃ d keys, addAll ⟨fun t s => BitVec.ofNat 64 (t + s.val.length + 1), mixI8⟩ (setupHtDict 7)
        [⟨[97], by simp⟩, ⟨[98, 99], by simp⟩] = some (d, keys) ∧
      lookupDumped ⟨fun t s => BitVec.ofNat 64 (t + s.val.length + 1), mixI8⟩ d
        ⟨[97], by simp⟩ = some (-1) ∧
      ¬ LooksUp ⟨fun t s => BitVec.ofNat 64 (t + s.val.length + 1), mixI8⟩ d
        [⟨[97], by simp⟩, ⟨[98, 99], by simp⟩] := by
  have hmap : (addAll ⟨fun t s => BitVec.ofNat 64 (t + s.val.length + 1), mixI8⟩ (setupHtDict 7)
      [⟨[97], by simp⟩, ⟨[98, 99], by simp⟩]).map (fun r =>
        lookupDumped ⟨fun t s => BitVec.ofNat 64 (t + s.val.length + 1), mixI8⟩ r.1
          ⟨[97], by simp⟩) = some (some (-1)) := by decide +kernel
  obtain ⟨⟨d, keys⟩, hrun, hlost⟩ := Option.map_eq_some_iff.mp hmap
  refine ⟨d, keys, hrun, hlost, fun hlook => ?_⟩
  obtain ⟨i, hi, -⟩ := (hlook ⟨[97], by simp⟩ (List.cons_ne_nil 97 [])).1
    (List.mem_cons_self ..)
  rw [hlost] at hi
  exact absurd (Option.some.inj hi) (by omega)

end Datacl
