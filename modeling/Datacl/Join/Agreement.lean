import Datacl.Join.Parallel

/-!
# When the number of blocks makes no difference
-/

namespace Datacl

section

variable {w : Nat} {J : JoinArgs w} {nT : Nat}

/-! ### Operations with a null column -/

def GapIn (J : JoinArgs w) (nT tid : Nat) : Prop :=
  Gap J (blockStart J.dstLnk.length nT tid) (blockStart J.dstLnk.length nT (tid + 1))

def HasLargestIn (J : JoinArgs w) (nT tid : Nat) : Prop :=
  HasLargest J (blockStart J.dstLnk.length nT tid) (blockStart J.dstLnk.length nT (tid + 1))

def BeyondIn (J : JoinArgs w) (nT tid : Nat) : Prop :=
  Beyond J (blockStart J.dstLnk.length nT tid) (blockStart J.dstLnk.length nT (tid + 1))

/-- If the largest link of the source is found and no smaller link is missing, then a block with
links beyond it has it too. -/
def FlagsAgree (J : JoinArgs w) (nT : Nat) : Prop :=
  HasLargest J 0 J.dstLnk.length → ¬ Gap J 0 J.dstLnk.length →
    ∀ tid < nT, BeyondIn J nT tid → HasLargestIn J nT tid

/-- If a block has the largest link of the source and links beyond it but misses no smaller one,
then no smaller link is missing at all. -/
def ClearedAgree (J : JoinArgs w) (nT : Nat) : Prop :=
  ∀ tid < nT, BeyondIn J nT tid → HasLargestIn J nT tid → ¬ GapIn J nT tid →
    ¬ Gap J 0 J.dstLnk.length

/-- A property of some row holds of some row of some block. -/
lemma exists_row_iff (h0 : 0 < nT) {P : Nat → Prop} :
    (∃ j, 0 ≤ j ∧ j < J.dstLnk.length ∧ P j) ↔
      ∃ tid < nT, ∃ j, blockStart J.dstLnk.length nT tid ≤ j ∧
        j < blockStart J.dstLnk.length nT (tid + 1) ∧ P j := by
  constructor
  · rintro ⟨j, -, hj, hP⟩
    have hend : blockStart J.dstLnk.length nT nT = J.dstLnk.length := if_pos rfl
    obtain ⟨tid, htid, h1, h2⟩ := exists_block h0 (hj.trans_eq hend.symm)
    exact ⟨tid, htid, j, h1, h2, hP⟩
  · rintro ⟨tid, htid, j, -, h2, hP⟩
    exact ⟨j, Nat.zero_le j, h2.trans_le (blockStart_le htid), hP⟩

lemma gap_iff (h0 : 0 < nT) : Gap J 0 J.dstLnk.length ↔ ∃ tid < nT, GapIn J nT tid :=
  exists_row_iff h0

lemma hasLargest_iff (h0 : 0 < nT) :
    HasLargest J 0 J.dstLnk.length ↔ ∃ tid < nT, HasLargestIn J nT tid :=
  exists_row_iff h0

lemma beyond_iff (h0 : 0 < nT) : Beyond J 0 J.dstLnk.length ↔ ∃ tid < nT, BeyondIn J nT tid := by
  rw [Beyond, exists_row_iff h0]
  constructor
  · rintro ⟨hne, tid, htid, hrow⟩
    exact ⟨tid, htid, hne, hrow⟩
  · rintro ⟨tid, htid, hne, hrow⟩
    exact ⟨hne, tid, htid, hrow⟩

section Nulls

variable (hd : Ascending J.dstLnk) (hop : J.op.hasNn = true) (h0 : 0 < nT)

include hd hop in
lemma noticedIn_iff {tid : Nat} (htid : tid < nT) :
    NoticedIn J nT tid ↔ GapIn J nT tid ∨ BeyondIn J nT tid ∧ ¬ HasLargestIn J nT tid :=
  noticed_iff hd (blockStart_le htid) hop

include hd hop h0 in
/-- `is_any_null` -/
lemma flags_iff :
    ((∃ tid < nT, NoticedIn J nT tid) ↔ Noticed J 0 J.dstLnk.length) ↔ FlagsAgree J nT := by
  rw [noticed_iff hd le_rfl hop]
  constructor
  · intro h hlargest hgap tid htid hbeyond
    by_contra hno
    rcases h.mp ⟨tid, htid, (noticedIn_iff hd hop htid).mpr (.inr ⟨hbeyond, hno⟩)⟩ with hg | hb
    · exact hgap hg
    · exact hb.2 hlargest
  · intro h
    constructor
    · rintro ⟨tid, htid, hnoticed⟩
      rcases (noticedIn_iff hd hop htid).mp hnoticed with hg | ⟨hbeyond, hno⟩
      · exact .inl ((gap_iff h0).mpr ⟨tid, htid, hg⟩)
      · by_cases hgap : Gap J 0 J.dstLnk.length
        · exact .inl hgap
        · exact .inr ⟨(beyond_iff h0).mpr ⟨tid, htid, hbeyond⟩,
            fun hlargest => hno (h hlargest hgap tid htid hbeyond)⟩
    · rintro (hg | ⟨hb, hno⟩)
      · obtain ⟨tid, htid, hg⟩ := (gap_iff h0).mp hg
        exact ⟨tid, htid, (noticedIn_iff hd hop htid).mpr (.inl hg)⟩
      · obtain ⟨tid, htid, hb⟩ := (beyond_iff h0).mp hb
        refine ⟨tid, htid, (noticedIn_iff hd hop htid).mpr (.inr ⟨hb, fun hl => hno ?_⟩)⟩
        exact (hasLargest_iff h0).mpr ⟨tid, htid, hl⟩

include hd hop h0 in
/-- The values of rows without a match. -/
lemma cleared_iff (hflags : FlagsAgree J nT) :
    (∀ tid < nT, ∀ j, InBlock J nT tid j → J.link j ∉ J.srcLnk →
      (NoticedIn J nT tid ↔ Noticed J 0 J.dstLnk.length)) ↔ ClearedAgree J nT := by
  have hflags' := (flags_iff hd hop h0).mpr hflags
  constructor
  · intro h tid htid hbeyond hlargest hgap hgapAll
    obtain ⟨-, j, h1, h2, hall⟩ := hbeyond
    have hiff := h tid htid j ⟨h1, h2⟩ fun hmem => lt_irrefl _ (hall _ hmem)
    have hall' := hiff.mpr ((noticed_iff hd le_rfl hop).mpr (.inl hgapAll))
    rcases (noticedIn_iff hd hop htid).mp hall' with hg | hb
    · exact hgap hg
    · exact hb.2 hlargest
  · intro h tid htid j hj hmiss
    refine ⟨fun hn => hflags'.mp ⟨tid, htid, hn⟩, fun hn => ?_⟩
    by_contra hno
    rw [noticedIn_iff hd hop htid, not_or] at hno
    by_cases hex : ∃ s ∈ J.srcLnk, J.link j < s
    · exact hno.1 ⟨j, hj.1, hj.2, hmiss, hex⟩
    · push Not at hex
      have hne : J.srcLnk ≠ [] := by
        obtain ⟨k, -, -, hrun, -⟩ := hn
        exact fun hnil => hrun (.inl hnil)
      have hbeyond : BeyondIn J nT tid := ⟨hne, j, hj.1, hj.2,
        fun s hs => lt_of_le_of_ne (hex s hs) fun heq => hmiss (heq ▸ hs)⟩
      have hlargest : HasLargestIn J nT tid := by
        by_contra hno'
        exact hno.2 ⟨hbeyond, hno'⟩
      rcases (noticed_iff hd le_rfl hop).mp hn with hg | hb
      · exact h tid htid hbeyond hlargest hno.1 hg
      · exact hb.2 ((hasLargest_iff h0).mpr ⟨tid, htid, hlargest⟩)

lemma cellOf_of_mem {j : Nat} (h : J.link j ∈ J.srcLnk) (b b' : Bool) :
    cellOf J b j = cellOf J b' j := by
  rw [cellOf, cellOf, if_neg (fun hn => hn.1 h), if_neg (fun hn => hn.1 h)]

lemma cellOf_eq_iff {j : Nat} (h : J.link j ∉ J.srcLnk) (b b' : Bool) :
    cellOf J b j = cellOf J b' j ↔ (initialValue w J.op ≠ 0 → b = b') := by
  have hcell : ∀ b, cellOf J b j = if b = true then 0 else initialValue w J.op := by
    intro b
    rw [cellOf, rowValue_of_not_mem h]
    exact if_congr (and_iff_right h) rfl rfl
  rw [hcell, hcell]
  by_cases hi : initialValue w J.op = 0#w
  · simp [hi]
  · cases b <;> cases b' <;> simp [hi, Ne.symm hi]

/-- A single block holds all rows. -/
lemma blockStart_one (nR : Nat) : blockStart nR 1 0 = 0 ∧ blockStart nR 1 1 = nR :=
  ⟨blockStart_zero one_pos, if_pos rfl⟩

lemma noticedIn_one : NoticedIn J 1 0 ↔ Noticed J 0 J.dstLnk.length := by
  rw [NoticedIn, (blockStart_one _).1, (blockStart_one _).2]

lemma inBlock_one {j : Nat} : InBlock J 1 0 j ↔ j < J.dstLnk.length := by
  rw [InBlock, (blockStart_one _).1, (blockStart_one _).2]
  exact and_iff_right (Nat.zero_le j)

include hd hop h0 in
lemma same_hasNn_iff (hl : Ascending J.srcLnk) (X : Nat → BitVec w) (nn : Nat → Bool) :
    JoinOut.Same J.op J.dstLnk.length (srtJoinBlocks J nT X nn) (srtJoinBlocks J 1 X nn) ↔
      FlagsAgree J nT ∧ (initialValue w J.op ≠ 0 → ClearedAgree J nT) := by
  have hblocks : AfterBlocks J nT nT (srtJoinBlocks J nT X nn) :=
    afterBlocks_foldl hl hd hop nT X nn le_rfl
  have hone : AfterBlocks J 1 1 (srtJoinBlocks J 1 X nn) :=
    afterBlocks_foldl hl hd hop 1 X nn le_rfl
  obtain ⟨noticed, hnoticed, hrows⟩ := hone.rows 0 one_pos
  rw [noticedIn_one] at hnoticed
  have hnull : (srtJoinBlocks J 1 X nn).isAnyNull = true ↔ Noticed J 0 J.dstLnk.length := by
    rw [hone.null]
    simp [noticedIn_one]
  have hin : ∀ {tid j : Nat}, tid < nT → InBlock J nT tid j → j < J.dstLnk.length :=
    fun htid hj => hj.2.trans_le (blockStart_le htid)
  constructor
  · rintro ⟨hval, -, hflag⟩
    have hflags : FlagsAgree J nT := by
      rw [← flags_iff hd hop h0, ← hblocks.null, ← hnull, hflag]
    refine ⟨hflags, fun hinit => (cleared_iff hd hop h0 hflags).mp fun tid htid j hj hmiss => ?_⟩
    obtain ⟨noticed', hnoticed', hrows'⟩ := hblocks.rows tid htid
    have hcell := hval j (hin htid hj)
    rw [(hrows' j hj).1, (hrows j (inBlock_one.mpr (hin htid hj))).1] at hcell
    rw [← hnoticed', ← hnoticed, (cellOf_eq_iff hmiss _ _).mp hcell hinit]
  · rintro ⟨hflags, hcleared⟩
    have hend : blockStart J.dstLnk.length nT nT = J.dstLnk.length := if_pos rfl
    refine ⟨fun j hj => ?_, fun _ j hj => ?_, ?_⟩
    · obtain ⟨tid, htid, hrow⟩ := exists_block h0 (hj.trans_eq hend.symm)
      obtain ⟨noticed', hnoticed', hrows'⟩ := hblocks.rows tid htid
      rw [(hrows' j hrow).1, (hrows j (inBlock_one.mpr hj)).1]
      by_cases hmem : J.link j ∈ J.srcLnk
      · exact cellOf_of_mem hmem _ _
      · refine (cellOf_eq_iff hmem _ _).mpr fun hinit => ?_
        have hiff := (cleared_iff hd hop h0 hflags).mpr (hcleared hinit) tid htid j hrow hmem
        rw [Bool.eq_iff_iff, hnoticed', hnoticed, hiff]
    · obtain ⟨tid, htid, hrow⟩ := exists_block h0 (hj.trans_eq hend.symm)
      obtain ⟨_, _, hrows'⟩ := hblocks.rows tid htid
      rw [(hrows' j hrow).2, (hrows j (inBlock_one.mpr hj)).2]
    · rw [Bool.eq_iff_iff, hblocks.null, hnull]
      exact (flags_iff hd hop h0).mpr hflags

end Nulls

end

end Datacl
