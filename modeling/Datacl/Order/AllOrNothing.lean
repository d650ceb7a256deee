import Datacl.Meta.LinksFields
import Datacl.Order.AppLoop

/-!
# When `app_tbl` is all or nothing

`app_fld` fails on a field of the first table with a null column, but only after it has appended the data: the id
of the directory of the null column is used before it is set.
-/

namespace Datacl

section

variable {env : Env} {s s' : Store} {t1 t2 : Name} {t1Id t2Id i : Nat} {pairs : List (Nat × Nat)} {p : Nat × Nat}

/-! ### Consistent states -/

lemma getFldSz_pos {t : FldType} {z : Int} (h : getFldSz t = some z) (hsc : t ≠ .SC) (hsv : t ≠ .SV) :
    ∃ k : Nat, 0 < k ∧ z = k := by
  cases t with
  | I1 => exact ⟨1, one_pos, (Option.some.inj h).symm⟩
  | I2 => exact ⟨2, two_pos, (Option.some.inj h).symm⟩
  | I4 => exact ⟨4, four_pos, (Option.some.inj h).symm⟩
  | I8 => exact ⟨8, by omega, (Option.some.inj h).symm⟩
  | F4 => exact ⟨4, four_pos, (Option.some.inj h).symm⟩
  | F8 => exact ⟨8, by omega, (Option.some.inj h).symm⟩
  | SC => exact absurd rfl hsc
  | SV => exact absurd rfl hsv
  | B => cases h
  | undefFldtype => cases h

lemma AppConsistent.checked (h : AppConsistent env s) (hu : (s.fld i).Used) :
    0 < (s.fld i).fileno ∧ chkFldMeta env s i (s.tbl (s.fld i).tblId.toNat).nR = true := by
  have hall := List.all_eq_true.mp h.checks i (List.mem_range.mpr (Store.used_lt hu))
  dsimp only at hall
  split_ifs at hall with hfileno
  · rw [used_not_zero hu] at hall
    cases hall
  · exact ⟨not_le.mp hfileno, (Bool.and_eq_true_iff.mp hall).2⟩

/-- A field has as many cells as its table has rows. -/
lemma AppConsistent.column (h : AppConsistent env s) (hu : (s.fld i).Used) (hsc : (s.fld i).fldtype ≠ .SC)
    (hsv : (s.fld i).fldtype ≠ .SV) (hnR : 0 < (s.tbl (s.fld i).tblId.toNat).nR) :
    ∃ f, HasColumn env s i (s.tbl (s.fld i).tblId.toNat).nR.toNat f := by
  obtain ⟨-, hchk⟩ := h.checked hu
  have hfile : chkFile env s (s.tbl (s.fld i).tblId.toNat).nR (s.fld i) = true := by
    unfold chkFldMeta at hchk
    exact (Bool.and_eq_true_iff.mp hchk).2
  obtain ⟨-, hany⟩ := Bool.and_eq_true_iff.mp hfile
  obtain ⟨f, hf, hsize⟩ := (Option.any_eq_true _ _).mp hany
  obtain ⟨z, hz, -⟩ := (Option.any_eq_true _ _).mp (Bool.and_eq_true_iff.mp hsize).2
  obtain ⟨k, hk, rfl⟩ := getFldSz_pos hz hsc hsv
  have hwidth := h.width i k f hu hz (getData_eq_some hf)
  have hlen := length_of_chkFldMeta hk hz hnR hchk (getData_eq_some hf) hwidth
  exact ⟨f, hf, by omega, by rw [hwidth, hz]⟩

/-- A field of a table that is not of a string type, with its null column. -/
lemma AppConsistent.ready (h : AppConsistent env s) {t : Nat} (ht : (s.tbl t).Used) (hu : (s.fld i).Used)
    (htbl : (s.fld i).tblId = t) (hprim : (s.fld i).auxtype = .undefAuxtype) (hsc : (s.fld i).fldtype ≠ .SC)
    (hsv : (s.fld i).fldtype ≠ .SV) : FieldReady env s i (s.tbl t).nR.toNat := by
  have hnR : 0 < (s.tbl t).nR := by
    have hmeta := h.tbls t ht
    simp only [chkTblMeta, Bool.and_eq_true, decide_eq_true_eq] at hmeta
    exact hmeta.1.1.2
  have htoNat : (s.fld i).tblId.toNat = t := by rw [htbl, Int.toNat_natCast]
  have hcol := h.column hu hsc hsv
  rw [htoNat] at hcol
  refine ⟨hu, hprim, hcol hnR, fun hpos => (h.nn i hu hpos).1, fun hpos => (h.nn i hu hpos).2.1, fun hpos => ?_⟩
  obtain ⟨hnn, -, htype, htbl'⟩ := h.nn i hu hpos
  have hcol' := h.column hnn (by rw [htype]; exact FldType.noConfusion) (by rw [htype]; exact FldType.noConfusion)
  rw [htbl', htoNat] at hcol'
  obtain ⟨y, hy⟩ := hcol' hnR
  exact ⟨y, hy.data, hy.length⟩

/-- A record of a table that is not auxiliary is in use. -/
lemma AppConsistent.primary (h : AppConsistent env s) {t : Nat} (hlt : i < s.flds.length)
    (htbl : (s.fld i).tblId = t) (hprim : (s.fld i).auxtype = .undefAuxtype) :
    (s.fld i).Used ∧ chkFldName (s.fld i).name = true := by
  have hall := List.all_eq_true.mp h.checks i (List.mem_range.mpr hlt)
  dsimp only at hall
  split_ifs at hall with hfileno
  · have hzero : ({ s.fld i with numNn := -1 } : FldRec).tblId = -1 := by
      rw [of_decide_eq_true hall]
      rfl
    dsimp only at hzero
    omega
  · have hchk := (Bool.and_eq_true_iff.mp hall).2
    simp only [chkFldMeta, hprim, Bool.and_eq_true] at hchk
    have hname : chkFldName (s.fld i).name = true := by simpa using hchk.1.1.2
    exact ⟨chkFldName_ne_nil hname, hname⟩

/-! ### The pairs -/

lemma mapM_fst {α β : Type} {f : α → Option (α × β)} (hf : ∀ a q, f a = some q → q.1 = a) {l : List α}
    {qs : List (α × β)} (h : l.mapM f = some qs) : qs.map Prod.fst = l ∧ ∀ q ∈ qs, f q.1 = some q := by
  induction l generalizing qs with
  | nil =>
    obtain rfl := Option.some.inj h
    exact ⟨rfl, fun q hq => absurd hq List.not_mem_nil⟩
  | cons a l ih =>
    rw [List.mapM_cons] at h
    obtain ⟨q, hq, h⟩ := Option.bind_eq_some_iff.mp h
    obtain ⟨qs', hqs', h⟩ := Option.bind_eq_some_iff.mp h
    obtain rfl := Option.some.inj h
    obtain ⟨hmap, hall⟩ := ih hqs'
    refine ⟨by rw [List.map_cons, hf a q hq, hmap], List.forall_mem_cons.mpr ⟨?_, hall⟩⟩
    rw [hf a q hq, hq]

/-- What the checks of a pair leave. -/
structure PairChecked (s : Store) (t2Id a b : Nat) : Prop where
  notSC : (s.fld a).fldtype ≠ .SC
  notSV : (s.fld a).fldtype ≠ .SV
  second : isFld s t2Id (s.fld a).name = some b
  auxtype : (s.fld a).auxtype = (s.fld b).auxtype
  fldtype : (s.fld a).fldtype = (s.fld b).fldtype

lemma appTblPair_eq_some {a : Nat} (h : appTblPair s t2Id a = some p) : p.1 = a ∧ PairChecked s t2Id a p.2 := by
  unfold appTblPair at h
  dsimp only at h
  split_ifs at h with htype hext
  rw [not_or] at htype
  cases hfld : isFld s t2Id (s.fld a).name with
  | none =>
    rw [hfld] at h
    cases h
  | some b =>
    rw [hfld] at h
    dsimp only at h
    split_ifs at h with haux htype'
    obtain rfl := Option.some.inj h
    exact ⟨rfl, htype.1, htype.2, hfld, not_not.mp haux, not_not.mp htype'⟩

lemma mem_tblMeta {l : List Nat} (h : tblMeta s t1Id = some l) :
    l.Nodup ∧ ∀ a ∈ l, a < s.flds.length ∧ (s.fld a).tblId = t1Id ∧ (s.fld a).auxtype = .undefAuxtype := by
  unfold tblMeta at h
  dsimp only at h
  split_ifs at h
  obtain rfl := Option.some.inj h
  refine ⟨List.nodup_range.filter _, fun a ha => ?_⟩
  obtain ⟨hlt, hrec⟩ := List.mem_filter.mp ha
  exact ⟨List.mem_range.mp hlt, of_decide_eq_true hrec⟩

lemma appTblPairs_spec (hpairs : appTblPairs s t1Id t2Id = some pairs) :
    (pairs.map Prod.fst).Nodup ∧ ∀ p ∈ pairs, p.1 < s.flds.length ∧ (s.fld p.1).tblId = t1Id ∧
      (s.fld p.1).auxtype = .undefAuxtype ∧ appTblPair s t2Id p.1 = some p := by
  obtain ⟨l, hl, hmap⟩ := Option.bind_eq_some_iff.mp hpairs
  obtain ⟨hfst, hall⟩ := mapM_fst (fun a q hq => (appTblPair_eq_some hq).1) hmap
  obtain ⟨hnodup, hmem⟩ := mem_tblMeta hl
  rw [hfst]
  refine ⟨hnodup, fun p hp => ?_⟩
  obtain ⟨hlt, htbl, hprim⟩ := hmem p.1 (hfst ▸ List.mem_map_of_mem hp)
  exact ⟨hlt, htbl, hprim, hall p hp⟩

/-- A consistent state is what the loop needs. -/
lemma AppConsistent.setup (h : AppConsistent env s) (ht1 : (s.tbl t1Id).Used) (ht2 : (s.tbl t2Id).Used)
    (hpairs : appTblPairs s t1Id t2Id = some pairs) :
    AppSetup env s t1Id t2Id (s.tbl t1Id).nR.toNat (s.tbl t2Id).nR.toNat pairs := by
  obtain ⟨hnodup, hall⟩ := appTblPairs_spec hpairs
  have hmeta := h.tbls t2Id ht2
  simp only [chkTblMeta, Bool.and_eq_true, decide_eq_true_eq] at hmeta
  have hpos := hmeta.1.1.2
  refine ⟨rfl, rfl, by omega, h.files, fun i hu => ⟨(h.checked hu).1.le, h.fileno i hu⟩, ?_, ?_, hnodup, ?_⟩
  · intro p hp
    obtain ⟨hlt, htbl, hprim, hpair⟩ := hall p hp
    obtain ⟨-, hchecked⟩ := appTblPair_eq_some hpair
    exact h.ready ht1 (h.primary hlt htbl hprim).1 htbl hprim hchecked.notSC hchecked.notSV
  · intro p hp
    obtain ⟨hlt, htbl, hprim, hpair⟩ := hall p hp
    obtain ⟨-, hchecked⟩ := appTblPair_eq_some hpair
    obtain ⟨hlt2, htbl2, hname⟩ := isFld_eq_some hchecked.second
    have hused : (s.fld p.2).Used := isFld_used (h.primary hlt htbl hprim).1 hchecked.second
    exact h.ready ht2 hused htbl2 (hchecked.auxtype ▸ hprim) (hchecked.fldtype ▸ hchecked.notSC)
      (hchecked.fldtype ▸ hchecked.notSV)
  · -- only if a table is appended to itself
    intro p hp q hq heq
    obtain ⟨hltp, htblp, hprimp, hpairp⟩ := hall p hp
    obtain ⟨hltq, htblq, hprimq, hpairq⟩ := hall q hq
    obtain ⟨-, htbl2, hname⟩ := isFld_eq_some (appTblPair_eq_some hpairq).2.second
    have hsame : q.1 = q.2 := by
      refine h.names.flds q.1 q.2 (h.primary hltq htblq hprimq).1 ?_ hname.symm
      rw [htblq, heq, htblp]
    rw [hsame, heq, hpairp, Option.some.injEq] at hpairq
    exact hpairq.symm

/-! ### The condition -/

lemma mkNameAuxFld_isSome {fld : Name} (h : chkFldName fld = true) :
    (mkNameAuxFld fld .nn).isSome ↔ fld.length + (auxPrefix .nn).length ≤ maxLenName := by
  have hlen : 2 + (mkStrAuxtype .nn).length = (auxPrefix .nn).length := rfl
  unfold mkNameAuxFld
  rw [if_neg (by rw [h]; exact Bool.noConfusion), if_neg (by exact AuxType.noConfusion), hlen]
  split_ifs with hlong
  · exact iff_of_false Bool.noConfusion (not_le.mpr hlong)
  · exact iff_of_true rfl (not_lt.mp hlong)

lemma appCond_iff (h : AppConsistent env s) (hpairs : appTblPairs s t1Id t2Id = some pairs) {slots : Nat} :
    LoopFits env s ((s.tbl t1Id).nR.toNat + (s.tbl t2Id).nR.toNat) pairs slots ↔
      AppCond env s t1Id t2Id pairs slots := by
  have hroom : ∀ p ∈ pairs, RoomForNn env s t1Id t2Id p.1 ↔
      ∃ d, env.roomDir ((s.tbl t1Id).nR.toNat + (s.tbl t2Id).nR.toNat) = some d ∧
        (mkNameAuxFld (s.fld p.1).name .nn).isSome := by
    intro p hp
    obtain ⟨hlt, htbl, hprim, -⟩ := (appTblPairs_spec hpairs).2 p hp
    rw [mkNameAuxFld_isSome (h.primary hlt htbl hprim).2]
    constructor
    · rintro ⟨hname, d, hd, hcan⟩
      exact ⟨d, roomDir_eq_some.mpr ⟨hd, hcan⟩, hname⟩
    · rintro ⟨d, hd, hname⟩
      exact ⟨hname, d, roomDir_eq_some.mp hd⟩
  constructor
  · rintro ⟨hfits, hslots⟩
    exact ⟨fun p hp => (hfits p hp).1, fun p hp hnn => (hroom p hp).mpr ((hfits p hp).2 hnn), hslots⟩
  · rintro ⟨hnn, hfits, hslots⟩
    exact ⟨fun p hp => ⟨hnn p hp, fun hnn2 => (hroom p hp).mp (hfits p hp hnn2)⟩, hslots⟩

/-! ### The command -/

lemma appTbl_eq (env : Env) (ht1 : t1 ≠ []) (ht2 : t2 ≠ []) (htbl1 : isTbl s t1 = some t1Id) (htbl2 : isTbl s t2 = some t2Id)
    (hpairs : appTblPairs s t1Id t2Id = some pairs) :
    appTbl env t1 t2 s =
      match Cmd.forEach (fun p => appFld env t1Id p.1 t2Id p.2) pairs s with
      | (none, s') => (none, s')
      | (some _, s') =>
        (some (), s'.setTbl t1Id { s'.tbl t1Id with nR := (s.tbl t1Id).nR + (s.tbl t2Id).nR }) := by
  unfold appTbl
  rw [Cmd.require_bind, if_pos ht1, Cmd.require_bind, if_pos ht2, Cmd.get_bind, htbl1, Cmd.ofOption_some_bind,
    htbl2, Cmd.ofOption_some_bind, hpairs, Cmd.ofOption_some_bind, Cmd.bind_apply]
  obtain ⟨r, s', hloop⟩ : ∃ r s', Cmd.forEach (fun p => appFld env t1Id p.1 t2Id p.2) pairs s = (r, s') :=
    ⟨_, _, rfl⟩
  rw [hloop]
  cases r with
  | none => rfl
  | some _ => rfl

/-- All columns have been appended, and the number of rows is updated. -/
lemma Appending.tblAppended (h : Appending s s' (s.tbl t1Id).nR.toNat (s.tbl t2Id).nR.toNat pairs)
    (hlt : t1Id < s.tbls.length) :
    TblAppended s (s'.setTbl t1Id { s'.tbl t1Id with nR := (s.tbl t1Id).nR + (s.tbl t2Id).nR }) t1Id t2Id pairs := by
  constructor
  · rw [Store.tbl_setTbl, if_pos ⟨rfl, by rw [h.tbls]; exact hlt⟩]
  · intro p hp
    obtain ⟨hcells, hflags, hsize, hnnsize⟩ := h.appended p hp
    exact ⟨hcells, hflags, hsize, hnnsize⟩

/-- A null column of the first table is enough to make `app_tbl` fail, after it has written. -/
theorem appTbl_allOrNothing_iff (h : AppConsistent env s) (ht1 : t1 ≠ []) (ht2 : t2 ≠ [])
    (htbl1 : isTbl s t1 = some t1Id) (htbl2 : isTbl s t2 = some t2Id)
    (hpairs : appTblPairs s t1Id t2Id = some pairs) :
    AllOrNothing env s t1 t2 t1Id t2Id pairs ↔ AppCond env s t1Id t2Id pairs s.freeSlots := by
  obtain ⟨hlt1, hname1⟩ := isTbl_eq_some htbl1
  obtain ⟨-, hname2⟩ := isTbl_eq_some htbl2
  have hsetup := h.setup (show (s.tbl t1Id).name ≠ [] from hname1 ▸ ht1)
    (show (s.tbl t2Id).name ≠ [] from hname2 ▸ ht2) hpairs
  have hrun := appTbl_eq env ht1 ht2 htbl1 htbl2 hpairs
  rw [← appCond_iff h hpairs]
  unfold AllOrNothing
  obtain ⟨hfits, s', hloop, happ⟩ | ⟨hno, s', hloop, q, hq, hfile⟩ := appLoop (appending_nil s _ _) hsetup
  · rw [hloop] at hrun
    rw [hrun]
    exact iff_of_true (.inl ⟨rfl, happ.tblAppended hlt1⟩) hfits
  · rw [hloop] at hrun
    rw [hrun]
    refine iff_of_false ?_ hno
    rintro (⟨hok, -⟩ | ⟨-, -, hsame⟩)
    · cases hok
    · exact hfile (hsame q.1 ((appTblPairs_spec hpairs).2 q hq).2.1)

/-! ### Two tables -/

/-- A directory that can be entered and has room. -/
def openEnv : Env := ⟨fun _ => 0, [true], fun _ => some 0⟩

/-- A column of two integers. -/
def intFld (tblId : Nat) (fileno nnFldId : Int) : FldRec :=
  { zeroFldRec with
    tblId := tblId
    ddirId := 0
    nnFldId := nnFldId
    filesz := 8
    fldtype := .I4
    name := ['f']
    fileno := fileno }

/-- Tables `t` and `u` with a column each. The one of the table in slot `p` has a null column. -/
def nnOf (p : Nat) : Store where
  tbls := [⟨2, false, ['t'], .regular⟩, ⟨2, false, ['u'], .regular⟩]
  flds := [intFld 0 1 (if p = 0 then 2 else -1), intFld 1 2 (if p = 1 then 2 else -1),
    newNn p p 0 3 (auxPrefix .nn ++ ['f']) 2, zeroFldRec]
  info := []
  nextFileno := 4
  disk := fun d n =>
    if d = 0 ∧ n = 1 then some ⟨4, [1, 2]⟩
    else if d = 0 ∧ n = 2 then some ⟨4, [3, 4]⟩
    else if d = 0 ∧ n = 3 then some ⟨1, [1, 0]⟩
    else none

lemma Store.tbl_of_le (h : s.tbls.length ≤ i) : s.tbl i = zeroTblRec := by
  simp [Store.tbl, h]

lemma nnOf_consistent {p : Nat} (hp : p = 0 ∨ p = 1) : AppConsistent openEnv (nnOf p) := by
  have hfld : ∀ {i}, ((nnOf p).fld i).Used → i < 4 := fun hu => Store.used_lt hu
  have htbl : ∀ {i}, ((nnOf p).tbl i).Used → i < 2 := by
    intro i hu
    by_contra hle
    exact hu (by rw [Store.tbl_of_le (not_lt.mp hle)]; rfl)
  have hchecks : chkFlds openEnv (nnOf p) = true ∧ ∀ t < 2, chkTblMeta (nnOf p) t = true := by
    rcases hp with rfl | rfl <;> decide
  have hnames : (∀ i < 2, ∀ j < 2, ((nnOf p).tbl i).name = ((nnOf p).tbl j).name → i = j) ∧
      ∀ i < 4, ∀ j < 4, ((nnOf p).fld i).tblId = ((nnOf p).fld j).tblId →
        ((nnOf p).fld i).name = ((nnOf p).fld j).name → i = j := by
    rcases hp with rfl | rfl <;> decide
  have hnn : ∀ i < 4, 0 ≤ ((nnOf p).fld i).nnFldId → ((nnOf p).fld ((nnOf p).fld i).nnFldId.toNat).Used ∧
      ((nnOf p).fld ((nnOf p).fld i).nnFldId.toNat).auxtype = .nn ∧
      ((nnOf p).fld ((nnOf p).fld i).nnFldId.toNat).fldtype = .I1 ∧
      ((nnOf p).fld ((nnOf p).fld i).nnFldId.toNat).tblId = ((nnOf p).fld i).tblId := by
    rcases hp with rfl | rfl <;> decide
  have hfiles : (∀ i < 4, ∀ j < 4, ((nnOf p).fld i).fileno = ((nnOf p).fld j).fileno → i = j) ∧
      ∀ i < 4, ((nnOf p).fld i).fileno < (nnOf p).nextFileno := by
    rcases hp with rfl | rfl <;> decide
  have hwidth : ∀ i < 4, ((nnOf p).fld i).Used → ∀ f ∈ (nnOf p).file i,
      getFldSz ((nnOf p).fld i).fldtype = some (f.width : Int) := by
    rcases hp with rfl | rfl <;> decide
  refine ⟨hchecks.1, fun t ht => hchecks.2 t (htbl ht), ⟨fun i j hi hij => ?_, fun i j hi htblId hij => ?_⟩,
    fun i hi => hnn i (hfld hi), fun i j hi hj _ => hfiles.1 i (hfld hi) j (hfld hj),
    fun i hi => hfiles.2 i (hfld hi), fun i w f hi hw hf => ?_⟩
  · have hj : ((nnOf p).tbl j).Used := fun hnil => hi (hij.trans hnil)
    exact hnames.1 i (htbl hi) j (htbl hj) hij
  · have hj : ((nnOf p).fld j).Used := fun hnil => hi (hij.trans hnil)
    exact hnames.2 i (hfld hi) j (hfld hj) htblId hij
  · rw [hwidth i (hfld hi) hi f hf, Option.some.injEq] at hw
    exact Int.ofNat.inj hw

/-- Only the second table has a null column. -/
theorem appTbl_allOrNothing_second : AllOrNothing openEnv (nnOf 1) ['t'] ['u'] 0 1 [(0, 1)] :=
  (appTbl_allOrNothing_iff (nnOf_consistent (.inr rfl)) (by decide) (by decide) rfl rfl rfl).mpr
    ⟨by decide, fun p hp _ => List.mem_singleton.mp hp ▸ ⟨by decide, 0, rfl, rfl⟩, by decide⟩

/-- Only the first table has a null column. -/
theorem not_appTbl_allOrNothing :
    ¬ ∀ (env : Env) (s : Store) (t1 t2 : Name) (t1Id t2Id : Nat) (pairs : List (Nat × Nat)), AppConsistent env s →
      t1 ≠ [] → t2 ≠ [] → isTbl s t1 = some t1Id → isTbl s t2 = some t2Id →
      appTblPairs s t1Id t2Id = some pairs → AllOrNothing env s t1 t2 t1Id t2Id pairs := by
  intro hall
  have hrun := hall openEnv (nnOf 0) ['t'] ['u'] 0 1 [(0, 1)] (nnOf_consistent (.inl rfl)) (by decide) (by decide)
    rfl rfl rfl
  have hfails : (appTbl openEnv ['t'] ['u'] (nnOf 0)).1 = none := by decide
  have hwritten : (appTbl openEnv ['t'] ['u'] (nnOf 0)).2.file 0 = some ⟨4, [1, 2, 3, 4]⟩ := by decide
  obtain ⟨hok, -⟩ | ⟨-, -, hsame⟩ := hrun
  · rw [hfails] at hok
    cases hok
  · have hfile := hsame 0 rfl
    rw [hwritten] at hfile
    exact absurd hfile (by decide)

end

end Datacl
