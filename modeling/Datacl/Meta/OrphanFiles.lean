import Datacl.Lib.CInt
import Datacl.Meta.FileOwnersRun
import Datacl.Text.Values

/-!
# Orphan files

`orphan_files` compares the files of a data directory with those that fields refer to.
-/

namespace Datacl

/-- `mk_file_name` -/
def mkFileName (fileno : Nat) : List Char := '_' :: Nat.toDigits 10 fileno

/-- The entries that are passed over. -/
def skipEntry (filename : List Char) : Bool :=
  "docroot".toList.isPrefixOf filename || filename == ['.', '.'] || filename == ['.']

/-- `is_bad`, before the fields are looked at. -/
def badEntry (filename : List Char) : Bool :=
  12 ≤ filename.length || filename.head? != some '_' || (filename.drop 1).any fun c => !c.isDigit

/-- The number after the first character, an `int`. An empty string is the number 0. -/
def entryFileno (filename : List Char) : Option Int :=
  if filename.drop 1 = [] then some 0 else (stoI8 (filename.drop 1)).map (CInt.wrap 32)

/-- An entry of the directory: the files printed so far and `is_seen`. -/
def orphanEntry (filesInMeta : List Int) (s : List (List Char) × List Bool) (filename : List Char) :
    Option (List (List Char) × List Bool) :=
  if skipEntry filename then some s
  else do
    let fileno ← entryFileno filename
    match filesInMeta.findIdx? fun n => n = fileno with
    | some i => pure (if badEntry filename then s.1 ++ [filename] else s.1, s.2.set i true)
    | none => pure (s.1 ++ [filename], s.2)

/-- `files_in_meta` -/
def filesInMeta (s : Store) (ddirId : Int) : List Int :=
  (s.flds.filter fun r => r.name ≠ [] ∧ r.ddirId = ddirId).map FldRec.fileno

/-- `orphan_files` on a directory: the files printed, and the numbers that are catastrophic. -/
def orphanFiles (s : Store) (ddirId : Int) (listing : List (List Char)) :
    Option (List (List Char) × List Int) := do
  let filenos := filesInMeta s ddirId
  let (printed, isSeen) ← listing.foldlM (orphanEntry filenos) ([], filenos.map fun _ => false)
  pure (printed, filenos.flatMap fun fileno =>
    (filenos.zip isSeen).filterMap fun p => if p.1 = fileno ∧ p.2 = false then some fileno else none)

/-- The directory has these entries: its files, which have names that `mk_file_name` gives. -/
structure Entries (s : Store) (ddirId : Int) (listing : List (List Char)) : Prop where
  names : ∀ x ∈ listing, skipEntry x = false → ∃ n : Nat, n < 2 ^ 31 ∧ x = mkFileName n
  files : ∀ n, (s.disk ddirId n).isSome → ∃ k : Nat, k < 2 ^ 31 ∧ n = k ∧ mkFileName k ∈ listing

/-- No field refers to the file of this name. -/
def IsOrphan (s : Store) (ddirId : Int) (filename : List Char) : Prop :=
  skipEntry filename = false ∧ ∀ r ∈ s.flds, r.name ≠ [] → r.ddirId = ddirId →
    filename ≠ mkFileName r.fileno.toNat

instance (s : Store) (ddirId : Int) (filename : List Char) : Decidable (IsOrphan s ddirId filename) :=
  inferInstanceAs (Decidable (_ ∧ _))

/-! ### Names of files -/

section

variable {n : Nat}

lemma mkFileName_skip (n : Nat) : skipEntry (mkFileName n) = false := by
  simp [skipEntry, mkFileName, List.isPrefixOf]

lemma mkFileName_bad (h : n < 2 ^ 31) : badEntry (mkFileName n) = false := by
  have hlen := Nat.toDigits_length 10 n 10 (by decide) (by omega)
  have hdigits : ∀ c ∈ Nat.toDigits 10 n, c.isDigit = true := fun c hc =>
    Nat.isDigit_of_mem_toDigits (by decide) (by decide) hc
  have hlong : ¬ 12 ≤ (mkFileName n).length := by
    rw [mkFileName, List.length_cons]
    omega
  rw [badEntry, decide_eq_false hlong]
  show (false || (some '_' != some '_') || (Nat.toDigits 10 n).any fun c => !c.isDigit) = false
  simp only [bne_self_eq_false, Bool.false_or, List.any_eq_false]
  intro c hc
  rw [hdigits c hc]
  decide

lemma mkFileName_fileno (h : n < 2 ^ 31) : entryFileno (mkFileName n) = some (n : Int) := by
  have hne : (mkFileName n).drop 1 ≠ [] := Nat.toDigits_ne_nil
  rw [entryFileno, if_neg hne]
  show (stoI8 (Nat.toDigits 10 n)).map (CInt.wrap 32) = _
  rw [stoI8_toDigits (by omega), Option.map_some, CInt.wrap_of_lt (by omega) (by exact_mod_cast h)]

lemma mkFileName_injective {n m : Nat} (hn : n < 2 ^ 31) (hm : m < 2 ^ 31)
    (h : mkFileName n = mkFileName m) : n = m := by
  have heq := mkFileName_fileno hn
  rw [h, mkFileName_fileno hm] at heq
  exact_mod_cast (Option.some.inj heq).symm

end

/-! ### The entries one after another -/

section

variable {filenos : List Int} {listing : List (List Char)}

/-- A file that no field refers to is printed, and any other one seen. -/
lemma orphanEntry_mkFileName {n : Nat} (hn : n < 2 ^ 31) (printed : List (List Char))
    (isSeen : List Bool) : orphanEntry filenos (printed, isSeen) (mkFileName n) =
      match filenos.findIdx? fun m => m = (n : Int) with
      | some i => some (printed, isSeen.set i true)
      | none => some (printed ++ [mkFileName n], isSeen) := by
  simp only [orphanEntry, mkFileName_skip, mkFileName_fileno hn, mkFileName_bad hn,
    Bool.false_eq_true, if_false, Option.bind_eq_bind, Option.bind_some]
  cases filenos.findIdx? fun m => m = (n : Int) <;> rfl

/-- What the loop prints and has seen. -/
lemma foldlM_orphanEntry
    (hnames : ∀ x ∈ listing, skipEntry x = false → ∃ n : Nat, n < 2 ^ 31 ∧ x = mkFileName n)
    (printed : List (List Char)) (isSeen : List Bool) :
    ∃ isSeen', listing.foldlM (orphanEntry filenos) (printed, isSeen) =
        some (printed ++ listing.filter (fun x => skipEntry x = false ∧
          ∀ m ∈ filenos, entryFileno x ≠ some m), isSeen') ∧ isSeen'.length = isSeen.length ∧
      (∀ i : Nat, isSeen.getD i true = true → isSeen'.getD i true = true) ∧
      ∀ n : Nat, n < 2 ^ 31 → mkFileName n ∈ listing → ∀ i,
        filenos.findIdx? (fun m => m = (n : Int)) = some i → isSeen'.getD i true = true := by
  induction listing generalizing printed isSeen with
  | nil => exact ⟨isSeen, by simp [pure], rfl, fun _ h => h, fun n _ hn => by cases hn⟩
  | cons x listing ih =>
    rw [List.forall_mem_cons] at hnames
    rw [List.foldlM_cons]
    by_cases hskip : skipEntry x = true
    · have hstep : orphanEntry filenos (printed, isSeen) x = some (printed, isSeen) := by
        rw [orphanEntry, if_pos hskip]
      obtain ⟨isSeen', hrun, hlen, hkept, hseen⟩ := ih hnames.2 printed isSeen
      refine ⟨isSeen', ?_, hlen, hkept, fun n hn hmem i hi => ?_⟩
      · rw [hstep, Option.bind_eq_bind, Option.bind_some, hrun, List.filter_cons_of_neg (by simp [hskip])]
      · rcases List.mem_cons.mp hmem with rfl | hmem
        · rw [mkFileName_skip] at hskip
          cases hskip
        · exact hseen n hn hmem i hi
    · obtain ⟨k, hk, rfl⟩ := hnames.1 (by simpa using hskip)
      rw [orphanEntry_mkFileName hk]
      cases hidx : filenos.findIdx? fun m => m = (k : Int) with
      | some j =>
        obtain ⟨isSeen', hrun, hlen, hkept, hseen⟩ := ih hnames.2 printed (isSeen.set j true)
        refine ⟨isSeen', ?_, ?_, fun i hi => hkept i ?_, fun n hn hmem i hi => ?_⟩
        · have hmem : (k : Int) ∈ filenos := by
            obtain ⟨hlt, hp, -⟩ := List.findIdx?_eq_some_iff_getElem.mp hidx
            rw [← of_decide_eq_true hp]
            exact List.getElem_mem hlt
          rw [Option.bind_eq_bind, Option.bind_some, hrun, List.filter_cons_of_neg]
          simp only [mkFileName_fileno hk, decide_eq_true_eq, not_and, not_forall]
          exact fun _ => ⟨k, hmem, by simp⟩
        · rw [hlen, List.length_set]
        · rw [List.getD_eq_getElem?_getD, List.getElem?_set]
          split_ifs
          · rfl
          · rfl
          · rwa [List.getD_eq_getElem?_getD] at hi
        · rcases List.mem_cons.mp hmem with heq | hmem
          · obtain rfl := mkFileName_injective hn hk heq
            obtain rfl : j = i := Option.some.inj (hidx.symm.trans hi)
            refine hkept j ?_
            rw [List.getD_eq_getElem?_getD, List.getElem?_set]
            split_ifs
            · rfl
            · rfl
            · contradiction
          · exact hseen n hn hmem i hi
      | none =>
        obtain ⟨isSeen', hrun, hlen, hkept, hseen⟩ := ih hnames.2 (printed ++ [mkFileName k]) isSeen
        refine ⟨isSeen', ?_, hlen, hkept, fun n hn hmem i hi => ?_⟩
        · rw [Option.bind_eq_bind, Option.bind_some, hrun, List.filter_cons_of_pos, List.append_assoc,
            List.singleton_append]
          rw [List.findIdx?_eq_none_iff] at hidx
          simp only [mkFileName_skip, mkFileName_fileno hk, decide_eq_true_eq, true_and]
          intro m hm heq
          obtain rfl := Option.some.inj heq
          simpa using hidx k hm
        · rcases List.mem_cons.mp hmem with heq | hmem
          · obtain rfl := mkFileName_injective hn hk heq
            rw [hidx] at hi
            cases hi
          · exact hseen n hn hmem i hi

end

/-! ### Files and fields -/

section

variable {env : Env} {stoF8 : List Char → Option Int} {s : Store} {d : Int}

lemma mem_filesInMeta {n : Int} :
    n ∈ filesInMeta s d ↔ ∃ r ∈ s.flds, r.name ≠ [] ∧ r.ddirId = d ∧ r.fileno = n := by
  simp [filesInMeta, and_assoc]

lemma Store.exists_fld {r : FldRec} (hr : r ∈ s.flds) : ∃ i, s.fld i = r := by
  obtain ⟨i, hi, rfl⟩ := List.mem_iff_getElem.mp hr
  exact ⟨i, List.getD_eq_getElem _ _ hi⟩

/-- Fields of a directory refer to different files. -/
lemma FilesOwned.nodup_filesInMeta (h : FilesOwned s) (hd : 0 ≤ d) : (filesInMeta s d).Nodup := by
  have hpair : s.flds.Pairwise fun r r' => r.ddirId = d → r'.ddirId = d → r.fileno ≠ r'.fileno := by
    rw [List.pairwise_iff_getElem]
    intro i j hi hj hlt hdi hdj hno
    have hfi : s.fld i = s.flds[i] := List.getD_eq_getElem _ _ hi
    have hfj : s.fld j = s.flds[j] := List.getD_eq_getElem _ _ hj
    have hij := h.owner i j (by rw [hfi, hdi]; exact hd) (by rw [hfi, hfj, hdi, hdj])
      (by rw [hfi, hfj, hno])
    omega
  unfold filesInMeta
  rw [List.Nodup, List.pairwise_map, List.pairwise_filter]
  refine hpair.imp fun hne hr hr' => ?_
  exact hne (of_decide_eq_true hr).2 (of_decide_eq_true hr').2

/-- The file of a field is an entry of its directory. -/
lemma FilesOwned.entry (h : FilesOwned s) (hd : 0 ≤ d) {listing : List (List Char)}
    (hlist : Entries s d listing) {n : Int} (hn : n ∈ filesInMeta s d) :
    ∃ k : Nat, k < 2 ^ 31 ∧ n = k ∧ mkFileName k ∈ listing := by
  obtain ⟨r, hr, -, rfl, rfl⟩ := mem_filesInMeta.mp hn
  obtain ⟨i, rfl⟩ := Store.exists_fld hr
  obtain ⟨f, hf, -⟩ := h.file i hd
  exact hlist.files _ (Option.isSome_iff_exists.mpr ⟨f, hf⟩)

end

/-- The directory after a field has been copied and deleted. -/
def copiedListing : List (List Char) := [['.'], ['.', '.'], mkFileName 2]

end Datacl
