import Datacl.Vec.MultScalar
import Mathlib.NumberTheory.Bertrand

/-!
# What the hash table of several scalars holds
-/

namespace Datacl

/-! ### The size of the table -/

lemma isPrime_of_prime {p : Nat} (hp : p.Prime) : isPrime p = true := by
  have hpos := hp.pos
  rw [isPrime, if_neg (by omega)]
  split_ifs with hsmall
  · rfl
  · rw [List.all_eq_true]
    intro j hj
    rw [List.mem_range] at hj
    refine decide_eq_true fun hj2 hmod => ?_
    rcases (Nat.dvd_prime hp).mp (Nat.dvd_of_mod_eq_zero hmod) with h | h
    · omega
    · omega

/-- The search ends at the first number behind `n` that `is_prime` accepts. -/
lemma primeGeq_spec {n : Nat} (h1 : 1 ≤ n) :
    ∃ r, primeGeq n = some r ∧ n < r ∧ r ≤ 2 * n ∧ isPrime r = true ∧
      ∀ m, n < m → m < r → isPrime m = false := by
  obtain ⟨p, hp, hlt, hple⟩ := Nat.exists_prime_lt_and_le_two_mul n (by omega)
  have hsome : (primeGeq n).isSome := by
    rw [primeGeq, List.find?_isSome]
    exact ⟨p, List.mem_map.mpr ⟨p - (n + 1), List.mem_range.mpr (by omega), by omega⟩, isPrime_of_prime hp⟩
  obtain ⟨r, hr⟩ := Option.isSome_iff_exists.mp hsome
  have hfind := hr
  rw [primeGeq, List.find?_map, Option.map_eq_some_iff] at hfind
  obtain ⟨k, hk, rfl⟩ := hfind
  obtain ⟨hprime, -, hbefore⟩ := List.find?_range_eq_some.mp hk
  have hfirst : ∀ m, n < m → m < n + 1 + k → isPrime m = false := by
    intro m hnm hmk
    have hm := hbefore (m - (n + 1)) (by omega)
    rwa [Function.comp_apply, Nat.add_sub_cancel' (by omega), Bool.not_eq_true'] at hm
  refine ⟨n + 1 + k, hr, by omega, ?_, hprime, hfirst⟩
  by_contra hgt
  have hfalse := hfirst p hlt (by omega)
  rw [isPrime_of_prime hp] at hfalse
  cases hfalse

/-- There is a table for every number of scalars, and positions in it fit in a `short`. -/
lemma primeGeq_sq {m : Nat} (h1 : 1 ≤ m) (h2 : m ≤ maxNumScalars) :
    ∃ n, primeGeq (m * m) = some n ∧ 1 < n ∧ n < 65536 := by
  have hpos : 0 < m * m := Nat.mul_pos h1 h1
  have hle : m * m ≤ 128 * 128 := Nat.mul_le_mul h2 h2
  obtain ⟨n, hn, hlt, hn2, -⟩ := primeGeq_spec hpos
  exact ⟨n, hn, by omega, by omega⟩

/-! ### Filling the table -/

section Fill

variable {n : Nat} {a b : BitVec 32}

lemma buildLoc_lt (hn : 0 < n) (v : Int) : buildLoc n a b v < n :=
  (Nat.mod_le _ _).trans_lt (Nat.mod_lt _ hn)

/-- `used` and `hashes` after the given scalars. -/
structure TableHolds (n : Nat) (a b : BitVec 32) (done : List Int) (table : List Bool × List Int) :
    Prop where
  length_used : table.1.length = n
  length_hashes : table.2.length = n
  used : ∀ i < n, table.1.getD i true = decide (i ∈ done.map (buildLoc n a b))
  hashes : ∀ i, table.2.getD i 0 = (done.find? fun s => buildLoc n a b s = i).getD 0
  count : table.1.count true = done.length

lemma TableHolds.start : TableHolds n a b [] (List.replicate n false, List.replicate n 0) := by
  refine ⟨List.length_replicate, List.length_replicate, fun i hi => ?_, fun i => ?_, ?_⟩
  · simp [List.getD_eq_getElem?_getD, hi]
  · by_cases hi : i < n <;> simp [List.getD_eq_getElem?_getD, hi]
  · simp [List.count_replicate]

lemma TableHolds.place {done : List Int} {table : List Bool × List Int} (h : TableHolds n a b done table)
    (hn : 0 < n) {s : Int} (hs : buildLoc n a b s ∉ done.map (buildLoc n a b)) :
    ∃ table', placeScalar n a b table s = some table' ∧ TableHolds n a b (done ++ [s]) table' := by
  have hlt := buildLoc_lt (a := a) (b := b) hn s
  have hfree : table.1.getD (buildLoc n a b s) true = false := by
    rw [h.used _ hlt]
    exact decide_eq_false hs
  refine ⟨_, if_neg (by rw [hfree]; exact Bool.false_ne_true), ?_, ?_, ?_, ?_, ?_⟩
  · rw [List.length_set, h.length_used]
  · rw [List.length_set, h.length_hashes]
  · intro i hi
    dsimp only
    rw [List.getD_eq_getElem?_getD, List.getElem?_set, h.length_used]
    split_ifs with heq
    · simp [heq]
    · have hi' := h.used i hi
      rw [List.getD_eq_getElem?_getD] at hi'
      rw [hi']
      simp [Ne.symm heq]
  · intro i
    dsimp only
    rw [List.getD_eq_getElem?_getD, List.getElem?_set, h.length_hashes, List.find?_append]
    by_cases heq : buildLoc n a b s = i
    · have hnone : done.find? (fun s => buildLoc n a b s = i) = none := by
        rw [List.find?_eq_none]
        intro s' hs' hloc
        exact hs (List.mem_map.mpr ⟨s', hs', (of_decide_eq_true hloc).trans heq.symm⟩)
      rw [if_pos heq, if_pos (heq ▸ hlt), hnone]
      simp [heq]
    · have hi := h.hashes i
      rw [List.getD_eq_getElem?_getD] at hi
      rw [if_neg heq, hi]
      simp [heq]
  · have hlen : buildLoc n a b s < table.1.length := h.length_used.symm ▸ hlt
    have hget : table.1[buildLoc n a b s] = false := by
      rwa [List.getD_eq_getElem?_getD, List.getElem?_eq_getElem hlen, Option.getD_some] at hfree
    dsimp only
    rw [List.count_set hlen, hget, h.count, List.length_append]
    simp

lemma TableHolds.place_none {done : List Int} {table : List Bool × List Int}
    (h : TableHolds n a b done table) (hn : 0 < n) {s : Int}
    (hs : buildLoc n a b s ∈ done.map (buildLoc n a b)) : placeScalar n a b table s = none := by
  refine if_pos ?_
  rw [h.used _ (buildLoc_lt hn s)]
  exact decide_eq_true hs

/-- A slot that is not used holds 0. -/
lemma TableHolds.not_any_unused {done : List Int} {table : List Bool × List Int}
    (h : TableHolds n a b done table) :
    ¬ ((table.1.zip table.2).any fun p => !p.1 && p.2 != 0) = true := by
  rw [List.any_eq_true]
  rintro ⟨⟨u, v⟩, hmem, hp⟩
  obtain ⟨i, hi⟩ := List.mem_iff_getElem?.mp hmem
  obtain ⟨hu, hv⟩ := List.getElem?_zip_eq_some.mp hi
  obtain ⟨hin, -⟩ := List.getElem?_eq_some_iff.mp hu
  obtain ⟨rfl, hv0⟩ : u = false ∧ v ≠ 0 := by simpa using hp
  have hused := h.used i (h.length_used ▸ hin)
  have hhash := h.hashes i
  rw [List.getD_eq_getElem?_getD, hu, Option.getD_some] at hused
  rw [List.getD_eq_getElem?_getD, hv, Option.getD_some] at hhash
  have hnone : done.find? (fun s => buildLoc n a b s = i) = none := by
    rw [List.find?_eq_none]
    intro s hs hloc
    exact of_decide_eq_false hused.symm (List.mem_map.mpr ⟨s, hs, of_decide_eq_true hloc⟩)
  rw [hnone] at hhash
  exact hv0 hhash

/-- No two scalars meet. -/
def NoCollision (n : Nat) (scalars : List Int) (draw : BitVec 32 × BitVec 32) : Prop :=
  (scalars.map (buildLoc n draw.1 draw.2)).Nodup

instance (n : Nat) (scalars : List Int) (draw : BitVec 32 × BitVec 32) :
    Decidable (NoCollision n scalars draw) := inferInstanceAs (Decidable (List.Nodup _))

lemma TableHolds.fill {done : List Int} {table : List Bool × List Int} (h : TableHolds n a b done table)
    (hn : 0 < n) {scalars : List Int} (hnc : NoCollision n (done ++ scalars) (a, b)) :
    ∃ table', scalars.foldlM (placeScalar n a b) table = some table' ∧
      TableHolds n a b (done ++ scalars) table' := by
  induction scalars generalizing done table with
  | nil => exact ⟨table, rfl, by rwa [List.append_nil]⟩
  | cons s scalars ih =>
    have hs : buildLoc n a b s ∉ done.map (buildLoc n a b) := by
      rw [NoCollision, List.map_append, List.map_cons, List.nodup_append] at hnc
      exact fun hmem => hnc.2.2 _ hmem _ (List.mem_cons_self ..) rfl
    obtain ⟨table₁, hplace, h₁⟩ := h.place hn hs
    rw [← List.singleton_append, ← List.append_assoc] at hnc
    obtain ⟨table₂, hfill, h₂⟩ := ih h₁ hnc
    refine ⟨table₂, ?_, by rwa [List.append_assoc] at h₂⟩
    rw [List.foldlM_cons, hplace]
    exact hfill

lemma TableHolds.fill_none {done : List Int} {table : List Bool × List Int}
    (h : TableHolds n a b done table) (hn : 0 < n) (hdone : NoCollision n done (a, b))
    {scalars : List Int} (hc : ¬ NoCollision n (done ++ scalars) (a, b)) :
    scalars.foldlM (placeScalar n a b) table = none := by
  induction scalars generalizing done table with
  | nil => exact absurd (by rwa [List.append_nil]) hc
  | cons s scalars ih =>
    rw [List.foldlM_cons]
    by_cases hs : buildLoc n a b s ∈ done.map (buildLoc n a b)
    · rw [h.place_none hn hs]
      rfl
    · obtain ⟨table₁, hplace, h₁⟩ := h.place hn hs
      rw [hplace]
      rw [← List.singleton_append, ← List.append_assoc] at hc
      refine ih h₁ ?_ hc
      rw [NoCollision, List.map_append, List.nodup_append]
      refine ⟨hdone, List.nodup_singleton _, fun x hx y hy => ?_⟩
      rintro rfl
      exact hs ((List.mem_singleton.mp hy) ▸ hx)

lemma tryHashes_noCollision {scalars : List Int} {draw : BitVec 32 × BitVec 32} (hn : 0 < n)
    (h : NoCollision n scalars draw) :
    ∃ table, tryHashes n scalars draw = some (draw, table) ∧
      TableHolds n draw.1 draw.2 scalars table := by
  obtain ⟨table, hfill, hplaced⟩ := TableHolds.start.fill hn
    (show NoCollision n ([] ++ scalars) (draw.1, draw.2) from h)
  refine ⟨table, ?_, hplaced⟩
  rw [tryHashes, hfill]
  rfl

lemma tryHashes_collision {scalars : List Int} {draw : BitVec 32 × BitVec 32} (hn : 0 < n)
    (h : ¬ NoCollision n scalars draw) : tryHashes n scalars draw = none := by
  rw [tryHashes, TableHolds.start.fill_none hn List.nodup_nil h]
  rfl

end Fill

/-! ### The table that is used -/

lemma findSome?_eq_find?_bind {α β : Type} {f : α → Option β} {p : α → Bool}
    (h : ∀ x, p x = false → f x = none) (h' : ∀ x, p x = true → (f x).isSome) (l : List α) :
    l.findSome? f = (l.find? p).bind f := by
  induction l with
  | nil => rfl
  | cons x l ih =>
    cases hx : p x with
    | true =>
      obtain ⟨y, hy⟩ := Option.isSome_iff_exists.mp (h' x hx)
      rw [List.findSome?_cons, hy, List.find?_cons_of_pos hx, Option.bind_some, hy]
    | false => rw [List.findSome?_cons, h x hx, List.find?_cons_of_neg (by simp [hx]), ih]

/-- The first choice of `a` and `b` without a collision. -/
def chosenDraw (n : Nat) (scalars : List Int) (draws : List (BitVec 32 × BitVec 32)) :
    Option (BitVec 32 × BitVec 32) :=
  draws.find? fun draw => decide (NoCollision n scalars draw)

lemma findSome?_tryHashes {n : Nat} (hn : 0 < n) (scalars : List Int)
    (draws : List (BitVec 32 × BitVec 32)) :
    draws.findSome? (tryHashes n scalars) =
      (chosenDraw n scalars draws).bind (tryHashes n scalars) := by
  refine findSome?_eq_find?_bind (fun draw h => ?_) (fun draw h => ?_) draws
  · exact tryHashes_collision hn (of_decide_eq_false h)
  · obtain ⟨table, htry, -⟩ := tryHashes_noCollision hn (of_decide_eq_true h)
    rw [htry]
    rfl

section Table

variable {n : Nat} {scalars : List Int} {draws : List (BitVec 32 × BitVec 32)}

lemma mkHashes_none (hn : primeGeq (scalars.length * scalars.length) = some n) (hn1 : 1 < n)
    (h : chosenDraw n scalars draws = none) : mkHashes scalars draws = none := by
  rw [mkHashes]
  split_ifs
  · rfl
  · rw [hn, Option.bind_eq_bind, Option.bind_some, if_neg (by omega),
      findSome?_tryHashes (by omega), h]
    rfl

/-- The table holds each scalar in its place and 0 elsewhere. -/
lemma mkHashes_some {draw : BitVec 32 × BitVec 32} (h1 : 1 ≤ scalars.length)
    (h2 : scalars.length ≤ maxNumScalars)
    (hn : primeGeq (scalars.length * scalars.length) = some n) (hn1 : 1 < n)
    (h : chosenDraw n scalars draws = some draw) :
    ∃ hashes, mkHashes scalars draws = some ⟨n, draw.1, draw.2, hashes⟩ ∧
      ∀ i, hashes.getD i 0 = (scalars.find? fun s => buildLoc n draw.1 draw.2 s = i).getD 0 := by
  have hdraw : NoCollision n scalars draw := by simpa using List.find?_some h
  obtain ⟨⟨used, hashes⟩, htry, htable⟩ := tryHashes_noCollision (by omega : 0 < n) hdraw
  -- the checks at the end of `mk_hashes` never fail
  have hcheck : ¬ ((used.zip hashes).any fun p => !p.1 && p.2 != 0) = true :=
    htable.not_any_unused
  refine ⟨hashes, ?_, htable.hashes⟩
  rw [mkHashes, if_neg (by omega), hn, Option.bind_eq_bind, Option.bind_some, if_neg (by omega),
    findSome?_tryHashes (by omega), h, Option.bind_some, htry]
  simp only [Option.bind_eq_bind, Option.bind_some]
  rw [if_neg hcheck, if_neg (not_not.mpr htable.count)]

end Table

end Datacl
