import Mathlib.Data.List.GetD
import Mathlib.Tactic

/-!
# Programs on columns that treat every row by itself

A statement computes a column from other columns, row by row, or accumulates a value from columns.
A program is run over blocks of rows: every statement for the first block, then every statement for
the next one, where a rolling column holds the present block only. What it computes in a row is
what the statements give for that row alone, so that the blocks do not matter.
-/

namespace RowProgram

variable {α β : Type}

/-- A statement: the columns read, the column written, and the value of a row. -/
inductive Stmt (α β : Type) where
  | assign (srcs : List Nat) (dst : Nat) (row : List α → Option α)
  | observe (slot : Nat) (srcs : List Nat) (upd : β → List (List α) → β)

/-! ### One row -/

/-- The program on one row. -/
def evalRow : List (Stmt α β) → (Nat → α) → Option (Nat → α)
  | [], env => some env
  | .assign srcs dst row :: p, env =>
    (row (srcs.map env)).bind fun a => evalRow p (Function.update env dst a)
  | .observe _ _ _ :: p, env => evalRow p env

/-- Every statement reads columns there are and writes a new one. -/
def WF : List Nat → List (Stmt α β) → Prop
  | _, [] => True
  | avail, .assign srcs dst _ :: p => srcs ⊆ avail ∧ dst ∉ avail ∧ WF (dst :: avail) p
  | avail, .observe _ srcs _ :: p => srcs ⊆ avail ∧ WF avail p

/-- The columns written. -/
def dsts : List (Stmt α β) → List Nat
  | [] => []
  | .assign _ dst _ :: p => dst :: dsts p
  | .observe _ _ _ :: p => dsts p

/-- The values accumulated. -/
def slots : List (Stmt α β) → List Nat
  | [] => []
  | .assign _ _ _ :: p => slots p
  | .observe slot _ _ :: p => slot :: slots p

lemma evalRow_append (p q : List (Stmt α β)) (env : Nat → α) :
    evalRow (p ++ q) env = (evalRow p env).bind (evalRow q) := by
  induction p generalizing env with
  | nil => rfl
  | cons st p ih =>
    cases st with
    | assign srcs dst row =>
      simp only [List.cons_append, evalRow]
      cases row (srcs.map env) with
      | none => rfl
      | some a => exact ih _
    | observe slot srcs upd => exact ih env

/-- A program changes the columns it writes. -/
lemma evalRow_of_not_mem {p : List (Stmt α β)} {env e : Nat → α} (h : evalRow p env = some e) {k : Nat}
    (hk : k ∉ dsts p) : e k = env k := by
  induction p generalizing env with
  | nil => rw [← Option.some.inj h]
  | cons st p ih =>
    cases st with
    | assign srcs dst row =>
      obtain ⟨a, -, h⟩ := Option.bind_eq_some_iff.mp h
      obtain ⟨hne, hk⟩ := not_or.mp (mt List.mem_cons.mpr hk)
      rw [ih h hk, Function.update_of_ne hne]
    | observe slot srcs upd => exact ih h hk

lemma WF.not_mem_dsts {avail : List Nat} {p : List (Stmt α β)} (h : WF avail p) {k : Nat}
    (hk : k ∈ avail) : k ∉ dsts p := by
  induction p generalizing avail with
  | nil => exact List.not_mem_nil
  | cons st p ih =>
    cases st with
    | assign srcs dst row =>
      intro hmem
      rcases List.mem_cons.mp hmem with rfl | hmem
      · exact h.2.1 hk
      · exact ih h.2.2 (List.mem_cons_of_mem dst hk) hmem
    | observe slot srcs upd => exact ih h.2 hk

/-! ### Blocks -/

/-- Where row 0 of a block that begins at `lb` is in a column. -/
def off (rolling : Nat → Bool) (lb k : Nat) : Nat := if rolling k then 0 else lb

/-- `n` cells from position `lb` on. -/
def slice (xs : List α) (lb n : Nat) : Option (List α) :=
  if lb + n ≤ xs.length then some ((xs.drop lb).take n) else none

/-- Overwrite the cells from position `lb` on. -/
def splice (xs : List α) (lb : Nat) (ys : List α) : Option (List α) :=
  if lb + ys.length ≤ xs.length then some (xs.take lb ++ ys ++ xs.drop (lb + ys.length)) else none

/-- The columns, and the values accumulated. -/
structure State (α β : Type) where
  mem : Nat → List α
  acc : Nat → β

section

variable [Inhabited α]

/-- The rows of a statement. -/
def rowsOf (row : List α → Option α) (cols : List (List α)) (n : Nat) : Option (List α) :=
  (List.range n).mapM fun r => row (cols.map fun c => c.getD r default)

/-- A statement on the `n` rows from row `lb` on. -/
def execStmt (rolling : Nat → Bool) (lb n : Nat) (s : State α β) : Stmt α β → Option (State α β)
  | .assign srcs dst row => do
    let cols ← srcs.mapM fun k => slice (s.mem k) (off rolling lb k) n
    let out ← rowsOf row cols n
    let xs ← splice (s.mem dst) (off rolling lb dst) out
    pure { s with mem := Function.update s.mem dst xs }
  | .observe slot srcs upd => do
    let cols ← srcs.mapM fun k => slice (s.mem k) (off rolling lb k) n
    pure { s with acc := Function.update s.acc slot (upd (s.acc slot) cols) }

/-- All statements on a block. -/
def execBlock (rolling : Nat → Bool) (p : List (Stmt α β)) (s : State α β) (block : Nat × Nat) :
    Option (State α β) :=
  p.foldlM (execStmt rolling block.1 block.2) s

/-- Block after block. -/
def execBlocks (rolling : Nat → Bool) (p : List (Stmt α β)) (blocks : List (Nat × Nat))
    (s : State α β) : Option (State α β) :=
  blocks.foldlM (execBlock rolling p) s

end

/-- The blocks follow each other from row `lb` to row `N`. -/
def Tiles (N : Nat) : Nat → List (Nat × Nat) → Prop
  | lb, [] => lb = N
  | lb, (l, n) :: blocks => l = lb ∧ Tiles N (lb + n) blocks

lemma Tiles.le {N lb : Nat} {blocks : List (Nat × Nat)} (h : Tiles N lb blocks) : lb ≤ N := by
  induction blocks generalizing lb with
  | nil => exact le_of_eq h
  | cons b blocks ih =>
    have hle := ih h.2
    omega

/-! ### Lists of results -/

lemma mapM_eq_some_iff {γ δ : Type} {f : γ → Option δ} {l : List γ} {ys : List δ} :
    l.mapM f = some ys ↔ l.map f = ys.map some := by
  induction l generalizing ys with
  | nil => cases ys <;> simp
  | cons a l ih =>
    rw [List.mapM_cons]
    cases ha : f a with
    | none => cases ys <;> simp [ha]
    | some b =>
      cases hl : l.mapM f with
      | none =>
        cases ys with
        | nil => simp
        | cons y ys =>
          have hne : ¬ l.map f = ys.map some := by
            rw [← ih, hl]
            simp
          simp [hne]
      | some bs =>
        have hbs := ih.mp hl
        have hinj := (Option.some_injective δ).list_map
        cases ys with
        | nil => simp
        | cons y ys => simp [ha, hbs, hinj.eq_iff]

lemma mapM_eq_none_iff {γ δ : Type} {f : γ → Option δ} {l : List γ} :
    l.mapM f = none ↔ ∃ a ∈ l, f a = none := by
  induction l with
  | nil => simp
  | cons a l ih =>
    rw [List.mapM_cons]
    cases ha : f a with
    | none => simp [ha]
    | some b =>
      cases hl : l.mapM f with
      | none => simpa [ha] using ih.mp hl
      | some bs =>
        have hnone : ¬ ∃ a ∈ l, f a = none := by
          rw [← ih, hl]
          simp
        simpa [ha] using hnone

lemma slice_of_le {xs : List α} {lb n : Nat} (h : lb + n ≤ xs.length) :
    slice xs lb n = some ((xs.drop lb).take n) := if_pos h

lemma mapM_slice {mem : Nat → List α} {pos : Nat → Nat} {n : Nat} {srcs : List Nat}
    (h : ∀ k ∈ srcs, pos k + n ≤ (mem k).length) :
    srcs.mapM (fun k => slice (mem k) (pos k) n) =
      some (srcs.map fun k => ((mem k).drop (pos k)).take n) := by
  rw [mapM_eq_some_iff, List.map_map]
  exact List.map_congr_left fun k hk => slice_of_le (h k hk)

lemma eq_of_mapM_slice {mem : Nat → List α} {pos : Nat → Nat} {n : Nat} {srcs : List Nat}
    {cols : List (List α)} (h : srcs.mapM (fun k => slice (mem k) (pos k) n) = some cols) :
    cols = srcs.map fun k => ((mem k).drop (pos k)).take n := by
  have hle : ∀ k ∈ srcs, pos k + n ≤ (mem k).length := by
    intro k hk
    by_contra hle
    have hnone : srcs.mapM (fun k => slice (mem k) (pos k) n) = none :=
      mapM_eq_none_iff.mpr ⟨k, hk, if_neg hle⟩
    rw [hnone] at h
    cases h
  rw [mapM_slice hle] at h
  exact (Option.some.inj h).symm

lemma dsts_append (p q : List (Stmt α β)) : dsts (p ++ q) = dsts p ++ dsts q := by
  induction p with
  | nil => rfl
  | cons st p ih => cases st <;> simp [dsts, ih]

lemma length_splice {xs ys zs : List α} {pos : Nat} (h : splice xs pos ys = some zs) :
    zs.length = xs.length := by
  unfold splice at h
  split_ifs at h with hle
  rw [← Option.some.inj h]
  simp only [List.length_append, List.length_take, List.length_drop]
  omega

lemma take_splice {xs ys zs : List α} {pos : Nat} (h : splice xs pos ys = some zs) :
    zs.take pos = xs.take pos := by
  unfold splice at h
  split_ifs at h with hle
  have hlen : (xs.take pos).length = pos := by
    rw [List.length_take]
    omega
  rw [← Option.some.inj h, List.append_assoc, List.take_left' hlen]

lemma forall_splice {P : α → Prop} {xs ys zs : List α} {pos : Nat} (h : splice xs pos ys = some zs)
    (hxs : ∀ x ∈ xs, P x) (hys : ∀ y ∈ ys, P y) : ∀ z ∈ zs, P z := by
  unfold splice at h
  split_ifs at h
  rw [← Option.some.inj h]
  intro z hz
  rw [List.mem_append, List.mem_append] at hz
  rcases hz with (hz | hz) | hz
  · exact hxs z (List.mem_of_mem_take hz)
  · exact hys z hz
  · exact hxs z (List.mem_of_mem_drop hz)

lemma WF.congr {avail avail' : List Nat} {p : List (Stmt α β)} (h : WF avail p)
    (hsame : ∀ k, k ∈ avail ↔ k ∈ avail') : WF avail' p := by
  induction p generalizing avail avail' with
  | nil => trivial
  | cons st p ih =>
    cases st with
    | assign srcs dst row =>
      obtain ⟨hsrcs, hdst, hp⟩ := h
      refine ⟨fun k hk => (hsame k).mp (hsrcs hk), mt (hsame dst).mpr hdst, ih hp fun k => ?_⟩
      simp [hsame]
    | observe slot srcs upd => exact ⟨fun k hk => (hsame k).mp (h.1 hk), ih h.2 hsame⟩

/-- A program and one that goes on from its columns. -/
lemma WF.append {avail : List Nat} {p q : List (Stmt α β)} (hp : WF avail p)
    (hq : WF (avail ++ dsts p) q) : WF avail (p ++ q) := by
  induction p generalizing avail with
  | nil => rwa [dsts, List.append_nil] at hq
  | cons st p ih =>
    cases st with
    | assign srcs dst row =>
      refine ⟨hp.1, hp.2.1, ih hp.2.2 (hq.congr fun k => ?_)⟩
      simp only [dsts, List.mem_cons, List.mem_append]
      tauto
    | observe slot srcs upd => exact ⟨hp.1, ih hp.2 hq⟩

lemma slots_append (p q : List (Stmt α β)) : slots (p ++ q) = slots p ++ slots q := by
  induction p with
  | nil => rfl
  | cons st p ih => cases st <;> simp [slots, ih]

/-- The first statement and the others. -/
lemma WF.uncons {base : List Nat} {done rest : List (Stmt α β)} {st : Stmt α β}
    (h : WF (base ++ dsts done) (st :: rest)) :
    WF (base ++ dsts done) [st] ∧ WF (base ++ dsts (done ++ [st])) rest := by
  cases st with
  | assign srcs dst row =>
    obtain ⟨hsrcs, hdst, hrest⟩ := h
    refine ⟨⟨hsrcs, hdst, trivial⟩, hrest.congr fun k => ?_⟩
    simp only [dsts_append, dsts, List.mem_cons, List.mem_append, List.not_mem_nil, or_false]
    tauto
  | observe slot srcs upd =>
    refine ⟨⟨h.1, trivial⟩, h.2.congr fun k => ?_⟩
    simp [dsts_append, dsts]

lemma WF.start {base : List Nat} {p : List (Stmt α β)} (h : WF base p) :
    WF (base ++ dsts ([] : List (Stmt α β))) p := by
  rwa [dsts, List.append_nil]

/-- The values accumulated over a block of whole columns. -/
def observeBlock (cols : Nat → List α) (lb n : Nat) : List (Stmt α β) → (Nat → β) → Nat → β
  | [], acc => acc
  | .assign _ _ _ :: p, acc => observeBlock cols lb n p acc
  | .observe slot srcs upd :: p, acc =>
    observeBlock cols lb n p
      (Function.update acc slot (upd (acc slot) (srcs.map fun k => ((cols k).drop lb).take n)))

lemma observeBlock_cons (cols : Nat → List α) (lb n : Nat) (st : Stmt α β) (p : List (Stmt α β))
    (acc : Nat → β) :
    observeBlock cols lb n (st :: p) acc = observeBlock cols lb n p (observeBlock cols lb n [st] acc) := by
  cases st <;> rfl

/-- A program on rows that agree in the columns read. -/
lemma evalRow_congr {avail : List Nat} {p : List (Stmt α β)} {env env' : Nat → α} (hwf : WF avail p)
    (h : ∀ k ∈ avail, env k = env' k) :
    (evalRow p env = none ∧ evalRow p env' = none) ∨
      ∃ e e', evalRow p env = some e ∧ evalRow p env' = some e' ∧
        ∀ k, k ∈ avail ∨ k ∈ dsts p → e k = e' k := by
  induction p generalizing avail env env' with
  | nil => exact .inr ⟨env, env', rfl, rfl, fun k hk => h k (hk.resolve_right List.not_mem_nil)⟩
  | cons st p ih =>
    cases st with
    | observe slot srcs upd => exact ih hwf.2 h
    | assign srcs dst row =>
      obtain ⟨hsrcs, hdst, hwf⟩ := hwf
      have hargs : srcs.map env = srcs.map env' := List.map_congr_left fun k hk => h k (hsrcs hk)
      simp only [evalRow, hargs]
      cases row (srcs.map env') with
      | none => exact .inl ⟨rfl, rfl⟩
      | some a =>
        have hnext : ∀ k ∈ dst :: avail,
            Function.update env dst a k = Function.update env' dst a k := by
          intro k hk
          by_cases hkd : k = dst
          · rw [hkd, Function.update_self, Function.update_self]
          · rw [Function.update_of_ne hkd, Function.update_of_ne hkd]
            exact h k ((List.mem_cons.mp hk).resolve_left hkd)
        refine (ih hwf hnext).imp id ?_
        rintro ⟨e, e', he, he', hsame⟩
        refine ⟨e, e', he, he', fun k hk => hsame k ?_⟩
        simp only [dsts, List.mem_cons] at hk ⊢
        tauto

/-- Accumulating columns is accumulating their first rows and then the other ones. -/
structure Splits (upd : β → List (List α) → β) : Prop where
  nil : ∀ b cols, (∀ c ∈ cols, c = []) → upd b cols = b
  append : ∀ b cols cols' m, cols.length = cols'.length → (∀ c ∈ cols, c.length = m) →
    upd (upd b cols) cols' = upd b (List.zipWith (· ++ ·) cols cols')

section

variable {prog : List (Stmt α β)} {cols : Nat → List α} {slot : Nat} {srcs : List Nat}
  {upd : β → List (List α) → β} {acc : Nat → β} {N lb n : Nat}

lemma observeBlock_of_not_mem (h : slot ∉ slots prog) :
    observeBlock cols lb n prog acc slot = acc slot := by
  induction prog generalizing acc with
  | nil => rfl
  | cons st prog ih =>
    cases st with
    | assign srcs dst row => exact ih h
    | observe slot' srcs upd =>
      obtain ⟨hne, h⟩ := not_or.mp (mt List.mem_cons.mpr h)
      rw [observeBlock, ih h, Function.update_of_ne hne]

lemma mem_slots (h : Stmt.observe slot srcs upd ∈ prog) : slot ∈ slots prog := by
  induction prog with
  | nil => cases h
  | cons st prog ih =>
    cases st with
    | assign srcs dst row => exact ih ((List.mem_cons.mp h).resolve_left (by simp))
    | observe slot' srcs' upd' =>
      rcases List.mem_cons.mp h with heq | h
      · injection heq with heq
        exact List.mem_cons.mpr (.inl heq)
      · exact List.mem_cons_of_mem _ (ih h)

lemma exists_observe_of_mem_slots (h : slot ∈ slots prog) :
    ∃ srcs upd, Stmt.observe slot srcs upd ∈ prog := by
  induction prog with
  | nil => cases h
  | cons st prog ih =>
    cases st with
    | assign srcs dst row =>
      obtain ⟨srcs', upd, hmem⟩ := ih h
      exact ⟨srcs', upd, List.mem_cons_of_mem _ hmem⟩
    | observe slot' srcs upd =>
      rcases List.mem_cons.mp h with rfl | h
      · exact ⟨srcs, upd, List.mem_cons_self⟩
      · obtain ⟨srcs', upd', hmem⟩ := ih h
        exact ⟨srcs', upd', List.mem_cons_of_mem _ hmem⟩

/-- The columns accumulated are there. -/
lemma WF.observed {avail : List Nat} (hwf : WF avail prog) (h : Stmt.observe slot srcs upd ∈ prog)
    {k : Nat} (hk : k ∈ srcs) : k ∈ avail ∨ k ∈ dsts prog := by
  induction prog generalizing avail with
  | nil => cases h
  | cons st prog ih =>
    cases st with
    | assign srcs' dst row =>
      have hlater := ih hwf.2.2 ((List.mem_cons.mp h).resolve_left (by simp))
      simp only [List.mem_cons, dsts] at hlater ⊢
      tauto
    | observe slot' srcs' upd' =>
      rcases List.mem_cons.mp h with heq | hmem
      · injection heq with h1 h2 h3
        subst h2
        exact .inl (hwf.1 hk)
      · exact ih hwf.2 hmem

/-- A value that one statement accumulates. -/
lemma observeBlock_slot (hnodup : (slots prog).Nodup) (h : Stmt.observe slot srcs upd ∈ prog) :
    observeBlock cols lb n prog acc slot =
      upd (acc slot) (srcs.map fun k => ((cols k).drop lb).take n) := by
  induction prog generalizing acc with
  | nil => cases h
  | cons st prog ih =>
    cases st with
    | assign srcs dst row => exact ih hnodup ((List.mem_cons.mp h).resolve_left (by simp))
    | observe slot' srcs' upd' =>
      obtain ⟨hnew, hnodup⟩ := List.nodup_cons.mp hnodup
      rcases List.mem_cons.mp h with heq | hmem
      · injection heq with h1 h2 h3
        subst h1 h2 h3
        rw [observeBlock, observeBlock_of_not_mem hnew, Function.update_self]
      · have hne : slot ≠ slot' := by
          rintro rfl
          exact hnew (mem_slots hmem)
        rw [observeBlock, ih hnodup hmem, Function.update_of_ne hne]

/-- The blocks together. -/
lemma foldl_observeBlock_slot (hnodup : (slots prog).Nodup) (h : Stmt.observe slot srcs upd ∈ prog)
    (hupd : Splits upd) (hlen : ∀ k ∈ srcs, (cols k).length = N) {blocks : List (Nat × Nat)}
    (htiles : Tiles N lb blocks) :
    blocks.foldl (fun acc b => observeBlock cols b.1 b.2 prog acc) acc slot =
      upd (acc slot) (srcs.map fun k => (cols k).drop lb) := by
  induction blocks generalizing acc lb with
  | nil =>
    obtain rfl : lb = N := htiles
    refine (hupd.nil _ _ fun c hc => ?_).symm
    obtain ⟨k, hk, rfl⟩ := List.mem_map.mp hc
    exact List.drop_eq_nil_of_le (hlen k hk).le
  | cons b blocks ih =>
    obtain ⟨l, m⟩ := b
    obtain ⟨rfl, htiles⟩ := htiles
    have hle := htiles.le
    rw [List.foldl_cons, ih htiles]
    dsimp only
    rw [observeBlock_slot hnodup h, hupd.append _ _ _ m (by simp)]
    · congr 1
      rw [List.zipWith_map_left, List.zipWith_map_right, List.zipWith_self]
      refine List.map_congr_left fun k hk => ?_
      rw [← List.drop_drop, List.take_append_drop]
    · intro c hc
      obtain ⟨k, hk, rfl⟩ := List.mem_map.mp hc
      rw [List.length_take, List.length_drop, hlen k hk]
      omega

end

/-! ### A block -/

section Run

variable [Inhabited α]

/-- A row of the columns. -/
def rowEnv (mem : Nat → List α) (r : Nat) : Nat → α := fun k => (mem k).getD r default

/-- There is room for the columns: the given ones and those written have a cell for every row, and
a rolling one has a cell for every row of a block. -/
structure Room (rolling : Nat → Bool) (base : List Nat) (p : List (Stmt α β)) (N n : Nat)
    (mem : Nat → List α) : Prop where
  base : ∀ k ∈ base, rolling k = false ∧ (mem k).length = N
  full : ∀ k ∈ dsts p, rolling k = false → (mem k).length = N
  rolls : ∀ k ∈ dsts p, rolling k = true → n ≤ (mem k).length

/-- The statements `done` have been run on the block, from the state `sb`. -/
structure InBlock (rolling : Nat → Bool) (base : List Nat) (mem₀ : Nat → List α) (lb n : Nat)
    (sb s : State α β) (done : List (Stmt α β)) : Prop where
  rows : ∀ r < n, ∃ e, evalRow done (rowEnv mem₀ (lb + r)) = some e ∧
    ∀ k, k ∈ base ∨ k ∈ dsts done → (s.mem k).getD (off rolling lb k + r) default = e k
  frame : ∀ k, k ∉ dsts done → s.mem k = sb.mem k
  length : ∀ k, (s.mem k).length = (sb.mem k).length
  front : ∀ k, rolling k = false → (s.mem k).take lb = (sb.mem k).take lb

lemma getD_take_drop {xs : List α} {pos n r : Nat} (hr : r < n) :
    ((xs.drop pos).take n).getD r default = xs.getD (pos + r) default := by
  rw [List.getD_eq_getElem?_getD, List.getD_eq_getElem?_getD, List.getElem?_take_of_lt hr,
    List.getElem?_drop]

lemma getD_splice_mid {xs ys zs : List α} {pos r : Nat} (h : splice xs pos ys = some zs)
    (hr : r < ys.length) : zs.getD (pos + r) default = ys.getD r default := by
  unfold splice at h
  split_ifs at h with hle
  rw [← Option.some.inj h, List.append_assoc, List.getD_eq_getElem?_getD, List.getD_eq_getElem?_getD,
    List.getElem?_append_right (by rw [List.length_take]; omega),
    List.getElem?_append_left (by rw [List.length_take]; omega), List.length_take,
    Nat.min_eq_left (by omega), Nat.add_sub_cancel_left]

section Step

variable {rolling : Nat → Bool} {base : List Nat} {mem₀ : Nat → List α} {lb n : Nat}
  {sb s s' : State α β} {done : List (Stmt α β)}

lemma rowsOf_eq_some_iff {row : List α → Option α} {cols : List (List α)} {out : List α} :
    rowsOf row cols n = some out ↔
      out.length = n ∧ ∀ r < n, row (cols.map fun c => c.getD r default) = some (out.getD r default) := by
  rw [rowsOf, mapM_eq_some_iff]
  constructor
  · intro h
    have hlen : out.length = n := by
      have hl := congrArg List.length h
      rwa [List.length_map, List.length_map, List.length_range, eq_comm] at hl
    refine ⟨hlen, fun r hr => ?_⟩
    have hget := congrArg (fun l => l[r]?) h
    simp only [List.getElem?_map, List.getElem?_range hr, Option.map_some] at hget
    rw [List.getD_eq_getElem _ _ (by omega)]
    rw [List.getElem?_eq_getElem (by omega), Option.map_some] at hget
    exact Option.some.inj hget
  · rintro ⟨hlen, h⟩
    refine List.ext_getElem (by simp [hlen]) fun r h1 h2 => ?_
    have hr : r < n := by simpa using h1
    rw [List.getElem_map, List.getElem_map, List.getElem_range, h r hr,
      List.getD_eq_getElem _ _ (by omega)]

/-- The columns that a statement reads, row by row. -/
lemma InBlock.srcs_eq (h : InBlock rolling base mem₀ lb n sb s done) {srcs : List Nat}
    (hsrcs : ∀ k ∈ srcs, k ∈ base ∨ k ∈ dsts done) {r : Nat} (hr : r < n) {e : Nat → α}
    (he : evalRow done (rowEnv mem₀ (lb + r)) = some e) :
    ((srcs.map fun k => ((s.mem k).drop (off rolling lb k)).take n).map fun c => c.getD r default) =
      srcs.map e := by
  rw [List.map_map]
  refine List.map_congr_left fun k hk => ?_
  obtain ⟨e', he', hcells⟩ := h.rows r hr
  obtain rfl := Option.some.inj (he.symm.trans he')
  rw [Function.comp_apply, getD_take_drop hr]
  exact hcells k (hsrcs k hk)

/-- One more statement. -/
lemma InBlock.step (h : InBlock rolling base mem₀ lb n sb s done) {st : Stmt α β}
    (hwf : WF (base ++ dsts done) [st]) (hrun : execStmt rolling lb n s st = some s') :
    InBlock rolling base mem₀ lb n sb s' (done ++ [st]) := by
  cases st with
  | observe slot srcs upd =>
    obtain ⟨cols, -, hret⟩ := Option.bind_eq_some_iff.mp hrun
    rw [← Option.some.inj hret]
    have hdsts : dsts (done ++ [Stmt.observe slot srcs upd]) = dsts done := by
      rw [dsts_append, dsts, dsts, List.append_nil]
    refine ⟨fun r hr => ?_, ?_, h.length, h.front⟩
    · obtain ⟨e, he, hcells⟩ := h.rows r hr
      refine ⟨e, ?_, ?_⟩
      · rw [evalRow_append, he]
        rfl
      · rwa [hdsts]
    · rw [hdsts]
      exact h.frame
  | assign srcs dst row =>
    obtain ⟨hsrcs, hdst, -⟩ := hwf
    obtain ⟨cols, hcols, hrun⟩ := Option.bind_eq_some_iff.mp hrun
    obtain ⟨out, hout, hrun⟩ := Option.bind_eq_some_iff.mp hrun
    obtain ⟨xs, hxs, hret⟩ := Option.bind_eq_some_iff.mp hrun
    obtain ⟨hlen, hout⟩ := rowsOf_eq_some_iff.mp hout
    obtain rfl := eq_of_mapM_slice hcols
    have hdsts : dsts (done ++ [Stmt.assign (β := β) srcs dst row]) = dsts done ++ [dst] := by
      rw [dsts_append, dsts, dsts]
    rw [← Option.some.inj hret]
    refine ⟨fun r hr => ?_, ?_, ?_, ?_⟩
    · obtain ⟨e, he, hcells⟩ := h.rows r hr
      have hsrcs' : ∀ k ∈ srcs, k ∈ base ∨ k ∈ dsts done := fun k hk => List.mem_append.mp (hsrcs hk)
      have hrow := hout r hr
      rw [h.srcs_eq hsrcs' hr he] at hrow
      refine ⟨Function.update e dst (out.getD r default), ?_, fun k hk => ?_⟩
      · rw [evalRow_append, he]
        show (row (srcs.map e)).bind _ = _
        rw [hrow]
        rfl
      · dsimp only
        by_cases hkd : k = dst
        · subst hkd
          rw [Function.update_self, Function.update_self, getD_splice_mid hxs (by omega)]
        · rw [Function.update_of_ne hkd, Function.update_of_ne hkd]
          apply hcells
          rw [hdsts] at hk
          simpa [hkd] using hk
    · intro k hk
      rw [hdsts] at hk
      have hk' := not_or.mp (mt List.mem_append.mpr hk)
      dsimp only
      rw [Function.update_of_ne (by simpa using hk'.2)]
      exact h.frame k hk'.1
    · intro k
      dsimp only
      by_cases hkd : k = dst
      · subst hkd
        rw [Function.update_self, length_splice hxs]
        exact h.length k
      · rw [Function.update_of_ne hkd]
        exact h.length k
    · intro k hk
      dsimp only
      by_cases hkd : k = dst
      · subst hkd
        have hoff : off rolling lb k = lb := if_neg (by simp [hk])
        rw [hoff] at hxs
        rw [Function.update_self, take_splice hxs]
        exact h.front k hk
      · rw [Function.update_of_ne hkd]
        exact h.front k hk

/-- The next statement succeeds if it does in each row. -/
lemma InBlock.isSome (h : InBlock rolling base mem₀ lb n sb s done) {st : Stmt α β}
    (hwf : WF (base ++ dsts done) [st])
    (hfit : ∀ k, k ∈ base ∨ k ∈ dsts (done ++ [st]) → off rolling lb k + n ≤ (sb.mem k).length)
    (hrows : ∀ r < n, (evalRow (done ++ [st]) (rowEnv mem₀ (lb + r))).isSome) :
    (execStmt rolling lb n s st).isSome := by
  rw [dsts_append] at hfit
  have hread : ∀ srcs : List Nat, srcs ⊆ base ++ dsts done →
      srcs.mapM (fun k => slice (s.mem k) (off rolling lb k) n) =
        some (srcs.map fun k => ((s.mem k).drop (off rolling lb k)).take n) := by
    intro srcs hsrcs
    refine mapM_slice fun k hk => ?_
    rw [h.length]
    refine hfit k ?_
    rcases List.mem_append.mp (hsrcs hk) with hb | hd
    · exact .inl hb
    · exact .inr (List.mem_append_left _ hd)
  cases st with
  | observe slot srcs upd =>
    rw [execStmt, hread srcs hwf.1]
    rfl
  | assign srcs dst row =>
    obtain ⟨hsrcs, -, -⟩ := hwf
    have hsrcs' : ∀ k ∈ srcs, k ∈ base ∨ k ∈ dsts done := fun k hk => List.mem_append.mp (hsrcs hk)
    rw [execStmt, hread srcs hsrcs, Option.bind_eq_bind, Option.bind_some]
    cases hout : rowsOf row (srcs.map fun k => ((s.mem k).drop (off rolling lb k)).take n) n with
    | none =>
      obtain ⟨r, hr, hnone⟩ := mapM_eq_none_iff.mp hout
      rw [List.mem_range] at hr
      obtain ⟨e, he, -⟩ := h.rows r hr
      have hsome := hrows r hr
      rw [evalRow_append, he] at hsome
      rw [h.srcs_eq hsrcs' hr he] at hnone
      change ((row (srcs.map e)).bind _).isSome = true at hsome
      rw [hnone] at hsome
      cases hsome
    | some out =>
      have hlen := (rowsOf_eq_some_iff.mp hout).1
      have hle : off rolling lb dst + out.length ≤ (s.mem dst).length := by
        rw [h.length, hlen]
        exact hfit dst (.inr (by simp [dsts]))
      rw [Option.bind_eq_bind, Option.bind_some, splice, if_pos hle]
      rfl

end Step

/-! ### What every cell satisfies -/

/-- The rows of a statement satisfy what the cells read do. -/
def Stmt.Yields (P : α → Prop) : Stmt α β → Prop
  | .assign _ _ row => ∀ args a, (∀ x ∈ args, P x) → row args = some a → P a
  | .observe _ _ _ => True

section Forall

variable {P : α → Prop} {rolling : Nat → Bool} {lb n : Nat} {s s' : State α β}

lemma forall_getD {c : List α} (hdefault : P default) (hc : ∀ x ∈ c, P x) (r : Nat) :
    P (c.getD r default) := by
  by_cases hr : r < c.length
  · rw [List.getD_eq_getElem _ _ hr]
    exact hc _ (List.getElem_mem hr)
  · rw [List.getD_eq_default _ _ (by omega)]
    exact hdefault

lemma execStmt_forall {st : Stmt α β} (hdefault : P default) (hst : st.Yields P)
    (hs : ∀ k, ∀ x ∈ s.mem k, P x) (hrun : execStmt rolling lb n s st = some s') :
    ∀ k, ∀ x ∈ s'.mem k, P x := by
  cases st with
  | observe slot srcs upd =>
    obtain ⟨cols, -, hret⟩ := Option.bind_eq_some_iff.mp hrun
    rw [← Option.some.inj hret]
    exact hs
  | assign srcs dst row =>
    obtain ⟨cols, hcols, hrun⟩ := Option.bind_eq_some_iff.mp hrun
    obtain ⟨out, hout, hrun⟩ := Option.bind_eq_some_iff.mp hrun
    obtain ⟨xs, hxs, hret⟩ := Option.bind_eq_some_iff.mp hrun
    obtain rfl := eq_of_mapM_slice hcols
    have hargs : ∀ r, ∀ x ∈ (srcs.map fun k => ((s.mem k).drop (off rolling lb k)).take n).map
        (fun c => c.getD r default), P x := by
      intro r x hx
      obtain ⟨c, hc, rfl⟩ := List.mem_map.mp hx
      obtain ⟨k, -, rfl⟩ := List.mem_map.mp hc
      exact forall_getD hdefault
        (fun y hy => hs k y (List.mem_of_mem_drop (List.mem_of_mem_take hy))) r
    have hnew : ∀ y ∈ out, P y := by
      intro y hy
      obtain ⟨hlen, hrows⟩ := rowsOf_eq_some_iff.mp hout
      obtain ⟨r, hr, rfl⟩ := List.mem_iff_getElem.mp hy
      have hrow := hrows r (by omega)
      rw [List.getD_eq_getElem _ _ hr] at hrow
      exact hst _ _ (hargs r) hrow
    rw [← Option.some.inj hret]
    intro k x hx
    dsimp only at hx
    by_cases hk : k = dst
    · subst hk
      rw [Function.update_self] at hx
      exact forall_splice hxs (hs k) hnew x hx
    · rw [Function.update_of_ne hk] at hx
      exact hs k x hx

/-- What every cell satisfies is kept by a program. -/
lemma foldlM_execStmt_forall {p : List (Stmt α β)} (hdefault : P default)
    (hp : ∀ st ∈ p, st.Yields P) (hs : ∀ k, ∀ x ∈ s.mem k, P x)
    (hrun : p.foldlM (execStmt rolling lb n) s = some s') : ∀ k, ∀ x ∈ s'.mem k, P x := by
  induction p generalizing s with
  | nil =>
    rw [← Option.some.inj hrun]
    exact hs
  | cons st p ih =>
    rw [List.forall_mem_cons] at hp
    obtain ⟨s₁, hst, hrun⟩ := Option.bind_eq_some_iff.mp hrun
    exact ih hp.2 (execStmt_forall hdefault hp.1 hs hst) hrun

end Forall

/-! ### A whole block -/

section Block

variable {rolling : Nat → Bool} {base : List Nat} {mem₀ : Nat → List α} {lb n : Nat}
  {sb s s' : State α β} {done rest : List (Stmt α β)}

lemma InBlock.run (h : InBlock rolling base mem₀ lb n sb s done) (hwf : WF (base ++ dsts done) rest)
    (hrun : rest.foldlM (execStmt rolling lb n) s = some s') :
    InBlock rolling base mem₀ lb n sb s' (done ++ rest) := by
  induction rest generalizing done s with
  | nil =>
    rw [← Option.some.inj hrun, List.append_nil]
    exact h
  | cons st rest ih =>
    obtain ⟨s₁, hst, hrun⟩ := Option.bind_eq_some_iff.mp hrun
    have hnext := ih (h.step hwf.uncons.1 hst) hwf.uncons.2 hrun
    rwa [List.append_assoc, List.singleton_append] at hnext

lemma InBlock.run_isSome (h : InBlock rolling base mem₀ lb n sb s done)
    (hwf : WF (base ++ dsts done) rest)
    (hfit : ∀ k, k ∈ base ∨ k ∈ dsts (done ++ rest) → off rolling lb k + n ≤ (sb.mem k).length)
    (hrows : ∀ r < n, (evalRow (done ++ rest) (rowEnv mem₀ (lb + r))).isSome) :
    (rest.foldlM (execStmt rolling lb n) s).isSome := by
  induction rest generalizing done s with
  | nil => rfl
  | cons st rest ih =>
    have hsplit : done ++ st :: rest = (done ++ [st]) ++ rest := by
      rw [List.append_assoc, List.singleton_append]
    rw [hsplit] at hfit hrows
    have hst : (execStmt rolling lb n s st).isSome := by
      refine h.isSome hwf.uncons.1 (fun k hk => hfit k ?_) fun r hr => ?_
      · rw [dsts_append (done ++ [st]), List.mem_append]
        tauto
      · have hsome := hrows r hr
        rw [evalRow_append] at hsome
        exact Option.isSome_of_isSome_bind hsome
    obtain ⟨s₁, hs₁⟩ := Option.isSome_iff_exists.mp hst
    rw [List.foldlM_cons, hs₁]
    exact ih (h.step hwf.uncons.1 hs₁) hwf.uncons.2 hfit hrows

/-- The columns agree with what the statements that have been run give. -/
def AgreeOn (base : List Nat) (mem₀ : Nat → List α) (lb n : Nat) (cols : Nat → List α)
    (done : List (Stmt α β)) : Prop :=
  ∀ k, k ∈ base ∨ k ∈ dsts done → lb + n ≤ (cols k).length ∧
    ∀ r < n, ∀ e, evalRow done (rowEnv mem₀ (lb + r)) = some e →
      (cols k).getD (lb + r) default = e k

lemma InBlock.slice_eq (h : InBlock rolling base mem₀ lb n sb s done) {cols : Nat → List α}
    (hcols : AgreeOn base mem₀ lb n cols done) {k : Nat} (hk : k ∈ base ∨ k ∈ dsts done)
    (hfit : off rolling lb k + n ≤ (sb.mem k).length) :
    ((s.mem k).drop (off rolling lb k)).take n = ((cols k).drop lb).take n := by
  have hlen := h.length k
  obtain ⟨hlencols, hcells⟩ := hcols k hk
  have h1 : (((s.mem k).drop (off rolling lb k)).take n).length = n := by
    rw [List.length_take, List.length_drop]
    omega
  have h2 : (((cols k).drop lb).take n).length = n := by
    rw [List.length_take, List.length_drop]
    omega
  refine List.ext_getElem (h1.trans h2.symm) fun r hr1 hr2 => ?_
  have hr : r < n := by omega
  obtain ⟨e, he, hmem⟩ := h.rows r hr
  rw [← List.getD_eq_getElem _ default, ← List.getD_eq_getElem _ default, getD_take_drop hr,
    getD_take_drop hr, hmem k hk, hcells r hr e he]

/-- What a statement accumulates. -/
lemma InBlock.acc (h : InBlock rolling base mem₀ lb n sb s done) {st : Stmt α β} {cols : Nat → List α}
    (hwf : WF (base ++ dsts done) [st]) (hcols : AgreeOn base mem₀ lb n cols done)
    (hfit : ∀ k, k ∈ base ∨ k ∈ dsts done → off rolling lb k + n ≤ (sb.mem k).length)
    (hrun : execStmt rolling lb n s st = some s') : s'.acc = observeBlock cols lb n [st] s.acc := by
  cases st with
  | assign srcs dst row =>
    obtain ⟨_, -, hrun⟩ := Option.bind_eq_some_iff.mp hrun
    obtain ⟨_, -, hrun⟩ := Option.bind_eq_some_iff.mp hrun
    obtain ⟨_, -, hret⟩ := Option.bind_eq_some_iff.mp hrun
    rw [← Option.some.inj hret]
    rfl
  | observe slot srcs upd =>
    obtain ⟨read, hread, hret⟩ := Option.bind_eq_some_iff.mp hrun
    obtain rfl := eq_of_mapM_slice hread
    have hslices : (srcs.map fun k => ((s.mem k).drop (off rolling lb k)).take n) =
        srcs.map fun k => ((cols k).drop lb).take n := by
      refine List.map_congr_left fun k hk => ?_
      have hk' := List.mem_append.mp (hwf.1 hk)
      exact h.slice_eq hcols hk' (hfit k hk')
    rw [← Option.some.inj hret, hslices]
    rfl

lemma InBlock.run_acc (h : InBlock rolling base mem₀ lb n sb s done) {prog : List (Stmt α β)}
    (hprog : done ++ rest = prog) {cols : Nat → List α} (hwf : WF (base ++ dsts done) rest)
    (hcols : ∀ done' rest', done' ++ rest' = prog → WF (base ++ dsts done') rest' →
      AgreeOn base mem₀ lb n cols done')
    (hfit : ∀ k, k ∈ base ∨ k ∈ dsts prog → off rolling lb k + n ≤ (sb.mem k).length)
    (hrun : rest.foldlM (execStmt rolling lb n) s = some s') :
    s'.acc = observeBlock cols lb n rest s.acc := by
  induction rest generalizing done s with
  | nil =>
    rw [← Option.some.inj hrun]
    rfl
  | cons st rest ih =>
    obtain ⟨s₁, hst, hrun⟩ := Option.bind_eq_some_iff.mp hrun
    have hacc := h.acc hwf.uncons.1 (hcols done _ hprog hwf) (fun k hk => hfit k (by
      rw [← hprog, dsts_append, List.mem_append]
      tauto)) hst
    have hsplit : (done ++ [st]) ++ rest = prog := by
      rw [← hprog, List.append_assoc, List.singleton_append]
    rw [observeBlock_cons, ← hacc]
    exact ih (h.step hwf.uncons.1 hst) hsplit hwf.uncons.2 hrun

end Block

/-! ### All blocks -/

/-- What the program gives for a column: the value in each row. -/
def column (p : List (Stmt α β)) (mem : Nat → List α) (N k : Nat) : List α :=
  (List.range N).map fun r => ((evalRow p (rowEnv mem r)).getD fun _ => default) k

section Blocks

variable {rolling : Nat → Bool} {base : List Nat} {prog : List (Stmt α β)} {N n lb : Nat}
  {s₀ s s' : State α β} {blocks : List (Nat × Nat)}

/-- The blocks before row `lb` have been run. -/
structure UpTo (rolling : Nat → Bool) (prog : List (Stmt α β)) (mem₀ : Nat → List α) (lb : Nat)
    (s : State α β) : Prop where
  frame : ∀ k, k ∉ dsts prog → s.mem k = mem₀ k
  length : ∀ k, (s.mem k).length = (mem₀ k).length
  rows : ∀ r < lb, ∃ e, evalRow prog (rowEnv mem₀ r) = some e ∧
    ∀ k ∈ dsts prog, rolling k = false → (s.mem k).getD r default = e k

lemma upTo_zero (s : State α β) : UpTo rolling prog s.mem 0 s :=
  ⟨fun _ _ => rfl, fun _ => rfl, fun _ hr => absurd hr (Nat.not_lt_zero _)⟩

lemma UpTo.enter (h : UpTo rolling prog s₀.mem lb s) (hwf : WF base prog)
    (hroom : Room rolling base prog N n s₀.mem) (m : Nat) :
    InBlock rolling base s₀.mem lb m s s [] := by
  refine ⟨fun r _ => ⟨_, rfl, fun k hk => ?_⟩, fun _ _ => rfl, fun _ => rfl, fun _ _ => rfl⟩
  have hk : k ∈ base := hk.resolve_right List.not_mem_nil
  have hoff : off rolling lb k = lb := if_neg (by simp [(hroom.base k hk).1])
  rw [h.frame k (hwf.not_mem_dsts hk), hoff]
  rfl

lemma UpTo.leave (h : UpTo rolling prog s₀.mem lb s) {m : Nat}
    (hblock : InBlock rolling base s₀.mem lb m s s' prog) : UpTo rolling prog s₀.mem (lb + m) s' := by
  refine ⟨fun k hk => (hblock.frame k hk).trans (h.frame k hk),
    fun k => (hblock.length k).trans (h.length k), fun r hr => ?_⟩
  by_cases hlt : r < lb
  · obtain ⟨e, he, hcells⟩ := h.rows r hlt
    refine ⟨e, he, fun k hk hroll => ?_⟩
    rw [← hcells k hk hroll, List.getD_eq_getElem?_getD, List.getD_eq_getElem?_getD,
      ← List.getElem?_take_of_lt hlt, hblock.front k hroll, List.getElem?_take_of_lt hlt]
  · obtain ⟨e, he, hcells⟩ := hblock.rows (r - lb) (by omega)
    rw [Nat.add_sub_cancel' (by omega)] at he
    refine ⟨e, he, fun k hk hroll => ?_⟩
    have hoff : off rolling lb k = lb := if_neg (by simp [hroll])
    rw [← hcells k (.inr hk), hoff, Nat.add_sub_cancel' (by omega)]

lemma UpTo.fit (h : UpTo rolling prog s₀.mem lb s) (hroom : Room rolling base prog N n s₀.mem) {m : Nat}
    (hm : m ≤ n) (hle : lb + m ≤ N) :
    ∀ k, k ∈ base ∨ k ∈ dsts prog → off rolling lb k + m ≤ (s.mem k).length := by
  intro k hk
  rw [h.length, off]
  rcases hk with hb | hd
  · obtain ⟨hroll, hlen⟩ := hroom.base k hb
    simp only [hroll, hlen]
    exact hle
  · cases hroll : rolling k with
    | false =>
      rw [hroom.full k hd hroll]
      exact hle
    | true =>
      have hlen := hroom.rolls k hd hroll
      simp only [if_true]
      omega

lemma length_column (p : List (Stmt α β)) (mem : Nat → List α) (N k : Nat) :
    (column p mem N k).length = N := by
  rw [column, List.length_map, List.length_range]

lemma getD_column {p : List (Stmt α β)} {mem : Nat → List α} {r : Nat} {e : Nat → α}
    (he : evalRow p (rowEnv mem r) = some e) (hr : r < N) (k : Nat) :
    (column p mem N k).getD r default = e k := by
  rw [column, List.getD_eq_getElem _ _ (by simpa using hr), List.getElem_map, List.getElem_range, he,
    Option.getD_some]

/-- The values of the finished program are those of its statements so far. -/
lemma agreeOn_column {mem : Nat → List α} {done rest : List (Stmt α β)} {m : Nat}
    (hprog : done ++ rest = prog) (hwf : WF (base ++ dsts done) rest)
    (hrows : ∀ r < N, (evalRow prog (rowEnv mem r)).isSome) (hle : lb + m ≤ N) :
    AgreeOn base mem lb m (column prog mem N) done := by
  refine fun k hk => ⟨by rwa [length_column], fun r hr e he => ?_⟩
  obtain ⟨e', he'⟩ := Option.isSome_iff_exists.mp (hrows (lb + r) (by omega))
  rw [getD_column he' (by omega)]
  rw [← hprog, evalRow_append, he, Option.bind_some] at he'
  exact evalRow_of_not_mem he' (hwf.not_mem_dsts (List.mem_append.mpr hk))

lemma UpTo.run (h : UpTo rolling prog s₀.mem lb s) (hwf : WF base prog)
    (hroom : Room rolling base prog N n s₀.mem) (htiles : Tiles N lb blocks)
    (hrun : execBlocks rolling prog blocks s = some s') : UpTo rolling prog s₀.mem N s' := by
  induction blocks generalizing lb s with
  | nil =>
    rw [← Option.some.inj hrun, ← show lb = N from htiles]
    exact h
  | cons b blocks ih =>
    obtain ⟨l, m⟩ := b
    obtain ⟨rfl, htiles⟩ := htiles
    obtain ⟨s₁, hblock, hrest⟩ := Option.bind_eq_some_iff.mp hrun
    exact ih (h.leave ((h.enter hwf hroom m).run hwf.start hblock)) htiles hrest

lemma UpTo.run_isSome (h : UpTo rolling prog s₀.mem lb s) (hwf : WF base prog)
    (hroom : Room rolling base prog N n s₀.mem) (htiles : Tiles N lb blocks)
    (hmax : ∀ b ∈ blocks, b.2 ≤ n) (hrows : ∀ r < N, (evalRow prog (rowEnv s₀.mem r)).isSome) :
    (execBlocks rolling prog blocks s).isSome := by
  induction blocks generalizing lb s with
  | nil => rfl
  | cons b blocks ih =>
    obtain ⟨l, m⟩ := b
    obtain ⟨rfl, htiles⟩ := htiles
    rw [List.forall_mem_cons] at hmax
    have hle := htiles.le
    have hblock : (execBlock rolling prog s (l, m)).isSome :=
      (h.enter hwf hroom m).run_isSome hwf.start (h.fit hroom hmax.1 hle) fun r hr => hrows (l + r) (by omega)
    obtain ⟨s₁, hs₁⟩ := Option.isSome_iff_exists.mp hblock
    rw [execBlocks, List.foldlM_cons, hs₁]
    exact ih (h.leave ((h.enter hwf hroom m).run hwf.start hs₁)) htiles hmax.2

/-- A run succeeds if and only if the statements do in each row, whatever the blocks. -/
theorem execBlocks_isSome_iff (hwf : WF base prog) (hroom : Room rolling base prog N n s₀.mem)
    (htiles : Tiles N 0 blocks) (hmax : ∀ b ∈ blocks, b.2 ≤ n) :
    (execBlocks rolling prog blocks s₀).isSome ↔ ∀ r < N, (evalRow prog (rowEnv s₀.mem r)).isSome := by
  constructor
  · intro h r hr
    obtain ⟨s, hs⟩ := Option.isSome_iff_exists.mp h
    obtain ⟨e, he, -⟩ := ((upTo_zero s₀).run hwf hroom htiles hs).rows r hr
    rw [he]
    rfl
  · exact (upTo_zero s₀).run_isSome hwf hroom htiles hmax

/-- A column that is written in full holds what the statements give for each row. -/
theorem execBlocks_mem (hwf : WF base prog) (hroom : Room rolling base prog N n s₀.mem)
    (htiles : Tiles N 0 blocks) (hrun : execBlocks rolling prog blocks s₀ = some s) {k : Nat}
    (hk : k ∈ dsts prog) (hroll : rolling k = false) : s.mem k = column prog s₀.mem N k := by
  have hupTo := (upTo_zero s₀).run hwf hroom htiles hrun
  have hlen : (s.mem k).length = N := (hupTo.length k).trans (hroom.full k hk hroll)
  refine List.ext_getElem (hlen.trans (length_column _ _ _ _).symm) fun r hr hr' => ?_
  obtain ⟨e, he, hcells⟩ := hupTo.rows r (by omega)
  rw [← List.getD_eq_getElem _ default, ← List.getD_eq_getElem _ default, hcells k hk hroll,
    getD_column he (by omega)]

lemma UpTo.run_acc (h : UpTo rolling prog s₀.mem lb s) (hwf : WF base prog)
    (hroom : Room rolling base prog N n s₀.mem) (htiles : Tiles N lb blocks)
    (hmax : ∀ b ∈ blocks, b.2 ≤ n) (hrows : ∀ r < N, (evalRow prog (rowEnv s₀.mem r)).isSome)
    (hrun : execBlocks rolling prog blocks s = some s') :
    s'.acc = blocks.foldl
      (fun acc b => observeBlock (column prog s₀.mem N) b.1 b.2 prog acc) s.acc := by
  induction blocks generalizing lb s with
  | nil =>
    rw [← Option.some.inj hrun]
    rfl
  | cons b blocks ih =>
    obtain ⟨l, m⟩ := b
    obtain ⟨rfl, htiles⟩ := htiles
    obtain ⟨s₁, hblock, hrest⟩ := Option.bind_eq_some_iff.mp hrun
    rw [List.forall_mem_cons] at hmax
    have henter := h.enter hwf hroom m
    have hacc := henter.run_acc (List.nil_append prog) hwf.start
      (fun done rest hprog hwf' => agreeOn_column hprog hwf' hrows htiles.le)
      (h.fit hroom hmax.1 htiles.le) hblock
    rw [ih (h.leave (henter.run hwf.start hblock)) htiles hmax.2 hrest, hacc]
    rfl

/-- What is accumulated over the blocks is read from the whole columns. -/
theorem execBlocks_acc (hwf : WF base prog) (hroom : Room rolling base prog N n s₀.mem)
    (htiles : Tiles N 0 blocks) (hmax : ∀ b ∈ blocks, b.2 ≤ n)
    (hrun : execBlocks rolling prog blocks s₀ = some s) :
    s.acc = blocks.foldl
      (fun acc b => observeBlock (column prog s₀.mem N) b.1 b.2 prog acc) s₀.acc := by
  have hrows := (execBlocks_isSome_iff hwf hroom htiles hmax).mp (by rw [hrun]; rfl)
  exact (upTo_zero s₀).run_acc hwf hroom htiles hmax hrows hrun

end Blocks

/-! ### The blocks do not matter -/

section Agree

variable {rolling rolling' : Nat → Bool} {base : List Nat} {prog : List (Stmt α β)} {N n n' : Nat}
  {s₀ s₀' s s' : State α β} {blocks blocks' : List (Nat × Nat)}

/-- A value accumulated is that of the whole columns. -/
theorem execBlocks_acc_slot (hwf : WF base prog) (hroom : Room rolling base prog N n s₀.mem)
    (htiles : Tiles N 0 blocks) (hmax : ∀ b ∈ blocks, b.2 ≤ n) (hnodup : (slots prog).Nodup)
    (hrun : execBlocks rolling prog blocks s₀ = some s) {slot : Nat} {srcs : List Nat}
    {upd : β → List (List α) → β} (h : Stmt.observe slot srcs upd ∈ prog) (hupd : Splits upd) :
    s.acc slot = upd (s₀.acc slot) (srcs.map (column prog s₀.mem N)) := by
  rw [execBlocks_acc hwf hroom htiles hmax hrun,
    foldl_observeBlock_slot hnodup h hupd (fun k _ => length_column _ _ _ k) htiles]
  simp only [List.drop_zero]

lemma rowEnv_congr {mem mem' : Nat → List α} (h : ∀ k ∈ base, mem k = mem' k) (r : Nat) :
    ∀ k ∈ base, rowEnv mem r k = rowEnv mem' r k := fun k hk => by
  rw [rowEnv, rowEnv, h k hk]

lemma column_congr (hwf : WF base prog) {mem mem' : Nat → List α} (h : ∀ k ∈ base, mem k = mem' k)
    (hrows : ∀ r < N, (evalRow prog (rowEnv mem r)).isSome) {k : Nat}
    (hk : k ∈ base ∨ k ∈ dsts prog) : column prog mem N k = column prog mem' N k := by
  refine List.map_congr_left fun r hr => ?_
  have hsome := hrows r (List.mem_range.mp hr)
  rcases evalRow_congr hwf (rowEnv_congr h r) with ⟨hnone, -⟩ | ⟨e, e', he, he', hsame⟩
  · rw [hnone] at hsome
    cases hsome
  · rw [he, he']
    exact hsame k hk

/-- Two runs of a program on the same columns, in whatever blocks and whatever columns roll, fail
both or have the same results. -/
theorem execBlocks_agree (hwf : WF base prog) (hnodup : (slots prog).Nodup)
    (hsplit : ∀ slot srcs upd, Stmt.observe slot srcs upd ∈ prog → Splits upd)
    (hroom : Room rolling base prog N n s₀.mem) (hroom' : Room rolling' base prog N n' s₀'.mem)
    (hbase : ∀ k ∈ base, s₀.mem k = s₀'.mem k) (hacc : s₀.acc = s₀'.acc)
    (htiles : Tiles N 0 blocks) (htiles' : Tiles N 0 blocks')
    (hmax : ∀ b ∈ blocks, b.2 ≤ n) (hmax' : ∀ b ∈ blocks', b.2 ≤ n') :
    (execBlocks rolling prog blocks s₀ = none ∧ execBlocks rolling' prog blocks' s₀' = none) ∨
      ∃ s s', execBlocks rolling prog blocks s₀ = some s ∧
        execBlocks rolling' prog blocks' s₀' = some s' ∧
        (∀ k ∈ dsts prog, rolling k = false → rolling' k = false → s.mem k = s'.mem k) ∧
        ∀ slot ∈ slots prog, s.acc slot = s'.acc slot := by
  have hsuccess := execBlocks_isSome_iff hwf hroom htiles hmax
  have hsuccess' := execBlocks_isSome_iff hwf hroom' htiles' hmax'
  have hiff : (∀ r < N, (evalRow prog (rowEnv s₀.mem r)).isSome) ↔
      ∀ r < N, (evalRow prog (rowEnv s₀'.mem r)).isSome := by
    refine forall₂_congr fun r _ => ?_
    rcases evalRow_congr hwf (rowEnv_congr hbase r) with ⟨h1, h2⟩ | ⟨e, e', h1, h2, -⟩
    · rw [h1, h2]
    · rw [h1, h2]
      exact iff_of_true rfl rfl
  by_cases hrows : ∀ r < N, (evalRow prog (rowEnv s₀.mem r)).isSome
  · obtain ⟨s, hs⟩ := Option.isSome_iff_exists.mp (hsuccess.mpr hrows)
    obtain ⟨s', hs'⟩ := Option.isSome_iff_exists.mp (hsuccess'.mpr (hiff.mp hrows))
    refine .inr ⟨s, s', hs, hs', fun k hk hroll hroll' => ?_, fun slot hslot => ?_⟩
    · rw [execBlocks_mem hwf hroom htiles hs hk hroll, execBlocks_mem hwf hroom' htiles' hs' hk hroll']
      exact column_congr hwf hbase hrows (.inr hk)
    · obtain ⟨srcs, upd, hmem⟩ := exists_observe_of_mem_slots hslot
      have hupd := hsplit slot srcs upd hmem
      rw [execBlocks_acc_slot hwf hroom htiles hmax hnodup hs hmem hupd,
        execBlocks_acc_slot hwf hroom' htiles' hmax' hnodup hs' hmem hupd, hacc]
      congr 1
      exact List.map_congr_left fun k hk => column_congr hwf hbase hrows (hwf.observed hmem hk)
  · refine .inl ⟨?_, ?_⟩
    · rw [← Option.not_isSome_iff_eq_none, hsuccess]
      exact hrows
    · rw [← Option.not_isSome_iff_eq_none, hsuccess', ← hiff]
      exact hrows

end Agree

end Run

end RowProgram
