import Mathlib.Data.List.Infix

/-!
# Delimited text

Pieces of text are written one after another with a delimiter between them, and read back by
cutting at the first occurrence of the delimiter, again and again. A delimiter that overlaps with
itself may occur before the place where it was written.
-/

namespace Delimited

variable {α : Type}

/-- The pieces with the delimiter between them. -/
def joined (d : List α) (a : List α) (as : List (List α)) : List α :=
  a ++ as.flatMap (d ++ ·)

lemma joined_cons (d a b : List α) (bs : List (List α)) :
    joined d a (b :: bs) = a ++ (d ++ joined d b bs) := by
  simp [joined]

/-- In `a` followed by the delimiter, the delimiter does not occur before the end of `a`. -/
def Clear (d a : List α) : Prop := ∀ t, t ≠ [] → t <:+ a → ¬ d <+: t ++ d

lemma clear_nil (d : List α) : Clear d [] := fun _ hne hsuffix => absurd (List.suffix_nil.mp hsuffix) hne

lemma clear_cons {d a : List α} {c : α} :
    Clear d (c :: a) ↔ ¬ d <+: c :: a ++ d ∧ Clear d a := by
  constructor
  · intro h
    refine ⟨h _ (List.cons_ne_nil c a) (List.suffix_refl _), fun t hne hsuffix => ?_⟩
    exact h t hne (hsuffix.trans (List.suffix_cons c a))
  · rintro ⟨hhead, htail⟩ t hne hsuffix
    rcases List.suffix_cons_iff.mp hsuffix with rfl | hsuffix
    · exact hhead
    · exact htail t hne hsuffix

/-- Only the first `d.length` elements decide whether `d` is a prefix. -/
lemma prefix_append_append {d t : List α} (rest : List α) : d <+: t ++ (d ++ rest) ↔ d <+: t ++ d := by
  rw [← List.append_assoc]
  constructor
  · intro h
    exact List.prefix_of_prefix_length_le h (List.prefix_append _ _) (by simp)
  · intro h
    exact h.trans (List.prefix_append _ _)

/-- An early occurrence lies in the text or overlaps with the delimiter. -/
lemma prefix_append_self_iff {d t : List α} :
    d <+: t ++ d ↔ d <+: t ∨ t.length < d.length ∧ t <+: d ∧ d.drop t.length <+: d := by
  constructor
  · intro h
    by_cases hlen : d.length ≤ t.length
    · exact .inl (List.prefix_of_prefix_length_le h (List.prefix_append t d) hlen)
    · have ht : t <+: d :=
        List.prefix_of_prefix_length_le (List.prefix_append t d) h (by omega)
      obtain ⟨u, rfl⟩ := ht
      refine .inr ⟨by omega, List.prefix_append t u, ?_⟩
      rw [List.drop_left]
      exact (List.prefix_append_right_inj t).mp h
  · rintro (h | ⟨-, ⟨u, rfl⟩, h⟩)
    · exact h.trans (List.prefix_append t d)
    · rw [List.drop_left] at h
      exact (List.prefix_append_right_inj t).mpr h

/-! ### Cutting at a delimiter -/

variable [DecidableEq α]

/-- The text before the first occurrence of the delimiter. -/
def before (d : List α) : List α → List α
  | [] => []
  | c :: cs => if d <+: c :: cs then [] else c :: before d cs

/-- The text after the first occurrence of the delimiter, if it occurs. -/
def after (d : List α) : List α → Option (List α)
  | [] => none
  | c :: cs => if d <+: c :: cs then some ((c :: cs).drop d.length) else after d cs

/-- The text after the first `n` occurrences. -/
def skip (d : List α) : Nat → List α → Option (List α)
  | 0, x => some x
  | n + 1, x => (after d x).bind (skip d n)

/-- The piece with number `n`; it is empty if there are not as many. -/
def field (d : List α) (n : Nat) (x : List α) : List α :=
  match skip d n x with
  | none => []
  | some y => before d y

lemma before_append_iff {d a : List α} (hd : d ≠ []) (rest : List α) :
    before d (a ++ (d ++ rest)) = a ↔ Clear d a := by
  induction a with
  | nil =>
    obtain ⟨e, es, rfl⟩ := List.exists_cons_of_ne_nil hd
    have hpre : e :: es <+: e :: (es ++ rest) := List.prefix_append (e :: es) rest
    rw [List.nil_append, List.cons_append, before, if_pos hpre]
    exact iff_of_true rfl (clear_nil _)
  | cons c a ih =>
    rw [clear_cons, ← prefix_append_append rest, List.cons_append, before]
    by_cases h : d <+: c :: (a ++ (d ++ rest))
    · rw [if_pos h]
      exact iff_of_false (List.cons_ne_nil c a).symm fun hclear => hclear.1 h
    · rw [if_neg h, List.cons.injEq, ih]
      exact ⟨fun hrest => ⟨h, hrest.2⟩, fun hclear => ⟨rfl, hclear.2⟩⟩

lemma after_append {d a : List α} (hd : d ≠ []) (h : Clear d a) (rest : List α) :
    after d (a ++ (d ++ rest)) = some rest := by
  induction a with
  | nil =>
    obtain ⟨e, es, rfl⟩ := List.exists_cons_of_ne_nil hd
    have hpre : e :: es <+: e :: (es ++ rest) := List.prefix_append (e :: es) rest
    rw [List.nil_append, List.cons_append, after, if_pos hpre]
    simp
  | cons c a ih =>
    rw [clear_cons, ← prefix_append_append rest, List.cons_append] at h
    rw [List.cons_append, after, if_neg h.1]
    exact ih h.2

/-- Text without the delimiter is not cut. -/
lemma before_of_not_infix {d a : List α} (h : ¬ d <:+: a) : before d a = a := by
  induction a with
  | nil => rfl
  | cons c a ih =>
    rw [before, if_neg fun hpre => h hpre.isInfix,
      ih fun hin => h (hin.trans (List.suffix_cons c a).isInfix)]

lemma after_of_not_infix {d a : List α} (h : ¬ d <:+: a) : after d a = none := by
  induction a with
  | nil => rfl
  | cons c a ih =>
    rw [after, if_neg fun hpre => h hpre.isInfix]
    exact ih fun hin => h (hin.trans (List.suffix_cons c a).isInfix)

/-! ### Reading the pieces back -/

lemma field_succ {d x y : List α} (h : after d x = some y) (n : Nat) :
    field d (n + 1) x = field d n y := by
  rw [field, skip, h, Option.bind_some, field]

/-- The pieces are read back if and only if the delimiter occurs before its place after no piece
but the last. -/
lemma field_joined_iff {d : List α} (hd : d ≠ []) {a : List α} {as : List (List α)}
    (h : ∀ x ∈ a :: as, ¬ d <:+: x) :
    (∀ n, field d n (joined d a as) = (a :: as).getD n []) ↔
      ∀ x ∈ (a :: as).dropLast, Clear d x := by
  induction as generalizing a with
  | nil =>
    have ha := h a List.mem_cons_self
    have hjoined : joined d a [] = a := List.append_nil a
    refine iff_of_true (fun n => ?_) fun x hx => absurd hx List.not_mem_nil
    rw [hjoined]
    cases n with
    | zero => exact before_of_not_infix ha
    | succ n => rw [field, skip, after_of_not_infix ha, Option.bind_none, List.getD_cons_succ,
        List.getD_nil]
  | cons b bs ih =>
    have ih := ih (a := b) fun x hx => h x (List.mem_cons_of_mem a hx)
    rw [joined_cons, List.dropLast_cons_cons, List.forall_mem_cons, ← ih]
    constructor
    · intro hread
      have hclear : Clear d a := (before_append_iff hd (joined d b bs)).mp (hread 0)
      refine ⟨hclear, fun n => ?_⟩
      rw [← field_succ (after_append hd hclear (joined d b bs)), hread (n + 1), List.getD_cons_succ]
    · rintro ⟨hclear, hread⟩ n
      cases n with
      | zero => exact (before_append_iff hd (joined d b bs)).mpr hclear
      | succ n => rw [field_succ (after_append hd hclear (joined d b bs)), hread n, List.getD_cons_succ]

end Delimited
