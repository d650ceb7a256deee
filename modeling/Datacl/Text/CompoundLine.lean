import Mathlib.Algebra.Order.BigOperators.Group.List
import Mathlib.Tactic.IntervalCases
import Datacl.Text.Values

/-!
# The lines of a compound expression

While a compound expression is open, every call is written to a file as one line, from which its
arguments are read again when the expression is executed.
-/

namespace Datacl

open Delimited

/-- What separates the arguments. -/
def compoundDelim : List Char := ['_', '_', '@', '@', '_', '_']

/-- `is_in_compound`: whether a compound expression is open, and the file with the expressions. -/
def isInCompound (flag : Int) (argv : List (List Char)) (file : List Char) :
    Option (Bool × List Char) :=
  if flag = 0 then some (false, file)
  else if flag = 1 then
    match argv with
    | _ :: arg :: args => some (true, file ++ (arg ++ args.flatMap (compoundDelim ++ ·) ++ ['\n']))
    | _ => none
  else none

/-- The line written for the arguments gives each of them back, and nothing after the last one. -/
def RoundTrips (argv0 : List Char) (args : List (List Char)) (file : List Char) : Prop :=
  ∃ line, isInCompound 1 (argv0 :: args) file = some (true, file ++ line) ∧
    ∀ n lenOutStr, 2 ≤ lenOutStr → (∀ a ∈ args, a.length < lenOutStr) →
      readNthVal line compoundDelim n lenOutStr = some (args.getD n [])

/-- The delimiter occurs early if the argument contains it or ends with all of it but its last or
its last two characters. -/
lemma clear_compoundDelim {a : List Char} (h : ¬ compoundDelim <:+: a) :
    Clear compoundDelim a ↔
      ¬ ['_', '_', '@', '@'] <:+ a ∧ ¬ ['_', '_', '@', '@', '_'] <:+ a := by
  constructor
  · intro hclear
    exact ⟨fun hsuffix => hclear _ (by simp) hsuffix (by decide),
      fun hsuffix => hclear _ (by simp) hsuffix (by decide)⟩
  · rintro ⟨hfour, hfive⟩ t hne hsuffix hearly
    rcases prefix_append_self_iff.mp hearly with hpre | ⟨hlt, ht, hborder⟩
    · exact h (hpre.isInfix.trans hsuffix.isInfix)
    · rw [List.prefix_iff_eq_take.mp ht] at hsuffix
      have hpos : 0 < t.length := List.length_pos_iff.mpr hne
      change t.length < 6 at hlt
      generalize t.length = m at hsuffix hborder hpos hlt
      interval_cases m
      · exact absurd hborder (by decide)
      · exact absurd hborder (by decide)
      · exact absurd hborder (by decide)
      · exact hfour hsuffix
      · exact hfive hsuffix

section

variable {a : List Char} {as : List (List Char)}

lemma newline_not_mem_joined (h : ∀ x ∈ a :: as, '\n' ∉ x) : '\n' ∉ joined compoundDelim a as := by
  rw [List.forall_mem_cons] at h
  intro hmem
  rcases List.mem_append.mp hmem with ha | has
  · exact h.1 ha
  · obtain ⟨x, hx, hmem⟩ := List.mem_flatMap.mp has
    rcases List.mem_append.mp hmem with hdelim | hmem
    · exact absurd hdelim (by decide)
    · exact h.2 x hx hmem

/-- The arguments are read back if and only if the pieces of the line are. -/
lemma roundTrips_iff_field (argv0 file : List Char) (h : ∀ x ∈ a :: as, '\n' ∉ x) :
    RoundTrips argv0 (a :: as) file ↔
      ∀ n, field compoundDelim n (joined compoundDelim a as) = (a :: as).getD n [] := by
  have hread : ∀ n lenOutStr, 2 ≤ lenOutStr →
      readNthVal (joined compoundDelim a as ++ ['\n']) compoundDelim n lenOutStr =
        if (field compoundDelim n (joined compoundDelim a as)).length < lenOutStr then
          some (field compoundDelim n (joined compoundDelim a as)) else none := fun n lenOutStr hlen =>
    readNthVal_line (by decide) (by decide) (newline_not_mem_joined h) n hlen
  constructor
  · rintro ⟨line, hwrite, hvals⟩ n
    have hline : joined compoundDelim a as ++ ['\n'] = line :=
      List.append_cancel_left (Prod.ext_iff.mp (Option.some.inj hwrite)).2
    have hroom : ∀ x ∈ a :: as, x.length < ((a :: as).map List.length).sum + 2 := by
      intro x hx
      have hle : x.length ≤ ((a :: as).map List.length).sum :=
        List.le_sum_of_mem (List.mem_map_of_mem hx)
      omega
    have hval := hvals n _ (Nat.le_add_left 2 _) hroom
    rw [← hline, hread n _ (Nat.le_add_left 2 _)] at hval
    split_ifs at hval
    exact Option.some.inj hval
  · intro hfield
    refine ⟨_, rfl, fun n lenOutStr hlen hroom => ?_⟩
    have hlt : ((a :: as).getD n []).length < lenOutStr := by
      rw [List.getD_eq_getElem?_getD]
      cases hn : (a :: as)[n]? with
      | none => exact Nat.lt_of_lt_of_le Nat.two_pos hlen
      | some x => exact hroom x (List.mem_of_getElem? hn)
    exact (hread n lenOutStr hlen).trans (by rw [hfield, if_pos hlt])

/-- The arguments of a call are read back from its line if and only if none but the last ends with
`__@@` or `__@@_`. -/
theorem roundTrips_iff (argv0 file : List Char)
    (h : ∀ x ∈ a :: as, '\n' ∉ x ∧ ¬ compoundDelim <:+: x) :
    RoundTrips argv0 (a :: as) file ↔
      ∀ x ∈ (a :: as).dropLast, ¬ ['_', '_', '@', '@'] <:+ x ∧ ¬ ['_', '_', '@', '@', '_'] <:+ x := by
  rw [roundTrips_iff_field argv0 file fun x hx => (h x hx).1,
    field_joined_iff (by decide) fun x hx => (h x hx).2]
  refine forall₂_congr fun x hx => clear_compoundDelim (h x (List.mem_of_mem_dropLast hx)).2

end

/-- An argument may end with underscores. -/
theorem roundTrips_underscores :
    (∀ x ∈ [['f', '_', '_'], ['_', '@', '@', '_'], []], '\n' ∉ x ∧ ¬ compoundDelim <:+: x) ∧
      RoundTrips ['q'] [['f', '_', '_'], ['_', '@', '@', '_'], []] [] := by
  have h : ∀ x ∈ [['f', '_', '_'], ['_', '@', '@', '_'], []], '\n' ∉ x ∧ ¬ compoundDelim <:+: x := by
    decide
  exact ⟨h, (roundTrips_iff ['q'] [] h).mpr (by decide)⟩

/-- The first argument `f__@@` comes back as `f`. -/
theorem not_roundTrips_shifted : ¬ RoundTrips ['q'] [['f', '_', '_', '@', '@'], ['g']] [] := by
  rintro ⟨line, hwrite, hvals⟩
  have hline : line = ['f', '_', '_', '@', '@', '_', '_', '@', '@', '_', '_', 'g', '\n'] :=
    ((Prod.ext_iff.mp (Option.some.inj hwrite)).2).symm
  have hval := hvals 0 16 (by decide) (by decide)
  rw [hline] at hval
  exact absurd hval (by decide)

end Datacl
