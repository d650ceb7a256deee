import Mathlib.Tactic
import Mathlib.Data.List.TakeWhile

/-!
# Tokens between separators

The tokens of a list are its maximal pieces without a separator.
-/

namespace Tokens

variable {α : Type} {p : α → Bool}

/-- The pieces between separators that are not empty. -/
def tokens (p : α → Bool) (s : List α) : List (List α) := (s.splitOnP p).filter (fun w => decide (w ≠ []))

/-- A separator ends a token. -/
lemma tokens_append_cons {d : α} (hd : p d = true) (s t : List α) :
    tokens p (s ++ d :: t) = tokens p s ++ tokens p t := by
  rw [tokens, List.splitOnP_append_cons s t hd, List.filter_append]
  rfl

lemma tokens_of_forall {s : List α} (hne : s ≠ []) (h : ∀ c ∈ s, p c = false) : tokens p s = [s] := by
  rw [tokens, List.splitOnP_eq_singleton h, List.filter_cons_of_pos (by simpa using hne), List.filter_nil]

@[simp] lemma tokens_nil : tokens p ([] : List α) = [] := by
  rw [tokens, List.splitOnP_nil, List.filter_cons_of_neg (by simp), List.filter_nil]

/-- Separators in front are passed over. -/
lemma tokens_dropWhile (s : List α) : tokens p (s.dropWhile p) = tokens p s := by
  induction s with
  | nil => rfl
  | cons c s ih =>
    by_cases hc : p c = true
    · have hcons := tokens_append_cons hc [] s
      rw [tokens_nil, List.nil_append, List.nil_append] at hcons
      rw [List.dropWhile_cons_of_pos hc, ih, hcons]
    · rw [List.dropWhile_cons_of_neg hc]

/-- The elements of a token come from the list and are no separators. -/
lemma of_mem_tokens {s w : List α} (hw : w ∈ tokens p s) : w ≠ [] ∧ ∀ c ∈ w, c ∈ s ∧ p c = false := by
  induction hlen : s.length using Nat.strong_induction_on generalizing s with
  | _ n ih =>
    have hsplit := List.takeWhile_append_dropWhile (p := fun c => !p c) (l := s)
    have htoken : ∀ c ∈ s.takeWhile (fun c => !p c), c ∈ s ∧ p c = false := by
      intro c hc
      exact ⟨(List.takeWhile_subset _) hc, by simpa using List.mem_takeWhile_imp hc⟩
    cases hrest : s.dropWhile (fun c => !p c) with
    | nil =>
      rw [hrest, List.append_nil] at hsplit
      rw [hsplit] at htoken
      by_cases hs : s = []
      · rw [hs, tokens_nil] at hw
        cases hw
      · rw [tokens_of_forall hs (fun c hc => (htoken c hc).2), List.mem_singleton] at hw
        subst hw
        exact ⟨hs, htoken⟩
    | cons d t =>
      have hd : p d = true := by
        have hhead := List.head?_dropWhile_not (fun c => !p c) s
        rw [hrest] at hhead
        simpa using hhead
      rw [hrest] at hsplit
      have hshort : t.length < n := by
        rw [← hlen, ← hsplit, List.length_append, List.length_cons]
        omega
      rw [← hsplit, tokens_append_cons hd, List.mem_append] at hw
      obtain hw | hw := hw
      · by_cases hnil : s.takeWhile (fun c => !p c) = []
        · rw [hnil, tokens_nil] at hw
          cases hw
        · rw [tokens_of_forall hnil (fun c hc => (htoken c hc).2), List.mem_singleton] at hw
          subst hw
          exact ⟨hnil, htoken⟩
      · obtain ⟨hne, hall⟩ := ih t.length hshort hw rfl
        refine ⟨hne, fun c hc => ⟨?_, (hall c hc).2⟩⟩
        rw [← hsplit]
        exact List.mem_append_right _ (List.mem_cons_of_mem _ (hall c hc).1)

end Tokens
