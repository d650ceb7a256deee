import Mathlib.Algebra.Group.Int.Defs
import Mathlib.Algebra.Group.Nat.Defs
import Datacl.Lib.Delimited

/-!
# Values in text

`read_nth_val` takes one value out of a line of delimited values and `stoI8` reads a number. A C
string is the list of its characters without the terminating NUL.
-/

namespace Datacl

/-! ### `read_nth_val` -/

/-- Advance behind the next delimiter of the line, if there is one. -/
def crossDelim (delim : List Char) : List Char → Option (List Char)
  | [] => none
  | c :: cs =>
    if c = '\n' then none
    else if delim <+: c :: cs then some ((c :: cs).drop delim.length)
    else crossDelim delim cs

/-- Advance until `n` delimiters have been crossed. -/
def crossDelims (delim : List Char) : Nat → List Char → Option (List Char)
  | 0, cptr => some cptr
  | n + 1, cptr =>
    match crossDelim delim cptr with
    | none => none
    | some cptr => crossDelims delim n cptr

/-- Copy up to the next delimiter or the end of the line, if there is room. -/
def copyVal (delim : List Char) : List Char → Nat → Option (List Char)
  | [], _ => some []
  | c :: cs, room =>
    if c = '\n' then some []
    else if delim <+: c :: cs then some []
    else if room = 0 then none
    else (copyVal delim cs (room - 1)).map (c :: ·)

/-- `read_nth_val`: the value with number `n`, which is empty if there are not as many; `none` if it
does not fit into `lenOutStr` characters with its NUL. -/
def readNthVal (inStr delim : List Char) (n lenOutStr : Nat) : Option (List Char) :=
  if lenOutStr < 2 then none
  else if delim = [] then none
  else
    match crossDelims delim n inStr with
    | none => some []
    | some cptr => copyVal delim cptr (lenOutStr - 1)

section

variable {delim x : List Char}

/-- An occurrence of the delimiter does not reach over the end of the line. -/
lemma prefix_append_newline (hdelim : '\n' ∉ delim) (x : List Char) :
    delim <+: x ++ ['\n'] ↔ delim <+: x := by
  constructor
  · intro h
    by_cases hlen : delim.length ≤ x.length
    · exact List.prefix_of_prefix_length_le h (List.prefix_append x _) hlen
    · have heq : delim = x ++ ['\n'] := by
        apply h.eq_of_length_le
        rw [List.length_append, List.length_singleton]
        omega
      exact absurd (heq ▸ List.mem_append_right x (List.mem_singleton_self '\n')) hdelim
  · intro h
    exact h.trans (List.prefix_append x _)

lemma crossDelim_line (hdelim : '\n' ∉ delim) (hx : '\n' ∉ x) :
    crossDelim delim (x ++ ['\n']) = (Delimited.after delim x).map (· ++ ['\n']) := by
  induction x with
  | nil => rfl
  | cons c cs ih =>
    rw [List.mem_cons, not_or] at hx
    rw [List.cons_append, crossDelim, if_neg (Ne.symm hx.1), ← List.cons_append, Delimited.after]
    by_cases h : delim <+: c :: cs
    · rw [if_pos ((prefix_append_newline hdelim _).mpr h), if_pos h, Option.map_some,
        List.drop_append_of_le_length h.length_le]
    · rw [if_neg (mt (prefix_append_newline hdelim _).mp h), if_neg h]
      exact ih hx.2

lemma after_subset {y : List Char} (h : Delimited.after delim x = some y) : y ⊆ x := by
  induction x with
  | nil => cases h
  | cons c cs ih =>
    rw [Delimited.after] at h
    split_ifs at h with hpre
    · cases h
      exact List.drop_subset _ _
    · exact List.Subset.trans (ih h) (List.subset_cons_self c cs)

lemma crossDelims_line (hdelim : '\n' ∉ delim) (hx : '\n' ∉ x) (n : Nat) :
    crossDelims delim n (x ++ ['\n']) = (Delimited.skip delim n x).map (· ++ ['\n']) := by
  induction n generalizing x with
  | zero => rfl
  | succ n ih =>
    rw [crossDelims, crossDelim_line hdelim hx, Delimited.skip]
    cases hafter : Delimited.after delim x with
    | none => rfl
    | some y => exact ih fun hy => hx (after_subset hafter hy)

lemma skip_subset {y : List Char} {n : Nat} (h : Delimited.skip delim n x = some y) : y ⊆ x := by
  induction n generalizing x with
  | zero =>
    cases h
    exact List.Subset.refl _
  | succ n ih =>
    obtain ⟨z, hafter, hskip⟩ := Option.bind_eq_some_iff.mp h
    exact List.Subset.trans (ih hskip) (after_subset hafter)

lemma copyVal_line (hdelim : '\n' ∉ delim) (hx : '\n' ∉ x) (room : Nat) :
    copyVal delim (x ++ ['\n']) room =
      if (Delimited.before delim x).length ≤ room then some (Delimited.before delim x) else none := by
  induction x generalizing room with
  | nil => simp [copyVal, Delimited.before]
  | cons c cs ih =>
    rw [List.mem_cons, not_or] at hx
    rw [List.cons_append, copyVal, if_neg (Ne.symm hx.1), ← List.cons_append, Delimited.before]
    by_cases h : delim <+: c :: cs
    · rw [if_pos ((prefix_append_newline hdelim _).mpr h), if_pos h]
      simp
    · rw [if_neg (mt (prefix_append_newline hdelim _).mp h), if_neg h]
      rw [ih hx.2, List.length_cons]
      by_cases hroom : (Delimited.before delim cs).length + 1 ≤ room
      · rw [if_neg (by omega), if_pos (by omega), if_pos hroom, Option.map_some]
      · rw [if_neg hroom]
        by_cases h0 : room = 0
        · rw [if_pos h0]
        · rw [if_neg h0, if_neg (by omega), Option.map_none]

/-- `read_nth_val` on a line reads a piece of delimited text. -/
lemma readNthVal_line (hne : delim ≠ []) (hdelim : '\n' ∉ delim) (hx : '\n' ∉ x) (n : Nat)
    {lenOutStr : Nat} (hlen : 2 ≤ lenOutStr) :
    readNthVal (x ++ ['\n']) delim n lenOutStr =
      if (Delimited.field delim n x).length < lenOutStr then some (Delimited.field delim n x)
      else none := by
  rw [readNthVal, if_neg (by omega), if_neg hne, crossDelims_line hdelim hx, Delimited.field]
  cases hskip : Delimited.skip delim n x with
  | none =>
    dsimp only [Option.map_none]
    rw [if_pos (by rw [List.length_nil]; omega)]
  | some y =>
    dsimp only [Option.map_some]
    rw [copyVal_line hdelim (fun hy => hx (skip_subset hskip hy))]
    simp only [Nat.lt_iff_le_pred (show 0 < lenOutStr by omega)]

/-! Two values with a one-character delimiter between them. -/

section

variable {d : Char} {y : List Char}

lemma prefix_singleton {c : Char} {cs : List Char} : [d] <+: c :: cs ↔ d = c := by
  rw [List.cons_prefix_cons]
  exact and_iff_left (List.nil_prefix)

lemma crossDelim_pair (hd : d ≠ '\n') (hx : ∀ c ∈ x, c ≠ '\n' ∧ c ≠ d) :
    crossDelim [d] (x ++ d :: y) = some y := by
  induction x with
  | nil =>
    rw [List.nil_append, crossDelim, if_neg hd, if_pos (prefix_singleton.mpr rfl)]
    rfl
  | cons c cs ih =>
    rw [List.forall_mem_cons] at hx
    rw [List.cons_append, crossDelim, if_neg hx.1.1, if_neg (mt prefix_singleton.mp hx.1.2.symm)]
    exact ih hx.2

lemma copyVal_pair (hx : ∀ c ∈ x, c ≠ '\n' ∧ c ≠ d) {room : Nat} (hroom : x.length ≤ room) {rest : List Char}
    (hrest : rest = [] ∨ ∃ z, rest = d :: z) (hd : d ≠ '\n') : copyVal [d] (x ++ rest) room = some x := by
  induction x generalizing room with
  | nil =>
    rcases hrest with rfl | ⟨z, rfl⟩
    · rfl
    · rw [List.nil_append, copyVal, if_neg hd, if_pos (prefix_singleton.mpr rfl)]
  | cons c cs ih =>
    rw [List.forall_mem_cons] at hx
    rw [List.length_cons] at hroom
    rw [List.cons_append, copyVal, if_neg hx.1.1, if_neg (mt prefix_singleton.mp hx.1.2.symm),
      if_neg (by omega), ih hx.2 (by omega), Option.map_some]

/-- The values of a pair that fit are read back. -/
lemma readNthVal_pair (hd : d ≠ '\n') (hx : ∀ c ∈ x, c ≠ '\n' ∧ c ≠ d) (hy : ∀ c ∈ y, c ≠ '\n' ∧ c ≠ d)
    {lenOutStr : Nat} (hlen : x.length < lenOutStr ∧ y.length < lenOutStr) (h2 : 2 ≤ lenOutStr) :
    readNthVal (x ++ d :: y) [d] 0 lenOutStr = some x ∧ readNthVal (x ++ d :: y) [d] 1 lenOutStr = some y := by
  unfold readNthVal
  rw [if_neg (by omega), if_neg (List.cons_ne_nil d []), if_neg (by omega), if_neg (List.cons_ne_nil d [])]
  simp only [crossDelims, crossDelim_pair hd hx]
  refine ⟨copyVal_pair hx (by omega) (.inr ⟨y, rfl⟩) hd, ?_⟩
  have hcopy := copyVal_pair hy (show y.length ≤ lenOutStr - 1 by omega) (.inl rfl) hd
  rwa [List.append_nil] at hcopy

end

end

/-! ### Numbers -/

/-- `isspace`. -/
def isSpaceC (c : Char) : Bool := c ∈ [' ', '\t', '\n', Char.ofNat 11, Char.ofNat 12, '\r']

/-- The sign, if there is one, and the rest. -/
def splitSign : List Char → Bool × List Char
  | '-' :: cs => (true, cs)
  | '+' :: cs => (false, cs)
  | cs => (false, cs)

/-- The number that decimal digits stand for. -/
def ofDigits (digits : List Char) : Int :=
  digits.foldl (fun v c => 10 * v + (c.toNat - '0'.toNat : Nat)) 0

/-- `stoI8`: `strtoll` to base 10, which saturates, has to use the whole string. -/
def stoI8 (x : List Char) : Option Int :=
  let (negative, digits) := splitSign (x.dropWhile isSpaceC)
  if digits = [] ∨ digits.all Char.isDigit = false then none
  else if negative then some (max (-2 ^ 63) (-ofDigits digits))
  else some (min (2 ^ 63 - 1) (ofDigits digits))

/-! ### Numbers that are printed -/

lemma isDigit_ne {c : Char} (h : c.isDigit = true) :
    c ≠ '-' ∧ c ≠ '+' ∧ c ≠ '\n' ∧ c ≠ ':' ∧ isSpaceC c = false := by
  refine ⟨?_, ?_, ?_, ?_, ?_⟩
  · rintro rfl
    cases h
  · rintro rfl
    cases h
  · rintro rfl
    cases h
  · rintro rfl
    cases h
  · rw [isSpaceC, decide_eq_false_iff_not]
    intro hc
    simp only [List.mem_cons, List.not_mem_nil, or_false] at hc
    rcases hc with rfl | rfl | rfl | rfl | rfl | rfl <;> cases h

lemma ofDigits_eq (digits : List Char) : ofDigits digits = Nat.ofDigitChars 10 digits 0 := by
  have hfold : ∀ (v : Nat) (l : List Char), l.foldl (fun (v : Int) c => 10 * v + (c.toNat - '0'.toNat : Nat)) v =
      Nat.ofDigitChars 10 l v := by
    intro v l
    induction l generalizing v with
    | nil => rfl
    | cons c l ih =>
      rw [List.foldl_cons, Nat.ofDigitChars_cons, ← ih]
      push_cast
      rfl
  exact hfold 0 digits

/-- A number that is printed is read back. -/
lemma stoI8_toDigits {n : Nat} (h : n < 2 ^ 63) : stoI8 (Nat.toDigits 10 n) = some (n : Int) := by
  have hdigit : ∀ c ∈ Nat.toDigits 10 n, c.isDigit = true := fun c hc =>
    Nat.isDigit_of_mem_toDigits (by decide) (by decide) hc
  have hval : ofDigits (Nat.toDigits 10 n) = n := by
    rw [ofDigits_eq, Nat.ofDigitChars_toDigits (by decide) (by decide)]
  obtain ⟨c, cs, hcons⟩ := List.exists_cons_of_ne_nil (Nat.toDigits_ne_nil (n := n) (b := 10))
  rw [hcons] at hdigit hval ⊢
  have hc := isDigit_ne (hdigit c List.mem_cons_self)
  have hall : (c :: cs).all Char.isDigit = true := List.all_eq_true.mpr hdigit
  have hsign : splitSign (c :: cs) = (false, c :: cs) := by
    unfold splitSign
    split
    · next heq => exact absurd (List.cons.inj heq).1 hc.1
    · next heq => exact absurd (List.cons.inj heq).1 hc.2.1
    · rfl
  have hdrop : (c :: cs).dropWhile isSpaceC = c :: cs := by
    rw [List.dropWhile_cons, hc.2.2.2.2]
    rfl
  rw [stoI8, hdrop, hsign]
  dsimp only
  rw [if_neg (by simp [hall]), if_neg Bool.false_ne_true, hval]
  exact congrArg some (by omega)

/-- The text of the sum and of the number of values, as `f_to_s` gives it. -/
lemma toList_pair (a b : Nat) : (toString (a : Int) ++ ":" ++ toString (b : Int)).toList =
    Nat.toDigits 10 a ++ ':' :: Nat.toDigits 10 b := by
  have hint : ∀ n : Nat, toString (n : Int) = Nat.repr n := fun _ => rfl
  rw [hint, hint, String.toList_append, String.toList_append, Nat.toList_repr, Nat.toList_repr]
  rw [List.append_assoc]
  rfl

lemma length_toDigits {n : Nat} (h : n < 2 ^ 63) : (Nat.toDigits 10 n).length ≤ 19 :=
  (Nat.length_toDigits_le_iff (by decide) (by decide)).mpr (h.trans (by decide))

/-- A pair of numbers that is printed is read back. -/
lemma readNthVal_toList_pair {a b : Nat} (ha : a < 2 ^ 63) (hb : b < 2 ^ 63) :
    readNthVal (toString (a : Int) ++ ":" ++ toString (b : Int)).toList [':'] 0 32 = some (Nat.toDigits 10 a) ∧
      readNthVal (toString (a : Int) ++ ":" ++ toString (b : Int)).toList [':'] 1 32 =
        some (Nat.toDigits 10 b) := by
  have hdigits : ∀ n : Nat, ∀ c ∈ Nat.toDigits 10 n, c ≠ '\n' ∧ c ≠ ':' := fun n c hc =>
    have hne := isDigit_ne (Nat.isDigit_of_mem_toDigits (by decide) (by decide) hc)
    ⟨hne.2.2.1, hne.2.2.2.1⟩
  have hla := length_toDigits ha
  have hlb := length_toDigits hb
  rw [toList_pair]
  exact readNthVal_pair (by decide) (hdigits a) (hdigits b) ⟨by omega, by omega⟩ (by decide)

end Datacl
