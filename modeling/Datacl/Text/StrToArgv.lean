import Datacl.Lib.InPlace
import Datacl.Lib.Tokens
import Datacl.Text.Values

/-!
# Splitting a command: `str_to_argv`

The string is read through one cursor, up to its NUL; the arguments are written to buffers that begin with
zeros. Reads and writes are checked. Afterwards a pair of single quotes around an argument is deleted in
place.
-/

namespace Datacl

open InPlace Tokens

/-- The NUL character. -/
def nulC : Char := Char.ofNat 0

/-- The single quote. -/
def quoteC : Char := Char.ofNat 39

/-- Why there are no arguments: an access outside the string or a buffer, status -1, or a loop without end. -/
inductive ArgvStop where
  | outside
  | bye
  | running
  deriving DecidableEq, Repr

abbrev ArgvRun (α : Type) := Except ArgvStop α

lemma ok_bind {α β : Type} (a : α) (f : α → ArgvRun β) : ((.ok a : ArgvRun α) >>= f) = f a := rfl

lemma error_bind {α β : Type} (e : ArgvStop) (f : α → ArgvRun β) :
    ((.error e : ArgvRun α) >>= f) = .error e := rfl

/-- An access that has to be inside. -/
def inside {α : Type} : Option α → ArgvRun α
  | none => .error .outside
  | some a => .ok a

/-! ### Reading the string -/

/-- The loop that skips spaces, from the cursor on. -/
def skipSpaces : List Char → ArgvRun (List Char)
  | [] => .error .outside
  | c :: cptr => if c ≠ nulC ∧ isSpaceC c then skipSpaces cptr else .ok (c :: cptr)

/-- `qargv[i][j] = c` -/
def putArg (qargv : List (List Char)) (i j : Nat) (c : Char) : ArgvRun (List (List Char)) :=
  inside do
    let buf ← qargv[i]?
    let buf ← put buf j c
    put qargv i buf

/-- The loop that copies an argument: the cursor behind it, `all_done` and the buffers. -/
def copyArg (maxNumArgs maxLenArg qargc : Nat) :
    List Char → Nat → List (List Char) → ArgvRun (List Char × Bool × List (List Char))
  | [], _, _ => .error .outside
  | c :: cptr, argidx, qargv =>
    if maxNumArgs ≤ qargc then .error .bye
    else if isSpaceC c ∨ c = nulC then .ok (cptr, decide (c = nulC), qargv)
    else if maxLenArg ≤ argidx then .error .bye
    else do
      let qargv ← putArg qargv qargc argidx c
      copyArg maxNumArgs maxLenArg qargc cptr (argidx + 1) qargv

/-- The first loop of `str_to_argv`: `qargc` and the buffers. -/
def splitArgs (maxNumArgs maxLenArg : Nat) :
    Nat → List Char → Nat → List (List Char) → ArgvRun (Nat × List (List Char))
  | 0, _, _, _ => .error .running
  | fuel + 1, cptr, qargc, qargv => do
    let cptr ← skipSpaces cptr
    let c ← inside cptr.head?
    if c = nulC then .ok (qargc, qargv)
    else
      let (cptr, allDone, qargv) ← copyArg maxNumArgs maxLenArg qargc cptr 0 qargv
      if allDone then .ok (qargc + 1, qargv)
      else splitArgs maxNumArgs maxLenArg fuel cptr (qargc + 1) qargv

/-! ### Deleting quotes -/

/-- `buf[j]` -/
def charAt (buf : List Char) (j : Int) : Option Char := if j < 0 then none else buf[j.toNat]?

/-- `buf[j] = c` -/
def putChar (buf : List Char) (j : Int) (c : Char) : Option (List Char) :=
  if j < 0 then none else put buf j.toNat c

/-- `strlen` -/
def strLen : List Char → Option Nat
  | [] => none
  | c :: buf => if c = nulC then some 0 else (strLen buf).map (· + 1)

/-- `buf[j] = buf[j+1]` -/
def shiftChar (buf : List Char) (j : Nat) : Option (List Char) := do
  let c ← charAt buf (j + 1)
  putChar buf j c

/-- The quotes of one argument. `len - 2` is negative for an argument of one character. -/
def unquoteArg (buf : List Char) : ArgvRun (List Char) := do
  let c ← inside (charAt buf 0)
  if c = quoteC then
    let len ← inside (strLen buf)
    let last ← inside (charAt buf ((len : Int) - 1))
    if last ≠ quoteC then .error .bye
    else inside do
      let buf ← (List.range (len - 2)).foldlM shiftChar buf
      let buf ← putChar buf ((len : Int) - 1) nulC
      putChar buf ((len : Int) - 2) nulC
  else .ok buf

/-- One round of the loop over the arguments. -/
def unquoteStep (qargv : List (List Char)) (i : Nat) : ArgvRun (List (List Char)) := do
  let buf ← inside qargv[i]?
  let buf ← unquoteArg buf
  inside (put qargv i buf)

/-- `str_to_argv`: `qargc` and the buffers. Every round of the first loop reads a character of the string. -/
def strToArgv (maxNumArgs maxLenArg : Nat) (qstr : List Char) (qargv : List (List Char)) :
    ArgvRun (Nat × List (List Char)) := do
  let (qargc, qargv) ← splitArgs maxNumArgs maxLenArg (qstr.length + 1) (qstr ++ [nulC]) 0 qargv
  let qargv ← (List.range qargc).foldlM unquoteStep qargv
  .ok (qargc, qargv)

/-! ### Buffers -/

/-- A buffer of `max_len_arg + 1` characters with a word and zeros. -/
def padded (maxLenArg : Nat) (w : List Char) : List Char :=
  w ++ List.replicate (maxLenArg + 1 - w.length) nulC

/-- Buffers with words; the others are zero-filled. -/
def buffers (maxNumArgs maxLenArg : Nat) (ws : List (List Char)) : List (List Char) :=
  ws.map (padded maxLenArg) ++ List.replicate (maxNumArgs - ws.length) (padded maxLenArg [])

/-- The words of a command. -/
def argWords (qstr : List Char) : List (List Char) := tokens isSpaceC qstr

section

variable {maxNumArgs maxLenArg fuel : Nat} {s t v w : List Char} {done : List (List Char)} {c d : Char}

lemma put_padded (hv : v.length ≤ maxLenArg) (c : Char) :
    put (padded maxLenArg v) v.length c = some (padded maxLenArg (v ++ [c])) := by
  have hzeros : maxLenArg + 1 - v.length = maxLenArg - v.length + 1 := by omega
  have hrest : maxLenArg + 1 - (v ++ [c]).length = maxLenArg - v.length := by
    rw [List.length_append, List.length_singleton]
    omega
  rw [put_of_lt (by rw [padded, List.length_append, List.length_replicate]; omega), padded, padded, hzeros,
    hrest, List.replicate_succ, List.set_append_right _ _ le_rfl, Nat.sub_self, List.set_cons_zero,
    List.append_assoc, List.singleton_append]

lemma buffers_next (hlt : done.length < maxNumArgs) :
    buffers maxNumArgs maxLenArg done = done.map (padded maxLenArg) ++
      padded maxLenArg [] :: List.replicate (maxNumArgs - (done.length + 1)) (padded maxLenArg []) := by
  have hsucc : maxNumArgs - done.length = maxNumArgs - (done.length + 1) + 1 := by omega
  rw [buffers, hsucc, List.replicate_succ]

lemma buffers_snoc (w : List Char) :
    buffers maxNumArgs maxLenArg (done ++ [w]) = done.map (padded maxLenArg) ++
      padded maxLenArg w :: List.replicate (maxNumArgs - (done.length + 1)) (padded maxLenArg []) := by
  rw [buffers, List.map_append, List.length_append, List.length_singleton, List.append_assoc,
    List.map_singleton, List.singleton_append]

/-! ### The first loop -/

lemma skipSpaces_eq (hs : nulC ∉ s) : skipSpaces (s ++ [nulC]) = .ok (s.dropWhile isSpaceC ++ [nulC]) := by
  induction s with
  | nil =>
    rw [List.nil_append, skipSpaces, if_neg (fun h => h.1 rfl)]
    rfl
  | cons c s ih =>
    rw [List.mem_cons, not_or] at hs
    rw [List.cons_append, skipSpaces]
    by_cases hc : isSpaceC c = true
    · rw [if_pos ⟨Ne.symm hs.1, hc⟩, ih hs.2, List.dropWhile_cons_of_pos hc]
    · rw [if_neg (fun h => hc h.2), List.dropWhile_cons_of_neg hc, List.cons_append]

/-- Copying the rest `w` of a word whose beginning `v` is in its buffer. -/
lemma copyArg_eq (maxLenArg : Nat) (bufs others : List (List Char)) (hlt : bufs.length < maxNumArgs)
    (hw : ∀ c ∈ w, isSpaceC c = false ∧ c ≠ nulC) (hd : isSpaceC d = true ∨ d = nulC)
    (hv : v.length ≤ maxLenArg) :
    copyArg maxNumArgs maxLenArg bufs.length (w ++ d :: t) v.length (bufs ++ padded maxLenArg v :: others) =
      if (v ++ w).length ≤ maxLenArg then
        .ok (t, decide (d = nulC), bufs ++ padded maxLenArg (v ++ w) :: others)
      else .error .bye := by
  induction w generalizing v with
  | nil =>
    rw [List.nil_append, copyArg, if_neg (not_le.mpr hlt), if_pos hd, List.append_nil, if_pos hv]
  | cons c w ih =>
    obtain ⟨hspace, hnul⟩ := hw c List.mem_cons_self
    have hno : ¬ (isSpaceC c = true ∨ c = nulC) := by
      rintro (h | h)
      · rw [hspace] at h
        cases h
      · exact hnul h
    rw [List.cons_append, copyArg, if_neg (not_le.mpr hlt), if_neg hno]
    by_cases hroom : maxLenArg ≤ v.length
    · rw [if_pos hroom, if_neg (by rw [List.length_append, List.length_cons]; omega)]
    · have hput : putArg (bufs ++ padded maxLenArg v :: others) bufs.length v.length c =
          .ok (bufs ++ padded maxLenArg (v ++ [c]) :: others) := by
        simp only [putArg, getElem?_middle, Option.bind_eq_bind, Option.bind_some, put_padded hv,
          put_middle]
        rfl
      have hlen : (v ++ [c]).length = v.length + 1 := by rw [List.length_append, List.length_singleton]
      have hstep := ih (fun a ha => hw a (List.mem_cons_of_mem _ ha)) (v := v ++ [c]) (by omega)
      rw [hlen, List.append_assoc, List.singleton_append] at hstep
      rw [if_neg hroom, hput]
      exact hstep

/-- The words of a text fit in the buffers that are left. -/
def Fit (maxNumArgs maxLenArg qargc : Nat) (ws : List (List Char)) : Prop :=
  qargc + ws.length ≤ maxNumArgs ∧ ∀ w ∈ ws, w.length ≤ maxLenArg

instance (maxNumArgs maxLenArg qargc : Nat) (ws : List (List Char)) :
    Decidable (Fit maxNumArgs maxLenArg qargc ws) :=
  inferInstanceAs (Decidable (_ ∧ _))

lemma fit_cons {qargc : Nat} {ws : List (List Char)} :
    Fit maxNumArgs maxLenArg qargc (w :: ws) ↔
      w.length ≤ maxLenArg ∧ Fit maxNumArgs maxLenArg (qargc + 1) ws := by
  rw [Fit, Fit, List.forall_mem_cons, List.length_cons]
  constructor
  · rintro ⟨hnum, hlen, hall⟩
    exact ⟨hlen, by omega, hall⟩
  · rintro ⟨hlen, hnum, hall⟩
    exact ⟨by omega, hlen, hall⟩

/-- What the first loop makes of the words. -/
def splitResult (maxNumArgs maxLenArg : Nat) (done ws : List (List Char)) :
    ArgvRun (Nat × List (List Char)) :=
  if Fit maxNumArgs maxLenArg done.length ws then
    .ok (done.length + ws.length, buffers maxNumArgs maxLenArg (done ++ ws))
  else .error .bye

lemma splitResult_cons (w : List Char) (ws : List (List Char)) :
    splitResult maxNumArgs maxLenArg done (w :: ws) =
      if w.length ≤ maxLenArg then splitResult maxNumArgs maxLenArg (done ++ [w]) ws else .error .bye := by
  have hlen : (done ++ [w]).length = done.length + 1 := by rw [List.length_append, List.length_singleton]
  simp only [splitResult, fit_cons, hlen]
  by_cases hw : w.length ≤ maxLenArg
  · rw [if_pos hw]
    by_cases hfit : Fit maxNumArgs maxLenArg (done.length + 1) ws
    · rw [if_pos ⟨hw, hfit⟩, if_pos hfit, List.append_assoc, List.singleton_append, List.length_cons,
        Nat.add_assoc, Nat.add_comm 1]
    · rw [if_neg (fun h => hfit h.2), if_neg hfit]
  · rw [if_neg hw, if_neg (fun h => hw h.1)]

/-- One word, and the text behind it. -/
lemma copyArg_word (hne : w ≠ []) (hw : ∀ c ∈ w, isSpaceC c = false ∧ c ≠ nulC)
    (hd : isSpaceC d = true ∨ d = nulC) :
    copyArg maxNumArgs maxLenArg done.length (w ++ d :: t) 0 (buffers maxNumArgs maxLenArg done) =
      if done.length < maxNumArgs ∧ w.length ≤ maxLenArg then
        .ok (t, decide (d = nulC), buffers maxNumArgs maxLenArg (done ++ [w]))
      else .error .bye := by
  by_cases hlt : done.length < maxNumArgs
  · have hcopy := copyArg_eq (t := t) (v := []) maxLenArg (done.map (padded maxLenArg))
      (List.replicate (maxNumArgs - (done.length + 1)) (padded maxLenArg [])) (by rwa [List.length_map]) hw hd
      (Nat.zero_le _)
    rw [List.length_map, List.nil_append, List.length_nil] at hcopy
    rw [buffers_next hlt, hcopy, buffers_snoc]
    simp only [hlt, true_and]
  · obtain ⟨c, w', rfl⟩ := List.exists_cons_of_ne_nil hne
    rw [List.cons_append, copyArg, if_pos (not_lt.mp hlt), if_neg (fun h => hlt h.1)]

lemma splitResult_nil (hdone : done.length ≤ maxNumArgs) :
    splitResult maxNumArgs maxLenArg done [] = .ok (done.length, buffers maxNumArgs maxLenArg done) := by
  have hfit : Fit maxNumArgs maxLenArg done.length [] := ⟨hdone, fun w hw => by cases hw⟩
  rw [splitResult, if_pos hfit, List.append_nil]
  rfl

lemma splitResult_full (hdone : ¬ done.length < maxNumArgs) (ws : List (List Char)) :
    splitResult maxNumArgs maxLenArg done (w :: ws) = .error .bye := by
  apply if_neg
  rintro ⟨hnum, -⟩
  rw [List.length_cons] at hnum
  omega

/-- A word is copied, and the loop goes on with the text behind it. -/
lemma copyArg_bind (hne : w ≠ []) (hw : ∀ c ∈ w, isSpaceC c = false ∧ c ≠ nulC)
    (hd : isSpaceC d = true ∨ d = nulC) {ws : List (List Char)}
    {next : List Char × Bool × List (List Char) → ArgvRun (Nat × List (List Char))}
    (hnext : done.length < maxNumArgs →
      next (t, decide (d = nulC), buffers maxNumArgs maxLenArg (done ++ [w])) =
        splitResult maxNumArgs maxLenArg (done ++ [w]) ws) :
    (copyArg maxNumArgs maxLenArg done.length (w ++ d :: t) 0 (buffers maxNumArgs maxLenArg done) >>= next) =
      splitResult maxNumArgs maxLenArg done (w :: ws) := by
  rw [copyArg_word hne hw hd]
  by_cases hlt : done.length < maxNumArgs
  · rw [splitResult_cons]
    by_cases hlen : w.length ≤ maxLenArg
    · rw [if_pos ⟨hlt, hlen⟩, if_pos hlen, ok_bind, hnext hlt]
    · rw [if_neg (fun h => hlen h.2), if_neg hlen, error_bind]
  · rw [if_neg (fun h => hlt h.1), splitResult_full hlt, error_bind]

/-- A text that begins with a word is the word and its end, or the word and what is behind a space. -/
lemma word_split (hc : isSpaceC c = false) (s : List Char) :
    ∃ w, w ≠ [] ∧ (∀ a ∈ w, isSpaceC a = false) ∧
      (c :: s = w ∧ argWords (c :: s) = [w] ∨
        ∃ d t, isSpaceC d = true ∧ c :: s = w ++ d :: t ∧ argWords (c :: s) = w :: argWords t) := by
  have hsplit := List.takeWhile_append_dropWhile (p := fun a => !isSpaceC a) (l := c :: s)
  have hcons : (c :: s).takeWhile (fun a => !isSpaceC a) ≠ [] := by
    rw [List.takeWhile_cons_of_pos (by rw [hc]; rfl)]
    exact List.cons_ne_nil _ _
  have hall : ∀ a ∈ (c :: s).takeWhile (fun a => !isSpaceC a), isSpaceC a = false := by
    intro a ha
    simpa using List.mem_takeWhile_imp ha
  have hhead := List.head?_dropWhile_not (fun a => !isSpaceC a) (c :: s)
  generalize (c :: s).takeWhile (fun a => !isSpaceC a) = w at hsplit hcons hall
  generalize (c :: s).dropWhile (fun a => !isSpaceC a) = u at hsplit hhead
  refine ⟨w, hcons, hall, ?_⟩
  cases u with
  | nil =>
    rw [List.append_nil] at hsplit
    exact .inl ⟨hsplit.symm, by rw [← hsplit, argWords, tokens_of_forall hcons hall]⟩
  | cons d t =>
    have hd : isSpaceC d = true := by simpa using hhead
    refine .inr ⟨d, t, hd, hsplit.symm, ?_⟩
    rw [← hsplit, argWords, tokens_append_cons hd, tokens_of_forall hcons hall]
    rfl

/-- The first loop puts the words into the buffers, unless there are too many or one is too long. -/
lemma splitArgs_eq (maxLenArg : Nat) (done : List (List Char)) (hs : nulC ∉ s) (hfuel : s.length < fuel) (hdone : done.length ≤ maxNumArgs) :
    splitArgs maxNumArgs maxLenArg fuel (s ++ [nulC]) done.length (buffers maxNumArgs maxLenArg done) =
      splitResult maxNumArgs maxLenArg done (argWords s) := by
  induction fuel generalizing s done with
  | zero => omega
  | succ fuel ih =>
    have hwords : argWords s = argWords (s.dropWhile isSpaceC) := (tokens_dropWhile s).symm
    have hsub : ∀ c ∈ s.dropWhile isSpaceC, c ∈ s := fun c hc => (List.dropWhile_suffix _).subset hc
    have hshort : (s.dropWhile isSpaceC).length ≤ s.length := (List.dropWhile_suffix _).length_le
    rw [splitArgs, skipSpaces_eq hs, ok_bind, hwords]
    obtain ⟨r, hr⟩ : ∃ r, r = s.dropWhile isSpaceC := ⟨_, rfl⟩
    have hhead := List.head?_dropWhile_not isSpaceC s
    rw [← hr] at hhead hsub hshort ⊢
    cases r with
    | nil =>
      have hnil : argWords [] = [] := tokens_nil
      rw [hnil, splitResult_nil hdone]
      rfl
    | cons c r =>
      have hnul : ∀ a ∈ c :: r, a ≠ nulC := fun a ha heq => hs (heq ▸ hsub a ha)
      have hc : isSpaceC c = false := by simpa using hhead
      have hfirst : inside (c :: r ++ [nulC]).head? = .ok c := rfl
      rw [hfirst, ok_bind, if_neg (hnul c List.mem_cons_self)]
      obtain ⟨w, hne, hw, ⟨hr', hwords'⟩ | ⟨d, u, hd, hr', hwords'⟩⟩ := word_split hc r
      · -- the text ends with the word
        have hw' : ∀ a ∈ w, isSpaceC a = false ∧ a ≠ nulC := by
          intro a ha
          exact ⟨hw a ha, hnul a (hr' ▸ ha)⟩
        rw [hwords', hr']
        apply copyArg_bind hne hw' (.inr rfl)
        intro hlt
        rw [splitResult_nil (by simpa using hlt), List.length_append]
        rfl
      · have hmem : ∀ a ∈ w ++ d :: u, a ≠ nulC := fun a ha => hnul a (hr' ▸ ha)
        have hw' : ∀ a ∈ w, isSpaceC a = false ∧ a ≠ nulC := by
          intro a ha
          exact ⟨hw a ha, hmem a (List.mem_append_left _ ha)⟩
        have hd' : d ≠ nulC := hmem d (by simp)
        have hu : nulC ∉ u := fun h => hmem nulC (by simp [h]) rfl
        have hlenu : u.length < fuel := by
          rw [hr', List.length_append, List.length_cons] at hshort
          omega
        rw [hwords', hr', List.append_assoc, List.cons_append]
        apply copyArg_bind hne hw' (.inl hd)
        intro hlt
        have hrest := ih (done ++ [w]) hu hlenu (by simpa using hlt)
        rw [List.length_append, List.length_singleton] at hrest
        rw [← hrest, decide_eq_false hd']
        rfl

/-! ### The second loop -/

/-- What becomes of a word whose buffer is treated. -/
def unquoteWord (w : List Char) : ArgvRun (List Char) :=
  if w.head? = some quoteC then
    if w.getLast? ≠ some quoteC then .error .bye
    else if w.length = 1 then .error .outside
    else .ok w.tail.dropLast
  else .ok w

lemma strLen_append (hw : nulC ∉ w) (zs : List Char) : strLen (w ++ nulC :: zs) = some w.length := by
  induction w with
  | nil => rfl
  | cons c w ih =>
    rw [List.mem_cons, not_or] at hw
    rw [List.cons_append, strLen, if_neg (Ne.symm hw.1), ih hw.2, Option.map_some, List.length_cons]

lemma padded_eq (hlen : w.length ≤ maxLenArg) :
    padded maxLenArg w = w ++ nulC :: List.replicate (maxLenArg - w.length) nulC := by
  have hzeros : maxLenArg + 1 - w.length = maxLenArg - w.length + 1 := by omega
  rw [padded, hzeros, List.replicate_succ]

lemma charAt_natCast (buf : List Char) (j : Nat) : charAt buf j = buf[j]? := by
  rw [charAt, if_neg (by omega), Int.toNat_natCast]

lemma putChar_natCast (buf : List Char) (j : Nat) (c : Char) : putChar buf j c = put buf j c := by
  rw [putChar, if_neg (by omega), Int.toNat_natCast]

/-- The loop that moves the characters one place to the front. -/
lemma shift_eq (a : Char) (m zs : List Char) {n : Nat} (hn : n ≤ m.length) :
    (List.range n).foldlM shiftChar (a :: m ++ zs) = some (m.take n ++ (a :: m ++ zs).drop n) := by
  induction n with
  | zero => rfl
  | succ n ih =>
    have hlen : (m.take n).length = n := by rw [List.length_take, min_eq_left (by omega)]
    have hget : (a :: m ++ zs)[n + 1]? = some m[n] := by
      rw [List.cons_append, List.getElem?_cons_succ, List.getElem?_append_left (by omega),
        List.getElem?_eq_getElem (by omega)]
    have hdrop : ∃ x, (a :: m ++ zs).drop n = x :: (a :: m ++ zs).drop (n + 1) :=
      ⟨_, List.drop_eq_getElem_cons (by rw [List.length_append, List.length_cons]; omega)⟩
    obtain ⟨x, hdrop⟩ := hdrop
    have hread : charAt (m.take n ++ (a :: m ++ zs).drop n) ((n : Int) + 1) = some m[n] := by
      rw [show (n : Int) + 1 = (n + 1 : Nat) from rfl, charAt_natCast, List.getElem?_append_right (by omega),
        hlen, Nat.add_sub_cancel_left, List.getElem?_drop, hget]
    have hwrite := put_middle (m.take n) x m[n] ((a :: m ++ zs).drop (n + 1))
    rw [hlen] at hwrite
    rw [foldlM_range_succ, ih (by omega), Option.bind_eq_bind, Option.bind_some, shiftChar, hread,
      Option.bind_eq_bind, Option.bind_some, putChar_natCast, hdrop, hwrite, List.take_add_one,
      List.getElem?_eq_getElem (by omega), Option.toList_some, List.append_assoc, List.singleton_append]

/-- A word between quotes: the buffer keeps what is between them. -/
lemma unquoteArg_quoted {m : List Char} (hm : nulC ∉ m) (hlen : m.length + 2 ≤ maxLenArg) :
    unquoteArg (padded maxLenArg (quoteC :: m ++ [quoteC])) = .ok (padded maxLenArg m) := by
  obtain ⟨k, hk⟩ : ∃ k, maxLenArg - (m.length + 2) = k := ⟨_, rfl⟩
  have hword : (quoteC :: m ++ [quoteC]).length = m.length + 2 := by
    rw [List.length_append, List.length_cons, List.length_singleton]
  have hbuf : padded maxLenArg (quoteC :: m ++ [quoteC]) =
      quoteC :: m ++ (quoteC :: nulC :: List.replicate k nulC) := by
    rw [padded_eq (by omega), hword, hk, List.append_assoc, List.singleton_append]
  have hstrlen : strLen (padded maxLenArg (quoteC :: m ++ [quoteC])) = some (m.length + 2) := by
    rw [padded_eq (by omega), strLen_append, hword]
    simp only [List.mem_append, List.mem_cons, List.not_mem_nil, or_false, not_or]
    exact ⟨⟨by decide, hm⟩, by decide⟩
  have hfirst : charAt (padded maxLenArg (quoteC :: m ++ [quoteC])) 0 = some quoteC := rfl
  have hlast : charAt (padded maxLenArg (quoteC :: m ++ [quoteC])) (((m.length + 2 : Nat) : Int) - 1) =
      some quoteC := by
    rw [show ((m.length + 2 : Nat) : Int) - 1 = (m.length + 1 : Nat) by omega, charAt_natCast, hbuf,
      ← List.length_cons (a := quoteC), getElem?_middle]
  have hshift := shift_eq quoteC m (quoteC :: nulC :: List.replicate k nulC) le_rfl
  rw [List.take_length] at hshift
  obtain ⟨x, hx⟩ : ∃ x, (quoteC :: m ++ (quoteC :: nulC :: List.replicate k nulC)).drop m.length =
      x :: quoteC :: nulC :: List.replicate k nulC := by
    have hlt : m.length < (quoteC :: m ++ (quoteC :: nulC :: List.replicate k nulC)).length := by
      rw [List.length_append, List.length_cons]
      omega
    rw [List.drop_eq_getElem_cons hlt, List.drop_left' List.length_cons]
    exact ⟨_, rfl⟩
  have hput : putChar (m ++ x :: quoteC :: nulC :: List.replicate k nulC)
      (((m.length + 2 : Nat) : Int) - 1) nulC = some (m ++ x :: nulC :: nulC :: List.replicate k nulC) := by
    have hmiddle := put_middle (m ++ [x]) quoteC nulC (nulC :: List.replicate k nulC)
    rw [List.length_append, List.length_singleton, List.append_assoc, List.append_assoc,
      List.singleton_append] at hmiddle
    rw [show ((m.length + 2 : Nat) : Int) - 1 = (m.length + 1 : Nat) by omega, putChar_natCast, hmiddle]
    rfl
  have hput' : putChar (m ++ x :: nulC :: nulC :: List.replicate k nulC)
      (((m.length + 2 : Nat) : Int) - 2) nulC = some (padded maxLenArg m) := by
    have hzeros : maxLenArg - m.length = k + 1 + 1 := by omega
    rw [show ((m.length + 2 : Nat) : Int) - 2 = (m.length : Nat) by omega, putChar_natCast, put_middle,
      padded_eq (by omega), hzeros, List.replicate_succ, List.replicate_succ]
  rw [unquoteArg, hfirst, hstrlen]
  simp only [inside, ok_bind, if_true, hlast, ne_eq, not_true_eq_false, if_false]
  rw [hbuf, Nat.add_sub_cancel, hshift, hx, Option.bind_eq_bind, Option.bind_some, hput, Option.bind_some, hput']

/-- The quotes of one word. The buffer of a word that is a single quote is left at its index -1. -/
lemma unquoteArg_padded (hne : w ≠ []) (hw : nulC ∉ w) (hlen : w.length ≤ maxLenArg) :
    unquoteArg (padded maxLenArg w) = (unquoteWord w).map (padded maxLenArg) := by
  obtain ⟨c, w', rfl⟩ := List.exists_cons_of_ne_nil hne
  have hfirst : charAt (padded maxLenArg (c :: w')) 0 = some c := rfl
  by_cases hc : c = quoteC
  · subst hc
    obtain ⟨m, x, hmx⟩ : ∃ m x, quoteC :: w' = m ++ [x] := by
      have hrev := List.dropLast_append_getLast (List.cons_ne_nil quoteC w')
      exact ⟨_, _, hrev.symm⟩
    have hstrlen : strLen (padded maxLenArg (quoteC :: w')) = some (m.length + 1) := by
      rw [padded_eq hlen, strLen_append hw, hmx, List.length_append, List.length_singleton]
    have hlast : charAt (padded maxLenArg (quoteC :: w')) (((m.length + 1 : Nat) : Int) - 1) = some x := by
      rw [show ((m.length + 1 : Nat) : Int) - 1 = (m.length : Nat) by omega, charAt_natCast, padded_eq hlen,
        hmx, List.append_assoc, List.singleton_append, getElem?_middle]
    have hword : unquoteWord (quoteC :: w') = if x ≠ quoteC then .error .bye
        else if (quoteC :: w').length = 1 then .error .outside
        else .ok (quoteC :: w').tail.dropLast := by
      have hgetLast : (quoteC :: w').getLast? = some x := by rw [hmx, List.getLast?_append_cons]; rfl
      rw [unquoteWord, List.head?_cons, if_pos rfl, hgetLast]
      simp only [ne_eq, Option.some.injEq]
    rw [hword]
    by_cases hx : x = quoteC
    · subst hx
      cases m with
      | nil =>
        obtain rfl : w' = [] := by simpa using hmx
        rw [if_neg (not_not.mpr rfl), if_pos List.length_singleton, unquoteArg, hfirst, hstrlen]
        simp only [inside, ok_bind, if_true, hlast, ne_eq, not_true_eq_false, if_false]
        rfl
      | cons q m =>
        obtain ⟨rfl, rfl⟩ : quoteC = q ∧ w' = m ++ [quoteC] := by simpa using hmx
        have hm : nulC ∉ m := fun h => hw (by simp [h])
        have hmlen : m.length + 2 ≤ maxLenArg := by
          rwa [List.length_cons, List.length_append, List.length_singleton] at hlen
        have hnot : ¬ (quoteC :: (m ++ [quoteC])).length = 1 := by simp
        rw [if_neg (not_not.mpr rfl), if_neg hnot, List.tail_cons, List.dropLast_concat, ← List.cons_append,
          unquoteArg_quoted hm hmlen]
        rfl
    · rw [if_pos hx, unquoteArg, hfirst, hstrlen]
      simp only [inside, ok_bind, if_true, hlast, ne_eq, hx, not_false_eq_true]
      rfl
  · rw [unquoteArg, hfirst, unquoteWord, List.head?_cons, if_neg (by simpa using hc)]
    simp only [inside, ok_bind, if_neg hc]
    rfl

/-- The second loop treats one word after another and stops at the first one that cannot be treated. -/
lemma unquoteSteps_eq {ws : List (List Char)} (hws : ∀ w ∈ ws, w ≠ [] ∧ nulC ∉ w ∧ w.length ≤ maxLenArg)
    (bufs others : List (List Char)) :
    (List.range' bufs.length ws.length).foldlM unquoteStep (bufs ++ (ws.map (padded maxLenArg) ++ others)) =
      (ws.mapM unquoteWord).map (fun us => bufs ++ (us.map (padded maxLenArg) ++ others)) := by
  induction ws generalizing bufs with
  | nil => rfl
  | cons w ws ih =>
    obtain ⟨⟨hne, hnul, hlen⟩, hws⟩ := List.forall_mem_cons.mp hws
    rw [List.length_cons, List.range'_succ, List.foldlM_cons, List.mapM_cons, List.map_cons, List.cons_append,
      unquoteStep, getElem?_middle, inside, ok_bind, unquoteArg_padded hne hnul hlen]
    cases unquoteWord w with
    | error e => rfl
    | ok u =>
      have hrest := ih hws (bufs ++ [padded maxLenArg u])
      rw [List.length_append, List.length_singleton] at hrest
      have hput : inside (put (bufs ++ padded maxLenArg w :: (ws.map (padded maxLenArg) ++ others)) bufs.length
          (padded maxLenArg u)) = .ok (bufs ++ padded maxLenArg u :: (ws.map (padded maxLenArg) ++ others)) := by
        rw [put_middle]
        rfl
      have hassoc : ∀ l : List (List Char), bufs ++ [padded maxLenArg u] ++ l = bufs ++ padded maxLenArg u :: l :=
        fun l => by rw [List.append_assoc, List.singleton_append]
      simp only [hassoc] at hrest
      rw [Except.map, ok_bind, hput, ok_bind, hrest]
      cases ws.mapM unquoteWord with
      | error e => rfl
      | ok us => rfl

end

/-! ### What the call promises -/

/-- The string in a buffer. -/
def cText (buf : List Char) : List Char := buf.takeWhile (fun c => decide (c ≠ nulC))

/-- A word without the pair of single quotes that encloses it, if one does. -/
def unquoted (w : List Char) : List Char :=
  if w.head? = some quoteC ∧ w.getLast? = some quoteC ∧ 2 ≤ w.length then w.tail.dropLast else w

/-- The word begins with a quote and does not end with one; the call fails. -/
def Unclosed (w : List Char) : Prop := w.head? = some quoteC ∧ w.getLast? ≠ some quoteC

/-- No word is a single quote, unless the call has failed at a word before it. -/
def QuotesClosed (ws : List (List Char)) : Prop :=
  ∀ i : Nat, ws[i]? = some [quoteC] → ∃ j < i, ∃ w, ws[j]? = some w ∧ Unclosed w

/-- All accesses are inside, the loops end, and with status 0 the arguments are the words. -/
def ArgvSafe (qstr : List Char) : ArgvRun (Nat × List (List Char)) → Prop
  | .ok (qargc, qargv) =>
    qargc = (argWords qstr).length ∧ (qargv.take qargc).map cText = (argWords qstr).map unquoted
  | .error .bye => True
  | .error .outside => False
  | .error .running => False

section

variable {maxNumArgs maxLenArg : Nat} {qstr w : List Char} {ws : List (List Char)}

lemma unquoteWord_cases (w : List Char) :
    (w = [quoteC] ∧ unquoteWord w = .error .outside) ∨ (Unclosed w ∧ unquoteWord w = .error .bye) ∨
      (w ≠ [quoteC] ∧ ¬ Unclosed w ∧ unquoteWord w = .ok (unquoted w)) := by
  by_cases hhead : w.head? = some quoteC
  · obtain ⟨w', rfl⟩ := List.head?_eq_some_iff.mp hhead
    by_cases hlast : (quoteC :: w').getLast? = some quoteC
    · cases w' with
      | nil => exact .inl ⟨rfl, rfl⟩
      | cons c w' =>
        refine .inr (.inr ⟨by simp, fun h => h.2 hlast, ?_⟩)
        rw [unquoteWord, if_pos hhead, if_neg (not_not.mpr hlast), if_neg (by simp), unquoted,
          if_pos ⟨hhead, hlast, by simp⟩]
    · exact .inr (.inl ⟨⟨hhead, hlast⟩, by rw [unquoteWord, if_pos hhead, if_pos hlast]⟩)
  · refine .inr (.inr ⟨?_, fun h => hhead h.1, ?_⟩)
    · rintro rfl
      exact hhead rfl
    · rw [unquoteWord, if_neg hhead, unquoted, if_neg (fun h => hhead h.1)]

lemma not_quotesClosed_cons : ¬ QuotesClosed ([quoteC] :: ws) := by
  intro h
  obtain ⟨j, hj, -⟩ := h 0 rfl
  omega

lemma quotesClosed_of_unclosed (hw : Unclosed w) : QuotesClosed (w :: ws) := by
  intro i hi
  cases i with
  | zero =>
    obtain rfl : w = [quoteC] := Option.some.inj hi
    exact absurd rfl hw.2
  | succ i => exact ⟨0, Nat.succ_pos i, w, rfl, hw⟩

lemma quotesClosed_cons (hne : w ≠ [quoteC]) (hw : ¬ Unclosed w) :
    QuotesClosed (w :: ws) ↔ QuotesClosed ws := by
  constructor
  · intro h i hi
    obtain ⟨j, hj, u, hu, hopen⟩ := h (i + 1) hi
    cases j with
    | zero =>
      obtain rfl : w = u := Option.some.inj hu
      exact absurd hopen hw
    | succ j => exact ⟨j, by omega, u, hu, hopen⟩
  · intro h i hi
    cases i with
    | zero => exact absurd (Option.some.inj hi) hne
    | succ i =>
      obtain ⟨j, hj, u, hu, hopen⟩ := h i hi
      exact ⟨j + 1, by omega, u, hu, hopen⟩

/-- The second loop leaves a buffer if and only if it comes to a single quote. -/
lemma mapM_unquoteWord (ws : List (List Char)) :
    (QuotesClosed ws ∧ (ws.mapM unquoteWord = .ok (ws.map unquoted) ∨ ws.mapM unquoteWord = .error .bye)) ∨
      (¬ QuotesClosed ws ∧ ws.mapM unquoteWord = .error .outside) := by
  induction ws with
  | nil =>
    have hclosed : QuotesClosed [] := fun i hi => by cases hi
    exact .inl ⟨hclosed, .inl rfl⟩
  | cons w ws ih =>
    rw [List.mapM_cons]
    obtain ⟨rfl, hrun⟩ | ⟨hopen, hrun⟩ | ⟨hne, hclosed, hrun⟩ := unquoteWord_cases w
    · rw [hrun]
      exact .inr ⟨not_quotesClosed_cons, rfl⟩
    · rw [hrun]
      exact .inl ⟨quotesClosed_of_unclosed hopen, .inr rfl⟩
    · rw [hrun, ok_bind, quotesClosed_cons hne hclosed]
      obtain ⟨hws, hrest | hrest⟩ | ⟨hws, hrest⟩ := ih
      · rw [hrest]
        exact .inl ⟨hws, .inl rfl⟩
      · rw [hrest]
        exact .inl ⟨hws, .inr rfl⟩
      · rw [hrest]
        exact .inr ⟨hws, rfl⟩

lemma cText_padded (hw : nulC ∉ w) : cText (padded maxLenArg w) = w := by
  have hall : ∀ c ∈ w, decide (c ≠ nulC) = true := fun c hc => decide_eq_true fun h => hw (h ▸ hc)
  rw [cText, padded, List.takeWhile_append_of_pos hall]
  cases maxLenArg + 1 - w.length with
  | zero => rw [List.replicate_zero, List.takeWhile_nil, List.append_nil]
  | succ k => rw [List.replicate_succ, List.takeWhile_cons_of_neg (by simp), List.append_nil]

lemma nulC_notMem_unquoted (hw : nulC ∉ w) : nulC ∉ unquoted w := by
  rw [unquoted]
  split_ifs
  · exact fun h => hw (List.mem_of_mem_tail (List.mem_of_mem_dropLast h))
  · exact hw

/-- Both loops. -/
lemma strToArgv_eq (hnul : nulC ∉ qstr) :
    strToArgv maxNumArgs maxLenArg qstr (List.replicate maxNumArgs (List.replicate (maxLenArg + 1) nulC)) =
      if Fit maxNumArgs maxLenArg 0 (argWords qstr) then
        ((argWords qstr).mapM unquoteWord).map fun us =>
          ((argWords qstr).length, us.map (padded maxLenArg) ++
            List.replicate (maxNumArgs - (argWords qstr).length) (padded maxLenArg []))
      else .error .bye := by
  have hstart : List.replicate maxNumArgs (List.replicate (maxLenArg + 1) nulC) =
      buffers maxNumArgs maxLenArg [] := rfl
  have hsplit := splitArgs_eq maxLenArg [] hnul (Nat.lt_succ_self _)
    (Nat.zero_le maxNumArgs)
  rw [strToArgv, hstart]
  rw [List.length_nil] at hsplit
  rw [hsplit, splitResult, List.length_nil, Nat.zero_add, List.nil_append]
  by_cases hfit : Fit maxNumArgs maxLenArg 0 (argWords qstr)
  · have hws : ∀ w ∈ argWords qstr, w ≠ [] ∧ nulC ∉ w ∧ w.length ≤ maxLenArg := by
      intro w hw
      obtain ⟨hne, hall⟩ := of_mem_tokens hw
      exact ⟨hne, fun h => hnul (hall nulC h).1, hfit.2 w hw⟩
    have hsteps := unquoteSteps_eq hws []
      (List.replicate (maxNumArgs - (argWords qstr).length) (padded maxLenArg []))
    rw [List.length_nil, ← List.range_eq_range', List.nil_append] at hsteps
    rw [if_pos hfit, if_pos hfit, ok_bind, buffers]
    dsimp only
    rw [hsteps]
    cases (argWords qstr).mapM unquoteWord with
    | error e => rfl
    | ok us => rfl
  · rw [if_neg hfit, if_neg hfit]
    rfl

end

/-- The call is safe if and only if it does not come to an argument that is a single quote. -/
theorem strToArgv_safe_iff {qstr : List Char} (hnul : nulC ∉ qstr) (maxNumArgs maxLenArg : Nat) :
    ArgvSafe qstr (strToArgv maxNumArgs maxLenArg qstr
        (List.replicate maxNumArgs (List.replicate (maxLenArg + 1) nulC))) ↔
      (Fit maxNumArgs maxLenArg 0 (argWords qstr) → QuotesClosed (argWords qstr)) := by
  rw [strToArgv_eq hnul]
  by_cases hfit : Fit maxNumArgs maxLenArg 0 (argWords qstr)
  · rw [if_pos hfit]
    obtain ⟨hclosed, hrun | hrun⟩ | ⟨hopen, hrun⟩ := mapM_unquoteWord (argWords qstr)
    · rw [hrun]
      refine iff_of_true ⟨rfl, ?_⟩ fun _ => hclosed
      have hlen : ((argWords qstr).map unquoted).length = (argWords qstr).length := List.length_map _
      rw [List.take_left' (by rw [List.length_map, hlen]), List.map_map, List.map_map]
      apply List.map_congr_left
      intro w hw
      obtain ⟨-, hall⟩ := of_mem_tokens hw
      exact cText_padded (nulC_notMem_unquoted fun h => hnul (hall nulC h).1)
    · rw [hrun]
      exact iff_of_true trivial fun _ => hclosed
    · rw [hrun]
      exact iff_of_false id fun h => hopen (h hfit)
  · rw [if_neg hfit]
    exact iff_of_true trivial fun h => absurd h hfit

theorem strToArgv_safe_iff_two :
    ArgvSafe ['a', ' ', quoteC, 'b', quoteC] (strToArgv 2 3 ['a', ' ', quoteC, 'b', quoteC]
        (List.replicate 2 (List.replicate 4 nulC))) ↔
      (Fit 2 3 0 (argWords ['a', ' ', quoteC, 'b', quoteC]) →
        QuotesClosed (argWords ['a', ' ', quoteC, 'b', quoteC])) :=
  strToArgv_safe_iff (by decide) 2 3

/-- The argument that is a single quote: a NUL is written in front of its buffer. -/
theorem not_strToArgv_safe :
    nulC ∉ [quoteC] ∧ ¬ ArgvSafe [quoteC] (strToArgv 1 1 [quoteC] (List.replicate 1 (List.replicate 2 nulC))) := by
  have hrun : strToArgv 1 1 [quoteC] (List.replicate 1 (List.replicate 2 nulC)) = .error .outside := rfl
  rw [hrun]
  exact ⟨by decide, id⟩

end Datacl
