import Datacl.Lib.CInt
import Datacl.Lib.Looping

/-!
# Matching a pattern of runs: `inner_patmatch`

An automaton goes through a column and looks for runs of the values of a pattern. An access outside
an array is a failure. `num_seen` is an `int`; `pat_len` and `min_pattern_length` are never read.
-/

namespace Datacl

/-- The columns of the pattern. -/
structure Pattern where
  fp : List Int
  lb : List Int
  ub : List Int

/-- A position of the pattern. -/
def Pattern.read (p : Pattern) (patIdx : Nat) : Option (Int × Int × Int) := do
  let target ← p.fp[patIdx]?
  let minNumWanted ← p.lb[patIdx]?
  let maxNumWanted ← p.ub[patIdx]?
  pure (target, minNumWanted, maxNumWanted)

/-- The variables of the loop. -/
structure PatState where
  i : Nat
  matIdx : Int
  patIdx : Nat
  target : Int
  minNumWanted : Int
  maxNumWanted : Int
  numSeen : Int
  restart : Int
  isInPat : Bool
  fout : List Int
  deriving DecidableEq

/-- `reset_pattern_search`. -/
def PatState.reset (p : Pattern) (s : PatState) : Option PatState := do
  let (target, minNumWanted, maxNumWanted) ← p.read 0
  pure
    { s with
      i := if 0 < s.restart then s.restart.toNat else s.i
      matIdx := -1
      patIdx := 0
      target, minNumWanted, maxNumWanted
      numSeen := 0
      restart := -1
      isInPat := false }

/-- `advance_pattern_search`. -/
def PatState.advance (p : Pattern) (s : PatState) : Option PatState := do
  let (target, minNumWanted, maxNumWanted) ← p.read (s.patIdx + 1)
  pure { s with patIdx := s.patIdx + 1, target, minNumWanted, maxNumWanted, numSeen := 0 }

/-- `fout[mat_idx] = 1`. -/
def PatState.mark (s : PatState) : Option PatState :=
  if 0 ≤ s.matIdx ∧ s.matIdx < s.fout.length then some { s with fout := s.fout.set s.matIdx.toNat 1 }
  else none

/-- The row is counted. -/
def PatState.consume (s : PatState) : PatState :=
  { s with numSeen := CInt.wrap 32 (s.numSeen + 1), i := s.i + 1 }

/-- The input of the automaton. -/
structure PatInput where
  pat : Pattern
  f1 : List Int
  fb : Option (List Int)

/-- `isx`: the first value of the pattern occurs again. -/
def Pattern.isx (p : Pattern) : Bool := p.fp.tail.any fun x => x = p.fp.headD 0

/-- The first or the last position of the pattern. -/
def PatState.atEnd (nR2 : Nat) (s : PatState) : Prop := s.patIdx = 0 ∨ s.patIdx + 1 = nR2

instance (nR2 : Nat) (s : PatState) : Decidable (s.atEnd nR2) := by
  unfold PatState.atEnd
  infer_instance

/-- The match is complete if the pattern ends here. -/
def PatState.complete (nR2 : Nat) (s : PatState) : Prop :=
  s.patIdx + 1 = nR2 ∧ s.minNumWanted ≤ s.numSeen

instance (nR2 : Nat) (s : PatState) : Decidable (s.complete nR2) := by
  unfold PatState.complete
  infer_instance

/-- The first place where the search may have to start again. -/
def PatState.noteRestart (isx : Bool) (first item : Int) (s : PatState) : PatState :=
  if isx ∧ s.isInPat ∧ item = first ∧ s.restart < 0 then { s with restart := s.i } else s

/-- A row of a session, for the first and the last position of the pattern. -/
def PatState.stepEnd (p : Pattern) (item : Int) (s : PatState) : Option PatState :=
  if item = s.target then
    if s.numSeen = 0 ∧ s.patIdx = 0 then some { s with matIdx := s.i, isInPat := true }.consume
    else some s.consume
  else if s.minNumWanted ≤ s.numSeen then
    if s.patIdx + 1 = p.fp.length then s.mark.bind (PatState.reset p) else s.advance p
  else PatState.reset p { s with i := s.i + 1 }

/-- A row of a session, for the other positions. -/
def PatState.stepMiddle (p : Pattern) (item : Int) (s : PatState) : Option PatState :=
  if item = s.target then
    if s.numSeen ≤ s.maxNumWanted then some s.consume else s.reset p
  else if s.numSeen = s.maxNumWanted then s.advance p
  else s.reset p

/-- A session ends before the row. -/
def PatState.atBreak (fb : Option (List Int)) (s : PatState) : Option Bool :=
  match fb with
  | none => some false
  | some fb => if 0 < s.numSeen then (fb[s.i]?).map fun b => decide (b = 1) else some false

/-- The body of the loop. -/
def PatInput.body (inp : PatInput) (s : PatState) : Option PatState := do
  let item ← inp.f1[s.i]?
  let s := s.noteRestart inp.pat.isx (inp.pat.fp.headD 0) item
  let brk ← s.atBreak inp.fb
  if brk then
    if s.complete inp.pat.fp.length then s.mark.bind (PatState.reset inp.pat) else s.reset inp.pat
  else if s.atEnd inp.pat.fp.length then s.stepEnd inp.pat item
  else s.stepMiddle inp.pat item

/-- The condition of the loop. -/
def PatInput.more (inp : PatInput) (s : PatState) : Bool := decide (s.i < inp.f1.length)

/-- How `inner_patmatch` ends. -/
inductive PatOutcome where
  | error
  | failed
  | running
  | done (fout : List Int)
  deriving DecidableEq

/-- The pattern may have just ended. -/
def PatInput.finish (inp : PatInput) (s : PatState) : PatOutcome :=
  if s.complete inp.pat.fp.length then
    match s.mark with
    | none => .failed
    | some s => .done s.fout
  else .done s.fout

/-- The variables before the loop. -/
def PatInput.start (inp : PatInput) (fout : List Int) : Option PatState := do
  let (target, minNumWanted, maxNumWanted) ← inp.pat.read 0
  pure
    { i := 0
      matIdx := -1
      patIdx := 0
      target, minNumWanted, maxNumWanted
      numSeen := 0
      restart := -1
      isInPat := false
      fout }

/-- `inner_patmatch`, with a number of rounds for its loop. -/
def innerPatmatch (fuel : Nat) (inp : PatInput) (fout : List Int) : PatOutcome :=
  if inp.pat.fp.length ≤ 1 then .error
  else if (inp.pat.fp.zip inp.pat.fp.tail).any fun q => q.1 = q.2 then .error
  else
    match inp.start fout with
    | none => .failed
    | some s =>
      match Looping.loop inp.more inp.body fuel s with
      | .done s => inp.finish s
      | .failed => .failed
      | .running => .running

end Datacl
