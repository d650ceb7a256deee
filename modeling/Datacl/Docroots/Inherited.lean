import Datacl.Docroots.Alone

/-!
# What a copy of a docroot reads

Only a docroot that `init` has made can be copied, and the copy cannot be copied. The fields of the
copy are external and read the files of the original, which stay as they are until the next call in the
original.
-/

namespace Datacl

open Interleaving

variable {q r : Docroot} {files : Files} {b : Backend} {sz : Sizes} {m : Machine} {dsk ram : Name}

/-! ### Which docroots can be copied -/

namespace Machine

/-- Each docroot lists its own directories only, or has no room for others. -/
def Listed (m : Machine) : Prop := ∀ r ∈ m.docroots, r.Alone ∨ roomForDdirs r.ddirs = false

lemma Listed.add (h : m.Listed) {new : Option Docroot}
    (hnew : ∀ r ∈ new, r.Alone ∨ roomForDdirs r.ddirs = false) : (m.add new).Listed := by
  cases new with
  | none => exact h
  | some r =>
    intro q hq
    rcases List.mem_append.mp hq with hq | hq
    · exact h q hq
    · rw [List.mem_singleton.mp hq]
      exact hnew r rfl

lemma Listed.step (h : m.Listed) (x : MachineCall) : (m.step sz b x).Listed := by
  cases x with
  | init dsk ram => exact h.add fun r hr => .inl (alone_initMetaData hr)
  | bootstrap j dsk ram =>
    refine h.add fun r hr => ?_
    obtain ⟨q, -, hr⟩ := Option.bind_eq_some_iff.mp hr
    exact .inr (no_room_of_bootstrap hr)
  | call j w op =>
    show ((m.docroots[j]?.map (m.call b j w op)).getD m).Listed
    cases hr : m.docroots[j]? with
    | none => exact h
    | some r =>
      intro q hq
      rcases List.mem_or_eq_of_mem_set hq with hq | rfl
      · exact h q hq
      · exact h r (List.mem_of_getElem? hr)

lemma listed_run (calls : List MachineCall) (h : m.Listed) :
    (calls.foldl (Machine.step sz b) m).Listed := by
  induction calls generalizing m with
  | nil => exact h
  | cons x calls ih => exact ih (h.step x)

end Machine

lemma bootstrapMetaData_eq_none (h : roomForDdirs q.ddirs = false) :
    bootstrapMetaData q dsk ram = none := by
  unfold bootstrapMetaData
  rw [if_pos h]

/-! ### What its fields read -/

/-- The file of a field is the same in both. -/
lemma disk_of_bootstrap (h : bootstrapMetaData q dsk ram = some r) {d : Int} (hd : q.OwnDir d)
    (files : Files) (n : Int) : (r.store files).disk (d + 2) n = (q.store files).disk d n := by
  show (if r.name (d + 2) = [] then none else files (r.name (d + 2)) n) =
    if q.name d = [] then none else files (q.name d) n
  rw [name_of_bootstrap h hd]

/-- The docroots with a table each and a column in the first one. -/
def withColumn : Machine :=
  (twoDocroots ++ sideBySide.take 3).foldl (Machine.step fewRecords ⟨plainKernel, stablePairSort⟩)
    ⟨fun _ _ => none, []⟩

def columnA : Docroot := withColumn.docroots.getD 0 siteA

def copyOfA : Docroot := (bootstrapMetaData columnA ['/', 'c'] []).getD siteA

/-- The copy is made, and the column is deleted in it. -/
def copyAndDelete : List MachineCall := (sideBySide.drop 3).take 2

end Datacl
