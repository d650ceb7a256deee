import Datacl.Search.BinSearch

/-!
# Columns in blocks

An ascending column that is cut into blocks. A block stands for the values from its first to its last.
-/

namespace Datacl

/-- Consecutive values of a column; a block is not empty. -/
structure Block where
  vals : List Int
  ne_nil : vals ≠ []

namespace Block

def lbVal (b : Block) : Int := b.vals.head b.ne_nil

def ubVal (b : Block) : Int := b.vals.getLast b.ne_nil

/-- The value is between the first and the last value of the block. -/
def Covers (b : Block) (v : Int) : Prop := b.lbVal ≤ v ∧ v ≤ b.ubVal

instance (b : Block) (v : Int) : Decidable (b.Covers v) := inferInstanceAs (Decidable (_ ∧ _))

end Block

/-- The column that consists of the blocks. -/
def valsOf (blocks : List Block) : List Int := blocks.flatMap Block.vals

section

variable {blocks pre post : List Block} {b b' : Block} {v : Int}

lemma Block.lbVal_mem (b : Block) : b.lbVal ∈ b.vals := List.head_mem b.ne_nil

lemma Block.ubVal_mem (b : Block) : b.ubVal ∈ b.vals := List.getLast_mem b.ne_nil

lemma Block.covers_of_mem (hb : b.vals.Pairwise (· ≤ ·)) (hv : v ∈ b.vals) : b.Covers v := by
  obtain ⟨i, hi⟩ := List.mem_iff_getElem?.mp hv
  have hlt := (List.getElem?_eq_some_iff.mp hi).1
  constructor
  · have hfirst : b.vals[0]? = some b.lbVal := by
      rw [← List.head?_eq_getElem?, List.head?_eq_some_head b.ne_nil, lbVal]
    exact le_of_getElem? hb hfirst hi (Nat.zero_le i)
  · have hlast : b.vals[b.vals.length - 1]? = some b.ubVal := by
      rw [← List.getLast?_eq_getElem?, List.getLast?_eq_some_getLast b.ne_nil, ubVal]
    exact le_of_getElem? hb hi hlast (by omega)

lemma valsOf_append : valsOf (pre ++ post) = valsOf pre ++ valsOf post := List.flatMap_append

lemma mem_valsOf_iff : v ∈ valsOf blocks ↔ ∃ b ∈ blocks, v ∈ b.vals := List.mem_flatMap

/-- In an ascending column a value that a block covers occurs there or nowhere. -/
lemma mem_valsOf_iff_of_covers (hf2 : (valsOf (pre ++ b :: post)).Pairwise (· ≤ ·)) (hb : b.Covers v) :
    v ∈ valsOf (pre ++ b :: post) ↔ v ∈ b.vals := by
  have hcol : valsOf (pre ++ b :: post) = valsOf pre ++ (b.vals ++ valsOf post) := valsOf_append
  rw [hcol, List.pairwise_append, List.pairwise_append] at hf2
  obtain ⟨-, ⟨-, -, hright⟩, hleft⟩ := hf2
  rw [hcol, List.mem_append, List.mem_append]
  constructor
  · rintro (hv | hv | hv)
    · have hle := hleft v hv b.lbVal (List.mem_append_left _ b.lbVal_mem)
      rw [le_antisymm hle hb.1]
      exact b.lbVal_mem
    · exact hv
    · have hle := hright b.ubVal b.ubVal_mem v hv
      rw [le_antisymm hb.2 hle]
      exact b.ubVal_mem
  · exact fun hv => .inr (.inl hv)

lemma block_sorted (hf2 : (valsOf blocks).Pairwise (· ≤ ·)) (hb : b ∈ blocks) :
    b.vals.Pairwise (· ≤ ·) :=
  hf2.sublist (List.sublist_flatten_of_mem (List.mem_map_of_mem hb))

/-- A block below another one. -/
lemma ubVal_le_lbVal (hf2 : (valsOf (pre ++ b :: post)).Pairwise (· ≤ ·)) (hb' : b' ∈ pre) :
    b'.ubVal ≤ b.lbVal := by
  have hcol : valsOf (pre ++ b :: post) = valsOf pre ++ (b.vals ++ valsOf post) := valsOf_append
  rw [hcol, List.pairwise_append] at hf2
  exact hf2.2.2 _ (mem_valsOf_iff.mpr ⟨b', hb', b'.ubVal_mem⟩) _ (List.mem_append_left _ b.lbVal_mem)

end

end Datacl
