import Mathlib.Tactic
import Mathlib.Data.Multiset.Count
import Mathlib.Data.Multiset.AddSub

/-!
# Rank sketches

A sketch of a multiset of data is a multiset of the same size whose elements come from the
data and whose number of elements below any threshold is close to that of the data. The error
is one-sided: a sketch never has fewer elements below a threshold than the data has.
-/

namespace RankSketch

section Below

variable {α : Type*}

/-- Number of elements that satisfy a threshold. -/
def below (p : α → Bool) (s : Multiset α) : ℕ := s.countP (fun a => p a = true)

@[simp] lemma below_zero (p : α → Bool) : below p 0 = 0 := rfl

@[simp] lemma below_add (p : α → Bool) (s t : Multiset α) :
    below p (s + t) = below p s + below p t := Multiset.countP_add _ s t

@[simp] lemma below_nsmul (p : α → Bool) (s : Multiset α) (n : ℕ) :
    below p (n • s) = n * below p s := Multiset.countP_nsmul _ s n

@[simp] lemma below_coe (p : α → Bool) (l : List α) : below p (l : Multiset α) = l.countP p := by
  simp [below]

end Below

variable {α : Type*} [LinearOrder α]

/-- A predicate that holds below a cut of the order. -/
def Threshold (p : α → Bool) : Prop := ∀ a b, a ≤ b → p b → p a

lemma threshold_le (v : α) : Threshold (fun a => decide (a ≤ v)) := by
  intro a b hab hb
  simp only [decide_eq_true_eq] at hb ⊢
  exact hab.trans hb

lemma threshold_lt (v : α) : Threshold (fun a => decide (a < v)) := by
  intro a b hab hb
  simp only [decide_eq_true_eq] at hb ⊢
  exact hab.trans_lt hb

/-- `sketch` stands for `data` with ranks that are too large by at most `e`. -/
structure Approx (data sketch : Multiset α) (e : ℕ) : Prop where
  mem : ∀ a ∈ sketch, a ∈ data
  card : sketch.card = data.card
  le_below : ∀ p, Threshold p → below p data ≤ below p sketch
  below_le : ∀ p, Threshold p → below p sketch ≤ below p data + e

lemma Approx.zero : Approx (0 : Multiset α) 0 0 :=
  ⟨by simp, rfl, fun _ _ => le_rfl, fun _ _ => le_rfl⟩

lemma Approx.add {data sketch : Multiset α} {e : ℕ} (h : Approx data sketch e)
    (t : Multiset α) : Approx (data + t) (sketch + t) e where
  mem a ha := by
    rw [Multiset.mem_add] at ha ⊢
    exact ha.imp_left (h.mem a)
  card := by rw [Multiset.card_add, Multiset.card_add, h.card]
  le_below p hp := by
    have := h.le_below p hp
    simp only [below_add]
    omega
  below_le p hp := by
    have := h.below_le p hp
    simp only [below_add]
    omega

/-- Part of a sketch is replaced by elements of its own, raising ranks by at most `w`. -/
lemma Approx.replace {data rest old new : Multiset α} {e w : ℕ}
    (h : Approx data (rest + old) e) (hmem : ∀ a ∈ new, a ∈ old) (hcard : new.card = old.card)
    (hle : ∀ p, Threshold p → below p old ≤ below p new ∧ below p new ≤ below p old + w) :
    Approx data (rest + new) (e + w) where
  mem a ha := by
    apply h.mem a
    rw [Multiset.mem_add] at ha ⊢
    exact ha.imp_right (hmem a)
  card := by rw [← h.card, Multiset.card_add, Multiset.card_add, hcard]
  le_below p hp := by
    have h1 := h.le_below p hp
    have h2 := hle p hp
    simp only [below_add] at h1 ⊢
    omega
  below_le p hp := by
    have h1 := h.below_le p hp
    have h2 := hle p hp
    simp only [below_add] at h1 ⊢
    omega

/-- An element found at rank `r` of the sketch is at rank `r` of the data up to the error. -/
lemma Approx.rank {data sketch : Multiset α} {e r : ℕ} (h : Approx data sketch e) {y : α}
    (hlt : below (fun a => decide (a < y)) sketch < r)
    (hle : r ≤ below (fun a => decide (a ≤ y)) sketch) :
    below (fun a => decide (a < y)) data < r ∧ r ≤ below (fun a => decide (a ≤ y)) data + e :=
  ⟨(h.le_below _ (threshold_lt y)).trans_lt hlt, hle.trans (h.below_le _ (threshold_le y))⟩

/-! ### Systematic sampling -/

/-- How many of the positions `off, off + width, ...` are at most `n`. -/
def slots (off width n : ℕ) : ℕ := (n + (width - off)) / width

lemma slots_mono (off width : ℕ) {m n : ℕ} (h : m ≤ n) : slots off width m ≤ slots off width n :=
  Nat.div_le_div_right (by omega)

lemma lt_slots_iff {off width n : ℕ} (hoff : off ≤ width) (hw : 0 < width) (j : ℕ) :
    j < slots off width n ↔ off + j * width ≤ n := by
  rw [slots, ← Nat.succ_le_iff, Nat.le_div_iff_mul_le hw, Nat.succ_mul]
  omega

/-- Every other element of `a` equally heavy ones keeps the weight up to one element. -/
lemma two_mul_slots_bounds {w : ℕ} (hw : 0 < w) (a : ℕ) :
    w * a ≤ (w + w) * slots w (w + w) (w * a) ∧
      (w + w) * slots w (w + w) (w * a) ≤ w * a + w := by
  have hs : slots w (w + w) (w * a) = (a + 1) / 2 := by
    have he : w * a + (w + w - w) = w * (a + 1) := by rw [Nat.mul_succ]; omega
    have h2 : w + w = w * 2 := by omega
    rw [slots, he, h2, Nat.mul_div_mul_left _ _ hw]
  have hm : (w + w) * ((a + 1) / 2) = w * (2 * ((a + 1) / 2)) := by ring
  rw [hs, hm]
  constructor
  · exact Nat.mul_le_mul_left w (by omega)
  · have hle : 2 * ((a + 1) / 2) ≤ a + 1 := by omega
    calc w * (2 * ((a + 1) / 2)) ≤ w * (a + 1) := Nat.mul_le_mul_left w hle
      _ = w * a + w := Nat.mul_succ w a

end RankSketch
