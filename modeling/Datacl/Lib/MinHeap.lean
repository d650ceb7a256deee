import Datacl.Lib.Swap
import Mathlib.Order.Lattice

/-!
# Binary heaps in a list

The number of elements is odd, so that an element has two children or none. An element that is offered takes
the place of the root, unless it is less, and sinks: what is dropped is a least one.
-/

namespace MinHeap

open Swapping

variable {α β : Type} [LinearOrder β] {key : α → β} {h h' : List α} {a b l r : α} {i k c n : Nat}

/-- The element at `k` sinks below the lesser ones of its children. -/
def siftDown (key : α → β) : Nat → Nat → List α → List α
  | 0, _, h => h
  | n + 1, k, h =>
    match h[k]?, h[2 * k + 1]?, h[2 * k + 2]? with
    | some a, some l, some r =>
      if key l < key a ∧ key l ≤ key r then siftDown key n (2 * k + 1) ((h.set k l).set (2 * k + 1) a)
      else if key r < key a ∧ key r ≤ key l then siftDown key n (2 * k + 2) ((h.set k r).set (2 * k + 2) a)
      else h
    | _, _, _ => h

/-- An element that is not less than the root takes its place. -/
def offer (key : α → β) (h : List α) (a : α) : List α :=
  match h[0]? with
  | none => h
  | some root => if key root ≤ key a then siftDown key h.length 0 (h.set 0 a) else h

/-- The elements of a list, one after another. -/
def offerAll (key : α → β) (h : List α) (as : List α) : List α := as.foldl (offer key) h

/-- `c` is a child of `i`. -/
def Child (i c : Nat) : Prop := c = 2 * i + 1 ∨ c = 2 * i + 2

/-- No child is less than its parent. -/
def IsHeap (key : α → β) (h : List α) : Prop :=
  ∀ i c a b, Child i c → h[i]? = some a → h[c]? = some b → key a ≤ key b

/-- The same, but for the children of `k`, which are not less than the parent of `k`. -/
structure HeapExcept (key : α → β) (k : Nat) (h : List α) : Prop where
  other : ∀ i c a b, i ≠ k → Child i c → h[i]? = some a → h[c]? = some b → key a ≤ key b
  above : ∀ i c a b, Child i k → Child k c → h[i]? = some a → h[c]? = some b → key a ≤ key b

/-! ### Sinking -/

lemma length_siftDown (key : α → β) (n k : Nat) (h : List α) : (siftDown key n k h).length = h.length := by
  induction n generalizing k h with
  | zero => rfl
  | succ n ih =>
    rw [siftDown]
    split
    · split_ifs
      · rw [ih, List.length_set, List.length_set]
      · rw [ih, List.length_set, List.length_set]
      · rfl
    · rfl

lemma length_offer (key : α → β) (h : List α) (a : α) : (offer key h a).length = h.length := by
  rw [offer]
  split
  · rfl
  · split_ifs
    · rw [length_siftDown, List.length_set]
    · rfl

/-- The lesser child takes the place of its parent. -/
lemma HeapExcept.swap (hh : HeapExcept key k h) (hc : Child k c) (ha : h[k]? = some a) (hb : h[c]? = some b)
    (hba : key b ≤ key a) (hmin : ∀ d x, Child k d → h[d]? = some x → key b ≤ key x) :
    HeapExcept key c ((h.set k b).set c a) := by
  have hk := (List.getElem?_eq_some_iff.mp ha).1
  have hlt := (List.getElem?_eq_some_iff.mp hb).1
  have hkc : k ≠ c := by
    unfold Child at hc
    omega
  have hatc : ((h.set k b).set c a)[c]? = some a := List.getElem?_set_self (by rwa [List.length_set])
  have hatk : ((h.set k b).set c a)[k]? = some b := by
    rw [List.getElem?_set_ne hkc.symm, List.getElem?_set_self hk]
  have hother : ∀ j, j ≠ k → j ≠ c → ((h.set k b).set c a)[j]? = h[j]? := by
    intro j hjk hjc
    rw [List.getElem?_set_ne hjc.symm, List.getElem?_set_ne hjk.symm]
  unfold Child at hc
  constructor
  · intro i d x y hic hd hx hy
    by_cases hik : i = k
    · subst hik
      rw [hatk, Option.some.injEq] at hx
      subst hx
      by_cases hdc : d = c
      · rw [hdc, hatc, Option.some.injEq] at hy
        exact hy ▸ hba
      · rw [hother d (by unfold Child at hd; omega) hdc] at hy
        exact hmin d y hd hy
    · rw [hother i hik hic] at hx
      by_cases hdk : d = k
      · subst hdk
        rw [hatk, Option.some.injEq] at hy
        subst hy
        exact hh.above i c x b hd hc hx hb
      · rw [hother d hdk (by unfold Child at hd; omega)] at hy
        exact hh.other i d x y hik hd hx hy
  · intro i d x y hi hd hx hy
    obtain rfl : i = k := by
      unfold Child at hi
      omega
    rw [hatk, Option.some.injEq] at hx
    rw [hother d (by unfold Child at hd; omega) (by unfold Child at hd; omega)] at hy
    subst hx
    exact hh.other c d b y hkc.symm hd hb hy

lemma set_set_perm (ha : h[k]? = some a) (hb : h[c]? = some b) : ((h.set k b).set c a).Perm h := by
  refine swapAt_perm (i := k) (j := c) ?_
  rw [swapAt, ha, hb]

lemma isHeap_of_le (hh : HeapExcept key k h) (ha : h[k]? = some a)
    (hle : ∀ c b, Child k c → h[c]? = some b → key a ≤ key b) : IsHeap key h := by
  intro i c x y hc hx hy
  by_cases hik : i = k
  · rw [hik] at hx hc
    rw [ha, Option.some.injEq] at hx
    exact hx ▸ hle c y hc hy
  · exact hh.other i c x y hik hc hx hy

/-- Neither child is less. -/
lemma le_of_not_sink (hleft : ¬ (key l < key a ∧ key l ≤ key r)) (hright : ¬ (key r < key a ∧ key r ≤ key l)) :
    key a ≤ key l ∧ key a ≤ key r := by
  constructor
  · by_contra hlt
    rw [not_le] at hlt
    have hrl : key r < key l := not_le.mp fun hle => hleft ⟨hlt, hle⟩
    exact hright ⟨hrl.trans hlt, hrl.le⟩
  · by_contra hlt
    rw [not_le] at hlt
    have hlr : key l < key r := not_le.mp fun hle => hright ⟨hlt, hle⟩
    exact hleft ⟨hlr.trans hlt, hlr.le⟩

/-- The element sinks until the list is a heap. -/
lemma siftDown_spec (hodd : h.length % 2 = 1) (hh : HeapExcept key k h) (hn : h.length ≤ k + n) :
    IsHeap key (siftDown key n k h) ∧ (siftDown key n k h).Perm h := by
  induction n generalizing k h with
  | zero =>
    rw [siftDown]
    refine ⟨fun i c a b hc ha hb => hh.other i c a b ?_ hc ha hb, .refl _⟩
    have hlt := (List.getElem?_eq_some_iff.mp ha).1
    omega
  | succ n ih =>
    by_cases hin : 2 * k + 2 < h.length
    · obtain ⟨a, ha⟩ : ∃ a, h[k]? = some a := ⟨_, List.getElem?_eq_getElem (by omega)⟩
      obtain ⟨l, hl⟩ : ∃ l, h[2 * k + 1]? = some l := ⟨_, List.getElem?_eq_getElem (by omega)⟩
      obtain ⟨r, hr⟩ : ∃ r, h[2 * k + 2]? = some r := ⟨_, List.getElem?_eq_getElem hin⟩
      have hchild : ∀ {x : α}, key x ≤ key l → key x ≤ key r →
          ∀ d y, Child k d → h[d]? = some y → key x ≤ key y := by
        rintro x hxl hxr d y (rfl | rfl) hy
        · rw [hl, Option.some.injEq] at hy
          exact hy ▸ hxl
        · rw [hr, Option.some.injEq] at hy
          exact hy ▸ hxr
      simp only [siftDown, ha, hl, hr]
      split_ifs with hleft hright
      · have hex := hh.swap (.inl rfl) ha hl hleft.1.le (hchild le_rfl hleft.2)
        obtain ⟨hheap, hperm⟩ := ih (by simpa using hodd) hex (by simp; omega)
        exact ⟨hheap, hperm.trans (set_set_perm ha hl)⟩
      · have hex := hh.swap (.inr rfl) ha hr hright.1.le (hchild hright.2 le_rfl)
        obtain ⟨hheap, hperm⟩ := ih (by simpa using hodd) hex (by simp; omega)
        exact ⟨hheap, hperm.trans (set_set_perm ha hr)⟩
      · obtain ⟨hal, har⟩ := le_of_not_sink hleft hright
        exact ⟨isHeap_of_le hh ha (hchild hal har), .refl _⟩
    · have hnone : h[2 * k + 2]? = none := List.getElem?_eq_none (by omega)
      have hself : siftDown key (n + 1) k h = h := by
        rw [siftDown, hnone]
        split
        · cases ‹_›
        · rfl
      rw [hself]
      refine ⟨fun i c a b hc ha hb => ?_, .refl _⟩
      have hlt := (List.getElem?_eq_some_iff.mp hb).1
      refine hh.other i c a b ?_ hc ha hb
      rintro rfl
      unfold Child at hc
      omega

/-! ### Subtrees -/

/-- `i` is a node of the tree below `k`. -/
inductive Under (k : Nat) : Nat → Prop
  | root : Under k k
  | child {i c : Nat} : Under k i → Child i c → Under k c

lemma Under.le (hi : Under k i) : k ≤ i := by
  induction hi with
  | root => exact le_rfl
  | child _ hc ih =>
    unfold Child at hc
    omega

lemma Under.of_child (hkc : Child k c) (hi : Under c i) : Under k i := by
  induction hi with
  | root => exact .child .root hkc
  | child _ hc ih => exact .child ih hc

lemma under_zero (i : Nat) : Under 0 i := by
  induction i using Nat.strongRecOn with
  | ind i ih =>
    by_cases hzero : i = 0
    · exact hzero ▸ .root
    · refine .child (ih ((i - 1) / 2) (by omega)) ?_
      unfold Child
      omega

/-- A node other than the root is on the left or on the right. -/
lemma Under.left_or_right (hi : Under k i) (hne : i ≠ k) : Under (2 * k + 1) i ∨ Under (2 * k + 2) i := by
  induction hi with
  | root => exact absurd rfl hne
  | @child i c hi hc ih =>
    by_cases hik : i = k
    · subst hik
      obtain rfl | rfl := hc
      · exact .inl .root
      · exact .inr .root
    · exact (ih hik).imp (fun hleft => .child hleft hc) fun hright => .child hright hc

/-- It is not on both sides. -/
lemma Under.not_right (hleft : Under (2 * k + 1) i) : ¬ Under (2 * k + 2) i := by
  intro hright
  induction hleft with
  | root =>
    have hle := hright.le
    omega
  | @child i c hi hc ih =>
    have hle := hi.le
    unfold Child at hc
    cases hright with
    | root => omega
    | @child j _ hj hjc =>
      unfold Child at hjc
      obtain rfl : j = i := by omega
      exact ih hj

/-- The swap of two nodes of the tree below `k`. -/
lemma set_set_outside (hc : Child k c) (hi : ¬ Under k i) : ((h.set k b).set c a)[i]? = h[i]? := by
  have hic : i ≠ c := fun heq => hi (heq ▸ .child .root hc)
  have hik : i ≠ k := fun heq => hi (heq ▸ .root)
  rw [List.getElem?_set_ne hic.symm, List.getElem?_set_ne hik.symm]

lemma set_set_inside {x : α} (hc : Child k c) (ha : h[k]? = some a) (hb : h[c]? = some b) (hi : Under k i)
    (hx : ((h.set k b).set c a)[i]? = some x) : ∃ j, Under k j ∧ h[j]? = some x := by
  have hk := (List.getElem?_eq_some_iff.mp ha).1
  have hlt := (List.getElem?_eq_some_iff.mp hb).1
  by_cases hic : i = c
  · rw [hic, List.getElem?_set_self (by rwa [List.length_set])] at hx
    exact ⟨k, .root, hx ▸ ha⟩
  · rw [List.getElem?_set_ne (Ne.symm hic)] at hx
    by_cases hik : i = k
    · rw [hik, List.getElem?_set_self hk] at hx
      exact ⟨c, .child .root hc, hx ▸ hb⟩
    · rw [List.getElem?_set_ne (Ne.symm hik)] at hx
      exact ⟨i, hi, hx⟩

/-- The nodes of the tree below `k` trade places, and no other ones. -/
lemma siftDown_local (key : α → β) (n k : Nat) (h : List α) :
    (∀ i, ¬ Under k i → (siftDown key n k h)[i]? = h[i]?) ∧
      ∀ i x, Under k i → (siftDown key n k h)[i]? = some x → ∃ j, Under k j ∧ h[j]? = some x := by
  induction n generalizing k h with
  | zero => exact ⟨fun i _ => rfl, fun i x hi hx => ⟨i, hi, hx⟩⟩
  | succ n ih =>
    have hsink : ∀ {c a b}, Child k c → h[k]? = some a → h[c]? = some b →
        (∀ i, ¬ Under k i → (siftDown key n c ((h.set k b).set c a))[i]? = h[i]?) ∧
          ∀ i x, Under k i → (siftDown key n c ((h.set k b).set c a))[i]? = some x →
            ∃ j, Under k j ∧ h[j]? = some x := by
      intro c a b hc ha hb
      obtain ⟨hout, hin⟩ := ih c ((h.set k b).set c a)
      refine ⟨fun i hi => ?_, fun i x hi hx => ?_⟩
      · rw [hout i fun hci => hi (hci.of_child hc), set_set_outside hc hi]
      · by_cases hci : Under c i
        · obtain ⟨j, hj, hjx⟩ := hin i x hci hx
          exact set_set_inside hc ha hb (hj.of_child hc) hjx
        · rw [hout i hci] at hx
          exact set_set_inside hc ha hb hi hx
    rw [siftDown]
    split
    · rename_i a l r ha hl hr
      split_ifs
      · exact hsink (.inl rfl) ha hl
      · exact hsink (.inr rfl) ha hr
      · exact ⟨fun i _ => rfl, fun i x hi hx => ⟨i, hi, hx⟩⟩
    · exact ⟨fun i _ => rfl, fun i x hi hx => ⟨i, hi, hx⟩⟩

lemma IsHeap.le_of_under (hh : IsHeap key h) (ha : h[k]? = some a) (hi : Under k i) (hb : h[i]? = some b) :
    key a ≤ key b := by
  induction hi generalizing b with
  | root =>
    rw [ha, Option.some.injEq] at hb
    exact hb ▸ le_rfl
  | @child i c hi hc ih =>
    have hlt := (List.getElem?_eq_some_iff.mp hb).1
    obtain ⟨p, hp⟩ : ∃ p, h[i]? = some p := ⟨_, List.getElem?_eq_getElem (by unfold Child at hc; omega)⟩
    exact (ih hp).trans (hh i c p b hc hp hb)

/-- The root is a least element. -/
lemma IsHeap.root_le (hh : IsHeap key h) (ha : h[0]? = some a) (hb : b ∈ h) : key a ≤ key b := by
  obtain ⟨i, hi⟩ := List.mem_iff_getElem?.mp hb
  exact hh.le_of_under ha (under_zero i) hi

/-! ### Offers -/

/-- What is dropped is a least element of the heap and the element that is offered. -/
lemma offer_spec (hodd : h.length % 2 = 1) (hh : IsHeap key h) (a : α) :
    ∃ out, IsHeap key (offer key h a) ∧ (out :: offer key h a).Perm (a :: h) ∧
      (∀ b ∈ offer key h a, key out ≤ key b) ∧
      ∀ x, (∀ b ∈ h, key x ≤ key b) → ∀ b ∈ offer key h a, key x ≤ key b := by
  cases h with
  | nil => cases hodd
  | cons root h =>
    have hroot : ∀ b ∈ root :: h, key root ≤ key b := fun b hb => hh.root_le rfl hb
    have hoffer : offer key (root :: h) a =
        if key root ≤ key a then siftDown key (root :: h).length 0 ((root :: h).set 0 a) else root :: h := rfl
    rw [hoffer]
    by_cases hle : key root ≤ key a
    · have hex : HeapExcept key 0 (a :: h) := by
        constructor
        · intro i c x y hi hc hx hy
          have hget : ∀ j, j ≠ 0 → (a :: h)[j]? = (root :: h)[j]? := by
            intro j hj
            obtain ⟨j, rfl⟩ := Nat.exists_eq_succ_of_ne_zero hj
            rfl
          rw [hget i hi] at hx
          rw [hget c (by unfold Child at hc; omega)] at hy
          exact hh i c x y hc hx hy
        · intro i c x y hi
          unfold Child at hi
          omega
      obtain ⟨hheap, hperm⟩ := siftDown_spec (n := (root :: h).length) (by simpa using hodd) hex (by simp)
      rw [if_pos hle, List.set_cons_zero]
      refine ⟨root, hheap, (hperm.cons root).trans (.swap _ _ _), ?_, ?_⟩
      · intro b hb
        rcases List.mem_cons.mp (hperm.mem_iff.mp hb) with rfl | hb
        · exact hle
        · exact hroot b (List.mem_cons_of_mem _ hb)
      · intro x hx b hb
        rcases List.mem_cons.mp (hperm.mem_iff.mp hb) with rfl | hb
        · exact (hx root List.mem_cons_self).trans hle
        · exact hx b (List.mem_cons_of_mem _ hb)
    · rw [if_neg hle]
      refine ⟨a, hh, .refl _, fun b hb => (le_of_not_ge hle).trans (hroot b hb), fun x hx => hx⟩

/-- `a` went to the side of `d`, whose root is now the root of the heap. -/
structure SinksTo (h h' : List α) (a b : α) (d e : Nat) : Prop where
  root : h'[0]? = some b
  side : ∀ i x, Under d i → h'[i]? = some x → x = a ∨ ∃ j, Under d j ∧ h[j]? = some x
  other : ∀ i, Under e i → h'[i]? = h[i]?

/-- The first step decides about the side. -/
lemma SinksTo.of_siftDown {d e : Nat} (hroot : 0 < h.length) (hb : h[d]? = some b) (hd : 0 < d)
    (hdisj : ∀ i, Under e i → i ≠ 0 ∧ ¬ Under d i) :
    SinksTo h (siftDown key n d (((h.set 0 a).set 0 b).set d a)) a b d e := by
  have hlt := (List.getElem?_eq_some_iff.mp hb).1
  obtain ⟨hout, hin⟩ := siftDown_local key n d (((h.set 0 a).set 0 b).set d a)
  constructor
  · rw [hout 0 fun hzero => absurd hzero.le (by omega), List.getElem?_set_ne (by omega),
      List.getElem?_set_self (by rwa [List.length_set])]
  · intro i x hi hx
    obtain ⟨j, hj, hjx⟩ := hin i x hi hx
    by_cases hjd : j = d
    · rw [hjd, List.getElem?_set_self (by simpa using hlt), Option.some.injEq] at hjx
      exact .inl hjx.symm
    · have hle := hj.le
      rw [List.getElem?_set_ne (Ne.symm hjd), List.getElem?_set_ne (by omega), List.getElem?_set_ne (by omega)] at hjx
      exact .inr ⟨j, hj, hjx⟩
  · intro i hi
    obtain ⟨hne, hnot⟩ := hdisj i hi
    have hid : i ≠ d := fun heq => hnot (heq ▸ .root)
    rw [hout i hnot, List.getElem?_set_ne hid.symm, List.getElem?_set_ne hne.symm, List.getElem?_set_ne hne.symm]

/-- An element that is taken sinks to the left or to the right, or it stays at the root. -/
lemma offer_cases {root : α} (hroot : h[0]? = some root) (hl : h[1]? = some l) (hr : h[2]? = some r)
    (hle : key root ≤ key a) :
    (key l < key a ∧ key l ≤ key r ∧ SinksTo h (offer key h a) a l 1 2) ∨
      (¬ (key l < key a ∧ key l ≤ key r) ∧ key r < key a ∧ key r ≤ key l ∧ SinksTo h (offer key h a) a r 2 1) ∨
      (key a ≤ key l ∧ key a ≤ key r ∧ offer key h a = h.set 0 a) := by
  obtain ⟨n, hn⟩ : ∃ n, h.length = n + 1 :=
    Nat.exists_eq_succ_of_ne_zero (Nat.ne_of_gt (List.getElem?_eq_some_iff.mp hroot).1)
  have hset : (h.set 0 a)[0]? = some a := List.getElem?_set_self (by omega)
  have hl' : (h.set 0 a)[1]? = some l := by rwa [List.getElem?_set_ne (by omega)]
  have hr' : (h.set 0 a)[2]? = some r := by rwa [List.getElem?_set_ne (by omega)]
  simp only [offer, hroot, if_pos hle, hn, siftDown, hset, hl', hr', Nat.mul_zero, Nat.zero_add]
  split_ifs with hleft hright
  · exact .inl ⟨hleft.1, hleft.2, .of_siftDown (by omega) hl (by omega) fun i hi =>
      ⟨fun hzero => absurd hi.le (by omega), fun hi' => hi'.not_right (k := 0) hi⟩⟩
  · exact .inr (.inl ⟨hleft, hright.1, hright.2, .of_siftDown (by omega) hr (by omega) fun i hi =>
      ⟨fun hzero => absurd hi.le (by omega), hi.not_right (k := 0)⟩⟩)
  · obtain ⟨hal, har⟩ := le_of_not_sink hleft hright
    exact .inr (.inr ⟨hal, har, rfl⟩)

/-- Of all elements, the heap keeps those that are not less than any other one. -/
lemma offerAll_spec (hodd : h.length % 2 = 1) (hh : IsHeap key h) (as : List α) :
    ∃ outs, IsHeap key (offerAll key h as) ∧ (outs ++ offerAll key h as).Perm (as ++ h) ∧
      (offerAll key h as).length = h.length ∧
      (∀ x ∈ outs, ∀ b ∈ offerAll key h as, key x ≤ key b) ∧
      ∀ x, (∀ b ∈ h, key x ≤ key b) → ∀ b ∈ offerAll key h as, key x ≤ key b := by
  induction as generalizing h with
  | nil => exact ⟨[], hh, .refl _, rfl, fun x hx => absurd hx List.not_mem_nil, fun x hx => hx⟩
  | cons a as ih =>
    obtain ⟨out, hheap, hperm, hout, hkeep⟩ := offer_spec hodd hh a
    have hlen := length_offer key h a
    obtain ⟨outs, hheap', hperm', hlen', houts, hkeep'⟩ := ih (by rwa [hlen]) hheap
    refine ⟨out :: outs, hheap', ?_, hlen'.trans hlen, ?_, fun x hx => hkeep' x (hkeep x hx)⟩
    · calc (out :: outs ++ offerAll key h (a :: as)).Perm (out :: (as ++ offer key h a)) :=
            hperm'.cons out
        _ |>.Perm (as ++ out :: offer key h a) := List.perm_middle.symm
        _ |>.Perm (as ++ a :: h) := hperm.append_left as
        _ |>.Perm (a :: as ++ h) := List.perm_middle
    · intro x hx
      rcases List.mem_cons.mp hx with rfl | hx
      · exact hkeep' x hout
      · exact houts x hx

end MinHeap
