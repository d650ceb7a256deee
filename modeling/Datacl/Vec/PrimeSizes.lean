import Datacl.Vec.MultScalarHash

/-!
# Primes as sizes of hash tables

The trial division of `is_prime` stops before the square root, so that it takes a number for prime whose least
factor is its square root, rounded down. `prime_geq` does not look at its argument.
-/

namespace Datacl

section

variable {n m r : Nat}

/-- Trial division below the square root. -/
lemma isPrime_iff (hn : 4 ≤ n) : isPrime n = true ↔ ∀ j, 2 ≤ j → j < n.sqrt → ¬ j ∣ n := by
  rw [isPrime, if_neg (by omega), if_neg (by omega), List.all_eq_true]
  have hsqrt : n.sqrt ≤ n := Nat.sqrt_le_self n
  constructor
  · intro h j hj hlt hdvd
    have hall := of_decide_eq_true (h j (List.mem_range.mpr (by omega)))
    exact hall ⟨hj, Nat.le_sqrt.mp hlt⟩ (Nat.mod_eq_zero_of_dvd hdvd)
  · intro h j _
    apply decide_eq_true
    rintro ⟨hj, hle⟩ hmod
    exact h j hj (Nat.le_sqrt.mpr hle) (Nat.dvd_of_mod_eq_zero hmod)

/-- The least factor of a number that is not prime is at most its square root. -/
lemma minFac_le_sqrt (hn : 2 ≤ n) (hp : ¬ n.Prime) : n.minFac ≤ n.sqrt := by
  rw [Nat.le_sqrt']
  exact Nat.minFac_sq_le_self (by omega) hp

lemma minFac_ne_sqrt_of_prime (hp : n.Prime) : n.minFac ≠ n.sqrt := by
  rw [hp.minFac_eq]
  exact (Nat.sqrt_lt_self hp.one_lt).ne'

/-- What `is_prime` takes for a prime. -/
lemma isPrime_iff_prime_or (hn : 2 ≤ n) : isPrime n = true ↔ n.Prime ∨ n.minFac = n.sqrt := by
  by_cases hp : n.Prime
  · exact iff_of_true (isPrime_of_prime hp) (.inl hp)
  · have hle := minFac_le_sqrt hn hp
    have h4 : 4 ≤ n := by
      have hsq := Nat.minFac_sq_le_self (by omega) hp
      have htwo := (Nat.minFac_prime (show n ≠ 1 by omega)).two_le
      have hmul := Nat.pow_le_pow_left htwo 2
      omega
    rw [isPrime_iff h4, or_iff_right hp]
    constructor
    · intro h
      by_contra hne
      have htwo := (Nat.minFac_prime (show n ≠ 1 by omega)).two_le
      exact h n.minFac htwo (by omega) n.minFac_dvd
    · intro heq j hj hlt hdvd
      have hmin := Nat.minFac_le_of_dvd hj hdvd
      omega

lemma isPrime_right_iff (hn : 2 ≤ n) : (isPrime n = true ↔ n.Prime) ↔ n.minFac ≠ n.sqrt := by
  rw [isPrime_iff_prime_or hn]
  constructor
  · intro h heq
    exact minFac_ne_sqrt_of_prime (h.mp (.inr heq)) heq
  · intro hne
    exact or_iff_left hne

end

/-- When `is_prime` and `prime_geq` are right. -/
theorem primeSizes_right_iff {n : Nat} (h1 : 1 ≤ n) (hlt : n < 2 ^ 30) :
    ((2 ≤ n → (isPrime n = true ↔ n.Prime)) ↔ (2 ≤ n → n.minFac ≠ n.sqrt)) ∧
      ∃ r, primeGeq n = some r ∧ r < 2 ^ 31 ∧
        (IsLeast {p | p.Prime ∧ n ≤ p} r ↔
          ¬ n.Prime ∧ ∀ m, n < m → m.minFac = m.sqrt → ∃ p, p.Prime ∧ n < p ∧ p < m) := by
  obtain ⟨r, hrun, hnr, hr2, hr, hfirst⟩ := primeGeq_spec h1
  refine ⟨?_, r, hrun, by omega, ?_⟩
  · constructor
    · exact fun h hn => (isPrime_right_iff hn).mp (h hn)
    · exact fun h hn => (isPrime_right_iff hn).mpr (h hn)
  · constructor
    · rintro ⟨⟨hprime, -⟩, hleast⟩
      refine ⟨fun hn => ?_, fun m hnm hm => ?_⟩
      · have hle : r ≤ n := hleast ⟨hn, le_rfl⟩
        omega
      · -- the search does not pass `m`, and cannot end there
        have hmprime : isPrime m = true := (isPrime_iff_prime_or (by omega)).mpr (.inr hm)
        have hrm : r ≤ m := by
          by_contra hgt
          have hfalse := hfirst m hnm (by omega)
          rw [hmprime] at hfalse
          cases hfalse
        have hne : r ≠ m := by
          rintro rfl
          exact minFac_ne_sqrt_of_prime hprime hm
        exact ⟨r, hprime, hnr, by omega⟩
    · rintro ⟨hn, hbetween⟩
      have hsmaller : ∀ p, p.Prime → n ≤ p → r ≤ p := by
        intro p hp hnp
        have hne : n ≠ p := by
          rintro rfl
          exact hn hp
        by_contra hgt
        have hfalse := hfirst p (by omega) (by omega)
        rw [isPrime_of_prime hp] at hfalse
        cases hfalse
      have hprime : r.Prime := by
        obtain hprime | heq := (isPrime_iff_prime_or (by omega)).mp hr
        · exact hprime
        · obtain ⟨p, hp, hnp, hpr⟩ := hbetween r hnr heq
          have hle := hsmaller p hp hnp.le
          omega
      exact ⟨⟨hprime, hnr.le⟩, fun p hp => hsmaller p hp.1 hp.2⟩

theorem primeSizes_right_iff_ten :
    ((2 ≤ 10 → (isPrime 10 = true ↔ Nat.Prime 10)) ↔ (2 ≤ 10 → Nat.minFac 10 ≠ Nat.sqrt 10)) ∧
      ∃ r, primeGeq 10 = some r ∧ r < 2 ^ 31 ∧
        (IsLeast {p | p.Prime ∧ 10 ≤ p} r ↔
          ¬ Nat.Prime 10 ∧ ∀ m, 10 < m → m.minFac = m.sqrt → ∃ p, p.Prime ∧ 10 < p ∧ p < m) :=
  primeSizes_right_iff (by decide) (by decide)

/-- 4 is taken for a prime, and the search for a prime that is at least 2 passes 2 itself. -/
theorem not_primeSizes_right :
    (isPrime 4 = true ∧ ¬ Nat.Prime 4) ∧ primeGeq 3 = some 4 ∧
      primeGeq 2 = some 3 ∧ ¬ IsLeast {p | p.Prime ∧ 2 ≤ p} 3 := by
  refine ⟨⟨by decide, by decide⟩, by decide, by decide, ?_⟩
  rintro ⟨-, hleast⟩
  have hle : 3 ≤ 2 := hleast ⟨Nat.prime_two, le_rfl⟩
  omega

end Datacl
