namespace ShaderFold

/-- The natural nearest to `num / den`; a half goes to the even neighbour. -/
def roundDiv (num den : Nat) : Nat :=
  if 2 * (num % den) < den ∨ 2 * (num % den) = den ∧ num / den % 2 = 0 then num / den
  else num / den + 1

theorem roundDiv_le (num den : Nat) : roundDiv num den ≤ num / den + 1 := by
  unfold roundDiv
  split <;> omega

theorem roundDiv_mul_right (n : Nat) {den : Nat} (hd : 0 < den) : roundDiv (n * den) den = n := by
  simp [roundDiv, Nat.mul_div_cancel n hd, hd]

/-- `n` is written with at most `p` bits followed by zeros. -/
def Significant (p n : Nat) : Prop :=
  ∃ m s, m < 1 <<< p ∧ n = m <<< s

theorem Significant.zero (p : Nat) : Significant p 0 :=
  ⟨0, 0, Nat.le_shiftLeft, rfl⟩

def excessBits (p n : Nat) : Nat :=
  n.log2 + 1 - p

/-- The natural with at most `p` significant bits nearest to `num / den`; a half goes to the
neighbour whose last kept bit is even. -/
def nearest (p num den : Nat) : Nat :=
  let s := excessBits p (num / den)
  roundDiv num (den <<< s) <<< s

theorem shiftRight_excessBits_lt (p n : Nat) : n >>> excessBits p n < 1 <<< p := by
  have hle : n.log2 + 1 ≤ excessBits p n + p := by
    unfold excessBits
    omega
  rw [Nat.shiftRight_eq_div_pow, Nat.one_shiftLeft]
  apply Nat.div_lt_of_lt_mul
  rw [← Nat.pow_add]
  exact Nat.lt_of_lt_of_le Nat.lt_log2_self (Nat.pow_le_pow_right Nat.two_pos hle)

theorem significant_nearest {p : Nat} (hp : 0 < p) (num den : Nat) :
    Significant p (nearest p num den) := by
  have hlt := shiftRight_excessBits_lt p (num / den)
  simp only [nearest]
  generalize excessBits p (num / den) = s at hlt
  have hle := roundDiv_le num (den <<< s)
  rw [Nat.shiftLeft_eq, ← Nat.div_div_eq_div_mul, ← Nat.shiftLeft_eq,
    ← Nat.shiftRight_eq_div_pow] at hle
  rcases Nat.lt_or_ge (roundDiv num (den <<< s)) (1 <<< p) with h | h
  · exact ⟨_, s, h, rfl⟩
  · -- Rounding went up to the next power of two, which has a single bit.
    have he : roundDiv num (den <<< s) = 1 <<< p := by omega
    refine ⟨1, p + s, ?_, ?_⟩
    · rw [Nat.one_shiftLeft]
      exact Nat.one_lt_two_pow (Nat.ne_of_gt hp)
    · rw [he, Nat.shiftLeft_add]

theorem Significant.exists_shiftLeft {p n : Nat} (h : Significant p n) :
    ∃ m, n = m <<< excessBits p n := by
  obtain ⟨m, s, hm, rfl⟩ := h
  by_cases h0 : m = 0
  · exact ⟨0, by rw [h0, Nat.zero_shiftLeft, Nat.zero_shiftLeft]⟩
  · have hn : m <<< s ≠ 0 := mt Nat.shiftLeft_eq_zero_iff.1 h0
    have hlog : (m <<< s).log2 < p + s := by
      rw [Nat.one_shiftLeft] at hm
      rw [Nat.log2_lt hn, Nat.shiftLeft_eq, Nat.pow_add]
      exact Nat.mul_lt_mul_of_pos_right hm (Nat.two_pow_pos s)
    have hle : excessBits p (m <<< s) ≤ s := by
      unfold excessBits
      omega
    refine ⟨m <<< (s - excessBits p (m <<< s)), ?_⟩
    rw [← Nat.shiftLeft_add, Nat.sub_add_cancel hle]

/-- Rounding changes nothing that already has few enough significant bits. -/
theorem Significant.nearest_mul_right {p n : Nat} (h : Significant p n) {den : Nat}
    (hd : 0 < den) :
    nearest p (n * den) den = n := by
  obtain ⟨m, hm⟩ := h.exists_shiftLeft
  simp only [nearest, Nat.mul_div_cancel n hd]
  generalize excessBits p n = s at hm
  have he : n * den = m * den <<< s := by
    rw [hm, Nat.shiftLeft_eq, Nat.shiftLeft_eq, Nat.mul_right_comm, Nat.mul_assoc]
  rw [he, roundDiv_mul_right m (Nat.lt_of_lt_of_le hd Nat.le_shiftLeft), hm]

end ShaderFold
