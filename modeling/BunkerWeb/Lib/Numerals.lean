import Mathlib.Data.List.Basic
import Mathlib.Data.List.Induction

/-!
# Numerals

The text of a number in a base, as `Nat.toDigits` writes it. A text is the numeral of a positive
number exactly when it is a nonempty text of digits that does not start with `0`.
-/

namespace Lib.Numerals

/-- `c` is a digit of the base `b`. -/
def IsDigit (b : Nat) (c : Char) : Prop := ∃ d < b, c = d.digitChar

instance (b : Nat) (c : Char) : Decidable (IsDigit b c) :=
  inferInstanceAs (Decidable (∃ d < b, c = d.digitChar))

theorem IsDigit.mono {b b' : Nat} {c : Char} (h : IsDigit b c) (hle : b ≤ b') : IsDigit b' c := by
  obtain ⟨d, hd, rfl⟩ := h
  exact ⟨d, by omega, rfl⟩

variable {b : Nat}

/-- A numeral has digits only. -/
theorem isDigit_of_mem (hb : 1 < b) {n : Nat} {c : Char} (h : c ∈ Nat.toDigits b n) :
    IsDigit b c := by
  induction n using Nat.strongRecOn with
  | ind n ih =>
    rw [Nat.toDigits_eq_if hb] at h
    split at h
    · rename_i hn
      exact ⟨n, hn, List.mem_singleton.mp h⟩
    · rename_i hn
      rcases List.mem_append.mp h with h | h
      · exact ih (n / b) (Nat.div_lt_self (by omega) hb) h
      · exact ⟨n % b, Nat.mod_lt n (by omega), List.mem_singleton.mp h⟩

/-- The numeral of a positive number does not start with `0`. -/
theorem head_ne_zero (hb : 1 < b) {n : Nat} (hn : n ≠ 0) :
    (Nat.toDigits b n).head? ≠ some '0' := by
  induction n using Nat.strongRecOn with
  | ind n ih =>
    rw [Nat.toDigits_eq_if hb]
    split
    · simpa using hn
    · rename_i hle
      have hpos : n / b ≠ 0 :=
        Nat.pos_iff_ne_zero.mp (Nat.div_pos (Nat.le_of_not_lt hle) (by omega))
      rw [List.head?_append_of_ne_nil _ (Nat.toDigits_ne_nil)]
      exact ih (n / b) (Nat.div_lt_self (by omega) hb) hpos

/-- Digits that do not start with `0` are the numeral of a positive number. -/
theorem exists_toDigits (hb : 1 < b) {r : List Char} (hne : r ≠ [])
    (hdigits : ∀ c ∈ r, IsDigit b c) (hhead : r.head? ≠ some '0') :
    ∃ n, n ≠ 0 ∧ Nat.toDigits b n = r := by
  induction r using List.reverseRecOn with
  | nil => exact absurd rfl hne
  | append_singleton r c ih =>
    obtain ⟨d, hd, rfl⟩ := hdigits c (by simp)
    cases r with
    | nil =>
      refine ⟨d, fun h => hhead (by simp [h]), ?_⟩
      rw [Nat.toDigits_of_lt_base hd, List.nil_append]
    | cons e r =>
      obtain ⟨n, hn, hr⟩ := ih (by simp) (fun c hc => hdigits c (List.mem_append_left _ hc))
        (by simpa using hhead)
      refine ⟨b * n + d, ?_, ?_⟩
      · have : 0 < b * n := Nat.mul_pos (by omega) (by omega)
        omega
      · rw [← Nat.toDigits_append_toDigits hb (by omega) hd, hr, Nat.toDigits_of_lt_base hd]

end Lib.Numerals
