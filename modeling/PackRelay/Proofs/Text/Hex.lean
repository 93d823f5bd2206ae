import PackRelay.Text.Hex

/-! Digits stand for the numbers that they are written for. -/
namespace PackRelay

theorem mem_toDigits {base n : Nat} {c : Char} (many : 1 < base) (there : c ∈ Nat.toDigits base n) :
    ∃ d < base, c = Nat.digitChar d := by
  induction n using Nat.strongRecOn with
  | ind n ih =>
    by_cases single : n < base
    · rw [Nat.toDigits_of_lt_base single, List.mem_singleton] at there
      exact ⟨n, single, there⟩
    · rw [Nat.toDigits_of_base_le many (Nat.le_of_not_lt single), List.mem_append,
        List.mem_singleton] at there
      rcases there with front | last
      · exact ih (n / base) (Nat.div_lt_self (by omega) many) front
      · exact ⟨n % base, Nat.mod_lt n (by omega), last⟩

namespace Hex

variable {c : Char} {d : Nat}

theorem value?_digitChar : ∀ d < 16, value? (Nat.digitChar d) = some d := by decide

theorem value?_lt (hex : value? c = some d) : d < 16 := by
  obtain ⟨digit, _, rfl⟩ := Option.map_eq_some_iff.1 hex
  exact digit.isLt

end Hex
end PackRelay
