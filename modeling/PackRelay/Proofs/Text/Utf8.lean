import PackRelay.Text.Utf8
import Mathlib.Data.Nat.Init

/-! Every character is read back from its octets, whatever follows them. The cases are those of the
encoding: one, two, three or four octets. -/
namespace PackRelay.Utf8

variable {n m a b c d : Nat} {low high : UInt8} {rest : Bytes}

theorem encode_append (cs ds : List Char) : encode (cs ++ ds) = encode cs ++ encode ds :=
  List.flatMap_append

theorem encode_cons (x : Char) (cs : List Char) :
    encode (x :: cs) = String.utf8EncodeChar x ++ encode cs := List.flatMap_cons

theorem toNat_ofNat (small : n < 256) : (UInt8.ofNat n).toNat = n := by
  rw [UInt8.toNat_ofNat']
  omega

theorem ofNat_ne (small : n < 256) (small' : m < 256) (differ : n ≠ m) :
    UInt8.ofNat n ≠ UInt8.ofNat m := by
  intro same
  have same := congrArg UInt8.toNat same
  rw [toNat_ofNat small, toNat_ofNat small'] at same
  exact differ same

theorem within_ofNat (small : n < 256) :
    within low high (UInt8.ofNat n) = true ↔ low.toNat ≤ n ∧ n ≤ high.toNat := by
  simp [within, UInt8.le_iff_toNat_le, toNat_ofNat small]

theorem isTail_ofNat (tail : 0x80 ≤ n ∧ n ≤ 0xBF) : isTail (UInt8.ofNat n) = true :=
  (within_ofNat (by omega)).2 tail

theorem tailBits_ofNat (n : Nat) : tailBits (UInt8.ofNat n) = n % 64 := by
  simp only [tailBits, UInt8.toNat_ofNat']
  omega

theorem ofNat_lt (small : n < 256) : UInt8.ofNat n < 0x80 ↔ n < 0x80 := by
  rw [UInt8.lt_iff_toNat_lt, toNat_ofNat small, show (0x80 : UInt8).toNat = 0x80 from rfl]

theorem step_one (ascii : n < 0x80) : step (UInt8.ofNat n :: rest) = .ok (Char.ofNat n, rest) := by
  have small : n < 256 := by omega
  simp [step, (ofNat_lt small).2 ascii, toNat_ofNat small]

theorem step_two (lead : 0xC2 ≤ a ∧ a ≤ 0xDF) (tail : 0x80 ≤ b ∧ b ≤ 0xBF) :
    step (UInt8.ofNat a :: UInt8.ofNat b :: rest) =
      .ok (Char.ofNat (a % 32 * 64 + b % 64), rest) := by
  have small : a < 256 := by omega
  have long : ¬ UInt8.ofNat a < 0x80 := fun short => by
    have := (ofNat_lt small).1 short
    omega
  have two : within 0xC2 0xDF (UInt8.ofNat a) = true := (within_ofNat small).2 lead
  simp [step, long, two, isTail_ofNat tail, tailBits_ofNat, toNat_ofNat small]

/-- The lead of three octets or of four. -/
theorem not_two (lead : 0xE0 ≤ a) (small : a < 256) :
    ¬ UInt8.ofNat a < 0x80 ∧ within 0xC2 0xDF (UInt8.ofNat a) = false := by
  constructor
  · rw [ofNat_lt small]
    omega
  · rw [Bool.eq_false_iff, Ne, within_ofNat small, show (0xDF : UInt8).toNat = 0xDF from rfl]
    omega

/-- The second octet of three must make the character neither overlong nor a surrogate. -/
theorem second_three (lead : 0xE0 ≤ a ∧ a ≤ 0xEF) (tail : 0x80 ≤ b ∧ b ≤ 0xBF)
    (full : a = 0xE0 → 0xA0 ≤ b) (scalar : a = 0xED → b ≤ 0x9F) :
    ∃ low high, secondOfThree (UInt8.ofNat a) = some (low, high) ∧
      within low high (UInt8.ofNat b) = true := by
  have small : b < 256 := by omega
  unfold secondOfThree
  by_cases least : a = 0xE0
  · exact ⟨0xA0, 0xBF, by simp [least], (within_ofNat small).2 ⟨full least, tail.2⟩⟩
  by_cases surrogates : a = 0xED
  · exact ⟨0x80, 0x9F, by simp [surrogates], (within_ofNat small).2 ⟨tail.1, scalar surrogates⟩⟩
  have not_least : UInt8.ofNat a ≠ 0xE0 := ofNat_ne (m := 0xE0) (by omega) (by omega) least
  have not_surrogates : UInt8.ofNat a ≠ 0xED :=
    ofNat_ne (m := 0xED) (by omega) (by omega) surrogates
  have other : within 0xE1 0xEF (UInt8.ofNat a) = true := by
    rw [within_ofNat (by omega), show (0xE1 : UInt8).toNat = 0xE1 from rfl]
    exact ⟨by omega, lead.2⟩
  exact ⟨0x80, 0xBF, by simp [not_least, not_surrogates, other], (within_ofNat small).2 tail⟩

theorem step_three (lead : 0xE0 ≤ a ∧ a ≤ 0xEF) (tail : 0x80 ≤ b ∧ b ≤ 0xBF)
    (tail' : 0x80 ≤ c ∧ c ≤ 0xBF) (full : a = 0xE0 → 0xA0 ≤ b) (scalar : a = 0xED → b ≤ 0x9F) :
    step (UInt8.ofNat a :: UInt8.ofNat b :: UInt8.ofNat c :: rest) =
      .ok (Char.ofNat ((a % 16 * 64 + b % 64) * 64 + c % 64), rest) := by
  have small : a < 256 := by omega
  obtain ⟨low, high, second, fits⟩ := second_three lead tail full scalar
  obtain ⟨long, longer⟩ := not_two lead.1 small
  simp [step, long, longer, second, fits, isTail_ofNat tail', tailBits_ofNat, toNat_ofNat small]

theorem not_three (lead : 0xF0 ≤ a) (small : a < 256) : secondOfThree (UInt8.ofNat a) = none := by
  have not_least : UInt8.ofNat a ≠ 0xE0 := ofNat_ne (m := 0xE0) small (by omega) (by omega)
  have not_surrogates : UInt8.ofNat a ≠ 0xED := ofNat_ne (m := 0xED) small (by omega) (by omega)
  have other : within 0xE1 0xEF (UInt8.ofNat a) = false := by
    rw [Bool.eq_false_iff, Ne, within_ofNat small, show (0xEF : UInt8).toNat = 0xEF from rfl]
    omega
  simp [secondOfThree, not_least, not_surrogates, other]

/-- The second octet of four must make the character neither overlong nor too large. -/
theorem second_four (lead : 0xF0 ≤ a ∧ a ≤ 0xF4) (tail : 0x80 ≤ b ∧ b ≤ 0xBF)
    (full : a = 0xF0 → 0x90 ≤ b) (inside : a = 0xF4 → b ≤ 0x8F) :
    ∃ low high, secondOfFour (UInt8.ofNat a) = some (low, high) ∧
      within low high (UInt8.ofNat b) = true := by
  have small : b < 256 := by omega
  unfold secondOfFour
  by_cases least : a = 0xF0
  · exact ⟨0x90, 0xBF, by simp [least], (within_ofNat small).2 ⟨full least, tail.2⟩⟩
  by_cases greatest : a = 0xF4
  · exact ⟨0x80, 0x8F, by simp [greatest], (within_ofNat small).2 ⟨tail.1, inside greatest⟩⟩
  have not_least : UInt8.ofNat a ≠ 0xF0 := ofNat_ne (m := 0xF0) (by omega) (by omega) least
  have not_greatest : UInt8.ofNat a ≠ 0xF4 := ofNat_ne (m := 0xF4) (by omega) (by omega) greatest
  have other : within 0xF1 0xF3 (UInt8.ofNat a) = true := by
    rw [within_ofNat (by omega), show (0xF1 : UInt8).toNat = 0xF1 from rfl,
      show (0xF3 : UInt8).toNat = 0xF3 from rfl]
    omega
  exact ⟨0x80, 0xBF, by simp [not_least, not_greatest, other], (within_ofNat small).2 tail⟩

theorem step_four (lead : 0xF0 ≤ a ∧ a ≤ 0xF4) (tail : 0x80 ≤ b ∧ b ≤ 0xBF)
    (tail' : 0x80 ≤ c ∧ c ≤ 0xBF) (tail'' : 0x80 ≤ d ∧ d ≤ 0xBF) (full : a = 0xF0 → 0x90 ≤ b)
    (inside : a = 0xF4 → b ≤ 0x8F) :
    step (UInt8.ofNat a :: UInt8.ofNat b :: UInt8.ofNat c :: UInt8.ofNat d :: rest) =
      .ok (Char.ofNat (((a % 8 * 64 + b % 64) * 64 + c % 64) * 64 + d % 64), rest) := by
  have small : a < 256 := by omega
  obtain ⟨low, high, second, fits⟩ := second_four lead tail full inside
  obtain ⟨long, longer⟩ := not_two (by omega) small
  simp [step, long, longer, not_three lead.1 small, second, fits, isTail_ofNat tail',
    isTail_ofNat tail'', tailBits_ofNat, toNat_ofNat small]

theorem step_encode (x : Char) (rest : Bytes) :
    step (String.utf8EncodeChar x ++ rest) = .ok (x, rest) := by
  have valid : x.toNat.isValidChar := x.valid
  have same : Char.ofNat x.toNat = x := x.ofNat_toNat
  unfold Nat.isValidChar at valid
  unfold String.utf8EncodeChar
  rw [show x.val.toNat = x.toNat from rfl]
  generalize x.toNat = v at valid same ⊢
  simp only
  split
  · rw [List.singleton_append, step_one (by omega), same]
  split
  · rw [List.cons_append, List.singleton_append, step_two (by omega) (by omega)]
    rw [show (v / 64 % 32 + 192) % 32 * 64 + (v % 64 + 128) % 64 = v by omega, same]
  split
  · rw [List.cons_append, List.cons_append, List.singleton_append,
      step_three (by omega) (by omega) (by omega) (by omega) (by omega)]
    rw [show ((v / 4096 % 16 + 224) % 16 * 64 + (v / 64 % 64 + 128) % 64) * 64 +
      (v % 64 + 128) % 64 = v by omega, same]
  · rw [List.cons_append, List.cons_append, List.cons_append, List.singleton_append,
      step_four (by omega) (by omega) (by omega) (by omega) (by omega) (by omega)]
    rw [show (((v / 262144 % 8 + 240) % 8 * 64 + (v / 4096 % 64 + 128) % 64) * 64 +
      (v / 64 % 64 + 128) % 64) * 64 + (v % 64 + 128) % 64 = v by omega, same]

/-- The lead octet of a character that is not ASCII is not either. -/
theorem encode_lead (x : Char) :
    ∃ lead more, String.utf8EncodeChar x = UInt8.ofNat lead :: more ∧ lead < 256 ∧
      (lead = x.toNat ∨ 0x80 ≤ lead ∧ 0x80 ≤ x.toNat) := by
  have valid : x.toNat.isValidChar := x.valid
  unfold Nat.isValidChar at valid
  unfold String.utf8EncodeChar
  rw [show x.val.toNat = x.toNat from rfl]
  generalize x.toNat = v at valid ⊢
  simp only
  split
  · exact ⟨v, [], rfl, by omega, .inl rfl⟩
  split
  · exact ⟨_, _, rfl, by omega, .inr (by omega)⟩
  split
  · exact ⟨_, _, rfl, by omega, .inr (by omega)⟩
  · exact ⟨_, _, rfl, by omega, .inr (by omega)⟩

/-- An octet below 0x80 is a whole character. -/
theorem eq_of_mem_encode {x : Char} {b : UInt8} (ascii : b.toNat < 0x80)
    (there : b ∈ String.utf8EncodeChar x) : x.toNat = b.toNat := by
  unfold String.utf8EncodeChar at there
  rw [show x.val.toNat = x.toNat from rfl] at there
  generalize x.toNat = v at there ⊢
  simp only at there
  have tail {n : Nat} (small : n < 256) (high : 0x80 ≤ n) (is : b = UInt8.ofNat n) : False := by
    rw [is, toNat_ofNat small] at ascii
    omega
  split at there
  · rw [List.mem_singleton.1 there, toNat_ofNat (by omega)]
  split at there
  · simp only [List.mem_cons, List.not_mem_nil, or_false] at there
    rcases there with is | is <;> exact (tail (by omega) (by omega) is).elim
  split at there
  · simp only [List.mem_cons, List.not_mem_nil, or_false] at there
    rcases there with is | is | is <;> exact (tail (by omega) (by omega) is).elim
  · simp only [List.mem_cons, List.not_mem_nil, or_false] at there
    rcases there with is | is | is | is <;> exact (tail (by omega) (by omega) is).elim

theorem decode_of_step {bs rest : Bytes} {x : Char} (first : step bs = .ok (x, rest)) :
    decode bs = (decode rest).map (x :: ·) := by
  cases bs with
  | nil => simp [step] at first
  | cons b bs =>
    rw [decode]
    split
    · rename_i c more ok
      rw [first] at ok
      cases ok
      rfl
    · rename_i n failed
      rw [first] at failed
      cases failed

theorem decode_encode (cs : List Char) : decode (encode cs) = some cs := by
  induction cs with
  | nil => simp [encode, decode]
  | cons x cs ih => rw [encode_cons, decode_of_step (step_encode x _), ih, Option.map_some]

end PackRelay.Utf8
