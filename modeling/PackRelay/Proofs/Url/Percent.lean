import PackRelay.Proofs.Text.Utf8
import PackRelay.Url.Percent

/-! Percent-encoding. What it writes holds nothing that would have to be escaped; and undoing it gives
the text back, unless that had a percent sign of its own. -/
namespace PackRelay.Percent

variable {escaped : Char → Bool} {cs : List Char} {x : Char}

/-- What escapes are written with. -/
def marks : List Char :=
  ['%', '0', '1', '2', '3', '4', '5', '6', '7', '8', '9', 'A', 'B', 'C', 'D', 'E', 'F']

theorem upperDigit_spec : ∀ n < 16, upperDigit n ∈ marks ∧
    String.utf8EncodeChar (upperDigit n) = [UInt8.ofNat (upperDigit n).toNat] ∧
    Hex.octetValue? (UInt8.ofNat (upperDigit n).toNat) = some n := by decide

theorem encode_append (escaped : Char → Bool) (cs ds : List Char) :
    encode escaped (cs ++ ds) = encode escaped cs ++ encode escaped ds := List.flatMap_append

theorem encode_cons (escaped : Char → Bool) (x : Char) (cs : List Char) :
    encode escaped (x :: cs) =
      (if escaped x then (String.utf8EncodeChar x).flatMap encodeOctet else [x]) ++
        encode escaped cs := List.flatMap_cons

theorem encode_cons_plain (plain : escaped x = false) (cs : List Char) :
    encode escaped (x :: cs) = x :: encode escaped cs := by
  rw [encode_cons, plain]
  rfl

theorem mem_marks_of_encodeOctet {b : UInt8} (there : x ∈ encodeOctet b) : x ∈ marks := by
  have small := b.toNat_lt
  simp only [encodeOctet, List.mem_cons, List.not_mem_nil, or_false] at there
  rcases there with rfl | rfl | rfl
  · exact List.mem_cons_self
  · exact (upperDigit_spec _ (by omega)).1
  · exact (upperDigit_spec _ (by omega)).1

theorem mem_encode (there : x ∈ encode escaped cs) :
    (x ∈ cs ∧ escaped x = false) ∨ x ∈ marks := by
  obtain ⟨c, listed, within⟩ := List.mem_flatMap.1 there
  cases plain : escaped c with
  | false =>
    rw [plain] at within
    cases List.mem_singleton.1 within
    exact .inl ⟨listed, plain⟩
  | true =>
    rw [plain] at within
    obtain ⟨b, _, octet⟩ := List.mem_flatMap.1 within
    exact .inr (mem_marks_of_encodeOctet octet)

theorem head_of_encode (first : (encode escaped cs).head? = some x) :
    cs.head? = some x ∨ x = '%' := by
  cases cs with
  | nil => cases first
  | cons c cs =>
    rw [encode_cons] at first
    cases plain : escaped c with
    | false =>
      rw [plain] at first
      exact .inl first
    | true =>
      obtain ⟨b, bs, octets⟩ := List.exists_cons_of_ne_nil (String.utf8EncodeChar_ne_nil (c := c))
      rw [plain, if_pos rfl, octets] at first
      cases first
      exact .inr rfl

theorem encode_of_plain (plain : ∀ c ∈ cs, escaped c = false) : encode escaped cs = cs := by
  induction cs with
  | nil => rfl
  | cons c cs ih =>
    obtain ⟨here, rest⟩ := List.forall_mem_cons.1 plain
    rw [encode_cons_plain here, ih rest]

theorem plain_of_mem_encode (unmarked : ∀ m ∈ marks, escaped m = false)
    (there : x ∈ encode escaped cs) : escaped x = false := by
  rcases mem_encode there with ⟨_, plain⟩ | mark
  · exact plain
  · exact unmarked x mark

theorem encode_eq_self_iff (unmarked : ∀ m ∈ marks, escaped m = false) :
    encode escaped cs = cs ↔ ∀ c ∈ cs, escaped c = false := by
  constructor
  · intro same c there
    rw [← same] at there
    exact plain_of_mem_encode unmarked there
  · exact encode_of_plain

theorem decode_cons_plain {b : UInt8} (plain : b ≠ 0x25) (rest : Bytes) :
    decode (b :: rest) = b :: decode rest := by
  rw [decode]
  intro h l tail percent
  exact absurd percent plain

theorem decode_append_plain {bs : Bytes} (plain : ∀ b ∈ bs, b ≠ 0x25) (rest : Bytes) :
    decode (bs ++ rest) = bs ++ decode rest := by
  induction bs with
  | nil => rfl
  | cons b bs ih =>
    obtain ⟨here, later⟩ := List.forall_mem_cons.1 plain
    rw [List.cons_append, decode_cons_plain here, ih later, List.cons_append]

theorem decode_encodeOctet (b : UInt8) (rest : Bytes) :
    decode (Utf8.encode (encodeOctet b) ++ rest) = b :: decode rest := by
  have small := b.toNat_lt
  obtain ⟨_, high, high_value⟩ := upperDigit_spec (b.toNat / 16) (by omega)
  obtain ⟨_, low, low_value⟩ := upperDigit_spec (b.toNat % 16) (by omega)
  have percent : String.utf8EncodeChar '%' = [0x25] := by decide
  have same : UInt8.ofNat (b.toNat / 16 * 16 + b.toNat % 16) = b := by
    rw [Nat.div_add_mod', UInt8.ofNat_toNat]
  simp only [Utf8.encode, encodeOctet, List.flatMap_cons, List.flatMap_nil, percent, high, low,
    List.cons_append, List.nil_append, decode, high_value, low_value, same]

theorem decode_encodeOctets (bs rest : Bytes) :
    decode (Utf8.encode (bs.flatMap encodeOctet) ++ rest) = bs ++ decode rest := by
  induction bs with
  | nil => rfl
  | cons b bs ih =>
    rw [List.flatMap_cons, Utf8.encode_append, List.append_assoc, decode_encodeOctet, ih,
      List.cons_append]

theorem decode_encode (unsigned : '%' ∉ cs) :
    decode (Utf8.encode (encode escaped cs)) = Utf8.encode cs := by
  induction cs with
  | nil => rfl
  | cons c cs ih =>
    have here : c ≠ '%' := fun is => unsigned (is ▸ List.mem_cons_self)
    have rest : '%' ∉ cs := fun there => unsigned (List.mem_cons_of_mem c there)
    rw [Utf8.encode_cons, encode_cons]
    cases escaped c with
    | true =>
      rw [if_pos rfl, Utf8.encode_append, decode_encodeOctets, ih rest]
    | false =>
      have plain : ∀ b ∈ String.utf8EncodeChar c, b ≠ 0x25 := by
        rintro b there rfl
        have same : c.toNat = ('%' : Char).toNat := Utf8.eq_of_mem_encode (by decide) there
        exact here (Char.toNat_inj.1 same)
      rw [if_neg Bool.false_ne_true, List.singleton_append, Utf8.encode_cons,
        decode_append_plain plain, ih rest]

end PackRelay.Percent
