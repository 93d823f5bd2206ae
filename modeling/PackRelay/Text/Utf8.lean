import PackRelay.Bytes

/-! UTF-8 over octet lists. `decode` is strict: overlong forms, surrogates and values past
U+10FFFF are refused. `decodeLossy` replaces each ill-formed stretch, cut as long as it could still
have begun a character, by U+FFFD. -/
namespace PackRelay.Utf8

def encode (cs : List Char) : Bytes := cs.flatMap String.utf8EncodeChar

def ofString (s : String) : Bytes := encode s.toList

def within (low high : UInt8) (b : UInt8) : Bool := low ≤ b && b ≤ high

def isTail (b : UInt8) : Bool := within 0x80 0xBF b

def tailBits (b : UInt8) : Nat := b.toNat % 64

def secondOfThree (lead : UInt8) : Option (UInt8 × UInt8) :=
  if lead == 0xE0 then some (0xA0, 0xBF)
  else if lead == 0xED then some (0x80, 0x9F)
  else if within 0xE1 0xEF lead then some (0x80, 0xBF)
  else none

def secondOfFour (lead : UInt8) : Option (UInt8 × UInt8) :=
  if lead == 0xF0 then some (0x90, 0xBF)
  else if lead == 0xF4 then some (0x80, 0x8F)
  else if within 0xF1 0xF3 lead then some (0x80, 0xBF)
  else none

/-- The first character and what follows it, or how many octets of the ill-formed start to skip. -/
def step : Bytes → Except Nat (Char × Bytes)
  | [] => .error 0
  | a :: rest =>
    if a < 0x80 then .ok (Char.ofNat a.toNat, rest)
    else if within 0xC2 0xDF a then
      match rest with
      | b :: rest => if isTail b then .ok (Char.ofNat (a.toNat % 32 * 64 + tailBits b), rest) else .error 1
      | [] => .error 1
    else match secondOfThree a, secondOfFour a with
      | some (low, high), _ =>
        match rest with
        | b :: rest =>
          if within low high b then
            match rest with
            | c :: rest =>
              if isTail c then
                .ok (Char.ofNat ((a.toNat % 16 * 64 + tailBits b) * 64 + tailBits c), rest)
              else .error 2
            | [] => .error 2
          else .error 1
        | [] => .error 1
      | none, some (low, high) =>
        match rest with
        | b :: rest =>
          if within low high b then
            match rest with
            | c :: rest =>
              if isTail c then
                match rest with
                | d :: rest =>
                  if isTail d then
                    .ok (Char.ofNat
                      (((a.toNat % 8 * 64 + tailBits b) * 64 + tailBits c) * 64 + tailBits d), rest)
                  else .error 3
                | [] => .error 3
              else .error 2
            | [] => .error 2
          else .error 1
        | [] => .error 1
      | none, none => .error 1

theorem step_shorter {bs rest : Bytes} {c : Char} (h : step bs = .ok (c, rest)) :
    rest.length < bs.length := by
  unfold step at h
  repeat' split at h
  all_goals first
    | (simp only [Except.ok.injEq, Prod.mk.injEq] at h; obtain ⟨_, rfl⟩ := h; simp <;> omega)
    | simp at h

def decode (bs : Bytes) : Option (List Char) :=
  match bs with
  | [] => some []
  | a :: tail =>
    match _h : step (a :: tail) with
    | .ok (c, rest) => (decode rest).map (c :: ·)
    | .error _ => none
termination_by bs.length
decreasing_by exact step_shorter ‹_›

/-- The characters of any octets, ill-formed stretches replaced. -/
def decodeLossy (bs : Bytes) : List Char :=
  match bs with
  | [] => []
  | a :: tail =>
    match _h : step (a :: tail) with
    | .ok (c, rest) => c :: decodeLossy rest
    | .error n => '\uFFFD' :: decodeLossy (tail.drop (n - 1))
termination_by bs.length
decreasing_by
  · exact step_shorter ‹_›
  · simp only [List.length_drop, List.length_cons]; omega

def toString? (bs : Bytes) : Option String := (decode bs).map String.ofList

end PackRelay.Utf8
