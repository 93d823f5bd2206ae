import PackRelay.Proofs.Text.Hex
import PackRelay.Url.Ipv6
import Mathlib.Algebra.Group.Nat.Defs
import Mathlib.Data.List.Basic

/-! Addresses of version six are read back from what they are written as, whichever run of zeros is
shortened. Whatever is read has eight words of sixteen bits. -/
namespace PackRelay

namespace Ipv6

variable {w d : Nat} {ws front back : List Nat} {cs rest behind : List Char} {c next : Char}
  {p q : Partial}

structure Valid (ws : List Nat) : Prop where
  length : ws.length = 8
  small : ∀ w ∈ ws, w < 65536

/-! ## What is read -/

theorem word_lt (width : Nat) (cs : List Char) (n : Nat) :
    (word width cs n).1 < (n + 1) * 16 ^ width := by
  have stopped (width : Nat) : n < (n + 1) * 16 ^ width :=
    Nat.lt_of_lt_of_le n.lt_succ_self (Nat.le_mul_of_pos_right _ (Nat.pow_pos (by decide)))
  induction cs generalizing width n with
  | nil => cases width <;> exact stopped _
  | cons c cs ih =>
    cases width with
    | zero => exact stopped 0
    | succ width =>
      unfold word
      split
      · rename_i d hex
        have digit := Hex.value?_lt hex
        calc (word width cs (n * 16 + d)).1 < (n * 16 + d + 1) * 16 ^ width :=
            ih width _ fun _ => Nat.lt_of_lt_of_le (Nat.lt_succ_self _)
              (Nat.le_mul_of_pos_right _ (Nat.pow_pos (by decide)))
          _ ≤ (n + 1) * 16 * 16 ^ width := Nat.mul_le_mul_right _ (by omega)
          _ = (n + 1) * 16 ^ (width + 1) := by rw [Nat.pow_succ', Nat.mul_assoc]
      · exact stopped _

theorem octet?_le {n : Nat} (read : octet? cs = some n) : n ≤ 255 := by
  unfold octet? at read
  split at read
  · cases read
  · simp only at read
    split at read
    · cases read
      assumption
    · cases read

theorem mapM_octet?_le {parts : List (List Char)} {ns : List Nat}
    (read : parts.mapM octet? = some ns) : ∀ n ∈ ns, n ≤ 255 := by
  induction parts generalizing ns with
  | nil =>
    cases read
    exact nofun
  | cons part parts ih =>
    simp only [List.mapM_cons, Option.bind_eq_bind, Option.bind_eq_some_iff,
      Option.pure_def, Option.some.injEq] at read
    obtain ⟨n, here, ns, later, rfl⟩ := read
    exact List.forall_mem_cons.2 ⟨octet?_le here, ih later⟩

theorem dotted?_valid (read : dotted? cs = some ws) : ws.length = 2 ∧ ∀ w ∈ ws, w < 65536 := by
  unfold dotted? at read
  split at read
  · rename_i a b c d octets
    cases read
    have small := mapM_octet?_le octets
    simp only [List.mem_cons, List.not_mem_nil, or_false, forall_eq_or_imp, forall_eq] at small ⊢
    exact ⟨rfl, by omega, by omega⟩
  · cases read

/-- What holds of the words read so far. -/
structure Partial.Sound (p : Partial) : Prop where
  length : p.words.length ≤ 8
  small : ∀ w ∈ p.words, w < 65536
  shortened : ∀ i, p.shortened = some i → i ≤ p.words.length

theorem Partial.Sound.push (sound : p.Sound) (room : p.words.length ≠ 8) (small : w < 65536) :
    Partial.Sound { p with words := w :: p.words } where
  length := by
    have := sound.length
    simp only [List.length_cons]
    omega
  small := List.forall_mem_cons.2 ⟨small, sound.small⟩
  shortened i is := Nat.le_succ_of_le (sound.shortened i is)

theorem words_sound (sound : p.Sound) (read : words cs p = some q) : q.Sound := by
  have fits {c : Char} {d n : Nat} {rest behind : List Char} (hex : Hex.value? c = some d)
      (is : word 3 rest d = (n, behind)) : n < 65536 := by
    have bound := word_lt 3 rest d
    rw [is] at bound
    have digit := Hex.value?_lt hex
    omega
  fun_induction words cs p with
  | case1 p =>
    cases read
    exact sound
  | case2 p rest full => cases read
  | case3 p rest room ih =>
    simp only [not_or] at room
    have pushed := sound.push room.1 (show 0 < 65536 by decide)
    refine ih ⟨pushed.length, pushed.small, ?_⟩ read
    rintro i ⟨⟩
    exact Nat.le_refl _
  | case4 p c rest other full => cases read
  | case5 p c rest other room hex => cases read
  | case6 p c rest other room d hex n is =>
    cases read
    exact sound.push room (fits hex is)
  | case7 p c rest other room d hex n next behind is ih =>
    exact ih (sound.push room (fits hex is)) read
  | case8 p c rest other room d hex n behind is full => cases read
  | case9 p c rest other room d hex n behind is space =>
    obtain ⟨pair, octets, rfl⟩ := Option.map_eq_some_iff.1 read
    obtain ⟨two, small⟩ := dotted?_valid octets
    have long : (pair.reverse ++ p.words).length = p.words.length + 2 := by
      rw [List.length_append, List.length_reverse, two, Nat.add_comm]
    refine ⟨?_, fun w there => ?_, fun i is => ?_⟩
    · rw [long]
      omega
    · rcases List.mem_append.1 there with new | old
      · exact small w (List.mem_reverse.1 new)
      · exact sound.small w old
    · have before := sound.shortened i is
      exact long ▸ Nat.le_add_right_of_le before
  | case10 p c rest other room d hex => cases read

theorem Partial.Sound.finish (sound : p.Sound) (read : p.finish = some ws) : Valid ws := by
  have length := sound.length
  have small : ∀ w ∈ p.words.reverse, w < 65536 := fun w there =>
    sound.small w (List.mem_reverse.1 there)
  unfold Partial.finish at read
  simp only at read
  split at read
  · split at read
    · rename_i full
      cases read
      exact ⟨full, small⟩
    · cases read
  · rename_i i is
    cases read
    have inside := sound.shortened i is
    constructor
    · simp only [List.length_append, List.length_take, List.length_drop, List.length_replicate,
        List.length_reverse]
      omega
    · intro w there
      simp only [List.mem_append, List.mem_replicate] at there
      rcases there with (before | ⟨_, rfl⟩) | after
      · exact small w (List.mem_of_mem_take before)
      · decide
      · exact small w (List.mem_of_mem_drop after)

theorem valid_of_parse (read : parse cs = some ws) : Valid ws := by
  have finished {cs : List Char} {p : Partial} (sound : p.Sound)
      (read : (words cs p).bind Partial.finish = some ws) : Valid ws := by
    obtain ⟨q, reads, finish⟩ := Option.bind_eq_some_iff.1 read
    exact (words_sound sound reads).finish finish
  unfold parse at read
  split at read
  · cases read
  · cases read
  · refine finished ⟨by decide, by decide, ?_⟩ read
    rintro i ⟨⟩
    exact Nat.le_refl 1
  · cases read
  · refine finished (p := ⟨[], none⟩) ⟨Nat.zero_le 8, fun w there => ?_, fun i is => ?_⟩ read
    · cases there
    · cases is

/-! ## What is written -/

theorem word_toDigits (width w : Nat) (rest : List Char) :
    word (width + (Nat.toDigits 16 w).length) (Nat.toDigits 16 w ++ rest) 0 =
      word width rest w := by
  induction w using Nat.strongRecOn generalizing width rest with
  | ind w ih =>
    have digit {k n : Nat} (small : k < 16) (width : Nat) (rest : List Char) :
        word (width + 1) (Nat.digitChar k :: rest) n = word width rest (n * 16 + k) := by
      simp only [word, Hex.value?_digitChar k small]
    by_cases single : w < 16
    · rw [Nat.toDigits_of_lt_base single, List.length_singleton, List.singleton_append,
        digit single, Nat.zero_mul, Nat.zero_add]
    · have last : w % 16 < 16 := Nat.mod_lt w (by decide)
      have whole : w / 16 * 16 + w % 16 = w := by omega
      rw [Nat.toDigits_of_base_le (by decide) (Nat.le_of_not_lt single), List.length_append,
        List.length_singleton, List.append_assoc, List.singleton_append,
        Nat.add_comm _ 1, ← Nat.add_assoc, ih (w / 16) (by omega), digit last, whole]

theorem exists_toDigits (w : Nat) :
    ∃ c cs d, Nat.toDigits 16 w = c :: cs ∧ Hex.value? c = some d := by
  obtain ⟨c, cs, digits⟩ := List.exists_cons_of_ne_nil (Nat.toDigits_ne_nil (n := w) (b := 16))
  obtain ⟨d, small, rfl⟩ := mem_toDigits (by decide) (digits ▸ List.mem_cons_self)
  exact ⟨_, cs, d, digits, Hex.value?_digitChar d small⟩

/-- A word is read up to what is no digit. -/
theorem word_reads (small : w < 65536) : ∃ c cs d, Nat.toDigits 16 w = c :: cs ∧ c ≠ ':' ∧
    Hex.value? c = some d ∧ ∀ rest, (∀ x ∈ rest.head?, Hex.value? x = none) →
      word 3 (cs ++ rest) d = (w, rest) := by
  obtain ⟨c, cs, d, digits, hex⟩ := exists_toDigits w
  refine ⟨c, cs, d, digits, ?_, hex, fun rest stops => ?_⟩
  · rintro rfl
    cases hex
  · have short : (Nat.toDigits 16 w).length ≤ 4 :=
      (Nat.length_toDigits_le_iff (by decide) (by decide)).2 small
    -- Four digits are read at most; what is left of them stops at what follows.
    have whole := word_toDigits (4 - (Nat.toDigits 16 w).length) w rest
    rw [Nat.sub_add_cancel short, digits, List.cons_append, word, hex] at whole
    simp only [Nat.zero_mul, Nat.zero_add] at whole
    rw [whole]
    cases rest with
    | nil => cases 4 - (c :: cs).length <;> rfl
    | cons x rest =>
      have stop := stops x rfl
      cases 4 - (c :: cs).length with
      | zero => rfl
      | succ width => simp only [word, stop]

theorem words_last (small : w < 65536) (room : p.words.length ≠ 8) :
    words (Nat.toDigits 16 w) p = some { p with words := w :: p.words } := by
  obtain ⟨c, cs, d, digits, other, hex, reads⟩ := word_reads small
  have read := reads [] nofun
  rw [List.append_nil] at read
  rw [digits, words, if_neg room]
  · simp only [hex]
    split
    · rename_i n is
      cases read.symm.trans is
      rfl
    · rename_i is
      cases read.symm.trans is
    · rename_i is
      cases read.symm.trans is
    · rename_i ends _ _
      exact absurd read (ends w)
  · exact other

theorem words_next (small : w < 65536) (room : p.words.length ≠ 8) (next : Char)
    (behind : List Char) : words (Nat.toDigits 16 w ++ ':' :: next :: behind) p =
      words (next :: behind) { p with words := w :: p.words } := by
  obtain ⟨c, cs, d, digits, other, hex, reads⟩ := word_reads small
  have read := reads (':' :: next :: behind) (by rintro x ⟨⟩; rfl)
  rw [digits, List.cons_append, words, if_neg room]
  · simp only [hex]
    split
    · rename_i is
      cases read.symm.trans is
    · rename_i n next behind is
      cases read.symm.trans is
      rfl
    · rename_i is
      cases read.symm.trans is
    · rename_i _ goes _
      exact absurd read (goes w next behind)
  · exact other

theorem joined_cons (w v : Nat) (ws : List Nat) :
    joined (w :: v :: ws) = Nat.toDigits 16 w ++ ':' :: joined (v :: ws) := by
  simp only [joined, List.map_cons, List.intercalate_cons_cons, List.append_assoc,
    List.singleton_append]

theorem joined_singleton (w : Nat) : joined [w] = Nat.toDigits 16 w := by
  simp [joined]

theorem joined_head (some_ : ws ≠ []) : ∃ c cs, joined ws = c :: cs ∧ c ≠ ':' := by
  obtain ⟨w, ws, rfl⟩ := List.exists_cons_of_ne_nil some_
  obtain ⟨c, cs, d, digits, hex⟩ := exists_toDigits w
  have other : c ≠ ':' := by
    rintro rfl
    cases hex
  cases ws with
  | nil => exact ⟨c, cs, by rw [joined_singleton, digits], other⟩
  | cons v ws => exact ⟨c, _, by rw [joined_cons, digits]; rfl, other⟩

theorem words_joined (some_ : ws ≠ []) (small : ∀ w ∈ ws, w < 65536)
    (room : p.words.length + ws.length ≤ 8) :
    words (joined ws) p = some { p with words := ws.reverse ++ p.words } ∧
      ∀ next behind, words (joined ws ++ ':' :: next :: behind) p =
        words (next :: behind) { p with words := ws.reverse ++ p.words } := by
  induction ws generalizing p with
  | nil => exact absurd rfl some_
  | cons w ws ih =>
    obtain ⟨here, later⟩ := List.forall_mem_cons.1 small
    rw [List.length_cons] at room
    have space : p.words.length ≠ 8 := by omega
    cases ws with
    | nil =>
      rw [joined_singleton]
      exact ⟨words_last here space, words_next here space⟩
    | cons v ws =>
      have room' : (w :: p.words).length + (v :: ws).length ≤ 8 := by
        rw [List.length_cons (a := w)]
        omega
      have rest := ih (p := { p with words := w :: p.words }) (List.cons_ne_nil v ws) later room'
      have all : (w :: v :: ws).reverse ++ p.words = (v :: ws).reverse ++ w :: p.words := by
        rw [List.reverse_cons (a := w), List.append_assoc, List.singleton_append]
      obtain ⟨c, cs, joins, _⟩ := joined_head (List.cons_ne_nil v ws)
      rw [joined_cons, all]
      refine ⟨?_, fun next behind => ?_⟩
      · rw [← rest.1, joins]
        exact words_next here space c cs
      · rw [← rest.2, joins, List.append_assoc]
        exact words_next here space c _

/-- What stands in the place of `::`. -/
theorem words_shortened (small : ∀ w ∈ back, w < 65536) (room : front.length + back.length < 8) :
    words (joined back) ⟨0 :: front.reverse, some (front.length + 1)⟩ =
      some ⟨back.reverse ++ 0 :: front.reverse, some (front.length + 1)⟩ := by
  cases back with
  | nil =>
    rw [show joined [] = [] from rfl, words]
    rfl
  | cons w ws =>
    refine (words_joined (List.cons_ne_nil w ws) small ?_).1
    simp only [List.length_cons, List.length_reverse] at room ⊢
    omega

theorem finish_shortened {n : Nat} (whole : front.length + (n + 1) + back.length = 8) :
    Partial.finish ⟨back.reverse ++ 0 :: front.reverse, some (front.length + 1)⟩ =
      some (front ++ List.replicate (n + 1) 0 ++ back) := by
  have read : (back.reverse ++ 0 :: front.reverse).reverse = (front ++ [0]) ++ back := by simp
  have one : (front ++ [0]).length = front.length + 1 := by simp
  have left : 8 - ((front ++ [0]) ++ back).length = n := by
    rw [List.length_append, one]
    omega
  simp only [Partial.finish, read, left]
  rw [← one, List.take_left, List.drop_left, List.append_assoc front, List.singleton_append,
    ← List.replicate_succ]

/-- What addresses are written with. -/
def letters : List Char :=
  ['0', '1', '2', '3', '4', '5', '6', '7', '8', '9', 'a', 'b', 'c', 'd', 'e', 'f', ':']

theorem digitChar_mem_letters : ∀ d < 16, Nat.digitChar d ∈ letters := by decide

theorem mem_joined (there : c ∈ joined ws) : c ∈ letters := by
  have digit {w : Nat} (there : c ∈ Nat.toDigits 16 w) : c ∈ letters := by
    obtain ⟨d, small, rfl⟩ := mem_toDigits (by decide) there
    exact digitChar_mem_letters d small
  induction ws with
  | nil => cases there
  | cons w ws ih =>
    cases ws with
    | nil =>
      rw [joined_singleton] at there
      exact digit there
    | cons v ws =>
      rw [joined_cons] at there
      rcases List.mem_append.1 there with here | there
      · exact digit here
      · rcases List.mem_cons.1 there with rfl | there
        · decide
        · exact ih there

theorem mem_text (there : c ∈ text ws) : c ∈ letters := by
  unfold text at there
  simp only at there
  split at there
  · exact mem_joined there
  · rcases List.mem_append.1 there with there | there
    · rcases List.mem_append.1 there with there | there
      · exact mem_joined there
      · simp only [List.mem_cons, List.not_mem_nil, or_false, or_self] at there
        rw [there]
        decide
    · exact mem_joined there

/-- There are zeros from here on, as many as this. -/
def IsRun (ws : List Nat) (run : Nat × Nat) : Prop :=
  ∃ front back, ws = front ++ List.replicate run.2 0 ++ back ∧ front.length = run.1

theorem isRun_longestRun {before rest : List Nat} {run : Nat} {best : Nat × Nat}
    (whole : ws = before ++ rest) (ends : ∃ front, before = front ++ List.replicate run 0)
    (found : IsRun ws best) : IsRun ws (longestRun rest before.length run best) := by
  induction rest generalizing before run best with
  | nil => exact found
  | cons w rest ih =>
    have whole' : ws = (before ++ [w]) ++ rest := by
      rw [whole, List.append_assoc, List.singleton_append]
    have next : (before ++ [w]).length = before.length + 1 := by simp
    unfold longestRun
    rw [← next]
    split
    · rename_i zero
      obtain ⟨front, is⟩ := ends
      have longer : before ++ [w] = front ++ List.replicate (run + 1) 0 := by
        rw [is, zero, List.append_assoc, List.replicate_succ']
      have start : before.length - run = front.length := by simp [is]
      refine ih whole' ⟨front, longer⟩ ?_
      split
      · exact ⟨front, rest, longer ▸ whole', start.symm⟩
      · exact found
    · exact ih whole' ⟨before ++ [w], by simp⟩ found

theorem parse_eq (other : c ≠ ':') (long : cs ≠ []) :
    parse (c :: cs) = (words (c :: cs) ⟨[], none⟩).bind Partial.finish := by
  unfold parse
  split
  · rename_i is
    cases is
  · rename_i is
    cases is
    exact absurd rfl long
  · rename_i is
    cases is
    exact absurd rfl other
  · rename_i is
    cases is
    exact absurd rfl other
  · rfl

theorem parse_joined (valid : Valid ws) : parse (joined ws) = some ws := by
  have length := valid.length
  match ws, length with
  | w :: v :: ws, length =>
    have room : ([] : List Nat).length + (w :: v :: ws).length ≤ 8 := by
      rw [length]
      exact Nat.le_refl 8
    have read := (words_joined (p := ⟨[], none⟩) (List.cons_ne_nil w _) valid.small room).1
    obtain ⟨c, cs, joins, other⟩ := joined_head (List.cons_ne_nil w (v :: ws))
    have long : cs ≠ [] := by
      rintro rfl
      have two := congrArg List.length joins
      have digits := List.length_pos_of_ne_nil (Nat.toDigits_ne_nil (n := w) (b := 16))
      simp only [joined_cons, List.length_append, List.length_cons, List.length_nil] at two
      omega
    rw [joins] at read ⊢
    rw [parse_eq other long, read, Option.bind_some]
    simp only [Partial.finish, List.append_nil, List.reverse_reverse, length, if_true]

theorem parse_shortened {n : Nat} (small : ∀ w ∈ front ++ back, w < 65536)
    (whole : front.length + (n + 2) + back.length = 8) :
    parse (joined front ++ [':', ':'] ++ joined back) =
      some (front ++ List.replicate (n + 2) 0 ++ back) := by
  have behind : words (joined back) ⟨0 :: front.reverse, some (front.length + 1)⟩ = _ :=
    words_shortened (fun w there => small w (List.mem_append_right _ there)) (by omega)
  rw [List.append_assoc]
  by_cases empty : front = []
  · subst empty
    have read : parse (joined [] ++ ([':', ':'] ++ joined back)) =
        (words (joined back) ⟨[0], some 1⟩).bind Partial.finish := rfl
    rw [read, show words (joined back) ⟨[0], some 1⟩ = _ from behind, Option.bind_some]
    exact finish_shortened whole
  · have room : ([] : List Nat).length + front.length ≤ 8 := by
      rw [List.length_nil]
      omega
    have before := (words_joined (p := ⟨[], none⟩) empty
      (fun w there => small w (List.mem_append_left _ there)) room).2 ':' (joined back)
    obtain ⟨c, cs, joins, other⟩ := joined_head empty
    have read : parse (joined front ++ ([':', ':'] ++ joined back)) =
        (words (joined front ++ ([':', ':'] ++ joined back)) ⟨[], none⟩).bind Partial.finish := by
      rw [joins]
      exact parse_eq other (by simp)
    -- The second colon stands for a zero, and for as many more as are missing at the end.
    have mark : words (':' :: joined back) ⟨front.reverse ++ [], none⟩ =
        words (joined back) ⟨0 :: front.reverse, some (front.length + 1)⟩ := by
      rw [List.append_nil, words, if_neg, List.length_reverse]
      rintro (full | twice)
      · rw [List.length_reverse] at full
        omega
      · cases twice
    rw [read, List.cons_append, List.singleton_append, before, mark, behind, Option.bind_some]
    exact finish_shortened whole

theorem parse_text (valid : Valid ws) : parse (text ws) = some ws := by
  have found : IsRun ws (longestRun ws 0 0 (0, 0)) :=
    isRun_longestRun (List.nil_append ws).symm ⟨[], rfl⟩ ⟨[], ws, rfl, rfl⟩
  unfold text
  generalize longestRun ws 0 0 (0, 0) = run at found ⊢
  obtain ⟨start, length⟩ := run
  obtain ⟨front, back, is, rfl⟩ := found
  simp only at is ⊢
  split
  · exact parse_joined valid
  · rename_i long
    obtain ⟨n, rfl⟩ := Nat.exists_eq_add_of_le' (Nat.le_of_not_lt long)
    have before : ws.take front.length = front := by
      rw [is, List.append_assoc, List.take_left]
    have behind : ws.drop (front.length + (n + 2)) = back := by
      rw [is, List.drop_append_of_le_length, List.drop_of_length_le] <;> simp
    have whole := valid.length
    have small : ∀ w ∈ front ++ back, w < 65536 := fun w there => valid.small w (by
      rw [is]
      simp only [List.mem_append] at there ⊢
      exact there.imp_left Or.inl)
    rw [is, List.length_append, List.length_append, List.length_replicate] at whole
    rw [before, behind, parse_shortened small whole, ← is]

end Ipv6
end PackRelay
