import PackRelay.Proofs.Url.Host
import Mathlib.Data.List.TakeWhile

/-! URLs of schemes that are not of the web, read from their text. Whatever stands behind two slashes,
the host that is read can be written down and read again, and the path is in resolved form or empty. -/
namespace PackRelay

section Outcomes

variable {ε α β : Type} {a : α} {b : β} {e : ε} {x y : Except ε α} {f : α → Except ε β}
  {p : Prop} [Decidable p]

theorem ok_of_bind (read : (x >>= f) = .ok b) : ∃ a, x = .ok a ∧ f a = .ok b := by
  cases x with
  | error e => cases read
  | ok a => exact ⟨a, rfl, read⟩

theorem ok_of_guard (read : (if p then .error e else x) = .ok a) : ¬p ∧ x = .ok a := by
  split at read
  · cases read
  · rename_i goes
    exact ⟨goes, read⟩

theorem ok_of_choice (read : (if p then x >>= f else y >>= f) = .ok b) :
    ∃ a, (if p then x else y) = .ok a ∧ f a = .ok b := by
  rw [← apply_ite (· >>= f)] at read
  exact ok_of_bind read

end Outcomes

namespace Url

variable {cs pre rest scheme : List Char} {c : Char} {host : Host} {kind : SchemeKind} {n : Nat}
  {url : Url}

/-! ## What counts -/

theorem dropWhile_visible (first : ∀ c ∈ cs.head?, isBlank c = false) :
    cs.dropWhile isBlank = cs := by
  cases cs with
  | nil => rfl
  | cons c cs => exact List.dropWhile_cons_of_neg (Bool.eq_false_iff.1 (first c rfl))

/-- What counts of the end of a text. -/
def trail (cs : List Char) : List Char :=
  ((cs.reverse.dropWhile isBlank).reverse).filter (!isDropped ·)

theorem trail_eq (last : ∀ c ∈ cs.getLast?, isBlank c = false)
    (kept : ∀ c ∈ cs, isDropped c = false) : trail cs = cs := by
  have first : ∀ c ∈ cs.reverse.head?, isBlank c = false := by
    rw [List.head?_reverse]
    exact last
  rw [trail, dropWhile_visible first, List.reverse_reverse, List.filter_eq_self]
  intro c there
  rw [kept c there]
  rfl

theorem significant_append (some_ : pre ≠ [])
    (visible : ∀ c ∈ pre, isBlank c = false ∧ isDropped c = false) (cs : List Char) :
    significant (pre ++ cs) = pre ++ trail cs := by
  have here {c : Char} (there : c ∈ pre) : isBlank c = false := (visible c there).1
  have before : (pre ++ cs).dropWhile isBlank = pre ++ cs := by
    refine dropWhile_visible fun c first => here ?_
    rw [List.head?_append_of_ne_nil _ some_] at first
    exact List.mem_of_mem_head? first
  have behind : pre.reverse.dropWhile isBlank = pre.reverse :=
    dropWhile_visible fun c first => here (List.mem_reverse.1 (List.mem_of_mem_head? first))
  have whole : (((pre ++ cs).dropWhile isBlank).reverse.dropWhile isBlank).reverse =
      pre ++ (cs.reverse.dropWhile isBlank).reverse := by
    rw [before, List.reverse_append, List.dropWhile_append, behind]
    -- Blanks at the end reach into `pre` only if all that stands behind it is blank.
    split
    · rename_i nothing
      rw [List.isEmpty_iff.1 nothing, List.reverse_reverse, List.reverse_nil, List.append_nil]
    · rw [List.reverse_append, List.reverse_reverse]
  have kept : pre.filter (!isDropped ·) = pre := by
    refine List.filter_eq_self.2 fun c there => ?_
    rw [(visible c there).2]
    rfl
  rw [significant, whole, List.filter_append, kept, trail]

/-! ## Schemes -/

/-- A scheme as it is written down, and not of the web. -/
structure IsOther (scheme : List Char) : Prop where
  starts : scheme.head?.any Char.isAlpha = true
  letters : ∀ c ∈ scheme, isSchemeChar c = true ∧ c.toLower = c
  visible : ∀ c ∈ scheme, isBlank c = false ∧ isDropped c = false
  kind : SchemeKind.of (String.ofList scheme) = .other

theorem isOther_tcp : IsOther ['t', 'c', 'p'] where
  starts := by decide
  letters := List.all_iff_forall_prop.1 (by decide)
  visible := List.all_iff_forall_prop.1 (by decide)
  kind := by decide

theorem isOther_unix : IsOther ['u', 'n', 'i', 'x'] where
  starts := by decide
  letters := List.all_iff_forall_prop.1 (by decide)
  visible := List.all_iff_forall_prop.1 (by decide)
  kind := by decide

theorem splitScheme_append (other : IsOther scheme) (rest : List Char) :
    splitScheme (scheme ++ ':' :: rest) = some (scheme, rest) := by
  have letters : ∀ c ∈ scheme, isSchemeChar c = true := fun c there => (other.letters c there).1
  have before : (scheme ++ ':' :: rest).takeWhile isSchemeChar = scheme := by
    rw [List.takeWhile_append_of_pos letters, List.takeWhile_cons_of_neg (by decide),
      List.append_nil]
  have behind : (scheme ++ ':' :: rest).dropWhile isSchemeChar = ':' :: rest := by
    rw [List.dropWhile_append_of_pos letters, List.dropWhile_cons_of_neg (by decide)]
  have lower : scheme.map Char.toLower = scheme := by
    rw [List.map_congr_left fun c there => (other.letters c there).2, List.map_id']
  have starts := other.starts
  rw [splitScheme, before, behind]
  cases scheme with
  | nil => cases starts
  | cons c more =>
    simp only [List.head?_cons, Option.any_some] at starts
    simp only [starts, lower, if_true]

theorem splitScheme_slashes (other : IsOther scheme) (cs : List Char) :
    splitScheme (significant (scheme ++ [':', '/', '/'] ++ cs)) =
      some (scheme, '/' :: '/' :: trail cs) := by
  have visible : ∀ c ∈ scheme ++ [':', '/', '/'], isBlank c = false ∧ isDropped c = false := by
    intro c there
    rcases List.mem_append.1 there with letter | mark
    · exact other.visible c letter
    · have marks : ∀ c ∈ [':', '/', '/'], isBlank c = false ∧ isDropped c = false :=
        List.all_iff_forall_prop.1 (by decide)
      exact marks c mark
  rw [significant_append (List.append_ne_nil_of_right_ne_nil _ (List.cons_ne_nil _ _)) visible,
    List.append_assoc]
  exact splitScheme_append other _

theorem parse_slashes (other : IsOther scheme) (cs : List Char) :
    parse (scheme ++ [':', '/', '/'] ++ cs) = afterSlashes scheme .other (trail cs) := by
  simp only [parse, splitScheme_slashes other, other.kind, afterScheme]

/-! ## Behind two slashes -/

theorem isSeparator_false : isSeparator false = (· = '/') := by
  funext c
  simp only [isSeparator, Bool.false_and, Bool.or_false]

theorem pathAfterHost_slash (cs : List Char) :
    pathAfterHost false ('/' :: cs) = absolutePath (· = '/') (beforeQuery cs) := by
  have slash : beforeQuery ('/' :: cs) = '/' :: beforeQuery cs :=
    List.takeWhile_cons_of_pos (by decide)
  simp only [pathAfterHost, slash, isSeparator_false, decide_true, if_true]

/-- Nothing before the path. -/
theorem afterSlashes_path (scheme cs : List Char) :
    afterSlashes scheme .other ('/' :: cs) =
      .ok ⟨scheme, none, none, absolutePath (· = '/') (beforeQuery cs)⟩ := by
  rw [← pathAfterHost_slash]
  rfl

theorem pathAfterHost_resolved (cs : List Char) :
    pathAfterHost false cs = [] ∨ Resolved (pathAfterHost false cs) := by
  unfold pathAfterHost
  split
  · exact .inl rfl
  · rw [isSeparator_false]
    exact .inr (resolved_absolutePath _)

theorem splitUser_eq (unsigned : '@' ∉ cs) : splitUser false cs = .ok (false, cs) := by
  have none_ : (cs.takeWhile (!endsAuthority false ·)).contains '@' = false := by
    refine eq_false_of_ne_true fun is => unsigned ?_
    exact List.takeWhile_subset _ (List.contains_iff_mem.1 is)
  simp only [splitUser, none_, Bool.not_false, if_true]

theorem digit_spec : ∀ d < 10, (Nat.digitChar d).isDigit = true ∧
    (Nat.digitChar d).toNat - 48 = d := by decide

theorem portDigits_toDigits (small : n ≤ 65535) (rest : List Char) :
    portDigits (Nat.toDigits 10 n ++ rest) none = portDigits rest (some n) := by
  have step {d : Nat} {before : Option Nat} (digit : d < 10)
      (fits : before.getD 0 * 10 + d ≤ 65535) (rest : List Char) :
      portDigits (Nat.digitChar d :: rest) before =
        portDigits rest (some (before.getD 0 * 10 + d)) := by
    obtain ⟨is, value⟩ := digit_spec d digit
    simp only [portDigits, is, value, if_true, if_neg (Nat.not_lt.2 fits)]
  induction n using Nat.strongRecOn generalizing rest with
  | ind n ih =>
    by_cases single : n < 10
    · rw [Nat.toDigits_of_lt_base single, List.singleton_append, step single]
      · simp only [Option.getD_none, Nat.zero_mul, Nat.zero_add]
      · simpa only [Option.getD_none, Nat.zero_mul, Nat.zero_add] using small
    · have whole : n / 10 * 10 + n % 10 = n := by omega
      rw [Nat.toDigits_of_base_le (by decide) (Nat.le_of_not_lt single), List.append_assoc,
        List.singleton_append, ih (n / 10) (by omega) (by omega), step (Nat.mod_lt n (by decide))]
      · simp only [Option.getD_some, whole]
      · simpa only [Option.getD_some, whole] using small

theorem digit_plain : ∀ d < 10, IsPlain (Nat.digitChar d) := by decide

/-- A host and a port, and nothing else. -/
theorem parse_hostAndPort (other : IsOther scheme) (named : Names cs host)
    (some_ : host ≠ .name []) (small : n ≤ 65535) :
    parse (scheme ++ [':', '/', '/'] ++ (cs ++ ':' :: Nat.toDigits 10 n)) =
      .ok ⟨scheme, some host, some n, []⟩ := by
  have plain : ∀ c ∈ cs ++ ':' :: Nat.toDigits 10 n, IsPlain c := by
    intro c there
    rcases List.mem_append.1 there with before | there
    · exact named.plain c before
    · rcases List.mem_cons.1 there with rfl | there
      · decide
      · obtain ⟨d, digit, rfl⟩ := mem_toDigits (by decide) there
        exact digit_plain d digit
  have whole : trail (cs ++ ':' :: Nat.toDigits 10 n) = cs ++ ':' :: Nat.toDigits 10 n :=
    trail_eq (fun c last => (plain c (List.mem_of_getLast? last)).2.2.1)
      fun c there => (plain c there).2.2.2
  have unsigned : '@' ∉ cs ++ ':' :: Nat.toDigits 10 n := fun there =>
    (plain '@' there).2.1 rfl
  have port := portDigits_toDigits small []
  rw [List.append_nil] at port
  rw [parse_slashes other, whole]
  simp only [afterSlashes, SchemeKind.isSpecial, splitUser_eq unsigned, named.found, named.read,
    splitPort, port, portDigits, some_, pathAfterHost, beforeQuery, bind, Except.bind, pure,
    Except.pure, Bool.false_and, Bool.false_eq_true, decide_false, if_false, reduceCtorEq,
    List.takeWhile_nil]

/-- A path, and nothing else. -/
theorem parse_path (other : IsOther scheme) (last : ∀ c ∈ ('/' :: cs).getLast?, isBlank c = false)
    (kept : ∀ c ∈ '/' :: cs, isDropped c = false) (whole : ∀ c ∈ cs, c ≠ '?' ∧ c ≠ '#') :
    parse (scheme ++ [':', '/', '/'] ++ '/' :: cs) =
      .ok ⟨scheme, none, none, absolutePath (· = '/') cs⟩ := by
  have unasked : beforeQuery cs = cs := by
    refine List.takeWhile_eq_self_iff.2 fun c there => ?_
    simpa only [Bool.and_eq_true, decide_eq_true_eq] using whole c there
  rw [parse_slashes other, trail_eq last kept, afterSlashes_path, unasked]

theorem plain_of_unescaped (plain : Percent.isPathEscaped c = false) :
    (isBlank c = false ∧ isDropped c = false) ∧ c ≠ '?' ∧ c ≠ '#' := by
  have other {d : Char} (escaped : Percent.isPathEscaped d = true) : c ≠ d := by
    rintro rfl
    exact Bool.false_ne_true (plain.symm.trans escaped)
  exact ⟨visible_of_printable (Bool.or_eq_false_iff.1 plain).1 (other (by decide)),
    other (by decide), other (by decide)⟩

theorem parse_resolved {path : List Char} (other : IsOther scheme) (resolved : Resolved path) :
    parse (scheme ++ [':', '/', '/'] ++ path) = .ok ⟨scheme, none, none, path⟩ := by
  have plain : ∀ c ∈ path, _ := fun c there => plain_of_unescaped (resolved.plain c there)
  obtain ⟨cs, rfl⟩ := resolved.absolute
  rw [parse_path other (fun c last => (plain c (List.mem_of_getLast? last)).1.1)
    (fun c there => (plain c there).1.2)
    (fun c there => (plain c (List.mem_cons_of_mem _ there)).2), absolutePath_resolved resolved]

/-! ## What is read -/

theorem portDigits_le {before port : Option Nat} (start : ∀ n ∈ before, n ≤ 65535)
    (read : portDigits cs before = .ok (port, rest)) : ∀ n ∈ port, n ≤ 65535 := by
  induction cs generalizing before with
  | nil =>
    cases read
    exact start
  | cons c cs ih =>
    unfold portDigits at read
    split at read
    · obtain ⟨fits, read⟩ := ok_of_guard read
      refine ih ?_ read
      rintro n ⟨⟩
      exact Nat.le_of_not_lt fits
    · split at read
      · cases read
        exact start
      · cases read

theorem splitPort_le {port : Option Nat} (read : splitPort cs = .ok (port, rest)) :
    ∀ n ∈ port, n ≤ 65535 := by
  unfold splitPort at read
  split at read
  · refine portDigits_le ?_ read
    rintro n ⟨⟩
  · cases read
    rintro n ⟨⟩

theorem afterSlashes_ok (read : afterSlashes scheme kind cs = .ok url) :
    ∃ hostText host port before behind,
      (if kind.isSpecial then webHost hostText else opaqueHost hostText) = .ok host ∧
      splitPort before = .ok (port, behind) ∧
      url = ⟨scheme, if host = .name [] then none else some host,
        if kind = .web (port.getD 0) then none else port,
        pathAfterHost kind.isSpecial behind⟩ := by
  unfold afterSlashes at read
  obtain ⟨⟨hasUser, authority⟩, _, read⟩ := ok_of_bind read
  obtain ⟨_, read⟩ := ok_of_guard read
  obtain ⟨host, host_read, read⟩ := ok_of_choice read
  obtain ⟨_, read⟩ := ok_of_guard read
  obtain ⟨⟨port, behind⟩, port_read, read⟩ := ok_of_bind read
  obtain ⟨_, read⟩ := ok_of_guard read
  cases read
  exact ⟨_, host, port, _, behind, host_read, port_read, rfl⟩

/-- What is known of a URL with two slashes behind its scheme. -/
structure Sound (url : Url) : Prop where
  host : ∀ h ∈ url.host, h ≠ .name [] ∧ Names h.text h
  port : ∀ n ∈ url.port, n ≤ 65535
  path : url.path = [] ∨ Resolved url.path

theorem sound_of_afterSlashes (read : afterSlashes scheme .other cs = .ok url) : Sound url := by
  obtain ⟨hostText, host, port, before, behind, host_read, port_read, rfl⟩ := afterSlashes_ok read
  constructor
  · intro h is
    simp only at is
    split at is
    · cases is
    · rename_i named
      cases is
      exact ⟨named, names_of_opaqueHost host_read⟩
  · exact splitPort_le port_read
  · exact pathAfterHost_resolved behind

theorem scheme_of_afterFile (read : afterFile scheme cs = .ok url) : url.scheme = scheme := by
  unfold afterFile at read
  simp only [pure, Except.pure] at read
  split at read
  · split at read
    · split at read
      · cases read
        rfl
      · split at read
        · cases read
          rfl
        · obtain ⟨host, _, read⟩ := ok_of_bind read
          cases read
          rfl
    · cases read
      rfl
  · cases read
    rfl

theorem scheme_of_afterScheme (read : afterScheme scheme cs = .ok url) : url.scheme = scheme := by
  unfold afterScheme at read
  split at read
  · obtain ⟨_, _, _, _, _, _, _, rfl⟩ := afterSlashes_ok read
    rfl
  · cases read
    rfl
  · cases read
    rfl

theorem afterScheme_ok (read : afterScheme scheme cs = .ok url) :
    (cs.head? = some '/' ∧ Sound url) ∨
      (cs.head? ≠ some '/' ∧ url.host = none ∧ url.path.head? ≠ some '/') := by
  unfold afterScheme at read
  split at read
  · exact .inl ⟨rfl, sound_of_afterSlashes read⟩
  · cases read
    refine .inl ⟨rfl, nofun, nofun, .inr ?_⟩
    rw [isSeparator_false]
    exact resolved_absolutePath _
  · rename_i opaque_
    cases read
    have unslashed : cs.head? ≠ some '/' := by
      intro first
      obtain ⟨rest, rfl⟩ := List.head?_eq_some_iff.1 first
      exact opaque_ rest rfl
    refine .inr ⟨unslashed, rfl, fun first => ?_⟩
    rcases Percent.head_of_encode first with first | mark
    · rw [beforeQuery, List.head?_takeWhile] at first
      exact unslashed (Option.filter_eq_some_iff.1 first).1
    · cases mark

/-- A URL that is not of the web is what follows its scheme. -/
theorem parse_ok (read : parse cs = .ok url)
    (other : SchemeKind.of (String.ofList url.scheme) = .other) :
    ∃ rest, splitScheme (significant cs) = some (url.scheme, rest) ∧
      afterScheme url.scheme rest = .ok url := by
  unfold parse at read
  split at read
  · cases read
  · rename_i scheme rest is
    have same : url.scheme = scheme := by
      split at read
      · obtain ⟨_, _, _, _, _, _, _, rfl⟩ := afterSlashes_ok read
        rfl
      · exact scheme_of_afterFile read
      · exact scheme_of_afterScheme read
    rw [same] at other
    rw [other] at read
    exact ⟨rest, same ▸ is, same ▸ read⟩

end Url
end PackRelay
