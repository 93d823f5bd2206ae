import PackRelay.Backend.Locator

/-! Which paths a locator accepts. Slashes around a name make no difference; a name is accepted if
each of its segments leads further down, and the path that it stands for does the same. -/
namespace PackRelay

namespace RepositoryPath

/-- The name of a repository: it begins and ends with something other than a slash, and none of its
segments leads nowhere or up. -/
structure Descends (name : List Char) : Prop where
  nonempty : name ≠ []
  starts : name.head? ≠ some '/'
  ends : name.getLast? ≠ some '/'
  direct : ∀ segment ∈ name.splitOn '/', segment ≠ [] ∧ segment ≠ ['.'] ∧ segment ≠ ['.', '.']

variable {cs name other : List Char} {c : Char}

theorem splitOn_cons (c d : Char) (cs : List Char) :
    (c :: cs).splitOn d =
      if c = d then [] :: cs.splitOn d else (cs.splitOn d).modifyHead (c :: ·) := by
  simp only [List.splitOn, List.splitOnP_cons_eq_if_modifyHead, beq_iff_eq]

theorem segments_eq_splitOn (cs : List Char) : segments cs = cs.splitOn '/' := by
  unfold segments
  induction cs with
  | nil => rfl
  | cons c cs ih =>
    rw [splitOn_cons, splitAt, ih]
    by_cases slash : c = '/'
    · simp [slash]
    · obtain ⟨part, parts, split⟩ := List.exists_cons_of_ne_nil (List.splitOn_ne_nil '/' cs)
      simp [slash, split]

theorem trimStart_replicate (n : Nat) (cs : List Char) :
    trimStart (List.replicate n '/' ++ cs) = trimStart cs := by
  induction n with
  | zero => rfl
  | succ n ih => exact ih

theorem trimStart_of_head (starts : cs.head? ≠ some '/') : trimStart cs = cs := by
  cases cs with
  | nil => rfl
  | cons c cs =>
    have other : ¬ c = '/' := fun is => starts (congrArg some is)
    simp [trimStart, other]

/-- Everything is some slashes and then what does not begin with one. -/
theorem exists_trimStart (cs : List Char) :
    ∃ n, cs = List.replicate n '/' ++ trimStart cs ∧ (trimStart cs).head? ≠ some '/' := by
  induction cs with
  | nil => exact ⟨0, rfl, nofun⟩
  | cons c cs ih =>
    by_cases slash : c = '/'
    · subst slash
      obtain ⟨n, parts, starts⟩ := ih
      exact ⟨n + 1, congrArg ('/' :: ·) parts, starts⟩
    · have other : (c :: cs).head? ≠ some '/' := fun is => slash (Option.some.inj is)
      exact ⟨0, (trimStart_of_head other).symm, by rwa [trimStart_of_head other]⟩

theorem trim_surrounded (before after : Nat) (starts : name.head? ≠ some '/')
    (ends : name.getLast? ≠ some '/') :
    trim (List.replicate before '/' ++ name ++ List.replicate after '/') = name := by
  have reversed : (trimStart (name ++ List.replicate after '/')).reverse =
      (trimStart (List.replicate after '/' ++ name.reverse).reverse).reverse := by
    rw [List.reverse_append, List.reverse_reverse, List.reverse_replicate]
  rw [trim, List.append_assoc, trimStart_replicate]
  cases name with
  | nil =>
    have none_left := trimStart_replicate after []
    rw [List.append_nil] at none_left
    rw [List.nil_append, none_left]
    rfl
  | cons c name =>
    have kept : trimStart (c :: name ++ List.replicate after '/') =
        c :: name ++ List.replicate after '/' := trimStart_of_head starts
    rw [kept, List.reverse_append, List.reverse_replicate, trimStart_replicate,
      trimStart_of_head (by rwa [List.head?_reverse]), List.reverse_reverse]

theorem exists_trim (cs : List Char) :
    ∃ before after, cs = List.replicate before '/' ++ trim cs ++ List.replicate after '/' ∧
      (trim cs).head? ≠ some '/' ∧ (trim cs).getLast? ≠ some '/' := by
  obtain ⟨before, front, starts⟩ := exists_trimStart cs
  obtain ⟨after, back, ends⟩ := exists_trimStart (trimStart cs).reverse
  have parts : trimStart cs = trim cs ++ List.replicate after '/' := by
    rw [trim, ← List.reverse_replicate, ← List.reverse_append, ← back, List.reverse_reverse]
  refine ⟨before, after, ?_, ?_, ?_⟩
  · rw [List.append_assoc, ← parts]
    exact front
  · intro slash
    rw [parts, List.head?_append, slash] at starts
    exact starts rfl
  · rwa [trim, List.getLast?_reverse]

theorem isStray_eq_false {segment : List Char} :
    isStray segment = false ↔ segment ≠ [] ∧ segment ≠ ['.'] ∧ segment ≠ ['.', '.'] := by
  simp [isStray, and_assoc]

theorem any_isStray_eq_false :
    (segments cs).any isStray = false ↔
      ∀ segment ∈ cs.splitOn '/', segment ≠ [] ∧ segment ≠ ['.'] ∧ segment ≠ ['.', '.'] := by
  rw [segments_eq_splitOn, List.any_eq_false]
  simp only [Bool.not_eq_true, isStray_eq_false]

/-- Exactly the names that descend are accepted, with any number of slashes before and after
them. -/
theorem relative?_eq_some_iff {path : List Char} :
    relative? cs = some path ↔ ∃ before after name, Descends name ∧
      cs = List.replicate before '/' ++ name ++ List.replicate after '/' ∧
      path = withSuffix name := by
  constructor
  · intro accepted
    simp only [relative?] at accepted
    split at accepted
    · cases accepted
    · rename_i unstrayed
      obtain ⟨before, after, parts, starts, ends⟩ := exists_trim cs
      have direct := any_isStray_eq_false.1 (eq_false_of_ne_true unstrayed)
      refine ⟨before, after, trim cs, ⟨fun empty => ?_, starts, ends, direct⟩, parts,
        (Option.some.inj accepted).symm⟩
      rw [empty] at direct
      exact (direct [] List.mem_cons_self).1 rfl
  · rintro ⟨before, after, name, descends, rfl, rfl⟩
    have trimmed := trim_surrounded before after descends.starts descends.ends
    simp only [relative?, trimmed, any_isStray_eq_false.2 descends.direct]
    rfl

/-- What is appended behind the last slash goes to the last segment. -/
theorem splitOn_append {tail : List Char} (inside : '/' ∉ tail) (cs : List Char) :
    ∃ front last, cs.splitOn '/' = front ++ [last] ∧
      (cs ++ tail).splitOn '/' = front ++ [last ++ tail] := by
  induction cs with
  | nil =>
    refine ⟨[], [], rfl, ?_⟩
    induction tail with
    | nil => rfl
    | cons c tail ih =>
      have other : ¬ c = '/' := fun is => inside (is ▸ List.mem_cons_self)
      have ih : tail.splitOn '/' = [tail] := ih fun there => inside (List.mem_cons_of_mem c there)
      simp [splitOn_cons, other, ih]
  | cons c cs ih =>
    obtain ⟨front, last, whole, longer⟩ := ih
    rw [List.cons_append, splitOn_cons, splitOn_cons, whole, longer]
    split
    · exact ⟨[] :: front, last, rfl, rfl⟩
    · cases front with
      | nil => exact ⟨[], c :: last, rfl, rfl⟩
      | cons first front => exact ⟨(c :: first) :: front, last, rfl, rfl⟩

theorem Descends.append_suffix (descends : Descends name) : Descends (name ++ suffix) where
  nonempty empty := descends.nonempty (List.append_eq_nil_iff.1 empty).1
  starts := by
    cases name with
    | nil => exact absurd rfl descends.nonempty
    | cons c name => exact descends.starts
  ends := by simp [suffix]
  direct segment listed := by
    obtain ⟨front, last, whole, longer⟩ := splitOn_append (show '/' ∉ suffix by decide) name
    rw [longer] at listed
    rcases List.mem_append.1 listed with early | late
    · exact descends.direct segment (whole ▸ List.mem_append_left _ early)
    · rw [List.mem_singleton.1 late]
      -- A segment that ends like this is too long to be one of the dots.
      have long : 4 ≤ (last ++ suffix).length := by simp [suffix]
      refine ⟨?_, ?_, ?_⟩ <;> intro is <;> rw [is] at long <;> simp at long

theorem withSuffix_cases (cs : List Char) :
    (suffix <:+ cs ∧ withSuffix cs = cs) ∨ (¬ suffix <:+ cs ∧ withSuffix cs = cs ++ suffix) := by
  unfold withSuffix
  split
  · exact .inl ⟨List.isSuffixOf_iff_suffix.1 ‹_›, rfl⟩
  · exact .inr ⟨fun there => absurd (List.isSuffixOf_iff_suffix.2 there) ‹_›, rfl⟩

theorem suffix_withSuffix (cs : List Char) : suffix <:+ withSuffix cs := by
  rcases withSuffix_cases cs with ⟨there, same⟩ | ⟨_, same⟩
  · rwa [same]
  · rw [same]
    exact List.suffix_append cs suffix

theorem withSuffix_of_suffix (there : suffix <:+ cs) : withSuffix cs = cs :=
  (withSuffix_cases cs).elim And.right fun other => absurd there other.1

theorem Descends.withSuffix (descends : Descends name) : Descends (withSuffix name) := by
  rcases withSuffix_cases name with ⟨_, same⟩ | ⟨_, same⟩
  · rwa [same]
  · rw [same]
    exact descends.append_suffix

/-- Only a suffix left out tells names of one repository apart. -/
theorem withSuffix_eq (same : withSuffix name = withSuffix other) :
    name = other ∨ other = name ++ suffix ∨ name = other ++ suffix := by
  rcases withSuffix_cases name with ⟨_, is⟩ | ⟨_, is⟩ <;>
    rcases withSuffix_cases other with ⟨_, is'⟩ | ⟨_, is'⟩ <;> rw [is, is'] at same
  · exact .inl same
  · exact .inr (.inr same)
  · exact .inr (.inl same.symm)
  · exact .inl (List.append_cancel_right same)

/-- The path of a repository stands for itself. -/
theorem relative?_withSuffix (descends : Descends name) :
    relative? (withSuffix name) = some (withSuffix name) := by
  refine relative?_eq_some_iff.2 ⟨0, 0, withSuffix name, descends.withSuffix, ?_, ?_⟩
  · simp
  · exact (withSuffix_of_suffix (suffix_withSuffix name)).symm

end RepositoryPath

namespace Locator

theorem locate_eq_ok_iff {l : Locator} {path : String} {target : Target} :
    l.locate path = .ok target ↔ ∃ cs, RepositoryPath.relative? path.toList = some cs ∧
      target = ⟨l.backend, ⟨l.storageName, .ofList cs⟩, l.gitConfigOptions⟩ := by
  unfold locate
  cases RepositoryPath.relative? path.toList with
  | none => simp
  | some cs => simp [eq_comm]

end Locator
end PackRelay
