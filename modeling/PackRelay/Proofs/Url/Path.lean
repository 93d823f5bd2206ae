import PackRelay.Proofs.Url.Percent
import PackRelay.Url.Path
import Mathlib.Data.Bool.AllAny

/-! The path of a URL is read in resolved form: segments that are escaped and lead neither nowhere nor
up. Reading a path in that form changes nothing. -/
namespace PackRelay

variable {isMark : Char → Bool} {cs part : List Char} {c m : Char}

theorem splitAt_ne_nil (isMark : Char → Bool) (cs : List Char) : splitAt isMark cs ≠ [] := by
  cases cs with
  | nil => exact List.cons_ne_nil _ _
  | cons c cs =>
    unfold splitAt
    split
    · exact List.cons_ne_nil _ _
    · split <;> exact List.cons_ne_nil _ _

theorem splitAt_cons_mark (mark : isMark m = true) (cs : List Char) :
    splitAt isMark (m :: cs) = [] :: splitAt isMark cs := by
  simp only [splitAt, mark, if_true]

theorem splitAt_cons_plain (plain : isMark c = false) {parts : List (List Char)}
    (behind : splitAt isMark cs = part :: parts) :
    splitAt isMark (c :: cs) = (c :: part) :: parts := by
  simp only [splitAt, plain, Bool.false_eq_true, if_false, behind]

/-- No mark is left in a part, and nothing else gets into one. -/
theorem mem_of_mem_splitAt (there : part ∈ splitAt isMark cs) (within : c ∈ part) :
    c ∈ cs ∧ isMark c = false := by
  induction cs generalizing part with
  | nil =>
    cases List.mem_singleton.1 there
    cases within
  | cons d cs ih =>
    have further {part : List Char} (there : part ∈ splitAt isMark cs) (within : c ∈ part) :
        c ∈ d :: cs ∧ isMark c = false := (ih there within).imp_left (List.mem_cons_of_mem d)
    cases mark : isMark d with
    | true =>
      rw [splitAt_cons_mark mark] at there
      rcases List.mem_cons.1 there with rfl | there
      · cases within
      · exact further there within
    | false =>
      obtain ⟨first, parts, behind⟩ := List.exists_cons_of_ne_nil (splitAt_ne_nil isMark cs)
      rw [splitAt_cons_plain mark behind] at there
      rcases List.mem_cons.1 there with rfl | there
      · rcases List.mem_cons.1 within with rfl | within
        · exact ⟨List.mem_cons_self, mark⟩
        · exact further (behind ▸ List.mem_cons_self) within
      · exact further (behind ▸ List.mem_cons_of_mem first there) within

theorem splitAt_append (plain : ∀ c ∈ part, isMark c = false) {first : List Char}
    {parts : List (List Char)} (behind : splitAt isMark cs = first :: parts) :
    splitAt isMark (part ++ cs) = (part ++ first) :: parts := by
  induction part with
  | nil => exact behind
  | cons c part ih =>
    obtain ⟨here, rest⟩ := List.forall_mem_cons.1 plain
    exact splitAt_cons_plain here (ih rest)

namespace Url

/-- Every segment after a slash of its own. -/
def joinPath (segments : List (List Char)) : List Char := segments.flatMap ('/' :: ·)

theorem joinPath_splitAt (cs : List Char) : joinPath (splitAt (· = '/') cs) = '/' :: cs := by
  induction cs with
  | nil => rfl
  | cons c cs ih =>
    by_cases slash : c = '/'
    · subst slash
      rw [splitAt_cons_mark (decide_eq_true rfl), joinPath, List.flatMap_cons, ← joinPath, ih]
      rfl
    · obtain ⟨first, parts, behind⟩ := List.exists_cons_of_ne_nil (splitAt_ne_nil (· = '/') cs)
      rw [behind] at ih
      rw [splitAt_cons_plain (decide_eq_false slash) behind]
      simp only [joinPath, List.flatMap_cons, List.cons_append, List.cons.injEq, true_and] at ih ⊢
      exact ih

theorem splitAt_joinPath {segments : List (List Char)} (some_ : segments ≠ [])
    (unslashed : ∀ s ∈ segments, '/' ∉ s) (joined : joinPath segments = '/' :: cs) :
    splitAt (· = '/') cs = segments := by
  induction segments generalizing cs with
  | nil => exact absurd rfl some_
  | cons s rest ih =>
    obtain ⟨here, later⟩ := List.forall_mem_cons.1 unslashed
    have plain : ∀ c ∈ s, decide (c = '/') = false := fun c within =>
      decide_eq_false fun slash => here (slash ▸ within)
    have whole : s ++ joinPath rest = cs := (List.cons.inj joined).2
    cases rest with
    | nil =>
      have last : splitAt (· = '/') (s ++ []) = [s ++ []] := splitAt_append plain rfl
      rw [List.append_nil] at last
      rw [← whole, show joinPath [] = [] from rfl, List.append_nil, last]
    | cons next rest =>
      have behind := ih (List.cons_ne_nil _ _) later rfl
      have parted : splitAt (· = '/') (joinPath (next :: rest)) = [] :: next :: rest :=
        (splitAt_cons_mark (decide_eq_true rfl) _).trans (congrArg ([] :: ·) behind)
      rw [← whole, splitAt_append plain parted, List.append_nil]

/-- A segment as a path holds it. -/
structure IsSegment (s : List Char) : Prop where
  whole : '/' ∉ s
  escaped : ∀ c ∈ s, Percent.isPathEscaped c = false
  leads : isDot s = false ∧ isDoubleDot s = false

theorem IsSegment.nil : IsSegment [] := ⟨List.not_mem_nil, nofun, rfl, rfl⟩

/-- Paths in resolved form. -/
def Resolved (path : List Char) : Prop :=
  ∃ segments, segments ≠ [] ∧ (∀ s ∈ segments, IsSegment s) ∧ path = joinPath segments

theorem Resolved.absolute {path : List Char} (resolved : Resolved path) :
    ∃ cs, path = '/' :: cs := by
  obtain ⟨segments, some_, _, rfl⟩ := resolved
  obtain ⟨s, rest, rfl⟩ := List.exists_cons_of_ne_nil some_
  exact ⟨s ++ joinPath rest, rfl⟩

theorem Resolved.plain {path : List Char} (resolved : Resolved path) :
    ∀ c ∈ path, Percent.isPathEscaped c = false := by
  obtain ⟨segments, _, are, rfl⟩ := resolved
  intro c there
  obtain ⟨s, listed, within⟩ := List.mem_flatMap.1 there
  rcases List.mem_cons.1 within with rfl | within
  · rfl
  · exact (are s listed).escaped c within

variable {segments done : List (List Char)}

/-- Without dots there is nothing to resolve. -/
theorem resolve_undotted (some_ : segments ≠ [])
    (lead : ∀ s ∈ segments, isDot s = false ∧ isDoubleDot s = false) :
    resolve done segments = segments.reverse ++ done := by
  induction segments generalizing done with
  | nil => exact absurd rfl some_
  | cons s rest ih =>
    obtain ⟨⟨dot, double⟩, later⟩ := List.forall_mem_cons.1 lead
    cases rest with
    | nil => simp [resolve, lastSegment, dot, double]
    | cons next rest =>
      have pushed : pushSegment done s = s :: done := by simp [pushSegment, dot, double]
      have step : resolve done (s :: next :: rest) = resolve (pushSegment done s) (next :: rest) :=
        rfl
      rw [step, pushed, ih (List.cons_ne_nil _ _) later, List.reverse_cons (a := s),
        List.append_assoc, List.singleton_append]

theorem resolve_ne_nil (some_ : segments ≠ []) : resolve done segments ≠ [] := by
  induction segments generalizing done with
  | nil => exact absurd rfl some_
  | cons s rest ih =>
    cases rest with
    | nil =>
      rw [resolve, lastSegment]
      split <;> exact List.cons_ne_nil _ _
    | cons next rest => exact ih (List.cons_ne_nil _ _)

theorem mem_pushSegment {s t : List Char} (there : t ∈ pushSegment done s) :
    t ∈ done ∨ (t = s ∧ isDot s = false ∧ isDoubleDot s = false) := by
  unfold pushSegment at there
  split at there
  · cases done with
    | nil => cases there
    | cons last before =>
      simp only at there
      split at there
      · exact .inl there
      · exact .inl (List.mem_cons_of_mem last there)
  · split at there
    · exact .inl there
    · rename_i double dot
      rcases List.mem_cons.1 there with rfl | there
      · exact .inr ⟨rfl, eq_false_of_ne_true dot, eq_false_of_ne_true double⟩
      · exact .inl there

theorem mem_resolve {t : List Char} (there : t ∈ resolve done segments) :
    t ∈ done ∨ t = [] ∨ (t ∈ segments ∧ isDot t = false ∧ isDoubleDot t = false) := by
  induction segments generalizing done with
  | nil => exact .inl there
  | cons s rest ih =>
    have pushed (there : t ∈ pushSegment done s) :
        t ∈ done ∨ t = [] ∨ (t ∈ s :: rest ∧ isDot t = false ∧ isDoubleDot t = false) := by
      rcases mem_pushSegment there with before | ⟨rfl, leads⟩
      · exact .inl before
      · exact .inr (.inr ⟨List.mem_cons_self, leads⟩)
    cases rest with
    | nil =>
      rw [resolve, lastSegment] at there
      split at there
      · rcases List.mem_cons.1 there with rfl | there
        · exact .inr (.inl rfl)
        · exact pushed there
      · rename_i dots
        have leads : isDoubleDot s = false ∧ isDot s = false := by
          simpa only [Bool.or_eq_true, not_or, Bool.not_eq_true] using dots
        rcases List.mem_cons.1 there with rfl | there
        · exact .inr (.inr ⟨List.mem_cons_self, leads.2, leads.1⟩)
        · exact .inl there
    | cons next rest =>
      rcases ih there with before | empty | ⟨listed, leads⟩
      · exact pushed before
      · exact .inr (.inl empty)
      · exact .inr (.inr ⟨List.mem_cons_of_mem s listed, leads⟩)

theorem marks_unescaped :
    ∀ m ∈ Percent.marks, m ≠ '/' ∧ Percent.isPathEscaped m = false ∧
      Percent.isControl m = false := List.all_iff_forall_prop.1 (by decide)

theorem resolved_absolutePath (cs : List Char) : Resolved (absolutePath (· = '/') cs) := by
  have some_ : (splitAt (· = '/') cs).map (Percent.encode Percent.isPathEscaped) ≠ [] :=
    fun empty => splitAt_ne_nil _ cs (List.map_eq_nil_iff.1 empty)
  refine ⟨_, fun empty => resolve_ne_nil some_ (List.reverse_eq_nil_iff.1 empty), ?_, rfl⟩
  intro s there
  rcases mem_resolve (List.mem_reverse.1 there) with before | rfl | ⟨listed, leads⟩
  · cases before
  · exact .nil
  · obtain ⟨part, parted, rfl⟩ := List.mem_map.1 listed
    refine ⟨fun slash => ?_, fun c within => ?_, leads⟩
    · rcases Percent.mem_encode slash with ⟨within, _⟩ | mark
      · exact absurd rfl (of_decide_eq_false (mem_of_mem_splitAt parted within).2)
      · exact (marks_unescaped _ mark).1 rfl
    · exact Percent.plain_of_mem_encode (fun m mark => (marks_unescaped m mark).2.1) within

/-- The path of segments none of which resolves to something else. -/
theorem absolutePath_undotted (lead : ∀ s ∈ splitAt (· = '/') cs,
      isDot (Percent.encode Percent.isPathEscaped s) = false ∧
      isDoubleDot (Percent.encode Percent.isPathEscaped s) = false) :
    absolutePath (· = '/') cs = Percent.encode Percent.isPathEscaped ('/' :: cs) := by
  have some_ : (splitAt (· = '/') cs).map (Percent.encode Percent.isPathEscaped) ≠ [] :=
    fun empty => splitAt_ne_nil _ cs (List.map_eq_nil_iff.1 empty)
  have lead' : ∀ s ∈ (splitAt (· = '/') cs).map (Percent.encode Percent.isPathEscaped),
      isDot s = false ∧ isDoubleDot s = false := by
    intro s there
    obtain ⟨part, parted, rfl⟩ := List.mem_map.1 there
    exact lead part parted
  have escaped (parts : List (List Char)) : joinPath (parts.map (Percent.encode
      Percent.isPathEscaped)) = Percent.encode Percent.isPathEscaped (joinPath parts) := by
    induction parts with
    | nil => rfl
    | cons part parts ih =>
      have slash : Percent.isPathEscaped '/' = false := by decide
      simp only [joinPath, List.map_cons, List.flatMap_cons, Percent.encode_append,
        Percent.encode_cons_plain slash] at ih ⊢
      rw [ih]
  rw [absolutePath, resolve_undotted some_ lead', List.append_nil, List.reverse_reverse]
  exact (escaped _).trans (congrArg _ (joinPath_splitAt cs))

theorem absolutePath_resolved (resolved : Resolved ('/' :: cs)) :
    absolutePath (· = '/') cs = '/' :: cs := by
  have plain := resolved.plain
  obtain ⟨segments, some_, are, joined⟩ := resolved
  have parted := splitAt_joinPath some_ (fun s listed => (are s listed).whole) joined.symm
  rw [absolutePath_undotted, Percent.encode_of_plain plain]
  intro s there
  rw [parted] at there
  rw [Percent.encode_of_plain (are s there).escaped]
  exact (are s there).leads

/-! Escaping makes no dots: what it writes decodes to what it read. -/

theorem eq_of_encode_decodes {s t : List Char} (unsigned : '%' ∉ s)
    (decodes : Percent.decode (Utf8.encode (Percent.encode Percent.isPathEscaped s)) =
      Utf8.encode t) : s = t := by
  rw [Percent.decode_encode unsigned] at decodes
  have same := congrArg Utf8.decode decodes
  rw [Utf8.decode_encode, Utf8.decode_encode] at same
  exact Option.some.inj same

theorem decode_dot {e : List Char} (dot : isDot e = true) (rest : List Char) :
    Percent.decode (Utf8.encode (e ++ rest)) = 0x2E :: Percent.decode (Utf8.encode rest) := by
  rw [Utf8.encode_append]
  unfold isDot at dot
  split at dot
  · exact Percent.decode_cons_plain (by decide) _
  · simp only [Bool.or_eq_true, decide_eq_true_eq] at dot
    rcases dot with rfl | rfl
    · rw [show Utf8.encode ['%', '2', 'e'] = [0x25, 0x32, 0x65] by decide]
      rfl
    · rw [show Utf8.encode ['%', '2', 'E'] = [0x25, 0x32, 0x45] by decide]
      rfl
  · cases dot

theorem decode_doubleDot {e : List Char} (double : isDoubleDot e = true) :
    Percent.decode (Utf8.encode e) = [0x2E, 0x2E] := by
  have twice {first rest : List Char} (dot : isDot first = true) (dot' : isDot rest = true) :
      Percent.decode (Utf8.encode (first ++ rest)) = [0x2E, 0x2E] := by
    have last := decode_dot dot' []
    rw [List.append_nil] at last
    rw [decode_dot dot, last]
    rfl
  unfold isDoubleDot at double
  split at double
  · decide
  · have one : isDot ['.'] = true := rfl
    exact twice one double
  · rename_i e rest
    rw [Bool.and_eq_true] at double
    exact twice double.1 double.2
  · cases double

theorem leads_encode {s : List Char} (unsigned : '%' ∉ s) (one : s ≠ ['.'])
    (two : s ≠ ['.', '.']) :
    isDot (Percent.encode Percent.isPathEscaped s) = false ∧
      isDoubleDot (Percent.encode Percent.isPathEscaped s) = false := by
  constructor <;> refine eq_false_of_ne_true fun dots => ?_
  · have decoded := decode_dot dots []
    rw [List.append_nil] at decoded
    exact one (eq_of_encode_decodes unsigned decoded)
  · exact two (eq_of_encode_decodes unsigned (decode_doubleDot dots))

end Url
end PackRelay
