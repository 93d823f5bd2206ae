import PackRelay.Backend.Address
import PackRelay.Proofs.Backend.Locator
import PackRelay.Proofs.Url.Parse

/-! What backend addresses come to. An address with a slash behind its scheme can be written down and
read again; one without is taken for a relative path, which can not. The path of a socket is kept as
URLs hold it, with octets escaped, and nobody undoes that. -/
namespace PackRelay.Address

variable {s p : String} {a : Address} {url : Url} {path : List Char}

theorem toList_tcp (rest : String) :
    ("tcp://" ++ rest).toList = ['t', 'c', 'p'] ++ [':', '/', '/'] ++ rest.toList :=
  String.toList_append

theorem toList_unix (rest : String) :
    ("unix://" ++ rest).toList = ['u', 'n', 'i', 'x'] ++ [':', '/', '/'] ++ rest.toList :=
  String.toList_append

theorem parse_eq_ok :
    parse s = .ok a ↔ ∃ url, Url.parse s.toList = .ok url ∧ ofUrl s url = .ok a := by
  unfold parse
  cases Url.parse s.toList with
  | error e => simp
  | ok url => simp

theorem ofUrl_ok (read : ofUrl s url = .ok a) :
    (url.scheme = ['t', 'c', 'p'] ∧ ∃ host port, url.host = some host ∧ url.port = some port ∧
      a = .tcp (String.ofList host.text ++ ":" ++ toString port)) ∨
    (url.scheme = ['u', 'n', 'i', 'x'] ∧ url.path ≠ [] ∧ a = .unix (String.ofList url.path)) := by
  unfold ofUrl at read
  split at read
  · rename_i tcp
    split at read
    · cases read
    · cases read
    · rename_i host port host_is port_is
      cases read
      exact .inl ⟨tcp, host, port, host_is, port_is, rfl⟩
  · split at read
    · rename_i unix
      split at read
      · cases read
      · rename_i some_
        cases read
        exact .inr ⟨unix, fun empty => some_ (List.isEmpty_iff.2 empty), rfl⟩
    · cases read

theorem parse_of_path (some_ : path ≠ [])
    (read : Url.parse s.toList = .ok ⟨['u', 'n', 'i', 'x'], none, none, path⟩) :
    parse s = .ok (.unix (String.ofList path)) := by
  refine parse_eq_ok.2 ⟨_, read, ?_⟩
  simp [ofUrl, some_]

/-! ## What is accepted -/

/-- A host and a port, or the path of a socket from the root on. -/
def IsFull : Address → Prop
  | .tcp hostAndPort =>
    ∃ host port, host ≠ "" ∧ port ≤ 65535 ∧ hostAndPort = host ++ ":" ++ toString (port : Nat)
  | .unix path => path.toList.head? = some '/'

/-- A slash follows the colon of the scheme. -/
def Rooted (address : String) : Prop :=
  ∃ scheme rest, Url.splitScheme (Url.significant address.toList) = some (scheme, '/' :: rest)

theorem text_ne_nil {host : Url.Host} (named : Url.Names host.text host)
    (some_ : host ≠ .name []) : host.text ≠ [] := by
  intro empty
  have read := named.read
  rw [empty] at read
  cases read
  exact some_ rfl

theorem isFull_of_sound (sound : url.Sound) (read : ofUrl s url = .ok a) : a.IsFull := by
  rcases ofUrl_ok read with ⟨_, host, port, host_is, port_is, rfl⟩ | ⟨_, some_, rfl⟩
  · obtain ⟨named, names⟩ := sound.host host host_is
    refine ⟨String.ofList host.text, port, fun empty => ?_, sound.port port port_is, rfl⟩
    exact text_ne_nil names named (String.ofList_eq_empty_iff.1 empty)
  · rcases sound.path with none_ | resolved
    · exact absurd none_ some_
    · obtain ⟨cs, is⟩ := resolved.absolute
      simp only [IsFull, is, String.toList_ofList, List.head?_cons]

theorem parse_text_of_sound (sound : url.Sound) (read : ofUrl s url = .ok a) :
    parse a.text = .ok a := by
  rcases ofUrl_ok read with ⟨_, host, port, host_is, port_is, rfl⟩ | ⟨_, some_, rfl⟩
  · obtain ⟨named, names⟩ := sound.host host host_is
    have written : (String.ofList host.text ++ ":" ++ toString port).toList =
        host.text ++ ':' :: Nat.toDigits 10 port := by
      simp [Nat.toList_repr]
    refine parse_eq_ok.2 ⟨⟨['t', 'c', 'p'], some host, some port, []⟩, ?_, rfl⟩
    rw [text, toList_tcp, written]
    exact Url.parse_hostAndPort Url.isOther_tcp names named (sound.port port port_is)
  · rcases sound.path with none_ | resolved
    · exact absurd none_ some_
    · refine parse_of_path some_ ?_
      rw [text, toList_unix, String.toList_ofList]
      exact Url.parse_resolved Url.isOther_unix resolved

/-- Two slashes behind the scheme do not make a path absolute. -/
theorem parse_text_relative (relative : path.head? ≠ some '/') :
    parse (Address.unix (String.ofList path)).text ≠ .ok (.unix (String.ofList path)) := by
  intro read
  obtain ⟨url, parsed, read⟩ := parse_eq_ok.1 read
  rw [text, toList_unix, Url.parse_slashes Url.isOther_unix] at parsed
  have full := isFull_of_sound (Url.sound_of_afterSlashes parsed) read
  rw [IsFull, String.toList_ofList] at full
  exact relative full

/-- With a slash behind the scheme, whatever is accepted is full and reads back as it is; without one,
it is a relative path and does not. -/
theorem accepted_reads_back (read : parse s = .ok a) :
    (Rooted s ∧ a.IsFull ∧ parse a.text = .ok a) ∨
    (¬Rooted s ∧ (∃ path, a = .unix path ∧ path.toList.head? ≠ some '/') ∧
      parse a.text ≠ .ok a) := by
  obtain ⟨url, parsed, made⟩ := parse_eq_ok.1 read
  have other : Url.SchemeKind.of (String.ofList url.scheme) = .other := by
    rcases ofUrl_ok made with ⟨tcp, _⟩ | ⟨unix, _⟩
    · rw [tcp]
      exact Url.isOther_tcp.kind
    · rw [unix]
      exact Url.isOther_unix.kind
  obtain ⟨rest, split, behind⟩ := Url.parse_ok parsed other
  rcases Url.afterScheme_ok behind with ⟨slash, sound⟩ | ⟨unslashed, hostless, relative⟩
  · obtain ⟨rest, rfl⟩ := List.head?_eq_some_iff.1 slash
    exact .inl ⟨⟨_, rest, split⟩, isFull_of_sound sound made, parse_text_of_sound sound made⟩
  -- No host was looked for, so it is no place for `tcp`.
  · have bare : ¬Rooted s := by
      rintro ⟨scheme, rest', split'⟩
      cases split.symm.trans split'
      exact unslashed rfl
    rcases ofUrl_ok made with ⟨_, host, port, host_is, _⟩ | ⟨_, some_, rfl⟩
    · cases hostless.symm.trans host_is
    · refine .inr ⟨bare, ⟨_, rfl, ?_⟩, parse_text_relative relative⟩
      rwa [String.toList_ofList]

theorem accepted_reads_back_bracketed :
    parse "TCP://user@[0:0::1]:08075?q" = .ok (.tcp "[::1]:8075") ∧
      ((Rooted "TCP://user@[0:0::1]:08075?q" ∧ (tcp "[::1]:8075").IsFull ∧
          parse (tcp "[::1]:8075").text = .ok (.tcp "[::1]:8075")) ∨
        (¬Rooted "TCP://user@[0:0::1]:08075?q" ∧
          (∃ path, tcp "[::1]:8075" = .unix path ∧ path.toList.head? ≠ some '/') ∧
          parse (tcp "[::1]:8075").text ≠ .ok (.tcp "[::1]:8075"))) := by
  have read : parse "TCP://user@[0:0::1]:08075?q" = .ok (.tcp "[::1]:8075") := by decide +kernel
  exact ⟨read, accepted_reads_back read⟩

/-- A relative path passes for the path of a socket. -/
theorem relative_accepted :
    ¬∀ s a, parse s = .ok a → a.IsFull ∧ parse a.text = .ok a := by
  intro full
  have read : parse "unix:relative" = .ok (.unix "relative") := by decide +kernel
  have other : parse (unix "relative").text ≠ .ok (.unix "relative") := by decide +kernel
  exact other (full _ _ read).2

/-! ## Sockets -/

/-- The name of a socket: a path from the root on that says where it leads, of characters that mean
nothing to a URL. -/
structure NamesSocket (path : String) : Prop where
  absolute : path.toList.head? = some '/'
  direct : ∀ segment ∈ path.toList.splitOn '/', segment ≠ ['.'] ∧ segment ≠ ['.', '.']
  uncontrolled : ∀ c ∈ path.toList, 0x20 ≤ c.toNat
  unreserved : ∀ c ∈ path.toList, c ≠ '?' ∧ c ≠ '#' ∧ c ≠ '%'
  ends : path.toList.getLast? ≠ some ' '

def escaped (path : String) : String :=
  String.ofList (Percent.encode Percent.isPathEscaped path.toList)

theorem NamesSocket.kept (names : NamesSocket p) : ∀ c ∈ p.toList, Url.isDropped c = false := by
  intro c there
  have code := names.uncontrolled c there
  refine eq_false_of_ne_true fun dropped => ?_
  simp only [Url.isDropped, Bool.or_eq_true, decide_eq_true_eq] at dropped
  rcases dropped with (rfl | rfl) | rfl <;> exact absurd code (by decide)

theorem NamesSocket.last (names : NamesSocket p) :
    ∀ c ∈ p.toList.getLast?, Url.isBlank c = false := by
  intro c last
  have code := names.uncontrolled c (List.mem_of_getLast? last)
  have space : c.toNat ≠ ' '.toNat := fun same => names.ends (Char.toNat_inj.1 same ▸ last)
  have value : ' '.toNat = 0x20 := rfl
  simp only [Url.isBlank, decide_eq_false_iff_not]
  omega

/-- Segments of such a name do not come to mean something else when they are escaped. -/
theorem NamesSocket.absolutePath (names : NamesSocket p) {cs : List Char}
    (is : p.toList = '/' :: cs) :
    Url.absolutePath (· = '/') cs = (escaped p).toList := by
  have unsigned : '%' ∉ cs := fun there =>
    (names.unreserved '%' (is ▸ List.mem_cons_of_mem _ there)).2.2 rfl
  have listed : p.toList.splitOn '/' = [] :: splitAt (· = '/') cs := by
    rw [is, ← RepositoryPath.segments_eq_splitOn]
    exact splitAt_cons_mark (decide_eq_true rfl) cs
  rw [escaped, String.toList_ofList, is]
  refine Url.absolutePath_undotted fun segment there => ?_
  obtain ⟨one, two⟩ := names.direct segment (listed ▸ List.mem_cons_of_mem _ there)
  exact Url.leads_encode (fun within => unsigned (mem_of_mem_splitAt there within).1) one two

theorem parse_unix (names : NamesSocket p) : parse ("unix://" ++ p) = .ok (.unix (escaped p)) := by
  obtain ⟨cs, is⟩ := List.head?_eq_some_iff.1 names.absolute
  have whole : ∀ c ∈ cs, c ≠ '?' ∧ c ≠ '#' := by
    intro c there
    obtain ⟨query, fragment, _⟩ := names.unreserved c (is ▸ List.mem_cons_of_mem _ there)
    exact ⟨query, fragment⟩
  obtain ⟨rest, rooted⟩ := (Url.resolved_absolutePath cs).absolute
  have some_ : Url.absolutePath (· = '/') cs ≠ [] := rooted ▸ List.cons_ne_nil _ _
  rw [← String.ofList_toList (s := escaped p), ← names.absolutePath is]
  refine parse_of_path some_ ?_
  rw [toList_unix, is]
  exact Url.parse_path Url.isOther_unix (is ▸ names.last) (is ▸ names.kept) whole

theorem escaped_eq_self_iff :
    escaped p = p ↔ ∀ c ∈ p.toList, Percent.isPathEscaped c = false := by
  rw [← Percent.encode_eq_self_iff fun m mark => (Url.marks_unescaped m mark).2.1]
  constructor
  · intro same
    exact String.toList_ofList.symm.trans (congrArg String.toList same)
  · intro same
    rw [escaped, same, String.ofList_toList]

theorem decode_escaped (unsigned : '%' ∉ p.toList) :
    Utf8.decode (Percent.decode (Utf8.encode (escaped p).toList)) = some p.toList := by
  rw [escaped, String.toList_ofList, Percent.decode_encode unsigned, Utf8.decode_encode]

/-- A socket is dialed under its escaped name. Only decoding would give its own back. -/
theorem socket_escaped (names : NamesSocket p) :
    parse ("unix://" ++ p) = .ok (.unix (escaped p)) ∧
      (escaped p = p ↔ ∀ c ∈ p.toList, Percent.isPathEscaped c = false) ∧
      Utf8.decode (Percent.decode (Utf8.encode (escaped p).toList)) = some p.toList := by
  have unsigned : '%' ∉ p.toList := fun there => (names.unreserved '%' there).2.2 rfl
  exact ⟨parse_unix names, escaped_eq_self_iff, decode_escaped unsigned⟩

theorem socket_escaped_spaced :
    NamesSocket "/run/git relay.sock" ∧
      parse ("unix://" ++ "/run/git relay.sock") = .ok (.unix "/run/git%20relay.sock") := by
  have names : NamesSocket "/run/git relay.sock" := {
    absolute := by decide
    direct := List.all_iff_forall_prop.1 (by decide)
    uncontrolled := List.all_iff_forall_prop.1 (by decide)
    unreserved := List.all_iff_forall_prop.1 (by decide)
    ends := by decide }
  have is : escaped "/run/git relay.sock" = "/run/git%20relay.sock" := by decide +kernel
  exact ⟨names, is ▸ (socket_escaped names).1⟩

/-- The path that is dialed is not the one that was configured. -/
theorem other_socket_dialed :
    ¬∀ p, NamesSocket p → parse ("unix://" ++ p) = .ok (.unix p) := by
  intro same
  have names : NamesSocket "/a b" := {
    absolute := by decide
    direct := List.all_iff_forall_prop.1 (by decide)
    uncontrolled := List.all_iff_forall_prop.1 (by decide)
    unreserved := List.all_iff_forall_prop.1 (by decide)
    ends := by decide }
  have other : parse ("unix://" ++ "/a b") ≠ .ok (.unix "/a b") := by decide +kernel
  exact other (same _ names)

end PackRelay.Address
