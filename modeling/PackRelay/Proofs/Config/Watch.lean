import PackRelay.Config.Watch
import PackRelay.Proofs.Config.Validation

/-! What watching a configuration file publishes: all that loads when something new may be there, in
that order, and nothing else. -/
namespace PackRelay

/-- A file that does not load, in each of the ways in which it may not. -/
inductive Unfit : Option Bytes → Prop
  | missing : Unfit none
  | not_text {bs : Bytes} : Utf8.toString? bs = none → Unfit (some bs)
  | malformed {bs : Bytes} {text : String} :
    Utf8.toString? bs = some text → Toml.parse text = none → Unfit (some bs)
  | mismatched {bs : Bytes} {text : String} {es : Toml.Entries} {m : Schema.Mismatch} :
    Utf8.toString? bs = some text → Toml.parse text = some es → Config.ofEntries es = .error m →
      Unfit (some bs)
  | broken {bs : Bytes} {text : String} {es : Toml.Entries} {c : Config} {rule : Rule}
      {f : ConfigFault} :
    Utf8.toString? bs = some text → Toml.parse text = some es → Config.ofEntries es = .ok c →
      c.Breaks rule f → Unfit (some bs)

namespace Config

/-- A file loads or is unfit. -/
theorem load_error_iff {file : Option Bytes} : (∃ e, load file = .error e) ↔ Unfit file := by
  constructor
  · rintro ⟨e, failed⟩
    cases file with
    | none => exact .missing
    | some bs =>
      cases read : Utf8.toString? bs with
      | none => exact .not_text read
      | some text =>
        cases parsed : Toml.parse text with
        | none => exact .malformed read parsed
        | some es =>
          cases formed : ofEntries es with
          | error m => exact .mismatched read parsed formed
          | ok c =>
            by_contra fit
            have valid : c.validate = .ok () := validate_eq_ok_iff.2 fun rule f breaks =>
              fit (.broken read parsed formed breaks)
            have loads : load (some bs) = .ok c :=
              load_eq_ok_iff.2 ⟨bs, text, rfl, read, parse_eq_ok_iff.2 ⟨es, parsed, formed, valid⟩⟩
            cases loads.symm.trans failed
  · intro unfit
    cases loads : load file with
    | error e => exact ⟨e, rfl⟩
    | ok c =>
      obtain ⟨bs, text, rfl, read, parsed⟩ := load_eq_ok_iff.1 loads
      obtain ⟨es, parsed, formed, valid⟩ := parse_eq_ok_iff.1 parsed
      cases unfit with
      | not_text unread => cases read.symm.trans unread
      | malformed read' unparsed =>
        cases read.symm.trans read'
        cases parsed.symm.trans unparsed
      | mismatched read' parsed' unformed =>
        cases read.symm.trans read'
        cases parsed.symm.trans parsed'
        cases formed.symm.trans unformed
      | broken read' parsed' formed' breaks =>
        cases read.symm.trans read'
        cases parsed.symm.trans parsed'
        cases formed.symm.trans formed'
        exact absurd breaks (validate_eq_ok_iff.1 valid _ _)

end Config

/-- What a sequence of notices publishes. -/
inductive Publishes : List FileNotice → List Config → Prop
  | nil : Publishes [] []
  | loads {n : FileNotice} {ns : List FileNotice} {c : Config} {cs : List Config} :
    n.event = .created ∨ n.event = .modified → Config.load n.contents = .ok c →
      Publishes ns cs → Publishes (n :: ns) (c :: cs)
  | rejects {n : FileNotice} {ns : List FileNotice} {cs : List Config} :
    Unfit n.contents → Publishes ns cs → Publishes (n :: ns) cs
  | ignores {n : FileNotice} {ns : List FileNotice} {cs : List Config} :
    n.event = .other ∨ n.event = .failed → Publishes ns cs → Publishes (n :: ns) cs

namespace FileNotice

variable {n : FileNotice} {ns : List FileNotice} {c : Config} {cs : List Config}

theorem published?_eq_some_iff : n.published? = some c ↔
    (n.event = .created ∨ n.event = .modified) ∧ Config.load n.contents = .ok c := by
  unfold published? concerns
  cases n.event <;> cases Config.load n.contents <;> simp [Except.toOption]

theorem published?_eq_none_iff : n.published? = none ↔
    (n.event = .other ∨ n.event = .failed) ∨ Unfit n.contents := by
  rw [← Config.load_error_iff]
  unfold published? concerns
  cases n.event <;> cases Config.load n.contents <;> simp [Except.toOption]

theorem publishes_published (ns : List FileNotice) : Publishes ns (published ns) := by
  induction ns with
  | nil => exact .nil
  | cons n ns ih =>
    unfold published
    cases loaded : n.published? with
    | none =>
      rw [List.filterMap_cons_none loaded]
      rcases published?_eq_none_iff.1 loaded with nothing | unfit
      · exact .ignores nothing ih
      · exact .rejects unfit ih
    | some c =>
      rw [List.filterMap_cons_some loaded]
      obtain ⟨concerns, loads⟩ := published?_eq_some_iff.1 loaded
      exact .loads concerns loads ih

theorem publishes_iff : Publishes ns cs ↔ cs = published ns := by
  constructor
  · intro publishes
    induction publishes with
    | nil => rfl
    | loads concerns loads _ ih =>
      rw [published, List.filterMap_cons_some (published?_eq_some_iff.2 ⟨concerns, loads⟩), ih]
      rfl
    | rejects unfit _ ih =>
      rw [published, List.filterMap_cons_none (published?_eq_none_iff.2 (.inr unfit)), ih]
      rfl
    | ignores nothing _ ih =>
      rw [published, List.filterMap_cons_none (published?_eq_none_iff.2 (.inl nothing)), ih]
      rfl
  · rintro rfl
    exact publishes_published ns

theorem valid_of_published (listed : c ∈ published ns) : c.validate = .ok () := by
  obtain ⟨n, _, is⟩ := List.mem_filterMap.1 listed
  exact Config.valid_of_load (published?_eq_some_iff.1 is).2

end FileNotice
end PackRelay
