import PackRelay.Proofs.Backend.Locator
import PackRelay.Proofs.Config.Validation
import PackRelay.Proofs.Http.Serving

/-! What a valid configuration is good for. Where it sends a repository there is a place to dial, and an
exchange under it begins with some time to be over and some for each dial. -/
namespace PackRelay

theorem Connecting.address_known {d : Descriptor} {place : Address} (known : d.place = .ok place)
    (patience : Duration) (dial : Dial) (now : Nat) (p q : Context × Connecting) (e : AddressError) :
    Connecting.poll d patience dial now p ≠ .ready (.error (.address e)) q := by
  obtain ⟨ctx, k⟩ := p
  intro failed
  cases k with
  | fresh =>
    simp only [poll, known] at failed
    generalize ctx.check now = checked at failed
    obtain ⟨answer, ctx'⟩ := checked
    cases answer <;> cases failed
  | dialing place wake limit =>
    simp only [poll] at failed
    split at failed
    · cases failed
    · cases failed
    · cases failed
    · split at failed <;> cases failed

namespace Http

variable {l : Locator} {t : Target}

theorem locate_of_locateAt {cs : List Char} (found : locateAt l cs = .ok t) :
    ∃ path, l.locate path = .ok t := by
  simp only [locateAt] at found
  split at found
  · cases found
  · split at found
    · cases found
    · split at found
      · rename_i same
        cases found
        exact ⟨_, same⟩
      · cases found

theorem locate_of_route {method target : String}
    (found : route l method target = .ok (.uploadPack t)) : ∃ path, l.locate path = .ok t := by
  simp only [route] at found
  split at found
  · split at found <;> cases found
  · split at found
    · split at found
      · rename_i c rest _ _
        cases there : locateAt l (c :: rest) with
        | error reply => rw [there] at found; cases found
        | ok t' =>
          rw [there] at found
          cases found
          exact locate_of_locateAt there
      · cases found
    · cases found

end Http

namespace Config

variable {c : Config} {rule : Rule} {f : ConfigFault}

/-- Every broken rule is told, once and where its turn is; what breaks one of them changes nothing
about the others. -/
structure Exact (c : Config) : Prop where
  told : ∃ broken, broken.Sublist Rule.all ∧ (∀ rule, rule ∈ broken ↔ ∃ f, c.Breaks rule f) ∧
    List.Forall₂ c.Breaks broken c.faults
  valid_iff : c.validate = .ok () ↔ ∀ rule f, ¬ c.Breaks rule f
  invalid_iff : ∀ fs, c.validate = .error fs ↔ fs = c.faults ∧ fs ≠ []
  apart : ∀ (d : Config) (left_out : Rule),
    (∀ rule ≠ left_out, ∀ f, d.Breaks rule f ↔ c.Breaks rule f) →
    d.faults.filter (·.rule ≠ left_out) = c.faults.filter (·.rule ≠ left_out)

theorem exact (c : Config) : c.Exact where
  told := by
    obtain ⟨broken, ordered, listed, told⟩ := c.exists_broken Rule.all
    exact ⟨broken, ordered, fun rule => listed rule (by cases rule <;> decide), told⟩
  valid_iff := validate_eq_ok_iff
  invalid_iff fs := by
    unfold validate
    cases c.faults with
    | nil => simp +contextual
    | cons f rest => simp +contextual [eq_comm]
  apart d left_out same := by
    rw [faults_apart, faults_apart]
    refine List.filterMap_congr fun rule others => ?_
    have other : rule ≠ left_out := by simpa using (List.mem_filter.1 others).2
    apply Option.ext
    intro f
    rw [fault?_eq_some_iff, fault?_eq_some_iff, same rule other f]

/-- A text or a file was read as this configuration. -/
def Accepted (c : Config) : Prop :=
  (∃ text, parse text = .ok c) ∨ ∃ file, load file = .ok c

/-- All that is located can be dialed, and nothing begins without time. -/
structure Suffices (c : Config) : Prop where
  target : ∀ path t, (Locator.ofConfig c.backend).locate path = .ok t →
    t.backend.token = c.backend.token ∧ t.repository.storageName = c.backend.storageName ∧
      t.gitConfigOptions = c.backend.gitConfigOptions ∧ ∃ place, t.backend.place = .ok place
  dials : ∀ path t, (Locator.ofConfig c.backend).locate path = .ok t →
    ∀ patience dial now p q e,
      Connecting.poll t.backend patience dial now p ≠ .ready (.error (.address e)) q
  begins : ∀ now r id call channel v, (Server.ofConfig c).accept now r id call channel = .ok v →
    0 < v.context.timeout ∧ v.context.deadline = Context.micros now + v.context.timeout ∧
      0 < v.exchange.backend.patience.nanos ∧
      ∃ place, v.exchange.backend.descriptor.place = .ok place

theorem Accepted.valid (accepted : c.Accepted) : c.validate = .ok () :=
  accepted.elim (fun ⟨_, parsed⟩ => valid_of_parse parsed) fun ⟨_, loaded⟩ => valid_of_load loaded

theorem place_of_valid (valid : c.validate = .ok ()) :
    ∃ place, Address.parse c.backend.address = .ok place := by
  cases parsed : Address.parse c.backend.address with
  | ok place => exact ⟨place, rfl⟩
  | error e => exact absurd (.backendAddress parsed) (validate_eq_ok_iff.1 valid .backendAddress _)

theorem timeout_ofConfig (c : Config) : (Server.ofConfig c).controller.timeout =
    min (c.timeouts.uploadPackSecs * 1000000) DeadlineController.maxTimeout := by
  have micros : c.timeouts.uploadPack.micros = c.timeouts.uploadPackSecs * 1000000 := by
    simp only [TimeoutConfig.uploadPack, Duration.ofSecs, Duration.micros]
    omega
  simp only [Server.ofConfig, DeadlineController.ofMicros, micros]

theorem timeout_pos (valid : c.validate = .ok ()) : 0 < (Server.ofConfig c).controller.timeout := by
  have some_secs : c.timeouts.uploadPackSecs ≠ 0 := fun zero =>
    validate_eq_ok_iff.1 valid .uploadPack _ (.uploadPack zero)
  rw [timeout_ofConfig]
  exact Nat.lt_min.2 ⟨by omega, by decide⟩

theorem patience_pos (valid : c.validate = .ok ()) : 0 < c.timeouts.connect.nanos := by
  have some_secs : c.timeouts.connectSecs ≠ 0 := fun zero =>
    validate_eq_ok_iff.1 valid .connect _ (.connect zero)
  simp only [TimeoutConfig.connect, Duration.ofSecs]
  omega

theorem suffices_of_valid (valid : c.validate = .ok ()) : c.Suffices := by
  have target : ∀ path t, (Locator.ofConfig c.backend).locate path = .ok t →
      t.backend.token = c.backend.token ∧ t.repository.storageName = c.backend.storageName ∧
        t.gitConfigOptions = c.backend.gitConfigOptions ∧ ∃ place, t.backend.place = .ok place := by
    intro path t found
    obtain ⟨cs, _, rfl⟩ := Locator.locate_eq_ok_iff.1 found
    exact ⟨rfl, rfl, rfl, place_of_valid valid⟩
  refine ⟨target, fun path t found => ?_, fun now r id call channel v accepted => ?_⟩
  · obtain ⟨_, _, _, place, known⟩ := target path t found
    exact Connecting.address_known known
  · obtain ⟨t, routed, rfl⟩ := Server.route_of_accept accepted
    obtain ⟨path, found⟩ := Http.locate_of_route routed
    exact ⟨timeout_pos valid, rfl, patience_pos valid, (target path t found).2.2.2⟩

/-- Validation tells exactly what is broken, and that is enough for what is done later. -/
theorem validation_exact_and_sufficient (c : Config) : c.Exact ∧ (c.Accepted → c.Suffices) :=
  ⟨c.exact, fun accepted => suffices_of_valid accepted.valid⟩

def brief : Config where
  timeouts := { uploadPackSecs := 120 }

theorem validation_exact_and_sufficient_brief :
    parse "[timeouts]\nupload_pack_secs = 120" = .ok brief ∧ brief.Exact ∧ brief.Suffices := by
  have parsed : parse "[timeouts]\nupload_pack_secs = 120" = .ok brief := by decide +kernel
  obtain ⟨exact, suffices_of⟩ := validation_exact_and_sufficient brief
  exact ⟨parsed, exact, suffices_of (.inl ⟨_, parsed⟩)⟩

end Config
end PackRelay
