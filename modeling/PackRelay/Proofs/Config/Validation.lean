import PackRelay.Config.Load
import Mathlib.Data.List.Forall2

/-! The rules that a configuration has to meet. Each broken rule is told by one fault, in the order of
the rules, whatever becomes of the others; what is loaded breaks none. -/
namespace PackRelay

inductive Rule
  | bindAddress
  | backendAddress
  | storageName
  | uploadPack
  | connect
  | logFormat
  | metricsAddress
  deriving DecidableEq

/-- In the order in which they are told. -/
def Rule.all : List Rule :=
  [.bindAddress, .backendAddress, .storageName, .uploadPack, .connect, .logFormat, .metricsAddress]

def ConfigFault.rule : ConfigFault → Rule
  | .bindAddress _ => .bindAddress
  | .backendAddress _ => .backendAddress
  | .storageName => .storageName
  | .zeroUploadPack => .uploadPack
  | .zeroConnect => .connect
  | .logFormat _ => .logFormat
  | .metricsAddress _ => .metricsAddress

namespace Config

/-- The configuration breaks a rule, and the fault says how. -/
inductive Breaks (c : Config) : Rule → ConfigFault → Prop
  | bindAddress : SocketAddress.isValid c.listener.bindAddress = false →
    Breaks c .bindAddress (.bindAddress c.listener.bindAddress)
  | backendAddress {e : AddressError} : Address.parse c.backend.address = .error e →
    Breaks c .backendAddress (.backendAddress e)
  | storageName : c.backend.storageName = "" → Breaks c .storageName .storageName
  | uploadPack : c.timeouts.uploadPackSecs = 0 → Breaks c .uploadPack .zeroUploadPack
  | connect : c.timeouts.connectSecs = 0 → Breaks c .connect .zeroConnect
  | logFormat : c.observability.logFormat ≠ "text" → c.observability.logFormat ≠ "json" →
    Breaks c .logFormat (.logFormat c.observability.logFormat)
  | metricsAddress : c.observability.metricsEnabled = true →
    SocketAddress.isValid c.observability.metricsAddress = false →
    Breaks c .metricsAddress (.metricsAddress c.observability.metricsAddress)

variable {c : Config} {rule : Rule} {f : ConfigFault}

theorem Breaks.about (breaks : c.Breaks rule f) : f.rule = rule := by
  cases breaks <;> rfl

def fault? (c : Config) : Rule → Option ConfigFault
  | .bindAddress => c.bindAddressFault
  | .backendAddress => c.backendAddressFault
  | .storageName => c.storageNameFault
  | .uploadPack => c.uploadPackFault
  | .connect => c.connectFault
  | .logFormat => c.logFormatFault
  | .metricsAddress => c.metricsAddressFault

theorem faults_eq (c : Config) : c.faults = Rule.all.filterMap c.fault? := rfl

theorem breaks_of_fault? (found : c.fault? rule = some f) : c.Breaks rule f := by
  cases rule with
  | bindAddress =>
    simp only [fault?, bindAddressFault] at found
    split at found
    · cases found
    · rename_i invalid
      cases found
      exact .bindAddress (eq_false_of_ne_true invalid)
  | backendAddress =>
    simp only [fault?, backendAddressFault] at found
    split at found
    · cases found
    · cases found
      exact .backendAddress ‹_›
  | storageName =>
    simp only [fault?, storageNameFault] at found
    split at found
    · cases found
      exact .storageName ‹_›
    · cases found
  | uploadPack =>
    simp only [fault?, uploadPackFault] at found
    split at found
    · cases found
      exact .uploadPack ‹_›
    · cases found
  | connect =>
    simp only [fault?, connectFault] at found
    split at found
    · cases found
      exact .connect ‹_›
    · cases found
  | logFormat =>
    simp only [fault?, logFormatFault] at found
    split at found
    · cases found
    · rename_i other
      cases found
      exact .logFormat (fun is => other (.inl is)) fun is => other (.inr is)
  | metricsAddress =>
    simp only [fault?, metricsAddressFault] at found
    split at found
    · rename_i wanted
      cases found
      rw [Bool.and_eq_true, Bool.not_eq_true'] at wanted
      exact .metricsAddress wanted.1 wanted.2
    · cases found

theorem Breaks.fault? (breaks : c.Breaks rule f) : c.fault? rule = some f := by
  cases breaks with
  | bindAddress invalid => simp [Config.fault?, bindAddressFault, invalid]
  | backendAddress failed => simp [Config.fault?, backendAddressFault, failed]
  | storageName empty => simp [Config.fault?, storageNameFault, empty]
  | uploadPack zero => simp [Config.fault?, uploadPackFault, zero]
  | connect zero => simp [Config.fault?, connectFault, zero]
  | logFormat not_text not_json => simp [Config.fault?, logFormatFault, not_text, not_json]
  | metricsAddress wanted invalid => simp [Config.fault?, metricsAddressFault, wanted, invalid]

theorem fault?_eq_some_iff : c.fault? rule = some f ↔ c.Breaks rule f :=
  ⟨breaks_of_fault?, Breaks.fault?⟩

theorem exists_broken (c : Config) (rules : List Rule) :
    ∃ broken, broken.Sublist rules ∧ (∀ rule ∈ rules, rule ∈ broken ↔ ∃ f, c.Breaks rule f) ∧
      List.Forall₂ c.Breaks broken (rules.filterMap c.fault?) := by
  refine ⟨rules.filter fun rule => (c.fault? rule).isSome, List.filter_sublist, ?_, ?_⟩
  · intro rule listed
    simp only [List.mem_filter, listed, true_and, Option.isSome_iff_exists, fault?_eq_some_iff]
  · induction rules with
    | nil => exact .nil
    | cons rule rules ih =>
      cases found : c.fault? rule with
      | none => simpa [found] using ih
      | some f => simpa [found] using ⟨breaks_of_fault? found, ih⟩

/-- Without the reports of one rule there are those of the others. -/
theorem faults_apart (c : Config) (left_out : Rule) :
    c.faults.filter (·.rule ≠ left_out) = (Rule.all.filter (· ≠ left_out)).filterMap c.fault? := by
  rw [faults_eq]
  induction Rule.all with
  | nil => rfl
  | cons rule rules ih =>
    rw [List.filterMap_cons]
    cases found : c.fault? rule with
    | none =>
      by_cases same : rule = left_out
      · simpa [same] using ih
      · simpa [found, same] using ih
    | some f =>
      have about := (breaks_of_fault? found).about
      by_cases same : rule = left_out
      · simpa [about, same] using ih
      · simpa [found, about, same] using ih

theorem validate_eq_ok_iff : c.validate = .ok () ↔ ∀ rule f, ¬ c.Breaks rule f := by
  have sound : c.validate = .ok () ↔ c.faults = [] := by
    unfold validate
    cases c.faults <;> simp
  rw [sound, faults_eq, List.filterMap_eq_nil_iff]
  constructor
  · intro silent rule f breaks
    have unreported := silent rule (by cases rule <;> decide)
    rw [breaks.fault?] at unreported
    cases unreported
  · intro met rule _
    cases found : c.fault? rule with
    | none => rfl
    | some f => exact absurd (breaks_of_fault? found) (met rule f)

theorem checked_eq_ok_iff {d : Config} : c.checked = .ok d ↔ d = c ∧ c.validate = .ok () := by
  unfold checked
  cases c.validate <;> simp [eq_comm]

variable {text : String} {file : Option Bytes}

theorem parse_eq_ok_iff : parse text = .ok c ↔
    ∃ es, Toml.parse text = some es ∧ ofEntries es = .ok c ∧ c.validate = .ok () := by
  unfold parse
  cases Toml.parse text with
  | none => simp
  | some es =>
    cases formed : ofEntries es with
    | error m => simp [formed]
    | ok d =>
      simp only [Option.some.injEq, exists_eq_left', formed, Except.ok.injEq, checked_eq_ok_iff]
      constructor
      · rintro ⟨rfl, valid⟩
        exact ⟨rfl, valid⟩
      · rintro ⟨rfl, valid⟩
        exact ⟨rfl, valid⟩

theorem load_eq_ok_iff : load file = .ok c ↔
    ∃ bs text, file = some bs ∧ Utf8.toString? bs = some text ∧ parse text = .ok c := by
  constructor
  · intro accepted
    simp only [load] at accepted
    split at accepted
    · cases accepted
    · rename_i bs
      split at accepted
      · cases accepted
      · exact ⟨bs, _, rfl, ‹_›, accepted⟩
  · rintro ⟨bs, text, rfl, read, parsed⟩
    simp only [load, read, parsed]

theorem valid_of_parse (accepted : parse text = .ok c) : c.validate = .ok () := by
  obtain ⟨_, _, _, valid⟩ := parse_eq_ok_iff.1 accepted
  exact valid

theorem valid_of_load (accepted : load file = .ok c) : c.validate = .ok () := by
  obtain ⟨_, _, _, _, parsed⟩ := load_eq_ok_iff.1 accepted
  exact valid_of_parse parsed

end Config
end PackRelay
