import PackRelay.Config.Document
import PackRelay.Config.Load
import PackRelay.Proofs.Toml.Layout
import Mathlib.Data.List.Nodup

/-! Configurations that are given in part. A document gives any of the settings, its sections and the
lines in each in any order, among lines that mean nothing here; what it does not give keeps its
default. -/
namespace PackRelay

open Toml

inductive Setting
  | bindAddress
  | address
  | token
  | storageName
  | gitConfigOptions
  | uploadPackSecs
  | connectSecs
  | logLevel
  | logFormat
  | metricsEnabled
  | metricsAddress
  deriving DecidableEq, Repr

namespace Setting

/-- The section that a setting stands in. -/
def part : Setting → String
  | bindAddress => "listener"
  | address | token | storageName | gitConfigOptions => "backend"
  | uploadPackSecs | connectSecs => "timeouts"
  | logLevel | logFormat | metricsEnabled | metricsAddress => "observability"

def parts : List String := ["listener", "backend", "timeouts", "observability"]

theorem part_mem (s : Setting) : s.part ∈ parts := by
  cases s <;> decide

def name : Setting → String
  | bindAddress => "bind_address"
  | address => "address"
  | token => "token"
  | storageName => "storage_name"
  | gitConfigOptions => "git_config_options"
  | uploadPackSecs => "upload_pack_secs"
  | connectSecs => "connect_secs"
  | logLevel => "log_level"
  | logFormat => "log_format"
  | metricsEnabled => "metrics_enabled"
  | metricsAddress => "metrics_address"

/-- In the order in which a whole configuration is written. -/
def all : List Setting :=
  [bindAddress, address, token, storageName, gitConfigOptions, uploadPackSecs, connectSecs, logLevel,
    logFormat, metricsEnabled, metricsAddress]

theorem mem_all (s : Setting) : s ∈ all := by
  cases s <;> decide

theorem name_injective {s t : Setting} (same : s.name = t.name) : s = t := by
  cases s <;> cases t <;> first | rfl | exact absurd same (by decide)

/-- A token need not be there. -/
def value? (c : Config) : Setting → Option Value
  | bindAddress => some (.text c.listener.bindAddress)
  | address => some (.text c.backend.address)
  | token => c.backend.token.map .text
  | storageName => some (.text c.backend.storageName)
  | gitConfigOptions => some (.array (c.backend.gitConfigOptions.map .text))
  | uploadPackSecs => some (.integer c.timeouts.uploadPackSecs)
  | connectSecs => some (.integer c.timeouts.connectSecs)
  | logLevel => some (.text c.observability.logLevel)
  | logFormat => some (.text c.observability.logFormat)
  | metricsEnabled => some (.boolean c.observability.metricsEnabled)
  | metricsAddress => some (.text c.observability.metricsAddress)

end Setting

namespace Config

/-- These settings are taken over, and all others have their defaults. -/
def only (c : Config) (S : Setting → Bool) : Config :=
  let rest : Config := {}
  { listener :=
      { bindAddress := if S .bindAddress then c.listener.bindAddress else rest.listener.bindAddress }
    backend :=
      { address := if S .address then c.backend.address else rest.backend.address
        token := if S .token then c.backend.token else rest.backend.token
        storageName := if S .storageName then c.backend.storageName else rest.backend.storageName
        gitConfigOptions :=
          if S .gitConfigOptions then c.backend.gitConfigOptions else rest.backend.gitConfigOptions }
    timeouts :=
      { uploadPackSecs :=
          if S .uploadPackSecs then c.timeouts.uploadPackSecs else rest.timeouts.uploadPackSecs
        connectSecs := if S .connectSecs then c.timeouts.connectSecs else rest.timeouts.connectSecs }
    observability :=
      { logLevel := if S .logLevel then c.observability.logLevel else rest.observability.logLevel
        logFormat := if S .logFormat then c.observability.logFormat else rest.observability.logFormat
        metricsEnabled :=
          if S .metricsEnabled then c.observability.metricsEnabled else rest.observability.metricsEnabled
        metricsAddress :=
          if S .metricsAddress then c.observability.metricsAddress
          else rest.observability.metricsAddress } }

/-- Its numbers are among the whole numbers that TOML has. -/
structure Fits (c : Config) : Prop where
  upload_pack : c.timeouts.uploadPackSecs < 2 ^ 63
  connect : c.timeouts.connectSecs < 2 ^ 63

/-- The document gives these settings as the configuration has them. Whatever else it gives has a name
that stands for nothing in its place. -/
structure GivenIn (c : Config) (S : Setting → Bool) (d : Layout) : Prop where
  exactly : ∀ s : Setting, S s ↔ ∃ l, d.Under s.part l ∧ l.name = s.name
  as_held : ∀ s : Setting, ∀ l, d.Under s.part l → l.name = s.name →
    ∃ v, s.value? c = some v ∧ l.text = v.chars
  top : ∀ l ∈ d.top, ∀ s : Setting, l.name ≠ s.part

end Config

/-! ## Filling a record field by field -/

section
variable {σ ι α : Type} {fields : List (Toml.Field σ)}

/-- The record follows an index that every entry moves on. -/
theorem fillByName_follows (state : ι → σ) (entry : α → String × Value) (move : ι → α → ι)
    (all : List α)
    (found : ∀ a ∈ all, ∀ f ∈ fields, f.name = (entry a).1 →
      ∀ i, f.set (entry a).2 (state i) = .ok (state (move i a)))
    (passed : ∀ a ∈ all, (∀ f ∈ fields, f.name ≠ (entry a).1) → ∀ i, state (move i a) = state i)
    (i : ι) : fillByName fields (state i) (all.map entry) = .ok (state (all.foldl move i)) := by
  induction all generalizing i with
  | nil => rfl
  | cons a all ih =>
    have later := ih (fun a listed => found a (.tail _ listed))
      (fun a listed => passed a (.tail _ listed)) (move i a)
    unfold fillByName at later ⊢
    rw [List.map_cons, List.foldlM_cons, List.foldl_cons, ← later]
    cases search : fields.find? (·.name = (entry a).1) with
    | none =>
      have unknown : ∀ f ∈ fields, f.name ≠ (entry a).1 := by simpa using search
      simp only [search, passed a (.head _) unknown]
      rfl
    | some f =>
      have name : f.name = (entry a).1 := by simpa using List.find?_some search
      simp only [search, found a (.head _) f (List.mem_of_find?_eq_some search) name]
      rfl

/-- The fields of a section are settings, and each takes over the value that it is given. -/
structure Fills (part : String) (fields : List (Toml.Field σ)) (get : Config → σ) : Prop where
  sets : ∀ f ∈ fields, ∃ s : Setting, s.part = part ∧ s.name = f.name ∧ ∀ c S v, s.value? c = some v →
    f.set v (get (c.only S)) = .ok (get (c.only fun t => S t || f.name = t.name))
  covers : ∀ s : Setting, s.part = part → ∃ f ∈ fields, f.name = s.name
  depends : ∀ (c : Config) S T, (∀ s : Setting, s.part = part → S s = T s) →
    get (c.only S) = get (c.only T)

end

theorem toTexts_array (ss : List String) : Value.toTexts (.array (ss.map .text)) = .ok ss := by
  show (ss.map Value.text).mapM Value.toText = .ok ss
  induction ss with
  | nil => rfl
  | cons s ss ih =>
    rw [List.map_cons, List.mapM_cons, ih]
    rfl

theorem toNat_integer (n : Nat) : Value.toNat (.integer n) = .ok n := by
  simp [Value.toNat]

theorem ListenerConfig.fills : Fills "listener" ListenerConfig.fields Config.listener where
  sets := by
    simp only [fields, List.forall_mem_singleton]
    refine ⟨.bindAddress, rfl, rfl, ?_⟩
    rintro c S v ⟨⟩
    simp [Toml.Field.of, Value.toText, Config.only, Setting.name, Except.map]
  covers s := by cases s <;> decide
  depends c S T same := by simp [Config.only, same .bindAddress rfl]

theorem BackendConfig.fills : Fills "backend" BackendConfig.fields Config.backend where
  sets := by
    simp only [fields, List.forall_mem_cons]
    refine ⟨⟨.address, rfl, rfl, ?_⟩, ⟨.token, rfl, rfl, ?_⟩, ⟨.storageName, rfl, rfl, ?_⟩,
      ⟨.gitConfigOptions, rfl, rfl, ?_⟩, by simp⟩
    case refine_2 =>
      intro c S v held
      obtain ⟨t, token, rfl⟩ := Option.map_eq_some_iff.1 held
      simp [Toml.Field.of, Value.toText, Config.only, Setting.name, Except.map, token]
    all_goals
      rintro c S v ⟨⟩
      simp [Toml.Field.of, Value.toText, toTexts_array, Config.only, Setting.name, Except.map]
  covers s := by cases s <;> decide
  depends c S T same := by
    simp [Config.only, same .address rfl, same .token rfl, same .storageName rfl,
      same .gitConfigOptions rfl]

theorem TimeoutConfig.fills : Fills "timeouts" TimeoutConfig.fields Config.timeouts where
  sets := by
    simp only [fields, List.forall_mem_cons]
    refine ⟨⟨.uploadPackSecs, rfl, rfl, ?_⟩, ⟨.connectSecs, rfl, rfl, ?_⟩, by simp⟩
    all_goals
      rintro c S v ⟨⟩
      simp [Toml.Field.of, toNat_integer, Config.only, Setting.name, Except.map]
  covers s := by cases s <;> decide
  depends c S T same := by simp [Config.only, same .uploadPackSecs rfl, same .connectSecs rfl]

theorem ObservabilityConfig.fills :
    Fills "observability" ObservabilityConfig.fields Config.observability where
  sets := by
    simp only [fields, List.forall_mem_cons]
    refine ⟨⟨.logLevel, rfl, rfl, ?_⟩, ⟨.logFormat, rfl, rfl, ?_⟩, ⟨.metricsEnabled, rfl, rfl, ?_⟩,
      ⟨.metricsAddress, rfl, rfl, ?_⟩, by simp⟩
    all_goals
      rintro c S v ⟨⟩
      simp [Toml.Field.of, Value.toText, Value.toBool, Config.only, Setting.name, Except.map]
  covers s := by cases s <;> decide
  depends c S T same := by
    simp [Config.only, same .logLevel rfl, same .logFormat rfl, same .metricsEnabled rfl,
      same .metricsAddress rfl]

/-! ## Sections -/

/-- Where a line of the block has the name of a setting, it gives the setting's value. -/
def Toml.Block.Honest (b : Block) (c : Config) : Prop :=
  ∀ l ∈ b.lines, ∀ s : Setting, s.part = b.name → s.name = l.name → s.value? c = some l.value

def Toml.Block.gives (b : Block) (s : Setting) : Bool := b.lines.any (·.name = s.name)

theorem foldl_named (ls : List Line) (S : Setting → Bool) :
    ls.foldl (fun S l t => S t || l.name = t.name) S =
      fun s => S s || ls.any (·.name = s.name) := by
  induction ls generalizing S with
  | nil => simp
  | cons l ls ih => simp [ih, Bool.or_assoc]

variable {c : Config} {b : Block}

/-- A section starts from its defaults. -/
theorem Fills.block {σ : Type} {fields : List (Toml.Field σ)} {get : Config → σ}
    (fills : Fills b.name fields get) (honest : b.Honest c) :
    fillByName fields (get (c.only fun _ => false)) (b.lines.map Line.entry) =
      .ok (get (c.only b.gives)) := by
  have follow := @fillByName_follows σ _ _ fields (fun S => get (c.only S)) Line.entry
    (fun S l t => S t || l.name = t.name) b.lines ?_ ?_ fun _ => false
  · simp only [foldl_named, Bool.false_or] at follow
    exact follow
  · intro l listed f field name S
    obtain ⟨s, part, known, sets⟩ := fills.sets f field
    have set := sets c S l.value (honest l listed s part (known.trans name))
    rw [name] at set
    exact set
  · intro l listed unknown S
    refine fills.depends c _ S fun s part => ?_
    obtain ⟨f, field, name⟩ := fills.covers s part
    have other : l.name ≠ s.name := fun is => unknown f field (name.trans is.symm)
    simp [other]

namespace Config

/-- One section is as it is given now; the others are as they were. -/
def moved (S : Setting → Bool) (b : Block) (s : Setting) : Bool :=
  if s.part = b.name then b.gives s else S s

theorem set_of_fills {σ : Type} {part expected : String} {inner : List (Toml.Field σ)} {get : Config → σ}
    {put : Config → σ → Config} {S : Setting → Bool} (fills : Fills part inner get)
    (honest : b.Honest c) (here : part = b.name)
    (puts : put (c.only S) (get (c.only b.gives)) = c.only (moved S b)) :
    (Toml.Field.of part (fill expected inner (get (c.only fun _ => false))) put).set b.entry.2 (c.only S) =
      .ok (c.only (moved S b)) := by
  subst here
  exact (congrArg (Except.map (put (c.only S))) (fills.block honest)).trans (congrArg Except.ok puts)

theorem set_block (honest : b.Honest c) {f : Toml.Field Config} (field : f ∈ fields)
    (name : f.name = b.name) (S : Setting → Bool) :
    f.set b.entry.2 (c.only S) = .ok (c.only (moved S b)) := by
  simp only [fields, List.mem_cons, List.not_mem_nil, or_false] at field
  rcases field with rfl | rfl | rfl | rfl
  · have name : "listener" = b.name := name
    exact set_of_fills ListenerConfig.fills honest name (by simp [only, moved, ← name, Setting.part])
  · have name : "backend" = b.name := name
    exact set_of_fills BackendConfig.fills honest name (by simp [only, moved, ← name, Setting.part])
  · have name : "timeouts" = b.name := name
    exact set_of_fills TimeoutConfig.fills honest name (by simp [only, moved, ← name, Setting.part])
  · have name : "observability" = b.name := name
    exact set_of_fills ObservabilityConfig.fills honest name
      (by simp [only, moved, ← name, Setting.part])

theorem field_of_part (s : Setting) : ∃ f ∈ fields, f.name = s.part := by
  cases s <;> decide

theorem part_of_field {f : Toml.Field Config} (field : f ∈ fields) : ∃ s : Setting, s.part = f.name := by
  simp only [fields, List.mem_cons, List.not_mem_nil, or_false] at field
  rcases field with rfl | rfl | rfl | rfl
  · exact ⟨.bindAddress, rfl⟩
  · exact ⟨.address, rfl⟩
  · exact ⟨.connectSecs, rfl⟩
  · exact ⟨.logLevel, rfl⟩

theorem moved_of_unknown (unknown : ∀ f ∈ fields, f.name ≠ b.name) (S : Setting → Bool) :
    moved S b = S := by
  funext s
  obtain ⟨f, field, name⟩ := field_of_part s
  exact if_neg fun is => unknown f field (name.trans is)

/-- With every name at most once, a setting is given where its section is. -/
theorem foldl_moved {bs : List Block} (distinct : (bs.map Block.name).Nodup) (S : Setting → Bool)
    (s : Setting) : bs.foldl moved S s ↔
      (∃ b ∈ bs, b.name = s.part ∧ b.gives s) ∨ S s ∧ ∀ b ∈ bs, b.name ≠ s.part := by
  induction bs generalizing S with
  | nil => simp
  | cons b bs ih =>
    obtain ⟨fresh, distinct⟩ := List.nodup_cons.1 distinct
    rw [List.foldl_cons, ih distinct]
    by_cases here : b.name = s.part
    · have elsewhere : ∀ b' ∈ bs, b'.name ≠ s.part := fun b' listed is =>
        fresh (List.mem_map.2 ⟨b', listed, is.trans here.symm⟩)
      have none_later : ¬ ∃ b' ∈ bs, b'.name = s.part ∧ b'.gives s :=
        fun ⟨b', listed, is, _⟩ => elsewhere b' listed is
      simpa [moved, here, none_later] using fun _ => elsewhere
    · simp [moved, here, Ne.symm here]

variable {S : Setting → Bool} {d : Layout} {v : Value}

theorem Fits.reads (fits : c.Fits) {s : Setting} (held : s.value? c = some v) : Reads v.chars v := by
  cases s with
  | token =>
    obtain ⟨t, _, rfl⟩ := Option.map_eq_some_iff.1 held
    exact reads_text t
  | gitConfigOptions =>
    cases held
    exact reads_texts _
  | uploadPackSecs =>
    cases held
    exact reads_integer fits.upload_pack
  | connectSecs =>
    cases held
    exact reads_integer fits.connect
  | metricsEnabled =>
    cases held
    exact reads_boolean _
  | bindAddress | address | storageName | logLevel | logFormat | metricsAddress =>
    cases held
    exact reads_text _

namespace GivenIn

theorem honest (given : c.GivenIn S d) (fits : c.Fits) (listed : b ∈ d.blocks) : b.Honest c := by
  intro l line s part name
  obtain ⟨v, held, text⟩ := given.as_held s l ⟨b, listed, part.symm, line⟩ name.symm
  rw [held, (fits.reads held).unique (text ▸ l.reads)]

theorem settings (given : c.GivenIn S d) : d.blocks.foldl moved (fun _ => false) = S := by
  funext s
  rw [Bool.eq_iff_iff, foldl_moved (List.nodup_append.1 d.distinct).2.1, given.exactly s]
  simp only [Block.gives, Layout.Under, List.any_eq_true, decide_eq_true_eq, Bool.false_eq_true,
    false_and, or_false]
  constructor
  · rintro ⟨b, listed, part, l, line, name⟩
    exact ⟨l, ⟨b, listed, part, line⟩, name⟩
  · rintro ⟨l, ⟨b, listed, part, line⟩, name⟩
    exact ⟨b, listed, part, l, line, name⟩

theorem ofEntries (given : c.GivenIn S d) (fits : c.Fits) :
    Config.ofEntries d.entries = .ok (c.only S) := by
  have top : fillByName fields (c.only fun _ => false) (d.top.map Line.entry) =
      .ok (c.only fun _ => false) := by
    refine fillByName_follows (fun () => c.only fun _ => false) Line.entry (fun _ _ => ()) d.top
      (fun l listed f field name => ?_) (fun _ _ _ _ => rfl) ()
    obtain ⟨s, part⟩ := part_of_field field
    exact absurd (name.symm.trans part.symm) (given.top l listed s)
  have blocks : fillByName fields (c.only fun _ => false) (d.blocks.map Block.entry) =
      .ok (c.only (d.blocks.foldl moved fun _ => false)) :=
    fillByName_follows c.only Block.entry moved d.blocks
      (fun _ listed _ field name S => set_block (given.honest fits listed) field name S)
      (fun _ _ unknown S => congrArg c.only (moved_of_unknown unknown S)) _
  rw [given.settings] at blocks
  unfold fillByName at top blocks
  rw [Config.ofEntries, Layout.entries, fillByName, List.foldlM_append]
  exact (congrArg (Except.bind · _) top).trans blocks

theorem checks (given : c.GivenIn S d) (fits : c.Fits) : parse d.text = (c.only S).checked := by
  unfold parse
  rw [d.parse_text]
  simp only [given.ofEntries fits]

end GivenIn

/-- Whatever part of it a document gives, and however it is laid out, the configuration with defaults
for the rest is checked, and loads or fails by that. -/
theorem parse_partial (given : c.GivenIn S d) (fits : c.Fits) :
    ((c.only S).validate = .ok () → parse d.text = .ok (c.only S)) ∧
    ∀ faults, (c.only S).validate = .error faults → parse d.text = .error (.invalid faults) := by
  have read := given.checks fits
  unfold checked at read
  constructor
  · intro valid
    rw [read, valid]
  · intro faults invalid
    rw [read, invalid]

def sample : Config where
  listener := { bindAddress := "elsewhere" }
  backend :=
    { address := "tcp://10.0.0.1:9999", token := some "a\"b\\c\n", storageName := "ä"
      gitConfigOptions := ["core.x=\"y\"", ""] }
  timeouts := { uploadPackSecs := 0, connectSecs := 7 }
  observability := { metricsEnabled := true }

def sampleChoice : Setting → Bool
  | .token | .gitConfigOptions | .storageName | .connectSecs | .metricsEnabled => true
  | _ => false

/-- Among names that mean nothing where they stand. -/
def sampleLayout : Layout where
  top := [⟨"name of it", _, _, reads_text "é"⟩]
  blocks :=
    [⟨"timeouts", [⟨"connect_secs", _, _, reads_integer (show 7 < 2 ^ 63 by decide)⟩], by decide⟩,
      ⟨"backend",
        [⟨"git_config_options", _, _, reads_texts ["core.x=\"y\"", ""]⟩,
          ⟨"log_level", _, _, reads_boolean false⟩, ⟨"token", _, _, reads_text "a\"b\\c\n"⟩,
          ⟨"storage_name", _, _, reads_text "ä"⟩], by decide⟩,
      ⟨"extra", [], by decide⟩,
      ⟨"observability", [⟨"metrics_enabled", _, _, reads_boolean true⟩], by decide⟩]
  distinct := by decide

theorem sample_givenIn : sample.GivenIn sampleChoice sampleLayout where
  exactly s := by
    cases s <;> simp [Layout.Under, sampleLayout, Setting.part, Setting.name, sampleChoice]
  as_held s l under name := by
    simp only [Layout.Under, sampleLayout, List.mem_cons, List.not_mem_nil, or_false,
      exists_eq_or_imp, exists_eq_left, and_false, false_or] at under
    rcases under with ⟨part, rfl⟩ | ⟨part, rfl | rfl | rfl | rfl⟩ | ⟨part, rfl⟩ <;>
      cases s <;> simp [Setting.part, Setting.name, Setting.value?, sample] at part name ⊢
  top := by
    simp only [sampleLayout, List.forall_mem_singleton]
    rintro ⟨⟩ <;> decide

theorem parse_partial_sample :
    sample.GivenIn sampleChoice sampleLayout ∧ sample.Fits ∧
    sampleLayout.text = "\"name of it\" = \"é\"\n[timeouts]\nconnect_secs = 7\n[backend]\n" ++
      "git_config_options = [\"core.x=\\\"y\\\"\", \"\"]\nlog_level = false\n" ++
      "token = \"a\\\"b\\\\c\\u000a\"\nstorage_name = \"ä\"\n[extra]\n" ++
      "[observability]\nmetrics_enabled = true\n" ∧
    parse sampleLayout.text = .ok
      { backend :=
          { token := some "a\"b\\c\n", storageName := "ä", gitConfigOptions := ["core.x=\"y\"", ""] }
        timeouts := { connectSecs := 7 }
        observability := { metricsEnabled := true } } := by
  have fits : sample.Fits := ⟨by decide, by decide⟩
  have valid : (sample.only sampleChoice).validate = .ok () := by decide +kernel
  exact ⟨sample_givenIn, fits, by decide +kernel, (parse_partial sample_givenIn fits).1 valid⟩

/-! ## A document for any choice -/

/-- What a section gives, in the order of the record. -/
def given (c : Config) (S : Setting → Bool) (part : String) : Entries :=
  Setting.all.filterMap fun s =>
    if s.part = part ∧ S s then (s.value? c).map fun v => (s.name, v) else none

theorem mem_given {part : String} {e : String × Value} : e ∈ c.given S part ↔
    ∃ s : Setting, s.part = part ∧ S s ∧ s.name = e.1 ∧ s.value? c = some e.2 := by
  simp only [given, List.mem_filterMap, Setting.mem_all, true_and]
  refine exists_congr fun s => ?_
  by_cases chosen : s.part = part ∧ S s
  · simp [chosen, Prod.ext_iff, and_comm]
  · simp only [if_neg chosen, reduceCtorEq, false_iff]
    exact fun ⟨here, taken, _⟩ => chosen ⟨here, taken⟩

theorem given_distinct (c : Config) (S : Setting → Bool) (part : String) :
    ((c.given S part).map Prod.fst).Nodup := by
  rw [given, List.map_filterMap]
  refine List.Nodup.filterMap (fun s t name of_s of_t => ?_) (by decide)
  have named {s : Setting} (here : name ∈ (if s.part = part ∧ S s then
      (s.value? c).map fun v => (s.name, v) else none).map Prod.fst) : s.name = name := by
    split at here
    · obtain ⟨e, there, rfl⟩ := Option.map_eq_some_iff.1 here
      obtain ⟨v, _, rfl⟩ := Option.map_eq_some_iff.1 there
      rfl
    · cases here
  exact Setting.name_injective ((named of_s).trans (named of_t).symm)

def block (fits : c.Fits) (S : Setting → Bool) (part : String) : Block where
  name := part
  lines := (c.given S part).pmap (fun e reads => ⟨e.1, e.2.chars, e.2, reads⟩) fun e listed => by
    obtain ⟨s, _, _, _, held⟩ := mem_given.1 listed
    exact fits.reads held
  distinct := by
    rw [List.map_pmap, List.pmap_eq_map]
    exact given_distinct c S part

theorem block_chars (fits : c.Fits) (S : Setting → Bool) (part : String) :
    (block fits S part).chars = sectionChars (part, c.given S part) := by
  have lines : (block fits S part).lines.map Line.chars = (c.given S part).map lineChars := by
    rw [block, List.map_pmap]
    exact List.pmap_eq_map (f := lineChars) _
  rw [Block.chars, Block.header, sectionChars, List.flatMap_def, List.flatMap_def, lines]
  rfl

def layout (fits : c.Fits) (S : Setting → Bool) : Layout where
  top := []
  blocks := Setting.parts.map (block fits S)
  distinct := by simp [Setting.parts, block]

theorem under_layout (fits : c.Fits) {s : Setting} {l : Line} :
    (layout fits S).Under s.part l ↔
      (l.name, l.value) ∈ c.given S s.part ∧ l.text = l.value.chars := by
  constructor
  · rintro ⟨b, listed, name, line⟩
    obtain ⟨_, _, rfl⟩ := List.mem_map.1 listed
    cases name
    obtain ⟨e, there, rfl⟩ := List.mem_pmap.1 line
    exact ⟨there, rfl⟩
  · rintro ⟨there, text⟩
    obtain ⟨name, written, value, reads⟩ := l
    obtain rfl : written = value.chars := text
    exact ⟨block fits S s.part, List.mem_map_of_mem s.part_mem, rfl, List.mem_pmap.2 ⟨_, there, rfl⟩⟩

/-- Any choice can be given. -/
theorem layout_givenIn (fits : c.Fits) (there : ∀ s, S s → (s.value? c).isSome) :
    c.GivenIn S (layout fits S) where
  exactly s := by
    constructor
    · intro chosen
      obtain ⟨v, held⟩ := Option.isSome_iff_exists.1 (there s chosen)
      exact ⟨⟨s.name, v.chars, v, fits.reads held⟩,
        (under_layout fits).2 ⟨mem_given.2 ⟨s, rfl, chosen, rfl, held⟩, rfl⟩, rfl⟩
    · rintro ⟨l, under, name⟩
      obtain ⟨t, _, chosen, named, _⟩ := mem_given.1 ((under_layout fits).1 under).1
      exact Setting.name_injective (named.trans name) ▸ chosen
  as_held s l under name := by
    obtain ⟨given, text⟩ := (under_layout fits).1 under
    obtain ⟨t, _, _, named, held⟩ := mem_given.1 given
    exact ⟨l.value, Setting.name_injective (named.trans name) ▸ held, text⟩
  top l listed := by cases listed

theorem sections_eq (c : Config) :
    c.sections = Setting.parts.map fun part =>
      (part, c.given (fun s => (s.value? c).isSome) part) := by
  cases token : c.backend.token <;>
    simp [sections, Setting.parts, ListenerConfig.entries, BackendConfig.entries, TimeoutConfig.entries,
      ObservabilityConfig.entries, given, Setting.all, Setting.part, Setting.value?, Setting.name, token]

theorem layout_text (fits : c.Fits) :
    (layout fits fun s => (s.value? c).isSome).text = c.toToml := by
  rw [toToml, Toml.render, sections_eq, Layout.text, Layout.chars, layout, List.flatMap_map,
    List.flatMap_map]
  simp only [block_chars, List.flatMap_nil]

theorem only_all (c : Config) : (c.only fun s => (s.value? c).isSome) = c := by
  cases token : c.backend.token <;> simp [only, Setting.value?, token] <;> rw [← token]

/-- A configuration that is written out is read as itself. -/
theorem parse_toToml (fits : c.Fits) : parse c.toToml = c.checked := by
  have read := (layout_givenIn fits fun _ there => there).checks fits
  rwa [only_all, layout_text] at read

end Config
end PackRelay
