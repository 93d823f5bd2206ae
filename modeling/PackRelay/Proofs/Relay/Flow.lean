import PackRelay.Proofs.Exchange.Told
import PackRelay.Proofs.Stream.Connection
import PackRelay.Proofs.Stream.Sink
import PackRelay.Relay.Outbound

/-! What both relays are: octets flow out of a source into a sink, piece by piece, until the
source is at its end and the sink is finished. Each octet that left the source is in the sink or
still in hand. -/
namespace PackRelay

inductive Stage
  | reading
  | writing (rest : Bytes) (size : Nat)
  | finishing

def Stage.rest : Stage → Bytes
  | .writing rest _ => rest
  | _ => []

def Stage.size : Stage → Nat
  | .writing _ size => size
  | _ => 0

@[simp] theorem Stage.rest_reading : Stage.reading.rest = [] := rfl

@[simp] theorem Stage.rest_writing (rest : Bytes) (size : Nat) :
    (Stage.writing rest size).rest = rest := rfl

@[simp] theorem Stage.size_reading : Stage.reading.size = 0 := rfl

@[simp] theorem Stage.size_writing (rest : Bytes) (size : Nat) :
    (Stage.writing rest size).size = size := rfl

def Stage.writes : Stage → Bool
  | .writing _ _ => true
  | _ => false

/-- A stage that comes again only after more was read comes first. -/
def Stage.order : Stage → Nat
  | .writing _ _ => 2
  | .reading => 1
  | .finishing => 0

structure Flow where
  source : Source
  sink : Sink
  stage : Stage
  bytes : Nat

namespace Flow

/-- What is particular to a direction. -/
structure Kind where
  /-- Whether what is read may be what was written. -/
  loop : Bool
  finish : Sink → Poll Sink (Except IoError Unit) → Prop
  finished : Sink → Nat
  readFailure : IoError → RelayError
  writeFailure : IoError → RelayError
  finish_only : ∀ {s p}, finish s p → s.OnlyFinishes p.state
  finish_ok : ∀ {s s'}, finish s (.ready (.ok ()) s') → finished s' = finished s + 1
  finish_not_ok : ∀ {s p}, finish s p → (∀ s', p ≠ .ready (.ok ()) s') → finished p.state =
    finished s
  finish_crash : ∀ {s s'}, finish s (.crashed s') → ¬ s.plan.Calm
  finished_write : ∀ {s s'}, s.OnlyWrites s' → finished s' = finished s
  untold : ∀ e, (readFailure e).told = none ∧ (writeFailure e).told = none

/-- All that one step of a relay can do as long as nothing stops it. The value is what it failed
with. -/
inductive Step (k : Kind) (m : Flow) : Poll Flow (Option RelayError) → Prop
  | gets (bs : Bytes) (source : Source) :
    m.stage = .reading → bs ≠ [] → m.source.ReadStep k.loop relayBuffer (.ready (.ok bs) source) →
      Step k m (.more { m with source, stage := .writing bs bs.length })
  | ends (source : Source) :
    m.stage = .reading → m.source.ReadStep k.loop relayBuffer (.ready (.ok []) source) →
      Step k m (.more { m with source, stage := .finishing })
  | skips (source : Source) :
    m.stage = .reading → m.source.ReadStep k.loop relayBuffer (.more source) →
      Step k m (.more { m with source })
  | starves (source : Source) (alarm : Option Nat) :
    m.stage = .reading → m.source.ReadStep k.loop relayBuffer (.waiting source alarm) →
      Step k m (.waiting { m with source } alarm)
  | readFails (e : IoError) (source : Source) :
    m.stage = .reading → m.source.ReadStep k.loop relayBuffer (.ready (.error e) source) →
      Step k m (.ready (some (k.readFailure e)) { m with source })
  | readCrashes (source : Source) :
    m.stage = .reading → m.source.ReadStep k.loop relayBuffer (.crashed source) →
      Step k m (.crashed { m with source })
  | takes (rest rest' : Bytes) (size : Nat) (sink : Sink) :
    m.stage = .writing rest size → m.sink.WriteStep rest (.more (rest', sink)) →
      Step k m (.more { m with sink, stage := .writing rest' size })
  | passes (rest rest' : Bytes) (size : Nat) (sink : Sink) :
    m.stage = .writing rest size → m.sink.WriteStep rest (.ready (.ok ()) (rest', sink)) →
      Step k m (.more { m with sink, stage := .reading, bytes := m.bytes + size })
  | stalls (rest rest' : Bytes) (size : Nat) (sink : Sink) (alarm : Option Nat) :
    m.stage = .writing rest size → m.sink.WriteStep rest (.waiting (rest', sink) alarm) →
      Step k m (.waiting { m with sink, stage := .writing rest' size } alarm)
  | writeFails (e : IoError) (rest rest' : Bytes) (size : Nat) (sink : Sink) :
    m.stage = .writing rest size → m.sink.WriteStep rest (.ready (.error e) (rest', sink)) →
      Step k m (.ready (some (k.writeFailure e)) { m with sink, stage := .writing rest' size })
  | writeCrashes (rest rest' : Bytes) (size : Nat) (sink : Sink) :
    m.stage = .writing rest size → m.sink.WriteStep rest (.crashed (rest', sink)) →
      Step k m (.crashed { m with sink, stage := .writing rest' size })
  | finishes (sink : Sink) :
    m.stage = .finishing → k.finish m.sink (.ready (.ok ()) sink) →
      Step k m (.ready none { m with sink })
  | lingers (sink : Sink) (alarm : Option Nat) :
    m.stage = .finishing → k.finish m.sink (.waiting sink alarm) →
      Step k m (.waiting { m with sink } alarm)
  | finishFails (e : IoError) (sink : Sink) :
    m.stage = .finishing → k.finish m.sink (.ready (.error e) sink) →
      Step k m (.ready (some (k.writeFailure e)) { m with sink })
  | finishCrashes (sink : Sink) :
    m.stage = .finishing → k.finish m.sink (.crashed sink) → Step k m (.crashed { m with sink })

/-- One step of a relay that nothing stops, from what a read and what finishing would come to. -/
def poll (k : Kind) (now : Nat) (read : Poll Source (Except IoError Bytes))
    (finish : Poll Sink (Except IoError Unit)) (m : Flow) : Poll Flow (Option RelayError) :=
  match m.stage with
  | .reading =>
    read.into (fun source => { m with source }) fun outcome source =>
      match outcome with
      | .error e => .ready (some (k.readFailure e)) { m with source }
      | .ok [] => .more { m with source, stage := .finishing }
      | .ok bs => .more { m with source, stage := .writing bs bs.length }
  | .writing rest size =>
    (m.sink.pollWriteAll now rest).into
      (fun (rest, sink) => { m with sink, stage := .writing rest size }) fun outcome (rest, sink) =>
        match outcome with
        | .error e => .ready (some (k.writeFailure e)) { m with sink, stage := .writing rest size }
        | .ok () => .more { m with sink, stage := .reading, bytes := m.bytes + size }
  | .finishing =>
    finish.into (fun sink => { m with sink }) fun outcome sink =>
      match outcome with
      | .error e => .ready (some (k.writeFailure e)) { m with sink }
      | .ok () => .ready none { m with sink }

variable {k : Kind} {m m' : Flow} {p : Poll Flow (Option RelayError)} {base : Bytes}

theorem poll_step {r : Poll Source (Except IoError Bytes)} {f : Poll Sink (Except IoError Unit)}
    (read : m.source.ReadStep k.loop relayBuffer r) (finish : k.finish m.sink f)
    (settled : ∀ s, f ≠ .more s) (now : Nat) : Step k m (poll k now r f m) := by
  obtain ⟨source, sink, stage, bytes⟩ := m
  cases stage with
  | reading =>
    cases r with
    | ready outcome source' =>
      cases outcome with
      | error e => exact .readFails e source' rfl read
      | ok bs =>
        cases bs with
        | nil => exact .ends source' rfl read
        | cons b bs => exact .gets (b :: bs) source' rfl (List.cons_ne_nil b bs) read
    | more source' => exact .skips source' rfl read
    | waiting source' alarm => exact .starves source' alarm rfl read
    | crashed source' => exact .readCrashes source' rfl read
  | writing rest size =>
    have write := sink.pollWriteAll_step now rest
    simp only [poll]
    cases polled : sink.pollWriteAll now rest with
    | ready outcome q =>
      rw [polled] at write
      cases outcome with
      | error e => exact .writeFails e rest q.1 size q.2 rfl write
      | ok _ => exact .passes rest q.1 size q.2 rfl write
    | more q => exact .takes rest q.1 size q.2 rfl (polled ▸ write)
    | waiting q alarm => exact .stalls rest q.1 size q.2 alarm rfl (polled ▸ write)
    | crashed q => exact .writeCrashes rest q.1 size q.2 rfl (polled ▸ write)
  | finishing =>
    cases f with
    | ready outcome sink' =>
      cases outcome with
      | error e => exact .finishFails e sink' rfl finish
      | ok _ => exact .finishes sink' rfl finish
    | more sink' => exact absurd rfl (settled sink')
    | waiting sink' alarm => exact .lingers sink' alarm rfl finish
    | crashed sink' => exact .finishCrashes sink' rfl finish

/-- No octet is lost, written twice or counted before it is written; finishing comes after the
end. -/
structure Sound (base : Bytes) (m : Flow) : Prop where
  written : m.sink.written ++ m.stage.rest = base ++ m.source.delivered
  counted : m.bytes + m.stage.size = m.source.delivered.length
  ended : m.stage = .finishing → m.source.events = []

theorem relayBuffer_pos : 0 < relayBuffer := by decide

theorem Sound.writing {rest rest' : Bytes} {size : Nat} {sink : Sink}
    {q : Poll (Bytes × Sink) (Except IoError Unit)}
    (sound : m.Sound base) (stage : m.stage = .writing rest size) (step : m.sink.WriteStep rest q)
    (left : q.state = (rest', sink)) :
    ({ m with sink, stage := .writing rest' size } : Flow).Sound base where
  written := by
    have := step.written
    rw [left] at this
    exact this.trans (by simpa only [stage, Stage.rest_writing] using sound.written)
  counted := by simpa only [stage, Stage.size_writing] using sound.counted
  ended h := by cases h

theorem Sound.finishing {sink : Sink} {q : Poll Sink (Except IoError Unit)} (sound : m.Sound base)
    (step : k.finish m.sink q) (left : q.state = sink) : ({ m with sink } : Flow).Sound base where
  written := by
    have only := k.finish_only step
    rw [left] at only
    rw [only.written]
    exact sound.written
  counted := sound.counted
  ended := sound.ended

theorem Sound.reading {source : Source} {q : Poll Source (Except IoError Bytes)}
    (sound : m.Sound base)
    (stage : m.stage = .reading) (step : m.source.ReadStep k.loop relayBuffer q)
    (left : q.state = source)
    (nothing : ∀ bs s', q ≠ .ready (.ok bs) s') : ({ m with source } : Flow).Sound base where
  written := by
    have same := step.delivered_eq nothing
    rw [left] at same
    rw [same]
    exact sound.written
  counted := by
    have same := step.delivered_eq nothing
    rw [left] at same
    rw [same]
    exact sound.counted
  ended h := by rw [stage] at h; cases h

theorem Step.sound (h : Step k m p) (sound : m.Sound base) : p.state.Sound base := by
  cases h with
  | gets bs source stage _ read =>
    have new := read.delivered_ok
    have written := sound.written
    have counted := sound.counted
    simp only [stage, Stage.rest_reading, Stage.size_reading, List.append_nil] at written counted
    refine ⟨?_, ?_, fun h => by cases h⟩
    · simp only [Poll.state, Stage.rest_writing, written, new, List.append_assoc]
    · simp only [Poll.state, Stage.size_writing, new, List.length_append]
      omega
  | ends source stage read =>
    obtain ⟨concluded, rfl⟩ := read.events_nil relayBuffer_pos
    have written := sound.written
    have counted := sound.counted
    rw [stage] at written counted
    exact ⟨written, counted, fun _ => concluded⟩
  | skips source stage read => exact sound.reading stage read rfl (fun _ _ h => by cases h)
  | starves source alarm stage read => exact sound.reading stage read rfl (fun _ _ h => by cases h)
  | readFails e source stage read => exact sound.reading stage read rfl (fun _ _ h => by cases h)
  | readCrashes source stage read => exact sound.reading stage read rfl (fun _ _ h => by cases h)
  | takes rest rest' size sink stage write => exact sound.writing stage write rfl
  | passes rest rest' size sink stage write =>
    cases write.rest_nil
    have kept := sound.writing stage write rfl
    exact ⟨kept.written, kept.counted, fun h => by cases h⟩
  | stalls rest rest' size sink alarm stage write => exact sound.writing stage write rfl
  | writeFails e rest rest' size sink stage write => exact sound.writing stage write rfl
  | writeCrashes rest rest' size sink stage write => exact sound.writing stage write rfl
  | finishes sink stage finish => exact sound.finishing finish rfl
  | lingers sink alarm stage finish => exact sound.finishing finish rfl
  | finishFails e sink stage finish => exact sound.finishing finish rfl
  | finishCrashes sink stage finish => exact sound.finishing finish rfl

theorem Step.plan (h : Step k m p) : p.state.sink.plan = m.sink.plan := by
  cases h with
  | takes _ _ _ _ _ write | passes _ _ _ _ _ write | stalls _ _ _ _ _ _ write
  | writeFails _ _ _ _ _ _ write
  | writeCrashes _ _ _ _ _ write => exact write.onlyWrites.plan
  | finishes _ _ finish | lingers _ _ _ finish | finishFails _ _ _ finish
  | finishCrashes _ _ finish =>
    exact (k.finish_only finish).plan
  | _ => rfl

theorem Step.finished (h : Step k m p) (unfinished : ∀ m', p ≠ .ready none m') :
    k.finished p.state.sink = k.finished m.sink := by
  cases h with
  | takes _ _ _ _ _ write | passes _ _ _ _ _ write | stalls _ _ _ _ _ _ write
  | writeFails _ _ _ _ _ _ write
  | writeCrashes _ _ _ _ _ write => exact k.finished_write write.onlyWrites
  | finishes _ _ _ => exact absurd rfl (unfinished _)
  | lingers _ _ _ finish | finishFails _ _ _ finish | finishCrashes _ _ finish =>
    exact k.finish_not_ok finish (fun _ h => by cases h)
  | _ => rfl

theorem Step.ended_well (h : Step k m (.ready none m')) :
    m'.stage = .finishing ∧ m.stage = .finishing ∧ k.finished m'.sink = k.finished m.sink + 1 := by
  cases h with
  | finishes sink stage finish => exact ⟨stage, stage, k.finish_ok finish⟩

theorem Step.untold {e : RelayError} (h : Step k m (.ready (some e) m')) : e.told = none := by
  cases h with
  | readFails e _ _ _ => exact (k.untold e).1
  | writeFails e _ _ _ _ _ _ => exact (k.untold e).2
  | finishFails e _ _ _ => exact (k.untold e).2

/-- A relay and its result, as far as it is there: only a relay that ended well has finished its
sink. -/
structure Flows (k : Kind) (base : Bytes) (m : Flow) (result : Option RelayResult) : Prop where
  sound : m.Sound base
  bytes : ∀ v, result = some v → v.bytes = m.bytes
  well : ∀ v, result = some v → v.error = none → m.stage = .finishing ∧ 0 < k.finished m.sink
  unfinished : (∀ v, result = some v → v.error ≠ none) → k.finished m.sink = 0

theorem Flows.stopped {v : RelayResult} (flows : Flows k base m none) (bytes : v.bytes = m.bytes)
    (failed : v.error ≠ none) :
    Flows k base m (some v) where
  sound := flows.sound
  bytes w is := by cases is; exact bytes
  well w is ok := by cases is; exact absurd ok failed
  unfinished _ := flows.unfinished fun _ is => by cases is

theorem Step.goes_on (h : Step k m p) (flows : Flows k base m none)
    (ongoing : ∀ e m', p ≠ .ready e m') :
    Flows k base p.state none where
  sound := h.sound flows.sound
  bytes v is := by cases is
  well v is := by cases is
  unfinished _ := (h.finished (ongoing none)).trans (flows.unfinished fun _ is => by cases is)

theorem Step.comes_to_end {e : Option RelayError} {v : RelayResult} (h : Step k m (.ready e m'))
    (flows : Flows k base m none) (bytes : v.bytes = m'.bytes) (error : v.error = e) :
    Flows k base m' (some v) where
  sound := h.sound flows.sound
  bytes w is := by cases is; exact bytes
  well w is ok := by
    cases is
    cases error.symm.trans ok
    obtain ⟨stage, _, once⟩ := h.ended_well
    exact ⟨stage, by omega⟩
  unfinished failed := by
    refine (h.finished fun m'' is => ?_).trans (flows.unfinished fun _ is => by cases is)
    cases is
    exact failed v rfl error

/-- A relay that does not read what it wrote takes from its source what is there from the
beginning. -/
theorem Step.whole (h : Step k m p) (no_loop : k.loop = false) :
    p.state.source.delivered ++ p.state.source.delivers = m.source.delivered ++
      m.source.delivers := by
  cases h with
  | gets _ _ _ _ read | ends _ _ read | skips _ _ read | starves _ _ _ read | readFails _ _ _ read
  | readCrashes _ _ read =>
    rw [no_loop] at read
    exact read.whole
  | _ => rfl

theorem Step.errors (h : Step k m p) (no_loop : k.loop = false)
    (unfailing : ∀ e m', p ≠ .ready (some e) m') :
    p.state.source.errors = m.source.errors := by
  cases h with
  | gets _ _ _ _ read | ends _ _ read | skips _ _ read | starves _ _ _ read
  | readCrashes _ _ read =>
    rw [no_loop] at read
    exact read.errors (fun _ _ h => by cases h)
  | readFails _ _ _ _ => exact absurd rfl (unfailing _ _)
  | _ => rfl

theorem Step.calm (h : Step k m p) (source : m.source.Calm) (plan : m.sink.plan.Calm) :
    p.state.source.Calm ∧ ∀ m', p ≠ .crashed m' := by
  constructor
  · cases h with
    | gets _ _ _ _ read | ends _ _ read | skips _ _ read | starves _ _ _ read | readFails _ _ _ read
    | readCrashes _ _ read => exact (read.calm source).1
    | _ => exact source
  · intro m' crash
    subst crash
    cases h with
    | readCrashes s' _ read => exact (read.calm source).2 s' rfl
    | writeCrashes _ _ _ _ _ write =>
      cases write with
      | crashes crash => exact plan.write _ _ crash
    | finishCrashes _ _ finish => exact k.finish_crash finish plan

noncomputable def rank (m : Flow) : (ℕ ×ₗ ℕ) ×ₗ ℕ ×ₗ ℕ ×ₗ ℕ :=
  toLex (m.source.readRank, toLex (m.stage.order, Sink.writeRank (m.stage.rest, m.sink)))

theorem rank_lt_of_source {source : Source} {stage : Stage}
    (less : source.readRank < m.source.readRank) :
    ({ m with source, stage } : Flow).rank < m.rank := Prod.Lex.toLex_lt_toLex.2 (.inl less)

theorem rank_lt_of_order {sink : Sink} {stage : Stage} {bytes : Nat}
    (less : stage.order < m.stage.order) :
    ({ m with sink, stage, bytes } : Flow).rank < m.rank :=
  Prod.Lex.toLex_lt_toLex.2 (.inr ⟨rfl, Prod.Lex.toLex_lt_toLex.2 (.inl less)⟩)

theorem Step.lowers (h : Step k m p) (settles : m.sink.plan.Settles) : p.Lowers rank m := by
  cases h with
  | gets bs source stage some_octets read =>
    exact rank_lt_of_source (read.lowers_ok relayBuffer_pos some_octets)
  | ends source stage read =>
    obtain ⟨_, rfl⟩ := read.events_nil relayBuffer_pos
    exact rank_lt_of_order (by simp [stage, Stage.order])
  | skips source stage read => exact rank_lt_of_source read.lowers
  | starves source alarm stage read =>
    rcases lt_or_eq_of_le (show source.readRank ≤ m.source.readRank from read.lowers) with less |
      same
    · exact le_of_lt (rank_lt_of_source less)
    · exact Prod.Lex.toLex_le_toLex.2 (.inr ⟨same, le_rfl⟩)
  | takes rest rest' size sink stage write =>
    refine Prod.Lex.toLex_lt_toLex.2
      (.inr ⟨rfl, Prod.Lex.toLex_lt_toLex.2 (.inr ⟨by rw [stage]; rfl, ?_⟩)⟩)
    rw [stage]
    exact write.lowers settles
  | passes rest rest' size sink stage write => exact rank_lt_of_order (by simp [stage, Stage.order])
  | stalls rest rest' size sink alarm stage write =>
    refine Prod.Lex.toLex_le_toLex.2
      (.inr ⟨rfl, Prod.Lex.toLex_le_toLex.2 (.inr ⟨by rw [stage]; rfl, ?_⟩)⟩)
    rw [stage]
    exact write.lowers settles
  | lingers sink alarm stage finish =>
    have only := k.finish_only finish
    refine le_of_eq ?_
    simp only [Poll.state] at only
    rw [only]
    rfl
  | _ => trivial

end Flow
end PackRelay
