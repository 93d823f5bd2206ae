import PackRelay.Proofs.Exchange.Release
import PackRelay.Proofs.Exchange.Settled
import Mathlib.Algebra.GroupWithZero.Nat
import Mathlib.Data.List.ReduceOption

/-! What is counted of exchanges one after another. Each one that returned is counted once, under the
outcome that its caller got, with the octets that it reported; one that crashed or did not come to an
end is not counted at all. -/
namespace PackRelay

/-- What the metrics have gained by some reports; none stands for an exchange that did not return. -/
structure Metrics.Gains (reports : List (Option Report)) (m m' : Metrics) : Prop where
  requests : ∀ kind, m'.requests kind =
    m.requests kind + (reports.reduceOption.map Report.kind).count kind
  total : m'.total = m.total + reports.reduceOption.length
  bytesIn : m'.bytesIn = m.bytesIn + (reports.reduceOption.map Report.bytesIn).sum
  bytesOut : m'.bytesOut = m.bytesOut + (reports.reduceOption.map Report.bytesOut).sum

namespace Metrics

variable {m m' m'' : Metrics} {reports : List (Option Report)}

theorem total_eq_sum (m : Metrics) : m.total = (kinds.map m.requests).sum := by
  simp [total, List.sum, List.foldr_map]

/-- Every kind of outcome is counted once in the total. -/
theorem sum_count (ks : List OutcomeKind) : (kinds.map fun k => ks.count k).sum = ks.length := by
  induction ks with
  | nil => rfl
  | cons k ks ih => cases k <;> simp [kinds, List.count_cons] at ih ⊢ <;> omega

theorem Gains.of_requests (requests : ∀ kind, m'.requests kind =
    m.requests kind + (reports.reduceOption.map Report.kind).count kind)
    (bytesIn : m'.bytesIn = m.bytesIn + (reports.reduceOption.map Report.bytesIn).sum)
    (bytesOut : m'.bytesOut = m.bytesOut + (reports.reduceOption.map Report.bytesOut).sum) :
    Gains reports m m' := by
  refine ⟨requests, ?_, bytesIn, bytesOut⟩
  have each := sum_count (reports.reduceOption.map Report.kind)
  rw [List.length_map] at each
  rw [total_eq_sum, total_eq_sum, ← each, ← List.sum_map_add]
  exact congrArg List.sum (List.map_congr_left fun kind _ => requests kind)

theorem gains_nil (m : Metrics) : Gains [] m m := ⟨fun _ => rfl, rfl, rfl, rfl⟩

theorem Gains.skip (gains : Gains reports m m') : Gains (none :: reports) m m' :=
  ⟨gains.requests, gains.total, gains.bytesIn, gains.bytesOut⟩

theorem Gains.record {report : Report}
    (gains : Gains reports (m.record report.kind report.bytesIn report.bytesOut) m') :
    Gains (some report :: reports) m m' := by
  refine .of_requests (fun kind => ?_) ?_ ?_
  · rw [gains.requests, List.reduceOption_cons_of_some, List.map_cons, List.count_cons]
    simp only [Metrics.record, beq_iff_eq, eq_comm (a := kind)]
    split <;> omega
  · rw [gains.bytesIn, List.reduceOption_cons_of_some, List.map_cons, List.sum_cons]
    exact Nat.add_assoc ..
  · rw [gains.bytesOut, List.reduceOption_cons_of_some, List.map_cons, List.sum_cons]
    exact Nat.add_assoc ..

end Metrics

namespace Bridge

/-- An exchange that a bridge is asked to handle, with the turns and the steps that it gets. -/
structure Call where
  State : Type
  backend : Backend State
  state : State
  body : Source
  response : Sink
  gone : Option Nat
  turns : Nat → Exchange State → Turns
  steps : Nat
  start : Nat

def Call.run (call : Call) (d : DeadlineController) : Run (Exchange call.State) Report :=
  (Exchange.fresh (d.begin call.start) call.state call.body call.response).handle call.backend
    call.turns call.gone call.steps call.start

inductive Command
  | setTimeout (micros : Nat)
  | handle (call : Call)

/-- What a bridge does on a command, with the report that the caller gets. -/
def perform : Command → Bridge → Option Report × Bridge
  | .setTimeout micros, b => (none, b.setTimeout micros)
  | .handle call, b => ((call.run b.controller).value?, b.count (call.run b.controller))

def follow : List Command → Bridge → List (Option Report) × Bridge
  | [], b => ([], b)
  | c :: rest, b =>
    let (report, b) := b.perform c
    let (reports, b) := follow rest b
    (report :: reports, b)

/-- What `handle` does is such a command. -/
theorem handle_eq_perform {κ : Type} (backend : Backend κ) (k : κ) (body : Source) (response : Sink)
    (gone : Option Nat) (now : Nat) (b : Bridge) :
    b.perform (.handle ⟨κ, backend, k, body, response, gone, fun _ _ => .inOrder, stepLimit, now⟩) =
      ((b.handle backend k body response gone now).1.value?,
        (b.handle backend k body response gone now).2) := by
  simp only [perform, handle, Call.run]

variable {b : Bridge} {m : Metrics} {reports : List (Option Report)}

theorem gains_perform (c : Command)
    (rest : Metrics.Gains reports (b.perform c).2.metrics m) :
    Metrics.Gains ((b.perform c).1 :: reports) b.metrics m := by
  cases c with
  | setTimeout micros => exact rest.skip
  | handle call =>
    simp only [perform, count] at rest ⊢
    cases returned : (call.run b.controller).value? with
    | none =>
      rw [returned] at rest
      exact rest.skip
    | some report =>
      rw [returned] at rest
      exact rest.record

theorem gains_follow (commands : List Command) (b : Bridge) :
    Metrics.Gains (b.follow commands).1 b.metrics (b.follow commands).2.metrics := by
  induction commands generalizing b with
  | nil => exact Metrics.gains_nil b.metrics
  | cons c rest ih => exact gains_perform c (ih (b.perform c).2)

end Bridge

namespace WiredBackend

/-- The sidechannel is being opened at a destination, and what was sent of its hello belongs there. -/
def Dials (d : Destination) (b : WiredBackend) : Prop :=
  b.channelDestination = d ∧ ∀ o, b.channel = .opening o → o.Sound d

variable {b : WiredBackend} {d : Destination}

theorem Dials.of_channel {b' : WiredBackend} (dials : b.Dials d)
    (destination : b'.channelDestination = b.channelDestination) (channel : b'.channel = b.channel) :
    b'.Dials d :=
  ⟨destination.trans dials.1, channel ▸ dials.2⟩

theorem Dials.start (dials : b.Dials d) (now : Nat) (ctx : Context) :
    (pollStart now (ctx, b)).state.2.Dials d := by
  simp only [pollStart]
  cases b.call with
  | opening o =>
    simp only
    cases o.poll b.callDestination now ctx with
    | ready v q => cases v <;> exact dials.of_channel rfl rfl
    | _ => exact dials.of_channel rfl rfl
  | _ => exact dials

theorem Dials.opening {o : Opening} (dials : b.Dials d) (opens : o.Sound d) (now : Nat)
    (ctx : Context) :
    (pollOpening now o ctx b).state.2.Dials d ∧
      ∀ c q, pollOpening now o ctx b = .ready (.ok c) q → Opening.Greeted d c.connection := by
  have step := o.poll_step b.channelDestination now ctx
  rw [dials.1] at step
  simp only [pollOpening, dials.1]
  generalize o.poll d now ctx = p at step ⊢
  have going : ∀ q : Context × Opening, q.2.Sound d →
      ((b.noting o q.2).withChannel (.opening q.2)).Dials d := by
    refine fun q kept => ⟨dials.1, ?_⟩
    rintro _ ⟨⟩
    exact kept
  have kept := step.sound opens
  cases p with
  | ready v q =>
    cases v with
    | error e => exact ⟨⟨dials.1, fun _ is => by cases is⟩, fun _ _ is => by cases is⟩
    | ok k =>
      refine ⟨⟨dials.1, fun _ is => by cases is⟩, ?_⟩
      rintro _ _ ⟨⟩
      exact step.greeted opens
  | more q | waiting q alarm | crashed q =>
    exact ⟨going q (kept fun _ _ is => by cases is), fun _ _ is => by cases is⟩

theorem Dials.dial (dials : b.Dials d) (now : Nat) (ctx : Context) :
    (pollDial now (ctx, b)).state.2.Dials d ∧
      ∀ c q, pollDial now (ctx, b) = .ready (.ok c) q → Opening.Greeted d c.connection := by
  cases channel : b.channel with
  | opening o =>
    rcases Exchange.pollDial_cases channel now ctx with same | ⟨r, ctx', _, _, _, same⟩ <;> rw [same]
    · exact dials.opening (dials.2 o channel) now ctx
    · exact ⟨⟨dials.1, fun _ is => by cases is⟩, fun _ _ is => by cases is⟩
  | _ =>
    simp only [pollDial, channel]
    exact ⟨dials, fun _ _ is => by cases is⟩

theorem Dials.reply (dials : b.Dials d) (now : Nat) : (pollReply now b).state.Dials d := by
  unfold pollReply
  split
  · cases Wire.Reading.poll Wire.CallReply.decode now _ _ <;> exact dials.of_channel rfl rfl
  · exact dials

theorem Dials.release (dials : b.Dials d) : b.release.Dials d := by
  refine ⟨dials.1, fun o is => ?_⟩
  cases channel : b.channel <;> simp [WiredBackend.release, withChannel, withCall, channel,
    ChannelLine.drop] at is

/-- A backend on the wire hands out sidechannels that were greeted. -/
theorem hands (d : Destination) :
    backend.Hands (Dials d) fun c => Opening.Greeted d c.connection where
  start now p dials := dials.start now p.1
  dial now p dials := (dials.dial now p.1).1
  opened now p c q dials := (dials.dial now p.1).2 c q
  reply now _ dials := dials.reply now
  release _ dials := dials.release

end WiredBackend

namespace Scene

open WiredBackend renaming backend → wired

/-- Nothing but the hello was written to the sidechannel so far. -/
def OnlyGreeted (s : Scene) (c : Sidechannel) : Prop :=
  Wire.frame (Wire.Hello.sidechannel s.id).encode = .ok c.connection.sink.written

theorem hands (s : Scene) : wired.Hands (WiredBackend.Dials s.backend.channelDestination)
    s.OnlyGreeted := by
  have hands := WiredBackend.hands s.backend.channelDestination
  exact { hands with
    opened := fun now p c q dials handed =>
      (greeted_written (l := s.channelListener) rfl (hands.opened now p c q dials handed)).1 }

theorem dials (s : Scene) : s.backend.Dials s.backend.channelDestination :=
  ⟨rfl, by rintro _ ⟨⟩; trivial⟩

/-- A scene as a call of a bridge. -/
def call (s : Scene) (steps : Nat) : Bridge.Call :=
  ⟨WiredBackend, wired, s.backend, .ofEvents s.body, { plan := s.response }, s.gone, s.turns, steps,
    s.start⟩

end Scene

namespace Bridge

open Exchange

/-- Every exchange that returned is counted once, under the outcome that its caller got, and one that
did not return is not counted. The octets counted are those of its relays: none if it failed before
it relayed, those of its summary if it went well, and never more than its sidechannel accepted behind
the hello or than its response accepted. -/
theorem counts_each_once :
    Function.Injective OutcomeKind.text ∧
    (∀ (commands : List Command) (b : Bridge),
      Metrics.Gains (b.follow commands).1 b.metrics (b.follow commands).2.metrics) ∧
    (∀ (call : Call) (inv : call.State → Prop) (opened : Sidechannel → Prop),
      call.backend.Hands inv opened → inv call.state → ∀ d t report x,
        call.run d = .finished t report x → Settles opened call.response.written report x) ∧
    (∀ (s : Scene) n t report x, s.after n = .finished t report x →
      Settles s.OnlyGreeted [] report x) ∧
    ∀ (κ : Type) (backend : Backend κ) k body response gone now (b : Bridge),
      b.perform (.handle ⟨κ, backend, k, body, response, gone, fun _ _ => .inOrder, stepLimit, now⟩) =
        ((b.handle backend k body response gone now).1.value?,
          (b.handle backend k body response gone now).2) := by
  refine ⟨?_, fun commands b => b.gains_follow commands, ?_, ?_, ?_⟩
  · intro k k' same
    cases k <;> cases k' <;> first | rfl | simp [OutcomeKind.text] at same
  · intro call inv opened hands here d t report x concluded
    exact handle_settles hands (audited_fresh _ here _ _) concluded
  · intro s n t report x concluded
    have fresh : Audited _ s.OnlyGreeted [] s.exchange :=
      audited_fresh s.context s.dials (.ofEvents s.body) { plan := s.response }
    exact handle_settles s.hands fresh concluded
  · exact fun _ => handle_eq_perform

/-- Nobody answers where the call is dialed. -/
def refused : Scene := { Scene.brief with callListener := .fails ⟨.connectionRefused, "refused"⟩ }

/-- One exchange goes well, one fails for its client, one crashes, and one is refused. -/
def mixed : List Command :=
  [.handle (Scene.brief.call 40), .setTimeout 3000000, .handle (Scene.broken.call 40),
    .handle (Scene.crashing.call 40), .handle (refused.call 40)]

theorem counts_each_once_mixed :
    (follow mixed ⟨⟨5000000⟩, {}⟩).1.map (·.map Report.kind) =
      [some .success, none, some .clientAborted, none, some .transportError] ∧
    Metrics.Gains (follow mixed ⟨⟨5000000⟩, {}⟩).1 {} (follow mixed ⟨⟨5000000⟩, {}⟩).2.metrics ∧
    ∃ t report x, (Scene.broken.call 40).run ⟨3000000⟩ = .finished t report x ∧
      report.bytesIn = 2 ∧ Settles Scene.broken.OnlyGreeted [] report x := by
  have facts : (follow mixed ⟨⟨5000000⟩, {}⟩).1.map (·.map Report.kind) =
      [some .success, none, some .clientAborted, none, some .transportError] ∧
      (((Scene.broken.call 40).run ⟨3000000⟩).value?.map Report.bytesIn) = some 2 := by
    decide +kernel
  obtain ⟨_, gains, settles, _⟩ := counts_each_once
  obtain ⟨kinds, told⟩ := facts
  refine ⟨kinds, gains mixed ⟨⟨5000000⟩, {}⟩, ?_⟩
  obtain ⟨report, returned, two⟩ := Option.map_eq_some_iff.1 told
  cases ran : (Scene.broken.call 40).run ⟨3000000⟩ with
  | finished t a x =>
    rw [ran] at returned
    cases returned
    exact ⟨t, report, x, rfl, two, settles (Scene.broken.call 40) _ _ Scene.broken.hands
      Scene.broken.dials ⟨3000000⟩ t report x ran⟩
  | _ =>
    rw [ran] at returned
    cases returned

end Bridge
end PackRelay
