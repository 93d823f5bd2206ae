import PackRelay.Backend.Wired
import PackRelay.Exchange.Bridge
import PackRelay.Proofs.Clock.Run

/-! An exchange together with everything that decides how it goes: what its streams do, who
listens at the backend's place, when the request leaves, in which order the participants get their
turns, and between which of them the context's watcher gets one. -/
namespace PackRelay

namespace Exchange

variable {κ : Type} {turns : Turns} {gone : Option Nat} {now : Nat} {x x' : Exchange κ}

theorem act_of_look (found : x.look turns gone now = some x') : (beside gone).act now x = some x' := by
  simp only [look, Option.ite_none_right_eq_some] at found
  exact found.2

/-- What is next is what the watcher finds, or a step of the exchange. -/
theorem next_cases (b : Backend κ) (turns : Turns) (gone : Option Nat) (now : Nat) (x : Exchange κ) :
    (∃ x', (beside gone).act now x = some x' ∧ x.next b turns gone now = .more x') ∨
      x.next b turns gone now = x.poll b turns now := by
  cases found : x.look turns gone now with
  | some x' => exact .inl ⟨x', act_of_look found, by simp only [next, found]⟩
  | none => exact .inr (by simp only [next, found])

end Exchange

/-- What comes of a dial once its delay is over. A connection is new, and its peer does what is
written here. -/
inductive Listener
  | accepts (events : List ReadEvent) (plan : SinkPlan)
  | fails (e : IoError)
  | silent

def Listener.answer : Listener → DialAnswer
  | .accepts events plan => .connected ⟨.ofEvents events, { plan }⟩
  | .fails e => .failed e
  | .silent => .never

theorem Listener.answer_connected {l : Listener} {c : Connection} (h : l.answer = .connected c) :
    ∃ events plan, l = .accepts events plan ∧ c = ⟨.ofEvents events, { plan }⟩ := by
  cases l with
  | accepts events plan =>
    cases h
    exact ⟨events, plan, rfl, rfl⟩
  | fails e => cases h
  | silent => cases h

structure Scene where
  controller : DeadlineController
  /-- When the exchange begins. -/
  start : Nat
  /-- When the request that it serves goes away, if it does. -/
  gone : Option Nat
  /-- Who gets a turn in which order, each time, and whether the watcher gets one first. -/
  turns : Nat → Exchange WiredBackend → Turns
  descriptor : Descriptor
  patience : Duration
  repository : Repository
  gitProtocol : Option String
  gitConfigOptions : List String
  id : SidechannelId
  callDelay : Nat
  callListener : Listener
  channelDelay : Nat
  channelListener : Listener
  body : List ReadEvent
  response : SinkPlan

namespace Scene

def backend (s : Scene) : WiredBackend :=
  .ofRequest s.descriptor s.patience s.repository s.gitProtocol s.gitConfigOptions s.id
    ⟨s.callDelay, s.callListener.answer⟩ ⟨s.channelDelay, s.channelListener.answer⟩

def context (s : Scene) : Context := s.controller.begin s.start

def exchange (s : Scene) : Exchange WiredBackend :=
  .fresh s.context s.backend (.ofEvents s.body) { plan := s.response }

def poll (s : Scene) (now : Nat) (x : Exchange WiredBackend) :
    Poll (Exchange WiredBackend) Report :=
  x.poll WiredBackend.backend (s.turns now x) now

/-- What the watcher finds between two steps, if it gets a turn there. -/
def look (s : Scene) (now : Nat) (x : Exchange WiredBackend) : Option (Exchange WiredBackend) :=
  x.look (s.turns now x) s.gone now

def next (s : Scene) (now : Nat) (x : Exchange WiredBackend) :
    Poll (Exchange WiredBackend) Report :=
  x.next WiredBackend.backend (s.turns now x) s.gone now

def after (s : Scene) (steps : Nat) : Run (Exchange WiredBackend) Report :=
  s.exchange.handle WiredBackend.backend s.turns s.gone steps s.start

/-- Two octets for a backend that answers with three and then says that all is well. -/
def brief : Scene where
  controller := ⟨5000000⟩
  start := 0
  gone := none
  turns _ _ := .inOrder
  descriptor := ⟨"unix:///backend", none⟩
  patience := .ofSecs 1
  repository := ⟨"default", "a.git"⟩
  gitProtocol := none
  gitConfigOptions := []
  id := ⟨⟨List.replicate 32 ⟨0, by decide⟩, rfl⟩⟩
  callDelay := 0
  callListener := .accepts [.data ([0, 0, 0, 15] ++ "\x7b\"status\":\"ok\"\x7d".toUTF8.toList)] {}
  channelDelay := 0
  channelListener := .accepts [.data [1, 2, 3]] {}
  body := [.data [7, 8]]
  response := {}

/-- The same with a client that fails after its two octets. -/
def broken : Scene := { brief with body := [.data [7, 8], .error ⟨.connectionReset, "reset"⟩] }

/-- A bridge handles the exchange of a scene when everybody gets a turn as listed. -/
theorem handle_eq_after (s : Scene) (m : Metrics) :
    (Bridge.handle WiredBackend.backend s.backend (.ofEvents s.body) { plan := s.response } s.gone
      s.start
      ⟨s.controller, m⟩).1 = { s with turns := fun _ _ => .inOrder }.after Bridge.stepLimit := rfl

def Reaches (s : Scene) (now : Nat) (x : Exchange WiredBackend) :
    Prop := ∃ k, s.after k = .unfinished now x

/-- Where one turn of an exchange leads: the watcher finds something between two steps, or there is
a step, and the watcher may find something while everybody waits. -/
inductive Turn (s : Scene) : Nat → Exchange WiredBackend → Nat → Exchange WiredBackend → Prop
  | looks {now x x'} : s.look now x = some x' → Turn s now x now x'
  | more {now x x'} : s.look now x = none → s.poll now x = .more x' → Turn s now x now x'
  | acts {now x x₁ alarm x'} :
    s.look now x = none → s.poll now x = .waiting x₁ alarm →
      (Exchange.beside s.gone).act now x₁ = some x' → Turn s now x now x'
  | sleeps {now x x' alarm t} :
    s.look now x = none → s.poll now x = .waiting x' alarm →
      (Exchange.beside s.gone).act now x' = none →
      earlier alarm ((Exchange.beside s.gone).alarm now x') = some t →
      Turn s now x (max t (now + 1)) x'

variable {s : Scene} {k n now t : Nat} {x x' : Exchange WiredBackend}

theorem next_of_look (found : s.look now x = some x') : s.next now x = .more x' := by
  have found : x.look (s.turns now x) s.gone now = some x' := found
  rw [next, Exchange.next, found]

theorem next_of_unseen (unseen : s.look now x = none) : s.next now x = s.poll now x := by
  have unseen : x.look (s.turns now x) s.gone now = none := unseen
  rw [next, Exchange.next, unseen]
  rfl

/-- A step that makes no progress is no look of the watcher. -/
theorem poll_of_next {p : Poll (Exchange WiredBackend) Report} (step : s.next now x = p)
    (halts : ∀ y, p ≠ .more y) : s.look now x = none ∧ s.poll now x = p := by
  cases found : s.look now x with
  | some y => exact absurd (step.symm.trans (next_of_look found)) (halts y)
  | none => exact ⟨rfl, (next_of_unseen found).symm.trans step⟩

/-- What is found is a context that was cancelled, which it was not before. -/
theorem look_eq_some (found : s.look now x = some x') :
    ∃ ctx, x.ctx.watch (s.gone.map Interruption.requestGone) now = some ctx ∧ x' = { x with ctx } := by
  obtain ⟨ctx, seen, rfl⟩ := Option.map_eq_some_iff.1 (Exchange.act_of_look found)
  exact ⟨ctx, seen, rfl⟩

theorem turn_iff_goes {now' : Nat} :
    s.Turn now x now' x' ↔ Goes (Exchange.beside s.gone) s.next now x now' x' := by
  constructor
  · intro turn
    cases turn with
    | looks found => exact .more (next_of_look found)
    | more unseen step => exact .more ((next_of_unseen unseen).trans step)
    | acts unseen step act => exact .acts ((next_of_unseen unseen).trans step) act
    | sleeps unseen step idle due => exact .sleeps ((next_of_unseen unseen).trans step) idle due
  · intro goes
    cases found : s.look now x with
    | some y =>
      have looks := next_of_look found
      cases goes with
      | more step =>
        cases looks.symm.trans step
        exact .looks found
      | acts step _ | sleeps step _ _ => cases looks.symm.trans step
    | none =>
      have polls := next_of_unseen found
      cases goes with
      | more step => exact .more found (polls.symm.trans step)
      | acts step act => exact .acts found (polls.symm.trans step) act
      | sleeps step idle due => exact .sleeps found (polls.symm.trans step) idle due

theorem Turn.look_or_goes {now' : Nat} (turn : s.Turn now x now' x') :
    (now' = now ∧ s.look now x = some x') ∨ Goes (Exchange.beside s.gone) s.poll now x now' x' := by
  cases turn with
  | looks found => exact .inl ⟨rfl, found⟩
  | more _ step => exact .inr (.more step)
  | acts _ step act => exact .inr (.acts step act)
  | sleeps _ step idle due => exact .inr (.sleeps step idle due)

theorem Turn.le {now' : Nat} (turn : s.Turn now x now' x') : now ≤ now' := (turn_iff_goes.1 turn).le

def bare (s : Scene) (k : Nat) : Run (Exchange WiredBackend) Report :=
  run (Exchange.beside s.gone) s.next k s.start s.exchange

/-- A crash lets go of everything afterwards. -/
def settled : Run (Exchange WiredBackend) Report → Run (Exchange WiredBackend) Report
  | .crashed t x => .crashed t (x.release WiredBackend.backend)
  | r => r

theorem after_eq (s : Scene) (k : Nat) : s.after k = settled (s.bare k) := by
  unfold after Exchange.handle
  have same : run (Exchange.beside s.gone)
    (fun now x => x.next WiredBackend.backend (s.turns now x) s.gone now) k s.start
      s.exchange = s.bare k := rfl
  rw [same]
  cases s.bare k <;> rfl

theorem after_unfinished : s.after k = .unfinished t x ↔ s.bare k = .unfinished t x := by
  rw [after_eq]
  cases s.bare k <;> simp [settled]

theorem after_finished {a : Report} : s.after k = .finished t a x ↔ s.bare k = .finished t a x := by
  rw [after_eq]
  cases s.bare k <;> simp [settled]

theorem Reaches.turn (here : s.Reaches now x) (turn : s.Turn now x now' x') :
    s.Reaches now' x' := by
  obtain ⟨k, reached⟩ := here
  refine ⟨k + 1, after_unfinished.2 ?_⟩
  exact (run_add (after_unfinished.1 reached) 1).trans ((turn_iff_goes.1 turn).run_succ 0)

/-- A turn is a look after the context, or a step that was not the last one, and perhaps a look
after the context then. -/
theorem Turn.state {now' : Nat} (turn : s.Turn now x now' x') :
    (∃ ctx, x' = { x with ctx }) ∨ (∀ a y, s.poll now x ≠ .ready a y) ∧
      (x' = (s.poll now x).state ∨ ∃ ctx, x' = { (s.poll now x).state with ctx }) := by
  cases turn with
  | looks found =>
    obtain ⟨ctx, _, rfl⟩ := look_eq_some found
    exact .inl ⟨ctx, rfl⟩
  | more _ step =>
    rw [step]
    exact .inr ⟨fun _ _ is => (nomatch is), .inl rfl⟩
  | acts _ step act =>
    rw [step]
    obtain ⟨ctx, _, rfl⟩ := Option.map_eq_some_iff.1 act
    exact .inr ⟨fun _ _ is => (nomatch is), .inr ⟨ctx, rfl⟩⟩
  | sleeps _ step _ _ =>
    rw [step]
    exact .inr ⟨fun _ _ is => (nomatch is), .inl rfl⟩

/-- What an exchange is after its last step, taken from some moment. -/
inductive Ends (s : Scene) (t : Nat) (x : Exchange WiredBackend) :
    Run (Exchange WiredBackend) Report → Prop
  | finished {x' : Exchange WiredBackend} {a : Report} :
    s.poll t x = .ready a x' → Ends s t x (.finished t a x')
  | crashed {x' : Exchange WiredBackend} :
    s.poll t x = .crashed x' → Ends s t x (.crashed t (x'.release WiredBackend.backend))
  | stuck {x' : Exchange WiredBackend} {alarm : Option Nat} :
    s.poll t x = .waiting x' alarm → (Exchange.beside s.gone).act t x' = none →
      earlier alarm ((Exchange.beside s.gone).alarm t x') = none → Ends s t x (.stuck t x')

theorem Ends.of_last {r : Run (Exchange WiredBackend) Report}
    (last : Last (Exchange.beside s.gone) s.next t x r) :
    s.Ends t x (settled r) := by
  cases last with
  | finished step => exact .finished (poll_of_next step fun _ is => nomatch is).2
  | crashed step => exact .crashed (poll_of_next step fun _ is => nomatch is).2
  | stuck step idle due => exact .stuck (poll_of_next step fun _ is => nomatch is).2 idle due

/-- How far an exchange has come, by what holds of the moment that its last step was taken from. -/
inductive Comes (s : Scene) (I : Nat → Exchange WiredBackend → Prop) :
    Run (Exchange WiredBackend) Report → Prop
  | unfinished {t : Nat} {x : Exchange WiredBackend} : I t x → Comes s I (.unfinished t x)
  | concluded {t : Nat} {x : Exchange WiredBackend} {r : Run (Exchange WiredBackend) Report} :
    I t x → s.Ends t x r → Comes s I r

theorem comes_from {I : Nat → Exchange WiredBackend → Prop}
    (turn : ∀ now x now' x', I now x → s.Turn now x now' x' → I now' x')
    (here : s.after k = .unfinished t x)
    (start : I t x) (m : Nat) : s.Comes I (s.after (k + m)) := by
  rw [after_eq, bare, run_add (after_unfinished.1 here) m]
  have goes : ∀ now x now' x', I now x → Goes (Exchange.beside s.gone) s.next now x now' x' →
      I now' x' := fun now x now' x' here goes => turn now x now' x' here (turn_iff_goes.2 goes)
  by_cases done : ∀ t' x', run (Exchange.beside s.gone) s.next m t x ≠ .unfinished t' x'
  · obtain ⟨j, t, x, reached, last⟩ := run_last rfl done
    exact .concluded (run_keeps goes start reached) (.of_last last)
  · push Not at done
    obtain ⟨t', x', ran⟩ := done
    rw [ran]
    exact .unfinished (run_keeps goes start ran)

theorem comes (s : Scene) (n : Nat) : s.Comes s.Reaches (s.after n) := by
  have there := comes_from (I := s.Reaches) (k := 0)
    (fun _ _ _ _ here turn => here.turn turn) rfl ⟨0, rfl⟩ n
  rwa [Nat.zero_add] at there

theorem keeps {I : Nat → Exchange WiredBackend → Prop}
    (turn : ∀ now x now' x', I now x → s.Turn now x now' x' → I now' x')
    (start : I s.start s.exchange) (reached : s.Reaches t x) : I t x := by
  obtain ⟨k, there⟩ := reached
  exact run_keeps (fun now x now' x' here goes => turn now x now' x' here (turn_iff_goes.2 goes))
    start (after_unfinished.1 there)

/-- The last step of all, which is no look of the watcher. -/
theorem last_step {a : Report} (concluded : s.after n = .finished t a x') :
    ∃ k x, s.after k = .unfinished t x ∧ s.look t x = none ∧ s.poll t x = .ready a x' := by
  obtain ⟨k, t, x, reached, last⟩ := run_last (after_finished.1 concluded) fun _ _ is => nomatch is
  cases last with
  | finished step =>
    exact ⟨k, x, after_unfinished.2 reached, poll_of_next step fun _ is => nomatch is⟩

theorem ended {a : Report} (concluded : s.after n = .finished t a x') :
    ∃ x, s.Reaches t x ∧ s.poll t x = .ready a x' := by
  obtain ⟨k, x, here, _, step⟩ := last_step concluded
  exact ⟨x, ⟨k, here⟩, step⟩

theorem after_over (done : ∀ t x, s.after k ≠ .unfinished t x) (m : Nat) :
    s.after (k + m) = s.after k := by
  have concluded : s.bare (k + m) = s.bare k :=
    run_over rfl (fun t x is => done t x (after_unfinished.2 is)) m
  rw [after_eq, after_eq, concluded]

theorem time_mono (s : Scene) {m : Nat} (le : n ≤ m) : (s.after n).time ≤ (s.after m).time := by
  obtain ⟨d, rfl⟩ := Nat.exists_eq_add_of_le le
  by_cases halted : ∀ t x, s.after n ≠ .unfinished t x
  · rw [after_over halted d]
  · push Not at halted
    obtain ⟨t, x, here⟩ := halted
    have came := comes_from (I := fun u _ => t ≤ u) (fun _ _ _ _ late turn => le_trans late turn.le)
      here le_rfl d
    rw [here]
    generalize s.after (n + d) = r at came
    cases came with
    | unfinished late => exact late
    | concluded late ends => cases ends <;> exact late

theorem after_unique {m : Nat} (concluded : ∀ t x, s.after k ≠ .unfinished t x)
    (done : ∀ t x, s.after m ≠ .unfinished t x) :
    s.after k = s.after m := by
  rcases Nat.le_total k m with le | le
  · obtain ⟨j, rfl⟩ := Nat.exists_eq_add_of_le le
    exact (after_over concluded j).symm
  · obtain ⟨j, rfl⟩ := Nat.exists_eq_add_of_le le
    exact after_over done j

theorem after_succ (here : s.after k = .unfinished t x) :
    (∃ now' x', s.Turn t x now' x' ∧ s.after (k + 1) = .unfinished now' x') ∨
    s.Ends t x (s.after (k + 1)) := by
  rw [after_eq, bare, run_add (after_unfinished.1 here) 1]
  rcases run_succ_cases (Exchange.beside s.gone) s.next 0 t x with
    ⟨now', x', goes⟩ | ⟨a, x', step, ran⟩ | ⟨x', step, ran⟩ | ⟨x', alarm, step, idle, due, ran⟩
  · refine .inl ⟨now', x', turn_iff_goes.2 goes, ?_⟩
    rw [goes.run_succ]
    rfl
  · rw [ran]
    exact .inr (.of_last (.finished step))
  · rw [ran]
    exact .inr (.of_last (.crashed step))
  · rw [ran]
    exact .inr (.of_last (.stuck step idle due))

theorem after_look (here : s.after k = .unfinished t x) (found : s.look t x = some x') :
    s.after (k + 1) = .unfinished t x' := by
  refine after_unfinished.2 ((run_add (after_unfinished.1 here) 1).trans ?_)
  simp only [run, next_of_look found]

theorem after_more (here : s.after k = .unfinished t x) (unseen : s.look t x = none)
    (step : s.poll t x = .more x') :
    s.after (k + 1) = .unfinished t x' := by
  refine after_unfinished.2 ((run_add (after_unfinished.1 here) 1).trans ?_)
  simp only [run, next_of_unseen unseen, step]

theorem after_ready {a : Report} (here : s.after k = .unfinished t x) (unseen : s.look t x = none)
    (step : s.poll t x = .ready a x') :
    s.after (k + 1) = .finished t a x' := by
  refine after_finished.2 ((run_add (after_unfinished.1 here) 1).trans ?_)
  simp only [run, next_of_unseen unseen, step]

end Scene
end PackRelay
