import PackRelay.Proofs.Clock.Poll
import PackRelay.Stream.Connection
import Mathlib.Data.Prod.Lex

/-! What one step of reading can do to a source. Reading takes octets in order and loses none; it
gets to the end only past all events. -/
namespace PackRelay

namespace ReadEvent

def weight : ReadEvent → Nat
  | .data bs => bs.length + 1
  | _ => 1

def isEcho : ReadEvent → Bool
  | .echo _ _ => true
  | _ => false

def isError : ReadEvent → Bool
  | .error _ => true
  | _ => false

@[simp] theorem isEcho_data (bs : Bytes) : (ReadEvent.data bs).isEcho = false := rfl

theorem weight_pos (e : ReadEvent) : 0 < e.weight := by cases e <;> simp [weight]

end ReadEvent

namespace Source

variable {loop : Bool} {room : Nat} {bs : Bytes} {s s' : Source}
    {p : Poll Source (Except IoError Bytes)}

@[simp] theorem delivered_skip (s : Source) : s.skip.delivered = s.delivered := rfl

@[simp] theorem delivered_read (s : Source) (room : Nat) (bs : Bytes) :
    (s.read room bs).delivered = s.delivered ++ bs.take room := by
  simp only [read, delivered]
  split <;> simp [skip, push]

/-- All that one step of reading can do. What was written comes back only with a `loop`. -/
inductive ReadStep (loop : Bool) (room : Nat) (s : Source) :
    Poll Source (Except IoError Bytes) → Prop
  | ends : s.events = [] → ReadStep loop room s (.ready (.ok []) s)
  | gives (b : UInt8) (bs : Bytes) (rest : List ReadEvent) :
    s.events = .data (b :: bs) :: rest →
      ReadStep loop room s (.ready (.ok ((b :: bs).take room)) (s.read room (b :: bs)))
  | skips (e : ReadEvent) (rest : List ReadEvent) :
    s.events = e :: rest → (∀ bs, e = .data bs → bs = []) → e.isError = false →
      ReadStep loop room s (.more s.skip)
  | echoes (bs : Bytes) (e : ReadEvent) (rest : List ReadEvent) :
    loop = true → s.events = e :: rest → e.isEcho = true →
      ReadStep loop room s (.more (s.skip.push bs))
  | fails (e : IoError) (rest : List ReadEvent) :
    s.events = .error e :: rest → ReadStep loop room s (.ready (.error e) s.skip)
  | waits (wake alarm : Option Nat) : ReadStep loop room s (.waiting { s with wake } alarm)
  | crashes : .crash ∈ s.events → ReadStep loop room s (.crashed s)

theorem poll_step (loop : Bool) (now room : Nat) (s : Source) :
    ReadStep loop room s (s.poll now room) := by
  unfold poll
  cases events : s.events with
  | nil => exact .ends events
  | cons e rest =>
    cases e with
    | data bs =>
      cases bs with
      | nil => exact .skips _ rest events (fun bs h => by cases h; rfl) rfl
      | cons b bs => exact .gives b bs rest events
    | delay ms =>
      simp only
      cases pause now ms s.wake with
      | none => exact .skips _ rest events (fun bs h => by cases h) rfl
      | some t =>
        rw [← events]
        exact .waits (some t) (some t)
    | echo skip stop => exact .skips _ rest events (fun bs h => by cases h) rfl
    | error e => exact .fails e rest events
    | crash => exact .crashes (events ▸ List.mem_cons_self)
    | hang => exact .waits s.wake none
    | awaitShutdown => exact .waits s.wake none
    | awaitWritten count => exact .waits s.wake none

theorem ReadStep.delivered_ok (h : ReadStep loop room s (.ready (.ok bs) s')) :
    s'.delivered = s.delivered ++ bs := by
  cases h with
  | ends _ => simp
  | gives b bs rest _ => simp

theorem ReadStep.delivered_eq (h : ReadStep loop room s p)
    (nothing : ∀ bs s', p ≠ .ready (.ok bs) s') :
    p.state.delivered = s.delivered := by
  cases h with
  | gives b bs rest _ => exact absurd rfl (nothing _ _)
  | _ => rfl

theorem ReadStep.length_le (h : ReadStep loop room s (.ready (.ok bs) s')) : bs.length ≤ room := by
  cases h with
  | ends _ => exact Nat.zero_le room
  | gives b bs rest _ => exact List.length_take_le room _

/-- The end is behind the last event. -/
theorem ReadStep.events_nil (some_room : 0 < room) (h : ReadStep loop room s (.ready (.ok []) s')) :
    s.events = [] ∧ s' = s := by
  generalize got : ([] : Bytes) = bs at h
  cases h with
  | ends h => exact ⟨h, rfl⟩
  | gives b bs rest h =>
    cases room with
    | zero => cases some_room
    | succ room => cases got

def errors (s : Source) : List ReadEvent := s.events.filter ReadEvent.isError

theorem delivers_cons {e : ReadEvent} {rest : List ReadEvent} (events : s.events = e :: rest) :
    s.delivers = (match e with | .data bs => bs | _ => []) ++ s.skip.delivers := by
  simp only [delivers, skip, events, List.flatMap_cons, List.drop_succ_cons, List.drop_zero]
  cases e <;> rfl

theorem delivers_read (s : Source) (room : Nat) (bs : Bytes) :
    (s.read room bs).delivers = bs.drop room ++ s.skip.delivers := by
  simp only [read, delivers]
  split
  · simp [List.drop_eq_nil_of_le, *]
  · simp [push]

theorem errors_cons {e : ReadEvent} {rest : List ReadEvent} (events : s.events = e :: rest)
    (harmless : e.isError = false) : s.skip.errors = s.errors := by
  simp [errors, skip, events, harmless]

theorem errors_read (s : Source) (room : Nat) (bs : Bytes) :
    (s.read room bs).errors = s.skip.errors := by
  simp only [read, errors]
  split <;> simp [push, ReadEvent.isError]

theorem ReadStep.whole (h : ReadStep false room s p) :
    p.state.delivered ++ p.state.delivers = s.delivered ++ s.delivers := by
  cases h with
  | gives b bs rest h =>
    simp only [Poll.state, delivered_read, delivers_read, delivers_cons h, List.append_assoc]
    rw [← List.append_assoc (List.take room _), List.take_append_drop]
  | skips e rest h empty _ =>
    simp only [Poll.state, delivered_skip, delivers_cons h]
    cases e with
    | data bs => simp [empty bs rfl]
    | _ => rfl
  | echoes bs e rest looped _ _ => cases looped
  | fails e rest h =>
    simp only [Poll.state, delivered_skip, delivers_cons h]
    rfl
  | _ => rfl

theorem ReadStep.errors (h : ReadStep false room s p)
    (unfailing : ∀ e s', p ≠ .ready (.error e) s') :
    p.state.errors = s.errors := by
  cases h with
  | gives b bs rest h => exact (errors_read s room _).trans (errors_cons h rfl)
  | skips e rest h _ harmless => exact errors_cons h harmless
  | echoes bs e rest looped _ _ => cases looped
  | fails e rest h => exact absurd rfl (unfailing _ _)
  | _ => rfl

def Calm (s : Source) : Prop := .crash ∉ s.events

theorem Calm.skip (calm : s.Calm) : s.skip.Calm := fun h => calm (List.mem_of_mem_drop h)

theorem Calm.push (calm : s.Calm) (bs : Bytes) : (s.push bs).Calm := by
  simpa [Calm, Source.push] using calm

theorem ReadStep.calm (h : ReadStep loop room s p) (calm : s.Calm) :
    p.state.Calm ∧ ∀ s', p ≠ .crashed s' := by
  constructor
  · cases h with
    | ends _ => exact calm
    | gives b bs rest _ =>
      simp only [Poll.state, read, Calm]
      split
      · exact calm.skip
      · exact calm.skip.push _
    | skips e rest _ _ _ => exact calm.skip
    | echoes bs e rest _ _ _ => exact calm.skip.push bs
    | fails e rest _ => exact calm.skip
    | waits wake alarm => exact calm
    | crashes _ => exact calm
  · intro s' crash
    subst crash
    cases h with
    | crashes crash => exact calm crash

/-- How much reading is still to be done: what is going to come back is not known yet, so it counts
before everything else. -/
def readRank (s : Source) : ℕ ×ₗ ℕ :=
    toLex (s.events.countP ReadEvent.isEcho, s.events.foldr (ReadEvent.weight · + ·) 0)

theorem readRank_skip {e : ReadEvent} {rest : List ReadEvent} (events : s.events = e :: rest) :
    s.skip.readRank < s.readRank := by
  simp only [readRank, skip, events, List.drop_succ_cons, List.drop_zero, List.countP_cons,
    List.foldr_cons, Prod.Lex.toLex_lt_toLex]
  cases e.isEcho <;> simp [e.weight_pos]

theorem readRank_echo {e : ReadEvent} {rest : List ReadEvent} (events : s.events = e :: rest)
    (echo : e.isEcho = true) : (s.skip.push bs).readRank < s.readRank := by
  simp [readRank, push, skip, events, Prod.Lex.toLex_lt_toLex, echo]

theorem readRank_read {b : UInt8} {rest : List ReadEvent} (some_room : 0 < room)
    (events : s.events = .data (b :: bs) :: rest) :
    (s.read room (b :: bs)).readRank < s.readRank := by
  unfold read
  split
  · exact readRank_skip events
  · refine Prod.Lex.toLex_lt_toLex.2 (.inr ⟨?_, ?_⟩)
    · simp [push, skip, events]
    · simp only [push, skip, events, List.drop_succ_cons, List.drop_zero, List.foldr_cons,
        ReadEvent.weight, List.length_drop]
      omega

theorem ReadStep.lowers (h : ReadStep loop room s p) : p.Lowers readRank s := by
  cases h with
  | skips e rest h _ _ => exact readRank_skip h
  | echoes bs e rest _ h echo => exact readRank_echo h echo
  | waits wake alarm => exact le_refl s.readRank
  | _ => trivial

theorem ReadStep.lowers_ok (some_room : 0 < room) (some_octets : bs ≠ [])
    (h : ReadStep loop room s (.ready (.ok bs) s')) : s'.readRank < s.readRank := by
  cases h with
  | ends _ => exact absurd rfl some_octets
  | gives b bs rest h => exact readRank_read some_room h

theorem ReadStep.lowers_error {e : IoError} (h : ReadStep loop room s (.ready (.error e) s')) :
    s'.readRank < s.readRank := by
  cases h with
  | fails e rest h => exact readRank_skip h

end Source

namespace Connection

theorem pollRead_step (now room : Nat) (c : Connection) :
    ∃ p, c.source.ReadStep true room p ∧ c.pollRead now room = p.within c.setSource := by
  unfold pollRead
  split
  · rename_i rest events
    split
    · exact ⟨.more c.source.skip, .skips _ rest events (fun bs h => by cases h) rfl, rfl⟩
    · exact ⟨.waiting c.source none, .waits c.source.wake none, rfl⟩
  · rename_i count rest events
    split
    · exact ⟨.more c.source.skip, .skips _ rest events (fun bs h => by cases h) rfl, rfl⟩
    · exact ⟨.waiting c.source none, .waits c.source.wake none, rfl⟩
  · rename_i skip stop rest events
    exact ⟨.more _, .echoes (c.echoed skip stop) _ rest rfl events rfl, rfl⟩
  · exact ⟨_, c.source.poll_step true now room, rfl⟩

end Connection
end PackRelay
