import PackRelay.Proofs.Exchange.Silence

/-! How time passes in an exchange. Until it is cancelled its deadline is ahead of it; from then
on time stands still, except while closing waits for the peer, and that ends at a limit of its
own. -/
namespace PackRelay

def Exchange.closeLimit? (x : Exchange WiredBackend) :
    Option Nat := x.channel.bind Sidechannel.closeLimit

/-- The sidechannel was not given up later than `since`, and closing waits no longer than it may
from then on. -/
structure Exchange.Prompt (since now : Nat) (x : Exchange WiredBackend) : Prop where
  held : x.closeLimit? = none → now ≤ since
  limited : ∀ limit, x.closeLimit? = some limit → now ≤ limit ∧
    limit ≤ since + Sidechannel.closePatience

namespace Exchange

open WiredBackend renaming backend → wired

variable {x x' : Exchange WiredBackend} {now since later : Nat}

theorem Prompt.mono (prompt : Prompt since now x) (le : since ≤ later) : Prompt later now x where
  held none_yet := le_trans (prompt.held none_yet) le
  limited limit is := by
    have limited := prompt.limited limit is
    omega

theorem Prompt.le (prompt : Prompt since now x) : now ≤ since + Sidechannel.closePatience := by
  cases limited : x.closeLimit? with
  | none => exact le_trans (prompt.held limited) (Nat.le_add_right _ _)
  | some limit => exact le_trans (prompt.limited limit limited).1 (prompt.limited limit limited).2

theorem ctx_waiting {p : Participant} {alarm : Option Nat}
    (waits : pollParticipant wired now p x = .waiting x' alarm) :
    x'.ctx = x.ctx := by
  cases p with
  | inbound =>
    simp only [pollParticipant, onChannel, pollInbound] at waits
    split at waits
    · split at waits
      · cases waits
      · simp only [Poll.into] at waits
        split at waits <;> cases waits
        rfl
    · cases waits
  | outbound =>
    simp only [pollParticipant, onChannel, pollOutbound] at waits
    split at waits
    · split at waits
      · cases waits
      · simp only [Poll.into] at waits
        split at waits <;> cases waits
        rfl
    · cases waits
  | reply =>
    simp only [pollParticipant, pollReply] at waits
    split at waits
    · cases waits
    · simp only [Poll.into] at waits
      split at waits <;> cases waits
      rfl

/-- What one step makes of the time that is left: only a context that goes on is waited under, but
for the peer at the close. -/
inductive Pace (now : Nat) (x : Exchange WiredBackend) : Poll (Exchange WiredBackend) Report → Prop
  | goes (x' : Exchange WiredBackend) : x'.closeLimit? = x.closeLimit? → Pace now x (.more x')
  | givesUp (x' : Exchange WiredBackend) :
    x.closeLimit? = none → x'.closeLimit? = some (now + Sidechannel.closePatience) →
      Pace now x (.more x')
  | waits (x' : Exchange WiredBackend) (alarm : Option Nat) :
    x.closeLimit? = none → x'.closeLimit? = none → x.ctx.signal = none → x'.ctx = x.ctx →
      Pace now x (.waiting x' alarm)
  | lingers (x' : Exchange WiredBackend) (alarm : Option Nat) (limit : Nat) :
    x.closeLimit? = some limit → x'.closeLimit? = some limit → now < limit → x'.ctx = x.ctx →
      Pace now x (.waiting x' (earlier alarm (some limit)))
  | ends (a : Report) (x' : Exchange WiredBackend) : Pace now x (.ready a x')
  | crashes (x' : Exchange WiredBackend) : Pace now x (.crashed x')

end Exchange

namespace Scene

open Exchange
open WiredBackend renaming backend → wired

variable {s : Scene} {now now' since t : Nat} {x x' : Exchange WiredBackend} {c : Sidechannel}

theorem Untouched.closeLimit (untouched : s.Untouched x) : x.closeLimit? = none := by
  simp only [closeLimit?, untouched.channel, Option.bind_none]

theorem pace_participants (joint : Joint s now x c) : Pace now x (s.poll now x) := by
  have unlimited : ∀ {y : Exchange WiredBackend}, (∃ c, Joint s now y c) →
    y.closeLimit? = none := by
    rintro y ⟨c, joint⟩
    simp only [closeLimit?, joint.relays.channel, Option.bind_some, joint.unlimited]
  have there := joint_participants (s.turns now x) ⟨c, joint⟩
  have here := unlimited ⟨c, joint⟩
  simp only [Scene.poll, Exchange.poll, joint.phase, pollRelaying]
  cases step : x.pollParticipants wired (s.turns now x) now with
  | ready _ x' =>
    rw [step] at there
    exact .goes _ ((unlimited there).trans here.symm)
  | more x' =>
    rw [step] at there
    exact .goes x' ((unlimited there).trans here.symm)
  | waiting x' alarm =>
    rw [step] at there
    have silent : x.ctx.signal = none := by
      rw [joint.ctx.coherent.signal]
      cases recorded : x.ctx.reason with
      | none => rfl
      | some r => exact absurd step (joint.awake_participants recorded _)
    refine .waits x' alarm here (unlimited there) silent ?_
    refine Poll.all_waits (I := fun y : Exchange WiredBackend => y.ctx = x.ctx) ?_ ?_ rfl step
    · exact List.forall_mem_map.2 fun q _ => still q now
    · exact List.forall_mem_map.2 fun q _ _ _ _ same waits => (ctx_waiting waits).trans same
  | crashed x' => exact .crashes x'

theorem Sound.pace (sound : s.Sound now x) : Pace now x (s.poll now x) := by
  cases sound.stands with
  | starting o phase call opens channel untouched =>
    obtain ⟨p, step, same⟩ := poll_starting phase call (s.turns now x) now
    rw [Scene.poll, same]
    have ctx := step.context_eq
    cases p with
    | ready v q =>
      cases v with
      | ok k => exact .goes _ rfl
      | error e => exact .ends _ _
    | more q => exact .goes _ rfl
    | waiting q alarm =>
      exact .waits _ alarm untouched.closeLimit untouched.closeLimit
        (step.silent fun _ _ is => by cases is)
        (ctx fun _ _ is => by cases is)
    | crashed q => exact .crashes _
  | opening k o phase call greeted channel opens untouched =>
    obtain ⟨p, step, same⟩ := poll_opening phase channel (s.turns now x) now
    rw [Scene.poll, same]
    have ctx := step.context_eq
    cases p with
    | ready v q =>
      cases v with
      | ok k => exact .goes _ untouched.closeLimit.symm
      | error e => exact .ends _ _
    | more q => exact .goes _ rfl
    | waiting q alarm =>
      exact .waits _ alarm untouched.closeLimit untouched.closeLimit
        (step.silent fun _ _ is => by cases is)
        (ctx fun _ _ is => by cases is)
    | crashed q => exact .crashes _
  | relaying c phase relays is_open unlimited =>
    exact pace_participants (sound.joint phase relays is_open unlimited)
  | closing c phase relays inbound outbound reply held =>
    obtain ⟨p, step, same⟩ := poll_closing phase relays.channel (s.turns now x) now
    rw [Scene.poll, same]
    have here : x.closeLimit? = c.closeLimit := by
      simp only [closeLimit?, relays.channel, Option.bind_some]
    cases step with
    | givesUp limited held => exact .givesUp _ (here.trans limited) rfl
    | closed _ _ => exact .ends _ _
    | halfClosed _ _ _ => exact .ends _ _
    | ends _ _ _ _ _ _ => exact .ends _ _
    | waits limit sink alarm limited half shut early =>
      exact .lingers _ alarm limit (here.trans limited) limited early rfl
    | crashes limit sink limited half shut => exact .crashes _

theorem Sound.prompt (sound : s.Sound now x) (prompt : Prompt since now x)
    (turn : s.Turn now x now' x')
    (early : x'.ctx.cancelled = false → now' ≤ since) : Prompt since now' x' := by
  have pace := sound.pace
  have same : ∀ {y : Exchange WiredBackend}, y.closeLimit? = x.closeLimit? → Prompt since now y :=
    fun is => ⟨fun none_yet => prompt.held (is.symm.trans none_yet), fun limit some_limit =>
      prompt.limited limit (is.symm.trans some_limit)⟩
  cases turn with
  | looks found =>
    obtain ⟨ctx, _, rfl⟩ := look_eq_some found
    exact same rfl
  | more _ step =>
    rw [step] at pace
    cases pace with
    | goes _ is => exact same is
    | givesUp _ held limited =>
      constructor
      · intro none_yet
        rw [limited] at none_yet
        cases none_yet
      · intro limit is
        have before := prompt.held held
        rw [limited] at is
        cases is
        omega
  | acts _ step act =>
    rw [step] at pace
    obtain ⟨ctx, _, rfl⟩ := Option.map_eq_some_iff.1 act
    cases pace with
    | waits _ _ held held' _ _ => exact same (held'.trans held.symm)
    | lingers _ alarm limit limited limited' _ _ => exact same (limited'.trans limited.symm)
  | sleeps _ step idle due =>
    rw [step] at pace
    cases pace with
    | waits _ _ held held' silent ctx =>
      refine ⟨fun _ => early ?_, fun limit is => ?_⟩
      · rw [ctx]
        exact Context.off_of_silent silent
      · rw [held'] at is
        cases is
    | lingers _ alarm limit limited limited' before _ =>
      have soon := le_of_earlier due
      constructor
      · intro none_yet
        rw [limited'] at none_yet
        cases none_yet
      · intro limit' is
        have far := (prompt.limited limit limited).2
        rw [limited'] at is
        cases is
        omega

theorem prompt_now (reached : s.Reaches now x) : Prompt now now x := by
  refine (keeps (I := fun now x => s.Sound now x ∧ Prompt now now x)
    (fun now x now' x' here turn => ?_) ?_ reached).2
  · obtain ⟨sound, prompt⟩ := here
    exact ⟨sound.turn turn, sound.prompt (prompt.mono turn.le) turn fun _ => le_rfl⟩
  · exact ⟨s.sound_start, fun _ => le_rfl, fun _ is => by cases is⟩

theorem prompt_deadline (reached : s.Reaches now x) : Prompt s.context.tick now x := by
  refine (keeps (I := fun now x => s.Sound now x ∧ Prompt s.context.tick now x)
    (fun now x now' x' here turn => ?_) ?_
    reached).2
  · obtain ⟨sound, prompt⟩ := here
    exact ⟨sound.turn turn, sound.prompt prompt turn (sound.turn turn).ctx.early⟩
  · exact ⟨s.sound_start, fun _ => s.sound_start.ctx.early rfl, fun _ is => by cases is⟩

theorem Sound.awake {alarm : Option Nat} (sound : s.Sound now x)
    (step : s.poll now x = .waiting x' alarm) (idle : (beside s.gone).act now x' = none) :
    earlier alarm ((beside s.gone).alarm now x') ≠ none := by
  have pace := sound.pace
  rw [step] at pace
  cases pace with
  | waits _ _ _ _ silent ctx =>
    have off : x'.ctx.cancelled = false := by
      rw [ctx]
      exact Context.off_of_silent silent
    have idle : x'.ctx.watch (s.gone.map .requestGone) now = none := by
      simpa [beside, Context.beside] using idle
    obtain ⟨_, t, _, rings⟩ := Context.alarm_of_idle off idle
    have rings : (beside s.gone).alarm now x' = some t := rings
    rw [rings]
    cases alarm <;> simp [earlier]
  | lingers _ alarm limit _ _ _ _ => exact earlier_ne_none limit

end Scene
end PackRelay
