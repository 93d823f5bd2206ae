import PackRelay.Proofs.Exchange.Onward
import PackRelay.Proofs.Wire.Message

/-! What an exchange does on the wire. It dials the place of its backend twice at most, for the call
and then for the sidechannel. The call gets one frame, the sidechannel a frame with the same
identifier and the body behind it, and the second is not dialed before the first has its frame. A
hello that no frame can hold leaves the connection of the call alone. -/
namespace PackRelay

namespace Opening

variable {d : Destination} {now : Nat} {ctx : Context} {o : Opening} {c : Connection}
  {places : List Address} {p : Poll (Context × Opening) (Except OpeningError Connection)}

/-- The places that were dialed by now to open a connection. -/
def Dialed (d : Destination) (o : Opening) (places : List Address) : Prop :=
  match o with
  | .dialing .fresh => places = []
  | _ => ∃ place, d.descriptor.place = .ok place ∧ places = [place]

theorem Step.dialed (h : Step d now ctx o p) (dialed : o.Dialed d places)
    (ongoing : ∀ a q, p ≠ .ready a q) :
    p.state.2.Dialed d (places ++ Opening.begun o p.state.2) := by
  cases h with
  | dials place limit _ named =>
    have none_yet : places = [] := dialed
    exact ⟨place, named, by rw [none_yet]; rfl⟩
  | awaits _ _ _ _ _ _ | meets _ _ _ _ _ _ _ _ | sends _ _ _ _ _ _ | stalls _ _ _ _ _ _ _
  | sendCrashes _ _ _ _ _ _ =>
    obtain ⟨place, named, once⟩ := dialed
    exact ⟨place, named, by rw [once]; rfl⟩
  | _ => exact absurd rfl (ongoing _ _)

theorem Step.dialed_ok {q : Context × Opening} (h : Step d now ctx o (.ready (.ok c) q))
    (dialed : o.Dialed d places) :
    ∃ place, d.descriptor.place = .ok place ∧ places = [place] := by
  cases h with
  | sent _ _ _ _ _ _ => exact dialed

theorem Step.flushed {q : Context × Opening} (h : Step d now ctx o (.ready (.ok c) q)) :
    0 < c.sink.flushes := by
  cases h with
  | sent w w' c s _ step =>
    cases step with
    | flushes _ flush =>
      cases flush
      exact Nat.succ_pos _

theorem Step.dialed_error {e : OpeningError} {q : Context × Opening}
    (h : Step d now ctx o (.ready (.error e) q)) (dialed : o.Dialed d places) :
    q.2.Dialed d places := by
  cases h <;> exact dialed

theorem Dialed.cases (dialed : o.Dialed d places) :
    places = [] ∧ o.connection? = none ∨
      ∃ place, d.descriptor.place = .ok place ∧ places = [place] := by
  cases o with
  | dialing k =>
    cases k with
    | fresh => exact .inl ⟨dialed, rfl⟩
    | dialing _ _ _ => exact .inr dialed
  | greeting _ _ => exact .inr dialed

/-- A hello that no frame can hold is not sent: opening goes on to dial, or fails. -/
theorem Step.overlong_cases {k : Connecting} {e : Wire.Error} (h : Step d now ctx (.dialing k) p)
    (long : Wire.frame d.hello = .error e) :
    (∃ k', p = .more (ctx, .dialing k') ∨ ∃ alarm, p = .waiting (ctx, .dialing k') alarm) ∨
      ∃ v q, p = .ready (.error v) q ∧
        ((∃ r, v.told = some r) ∧ q.2 = .dialing k ∨ (∃ e', v = .connect e') ∧ q.2 = .dialing k ∨
          v = .wire e ∧ q.1 = ctx ∧ ctx.signal = none ∧
            ∃ c, d.dial.answer = .connected c ∧ q.2 = .greeting (.sending []) c) := by
  cases h with
  | dials _ _ _ _ => exact .inl ⟨_, .inl rfl⟩
  | awaits _ _ _ _ alarm _ => exact .inl ⟨_, .inr ⟨alarm, rfl⟩⟩
  | meets _ _ _ bs _ _ _ framed =>
    rw [long] at framed
    cases framed
  | late v r ctx' _ _ told => exact .inr ⟨v, _, rfl, .inl ⟨⟨r, told⟩, rfl⟩⟩
  | stops _ v r _ told => exact .inr ⟨v, _, rfl, .inl ⟨⟨r, told⟩, rfl⟩⟩
  | fails _ e' _ _ => exact .inr ⟨_, _, rfl, .inr (.inl ⟨⟨e', rfl⟩, rfl⟩)⟩
  | overlong _ _ _ c e' silent answer framed =>
    cases Except.error.inj (long.symm.trans framed)
    exact .inr ⟨_, _, rfl, .inr (.inr ⟨rfl, rfl, silent, c, answer, rfl⟩)⟩

end Opening

namespace Scene

open Exchange
open WiredBackend renaming backend → wired

/-- What the call is asked for. -/
def request (s : Scene) : Wire.CallRequest where
  method := Wire.uploadPackMethod
  authorization := s.descriptor.token
  repository := s.repository
  gitProtocol := s.gitProtocol
  gitConfigOptions := s.gitConfigOptions
  sidechannelId := s.id

/-- No more than a part of the hello was written. -/
def Asks (s : Scene) (k : Connection) : Prop :=
  k.sink.written = [] ∨
    ∃ hello, Wire.frame (Wire.Hello.call s.request).encode = .ok hello ∧ k.sink.written <+: hello

/-- Exactly the hello was written, and flushed. -/
def Asked (s : Scene) (k : Connection) : Prop :=
  Wire.frame (Wire.Hello.call s.request).encode = .ok k.sink.written ∧ 0 < k.sink.flushes

/-- No more than a part of the hello and of the body behind it was written. -/
def Carries (s : Scene) (k : Connection) : Prop :=
  k.sink.written = [] ∨
    ∃ hello, Wire.frame (Wire.Hello.sidechannel s.id).encode = .ok hello ∧
      k.sink.written <+: hello ++ s.bodyBytes

/-- What is on the wire, by how far the dialing has come. -/
inductive OnWire (s : Scene) (x : Exchange WiredBackend) : Prop
  | nothing :
    x.backend.dialed = [] → x.backend.call.connection? = none → x.channelConnection? = none →
      OnWire s x
  | call (place : Address) :
    s.descriptor.place = .ok place → x.backend.dialed = [place] →
      (∀ k, x.backend.call.connection? = some k → s.Asks k) → x.channelConnection? = none →
      OnWire s x
  | both (place : Address) (k : Connection) :
    s.descriptor.place = .ok place → x.backend.dialed = [place, place] →
      x.backend.call.connection? = some k → s.Asked k →
      (∀ k', x.channelConnection? = some k' → s.Carries k') → OnWire s x

/-- The call got its frame. -/
def Introduced (s : Scene) (x : Exchange WiredBackend) : Prop :=
  ∃ k, x.backend.call.connection? = some k ∧ s.Asked k

/-- How far the dialing has come in each phase. -/
def Dials (s : Scene) (x : Exchange WiredBackend) : Prop :=
  match x.phase with
  | .starting =>
    ∀ o, x.backend.call = .opening o → o.Dialed s.backend.callDestination x.backend.dialed
  | .opening =>
    ∃ place places, s.descriptor.place = .ok place ∧ x.backend.dialed = place :: places ∧
      s.Introduced x ∧
      ∀ o, x.backend.channel = .opening o → o.Dialed s.backend.channelDestination places
  | .relaying | .closing =>
    ∃ place, s.descriptor.place = .ok place ∧ x.backend.dialed = [place, place] ∧ s.Introduced x

variable {s : Scene} {now now' t n : Nat} {x x' y : Exchange WiredBackend} {a : Report}
  {c : Sidechannel} {o : Opening} {k k' : Connection}

theorem Asked.onward (asked : s.Asked k) (onward : k.sink.Onward k'.sink)
    (same : k'.sink.written = k.sink.written) : s.Asked k' :=
  ⟨same ▸ asked.1, Nat.lt_of_lt_of_le asked.2 onward.flushes⟩

theorem Asked.asks (asked : s.Asked k) : s.Asks k := .inr ⟨_, asked.1, List.prefix_rfl⟩

theorem Begun.asks (begun : Opening.Begun s.backend.callDestination k) : s.Asks k := by
  obtain ⟨c₀, answer, _, _, written⟩ := begun
  obtain ⟨events, plan, _, rfl⟩ := Listener.answer_connected (l := s.callListener) answer
  rcases written with same | ⟨bs, framed, part⟩
  · exact .inl same
  · exact .inr ⟨bs, framed, part⟩

theorem asked_of_greeted (greeted : Opening.Greeted s.backend.callDestination k)
    (flushed : 0 < k.sink.flushes) : s.Asked k :=
  ⟨(greeted_written (l := s.callListener) rfl greeted).1, flushed⟩

theorem called_of_hears {line : CallLine} {v : Option (Except CallError Unit)}
    (hears : s.Hears line v) : ∃ k, line.connection? = some k ∧ s.Called k := by
  cases hears with
  | listening r k _ called _ => exact ⟨k, rfl, called⟩
  | answered k v called _ _ => exact ⟨k, rfl, called⟩

/-- The hello stays what it was, because nothing else is ever written behind it. -/
theorem introduced_later (later : Later x x') (hears : s.Hears x'.backend.call x'.results.reply)
    (asked : s.Introduced x) : s.Introduced x' := by
  obtain ⟨k, there, asked⟩ := asked
  obtain ⟨k', there', onward⟩ := later.call k there
  obtain ⟨k'', there'', called⟩ := called_of_hears hears
  cases there'.symm.trans there''
  have same : Wire.frame s.callHello = .ok k.sink.written := asked.1
  exact ⟨k', there', asked.onward onward (Except.ok.inj (called.symm.trans same))⟩

theorem Sound.dials_opened (kept : s.Sound now x')
    (opened : x'.phase = .relaying ∨ x'.phase = .closing)
    (later : Later x x') (same : x'.backend.dialed = x.backend.dialed)
    (dials : ∃ place, s.descriptor.place = .ok place ∧ x.backend.dialed = [place, place] ∧
      s.Introduced x) : s.Dials x' := by
  obtain ⟨place, named, dialed, asked⟩ := dials
  have hears : s.Hears x'.backend.call x'.results.reply := by
    cases kept.stands with
    | starting o phase _ _ _ _ => simp [phase] at opened
    | opening k o phase _ _ _ _ _ => simp [phase] at opened
    | relaying c _ relays _ _ => exact relays.hears
    | closing c _ relays _ _ _ _ => exact relays.hears
  have there : ∃ place, s.descriptor.place = .ok place ∧ x'.backend.dialed = [place, place] ∧
      s.Introduced x' := ⟨place, named, same.trans dialed, introduced_later later hears asked⟩
  rcases opened with phase | phase
  · simpa only [Dials, phase] using there
  · simpa only [Dials, phase] using there

theorem dials_start (s : Scene) : s.Dials s.exchange := by
  rintro o ⟨⟩
  rfl

theorem Sound.dials_starting (sound : s.Sound now x) (dials : s.Dials x)
    (ongoing : ∀ a x', s.poll now x ≠ .ready a x') (phase : x.phase = .starting)
    (call : x.backend.call = .opening o) (opens : o.Sound s.backend.callDestination)
    (channel : x.backend.channel = .opening (.dialing .fresh)) :
    s.Dials (s.poll now x).state := by
  obtain ⟨p, step, same⟩ := poll_starting phase call (s.turns now x) now
  rw [sound.destinations.1] at step
  simp only [Scene.poll, same] at ongoing ⊢
  simp only [Dials, phase] at dials
  have dialed := dials o call
  have going : ∀ q : Context × Opening, q.2.Dialed s.backend.callDestination
      (x.backend.dialed ++ Opening.begun o q.2) →
      s.Dials (x.setBackend (q.1, (x.backend.noting o q.2).withCall (.opening q.2))) := by
    intro q dialed
    simp only [Dials, setBackend, phase]
    rintro o' ⟨⟩
    exact dialed
  cases p with
  | ready value q =>
    cases value with
    | error e => exact absurd rfl (ongoing _ _)
    | ok k =>
      obtain ⟨place, named, once⟩ := step.dialed_ok dialed
      refine ⟨place, [], named, once, ?_, ?_⟩
      · exact ⟨k, rfl, asked_of_greeted (step.greeted opens) step.flushed⟩
      · intro o' is
        cases channel.symm.trans is
        rfl
  | more q => exact going q (step.dialed dialed (by simp))
  | waiting q alarm => exact going q (step.dialed dialed (by simp))
  | crashed q => exact going q (step.dialed dialed (by simp))

theorem Sound.dials_opening (sound : s.Sound now x) (dials : s.Dials x)
    (ongoing : ∀ a x', s.poll now x ≠ .ready a x') (phase : x.phase = .opening)
    (channel : x.backend.channel = .opening o) : s.Dials (s.poll now x).state := by
  obtain ⟨p, step, same⟩ := poll_opening phase channel (s.turns now x) now
  rw [sound.destinations.2] at step
  simp only [Scene.poll, same] at ongoing ⊢
  simp only [Dials, phase] at dials
  obtain ⟨place, places, named, dialed, asked, line⟩ := dials
  have going : ∀ q : Context × Opening, q.2.Dialed s.backend.channelDestination
      (places ++ Opening.begun o q.2) →
      s.Dials (x.setBackend (q.1, (x.backend.noting o q.2).withChannel (.opening q.2))) := by
    intro q more
    simp only [Dials, setBackend, phase]
    refine ⟨place, places ++ Opening.begun o q.2, named, ?_, asked, ?_⟩
    · show x.backend.dialed ++ Opening.begun o q.2 = place :: (places ++ Opening.begun o q.2)
      rw [dialed, List.cons_append]
    · rintro o' ⟨⟩
      exact more
  cases p with
  | ready value q =>
    cases value with
    | error e => exact absurd rfl (ongoing _ _)
    | ok k' =>
      obtain ⟨place', named', once⟩ := step.dialed_ok (line o channel)
      cases Except.ok.inj (named.symm.trans named')
      exact ⟨place, named, by rw [← once]; exact dialed, asked⟩
  | more q => exact going q (step.dialed (line o channel) (by simp))
  | waiting q alarm => exact going q (step.dialed (line o channel) (by simp))
  | crashed q => exact going q (step.dialed (line o channel) (by simp))

theorem Sound.dials_relaying (sound : s.Sound now x) (dials : s.Dials x)
    (ongoing : ∀ a x', s.poll now x ≠ .ready a x') (phase : x.phase = .relaying)
    (joint : Joint s now x c) : s.Dials (s.poll now x).state := by
  have later := sound.later ongoing
  have kept := sound.poll ongoing
  simp only [Dials, phase] at dials
  have there := joint_participants (s.turns now x) ⟨c, joint⟩
  have same := dialed_participants (s.turns now x) now x
  simp only [Scene.poll, Exchange.poll, phase, pollRelaying] at later kept ⊢
  cases step : x.pollParticipants wired (s.turns now x) now <;> rw [step] at there same later kept
  case ready _ x' => exact kept.dials_opened (.inr rfl) later same dials
  all_goals
    obtain ⟨c', joint⟩ := there
    exact kept.dials_opened (.inl joint.phase) later same dials

theorem Sound.dials_closing (sound : s.Sound now x) (dials : s.Dials x)
    (ongoing : ∀ a x', s.poll now x ≠ .ready a x') (phase : x.phase = .closing)
    (channel : x.channel = some c) : s.Dials (s.poll now x).state := by
  have later := sound.later ongoing
  have kept := sound.poll ongoing
  simp only [Dials, phase] at dials
  obtain ⟨p, step, same⟩ := poll_closing phase channel (s.turns now x) now
  simp only [Scene.poll, same] at ongoing later kept ⊢
  cases p with
  | ready v c' => exact absurd rfl (ongoing _ _)
  | _ => exact kept.dials_opened (.inr phase) later rfl dials

theorem Sound.dials (sound : s.Sound now x) (dials : s.Dials x)
    (ongoing : ∀ a x', s.poll now x ≠ .ready a x') : s.Dials (s.poll now x).state := by
  cases sound.stands with
  | starting o phase call opens channel untouched =>
    exact sound.dials_starting dials ongoing phase call opens channel
  | opening k o phase call greeted channel opens untouched =>
    exact sound.dials_opening dials ongoing phase channel
  | relaying c phase relays is_open unlimited =>
    exact sound.dials_relaying dials ongoing phase (sound.joint phase relays is_open unlimited)
  | closing c phase relays inbound outbound reply held =>
    exact sound.dials_closing dials ongoing phase relays.channel

theorem dials_invariant (s : Scene) : s.Invariant s.Dials :=
  ⟨s.dials_start, fun _ _ => Sound.dials, fun _ _ dials => dials⟩

theorem each_dropped {P : Connection → Prop} {l l' : Option Connection}
    (closed : ∀ k, P k → P k.release) (dropped : l' = l ∨ l' = l.map Connection.release)
    (each : ∀ k, l = some k → P k) : ∀ k, l' = some k → P k := by
  intro k there
  rcases dropped with same | same <;> rw [same] at there
  · exact each k there
  · obtain ⟨k₀, there₀, rfl⟩ := Option.map_eq_some_iff.1 there
    exact closed k₀ (each k₀ there₀)

theorem none_dropped {l l' : Option Connection} (dropped : l' = l ∨ l' = l.map Connection.release)
    (unheld : l = none) : l' = none := by
  rcases dropped with same | same <;> rw [same, unheld]
  rfl

/-- Letting go of a connection leaves what is on the wire. -/
theorem OnWire.dropped (wire : s.OnWire x) (dialed : x'.backend.dialed = x.backend.dialed)
    (call : x'.backend.call.connection? = x.backend.call.connection? ∨
      x'.backend.call.connection? = x.backend.call.connection?.map Connection.release)
    (channel : x'.channelConnection? = x.channelConnection? ∨
      x'.channelConnection? = x.channelConnection?.map Connection.release) : s.OnWire x' := by
  cases wire with
  | nothing none_dialed no_call no_channel =>
    exact .nothing (dialed.trans none_dialed) (none_dropped call no_call)
      (none_dropped channel no_channel)
  | call place named once asks no_channel =>
    exact .call place named (dialed.trans once) (each_dropped (fun _ asks => asks) call asks)
      (none_dropped channel no_channel)
  | both place k named twice there asked carries =>
    have carries := each_dropped (P := s.Carries) (fun _ carries => carries) channel carries
    rcases call with same | same <;> rw [there] at same
    · exact .both place k named (dialed.trans twice) same asked carries
    · exact .both place k.release named (dialed.trans twice) same asked carries

theorem onWire_release (wire : s.OnWire x) : s.OnWire (x.release wired) :=
  wire.dropped rfl x.backend.call.drop_connection x.released_connection

/-- While the call is opened. -/
theorem onWire_calling (unopened : x.channelConnection? = none)
    (dialed : o.Dialed s.backend.callDestination x.backend.dialed)
    (call : x.backend.call.connection? = o.connection? ∨
      x.backend.call.connection? = o.connection?.map Connection.release)
    (begun : ∀ k, o.connection? = some k → Opening.Begun s.backend.callDestination k) :
    s.OnWire x := by
  rcases dialed.cases with ⟨none_dialed, unheld⟩ | ⟨place, named, once⟩
  · exact .nothing none_dialed (none_dropped call unheld) unopened
  · exact .call place named once
      (each_dropped (fun _ asks => asks) call fun k there => Begun.asks (begun k there)) unopened

/-- While the sidechannel is opened. -/
theorem onWire_opening {place : Address} {places : List Address}
    (named : s.descriptor.place = .ok place) (asked : s.Introduced x)
    (dialed : x.backend.dialed = place :: places)
    (line : o.Dialed s.backend.channelDestination places)
    (channel : x.channelConnection? = o.connection? ∨
      x.channelConnection? = o.connection?.map Connection.release)
    (begun : ∀ k, o.connection? = some k → Opening.Begun s.backend.channelDestination k) :
    s.OnWire x := by
  obtain ⟨k, there, asked⟩ := asked
  rcases line.cases with ⟨rfl, unheld⟩ | ⟨place', named', rfl⟩
  · refine .call place named dialed (fun k' there' => ?_) (none_dropped channel unheld)
    cases there.symm.trans there'
    exact asked.asks
  · cases Except.ok.inj (named.symm.trans named')
    exact .both place k named dialed there asked
      (each_dropped (fun _ carries => carries) channel fun k there => Begun.sent (begun k there))

theorem Sound.unopened (sound : s.Sound now x) (starting : x.phase = .starting) :
    s.Untouched x ∧ x.channelConnection? = none := by
  cases sound.stands with
  | starting o phase call opens channel untouched =>
    refine ⟨untouched, ?_⟩
    simp only [channelConnection?, untouched.channel, channel]
    rfl
  | opening _ _ phase _ _ _ _ _ | relaying _ phase _ _ _ | closing _ phase _ _ _ _ _ =>
    rw [phase] at starting
    cases starting

theorem Sound.onWire (sound : s.Sound now x) (dials : s.Dials x) : s.OnWire x := by
  have carries := sound.partial.sent
  cases sound.stands with
  | starting o phase call opens channel untouched =>
    simp only [Dials, phase] at dials
    refine onWire_calling (sound.unopened phase).2 (dials o call) (.inl (by rw [call]; rfl)) ?_
    intro k there
    cases o with
    | dialing _ => cases there
    | greeting w k =>
      cases there
      exact opens.begun
  | opening k o phase call greeted channel opens untouched =>
    simp only [Dials, phase] at dials
    obtain ⟨place, places, named, dialed, asked, line⟩ := dials
    refine onWire_opening named asked dialed (line o channel) (.inl ?_) fun k there => ?_
    · simp only [channelConnection?, untouched.channel, channel]
      rfl
    · cases o with
      | dialing _ => cases there
      | greeting w k =>
        cases there
        exact opens.begun
  | relaying c phase relays is_open unlimited =>
    simp only [Dials, phase] at dials
    obtain ⟨place, named, dialed, k, there, asked⟩ := dials
    exact .both place k named dialed there asked carries
  | closing c phase relays inbound outbound reply held =>
    simp only [Dials, phase] at dials
    obtain ⟨place, named, dialed, k, there, asked⟩ := dials
    exact .both place k named dialed there asked carries

theorem Ending.onWire (sound : s.Sound now x) (dials : s.Dials x) (ending : s.Ending now x y) :
    s.OnWire y := by
  have carries := (ending.partial sound).sent
  cases ending with
  | start o e q call untouched step opens phase =>
    simp only [Dials, phase] at dials
    exact onWire_calling (o := q.2) (sound.unopened phase).2 (step.dialed_error (dials o call))
      (.inr rfl) fun k there => step.connection_begun opens there
  | dial o e q channel untouched step opens phase =>
    simp only [Dials, phase] at dials
    obtain ⟨place, places, named, dialed, asked, line⟩ := dials
    refine onWire_opening (o := q.2) named asked dialed (step.dialed_error (line o channel))
      (.inr ?_) fun k there => step.connection_begun opens there
    simp only [channelConnection?, failedDial, setBackend, untouched.channel]
    rfl
  | close c c' v phase relays _ _ _ step =>
    simp only [Dials, phase] at dials
    obtain ⟨place, named, dialed, k, there, asked⟩ := dials
    exact .both place k named dialed there asked carries

theorem onWire_after (s : Scene) (n : Nat) : s.OnWire (s.after n).state :=
  s.dials_invariant.after (fun _ _ => Sound.onWire)
    (fun _ _ _ sound dials ending => ending.onWire sound dials) (fun _ => onWire_release) n

/-- The watcher dials nothing. -/
theorem dialed_succ (here : s.after n = .unfinished t x) :
    (s.after (n + 1)).state.backend.dialed = x.backend.dialed ∨
      (s.after (n + 1)).state.backend.dialed = (s.poll t x).state.backend.dialed := by
  rcases after_succ here with ⟨now', x', turn, next⟩ | ends
  · rw [next]
    rcases turn.state with ⟨ctx, rfl⟩ | ⟨_, rfl | ⟨ctx, rfl⟩⟩
    · exact .inl rfl
    · exact .inr rfl
    · exact .inr rfl
  · refine .inr ?_
    generalize s.after (n + 1) = r at ends
    cases ends with
    | finished step | crashed step | stuck step _ _ => rw [step]; rfl

theorem Sound.dials_once (sound : s.Sound now x) (dials : s.Dials x)
    (starting : x.phase = .starting) : (s.poll now x).state.backend.dialed.length ≤ 1 := by
  cases sound.stands with
  | starting o phase call opens channel untouched =>
    obtain ⟨p, step, same⟩ := poll_starting phase call (s.turns now x) now
    rw [sound.destinations.1] at step
    simp only [Dials, phase] at dials
    have dialed := dials o call
    have one : ∀ {o : Opening} {places : List Address},
        o.Dialed s.backend.callDestination places → places.length ≤ 1 := by
      intro o places dialed
      rcases dialed.cases with ⟨rfl, _⟩ | ⟨place, _, rfl⟩
      · exact Nat.zero_le 1
      · exact le_rfl
    rw [Scene.poll, same]
    cases p with
    | ready value q => cases value <;> exact one dialed
    | more q | waiting q alarm | crashed q =>
      exact one (step.dialed dialed (by simp))
  | opening _ _ phase _ _ _ _ _ | relaying _ phase _ _ _ | closing _ phase _ _ _ _ _ =>
    rw [phase] at starting
    cases starting

/-- Before the step that dials the sidechannel the call has its hello. -/
theorem introduced_before (few : (s.after n).state.backend.dialed.length < 2)
    (two : 2 ≤ (s.after (n + 1)).state.backend.dialed.length) :
    s.Introduced (s.after n).state := by
  by_cases concluded : ∀ t x, s.after n ≠ .unfinished t x
  · rw [after_over concluded 1] at two
    omega
  · push Not at concluded
    obtain ⟨t, x, here⟩ := concluded
    have sound := sound_of_reaches ⟨n, here⟩
    have dials := s.dials_invariant.reached ⟨n, here⟩
    rw [here] at few ⊢
    have few : x.backend.dialed.length < 2 := few
    have two : 2 ≤ (s.poll t x).state.backend.dialed.length := by
      rcases dialed_succ here with same | same
      · rw [same] at two
        omega
      · rwa [same] at two
    cases phase : x.phase with
    | starting =>
      have := sound.dials_once dials phase
      omega
    | opening =>
      simp only [Dials, phase] at dials
      obtain ⟨_, _, _, _, asked, _⟩ := dials
      exact asked
    | relaying | closing =>
      simp only [Dials, phase] at dials
      obtain ⟨_, _, _, asked⟩ := dials
      exact asked

/-- No frame can hold the hello of the call. -/
def Overlong (s : Scene) : Prop := Wire.maxFrameLength < (Wire.Hello.call s.request).encode.length

def overlong (s : Scene) : Wire.Error :=
  .frameTooLarge (Wire.Hello.call s.request).encode.length

theorem overlong_of_gitProtocol {text : String} (is : s.gitProtocol = some text)
    (long : Wire.maxFrameLength ≤ text.toList.length) : s.Overlong := by
  have there : ("git_protocol", .text text) ∈
      ("type", .text "call") :: Wire.callMembers s.request := by
    simp [Wire.callMembers, request, Wire.optional, is]
  exact Nat.lt_of_le_of_lt (long.trans (Json.length_text text)) (Json.length_member there)

theorem Overlong.frame (long : s.Overlong) : Wire.frame s.callHello = .error s.overlong :=
  if_pos long

theorem OnWire.of_overlong (long : s.Overlong) (wire : s.OnWire x) :
    x.backend.dialed.length ≤ 1 ∧ x.channelConnection? = none ∧
      ∀ k, x.backend.call.connection? = some k → k.sink.written = [] := by
  cases wire with
  | nothing none_dialed no_call no_channel =>
    refine ⟨by rw [none_dialed]; exact Nat.zero_le 1, no_channel, fun k there => ?_⟩
    cases no_call.symm.trans there
  | call place named once asks no_channel =>
    refine ⟨by rw [once]; exact le_rfl, no_channel, fun k there => ?_⟩
    refine (asks k there).resolve_right ?_
    rintro ⟨hello, framed, _⟩
    cases long.frame.symm.trans framed
  | both place k named twice there asked carries => cases long.frame.symm.trans asked.1

/-- Where an exchange stands whose hello no frame can hold. -/
structure Stalled (x : Exchange WiredBackend) : Prop where
  phase : x.phase = .starting
  call : ∃ k, x.backend.call = .opening (.dialing k)

/-- How it ends then: the hello is refused, unless its connection could not be dialed or the
exchange was cancelled first. Nothing but letting go was done to the connection. -/
structure Refused (s : Scene) (a : Report) (x : Exchange WiredBackend) : Prop where
  outcome : a.outcome = .error (.transport (.call (.wire s.overlong))) ∨
    (∃ e, x.results.start = some (.connect e)) ∨ ∃ r, x.ctx.reason = some r ∧ r ≠ .done
  untouched : ∀ k, x.backend.call.connection? = some k →
    ∃ c, s.callListener.answer = .connected c ∧ k = c.release

/-- What its steps do. -/
inductive Stalls (s : Scene) : Poll (Exchange WiredBackend) Report → Prop
  | goes (x' : Exchange WiredBackend) : Stalled x' → Stalls s (.more x')
  | waits (x' : Exchange WiredBackend) (alarm : Option Nat) :
    Stalled x' → Stalls s (.waiting x' alarm)
  | ends (a : Report) (x' : Exchange WiredBackend) : s.Refused a x' → Stalls s (.ready a x')

theorem outcome_failedStart {e : CallError} {q : Context × WiredBackend} (untouched : s.Untouched x)
    (silent : q.1.reason = none) (failure : ∀ status, e ≠ .backend status) :
    (((x.setBackend q).failedStart e).report wired).outcome = .error (.transport (.call e)) := by
  simp only [Exchange.report, failedStart, setBackend, untouched.results, Observed.resolve, silent]
  cases e with
  | backend status => exact absurd rfl (failure status)
  | _ => rfl

theorem Sound.stalls (sound : s.Sound now x) (stalled : Stalled x) (long : s.Overlong) :
    s.Stalls (s.poll now x) := by
  obtain ⟨phase, k, call⟩ := stalled
  obtain ⟨p, step, same⟩ := poll_starting phase call (s.turns now x) now
  have untouched := (sound.unopened phase).1
  rw [sound.destinations.1] at step
  rw [Scene.poll, same]
  rcases step.overlong_cases long.frame with ⟨k', rfl | ⟨alarm, rfl⟩⟩ | ⟨v, q, rfl, failed⟩
  · exact .goes _ ⟨phase, k', rfl⟩
  · exact .waits _ alarm ⟨phase, k', rfl⟩
  refine .ends _ _ ?_
  have held : ∀ k, (((x.setBackend (q.1, x.backend.withCall
      (CallLine.opening q.2).drop)).failedStart (.ofOpening v)).release
        wired).backend.call.connection? = some k →
    q.2.connection?.map Connection.release = some k := fun _ there => there
  rcases failed with ⟨⟨r, told⟩, line⟩ | ⟨⟨e, rfl⟩, line⟩ | ⟨rfl, ctx, silent, c, answer, line⟩
  · obtain ⟨said, outside⟩ := sound.told_opening untouched step
    have reason : q.1.reason = some r := said.symm.trans told
    refine ⟨.inr (.inr ⟨r, ?_, fun done => outside (done ▸ reason)⟩), fun k there => ?_⟩
    · simp only [Exchange.release, Exchange.cancel, Context.reason_cancel, failedStart, setBackend,
        reason, Option.some_or]
    · have there := held k there
      rw [line] at there
      cases there
  · refine ⟨.inr (.inl ⟨e, rfl⟩), fun k there => ?_⟩
    have there := held k there
    rw [line] at there
    cases there
  · refine ⟨.inl ?_, fun k there => ?_⟩
    · refine outcome_failedStart untouched ?_ (by simp [CallError.ofOpening])
      rw [ctx, ← sound.ctx.coherent.signal, silent]
    · have there := held k there
      rw [line] at there
      cases there
      exact ⟨c, answer, rfl⟩

theorem stalled_invariant (long : s.Overlong) : s.Invariant Stalled where
  start := ⟨rfl, .fresh, rfl⟩
  step now x sound stalled ongoing := by
    have stalls := sound.stalls stalled long
    generalize s.poll now x = p at stalls ongoing
    cases stalls with
    | goes _ stalled | waits _ _ stalled => exact stalled
    | ends a x' _ => exact absurd rfl (ongoing a x')
  look _ _ stalled := ⟨stalled.phase, stalled.call⟩

/-- An exchange whose hello no frame can hold comes to its end, and refuses the hello. -/
theorem refused_of_overlong (long : s.Overlong) :
    ∃ n t a x, s.after n = .finished t a x ∧ s.Refused a x := by
  obtain ⟨n, t, _, ⟨a, x, concluded⟩ | ⟨x, x', _, sound, stalled, step⟩⟩ :=
    (stalled_invariant long).ends fun now x sound stalled => by
      obtain ⟨k, call⟩ := stalled.call
      exact sound.lowers_starting stalled.phase call fun p step =>
        step.lowers_while fun _ _ is => nomatch is
  · obtain ⟨y, reached, step⟩ := ended concluded
    have stalled := (stalled_invariant long).reached reached
    have stalls := (sound_of_reaches reached).stalls stalled long
    rw [step] at stalls
    cases stalls with
    | ends _ _ refused => exact ⟨n, t, a, x, concluded, refused⟩
  · have stalls := sound.stalls stalled long
    rw [step] at stalls
    cases stalls

/-- Every exchange keeps to the protocol. At every moment its two connections carry what they should
and no more, nothing is ever taken back, and the sidechannel is not dialed before the call has its
hello. If no frame can hold that hello, nothing is sent and the exchange ends with the refusal of
it, unless it could not be dialed or was cancelled first. -/
theorem conforms (s : Scene) :
    (∀ n, s.OnWire (s.after n).state) ∧
    (∀ n m, n ≤ m → Later (s.after n).state (s.after m).state) ∧
    (∀ n, (s.after n).state.backend.dialed.length < 2 →
      2 ≤ (s.after (n + 1)).state.backend.dialed.length → s.Introduced (s.after n).state) ∧
    (s.Overlong →
      (∀ n, (s.after n).state.backend.dialed.length ≤ 1 ∧
        (s.after n).state.channelConnection? = none ∧
        ∀ k, (s.after n).state.backend.call.connection? = some k → k.sink.written = []) ∧
      ∃ n t a x, s.after n = .finished t a x ∧ s.Refused a x) :=
  ⟨s.onWire_after, fun _ _ => s.later_after, fun _ => introduced_before, fun long =>
    ⟨fun n => (s.onWire_after n).of_overlong long, refused_of_overlong long⟩⟩

/-- One whose protocol alone is longer than any frame. -/
def lengthy : Scene :=
  { brief with gitProtocol := some (String.ofList (List.replicate Wire.maxFrameLength 'a')) }

theorem lengthy_overlong : lengthy.Overlong :=
  overlong_of_gitProtocol rfl (by rw [String.toList_ofList, List.length_replicate])

theorem conforms_lengthy : brief.Introduced (brief.after 4).state ∧ lengthy.Overlong ∧
    ∃ n t a x, lengthy.after n = .finished t a x ∧ lengthy.Refused a x := by
  have dials : (brief.after 4).state.backend.dialed.length < 2 ∧
      2 ≤ (brief.after (4 + 1)).state.backend.dialed.length := by decide +kernel
  refine ⟨(conforms brief).2.2.1 4 dials.1 dials.2, lengthy_overlong, ?_⟩
  exact ((conforms lengthy).2.2.2 lengthy_overlong).2

end Scene
end PackRelay
