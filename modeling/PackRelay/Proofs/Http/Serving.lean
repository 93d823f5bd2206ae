import PackRelay.Proofs.Exchange.Complete
import PackRelay.Proofs.Http.Answer
import PackRelay.Server.Basic

/-! What a server makes of a request that it accepts. All that holds of an exchange goes on holding
of it while its client reads more or goes away: only the time at which the request leaves and the
plan of its response change, and not what was done before. So the body that a client gets is a part
of what the sidechannel delivered, and all of it if the exchange succeeds. -/
namespace PackRelay

open WiredBackend renaming backend → wired

theorem Pipe.plan_calm (taken : Nat) (watched : Bool) : (Pipe.plan taken watched).Calm where
  write _ accepted := by
    simp only [plan]
    split
    · simp
    · split <;> simp
  flush _ := by simp [plan]
  shutdown _ := by simp [plan]

namespace Scene

variable {s : Scene} {x y : Exchange WiredBackend} {now t : Nat} {c : Sidechannel}
  {gone : Option Nat} {response : SinkPlan} {turns : Nat → Exchange WiredBackend → Turns}

/-- The same scene for a request that leaves at another time, and a response with another plan. -/
def amid (s : Scene) (gone : Option Nat) (response : SinkPlan)
    (turns : Nat → Exchange WiredBackend → Turns) : Scene :=
  { s with gone, response, turns }

theorem Calm.of_amid (response : s.response.Calm) {plan : SinkPlan}
    (calm : (s.amid gone plan turns).Calm) : s.Calm :=
  ⟨calm.call, calm.channel, calm.body, response⟩

theorem Untouched.facing (untouched : s.Untouched x) :
    (s.amid gone response turns).Untouched (x.facing response) where
  channel := untouched.channel
  inbound := untouched.inbound
  outbound := by
    simp only [Exchange.facing, untouched.outbound]
    rfl
  results := untouched.results

theorem Relays.facing (relays : s.Relays x c) (calm : s.response.Calm) :
    (s.amid gone response turns).Relays (x.facing response) c where
  channel := relays.channel
  handedOut := relays.handedOut
  feeds :=
    have feeds := relays.feeds
    ⟨feeds.flows, feeds.plan, feeds.whole, feeds.errors, feeds.closed,
      fun quiet => feeds.calm (.of_amid calm quiet)⟩
  draws :=
    have draws := relays.draws
    ⟨⟨⟨draws.flows.sound.written, draws.flows.sound.counted, draws.flows.sound.ended⟩,
      draws.flows.bytes, draws.flows.well, draws.flows.unfinished⟩, rfl,
      fun quiet => draws.calm (.of_amid calm quiet)⟩
  hears := by
    have hears := relays.hears
    show (s.amid gone response turns).Hears x.backend.call x.results.reply
    generalize x.backend.call = line at hears ⊢
    generalize x.results.reply = reply at hears ⊢
    cases hears with
    | listening r k sound called source =>
      exact .listening r k sound called fun quiet => source (.of_amid calm quiet)
    | answered k v called good bad => exact .answered k v called good bad

/-- An exchange may go on in other surroundings, as long as no cancellation is taken back. -/
theorem Sound.facing (sound : s.Sound now x) (calm : s.response.Calm)
    (kept : Context.Kept s.context gone now x.ctx) :
    (s.amid gone response turns).Sound now (x.facing response) where
  backend := sound.backend
  ctx := kept
  account := sound.account
  stands := by
    cases sound.stands with
    | starting o phase call opens channel untouched =>
      exact .starting o phase call opens channel untouched.facing
    | opening k o phase call greeted channel opens untouched =>
      exact .opening k o phase call greeted channel opens untouched.facing
    | relaying c phase relays is_open unlimited =>
      exact .relaying c phase (relays.facing calm) is_open unlimited
    | closing c phase relays inbound outbound reply held =>
      exact .closing c phase (relays.facing calm) inbound outbound reply held

theorem Sound.plan (sound : s.Sound now x) : x.outbound.response.sink.plan = s.response := by
  cases sound.stands with
  | starting _ _ _ _ _ untouched | opening _ _ _ _ _ _ _ untouched =>
    rw [untouched.outbound]
    rfl
  | relaying c _ relays _ _ | closing c _ relays _ _ _ _ => exact relays.draws.plan

/-- A request that did not leave so far may leave now. -/
theorem Sound.leaves (sound : s.Sound now x) (calm : s.response.Calm) (stays : s.gone = none) :
    (s.amid (some t) s.response s.turns).Sound now x := by
  have same : x.facing s.response = x := by rw [← sound.plan]; rfl
  have kept : Context.Kept s.context (some t) now x.ctx := by
    have ctx := sound.ctx
    refine ⟨ctx.timeout, ctx.deadline, ctx.coherent, ctx.early, ctx.late, fun is => ?_⟩
    obtain ⟨t', left, _⟩ := ctx.left is
    rw [stays] at left
    cases left
  have faced : (s.amid (some t) s.response s.turns).Sound now (x.facing s.response) :=
    sound.facing calm kept
  rwa [same] at faced

theorem Partial.of_amid (here : (s.amid gone response turns).Partial x) : s.Partial x :=
  ⟨here.sent, here.received, here.nothing⟩

/-- A success relayed all that its sidechannel delivered to the end. -/
theorem Ending.delivered {summary : Summary} (sound : s.Sound now x) (ending : s.Ending now x y)
    (ok : (y.report wired).outcome = .ok summary) :
    ∃ k, (y.release wired).channelConnection? = some k ∧ k.source.events = [] ∧
      (y.release wired).outbound.response.sink.written = k.source.delivered := by
  obtain ⟨c, c', relays, well, _, rfl, source⟩ := ending.well sound ok
  obtain ⟨k, hello, there, _, _, _, concluded, written⟩ := (relays.complete well).channel
  simp only [Exchange.channelConnection?, relays.channel, Option.some.injEq] at there
  subst there
  have same : c'.drop.connection.source = c.connection.source := by
    rw [Sidechannel.drop_connection]
    exact source
  exact ⟨c'.drop.connection, rfl, by rw [same, concluded], by rw [same]; exact written⟩

end Scene

namespace Http.Serving

open Scene

variable {s : Scene} {v w : Serving WiredBackend} {d : Deed} {t : Nat}

/-- A request is served by the exchange of a scene. -/
structure Tracks (s : Scene) (v : Serving WiredBackend) : Prop where
  sound : v.exit = none → ∃ plan turns, plan.Calm ∧
    (s.amid v.gone plan turns).Sound v.time v.exchange
  part : s.Partial v.exchange
  whole : ∀ report summary, v.exit = some (.returned report) → report.outcome = .ok summary →
    ∃ k, v.exchange.channelConnection? = some k ∧ k.source.events = [] ∧
      v.relayed = k.source.delivered

theorem Tracks.going {plan : SinkPlan} {turns : Nat → Exchange WiredBackend → Turns}
    (going : v.exit = none) (calm : plan.Calm)
    (sound : (s.amid v.gone plan turns).Sound v.time v.exchange) : Tracks s v where
  sound _ := ⟨plan, turns, calm, sound⟩
  part := sound.partial.of_amid
  whole report _ is := by
    rw [going] at is
    cases is

theorem Tracks.works (tracks : Tracks s v) (going : v.exit = none) (turns : Turns) :
    Tracks s (v.after wired ((v.exchange.facing v.pipe).poll wired turns v.time)) := by
  obtain ⟨plan, turns', calm, sound⟩ := tracks.sound going
  have sound : (s.amid v.gone v.pipe fun _ _ => turns).Sound v.time (v.exchange.facing v.pipe) :=
    sound.facing calm sound.ctx
  have calm : v.pipe.Calm := Pipe.plan_calm _ _
  have polled : (v.exchange.facing v.pipe).poll wired turns v.time =
      (s.amid v.gone v.pipe fun _ _ => turns).poll v.time (v.exchange.facing v.pipe) := rfl
  have kept := sound.poll
  rw [polled]
  cases step : (s.amid v.gone v.pipe fun _ _ => turns).poll v.time (v.exchange.facing v.pipe) with
  | ready report x =>
    obtain ⟨y, ending, rfl, rfl⟩ := sound.ending step
    refine ⟨nofun, ((carried_release y).partial (ending.partial sound)).of_amid, ?_⟩
    rintro _ summary ⟨⟩ ok
    exact ending.delivered sound ok
  | more x =>
    rw [step] at kept
    exact .going going calm (kept fun _ _ is => nomatch is)
  | waiting x alarm => exact .going going calm (sound.of_waiting step)
  | crashed x =>
    refine ⟨nofun, ((carried_release x).partial (sound.of_crashed step).partial).of_amid, ?_⟩
    rintro _ _ ⟨⟩

theorem Tracks.act (tracks : Tracks s v) (coherent : v.Coherent) (d : Deed) :
    Tracks s (v.act wired d) := by
  have moves := v.moves wired d
  generalize v.act wired d = w at moves ⊢
  cases moves with
  | rests _ => exact tracks
  | works turns going => exact tracks.works going turns
  | watches ctx going seen =>
    obtain ⟨plan, turns, calm, sound⟩ := tracks.sound going
    exact .going going calm (sound.watch seen)
  | reads _ got _ _ _ => exact ⟨tracks.sound, tracks.part, tracks.whole⟩
  | letsGo _ c keeps _ _ _ _ =>
    refine ⟨fun going => ?_, tracks.part, tracks.whole⟩
    obtain ⟨plan, turns, calm, sound⟩ := tracks.sound going
    exact ⟨plan, turns, calm, sound.leaves calm (coherent.held.2 keeps)⟩
  | passes ms free =>
    refine ⟨fun going => ?_, tracks.part, tracks.whole⟩
    obtain ⟨plan, turns, calm, sound⟩ := tracks.sound going
    refine ⟨plan, turns, calm, sound.backend, ?_, sound.account, sound.stands⟩
    refine sound.ctx.sleep (Nat.le_add_right _ _) fun off => ?_
    rcases free with is_over | cancelled | early
    · rw [show v.exit = none from going] at is_over
      cases is_over
    · cases cancelled.symm.trans off
    · exact sound.ctx.tick ▸ early

theorem Tracks.follow (tracks : Tracks s v) (coherent : v.Coherent) (deeds : List Deed) :
    Tracks s (v.follow wired deeds) ∧ (v.follow wired deeds).Coherent :=
  follow_keeps (I := fun w => Tracks s w ∧ w.Coherent)
    (fun _ d here => ⟨here.1.act here.2 d, here.2.act d⟩) ⟨tracks, coherent⟩ deeds

/-- What of the sidechannel's output the response accepted. -/
structure Delivered (v : Serving WiredBackend) : Prop where
  part : ∀ k, v.exchange.channelConnection? = some k → v.relayed <+: k.source.delivered
  nothing : v.exchange.channelConnection? = none → v.relayed = []
  whole : ∀ report summary, v.exit = some (.returned report) → report.outcome = .ok summary →
    ∃ k, v.exchange.channelConnection? = some k ∧ k.source.events = [] ∧
      v.relayed = k.source.delivered

/-- Who cancels the exchange of a request that came to be what it is by some deeds. -/
structure Guarded (deeds : List Deed) (v : Serving WiredBackend) : Prop where
  /-- A client that does not go away lets the exchange come to its end. -/
  kept : .leave ∉ deeds → v.exit = none →
    v.gone = none ∧ v.context.reason ≠ some .clientAborted
  /-- One that goes away earlier lets go of it, -/
  leaves : v.client.keeps = true → (v.act wired .leave).gone = some v.time
  /-- for good, -/
  stays : ∀ t later, v.gone = some t → (v.follow wired later).gone = some t
  /-- and that cancels the exchange as soon as it is noticed, unless something else came first. -/
  cancels : v.exit = none → v.gone.isSome → (v.act wired .watch).context.cancelled = true ∧
    (v.act wired .watch).context.reason = v.context.reason.or (some .clientAborted)

theorem Tracks.guarded {deeds : List Deed} (waits : v.client = .waiting)
    (tracks : Tracks s (v.follow wired deeds)) (coherent : (v.follow wired deeds).Coherent) :
    (v.follow wired deeds).Guarded deeds where
  kept stays going := by
    have held : (v.follow wired deeds).gone = none := by
      by_contra gone
      obtain ⟨got, left⟩ := coherent.left_of_gone going (Option.isSome_iff_ne_none.2 gone)
      rcases follow_left left with early | leaves
      · rw [waits] at early
        cases early
      · exact stays leaves
    obtain ⟨plan, turns, _, sound⟩ := tracks.sound going
    refine ⟨held, fun is => ?_⟩
    obtain ⟨t, left, _⟩ := sound.ctx.left is
    rw [show (s.amid (v.follow wired deeds).gone plan turns).gone = _ from held] at left
    cases left
  leaves keeps := by
    simp only [Serving.act, Serving.leave, keeps, if_true]
    rfl
  stays t later gone := coherent.stays_gone gone later
  cancels going gone := by
    obtain ⟨t, is⟩ := Option.isSome_iff_exists.1 gone
    obtain ⟨plan, turns, _, sound⟩ := tracks.sound going
    exact coherent.watch_gone going is sound.ctx.coherent

/-- A request at its beginning, in the surroundings of a scene. -/
def ofScene (s : Scene) : Serving WiredBackend where
  exchange := (s.amid none (Pipe.plan 0 true) s.turns).exchange
  time := s.start

theorem coherent_ofScene (s : Scene) : (ofScene s).Coherent where
  fits := .waiting
  unsent _ := rfl
  held := ⟨fun _ => rfl, fun _ => rfl⟩
  past _ is := nomatch is
  counted := rfl
  bounded := Nat.zero_le _

theorem tracks_ofScene (s : Scene) : Tracks s (ofScene s) :=
  .going rfl (Pipe.plan_calm 0 true) (sound_start (s.amid none (Pipe.plan 0 true) s.turns))

theorem served_ofScene (s : Scene) (deeds : List Deed) :
    ((ofScene s).follow wired deeds).Told wired ∧ ((ofScene s).follow wired deeds).Delivered ∧
      ((ofScene s).follow wired deeds).Guarded deeds := by
  obtain ⟨tracks, coherent⟩ := (tracks_ofScene s).follow (coherent_ofScene s) deeds
  refine ⟨coherent.told, ⟨tracks.part.received, tracks.part.nothing, tracks.whole⟩, ?_⟩
  exact tracks.guarded rfl coherent

end Http.Serving

namespace Server

open Http

variable {server : Server} {now : Nat} {r : Request} {id : SidechannelId} {call channel : Dial}
  {v : Serving WiredBackend}

theorem accept_of_route {target : Target}
    (found : server.route r.method r.target = .ok (.uploadPack target)) :
    server.accept now r id call channel = .ok
      (.start server.controller server.config.timeouts.connect now target r id call channel) := by
  simp only [accept, found]

theorem route_of_accept (accepted : server.accept now r id call channel = .ok v) :
    ∃ target, server.route r.method r.target = .ok (.uploadPack target) ∧
      v = .start server.controller server.config.timeouts.connect now target r id call channel := by
  cases found : server.route r.method r.target with
  | error reply =>
    simp only [accept, found] at accepted
    cases accepted
  | ok route =>
    cases route with
    | health =>
      simp only [accept, found] at accepted
      cases accepted
    | uploadPack target =>
      rw [accept_of_route found] at accepted
      cases accepted
      exact ⟨target, rfl, rfl⟩

/-- However the backend of a request that was accepted behaves, and in whatever order the exchange
works, its answer is noticed and its client reads or goes away: the client is told what the exchange
came to, a body is what the response accepted of the sidechannel's output, and nobody but a client
that goes away cancels an exchange that is not over. -/
theorem serves_every_client (server : Server) (callListener channelListener : Listener)
    (callDelay channelDelay : Nat) (body : List ReadEvent) {method target : String}
    {headers : Headers}
    (accepted : server.accept now ⟨method, target, headers, .ofEvents body⟩ id
      ⟨callDelay, callListener.answer⟩ ⟨channelDelay, channelListener.answer⟩ = .ok v)
    (deeds : List Deed) :
    (v.follow wired deeds).Told wired ∧ (v.follow wired deeds).Delivered ∧
      (v.follow wired deeds).Guarded deeds := by
  obtain ⟨found, _, rfl⟩ := route_of_accept accepted
  exact Serving.served_ofScene {
    controller := server.controller, start := now, gone := none, turns := fun _ _ => .inOrder
    descriptor := found.backend, patience := server.config.timeouts.connect
    repository := found.repository, gitProtocol := headers.gitProtocol
    gitConfigOptions := found.gitConfigOptions, id, callDelay, callListener, channelDelay
    channelListener, body, response := {} } deeds

/-- The exchange works until it is over; only then the client is answered, and reads. -/
def patient : List Deed :=
  List.replicate 23 (.work .inOrder) ++ [.notice, .take 8, .take 8]

theorem serves_one_client : ∃ v, (ofConfig {}).accept 0
    ⟨"POST", "/a.git/git-upload-pack", [], .ofEvents Scene.brief.body⟩ Scene.brief.id
    ⟨0, Scene.brief.callListener.answer⟩ ⟨0, Scene.brief.channelListener.answer⟩ = .ok v ∧
    (v.follow wired patient).client = .finished [1, 2, 3] ∧ (v.follow wired patient).Told wired ∧
      (v.follow wired patient).Delivered ∧ (v.follow wired patient).Guarded patient := by
  have found : (ofConfig {}).route "POST" "/a.git/git-upload-pack" =
      .ok (.uploadPack ⟨⟨"unix:///var/run/git-backend/backend.sock", none⟩,
        ⟨"default", "a.git"⟩, []⟩) := by decide +kernel
  refine ⟨_, accept_of_route found, by decide +kernel, ?_⟩
  exact serves_every_client (ofConfig {}) Scene.brief.callListener Scene.brief.channelListener 0 0
    Scene.brief.body (accept_of_route found) patient

end Server
end PackRelay
