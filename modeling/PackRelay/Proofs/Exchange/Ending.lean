import PackRelay.Proofs.Exchange.Sound

/-! How an exchange comes to its end: the call or its sidechannel is not opened, or all
participants are over and the sidechannel is closed. Either way what failed and why it was
cancelled go together. -/
namespace PackRelay.Scene

open Exchange
open WiredBackend renaming backend → wired

variable {s : Scene} {now t n : Nat} {x x' y : Exchange WiredBackend} {a : Report}

/-- What an exchange is reported as that ends with its next step. -/
inductive Ending (s : Scene) (now : Nat) (x : Exchange WiredBackend) : Exchange WiredBackend → Prop
  | start (o : Opening) (e : OpeningError) (q : Context × Opening) :
    x.backend.call = .opening o → s.Untouched x →
      Opening.Step s.backend.callDestination now x.ctx o (.ready (.error e) q) →
      o.Sound s.backend.callDestination → x.phase = .starting →
      Ending s now x
        ((x.setBackend (q.1, x.backend.withCall (CallLine.opening q.2).drop)).failedStart
          (.ofOpening e))
  | dial (o : Opening) (e : OpeningError) (q : Context × Opening) :
    x.backend.channel = .opening o → s.Untouched x →
      Opening.Step s.backend.channelDestination now x.ctx o (.ready (.error e) q) →
      o.Sound s.backend.channelDestination → x.phase = .opening →
      Ending s now x
        ((x.setBackend (q.1, x.backend.withChannel (ChannelLine.opening q.2).drop)).failedDial
          (.ofOpening e))
  | close (c c' : Sidechannel) (v : Except SidechannelError Unit) :
    x.phase = .closing → s.Relays x c → x.results.inbound.isSome → x.results.outbound.isSome →
      x.results.reply.isSome → c.CloseStep now (.ready v c') →
      Ending s now x (x.setChannel c')

theorem Sound.ending (sound : s.Sound now x) (last : s.poll now x = .ready a x') :
    ∃ y, s.Ending now x y ∧ a = y.report wired ∧ x' = y.release wired := by
  simp only [Scene.poll] at last
  cases sound.stands with
  | starting o phase call opens channel untouched =>
    obtain ⟨p, step, same⟩ := poll_starting phase call (s.turns now x) now
    rw [sound.destinations.1] at step
    rw [same] at last
    cases p with
    | ready v q =>
      cases v with
      | ok k => cases last
      | error e =>
        cases last
        exact ⟨_, .start o e q call untouched step opens phase, rfl, rfl⟩
    | _ => cases last
  | opening k o phase call greeted channel opens untouched =>
    obtain ⟨p, step, same⟩ := poll_opening phase channel (s.turns now x) now
    rw [sound.destinations.2] at step
    rw [same] at last
    cases p with
    | ready v q =>
      cases v with
      | ok k => cases last
      | error e =>
        cases last
        exact ⟨_, .dial o e q channel untouched step opens phase, rfl, rfl⟩
    | _ => cases last
  | relaying c phase _ _ _ =>
    simp only [Exchange.poll, phase, pollRelaying] at last
    cases step : x.pollParticipants wired (s.turns now x) now <;> rw [step] at last <;> cases last
  | closing c phase relays inbound outbound reply held =>
    obtain ⟨p, step, same⟩ := poll_closing phase relays.channel (s.turns now x) now
    rw [same] at last
    cases p with
    | ready v c' =>
      cases last
      exact ⟨_, .close c c' v phase relays inbound outbound reply step, rfl, rfl⟩
    | _ => cases last

theorem Ending.id (sound : s.Sound now x) (ending : s.Ending now x y) : y.backend.id = s.id := by
  have same : x.backend.id = s.id := by
    rw [sound.backend]
    rfl
  cases ending <;> exact same

theorem Ending.kept (sound : s.Sound now x) (ending : s.Ending now x y) :
    Context.Kept s.context s.gone now y.ctx := by
  cases ending with
  | start o e q _ _ step _ _ | dial o e q _ _ step _ _ =>
    rcases step.context with same | same
    · exact same ▸ sound.ctx
    · exact same ▸ sound.ctx.check
  | close c c' v _ _ _ _ _ _ => exact sound.ctx

theorem Sound.not_done (sound : s.Sound now x) (untouched : s.Untouched x) :
    x.ctx.reason ≠ some .done := by
  intro done
  obtain ⟨e, only⟩ := sound.account.once done
  rw [untouched.results] at only
  cases only

theorem Sound.told_opening {d : Destination} {o : Opening} {e : OpeningError}
    {q : Context × Opening} (sound : s.Sound now x) (untouched : s.Untouched x)
    (step : Opening.Step d now x.ctx o (.ready (.error e) q)) :
    e.told = q.1.reason ∧ q.1.reason ≠ some .done := by
  have kept : Context.Kept s.context s.gone now q.1 := by
    rcases step.context with same | same
    · exact same ▸ sound.ctx
    · exact same ▸ sound.ctx.check
  refine ⟨step.told.trans kept.coherent.signal, ?_⟩
  rcases step.context with same | same
  · exact same ▸ sound.not_done untouched
  · have same : q.1 = (x.ctx.check now).2 := same
    rcases x.ctx.check_cases now with ⟨_, checked⟩ | ⟨r, ctx', _, checked, rfl | ⟨_, _, rfl⟩⟩
    · rw [same, checked]
      exact sound.not_done untouched
    · rw [same, checked]
      exact sound.not_done untouched
    · rw [same, checked]
      intro done
      have before := sound.not_done untouched
      cases reason : x.ctx.reason <;> simp_all

theorem Ending.account (sound : s.Sound now x) (ending : s.Ending now x y) :
    Account y.ctx.reason y.results ∨ Lone y.ctx.reason y.results := by
  cases ending with
  | start o e q _ untouched step _ _ =>
    obtain ⟨told, outside⟩ := sound.told_opening untouched step
    have told : (TransportError.call (.ofOpening e)).told = q.1.reason :=
      (CallError.told_ofOpening e).trans told
    have results := untouched.results
    refine .inr ⟨?_, ⟨.call (.ofOpening e), ?_, TransportError.isCancellation_of_untold⟩, ?_,
      outside⟩
    · simp [failedStart, setBackend, results, Results.joined, Results.replyError]
    · simp [failedStart, setBackend, results, Results.errors, Results.joined, Results.replyError]
    · simpa [failedStart, setBackend, results, Results.errors, Results.joined, Results.replyError]
        using told
  | dial o e q _ untouched step _ _ =>
    obtain ⟨told, outside⟩ := sound.told_opening untouched step
    have told : (TransportError.sidechannel (.ofOpening e)).told = q.1.reason :=
      (SidechannelError.told_ofOpening e).trans told
    have results := untouched.results
    refine .inr ⟨?_, ⟨.sidechannel (.ofOpening e), ?_, TransportError.isCancellation_of_untold⟩, ?_,
      outside⟩
    · simp [failedDial, setBackend, results, Results.joined, Results.replyError]
    · simp [failedDial, setBackend, results, Results.errors, Results.joined, Results.replyError]
    · simpa [failedDial, setBackend, results, Results.errors, Results.joined, Results.replyError]
        using told
  | close c c' v _ _ _ _ _ _ => exact .inl sound.account

theorem Ending.failures_le (sound : s.Sound now x) (ending : s.Ending now x y) :
    y.results.failures.length ≤ 1 := by
  rcases ending.account sound with account | lone
  · exact account.failures_le
  · exact lone.failures_le

theorem Ending.blame_eq (sound : s.Sound now x) (ending : s.Ending now x y)
    (inside : y.ctx.reason = none ∨ y.ctx.reason = some .done) :
    y.results.observed.blame = y.results.blame := by
  rcases ending.account sound with account | lone
  · exact account.blame_eq inside
  · exact lone.blame_eq (inside.resolve_right lone.outside)

theorem Ending.client_none (sound : s.Sound now x) (ending : s.Ending now x y)
    (gone : y.ctx.reason = some .clientAborted) : y.results.observed.client = none := by
  rcases ending.account sound with account | lone
  · exact account.client_none gone (fun is => nomatch is)
  · exact lone.client_none (by simp [gone])

theorem Ending.joined_le (sound : s.Sound now x) (ending : s.Ending now x y) :
    (y.results.joined.filter (fun e => !e.isCancellation)).length ≤ 1 := by
  rcases ending.account sound with account | lone
  · rw [account.joined_filter]
    exact account.failures_le
  · simp [lone.joined]

/-- An exchange that is over had one of these ends. -/
theorem ending_of_finished (concluded : s.after n = .finished t a x') :
    ∃ x y, s.Reaches t x ∧ s.Sound t x ∧ s.Ending t x y ∧ a = y.report wired ∧
      x' = y.release wired := by
  obtain ⟨x, reached, last⟩ := ended concluded
  have sound := sound_of_reaches reached
  obtain ⟨y, ending, reported, released⟩ := sound.ending last
  exact ⟨x, y, reached, sound, ending, reported, released⟩

/-- What holds of an exchange from its beginning, because no step takes it back. -/
structure Invariant (s : Scene) (I : Exchange WiredBackend → Prop) : Prop where
  start : I s.exchange
  step : ∀ now x, s.Sound now x → I x → (∀ a x', s.poll now x ≠ .ready a x') →
    I (s.poll now x).state
  /-- It does not depend on the context, which is looked after beside the steps. -/
  look : ∀ x ctx, I x → I { x with ctx }

variable {I P : Exchange WiredBackend → Prop}

theorem Invariant.trivial (s : Scene) : s.Invariant fun _ => True :=
  ⟨.intro, fun _ _ _ _ _ => .intro, fun _ _ _ => .intro⟩

theorem Invariant.reached (inv : s.Invariant I) (reached : s.Reaches t x) : I x := by
  refine (keeps (I := fun now x => s.Sound now x ∧ I x) (fun now x now' x' here turn => ?_)
    ⟨s.sound_start, inv.start⟩ reached).2
  refine ⟨here.1.turn turn, ?_⟩
  rcases turn.state with ⟨ctx, rfl⟩ | ⟨ongoing, rfl | ⟨ctx, rfl⟩⟩
  · exact inv.look x ctx here.2
  · exact inv.step now x here.1 here.2 ongoing
  · exact inv.look _ ctx (inv.step now x here.1 here.2 ongoing)

/-- What follows from an invariant, and holds of every end, holds however far an exchange has come.
-/
theorem Invariant.after (inv : s.Invariant I) (here : ∀ now x, s.Sound now x → I x → P x)
    (ends : ∀ now x y, s.Sound now x → I x → s.Ending now x y → P y)
    (release : ∀ x, P x → P (x.release wired)) (n : Nat) : P (s.after n).state := by
  have came := s.comes n
  generalize s.after n = r at came
  cases came with
  | unfinished reached => exact here _ _ (sound_of_reaches reached) (inv.reached reached)
  | @concluded now x r reached last =>
    have sound := sound_of_reaches reached
    have kept := inv.reached reached
    have polled : (∀ a x', s.poll now x ≠ .ready a x') → P (s.poll now x).state := fun ongoing =>
      here now _ (sound.poll ongoing) (inv.step now x sound kept ongoing)
    cases last with
    | finished step =>
      obtain ⟨y, ending, _, rfl⟩ := sound.ending step
      exact release y (ends now x y sound kept ending)
    | crashed step =>
      rw [step] at polled
      exact release _ (polled fun _ _ is => nomatch is)
    | stuck step _ _ =>
      rw [step] at polled
      exact polled fun _ _ is => nomatch is

end PackRelay.Scene
