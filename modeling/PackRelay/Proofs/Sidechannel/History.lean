import PackRelay.Proofs.Sidechannel.Session

/-! Whole histories of a sidechannel: what holds of it after any sequence of commands, under whatever
cancels the context meanwhile. -/
namespace PackRelay.Sidechannel

namespace Session

variable {s s' : Session} {around : Surroundings} {reply : Reply} {c : Command}
    {commands : List (Command × Surroundings)} {log : List (Command × Reply)}

/-- The commands one after another, with what each was answered. -/
def follow (s : Session) : List (Command × Surroundings) → Option (List (Command × Reply) × Session)
  | [] => some ([], s)
  | (c, around) :: rest =>
    (s.perform c around).bind fun (r, s) => (follow s rest).map fun (log, s) => ((c, r) :: log, s)

theorem follow_cons {rest : List (Command × Surroundings)}
    (ran : s.follow ((c, around) :: rest) = some (log, s')) :
    ∃ r t log', s.perform c around = some (r, t) ∧ t.follow rest = some (log', s') ∧
      log = (c, r) :: log' := by
  simp only [follow, Option.bind_eq_some_iff, Option.map_eq_some_iff] at ran
  obtain ⟨⟨r, t⟩, performed, ⟨log', _⟩, followed, is⟩ := ran
  cases is
  exact ⟨r, t, log', performed, followed, rfl⟩

/-- What holds of a channel between two commands. -/
structure Sound (s : Session) : Prop where
  coherent : s.ctx.Coherent
  counted : s.channel.Counted
  released : s.channel.connection.sink.released = !s.channel.isOpen
  unlimited : s.channel.closeLimit = none
  /-- The writing side is shut down once at most, and not before it is closed. -/
  shutdowns : s.channel.connection.sink.shutdowns ≤
    if s.channel.isOpen && !s.channel.writeClosed then 0 else 1
  dropped : s.dropped = true → s.channel.isOpen = false

/-- What is left later of what there was before, if the connection was given up meanwhile or not. -/
structure Leaves (ended : Bool) (s s' : Session) : Prop where
  heeds : s.ctx.Heeds s'.ctx
  isOpen : s'.channel.isOpen = (s.channel.isOpen && !ended)
  /-- Where the writing side was closed the stream gets nothing more. -/
  halfClosed : s.channel.writeClosed = true → s'.channel.writeClosed = true ∧
    { s'.channel.connection.sink with released := s.channel.connection.sink.released } =
      s.channel.connection.sink

theorem Sound.onward (sound : s.Sound) (onward : s.channel.Onward s'.channel)
    (heeds : s.ctx.Heeds s'.ctx) (same : s'.dropped = s.dropped) : s'.Sound where
  coherent := heeds.coherent sound.coherent
  counted := sound.counted.of_alike onward.alike
  released := by rw [onward.released, onward.alike.isOpen, sound.released]
  unlimited := onward.closeLimit.trans sound.unlimited
  shutdowns := by
    have before := sound.shutdowns
    cases held : s.channel.isOpen with
    | false => rwa [onward.shut held]
    | true =>
      rw [onward.alike.isOpen, held]
      rw [held] at before
      cases half : s.channel.writeClosed with
      | true =>
        obtain ⟨stays, sink⟩ := onward.halfClosed half
        rw [half] at before
        rwa [sink, stays]
      | false =>
        rw [half] at before
        rw [onward.shutdowns half, Nat.le_zero.1 before]
        cases s'.channel.writeClosed <;> decide
  dropped gone := by rw [onward.alike.isOpen, sound.dropped (same ▸ gone)]

theorem onward_leaves (onward : s.channel.Onward s'.channel) (heeds : s.ctx.Heeds s'.ctx) :
    Leaves false s s' where
  heeds := heeds
  isOpen := by rw [onward.alike.isOpen, Bool.not_false, Bool.and_true]
  halfClosed half := by
    obtain ⟨closed, sink⟩ := onward.halfClosed half
    exact ⟨closed, by rw [sink]⟩

/-- Nothing but the context and the clock has changed. -/
theorem Sound.same_channel (sound : s.Sound) (heeds : s.ctx.Heeds s'.ctx)
    (same : s'.channel = s.channel) (dropped : s'.dropped = s.dropped) :
    s'.Sound ∧ Leaves false s s' := by
  have onward : s.channel.Onward s'.channel := same ▸ .refl s.channel
  exact ⟨sound.onward onward heeds dropped, onward_leaves onward heeds⟩

theorem leaves_shut (ended : Bool) (shut : s.channel.isOpen = false) : Leaves ended s s where
  heeds := .refl s.ctx
  isOpen := by rw [shut, Bool.false_and]
  halfClosed half := ⟨half, rfl⟩

theorem Sound.gone (sound : s.Sound) (dropped : s.dropped = true) (uses : c.uses = true)
    (performed : s.perform c around = some (reply, s')) : s'.Sound ∧ Leaves c.ends s s' := by
  have same : s' = s := by
    cases c with
    | drop | cancel _ | advance _ => cases uses
    | _ =>
      simp only [perform, dropped, if_true, Option.some.injEq, Prod.mk.injEq] at performed
      exact performed.2.symm
  rw [same]
  exact ⟨sound, leaves_shut _ (sound.dropped dropped)⟩

theorem Sound.close (sound : s.Sound) (present : s.dropped = false)
    (performed : s.perform .close around = some (reply, s')) : s'.Sound ∧ Leaves true s s' := by
  cases held : s.channel.isOpen with
  | false =>
    rw [close_shut present held sound.unlimited] at performed
    cases performed
    exact ⟨sound, leaves_shut _ held⟩
  | true =>
    obtain ⟨k, is, heeds, _, _, stays, once, _⟩ :=
      close_spec present held sound.unlimited performed
    have counted := sound.counted
    have before := sound.shutdowns
    rw [Counted, held] at counted
    rw [held] at before
    have last : k.shutdowns ≤ 1 := by
      cases half : s.channel.writeClosed with
      | true =>
        rw [half] at before
        rwa [stays half]
      | false =>
        rw [half] at before
        exact le_trans once (Nat.succ_le_succ before)
    rw [is]
    refine ⟨⟨heeds.coherent sound.coherent, ?_, rfl, rfl, last, fun _ => rfl⟩, heeds, ?_, ?_⟩
    · exact congrArg (· + 1) counted
    · rw [held]
      rfl
    · exact fun half => ⟨half, by rw [stays half]; rfl⟩

theorem drop_eq (c : Sidechannel) : c.drop =
    { c.letGo with isOpen := false, closeCount := c.closeCount + if c.isOpen then 1 else 0 } := by
  cases held : c.isOpen <;> simp [Sidechannel.drop, Sidechannel.letGo, held]

theorem Sound.drop (sound : s.Sound) (performed : s.perform .drop around = some (reply, s')) :
    s'.Sound ∧ Leaves true s s' := by
  cases present : s.dropped with
  | true =>
    have same : s' = s := by
      simp only [perform, present, if_true, Option.some.injEq, Prod.mk.injEq] at performed
      rw [← performed.2, ← present]
    rw [same]
    exact ⟨sound, leaves_shut _ (sound.dropped present)⟩
  | false =>
    have is : s' = { s with dropped := true, channel := s.channel.drop } := by
      simp only [perform, present, Bool.false_eq_true, if_false, Option.some.injEq, Prod.mk.injEq]
        at performed
      exact performed.2.symm
    obtain ⟨shut, once, _⟩ := sound.counted.drop
    have last : s.channel.connection.sink.shutdowns ≤ 1 := by
      have before := sound.shutdowns
      split at before
      · omega
      · exact before
    rw [is]
    refine ⟨⟨sound.coherent, ?_, ?_, ?_, ?_, fun _ => shut⟩, .refl s.ctx, ?_, ?_⟩
    · rw [Counted, once, shut]
      rfl
    · rw [drop_eq]
      rfl
    · rw [drop_eq]
      rfl
    · rw [drop_eq]
      exact last
    · rw [shut]
      exact (Bool.and_false _).symm
    · rw [drop_eq]
      exact fun half => ⟨half, rfl⟩

theorem Sound.step (sound : s.Sound) (performed : s.perform c around = some (reply, s')) :
    s'.Sound ∧ Leaves c.ends s s' := by
  cases c with
  | read _ | write _ | writeAll _ | closeWrite | duplex _ _ =>
    cases present : s.dropped with
    | true => exact sound.gone present rfl performed
    | false =>
      obtain ⟨onward, heeds, same⟩ := perform_onward present rfl rfl performed
      exact ⟨sound.onward onward heeds same, onward_leaves onward heeds⟩
  | close =>
    cases present : s.dropped with
    | true => exact sound.gone present rfl performed
    | false => exact sound.close present performed
  | drop => exact sound.drop performed
  | cancel r =>
    cases performed
    exact sound.same_channel (.cancel s.ctx r) rfl rfl
  | advance ms =>
    obtain ⟨t, slept, is⟩ := Option.map_eq_some_iff.1 performed
    cases is
    obtain ⟨same, heeds⟩ := sleep_eq slept
    have settled : t.ctx.Heeds (t.settle around).ctx := by
      simp only [settle]
      cases seen : t.ctx.watch around.outside t.now with
      | none => exact .refl t.ctx
      | some ctx => exact .watch seen
    refine sound.same_channel (heeds.trans settled) ?_ ?_
    · rw [same]
      rfl
    · rw [same]
      rfl

theorem Leaves.trans {t : Session} {ended later : Bool} (one : Leaves ended s t)
    (two : Leaves later t s') : Leaves (ended || later) s s' where
  heeds := one.heeds.trans two.heeds
  isOpen := by rw [two.isOpen, one.isOpen, Bool.and_assoc, Bool.not_or]
  halfClosed half := by
    obtain ⟨closed, sink⟩ := one.halfClosed half
    obtain ⟨closed', sink'⟩ := two.halfClosed closed
    refine ⟨closed', ?_⟩
    rw [← sink, ← sink']

theorem Sound.follow (sound : s.Sound) (ran : s.follow commands = some (log, s')) :
    s'.Sound ∧ Leaves (commands.any (·.1.ends)) s s' := by
  induction commands generalizing s log with
  | nil =>
    cases ran
    exact ⟨sound, .refl _, (Bool.and_true _).symm, fun half => ⟨half, rfl⟩⟩
  | cons p rest ih =>
    obtain ⟨r, t, log', performed, followed, rfl⟩ := follow_cons ran
    obtain ⟨kept, leaves⟩ := sound.step performed
    obtain ⟨last, rest_leaves⟩ := ih kept followed
    exact ⟨last, leaves.trans rest_leaves⟩

theorem follow_append {before rest : List (Command × Surroundings)} {log₁ : List (Command × Reply)}
    {t : Session} (ran : s.follow (before ++ rest) = some (log, s'))
    (first : s.follow before = some (log₁, t)) :
    ∃ log₂, t.follow rest = some (log₂, s') ∧ log = log₁ ++ log₂ := by
  induction before generalizing s log log₁ with
  | nil =>
    cases first
    exact ⟨log, ran, rfl⟩
  | cons p before ih =>
    obtain ⟨r, x, logx, performed, followed, rfl⟩ := follow_cons ran
    obtain ⟨r', x', logx', performed', followed', rfl⟩ := follow_cons first
    rw [performed] at performed'
    cases performed'
    obtain ⟨log₂, onward, rfl⟩ := ih followed followed'
    exact ⟨log₂, onward, rfl⟩

/-- What comes of every operation on the channel, whatever cancels the context meanwhile. -/
structure Disciplined (s : Session) : Prop where
  /-- Where the channel was closed, the stream is not touched any more. -/
  closed : s.dropped = false → s.channel.isOpen = false → ∀ around,
    (∀ c : Command, c.transfers = true → s.perform c around = some (.failed .closed, s)) ∧
    s.perform .close around = some (.done, s)
  halfClosed : s.dropped = false → s.channel.isOpen = true → s.channel.writeClosed = true →
    ∀ around,
      (∀ bs, s.perform (.write bs) around = some (.failed .closed, s) ∧
        s.perform (.writeAll bs) around = some (.failed .closed, s)) ∧
      s.perform .closeWrite around = some (.done, s)
  /-- Reading goes on as if the writing side had not been closed. -/
  reads : ∀ b room around, (s.flagged b).perform (.read room) around =
    (s.perform (.read room) around).map fun (r, s') => (r, s'.flagged b)
  /-- Where the context is cancelled, neither is the stream touched. -/
  cancelled : s.dropped = false → s.channel.isOpen = true → ∀ r, s.ctx.reason = some r →
    ∀ around (c : Command), c.transfers = true →
      (∃ room, c = .read room) ∨ s.channel.writeClosed = false →
      s.perform c around = some (.failed (.cancelled r), s)
  /-- Whatever is cancelled says the reason that is recorded by then. -/
  told : s.dropped = false → ∀ (c : Command) around r s', c.transfers = true →
    s.perform c around = some (.failed (.cancelled r), s') → s'.ctx.reason = some r
  /-- Closing the writing side works, or leaves it open. Unless it was cancelled the stream was
  asked. -/
  closesWrite : s.dropped = false → s.channel.isOpen = true → s.channel.writeClosed = false →
    ∀ around reply s', s.perform .closeWrite around = some (reply, s') →
      s'.channel.isOpen = true ∧
      ((reply = .done ∧ s'.channel.writeClosed = true ∧
        s'.channel.connection.sink.shutdowns = s.channel.connection.sink.shutdowns + 1) ∨
      ∃ e, reply = .failed e ∧ s'.channel.writeClosed = false ∧
        s'.channel.connection.sink.shutdowns = s.channel.connection.sink.shutdowns ∧
        (s'.channel.connection.sink.shutdownTurns =
          s.channel.connection.sink.shutdownTurns + 1 ∨
          ∃ r, e = .cancelled r ∧ s'.ctx.reason = some r))
  /-- Closing gives the connection up, whatever becomes of the shutdown. Unless the writing side was
  closed before, the stream is asked, and waited for no longer than a second. -/
  closes : s.dropped = false → s.channel.isOpen = true → ∀ around,
    ((∀ turns, (s.channel.connection.sink.plan.shutdown turns).answer ≠ .crash) →
      ∃ reply s', s.perform .close around = some (reply, s')) ∧
    ∀ reply s', s.perform .close around = some (reply, s') →
      s'.channel.isOpen = false ∧ s'.channel.closeCount = 1 ∧
      s'.channel.connection.sink.released = true ∧ s'.now ≤ s.now + closePatience ∧
      (s.channel.writeClosed = true →
        s'.channel.connection.sink = s.channel.connection.sink.release) ∧
      (s.channel.writeClosed = false → s'.channel.connection.sink.shutdownTurns =
        s.channel.connection.sink.shutdownTurns + 1 ∨ s'.now = s.now + closePatience)

theorem Sound.disciplined (sound : s.Sound) : s.Disciplined where
  closed present shut around :=
    ⟨fun _ transfers => perform_shut present shut transfers around,
      close_shut present shut sound.unlimited around⟩
  halfClosed present held half around := perform_half present held half around
  reads b room around := read_flagged b room s around
  cancelled present held r recorded around c transfers usable :=
    perform_cancelled present held (sound.coherent.signal.trans recorded) transfers usable around
  told present c around r s' transfers performed :=
    perform_told transfers present sound.coherent performed
  closesWrite present held unclosed around reply s' performed := by
    obtain ⟨k, _, ⟨rfl, is, shut⟩ | ⟨e, rfl, is, same, asked⟩⟩ :=
      closeWrite_spec sound.coherent present held unclosed performed
    · rw [is]
      exact ⟨held, .inl ⟨rfl, rfl, shut⟩⟩
    · rw [is]
      exact ⟨held, .inr ⟨e, rfl, unclosed, same, asked⟩⟩
  closes present held around := by
    refine ⟨fun calm => close_returns present calm around, fun reply s' performed => ?_⟩
    obtain ⟨k, is, _, soon, _, stays, _, asked⟩ :=
      close_spec present held sound.unlimited performed
    have counted := sound.counted
    rw [Counted, held] at counted
    rw [is]
    exact ⟨rfl, congrArg (· + 1) counted, rfl, soon, fun half => by rw [stays half]; rfl, asked⟩

theorem closed_of_done (sound : s.Sound)
    (performed : s.perform .closeWrite around = some (.done, s')) :
    s'.channel.writeClosed = true := by
  cases present : s.dropped with
  | true => simp [perform, present] at performed
  | false =>
    cases held : s.channel.isOpen with
    | false =>
      rw [perform_shut present held rfl] at performed
      cases performed
    | true =>
      cases half : s.channel.writeClosed with
      | true =>
        rw [(perform_half present held half around).2] at performed
        cases performed
        exact half
      | false =>
        obtain ⟨_, ⟨_, closed, _⟩ | ⟨e, is, _⟩⟩ :=
          sound.disciplined.closesWrite present held half around _ _ performed
        · exact closed
        · cases is

theorem Sound.closed_of_done (sound : s.Sound) (ran : s.follow commands = some (log, s'))
    (worked : (.closeWrite, .done) ∈ log) : s'.channel.writeClosed = true := by
  induction commands generalizing s log with
  | nil =>
    cases ran
    cases worked
  | cons p rest ih =>
    obtain ⟨r, t, log', performed, followed, rfl⟩ := follow_cons ran
    obtain ⟨kept, _⟩ := sound.step performed
    rcases List.mem_cons.1 worked with is | later
    · obtain ⟨c, around⟩ := p
      cases is
      exact ((kept.follow followed).2.halfClosed (Session.closed_of_done sound performed)).1
    · exact ih kept followed later

/-- The connection is given up by the first close or drop and not again, and then it is released. Its
writing side is shut down once at most. Once it was closed, the stream gets nothing more, whatever is
done; until then, whoever closes it asks again. -/
theorem disciplined_history (start : Nat) {ctx : Context} (coherent : ctx.Coherent)
    (id : SidechannelId) {k : Connection} (fresh : k.sink.shutdowns = 0)
    (held : k.sink.released = false)
    (ran : (Session.mk start ctx { id, connection := k } false).follow commands = some (log, s)) :
    s.channel.closeCount = (if commands.any (·.1.ends) then 1 else 0) ∧
    s.channel.isOpen = !commands.any (·.1.ends) ∧
    s.channel.connection.sink.released = commands.any (·.1.ends) ∧
    s.channel.connection.sink.shutdowns ≤ 1 ∧ s.Disciplined ∧
    ((.closeWrite, .done) ∈ log → s.channel.writeClosed = true) ∧
    ∀ before rest log₁ t, commands = before ++ rest →
      (Session.mk start ctx { id, connection := k } false).follow before = some (log₁, t) →
      t.channel.writeClosed = true → s.channel.writeClosed = true ∧
        { s.channel.connection.sink with released := t.channel.connection.sink.released } =
          t.channel.connection.sink := by
  have sound : (Session.mk start ctx { id, connection := k } false).Sound :=
    ⟨coherent, rfl, held, rfl, le_of_eq fresh, nofun⟩
  obtain ⟨kept, leaves⟩ := sound.follow ran
  have isOpen : s.channel.isOpen = !commands.any (·.1.ends) :=
    leaves.isOpen.trans (Bool.true_and _)
  have counted := kept.counted
  have released := kept.released
  rw [Counted, isOpen] at counted
  rw [isOpen, Bool.not_not] at released
  refine ⟨?_, isOpen, released, ?_, kept.disciplined, sound.closed_of_done ran, ?_⟩
  · rw [counted]
    cases commands.any (·.1.ends) <;> rfl
  · have shutdowns := kept.shutdowns
    split at shutdowns
    · omega
    · exact shutdowns
  · rintro before rest log₁ t rfl first half
    obtain ⟨log₂, onward, _⟩ := follow_append ran first
    exact ((sound.follow first).1.follow onward).2.halfClosed half

/-- It takes a while for its first octets and two at a time. The first shutdown fails, and the next
one hangs. -/
def hesitant : Connection where
  source := .ofEvents [.data [1, 2], .hang]
  sink.plan.write turns _ := ⟨if turns = 0 then 5 else 0, .accept (some 2)⟩
  sink.plan.shutdown turns :=
    if turns = 0 then { answer := .fail ⟨.other, "busy"⟩ } else { answer := .hang }

/-- The context is cancelled while the writing side is being closed for the second time. -/
def insistent : List (Command × Surroundings) :=
  [(.writeAll [7, 8, 9], {}), (.closeWrite, {}), (.read 1, {}),
    (.closeWrite, { outside := some ⟨20, .clientAborted⟩ }), (.write [5], {}), (.close, {}),
    (.drop, {})]

def begun : Session where
  ctx := .start 0 5000000
  channel := { id := ⟨⟨List.replicate 32 ⟨7, by decide⟩, rfl⟩⟩, connection := hesitant }

theorem disciplined_history_insistent :
    ∃ log s, begun.follow insistent = some (log, s) ∧ s.channel.closeCount = 1 ∧
      s.channel.connection.sink.released = true ∧ s.Disciplined := by
  have ends : (begun.follow insistent).isSome = true := by decide +kernel
  obtain ⟨⟨log, s⟩, ran⟩ := Option.isSome_iff_exists.1 ends
  obtain ⟨once, _, released, _, disciplined, _⟩ :=
    disciplined_history 0 (rfl : Context.Coherent (.start 0 5000000)) _ (k := hesitant) rfl rfl ran
  exact ⟨log, s, ran, once, released, disciplined⟩

end Session
end PackRelay.Sidechannel
