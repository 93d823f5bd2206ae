import PackRelay.Backend.Opening
import PackRelay.Proofs.Context.Basic
import PackRelay.Proofs.Exchange.Told
import PackRelay.Proofs.Wire.Frame

/-! Opening a connection. Whatever happens to it, what was sent of the hello is where it belongs;
a cancelled context ends the opening at once, and only a cancelled context makes it tell of a
cancellation. -/
namespace PackRelay.Opening

variable {d : Destination} {now : Nat} {ctx : Context} {o : Opening} {r : CancelReason}
    {c : Connection}
  {p : Poll (Context × Opening) (Except OpeningError Connection)}

/-- All that one step of opening a connection can do. -/
inductive Step (d : Destination) (now : Nat) (ctx : Context) :
    Opening → Poll (Context × Opening) (Except OpeningError Connection) → Prop
  | late (e : OpeningError) (r : CancelReason) (ctx' : Context) :
    ctx'.signal = some r → ctx.check now = (.error r, ctx') → e.told = some r →
      Step d now ctx (.dialing .fresh) (.ready (.error e) (ctx', .dialing .fresh))
  | dials (place : Address) (limit : Nat) :
    ctx.signal = none → d.descriptor.place = .ok place → Step d now ctx (.dialing .fresh)
      (.more (ctx, .dialing (.dialing place none limit)))
  | stops (o : Opening) (e : OpeningError) (r : CancelReason) :
    ctx.signal = some r → e.told = some r → Step d now ctx o (.ready (.error e) (ctx, o))
  | awaits (place : Address) (wake wake' : Option Nat) (limit : Nat) (alarm : Option Nat) :
    ctx.signal = none →
      Step d now ctx (.dialing (.dialing place wake limit))
        (.waiting (ctx, .dialing (.dialing place wake' limit)) alarm)
  | fails (k : Connecting) (e : ConnectError) :
    ctx.signal = none → (OpeningError.connect e).told = none → Step d now ctx (.dialing k)
      (.ready (.error (.connect e)) (ctx, .dialing k))
  | overlong (place : Address) (wake : Option Nat) (limit : Nat) (c : Connection) (e : Wire.Error) :
    ctx.signal = none → d.dial.answer = .connected c → Wire.frame d.hello = .error e →
      Step d now ctx (.dialing (.dialing place wake limit))
        (.ready (.error (.wire e)) (ctx, .greeting (.sending []) c))
  | meets (place : Address) (wake : Option Nat) (limit : Nat) (bs : Bytes) (c : Connection) :
    ctx.signal = none → d.dial.answer = .connected c → Wire.frame d.hello = .ok bs →
      Step d now ctx (.dialing (.dialing place wake limit)) (.more (ctx, .greeting (.sending bs) c))
  | sends (w w' : Wire.Writing) (c : Connection) (s : Sink) :
    ctx.signal = none → Wire.Writing.Step c.sink w (.more (w', s)) →
      Step d now ctx (.greeting w c) (.more (ctx, .greeting w' (c.setSink s)))
  | stalls (w w' : Wire.Writing) (c : Connection) (s : Sink) (alarm : Option Nat) :
    ctx.signal = none → Wire.Writing.Step c.sink w (.waiting (w', s) alarm) →
      Step d now ctx (.greeting w c) (.waiting (ctx, .greeting w' (c.setSink s)) alarm)
  | sent (w w' : Wire.Writing) (c : Connection) (s : Sink) :
    ctx.signal = none → Wire.Writing.Step c.sink w (.ready (.ok ()) (w', s)) →
      Step d now ctx (.greeting w c) (.ready (.ok (c.setSink s)) (ctx, .greeting w' (c.setSink s)))
  | sendFails (e : Wire.Error) (w w' : Wire.Writing) (c : Connection) (s : Sink) :
    ctx.signal = none → Wire.Writing.Step c.sink w (.ready (.error e) (w', s)) →
      Step d now ctx (.greeting w c) (.ready (.error (.wire e)) (ctx, .greeting w' (c.setSink s)))
  | sendCrashes (w w' : Wire.Writing) (c : Connection) (s : Sink) :
    ctx.signal = none → Wire.Writing.Step c.sink w (.crashed (w', s)) →
      Step d now ctx (.greeting w c) (.crashed (ctx, .greeting w' (c.setSink s)))

theorem pollDialing_fresh (d : Destination) (now : Nat) (ctx : Context) :
    Step d now ctx (.dialing .fresh) (pollDialing d now ctx .fresh) := by
  simp only [pollDialing, Connecting.poll]
  rcases ctx.check_cases now with ⟨silent, checked⟩ | ⟨r, ctx', stopped, checked, _⟩
  · rw [checked]
    cases named : d.descriptor.place with
    | error e => exact .fails .fresh (.address e) silent rfl
    | ok place => exact .dials place _ silent named
  · rw [checked]
    exact .late _ r ctx' stopped checked rfl

theorem pollDialing_dialing (d : Destination) (now : Nat) (ctx : Context) (place : Address)
    (wake : Option Nat) (limit : Nat) :
    Step d now ctx (.dialing (.dialing place wake limit))
      (pollDialing d now ctx (.dialing place wake limit)) := by
  simp only [pollDialing, Connecting.poll]
  cases signal : ctx.signal with
  | some r => exact .stops _ _ r signal rfl
  | none =>
    simp only [Connecting.progress]
    cases pause now d.dial.delay wake with
    | some t =>
      simp only
      split
      · exact .fails _ (.timeout place.text d.patience) signal rfl
      · exact .awaits place wake _ limit _ signal
    | none =>
      cases answer : d.dial.answer with
      | connected c =>
        simp only [Poll.into_ready]
        cases framed : Wire.frame d.hello with
        | error e => exact .overlong place wake limit c e signal answer framed
        | ok bs => exact .meets place wake limit bs c signal answer framed
      | failed e => exact .fails _ (.io place.text e) signal rfl
      | never =>
        simp only
        split
        · exact .fails _ (.timeout place.text d.patience) signal rfl
        · exact .awaits place wake _ limit _ signal

theorem pollGreeting_step (d : Destination) (now : Nat) (ctx : Context) (w : Wire.Writing)
    (c : Connection) :
    Step d now ctx (.greeting w c) (pollGreeting now ctx w c) := by
  simp only [pollGreeting]
  cases signal : ctx.signal with
  | some r =>
    rw [Context.guard_of_signal signal]
    exact .stops (.greeting w c) (.cancelled r) r signal rfl
  | none =>
    have step := w.poll_step now c.sink
    rw [Context.guard_of_silent signal]
    generalize w.poll now c.sink = q at step ⊢
    cases q with
    | ready value p =>
      cases value with
      | error e => exact .sendFails e w p.1 c p.2 signal step
      | ok _ => exact .sent w p.1 c p.2 signal step
    | more p => exact .sends w p.1 c p.2 signal step
    | waiting p alarm => exact .stalls w p.1 c p.2 alarm signal step
    | crashed p => exact .sendCrashes w p.1 c p.2 signal step

theorem poll_step (d : Destination) (now : Nat) (ctx : Context) (o : Opening) :
    Step d now ctx o (o.poll d now ctx) := by
  cases o with
  | dialing k =>
    cases k with
    | fresh => exact pollDialing_fresh d now ctx
    | dialing place wake limit => exact pollDialing_dialing d now ctx place wake limit
  | greeting w c => exact pollGreeting_step d now ctx w c

theorem Step.context (h : Step d now ctx o p) :
    p.state.1 = ctx ∨ p.state.1 = (ctx.check now).2 := by
  cases h with
  | late e r ctx' _ checked _ => exact .inr (by rw [checked]; rfl)
  | _ => exact .inl rfl

theorem Step.context_eq (h : Step d now ctx o p) (unfailing : ∀ e q, p ≠ .ready (.error e) q) :
    p.state.1 = ctx := by
  cases h with
  | late _ _ _ _ _ _ => exact absurd rfl (unfailing _ _)
  | _ => rfl

theorem Step.stopped (h : Step d now ctx o p) (stopped : ctx.signal = some r) :
    ∃ e, p = .ready (.error e) (ctx, o) := by
  cases h with
  | late e r' ctx' _ checked _ =>
    rcases ctx.check_cases now with ⟨silent, _⟩ | ⟨r'', ctx'', _, checked', rfl | ⟨silent, _⟩⟩
    · rw [silent] at stopped
      cases stopped
    · rw [checked'] at checked
      cases checked
      exact ⟨_, rfl⟩
    · rw [silent] at stopped
      cases stopped
  | stops e r' _ _ => exact ⟨_, rfl⟩
  | _ =>
    rename_i silent _
    simp_all

theorem Step.told {e : OpeningError} {q : Context × Opening}
    (h : Step d now ctx o (.ready (.error e) q)) :
    e.told = q.1.signal := by
  cases h with
  | late e r ctx' stopped _ told => exact told.trans stopped.symm
  | stops e _ r stopped told => exact told.trans stopped.symm
  | fails k e silent told => exact told.trans silent.symm
  | overlong _ _ _ c e silent _ _ => exact silent.symm
  | sendFails e w w' c s silent _ => exact silent.symm

theorem Step.silent (h : Step d now ctx o p) (ongoing : ∀ a q, p ≠ .ready a q) :
    ctx.signal = none := by
  cases signal : ctx.signal with
  | none => rfl
  | some r =>
    obtain ⟨e, rfl⟩ := h.stopped signal
    exact absurd rfl (ongoing _ _)

theorem Step.begun (h : Step d now ctx o p) : begun o p.state.2 = [] ∨ ∃ q, p = .more (ctx, q) := by
  cases h with
  | dials place limit _ _ => exact .inr ⟨_, rfl⟩
  | meets place wake limit bs c _ _ _ => exact .inr ⟨_, rfl⟩
  | sends w w' c s _ _ => exact .inr ⟨_, rfl⟩
  | fails k e _ _ => exact .inl (by cases k <;> rfl)
  | stops o e r _ _ =>
    refine .inl ?_
    cases o with
    | dialing k => cases k <;> rfl
    | greeting w c => rfl
  | _ => exact .inl rfl

/-- A connection that a dial led to, and to which no more than a part of the hello was sent. -/
def Begun (d : Destination) (c : Connection) : Prop :=
  ∃ c₀, d.dial.answer = .connected c₀ ∧ c.source = c₀.source ∧ c.sink.shutdowns =
    c₀.sink.shutdowns ∧
    (c.sink.written = c₀.sink.written ∨
      ∃ bs, Wire.frame d.hello = .ok bs ∧ c.sink.written <+: c₀.sink.written ++ bs)

/-- A connection that a dial led to, and to which the hello was sent. -/
def Greeted (d : Destination) (c : Connection) : Prop :=
  ∃ c₀ bs, d.dial.answer = .connected c₀ ∧ Wire.frame d.hello = .ok bs ∧ c.source = c₀.source ∧
    c.sink.written = c₀.sink.written ++ bs ∧ c.sink.shutdowns = c₀.sink.shutdowns ∧
      c.sink.plan = c₀.sink.plan

def Sound (d : Destination) : Opening → Prop
  | .dialing _ => True
  | .greeting w c =>
    ∃ c₀ bs, d.dial.answer = .connected c₀ ∧ Wire.frame d.hello = .ok bs ∧ c.source = c₀.source ∧
      Wire.Writing.Sound c₀.sink bs w c.sink

theorem Sound.begun {w : Wire.Writing} (sound : Sound d (.greeting w c)) : Begun d c := by
  obtain ⟨c₀, bs, answer, framed, source, sent⟩ := sound
  exact ⟨c₀, answer, source, sent.shutdowns, .inr ⟨bs, framed, w.rest, sent.written⟩⟩

theorem Sound.sends {w w' : Wire.Writing} {s : Sink}
    {q : Poll (Wire.Writing × Sink) (Except Wire.Error Unit)}
    (sound : Sound d (.greeting w c)) (step : Wire.Writing.Step c.sink w q)
    (left : q.state = (w', s)) :
    Sound d (.greeting w' (c.setSink s)) := by
  obtain ⟨c₀, bs, answer, framed, source, sent⟩ := sound
  have kept := step.sound sent
  rw [left] at kept
  exact ⟨c₀, bs, answer, framed, source, kept⟩

theorem Step.sound (h : Step d now ctx o p) (sound : o.Sound d)
    (unfailing : ∀ e q, p ≠ .ready (.error e) q) :
    p.state.2.Sound d := by
  cases h with
  | dials _ _ _ _ => trivial
  | awaits _ _ _ _ _ _ => trivial
  | meets place wake limit bs c _ answer framed =>
    exact ⟨c, bs, answer, framed, rfl, rfl, rfl, rfl⟩
  | sends _ _ _ _ _ step | stalls _ _ _ _ _ _ step | sent _ _ _ _ _ step
  | sendCrashes _ _ _ _ _ step =>
    exact sound.sends step rfl
  | _ => exact absurd rfl (unfailing _ _)

theorem Step.greeted {q : Context × Opening} (h : Step d now ctx o (.ready (.ok c) q))
    (sound : o.Sound d) :
    Greeted d c := by
  cases h with
  | sent w w' c s _ step =>
    obtain ⟨c₀, bs, answer, framed, source, sent⟩ := sound
    have kept := step.sound sent
    exact ⟨c₀, bs, answer, framed, source, step.all_written sent, kept.shutdowns, kept.plan⟩

theorem Step.connection_begun (h : Step d now ctx o p) (sound : o.Sound d)
    (there : p.state.2.connection? = some c) :
    Begun d c := by
  cases h with
  | late _ _ _ _ _ _ => cases there
  | dials _ _ _ _ => cases there
  | awaits _ _ _ _ _ _ => cases there
  | fails _ _ _ _ => cases there
  | stops o _ _ _ _ =>
    cases o with
    | dialing _ => cases there
    | greeting w k =>
      cases there
      exact sound.begun
  | overlong _ _ _ c e _ answer _ =>
    cases there
    exact ⟨c, answer, rfl, rfl, .inl rfl⟩
  | meets place wake limit bs k _ answer framed =>
    cases there
    exact ⟨c, answer, rfl, rfl, .inr ⟨bs, framed, List.prefix_append _ _⟩⟩
  | sends _ _ _ _ _ step | stalls _ _ _ _ _ _ step | sent _ _ _ _ _ step
  | sendFails _ _ _ _ _ _ step
  | sendCrashes _ _ _ _ _ step =>
    cases there
    exact (sound.sends step rfl).begun

noncomputable def rank : Opening → ℕ ×ₗ ℕ ×ₗ ℕ ×ₗ ℕ
  | .dialing .fresh => toLex (2, toLex (0, toLex (0, 0)))
  | .dialing (.dialing _ _ _) => toLex (1, toLex (0, toLex (0, 0)))
  | .greeting w c => toLex (0, Wire.Writing.rank (w, c.sink))

theorem Step.lowers_while (h : Step d now ctx o p)
    (settles : ∀ w c, o = .greeting w c → c.sink.plan.Settles) :
    p.Lowers (fun q => q.2.rank) (ctx, o) := by
  cases h with
  | dials place limit _ _ => exact Prod.Lex.toLex_lt_toLex.2 (.inl Nat.one_lt_two)
  | awaits _ _ _ _ _ _ => exact le_rfl
  | meets _ _ _ _ _ _ _ _ => exact Prod.Lex.toLex_lt_toLex.2 (.inl Nat.zero_lt_one)
  | sends w w' c s _ step =>
    exact Prod.Lex.toLex_lt_toLex.2 (.inr ⟨rfl, step.lowers (settles w c rfl)⟩)
  | stalls w w' c s alarm _ step =>
    exact Prod.Lex.toLex_le_toLex.2 (.inr ⟨rfl, step.lowers (settles w c rfl)⟩)
  | _ => trivial

theorem Step.lowers (h : Step d now ctx o p) (sound : o.Sound d)
    (settles : ∀ c, d.dial.answer = .connected c → c.sink.plan.Settles) :
    p.Lowers (fun q => q.2.rank) (ctx, o) := by
  refine h.lowers_while ?_
  rintro w c rfl
  obtain ⟨c₀, bs, answer, _, _, sent⟩ := sound
  exact sent.plan ▸ settles c₀ answer

theorem Step.calm (h : Step d now ctx o p) (sound : o.Sound d)
    (calm : ∀ c, d.dial.answer = .connected c → c.sink.plan.Calm) : ∀ q, p ≠ .crashed q := by
  rintro q rfl
  cases h with
  | sendCrashes w w' c s _ step =>
    obtain ⟨c₀, bs, answer, _, _, sent⟩ := sound
    exact step.calm (sent.plan ▸ calm c₀ answer) _ rfl

end PackRelay.Opening
