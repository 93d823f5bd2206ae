import PackRelay.Proofs.Backend.Opening
import PackRelay.Proofs.Http.Answer

/-! The time that an exchange is given. Whatever becomes of the exchange and of its request, its
context keeps the limit and the deadline with which it began, also when it has let go of everything. -/
namespace PackRelay

open WiredBackend renaming backend → wired

/-- Another state of a context with as much time. -/
structure Context.SameTime (c c' : Context) : Prop where
  timeout : c'.timeout = c.timeout
  deadline : c'.deadline = c.deadline

namespace Context.SameTime

variable {c c' c'' : Context}

theorem refl (c : Context) : c.SameTime c := ⟨rfl, rfl⟩

theorem trans (one : c.SameTime c') (two : c'.SameTime c'') : c.SameTime c'' :=
  ⟨two.timeout.trans one.timeout, two.deadline.trans one.deadline⟩

theorem cancel (c : Context) (r : CancelReason) : c.SameTime (c.cancel r) := ⟨rfl, rfl⟩

theorem check (now : Nat) (c : Context) : c.SameTime (c.check now).2 := by
  rcases check_cases now c with ⟨_, same⟩ | ⟨r, c', _, same, rfl | ⟨_, _, rfl⟩⟩ <;> rw [same]
  · exact refl c
  · exact refl c'
  · exact cancel c .deadlineExceeded

theorem watch {outside : Option Interruption} {now : Nat} (seen : c.watch outside now = some c') :
    c.SameTime c' := by
  obtain ⟨_, ⟨i, _, _, rfl⟩ | ⟨_, rfl⟩⟩ := watch_cases seen
  · exact cancel c i.reason
  · exact cancel c .deadlineExceeded

end Context.SameTime

theorem Opening.poll_sameTime (d : Destination) (now : Nat) (ctx : Context) (o : Opening) :
    ctx.SameTime (o.poll d now ctx).state.1 := by
  have step := poll_step d now ctx o
  generalize o.poll d now ctx = p at step ⊢
  cases step with
  | late e r ctx' _ checked _ =>
    have same := Context.SameTime.check now ctx
    rwa [checked] at same
  | _ => exact .refl ctx

/-- What an exchange relies on of its backend for its time. -/
structure Backend.KeepsTime {κ : Type} (b : Backend κ) : Prop where
  start : ∀ now (p : Context × κ), p.1.SameTime (b.start now p).state.1
  dial : ∀ now (p : Context × κ), p.1.SameTime (b.dial now p).state.1

namespace WiredBackend

theorem pollOpening_sameTime (now : Nat) (o : Opening) (ctx : Context) (b : WiredBackend) :
    ctx.SameTime (b.pollOpening now o ctx).state.1 := by
  have same := o.poll_sameTime b.channelDestination now ctx
  unfold pollOpening
  generalize o.poll b.channelDestination now ctx = p at same ⊢
  cases p with
  | ready result q => cases result <;> exact same
  | _ => exact same

theorem keepsTime : wired.KeepsTime where
  start := by
    rintro now ⟨ctx, b⟩
    show ctx.SameTime (pollStart now (ctx, b)).state.1
    simp only [pollStart]
    split
    · rename_i o _
      have same := o.poll_sameTime b.callDestination now ctx
      generalize o.poll b.callDestination now ctx = p at same ⊢
      cases p with
      | ready result q => cases result <;> exact same
      | _ => exact same
    · exact .refl ctx
    · exact .refl ctx
  dial := by
    rintro now ⟨ctx, b⟩
    show ctx.SameTime (pollDial now (ctx, b)).state.1
    have checked := Context.SameTime.check now ctx
    simp only [pollDial]
    split
    · generalize ctx.check now = p at checked ⊢
      obtain ⟨answer, ctx'⟩ := p
      cases answer with
      | error r => exact checked
      | ok _ => exact checked.trans (pollOpening_sameTime now _ ctx' b)
    · exact pollOpening_sameTime now _ ctx b
    · exact .refl ctx
    · exact .refl ctx

end WiredBackend

namespace Exchange

variable {κ : Type} {b : Backend κ} {x : Exchange κ}

theorem cancelUnless_sameTime {ctx : Context} (same : ctx.SameTime x.ctx) (ok : Bool) :
    ctx.SameTime (x.cancelUnless ok).ctx := by
  cases ok with
  | true => exact same
  | false => exact same.trans (.cancel x.ctx .done)

theorem pollStart_sameTime (keeps : b.KeepsTime) (now : Nat) (x : Exchange κ) :
    x.ctx.SameTime (x.pollStart b now).state.ctx := by
  have same := keeps.start now (x.ctx, x.backend)
  unfold pollStart
  generalize b.start now (x.ctx, x.backend) = p at same ⊢
  cases p with
  | ready value q =>
    cases value with
    | ok _ => exact same
    | error e => exact same.trans (.cancel q.1 .done)
  | _ => exact same

theorem pollOpen_sameTime (keeps : b.KeepsTime) (now : Nat) (x : Exchange κ) :
    x.ctx.SameTime (x.pollOpen b now).state.ctx := by
  have same := keeps.dial now (x.ctx, x.backend)
  unfold pollOpen
  generalize b.dial now (x.ctx, x.backend) = p at same ⊢
  cases p with
  | ready value q =>
    cases value with
    | ok c =>
      simp only [Poll.into_ready]
      split
      · exact same
      · exact same.trans (.cancel q.1 .done)
    | error e => exact same.trans (.cancel q.1 .done)
  | _ => exact same

theorem pollParticipant_sameTime (b : Backend κ) (now : Nat) (p : Participant) (x : Exchange κ) :
    x.ctx.SameTime (x.pollParticipant b now p).state.ctx := by
  cases p with
  | inbound =>
    simp only [pollParticipant, onChannel]
    split
    · rename_i c _
      unfold pollInbound
      split
      · exact .refl x.ctx
      · cases x.inbound.poll x.ctx now c with
        | ready r q =>
          apply cancelUnless_sameTime
          exact .refl x.ctx
        | _ => exact .refl x.ctx
    · exact .refl x.ctx
  | outbound =>
    simp only [pollParticipant, onChannel]
    split
    · rename_i c _
      unfold pollOutbound
      split
      · exact .refl x.ctx
      · cases x.outbound.poll x.ctx now c with
        | ready r q =>
          apply cancelUnless_sameTime
          exact .refl x.ctx
        | _ => exact .refl x.ctx
    · exact .refl x.ctx
  | reply =>
    simp only [pollParticipant, pollReply]
    split
    · exact .refl x.ctx
    · cases x.ctx.guard x.backend (b.reply now x.backend) with
      | ready r k =>
        apply cancelUnless_sameTime
        exact .refl x.ctx
      | _ => exact .refl x.ctx

theorem poll_sameTime (keeps : b.KeepsTime) (turns : Turns) (now : Nat) (x : Exchange κ) :
    x.ctx.SameTime (x.poll b turns now).state.ctx := by
  unfold poll
  split
  · exact pollStart_sameTime keeps now x
  · exact pollOpen_sameTime keeps now x
  · have same : x.ctx.SameTime (x.pollParticipants b turns now).state.ctx := by
      refine Poll.all_state (I := fun y : Exchange κ => x.ctx.SameTime y.ctx) ?_ (.refl x.ctx)
      intro p listed y here
      obtain ⟨who, _, rfl⟩ := List.mem_map.1 listed
      exact here.trans (pollParticipant_sameTime b now who y)
    unfold pollRelaying
    cases step : x.pollParticipants b turns now <;> rw [step] at same <;> exact same
  · unfold pollClosing
    split
    · exact .cancel x.ctx .done
    · rename_i c _
      cases c.pollClose now with
      | ready _ c' => exact .cancel x.ctx .done
      | _ => exact .refl x.ctx

end Exchange

namespace Http.Serving

variable {κ : Type} {b : Backend κ}

theorem act_sameTime (keeps : b.KeepsTime) (v : Serving κ) (d : Deed) :
    v.context.SameTime (v.act b d).context := by
  have moves := v.moves b d
  generalize v.act b d = w at moves ⊢
  cases moves with
  | works turns _ =>
    have same := Exchange.poll_sameTime keeps turns v.time (v.exchange.facing v.pipe)
    cases step : (v.exchange.facing v.pipe).poll b turns v.time with
    | crashed x =>
      rw [step] at same
      exact same.trans (.cancel x.ctx .done)
    | _ =>
      rw [step] at same
      exact same
  | watches ctx _ seen => exact .watch seen
  | _ => exact .refl v.context

/-- However a request is served, its exchange has the time that it was given. -/
theorem follow_sameTime (keeps : b.KeepsTime) (v : Serving κ) (deeds : List Deed) :
    v.context.SameTime (v.follow b deeds).context :=
  follow_keeps (I := fun w => v.context.SameTime w.context)
    (fun w d same => same.trans (act_sameTime keeps w d)) (.refl v.context) deeds

end Http.Serving
end PackRelay
