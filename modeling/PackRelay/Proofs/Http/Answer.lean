import PackRelay.Http.Serving
import PackRelay.Proofs.Context.Basic
import PackRelay.Proofs.Exchange.Response

/-! What the client of a request gets, whatever backend its exchange has, in whatever order things
happen, and however the client reads. An answer that was given is the one that is settled, and a
body is what the response accepted. Whoever keeps the exchange alive cancels it by letting go of it,
and before it is over only a client that goes away lets go. -/
namespace PackRelay

/-- The pipe takes no more than it has room for. -/
theorem Pipe.plan_within (taken : Nat) (watched : Bool) :
    (Pipe.plan taken watched).Within (taken + Pipe.capacity) := by
  intro _ accepted most answer
  simp only [plan] at answer
  split at answer
  · cases answer
  · split at answer
    · cases answer
      exact ⟨_, rfl, by omega⟩
    · cases answer

namespace Http

variable {κ : Type} {b : Backend κ} {v w : Serving κ} {c : Client} {d : Deed} {got : Bytes}
  {r : Reply} {t : Nat}

namespace Serving

/-- What a client has agrees with what its exchange has come to. -/
inductive Fits (v : Serving κ) : Client → Prop
  | waiting : Fits v .waiting
  | answered (r : Reply) : v.settled? = some (.whole r) → Fits v (.answered r)
  | reading (got : Bytes) :
    v.settled? = some .streaming → got <+: v.relayed → Fits v (.reading got)
  | finished (got : Bytes) :
    v.settled? = some .streaming → v.exit.isSome → got = v.relayed → Fits v (.finished got)
  | leftEarly : Fits v (.left none)
  | left (got : Bytes) :
    v.settled? = some .streaming → got <+: v.relayed → Fits v (.left (some got))

/-- A later moment, as far as the answer is concerned. -/
structure Onward (v w : Serving κ) : Prop where
  settled : ∀ a, v.settled? = some a → w.settled? = some a
  relayed : v.relayed <+: w.relayed
  is_over : v.exit.isSome → w.exit.isSome ∧ w.relayed = v.relayed

/-- Nothing that the answer depends on has changed. -/
theorem Onward.of_same (response : w.exchange.outbound = v.exchange.outbound)
    (exit : w.exit = v.exit) : v.Onward w := by
  have relayed : w.relayed = v.relayed := by simp only [Serving.relayed, response]
  have sent : w.headersSent = v.headersSent := by simp only [headersSent, response]
  refine ⟨fun a is => ?_, relayed ▸ List.prefix_rfl, fun is_over => ⟨exit ▸ is_over, relayed⟩⟩
  rwa [settled?, sent, exit]

theorem Fits.onward (fits : v.Fits c) (onward : v.Onward w) : w.Fits c := by
  cases fits with
  | waiting => exact .waiting
  | answered r settled => exact .answered r (onward.settled _ settled)
  | reading got settled part =>
    exact .reading got (onward.settled _ settled) (part.trans onward.relayed)
  | finished got settled is_over all =>
    obtain ⟨is_over', same⟩ := onward.is_over is_over
    exact .finished got (onward.settled _ settled) is_over' (all.trans same.symm)
  | leftEarly => exact .leftEarly
  | left got settled part => exact .left got (onward.settled _ settled) (part.trans onward.relayed)

theorem settled_begun (sent : v.headersSent = true) : v.settled? = some .streaming := if_pos sent

theorem settled_iff : v.settled?.isSome ↔ v.headersSent = true ∨ v.exit.isSome := by
  unfold settled?
  cases v.headersSent <;> simp

theorem settled_whole (settled : v.settled? = some (.whole r)) : v.exit.isSome := by
  rcases settled_iff.1 (Option.isSome_of_eq_some settled) with sent | is_over
  · cases (settled_begun sent).symm.trans settled
  · exact is_over

/-- All that a deed can come to. -/
inductive Moves (b : Backend κ) (v : Serving κ) : Deed → Serving κ → Prop
  | rests (d : Deed) : Moves b v d v
  | works (turns : Turns) :
    v.exit = none →
      Moves b v (.work turns) (v.after b ((v.exchange.facing v.pipe).poll b turns v.time))
  | watches (ctx : Context) :
    v.exit = none → v.context.watch (v.gone.map .requestGone) v.time = some ctx →
      Moves b v .watch { v with exchange := { v.exchange with ctx } }
  | reads (d : Deed) (got : Bytes) :
    v.client.keeps = true → v.client.taken ≤ got.length →
      (v.Fits v.client → v.Fits (.reading got)) → Moves b v d { v with client := .reading got }
  | letsGo (d : Deed) (c : Client) :
    v.client.keeps = true → c.keeps = false → v.client.taken ≤ c.taken →
      (v.Fits v.client → v.Fits c) → (∀ got, c = .left got → d = .leave) → Moves b v d (v.letGo c)
  | passes (ms : Nat) :
    v.exit.isSome ∨ v.context.cancelled = true ∨ v.time + ms ≤ v.context.tick →
      Moves b v (.pass ms) { v with time := v.time + ms }

theorem moves_notice (v : Serving κ) : v.Moves b .notice v.notice := by
  unfold notice
  split
  · rename_i waits settled
    refine .reads _ [] (by rw [waits]; rfl) (by rw [waits]; rfl) fun _ => ?_
    exact .reading [] settled List.nil_prefix
  · rename_i r waits settled
    refine .letsGo _ _ (by rw [waits]; rfl) rfl (by rw [waits]; rfl) (fun _ => ?_) nofun
    exact .answered r settled
  · exact .rests _

theorem moves_take (room : Nat) (v : Serving κ) : v.Moves b (.take room) (v.take room) := by
  unfold take
  split
  · rename_i got reads
    split
    · rename_i drained
      split
      · rename_i is_over
        refine .letsGo _ _ (by rw [reads]; rfl) rfl (by rw [reads]; rfl) (fun fits => ?_) nofun
        rw [reads] at fits
        cases fits with
        | reading _ settled part =>
          obtain ⟨rest, all⟩ := part
          rw [← all, List.drop_left] at drained
          exact .finished got settled is_over (by simpa [drained] using all)
      · exact .rests _
    · refine .reads _ _ (by rw [reads]; rfl) ?_ fun fits => ?_
      · rw [reads, List.length_append]
        exact Nat.le_add_right _ _
      · rw [reads] at fits
        cases fits with
        | reading _ settled part =>
          obtain ⟨rest, all⟩ := part
          refine .reading _ settled ?_
          rw [← all, List.drop_left]
          exact (List.prefix_append_right_inj got).2 (List.take_prefix room rest)
  · exact .rests _

theorem moves_leave (v : Serving κ) : v.Moves b .leave v.leave := by
  unfold leave
  split
  · rename_i keeps
    cases client : v.client with
    | waiting =>
      exact .letsGo _ _ keeps rfl (by rw [client]; rfl) (fun _ => .leftEarly) fun _ _ => rfl
    | reading got =>
      refine .letsGo _ _ keeps rfl (by rw [client]; rfl) (fun fits => ?_) fun _ _ => rfl
      rw [client] at fits
      cases fits with
      | reading _ settled part => exact .left got settled part
    | answered _ | finished _ | left _ =>
      rw [client] at keeps
      cases keeps
  · exact .rests _

theorem moves (b : Backend κ) (v : Serving κ) (d : Deed) : v.Moves b d (v.act b d) := by
  cases d with
  | work turns =>
    simp only [act, work]
    split
    · exact .rests _
    · rename_i going
      exact .works turns (by simpa using going)
  | notice => exact moves_notice v
  | watch =>
    simp only [act, watch]
    split
    · exact .rests _
    · rename_i going
      split
      · exact .watches _ (by simpa using going) ‹_›
      · exact .rests _
  | take room => exact moves_take room v
  | leave => exact moves_leave v
  | pass ms =>
    simp only [act, pass]
    split
    · rename_i free
      exact .passes ms (by simpa [or_assoc] using free)
    · exact .rests _

/-- What every deed keeps, all of them keep one after another. -/
theorem follow_keeps {I : Serving κ → Prop} (step : ∀ v d, I v → I (v.act b d)) (start : I v)
    (deeds : List Deed) : I (v.follow b deeds) := by
  induction deeds generalizing v with
  | nil => exact start
  | cons d deeds ih => exact ih (step v d start)

/-- What holds of a request at every moment. -/
structure Coherent (v : Serving κ) : Prop where
  fits : v.Fits v.client
  unsent : v.headersSent = false → v.relayed = []
  held : v.gone = none ↔ v.client.keeps = true
  past : ∀ t, v.gone = some t → t ≤ v.time
  counted : v.exchange.outbound.response.sink.accepted = v.relayed.length
  bounded : v.relayed.length ≤ v.client.taken + Pipe.capacity

theorem after_cases (b : Backend κ) (v : Serving κ) (p : Poll (Exchange κ) Report) :
    ∃ x exit, v.after b p = { v with exchange := x, exit } ∧ x.outbound = p.state.outbound := by
  cases p with
  | ready _ x | more x | waiting x _ => exact ⟨x, _, rfl, rfl⟩
  | crashed x => exact ⟨x.release b, _, rfl, rfl⟩

theorem Coherent.works (coherent : v.Coherent) (turns : Turns) (going : v.exit = none) :
    (v.after b ((v.exchange.facing v.pipe).poll b turns v.time)).Coherent := by
  have onward := Exchange.response_onward b v.time turns (v.exchange.facing v.pipe)
  obtain ⟨x, exit, same, outbound⟩ :=
    after_cases b v ((v.exchange.facing v.pipe).poll b turns v.time)
  rw [← outbound] at onward
  rw [same]
  -- Nothing is settled yet but by a write, and a write that was begun stays begun.
  have later : v.Onward { v with exchange := x, exit } := by
    refine ⟨fun a settled => ?_, onward.sink.written, fun is_over => ?_⟩
    · unfold settled? at settled
      split at settled
      · rename_i sent
        rw [← settled]
        exact if_pos (onward.sent sent)
      · simp [going] at settled
    · simp [going] at is_over
  refine ⟨coherent.fits.onward later, fun off => ?_, coherent.held, coherent.past,
    onward.sink.counted coherent.counted, ?_⟩
  · exact (onward.unsent off).trans (coherent.unsent (onward.unsent_before off))
  · have bounded := onward.sink.within _ (Pipe.plan_within v.client.taken v.client.keeps)
      (coherent.counted ▸ coherent.bounded)
    rwa [onward.sink.counted coherent.counted] at bounded

theorem Coherent.act (coherent : v.Coherent) (d : Deed) : (v.act b d).Coherent := by
  have moves := v.moves b d
  generalize v.act b d = w at moves ⊢
  cases moves with
  | rests _ => exact coherent
  | works turns going => exact coherent.works turns going
  | watches ctx _ _ =>
    exact ⟨coherent.fits.onward (.of_same rfl rfl), coherent.unsent, coherent.held, coherent.past,
      coherent.counted, coherent.bounded⟩
  | reads _ got keeps taken fits =>
    refine ⟨(fits coherent.fits).onward (.of_same rfl rfl), coherent.unsent, ?_, coherent.past,
      coherent.counted, le_trans coherent.bounded (Nat.add_le_add_right taken _)⟩
    simpa [Client.keeps] using coherent.held.2 keeps
  | letsGo _ c _ free taken fits _ =>
    refine ⟨(fits coherent.fits).onward (.of_same rfl rfl), coherent.unsent, ?_, ?_,
      coherent.counted, le_trans coherent.bounded (Nat.add_le_add_right taken _)⟩
    · simp [letGo, free]
    · rintro t ⟨⟩
      exact le_rfl
  | passes ms _ =>
    exact ⟨coherent.fits.onward (.of_same rfl rfl), coherent.unsent, coherent.held,
      fun t is => le_trans (coherent.past t is) (Nat.le_add_right _ _), coherent.counted,
      coherent.bounded⟩

/-- Once a client does not keep the exchange alive, it has all that it gets. -/
theorem act_free (free : v.client.keeps = false) (d : Deed) :
    (v.act b d).client = v.client ∧ (v.act b d).gone = v.gone := by
  have moves := v.moves b d
  generalize v.act b d = w at moves ⊢
  cases moves with
  | works turns _ =>
    obtain ⟨x, exit, same, _⟩ :=
      after_cases b v ((v.exchange.facing v.pipe).poll b turns v.time)
    rw [same]
    exact ⟨rfl, rfl⟩
  | reads _ _ keeps _ _ | letsGo _ _ keeps _ _ _ _ =>
    rw [free] at keeps
    cases keeps
  | _ => exact ⟨rfl, rfl⟩

theorem settled_returned {report : Report} (unsent : v.headersSent = false)
    (is_over : v.exit = some (.returned report)) :
    v.settled? = some (match report.outcome with
      | .ok _ => .streaming
      | .error e => .whole (.failure e)) := by
  unfold settled?
  rw [unsent, is_over]
  rfl

theorem settled_crashed (unsent : v.headersSent = false) (is_over : v.exit = some .crashed) :
    v.settled? = some (.whole .internalError) := by
  unfold settled?
  rw [unsent, is_over]
  rfl

/-- A reply is a success with what was relayed, or the beginning of that. -/
structure Succeeds (v : Serving κ) (r : Reply) : Prop where
  status : r.status = 200
  headers : r.headers =
    [("content-type", "application/x-git-upload-pack-result"), ("cache-control", "no-cache")]
  body : r.body <+: v.relayed

theorem Fits.streaming (fits : v.Fits c) (settled : v.settled? = some .streaming)
    (told : c.reply? = some r) : v.Succeeds r := by
  cases fits with
  | waiting | leftEarly => cases told
  | answered r' whole =>
    rw [settled] at whole
    cases whole
  | reading got _ part | left got _ part =>
    cases told
    exact ⟨rfl, rfl, part⟩
  | finished got _ _ all =>
    cases told
    exact ⟨rfl, rfl, all ▸ List.prefix_rfl⟩

theorem Fits.whole {r' : Reply} (fits : v.Fits c) (settled : v.settled? = some (.whole r'))
    (told : c.reply? = some r) : r = r' := by
  cases fits with
  | waiting | leftEarly => cases told
  | answered _ whole =>
    cases told
    rw [settled] at whole
    cases whole
    rfl
  | reading _ streams _ | left _ streams _ | finished _ streams _ _ =>
    rw [settled] at streams
    cases streams

theorem Fits.settled (fits : v.Fits c) (told : c.reply?.isSome) :
    v.headersSent = true ∨ v.exit.isSome := by
  cases fits with
  | waiting | leftEarly => cases told
  | answered _ settled | reading _ settled _ | finished _ settled _ _ | left _ settled _ =>
    exact settled_iff.1 (Option.isSome_of_eq_some settled)

/-- What the client of a request is told. -/
structure Told (b : Backend κ) (v : Serving κ) : Prop where
  /-- Nothing before it is settled. -/
  settled : v.client.reply?.isSome → v.headersSent = true ∨ v.exit.isSome
  /-- A write that was begun settles the status, whatever becomes of the exchange. -/
  begun : v.headersSent = true → ∀ r, v.client.reply? = some r → v.Succeeds r
  empty : ∀ report summary, v.exit = some (.returned report) → report.outcome = .ok summary →
    v.headersSent = false → v.relayed = [] ∧ ∀ r, v.client.reply? = some r → v.Succeeds r
  failed : ∀ report e, v.exit = some (.returned report) → report.outcome = .error e →
    v.headersSent = false → v.relayed = [] ∧
      ∀ r, v.client.reply? = some r → r = .failure e ∧ r.status = e.httpStatus
  crashed : v.exit = some .crashed → v.headersSent = false → v.relayed = [] ∧
    ∀ r, v.client.reply? = some r → r = .internalError ∧ r.status = 500
  /-- A body that was read to its end is all that the response accepted. -/
  read : ∀ got, v.client = .finished got → v.exit.isSome ∧ got = v.relayed
  /-- Nobody waits for an answer that is settled. -/
  answers : v.client = .waiting → v.headersSent = true ∨ v.exit.isSome →
    (v.act b .notice).client.reply?.isSome
  /-- Whoever goes on reading comes to the end. -/
  ends : ∀ got room, v.client = .reading got → v.exit.isSome → v.relayed.length ≤ room →
    (v.follow b [.take room, .take 0]).client = .finished v.relayed
  /-- What is not read yet fits into the pipe. -/
  bounded : v.relayed.length ≤ v.client.taken + Pipe.capacity

theorem notice_answers (waits : v.client = .waiting)
    (settled : v.headersSent = true ∨ v.exit.isSome) : v.notice.client.reply?.isSome := by
  obtain ⟨a, settled⟩ := Option.isSome_iff_exists.1 (settled_iff.2 settled)
  simp only [notice, waits, settled]
  cases a <;> rfl

theorem take_at_end (reads : v.client = .reading v.relayed) (is_over : v.exit.isSome) (room : Nat) :
    (v.take room).client = .finished v.relayed := by
  simp only [take, reads, List.drop_length, is_over, if_true]
  rfl

theorem Coherent.reads_on (coherent : v.Coherent) (reads : v.client = .reading got)
    (is_over : v.exit.isSome) {room : Nat} (enough : v.relayed.length ≤ room) :
    (v.follow b [.take room, .take 0]).client = .finished v.relayed := by
  have fits := coherent.fits
  rw [reads] at fits
  cases fits with
  | reading _ _ part =>
    obtain ⟨rest, all⟩ := part
    cases rest with
    | nil =>
      rw [List.append_nil] at all
      have finished : (v.act b (.take room)).client = .finished v.relayed :=
        take_at_end (all ▸ reads) is_over room
      exact (act_free (b := b) (by rw [finished]; rfl) (.take 0)).1.trans finished
    | cons o rest =>
      -- One read takes all that is there, and the next one meets the end.
      have whole : v.take room = { v with client := .reading v.relayed } := by
        have short : (o :: rest).length ≤ room := by
          rw [← all, List.length_append] at enough
          omega
        simp only [Serving.take, reads]
        rw [← all, List.drop_left]
        simp only [List.take_of_length_le short, all]
      show ((v.take room).take 0).client = _
      rw [whole]
      exact take_at_end (v := { v with client := .reading v.relayed }) rfl is_over 0

theorem Coherent.told (coherent : v.Coherent) : v.Told b where
  settled told := coherent.fits.settled told
  begun sent r told := coherent.fits.streaming (settled_begun sent) told
  empty report summary is_over ok unsent := by
    have settled := settled_returned unsent is_over
    rw [ok] at settled
    exact ⟨coherent.unsent unsent, fun r told => coherent.fits.streaming settled told⟩
  failed report e is_over error unsent := by
    have settled := settled_returned unsent is_over
    rw [error] at settled
    refine ⟨coherent.unsent unsent, fun r told => ?_⟩
    obtain rfl := coherent.fits.whole settled told
    exact ⟨rfl, rfl⟩
  crashed is_over unsent := by
    refine ⟨coherent.unsent unsent, fun r told => ?_⟩
    obtain rfl := coherent.fits.whole (settled_crashed unsent is_over) told
    exact ⟨rfl, rfl⟩
  read got finished := by
    have fits := coherent.fits
    rw [finished] at fits
    cases fits with
    | finished _ _ is_over all => exact ⟨is_over, all⟩
  answers waits settled := notice_answers waits settled
  ends got room reads is_over enough := coherent.reads_on reads is_over enough
  bounded := coherent.bounded

/-- Whoever let go does not keep the exchange alive any more. -/
theorem Coherent.free (coherent : v.Coherent) (gone : v.gone.isSome) : v.client.keeps = false := by
  refine Bool.eq_false_iff.2 fun keeps => ?_
  rw [coherent.held.2 keeps] at gone
  cases gone

theorem Coherent.stays_gone (coherent : v.Coherent) (gone : v.gone = some t) (deeds : List Deed) :
    (v.follow b deeds).gone = some t := by
  refine (follow_keeps (I := fun w : Serving κ => w.client.keeps = false ∧ w.gone = some t)
    (fun w d here => ?_) ⟨coherent.free (Option.isSome_of_eq_some gone), gone⟩ deeds).2
  obtain ⟨client, same⟩ := act_free (b := b) here.1 d
  rw [client, same]
  exact here

theorem act_left {got : Option Bytes} {d : Deed} (left : (v.act b d).client = .left got) :
    v.client = .left got ∨ d = .leave := by
  have moves := v.moves b d
  generalize v.act b d = w at moves left
  cases moves with
  | works turns _ =>
    obtain ⟨x, exit, same, _⟩ :=
      after_cases b v ((v.exchange.facing v.pipe).poll b turns v.time)
    rw [same] at left
    exact .inl left
  | reads _ _ _ _ _ => cases left
  | letsGo _ c _ _ _ _ leaves => exact .inr (leaves got left)
  | _ => exact .inl left

/-- Only who goes away has gone away. -/
theorem follow_left {got : Option Bytes} {deeds : List Deed}
    (left : (v.follow b deeds).client = .left got) : v.client = .left got ∨ .leave ∈ deeds := by
  induction deeds generalizing v with
  | nil => exact .inl left
  | cons d deeds ih =>
    rcases ih left with here | there
    · rcases act_left here with before | rfl
      · exact .inl before
      · exact .inr List.mem_cons_self
    · exact .inr (List.mem_cons_of_mem d there)

/-- As long as the exchange goes on, only who went away has let go of it. -/
theorem Coherent.left_of_gone (coherent : v.Coherent) (going : v.exit = none)
    (gone : v.gone.isSome) : ∃ got, v.client = .left got := by
  have free := coherent.free gone
  have fits := coherent.fits
  cases client : v.client with
  | left got => exact ⟨got, rfl⟩
  | waiting | reading _ =>
    rw [client] at free
    cases free
  | answered r =>
    rw [client] at fits
    cases fits with
    | answered _ settled =>
      have is_over := settled_whole settled
      simp [going] at is_over
  | finished got =>
    rw [client] at fits
    cases fits with
    | finished _ _ is_over _ => simp [going] at is_over

/-- A context is cancelled by whoever let go of the exchange, unless something else came first. -/
theorem Coherent.watch_gone (coherent : v.Coherent) (going : v.exit = none) (gone : v.gone = some t)
    (recorded : v.context.Coherent) :
    v.watch.context.cancelled = true ∧
      v.watch.context.reason = v.context.reason.or (some .clientAborted) := by
  have past := coherent.past t gone
  unfold Context.Coherent at recorded
  cases off : v.context.cancelled with
  | true =>
    rw [off] at recorded
    obtain ⟨r, is⟩ := Option.isSome_iff_exists.1 recorded.symm
    have same : v.watch = v := by simp [watch, going, Context.watch, off]
    rw [same, is]
    exact ⟨off, rfl⟩
  | false =>
    have due : (v.gone.map Interruption.requestGone).filter (·.time ≤ v.time) =
        some (.requestGone t) := by
      rw [gone]
      exact Option.filter_eq_some_iff.2 ⟨rfl, decide_eq_true past⟩
    have seen : v.context.watch (v.gone.map .requestGone) v.time =
        some (v.context.cancel .clientAborted) := by
      simp only [Context.watch, off, Bool.false_eq_true, if_false, due]
      rfl
    simp only [watch, going, Option.isSome_none, Bool.false_eq_true, if_false, seen]
    exact ⟨rfl, rfl⟩

end Serving
end Http
end PackRelay
