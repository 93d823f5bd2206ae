import PackRelay.Exchange.Basic
import PackRelay.Proofs.Context.Basic
import PackRelay.Proofs.Exchange.Told

/-! What the results of an exchange amount to. Errors that only tell of a cancellation are set
apart from failures; of those there is at most one, and it is the one that the exchange is blamed
on. -/
namespace PackRelay

def TransportError.blamed : TransportError → ExchangeError
  | .relay (.clientRead e) => .clientAborted (some (.clientRead e))
  | .relay (.clientWrite e) => .clientAborted (some (.clientWrite e))
  | .call (.backend status) => .backend status
  | e => .transport e

theorem TransportError.blamed_transport {e f : TransportError} (h : e.blamed = .transport f) :
    f = e := by
  unfold blamed at h
  split at h
  · cases h
  · cases h
  · cases h
  · exact (ExchangeError.transport.inj h).symm

namespace Results

def replyError (r : Results) : Option TransportError :=
  match r.reply with
  | some (.error e) => some (.call e)
  | _ => none

/-- The errors of those who run side by side. -/
def joined (r : Results) : List TransportError :=
  ((r.inbound.bind RelayResult.error).map .relay).toList ++
    ((r.outbound.bind RelayResult.error).map .relay).toList
    ++ r.replyError.toList

def errors (r : Results) : List TransportError :=
  (r.start.map .call).toList ++ (r.dial.map .sidechannel).toList ++ r.joined

/-- The errors that tell of no cancellation. -/
def failures (r : Results) : List TransportError := r.errors.filter (·.told.isNone)

/-- What the first failure makes of an exchange. -/
def blame (r : Results) : Except ExchangeError Unit :=
  match r.failures with
  | [] => .ok ()
  | e :: _ => .error e.blamed

end Results

namespace Observed

def record (o : Observed) : TransportError → Observed
  | .call e => o.recordCall e
  | .sidechannel e => o.recordTransport (.sidechannel e)
  | .relay e => o.recordRelay ⟨.inbound, 0, some e⟩

theorem recordRelay_eq (o : Observed) (r : RelayResult) :
    o.recordRelay r = ((r.error.map .relay).toList).foldl record o := by
  obtain ⟨direction, bytes, error⟩ := r
  cases error <;> rfl

end Observed

theorem Results.observed_eq (r : Results) : r.observed = r.errors.foldl Observed.record {} := by
  obtain ⟨start, dial, inbound, outbound, reply⟩ := r
  simp only [observed, errors, joined, replyError, List.foldl_append]
  have relays : ∀ (o : Observed) (r : Option RelayResult),
      (r.map fun i => o.recordRelay i).getD o =
        ((r.bind RelayResult.error).map .relay).toList.foldl Observed.record o := by
    intro o r
    cases r with
    | none => rfl
    | some r => exact o.recordRelay_eq r
  rw [relays, relays]
  cases start <;> cases dial <;> rcases reply with _ | ⟨_ | _⟩ <;> rfl

namespace Observed

variable {o : Observed} {e : TransportError} {es : List TransportError}

/-- What was observed when these were the failures, and all else was seen to be a cancellation. -/
inductive Saw : List TransportError → Observed → Prop
  | nothing {o : Observed} :
    o.client = none → o.backend = none → (∀ t, o.transport = some t → t.isCancellation = true) →
      Saw [] o
  | client {o : Observed} (e : RelayError) :
    e.isClientSide = true → o.client = some e → o.backend = none →
      (∀ t, o.transport = some t → t.isCancellation = true) → Saw [.relay e] o
  | backend {o : Observed} (status : BackendStatus) :
    o.client = none → o.backend = some status →
      (∀ t, o.transport = some t → t.isCancellation = true) →
      Saw [.call (.backend status)] o
  | transport {o : Observed} (e : TransportError) :
    o.client = none → o.backend = none → o.transport = some e → e.isCancellation = false →
      e.blamed = .transport e → Saw [e] o

theorem Saw.start : Saw [] {} := .nothing rfl rfl fun _ h => by cases h

theorem recordTransport_echo (echo : e.isCancellation = true) (o : Observed) :
    o.recordTransport e = { o with transport := o.transport.or (some e) } := by
  obtain ⟨client, backend, transport⟩ := o
  cases transport <;> simp [recordTransport, echo]

theorem record_echo (echo : e.isCancellation = true) (o : Observed) :
    o.record e = { o with transport := o.transport.or (some e) } := by
  cases e with
  | call e =>
    cases e with
    | cancelled r => exact recordTransport_echo rfl o
    | _ => cases echo
  | sidechannel e =>
    cases e with
    | cancelled r => exact recordTransport_echo rfl o
    | _ => cases echo
  | relay e =>
    cases e with
    | cancelled r => exact recordTransport_echo rfl o
    | _ => cases echo

theorem Saw.echo {fs : List TransportError} (saw : Saw fs o) (echo : e.isCancellation = true) :
    Saw fs (o.record e) := by
  rw [record_echo echo]
  have still : (∀ t, o.transport = some t → t.isCancellation = true) →
      ∀ t, o.transport.or (some e) = some t → t.isCancellation = true := by
    intro echoes t is
    cases there : o.transport with
    | none =>
      rw [there] at is
      cases is
      exact echo
    | some old =>
      rw [there] at is
      cases is
      exact echoes _ there
  cases saw with
  | nothing client backend transport => exact .nothing client backend (still transport)
  | client e' side client backend transport =>
    exact .client e' side client backend (still transport)
  | backend status client backend transport =>
    exact .backend status client backend (still transport)
  | transport e' client backend transport genuine blamed =>
    exact .transport e' client backend (by rw [transport]; rfl) genuine blamed

theorem Saw.failure (saw : Saw [] o) (genuine : e.isCancellation = false) :
    Saw [e] (o.record e) := by
  obtain ⟨client, backend, transport⟩ := o
  cases saw with
  | nothing no_client no_backend echoes =>
    cases no_client
    cases no_backend
    have noted : ({ transport } : Observed).recordTransport e = { transport := some e } := by
      cases transport with
      | none => rfl
      | some old => simp [recordTransport, echoes old rfl, genuine]
    cases e with
    | call e =>
      cases e with
      | backend status => exact .backend status rfl rfl echoes
      | cancelled r => cases genuine
      | connect e =>
        rw [record, recordCall, noted]
        · exact .transport _ rfl rfl rfl genuine rfl
        · exact fun _ h => by cases h
      | wire e =>
        rw [record, recordCall, noted]
        · exact .transport _ rfl rfl rfl genuine rfl
        · exact fun _ h => by cases h
    | sidechannel e =>
      rw [record, noted]
      exact .transport _ rfl rfl rfl genuine rfl
    | relay e =>
      cases e with
      | clientRead e => exact .client _ rfl rfl rfl echoes
      | clientWrite e => exact .client _ rfl rfl rfl echoes
      | sidechannel e =>
        show Saw _ (({ transport } : Observed).recordTransport _)
        rw [noted]
        exact .transport _ rfl rfl rfl genuine rfl
      | cancelled r => cases genuine

theorem Saw.blame (saw : Saw [e] o) : o.blame = .error e.blamed := by
  cases saw with
  | client e side client backend _ =>
    simp only [Observed.blame, client]
    cases e <;> first | rfl | cases side
  | backend status client backend _ =>
    simp only [Observed.blame, client, backend, TransportError.blamed]
  | transport e client backend transport _ blamed =>
    simp only [Observed.blame, client, backend, transport, blamed]

/-- With at most one failure among errors that show their cancellations, that failure is what was
seen. -/
theorem Saw.foldl {fs : List TransportError} (saw : Saw fs o)
    (plain : ∀ e ∈ es, e.isCancellation = e.told.isSome)
    (once : (fs ++ es.filter (·.told.isNone)).length ≤ 1) :
    Saw (fs ++ es.filter (·.told.isNone)) (es.foldl record o) := by
  induction es generalizing fs o with
  | nil => simpa using saw
  | cons e es ih =>
    obtain ⟨here, rest⟩ := List.forall_mem_cons.1 plain
    cases told : e.told with
    | some r =>
      rw [told] at here
      simp only [List.filter_cons, told, Option.isNone_some, Bool.false_eq_true, if_false] at once ⊢
      exact ih (saw.echo here) rest once
    | none =>
      rw [told] at here
      simp only [List.filter_cons, told, Option.isNone_none, if_true] at once ⊢
      have first : fs = [] := by
        cases fs with
        | nil => rfl
        | cons f fs => simp only [List.length_append, List.length_cons] at once; omega
      subst first
      exact ih (saw.failure here) rest (by simpa using once)

theorem client_foldl (told : ∀ e ∈ es, e.told ≠ none) (none_yet : o.client = none) :
    (es.foldl record o).client = none := by
  induction es generalizing o with
  | nil => exact none_yet
  | cons e es ih =>
    obtain ⟨here, rest⟩ := List.forall_mem_cons.1 told
    refine ih rest ?_
    have kept : ∀ t, (o.recordTransport t).client = none := by
      intro t
      simp only [recordTransport]
      split
      · exact none_yet
      · split <;> exact none_yet
    cases e with
    | call e =>
      cases e with
      | backend status => exact absurd rfl here
      | _ => exact kept _
    | sidechannel e => exact kept _
    | relay e =>
      cases e with
      | clientRead e => exact absurd rfl here
      | clientWrite e => exact absurd rfl here
      | _ => exact kept _

end Observed

namespace Results

variable {r r' : Results} {e : Option TransportError}

/-- One more participant has come to its end, with or without an error. -/
structure Joins (r r' : Results) (e : Option TransportError) : Prop where
  start : r'.start = r.start
  dial : r'.dial = r.dial
  joined : ∃ before after, r.joined = before ++ after ∧ r'.joined = before ++ e.toList ++ after

theorem joins_inbound (open_ : r.inbound = none) (i : RelayResult) :
    r.Joins { r with inbound := some i } (i.error.map .relay) :=
  ⟨rfl, rfl, [], r.joined, rfl, by simp [Results.joined, Results.replyError, open_]⟩

theorem joins_outbound (open_ : r.outbound = none) (o : RelayResult) :
    r.Joins { r with outbound := some o } (o.error.map .relay) :=
  ⟨rfl, rfl, ((r.inbound.bind RelayResult.error).map .relay).toList, r.replyError.toList,
    by simp [Results.joined, open_], by simp [Results.joined, Results.replyError]⟩

theorem joins_reply (open_ : r.reply = none) (v : Except CallError Unit) :
    r.Joins { r with reply := some v }
      (match v with | .error e => some (.call e) | .ok _ => none) :=
  ⟨rfl, rfl, r.joined, [], by simp, by cases v <;> simp [Results.joined, Results.replyError, open_]⟩

/-- Errors that are cancellations exactly if they say why stay so with one more. -/
theorem Joins.plain (joins : r.Joins r' e)
    (plain : ∀ e ∈ r.joined, e.isCancellation = e.told.isSome)
    (said : ∀ t, e = some t → t.isCancellation = t.told.isSome) :
    ∀ e ∈ r'.joined, e.isCancellation = e.told.isSome := by
  obtain ⟨before, after, was, is⟩ := joins.joined
  rw [was] at plain
  rw [is]
  intro f there
  rcases List.mem_append.1 there with there | there
  · rcases List.mem_append.1 there with there | there
    · exact plain f (List.mem_append_left after there)
    · exact said f (Option.mem_toList.1 there)
  · exact plain f (List.mem_append_right before there)

end Results

/-- How the results of an exchange and the reason of its cancellation go together as long as it
runs. -/
structure Account (reason : Option CancelReason) (r : Results) : Prop where
  start : r.start = none
  dial : r.dial = none
  plain : ∀ e ∈ r.joined, e.isCancellation = e.told.isSome
  quiet : reason = none → r.joined = []
  outside : ∀ q, reason = some q → q ≠ .done → r.failures = []
  once : reason = some .done → ∃ e, r.failures = [e]

namespace Account

variable {reason : Option CancelReason} {r r' : Results} {e : Option TransportError}

theorem cancelled (account : Account none r) {q : CancelReason} (outside : q ≠ .done) :
    Account (some q) r where
  start := account.start
  dial := account.dial
  plain := account.plain
  quiet h := by cases h
  outside _ _ _ := by
    simp [Results.failures, Results.errors, account.start, account.dial, account.quiet rfl]
  once h := absurd (Option.some.inj h) outside

theorem errors (account : Account reason r) : r.errors = r.joined := by
  simp [Results.errors, account.start, account.dial]

theorem joins (account : Account reason r) (joins : r.Joins r' e)
    (said : ∀ t, e = some t →
      (t.told.isSome ∧ t.isCancellation = true ∧ reason ≠ none) ∨
    (t.told = none ∧ t.isCancellation = false ∧ reason = none)) :
    Account (if e.isNone then reason else reason.or (some .done)) r' := by
  obtain ⟨before, after, was, is⟩ := joins.joined
  have start := joins.start.trans account.start
  have dial := joins.dial.trans account.dial
  have errors : r'.errors = r'.joined := by simp [Results.errors, start, dial]
  have outside := account.outside
  have once := account.once
  simp only [Results.failures, account.errors] at outside once
  cases e with
  | none =>
    have same : r'.joined = r.joined := by rw [is, was]; simp
    exact ⟨start, dial, by simpa only [same] using account.plain,
      by simpa [same] using account.quiet,
      by simpa [Results.failures, errors, same] using outside,
        by simpa [Results.failures, errors, same] using once⟩
  | some t =>
    have plain' := joins.plain account.plain fun t is => by
      rcases said t is with ⟨told, seen, _⟩ | ⟨told, seen, _⟩ <;> simp [told, seen]
    rcases said t rfl with ⟨told, seen, cancelled⟩ | ⟨told, seen, open_⟩
    · have same : r'.joined.filter (·.told.isNone) = r.joined.filter (·.told.isNone) := by
        rw [is, was]
        simp [Option.isNone_iff_eq_none, Option.isSome_iff_ne_none.1 told]
      cases reason with
      | none => exact absurd rfl cancelled
      | some q =>
        exact ⟨start, dial, plain', fun h => by simp at h,
          by simpa [Results.failures, errors, same] using outside,
            by simpa [Results.failures, errors, same] using once⟩
    · subst open_
      have empty := account.quiet rfl
      rw [was] at empty
      obtain ⟨rfl, rfl⟩ := List.append_eq_nil_iff.1 empty
      refine ⟨start, dial, plain', fun h => by simp at h, fun q h other => ?_, fun _ => ⟨t, ?_⟩⟩
      · simp only [Option.isNone_some, Bool.false_eq_true, if_false, Option.none_or,
          Option.some.injEq] at h
        exact absurd h.symm other
      · simp [Results.failures, errors, is, told]

theorem failures_le (account : Account reason r) : r.failures.length ≤ 1 := by
  rcases reason with _ | q
  · simp [Results.failures, account.errors, account.quiet rfl]
  · by_cases done : q = .done
    · subst done
      obtain ⟨e, only⟩ := account.once rfl
      simp [only]
    · simp [account.outside q rfl done]

theorem joined_filter (account : Account reason r) :
    r.joined.filter (fun e => !e.isCancellation) = r.failures := by
  rw [Results.failures, account.errors]
  apply List.filter_congr
  intro e there
  rw [account.plain e there]
  cases e.told <;> rfl

theorem blame_eq (account : Account reason r) (inside : reason = none ∨ reason = some .done) :
    r.observed.blame = r.blame := by
  rw [r.observed_eq, account.errors]
  rcases inside with open_ | done
  · have none_joined := account.quiet open_
    simp only [Results.blame, Results.failures, account.errors, none_joined, List.filter_nil]
    rfl
  · obtain ⟨e, only⟩ := account.once done
    have saw := Observed.Saw.foldl .start account.plain
      (by simpa only [Results.failures, account.errors, List.nil_append] using account.failures_le)
    simp only [List.nil_append, ← account.errors] at saw
    rw [← Results.failures, only] at saw
    rw [← account.errors, saw.blame, Results.blame, only]

theorem client_none (account : Account reason r) {q : CancelReason} (cancelled : reason = some q)
    (outside : q ≠ .done) :
    r.observed.client = none := by
  rw [r.observed_eq]
  refine Observed.client_foldl (fun e there no => ?_) rfl
  have empty := account.outside q cancelled outside
  have listed : e ∈ r.failures := List.mem_filter.2 ⟨there, by simp [no]⟩
  rw [empty] at listed
  cases listed

end Account

/-- How it goes together when the call did not begin, or its sidechannel did not open. -/
structure Lone (reason : Option CancelReason) (r : Results) : Prop where
  joined : r.joined = []
  only : ∃ e, r.errors = [e] ∧ (e.told = none → e.isCancellation = false)
  told : ∀ e ∈ r.errors, e.told = reason
  outside : reason ≠ some .done

namespace Lone

variable {reason : Option CancelReason} {r : Results}

theorem failures_le (lone : Lone reason r) : r.failures.length ≤ 1 := by
  obtain ⟨e, only, _⟩ := lone.only
  rw [Results.failures, only]
  exact List.length_filter_le _ [e]

theorem blame_eq (lone : Lone reason r) (open_ : reason = none) : r.observed.blame = r.blame := by
  obtain ⟨e, only, genuine⟩ := lone.only
  have told : e.told = none := (lone.told e (by simp [only])).trans open_
  rw [r.observed_eq, only]
  have saw := Observed.Saw.failure .start (genuine told)
  rw [List.foldl_cons, List.foldl_nil, saw.blame]
  simp [Results.blame, Results.failures, only, told]

theorem client_none (lone : Lone reason r) (cancelled : reason ≠ none) :
    r.observed.client = none := by
  rw [r.observed_eq]
  exact Observed.client_foldl (fun e there no => cancelled ((lone.told e there).symm.trans no)) rfl

end Lone
end PackRelay
