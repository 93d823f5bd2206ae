import PackRelay.Exchange.Observed
import Mathlib.Data.List.Perm.Basic

/-! What any sequence of reports makes of an exchange. Each slot of what was observed keeps the first
report of its kind, the transport's the first that is no cancellation; so the order of the reports
matters only within a kind, and cancellations only where there is nothing else. -/
namespace PackRelay

/-- One report to those who observe an exchange. -/
inductive Sighting
  | relay (r : RelayResult)
  | call (e : CallError)
  | transport (e : TransportError)
  deriving DecidableEq, Repr

namespace Sighting

def record : Sighting → Observed → Observed
  | .relay r => .recordRelay r
  | .call e => .recordCall e
  | .transport e => .recordTransport e

def client? : Sighting → Option RelayError
  | .relay r => r.error.filter RelayError.isClientSide
  | _ => none

def status? : Sighting → Option BackendStatus
  | .call (.backend status) => some status
  | _ => none

def fault? : Sighting → Option TransportError
  | .relay r => (r.error.filter (!·.isClientSide)).map .relay
  | .call (.backend _) => none
  | .call e => some (.call e)
  | .transport e => some e

/-- Only tells that something else cancelled the exchange. -/
def IsEcho (s : Sighting) : Prop := ∃ e, s.fault? = some e ∧ e.isCancellation = true

def IsFailure (s : Sighting) : Prop :=
  (∃ e, s.client? = some e) ∨ (∃ status, s.status? = some status) ∨
    ∃ e, s.fault? = some e ∧ e.isCancellation = false

/-- The second sequence is the first with cancellations put in anywhere. -/
inductive Padded : List Sighting → List Sighting → Prop
  | nil : Padded [] []
  | keep (s : Sighting) {ss ts : List Sighting} : Padded ss ts → Padded (s :: ss) (s :: ts)
  | echo {s : Sighting} {ss ts : List Sighting} : s.IsEcho → Padded ss ts → Padded ss (s :: ts)

variable {s : Sighting} {ss ts : List Sighting}

theorem client?_of_echo (echo : s.IsEcho) : s.client? = none := by
  obtain ⟨e, fault, _⟩ := echo
  cases s with
  | relay r =>
    obtain ⟨direction, bytes, error⟩ := r
    cases error with
    | none => rfl
    | some e' =>
      cases side : e'.isClientSide with
      | false => simp [client?, Option.filter, side]
      | true => simp [fault?, Option.filter, side] at fault
  | call e' => rfl
  | transport e' => rfl

theorem status?_of_echo (echo : s.IsEcho) : s.status? = none := by
  obtain ⟨e, fault, _⟩ := echo
  cases s with
  | relay r => rfl
  | call e' =>
    cases e' with
    | backend status => cases fault
    | _ => rfl
  | transport e' => rfl

theorem Padded.clients (padded : Padded ss ts) : ts.filterMap client? = ss.filterMap client? := by
  induction padded with
  | nil => rfl
  | keep s _ ih => simp only [List.filterMap_cons, ih]
  | echo echo _ ih => rw [List.filterMap_cons, client?_of_echo echo, ih]

theorem Padded.statuses (padded : Padded ss ts) :
    ts.filterMap status? = ss.filterMap status? := by
  induction padded with
  | nil => rfl
  | keep s _ ih => simp only [List.filterMap_cons, ih]
  | echo echo _ ih => rw [List.filterMap_cons, status?_of_echo echo, ih]

theorem Padded.find?_faults (padded : Padded ss ts) :
    (ts.filterMap fault?).find? (!·.isCancellation) =
      (ss.filterMap fault?).find? (!·.isCancellation) := by
  induction padded with
  | nil => rfl
  | keep s _ ih =>
    cases fault : s.fault? with
    | none => simpa only [List.filterMap_cons, fault] using ih
    | some e => simp only [List.filterMap_cons, fault, List.find?_cons, ih]
  | echo echo _ ih =>
    obtain ⟨e, fault, seen⟩ := echo
    simpa only [List.filterMap_cons, fault, List.find?_cons, seen, Bool.not_true] using ih

end Sighting

namespace TransportError

/-- The first that is no cancellation, else the first of all. -/
def gravest (es : List TransportError) : Option TransportError :=
  (es.find? (!·.isCancellation)).or es.head?

/-- Nothing is lost when only the gravest so far is kept. -/
theorem gravest_append (es fs : List TransportError) :
    gravest ((gravest es).toList ++ fs) = gravest (es ++ fs) := by
  cases found : es.find? (!·.isCancellation) with
  | some e =>
    have genuine := List.find?_some found
    simp only [gravest, found, List.find?_append, Option.some_or, Option.toList_some,
      List.find?_cons, genuine, List.cons_append]
  | none =>
    cases es with
    | nil => rfl
    | cons e es =>
      have echo : (!e.isCancellation) = false :=
        eq_false_of_ne_true (List.find?_eq_none.1 found e List.mem_cons_self)
      have rest : es.find? (!·.isCancellation) = none := by
        simpa only [List.find?_cons, echo] using found
      simp only [gravest, found, Option.none_or, List.head?_cons, Option.toList_some,
        List.cons_append, List.nil_append, List.find?_cons, echo, List.find?_append, rest]

theorem gravest_toList (e : Option TransportError) : gravest e.toList = e := by
  cases e with
  | none => rfl
  | some e => cases seen : e.isCancellation <;> simp [gravest, seen]

theorem gravest_eq_none_iff (es : List TransportError) : gravest es = none ↔ es = [] := by
  rw [gravest, Option.or_eq_none_iff, List.head?_eq_none_iff]
  constructor
  · exact And.right
  · rintro rfl
    exact ⟨rfl, rfl⟩

theorem gravest_of_genuine {es : List TransportError}
    (genuine : (es.find? (!·.isCancellation)).isSome) : gravest es = es.find? (!·.isCancellation) := by
  obtain ⟨e, is⟩ := Option.isSome_iff_exists.1 genuine
  rw [gravest, is, Option.some_or]

end TransportError

namespace Observed

open Sighting

def ofSightings (ss : List Sighting) : Observed := ss.foldl (fun o s => s.record o) {}

variable {o : Observed}

theorem transport_recordTransport (e : TransportError) (o : Observed) :
    (o.recordTransport e).transport = TransportError.gravest (o.transport.toList ++ [e]) := by
  obtain ⟨client, backend, transport⟩ := o
  cases transport with
  | none => cases seen : e.isCancellation <;> simp [recordTransport, TransportError.gravest, seen]
  | some old =>
    cases before : old.isCancellation <;> cases seen : e.isCancellation <;>
      simp [recordTransport, TransportError.gravest, before, seen]

theorem others_recordTransport (e : TransportError) (o : Observed) :
    (o.recordTransport e).client = o.client ∧ (o.recordTransport e).backend = o.backend := by
  unfold recordTransport
  split
  · exact ⟨rfl, rfl⟩
  · split <;> exact ⟨rfl, rfl⟩

/-- What each slot holds after one more report. -/
structure Follows (o : Observed) (s : Sighting) (o' : Observed) : Prop where
  client : o'.client = o.client.or s.client?
  backend : o'.backend = o.backend.or s.status?
  transport : o'.transport = TransportError.gravest (o.transport.toList ++ s.fault?.toList)

theorem Follows.unmoved {s : Sighting} {o' : Observed} (client : o'.client = o.client.or s.client?)
    (backend : o'.backend = o.backend.or s.status?) (same : o'.transport = o.transport)
    (clean : s.fault? = none) : Follows o s o' where
  client := client
  backend := backend
  transport := by
    rw [same, clean, Option.toList_none, List.append_nil, TransportError.gravest_toList]

theorem Follows.faulty {s : Sighting} {e : TransportError} (fault : s.fault? = some e)
    (no_client : s.client? = none) (no_status : s.status? = none) :
    Follows o s (o.recordTransport e) where
  client := by rw [no_client, Option.or_none, (others_recordTransport e o).1]
  backend := by rw [no_status, Option.or_none, (others_recordTransport e o).2]
  transport := by rw [transport_recordTransport, fault, Option.toList_some]

theorem record_follows (o : Observed) (s : Sighting) : Follows o s (s.record o) := by
  cases s with
  | relay r =>
    obtain ⟨direction, bytes, error⟩ := r
    cases error with
    | none =>
      exact .unmoved (Option.or_none).symm (Option.or_none).symm rfl rfl
    | some e =>
      cases side : e.isClientSide with
      | true =>
        have kept : (Sighting.relay ⟨direction, bytes, some e⟩).record o =
            { o with client := o.client.or (some e) } := by simp [record, recordRelay, side]
        rw [kept]
        exact .unmoved (by simp [client?, Option.filter, side]) (Option.or_none).symm rfl
          (by simp [fault?, Option.filter, side])
      | false =>
        have kept : (Sighting.relay ⟨direction, bytes, some e⟩).record o =
            o.recordTransport (.relay e) := by simp [record, recordRelay, side]
        rw [kept]
        exact .faulty (by simp [fault?, Option.filter, side])
          (by simp [client?, Option.filter, side]) rfl
  | call e =>
    cases e with
    | backend status => exact .unmoved (Option.or_none).symm rfl rfl rfl
    | cancelled reason => exact .faulty rfl rfl rfl
    | connect e => exact .faulty rfl rfl rfl
    | wire e => exact .faulty rfl rfl rfl
  | transport e => exact .faulty rfl rfl rfl

theorem foldl_record (ss : List Sighting) (o : Observed) :
    ss.foldl (fun o s => s.record o) o =
      ⟨o.client.or (ss.filterMap client?).head?, o.backend.or (ss.filterMap status?).head?,
        TransportError.gravest (o.transport.toList ++ ss.filterMap fault?)⟩ := by
  induction ss generalizing o with
  | nil =>
    simp only [List.filterMap_nil, List.head?_nil, Option.or_none, List.append_nil,
      TransportError.gravest_toList, List.foldl_nil]
  | cons s ss ih =>
    have follows := record_follows o s
    rw [List.foldl_cons, ih, follows.client, follows.backend, follows.transport,
      TransportError.gravest_append]
    cases client : s.client? <;> cases status : s.status? <;> cases fault : s.fault? <;>
      simp [client, status, fault]

theorem ofSightings_eq (ss : List Sighting) :
    ofSightings ss = ⟨(ss.filterMap client?).head?, (ss.filterMap status?).head?,
      TransportError.gravest (ss.filterMap fault?)⟩ := by
  rw [ofSightings, foldl_record]
  simp

/-- What reports come to: the reason decides if it is from outside, else the first report of the
gravest kind there is. -/
def verdict (reason : Option CancelReason) (timeout : Duration) (ss : List Sighting) :
    Except ExchangeError Unit :=
  match reason, (ss.filterMap client?).head?, (ss.filterMap status?).head?,
    TransportError.gravest (ss.filterMap fault?) with
  | some .deadlineExceeded, _, _, _ => .error (.deadlineExceeded timeout)
  | some .clientAborted, client, _, _ => .error (.clientAborted client)
  | _, some e, _, _ => .error (.clientAborted (some e))
  | _, none, some status, _ => .error (.backend status)
  | _, none, none, some e => .error (.transport e)
  | _, none, none, none => .ok ()

def kindOf : Except ExchangeError Unit → OutcomeKind
  | .ok () => .success
  | .error e => e.kind

variable {reason : Option CancelReason} {timeout : Duration} {ss ts : List Sighting}

theorem resolve_ofSightings (ctx : Context) (ss : List Sighting) :
    (ofSightings ss).resolve ctx = verdict ctx.reason (.ofMicros ctx.timeout) ss := by
  rw [ofSightings_eq]
  simp only [resolve, blame, verdict]
  rcases ctx.reason with _ | _ | _ | _ <;> cases (ss.filterMap client?).head? <;>
    cases (ss.filterMap status?).head? <;>
    cases TransportError.gravest (ss.filterMap fault?) <;> rfl

/-- The kind only asks which kinds of report there are. -/
theorem kindOf_verdict (reason : Option CancelReason) (timeout : Duration) (ss : List Sighting) :
    kindOf (verdict reason timeout ss) =
      if reason = some .deadlineExceeded then .deadlineExceeded
      else if reason = some .clientAborted ∨ ss.filterMap client? ≠ [] then .clientAborted
      else if ss.filterMap status? ≠ [] then .backendError
      else if ss.filterMap fault? ≠ [] then .transportError
      else .success := by
  have faults := TransportError.gravest_eq_none_iff (ss.filterMap fault?)
  unfold verdict
  rcases reason with _ | _ | _ | _ <;> cases ss.filterMap client? <;>
    cases ss.filterMap status? <;>
    cases gravest : TransportError.gravest (ss.filterMap fault?) <;>
    simp_all [kindOf, ExchangeError.kind]

theorem kindOf_verdict_perm (same : ss.Perm ts) :
    kindOf (verdict reason timeout ts) = kindOf (verdict reason timeout ss) := by
  have alike {α : Type} (f : Sighting → Option α) : ts.filterMap f = [] ↔ ss.filterMap f = [] := by
    have perm := same.filterMap f
    constructor
    · intro empty
      exact (empty ▸ perm).eq_nil
    · intro empty
      exact (empty ▸ perm).symm.eq_nil
  simp only [kindOf_verdict, ne_eq, alike]

theorem verdict_padded (padded : Padded ss ts) (failed : ∃ s ∈ ss, s.IsFailure) :
    verdict reason timeout ts = verdict reason timeout ss := by
  obtain ⟨s, there, ⟨e, client⟩ | ⟨status, is⟩ | ⟨e, fault, genuine⟩⟩ := failed
  · obtain ⟨first, rest, clients⟩ := List.exists_cons_of_ne_nil
      (List.ne_nil_of_mem (List.mem_filterMap.2 ⟨s, there, client⟩))
    simp only [verdict, padded.clients, padded.statuses, clients, List.head?_cons]
    rcases reason with _ | _ | _ | _ <;> rfl
  · obtain ⟨first, rest, statuses⟩ := List.exists_cons_of_ne_nil
      (List.ne_nil_of_mem (List.mem_filterMap.2 ⟨s, there, is⟩))
    simp only [verdict, padded.clients, padded.statuses, statuses, List.head?_cons]
    rcases reason with _ | _ | _ | _ <;> cases (ss.filterMap client?).head? <;> rfl
  · have found : ((ss.filterMap fault?).find? (!·.isCancellation)).isSome := by
      rw [List.find?_isSome]
      exact ⟨e, List.mem_filterMap.2 ⟨s, there, fault⟩, by rw [genuine]; rfl⟩
    have same : TransportError.gravest (ts.filterMap fault?) =
        TransportError.gravest (ss.filterMap fault?) := by
      rw [TransportError.gravest_of_genuine found, ← padded.find?_faults]
      exact TransportError.gravest_of_genuine (padded.find?_faults ▸ found)
    simp only [verdict, padded.clients, padded.statuses, same]

/-- The outcome is that of the first report of the gravest kind. In another order it is of the same
kind, and cancellations among the reports of a failure make no difference to it. -/
theorem resolves_by_gravity (ctx : Context) (ss : List Sighting) :
    (ofSightings ss).resolve ctx = verdict ctx.reason (.ofMicros ctx.timeout) ss ∧
      (∀ ts, ss.Perm ts →
        kindOf ((ofSightings ts).resolve ctx) = kindOf ((ofSightings ss).resolve ctx)) ∧
      ∀ ts, Padded ss ts → (∃ s ∈ ss, s.IsFailure) →
        (ofSightings ts).resolve ctx = (ofSightings ss).resolve ctx := by
  refine ⟨resolve_ofSightings ctx ss, fun ts same => ?_, fun ts padded failed => ?_⟩
  · rw [resolve_ofSightings, resolve_ofSightings]
    exact kindOf_verdict_perm same
  · rw [resolve_ofSightings, resolve_ofSightings]
    exact verdict_padded padded failed

/-- A cancelled relay before a reset connection, and a cancelled call behind it. -/
theorem resolves_by_gravity_reset :
    (ofSightings [.relay ⟨.inbound, 4, some (.cancelled .done)⟩,
        .transport (.sidechannel (.io ⟨.connectionReset, "reset"⟩)),
        .call (.cancelled .done)]).resolve (.start 0 5000000) =
      .error (.transport (.sidechannel (.io ⟨.connectionReset, "reset"⟩))) :=
  (resolves_by_gravity (.start 0 5000000)
    [.transport (.sidechannel (.io ⟨.connectionReset, "reset"⟩))]).2.2 _
    (.echo ⟨_, rfl, rfl⟩ (.keep _ (.echo ⟨_, rfl, rfl⟩ .nil)))
    ⟨_, List.mem_cons_self, .inr (.inr ⟨_, rfl, rfl⟩)⟩

end Observed
end PackRelay
