import PackRelay.Proofs.Lookup
import PackRelay.Server.Shutdown
import Mathlib.Data.Finset.Basic

/-! No stop signal is lost. What a receiver is told depends on the signals given since it subscribed
or caught up, and on whether a handle lives; a ledger that knows nothing of the other receivers keeps
the count, and agrees with the channel after every history. -/
namespace PackRelay.Shutdown

/-- The handles that live and, while a receiver is subscribed, how many signals it has yet to be
told of. -/
structure Ledger where
  handles : Finset String
  due : Option Nat
  deriving DecidableEq

namespace Ledger

def start (handle : String) : Ledger := ⟨{handle}, none⟩

/-- One signal is taken. Of several all but the latest are missed, and that one is still to come. -/
def caughtUp (due : Nat) : Nat := if 2 ≤ due then 1 else 0

/-- What a step means to the receiver `r`. -/
def note (r : String) (l : Ledger) : Step → Ledger
  | .subscribe receiver handle =>
    if handle ∈ l.handles ∧ receiver = r then { l with due := some 0 } else l
  | .clone name handle =>
    if handle ∈ l.handles then { l with handles := insert name l.handles } else l
  | .drop handle => { l with handles := l.handles.erase handle }
  | .unsubscribe receiver => if receiver = r then { l with due := none } else l
  | .trigger handle => if handle ∈ l.handles then { l with due := l.due.map (· + 1) } else l
  | .receive receiver => if receiver = r then { l with due := l.due.map caughtUp } else l

def follow (r : String) (l : Ledger) (steps : List Step) : Ledger := steps.foldl (note r) l

def tells (l : Ledger) : Outcome :=
  match l.due with
  | none => .unknown
  | some 0 => .received (if l.handles = ∅ then .closed else .empty)
  | some 1 => .received .signal
  | some (missed + 2) => .received (.lagged (missed + 1))

end Ledger

/-- The receiver whose step it is. -/
def Step.receiver? : Step → Option String
  | .subscribe receiver _ | .unsubscribe receiver | .receive receiver => some receiver
  | .clone _ _ | .drop _ | .trigger _ => none

/-- The step gives the signal, through a handle that lives. -/
def Step.signals (c : Channel) : Step → Bool
  | .trigger handle => c.handles.contains handle
  | _ => false

namespace Channel

def follow (c : Channel) (steps : List Step) : Channel := steps.foldl (fun c s => (c.perform s).2) c

/-- How many signals are given in a history. -/
def given : Channel → List Step → Nat
  | _, [] => 0
  | c, step :: rest => (step.signals c).toNat + given (c.perform step).2 rest

variable {c : Channel} {r : String} {l : Ledger}

/-- The channel owes a receiver what its ledger says. -/
structure Owes (c : Channel) (r : String) (l : Ledger) : Prop where
  handles : ∀ handle, handle ∈ c.handles ↔ handle ∈ l.handles
  within : ∀ seen, c.receivers.lookup r = some seen → seen ≤ c.sent
  due : l.due = (c.receivers.lookup r).map (c.sent - ·)

theorem owes_start (handle r : String) : (start handle).Owes r (.start handle) where
  handles other := by simp [start, Ledger.start]
  within _ found := by cases found
  due := rfl

theorem Owes.contains (owes : c.Owes r l) (handle : String) :
    c.handles.contains handle = decide (handle ∈ l.handles) := by
  simp [← owes.handles]

theorem Owes.closed (owes : c.Owes r l) : c.handles.isEmpty = decide (l.handles = ∅) := by
  rw [Bool.eq_iff_iff, List.isEmpty_iff, decide_eq_true_eq, List.eq_nil_iff_forall_not_mem,
    Finset.eq_empty_iff_forall_notMem]
  exact forall_congr' fun handle => not_congr (owes.handles handle)

/-- Nothing that happens to others is noticed. -/
theorem Owes.apart {c' : Channel} (owes : c.Owes r l) (handles : c'.handles = c.handles)
    (sent : c'.sent = c.sent) (found : c'.receivers.lookup r = c.receivers.lookup r) :
    c'.Owes r l where
  handles := handles.symm ▸ owes.handles
  within := by rw [found, sent]; exact owes.within
  due := by rw [found, sent]; exact owes.due

theorem lookup_put (receivers : List (String × Nat)) (r q : String) (seen : Nat) :
    ((q, seen) :: receivers.filter (·.1 ≠ q)).lookup r =
      if q = r then some seen else receivers.lookup r := by
  by_cases own : q = r
  · simp [own]
  · have differs : r ≠ q := fun is => own is.symm
    simp only [List.lookup_cons, beq_eq_false_iff_ne.2 differs, lookup_filter_ne _ differs, own,
      if_false]

theorem sent_sub_take {seen : Nat} (within : seen ≤ c.sent) :
    (c.take seen).2 ≤ c.sent ∧ c.sent - (c.take seen).2 = Ledger.caughtUp (c.sent - seen) := by
  unfold take
  rcases pending : c.sent - seen with _ | _ | missed
  · exact ⟨within, pending⟩
  · exact ⟨Nat.le_refl _, Nat.sub_self _⟩
  · have one : Ledger.caughtUp (missed + 2) = 1 := if_pos (Nat.le_add_left 2 missed)
    refine ⟨Nat.sub_le _ 1, ?_⟩
    rw [one]
    exact Nat.sub_sub_self (by omega)

theorem Owes.subscribe (owes : c.Owes r l) (receiver handle : String) :
    (c.perform (.subscribe receiver handle)).2.Owes r (l.note r (.subscribe receiver handle)) := by
  simp only [perform, Ledger.note, owes.contains, decide_eq_true_eq]
  by_cases lives : handle ∈ l.handles
  · have found := lookup_put c.receivers r receiver c.sent
    by_cases own : receiver = r
    · rw [if_pos own] at found
      simp only [lives, own, and_self, if_true]
      refine ⟨owes.handles, fun seen is => ?_, ?_⟩
      · subst own
        cases found.symm.trans is
        exact Nat.le_refl _
      · subst own
        rw [Channel.subscribe, found]
        simp
    · rw [if_neg own] at found
      simp only [lives, own, and_false, if_true, if_false]
      exact owes.apart rfl rfl found
  · simp only [lives, false_and, if_false]
    exact owes

theorem Owes.clone (owes : c.Owes r l) (name handle : String) :
    (c.perform (.clone name handle)).2.Owes r (l.note r (.clone name handle)) := by
  simp only [perform, Ledger.note, owes.contains, decide_eq_true_eq]
  by_cases lives : handle ∈ l.handles
  · simp only [lives, if_true]
    refine ⟨fun other => ?_, owes.within, owes.due⟩
    by_cases same : other = name
    · simp [same]
    · simp [same, owes.handles]
  · simp only [lives, if_false]
    exact owes

theorem Owes.drop (owes : c.Owes r l) (handle : String) :
    (c.perform (.drop handle)).2.Owes r (l.note r (.drop handle)) where
  handles other := by
    simp only [perform, Ledger.note, List.mem_filter, owes.handles, Finset.mem_erase,
      decide_eq_true_eq]
    exact and_comm
  within := owes.within
  due := owes.due

theorem Owes.unsubscribe (owes : c.Owes r l) (receiver : String) :
    (c.perform (.unsubscribe receiver)).2.Owes r (l.note r (.unsubscribe receiver)) := by
  by_cases own : receiver = r
  · subst own
    have gone := lookup_filter_self c.receivers receiver
    simp only [perform, Ledger.note, if_true]
    refine ⟨owes.handles, fun seen is => ?_, ?_⟩
    · cases gone.symm.trans is
    · rw [gone]
      rfl
  · simp only [perform, Ledger.note, own, if_false]
    exact owes.apart rfl rfl (lookup_filter_ne _ fun is => own is.symm)

theorem Owes.trigger (owes : c.Owes r l) (handle : String) :
    (c.perform (.trigger handle)).2.Owes r (l.note r (.trigger handle)) := by
  simp only [perform, Ledger.note, owes.contains, decide_eq_true_eq]
  by_cases lives : handle ∈ l.handles
  · simp only [lives, if_true, Channel.trigger]
    by_cases nobody : c.receivers = []
    · simp only [nobody, List.isEmpty_nil, if_true]
      refine ⟨owes.handles, owes.within, ?_⟩
      simp [owes.due, nobody]
    · have somebody : c.receivers.isEmpty = false := by simpa using nobody
      simp only [somebody, Bool.false_eq_true, if_false]
      refine ⟨owes.handles, fun seen is => Nat.le_succ_of_le (owes.within seen is), ?_⟩
      cases found : c.receivers.lookup r with
      | none => simp [owes.due, found]
      | some seen =>
        have within := owes.within seen found
        simp only [owes.due, found, Option.map_some, Option.some.injEq]
        omega
  · simp only [lives, if_false]
    exact owes

theorem Owes.receive (owes : c.Owes r l) (receiver : String) :
    (c.perform (.receive receiver)).2.Owes r (l.note r (.receive receiver)) := by
  simp only [perform, Ledger.note]
  cases found : c.receivers.lookup receiver with
  | none =>
    by_cases own : receiver = r
    · subst own
      have unsubscribed : l.due = none := by rw [owes.due, found, Option.map_none]
      simp only [if_true, unsubscribed, Option.map_none]
      exact unsubscribed ▸ owes
    · simp only [own, if_false]
      exact owes
  | some seen =>
    have put := lookup_put c.receivers r receiver (c.take seen).2
    by_cases own : receiver = r
    · subst own
      rw [if_pos rfl] at put
      obtain ⟨within, left⟩ := sent_sub_take (owes.within seen found)
      simp only [if_true]
      refine ⟨owes.handles, fun seen' is => ?_, ?_⟩
      · cases put.symm.trans is
        exact within
      · simp only [owes.due, found, put, Option.map_some, left]
    · rw [if_neg own] at put
      simp only [own, if_false]
      exact owes.apart rfl rfl put

theorem Owes.step (owes : c.Owes r l) (step : Step) : (c.perform step).2.Owes r (l.note r step) := by
  cases step with
  | subscribe receiver handle => exact owes.subscribe receiver handle
  | clone name handle => exact owes.clone name handle
  | drop handle => exact owes.drop handle
  | unsubscribe receiver => exact owes.unsubscribe receiver
  | trigger handle => exact owes.trigger handle
  | receive receiver => exact owes.receive receiver

theorem Owes.follow (owes : c.Owes r l) (steps : List Step) :
    (c.follow steps).Owes r (l.follow r steps) := by
  induction steps generalizing c l with
  | nil => exact owes
  | cons step rest ih => exact ih (owes.step step)

theorem Owes.tells (owes : c.Owes r l) : (c.perform (.receive r)).1 = l.tells := by
  simp only [perform, Ledger.tells, owes.due]
  cases found : c.receivers.lookup r with
  | none => rfl
  | some seen =>
    simp only [take, Option.map_some]
    rcases pending : c.sent - seen with _ | _ | missed
    · simp [owes.closed]
    · rfl
    · rfl

theorem perform_trigger_nobody (nobody : c.receivers = []) (handle : String) :
    (c.perform (.trigger handle)).2 = c := by
  have same : c.trigger = c := by simp only [Channel.trigger, nobody, List.isEmpty_nil, if_true]
  simp only [perform, same]
  split <;> rfl

theorem performAll_append (c : Channel) (before : List Step) (step : Step) (rest : List Step) :
    (c.performAll (before ++ step :: rest))[before.length]? =
      some ((c.follow before).perform step).1 := by
  induction before generalizing c with
  | nil => rfl
  | cons first before ih => exact ih (c.perform first).2

end Channel

namespace Ledger

variable {r : String} {l : Ledger}

/-- The steps of other receivers leave no trace. -/
theorem note_other {step : Step} {q : String} (whose : step.receiver? = some q) (other : q ≠ r) :
    l.note r step = l := by
  cases step with
  | subscribe receiver handle =>
    cases whose
    simp [note, other]
  | unsubscribe receiver =>
    cases whose
    simp [note, other]
  | receive receiver =>
    cases whose
    simp [note, other]
  | clone name handle => cases whose
  | drop handle => cases whose
  | trigger handle => cases whose

theorem follow_filter (l : Ledger) (steps : List Step) :
    l.follow r (steps.filter fun step => step.receiver?.all (· = r)) = l.follow r steps := by
  induction steps generalizing l with
  | nil => rfl
  | cons step rest ih =>
    cases whose : step.receiver? with
    | none => simpa [follow, whose] using ih (l.note r step)
    | some q =>
      by_cases own : q = r
      · simpa [follow, whose, own] using ih (l.note r step)
      · have same := note_other (l := l) whose own
        simpa [follow, whose, own, same] using ih l

theorem follow_drops (l : Ledger) (names : List String) :
    (l.follow r (names.map .drop)).due = l.due := by
  induction names generalizing l with
  | nil => rfl
  | cons name names ih => exact ih (l.note r (.drop name))

theorem tells_subscribe {handle : String} (lives : handle ∈ l.handles) :
    (l.note r (.subscribe r handle)).tells = .received .empty := by
  have open_ : l.handles ≠ ∅ := Finset.ne_empty_of_mem lives
  simp only [note, lives, and_self, if_true, tells, open_, if_false]

theorem tells_of_pending {l' : Ledger} {k : Nat} (pending : l.due = some (k + 1))
    (same : l'.due = l.due) : l'.tells = l.tells := by
  simp only [tells, same, pending]
  cases k <;> rfl

end Ledger

namespace Channel

variable {c : Channel} {r : String} {l : Ledger}

theorem Owes.note_due (owes : c.Owes r l) {step : Step} (whose : step.receiver? ≠ some r) :
    (l.note r step).due = l.due.map (· + (step.signals c).toNat) := by
  cases whose' : step.receiver? with
  | some q =>
    have other : q ≠ r := fun is => whose (is ▸ whose')
    rw [Ledger.note_other whose' other]
    cases step with
    | subscribe receiver handle => simp [Step.signals]
    | unsubscribe receiver => simp [Step.signals]
    | receive receiver => simp [Step.signals]
    | clone name handle => cases whose'
    | drop handle => cases whose'
    | trigger handle => cases whose'
  | none =>
    cases step with
    | trigger handle =>
      by_cases lives : handle ∈ l.handles <;>
        simp [Ledger.note, Step.signals, owes.handles, lives]
    | clone name handle =>
      by_cases lives : handle ∈ l.handles <;> simp [Ledger.note, Step.signals, lives]
    | drop handle => simp [Ledger.note, Step.signals]
    | subscribe receiver handle => cases whose'
    | unsubscribe receiver => cases whose'
    | receive receiver => cases whose'

theorem Owes.follow_due (owes : c.Owes r l) {since : List Step}
    (idle : ∀ step ∈ since, step.receiver? ≠ some r) :
    (l.follow r since).due = l.due.map (· + c.given since) := by
  induction since generalizing c l with
  | nil => simp [Ledger.follow, given]
  | cons step since ih =>
    obtain ⟨here, later⟩ := List.forall_mem_cons.1 idle
    have rest := ih (owes.step step) later
    rw [owes.note_due here] at rest
    rw [Ledger.follow, List.foldl_cons, ← Ledger.follow, rest, Option.map_map]
    congr 1
    funext due
    simp only [Function.comp_apply, given]
    omega

/-- What a receiver can rely on after a history. -/
structure Reliable (first : String) (steps : List Step) (r : String) : Prop where
  /-- It is told what its ledger says, whatever happens afterwards. -/
  told : ∀ rest, ((start first).performAll (steps ++ .receive r :: rest))[steps.length]? =
    some ((Ledger.start first).follow r steps).tells
  /-- While it does nothing itself, every signal counts, and nothing else does. -/
  counted : ∀ since : List Step, (∀ step ∈ since, step.receiver? ≠ some r) →
    ((Ledger.start first).follow r (steps ++ since)).due =
      ((Ledger.start first).follow r steps).due.map (· + ((start first).follow steps).given since)
  /-- A signal that is still to come is not discarded with the handles. -/
  lasting : ∀ (names : List String) k, ((Ledger.start first).follow r steps).due = some (k + 1) →
    (((start first).follow (steps ++ names.map .drop)).perform (.receive r)).1 =
      (((start first).follow steps).perform (.receive r)).1
  /-- Other receivers might as well not be there. -/
  apart : (((start first).follow steps).perform (.receive r)).1 =
    (((start first).follow (steps.filter fun step => step.receiver?.all (· = r))).perform
      (.receive r)).1
  /-- Signals from before it subscribed are not for it. -/
  fresh : ∀ handle ∈ ((start first).follow steps).handles,
    (((start first).follow (steps ++ [.subscribe r handle])).perform (.receive r)).1 =
      .received .empty
  /-- A signal with nobody to get it leaves nothing behind. -/
  forgotten : ((start first).follow steps).receivers = [] → ∀ handle,
    (start first).follow (steps ++ [.trigger handle]) = (start first).follow steps

theorem no_signal_lost (first : String) (steps : List Step) (r : String) :
    Reliable first steps r := by
  have owes (steps : List Step) := (owes_start first r).follow steps
  have follow_append (steps more : List Step) :
      (start first).follow (steps ++ more) = ((start first).follow steps).follow more :=
    List.foldl_append
  have ledger_append (steps more : List Step) : (Ledger.start first).follow r (steps ++ more) =
      ((Ledger.start first).follow r steps).follow r more := List.foldl_append
  constructor
  case told =>
    intro rest
    rw [performAll_append, (owes steps).tells]
  case counted =>
    intro since idle
    rw [ledger_append, (owes steps).follow_due idle]
  case lasting =>
    intro names k pending
    rw [(owes _).tells, (owes steps).tells, ledger_append]
    exact Ledger.tells_of_pending pending (Ledger.follow_drops _ names)
  case apart =>
    rw [(owes _).tells, (owes _).tells, Ledger.follow_filter]
  case fresh =>
    intro handle lives
    have lives : handle ∈ ((Ledger.start first).follow r steps).handles :=
      ((owes steps).handles handle).1 lives
    rw [(owes _).tells, ledger_append]
    exact Ledger.tells_subscribe lives
  case forgotten =>
    intro nobody handle
    rw [follow_append]
    exact perform_trigger_nobody nobody handle

/-- The latest of several signals outlives the last handle. -/
example : (start "main").performAll [.subscribe "a" "main", .trigger "main", .trigger "main",
    .drop "main", .receive "a", .receive "a", .receive "a"] =
    [.done, .done, .done, .existed true, .received (.lagged 1), .received .signal,
      .received .closed] := by decide

end Channel
end PackRelay.Shutdown
