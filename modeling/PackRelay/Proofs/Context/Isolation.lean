import PackRelay.Duration
import PackRelay.Proofs.Context.Reasons
import Mathlib.Algebra.Group.Nat.Defs

/-! Contexts do not see each other. What is done about one of them, and what it answers, is as in a
run of its own, where nothing is left of the others but the time that their callers let pass. -/
namespace PackRelay.Context

/-- The actions on one context. -/
def Action.concerns (x : String) : Action → Bool
  | .begin n _ | .cancel n _ | .check n | .state n | .cancelled n | .wait n _ | .pollCancelled n
  | .pollWait n _ | .guard n _ => decide (n = x)
  | _ => false

def Action.begins (x : String) : Action → Bool
  | .begin n _ => decide (n = x)
  | _ => false

/-- The timeout that was set last, when it was `n` microseconds at first. -/
def lastSet (n : Nat) (actions : List Action) : Nat :=
  actions.foldl (fun n a => match a with | .setTimeout m => m | _ => n) n

/-- What is done where most actions are left out. -/
inductive Deed
  | does (a : Action)
  /-- Time passes, and in the end the watchers get to look or do not. -/
  | passes (ms : Nat) (settled : Bool)

/-- The timeout that counts after it. -/
def Deed.sets (n : Nat) : Deed → Nat
  | .does a => lastSet n [a]
  | .passes _ _ => n

namespace World

variable {w v s : World} {a : Action} {r : Answer} {b : Bound} {x p name : String} {begun : Bool}
    {actions : List Action} {log : List (Action × Answer)} {α : Type}
    {poll : Nat → World → Poll World α}

def undergo (s : World) : Deed → Option (List (Action × Answer) × World)
  | .does a => (s.perform a).map fun (r, s) => ([(a, r)], s)
  | .passes ms settled => (s.sleep ms).map fun (_, s) => ([], if settled then s.settleAt s.now else s)

def live (s : World) : List Deed → Option (List (Action × Answer) × World)
  | [] => some ([], s)
  | d :: rest => (s.undergo d).bind fun (log, s) => (live s rest).map fun (log', s) => (log ++ log', s)

/-- A context was seen to be cancelled that was not cancelled before: its watcher has looked. -/
def tripped (w : World) (name : String) (v : World) : Bool :=
  ((w.find? name).bind signal).isNone && ((v.find? name).bind signal).isSome

/-- What an action that leads from `w` to `v` means for a context `x` of the request `p` that it is
not about. No timeout counts any more that is set after the context began. -/
def effects (x p : String) (begun : Bool) (w v : World) : Action → List Deed
  | .settle => [.does .settle]
  | .advance ms => [.does (.advance ms)]
  | .cancelParent q => if q = p then [.does (.cancelParent p)] else []
  | .setTimeout n => if begun then [] else [.does (.setTimeout n)]
  | .guard _ g | .dropGuard g => if w.guards.lookup g = some x then [.does (.dropGuard g)] else []
  | .cancelled n | .wait n _ => [.passes (v.now - w.now) (w.tripped n v)]
  | _ => []

/-- What is left of an action for the run of a context of its own. -/
def remains (x p : String) (begun : Bool) (w v : World) (a : Action) : List Deed :=
  if a.concerns x then [.does a] else effects x p begun w v a

/-- What is left of a run. -/
def remainder (x p : String) (begun : Bool) (w : World) : List Action → List Deed
  | [] => []
  | a :: rest =>
    match w.perform a with
    | some (_, v) => remains x p begun w v a ++ remainder x p (begun || a.begins x) v rest
    | none => []

/-- The run of its own beside the whole one: `x` is as there, and so are its request and its guards. -/
structure Alone (x p : String) (w s : World) : Prop where
  now : s.now = w.now
  find : s.contexts.lookup x = w.contexts.lookup x
  bound : ∀ b, w.contexts.lookup x = some b → b.parent = p
  gone : s.gone.contains p = w.gone.contains p
  guards : ∀ g, s.guards.lookup g = some x ↔ w.guards.lookup g = some x

theorem Alone.watched (alone : Alone x p w s) (u : Nat) (is : b.parent = p) :
    s.watched u b = w.watched u b := by
  simp only [World.watched, outside, is, alone.gone]

theorem Alone.settleAt (alone : Alone x p w s) (u : Nat) :
    Alone x p (w.settleAt u) (s.settleAt u) where
  now := alone.now
  find := by
    rw [lookup_settleAt, lookup_settleAt, alone.find]
    cases there : w.contexts.lookup x with
    | none => rfl
    | some b => rw [Option.map_some, Option.map_some, alone.watched u (alone.bound b there)]
  bound b there := by
    rw [lookup_settleAt] at there
    obtain ⟨b', there', rfl⟩ := Option.map_eq_some_iff.1 there
    exact alone.bound b' there'
  gone := alone.gone
  guards := alone.guards

theorem Alone.at (alone : Alone x p w s) (t : Nat) :
    Alone x p { w with now := t } { s with now := t } :=
  ⟨rfl, alone.find, alone.bound, alone.gone, alone.guards⟩

theorem Alone.moment (alone : Alone x p w s) (k : Nat) :
    (s.moment k).1 = (w.moment k).1 ∧ Alone x p (w.moment k).2 (s.moment k).2 := by
  cases k with
  | zero => exact ⟨alone.now, alone⟩
  | succ k =>
    simp only [World.moment, alone.now, true_and]
    exact alone.settleAt _

theorem sleep_eq (w : World) (ms : Nat) :
    w.sleep ms = some ((), { (w.moment (2 * ms)).2 with now := w.now + ms }) := by
  obtain ⟨w', slept⟩ := sleep_isSome w ms
  obtain ⟨k, halted, rfl⟩ := waitOn_over (waits_sleep _) slept
  have there : Over (fun now x => if w.now + ms ≤ now then (.ready () x : Poll World Unit)
      else .waiting x (some (w.now + ms))) w () (2 * ms) := by
    refine ⟨?_, fun j below => ⟨some (w.now + ms), ?_⟩⟩
    · rw [moment_time, if_pos (by omega)]
    · rw [moment_time, if_neg (by omega)]
  rw [slept, (halted.unique there).1, moment_time]
  simp

/-- A wait that sees nothing of the world but one context. -/
def Sees (x : String) (poll : Nat → World → Poll World α) : Prop :=
  ∀ (t : Nat) {w s : World}, s.find? x = w.find? x → poll t s = (poll t w).map id fun _ => s

theorem sees_pollWait (x : String) (stop : Nat) : Sees x fun now w => w.pollWait x stop now := by
  intro t w s same
  simp only [pollWait, same]
  cases (w.find? x).bind signal with
  | some r => rfl
  | none => by_cases past : stop ≤ t <;> simp [past, Poll.map]

theorem sees_pollCancelled (x : String) : Sees x fun _ w => w.pollCancelled x := by
  intro t w s same
  simp only [pollCancelled, same]
  cases (w.find? x).bind signal <;> rfl

theorem Alone.find? (alone : Alone x p w s) : s.find? x = w.find? x := by
  rw [World.find?, World.find?, alone.find]

theorem Alone.waitOn (alone : Alone x p w s) (waits : Waits poll) (sees : Sees x poll) {a : α}
    (waited : w.waitOn poll = some (a, v)) (ends : ∃ a' s', s.waitOn poll = some (a', s')) :
    ∃ s', s.waitOn poll = some (a, s') ∧ Alone x p v s' := by
  obtain ⟨k, halted, rfl⟩ := waitOn_over waits waited
  obtain ⟨a', s', ended⟩ := ends
  obtain ⟨k', halted', rfl⟩ := waitOn_over waits ended
  have here : Over poll s a k := by
    refine ⟨?_, fun j below => ?_⟩
    · obtain ⟨time, beside⟩ := alone.moment k
      rw [time, sees _ beside.find?, halted.ready]
      rfl
    · obtain ⟨time, beside⟩ := alone.moment j
      obtain ⟨alarm, waiting⟩ := halted.before j below
      rw [time, sees _ beside.find?, waiting]
      exact ⟨alarm, rfl⟩
  obtain ⟨rfl, rfl⟩ := halted'.unique here
  obtain ⟨time, beside⟩ := alone.moment k'
  exact ⟨_, ended, time ▸ beside.at _⟩

/-- A wait that is only cut short when a context is cancelled. -/
def Minds (name : String) (poll : Nat → World → Poll World α) : Prop :=
  ∀ (t : Nat) (w : World) (alarm : Option Nat), poll t w = .waiting w alarm →
    (w.find? name).bind signal = none ∧
    ∀ v a, poll t v = .ready a v → ((v.find? name).bind signal).isSome

theorem minds_pollWait (name : String) (stop : Nat) :
    Minds name fun now w => w.pollWait name stop now := by
  intro t w alarm waiting
  simp only [pollWait] at waiting ⊢
  split at waiting
  · cases waiting
  · rename_i silent
    refine ⟨silent, fun v a ready => ?_⟩
    split at waiting
    · cases waiting
    · rename_i early
      cases told : (v.find? name).bind signal with
      | some r => rfl
      | none => simp [told, early] at ready

theorem minds_pollCancelled (name : String) : Minds name fun _ w => w.pollCancelled name := by
  intro t w alarm waiting
  simp only [pollCancelled] at waiting ⊢
  split at waiting
  · cases waiting
  · rename_i silent
    refine ⟨silent, fun v a ready => ?_⟩
    cases told : (v.find? name).bind signal with
    | some r => rfl
    | none => simp [told] at ready

/-- Of two moments at the same time, the watchers look before the second. -/
theorem tripped_of_over (minds : Minds name poll) {a : α} {k t : Nat} (halted : Over poll w a k) :
    w.tripped name { (w.moment k).2 with now := t } = decide (k % 2 = 1) := by
  have same : ({ (w.moment k).2 with now := t } : World).find? name = (w.moment k).2.find? name := rfl
  rw [tripped, same]
  obtain ⟨m, rfl | rfl⟩ : ∃ m, k = 2 * m ∨ k = 2 * m + 1 := ⟨k / 2, by omega⟩
  · have even : decide (2 * m % 2 = 1) = false := by simp
    rw [even]
    cases m with
    | zero =>
      have here : (w.moment (2 * 0)).2 = w := rfl
      rw [here]
      cases (w.find? name).bind signal <;> rfl
    | succ m =>
      obtain ⟨alarm, waiting⟩ := halted.before (2 * m + 1) (by omega)
      have still : (w.moment (2 * (m + 1))).2 = (w.moment (2 * m + 1)).2 := by
        simp only [moment, Nat.mul_add]
        congr 2
        omega
      rw [still, (minds _ _ _ waiting).1]
      simp
  · have odd : decide ((2 * m + 1) % 2 = 1) = true := by simp
    obtain ⟨alarm, first⟩ := halted.before 0 (by omega)
    obtain ⟨alarm', waiting⟩ := halted.before (2 * m) (by omega)
    have ready := halted.ready
    have time : (w.moment (2 * m + 1)).1 = (w.moment (2 * m)).1 := by
      rw [moment_time, moment_time]
      omega
    rw [time] at ready
    rw [odd, (minds _ _ _ waiting).2 _ _ ready]
    have silent : (w.find? name).bind signal = none := (minds _ _ _ first).1
    rw [silent]
    rfl

theorem undergo_passes (s : World) (k : Nat) :
    s.undergo (.passes (k / 2) (decide (k % 2 = 1))) =
      some ([], { (s.moment k).2 with now := s.now + k / 2 }) := by
  simp only [undergo, sleep_eq, Option.map_some, decide_eq_true_eq]
  by_cases odd : k % 2 = 1
  · have next : k = 2 * (k / 2) + 1 := by omega
    have settled := settleAt_moment (w := s) (k := 2 * (k / 2)) (u := s.now + k / 2) (by omega)
    have half : 2 * (k / 2) / 2 = k / 2 := by omega
    have there : (s.moment (2 * (k / 2) + 1)).2 = s.settleAt (s.now + k / 2) := by
      simp only [moment, half]
    rw [← next] at there
    rw [if_pos odd, there, ← settled]
    rfl
  · rw [if_neg odd]
    have whole : 2 * (k / 2) = k := by omega
    rw [whole]

theorem Alone.others (alone : Alone x p w s) (waits : Waits poll) (minds : Minds name poll) {a : α}
    (waited : w.waitOn poll = some (a, v)) :
    ∃ s', s.undergo (.passes (v.now - w.now) (w.tripped name v)) = some ([], s') ∧
      Alone x p v s' := by
  obtain ⟨k, halted, rfl⟩ := waitOn_over waits waited
  rw [tripped_of_over minds halted]
  have ms : (w.moment k).1 - w.now = k / 2 := by
    rw [moment_time]
    omega
  simp only [ms, undergo_passes]
  obtain ⟨time, beside⟩ := alone.moment k
  refine ⟨_, rfl, ?_⟩
  rw [alone.now, ← moment_time]
  exact beside.at _

theorem lookup_dropGuard (w : World) (g x : String) :
    (w.dropGuard g).contexts.lookup x = (w.contexts.lookup x).map fun b =>
      if w.guards.lookup g = some x then { b with ctx := b.ctx.cancel .done } else b := by
  unfold dropGuard
  cases held : w.guards.lookup g with
  | none => simp
  | some n => simp [eq_comm]

theorem guards_dropGuard (w : World) (g g' : String) :
    (w.dropGuard g).guards.lookup g' = if g' = g then none else w.guards.lookup g' := by
  unfold dropGuard
  by_cases same : g' = g
  · subst same
    cases free : w.guards.lookup g' with
    | none => simp [free]
    | some n =>
      rw [if_pos rfl]
      exact lookup_filter_self w.guards g'
  · cases w.guards.lookup g with
    | none => simp [same]
    | some n => simp only [lookup_filter_ne _ same, same, if_false]

@[simp] theorem now_dropGuard (w : World) (g : String) : (w.dropGuard g).now = w.now := by
  unfold dropGuard
  split <;> rfl

@[simp] theorem gone_dropGuard (w : World) (g : String) : (w.dropGuard g).gone = w.gone := by
  unfold dropGuard
  split <;> rfl

/-- A context that is cancelled, or not, in both runs. -/
theorem bound_map {f : Bound → Bound} (keeps : ∀ b, (f b).parent = b.parent)
    (bound : ∀ b, w.contexts.lookup x = some b → b.parent = p) (b : Bound)
    (there : (w.contexts.lookup x).map f = some b) : b.parent = p := by
  obtain ⟨b', there', rfl⟩ := Option.map_eq_some_iff.1 there
  rw [keeps, bound b' there']

theorem Alone.dropGuard (alone : Alone x p w s) (g : String) :
    Alone x p (w.dropGuard g) (s.dropGuard g) where
  now := by simp [alone.now]
  find := by simp only [lookup_dropGuard, alone.find, alone.guards]
  bound b there := by
    rw [lookup_dropGuard] at there
    exact bound_map (fun b => by split <;> rfl) alone.bound b there
  gone := by rw [gone_dropGuard, gone_dropGuard, alone.gone]
  guards g' := by
    rw [guards_dropGuard, guards_dropGuard]
    split
    · rfl
    · exact alone.guards g'

/-- To drop a guard of another context is nothing to this one. -/
theorem Alone.dropGuard_other (alone : Alone x p w s) {g : String}
    (other : w.guards.lookup g ≠ some x) : Alone x p (w.dropGuard g) s where
  now := by simp [alone.now]
  find := by
    rw [lookup_dropGuard, alone.find]
    simp [other]
  bound b there := by
    rw [lookup_dropGuard] at there
    exact bound_map (fun b => by split <;> rfl) alone.bound b there
  gone := by rw [gone_dropGuard, alone.gone]
  guards g' := by
    rw [guards_dropGuard, alone.guards]
    split
    · rename_i same
      simp [same, other]
    · rfl

theorem Alone.update (alone : Alone x p w s) (f : Context → Context) :
    Alone x p (w.update x f) (s.update x f) where
  now := alone.now
  find := by rw [lookup_update, lookup_update, alone.find]
  bound b there := by
    rw [lookup_update] at there
    exact bound_map (fun b => by split <;> rfl) alone.bound b there
  gone := alone.gone
  guards := alone.guards

theorem Alone.update_other (alone : Alone x p w s) {n : String} (other : n ≠ x)
    (f : Context → Context) : Alone x p (w.update n f) s where
  now := alone.now
  find := by
    rw [lookup_update, alone.find]
    simp [other.symm]
  bound b there := by
    rw [lookup_update] at there
    exact bound_map (fun b => by split <;> rfl) alone.bound b there
  gone := alone.gone
  guards := alone.guards

theorem Alone.guard (alone : Alone x p w s) (g : String) :
    Alone x p { w with guards := (g, x) :: w.guards } { s with guards := (g, x) :: s.guards } where
  now := alone.now
  find := alone.find
  bound := alone.bound
  gone := alone.gone
  guards g' := by
    simp only [List.lookup_cons]
    split
    · rfl
    · exact alone.guards g'

theorem Alone.guard_other (alone : Alone x p w s) {g n : String} (other : n ≠ x)
    (free : w.guards.lookup g = none) :
    Alone x p { w with guards := (g, n) :: w.guards } s where
  now := alone.now
  find := alone.find
  bound := alone.bound
  gone := alone.gone
  guards g' := by
    rw [alone.guards, List.lookup_cons]
    split
    · rename_i same
      cases eq_of_beq same
      simp [free, other]
    · rfl

theorem Alone.controller (alone : Alone x p w s) (c c' : DeadlineController) :
    Alone x p { w with controller := c } { s with controller := c' } :=
  ⟨alone.now, alone.find, alone.bound, alone.gone, alone.guards⟩

theorem Alone.begin_other (alone : Alone x p w s) {n : String} (other : n ≠ x) (b : Bound) :
    Alone x p { w with contexts := (n, b) :: w.contexts.filter (·.1 ≠ n) } s := by
  have same : ((n, b) :: w.contexts.filter (·.1 ≠ n)).lookup x = w.contexts.lookup x := by
    rw [List.lookup_cons, beq_eq_false_iff_ne.2 other.symm]
    exact lookup_filter_ne w.contexts other.symm
  exact ⟨alone.now, alone.find.trans same.symm, fun b there => alone.bound b (same ▸ there),
    alone.gone, alone.guards⟩

theorem Alone.leave (alone : Alone x p w s) :
    Alone x p { w with gone := p :: w.gone } { s with gone := p :: s.gone } where
  now := alone.now
  find := alone.find
  bound := alone.bound
  gone := by simp
  guards := alone.guards

theorem Alone.leave_other (alone : Alone x p w s) {q : String} (other : q ≠ p) :
    Alone x p { w with gone := q :: w.gone } s where
  now := alone.now
  find := alone.find
  bound := alone.bound
  gone := by
    rw [List.contains_cons, beq_eq_false_iff_ne.2 other.symm, Bool.false_or, alone.gone]
  guards := alone.guards

theorem isSome_of_cancelled {q : CancelReason}
    (waited : w.waitOn (fun _ w => w.pollCancelled name) = some (q, v)) : (w.find? name).isSome := by
  obtain ⟨k, halted, rfl⟩ := waitOn_over (waits_pollCancelled name) waited
  have ready := halted.ready
  have there : ((w.moment k).2.find? name).isSome := by
    simp only [pollCancelled] at ready
    split at ready
    · rename_i told
      obtain ⟨c, is, _⟩ := Option.bind_eq_some_iff.1 told
      exact Option.isSome_iff_exists.2 ⟨c, is⟩
    · cases ready
  cases k with
  | zero => exact there
  | succ k => rwa [moment, find?_settleAt] at there

theorem Sees.pending (sees : Sees x poll) (same : s.find? x = w.find? x) (t : Nat)
    (answer : α → Answer) : pending answer (poll t s) = pending answer (poll t w) := by
  rw [sees t same]
  cases poll t w <;> rfl

/-- What is done about a context is answered in the run of its own as in the whole one. -/
theorem Alone.mine (alone : Alone x p w s) (mine : a.concerns x = true)
    (other : ∀ q, a ≠ .begin x q) (performed : w.perform a = some (r, v)) :
    ∃ s', s.perform a = some (r, s') ∧ Alone x p v s' := by
  cases a with
  | timeout | setTimeout n | cancelParent q | settle | advance ms | dropGuard g => cases mine
  | begin n q =>
    cases of_decide_eq_true mine
    exact absurd rfl (other q)
  | cancel n q =>
    cases of_decide_eq_true mine
    cases performed
    exact ⟨_, rfl, alone.update _⟩
  | check n =>
    cases of_decide_eq_true mine
    simp only [perform, Option.map_eq_some_iff, Prod.mk.injEq] at performed
    obtain ⟨c, there, rfl, rfl⟩ := performed
    simp only [perform, alone.find?, there, Option.map_some, alone.now]
    exact ⟨_, rfl, alone.update _⟩
  | state n =>
    cases of_decide_eq_true mine
    simp only [perform, Option.map_eq_some_iff, Prod.mk.injEq] at performed
    obtain ⟨c, there, rfl, rfl⟩ := performed
    simp only [perform, alone.find?, there, Option.map_some]
    exact ⟨_, rfl, alone⟩
  | pollCancelled n =>
    cases of_decide_eq_true mine
    simp only [perform, Option.map_eq_some_iff, Prod.mk.injEq] at performed
    obtain ⟨c, there, rfl, rfl⟩ := performed
    have same := (sees_pollCancelled x).pending alone.find? w.now .reason
    exact ⟨s, by simp only [perform, alone.find?, there, Option.map_some, same], alone⟩
  | pollWait n stop =>
    cases of_decide_eq_true mine
    simp only [perform, Option.map_eq_some_iff, Prod.mk.injEq] at performed
    obtain ⟨c, there, rfl, rfl⟩ := performed
    have same := (sees_pollWait x stop).pending alone.find? w.now .waited
    exact ⟨s, by simp only [perform, alone.find?, there, Option.map_some, alone.now, same], alone⟩
  | cancelled n =>
    cases of_decide_eq_true mine
    simp only [perform, Option.map_eq_some_iff, Prod.mk.injEq] at performed
    obtain ⟨⟨q, _⟩, waited, rfl, rfl⟩ := performed
    have there : (s.find? x).isSome := alone.find?.symm ▸ isSome_of_cancelled waited
    obtain ⟨_, _, ended⟩ := pollCancelled_isSome there
    simp only [perform, Option.map_eq_some_iff] at ended
    obtain ⟨_, ended, _⟩ := ended
    obtain ⟨s', same, beside⟩ :=
      alone.waitOn (waits_pollCancelled x) (sees_pollCancelled x) waited ⟨_, _, ended⟩
    exact ⟨s', by rw [perform, same, Option.map_some], beside⟩
  | wait n ms =>
    cases of_decide_eq_true mine
    simp only [perform, Option.map_eq_some_iff, Prod.mk.injEq] at performed
    obtain ⟨⟨q, _⟩, waited, rfl, rfl⟩ := performed
    obtain ⟨_, _, ended⟩ := pollWait_isSome s x ms
    simp only [perform, Option.map_eq_some_iff] at ended
    obtain ⟨_, ended, _⟩ := ended
    rw [← alone.now] at waited
    obtain ⟨s', same, beside⟩ :=
      alone.waitOn (waits_pollWait x _) (sees_pollWait x _) waited ⟨_, _, ended⟩
    exact ⟨s', by rw [perform, same, Option.map_some], beside⟩
  | guard n g =>
    cases of_decide_eq_true mine
    cases performed
    exact ⟨_, rfl, (alone.dropGuard g).guard g⟩

@[simp] theorem live_nil (s : World) : s.live [] = some ([], s) := rfl

theorem live_one (s : World) (d : Deed) : s.live [d] = s.undergo d := by
  simp only [live, Option.map_some, List.append_nil]
  cases s.undergo d <;> rfl

theorem live_append {ds rest : List Deed} {log log' : List (Action × Answer)} {s' s'' : World}
    (first : s.live ds = some (log, s')) (onward : s'.live rest = some (log', s'')) :
    s.live (ds ++ rest) = some (log ++ log', s'') := by
  induction ds generalizing s log with
  | nil =>
    cases first
    exact onward
  | cons d ds ih =>
    simp only [live, Option.bind_eq_some_iff, Option.map_eq_some_iff] at first
    obtain ⟨⟨log₁, s₁⟩, undergone, ⟨log₂, _⟩, lived, is⟩ := first
    cases is
    simp only [List.cons_append, live, undergone, Option.bind_some, ih lived, Option.map_some,
      List.append_assoc]

theorem controller_moment (w : World) (k : Nat) : (w.moment k).2.controller = w.controller := by
  cases k <;> rfl

theorem controller_dropGuard (w : World) (g : String) :
    (w.dropGuard g).controller = w.controller := by
  unfold dropGuard
  split <;> rfl

theorem perform_controller {n : Nat} (performed : w.perform a = some (r, v))
    (set : w.controller = .ofMicros n) : v.controller = .ofMicros (lastSet n [a]) := by
  cases a with
  | timeout | begin n parent | cancel n q | settle | cancelParent parent =>
    cases performed
    exact set
  | setTimeout m =>
    cases performed
    rfl
  | advance ms =>
    simp only [perform, sleep_eq, Option.map_some, Option.some.injEq, Prod.mk.injEq] at performed
    obtain ⟨-, rfl⟩ := performed
    exact (controller_moment w _).trans set
  | check n | state n | pollCancelled n | pollWait n stop =>
    simp only [perform, Option.map_eq_some_iff, Prod.mk.injEq] at performed
    obtain ⟨c, _, _, rfl⟩ := performed
    exact set
  | cancelled n =>
    obtain ⟨k, rfl⟩ := moment_of_cancelled performed
    exact (controller_moment w k).trans set
  | wait n ms =>
    obtain ⟨k, rfl⟩ := moment_of_wait performed
    exact (controller_moment w k).trans set
  | guard n g | dropGuard g =>
    cases performed
    exact (controller_dropGuard w g).trans set

/-- What is done about other contexts leaves this one as it is, with what is left of it here. -/
theorem Alone.foreign (alone : Alone x p w s) (begun : Bool) (performed : w.perform a = some (r, v))
    (foreign : a.concerns x = false) :
    ∃ log s', s.live (effects x p begun w v a) = some (log, s') ∧
      log.filter (·.1.concerns x) = [] ∧ Alone x p v s' := by
  cases a with
  | timeout =>
    cases performed
    exact ⟨[], s, rfl, rfl, alone⟩
  | setTimeout n =>
    cases performed
    cases begun with
    | true => exact ⟨[], s, rfl, rfl, alone.controller _ s.controller⟩
    | false => exact ⟨_, _, rfl, rfl, alone.controller _ _⟩
  | begin n q =>
    cases performed
    exact ⟨[], s, rfl, rfl, alone.begin_other (of_decide_eq_false foreign) _⟩
  | cancel n q =>
    cases performed
    exact ⟨[], s, rfl, rfl, alone.update_other (of_decide_eq_false foreign) _⟩
  | cancelParent q =>
    cases performed
    rw [effects]
    by_cases same : q = p
    · subst same
      rw [if_pos rfl]
      exact ⟨_, _, rfl, rfl, alone.leave⟩
    · rw [if_neg same]
      exact ⟨[], s, rfl, rfl, alone.leave_other same⟩
  | settle =>
    cases performed
    refine ⟨_, _, rfl, rfl, ?_⟩
    rw [alone.now]
    exact alone.settleAt w.now
  | advance ms =>
    simp only [perform, sleep_eq, Option.map_some, Option.some.injEq, Prod.mk.injEq] at performed
    obtain ⟨-, rfl⟩ := performed
    rw [effects, live_one, undergo, perform, sleep_eq]
    refine ⟨_, _, rfl, rfl, ?_⟩
    rw [alone.now]
    exact ((alone.moment (2 * ms)).2.at (w.now + ms)).settleAt (w.now + ms)
  | check n =>
    simp only [perform, Option.map_eq_some_iff, Prod.mk.injEq] at performed
    obtain ⟨c, _, _, rfl⟩ := performed
    exact ⟨[], s, rfl, rfl, alone.update_other (of_decide_eq_false foreign) _⟩
  | state n | pollCancelled n | pollWait n stop =>
    simp only [perform, Option.map_eq_some_iff, Prod.mk.injEq] at performed
    obtain ⟨c, _, _, rfl⟩ := performed
    exact ⟨[], s, rfl, rfl, alone⟩
  | cancelled n =>
    simp only [perform, Option.map_eq_some_iff] at performed
    obtain ⟨⟨q, v⟩, waited, is⟩ := performed
    cases is
    obtain ⟨s', same, beside⟩ := alone.others (waits_pollCancelled n) (minds_pollCancelled n) waited
    exact ⟨[], s', by rw [effects, live_one, same], rfl, beside⟩
  | wait n ms =>
    simp only [perform, Option.map_eq_some_iff] at performed
    obtain ⟨⟨q, v⟩, waited, is⟩ := performed
    cases is
    obtain ⟨s', same, beside⟩ := alone.others (waits_pollWait n _) (minds_pollWait n _) waited
    exact ⟨[], s', by rw [effects, live_one, same], rfl, beside⟩
  | guard n g =>
    cases performed
    have free : (w.dropGuard g).guards.lookup g = none := by rw [guards_dropGuard, if_pos rfl]
    have other : n ≠ x := of_decide_eq_false foreign
    rw [effects]
    by_cases held : w.guards.lookup g = some x
    · rw [if_pos held]
      exact ⟨_, _, rfl, rfl, (alone.dropGuard g).guard_other other free⟩
    · rw [if_neg held]
      exact ⟨[], s, rfl, rfl, (alone.dropGuard_other held).guard_other other free⟩
  | dropGuard g =>
    cases performed
    rw [effects]
    by_cases held : w.guards.lookup g = some x
    · rw [if_pos held]
      exact ⟨_, _, rfl, rfl, alone.dropGuard g⟩
    · rw [if_neg held]
      exact ⟨[], s, rfl, rfl, alone.dropGuard_other held⟩

theorem Alone.step (alone : Alone x p w s) (begun : Bool) (performed : w.perform a = some (r, v))
    (other : ∀ q, a ≠ .begin x q) :
    ∃ log s', s.live (remains x p begun w v a) = some (log, s') ∧
      log.filter (·.1.concerns x) = [(a, r)].filter (·.1.concerns x) ∧ Alone x p v s' := by
  rw [remains]
  cases mine : a.concerns x with
  | true =>
    obtain ⟨s', same, beside⟩ := alone.mine mine other performed
    refine ⟨[(a, r)], s', ?_, rfl, beside⟩
    rw [if_pos rfl, live_one, undergo, same, Option.map_some]
  | false =>
    have unseen : [(a, r)].filter (·.1.concerns x) = [] := by simp [mine]
    rw [if_neg Bool.false_ne_true, unseen]
    exact alone.foreign begun performed mine

theorem undergo_controller {d : Deed} {n : Nat} (undergone : s.undergo d = some (log, v))
    (set : s.controller = .ofMicros n) :
    v.controller = .ofMicros (d.sets n) := by
  cases d with
  | does a =>
    obtain ⟨⟨q, v'⟩, performed, is⟩ := Option.map_eq_some_iff.1 undergone
    cases is
    exact perform_controller performed set
  | passes ms settled =>
    simp only [undergo, sleep_eq, Option.map_some, Option.some.injEq, Prod.mk.injEq] at undergone
    obtain ⟨-, rfl⟩ := undergone
    cases settled <;> exact (controller_moment s _).trans set

/-- Of a timeout that is set before the context begins, nothing is left out. -/
theorem remains_cases (n : Nat) :
    remains x p false w v a = [] ∧ lastSet n [a] = n ∨
    ∃ d, remains x p false w v a = [d] ∧ d.sets n = lastSet n [a] := by
  by_cases mine : a.concerns x = true
  · exact .inr ⟨.does a, if_pos mine, rfl⟩
  · rw [remains, if_neg mine]
    cases a with
    | timeout | begin _ _ | cancel _ _ | check _ | state _ | pollCancelled _ | pollWait _ _ =>
      exact .inl ⟨rfl, rfl⟩
    | settle | advance _ | setTimeout _ | cancelled _ | wait _ _ => exact .inr ⟨_, rfl, rfl⟩
    | cancelParent q =>
      by_cases same : q = p
      · exact .inr ⟨_, if_pos same, rfl⟩
      · exact .inl ⟨if_neg same, rfl⟩
    | guard _ g | dropGuard g =>
      by_cases held : w.guards.lookup g = some x
      · exact .inr ⟨_, if_pos held, rfl⟩
      · exact .inl ⟨if_neg held, rfl⟩

theorem remains_controller {n : Nat} {s' : World}
    (lived : s.live (remains x p false w v a) = some (log, s'))
    (set : s.controller = .ofMicros n) : s'.controller = .ofMicros (lastSet n [a]) := by
  rcases remains_cases (x := x) (p := p) (w := w) (v := v) (a := a) n with ⟨none, same⟩ | ⟨d, one, same⟩
  · rw [none] at lived
    cases lived
    rw [same, set]
  · rw [one, live_one] at lived
    rw [← same]
    exact undergo_controller lived set

theorem follow_split {before rest : List Action}
    (ran : w.follow (before ++ rest) = some (log, v)) :
    ∃ log₁ u log₂, w.follow before = some (log₁, u) ∧ u.follow rest = some (log₂, v) ∧
      log = log₁ ++ log₂ := by
  induction before generalizing w log with
  | nil => exact ⟨[], w, log, rfl, ran, rfl⟩
  | cons a before ih =>
    obtain ⟨r, u, log', performed, followed, rfl⟩ := follow_cons ran
    obtain ⟨log₁, u', log₂, first, onward, rfl⟩ := ih followed
    refine ⟨(a, r) :: log₁, u', log₂, ?_, onward, rfl⟩
    simp only [follow, performed, Option.bind_some, first, Option.map_some]

theorem remainder_append {before rest : List Action} (ran : w.follow before = some (log, v))
    (x p : String) (begun : Bool) :
    remainder x p begun w (before ++ rest) = remainder x p begun w before ++
      remainder x p (begun || before.any (·.begins x)) v rest := by
  induction before generalizing w log begun with
  | nil =>
    cases ran
    simp [remainder]
  | cons a before ih =>
    obtain ⟨r, u, log', performed, followed, rfl⟩ := follow_cons ran
    simp only [List.cons_append, remainder, performed, ih followed, List.append_assoc, List.any_cons,
      Bool.or_assoc]

theorem begins_iff : a.begins x = true ↔ ∃ q, a = .begin x q := by
  cases a <;> simp [Action.begins]

theorem not_begins (other : ∀ q, .begin x q ∉ actions) : actions.any (·.begins x) = false := by
  refine List.any_eq_false.2 fun a listed begins => ?_
  obtain ⟨q, rfl⟩ := begins_iff.1 begins
  exact other q listed

theorem Alone.run (alone : Alone x p w s) (ran : w.follow actions = some (log, v))
    (other : ∀ q, .begin x q ∉ actions) (begun : Bool) :
    ∃ log' s', s.live (remainder x p begun w actions) = some (log', s') ∧
      log'.filter (·.1.concerns x) = log.filter (·.1.concerns x) ∧ Alone x p v s' ∧
      ∀ n, begun = false → s.controller = .ofMicros n →
        s'.controller = .ofMicros (lastSet n actions) := by
  induction actions generalizing w s log with
  | nil =>
    cases ran
    exact ⟨[], s, rfl, rfl, alone, fun _ _ set => set⟩
  | cons a rest ih =>
    obtain ⟨r, u, log₂, performed, followed, rfl⟩ := follow_cons ran
    have this_one : ∀ q, a ≠ .begin x q := fun q is => other q (is ▸ List.mem_cons_self)
    obtain ⟨log₁, s₁, lived, same, beside⟩ := alone.step begun performed this_one
    obtain ⟨log', s', onward, same_rest, beside', set⟩ :=
      ih beside followed fun q listed => other q (List.mem_cons_of_mem a listed)
    have idle : a.begins x = false := by
      refine Bool.eq_false_iff.2 fun begins => ?_
      obtain ⟨q, is⟩ := begins_iff.1 begins
      exact this_one q is
    refine ⟨log₁ ++ log', s', ?_, ?_, beside', fun n none_yet first => ?_⟩
    · simp only [remainder, performed, idle, Bool.or_false]
      exact live_append lived onward
    · rw [List.filter_append, same, same_rest, ← List.filter_append, List.singleton_append]
    · subst none_yet
      exact set _ rfl (remains_controller lived first)

theorem follow_controller {n : Nat} (ran : w.follow actions = some (log, v))
    (set : w.controller = .ofMicros n) : v.controller = .ofMicros (lastSet n actions) := by
  induction actions generalizing w log n with
  | nil =>
    cases ran
    exact set
  | cons a rest ih =>
    obtain ⟨r, u, log', performed, followed, rfl⟩ := follow_cons ran
    exact ih followed (perform_controller performed set)

/-- A context begins in both runs with the same time. -/
theorem Alone.begin (alone : Alone x p w s) (same : s.controller = w.controller)
    (performed : w.perform (.begin x p) = some (r, v)) :
    ∃ s', s.perform (.begin x p) = some (r, s') ∧ Alone x p v s' := by
  cases performed
  simp only [perform, same, alone.now]
  refine ⟨_, rfl, rfl, ?_, fun b there => ?_, alone.gone, alone.guards⟩
  · exact List.lookup_cons_self.trans List.lookup_cons_self.symm
  · cases List.lookup_cons_self.symm.trans there
    rfl

/-- All that can be seen of a context is as in the run of its own. Its time is the one that was set
last before it began, in whole microseconds, as far as these can be counted. -/
theorem isolated (start : Nat) (d₀ : Duration) (before after : List Action) {w₀ : World}
    (fresh : w₀ = ⟨start, .ofMicros d₀.micros, [], [], []⟩)
    (ran : w₀.follow (before ++ .begin x p :: after) = some (log, w))
    (once : ∀ q, .begin x q ∉ before ∧ .begin x q ∉ after) :
    ∃ log' s c,
      w₀.live (remainder x p false w₀ (before ++ .begin x p :: after)) = some (log', s) ∧
      log'.filter (·.1.concerns x) = log.filter (·.1.concerns x) ∧ s.now = w.now ∧
      w.find? x = some c ∧ s.find? x = some c ∧
      (∀ d : Duration, lastSet d₀.micros before = d.micros →
        c.timeout = min (d.nanos / 1000) (2 ^ 64 - 1)) ∧
      ∃ log₀ v, w₀.follow before = some (log₀, v) ∧ c.deadline = micros v.now + c.timeout := by
  have set₀ : w₀.controller = .ofMicros d₀.micros := by rw [fresh]
  have unheard : ∀ b, w₀.contexts.lookup x = some b → b.parent = p := by
    subst fresh
    exact nofun
  obtain ⟨log₀, v, _, first, onward, rfl⟩ := follow_split ran
  obtain ⟨r, u, log₁, performed, followed, rfl⟩ := follow_cons onward
  have idle := not_begins fun q => (once q).1
  -- Up to the beginning, then the beginning itself, then all that follows.
  obtain ⟨log₀', s₀, lived₀, same₀, alone₀, set⟩ :=
    (Alone.mk rfl rfl unheard rfl fun _ => .rfl).run first (fun q => (once q).1) false
  have timed : v.controller = .ofMicros (lastSet d₀.micros before) := follow_controller first set₀
  obtain ⟨s₁, begins, alone₁⟩ := alone₀.begin ((set _ rfl set₀).trans timed.symm) performed
  obtain ⟨log₁', s, lived₁, same₁, alone, _⟩ := alone₁.run followed (fun q => (once q).2) true
  obtain ⟨b, there, since⟩ := follow_same followed (fun q => (once q).2) (lookup_begin performed).1
  refine ⟨log₀' ++ (.begin x p, r) :: log₁', s, b.ctx, ?_, ?_, alone.now, find?_of_lookup there,
    alone.find?.trans (find?_of_lookup there), fun d last => ?_, log₀, v, first, ?_⟩
  · have whole : w₀.live (remainder x p false w₀ before ++ (.does (.begin x p) ::
        remainder x p true u after)) = some (log₀' ++ (.begin x p, r) :: log₁', s) := by
      refine live_append lived₀ ?_
      simp only [live, undergo, begins, Option.map_some, Option.bind_some, lived₁,
        List.singleton_append]
    have mine : (Action.begin x p).concerns x = true := decide_eq_true rfl
    have this_begins : (Action.begin x p).begins x = true := decide_eq_true rfl
    rw [remainder_append first, idle]
    simpa only [remainder, performed, remains, mine, this_begins, if_true, Bool.or_true,
      List.singleton_append] using whole
  · simp only [List.filter_append, List.filter_cons, same₀, same₁]
  · rw [since.timeout]
    show v.controller.timeout = _
    rw [timed, last]
    rfl
  · rw [since.deadline, since.timeout]
    rfl

/-- A wait under the context is pending all the while. -/
theorem isolated_fetch :
    ∃ log w log' s c,
      (World.mk 0 (.ofMicros 60000000) [] [] []).follow
        ([.begin "other" "gone", .setTimeout 5000] ++ .begin "fetch" "request" ::
          [.setTimeout 1, .pollWait "fetch" 9, .wait "other" 2, .cancelParent "gone",
            .cancelled "other", .check "fetch", .advance 3, .pollWait "fetch" 9, .state "fetch"]) =
        some (log, w) ∧
      (World.mk 0 (.ofMicros 60000000) [] [] []).live
        [.does (.setTimeout 5000), .does (.begin "fetch" "request"), .does (.pollWait "fetch" 9),
          .passes 2 false, .passes 0 true, .does (.check "fetch"), .does (.advance 3),
          .does (.pollWait "fetch" 9), .does (.state "fetch")] = some (log', s) ∧
      log'.filter (·.1.concerns "fetch") = log.filter (·.1.concerns "fetch") ∧
      w.find? "fetch" = some c ∧ s.find? "fetch" = some c ∧ c.timeout = 5000 ∧
      c.reason = some .deadlineExceeded := by
  obtain ⟨log', s, c, lived, same, _, there, there', timed, _⟩ :=
    isolated (x := "fetch") (p := "request") 0 (.ofSecs 60)
      [.begin "other" "gone", .setTimeout 5000]
      [.setTimeout 1, .pollWait "fetch" 9, .wait "other" 2, .cancelParent "gone", .cancelled "other",
        .check "fetch", .advance 3, .pollWait "fetch" 9, .state "fetch"] rfl rfl (by simp)
  refine ⟨_, _, log', s, c, rfl, lived, same, there, there', timed (.ofNanos 5000999) rfl, ?_⟩
  cases there
  rfl

end World
end PackRelay.Context
