import PackRelay.Proofs.Context.World

/-! What a caller does to a context, one action after another. Whatever the action, it leaves the
context alone, cancels it in one of a few ways, or lets its watcher look at it. -/
namespace PackRelay.Context.World

variable {w w' x : World} {a : Action} {r : Answer} {b : Bound} {name guard : String} {t u stop : Nat}

theorem waits_sleep (stop : Nat) :
    Waits fun now x => if stop ≤ now then (.ready () x : Poll World Unit) else .waiting x (some stop) where
  cases now x := by
    by_cases past : stop ≤ now
    · exact .inl ⟨(), by simp [past]⟩
    · exact .inr ⟨some stop, by simp [past]⟩
  stays {now x alarm t} waiting le before := by
    split at waiting
    · cases waiting
    · cases waiting
      simp [Nat.not_le.2 (before stop rfl)]
  wakes {now x s} waiting := by
    split at waiting
    · cases waiting
    · cases waiting
      exact ⟨by omega, (), by simp⟩

theorem waits_pollWait (name : String) (stop : Nat) :
    Waits fun now x => x.pollWait name stop now where
  cases now x := by
    unfold pollWait
    cases (x.find? name).bind signal with
    | some r => exact .inl ⟨_, rfl⟩
    | none =>
      by_cases past : stop ≤ now
      · exact .inl ⟨_, by simp [past]; rfl⟩
      · exact .inr ⟨some stop, by simp [past]⟩
  stays {now x alarm t} waiting le before := by
    unfold pollWait at waiting ⊢
    cases told : (x.find? name).bind signal with
    | some r => simp [told] at waiting
    | none =>
      simp only [told] at waiting ⊢
      split at waiting
      · cases waiting
      · cases waiting
        simp [Nat.not_le.2 (before stop rfl)]
  wakes {now x s} waiting := by
    unfold pollWait at waiting ⊢
    cases told : (x.find? name).bind signal with
    | some r => simp [told] at waiting
    | none =>
      simp only [told] at waiting ⊢
      split at waiting
      · cases waiting
      · cases waiting
        exact ⟨by omega, .ok (), by simp⟩

theorem waits_pollCancelled (name : String) : Waits fun _ x => x.pollCancelled name where
  cases now x := by
    unfold pollCancelled
    cases (x.find? name).bind signal with
    | some r => exact .inl ⟨r, rfl⟩
    | none => exact .inr ⟨none, rfl⟩
  stays {now x alarm t} waiting _ _ := waiting
  wakes {now x s} waiting := by
    unfold pollCancelled at waiting
    split at waiting <;> cases waiting

theorem sleep_isSome (w : World) (ms : Nat) : ∃ w', w.sleep ms = some ((), w') := by
  obtain ⟨a, w', slept⟩ := waitOn_isSome (w := w) (P := fun _ => True) (waits_sleep (w.now + ms))
    (fun _ _ here => here) (fun t x _ waiting => by split at waiting <;> cases waiting) trivial
  exact ⟨w', slept⟩

theorem pollWait_isSome (w : World) (name : String) (ms : Nat) :
    ∃ v w', w.perform (.wait name ms) = some (.waited v, w') := by
  obtain ⟨v, w', waited⟩ := waitOn_isSome (w := w) (P := fun _ => True)
    (waits_pollWait name (w.now + ms)) (fun _ _ here => here)
    (fun t x _ waiting => by
      unfold pollWait at waiting
      split at waiting
      · cases waiting
      · split at waiting <;> cases waiting) trivial
  exact ⟨v, w', by simp only [perform, waited, Option.map_some]⟩

theorem find?_settleAt (u : Nat) (w : World) (name : String) :
    ((w.settleAt u).find? name).isSome = (w.find? name).isSome := by
  simp only [find?, lookup_settleAt, Option.isSome_map]

theorem pollCancelled_isSome (there : (w.find? name).isSome) :
    ∃ r w', w.perform (.cancelled name) = some (.reason r, w') := by
  obtain ⟨r, w', waited⟩ := waitOn_isSome (P := fun x => (x.find? name).isSome)
    (waits_pollCancelled name) (fun u x here => (find?_settleAt u x name).trans here)
    (fun t x here waiting => by
      unfold pollCancelled at waiting
      obtain ⟨c, is⟩ := Option.isSome_iff_exists.1 here
      obtain ⟨b, found, rfl⟩ := Option.map_eq_some_iff.1 is
      refine ⟨(name, b), mem_of_lookup found, ?_⟩
      cases told : b.ctx.signal with
      | some r => simp [is, told] at waiting
      | none => exact off_of_silent told) there
  exact ⟨r, w', by simp only [perform, waited, Option.map_some]⟩

/-- Who waited leaves the world as it is at the moment that the wait was over. -/
theorem moment_of_cancelled (performed : w.perform (.cancelled name) = some (r, w')) :
    ∃ k, w' = { (w.moment k).2 with now := (w.moment k).1 } := by
  obtain ⟨⟨q, v⟩, waited, is⟩ := Option.map_eq_some_iff.1 performed
  cases is
  obtain ⟨k, _, same⟩ := waitOn_over (waits_pollCancelled name) waited
  exact ⟨k, same⟩

theorem moment_of_wait {ms : Nat} (performed : w.perform (.wait name ms) = some (r, w')) :
    ∃ k, w' = { (w.moment k).2 with now := (w.moment k).1 } := by
  obtain ⟨⟨q, v⟩, waited, is⟩ := Option.map_eq_some_iff.1 performed
  cases is
  obtain ⟨k, _, same⟩ := waitOn_over (waits_pollWait name _) waited
  exact ⟨k, same⟩

/-- The actions of a caller in order, with what each was answered. -/
def follow (w : World) : List Action → Option (List (Action × Answer) × World)
  | [] => some ([], w)
  | a :: rest =>
    (w.perform a).bind fun (r, w) => (follow w rest).map fun (log, w) => ((a, r) :: log, w)

theorem follow_cons {rest : List Action} {log : List (Action × Answer)}
    (ran : w.follow (a :: rest) = some (log, w')) :
    ∃ r v log', w.perform a = some (r, v) ∧ v.follow rest = some (log', w') ∧
      log = (a, r) :: log' := by
  simp only [follow, Option.bind_eq_some_iff, Option.map_eq_some_iff] at ran
  obtain ⟨⟨r, v⟩, performed, ⟨log', v'⟩, followed, is⟩ := ran
  cases is
  exact ⟨r, v, log', performed, followed, rfl⟩

/-- A guard of the context is dropped: on purpose, or because another takes its name. -/
def drops (w : World) (name : String) : Action → Prop
  | .dropGuard guard | .guard _ guard => w.guards.lookup guard = some name
  | _ => False

/-- All that one action can do to a context. -/
inductive Touches (w : World) (a : Action) (w' : World) (name : String) (b : Bound) : Bound → Prop
  | leaves : Touches w a w' name b b
  | cancels (r : CancelReason) :
    a = .cancel name r → Touches w a w' name b { b with ctx := b.ctx.cancel r }
  | drops : w.drops name a → Touches w a w' name b { b with ctx := b.ctx.cancel .done }
  | checks : a = .check name → Touches w a w' name b { b with ctx := (b.ctx.check w.now).2 }
  | watches (u : Nat) : u ≤ w'.now → Touches w a w' name b (w.watched u b)

theorem touches_moment {k : Nat} (there : w.contexts.lookup name = some b)
    (now : w'.now = (w.moment k).1) :
    ∃ b', (w.moment k).2.contexts.lookup name = some b' ∧ Touches w a w' name b b' := by
  cases k with
  | zero => exact ⟨b, there, .leaves⟩
  | succ k =>
    refine ⟨_, by rw [moment, lookup_settleAt, there]; rfl, .watches (w.now + k / 2) ?_⟩
    rw [now]
    simp only [moment]
    omega

theorem touches_dropGuard (there : w.contexts.lookup name = some b)
    (held : ∀ n, w.guards.lookup guard = some n → n = name → w.drops name a) :
    ∃ b', (w.dropGuard guard).contexts.lookup name = some b' ∧ Touches w a w' name b b' := by
  unfold dropGuard
  cases found : w.guards.lookup guard with
  | none => exact ⟨b, there, .leaves⟩
  | some n =>
    simp only [lookup_update, there, Option.map_some]
    by_cases same : name = n
    · exact ⟨_, by rw [if_pos same], .drops (held n found same.symm)⟩
    · exact ⟨_, by rw [if_neg same], .leaves⟩

theorem perform_touches (performed : w.perform a = some (r, w'))
    (other : ∀ parent, a ≠ .begin name parent) (there : w.contexts.lookup name = some b) :
    ∃ b', w'.contexts.lookup name = some b' ∧ Touches w a w' name b b' := by
  cases a with
  | timeout | setTimeout n | cancelParent parent =>
    cases performed
    exact ⟨b, there, .leaves⟩
  | begin n parent =>
    cases performed
    have differs : name ≠ n := fun same => other parent (by rw [same])
    refine ⟨b, ?_, .leaves⟩
    simp only [List.lookup_cons, beq_eq_false_iff_ne.2 differs, lookup_filter_ne _ differs, there]
  | cancel n q =>
    cases performed
    simp only [lookup_update, there, Option.map_some]
    by_cases same : name = n
    · exact ⟨_, by rw [if_pos same], .cancels q (by rw [same])⟩
    · exact ⟨_, by rw [if_neg same], .leaves⟩
  | settle =>
    cases performed
    exact ⟨_, by rw [lookup_settleAt, there]; rfl, .watches w.now le_rfl⟩
  | advance ms =>
    simp only [perform, Option.map_eq_some_iff] at performed
    obtain ⟨⟨_, v⟩, slept, is⟩ := performed
    cases is
    obtain ⟨k, _, rfl⟩ := waitOn_over (waits_sleep _) slept
    have there_settled : ((w.moment k).2.settleAt (w.moment k).1).contexts.lookup name =
        some (w.watched (w.moment k).1 b) := by
      rw [moment_time, settleAt_moment le_rfl, lookup_settleAt, there]
      rfl
    exact ⟨_, there_settled, .watches _ le_rfl⟩
  | check n =>
    simp only [perform, Option.map_eq_some_iff, Prod.mk.injEq] at performed
    obtain ⟨c, _, _, rfl⟩ := performed
    simp only [lookup_update, there, Option.map_some]
    by_cases same : name = n
    · exact ⟨_, by rw [if_pos same], .checks (by rw [same])⟩
    · exact ⟨_, by rw [if_neg same], .leaves⟩
  | state n | pollCancelled n | pollWait n stop =>
    simp only [perform, Option.map_eq_some_iff, Prod.mk.injEq] at performed
    obtain ⟨c, _, _, rfl⟩ := performed
    exact ⟨b, there, .leaves⟩
  | cancelled n =>
    obtain ⟨k, rfl⟩ := moment_of_cancelled performed
    exact touches_moment there rfl
  | wait n ms =>
    obtain ⟨k, rfl⟩ := moment_of_wait performed
    exact touches_moment there rfl
  | guard n g =>
    cases performed
    exact touches_dropGuard there fun n found same => same ▸ found
  | dropGuard g =>
    cases performed
    exact touches_dropGuard there fun n found same => same ▸ found

/-- Time only goes on, and whoever is gone stays so. -/
theorem perform_onward (performed : w.perform a = some (r, w')) :
    w.now ≤ w'.now ∧ (w'.gone = w.gone ∨ ∃ parent, a = .cancelParent parent ∧
      w'.gone = parent :: w.gone) := by
  have gone_moment : ∀ k, (w.moment k).2.gone = w.gone := fun k => by cases k <;> rfl
  have now_moment : ∀ k, w.now ≤ (w.moment k).1 := fun k => by
    rw [moment_time]
    omega
  cases a with
  | timeout | setTimeout n | begin n parent | cancel n q | settle =>
    cases performed
    exact ⟨le_rfl, .inl rfl⟩
  | cancelParent parent =>
    cases performed
    exact ⟨le_rfl, .inr ⟨parent, rfl, rfl⟩⟩
  | advance ms =>
    simp only [perform, Option.map_eq_some_iff] at performed
    obtain ⟨⟨_, v⟩, slept, is⟩ := performed
    cases is
    obtain ⟨k, _, rfl⟩ := waitOn_over (waits_sleep _) slept
    exact ⟨now_moment k, .inl (gone_moment k)⟩
  | check n | state n | pollCancelled n | pollWait n stop =>
    simp only [perform, Option.map_eq_some_iff, Prod.mk.injEq] at performed
    obtain ⟨c, _, _, rfl⟩ := performed
    exact ⟨le_rfl, .inl rfl⟩
  | cancelled n =>
    obtain ⟨k, rfl⟩ := moment_of_cancelled performed
    exact ⟨now_moment k, .inl (gone_moment k)⟩
  | wait n ms =>
    obtain ⟨k, rfl⟩ := moment_of_wait performed
    exact ⟨now_moment k, .inl (gone_moment k)⟩
  | guard n g =>
    cases performed
    refine ⟨le_of_eq ?_, .inl ?_⟩ <;> (simp only [dropGuard]; split <;> rfl)
  | dropGuard g =>
    cases performed
    refine ⟨le_of_eq ?_, .inl ?_⟩ <;> (simp only [dropGuard]; split <;> rfl)

end PackRelay.Context.World
