import PackRelay.Clock.Poll
import Mathlib.Order.Basic

/-! What holds of a step of a whole when it holds of the steps of its parts: facts that every part
keeps, ranks that every part lowers, and who it is that waits. -/
namespace PackRelay

theorem le_of_earlier {a c : Option Nat} {b t : Nat}
    (due : earlier (earlier a (some b)) c = some t) : t ≤ b := by
  cases a <;> cases c <;> simp only [earlier, Option.some.injEq] at due <;> omega

theorem earlier_ne_none {a c : Option Nat} (b : Nat) : earlier (earlier a (some b)) c ≠ none := by
  cases a <;> cases c <;> simp [earlier]

theorem earlier_cases {a c : Option Nat} {t : Nat} (due : earlier a c = some t) : a = some t ∨ c = some t := by
  cases a with
  | none => exact .inr due
  | some r =>
    cases c with
    | none => exact .inl due
    | some s =>
      rcases Nat.le_total r s with le | le
      · exact .inl (by simpa [earlier, Nat.min_eq_left le] using due)
      · exact .inr (by simpa [earlier, Nat.min_eq_right le] using due)

theorem earlier_le {a c : Option Nat} {s t : Nat} (due : earlier a c = some t)
    (waited : a = some s ∨ c = some s) : t ≤ s := by
  cases a with
  | none => rcases waited with is | is <;> simp_all [earlier]
  | some r =>
    cases c with
    | none => rcases waited with is | is <;> simp_all [earlier]
    | some q =>
      simp only [earlier, Option.some.injEq] at due waited
      omega

theorem earlier_eq_none {a c : Option Nat} : earlier a c = none ↔ a = none ∧ c = none := by
  cases a <;> cases c <;> simp [earlier]

theorem foldl_earlier {ι : Type} (f : ι → Option Nat) (l : List ι) (a : Option Nat) :
    (l.foldl (fun a i => earlier a (f i)) a = none ↔ a = none ∧ ∀ i ∈ l, f i = none) ∧
    ∀ t, l.foldl (fun a i => earlier a (f i)) a = some t →
      (a = some t ∨ ∃ i ∈ l, f i = some t) ∧ (∀ s, a = some s → t ≤ s) ∧
        ∀ i ∈ l, ∀ s, f i = some s → t ≤ s := by
  induction l generalizing a with
  | nil =>
    refine ⟨by simp, fun t is => ⟨.inl is, fun s there => ?_, by simp⟩⟩
    exact Nat.le_of_eq (Option.some.inj (is.symm.trans there))
  | cons i l ih =>
    obtain ⟨nobody, first⟩ := ih (earlier a (f i))
    refine ⟨?_, fun t is => ?_⟩
    · rw [List.foldl_cons, nobody, earlier_eq_none]
      simp only [List.mem_cons, forall_eq_or_imp, and_assoc]
    · obtain ⟨here, before, others⟩ := first t is
      refine ⟨?_, fun s there => ?_, ?_⟩
      · rcases here with here | ⟨j, listed, there⟩
        · rcases earlier_cases here with here | here
          · exact .inl here
          · exact .inr ⟨i, List.mem_cons_self, here⟩
        · exact .inr ⟨j, List.mem_cons_of_mem i listed, there⟩
      · cases both : earlier a (f i) with
        | none => simp [earlier_eq_none.1 both] at there
        | some r => exact Nat.le_trans (before r both) (earlier_le both (.inl there))
      · refine List.forall_mem_cons.2 ⟨fun s there => ?_, others⟩
        cases both : earlier a (f i) with
        | none => simp [earlier_eq_none.1 both] at there
        | some r => exact Nat.le_trans (before r both) (earlier_le both (.inr there))

theorem pause_past {now delay t : Nat} {wake : Option Nat} (waits : pause now delay wake = some t) :
    now < t := by
  cases wake with
  | none =>
    simp only [pause] at waits
    split at waits <;> cases waits
    omega
  | some w =>
    simp only [pause] at waits
    split at waits <;> cases waits
    omega

theorem pause_stays {now delay later : Nat} {wake : Option Nat} (halted : pause now delay wake = none)
    (le : now ≤ later) : pause later delay wake = none := by
  cases wake with
  | none =>
    simp only [pause] at halted ⊢
    split at halted <;> cases halted
    rw [if_pos (by assumption)]
  | some w =>
    simp only [pause] at halted ⊢
    split at halted <;> cases halted
    rw [if_pos (by omega)]

namespace Poll

variable {σ τ α β ρ : Type}

@[simp] theorem into_ready (a : α) (s : σ) (put : σ → τ) (next : α → σ → Poll τ β) :
    (Poll.ready a s).into put next = next a s := rfl

@[simp] theorem into_more (s : σ) (put : σ → τ) (next : α → σ → Poll τ β) :
    (Poll.more s).into put next = .more (put s) := rfl

@[simp] theorem into_waiting (s : σ) (alarm : Option Nat) (put : σ → τ) (next : α → σ → Poll τ β) :
    (Poll.waiting s alarm).into put next = .waiting (put s) alarm := rfl

@[simp] theorem into_crashed (s : σ) (put : σ → τ) (next : α → σ → Poll τ β) :
    (Poll.crashed s).into put next = .crashed (put s) := rfl

theorem ready_of_into {p : Poll σ α} {put : σ → τ} {next : α → σ → Poll τ β} {v : β} {t : τ}
    (ready : p.into put next = .ready v t) : ∃ a s, p = .ready a s ∧ next a s = .ready v t := by
  cases p with
  | ready a s => exact ⟨a, s, rfl, ready⟩
  | _ => cases ready

/-- A step that makes progress lowers a rank, and one that waits does not raise it. -/
def Lowers [Preorder ρ] (rank : σ → ρ) (s : σ) : Poll σ α → Prop
  | .more s' => rank s' < rank s
  | .waiting s' _ => rank s' ≤ rank s
  | .ready _ _ | .crashed _ => True

/-- A task that changes nothing once it is over. -/
def Still (p : σ → Poll σ Unit) : Prop := ∀ s s', p s = .ready () s' → s' = s

theorem both_state {I : σ → Prop} {first second : σ → Poll σ Unit}
    (keeps_first : ∀ s, I s → I (first s).state) (keeps_second : ∀ s, I s → I (second s).state)
    {s : σ} (start : I s) : I (both first second s).state := by
  have one := keeps_first s start
  unfold both
  cases h : first s with
  | ready a s₁ =>
    rw [h] at one
    exact keeps_second s₁ one
  | more s₁ => simpa only [h] using one
  | crashed s₁ => simpa only [h] using one
  | waiting s₁ alarm =>
    rw [h] at one
    have two := keeps_second s₁ one
    simp only
    cases h₂ : second s₁ <;> simpa only [h₂, state] using two

theorem all_state {I : σ → Prop} {ps : List (σ → Poll σ Unit)}
    (keeps : ∀ p ∈ ps, ∀ s, I s → I (p s).state) {s : σ} (start : I s) : I (all ps s).state := by
  induction ps generalizing s with
  | nil => exact start
  | cons p ps ih =>
    exact both_state (keeps p List.mem_cons_self)
      (fun s h => ih (fun q hq => keeps q (List.mem_cons_of_mem p hq)) h) start

theorem all_ready {ps : List (σ → Poll σ Unit)} (still : ∀ p ∈ ps, Still p) {s s' : σ}
    (concluded : all ps s = .ready () s') : s' = s ∧ ∀ p ∈ ps, p s = .ready () s := by
  induction ps generalizing s with
  | nil =>
    cases concluded
    exact ⟨rfl, by simp⟩
  | cons p ps ih =>
    simp only [all, both] at concluded
    cases h : p s with
    | ready a s₁ =>
      cases still p List.mem_cons_self s s₁ h
      rw [h] at concluded
      obtain ⟨rest, each⟩ := ih (fun q hq => still q (List.mem_cons_of_mem p hq)) concluded
      exact ⟨rest, List.forall_mem_cons.2 ⟨h, each⟩⟩
    | more s₁ => simp [h] at concluded
    | crashed s₁ => simp [h] at concluded
    | waiting s₁ alarm =>
      rw [h] at concluded
      simp only at concluded
      split at concluded <;> cases concluded

theorem Lowers.both [Preorder ρ] {rank : σ → ρ} {I : σ → Prop} {first second : σ → Poll σ Unit}
    (still_first : Still first) (still_second : Still second) (keeps : ∀ s, I s → I (first s).state)
    (one : ∀ s, I s → (first s).Lowers rank s) (two : ∀ s, I s → (second s).Lowers rank s) {s : σ}
    (start : I s) : (both first second s).Lowers rank s := by
  have kept := keeps s start
  have low := one s start
  unfold Poll.both
  cases h : first s with
  | ready a s₁ =>
    cases still_first s s₁ h
    exact two s start
  | more s₁ => simpa only [h] using low
  | crashed s₁ => trivial
  | waiting s₁ alarm =>
    rw [h] at low kept
    have next := two s₁ kept
    simp only
    cases h₂ : second s₁ with
    | ready a s₂ =>
      cases still_second s₁ s₂ h₂
      exact low
    | more s₂ =>
      rw [h₂] at next
      exact lt_of_lt_of_le next low
    | waiting s₂ other =>
      rw [h₂] at next
      exact le_trans next low
    | crashed s₂ => trivial

/-- A rank that each of several tasks lowers, they lower together. -/
theorem Lowers.all [Preorder ρ] {rank : σ → ρ} {I : σ → Prop} {ps : List (σ → Poll σ Unit)}
    (still : ∀ p ∈ ps, Still p) (keeps : ∀ p ∈ ps, ∀ s, I s → I (p s).state)
    (lowers : ∀ p ∈ ps, ∀ s, I s → (p s).Lowers rank s) {s : σ} (start : I s) :
    (all ps s).Lowers rank s := by
  induction ps generalizing s with
  | nil => trivial
  | cons p ps ih =>
    have still_rest : Still (Poll.all ps) := fun s s' h =>
      (all_ready (fun q hq => still q (List.mem_cons_of_mem p hq)) h).1
    exact Lowers.both (still p List.mem_cons_self) still_rest (keeps p List.mem_cons_self)
      (lowers p List.mem_cons_self) (fun s h => ih (fun q hq => still q (List.mem_cons_of_mem p hq))
        (fun q hq => keeps q (List.mem_cons_of_mem p hq))
        (fun q hq => lowers q (List.mem_cons_of_mem p hq)) h) start

theorem all_waiting {I : σ → Prop} {ps : List (σ → Poll σ Unit)}
    (keeps : ∀ p ∈ ps, ∀ s, I s → I (p s).state)
    {s s' : σ} {alarm : Option Nat} (start : I s) (waits : all ps s = .waiting s' alarm) :
    ∃ p ∈ ps, ∃ s₁ s₂ a, I s₁ ∧ p s₁ = .waiting s₂ a := by
  induction ps generalizing s s' alarm with
  | nil => cases waits
  | cons p ps ih =>
    have kept := keeps p List.mem_cons_self s start
    simp only [all, both] at waits
    cases h : p s with
    | ready a s₁ =>
      rw [h] at waits kept
      obtain ⟨q, hq, found⟩ := ih (fun q hq => keeps q (List.mem_cons_of_mem p hq)) kept waits
      exact ⟨q, List.mem_cons_of_mem p hq, found⟩
    | more s₁ => simp [h] at waits
    | crashed s₁ => simp [h] at waits
    | waiting s₁ a => exact ⟨p, List.mem_cons_self, s, s₁, a, start, h⟩

theorem all_waits {I : σ → Prop} {ps : List (σ → Poll σ Unit)} (still : ∀ p ∈ ps, Still p)
    (keeps : ∀ p ∈ ps, ∀ s s' a, I s → p s = .waiting s' a → I s') {s s' : σ} {alarm : Option Nat}
    (start : I s) (waits : all ps s = .waiting s' alarm) : I s' := by
  induction ps generalizing s alarm with
  | nil => cases waits
  | cons p ps ih =>
    have still_rest : ∀ q ∈ ps, Still q := fun q hq => still q (List.mem_cons_of_mem p hq)
    have rest : ∀ s a, I s → all ps s = .waiting s' a → I s' := fun s a start waits =>
      ih still_rest (fun q hq => keeps q (List.mem_cons_of_mem p hq)) start waits
    simp only [all, both] at waits
    cases h : p s with
    | ready a s₁ =>
      cases still p List.mem_cons_self s s₁ h
      rw [h] at waits
      exact rest s alarm start waits
    | more s₁ => simp [h] at waits
    | crashed s₁ => simp [h] at waits
    | waiting s₁ a =>
      have kept := keeps p List.mem_cons_self s s₁ a start h
      rw [h] at waits
      simp only at waits
      cases h₂ : all ps s₁ with
      | ready b s₂ =>
        rw [h₂] at waits
        cases waits
        exact (all_ready still_rest h₂).1 ▸ kept
      | more s₂ => simp [h₂] at waits
      | crashed s₂ => simp [h₂] at waits
      | waiting s₂ b =>
        rw [h₂] at waits
        cases waits
        exact rest s₁ b kept h₂

/-- Several tasks make progress when one of them does, and those before it wait or are over. -/
theorem all_acts {I : σ → Prop} {ps : List (σ → Poll σ Unit)} (still : ∀ p ∈ ps, Still p)
    (keeps : ∀ p ∈ ps, ∀ s s' a, I s → p s = .waiting s' a → I s') {s s' : σ} (start : I s)
    (acts : all ps s = .more s') : ∃ p ∈ ps, ∃ s₁, I s₁ ∧ p s₁ = .more s' := by
  induction ps generalizing s with
  | nil => cases acts
  | cons p ps ih =>
    have rest : ∀ s, I s → all ps s = .more s' → ∃ q ∈ p :: ps, ∃ s₁, I s₁ ∧ q s₁ = .more s' := by
      intro s start acts
      obtain ⟨q, hq, found⟩ := ih (fun q hq => still q (List.mem_cons_of_mem p hq))
        (fun q hq => keeps q (List.mem_cons_of_mem p hq)) start acts
      exact ⟨q, List.mem_cons_of_mem p hq, found⟩
    simp only [all, both] at acts
    cases h : p s with
    | ready a s₁ =>
      cases still p List.mem_cons_self s s₁ h
      rw [h] at acts
      exact rest s start acts
    | more s₁ =>
      rw [h] at acts
      cases acts
      exact ⟨p, List.mem_cons_self, s, start, h⟩
    | crashed s₁ => simp [h] at acts
    | waiting s₁ a =>
      have kept := keeps p List.mem_cons_self s s₁ a start h
      rw [h] at acts
      simp only at acts
      cases h₂ : all ps s₁ with
      | more s₂ =>
        rw [h₂] at acts
        cases acts
        exact rest s₁ kept h₂
      | ready b s₂ => simp [h₂] at acts
      | crashed s₂ => simp [h₂] at acts
      | waiting s₂ b => simp [h₂] at acts

/-- When all of several tasks wait, then each of them does or is over, and not for less long. -/
theorem all_rests {I : σ → Prop} {Q : Option Nat → σ → Prop} {ps : List (σ → Poll σ Unit)}
    (still : ∀ p ∈ ps, Still p) (keeps : ∀ p ∈ ps, ∀ s s' a, I s → p s = .waiting s' a → I s')
    (stays : ∀ p ∈ ps, ∀ s s' a b, I s → Q a s → p s = .waiting s' b → Q a s')
    (sooner : ∀ a b s, Q a s → Q (earlier a b) s ∧ Q (earlier b a) s) {p : σ → Poll σ Unit}
    (listed : p ∈ ps) (waits : ∀ s s' a, I s → p s = .waiting s' a → Q a s')
    (halted : ∀ s, I s → p s = .ready () s → Q none s) {s s' : σ} {alarm : Option Nat} (start : I s)
    (each : all ps s = .waiting s' alarm) : Q alarm s' := by
  induction ps generalizing s alarm with
  | nil => cases each
  | cons q ps ih =>
    have still_rest : ∀ q ∈ ps, Still q := fun r hr => still r (List.mem_cons_of_mem q hr)
    have keeps_rest : ∀ p ∈ ps, ∀ s s' a, I s → p s = .waiting s' a → I s' :=
      fun r hr => keeps r (List.mem_cons_of_mem q hr)
    have stays_rest : ∀ p ∈ ps, ∀ s s' a b, I s → Q a s → p s = .waiting s' b → Q a s' :=
      fun r hr => stays r (List.mem_cons_of_mem q hr)
    -- Whoever rests before the others have their turns rests afterwards.
    have past : ∀ s a b, I s → Q a s → all ps s = .waiting s' b → Q a s' :=
      fun s a b here rests each => (all_waits (I := fun s => I s ∧ Q a s) still_rest
        (fun r hr s₁ s₂ c there waits => ⟨keeps_rest r hr s₁ s₂ c there.1 waits,
          stays_rest r hr s₁ s₂ a c there.1 there.2 waits⟩) ⟨here, rests⟩ each).2
    simp only [all, both] at each
    cases h : q s with
    | ready u s₁ =>
      cases still q List.mem_cons_self s s₁ h
      rw [h] at each
      rcases List.mem_cons.1 listed with rfl | listed
      · exact (sooner none alarm s' (past s none alarm start (halted s start h) each)).1
      · exact ih still_rest keeps_rest stays_rest listed start each
    | more s₁ => simp [h] at each
    | crashed s₁ => simp [h] at each
    | waiting s₁ a =>
      have kept := keeps q List.mem_cons_self s s₁ a start h
      rw [h] at each
      simp only at each
      cases h₂ : all ps s₁ with
      | more s₂ => simp [h₂] at each
      | crashed s₂ => simp [h₂] at each
      | ready u s₂ =>
        obtain ⟨rfl, all_over⟩ := all_ready still_rest h₂
        rw [h₂] at each
        cases each
        rcases List.mem_cons.1 listed with rfl | listed
        · exact waits s _ alarm start h
        · exact (sooner none alarm _ (halted _ kept (all_over p listed))).1
      | waiting s₂ b =>
        rw [h₂] at each
        cases each
        rcases List.mem_cons.1 listed with rfl | listed
        · exact (sooner a b s' (past s₁ a b kept (waits s s₁ a start h) h₂)).1
        · exact (sooner b a s' (ih still_rest keeps_rest stays_rest listed kept h₂)).2

theorem all_crashed {I : σ → Prop} {ps : List (σ → Poll σ Unit)}
    (keeps : ∀ p ∈ ps, ∀ s, I s → I (p s).state)
    {s s' : σ} (start : I s) (crash : all ps s = .crashed s') :
    ∃ p ∈ ps, ∃ s₁ s₂, I s₁ ∧ p s₁ = .crashed s₂ := by
  induction ps generalizing s with
  | nil => cases crash
  | cons p ps ih =>
    have kept := keeps p List.mem_cons_self s start
    have rest : ∀ s, I s → all ps s = .crashed s' → ∃ q ∈ p :: ps, ∃ s₁ s₂, I s₁ ∧
      q s₁ = .crashed s₂ := by
      intro s start crash
      obtain ⟨q, hq, found⟩ := ih (fun q hq => keeps q (List.mem_cons_of_mem p hq)) start crash
      exact ⟨q, List.mem_cons_of_mem p hq, found⟩
    simp only [all, both] at crash
    cases h : p s with
    | ready a s₁ =>
      rw [h] at crash kept
      exact rest s₁ kept crash
    | more s₁ => simp [h] at crash
    | crashed s₁ => exact ⟨p, List.mem_cons_self, s, s₁, start, h⟩
    | waiting s₁ a =>
      rw [h] at crash kept
      simp only at crash
      cases h₂ : all ps s₁ with
      | crashed s₂ =>
        rw [h₂] at crash
        cases crash
        exact rest s₁ kept h₂
      | ready b s₂ => simp [h₂] at crash
      | more s₂ => simp [h₂] at crash
      | waiting s₂ b => simp [h₂] at crash

theorem all_more {ps : List (σ → Poll σ Unit)} {s s' : σ}
    (each : ∀ p ∈ ps, p s = .ready () s ∨ p s = .more s')
    {p : σ → Poll σ Unit} (listed : p ∈ ps) (acts : p s = .more s') : all ps s = .more s' := by
  induction ps with
  | nil => cases listed
  | cons q ps ih =>
    rcases each q List.mem_cons_self with h | h
    · have other : p ≠ q := by
        rintro rfl
        rw [h] at acts
        cases acts
      have rest := ih (fun r hr => each r (List.mem_cons_of_mem q hr))
        ((List.mem_cons.1 listed).resolve_left other)
      simp only [all, both, h, rest]
    · simp only [all, both, h]

theorem all_over {ps : List (σ → Poll σ Unit)} {s : σ} (each : ∀ p ∈ ps, p s = .ready () s) :
    all ps s = .ready () s := by
  induction ps with
  | nil => rfl
  | cons p ps ih =>
    simp only [all, both, each p List.mem_cons_self]
    exact ih fun q hq => each q (List.mem_cons_of_mem p hq)

end Poll
end PackRelay
