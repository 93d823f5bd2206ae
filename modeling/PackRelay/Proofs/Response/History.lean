import PackRelay.Proofs.Clock.Run
import PackRelay.Proofs.Stream.Sink
import PackRelay.Response.Session
import Mathlib.Algebra.GroupWithZero.Nat

/-! Whole histories of a response: what it tells after any sequence of operations, however the sink
behaves and wherever an operation is given up. The first write that is begun commits the status, which
every watcher sees once at most; what was counted is what the writes that succeeded say, and the sink
has in order what each of them passed on. -/
namespace PackRelay

namespace Sink

variable {now : Nat} {bs : Bytes} {s : Sink}

/-- All that one step of a write can do. It takes octets from the front and says how many, or none. -/
inductive TakeStep (s : Sink) (bs : Bytes) : Poll Sink (Except IoError Nat) → Prop
  | takes (n : Nat) (s' : Sink) :
    n ≤ bs.length → s'.written = s.written ++ bs.take n → TakeStep s bs (.ready (.ok n) s')
  | fails (e : IoError) (s' : Sink) : s'.written = s.written → TakeStep s bs (.ready (.error e) s')
  | waits (s' : Sink) (alarm : Option Nat) :
    s'.written = s.written → TakeStep s bs (.waiting s' alarm)
  | crashes : TakeStep s bs (.crashed s)

theorem pollWrite_step (now : Nat) (bs : Bytes) (s : Sink) : TakeStep s bs (s.pollWrite now bs) := by
  simp only [pollWrite]
  cases pause now (s.plan.write s.writeTurns s.accepted).delay s.writeWake with
  | some t => exact .waits _ _ rfl
  | none =>
    cases bs with
    | nil => exact .takes 0 _ le_rfl (written_accept s [])
    | cons b bs =>
      simp only [List.isEmpty_cons, Bool.false_eq_true, if_false]
      cases (s.plan.write s.writeTurns s.accepted).answer with
      | accept most =>
        cases most with
        | none => exact .takes _ _ le_rfl (by rw [List.take_length]; exact written_accept s (b :: bs))
        | some n =>
          have front := List.take_prefix n (b :: bs)
          refine .takes _ _ front.length_le ?_
          rw [written_accept, ← List.prefix_iff_eq_take.1 front]
      | refuse => exact .takes 0 _ (Nat.zero_le _) (by simp)
      | fail e => exact .fails e _ rfl
      | hang => exact .waits _ _ rfl
      | crash => exact .crashes

variable {p : Poll (Bytes × Sink) (Except IoError Unit)}

theorem WriteStep.grows (h : WriteStep s bs p) : s.written <+: p.state.2.written := by
  cases h with
  | takesAll => exact ⟨bs, (written_accept s bs).symm⟩
  | takes k _ _ => exact ⟨bs.take k, (written_accept s _).symm⟩
  | fails e s' h =>
    rcases h with rfl | rfl
    · exact List.prefix_rfl
    · exact ⟨[], (written_accept s []).symm⟩
  | _ => exact List.prefix_rfl

end Sink

namespace ResponseWriter

/-! ## One operation -/

/-- An operation step by step, at whatever times: its last step answers it, or it is given up after
some step that did not. -/
inductive Undergoes {τ α : Type} (poll : Nat → τ → Poll τ (Except IoError α)) (ok : α → Reply) :
    τ → Reply → τ → Prop
  | answered {now : Nat} {t t' : τ} {a : α} :
    poll now t = .ready (.ok a) t' → Undergoes poll ok t (ok a) t'
  | failed {now : Nat} {t t' : τ} {e : IoError} :
    poll now t = .ready (.error e) t' → Undergoes poll ok t (.failed e) t'
  | abandoned {now : Nat} {t : τ} :
    (∀ v t', poll now t ≠ .ready v t') → Undergoes poll ok t .blocked (poll now t).state
  | goes {now : Nat} {t t' : τ} {r : Reply} :
    (∀ v t', poll now t ≠ .ready v t') → Undergoes poll ok (poll now t).state r t' →
      Undergoes poll ok t r t'

/-- What an operation adds to a response: octets in the sink, octets counted, and perhaps the status,
of which those who watch are told only if it was not there. -/
structure Adds (w : ResponseWriter) (piece : Bytes) (count : Nat) (commits : Bool)
    (w' : ResponseWriter) : Prop where
  written : w'.sink.written = w.sink.written ++ piece
  counted : w'.bytesWritten = w.bytesWritten + count
  sent : w'.headersSent = (w.headersSent || commits)
  told : w'.headers.version = w.headers.version + (commits && !w.headersSent).toNat

def Command.writes : Command → Bool
  | .write _ | .writeAll _ => true
  | _ => false

abbrev Event := Command × Reply

/-- The octets that an operation counts. -/
def Event.counted : Event → Nat
  | (.write _, .wrote n) => n
  | (.writeAll bs, .done) => bs.length
  | _ => 0

def Reply.Fruitless (r : Reply) : Prop := r = .blocked ∨ ∃ e, r = .failed e

/-- What the sink can have accepted from an operation that was answered so. -/
inductive Accepts : Event → Bytes → Prop
  | wrote {bs : Bytes} {n : Nat} : n ≤ bs.length → Accepts (.write bs, .wrote n) (bs.take n)
  | unwritten {bs : Bytes} {r : Reply} : r.Fruitless → Accepts (.write bs, r) []
  | whole {bs : Bytes} : Accepts (.writeAll bs, .done) bs
  | cut {bs piece : Bytes} {r : Reply} : piece <+: bs → r.Fruitless → Accepts (.writeAll bs, r) piece
  | flushed {r : Reply} : Accepts (.flush, r) []
  | subscribed {i : Nat} : Accepts (.subscribe, .watcher i) []
  | watched {i : Nat} {changed value : Bool} : Accepts (.watch i, .seen changed value) []

/-- Writing everything that was not finished. -/
def Event.Cut (e : Event) : Prop := ∃ bs, e.1 = .writeAll bs ∧ e.2 ≠ .done

variable {w w' w'' : ResponseWriter} {bs rest rest' piece : Bytes} {r : Reply} {e : Event}

theorem Adds.refl (w : ResponseWriter) : w.Adds [] 0 false w :=
  ⟨(List.append_nil _).symm, rfl, (Bool.or_false _).symm, rfl⟩

/-- An operation that begins to write commits the status, whatever it adds. -/
theorem adds_commit {count : Nat} (written : w'.sink.written = w.sink.written ++ piece)
    (counted : w'.bytesWritten = w.bytesWritten + count) (commits : w'.headers = w.headers.raise) :
    w.Adds piece count true w' where
  written := written
  counted := counted
  sent := by rw [headersSent, commits, Bool.or_true]; rfl
  told := by
    rw [commits, headersSent]
    cases set : w.headers.value <;> simp [Watched.raise, Watched.sendIfModified, set]

/-- An operation that leaves the count and the headers alone. -/
theorem adds_nothing (written : w'.sink.written = w.sink.written)
    (counted : w'.bytesWritten = w.bytesWritten) (same : w'.headers = w.headers) :
    w.Adds [] 0 false w' where
  written := by rw [written, List.append_nil]
  counted := counted
  sent := by rw [headersSent, same, Bool.or_false]; rfl
  told := by rw [same]; rfl

theorem Adds.trans {later : Bytes} {n m : Nat} {one two : Bool} (first : w.Adds piece n one w')
    (second : w'.Adds later m two w'') : w.Adds (piece ++ later) (n + m) (one || two) w'' where
  written := by rw [second.written, first.written, List.append_assoc]
  counted := by rw [second.counted, first.counted, Nat.add_assoc]
  sent := by rw [second.sent, first.sent, Bool.or_assoc]
  told := by
    rw [second.told, first.told, first.sent, Nat.add_assoc]
    congr 1
    cases w.headersSent <;> cases one <;> cases two <;> rfl

theorem Accepts.counted_le (accepts : Accepts e piece) : e.counted ≤ piece.length := by
  cases accepts with
  | wrote fits => exact (List.length_take_of_le fits).ge
  | unwritten fruitless => rcases fruitless with rfl | ⟨_, rfl⟩ <;> exact le_rfl
  | whole => exact le_rfl
  | cut _ fruitless => rcases fruitless with rfl | ⟨_, rfl⟩ <;> exact Nat.zero_le _
  | _ => exact le_rfl

theorem Accepts.counted_eq (accepts : Accepts e piece) (uncut : ¬ e.Cut) :
    e.counted = piece.length := by
  cases accepts with
  | wrote fits => exact (List.length_take_of_le fits).symm
  | unwritten fruitless => rcases fruitless with rfl | ⟨_, rfl⟩ <;> rfl
  | cut _ fruitless =>
    refine absurd ⟨_, rfl, ?_⟩ uncut
    rcases fruitless with rfl | ⟨_, rfl⟩ <;> exact nofun
  | _ => rfl

/-- Nothing is accepted from what is no write. -/
theorem Accepts.nil_of_idle (accepts : Accepts e piece) (idle : e.1.writes = false) : piece = [] := by
  cases accepts with
  | wrote _ | unwritten _ | whole | cut _ _ => cases idle
  | _ => rfl

/-- One step of a write that waits adds nothing but the status. -/
theorem write_pending {now : Nat} (pending : ∀ v w', w.pollWrite now bs ≠ .ready v w') :
    w.Adds [] 0 true (w.pollWrite now bs).state := by
  have step := w.sink.pollWrite_step now bs
  simp only [pollWrite, commit] at pending ⊢
  generalize w.sink.pollWrite now bs = p at step pending ⊢
  cases step with
  | takes n s' fits written => exact absurd rfl (pending _ _)
  | fails e s' same => exact absurd rfl (pending _ _)
  | waits s' alarm same => exact adds_commit (same.trans (List.append_nil _).symm) rfl rfl
  | crashes => exact adds_commit (List.append_nil _).symm rfl rfl

theorem write_ready {now : Nat} {v : Except IoError Nat} (ready : w.pollWrite now bs = .ready v w') :
    (∃ n, v = .ok n ∧ n ≤ bs.length ∧ w.Adds (bs.take n) n true w') ∨
      ∃ e, v = .error e ∧ w.Adds [] 0 true w' := by
  have step := w.sink.pollWrite_step now bs
  simp only [pollWrite, commit] at ready
  generalize w.sink.pollWrite now bs = p at step ready
  cases step with
  | takes n s' fits written =>
    cases ready
    exact .inl ⟨n, rfl, fits, adds_commit written rfl rfl⟩
  | fails e s' same =>
    cases ready
    exact .inr ⟨e, rfl, adds_commit (same.trans (List.append_nil _).symm) rfl rfl⟩
  | waits s' alarm same => cases ready
  | crashes => cases ready

theorem write_adds (undergoes : Undergoes (fun now w => w.pollWrite now bs) .wrote w r w') :
    ∃ piece, Accepts (.write bs, r) piece ∧
      w.Adds piece (Event.counted (.write bs, r)) true w' := by
  induction undergoes with
  | answered ready =>
    rcases write_ready ready with ⟨n, is, fits, adds⟩ | ⟨e, is, _⟩ <;> cases is
    exact ⟨_, .wrote fits, adds⟩
  | failed ready =>
    rcases write_ready ready with ⟨n, is, _, _⟩ | ⟨e, is, adds⟩ <;> cases is
    exact ⟨[], .unwritten (.inr ⟨_, rfl⟩), adds⟩
  | abandoned pending => exact ⟨[], .unwritten (.inl rfl), write_pending pending⟩
  | goes pending _ ih =>
    obtain ⟨piece, accepts, adds⟩ := ih
    refine ⟨piece, accepts, ?_⟩
    simpa using (write_pending pending).trans adds

/-- Writing everything, so far: the front of it was accepted, nothing of it is counted yet. -/
structure Passes (w : ResponseWriter) (bs : Bytes) (w' : ResponseWriter) (rest : Bytes) : Prop where
  adds : ∃ piece, piece ++ rest = bs ∧ w.Adds piece 0 true w'

theorem Passes.trans (first : w.Passes bs w' rest) (second : w'.Passes rest w'' rest') :
    w.Passes bs w'' rest' := by
  obtain ⟨piece, rfl, adds⟩ := first
  obtain ⟨later, rfl, adds'⟩ := second
  exact ⟨_, List.append_assoc _ _ _, adds.trans adds'⟩

theorem passes_of_written {s : Sink} (grows : w.sink.written <+: s.written)
    (kept : s.written ++ rest = w.sink.written ++ bs) :
    w.Passes bs (w.commit.setSink s) rest := by
  obtain ⟨piece, same⟩ := grows
  rw [← same, List.append_assoc] at kept
  exact ⟨piece, List.append_cancel_left kept, adds_commit same.symm rfl rfl⟩

theorem writeAll_pending {now total : Nat}
    (pending : ∀ v q, w.pollWriteAll now total bs ≠ .ready v q) :
    w.Passes bs (w.pollWriteAll now total bs).state.2 (w.pollWriteAll now total bs).state.1 := by
  have kept := (w.sink.pollWriteAll_step now bs).written
  have grows := (w.sink.pollWriteAll_step now bs).grows
  simp only [pollWriteAll, commit] at pending ⊢
  generalize w.sink.pollWriteAll now bs = p at kept grows pending ⊢
  cases p with
  | ready v q => cases v <;> exact absurd rfl (pending _ _)
  | _ => exact passes_of_written grows kept

theorem writeAll_ready {now total : Nat} {v : Except IoError Unit}
    (ready : w.pollWriteAll now total bs = .ready v (rest, w')) :
    (v = .ok () ∧ w.Adds bs total true w') ∨ ∃ e, v = .error e ∧ w.Passes bs w' rest := by
  have step := w.sink.pollWriteAll_step now bs
  simp only [pollWriteAll, commit] at ready
  generalize w.sink.pollWriteAll now bs = p at step ready
  cases p with
  | ready u q =>
    obtain ⟨left, s'⟩ := q
    cases u with
    | ok u =>
      cases ready
      have kept := step.written
      cases step.rest_nil
      exact .inl ⟨rfl, adds_commit ((List.append_nil _).symm.trans kept) rfl rfl⟩
    | error e =>
      cases ready
      exact .inr ⟨e, rfl, passes_of_written step.grows step.written⟩
  | _ => cases ready

theorem writeAll_adds {total : Nat} {q q' : Bytes × ResponseWriter}
    (undergoes : Undergoes (fun now (q : Bytes × ResponseWriter) => q.2.pollWriteAll now total q.1)
      (fun _ => .done) q r q') :
    (r = .done ∧ q.2.Adds q.1 total true q'.2) ∨ r.Fruitless ∧ q.2.Passes q.1 q'.2 q'.1 := by
  induction undergoes with
  | answered ready =>
    rcases writeAll_ready ready with ⟨_, adds⟩ | ⟨e, is, _⟩
    · exact .inl ⟨rfl, adds⟩
    · cases is
  | failed ready =>
    rcases writeAll_ready ready with ⟨is, _⟩ | ⟨e, _, passes⟩
    · cases is
    · exact .inr ⟨.inr ⟨_, rfl⟩, passes⟩
  | abandoned pending => exact .inr ⟨.inl rfl, writeAll_pending pending⟩
  | goes pending _ ih =>
    have passed := writeAll_pending pending
    rcases ih with ⟨is, adds⟩ | ⟨fruitless, passes⟩
    · refine .inl ⟨is, ?_⟩
      obtain ⟨piece, same, before⟩ := passed
      have both := before.trans adds
      rw [same] at both
      simpa using both
    · exact .inr ⟨fruitless, passed.trans passes⟩

theorem flush_adds (now : Nat) (w : ResponseWriter) : w.Adds [] 0 false (w.pollFlush now).state := by
  have same := (w.sink.pollFlush_step now).only.written
  unfold pollFlush
  generalize w.sink.pollFlush now = p at same
  cases p <;> exact adds_nothing same rfl rfl

theorem flushes_add (undergoes : Undergoes (fun now w => w.pollFlush now) (fun _ => .done) w r w') :
    w.Adds [] 0 false w' := by
  have ready : ∀ {now : Nat} {w w' : ResponseWriter} {v : Except IoError Unit},
      w.pollFlush now = .ready v w' → w.Adds [] 0 false w' := by
    intro now w w' v is
    have adds := w.flush_adds now
    rwa [is] at adds
  induction undergoes with
  | answered is => exact ready is
  | failed is => exact ready is
  | abandoned _ => exact flush_adds _ _
  | goes _ _ ih => simpa using (flush_adds _ _).trans ih

/-! ## A session -/

/-- What becomes of a session by one command, whenever it comes. -/
inductive Session.Does (s : Session) : Command → Reply → Session → Prop
  | write {bs : Bytes} {r : Reply} {w : ResponseWriter} (now : Nat) :
    Undergoes (fun now w => w.pollWrite now bs) .wrote s.writer r w →
      Does s (.write bs) r { s with now, writer := w }
  | writeAll {bs : Bytes} {r : Reply} {q : Bytes × ResponseWriter} (now : Nat) :
    Undergoes (fun now (q : Bytes × ResponseWriter) => q.2.pollWriteAll now bs.length q.1)
      (fun _ => .done) (bs, s.writer) r q → Does s (.writeAll bs) r { s with now, writer := q.2 }
  | flush {r : Reply} {w : ResponseWriter} (now : Nat) :
    Undergoes (fun now w => w.pollFlush now) (fun _ => .done) s.writer r w →
      Does s .flush r { s with now, writer := w }
  | subscribe :
    Does s .subscribe (.watcher s.watchers.length)
      { s with watchers := s.watchers ++ [.subscribe s.writer] }
  | watch {i : Nat} {watcher : HeadersWatcher} : s.watchers[i]? = some watcher →
    Does s (.watch i) (.seen (watcher.hasChanged s.writer) s.writer.headersSent)
      { s with watchers := s.watchers.set i (.subscribe s.writer) }

/-- Commands one after another, with what each was answered. -/
inductive Session.History : Session → List Event → Session → Prop
  | nil (s : Session) : History s [] s
  | cons {s t s' : Session} {c : Command} {r : Reply} {log : List Event} :
    s.Does c r t → History t log s' → History s ((c, r) :: log) s'

namespace Session

variable {s s' t : Session} {c : Command} {log : List Event}

/-- The answer to an operation that came to this, or to nothing in time. -/
def answer {α : Type} (ok : α → Reply) : Option (Except IoError α) → Reply
  | none => .blocked
  | some (.ok a) => ok a
  | some (.error e) => .failed e

theorem undergoes_of_run {τ α : Type} {poll : Nat → τ → Poll τ (Except IoError α)} {ok : α → Reply}
    {stop n now time : Nat} {t t' : τ} {result : Option (Except IoError α)}
    (ran : run .idle (fun now t => match poll now t with
      | .ready a t => .ready (some a) t
      | .more t => .more t
      | .waiting t alarm =>
        if stop ≤ now then .ready none t else .waiting t (earlier alarm (some stop))
      | .crashed t => .crashed t) n now t = .finished time result t') :
    Undergoes poll ok t (answer ok result) t' := by
  induction n generalizing now t with
  | zero => cases ran
  | succ n ih =>
    simp only [run] at ran
    cases step : poll now t with
    | ready v u =>
      rw [step] at ran
      cases ran
      cases v with
      | ok a => exact .answered step
      | error e => exact .failed step
    | more u =>
      rw [step] at ran
      have pending : ∀ v u', poll now t ≠ .ready v u' := fun v u' is => nomatch step.symm.trans is
      refine .goes pending ?_
      rw [step]
      exact ih ran
    | waiting u alarm =>
      have pending : ∀ v u', poll now t ≠ .ready v u' := fun v u' is => nomatch step.symm.trans is
      rw [step] at ran
      by_cases late : stop ≤ now
      · simp only [late, if_true] at ran
        cases ran
        have given_up : Undergoes poll ok t .blocked (poll _ t).state := .abandoned pending
        rwa [step] at given_up
      · simp only [late, if_false, Background.idle] at ran
        cases due : earlier (earlier alarm (some stop)) none with
        | none => rw [due] at ran; cases ran
        | some later =>
          rw [due] at ran
          refine .goes pending ?_
          rw [step]
          exact ih ran
    | crashed u => rw [step] at ran; cases ran

/-- An operation of a session is one that its caller gives up when it has waited long enough. -/
theorem undergoes_of_drive {τ α : Type} {count : Nat} {poll : Nat → τ → Poll τ (Except IoError α)}
    {writer : τ → ResponseWriter} {start : τ} {ok : α → Reply}
    (driven : s.drive count poll writer start ok = some (r, s')) :
    ∃ u, Undergoes poll ok start r u ∧ s' = { s with now := s'.now, writer := writer u } := by
  simp only [drive] at driven
  split at driven
  · rename_i time result u ran
    cases driven
    refine ⟨u, ?_, rfl⟩
    have undergoes : Undergoes poll ok start (answer ok result) u := undergoes_of_run ran
    cases result with
    | none => exact undergoes
    | some v => cases v <;> exact undergoes
  · cases driven

/-- What a session performs is what can become of it. -/
theorem does_of_perform (performed : s.perform c = some (r, s')) : s.Does c r s' := by
  cases c with
  | write bs =>
    obtain ⟨w, undergoes, is⟩ := undergoes_of_drive performed
    rw [is]
    exact .write _ undergoes
  | writeAll bs =>
    obtain ⟨q, undergoes, is⟩ := undergoes_of_drive performed
    rw [is]
    exact .writeAll _ undergoes
  | flush =>
    obtain ⟨w, undergoes, is⟩ := undergoes_of_drive performed
    rw [is]
    exact .flush _ undergoes
  | subscribe =>
    cases performed
    exact .subscribe
  | watch i =>
    simp only [perform] at performed
    split at performed
    · cases performed
    · cases performed
      exact .watch ‹_›

theorem Does.adds (does : s.Does c r s') : ∃ piece, Accepts (c, r) piece ∧
    s.writer.Adds piece (Event.counted (c, r)) c.writes s'.writer := by
  cases does with
  | write now undergoes => exact write_adds undergoes
  | writeAll now undergoes =>
    rcases writeAll_adds undergoes with ⟨rfl, adds⟩ | ⟨fruitless, piece, part, adds⟩
    · exact ⟨_, .whole, adds⟩
    · refine ⟨piece, .cut ⟨_, part⟩ fruitless, ?_⟩
      rcases fruitless with rfl | ⟨e, rfl⟩ <;> exact adds
  | flush now undergoes => exact ⟨[], .flushed, flushes_add undergoes⟩
  | subscribe => exact ⟨[], .subscribed, .refl s.writer⟩
  | watch _ => exact ⟨[], .watched, .refl s.writer⟩

theorem History.adds (history : History s log s') : ∃ pieces, List.Forall₂ Accepts log pieces ∧
    s.writer.Adds pieces.flatten (log.map Event.counted).sum (log.any (·.1.writes)) s'.writer := by
  induction history with
  | nil s => exact ⟨[], .nil, .refl s.writer⟩
  | cons does _ ih =>
    obtain ⟨piece, accepts, first⟩ := does.adds
    obtain ⟨pieces, accepted, later⟩ := ih
    exact ⟨piece :: pieces, .cons accepts accepted, first.trans later⟩

theorem History.split {log' : List Event} (history : History s (log ++ log') s') :
    ∃ t, History s log t ∧ History t log' s' := by
  induction log generalizing s with
  | nil => exact ⟨s, .nil s, history⟩
  | cons e log ih =>
    cases history with
    | cons does rest =>
      obtain ⟨t, first, second⟩ := ih rest
      exact ⟨t, .cons does first, second⟩

theorem sum_counted_le {pieces : List Bytes} (accepted : List.Forall₂ Accepts log pieces) :
    (log.map Event.counted).sum ≤ pieces.flatten.length := by
  induction accepted with
  | nil => exact le_rfl
  | cons accepts _ ih =>
    have le := accepts.counted_le
    simp only [List.map_cons, List.sum_cons, List.flatten_cons, List.length_append]
    omega

theorem sum_counted_eq {pieces : List Bytes} (accepted : List.Forall₂ Accepts log pieces)
    (uncut : ∀ e ∈ log, ¬ e.Cut) : (log.map Event.counted).sum = pieces.flatten.length := by
  induction accepted with
  | nil => rfl
  | cons accepts _ ih =>
    rw [List.forall_mem_cons] at uncut
    have eq := accepts.counted_eq uncut.1
    have rest := ih uncut.2
    simp only [List.map_cons, List.sum_cons, List.flatten_cons, List.length_append]
    omega

theorem flatten_of_idle {pieces : List Bytes} (accepted : List.Forall₂ Accepts log pieces)
    (idle : log.any (·.1.writes) = false) : pieces.flatten = [] := by
  induction accepted with
  | nil => rfl
  | cons accepts _ ih =>
    rw [List.any_cons, Bool.or_eq_false_iff] at idle
    rw [List.flatten_cons, accepts.nil_of_idle idle.1, ih idle.2, List.append_nil]

/-! ## Those who watch -/

/-- What one watcher is told when it looks. -/
def look? (i : Nat) : Event → Option Bool
  | (.watch j, .seen changed _) => if j = i then some changed else none
  | _ => none

def looks (i : Nat) (log : List Event) : List Bool := log.filterMap (look? i)

theorem looks_cons_look {i : Nat} {e : Event} {changed : Bool} (look : look? i e = some changed)
    (log : List Event) : looks i (e :: log) = changed :: looks i log :=
  List.filterMap_cons_some look

theorem looks_cons {i : Nat} {e : Event} (blind : look? i e = none) (log : List Event) :
    looks i (e :: log) = looks i log :=
  List.filterMap_cons_none blind

/-- A watcher looks when the status is there, or was committed before it looks. -/
def LooksLate (i : Nat) (sent : Bool) (log : List Event) : Prop :=
  ∃ a b, log = a ++ b ∧ (sent || a.any (·.1.writes)) = true ∧ looks i b ≠ []

variable {i : Nat} {sent : Bool} {e : Event} {watcher : HeadersWatcher}

theorem writes_of_look {changed : Bool} (look : look? i e = some changed) :
    e.1.writes = false := by
  unfold look? at look
  split at look
  · rfl
  · cases look

theorem looksLate_cons_look {changed : Bool} (look : look? i e = some changed) :
    LooksLate i sent (e :: log) ↔ sent = true ∨ LooksLate i false log := by
  constructor
  · rintro ⟨a, b, is, late, looked⟩
    cases sent with
    | true => exact .inl rfl
    | false =>
      cases a with
      | nil => cases late
      | cons e' a =>
        cases is
        rw [List.any_cons, writes_of_look look] at late
        exact .inr ⟨a, b, rfl, late, looked⟩
  · rintro (rfl | ⟨a, b, rfl, late, looked⟩)
    · exact ⟨[], e :: log, rfl, rfl, by simp [looks, look]⟩
    · refine ⟨e :: a, b, rfl, ?_, looked⟩
      rw [List.any_cons, writes_of_look look]
      cases sent
      · exact late
      · rfl

theorem looksLate_cons (blind : look? i e = none) :
    LooksLate i sent (e :: log) ↔ LooksLate i (sent || e.1.writes) log := by
  constructor
  · rintro ⟨a, b, is, late, looked⟩
    cases a with
    | nil =>
      subst is
      refine ⟨[], log, rfl, ?_, ?_⟩
      · simp only [List.any_nil, Bool.or_false] at late
        simp [late]
      · simpa [looks, blind] using looked
    | cons e' a =>
      cases is
      exact ⟨a, b, rfl, by rwa [List.any_cons, ← Bool.or_assoc] at late, looked⟩
  · rintro ⟨a, b, rfl, late, looked⟩
    exact ⟨e :: a, b, rfl, by rwa [List.any_cons, ← Bool.or_assoc], looked⟩

/-- A command shows a watcher what holds if it looks, and leaves it alone otherwise. -/
theorem Does.shows (does : s.Does c r s') (there : s.watchers[i]? = some watcher) :
    (look? i (c, r) = none ∧ s'.watchers[i]? = some watcher) ∨
      look? i (c, r) = some (watcher.hasChanged s.writer) ∧
        s'.watchers[i]? = some (.subscribe s.writer) ∧ s'.writer = s.writer := by
  cases does with
  | write now _ => exact .inl ⟨rfl, there⟩
  | writeAll now _ => exact .inl ⟨rfl, there⟩
  | flush now _ => exact .inl ⟨rfl, there⟩
  | subscribe =>
    refine .inl ⟨rfl, ?_⟩
    rw [List.getElem?_append_left (List.getElem?_eq_some_iff.1 there).1]
    exact there
  | @watch j other found =>
    by_cases same : j = i
    · subst same
      cases there.symm.trans found
      refine .inr ⟨by simp [look?], ?_, rfl⟩
      exact List.getElem?_set_self (List.getElem?_eq_some_iff.1 there).1
    · refine .inl ⟨by simp [look?, same], ?_⟩
      rw [List.getElem?_set_ne same]
      exact there

/-- Whoever has seen the status sees no change any more: nobody is told of it again. -/
theorem History.seen (history : History s log s')
    (there : s.watchers[i]? = some (.subscribe s.writer))
    (committed : s.writer.headersSent = true) : true ∉ looks i log := by
  induction history with
  | nil s => exact List.not_mem_nil
  | @cons s t s' c r log does _ ih =>
    obtain ⟨_, _, adds⟩ := does.adds
    have stays := adds.sent
    rw [committed, Bool.true_or] at stays
    have untold := adds.told
    rw [committed, Bool.not_true, Bool.and_false] at untold
    have same : HeadersWatcher.subscribe t.writer = .subscribe s.writer :=
      congrArg HeadersWatcher.mk untold
    rcases does.shows there with ⟨blind, kept⟩ | ⟨look, seen, _⟩
    · rw [looks_cons blind]
      exact ih (kept.trans (congrArg some same.symm)) stays
    · rw [looks_cons_look look]
      have later := ih (seen.trans (congrArg some same.symm)) stays
      simpa [HeadersWatcher.hasChanged, HeadersWatcher.subscribe] using later

/-- A watcher who saw the version that was there before the status. -/
def Precedes (watcher : HeadersWatcher) (w : ResponseWriter) : Prop :=
  w.headers.version = watcher.seen + w.headersSent.toNat

theorem Precedes.hasChanged {w : ResponseWriter} (precedes : Precedes watcher w) :
    watcher.hasChanged w = w.headersSent := by
  rw [HeadersWatcher.hasChanged, precedes]
  cases w.headersSent <;> simp

theorem precedes_subscribe {w : ResponseWriter} (unsent : w.headersSent = false) :
    Precedes (.subscribe w) w := by
  rw [Precedes, unsent]
  rfl

theorem Precedes.adds {w w' : ResponseWriter} {piece : Bytes} {count : Nat} {commits : Bool}
    (precedes : Precedes watcher w) (adds : w.Adds piece count commits w') :
    Precedes watcher w' := by
  rw [Precedes, adds.told, adds.sent, precedes, Nat.add_assoc]
  congr 1
  cases w.headersSent <;> cases commits <;> rfl

/-- Whoever has not seen it sees the change once, by the first look behind it. -/
theorem History.unseen (history : History s log s') (there : s.watchers[i]? = some watcher)
    (precedes : Precedes watcher s.writer) :
    (looks i log).count true ≤ 1 ∧
      (true ∈ looks i log ↔ LooksLate i s.writer.headersSent log) := by
  induction history generalizing watcher with
  | nil s =>
    refine ⟨Nat.zero_le 1, ⟨fun is => absurd is List.not_mem_nil, ?_⟩⟩
    rintro ⟨a, b, is, _, looked⟩
    rw [(List.append_eq_nil_iff.1 is.symm).2] at looked
    exact absurd rfl looked
  | @cons s t s' c r log does rest ih =>
    obtain ⟨_, _, adds⟩ := does.adds
    rcases does.shows there with ⟨blind, same⟩ | ⟨look, seen, unmoved⟩
    · rw [looks_cons blind, looksLate_cons blind, ← adds.sent]
      exact ih same (precedes.adds adds)
    · rw [looks_cons_look look, looksLate_cons_look look, precedes.hasChanged]
      rw [← unmoved] at seen
      cases sent : s.writer.headersSent with
      | true =>
        have later := rest.seen seen (by rw [unmoved, sent])
        have none_later : (looks i log).count true = 0 := List.count_eq_zero.2 later
        simp [none_later]
      | false =>
        have unsent : t.writer.headersSent = false := by rw [unmoved, sent]
        have later := ih seen (precedes_subscribe unsent)
        rw [unsent] at later
        simpa using later

/-- What a response that was fresh tells after a history. -/
structure Tells (log : List Event) (s : Session) : Prop where
  committed : s.writer.headersSent = true ↔ ∃ e ∈ log, e.1.writes = true
  /-- Those who watch are told of it once. -/
  told : s.writer.headers.version = s.writer.headersSent.toNat
  counted : s.writer.bytesWritten = (log.map Event.counted).sum
  within : s.writer.bytesWritten ≤ s.writer.sink.written.length
  exact : (∀ e ∈ log, ¬ e.Cut) → s.writer.bytesWritten = s.writer.sink.written.length
  /-- The sink has what each operation passed on, one behind the other. -/
  accepted : ∃ pieces, List.Forall₂ Accepts log pieces ∧ s.writer.sink.written = pieces.flatten
  untouched : s.writer.headersSent = false → s.writer.sink.written = []

/-- A watcher begins to watch behind a part of the history; the first one does at once. -/
def Begins (i : Nat) (before behind log : List Event) : Prop :=
  log = before ++ (.subscribe, .watcher i) :: behind ∨ i = 0 ∧ before = [] ∧ log = behind

/-- A change is seen once at most, and only by those who began before the first write. -/
structure Sees (i : Nat) (before behind : List Event) : Prop where
  once : (looks i behind).count true ≤ 1
  sees_iff : true ∈ looks i behind ↔
    (∀ e ∈ before, e.1.writes = false) ∧ LooksLate i false behind

variable {plan : SinkPlan} {before behind : List Event}

theorem History.tells (history : History (start { plan }) log s) : Tells log s := by
  obtain ⟨pieces, accepted, adds⟩ := history.adds
  have written : s.writer.sink.written = pieces.flatten := adds.written
  have counted : s.writer.bytesWritten = (log.map Event.counted).sum :=
    adds.counted.trans (Nat.zero_add _)
  have sent : s.writer.headersSent = log.any (·.1.writes) := adds.sent.trans (Bool.false_or _)
  refine ⟨?_, ?_, counted, ?_, fun uncut => ?_, ⟨pieces, accepted, written⟩, fun unsent => ?_⟩
  · rw [sent, List.any_eq_true]
  · have fresh : Precedes ⟨0⟩ (start { plan }).writer := rfl
    exact (fresh.adds adds).trans (Nat.zero_add _)
  · rw [counted, written]
    exact sum_counted_le accepted
  · rw [counted, written]
    exact sum_counted_eq accepted uncut
  · rw [written]
    exact flatten_of_idle accepted (sent.symm.trans unsent)

theorem History.sees (history : History t behind s)
    (there : t.watchers[i]? = some (.subscribe t.writer))
    (sent : t.writer.headersSent = true ↔ ∃ e ∈ before, e.1.writes = true) :
    Sees i before behind := by
  cases committed : t.writer.headersSent with
  | true =>
    have blind := history.seen there committed
    refine ⟨?_, fun is => absurd is blind, fun ⟨unwritten, _⟩ => ?_⟩
    · rw [List.count_eq_zero.2 blind]
      exact Nat.zero_le 1
    · obtain ⟨e, listed, writes⟩ := sent.1 committed
      rw [unwritten e listed] at writes
      cases writes
  | false =>
    obtain ⟨once, sees⟩ := history.unseen there (precedes_subscribe committed)
    rw [committed] at sees
    have unwritten : ∀ e ∈ before, e.1.writes = false := fun e listed =>
      eq_false_of_ne_true fun writes => by
        rw [sent.2 ⟨e, listed, writes⟩] at committed
        cases committed
    exact ⟨once, sees.trans ⟨fun late => ⟨unwritten, late⟩, And.right⟩⟩

theorem History.sees_from (history : History (start { plan }) log s)
    (begins : Begins i before behind log) : Sees i before behind := by
  rcases begins with rfl | ⟨rfl, rfl, rfl⟩
  · obtain ⟨t, first, second⟩ := history.split
    cases second with
    | cons does rest =>
      cases does with
      | subscribe => exact rest.sees List.getElem?_concat_length first.tells.committed
  · exact history.sees rfl (by simp [start, headersSent])

/-- The commands one after another as a session performs them, with what each was answered. -/
def follow (s : Session) : List Command → Option (List Event × Session)
  | [] => some ([], s)
  | c :: rest =>
    (s.perform c).bind fun (r, s) => (follow s rest).map fun (log, s) => ((c, r) :: log, s)

theorem history_of_follow {commands : List Command} (ran : s.follow commands = some (log, s')) :
    History s log s' := by
  induction commands generalizing s log with
  | nil =>
    cases ran
    exact .nil _
  | cons c rest ih =>
    simp only [follow, Option.bind_eq_some_iff, Option.map_eq_some_iff] at ran
    obtain ⟨⟨r, t⟩, performed, ⟨log', _⟩, followed, is⟩ := ran
    cases is
    exact .cons (does_of_perform performed) (ih followed)

/-- The status is there from the first write that was begun on, whatever became of it, and nothing
takes it back; each watcher sees that once at most. What was counted and what the sink has is what the
operations were answered, in their order. A session that is run has such a history. -/
theorem commits_once (plan : SinkPlan) {log : List Event} {s : Session}
    (history : History (start { plan }) log s) :
    Tells log s ∧
    (∀ before behind t, log = before ++ behind → History (start { plan }) before t →
      History t behind s → t.writer.bytesWritten ≤ s.writer.bytesWritten ∧
        (t.writer.headersSent = true → s.writer.headersSent = true) ∧
        t.writer.sink.written <+: s.writer.sink.written) ∧
    (∀ i before behind, Begins i before behind log → Sees i before behind) ∧
    ∀ t t' commands log, t.follow commands = some (log, t') → History t log t' := by
  refine ⟨history.tells, fun before behind t _ _ later => ?_,
    fun i before behind begins => history.sees_from begins, fun _ _ _ _ => history_of_follow⟩
  obtain ⟨pieces, _, adds⟩ := later.adds
  refine ⟨?_, fun sent => ?_, ?_⟩
  · rw [adds.counted]
    exact Nat.le_add_right _ _
  · rw [adds.sent, sent, Bool.true_or]
  · rw [adds.written]
    exact List.prefix_append _ _

/-- It takes two octets at a time, and after six of them nothing for ever. -/
def clogging : SinkPlan where
  write := WriteTurn.steady (some 2) 1 (some (6, .hang))

theorem commits_once_clogging : ∃ log s,
    (start { plan := clogging }).follow [.flush, .watch 0, .write [1, 2, 3], .subscribe, .watch 0,
      .watch 1, .writeAll [4, 5, 6, 7, 8], .watch 0] = some (log, s) ∧
    log.map (·.2) = [.done, .seen false false, .wrote 2, .watcher 1, .seen true true,
      .seen false true, .blocked, .seen false true] ∧
    Tells log s ∧ Sees 0 [] log := by
  have facts : ((start { plan := clogging }).follow [.flush, .watch 0, .write [1, 2, 3], .subscribe,
      .watch 0, .watch 1, .writeAll [4, 5, 6, 7, 8], .watch 0]).map (fun p => p.1.map (·.2)) =
      some [.done, .seen false false, .wrote 2, .watcher 1, .seen true true, .seen false true,
        .blocked, .seen false true] := by decide +kernel
  obtain ⟨⟨log, s⟩, ran, replies⟩ := Option.map_eq_some_iff.1 facts
  obtain ⟨tells, _, sees, _⟩ := commits_once clogging (history_of_follow ran)
  exact ⟨log, s, ran, replies, tells, sees 0 [] log (.inr ⟨rfl, rfl, rfl⟩)⟩

end Session
end ResponseWriter
end PackRelay
