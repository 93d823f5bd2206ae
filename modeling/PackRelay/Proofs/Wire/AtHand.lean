import PackRelay.Proofs.Wire.Frame

/-! Reading what has come in already. It needs no waiting, so it goes at any later time just as it
goes now; and if a whole frame is there, its document is what reading comes to. -/
namespace PackRelay

variable {now now' room : Nat}

theorem Poll.acts_of_into {σ τ α β : Type} {p : Poll σ α} {put : σ → τ} {next : α → σ → Poll τ β}
    (acts : ∀ s alarm, p.into put next ≠ .waiting s alarm) : ∀ s alarm, p ≠ .waiting s alarm := by
  rintro s alarm rfl
  exact acts _ _ rfl

theorem Source.poll_later {s : Source} (le : now ≤ now')
    (acts : ∀ s' alarm, s.poll now room ≠ .waiting s' alarm) :
    s.poll now' room = s.poll now room := by
  cases events : s.events with
  | nil => simp only [poll, events]
  | cons e rest =>
    cases e with
    | data bs => cases bs <;> simp only [poll, events]
    | delay ms =>
      simp only [poll, events] at acts ⊢
      cases pausing : pause now ms s.wake with
      | none => rw [pause_stays pausing le]
      | some t =>
        rw [pausing] at acts
        exact absurd rfl (acts _ _)
    | _ => simp only [poll, events]

theorem Connection.pollRead_later {c : Connection} (le : now ≤ now')
    (acts : ∀ c' alarm, c.pollRead now room ≠ .waiting c' alarm) :
    c.pollRead now' room = c.pollRead now room := by
  unfold pollRead at acts ⊢
  split at acts
  · simp_all
  · simp_all
  · simp_all
  · rw [Source.poll_later le (Poll.acts_of_into acts)]

/-- The octets up to whatever comes next that is something else. -/
def ReadEvent.octets : List ReadEvent → Bytes
  | .data bs :: events => bs ++ octets events
  | _ => []

namespace Source

/-- The octets that have come in and were not read yet. -/
def atHand (s : Source) : Bytes := ReadEvent.octets s.events

variable {s : Source}

theorem atHand_read {b : UInt8} {bs : Bytes} {rest : List ReadEvent} (room : Nat)
    (events : s.events = .data (b :: bs) :: rest) :
    (s.read room (b :: bs)).delivered ++ (s.read room (b :: bs)).atHand =
      s.delivered ++ s.atHand := by
  rw [delivered_read, List.append_assoc]
  refine congrArg (s.delivered ++ ·) ?_
  simp only [atHand, read, events]
  split
  · rename_i all
    rw [List.take_of_length_le all]
    simp only [skip, events, List.drop_succ_cons, List.drop_zero]
    rfl
  · simp only [skip, push, events, List.drop_succ_cons, List.drop_zero, ReadEvent.octets]
    rw [← List.append_assoc, List.take_append_drop]

end Source

/-- As long as there are octets at hand, reading goes on and none of them is lost. -/
theorem Connection.pollRead_atHand {c : Connection} (now : Nat) (some_room : 0 < room)
    (there : c.source.atHand ≠ []) :
    ∃ s', s'.delivered ++ s'.atHand = c.source.delivered ++ c.source.atHand ∧
      (c.pollRead now room = .more (c.setSource s') ∨
        ∃ b bs, c.pollRead now room = .ready (.ok (b :: bs)) (c.setSource s')) := by
  cases events : c.source.events with
  | nil => exact absurd (by simp only [Source.atHand, events]; rfl) there
  | cons e rest =>
    cases e with
    | data bs =>
      cases bs with
      | nil =>
        refine ⟨c.source.skip, ?_, .inl ?_⟩
        · simp [Source.atHand, Source.skip, events, ReadEvent.octets, Source.delivered]
        · simp only [pollRead, events, Source.poll, Poll.within, Poll.into_more]
      | cons b bs =>
        obtain ⟨room, rfl⟩ := Nat.exists_eq_succ_of_ne_zero some_room.ne'
        refine ⟨c.source.read (room + 1) (b :: bs), Source.atHand_read _ events,
          .inr ⟨b, bs.take room, ?_⟩⟩
        simp only [pollRead, events, Source.poll, Poll.within, Poll.into_ready, List.take_succ_cons]
    | _ => exact absurd (by simp only [Source.atHand, events]; rfl) there

namespace Wire

variable {α : Type} {decode : Bytes → Except Json.Fault α} {f : Filling} {r : Reading}
    {c : Connection} {a : α} {bs document rest : Bytes}

theorem Filling.poll_later (le : now ≤ now')
    (acts : ∀ q alarm, f.poll now c ≠ .waiting q alarm) : f.poll now' c = f.poll now c := by
  unfold poll at acts ⊢
  split at acts
  · rename_i full
    simp only [full, if_true]
  · rw [Connection.pollRead_later le (Poll.acts_of_into acts)]

theorem Reading.poll_later (le : now ≤ now')
    (acts : ∀ q alarm, r.poll decode now c ≠ .waiting q alarm) :
    r.poll decode now' c = r.poll decode now c := by
  cases r with
  | header f =>
    simp only [poll] at acts ⊢
    rw [Filling.poll_later le (Poll.acts_of_into acts)]
  | document f =>
    simp only [poll] at acts ⊢
    rw [Filling.poll_later le (Poll.acts_of_into acts)]

/-- Reading on comes to this at once, without ever waiting. -/
inductive Reading.Comes (decode : Bytes → Except Json.Fault α) (now : Nat) (a : α) :
    Reading → Connection → Prop
  | ends {r : Reading} {c : Connection} (q : Reading × Connection) :
    r.poll decode now c = .ready (.ok a) q → Comes decode now a r c
  | goes {r : Reading} {c : Connection} (q : Reading × Connection) :
    r.poll decode now c = .more q → Comes decode now a q.1 q.2 → Comes decode now a r c

theorem Reading.Comes.later (comes : Comes decode now a r c) (le : now ≤ now') :
    Comes decode now' a r c := by
  induction comes with
  | ends q polled =>
    exact .ends q ((poll_later le fun _ _ is => by cases polled.symm.trans is).trans polled)
  | goes q polled _ ih =>
    exact .goes q ((poll_later le fun _ _ is => by cases polled.symm.trans is).trans polled) ih

theorem Filling.poll_atHand (now : Nat) (short : 0 < f.missing) (there : c.source.atHand ≠ []) :
    ∃ q, f.poll now c = .more q ∧
      q.2.source.delivered ++ q.2.source.atHand = c.source.delivered ++ c.source.atHand := by
  obtain ⟨s', kept, polled | ⟨b, bs, polled⟩⟩ := c.pollRead_atHand now short there
  · refine ⟨(f, c.setSource s'), ?_, kept⟩
    simp only [poll, polled, Nat.ne_of_gt short, if_false, Poll.into_more]
  · refine ⟨(f.add (b :: bs), c.setSource s'), ?_, kept⟩
    simp only [poll, polled, Nat.ne_of_gt short, if_false, Poll.into_ready]

theorem Reading.poll_atHand (now : Nat) (sound : r.Sound c.source.delivered)
    (framed : frame document = .ok bs)
    (there : c.source.delivered ++ c.source.atHand = bs ++ rest) :
    (∃ q, r.poll decode now c = .more q ∧
      q.2.source.delivered ++ q.2.source.atHand = c.source.delivered ++ c.source.atHand) ∨
    r.poll decode now c = .ready ((decode document).mapError .malformed) (r, c) := by
  obtain ⟨small, rfl⟩ := frame_eq_ok.1 framed
  rw [List.append_assoc] at there
  cases r with
  | header f =>
    refine .inl ?_
    have missing := sound.missing
    have got := sound.got
    rw [got, List.nil_append] at there
    by_cases full : f.missing = 0
    · have four : f.bytes.length = 4 := by omega
      obtain ⟨head, -⟩ := List.append_inj there (by rw [four, Bytes.length_ofWord])
      refine ⟨(.document (.start document.length), c), ?_, rfl⟩
      simp only [poll, Filling.poll, full, if_true, Poll.into_ready, head, toWord_length small,
        Nat.not_lt.2 small, if_false]
    · have some_left : c.source.atHand ≠ [] := by
        intro nothing
        have length := congrArg List.length there
        simp only [nothing, List.append_nil, List.length_append, Bytes.length_ofWord] at length
        omega
      obtain ⟨q, polled, kept⟩ := f.poll_atHand now (Nat.pos_of_ne_zero full) some_left
      exact ⟨(.header q.1, q.2), by simp only [poll, polled, Poll.into_more], kept⟩
  | document f =>
    obtain ⟨head, sound, four, -⟩ := sound
    have missing := sound.missing
    rw [sound.got, List.append_assoc] at there
    obtain ⟨rfl, behind⟩ := List.append_inj there (by rw [four, Bytes.length_ofWord])
    rw [toWord_length small] at missing
    by_cases full : f.missing = 0
    · obtain ⟨rfl, -⟩ := List.append_inj behind (by omega)
      refine .inr ?_
      simp only [poll, Filling.poll, full, if_true, Poll.into_ready]
    · have some_left : c.source.atHand ≠ [] := by
        intro nothing
        have length := congrArg List.length behind
        simp only [nothing, List.append_nil, List.length_append] at length
        omega
      obtain ⟨q, polled, kept⟩ := f.poll_atHand now (Nat.pos_of_ne_zero full) some_left
      exact .inl ⟨(.document q.1, q.2), by simp only [poll, polled, Poll.into_more], kept⟩

/-- With a whole frame at hand, whatever stands behind it, reading comes to its document at once. -/
theorem Reading.comes_of_frame {r : Reading} {c : Connection} (now : Nat)
    (sound : r.Sound c.source.delivered) (framed : frame document = .ok bs)
    (there : c.source.delivered ++ c.source.atHand = bs ++ rest) (decoded : decode document = .ok a) :
    Comes decode now a r c := by
  have step : Step decode r c (r.poll decode now c) := poll_step now sound
  rcases poll_atHand now sound framed there with ⟨q, polled, kept⟩ | polled
  · rw [polled] at step
    cases step with
    | goes r' source sound' less _ =>
      exact .goes _ polled (comes_of_frame now sound' framed (kept.trans there) decoded)
  · rw [decoded] at polled
    exact .ends _ polled
termination_by rank (r, c)
decreasing_by exact less

end Wire
end PackRelay
