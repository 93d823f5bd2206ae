import PackRelay.Proofs.Config.Watch
import PackRelay.Proofs.Exchange.Allotment
import PackRelay.Proofs.Server.Configured
import PackRelay.Server.Reload

/-! Reloading while exchanges are under way. Every update is applied in the order in which it was
published, a file that does not load leaves everything as it is, and an exchange has the time that was
set when it began, whatever is published later. -/
namespace PackRelay

open WiredBackend renaming backend → wired

namespace Server

theorem foldl_apply (c : Config) (applied : List Config) :
    applied.foldl apply (ofConfig c) =
      { ofConfig c with controller := (ofConfig (applied.getLast?.getD c)).controller } := by
  induction applied using List.reverseRecOn with
  | nil => rfl
  | append_singleton applied d ih =>
    rw [List.foldl_append, ih, List.getLast?_concat]
    rfl

end Server

namespace Occurrence

def notice? : Occurrence → Option FileNotice
  | .notice n => some n
  | _ => none

/-- What is done to one exchange. -/
def deed? (exchange : Nat) : Occurrence → Option Http.Deed
  | .deed other d => if other = exchange then some d else none
  | _ => none

def notices (os : List Occurrence) : List FileNotice := os.filterMap notice?

def deeds (exchange : Nat) (os : List Occurrence) : List Http.Deed := os.filterMap (deed? exchange)

end Occurrence

namespace Operation

open Occurrence

variable {o : Operation} {c : Config} {os before after : List Occurrence} {n : FileNotice}

theorem follow_concat (o : Operation) (os : List Occurrence) (next : Occurrence) :
    o.follow (os ++ [next]) = (o.follow os).occur next := List.foldl_concat _ _ _ _

/-- What was published was applied, or it waits in its order. -/
theorem follow_published (c : Config) (os : List Occurrence) :
    ∃ applied, FileNotice.published (notices os) = applied ++ ((start c).follow os).updates ∧
      ((start c).follow os).server = applied.foldl Server.apply (.ofConfig c) := by
  induction os using List.reverseRecOn with
  | nil => exact ⟨[], rfl, rfl⟩
  | append_singleton os next ih =>
    obtain ⟨applied, published, server⟩ := ih
    have notices_concat : notices (os ++ [next]) = notices os ++ next.notice?.toList := by
      rw [notices, List.filterMap_append]
      cases next <;> rfl
    rw [follow_concat, notices_concat, FileNotice.published, List.filterMap_append]
    rw [FileNotice.published] at published
    generalize (start c).follow os = o at published server ⊢
    cases next with
    | notice n =>
      refine ⟨applied, ?_, server⟩
      rw [published, List.append_assoc]
      cases loaded : n.published? <;> simp [notice?, occur, loaded]
    | update =>
      cases waiting : o.updates with
      | nil =>
        refine ⟨applied, by simp [published, occur, notice?, waiting], ?_⟩
        simp [occur, waiting, server]
      | cons d rest =>
        refine ⟨applied ++ [d], by simp [published, occur, notice?, waiting], ?_⟩
        simp [occur, waiting, server, List.foldl_append]
    | request now r id call channel =>
      have same : (o.occur (.request now r id call channel)).updates = o.updates ∧
          (o.occur (.request now r id call channel)).server = o.server := by
        simp only [occur]
        split <;> exact ⟨rfl, rfl⟩
      refine ⟨applied, ?_, same.2.trans server⟩
      simp [published, notice?, same.1]
    | deed i d => exact ⟨applied, by simp [published, notice?, occur], server⟩

theorem occur_exchange {i : Nat} {v : Http.Serving WiredBackend} (there : o.exchanges[i]? = some v)
    (next : Occurrence) :
    (o.occur next).exchanges[i]? = some (v.follow wired (next.deed? i).toList) := by
  cases next with
  | notice n => exact there
  | update =>
    have same : (o.occur .update).exchanges = o.exchanges := by
      cases waiting : o.updates <;> simp only [occur, waiting]
    rw [same]
    exact there
  | request now r id call channel =>
    simp only [occur]
    split
    · exact there
    · have early := (List.getElem?_eq_some_iff.1 there).1
      rw [List.getElem?_append_left early]
      exact there
  | deed j d =>
    simp only [occur, deed?, List.getElem?_modify, there]
    split <;> rfl

/-- What happens to an exchange is what is done to it. -/
theorem follow_exchange {i : Nat} {v : Http.Serving WiredBackend}
    (there : o.exchanges[i]? = some v) (os : List Occurrence) :
    (o.follow os).exchanges[i]? = some (v.follow wired (deeds i os)) := by
  induction os generalizing o v with
  | nil => exact there
  | cons next os ih =>
    have rest := ih (occur_exchange there next)
    cases done : next.deed? i with
    | none =>
      rw [done] at rest
      rw [deeds, List.filterMap_cons_none done]
      exact rest
    | some d =>
      rw [done] at rest
      rw [deeds, List.filterMap_cons_some done]
      exact rest

/-- What holds after each history of a server that began with a configuration. -/
structure Reloads (c : Config) (os : List Occurrence) (o : Operation) : Prop where
  ordered : ∃ applied, Publishes (notices os) (applied ++ o.updates) ∧
    o.server = applied.foldl Server.apply (.ofConfig c)
  unmoved : ∀ n : FileNotice, (n.event = .other ∨ n.event = .failed) ∨ Unfit n.contents →
    o.occur (.notice n) = o
  drained : o.updates = [] → o.server = (Server.ofConfig c).follow (notices os) ∧
    ∀ published, Publishes (notices os) published → o.server.controller.timeout =
      min ((published.getLast?.getD c).timeouts.uploadPackSecs * 1000000)
        DeadlineController.maxTimeout
  positive : 0 < o.server.controller.timeout
  kept : ∀ before now r id call channel after v,
    os = before ++ .request now r id call channel :: after →
    ((start c).follow before).server.accept now r id call channel = .ok v →
    ∃ w, o.exchanges[((start c).follow before).exchanges.length]? = some w ∧
      w = v.follow wired (deeds ((start c).follow before).exchanges.length after) ∧
      w.context.timeout = ((start c).follow before).server.controller.timeout ∧
      w.context.deadline = Context.micros now + w.context.timeout

theorem kept_of_accepted {v : Http.Serving WiredBackend} {now : Nat} {r : Http.Request}
    {id : SidechannelId} {call channel : Dial}
    (accepted : o.server.accept now r id call channel = .ok v) (after : List Occurrence) :
    ∃ w, (o.follow (.request now r id call channel :: after)).exchanges[o.exchanges.length]? =
        some w ∧
      w = v.follow wired (deeds o.exchanges.length after) ∧
      w.context.timeout = o.server.controller.timeout ∧
      w.context.deadline = Context.micros now + w.context.timeout := by
  have begun : o.occur (.request now r id call channel) =
      { o with exchanges := o.exchanges ++ [v] } := by simp only [occur, accepted]
  have there : (o.occur (.request now r id call channel)).exchanges[o.exchanges.length]? =
      some v := by
    rw [begun]
    exact List.getElem?_concat_length
  have same := v.follow_sameTime WiredBackend.keepsTime (deeds o.exchanges.length after)
  obtain ⟨target, _, rfl⟩ := Server.route_of_accept accepted
  refine ⟨_, follow_exchange there after, rfl, same.timeout, ?_⟩
  rw [same.deadline, same.timeout]
  rfl

/-- A valid configuration is all that reloading needs. -/
theorem reloads {c : Config} (valid : c.validate = .ok ()) (os : List Occurrence) :
    Reloads c os ((start c).follow os) := by
  obtain ⟨applied, published, server⟩ := follow_published c os
  have last_valid : (applied.getLast?.getD c).validate = .ok () := by
    cases last : applied.getLast? with
    | none => exact valid
    | some d =>
      have listed : d ∈ FileNotice.published (notices os) :=
        published ▸ List.mem_append_left _ (List.mem_of_getLast? last)
      exact FileNotice.valid_of_published listed
  have controller : ((start c).follow os).server.controller =
      (Server.ofConfig (applied.getLast?.getD c)).controller := by rw [server, Server.foldl_apply]
  refine ⟨⟨applied, FileNotice.publishes_iff.2 published.symm, server⟩, fun n nothing => ?_,
    fun drained => ?_, ?_, ?_⟩
  · have unpublished : n.published? = none := FileNotice.published?_eq_none_iff.2 nothing
    simp only [occur, unpublished, Option.toList_none, List.append_nil]
  · rw [drained, List.append_nil] at published
    refine ⟨server.trans (published ▸ rfl), fun cs publishes => ?_⟩
    rw [FileNotice.publishes_iff.1 publishes, published, controller, Config.timeout_ofConfig]
  · rw [controller]
    exact Config.timeout_pos last_valid
  · rintro before now r id call channel after v rfl accepted
    rw [show (start c).follow (before ++ .request now r id call channel :: after) =
      ((start c).follow before).follow (.request now r id call channel :: after) from
        List.foldl_append]
    exact kept_of_accepted accepted after

def clone : Http.Request := ⟨"POST", "/a.git/git-upload-pack", [], .ofEvents []⟩

/-- Of three files one loads, and it is applied between two requests. -/
def busy : List Occurrence :=
  [.request 0 clone Scene.brief.id ⟨0, .never⟩ ⟨0, .never⟩,
    .notice ⟨.created, some (Utf8.ofString "[timeouts]\nupload_pack_secs = 120")⟩,
    .notice ⟨.modified, some (Utf8.ofString "[timeouts]\nupload_pack_secs = 0")⟩,
    .notice ⟨.modified, none⟩, .deed 0 (.work .inOrder), .update,
    .request 7 clone Scene.brief.id ⟨0, .never⟩ ⟨0, .never⟩, .deed 0 .leave]

theorem reloads_busy : Reloads {} busy ((start {}).follow busy) ∧
    ((start {}).follow busy).server.controller.timeout = 120000000 ∧
    ((start {}).follow busy).exchanges.map (fun v => (v.context.timeout, v.context.deadline)) =
      [(600000000, 600000000), (120000000, 120007000)] :=
  ⟨reloads (by decide +kernel) busy, by decide +kernel, by decide +kernel⟩

end Operation
end PackRelay
