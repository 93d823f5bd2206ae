import PackRelay.Proofs.Json.Tagged
import PackRelay.Proofs.Text.Uuid
import PackRelay.Wire.Message

/-! Every document that opens a connection or answers a call is read back from what it is written
as. -/
namespace PackRelay.Wire

open Json

theorem toTexts_texts (ss : List String) : Value.toTexts (.array (ss.map .text)) = .ok ss := by
  have each : (ss.map Value.text).mapM Value.toText = (.ok ss : Fit (List String)) := by
    induction ss with
    | nil => rfl
    | cons s ss ih => simp [Value.toText, ih, bind, Except.bind, pure, Except.pure]
  exact each

theorem sidechannelId_text (id : SidechannelId) :
    sidechannelId (.text id.uuid.text) = .ok id := by
  simp only [sidechannelId, Value.toUuid, Uuid.parse_text]
  rfl

theorem repository_value (r : Repository) : repository (repositoryValue r) = .ok r := rfl

/-- The members of a call but its tag. -/
def callMembers (r : CallRequest) : List (String × Value) :=
  ("method", .text r.method) :: (optional "authorization" r.authorization
    ++ [("repository", repositoryValue r.repository)]
    ++ optional "git_protocol" r.gitProtocol
    ++ [("git_config_options", .array (r.gitConfigOptions.map .text)),
        ("sidechannel_id", .text r.sidechannelId.uuid.text)])

theorem callRequest_members (r : CallRequest) : callRequest (.object (callMembers r)) = .ok r := by
  have options := toTexts_texts r.gitConfigOptions
  have id := sidechannelId_text r.sidechannelId
  have place := repository_value r.repository
  cases r with
  | mk method authorization repository gitProtocol gitConfigOptions sidechannelId =>
  cases authorization <;> cases gitProtocol <;>
    simp [callRequest, callMembers, optional, CallDraft.put, fill, Value.toText, Value.toText?,
      options, id, place, required, bind, Except.bind, pure, Except.pure, Except.map]

theorem optional_members {name : String} {slot : Option String} {m : String × Value}
    (there : m ∈ optional name slot) : m.1 = name ∧ ∃ s, m.2 = .text s := by
  cases slot with
  | none => cases there
  | some s =>
    obtain rfl := List.mem_singleton.1 there
    exact ⟨rfl, s, rfl⟩

theorem repositoryValue_textual (r : Repository) : Textual 1 (repositoryValue r) := by
  refine .object 0 _ fun m there => ?_
  rcases List.mem_cons.1 there with rfl | there
  · exact .text 0 _
  · obtain rfl := List.mem_singleton.1 there
    exact .text 0 _

theorem texts_textual (ss : List String) : Textual 1 (.array (ss.map .text)) := by
  refine .array 0 _ fun v there => ?_
  obtain ⟨s, _, rfl⟩ := List.mem_map.1 there
  exact .text 0 s

/-- No member of a call nests deeper than a list of texts, or is named like the tag. -/
theorem callMembers_plain (r : CallRequest) :
    ∀ m ∈ callMembers r, Textual 1 m.2 ∧ m.1 ≠ "type" := by
  intro m there
  simp only [callMembers, List.mem_cons, List.mem_append, List.not_mem_nil, or_false] at there
  rcases there with rfl | ((there | rfl) | there) | rfl | rfl
  · exact ⟨.text 1 _, by simp⟩
  · obtain ⟨name, s, text⟩ := optional_members there
    exact ⟨text ▸ .text 1 s, name ▸ by decide⟩
  · exact ⟨repositoryValue_textual _, by simp⟩
  · obtain ⟨name, s, text⟩ := optional_members there
    exact ⟨text ▸ .text 1 s, name ▸ by decide⟩
  · exact ⟨texts_textual _, by simp⟩
  · exact ⟨.text 1 _, by simp⟩

theorem sidechannelHello_member (id : SidechannelId) :
    sidechannelHello (.object [("sidechannel_id", .text id.uuid.text)]) = .ok id := by
  simp [sidechannelHello, putId, fill, sidechannelId_text, required, bind, Except.bind, pure,
    Except.pure, Except.map]

theorem Hello.decode_encode (h : Hello) : Hello.decode h.encode = .ok h := by
  cases h with
  | call r =>
    have found : ["call", "sidechannel"].findIdx? (· == "call") = some 0 := by decide
    have built := congrArg (Except.map Hello.call) (callRequest_members r)
    exact decodeTagged_encode found (callMembers_plain r) (by decide) built
  | sidechannel id =>
    have found : ["call", "sidechannel"].findIdx? (· == "sidechannel") = some 1 := by decide
    have built := congrArg (Except.map Hello.sidechannel) (sidechannelHello_member id)
    have plain : ∀ m ∈ [("sidechannel_id", Value.text id.uuid.text)],
        Textual 0 m.2 ∧ m.1 ≠ "type" := by
      intro m there
      obtain rfl := List.mem_singleton.1 there
      exact ⟨.text 0 _, by simp⟩
    exact decodeTagged_encode found plain (by decide) built

theorem CallReply.decode_encode (r : CallReply) : CallReply.decode r.encode = .ok r := by
  cases r with
  | ok =>
    have found : ["ok", "error"].findIdx? (· == "ok") = some 0 := by decide
    have plain : ∀ m ∈ ([] : List (String × Value)), Textual 0 m.2 ∧ m.1 ≠ "status" :=
      List.forall_mem_nil _
    exact decodeTagged_encode found plain (by decide) rfl
  | error code message =>
    have found : ["ok", "error"].findIdx? (· == "error") = some 1 := by decide
    have plain : ∀ m ∈ [("code", Value.text code), ("message", Value.text message)],
        Textual 0 m.2 ∧ m.1 ≠ "status" := by
      intro m there
      rcases List.mem_cons.1 there with rfl | there
      · exact ⟨.text 0 _, by simp⟩
      · obtain rfl := List.mem_singleton.1 there
        exact ⟨.text 0 _, by simp⟩
    exact decodeTagged_encode found plain (by decide) rfl

end PackRelay.Wire
