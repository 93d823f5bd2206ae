import PackRelay.Json.Tagged
import PackRelay.Json.Record

/-! The documents that open a backend connection and answer a call, and their JSON forms. -/
namespace PackRelay

/-- Pairs a call with the connection that carries its pack data. -/
structure SidechannelId where
  uuid : Uuid
  deriving DecidableEq

def SidechannelId.text (id : SidechannelId) : String := "sc-" ++ id.uuid.text

structure Repository where
  storageName : String
  relativePath : String
  deriving DecidableEq, Repr

namespace Wire

def uploadPackMethod : String := "SmartHTTPService/PostUploadPackWithSidechannel"

structure CallRequest where
  method : String
  authorization : Option String
  repository : Repository
  gitProtocol : Option String
  gitConfigOptions : List String
  sidechannelId : SidechannelId
  deriving DecidableEq

/-- The first frame on a backend connection says which kind of connection it is. -/
inductive Hello
  | call (request : CallRequest)
  | sidechannel (id : SidechannelId)
  deriving DecidableEq

inductive CallReply
  | ok
  | error (code message : String)
  deriving DecidableEq, Repr

open Json

def optional (name : String) : Option String → List (String × Value)
  | none => []
  | some s => [(name, .text s)]

def repositoryValue (r : Repository) : Value :=
  .object [("storage_name", .text r.storageName), ("relative_path", .text r.relativePath)]

def Hello.toValue : Hello → Value
  | .call r => .object (
      [("type", .text "call"), ("method", .text r.method)]
      ++ optional "authorization" r.authorization
      ++ [("repository", repositoryValue r.repository)]
      ++ optional "git_protocol" r.gitProtocol
      ++ [("git_config_options", .array (r.gitConfigOptions.map .text)),
          ("sidechannel_id", .text r.sidechannelId.uuid.text)])
  | .sidechannel id =>
    .object [("type", .text "sidechannel"), ("sidechannel_id", .text id.uuid.text)]

def CallReply.toValue : CallReply → Value
  | .ok => .object [("status", .text "ok")]
  | .error code message =>
    .object [("status", .text "error"), ("code", .text code), ("message", .text message)]

def Hello.encode (h : Hello) : Bytes := h.toValue.encode

def CallReply.encode (r : CallReply) : Bytes := r.toValue.encode

abbrev Fit (α : Type) := Except Schema.Mismatch α

structure RepositoryDraft where
  storageName : Option String
  relativePath : Option String

def RepositoryDraft.put (d : RepositoryDraft) : String × Value → Fit RepositoryDraft
  | ("storage_name", v) => return { d with storageName := ← fill "storage_name" d.storageName Value.toText v }
  | ("relative_path", v) => return { d with relativePath := ← fill "relative_path" d.relativePath Value.toText v }
  | _ => .ok d

def repository : Value → Fit Repository
  | .object ms => do
    let d ← ms.foldlM RepositoryDraft.put ⟨none, none⟩
    return ⟨← required "storage_name" d.storageName, ← required "relative_path" d.relativePath⟩
  | .array vs => do
    let expected := "struct Repository with 2 elements"
    let (storageName, vs) ← item 0 expected Value.toText vs
    let (relativePath, vs) ← item 1 expected Value.toText vs
    noMore 2 vs
    return ⟨storageName, relativePath⟩
  | v => mismatched v "struct Repository"

def sidechannelId (v : Value) : Fit SidechannelId := v.toUuid.map SidechannelId.mk

structure CallDraft where
  method : Option String
  authorization : Option (Option String)
  repository : Option Repository
  gitProtocol : Option (Option String)
  gitConfigOptions : Option (List String)
  sidechannelId : Option SidechannelId

def CallDraft.put (d : CallDraft) : String × Value → Fit CallDraft
  | ("method", v) => return { d with method := ← fill "method" d.method Value.toText v }
  | ("authorization", v) =>
    return { d with authorization := ← fill "authorization" d.authorization Value.toText? v }
  | ("repository", v) =>
    return { d with repository := ← fill "repository" d.repository Wire.repository v }
  | ("git_protocol", v) =>
    return { d with gitProtocol := ← fill "git_protocol" d.gitProtocol Value.toText? v }
  | ("git_config_options", v) =>
    return { d with gitConfigOptions := ← fill "git_config_options" d.gitConfigOptions Value.toTexts v }
  | ("sidechannel_id", v) =>
    return { d with sidechannelId := ← fill "sidechannel_id" d.sidechannelId Wire.sidechannelId v }
  | _ => .ok d

def callRequest : Value → Fit CallRequest
  | .object ms => do
    let d ← ms.foldlM CallDraft.put ⟨none, none, none, none, none, none⟩
    return {
      method := ← required "method" d.method
      authorization := d.authorization.getD none
      repository := ← required "repository" d.repository
      gitProtocol := d.gitProtocol.getD none
      gitConfigOptions := d.gitConfigOptions.getD []
      sidechannelId := ← required "sidechannel_id" d.sidechannelId }
  | .array vs => do
    let expected := "struct CallRequest with 6 elements"
    let (method, vs) ← item 0 expected Value.toText vs
    let (authorization, vs) ← itemOr none Value.toText? vs
    let (repository, vs) ← item 2 expected Wire.repository vs
    let (gitProtocol, vs) ← itemOr none Value.toText? vs
    let (gitConfigOptions, vs) ← itemOr [] Value.toTexts vs
    let (id, vs) ← item 5 expected Wire.sidechannelId vs
    noMore 6 vs
    return ⟨method, authorization, repository, gitProtocol, gitConfigOptions, id⟩
  | v => mismatched v "struct CallRequest"

def putId (d : Option SidechannelId) : String × Value → Fit (Option SidechannelId)
  | ("sidechannel_id", v) => fill "sidechannel_id" d Wire.sidechannelId v
  | _ => .ok d

def sidechannelHello : Value → Fit SidechannelId
  | .object ms => do required "sidechannel_id" (← ms.foldlM putId none)
  | .array vs => do
    let (id, vs) ← item 0 "struct variant Hello::Sidechannel with 1 element" Wire.sidechannelId vs
    noMore 1 vs
    return id
  | v => mismatched v "struct variant Hello::Sidechannel"

structure ErrorDraft where
  code : Option String
  message : Option String

def ErrorDraft.put (d : ErrorDraft) : String × Value → Fit ErrorDraft
  | ("code", v) => return { d with code := ← fill "code" d.code Value.toText v }
  | ("message", v) => return { d with message := ← fill "message" d.message Value.toText v }
  | _ => .ok d

def errorReply : Value → Fit CallReply
  | .object ms => do
    let d ← ms.foldlM ErrorDraft.put ⟨none, none⟩
    return .error (← required "code" d.code) (← required "message" d.message)
  | .array vs => do
    let expected := "struct variant CallReply::Error with 2 elements"
    let (code, vs) ← item 0 expected Value.toText vs
    let (message, vs) ← item 1 expected Value.toText vs
    noMore 2 vs
    return .error code message
  | v => mismatched v "struct variant CallReply::Error"

/-- An `ok` reply may hold anything else, but as a list nothing else. -/
def okReply : Value → Fit CallReply
  | .array vs => (noMore 0 vs).map fun _ => .ok
  | _ => .ok .ok

def Hello.decode : Bytes → Except Fault Hello :=
  decodeTagged "type" "Hello" ["call", "sidechannel"] fun i v =>
    if i = 0 then (callRequest v).map .call else (sidechannelHello v).map .sidechannel

def CallReply.decode : Bytes → Except Fault CallReply :=
  decodeTagged "status" "CallReply" ["ok", "error"] fun i v =>
    if i = 0 then okReply v else errorReply v

end Wire
end PackRelay
