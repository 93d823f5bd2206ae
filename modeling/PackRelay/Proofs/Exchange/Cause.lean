import PackRelay.Proofs.Exchange.Verdict

/-! How a failed exchange tells its cause. At the bottom of an error there may be a text that the
layers above do not know: what the system, a reader or the backend itself had to say. However the
layers are nested, the report of an exchange has that text in it once, among words that would be the
same with any other text at the bottom. -/
namespace PackRelay

/-- Errors that only differ at the bottom tell the same around the text that stands there. -/
def ToldOnce {ε : Type} (alike : ε → ε → Prop) (text? : ε → Option String) (told : ε → String)
    (e : ε) : Prop :=
  ∃ before after, ∀ e', alike e e' → ∃ m, text? e' = some m ∧ told e' = before ++ m ++ after

/-- What tells nothing but the text tells it once. -/
theorem ToldOnce.bare {ε : Type} {alike : ε → ε → Prop} {text? : ε → Option String}
    {told : ε → String} {e : ε} (lead : String)
    (tells : ∀ e', alike e e' → ∃ m, text? e' = some m ∧ told e' = lead ++ m) :
    ToldOnce alike text? told e := by
  refine ⟨lead, "", fun e' same => ?_⟩
  obtain ⟨m, is, tells⟩ := tells e' same
  exact ⟨m, is, by rw [tells, String.append_empty]⟩

/-- A layer that puts some words before what the layer below tells repeats nothing. -/
theorem ToldOnce.layer {ε δ : Type} {alike : ε → ε → Prop} {text? : ε → Option String}
    {told : ε → String} {e : ε} {alike' : δ → δ → Prop} {text?' : δ → Option String}
    {told' : δ → String} {d : δ} (inner : ToldOnce alike text? told e) (lead : String)
    (wraps : ∀ d', alike' d d' →
      ∃ e', alike e e' ∧ text?' d' = text? e' ∧ told' d' = lead ++ told e') :
    ToldOnce alike' text?' told' d := by
  obtain ⟨before, after, tells⟩ := inner
  refine ⟨lead ++ before, after, fun d' same => ?_⟩
  obtain ⟨e', same', text, told⟩ := wraps d' same
  obtain ⟨m, is, tells⟩ := tells e' same'
  exact ⟨m, text.trans is, by rw [told, tells]; simp only [String.append_assoc]⟩

/-! ## Dialing and frames -/

namespace ConnectError

/-- What the system or the reader of addresses said. -/
def text? : ConnectError → Option String
  | .address e => some e.message
  | .io _ e => some e.message
  | .cancelled _ | .timeout _ _ => none

/-- Differs at most at the bottom, where each has a text. -/
inductive Alike : ConnectError → ConnectError → Prop
  | address (e e' : AddressError) : Alike (.address e) (.address e')
  | io (place : String) (e e' : IoError) : Alike (.io place e) (.io place e')

variable {e : ConnectError} {m : String}

theorem alike_self (carries : e.text? = some m) : e.Alike e := by
  cases e with
  | address e => exact .address e e
  | io place e => exact .io place e e
  | _ => cases carries

theorem told_once (carries : e.text? = some m) : ToldOnce Alike text? message e := by
  cases e with
  | address e =>
    refine .bare "" fun _ same => ?_
    cases same with
    | address _ e' => exact ⟨e'.message, rfl, String.empty_append.symm⟩
  | io place e =>
    refine .bare ("connect to " ++ place ++ " failed: ") fun _ same => ?_
    cases same with
    | io _ _ e' => exact ⟨e'.message, rfl, rfl⟩
  | _ => cases carries

end ConnectError

namespace Wire.Error

/-- What the system or the reader of documents said. -/
def text? : Error → Option String
  | .malformed fault => some fault.message
  | .io e => some e.message
  | .closed | .frameTooLarge _ => none

inductive Alike : Error → Error → Prop
  | malformed (f f' : Json.Fault) : Alike (.malformed f) (.malformed f')
  | io (e e' : IoError) : Alike (.io e) (.io e')

variable {e : Error} {m : String}

theorem alike_self (carries : e.text? = some m) : e.Alike e := by
  cases e with
  | malformed f => exact .malformed f f
  | io e => exact .io e e
  | _ => cases carries

theorem told_once (carries : e.text? = some m) : ToldOnce Alike text? message e := by
  cases e with
  | malformed f =>
    refine .bare "malformed frame: " fun _ same => ?_
    cases same with
    | malformed _ f' => exact ⟨f'.message, rfl, rfl⟩
  | io e =>
    refine .bare "i/o error: " fun _ same => ?_
    cases same with
    | io _ e' => exact ⟨e'.message, rfl, rfl⟩
  | _ => cases carries

end Wire.Error

/-! ## The call, the sidechannel and the relays -/

namespace CallError

def text? : CallError → Option String
  | .backend status => some status.message
  | .connect e => e.text?
  | .wire e => e.text?
  | .cancelled _ => none

inductive Alike : CallError → CallError → Prop
  | backend (code m m' : String) : Alike (.backend ⟨code, m⟩) (.backend ⟨code, m'⟩)
  | connect {e e' : ConnectError} : e.Alike e' → Alike (.connect e) (.connect e')
  | wire {e e' : Wire.Error} : e.Alike e' → Alike (.wire e) (.wire e')

variable {e : CallError} {m : String}

theorem alike_self (carries : e.text? = some m) : e.Alike e := by
  cases e with
  | backend status => exact .backend status.code status.message status.message
  | connect e => exact .connect (ConnectError.alike_self carries)
  | wire e => exact .wire (Wire.Error.alike_self carries)
  | cancelled _ => cases carries

theorem told_once (carries : e.text? = some m) : ToldOnce Alike text? message e := by
  cases e with
  | backend status =>
    obtain ⟨code, m₀⟩ := status
    refine .bare ("backend error: " ++ (code ++ ": ")) fun _ same => ?_
    cases same with
    | backend _ _ m' =>
      exact ⟨m', rfl, String.append_assoc.symm⟩
  | connect e =>
    refine (ConnectError.told_once carries).layer "" fun _ same => ?_
    cases same with
    | connect same => exact ⟨_, same, rfl, String.empty_append.symm⟩
  | wire e =>
    refine (Wire.Error.told_once carries).layer "rpc wire error: " fun _ same => ?_
    cases same with
    | wire same => exact ⟨_, same, rfl, rfl⟩
  | cancelled _ => cases carries

end CallError

namespace SidechannelError

def text? : SidechannelError → Option String
  | .connect e => e.text?
  | .handshake e => e.text?
  | .io e => some e.message
  | .cancelled _ | .closed => none

inductive Alike : SidechannelError → SidechannelError → Prop
  | connect {e e' : ConnectError} : e.Alike e' → Alike (.connect e) (.connect e')
  | handshake {e e' : Wire.Error} : e.Alike e' → Alike (.handshake e) (.handshake e')
  | io (e e' : IoError) : Alike (.io e) (.io e')

variable {e : SidechannelError} {m : String}

theorem alike_self (carries : e.text? = some m) : e.Alike e := by
  cases e with
  | connect e => exact .connect (ConnectError.alike_self carries)
  | handshake e => exact .handshake (Wire.Error.alike_self carries)
  | io e => exact .io e e
  | _ => cases carries

theorem told_once (carries : e.text? = some m) : ToldOnce Alike text? message e := by
  cases e with
  | connect e =>
    refine (ConnectError.told_once carries).layer "" fun _ same => ?_
    cases same with
    | connect same => exact ⟨_, same, rfl, String.empty_append.symm⟩
  | handshake e =>
    refine (Wire.Error.told_once carries).layer "sidechannel handshake failed: " fun _ same => ?_
    cases same with
    | handshake same => exact ⟨_, same, rfl, rfl⟩
  | io e =>
    refine .bare "sidechannel i/o error: " fun _ same => ?_
    cases same with
    | io _ e' => exact ⟨e'.message, rfl, rfl⟩
  | _ => cases carries

end SidechannelError

namespace RelayError

def text? : RelayError → Option String
  | .clientRead e => some e.message
  | .clientWrite e => some e.message
  | .sidechannel e => e.text?
  | .cancelled _ => none

inductive Alike : RelayError → RelayError → Prop
  | clientRead (e e' : IoError) : Alike (.clientRead e) (.clientRead e')
  | clientWrite (e e' : IoError) : Alike (.clientWrite e) (.clientWrite e')
  | sidechannel {e e' : SidechannelError} : e.Alike e' → Alike (.sidechannel e) (.sidechannel e')

variable {e e' : RelayError} {m : String}

theorem alike_self (carries : e.text? = some m) : e.Alike e := by
  cases e with
  | clientRead e => exact .clientRead e e
  | clientWrite e => exact .clientWrite e e
  | sidechannel e => exact .sidechannel (SidechannelError.alike_self carries)
  | cancelled _ => cases carries

theorem told_once (carries : e.text? = some m) : ToldOnce Alike text? message e := by
  cases e with
  | clientRead e =>
    refine .bare "reading request body: " fun _ same => ?_
    cases same with
    | clientRead _ e' => exact ⟨e'.message, rfl, rfl⟩
  | clientWrite e =>
    refine .bare "writing response: " fun _ same => ?_
    cases same with
    | clientWrite _ e' => exact ⟨e'.message, rfl, rfl⟩
  | sidechannel e =>
    refine (SidechannelError.told_once carries).layer "" fun _ same => ?_
    cases same with
    | sidechannel same => exact ⟨_, same, rfl, String.empty_append.symm⟩
  | cancelled _ => cases carries

/-- Behind a failure on the client's side there is nothing more. -/
theorem causes_of_clientSide (side : e.isClientSide = true) : e.causes = [] := by
  cases e with
  | clientRead e => rfl
  | clientWrite e => rfl
  | sidechannel e => cases side
  | cancelled r => cases side

theorem Alike.clientSide (same : e.Alike e') : e'.isClientSide = e.isClientSide := by
  cases same <;> rfl

end RelayError

namespace TransportError

def text? : TransportError → Option String
  | .call e => e.text?
  | .sidechannel e => e.text?
  | .relay e => e.text?

inductive Alike : TransportError → TransportError → Prop
  | call {e e' : CallError} : e.Alike e' → Alike (.call e) (.call e')
  | sidechannel {e e' : SidechannelError} : e.Alike e' → Alike (.sidechannel e) (.sidechannel e')
  | relay {e e' : RelayError} : e.Alike e' → Alike (.relay e) (.relay e')

variable {e : TransportError} {m : String}

theorem alike_self (carries : e.text? = some m) : e.Alike e := by
  cases e with
  | call e => exact .call (CallError.alike_self carries)
  | sidechannel e => exact .sidechannel (SidechannelError.alike_self carries)
  | relay e => exact .relay (RelayError.alike_self carries)

theorem told_once (carries : e.text? = some m) : ToldOnce Alike text? message e := by
  cases e with
  | call e =>
    refine (CallError.told_once carries).layer "" fun _ same => ?_
    cases same with
    | call same => exact ⟨_, same, rfl, String.empty_append.symm⟩
  | sidechannel e =>
    refine (SidechannelError.told_once carries).layer "" fun _ same => ?_
    cases same with
    | sidechannel same => exact ⟨_, same, rfl, String.empty_append.symm⟩
  | relay e =>
    refine (RelayError.told_once carries).layer "" fun _ same => ?_
    cases same with
    | relay same => exact ⟨_, same, rfl, String.empty_append.symm⟩

end TransportError

/-! ## The exchange -/

namespace ExchangeError

def text? : ExchangeError → Option String
  | .clientAborted source => source.bind RelayError.text?
  | .backend status => some status.message
  | .transport e => e.text?
  | .deadlineExceeded _ => none

inductive Alike : ExchangeError → ExchangeError → Prop
  | clientAborted {e e' : RelayError} :
    e.Alike e' → Alike (.clientAborted (some e)) (.clientAborted (some e'))
  | backend (code m m' : String) : Alike (.backend ⟨code, m⟩) (.backend ⟨code, m'⟩)
  | transport {e e' : TransportError} : e.Alike e' → Alike (.transport e) (.transport e')

/-- An abortion names no cause but a failure on the client's side. -/
def Blames (e : ExchangeError) : Prop :=
  ∀ source, e = .clientAborted (some source) → source.isClientSide = true

variable {e : ExchangeError} {m : String}

theorem alike_self (carries : e.text? = some m) : e.Alike e := by
  cases e with
  | clientAborted source =>
    cases source with
    | none => cases carries
    | some e => exact .clientAborted (RelayError.alike_self carries)
  | backend status => exact .backend status.code status.message status.message
  | transport e => exact .transport (TransportError.alike_self carries)
  | deadlineExceeded _ => cases carries

theorem report_of_causeless (causeless : e.causes = []) : e.report = e.message := by
  rw [report, causeless, String.intercalate_singleton]

theorem report_clientAborted {source : RelayError} (side : source.isClientSide = true) :
    (clientAborted (some source)).report = "client aborted upload-pack: " ++ source.message := by
  have chain : (clientAborted (some source)).causes = [source.message] := by
    simp only [causes, RelayError.causes_of_clientSide side]
  rw [report, chain, String.intercalate_cons_cons, String.intercalate_singleton]
  rfl

/-- What lies behind an error that an exchange can end with repeats nothing that it says itself. -/
theorem told_once (blames : e.Blames) (carries : e.text? = some m) :
    ToldOnce Alike text? report e := by
  cases e with
  | clientAborted source =>
    cases source with
    | none => cases carries
    | some source =>
      have side := blames source rfl
      have inner := RelayError.told_once (e := source) carries
      refine inner.layer "client aborted upload-pack: " fun _ same => ?_
      cases same with
      | clientAborted same =>
        exact ⟨_, same, rfl, report_clientAborted (same.clientSide.trans side)⟩
  | backend status =>
    obtain ⟨code, m₀⟩ := status
    refine .bare ("backend rejected upload-pack: " ++ (code ++ ": ")) fun _ same => ?_
    cases same with
    | backend _ _ m' =>
      have told : (backend ⟨code, m'⟩).report = (backend ⟨code, m'⟩).message :=
        report_of_causeless rfl
      exact ⟨m', rfl, told.trans String.append_assoc.symm⟩
  | transport e =>
    have inner := TransportError.told_once carries
    refine inner.layer "upload-pack transport failure: " fun _ same => ?_
    cases same with
    | transport same => exact ⟨_, same, rfl, report_of_causeless rfl⟩
  | deadlineExceeded _ => cases carries

end ExchangeError

namespace Observed

variable {ss : List Sighting} {e : ExchangeError} {m : String}

theorem client_side_of_listed {source : RelayError}
    (first : (ss.filterMap Sighting.client?).head? = some source) :
    source.isClientSide = true := by
  obtain ⟨s, _, is⟩ := List.mem_filterMap.1 (List.mem_of_head? first)
  cases s with
  | relay r => exact (Option.filter_eq_some_iff.1 is).2
  | _ => cases is

theorem blames_of_resolve {ctx : Context} (resolved : (ofSightings ss).resolve ctx = .error e) :
    e.Blames := by
  rintro source rfl
  rw [ofSightings_eq] at resolved
  cases client : (ss.filterMap Sighting.client?).head? with
  | some e =>
    have same : e = source := by
      simp only [resolve, blame, client] at resolved
      split at resolved <;> simp at resolved <;> exact resolved
    exact same ▸ client_side_of_listed client
  | none =>
    simp only [resolve, blame, client] at resolved
    split at resolved
    · simp at resolved
    · simp at resolved
    · split at resolved <;> simp_all

/-- Whatever was observed and whatever the exchange comes to: if there is a text at the bottom of
its error, the report of the error has it once, between words that do not depend on it. -/
theorem cause_told_once {ctx : Context} (resolved : (ofSightings ss).resolve ctx = .error e)
    (carries : e.text? = some m) :
    ∃ before after, e.report = before ++ m ++ after ∧
      ∀ e', e.Alike e' → ∃ m', e'.text? = some m' ∧ e'.report = before ++ m' ++ after := by
  obtain ⟨before, after, tells⟩ := ExchangeError.told_once (blames_of_resolve resolved) carries
  obtain ⟨m₀, is, told⟩ := tells e (ExchangeError.alike_self carries)
  cases is.symm.trans carries
  exact ⟨before, after, told, tells⟩

/-- The pipe broke under the hello of the sidechannel. -/
def brokenPipe : ExchangeError := .transport (.sidechannel (.handshake (.io ⟨.brokenPipe, "pipe"⟩)))

/-- It is told once, although a relay that was cancelled for it is told of before. -/
theorem cause_told_once_broken_pipe :
    ∃ before after, brokenPipe.report = before ++ "pipe" ++ after ∧
      ∀ e', brokenPipe.Alike e' → ∃ m', e'.text? = some m' ∧ e'.report = before ++ m' ++ after := by
  have resolved : (ofSightings [.relay ⟨.inbound, 4, some (.cancelled .done)⟩,
      .transport (.sidechannel (.handshake (.io ⟨.brokenPipe, "pipe"⟩)))]).resolve
      (.start 0 5000000) = .error brokenPipe := rfl
  have carries : brokenPipe.text? = some "pipe" := rfl
  exact cause_told_once resolved carries

end Observed
end PackRelay
