import PackRelay.Backend.Locator
import PackRelay.Config.Watch
import PackRelay.Context.Basic
import PackRelay.Http.Route
import PackRelay.Http.Serving
import PackRelay.Server.Shutdown

/-! What a running server holds. Of a configuration that is published later, only the time for exchanges
is applied, and only to those that begin afterwards. -/
namespace PackRelay

structure Server where
  config : Config
  locator : Locator
  controller : DeadlineController
  deriving DecidableEq, Repr

namespace Server

def ofConfig (c : Config) : Server := ⟨c, .ofConfig c.backend, .ofMicros c.timeouts.uploadPack.micros⟩

def apply (s : Server) (c : Config) : Server :=
  { s with controller := s.controller.setTimeout c.timeouts.uploadPack.micros }

def follow (s : Server) (ns : List FileNotice) : Server := (FileNotice.published ns).foldl apply s

def route (s : Server) (method target : String) : Except Http.Reply Http.Route :=
  Http.route s.locator method target

/-- A request for a repository is served from now on, any other is answered at once. -/
def accept (s : Server) (now : Nat) (r : Http.Request) (id : SidechannelId) (callDial channelDial : Dial) :
    Except Http.Reply (Http.Serving WiredBackend) :=
  match s.route r.method r.target with
  | .error reply => .error reply
  | .ok .health => .error .ok
  | .ok (.uploadPack target) =>
    .ok (.start s.controller s.config.timeouts.connect now target r id callDial channelDial)

/-- Whatever a server finds when it looks for the stop signal, it stops; it goes on while there is
nothing. -/
def stops : Shutdown.Received → Bool
  | .empty => false
  | .signal | .closed | .lagged _ => true

def announcement (s : Server) : String :=
  "bind address " ++ s.config.listener.bindAddress ++ ", backend " ++ s.config.backend.address
    ++ ", upload-pack timeout " ++ s.config.timeouts.uploadPack.text

end Server
end PackRelay
