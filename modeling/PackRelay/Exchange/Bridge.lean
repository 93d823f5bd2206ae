import PackRelay.Exchange.Basic

/-! Exchanges one after another under one controller, with what is counted of them. -/
namespace PackRelay

structure Bridge where
  controller : DeadlineController
  metrics : Metrics := {}

namespace Bridge

/-- More steps than an exchange takes whose streams come to an end. -/
def stepLimit : Nat := Nat.pow 2 40

def setTimeout (micros : Nat) (b : Bridge) : Bridge := { b with controller := b.controller.setTimeout micros }

def count {σ : Type} (r : Run σ Report) (b : Bridge) : Bridge :=
  match r.value? with
  | some report => { b with metrics := b.metrics.record report.kind report.bytesIn report.bytesOut }
  | none => b

def handle {κ : Type} (backend : Backend κ) (k : κ) (body : Source) (response : Sink) (gone : Option Nat)
    (now : Nat) (b : Bridge) : Run (Exchange κ) Report × Bridge :=
  let r := (Exchange.fresh (b.controller.begin now) k body response).handle backend
    (fun _ _ => .inOrder) gone stepLimit now
  (r, b.count r)

end Bridge
end PackRelay
