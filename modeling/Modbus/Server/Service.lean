import Modbus.Server.Poll

/-! Services: what is polled over and over between its start and its stop. -/

namespace Modbus

/-- Work that is brought up, polled, and brought down, with a state of type `σ`. -/
structure Service (σ : Type) where
  start : EStateM Error σ Unit
  stop : EStateM Error σ Unit
  poll : Nat → EStateM Error σ Polled

namespace Service

variable {σ : Type}

/-- Polls until the end has been called for or a poll fails, for ever (`none`) if neither happens.
What `ended` says of the state is looked at before each poll. -/
def pollUntil (service : Service σ) (interval : Nat) (ended : σ → Bool) (s : σ) :
    Option (EStateM.Result Error σ Unit) :=
  if ended s then some (.ok () s)
  else
    match service.poll interval s with
    | .ok _ s => service |>.pollUntil interval ended s
    | .error e s => some (.error e s)
partial_fixpoint

/-- Brings a service up, polls it until the end has been called for, and brings it down. After a
poll that fails it is brought down as well, whether or not that succeeds. -/
def run (service : Service σ) (interval : Nat) (ended : σ → Bool) (s : σ) :
    Option (EStateM.Result Error σ Unit) :=
  match service.start s with
  | .error e s => some (.error e s)
  | .ok _ s =>
    (service.pollUntil interval ended s).map fun
      | .ok _ s => service.stop s
      | .error e s => (discard (outcome service.stop) >>= fun _ => throw e) s

end Service

def Server.service : Service Server := ⟨Server.start, Server.stop, Server.poll⟩

structure Ran where
  /-- Whether the service had ended before its end was called for. -/
  finished : Bool
  result : Except Error Unit

/-- Runs a service whose server is `server`, and calls for its end after `ms` milliseconds. -/
def Service.runFor {σ : Type} (service : Service σ) (server : σ → Server)
    (onServer : (Server → Server) → σ → σ) (interval ms : Nat) (s : σ) : Option (Ran × σ) :=
  let limit := (server s).journal.now + ms
  let ended := fun s => decide (limit ≤ (server s).journal.now)
  let finish := onServer fun s => s.withJournal (s.journal.sleepUntil limit)
  (service.run interval ended s).map fun
    | .ok () t => (⟨false, .ok ()⟩, finish t)
    | .error e t => (⟨decide ((server t).journal.now < limit), .error e⟩, finish t)

end Modbus
