import Modbus.Client.Scripted
import Modbus.Device.Basic

/-! Shared clients: the clients that the devices of a server forward requests to. They are named
by their place among each other, and one that has been dropped leaves its place empty. -/

namespace Modbus

inductive SharedClient where
  | linked (client : Client)
  | scripted (client : ScriptedClient)

namespace SharedClient

/-- Does the work that fits the kind of the client, at the time and with the record of `j`, and
takes them over from it. -/
def work {α : Type} (linked : ClientM α) (scripted : ScriptedClient.Work α) (j : Journal) :
    SharedClient → Except Error α × SharedClient × Journal
  | .linked c =>
    match linked { c with link := { c.link with journal := j } } with
    | .ok a c => (.ok a, .linked c, c.link.journal)
    | .error e c => (.error e, .linked c, c.link.journal)
  | .scripted c =>
    match scripted { c with journal := j } with
    | .ok a c => (.ok a, .scripted c, c.journal)
    | .error e c => (.error e, .scripted c, c.journal)

def call (unit : UnitId) (request : Request) :
    Journal → SharedClient → Except Error (Answer Response) × SharedClient × Journal :=
  work (Client.call unit request) (ScriptedClient.call unit request)

def connect : Journal → SharedClient → Except Error Unit × SharedClient × Journal :=
  work Client.connect ScriptedClient.connect

def disconnect : Journal → SharedClient → Except Error Unit × SharedClient × Journal :=
  work Client.disconnect ScriptedClient.disconnect

def isConnected : SharedClient → Bool
  | .linked c => c.isConnected
  | .scripted c => c.isConnected

def pduAddressing : SharedClient → Bool
  | .linked c => c.pduAddressing
  | .scripted c => c.pduAddressing

end SharedClient

/-- Clients by their place; a dropped one leaves nothing. -/
abbrev Clients := List (Option SharedClient)

namespace Clients

def get? (cs : Clients) (id : ClientId) : Option SharedClient := (cs[id]?).join

def add (cs : Clients) (c : SharedClient) : ClientId × Clients := (cs.length, cs ++ [some c])

def put (cs : Clients) (id : ClientId) (c : SharedClient) : Clients := cs.set id (some c)

def drop (cs : Clients) (id : ClientId) : Clients := cs.set id none

end Clients

end Modbus
