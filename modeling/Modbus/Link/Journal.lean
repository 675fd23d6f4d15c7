import Modbus.Request
import Modbus.UnitId

/-! The journal of a link: the clock and the record of what has been done so far. -/

namespace Modbus

/-- What is done to a transport or to its stream. Each may fail. -/
inductive Action where
  | opening
  | connecting
  | closing
  | beginning
  | writing
  | flushing
  | ending
  | shutdown
deriving DecidableEq

namespace Action

def all : List Action :=
  [opening, connecting, closing, beginning, writing, flushing, ending, shutdown]

def name : Action → String
  | opening => "open"
  | connecting => "connect"
  | closing => "close"
  | beginning => "begin"
  | writing => "tx"
  | flushing => "flush"
  | ending => "end"
  | shutdown => "shutdown"

end Action

/-- An entry of the record, under the name of the wire or the client. -/
inductive Entry where
  | did (wire : String) (action : Action)
  | sent (wire : String) (bytes : List UInt8)
  | unsent (wire : String) (bytes : List UInt8)
  | called (client : String) (unit : UnitId) (request : Request)
  | connected (client : String)
  | disconnected (client : String)
  | note (text : String)

/-- The time in milliseconds, and the record in order. -/
structure Journal where
  now : Nat
  entries : List Entry
  /-- The times that have been worked out to wait until, however late they are. -/
  deadlines : List Nat

namespace Journal

def start : Journal := ⟨0, [], []⟩

def add (j : Journal) (e : Entry) : Journal := { j with entries := j.entries ++ [e] }

def addNotes (j : Journal) (notes : List String) : Journal :=
  { j with entries := j.entries ++ notes.map .note }

def cleared (j : Journal) : Journal := { j with entries := [] }

def set (j : Journal) (more : List Nat) : Journal := { j with deadlines := j.deadlines ++ more }

/-- Nothing is done until the time `t`, unless it has passed. -/
def sleepUntil (j : Journal) (t : Nat) : Journal := { j with now := max j.now t }

def sleep (j : Journal) (ms : Nat) : Journal := { j with now := j.now + ms }

end Journal

end Modbus
