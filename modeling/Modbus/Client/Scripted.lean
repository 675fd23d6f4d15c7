import Modbus.Client.Access

/-! Scripted clients: their answers are known in advance. They stand in for clients with a link. -/

namespace Modbus

inductive ScriptedAnswer where
  | response (response : Response)
  | exception (exception : ExceptionCode)
  | failure (kind : FaultKind)
  | timeout

/-- A client that answers from a script. -/
structure ScriptedClient where
  name : String
  pduAddressing : Bool
  answers : List ScriptedAnswer
  /-- The outcomes of the next attempts to connect; after them each succeeds. -/
  connects : List (Option FaultKind)
  disconnects : List (Option FaultKind)
  isConnected : Bool
  journal : Journal

namespace ScriptedClient

abbrev Work := EStateM Error ScriptedClient

/-- The outcome of a call; without an answer it is a timeout. -/
def outcomeOf : ScriptedAnswer → Except Error (Answer Response)
  | .response response => .ok (.ok response)
  | .exception exception => .ok (.error exception)
  | .failure kind => .error (.transport (.scripted kind))
  | .timeout => .error .timeout

def call (unit : UnitId) (request : Request) : Work (Answer Response) := do
  let c ← get
  set { c with
    answers := c.answers.tail, journal := c.journal.add (.called c.name unit request) }
  Access.pureWork (outcomeOf (c.answers.headD .timeout))

def fate (script : List (Option FaultKind)) : Except Error Unit :=
  match script with
  | some kind :: _ => .error (.transport (.scripted kind))
  | _ => .ok ()

def connect : Work Unit := do
  let c ← get
  let result := fate c.connects
  set { c with
    connects := c.connects.tail, isConnected := result.isOk,
    journal := c.journal.add (.connected c.name) }
  Access.pureWork result

def disconnect : Work Unit := do
  let c ← get
  set { c with
    disconnects := c.disconnects.tail, isConnected := false,
    journal := c.journal.add (.disconnected c.name) }
  Access.pureWork (fate c.disconnects)

def access (c : ScriptedClient) : Access ScriptedClient := ⟨call, c.pduAddressing⟩

end ScriptedClient

end Modbus
