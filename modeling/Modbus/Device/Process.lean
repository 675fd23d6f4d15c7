import Modbus.Device.Execute

/-! Processing messages: a request is decoded, executed between the callbacks of the device, and
answered. -/

namespace Modbus

/-- What processing a message leaves: the reply, if there is one, the map, and notes for the
record. -/
structure Served where
  reply : Option Message
  map : DataMap
  notes : List String

namespace Device

def refusal (message : Message) (exception : ExceptionCode) : Option Message :=
  (message.reply (.error ⟨.ofCode message.functionCode, exception⟩)).toOption

def consult (d : Device) (callback : Option Callback) (peer : Peer) (message : Message)
    (map : DataMap) : CallbackResult :=
  match callback with
  | none => ⟨.proceed, message, map, []⟩
  | some f => f peer d.id message map

/-- Answers `message` with the result of its execution, unless the second callback decides
otherwise. -/
def respond (d : Device) (peer : Peer) (message : Message) (result : Answer Response)
    (map : DataMap) : Served :=
  let reply := result.mapError fun exception =>
    (⟨.ofCode message.functionCode, exception⟩ : ExceptionResponse)
  match message.reply reply with
  | .error _ => ⟨refusal message .serverDeviceFailure, map, []⟩
  | .ok reply =>
    let after := d.consult d.after peer message map
    match after.verdict with
    | .proceed => ⟨some reply, after.map, after.notes⟩
    | .silence => ⟨none, after.map, after.notes⟩
    | .failure _ => ⟨refusal after.message .serverDeviceFailure, after.map, after.notes⟩

/-- Executes the request of `message`. A malformed one is an illegal data value, and a broadcast
goes to the map only. -/
def executeMessage (d : Device) (map : DataMap) (route : Route) (message : Message) :
    Plan (Answer Response × DataMap) :=
  match message.request with
  | .error _ => .done (.error .illegalDataValue, map)
  | .ok request => d.execute map (if message.unit.isBroadcast then .own else route) request

/-- Processes a message that came from `peer`. -/
def process (d : Device) (peer : Peer) (route : Route) (message : Message) : Plan Served :=
  let before := d.consult d.before peer message d.map
  match before.verdict with
  | .silence => .done ⟨none, before.map, before.notes⟩
  | .failure _ => .done ⟨refusal before.message .serverDeviceFailure, before.map, before.notes⟩
  | .proceed =>
    match d.executeMessage before.map route before.message with
    | .done (result, map) =>
      let served := d.respond peer before.message result map
      .done { served with notes := before.notes ++ served.notes }
    | .ask notes request resume =>
      .ask (before.notes ++ notes) request fun answer =>
        let (result, map) := resume answer
        d.respond peer before.message result map

end Device

end Modbus
