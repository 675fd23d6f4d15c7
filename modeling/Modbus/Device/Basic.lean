import Modbus.Device.DataMap
import Modbus.Frame.Message
import Modbus.Link.Wire

/-! Devices: a data map under a unit identifier, with what it takes to answer requests from it. -/

namespace Modbus

inductive Verdict where
  | proceed
  /-- The request is dealt with and gets no answer. -/
  | silence
  | failure (reason : String)

/-- What a callback leaves: its verdict, the message and the map as it has changed them, and
notes for the record. -/
structure CallbackResult where
  verdict : Verdict
  message : Message
  map : DataMap
  notes : List String

/-- Code of the application around the execution of a request. It sees the peer that sent the
request and the unit that executes it. -/
abbrev Callback := Peer → UnitId → Message → DataMap → CallbackResult

/-- A client that the devices of a server share, by its place among them. -/
abbrev ClientId := Nat

/-- A device that answers from its map. One that forwards to a client is a gateway: its map holds
what is known of the device at the other end. -/
structure Device where
  id : UnitId
  /-- Addresses of the map are protocol addresses; otherwise they are greater by one. -/
  pduAddressing : Bool
  map : DataMap
  forwardsTo : Option ClientId
  before : Option Callback
  after : Option Callback
  report : Report

namespace Device

def ofId (id : UnitId) : Device :=
  { id, pduAddressing := false, map := .empty, forwardsTo := none, before := none, after := none,
    report := .ofId id.value }

def declare (d : Device) (t : Table) (quantity : Nat) (base : UInt16) : Device :=
  { d with map := d.map.declare t quantity base }

def render (d : Device) : String :=
  Text.record "BufferedSlave"
    [⟨"id", d.id.render⟩, ⟨"pdu_addressing", toString d.pduAddressing⟩,
      ⟨"upstream", toString d.forwardsTo.isSome⟩, ⟨"before_reply", toString d.before.isSome⟩,
      ⟨"after_reply", toString d.after.isSome⟩, ⟨"report", d.report.render⟩] false

end Device

end Modbus
