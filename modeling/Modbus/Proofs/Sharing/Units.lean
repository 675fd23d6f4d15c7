import Modbus.Proofs.Sharing.Line

/-! Units at the other end of a line: devices with a map each, which answer at once what they are
asked. -/

namespace Modbus

namespace Line

/-- The device of a unit with a map. -/
def unitOf (maps : UnitId → DataMap) (unit : UnitId) : Device :=
  { Device.ofId unit with map := maps unit }

/-- Each unit processes the requests that are for it, and its reply arrives in one read. -/
def unitsReact (framing : Framing) : Reaction (UnitId → DataMap) := fun maps bytes =>
  match (FrameCodec.server framing).split bytes with
  | .frame message _ =>
    let unit := message.unit
    match (unitOf maps unit).process .inProcess .own message with
    | .done served =>
      (served.reply.toList.map (.bytes ∘ FrameCodec.encode), Function.update maps unit served.map)
    | .ask .. => ([], maps)
  | _ => ([], maps)

/-- What the data model of a unit answers, and the maps after it. -/
def unitsAnswer (unit : UnitId) (r : Request) (maps : UnitId → DataMap) :
    Answer Response × (UnitId → DataMap) :=
  let d := unitOf maps unit
  ((d.map.model.execute d.pduAddressing d.report r).1,
    Function.update maps unit (d.alone r).2)

theorem unitsReact_frame {framing : Framing} {header : Header} {r : Request}
    {maps : UnitId → DataMap} (hframing : header.framing = framing) (hs : r.IsSupported)
    (hsize : r.size ≤ 253) :
    unitsReact framing maps (header.frame .request r.pdu).adu =
      ([.bytes (header.frame .response
          (Reply.pdu ((unitsAnswer header.unit r maps).1.mapError (⟨r.function, ·⟩)))).adu],
        (unitsAnswer header.unit r maps).2) := by
  have hunit : (header.frame .request r.pdu).unit = header.unit := by
    rw [Message.unit, Header.header_frame]
  have hlocal : (unitOf maps header.unit).IsLocal := ⟨rfl, rfl, rfl⟩
  obtain ⟨map, hprocess, hmodel, hshape⟩ := Device.process_frame hlocal header hs hsize
  obtain ⟨result, map', hexecute, hmodel', hshape'⟩ :=
    Device.execute_own (unitOf maps header.unit) (maps header.unit) r
  have halone : (unitOf maps header.unit).alone r = (result, map') := by
    rw [Device.alone]
    exact congrArg _ hexecute
  have hmap : map = map' :=
    DataMap.eq_of_model_of_shape (hmodel.trans (congrArg Prod.snd hmodel').symm)
      (hshape.trans hshape'.symm)
  have hsplit := (Request.delimits header (fun _ => hs) hsize).whole []
  rw [List.append_nil, hframing] at hsplit
  rw [unitsReact, FrameCodec.server, hsplit]
  simp only [hunit, hprocess, unitsAnswer, halone, hmap, Option.toList_some, List.map_cons,
    List.map_nil, Function.comp_apply, Header.encode_frame]

/-- The units of a line answer every request in time. -/
theorem answers_unitsReact (units : UnitId → Prop) (framing : Framing) (settings : LinkSettings) :
    Answers (unitsReact framing) unitsAnswer units framing settings := by
  refine ⟨fun unit r maps _ hs _ => (unitOf maps unit).isSendable_execute hs,
    fun unit r maps response _ _ _ h => DataModel.function_of_execute h,
    fun header r maps hframing _ hs hl => ?_, fun header r maps hframing _ hs hl => ?_⟩
  · rw [unitsReact_frame hframing hs (Request.size_of_withinLimits hs hl)]
    refine .direct ?_
    cases header <;> exact List.cons_ne_nil _ _
  · rw [unitsReact_frame hframing hs (Request.size_of_withinLimits hs hl)]

end Line

end Modbus
