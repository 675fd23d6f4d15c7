import Modbus.Proofs.DataModel.Naming
import Modbus.Proofs.Pair.Gateway
import Modbus.Proofs.Server.Upstream

/-! What the map of a gateway says of the device behind it. When a gateway has answered a request
with success, its cells in the ranges of the request are those of the device, whatever the two held
before. A word of which some bits are replaced is the exception: each of the two replaces them in
the word that it had. -/

namespace Modbus

/-! ### Cells by their place in a range -/

namespace Bank

variable {α : Type} {b : Bank α} {a n i : Nat} {vs : List α}

theorem put_apply (b : Bank α) (a : Nat) (h : i < vs.length) : b.put a vs (a + i) = vs[i]? := by
  rw [put, if_pos (by omega), Nat.add_sub_cancel_left]

theorem getElem?_cells (h : b.Holds a n) (hi : i < n) : (b.cells a n)[i]? = b (a + i) := by
  induction n with
  | zero => exact (Nat.not_lt_zero i hi).elim
  | succ n ih =>
    have hn : b.Holds a n := fun j hj => h j (by omega)
    obtain ⟨v, hv⟩ := Option.isSome_iff_exists.mp (h n (by omega))
    rw [cells_succ hv]
    by_cases hin : i < n
    · rw [List.getElem?_append_left (by rw [length_cells hn]; exact hin)]
      exact ih hn hin
    · obtain rfl : n = i := by omega
      rw [List.getElem?_append_right (Nat.le_of_eq (length_cells hn)), length_cells hn, hv,
        Nat.sub_self, List.getElem?_cons_zero]

theorem put_cells {b' : Bank α} {a' : Nat} (h : b'.Holds a' n) (hi : i < n) :
    b.put a (b'.cells a' n) (a + i) = b' (a' + i) := by
  rw [put_apply b a (by rw [length_cells h]; exact hi), getElem?_cells h hi]

theorem put_apply_of_not_mem (b : Bank α) (vs : List α) {x : Nat}
    (h : ¬ (a ≤ x ∧ x < a + vs.length)) : b.put a vs x = b x := if_neg h

/-- Cells that are there stay when some are written. -/
theorem Holds.put (h : b.Holds a n) (a' : Nat) (vs : List α) : (b.put a' vs).Holds a n := by
  intro i hi
  by_cases hin : a' ≤ a + i ∧ a + i < a' + vs.length
  · rw [Bank.put, if_pos hin, List.getElem?_eq_getElem (by omega)]
    rfl
  · rw [put_apply_of_not_mem b vs hin]
    exact h i hi

end Bank

/-- The bits outside of the mask are those of the word that comes in. -/
theorem masked_eq_masked_iff (v w andMask orMask : UInt16) :
    masked v andMask orMask = masked w andMask orMask ↔ v &&& andMask = w &&& andMask := by
  have hkept : ∀ u, masked u andMask orMask &&& andMask = u &&& andMask := by
    intro u
    refine UInt16.toBitVec_inj.mp (BitVec.eq_of_getLsbD_eq fun i hi => ?_)
    simp [masked]
    grind
  constructor
  · intro h
    rw [← hkept v, h, hkept w]
  · intro h
    rw [masked, h, masked]

namespace DataModel

/-- The cells of a range hold the same in two models, each of which has addresses of its own. -/
def SameOn (m : DataModel) (pduAddressing : Bool) (m' : DataModel) (pduAddressing' : Bool)
    (range : Table × UInt16 × Nat) : Prop :=
  ∀ i < range.2.2,
    m.bits range.1 (cellAddress pduAddressing range.2.1 + i) =
        m'.bits range.1 (cellAddress pduAddressing' range.2.1 + i) ∧
      m.registers range.1 (cellAddress pduAddressing range.2.1 + i) =
        m'.registers range.1 (cellAddress pduAddressing' range.2.1 + i)

variable {m m' : DataModel} {pduAddressing pduAddressing' : Bool} {report : Report} {r : Request}
  {response : Response}

/-- A request that succeeds is within limits and reaches its cells. -/
theorem of_execute (h : (m.execute pduAddressing report r).1 = .ok response) :
    r.WithinLimits ∧ m.Reaches pduAddressing r ∧
      (m.written pduAddressing r).response pduAddressing report r = .ok response ∧
      (m.execute pduAddressing report r).2 = m.written pduAddressing r := by
  unfold execute at h ⊢
  split at h
  · cases h
  · rename_i hlimits
    split at h
    · cases h
    · rename_i hreaches
      rw [not_not] at hlimits hreaches
      simp only [hlimits, hreaches, not_true_eq_false, if_false]
      exact ⟨trivial, trivial, h, trivial⟩

/-- After a request that reads or writes whole cells, the cells in its ranges are the same. -/
theorem sameOn_of_execute (hid : r ≠ .reportId) (hmask : ∀ a x o, r ≠ .maskWriteRegister a x o)
    (h : (m'.execute pduAddressing' report r).1 = .ok response) :
    ∀ range ∈ r.ranges,
      ((m.written pduAddressing r).recorded pduAddressing r response).SameOn pduAddressing
        (m'.execute pduAddressing' report r).2 pduAddressing' range := by
  obtain ⟨-, hreaches, hresponse, hmodel⟩ := of_execute h
  rw [hmodel]
  have hholds := fun range hrange => (hreaches range hrange).2
  cases r with
  | readCoils a n | readDiscreteInputs a n =>
    cases hresponse
    intro range hrange i hi
    obtain rfl := List.mem_singleton.mp hrange
    have hread := (holds_bits rfl).mp (hholds _ hrange)
    exact ⟨Bank.put_cells hread hi, rfl⟩
  | readInputRegisters a n | readHoldingRegisters a n =>
    cases hresponse
    intro range hrange i hi
    obtain rfl := List.mem_singleton.mp hrange
    have hread := (holds_registers rfl).mp (hholds _ hrange)
    exact ⟨rfl, Bank.put_cells hread hi⟩
  | writeSingleCoil a bit | writeMultipleCoils a bits =>
    cases hresponse
    intro range hrange i hi
    obtain rfl := List.mem_singleton.mp hrange
    exact ⟨(Bank.put_apply _ _ hi).trans (Bank.put_apply _ _ hi).symm, rfl⟩
  | writeSingleRegister a word | writeMultipleRegisters a words =>
    cases hresponse
    intro range hrange i hi
    obtain rfl := List.mem_singleton.mp hrange
    exact ⟨rfl, (Bank.put_apply _ _ hi).trans (Bank.put_apply _ _ hi).symm⟩
  | readWriteRegisters a n w words =>
    cases hresponse
    have hread : (m'.holdingRegisters.put (cellAddress pduAddressing' w) words).Holds
        (cellAddress pduAddressing' a) n.toNat :=
      ((holds_registers rfl).mp
        (hholds (.holdingRegister, a, n.toNat) List.mem_cons_self)).put _ words
    have hcell : ∀ (p : Bool) (a : UInt16), cellAddress p a = a.toNat + cellAddress p 0 := by
      intro p a
      cases p <;> rfl
    -- The values that come back go over those that were written here; where the two ranges have
    -- cells in common, the device has written the same ones before it read them.
    intro range hrange i hi
    simp only [Request.ranges, List.mem_cons, List.not_mem_nil, or_false] at hrange
    refine ⟨by rcases hrange with rfl | rfl <;> rfl, ?_⟩
    rcases hrange with rfl | rfl
    · exact Bank.put_cells hread hi
    · have hlength := Bank.length_cells hread
      by_cases hin : cellAddress pduAddressing a ≤ cellAddress pduAddressing w + i ∧
          cellAddress pduAddressing w + i < cellAddress pduAddressing a + n.toNat
      · rw [hcell pduAddressing a, hcell pduAddressing w] at hin
        have hplace : ∀ p, cellAddress p w + i = cellAddress p a + (w.toNat + i - a.toNat) := by
          intro p
          rw [hcell p a, hcell p w]
          omega
        show Bank.put _ _ _ (cellAddress pduAddressing w + i) =
          Bank.put _ _ _ (cellAddress pduAddressing' w + i)
        rw [hplace, hplace]
        exact Bank.put_cells hread (by omega)
      · rw [← hlength] at hin
        exact (Bank.put_apply_of_not_mem _ _ hin).trans
          ((Bank.put_apply _ _ hi).trans (Bank.put_apply _ _ hi).symm)
  | maskWriteRegister a andMask orMask => exact (hmask a andMask orMask rfl).elim
  | reportId => exact (hid rfl).elim
  | custom code data => cases hresponse

/-- The bits that a request keeps are the same in the two words that it changes. Only one that
replaces some bits of a word keeps any. -/
def KeepsSame (m : DataModel) (pduAddressing : Bool) (m' : DataModel) (pduAddressing' : Bool) :
    Request → Prop
  | .maskWriteRegister a andMask _ =>
    (m.holdingRegisters (cellAddress pduAddressing a)).map (· &&& andMask) =
      (m'.holdingRegisters (cellAddress pduAddressing' a)).map (· &&& andMask)
  | _ => True

theorem written_mask {a andMask orMask : UInt16}
    (h : m.Reaches pduAddressing (.maskWriteRegister a andMask orMask)) :
    ∃ v, m.holdingRegisters (cellAddress pduAddressing a) = some v ∧
      (m.written pduAddressing (.maskWriteRegister a andMask orMask)).holdingRegisters
        (cellAddress pduAddressing a) = some (masked v andMask orMask) := by
  have hholds := (holds_registers rfl).mp (h (.holdingRegister, a, 1) List.mem_cons_self).2
  obtain ⟨v, hv⟩ := Option.isSome_iff_exists.mp (hholds 0 Nat.zero_lt_one)
  have hcells : m.holdingRegisters.cells (cellAddress pduAddressing a) 1 = [v] := Bank.cells_succ hv
  have hin : 0 < [masked v andMask orMask].length := Nat.zero_lt_one
  refine ⟨v, hv, ?_⟩
  rw [written, hcells]
  exact Bank.put_apply m.holdingRegisters (cellAddress pduAddressing a) hin

/-- When both have done a request, the one with the values that came back, the cells in its ranges
are the same if the bits that it keeps were. -/
theorem sameOn_iff_keepsSame (hid : r ≠ .reportId) (hreaches : m.Reaches pduAddressing r)
    (h : (m'.execute pduAddressing' report r).1 = .ok response) :
    (∀ range ∈ r.ranges,
        ((m.written pduAddressing r).recorded pduAddressing r response).SameOn pduAddressing
          (m'.execute pduAddressing' report r).2 pduAddressing' range) ↔
      m.KeepsSame pduAddressing m' pduAddressing' r := by
  by_cases hmask : ∃ a x o, r = .maskWriteRegister a x o
  · obtain ⟨a, andMask, orMask, rfl⟩ := hmask
    obtain ⟨-, hreaches', -, hmodel⟩ := of_execute h
    obtain ⟨v, hv, hwritten⟩ := written_mask hreaches
    obtain ⟨w, hw, hwritten'⟩ := written_mask hreaches'
    rw [hmodel, KeepsSame, hv, hw, Option.map_some, Option.map_some, Option.some.injEq,
      ← masked_eq_masked_iff v w andMask orMask]
    have hcells : ((m.written pduAddressing (.maskWriteRegister a andMask orMask)).SameOn
        pduAddressing (m'.written pduAddressing' (.maskWriteRegister a andMask orMask))
          pduAddressing' (.holdingRegister, a, 1)) ↔
        masked v andMask orMask = masked w andMask orMask := by
      rw [← Option.some.injEq, ← hwritten, ← hwritten']
      constructor
      · intro hsame
        exact (hsame 0 Nat.zero_lt_one).2
      · rintro hsame i hi
        obtain rfl : i = 0 := by
          simp only at hi
          omega
        exact ⟨rfl, hsame⟩
    rw [← hcells]
    exact List.forall_mem_singleton
  · have hwhole : ∀ a x o, r ≠ .maskWriteRegister a x o := fun a x o hr => hmask ⟨a, x, o, hr⟩
    have hkeeps : m.KeepsSame pduAddressing m' pduAddressing' r := by
      cases r with
      | maskWriteRegister a x o => exact (hwhole a x o rfl).elim
      | _ => trivial
    exact iff_of_true (sameOn_of_execute hid hwhole h) hkeeps

end DataModel

/-! ### Gateways that lead to a device -/

namespace Device

open Pair (forward)

variable {interval : Nat} {p : Pair} {g d : Device}

/-- The gateway leads over working links to a local device that has its identifier. -/
structure LeadsTo (interval : Nat) (g d : Device) (p : Pair) : Prop where
  ready : p.Ready interval
  isPlain : g.IsPlain
  found : p.server.device? g.id = some d
  isLocal : d.IsLocal
  isRegistrable : g.id.isRegistrable = true

theorem LeadsTo.withMaps (h : LeadsTo interval g d p) {p' : Pair} (hready : p'.Ready interval)
    (gmap : DataMap) {dmap : DataMap} (hfound : p'.server.device? g.id = some { d with map := dmap }) :
    LeadsTo interval { g with map := gmap } { d with map := dmap } p' :=
  ⟨hready, ⟨h.isPlain.before, h.isPlain.after⟩, hfound,
    ⟨h.isLocal.forwardsTo, h.isLocal.before, h.isLocal.after⟩, h.isRegistrable⟩

/-- A request that is forwarded is executed by the device, and the gateway makes of its map what
comes back. -/
theorem LeadsTo.process_of_forwarded? (h : LeadsTo interval g d p) (peer : Peer) {message : Message}
    (hunit : message.unit.isBroadcast = false) {r : Request}
    (hforwarded : g.forwarded? message.pdu = some r) :
    let result := d.map.model.execute d.pduAddressing d.report r
    ∃ served dmap p',
      (g.process peer .forward message).run (fun _ p => p) (forward interval g.id) p =
        (served, p') ∧
      LeadsTo interval { g with map := served.map } { d with map := dmap } p' ∧
      g.Relays message r (.ok result.1.padded) served ∧ dmap.model = result.2 := by
  intro result
  obtain ⟨resume, hprocess, hrelays⟩ :=
    Device.process_of_forwarded? peer h.isPlain hunit hforwarded
  have hforwards : g.Forwards r := of_decide_eq_true (Option.filter_eq_some_iff.mp hforwarded).2
  obtain ⟨dmap, p', hforward, hmodel, -, hready, hfound⟩ := Pair.forward_of_ready h.ready h.found
    h.isLocal h.isRegistrable hforwards.supported hforwards.withinLimits
  refine ⟨resume result.1.padded, dmap, p', ?_, h.withMaps hready _ hfound,
    hrelays (.ok result.1.padded), hmodel⟩
  rw [hprocess, Plan.run, hforward]

/-- Whatever message it gets, a gateway goes on to lead to the device. -/
theorem LeadsTo.process (h : LeadsTo interval g d p) (peer : Peer) (message : Message) :
    ∃ served dmap p',
      (g.process peer .forward message).run (fun _ p => p) (forward interval g.id) p =
        (served, p') ∧
      LeadsTo interval { g with map := served.map } { d with map := dmap } p' := by
  have hstays : ∀ served, g.process peer .forward message = .done served → ∃ served dmap p',
      (g.process peer .forward message).run (fun _ p => p) (forward interval g.id) p =
        (served, p') ∧
      LeadsTo interval { g with map := served.map } { d with map := dmap } p' := by
    intro served hprocess
    exact ⟨served, d.map, p, by rw [hprocess, Plan.run], h.withMaps h.ready _ h.found⟩
  by_cases hunit : message.unit.isBroadcast = false
  · rcases hforwarded : g.forwarded? message.pdu with _ | r
    · have hleaves : Route.forward ≠ .own := by decide
      obtain ⟨answer, hprocess, -⟩ :=
        Device.process_of_not_forwarded? peer h.isPlain hunit hleaves fun _ => hforwarded
      exact hstays _ hprocess
    · obtain ⟨served, dmap, p', hrun, hleads, -⟩ := h.process_of_forwarded? peer hunit hforwarded
      exact ⟨served, dmap, p', hrun, hleads⟩
  · -- A broadcast goes to the map of the gateway only.
    obtain ⟨result, map, hexecute, -⟩ := executeMessage_own g g.map message
    have hown : g.executeMessage g.map .forward message = g.executeMessage g.map .own message := by
      rw [Bool.not_eq_false] at hunit
      simp only [executeMessage, hunit, if_true]
    have hprocess := process_of_isPlain h.isPlain peer .forward message
    rw [hown, hexecute, Plan.map_done] at hprocess
    exact hstays _ hprocess

theorem LeadsTo.processAll (h : LeadsTo interval g d p) (messages : List (Peer × Message)) :
    ∃ replies gmap dmap p',
      g.processAll .forward (forward interval g.id) messages p =
        (replies, { g with map := gmap }, p') ∧
      LeadsTo interval { g with map := gmap } { d with map := dmap } p' := by
  induction messages generalizing g d p with
  | nil => exact ⟨[], g.map, d.map, p, rfl, h⟩
  | cons first rest ih =>
    obtain ⟨peer, message⟩ := first
    obtain ⟨served, dmap₁, p₁, hrun, hleads⟩ := h.process peer message
    obtain ⟨replies, gmap, dmap, p', hrest, hlast⟩ := ih hleads
    refine ⟨served.reply :: replies, gmap, dmap, p', ?_, hlast⟩
    rw [Device.processAll]
    simp only [hrun]
    exact congrArg (fun run => (served.reply :: run.1, run.2.1, run.2.2)) hrest

theorem isException_answered_error (message : Message) (e : ExceptionCode) :
    (message.answered (message.toReply (.error e))).isException = true :=
  Message.isException_answered_error message _

/-- Of a run of messages to a gateway that leads to a device, each request that the gateway answers
with success leaves the cells in its ranges as they are in the device, whatever both held before,
if and only if the bits that the request keeps were the same. -/
theorem sameOn_of_processAll (h : LeadsTo interval g d p) {earlier : List (Peer × Message)}
    {replies : List (Option Message)} {g₁ : Device} {p₁ p₂ : Pair}
    (hearlier : g.processAll .forward (forward interval g.id) earlier p = (replies, g₁, p₁))
    {peer : Peer} {message reply : Message} {served : Served}
    (hunit : message.unit.isBroadcast = false)
    (hrun : (g₁.process peer .forward message).run (fun _ p => p) (forward interval g.id) p₁ =
      (served, p₂))
    (hreply : served.reply = some reply) (hsuccess : reply.isException = false) {r : Request}
    (hrequest : message.request = .ok r) (hid : r ≠ .reportId) :
    ∃ d₁ d₂, p₁.server.device? g.id = some d₁ ∧ p₂.server.device? g.id = some d₂ ∧
      served.map.model.Reaches g.pduAddressing r ∧
      ((∀ range ∈ r.ranges,
          served.map.model.SameOn g.pduAddressing d₂.map.model d.pduAddressing range) ↔
        g₁.map.model.KeepsSame g.pduAddressing d₁.map.model d.pduAddressing r) := by
  obtain ⟨replies', gmap, dmap, p₁', hearlier', h₁⟩ := h.processAll earlier
  rw [hearlier'] at hearlier
  cases hearlier
  have hspelled : Request.spelled? message.pdu = some r := by
    rw [← Request.toOption_ofPdu]
    exact congrArg Except.toOption hrequest
  rcases hforwarded : ({ g with map := gmap } : Device).forwarded? message.pdu with _ | r'
  · -- Only a report is given without asking the device.
    have hleaves : Route.forward ≠ .own := by decide
    obtain ⟨answer, hprocess, hreport⟩ :=
      Device.process_of_not_forwarded? peer h₁.isPlain hunit hleaves fun _ => hforwarded
    rw [hprocess, Plan.run] at hrun
    cases hrun
    cases hreply
    rcases answer with e | response
    · rw [isException_answered_error] at hsuccess
      cases hsuccess
    · obtain ⟨hreported, -⟩ := hreport response rfl
      rw [hspelled] at hreported
      exact (hid (Option.some.inj hreported)).elim
  · obtain ⟨served', dmap', p₂', hrun', h₂, hrelays, hmodel⟩ :=
      h₁.process_of_forwarded? peer hunit hforwarded
    obtain ⟨hspelled', hforwards⟩ := Option.filter_eq_some_iff.mp hforwarded
    obtain rfl : r = r' := Option.some.inj (hspelled.symm.trans hspelled')
    have hreaches := (of_decide_eq_true hforwards).reaches
    rw [hrun'] at hrun
    cases hrun
    have hreplied := hreply.symm.trans hrelays.reply
    refine ⟨_, _, h₁.found, h₂.found, (DataMap.reaches_congr hrelays.shape _ r).mpr hreaches, ?_⟩
    rcases hresult : (dmap.model.execute d.pduAddressing d.report r).1 with e | response
    · have hrefused := isException_answered_error message e
      rw [hresult] at hreplied
      cases hreplied
      exact absurd (hsuccess.symm.trans hrefused) Bool.false_ne_true
    · have hfits := fits_of_execute (d := { d with map := dmap }) hid hresult
      have hrelay := hrelays.model
      rw [hresult] at hrelay
      have hsame : served.map.model =
          (gmap.model.written g.pduAddressing r).recorded g.pduAddressing r response :=
        hrelay.trans (congrArg Prod.snd (DataModel.relay_of_confirm? (confirm?_padded hfits)))
      rw [hsame, hmodel]
      exact DataModel.sameOn_iff_keepsSame hid hreaches hresult

/-- A gateway and a device that hold different words: two of them are written and the one between
them and one of the two are read, in one request. -/
theorem sameOn_of_processAll_registers :
    let holding := fun words => ({ DataMap.empty with
      holdingRegisters := some ⟨1, words⟩ } : DataMap)
    let d := { ofId ⟨7⟩ with map := holding [1, 2, 3, 4] }
    let g := { ofId ⟨7⟩ with map := holding [5, 6, 7, 8] }
    let server := Server.ofTransport ⟨.attached .tcp true, .quiet "server"⟩ .standard
    let client := Client.ofTransport ⟨.attached .tcp true, .quiet "client"⟩ .standard false
    let p : Pair := ⟨client, { server with devices := [d], isOpen := true }, .direct, .direct⟩
    let message : Message := ⟨.tcp 9 ⟨7⟩, .request, [0x17, 0, 1, 0, 2, 0, 2, 0, 2, 4, 0, 9, 0, 8]⟩
    let r := Request.readWriteRegisters 1 2 2 [9, 8]
    let run := (g.process .inProcess .forward message).run (fun _ p => p) (forward 20 g.id) p
    (LeadsTo 20 g d p ∧ message.unit.isBroadcast = false ∧ message.request = .ok r ∧
        r ≠ .reportId ∧
        run.1.reply = some ⟨.tcp 9 ⟨7⟩, .response, [0x17, 4, 0, 2, 0, 9]⟩) ∧
      run.1.map.holdingRegisters = some ⟨1, [5, 2, 9, 8]⟩ ∧
      ∀ range ∈ r.ranges, ∃ d', run.2.server.device? g.id = some d' ∧
        run.1.map.model.SameOn false d'.map.model false range := by
  intro holding d g server client p message r run
  have hready : p.Ready 20 :=
    ⟨⟨⟨fun _ => rfl, .inr ⟨rfl, rfl⟩⟩, rfl⟩, ⟨⟨fun _ => rfl, .inr ⟨rfl, rfl⟩⟩, rfl⟩, rfl, rfl,
      Pipe.inTime_direct _ _, Pipe.inTime_direct _ _⟩
  have hleads : LeadsTo 20 g d p := ⟨hready, ⟨rfl, rfl⟩, rfl, ⟨rfl, rfl, rfl⟩, by decide⟩
  have hunit : message.unit.isBroadcast = false := rfl
  have hrequest : message.request = .ok r := by decide
  have hid : r ≠ .reportId := nofun
  have hreply : run.1.reply = some ⟨.tcp 9 ⟨7⟩, .response, [0x17, 4, 0, 2, 0, 9]⟩ := by
    decide +kernel
  have hmap : run.1.map.holdingRegisters = some ⟨1, [5, 2, 9, 8]⟩ := by decide +kernel
  have hnone : g.processAll .forward (forward 20 g.id) [] p = ([], g, p) := rfl
  obtain ⟨d₁, d₂, -, hfound, -, hsame⟩ := sameOn_of_processAll hleads hnone hunit
    (Prod.eta run).symm hreply rfl hrequest hid
  exact ⟨⟨hleads, hunit, hrequest, hid, hreply⟩, hmap,
    fun range hrange => ⟨d₂, hfound, hsame.mpr trivial range hrange⟩⟩

/-- Some bits of a word are replaced in a gateway and in a device that hold different words: the
gateway answers with success, and the words are still different. -/
theorem processAll_replaces_bits :
    let holding := fun words => ({ DataMap.empty with
      holdingRegisters := some ⟨1, words⟩ } : DataMap)
    let d := { ofId ⟨7⟩ with map := holding [0x56] }
    let g := { ofId ⟨7⟩ with map := holding [0x34] }
    let server := Server.ofTransport ⟨.attached .tcp true, .quiet "server"⟩ .standard
    let client := Client.ofTransport ⟨.attached .tcp true, .quiet "client"⟩ .standard false
    let p : Pair := ⟨client, { server with devices := [d], isOpen := true }, .direct, .direct⟩
    let message : Message := ⟨.tcp 9 ⟨7⟩, .request, [0x16, 0, 0, 0, 0xFF, 0x12, 0]⟩
    let run := (g.process .inProcess .forward message).run (fun _ p => p) (forward 20 g.id) p
    LeadsTo 20 g d p ∧ run.1.reply.map (·.pdu) = some message.pdu ∧
      run.1.map.holdingRegisters = some ⟨1, [0x1234]⟩ ∧
      (run.2.server.device? g.id).map (·.map.holdingRegisters) = some (some ⟨1, [0x1256]⟩) := by
  intro holding d g server client p message run
  have hready : p.Ready 20 :=
    ⟨⟨⟨fun _ => rfl, .inr ⟨rfl, rfl⟩⟩, rfl⟩, ⟨⟨fun _ => rfl, .inr ⟨rfl, rfl⟩⟩, rfl⟩, rfl, rfl,
      Pipe.inTime_direct _ _, Pipe.inTime_direct _ _⟩
  refine ⟨⟨hready, ⟨rfl, rfl⟩, rfl, ⟨rfl, rfl, rfl⟩, by decide⟩, ?_, ?_, ?_⟩ <;> decide +kernel

end Device

end Modbus
