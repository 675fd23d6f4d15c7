import Modbus.Proofs.Client.Broadcast
import Modbus.Proofs.Server.Safety
import Modbus.Proofs.Server.Serve

/-! Broadcasts on a serial line. A write to all units of a line is done by each device of a server
as if it were alone, and nobody answers; another request to all units is passed over. -/

namespace Modbus

/-! ### Devices alone -/

namespace Device

variable {d : Device} {r : Request}

/-- A device that refuses a write leaves its map as it is. -/
theorem alone_of_error (hwrite : r.isWrite = true) (hsize : r.size ≤ 253) {e : ExceptionCode}
    (h : (d.alone r).1 = .error e) : (d.alone r).2 = d.map := by
  obtain ⟨response, hecho⟩ := Request.exists_echo hwrite hsize
  have hfinish : ∀ map, d.finish map r none = .ok (response, map) := by
    intro map
    cases r <;> try cases hwrite
    all_goals
      simp only [finish, hecho]
      rfl
  have hid : r ≠ .reportId := by
    rintro rfl
    cases hwrite
  rw [alone, execute] at h ⊢
  split
  · rfl
  · rename_i hcheck
    rw [hcheck] at h
    dsimp only at h ⊢
    rw [if_neg hid, if_neg (by decide)] at h ⊢
    split
    · rfl
    · rename_i map hprepare
      rw [hprepare] at h
      dsimp only at h
      rw [if_neg (by decide)] at h
      simp only [Plan.result, conclude, hfinish] at h
      cases h

/-- A device does what a broadcast asks for with its own map, and whatever it answers is for
nobody. -/
theorem process_of_isBroadcast (hd : d.IsPlain) {message : Message}
    (hunit : message.unit.isBroadcast = true) (hread : message.request = .ok r) (peer : Peer)
    (route : Route) :
    ∃ reply, d.process peer route message = .done ⟨reply, (d.alone r).2, []⟩ := by
  have hmessage : d.executeMessage d.map route message = .done (d.alone r) := by
    rw [executeMessage, hread, hunit]
    exact execute_eq_done_alone d r
  rw [process_of_isPlain hd, hmessage]
  exact ⟨_, rfl⟩

end Device

/-- The link `l'` comes from `l` by listening: a peer may have been waited for and bytes may have
been read, but nothing has been done or sent besides. -/
structure Link.Listens (l l' : Link) : Prop where
  framing : l'.framing = l.framing
  isConnected : l'.isConnected = true
  record : ∃ actions ⊆ [Action.connecting],
    l'.journal.entries = l.journal.entries ++ actions.map (.did l.transport.wire.name)

theorem Link.sameEntries_receive (timeout byteTimeout : Nat) :
    Within (fun l l' : Link => l'.journal.entries = l.journal.entries)
      (Link.receive timeout byteTimeout) := by
  intro l
  rcases hc : l.channel with _ | c
  · rw [after, Link.receive, hc]
  · rw [Link.after_receive hc]
    rfl

namespace Server

variable {s s' : Server} {d : Device} {peer : Peer} {message : Message} {r : Request}
  {timeout : Nat}

/-! ### Units of a server -/

/-- No two devices of a server have the same identifier. -/
def HasDistinctUnits (s : Server) : Prop := (s.devices.map (·.id)).Nodup

theorem perm_insertDevice (d : Device) (devices : List Device) :
    (insertDevice d devices).Perm (d :: devices) := by
  induction devices with
  | nil => exact .refl _
  | cons e rest ih =>
    rw [insertDevice]
    split
    · exact .refl _
    · exact (ih.cons e).trans (.swap d e rest)

theorem hasDistinctUnits_of_addDevice (hs : s.HasDistinctUnits) (h : s.addDevice d = .ok s') :
    s'.HasDistinctUnits := by
  rw [addDevice] at h
  split at h
  · cases h
  · split at h
    · cases h
    · rename_i hfree
      cases h
      have hnew : d.id ∉ s.devices.map (·.id) := by
        intro hmem
        obtain ⟨e, he, hid⟩ := List.mem_map.mp hmem
        refine hfree (List.find?_isSome.mpr ⟨e, he, ?_⟩)
        exact decide_eq_true hid
      have hperm := (perm_insertDevice d s.devices).map (·.id)
      rw [HasDistinctUnits, hperm.nodup_iff]
      exact List.nodup_cons.mpr ⟨hnew, hs⟩

/-- The identifiers of the devices are the same. -/
def SameUnits (s s' : Server) : Prop := s'.devices.map (·.id) = s.devices.map (·.id)

instance : IsPreorder Server SameUnits where
  refl _ := rfl
  trans _ _ _ h h' := Eq.trans h' h

theorem sameUnits_putDevice (s : Server) (d : Device) : SameUnits s (s.putDevice d) := by
  rw [SameUnits, putDevice, List.map_map]
  refine List.map_congr_left fun e _ => ?_
  by_cases he : e.id = d.id
  · rw [Function.comp_apply, if_pos he, he]
  · rw [Function.comp_apply, if_neg he]

theorem spans_sameUnits : Spans SameUnits := by
  have hlink : ∀ {α : Type} (work : LinkM α), Within SameUnits (onLink work) := by
    intro α work s
    rw [after_onLink]
    rfl
  refine ⟨hlink _, fun _ => hlink _, fun _ => hlink _, fun _ _ => hlink _, fun _ _ => hlink _,
    fun _ => hlink _, fun s peer message => ?_⟩
  refine related_dispatch (P := fun _ => True) (fun _ id unit request s _ _ => ?_) (fun _ _ => rfl)
    (fun s d map _ => sameUnits_putDevice s { d with map }) (fun _ _ => trivial) peer message
  rw [forward]
  split
  · rfl
  · dsimp only
    split <;> rfl

/-- Polling a server registers no devices and removes none. -/
theorem hasDistinctUnits_after_poll (hs : s.HasDistinctUnits) (timeout : Nat) :
    (after (poll timeout) s).HasDistinctUnits := by
  have hsame : SameUnits s (after (poll timeout) s) := within_poll spans_sameUnits timeout s
  rw [HasDistinctUnits, hsame]
  exact hs

/-! ### All devices at once -/

/-- Putting devices in the place of those with their identifiers, one after the other, puts all of
them in place, in whatever order they stand. -/
theorem foldl_putDevice {f : Device → Device} (hf : ∀ d, (f d).id = d.id) (devices : List Device) :
    ∀ (earlier : List Device) (s : Server), s.devices = earlier ++ devices → s.HasDistinctUnits →
      devices.foldl (fun s d => s.putDevice (f d)) s =
        { s with devices := earlier ++ devices.map f } := by
  induction devices with
  | nil =>
    intro earlier s hdevices _
    rw [List.foldl_nil, List.map_nil, ← hdevices]
  | cons d rest ih =>
    intro earlier s hdevices hdistinct
    have hput : (s.putDevice (f d)).devices = (earlier ++ [f d]) ++ rest := by
      rw [HasDistinctUnits, hdevices, List.map_append, List.map_cons] at hdistinct
      obtain ⟨-, hrest, hearlier⟩ := List.nodup_append.mp hdistinct
      have hothers : ∀ devices : List Device, (∀ e ∈ devices, e.id ≠ d.id) →
          devices.map (fun e => if e.id = (f d).id then f d else e) = devices := by
        intro devices hne
        refine (List.map_congr_left fun e he => ?_).trans (List.map_id devices)
        rw [hf, if_neg (hne e he)]
        rfl
      have hne : ∀ e ∈ earlier, e.id ≠ d.id :=
        fun e he => hearlier _ (List.mem_map_of_mem he) _ List.mem_cons_self
      have hne' : ∀ e ∈ rest, e.id ≠ d.id :=
        fun e he hid => (List.nodup_cons.mp hrest).1 (hid ▸ List.mem_map_of_mem he)
      rw [putDevice, hdevices, List.map_append, List.map_cons, if_pos (hf d).symm,
        hothers earlier hne, hothers rest hne', List.append_assoc]
      rfl
    have hdistinct' : (s.putDevice (f d)).HasDistinctUnits := by
      rw [HasDistinctUnits, sameUnits_putDevice]
      exact hdistinct
    rw [List.foldl_cons, ih _ _ hput hdistinct', List.append_assoc]
    rfl

/-- A broadcast is executed by each device as if it were alone. -/
theorem broadcast_eq (hplain : ∀ d ∈ s.devices, d.IsPlain) (hdistinct : s.HasDistinctUnits)
    (hunit : message.unit.isBroadcast = true) (hread : message.request = .ok r) (peer : Peer) :
    s.broadcast peer message =
      { s with devices := s.devices.map fun d => { d with map := (d.alone r).2 } } := by
  have hserve : ∀ (d : Device) (s : Server), d.IsPlain →
      (s.serve peer d message).2 = s.putDevice { d with map := (d.alone r).2 } := by
    intro d s hd
    obtain ⟨reply, hprocess⟩ := Device.process_of_isBroadcast hd hunit hread peer (s.route d)
    rw [serve_of_process hprocess]
  have hfold : ∀ (devices : List Device) (s : Server), (∀ d ∈ devices, d.IsPlain) →
      devices.foldl (fun s d => (s.serve peer d message).2) s =
        devices.foldl (fun s d => s.putDevice { d with map := (d.alone r).2 }) s := by
    intro devices
    induction devices with
    | nil => exact fun _ _ => rfl
    | cons d rest ih =>
      intro s hd
      obtain ⟨hfirst, hrest⟩ := List.forall_mem_cons.mp hd
      rw [List.foldl_cons, List.foldl_cons, hserve d s hfirst, ih _ hrest]
  rw [broadcast, hfold _ s hplain]
  exact foldl_putDevice (f := fun d => { d with map := (d.alone r).2 }) (fun _ => rfl) s.devices []
    s rfl hdistinct

/-! ### Polls -/

/-- What a serial server does about a message to all units: a write is done by every device as if it
were alone, and anything else is passed over. -/
theorem dispatch_of_isBroadcast (hrtu : s.framing = .rtu) (hplain : ∀ d ∈ s.devices, d.IsPlain)
    (hdistinct : s.HasDistinctUnits) (hunit : message.unit.isBroadcast = true) (peer : Peer) :
    s.dispatch peer message =
      match message.request with
      | .ok r =>
        if r.isWrite then
          (.noReply, { s with devices := s.devices.map fun d => { d with map := (d.alone r).2 } })
        else (.discarded, s)
      | .error _ => (.discarded, s) := by
  rcases hread : message.request with fault | r
  · rw [dispatch]
    simp only [hrtu, hunit, hread, and_self, if_true, ite_self]
  · have hexception := message.isException_of_request hread
    rw [dispatch, hexception, if_neg Bool.false_ne_true]
    simp only [hrtu, hunit, hread, and_self, if_true, broadcast_eq hplain hdistinct hunit hread]

/-- Taking a request from the stream is listening. -/
theorem listens_of_taken? (h : s.taken? timeout = some message) :
    ∃ l, Link.receive timeout s.settings.byteTimeout s.link = .ok message l ∧
      s.link.Listens l := by
  rw [taken?] at h
  split at h
  · rcases hreceive : Link.receive timeout s.settings.byteTimeout s.link with ⟨m, l⟩ | ⟨e, l⟩ <;>
      rw [hreceive] at h <;> cases h
    have hkeeps : s.link.Keeps .request l := (Link.keeping_receive timeout _).of_ok hreceive
    have hentries : l.journal.entries = s.link.journal.entries :=
      (Link.sameEntries_receive timeout _).of_ok hreceive
    exact ⟨l, rfl, hkeeps.framing, Link.isConnected_of_receive hreceive, [], List.nil_subset _,
      hentries.trans (List.append_nil _).symm⟩
  · cases h

/-- A poll that is asked something hands it to the devices, after it has done nothing but listen. -/
theorem poll_of_asked? (hopen : s.isOpen = true) (h : s.asked? timeout = some message) :
    ∃ l, s.link.Listens l ∧ poll timeout s = handle message { s with link := l } := by
  rw [asked?] at h
  split at h
  · rename_i hconnected
    obtain ⟨l, hreceive, hlistens⟩ := listens_of_taken? h
    exact ⟨l, hlistens, by
      rw [poll_of_isConnected hopen hconnected, pollStream_of_receive hreceive]⟩
  · rename_i hconnected
    have hnot : s.link.isConnected = false := Bool.eq_false_iff.mpr hconnected
    split at h
    · rename_i s₁ haccept
      obtain ⟨l, hreceive, hlistens⟩ := listens_of_taken? h
      have hpoll : poll timeout s = handle message { s₁ with link := l } := by
        rw [poll_eq_pollStream hopen hnot haccept, pollStream_of_receive hreceive]
      rw [accept, run_get_bind, onLink] at haccept
      split at haccept <;> cases haccept
      rename_i l₁ hconnect
      have htries : s.link.Tries [.connecting] l₁ :=
        (Link.trying_connect List.mem_cons_self _ _ _).of_ok hconnect
      have hkeeps : s.link.Keeps .request l₁ := (Link.keeping_connect _ _).of_ok hconnect
      obtain ⟨actions, hactions, hrecord⟩ := htries.record
      obtain ⟨actions', hactions', hrecord'⟩ := hlistens.record
      refine ⟨l, ⟨hlistens.framing.trans hkeeps.framing, hlistens.isConnected,
        actions ++ actions', List.append_subset.mpr ⟨hactions, hactions'⟩, ?_⟩, hpoll⟩
      rw [hrecord', hrecord, htries.name, List.map_append, List.append_assoc]
    · cases h

/-- A message to all units that a serial server receives is handled by one poll, if it is a write,
and discarded otherwise. Every device has done the write as if it were alone, and besides the poll
has only listened. -/
theorem poll_of_isBroadcast (hopen : s.isOpen = true) (hrtu : s.framing = .rtu)
    (hplain : ∀ d ∈ s.devices, d.IsPlain) (hdistinct : s.HasDistinctUnits)
    (hasked : s.asked? timeout = some message) (hunit : message.unit.isBroadcast = true) :
    ∃ l, s.link.Listens l ∧ poll timeout s =
      match message.request with
      | .ok r =>
        if r.isWrite then
          .ok .handled { s with
            link := l, devices := s.devices.map fun d => { d with map := (d.alone r).2 } }
        else .ok .discarded { s with link := l }
      | .error _ => .ok .discarded { s with link := l } := by
  obtain ⟨l, hlistens, hpoll⟩ := poll_of_asked? hopen hasked
  refine ⟨l, hlistens, ?_⟩
  obtain ⟨c, hchannel⟩ := Option.isSome_iff_exists.mp hlistens.isConnected
  have hpeer : ({ s with link := l } : Server).peer? = some c.peer := by
    rw [peer?, hchannel, Option.map_some]
  have hdispatch := dispatch_of_isBroadcast (s := { s with link := l })
    (hlistens.framing.trans hrtu) hplain hdistinct hunit c.peer
  rw [hpoll, handle, run_get_bind, hpeer]
  rcases hread : message.request with fault | r <;> rw [hread] at hdispatch <;>
    dsimp only at hdispatch ⊢
  · rw [hdispatch]
    rfl
  · by_cases hwrite : r.isWrite = true
    · rw [if_pos hwrite] at hdispatch ⊢
      rw [hdispatch]
      rfl
    · rw [if_neg hwrite] at hdispatch ⊢
      rw [hdispatch]
      rfl

end Server

/-- Broadcasts at both ends of a serial line. A server does a write to all units on each of its
devices, as that device alone would do it, and answers nothing; every other message to all units is
passed over. A client sends the frame of a write that fits and confirms it itself, unless the
transport fails, and refuses every request other than a write before it does anything else. A write
that does not fit it refuses as well, but only after it has connected, and as if the transport had
failed. -/
theorem broadcasts_on_serial_line (s : Server) (c : Client) :
    (s.isOpen = true → s.framing = .rtu → (∀ d ∈ s.devices, d.IsPlain) → s.HasDistinctUnits →
      ∀ timeout message, s.asked? timeout = some message → message.unit.isBroadcast = true →
      (∃ l, s.link.Listens l ∧ Server.poll timeout s =
        match message.request with
        | .ok r =>
          if r.isWrite then
            .ok .handled { s with
              link := l, devices := s.devices.map fun d => { d with map := (d.alone r).2 } }
          else .ok .discarded { s with link := l }
        | .error _ => .ok .discarded { s with link := l }) ∧
      ∀ r, message.request = .ok r → r.isWrite = true → ∀ d ∈ s.devices, ∀ e,
        (d.alone r).1 = .error e → (d.alone r).2 = d.map) ∧
    (c.link.framing = .rtu → ∀ (unit : UnitId) (request : Request), unit.isBroadcast = true →
      if request.isWrite then
        if request.size ≤ 253 then Client.Broadcasts unit request c
        else Client.Outgrows unit request c
      else ∃ e, Client.call unit request c = .error (.config e) c) := by
  refine ⟨fun hopen hrtu hplain hdistinct timeout message hasked hunit => ⟨?_, ?_⟩,
    fun hrtu unit request hunit => ?_⟩
  · exact Server.poll_of_isBroadcast hopen hrtu hplain hdistinct hasked hunit
  · intro r hread hwrite d _ e hrefused
    exact Device.alone_of_error hwrite (Request.size_of_ofPdu hread) hrefused
  · split
    · rename_i hwrite
      split
      · rename_i hsize
        exact Client.broadcasts_call hrtu hunit hwrite hsize
      · rename_i hsize
        exact Client.outgrows_call hwrite hsize
    · rename_i hwrite
      exact Client.call_of_not_isWrite hrtu hunit (Bool.eq_false_iff.mpr hwrite)

/-- Of two devices that hear the write of a register, one has the register and forwards to a client,
and the other one does not have it. -/
theorem broadcasts_on_serial_line_register :
    let g := { (Device.ofId ⟨7⟩).declare .holdingRegister 1 1 with forwardsTo := some 0 }
    let d := (Device.ofId ⟨9⟩).declare .coil 1 1
    let message : Message := ((Header.rtu ⟨0⟩).frame .request [0x06, 0, 0, 0, 5])
    let wire := { Wire.quiet "server" with
      arrivals := [.bytes message.adu], meetings := [.peer .inProcess] }
    let s := { Server.ofTransport ⟨.hooked .rtu true 0, wire⟩ .standard with
      devices := [g, d], isOpen := true }
    let c := Client.ofTransport ⟨.hooked .rtu false 0, .quiet "client"⟩ .standard true
    (s.isOpen = true ∧ s.framing = .rtu ∧ (∀ d ∈ s.devices, d.IsPlain) ∧ s.HasDistinctUnits ∧
      s.asked? 100 = some message ∧ message.unit.isBroadcast = true) ∧
      (∃ s', Server.poll 100 s = .ok .handled s' ∧
        s'.devices.map (·.map.model.holdingRegisters.cells 1 1) = [[5], []]) ∧
      ∃ answer c', Client.call ⟨0⟩ (.writeSingleRegister 0 5) c = .ok answer c' ∧
        c.link.Speaks [message.adu] c'.link := by
  intro g d message wire s c
  have hplain : ∀ e ∈ s.devices, e.IsPlain := by
    intro e he
    obtain rfl | rfl : e = g ∨ e = d := by simpa [s] using he
    · exact ⟨rfl, rfl⟩
    · exact ⟨rfl, rfl⟩
  have hdistinct : s.HasDistinctUnits := by
    rw [Server.HasDistinctUnits]
    decide
  have hasked : s.asked? 100 = some message := by decide +kernel
  obtain ⟨hserver, hclient⟩ := broadcasts_on_serial_line s c
  replace hserver := (hserver rfl rfl hplain hdistinct 100 message hasked rfl).1
  replace hclient := hclient rfl ⟨0⟩ (.writeSingleRegister 0 5) rfl
  have hwrite : (Request.writeSingleRegister 0 5).isWrite = true := rfl
  refine ⟨⟨rfl, rfl, hplain, hdistinct, hasked, rfl⟩, ?_, ?_⟩
  · obtain ⟨l, -, hpoll⟩ := hserver
    have hcells : [g, d].map (fun d =>
        (d.alone (.writeSingleRegister 0 5)).2.model.holdingRegisters.cells 1 1) = [[5], []] := by
      decide +kernel
    exact ⟨_, hpoll, hcells⟩
  · have hsize : (Request.writeSingleRegister 0 5).size ≤ 253 := by decide
    rw [if_pos hwrite, if_pos hsize] at hclient
    obtain ⟨answer, c', hcall⟩ := hclient.succeeds ⟨fun _ => rfl, .inr ⟨_, rfl⟩⟩
    refine ⟨answer, c', hcall, ?_⟩
    have hspoken := hclient.spoken
    rw [hcall] at hspoken
    exact hspoken

end Modbus
