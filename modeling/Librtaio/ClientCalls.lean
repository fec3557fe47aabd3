import Librtaio.ClientApi
import Librtaio.FieldsSize

/-!
# What the calls of a client do

One lemma for each of `send_packet`, `disconnect` and `connect`: how the call is
left, and the packet it hands to `write_some` with the part of it that is
written.
-/

namespace Librtaio

open Exec

/-! ### Names -/

theorem strlen_lt_iff (buffer : List UInt8) : strlen buffer < buffer.length ↔ 0 ∈ buffer := by
  induction buffer with
  | nil => simp [strlen]
  | cons b buffer ih =>
    by_cases hb : b = 0
    · simp [strlen, hb]
    · simp only [strlen, ne_eq, List.takeWhile_cons, hb, not_false_eq_true, decide_true, if_true,
        List.length_cons, List.mem_cons, Ne.symm hb, false_or] at ih ⊢
      rw [← ih]
      omega

theorem length_charArray {size : Nat} {text : List UInt8} (h : text.length ≤ size) :
    (charArray size text).length = size := by
  rw [charArray, List.length_append, List.length_replicate]
  omega

@[simp] theorem length_storeInto (buffer bs : List UInt8) :
    (storeInto buffer bs).length = buffer.length := by
  rw [storeInto, List.length_append, List.length_take, List.length_drop]
  omega

theorem gethostname_some (name buffer : List UInt8) :
    gethostname (some name) buffer = storeInto buffer (name ++ [0]) := rfl

theorem gethostname_none (buffer : List UInt8) : gethostname none buffer = buffer := rfl

theorem readlink_some (target buffer : List UInt8) :
    readlink (some target) buffer = storeInto buffer target := rfl

theorem readlink_none (buffer : List UInt8) : readlink none buffer = buffer := rfl

namespace Connecting

variable (env : Connecting)

theorem length_computer : env.computer.length = 1024 := by
  have hdefault : (charArray 1024 defaultComputer).length = 1024 := length_charArray (by decide)
  cases hname : env.hostname with
  | some name => rw [computer, hname, gethostname_some, length_storeInto, hdefault]
  | none => rw [computer, hname, gethostname_none, hdefault]

theorem length_process : env.process.length = 1024 := by
  have hdefault : (charArray 1024 defaultProcess).length = 1024 := length_charArray (by decide)
  cases hexe : env.exe with
  | some target => rw [process, hexe, readlink_some, length_storeInto, hdefault]
  | none => rw [process, hexe, readlink_none, hdefault]

end Connecting

/-! ### The packets -/

namespace MsgTable

/-- `MSG_DISCONNECT_FIELDS` has the shape. -/
def disconnectReq (now : Int) : MsgTable := ofBody now MSG_DISCONNECT 0 1 [] entries_nil

theorem fields_disconnectReq (now : Int) : (disconnectReq now).fields = msgDisconnectFields now := rfl

theorem size_disconnectReq (now : Int) : (disconnectReq now).size = 44 := rfl

theorem size_connectReq {now : Int} {clientname processname : List UInt8}
    (hclient : strlen clientname < clientname.length)
    (hprocess : strlen processname < processname.length) :
    (connectReq now clientname processname hclient hprocess).size =
      (strlen clientname + 1) + (strlen processname + 1) + 48 := by
  have hone {memory : List UInt8} :
      (⟨DataType.char.code, 0, 0, some memory, -1⟩ : Field).size 1
        (scalarField .short (strlen memory + 1)) = strlen memory + 1 := by
    rw [(⟨rfl, rfl⟩ : Field.IsArray _ .char memory).size_eq, Entry.prefixed_elements _ _ rfl]
    exact one_mul _
  have htwo (value : Int) (prev : Field) : (scalarField .short value).size 1 prev = 2 :=
    (isScalar_scalarField .short value).size_eq 1 prev
  have hsizes : (connectReq now clientname processname hclient hprocess).size =
      32 + (4 + ((scalarField .short (strlen clientname + 1)).size 1 (scalarField .long BODY_MARK.toInt) +
        ((⟨DataType.char.code, 0, 0, some clientname, -1⟩ : Field).size 1
            (scalarField .short (strlen clientname + 1)) +
          ((scalarField .short (strlen processname + 1)).size 1
              ⟨DataType.char.code, 0, 0, some clientname, -1⟩ +
            ((⟨DataType.char.code, 0, 0, some processname, -1⟩ : Field).size 1
              (scalarField .short (strlen processname + 1)) + 0)))) + 8) := rfl
  rw [hsizes, htwo, htwo, hone, hone]
  ring

end MsgTable

/-! ### What is written -/

/-- The part of a packet that goes out when it is written to a connection. -/
def WriteSome.part (packet : List UInt8) : WriteSome → List UInt8
  | .wrote n => packet.take n
  | .failed => []

theorem WriteSome.part_isPrefix (write : WriteSome) (packet : List UInt8) :
    write.part packet <+: packet := by
  cases write with
  | wrote n => exact List.take_prefix n packet
  | failed => exact List.nil_prefix

namespace Client

/-- The part of a packet that goes out: on a socket that is not connected, nothing. -/
def part (c : Client) (packet : List UInt8) (write : WriteSome) : List UInt8 :=
  if c.connected then write.part packet else []

theorem part_isPrefix (c : Client) (packet : List UInt8) (write : WriteSome) :
    c.part packet write <+: packet := by
  rw [part]
  split
  · exact write.part_isPrefix packet
  · exact List.nil_prefix

/-- The client after a part of a packet was written, if it has a connection. -/
def put (c : Client) (packet part : List UInt8) : Client :=
  if c.connected then
    { c with
      written := c.written ++ part
      attempts := c.attempts ++ [⟨packet, part⟩] }
  else c

theorem writeSome_run (c : Client) (packet : List UInt8) (write : WriteSome) :
    ∃ ec, writeSome packet write c =
        (.ok ((c.part packet write).length, ec), c.put packet (c.part packet write)) ∧
      (ec = true → c.part packet write = []) := by
  cases hconnected : c.connected with
  | false =>
    refine ⟨true, ?_, fun _ => by simp [part, hconnected]⟩
    simp [writeSome, part, put, hconnected]
  | true =>
    cases write with
    | wrote n =>
      refine ⟨false, ?_, fun h => by cases h⟩
      simp [writeSome, part, put, hconnected, WriteSome.part]
    | failed =>
      refine ⟨true, ?_, fun _ => by simp [part, WriteSome.part]⟩
      simp [writeSome, part, put, hconnected, WriteSome.part]

/-- **`send_packet`** returns 0 exactly if the whole packet was written. -/
theorem sendPacket_run (T : Target) (t : MsgTable) (hsize : t.size < 2 ^ 31) (c : Client)
    (write : WriteSome) :
    sendPacket T t.fields (fieldsLen t.fields) write c =
      (.ok (if c.part ((t.sent T).wire T) write = (t.sent T).wire T then ERR_OK
          else ERR_SEND_PACKET_ERROR),
        c.put ((t.sent T).wire T) (c.part ((t.sent T).wire T) write)) := by
  obtain ⟨ec, hrun, hec⟩ := c.writeSome_run ((t.sent T).wire T) write
  have hpart := c.part_isPrefix ((t.sent T).wire T) write
  have hlong : 0 < ((t.sent T).wire T).length := by
    have hheader := (t.sent T).length_headerWire T
    rw [MsgTable.wire, List.length_append]
    omega
  have hwhole : (c.part ((t.sent T).wire T) write).length < ((t.sent T).wire T).length ∨ ec = true ↔
      c.part ((t.sent T).wire T) write ≠ (t.sent T).wire T := by
    constructor
    · rintro (hlt | hfailed) heq
      · rw [heq] at hlt
        exact lt_irrefl _ hlt
      · rw [← heq, hec hfailed] at hlong
        exact lt_irrefl _ hlong
    · intro hne
      exact .inl (lt_of_le_of_ne hpart.length_le fun hlen => hne (hpart.eq_of_length hlen))
  have hencode := t.encodePacket_fields T hsize
  rw [← MsgTable.fieldsLen_fields] at hencode
  have hsend : sendPacket T t.fields (fieldsLen t.fields) write c =
      (writeSome ((t.sent T).wire T) write >>= fun r =>
        if r.1 < ((t.sent T).wire T).length ∨ r.2 = true then pure ERR_SEND_PACKET_ERROR
        else pure ERR_OK) c := by
    rw [sendPacket, hencode]
    rfl
  rw [hsend, bind_of_ok hrun]
  by_cases heq : c.part ((t.sent T).wire T) write = (t.sent T).wire T
  · rw [if_neg (fun h => hwhole.mp h heq), if_pos heq]
    rfl
  · rw [if_pos (hwhole.mpr heq), if_neg heq]
    rfl

theorem disconnect_run (T : Target) (now : Int) (write : WriteSome) (c : Client) :
    ∃ packet, packet = ((MsgTable.disconnectReq now).sent T).wire T ∧
      disconnect T now write c =
        (.ok (if c.part packet write = packet then 0 else ERR_SEND_PACKET_ERROR),
          c.put packet (c.part packet write)) := by
  refine ⟨_, rfl, ?_⟩
  have hsend := sendPacket_run T (MsgTable.disconnectReq now)
    (by rw [MsgTable.size_disconnectReq]; decide) c write
  rw [MsgTable.fields_disconnectReq] at hsend
  rw [disconnect, bind_of_ok hsend]
  by_cases hwhole : c.part (((MsgTable.disconnectReq now).sent T).wire T) write =
      ((MsgTable.disconnectReq now).sent T).wire T
  · rw [if_pos hwhole, if_pos hwhole, if_neg (by decide)]
    rfl
  · rw [if_neg hwhole, if_neg hwhole, if_pos (by decide)]
    rfl

theorem receiveResponse_run (T : Target) (clock : Nat → Int) (answer : Socket) (c : Client) :
    receiveResponse T clock answer c =
      ((recvPacket T (clock 2) 10 (.init answer (msgConnectRespFields (clock 1) 0 0))).1, c) := by
  have hlen : fieldsLen (msgConnectRespFields (clock 1) 0 0) = 10 := rfl
  simp only [receiveResponse, hlen]
  rcases (recvPacket T (clock 2) 10 (.init answer (msgConnectRespFields (clock 1) 0 0))).1
    with exit | code
  · rfl
  · rw [lift_ok_bind]
    split <;> rfl

/-- The names of a call of `connect` are strings, so that a request can be made of them. -/
structure Named (env : Connecting) : Prop where
  computer : strlen env.computer < env.computer.length
  process : strlen env.process < env.process.length

/-- The request a call of `connect` sends. -/
def request (env : Connecting) (h : Named env) : MsgTable :=
  .connectReq (env.clock 0) env.computer env.process h.computer h.process

theorem request_size_le (env : Connecting) (h : Named env) : (request env h).size ≤ 2096 := by
  have hcomputer := h.computer
  have hprocess := h.process
  rw [env.length_computer] at hcomputer
  rw [env.length_process] at hprocess
  rw [request, MsgTable.size_connectReq]
  omega

/-- A call of `write_some` with room for every request writes it whole. -/
theorem part_request (T : Target) (env : Connecting) (h : Named env) {n : Nat} (hn : 2096 ≤ n) :
    (WriteSome.wrote n).part (((request env h).sent T).wire T) = ((request env h).sent T).wire T := by
  have hsize := request_size_le env h
  have hlength := ((request env h).sent T).length_wire T
  rw [MsgTable.size_sent] at hlength
  exact List.take_of_length_le (by omega)

/-- What a call of `connect` does. -/
inductive Connects (T : Target) (env : Connecting) (c : Client) : Except Exit Int × Client → Prop where
  | thrown (hclosed : ¬ (c.opened = false ∧ env.opens = true)) :
      Connects T env c (.error .exception, c)
  | unreached (hopens : c.opened = false ∧ env.opens = true) (hreached : env.reached = false) :
      Connects T env c (.ok (-1), { c with opened := true, connected := false })
  | unnamed (hopens : c.opened = false ∧ env.opens = true) (hreached : env.reached = true)
      (hnamed : ¬ Named env) :
      Connects T env c (.error (.fault .outOfBounds), { c with opened := true, connected := true })
  | short (hopens : c.opened = false ∧ env.opens = true) (hreached : env.reached = true)
      (hnamed : Named env) (packet : List UInt8)
      (hpacket : packet = ((request env hnamed).sent T).wire T)
      (hshort : env.write.part packet ≠ packet) :
      Connects T env c (.ok ERR_SEND_PACKET_ERROR,
        { c with opened := true, connected := true }.put packet (env.write.part packet))
  | sent (hopens : c.opened = false ∧ env.opens = true) (hreached : env.reached = true)
      (hnamed : Named env) (packet : List UInt8)
      (hpacket : packet = ((request env hnamed).sent T).wire T)
      (hwhole : env.write.part packet = packet) :
      Connects T env c
        ((recvPacket T (env.clock 2) 10 (.init env.answer (msgConnectRespFields (env.clock 1) 0 0))).1,
        { c with opened := true, connected := true }.put packet packet)

theorem connect_run (T : Target) (env : Connecting) (c : Client) :
    Connects T env c (connect T env c) := by
  by_cases hopens : c.opened = false ∧ env.opens = true
  swap
  · have hopen : openSocket env.opens c = (.error .exception, c) := by
      rw [openSocket, if_pos]
      simp only [not_and_or, Bool.not_eq_false, Bool.not_eq_true] at hopens
      simpa using hopens
    rw [connect, bind_of_error hopen]
    exact .thrown hopens
  have hopen : openSocket env.opens c = (.ok (), { c with opened := true }) := by
    simp [openSocket, hopens.1, hopens.2]
  have hconnect : connectSocket env.reached { c with opened := true } =
      (.ok env.reached, { c with opened := true, connected := env.reached }) := rfl
  rw [connect, bind_of_ok hopen, bind_of_ok hconnect]
  cases hreached : env.reached with
  | false => exact .unreached hopens hreached
  | true =>
    simp only [Bool.not_true, Bool.false_eq_true, if_false]
    by_cases hcomputer : 0 ∈ env.computer
    swap
    · have hfault : terminated env.computer = .error .outOfBounds := if_neg hcomputer
      rw [hfault]
      refine .unnamed hopens hreached fun hnamed => ?_
      exact hcomputer ((strlen_lt_iff _).mp hnamed.computer)
    have hok : terminated env.computer = .ok () := if_pos hcomputer
    rw [hok, orFault_ok, lift_ok_bind]
    by_cases hprocess : 0 ∈ env.process
    swap
    · have hfault : terminated env.process = .error .outOfBounds := if_neg hprocess
      rw [hfault]
      refine .unnamed hopens hreached fun hnamed => ?_
      exact hprocess ((strlen_lt_iff _).mp hnamed.process)
    have hok' : terminated env.process = .ok () := if_pos hprocess
    rw [hok', orFault_ok, lift_ok_bind]
    have hnamed : Named env := ⟨(strlen_lt_iff _).mpr hcomputer, (strlen_lt_iff _).mpr hprocess⟩
    have hsize := request_size_le env hnamed
    have hsend := sendPacket_run T (request env hnamed) (by omega)
      { c with opened := true, connected := true } env.write
    have hpart (packet : List UInt8) :
        part { c with opened := true, connected := true } packet env.write = env.write.part packet :=
      rfl
    rw [hpart] at hsend
    have hfields : (request env hnamed).fields =
        msgConnectFields (env.clock 0) env.computer env.process := rfl
    rw [hfields] at hsend
    rw [bind_of_ok hsend]
    by_cases hwhole : env.write.part (((request env hnamed).sent T).wire T) =
        ((request env hnamed).sent T).wire T
    · rw [if_pos hwhole, if_neg (by decide), receiveResponse_run, hwhole]
      exact .sent hopens hreached hnamed _ rfl hwhole
    · rw [if_neg hwhole, if_pos (by decide)]
      exact .short hopens hreached hnamed _ rfl hwhole

end Client

end Librtaio
