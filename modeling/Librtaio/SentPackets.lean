import Librtaio.ClientCalls
import Librtaio.ClientReceive

/-!
# What the decoders find in a packet that was sent

The header's words are taken as an `int`, whatever the sender had, and the body
is read with the count the header brought. So the names of a connect request
arrive in the server's buffers, and its response is accepted on every host,
whatever the clocks say.
-/

namespace Librtaio

open Bytes Exec

namespace MsgTable

section Sent

variable {t : MsgTable} {s : InputStream} {tail : List UInt8} {hs : List Field}

/-- A word of the table the header of a packet was read into. -/
theorem fieldAt_sent (t : MsgTable) (T : Target) (hhs : IsHeader hs) {i : Nat} (hi : i < FIELD_HCRC)
    {p : Field} (hp : (t.sent T).head[i]? = some p) (rest : List Field) :
    ∃ q, fieldAt (scalarsRead hs headerTypes ((t.sent T).headerWire T) ++ rest) i = .ok q ∧
      q.ivalue = toInt32 p.ivalue := by
  obtain ⟨q, hq, hvalue⟩ := word_scalarsRead hhs ((t.sent T).headerWire T) rest hi
  have hword := (t.sent T).headerWord_headerWire T hi hp []
  rw [List.append_nil] at hword
  exact ⟨q, hq, hvalue.trans hword⟩

/-- The body decoder on the body of a packet, after its header was read into any table: every entry
is read from its own bytes. -/
theorem sent_body_decoded (T T' : Target) (compareCrc : Bool) (hfit : LengthsFit t.bmark t.body) (hcnt : toInt32 t.cnt = t.cnt)
    (hsize : t.size < 2 ^ 31) (dst : t.Dest) (hhs : IsHeader hs) (hgood : s.good = true)
    (hrest : s.rest = (t.sent T).bodyWire T ++ tail) :
    ∃ bmark bcrc, unserializeBodyPacket T' s
        (scalarsRead hs headerTypes ((t.sent T).headerWire T) ++ dst.tail) t.len compareCrc =
      .ok (ERR_OK, s.advance ((t.sent T).bodyWire T).length,
        scalarsRead hs headerTypes ((t.sent T).headerWire T) ++
          bmark :: (readsFrom T' t.cnt t.bmark t.body dst.body (wires T t.cnt t.bmark t.body) ++
            [bcrc, dst.terminator])) := by
  obtain ⟨count, hcount, hvalue⟩ := t.fieldAt_sent T hhs (i := FIELD_COUNT) (by decide) rfl []
  rw [List.append_nil] at hcount
  have hbody := sealed_body_decoded (t := t.setBsize t.bodySize) T T' compareCrc hfit hsize (dst.setBsize t.bodySize)
    (isScalar_scalarsRead hhs ((t.sent T).headerWire T)) hcount (hvalue.trans hcnt) hgood hrest
  have hmark : Entry t.cnt (t.sent T).hcrc t.bmark := (entries_cons.mp (t.sent T).covered_entries).1
  have hread : readsFrom T' t.cnt (t.sent T).hcrc (t.bmark :: t.body) (dst.bmark :: dst.body)
      (wires T t.cnt (t.sent T).hcrc (t.bmark :: t.body)) = _ :=
    readsFrom_wires_cons T T' hmark dst.bmark t.body dst.body
  exact ⟨_, _, hbody.trans (by rw [← List.cons_append, ← hread]; rfl)⟩

end Sent

end MsgTable

/-! ### Strings in buffers -/

/-- The string in a buffer. -/
def cString (buffer : List UInt8) : List UInt8 := buffer.takeWhile (· ≠ 0)

theorem length_cString (buffer : List UInt8) : (cString buffer).length = strlen buffer := rfl

/-- What `strlen` and the NUL after it take out of a buffer. -/
theorem take_strlen {buffer : List UInt8} (h : strlen buffer < buffer.length) :
    buffer.take (strlen buffer + 1) = cString buffer ++ [0] := by
  induction buffer with
  | nil => cases h
  | cons b buffer ih =>
    by_cases hb : b = 0
    · simp [strlen, cString, hb]
    · have hlen : strlen (b :: buffer) = strlen buffer + 1 := by simp [strlen, hb]
      have hstring : cString (b :: buffer) = b :: cString buffer := by simp [cString, hb]
      rw [hlen, List.length_cons] at h
      rw [hlen, hstring, List.take_succ_cons, ih (by omega), List.cons_append]

theorem cString_append {text : List UInt8} (h : 0 ∉ text) (rest : List UInt8) :
    cString (text ++ 0 :: rest) = text := by
  have hne : ∀ b ∈ text, decide (b ≠ 0) = true := by
    intro b hb
    simp only [ne_eq, decide_eq_true_eq]
    rintro rfl
    exact h hb
  rw [cString, List.takeWhile_append_of_pos hne]
  simp

/-- A string in a zeroed buffer. -/
theorem cString_charArray {text : List UInt8} (h : 0 ∉ text) {size : Nat} (hsize : text.length < size) :
    cString (charArray size text) = text := by
  obtain ⟨n, hn⟩ : ∃ n, size - text.length = n + 1 := ⟨size - text.length - 1, by omega⟩
  rw [charArray, hn, List.replicate_succ]
  exact cString_append h _

theorem zero_notMem_cString (buffer : List UInt8) : 0 ∉ cString buffer := by
  intro h
  have hall := List.all_takeWhile (p := fun b : UInt8 => decide (b ≠ 0)) (l := buffer)
  simpa using List.all_eq_true.mp hall 0 h

/-! ### Requests -/

/-- A client that sends its names from buffers of its own. -/
structure ConnectRequest where
  host : Target
  now : Int
  clientname : List UInt8
  processname : List UInt8
  client_terminated : strlen clientname < clientname.length
  process_terminated : strlen processname < processname.length
  client_short : strlen clientname ≤ 1023
  process_short : strlen processname ≤ 1023

/-- A client that disconnects. -/
structure DisconnectRequest where
  host : Target
  now : Int

namespace DisconnectRequest

def table (r : DisconnectRequest) : MsgTable := .disconnectReq r.now

def packet (r : DisconnectRequest) : List UInt8 := (r.table.sent r.host).wire r.host

/-- What `send_packet` encodes. -/
theorem encodePacket_eq (r : DisconnectRequest) :
    encodePacket r.host (msgDisconnectFields r.now) (fieldsLen (msgDisconnectFields r.now)) =
      .ok (ERR_OK, r.packet, (r.table.sent r.host).fields) :=
  r.table.encodePacket_fields r.host (by rw [table, MsgTable.size_disconnectReq]; decide)

end DisconnectRequest

namespace ConnectRequest

variable (r : ConnectRequest)

def table : MsgTable :=
  .connectReq r.now r.clientname r.processname r.client_terminated r.process_terminated

def packet : List UInt8 := (r.table.sent r.host).wire r.host

theorem marked : r.table.Marked := ⟨rfl, rfl⟩

theorem size_lt : r.table.size < 2 ^ 31 := by
  have hclient := r.client_short
  have hprocess := r.process_short
  rw [table, MsgTable.size_connectReq]
  omega

/-- What `send_packet` encodes. -/
theorem encodePacket_eq :
    encodePacket r.host (msgConnectFields r.now r.clientname r.processname)
        (fieldsLen (msgConnectFields r.now r.clientname r.processname)) =
      .ok (ERR_OK, r.packet, (r.table.sent r.host).fields) :=
  r.table.encodePacket_fields r.host r.size_lt

end ConnectRequest

namespace MsgTable

/-! ### The names of a connect request -/

/-- The entry of a name. -/
def nameField (memory : List UInt8) : Field := ⟨DataType.char.code, 0, 0, some memory, -1⟩

theorem nameField_isArray (memory : List UInt8) : (nameField memory).IsArray .char memory := ⟨rfl, rfl⟩

section Names

variable {T T' : Target}

/-- A name is read into a zeroed buffer, with its NUL. -/
theorem readFrom_name {memory : List UInt8} (h : strlen memory < memory.length)
    (hshort : strlen memory ≤ 1023) {len : Field} (hlen : len.ivalue = strlen memory + 1) :
    (nameField nameBuffer).readFrom T' ((nameField memory).elements 1 len).toNat
        ((nameField memory).wire T 1 len) =
      nameField (charArray 1024 (cString memory)) := by
  have helem : ((nameField memory).elements 1 len).toNat = strlen memory + 1 := by
    rw [Entry.prefixed_elements 1 len rfl, hlen]
    rfl
  have hbytes : (cString memory ++ [0]).length = strlen memory + 1 := by
    rw [List.length_append, length_cString]
    rfl
  have hwidth : DataType.char.width = 1 ∧ DataType.char.elemWidth = 1 := ⟨rfl, rfl⟩
  have hwire : (nameField memory).wire T 1 len = cString memory ++ [0] := by
    rw [(nameField_isArray memory).wire_eq, helem, hwidth.1, InputStream.flipWords_one _ _ _ h,
      take_strlen h]
  obtain ⟨n, hn⟩ : ∃ n, 1024 - strlen memory = n + 1 := ⟨1024 - strlen memory - 1, by omega⟩
  rw [(nameField_isArray nameBuffer).readFrom_eq, Field.arrayRead, hwire, helem, hwidth.2,
    InputStream.flipWords_one _ _ _ hbytes.ge, List.take_of_length_le hbytes.le, Nat.one_mul,
    nameBuffer, List.drop_replicate, charArray, length_cString, List.append_assoc,
    show 1024 - (strlen memory + 1) = n by omega, hn, List.replicate_succ]
  rfl

/-- And so are both names of a request, each after its length. -/
theorem readsFrom_names (T T' : Target) (r : ConnectRequest) (len₁ len₂ : Field) :
    ∃ r₁ r₂, readsFrom T' 1 r.table.bmark r.table.body
        [len₁, nameField nameBuffer, len₂, nameField nameBuffer]
        (wires T 1 r.table.bmark r.table.body) =
      [r₁, nameField (charArray 1024 (cString r.clientname)), r₂,
        nameField (charArray 1024 (cString r.processname))] := by
  have hbody : r.table.body = [scalarField .short (strlen r.clientname + 1), nameField r.clientname,
    scalarField .short (strlen r.processname + 1), nameField r.processname] := rfl
  have hentries : Entries 1 r.table.bmark r.table.body := r.table.entries
  rw [hbody] at hentries ⊢
  obtain ⟨h₁, hentries⟩ := entries_cons.mp hentries
  obtain ⟨h₂, hentries⟩ := entries_cons.mp hentries
  obtain ⟨h₃, hentries⟩ := entries_cons.mp hentries
  obtain ⟨h₄, -⟩ := entries_cons.mp hentries
  rw [readsFrom_wires_cons T T' h₁, readsFrom_wires_cons T T' h₂, readsFrom_wires_cons T T' h₃,
    readsFrom_wires_cons T T' h₄, readFrom_name r.client_terminated r.client_short rfl,
    readFrom_name r.process_terminated r.process_short rfl]
  exact ⟨_, _, rfl⟩

end Names

section Packets

variable {T : Target} {s : InputStream} {tail : List UInt8} {hs : List Field}

/-- The entries of a body behind its mark. -/
theorem getElem?_body (hhs : IsHeader hs) (bmark : Field) (body : List Field) (i : Nat) :
    (hs ++ bmark :: body)[FIELD_NEXT + i]? = body[i]? := by
  have hlength : hs.length = 7 := hhs.length_eq
  have hi : FIELD_NEXT + i - hs.length = i + 1 := by
    rw [hlength, FIELD_NEXT]
    omega
  rw [List.getElem?_append_right (by rw [hlength, FIELD_NEXT]; omega), hi, List.getElem?_cons_succ]

/-- **The names of a connect request** arrive in the server's buffers. -/
theorem connectRequest_decoded (r : ConnectRequest) (now : Int) (hhs : IsHeader hs)
    (hgood : s.good = true) (hrest : s.rest = (r.table.sent r.host).bodyWire r.host ++ tail) :
    ∃ s' fields, unserializeBodyPacket T s
        (scalarsRead hs headerTypes ((r.table.sent r.host).headerWire r.host) ++
          (msgConnectFields now nameBuffer nameBuffer).drop FIELD_BMARK)
        (fieldsLen (msgConnectFields now nameBuffer nameBuffer)) true = .ok (ERR_OK, s', fields) ∧
      dataAt fields 9 = charArray 1024 (cString r.clientname) ∧
      dataAt fields 11 = charArray 1024 (cString r.processname) := by
  have hclient := r.client_short
  have hprocess := r.process_short
  have hbuffer : nameBuffer.length = 1024 := List.length_replicate
  let dst : r.table.Dest := connectDest r.client_terminated r.process_terminated now nameBuffer
    nameBuffer (by omega) (by omega)
  obtain ⟨bmark, bcrc, hdecode⟩ := sent_body_decoded r.host T true (lengthsFit_of_inRange r.marked.bmark_inRange
      (connectReq_inRange r.client_terminated r.process_terminated r.now (by omega) (by omega)))
    rfl r.size_lt dst hhs hgood hrest
  obtain ⟨r₁, r₂, hnames⟩ := readsFrom_names r.host T r
    (scalarField .short (strlen nameBuffer + 1)) (scalarField .short (strlen nameBuffer + 1))
  have hread : readsFrom T r.table.cnt r.table.bmark r.table.body dst.body
      (wires r.host r.table.cnt r.table.bmark r.table.body) = _ := hnames
  have hhs' := isScalar_scalarsRead hhs ((r.table.sent r.host).headerWire r.host)
  rw [hread] at hdecode
  refine ⟨_, _, hdecode, ?_, ?_⟩
  · rw [dataAt, show 9 = FIELD_NEXT + 1 from rfl, getElem?_body hhs']
    rfl
  · rw [dataAt, show 11 = FIELD_NEXT + 3 from rfl, getElem?_body hhs']
    rfl

/-- A request to disconnect brings nothing but its marks and checksums. -/
theorem disconnectRequest_decoded (r : DisconnectRequest) (now : Int) (hhs : IsHeader hs)
    (hgood : s.good = true) (hrest : s.rest = (r.table.sent r.host).bodyWire r.host ++ tail) :
    ∃ s' fields, unserializeBodyPacket T s
        (scalarsRead hs headerTypes ((r.table.sent r.host).headerWire r.host) ++
          (msgDisconnectFields now).drop FIELD_BMARK)
        (fieldsLen (msgDisconnectFields now)) true = .ok (ERR_OK, s', fields) := by
  let dst : r.table.Dest := .ofBody now MSG_DISCONNECT 0 1 [] .nil
  obtain ⟨bmark, bcrc, hdecode⟩ := sent_body_decoded (t := r.table) r.host T true (.singleton _) rfl
    (by rw [DisconnectRequest.table, size_disconnectReq]; decide) dst hhs hgood hrest
  exact ⟨_, _, hdecode⟩

end Packets

/-! ### The response -/

/-- The value of an entry. -/
def valueAt (fields : List Field) (i : Nat) : Option Int := fields[i]?.map (·.ivalue)

/-- On every host, the decoders take a packet for the response that grants a connection. -/
def Grants (packet : List UInt8) : Prop :=
  ∀ (T : Target) (now retcode priv : Int) (compareCrc : Bool), ∃ s₁ header s₂ fields,
    unserializeHeaderPacket T (.ofBuffer (packet.take 32) 32) (msgConnectRespFields now retcode priv)
      compareCrc = .ok (ERR_OK, s₁, header) ∧
    unserializeBodyPacket T (.ofBuffer (packet.drop 32) (packet.length - 32)) header
      (fieldsLen (msgConnectRespFields now retcode priv)) compareCrc = .ok (ERR_OK, s₂, fields) ∧
    valueAt fields FIELD_METHOD = some MSG_CONNECT ∧ valueAt fields FIELD_RETURN = some ERR_OK ∧
    valueAt fields FIELD_NEXT = some 1

theorem valueAt_of_fieldAt {fields : List Field} {i : Nat} {p : Field} (h : fieldAt fields i = .ok p) :
    valueAt fields i = some p.ivalue := by
  unfold fieldAt at h
  rw [valueAt]
  cases hp : fields[i]? with
  | none => rw [hp] at h; cases h
  | some q =>
    rw [hp] at h
    cases h
    rfl

/-- **The response of the server** grants the connection. -/
theorem connectResp_grants (now : Int) (T : Target) :
    Grants (((connectResp now ERR_OK 1).sent T).wire T) := by
  intro T' now' retcode priv compareCrc
  set t := connectResp now ERR_OK 1 with ht
  have hmarked : t.Marked := ⟨rfl, rfl⟩
  have hheader := (t.sent T).length_headerWire T
  have htake : ((t.sent T).wire T).take 32 = (t.sent T).headerWire T := List.take_left' hheader
  have hdrop : ((t.sent T).wire T).drop 32 = (t.sent T).bodyWire T := List.drop_left' hheader
  have hsplit : ((t.sent T).wire T).length - 32 = ((t.sent T).bodyWire T).length := by
    rw [← hdrop, List.length_drop]
  have hslot : Along (Slot t.cnt) t.bmark t.body [scalarField .short priv] :=
    .cons (slot_scalarField _ _ _) .nil
  let dst : t.Dest := .ofBody now' MSG_CONNECT retcode 1 [scalarField .short priv] hslot
  have hhs := isHeader_msgHeader now' MSG_CONNECT retcode 1
  have hrest : (InputStream.ofBuffer ((t.sent T).headerWire T) 32).rest = (t.sent T).headerWire T :=
    List.take_of_length_le hheader.le
  have hread₁ : unserializeHeaderPacket T' (.ofBuffer ((t.sent T).headerWire T) 32)
      (msgConnectRespFields now' retcode priv) compareCrc = _ :=
    (hmarked.setBsize t.bodySize).header_decoded hhs dst.tail rfl rfl
      (hrest.trans (List.append_nil _).symm)
  rw [hrest] at hread₁
  have hfit : LengthsFit t.bmark t.body := by
    refine lengthsFit_cons.mpr ⟨?_, by simp [LengthsFit]⟩
    exact fun hprefixed => absurd rfl hprefixed.1
  have hrest₂ : (InputStream.ofBuffer ((t.sent T).bodyWire T) ((t.sent T).bodyWire T).length).rest =
      (t.sent T).bodyWire T ++ [] := List.take_length.trans (List.append_nil _).symm
  obtain ⟨bmark, bcrc, hread₂⟩ := sent_body_decoded T T' compareCrc hfit rfl
    (by rw [ht, size_connectResp]; decide) dst hhs rfl hrest₂
  rw [htake, hdrop, hsplit]
  refine ⟨_, _, _, _, hread₁, hread₂, ?_, ?_, ?_⟩
  · obtain ⟨p, hp, hvalue⟩ := t.fieldAt_sent T hhs (i := FIELD_METHOD) (by decide) rfl _
    rw [valueAt_of_fieldAt hp, hvalue]
    rfl
  · obtain ⟨p, hp, hvalue⟩ := t.fieldAt_sent T hhs (i := FIELD_RETURN) (by decide) rfl _
    rw [valueAt_of_fieldAt hp, hvalue]
    rfl
  · have hentry : Entry t.cnt t.bmark (scalarField .short 1) := (entries_cons.mp t.entries).1
    have hin : (scalarField .short 1).InRange :=
      inRange_scalarField (by decide) (by decide) (by decide) (by decide)
    have hslot₁ : Slot t.cnt t.bmark (scalarField .short 1) (scalarField .short priv) :=
      slot_scalarField .short 1 priv
    have hsame : SameValue T T' t.cnt t.bmark (scalarField .short 1) _ :=
      sameValue_readFrom hentry hin hslot₁
    have hread : readsFrom T' t.cnt t.bmark t.body dst.body (wires T t.cnt t.bmark t.body) = _ :=
      readsFrom_wires_cons T T' hentry (scalarField .short priv) [] []
    rw [hread, valueAt, show FIELD_NEXT = FIELD_NEXT + 0 from rfl,
      getElem?_body (isScalar_scalarsRead hhs _)]
    exact congrArg some (hsame.scalar rfl).2

end MsgTable

end Librtaio
