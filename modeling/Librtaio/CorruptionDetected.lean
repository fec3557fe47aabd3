import Librtaio.Crc32Burst
import Librtaio.RoundTrip

/-!
# Corruption the checksums detect

A burst of at most four bytes within the bytes a checksum covers, or within the
four bytes that hold it, is never accepted. The encoder and the decoder take the
checksum over the same range although each finds it from its own stream's
positions: the decoder reads exactly what the encoder moved, as long as the
lengths of the arrays are the sender's (`body_decoded`).
-/

namespace Librtaio

open Bytes Crc32

/-! ### Bursts in a checked block -/

/-- A corruption of at most four consecutive bytes of the first `n`. -/
structure CoveredBurst (n : Nat) (w w' : List UInt8) : Prop where
  changed : w' ≠ w
  burst : ∃ i, i + 4 ≤ n ∧ Burst i w w'

/-- A corruption of the four bytes behind the first `n`. -/
structure StoredBurst (n : Nat) (w w' : List UInt8) : Prop where
  changed : w' ≠ w
  burst : Burst n w w'

/-- A block of `n` bytes, their checksum as a big-endian LONGLONG behind them: its low half
is what is compared. -/
def Checked (n : Nat) (w : List UInt8) : Prop :=
  crc32 (w.take n) = BitVec.ofNat 32 (ofBeBytes ((w.drop n).take 8))

section Blocks

variable {n : Nat} {w w' : List UInt8}

theorem CoveredBurst.not_checked (h : CoveredBurst n w w') (hw : Checked n w) :
    ¬ Checked n w' := by
  intro hw'
  obtain ⟨i, hi, hburst⟩ := h.burst
  have hafter := hburst.drop_eq hi
  have hcrc : crc32 (w'.take n) = crc32 (w.take n) := by
    rw [Checked, hafter] at hw'
    exact hw'.trans hw.symm
  have hcovered := crc32_burst (hburst.take n) hcrc
  apply h.changed
  rw [← List.take_append_drop n w', ← List.take_append_drop n w, hcovered, hafter]

/-- The low half of a LONGLONG is its last four bytes. -/
theorem drop_of_low {bs cs : List UInt8} (hbs : bs.length = 8) (hcs : cs.length = 8)
    (h : BitVec.ofNat 32 (ofBeBytes bs) = BitVec.ofNat 32 (ofBeBytes cs)) :
    bs.drop 4 = cs.drop 4 := by
  have low {ds : List UInt8} (hds : ds.length = 8) :
      (BitVec.ofNat 32 (ofBeBytes ds)).toNat = ofBeBytes (ds.drop 4) := by
    have hsplit := ofBeBytes_append_mod (ds.take 4) (ds.drop 4)
    rw [List.take_append_drop, List.length_drop, hds] at hsplit
    rw [BitVec.toNat_ofNat, ← hsplit]
    rfl
  have hnat := congrArg BitVec.toNat h
  rw [low hbs, low hcs] at hnat
  exact (ofBeBytes_inj (by rw [List.length_drop, List.length_drop, hbs, hcs])).mp hnat

theorem StoredBurst.not_checked (h : StoredBurst (n + 4) w w') (hlen : w.length = n + 8)
    (hw : Checked n w) : ¬ Checked n w' := by
  intro hw'
  have hlen' := h.burst.length
  have hfront := h.burst.take_eq (le_refl (n + 4))
  have hstored : ((w'.drop n).take 8).drop 4 = ((w.drop n).take 8).drop 4 := by
    refine drop_of_low ?_ ?_ ?_
    · rw [List.length_take, List.length_drop]
      omega
    · rw [List.length_take, List.length_drop]
      omega
    · rw [Checked] at hw hw'
      rw [← hw, ← hw', h.burst.take_eq (show n ≤ n + 4 by omega)]
  have hback : w'.drop (n + 4) = w.drop (n + 4) := by
    rwa [List.take_of_length_le (by rw [List.length_drop]; omega),
      List.take_of_length_le (by rw [List.length_drop]; omega), List.drop_drop,
      List.drop_drop] at hstored
  apply h.changed
  rw [← List.take_append_drop (n + 4) w', ← List.take_append_drop (n + 4) w, hfront, hback]

end Blocks

/-! ### Packets -/

namespace PacketTable

variable {t : PacketTable} (T : Target)

/-- Both checksums of a packet are in place. -/
theorem checked_headerWire : Checked 24 ((t.sealed T).headerWire T) := by
  have himage := t.length_headerImage T
  have hword : ((t.sealed T).hcrc.scalarWire T .llong).length = 8 := Field.length_scalarWire _ _ _
  have hsplit : (t.sealed T).headerWire T =
      t.headerImage T ++ (t.sealed T).hcrc.scalarWire T .llong := rfl
  rw [Checked, hsplit, List.take_left' himage, List.drop_left' himage,
    List.take_of_length_le hword.le]
  exact (ofNat_crc _).symm

theorem checked_bodyWire : Checked (t.bodyImage T).length ((t.sealed T).bodyWire T) := by
  have hword : ((t.sealed T).bcrc.scalarWire T .llong).length = 8 := Field.length_scalarWire _ _ _
  have hsplit : (t.sealed T).bodyWire T =
      t.bodyImage T ++ (t.sealed T).bcrc.scalarWire T .llong := rfl
  rw [Checked, hsplit, List.take_left, List.drop_left, List.take_of_length_le hword.le]
  exact (ofNat_crc _).symm

variable {T}

theorem header_rejected {T' : Target} {header' tail : List UInt8} {s : InputStream} {hs rest : List Field}
    (hhs : IsHeader hs) (hchecked : ¬ Checked 24 header') (hlen : header'.length = 32)
    (hconsumed : s.consumed = []) (hgood : s.good = true) (hrest : s.rest = header' ++ tail) :
    ∃ code s' fields, unserializeHeaderPacket T' s (hs ++ rest) true = .ok (code, s', fields) ∧
      code ≠ ERR_OK := by
  have hreject : ¬ HeaderAccepted true s.rest := by
    intro haccept
    have hcrc := haccept.2 rfl
    rw [hrest, List.take_append_of_le_length (by omega), List.drop_append_of_le_length (by omega),
      List.take_append_of_le_length (by rw [List.length_drop]; omega)] at hcrc
    exact hchecked hcrc
  rcases unserializeHeaderPacket_fields (T := T') true rest hhs hconsumed hgood
    (by rw [hrest, List.length_append]; omega) with ⟨haccept, -⟩ | ⟨-, code, s', hs', hpacket, hcode, -⟩
  · exact absurd haccept hreject
  · exact ⟨code, s', _, hpacket, hcode⟩

theorem body_rejected (hfit : LengthsFit t.bmark t.body) (hlength : t.length < 2 ^ 31)
    (dst : t.Dest) {T' : Target} {s : InputStream} {hs : List Field} {count : Field}
    {body' tail : List UInt8} (hhs : IsHeader hs) (hcount : fieldAt hs FIELD_COUNT = .ok count)
    (hcnt : count.ivalue = t.cnt) (hgood : s.good = true) (hrest : s.rest = body' ++ tail)
    (hlen : body'.length = (t.bodyImage T).length + 8)
    (hkept : LengthsKept T t.cnt t.hcrc (t.bmark :: t.body) body')
    (hchecked : ¬ Checked (t.bodyImage T).length body') :
    ∃ s' fields, unserializeBodyPacket T' s (hs ++ dst.tail) t.len true =
      .ok (ERR_CHECK_CRC_ERROR, s', fields) := by
  have himage := t.length_bodyImage T
  have hmoves := t.moves_covered
  have hcovered : (body'.take (t.bodyImage T).length).length = (t.bodyImage T).length := by
    rw [List.length_take]
    omega
  have hstored : (body'.drop (t.bodyImage T).length).length = 8 := by
    rw [List.length_drop]
    omega
  rw [← List.take_append_drop (t.bodyImage T).length body', lengthsKept_append (by omega)] at hkept
  have hpacket := body_decoded hfit hlength dst T' true tail hhs
    hcount hcnt hgood (by rw [hrest, ← List.append_assoc, List.take_append_drop])
    (hcovered.trans himage) hstored hkept
  have hcode : ¬ (true = true → BitVec.ofNat 32 (ofBeBytes (body'.drop (t.bodyImage T).length)) =
      crc32 (body'.take (t.bodyImage T).length)) := by
    intro hcode
    apply hchecked
    rw [Checked, List.take_of_length_le hstored.le]
    exact (hcode rfl).symm
  rw [if_neg hcode] at hpacket
  exact ⟨_, _, hpacket⟩

/-- **Corruption is never accepted.** Of a packet that `serialize_packet` wrote, a burst in
the header or in its checksum makes the header decoder return an error, and a burst in
the body that leaves the lengths of its arrays alone, or in its checksum, makes the
body decoder return `ERR_CHECK_CRC_ERROR`. The bound is the `int` in which `fields_size`
counts a packet for its sender. -/
theorem corruption_detected (hfit : LengthsFit t.bmark t.body) (hlength : t.length < 2 ^ 31)
    (T T' : Target) (dst : t.Dest) (buffer : List UInt8) (hroom : t.length ≤ buffer.length) :
    ∃ out fields,
      serializePacket T (.ofBuffer buffer) t.fields t.len = .ok (ERR_OK, out, fields) ∧
      out.written.length = t.length ∧
      (∀ header', CoveredBurst 24 (out.written.take 32) header' ∨
          StoredBurst 28 (out.written.take 32) header' →
        ∀ (s : InputStream) (tail : List UInt8), s.consumed = [] → s.good = true →
          s.rest = header' ++ tail →
          ∃ code s' fields', unserializeHeaderPacket T' s dst.fields true =
            .ok (code, s', fields') ∧ code ≠ ERR_OK) ∧
      ∀ body', CoveredBurst (t.length - 40) (out.written.drop 32) body' ∧
            LengthsKept T t.cnt t.hcrc (t.bmark :: t.body) body' ∨
          StoredBurst (t.length - 36) (out.written.drop 32) body' →
        ∀ (s : InputStream) (tail : List UInt8) (count : Field),
          fieldAt dst.header FIELD_COUNT = .ok count → count.ivalue = t.cnt → s.good = true →
          s.rest = body' ++ tail →
          ∃ s' fields', unserializeBodyPacket T' s dst.fields t.len true =
            .ok (ERR_CHECK_CRC_ERROR, s', fields') := by
  have hpacket := t.serializePacket_fields T hlength buffer hroom
  have hwire := (t.sealed T).length_wire T
  have hheader := (t.sealed T).length_headerWire T
  have himage := t.length_bodyImage T
  have htotal : t.length = 44 + moves t.cnt t.bmark t.body := rfl
  have hbody : ((t.sealed T).bodyWire T).length = 12 + moves t.cnt t.bmark t.body :=
    (t.sealed T).length_bodyWire T
  have hchecked : Checked (t.length - 40) ((t.sealed T).bodyWire T) := by
    have hrange := checked_bodyWire (t := t) T
    rwa [himage, show 4 + moves t.cnt t.bmark t.body = t.length - 40 by omega] at hrange
  refine ⟨_, _, hpacket, hwire, ?_, ?_⟩
  · intro header' hburst s tail hconsumed hgood hrest
    change CoveredBurst 24 (((t.sealed T).wire T).take 32) header' ∨
      StoredBurst 28 (((t.sealed T).wire T).take 32) header' at hburst
    rw [wire, List.take_left' hheader] at hburst
    rcases hburst with hburst | hburst
    · obtain ⟨i, hi, hat⟩ := hburst.burst
      exact header_rejected dst.isHeader (hburst.not_checked (checked_headerWire T))
        (hat.length.trans hheader) hconsumed hgood hrest
    · exact header_rejected dst.isHeader (hburst.not_checked hheader (checked_headerWire T))
        (hburst.burst.length.trans hheader) hconsumed hgood hrest
  · intro body' hburst s tail count hcount hcnt hgood hrest
    change CoveredBurst (t.length - 40) (((t.sealed T).wire T).drop 32) body' ∧ _ ∨
      StoredBurst (t.length - 36) (((t.sealed T).wire T).drop 32) body' at hburst
    rw [wire, List.drop_left' hheader] at hburst
    have reject (hlen : body'.length = ((t.sealed T).bodyWire T).length)
        (hkept : LengthsKept T t.cnt t.hcrc (t.bmark :: t.body) body')
        (hnot : ¬ Checked (t.length - 40) body') :
        ∃ s' fields', unserializeBodyPacket T' s dst.fields t.len true =
          .ok (ERR_CHECK_CRC_ERROR, s', fields') := by
      rw [show t.length - 40 = (t.bodyImage T).length by omega] at hnot
      exact body_rejected hfit hlength dst dst.isHeader hcount hcnt hgood hrest (by omega) hkept hnot
    rcases hburst with ⟨hburst, hkept⟩ | hburst
    · obtain ⟨i, hi, hat⟩ := hburst.burst
      exact reject hat.length hkept (hburst.not_checked hchecked)
    · -- the burst is behind the entries
      have hfront : body'.take (t.bodyImage T).length = t.bodyImage T := by
        rw [hburst.burst.take_eq (show (t.bodyImage T).length ≤ t.length - 36 by omega)]
        exact List.take_left
      refine reject hburst.burst.length ?_ ?_
      · have hkept := lengthsKept_images (T := T) t.covered_items
          (body'.drop (t.bodyImage T).length)
        rw [← bodyImage_eq] at hkept
        nth_rewrite 1 [← hfront] at hkept
        rwa [List.take_append_drop] at hkept
      · rw [show t.length - 36 = t.length - 40 + 4 by omega] at hburst
        exact hburst.not_checked (by omega) hchecked

/-- A change of one byte is a burst. -/
theorem burst_modify {w : List UInt8} {i j : Nat} (hij : i ≤ j) (hji : j < i + 4)
    (hj : j < w.length) : Burst i w (w.modify j (· + 1)) ∧ w.modify j (· + 1) ≠ w := by
  refine ⟨⟨List.length_modify _ _ _, ?_, List.drop_modify_of_lt _ _ _ _ hji⟩, ?_⟩
  · rw [List.take_modify, List.modify_eq_self (by rw [List.length_take]; omega)]
  · intro hsame
    have hbyte := congrArg (·[j]?) hsame
    simp [hj] at hbyte

/-- The connect request of client `"a"`, process `"bc"`, with a byte of its method and with
a byte of its body's checksum changed. -/
theorem corruption_detected_connectReq :
    ∃ out fields, serializePacket (.build .little) (.ofBuffer (List.replicate 53 0))
        (msgConnectFields 7 [0x61, 0] [0x62, 0x63, 0]) 13 = .ok (ERR_OK, out, fields) ∧
      (∃ code s' fields', unserializeHeaderPacket (.build .big)
        (.ofBuffer ((out.written.take 32).modify 4 (· + 1)) 32)
        (msgConnectFields 0 (List.replicate 1024 0) (List.replicate 1024 0)) true =
          .ok (code, s', fields') ∧ code ≠ ERR_OK) ∧
      ∃ s' fields', unserializeBodyPacket (.build .big)
        (.ofBuffer ((out.written.drop 32).modify 17 (· + 1)) 21)
        (msgConnectFields 0 (List.replicate 1024 0) (List.replicate 1024 0)) 13 true =
          .ok (ERR_CHECK_CRC_ERROR, s', fields') := by
  have hreq : (MsgTable.connectReq 7 [0x61, 0] [0x62, 0x63, 0] (by decide) (by decide)).Decodable :=
    MsgTable.connectReq_decodable _ _ (by decide) (by decide) (by decide)
  obtain ⟨out, fields, hpacket, hlength, hheader, hbody⟩ :=
    corruption_detected (t := (MsgTable.connectReq 7 [0x61, 0] [0x62, 0x63, 0] (by decide)
        (by decide)).packetTable) (lengthsFit_of_inRange hreq.bmark_inRange hreq.body) (by decide)
      (.build .little) (.build .big)
      (MsgTable.connectDest (by decide) (by decide) 0 (List.replicate 1024 0) (List.replicate 1024 0)
        (by rw [List.length_replicate]; decide) (by rw [List.length_replicate]; decide)).packetDest
      (List.replicate 53 0) (by decide)
  change out.written.length = 53 at hlength
  have hfront : (out.written.take 32).length = 32 := by rw [List.length_take]; omega
  have hback : (out.written.drop 32).length = 21 := by rw [List.length_drop]; omega
  refine ⟨out, fields, hpacket, ?_, ?_⟩
  · obtain ⟨hburst, hchanged⟩ := burst_modify (w := out.written.take 32) (le_refl 4) (by decide)
      (by omega)
    refine hheader _ (.inl ⟨hchanged, 4, by decide, hburst⟩) _ [] rfl rfl ?_
    rw [List.append_nil]
    exact List.take_of_length_le (by rw [List.length_modify]; omega)
  · obtain ⟨hburst, hchanged⟩ := burst_modify (w := out.written.drop 32) (le_refl 17) (by decide)
      (by omega)
    refine hbody _ (.inr ⟨hchanged, hburst⟩) _ [] _ rfl rfl rfl ?_
    rw [List.append_nil]
    exact List.take_of_length_le (by rw [List.length_modify]; omega)

end PacketTable

end Librtaio
