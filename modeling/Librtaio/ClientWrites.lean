import Librtaio.ClientConnect
import Librtaio.Transition

/-!
# What a client puts on its connection

`send_packet` makes one call of `write_some` and reports an error if not all of
the packet went out; nothing records that the connection is in the middle of a
packet then. The next call starts with a new packet. It is shown in which runs
of calls the connection carries whole packets nevertheless.
-/

namespace Librtaio

open Exec Transition

/-- A packet as `serialize_packet` leaves it. -/
def Complete (T : Target) (packet : List UInt8) : Prop :=
  ∃ fields len sent, encodePacket T fields len = .ok (ERR_OK, packet, sent)

theorem MsgTable.complete_sent (t : MsgTable) (T : Target) (hsize : t.size < 2 ^ 31) :
    Complete T ((t.sent T).wire T) :=
  ⟨t.fields, t.len, _, t.encodePacket_fields T hsize⟩

theorem MsgTable.wire_ne_nil (t : MsgTable) (T : Target) : t.wire T ≠ [] := by
  have hlength := t.length_headerWire T
  intro hnil
  rw [MsgTable.wire, List.append_eq_nil_iff] at hnil
  rw [hnil.1] at hlength
  cases hlength

theorem WriteSome.part_ne_nil_iff {packet : List UInt8} (hpacket : packet ≠ []) (write : WriteSome) :
    write.part packet ≠ [] ↔ ∃ n, 0 < n ∧ write = .wrote n := by
  cases write with
  | wrote n =>
    rw [WriteSome.part, ne_eq, List.take_eq_nil_iff, not_or]
    constructor
    · rintro ⟨hn, -⟩
      exact ⟨n, by omega, rfl⟩
    · rintro ⟨m, hm, hwrote⟩
      cases hwrote
      exact ⟨by omega, hpacket⟩
  | failed => simp [WriteSome.part]

/-! ### The calls of `write_some` -/

/-- The call takes some bytes to the connection. -/
def ApiCall.Writes (c : Client) : ApiCall → Prop
  | connect env => (c.opened = false ∧ env.opens = true) ∧ env.reached = true ∧ Client.Named env ∧
      ∃ n, 0 < n ∧ env.write = .wrote n
  | disconnect _ write => c.connected = true ∧ ∃ n, 0 < n ∧ write = .wrote n

namespace Client

variable {T : Target} {c c' : Client} {call : ApiCall} {log : List (Client × ApiCall)}

/-- What a call does to the connection: nothing, or one call of `write_some`. -/
inductive Effect (T : Target) (c : Client) (call : ApiCall) (c' : Client) : Prop where
  | nothing (hwrites : ¬ call.Writes c) (hattempts : c'.attempts = c.attempts)
      (hwritten : c'.written = c.written)
  | attempt (packet part : List UInt8) (hpacket : Complete T packet) (hpart : part <+: packet)
      (hwrites : call.Writes c ↔ part ≠ []) (hattempts : c'.attempts = c.attempts ++ [⟨packet, part⟩])
      (hwritten : c'.written = c.written ++ part)

theorem connect_effect (T : Target) (env : Connecting) (c : Client) :
    Effect T c (.connect env) (connect T env c).2 := by
  have hrun := connect_run T env c
  generalize connect T env c = left at hrun
  cases hrun with
  | thrown hclosed => exact .nothing (fun h => hclosed h.1) rfl rfl
  | unreached hopens hreached => exact .nothing (fun h => by cases hreached.symm.trans h.2.1) rfl rfl
  | unnamed hopens hreached hnamed => exact .nothing (fun h => hnamed h.2.2.1) rfl rfl
  | short hopens hreached hnamed packet hpacket hshort =>
    have hsize := request_size_le env hnamed
    have hne : packet ≠ [] := hpacket ▸ MsgTable.wire_ne_nil _ T
    refine .attempt packet _ ?_ (env.write.part_isPrefix packet) ?_ rfl rfl
    · rw [hpacket]
      exact MsgTable.complete_sent _ T (by omega)
    · rw [WriteSome.part_ne_nil_iff hne]
      exact ⟨fun h => h.2.2.2, fun h => ⟨hopens, hreached, hnamed, h⟩⟩
  | sent hopens hreached hnamed packet hpacket hwhole =>
    have hsize := request_size_le env hnamed
    have hne : packet ≠ [] := hpacket ▸ MsgTable.wire_ne_nil _ T
    refine .attempt packet packet ?_ (List.prefix_refl packet) ?_ rfl rfl
    · rw [hpacket]
      exact MsgTable.complete_sent _ T (by omega)
    · refine iff_of_true ⟨hopens, hreached, hnamed, ?_⟩ hne
      rw [← WriteSome.part_ne_nil_iff hne, hwhole]
      exact hne

theorem disconnect_effect (T : Target) (now : Int) (write : WriteSome) (c : Client) :
    Effect T c (.disconnect now write) (disconnect T now write c).2 := by
  obtain ⟨packet, hpacket, hrun⟩ := disconnect_run T now write c
  have hne : packet ≠ [] := hpacket ▸ MsgTable.wire_ne_nil _ T
  rw [hrun]
  cases hconnected : c.connected with
  | false =>
    have hput (part : List UInt8) : c.put packet part = c := by simp [put, hconnected]
    refine .nothing (fun h => by cases hconnected.symm.trans h.1) ?_ ?_
    · exact congrArg attempts (hput _)
    · exact congrArg written (hput _)
  | true =>
    have hput (part : List UInt8) : c.put packet part =
        { c with written := c.written ++ part, attempts := c.attempts ++ [⟨packet, part⟩] } :=
      if_pos hconnected
    have hpart : c.part packet write = write.part packet := if_pos hconnected
    refine .attempt packet (write.part packet) ?_ (write.part_isPrefix packet) ?_ ?_ ?_
    · rw [hpacket]
      exact MsgTable.complete_sent _ T (by rw [MsgTable.size_disconnectReq]; decide)
    · rw [WriteSome.part_ne_nil_iff hne]
      exact ⟨fun h => h.2, fun h => ⟨hconnected, h⟩⟩
    · rw [hpart, hput]
    · rw [hpart, hput]

theorem Step.effect (h : Step T c call c') : Effect T c call c' := by
  have heffect : Effect T c call (call.run T c).2 := by
    cases call with
    | connect env => exact connect_effect T env c
    | disconnect now write => exact disconnect_effect T now write c
  rw [h.eq]
  cases heffect with
  | nothing hwrites hattempts hwritten => exact .nothing hwrites hattempts hwritten
  | attempt packet part hpacket hpart hwrites hattempts hwritten =>
    exact .attempt packet part hpacket hpart hwrites hattempts hwritten

/-! ### Whole packets -/

/-- Every byte on the connection was put there by a call of `write_some`. -/
structure Logged (T : Target) (c : Client) : Prop where
  written : c.written = c.attempts.flatMap (·.written)
  complete : ∀ a ∈ c.attempts, Complete T a.packet ∧ a.written <+: a.packet

theorem Logged.step (h : Logged T c) (hstep : Step T c call c') : Logged T c' := by
  cases hstep.effect with
  | nothing hwrites hattempts hwritten =>
    constructor
    · rw [hwritten, hattempts]
      exact h.written
    · rw [hattempts]
      exact h.complete
  | attempt packet part hpacket hpart hwrites hattempts hwritten =>
    constructor
    · rw [hwritten, hattempts, h.written, List.flatMap_append, List.flatMap_singleton]
    · intro a ha
      rw [hattempts, List.mem_append, List.mem_singleton] at ha
      rcases ha with ha | rfl
      · exact h.complete a ha
      · exact ⟨hpacket, hpart⟩

/-- Whole packets, and at their end a part of one at most. -/
def PacketStream (T : Target) (bs : List UInt8) : Prop :=
  ∃ (whole : List (List UInt8)) (part : List UInt8), bs = whole.flatten ++ part ∧
    (∀ packet ∈ whole, Complete T packet) ∧
      (part = [] ∨ ∃ packet, Complete T packet ∧ part <+: packet ∧ part ≠ packet)

structure WholePackets (T : Target) (c : Client) : Prop where
  stream : PacketStream T c.written
  /-- After a short or failed write no bytes of another packet follow. -/
  silent : c.attempts.Pairwise fun a b => a.written ≠ a.packet → b.written = []

/-- If nothing follows a short write, the packets before it are whole. -/
theorem stream_of_silent {attempts : List Attempt}
    (hcomplete : ∀ a ∈ attempts, Complete T a.packet ∧ a.written <+: a.packet)
    (hsilent : attempts.Pairwise fun a b => a.written ≠ a.packet → b.written = []) :
    PacketStream T (attempts.flatMap (·.written)) := by
  induction attempts with
  | nil => exact ⟨[], [], rfl, by simp, .inl rfl⟩
  | cons a attempts ih =>
    rw [List.forall_mem_cons] at hcomplete
    rw [List.pairwise_cons] at hsilent
    by_cases hwhole : a.written = a.packet
    · obtain ⟨whole, part, hbytes, hcompletes, hpart⟩ := ih hcomplete.2 hsilent.2
      refine ⟨a.packet :: whole, part, ?_, ?_, hpart⟩
      · rw [List.flatMap_cons, hbytes, hwhole, List.flatten_cons, List.append_assoc]
      · rw [List.forall_mem_cons]
        exact ⟨hcomplete.1.1, hcompletes⟩
    · have hrest : attempts.flatMap (·.written) = [] := by
        rw [List.flatMap_eq_nil_iff]
        exact fun b hb => hsilent.1 b hb hwhole
      refine ⟨[], a.written, ?_, by simp, .inr ⟨a.packet, hcomplete.1.1, hcomplete.1.2, hwhole⟩⟩
      rw [List.flatMap_cons, hrest, List.append_nil]
      rfl

theorem Logged.whole_iff_silent (h : Logged T c) :
    WholePackets T c ↔ c.attempts.Pairwise fun a b => a.written ≠ a.packet → b.written = [] := by
  constructor
  · exact fun hwhole => hwhole.silent
  · intro hsilent
    refine ⟨?_, hsilent⟩
    rw [h.written]
    exact stream_of_silent h.complete hsilent

/-- A call that writes finds only whole packets on the connection. -/
def AfterWhole (c : Client) (call : ApiCall) : Prop :=
  call.Writes c → ∀ a ∈ c.attempts, a.written = a.packet

theorem wholePackets_step (h : Logged T c) (hstep : Step T c call c') :
    WholePackets T c' ↔ WholePackets T c ∧ AfterWhole c call := by
  rw [(h.step hstep).whole_iff_silent, h.whole_iff_silent]
  cases hstep.effect with
  | nothing hwrites hattempts hwritten =>
    rw [hattempts]
    exact (and_iff_left fun hw => absurd hw hwrites).symm
  | attempt packet part hpacket hpart hwrites hattempts hwritten =>
    rw [hattempts, List.pairwise_append, and_iff_right (List.pairwise_singleton _ _), AfterWhole,
      hwrites]
    simp only [List.mem_singleton, forall_eq]
    refine and_congr_right fun _ => ?_
    constructor
    · intro hnothing hsome a ha
      by_contra hshort
      exact hsome (hnothing a ha hshort)
    · intro hwhole a ha hshort
      by_contra hsome
      exact hshort (hwhole hsome a ha)

/-- **Whole packets.** In a run of calls the connection carries whole packets exactly if no call
writes after a write that was short or failed. -/
theorem wholePackets_iff (hrun : Run (Step T) .init log c) :
    WholePackets T c ↔ Meets AfterWhole log := by
  have hlogged : Logged T .init := ⟨rfl, by simp [init]⟩
  have hinit : WholePackets T .init := hlogged.whole_iff_silent.mpr List.Pairwise.nil
  exact hrun.good_iff hlogged hinit .step wholePackets_step

/-- A client that connected, and whose request to disconnect goes out in part. -/
theorem wholePackets_granted :
    WholePackets (.build .little) ((Client.init.after (.build .little)
      (.connect (connecting granted))).after (.build .little) (.disconnect 8 (.wrote 40))) := by
  have hrun : Run (Step (.build .little)) .init _ _ :=
    (Run.single ⟨rfl, rfl⟩).snoc (i := .disconnect 8 (.wrote 40))
      (⟨by decide +kernel, rfl⟩ : Step (.build .little)
        (Client.init.after (.build .little) (.connect (connecting granted))) _ _)
  refine (wholePackets_iff hrun).mpr ?_
  rw [meets_append, meets_singleton, meets_singleton]
  refine ⟨fun _ a ha => absurd ha List.not_mem_nil, fun _ => ?_⟩
  decide +kernel

/-- A call of `connect` whose request goes out in part. -/
def interrupted : Connecting := { connecting [] with write := .wrote 5 }

/-- The request to disconnect is written behind five bytes of the request to connect. -/
theorem interrupted_disconnect :
    ¬ ∀ (T : Target) (log : List (Client × ApiCall)) (c : Client),
      Run (Step T) .init log c → WholePackets T c := by
  intro h
  have hrun : Run (Step (.build .little)) .init _ _ :=
    (Run.single ⟨rfl, rfl⟩).snoc (i := .disconnect 8 (.wrote 44))
      (⟨by decide +kernel, rfl⟩ : Step (.build .little)
        (Client.init.after (.build .little) (.connect interrupted)) _ _)
  exact absurd (h _ _ _ hrun).silent (by decide +kernel)

end Client

end Librtaio
