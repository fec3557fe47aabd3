import Librtaio.ClientConnect
import Librtaio.SessionTraffic

/-!
# Who a client is

`connect` stores the host's name and the path of the executable over texts its
buffers are filled with. `gethostname` ends the name with a NUL; `readlink`
does not end the path, so that a path shorter than the text goes on with the
rest of it. From the client's buffers to those of `msg_connect` the strings
stay what they are; it is shown for which paths they are the client's own.
-/

namespace Librtaio

open Bytes Exec Transition

/-! ### The strings in the client's buffers -/

/-- Bytes without a NUL are followed by what is left of the text they are stored over. -/
theorem cString_storeInto {size : Nat} {text bs : List UInt8} (htext : 0 ∉ text) (hbs : 0 ∉ bs)
    (hsize : text.length < size) (hlength : bs.length < size) :
    cString (storeInto (charArray size text) bs) = bs ++ text.drop bs.length := by
  have hbuffer : (charArray size text).length = size := length_charArray hsize.le
  have hdrop : 0 ∉ bs ++ text.drop bs.length := by
    rw [List.mem_append]
    exact fun h => h.elim hbs fun h => htext (List.mem_of_mem_drop h)
  obtain ⟨n, hn⟩ : ∃ n, size - text.length - (bs.length - text.length) = n + 1 :=
    ⟨size - text.length - (bs.length - text.length) - 1, by omega⟩
  rw [storeInto, hbuffer, List.take_of_length_le hlength.le, charArray, List.drop_append,
    List.drop_replicate, hn, List.replicate_succ, ← List.append_assoc]
  exact cString_append hdrop _

namespace Connecting

variable {env : Connecting} {name path : List UInt8}

theorem cString_computer (h : env.hostname = some name) (hname : 0 ∉ name)
    (hlength : name.length ≤ 1023) : cString env.computer = name := by
  have hbuffer : (charArray 1024 defaultComputer).length = 1024 := length_charArray (by decide)
  rw [computer, h, gethostname_some, storeInto, hbuffer,
    List.take_of_length_le (by rw [List.length_append, List.length_singleton]; omega),
    List.append_assoc, List.singleton_append]
  exact cString_append hname _

theorem cString_process (h : env.exe = some path) (hpath : 0 ∉ path) (hlength : path.length ≤ 1023) :
    cString env.process = path ++ defaultProcess.drop path.length := by
  rw [process, h, readlink_some]
  exact cString_storeInto (by decide) hpath (by decide) (by omega)

end Connecting

/-! ### What the server sees -/

/-- `msg_connect` sees a client with these names, each ended by a NUL. -/
def Conn.Sees (c : Conn) (name path : List UInt8) : Prop :=
  ∃ clientname clientprocess, .connected clientname clientprocess ∈ c.trace ∧
    strlen clientname < clientname.length ∧ cString clientname = name ∧
    strlen clientprocess < clientprocess.length ∧ cString clientprocess = path

namespace Client

variable {T T' : Target} {env : Connecting} {name path : List UInt8}

/-- The request of a call of `connect`. -/
def connectRequest (T : Target) (env : Connecting) (h : Named env) : ConnectRequest where
  host := T
  now := env.clock 0
  clientname := env.computer
  processname := env.process
  client_terminated := h.computer
  process_terminated := h.process
  client_short := by
    have hlt := h.computer
    rw [env.length_computer] at hlt
    omega
  process_short := by
    have hlt := h.process
    rw [env.length_process] at hlt
    omega

theorem named_of_strings (hhost : env.hostname = some name) (hexe : env.exe = some path)
    (hname : 0 ∉ name ∧ name.length ≤ 1023) (hpath : 0 ∉ path ∧ path.length ≤ 1023) : Named env where
  computer := by
    rw [env.length_computer, ← length_cString, env.cString_computer hhost hname.1 hname.2]
    omega
  process := by
    have hdefault : defaultProcess.length = 15 := rfl
    rw [env.length_process, ← length_cString, env.cString_process hexe hpath.1 hpath.2,
      List.length_append, List.length_drop, hdefault]
    omega

/-- A call whose writes complete whole has written its request. -/
theorem connect_written (T : Target) (env : Connecting) (hopens : env.opens = true)
    (hreached : env.reached = true) (hnamed : Named env)
    (hwhole : ∀ a ∈ (connect T env .init).2.attempts, a.written = a.packet) :
    (connect T env .init).2.written = (connectRequest T env hnamed).packet := by
  have hrun := connect_run T env .init
  generalize connect T env .init = left at hrun hwhole
  cases hrun with
  | thrown hclosed => exact absurd ⟨rfl, hopens⟩ hclosed
  | unreached hopens' hreached' => cases hreached'.symm.trans hreached
  | unnamed hopens' hreached' hnamed' => exact absurd hnamed hnamed'
  | short hopens' hreached' hnamed' packet hpacket hshort =>
    exact absurd (hwhole ⟨packet, env.write.part packet⟩ (by simp [put])) hshort
  | sent hopens' hreached' hnamed' packet hpacket hwhole' => exact hpacket

/-- With room for every request the call writes its request whole. -/
theorem attempts_whole (T : Target) (env : Connecting) {n : Nat} (hwrite : env.write = .wrote n)
    (hroom : 2096 ≤ n) :
    ∀ a ∈ (connect T env .init).2.attempts, a.written = a.packet := by
  have hrun := connect_run T env .init
  generalize connect T env .init = left at hrun
  cases hrun with
  | thrown hclosed => exact List.forall_mem_nil _
  | unreached hopens hreached => exact List.forall_mem_nil _
  | unnamed hopens hreached hnamed => exact List.forall_mem_nil _
  | short hopens hreached hnamed packet hpacket hshort =>
    rw [hpacket, hwrite] at hshort
    exact absurd (part_request T env hnamed hroom) hshort
  | sent hopens hreached hnamed packet hpacket hwhole =>
    intro a ha
    rw [List.mem_singleton.mp ha]

theorem answered_nil {events : List Event} (h : Answered [] events) : events = [] := by
  generalize hrequests : ([] : List ConnectRequest) = requests at h
  cases h with
  | nil => rfl
  | snoc h r packet hgrants => simp at hrequests

theorem answered_singleton {r : ConnectRequest} {events : List Event} (h : Answered [r] events) :
    ∃ packet, events = [.connected (charArray 1024 (cString r.clientname))
      (charArray 1024 (cString r.processname)), .armed .sendPacket (.write packet)] := by
  generalize hrequests : [r] = requests at h
  cases h with
  | nil => cases hrequests
  | @snoc requests events h r' packet hgrants =>
    obtain ⟨rfl, hr⟩ : requests = [] ∧ r' = r := by
      rcases requests with _ | ⟨r'', _ | _⟩ <;> simp_all
    rw [answered_nil h, hr]
    exact ⟨packet, rfl⟩

/-- A request that the server has received is seen with the strings of its buffers. -/
theorem sees_iff (name path : List UInt8) (r : ConnectRequest) {now : Int}
    {uninit : Fin (FIELD_BMARK + 3) → Field} {s : Session} {senv : Env} {log : List (Conn × Label)} {c : Conn} (hnew : newSession now uninit = .ok s)
    (hconnected : senv.connected = true) (hrun : Run (Fed T' r.packet) (.started senv s) log c)
    (hreceived : received c.trace = r.packet) :
    c.Sees name path ↔ cString r.clientname = name ∧ cString r.processname = path := by
  set tr : Traffic := ⟨[r], none⟩ with htr
  have hbytes : tr.bytes = r.packet := by simp [htr, Traffic.bytes, packets]
  rw [← hbytes] at hrun hreceived
  have hanswered := (Traffic.stage_run hnew hconnected hrun).1.answered rfl hreceived
  obtain ⟨packet, hspoken⟩ := answered_singleton hanswered
  have hclient : (cString r.clientname).length < 1024 := by
    have hshort := r.client_short
    rw [length_cString]
    omega
  have hprocess : (cString r.processname).length < 1024 := by
    have hshort := r.process_short
    rw [length_cString]
    omega
  have hmem {a b : List UInt8} : .connected a b ∈ c.trace ↔
      a = charArray 1024 (cString r.clientname) ∧ b = charArray 1024 (cString r.processname) := by
    have hfilter : .connected a b ∈ c.trace ↔ .connected a b ∈ spoken c.trace := by
      simp [spoken, List.mem_filter]
    rw [hfilter, hspoken]
    simp
  have hterminated {text : List UInt8} (hnul : 0 ∉ text) (hlength : text.length < 1024) :
      strlen (charArray 1024 text) < (charArray 1024 text).length := by
    rw [← length_cString, cString_charArray hnul hlength, length_charArray hlength.le]
    exact hlength
  have hnul := zero_notMem_cString r.clientname
  have hnul' := zero_notMem_cString r.processname
  constructor
  · rintro ⟨a, b, h, -, ha, -, hb⟩
    obtain ⟨rfl, rfl⟩ := hmem.mp h
    rw [cString_charArray hnul hclient] at ha
    rw [cString_charArray hnul' hprocess] at hb
    exact ⟨ha, hb⟩
  · rintro ⟨rfl, rfl⟩
    exact ⟨_, _, hmem.mpr ⟨rfl, rfl⟩, hterminated hnul hclient, cString_charArray hnul hclient,
      hterminated hnul' hprocess, cString_charArray hnul' hprocess⟩

/-- And there are runs in which the server receives it. -/
theorem exists_received (T : Target) (r : ConnectRequest) {now : Int}
    {uninit : Fin (FIELD_BMARK + 3) → Field} {s : Session} (senv : Env)
    (hnew : newSession now uninit = .ok s) (hconnected : senv.connected = true) :
    ∃ log c, Run (Fed T r.packet) (.started senv s) log c ∧ received c.trace = r.packet := by
  have hbytes : (Traffic.mk [r] none).bytes = r.packet := by simp [Traffic.bytes, packets]
  obtain ⟨log, c, hrun, hstuck⟩ := (Traffic.mk [r] none).exists_stuck T hnew hconnected
  have hserved := Traffic.served_of_stuck hnew hconnected hrun hstuck
  rw [hbytes] at hrun
  exact ⟨log, c, hrun, hserved.received.trans hbytes⟩

/-- **Who connected.** A server that has received the request of a call of `connect` sees the host's
name and the path of the executable exactly if the path is not shorter than the text it was stored
over. -/
theorem connect_seen_iff (hopens : env.opens = true) (hreached : env.reached = true)
    (hhost : env.hostname = some name) (hexe : env.exe = some path)
    (hname : 0 ∉ name ∧ name.length ≤ 1023) (hpath : 0 ∉ path ∧ path.length ≤ 1023)
    (hwhole : ∀ a ∈ (connect T env .init).2.attempts, a.written = a.packet)
    {now : Int} {uninit : Fin (FIELD_BMARK + 3) → Field} {s : Session} {senv : Env}
    {log : List (Conn × Label)} {c : Conn} (hnew : newSession now uninit = .ok s)
    (hconnected : senv.connected = true)
    (hrun : Run (Fed T' (connect T env .init).2.written) (.started senv s) log c)
    (hreceived : received c.trace = (connect T env .init).2.written) :
    c.Sees name path ↔ defaultProcess.length ≤ path.length := by
  have hnamed := named_of_strings hhost hexe hname hpath
  rw [connect_written T env hopens hreached hnamed hwhole] at hrun hreceived
  have hsees := sees_iff name path _ hnew hconnected hrun hreceived
  have hclient : cString (connectRequest T env hnamed).clientname = name :=
    env.cString_computer hhost hname.1 hname.2
  have hprocess : cString (connectRequest T env hnamed).processname =
      path ++ defaultProcess.drop path.length := env.cString_process hexe hpath.1 hpath.2
  rw [hsees, hclient, hprocess, List.append_right_eq_self, List.drop_eq_nil_iff]
  exact and_iff_right rfl

/-- The same client at another path. -/
def connectingAt (path : List UInt8) : Connecting := { connecting [] with exe := some path }

theorem connect_seen :
    ∃ log c, Run (Fed (.build .big) (connect (.build .little) (connecting []) .init).2.written)
        .fresh log c ∧
      received c.trace = (connect (.build .little) (connecting []) .init).2.written ∧
      c.Sees [0x61] ((connecting []).exe.getD []) := by
  have hnew := newSession_eq 0 fun _ => ⟨0, 0, 0, none, 0⟩
  have hnamed := connecting_named []
  have hwhole : ∀ a ∈ (connect (.build .little) (connecting []) .init).2.attempts,
      a.written = a.packet := attempts_whole _ _ rfl (by decide)
  have hwritten := connect_written _ _ rfl rfl hnamed hwhole
  obtain ⟨log, c, hrun, hreceived⟩ := exists_received (.build .big)
    (connectRequest (.build .little) (connecting []) hnamed) ⟨0, true⟩ hnew rfl
  rw [← hwritten] at hrun hreceived
  exact ⟨log, c, hrun, hreceived, (connect_seen_iff rfl rfl rfl rfl (by decide) (by decide) hwhole hnew
    rfl hrun hreceived).mpr (by decide)⟩

/-- A client at `"/a"` is seen at `"/ast/hhh/client"`. -/
theorem connect_misseen :
    ∃ log c, Run (Fed (.build .big)
        (connect (.build .little) (connectingAt [0x2f, 0x61]) .init).2.written) .fresh log c ∧
      received c.trace = (connect (.build .little) (connectingAt [0x2f, 0x61]) .init).2.written ∧
      c.Sees [0x61] ([0x2f, 0x61] ++ defaultProcess.drop 2) ∧ ¬ c.Sees [0x61] [0x2f, 0x61] := by
  have hnew := newSession_eq 0 fun _ => ⟨0, 0, 0, none, 0⟩
  have hnamed : Named (connectingAt [0x2f, 0x61]) :=
    named_of_strings (show _ = some [0x61] from rfl) rfl (by decide) (by decide)
  have hwritten := connect_written (.build .little) (connectingAt [0x2f, 0x61]) rfl rfl
    hnamed (attempts_whole _ _ rfl (by decide))
  obtain ⟨log, c, hrun, hreceived⟩ := exists_received (.build .big)
    (connectRequest (.build .little) (connectingAt [0x2f, 0x61]) hnamed) ⟨0, true⟩ hnew rfl
  have hsees (path : List UInt8) := sees_iff [0x61] path _ hnew rfl hrun hreceived
  have hclient : cString (connectRequest (.build .little) (connectingAt [0x2f, 0x61]) hnamed).clientname =
      [0x61] := (connectingAt [0x2f, 0x61]).cString_computer rfl (by decide) (by decide)
  have hprocess : cString
      (connectRequest (.build .little) (connectingAt [0x2f, 0x61]) hnamed).processname =
      [0x2f, 0x61] ++ defaultProcess.drop 2 :=
    (connectingAt [0x2f, 0x61]).cString_process rfl (by decide) (by decide)
  rw [← hwritten] at hrun hreceived
  refine ⟨log, c, hrun, hreceived, (hsees _).mpr ⟨hclient, hprocess⟩, fun h => ?_⟩
  have hsame := hprocess.symm.trans ((hsees _).mp h).2
  exact absurd hsame (by decide)

end Client

end Librtaio
