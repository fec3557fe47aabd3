import Mathlib.Algebra.BigOperators.Group.Finset.Piecewise
import Mathlib.Algebra.Order.BigOperators.Group.Finset
import Librtaio.ClientServer
import Librtaio.ServerIsolation

/-!
# Many clients and the server

Every program of `test/client_main.cpp` has a connection of its own, and the
object that is accepted into is its session. The acceptor, the sessions and
the programs take their steps in any order. A network is followed here in which
every operation completes whole; then each connection by itself is a program and
its session, and the server goes on to serve all of them.
-/

namespace Librtaio

open Transition

/-- A program, and what it has written to its connection. -/
structure Program where
  main : Main
  written : List UInt8

/-- The programs, by the number of the object their connection is accepted into, and the server. -/
structure Network where
  programs : Nat → Program
  server : Server

namespace Network

/-- What happens next: something is delivered to the server, or a program goes on. -/
inductive Move where
  | server (d : Server.Delivery)
  | program (k : Nat) (m : Librtaio.Move)

/-- A program that has written its request. -/
def connecting (T : Target) (env : Connecting) : Program :=
  ⟨.connecting, (Client.connect T (env.answered []) .init).2.written⟩

def start (T : Nat → Target) (env : Nat → Connecting) (s : Session) : Network :=
  ⟨fun k => connecting (T k) (env k), .start s⟩

/-- One connection: the program, and the object at the other end. -/
def link (net : Network) (k : Nat) (c : Conn) : Link :=
  ⟨(net.programs k).main, (net.programs k).written, c⟩

/-- The steps of `N` programs and a server while every operation completes whole. -/
inductive Carries (T : Nat → Target) (T' : Target) (env : Nat → Connecting) (N : Nat)
    (net : Network) : Move → Network → Prop where
  | accepted (k : Nat) (now : Int) (s : Session) (srv : Server) (hk : k < N)
      (hstep : Server.Step T' net.server (.accepted k false ⟨now, true⟩ s) srv) :
      Carries T T' env N net (.server (.accepted k false ⟨now, true⟩ s)) { net with server := srv }
  | session (k : Nat) (i : Label) (c : Conn) (srv : Server)
      (hstep : Server.Step T' net.server (.session k i) srv) (hc : srv.sessions[k]? = some c)
      (hsent : received c.trace <+: (net.programs k).written) (hcomplete : i.Complete) :
      Carries T T' env N net (.server (.session k i)) { net with server := srv }
  | program (k : Nat) (m : Librtaio.Move) (c : Conn) (p : Program) (hk : k < N)
      (hc : net.server.sessions[k]? = some c) (hm : ∀ i, m ≠ .session i)
      (hstep : Link.Carries (T k) T' (env k) (net.link k c) m ⟨p.main, p.written, c⟩) :
      Carries T T' env N net (.program k m)
        { net with programs := Function.update net.programs k p }

end Network

/-! ### The registry -/

namespace Server

variable {srv : Server}

/-- `m_set_handlers` has the objects that are not closed. -/
structure HoldsOpen (srv : Server) : Prop where
  nodup : srv.handlers.Nodup
  mem_iff : ∀ k, k ∈ srv.handlers ↔ ∃ c, srv.sessions[k]? = some c ∧ c.closed = false

theorem HoldsOpen.accept (h : srv.HoldsOpen) (s : Session) : (srv.accept s).HoldsOpen := by
  have hnew : srv.sessions.length ∉ srv.handlers := by
    intro hmem
    obtain ⟨c, hc, -⟩ := (h.mem_iff _).mp hmem
    exact Nat.lt_irrefl _ (List.getElem?_eq_some_iff.mp hc).1
  constructor
  · exact h.nodup.append (List.nodup_singleton _) (List.disjoint_singleton.mpr hnew)
  · intro k
    rw [Server.accept, List.mem_append, List.mem_singleton, h.mem_iff]
    rcases Nat.lt_trichotomy k srv.sessions.length with hlt | rfl | hlt
    · rw [List.getElem?_append_left hlt, or_iff_left hlt.ne]
    · simp [Conn.accepted]
    · have hbeyond : (srv.sessions ++ [Conn.accepted s]).length ≤ k := by
        rw [List.length_append]
        exact hlt
      rw [List.getElem?_eq_none hlt.le, List.getElem?_eq_none hbeyond, or_iff_left hlt.ne']

theorem HoldsOpen.put (h : srv.HoldsOpen) {k : Nat} {c : Conn} (hc : srv.sessions[k]? = some c)
    (hopen : c.closed = false) (c' : Conn) : (srv.put k c').HoldsOpen := by
  have hself : (srv.put k c').sessions[k]? = some c' := put_getElem? hc
  have hother {j : Nat} (hne : k ≠ j) : (srv.put k c').sessions[j]? = srv.sessions[j]? := by
    rw [sessions_put, List.getElem?_set_ne hne]
  have hmem : k ∈ srv.handlers := (h.mem_iff k).mpr ⟨c, hc, hopen⟩
  cases hclosed : c'.closed with
  | false =>
    have hhandlers : (srv.put k c').handlers = srv.handlers := by simp [Server.put, hclosed]
    constructor
    · rw [hhandlers]
      exact h.nodup
    · intro j
      rw [hhandlers]
      rcases eq_or_ne k j with rfl | hne
      · exact iff_of_true hmem ⟨c', hself, hclosed⟩
      · rw [hother hne]
        exact h.mem_iff j
  | true =>
    have hhandlers : (srv.put k c').handlers = srv.handlers.erase k := by simp [Server.put, hclosed]
    constructor
    · rw [hhandlers]
      exact h.nodup.erase k
    · intro j
      rw [hhandlers, h.nodup.mem_erase_iff]
      rcases eq_or_ne k j with rfl | hne
      · refine iff_of_false (fun hj => hj.1 rfl) ?_
        rintro ⟨c'', hc'', hopen'⟩
        cases hself.symm.trans hc''
        cases hclosed.symm.trans hopen'
      · rw [hother hne, and_iff_right hne.symm]
        exact h.mem_iff j

theorem HoldsOpen.start (s : Session) : (Server.start s).HoldsOpen :=
  HoldsOpen.accept ⟨List.nodup_nil, fun _ => iff_of_false List.not_mem_nil (by simp)⟩ s

end Server

/-! ### Connections -/

namespace Link

variable {T T' : Target} {env : Connecting} {l : Link} {log : List (Link × Move)} {now : Int}
  {uninit : Fin (FIELD_BMARK + 3) → Field} {s : Session} {senv : Env}

theorem session_returned (hsends : Client.Sends T .init env) (hnew : newSession now uninit = .ok s)
    (hconnected : senv.connected = true)
    (hrun : Run (Carries T T' env) (start T env (.started senv s)) log l) :
    l.session.exit = none := by
  obtain ⟨tr, n, log', -, hsession, -⟩ := sent_run hsends hnew hconnected hrun
  exact (Traffic.stage_run hnew hconnected hsession).2

/-- No program goes on before its connection was accepted. -/
theorem not_carries_of_silent (hsends : Client.Sends T .init env) (hmain : l.main = .connecting)
    (htrace : l.session.trace = []) (hopen : l.session.closed = false)
    (hreturned : l.session.exit = none) {m : Move} {l' : Link} (hm : ∀ i, m ≠ .session i) :
    ¬ Carries T T' env l m l' := by
  intro h
  cases h.step with
  | session i c hstep hsent => exact hm i rfl
  | returns bs hmain harrived hends =>
    rcases hends with ⟨code, hcode⟩ | hclosed | hexit
    · have hspeech : Speech T' (spoken l.session.trace) := by
        rw [htrace]
        exact .nil
      rcases connect_answered hsends hspeech harrived with hthrown | ⟨-, clientname, process, now, rest, hsaid⟩
      · cases hthrown.symm.trans hcode
      · rw [htrace] at hsaid
        cases hsaid
    · cases hclosed.symm.trans hopen
    · exact hexit hreturned
  | disconnects now write c hmain' => cases hmain.symm.trans hmain'

end Link

namespace Network

variable {T : Nat → Target} {T' : Target} {env : Nat → Connecting} {N : Nat} {net net' : Network}
  {m : Move} {log : List (Network × Move)}

/-! ### What has come of the connections -/

/-- The first `a` connections were accepted, and each has come as far as in some run of its own, of
the given length. -/
structure Sound (T : Nat → Target) (T' : Target) (env : Nat → Connecting) (N : Nat) (net : Network)
    (a : Nat) (lengths : Nat → Nat) : Prop where
  inv : net.server.Inv
  running : net.server.service = .running
  le : a ≤ N
  length : net.server.sessions.length = a + 1
  accepting : net.server.accepting = [a]
  waiting : ∃ now uninit s, newSession now uninit = .ok s ∧
    net.server.sessions[a]? = some (.accepted s)
  later : ∀ k, a ≤ k → net.programs k = connecting (T k) (env k) ∧ lengths k = 0
  linked : ∀ k < a, ∃ senv now uninit s log c, senv.connected = true ∧ newSession now uninit = .ok s ∧
    net.server.sessions[k]? = some c ∧
    Run (Link.Carries (T k) T' (env k)) (Link.start (T k) (env k) (.started senv s)) log
      (net.link k c) ∧ log.length = lengths k
  registered : net.server.HoldsOpen

theorem Sound.start (T : Nat → Target) (T' : Target) (env : Nat → Connecting) (N : Nat) {now : Int}
    {uninit : Fin (FIELD_BMARK + 3) → Field} {s : Session} (hnew : newSession now uninit = .ok s) :
    Sound T T' env N (start T env s) 0 fun _ => 0 where
  inv := .start hnew
  running := rfl
  le := Nat.zero_le N
  length := rfl
  accepting := rfl
  waiting := ⟨now, uninit, s, hnew, rfl⟩
  later := fun _ _ => ⟨rfl, rfl⟩
  linked := fun k hk => absurd hk (Nat.not_lt_zero k)
  registered := .start s

theorem sum_update {k : Nat} (hk : k < N) (lengths : Nat → Nat) :
    ∑ j ∈ Finset.range N, Function.update lengths k (lengths k + 1) j =
      ∑ j ∈ Finset.range N, lengths j + 1 := by
  rw [Finset.sum_update_of_mem (Finset.mem_range.mpr hk),
    Finset.sum_eq_add_sum_sdiff_singleton_of_mem (Finset.mem_range.mpr hk) lengths]
  omega

/-- The objects that were not waiting when a completion came. -/
theorem Sound.lt_of_pending {a : Nat} {lengths : Nat → Nat} (h : Sound T T' env N net a lengths)
    {k : Nat} {c : Conn} (hc : net.server.sessions[k]? = some c) (hpending : c.pending ≠ []) : k < a := by
  have hlt := (List.getElem?_eq_some_iff.mp hc).1
  rw [h.length] at hlt
  rcases Nat.lt_or_eq_of_le (Nat.le_of_lt_succ hlt) with hlt | rfl
  · exact hlt
  · obtain ⟨now, uninit, s, -, hwaiting⟩ := h.waiting
    cases hwaiting.symm.trans hc
    exact absurd rfl hpending

theorem Sound.session (hsends : ∀ k < N, Client.Sends (T k) .init (env k)) {a : Nat}
    {lengths : Nat → Nat} (h : Sound T T' env N net a lengths) {k : Nat} {i : Label} {c : Conn}
    {srv : Server} (hstep : Server.Step T' net.server (.session k i) srv)
    (hc : srv.sessions[k]? = some c) (hsent : received c.trace <+: (net.programs k).written)
    (hcomplete : i.Complete) :
    Sound T T' env N { net with server := srv } a (Function.update lengths k (lengths k + 1)) ∧
      k < N := by
  have hinv := h.inv.step hstep
  cases hstep with
  | session k i c₀ c' hrunning hc₀ hstep =>
    obtain rfl : c' = c := Option.some.inj ((Server.put_getElem? hc₀).symm.trans hc)
    have hpending := List.ne_nil_of_mem hstep.pending
    have hka := h.lt_of_pending hc₀ hpending
    have hkN := lt_of_lt_of_le hka h.le
    obtain ⟨senv, now, uninit, s, log', c₁, hconnected, hnew, hc₁, hrun, hlength⟩ := h.linked k hka
    obtain rfl : c₀ = c₁ := Option.some.inj (hc₀.symm.trans hc₁)
    have hnext : Link.Carries (T k) T' (env k) (net.link k c₀) (.session i) (net.link k c') := by
      refine ⟨.session i c' hstep hsent, ?_, ?_⟩
      · intro j hj
        cases hj
        exact hcomplete
      · intro now write c hm
        cases hm
    have hrun' := hrun.snoc hnext
    have hexit : c'.exit = none := Link.session_returned (hsends k hkN) hnew hconnected hrun'
    have hsame {j : Nat} (hne : k ≠ j) :
        (net.server.put k c').sessions[j]? = net.server.sessions[j]? := by
      rw [Server.sessions_put, List.getElem?_set_ne hne]
    refine ⟨⟨hinv, ?_, h.le, ?_, h.accepting, ?_, ?_, ?_, ?_⟩, hkN⟩
    · rw [Server.put, hexit]
      rfl
    · rw [Server.length_put, h.length]
    · obtain ⟨now, uninit, s, hnew, hwaiting⟩ := h.waiting
      exact ⟨now, uninit, s, hnew, (hsame hka.ne).trans hwaiting⟩
    · intro j hj
      obtain ⟨hprogram, hzero⟩ := h.later j hj
      refine ⟨hprogram, ?_⟩
      rw [Function.update_of_ne (lt_of_lt_of_le hka hj).ne']
      exact hzero
    · intro j hj
      rcases eq_or_ne k j with rfl | hne
      · refine ⟨senv, now, uninit, s, _, c', hconnected, hnew, hc, hrun', ?_⟩
        rw [List.length_append, hlength, Function.update_self]
        rfl
      · rw [Function.update_of_ne hne.symm, hsame hne]
        exact h.linked j hj
    · exact h.registered.put hc₀ ((h.inv.sessions k c₀ hc₀).closed_eq_false hpending) c'

@[simp] theorem link_update_self (k : Nat) (p : Program) (c : Conn) :
    ({ net with programs := Function.update net.programs k p } : Network).link k c =
      ⟨p.main, p.written, c⟩ := by
  simp [link]

theorem link_update_of_ne {j k : Nat} (hne : j ≠ k) (p : Program) (c : Conn) :
    ({ net with programs := Function.update net.programs k p } : Network).link j c = net.link j c := by
  simp [link, hne]

theorem Sound.program (hsends : ∀ k < N, Client.Sends (T k) .init (env k)) {a : Nat}
    {lengths : Nat → Nat} (h : Sound T T' env N net a lengths) {k : Nat} {m : Librtaio.Move}
    {c : Conn} {p : Program} (hk : k < N) (hc : net.server.sessions[k]? = some c)
    (hm : ∀ i, m ≠ .session i)
    (hstep : Link.Carries (T k) T' (env k) (net.link k c) m ⟨p.main, p.written, c⟩) :
    Sound T T' env N { net with programs := Function.update net.programs k p } a
        (Function.update lengths k (lengths k + 1)) := by
  have hka : k < a := by
    have hlt := (List.getElem?_eq_some_iff.mp hc).1
    rw [h.length] at hlt
    rcases Nat.lt_or_eq_of_le (Nat.le_of_lt_succ hlt) with hlt | rfl
    · exact hlt
    · -- the connection was not accepted yet
      obtain ⟨now, uninit, s, -, hwaiting⟩ := h.waiting
      obtain rfl : c = .accepted s := Option.some.inj (hc.symm.trans hwaiting)
      have hmain : (net.link k (.accepted s)).main = .connecting :=
        congrArg Program.main (h.later k le_rfl).1
      exact absurd hstep (Link.not_carries_of_silent (hsends k hk) hmain rfl rfl rfl hm)
  obtain ⟨senv, now, uninit, s, log', c₁, hconnected, hnew, hc₁, hrun, hlength⟩ := h.linked k hka
  obtain rfl : c = c₁ := Option.some.inj (hc.symm.trans hc₁)
  refine ⟨h.inv, h.running, h.le, h.length, h.accepting, h.waiting, ?_, ?_, h.registered⟩
  · intro j hj
    have hne := (lt_of_lt_of_le hka hj).ne'
    dsimp only
    rw [Function.update_of_ne hne, Function.update_of_ne hne]
    exact h.later j hj
  · intro j hj
    rcases eq_or_ne j k with rfl | hne
    · refine ⟨senv, now, uninit, s, log' ++ [(net.link j c, m)], c, hconnected, hnew, hc, ?_, ?_⟩
      · rw [link_update_self]
        exact hrun.snoc hstep
      · rw [List.length_append, hlength, Function.update_self]
        rfl
    · simp only [Function.update_of_ne hne, link_update_of_ne hne]
      exact h.linked j hj

theorem Sound.accepted {a : Nat} {lengths : Nat → Nat} (h : Sound T T' env N net a lengths)
    {k : Nat} {now : Int} {s : Session} {srv : Server} (hk : k < N)
    (hstep : Server.Step T' net.server (.accepted k false ⟨now, true⟩ s) srv) :
    Sound T T' env N { net with server := srv } (a + 1) lengths := by
  have hinv := h.inv.step hstep
  cases hstep with
  | accepted k error senv s c hrunning haccepting hc hnew =>
    obtain ⟨haccept, now', uninit, s', hnew', rfl⟩ := h.inv.of_accepting haccepting hc
    obtain rfl : a = k := by
      rw [h.accepting] at haccept
      exact (List.cons.inj haccept).1
    have hconnected : (Env.mk now true).connected = true := rfl
    set srv₀ : Server := { net.server with accepting := net.server.accepting.erase a } with hsrv₀
    have hc₀ : srv₀.sessions[a]? = some (.accepted s') := hc
    have hservice : (srv₀.put a (.started ⟨now, true⟩ s')).service = .running :=
      (Server.service_started hnew' a ⟨now, true⟩).mpr hconnected
    have hleft : net.server.handleAccept a (.accepted s') false ⟨now, true⟩ s =
        (srv₀.put a (.started ⟨now, true⟩ s')).accept s := if_pos hservice
    have hlength : (srv₀.put a (.started ⟨now, true⟩ s')).sessions.length = a + 1 := by
      rw [Server.length_put]
      exact h.length
    have hkeep {j : Nat} (hj : j < a + 1) :
        ((srv₀.put a (.started ⟨now, true⟩ s')).accept s).sessions[j]? =
          (srv₀.put a (.started ⟨now, true⟩ s')).sessions[j]? :=
      List.getElem?_append_left (by rw [hlength]; exact hj)
    have hstarted : ((srv₀.put a (.started ⟨now, true⟩ s')).accept s).sessions[a]? =
        some (.started ⟨now, true⟩ s') :=
      (hkeep a.lt_succ_self).trans (Server.put_getElem? hc₀)
    have hregistered : srv₀.HoldsOpen := ⟨h.registered.nodup, h.registered.mem_iff⟩
    obtain ⟨now₁, uninit₁, hnew⟩ := hnew
    rw [hleft] at hinv ⊢
    refine ⟨hinv, hservice, hk, ?_, ?_, ?_, ?_, ?_, (hregistered.put hc₀ rfl _).accept s⟩
    · change (_ ++ [_]).length = _
      rw [List.length_append, hlength]
      rfl
    · have herase : net.server.accepting.erase a = [] := by simp [haccept]
      change net.server.accepting.erase a ++ [_] = _
      rw [herase, hlength]
      rfl
    · refine ⟨now₁, uninit₁, s, hnew, ?_⟩
      change (_ ++ [_])[a + 1]? = _
      rw [← hlength, List.getElem?_append_right le_rfl, Nat.sub_self]
      rfl
    · exact fun j hj => h.later j ((Nat.le_succ a).trans hj)
    · intro j hj
      rcases Nat.lt_or_eq_of_le (Nat.le_of_lt_succ hj) with hlt | rfl
      · have hsame : ((srv₀.put a (.started ⟨now, true⟩ s')).accept s).sessions[j]? =
            net.server.sessions[j]? := by
          rw [hkeep hj, Server.sessions_put, List.getElem?_set_ne hlt.ne']
        dsimp only
        rw [hsame]
        exact h.linked j hlt
      · obtain ⟨hprogram, hzero⟩ := h.later j le_rfl
        refine ⟨⟨now, true⟩, now', uninit, s', [], _, hconnected, hnew', hstarted, ?_, hzero.symm⟩
        rw [link, hprogram]
        exact .nil

/-- **Each step** is one of a connection, or brings a new one. -/
theorem Sound.step (hsends : ∀ k < N, Client.Sends (T k) .init (env k)) {a : Nat}
    {lengths : Nat → Nat} (h : Sound T T' env N net a lengths) (hstep : Carries T T' env N net m net') :
    ∃ a' lengths', Sound T T' env N net' a' lengths' ∧
      a' + ∑ j ∈ Finset.range N, lengths' j = a + ∑ j ∈ Finset.range N, lengths j + 1 := by
  cases hstep with
  | accepted k now s srv hk hstep =>
    exact ⟨a + 1, lengths, h.accepted hk hstep, by omega⟩
  | session k i c srv hstep hc hsent hcomplete =>
    obtain ⟨hnext, hk⟩ := h.session hsends hstep hc hsent hcomplete
    exact ⟨a, _, hnext, by rw [sum_update hk, Nat.add_assoc]⟩
  | program k m c p hk hc hm hstep =>
    exact ⟨a, _, h.program hsends hk hc hm hstep, by rw [sum_update hk, Nat.add_assoc]⟩

section Runs

variable {now : Int} {uninit : Fin (FIELD_BMARK + 3) → Field} {s : Session}

/-- The runs of the connections within a run of the network, side by side. -/
theorem sound_run (hsends : ∀ k < N, Client.Sends (T k) .init (env k))
    (hnew : newSession now uninit = .ok s)
    (hrun : Run (Carries T T' env N) (start T env s) log net) :
    ∃ a lengths, Sound T T' env N net a lengths ∧
      log.length = a + ∑ j ∈ Finset.range N, lengths j := by
  induction hrun with
  | nil => exact ⟨0, _, .start T T' env N hnew, by simp⟩
  | @snoc log t u m hrun hstep ih =>
    obtain ⟨a, lengths, hsound, hlength⟩ := ih
    obtain ⟨a', lengths', hsound', hsum⟩ := hsound.step hsends hstep
    refine ⟨a', lengths', hsound', ?_⟩
    rw [List.length_append, List.length_singleton, hlength, hsum]

/-- A connection takes at most eight steps, its acceptance included. -/
theorem length_le (hsends : ∀ k < N, Client.Sends (T k) .init (env k))
    (hnew : newSession now uninit = .ok s)
    (hrun : Run (Carries T T' env N) (start T env s) log net) : log.length ≤ 8 * N := by
  obtain ⟨a, lengths, hsound, hlength⟩ := sound_run hsends hnew hrun
  have hle : ∑ j ∈ Finset.range N, lengths j ≤ (Finset.range N).card • 7 := by
    apply Finset.sum_le_card_nsmul
    intro j hj
    rcases Nat.lt_or_ge j a with hlt | hge
    · obtain ⟨senv, now, uninit, s, log', c, hconnected, hnew, -, hrun, hlength⟩ := hsound.linked j hlt
      rw [← hlength]
      exact Link.length_le (hsends j (Finset.mem_range.mp hj)) hnew hconnected hrun
    · rw [(hsound.later j hge).2]
      exact Nat.zero_le 7
  have ha := hsound.le
  rw [Finset.card_range] at hle
  change _ ≤ N * 7 at hle
  omega

/-- All the programs were served, and the server waits for another. -/
structure Served (T' : Target) (env : Nat → Connecting) (N : Nat) (net : Network) : Prop where
  running : net.server.service = .running
  accepting : net.server.accepting = [N]
  registered : net.server.handlers.Nodup ∧ ∀ k, k ∈ net.server.handlers ↔ k = N
  concluded : ∀ k < N, ∃ c, net.server.sessions[k]? = some c ∧ (net.link k c).Concluded T' (env k)

/-- What a connection can do, the network can do. -/
theorem Sound.carries {a : Nat} {lengths : Nat → Nat} (h : Sound T T' env N net a lengths) {k : Nat}
    (hk : k < N) {c : Conn} (hc : net.server.sessions[k]? = some c) {m : Librtaio.Move} {l : Link}
    (hstep : Link.Carries (T k) T' (env k) (net.link k c) m l) :
    ∃ m net', Carries T T' env N net m net' := by
  have hprogram (main : Main) (written : List UInt8) (hm : ∀ i, m ≠ .session i)
      (hstep : Link.Carries (T k) T' (env k) (net.link k c) m ⟨main, written, c⟩) :
      ∃ m net', Carries T T' env N net m net' :=
    ⟨_, _, .program k m c ⟨main, written⟩ hk hc hm hstep⟩
  cases hstep.step with
  | session i c' hnext hsent =>
    exact ⟨_, _, .session k i c' _ (.session k i c c' h.running hc hnext) (Server.put_getElem? hc)
      hsent (hstep.complete i rfl)⟩
  | returns bs hmain harrived hends =>
    refine hprogram _ _ ?_ hstep
    intro i hi
    cases hi
  | disconnects now write c' hmain =>
    refine hprogram _ _ ?_ hstep
    intro i hi
    cases hi

theorem served_of_stuck (hsends : ∀ k < N, Client.Sends (T k) .init (env k))
    (hnew : newSession now uninit = .ok s)
    (hrun : Run (Carries T T' env N) (start T env s) log net)
    (hstuck : ∀ m net', ¬ Carries T T' env N net m net') : Served T' env N net := by
  obtain ⟨a, lengths, hsound, -⟩ := sound_run hsends hnew hrun
  obtain ⟨now', uninit', s', -, hwaiting⟩ := hsound.waiting
  obtain rfl : a = N := by
    refine (Nat.lt_or_eq_of_le hsound.le).resolve_left fun hlt => ?_
    -- else the next program would be accepted
    have haccepting : a ∈ net.server.accepting := by simp [hsound.accepting]
    have hstep : Server.Step T' net.server (.accepted a false ⟨0, true⟩ Server.fresh) _ :=
      .accepted a false ⟨0, true⟩ Server.fresh _ hsound.running haccepting hwaiting
        ⟨0, _, newSession_eq 0 _⟩
    exact hstuck _ _ (.accepted a 0 Server.fresh _ hlt hstep)
  have hconcluded (k : Nat) (hk : k < a) :
      ∃ c, net.server.sessions[k]? = some c ∧ (net.link k c).Concluded T' (env k) := by
    obtain ⟨senv, now, uninit, s, log', c, hconnected, hnew, hc, hrun', -⟩ := hsound.linked k hk
    refine ⟨c, hc, Link.concluded_of_stuck (hsends k hk) hnew hconnected hrun' ?_⟩
    intro m l hstep
    obtain ⟨m', net', hnext⟩ := hsound.carries hk hc hstep
    exact hstuck m' net' hnext
  refine ⟨hsound.running, hsound.accepting, ⟨hsound.registered.nodup, fun k => ?_⟩, hconcluded⟩
  rw [hsound.registered.mem_iff]
  constructor
  · rintro ⟨c, hc, hopen⟩
    have hlt := (List.getElem?_eq_some_iff.mp hc).1
    rw [hsound.length] at hlt
    refine (Nat.lt_or_eq_of_le (Nat.le_of_lt_succ hlt)).resolve_left fun hk => ?_
    obtain ⟨c', hc', hdone⟩ := hconcluded k hk
    cases hc.symm.trans hc'
    cases hopen.symm.trans hdone.closed
  · rintro rfl
    exact ⟨_, hwaiting, rfl⟩

/-- **Service.** However the steps of any number of programs and of the server come about, there are
at most eight for each program; once there are no more, every program has connected and
disconnected, its session has reported it once by the names in its buffers, answered it once and
closed, and the server has just the object left that waits for another. -/
theorem serves_all (hsends : ∀ k < N, Client.Sends (T k) .init (env k))
    (hnew : newSession now uninit = .ok s)
    (hrun : Run (Carries T T' env N) (start T env s) log net) :
    log.length ≤ 8 * N ∧ ((∀ m net', ¬ Carries T T' env N net m net') → Served T' env N net) :=
  ⟨length_le hsends hnew hrun, served_of_stuck hsends hnew hrun⟩

theorem serves_all_three : ∃ (log : List (Network × Move)) (net : Network),
    log.length ≤ 24 ∧ Served (.build .big) (fun _ => Client.connecting []) 3 net := by
  have hsends (k : Nat) (_ : k < 3) : Client.Sends (.build .little) .init (Client.connecting []) :=
    Client.connecting_sends []
  have hnew : newSession 0 (fun _ => ⟨0, 0, 0, none, 0⟩) = .ok Server.fresh := newSession_eq 0 _
  obtain ⟨log, net, hrun, hstuck⟩ := Run.exists_stuck fun log net
    (hrun : Run (Carries (fun _ => .build .little) (.build .big) (fun _ => Client.connecting []) 3)
      (start (fun _ => .build .little) (fun _ => Client.connecting []) Server.fresh) log net) =>
    length_le hsends hnew hrun
  have hserves := serves_all hsends hnew hrun
  exact ⟨log, net, hserves.1, hserves.2 hstuck⟩

end Runs

end Network

end Librtaio
