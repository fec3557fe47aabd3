import Librtaio.Network
import Librtaio.SessionFailures

/-!
# Many clients and the server, when anything fails

The server's accepts, reads and writes fail, its peers are lost, and it may be stopped or go down, at
any time; the programs' requests are written whole, and their reads return all they ask for. A session
still says nothing but what its own program has asked for, and that once; and a program takes itself
for connected only if its session has reported it.
-/

namespace Librtaio

open Transition

namespace Network

/-- The steps of any number of programs and a server. -/
inductive Step (T : Nat → Target) (T' : Target) (env : Nat → Connecting) (net : Network) :
    Move → Network → Prop where
  | server (d : Server.Delivery) (srv : Server) (hstep : Server.Step T' net.server d srv)
      (hsent : ∀ k i c, d = .session k i → srv.sessions[k]? = some c →
        received c.trace <+: (net.programs k).written) :
      Step T T' env net (.server d) { net with server := srv }
  | program (k : Nat) (m : Librtaio.Move) (c : Conn) (p : Program)
      (hc : net.server.sessions[k]? = some c) (hm : ∀ i, m ≠ .session i)
      (hstep : Link.Step (T k) T' (env k) (net.link k c) m ⟨p.main, p.written, c⟩) :
      Step T T' env net (.program k m)
        { net with programs := Function.update net.programs k p }
  /-- With the server its connections go; what has arrived before is read. -/
  | lost (k : Nat) (bs : List UInt8) (hdown : net.server.service ≠ .running)
      (hmain : (net.programs k).main = .connecting)
      (harrived : ∀ c, net.server.sessions[k]? = some c → bs <+: bytesSent c.trace)
      (hnone : net.server.sessions[k]? = none → bs = []) :
      Step T T' env net (.program k (.returns bs))
        { net with
          programs := Function.update net.programs k
            ⟨.after (Client.connect (T k) ((env k).answered bs) .init), (net.programs k).written⟩ }

end Network

/-! ### The past of an object -/

def Visit.Unbroken (v : Visit) : Prop := ∀ i, v = .session i → i.Unbroken

namespace Conn

variable {T : Target} {c c' : Conn} {v : Visit} {s : Session} {log : List (Conn × Visit)}

/-- Nothing was received for it yet, or it was started, and no header and no body took a third
piece. -/
inductive Past (T : Target) (c : Conn) : Prop where
  | silent (htrace : c.trace = []) (hpending : c.pending = [])
  | started (now : Int) (uninit : Fin (FIELD_BMARK + 3) → Field) (s : Session) (env : Env)
      (log : List (Conn × Label)) (hnew : newSession now uninit = .ok s)
      (hrun : Run (Step T) (.started env s) log c) (hunbroken : Meets (fun _ i => i.Unbroken) log)

theorem Past.life (h : c.Past T) (hlives : c.Lives) (hlife : Life T c v c') (hv : Visit.Unbroken v) :
    c'.Past T := by
  cases hlife with
  | started s env =>
    obtain ⟨now, uninit, hnew⟩ := hlives.constructed
    exact .started now uninit s env [] hnew .nil (meets_nil _)
  | dropped s env => exact .silent rfl rfl
  | session c i c' hstep =>
    cases h with
    | silent htrace hpending => exact absurd hstep.pending (by simp [hpending])
    | started now uninit s env log hnew hrun hunbroken =>
      exact .started now uninit s env _ hnew (hrun.snoc hstep)
        ((meets_append _ _ _).mpr ⟨hunbroken, (meets_singleton _ _ _).mpr (hv i rfl)⟩)

theorem Past.speech (h : c.Past T) : Speech T (spoken c.trace) := by
  cases h with
  | silent htrace hpending =>
    rw [htrace]
    exact .nil
  | started now uninit s env log hnew hrun hunbroken => exact speech_run hnew hrun

theorem Past.answers {tr : Traffic} (h : c.Past T) (hsent : received c.trace <+: tr.bytes) :
    tr.Answers c := by
  cases h with
  | silent htrace hpending =>
    refine ⟨[], List.nil_prefix, List.nil_prefix, ?_⟩
    rw [htrace]
    exact .nil
  | started now uninit s env log hnew hrun hunbroken =>
    exact (Traffic.progress_run hnew hrun hunbroken hsent).answers

end Conn

/-! ### The program's side -/

namespace Link

variable {T T' : Target} {env : Connecting} {r : ConnectRequest} {l l' : Link} {m : Move} {c : Conn}
  {down down' : Prop}

/-- What a program has written, and what that tells of its session, while the server is there or is
down. -/
inductive Account (T T' : Target) (r : ConnectRequest) (down : Prop) (l : Link) : Prop where
  | connecting (hmain : l.main = .connecting) (hwritten : l.written = r.packet)
  | connected (hmain : l.main = .connected (Client.requested r.packet))
      (hwritten : l.written = r.packet) (hgreeted : l.Greeted T')
  | disconnected (now : Int) (part : List UInt8) (hmain : l.main = .finished)
      (hwritten : l.written = r.packet ++ part) (hpart : part <+: (DisconnectRequest.mk T now).packet)
      (hgreeted : l.Greeted T')
  | broken (hmain : l.main = .finished) (hwritten : l.written = r.packet)
      (hended : l.session.closed = true ∨ l.session.exit ≠ none ∨ down)

theorem Greeted.later (h : l.Greeted T') (htrace : l.session.trace <+: c.trace) :
    Greeted T' { l with session := c } := by
  obtain ⟨clientname, clientprocess, now, rest, hspoken⟩ := h
  obtain ⟨events, hevents⟩ := htrace
  refine ⟨clientname, clientprocess, now, rest ++ spoken events, ?_⟩
  change spoken c.trace = _
  rw [← hevents, spoken_append, hspoken]
  rfl

theorem Account.mono (h : l.Account T T' r down) (hdown : down → down') : l.Account T T' r down' := by
  cases h with
  | connecting hmain hwritten => exact .connecting hmain hwritten
  | connected hmain hwritten hgreeted => exact .connected hmain hwritten hgreeted
  | disconnected now part hmain hwritten hpart hgreeted =>
    exact .disconnected now part hmain hwritten hpart hgreeted
  | broken hmain hwritten hended => exact .broken hmain hwritten (hended.imp_right (.imp_right hdown))

/-- The session goes on. -/
theorem Account.life (h : l.Account T T' r down) (hup : ¬ down) (hinv : l.session.Inv) {v : Visit}
    (hlife : Life T' l.session v c) : Account T T' r down { l with session := c } := by
  cases h with
  | connecting hmain hwritten => exact .connecting hmain hwritten
  | connected hmain hwritten hgreeted =>
    exact .connected hmain hwritten (hgreeted.later hlife.trace)
  | disconnected now part hmain hwritten hpart hgreeted =>
    exact .disconnected now part hmain hwritten hpart (hgreeted.later hlife.trace)
  | broken hmain hwritten hended =>
    -- nothing is delivered to a session that has ended
    exfalso
    generalize l.session = session at hinv hlife hended
    cases hlife with
    | started s env => simp [Conn.accepted, hup] at hended
    | dropped s env => simp [Conn.accepted, hup] at hended
    | session c i c' hstep =>
      rcases hended with hclosed | hexit | hdown
      · exact absurd hstep.pending (by simp [hinv.closed hclosed])
      · exact hexit hstep.returned
      · exact hup hdown

/-- `connect` returns, or throws. -/
theorem Account.returned (h : l.Account T T' r down) (hsends : Client.Sends T .init env)
    (hr : r = Client.connectRequest T env hsends.named)
    (hspeech : Speech T' (spoken l.session.trace)) {bs : List UInt8} (hmain : l.main = .connecting)
    (harrived : bs <+: bytesSent l.session.trace)
    (hends : (∃ code, (Client.connect T (env.answered bs) .init).1 = .ok code) ∨
      l.session.closed = true ∨ l.session.exit ≠ none ∨ down) :
    Account T T' r down { l with main := .after (Client.connect T (env.answered bs) .init) } := by
  cases h with
  | connecting _ hwritten =>
    rcases connect_answered hsends hspeech harrived with hthrown | ⟨hok, hgreeted⟩
    · exact .broken (Main.after_error hthrown) hwritten
        (hends.resolve_left fun ⟨code, hcode⟩ => by cases hthrown.symm.trans hcode)
    · refine .connected ?_ hwritten hgreeted
      dsimp only
      rw [Main.after_zero hok, hsends.connect_run, hr]
  | connected hmain' hwritten hgreeted => cases hmain'.symm.trans hmain
  | disconnected now part hmain' hwritten hpart hgreeted => cases hmain'.symm.trans hmain
  | broken hmain' hwritten hended => cases hmain'.symm.trans hmain

/-- The program goes on. -/
theorem Account.program (h : l.Account T T' r down) (hsends : Client.Sends T .init env)
    (hr : r = Client.connectRequest T env hsends.named)
    (hspeech : Speech T' (spoken l.session.trace)) (hm : ∀ i, m ≠ .session i)
    (hstep : Step T T' env l m l') : l'.Account T T' r down ∧ l.written <+: l'.written := by
  cases hstep with
  | session i c hstep hsent => exact absurd rfl (hm i)
  | returns bs hmain harrived hends =>
    have hended := hends.imp_right (Or.imp_right (Or.inl (b := down)))
    exact ⟨h.returned hsends hr hspeech hmain harrived hended, List.prefix_refl _⟩
  | disconnects now write c hmain =>
    cases h with
    | connecting hmain' hwritten => cases hmain'.symm.trans hmain
    | connected hmain' hwritten hgreeted =>
      cases hmain'.symm.trans hmain
      obtain ⟨packet, hpacket, hrun⟩ := Client.disconnect_run T now write (Client.requested r.packet)
      have hleft : (Client.disconnect T now write (Client.requested r.packet)).2.written =
          r.packet ++ (Client.requested r.packet).part packet write := by
        rw [hrun]
        rfl
      refine ⟨.disconnected now _ rfl hleft ?_ hgreeted, ?_⟩
      · rw [hpacket]
        exact Client.part_isPrefix _ _ _
      · rw [hwritten]
        exact hleft ▸ List.prefix_append _ _
    | disconnected now part hmain' hwritten hpart hgreeted => cases hmain'.symm.trans hmain
    | broken hmain' hwritten hended => cases hmain'.symm.trans hmain

end Link

/-! ### The network -/

theorem received_started {now : Int} {uninit : Fin (FIELD_BMARK + 3) → Field} {s : Session}
    (hnew : newSession now uninit = .ok s) (env : Env) : received (Conn.started env s).trace = [] := by
  rcases Conn.started_cases hnew env with h | ⟨w, -, h⟩ <;> rw [h] <;> rfl

namespace Network

variable {T : Nat → Target} {T' : Target} {env : Nat → Connecting} {r : Nat → ConnectRequest}
  {net net' : Network} {m : Move} {log : List (Network × Move)}

/-- What holds of the programs and of the objects their connections are accepted into. -/
structure Kept (T : Nat → Target) (T' : Target) (r : Nat → ConnectRequest) (net : Network) : Prop where
  inv : net.server.Inv
  alone : ∀ k, net.server.sessions[k]? = none → (net.programs k).written = (r k).packet ∧
    ((net.programs k).main = .connecting ∨ net.server.service ≠ .running)
  lives : ∀ (k : Nat) (c : Conn), net.server.sessions[k]? = some c → c.Lives
  past : ∀ (k : Nat) (c : Conn), net.server.sessions[k]? = some c → c.Past T'
  account : ∀ (k : Nat) (c : Conn), net.server.sessions[k]? = some c →
    (net.link k c).Account (T k) T' (r k) (net.server.service ≠ .running)
  sent : ∀ (k : Nat) (c : Conn), net.server.sessions[k]? = some c →
    received c.trace <+: (net.programs k).written

theorem Kept.start {now : Int} {uninit : Fin (FIELD_BMARK + 3) → Field} {s : Session}
    (T' : Target) (hnew : newSession now uninit = .ok s)
    (hsends : ∀ k, Client.Sends (T k) .init (env k)) :
    Kept T T' (fun k => Client.connectRequest (T k) (env k) (hsends k).named)
      (Network.start T env s) := by
  have hwritten (k : Nat) : (connecting (T k) (env k)).written =
      (Client.connectRequest (T k) (env k) (hsends k).named).packet := by
    rw [connecting, (hsends k).connect_run]
    rfl
  have hfirst {k : Nat} {c : Conn} (hc : (Network.start T env s).server.sessions[k]? = some c) :
      c = .accepted s := by
    change [Conn.accepted s][k]? = some c at hc
    rcases k with _ | k
    · exact (Option.some.inj hc).symm
    · cases hc
  refine ⟨.start hnew, fun k _ => ⟨hwritten k, .inl rfl⟩, ?_, ?_, ?_, ?_⟩
  · intro k c hc
    rw [hfirst hc]
    exact .accepted hnew
  · intro k c hc
    rw [hfirst hc]
    exact .silent rfl rfl
  · intro k c hc
    exact .connecting rfl (hwritten k)
  · intro k c hc
    rw [hfirst hc]
    exact List.nil_prefix

/-- Something is delivered to the server. -/
theorem Kept.server (h : net.Kept T T' r) {d : Server.Delivery} {srv : Server}
    (hstep : Server.Step T' net.server d srv)
    (hsent : ∀ k i c, d = .session k i → srv.sessions[k]? = some c →
      received c.trace <+: (net.programs k).written)
    (hunbroken : ∀ k i, d = .session k i → i.Unbroken) :
    Kept T T' r { net with server := srv } := by
  have hcomposed := hstep.composed h.inv
  have hnone {k : Nat} (hk : srv.sessions[k]? = none) : net.server.sessions[k]? = none := by
    rw [List.getElem?_eq_none_iff] at hk ⊢
    have hlength := hcomposed.length
    omega
  -- what is delivered to an object is split in two pieces at most
  have hvisit {k : Nat} {v : Visit} (hv : d.visit = some (k, v)) : v.Unbroken := by
    rintro i rfl
    cases d with
    | session j i' =>
      cases hv
      exact hunbroken _ _ rfl
    | accepted j error env s => cases hv
    | stop => cases hv
  have hrunning : ¬ net.server.service ≠ .running := not_not_intro hstep.running
  have halone {k : Nat} (hk : net.server.sessions[k]? = none) :
      (net.programs k).written = (r k).packet ∧ (net.programs k).main = .connecting :=
    ⟨(h.alone k hk).1, (h.alone k hk).2.resolve_right hrunning⟩
  refine ⟨h.inv.step hstep, fun k hk => ⟨(halone (hnone hk)).1, .inl (halone (hnone hk)).2⟩, ?_, ?_,
    ?_, ?_⟩
  · intro k c' hc'
    rcases hcomposed.cases hc' with ⟨-, hborn⟩ | ⟨c, hc, ⟨-, rfl⟩ | ⟨v, hv, hlife⟩⟩
    · obtain ⟨now, uninit, s, hnew, rfl⟩ := hstep.born hborn
      exact .accepted hnew
    · exact h.lives k c hc
    · exact (h.lives k c hc).step hlife
  · intro k c' hc'
    rcases hcomposed.cases hc' with ⟨-, hborn⟩ | ⟨c, hc, ⟨-, rfl⟩ | ⟨v, hv, hlife⟩⟩
    · obtain ⟨now, uninit, s, hnew, rfl⟩ := hstep.born hborn
      exact .silent rfl rfl
    · exact h.past k c hc
    · exact (h.past k c hc).life (h.lives k c hc) hlife (hvisit hv)
  · intro k c' hc'
    rcases hcomposed.cases hc' with ⟨hk, hborn⟩ | ⟨c, hc, ⟨-, rfl⟩ | ⟨v, hv, hlife⟩⟩
    · obtain ⟨hwritten, hmain⟩ := halone hk
      exact .connecting hmain hwritten
    · exact (h.account k c hc).mono fun hdown => absurd hdown hrunning
    · exact ((h.account k c hc).life hrunning (h.lives k c hc).inv hlife).mono
        fun hdown => absurd hdown hrunning
  · intro k c' hc'
    rcases hcomposed.cases hc' with ⟨-, hborn⟩ | ⟨c, hc, ⟨-, rfl⟩ | ⟨v, hv, hlife⟩⟩
    · obtain ⟨now, uninit, s, hnew, rfl⟩ := hstep.born hborn
      exact List.nil_prefix
    · exact h.sent k c hc
    · have hlives := h.lives k c hc
      cases hlife with
      | started s env =>
        obtain ⟨now, uninit, hnew⟩ := hlives.constructed
        rw [received_started hnew]
        exact List.nil_prefix
      | dropped s env => exact List.nil_prefix
      | session c i c' hlast =>
        refine hsent k i c' ?_ hc'
        cases d with
        | session j i' =>
          cases hv
          rfl
        | accepted j error env s => cases hv
        | stop => cases hv

/-- A program goes on, or its connection is lost with the server. -/
theorem Kept.update (h : net.Kept T T' r) {k : Nat} {p : Program}
    (halone : net.server.sessions[k]? = none → p.written = (r k).packet ∧
      (p.main = .connecting ∨ net.server.service ≠ .running))
    (haccount : ∀ c, net.server.sessions[k]? = some c →
      Link.Account (T k) T' (r k) (net.server.service ≠ .running) ⟨p.main, p.written, c⟩)
    (hgrows : (net.programs k).written <+: p.written) :
    Kept T T' r { net with programs := Function.update net.programs k p } := by
  refine ⟨h.inv, ?_, h.lives, h.past, ?_, ?_⟩
  · intro j hj
    rcases eq_or_ne j k with rfl | hne
    · dsimp only
      rw [Function.update_self]
      exact halone hj
    · dsimp only
      rw [Function.update_of_ne hne]
      exact h.alone j hj
  · intro j c hc
    rcases eq_or_ne j k with rfl | hne
    · rw [link_update_self]
      exact haccount c hc
    · rw [link_update_of_ne hne]
      exact h.account j c hc
  · intro j c hc
    rcases eq_or_ne j k with rfl | hne
    · dsimp only
      rw [Function.update_self]
      exact (h.sent j c hc).trans hgrows
    · dsimp only
      rw [Function.update_of_ne hne]
      exact h.sent j c hc

theorem Kept.program (h : net.Kept T T' r) {k : Nat} {m : Librtaio.Move} {c : Conn} {p : Program}
    (hsends : Client.Sends (T k) .init (env k))
    (hr : r k = Client.connectRequest (T k) (env k) hsends.named)
    (hc : net.server.sessions[k]? = some c) (hm : ∀ i, m ≠ .session i)
    (hstep : Link.Step (T k) T' (env k) (net.link k c) m ⟨p.main, p.written, c⟩) :
    Kept T T' r { net with programs := Function.update net.programs k p } := by
  obtain ⟨haccount, hgrows⟩ := (h.account k c hc).program hsends hr (h.past k c hc).speech hm hstep
  refine h.update (fun hnone => ?_) (fun c' hc' => ?_) hgrows
  · cases hnone.symm.trans hc
  · cases hc'.symm.trans hc
    exact haccount

theorem Kept.lost (h : net.Kept T T' r) {k : Nat} {bs : List UInt8}
    (hsends : Client.Sends (T k) .init (env k))
    (hr : r k = Client.connectRequest (T k) (env k) hsends.named)
    (hdown : net.server.service ≠ .running) (hmain : (net.programs k).main = .connecting)
    (harrived : ∀ c, net.server.sessions[k]? = some c → bs <+: bytesSent c.trace) :
    Kept T T' r { net with
      programs := Function.update net.programs k
        ⟨.after (Client.connect (T k) ((env k).answered bs) .init), (net.programs k).written⟩ } := by
  refine h.update (fun hnone => ⟨(h.alone k hnone).1, .inr hdown⟩) (fun c hc => ?_)
    (List.prefix_refl _)
  exact (h.account k c hc).returned hsends hr (h.past k c hc).speech hmain (harrived c hc)
    (.inr (.inr (.inr hdown)))

section Runs

variable {now : Int} {uninit : Fin (FIELD_BMARK + 3) → Field} {s : Session}

/-- No header and no body takes a third piece. -/
def Move.Unbroken (m : Move) : Prop := ∀ k i, m = .server (.session k i) → i.Unbroken

/-- The steps in which every operation completes whole are among these. -/
theorem Carries.step {N : Nat} (h : Carries T T' env N net m net') :
    Step T T' env net m net' ∧ m.Unbroken := by
  cases h with
  | accepted k now s srv hk hstep =>
    refine ⟨.server _ srv hstep ?_, ?_⟩
    · intro k i c hd
      cases hd
    · intro k i hm
      cases hm
  | session k i c srv hstep hc hsent hcomplete =>
    refine ⟨.server _ srv hstep ?_, ?_⟩
    · intro k' i' c' hd hc'
      cases hd
      cases hc.symm.trans hc'
      exact hsent
    · intro k' i' hm
      cases hm
      exact hcomplete.whole.unbroken
  | program k m c p hk hc hm hstep =>
    refine ⟨.program k m c p hc hm hstep.step, ?_⟩
    intro k' i hm'
    cases hm'

/-- What a session does by itself, it does in the network, if its program has written what it
receives. -/
theorem plays (net : Network) (T : Nat → Target) (T' : Target) (env : Nat → Connecting) {k : Nat}
    {c : Conn} {is : List Label} (hrunning : net.server.service = .running)
    (hc : net.server.sessions[k]? = some c) (hplay : c.Playable T' is)
    (hreturned : (c.play T' is).2.exit = none)
    (hsent : received (c.play T' is).2.trace <+: (net.programs k).written)
    (hunbroken : Meets (fun _ i => i.Unbroken) (c.play T' is).1) :
    ∃ log srv, Run (Step T T' env) net log { net with server := srv } ∧
      Meets (fun _ m => m.Unbroken) log ∧ srv.service = .running ∧
      srv.sessions[k]? = some (c.play T' is).2 := by
  induction is generalizing net c with
  | nil => exact ⟨[], net.server, .nil, meets_nil _, hrunning, hc⟩
  | cons i is ih =>
    obtain ⟨hbefore, hpending, hvalid, hrest⟩ := hplay
    obtain ⟨hfirst, hlater⟩ : i.Unbroken ∧ Meets (fun _ i => i.Unbroken) ((c.complete T' i).play T' is).1 :=
      (meets_append _ [(c, i)] _).mp hunbroken |>.imp_left (meets_singleton _ _ _).mp
    have hexit : (c.complete T' i).exit = none := by
      cases is with
      | nil => exact hreturned
      | cons j is => exact hrest.1
    have hput : (net.server.put k (c.complete T' i)).sessions[k]? = some (c.complete T' i) :=
      Server.put_getElem? hc
    have hstep : Step T T' env net (.server (.session k i))
        { net with server := net.server.put k (c.complete T' i) } := by
      refine .server _ _ (.session k i c _ hrunning hc ⟨hbefore, hpending, hvalid, rfl⟩) ?_
      intro k' i' c' hd hc'
      cases hd
      cases hput.symm.trans hc'
      exact (received_run hrest.run).trans hsent
    obtain ⟨log, srv, hrun, hmeets, hdone⟩ := ih { net with server := net.server.put k (c.complete T' i) }
      (by rw [Server.put, hexit]; rfl) hput hrest hreturned hsent hlater
    refine ⟨_, srv, (Run.single hstep).trans hrun, (meets_append _ _ _).mpr ⟨?_, hmeets⟩, hdone⟩
    rw [meets_singleton]
    rintro k' i' hm
    cases hm
    exact hfirst

/-- `connect` returns, or throws. -/
theorem Step.returns {k : Nat} {c : Conn} {bs : List UInt8} (hc : net.server.sessions[k]? = some c)
    (hmain : (net.programs k).main = .connecting) (harrived : bs <+: bytesSent c.trace)
    (hends : (∃ code, (Client.connect (T k) ((env k).answered bs) .init).1 = .ok code) ∨
      c.closed = true ∨ c.exit ≠ none) :
    Step T T' env net (.program k (.returns bs))
      { net with
        programs := Function.update net.programs k
          ⟨.after (Client.connect (T k) ((env k).answered bs) .init), (net.programs k).written⟩ } := by
  refine .program k _ c _ hc ?_ (.returns bs hmain harrived hends)
  intro i hi
  cases hi

theorem Step.disconnects {k : Nat} {c : Conn} {client : Client}
    (hc : net.server.sessions[k]? = some c) (hmain : (net.programs k).main = .connected client)
    (now : Int) (write : WriteSome) :
    Step T T' env net (.program k (.disconnects now write))
      { net with
        programs := Function.update net.programs k
          ⟨.finished, (Client.disconnect (T k) now write client).2.written⟩ } := by
  refine .program k _ c _ hc ?_ (.disconnects now write client hmain)
  intro i hi
  cases hi

end Runs

end Network

end Librtaio
