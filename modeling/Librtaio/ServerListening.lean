import Librtaio.ServerService

/-!
# Whether the server keeps listening

A connection is accepted into a handler that was made for it, and the next
`async_accept` is started when one completes. `handle_accept` does so where the
accept succeeded; where it failed the handler is removed and nothing is started
in its place, so that a server that goes on running accepts no more clients.
-/

namespace Librtaio

open Transition

namespace Server

variable {T : Target} {srv srv' : Server} {d : Delivery} {log : List (Server × Delivery)}

/-- One `async_accept` is outstanding, into a registered handler that has nothing else in flight. -/
def Listening (srv : Server) : Prop :=
  ∃ k c, srv.accepting = [k] ∧ k ∈ srv.handlers ∧ srv.sessions[k]? = some c ∧ c.pending = []

/-- The handler that waits for a connection is registered. -/
structure Registered (srv : Server) : Prop extends Inv srv where
  registered : ∀ k ∈ srv.accepting, k ∈ srv.handlers

/-- Then the server listens as long as one waits. -/
theorem Registered.listening (h : srv.Registered) {k : Nat} (hk : k ∈ srv.accepting) :
    srv.Listening := by
  rcases h.accepting with hnone | ⟨j, hj, now, uninit, s, -, hsession⟩
  · rw [hnone] at hk
    cases hk
  · exact ⟨j, _, hj, h.registered j (by simp [hj]), hsession, rfl⟩

theorem not_listening_of_nil (h : srv.accepting = []) : ¬ srv.Listening := by
  rintro ⟨k, c, hk, -⟩
  cases h.symm.trans hk

theorem listening_accept (srv : Server) (s : Session) (hnone : srv.accepting = []) :
    (srv.accept s).Listening := by
  refine ⟨srv.sessions.length, .accepted s, ?_, ?_, ?_, rfl⟩
  · rw [accept, hnone, List.nil_append]
  · exact List.mem_append_right _ (List.mem_singleton_self _)
  · exact List.getElem?_concat_length

/-- What a handler that does not wait for a connection leaves. -/
theorem mem_handlers_put {j k : Nat} {c : Conn} (hne : j ≠ k) (hj : j ∈ srv.handlers) :
    j ∈ (srv.put k c).handlers := by
  cases hclosed : c.closed with
  | false => simpa [put, hclosed] using hj
  | true => simpa [put, hclosed] using (List.mem_erase_of_ne hne).mpr hj

/-- The handler of a session's completion does not wait for a connection. -/
theorem Inv.notMem_accepting (h : srv.Inv) {k : Nat} {i : Label} {c c' : Conn}
    (hc : srv.sessions[k]? = some c) (hstep : Librtaio.Step T c i c') : k ∉ srv.accepting := by
  intro hk
  obtain ⟨-, now, uninit, s, -, rfl⟩ := h.of_accepting hk hc
  exact absurd hstep.pending List.not_mem_nil

theorem Registered.step (h : srv.Registered) (hstep : Step T srv d srv') : srv'.Registered := by
  refine ⟨h.toInv.step hstep, ?_⟩
  cases hstep with
  | session k i c c' hrunning hc hstep =>
    intro j hj
    have hk := h.toInv.notMem_accepting hc hstep
    exact mem_handlers_put (fun hjk => hk (hjk ▸ hj)) (h.registered j hj)
  | accepted k error env s c hrunning haccepting hc hnew =>
    obtain ⟨hk, -⟩ := h.toInv.of_accepting haccepting hc
    have herase : srv.accepting.erase k = [] := by simp [hk]
    intro j hj
    cases error with
    | true =>
      change j ∈ srv.accepting.erase k at hj
      rw [herase] at hj
      cases hj
    | false =>
      simp only [handleAccept, Bool.not_false, if_true] at hj ⊢
      split at hj
      · next hservice =>
        obtain rfl : j = (srv.sessions.set k (.started env c.session)).length := by
          simpa [accept, put, herase] using hj
        rw [if_pos hservice]
        exact List.mem_append_right _ (List.mem_singleton_self _)
      · change j ∈ srv.accepting.erase k at hj
        rw [herase] at hj
        cases hj
  | stop hrunning => exact h.registered

theorem Registered.start {now : Int} {uninit : Fin (FIELD_BMARK + 3) → Field} {s : Session}
    (hnew : newSession now uninit = .ok s) : (Server.start s).Registered := by
  refine ⟨.start hnew, ?_⟩
  intro k hk
  exact hk

/-- An accept that completes brings a connection whose peer is still there. -/
def Connects : Delivery → Prop
  | .accepted _ error env _ => error = false ∧ env.connected = true
  | _ => True

theorem listening_step (h : srv.Registered) (hstep : Step T srv d srv') :
    srv'.Listening ↔ srv.Listening ∧ Connects d := by
  have hregistered := h.step hstep
  cases hstep with
  | session k i c c' hrunning hc hstep =>
    rw [and_iff_left (show Connects (.session k i) from trivial)]
    constructor
    · rintro ⟨j, cj, hj, -⟩
      exact h.listening (show j ∈ srv.accepting from hj ▸ List.mem_singleton_self j)
    · rintro ⟨j, cj, hj, -⟩
      exact hregistered.listening (show j ∈ srv.accepting from hj ▸ List.mem_singleton_self j)
  | accepted k error env s c hrunning haccepting hc hnew =>
    obtain ⟨hk, now, uninit, s', hnew', rfl⟩ := h.toInv.of_accepting haccepting hc
    have herase : srv.accepting.erase k = [] := by simp [hk]
    rw [and_iff_right (h.listening haccepting)]
    cases error with
    | true => exact iff_of_false (not_listening_of_nil herase) fun hconnects => by cases hconnects.1
    | false =>
      have hexit := exit_started hnew' env
      have hservice : Service.after (Conn.started env s').exit = .running ↔ env.connected = true := by
        rw [← hexit]
        rcases (Conn.started env s').exit with _ | _ | _ <;> simp [Service.after]
      rw [show Connects (.accepted k false env s) ↔ env.connected = true from and_iff_right rfl,
        ← hservice, handleAccept, Conn.accepted]
      simp only [Bool.not_false, if_true]
      split
      next hrun => exact iff_of_true (listening_accept _ s herase) hrun
      next hrun => exact iff_of_false (not_listening_of_nil herase) hrun
  | stop hrunning => exact (and_iff_left trivial).symm

/-- The accepts of a delivery succeed. -/
def Accepts (_ : Server) : Delivery → Prop
  | .accepted _ error _ _ => error = false
  | _ => True

/-- **Listening.** In a run without exceptions the server keeps listening exactly if no accept fails. -/
theorem listening_iff_accepts {now : Int} {uninit : Fin (FIELD_BMARK + 3) → Field} {s : Session}
    (hnew : newSession now uninit = .ok s) (hrun : Run (Step T) (.start s) log srv)
    (hserves : srv.Serves) : srv.Listening ↔ Meets Accepts log := by
  have hstart : (Server.start s).Listening := listening_accept _ s rfl
  have hconnects : srv.Listening ↔ Meets (fun _ => Connects) log :=
    hrun.good_iff (.start hnew) hstart .step listening_step
  have hharmless : Meets (Harmless T) log :=
    (hrun.good_iff (.start hnew) (.inl rfl) .step serves_step).mp hserves
  rw [hconnects]
  constructor
  · intro hall p hp
    have hp' := hall p hp
    cases hd : p.2 with
    | accepted k error env s => rw [hd] at hp'; exact hp'.1
    | session k i => trivial
    | stop => trivial
  · intro hall p hp
    have hp' := hall p hp
    have hpeer := hharmless p hp
    cases hd : p.2 with
    | accepted k error env s =>
      rw [hd] at hp' hpeer
      exact ⟨hp', hpeer hp'⟩
    | session k i => trivial
    | stop => trivial

/-- A client connects, and the header of its request is read. -/
theorem listening_connect :
    (connectedServer.put 0 (Conn.fresh.complete (.build .little)
      ⟨.read 0 32, .received (Conn.connectPacket.take 32), ⟨0, true⟩⟩)).Listening := by
  have hrun := (Run.single (connectedServer_step (.build .little))).snoc
    (.session 0 ⟨.read 0 32, .received (Conn.connectPacket.take 32), ⟨0, true⟩⟩ Conn.fresh
      (Conn.fresh.complete (.build .little) _) rfl rfl
      ⟨rfl, by decide, by decide +kernel, rfl⟩)
  refine (listening_iff_accepts (newSession_eq 0 _) hrun (.inl (by decide +kernel))).mpr ?_
  simp only [meets_append, meets_singleton, Accepts, and_self]

/-- The first accept fails, and no other one is started. -/
theorem accept_failed_deaf :
    ¬ ∀ (T : Target) (now : Int) (uninit : Fin (FIELD_BMARK + 3) → Field) (s : Session)
        (log : List (Server × Delivery)) (srv : Server), newSession now uninit = .ok s →
      Run (Step T) (.start s) log srv → srv.Serves → srv.Listening := by
  intro h
  have hrun : Run (Step (.build .little)) (.start fresh) _ _ :=
    .single (.accepted 0 true ⟨0, true⟩ fresh (.accepted fresh) rfl (by decide) rfl
      ⟨0, fun _ => ⟨0, 0, 0, none, 0⟩, newSession_eq _ _⟩)
  exact not_listening_of_nil rfl (h _ 0 _ _ _ _ (newSession_eq 0 _) hrun (.inl rfl))

end Server

end Librtaio
