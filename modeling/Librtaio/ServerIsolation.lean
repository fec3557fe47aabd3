import Librtaio.ServerService
import Librtaio.UnwrittenHeader

/-!
# The server is its sessions side by side

The sessions share a thread, an acceptor and a registry, but no data. A run of
the server is therefore one run for each of the objects that the acceptor
made, interleaved in some order, and what is delivered to an object decides
what becomes of it, whatever is delivered to the others, and whatever its
memory held.
-/

namespace Librtaio

open Transition

/-! ### The life of one object -/

/-- What is delivered to one object. -/
inductive Visit where
  | accepted (error : Bool) (env : Env)
  | session (i : Label)

/-- The steps of one object by itself. -/
inductive Life (T : Target) : Conn → Visit → Conn → Prop where
  | started (s : Session) (env : Env) :
      Life T (.accepted s) (.accepted false env) (.started env s)
  | dropped (s : Session) (env : Env) :
      Life T (.accepted s) (.accepted true env) { Conn.accepted s with closed := true }
  | session (c : Conn) (i : Label) (c' : Conn) (hstep : Step T c i c') : Life T c (.session i) c'

theorem Life.unique {T : Target} {c c₁ c₂ : Conn} {v : Visit} (h₁ : Life T c v c₁)
    (h₂ : Life T c v c₂) : c₁ = c₂ := by
  cases h₁ with
  | started s env =>
    cases h₂
    rfl
  | dropped s env =>
    cases h₂
    rfl
  | session c i c' hstep =>
    cases h₂ with
    | session c i c'' hstep' => rw [hstep.eq, hstep'.eq]

/-- Something was delivered to the object before. -/
def Conn.Visited (c : Conn) : Prop := c.trace ≠ [] ∨ c.exit ≠ none ∨ c.closed = true

theorem Conn.visited_started {now : Int} {uninit : Fin (FIELD_BMARK + 3) → Field} {s : Session}
    (hnew : newSession now uninit = .ok s) (env : Env) : (Conn.started env s).Visited := by
  rcases Conn.started_cases hnew env with h | ⟨w, -, h⟩
  · rw [h]
    exact .inr (.inl fun hexit => nomatch hexit)
  · rw [h]
    exact .inl (by simp)

/-- The past is kept. -/
theorem Step.visited {T : Target} {c c' : Conn} {i : Label} (h : Step T c i c') (hc : c.Visited)
    (hopen : c.closed = false) : c'.Visited := by
  rcases hc with htrace | hexit | hclosed
  · refine .inl ?_
    rw [h.eq]
    intro hnil
    exact htrace (List.append_eq_nil_iff.mp hnil).1
  · exact absurd h.returned hexit
  · cases hclosed.symm.trans hopen

/-- What holds of an object in every run of its life. -/
structure Conn.Lives (c : Conn) : Prop where
  inv : c.Inv
  fresh : c.Visited ∨ ∃ now uninit s, newSession now uninit = .ok s ∧ c = .accepted s

theorem Conn.Lives.constructed {s : Session} (h : (Conn.accepted s).Lives) :
    ∃ now uninit, newSession now uninit = .ok s := by
  rcases h.fresh with hvisited | ⟨now, uninit, s', hnew, hs'⟩
  · simp [Conn.Visited, Conn.accepted] at hvisited
  · obtain rfl : s = s' := congrArg Conn.session hs'
    exact ⟨now, uninit, hnew⟩

theorem Conn.Lives.step {T : Target} {c c' : Conn} {v : Visit} (h : c.Lives) (hlife : Life T c v c') :
    c'.Lives := by
  cases hlife with
  | started s env =>
    obtain ⟨now, uninit, hnew⟩ := h.constructed
    exact ⟨.started hnew env, .inl (Conn.visited_started hnew env)⟩
  | dropped s env => exact ⟨.of_nil rfl, .inl (.inr (.inr rfl))⟩
  | session c i c' hstep =>
    refine ⟨h.inv.step hstep, .inl ?_⟩
    rcases h.fresh with hvisited | ⟨now, uninit, s, -, rfl⟩
    · exact hstep.visited hvisited (h.inv.closed_eq_false (List.ne_nil_of_mem hstep.pending))
    · exact absurd hstep.pending List.not_mem_nil

theorem Conn.Lives.accepted {now : Int} {uninit : Fin (FIELD_BMARK + 3) → Field} {s : Session}
    (hnew : newSession now uninit = .ok s) : (Conn.accepted s).Lives :=
  ⟨.of_nil rfl, .inr ⟨now, uninit, s, hnew, rfl⟩⟩

/-- The past of an object is part of its trace. -/
theorem Life.trace {T : Target} {c c' : Conn} {v : Visit} (h : Life T c v c') :
    c.trace <+: c'.trace := by
  cases h with
  | started s env => exact List.nil_prefix
  | dropped s env => exact List.prefix_refl _
  | session c i c' hstep =>
    rw [hstep.eq]
    exact List.prefix_append _ _

theorem HeaderFirst.of_prefix {events later : List Event} (h : HeaderFirst later)
    (hearlier : events <+: later) : HeaderFirst events := by
  obtain ⟨rest, rfl⟩ := hearlier
  exact h.before

/-- **Two lives** with the same deliveries, in whatever memory. -/
theorem Life.alike {T : Target} {c₀ c₀' c c' : Conn} {log log' : List (Conn × Visit)}
    (h : Run (Life T) c₀ log c) (h' : Run (Life T) c₀' log' c') (hc₀ : c₀.Lives) (hc₀' : c₀'.Lives)
    (halike : c₀.Alike c₀') (hlabels : labels log = labels log') (hfirst : HeaderFirst c.trace) :
    c.Alike c' := by
  induction h generalizing log' c' with
  | nil =>
    cases h' with
    | nil => exact halike
    | snoc _ _ => simp at hlabels
  | @snoc log t u v hrun hlast ih =>
    cases h' with
    | nil => simp at hlabels
    | @snoc log' t' u' v' hrun' hlast' =>
      rw [labels_snoc, labels_snoc] at hlabels
      obtain ⟨hbefore, heq⟩ := List.append_inj' hlabels rfl
      cases heq
      have ht := ih hrun' hbefore (hfirst.of_prefix hlast.trace)
      have hlives := hrun.invariant hc₀ Conn.Lives.step
      have hlives' := hrun'.invariant hc₀' Conn.Lives.step
      cases hlast with
      | started s env =>
        cases hlast' with
        | started s' _ =>
          obtain ⟨now, uninit, hs⟩ := hlives.constructed
          obtain ⟨now', uninit', hs'⟩ := hlives'.constructed
          exact .started hs hs' env
      | dropped s env =>
        cases hlast' with
        | dropped s' _ => exact ⟨ht.session, ht.written, rfl, rfl, rfl, rfl⟩
      | session t i u hstep =>
        cases hlast' with
        | session t' _ u' hstep' =>
          rw [hstep'.eq]
          exact (ht.step hlives.inv hstep hfirst).2

namespace Server

variable {T : Target} {srv srv' : Server} {d : Delivery} {log : List (Server × Delivery)}

/-! ### Deliveries and objects -/

/-- Which object a delivery is for, and what it is to it. -/
def Delivery.visit : Delivery → Option (Nat × Visit)
  | .session k i => some (k, .session i)
  | .accepted k error env _ => some (k, .accepted error env)
  | .stop => none

/-- The object the acceptor makes for the next connection. -/
def Delivery.construct : Delivery → Option Conn
  | .accepted _ false ⟨_, true⟩ s => some (.accepted s)
  | _ => none

theorem construct_accepted {k : Nat} {error : Bool} {env : Env} {s : Session} {c : Conn}
    (h : (Delivery.accepted k error env s).construct = some c) : c = .accepted s := by
  obtain ⟨now, connected⟩ := env
  cases error with
  | true => cases h
  | false =>
    cases connected with
    | false => cases h
    | true => exact (Option.some.inj h).symm

theorem Step.running (h : Step T srv d srv') : srv.service = .running := by
  cases h with
  | session k i c c' hrunning hc hstep => exact hrunning
  | accepted k error env s c hrunning haccepting hc hnew => exact hrunning
  | stop hrunning => exact hrunning

/-- The object that a delivery brings about. -/
theorem Step.born {c : Conn} (h : Step T srv d srv') (hc : d.construct = some c) :
    ∃ now uninit s, newSession now uninit = .ok s ∧ c = .accepted s := by
  cases h with
  | session k i c₁ c₂ hrunning hc₁ hstep => cases hc
  | stop hrunning => cases hc
  | accepted k error env s c₁ hrunning haccepting hc₁ hnew =>
    obtain ⟨now, uninit, hnew⟩ := hnew
    exact ⟨now, uninit, s, hnew, construct_accepted hc⟩

theorem put_getElem? {k : Nat} {c c' : Conn} (hc : srv.sessions[k]? = some c) :
    (srv.put k c').sessions[k]? = some c' := by
  rw [sessions_put, List.getElem?_set_self (List.getElem?_eq_some_iff.mp hc).1]

theorem length_put (k : Nat) (c : Conn) : (srv.put k c).sessions.length = srv.sessions.length :=
  List.length_set

theorem service_started {now : Int} {uninit : Fin (FIELD_BMARK + 3) → Field} {s : Session}
    (hnew : newSession now uninit = .ok s) (k : Nat) (env : Env) :
    (srv.put k (.started env s)).service = .running ↔ env.connected = true := by
  rw [← exit_started hnew env, ← after_serves]
  refine ⟨.inl, fun h => h.resolve_right ?_⟩
  intro hstopped
  have hnot (exit : Option Exit) : Service.after exit ≠ .stopped := by
    rcases exit with _ | _ | _ <;> simp [Service.after]
  exact hnot _ hstopped

/-- **One delivery**, seen from the objects: a step of the one that it is for. -/
theorem Step.composed (h : srv.Inv) (hstep : Step T srv d srv') :
    Composed (Life T) Server.sessions Delivery.visit Delivery.construct srv d srv' := by
  cases hstep with
  | session k i c c' hrunning hc hstep =>
    refine ⟨length_put k c', ?_, ?_, ?_⟩
    · intro x hx
      cases hx
    · intro j x hx hother
      have hne : k ≠ j := fun hkj => hother (.session i) (by rw [← hkj]; rfl)
      exact sessions_put_ne hne hx
    · intro j v hv
      cases hv
      exact ⟨c, c', hc, .session c i c' hstep, put_getElem? hc⟩
  | accepted k error env s c hrunning haccepting hc hnew =>
    obtain ⟨-, now, uninit, s', hnew', rfl⟩ := h.of_accepting haccepting hc
    set srv₀ : Server := { srv with accepting := srv.accepting.erase k } with hsrv₀
    have hc₀ : srv₀.sessions[k]? = some (.accepted s') := hc
    have hne {j : Nat} (hother : ∀ v, (Delivery.accepted k error env s).visit ≠ some (j, v)) : k ≠ j :=
      fun hkj => hother (.accepted error env) (by rw [← hkj]; rfl)
    cases error with
    | true =>
      refine ⟨length_put k _, ?_, ?_, ?_⟩
      · intro x hx
        cases hx
      · intro j x hx hother
        have hx : srv₀.sessions[j]? = some x := hx
        exact sessions_put_ne (hne hother) hx
      · intro j v hv
        cases hv
        exact ⟨_, _, hc, .dropped s' env, put_getElem? hc₀⟩
    | false =>
      have hservice : (srv₀.put k (.started env s')).service = .running ↔ env.connected = true :=
        service_started hnew' k env
      have hleft : srv.handleAccept k (.accepted s') false env s =
          if (srv₀.put k (.started env s')).service = .running then
            (srv₀.put k (.started env s')).accept s
          else srv₀.put k (.started env s') := rfl
      obtain ⟨now₁, connected⟩ := env
      cases connected with
      | false =>
        rw [if_neg (fun hrun => Bool.false_ne_true (hservice.mp hrun))] at hleft
        rw [hleft]
        refine ⟨length_put k _, ?_, ?_, ?_⟩
        · intro x hx
          cases hx
        · intro j x hx hother
          have hx : srv₀.sessions[j]? = some x := hx
          exact sessions_put_ne (hne hother) hx
        · intro j v hv
          cases hv
          exact ⟨_, _, hc, .started s' _, put_getElem? hc₀⟩
      | true =>
        rw [if_pos (hservice.mpr rfl)] at hleft
        rw [hleft]
        have hlength : (srv₀.put k (.started ⟨now₁, true⟩ s')).sessions.length = srv.sessions.length :=
          length_put k _
        have hkeep {j : Nat} {x : Conn}
            (hx : (srv₀.put k (.started ⟨now₁, true⟩ s')).sessions[j]? = some x) :
            ((srv₀.put k (.started ⟨now₁, true⟩ s')).accept s).sessions[j]? = some x :=
          (List.getElem?_append_left (List.getElem?_eq_some_iff.mp hx).1).trans hx
        refine ⟨?_, ?_, ?_, ?_⟩
        · rw [Server.accept, List.length_append, hlength]
          rfl
        · intro x hx
          cases hx
          rw [← hlength, Server.accept, List.getElem?_append_right le_rfl, Nat.sub_self]
          rfl
        · intro j x hx hother
          have hx : srv₀.sessions[j]? = some x := hx
          exact hkeep (sessions_put_ne (hne hother) hx)
        · intro j v hv
          cases hv
          exact ⟨_, _, hc, .started s' _, hkeep (put_getElem? hc₀)⟩
  | stop hrunning =>
    refine ⟨rfl, ?_, fun _ _ hx _ => hx, ?_⟩
    · intro x hx
      cases hx
    · intro j v hv
      cases hv

/-! ### Which objects wait -/

/-- An object that nothing was delivered to waits for a connection. -/
def Waits (srv : Server) : Prop :=
  ∀ (k : Nat) (c : Conn), srv.sessions[k]? = some c → k ∈ srv.accepting ∨ c.Visited

theorem Waits.start (s : Session) : (Server.start s).Waits := by
  intro k c hc
  have hk := (List.getElem?_eq_some_iff.mp hc).1
  obtain rfl : k = 0 := by simpa [Server.start, accept] using hk
  exact .inl (by simp [Server.start, accept])

theorem Waits.put (h : srv.Waits) {k : Nat} {c : Conn} (hc : c.Visited) : (srv.put k c).Waits := by
  intro j c' hc'
  rw [sessions_put, List.getElem?_set] at hc'
  split at hc'
  · split at hc'
    · cases hc'
      exact .inr hc
    · cases hc'
  · exact h j c' hc'

theorem Waits.accept (h : srv.Waits) (s : Session) : (srv.accept s).Waits := by
  intro j c hc
  rw [Server.accept, List.getElem?_append] at hc
  split at hc
  · exact (h j c hc).imp_left fun hj => List.mem_append_left _ hj
  · have hlt := (List.getElem?_eq_some_iff.mp hc).1
    simp only [List.length_singleton] at hlt
    obtain rfl : j = srv.sessions.length := by omega
    exact .inl (List.mem_append_right _ (List.mem_singleton.mpr rfl))

theorem Waits.step (h : srv.Waits) (hinv : srv.Inv) (hstep : Step T srv d srv') : srv'.Waits := by
  cases hstep with
  | session k i c c' hrunning hc hstep =>
    apply h.put
    rcases h k c hc with hwaits | hvisited
    · obtain ⟨-, now, uninit, s, -, rfl⟩ := hinv.of_accepting hwaits hc
      exact absurd hstep.pending List.not_mem_nil
    · have hopen := (hinv.sessions k c hc).closed_eq_false (List.ne_nil_of_mem hstep.pending)
      exact hstep.visited hvisited hopen
  | accepted k error env s c hrunning haccepting hc hnew =>
    obtain ⟨haccept, now, uninit, s', hnew', rfl⟩ := hinv.of_accepting haccepting hc
    have hothers (c' : Conn) (hc' : c'.Visited) :
        (({ srv with accepting := srv.accepting.erase k } : Server).put k c').Waits := by
      intro j x hx
      rw [sessions_put, List.getElem?_set] at hx
      split at hx
      · split at hx
        · cases hx
          exact .inr hc'
        · cases hx
      · next hne =>
        exact (h j x hx).imp_left fun hj => (List.mem_erase_of_ne (Ne.symm hne)).mpr hj
    rw [handleAccept]
    cases error with
    | true => exact hothers _ (.inr (.inr rfl))
    | false =>
      have hstarted := hothers _ (Conn.visited_started hnew' env)
      simp only [Bool.not_false, if_true]
      split
      · exact hstarted.accept s
      · exact hstarted
  | stop hrunning => exact h

/-- Whatever an object can do by itself, it can do in the server. -/
theorem Inv.deliver (h : srv.Inv) (hwaits : srv.Waits) (hrunning : srv.service = .running) {k : Nat}
    {c c' : Conn} {v : Visit} (hc : srv.sessions[k]? = some c) (hlife : Life T c v c') :
    ∃ d srv', d.visit = some (k, v) ∧ Step T srv d srv' ∧ srv'.sessions[k]? = some c' := by
  -- the step is delivered; what it leaves of the object is then known
  have hleft {d : Delivery} {srv' : Server} (hd : d.visit = some (k, v)) (hstep : Step T srv d srv') :
      srv'.sessions[k]? = some c' := by
    obtain ⟨x, y, hx, hlife', hy⟩ := (hstep.composed h).visited k v hd
    cases hc.symm.trans hx
    rw [hlife.unique hlife']
    exact hy
  have hwaiting {s : Session} (hs : srv.sessions[k]? = some (.accepted s)) : k ∈ srv.accepting := by
    rcases hwaits k _ hs with hk | hvisited
    · exact hk
    · simp [Conn.Visited, Conn.accepted] at hvisited
  cases hlife with
  | started s env =>
    have hstep : Step T srv (.accepted k false env fresh) _ :=
      .accepted k false env fresh _ hrunning (hwaiting hc) hc ⟨0, _, newSession_eq _ _⟩
    exact ⟨_, _, rfl, hstep, hleft rfl hstep⟩
  | dropped s env =>
    have hstep : Step T srv (.accepted k true env fresh) _ :=
      .accepted k true env fresh _ hrunning (hwaiting hc) hc ⟨0, _, newSession_eq _ _⟩
    exact ⟨_, _, rfl, hstep, hleft rfl hstep⟩
  | session c i c' hstep' =>
    have hstep : Step T srv (.session k i) _ := .session k i c c' hrunning hc hstep'
    exact ⟨_, _, rfl, hstep, hleft rfl hstep⟩

/-! ### Runs -/

variable {now : Int} {uninit : Fin (FIELD_BMARK + 3) → Field} {s : Session}

/-- The objects made so far, in order. -/
def constructed (s : Session) (log : List (Server × Delivery)) : List Conn :=
  .accepted s :: (labels log).filterMap Delivery.construct

/-- The run of one object within a run of the server. -/
theorem life_of_run (hnew : newSession now uninit = .ok s) (hrun : Run (Step T) (.start s) log srv)
    {k : Nat} {c : Conn} (hc : srv.sessions[k]? = some c) :
    ∃ c₀ log', (constructed s log)[k]? = some c₀ ∧ Run (Life T) c₀ log' c ∧
      labels log' = visits Delivery.visit k (labels log) :=
  hrun.component (.start hnew) Inv.step Step.composed hc

theorem waits_of_run (hnew : newSession now uninit = .ok s)
    (hrun : Run (Step T) (.start s) log srv) : srv.Waits := by
  induction hrun with
  | nil => exact .start s
  | snoc hrun hstep ih => exact ih.step (hrun.invariant (.start hnew) Inv.step) hstep

theorem lives_of_constructed (hnew : newSession now uninit = .ok s)
    (hrun : Run (Step T) (.start s) log srv) {k : Nat} {c₀ : Conn}
    (hc₀ : (constructed s log)[k]? = some c₀) :
    c₀.Lives ∧ ∃ s', c₀ = .accepted s' := by
  have hbirths : ∀ c ∈ (labels log).filterMap Delivery.construct,
      c.Lives ∧ ∃ s', c = .accepted s' := by
    clear hc₀
    induction hrun with
    | nil => simp
    | snoc hrun hstep ih =>
      rw [labels_snoc, List.filterMap_append]
      intro c hc
      rcases List.mem_append.mp hc with hc | hc
      · exact ih c hc
      · obtain ⟨d, hd, hc⟩ := List.mem_filterMap.mp hc
        rw [List.mem_singleton] at hd
        rw [hd] at hc
        obtain ⟨now, uninit, s', hnew, rfl⟩ := hstep.born hc
        exact ⟨.accepted hnew, s', rfl⟩
  rcases List.mem_cons.mp (List.mem_of_getElem? hc₀) with rfl | hmem
  · exact ⟨.accepted hnew, s, rfl⟩
  · exact hbirths c₀ hmem

/-- **The server refines its sessions side by side.** In every run, each object was reached by a run
of its own, from how it was constructed, with exactly what was delivered to it; and as long as the
server runs, whatever an object can do by itself is delivered and does that. -/
theorem isolated (hnew : newSession now uninit = .ok s) (hrun : Run (Step T) (.start s) log srv)
    {k : Nat} {c : Conn} (hc : srv.sessions[k]? = some c) :
    (∃ s' log', (constructed s log)[k]? = some (.accepted s') ∧ Run (Life T) (.accepted s') log' c ∧
      labels log' = visits Delivery.visit k (labels log)) ∧
    (srv.service = .running → ∀ v c', Life T c v c' →
      ∃ d srv', d.visit = some (k, v) ∧ Step T srv d srv' ∧ srv'.sessions[k]? = some c') := by
  have hinv : srv.Inv := hrun.invariant (.start hnew) .step
  refine ⟨?_, fun hrunning v c' hlife => hinv.deliver (waits_of_run hnew hrun) hrunning hc hlife⟩
  obtain ⟨c₀, log', hborn, hown, hlabels⟩ := life_of_run hnew hrun hc
  obtain ⟨-, s', rfl⟩ := lives_of_constructed hnew hrun hborn
  exact ⟨s', log', hborn, hown, hlabels⟩

theorem isolated_connected :
    (∃ s' log', (constructed fresh [(start fresh, .accepted 0 false ⟨0, true⟩ fresh)])[0]? =
        some (.accepted s') ∧ Run (Life (.build .little)) (.accepted s') log' Conn.fresh ∧
      labels log' = [.accepted false ⟨0, true⟩]) ∧
    (connectedServer.service = .running → ∀ v c', Life (.build .little) Conn.fresh v c' →
      ∃ d srv', d.visit = some (0, v) ∧ Step (.build .little) connectedServer d srv' ∧
        srv'.sessions[0]? = some c') :=
  isolated (newSession_eq 0 _) (Run.single (connectedServer_step (.build .little))) (k := 0) rfl

/-- **Noninterference.** What was delivered to an object decides what it is and what it sent,
whatever was delivered to others in between and whatever its memory held, provided it was not sent
a body before a header. -/
theorem noninterference {now' : Int} {uninit' : Fin (FIELD_BMARK + 3) → Field} {s' : Session}
    {log' : List (Server × Delivery)} (hnew : newSession now uninit = .ok s)
    (hnew' : newSession now' uninit' = .ok s') (hrun : Run (Step T) (.start s) log srv)
    (hrun' : Run (Step T) (.start s') log' srv') {k k' : Nat} {c c' : Conn}
    (hc : srv.sessions[k]? = some c) (hc' : srv'.sessions[k']? = some c')
    (hvisits : visits Delivery.visit k (labels log) = visits Delivery.visit k' (labels log'))
    (hfirst : HeaderFirst c.trace) : c.Alike c' := by
  obtain ⟨c₀, own, hborn, hown, hlabels⟩ := life_of_run hnew hrun hc
  obtain ⟨c₀', own', hborn', hown', hlabels'⟩ := life_of_run hnew' hrun' hc'
  obtain ⟨hlives, s₁, rfl⟩ := lives_of_constructed hnew hrun hborn
  obtain ⟨hlives', s₁', rfl⟩ := lives_of_constructed hnew' hrun' hborn'
  refine Life.alike hown hown' hlives hlives' ?_ (by rw [hlabels, hlabels', hvisits]) hfirst
  have hmade {s : Session} (h : (Conn.accepted s).Lives) :
      ∃ fields, fields.length = FIELD_BMARK + 3 ∧ s = ⟨32, fields, .empty, .empty⟩ := by
    obtain ⟨now, uninit, hs⟩ := h.constructed
    rw [newSession_eq] at hs
    cases hs
    exact ⟨_, List.length_ofFn, rfl⟩
  obtain ⟨fields, hlength, rfl⟩ := hmade hlives
  obtain ⟨fields', hlength', rfl⟩ := hmade hlives'
  exact ⟨⟨rfl, rfl, rfl, hlength, hlength', rfl⟩, fun hentered => absurd hentered List.not_mem_nil,
    rfl, rfl, rfl, rfl⟩

theorem sessions_handleAccept_failed {k j : Nat} {c c' : Conn} (hne : k ≠ j)
    (hc : srv.sessions[j]? = some c') (env : Env) (s : Session) :
    (srv.handleAccept k c true env s).sessions[j]? = some c' := by
  set srv₀ : Server := { srv with accepting := srv.accepting.erase k } with hsrv₀
  have hc₀ : srv₀.sessions[j]? = some c' := hc
  exact sessions_put_ne hne hc₀

/-- A session over memory that looks like a header. -/
def stale : Session := ⟨32, List.ofFn (n := FIELD_BMARK + 3) fun _ => ⟨3, 7, 0, none, 0⟩, .empty, .empty⟩

/-- What a first client's request brings to its object: a header and a body. -/
def headerRead : Label := ⟨.read 0 32, .received (Conn.connectPacket.take 32), ⟨0, true⟩⟩

def bodyRead : Label := ⟨.read 0 21, .received (Conn.connectPacket.drop 32), ⟨0, true⟩⟩

/-- An object at work on a request. -/
def greetedFrom (s : Session) : Conn :=
  ((Conn.started ⟨0, true⟩ s).complete (.build .little) headerRead).complete (.build .little) bodyRead

/-- A first client, and in a second run another one whose connection fails while the request of the
first is read. -/
theorem noninterference_connected : (greetedFrom fresh).Alike (greetedFrom stale) := by
  have hplay : Conn.fresh.Playable (.build .little) [headerRead, bodyRead] := by decide +kernel
  have hplay' : (Conn.started ⟨0, true⟩ stale).Playable (.build .little) [headerRead, bodyRead] := by
    decide +kernel
  obtain ⟨hreturned, hread, hvalid, hreturned₁, hread₁, hvalid₁, -⟩ := hplay
  obtain ⟨hreturned', hread', hvalid', hreturned₁', hread₁', hvalid₁', -⟩ := hplay'
  have hrun := ((Run.single (connectedServer_step (.build .little))).snoc
    (.session 0 headerRead Conn.fresh _ rfl rfl ⟨hreturned, hread, hvalid, rfl⟩)).snoc
    (.session 0 bodyRead _ (greetedFrom fresh) (by decide +kernel) (put_getElem? rfl)
      ⟨hreturned₁, hread₁, hvalid₁, rfl⟩)
  have haccepted : Step (.build .little) (start stale) (.accepted 0 false ⟨0, true⟩ fresh)
      ((start stale).handleAccept 0 (.accepted stale) false ⟨0, true⟩ fresh) :=
    .accepted 0 false ⟨0, true⟩ fresh (.accepted stale) rfl (List.mem_singleton.mpr rfl) rfl
      ⟨0, _, newSession_eq 0 _⟩
  have hrun' := (((Run.single haccepted).snoc
    (.session 0 headerRead (.started ⟨0, true⟩ stale) _ rfl rfl
      ⟨hreturned', hread', hvalid', rfl⟩)).snoc
    (.accepted 1 true ⟨0, true⟩ fresh (.accepted fresh) (by decide +kernel) (by decide +kernel) rfl
      ⟨0, _, newSession_eq 0 _⟩)).snoc
    (.session 0 bodyRead _ (greetedFrom stale) (by decide +kernel)
      (sessions_handleAccept_failed (by decide) (put_getElem? rfl) _ _) ⟨hreturned₁', hread₁', hvalid₁', rfl⟩)
  refine noninterference (newSession_eq 0 _) (newSession_eq 0 _) hrun hrun' (put_getElem? rfl)
    (put_getElem? (sessions_handleAccept_failed (by decide) (put_getElem? rfl) _ _)) ?_
    (.of_takeWhile (by decide +kernel))
  simp only [labels_snoc]
  rfl

end Server

end Librtaio
