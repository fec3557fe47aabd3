import Mathlib.Data.List.Nodup
import Librtaio.ServerService

/-!
# The lifetime of the session handlers

A `session_handler` ends itself: `close` takes it out of `m_set_handlers` and
does `delete this`, below the handlers that called it; `handle_accept` does the
same for one that was never started. Two things have to hold then. A handler
must not use its object once `close` ran, which is shown by running it with
every use of the object watched. And the registry, the operations in flight and
the deletions have to fit together over whole runs of the server.
-/

namespace Librtaio

open Exec Handler Transition

/-! ### Handlers with the uses of their object watched -/

/-- The object was not deleted. -/
def Frame.live (f : Frame) : Bool := !f.closed

/-- A handler that is left as soon as it uses a deleted object. -/
abbrev WatchedHandler : Type → Type := Exec (Watched Exit) Frame

/-- A part of a handler that uses the object and does not delete it. -/
def onObject {α : Type} (x : Handler α) : WatchedHandler α := watch Frame.live x

namespace WatchedHandler

def close (env : Env) : WatchedHandler Unit := do
  onObject (remoteEndpoint env)
  onObject setClosed

def msgDisconnect (T : Target) (env : Env) : WatchedHandler Int := do
  let robj := msgDisconnectFields env.now
  let (ret, _) ← onObject (readPacketBody T robj (fieldsLen robj))
  if ret ≠ ERR_OK then pure ret
  else do
    close env
    pure 0

def handlePacketBody (T : Target) (env : Env) : WatchedHandler Int := do
  onObject (emit .enteredBody)
  let s ← onObject get
  let method ← onObject (lift (orFault (fieldAt s.packetHeader FIELD_METHOD)))
  if toInt32 method.ivalue = MSG_CONNECT then onObject (msgConnect T env)
  else if toInt32 method.ivalue = MSG_DISCONNECT then msgDisconnect T env
  else pure (-1)

def handleRead (T : Target) (env : Env) (error : Bool) (bytesTransferred wantBytes : Nat) :
    WatchedHandler Unit := do
  if !error then
    if bytesTransferred = 0 then close env
    else if bytesTransferred < wantBytes then
      onObject (asyncReadSome .handleRead bytesTransferred (wantBytes - bytesTransferred))
    else do
      let s ← onObject get
      onObject (emit (.inspected s.recvBuffer.storage))
      let mark ← onObject (readMark T)
      if HEAD_MARK = mark then do
        let _ ← onObject (handlePacketHeader T env)
      else if BODY_MARK = mark then do
        let _ ← handlePacketBody T env
      else pure ()
  else close env

def handleWrite (env : Env) (error : Bool) : WatchedHandler Unit := do
  if !error then do
    let s ← onObject get
    onObject (asyncReadSome .handleWrite 0 (toSizeT s.headerSize))
  else close env

def dispatch (T : Target) (env : Env) (op : Op) (result : Completion) : WatchedHandler Unit :=
  match op, result with
  | .read offset length, .received bs => do
    let s ← onObject get
    let recvBuffer ← onObject (lift (orFault (s.recvBuffer.store offset bs)))
    onObject (set { s with recvBuffer })
    onObject (emit (.received bs))
    handleRead T env false bs.length length
  | .read _ length, _ => handleRead T env true 0 length
  | .write _, .written => handleWrite env false
  | .write _, _ => handleWrite env true

end WatchedHandler

/-! ### What does not delete the object -/

/-- The object was deleted before or after both, or in neither. -/
def SameLife (f f' : Frame) : Prop := f'.live = f.live

instance : Std.Refl SameLife := ⟨fun _ => rfl⟩

instance : IsTrans Frame SameLife := ⟨fun _ _ _ h h' => Eq.trans h' h⟩

section Keeps

variable {T : Target} {env : Env} {α : Type}

theorem sameLife_get : Keeps SameLife get := fun _ => rfl

theorem sameLife_set (s : Session) : Keeps SameLife (set s) := fun _ => rfl

theorem sameLife_emit (e : Event) : Keeps SameLife (emit e) := fun _ => rfl

theorem sameLife_window (offset length : Nat) : Keeps SameLife (window offset length) := fun _ => rfl

theorem sameLife_arm (site : Site) (op : Op) : Keeps SameLife (arm site op) := fun _ => rfl

theorem sameLife_lift (x : Except Exit α) : Keeps SameLife (lift x) := .lift x

theorem sameLife_asyncReadSome (site : Site) (offset length : Nat) :
    Keeps SameLife (asyncReadSome site offset length) :=
  (sameLife_window offset length).bind fun _ => sameLife_arm site _

theorem sameLife_remoteEndpoint : Keeps SameLife (remoteEndpoint env) := .ite (.pure ()) (.lift _)

theorem sameLife_start : Keeps SameLife (start env) := by
  apply sameLife_remoteEndpoint.bind
  intro
  apply sameLife_get.bind
  intro s
  apply (sameLife_lift _).bind
  intro recvBuffer
  apply (sameLife_set _).bind
  intro
  exact sameLife_asyncReadSome _ _ _

theorem sameLife_readPacketHeader : Keeps SameLife (readPacketHeader T) := by
  apply sameLife_get.bind
  intro s
  apply (sameLife_window _ _).bind
  intro
  apply (sameLife_lift _).bind
  intro r
  apply (sameLife_set _).bind
  intro
  exact .pure _

theorem sameLife_handlePacketHeader : Keeps SameLife (handlePacketHeader T env) := by
  apply (sameLife_emit _).bind
  intro
  apply sameLife_get.bind
  intro s
  apply (sameLife_lift _).bind
  intro r
  apply (sameLife_set _).bind
  intro
  apply sameLife_readPacketHeader.bind
  intro ret
  refine .ite ?_ (.pure _)
  apply sameLife_get.bind
  intro s
  apply (sameLife_lift _).bind
  intro bsize
  apply (sameLife_emit _).bind
  intro
  apply (sameLife_lift _).bind
  intro recvBuffer
  apply (sameLife_set _).bind
  intro
  apply (sameLife_asyncReadSome _ _ _).bind
  intro
  exact .pure _

theorem sameLife_readPacketBody (fields : List Field) (len : Int) :
    Keeps SameLife (readPacketBody T fields len) := by
  apply sameLife_get.bind
  intro s
  apply (sameLife_lift _).bind
  intro r
  apply (sameLife_lift _).bind
  intro bsize
  apply (sameLife_window _ _).bind
  intro
  apply (sameLife_lift _).bind
  intro r
  exact .pure _

theorem sameLife_readMark : Keeps SameLife (readMark T) := by
  apply sameLife_get.bind
  intro s
  apply (sameLife_window _ _).bind
  intro
  exact .ite (.lift _) (.pure _)

end Keeps

/-! ### No handler uses a deleted object -/

section SameFrom

variable {T : Target} {env : Env} {f : Frame}

theorem close_sameFrom (hlive : f.live = true) :
    SameFrom f (Librtaio.close env) (WatchedHandler.close env) := by
  apply SameFrom.watch_bind hlive sameLife_remoteEndpoint
  intro _ f' hlive'
  exact SameFrom.watch hlive'

theorem msgDisconnect_sameFrom (hlive : f.live = true) :
    SameFrom f (msgDisconnect T env) (WatchedHandler.msgDisconnect T env) := by
  apply SameFrom.watch_bind hlive (sameLife_readPacketBody _ _)
  intro r f' hlive'
  refine .ite (.pure _) ((close_sameFrom hlive').bind ?_)
  -- the object may be deleted here
  intro _ f'' _
  exact .pure 0

theorem handlePacketBody_sameFrom (hlive : f.live = true) :
    SameFrom f (handlePacketBody T env) (WatchedHandler.handlePacketBody T env) := by
  apply SameFrom.watch_bind hlive (sameLife_emit _)
  intro _ f₁ hlive₁
  apply SameFrom.watch_bind hlive₁ sameLife_get
  intro s f₂ hlive₂
  apply SameFrom.watch_bind hlive₂ (sameLife_lift _)
  intro method f₃ hlive₃
  refine .ite (SameFrom.watch hlive₃) (.ite ?_ (.pure _))
  exact msgDisconnect_sameFrom hlive₃

theorem handleRead_sameFrom (hlive : f.live = true) (error : Bool)
    (bytesTransferred wantBytes : Nat) :
    SameFrom f (handleRead T env error bytesTransferred wantBytes)
      (WatchedHandler.handleRead T env error bytesTransferred wantBytes) := by
  refine .ite (.ite (close_sameFrom hlive) (.ite (SameFrom.watch hlive) ?_)) (close_sameFrom hlive)
  apply SameFrom.watch_bind hlive sameLife_get
  intro s f₁ hlive₁
  apply SameFrom.watch_bind hlive₁ (sameLife_emit _)
  intro _ f₂ hlive₂
  apply SameFrom.watch_bind hlive₂ sameLife_readMark
  intro mark f₃ hlive₃
  refine .ite ?_ (.ite ?_ (.pure ()))
  · apply SameFrom.watch_bind hlive₃ sameLife_handlePacketHeader
    intro _ f₄ _
    exact .pure ()
  · apply (handlePacketBody_sameFrom hlive₃).bind
    intro _ f₄ _
    exact .pure ()

theorem handleWrite_sameFrom (hlive : f.live = true) (error : Bool) :
    SameFrom f (handleWrite env error) (WatchedHandler.handleWrite env error) := by
  refine .ite ?_ (close_sameFrom hlive)
  apply SameFrom.watch_bind hlive sameLife_get
  intro s f₁ hlive₁
  exact SameFrom.watch hlive₁

/-- **A completion's handlers use the object only while it lives**: watched, they do the same. -/
theorem dispatch_sameFrom (hlive : f.live = true) (op : Op) (result : Completion) :
    SameFrom f (dispatch T env op result) (WatchedHandler.dispatch T env op result) := by
  cases op with
  | read offset length =>
    cases result with
    | received bs =>
      apply SameFrom.watch_bind hlive sameLife_get
      intro s f₁ hlive₁
      apply SameFrom.watch_bind hlive₁ (sameLife_lift _)
      intro recvBuffer f₂ hlive₂
      apply SameFrom.watch_bind hlive₂ (sameLife_set _)
      intro _ f₃ hlive₃
      apply SameFrom.watch_bind hlive₃ (sameLife_emit _)
      intro _ f₄ hlive₄
      exact handleRead_sameFrom hlive₄ false bs.length length
    | written => exact handleRead_sameFrom hlive true 0 length
    | failed => exact handleRead_sameFrom hlive true 0 length
  | write packet =>
    cases result with
    | received bs => exact handleWrite_sameFrom hlive true
    | written => exact handleWrite_sameFrom hlive false
    | failed => exact handleWrite_sameFrom hlive true

end SameFrom

/-! ### Deletions -/

/-- Whether a delivery to the object deletes it. -/
def Conn.deletedBy (T : Target) (c : Conn) : Server.Delivery → Bool
  | .session _ i => (dispatch T i.env i.op i.result (.init c.session)).2.closed
  | .accepted _ error env _ => error || (start env (.init c.session)).2.closed
  | .stop => false

theorem closed_start (env : Env) (s : Session) : (start env (.init s)).2.closed = false := by
  have hlive : (start env (.init s)).2.live = (Frame.init s).live := sameLife_start _
  simpa [Frame.live, Frame.init] using hlive

namespace Server

variable {T : Target} {srv srv' : Server} {d : Delivery} {log : List (Server × Delivery)}

/-- The objects a delivery deletes. -/
def deletes (T : Target) (srv : Server) (d : Delivery) : List Nat :=
  match d.session? with
  | some k => if (srv.sessions[k]?).any (·.deletedBy T d) then [k] else []
  | none => []

/-- The objects deleted so far, in order. -/
def deleted (T : Target) (log : List (Server × Delivery)) : List Nat :=
  log.flatMap fun p => deletes T p.1 p.2

theorem deletes_eq {k : Nat} {c : Conn} (hd : d.session? = some k)
    (hc : srv.sessions[k]? = some c) :
    deletes T srv d = if c.deletedBy T d then [k] else [] := by
  simp [deletes, hd, hc]

/-- The registry, against the objects that were deleted. -/
structure Owned (deleted : List Nat) (srv : Server) : Prop where
  registered : ∀ k, k ∈ srv.handlers ↔ k < srv.sessions.length ∧ k ∉ deleted
  nodup : srv.handlers.Nodup
  once : deleted.Nodup
  constructed : ∀ k ∈ deleted, k < srv.sessions.length
  closed : ∀ (k : Nat) (c : Conn), srv.sessions[k]? = some c → (c.closed = true ↔ k ∈ deleted)

variable {dead : List Nat}

theorem Owned.start (s : Session) : Owned [] (.start s) where
  registered := by
    intro k
    simp [Server.start, accept]
  nodup := List.nodup_singleton 0
  once := List.nodup_nil
  constructed := by simp
  closed := by
    intro k c hc
    obtain rfl : c = .accepted s := by simpa [Server.start, accept] using List.mem_of_getElem? hc
    simp [Conn.accepted]

/-- A new object is registered. -/
theorem Owned.accept (h : Owned dead srv) (s : Session) : Owned dead (srv.accept s) where
  registered := by
    intro k
    have hold := h.registered k
    have hfresh : srv.sessions.length ∉ dead := fun hdead => absurd (h.constructed _ hdead) (lt_irrefl _)
    simp only [Server.accept, List.mem_append, List.mem_singleton, List.length_append,
      List.length_singleton, hold]
    constructor
    · rintro (⟨hlt, hlive⟩ | rfl)
      · exact ⟨by omega, hlive⟩
      · exact ⟨by omega, hfresh⟩
    · rintro ⟨hlt, hlive⟩
      rcases Nat.lt_succ_iff_lt_or_eq.mp hlt with hlt | heq
      · exact .inl ⟨hlt, hlive⟩
      · exact .inr heq
  nodup := by
    have hfresh : srv.sessions.length ∉ srv.handlers := by
      rw [h.registered]
      exact fun hlt => absurd hlt.1 (lt_irrefl _)
    exact h.nodup.append (List.nodup_singleton _) (by simpa using hfresh)
  once := h.once
  constructed := by
    intro k hk
    have hlt := h.constructed k hk
    simp only [Server.accept, List.length_append, List.length_singleton]
    omega
  closed := by
    intro k c hc
    rw [Server.accept, List.getElem?_append] at hc
    split at hc
    · exact h.closed k c hc
    · next hle =>
      obtain rfl : c = .accepted s := by simpa using List.mem_of_getElem? hc
      refine iff_of_false (by simp [Conn.accepted]) ?_
      intro hdead
      exact hle (h.constructed k hdead)

/-- A handler of an object that lives leaves it alive, or deletes it. -/
theorem Owned.put (h : Owned dead srv) {k : Nat} {c : Conn} (c' : Conn)
    (hc : srv.sessions[k]? = some c) (hlive : c.closed = false) :
    Owned (dead ++ if c'.closed then [k] else []) (srv.put k c') := by
  have hk : k < srv.sessions.length := (List.getElem?_eq_some_iff.mp hc).1
  have hdead : k ∉ dead := by
    rw [← h.closed k c hc, hlive]
    exact Bool.false_ne_true
  have hlength : (srv.put k c').sessions.length = srv.sessions.length := List.length_set
  have hsessions {j : Nat} {c'' : Conn} (hc'' : (srv.put k c').sessions[j]? = some c'') :
      j = k ∧ c'' = c' ∨ j ≠ k ∧ srv.sessions[j]? = some c'' := by
    rw [sessions_put, List.getElem?_set] at hc''
    split at hc''
    · next hj =>
      exact .inl ⟨hj.symm, (Option.some.inj hc'').symm⟩
    · next hj => exact .inr ⟨fun hkj => hj hkj.symm, hc''⟩
  cases hclosed : c'.closed with
  | false =>
    have hhandlers : (srv.put k c').handlers = srv.handlers := by simp [Server.put, hclosed]
    rw [if_neg Bool.false_ne_true, List.append_nil]
    refine ⟨?_, ?_, h.once, ?_, ?_⟩
    · intro j
      rw [hhandlers, hlength]
      exact h.registered j
    · rw [hhandlers]
      exact h.nodup
    · intro j hj
      rw [hlength]
      exact h.constructed j hj
    · intro j c'' hc''
      rcases hsessions hc'' with ⟨rfl, rfl⟩ | ⟨-, hc''⟩
      · exact iff_of_false (by simp [hclosed]) hdead
      · exact h.closed j c'' hc''
  | true =>
    have hhandlers : (srv.put k c').handlers = srv.handlers.erase k := by simp [Server.put, hclosed]
    rw [if_pos rfl]
    refine ⟨?_, ?_, ?_, ?_, ?_⟩
    · intro j
      rw [hhandlers, hlength, h.nodup.mem_erase_iff, h.registered, List.mem_append,
        List.mem_singleton, not_or]
      tauto
    · rw [hhandlers]
      exact h.nodup.erase k
    · exact h.once.append (List.nodup_singleton k) (by simpa using hdead)
    · intro j hj
      rw [hlength]
      rcases List.mem_append.mp hj with hj | hj
      · exact h.constructed j hj
      · exact List.mem_singleton.mp hj ▸ hk
    · intro j c'' hc''
      rw [List.mem_append, List.mem_singleton]
      rcases hsessions hc'' with ⟨rfl, rfl⟩ | ⟨hne, hc''⟩
      · exact iff_of_true hclosed (.inr rfl)
      · rw [h.closed j c'' hc'', or_iff_left hne]

theorem Owned.step (h : Owned dead srv) (hinv : srv.Inv) (hstep : Step T srv d srv') :
    Owned (dead ++ deletes T srv d) srv' := by
  cases hstep with
  | session k i c c' hrunning hc hstep =>
    obtain ⟨hop, hleave⟩ := hstep.eq_leave (hinv.sessions k c hc)
    have hlive : c.closed = false := (hinv.sessions k c hc).closed_eq_false (by simp [hop])
    have hdeletes : deletes T srv (.session k i) = if c'.closed then [k] else [] := by
      rw [deletes_eq rfl hc, hleave]
      rfl
    rw [hdeletes]
    exact h.put c' hc hlive
  | accepted k error env s c hrunning haccepting hc hnew =>
    obtain ⟨-, now, uninit, s', hnew', rfl⟩ := hinv.of_accepting haccepting hc
    have htaken : Owned dead { srv with accepting := srv.accepting.erase k } :=
      ⟨h.registered, h.nodup, h.once, h.constructed, h.closed⟩
    rw [deletes_eq rfl hc, Conn.deletedBy, closed_start, Bool.or_false, handleAccept]
    cases error with
    | true => exact htaken.put { Conn.accepted s' with closed := true } hc rfl
    | false =>
      have hstarted := htaken.put (.started env s') hc rfl
      have hclosed : (Conn.started env s').closed = false := by
        rw [Conn.started, Conn.after, closed_start]
        rfl
      rw [hclosed, if_neg Bool.false_ne_true] at hstarted
      rw [if_neg Bool.false_ne_true]
      simp only [Bool.not_false, if_true]
      split
      · exact hstarted.accept s
      · exact hstarted
  | stop hrunning =>
    rw [show deletes T srv .stop = [] from rfl, List.append_nil]
    exact ⟨h.registered, h.nodup, h.once, h.constructed, h.closed⟩

theorem owned_run {s : Session} (hinit : (Server.start s).Inv)
    (hrun : Run (Step T) (.start s) log srv) : Owned (deleted T log) srv := by
  induction hrun with
  | nil => exact .start s
  | @snoc log t u d hrun hstep ih =>
    have hdeleted : deleted T (log ++ [(t, d)]) = deleted T log ++ deletes T t d := by
      simp [deleted]
    rw [hdeleted]
    exact ih.step (hrun.invariant hinit .step) hstep

/-! ### Lifetimes -/

/-- The operations in flight for one object, an `async_accept` into it included. -/
def outstanding (srv : Server) (k : Nat) (c : Conn) : Nat := c.pending.length + srv.accepting.count k

theorem Inv.outstanding_le (h : srv.Inv) {k : Nat} {c : Conn} (hc : srv.sessions[k]? = some c) :
    srv.outstanding k c ≤ 1 := by
  rw [outstanding]
  by_cases hk : k ∈ srv.accepting
  · obtain ⟨haccepting, now, uninit, s, -, rfl⟩ := h.of_accepting hk hc
    simp [haccepting, Conn.accepted]
  · rw [List.count_eq_zero_of_not_mem hk, Nat.add_zero]
    by_cases hnone : c.pending = []
    · simp [hnone]
    · obtain ⟨op, hop⟩ := (h.sessions k c hc).single hnone
      simp [hop]

/-- An object that was deleted has nothing in flight. -/
theorem Owned.outstanding_eq_zero (h : Owned dead srv) (hinv : srv.Inv) {k : Nat} {c : Conn}
    (hc : srv.sessions[k]? = some c) (hk : k ∈ dead) : srv.outstanding k c = 0 := by
  have hclosed := (h.closed k c hc).mpr hk
  rw [outstanding, (hinv.sessions k c hc).closed hclosed]
  have hnot : k ∉ srv.accepting := by
    intro haccepting
    obtain ⟨-, now, uninit, s, -, rfl⟩ := hinv.of_accepting haccepting hc
    cases hclosed
  simp [List.count_eq_zero_of_not_mem hnot]

/-- A completion is of an operation in flight. -/
theorem Step.outstanding_pos (hstep : Step T srv d srv') {k : Nat} (hd : d.session? = some k) :
    ∃ c, srv.sessions[k]? = some c ∧ 0 < srv.outstanding k c := by
  cases hstep with
  | session j i c c' hrunning hc hstep =>
    obtain rfl : j = k := Option.some.inj hd
    have hpos := List.length_pos_of_mem hstep.pending
    exact ⟨c, hc, by rw [outstanding]; omega⟩
  | accepted j error env s c hrunning haccepting hc hnew =>
    obtain rfl : j = k := Option.some.inj hd
    have hpos := List.count_pos_iff.mpr haccepting
    exact ⟨c, hc, by rw [outstanding]; omega⟩
  | stop hrunning => cases hd

/-- What holds of the handlers' objects, given those that were deleted. -/
structure Lifetimes (T : Target) (deleted : List Nat) (srv : Server) : Prop
    extends Owned deleted srv where
  outstanding : ∀ (k : Nat) (c : Conn), srv.sessions[k]? = some c → srv.outstanding k c ≤ 1
  /-- What is delivered next is not for a deleted object. -/
  delivered : ∀ d srv' k, Step T srv d srv' → d.session? = some k → k ∉ deleted
  /-- No handler that is entered next uses its object after it deleted it. -/
  unused : ∀ (k : Nat) (i : Label) (c : Conn), srv.sessions[k]? = some c → k ∉ deleted →
    (WatchedHandler.dispatch T i.env i.op i.result (.init c.session)).1 ≠ .error .misused

/-- **Lifetimes.** In every run of the server the registry holds exactly the objects that were
constructed and not deleted. -/
theorem lifetimes {now : Int} {uninit : Fin (FIELD_BMARK + 3) → Field} {s : Session}
    (hnew : newSession now uninit = .ok s) (hrun : Run (Step T) (.start s) log srv) :
    Lifetimes T (deleted T log) srv := by
  have hinv : srv.Inv := hrun.invariant (.start hnew) .step
  have howned := owned_run (.start hnew) hrun
  refine ⟨howned, fun k c hc => hinv.outstanding_le hc, ?_, ?_⟩
  · intro d srv' k hstep hd hdead
    obtain ⟨c, hc, hpos⟩ := hstep.outstanding_pos hd
    have hzero := howned.outstanding_eq_zero hinv hc hdead
    omega
  · intro k i c hc hlive
    exact (dispatch_sameFrom rfl i.op i.result).ne_misused

/-- A connection whose first read fails. -/
theorem lifetimes_failed :
    Lifetimes (.build .little) [0]
      (connectedServer.put 0 (Conn.fresh.complete (.build .little) ⟨.read 0 32, .failed, ⟨0, true⟩⟩)) := by
  have hrun := (Run.single (connectedServer_step (.build .little))).snoc
    (.session 0 ⟨.read 0 32, .failed, ⟨0, true⟩⟩ Conn.fresh
      (Conn.fresh.complete (.build .little) _) rfl rfl
      ⟨rfl, by decide, by decide +kernel, rfl⟩)
  exact lifetimes (newSession_eq 0 _) hrun

end Server

end Librtaio
