import TejkItIzi.Continuations
import TejkItIzi.Sockets
import TejkItIzi.Statements
/-!
# The server on the network

Each session with its `boost_socket`, and each socket with the bytes that will
come in on it. Here nobody promises that packets come only to sessions that wait
for one, or that they fit the buffer: the sockets see to that.
-/

namespace tejk_it_izi

open ProgLib

structure Network where
  server : Server
  sockets : SessionId → Option BoostSocket

/-- The handler of the session that the socket calls. -/
def Completion.handler (k : SessionId) : Completion → Handler
  | .on_recv data size => .on_recv k data size
  | .on_error => .on_error k

/-- What the session has asked of its socket when a handler ends: to be closed, or
to read the next packet. -/
def BoostSocket.obey (s : BoostSocket) (c : MmoClient) : BoostSocket :=
  if c.is_open = false then s.force_close
  else if c.receiving = true ∧ s.pending = none then s.async_recv
  else s

/-- All sockets after a handler has left the server like this. -/
def obeying (sockets : SessionId → Option BoostSocket) (s : Server) : SessionId → Option BoostSocket := fun k =>
  (sockets k).map fun socket => match s.clients k with
    | some c => socket.obey c
    | none => socket

/-- The allocator hands out free addresses. -/
structure Outside.Allocates (o : Outside) (s : Server) : Prop where
  new_entity : ∀ p, (s.world.chat.entities p).isSome → p.address ≠ o.env.new_entity
  new_room : s.world.chat.rooms o.env.new_room = none

/-- The handler runs, with these sockets, and returns. -/
def Network.handles (n : Network) (sockets : SessionId → Option BoostSocket) (hd : Handler) (n' : Network) : Prop :=
  ∃ o : Outside, o.Allocates n.server ∧ hd.run (n.server.begin o) = .ok () n'.server ∧
    n'.sockets = obeying sockets n'.server

inductive NetEvent where
  /-- `boost_acceptor` has a connection, on which these bytes will come in. It asks
  for the next one whatever becomes of this. -/
  | accept (k : SessionId) (recvbuf : Buffer) (incoming : Bytes)
  | accept_error
  /-- The read that is pending on a socket completes. -/
  | read (k : SessionId)
  /-- What does not come from the network. -/
  | internal (h : Handler)
  | reorder

/-- The handlers that are not called by sockets, as long as there is one to run. -/
def Server.can_run (s : Server) : Handler → Prop
  | .next_task => s.sync_strand ≠ []
  | .next_load => s.database_strand ≠ []
  | .periodic_broadcast | .periodic_cleanup => True
  | _ => False

def netMachine : Machine Network NetEvent where
  init n := serverMachine.init n.server ∧ n.sockets = fun _ => none
  step n ev n' := match ev with
    | .accept k recvbuf incoming => n.sockets k = none ∧
      n.handles (Function.update n.sockets k (some (.new recvbuf incoming))) (.on_accept k) n'
    | .accept_error => n' = n
    | .read k => ∃ socket socket' called, n.sockets k = some socket ∧
      socketMachine.step socket .completion socket' ∧ socket'.calls = socket.calls ++ called ∧
      match called with
      -- The length has been read, or the socket had been closed.
      | [] => n' = { n with sockets := Function.update n.sockets k (some socket') }
      | call :: _ => n.handles (Function.update n.sockets k (some socket')) (call.handler k) n'
    | .internal hd => n.server.can_run hd ∧ n.handles n.sockets hd n'
    | .reorder => serverMachine.step n.server .reorder n'.server ∧ n'.sockets = n.sockets

/-! ## A session and its socket -/

/-- The socket does what the session believes it does. -/
structure BoostSocket.Suits (s : BoostSocket) (c : MmoClient) : Prop where
  closed : s.is_pending_deletion = !c.is_open
  pending : c.is_open = true → s.pending.isSome = c.receiving
  bounded : s.Bounded

/-- Every session has its socket. -/
structure NetOk (n : Network) : Prop where
  server : ServerOk n.server
  sessions : ∀ k, (n.sockets k).isSome = (n.server.clients k).isSome
  suits : ∀ k socket c, n.sockets k = some socket → n.server.clients k = some c → socket.Suits c

section socket

variable {s s' : BoostSocket} {c : MmoClient}

/-- What the completion of a read comes to, and how the session is called. -/
inductive BoostSocket.Completed (s s' : BoostSocket) : List Completion → Prop
  -- Nobody is called: the socket is closed, or its data is to be read.
  | closed : s.is_pending_deletion = true → s'.is_pending_deletion = true → s.Completed s' []
  | expected_len : s.is_pending_deletion = false → s'.is_pending_deletion = false → s.pending.isSome = true →
    s'.pending.isSome = true → s.Completed s' []
  -- The session is called, and no read is pending.
  | on_recv (data size) : s.is_pending_deletion = false → s'.is_pending_deletion = false → s.pending.isSome = true →
    s'.pending = none → s.Completed s' [.on_recv data size]
  | on_error : s.is_pending_deletion = false → s'.is_pending_deletion = true → s.pending.isSome = true →
    s.Completed s' [.on_error]

theorem on_error_run (h : s.is_pending_deletion = false) :
    s.on_error = { s with calls := s.calls ++ [.on_error], is_pending_deletion := true } := by
  simp [BoostSocket.on_error, BoostSocket.force_close, h]

theorem completed_of_step {called : List Completion} (hs : socketMachine.step s .completion s')
    (hcalls : s'.calls = s.calls ++ called) : s.Completed s' called := by
  have none_called {t : BoostSocket} (ht : t.calls = s.calls ++ called) (h : t.calls = s.calls) : called = [] := by
    simpa [h] using ht
  have one_called {t : BoostSocket} {call : Completion} (ht : t.calls = s.calls ++ called)
      (h : t.calls = s.calls ++ [call]) : called = [call] := by
    simpa [h, eq_comm] using ht
  simp only [socketMachine] at hs
  split at hs
  case h_1 => exact hs.elim
  case h_2 hp =>
    subst hs
    have hsome : s.pending.isSome = true := by rw [hp]; rfl
    unfold BoostSocket.expected_len_read at hcalls ⊢
    simp only at hcalls ⊢
    split at hcalls
    case isTrue hclosed =>
      rw [if_pos hclosed, none_called hcalls rfl]
      exact .closed hclosed hclosed
    case isFalse hopen =>
      have hopen' : (s.async_read 4).2.2.is_pending_deletion = false := by simpa using hopen
      rw [if_neg hopen]
      split at hcalls
      case isTrue hbad =>
        rw [if_pos hbad]
        rw [on_error_run hopen'] at hcalls ⊢
        rw [one_called hcalls rfl]
        exact .on_error hopen' rfl hsome
      case isFalse hgood =>
        rw [if_neg hgood, none_called hcalls rfl]
        exact .expected_len hopen' hopen' hsome rfl
  case h_3 n hp =>
    subst hs
    have hsome : s.pending.isSome = true := by rw [hp]; rfl
    unfold BoostSocket.data_read at hcalls ⊢
    simp only at hcalls ⊢
    split at hcalls
    case isTrue hclosed =>
      rw [if_pos hclosed, none_called hcalls rfl]
      exact .closed hclosed hclosed
    case isFalse hopen =>
      have hopen' : (s.async_read n).2.2.is_pending_deletion = false := by simpa using hopen
      rw [if_neg hopen]
      split at hcalls
      case isTrue hbad =>
        rw [if_pos hbad]
        rw [on_error_run hopen'] at hcalls ⊢
        rw [one_called hcalls rfl]
        exact .on_error hopen' rfl hsome
      case isFalse hgood =>
        rw [if_neg hgood, one_called hcalls rfl]
        exact .on_recv _ _ hopen' hopen' hsome rfl

/-- The session can have its way with the socket. -/
structure BoostSocket.Fits (s : BoostSocket) (c : MmoClient) : Prop where
  bounded : s.Bounded
  is_open : c.is_open = true → s.is_pending_deletion = false
  idle : c.is_open = true → c.receiving = false → s.pending = none

theorem obey_suits (h : s.Fits c) : (s.obey c).Suits c := by
  obtain ⟨hb, hopen, hidle⟩ := h
  unfold BoostSocket.obey
  by_cases ho : c.is_open = false
  · rw [if_pos ho]
    refine ⟨?_, fun h => ?_, ?_⟩
    · unfold BoostSocket.force_close
      split
      case isTrue hd => rw [hd, ho]; rfl
      case isFalse => rw [ho]; rfl
    · rw [ho] at h
      cases h
    · unfold BoostSocket.force_close
      split
      · exact hb
      · exact ⟨hb.pending, hb.calls⟩
  · have ho' : c.is_open = true := by simpa using ho
    rw [if_neg ho]
    split
    case isTrue hr =>
      exact ⟨by rw [ho']; exact hopen ho', fun _ => by rw [hr.1]; rfl, fun n hn => (by cases hn), hb.calls⟩
    case isFalse hr =>
      refine ⟨by rw [ho']; exact hopen ho', fun _ => ?_, hb⟩
      cases hrecv : c.receiving with
      | false => rw [hidle ho' hrecv]; rfl
      | true =>
        rw [Option.isSome_iff_ne_none]
        exact fun hn => hr ⟨hrecv, hn⟩

/-- What the session asks for are steps of the socket. -/
theorem obey_run (s : BoostSocket) (c : MmoClient) :
    (∃ tr, socketMachine.Run s tr (s.obey c)) ∧ (s.obey c).calls = s.calls := by
  unfold BoostSocket.obey
  split
  · have hstep : socketMachine.step s .force_close s.force_close := rfl
    refine ⟨⟨_, Machine.Run.nil.snoc hstep⟩, ?_⟩
    unfold BoostSocket.force_close
    split <;> rfl
  · split
    case isTrue hr =>
      have hstep : socketMachine.step s .async_recv s.async_recv := ⟨hr.2, rfl⟩
      exact ⟨⟨_, Machine.Run.nil.snoc hstep⟩, rfl⟩
    case isFalse => exact ⟨⟨[], .nil⟩, rfl⟩

end socket

/-! ## A handler, and the sockets behind it -/

section handler

variable {s s' : Server} {hd : Handler} {k : SessionId} {c c' : MmoClient}

/-- The handler is called by the socket of session `k`. -/
def Handler.of_socket (k : SessionId) (hd : Handler) : Prop := (∃ data size, hd = .on_recv k data size) ∨ hd = .on_error k

/-- A session that waits for a packet is left alone by all but its socket. -/
theorem HandlerEffect.keeps_receive (he : HandlerEffect s hd s') (h : ServerOk s) (hc : s.clients k = some c)
    (hr : c.receiving = true) (hhd : ¬ hd.of_socket k) : s'.clients k = some c := by
  have other {s0 : Server} (h0 : s0.clients = s.clients) {j : SessionId} {g : Progress} (hk : k ≠ j) :
      (s0.progress j g).clients k = some c := by
    rw [progress_client_ne hk, h0]
    exact hc
  cases he with
  | on_accept j hj =>
    refine other rfl ?_
    rintro rfl
    rw [hc] at hj
    cases hj
  | on_recv j data size c0 g hc0 => exact other rfl fun hk => hhd (.inl ⟨data, size, by rw [hk]⟩)
  | on_error j c0 hc0 => exact other rfl fun hk => hhd (.inr (by rw [hk]))
  | transition j rest c0 st w ps hs hc0 hst =>
    refine other rfl ?_
    rintro rfl
    obtain ⟨_, _, _, hnot, _⟩ := (h.only_task hs hc0).1.of_transition
    rw [hc] at hc0
    cases hc0
    rw [hr] at hnot
    cases hnot
  | finalize j rest c0 w ps hs hc0 =>
    refine other rfl ?_
    rintro rfl
    obtain ⟨_, _, _, hnot, _⟩ := (h.only_task hs hc0).1.of_finalize
    rw [hc] at hc0
    cases hc0
    rw [hr] at hnot
    cases hnot
  | lobby_chars_loaded j rest chars c0 acc old hs hc0 =>
    refine other rfl ?_
    rintro rfl
    obtain ⟨_, _, _, _, heq⟩ := (h.only_task hs hc0).1.of_loaded
    rw [hc] at hc0
    cases hc0
    rw [heq] at hr
    cases hr
  | load j id rest c0 hs hc0 =>
    by_cases hk : k = j
    · subst hk
      rw [hc] at hc0
      cases hc0
      exact progress_client
    · exact other rfl hk
  | periodic_broadcast | periodic_cleanup => exact hc

/-- Sessions are only made by `on_accept`. -/
theorem HandlerEffect.known (he : HandlerEffect s hd s') (k : SessionId) (hhd : hd ≠ .on_accept k) :
    (s'.clients k).isSome = (s.clients k).isSome := by
  have hprogress {s0 : Server} (h0 : s0.clients = s.clients) {j : SessionId} {g : Progress}
      (hj : k = j → (s.clients k).isSome = true) : ((s0.progress j g).clients k).isSome = (s.clients k).isSome := by
    by_cases hk : k = j
    · rw [hj hk]
      subst hk
      rw [progress_client]
      rfl
    · rw [progress_client_ne hk, h0]
  cases he with
  | on_accept j hj => exact hprogress rfl fun hk => absurd (by rw [hk]) hhd
  | on_recv j data size c0 g hc0 | on_error j c0 hc0 | transition j rest c0 st w ps hs hc0
  | finalize j rest c0 w ps hs hc0 | lobby_chars_loaded j rest chars c0 acc old hs hc0 | load j id rest c0 hs hc0 =>
    exact hprogress rfl fun hk => by rw [hk, hc0]; rfl
  | periodic_broadcast | periodic_cleanup => rfl

theorem HandlerEffect.accepts (he : HandlerEffect s (.on_accept k) s') : s'.clients k = some .accepted := by
  cases he with
  | on_accept _ _ => exact progress_client

/-- After an error the session is closed. -/
theorem HandlerEffect.error_closes (he : HandlerEffect s (.on_error k) s') (hc : s'.clients k = some c) :
    c.is_open = false := by
  cases he with
  | on_error _ c0 hc0 =>
    rw [progress_client] at hc
    cases hc
    rfl

end handler

/-! ## One step -/

/-- What the session `k` is handed: a packet, or nothing but the error. -/
def ServerEvent.handed (k : SessionId) : ServerEvent → List (Option Bytes)
  | .handler (.on_recv j data size) => if j = k then [some (data.bytes.take size)] else []
  | .handler (.on_error j) => if j = k then [none] else []
  | _ => []

/-- What the socket of session `k` has called it with. -/
def Network.received (n : Network) (k : SessionId) : List (Option Bytes) := ((n.sockets k).map (·.received)).getD []

/-- One step, as the server and each socket see it. -/
structure NetStep (n : Network) (ev : NetEvent) (n' : Network) : Prop where
  ok : NetOk n'
  server : ∃ tr, serverMachine.Run n.server tr n'.server ∧
    ∀ k, n'.received k = n.received k ++ tr.flatMap fun x => x.event.handed k
  sockets : ∀ k socket', n'.sockets k = some socket' →
    (∃ socket tr, n.sockets k = some socket ∧ socketMachine.Run socket tr socket') ∨
    ∃ recvbuf incoming tr, ev = .accept k recvbuf incoming ∧ socketMachine.Run (.new recvbuf incoming) tr socket'

section step

variable {n n' : Network} {sockets : SessionId → Option BoostSocket} {hd : Handler} {ev : NetEvent} {k : SessionId}

theorem obeying_ok {s : Server} (hok : ServerOk s) (hsome : ∀ k, (sockets k).isSome = (s.clients k).isSome)
    (hfits : ∀ k socket c, sockets k = some socket → s.clients k = some c → socket.Fits c) :
    NetOk ⟨s, obeying sockets s⟩ where
  server := hok
  sessions k := by
    rw [← hsome k]
    exact Option.isSome_map
  suits k socket c hsocket hc := by
    have hsocket' : obeying sockets s k = some socket := hsocket
    unfold obeying at hsocket'
    rw [hc] at hsocket'
    obtain ⟨socket0, hsocket0, rfl⟩ := Option.map_eq_some_iff.1 hsocket'
    exact obey_suits (hfits k socket0 c hsocket0 hc)

theorem obeying_run {s : Server} {socket' : BoostSocket} (h : obeying sockets s k = some socket') :
    ∃ socket tr, sockets k = some socket ∧ socketMachine.Run socket tr socket' := by
  unfold obeying at h
  obtain ⟨socket, hsocket, rfl⟩ := Option.map_eq_some_iff.1 h
  cases s.clients k with
  | none => exact ⟨socket, [], hsocket, .nil⟩
  | some c =>
    obtain ⟨⟨tr, hr⟩, _⟩ := obey_run socket c
    exact ⟨socket, tr, hsocket, hr⟩

theorem obeying_received (s : Server) (k : SessionId) :
    ((obeying sockets s k).map (·.received)).getD [] = ((sockets k).map (·.received)).getD [] := by
  unfold obeying
  cases sockets k with
  | none => rfl
  | some socket =>
    cases s.clients k with
    | none => rfl
    | some c =>
      show (socket.obey c).received = socket.received
      rw [BoostSocket.received, (obey_run socket c).2, BoostSocket.received]

/-- A session that was there fits its socket unless that called it. -/
theorem NetOk.fits (h : NetOk n) {s' : Server} {o : Outside} (he : HandlerEffect (n.server.begin o) hd s')
    (hhd : ¬ hd.of_socket k) {socket : BoostSocket} {c c' : MmoClient} (hsocket : n.sockets k = some socket)
    (hc : n.server.clients k = some c) (hc' : s'.clients k = some c') : socket.Fits c' := by
  have hb := h.server.begin o
  have hsuits := h.suits k socket c hsocket hc
  have hc0 : (n.server.begin o).clients k = some c := hc
  obtain ⟨c1, hc1, hcont⟩ := he.continues hb hc0
  obtain rfl : c1 = c' := Option.some.inj (hc1.symm.trans hc')
  have hwas_open (ho : c1.is_open = true) : c.is_open = true := by
    by_contra hclosed
    rw [hcont.closed (by simpa using hclosed)] at ho
    cases ho
  refine ⟨hsuits.bounded, fun ho => ?_, fun ho hr => ?_⟩
  · rw [hsuits.closed, hwas_open ho]
    rfl
  · -- A session that waits for a packet goes on waiting.
    have hpending := hsuits.pending (hwas_open ho)
    cases hrecv : c.receiving with
    | false => simpa [hrecv] using hpending
    | true =>
      obtain rfl : c = c1 := Option.some.inj ((he.keeps_receive hb hc0 hrecv hhd).symm.trans hc1)
      rw [hr] at hrecv
      cases hrecv

/-- A handler runs that is admitted, and whose session is dealt with. -/
theorem handles_step (h : NetOk n) (hh : n.handles sockets hd n')
    (hadmitted : ∀ o : Outside, o.Allocates n.server → hd.Admitted n.server o)
    (hsame : ∀ k, hd ≠ .on_accept k → (sockets k).isSome = (n.sockets k).isSome)
    (hnew : ∀ k, hd = .on_accept k → (sockets k).isSome = true)
    (hfits : ∀ (k : SessionId) (o : Outside) socket c', HandlerEffect (n.server.begin o) hd n'.server →
      sockets k = some socket → n'.server.clients k = some c' → socket.Fits c') :
    NetOk n' ∧ serverMachine.step n.server (.handler hd) n'.server := by
  obtain ⟨o, hal, hrun, hsockets⟩ := hh
  have hadm := hadmitted o hal
  have hstep : serverMachine.step n.server (.handler hd) n'.server := ⟨o, hadm, hrun⟩
  obtain ⟨_, he⟩ := handler_effect h.server hadm hrun
  refine ⟨?_, hstep⟩
  have hsome (k : SessionId) : (sockets k).isSome = (n'.server.clients k).isSome := by
    by_cases hk : hd = .on_accept k
    · subst hk
      rw [hnew k rfl, he.accepts]
      rfl
    · rw [hsame k hk, h.sessions k]
      exact (he.known k hk).symm
  have hok := obeying_ok (server_ok_step h.server hstep) hsome fun k socket c' => hfits k o socket c' he
  rwa [← hsockets] at hok

theorem NetOk.client (h : NetOk n) {socket : BoostSocket} (hsocket : n.sockets k = some socket) :
    ∃ c, n.server.clients k = some c := by
  rw [← Option.isSome_iff_exists, ← h.sessions k, hsocket]
  rfl

/-- Sessions other than `k` fit their sockets after a handler that does not concern them. -/
theorem NetOk.others_fit (h : NetOk n) {s' : Server} {o : Outside} (he : HandlerEffect (n.server.begin o) hd s')
    {j : SessionId} (hj : j ≠ k) (hhd : ¬ hd.of_socket j) {new socket : BoostSocket} {c' : MmoClient}
    (hsocket : Function.update n.sockets k (some new) j = some socket) (hc' : s'.clients j = some c') :
    socket.Fits c' := by
  rw [Function.update_of_ne hj] at hsocket
  obtain ⟨c, hc⟩ := h.client hsocket
  exact h.fits he hhd hsocket hc hc'

theorem new_fits (recvbuf : Buffer) (incoming : Bytes) (c : MmoClient) : (BoostSocket.new recvbuf incoming).Fits c :=
  ⟨⟨fun n hn => (by cases hn), fun _ _ hmem => (by cases hmem)⟩, fun _ => rfl, fun _ _ => rfl⟩

/-- The handlers that are called by nothing that a socket does. -/
theorem not_of_socket {s : Server} (h : s.can_run hd) : ¬ hd.of_socket k ∧ ∀ j, hd ≠ .on_accept j := by
  refine ⟨?_, ?_⟩
  · rintro (⟨data, size, rfl⟩ | rfl) <;> exact h
  · rintro j rfl
    exact h

theorem accept_step {recvbuf : Buffer} {incoming : Bytes} (h : NetOk n) (hnone : n.sockets k = none)
    (hh : n.handles (Function.update n.sockets k (some (.new recvbuf incoming))) (.on_accept k) n') :
    NetOk n' ∧ serverMachine.step n.server (.handler (.on_accept k)) n'.server := by
  refine handles_step h hh (fun o hal => ⟨?_, hal.1, hal.2⟩) (fun j hj => ?_) (fun j hj => ?_)
    fun j o socket c' he hsocket hc' => ?_
  · have hsessions := h.sessions k
    rw [hnone] at hsessions
    simpa using hsessions.symm
  · rw [Function.update_of_ne]
    rintro rfl
    exact hj rfl
  · cases hj
    rw [Function.update_self]
    rfl
  · by_cases hj : j = k
    · subst hj
      rw [Function.update_self] at hsocket
      cases hsocket
      exact new_fits recvbuf incoming c'
    · refine h.others_fit he hj ?_ hsocket hc'
      rintro (⟨data, size, hcall⟩ | hcall) <;> cases hcall

theorem internal_step (h : NetOk n) (hcan : n.server.can_run hd) (hh : n.handles n.sockets hd n') :
    NetOk n' ∧ serverMachine.step n.server (.handler hd) n'.server := by
  have hnot (j : SessionId) := not_of_socket (k := j) hcan
  refine handles_step h hh (fun o hal => ⟨?_, hal.1, hal.2⟩) (fun _ _ => rfl) (fun j hj => absurd hj ((hnot j).2 j))
    fun j o socket c' he hsocket hc' => ?_
  · cases hd <;> first | exact hcan | exact hcan.elim
  · obtain ⟨c, hc⟩ := h.client hsocket
    exact h.fits he (hnot j).1 hsocket hc hc'

theorem read_step {socket socket' : BoostSocket} {call : Completion} (h : NetOk n) (hsocket : n.sockets k = some socket)
    (hs : socketMachine.step socket .completion socket') (hcalls : socket'.calls = socket.calls ++ [call])
    (hh : n.handles (Function.update n.sockets k (some socket')) (call.handler k) n') :
    NetOk n' ∧ serverMachine.step n.server (.handler (call.handler k)) n'.server := by
  obtain ⟨c, hc⟩ := h.client hsocket
  have hsuits := h.suits k socket c hsocket hc
  have hbounded := bounded_step hsuits.bounded hs
  -- The session is open and waits for a packet, as it asked for one.
  have hreceiving (hopen : socket.is_pending_deletion = false) (hpending : socket.pending.isSome = true) :
      n.server.receiving k := by
    rw [hsuits.closed] at hopen
    exact ⟨c, hc, by rw [← hsuits.pending (by simpa using hopen), hpending]⟩
  have hothers (o : Outside) {j : SessionId} (hj : j ≠ k) (t : BoostSocket) (c' : MmoClient)
      (he : HandlerEffect (n.server.begin o) (call.handler k) n'.server)
      (ht : Function.update n.sockets k (some socket') j = some t) (hc' : n'.server.clients j = some c') : t.Fits c' := by
    refine h.others_fit he hj ?_ ht hc'
    cases call <;> rintro (⟨data, size, hcall⟩ | hcall) <;> cases hcall <;> exact hj rfl
  refine handles_step h hh (fun o hal => ⟨?_, hal.1, hal.2⟩) (fun j _ => ?_) (fun j hj => by cases call <;> cases hj)
    fun j o t c' he ht hc' => ?_
  · cases completed_of_step hs hcalls with
    | on_recv data size hopen _ hpending _ =>
      exact ⟨hreceiving hopen hpending, hbounded.calls data size (by simp [hcalls])⟩
    | on_error hopen _ hpending => exact hreceiving hopen hpending
  · by_cases hj : j = k
    · subst hj
      rw [Function.update_self, hsocket]
      rfl
    · rw [Function.update_of_ne hj]
  · by_cases hj : j = k
    · subst hj
      rw [Function.update_self] at ht
      cases ht
      cases completed_of_step hs hcalls with
      | on_recv data size _ hopen' _ hidle => exact ⟨hbounded, fun _ => hopen', fun _ _ => hidle⟩
      | on_error _ _ _ =>
        have hclosed : c'.is_open = false := he.error_closes hc'
        refine ⟨hbounded, fun ho => ?_, fun ho => ?_⟩ <;> rw [hclosed] at ho <;> cases ho
    · exact hothers o hj t c' he ht hc'

/-- Nobody is called: the socket reads on, or it had been closed. -/
theorem length_read_ok {socket socket' : BoostSocket} (h : NetOk n) (hsocket : n.sockets k = some socket)
    (hs : socketMachine.step socket .completion socket') (hcalls : socket'.calls = socket.calls) :
    NetOk { n with sockets := Function.update n.sockets k (some socket') } where
  server := h.server
  sessions j := by
    show (Function.update n.sockets k (some socket') j).isSome = _
    by_cases hj : j = k
    · subst hj
      rw [Function.update_self, ← h.sessions j, hsocket]
      rfl
    · rw [Function.update_of_ne hj]
      exact h.sessions j
  suits j t c ht hc := by
    replace ht : Function.update n.sockets k (some socket') j = some t := ht
    by_cases hj : j = k
    · subst hj
      rw [Function.update_self] at ht
      cases ht
      have hsuits := h.suits j socket c hsocket hc
      have hbounded := bounded_step hsuits.bounded hs
      have hnobody : socket'.calls = socket.calls ++ [] := by rw [hcalls, List.append_nil]
      cases completed_of_step hs hnobody with
      | closed hclosed hclosed' =>
        refine ⟨by rw [hclosed', ← hsuits.closed, hclosed], fun ho => ?_, hbounded⟩
        rw [hsuits.closed, ho] at hclosed
        cases hclosed
      | expected_len hopen hopen' hpending hpending' =>
        exact ⟨by rw [hopen', ← hsuits.closed, hopen],
          fun ho => by rw [hpending', ← hsuits.pending ho, hpending], hbounded⟩
    · rw [Function.update_of_ne hj] at ht
      exact h.suits j t c ht hc

/-- What the sockets have handed on, after the socket of session `k` has been replaced. -/
theorem handles_received {new : BoostSocket}
    (hh : n.handles (Function.update n.sockets k (some new)) hd n') (j : SessionId) :
    n'.received j = if j = k then new.received else n.received j := by
  obtain ⟨o, _, _, hsockets⟩ := hh
  unfold Network.received
  rw [hsockets, obeying_received]
  by_cases hj : j = k
  · subst hj
    rw [Function.update_self, if_pos rfl]
    rfl
  · rw [Function.update_of_ne hj, if_neg hj]

theorem one_server_step {sev : ServerEvent} (hstep : serverMachine.step n.server sev n'.server) :
    serverMachine.Run n.server [⟨n.server, sev, n'.server⟩] n'.server := Machine.Run.nil.snoc hstep

theorem accept_net_step {recvbuf : Buffer} {incoming : Bytes} (h : NetOk n) (hnone : n.sockets k = none)
    (hh : n.handles (Function.update n.sockets k (some (.new recvbuf incoming))) (.on_accept k) n') :
    NetStep n (.accept k recvbuf incoming) n' := by
  obtain ⟨hok, hstep⟩ := accept_step h hnone hh
  refine ⟨hok, ⟨_, one_server_step hstep, fun j => ?_⟩, fun j socket' hsocket' => ?_⟩
  · rw [handles_received hh j]
    split
    case isTrue hj =>
      subst hj
      rw [Network.received, hnone]
      rfl
    case isFalse => exact (List.append_nil _).symm
  · obtain ⟨o, _, _, hsockets⟩ := hh
    rw [hsockets] at hsocket'
    obtain ⟨socket, tr, hsocket, hr⟩ := obeying_run hsocket'
    by_cases hj : j = k
    · subst hj
      rw [Function.update_self] at hsocket
      cases hsocket
      exact .inr ⟨recvbuf, incoming, tr, rfl, hr⟩
    · rw [Function.update_of_ne hj] at hsocket
      exact .inl ⟨socket, tr, hsocket, hr⟩

/-- A read of one socket is none of the others'. -/
theorem read_run {socket socket' t : BoostSocket} {j : SessionId} (hsocket : n.sockets k = some socket)
    (hs : socketMachine.step socket .completion socket')
    (ht : Function.update n.sockets k (some socket') j = some t) :
    ∃ s tr, n.sockets j = some s ∧ socketMachine.Run s tr t := by
  by_cases hj : j = k
  · subst hj
    rw [Function.update_self] at ht
    cases ht
    exact ⟨socket, _, hsocket, Machine.Run.nil.snoc hs⟩
  · rw [Function.update_of_ne hj] at ht
    exact ⟨t, [], ht, .nil⟩

/-- Nobody is called, and nothing is handed on. -/
theorem length_read_net_step {socket socket' : BoostSocket} (h : NetOk n) (hsocket : n.sockets k = some socket)
    (hs : socketMachine.step socket .completion socket') (hcalls : socket'.calls = socket.calls) :
    NetStep n (.read k) { n with sockets := Function.update n.sockets k (some socket') } := by
  refine ⟨length_read_ok h hsocket hs hcalls, ⟨[], .nil, fun j => ?_⟩, fun j t ht => .inl (read_run hsocket hs ht)⟩
  show ((Function.update n.sockets k (some socket') j).map (·.received)).getD [] = n.received j ++ []
  rw [List.append_nil]
  by_cases hj : j = k
  · subst hj
    rw [Function.update_self, Network.received, hsocket]
    show socket'.received = socket.received
    rw [BoostSocket.received, hcalls]
    rfl
  · rw [Function.update_of_ne hj]
    rfl

/-- The session is called, and is handed what the call carries. -/
theorem read_net_step {socket socket' : BoostSocket} {call : Completion} (h : NetOk n)
    (hsocket : n.sockets k = some socket) (hs : socketMachine.step socket .completion socket')
    (hcalls : socket'.calls = socket.calls ++ [call])
    (hh : n.handles (Function.update n.sockets k (some socket')) (call.handler k) n') : NetStep n (.read k) n' := by
  obtain ⟨hok, hstep⟩ := read_step h hsocket hs hcalls hh
  refine ⟨hok, ⟨_, one_server_step hstep, fun j => ?_⟩, fun j t ht => .inl ?_⟩
  · rw [handles_received hh j, List.flatMap_singleton]
    split
    case isTrue hj =>
      subst hj
      rw [Network.received, hsocket]
      cases call <;> simp [BoostSocket.received, hcalls, Completion.handler, ServerEvent.handed, Completion.packet]
    case isFalse hj => cases call <;> simp [Completion.handler, ServerEvent.handed, Ne.symm hj]
  · obtain ⟨o, _, _, hobeying⟩ := hh
    rw [hobeying] at ht
    obtain ⟨s1, tr1, hs1, hr1⟩ := obeying_run ht
    obtain ⟨s0, tr0, hs0, hr0⟩ := read_run hsocket hs hs1
    exact ⟨s0, tr0 ++ tr1, hs0, hr0.trans hr1⟩

theorem internal_net_step (h : NetOk n) (hcan : n.server.can_run hd) (hh : n.handles n.sockets hd n') :
    NetStep n (.internal hd) n' := by
  obtain ⟨hok, hstep⟩ := internal_step h hcan hh
  obtain ⟨o, _, _, hsockets⟩ := hh
  refine ⟨hok, ⟨_, one_server_step hstep, fun j => ?_⟩, fun j socket' hsocket' => .inl ?_⟩
  · rw [Network.received, hsockets, obeying_received, List.flatMap_singleton]
    cases hd <;> first | exact hcan.elim | exact (List.append_nil _).symm
  · rw [hsockets] at hsocket'
    exact obeying_run hsocket'

theorem reorder_net_step (h : NetOk n) (hstep : serverMachine.step n.server .reorder n'.server)
    (hsockets : n'.sockets = n.sockets) : NetStep n .reorder n' := by
  have hclients : n'.server.clients = n.server.clients := by
    obtain ⟨w, _, _, hw⟩ := hstep
    rw [hw]
  refine ⟨⟨server_ok_step h.server hstep, fun k => ?_, fun k socket c hsocket hc => ?_⟩,
    ⟨_, one_server_step hstep, fun k => ?_⟩, fun k socket' hsocket' => ?_⟩
  · rw [hsockets, hclients]
    exact h.sessions k
  · rw [hsockets] at hsocket
    rw [hclients] at hc
    exact h.suits k socket c hsocket hc
  · rw [Network.received, hsockets]
    exact (List.append_nil _).symm
  · rw [hsockets] at hsocket'
    exact .inl ⟨socket', [], hsocket', .nil⟩

theorem net_step (h : NetOk n) (hs : netMachine.step n ev n') : NetStep n ev n' := by
  cases ev with
  | accept k recvbuf incoming =>
    obtain ⟨hnone, hh⟩ := hs
    exact accept_net_step h hnone hh
  | accept_error =>
    obtain rfl : n' = n := hs
    exact ⟨h, ⟨[], .nil, fun _ => (List.append_nil _).symm⟩, fun k socket hsocket => .inl ⟨socket, [], hsocket, .nil⟩⟩
  | read k =>
    obtain ⟨socket, socket', called, hsocket, hstep, hcalls, hcalled⟩ := hs
    cases completed_of_step hstep hcalls with
    | closed | expected_len =>
      rw [List.append_nil] at hcalls
      obtain rfl := hcalled
      exact length_read_net_step h hsocket hstep hcalls
    | on_recv | on_error => exact read_net_step h hsocket hstep hcalls hcalled
  | internal hd =>
    obtain ⟨hcan, hh⟩ := hs
    exact internal_net_step h hcan hh
  | reorder =>
    obtain ⟨hstep, hsockets⟩ := hs
    exact reorder_net_step h hstep hsockets

end step

/-! ## Runs -/

section runs

variable {n0 n : Network} {tr : List (Taken Network NetEvent)} {k : SessionId}

theorem net_ok_init (h : netMachine.init n) : NetOk n := by
  obtain ⟨h0, hsockets⟩ := h
  refine ⟨server_ok_init h0, fun k => ?_, fun k socket c hsocket => ?_⟩
  · obtain ⟨db, hdb, _⟩ := h0
    rw [hsockets, hdb]
    rfl
  · rw [hsockets] at hsocket
    cases hsocket

/-- A run of the network is one of the server, and one of each socket. -/
theorem net_run (h0 : netMachine.init n0) (h : netMachine.Run n0 tr n) :
    NetOk n ∧
    (∃ tr', serverMachine.Run n0.server tr' n.server ∧ ∀ k, tr'.flatMap (fun x => x.event.handed k) = n.received k) ∧
    ∀ k socket, n.sockets k = some socket → ∃ recvbuf incoming tr',
      (∃ x ∈ tr, x.event = .accept k recvbuf incoming) ∧ socketMachine.Run (.new recvbuf incoming) tr' socket := by
  induction h with
  | nil =>
    have hsockets := h0.2
    refine ⟨net_ok_init h0, ⟨[], .nil, fun k => ?_⟩, fun k socket hsocket => ?_⟩
    · rw [Network.received, hsockets]
      rfl
    · rw [hsockets] at hsocket
      cases hsocket
  | @snoc tr n ev n' _ hs ih =>
    obtain ⟨hok, ⟨tr0, hr0, hreceived⟩, hsockets⟩ := ih
    obtain ⟨hok', ⟨tr1, hr1, hreceived'⟩, hsockets'⟩ := net_step hok hs
    refine ⟨hok', ⟨tr0 ++ tr1, hr0.trans hr1, fun k => ?_⟩, fun k socket' hsocket' => ?_⟩
    · rw [List.flatMap_append, hreceived k, hreceived' k]
    · rcases hsockets' k socket' hsocket' with
        ⟨socket, tr2, hsocket, hr2⟩ | ⟨recvbuf, incoming, tr2, rfl, hr2⟩
      · obtain ⟨recvbuf, incoming, tr3, ⟨x, hx, hev⟩, hr3⟩ := hsockets k socket hsocket
        exact ⟨recvbuf, incoming, tr3 ++ tr2, ⟨x, List.mem_append_left _ hx, hev⟩, hr3.trans hr2⟩
      · exact ⟨recvbuf, incoming, tr2, ⟨_, List.mem_append_right _ (List.mem_singleton_self _), rfl⟩, hr2⟩

/-- What the sockets do is what the server takes for granted: a run on the network
is a run of the server, in which every session is handed, in order, the packets of
the frames its connection begins with, then at most the error. Socket and session
agree on whether they are open and whether a packet is waited for. -/
theorem network_runs_server (h0 : netMachine.init n0) (h : netMachine.Run n0 tr n) :
    (∃ tr', serverMachine.Run n0.server tr' n.server ∧ ∀ k, tr'.flatMap (fun x => x.event.handed k) = n.received k) ∧
    ∀ k c, n.server.clients k = some c → ∃ socket recvbuf incoming all,
      n.sockets k = some socket ∧ (∃ x ∈ tr, x.event = .accept k recvbuf incoming) ∧
      socket.is_pending_deletion = !c.is_open ∧ (c.is_open = true → socket.pending.isSome = c.receiving) ∧
      wire.Longest incoming all ∧
      ((∃ ps, ps <+: all ∧ n.received k = ps.map some) ∨ n.received k = all.map some ++ [none]) := by
  obtain ⟨hok, hserver, hsockets⟩ := net_run h0 h
  refine ⟨hserver, fun k c hc => ?_⟩
  obtain ⟨socket, hsocket⟩ : ∃ socket, n.sockets k = some socket := by
    rw [← Option.isSome_iff_exists, hok.sessions k, hc]
    rfl
  obtain ⟨recvbuf, incoming, tr', haccept, hr⟩ := hsockets k socket hsocket
  obtain ⟨all, hall⟩ := Framing.exists_longest wire incoming
  have hsuits := hok.suits k socket c hsocket hc
  have hreceived : n.received k = socket.received := by
    rw [Network.received, hsocket]
    rfl
  refine ⟨socket, recvbuf, incoming, all, hsocket, haccept, hsuits.closed, hsuits.pending, hall, ?_⟩
  rw [hreceived]
  rcases socket_run hall hr with ⟨ps, qs, hw, _⟩ | ⟨_, hf | ⟨_, hps, _⟩⟩
  · exact .inl ⟨ps, ⟨qs, hw.split.symm⟩, hw.received⟩
  · exact .inr hf.received
  · exact .inl hps

end runs

/-! ## Dora connects -/

/-- The network after the handler. -/
def Network.handled (n : Network) (sockets : SessionId → Option BoostSocket) (hd : Handler) : Network :=
  ⟨n.server.played 0 hd, obeying sockets (n.server.played 0 hd)⟩

def net_of_doras_tables : Network := ⟨.fresh doras_tables, fun _ => none⟩

/-- Her connection has been accepted. -/
def connected (connection : BoostSocket) : Network :=
  net_of_doras_tables.handled (Function.update net_of_doras_tables.sockets 0 (some connection)) (.on_accept 0)

def BoostSocket.length_read (connection : BoostSocket) : BoostSocket := connection.async_recv.expected_len_read

def length_arrives (connection : BoostSocket) : Network :=
  { connected connection with sockets := Function.update (connected connection).sockets 0 (some connection.length_read) }

/-- Her first packet has been handed on. -/
def packet_arrives (connection : BoostSocket) (size : Nat) : Network :=
  (length_arrives connection).handled
    (Function.update (length_arrives connection).sockets 0 (some (connection.length_read.data_read size)))
    (.on_recv 0 (connection.length_read.data_read size).recvbuf size)

/-- Her keys come in, and half a length. -/
def doras_connection : BoostSocket :=
  .new (.of []) (boost_socket.send_to_client (.of login_packet) login_packet.length ++ [1, 0])

def doras_keys_handed : Network := packet_arrives doras_connection login_packet.length

theorem handled_step {n : Network} {sockets : SessionId → Option BoostSocket} {hd : Handler}
    (hal : (outside_at 0).Allocates n.server)
    (hr : hd.run (n.server.begin (outside_at 0)) = .ok () (n.server.played 0 hd)) :
    n.handles sockets hd (n.handled sockets hd) := ⟨_, hal, hr, rfl⟩

theorem nobody_allocates {s : Server} (h : s.world.chat.entities = fun _ => none)
    (hrooms : s.world.chat.rooms = fun _ => none) : (outside_at 0).Allocates s :=
  ⟨fun p hp => (by rw [h] at hp; cases hp), by rw [hrooms]⟩

/-- She is handed her keys, and is to enter the lobby. -/
theorem dora_is_handed_her_keys : ∃ tr', serverMachine.Run (.fresh doras_tables) tr' doras_keys_handed.server ∧
    (tr'.flatMap fun x => x.event.handed 0) = [some login_packet] ∧
    doras_keys_handed.server.sync_strand = [.transition 0] := by
  have h0 : netMachine.init net_of_doras_tables := ⟨doras_tables_init, rfl⟩
  have s1 : netMachine.step net_of_doras_tables (.accept 0 (.of []) doras_connection.incoming)
      (connected doras_connection) :=
    ⟨rfl, handled_step (nobody_allocates rfl rfl) rfl⟩
  have s2 : netMachine.step (connected doras_connection) (.read 0) (length_arrives doras_connection) :=
    ⟨doras_connection.async_recv, doras_connection.length_read, [], rfl, rfl, rfl, rfl⟩
  have s3 : netMachine.step (length_arrives doras_connection) (.read 0) doras_keys_handed :=
    ⟨doras_connection.length_read, doras_connection.length_read.data_read login_packet.length,
      [.on_recv _ login_packet.length], rfl, rfl, rfl, handled_step (nobody_allocates rfl rfl) rfl⟩
  have hrun := ((Machine.Run.nil.snoc s1).snoc s2).snoc s3
  obtain ⟨⟨tr', hr, hhanded⟩, _⟩ := network_runs_server h0 hrun
  exact ⟨tr', hr, (hhanded 0).trans rfl, rfl⟩

end tejk_it_izi
