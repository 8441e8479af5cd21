import TejkItIzi.Lib.Framing
import TejkItIzi.Lib.Runs
import TejkItIzi.Requests
/-!
# The socket

`boost_socket` reads a length of 4 bytes, then as many bytes, both into
`recvbuf_`, and calls its handler. It reads on only when the handler asks for it.
-/

namespace tejk_it_izi

open ProgLib

/-- A length in front of each packet. -/
def wire : Framing UInt8 where
  header_size := 4
  limit := buffer_size
  encode := LittleEndian.encode 4
  decode := LittleEndian.decode
  header_pos := by decide
  length_encode := LittleEndian.length_encode 4
  decode_encode n hn := by
    rw [LittleEndian.decode_encode, Nat.mod_eq_of_lt]
    unfold buffer_size at hn
    omega
  encode_decode header hlen := by
    have hback := LittleEndian.encode_decode header
    rwa [hlen] at hback

/-- The buffer after these bytes have been read into its beginning. -/
def Buffer.fill (data : Buffer) (bytes : Bytes) : Buffer :=
  ⟨(bytes ++ data.bytes.drop bytes.length).take buffer_size, by
    have hfull := data.full
    rw [List.length_take, List.length_append, List.length_drop]
    omega⟩

/-- A call of the `recv_completion_handler`. -/
inductive Completion where
  | on_recv (data : Buffer) (size : Nat)
  | on_error

/-- What it brings: the packet, or nothing. -/
def Completion.packet : Completion → Option Bytes
  | .on_recv data size => some (data.bytes.take size)
  | .on_error => none

/-- The `async_read` that is pending. -/
inductive PendingRead where
  | expected_len
  | data (expected_len : Nat)
  deriving DecidableEq

structure BoostSocket where
  is_pending_deletion : Bool
  recvbuf : Buffer
  pending : Option PendingRead
  /-- What is still to be read until the socket fails. -/
  incoming : Bytes
  /-- How the handler has been called. -/
  calls : List Completion

namespace BoostSocket

/-- A new socket; its buffer is not initialised. -/
def new (recvbuf : Buffer) (incoming : Bytes) : BoostSocket := ⟨false, recvbuf, none, incoming, []⟩

/-- The end of `async_read`: whether it failed, how much it read, and where. -/
def async_read (s : BoostSocket) (n : Nat) : Bool × Nat × BoostSocket :=
  let read := s.incoming.take n
  (read.length < n, read.length,
    { s with recvbuf := s.recvbuf.fill read, incoming := s.incoming.drop n, pending := none })

def do_recv_expected_len (s : BoostSocket) : BoostSocket := { s with pending := some .expected_len }

def do_recv_data (s : BoostSocket) (expected_len : Nat) : BoostSocket := { s with pending := some (.data expected_len) }

def async_recv (s : BoostSocket) : BoostSocket := s.do_recv_expected_len

def force_close (s : BoostSocket) : BoostSocket :=
  if s.is_pending_deletion then s else { s with is_pending_deletion := true }

/-- `mmoclient::on_recv`. What the session does with the packet are steps of their own. -/
def on_recv (s : BoostSocket) (size : Nat) : BoostSocket := { s with calls := s.calls ++ [.on_recv s.recvbuf size] }

/-- `mmoclient::on_error`. -/
def on_error (s : BoostSocket) : BoostSocket := force_close { s with calls := s.calls ++ [.on_error] }

/-- The handler of `do_recv_expected_len`. -/
def expected_len_read (s : BoostSocket) : BoostSocket :=
  let (ec, bytes_read, s) := s.async_read 4
  if s.is_pending_deletion then s
  else
    let len := LittleEndian.decode (s.recvbuf.bytes.take 4)
    if ec ∨ bytes_read ≠ 4 ∨ len > buffer_size then s.on_error
    else s.do_recv_data len

/-- The handler of `do_recv_data`. -/
def data_read (s : BoostSocket) (expected_len : Nat) : BoostSocket :=
  let (ec, bytes_read, s) := s.async_read expected_len
  if s.is_pending_deletion then s
  else if ec ∨ bytes_read ≠ expected_len then s.on_error
  else s.on_recv bytes_read

end BoostSocket

/-- What it writes for a packet. -/
def boost_socket.send_to_client (data : Buffer) (size : Nat) : Bytes := LittleEndian.encode 4 size ++ data.bytes.take size

inductive SocketEvent where
  /-- The handler asks for a packet. -/
  | async_recv
  /-- The pending read completes. -/
  | completion
  | force_close
  deriving DecidableEq

/-- The socket under any use of it. A socket is not read twice at once. -/
def socketMachine : Machine BoostSocket SocketEvent where
  init s := ∃ recvbuf incoming, s = .new recvbuf incoming
  step s ev s' := match ev with
    | .async_recv => s.pending = none ∧ s' = s.async_recv
    | .completion => match s.pending with
      | none => False
      | some .expected_len => s' = s.expected_len_read
      | some (.data expected_len) => s' = s.data_read expected_len
    | .force_close => s' = s.force_close

/-! ## One read -/

section read

variable {s : BoostSocket} {n : Nat}

theorem Buffer.fill_take (data : Buffer) {bytes : Bytes} (h : bytes.length ≤ buffer_size) :
    (data.fill bytes).bytes.take bytes.length = bytes := by
  show ((bytes ++ _).take buffer_size).take bytes.length = bytes
  rw [List.take_take, Nat.min_eq_left h, List.take_left]

/-- The socket behind a completed read. -/
def BoostSocket.after_read (s : BoostSocket) (n : Nat) : BoostSocket :=
  { s with recvbuf := s.recvbuf.fill (s.incoming.take n), incoming := s.incoming.drop n, pending := none }

theorem async_read_run (h : n ≤ s.incoming.length) : s.async_read n = (false, n, s.after_read n) := by
  have hlen : (s.incoming.take n).length = n := by
    rw [List.length_take, Nat.min_eq_left h]
  unfold BoostSocket.async_read
  simp only [hlen]
  simp [BoostSocket.after_read]

theorem async_read_fails (h : s.incoming.length < n) : s.async_read n = (true, s.incoming.length, s.after_read n) := by
  have hlen : (s.incoming.take n).length = s.incoming.length := by
    rw [List.length_take, Nat.min_eq_right h.le]
  unfold BoostSocket.async_read
  simp only [hlen]
  simp [h, BoostSocket.after_read]

theorem after_read_take (hn : n ≤ buffer_size) (h : n ≤ s.incoming.length) :
    (s.after_read n).recvbuf.bytes.take n = s.incoming.take n := by
  have hlen : (s.incoming.take n).length = n := by
    rw [List.length_take, Nat.min_eq_left h]
  have hfits : (s.incoming.take n).length ≤ buffer_size := by omega
  have hfill := Buffer.fill_take s.recvbuf hfits
  rwa [hlen] at hfill

end read

/-! ## Frames -/

/-- The bytes of the frames that have not been delivered. -/
def BoostSocket.unread (s : BoostSocket) : Bytes :=
  match s.pending with
  | some (.data expected_len) => wire.encode expected_len ++ s.incoming
  | _ => s.incoming

/-- What the handler was called with. -/
def BoostSocket.received (s : BoostSocket) : List (Option Bytes) := s.calls.map Completion.packet

/-- Of the packets `all` of a stream, the first `ps` have been delivered and
`qs` are still to come. -/
structure BoostSocket.Waits (all ps qs : List Bytes) (s : BoostSocket) : Prop where
  is_open : s.is_pending_deletion = false
  received : s.received = ps.map some
  split : all = ps ++ qs
  left : wire.Longest s.unread qs
  small : ∀ n, s.pending = some (.data n) → n ≤ buffer_size

/-- Every packet has been delivered, then the error. -/
structure BoostSocket.Failed (all : List Bytes) (s : BoostSocket) : Prop where
  closed : s.is_pending_deletion = true
  received : s.received = all.map some ++ [none]

/-- How many reads can still complete. -/
def BoostSocket.todo (qs : List Bytes) (s : BoostSocket) : Nat :=
  match s.pending with
  | some (.data _) => 2 * qs.length + 1
  | _ => 2 * qs.length + 2

section frames

variable {s s' : BoostSocket} {all ps qs : List Bytes}

namespace BoostSocket

theorem new_waits (recvbuf : Buffer) {stream : Bytes} (h : wire.Longest stream all) :
    (new recvbuf stream).Waits all [] all where
  is_open := rfl
  received := rfl
  split := rfl
  left := h
  small n hn := by cases hn

theorem Waits.async_recv (h : s.Waits all ps qs) (hp : s.pending = none) : s.async_recv.Waits all ps qs where
  is_open := h.is_open
  received := h.received
  split := h.split
  left := by
    have hleft := h.left
    rw [unread, hp] at hleft
    exact hleft
  small n hn := by cases hn

/-- No frame is left: the error is all there is to report. -/
theorem Waits.fails (h : s.Waits all ps qs) (hnone : wire.next s.unread = none) {s1 : BoostSocket}
    (h1 : s1.calls = s.calls) (hopen : s1.is_pending_deletion = false) : s1.on_error.Failed all := by
  have hqs : qs = [] := h.left.unique (Framing.longest_nil hnone)
  have hall : all = ps := by rw [h.split, hqs, List.append_nil]
  unfold on_error force_close
  rw [if_neg (by simp [hopen])]
  refine ⟨rfl, ?_⟩
  have hr := h.received
  unfold BoostSocket.received at hr ⊢
  simp only [List.map_append, h1, hr, hall]
  rfl

/-- The length is read: a frame of that length is next, or no frame at all. -/
theorem Waits.expected_len_read (h : s.Waits all ps qs) (hp : s.pending = some .expected_len) :
    s.expected_len_read.Failed all ∨
      s.expected_len_read.Waits all ps qs ∧ s.expected_len_read.todo qs < s.todo qs := by
  have hunread : s.unread = s.incoming := by rw [unread, hp]
  have hopen : (s.after_read 4).is_pending_deletion = false := h.is_open
  unfold BoostSocket.expected_len_read
  by_cases h4 : 4 ≤ s.incoming.length
  · have htake := after_read_take (by decide) h4
    rw [async_read_run h4]
    simp only [hopen, htake, Bool.false_eq_true, if_false, ne_eq, not_true, false_or]
    split
    case isTrue hlong =>
      refine .inl (h.fails ?_ rfl hopen)
      rw [hunread]
      exact Framing.next_bad_header fun _ => hlong
    case isFalse hfits =>
      refine .inr ⟨⟨hopen, h.received, h.split, ?_, ?_⟩, ?_⟩
      · -- The length and what is behind it are what there was.
        have hlen : (s.incoming.take 4).length = 4 := by
          rw [List.length_take, Nat.min_eq_left h4]
        have hleft := h.left
        rw [hunread] at hleft
        show wire.Longest (wire.encode (wire.decode (s.incoming.take 4)) ++ s.incoming.drop 4) qs
        rwa [wire.encode_decode _ hlen, List.take_append_drop]
      · intro n hn
        cases hn
        omega
      · rw [todo, todo, hp]
        exact Nat.lt_succ_self _
  · rw [async_read_fails (by omega)]
    simp only [hopen, Bool.false_eq_true, if_false, true_or, if_true]
    refine .inl (h.fails ?_ rfl hopen)
    rw [hunread]
    exact Framing.next_bad_header fun hge => absurd hge h4

theorem on_recv_received {n : Nat} (hn : n ≤ buffer_size) (hlen : n ≤ s.incoming.length) :
    ((s.after_read n).on_recv n).received = s.received ++ [some (s.incoming.take n)] := by
  rw [← after_read_take hn hlen]
  unfold received
  simp only [on_recv, List.map_append]
  rfl

/-- The data that is awaited is the first packet of what is left. -/
theorem Waits.next_packet {n : Nat} (h : s.Waits all ps qs) (hp : s.pending = some (.data n))
    (hlen : n ≤ s.incoming.length) :
    ∃ qs', qs = s.incoming.take n :: qs' ∧ wire.Longest (s.incoming.drop n) qs' := by
  have htake : (s.incoming.take n).length = n := by
    rw [List.length_take, Nat.min_eq_left hlen]
  have hpayload : (s.incoming.take n).length ≤ wire.limit := by
    rw [htake]
    exact h.small n hp
  obtain ⟨qs', hqs'⟩ := Framing.exists_longest wire (s.incoming.drop n)
  have hfront := hqs'.cons hpayload
  have hunread : s.unread = wire.encode n ++ s.incoming := by rw [unread, hp]
  rw [Framing.frame_append, htake, List.take_append_drop, ← hunread] at hfront
  exact ⟨qs', h.left.unique hfront, hqs'⟩

/-- The data is read and delivered, or it is cut off. -/
theorem Waits.data_read {n : Nat} (h : s.Waits all ps qs) (hp : s.pending = some (.data n)) :
    (s.data_read n).Failed all ∨
      ∃ p qs', (s.data_read n).Waits all (ps ++ [p]) qs' ∧ (s.data_read n).todo qs' < s.todo qs := by
  have hn := h.small n hp
  have hopen : (s.after_read n).is_pending_deletion = false := h.is_open
  unfold BoostSocket.data_read
  by_cases hlen : n ≤ s.incoming.length
  · rw [async_read_run hlen]
    simp only [hopen, Bool.false_eq_true, if_false, ne_eq, not_true, false_or]
    obtain ⟨qs', hqs, hleft⟩ := h.next_packet hp hlen
    refine .inr ⟨s.incoming.take n, qs', ⟨hopen, ?_, ?_, hleft, ?_⟩, ?_⟩
    · rw [on_recv_received hn hlen, h.received, List.map_append]
      rfl
    · rw [h.split, hqs, List.append_assoc]
      rfl
    · intro m hm
      cases hm
    · rw [todo, todo, hp, hqs, List.length_cons]
      show 2 * qs'.length + 2 < 2 * (qs'.length + 1) + 1
      omega
  · rw [async_read_fails (by omega)]
    simp only [hopen, Bool.false_eq_true, if_false, true_or, if_true]
    refine .inl (h.fails ?_ rfl hopen)
    rw [unread, hp]
    exact Framing.next_cut hn (by omega)

end BoostSocket

end frames

/-! ## Runs -/

/-- The reads that completed before the socket was closed. -/
def reads (tr : List (Taken BoostSocket SocketEvent)) : Nat :=
  tr.countP fun x => !x.pre.is_pending_deletion && x.event = .completion

section runs

variable {s s' : BoostSocket} {ev : SocketEvent} {all ps qs : List Bytes} {stream : Bytes}

theorem socket_closed_step (h : s.is_pending_deletion = true) (hs : socketMachine.step s ev s') :
    s'.is_pending_deletion = true ∧ s'.calls = s.calls := by
  cases ev with
  | async_recv =>
    obtain ⟨_, rfl⟩ := hs
    exact ⟨h, rfl⟩
  | completion =>
    simp only [socketMachine] at hs
    split at hs
    · exact hs.elim
    · subst hs
      simp [BoostSocket.expected_len_read, BoostSocket.async_read, h]
    · subst hs
      simp [BoostSocket.data_read, BoostSocket.async_read, h]
  | force_close =>
    obtain rfl : s' = s.force_close := hs
    rw [BoostSocket.force_close, if_pos h]
    exact ⟨h, rfl⟩

/-- A socket that is not read stays so until it is asked to. -/
theorem socket_idle_step (h : s.pending = none) (hev : ev ≠ .async_recv) (hs : socketMachine.step s ev s') :
    s'.pending = none ∧ s'.calls = s.calls := by
  cases ev with
  | async_recv => exact absurd rfl hev
  | completion => simp [socketMachine, h] at hs
  | force_close =>
    obtain rfl : s' = s.force_close := hs
    unfold BoostSocket.force_close
    split
    · exact ⟨h, rfl⟩
    · exact ⟨h, rfl⟩

theorem todo_pos (s : BoostSocket) (qs : List Bytes) : 0 < s.todo qs := by
  unfold BoostSocket.todo
  split <;> omega

/-- A socket that waits goes on waiting, with a read less to come if one has
completed, or fails, or is closed. -/
theorem waits_step (h : s.Waits all ps qs) (hs : socketMachine.step s ev s') :
    (∃ ps' qs', s'.Waits all ps' qs' ∧ s'.todo qs' + (if ev = .completion then 1 else 0) ≤ s.todo qs) ∨
    s'.Failed all ∨ (ev = .force_close ∧ s'.is_pending_deletion = true ∧ s'.calls = s.calls) := by
  cases ev with
  | async_recv =>
    obtain ⟨hp, rfl⟩ := hs
    refine .inl ⟨ps, qs, h.async_recv hp, ?_⟩
    simp [BoostSocket.todo, BoostSocket.async_recv, BoostSocket.do_recv_expected_len, hp]
  | completion =>
    simp only [socketMachine] at hs
    split at hs
    case h_1 => exact hs.elim
    case h_2 hp =>
      subst hs
      rcases h.expected_len_read hp with hf | ⟨hw, hlt⟩
      · exact .inr (.inl hf)
      · exact .inl ⟨ps, qs, hw, hlt⟩
    case h_3 n hp =>
      subst hs
      rcases h.data_read hp with hf | ⟨p, qs', hw, hlt⟩
      · exact .inr (.inl hf)
      · exact .inl ⟨_, qs', hw, hlt⟩
  | force_close =>
    obtain rfl : s' = s.force_close := hs
    rw [BoostSocket.force_close, if_neg (by simp [h.is_open])]
    exact .inr (.inr ⟨rfl, rfl, rfl⟩)

theorem reads_snoc (tr : List (Taken BoostSocket SocketEvent)) (s s' : BoostSocket) (ev : SocketEvent) :
    reads (tr ++ [⟨s, ev, s'⟩]) = reads tr + if s.is_pending_deletion = false ∧ ev = .completion then 1 else 0 := by
  unfold reads
  rw [List.countP_append, List.countP_singleton]
  simp

variable {recvbuf : Buffer} {tr : List (Taken BoostSocket SocketEvent)}

theorem socket_run (hall : wire.Longest stream all) (h : socketMachine.Run (.new recvbuf stream) tr s) :
    (∃ ps qs, s.Waits all ps qs ∧ reads tr + s.todo qs ≤ 2 * all.length + 2) ∨
    reads tr ≤ 2 * all.length + 2 ∧
      (s.Failed all ∨ s.is_pending_deletion = true ∧ (∃ ps, ps <+: all ∧ s.received = ps.map some) ∧
        ∃ x ∈ tr, x.event = .force_close) := by
  induction h with
  | nil => exact .inl ⟨[], all, BoostSocket.new_waits recvbuf hall, Nat.le_of_eq (Nat.zero_add _)⟩
  | @snoc tr s ev s' _ hs ih =>
    rw [reads_snoc]
    rcases ih with ⟨ps, qs, hw, hle⟩ | ⟨hle, hend⟩
    · have hpos := todo_pos s qs
      have hone : (if s.is_pending_deletion = false ∧ ev = .completion then 1 else 0) =
          if ev = .completion then 1 else 0 := by
        simp [hw.is_open]
      rw [hone]
      rcases waits_step hw hs with ⟨ps', qs', hw', hlt⟩ | hf | ⟨rfl, hclosed, hcalls⟩
      · exact .inl ⟨ps', qs', hw', by omega⟩
      · refine .inr ⟨?_, .inl hf⟩
        split <;> omega
      · refine .inr ⟨by simp only [reduceCtorEq, if_false]; omega, .inr ⟨hclosed, ⟨ps, ⟨qs, hw.split.symm⟩, ?_⟩, ?_⟩⟩
        · rw [BoostSocket.received, hcalls]
          exact hw.received
        · exact ⟨_, List.mem_append_right _ (List.mem_singleton_self _), rfl⟩
    · -- Closed: the step changes nothing of this.
      have hclosed : s.is_pending_deletion = true := hend.elim (fun hf => hf.closed) fun hc => hc.1
      obtain ⟨hclosed', hcalls⟩ := socket_closed_step hclosed hs
      have hsame : s'.received = s.received := by
        rw [BoostSocket.received, hcalls]
        rfl
      refine .inr ⟨by simp [hclosed, hle], ?_⟩
      rcases hend with hf | ⟨_, hps, x, hx, hev⟩
      · exact .inl ⟨hclosed', hsame.trans hf.received⟩
      · exact .inr ⟨hclosed', by rwa [hsame], x, List.mem_append_left _ hx, hev⟩

/-- A handler that always asks for more gets everything. -/
theorem waits_fails {n : Nat} (h : s.Waits all ps qs) (hn : s.todo qs ≤ n) :
    ∃ tr t, socketMachine.Run s tr t ∧ (∀ x ∈ tr, x.event ≠ .force_close) ∧ t.Failed all := by
  induction n generalizing s ps qs with
  | zero => exact absurd (todo_pos s qs) (by omega)
  | succ n ih =>
    -- A completed read is the last one, or the handler goes on.
    have hread {s : BoostSocket} {ps qs} (h : s.Waits all ps qs) (hn : s.todo qs ≤ n + 1) (hp : s.pending ≠ none) :
        ∃ tr t, socketMachine.Run s tr t ∧ (∀ x ∈ tr, x.event ≠ .force_close) ∧ t.Failed all := by
      obtain ⟨s', hs⟩ : ∃ s', socketMachine.step s .completion s' := by
        simp only [socketMachine]
        split
        · contradiction
        · exact ⟨_, rfl⟩
        · exact ⟨_, rfl⟩
      rcases waits_step h hs with ⟨ps', qs', hw, hlt⟩ | hf | ⟨hev, _⟩
      · obtain ⟨tr, t, hr, hev, hf⟩ := ih hw (by simp only [if_true] at hlt; omega)
        refine ⟨[⟨s, .completion, s'⟩] ++ tr, t, (Machine.Run.nil.snoc hs).trans hr, ?_, hf⟩
        simpa using hev
      · exact ⟨_, s', .snoc .nil hs, by simp, hf⟩
      · cases hev
    by_cases hp : s.pending = none
    · have hs : socketMachine.step s .async_recv s.async_recv := ⟨hp, rfl⟩
      have htodo : s.async_recv.todo qs = s.todo qs := by
        simp [BoostSocket.todo, BoostSocket.async_recv, BoostSocket.do_recv_expected_len, hp]
      have hasked : s.async_recv.pending ≠ none := by
        simp [BoostSocket.async_recv, BoostSocket.do_recv_expected_len]
      obtain ⟨tr, t, hr, hev, hf⟩ := hread (h.async_recv hp) (htodo ▸ hn) hasked
      refine ⟨[⟨s, .async_recv, s.async_recv⟩] ++ tr, t, (Machine.Run.nil.snoc hs).trans hr, ?_, hf⟩
      simpa using hev
    · exact hread h hn hp

/-- Nothing is called once the socket is closed, or while nobody asks. -/
theorem socket_silent (h : socketMachine.Run s tr s')
    (hs : s.is_pending_deletion = true ∨ s.pending = none ∧ ∀ x ∈ tr, x.event ≠ .async_recv) : s'.calls = s.calls := by
  rcases hs with hclosed | ⟨hidle, hev⟩
  · exact (h.keeps (I := fun t => t.is_pending_deletion = true ∧ t.calls = s.calls) (C := fun _ _ => True)
      (fun t ev u ht _ hstep =>
        ⟨(socket_closed_step ht.1 hstep).1, (socket_closed_step ht.1 hstep).2.trans ht.2⟩)
      (fun _ _ => trivial) ⟨hclosed, rfl⟩).2
  · exact (h.keeps (I := fun t => t.pending = none ∧ t.calls = s.calls) (C := fun _ ev => ev ≠ .async_recv)
      (fun t ev u ht hne hstep =>
        ⟨(socket_idle_step ht.1 hne hstep).1, (socket_idle_step ht.1 hne hstep).2.trans ht.2⟩)
      hev ⟨hidle, rfl⟩).2

end runs

/-! ## What the session is called with -/

/-- Nothing asks for more than the buffer holds, and no more is delivered. -/
structure BoostSocket.Bounded (s : BoostSocket) : Prop where
  pending : ∀ n, s.pending = some (.data n) → n ≤ buffer_size
  calls : ∀ data size, .on_recv data size ∈ s.calls → size ≤ buffer_size

section bounded

variable {s s' : BoostSocket}

theorem on_error_bounded (h : s.Bounded) : s.on_error.Bounded := by
  have hcalls : s.on_error.calls = s.calls ++ [.on_error] := by
    unfold BoostSocket.on_error BoostSocket.force_close
    split <;> rfl
  have hpending : s.on_error.pending = s.pending := by
    unfold BoostSocket.on_error BoostSocket.force_close
    split <;> rfl
  exact ⟨by rw [hpending]; exact h.pending, fun data size hmem => h.calls data size (by simpa [hcalls] using hmem)⟩

theorem async_read_bounded (h : s.Bounded) (n : Nat) : (s.async_read n).2.2.Bounded :=
  ⟨fun n hn => (by cases hn), h.calls⟩

theorem bounded_step (h : s.Bounded) {ev : SocketEvent} (hs : socketMachine.step s ev s') : s'.Bounded := by
  cases ev with
  | async_recv =>
    obtain ⟨_, rfl⟩ := hs
    exact ⟨fun n hn => (by cases hn), h.calls⟩
  | completion =>
    simp only [socketMachine] at hs
    split at hs
    case h_1 => exact hs.elim
    case h_2 =>
      subst hs
      have hread := async_read_bounded h 4
      unfold BoostSocket.expected_len_read
      simp only
      split_ifs with hclosed hbad
      · exact hread
      · exact on_error_bounded hread
      · exact ⟨fun n hn => by cases hn; omega, h.calls⟩
    case h_3 n hp =>
      subst hs
      have hread := async_read_bounded h n
      unfold BoostSocket.data_read
      simp only
      split_ifs with hclosed hbad
      · exact hread
      · exact on_error_bounded hread
      · refine ⟨hread.pending, fun data size hmem => ?_⟩
        rcases List.mem_append.1 hmem with hmem | hmem
        · exact h.calls data size hmem
        · obtain ⟨rfl, rfl⟩ := Completion.on_recv.inj (List.mem_singleton.1 hmem)
          exact (List.length_take_le _ _).trans (h.pending n hp)
  | force_close =>
    obtain rfl : s' = s.force_close := hs
    unfold BoostSocket.force_close
    split
    · exact h
    · exact ⟨h.pending, h.calls⟩

end bounded

theorem sent_longest {packets : List (Buffer × Nat)} (h : ∀ p ∈ packets, p.2 ≤ buffer_size) :
    wire.Longest (packets.flatMap fun p => boost_socket.send_to_client p.1 p.2)
      (packets.map fun p => p.1.bytes.take p.2) := by
  have hlen (p : Buffer × Nat) (hp : p ∈ packets) : (p.1.bytes.take p.2).length = p.2 := by
    rw [List.length_take, p.1.full, Nat.min_eq_left (h p hp)]
  have hvalid : wire.Valid (packets.map fun p => p.1.bytes.take p.2) := by
    intro payload hmem
    obtain ⟨p, hp, rfl⟩ := List.mem_map.1 hmem
    rw [hlen p hp]
    exact h p hp
  have hframes : (packets.map fun p => p.1.bytes.take p.2).flatMap wire.frame =
      packets.flatMap fun p => boost_socket.send_to_client p.1 p.2 := by
    rw [List.flatMap_map]
    refine List.flatMap_congr fun p hp => ?_
    rw [Framing.frame, hlen p hp]
    rfl
  have hlongest := Framing.longest_frames hvalid Framing.next_nil
  rwa [List.append_nil, hframes] at hlongest

/-- What `send_to_client` writes is read back packet by packet; and of any stream
the handler gets the packets of the longest part that is made of frames, then
one error, unless it closes the socket or stops asking: then it gets the first
of them and is never called again. -/
theorem framing_exact :
    (∀ packets : List (Buffer × Nat), (∀ p ∈ packets, p.2 ≤ buffer_size) →
      wire.Longest (packets.flatMap fun p => boost_socket.send_to_client p.1 p.2)
        (packets.map fun p => p.1.bytes.take p.2)) ∧
    ∀ stream, ∃ all, wire.Longest stream all ∧ ∀ recvbuf tr s, socketMachine.Run (.new recvbuf stream) tr s →
      ((∃ ps, ps <+: all ∧ s.received = ps.map some) ∨ s.received = all.map some ++ [none]) ∧
      (s.is_pending_deletion = true → (∀ x ∈ tr, x.event ≠ .force_close) → s.received = all.map some ++ [none]) ∧
      (s.is_pending_deletion = false → ∃ tr' t, socketMachine.Run s tr' t ∧ (∀ x ∈ tr', x.event ≠ .force_close) ∧
        t.received = all.map some ++ [none]) ∧
      reads tr ≤ 2 * all.length + 2 ∧
      ∀ tr' t, socketMachine.Run s tr' t →
        s.is_pending_deletion = true ∨ s.pending = none ∧ (∀ x ∈ tr', x.event ≠ .async_recv) → t.calls = s.calls := by
  refine ⟨fun packets h => sent_longest h, fun stream => ?_⟩
  obtain ⟨all, hall⟩ := Framing.exists_longest wire stream
  refine ⟨all, hall, fun recvbuf tr s h => ?_⟩
  have hsilent : ∀ tr' t, socketMachine.Run s tr' t →
      s.is_pending_deletion = true ∨ s.pending = none ∧ (∀ x ∈ tr', x.event ≠ .async_recv) → t.calls = s.calls :=
    fun tr' t hr hs => socket_silent hr hs
  rcases socket_run hall h with ⟨ps, qs, hw, hle⟩ | ⟨hle, hf | ⟨hclosed, hps, x, hx, hev⟩⟩
  · refine ⟨.inl ⟨ps, ⟨qs, hw.split.symm⟩, hw.received⟩, fun hc => ?_, fun _ => ?_, by omega, hsilent⟩
    · rw [hw.is_open] at hc
      cases hc
    · obtain ⟨tr', t, hr, hev, hf⟩ := waits_fails hw (Nat.le_refl _)
      exact ⟨tr', t, hr, hev, hf.received⟩
  · refine ⟨.inr hf.received, fun _ _ => hf.received, fun ho => ?_, hle, hsilent⟩
    rw [hf.closed] at ho
    cases ho
  · refine ⟨.inl hps, fun _ hnever => absurd hev (hnever x hx), fun ho => ?_, hle, hsilent⟩
    rw [hclosed] at ho
    cases ho

/-- One packet arrives, and the connection ends. -/
def hi_socket : BoostSocket := .new (.of []) (boost_socket.send_to_client (.of (ascii "hi")) 2)

def hi_read : BoostSocket := hi_socket.async_recv.expected_len_read.data_read 2

theorem framing_exact_hi : hi_read.async_recv.expected_len_read.received = [some (ascii "hi"), none] := by
  have s1 : socketMachine.step hi_socket .async_recv hi_socket.async_recv := ⟨rfl, rfl⟩
  have s2 : socketMachine.step hi_socket.async_recv .completion hi_socket.async_recv.expected_len_read := rfl
  have s3 : socketMachine.step hi_socket.async_recv.expected_len_read .completion hi_read := rfl
  have s4 : socketMachine.step hi_read .async_recv hi_read.async_recv := ⟨rfl, rfl⟩
  have s5 : socketMachine.step hi_read.async_recv .completion hi_read.async_recv.expected_len_read := rfl
  have hrun := ((((Machine.Run.nil.snoc s1).snoc s2).snoc s3).snoc s4).snoc s5
  obtain ⟨all, hall, hruns⟩ := framing_exact.2 (boost_socket.send_to_client (.of (ascii "hi")) 2)
  have hsent := framing_exact.1 [(.of (ascii "hi"), 2)] (by decide)
  obtain rfl : all = [ascii "hi"] := hall.unique hsent
  exact (hruns _ _ _ hrun).2.1 rfl (by simp)

end tejk_it_izi
