import TejkItIzi.Listed
import TejkItIzi.PacketSizes
import TejkItIzi.Sockets
import TejkItIzi.WireFormat
/-!
# What the client reads

`commandline_client` at the other end of a session's connection. The server writes
bytes; the client has to find the packets in them, whenever they come, and reads
each with the opcodes of the phase it is in. The connection can be cut anywhere.
-/

namespace tejk_it_izi

open ProgLib Handshake

/-! ## The client -/

inductive ClientFate where
  | running
  /-- `exit(0)`. -/
  | exited
  /-- An exception has left `on_recv`. -/
  | terminated
  deriving DecidableEq

/-- `my_recv_completion_handler` with its socket, and `cs`. -/
structure ClientProcess where
  socket : BoostSocket
  cs : Phase
  /-- What it has read, packet by packet; of some of it nothing is printed. -/
  decoded : List Received
  fate : ClientFate

namespace ClientProcess

/-- The constructor of the handler asks for the first packet. -/
def start (recvbuf : Buffer) : ClientProcess := ⟨(BoostSocket.new recvbuf []).async_recv, .preauth, [], .running⟩

def on_recv (c : ClientProcess) (data : Buffer) (size : Nat) : ClientProcess :=
  match tejk_it_izi.on_recv .x86_64 c.cs data size with
  | .error _ => { c with fate := .terminated }
  | .ok (received, cs) =>
    if received = .fuck_you_bad_keys then { c with decoded := c.decoded ++ [received], fate := .exited }
    else { c with socket := c.socket.async_recv, cs := cs, decoded := c.decoded ++ [received] }

def on_error (c : ClientProcess) : ClientProcess := { c with fate := .exited }

/-- The pending read has ended, and the handler was called with this. -/
def completes (c : ClientProcess) (socket : BoostSocket) : List Completion → ClientProcess
  | [] => { c with socket := socket }
  | .on_recv data size :: _ => { c with socket := socket }.on_recv data size
  | .on_error :: _ => { c with socket := socket }.on_error

end ClientProcess

/-! ## The connection -/

/-- What `send_to_client` writes for a packet. -/
def Packet.bytes (p : Packet) : Bytes := boost_socket.send_to_client (.of p.serialize.written) p.serialize.get_current_size

/-- The server, and the client of one session. What is `incoming` at the client's
socket has been written and not read. -/
structure Line where
  server : Server
  /-- No handler has failed. -/
  alive : Bool
  client : ClientProcess
  cut : Bool
  /-- All packets that were written for this client. -/
  sent : List Packet

/-- There are more bytes on the way. -/
def ClientProcess.feed (c : ClientProcess) (bytes : Bytes) : ClientProcess :=
  { c with socket := { c.socket with incoming := c.socket.incoming ++ bytes } }

/-- The packets that were written, as a queue that nobody reads. -/
def Line.downlink (l : Line) : Downlink := ⟨l.server, l.alive, .preauth, [], l.sent⟩

/-- The server has written these packets; past a cut nothing arrives. -/
def Line.written (l : Line) (ps : List Packet) : Line :=
  { l with
    client := if l.cut then l.client else l.client.feed (ps.flatMap Packet.bytes)
    sent := l.sent ++ ps }

/-- All that the pending read is for has arrived. -/
def BoostSocket.has_arrived (s : BoostSocket) : Prop :=
  match s.pending with
  | none => False
  | some .expected_len => 4 ≤ s.incoming.length
  | some (.data expected_len) => expected_len ≤ s.incoming.length

inductive LineEvent where
  | server (ev : ServerEvent)
  | dies (hd : Handler)
  | read
  | cut (left : Bytes)

/-- `characters.id` is a column of 32 bits. -/
def small_id (ch : LobbyCharacter) : Prop := ch.uid < 2 ^ 32

/-- The line of session `k`, for runs whose packets fit. A read ends when its bytes
are there, or when none can come any more. -/
def lineMachine (k : SessionId) : Machine Line LineEvent where
  init l := fittingMachine.init l.server ∧ l.server.world.db.Rows small_id ∧
    ∃ recvbuf, l = ⟨l.server, true, .start recvbuf, false, []⟩
  step l ev l' := match ev with
    | .server ev => l.alive = true ∧ ∃ s, fittingMachine.step l.server ev s ∧ s.world.db.Rows small_id ∧
      l' = { l with server := s }.written (s.wire k)
    | .dies hd => l.alive = true ∧ ∃ o f s, hd.Admitted l.server o ∧ hd.run (l.server.begin o) = .error f s ∧
      l' = { l with server := s, alive := false }.written (s.wire k)
    | .read => l.client.fate = .running ∧ (l.cut = true ∨ l.client.socket.has_arrived) ∧ ∃ socket called,
      socketMachine.step l.client.socket .completion socket ∧ socket.calls = l.client.socket.calls ++ called ∧
      l' = { l with client := l.client.completes socket called }
    | .cut left => l.cut = false ∧ left <+: l.client.socket.incoming ∧
      l' = { l with
        client := { l.client with socket := { l.client.socket with incoming := left } }
        cut := true }

/-! ## Frames that arrive bit by bit -/

section arriving

variable {s : BoostSocket} {payload rest : Bytes}

/-- The beginning of what is to come, as far as it goes. -/
theorem take_arrived {bytes front : Bytes} (h : bytes <+: front ++ rest) (hlen : front.length ≤ bytes.length) :
    bytes.take front.length = front ∧ bytes.drop front.length <+: rest := by
  obtain ⟨tail, htail⟩ := h
  have hfront : bytes.take front.length = front := by
    have htake := congrArg (List.take front.length) htail
    rwa [List.take_append_of_le_length hlen, List.take_left] at htake
  refine ⟨hfront, tail, ?_⟩
  have hdrop := congrArg (List.drop front.length) htail
  rwa [List.drop_append_of_le_length hlen, List.drop_left] at hdrop

/-- The length of the next payload is read. -/
theorem length_arrived (hopen : s.is_pending_deletion = false) (hlimit : payload.length ≤ buffer_size)
    (h4 : 4 ≤ s.incoming.length) (h : s.incoming <+: wire.frame payload ++ rest) :
    s.expected_len_read = { s.after_read 4 with pending := some (.data payload.length) } := by
  have hheader : (wire.encode payload.length).length = 4 := wire.length_encode _
  rw [Framing.frame_append] at h
  have htake := (take_arrived h (by rwa [hheader])).1
  rw [hheader] at htake
  have hdecode : LittleEndian.decode ((s.after_read 4).recvbuf.bytes.take 4) = payload.length := by
    rw [after_read_take (by decide) h4, htake]
    exact wire.decode_encode _ hlimit
  have hopen' : (s.after_read 4).is_pending_deletion = false := hopen
  have hfits : ¬ buffer_size < payload.length := by omega
  unfold BoostSocket.expected_len_read
  rw [async_read_run h4]
  simp [hopen', hdecode, hfits, BoostSocket.do_recv_data]

/-- The payload is read and handed on. -/
theorem data_arrived (hopen : s.is_pending_deletion = false) (hlimit : payload.length ≤ buffer_size)
    (hlen : payload.length ≤ s.incoming.length) (h : s.incoming <+: payload ++ rest) :
    s.data_read payload.length = (s.after_read payload.length).on_recv payload.length ∧
      (s.after_read payload.length).recvbuf.Holds payload := by
  have hopen' : (s.after_read payload.length).is_pending_deletion = false := hopen
  refine ⟨?_, hlimit, ?_⟩
  · unfold BoostSocket.data_read
    rw [async_read_run hlen]
    simp [hopen']
  · rw [after_read_take hlimit hlen]
    exact (take_arrived h hlen).1

end arriving

/-! ## One client -/

/-- It fits its buffer, and its ids their type. -/
structure Packet.Sendable (p : Packet) : Prop where
  size : p.size ≤ buffer_size
  typed : p.Typed .x86_64

/-- Of the packets sent, the first have been read; nothing has been misread. -/
inductive ClientOk (sent : List Packet) (cut : Bool) (c : ClientProcess) : Prop
  | running (ps qs) : c.fate = .running → sent = ps ++ qs → c.decoded = ps.map Packet.received →
    Decodes .preauth ps c.cs →
    c.socket.is_pending_deletion = false → c.socket.pending.isSome = true →
    c.socket.unread <+: qs.flatMap Packet.bytes → (cut = false → c.socket.unread = qs.flatMap Packet.bytes) →
    (∀ n, c.socket.pending = some (.data n) → ∃ q qs', qs = q :: qs' ∧ n = q.serialize.written.length) →
    ClientOk sent cut c
  -- The keys were bad, or the connection failed.
  | exited (ps qs) : c.fate = .exited → sent = ps ++ qs → c.decoded = ps.map Packet.received →
    Decodes .preauth ps c.cs →
    ps.getLast? = some .fuck_you_bad_keys ∨ cut = true → ClientOk sent cut c

section client

variable {p : Packet} {ps qs sent : List Packet} {c : ClientProcess} {cut : Bool}

namespace Packet.Sendable

theorem written (h : p.Sendable) : p.serialize.written = Build.x86_64.written p.fields := by
  refine Packet.wrote (Packet.short_of_size ?_)
  have hsize := h.size
  unfold buffer_size at hsize
  omega

theorem length_le (h : p.Sendable) : p.serialize.written.length ≤ buffer_size := p.serialize_size_le.trans h.size

theorem bytes (h : p.Sendable) : p.bytes = wire.frame p.serialize.written := by
  have hholds := holds_of h.length_le
  unfold Packet.bytes boost_socket.send_to_client
  rw [BinarySerializer.get_current_size, hholds.bytes]
  rfl

/-- The client reads it, in its phase. -/
theorem read (h : p.Sendable) {data : Buffer} (hd : data.Holds p.serialize.written) :
    on_recv .x86_64 p.phase data p.serialize.written.length = .ok (p.received, p.changes.getD p.phase) := by
  have hholds : data.Holds (Build.x86_64.written p.fields ++ []) := by rwa [List.append_nil, ← h.written]
  have hread := packet_read hholds h.typed
  rwa [List.append_nil, ← h.written] at hread

end Packet.Sendable

theorem start_ok (recvbuf : Buffer) : ClientOk [] false (.start recvbuf) :=
  .running [] [] rfl rfl rfl (.nil _) rfl rfl List.prefix_rfl (fun _ => rfl) fun n hn => by cases hn

theorem unread_feed (c : ClientProcess) (bytes : Bytes) :
    (c.feed bytes).socket.unread = c.socket.unread ++ bytes := by
  unfold BoostSocket.unread ClientProcess.feed
  cases c.socket.pending with
  | none => rfl
  | some pending =>
    cases pending with
    | expected_len => rfl
    | data n => exact (List.append_assoc _ _ _).symm

/-- More packets are written. -/
theorem ClientOk.written (h : ClientOk sent cut c) (more : List Packet) :
    ClientOk (sent ++ more) cut (if cut then c else c.feed (more.flatMap Packet.bytes)) := by
  cases h with
  | running ps qs hfate hsent hdecoded hreads hopen hpending hunread hall hdata =>
    have hsent' : sent ++ more = ps ++ (qs ++ more) := by rw [hsent, List.append_assoc]
    have hnext : ∀ n, c.socket.pending = some (.data n) →
        ∃ q qs', qs ++ more = q :: qs' ∧ n = q.serialize.written.length := by
      intro n hn
      obtain ⟨q, qs', hqs, hq⟩ := hdata n hn
      exact ⟨q, qs' ++ more, by rw [hqs]; rfl, hq⟩
    cases cut with
    | true =>
      refine .running ps (qs ++ more) hfate hsent' hdecoded hreads hopen hpending ?_ (fun h => by cases h) hnext
      rw [List.flatMap_append]
      exact hunread.trans (List.prefix_append _ _)
    | false =>
      have hfed : (c.feed (more.flatMap Packet.bytes)).socket.unread = (qs ++ more).flatMap Packet.bytes := by
        rw [unread_feed, hall rfl, List.flatMap_append]
      exact .running ps (qs ++ more) hfate hsent' hdecoded hreads hopen hpending (hfed ▸ List.prefix_rfl)
        (fun _ => hfed) hnext
  | exited ps qs hfate hsent hdecoded hreads hend =>
    have hsent' : sent ++ more = ps ++ (qs ++ more) := by rw [hsent, List.append_assoc]
    split
    · exact .exited ps _ hfate hsent' hdecoded hreads hend
    · exact .exited ps _ hfate hsent' hdecoded hreads hend

/-- The connection is cut. -/
theorem ClientOk.cut_off (h : ClientOk sent false c) {left : Bytes} (hleft : left <+: c.socket.incoming) :
    ClientOk sent true { c with socket := { c.socket with incoming := left } } := by
  cases h with
  | running ps qs hfate hsent hdecoded hreads hopen hpending hunread hall hdata =>
    refine .running ps qs hfate hsent hdecoded hreads hopen hpending (List.IsPrefix.trans ?_ hunread)
      (fun h => by cases h) hdata
    unfold BoostSocket.unread
    cases c.socket.pending with
    | none => exact hleft
    | some pending =>
      cases pending with
      | expected_len => exact hleft
      | data n => exact (List.prefix_append_right_inj _).2 hleft
  | exited ps qs hfate hsent hdecoded hreads hend => exact .exited ps qs hfate hsent hdecoded hreads (.inr rfl)

/-- A socket that reads less than it asked for reports an error. -/
theorem short_read {s socket : BoostSocket} {called : List Completion} (hopen : s.is_pending_deletion = false)
    (hshort : ¬ s.has_arrived) (hs : socketMachine.step s .completion socket)
    (hcalls : socket.calls = s.calls ++ called) : called = [.on_error] := by
  have hcalled {t : BoostSocket} (ht : t.calls = s.calls ++ called) (h : t.calls = s.calls ++ [.on_error]) :
      called = [.on_error] := List.append_cancel_left (ht.symm.trans h)
  simp only [socketMachine] at hs
  split at hs
  case h_1 => exact hs.elim
  case h_2 hp =>
    subst hs
    have hfew : s.incoming.length < 4 := by simpa [BoostSocket.has_arrived, hp] using hshort
    refine hcalled hcalls ?_
    unfold BoostSocket.expected_len_read
    rw [async_read_fails hfew]
    simp [hopen, BoostSocket.on_error, BoostSocket.force_close, BoostSocket.after_read]
  case h_3 n hp =>
    subst hs
    have hfew : s.incoming.length < n := by simpa [BoostSocket.has_arrived, hp] using hshort
    refine hcalled hcalls ?_
    unfold BoostSocket.data_read
    rw [async_read_fails hfew]
    simp [hopen, BoostSocket.on_error, BoostSocket.force_close, BoostSocket.after_read]

/-- The next packet is read in its phase. -/
theorem on_recv_packet {c : ClientProcess} {data : Buffer} (h : p.Sendable) (hd : data.Holds p.serialize.written)
    (hcs : p.phase = c.cs) :
    (p.received = .fuck_you_bad_keys →
      c.on_recv data p.serialize.written.length = { c with decoded := c.decoded ++ [p.received], fate := .exited }) ∧
    (p.received ≠ .fuck_you_bad_keys → c.on_recv data p.serialize.written.length =
      { c with socket := c.socket.async_recv, cs := p.changes.getD p.phase, decoded := c.decoded ++ [p.received] }) := by
  have hread := h.read hd
  unfold ClientProcess.on_recv
  rw [← hcs, hread]
  exact ⟨fun heq => if_pos heq, fun hne => if_neg hne⟩

theorem bad_keys_received : p.received = .fuck_you_bad_keys ↔ p = .fuck_you_bad_keys := by
  cases p <;> simp [Packet.received]

/-- A length has been read, if it has arrived. -/
theorem ClientOk.length_read {ps qs : List Packet} (hfate : c.fate = .running) (hsent : sent = ps ++ qs)
    (hdecoded : c.decoded = ps.map Packet.received) (hreads : Decodes .preauth ps c.cs)
    (hopen : c.socket.is_pending_deletion = false) (hunread : c.socket.unread <+: qs.flatMap Packet.bytes)
    (hall : cut = false → c.socket.unread = qs.flatMap Packet.bytes) (hsendable : ∀ p ∈ sent, p.Sendable)
    (hp : c.socket.pending = some .expected_len) (h4 : 4 ≤ c.socket.incoming.length) :
    c.socket.expected_len_read.calls = c.socket.calls ∧
      ClientOk sent cut { c with socket := c.socket.expected_len_read } := by
  have hincoming : c.socket.unread = c.socket.incoming := by rw [BoostSocket.unread, hp]
  -- Something arrives, so there is a packet.
  cases qs with
  | nil =>
    have hnothing := hunread.length_le
    rw [hincoming] at hnothing
    exact absurd (h4.trans hnothing) (by decide)
  | cons q qs =>
    have hq : q.Sendable := hsendable q (by rw [hsent]; simp)
    rw [List.flatMap_cons, hq.bytes] at hunread
    have harrived := hunread
    rw [hincoming] at harrived
    have hlength := length_arrived hopen hq.length_le h4 harrived
    have hheader : (wire.encode q.serialize.written.length).length = 4 := wire.length_encode _
    -- What is unread stays the same, the length apart.
    have hsame : c.socket.expected_len_read.unread = c.socket.unread := by
      rw [hincoming, hlength]
      show wire.encode _ ++ c.socket.incoming.drop 4 = c.socket.incoming
      rw [Framing.frame_append] at harrived
      have htake := (take_arrived harrived (by rwa [hheader])).1
      rw [hheader] at htake
      rw [← htake, List.take_append_drop]
    refine ⟨by rw [hlength]; rfl, .running ps (q :: qs) hfate hsent hdecoded hreads ?_ ?_ ?_ ?_ ?_⟩
    · rw [hlength]
      exact hopen
    · rw [hlength]
      rfl
    · show c.socket.expected_len_read.unread <+: _
      rw [hsame, List.flatMap_cons, hq.bytes]
      exact hunread
    · intro hcut
      show c.socket.expected_len_read.unread = _
      rw [hsame]
      exact hall hcut
    · intro n hn
      rw [hlength] at hn
      cases hn
      exact ⟨q, qs, rfl, rfl⟩

/-- The next packet has been read, if it has arrived. -/
theorem ClientOk.packet_read {ps qs : List Packet} {q : Packet} (hfate : c.fate = .running)
    (hsent : sent = ps ++ q :: qs) (hdecoded : c.decoded = ps.map Packet.received) (hreads : Decodes .preauth ps c.cs)
    (hopen : c.socket.is_pending_deletion = false) (hunread : c.socket.unread <+: (q :: qs).flatMap Packet.bytes)
    (hall : cut = false → c.socket.unread = (q :: qs).flatMap Packet.bytes) (hsendable : ∀ p ∈ sent, p.Sendable)
    {ph : Phase} (hsent_reads : Decodes .preauth sent ph)
    (hp : c.socket.pending = some (.data q.serialize.written.length))
    (hlen : q.serialize.written.length ≤ c.socket.incoming.length) :
    ∃ data, (c.socket.data_read q.serialize.written.length).calls =
        c.socket.calls ++ [.on_recv data q.serialize.written.length] ∧
      ClientOk sent cut
        (({ c with socket := c.socket.data_read q.serialize.written.length } : ClientProcess).on_recv data
          q.serialize.written.length) := by
  have hq : q.Sendable := hsendable q (by rw [hsent]; simp)
  -- The client is in the phase of the packet.
  have hphase : q.phase = c.cs := by
    rw [hsent] at hsent_reads
    obtain ⟨ph1, h1, h2⟩ := hsent_reads.split
    rw [← h1.unique hreads]
    exact h2.head
  have hbytes : c.socket.unread = wire.encode q.serialize.written.length ++ c.socket.incoming := by
    rw [BoostSocket.unread, hp]
  have hframe : (q :: qs).flatMap Packet.bytes =
      wire.encode q.serialize.written.length ++ (q.serialize.written ++ qs.flatMap Packet.bytes) := by
    rw [List.flatMap_cons, hq.bytes, Framing.frame_append]
  rw [hbytes, hframe] at hunread hall
  have hincoming : c.socket.incoming <+: q.serialize.written ++ qs.flatMap Packet.bytes :=
    (List.prefix_append_right_inj _).1 hunread
  obtain ⟨hread, hholds⟩ := data_arrived hopen hq.length_le hlen hincoming
  obtain ⟨hbad, hgood⟩ := on_recv_packet (c := { c with socket := c.socket.data_read q.serialize.written.length })
    hq hholds hphase
  have hreads' : Decodes .preauth (ps ++ [q]) (q.changes.getD q.phase) := by
    refine hreads.append ?_
    rw [← hphase]
    exact decodes_one q
  have hsent' : sent = (ps ++ [q]) ++ qs := by rw [hsent, List.append_assoc]; rfl
  have hdecoded' : c.decoded ++ [q.received] = (ps ++ [q]).map Packet.received := by
    rw [hdecoded, List.map_append]
    rfl
  refine ⟨_, by rw [hread]; rfl, ?_⟩
  by_cases hkeys : q.received = .fuck_you_bad_keys
  · rw [hbad hkeys]
    obtain rfl := bad_keys_received.1 hkeys
    refine .exited (ps ++ [.fuck_you_bad_keys]) qs rfl hsent' hdecoded' ?_ (.inl List.getLast?_concat)
    rw [← hphase]
    exact hreads'
  · rw [hgood hkeys]
    have hleft : (c.socket.data_read q.serialize.written.length).async_recv.unread =
        c.socket.incoming.drop q.serialize.written.length := by
      rw [hread]
      rfl
    refine .running (ps ++ [q]) qs hfate hsent' hdecoded' hreads' ?_ rfl ?_ ?_ fun n hn => by cases hn
    · rw [hread]
      exact hopen
    · show (c.socket.data_read _).async_recv.unread <+: _
      rw [hleft]
      exact (take_arrived hincoming hlen).2
    · intro hcut
      show (c.socket.data_read _).async_recv.unread = _
      rw [hleft, List.append_cancel_left (hall hcut), List.drop_left]

/-- The pending read ends, with its bytes, or because none can come. -/
theorem ClientOk.completes (h : ClientOk sent cut c) (hsendable : ∀ p ∈ sent, p.Sendable) {ph : Phase}
    (hsent_reads : Decodes .preauth sent ph) (hfate : c.fate = .running) (hready : cut = true ∨ c.socket.has_arrived)
    {socket : BoostSocket} {called : List Completion} (hs : socketMachine.step c.socket .completion socket)
    (hcalls : socket.calls = c.socket.calls ++ called) : ClientOk sent cut (c.completes socket called) := by
  cases h with
  | exited ps qs hexited =>
    rw [hfate] at hexited
    cases hexited
  | running ps qs _ hsent hdecoded hreads hopen hpending hunread hall hdata =>
    by_cases harrived : c.socket.has_arrived
    · cases hp : c.socket.pending with
      | none =>
        rw [hp] at hpending
        cases hpending
      | some pending =>
        cases pending with
        | expected_len =>
          have h4 : 4 ≤ c.socket.incoming.length := by simpa [BoostSocket.has_arrived, hp] using harrived
          obtain rfl : socket = c.socket.expected_len_read := by simpa [socketMachine, hp] using hs
          obtain ⟨hsilent, hok⟩ := length_read hfate hsent hdecoded hreads hopen hunread hall hsendable hp h4
          rw [hsilent] at hcalls
          obtain rfl : called = [] := by simpa using hcalls
          exact hok
        | data n =>
          obtain ⟨q, qs', rfl, rfl⟩ := hdata n hp
          have hlen : q.serialize.written.length ≤ c.socket.incoming.length := by
            simpa [BoostSocket.has_arrived, hp] using harrived
          obtain rfl : socket = c.socket.data_read q.serialize.written.length := by simpa [socketMachine, hp] using hs
          obtain ⟨data, hcalled, hok⟩ :=
            packet_read hfate hsent hdecoded hreads hopen hunread hall hsendable hsent_reads hp hlen
          rw [hcalled] at hcalls
          obtain rfl := List.append_cancel_left hcalls
          exact hok
    · rw [short_read hopen harrived hs hcalls]
      exact .exited ps qs rfl hsent hdecoded hreads (.inr (hready.resolve_right harrived))

end client

/-! ## Server and client -/

theorem typed_of_shows {p : Packet} (h : p.Shows small_id) : p.Typed .x86_64 := by
  have hwide : 256 ^ Build.x86_64.unsigned_size = 2 ^ 32 := by decide
  cases p with
  | character_list l =>
    intro ch hch
    rw [hwide]
    exact h ch hch
  | character_created ch =>
    show ch.uid < 256 ^ Build.x86_64.unsigned_size
    rw [hwide]
    exact h ch (List.mem_singleton_self _)
  | _ => trivial

/-- The client has read what it has of what the server has written. -/
structure LineOk (k : SessionId) (l : Line) : Prop where
  server : l.alive = true → fittingMachine.Reachable l.server ∧ Listed small_id l.server ∧
    l.server.world.db.Rows small_id
  downlink : (downlinkMachine k).Reachable l.downlink
  sendable : ∀ p ∈ l.sent, p.Sendable
  client : ClientOk l.sent l.cut l.client

section line

variable {k : SessionId} {l l' : Line} {s s' : Server} {p : Packet}

theorem mem_wire (h : p ∈ s.wire k) : ∃ m ∈ s.sent, m.packet = p := by
  obtain ⟨m, hm, hp⟩ := List.mem_filterMap.1 h
  split at hp
  · cases hp
    exact ⟨m, hm, rfl⟩
  · cases hp

theorem wire_sendable (hsizes : ∀ m ∈ s.sent, m.packet.size ≤ buffer_size)
    (hshown : ∀ m ∈ s.sent, m.packet.Shows small_id) :
    ∀ p ∈ s.wire k, p.Sendable := by
  intro p hp
  obtain ⟨m, hm, rfl⟩ := mem_wire hp
  exact ⟨hsizes m hm, typed_of_shows (hshown m hm)⟩

theorem line_ok_init (h : (lineMachine k).init l) : LineOk k l := by
  obtain ⟨h0, hrows, recvbuf, hl⟩ := h
  rw [hl]
  have hempty : Listed small_id l.server := by
    obtain ⟨db, hdb, _⟩ := h0
    rw [hdb]
    exact ⟨fun k c acc chars hc => (by cases hc), fun k chars hmem => absurd hmem List.not_mem_nil⟩
  exact ⟨fun _ => ⟨.init h0, hempty, hrows⟩, .init ⟨h0, rfl⟩, fun p hp => absurd hp List.not_mem_nil, start_ok recvbuf⟩

/-- What a handler that fits writes can be sent. -/
theorem fitting_step_sendable {ev : ServerEvent} (hreach : fittingMachine.Reachable s) (hlisted : Listed small_id s)
    (hrows : s.world.db.Rows small_id) (hs : fittingMachine.step s ev s') (hrows' : s'.world.db.Rows small_id) :
    Listed small_id s' ∧ ∀ p ∈ s'.wire k, p.Sendable := by
  have hserver := fitting_is_server hreach
  have hok := reachable_server_ok hserver
  cases ev with
  | handler hd =>
    obtain ⟨⟨o, ha, hrun⟩, hfits⟩ := hs
    obtain ⟨hb, he⟩ := handler_effect hok ha hrun
    have hz : SizesOk (s.begin o) := ⟨(reachable_sizes_ok hreach).rooms, (reachable_sizes_ok hreach).lists⟩
    have hl : Listed small_id (s.begin o) := ⟨hlisted.lists, hlisted.loaded⟩
    obtain ⟨hlisted', hshown⟩ := he.listed hb hl rfl rfl hrows hrows'
    refine ⟨hlisted', wire_sendable ?_ hshown⟩
    exact (he.sizes_iff le_rfl hb ((reachable_names_ok hserver).begin o) hz rfl rfl).2 (hfits hd rfl)
  | reorder =>
    obtain ⟨⟨w, hr, _, rfl⟩, _⟩ := hs
    exact ⟨⟨hlisted.lists, hlisted.loaded⟩, fun p hp => absurd hp List.not_mem_nil⟩

theorem dying_sendable {hd : Handler} {o : Outside} {f : Fault} (hreach : fittingMachine.Reachable s)
    (hlisted : Listed small_id s) (ha : hd.Admitted s o) (hr : hd.run (s.begin o) = .error f s') :
    ∀ p ∈ s'.wire k, p.Sendable := by
  have hserver := fitting_is_server hreach
  have hok := (reachable_server_ok hserver).begin o
  rcases handler_ends (reachable_server_ok hserver) ha with ⟨t, _, hrun⟩ | ⟨f', t, hdeath, hrun⟩
  · rw [hr] at hrun
    cases hrun
  · rw [hr] at hrun
    cases hrun
    have hsizes := (hdeath.sizes hok ((reachable_names_ok hserver).begin o) rfl rfl).1
    exact wire_sendable hsizes (hdeath.shown hok.world ⟨hlisted.lists, hlisted.loaded⟩ rfl rfl)

theorem line_ok_step {ev : LineEvent} (h : LineOk k l) (hs : (lineMachine k).step l ev l') : LineOk k l' := by
  have append_sendable {ps : List Packet} (hps : ∀ p ∈ ps, p.Sendable) : ∀ p ∈ l.sent ++ ps, p.Sendable := by
    intro p hp
    rcases List.mem_append.1 hp with hp | hp
    · exact h.sendable p hp
    · exact hps p hp
  cases ev with
  | server ev =>
    obtain ⟨halive, s, hs, hrows, rfl⟩ := hs
    obtain ⟨hreach, hlisted, hrows0⟩ := h.server halive
    obtain ⟨hlisted', hsendable⟩ := fitting_step_sendable (k := k) hreach hlisted hrows0 hs hrows
    have hstep : (downlinkMachine k).step l.downlink (.server ev)
        (({ l with server := s } : Line).written (s.wire k)).downlink :=
      ⟨halive, s, hs.1, rfl⟩
    exact ⟨fun _ => ⟨hreach.step hs, hlisted', hrows⟩, h.downlink.step hstep, append_sendable hsendable,
      h.client.written (s.wire k)⟩
  | dies hd =>
    obtain ⟨halive, o, f, s, ha, hr, rfl⟩ := hs
    obtain ⟨hreach, hlisted, _⟩ := h.server halive
    have hsendable := dying_sendable (k := k) hreach hlisted ha hr
    have hstep : (downlinkMachine k).step l.downlink (.dies hd)
        (({ l with server := s, alive := false } : Line).written (s.wire k)).downlink := ⟨halive, o, f, s, ha, hr, rfl⟩
    refine ⟨fun hdead => ?_, h.downlink.step hstep, append_sendable hsendable, h.client.written (s.wire k)⟩
    cases hdead
  | read =>
    obtain ⟨hfate, hready, socket, called, hs, hcalls, rfl⟩ := hs
    obtain ⟨_, ⟨ph, hreads, _⟩, _⟩ := reachable_downlink_ok h.downlink
    exact ⟨h.server, h.downlink, h.sendable, h.client.completes h.sendable hreads hfate hready hs hcalls⟩
  | cut left =>
    obtain ⟨hcut, hleft, rfl⟩ := hs
    have hclient := h.client
    rw [hcut] at hclient
    exact ⟨h.server, h.downlink, h.sendable, hclient.cut_off hleft⟩

/-- A read that is pending can end. -/
theorem completion_ends {s : BoostSocket} (hp : s.pending.isSome = true) :
    ∃ socket called, socketMachine.step s .completion socket ∧ socket.calls = s.calls ++ called := by
  have hcalled {t : BoostSocket} (ht : t.calls = s.calls) : ∃ called, t.on_error.calls = s.calls ++ called := by
    unfold BoostSocket.on_error BoostSocket.force_close
    rw [ht]
    split <;> exact ⟨_, rfl⟩
  obtain ⟨pending, hp⟩ := Option.isSome_iff_exists.1 hp
  cases pending with
  | expected_len =>
    have hcalls : ∃ called, s.expected_len_read.calls = s.calls ++ called := by
      unfold BoostSocket.expected_len_read
      simp only
      split_ifs
      · exact ⟨[], (List.append_nil _).symm⟩
      · exact hcalled rfl
      · exact ⟨[], (List.append_nil _).symm⟩
    obtain ⟨called, hcalls⟩ := hcalls
    exact ⟨_, called, by simp [socketMachine, hp], hcalls⟩
  | data n =>
    have hcalls : ∃ called, (s.data_read n).calls = s.calls ++ called := by
      unfold BoostSocket.data_read
      simp only
      split_ifs
      · exact ⟨[], (List.append_nil _).symm⟩
      · exact hcalled rfl
      · exact ⟨_, rfl⟩
    obtain ⟨called, hcalls⟩ := hcalls
    exact ⟨_, called, by simp [socketMachine, hp], hcalls⟩

/-- Frames arrive whole. -/
theorem has_arrived_of {q : Packet} {qs : List Packet} {s : BoostSocket} (hq : q.Sendable) (hp : s.pending.isSome = true)
    (hunread : s.unread = (q :: qs).flatMap Packet.bytes)
    (hdata : ∀ n, s.pending = some (.data n) → n = q.serialize.written.length) : s.has_arrived := by
  have hheader : (wire.encode q.serialize.written.length).length = 4 := wire.length_encode _
  rw [List.flatMap_cons, hq.bytes, Framing.frame_append] at hunread
  obtain ⟨pending, hp⟩ := Option.isSome_iff_exists.1 hp
  unfold BoostSocket.has_arrived
  rw [hp]
  rw [BoostSocket.unread, hp] at hunread
  cases pending with
  | expected_len =>
    have hall : s.incoming = _ := hunread
    show 4 ≤ s.incoming.length
    rw [hall, List.length_append, hheader]
    exact Nat.le_add_right _ _
  | data n =>
    obtain rfl := hdata n hp
    have hall : s.incoming = _ := List.append_cancel_left hunread
    show q.serialize.written.length ≤ s.incoming.length
    rw [hall, List.length_append]
    exact Nat.le_add_right _ _

/-- Whatever server, client and network do, in whatever order: the client reads, in
order, exactly the packets that were sent to it, with all they carry, as far as they
have come; no exception leaves it, and it exits only for bad keys or a connection
that is cut. While it is not, what is unread are the packets to come, the next of
which can be read; behind them, the client is in the phase that its session is in. -/
theorem client_reads_what_is_sent (h : (lineMachine k).Reachable l) :
    l.client.fate ≠ .terminated ∧ ∃ ps qs ph, l.sent = ps ++ qs ∧ l.client.decoded = ps.map Packet.received ∧
      Decodes .preauth ps l.client.cs ∧ Decodes l.client.cs qs ph ∧
      (l.alive = true → ∀ ph' ∈ told_phase (l.server.stage k), ph' = ph) ∧
      (l.client.fate = .exited → ps.getLast? = some .fuck_you_bad_keys ∨ l.cut = true) ∧
      (l.client.fate = .running → l.cut = false → l.client.socket.unread = qs.flatMap Packet.bytes ∧
        (qs ≠ [] → ∃ l', (lineMachine k).step l .read l')) := by
  have hok : LineOk k l := h.keeps (fun _ => line_ok_init) fun _ _ _ => line_ok_step
  obtain ⟨_, ⟨ph, hreads, htold⟩, _⟩ := reachable_downlink_ok hok.downlink
  have hrest {ps qs : List Packet} (hsent : l.sent = ps ++ qs) (hps : Decodes .preauth ps l.client.cs) :
      Decodes l.client.cs qs ph := by
    have hall : Decodes .preauth (ps ++ qs) ph := hsent ▸ hreads
    obtain ⟨ph1, h1, h2⟩ := hall.split
    rwa [h1.unique hps] at h2
  cases hok.client with
  | running ps qs hfate hsent hdecoded hps hopen hpending _ hall hdata =>
    refine ⟨by rw [hfate]; decide, ps, qs, ph, hsent, hdecoded, hps, hrest hsent hps, htold, fun hexited => ?_,
      fun _ hcut => ⟨hall hcut, fun hne => ?_⟩⟩
    · rw [hfate] at hexited
      cases hexited
    · obtain ⟨q, qs', rfl⟩ := List.exists_cons_of_ne_nil hne
      have hq : q.Sendable := hok.sendable q (by rw [hsent]; simp)
      have harrived := has_arrived_of hq hpending (hall hcut) fun n hn => by
        obtain ⟨q', _, heq, hn'⟩ := hdata n hn
        cases heq
        exact hn'
      obtain ⟨socket, called, hs, hcalls⟩ := completion_ends hpending
      exact ⟨_, hfate, .inr harrived, socket, called, hs, hcalls, rfl⟩
  | exited ps qs hfate hsent hdecoded hps hend =>
    refine ⟨by rw [hfate]; decide, ps, qs, ph, hsent, hdecoded, hps, hrest hsent hps, htold, fun _ => hend, fun hrun => ?_⟩
    rw [hfate] at hrun
    cases hrun

end line

/-! ## Dora logs in -/

def Line.play (l : Line) (hd : Handler) : Line :=
  ({ l with server := l.server.played 0 hd } : Line).written ((l.server.played 0 hd).wire 0)

def BoostSocket.complete (s : BoostSocket) : BoostSocket :=
  match s.pending with
  | some (.data expected_len) => s.data_read expected_len
  | _ => s.expected_len_read

def Line.read_on (l : Line) : Line :=
  let socket := l.client.socket.complete
  { l with client := l.client.completes socket (socket.calls.drop l.client.socket.calls.length) }

def doras_new_line : Line := ⟨.fresh doras_tables, true, .start (.of []), false, []⟩

/-- She has been sent the list of her characters. -/
def doras_line : Line :=
  ((((doras_new_line.play (.on_accept 0)).play (receive login_packet)).play .next_task).play .next_load).play .next_task

/-- Her client has read the first packet. -/
def doras_line_read : Line := doras_line.read_on.read_on

theorem play_line {l : Line} (hd : Handler) (h : (lineMachine 0).Reachable l) (halive : l.alive = true)
    (ha : hd.Admitted l.server (outside_at 0))
    (hr : hd.run (l.server.begin (outside_at 0)) = .ok () (l.server.played 0 hd)) (hf : hd.Fits buffer_size l.server)
    (hrows : (l.server.played 0 hd).world.db.Rows small_id) : (lineMachine 0).Reachable (l.play hd) := by
  refine h.step (e := .server (.handler hd)) ⟨halive, _, ⟨⟨_, ha, hr⟩, ?_⟩, hrows, rfl⟩
  rintro _ ⟨⟩
  exact hf

theorem read_line {l : Line} (h : (lineMachine 0).Reachable l) (hfate : l.client.fate = .running)
    (harrived : l.client.socket.has_arrived)
    (hs : socketMachine.step l.client.socket .completion l.client.socket.complete)
    (hcalls : l.client.socket.complete.calls = l.client.socket.calls ++
      l.client.socket.complete.calls.drop l.client.socket.calls.length) : (lineMachine 0).Reachable l.read_on :=
  h.step (e := .read) ⟨hfate, .inr harrived, _, _, hs, hcalls, rfl⟩

theorem doras_line_reachable : (lineMachine 0).Reachable doras_line := by
  have hnobody {o : Outside} (p : EntityPtr) (h : ((fun _ => none : EntityPtr → Option EntityData) p).isSome) :
      p.address ≠ o.env.new_entity := by cases h
  have hrows : doras_tables.Rows small_id := by
    intro r hr
    rw [List.mem_singleton.1 hr]
    show 9 < 2 ^ 32
    decide
  have h0 : (lineMachine 0).init doras_new_line := ⟨doras_tables_init, hrows, _, rfl⟩
  have h1 := play_line (.on_accept 0) (.init h0) rfl ⟨rfl, hnobody, rfl⟩ rfl trivial hrows
  have h2 := play_line (receive login_packet) h1 rfl ⟨⟨⟨_, rfl, rfl⟩, by decide⟩, hnobody, rfl⟩ rfl
    (fits_outside_game rfl (c := .accepted) (by simp [MmoClient.accepted])) hrows
  have h3 := play_line .next_task h2 rfl ⟨List.cons_ne_nil _ _, hnobody, rfl⟩ rfl (fits_transition rfl) hrows
  have h4 := play_line .next_load h3 rfl ⟨List.cons_ne_nil _ _, hnobody, rfl⟩ rfl trivial hrows
  exact play_line .next_task h4 rfl ⟨List.cons_ne_nil _ _, hnobody, rfl⟩ rfl (fits_loaded rfl (by decide)) hrows

/-- The keys were good; the list is still to be read. -/
theorem doras_client_reads : doras_line_read.client.decoded = [.good_boy_good_keys] ∧
    doras_line_read.client.fate ≠ .terminated ∧
    ∃ ps qs, doras_line_read.sent = ps ++ qs ∧ doras_line_read.client.decoded = ps.map Packet.received := by
  have hlength : 4 ≤ doras_line.client.socket.incoming.length := by decide
  have hpayload : 1 ≤ doras_line.read_on.client.socket.incoming.length := by decide
  have h1 := read_line doras_line_reachable rfl hlength rfl rfl
  have h2 := read_line h1 rfl hpayload rfl rfl
  obtain ⟨hfate, ps, qs, ph, hsent, hdecoded, _⟩ := client_reads_what_is_sent h2
  exact ⟨rfl, hfate, ps, qs, hsent, hdecoded⟩

end tejk_it_izi
