import TejkItIzi.Lib.Handshake
import TejkItIzi.Statements
/-!
# The phases of a client

A client sends packets to its session and receives packets from it, over a
queue each way. It takes its phase from the packets it receives; the server
reads a packet in the state the session is in. The same opcodes mean other
things in the lobby and in the game, and no packet tells its phase.
-/

namespace tejk_it_izi

open ProgLib Handshake

inductive Phase where
  | preauth
  | lobby
  | ingame
  deriving DecidableEq

/-- The phase whose opcodes a state reads. -/
def ClientState.phase : ClientState → Option Phase
  | .null_state => none
  | .preauth_state => some .preauth
  | .lobby_state _ _ => some .lobby
  | .ingame_state _ _ => some .ingame

/-- The phase a client enters when it receives the packet. -/
def Packet.changes : Packet → Option Phase
  | .good_boy_good_keys => some .lobby
  | .character_selected _ => some .ingame
  | .moved_to_lobby => some .lobby
  | _ => none

/-- The phase whose opcodes the packet's constructor writes. -/
def Packet.phase : Packet → Phase
  | .good_boy_good_keys | .fuck_you_bad_keys => .preauth
  | .character_list _ | .character_selected _ | .character_created _ | .character_creation_fail _ => .lobby
  | _ => .ingame

/-- What is sent while a session is in the game. -/
def Packet.News (p : Packet) : Prop := p.phase = .ingame ∧ p.changes = none

/-- A packet from the client, and the phase it was sent in. -/
structure Command where
  phase : Phase
  data : Buffer
  size : Nat

def LobbyRequest.asks : LobbyRequest → Bool
  | .request_character_select _ => true
  | _ => false

def IngameRequest.asks : IngameRequest → Bool
  | .log_off_to_lobby => true
  | _ => false

/-- The packet asks for another phase: a login, a selection, or the way back to
the lobby. -/
def Command.asks (m : Command) : Bool :=
  match m.phase with
  | .preauth => true
  | .lobby => match lobby_state_recv_packet_factory.construct m.data m.size with
    | .ok request => request.asks
    | .error _ => false
  | .ingame => match ingame_state_recv_packet_factory.construct m.data m.size with
    | .ok request => request.asks
    | .error _ => false

/-! ## The client and the server -/

/-- The server, and one client with the packets on their way from (`up`) and to
it. `awaiting` is kept for the client that waits: it has asked for a phase and
has not entered one since. -/
structure Link where
  server : Server
  phase : Phase
  awaiting : Bool
  up : List Command
  down : List Packet

/-- What session `k` has written to its socket. -/
def Server.wire (s : Server) (k : SessionId) : List Packet :=
  s.sent.filterMap fun m => if m.session = k ∧ m.on_wire = true then some m.packet else none

def Link.sends (l : Link) (m : Command) : Link := { l with up := l.up ++ [m], awaiting := l.awaiting || m.asks }

def Link.receives (l : Link) (p : Packet) (rest : List Packet) : Link :=
  match p.changes with
  | some ph => { l with phase := ph, awaiting := false, down := rest }
  | none => { l with down := rest }

/-- The server has come to `s`. -/
def Link.served (l : Link) (k : SessionId) (s : Server) : Link := { l with server := s, down := l.down ++ s.wire k }

inductive LinkEvent where
  | send (data : Buffer) (size : Nat)
  | receive
  | deliver
  | server (ev : ServerEvent)

/-- The client of session `k` sends what and when it likes; the packets arrive
in order; the rest of the server goes its way. -/
def linkMachine (k : SessionId) : Machine Link LinkEvent where
  init l := serverMachine.init l.server ∧ l = ⟨l.server, .preauth, false, [], []⟩
  step l ev l' := match ev with
    | .send data size => size ≤ buffer_size ∧ l' = l.sends ⟨l.phase, data, size⟩
    | .receive => ∃ p rest, l.down = p :: rest ∧ l' = l.receives p rest
    | .deliver => ∃ m rest s, l.up = m :: rest ∧
      serverMachine.step l.server (.handler (.on_recv k m.data m.size)) s ∧ l' = { l.served k s with up := rest }
    | .server ev => ∃ s, serverMachine.step l.server ev s ∧ (∀ data size, ev ≠ .handler (.on_recv k data size)) ∧
      l' = l.served k s

/-- The same with a client that waits: once it has asked for a phase it sends
nothing until it enters one. -/
def patientMachine (k : SessionId) : Machine Link LinkEvent where
  init := (linkMachine k).init
  step l ev l' := (linkMachine k).step l ev l' ∧ ∀ data size, ev = .send data size → l.awaiting = false

/-! ## What the server tells its client -/

/-- The phase the session has told its client. -/
def MmoClient.stage (c : MmoClient) : Stage Phase :=
  if c.is_open = true then
    match c.current_state, c.state_awaiting_transition with
    | .null_state, _ => .closed
    | .preauth_state, none => .serving .preauth
    | .preauth_state, some _ => .serving .lobby
    | .lobby_state _ _, none => .serving .lobby
    | .lobby_state _ _, some _ => .serving .ingame
    | .ingame_state _ _, none => .serving .ingame
    | .ingame_state _ _, some _ => .switching
  else .closed

def Server.stage (s : Server) (k : SessionId) : Stage Phase :=
  match s.clients k with
  | none => .serving .preauth
  | some c => c.stage

/-- The phases among what session `k` has written. -/
def Server.told (s : Server) (k : SessionId) : List Phase := (s.wire k).filterMap Packet.changes

def Progress.told (g : Progress) (k : SessionId) : List Phase :=
  g.packets.filterMap fun p => if p.1 = k then p.2.changes else none

/-- The packets for session `k`. -/
def addressed (k : SessionId) (ps : List (SessionId × Packet)) : List Packet :=
  ps.filterMap fun m => if m.1 = k then some m.2 else none

section addressed

variable {k : SessionId} {p : Packet} {ps qs : List (SessionId × Packet)}

@[simp] theorem addressed_nil : addressed k [] = [] := rfl

@[simp] theorem addressed_own : addressed k ((k, p) :: ps) = p :: addressed k ps := by simp [addressed]

@[simp] theorem addressed_append : addressed k (ps ++ qs) = addressed k ps ++ addressed k qs := List.filterMap_append

theorem mem_addressed : p ∈ addressed k ps ↔ (k, p) ∈ ps := by
  simp only [addressed, List.mem_filterMap]
  constructor
  · rintro ⟨m, hm, h⟩
    split at h
    case isTrue hk =>
      cases h
      rwa [← hk]
    case isFalse => cases h
  · exact fun h => ⟨_, h, if_pos rfl⟩

theorem addressed_changes :
    (addressed k ps).filterMap Packet.changes = ps.filterMap fun m => if m.1 = k then m.2.changes else none := by
  rw [addressed, List.filterMap_filterMap]
  refine List.filterMap_congr fun m _ => ?_
  split <;> rfl

end addressed

section notices

variable {w w' : World} {p : EntityPtr}

theorem ChatEffect.news {op : ChatOp} {c : ChatSystem} {ns : List (EntityPtr × Packet)}
    (h : ChatEffect w op c ns) : ∀ n ∈ ns, n.2.News := by
  have hall {ps : USet EntityPtr} {pk : Packet} (hpk : pk.News) : ∀ n ∈ to_all ps pk, n.2.News := by
    intro n hn
    obtain ⟨q, _, rfl⟩ := List.mem_map.1 hn
    exact hpk
  have hfarewell {room : RoomPtr} {p : EntityPtr} : ∀ n ∈ w.chat.farewell p room, n.2.News := by
    unfold ChatSystem.farewell
    split
    · simp
    · exact hall ⟨rfl, rfl⟩
  cases h with
  | unregister_me p e =>
    intro n hn
    obtain ⟨room, _, hn⟩ := List.mem_flatMap.1 hn
    exact hfarewell n hn
  | join | join_new | broadcast => exact hall ⟨rfl, rfl⟩
  | leave => exact hfarewell
  | periodic_broadcast =>
    intro n hn
    obtain ⟨x, _, hn⟩ := List.mem_flatMap.1 hn
    unfold ChatSystem.announcement at hn
    split at hn
    · cases hn
    · exact hall ⟨rfl, rfl⟩ n hn
  | whisper => simp [Packet.News, Packet.phase, Packet.changes]
  | register_me | join_again | leave_absent | broadcast_absent | whisper_lost => simp

theorem World.greetings_news (w : World) (p : EntityPtr) (friend_ids : USet Nat) :
    ∀ n ∈ w.greetings p friend_ids, n.2.News := by
  intro n hn
  obtain ⟨i, _, hn⟩ := List.mem_flatMap.1 hn
  unfold World.greeting at hn
  split at hn
  · simp only [List.mem_cons, List.not_mem_nil, or_false] at hn
    rcases hn with rfl | rfl <;> exact ⟨rfl, rfl⟩
  · cases hn

theorem FriendEffect.news {op : FriendOp} {res : Option StdException} (h : FriendEffect w op res w')
    (hq : w.notices = []) : ∀ n ∈ w'.notices, n.2.News := by
  cases h with
  | register_me p =>
    intro n hn
    simp only [World.with_registry_notices, World.friended_notices, World.executed_notices, hq, List.nil_append] at hn
    exact w.greetings_news p _ n hn
  | unregister_me p l =>
    intro n hn
    simp only [World.with_registry_notices, World.friended_notices, hq, List.nil_append] at hn
    obtain ⟨i, _, hn⟩ := List.mem_flatMap.1 hn
    split at hn
    · rw [List.mem_singleton.1 hn]
      exact ⟨rfl, rfl⟩
    · cases hn
  | _ => simp [hq, Packet.News, Packet.phase, Packet.changes]

end notices

section told

variable {s : Server} {k j : SessionId} {g : Progress} {c : MmoClient} {st : ClientState} {ph : Phase} {acc : AccountData}
  {chars : List LobbyCharacter} {p : EntityPtr} {w : World} {ps : List (SessionId × Packet)} {ts : List Task}
  {ls : List (SessionId × Nat)}

theorem wire_of_sent {s' : Server} {ps : List (SessionId × Packet)} (h : s'.sent = ps.map fun m => ⟨m.1, m.2, s.is_open m.1⟩) :
    s'.wire k = if s.is_open k = true then addressed k ps else [] := by
  rw [Server.wire, h, List.filterMap_map]
  split
  case isTrue hopen =>
    refine List.filterMap_congr fun m _ => ?_
    by_cases hm : m.1 = k
    · simp [hm, hopen]
    · simp [hm]
  case isFalse hopen =>
    refine List.filterMap_eq_nil_iff.2 fun m _ => ?_
    by_cases hm : m.1 = k
    · simp [hm, hopen]
    · simp [hm]

theorem wire_progress (hs : s.sent = []) :
    (s.progress j g).wire k = if s.is_open k = true then addressed k g.packets else [] := by
  refine wire_of_sent ?_
  rw [Server.progress, hs, List.nil_append]

theorem wire_put_world {w : World} (hs : s.sent = []) :
    (s.put_world w).wire k = if s.is_open k = true then addressed k w.mails else [] := by
  refine wire_of_sent ?_
  rw [Server.put_world, Server.emit, hs, List.nil_append]

theorem told_progress (hs : s.sent = []) : (s.progress j g).told k = if s.is_open k = true then g.told k else [] := by
  rw [Server.told, wire_progress hs]
  split
  · rw [addressed_changes]
    rfl
  · rfl

theorem no_phases {ps : List (SessionId × Packet)} (h : ∀ m ∈ ps, m.1 = k → m.2.changes = none) :
    ps.filterMap (fun m => if m.1 = k then m.2.changes else none) = [] := by
  refine List.filterMap_eq_nil_iff.2 fun m hm => ?_
  split
  case isTrue hk => exact h m hm hk
  case isFalse => rfl

theorem told_quiet (h : ∀ m ∈ g.packets, m.1 = k → m.2.changes = none) : g.told k = [] := no_phases h

theorem told_cons {p : Packet} {ps : List (SessionId × Packet)} (hg : g.packets = (k, p) :: ps)
    (h : ∀ m ∈ ps, m.2.changes = none) : g.told k = p.changes.toList := by
  rw [Progress.told, hg, List.filterMap_cons]
  simp only [if_true, no_phases fun m hm _ => h m hm]
  cases p.changes <;> rfl

theorem told_snoc {p : Packet} {ps : List (SessionId × Packet)} (hg : g.packets = ps ++ [(k, p)])
    (h : ∀ m ∈ ps, m.2.changes = none) : g.told k = p.changes.toList := by
  rw [Progress.told, hg, List.filterMap_append, no_phases fun m hm _ => h m hm, List.nil_append]
  simp only [List.filterMap_cons, List.filterMap_nil, if_true]
  cases p.changes <;> rfl

theorem stage_progress : (s.progress k g).stage k = g.client.stage := by
  unfold Server.stage
  rw [progress_client]

theorem stage_progress_ne (h : k ≠ j) : (s.progress j g).stage k = s.stage k := by
  unfold Server.stage
  rw [progress_client_ne h]

theorem stage_of (hc : s.clients k = some c) : s.stage k = c.stage := by
  unfold Server.stage
  rw [hc]

theorem mails_news {w : World} (h : ∀ n ∈ w.notices, n.2.News) : ∀ m ∈ w.mails, m.2.News := by
  intro m hm
  obtain ⟨n, hn, rfl⟩ := List.mem_map.1 hm
  exact h n hn

theorem stage_closed (h : c.is_open = false) : c.stage = .closed := by
  unfold MmoClient.stage
  simp [h]

theorem stage_steady (hopen : c.is_open = true) (hno : c.state_awaiting_transition = none)
    (hph : c.current_state.phase = some ph) : c.stage = .serving ph := by
  unfold MmoClient.stage
  rw [if_pos hopen, hno]
  cases hcur : c.current_state <;> rw [hcur] at hph <;> cases hph <;> rfl

theorem stage_logged_in (hopen : c.is_open = true) (hcur : c.current_state = .preauth_state) :
    ((⟨c, w, ps, ts, ls⟩ : Progress).changing k st).client.stage = .serving .lobby := by
  simp [Progress.changing, MmoClient.stage, hopen, hcur]

theorem stage_selected (hopen : c.is_open = true) (hcur : c.current_state = .lobby_state acc chars) :
    ((⟨c, w, ps, ts, ls⟩ : Progress).changing k st).client.stage = .serving .ingame := by
  simp [Progress.changing, MmoClient.stage, hopen, hcur]

theorem stage_logged_off (hopen : c.is_open = true) (hcur : c.current_state = .ingame_state p acc) :
    ((⟨c, w, ps, ts, ls⟩ : Progress).changing k st).client.stage = .switching := by
  simp [Progress.changing, MmoClient.stage, hopen, hcur]

/-- A state that has started. -/
theorem stage_started (hopen : c.is_open = true) (hph : st.phase = some ph) :
    ((⟨c.entered st, w, ps, [], []⟩ : Progress).started k st).client.stage = .serving ph := by
  cases st with
  | null_state => cases hph
  | preauth_state | lobby_state | ingame_state => exact stage_steady hopen rfl hph

end told

section effects

variable {k j : SessionId} {c : MmoClient} {w w' : World} {g : Progress} {acc : AccountData}
  {chars : List LobbyCharacter} {p : EntityPtr} {ps : List (SessionId × Packet)}

theorem IngameEffect.news {request : IngameRequest} (he : IngameEffect k c w p acc request g)
    (hq : w.notices = []) : ∀ m ∈ g.packets, m.2.News := by
  cases he with
  | ignored | log_off => simp [Progress.waiting, Progress.changing, Progress.start]
  | chat request op c' ns hop hperm hef =>
    refine mails_news fun n hn => hef.news n ?_
    simpa [hq] using hn
  | friends request op w' hop hperm hef => exact mails_news (hef.news hq)
  | friends_fail request op e w' hop hperm hef => exact mails_news (hef.news hq)

theorem register_news {ch : LobbyCharacter} (hq : w.notices = [])
    (hef : FriendEffect (w.in_chat (w.newcomer k ch)) (.register_me (w.newcomer k ch)) none w') :
    ∀ m ∈ w'.mails, m.2.News := mails_news (hef.news (by simp [World.in_chat, hq]))

/-- Only its own session is told a phase. -/
theorem PacketEffect.own_phase {valid : Bytes → Bytes → Bool} {data : Buffer} {len : Nat}
    (he : PacketEffect j c w valid data len g) (hq : w.notices = []) (hne : k ≠ j) : g.told k = [] := by
  refine told_quiet fun m hm hk => ?_
  have hown (h : m.1 = j) : m.2.changes = none := absurd (hk.symm.trans h) hne
  cases he with
  | preauth g hcur he =>
    generalize preauth_state.read data len = keys at he
    have : ∀ m ∈ g.packets, m.1 = j := by
      cases he <;> simp [Progress.closing, Progress.changing, Progress.start]
    exact hown (this m hm)
  | lobby_malformed | ingame_malformed => cases hm
  | lobby acc chars request g hcur hr he =>
    cases he with
    | select name ch w' hf hfree hef =>
      rcases List.mem_cons.1 hm with rfl | hm
      · exact hown rfl
      · exact (register_news hq hef m hm).2
    | ignored | log_off | select_absent | create_lookup_fails | create_fails | delete_absent | delete_fails => cases hm
    | select_fails =>
      have hm' : m ∈ [_, _] := hm
      rcases List.mem_pair.1 hm' with rfl | rfl <;> exact hown rfl
    | create_refused | create_taken | create | delete =>
      obtain rfl := List.mem_singleton.1 hm
      exact hown rfl
  | ingame p acc request g hcur hr he => exact (he.news hq m hm).2

theorem stage_closing : (g.closing k).client.stage = .closed := stage_closed rfl

/-! What the session makes of a packet that comes in the phase it is in. -/

theorem answer_stays {asks : Bool} {ph : Phase} (ht : g.told k = []) (hst : g.client.stage = .serving ph)
    (ha : asks = false) : Answer asks (.serving ph) g.client.stage (g.told k) := by
  rw [ht, hst]
  exact .stays ph ha

theorem PreauthEffect.answer {valid : Bytes → Bytes → Bool} {keys : Keys} (he : PreauthEffect k c w valid keys g)
    (hopen : c.is_open = true) (hcur : c.current_state = .preauth_state) :
    Answer true (.serving .preauth) g.client.stage (g.told k) := by
  cases he with
  | login key login acc w' hv hl =>
    rw [told_cons (p := .good_boy_good_keys) rfl (by simp), stage_logged_in hopen hcur]
    exact .changes _ _ rfl
  | unknown_opcode | malformed | bad_keys | lookup_fails =>
    rw [stage_closing]
    exact .closes _ _

theorem LobbyEffect.answer {request : LobbyRequest} (he : LobbyEffect k c w acc chars request g) (hq : w.notices = [])
    (hopen : c.is_open = true) (hno : c.state_awaiting_transition = none)
    (hcur : c.current_state = .lobby_state acc chars) :
    Answer request.asks (.serving .lobby) g.client.stage (g.told k) := by
  have hstage {st : ClientState} {acc' : AccountData} {chars' : List LobbyCharacter} (h : st = .lobby_state acc' chars') :
      ({ c with current_state := st, receiving := true } : MmoClient).stage = .serving .lobby :=
    stage_steady hopen hno (by rw [h]; rfl)
  cases he with
  | select name ch w' hf hfree hef =>
    rw [told_cons (p := .character_selected ch) rfl fun m hm => (register_news hq hef m hm).2,
      stage_selected hopen hcur]
    exact .changes _ _ rfl
  | ignored => exact answer_stays (told_quiet fun m hm => by cases hm) (hstage hcur) rfl
  | create_refused name reason =>
    exact answer_stays (told_cons (p := .character_creation_fail reason) rfl (by simp)) (hstage hcur) rfl
  | create_taken name =>
    exact answer_stays (told_cons (p := .character_creation_fail .name_already_used) rfl (by simp)) (hstage hcur) rfl
  | create name => exact answer_stays (told_cons (p := .character_created _) rfl (by simp)) (hstage rfl) rfl
  | delete name => exact answer_stays (told_cons (p := .character_list _) rfl (by simp)) (hstage rfl) rfl
  | log_off | select_absent | select_fails | create_lookup_fails | create_fails | delete_absent | delete_fails =>
    rw [stage_closing]
    exact .closes _ _

theorem IngameEffect.answer {request : IngameRequest} (he : IngameEffect k c w p acc request g) (hq : w.notices = [])
    (hopen : c.is_open = true) (hno : c.state_awaiting_transition = none)
    (hcur : c.current_state = .ingame_state p acc) :
    Answer request.asks (.serving .ingame) g.client.stage (g.told k) := by
  have hquiet : g.told k = [] := told_quiet fun m hm _ => (he.news hq m hm).2
  have hstage : ({ c with receiving := true } : MmoClient).stage = .serving .ingame :=
    stage_steady hopen hno (by rw [hcur]; rfl)
  cases he with
  | log_off =>
    rw [hquiet, Progress.start, stage_logged_off hopen hcur]
    exact .postpones _ rfl
  | ignored => exact answer_stays hquiet hstage rfl
  | chat request op c' ns hop => exact answer_stays hquiet hstage (by cases request <;> first | rfl | cases hop)
  | friends request op w' hop => exact answer_stays hquiet hstage (by cases request <;> first | rfl | cases hop)
  | friends_fail =>
    rw [stage_closing]
    exact .closes _ _

theorem PacketEffect.answer {valid : Bytes → Bytes → Bool} {m : Command}
    (he : PacketEffect k c w valid m.data m.size g) (hq : w.notices = []) (hopen : c.is_open = true)
    (hno : c.state_awaiting_transition = none) (hph : c.current_state.phase = some m.phase) :
    Answer m.asks (.serving m.phase) g.client.stage (g.told k) := by
  unfold Command.asks
  cases he with
  | preauth g hcur he =>
    rw [hcur] at hph
    rw [← Option.some.inj hph]
    exact he.answer hopen hcur
  | lobby_malformed | ingame_malformed =>
    rw [stage_closing]
    exact .closes _ _
  | lobby acc chars request g hcur hr he =>
    rw [hcur] at hph
    rw [← Option.some.inj hph]
    simp only [hr]
    exact he.answer hq hopen hno hcur
  | ingame p acc request g hcur hr he =>
    rw [hcur] at hph
    rw [← Option.some.inj hph]
    simp only [hr]
    exact he.answer hq hopen hno hcur

end effects

section steps

variable {s s' : Server} {k j : SessionId} {c : MmoClient} {g : Progress} {w w' : World} {st : ClientState}
  {ps : List (SessionId × Packet)}

/-- Who leaves the game is told so last, and nobody else is told a phase. -/
theorem Destroyed.phase (h : Destroyed j w st w' ps) (hq : w.notices = []) :
    (∃ p acc ms, st = .ingame_state p acc ∧ ps = ms ++ [(j, .moved_to_lobby)] ∧ ∀ m ∈ ms, m.2.News) ∨
      (∀ p, ¬ st.holds p) ∧ ps = [] := by
  cases h with
  | ingame_state p acc w1 c ns hf hc =>
    refine .inl ⟨p, acc, _, rfl, rfl, fun m hm => ?_⟩
    rcases List.mem_append.1 hm with hm | hm
    · exact mails_news (hf.news hq) m hm
    · refine mails_news (fun n hn => hc.news n ?_) m hm
      simpa [World.quiet] using hn
  | other _ hnone => exact .inr ⟨hnone, rfl⟩

theorem told_other (h : Destroyed j w st w' ps) (hq : w.notices = []) (hne : k ≠ j) (hg : g.packets = ps) :
    g.told k = [] := by
  refine told_quiet fun m hm hk => ?_
  rw [hg] at hm
  rcases h.phase hq with ⟨p, acc, ms, _, rfl, hms⟩ | ⟨_, rfl⟩
  · rcases List.mem_append.1 hm with hm | hm
    · exact (hms m hm).2
    · rw [List.mem_singleton.1 hm] at hk
      exact absurd hk.symm hne
  · cases hm

theorem told_world (hs : s.sent = []) (h : ∀ n ∈ w.notices, n.2.News) : (s.put_world w).told k = [] := by
  rw [Server.told, wire_put_world hs]
  split
  · exact List.filterMap_eq_nil_iff.2 fun p hp => (mails_news h _ (mem_addressed.1 hp)).2
  · rfl

/-- Another session's handler tells this one no phase. -/
theorem turn_other {s0 : Server} (hclients : s0.clients = s.clients) (hs : s0.sent = []) (hne : k ≠ j)
    (hg : g.told k = []) : Turn (s.stage k) ((s0.progress j g).stage k) ((s0.progress j g).told k) := by
  have hstage : (s0.progress j g).stage k = s.stage k := by
    rw [stage_progress_ne hne]
    unfold Server.stage
    rw [hclients]
  have htold : (s0.progress j g).told k = [] := by
    rw [told_progress hs, hg]
    split <;> rfl
  rw [hstage, htold]
  exact .stays _

/-- Neither does its own, if it leaves the stage alone. -/
theorem turn_same {s0 : Server} (hs : s0.sent = []) (hg : g.told k = []) (hstage : g.client.stage = s.stage k) :
    Turn (s.stage k) ((s0.progress k g).stage k) ((s0.progress k g).told k) := by
  have htold : (s0.progress k g).told k = [] := by
    rw [told_progress hs, hg]
    split <;> rfl
  rw [stage_progress, hstage, htold]
  exact .stays _

theorem turn_closed {s0 : Server} (hg : g.client.stage = .closed) :
    Turn (s.stage k) ((s0.progress k g).stage k) ((s0.progress k g).told k) := by
  rw [stage_progress, hg]
  exact .closes _ _

/-- A session that takes its next state is where it said it would be, or leaves
the game and says so last. -/
theorem transition_stage (hopen : c.is_open = true) (hst : c.state_awaiting_transition = some st)
    (hf : Follows c.current_state st) (hd : Destroyed k w c.current_state w' ps) (hq : w.notices = []) :
    ps = [] ∧ ((⟨c.entered st, w', ps, [], []⟩ : Progress).started k st).client.stage = c.stage ∨
    ∃ ms, ps = ms ++ [(k, .moved_to_lobby)] ∧ (∀ m ∈ ms, m.2.News) ∧ c.stage = .switching ∧
      ((⟨c.entered st, w', ps, [], []⟩ : Progress).started k st).client.stage = .serving .lobby := by
  generalize hbefore : c.stage = before
  unfold MmoClient.stage at hbefore
  rw [if_pos hopen, hst] at hbefore
  generalize c.current_state = cur at hf hd hbefore
  cases hf with
  | login acc =>
    rcases hd.phase hq with ⟨_, _, _, h, _⟩ | ⟨_, hps⟩
    · cases h
    · exact .inl ⟨hps, (stage_started hopen rfl).trans hbefore⟩
  | enter acc chars p =>
    rcases hd.phase hq with ⟨_, _, _, h, _⟩ | ⟨_, hps⟩
    · cases h
    · exact .inl ⟨hps, (stage_started hopen rfl).trans hbefore⟩
  | leave p acc =>
    rcases hd.phase hq with ⟨_, _, ms, _, hps, hms⟩ | ⟨hnone, _⟩
    · exact .inr ⟨ms, hps, hms, hbefore.symm, stage_started hopen rfl⟩
    · exact absurd rfl (hnone p)

theorem transition_turn {rest : List Task} (hok : ServerOk s) (hs : s.sent = []) (hq : s.world.notices = [])
    (hstrand : s.sync_strand = .transition k :: rest) (hc : s.clients k = some c)
    (hst : c.state_awaiting_transition = some st) (hd : Destroyed k s.world c.current_state w ps) :
    let g := (⟨c.entered st, w, ps, [], []⟩ : Progress).started k st
    Turn (s.stage k) ((({ s with sync_strand := rest } : Server).progress k g).stage k)
      ((({ s with sync_strand := rest } : Server).progress k g).told k) := by
  intro g
  obtain ⟨hopen, _, hf⟩ := hok.follows hstrand hc hst
  have hopen' : ({ s with sync_strand := rest } : Server).is_open k = true := (is_open_of hc).symm.trans hopen
  rcases transition_stage hopen hst hf hd hq with ⟨rfl, hstage⟩ | ⟨ms, rfl, hms, hbefore, hafter⟩
  · exact turn_same hs (told_quiet fun m hm => by simp [g] at hm) (hstage.trans (stage_of hc).symm)
  · have htold : g.told k = [.lobby] :=
      told_snoc (p := .moved_to_lobby) (started_packets _ k st) fun m hm => (hms m hm).2
    rw [told_progress (s := { s with sync_strand := rest }) hs, if_pos hopen', stage_progress, htold, hafter,
      stage_of hc, hbefore]
    exact .tells _

/-- What a handler does that is not a receive of the session. -/
theorem HandlerEffect.turn {hd : Handler} (he : HandlerEffect s hd s') (hok : ServerOk s) (hs : s.sent = [])
    (hq : s.world.notices = []) (hne : ∀ data size, hd ≠ .on_recv k data size) :
    Turn (s.stage k) (s'.stage k) (s'.told k) := by
  cases he with
  | on_accept j hj =>
    by_cases hk : k = j
    · subst hk
      refine turn_same hs (told_quiet fun m hm => by cases hm) ?_
      unfold Server.stage
      rw [hj]
      rfl
    · exact turn_other rfl hs hk (told_quiet fun m hm => by cases hm)
  | on_recv j data size c g hc hr hsize he =>
    have hk : k ≠ j := by
      rintro rfl
      exact hne data size rfl
    exact turn_other rfl hs hk (he.own_phase hq hk)
  | on_error j c hc hr =>
    by_cases hk : k = j
    · subst hk
      exact turn_closed stage_closing
    · exact turn_other rfl hs hk (told_quiet fun m hm => by cases hm)
  | transition j rest c st w ps hstrand hc hst hd =>
    by_cases hk : k = j
    · subst hk
      exact transition_turn hok hs hq hstrand hc hst hd
    · exact turn_other rfl hs hk (told_other hd hq hk (started_packets _ _ _))
  | finalize j rest c w ps hstrand hc hd =>
    by_cases hk : k = j
    · subst hk
      obtain ⟨hout, _⟩ := hok.only_task hstrand hc
      exact turn_closed (stage_closed hout.of_finalize.2.2.1)
    · exact turn_other rfl hs hk (told_other hd hq hk rfl)
  | lobby_chars_loaded j rest chars c acc old hstrand hc hst =>
    by_cases hk : k = j
    · subst hk
      obtain ⟨hout, _⟩ := hok.only_task hstrand hc
      obtain ⟨_, _, acc', old', rfl⟩ := hout.of_loaded
      refine turn_same hs (told_cons (p := .character_list chars) rfl (by simp)) ?_
      rw [stage_of hc]
      rfl
    · refine turn_other rfl hs hk (told_quiet fun m hm hj => ?_)
      rw [List.mem_singleton.1 hm] at hj
      exact absurd hj.symm hk
  | load j id rest c hstrand hc =>
    by_cases hk : k = j
    · subst hk
      exact turn_same hs (told_quiet fun m hm => by cases hm) (stage_of hc).symm
    · exact turn_other rfl hs hk (told_quiet fun m hm => by cases hm)
  | periodic_broadcast c ns he =>
    rw [told_world hs fun n hn => he.news n (by simpa [hq] using hn)]
    exact .stays _
  | periodic_cleanup w he =>
    rw [told_world hs (he.news hq)]
    exact .stays _

/-- A session that waits for a packet is in the phase it has told. -/
theorem MmoClient.Ready.stage (h : c.Ready) (hst : c.current_state ≠ .null_state) :
    ∃ ph, c.current_state.phase = some ph ∧ c.stage = .serving ph := by
  have hsome : ∃ ph, c.current_state.phase = some ph := by
    cases hcur : c.current_state with
    | null_state => exact absurd hcur hst
    | preauth_state | lobby_state | ingame_state => exact ⟨_, rfl⟩
  obtain ⟨ph, hph⟩ := hsome
  exact ⟨ph, hph, stage_steady h.is_open h.no_transition hph⟩

theorem begin_stage (s : Server) (o : Outside) : (s.begin o).stage k = s.stage k := rfl

/-- A step of the server that is not a receive of the session. -/
theorem server_turn {ev : ServerEvent} (hok : ServerOk s) (hs : serverMachine.step s ev s')
    (hne : ∀ data size, ev ≠ .handler (.on_recv k data size)) : Turn (s.stage k) (s'.stage k) (s'.told k) := by
  cases ev with
  | handler hd =>
    obtain ⟨o, ha, hr⟩ := hs
    obtain ⟨hb, he⟩ := handler_effect hok ha hr
    rw [← begin_stage s o]
    exact he.turn hb rfl rfl fun data size h => hne data size (h ▸ rfl)
  | reorder =>
    obtain ⟨w, _, _, rfl⟩ := hs
    exact .stays _

/-- A receive of the session, in the phase it is in. -/
theorem server_answer {m : Command} (hok : ServerOk s)
    (hs : serverMachine.step s (.handler (.on_recv k m.data m.size)) s')
    (hph : s.stage k ≠ .closed → s.stage k = .serving m.phase) : Answer m.asks (s.stage k) (s'.stage k) (s'.told k) := by
  obtain ⟨o, ha, hr⟩ := hs
  obtain ⟨hb, he⟩ := handler_effect hok ha hr
  cases he with
  | on_recv _ _ _ c g hc hrecv hsize he =>
    obtain ⟨_, _, hnull, hready⟩ := (hb.outstanding k c hc).of_receiving hrecv
    obtain ⟨ph, hphase, hstage⟩ := hready.stage hnull
    have hopen : (s.begin o).is_open k = true := (is_open_of hc).symm.trans hready.is_open
    have hst : s.stage k = .serving ph := (stage_of hc).trans hstage
    have hserving := hph (by rw [hst]; simp)
    obtain rfl : ph = m.phase := Stage.serving.inj (hst.symm.trans hserving)
    have hanswer := he.answer rfl hready.is_open hready.no_transition hphase
    rw [hserving, stage_progress, told_progress rfl, if_pos hopen]
    exact hanswer

end steps

/-! ## Runs -/

/-- The client and the server agree on what is on its way. -/
structure LinkOk (k : SessionId) (l : Link) : Prop where
  server : ServerOk l.server
  sync : Sync Command.phase Command.asks l.phase l.awaiting l.up (l.down.filterMap Packet.changes) (l.server.stage k)

section runs

variable {k : SessionId} {l l' : Link}

theorem link_ok_init (h : (patientMachine k).init l) : LinkOk k l := by
  obtain ⟨hs, hl⟩ := h
  have hok := server_ok_init hs
  obtain ⟨db, hfresh, _⟩ := hs
  rw [hl]
  refine ⟨hok, ?_⟩
  rw [hfresh]
  exact .quiet [] (by simp)

theorem link_ok_receives {p : Packet} {rest : List Packet} (h : LinkOk k l) (hd : l.down = p :: rest) :
    LinkOk k (l.receives p rest) := by
  have hsync := h.sync
  rw [hd, List.filterMap_cons] at hsync
  unfold Link.receives
  cases hp : p.changes with
  | none =>
    rw [hp] at hsync
    exact ⟨h.server, hsync⟩
  | some ph =>
    rw [hp] at hsync
    exact ⟨h.server, hsync.receive⟩

theorem link_ok_step {ev : LinkEvent} (h : LinkOk k l) (hs : (patientMachine k).step l ev l') : LinkOk k l' := by
  obtain ⟨hs, hwaits⟩ := hs
  cases ev with
  | send data size =>
    obtain ⟨_, rfl⟩ := hs
    have hsync := h.sync
    rw [hwaits data size rfl] at hsync
    refine ⟨h.server, ?_⟩
    have := hsync.send (m := ⟨l.phase, data, size⟩) rfl
    simpa only [Link.sends, hwaits data size rfl, Bool.false_or] using this
  | receive =>
    obtain ⟨p, rest, hd, rfl⟩ := hs
    exact link_ok_receives h hd
  | deliver =>
    obtain ⟨m, rest, s, hup, hs, rfl⟩ := hs
    have hsync := h.sync
    rw [hup] at hsync
    refine ⟨server_ok_step h.server hs, ?_⟩
    simp only [Link.served, List.filterMap_append]
    exact hsync.deliver (server_answer h.server hs hsync.in_phase)
  | server ev =>
    obtain ⟨s, hs, hne, rfl⟩ := hs
    refine ⟨server_ok_step h.server hs, ?_⟩
    simp only [Link.served, List.filterMap_append]
    exact h.sync.turn (server_turn h.server hs hne)

theorem reachable_link_ok (h : (patientMachine k).Reachable l) : LinkOk k l :=
  h.keeps (fun _ => link_ok_init) fun _ _ _ => link_ok_step

/-- If the client waits for its phase after it has asked for one, the server
reads every packet with the opcodes of the phase it was sent in. -/
theorem commands_decoded_in_phase {m : Command} {rest : List Command} {o : Outside}
    (h : (patientMachine k).Reachable l) (hup : l.up = m :: rest)
    (ha : (Handler.on_recv k m.data m.size).Admitted l.server o) :
    ∃ c, l.server.clients k = some c ∧ c.current_state.phase = some m.phase := by
  obtain ⟨hok, hsync⟩ := reachable_link_ok h
  obtain ⟨⟨c, hc, hrecv⟩, _⟩ := ha.enabled
  obtain ⟨_, _, hnull, hready⟩ := (hok.outstanding k c hc).of_receiving hrecv
  obtain ⟨ph, hphase, hstage⟩ := hready.stage hnull
  have hst : l.server.stage k = .serving ph := (stage_of hc).trans hstage
  rw [hup] at hsync
  have hserving := hsync.in_phase (by rw [hst]; simp)
  rw [hst] at hserving
  exact ⟨c, hc, hphase.trans (congrArg some (Stage.serving.inj hserving))⟩

/-- The waiting client is one of those that send as they like. -/
theorem patient_is_link (h : (patientMachine k).Reachable l) : (linkMachine k).Reachable l :=
  h.of_steps (fun _ h0 => h0) fun _ _ _ hs => hs.1

end runs

/-! ## Two packets at once -/

def Command.lobby (packet : Bytes) : Command := ⟨.lobby, .of packet, packet.length⟩

def delete_packet : Bytes := lobby_state_protocol.delete_character :: packed (ascii "Dora")

/-- Dora is in the lobby and knows it. -/
def dora_waits : Link :=
  ⟨dora_listed, .lobby, false, [], [.character_list [⟨9, ascii "Dora"⟩]]⟩

/-- She has selected the character, and deleted it in the same breath. -/
def dora_overtaken : Link :=
  ⟨dora_in_game, .lobby, true, [.lobby delete_packet],
    [.character_list [⟨9, ascii "Dora"⟩], .character_selected ⟨9, ascii "Dora"⟩]⟩

theorem play_step {s : Server} (address : Nat) (hd : Handler) (ha : hd.Admitted s (outside_at address))
    (hr : hd.run (s.begin (outside_at address)) = .ok () (s.played address hd)) :
    serverMachine.step s (.handler hd) (s.played address hd) := ⟨_, ha, hr⟩

theorem sends_step {l : Link} (packet : Bytes) (h : packet.length ≤ buffer_size) :
    (linkMachine 0).step l (.send (.of packet) packet.length) (l.sends ⟨l.phase, .of packet, packet.length⟩) := ⟨h, rfl⟩

theorem dora_waits_reachable : (patientMachine 0).Reachable dora_waits := by
  have hnobody {o : Outside} (p : EntityPtr) (h : ((fun _ => none : EntityPtr → Option EntityData) p).isSome) :
      p.address ≠ o.env.new_entity := by cases h
  have h0 : (patientMachine 0).init ⟨Server.fresh doras_tables, .preauth, false, [], []⟩ := ⟨doras_tables_init, rfl⟩
  have h1 : (patientMachine 0).Reachable ⟨(Server.fresh doras_tables).played 0 (.on_accept 0), .preauth, false, [], []⟩ :=
    (Machine.Reachable.init h0).step (e := .server (.handler (.on_accept 0)))
      ⟨⟨_, play_step 0 _ ⟨rfl, hnobody, rfl⟩ rfl, (by simp), rfl⟩, (by simp)⟩
  have h2 := h1.step ⟨sends_step login_packet (by decide), fun _ _ _ => rfl⟩
  have h3 : (patientMachine 0).Reachable ⟨dora_asked, .preauth, true, [], [.good_boy_good_keys]⟩ :=
    h2.step (e := .deliver)
      ⟨⟨_, [], _, rfl, play_step 0 (receive login_packet) ⟨⟨⟨_, rfl, rfl⟩, by decide⟩, hnobody, rfl⟩ rfl, rfl⟩, (by simp)⟩
  have h4 : (patientMachine 0).Reachable ⟨dora_asked, .lobby, false, [], []⟩ :=
    h3.step (e := .receive) ⟨⟨_, _, rfl, rfl⟩, (by simp)⟩
  have h5 : (patientMachine 0).Reachable ⟨dora_asked.played 0 .next_task, .lobby, false, [], []⟩ :=
    h4.step (e := .server (.handler .next_task))
      ⟨⟨_, play_step 0 _ ⟨List.cons_ne_nil _ _, hnobody, rfl⟩ rfl, (by simp), rfl⟩, (by simp)⟩
  have h6 : (patientMachine 0).Reachable ⟨(dora_asked.played 0 .next_task).played 0 .next_load, .lobby, false, [], []⟩ :=
    h5.step (e := .server (.handler .next_load))
      ⟨⟨_, play_step 0 _ ⟨List.cons_ne_nil _ _, hnobody, rfl⟩ rfl, (by simp), rfl⟩, (by simp)⟩
  exact h6.step (e := .server (.handler .next_task))
    ⟨⟨_, play_step 0 _ ⟨List.cons_ne_nil _ _, hnobody, rfl⟩ rfl, (by simp), rfl⟩, (by simp)⟩

/-- The selection comes in the lobby. -/
theorem selection_read_in_lobby : ∃ c, dora_listed.clients 0 = some c ∧ c.current_state.phase = some .lobby :=
  commands_decoded_in_phase (k := 0) (l := dora_waits.sends (.lobby select_packet)) (m := .lobby select_packet)
    (o := outside_at 0) (dora_waits_reachable.step ⟨sends_step select_packet (by decide), fun _ _ _ => rfl⟩)
    rfl ⟨⟨⟨_, rfl, rfl⟩, by decide⟩, fun p h => (by cases h), rfl⟩

/-- The deletion comes in the game, where it means to leave a room. -/
theorem deletion_read_in_game : (linkMachine 0).Reachable dora_overtaken ∧
    (Handler.on_recv 0 (.of delete_packet) delete_packet.length).Admitted dora_overtaken.server (outside_at 1) ∧
    dora_overtaken.up = [.lobby delete_packet] ∧ (Command.lobby delete_packet).phase = .lobby ∧
    dora_overtaken.server.clients 0 = some doras_session ∧ doras_session.current_state.phase = some .ingame ∧
    lobby_state_recv_packet_factory.construct (.of delete_packet) delete_packet.length =
      .ok (.request_character_delete (ascii "Dora")) ∧
    ingame_state_recv_packet_factory.construct (.of delete_packet) delete_packet.length =
      .ok (.leave_chat (ascii "Dora")) := by
  refine ⟨?_, dora_in_game_receives _ (by decide), rfl, rfl, rfl, rfl, rfl, rfl⟩
  have h1 := (patient_is_link dora_waits_reachable).step (sends_step select_packet (by decide))
  have h2 := h1.step (sends_step delete_packet (by decide))
  have h3 : (linkMachine 0).Reachable { dora_overtaken with server := dora_selected } :=
    h2.step (e := .deliver)
      ⟨_, [.lobby delete_packet], _, rfl,
        play_step 0 (receive select_packet) ⟨⟨⟨_, rfl, rfl⟩, by decide⟩, fun p h => (by cases h), rfl⟩ rfl, rfl⟩
  exact h3.step (e := .server (.handler .next_task))
    ⟨_, play_step 1 _ ⟨List.cons_ne_nil _ _, other_address rfl, rfl⟩ rfl, (by simp), rfl⟩

end tejk_it_izi
