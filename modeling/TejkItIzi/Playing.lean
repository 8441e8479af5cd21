import TejkItIzi.PacketSizes
import TejkItIzi.Seats
/-!
# Scripts

A script is a list of handlers, each with what it takes from outside. `play`
runs one as long as every handler can run, and looks at the listed sessions
only, so that it can be computed; what it arrives at, a run arrives at.
-/

namespace tejk_it_izi

open ProgLib

abbrev Script := List (Outside × Handler)

def ClientState.character : ClientState → Option EntityPtr
  | .ingame_state my_character _ => some my_character
  | _ => none

/-- The characters that states of the session own. -/
def MmoClient.characters (c : MmoClient) : List EntityPtr :=
  c.current_state.character.toList ++ (c.state_awaiting_transition.bind ClientState.character).toList

/-- The accounts that states of the session are for. -/
def MmoClient.accounts (c : MmoClient) : List AccountData :=
  c.current_state.account.toList ++ (c.state_awaiting_transition.bind ClientState.account).toList

/-- Only these sessions have begun. -/
def Server.Only (s : Server) (ids : List SessionId) : Prop := ∀ k, k ∉ ids → s.clients k = none

/-- The handler is admitted, as far as the listed sessions show. -/
def Server.admits (s : Server) (ids : List SessionId) (o : Outside) (h : Handler) : Bool :=
  (match h with
    | .on_accept k => (s.clients k).isNone && ids.contains k
    | .on_recv k _ size => (s.clients k).any (·.receiving) && decide (size ≤ buffer_size)
    | .on_error k => (s.clients k).any (·.receiving)
    | .next_task => !s.sync_strand.isEmpty
    | .next_load => !s.database_strand.isEmpty
    | .periodic_broadcast | .periodic_cleanup => true) &&
  (ids.all fun k => (s.clients k).all fun c => c.characters.all fun p => p.address != o.env.new_entity) &&
  (s.world.chat.rooms o.env.new_room).isNone

/-- The server after the script; every handler finds a server that is as `check` says. -/
def Server.play (s : Server) (ids : List SessionId) (check : Server → Bool) : Script → Option Server
  | [] => some s
  | (o, h) :: rest =>
    if s.admits ids o h && check s then
      match h.run (s.begin o) with
      | .ok _ s' => s'.play ids check rest
      | .error _ _ => none
    else none

/-- What `g` shows of the server after the handler, if it can run and returns. -/
def Server.outcome {α : Type} (s : Server) (ids : List SessionId) (o : Outside) (h : Handler) (g : Server → α) :
    Option (Except Fault α) :=
  if s.admits ids o h then
    match h.run (s.begin o) with
    | .ok _ s' => some (.ok (g s'))
    | .error f _ => some (.error f)
  else none

/-- Each account has one session, as far as the listed sessions show. -/
def Server.one_session_each (s : Server) (ids : List SessionId) : Bool :=
  ids.all fun j => ids.all fun k => j == k || (s.clients j).all fun cj => (s.clients k).all fun ck =>
    cj.accounts.all fun a => ck.accounts.all fun b => a.uid != b.uid

section sound

variable {s s' t : Server} {ids : List SessionId} {o : Outside} {hd : Handler} {c : MmoClient}

theorem holds_iff_character {st : ClientState} {p : EntityPtr} : st.holds p ↔ st.character = some p := by
  cases st <;> simp [ClientState.holds, ClientState.character]

theorem mem_characters {p : EntityPtr} : p ∈ c.characters ↔ c.Holds p := by
  simp [MmoClient.characters, MmoClient.Holds, holds_iff_character, Option.bind_eq_some_iff]

theorem mem_accounts {acc : AccountData} : acc ∈ c.accounts ↔ c.LoggedIn acc := by
  simp [MmoClient.accounts, MmoClient.LoggedIn, Option.bind_eq_some_iff]

theorem Server.Only.mem (h : s.Only ids) {k : SessionId} (hc : s.clients k = some c) : k ∈ ids := by
  by_contra hk
  rw [h k hk] at hc
  cases hc

theorem one_session_each_of (h : s.one_session_each ids = true) (honly : s.Only ids) : s.OneSessionEach := by
  intro j k cj ck a b hcj hck ha hb hab
  simp only [Server.one_session_each, List.all_eq_true, Bool.or_eq_true, beq_iff_eq] at h
  refine (h j (honly.mem hcj) k (honly.mem hck)).resolve_right fun hdiff => ?_
  simp only [hcj, hck, Option.all_some, List.all_eq_true, bne_iff_ne] at hdiff
  exact hdiff a (mem_accounts.2 ha) b (mem_accounts.2 hb) hab

/-- Whoever is in the game is of a listed session. -/
theorem admitted_of_admits (hok : ServerOk s) (honly : s.Only ids) (h : s.admits ids o hd = true) :
    hd.Admitted s o := by
  simp only [Server.admits, Bool.and_eq_true, List.all_eq_true, Option.all_eq_true, bne_iff_ne] at h
  obtain ⟨⟨henabled, hentity⟩, hroom⟩ := h
  refine ⟨?_, fun p hp => ?_, Option.isNone_iff_eq_none.1 hroom⟩
  · have hreceiving {k : SessionId} (h : (s.clients k).any (·.receiving) = true) : s.receiving k := by
      obtain ⟨c, hc, hr⟩ := (Option.any_eq_true ..).1 h
      exact ⟨c, hc, hr⟩
    cases hd with
    | on_accept k =>
      rw [Bool.and_eq_true] at henabled
      exact Option.isNone_iff_eq_none.1 henabled.1
    | on_recv k data size =>
      rw [Bool.and_eq_true, decide_eq_true_eq] at henabled
      exact ⟨hreceiving henabled.1, henabled.2⟩
    | on_error k => exact hreceiving henabled
    | next_task | next_load => simpa using henabled
    | periodic_broadcast | periodic_cleanup => trivial
  · obtain ⟨c, hc, hh⟩ := (hok.players p).1 ((hok.world.players p).1 hp)
    exact hentity _ (honly.mem hc) c hc p (mem_characters.2 hh)

theorem HandlerEffect.only (he : HandlerEffect s hd s') (honly : s.Only ids)
    (hnew : ∀ k, hd = .on_accept k → k ∈ ids) : s'.Only ids := by
  have progress {s0 : Server} (h0 : s0.clients = s.clients) {k : SessionId} (hk : k ∈ ids) (g : Progress) :
      (s0.progress k g).Only ids := by
    intro j hj
    have hjk : j ≠ k := fun h => hj (h ▸ hk)
    rw [progress_client_ne hjk, h0]
    exact honly j hj
  cases he with
  | on_accept k => exact progress rfl (hnew k rfl) _
  | on_recv k data size c g hc | on_error k c hc | load k id rest c hs hc => exact progress rfl (honly.mem hc) _
  | transition k rest c st w ps hs hc | finalize k rest c w ps hs hc | lobby_chars_loaded k rest chars c acc old hs hc =>
    exact progress rfl (honly.mem hc) _
  | periodic_broadcast | periodic_cleanup => exact honly

theorem play_handler (hok : ServerOk s) (honly : s.Only ids) (ha : s.admits ids o hd = true)
    (hr : hd.run (s.begin o) = .ok () s') :
    schemaMachine.step s (.handler hd) s' ∧ ServerOk s' ∧ s'.Only ids := by
  have hadm := admitted_of_admits hok honly ha
  obtain ⟨hb, he⟩ := handler_effect hok hadm hr
  refine ⟨⟨o, hadm, hr⟩, he.ok hb hadm.new_entity, he.only honly ?_⟩
  rintro k rfl
  simp only [Server.admits, Bool.and_eq_true, List.contains_iff_mem] at ha
  exact ha.1.1.2

/-- What a script arrives at, a run arrives at. -/
theorem play_run {check : Server → Bool} {script : Script} (hok : ServerOk s) (honly : s.Only ids)
    (h : s.play ids check script = some t) :
    ∃ tr, schemaMachine.Run s tr t ∧ t.Only ids ∧ tr.map (·.event) = script.map (.handler ·.2) ∧
      ∀ x ∈ tr, x.pre.Only ids ∧ check x.pre = true := by
  induction script generalizing s with
  | nil =>
    cases h
    exact ⟨[], .nil, honly, rfl, by simp⟩
  | cons step rest ih =>
    obtain ⟨o, hd⟩ := step
    simp only [Server.play] at h
    split at h
    case isFalse => cases h
    case isTrue hcond =>
      rw [Bool.and_eq_true] at hcond
      split at h
      · next s' hrun =>
        obtain ⟨hstep, hok', honly'⟩ := play_handler hok honly hcond.1 hrun
        obtain ⟨tr, hr, ht, hevents, htr⟩ := ih hok' honly' h
        refine ⟨⟨s, .handler hd, s'⟩ :: tr, Machine.run_cons.2 ⟨rfl, hstep, hr⟩, ht, by simp [hevents], fun x hx => ?_⟩
        rcases List.mem_cons.1 hx with rfl | hx
        · exact ⟨honly, hcond.2⟩
        · exact htr x hx
      · cases h

theorem admits_of_outcome {α : Type} {g : Server → α} {v : Except Fault α} (h : s.outcome ids o hd g = some v) :
    s.admits ids o hd = true := by
  unfold Server.outcome at h
  split at h
  case isTrue ha => exact ha
  case isFalse => cases h

theorem outcome_ok {α : Type} {g : Server → α} {v : α} (hok : ServerOk s) (honly : s.Only ids)
    (h : s.outcome ids o hd g = some (.ok v)) :
    hd.Admitted s o ∧ ∃ s', hd.run (s.begin o) = .ok () s' ∧ g s' = v := by
  have ha := admits_of_outcome h
  refine ⟨admitted_of_admits hok honly ha, ?_⟩
  rw [Server.outcome, if_pos ha] at h
  split at h
  · next s' hrun =>
    cases h
    exact ⟨s', hrun, rfl⟩
  · cases h

theorem outcome_error {α : Type} {g : Server → α} {f : Fault} (hok : ServerOk s) (honly : s.Only ids)
    (h : s.outcome ids o hd g = some (.error f)) : hd.Admitted s o ∧ ∃ s', hd.run (s.begin o) = .error f s' := by
  have ha := admits_of_outcome h
  refine ⟨admitted_of_admits hok honly ha, ?_⟩
  rw [Server.outcome, if_pos ha] at h
  split at h
  · cases h
  · next s' hrun =>
    cases h
    exact ⟨s', hrun⟩

end sound

/-! ## Dora and Eve -/

/-- Two accounts; Dora is a character of the first. -/
def two_accounts : Database :=
  ⟨[⟨7, ascii "dora", [], []⟩, ⟨8, ascii "eve", [], []⟩], [], [⟨9, 7, ascii "Dora"⟩], [], 10⟩

/-- The allocator hands out this address, and the database answers. -/
def quiet (address : Nat) : Outside := ⟨⟨0, address, address, []⟩, fun _ _ => true⟩

def script (hs : List Handler) : Script := hs.zipIdx.map fun h => (quiet h.2, h.1)

def from_client (k : SessionId) (packet : Bytes) : Handler := .on_recv k (.of packet) packet.length

/-- A new session logs in, and gets the list of its characters. -/
def enters_lobby (k : SessionId) (login : Bytes) : List Handler :=
  [.on_accept k,
    from_client k (preauth_state_protocol.loginserver_keys :: packed (List.replicate 64 0) ++ packed login),
    .next_task, .next_load, .next_task]

def selects (k : SessionId) (name : Bytes) : Handler := from_client k (lobby_state_protocol.select_character :: packed name)

def creates (k : SessionId) (name : Bytes) : Handler := from_client k (lobby_state_protocol.create_character :: packed name)

def deletes (k : SessionId) (name : Bytes) : Handler := from_client k (lobby_state_protocol.delete_character :: packed name)

def joins (k : SessionId) (chatroom_name : Bytes) : Handler :=
  from_client k (ingame_state_protocol.join_chat :: packed chatroom_name)

def speaks (k : SessionId) (chatroom_name message : Bytes) : Handler :=
  from_client k (ingame_state_protocol.send_chat_msg :: packed chatroom_name ++ packed message)

theorem two_accounts_init : schemaMachine.init (.fresh two_accounts) :=
  ⟨two_accounts, rfl, by decide +kernel, fun _ h => absurd h List.not_mem_nil, by constructor <;> decide +kernel⟩

/-- Each account has a character. -/
def two_players : Database := { two_accounts with characters := [⟨1, 7, ascii "Dora"⟩, ⟨2, 8, ascii "Eve"⟩] }

theorem two_players_init : schemaMachine.init (.fresh two_players) :=
  ⟨two_players, rfl, by decide +kernel, fun _ h => absurd h List.not_mem_nil, by constructor <;> decide +kernel⟩

/-- Both enter the game. -/
def both_enter : List Handler :=
  enters_lobby 0 (ascii "dora") ++ [selects 0 (ascii "Dora"), .next_task] ++ enters_lobby 1 (ascii "eve") ++
    [selects 1 (ascii "Eve"), .next_task]

theorem play_fresh {db : Database} {α : Type} (ids : List SessionId) (check : Server → Bool) (hs : List Handler)
    (f : Server → α) (v : α) (h0 : schemaMachine.init (.fresh db))
    (h : ((Server.fresh db).play ids check (script hs)).map f = some v) :
    ∃ tr s, schemaMachine.Run (.fresh db) tr s ∧ f s = v ∧ tr.map (·.event) = hs.map .handler ∧ s.Only ids ∧
      ∀ x ∈ tr, x.pre.Only ids ∧ check x.pre = true := by
  obtain ⟨s, hplay, hv⟩ := Option.map_eq_some_iff.1 h
  obtain ⟨tr, hr, hs', hevents, htr⟩ := play_run (schema_server_ok (.init h0)) (fun _ _ => rfl) hplay
  have hscript : (script hs).map (fun x => ServerEvent.handler x.2) = hs.map .handler := by
    conv_rhs => rw [← List.zipIdx_map_fst 0 hs, List.map_map]
    exact List.map_map
  exact ⟨tr, s, hr, hv, hevents.trans hscript, hs', htr⟩

/-- The handler has no packet that puts a quote into a statement, whatever the state
of its session. -/
def Handler.plain : Handler → Bool
  | .on_recv _ data size =>
    (match preauth_state.read data size with
      | .keys _ login => !login.contains quote
      | _ => true) &&
    match ingame_state_recv_packet_factory.construct data size with
      | .ok (.friend_remove name) => !name.contains quote
      | _ => true
  | _ => true

theorem Handler.plain_sound {hd : Handler} (h : hd.plain = true) (s : Server) : s.Plain (.handler hd) := by
  intro k data size c hev _
  cases hev
  simp only [Handler.plain, Bool.and_eq_true] at h
  unfold ClientState.PlainPacket
  cases c.current_state with
  | preauth_state =>
    intro key login hread
    rw [hread] at h
    simpa using h.1
  | ingame_state p acc =>
    intro name hr
    rw [hr] at h
    simpa using h.2
  | _ => trivial

theorem plain_of_events {tr : List (Taken Server ServerEvent)} {hs : List Handler}
    (hevents : tr.map (·.event) = hs.map .handler) (h : hs.all Handler.plain = true) :
    ∀ x ∈ tr, x.pre.Plain x.event := by
  intro x hx
  have hmem : x.event ∈ hs.map .handler := by
    rw [← hevents]
    exact List.mem_map_of_mem hx
  obtain ⟨hd, hhd, heq⟩ := List.mem_map.1 hmem
  rw [← heq]
  exact Handler.plain_sound (List.all_eq_true.1 h _ hhd) x.pre

/-- While no account has two sessions. -/
theorem play_one_session_each {db : Database} {α : Type} (ids : List SessionId) (hs : List Handler) (f : Server → α) (v : α)
    (h0 : schemaMachine.init (.fresh db))
    (h : ((Server.fresh db).play ids (·.one_session_each ids) (script hs)).map f = some v) :
    ∃ tr s, schemaMachine.Run (.fresh db) tr s ∧ f s = v ∧ tr.map (·.event) = hs.map .handler ∧ s.Only ids ∧
      ∀ x ∈ tr, x.pre.OneSessionEach := by
  obtain ⟨tr, s, hr, hv, hevents, honly, hone⟩ := play_fresh ids (·.one_session_each ids) hs f v h0 h
  exact ⟨tr, s, hr, hv, hevents, honly, fun x hx => one_session_each_of (hone x hx).2 (hone x hx).1⟩

/-! ## Scripts whose packets fit -/

/-- Whatever the state of its session, the answer to the packet fits. -/
def Handler.short : Handler → Bool
  | .on_recv _ data size =>
    match ingame_state_recv_packet_factory.construct data size with
    | .ok (.join_chat chatroom_name) => decide (29 + chatroom_name.length ≤ buffer_size)
    | .ok (.send_chat_msg chatroom_name message) =>
      decide (33 + chatroom_name.length + message.length ≤ buffer_size)
    | .ok (.send_whisper _ message) => decide (29 + message.length ≤ buffer_size)
    | .ok (.friend_add friend_name) => decide (9 + friend_name.length ≤ buffer_size)
    | _ => true
  | _ => true

/-- So do the lists to come, and the sizes of the rooms. -/
def Server.roomy (s : Server) : Bool :=
  (s.sync_strand.all fun
    | .lobby_chars_loaded _ chars => decide (9 + characters_size chars ≤ buffer_size)
    | _ => true) &&
  s.world.chat.active_chatrooms.entries.all fun e =>
    decide (69 + 2 * e.1.length + (Nat.toDigits 10 (s.world.chat.members e.1).card).length ≤ buffer_size)

section fitting

variable {s : Server} {hd : Handler} {k : SessionId} {data : Buffer} {size : Nat}

theorem short_fits (hok : ServerOk s) (hn : NamesOk s) (h : (Handler.on_recv k data size).short = true) :
    (Handler.on_recv k data size).Fits buffer_size s := by
  intro c p acc request hc hcur hr
  have hp : p.name.length ≤ 20 := hn.short_names p (hok.held_online hc (.inl (by rw [hcur]; rfl)))
  simp only [Handler.short, hr] at h
  constructor
  · intro op hop
    cases request <;> cases hop <;> simp only [decide_eq_true_eq] at h <;> simp only [ChatOp.Fits] <;> intros <;> omega
  · intro op hop
    cases request <;> cases hop
    · simp only [decide_eq_true_eq] at h
      exact fun _ => h
    · trivial

theorem roomy_fits (hok : ServerOk s) (hn : NamesOk s) (hshort : hd.short = true) (h : s.roomy = true) :
    hd.Fits buffer_size s := by
  simp only [Server.roomy, Bool.and_eq_true, List.all_eq_true] at h
  obtain ⟨hlists, hrooms⟩ := h
  cases hd with
  | on_recv k data size => exact short_fits hok hn hshort
  | next_task =>
    intro k chars rest hs
    have hlist := hlists (.lobby_chars_loaded k chars) (by rw [hs]; exact List.mem_cons_self)
    exact of_decide_eq_true hlist
  | periodic_broadcast =>
    rintro R ⟨p, hp⟩
    obtain ⟨room, r, hl, _⟩ := ChatSystem.room_of_mem hp
    exact of_decide_eq_true (hrooms ⟨R, room⟩ (AList.mem_lookup_iff.1 hl))
  | on_accept | on_error | next_load | periodic_cleanup => trivial

theorem play_fresh_fitting {db : Database} {α : Type} (ids : List SessionId) (hs : List Handler) (f : Server → α)
    (v : α) (h0 : schemaMachine.init (.fresh db)) (hshort : hs.all Handler.short = true)
    (h : ((Server.fresh db).play ids Server.roomy (script hs)).map f = some v) :
    ∃ tr s, fittingMachine.Run (.fresh db) tr s ∧ f s = v ∧ tr.map (·.event) = hs.map .handler ∧ s.Only ids := by
  obtain ⟨tr, s, hr, hv, hevents, honly, hroomy⟩ := play_fresh ids Server.roomy hs f v h0 h
  refine ⟨tr, s, hr.of_steps fun x hx hstep => ⟨hstep, fun hd hev => ?_⟩, hv, hevents, honly⟩
  have hreach := schema_is_server (hr.reachable_pre (.init h0) hx)
  have hmem : ServerEvent.handler hd ∈ hs.map .handler := by
    rw [← hevents, ← hev]
    exact List.mem_map_of_mem hx
  obtain ⟨hd', hhd, heq⟩ := List.mem_map.1 hmem
  cases heq
  exact roomy_fits (reachable_server_ok hreach) (reachable_names_ok hreach) (List.all_eq_true.1 hshort _ hhd)
    (hroomy x hx).2

theorem play_fresh_quoteless {db : Database} {α : Type} (ids : List SessionId) (hs : List Handler) (f : Server → α)
    (v : α) (h0 : schemaMachine.init (.fresh db)) (hplain : hs.all Handler.plain = true) (hshort : hs.all Handler.short = true)
    (h : ((Server.fresh db).play ids Server.roomy (script hs)).map f = some v) :
    ∃ s, (serverMachine.only Server.Tame).Reachable s ∧ f s = v ∧ s.Only ids := by
  obtain ⟨tr, s, hr, hv, hevents, honly⟩ := play_fresh_fitting ids hs f v h0 hshort h
  have hquoteless := plain_of_events hevents hplain
  exact ⟨s, ⟨_, tr, schema_init_server h0, hr.of_steps fun x hx hs => ⟨⟨hquoteless x hx, hs.2⟩, hs.1⟩⟩, hv, honly⟩

end fitting

end tejk_it_izi
