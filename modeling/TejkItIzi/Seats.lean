import TejkItIzi.CharacterTable
import TejkItIzi.ServerInvariants
/-!
# Seats

A session seen from the table of characters: the account it is logged in with,
the list it has of its characters, and the character it has in the game. `Move`
says what can become of a seat and of the table in one step, and every handler
of the server moves one seat.
-/

namespace tejk_it_izi

open ProgLib

inductive Seat where
  /-- Not logged in, or finalised. -/
  | vacant
  /-- On its way to the lobby, without a list. -/
  | expecting (acc : AccountData)
  /-- The list has been read, and is on its way. -/
  | fetched (acc : AccountData) (chars : List LobbyCharacter)
  /-- In the lobby, waiting for a packet. -/
  | lobby (acc : AccountData) (chars : List LobbyCharacter)
  /-- A character is in the game, and its state not yet started. -/
  | entering (acc : AccountData) (p : EntityPtr)
  | ingame (acc : AccountData) (p : EntityPtr)
  /-- On its way to the lobby, and the character still in the game. -/
  | leaving (acc : AccountData) (p : EntityPtr)
  /-- Closed, and not yet finalised. -/
  | closing (acc : AccountData) (p : Option EntityPtr)

namespace Seat

def account : Seat → Option AccountData
  | vacant => none
  | expecting acc | fetched acc _ | lobby acc _ | entering acc _ | ingame acc _ | leaving acc _ | closing acc _ =>
    some acc

/-- The characters it has a list of. -/
def listed : Seat → List LobbyCharacter
  | fetched _ chars | lobby _ chars => chars
  | _ => []

/-- The character it has in the game. -/
def character : Seat → Option EntityPtr
  | entering _ p | ingame _ p | leaving _ p => some p
  | closing _ p => p
  | _ => none

end Seat

/-- What a handler is asked to do. -/
inductive Occasion where
  | other
  | login (loginserver_key account_login : Bytes)
  | request (request : LobbyRequest)

/-- What becomes of the seat of session `k`, and of the table of `db`. -/
inductive Move (k : SessionId) (db : Database) (valid : Bytes → Bytes → Bool) :
    Occasion → Seat → Seat → CharacterTable → Prop
  | stays (occasion st) : Move k db valid occasion st st db.table
  -- To the lobby.
  | login (key login acc) : valid key login = true → db.get_account_data login = some acc →
    Move k db valid (.login key login) .vacant (.expecting acc) db.table
  | fetch (acc) : Move k db valid .other (.expecting acc) (.fetched acc (db.table.of_account acc.uid)) db.table
  | arrive (acc chars) : Move k db valid .other (.fetched acc chars) (.lobby acc chars) db.table
  -- In the lobby.
  | create (acc chars name) : chars.length < 5 → valid_nickname name → db.char_name_to_uid name = 0 →
    Move k db valid (.request (.request_character_create name)) (.lobby acc chars)
      (.lobby acc (chars ++ [⟨db.next_character_id, name⟩])) (db.table.insert name acc.uid)
  | delete (acc chars name ch) : chars.find? (·.name = name) = some ch →
    Move k db valid (.request (.request_character_delete name)) (.lobby acc chars)
      (.lobby acc (chars.eraseP (·.name = name))) (db.table.remove name)
  | select (acc chars name ch p) : chars.find? (·.name = name) = some ch → p.id = ch.uid → p.name = name →
    Move k db valid (.request (.request_character_select name)) (.lobby acc chars) (.entering acc p) db.table
  -- To the game, and back.
  | enter (acc p) : Move k db valid .other (.entering acc p) (.ingame acc p) db.table
  | leave (acc p) : Move k db valid .other (.ingame acc p) (.leaving acc p) db.table
  | back (acc p) : Move k db valid .other (.leaving acc p) (.expecting acc) db.table
  -- The end.
  | close_lobby (occasion acc chars) : Move k db valid occasion (.lobby acc chars) (.closing acc none) db.table
  | close_game (acc p) : Move k db valid .other (.ingame acc p) (.closing acc (some p)) db.table
  | finalize (acc p) : Move k db valid .other (.closing acc p) .vacant db.table

/-! ## The seats of a server -/

def MmoClient.seat (c : MmoClient) (tasks : List Task) : Seat :=
  if c.is_open then
    match c.current_state, c.state_awaiting_transition with
    | .preauth_state, some (.lobby_state acc _) => .expecting acc
    | .lobby_state acc chars, none =>
      if c.receiving then .lobby acc chars
      else match tasks with
        | [.lobby_chars_loaded _ new_chars] => .fetched acc new_chars
        | _ => .expecting acc
    | .lobby_state acc _, some (.ingame_state p _) => .entering acc p
    | .ingame_state p acc, none => .ingame acc p
    | .ingame_state p acc, some _ => .leaving acc p
    | _, _ => .vacant
  else
    match c.current_state with
    | .lobby_state acc _ => .closing acc none
    | .ingame_state p acc => .closing acc (some p)
    | _ => .vacant

def Server.seat (s : Server) (k : SessionId) : Seat :=
  match s.clients k with
  | none => .vacant
  | some c => c.seat (s.tasks_of k)

/-- The handler executes this request in the lobby of session `k`. -/
def Server.Executes (s : Server) (h : Handler) (k : SessionId) (acc : AccountData) (chars : List LobbyCharacter)
    (request : LobbyRequest) : Prop :=
  ∃ data size c, h = .on_recv k data size ∧ s.clients k = some c ∧ c.current_state = .lobby_state acc chars ∧
    lobby_state_recv_packet_factory.construct data size = .ok request

/-- The handler is asked this by session `k`. -/
def Server.Asked (s : Server) (h : Handler) (k : SessionId) : Occasion → Prop
  | .other => True
  | .login key login => ∃ data size c, h = .on_recv k data size ∧ s.clients k = some c ∧
    c.current_state = .preauth_state ∧ preauth_state.read data size = .keys key login
  | .request request => ∃ acc chars, s.Executes h k acc chars request

section seat

variable {s : Server} {k j : SessionId} {g : Progress} {c : MmoClient}

theorem seat_of (hc : s.clients k = some c) : s.seat k = c.seat (s.tasks_of k) := by
  rw [Server.seat, hc]

theorem tasks_of_progress : (s.progress k g).tasks_of j = s.tasks_of j ++ g.tasks.filter (·.session = j) :=
  List.filter_append ..

theorem seat_progress (hg : ∀ t ∈ g.tasks, t.session = k) :
    (s.progress k g).seat k = g.client.seat (s.tasks_of k ++ g.tasks) := by
  rw [seat_of progress_client, tasks_of_progress, List.filter_eq_self.2 fun t ht => by simpa using hg t ht]

theorem seat_progress_ne (hg : ∀ t ∈ g.tasks, t.session = k) (hj : j ≠ k) : (s.progress k g).seat j = s.seat j := by
  have ht : (s.progress k g).tasks_of j = s.tasks_of j := by
    rw [tasks_of_progress, List.filter_eq_nil_iff.2 fun t ht => by simpa [hg t ht] using Ne.symm hj, List.append_nil]
  rw [Server.seat, Server.seat, progress_client_ne hj, ht]

end seat

/-! ## What does not touch the table -/

section table

variable {w w' : World}

theorem FriendEffect.same_table {op : FriendOp} {res : Option StdException} (h : FriendEffect w op res w') :
    w'.db.table = w.db.table := by
  have committed {w0 : World} {st : Statement} {db : Database} (h : db.table = w0.db.table) :
      (w0.committed st db).db.table = w0.db.table := by
    unfold World.committed
    dsimp only
    split
    · exact h
    · rfl
  cases h with
  | add_match | remove_offline | remove_online => exact committed rfl
  | _ => rfl

theorem Destroyed.same_table {k : SessionId} {st : ClientState} {ps : List (SessionId × Packet)}
    (h : Destroyed k w st w' ps) : w'.db.table = w.db.table := by
  cases h with
  | ingame_state p acc w1 c ns hf hc => exact hf.same_table
  | other => rfl

theorem account_lookup_table (w : World) (login : Bytes) : (w.account_lookup login).2.db = w.db := by
  rcases account_lookup_world w login with h | ⟨id, h⟩ <;> rw [h] <;> rfl

theorem account_lookup_data {login : Bytes} {acc : AccountData} (h : w.account_lookup login = (.ok acc, w')) :
    w.db.get_account_data login = some acc := by
  unfold World.account_lookup at h
  dsimp only at h
  split at h
  · cases h
  split at h
  · cases h
  next hdata =>
  split at h
  · cases h
  · cases h
    exact hdata

end table

/-! ## Every handler moves one seat -/

section moves

variable {k : SessionId} {w w' : World} {valid : Bytes → Bytes → Bool} {g : Progress} {acc : AccountData}
  {chars : List LobbyCharacter} {p : EntityPtr} {status : AsyncOperationStatus}

theorem PreauthEffect.move {keys : Keys} {receiving : Bool}
    (he : PreauthEffect k ⟨.preauth_state, none, status, true, receiving⟩ w valid keys g) :
    ∃ occasion, (∀ key login, occasion = .login key login → keys = .keys key login) ∧
      (∀ r, occasion ≠ .request r) ∧
      Move k w.db valid occasion .vacant (g.client.seat g.tasks) g.world.db.table := by
  have hquiet {w' : World} (hdb : w'.db = w.db) : ∃ occasion : Occasion,
      (∀ key login, occasion = .login key login → keys = .keys key login) ∧ (∀ r, occasion ≠ .request r) ∧
      Move k w.db valid occasion .vacant .vacant w'.db.table :=
    ⟨.other, by simp, by simp, hdb ▸ .stays _ _⟩
  cases he with
  | unknown_opcode | malformed | bad_keys => exact hquiet rfl
  | lookup_fails key login w' hv hl =>
    have hdb := account_lookup_table w login
    rw [hl] at hdb
    exact hquiet hdb
  | login key login acc w' hv hl =>
    have hdb := account_lookup_table w login
    rw [hl] at hdb
    refine ⟨.login key login, by simp, by simp, ?_⟩
    show Move k w.db valid _ .vacant (.expecting acc) w'.db.table
    rw [show w'.db = w.db from hdb]
    exact .login key login acc hv (account_lookup_data hl)

theorem LobbyEffect.move {request : LobbyRequest}
    (he : LobbyEffect k ⟨.lobby_state acc chars, none, .awaiting_packet_poll, true, false⟩ w acc chars request g) :
    Move k w.db valid (.request request) (.lobby acc chars) (g.client.seat g.tasks) g.world.db.table := by
  cases he with
  | ignored | create_refused | create_taken => exact .stays _ _
  | log_off | select_absent | select_fails | create_lookup_fails | create_fails | delete_absent | delete_fails =>
    exact .close_lobby _ acc chars
  | select name ch w' hf hfree hef =>
    have hname : ch.name = name := by simpa using List.find?_some hf
    show Move k w.db valid _ _ (.entering acc (w.newcomer k ch)) w'.db.table
    rw [hef.same_table]
    exact .select acc chars name ch _ hf rfl hname
  | create name h1 h2 h3 => exact .create acc chars name h1 h2 h3
  | delete name ch hf =>
    have hname : ch.name = name := by simpa using List.find?_some hf
    show Move k w.db valid _ _ (.lobby acc (chars.eraseP (·.name = name))) (w.db.table.remove ch.name)
    rw [hname]
    exact .delete acc chars name ch hf

theorem IngameEffect.move {request : IngameRequest}
    (he : IngameEffect k ⟨.ingame_state p acc, none, .awaiting_packet_poll, true, false⟩ w p acc request g) :
    Move k w.db valid .other (.ingame acc p) (g.client.seat g.tasks) g.world.db.table := by
  cases he with
  | ignored => exact .stays _ _
  | log_off => exact .leave acc p
  | chat => exact .stays _ _
  | friends request op w' hop hperm hef =>
    show Move k w.db valid _ _ (.ingame acc p) w'.db.table
    rw [hef.same_table]
    exact .stays _ _
  | friends_fail request op e w' hop hperm hef =>
    show Move k w.db valid _ _ (.closing acc (some p)) w'.db.table
    rw [hef.same_table]
    exact .close_game acc p

end moves

section handlers

variable {s s' : Server}

/-- The seat of a session that waits for a packet. -/
theorem ServerOk.seat_receiving (h : ServerOk s) {k : SessionId} {c : MmoClient} (hc : s.clients k = some c)
    (hr : c.receiving = true) : s.tasks_of k = [] ∧ s.seat k = c.seat [] ∧ Outstanding k c [] [] := by
  have hout := h.outstanding k c hc
  obtain ⟨ht, hl, _⟩ := hout.of_receiving hr
  rw [ht, hl] at hout
  exact ⟨ht, by rw [seat_of hc, ht], hout⟩

theorem on_recv_move {k : SessionId} {data : Buffer} {size : Nat} {c : MmoClient} {g : Progress} (h : ServerOk s)
    (hc : s.clients k = some c) (hr : c.receiving = true)
    (he : PacketEffect k { c with receiving := false } s.world s.authenticator data size g) :
    ∃ occasion, s.Asked (.on_recv k data size) k occasion ∧
      Move k s.world.db s.authenticator occasion (c.seat []) (g.client.seat g.tasks) g.world.db.table := by
  obtain ⟨_, _, hout⟩ := h.seat_receiving hc hr
  cases hout with
  | receive st status hnull hstatus =>
    cases he with
    | preauth _ hst hp =>
      cases hst
      obtain ⟨occasion, hl, hreq, hm⟩ := hp.move
      refine ⟨occasion, ?_, hm⟩
      cases occasion with
      | other => trivial
      | login key login => exact ⟨data, size, _, rfl, hc, rfl, hl key login rfl⟩
      | request r => exact absurd rfl (hreq r)
    | lobby_malformed acc chars e hst hp =>
      cases hst
      exact ⟨.other, trivial, .close_lobby _ acc chars⟩
    | lobby acc chars request _ hst hp hl =>
      cases hst
      obtain rfl := hstatus (by simp)
      exact ⟨.request request, ⟨acc, chars, data, size, _, rfl, hc, rfl, hp⟩, hl.move⟩
    | ingame_malformed p acc e hst hp =>
      cases hst
      exact ⟨.other, trivial, .close_game acc p⟩
    | ingame p acc request _ hst hp hl =>
      cases hst
      obtain rfl := hstatus (by simp)
      exact ⟨.other, trivial, hl.move⟩
  | _ => cases hr

/-- One seat moves, as a handler is asked, and no other. -/
def Server.Moves (s : Server) (valid : Bytes → Bytes → Bool) (h : Handler) (s' : Server) : Prop :=
  ∃ k occasion, s.Asked h k occasion ∧ Move k s.world.db valid occasion (s.seat k) (s'.seat k) s'.world.db.table ∧
    ∀ j, j ≠ k → s'.seat j = s.seat j

/-- A task that was the only one of its session has run. -/
theorem next_task_moves {t : Task} {rest : List Task} {c : MmoClient} {g : Progress} (h : ServerOk s)
    (hs : s.sync_strand = t :: rest) (hc : s.clients t.session = some c) (hg : ∀ t' ∈ g.tasks, t'.session = t.session)
    (hm : Move t.session s.world.db s.authenticator .other (c.seat [t]) (g.client.seat g.tasks) g.world.db.table) :
    s.Moves s.authenticator .next_task (({ s with sync_strand := rest } : Server).progress t.session g) := by
  obtain ⟨_, ht, _⟩ := h.only_task hs hc
  have htasks : s.tasks_of t.session = [t] := by
    rw [tasks_of_cons hs]
    exact congrArg _ ht
  refine ⟨t.session, .other, trivial, ?_, fun j hj => ?_⟩
  · rw [seat_progress hg, ht, seat_of hc, htasks]
    exact hm
  · rw [seat_progress_ne hg hj]
    unfold Server.seat
    rw [tasks_of_rest hs hj]

theorem HandlerEffect.moves {hd : Handler} (he : HandlerEffect s hd s') (h : ServerOk s)
    (hnew : ∀ p, (s.world.chat.entities p).isSome → p.address ≠ s.world.env.new_entity) :
    s.Moves s.authenticator hd s' := by
  cases he with
  | on_accept k hk =>
    have htasks : ∀ t ∈ (Progress.start .accepted s.world).tasks, t.session = k := by simp [Progress.start]
    refine ⟨k, .other, trivial, ?_, fun j hj => seat_progress_ne htasks hj⟩
    rw [seat_progress htasks, (h.unknown k hk).1, Server.seat, hk]
    exact .stays _ _
  | on_recv k data size c g hc hr hsize he =>
    obtain ⟨ht, hseat, _⟩ := h.seat_receiving hc hr
    have hg := (he.settled (h.outstanding k c hc) hr (h.owns hc) h.world hnew).tasks
    obtain ⟨occasion, hasked, hm⟩ := on_recv_move h hc hr he
    refine ⟨k, occasion, hasked, ?_, fun j hj => seat_progress_ne hg hj⟩
    rw [seat_progress hg, ht, hseat]
    exact hm
  | on_error k c hc hr =>
    obtain ⟨ht, hseat, hout⟩ := h.seat_receiving hc hr
    have hg : ∀ t ∈ ((Progress.start { c with receiving := false } s.world).closing k).tasks, t.session = k := by
      simp [Progress.closing, Progress.start, Task.session]
    refine ⟨k, .other, trivial, ?_, fun j hj => seat_progress_ne hg hj⟩
    rw [seat_progress hg, ht, hseat]
    cases hout with
    | receive st status =>
      cases st with
      | null_state | preauth_state => exact .stays _ _
      | lobby_state acc chars => exact .close_lobby _ acc chars
      | ingame_state p acc => exact .close_game acc p
    | _ => cases hr
  | transition k rest c st w ps hs hc hst hd =>
    obtain ⟨ho, hrecv, hf⟩ := h.follows hs hc hst
    obtain ⟨cur, _, _, _, _⟩ := c
    cases hst
    cases ho
    cases hrecv
    refine next_task_moves h hs hc (by simp) ?_
    rw [started_world, started_tasks, hd.same_table]
    cases hf with
    | login acc => exact .stays _ (.expecting acc)
    | enter acc chars p => exact .enter acc p
    | leave p acc => exact .back acc p
  | finalize k rest c w ps hs hc hd =>
    obtain ⟨hout, _⟩ := h.only_task hs hc
    refine next_task_moves h hs hc (by simp) ?_
    rw [hd.same_table]
    cases hout with
    | closing st status =>
      cases st with
      | null_state | preauth_state => exact .stays _ .vacant
      | lobby_state acc chars => exact .finalize acc none
      | ingame_state p acc => exact .finalize acc (some p)
  | lobby_chars_loaded k rest chars c acc old hs hc hst =>
    obtain ⟨hout, _⟩ := h.only_task hs hc
    obtain ⟨_, _, acc', old', rfl⟩ := hout.of_loaded
    cases hst
    exact next_task_moves h hs hc (by simp [Progress.waiting]) (.arrive acc chars)
  | load k id rest c hs hc =>
    obtain ⟨ht, _, acc, old, rfl, rfl⟩ := h.only_load hs hc
    have hg : ∀ t ∈ [Task.lobby_chars_loaded k (s.world.db.get_lobby_chars acc.uid)], t.session = k := by
      simp [Task.session]
    refine ⟨k, .other, trivial, ?_, fun j hj => (seat_progress_ne hg hj).trans rfl⟩
    rw [seat_progress hg, show ({ s with database_strand := rest } : Server).tasks_of k = [] from ht, seat_of hc, ht]
    exact .fetch acc
  | periodic_broadcast c ns he => exact ⟨0, .other, trivial, .stays _ _, fun _ _ => rfl⟩
  | periodic_cleanup w he =>
    refine ⟨0, .other, trivial, ?_, fun _ _ => rfl⟩
    show Move 0 s.world.db _ _ (s.seat 0) (s.seat 0) w.db.table
    rw [he.same_table]
    exact .stays _ _

/-- What a request finds that is executed in the lobby. -/
theorem ServerOk.seat_lobby (h : ServerOk s) {k : SessionId} {c : MmoClient} {acc : AccountData}
    {chars : List LobbyCharacter} (hc : s.clients k = some c) (hr : c.receiving = true)
    (hst : c.current_state = .lobby_state acc chars) : s.seat k = .lobby acc chars := by
  obtain ⟨_, hseat, hout⟩ := h.seat_receiving hc hr
  rw [hseat]
  cases hout with
  | receive st status =>
    cases hst
    rfl
  | _ => cases hr

theorem lobby_of_seat {k : SessionId} {c : MmoClient} {acc : AccountData} {chars : List LobbyCharacter}
    (hc : s.clients k = some c) (hseat : s.seat k = .lobby acc chars) : c.current_state = .lobby_state acc chars := by
  rw [seat_of hc] at hseat
  unfold MmoClient.seat at hseat
  split at hseat
  case isTrue =>
    split at hseat
    case h_2 acc' chars' hst _ =>
      split at hseat
      case isTrue =>
        cases hseat
        exact hst
      case isFalse => split at hseat <;> cases hseat
    all_goals cases hseat
  case isFalse => split at hseat <;> cases hseat

theorem executes_of_asked {k : SessionId} {acc : AccountData} {chars : List LobbyCharacter} {hd : Handler}
    {request : LobbyRequest} (ha : s.Asked hd k (.request request)) (hseat : s.seat k = .lobby acc chars) :
    s.Executes hd k acc chars request := by
  obtain ⟨acc', chars', data, size, c, hd, hc, hst, hr⟩ := ha
  exact ⟨data, size, c, hd, hc, lobby_of_seat hc hseat, hr⟩

end handlers

/-! ## Runs -/

/-- The server on any database of its schema as it leaves one: with nicknames it
accepts, and the smaller id first in each row of friends. -/
def schemaMachine : Machine Server ServerEvent where
  init s := ∃ db : Database, s = .fresh db ∧ (∀ r ∈ db.characters, valid_nickname r.nickname) ∧ db.FirstSmaller ∧
    db.table.Keyed
  step := serverMachine.step

section runs

variable {s s' : Server} {ev : ServerEvent}

theorem schema_init_server (h : schemaMachine.init s) : serverMachine.init s := by
  obtain ⟨db, rfl, hnames, _⟩ := h
  exact ⟨db, rfl, hnames⟩

theorem schema_run {tr : List (Taken Server ServerEvent)} (h : schemaMachine.Run s tr s') : serverMachine.Run s tr s' :=
  h.of_steps fun _ _ hs => hs

theorem schema_is_server (h : schemaMachine.Reachable s) : serverMachine.Reachable s :=
  h.of_steps (fun _ => schema_init_server) fun _ _ _ hs => hs

theorem schema_server_ok (h : schemaMachine.Reachable s) : ServerOk s := reachable_server_ok (schema_is_server h)

theorem schema_first_smaller (h : schemaMachine.Reachable s) : s.world.db.FirstSmaller := by
  refine Machine.Reachable.keeps_over (M := schemaMachine) (J := fun s => s.world.db.FirstSmaller)
    (fun _ => schema_server_ok) (fun _ h0 => ?_) (fun _ _ _ hok hfirst hs => first_smaller_step hok hs hfirst) h
  obtain ⟨db, rfl, _, hfirst, _⟩ := h0
  exact hfirst

theorem schema_run_ok {tr : List (Taken Server ServerEvent)} (h0 : schemaMachine.init s)
    (h : schemaMachine.Run s tr s') : ServerOk s' := schema_server_ok ⟨s, tr, h0, h⟩

/-- A step moves one seat, or no seat and no row. -/
theorem schema_step (h : ServerOk s) (hs : schemaMachine.step s ev s') :
    (∃ hd o, ev = .handler hd ∧ (hd.Admitted s o ∧ hd.run (s.begin o) = .ok () s') ∧
        s.Moves o.are_loginkey_and_username_valid hd s') ∨
      (∀ k, s'.seat k = s.seat k) ∧ s.world.db.table.rows.Perm s'.world.db.table.rows ∧
        s'.world.db.table.next_id = s.world.db.table.next_id := by
  cases ev with
  | handler hd =>
    obtain ⟨o, ha, hr⟩ := hs
    obtain ⟨hb, he⟩ := handler_effect h ha hr
    exact .inl ⟨hd, o, rfl, ⟨ha, hr⟩, he.moves hb ha.new_entity⟩
  | reorder =>
    obtain ⟨w, hr, _, rfl⟩ := hs
    exact .inr ⟨fun _ => rfl, hr.characters, hr.next_character_id⟩

/-- What a move keeps of every seat, it keeps of the server. -/
theorem Server.Moves.keeps {I : Seat → CharacterTable → Prop} {valid : Bytes → Bytes → Bool} {hd : Handler}
    (hm : s.Moves valid hd s')
    (hown : ∀ k occasion st t, s.Asked hd k occasion → Move k s.world.db valid occasion (s.seat k) st t → I st t)
    (hother : ∀ k occasion st t j, s.Asked hd k occasion → Move k s.world.db valid occasion (s.seat k) st t →
      j ≠ k → I (s.seat j) t) (k : SessionId) : I (s'.seat k) s'.world.db.table := by
  obtain ⟨k', occasion, ha, hmove, hsame⟩ := hm
  by_cases hk : k = k'
  · subst hk
    exact hown k occasion _ _ ha hmove
  · rw [hsame k hk]
    exact hother k' occasion _ _ k ha hmove hk

/-- The table stays as the schema has it. -/
theorem Move.keyed {k : SessionId} {db : Database} {valid : Bytes → Bytes → Bool} {occasion : Occasion} {st st' : Seat}
    {t : CharacterTable} (hm : Move k db valid occasion st st' t) (h : db.table.Keyed) : t.Keyed := by
  cases hm with
  | create acc chars name h1 h2 h3 => exact h.insert (h.free h3) acc.uid
  | delete acc chars name ch hf => exact h.remove name
  | _ => exact h

theorem keyed_step (hok : ServerOk s) (h : s.world.db.table.Keyed) (hs : schemaMachine.step s ev s') :
    s'.world.db.table.Keyed := by
  rcases schema_step hok hs with ⟨hd, o, _, _, k, occasion, _, hm, _⟩ | ⟨_, hp, hn⟩
  · exact hm.keyed h
  · exact h.perm hp hn

theorem schema_keyed (h : schemaMachine.Reachable s) : s.world.db.table.Keyed := by
  refine Machine.Reachable.keeps_over (M := schemaMachine) (J := fun s => s.world.db.table.Keyed)
    (fun _ => schema_server_ok) (fun _ h0 => ?_) (fun _ _ _ hok hk hs => keyed_step hok hk hs) h
  obtain ⟨db, rfl, _, _, hk⟩ := h0
  exact hk

end runs

/-! ## Who is logged in -/

def ClientState.account : ClientState → Option AccountData
  | .lobby_state acc _ | .ingame_state _ acc => some acc
  | _ => none

/-- The session is, or is about to be, in a state of this account. -/
def MmoClient.LoggedIn (c : MmoClient) (acc : AccountData) : Prop :=
  c.current_state.account = some acc ∨ ∃ st, c.state_awaiting_transition = some st ∧ st.account = some acc

/-- Each account has at most one session that is not yet finalised. -/
def Server.OneSessionEach (s : Server) : Prop :=
  ∀ j k cj ck a b, s.clients j = some cj → s.clients k = some ck → cj.LoggedIn a → ck.LoggedIn b → a.uid = b.uid → j = k

/-- Nobody else is logged in with the account of a seat. -/
def Seat.Apart (st other : Seat) : Prop :=
  ∀ a b, st.account = some a → other.account = some b → a.uid ≠ b.uid

section accounts

variable {s : Server} {k : SessionId} {c : MmoClient} {acc : AccountData}

theorem logged_in_single {st : ClientState} {status : AsyncOperationStatus} {is_open receiving : Bool} :
    MmoClient.LoggedIn ⟨st, none, status, is_open, receiving⟩ acc ↔ st.account = some acc := by
  simp [MmoClient.LoggedIn]

/-- The account of a seat is that of the session's states. -/
theorem Outstanding.logged_in_iff {ts : List Task} {ls : List (SessionId × Nat)} (h : Outstanding k c ts ls) :
    (c.seat ts).account = some acc ↔ c.LoggedIn acc := by
  cases h with
  | receive st status => rw [logged_in_single]; cases st <;> rfl
  | transition st new_state hf =>
    cases hf with
    | login acc' => simp [MmoClient.LoggedIn, ClientState.account, MmoClient.seat, Seat.account]
    | enter acc' chars p | leave p acc' =>
      simp [MmoClient.LoggedIn, ClientState.account, MmoClient.seat, Seat.account]
  | load acc' chars | loaded acc' chars new_chars => rw [logged_in_single]; rfl
  | closing st status => rw [logged_in_single]; cases st <;> rfl
  | closed status => rw [logged_in_single]; rfl

theorem ServerOk.logged_in_iff (h : ServerOk s) (hc : s.clients k = some c) :
    (s.seat k).account = some acc ↔ c.LoggedIn acc := by
  rw [seat_of hc]
  exact (h.outstanding k c hc).logged_in_iff

/-- The character of a seat is that of the session's states. -/
theorem Outstanding.holds_iff {ts : List Task} {ls : List (SessionId × Nat)} (h : Outstanding k c ts ls) {p : EntityPtr} :
    (c.seat ts).character = some p ↔ c.Holds p := by
  cases h with
  | receive st status => rw [holds_single]; cases st <;> simp [MmoClient.seat, Seat.character, ClientState.holds]
  | transition st new_state hf =>
    cases hf <;> simp [MmoClient.Holds, ClientState.holds, MmoClient.seat, Seat.character]
  | load acc' chars | loaded acc' chars new_chars =>
    rw [holds_single]
    simp [MmoClient.seat, Seat.character, ClientState.holds]
  | closing st status => rw [holds_single]; cases st <;> simp [MmoClient.seat, Seat.character, ClientState.holds]
  | closed status => rw [holds_single]; simp [MmoClient.seat, Seat.character, ClientState.holds]

theorem ServerOk.holds_iff (h : ServerOk s) (hc : s.clients k = some c) {p : EntityPtr} :
    (s.seat k).character = some p ↔ c.Holds p := by
  rw [seat_of hc]
  exact (h.outstanding k c hc).holds_iff

/-- A session has one character in the game. -/
theorem ServerOk.same_session {p q : EntityPtr} (hok : ServerOk s) (hp : s.world.online p) (hq : s.world.online q)
    (h : q.my_session = p.my_session) : q = p := by
  obtain ⟨cp, hcp, hp⟩ := (hok.players p).1 hp
  obtain ⟨cq, hcq, hq⟩ := (hok.players q).1 hq
  have hp' := (hok.holds_iff hcp).2 hp
  have hq' := (hok.holds_iff hcq).2 hq
  rw [h, hp'] at hq'
  exact (Option.some.inj hq').symm

/-- Nobody has a character in the game without an account. -/
theorem Seat.account_of_character {st : Seat} {p : EntityPtr} (h : st.character = some p) :
    ∃ acc, st.account = some acc := by
  cases st <;> first | exact ⟨_, rfl⟩ | cases h

theorem client_of_seat (h : (s.seat k).account = some acc) : ∃ c, s.clients k = some c := by
  cases hc : s.clients k with
  | none => rw [Server.seat, hc] at h; cases h
  | some c => exact ⟨c, rfl⟩

theorem Server.OneSessionEach.apart (h : s.OneSessionEach) (hok : ServerOk s) {j : SessionId} (hjk : j ≠ k) :
    (s.seat k).Apart (s.seat j) := by
  intro a b ha hb he
  obtain ⟨ck, hck⟩ := client_of_seat ha
  obtain ⟨cj, hcj⟩ := client_of_seat hb
  exact hjk (h j k cj ck b a hcj hck ((hok.logged_in_iff hcj).1 hb) ((hok.logged_in_iff hck).1 ha) he.symm)

end accounts

end tejk_it_izi
