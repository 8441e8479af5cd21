import TejkItIzi.ChatSystem
import TejkItIzi.FriendSystem
import TejkItIzi.Lib.Runs
import TejkItIzi.Requests
/-!
# The server

The sessions around the world: `mmoclient` and its states `preauth_state`,
`lobby_state` and `ingame_state`, the requests, and the tasks on the two
strands. Everything runs on `sync_strand`, one handler at a time, except the
loads of character lists, which run on the strand of the database.
-/

namespace tejk_it_izi

open ProgLib

/-- The state of a session. The account is `acc_data_` of the state (or of its
environment), and `my_character` the representative the state owns. -/
inductive ClientState where
  | null_state
  | preauth_state
  | lobby_state (acc_data : AccountData) (lobby_chars : List LobbyCharacter)
  | ingame_state (my_character : EntityPtr) (acc_data : AccountData)
  deriving DecidableEq

/-- Nothing ever sets `awaiting_database_operation`. -/
inductive AsyncOperationStatus where
  | awaiting_packet_poll
  | awaiting_state_transition
  deriving DecidableEq

/-- `is_open` is false once `my_sock_` is a `null_socket`, `receiving` true while
an `async_recv` is pending on the real one. -/
structure MmoClient where
  current_state : ClientState
  state_awaiting_transition : Option ClientState
  async_state : AsyncOperationStatus
  is_open : Bool
  receiving : Bool
  deriving DecidableEq

/-- What is posted to `sync_strand`. -/
inductive Task where
  | transition (session : SessionId)
  | finalize (session : SessionId)
  | lobby_chars_loaded (session : SessionId) (chars : List LobbyCharacter)
  deriving DecidableEq

def Task.session : Task → SessionId
  | .transition k | .finalize k | .lobby_chars_loaded k _ => k

/-- A packet handed to `send_to_client`; it is written to the wire if the
session still has its socket. -/
structure Sent where
  session : SessionId
  packet : Packet
  on_wire : Bool
  deriving DecidableEq

/-- `tejk_it_izi` with everything it owns. `database_strand` holds the loads to
be made: the session and its account's id. -/
structure Server where
  world : World
  authenticator : Bytes → Bytes → Bool
  clients : SessionId → Option MmoClient
  sync_strand : List Task
  database_strand : List (SessionId × Nat)
  /-- What the current handler has sent, in order. -/
  sent : List Sent

abbrev ServerM := EStateM Fault Server

def Server.is_open (s : Server) (k : SessionId) : Bool :=
  match s.clients k with
  | some c => c.is_open
  | none => false

def Server.emit (s : Server) (ps : List (SessionId × Packet)) : Server :=
  { s with sent := s.sent ++ ps.map fun p => ⟨p.1, p.2, s.is_open p.1⟩ }

/-- The world after a call into it; its packets go to the sessions. -/
def Server.put_world (s : Server) (w : World) : Server := { s.emit w.mails with world := w.quiet }

/-- A call into the world. -/
def in_world {α : Type} (x : WorldM α) : ServerM α := fun s =>
  match x s.world with
  | .ok a w => .ok a (s.put_world w)
  | .error f w => .error f (s.put_world w)

/-- A call of the deserializer. -/
def deserialize {α : Type} (x : Except StdException α) : ServerM α :=
  match x with
  | .ok a => pure a
  | .error e => throw (.exception e)

/-- `try { x } catch (..) { handler }` for the exceptions that are `caught`. -/
def try_catch (caught : StdException → Bool) (x handler : ServerM Unit) : ServerM Unit :=
  tryCatch x fun f => match f with
    | .exception e => if caught e then handler else throw f
    | _ => throw f

/-- What runs in a destructor. -/
def destructor (x : ServerM Unit) : ServerM Unit :=
  tryCatch x fun f => match f with
    | .exception _ => throw .terminated
    | _ => throw f

/-- The rest of a constructor; if it throws, the part before it is destroyed. -/
def construct_or (destroy x : ServerM Unit) : ServerM Unit :=
  tryCatch x fun f => match f with
    | .exception e => do
      destructor destroy
      throw (.exception e)
    | _ => throw f

/-! ## `mmoclient` -/

def Server.put_client (s : Server) (k : SessionId) (c : MmoClient) : Server :=
  { s with clients := Function.update s.clients k (some c) }

/-- The session object; it lives as long as anything refers to it. -/
def client_at (k : SessionId) : ServerM MmoClient := do
  match (← get).clients k with
  | some c => pure c
  | none => throw .undefined_behaviour

def modify_client (k : SessionId) (f : MmoClient → MmoClient) : ServerM Unit := do
  let c ← client_at k
  modify fun s => s.put_client k (f c)

/-- `scheduler_.schedule_task(..)`. -/
def schedule_task (t : Task) : ServerM Unit :=
  modify fun s => { s with sync_strand := s.sync_strand ++ [t] }

namespace net_session

/-- A `null_socket` receives nothing; a socket must not be read twice at once. -/
def do_recv (k : SessionId) : ServerM Unit := do
  let c ← client_at k
  if c.is_open then
    if c.receiving then throw .undefined_behaviour
    modify_client k fun c => { c with receiving := true }

def send_to_client (k : SessionId) (p : Packet) : ServerM Unit := modify fun s => s.emit [(k, p)]

end net_session

open net_session

/-- `~ingame_state`: its own body, then its members, last first. The other
states have nothing to do. -/
def ClientState.destroy (k : SessionId) : ClientState → ServerM Unit
  -- The body; then `friends_controller_`, `chat_controller_` and `fin_`.
  | .ingame_state my_character _ => destructor do
    in_world do
      world_registrar.unregister_me my_character
      friend_system.unregister_me my_character
    in_world (chat_system.unregister_me my_character)
    send_to_client k .moved_to_lobby
  | _ => pure ()

def ClientState.start (k : SessionId) : ClientState → ServerM Unit
  | .null_state => pure ()
  | .preauth_state | .ingame_state _ _ => do_recv k
  | .lobby_state acc_data _ => modify fun s => { s with database_strand := s.database_strand ++ [(k, acc_data.uid)] }

namespace mmoclient

def force_close (k : SessionId) : ServerM Unit := do
  modify_client k fun c => { c with is_open := false, receiving := false }
  schedule_task (.finalize k)

def schedule_transition (k : SessionId) (new_state : ClientState) : ServerM Unit := do
  modify_client k fun c => { c with async_state := .awaiting_state_transition }
  match (← client_at k).state_awaiting_transition with
  | some old_state => old_state.destroy k
  | none => pure ()
  modify_client k fun c => { c with state_awaiting_transition := some new_state }
  schedule_task (.transition k)

end mmoclient

open mmoclient

/-! ## `preauth_state` -/

/-- `catch (const std::underflow_error&)`. -/
def underflow_error (e : StdException) : Bool := e == .underflow_error

/-- `catch (const std::exception&)`. -/
def any_exception (_ : StdException) : Bool := true

open preauth_state_protocol in
def preauth_state.handle_network_packet (k : SessionId) (data : Buffer) (len : Nat) : ServerM Unit := do
  -- The opcode is read outside the try block.
  let (opcode, bd) ← deserialize (data.reader len).read_opcode
  if opcode = loginserver_keys then
    try_catch underflow_error
      (do
        let (loginserver_key, bd) ← deserialize bd.read_string
        let (account_login, _) ← deserialize bd.read_string
        if loginserver_key.length ≠ 64 then throw (.exception .underflow_error)
        if (← get).authenticator loginserver_key account_login then
          send_to_client k .good_boy_good_keys
          let acc_data ← in_world (psql_facade.get_account_data account_login)
          schedule_transition k (.lobby_state acc_data [])
        else
          send_to_client k .fuck_you_bad_keys
          force_close k)
      (force_close k)
  else
    send_to_client k .fuck_you_bad_keys
    force_close k

/-! ## `lobby_state` -/

/-- What the constructor of `ingame_state` does: `fin_`, the two controllers in
`my_environment_`, and the registry, whose `register_me` does not throw. -/
def ingame_state.build (k : SessionId) (my_character : EntityPtr) : ServerM Unit :=
  construct_or (send_to_client k .moved_to_lobby) do
    in_world (chat_system.register_me my_character)
    construct_or (in_world (chat_system.unregister_me my_character)) do
      in_world do
        friend_system.register_me my_character
        world_registrar.register_me my_character

/-- The representative of a new `ingame_state`. -/
def World.newcomer (w : World) (k : SessionId) (selected_char : LobbyCharacter) : EntityPtr :=
  ⟨w.env.new_entity, selected_char.uid, selected_char.name, k⟩

def ingame_state.construct (k : SessionId) (selected_char : LobbyCharacter) (acc_data : AccountData) :
    ServerM ClientState := do
  let my_character := (← get).world.newcomer k selected_char
  ingame_state.build k my_character
  return .ingame_state my_character acc_data

/-- `isalnum` in the C locale. -/
def isalnum (c : UInt8) : Bool := (48 ≤ c && c ≤ 57) || (65 ≤ c && c ≤ 90) || (97 ≤ c && c ≤ 122)

/-- `lobby_chars_` of the current state. -/
def set_lobby_chars (k : SessionId) (acc_data : AccountData) (chars : List LobbyCharacter) : ServerM Unit :=
  modify_client k fun c => { c with current_state := .lobby_state acc_data chars }

def request_character_select.execute_associated_action (k : SessionId) (acc_data : AccountData)
    (lobby_chars : List LobbyCharacter) (char_name : Bytes) : ServerM Unit := do
  match lobby_chars.find? (·.name = char_name) with
  | none => force_close k
  | some character =>
    send_to_client k (.character_selected character)
    let new_state ← ingame_state.construct k character acc_data
    schedule_transition k new_state

def request_character_create.execute_associated_action (k : SessionId) (acc_data : AccountData)
    (lobby_chars : List LobbyCharacter) (char_name : Bytes) : ServerM Unit := do
  if lobby_chars.length ≥ 5 then
    send_to_client k (.character_creation_fail .character_limit_exceeded)
  else if char_name.length > 20 ∨ char_name = [] then
    send_to_client k (.character_creation_fail .name_too_long)
  else if char_name.any fun c => !isalnum c then
    send_to_client k (.character_creation_fail .name_contains_incorrect_digits)
  else if ← in_world (psql_facade.is_nickname_already_taken char_name) then
    send_to_client k (.character_creation_fail .name_already_used)
  else
    let character ← in_world (psql_facade.create_character char_name acc_data.uid)
    set_lobby_chars k acc_data (lobby_chars ++ [character])
    send_to_client k (.character_created character)

def request_character_delete.execute_associated_action (k : SessionId) (acc_data : AccountData)
    (lobby_chars : List LobbyCharacter) (char_name : Bytes) : ServerM Unit := do
  match lobby_chars.find? (·.name = char_name) with
  | none => force_close k
  | some character =>
    in_world (psql_facade.erase_character character)
    let lobby_chars := lobby_chars.eraseP (·.name = char_name)
    set_lobby_chars k acc_data lobby_chars
    send_to_client k (.character_list lobby_chars)

def LobbyRequest.execute_associated_action (k : SessionId) (acc_data : AccountData)
    (lobby_chars : List LobbyCharacter) : LobbyRequest → ServerM Unit
  | .request_character_select char_name =>
    request_character_select.execute_associated_action k acc_data lobby_chars char_name
  | .request_character_create char_name =>
    request_character_create.execute_associated_action k acc_data lobby_chars char_name
  | .request_character_delete char_name =>
    request_character_delete.execute_associated_action k acc_data lobby_chars char_name
  | .request_lobby_log_off => force_close k
  | .null_received_packet => pure ()

/-- A request is constructed and executed; unless it has changed the state of
the session, the next packet is waited for. -/
def handle_request {ρ : Type} (k : SessionId) (request : Except StdException ρ) (execute : ρ → ServerM Unit) :
    ServerM Unit :=
  try_catch any_exception
    (do
      let ptr ← deserialize request
      execute ptr
      if (← client_at k).async_state = .awaiting_packet_poll then do_recv k)
    (force_close k)

def lobby_state.handle_network_packet (k : SessionId) (acc_data : AccountData) (lobby_chars : List LobbyCharacter)
    (data : Buffer) (len : Nat) : ServerM Unit :=
  handle_request k (lobby_state_recv_packet_factory.construct data len)
    (LobbyRequest.execute_associated_action k acc_data lobby_chars)

/-! ## `ingame_state` -/

def IngameRequest.execute_associated_action (k : SessionId) (my_character : EntityPtr) (acc_data : AccountData) :
    IngameRequest → ServerM Unit
  | .log_off_to_lobby => schedule_transition k (.lobby_state acc_data [])
  | .join_chat chatroom_name => in_world (chat_system.join_chatroom my_character chatroom_name)
  | .leave_chat chatroom_name => in_world (chat_system.leave_chatroom my_character chatroom_name)
  | .send_chat_msg chatroom_name message =>
    in_world (chat_system.broadcast_message my_character chatroom_name message)
  | .send_whisper recipient message => in_world (chat_system.whisper my_character recipient message)
  | .friend_add friend_name => in_world (friend_system.process_req_friend_add my_character friend_name)
  | .friend_remove friend_name => in_world (friend_system.process_req_friend_remove my_character friend_name)
  | .null_received_packet => pure ()

def ingame_state.handle_network_packet (k : SessionId) (my_character : EntityPtr) (acc_data : AccountData)
    (data : Buffer) (len : Nat) : ServerM Unit :=
  handle_request k (ingame_state_recv_packet_factory.construct data len)
    (IngameRequest.execute_associated_action k my_character acc_data)

/-! ## Handlers of the strand -/

def ClientState.handle_network_packet (k : SessionId) (data : Buffer) (len : Nat) : ClientState → ServerM Unit
  | .null_state => pure ()
  | .preauth_state => preauth_state.handle_network_packet k data len
  | .lobby_state acc_data lobby_chars => lobby_state.handle_network_packet k acc_data lobby_chars data len
  | .ingame_state my_character acc_data => ingame_state.handle_network_packet k my_character acc_data data len

namespace mmoclient

/-- The receive that was pending has ended with this packet. -/
def on_recv (k : SessionId) (data : Buffer) (size : Nat) : ServerM Unit := do
  modify_client k fun c => { c with receiving := false }
  (← client_at k).current_state.handle_network_packet k data size

/-- The receive that was pending has failed. -/
def on_error (k : SessionId) : ServerM Unit := do
  modify_client k fun c => { c with receiving := false }
  force_close k

/-- The lambda of `schedule_transition`. No database task is ever counted. -/
def transition (k : SessionId) : ServerM Unit := do
  let c ← client_at k
  c.current_state.destroy k
  match c.state_awaiting_transition with
  | none => throw .undefined_behaviour
  | some new_state =>
    modify_client k fun c =>
      { c with
        -- `current_state_ = std::move(state_awaiting_transition_)`.
        current_state := new_state
        state_awaiting_transition := none
        async_state := .awaiting_packet_poll }
    new_state.start k

/-- The lambda of `force_close`. -/
def finalize (k : SessionId) : ServerM Unit := do
  let c ← client_at k
  modify_client k fun c => { c with current_state := .null_state }
  c.current_state.destroy k

end mmoclient

/-- The callback of `lobby_state::start`; the state must still be there. -/
def lobby_state.on_chars (k : SessionId) (chars : List LobbyCharacter) : ServerM Unit := do
  match (← client_at k).current_state with
  | .lobby_state acc_data _ =>
    set_lobby_chars k acc_data chars
    send_to_client k (.character_list chars)
    do_recv k
  | _ => throw .undefined_behaviour

def Task.run : Task → ServerM Unit
  | .transition k => mmoclient.transition k
  | .finalize k => mmoclient.finalize k
  | .lobby_chars_loaded k chars => lobby_state.on_chars k chars

/-- `asynchronous_database_adapter::get_lobby_chars`, on the strand of the database. -/
def load_lobby_chars (k : SessionId) (account_id : Nat) : ServerM Unit := do
  let chars ← in_world (psql_facade.get_lobby_chars account_id)
  schedule_task (.lobby_chars_loaded k chars)

/-- `tejk_it_izi::on_accept`: a new session, not yet in use. `async_state_` is
not read before the first transition has set it. -/
def on_accept (k : SessionId) : ServerM Unit := do
  modify fun s => s.put_client k ⟨.preauth_state, none, .awaiting_packet_poll, true, false⟩
  ClientState.preauth_state.start k

/-! ## The server as a machine -/

/-- What runs on the strands. -/
inductive Handler where
  | on_accept (k : SessionId)
  | on_recv (k : SessionId) (data : Buffer) (size : Nat)
  | on_error (k : SessionId)
  /-- The first task posted to `sync_strand`. -/
  | next_task
  /-- The first load posted to the strand of the database. -/
  | next_load
  | periodic_broadcast
  | periodic_cleanup

def Handler.run : Handler → ServerM Unit
  | .on_accept k => tejk_it_izi.on_accept k
  | .on_recv k data size => mmoclient.on_recv k data size
  | .on_error k => mmoclient.on_error k
  | .next_task => do
    match (← get).sync_strand with
    | [] => pure ()
    | t :: rest =>
      modify fun s => { s with sync_strand := rest }
      t.run
  | .next_load => do
    match (← get).database_strand with
    | [] => pure ()
    | (k, account_id) :: rest =>
      modify fun s => { s with database_strand := rest }
      load_lobby_chars k account_id
  | .periodic_broadcast => in_world chat_system.periodic_broadcast
  | .periodic_cleanup => in_world friend_system.cleanup

/-- What a handler takes from outside. -/
structure Outside where
  env : Env
  are_loginkey_and_username_valid : Bytes → Bytes → Bool

/-- The server as a handler finds it. -/
def Server.begin (s : Server) (o : Outside) : Server :=
  { s with world := s.world.begin o.env, authenticator := o.are_loginkey_and_username_valid, sent := [] }

/-- The session waits for a packet. -/
def Server.receiving (s : Server) (k : SessionId) : Prop := ∃ c, s.clients k = some c ∧ c.receiving = true

/-- Sessions are new, packets come to sessions that wait for one and are as long
as the framing layer allows, and the allocator hands out free addresses. -/
structure Handler.Admitted (s : Server) (o : Outside) (h : Handler) : Prop where
  enabled : match h with
    -- `boost_socket` delivers at most `buffer_size` bytes, to a pending receive only.
    | .on_accept k => s.clients k = none
    | .on_recv k _ size => s.receiving k ∧ size ≤ buffer_size
    | .on_error k => s.receiving k
    | .next_task => s.sync_strand ≠ []
    | .next_load => s.database_strand ≠ []
    | .periodic_broadcast | .periodic_cleanup => True
  new_entity : ∀ p, (s.world.chat.entities p).isSome → p.address ≠ o.env.new_entity
  new_room : s.world.chat.rooms o.env.new_room = none

inductive ServerEvent where
  | handler (h : Handler)
  | reorder

/-- Nicknames are what `request_character_create` lets through. -/
def valid_nickname (name : Bytes) : Prop := name ≠ [] ∧ name.length ≤ 20 ∧ ∀ c ∈ name, isalnum c = true

instance (name : Bytes) : Decidable (valid_nickname name) := inferInstanceAs (Decidable (_ ∧ _ ∧ _))

/-- A server that has just been started on this database. -/
def Server.fresh (db : Database) : Server := ⟨.fresh db, fun _ _ => false, fun _ => none, [], [], []⟩

/-- Handlers that return, one after another; a server whose handler does not
return takes no further step. The nicknames in the database are ones it accepts. -/
def serverMachine : Machine Server ServerEvent where
  init s := ∃ db : Database, s = .fresh db ∧ ∀ r ∈ db.characters, valid_nickname r.nickname
  step s ev s' := match ev with
    | .handler h => ∃ o, h.Admitted s o ∧ h.run (s.begin o) = .ok () s'
    | .reorder => ∃ w, s.world.Reorders w ∧ w.notices = [] ∧ s' = { s with world := w, sent := [] }

end tejk_it_izi
