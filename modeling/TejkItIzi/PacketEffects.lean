import TejkItIzi.ServerEffects
/-!
# What a packet does

One relation for each state: the ways `handle_network_packet` can go when it
returns, with all it does. The theorems about sessions split on these cases.
-/

namespace tejk_it_izi

open ProgLib

/-! ## Requests -/

section handle_request

variable {ρ : Type} {s : Server} {k : SessionId} {g g' : Progress} {request : Except StdException ρ} {r : ρ}
  {execute : ρ → ServerM Unit}

theorem handle_request_malformed {e : StdException} (h : request = .error e) :
    handle_request k request execute (s.progress k g) = .ok () (s.progress k (g.closing k)) := by
  unfold handle_request
  rw [try_catch_caught (bind_error (deserialize_error h _) _) rfl]
  exact force_close_run

theorem handle_request_throws {e : StdException} (hr : request = .ok r)
    (hx : execute r (s.progress k g) = .error (.exception e) (s.progress k g')) :
    handle_request k request execute (s.progress k g) = .ok () (s.progress k (g'.closing k)) := by
  unfold handle_request
  rw [try_catch_caught ((bind_ok (deserialize_ok hr _) _).trans (bind_error hx _)) rfl]
  exact force_close_run

theorem handle_request_dies {f : Fault} {t : Server} (hr : request = .ok r) (hx : execute r (s.progress k g) = .error f t)
    (hf : ∀ e, f ≠ .exception e) : handle_request k request execute (s.progress k g) = .error f t := by
  unfold handle_request
  exact try_catch_passes ((bind_ok (deserialize_ok hr _) _).trans (bind_error hx _)) (fun e h => absurd h (hf e)) _

/-- The request has left the session as it was. -/
theorem handle_request_waits (hr : request = .ok r) (hx : execute r (s.progress k g) = .ok () (s.progress k g'))
    (hasync : g'.client.async_state = .awaiting_packet_poll) (hopen : g'.client.is_open = true)
    (hrecv : g'.client.receiving = false) :
    handle_request k request execute (s.progress k g) = .ok () (s.progress k g'.waiting) := by
  unfold handle_request
  refine try_catch_ok ?_ _
  rw [bind_ok (deserialize_ok hr _), bind_ok hx, bind_ok client_at_run]
  simp only [hasync, if_true]
  exact do_recv_open hopen hrecv

/-- The request has closed the session or given it another state. -/
theorem handle_request_stops (hr : request = .ok r) (hx : execute r (s.progress k g) = .ok () (s.progress k g'))
    (hstop : g'.client.async_state = .awaiting_state_transition ∨ g'.client.is_open = false) :
    handle_request k request execute (s.progress k g) = .ok () (s.progress k g') := by
  unfold handle_request
  refine try_catch_ok ?_ _
  rw [bind_ok (deserialize_ok hr _), bind_ok hx, bind_ok client_at_run]
  split
  case isTrue hasync =>
    rcases hstop with h | h
    · rw [h] at hasync; cases hasync
    · exact do_recv_closed h
  case isFalse => rfl

end handle_request

/-! ## In the lobby -/

/-- The ways a lobby request can go. `c` is the session, `w` the world at the
start of the handler. -/
inductive LobbyEffect (k : SessionId) (c : MmoClient) (w : World) (acc : AccountData) (chars : List LobbyCharacter) :
    LobbyRequest → Progress → Prop
  | ignored : LobbyEffect k c w acc chars .null_received_packet (Progress.start c w).waiting
  | log_off : LobbyEffect k c w acc chars .request_lobby_log_off ((Progress.start c w).closing k)
  -- Select: a listed character that is free; his friends' load may fail.
  | select_absent (name) : chars.find? (·.name = name) = none →
    LobbyEffect k c w acc chars (.request_character_select name) ((Progress.start c w).closing k)
  | select_fails (name ch e) : chars.find? (·.name = name) = some ch →
    w.registry.id_to_character ch.uid = none → w.db_answer = some e →
    LobbyEffect k c w acc chars (.request_character_select name)
      ((⟨c, w.executed (.friends_of ch.uid), [(k, .character_selected ch), (k, .moved_to_lobby)], [], []⟩ :
        Progress).closing k)
  | select (name ch w') : chars.find? (·.name = name) = some ch → w.free (w.newcomer k ch) →
    FriendEffect (w.in_chat (w.newcomer k ch)) (.register_me (w.newcomer k ch)) none w' →
    LobbyEffect k c w acc chars (.request_character_select name)
      ((⟨c, w'.quiet, (k, .character_selected ch) :: w'.mails, [], []⟩ : Progress).changing k
        (.ingame_state (w.newcomer k ch) acc))
  -- Create: refused, taken, or new; either statement may fail.
  | create_refused (name reason) : (chars.length ≥ 5 ∨ ¬ valid_nickname name) →
    LobbyEffect k c w acc chars (.request_character_create name)
      (⟨c, w, [(k, .character_creation_fail reason)], [], []⟩ : Progress).waiting
  | create_taken (name) : chars.length < 5 → valid_nickname name → w.db.char_name_to_uid name ≠ 0 →
    LobbyEffect k c w acc chars (.request_character_create name)
      (⟨c, w.executed (.char_name_to_uid name), [(k, .character_creation_fail .name_already_used)], [], []⟩ :
        Progress).waiting
  | create_lookup_fails (name) : chars.length < 5 → valid_nickname name →
    LobbyEffect k c w acc chars (.request_character_create name)
      ((⟨c, w.executed (.char_name_to_uid name), [], [], []⟩ : Progress).closing k)
  | create_fails (name) : chars.length < 5 → valid_nickname name → w.db.char_name_to_uid name = 0 →
    LobbyEffect k c w acc chars (.request_character_create name)
      ((⟨c, (w.executed (.char_name_to_uid name)).executed (.create_character acc.uid name), [], [], []⟩ :
        Progress).closing k)
  | create (name) : chars.length < 5 → valid_nickname name → w.db.char_name_to_uid name = 0 →
    LobbyEffect k c w acc chars (.request_character_create name)
      (⟨{ c with current_state := .lobby_state acc (chars ++ [⟨w.db.next_character_id, name⟩]) },
        { (w.executed (.char_name_to_uid name)).executed (.create_character acc.uid name) with
          db := w.db.create_character name acc.uid },
        [(k, .character_created ⟨w.db.next_character_id, name⟩)], [], []⟩ : Progress).waiting
  -- Delete: a listed character, by the name on the list.
  | delete_absent (name) : chars.find? (·.name = name) = none →
    LobbyEffect k c w acc chars (.request_character_delete name) ((Progress.start c w).closing k)
  | delete_fails (name ch) : chars.find? (·.name = name) = some ch →
    LobbyEffect k c w acc chars (.request_character_delete name)
      ((⟨c, w.executed (.erase_character ch.name), [], [], []⟩ : Progress).closing k)
  | delete (name ch) : chars.find? (·.name = name) = some ch →
    LobbyEffect k c w acc chars (.request_character_delete name)
      (⟨{ c with current_state := .lobby_state acc (chars.eraseP (·.name = name)) },
        { w.executed (.erase_character ch.name) with db := w.db.erase_character ch.name },
        [(k, .character_list (chars.eraseP (·.name = name)))], [], []⟩ : Progress).waiting

/-- Why a session can be handed a packet: it has its socket, and nothing else is
outstanding. -/
structure MmoClient.Ready (c : MmoClient) : Prop where
  is_open : c.is_open = true
  not_receiving : c.receiving = false
  no_transition : c.state_awaiting_transition = none
  async_state : c.current_state ≠ .preauth_state → c.async_state = .awaiting_packet_poll

section lobby

variable {s : Server} {k : SessionId} {c : MmoClient} {w : World} {acc : AccountData} {chars : List LobbyCharacter}
  {data : Buffer} {len : Nat} {name : Bytes}

theorem lookup_run (h : w.db_answer = none) (name : Bytes) :
    psql_facade.is_nickname_already_taken name w =
      .ok (w.db.char_name_to_uid name != 0) (w.executed (.char_name_to_uid name)) := by
  have h1 : psql_facade.char_name_to_uid name w = .ok (w.db.char_name_to_uid name) (w.executed (.char_name_to_uid name)) :=
    bind_ok (psql_facade.exec_ok h _) _
  exact bind_ok h1 _

theorem lookup_fails {e : StdException} (h : w.db_answer = some e) (name : Bytes) :
    psql_facade.is_nickname_already_taken name w = .error (.exception e) (w.executed (.char_name_to_uid name)) :=
  bind_error (bind_error (psql_facade.exec_fails h _) _) _

theorem valid_nickname_iff : valid_nickname name ↔
    ¬ (name.length > 20 ∨ name = []) ∧ ¬ (name.any fun c => !isalnum c) = true := by
  simp only [valid_nickname, not_or, Nat.not_lt, List.any_eq_true, Bool.not_eq_true', not_exists, not_and,
    Bool.not_eq_false]
  tauto

theorem create_character_run (h : w.db_answer = none) (name : Bytes) (owner : Nat) :
    psql_facade.create_character name owner w = .ok ⟨w.db.next_character_id, name⟩
      { w.executed (.create_character owner name) with db := w.db.create_character name owner } :=
  bind_ok (psql_facade.exec_ok h _) _

variable (k acc) in
/-- A name that is refused before the database is asked. -/
theorem create_refuses (hw : chars.length ≥ 5 ∨ ¬ valid_nickname name) (t : Server) :
    ∃ reason, request_character_create.execute_associated_action k acc chars name t =
      net_session.send_to_client k (.character_creation_fail reason) t := by
  unfold request_character_create.execute_associated_action
  by_cases hfull : chars.length ≥ 5
  · exact ⟨_, by rw [if_pos hfull]⟩
  by_cases hlong : name.length > 20 ∨ name = []
  · exact ⟨_, by rw [if_neg hfull, if_pos hlong]⟩
  have hbad : (name.any fun c => !isalnum c) = true := by
    rcases hw with h | h
    · exact absurd h hfull
    · rw [valid_nickname_iff, not_and, not_not] at h
      exact h hlong
  exact ⟨_, by rw [if_neg hfull, if_neg hlong, if_pos hbad]⟩

variable (k acc) in
/-- A name that can be had if the database says so. -/
theorem create_asks (hfull : chars.length < 5) (hname : valid_nickname name) (t : Server) :
    request_character_create.execute_associated_action k acc chars name t =
      (do
        if ← in_world (psql_facade.is_nickname_already_taken name) then
          net_session.send_to_client k (.character_creation_fail .name_already_used)
        else
          let character ← in_world (psql_facade.create_character name acc.uid)
          set_lobby_chars k acc (chars ++ [character])
          net_session.send_to_client k (.character_created character) : ServerM Unit) t := by
  obtain ⟨hlong, hbad⟩ := valid_nickname_iff.1 hname
  unfold request_character_create.execute_associated_action
  rw [if_neg (Nat.not_le.2 hfull), if_neg hlong, if_neg hbad]

/-- Creating a character, whatever the database answers. -/
theorem create_run (hc : c.is_open = s.is_open k) (hopen : c.is_open = true) (hrecv : c.receiving = false)
    (hq : w.notices = []) (hasync : c.async_state = .awaiting_packet_poll)
    (hr : lobby_state_recv_packet_factory.construct data len = .ok (.request_character_create name)) :
    ∃ g, LobbyEffect k c w acc chars (.request_character_create name) g ∧
      lobby_state.handle_network_packet k acc chars data len (s.progress k (.start c w)) = .ok () (s.progress k g) := by
  by_cases hw : chars.length ≥ 5 ∨ ¬ valid_nickname name
  · obtain ⟨reason, hx⟩ := create_refuses k acc hw (s.progress k (.start c w))
    exact ⟨_, .create_refused name reason hw,
      handle_request_waits hr (hx.trans (send_to_client_run hc _)) hasync hopen hrecv⟩
  obtain ⟨hfull, hname⟩ := not_or.1 hw
  rw [not_not] at hname
  rw [ge_iff_le, Nat.not_le] at hfull
  have hx := create_asks k acc hfull hname (s.progress k (.start c w))
  have hq' : (w.executed (.char_name_to_uid name)).notices = [] := hq
  cases ha : w.db_answer with
  | some e =>
    have hl := in_world_error (g := .start c w) hc (lookup_fails ha name)
    rw [Progress.called_silent hq'] at hl
    exact ⟨_, .create_lookup_fails name hfull hname, handle_request_throws hr (hx.trans (bind_error hl _))⟩
  | none =>
    have hl := in_world_run (g := .start c w) hc (lookup_run ha name)
    rw [Progress.called_silent hq'] at hl
    by_cases htaken : w.db.char_name_to_uid name = 0
    · have hfree : (w.db.char_name_to_uid name != 0) = false := by simp [htaken]
      rw [hfree] at hl
      rw [bind_ok hl] at hx
      cases ha' : (w.executed (.char_name_to_uid name)).db_answer with
      | some e =>
        have hcreate : psql_facade.create_character name acc.uid (w.executed (.char_name_to_uid name)) = .error _ _ :=
          bind_error (psql_facade.exec_fails ha' _) _
        have h2 := in_world_error (g := ⟨c, w.executed (.char_name_to_uid name), [], [], []⟩) hc hcreate
        rw [Progress.called_silent (by exact hq)] at h2
        exact ⟨_, .create_fails name hfull hname htaken, handle_request_throws hr (hx.trans (bind_error h2 _))⟩
      | none =>
        have h2 := in_world_run (g := ⟨c, w.executed (.char_name_to_uid name), [], [], []⟩) hc
          (create_character_run ha' name acc.uid)
        rw [Progress.called_silent (by exact hq)] at h2
        refine ⟨_, .create name hfull hname htaken, handle_request_waits hr (hx.trans ?_) hasync hopen hrecv⟩
        have h3 := send_to_client_run (s := s) (k := k)
          (g := ⟨{ c with current_state := .lobby_state acc (chars ++ [⟨w.db.next_character_id, name⟩]) },
            { (w.executed (.char_name_to_uid name)).executed (.create_character acc.uid name) with
              db := w.db.create_character name acc.uid }, [], [], []⟩) hc
          (.character_created ⟨w.db.next_character_id, name⟩)
        exact (bind_ok h2 _).trans ((bind_ok (modify_client_run _) _).trans h3)
    · have hfree : (w.db.char_name_to_uid name != 0) = true := by simp [htaken]
      rw [hfree] at hl
      rw [bind_ok hl] at hx
      exact ⟨_, .create_taken name hfull hname htaken,
        handle_request_waits hr (hx.trans (send_to_client_run (g := ⟨_, _, [], [], []⟩) hc _)) hasync hopen hrecv⟩

section delete

variable {ch : LobbyCharacter}

theorem delete_action (hfind : chars.find? (·.name = name) = some ch) :
    LobbyRequest.execute_associated_action k acc chars (.request_character_delete name) =
      (do
        in_world (psql_facade.erase_character ch)
        set_lobby_chars k acc (chars.eraseP (·.name = name))
        net_session.send_to_client k (.character_list (chars.eraseP (·.name = name))) : ServerM Unit) := by
  simp only [LobbyRequest.execute_associated_action, request_character_delete.execute_associated_action, hfind]

/-- The statement throws, and the session is closed. -/
theorem delete_throws (hc : c.is_open = s.is_open k) (hq : w.notices = [])
    (hr : lobby_state_recv_packet_factory.construct data len = .ok (.request_character_delete name))
    (hfind : chars.find? (·.name = name) = some ch) {e : StdException} (ha : w.db_answer = some e) :
    lobby_state.handle_network_packet k acc chars data len (s.progress k (.start c w)) =
      .ok () (s.progress k ((⟨c, w.executed (.erase_character ch.name), [], [], []⟩ : Progress).closing k)) := by
  have herase : psql_facade.erase_character ch w = .error (.exception e) (w.executed (.erase_character ch.name)) :=
    bind_error (psql_facade.exec_fails ha _) _
  have h1 := in_world_error (g := .start c w) hc herase
  rw [Progress.called_silent (by exact hq)] at h1
  exact handle_request_throws hr (delete_action hfind ▸ bind_error h1 _)

/-- The character is erased, and the new list is sent. -/
theorem delete_returns (hc : c.is_open = s.is_open k) (hopen : c.is_open = true) (hrecv : c.receiving = false)
    (hq : w.notices = []) (hasync : c.async_state = .awaiting_packet_poll)
    (hr : lobby_state_recv_packet_factory.construct data len = .ok (.request_character_delete name))
    (hfind : chars.find? (·.name = name) = some ch) (ha : w.db_answer = none) :
    lobby_state.handle_network_packet k acc chars data len (s.progress k (.start c w)) =
      .ok () (s.progress k (⟨{ c with current_state := .lobby_state acc (chars.eraseP (·.name = name)) },
        { w.executed (.erase_character ch.name) with db := w.db.erase_character ch.name },
        [(k, .character_list (chars.eraseP (·.name = name)))], [], []⟩ : Progress).waiting) := by
  have herase : psql_facade.erase_character ch w =
      .ok () { w.executed (.erase_character ch.name) with db := w.db.erase_character ch.name } :=
    bind_ok (psql_facade.exec_ok ha _) _
  have h1 := in_world_run (g := .start c w) hc herase
  rw [Progress.called_silent (by exact hq)] at h1
  have h2 := send_to_client_run (s := s) (k := k)
    (g := ⟨{ c with current_state := .lobby_state acc (chars.eraseP (·.name = name)) },
      { w.executed (.erase_character ch.name) with db := w.db.erase_character ch.name }, [], [], []⟩) hc
    (.character_list (chars.eraseP (·.name = name)))
  exact handle_request_waits hr
    (delete_action hfind ▸ (bind_ok h1 _).trans ((bind_ok (modify_client_run _) _).trans h2)) hasync hopen hrecv

end delete

/-- Deleting a character, whatever the database answers. -/
theorem delete_run (hc : c.is_open = s.is_open k) (hopen : c.is_open = true) (hrecv : c.receiving = false)
    (hq : w.notices = []) (hasync : c.async_state = .awaiting_packet_poll)
    (hr : lobby_state_recv_packet_factory.construct data len = .ok (.request_character_delete name)) :
    ∃ g, LobbyEffect k c w acc chars (.request_character_delete name) g ∧
      lobby_state.handle_network_packet k acc chars data len (s.progress k (.start c w)) = .ok () (s.progress k g) := by
  cases hfind : chars.find? (·.name = name) with
  | none =>
    refine ⟨_, .delete_absent name hfind, handle_request_stops hr ?_ (.inr rfl)⟩
    simp only [LobbyRequest.execute_associated_action, request_character_delete.execute_associated_action, hfind]
    exact force_close_run
  | some ch =>
    cases ha : w.db_answer with
    | some e => exact ⟨_, .delete_fails name ch hfind, delete_throws hc hq hr hfind ha⟩
    | none => exact ⟨_, .delete name ch hfind, delete_returns hc hopen hrecv hq hasync hr hfind ha⟩

/-- The request selects a listed character that clashes with one in the game. -/
def SelectsClashing (k : SessionId) (w : World) (chars : List LobbyCharacter) (request : LobbyRequest) : Prop :=
  ∃ name ch, request = .request_character_select name ∧ chars.find? (·.name = name) = some ch ∧
    w.clashes (w.newcomer k ch)

variable (k w acc) in
theorem select_action {ch : LobbyCharacter} (hc : c.is_open = s.is_open k) (hfind : chars.find? (·.name = name) = some ch) :
    LobbyRequest.execute_associated_action k acc chars (.request_character_select name) (s.progress k (.start c w)) =
      (do
        let new_state ← ingame_state.construct k ch acc
        mmoclient.schedule_transition k new_state : ServerM Unit)
        (s.progress k ⟨c, w, [(k, .character_selected ch)], [], []⟩) := by
  simp only [LobbyRequest.execute_associated_action, request_character_select.execute_associated_action, hfind]
  exact bind_ok (send_to_client_run (g := .start c w) hc _) _

theorem select_run (hc : c.is_open = s.is_open k) (hready : c.state_awaiting_transition = none) (hq : w.notices = [])
    (hok : WorldOk w) (hnew : ∀ p, (w.chat.entities p).isSome → p.address ≠ w.env.new_entity)
    (hr : lobby_state_recv_packet_factory.construct data len = .ok (.request_character_select name))
    (hp : ¬ SelectsClashing k w chars (.request_character_select name)) :
    ∃ g, LobbyEffect k c w acc chars (.request_character_select name) g ∧
      lobby_state.handle_network_packet k acc chars data len (s.progress k (.start c w)) = .ok () (s.progress k g) := by
  cases hfind : chars.find? (·.name = name) with
  | none =>
    refine ⟨_, .select_absent name hfind, handle_request_stops hr ?_ (.inr rfl)⟩
    simp only [LobbyRequest.execute_associated_action, request_character_select.execute_associated_action, hfind]
    exact force_close_run
  | some ch =>
    have hclash : ¬ w.clashes (w.newcomer k ch) := fun h => hp ⟨name, ch, rfl, hfind, h⟩
    have hid : w.registry.id_to_character (w.newcomer k ch).id = none := not_not.1 (not_or.1 hclash).1
    have hent : w.chat.entities (w.newcomer k ch) = none := by
      rw [← Option.not_isSome_iff_eq_none]
      exact fun h => hnew _ h rfl
    let g : Progress := ⟨c, w, [(k, .character_selected ch)], [], []⟩
    have hconstruct : ingame_state.construct k ch acc (s.progress k g) =
        (do
          ingame_state.build k (w.newcomer k ch)
          return .ingame_state (w.newcomer k ch) acc : ServerM ClientState) (s.progress k g) := rfl
    have hx := select_action k w acc hc hfind
    cases ha : w.db_answer with
    | some e =>
      have hb := build_throws (g := g) hc hq hok hent hid ha
      exact ⟨_, .select_fails name ch e hfind hid ha,
        handle_request_throws hr (hx.trans (bind_error (hconstruct.trans (bind_error hb _)) _))⟩
    | none =>
      obtain ⟨hself, hname⟩ := not_or.1 fun h => hclash (.inr ⟨h, ha⟩)
      have hfree : w.free (w.newcomer k ch) := ⟨hid, not_not.1 hname⟩
      obtain ⟨w', he, hb⟩ := build_returns (g := g) hc hq hok hent hfree hself ha
      refine ⟨_, .select name ch w' hfind hfree he, handle_request_stops hr (hx.trans ?_) (.inl rfl)⟩
      refine (bind_ok (hconstruct.trans (bind_ok hb _)) _).trans ?_
      exact schedule_transition_run (g := g.called w') hready _

variable (acc) in
theorem select_dies (hc : c.is_open = s.is_open k) (hq : w.notices = []) (hok : WorldOk w)
    (hnew : ∀ p, (w.chat.entities p).isSome → p.address ≠ w.env.new_entity) {request : LobbyRequest}
    (hr : lobby_state_recv_packet_factory.construct data len = .ok request) (hp : SelectsClashing k w chars request) :
    ∃ name ch w', request = .request_character_select name ∧ chars.find? (·.name = name) = some ch ∧
      w.Clash (w.newcomer k ch) w' ∧
      lobby_state.handle_network_packet k acc chars data len (s.progress k (.start c w)) =
        .error .assertion_failed (s.progress k ⟨c, w'.quiet, (k, .character_selected ch) :: w'.mails, [], []⟩) := by
  obtain ⟨name, ch, rfl, hfind, hclash⟩ := hp
  have hent : w.chat.entities (w.newcomer k ch) = none := by
    rw [← Option.not_isSome_iff_eq_none]
    exact fun h => hnew _ h rfl
  have hx := select_action k w acc hc hfind
  obtain ⟨w', hw, hb⟩ := build_dies (g := ⟨c, w, [(k, .character_selected ch)], [], []⟩) hc hq hok hent hclash
  have hconstruct : ingame_state.construct k ch acc (s.progress k ⟨c, w, [(k, .character_selected ch)], [], []⟩) =
      .error .assertion_failed _ := bind_error hb _
  exact ⟨name, ch, w', rfl, hfind, hw,
    handle_request_dies hr (hx.trans (bind_error hconstruct _)) fun e h => by cases h⟩

/-- A packet in the lobby: the request goes one of the ways listed, unless it
selects a character that clashes. -/
theorem lobby_run (hc : c.is_open = s.is_open k) (hready : c.Ready) (hst : c.current_state = .lobby_state acc chars)
    (hq : w.notices = []) (hok : WorldOk w) (hnew : ∀ p, (w.chat.entities p).isSome → p.address ≠ w.env.new_entity)
    {request : LobbyRequest} (hr : lobby_state_recv_packet_factory.construct data len = .ok request)
    (hp : ¬ SelectsClashing k w chars request) :
    ∃ g, LobbyEffect k c w acc chars request g ∧
      lobby_state.handle_network_packet k acc chars data len (s.progress k (.start c w)) = .ok () (s.progress k g) := by
  have hasync : c.async_state = .awaiting_packet_poll := hready.async_state (by simp [hst])
  cases request with
  | request_character_select name => exact select_run hc hready.no_transition hq hok hnew hr hp
  | request_character_create name => exact create_run hc hready.is_open hready.not_receiving hq hasync hr
  | request_character_delete name => exact delete_run hc hready.is_open hready.not_receiving hq hasync hr
  | request_lobby_log_off => exact ⟨_, .log_off, handle_request_stops hr force_close_run (.inr rfl)⟩
  | null_received_packet =>
    exact ⟨_, .ignored, handle_request_waits hr (by rfl) hasync hready.is_open hready.not_receiving⟩

end lobby

/-! ## In the game -/

/-- The call of the chat system that a request makes. -/
def IngameRequest.chat_op (p : EntityPtr) : IngameRequest → Option ChatOp
  | .join_chat chatroom_name => some (.join_chatroom p chatroom_name)
  | .leave_chat chatroom_name => some (.leave_chatroom p chatroom_name)
  | .send_chat_msg chatroom_name message => some (.broadcast_message p chatroom_name message)
  | .send_whisper recipient message => some (.whisper p recipient message)
  | _ => none

/-- The call of the friend system that a request makes. -/
def IngameRequest.friend_op (p : EntityPtr) : IngameRequest → Option FriendOp
  | .friend_add friend_name => some (.process_req_friend_add p friend_name)
  | .friend_remove friend_name => some (.process_req_friend_remove p friend_name)
  | _ => none

theorem IngameRequest.friend_op_quiet {p : EntityPtr} {request : IngameRequest} {op : FriendOp}
    (h : request.friend_op p = some op) : ¬ op.registers := by
  cases request <;> cases h <;> exact id

/-- The ways an in-game request can go. -/
inductive IngameEffect (k : SessionId) (c : MmoClient) (w : World) (p : EntityPtr) (acc : AccountData) :
    IngameRequest → Progress → Prop
  -- No world is touched.
  | ignored : IngameEffect k c w p acc .null_received_packet (Progress.start c w).waiting
  | log_off : IngameEffect k c w p acc .log_off_to_lobby ((Progress.start c w).changing k (.lobby_state acc []))
  -- Calls of the chat and the friend system; a statement may throw.
  | chat (request op c' ns) : IngameRequest.chat_op p request = some op → op.Permitted w → ChatEffect w op c' ns →
    IngameEffect k c w p acc request (⟨c, (w.after c' ns).quiet, (w.after c' ns).mails, [], []⟩ : Progress).waiting
  | friends (request op w') : IngameRequest.friend_op p request = some op → op.Permitted w →
    FriendEffect w op none w' →
    IngameEffect k c w p acc request (⟨c, w'.quiet, w'.mails, [], []⟩ : Progress).waiting
  | friends_fail (request op e w') : IngameRequest.friend_op p request = some op → op.Permitted w →
    FriendEffect w op (some e) w' →
    IngameEffect k c w p acc request ((⟨c, w'.quiet, w'.mails, [], []⟩ : Progress).closing k)

section ingame

variable {s : Server} {k : SessionId} {c : MmoClient} {w : World} {p : EntityPtr} {acc : AccountData}
  {data : Buffer} {len : Nat} {request : IngameRequest}

theorem chat_request_run {op : ChatOp} (hc : c.is_open = s.is_open k) (hopen : c.is_open = true)
    (hrecv : c.receiving = false) (hasync : c.async_state = .awaiting_packet_poll) (hok : WorldOk w)
    (hr : ingame_state_recv_packet_factory.construct data len = .ok request)
    (hop : request.chat_op p = some op) (hperm : op.Permitted w)
    (hx : request.execute_associated_action k p acc = in_world op.run) :
    ∃ g, IngameEffect k c w p acc request g ∧
      ingame_state.handle_network_packet k p acc data len (s.progress k (.start c w)) = .ok () (s.progress k g) := by
  obtain ⟨c', ns, he, hrun⟩ := hok.chat_effect _ hperm
  refine ⟨_, .chat request op c' ns hop hperm he, handle_request_waits hr ?_ hasync hopen hrecv⟩
  rw [hx]
  exact in_world_run (g := .start c w) hc hrun

theorem friend_request_run {op : FriendOp} (hc : c.is_open = s.is_open k) (hopen : c.is_open = true)
    (hrecv : c.receiving = false) (hasync : c.async_state = .awaiting_packet_poll) (hok : WorldOk w)
    (hr : ingame_state_recv_packet_factory.construct data len = .ok request)
    (hop : request.friend_op p = some op) (hperm : op.Permitted w)
    (hx : request.execute_associated_action k p acc = in_world op.run) :
    ∃ g, IngameEffect k c w p acc request g ∧
      ingame_state.handle_network_packet k p acc data len (s.progress k (.start c w)) = .ok () (s.progress k g) := by
  obtain ⟨res, w', he, hrun⟩ := hok.friend_effect _ hperm fun q hq _ =>
    absurd (hq ▸ trivial : op.registers) (IngameRequest.friend_op_quiet hop)
  cases res with
  | none =>
    refine ⟨_, .friends request op w' hop hperm he, handle_request_waits hr ?_ hasync hopen hrecv⟩
    rw [hx]
    exact in_world_run (g := .start c w) hc hrun
  | some e =>
    refine ⟨_, .friends_fail request op e w' hop hperm he, handle_request_throws (e := e) hr ?_⟩
    rw [hx]
    exact in_world_error (g := .start c w) hc hrun

/-- A packet in the game always goes one of the ways listed. -/
theorem ingame_run (hc : c.is_open = s.is_open k) (hready : c.Ready) (hst : c.current_state = .ingame_state p acc)
    (hok : WorldOk w) (hp : w.online p) (hroom : w.chat.rooms w.env.new_room = none)
    (hr : ingame_state_recv_packet_factory.construct data len = .ok request) :
    ∃ g, IngameEffect k c w p acc request g ∧
      ingame_state.handle_network_packet k p acc data len (s.progress k (.start c w)) = .ok () (s.progress k g) := by
  have hasync : c.async_state = .awaiting_packet_poll := hready.async_state (by simp [hst])
  have hopen := hready.is_open
  have hent : (w.chat.entities p).isSome := (hok.players p).2 hp
  cases request with
  | log_off_to_lobby =>
    exact ⟨_, .log_off, handle_request_stops hr (schedule_transition_run hready.no_transition _) (.inl rfl)⟩
  | null_received_packet =>
    exact ⟨_, .ignored, handle_request_waits hr (by rfl) hasync hopen hready.not_receiving⟩
  | join_chat R => exact chat_request_run hc hopen hready.not_receiving hasync hok hr rfl ⟨hent, hroom⟩ rfl
  | leave_chat R => exact chat_request_run hc hopen hready.not_receiving hasync hok hr rfl hent rfl
  | send_chat_msg R msg => exact chat_request_run hc hopen hready.not_receiving hasync hok hr rfl hent rfl
  | send_whisper recipient msg => exact chat_request_run hc hopen hready.not_receiving hasync hok hr rfl hent rfl
  | friend_add name => exact friend_request_run hc hopen hready.not_receiving hasync hok hr rfl hp rfl
  | friend_remove name => exact friend_request_run hc hopen hready.not_receiving hasync hok hr rfl hp rfl

end ingame

/-! ## Before the login -/

/-- What `preauth_state` reads out of a packet. -/
inductive Keys where
  | no_opcode
  | unknown_opcode
  | malformed
  | keys (loginserver_key account_login : Bytes)
  deriving DecidableEq

def preauth_state.read (data : Buffer) (len : Nat) : Keys :=
  match (data.reader len).read_opcode with
  | .error _ => .no_opcode
  | .ok (opcode, bd) =>
    if opcode = preauth_state_protocol.loginserver_keys then
      match two_strings bd Prod.mk with
      | .error _ => .malformed
      | .ok (loginserver_key, account_login) =>
        if loginserver_key.length ≠ 64 then .malformed else .keys loginserver_key account_login
    else .unknown_opcode

/-- How the account lookup ends, and the statements it has sent. -/
def World.account_lookup (w : World) (login : Bytes) : Except StdException AccountData × World :=
  let w1 := w.executed (.account login)
  match w.db_answer with
  | some e => (.error e, w1)
  | none =>
    match w.db.get_account_data login with
    | none => (.error .other, w1)
    | some acc =>
      match w1.db_answer with
      | some e => (.error e, w1.executed (.access_level acc.uid))
      | none => (.ok acc, w1.executed (.access_level acc.uid))

/-- The ways a packet before the login can go. `valid` is the login validator. -/
inductive PreauthEffect (k : SessionId) (c : MmoClient) (w : World) (valid : Bytes → Bytes → Bool) :
    Keys → Progress → Prop
  -- No login, or a bad one.
  | unknown_opcode :
    PreauthEffect k c w valid .unknown_opcode ((⟨c, w, [(k, .fuck_you_bad_keys)], [], []⟩ : Progress).closing k)
  | malformed : PreauthEffect k c w valid .malformed ((Progress.start c w).closing k)
  | bad_keys (key login) : valid key login = false →
    PreauthEffect k c w valid (.keys key login) ((⟨c, w, [(k, .fuck_you_bad_keys)], [], []⟩ : Progress).closing k)
  -- A login. Only an `underflow_error` of the lookup is caught.
  | lookup_fails (key login w') : valid key login = true → w.account_lookup login = (.error .underflow_error, w') →
    PreauthEffect k c w valid (.keys key login) ((⟨c, w', [(k, .good_boy_good_keys)], [], []⟩ : Progress).closing k)
  | login (key login acc w') : valid key login = true → w.account_lookup login = (.ok acc, w') →
    PreauthEffect k c w valid (.keys key login)
      ((⟨c, w', [(k, .good_boy_good_keys)], [], []⟩ : Progress).changing k (.lobby_state acc []))

/-- The packet makes an exception leave the handler: it is empty, or its keys
are accepted and the account lookup throws what is not caught. -/
def Escapes (w : World) (valid : Bytes → Bytes → Bool) : Keys → Prop
  | .no_opcode => True
  | .keys key login => valid key login = true ∧ (w.account_lookup login).1 = .error .other
  | _ => False

/-- What has been done when the exception escapes. -/
inductive Escaping (k : SessionId) (c : MmoClient) (w : World) : Keys → StdException → Progress → Prop
  -- Read before the try block.
  | no_opcode : Escaping k c w .no_opcode .underflow_error (.start c w)
  -- Not an `underflow_error`.
  | lookup_throws (key login w') : w.account_lookup login = (.error .other, w') →
    Escaping k c w (.keys key login) .other ⟨c, w', [(k, .good_boy_good_keys)], [], []⟩

section preauth

variable {s : Server} {k : SessionId} {c : MmoClient} {w : World} {data : Buffer} {len : Nat} {login : Bytes}

theorem account_lookup_run (w : World) (login : Bytes) :
    psql_facade.get_account_data login w =
      match w.account_lookup login with
      | (.ok acc, w') => .ok acc w'
      | (.error e, w') => .error (.exception e) w' := by
  unfold psql_facade.get_account_data World.account_lookup
  cases ha : w.db_answer with
  | some e => exact bind_error (psql_facade.exec_fails ha _) _
  | none =>
    refine (bind_ok (psql_facade.exec_ok ha _) _).trans ?_
    rw [get_bind]
    have hdb : (w.executed (.account login)).db = w.db := rfl
    rw [hdb]
    dsimp only
    cases w.db.get_account_data login with
    | none => rfl
    | some acc =>
      dsimp only
      cases ha' : (w.executed (.account login)).db_answer with
      | some e => exact bind_error (psql_facade.exec_fails ha' _) _
      | none => exact bind_ok (psql_facade.exec_ok ha' _) _

/-- The lookup sends statements and changes nothing. -/
theorem account_lookup_world (w : World) (login : Bytes) :
    (w.account_lookup login).2 = w.executed (.account login) ∨
      ∃ id, (w.account_lookup login).2 = (w.executed (.account login)).executed (.access_level id) := by
  unfold World.account_lookup
  dsimp only
  split
  · exact .inl rfl
  split
  · exact .inl rfl
  split <;> exact .inr ⟨_, rfl⟩

theorem account_lookup_notices (hq : w.notices = []) (login : Bytes) : (w.account_lookup login).2.notices = [] := by
  rcases account_lookup_world w login with h | ⟨id, h⟩ <;> rw [h] <;> exact hq

/-- Reading two strings, one call after the other. -/
theorem read_two (bd : BinaryDeserializer 64) (f : Bytes → Bytes → ServerM Unit) :
    (do
      let (a, bd) ← deserialize bd.read_string
      let (b, _) ← deserialize bd.read_string
      f a b : ServerM Unit) =
    (do
      let (a, b) ← deserialize (two_strings bd Prod.mk)
      f a b : ServerM Unit) := by
  unfold two_strings
  cases h : bd.read_string with
  | error e => rfl
  | ok r =>
    obtain ⟨a, bd'⟩ := r
    show (do
      let (b, _) ← deserialize bd'.read_string
      f a b : ServerM Unit) = _
    cases h' : bd'.read_string with
    | error e => simp [bind, Except.bind, h']; rfl
    | ok r => simp [bind, Except.bind, h']; rfl

/-- The body of the try block, once the strings are read. -/
def preauth_state.check (k : SessionId) (loginserver_key account_login : Bytes) : ServerM Unit := do
  if loginserver_key.length ≠ 64 then throw (.exception .underflow_error)
  if (← get).authenticator loginserver_key account_login then
    net_session.send_to_client k .good_boy_good_keys
    let acc_data ← in_world (psql_facade.get_account_data account_login)
    mmoclient.schedule_transition k (.lobby_state acc_data [])
  else
    net_session.send_to_client k .fuck_you_bad_keys
    mmoclient.force_close k

theorem preauth_handle (k : SessionId) (data : Buffer) (len : Nat) :
    preauth_state.handle_network_packet k data len = (do
      let (opcode, bd) ← deserialize (data.reader len).read_opcode
      if opcode = preauth_state_protocol.loginserver_keys then
        try_catch underflow_error
          (do
            let (a, b) ← deserialize (two_strings bd Prod.mk)
            preauth_state.check k a b)
          (mmoclient.force_close k)
      else
        net_session.send_to_client k .fuck_you_bad_keys
        mmoclient.force_close k) := by
  unfold preauth_state.handle_network_packet
  congr 1
  funext ⟨opcode, bd⟩
  exact congrArg (fun body => if opcode = preauth_state_protocol.loginserver_keys then
    try_catch underflow_error body (mmoclient.force_close k) else _) (read_two bd (preauth_state.check k))

/-- What a login does that the validator accepts. -/
theorem check_run (hc : c.is_open = s.is_open k) (hready : c.state_awaiting_transition = none) (hq : w.notices = [])
    {key : Bytes} (hlen : key.length = 64) (hv : s.authenticator key login = true) :
    preauth_state.check k key login (s.progress k (.start c w)) =
      match w.account_lookup login with
      | (.ok acc, w') => .ok () (s.progress k
          ((⟨c, w', [(k, .good_boy_good_keys)], [], []⟩ : Progress).changing k (.lobby_state acc [])))
      | (.error e, w') => .error (.exception e) (s.progress k ⟨c, w', [(k, .good_boy_good_keys)], [], []⟩) := by
  have hlook := account_lookup_run w login
  have hq' := account_lookup_notices hq login
  have hbody : preauth_state.check k key login (s.progress k (.start c w)) =
      (do
        let acc_data ← in_world (psql_facade.get_account_data login)
        mmoclient.schedule_transition k (.lobby_state acc_data []) : ServerM Unit)
        (s.progress k ⟨c, w, [(k, .good_boy_good_keys)], [], []⟩) := by
    have hv' : (s.progress k (.start c w)).authenticator key login = true := hv
    unfold preauth_state.check
    simp only [hlen, ne_eq, not_true, if_false, get_bind, hv', if_true]
    exact bind_ok (send_to_client_run (g := .start c w) hc _) _
  rw [hbody]
  cases hl : w.account_lookup login with
  | mk r w' =>
    rw [hl] at hlook hq'
    cases r with
    | ok acc =>
      have h1 := in_world_run (g := ⟨c, w, [(k, .good_boy_good_keys)], [], []⟩) hc hlook
      rw [Progress.called_silent hq'] at h1
      exact (bind_ok h1 _).trans (schedule_transition_run (g := ⟨c, w', _, [], []⟩) hready _)
    | error e =>
      have h1 := in_world_error (g := ⟨c, w, [(k, .good_boy_good_keys)], [], []⟩) hc hlook
      rw [Progress.called_silent hq'] at h1
      exact bind_error h1 _

/-- What a login does that the validator does not know. -/
theorem check_rejects (hc : c.is_open = s.is_open k) {key : Bytes} (hlen : key.length = 64)
    (hv : s.authenticator key login = false) :
    preauth_state.check k key login (s.progress k (.start c w)) =
      .ok () (s.progress k ((⟨c, w, [(k, .fuck_you_bad_keys)], [], []⟩ : Progress).closing k)) := by
  have hv' : (s.progress k (.start c w)).authenticator key login = false := hv
  unfold preauth_state.check
  simp only [hlen, ne_eq, not_true, if_false, get_bind, hv', Bool.false_eq_true]
  exact (bind_ok (send_to_client_run (g := .start c w) hc _) _).trans force_close_run

theorem check_short (k : SessionId) {key : Bytes} (hlen : key.length ≠ 64) (login : Bytes) (t : Server) :
    preauth_state.check k key login t = .error (.exception .underflow_error) t := by
  unfold preauth_state.check
  simp [hlen]

/-- Keys that the validator accepts: a login, unless the account cannot be loaded. -/
theorem login_run (hc : c.is_open = s.is_open k) (hready : c.state_awaiting_transition = none) (hq : w.notices = [])
    {key : Bytes} (hlen : key.length = 64) (hv : s.authenticator key login = true) :
    (¬ Escapes w s.authenticator (.keys key login) ∧
      ∃ g, PreauthEffect k c w s.authenticator (.keys key login) g ∧
        try_catch underflow_error (preauth_state.check k key login) (mmoclient.force_close k)
          (s.progress k (.start c w)) = .ok () (s.progress k g)) ∨
    (Escapes w s.authenticator (.keys key login) ∧
      ∃ e g, Escaping k c w (.keys key login) e g ∧
        try_catch underflow_error (preauth_state.check k key login) (mmoclient.force_close k)
          (s.progress k (.start c w)) = .error (.exception e) (s.progress k g)) := by
  have hrun := check_run hc hready hq hlen hv
  cases hl : w.account_lookup login with
  | mk r w' =>
    rw [hl] at hrun
    cases r with
    | ok acc =>
      refine .inl ⟨fun h => ?_, _, .login key login acc w' hv hl, try_catch_ok hrun _⟩
      rw [Escapes, hl] at h
      cases h.2
    | error e =>
      cases e with
      | underflow_error =>
        refine .inl ⟨fun h => ?_, _, .lookup_fails key login w' hv hl,
          (try_catch_caught hrun rfl _).trans force_close_run⟩
        rw [Escapes, hl] at h
        cases h.2
      | other =>
        refine .inr ⟨⟨hv, by rw [hl]⟩, .other, _, .lookup_throws key login w' hl,
          try_catch_passes hrun (fun e h => ?_) _⟩
        cases h
        rfl

variable (data len) in
/-- A packet before the login goes one of the ways listed, or an exception escapes. -/
theorem preauth_run (hc : c.is_open = s.is_open k) (hready : c.state_awaiting_transition = none) (hq : w.notices = []) :
    (¬ Escapes w s.authenticator (preauth_state.read data len) ∧
      ∃ g, PreauthEffect k c w s.authenticator (preauth_state.read data len) g ∧
        preauth_state.handle_network_packet k data len (s.progress k (.start c w)) = .ok () (s.progress k g)) ∨
    (Escapes w s.authenticator (preauth_state.read data len) ∧
      ∃ e g, Escaping k c w (preauth_state.read data len) e g ∧
        preauth_state.handle_network_packet k data len (s.progress k (.start c w)) =
          .error (.exception e) (s.progress k g)) := by
  rw [preauth_handle]
  unfold preauth_state.read
  cases hop : (data.reader len).read_opcode with
  | error e =>
    have he := read_opcode_error hop
    subst he
    exact .inr ⟨trivial, _, _, .no_opcode, bind_error (deserialize_error rfl _) _⟩
  | ok r =>
    obtain ⟨opcode, bd⟩ := r
    rw [bind_ok (deserialize_ok rfl _)]
    dsimp only
    by_cases hkeys : opcode = preauth_state_protocol.loginserver_keys
    swap
    · rw [if_neg hkeys, if_neg hkeys]
      exact .inl ⟨id, _, .unknown_opcode,
        (bind_ok (send_to_client_run (g := .start c w) hc _) _).trans force_close_run⟩
    rw [if_pos hkeys, if_pos hkeys]
    cases htwo : two_strings bd Prod.mk with
    | error e =>
      have he := two_strings_error htwo
      subst he
      refine .inl ⟨id, _, .malformed, ?_⟩
      rw [try_catch_caught (bind_error (deserialize_error rfl _) _) rfl]
      exact force_close_run
    | ok r =>
      obtain ⟨key, login⟩ := r
      dsimp only
      -- The strings are read; `check` is what is left of the try block.
      have hbody : (deserialize (.ok (key, login)) >>= fun x : Bytes × Bytes =>
          preauth_state.check k x.1 x.2 : ServerM Unit) = preauth_state.check k key login := rfl
      have htry (t : Server) := congrFun (congrArg (try_catch underflow_error · (mmoclient.force_close k)) hbody) t
      by_cases hlen : key.length = 64
      swap
      · rw [if_pos hlen]
        exact .inl ⟨id, _, .malformed,
          (htry _).trans ((try_catch_caught (check_short k hlen login _) rfl _).trans force_close_run)⟩
      rw [if_neg (not_not.2 hlen)]
      cases hv : s.authenticator key login with
      | false =>
        refine .inl ⟨fun h => ?_, _, .bad_keys key login hv,
          (htry _).trans (try_catch_ok (check_rejects hc hlen hv) _)⟩
        rw [Escapes, hv] at h
        cases h.1
      | true =>
        rcases login_run hc hready hq hlen hv with ⟨hn, g, he, hrun⟩ | ⟨hn, e, g, he, hrun⟩
        · exact .inl ⟨hn, g, he, (htry _).trans hrun⟩
        · exact .inr ⟨hn, e, g, he, (htry _).trans hrun⟩

end preauth

/-! ## In any state -/

/-- The ways a packet of session `k` can go. -/
inductive PacketEffect (k : SessionId) (c : MmoClient) (w : World) (valid : Bytes → Bytes → Bool) (data : Buffer)
    (len : Nat) : Progress → Prop
  | preauth (g) : c.current_state = .preauth_state → PreauthEffect k c w valid (preauth_state.read data len) g →
    PacketEffect k c w valid data len g
  | lobby_malformed (acc chars e) : c.current_state = .lobby_state acc chars →
    lobby_state_recv_packet_factory.construct data len = .error e →
    PacketEffect k c w valid data len ((Progress.start c w).closing k)
  | lobby (acc chars request g) : c.current_state = .lobby_state acc chars →
    lobby_state_recv_packet_factory.construct data len = .ok request → LobbyEffect k c w acc chars request g →
    PacketEffect k c w valid data len g
  | ingame_malformed (p acc e) : c.current_state = .ingame_state p acc →
    ingame_state_recv_packet_factory.construct data len = .error e →
    PacketEffect k c w valid data len ((Progress.start c w).closing k)
  | ingame (p acc request g) : c.current_state = .ingame_state p acc →
    ingame_state_recv_packet_factory.construct data len = .ok request → IngameEffect k c w p acc request g →
    PacketEffect k c w valid data len g

/-- The packet ends the server. -/
def PacketDies (k : SessionId) (c : MmoClient) (w : World) (valid : Bytes → Bytes → Bool) (data : Buffer) (len : Nat) :
    Prop :=
  match c.current_state with
  | .preauth_state => Escapes w valid (preauth_state.read data len)
  | .lobby_state _ chars =>
    ∃ request, lobby_state_recv_packet_factory.construct data len = .ok request ∧ SelectsClashing k w chars request
  | _ => False

/-- What has been done when it does. -/
inductive PacketDeath (k : SessionId) (c : MmoClient) (w : World) (data : Buffer) (len : Nat) : Fault → Progress → Prop
  | preauth (e g) : c.current_state = .preauth_state → Escaping k c w (preauth_state.read data len) e g →
    PacketDeath k c w data len (.exception e) g
  | select (acc chars name ch w') : c.current_state = .lobby_state acc chars →
    lobby_state_recv_packet_factory.construct data len = .ok (.request_character_select name) →
    chars.find? (·.name = name) = some ch → w.Clash (w.newcomer k ch) w' →
    PacketDeath k c w data len .assertion_failed ⟨c, w'.quiet, (k, .character_selected ch) :: w'.mails, [], []⟩

/-- Every packet goes one of the ways listed, or ends the server. -/
theorem packet_run {s : Server} {k : SessionId} {c : MmoClient} {w : World} {data : Buffer} {len : Nat}
    (hc : c.is_open = s.is_open k) (hready : c.Ready) (hst : c.current_state ≠ .null_state) (hq : w.notices = [])
    (hok : WorldOk w) (hnew : ∀ p, (w.chat.entities p).isSome → p.address ≠ w.env.new_entity)
    (hroom : w.chat.rooms w.env.new_room = none) (hp : ∀ p, c.current_state.holds p → w.online p) :
    (¬ PacketDies k c w s.authenticator data len ∧ ∃ g, PacketEffect k c w s.authenticator data len g ∧
      c.current_state.handle_network_packet k data len (s.progress k (.start c w)) = .ok () (s.progress k g)) ∨
    (PacketDies k c w s.authenticator data len ∧ ∃ f g, PacketDeath k c w data len f g ∧
      c.current_state.handle_network_packet k data len (s.progress k (.start c w)) = .error f (s.progress k g)) := by
  unfold PacketDies
  cases hcur : c.current_state with
  | null_state => exact absurd hcur hst
  | preauth_state =>
    rcases preauth_run data len hc hready.no_transition hq with ⟨hn, g, he, hrun⟩ | ⟨hn, e, g, he, hrun⟩
    · exact .inl ⟨hn, g, .preauth g hcur he, hrun⟩
    · exact .inr ⟨hn, _, g, .preauth e g hcur he, hrun⟩
  | lobby_state acc chars =>
    cases hr : lobby_state_recv_packet_factory.construct data len with
    | error e =>
      exact .inl ⟨by simp, _, .lobby_malformed acc chars e hcur hr, handle_request_malformed hr⟩
    | ok request =>
      by_cases hclash : SelectsClashing k w chars request
      · obtain ⟨name, ch, w', rfl, hfind, hw, hrun⟩ := select_dies acc hc hq hok hnew hr hclash
        exact .inr ⟨⟨_, rfl, hclash⟩, _, _, .select acc chars name ch w' hcur hr hfind hw, hrun⟩
      · obtain ⟨g, he, hrun⟩ := lobby_run hc hready hcur hq hok hnew hr hclash
        refine .inl ⟨?_, g, .lobby acc chars request g hcur hr he, hrun⟩
        rintro ⟨request', h, hclash'⟩
        cases h
        exact hclash hclash'
  | ingame_state p acc =>
    cases hr : ingame_state_recv_packet_factory.construct data len with
    | error e => exact .inl ⟨id, _, .ingame_malformed p acc e hcur hr, handle_request_malformed hr⟩
    | ok request =>
      have hon : w.online p := hp p (by rw [hcur]; rfl)
      obtain ⟨g, he, hrun⟩ := ingame_run hc hready hcur hok hon hroom hr
      exact .inl ⟨id, g, .ingame p acc request g hcur hr he, hrun⟩

end tejk_it_izi
