import TejkItIzi.Friendships
import TejkItIzi.Playing
/-!
# The constraints of the schema

PostgreSQL keeps the unique columns of `init_db.sql` unique, and every reference
at a row that is there; a statement that would break this throws and changes
nothing. A row of `character_friends` refers to two characters, and
`erase_character` leaves such rows where they are.
-/

namespace tejk_it_izi

open ProgLib

/-- `PRIMARY KEY`, `UNIQUE` and `references`, table by table. -/
@[mk_iff]
structure Database.Constraints (db : Database) : Prop where
  account_ids : (db.accounts.map (·.id)).Nodup
  logins : (db.accounts.map (·.login)).Nodup
  access_level : ∀ r ∈ db.access_level, r.account_id ∈ db.accounts.map (·.id)
  character_ids : (db.characters.map (·.id)).Nodup
  nicknames : (db.characters.map (·.nickname)).Nodup
  owners : ∀ r ∈ db.characters, r.owner_account_id ∈ db.accounts.map (·.id)
  -- "and what if someone deletes character?"
  friends : ∀ r ∈ db.character_friends,
    r.character_id ∈ db.characters.map (·.id) ∧ r.his_friend_id ∈ db.characters.map (·.id)

instance (db : Database) : Decidable db.Constraints := decidable_of_iff' _ (Database.constraints_iff db)

/-- What the statement makes of the tables. -/
def Statement.after (db : Database) : Statement → Database
  | .erase_character name => db.erase_character name
  | .create_character owner_acc_id nickname => db.create_character nickname owner_acc_id
  | .make_friends row => { db with character_friends := db.character_friends ++ [row] }
  | .remove_friends row => { db with character_friends := db.character_friends.filter (· ≠ row) }
  | .lobby_chars _ | .char_name_to_uid _ | .account _ | .access_level _ | .friends_of _ => db

/-- How the statement goes when nothing but a constraint can make it fail; an
`sql_error` is no `underflow_error`. -/
def Statement.answer (db : Database) (st : Statement) : Option StdException :=
  if (st.after db).Constraints then none else some .other

/-! ## The tables over time -/

/-- A call that adds to the tables or removes friends. -/
inductive TableCall where
  | create_character (nickname : Bytes) (owner_acc_id : Nat)
  | friends (call : FriendsCall)

def TableCall.run : TableCall → WorldM Unit
  | .create_character nickname owner_acc_id => do
    let _ ← psql_facade.create_character nickname owner_acc_id
  | .friends call => call.run

def TableCall.statement : TableCall → Statement
  | .create_character nickname owner_acc_id => .create_character owner_acc_id nickname
  | .friends (.make_friends one other) => .make_friends (Database.ordered one other)
  | .friends (.remove_friends one other) => .remove_friends (Database.ordered one other)

/-- Nicknames are what `request_character_create` lets through, ids are any. -/
def TableCall.Valid : TableCall → Prop
  | .create_character nickname _ => valid_nickname nickname
  | .friends _ => True

/-- Other orders of the rows, and a serial that has moved on: a failed `INSERT`
uses up a value. -/
structure Database.Drifts (db db' : Database) : Prop where
  accounts : db'.accounts = db.accounts
  access_level : db'.access_level = db.access_level
  characters : db.characters.Perm db'.characters
  character_friends : db.character_friends.Perm db'.character_friends
  next_character_id : db.next_character_id ≤ db'.next_character_id

/-- The tables of `init_db.sql`, once there are accounts. Calls come one after
another, and the database answers as its constraints have it. -/
def tablesMachine : Machine Database TableCall where
  init db := db.Constraints ∧ db = { Database.empty with accounts := db.accounts, access_level := db.access_level }
  step db call db' := call.Valid ∧
    ∃ w, w.db = db ∧ w.db_answer = call.statement.answer db ∧ (endState call.run w).db.Drifts db'

section constraints

variable {db db' : Database} {call : TableCall} {w : World} {r : CharacterRow}

theorem answer_none {st : Statement} : st.answer db = none ↔ (st.after db).Constraints := by
  unfold Statement.answer
  split
  · next h => exact iff_of_true rfl h
  · next h => exact iff_of_false (Option.some_ne_none _) h

theorem Database.Drifts.refl (db : Database) : db.Drifts db := ⟨rfl, rfl, .refl _, .refl _, le_rfl⟩

theorem Database.Constraints.drift (h : db.Constraints) (hd : db.Drifts db') : db'.Constraints where
  account_ids := hd.accounts ▸ h.account_ids
  logins := hd.accounts ▸ h.logins
  access_level := hd.accounts ▸ hd.access_level ▸ h.access_level
  character_ids := (hd.characters.map _).nodup_iff.1 h.character_ids
  nicknames := (hd.characters.map _).nodup_iff.1 h.nicknames
  owners r hr := hd.accounts ▸ h.owners r (hd.characters.mem_iff.2 hr)
  friends r hr := by
    obtain ⟨h1, h2⟩ := h.friends r (hd.character_friends.mem_iff.2 hr)
    exact ⟨(hd.characters.map _).mem_iff.1 h1, (hd.characters.map _).mem_iff.1 h2⟩

/-- A call changes the tables by its statement. -/
theorem call_returns (call : TableCall) (ha : w.db_answer = none) :
    call.run w = .ok () { w.executed call.statement with db := call.statement.after w.db } := by
  rcases call with ⟨nickname, owner⟩ | ⟨one, other⟩ | ⟨one, other⟩
  · exact bind_ok (create_character_run ha nickname owner) _
  · exact bind_ok (psql_facade.exec_ok ha _) _
  · exact bind_ok (psql_facade.exec_ok ha _) _

theorem call_throws (call : TableCall) {e : StdException} (ha : w.db_answer = some e) :
    call.run w = .error (.exception e) (w.executed call.statement) := by
  rcases call with ⟨nickname, owner⟩ | ⟨one, other⟩ | ⟨one, other⟩
  · exact bind_error (bind_error (psql_facade.exec_fails ha _) _) _
  · exact bind_error (psql_facade.exec_fails ha _) _
  · exact bind_error (psql_facade.exec_fails ha _) _

theorem constraints_step (h : db.Constraints) (hs : tablesMachine.step db call db') : db'.Constraints := by
  obtain ⟨_, w, rfl, ha, hd⟩ := hs
  refine Database.Constraints.drift ?_ hd
  unfold Statement.answer at ha
  split at ha
  · next hok => rwa [endState_ok (call_returns call ha)]
  · rwa [endState_error (call_throws call ha)]

/-- The constraints hold in every database that is reached. -/
theorem constraints_reachable (h : tablesMachine.Reachable db) : db.Constraints :=
  Machine.Reachable.keeps (M := tablesMachine) (fun _ h0 => h0.1) (fun _ _ _ => constraints_step) h

theorem Database.Constraints.same_id (h : db.Constraints) {r r' : CharacterRow} (hr : r ∈ db.characters)
    (hr' : r' ∈ db.characters) (hid : r.id = r'.id) : r = r' := List.inj_on_of_nodup_map h.character_ids hr hr' hid

theorem Database.Constraints.same_nickname (h : db.Constraints) {r r' : CharacterRow} (hr : r ∈ db.characters)
    (hr' : r' ∈ db.characters) (hn : r.nickname = r'.nickname) : r = r' := List.inj_on_of_nodup_map h.nicknames hr hr' hn

theorem erase_character_rows (h : db.Constraints) (hr : r ∈ db.characters) :
    (db.erase_character r.nickname).characters = db.characters.filter (· ≠ r) := by
  refine List.filter_congr fun r' hr' => decide_eq_decide.2 (not_congr ?_)
  exact ⟨h.same_nickname hr' hr, fun heq => heq ▸ rfl⟩

/-- An id that is stored stays stored, unless it is the erased one. -/
theorem mem_ids_erased (h : db.Constraints) (hr : r ∈ db.characters) {id : Nat} (hid : id ∈ db.characters.map (·.id)) :
    id ∈ (db.erase_character r.nickname).characters.map (·.id) ↔ id ≠ r.id := by
  rw [erase_character_rows h hr]
  constructor
  · rintro hmem rfl
    obtain ⟨r', hr', heq⟩ := List.mem_map.1 hmem
    obtain ⟨hstored, hne⟩ := List.mem_filter.1 hr'
    exact of_decide_eq_true hne (h.same_id hstored hr heq)
  · intro hne
    obtain ⟨r', hr', rfl⟩ := List.mem_map.1 hid
    refine List.mem_map_of_mem (List.mem_filter.2 ⟨hr', decide_eq_true ?_⟩)
    rintro rfl
    exact hne rfl

/-- A character can be erased if no row of friends refers to him. -/
theorem erase_answer (h : db.Constraints) (hr : r ∈ db.characters) :
    (Statement.erase_character r.nickname).answer db = none ↔
      ∀ f ∈ db.character_friends, f.character_id ≠ r.id ∧ f.his_friend_id ≠ r.id := by
  rw [answer_none]
  constructor
  · intro h' f hf
    obtain ⟨h1, h2⟩ := h.friends f hf
    obtain ⟨h1', h2'⟩ := h'.friends f hf
    exact ⟨(mem_ids_erased h hr h1).1 h1', (mem_ids_erased h hr h2).1 h2'⟩
  · intro hfree
    refine { h with
      character_ids := h.character_ids.sublist (List.filter_sublist.map _)
      nicknames := h.nicknames.sublist (List.filter_sublist.map _)
      owners := fun r hr => h.owners r (List.mem_filter.1 hr).1
      friends := fun f hf => ?_ }
    obtain ⟨h1, h2⟩ := h.friends f hf
    exact ⟨(mem_ids_erased h hr h1).2 (hfree f hf).1, (mem_ids_erased h hr h2).2 (hfree f hf).2⟩

/-- A call that breaks no constraint. -/
theorem call_answered (db : Database) (call : TableCall) (hvalid : call.Valid)
    (h : (call.statement.after db).Constraints) : tablesMachine.step db call (call.statement.after db) := by
  refine ⟨hvalid, .fresh db, rfl, (answer_none.2 h).symm, ?_⟩
  rw [endState_ok (call_returns call rfl)]
  exact .refl _

end constraints

/-! ## Deleting a character -/

/-- Session `k` waits for a packet in the lobby. -/
def Server.in_lobby (s : Server) (k : SessionId) (acc : AccountData) (chars : List LobbyCharacter) : Prop :=
  s.clients k = some ⟨.lobby_state acc chars, none, .awaiting_packet_poll, true, true⟩

/-- What a user is to get who deletes a character of his list. -/
structure Server.Deleted (s : Server) (k : SessionId) (acc : AccountData) (chars : List LobbyCharacter)
    (ch : LobbyCharacter) (s' : Server) : Prop where
  characters : s'.world.db.characters = s.world.db.characters.filter (· ≠ ⟨ch.uid, acc.uid, ch.name⟩)
  lobby_chars : s'.in_lobby k acc (chars.filter (· ≠ ch))
  sent : s'.sent = [⟨k, .character_list (chars.filter (· ≠ ch)), true⟩]
  -- Nothing is posted that would close the session later.
  sync_strand : s'.sync_strand = s.sync_strand

section delete

variable {s : Server} {k : SessionId} {acc : AccountData} {chars : List LobbyCharacter} {ch : LobbyCharacter} {o : Outside}
  {data : Buffer} {size : Nat}

/-- The listed character of this name is the one that is meant. -/
theorem find_listed (hnames : (chars.map (·.name)).Nodup) (hch : ch ∈ chars) :
    chars.find? (·.name = ch.name) = some ch := by
  obtain ⟨ch', hfind⟩ : ∃ ch', chars.find? (·.name = ch.name) = some ch' :=
    Option.isSome_iff_exists.1 (List.find?_isSome.2 ⟨ch, hch, by simp⟩)
  have hname : ch'.name = ch.name := by simpa using List.find?_some hfind
  rw [hfind, List.inj_on_of_nodup_map hnames (List.mem_of_find?_eq_some hfind) hch hname]

theorem eraseP_listed (hnames : (chars.map (·.name)).Nodup) (hch : ch ∈ chars) :
    chars.eraseP (·.name = ch.name) = chars.filter (· ≠ ch) := by
  rw [eraseP_name hnames]
  refine List.filter_congr fun ch' hch' => decide_eq_decide.2 (not_congr ?_)
  exact ⟨List.inj_on_of_nodup_map hnames hch' hch, fun heq => heq ▸ rfl⟩

/-- A deletion that the database carries out. -/
theorem delete_done (hs : s.in_lobby k acc chars) (hnames : (chars.map (·.name)).Nodup) (hch : ch ∈ chars)
    (hdb : s.world.db.Constraints) (hrow : (⟨ch.uid, acc.uid, ch.name⟩ : CharacterRow) ∈ s.world.db.characters)
    (hr : lobby_state_recv_packet_factory.construct data size = .ok (.request_character_delete ch.name))
    (ho : (s.world.begin o.env).db_answer = none) :
    ∃ s', (Handler.on_recv k data size).run (s.begin o) = .ok () s' ∧ s.Deleted k acc chars ch s' := by
  have hc : (s.begin o).clients k = some ⟨.lobby_state acc chars, none, .awaiting_packet_poll, true, true⟩ := hs
  have hopen : true = (s.begin o).is_open k := is_open_of hc
  refine ⟨_, (on_recv_begin hc data size).trans
    (delete_returns hopen rfl rfl rfl rfl hr (find_listed hnames hch) ho), ?_, ?_, ?_, List.append_nil _⟩
  · exact erase_character_rows hdb hrow
  · rw [← eraseP_listed hnames hch]
    exact progress_client
  · rw [← eraseP_listed hnames hch, hopen]
    rfl

/-- A deletion that the database refuses. -/
theorem delete_refused (hs : s.in_lobby k acc chars) (hnames : (chars.map (·.name)).Nodup) (hch : ch ∈ chars)
    (hr : lobby_state_recv_packet_factory.construct data size = .ok (.request_character_delete ch.name))
    {e : StdException} (ho : (s.world.begin o.env).db_answer = some e) :
    ∃ s', (Handler.on_recv k data size).run (s.begin o) = .ok () s' ∧ s'.is_open k = false ∧ s'.sent = [] ∧
      s'.world.db = s.world.db := by
  have hc : (s.begin o).clients k = some ⟨.lobby_state acc chars, none, .awaiting_packet_poll, true, true⟩ := hs
  have hopen : true = (s.begin o).is_open k := is_open_of hc
  refine ⟨_, (on_recv_begin hc data size).trans
    (delete_throws hopen rfl hr (find_listed hnames hch) ho), ?_, rfl, rfl⟩
  exact (is_open_of progress_client).symm

end delete

/-- A character of the list can be deleted if and only if no row of
`character_friends` has his id: otherwise the statement fails, and the session
is closed. -/
theorem deletable_iff_unbefriended {s : Server} {k : SessionId} {acc : AccountData} {chars : List LobbyCharacter}
    {ch : LobbyCharacter} {o : Outside} {data : Buffer} {size : Nat} (hdb : tablesMachine.Reachable s.world.db)
    (hs : s.in_lobby k acc chars) (hlist : chars.Perm (s.world.db.get_lobby_chars acc.uid)) (hch : ch ∈ chars)
    (hr : lobby_state_recv_packet_factory.construct data size = .ok (.request_character_delete ch.name))
    (ho : (s.world.begin o.env).db_answer = (Statement.erase_character ch.name).answer s.world.db) :
    (∃ s', (Handler.on_recv k data size).run (s.begin o) = .ok () s' ∧ s.Deleted k acc chars ch s') ↔
      ∀ f ∈ s.world.db.character_friends, f.character_id ≠ ch.uid ∧ f.his_friend_id ≠ ch.uid := by
  have hok := constraints_reachable hdb
  have hrow : (⟨ch.uid, acc.uid, ch.name⟩ : CharacterRow) ∈ s.world.db.characters :=
    (CharacterTable.mem_of_account (t := s.world.db.table)).1 (hlist.mem_iff.1 hch)
  have hnames : (chars.map (·.name)).Nodup := by
    refine (hlist.map _).nodup_iff.2 ?_
    simp only [Database.get_lobby_chars, List.map_map]
    exact hok.nicknames.sublist (List.filter_sublist.map _)
  rw [← erase_answer hok hrow, ← ho]
  constructor
  · rintro ⟨s', hrun, hdeleted⟩
    cases ha : (s.world.begin o.env).db_answer with
    | none => rfl
    | some e =>
      obtain ⟨s'', hrun', hclosed, _⟩ := delete_refused hs hnames hch hr ha
      cases hrun.symm.trans hrun'
      rw [← is_open_of hdeleted.lobby_chars] at hclosed
      cases hclosed
  · exact delete_done hs hnames hch hok hrow hr

/-- Dora and Eve, of two accounts. -/
def dora_and_eve : Database :=
  ⟨two_accounts.accounts, [], [⟨1, 7, ascii "Dora"⟩, ⟨2, 8, ascii "Eve"⟩], [], 3⟩

def dora_and_eve_befriended : Database := { dora_and_eve with character_friends := [⟨1, 2⟩] }

theorem dora_and_eve_reachable : tablesMachine.Reachable dora_and_eve := by
  have hinit : tablesMachine.init { Database.empty with accounts := two_accounts.accounts } := ⟨by decide +kernel, rfl⟩
  have hdora : valid_nickname (ascii "Dora") := by decide +kernel
  have heve : valid_nickname (ascii "Eve") := by decide +kernel
  have h1 := call_answered { Database.empty with accounts := two_accounts.accounts } (.create_character _ 7) hdora
    (by decide +kernel)
  exact ((Machine.Reachable.init hinit).step h1).step (call_answered _ (.create_character _ 8) heve (by decide +kernel))

theorem dora_and_eve_befriended_reachable : tablesMachine.Reachable dora_and_eve_befriended :=
  dora_and_eve_reachable.step (call_answered _ (.friends (.make_friends 2 1)) trivial (by decide +kernel))

def dora_account : AccountData := ⟨7, ascii "dora", [], [], 0⟩

def dora_entry : LobbyCharacter := ⟨1, ascii "Dora"⟩

/-- Dora's user is in the lobby. -/
def dora_lobby (db : Database) : Server :=
  (Server.fresh db).put_client 0 ⟨.lobby_state dora_account [dora_entry], none, .awaiting_packet_poll, true, true⟩

theorem dora_in_lobby (db : Database) : (dora_lobby db).in_lobby 0 dora_account [dora_entry] := by
  simp [Server.in_lobby, dora_lobby, Server.put_client]

/-- A stranger is deleted. -/
theorem deletable_iff_unbefriended_dora :
    ∃ s', (deletes 0 (ascii "Dora")).run ((dora_lobby dora_and_eve).begin (quiet 0)) = .ok () s' ∧
      (dora_lobby dora_and_eve).Deleted 0 dora_account [dora_entry] dora_entry s' :=
  (deletable_iff_unbefriended (s := dora_lobby dora_and_eve) dora_and_eve_reachable (dora_in_lobby _)
    (by decide +kernel) (by decide +kernel) (by decide +kernel) (by decide +kernel)).2 (by decide +kernel)

/-- The first statement fails. -/
def refusing : Outside := ⟨⟨0, 0, 0, [some .other]⟩, fun _ _ => true⟩

/-- A friend is not, and her user is thrown out. -/
theorem dora_is_not_deleted :
    tablesMachine.Reachable dora_and_eve_befriended ∧
      (dora_lobby dora_and_eve_befriended).in_lobby 0 dora_account [dora_entry] ∧
      [dora_entry].Perm (dora_and_eve_befriended.get_lobby_chars dora_account.uid) ∧
      ((dora_lobby dora_and_eve_befriended).world.begin refusing.env).db_answer =
        (Statement.erase_character dora_entry.name).answer dora_and_eve_befriended ∧
      ∃ s', (deletes 0 (ascii "Dora")).run ((dora_lobby dora_and_eve_befriended).begin refusing) = .ok () s' ∧
        s'.is_open 0 = false ∧ s'.sent = [] ∧ s'.world.db = dora_and_eve_befriended ∧
        ¬ (dora_lobby dora_and_eve_befriended).Deleted 0 dora_account [dora_entry] dora_entry s' := by
  have hs := dora_in_lobby dora_and_eve_befriended
  have hr : lobby_state_recv_packet_factory.construct (.of (lobby_state_protocol.delete_character :: packed (ascii "Dora")))
      (lobby_state_protocol.delete_character :: packed (ascii "Dora")).length =
      .ok (.request_character_delete dora_entry.name) := by decide +kernel
  have ho : ((dora_lobby dora_and_eve_befriended).world.begin refusing.env).db_answer = some .other := rfl
  obtain ⟨s', hrun, hclosed, hsent, hdb⟩ :=
    delete_refused hs (List.nodup_singleton _) (List.mem_singleton.2 rfl) hr ho
  refine ⟨dora_and_eve_befriended_reachable, hs, by decide +kernel, by decide +kernel, s', hrun, hclosed, hsent, hdb,
    fun hdeleted => ?_⟩
  rw [← is_open_of hdeleted.lobby_chars] at hclosed
  cases hclosed

end tejk_it_izi
