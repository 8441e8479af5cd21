import TejkItIzi.Causes
import TejkItIzi.Constraints
import TejkItIzi.Draining
import TejkItIzi.FriendConsent
import TejkItIzi.Lib.Simulation
import TejkItIzi.PacketExceptions
/-!
# Restarts

The server keeps nothing but its database. Its process can end at any moment,
between two handlers or in one, and is started again on what is stored then.
What it stores changes only as sessions ask, so what a session was told of is
there after any number of restarts until a session asks for the contrary.
-/

namespace tejk_it_izi

open ProgLib

/-! ## What a handler writes -/

/-- The tables after the handler: it makes one change at most, and only one that a
session has asked for. -/
inductive Writes (s : Server) (hd : Handler) : Database → Prop
  | nothing : Writes s hd s.world.db
  | create (k acc chars name) : s.Executes hd k acc chars (.request_character_create name) → valid_nickname name →
    s.world.db.char_name_to_uid name = 0 → Writes s hd (s.world.db.create_character name acc.uid)
  | erase (k acc chars name ch) : s.Executes hd k acc chars (.request_character_delete name) →
    chars.find? (·.name = name) = some ch → Writes s hd (s.world.db.erase_character name)
  | befriend (p q) : s.asks hd p (.friend_add q.name) → s.world.online p → s.world.online q → q.id ≠ p.id →
    Writes s hd (s.world.db.make_friends q.id p.id)
  | unfriend (p name) : s.asks hd p (.friend_remove name) → s.world.online p →
    Writes s hd (s.world.db.remove_friends (s.world.db.char_name_to_uid name) p.id)

section writes

variable {s s' : Server} {hd : Handler} {k : SessionId} {c : MmoClient} {w w' : World} {g : Progress}
  {p : EntityPtr} {acc : AccountData} {chars : List LobbyCharacter}

theorem Writes.of_same {db : Database} (h : db = s.world.db) : Writes s hd db := h ▸ .nothing

/-- A statement that throws leaves the tables alone. -/
theorem Writes.committed {w0 : World} {st : Statement} {db : Database} (hdb : w0.db = s.world.db)
    (h : Writes s hd db) : Writes s hd (w0.committed st db).db := by
  unfold World.committed
  dsimp only
  split
  · exact h
  · exact .of_same hdb

theorem Destroyed.same_db {st : ClientState} {ps : List (SessionId × Packet)} (h : Destroyed k w st w' ps) :
    w'.db = w.db := by
  cases h with
  | ingame_state p acc w1 c ns hf hc =>
    cases hf
    rfl
  | other => rfl

theorem PreauthEffect.same_db {valid : Bytes → Bytes → Bool} {keys : Keys} (he : PreauthEffect k c w valid keys g) :
    g.world.db = w.db := by
  cases he with
  | lookup_fails key login w' hv hl | login key login acc w' hv hl =>
    have hdb := account_lookup_table w login
    rwa [hl] at hdb
  | unknown_opcode | malformed | bad_keys => rfl

theorem LobbyEffect.writes {request : LobbyRequest} (he : LobbyEffect k c s.world acc chars request g)
    (hexec : s.Executes hd k acc chars request) : Writes s hd g.world.db := by
  cases he with
  | create name hfull hname hfree => exact .create k acc chars name hexec hname hfree
  | delete name ch hf =>
    have hname : ch.name = name := by simpa using List.find?_some hf
    show Writes s hd (s.world.db.erase_character ch.name)
    rw [hname]
    exact .erase k acc chars name ch hexec hf
  | select name ch w' hf hfree hef =>
    generalize hres : (none : Option StdException) = res at hef
    cases hef with
    | register_me => exact .nothing
    | register_me_fails _ e => cases hres
  | _ => exact .nothing

theorem IngameEffect.writes {request : IngameRequest} (he : IngameEffect k c s.world p acc request g)
    (hok : WorldOk s.world) (hasks : s.asks hd p request) : Writes s hd g.world.db := by
  have friends {op : FriendOp} {res : Option StdException} {w' : World} (hop : request.friend_op p = some op)
      (hperm : op.Permitted s.world) (hef : FriendEffect s.world op res w') : Writes s hd w'.db := by
    cases hef with
    | add_match p' name q l l' hl hname hid =>
      cases request <;> cases hop
      obtain ⟨hq, hon⟩ := hok.friends_ok.same_players.by_name name q hname
      subst hq
      exact .committed rfl (.befriend p q hasks hperm hon hid)
    | remove_offline p' name l id hans hl hid =>
      cases request <;> cases hop
      subst hid
      exact .committed rfl (.unfriend p name hasks hperm)
    | remove_online p' name l q l' hans hl hid =>
      cases request <;> cases hop
      rw [← hid]
      exact .committed rfl (.unfriend p name hasks hperm)
    | _ => exact .nothing
  cases he with
  | ignored | log_off | chat => exact .nothing
  | friends request op w' hop hperm hef | friends_fail request op e w' hop hperm hef =>
    have hwrites := friends hop hperm hef
    exact hwrites

theorem HandlerEffect.writes (he : HandlerEffect s hd s') (hok : ServerOk s) : Writes s hd s'.world.db := by
  cases he with
  | on_recv k data size c g hc hr hsize he =>
    cases he with
    | preauth _ hst hp => exact .of_same hp.same_db
    | lobby acc chars request _ hst hp hl => exact hl.writes ⟨data, size, c, rfl, hc, hst, hp⟩
    | ingame p acc request _ hst hp hl =>
      have hmine : p.my_session = k := hok.own k c p hc (.inl (by rw [show c.current_state = _ from hst]; rfl))
      refine hl.writes hok.world ⟨acc, data, size, ⟨?_, c, ?_, hst⟩, hp⟩
      · rw [hmine]
      · rw [hmine]
        exact hc
    | lobby_malformed | ingame_malformed => exact .nothing
  | transition k rest c st w ps hs hc hst hd =>
    refine .of_same ?_
    show (Progress.started _ k st).world.db = s.world.db
    rw [started_world]
    exact hd.same_db
  | finalize k rest c w ps hs hc hd => exact .of_same hd.same_db
  | periodic_cleanup w he =>
    cases he
    exact .nothing
  | on_accept | on_error | lobby_chars_loaded | load | periodic_broadcast => exact .nothing

/-- A handler that does not return has written nothing. -/
theorem HandlerDeath.same_db (he : HandlerDeath s hd s') : s'.world.db = s.world.db := by
  cases he with
  | on_recv k data size c f g hc hr hsize hn he =>
    cases he with
    | preauth e g hst hesc =>
      generalize hkeys : preauth_state.read data size = keys at hesc
      cases hesc with
      | no_opcode => rfl
      | lookup_throws key login w' hl =>
        have hdb := account_lookup_table s.world login
        rwa [hl] at hdb
    | select acc chars name ch w' hst hr hf hclash =>
      cases hclash <;> rfl
  | load => rfl

end writes

/-! ## Why a process ends -/

/-- The handler brings the process down. -/
def Server.EndsIn (s : Server) : Handler → Prop
  | .on_recv k data size => ∃ c, s.clients k = some c ∧ EndsServer s c data size
  | .next_load => s.world.db_answer ≠ none
  | .on_accept _ | .on_error _ | .next_task | .periodic_broadcast | .periodic_cleanup => False

section ends

variable {s t : Server} {hd : Handler} {o : Outside}

/-- A load whose statement throws is not caught. -/
theorem next_load_fails {e : StdException} (ha : s.world.db_answer = some e) {l : SessionId × Nat}
    {rest : List (SessionId × Nat)} (hs : s.database_strand = l :: rest) :
    ∃ t, Handler.next_load.run s = .error (.exception e) t := by
  have hchars : psql_facade.get_lobby_chars l.2 s.world = .error (.exception e) (s.world.executed (.lobby_chars l.2)) :=
    bind_error (psql_facade.exec_fails ha _) _
  have hworld : in_world (psql_facade.get_lobby_chars l.2) { s with database_strand := rest } =
      .error (.exception e)
        (({ s with database_strand := rest } : Server).put_world (s.world.executed (.lobby_chars l.2))) := by
    unfold in_world
    rw [hchars]
  rw [next_load_run hs]
  exact ⟨_, bind_error hworld _⟩

theorem handler_death (hok : ServerOk s) (ha : hd.Admitted s o) {f : Fault} (hrun : hd.run (s.begin o) = .error f t) :
    HandlerDeath (s.begin o) hd t := by
  rcases handler_ends hok ha with ⟨s', _, hrun'⟩ | ⟨f', t', hdeath, hrun'⟩
  · rw [hrun'] at hrun
    cases hrun
  · rw [hrun'] at hrun
    cases hrun
    exact hdeath

theorem handler_dies_iff (hok : ServerOk s) (ha : hd.Admitted s o) :
    (∃ f t, hd.run (s.begin o) = .error f t) ↔ (s.begin o).EndsIn hd := by
  have hb := hok.begin o
  have henabled := ha.enabled
  constructor
  · rintro ⟨f, t, hrun⟩
    cases handler_death hok ha hrun with
    | on_recv k data size c f' g hc hr hsize hdies => exact ⟨c, hc, (endsServer_iff hsize).2 hdies⟩
    | load k id rest c hs hc =>
      intro hanswer
      obtain ⟨s', hreturns⟩ := next_load_returns hanswer hs
      rw [hreturns] at hrun
      cases hrun
  · intro hends
    cases hd with
    | on_recv k data size =>
      obtain ⟨c, hc, hends⟩ := hends
      obtain ⟨⟨c', hc', hr⟩, hsize⟩ := henabled
      cases hc.symm.trans hc'
      rcases on_recv_run hb rfl hc hr ha.new_entity ha.new_room data size with ⟨hn, _⟩ | ⟨_, f, g, _, hrun⟩
      · exact absurd ((endsServer_iff hsize).1 hends) hn
      · exact ⟨f, _, hrun⟩
    | next_load =>
      cases hs : s.database_strand with
      | nil => exact absurd hs henabled
      | cons l rest =>
        obtain ⟨e, he⟩ := Option.ne_none_iff_exists'.1 hends
        obtain ⟨t, hrun⟩ := next_load_fails (s := s.begin o) he hs
        exact ⟨_, t, hrun⟩
    | _ => exact hends.elim

/-- In every state a tame run reaches, and for every tame handler there: the timers,
the tasks, a failed receive and a new connection are survived, whatever the database
answers; a load is unless its statement throws, and a packet unless it is one of
those that end the server. The tables are then what they were before the handler.
Every statement is read as it is meant, and every packet is written within its
buffer. -/
theorem process_ends_iff (h : (serverMachine.only Server.Tame).Reachable s) (ha : hd.Admitted s o)
    (htame : s.Tame (.handler hd)) :
    ((∃ f t, hd.run (s.begin o) = .error f t) ↔ (s.begin o).EndsIn hd) ∧
      (∀ f t, hd.run (s.begin o) = .error f t → t.world.db = s.world.db) ∧
      (∀ st ∈ (endState hd.run (s.begin o)).world.statements, st.Exact) ∧
      ∀ m ∈ (endState hd.run (s.begin o)).sent, m.packet.serialize.InBuffer := by
  have hok := reachable_server_ok h.of_only
  have hexact := plain_exact h.of_only ha htame.1
  refine ⟨handler_dies_iff hok ha, fun f t hrun => (handler_death hok ha hrun).same_db, hexact, ?_⟩
  have hn := reachable_names_ok h.of_only
  rcases handler_ends hok ha with ⟨s', he, hrun⟩ | ⟨f, t, he, hrun⟩
  · rw [endState_ok hrun]
    exact in_buffer_of_fitting (fitting_of_tame h) he (htame.2 hd rfl)
  · rw [endState_error hrun]
    exact fun m hm => Packet.inBuffer_of_size ((he.sizes (hok.begin o) (hn.begin o) rfl rfl).1 m hm)

/-- Dora has logged in, and the list of her characters cannot be loaded. -/
theorem dora_is_not_listed : ∃ s t, (serverMachine.only Server.Tame).Reachable s ∧
    Handler.next_load.run (s.begin refusing) = .error (.exception .other) t ∧
    (s.begin refusing).EndsIn .next_load ∧ t.world.db = s.world.db := by
  obtain ⟨s, hs, hv, honly⟩ := play_fresh_quoteless [0] ((enters_lobby 0 (ascii "dora")).take 3)
    (fun s => s.outcome [0] refusing .next_load fun _ => ()) (some (.error (.exception .other)))
    two_accounts_init (by decide +kernel) (by decide +kernel) (by decide +kernel)
  obtain ⟨ha, t, hrun⟩ := outcome_error (reachable_server_ok hs.of_only) honly hv
  have htame : s.Tame (.handler .next_load) := by
    refine ⟨Handler.plain_sound rfl s, ?_⟩
    rintro _ ⟨⟩
    trivial
  obtain ⟨hiff, hsame, _⟩ := process_ends_iff hs ha htame
  exact ⟨s, t, hs, hrun, hiff.1 ⟨_, t, hrun⟩, hsame _ t hrun⟩

end ends

/-! ## Processes, one after another -/

inductive RestartEvent where
  | server (ev : ServerEvent)
  /-- The process has ended between two handlers, and another one starts. -/
  | restart
  /-- It has ended in this handler, after what the handler stores. -/
  | restart_in (hd : Handler)

/-- A handler that fails ends the process, and so does a kill at any moment. A
handler writes once at most, so the tables are then as before it or as after it. -/
def restartMachine : Machine Server RestartEvent where
  init := schemaMachine.init
  step s ev s' := match ev with
    | .server ev => serverMachine.step s ev s'
    | .restart => s' = .fresh s.world.db
    | .restart_in hd => ∃ o, hd.Admitted s o ∧ s' = .fresh (endState hd.run (s.begin o)).world.db

/-- The handler that ran. -/
def RestartEvent.handler : RestartEvent → Option Handler
  | .server (.handler hd) | .restart_in hd => some hd
  | .server .reorder | .restart => none

section restarts

variable {s s' : Server} {ev : RestartEvent} {hd : Handler} {o : Outside}

theorem Writes.of_begin {db : Database} (h : Writes (s.begin o) hd db) : Writes s hd db := by
  cases h with
  | nothing => exact .nothing
  | create k acc chars name hexec hname hfree => exact .create k acc chars name hexec hname hfree
  | erase k acc chars name ch hexec hf => exact .erase k acc chars name ch hexec hf
  | befriend p q hasks hp hq hne => exact .befriend p q hasks hp hq hne
  | unfriend p name hasks hp => exact .unfriend p name hasks hp

/-- What is stored after a handler, however it ends. -/
theorem end_writes (hok : ServerOk s) (ha : hd.Admitted s o) : Writes s hd (endState hd.run (s.begin o)).world.db := by
  apply Writes.of_begin (o := o)
  rcases handler_ends hok ha with ⟨s', he, hrun⟩ | ⟨f, t, hdeath, hrun⟩
  · rw [endState_ok hrun]
    exact he.writes (hok.begin o)
  · rw [endState_error hrun]
    exact .of_same hdeath.same_db

/-- A step of the processes: rows in another order, or what some handler writes. -/
theorem restart_step_writes (hok : ServerOk s) (hs : restartMachine.step s ev s') :
    (s.world.db.characters.Perm s'.world.db.characters ∧
      s.world.db.character_friends.Perm s'.world.db.character_friends) ∨
    ∃ hd, ev.handler = some hd ∧ Writes s hd s'.world.db := by
  cases ev with
  | server ev =>
    cases ev with
    | handler hd =>
      obtain ⟨o, ha, hr⟩ := hs
      have hw := end_writes hok ha
      rw [endState_ok hr] at hw
      exact .inr ⟨hd, rfl, hw⟩
    | reorder =>
      obtain ⟨w, hr, _, rfl⟩ := hs
      exact .inl ⟨hr.characters, hr.character_friends⟩
  | restart =>
    obtain rfl := hs
    exact .inl ⟨.refl _, .refl _⟩
  | restart_in hd =>
    obtain ⟨o, ha, rfl⟩ := hs
    exact .inr ⟨hd, rfl, end_writes hok ha⟩

/-- What is written is fit to start from. -/
theorem Writes.startable {db : Database} (h : Writes s hd db) (hr : schemaMachine.Reachable s) :
    schemaMachine.init (.fresh db) := by
  have hfirst := schema_first_smaller hr
  have hrows := (reachable_names_ok (schema_is_server hr)).rows
  have hk := schema_keyed hr
  suffices hall : db.FirstSmaller ∧ (∀ r ∈ db.characters, valid_nickname r.nickname) ∧ db.table.Keyed from
    ⟨db, rfl, hall.2.1, hall.1, hall.2.2⟩
  cases h with
  | nothing => exact ⟨hfirst, hrows, hk⟩
  | create k acc chars name hexec hname hfree =>
    refine ⟨hfirst, ?_, hk.insert (hk.free hfree) acc.uid⟩
    intro r hr
    rcases List.mem_append.1 hr with hr | hr
    · exact hrows r hr
    · rw [List.mem_singleton.1 hr]
      exact hname
  | erase k acc chars name ch hexec hf =>
    exact ⟨hfirst, fun r hr => hrows r (List.mem_filter.1 hr).1, hk.remove name⟩
  | befriend p q hasks hp hq hne => exact ⟨hfirst.make_friends hne, hrows, hk⟩
  | unfriend p name hasks hp => exact ⟨hfirst.remove_friends _ _, hrows, hk⟩

theorem restart_step (hr : schemaMachine.Reachable s) (hs : restartMachine.step s ev s') : schemaMachine.Reachable s' := by
  cases ev with
  | server ev => exact hr.step hs
  | restart =>
    obtain rfl := hs
    have hwrites : Writes s .periodic_cleanup s.world.db := .nothing
    exact .init (hwrites.startable hr)
  | restart_in hd =>
    obtain ⟨o, ha, rfl⟩ := hs
    exact .init ((end_writes (schema_server_ok hr) ha).startable hr)

/-- Whatever has happened to the processes before, one process could have come there. -/
theorem restart_ok (h : restartMachine.Reachable s) : schemaMachine.Reachable s :=
  Machine.Reachable.keeps (M := restartMachine) (I := schemaMachine.Reachable) (fun _ h0 => .init h0)
    (fun _ _ _ => restart_step) h

end restarts

/-! ## What is stored -/

/-- A session logged in to the account of the row asks for a character of that name. -/
def Creates (x : Taken Server RestartEvent) (row : CharacterRow) : Prop :=
  ∃ hd k acc chars, x.event.handler = some hd ∧
    x.pre.Executes hd k acc chars (.request_character_create row.nickname) ∧ acc.uid = row.owner_account_id

/-- A session that lists a character of that name, this one or another, asks to delete it. -/
def Erases (x : Taken Server RestartEvent) (name : Bytes) : Prop :=
  ∃ hd k acc chars, x.event.handler = some hd ∧ x.pre.Executes hd k acc chars (.request_character_delete name) ∧
    ∃ ch ∈ chars, ch.name = name

/-- One of the two asks for the other, and both are in the game. -/
def Befriends (x : Taken Server RestartEvent) (a b : Nat) : Prop :=
  ∃ hd p q, x.event.handler = some hd ∧ x.pre.asks hd p (.friend_add q.name) ∧ x.pre.world.online p ∧
    x.pre.world.online q ∧ ((p.id = a ∧ q.id = b) ∨ (p.id = b ∧ q.id = a))

/-- One of the two, in the game, asks to remove the other by name. -/
def Unfriends (x : Taken Server RestartEvent) (a b : Nat) : Prop :=
  ∃ hd p name, x.event.handler = some hd ∧ x.pre.asks hd p (.friend_remove name) ∧ x.pre.world.online p ∧
    ((p.id = a ∧ x.pre.world.db.char_name_to_uid name = b) ∨ (p.id = b ∧ x.pre.world.db.char_name_to_uid name = a))

section stored

variable {s s' : Server} {ev : RestartEvent} {row : CharacterRow} {a b : Nat}

/-- A character comes or goes only as a session asks. -/
theorem characters_step (hok : ServerOk s) (hs : restartMachine.step s ev s') :
    (row ∈ s'.world.db.characters → row ∈ s.world.db.characters ∨ Creates ⟨s, ev, s'⟩ row) ∧
      (row ∈ s.world.db.characters → row ∈ s'.world.db.characters ∨ Erases ⟨s, ev, s'⟩ row.nickname) := by
  rcases restart_step_writes hok hs with ⟨hp, _⟩ | ⟨hd, hev, hw⟩
  · exact ⟨fun h => .inl (hp.mem_iff.2 h), fun h => .inl (hp.mem_iff.1 h)⟩
  · generalize s'.world.db = db at hw
    cases hw with
    | create k acc chars name hexec hname hfree =>
      refine ⟨fun h => ?_, fun h => .inl (List.mem_append_left _ h)⟩
      rcases List.mem_append.1 h with h | h
      · exact .inl h
      · obtain rfl := List.mem_singleton.1 h
        exact .inr ⟨hd, k, acc, chars, hev, hexec, rfl⟩
    | erase k acc chars name ch hexec hf =>
      refine ⟨fun h => .inl (List.mem_filter.1 h).1, fun h => ?_⟩
      by_cases hname : row.nickname = name
      · subst hname
        have hch : ch.name = row.nickname := by simpa using List.find?_some hf
        exact .inr ⟨hd, k, acc, chars, hev, hexec, ch, List.mem_of_find?_eq_some hf, hch⟩
      · exact .inl (List.mem_filter.2 ⟨h, by simpa using hname⟩)
    | nothing | befriend | unfriend => exact ⟨.inl, .inl⟩

/-- So do friends. -/
theorem friendships_step (hr : schemaMachine.Reachable s) (hs : restartMachine.step s ev s') :
    (Friends s'.world a b → Friends s.world a b ∨ Befriends ⟨s, ev, s'⟩ a b) ∧
      (Friends s.world a b → Friends s'.world a b ∨ Unfriends ⟨s, ev, s'⟩ a b) := by
  rcases restart_step_writes (schema_server_ok hr) hs with ⟨_, hp⟩ | ⟨hd, hev, hw⟩
  · have hsame : Friends s'.world a b ↔ Friends s.world a b := by
      simp only [Friends, Database.mem_get_friends_of, hp.mem_iff]
    exact ⟨fun h => .inl (hsame.1 h), fun h => .inl (hsame.2 h)⟩
  · unfold Friends
    generalize s'.world.db = db at hw
    cases hw with
    | befriend p q hasks hp hq hne =>
      refine ⟨fun h => ?_, fun h => .inl (Database.mem_friends_make.2 (.inl h))⟩
      rcases Database.mem_friends_make.1 h with h | ⟨ha, hb⟩ | ⟨ha, hb⟩
      · exact .inl h
      · exact .inr ⟨hd, p, q, hev, hasks, hp, hq, .inr ⟨hb.symm, ha.symm⟩⟩
      · exact .inr ⟨hd, p, q, hev, hasks, hp, hq, .inl ⟨ha.symm, hb.symm⟩⟩
    | unfriend p name hasks hp =>
      have hremove := fun x y => Database.mem_friends_remove (x := x) (y := y) (a := s.world.db.char_name_to_uid name)
        (b := p.id) (schema_first_smaller hr)
      refine ⟨fun h => .inl ((hremove a b).1 h).1, fun h => ?_⟩
      by_cases hpair : (a = s.world.db.char_name_to_uid name ∧ b = p.id) ∨
          (a = p.id ∧ b = s.world.db.char_name_to_uid name)
      · refine .inr ⟨hd, p, name, hev, hasks, hp, ?_⟩
        rcases hpair with ⟨ha, hb⟩ | ⟨ha, hb⟩
        · exact .inr ⟨hb.symm, ha.symm⟩
        · exact .inl ⟨ha.symm, hb.symm⟩
      · exact .inl ((hremove a b).2 ⟨h, hpair⟩)
    | nothing | create | erase => exact ⟨.inl, .inl⟩

/-- The same along a run. -/
theorem stored_run {t : Server} {tr : List (Taken Server RestartEvent)} (ht : restartMachine.Reachable t)
    (h : restartMachine.Run t tr s) {x : Taken Server RestartEvent} (hx : x ∈ tr) :
    schemaMachine.Reachable x.pre ∧ restartMachine.step x.pre x.event x.post :=
  ⟨restart_ok (h.reachable_pre ht hx), h.step_of_mem hx⟩

end stored

section results

variable {s s0 t : Server} {tr l r : List (Taken Server RestartEvent)} {x : Taken Server RestartEvent}

/-- Over any number of processes: the server is in a state a server started once
can be in; whatever is stored was so at the start or came as a session asked, and
has been there since; and what was stored at the start is still, or went as a
session asked. -/
theorem stored_by_request (h0 : restartMachine.init s0) (h : restartMachine.Run s0 tr s) :
    serverMachine.Reachable s ∧
    (∀ row ∈ s.world.db.characters, row ∈ s0.world.db.characters ∨
      ∃ l x r, tr = l ++ x :: r ∧ Creates x row ∧ ∀ y ∈ x :: r, row ∈ y.post.world.db.characters) ∧
    (∀ row ∈ s0.world.db.characters, row ∈ s.world.db.characters ∨ ∃ x ∈ tr, Erases x row.nickname) ∧
    (∀ a b, Friends s.world a b → Friends s0.world a b ∨
      ∃ l x r, tr = l ++ x :: r ∧ Befriends x a b ∧ ∀ y ∈ x :: r, Friends y.post.world a b) ∧
    ∀ a b, Friends s0.world a b → Friends s.world a b ∨ ∃ x ∈ tr, Unfriends x a b := by
  have hrun := fun x hx => stored_run (.init h0) h (x := x) hx
  have hreach := schema_is_server (restart_ok ((Machine.Reachable.init h0).run h))
  refine ⟨hreach, fun row hrow => ?_, fun row hrow => ?_, fun a b hab => ?_, fun a b hab => ?_⟩
  · refine or_iff_not_imp_left.2 fun hno => h.since (L := fun s => row ∈ s.world.db.characters)
      (G := fun s => row ∈ s.world.db.characters) (A := fun x => Creates x row) hno ?_ hrow
    intro x hx hpost
    obtain ⟨hr, hs⟩ := hrun x hx
    exact ⟨(characters_step (schema_server_ok hr) hs).1 hpost, hpost⟩
  · refine h.kept (L := fun s => row ∈ s.world.db.characters) (fun x hx hpre => ?_) hrow
    obtain ⟨hr, hs⟩ := hrun x hx
    exact (characters_step (schema_server_ok hr) hs).2 hpre
  · refine or_iff_not_imp_left.2 fun hno => h.since (L := fun s => Friends s.world a b)
      (G := fun s => Friends s.world a b) (A := fun x => Befriends x a b) hno ?_ hab
    intro x hx hpost
    obtain ⟨hr, hs⟩ := hrun x hx
    exact ⟨(friendships_step hr hs).1 hpost, hpost⟩
  · refine h.kept (L := fun s => Friends s.world a b) (fun x hx hpre => ?_) hab
    obtain ⟨hr, hs⟩ := hrun x hx
    exact (friendships_step hr hs).2 hpre

end results

/-! ## What a session was told -/

section told

variable {s s' : Server} {hd : Handler} {m : Sent}

/-- Who is told that his character was created finds him stored. -/
theorem created_is_stored (he : HandlerEffect s hd s') (hok : ServerOk s) (hs : s.sent = []) (hq : s.world.notices = [])
    (hm : m ∈ s'.sent) {ch : LobbyCharacter} (hp : m.packet = .character_created ch) :
    ∃ acc chars, s.Executes hd m.session acc chars (.request_character_create ch.name) ∧
      (⟨ch.uid, acc.uid, ch.name⟩ : CharacterRow) ∈ s'.world.db.characters := by
  have hcaused := he.caused hok hs hq m hm
  rw [hp] at hcaused
  cases hcaused with
  | character_created chars id name hchooses =>
    obtain ⟨acc, data, size, ⟨rfl, c0, hc0, hst0⟩, hr0⟩ := hchooses
    refine ⟨acc, chars, ⟨data, size, c0, rfl, hc0, hst0, hr0⟩, ?_⟩
    cases he with
    | on_recv _ _ _ c g hc hr hsize he =>
      obtain rfl := Option.some.inj (hc0.symm.trans hc)
      have hmem := sent_progress hs m hm
      rw [hp] at hmem
      cases he with
      | lobby acc' chars' request _ hst hr' hl =>
        cases hst0.symm.trans hst
        cases hr0.symm.trans hr'
        cases hl with
        | create name hfull hname hfree =>
          cases List.mem_singleton.1 hmem
          exact List.mem_append_right _ List.mem_cons_self
        | create_refused | create_taken => cases List.mem_singleton.1 hmem
        | create_lookup_fails | create_fails => cases hmem
      | preauth _ hst => cases hst0.symm.trans hst
      | ingame p acc' request _ hst => cases hst0.symm.trans hst
      | lobby_malformed | ingame_malformed => cases hmem

/-- Both are told at once, and then the friendship is stored unless that throws. -/
theorem FriendEffect.told_friends {w w' : World} {p : EntityPtr} {asked name : Bytes} {res : Option StdException}
    {n : EntityPtr × Packet} (h : FriendEffect w (.process_req_friend_add p asked) res w') (hq : w.notices = [])
    (hn : n ∈ w'.notices) (hp : n.2 = .new_friendship name) :
    ∃ q, w.registry.name_to_character asked = some q ∧ ((n.1 = p ∧ name = asked) ∨ (n.1 = q ∧ name = p.name)) ∧
      (res = none → Friends w' p.id q.id) := by
  obtain ⟨listener, pk⟩ := n
  subst hp
  cases h with
  | add_match _ _ q l l' hl hname =>
    simp only [World.committed_notices, World.friended_notices, hq, List.nil_append, List.mem_cons, Prod.mk.injEq,
      Packet.new_friendship.injEq, List.not_mem_nil, or_false] at hn
    refine ⟨q, hname, hn, fun hnone => ?_⟩
    unfold Friends
    rw [World.committed_db _ _ _ _ _ hnone]
    exact Database.mem_friends_make.2 (.inr (.inr ⟨rfl, rfl⟩))
  | add_fail | add_waiting | add_recorded => simp [hq] at hn

/-- Who is told of a new friend finds the friendship stored, if the session that
asked has not been closed for it. -/
theorem befriended_is_stored (he : HandlerEffect s hd s') (hok : ServerOk s) (hs : s.sent = [])
    (hq : s.world.notices = []) (hm : m ∈ s'.sent) {name : Bytes} (hp : m.packet = .new_friendship name) :
    ∃ p q, s.asks hd p (.friend_add q.name) ∧ s.world.online p ∧ s.world.online q ∧
      ((m.session = p.my_session ∧ name = q.name) ∨ (m.session = q.my_session ∧ name = p.name)) ∧
      (s'.is_open p.my_session = true → Friends s'.world p.id q.id) := by
  have hcaused := he.caused hok hs hq m hm
  rw [hp] at hcaused
  obtain ⟨p, asked, hasks⟩ : ∃ p asked, s.asks hd p (.friend_add asked) := by
    cases hcaused with
    | friendship_made p _ hasks => exact ⟨p, _, hasks⟩
    | new_friendship p q hasks => exact ⟨p, _, hasks⟩
  have hthis := hasks
  obtain ⟨acc, data, size, ⟨rfl, c0, hc0, hst0⟩, hr0⟩ := hasks
  cases he with
  | on_recv _ _ _ c g hc hr hsize he =>
    obtain rfl := Option.some.inj (hc0.symm.trans hc)
    have hmem := sent_progress hs m hm
    rw [hp] at hmem
    cases he with
    | ingame p' acc' request _ hst hr' hl =>
      cases hst0.symm.trans hst
      cases hr0.symm.trans hr'
      have told {res : Option StdException} {w' : World}
          (hef : FriendEffect s.world (.process_req_friend_add p asked) res w') (hperm : s.world.online p)
          (hmem : (m.session, Packet.new_friendship name) ∈ w'.mails) :
          ∃ q, s.asks (.on_recv p.my_session data size) p (.friend_add q.name) ∧ s.world.online p ∧ s.world.online q ∧
            ((m.session = p.my_session ∧ name = q.name) ∨ (m.session = q.my_session ∧ name = p.name)) ∧
            (res = none → Friends w' p.id q.id) := by
        obtain ⟨n, hn, hk, hpk⟩ := mem_mails hmem
        obtain ⟨q, hreg, hto, hfriends⟩ := hef.told_friends hq hn hpk
        obtain ⟨hname, hon⟩ := hok.world.friends_ok.same_players.by_name asked q hreg
        refine ⟨q, by rw [hname]; exact hthis, hperm, hon, ?_, hfriends⟩
        have hsession : m.session = n.1.my_session := hk.symm
        rw [hname, hsession]
        exact hto.imp (fun h => ⟨by rw [h.1], h.2⟩) fun h => ⟨by rw [h.1], h.2⟩
      cases hl with
      | friends request op w' hop hperm hef =>
        cases hop
        obtain ⟨q, h1, h2, h3, h4, h5⟩ := told hef hperm hmem
        exact ⟨p, q, h1, h2, h3, h4, fun _ => h5 rfl⟩
      | friends_fail request op e w' hop hperm hef =>
        cases hop
        obtain ⟨q, h1, h2, h3, h4, _⟩ := told hef hperm hmem
        refine ⟨p, q, h1, h2, h3, h4, fun hopen => ?_⟩
        simp [Server.is_open, Server.progress, Progress.closing] at hopen
      | chat request op c' ns hop => cases hop
    | preauth _ hst => cases hst0.symm.trans hst
    | lobby acc' chars request _ hst => cases hst0.symm.trans hst
    | lobby_malformed | ingame_malformed => cases hmem

end told

section acknowledged

variable {s s0 : Server} {l r : List (Taken Server RestartEvent)} {x : Taken Server RestartEvent} {m : Sent}

/-- Only a handler that has ended sends. -/
theorem restart_step_sends {s' : Server} {ev : RestartEvent} (hok : ServerOk s) (hs : restartMachine.step s ev s')
    (hm : m ∈ s'.sent) :
    ∃ hd o, ev.handler = some hd ∧ ServerOk (s.begin o) ∧ HandlerEffect (s.begin o) hd s' := by
  cases ev with
  | server ev =>
    cases ev with
    | handler hd =>
      obtain ⟨o, ha, hr⟩ := hs
      obtain ⟨hb, he⟩ := handler_effect hok ha hr
      exact ⟨hd, o, rfl, hb, he⟩
    | reorder =>
      obtain ⟨w, _, _, rfl⟩ := hs
      cases hm
  | restart =>
    obtain rfl := hs
    cases hm
  | restart_in hd =>
    obtain ⟨o, _, rfl⟩ := hs
    cases hm

/-- What a session was told outlives the process: a character it was told of is
stored for its account until some session that lists a character of that name asks
to delete it, and a new friendship, unless the session that asked for it was closed in that very
handler, until one of the two asks to remove the other. -/
theorem acknowledged_survives (h0 : restartMachine.init s0) (h : restartMachine.Run s0 (l ++ x :: r) s)
    (hm : m ∈ x.post.sent) :
    (∀ ch, m.packet = .character_created ch → ∃ hd acc chars, x.event.handler = some hd ∧
      x.pre.Executes hd m.session acc chars (.request_character_create ch.name) ∧
      ((⟨ch.uid, acc.uid, ch.name⟩ : CharacterRow) ∈ s.world.db.characters ∨ ∃ y ∈ r, Erases y ch.name)) ∧
    ∀ name, m.packet = .new_friendship name → ∃ hd p q, x.event.handler = some hd ∧
      x.pre.asks hd p (.friend_add q.name) ∧ x.pre.world.online p ∧ x.pre.world.online q ∧
      ((m.session = p.my_session ∧ name = q.name) ∨ (m.session = q.my_session ∧ name = p.name)) ∧
      (x.post.is_open p.my_session = true → Friends s.world p.id q.id ∨ ∃ y ∈ r, Unfriends y p.id q.id) := by
  obtain ⟨t, h1, h2⟩ := Machine.run_append.1 h
  obtain ⟨rfl, hs, h3⟩ := Machine.run_cons.1 h2
  have hreach := (Machine.Reachable.init h0).run h1
  have hrun := fun y hy => stored_run (hreach.step hs) h3 (x := y) hy
  obtain ⟨hd, o, hev, hb, he⟩ := restart_step_sends (schema_server_ok (restart_ok hreach)) hs hm
  refine ⟨fun ch hp => ?_, fun name hp => ?_⟩
  · obtain ⟨acc, chars, hexec, hrow⟩ := created_is_stored he hb rfl rfl hm hp
    refine ⟨hd, acc, chars, hev, hexec, ?_⟩
    refine h3.kept (L := fun s => (⟨ch.uid, acc.uid, ch.name⟩ : CharacterRow) ∈ s.world.db.characters)
      (R := fun y => Erases y ch.name) (fun y hy hpre => ?_) hrow
    obtain ⟨hr, hstep⟩ := hrun y hy
    exact (characters_step (schema_server_ok hr) hstep).2 hpre
  · obtain ⟨p, q, hasks, hon, hon', hto, hfriends⟩ := befriended_is_stored he hb rfl rfl hm hp
    refine ⟨hd, p, q, hev, hasks, hon, hon', hto, fun hopen => ?_⟩
    refine h3.kept (L := fun s => Friends s.world p.id q.id) (R := fun y => Unfriends y p.id q.id) (fun y hy hpre => ?_)
      (hfriends hopen)
    obtain ⟨hr, hstep⟩ := hrun y hy
    exact (friendships_step hr hstep).2 hpre

end acknowledged

section witness

theorem two_accounts_restart : restartMachine.init (.fresh two_accounts) := two_accounts_init

theorem restart_run {s : Server} {tr : List (Taken Server ServerEvent)}
    (h : schemaMachine.Run (.fresh two_accounts) tr s) :
    restartMachine.Run (.fresh two_accounts) (tr.map fun x => ⟨x.pre, .server x.event, x.post⟩) s :=
  h.image id (fun _ => RestartEvent.server) (.init two_accounts_init) fun _ _ _ _ h => h

def dora_creates_bob : List Handler := enters_lobby 0 (ascii "dora") ++ [creates 0 (ascii "Bob")]

/-- Dora's second character is stored when the next process starts. -/
theorem bob_is_stored : ∃ s l x r, restartMachine.Run (.fresh two_accounts) (l ++ x :: r) s ∧ s.clients 0 = none ∧
    Creates x ⟨10, 7, ascii "Bob"⟩ ∧ (⟨10, 7, ascii "Bob"⟩ : CharacterRow) ∈ s.world.db.characters := by
  obtain ⟨tr, s, hr, hv, _⟩ := play_fresh [0] (fun _ => true) dora_creates_bob (fun s => s.world.db.characters)
    [⟨9, 7, ascii "Dora"⟩, ⟨10, 7, ascii "Bob"⟩] two_accounts_init (by decide +kernel)
  have hrestart : restartMachine.step s .restart (.fresh s.world.db) := rfl
  have hrun := (restart_run hr).snoc hrestart
  have hrow : (⟨10, 7, ascii "Bob"⟩ : CharacterRow) ∈ s.world.db.characters := by
    rw [hv]
    exact List.mem_cons_of_mem _ List.mem_cons_self
  have hnew : (⟨10, 7, ascii "Bob"⟩ : CharacterRow) ∉ two_accounts.characters := by decide +kernel
  obtain ⟨l, x, r, htr, hx, _⟩ := ((stored_by_request two_accounts_restart hrun).2.1 _ hrow).resolve_left hnew
  rw [htr] at hrun
  exact ⟨_, l, x, r, hrun, rfl, hx, hrow⟩

/-- Nobody has deleted him: the process ended right after Dora was told. -/
theorem bob_survives : ∃ s l x, restartMachine.Run (.fresh two_accounts) (l ++ [x, ⟨x.post, .restart, s⟩]) s ∧
    (∃ m ∈ x.post.sent, m.packet = .character_created ⟨10, ascii "Bob"⟩) ∧
    ∃ acc : AccountData, (⟨10, acc.uid, ascii "Bob"⟩ : CharacterRow) ∈ s.world.db.characters := by
  obtain ⟨tr, s, hr, hv, _, honly, _⟩ := play_fresh [0] (fun _ => true) (enters_lobby 0 (ascii "dora"))
    (fun s => s.outcome [0] (quiet 5) (creates 0 (ascii "Bob")) fun s' => s'.sent.map (·.packet))
    (some (.ok [.character_created ⟨10, ascii "Bob"⟩])) two_accounts_init (by decide +kernel)
  obtain ⟨ha, s', hrun', hsent⟩ := outcome_ok (schema_server_ok ⟨_, tr, two_accounts_init, hr⟩) honly hv
  obtain ⟨m, hm, hp⟩ : ∃ m ∈ s'.sent, m.packet = .character_created ⟨10, ascii "Bob"⟩ :=
    List.mem_map.1 (by rw [hsent]; exact List.mem_singleton_self _)
  have hcreate : restartMachine.step s (.server (.handler (creates 0 (ascii "Bob")))) s' := ⟨quiet 5, ha, hrun'⟩
  have hrestart : restartMachine.step s' .restart (.fresh s'.world.db) := rfl
  have hrun := ((restart_run hr).snoc hcreate).snoc hrestart
  rw [List.append_assoc] at hrun
  obtain ⟨hd, acc, chars, _, _, hstored⟩ := (acknowledged_survives two_accounts_restart hrun hm).1 _ hp
  refine ⟨_, _, ⟨s, .server (.handler (creates 0 (ascii "Bob"))), s'⟩, hrun, ⟨m, hm, hp⟩, acc, ?_⟩
  refine hstored.resolve_right ?_
  rintro ⟨y, hy, hd', k, acc', chars', hev, _⟩
  rw [List.mem_singleton.1 hy] at hev
  cases hev

end witness

end tejk_it_izi
