import TejkItIzi.Continuations
import TejkItIzi.LobbyLists
import TejkItIzi.Statements
/-!
# Selections

A selected character is registered at once, and must be in the game with nobody
else. That rests on the table: as long as a character that is selected or deleted
is stored and idle, whoever is in the game is stored for his account, and the ids
and names of the table are unique.
-/

namespace tejk_it_izi

open ProgLib

/-- The character of the seat is stored, for its account. -/
def Seat.Stored (st : Seat) (t : CharacterTable) : Prop :=
  ∀ acc p, st.account = some acc → st.character = some p → (⟨p.id, acc.uid, p.name⟩ : CharacterRow) ∈ t.rows

section moves

variable {k : SessionId} {db : Database} {valid : Bytes → Bytes → Bool} {occasion : Occasion} {st st' other : Seat}
  {t' : CharacterTable}

theorem Move.stored_own (hm : Move k db valid occasion st st' t') (h : st.Stored db.table)
    (hselect : ∀ acc chars name ch, occasion = .request (.request_character_select name) → st = .lobby acc chars →
      chars.find? (·.name = name) = some ch → ch ∈ db.table.of_account acc.uid) : st'.Stored t' := by
  have nobody {st : Seat} {t : CharacterTable} (hn : st.character = none) : st.Stored t := by
    intro acc p _ hp
    rw [hn] at hp
    cases hp
  cases hm with
  | stays => exact h
  | login | fetch | arrive | create | delete | back | close_lobby | finalize => exact nobody rfl
  | select acc chars name ch p hf hid hname =>
    intro acc' p' hacc hp
    cases hacc
    cases hp
    have hch : ch.name = name := by simpa using List.find?_some hf
    rw [hid, hname, ← hch]
    exact CharacterTable.mem_of_account.1 (hselect acc chars name ch rfl rfl hf)
  | enter acc p | leave acc p | close_game acc p => exact h

theorem Move.stored_other (hm : Move k db valid occasion st st' t') (hk : db.table.Keyed) (h : other.Stored db.table)
    (hdelete : ∀ acc chars name ch, occasion = .request (.request_character_delete name) → st = .lobby acc chars →
      chars.find? (·.name = name) = some ch → ch ∈ db.table.of_account acc.uid ∧
      ∀ b p, other.account = some b → other.character = some p → b.uid = acc.uid → p.id ≠ ch.uid) :
    other.Stored t' := by
  cases hm with
  | create acc chars name => exact fun b p hb hp => List.mem_append.2 (.inl (h b p hb hp))
  | delete acc chars name ch hf =>
    intro b p hb hp
    obtain ⟨hrow, hidle⟩ := hdelete acc chars name ch rfl rfl hf
    have hch : ch.name = name := by simpa using List.find?_some hf
    refine List.mem_filter.2 ⟨h b p hb hp, ?_⟩
    -- Otherwise the row to be removed is that of `p`.
    have hne : p.name ≠ name := by
      intro hn
      have hsame := hk.same_nickname (h b p hb hp) (CharacterTable.mem_of_account.1 hrow) (hn.trans hch.symm)
      exact hidle b p hb hp (congrArg (·.owner_account_id) hsame) (congrArg (·.id) hsame)
    simpa using hne
  | _ => exact h

end moves

/-- A listed character that is selected or deleted is still stored for the
account, and no other session of the account has it in the game. -/
def Server.TouchesIdle (s : Server) (ev : ServerEvent) : Prop :=
  ∀ hd k acc chars request name ch, ev = .handler hd → s.Executes hd k acc chars request →
    (request = .request_character_select name ∨ request = .request_character_delete name) →
    chars.find? (·.name = name) = some ch →
    ch ∈ s.world.db.get_lobby_chars acc.uid ∧
      ∀ j c a p, j ≠ k → s.clients j = some c → c.LoggedIn a → a.uid = acc.uid → c.Holds p → p.id ≠ ch.uid

/-- A character that all of the game knows. -/
structure World.Registered (w : World) (p : EntityPtr) : Prop where
  by_id : w.registry.id_to_character p.id = some p
  by_name : w.registry.name_to_character p.name = some p
  has_list : (w.friends.friendlist_of_id p.id).isSome
  has_entity : (w.chat.entities p).isSome

theorem WorldOk.registered {w : World} (h : WorldOk w) {p : EntityPtr} (hp : w.online p) : w.Registered p :=
  ⟨hp, (h.friends_ok.same_players.by_id p.id p hp).2, h.friends_ok.same_players.online_list p.id p hp, (h.players p).2 hp⟩

section selections

variable {s s' : Server} {k : SessionId} {c : MmoClient} {acc : AccountData} {ev : ServerEvent}

structure StoredOk (s : Server) : Prop where
  ok : ServerOk s
  keyed : s.world.db.table.Keyed
  first_smaller : s.world.db.FirstSmaller
  stored : ∀ k, (s.seat k).Stored s.world.db.table

theorem stored_ok_init (h : schemaMachine.init s) : StoredOk s := by
  obtain ⟨db, rfl, _, hfirst, hk⟩ := h
  exact ⟨server_ok_fresh db, hk, hfirst, fun k acc p hacc => by cases hacc⟩

theorem stored_ok_step (h : StoredOk s) (hc : s.TouchesIdle ev) (hs : schemaMachine.step s ev s') : StoredOk s' := by
  refine ⟨server_ok_step h.ok hs, keyed_step h.ok h.keyed hs, first_smaller_step h.ok hs h.first_smaller, ?_⟩
  rcases schema_step h.ok hs with ⟨hd, o, hev, _, hm⟩ | ⟨hseat, hp, _⟩
  · refine hm.keeps (I := Seat.Stored) (fun k occasion _ _ hasked hm => ?_) fun k occasion _ _ j hasked hm hj => ?_
    · refine hm.stored_own (h.stored k) fun acc chars name ch hreq hst hf => ?_
      subst hreq
      exact (hc hd k acc chars _ name ch hev (executes_of_asked hasked hst) (.inl rfl) hf).1
    · refine hm.stored_other h.keyed (h.stored j) fun acc chars name ch hreq hst hf => ?_
      subst hreq
      obtain ⟨hrow, hidle⟩ := hc hd k acc chars _ name ch hev (executes_of_asked hasked hst) (.inr rfl) hf
      refine ⟨hrow, fun b p hb hp hbu => ?_⟩
      obtain ⟨cj, hcj⟩ := client_of_seat hb
      exact hidle j cj b p hj hcj ((h.ok.logged_in_iff hcj).1 hb) hbu ((h.ok.holds_iff hcj).1 hp)
  · intro k acc p hacc hchar
    rw [hseat] at hacc hchar
    exact hp.mem_iff.1 (h.stored k acc p hacc hchar)

/-- Whoever is in the game is stored for the account of his session. -/
theorem StoredOk.row_of_online (h : StoredOk s) {q : EntityPtr} (hq : s.world.online q) :
    ∃ cq a, s.clients q.my_session = some cq ∧ cq.LoggedIn a ∧ cq.Holds q ∧
      (⟨q.id, a.uid, q.name⟩ : CharacterRow) ∈ s.world.db.characters := by
  obtain ⟨cq, hcq, hholds⟩ := (h.ok.players q).1 hq
  have hchar := (h.ok.holds_iff hcq).2 hholds
  obtain ⟨a, ha⟩ := Seat.account_of_character hchar
  exact ⟨cq, a, hcq, (h.ok.logged_in_iff hcq).1 ha, hholds, h.stored _ a q ha hchar⟩

/-- The character that is selected is in the game with nobody. -/
theorem StoredOk.free (h : StoredOk s) {hd : Handler} (hc : s.TouchesIdle (.handler hd)) {chars : List LobbyCharacter}
    {name : Bytes} {ch : LobbyCharacter} (hexec : s.Executes hd k acc chars (.request_character_select name))
    (hseat : s.seat k = .lobby acc chars) (hf : chars.find? (·.name = name) = some ch) :
    s.world.registry.id_to_character ch.uid = none ∧ s.world.registry.name_to_character ch.name = none := by
  obtain ⟨hrow, hidle⟩ := hc hd k acc chars _ name ch rfl hexec (.inl rfl) hf
  have hrow' := CharacterTable.mem_of_account (t := s.world.db.table) |>.1 hrow
  -- Another row of the table has another id and another name.
  have nobody (q : EntityPtr) (hq : s.world.online q)
      (hsame : ∀ a : AccountData, (⟨q.id, a.uid, q.name⟩ : CharacterRow) ∈ s.world.db.characters →
        (⟨q.id, a.uid, q.name⟩ : CharacterRow) = ⟨ch.uid, acc.uid, ch.name⟩) : False := by
    obtain ⟨cq, a, hcq, hlog, hholds, hmem⟩ := h.row_of_online hq
    have heq := hsame a hmem
    by_cases hj : q.my_session = k
    · have hchar := (h.ok.holds_iff hcq).2 hholds
      rw [hj, hseat] at hchar
      cases hchar
    · exact hidle _ cq a q hj hcq hlog (congrArg (·.owner_account_id) heq) hholds (congrArg (·.id) heq)
  constructor
  · rw [Option.eq_none_iff_forall_ne_some]
    intro q hq
    obtain ⟨hid, _⟩ := h.ok.world.friends_ok.same_players.by_id ch.uid q hq
    exact nobody q (by rw [World.online, hid]; exact hq) fun a hmem => h.keyed.same_id hmem hrow' hid
  · rw [Option.eq_none_iff_forall_ne_some]
    intro q hq
    obtain ⟨hname, hon⟩ := h.ok.world.friends_ok.same_players.by_name ch.name q hq
    exact nobody q hon fun a hmem => h.keyed.same_nickname hmem hrow' hname

theorem StoredOk.no_assertion_fails (h : StoredOk s) {hd : Handler} {o : Outside} (hc : s.TouchesIdle (.handler hd))
    (ha : hd.Admitted s o) {t : Server} : hd.run (s.begin o) ≠ .error .assertion_failed t := by
  intro hr
  rcases handler_faults h.ok ha hr with ⟨e, he⟩ | ⟨_, k, acc, chars, name, ch, w, hexec, hseat, hf, hclash⟩
  · cases he
  · obtain ⟨hid, hname⟩ := h.free hc hexec hseat hf
    cases hclash with
    | id_in_game hn => exact hn hid
    | own_friend _ _ hself => exact World.not_own_friend h.first_smaller _ hself
    | name_in_game _ _ hn => exact hn hname

/-- Two states that hold the same id, or the same name, hold the same character. -/
theorem ServerOk.held_once (h : ServerOk s) {j : SessionId} {cj ck : MmoClient} {p q : EntityPtr}
    (hcj : s.clients j = some cj) (hck : s.clients k = some ck) (hp : cj.Holds p) (hq : ck.Holds q)
    (hsame : p.id = q.id ∨ p.name = q.name) : p = q ∧ j = k := by
  have hrp := h.world.registered (h.held_online hcj hp)
  have hrq := h.world.registered (h.held_online hck hq)
  have hpq : p = q := by
    rcases hsame with hid | hname
    · have := hrp.by_id
      rw [hid, hrq.by_id] at this
      exact (Option.some.inj this).symm
    · have := hrp.by_name
      rw [hname, hrq.by_name] at this
      exact (Option.some.inj this).symm
  refine ⟨hpq, ?_⟩
  rw [← h.own j cj p hcj hp, ← h.own k ck q hck hq, hpq]

/-- In a run of plain packets in which every listed character that is selected or
deleted is still stored and idle: every statement is read as it is meant, no
character is in the game twice, everyone in the game can be unregistered, whoever
is selected can be registered, and no assertion fails. -/
theorem no_character_twice {s0 : Server} {tr : List (Taken Server ServerEvent)} (h0 : schemaMachine.init s0)
    (hr : schemaMachine.Run s0 tr s) (hc : ∀ x ∈ tr, x.pre.TouchesIdle x.event)
    (hplain : ∀ x ∈ tr, x.pre.Plain x.event) :
    (∀ x ∈ tr, ∀ st ∈ x.post.world.statements, x.event ≠ .reorder → st.Exact) ∧
    (∀ j k cj ck p q, s.clients j = some cj → s.clients k = some ck → cj.Holds p → ck.Holds q →
      (p.id = q.id ∨ p.name = q.name) → p = q ∧ j = k) ∧
    (∀ k c p, s.clients k = some c → c.Holds p → s.world.Registered p) ∧
    ∀ (hd : Handler) o, hd.Admitted s o → s.TouchesIdle (.handler hd) → s.Plain (.handler hd) →
      (∀ k acc chars name ch, s.Executes hd k acc chars (.request_character_select name) →
        chars.find? (·.name = name) = some ch → s.world.registry.id_to_character ch.uid = none ∧
          s.world.registry.name_to_character ch.name = none ∧ s.world.friends.friendlist_of_id ch.uid = none) ∧
      (∀ st ∈ (endState hd.run (s.begin o)).world.statements, st.Exact) ∧
      ∀ t, hd.run (s.begin o) ≠ .error .assertion_failed t := by
  have hok : StoredOk s := Machine.Run.keeps (M := schemaMachine) (C := fun s ev => s.TouchesIdle ev)
    (fun _ _ _ hi hc hs => stored_ok_step hi hc hs) hr hc (stored_ok_init h0)
  have h0' := schema_init_server h0
  have hreach : serverMachine.Reachable s := ⟨s0, tr, h0', schema_run hr⟩
  refine ⟨plain_run_exact h0' (schema_run hr) hplain,
    fun j k cj ck p q hcj hck hp hq hsame => hok.ok.held_once hcj hck hp hq hsame,
    fun k c p hcl hp => hok.ok.world.registered (hok.ok.held_online hcl hp),
    fun hd o ha hcd hpd => ⟨fun k acc chars name ch hexec hf => ?_, plain_exact hreach ha hpd,
      fun t => hok.no_assertion_fails hcd ha⟩⟩
  obtain ⟨data, size, c, hev, hcl, hst, hreq⟩ := id hexec
  subst hev
  obtain ⟨⟨c', hcl', hrecv⟩, _⟩ := ha.enabled
  rw [hcl] at hcl'
  cases hcl'
  obtain ⟨hid, hname⟩ := hok.free hcd hexec (hok.ok.seat_lobby hcl hrecv hst) hf
  exact ⟨hid, hname, hok.ok.world.no_list (p := s.world.newcomer k ch) hid⟩

/-- One session for each account is enough. -/
theorem ListsOk.touches_idle (h : ListsOk s) (hone : s.OneSessionEach)
    (hok : ∀ hd, ev = .handler hd → ∃ o, hd.Admitted s o) : s.TouchesIdle ev := by
  intro hd k acc chars request name ch hev hexec _ hf
  refine ⟨(h.listed (h.seat_of_executes hok hev hexec)).mem_iff.1 (List.mem_of_find?_eq_some hf), ?_⟩
  intro j cj a p hj hcj hlog hau _ _
  obtain ⟨_, _, ck, _, hck, hst, _⟩ := hexec
  exact hj (hone j k cj ck a acc hcj hck hlog (.inl (by rw [hst]; rfl)) hau)

theorem touches_idle_of_one_session {s0 : Server} {tr : List (Taken Server ServerEvent)} (h0 : schemaMachine.init s0)
    (hr : schemaMachine.Run s0 tr s) (hone : ∀ x ∈ tr, x.pre.OneSessionEach) :
    ∀ x ∈ tr, x.pre.TouchesIdle x.event := by
  intro x hx
  obtain ⟨hok, hadm⟩ := run_lists_ok_pre h0 hr hone hx
  exact hok.touches_idle (hone x hx) hadm

/-- Dora is in the game. -/
theorem dora_is_registered : ∃ tr s c, schemaMachine.Run (.fresh two_accounts) tr s ∧ s.clients 0 = some c ∧
    c.Holds ⟨5, 9, ascii "Dora", 0⟩ ∧ s.world.Registered ⟨5, 9, ascii "Dora", 0⟩ ∧
    ∀ t, (Handler.periodic_cleanup.run (s.begin (quiet 7))) ≠ .error .assertion_failed t := by
  obtain ⟨tr, s, hr, hv, hevents, honly, hone⟩ := play_one_session_each [0]
    (enters_lobby 0 (ascii "dora") ++ [selects 0 (ascii "Dora"), .next_task])
    (fun s => ((s.clients 0).map (·.current_state), s.admits [0] (quiet 7) .periodic_cleanup))
    (some (.ingame_state ⟨5, 9, ascii "Dora", 0⟩ ⟨7, ascii "dora", [], [], 0⟩), true) two_accounts_init
    (by decide +kernel)
  simp only [Prod.mk.injEq, Option.map_eq_some_iff] at hv
  obtain ⟨⟨c, hc, hst⟩, hadm⟩ := hv
  have hall := no_character_twice two_accounts_init hr (touches_idle_of_one_session two_accounts_init hr hone)
    (plain_of_events hevents (by decide +kernel))
  have hholds : c.Holds ⟨5, 9, ascii "Dora", 0⟩ := .inl (by rw [hst]; rfl)
  have ha := admitted_of_admits (schema_server_ok ⟨_, tr, two_accounts_init, hr⟩) honly hadm
  refine ⟨tr, s, c, hr, hc, hholds, hall.2.2.1 0 c _ hc hholds, (hall.2.2.2 _ _ ha ?_ ?_).2.2⟩
  · intro hd k acc chars request name ch hev hexec
    obtain ⟨_, _, _, he, _⟩ := hexec
    cases hev
    cases he
  · exact fun k data size c hev => by cases hev

/-- Two sessions of dora select her. -/
theorem dora_twice : ∃ tr s t, schemaMachine.init (.fresh two_accounts) ∧ schemaMachine.Run (.fresh two_accounts) tr s ∧
    (selects 1 (ascii "Dora")).Admitted s (quiet 11) ∧ s.world.registry.id_to_character 9 = some ⟨10, 9, ascii "Dora", 0⟩ ∧
    (selects 1 (ascii "Dora")).run (s.begin (quiet 11)) = .error .assertion_failed t := by
  obtain ⟨tr, s, hr, hv, _, honly, _⟩ := play_fresh [0, 1] (fun _ => true)
    (enters_lobby 0 (ascii "dora") ++ enters_lobby 1 (ascii "dora") ++ [selects 0 (ascii "Dora")])
    (fun s => (s.world.registry.id_to_character 9,
      s.outcome [0, 1] (quiet 11) (selects 1 (ascii "Dora")) (·.world.db.characters)))
    (some ⟨10, 9, ascii "Dora", 0⟩, some (.error .assertion_failed)) two_accounts_init (by decide +kernel)
  simp only [Prod.mk.injEq] at hv
  obtain ⟨hreg, hout⟩ := hv
  obtain ⟨ha, t, hrun⟩ := outcome_error (schema_server_ok ⟨_, tr, two_accounts_init, hr⟩) honly hout
  exact ⟨tr, s, t, two_accounts_init, hr, ha, hreg, hrun⟩

end selections

end tejk_it_izi
