import TejkItIzi.ServerInvariants
/-!
# Nicknames

`request_character_create` checks the characters of a name. Every name the
server keeps has passed that check: in the table, in the lobby lists and among
the players.
-/

namespace tejk_it_izi

open ProgLib

structure NamesOk (s : Server) : Prop where
  rows : ∀ r ∈ s.world.db.characters, valid_nickname r.nickname
  players : ∀ p, s.world.online p → valid_nickname p.name
  lists : ∀ k c acc chars, s.clients k = some c → c.current_state = .lobby_state acc chars →
    ∀ ch ∈ chars, valid_nickname ch.name
  loaded : ∀ k chars, Task.lobby_chars_loaded k chars ∈ s.sync_strand → ∀ ch ∈ chars, valid_nickname ch.name

/-- What a handler leaves that found the world `w`. -/
structure NamesKept (w : World) (g : Progress) : Prop where
  rows : ∀ r ∈ g.world.db.characters, valid_nickname r.nickname
  players : ∀ p, g.world.online p → w.online p ∨ valid_nickname p.name
  list : ∀ acc chars, g.client.current_state = .lobby_state acc chars → ∀ ch ∈ chars, valid_nickname ch.name
  loaded : ∀ k chars, Task.lobby_chars_loaded k chars ∈ g.tasks → ∀ ch ∈ chars, valid_nickname ch.name

theorem NamesOk.progress {s s0 : Server} {k : SessionId} {g : Progress} (h : NamesOk s)
    (hclients : s0.clients = s.clients) (htasks : ∀ t ∈ s0.sync_strand, t ∈ s.sync_strand)
    (hg : NamesKept s.world g) : NamesOk (s0.progress k g) where
  rows := hg.rows
  players p hp := (hg.players p hp).elim (h.players p) id
  lists j c acc chars hc hst := by
    by_cases hj : j = k
    · subst hj
      rw [progress_client] at hc
      cases hc
      exact hg.list acc chars hst
    · rw [progress_client_ne hj, hclients] at hc
      exact h.lists j c acc chars hc hst
  loaded j chars hmem := by
    rcases List.mem_append.1 hmem with hmem | hmem
    · exact h.loaded j chars (htasks _ hmem)
    · exact hg.loaded j chars hmem

theorem FriendEffect.same_characters {w w' : World} {op : FriendOp} {res : Option StdException}
    (h : FriendEffect w op res w') : w'.db.characters = w.db.characters := by
  cases h with
  | add_match => exact World.committed_keeps (P := fun db => db.characters = w.db.characters) _ rfl rfl
  | remove_offline => exact World.committed_keeps (P := fun db => db.characters = w.db.characters) _ rfl rfl
  | remove_online => exact World.committed_keeps (P := fun db => db.characters = w.db.characters) _ rfl rfl
  | _ => rfl

theorem FriendEffect.online_of {w w' : World} {op : FriendOp} {res : Option StdException} {p : EntityPtr}
    (h : FriendEffect w op res w') (hop : ¬ op.registers) (hp : w'.online p) : w.online p := by
  rw [World.online, h.same_registry hop] at hp
  exact hp

section effects

variable {k : SessionId} {c : MmoClient} {w w' : World} {g : Progress} {acc : AccountData}
  {chars : List LobbyCharacter} {ps : List (SessionId × Packet)}

/-- A handler that leaves tables, players and lists alone. -/
theorem NamesKept.of_same (hrows : ∀ r ∈ w.db.characters, valid_nickname r.nickname)
    (hlist : ∀ acc chars, c.current_state = .lobby_state acc chars → ∀ ch ∈ chars, valid_nickname ch.name)
    (hdb : g.world.db.characters = w.db.characters) (hon : ∀ p, g.world.online p → w.online p)
    (hst : g.client.current_state = c.current_state) (ht : ∀ k chars, Task.lobby_chars_loaded k chars ∉ g.tasks) :
    NamesKept w g where
  rows r hr := hrows r (hdb ▸ hr)
  players p hp := .inl (hon p hp)
  list acc chars h := hlist acc chars (hst ▸ h)
  loaded k chars h := absurd h (ht k chars)

theorem looked_up_same (w : World) (login : Bytes) :
    (w.account_lookup login).2.db = w.db ∧ ∀ p, (w.account_lookup login).2.online p → w.online p := by
  rcases account_lookup_world w login with h | ⟨id, h⟩ <;> rw [h] <;> exact ⟨rfl, fun p hp => hp⟩

theorem PreauthEffect.names {valid : Bytes → Bytes → Bool} {keys : Keys} (he : PreauthEffect k c w valid keys g)
    (hrows : ∀ r ∈ w.db.characters, valid_nickname r.nickname)
    (hlist : ∀ acc chars, c.current_state = .lobby_state acc chars → ∀ ch ∈ chars, valid_nickname ch.name) :
    NamesKept w g := by
  cases he with
  | lookup_fails key login w' hv hl =>
    obtain ⟨h1, h2⟩ := looked_up_same w login
    rw [hl] at h1 h2
    exact .of_same hrows hlist (congrArg (·.characters) h1) h2 rfl (by simp [Progress.closing])
  | login key login acc w' hv hl =>
    obtain ⟨h1, h2⟩ := looked_up_same w login
    rw [hl] at h1 h2
    exact .of_same hrows hlist (congrArg (·.characters) h1) h2 rfl (by simp [Progress.changing])
  | unknown_opcode | malformed | bad_keys =>
    exact .of_same hrows hlist rfl (fun p hp => hp) rfl (by simp [Progress.closing, Progress.start])

/-- Characters of a listed name are the list's. -/
theorem valid_of_find {name : Bytes} {ch : LobbyCharacter} (hv : ∀ ch ∈ chars, valid_nickname ch.name)
    (hf : chars.find? (·.name = name) = some ch) : valid_nickname ch.name := hv ch (List.mem_of_find?_eq_some hf)

theorem LobbyEffect.names {request : LobbyRequest} (he : LobbyEffect k c w acc chars request g)
    (hst : c.current_state = .lobby_state acc chars) (hrows : ∀ r ∈ w.db.characters, valid_nickname r.nickname)
    (hv : ∀ ch ∈ chars, valid_nickname ch.name) : NamesKept w g := by
  have hlist : ∀ acc chars, c.current_state = .lobby_state acc chars → ∀ ch ∈ chars, valid_nickname ch.name := by
    intro acc' chars' h
    rw [hst] at h
    cases h
    exact hv
  cases he with
  | select name ch w' hf hfree hef =>
    refine ⟨fun r hr => hrows r ?_, fun p hp => ?_, hlist, by simp [Progress.changing]⟩
    · have hr' : r ∈ w'.db.characters := hr
      rw [hef.same_characters] at hr'
      exact hr'
    · have hp' : w'.online p := hp
      generalize hres : (none : Option StdException) = res at hef
      cases hef with
      | register_me _ ha =>
        rcases (online_add hfree.1 p).1 hp' with h | rfl
        · exact .inl h
        · exact .inr (valid_of_find hv hf)
      | register_me_fails _ e => cases hres
  | create name hfull hname hfree =>
    refine ⟨fun r hr => ?_, fun p hp => .inl hp, fun acc' chars' h ch hch => ?_, by simp [Progress.waiting]⟩
    · rcases List.mem_append.1 hr with hr | hr
      · exact hrows r hr
      · rw [List.mem_singleton.1 hr]
        exact hname
    · cases h
      rcases List.mem_append.1 hch with hch | hch
      · exact hv ch hch
      · rw [List.mem_singleton.1 hch]
        exact hname
  | delete name ch hf =>
    refine ⟨fun r hr => hrows r (List.mem_filter.1 hr).1, fun p hp => .inl hp, fun acc' chars' h ch hch => ?_,
      by simp [Progress.waiting]⟩
    cases h
    exact hv ch (List.mem_of_mem_eraseP hch)
  | ignored | create_refused | create_taken =>
    exact .of_same hrows hlist rfl (fun p hp => hp) rfl (by simp [Progress.waiting, Progress.start])
  | log_off | select_absent | select_fails | create_lookup_fails | create_fails | delete_absent | delete_fails =>
    exact .of_same hrows hlist rfl (fun p hp => hp) rfl (by simp [Progress.closing, Progress.start])

theorem IngameEffect.names {p : EntityPtr} {request : IngameRequest} (he : IngameEffect k c w p acc request g)
    (hrows : ∀ r ∈ w.db.characters, valid_nickname r.nickname)
    (hlist : ∀ acc chars, c.current_state = .lobby_state acc chars → ∀ ch ∈ chars, valid_nickname ch.name) :
    NamesKept w g := by
  cases he with
  | ignored | chat => exact .of_same hrows hlist rfl (fun p hp => hp) rfl (by simp [Progress.waiting, Progress.start])
  | log_off => exact .of_same hrows hlist rfl (fun p hp => hp) rfl (by simp [Progress.changing, Progress.start])
  | friends request op w' hop hperm hef =>
    exact .of_same hrows hlist hef.same_characters
      (fun q hq => hef.online_of (IngameRequest.friend_op_quiet hop) hq) rfl (by simp [Progress.waiting])
  | friends_fail request op e w' hop hperm hef =>
    exact .of_same hrows hlist hef.same_characters
      (fun q hq => hef.online_of (IngameRequest.friend_op_quiet hop) hq) rfl (by simp [Progress.closing])

theorem PacketEffect.names {valid : Bytes → Bytes → Bool} {data : Buffer} {len : Nat}
    (he : PacketEffect k c w valid data len g) (hrows : ∀ r ∈ w.db.characters, valid_nickname r.nickname)
    (hlist : ∀ acc chars, c.current_state = .lobby_state acc chars → ∀ ch ∈ chars, valid_nickname ch.name) :
    NamesKept w g := by
  cases he with
  | preauth _ hst hp => exact hp.names hrows hlist
  | lobby acc chars request _ hst hr hl => exact hl.names hst hrows (hlist acc chars hst)
  | ingame p acc request _ hst hr hl => exact hl.names hrows hlist
  | lobby_malformed | ingame_malformed =>
    exact .of_same hrows hlist rfl (fun p hp => hp) rfl (by simp [Progress.closing, Progress.start])

theorem Destroyed.same_characters {st : ClientState} (h : Destroyed k w st w' ps) :
    w'.db.characters = w.db.characters := by
  cases h with
  | ingame_state p acc w1 c ns hf hc => exact hf.same_characters
  | other => rfl

end effects

section steps

variable {s s' : Server}

theorem HandlerEffect.names {hd : Handler} (he : HandlerEffect s hd s') (h : ServerOk s) (hn : NamesOk s) :
    NamesOk s' := by
  cases he with
  | on_accept k hk =>
    exact hn.progress rfl (fun t ht => ht)
      (.of_same (c := .accepted) hn.rows (by simp [MmoClient.accepted]) rfl (fun p hp => hp) rfl (by simp [Progress.start]))
  | on_recv k data size c g hc hr hsize he =>
    exact hn.progress rfl (fun t ht => ht) (he.names hn.rows (hn.lists k c · · hc))
  | on_error k c hc hr =>
    exact hn.progress rfl (fun t ht => ht)
      (.of_same hn.rows (hn.lists k c · · hc) rfl (fun p hp => hp) rfl (by simp [Progress.closing, Progress.start]))
  | transition k rest c st w ps hs hc hst hd =>
    obtain ⟨_, _, hf⟩ := h.follows hs hc hst
    obtain ⟨_, hon⟩ := hd.settled_owns (h.owns hc) h.world
    refine hn.progress rfl (fun t ht => by rw [hs]; exact List.mem_cons_of_mem _ ht)
      ⟨fun r hr => hn.rows r ?_, fun p hp => .inl ((hon p).1 ?_).1, fun acc chars hcur => ?_, by simp⟩
    · rw [started_world, hd.same_characters] at hr
      exact hr
    · rw [started_world] at hp
      exact hp
    · rw [started_state] at hcur
      change st = .lobby_state acc chars at hcur
      generalize c.current_state = cur at hf
      subst hcur
      cases hf <;> simp
  | finalize k rest c w ps hs hc hd =>
    obtain ⟨_, hon⟩ := hd.settled_owns (h.owns hc) h.world
    exact hn.progress rfl (fun t ht => by rw [hs]; exact List.mem_cons_of_mem _ ht)
      ⟨fun r hr => hn.rows r (hd.same_characters ▸ hr), fun p hp => .inl ((hon p).1 hp).1, by simp, by simp⟩
  | lobby_chars_loaded k rest chars c acc old hs hc hst =>
    refine hn.progress rfl (fun t ht => by rw [hs]; exact List.mem_cons_of_mem _ ht)
      ⟨hn.rows, fun p hp => .inl hp, fun acc' chars' h => ?_, by simp [Progress.waiting]⟩
    cases h
    exact hn.loaded k chars (by rw [hs]; exact List.mem_cons_self)
  | load k id rest c hs hc =>
    refine hn.progress rfl (fun t ht => ht)
      ⟨hn.rows, fun p hp => .inl hp, fun acc chars => hn.lists k c acc chars hc, fun j chars hmem => ?_⟩
    obtain ⟨_, rfl⟩ : j = k ∧ chars = s.world.db.get_lobby_chars id := by simpa using hmem
    intro ch hch
    obtain ⟨r, hr, rfl⟩ := List.mem_map.1 hch
    exact hn.rows r (List.mem_filter.1 hr).1
  | periodic_broadcast c ns he => exact ⟨hn.rows, hn.players, hn.lists, hn.loaded⟩
  | periodic_cleanup w he =>
    exact ⟨fun r hr => hn.rows r (he.same_characters ▸ hr), fun p hp => hn.players p (he.online_of id hp), hn.lists,
      hn.loaded⟩

theorem NamesOk.begin (h : NamesOk s) (o : Outside) : NamesOk (s.begin o) := ⟨h.rows, h.players, h.lists, h.loaded⟩

theorem names_ok_init (h : serverMachine.init s) : NamesOk s := by
  obtain ⟨db, rfl, hnames⟩ := h
  exact ⟨hnames, by simp [Server.fresh, World.fresh, World.online], by simp [Server.fresh], by simp [Server.fresh]⟩

theorem names_ok_step {ev : ServerEvent} (hok : ServerOk s) (hn : NamesOk s) (hs : serverMachine.step s ev s') :
    NamesOk s' := by
  cases ev with
  | handler hd =>
    obtain ⟨o, ha, hr⟩ := hs
    obtain ⟨hb, he⟩ := handler_effect hok ha hr
    exact he.names hb (hn.begin o)
  | reorder =>
    obtain ⟨w, hr, _, rfl⟩ := hs
    refine ⟨fun r hmem => hn.rows r (hr.characters.mem_iff.2 hmem), fun p hp => hn.players p ?_, hn.lists, hn.loaded⟩
    rw [World.online, hr.registry] at hp
    exact hp

theorem reachable_names_ok (h : serverMachine.Reachable s) : NamesOk s :=
  h.keeps_over (fun _ => reachable_server_ok) (fun _ => names_ok_init) fun _ _ _ => names_ok_step

end steps

end tejk_it_izi
