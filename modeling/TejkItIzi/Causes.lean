import TejkItIzi.Playing
import TejkItIzi.Senders
/-!
# Why a packet is sent

Every packet of the server answers a request of the session it goes to, or tells
it what another character has just done: made a request, entered the game or
left it. The name in the packet is that character's own, so nobody can speak or
act under another name, the server's own included.
-/

namespace tejk_it_izi

open ProgLib

/-! ## What a session does -/

/-- The handler is the receipt of this packet by session `k`, in this state. -/
def Server.hears (s : Server) (hd : Handler) (k : SessionId) (st : ClientState) (data : Buffer) (size : Nat) : Prop :=
  hd = .on_recv k data size ∧ ∃ c, s.clients k = some c ∧ c.current_state = st

/-- Session `k` makes a request in the lobby, where it is shown these characters. -/
def Server.chooses (s : Server) (hd : Handler) (k : SessionId) (chars : List LobbyCharacter) (request : LobbyRequest) :
    Prop :=
  ∃ acc data size, s.hears hd k (.lobby_state acc chars) data size ∧
    lobby_state_recv_packet_factory.construct data size = .ok request

/-- The session of `p` makes a request in the game. -/
def Server.asks (s : Server) (hd : Handler) (p : EntityPtr) (request : IngameRequest) : Prop :=
  ∃ acc data size, s.hears hd p.my_session (.ingame_state p acc) data size ∧
    ingame_state_recv_packet_factory.construct data size = .ok request

/-- The session of `p` selects him: he is on its list. -/
def Server.enters (s : Server) (hd : Handler) (p : EntityPtr) : Prop :=
  ∃ chars, s.chooses hd p.my_session chars (.request_character_select p.name) ∧ ⟨p.id, p.name⟩ ∈ chars

/-- The session of `p` takes him out of the game. -/
def Server.leaves (s : Server) (hd : Handler) (p : EntityPtr) : Prop :=
  hd = .next_task ∧ ∃ t rest c acc, s.sync_strand = t :: rest ∧ t.session = p.my_session ∧
    s.clients p.my_session = some c ∧ c.current_state = .ingame_state p acc

/-- Why session `k` is sent a packet. -/
inductive Caused (s : Server) (hd : Handler) (k : SessionId) : Packet → Prop
  -- Answers to the session itself, before it is in the game.
  | good_boy_good_keys (data size key login) : s.hears hd k .preauth_state data size →
    preauth_state.read data size = .keys key login → s.authenticator key login = true →
    Caused s hd k .good_boy_good_keys
  | fuck_you_bad_keys (data size) : s.hears hd k .preauth_state data size → Caused s hd k .fuck_you_bad_keys
  | character_list (rest chars) : hd = .next_task → s.sync_strand = .lobby_chars_loaded k chars :: rest →
    Caused s hd k (.character_list chars)
  | character_deleted (chars name) : s.chooses hd k chars (.request_character_delete name) →
    Caused s hd k (.character_list (chars.eraseP (·.name = name)))
  | character_created (chars id name) : s.chooses hd k chars (.request_character_create name) →
    Caused s hd k (.character_created ⟨id, name⟩)
  | character_creation_fail (chars name reason) : s.chooses hd k chars (.request_character_create name) →
    Caused s hd k (.character_creation_fail reason)
  | character_selected (chars ch) : s.chooses hd k chars (.request_character_select ch.name) → ch ∈ chars →
    Caused s hd k (.character_selected ch)
  | selection_failed (chars name) : s.chooses hd k chars (.request_character_select name) →
    Caused s hd k .moved_to_lobby
  -- Chat.
  | moved_to_lobby (p) : s.leaves hd p → p.my_session = k → Caused s hd k .moved_to_lobby
  | user_joined_chat (p R) : s.asks hd p (.join_chat R) → Caused s hd k (.user_joined_chat R p.name)
  | user_left_chat (p R) : s.asks hd p (.leave_chat R) ∨ s.leaves hd p → Caused s hd k (.user_left_chat R p.name)
  | chat_msg (p R msg) : s.asks hd p (.send_chat_msg R msg) → Caused s hd k (.chat_msg R p.name msg)
  | periodic_broadcast (R count) : hd = .periodic_broadcast →
    Caused s hd k (.chat_msg R (chat_system.broadcast_sender R) (chat_system.broadcast_text count))
  | whisper_message (p q msg) : s.asks hd p (.send_whisper q.name msg) → s.world.online q → q.my_session = k →
    Caused s hd k (.whisper_message p.name msg)
  -- Friends.
  | friend_online_while_you_login (p name) : s.enters hd p → p.my_session = k →
    Caused s hd k (.friend_online_while_you_login name)
  | friend_login (p) : s.enters hd p → Caused s hd k (.friend_login p.name)
  | friend_leave (p) : s.leaves hd p → Caused s hd k (.friend_leave p.name)
  | friend_add_fail (p reason name) : s.asks hd p (.friend_add name) → p.my_session = k →
    Caused s hd k (.friend_add_fail reason name)
  | friend_add_result (p result name) : s.asks hd p (.friend_add name) → p.my_session = k →
    Caused s hd k (.friend_add_result result name)
  | friendship_made (p name) : s.asks hd p (.friend_add name) → p.my_session = k →
    Caused s hd k (.new_friendship name)
  | new_friendship (p q) : s.asks hd p (.friend_add q.name) → s.world.online q → q.my_session = k →
    Caused s hd k (.new_friendship p.name)
  | friendship_request (p q) : s.asks hd p (.friend_add q.name) → s.world.online q → q.my_session = k →
    Caused s hd k (.friendship_request p.name)
  | friend_removal_fail (p name) : s.asks hd p (.friend_remove name) → p.my_session = k →
    Caused s hd k (.friend_removal_fail name)
  | friendship_ended (p name) : s.asks hd p (.friend_remove name) → p.my_session = k →
    Caused s hd k (.broken_friendship name)
  | broken_friendship (p name) : s.asks hd p (.friend_remove name) → Caused s hd k (.broken_friendship p.name)

/-! ## What a handler sends -/

section handlers

variable {s s' : Server} {hd : Handler} {k : SessionId} {c : MmoClient} {w : World} {g : Progress} {p : EntityPtr}
  {acc : AccountData} {chars : List LobbyCharacter}

theorem mem_mails {m : SessionId × Packet} (hm : m ∈ w.mails) :
    ∃ n ∈ w.notices, n.1.my_session = m.1 ∧ n.2 = m.2 := by
  obtain ⟨n, hn, rfl⟩ := List.mem_map.1 hm
  exact ⟨n, hn, rfl, rfl⟩

theorem caused_destroyed {ps : List (SessionId × Packet)} {st : ClientState} {w' : World}
    (hd' : Destroyed k w st w' ps) (hok : WorldOk w) (hq : w.notices = [])
    (hleaves : ∀ p acc, st = .ingame_state p acc → s.leaves hd p ∧ p.my_session = k) :
    ∀ m ∈ ps, Caused s hd m.1 m.2 := by
  cases hd' with
  | other => simp
  | ingame_state p acc w1 c ns hf hc =>
    obtain ⟨hl, hk⟩ := hleaves p acc rfl
    intro m hm
    rcases List.mem_append.1 hm with hm | hm
    · rcases List.mem_append.1 hm with hm | hm
      · obtain ⟨n, hn, _, hpk⟩ := mem_mails hm
        have hs : n.2 = .friend_leave p.name := hf.sends hq n hn
        rw [← hpk, hs]
        exact .friend_leave p hl
      · obtain ⟨n, hn, _, hpk⟩ := mem_mails hm
        have hcons : w1.quiet.chat.Consistent := hf.same_chat ▸ hok.consistent
        obtain ⟨R, hs⟩ := hc.sends hcons n hn
        rw [← hpk, hs]
        exact .user_left_chat p R (.inr hl)
    · rw [List.mem_singleton.1 hm]
      exact .moved_to_lobby p hl hk

theorem PreauthEffect.caused {keys : Keys} {valid : Bytes → Bytes → Bool} {data : Buffer} {size : Nat}
    (he : PreauthEffect k c w valid keys g) (hkeys : preauth_state.read data size = keys)
    (hvalid : s.authenticator = valid) (hh : s.hears hd k .preauth_state data size) :
    ∀ m ∈ g.packets, Caused s hd m.1 m.2 := by
  cases he with
  | malformed => simp [Progress.closing, Progress.start]
  | unknown_opcode | bad_keys =>
    intro m hm
    rw [List.mem_singleton.1 hm]
    exact .fuck_you_bad_keys data size hh
  | lookup_fails key login w' hv | login key login acc w' hv =>
    intro m hm
    rw [List.mem_singleton.1 hm]
    exact .good_boy_good_keys data size key login hh hkeys (hvalid ▸ hv)

theorem LobbyEffect.caused {request : LobbyRequest} (he : LobbyEffect k c w acc chars request g) (hq : w.notices = [])
    (hc : s.chooses hd k chars request) : ∀ m ∈ g.packets, Caused s hd m.1 m.2 := by
  cases he with
  | select_fails name ch e hf =>
    obtain rfl : ch.name = name := by simpa using List.find?_some hf
    intro m hm
    rcases List.mem_cons.1 hm with rfl | hm
    · exact .character_selected chars ch hc (List.mem_of_find?_eq_some hf)
    · rw [List.mem_singleton.1 hm]
      exact .selection_failed chars ch.name hc
  | select name ch w' hf hfree hef =>
    obtain rfl : ch.name = name := by simpa using List.find?_some hf
    have hmem := List.mem_of_find?_eq_some hf
    have henters : s.enters hd (w.newcomer k ch) := ⟨chars, hc, hmem⟩
    intro m hm
    rcases List.mem_cons.1 hm with rfl | hm
    · exact .character_selected chars ch hc hmem
    · obtain ⟨n, hn, hk, hpk⟩ := mem_mails hm
      rcases hef.sends (by simp [World.in_chat, hq]) n hn with ⟨hp, other, hs⟩ | hs
      · rw [← hpk, hs]
        exact .friend_online_while_you_login _ other henters (by rw [← hk, hp])
      · rw [← hpk, hs]
        exact .friend_login _ henters
  | create_refused name reason =>
    intro m hm
    rw [List.mem_singleton.1 hm]
    exact .character_creation_fail chars name reason hc
  | create_taken name =>
    intro m hm
    rw [List.mem_singleton.1 hm]
    exact .character_creation_fail chars name _ hc
  | create name =>
    intro m hm
    rw [List.mem_singleton.1 hm]
    exact .character_created chars _ name hc
  | delete name =>
    intro m hm
    rw [List.mem_singleton.1 hm]
    exact .character_deleted chars name hc
  | ignored | log_off | select_absent | create_lookup_fails | create_fails | delete_absent | delete_fails =>
    simp [Progress.waiting, Progress.closing, Progress.start]

/-- What a call of the chat system sends is news of the caller. -/
theorem caused_chat {request : IngameRequest} {op : ChatOp} {c : ChatSystem} {ns : List (EntityPtr × Packet)}
    (he : ChatEffect w op c ns) (hok : WorldOk w) (hworld : ∀ q, w.online q → s.world.online q)
    (hop : request.chat_op p = some op) (ha : s.asks hd p request) : ∀ n ∈ ns, Caused s hd n.1.my_session n.2 := by
  intro n hn
  have hs := he.sends hok.consistent n hn
  cases request with
  | join_chat R | leave_chat R | send_chat_msg R msg =>
    cases hop
    have hpk : n.2 = _ := hs
    rw [hpk]
    first
    | exact .user_joined_chat p R ha
    | exact .user_left_chat p R (.inl ha)
    | exact .chat_msg p R msg ha
  | send_whisper recipient msg =>
    cases hop
    obtain ⟨hq, hpk⟩ := hs
    obtain ⟨rfl, hon⟩ := hok.friends_ok.same_players.by_name recipient n.1 hq
    rw [hpk]
    exact .whisper_message p n.1 msg ha (hworld _ hon) rfl
  | _ => cases hop

/-- So is what a call of the friend system sends, or it answers him. -/
theorem caused_friends {request : IngameRequest} {op : FriendOp} {res : Option StdException} {w' : World}
    (he : FriendEffect w op res w') (hok : WorldOk w) (hq : w.notices = [])
    (hworld : ∀ q, w.online q → s.world.online q) (hop : request.friend_op p = some op) (ha : s.asks hd p request) :
    ∀ n ∈ w'.notices, Caused s hd n.1.my_session n.2 := by
  intro n hn
  have hs := he.sends hq n hn
  cases request with
  | friend_add name =>
    cases hop
    rcases hs with ⟨hp, ⟨reason, hpk⟩ | ⟨result, hpk⟩ | hpk⟩ | ⟨hto, hpk⟩
    · rw [hpk, hp]
      exact .friend_add_fail p reason name ha rfl
    · rw [hpk, hp]
      exact .friend_add_result p result name ha rfl
    · rw [hpk, hp]
      exact .friendship_made p name ha rfl
    · obtain ⟨rfl, hon⟩ := hok.friends_ok.same_players.by_name name n.1 hto
      rcases hpk with hpk | hpk
      · rw [hpk]
        exact .friendship_request p n.1 ha (hworld _ hon) rfl
      · rw [hpk]
        exact .new_friendship p n.1 ha (hworld _ hon) rfl
  | friend_remove name =>
    cases hop
    rcases hs with ⟨hp, hpk | hpk⟩ | hpk
    · rw [hpk, hp]
      exact .friend_removal_fail p name ha rfl
    · rw [hpk, hp]
      exact .friendship_ended p name ha rfl
    · rw [hpk]
      exact .broken_friendship p name ha
  | _ => cases hop

theorem IngameEffect.caused {request : IngameRequest} (he : IngameEffect k c w p acc request g) (hok : WorldOk w)
    (hq : w.notices = []) (hworld : ∀ q, w.online q → s.world.online q) (ha : s.asks hd p request) :
    ∀ m ∈ g.packets, Caused s hd m.1 m.2 := by
  cases he with
  | ignored | log_off => simp [Progress.waiting, Progress.changing, Progress.start]
  | chat request op c' ns hop hperm hef =>
    intro m hm
    obtain ⟨n, hn, hk, hpk⟩ := mem_mails (w := w.after c' ns) hm
    rw [World.after_notices, hq, List.nil_append] at hn
    rw [← hk, ← hpk]
    exact caused_chat hef hok hworld hop ha n hn
  | friends request op w' hop hperm hef | friends_fail request op e w' hop hperm hef =>
    intro m hm
    obtain ⟨n, hn, hk, hpk⟩ := mem_mails (w := w') hm
    rw [← hk, ← hpk]
    exact caused_friends hef hok hq hworld hop ha n hn

theorem HandlerEffect.caused (he : HandlerEffect s hd s') (hok : ServerOk s) (hs : s.sent = [])
    (hq : s.world.notices = []) : ∀ m ∈ s'.sent, Caused s hd m.session m.packet := by
  -- Whose state is destroyed, leaves.
  have hleaving {k : SessionId} {t : Task} {rest : List Task} {c : MmoClient} (hstrand : s.sync_strand = t :: rest)
      (ht : t.session = k) (hc : s.clients k = some c) (p : EntityPtr) (acc : AccountData)
      (hst : c.current_state = .ingame_state p acc) : s.leaves .next_task p ∧ p.my_session = k := by
    have hk : p.my_session = k := hok.own k c p hc (.inl (by rw [hst]; rfl))
    exact ⟨⟨rfl, t, rest, c, acc, hstrand, ht.trans hk.symm, hk ▸ hc, hst⟩, hk⟩
  intro m hm
  cases he with
  | on_accept | on_error => exact absurd (sent_progress hs m hm) List.not_mem_nil
  | load k id rest c hstrand hc =>
    exact absurd (sent_progress (s := { s with database_strand := rest }) hs m hm) List.not_mem_nil
  | on_recv k data size c g hc hr hsize he =>
    have hmem := sent_progress hs m hm
    cases he with
    | preauth g hst he => exact he.caused rfl rfl ⟨rfl, c, hc, hst⟩ _ hmem
    | lobby acc chars request g hst hr he => exact he.caused hq ⟨acc, data, size, ⟨rfl, c, hc, hst⟩, hr⟩ _ hmem
    | ingame p acc request g hst hr he =>
      have hk : p.my_session = k := hok.own k c p hc (.inl (by rw [show c.current_state = _ from hst]; rfl))
      subst hk
      exact he.caused hok.world hq (fun _ h => h) ⟨acc, data, size, ⟨rfl, c, hc, hst⟩, hr⟩ _ hmem
    | lobby_malformed | ingame_malformed => exact absurd hmem List.not_mem_nil
  | transition k rest c st w ps hstrand hc hst hd =>
    have hmem := sent_progress (s := { s with sync_strand := rest }) hs m hm
    rw [started_packets] at hmem
    exact caused_destroyed hd hok.world hq (hleaving hstrand rfl hc) _ hmem
  | finalize k rest c w ps hstrand hc hd =>
    have hmem := sent_progress (s := { s with sync_strand := rest }) hs m hm
    exact caused_destroyed hd hok.world hq (hleaving hstrand rfl hc) _ hmem
  | lobby_chars_loaded k rest chars c acc old hstrand hc hst =>
    have hmem := List.mem_singleton.1 (sent_progress (s := { s with sync_strand := rest }) hs m hm)
    obtain ⟨rfl, hpk⟩ := Prod.mk.inj hmem
    rw [hpk]
    exact .character_list rest chars rfl hstrand
  | periodic_broadcast c ns he =>
    obtain ⟨n, hn, _, hpk⟩ := mem_mails (sent_put_world hs m hm)
    rw [World.after_notices, hq, List.nil_append] at hn
    obtain ⟨R, count, hs⟩ := he.sends hok.world.consistent n hn
    rw [show m.packet = _ from hpk.symm.trans hs]
    exact .periodic_broadcast R count rfl
  | periodic_cleanup w he =>
    obtain ⟨n, hn, _⟩ := mem_mails (sent_put_world hs m hm)
    exact (he.sends hq n hn).elim

/-- A handler that does not return has sent an answer to the session at most, and
the greetings of the one who was to enter. -/
theorem PacketDeath.caused {data : Buffer} {size : Nat} {f : Fault} (he : PacketDeath k c w data size f g)
    (hdies : PacketDies k c w s.authenticator data size) (hq : w.notices = [])
    (hh : s.hears hd k c.current_state data size) : ∀ m ∈ g.packets, Caused s hd m.1 m.2 := by
  unfold PacketDies at hdies
  cases he with
  | preauth e g hcur he =>
    rw [hcur] at hdies hh
    simp only at hdies
    cases hread : preauth_state.read data size with
    | keys key login =>
      rw [hread] at he hdies
      cases he with
      | lookup_throws =>
        intro m hm
        rw [List.mem_singleton.1 hm]
        exact .good_boy_good_keys data size key login hh hread hdies.1
    | _ =>
      rw [hread] at he
      cases he
      try simp [Progress.start]
  | select acc chars name ch w' hcur hr hf hclash =>
    rw [hcur] at hh
    obtain rfl : ch.name = name := by simpa using List.find?_some hf
    have hmem := List.mem_of_find?_eq_some hf
    have hchooses : s.chooses hd k chars (.request_character_select ch.name) := ⟨acc, data, size, hh, hr⟩
    have henters : s.enters hd (w.newcomer k ch) := ⟨chars, hchooses, hmem⟩
    intro m hm
    rcases List.mem_cons.1 hm with rfl | hm
    · exact .character_selected chars ch hchooses hmem
    · obtain ⟨n, hn, hk, hpk⟩ := mem_mails hm
      rcases (w.in_chat _).greetings_send _ _ n ((hclash.notices hq).subset hn) with ⟨hp, other, hs⟩ | hs
      · rw [← hpk, hs]
        exact .friend_online_while_you_login _ other henters (by rw [← hk, hp])
      · rw [← hpk, hs]
        exact .friend_login _ henters

theorem HandlerDeath.caused (he : HandlerDeath s hd s') (hs : s.sent = []) (hq : s.world.notices = []) :
    ∀ m ∈ s'.sent, Caused s hd m.session m.packet := by
  intro m hm
  cases he with
  | on_recv k data size c f g hc hr hsize hdies he =>
    exact he.caused hdies hq ⟨rfl, c, hc, rfl⟩ _ (sent_progress hs m hm)
  | load k id rest c =>
    exact absurd (sent_progress (s := { s with database_strand := rest }) hs m hm) List.not_mem_nil

end handlers

/-! ## Nobody speaks for another -/

section reachable

variable {s s' : Server} {hd : Handler} {o : Outside}

/-- What the server calls itself in a room is no nickname. -/
theorem broadcast_sender_invalid (R : Bytes) : ¬ valid_nickname (chat_system.broadcast_sender R) := by
  intro h
  have hbracket : isalnum 91 = true := h.2.2 91 (by simp [chat_system.broadcast_sender, ascii])
  revert hbracket
  decide

/-- In every state a tame run reaches, each packet that a tame handler sends has its
cause in that very handler, whether or not it returns. Those who ask and those who
leave are in the game, under names that no other character in the game has and the
server does not call itself. -/
theorem packets_are_caused (htame : (serverMachine.only Server.Tame).Reachable s) (ha : hd.Admitted s o)
    (hf : s.Tame (.handler hd)) :
    (∀ m ∈ (endState hd.run (s.begin o)).sent, m.packet.serialize.InBuffer ∧
      Caused (s.begin o) hd m.session m.packet) ∧
    (∀ p, ((∃ request, (s.begin o).asks hd p request) ∨ (s.begin o).leaves hd p) → s.world.online p) ∧
    ∀ p, s.world.online p → (∀ q, s.world.online q → q.name = p.name → q = p) ∧
      ∀ R, p.name ≠ chat_system.broadcast_sender R := by
  have h := htame.of_only
  have hok := reachable_server_ok h
  refine ⟨fun m hm => ?_, ?_, fun p hp => ⟨fun q hq hqp => ?_, fun R hR => ?_⟩⟩
  · rcases handler_ends hok ha with ⟨s', he, hrun⟩ | ⟨f, t, he, hrun⟩
    · rw [endState_ok hrun] at hm
      exact ⟨in_buffer_of_fitting (fitting_of_tame htame) he (hf.2 hd rfl) m hm, he.caused (hok.begin o) rfl rfl m hm⟩
    · rw [endState_error hrun] at hm
      obtain ⟨hsizes, _⟩ := he.sizes (hok.begin o) ((reachable_names_ok h).begin o) rfl rfl
      exact ⟨Packet.inBuffer_of_size (hsizes m hm), he.caused rfl rfl m hm⟩
  · rintro p (⟨request, acc, data, size, ⟨_, c, hc, hst⟩, _⟩ | ⟨_, t, rest, c, acc, _, _, hc, hst⟩)
    all_goals exact hok.held_online hc (.inl (by rw [hst]; rfl))
  · have hs := hok.world.friends_ok.same_players
    have hpn := (hs.by_id _ _ hp).2
    rw [← hqp, (hs.by_id _ _ hq).2] at hpn
    exact Option.some.inj hpn
  · exact broadcast_sender_invalid R (hR ▸ (reachable_names_ok h).players p hp)

/-- Dora and Eve are in a room, and Dora says something there. -/
theorem dora_is_heard : ∃ s, (serverMachine.only Server.Tame).Reachable s ∧
    ∃ s', (speaks 0 (ascii "room") (ascii "hi")).run (s.begin (quiet 20)) = .ok () s' ∧
      s'.sent.map (·.packet) = List.replicate 2 (.chat_msg (ascii "room") (ascii "Dora") (ascii "hi")) ∧
      ∀ m ∈ s'.sent, Caused (s.begin (quiet 20)) (speaks 0 (ascii "room") (ascii "hi")) m.session m.packet := by
  obtain ⟨s, hs, hv, honly⟩ := play_fresh_quoteless [0, 1]
    (both_enter ++ [joins 0 (ascii "room"), joins 1 (ascii "room")])
    (fun s => s.outcome [0, 1] (quiet 20) (speaks 0 (ascii "room") (ascii "hi")) fun s' => s'.sent.map (·.packet))
    (some (.ok (List.replicate 2 (.chat_msg (ascii "room") (ascii "Dora") (ascii "hi")))))
    two_players_init (by decide +kernel) (by decide +kernel) (by decide +kernel)
  have hserver := hs.of_only
  obtain ⟨ha, s', hrun, hsent⟩ := outcome_ok (reachable_server_ok hserver) honly hv
  have htame : s.Tame (.handler (speaks 0 (ascii "room") (ascii "hi"))) := by
    refine ⟨Handler.plain_sound (by decide +kernel) s, ?_⟩
    rintro _ ⟨⟩
    exact short_fits (reachable_server_ok hserver) (reachable_names_ok hserver) (by decide +kernel)
  have hcaused := (packets_are_caused hs ha htame).1
  rw [endState_ok hrun] at hcaused
  exact ⟨s, hs, s', hrun, hsent, fun m hm => (hcaused m hm).2⟩

end reachable

end tejk_it_izi
