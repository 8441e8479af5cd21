import TejkItIzi.Causes
import TejkItIzi.Lib.Simulation
/-!
# The chat of the server

Each handler of the server makes some calls of the chat system, or none, and
every call is one the chat system permits. So a run of the server is a run of
`chatMachine`, in which a session has one character at a time. To the groups of
`Lib/Groups.lean` the calls of a handler come to one act at most, the one that was
asked for, and what is written to the sessions about a room is what its members
are told of that act.
-/

namespace tejk_it_izi

open ProgLib

/-! ## A call, made in another world -/

section call

variable {w v : World} {op : ChatOp} {c : ChatSystem} {ns : List (EntityPtr × Packet)}

/-- A call reads the chat system and the registry, and nothing else of the world. -/
theorem ChatEffect.elsewhere (h : ChatEffect w op c ns) (hchat : v.chat = w.chat) (hreg : v.registry = w.registry) :
    ChatEffect v op c ns := by
  obtain ⟨registry, chat, friends, db, env, notices, statements⟩ := v
  cases hchat
  cases hreg
  cases h with
  | register_me p hp => exact .register_me p hp
  | unregister_me p e he => exact .unregister_me p e he
  | join_again p R hp => exact .join_again p R hp
  | join p e R room r he hl hr hp => exact .join p e R room r he hl hr hp
  | join_new p e R room he hl hroom => exact .join_new p e R room he hl hroom
  | leave_absent p R hp => exact .leave_absent p R hp
  | leave p e R room r he hl hr hp => exact .leave p e R room r he hl hr hp
  | broadcast_absent p R msg hp => exact .broadcast_absent p R msg hp
  | broadcast p R msg room r hl hr hp => exact .broadcast p R msg room r hl hr hp
  | whisper_lost p recipient msg hq => exact .whisper_lost p recipient msg hq
  | whisper p recipient msg q hq hqp => exact .whisper p recipient msg q hq hqp
  | periodic_broadcast => exact .periodic_broadcast

/-- The effect is that of the call, if the allocator hands out the room that is made. -/
theorem ChatEffect.is_call (h : ChatEffect w op c ns) (hi : ChatInv w) {env : Env} (hop : op.Permitted (w.begin env)) :
    ∃ env, op.Permitted (w.begin env) ∧ op.run (w.begin env) = .ok () ((w.begin env).after c ns) := by
  have hc : (w.begin env).chat.Consistent := hi.consistent
  cases h with
  | join_new p e R room he hl hroom =>
    exact ⟨{ env with new_room := room }, ⟨hop.1, hroom⟩,
      chat_system.join_new_run (w := w.begin { env with new_room := room }) hc he hl hroom⟩
  | register_me p hp =>
    have hsame : (w.begin env).in_chat p = (w.begin env).after (w.chat.put_entity p (some ⟨.empty⟩)) [] := rfl
    exact ⟨env, hop, (register_chat_run (w := w.begin env) hp).trans (by rw [hsame])⟩
  | unregister_me p e he => exact ⟨env, hop, chat_system.unregister_me_run hc he⟩
  | join_again p R hp =>
    have hself : (w.begin env).after w.chat [] = w.begin env := World.after_self (w.begin env)
    exact ⟨env, hop, hself ▸ chat_system.join_again_run hop.1 hp⟩
  | join p e R room r he hl hr hp => exact ⟨env, hop, chat_system.join_chatroom_run hc he hl hr hp⟩
  | leave_absent p R hp =>
    have hself : (w.begin env).after w.chat [] = w.begin env := World.after_self (w.begin env)
    exact ⟨env, hop, hself ▸ (chat_system.absent_run hop hc hp).1⟩
  | leave p e R room r he hl hr hp => exact ⟨env, hop, chat_system.leave_chatroom_run hc he hl hr hp⟩
  | broadcast_absent p R msg hp =>
    have hself : (w.begin env).after w.chat [] = w.begin env := World.after_self (w.begin env)
    exact ⟨env, hop, hself ▸ (chat_system.absent_run hop hc hp).2 msg⟩
  | broadcast p R msg room r hl hr hp =>
    obtain ⟨e, he⟩ := Option.isSome_iff_exists.1 hop
    exact ⟨env, hop, chat_system.broadcast_message_run hc he hl hr hp msg⟩
  | whisper_lost p recipient msg hlost =>
    have hself : (w.begin env).after w.chat [] = w.begin env := World.after_self (w.begin env)
    rcases chat_system.whisper_run (w := w.begin env) hop hi.registry_known recipient msg with
      ⟨hrun, _⟩ | ⟨q, hq, hqp, _⟩
    · exact ⟨env, hop, hself ▸ hrun⟩
    · exact absurd (hlost q hq) hqp
  | whisper p recipient msg q hq hqp =>
    rcases chat_system.whisper_run (w := w.begin env) hop hi.registry_known recipient msg with
      ⟨_, hlost⟩ | ⟨q', hq', _, hrun⟩
    · exact absurd (hlost q hq) hqp
    · rw [show (w.begin env).registry.name_to_character recipient = some q from hq] at hq'
      cases hq'
      exact ⟨env, hop, hrun⟩
  | periodic_broadcast => exact ⟨env, hop, chat_system.periodic_broadcast_run hc.toRoomsOk⟩

end call

/-! ## One character a session -/

/-- `chatMachine` where no session registers a second character. -/
def seatedMachine : Machine World ChatEvent where
  init := chatMachine.init
  step w ev w' := chatMachine.step w ev w' ∧
    ∀ p, ev = .call (.register_me p) → ∀ q, (w.chat.entities q).isSome → q.my_session ≠ p.my_session

structure Seated (w : World) : Prop extends ChatInv w where
  one_a_session : ∀ p q, (w.chat.entities p).isSome → (w.chat.entities q).isSome →
    p.my_session = q.my_session → p = q

/-- Nobody is registered with the chat but by `register_me`. -/
theorem ChatEffect.was_registered {w : World} {op : ChatOp} {c : ChatSystem} {ns : List (EntityPtr × Packet)}
    (h : ChatEffect w op c ns) {q : EntityPtr} (hq : (c.entities q).isSome) :
    (w.chat.entities q).isSome ∨ op = .register_me q := by
  by_cases hop : op.registers
  · cases h with
    | register_me p hp =>
      by_cases hqp : q = p
      · exact .inr (by rw [hqp])
      · exact .inl (by simpa [hqp] using hq)
    | unregister_me p e he =>
      by_cases hqp : q = p
      · simp [hqp] at hq
      · exact .inl (by simpa [hqp] using hq)
    | _ => exact absurd hop id
  · rw [h.same_entities hop] at hq
    exact .inl hq

theorem seated_step {w w' : World} {ev : ChatEvent} (hi : Seated w) (hs : seatedMachine.step w ev w') : Seated w' := by
  obtain ⟨hs, hseat⟩ := hs
  refine ⟨chat_inv_step hi.toChatInv hs, ?_⟩
  cases ev with
  | call op =>
    obtain ⟨env, hop, hr⟩ := hs
    obtain ⟨c, ns, he, hrun⟩ := chat_system.effect_of (w := w.begin env) hi.consistent hi.registry_known hop
    rw [hrun] at hr
    cases hr
    intro p q hp hq hpq
    rcases he.was_registered hp with hp | rfl <;> rcases he.was_registered hq with hq | hq
    · exact hi.one_a_session p q hp hq hpq
    · exact absurd hpq (hseat q (by rw [hq]) p hp)
    · exact absurd hpq.symm (hseat p rfl q hq)
    · cases hq
      rfl
  | enter_registry p =>
    obtain ⟨_, _, rfl⟩ := world_registrar.register_me_ok hs.2
    exact hi.one_a_session
  | leave_registry p =>
    obtain ⟨hid, hname, hr⟩ := hs
    rw [world_registrar.unregister_me_eq (w := w.begin w.env) (by simp [World.begin, hid])
      (by simp [World.begin, hname])] at hr
    cases hr
    exact hi.one_a_session
  | reorder =>
    intro p q hp hq
    rw [hs.1.entity_isSome] at hp hq
    exact hi.one_a_session p q hp hq

/-! ## A handler, seen from the chat system -/

/-- The chat system and the registry of another world. -/
structure SameChat (w t : World) : Prop where
  chat : t.chat = w.chat
  registry : t.registry = w.registry

def chat_packets (ps : List (SessionId × Packet)) : List (SessionId × Packet) := ps.filter fun m => m.2.of_chat

/-- The packets of the chat system among those the handler has handed to sessions. -/
def Server.chat_sent (s : Server) : List (SessionId × Packet) :=
  chat_packets (s.sent.map fun m => (m.session, m.packet))

/-- Calls that bring the chat system and the registry of `t` to those of `w`, come
to this act, and send these packets. -/
def ChatSteps (a : Groups.Act EntityPtr Bytes Bytes) (t w : World) (ps : List (SessionId × Packet)) : Prop :=
  ∃ tr t', seatedMachine.Run t tr t' ∧ SameChat w t' ∧ tr.flatMap (fun y => y.event.act.made) = a.made ∧
    tr.flatMap (fun y => y.post.mails) = ps

/-- What a character whose state is given up does. -/
def ClientState.parting (st : ClientState) : Groups.Act EntityPtr Bytes Bytes := st.character.elim .idle .quit

/-- What a request of `p` comes to. -/
def IngameRequest.act (p : EntityPtr) : IngameRequest → Groups.Act EntityPtr Bytes Bytes
  | .join_chat chatroom_name => .join p chatroom_name
  | .leave_chat chatroom_name => .leave p chatroom_name
  | .send_chat_msg chatroom_name message => .say p chatroom_name message
  | _ => .idle

/-- What a packet comes to that is read in this state. -/
def ClientState.packet_act (data : Buffer) (size : Nat) : ClientState → Groups.Act EntityPtr Bytes Bytes
  | .ingame_state p _ =>
    match ingame_state_recv_packet_factory.construct data size with
    | .ok request => request.act p
    | .error _ => .idle
  | _ => .idle

/-- What a handler comes to: the request it is for, the end of a character's state,
the periodic count, or nothing. -/
def Server.act (s : Server) : ServerEvent → Groups.Act EntityPtr Bytes Bytes
  | .handler (.on_recv k data size) => (s.clients k).elim .idle fun c => c.current_state.packet_act data size
  | .handler .next_task =>
    match s.sync_strand with
    | .transition k :: _ | .finalize k :: _ => (s.clients k).elim .idle fun c => c.current_state.parting
    | _ => .idle
  | .handler .periodic_broadcast => .tick
  | _ => .idle

section steps

variable {w w' t : World} {k : SessionId} {p : EntityPtr} {ps : List (SessionId × Packet)} {g : Progress}
  {a : Groups.Act EntityPtr Bytes Bytes}

theorem SameChat.inv (h : SameChat w t) (hok : WorldOk w) : ChatInv t := by
  refine ⟨?_, fun n q hq => ?_⟩
  · rw [h.chat]
    exact hok.consistent
  · rw [h.chat]
    rw [h.registry] at hq
    exact hok.registry_known n q hq

theorem ChatSteps.nothing (h : SameChat w t) (hchat : w'.chat = w.chat) (hreg : w'.registry = w.registry) :
    ChatSteps .idle t w' [] :=
  ⟨[], t, .nil, ⟨h.chat.trans hchat.symm, h.registry.trans hreg.symm⟩, rfl, rfl⟩

/-- Packets that have been handed on change neither. -/
theorem ChatSteps.quiet (h : ChatSteps a t w ps) : ChatSteps a t w.quiet ps := by
  obtain ⟨tr, t', hrun, hsame, hacts, hmails⟩ := h
  exact ⟨tr, t', hrun, ⟨hsame.chat, hsame.registry⟩, hacts, hmails⟩

theorem chat_packets_append (ps qs : List (SessionId × Packet)) :
    chat_packets (ps ++ qs) = chat_packets ps ++ chat_packets qs := List.filter_append ..

theorem chat_packets_none (h : ∀ m ∈ ps, m.2.of_chat = false) : chat_packets ps = [] := by
  refine List.filter_eq_nil_iff.2 fun m hm => ?_
  simp [h m hm]

theorem chat_packets_all (h : ∀ m ∈ ps, m.2.of_chat = true) : chat_packets ps = ps := List.filter_eq_self.2 h

theorem chat_packets_friends {op : FriendOp} {res : Option StdException} (h : FriendEffect w op res w')
    (hq : w.notices = []) : chat_packets w'.mails = [] := by
  refine chat_packets_none fun m hm => ?_
  obtain ⟨n, hn, rfl⟩ := List.mem_map.1 hm
  exact (h.sends hq n hn).of_friends.2

theorem mails_after {c : ChatSystem} {ns : List (EntityPtr × Packet)} (hq : w.notices = []) :
    (w.after c ns).mails = ns.map fun n => (n.1.my_session, n.2) := by
  simp [World.mails, hq]

theorem chat_packets_chat {op : ChatOp} {c : ChatSystem} {ns : List (EntityPtr × Packet)} (h : ChatEffect w op c ns)
    (hc : w.chat.Consistent) (hq : w.notices = []) : chat_packets (w.after c ns).mails = (w.after c ns).mails := by
  refine chat_packets_all fun m hm => ?_
  rw [mails_after hq] at hm
  obtain ⟨n, hn, rfl⟩ := List.mem_map.1 hm
  exact h.of_chat hc n hn

/-- One call. -/
theorem SameChat.call (h : SameChat w t) (hok : WorldOk w) {op : ChatOp} {c : ChatSystem}
    {ns : List (EntityPtr × Packet)} (he : ChatEffect w op c ns) {env : Env} (hop : op.Permitted (t.begin env))
    (hseat : ∀ p, op = .register_me p → ∀ q, w.online q → q.my_session ≠ p.my_session) :
    ∃ t', seatedMachine.step t (.call op) t' ∧ SameChat (w.after c ns) t' ∧
      t'.mails = ns.map fun n => (n.1.my_session, n.2) := by
  obtain ⟨env', hop', hrun⟩ := (he.elsewhere h.chat h.registry).is_call (h.inv hok) hop
  refine ⟨_, ⟨⟨env', hop', hrun⟩, ?_⟩, ⟨rfl, h.registry⟩, mails_after rfl⟩
  rintro p ⟨⟩ q hq
  rw [h.chat] at hq
  exact hseat p rfl q ((hok.players q).1 hq)

theorem chat_steps_call (h : SameChat w t) (hok : WorldOk w) (hq : w.notices = []) {op : ChatOp} {c : ChatSystem}
    {ns : List (EntityPtr × Packet)} (he : ChatEffect w op c ns) {env : Env} (hop : op.Permitted (t.begin env))
    (hreg : ¬ op.registers) : ChatSteps op.act t (w.after c ns) (w.after c ns).mails := by
  obtain ⟨t', hs, hsame, hmails⟩ := h.call hok he hop fun p hp => absurd (hp ▸ trivial) hreg
  refine ⟨[⟨t, .call op, t'⟩], t', Machine.Run.nil.snoc hs, hsame, List.append_nil _, ?_⟩
  rw [mails_after hq, ← hmails]
  exact List.append_nil _

/-- The world of `t` when `p` has left its registry. -/
def World.without (t : World) (p : EntityPtr) : World := { t.begin t.env with registry := t.registry.remove p }

theorem SameChat.leave_registry (h : SameChat w t) (hok : WorldOk w) (hp : w.online p) :
    seatedMachine.step t (.leave_registry p) (t.without p) := by
  have hname := (hok.friends_ok.same_players.by_id _ _ hp).2
  have hleave := world_registrar.unregister_me_eq (w := t.begin t.env) (p := p)
    (by rw [show (t.begin t.env).registry = w.registry from h.registry, hp]; simp)
    (by rw [show (t.begin t.env).registry = w.registry from h.registry, hname]; simp)
  exact ⟨⟨h.registry ▸ hp, h.registry ▸ hname, hleave⟩, fun _ hev => by cases hev⟩

/-- Then nobody finds him by a name. -/
theorem SameChat.gone_by_name (h : SameChat w t) (hok : WorldOk w) (n : Bytes) :
    (t.without p).registry.name_to_character n ≠ some p := by
  intro hn
  by_cases hnp : n = p.name
  · subst hnp
    simp [World.without, WorldRegistrar.remove] at hn
  · simp only [World.without, WorldRegistrar.remove, Function.update_of_ne hnp, h.registry] at hn
    exact hnp (hok.friends_ok.same_players.by_name n p hn).1.symm

/-- Whoever leaves the game leaves the registry, then the chat. -/
theorem Destroyed.chat_steps {st : ClientState} (hd : Destroyed k w st w' ps) (h : SameChat w t) (hok : WorldOk w)
    (hq : w.notices = []) (hon : ∀ p, st.holds p → w.online p) : ChatSteps st.parting t w' (chat_packets ps) := by
  cases hd with
  | other _ hno =>
    have hidle : st.parting = .idle := by
      unfold ClientState.parting
      cases hp : st.character with
      | none => rfl
      | some p => exact absurd (holds_iff_character.2 hp) (hno p)
    rw [hidle]
    exact .nothing h rfl rfl
  | ingame_state p acc w1 c ns hf hc =>
    have hp : w.online p := hon p rfl
    have hchat : w1.chat = w.chat := hf.same_chat
    have hreg : w1.registry = w.registry.remove p := by
      generalize (none : Option StdException) = res at hf
      cases hf
      rfl
    have h1 := h.leave_registry hok hp
    have hent : (t.chat.entities p).isSome := by
      rw [h.chat]
      exact (hok.players p).2 hp
    have heff : ChatEffect (t.without p) (.unregister_me p) c ns :=
      hc.elsewhere (h.chat.trans hchat.symm) (by rw [World.without, h.registry]; exact hreg.symm)
    have hallowed : (ChatOp.unregister_me p).Permitted ((t.without p).begin t.env) := ⟨hent, h.gone_by_name hok⟩
    obtain ⟨env, hop, hrun⟩ := heff.is_call (chat_inv_step (h.inv hok) h1.1) hallowed
    have hnews : chat_packets ((w1.quiet.after c ns).mails) = (w1.quiet.after c ns).mails :=
      chat_packets_chat hc (show w1.quiet.chat.Consistent from hchat ▸ hok.consistent) rfl
    refine ⟨[⟨t, .leave_registry p, _⟩, ⟨_, .call (.unregister_me p), _⟩], _,
      (Machine.Run.nil.snoc h1).snoc ⟨⟨env, hop, hrun⟩, fun _ hev => by cases hev⟩, ⟨rfl, ?_⟩, rfl, ?_⟩
    · show t.registry.remove p = w1.registry
      rw [hreg, h.registry]
    · rw [chat_packets_append, chat_packets_append, chat_packets_friends hf hq, hnews, mails_after rfl]
      simp [World.without, World.mails, World.begin, chat_packets, Packet.of_chat]

theorem SameChat.enter_registry (h : SameChat w t) (hfree : w.free p) (hin : (t.chat.entities p).isSome) :
    seatedMachine.step t (.enter_registry p) { t.begin t.env with registry := t.registry.add p } := by
  have henter := world_registrar.register_me_eq (w := t.begin t.env) (p := p)
    (by rw [show (t.begin t.env).registry = w.registry from h.registry]; exact hfree.1)
    (by rw [show (t.begin t.env).registry = w.registry from h.registry]; exact hfree.2)
  exact ⟨⟨hin, henter⟩, fun _ hev => by cases hev⟩

/-- Whoever enters the game enters the chat, then the registry. -/
theorem select_chat_steps {ch : LobbyCharacter} (h : SameChat w t) (hok : WorldOk w) (hfree : w.free (w.newcomer k ch))
    (hnew : ∀ p, (w.chat.entities p).isSome → p.address ≠ w.env.new_entity)
    (hseat : ∀ q, w.online q → q.my_session ≠ k)
    (hef : FriendEffect (w.in_chat (w.newcomer k ch)) (.register_me (w.newcomer k ch)) none w') :
    ChatSteps .idle t w' [] := by
  have hent : w.chat.entities (w.newcomer k ch) = none := by
    rw [← Option.not_isSome_iff_eq_none]
    exact fun h => hnew _ h rfl
  have hchat : w'.chat = (w.in_chat (w.newcomer k ch)).chat := hef.same_chat
  have hreg : w'.registry = w.registry.add (w.newcomer k ch) := by
    cases hef with
    | register_me _ ha => rfl
  -- The chat.
  have hcall : ChatEffect w (.register_me (w.newcomer k ch)) _ [] := .register_me _ hent
  have hallowed : (ChatOp.register_me (w.newcomer k ch)).Permitted (t.begin t.env) := by
    show t.chat.entities _ = none
    rw [h.chat]
    exact hent
  obtain ⟨t1, h1, hsame, hmails⟩ := h.call hok hcall hallowed (by rintro p ⟨⟩; exact hseat)
  -- The registry.
  have hin : (t1.chat.entities (w.newcomer k ch)).isSome := by
    rw [hsame.chat]
    simp
  have h2 := hsame.enter_registry hfree hin
  refine ⟨[⟨t, .call (.register_me (w.newcomer k ch)), t1⟩, ⟨t1, .enter_registry (w.newcomer k ch), _⟩], _,
    (Machine.Run.nil.snoc h1).snoc h2, ⟨hsame.chat.trans hchat.symm, ?_⟩, rfl, ?_⟩
  · show t1.registry.add _ = w'.registry
    rw [hreg, hsame.registry]
    rfl
  · show t1.mails ++ [] = []
    rw [hmails]
    rfl

theorem IngameEffect.chat_steps {c : MmoClient} {acc : AccountData} {request : IngameRequest}
    (he : IngameEffect k c w p acc request g) (h : SameChat w t) (hok : WorldOk w) (hq : w.notices = [])
    (hp : w.online p) (hroom : w.chat.rooms w.env.new_room = none) :
    ChatSteps (request.act p) t g.world (chat_packets g.packets) := by
  cases he with
  | ignored | log_off => exact .nothing h rfl rfl
  | chat request op c' ns hop hperm hef =>
    have hent : (t.chat.entities p).isSome := by
      rw [h.chat]
      exact (hok.players p).2 hp
    have hroom' : t.chat.rooms w.env.new_room = none := h.chat ▸ hroom
    have hop' : op.Permitted (t.begin w.env) := by
      cases request <;> cases hop
      · exact ⟨hent, hroom'⟩
      all_goals exact hent
    have hact : op.act = request.act p := by cases request <;> cases hop <;> rfl
    have hsteps := chat_steps_call h hok hq hef hop' (by cases request <;> cases hop <;> exact id)
    rw [← chat_packets_chat hef hok.consistent hq, hact] at hsteps
    exact hsteps.quiet
  | friends request op w' hop hperm hef | friends_fail request op e w' hop hperm hef =>
    have hnone := chat_packets_friends hef hq
    have hact : request.act p = .idle := by cases request <;> cases hop <;> rfl
    have hsteps : ChatSteps (request.act p) t w' (chat_packets w'.mails) := by
      rw [hnone, hact]
      exact .nothing h hef.same_chat (hef.same_registry (IngameRequest.friend_op_quiet hop))
    exact hsteps.quiet

theorem PacketEffect.chat_steps {c : MmoClient} {valid : Bytes → Bytes → Bool} {data : Buffer} {len : Nat}
    (he : PacketEffect k c w valid data len g) (h : SameChat w t) (hok : WorldOk w) (hq : w.notices = [])
    (hp : ∀ p, c.current_state.holds p → w.online p)
    (hmine : ∀ q, w.online q → q.my_session = k → c.current_state.holds q)
    (hnew : ∀ p, (w.chat.entities p).isSome → p.address ≠ w.env.new_entity)
    (hroom : w.chat.rooms w.env.new_room = none) :
    ChatSteps (c.current_state.packet_act data len) t g.world (chat_packets g.packets) := by
  unfold ClientState.packet_act
  cases he with
  | preauth g hcur he =>
    rw [hcur]
    generalize preauth_state.read data len = keys at he
    have looked (login : Bytes) : (w.account_lookup login).2.chat = w.chat ∧
        (w.account_lookup login).2.registry = w.registry := by
      rcases account_lookup_world w login with h | ⟨id, h⟩ <;> rw [h] <;> exact ⟨rfl, rfl⟩
    cases he with
    | unknown_opcode | malformed | bad_keys => exact .nothing h rfl rfl
    | lookup_fails key login w' hv hl | login key login acc w' hv hl =>
      have hw := looked login
      rw [hl] at hw
      exact .nothing h hw.1 hw.2
  | lobby_malformed _ _ _ hcur =>
    rw [hcur]
    exact .nothing h rfl rfl
  | ingame_malformed _ _ _ hcur hr =>
    rw [hcur, hr]
    exact .nothing h rfl rfl
  | lobby acc chars request g hcur hr he =>
    rw [hcur]
    have hcur' := hcur
    cases he with
    | select name ch w' hf hfree hef =>
      have hseat (q : EntityPtr) (hq : w.online q) (hk : q.my_session = k) : False := by
        have hheld := hmine q hq hk
        rw [hcur'] at hheld
        exact hheld
      have hmails := chat_packets_friends hef (by simp [World.in_chat, hq])
      have hall : chat_packets ((k, .character_selected ch) :: w'.mails) = [] := hmails
      have hsteps : ChatSteps .idle t w'.quiet (chat_packets ((k, .character_selected ch) :: w'.mails)) := by
        rw [hall]
        exact (select_chat_steps h hok hfree hnew hseat hef).quiet
      exact hsteps
    | ignored | log_off | select_absent | create_refused | create_taken | create_lookup_fails | create_fails | create
    | delete_absent | delete_fails | delete | select_fails => exact .nothing h rfl rfl
  | ingame p acc request g hcur hr he =>
    have hon := hp p (by rw [hcur]; rfl)
    rw [hcur, hr]
    exact he.chat_steps h hok hq hon hroom

end steps

section server

variable {s s' : Server} {t : World} {k : SessionId} {g : Progress}

theorem chat_sent_progress (hs : s.sent = []) : (s.progress k g).chat_sent = chat_packets g.packets :=
  congrArg chat_packets (packets_progress hs)

theorem chat_sent_put_world {w : World} (hs : s.sent = []) : (s.put_world w).chat_sent = chat_packets w.mails :=
  congrArg chat_packets (packets_put_world hs w)

theorem HandlerEffect.chat_steps {hd : Handler} (he : HandlerEffect s hd s') (hok : ServerOk s) (hs : s.sent = [])
    (hq : s.world.notices = []) (hnew : ∀ p, (s.world.chat.entities p).isSome → p.address ≠ s.world.env.new_entity)
    (hroom : s.world.chat.rooms s.world.env.new_room = none) (h : SameChat s.world t) :
    ChatSteps (s.act (.handler hd)) t s'.world s'.chat_sent := by
  cases he with
  | on_accept j hj => exact chat_sent_progress hs ▸ .nothing h rfl rfl
  | on_recv j data size c g hc hrecv hsize he =>
    have hact : s.act (.handler (.on_recv j data size)) = c.current_state.packet_act data size := by
      rw [Server.act, hc]
      rfl
    rw [chat_sent_progress hs, hact]
    refine he.chat_steps h hok.world hq (fun p hp => hok.held_online hc (.inl hp)) (fun q hon hk => ?_) hnew hroom
    obtain ⟨c', hc', hheld⟩ := (hok.players q).1 hon
    rw [hk, hc] at hc'
    cases hc'
    obtain ⟨_, _, _, hready⟩ := (hok.outstanding j c hc).of_receiving hrecv
    rcases hheld with hheld | ⟨st, hst, _⟩
    · exact hheld
    · have hnone : c.state_awaiting_transition = none := hready.no_transition
      rw [hnone] at hst
      cases hst
  | on_error j c hc hrecv => exact chat_sent_progress hs ▸ .nothing h rfl rfl
  | transition j rest c st w ps hstrand hc hst hd =>
    have hact : s.act (.handler .next_task) = c.current_state.parting := by
      simp only [Server.act, hstrand, hc, Option.elim_some]
    rw [chat_sent_progress (s := { s with sync_strand := rest }) hs, started_packets, hact]
    have hsteps := hd.chat_steps h hok.world hq fun p hp => hok.held_online hc (.inl hp)
    have hworld : (({ s with sync_strand := rest } : Server).progress j
        ((⟨c.entered st, w, ps, [], []⟩ : Progress).started j st)).world = w := started_world _ j st
    rwa [hworld]
  | finalize j rest c w ps hstrand hc hd =>
    have hact : s.act (.handler .next_task) = c.current_state.parting := by
      simp only [Server.act, hstrand, hc, Option.elim_some]
    rw [chat_sent_progress (s := { s with sync_strand := rest }) hs, hact]
    exact hd.chat_steps h hok.world hq fun p hp => hok.held_online hc (.inl hp)
  | lobby_chars_loaded j rest chars c acc old hstrand hc hst =>
    rw [Server.act, hstrand]
    exact chat_sent_progress (s := { s with sync_strand := rest }) hs ▸ .nothing h rfl rfl
  | load j id rest c hstrand hc =>
    exact chat_sent_progress (s := { s with database_strand := rest }) hs ▸ .nothing h rfl rfl
  | periodic_broadcast c ns he =>
    rw [chat_sent_put_world hs, chat_packets_chat he hok.world.consistent hq]
    have hallowed : ChatOp.periodic_broadcast.Permitted (t.begin s.world.env) := trivial
    exact (chat_steps_call h hok.world hq he hallowed id).quiet
  | periodic_cleanup w he =>
    rw [chat_sent_put_world hs, chat_packets_friends he hq]
    exact .nothing h he.same_chat (he.same_registry id)

/-- The server is a use of the chat system as it is meant to be used: every run of
the server is a run of permitted calls, with the same rooms and the same packets. -/
theorem server_uses_chat : Simulation serverMachine seatedMachine (fun s t => SameChat s.world t)
    (fun x => x.post.chat_sent) (fun y => y.post.mails) where
  init s h := by
    obtain ⟨db, rfl, _⟩ := h
    exact ⟨World.fresh db, ⟨rfl, rfl⟩, rfl, rfl⟩
  step s ev s' t hr hst hs := by
    have hok := reachable_server_ok hr
    cases ev with
    | handler hd =>
      obtain ⟨o, ha, hrun⟩ := hs
      obtain ⟨hb, he⟩ := handler_effect hok ha hrun
      have hsame : SameChat (s.begin o).world t := ⟨hst.chat, hst.registry⟩
      obtain ⟨tr, t', hcalls, hst', _, hmails⟩ := he.chat_steps hb rfl rfl ha.new_entity ha.new_room hsame
      exact ⟨tr, t', hcalls, hst', hmails⟩
    | reorder =>
      obtain ⟨w, hre, _, rfl⟩ := hs
      have hperm : t.Reorders { t with chat := w.chat, notices := [] } := by
        obtain ⟨registry, chat, friends, db, env, notices, statements⟩ := t
        obtain ⟨rfl, rfl⟩ := hst
        exact
          { registry := rfl
            rooms_perm := hre.rooms_perm
            rooms := hre.rooms
            entities := hre.entities
            friendlists := fun id => by
              cases friends.friendlist_of_id id with
              | none => exact .none
              | some l => exact .some ⟨rfl, List.Perm.refl _⟩
            pending_requests := rfl
            characters := .refl _
            character_friends := .refl _
            accounts := rfl
            access_level := rfl
            next_character_id := rfl }
      exact ⟨[⟨t, .reorder, _⟩], _, Machine.Run.nil.snoc ⟨⟨hperm, rfl⟩, fun _ hev => by cases hev⟩,
        ⟨rfl, hst.registry.trans hre.registry.symm⟩, rfl⟩

end server

/-! ## Rooms on the server -/

/-- The packets about room `R` among those sent to session `k`, in order. -/
def room_mail (k : SessionId) (R : Bytes) (ps : List (SessionId × Packet)) : List Packet :=
  (ps.filter fun m => m.1 = k ∧ m.2.chatroom = some R).map (·.2)

def Server.room_mail (s : Server) (k : SessionId) (R : Bytes) : List Packet :=
  tejk_it_izi.room_mail k R (s.sent.map fun m => (m.session, m.packet))

variable {k : SessionId} {R : Bytes}

theorem Packet.of_chat_of_chatroom {pk : Packet} (h : pk.chatroom = some R) : pk.of_chat = true := by
  cases pk <;> first | rfl | cases h

theorem room_mail_chat_packets (ps : List (SessionId × Packet)) : room_mail k R (chat_packets ps) = room_mail k R ps := by
  unfold room_mail chat_packets
  rw [List.filter_filter]
  refine congrArg _ (List.filter_congr fun m _ => ?_)
  by_cases hm : m.2.chatroom = some R
  · simp [hm, Packet.of_chat_of_chatroom hm]
  · simp [hm]

theorem room_mail_flatMap {α : Type} (l : List α) (f : α → List (SessionId × Packet)) :
    room_mail k R (l.flatMap f) = l.flatMap fun a => room_mail k R (f a) := by
  simp [room_mail, List.filter_flatMap, List.map_flatMap]

/-- A session is told of a room what its member is told. -/
theorem seated_step_told {w w' : World} {ev : ChatEvent} (hi : Seated w) (hs : seatedMachine.step w ev w') :
    room_mail k R w'.mails =
      (Groups.told_at TiiEntityRepresentative.my_session w.chat.members ev.act k R).map (packet_of R) := by
  obtain ⟨hnext, htold⟩ := chat_step_told hi.toChatInv hs.1
  have hi' := seated_step hi hs
  -- Whoever is sent something about the room is in it.
  have hmem (n : EntityPtr × Packet) (hn : n ∈ w'.notices) (hR : n.2.chatroom = some R) :
      n.1 ∈ Groups.next w.chat.members ev.act R := by
    by_contra hout
    have hnone := htold n.1 R
    rw [Groups.told_of_not_mem hout] at hnone
    have hheard : n.2 ∈ heard n.1 R w'.notices :=
      List.mem_map.2 ⟨n, List.mem_filter.2 ⟨hn, by simp [hR]⟩, rfl⟩
    rw [hnone] at hheard
    cases hheard
  have hmail : room_mail k R w'.mails =
      (w'.notices.filter fun n => n.1.my_session = k ∧ n.2.chatroom = some R).map (·.2) := by
    simp only [room_mail, World.mails, List.filter_map, List.map_map]
    rfl
  rw [hmail]
  by_cases hk : ∃ p ∈ Groups.next w.chat.members ev.act R, p.my_session = k
  · obtain ⟨p, hp, rfl⟩ := hk
    rw [Groups.told_at_of_mem hp, ← htold p R]
    refine congrArg _ (List.filter_congr fun n hn => ?_)
    by_cases hR : n.2.chatroom = some R
    · have hin (q : EntityPtr) (hq : q ∈ Groups.next w.chat.members ev.act R) : (w'.chat.entities q).isSome := by
        rw [← hnext] at hq
        obtain ⟨room, r, _, hr, hq⟩ := ChatSystem.room_of_mem hq
        exact hi'.consistent.registered room r q hr hq
      have hsame : n.1.my_session = p.my_session ↔ n.1 = p :=
        ⟨hi'.one_a_session n.1 p (hin _ (hmem n hn hR)) (hin p hp), fun h => h ▸ rfl⟩
      simp [hR, hsame]
    · simp [hR]
  · have hno : ∀ p ∈ Groups.next w.chat.members ev.act R, p.my_session ≠ k := fun p hp hpk => hk ⟨p, hp, hpk⟩
    rw [Groups.told_at_nobody hno, List.filter_eq_nil_iff.2 fun n hn => ?_]
    · rfl
    · simp only [decide_eq_true_eq, not_and]
      intro hs hR
      exact hno n.1 (hmem n hn hR) hs

/-- Calls that come to one act at most change the rooms, and tell of them, as that
act does. -/
theorem seated_run_told {t t' : World} {tr : List (Taken World ChatEvent)} {a : Groups.Act EntityPtr Bytes Bytes}
    (hi : Seated t) (h : seatedMachine.Run t tr t') (hacts : tr.flatMap (fun y => y.event.act.made) = a.made) :
    t'.chat.members = Groups.next t.chat.members a ∧
      ∀ k R, room_mail k R (tr.flatMap fun y => y.post.mails) =
        (Groups.told_at TiiEntityRepresentative.my_session t.chat.members a k R).map (packet_of R) := by
  induction tr generalizing t a with
  | nil =>
    obtain rfl := Machine.run_nil.1 h
    obtain rfl := Groups.Act.made_nil.1 hacts.symm
    exact ⟨rfl, fun k R => by rw [Groups.told_at_idle]; rfl⟩
  | cons y tr ih =>
    obtain ⟨rfl, hs, hrest⟩ := Machine.run_cons.1 h
    have hnext := (chat_step_told hi.toChatInv hs.1).1
    rw [List.flatMap_cons] at hacts
    by_cases hidle : y.event.act = .idle
    · -- Nothing yet.
      rw [hidle] at hacts hnext
      obtain ⟨hmembers, htold⟩ := ih (seated_step hi hs) hrest hacts
      rw [show y.post.chat.members = y.pre.chat.members from hnext] at hmembers htold
      refine ⟨hmembers, fun k R => ?_⟩
      have hquiet := seated_step_told (k := k) (R := R) hi hs
      rw [hidle, Groups.told_at_idle] at hquiet
      rw [room_mail_flatMap, List.flatMap_cons, hquiet, ← htold k R, room_mail_flatMap]
      rfl
    · -- The act; nothing after it.
      rw [Groups.Act.made_of_ne hidle] at hacts
      have ha : a ≠ .idle := by
        rintro rfl
        cases hacts
      rw [Groups.Act.made_of_ne ha] at hacts
      obtain ⟨rfl, hnone⟩ := List.cons.inj hacts
      obtain ⟨hmembers, htold⟩ := ih (a := .idle) (seated_step hi hs) hrest hnone
      refine ⟨hmembers.trans hnext, fun k R => ?_⟩
      have hlater := htold k R
      rw [Groups.told_at_idle, room_mail_flatMap] at hlater
      rw [room_mail_flatMap, List.flatMap_cons, hlater, seated_step_told hi hs]
      exact List.append_nil _

theorem ServerOk.seated {s : Server} (h : ServerOk s) : Seated s.world where
  consistent := h.world.consistent
  registry_known := h.world.registry_known
  one_a_session p q hp hq hpq := h.same_session ((h.world.players q).1 hq) ((h.world.players p).1 hp) hpq

/-- One handler is one act. -/
theorem server_step_told {s s' : Server} {ev : ServerEvent} (hok : ServerOk s) (hs : serverMachine.step s ev s') :
    s'.world.chat.members = Groups.next s.world.chat.members (s.act ev) ∧
      ∀ k R, s'.room_mail k R =
        (Groups.told_at TiiEntityRepresentative.my_session s.world.chat.members (s.act ev) k R).map (packet_of R) := by
  cases ev with
  | handler hd =>
    obtain ⟨o, ha, hrun⟩ := hs
    obtain ⟨hb, he⟩ := handler_effect hok ha hrun
    obtain ⟨tr, t', hcalls, hsame, hacts, hmails⟩ :=
      he.chat_steps hb rfl rfl ha.new_entity ha.new_room (t := (s.begin o).world) ⟨rfl, rfl⟩
    obtain ⟨hmembers, htold⟩ := seated_run_told hb.seated hcalls hacts
    rw [hsame.chat] at hmembers
    refine ⟨hmembers, fun k R => ?_⟩
    have hmail : s'.room_mail k R = room_mail k R s'.chat_sent := (room_mail_chat_packets _).symm
    rw [hmail, ← hmails]
    exact htold k R
  | reorder =>
    obtain ⟨w, hre, _, rfl⟩ := hs
    have hidle : s.act .reorder = .idle := rfl
    refine ⟨hre.members, fun k R => ?_⟩
    rw [hidle, Groups.told_at_idle]
    rfl

/-- A handler, as the groups see it. -/
def in_groups (x : Taken Server ServerEvent) : Taken (Bytes → Finset EntityPtr) (Groups.Act EntityPtr Bytes Bytes) :=
  ⟨x.pre.world.chat.members, x.pre.act x.event, x.post.world.chat.members⟩

/-- Over every run of the server whose packets fit, the chat system is one that
permitted calls lead to; the rooms change as groups do, by one act for each handler,
the one that was asked for; and what the handler sends to any session about any room
is the news of that act in the room, if a character of the session is in it
afterwards. -/
theorem server_rooms_are_groups {s0 s : Server} {tr : List (Taken Server ServerEvent)} (h0 : fittingMachine.init s0)
    (h : fittingMachine.Run s0 tr s) :
    (∃ t, chatMachine.Reachable t ∧ SameChat s.world t) ∧
      Groups.machine.Run (fun _ => ∅) (tr.map in_groups) s.world.chat.members ∧
      ∀ x ∈ tr, ∀ k R, x.post.room_mail k R =
        (Groups.told_at TiiEntityRepresentative.my_session x.pre.world.chat.members (x.pre.act x.event) k R).map
          (packet_of R) := by
  have hstart : serverMachine.Reachable s0 := .init h0
  have hrun : serverMachine.Run s0 tr s := h.of_steps fun _ _ hs => hs.1
  have hempty : s0.world.chat.members = fun _ => ∅ := by
    obtain ⟨db, rfl, _⟩ := h0
    rfl
  refine ⟨?_, ?_, ?_⟩
  · obtain ⟨t, ht, hsame⟩ := server_uses_chat.reachable (hstart.run hrun)
    exact ⟨t, ht.of_steps (fun _ h => h) fun _ _ _ hs => hs.1, hsame⟩
  · rw [← hempty]
    have hstep (s : Server) (ev : ServerEvent) (s' : Server) (hr : serverMachine.Reachable s)
        (hs : serverMachine.step s ev s') :
        Groups.machine.step s.world.chat.members (s.act ev) s'.world.chat.members :=
      (server_step_told (reachable_server_ok hr) hs).1
    exact hrun.image (fun s => s.world.chat.members) Server.act hstart hstep
  · intro x hx
    exact (server_step_told (reachable_server_ok (hrun.reachable_pre hstart hx)) (hrun.step_of_mem hx)).2

/-- Dora and Eve are in a room, and Dora says something there. -/
theorem eve_hears_dora : ∃ tr s, fittingMachine.Run (.fresh two_players) tr s ∧
    s.room_mail 1 (ascii "room") = [.chat_msg (ascii "room") (ascii "Dora") (ascii "hi")] ∧
    (∃ t, chatMachine.Reachable t ∧ SameChat s.world t) ∧
    Groups.machine.Run (fun _ => ∅) (tr.map in_groups) s.world.chat.members ∧
    ∀ x ∈ tr, ∀ k R, x.post.room_mail k R =
      (Groups.told_at TiiEntityRepresentative.my_session x.pre.world.chat.members (x.pre.act x.event) k R).map
        (packet_of R) := by
  obtain ⟨tr, s, hr, hmail, _⟩ := play_fresh_fitting [0, 1]
    (both_enter ++ [joins 0 (ascii "room"), joins 1 (ascii "room"),
      speaks 0 (ascii "room") (ascii "hi")])
    (fun s => s.room_mail 1 (ascii "room")) [.chat_msg (ascii "room") (ascii "Dora") (ascii "hi")] two_players_init
    (by decide +kernel) (by decide +kernel)
  exact ⟨tr, s, hr, hmail, server_rooms_are_groups (schema_init_server two_players_init) hr⟩

end tejk_it_izi
