import TejkItIzi.Causes
import TejkItIzi.FriendConsent
import TejkItIzi.Lib.Simulation
/-!
# The friends of the server

While every statement succeeds, each handler of the server is one step of
`clockedMachine`: a call of the friend system that is permitted, or none. What
holds of the lists and of the consent behind a friendship so holds of the
server, whatever the sessions send and in whatever order.
-/

namespace tejk_it_izi

open ProgLib

/-! ## A call, made in another world -/

section call

variable {w w' v : World} {op : FriendOp} {res : Option StdException}

/-- What an online player's list is found under. -/
theorem SamePlayers.list_of {r : WorldRegistrar} {f : FriendSystem} {p : EntityPtr} {l : FriendList}
    (h : SamePlayers r f) (hp : r.id_to_character p.id = some p) (hl : f.friendlist_of_id p.id = some l) :
    l.backend = p := by
  have hon := h.list_online p.id l hl
  rw [hp] at hon
  exact (Option.some.inj hon).symm

/-- The effect is that of the call. -/
theorem FriendEffect.is_call (h : FriendEffect w op res w') (hok : FriendsOk w) (hop : op.Permitted w) :
    op.run w = finish res w' := by
  have hs := hok.same_players
  cases h with
  | register_me p ha hself =>
    obtain ⟨hid, hname⟩ := hop
    have hrun := friend_system.register_me_run hs (hs.no_list hid) hself ha
    exact (bind_ok hrun _).trans (world_registrar.register_me_eq (w := friend_system.registered w p) hid hname)
  | register_me_fails p e ha =>
    obtain ⟨hid, _⟩ := hop
    exact bind_error (friend_system.register_me_fails_run (hs.no_list hid) ha) _
  | unregister_me p l hl =>
    have hp : w.registry.id_to_character p.id = some p := hop
    have hname := (hs.by_id p.id p hp).2
    have hreg := world_registrar.unregister_me_eq (w := w) (p := p) (by rw [hp]; simp) (by rw [hname]; simp)
    exact (bind_ok hreg _).trans (friend_system.unregister_me_run (w := w.with_registry (w.registry.remove p)) hl)
  | add_fail p name l reason hl hf => exact friend_system.add_fail_run hs hl (hs.list_of hop hl) hf
  | add_waiting p name q l hl hq hne hm hr | add_recorded p name q l hl hq hne hm hr =>
    have hon := (hs.by_name name q hq).2
    obtain ⟨l', hl'⟩ := Option.isSome_iff_exists.1 (hs.online_list q.id q hon)
    have hrun := friend_system.add_pending_run hl (hs.list_of hop hl) hq hne hm hl' (hs.list_of hon hl')
    rw [← Prod.mk.eta (p := w.friends.pending_requests.process_add_friend_request p.id q.id w.env.now), hr] at hrun
    exact hrun
  | add_match p name q l l' hl hq hne hm hl' hr =>
    have hrun := friend_system.add_pending_run hl (hs.list_of hop hl) hq hne hm hl'
      (hs.list_of (hs.by_name name q hq).2 hl')
    rw [← Prod.mk.eta (p := w.friends.pending_requests.process_add_friend_request p.id q.id w.env.now), hr] at hrun
    exact hrun
  | remove_lookup_fails p name e ha =>
    obtain ⟨l, hl⟩ := Option.isSome_iff_exists.1 (hs.online_list p.id p hop)
    exact friend_system.remove_lookup_fails_run hl (friend_system.lookup_fails_run name ha)
  | remove_fail p name l ha hl hf =>
    exact friend_system.remove_fail_run hl (hs.list_of hop hl) (friend_system.lookup_run name ha) hf
  | remove_offline p name l id ha hl hid h0 hm hl' =>
    have hne : id ≠ p.id := by
      rintro rfl
      exact hok.not_own _ l hl hm
    exact friend_system.remove_offline_run hl (hs.list_of hop hl) (hid ▸ friend_system.lookup_run name ha) h0 hm hne hl'
  | remove_online p name l q l' ha hl hid h0 hm hne hon hl' =>
    exact friend_system.remove_online_run hl (hs.list_of hop hl) (hid ▸ friend_system.lookup_run name ha) h0 hm hne hl'
      (hs.list_of hon hl')
  | cleanup => simp [FriendOp.run, friend_system.cleanup, finish, World.friended, FriendSystem.with_pending]

/-- A call leaves the chat alone, and does not look at it. -/
theorem FriendEffect.elsewhere (h : FriendEffect w op res w') (hreg : v.registry = w.registry)
    (hf : v.friends = w.friends) (hdb : v.db = w.db) (henv : v.env = w.env) (hn : v.notices = w.notices) :
    ∃ v', FriendEffect v op res v' ∧ v'.registry = w'.registry ∧ v'.friends = w'.friends ∧ v'.db = w'.db ∧
      v'.env = w'.env ∧ v'.notices = w'.notices := by
  obtain ⟨registry, chat, friends, db, env, notices, statements⟩ := v
  cases hreg
  cases hf
  cases hdb
  cases henv
  cases hn
  cases h with
  | register_me p ha hself => exact ⟨_, .register_me p ha hself, rfl, rfl, rfl, rfl, rfl⟩
  | register_me_fails p e ha => exact ⟨_, .register_me_fails p e ha, rfl, rfl, rfl, rfl, rfl⟩
  | unregister_me p l hl => exact ⟨_, .unregister_me p l hl, rfl, rfl, rfl, rfl, rfl⟩
  | add_fail p name l reason hl hf =>
    have hf' : AddFails ⟨w.registry, chat, w.friends, w.db, w.env, w.notices, statements⟩ p l name reason := by
      cases hf with
      | player_not_online hq => exact .player_not_online hq
      | cannot_invite_self q hq hid => exact .cannot_invite_self q hq hid
      | already_friends q hq hid hm => exact .already_friends q hq hid hm
    exact ⟨_, .add_fail p name l reason hl hf', rfl, rfl, rfl, rfl, rfl⟩
  | add_waiting p name q l hl hq hne hm hr =>
    exact ⟨_, .add_waiting p name q l hl hq hne hm hr, rfl, rfl, rfl, rfl, rfl⟩
  | add_recorded p name q l hl hq hne hm hr =>
    exact ⟨_, .add_recorded p name q l hl hq hne hm hr, rfl, rfl, rfl, rfl, rfl⟩
  | add_match p name q l l' hl hq hne hm hl' hr =>
    exact ⟨_, .add_match p name q l l' hl hq hne hm hl' hr, rfl, rfl, rfl, rfl, rfl⟩
  | remove_lookup_fails p name e ha => exact ⟨_, .remove_lookup_fails p name e ha, rfl, rfl, rfl, rfl, rfl⟩
  | remove_fail p name l ha hl hf => exact ⟨_, .remove_fail p name l ha hl hf, rfl, rfl, rfl, rfl, rfl⟩
  | remove_offline p name l id ha hl hid h0 hm hl' =>
    exact ⟨_, .remove_offline p name l id ha hl hid h0 hm hl', rfl, rfl, rfl, rfl, rfl⟩
  | remove_online p name l q l' ha hl hid h0 hm hne hon hl' =>
    exact ⟨_, .remove_online p name l q l' ha hl hid h0 hm hne hon hl', rfl, rfl, rfl, rfl, rfl⟩
  | cleanup => exact ⟨_, .cleanup, rfl, rfl, rfl, rfl, rfl⟩

theorem FriendOp.Permitted.elsewhere (h : op.Permitted w) (hreg : v.registry = w.registry) : op.Permitted v := by
  have hsame : op.Permitted v = op.Permitted w := by cases op <;> simp only [FriendOp.Permitted, World.online, hreg]
  rwa [hsame]

end call

/-! ## A handler, seen from the friend system -/

/-- The registry, the friend system and the tables of another world, in which no
more time has passed. -/
structure SameFriends (w t : World) : Prop where
  registry : t.registry = w.registry
  friends : t.friends = w.friends
  db : t.db = w.db
  clock : t.env.now ≤ w.env.now

def friend_packets (ps : List (SessionId × Packet)) : List (SessionId × Packet) := ps.filter fun m => m.2.of_friends

/-- The packets of the friend system among those the handler has handed to sessions. -/
def Server.friends_sent (s : Server) : List (SessionId × Packet) :=
  friend_packets (s.sent.map fun m => (m.session, m.packet))

/-- If the step asks to be friends, so does the handler. -/
def FriendEvent.asked_by (s : Server) (hd : Handler) (ev : FriendEvent) : Prop :=
  ∀ p name, ev = .call (.process_req_friend_add p name) → s.asks hd p (.friend_add name)

/-- A step on account of handler `hd` that brings `t` to `w` and sends these packets. -/
def FriendStep (s : Server) (hd : Handler) (t w : World) (ps : List (SessionId × Packet)) : Prop :=
  ∃ ev t', clockedMachine.step t ev t' ∧ SameFriends w t' ∧ ev.asked_by s hd ∧ t'.mails = ps

section steps

variable {s : Server} {hd : Handler} {w w' t : World} {k : SessionId} {p : EntityPtr} {ps : List (SessionId × Packet)}
  {g : Progress}

theorem friend_packets_append (ps qs : List (SessionId × Packet)) :
    friend_packets (ps ++ qs) = friend_packets ps ++ friend_packets qs := List.filter_append ..

theorem friend_packets_chat {op : ChatOp} {c : ChatSystem} {ns : List (EntityPtr × Packet)} (h : ChatEffect w op c ns)
    (hc : w.chat.Consistent) (hq : w.notices = []) : friend_packets (w.after c ns).mails = [] := by
  refine List.filter_eq_nil_iff.2 fun m hm => ?_
  obtain ⟨n, hn, _, hpk⟩ := mem_mails hm
  rw [World.after_notices, hq, List.nil_append] at hn
  rw [← hpk, Packet.not_of_friends (h.of_chat hc n hn)]
  exact Bool.false_ne_true

theorem friend_packets_friends {op : FriendOp} {res : Option StdException} (h : FriendEffect w op res w')
    (hq : w.notices = []) : friend_packets w'.mails = w'.mails := by
  refine List.filter_eq_self.2 fun m hm => ?_
  obtain ⟨n, hn, _, hpk⟩ := mem_mails hm
  rw [← hpk]
  exact (h.sends hq n hn).of_friends.1

/-- What else becomes of the world does not matter. -/
theorem FriendStep.same (h : FriendStep s hd t w ps) (hreg : w'.registry = w.registry) (hf : w'.friends = w.friends)
    (hdb : w'.db = w.db) (hnow : w'.env.now = w.env.now) : FriendStep s hd t w' ps := by
  obtain ⟨ev, t', hstep, hsame, hasked, hmails⟩ := h
  exact ⟨ev, t', hstep, ⟨hsame.registry.trans hreg.symm, hsame.friends.trans hf.symm, hsame.db.trans hdb.symm,
    hsame.clock.trans hnow.ge⟩, hasked, hmails⟩

/-- The friend system is not called. -/
theorem FriendStep.tables (h : SameFriends w t) (hreg : w'.registry = w.registry) (hf : w'.friends = w.friends)
    (hdb : w'.db.character_friends = w.db.character_friends) (hnow : w.env.now ≤ w'.env.now) :
    FriendStep s hd t w' [] := by
  have hstep : clockedMachine.step t .other_tables { t.begin t.env with db := w'.db } :=
    ⟨⟨w'.db, by rw [hdb, h.db], rfl⟩, le_refl _⟩
  exact ⟨_, _, hstep, ⟨h.registry.trans hreg.symm, h.friends.trans hf.symm, rfl, h.clock.trans hnow⟩,
    (fun _ _ hev => by cases hev), rfl⟩

/-- It is called. -/
theorem FriendStep.call (op : FriendOp) (h : SameFriends w t) (hok : FriendsOk w) (henv : w.env.db_outcomes = [])
    (hq : w.notices = []) (hop : op.Permitted w) (he : FriendEffect w op none w')
    (hasked : FriendEvent.asked_by s hd (.call op)) : FriendStep s hd t w' w'.mails := by
  obtain ⟨t', he', hreg, hf, hdb, henv', hn⟩ :=
    he.elsewhere (v := t.begin w.env) h.registry h.friends h.db rfl hq.symm
  have hok' : FriendsOk (t.begin w.env) := hok.same h.registry h.friends
  have hop' : op.Permitted (t.begin w.env) := hop.elsewhere h.registry
  refine ⟨.call op, t', ⟨⟨w.env, henv, hop', he'.is_call hok' hop'⟩, ?_⟩,
    ⟨hreg, hf, hdb, (congrArg Env.now henv').le⟩, hasked, ?_⟩
  · rw [he'.now]
    exact h.clock
  · rw [World.mails, hn]
    rfl

theorem asked_by_other {op : FriendOp} (h : ∀ p name, op ≠ .process_req_friend_add p name) :
    FriendEvent.asked_by s hd (.call op) := by
  rintro p name ⟨⟩
  exact absurd rfl (h p name)

theorem Destroyed.friend_step {st : ClientState} (hd' : Destroyed k w st w' ps) (h : SameFriends w t) (hok : WorldOk w)
    (henv : w.env.db_outcomes = []) (hq : w.notices = []) (hon : ∀ p, st.holds p → w.online p) :
    FriendStep s hd t w' (friend_packets ps) := by
  cases hd' with
  | other => exact .tables h rfl rfl rfl (le_refl _)
  | ingame_state p acc w1 c ns hf hc =>
    have hstep : FriendStep s hd t w1 w1.mails :=
      .call (.unregister_me p) h hok.friends_ok henv hq (hon p rfl) hf (asked_by_other fun _ _ h => by cases h)
    have hnone := friend_packets_chat hc (show w1.quiet.chat.Consistent from hf.same_chat ▸ hok.consistent) rfl
    rw [friend_packets_append, friend_packets_append, friend_packets_friends hf hq, hnone, List.append_nil]
    exact (List.append_nil w1.mails).symm ▸ hstep.same rfl rfl rfl rfl

theorem select_friend_step {ch : LobbyCharacter} (h : SameFriends w t) (hok : WorldOk w)
    (henv : w.env.db_outcomes = []) (hq : w.notices = []) (hfree : w.free (w.newcomer k ch))
    (he : FriendEffect (w.in_chat (w.newcomer k ch)) (.register_me (w.newcomer k ch)) none w') :
    FriendStep s hd t w' w'.mails := by
  have hsame : SameFriends (w.in_chat (w.newcomer k ch)) t := ⟨h.registry, h.friends, h.db, h.clock⟩
  have hok' : FriendsOk (w.in_chat (w.newcomer k ch)) := hok.friends_ok.same rfl rfl
  exact .call (.register_me (w.newcomer k ch)) hsame hok' henv (by simp [World.in_chat, hq]) hfree he
    (asked_by_other fun _ _ h => by cases h)

theorem IngameEffect.friend_step {c : MmoClient} {acc : AccountData} {request : IngameRequest}
    (he : IngameEffect k c w p acc request g) (h : SameFriends w t) (hok : WorldOk w) (henv : w.env.db_outcomes = [])
    (hq : w.notices = []) (ha : s.asks hd p request) : FriendStep s hd t g.world (friend_packets g.packets) := by
  cases he with
  | ignored | log_off => exact .tables h rfl rfl rfl (le_refl _)
  | chat request op c' ns hop hperm hef =>
    have hnone := friend_packets_chat hef hok.consistent hq
    have hstep : FriendStep s hd t (w.after c' ns).quiet (friend_packets (w.after c' ns).mails) := by
      rw [hnone]
      exact .tables h rfl rfl rfl (le_refl _)
    exact hstep
  | friends request op w' hop hperm hef =>
    have hasked : FriendEvent.asked_by s hd (.call op) := by
      rintro q name ⟨⟩
      cases request <;> cases hop
      exact ha
    have hstep : FriendStep s hd t w'.quiet (friend_packets w'.mails) := by
      rw [friend_packets_friends hef hq]
      exact (FriendStep.call op h hok.friends_ok henv hq hperm hef hasked).same rfl rfl rfl rfl
    exact hstep
  | friends_fail request op e w' hop hperm hef =>
    have hnone := hef.res_none henv
    cases hnone

theorem LobbyEffect.friend_step {c : MmoClient} {acc : AccountData} {chars : List LobbyCharacter}
    {request : LobbyRequest} (he : LobbyEffect k c w acc chars request g) (h : SameFriends w t) (hok : WorldOk w)
    (henv : w.env.db_outcomes = []) (hq : w.notices = []) : FriendStep s hd t g.world (friend_packets g.packets) := by
  cases he with
  | select name ch w' hf hfree hef =>
    have hmails := friend_packets_friends hef (by simp [World.in_chat, hq])
    have hall : friend_packets ((k, .character_selected ch) :: w'.mails) = w'.mails := hmails
    have hstep : FriendStep s hd t w'.quiet (friend_packets ((k, .character_selected ch) :: w'.mails)) := by
      rw [hall]
      exact (select_friend_step h hok henv hq hfree hef).same rfl rfl rfl rfl
    exact hstep
  | ignored | log_off | select_absent | create_refused | create_taken | create_lookup_fails | create_fails | create
  | delete_absent | delete_fails | delete | select_fails => exact .tables h rfl rfl rfl (le_refl _)

theorem PreauthEffect.friend_step {c : MmoClient} {keys : Keys} {valid : Bytes → Bytes → Bool}
    (he : PreauthEffect k c w valid keys g) (h : SameFriends w t) :
    FriendStep s hd t g.world (friend_packets g.packets) := by
  have looked {login : Bytes} {w' : World} (hl : (w.account_lookup login).2 = w') :
      w'.registry = w.registry ∧ w'.friends = w.friends ∧ w'.db = w.db ∧ w'.env.now = w.env.now := by
    rcases account_lookup_world w login with h | ⟨id, h⟩ <;> rw [← hl, h] <;> exact ⟨rfl, rfl, rfl, rfl⟩
  cases he with
  | unknown_opcode | malformed | bad_keys => exact .tables h rfl rfl rfl (le_refl _)
  | lookup_fails key login w' hv hl | login key login acc w' hv hl =>
    obtain ⟨h1, h2, h3, h4⟩ := looked (congrArg Prod.snd hl)
    exact .tables h h1 h2 (congrArg _ h3) h4.ge

end steps

/-! ## While no statement fails -/

/-- The server while the database answers every statement, under a clock that does
not run backwards, from a table with the smaller id first. -/
def steadyMachine : Machine Server ServerEvent where
  init s := serverMachine.init s ∧ s.world.db.FirstSmaller
  step s ev s' := match ev with
    | .handler hd => ∃ o, hd.Admitted s o ∧ o.env.db_outcomes = [] ∧ s.world.env.now ≤ o.env.now ∧
      hd.run (s.begin o) = .ok () s'
    | .reorder => ∃ w, s.world.Reorders w ∧ w.notices = [] ∧ w.env = s.world.env ∧
      s' = { s with world := w, sent := [] }

def tameMachine : Machine Server ServerEvent := steadyMachine.only Server.Tame

section server

variable {s s' : Server} {t : World} {hd : Handler} {k : SessionId} {g : Progress}

theorem steady_is_server {ev : ServerEvent} (h : steadyMachine.step s ev s') : serverMachine.step s ev s' := by
  cases ev with
  | handler hd =>
    obtain ⟨o, ha, _, _, hr⟩ := h
    exact ⟨o, ha, hr⟩
  | reorder =>
    obtain ⟨w, hre, hq, _, rfl⟩ := h
    exact ⟨w, hre, hq, rfl⟩

theorem steady_reachable (h : steadyMachine.Reachable s) : serverMachine.Reachable s :=
  h.of_steps (fun _ h0 => h0.1) fun _ _ _ => steady_is_server

/-- What the tables do in a run of `tameMachine` is what the database does: it reads
every statement as it is meant. -/
theorem tame_machine_exact {tr : List (Taken Server ServerEvent)} (h0 : tameMachine.init s)
    (h : tameMachine.Run s tr s') :
    ∀ x ∈ tr, ∀ st ∈ x.post.world.statements, x.event ≠ .reorder → st.Exact :=
  plain_run_exact h0.1 (h.of_steps fun _ _ hs => steady_is_server hs.2) fun _ hx => (h.step_of_mem hx).1.1

theorem friends_sent_progress (hs : s.sent = []) : (s.progress k g).friends_sent = friend_packets g.packets :=
  congrArg friend_packets (packets_progress hs)

theorem friends_sent_put_world {w : World} (hs : s.sent = []) : (s.put_world w).friends_sent = friend_packets w.mails :=
  congrArg friend_packets (packets_put_world hs w)

theorem HandlerEffect.friend_step (he : HandlerEffect s hd s') (hok : ServerOk s) (hs : s.sent = [])
    (hq : s.world.notices = []) (henv : s.world.env.db_outcomes = []) (h : SameFriends s.world t) :
    FriendStep s hd t s'.world s'.friends_sent := by
  cases he with
  | on_accept j hj => exact friends_sent_progress hs ▸ .tables h rfl rfl rfl (le_refl _)
  | on_recv j data size c g hc hrecv hsize he =>
    rw [friends_sent_progress hs]
    cases he with
    | preauth g hst he => exact he.friend_step h
    | lobby acc chars request g hst hr he => exact he.friend_step h hok.world henv hq
    | ingame p acc request g hst hr he =>
      have hk : p.my_session = j := hok.own j c p hc (.inl (by rw [show c.current_state = _ from hst]; rfl))
      subst hk
      exact he.friend_step h hok.world henv hq ⟨acc, data, size, ⟨rfl, c, hc, hst⟩, hr⟩
    | lobby_malformed | ingame_malformed => exact .tables h rfl rfl rfl (le_refl _)
  | on_error j c hc hrecv => exact friends_sent_progress hs ▸ .tables h rfl rfl rfl (le_refl _)
  | transition j rest c st w ps hstrand hc hst hd =>
    rw [friends_sent_progress (s := { s with sync_strand := rest }) hs, started_packets]
    have hstep : FriendStep s .next_task t w (friend_packets ps) :=
      hd.friend_step h hok.world henv hq fun p hp => hok.held_online hc (.inl hp)
    have hworld : (({ s with sync_strand := rest } : Server).progress j
        ((⟨c.entered st, w, ps, [], []⟩ : Progress).started j st)).world = w := started_world _ j st
    rwa [hworld]
  | finalize j rest c w ps hstrand hc hd =>
    rw [friends_sent_progress (s := { s with sync_strand := rest }) hs]
    exact hd.friend_step h hok.world henv hq fun p hp => hok.held_online hc (.inl hp)
  | lobby_chars_loaded j rest chars c acc old hstrand hc hst =>
    exact friends_sent_progress (s := { s with sync_strand := rest }) hs ▸ .tables h rfl rfl rfl (le_refl _)
  | load j id rest c hstrand hc =>
    exact friends_sent_progress (s := { s with database_strand := rest }) hs ▸ .tables h rfl rfl rfl (le_refl _)
  | periodic_broadcast c ns he =>
    rw [friends_sent_put_world hs, friend_packets_chat he hok.world.consistent hq]
    exact .tables h rfl rfl rfl (le_refl _)
  | periodic_cleanup w he =>
    rw [friends_sent_put_world hs, friend_packets_friends he hq]
    have hstep : FriendStep s .periodic_cleanup t w w.mails :=
      .call .cleanup h hok.world.friends_ok henv hq trivial he (asked_by_other fun _ _ h => by cases h)
    exact hstep.same rfl rfl rfl rfl

/-- Each step of the server is one of the friend system, with the same lists, the
same tables and the same packets. -/
theorem steady_step_friends {ev : ServerEvent} (hok : ServerOk s) (hs : steadyMachine.step s ev s')
    (h : SameFriends s.world t) : ∃ fev t', clockedMachine.step t fev t' ∧ SameFriends s'.world t' ∧
      t'.mails = s'.friends_sent ∧ ∀ p name, fev = .call (.process_req_friend_add p name) →
        ∃ hd, ev = .handler hd ∧ s.asks hd p (.friend_add name) := by
  cases ev with
  | handler hd =>
    obtain ⟨o, ha, henv, hnow, hrun⟩ := hs
    obtain ⟨hb, he⟩ := handler_effect hok ha hrun
    have hsame : SameFriends (s.begin o).world t := ⟨h.registry, h.friends, h.db, h.clock.trans hnow⟩
    obtain ⟨fev, t', hstep, hsame', hasked, hmails⟩ := he.friend_step hb rfl rfl henv hsame
    exact ⟨fev, t', hstep, hsame', hmails, fun p name hev => ⟨hd, rfl, hasked p name hev⟩⟩
  | reorder =>
    obtain ⟨w, hre, _, henv, rfl⟩ := hs
    have hperm : t.Reorders { t with friends := w.friends, db := w.db, notices := [] } := by
      obtain ⟨registry, chat, friends, db, env, notices, statements⟩ := t
      obtain ⟨rfl, rfl, rfl, _⟩ := h
      exact
        { registry := rfl
          rooms_perm := .refl _
          rooms := fun a => by
            cases chat.rooms a with
            | none => exact .none
            | some r => exact .some ⟨rfl, List.Perm.refl _⟩
          entities := fun p => by
            cases chat.entities p with
            | none => exact .none
            | some e => exact .some (List.Perm.refl _)
          friendlists := hre.friendlists
          pending_requests := hre.pending_requests
          characters := hre.characters
          character_friends := hre.character_friends
          accounts := hre.accounts
          access_level := hre.access_level
          next_character_id := hre.next_character_id }
    exact ⟨.reorder, _, ⟨⟨hperm, rfl, rfl⟩, le_refl _⟩,
      ⟨h.registry.trans hre.registry.symm, rfl, rfl, h.clock.trans (congrArg Env.now henv).ge⟩, rfl,
      fun _ _ hev => by cases hev⟩

theorem server_uses_friends : Simulation steadyMachine clockedMachine (fun s t => SameFriends s.world t)
    (fun x => x.post.friends_sent) (fun y => y.post.mails) where
  init s h := by
    obtain ⟨⟨db, rfl, _⟩, hfirst⟩ := h
    exact ⟨World.fresh db, ⟨rfl, rfl, hfirst⟩, rfl, rfl, rfl, le_refl _⟩
  step s ev s' t hr hst hs := by
    have hok := reachable_server_ok (steady_reachable hr)
    obtain ⟨fev, t', hstep, hsame, hmails, _⟩ := steady_step_friends hok hs hst
    exact ⟨[⟨t, fev, t'⟩], t', Machine.Run.nil.snoc hstep, hsame, (List.append_nil _).trans hmails⟩

end server

/-! ## Friendship on the server -/

section friendship

variable {s s' : Server} {ev : ServerEvent} {a b : Nat}

theorem SameFriends.self (w : World) : SameFriends w w := ⟨rfl, rfl, rfl, le_refl _⟩

/-- Lists, tables and held requests are in order. -/
structure ConsentOk (w : World) : Prop where
  friends : FriendInv w
  pending : PendingInv w

theorem ConsentOk.same {w t : World} (ht : ConsentOk t) (h : SameFriends w t) :
    ConsentOk w ∧ ∀ a b, Live w a b → Live t a b := by
  obtain ⟨hpending, hlive⟩ := ht.pending.later w (by rw [h.friends]) h.clock fun a b hab => by
    unfold Friends at hab ⊢
    rwa [h.db]
  refine ⟨⟨⟨?_, ?_, ?_⟩, hpending⟩, hlive⟩
  · rw [← h.registry, ← h.friends]
    exact ht.friends.same_players
  · rw [← h.friends, ← h.db]
    exact ht.friends.agree
  · rw [← h.db]
    exact ht.friends.first_smaller

/-- The handler is the request of `p` to be friends with `q`, who is in the game. -/
def AsksFriend (x : Taken Server ServerEvent) (p q : EntityPtr) : Prop :=
  ∃ hd, x.event = .handler hd ∧ x.pre.asks hd p (.friend_add q.name) ∧ x.pre.world.online q

/-- The character `a` asks to be friends with `b`, and his session is told that the
request was sent. -/
def Requests (x : Taken Server ServerEvent) (a b : Nat) : Prop :=
  ∃ p q, AsksFriend x p q ∧ p.id = a ∧ q.id = b ∧
    (p.my_session, .friend_add_result .sent_succesfully q.name) ∈ x.post.friends_sent

/-- Two become friends in a call of one of them to be friends with the other. -/
theorem makes_of_step {w w' : World} {ev : FriendEvent} (hi : FriendInv w) (hs : clockedMachine.step w ev w')
    (hno : ¬ Friends w a b) (hyes : Friends w' a b) :
    MakesFriends ⟨w, ev, w'⟩ a b ∨ MakesFriends ⟨w, ev, w'⟩ b a := by
  obtain ⟨hs, _⟩ := hs
  cases ev with
  | call op =>
    obtain ⟨env, _, he⟩ := friend_call_effect hi hs
    generalize hres : (none : Option StdException) = res at he
    cases he with
    | add_match p name q l l' hl hq hne hm hl' hr =>
      have hmade := hyes
      unfold Friends at hmade
      rw [World.committed_db _ _ _ _ _ hres.symm, Database.mem_friends_make] at hmade
      rcases hmade with hmade | ⟨rfl, rfl⟩ | ⟨rfl, rfl⟩
      · exact absurd hmade hno
      · exact .inr ⟨p, q, name, rfl, rfl, hq, rfl, fun h => hno (friends_comm.1 h), friends_comm.1 hyes⟩
      · exact .inl ⟨p, q, name, rfl, rfl, hq, rfl, hno, hyes⟩
    | remove_offline | remove_online =>
      unfold Friends at hyes
      rw [World.committed_db _ _ _ _ _ hres.symm, Database.mem_friends_remove (hi.begin env).first_smaller] at hyes
      exact absurd hyes.1 hno
    | _ => exact absurd hyes hno
  | other_tables =>
    obtain ⟨db, hdb, rfl⟩ := hs
    unfold Friends at hno hyes
    rw [Database.mem_get_friends_of] at hno hyes
    rw [hdb] at hyes
    exact absurd hyes hno
  | reorder => exact absurd (hs.1.friends_of.1 hyes) hno

theorem consent_step (hok : ServerOk s) (hi : ConsentOk s.world) (hs : steadyMachine.step s ev s') :
    ConsentOk s'.world ∧ (∀ a b, Live s'.world a b → Live s.world a b ∨ Requests ⟨s, ev, s'⟩ a b) ∧
    ∀ a b, ¬ Friends s.world a b → Friends s'.world a b →
      ∃ p q, AsksFriend ⟨s, ev, s'⟩ p q ∧ (p.id = a ∧ q.id = b ∨ p.id = b ∧ q.id = a) ∧
        Live s.world q.id p.id := by
  obtain ⟨fev, t', hstep, hsame, hmails, hasked⟩ := steady_step_friends hok hs (.self s.world)
  obtain ⟨hpending, hlive⟩ := pending_step hi.friends hi.pending hstep
  obtain ⟨hi', hback⟩ := ConsentOk.same ⟨friend_inv_step hi.friends hstep.1, hpending⟩ hsame
  have hname {n : Bytes} {q : EntityPtr} (hq : s.world.registry.name_to_character n = some q) :
      q.name = n ∧ s.world.online q := hi.friends.same_players.by_name n q hq
  refine ⟨hi', fun a b hab => ?_, fun a b hno hyes => ?_⟩
  · rcases hlive a b (hback a b hab) with h | ⟨p, q, name, hev, rfl, hq, rfl, _, hn⟩
    · exact .inl h
    · obtain ⟨rfl, hon⟩ := hname hq
      obtain ⟨hd, hevent, ha⟩ := hasked p _ hev
      refine .inr ⟨p, q, ⟨hd, hevent, ha, hon⟩, rfl, rfl, ?_⟩
      rw [← hmails]
      exact List.mem_map.2 ⟨_, hn, rfl⟩
  · have hyes' : Friends t' a b := by
      unfold Friends at hyes ⊢
      rwa [hsame.db]
    have hmakes := makes_of_step hi.friends hstep hno hyes'
    have hdone {x y : Nat} (h : MakesFriends ⟨s.world, fev, t'⟩ x y) :
        ∃ p q, AsksFriend ⟨s, ev, s'⟩ p q ∧ p.id = x ∧ q.id = y ∧ Live s.world q.id p.id := by
      have hl := live_of_makes hi.friends hstep h
      obtain ⟨p, q, name, hev, rfl, hq, rfl, _⟩ := h
      obtain ⟨rfl, hon⟩ := hname hq
      obtain ⟨hd, hevent, ha⟩ := hasked p _ hev
      exact ⟨p, q, ⟨hd, hevent, ha, hon⟩, rfl, rfl, hl⟩
    rcases hmakes with h | h
    · obtain ⟨p, q, ha, hp, hq, hl⟩ := hdone h
      exact ⟨p, q, ha, .inl ⟨hp, hq⟩, hl⟩
    · obtain ⟨p, q, ha, hp, hq, hl⟩ := hdone h
      exact ⟨p, q, ha, .inr ⟨hp, hq⟩, hl⟩

theorem fresh_clocked {db : Database} (h : db.FirstSmaller) : clockedMachine.init (World.fresh db) := ⟨rfl, rfl, h⟩

theorem reachable_consent_ok (h : steadyMachine.Reachable s) : ConsentOk s.world :=
  h.keeps_over (J := fun s => ConsentOk s.world) (fun _ h => reachable_server_ok (steady_reachable h))
    (fun s (h0 : steadyMachine.init s) => by
      obtain ⟨⟨db, rfl, _⟩, hfirst⟩ := h0
      have h0' := fresh_clocked hfirst
      exact ⟨friend_inv_init h0', pending_inv_init h0'⟩)
    fun _ _ _ hok hi hs => (consent_step hok hi hs).1

/-- While no statement fails, none has a quote in its data and every packet fits:
whenever two characters become friends, one of them has just asked for it, and the
other had asked before, when his session was told that the request was sent; since
then they were friends at no time. -/
theorem server_friendship_needs_consent {s0 : Server} {tr l r : List (Taken Server ServerEvent)}
    {x : Taken Server ServerEvent} (h0 : tameMachine.init s0) (h : tameMachine.Run s0 tr s)
    (htr : tr = l ++ x :: r) (hno : ¬ Friends x.pre.world a b) (hyes : Friends x.post.world a b) :
    ∃ p q, AsksFriend x p q ∧ (p.id = a ∧ q.id = b ∨ p.id = b ∧ q.id = a) ∧
      ∃ l1 y l2, l = l1 ++ y :: l2 ∧ Requests y q.id p.id ∧ ∀ z ∈ y :: l2, ¬ Friends z.post.world a b := by
  subst htr
  obtain ⟨s1, h1, h2⟩ := Machine.run_append.1 h.of_only
  obtain ⟨rfl, hs, _⟩ := Machine.run_cons.1 h2
  have hstart : steadyMachine.Reachable s0 := .init h0
  have hreach : steadyMachine.Reachable x.pre := hstart.run h1
  have hstep {y : Taken Server ServerEvent} (hy : y ∈ l) := consent_step
    (reachable_server_ok (steady_reachable (h1.reachable_pre hstart hy)))
    (reachable_consent_ok (h1.reachable_pre hstart hy)) (h1.step_of_mem hy)
  obtain ⟨p, q, ha, hab, hlive⟩ := (consent_step (reachable_server_ok (steady_reachable hreach))
    (reachable_consent_ok hreach) hs).2.2 a b hno hyes
  have hnot : ¬ Live s0.world q.id p.id := by
    obtain ⟨⟨db, rfl, _⟩, hfirst⟩ := h0
    exact not_live_init (fresh_clocked hfirst) _ _
  obtain ⟨l1, y, l2, hl, hy, hsince⟩ := h1.since (L := fun s => Live s.world q.id p.id)
    (A := fun y => Requests y q.id p.id) (G := fun s => ¬ Friends s.world a b) hnot (fun y hy hl => by
      obtain ⟨hi', hback, _⟩ := hstep hy
      refine ⟨hback _ _ hl, fun hf => hi'.pending.not_friends _ _ hl ?_⟩
      rcases hab with ⟨hp, hq⟩ | ⟨hp, hq⟩ <;> rw [hp, hq]
      · exact friends_comm.1 hf
      · exact hf) hlive
  exact ⟨p, q, ha, hab, l1, y, l2, hl, hy, hsince⟩

/-- In such runs every statement reads as it is meant; the list that the server holds
of each character in the game is what the table says, so the lists are symmetric;
nobody else has a list; and the table has each pair of friends once. -/
theorem server_friend_lists {s0 : Server} {tr : List (Taken Server ServerEvent)} (h0 : tameMachine.init s0)
    (hn : s0.world.db.character_friends.Nodup) (h : tameMachine.Run s0 tr s) :
    (∀ x ∈ tr, ∀ st ∈ x.post.world.statements, x.event ≠ .reorder → st.Exact) ∧
    (∀ i l, s.world.friends.friendlist_of_id i = some l →
      (∃ k c, s.clients k = some c ∧ c.Holds l.backend) ∧ l.backend.id = i ∧
        (∀ j, j ∈ l.friend_ids ↔ j ∈ s.world.db.get_friends_of i) ∧
        ∀ j l', s.world.friends.friendlist_of_id j = some l' → (j ∈ l.friend_ids ↔ i ∈ l'.friend_ids)) ∧
    (∀ k c p, s.clients k = some c → c.Holds p →
      ∃ l, s.world.friends.friendlist_of_id p.id = some l ∧ l.backend = p) ∧
    s.world.db.FirstSmaller ∧ s.world.db.character_friends.Nodup := by
  have hrun := h.of_only
  have hstart : steadyMachine.Reachable s0 := .init h0
  have hreach : steadyMachine.Reachable s := hstart.run hrun
  have hok := reachable_server_ok (steady_reachable hreach)
  have hi := (reachable_consent_ok hreach).friends
  refine ⟨tame_machine_exact h0 h, fun i l hl => ?_, fun k c p hc hp => ?_, hi.first_smaller, ?_⟩
  · have hon := hi.same_players.list_online i l hl
    have hid := (hi.same_players.by_id i _ hon).1
    obtain ⟨c, hc, hholds⟩ := (hok.players l.backend).1 (by rw [World.online, hid]; exact hon)
    exact ⟨⟨_, c, hc, hholds⟩, hid, hi.agree i l hl, fun j l' hl' => hi.symmetric hl hl'⟩
  · have hon := hok.held_online hc hp
    obtain ⟨l, hl⟩ := Option.isSome_iff_exists.1 (hi.same_players.online_list p.id p hon)
    exact ⟨l, hl, hi.same_players.list_of hon hl⟩
  · obtain ⟨t0, ht0, hst0⟩ := server_uses_friends.init s0 h0
    obtain ⟨tr', t, hcalls, hst, _⟩ := server_uses_friends.shows hstart hst0 hrun
    rw [← hst.db]
    exact hcalls.keeps_over (J := fun w => w.db.character_friends.Nodup) (fun _ => clocked_friend_inv)
      (fun _ _ _ hi hn hs => friends_nodup_step hi hn hs.1) (.init ht0) (hst0.db ▸ hn)

end friendship

/-! ## Dora and Eve become friends -/

section witness

variable {s t : Server}

/-- Whatever the state of its session, the packet is harmless. -/
def Handler.tame (hd : Handler) : Bool := hd.plain && hd.short

theorem Handler.tame_sound {hd : Handler} (h : hd.tame = true) (hs : serverMachine.Reachable s) (hroomy : s.roomy = true) :
    s.Tame (.handler hd) := by
  obtain ⟨hplain, hshort⟩ := Bool.and_eq_true_iff.1 h
  refine ⟨Handler.plain_sound hplain s, ?_⟩
  rintro _ ⟨⟩
  exact roomy_fits (reachable_server_ok hs) (reachable_names_ok hs) hshort hroomy

/-- The steps of a tame script whose statements succeed, at time 0. -/
theorem play_tame {ids : List SessionId} {check : Server → Bool} {script : Script} (hreach : serverMachine.Reachable s)
    (honly : s.Only ids) (hcheck : ∀ s, check s = true → (s.world.env.now == 0 && s.roomy) = true)
    (hquiet : ∀ x ∈ script, x.1.env.db_outcomes = [] ∧ 0 ≤ x.1.env.now ∧ x.2.tame = true)
    (h : s.play ids check script = some t) :
    ∃ tr, tameMachine.Run s tr t ∧ t.Only ids ∧ ∀ x ∈ tr, x.pre.Only ids ∧ check x.pre = true := by
  induction script generalizing s with
  | nil =>
    cases h
    exact ⟨[], .nil, honly, fun _ hx => absurd hx List.not_mem_nil⟩
  | cons step rest ih =>
    obtain ⟨o, hd⟩ := step
    simp only [Server.play] at h
    split at h
    case isFalse => cases h
    case isTrue hcond =>
      rw [Bool.and_eq_true] at hcond
      split at h
      · next s' hrun =>
        have ha := admitted_of_admits (reachable_server_ok hreach) honly hcond.1
        have hreach' : serverMachine.Reachable s' := hreach.step (e := .handler hd) ⟨o, ha, hrun⟩
        obtain ⟨_, _, honly'⟩ := play_handler (reachable_server_ok hreach) honly hcond.1 hrun
        obtain ⟨hdb, hclock, htame⟩ := hquiet _ List.mem_cons_self
        obtain ⟨hnow, hroomy⟩ := Bool.and_eq_true_iff.1 (hcheck s hcond.2)
        have hle : s.world.env.now ≤ o.env.now := by
          rw [beq_iff_eq.1 hnow]
          exact hclock
        have hs : tameMachine.step s (.handler hd) s' :=
          ⟨Handler.tame_sound htame hreach hroomy, o, ha, hdb, hle, hrun⟩
        obtain ⟨tr, hr, ht, hall⟩ := ih hreach' honly' (fun x hx => hquiet x (List.mem_cons_of_mem _ hx)) h
        refine ⟨⟨s, .handler hd, s'⟩ :: tr, Machine.run_cons.2 ⟨rfl, hs, hr⟩, ht, fun x hx => ?_⟩
        rcases List.mem_cons.1 hx with rfl | hx
        · exact ⟨honly, hcond.2⟩
        · exact hall x hx
      · cases h

theorem script_quiet (hs : List Handler) (h : hs.all Handler.tame = true) (x : Outside × Handler)
    (hx : x ∈ script hs) : x.1.env.db_outcomes = [] ∧ 0 ≤ x.1.env.now ∧ x.2.tame = true := by
  obtain ⟨y, hy, rfl⟩ := List.mem_map.1 hx
  obtain ⟨-, -, hmem⟩ := List.mem_zipIdx hy
  exact ⟨rfl, le_refl _, List.all_eq_true.1 h y.1 (hmem ▸ List.getElem_mem _)⟩

/-- Both enter the game, and Dora asks Eve. -/
def dora_asks_eve : List Handler :=
  both_enter ++ [from_client 0 (ingame_state_protocol.friend_add :: packed (ascii "Eve"))]

def eve_answers : Handler := from_client 1 (ingame_state_protocol.friend_add :: packed (ascii "Dora"))

theorem two_players_tame : tameMachine.init (.fresh two_players) :=
  ⟨schema_init_server two_players_init, fun _ h => absurd h List.not_mem_nil⟩

/-- Eve answers, and they are friends: Dora had asked. -/
theorem dora_had_asked : ∃ l s s',
    tameMachine.Run (.fresh two_players) (l ++ [⟨s, .handler eve_answers, s'⟩]) s' ∧
      ¬ Friends s.world 2 1 ∧ Friends s'.world 2 1 ∧ ∃ p q, AsksFriend ⟨s, .handler eve_answers, s'⟩ p q ∧
        ∃ l1 y l2, l = l1 ++ y :: l2 ∧ Requests y q.id p.id := by
  obtain ⟨s, hplay, hv⟩ := Option.map_eq_some_iff.1
    (show ((Server.fresh two_players).play [0, 1] (fun s => s.world.env.now == 0 && s.roomy) (script dora_asks_eve)).map
      (fun s => (decide (1 ∈ s.world.db.get_friends_of 2), (s.world.env.now == 0, s.roomy),
        s.outcome [0, 1] (quiet 20) eve_answers fun s' => decide (1 ∈ s'.world.db.get_friends_of 2))) =
      some (false, (true, true), some (.ok true)) by decide +kernel)
  simp only [Prod.mk.injEq, beq_iff_eq, decide_eq_false_iff_not] at hv
  obtain ⟨hno, ⟨hnow, hroomy⟩, hout⟩ := hv
  have hstart : serverMachine.Reachable (.fresh two_players) := .init two_players_tame.1
  obtain ⟨l, hrun, honly, _⟩ := play_tame hstart (fun _ _ => rfl) (fun _ h => h)
    (script_quiet dora_asks_eve (by decide +kernel)) hplay
  have hreach : serverMachine.Reachable s := hstart.run (hrun.of_steps fun _ _ hs => steady_is_server hs.2)
  obtain ⟨ha, s', hr, hyes⟩ := outcome_ok (reachable_server_ok hreach) honly hout
  have htame : eve_answers.tame = true := by decide +kernel
  have hstep : tameMachine.step s (.handler eve_answers) s' :=
    ⟨Handler.tame_sound htame hreach hroomy, quiet 20, ha, rfl, by rw [hnow]; rfl, hr⟩
  rw [decide_eq_true_eq] at hyes
  obtain ⟨p, q, hasks, _, l1, y, l2, hl, hy, _⟩ := server_friendship_needs_consent (a := 2) (b := 1)
    two_players_tame (hrun.snoc hstep) rfl hno hyes
  exact ⟨l, s, s', hrun.snoc hstep, hno, hyes, p, q, hasks, l1, y, l2, hl, hy⟩

/-- Then Eve is on Dora's list, as in the table. -/
theorem eve_is_listed : ∃ tr s l, tameMachine.Run (.fresh two_players) tr s ∧
    s.world.friends.friendlist_of_id 1 = some l ∧ 2 ∈ l.friend_ids ∧
    (∀ j, j ∈ l.friend_ids ↔ j ∈ s.world.db.get_friends_of 1) ∧ s.world.db.character_friends.Nodup := by
  obtain ⟨s, hplay, hv⟩ := Option.map_eq_some_iff.1
    (show ((Server.fresh two_players).play [0, 1] (fun s => s.world.env.now == 0 && s.roomy)
      (script (dora_asks_eve ++ [eve_answers]))).map (fun s =>
        (s.world.friends.friendlist_of_id 1).any fun l => decide (2 ∈ l.friend_ids)) = some true by decide +kernel)
  obtain ⟨l, hl, hmem⟩ := (Option.any_eq_true ..).1 hv
  obtain ⟨tr, hrun, _⟩ := play_tame (.init two_players_tame.1) (fun _ _ => rfl) (fun _ h => h)
    (script_quiet (dora_asks_eve ++ [eve_answers]) (by decide +kernel)) hplay
  obtain ⟨_, hlists, _, _, hnodup⟩ := server_friend_lists two_players_tame List.nodup_nil hrun
  exact ⟨tr, s, l, hrun, hl, of_decide_eq_true hmem, (hlists 1 l hl).2.2.1, hnodup⟩

end witness

end tejk_it_izi
