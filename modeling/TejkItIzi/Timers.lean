import TejkItIzi.Lib.Periodic
import TejkItIzi.PendingTimes
import TejkItIzi.ServerFriends
/-!
# Timers

`task_scheduler::postpone_task` starts a timer that does not fire early. Each of the
two periodic tasks starts the timer of its next run at its end, so there is always
one of each, and its runs are apart by at least its period. For the requests to be
friends this is what `pendingMachine` takes for granted: a request that was sent can
be answered for 20 seconds, whatever the server does in between.
-/

namespace tejk_it_izi

open ProgLib

/-! ## The server and its timers -/

/-- When a timer expires that is started now. -/
def postpone_task (seconds : Int) (now : Time) : Time := now + seconds * ticks_per_second

/-- The server, the last reading of the clock, and the expiry of
`periodic_broadcast_task_` and `periodic_cleanup_task_`. -/
structure TimedServer where
  server : Server
  clock : Time
  broadcast_due : Time
  cleanup_due : Time

/-- The handler can run now; the others do not wait for a timer. -/
def TimedServer.due (τ : TimedServer) (now : Time) : Handler → Prop
  | .periodic_broadcast => τ.broadcast_due ≤ now
  | .periodic_cleanup => τ.cleanup_due ≤ now
  | _ => True

/-- The handler has left `s`, at this time. -/
def TimedServer.after (τ : TimedServer) (s : Server) (now : Time) : Handler → TimedServer
  | .periodic_broadcast => { τ with server := s, clock := now, broadcast_due := postpone_task 6 now }
  | .periodic_cleanup => { τ with server := s, clock := now, cleanup_due := postpone_task 20 now }
  | _ => { τ with server := s, clock := now }

def World.requests (w : World) : PendingFriendRequests := w.friends.pending_requests

/-- The clock is not read again, and the held requests are as before, or one of a
character to one in the game has been processed. -/
structure Processed (asked : EntityPtr → EntityPtr → Prop) (w w' : World) : Prop where
  now : w'.env.now = w.env.now
  requests : w'.requests = w.requests ∨ ∃ p q, asked p q ∧ w.online q ∧
    w'.requests = (w.requests.process_add_friend_request p.id q.id w.env.now).2

section effects

variable {s s' : Server} {hd : Handler} {w w' : World} {k : SessionId} {c : MmoClient} {g : Progress}
  {asked : EntityPtr → EntityPtr → Prop} {acc : AccountData}

theorem Processed.same (hnow : w'.env.now = w.env.now) (h : w'.requests = w.requests) : Processed asked w w' :=
  ⟨hnow, .inl h⟩

theorem FriendEffect.processed {op : FriendOp} {res : Option StdException} (h : FriendEffect w op res w')
    (hok : FriendsOk w) (hop : op ≠ .cleanup)
    (ha : ∀ p q, op = .process_req_friend_add p q.name → asked p q) : Processed asked w w' := by
  refine ⟨h.now, ?_⟩
  cases h with
  | add_waiting p name q l hl hq | add_recorded p name q l hl hq | add_match p name q l l' hl hq =>
    obtain ⟨rfl, hon⟩ := hok.same_players.by_name name q hq
    exact .inr ⟨p, q, ha p q rfl, hon, rfl⟩
  | cleanup => exact absurd rfl hop
  | _ => exact .inl rfl

theorem Destroyed.processed {st : ClientState} {ps : List (SessionId × Packet)} (h : Destroyed k w st w' ps) :
    Processed asked w w' := by
  cases h with
  | ingame_state p acc w1 c ns hf hc =>
    cases hf
    exact .same rfl rfl
  | other => exact .same rfl rfl

theorem PacketEffect.processed {valid : Bytes → Bytes → Bool} {data : Buffer} {len : Nat}
    (h : PacketEffect k c w valid data len g) (hok : WorldOk w)
    (ha : ∀ p acc q, c.current_state = .ingame_state p acc →
      ingame_state_recv_packet_factory.construct data len = .ok (.friend_add q.name) → asked p q) :
    Processed asked w g.world := by
  cases h with
  | preauth g hst he =>
    generalize preauth_state.read data len = keys at he
    cases he with
    | lookup_fails key login w' hv hl | login key login acc w' hv hl =>
      rcases account_lookup_world w login with h | ⟨id, h⟩
      all_goals
        rw [hl] at h
        exact .same (by rw [show w' = _ from h]; rfl) (by rw [show w' = _ from h]; rfl)
    | unknown_opcode | malformed | bad_keys => exact .same rfl rfl
  | lobby acc chars request g hst hr he =>
    cases he with
    | select name ch w' hf hfree hef =>
      cases hef
      exact .same rfl rfl
    | _ => exact .same rfl rfl
  | ingame p acc request g hst hr he =>
    have hfriends {op : FriendOp} {res : Option StdException} {w' : World} (hop : request.friend_op p = some op)
        (hef : FriendEffect w op res w') : Processed asked w w' := by
      refine hef.processed hok.friends_ok ?_ fun p' q h => ?_
      · rintro rfl
        cases request <;> cases hop
      · subst h
        cases request <;> cases hop
        exact ha p acc q hst hr
    cases he with
    | friends request op w' hop hperm hef => exact ⟨(hfriends hop hef).now, (hfriends hop hef).requests⟩
    | friends_fail request op e w' hop hperm hef => exact ⟨(hfriends hop hef).now, (hfriends hop hef).requests⟩
    | ignored | log_off | chat => exact .same rfl rfl
  | lobby_malformed | ingame_malformed => exact .same rfl rfl

/-- A handler moves the held requests if it is the cleanup, or processes one. -/
theorem HandlerEffect.processed (he : HandlerEffect s hd s') (hok : ServerOk s) :
    (hd = .periodic_cleanup ∧ s'.world.env.now = s.world.env.now ∧
      s'.world.requests = s.world.requests.periodic_cleanup) ∨
    (hd ≠ .periodic_cleanup ∧ Processed (fun p q => s.asks hd p (.friend_add q.name)) s.world s'.world) := by
  cases he with
  | periodic_cleanup w he =>
    cases he
    exact .inl ⟨rfl, rfl, rfl⟩
  | on_recv k data size c g hc hrecv hsize he =>
    refine .inr ⟨by simp, he.processed hok.world fun p acc q hst hr => ?_⟩
    have hk : p.my_session = k := hok.own k c p hc (.inl (by rw [show c.current_state = _ from hst]; rfl))
    subst hk
    exact ⟨acc, data, size, ⟨rfl, c, hc, hst⟩, hr⟩
  | transition k rest c st w ps hstrand hc hst hd =>
    refine .inr ⟨by simp, ?_⟩
    have hworld : (({ s with sync_strand := rest } : Server).progress k
        ((⟨c.entered st, w, ps, [], []⟩ : Progress).started k st)).world = w := started_world _ k st
    rw [hworld]
    exact hd.processed
  | finalize k rest c w ps hstrand hc hd => exact .inr ⟨by simp, hd.processed⟩
  | _ => exact .inr ⟨by simp, .same rfl rfl⟩

end effects

/-! ## The server holds requests as `pendingMachine` does -/

/-- `σ` has the requests of the server; its last cleanup was at least a period
before the next one. -/
structure TimedServer.Holds (τ : TimedServer) (σ : PendingState) : Prop where
  requests : σ.requests = τ.server.world.requests
  now : σ.now ≤ τ.clock
  cleanup : postpone_task 20 σ.last_cleanup ≤ τ.cleanup_due

section timed

variable {τ τ' : TimedServer} {ev : ServerEvent} {hd : Handler} {s : Server} {ended : Time}

end timed

/-! ## The periodic tasks -/

inductive PeriodicTask where
  | broadcast
  | cleanup

def PeriodicTask.seconds : PeriodicTask → Int
  | .broadcast => 6
  | .cleanup => 20

def PeriodicTask.handler : PeriodicTask → Handler
  | .broadcast => .periodic_broadcast
  | .cleanup => .periodic_cleanup

section answer

variable {s s' : Server} {hd : Handler} {p q : EntityPtr} {name : Bytes} {τ τ' : TimedServer} {σ : PendingState}
  {x : Taken TimedServer ServerEvent} {a b : Nat} {t : Time}

/-- A request to be friends is a call of the friend system. -/
theorem HandlerEffect.asked (he : HandlerEffect s hd s') (hs : s.sent = []) (hq : s.world.notices = [])
    (henv : s.world.env.db_outcomes = []) (ha : s.asks hd p (.friend_add name)) :
    ∃ w, FriendEffect s.world (.process_req_friend_add p name) none w ∧ s'.world = w.quiet ∧
      s'.friends_sent = w.mails := by
  obtain ⟨acc, data, size, ⟨rfl, c, hc, hst⟩, hr⟩ := ha
  cases he with
  | on_recv _ _ _ c' g hc' hrecv hsize he =>
    cases hc.symm.trans hc'
    cases he with
    | ingame p' acc' request g hst' hr' he =>
      cases hst.symm.trans hst'
      cases hr.symm.trans hr'
      cases he with
      | friends _ op w hop hperm hef =>
        cases hop
        refine ⟨w, hef, rfl, ?_⟩
        rw [friends_sent_progress hs]
        exact friend_packets_friends hef hq
      | friends_fail _ op e w hop hperm hef => exact absurd (hef.res_none henv) (Option.some_ne_none e)
      | chat _ op _ _ hop => cases hop
    | preauth g hst' => cases hst.symm.trans hst'
    | lobby acc' chars request g hst' => cases hst.symm.trans hst'
    | lobby_malformed acc' chars e hst' => cases hst.symm.trans hst'
    | ingame_malformed p' acc' e hst' hr' => cases hr.symm.trans hr'

theorem by_name_online {w : World} (hok : FriendsOk w) (hon : w.online q) {q' : EntityPtr}
    (h : w.registry.name_to_character q.name = some q') : q' = q := by
  rw [(hok.same_players.by_id q.id q hon).2] at h
  exact (Option.some.inj h).symm

/-- An answer to a held request makes the two friends. -/
theorem FriendEffect.answers {w w' : World} (h : FriendEffect w (.process_req_friend_add q p.name) none w')
    (hi : FriendInv w) (hq : w.notices = []) (hon : w.online p) (hne : p.id ≠ q.id) (hnot : ¬ Friends w q.id p.id)
    (hm : (w.requests.process_add_friend_request q.id p.id w.env.now).1 = .that_was_a_match) :
    Friends w' q.id p.id ∧ w'.notices = [(q, .new_friendship p.name), (p, .new_friendship q.name)] := by
  have hok := hi.friends_ok
  generalize hres : (none : Option StdException) = res at h
  cases h with
  | add_match _ _ p' l l' hl hp' =>
    obtain rfl := by_name_online hok hon hp'
    refine ⟨?_, ?_⟩
    · unfold Friends
      rw [World.committed_db _ _ _ _ _ hres.symm, Database.mem_friends_make]
      exact .inr (.inr ⟨rfl, rfl⟩)
    · rw [World.committed_notices, World.friended_notices, hq, List.nil_append]
  | add_fail _ _ l reason hl hfails =>
    cases hfails with
    | player_not_online hnone =>
      rw [(hok.same_players.by_id p.id p hon).2] at hnone
      cases hnone
    | cannot_invite_self p' hp' hid =>
      obtain rfl := by_name_online hok hon hp'
      exact absurd hid hne
    | already_friends p' hp' _ hmem =>
      obtain rfl := by_name_online hok hon hp'
      exact absurd ((hi.agree q.id l hl p'.id).1 hmem) hnot
  | add_waiting _ _ p' l hl hp' _ _ hr | add_recorded _ _ p' l hl hp' _ _ hr =>
    obtain rfl := by_name_online hok hon hp'
    cases hr.symm.trans hm

end answer

/-! ## No answer too late -/

section late

variable {τ τ' : TimedServer} {ev : ServerEvent} {req : SingleFriendRequest} {t : Time} {p q : EntityPtr} {a b : Nat}

/-- A request that is recorded was sent, and its session told. -/
theorem FriendEffect.told {w w' : World} (h : FriendEffect w (.process_req_friend_add p q.name) none w')
    (hok : FriendsOk w) (hon : w.online q) (hfront : w'.requests.front req = some t) :
    w.requests.front req = some t ∨ (req = ⟨p.id, q.id⟩ ∧ t = w.env.now ∧
      (p, .friend_add_result .sent_succesfully q.name) ∈ w'.notices) := by
  generalize (none : Option StdException) = res at h
  cases h with
  | add_fail => exact .inl hfront
  | add_recorded _ _ q' l hl hq' =>
    obtain rfl := by_name_online hok hon hq'
    rcases front_after hfront with ⟨_, hreq, ht⟩ | ⟨_, h⟩
    · exact .inr ⟨hreq, ht, by simp⟩
    · exact .inl h
  | add_waiting _ _ q' l hl hq' _ _ hr | add_match _ _ q' l l' hl hq' _ _ _ hr =>
    rcases front_after hfront with ⟨hadded, _⟩ | ⟨_, h⟩
    · cases hr.symm.trans hadded
    · exact .inl h

end late

/-! ## Eve answers Dora after a cleanup -/

section witness

instance (τ : TimedServer) (now : Time) (hd : Handler) : Decidable (τ.due now hd) :=
  match hd with
  | .periodic_broadcast | .periodic_cleanup => inferInstanceAs (Decidable (_ ≤ _))
  | .on_accept _ | .on_recv _ _ _ | .on_error _ | .next_task | .next_load => inferInstanceAs (Decidable True)

/-- The server after the script, if no handler of it comes too early or takes any
time, and all are tame. -/
def TimedServer.play (τ : TimedServer) (ids : List SessionId) : Script → Option TimedServer
  | [] => some τ
  | (o, hd) :: rest =>
    if τ.server.admits ids o hd = true ∧ o.env.db_outcomes = [] ∧ τ.clock ≤ o.env.now ∧ τ.due o.env.now hd ∧
        τ.server.roomy = true ∧ hd.tame = true then
      match hd.run (τ.server.begin o) with
      | .ok _ s' => (τ.after s' o.env.now hd).play ids rest
      | .error _ _ => none
    else none

end witness

end tejk_it_izi
