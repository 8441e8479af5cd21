import TejkItIzi.FriendInvariants
/-!
# When the table of friends cannot be changed

A match and a removal change the lists and tell the players first, and send
their statement last. If it throws, the lists and the players know of a change
that the table does not have.
-/

namespace tejk_it_izi

open ProgLib

/-- The list of each online player is what the table says about him. -/
def World.ListsAgree (w : World) : Prop :=
  ∀ i l, w.friends.friendlist_of_id i = some l → ∀ j, j ∈ l.friend_ids ↔ j ∈ w.db.get_friends_of i

/-- A call of `db_.make_friends` or `db_.remove_friends`. -/
def Statement.changes_friends : Statement → Bool
  | .make_friends _ | .remove_friends _ => true
  | _ => false

/-- What `on_new_friendship` and `on_broken_friendship` send. -/
def Packet.tells_change : Packet → Bool
  | .new_friendship _ | .broken_friendship _ => true
  | _ => false

/-- Calls that return and calls a statement leaves by its exception, which
`ingame_state` catches; in any database, from any tables. -/
def failingFriendMachine (r : QueryReading) : Machine World FriendEvent where
  init := (readMachine r).init
  step w ev w' := match ev with
    | .call op => ∃ env, op.Permitted (w.begin env) ∧
      (op.run_by r (w.begin env) = .ok () w' ∨ ∃ e, op.run_by r (w.begin env) = .error (.exception e) w')
    | .other_tables => (readMachine r).step w .other_tables w'
    | .reorder => (readMachine r).step w .reorder w'

/-! ## What every world has -/

section lookup

variable {r : QueryReading} {w w' : World} {p : EntityPtr} {name : Bytes} {id : Nat}

theorem name_looked_up (r : QueryReading) (w : World) (name : Bytes) :
    (w.looked_up r name).2.friends = w.friends ∧ (w.looked_up r name).2.registry = w.registry ∧
      (w.looked_up r name).2.notices = w.notices ∧
      (w.looked_up r name).2.statements = w.statements ++ [.char_name_to_uid name] := by
  unfold World.looked_up
  cases w.db_answer <;> exact ⟨rfl, rfl, rfl, rfl⟩

/-- Without a quote the tables stay as they are. -/
theorem looked_up_plain (h : quote ∉ name) : (w.looked_up r name).2.db = w.db := by
  unfold World.looked_up
  cases w.db_answer with
  | some e => rfl
  | none => rw [r.exact name _ (lookup_exact_iff.2 h)]

/-- The lookup throws, or the removal goes on. -/
theorem remove_run_by (hi : FriendsOk w) (hp : w.online p) :
    (∃ e, (w.looked_up r name).1 = .error e ∧ (FriendOp.process_req_friend_remove p name).run_by r w =
      finish (some e) (w.looked_up r name).2) ∨
    ∃ id res w', (w.looked_up r name).1 = .ok id ∧ Removal (w.looked_up r name).2 p name id res w' ∧
      (FriendOp.process_req_friend_remove p name).run_by r w = finish res w' := by
  obtain ⟨hf, hr, _, _⟩ := name_looked_up r w name
  have hfind := friend_system.looked_up_run r w name
  generalize w.looked_up r name = found at hf hr hfind ⊢
  obtain ⟨answer, w1⟩ := found
  cases answer with
  | error e =>
    obtain ⟨l, hl, _⟩ := hi.same_players.list_of_online hp
    exact .inl ⟨e, rfl, friend_system.remove_lookup_fails_run hl hfind⟩
  | ok id =>
    obtain ⟨res, w', hrem, hrun⟩ := friend_system.removal_run hi.same_players hi.not_own hp hfind hf hr
    exact .inr ⟨id, res, w', rfl, hrem, hrun⟩

end lookup

theorem FriendsOk.begin {w : World} (h : FriendsOk w) (env : Env) : FriendsOk (w.begin env) := h.same rfl rfl

/-- A player whom the table makes his own friend does not get in. -/
theorem register_me_own {w w' : World} {p : EntityPtr} {res : Option StdException} (hi : FriendsOk w)
    (hop : (FriendOp.register_me p).Permitted w) (ha : w.db_answer = none) (hself : p.id ∈ w.db.get_friends_of p.id) :
    (FriendOp.register_me p).run w ≠ finish res w' := by
  obtain ⟨ns, _, hrun⟩ :=
    friend_system.register_me_dies hi.same_players (hi.same_players.no_list hop.1) hop.1 hself ha
  have hdies : (FriendOp.register_me p).run w = .error .assertion_failed (friend_system.listed w p ns) := bind_error hrun _
  rw [hdies]
  cases res <;> exact nofun

/-- A call without a lookup that does not fail an assertion goes one of the ways listed. -/
theorem effect_of_ended {r : QueryReading} {w w' : World} {op : FriendOp} {res : Option StdException} (hi : FriendsOk w)
    (hop : op.Permitted w) (hno : ∀ p name, op ≠ .process_req_friend_remove p name) (h : op.run_by r w = finish res w') :
    FriendEffect w op res w' := by
  have hplain : op.Plain := by
    cases op with
    | process_req_friend_remove p name => exact absurd rfl (hno p name)
    | _ => trivial
  rw [op.run_by_plain r hplain] at h
  obtain ⟨res1, w1, he, hrun⟩ := friend_system.effect_of hi.same_players hi.not_own hop fun p hp ha hself => by
    subst hp
    exact register_me_own hi hop ha hself h
  obtain ⟨rfl, rfl⟩ := finish_inj (h.symm.trans hrun)
  exact he

theorem friends_ok_step {r : QueryReading} {w w' : World} {ev : FriendEvent} (h : FriendsOk w)
    (hs : (failingFriendMachine r).step w ev w') : FriendsOk w' := by
  cases ev with
  | call op =>
    obtain ⟨env, hop, hr⟩ := hs
    have hb := h.begin env
    obtain ⟨res, hend⟩ : ∃ res, op.run_by r (w.begin env) = finish res w' := by
      rcases hr with hr | ⟨e, hr⟩
      · exact ⟨none, hr⟩
      · exact ⟨some e, hr⟩
    by_cases hrem : ∃ p name, op = .process_req_friend_remove p name
    · obtain ⟨p, name, rfl⟩ := hrem
      obtain ⟨hf, hreg, _⟩ := name_looked_up r (w.begin env) name
      rcases remove_run_by (r := r) hb hop with ⟨e, _, hrun⟩ | ⟨id, res1, w1, _, hremoval, hrun⟩
      · obtain ⟨_, rfl⟩ := finish_inj (hend.symm.trans hrun)
        exact hb.same hreg hf
      · obtain ⟨_, rfl⟩ := finish_inj (hend.symm.trans hrun)
        exact hremoval.friends_ok (hb.same hreg hf)
    · exact (effect_of_ended hb hop (fun p name hp => hrem ⟨p, name, hp⟩) hend).friends_ok hb hop
  | other_tables =>
    obtain ⟨db, _, rfl⟩ := hs
    exact h.same rfl rfl
  | reorder => exact hs.1.friends_ok h

theorem reachable_friends_ok {r : QueryReading} {w : World} (h : (failingFriendMachine r).Reachable w) : FriendsOk w := by
  refine Machine.Reachable.keeps (fun w h0 => ?_) (fun _ _ _ => friends_ok_step) h
  obtain ⟨hf, hr⟩ := h0
  exact ⟨by constructor <;> simp [hf, hr], by simp [hf]⟩

/-! ## Which calls throw there -/

/-- The call gets as far as changing the table, and that statement throws: the
other one's request is held, or the lookup is answered with a friend. -/
def FriendOp.ChangeThrows (r : QueryReading) (w : World) : FriendOp → Prop
  | .process_req_friend_add p name => ∃ q l, w.registry.name_to_character name = some q ∧ q.id ≠ p.id ∧
    w.friends.friendlist_of_id p.id = some l ∧ q.id ∉ l.friend_ids ∧
    w.friends.pending_requests.Held ⟨q.id, p.id⟩ w.env.now ∧ w.db_answer ≠ none
  | .process_req_friend_remove p name => ∃ l id, w.friends.friendlist_of_id p.id = some l ∧
    (w.looked_up r name).1 = .ok id ∧ id ≠ 0 ∧ id ∈ l.friend_ids ∧ (w.looked_up r name).2.db_answer ≠ none
  | _ => False

/-- If the last statement of the call changes the table and throws, the lists
agree with the table afterwards, and nobody has been told of a change. -/
def FriendOp.KeepsOnFailure (r : QueryReading) (w : World) (op : FriendOp) : Prop :=
  ∀ e w', op.run_by r w = .error (.exception e) w' →
    (∃ st, w'.statements.getLast? = some st ∧ st.changes_friends = true) →
    w'.ListsAgree ∧ ∀ n ∈ w'.notices, n.2.tells_change = false

section failure

variable {r : QueryReading} {w w' : World} {p q : EntityPtr} {l : FriendList} {op : FriendOp} {name : Bytes} {id : Nat}
  {res : Option StdException}

theorem committed_fails {f : FriendSystem} {ns : List (EntityPtr × Packet)} {st : Statement} {db : Database}
    (h : w.db_answer ≠ none) : ((w.friended f ns).committed st db).db = w.db := if_neg h

/-- A friend more on the list than in the table. -/
theorem not_agree_of_added (h : w.ListsAgree) (hl : w.friends.friendlist_of_id p.id = some l) (hm : q.id ∉ l.friend_ids)
    (hl' : w'.friends.friendlist_of_id p.id = some { l with friend_ids := l.friend_ids.insert q.id })
    (hdb : w'.db = w.db) : ¬ w'.ListsAgree := by
  intro h'
  have hadded := (h' p.id _ hl' q.id).1 (by rw [USet.mem_insert]; exact .inl rfl)
  rw [hdb, ← h p.id l hl q.id] at hadded
  exact hm hadded

/-- A friend less. -/
theorem not_agree_of_dropped {id : Nat} (h : w.ListsAgree) (hl : w.friends.friendlist_of_id p.id = some l)
    (hm : id ∈ l.friend_ids)
    (hl' : w'.friends.friendlist_of_id p.id = some { l with friend_ids := l.friend_ids.erase id })
    (hdb : w'.db = w.db) : ¬ w'.ListsAgree := by
  intro h'
  have hin : id ∈ w.db.get_friends_of p.id := (h p.id l hl id).1 hm
  rw [← hdb, ← h' p.id _ hl' id, USet.mem_erase] at hin
  exact hin.1 rfl

/-- A match whose statement throws: the lists have changed already, and both have
been told. -/
theorem FriendEffect.match_throws {e : StdException}
    (he : FriendEffect w (.process_req_friend_add p name) (some e) w') (h : w.ListsAgree) :
    (FriendOp.process_req_friend_add p name).ChangeThrows r w ∧ (∃ n ∈ w'.notices, n.2.tells_change = true) ∧
      ¬ w'.ListsAgree := by
  generalize hres : some e = res at he
  cases he with
  | add_match _ _ q l l' hl hq hne hm hl' hr =>
    have ha : w.db_answer ≠ none := by rw [← hres]; simp
    refine ⟨⟨q, l, hq, hne, hl, hm, PendingFriendRequests.match_iff.1 hr, ha⟩,
      ⟨(p, .new_friendship name), by simp, rfl⟩, not_agree_of_added (q := q) h hl hm ?_ (committed_fails ha)⟩
    show (FriendSystem.add_friend (FriendSystem.add_friend _ p l q.id) q l' p.id).friendlist_of_id p.id = _
    simp [FriendSystem.add_friend, FriendSystem.put_ne _ (Ne.symm hne)]
  | _ => cases hres

theorem answered (h : w.db_answer ≠ none) : ∃ e, w.db_answer = some e := Option.ne_none_iff_exists'.1 h

/-- A request that gets as far as the statement throws there. -/
theorem FriendEffect.add_throws_of (he : FriendEffect w (.process_req_friend_add p name) res w')
    (hc : (FriendOp.process_req_friend_add p name).ChangeThrows r w) :
    ∃ e, res = some e ∧ ∃ st, w'.statements.getLast? = some st ∧ st.changes_friends = true := by
  obtain ⟨q, l, hq, hne, hl, hm, hheld, ha⟩ := hc
  cases he with
  | add_match =>
    obtain ⟨e, he⟩ := answered ha
    exact ⟨e, he, _, List.getLast?_concat, rfl⟩
  | add_fail _ _ l' reason hl' hf =>
    rw [hl] at hl'
    cases hl'
    cases hf with
    | player_not_online h => rw [hq] at h; cases h
    | cannot_invite_self q' h hid => rw [hq] at h; cases h; exact absurd hid hne
    | already_friends q' h _ hf => rw [hq] at h; cases h; exact absurd hf hm
  | add_waiting _ _ q' l' hl' hq' hne' hm' hr | add_recorded _ _ q' l' hl' hq' hne' hm' hr =>
    rw [hq] at hq'
    cases hq'
    rw [PendingFriendRequests.match_iff.2 hheld] at hr
    cases hr

/-- A removal whose statement throws, in the same way. -/
theorem Removal.throws {e : StdException} (h : Removal w p name id (some e) w') :
    (∃ l, w.friends.friendlist_of_id p.id = some l ∧ id ≠ 0 ∧ id ∈ l.friend_ids) ∧ w.db_answer ≠ none ∧
      (∃ n ∈ w'.notices, n.2.tells_change = true) ∧ (w.ListsAgree → ¬ w'.ListsAgree) := by
  generalize hres : some e = res at h
  cases h with
  | refused => cases hres
  | offline l hl h0 hm hl' =>
    have ha : w.db_answer ≠ none := by rw [← hres]; simp
    refine ⟨⟨l, hl, h0, hm⟩, ha, ⟨(p, .broken_friendship name), by simp, rfl⟩,
      fun hagree => not_agree_of_dropped hagree hl hm ?_ (committed_fails ha)⟩
    show (FriendSystem.drop_friend _ p l id).friendlist_of_id p.id = _
    simp [FriendSystem.drop_friend]
  | online l q l' hl hid h0 hm hne hon hl' =>
    subst hid
    have ha : w.db_answer ≠ none := by rw [← hres]; simp
    refine ⟨⟨l, hl, h0, hm⟩, ha, ⟨(p, .broken_friendship name), by simp, rfl⟩,
      fun hagree => not_agree_of_dropped hagree hl hm ?_ (committed_fails ha)⟩
    show (FriendSystem.drop_friend (FriendSystem.drop_friend _ p l q.id) q l' p.id).friendlist_of_id p.id = _
    simp [FriendSystem.drop_friend, FriendSystem.put_ne _ (Ne.symm hne)]

theorem Removal.throws_of (h : Removal w p name id res w') (hl : w.friends.friendlist_of_id p.id = some l)
    (h0 : id ≠ 0) (hm : id ∈ l.friend_ids) (ha : w.db_answer ≠ none) :
    ∃ e, res = some e ∧ ∃ st, w'.statements.getLast? = some st ∧ st.changes_friends = true := by
  obtain ⟨e, he⟩ := answered ha
  cases h with
  | refused l' hl' hf =>
    rw [hl] at hl'
    cases hl'
    exact (hf.elim h0 fun h => h hm).elim
  | offline | online => exact ⟨e, he, _, List.getLast?_concat, rfl⟩

/-- What the failure of the last statement says about the world before, and what
it leaves. -/
theorem change_throws_of_fails {e : StdException} (hi : FriendsOk w) (hp : w.online p) (hagree : w.ListsAgree)
    (hop : op = .process_req_friend_add p name ∨ op = .process_req_friend_remove p name)
    (hr : op.run_by r w = .error (.exception e) w')
    (hst : ∃ st, w'.statements.getLast? = some st ∧ st.changes_friends = true) :
    op.ChangeThrows r w ∧ (∃ n ∈ w'.notices, n.2.tells_change = true) ∧ (op.Plain → ¬ w'.ListsAgree) := by
  rcases hop with rfl | rfl
  · have he : FriendEffect w (.process_req_friend_add p name) (some e) w' :=
      effect_of_ended (r := r) hi hp (fun _ _ => nofun) hr
    obtain ⟨h1, h2, h3⟩ := he.match_throws hagree
    exact ⟨h1, h2, fun _ => h3⟩
  · obtain ⟨hf, _, _, hstatements⟩ := name_looked_up r w name
    rcases remove_run_by (r := r) hi hp with ⟨e', _, hrun⟩ | ⟨id, res, w1, hid, hrem, hrun⟩
    · obtain ⟨_, rfl⟩ := finish_inj (show finish (some e) w' = _ from hr.symm.trans hrun)
      obtain ⟨st, hlast, hc⟩ := hst
      rw [hstatements, List.getLast?_concat] at hlast
      cases hlast
      cases hc
    · obtain ⟨rfl, rfl⟩ := finish_inj (show finish (some e) w' = _ from hr.symm.trans hrun)
      obtain ⟨⟨l, hl, h0, hm⟩, ha, htold, hdis⟩ := hrem.throws
      refine ⟨⟨l, id, hf ▸ hl, hid, h0, hm, ha⟩, htold, fun hplain => hdis fun i l hl j => ?_⟩
      rw [looked_up_plain hplain]
      exact hagree i l (hf ▸ hl) j

theorem fails_of_change_throws (hi : FriendsOk w) (hp : w.online p)
    (hop : op = .process_req_friend_add p name ∨ op = .process_req_friend_remove p name) (hc : op.ChangeThrows r w) :
    ∃ e w', op.run_by r w = .error (.exception e) w' ∧
      ∃ st, w'.statements.getLast? = some st ∧ st.changes_friends = true := by
  rcases hop with rfl | rfl
  · obtain ⟨res, w1, he, hrun⟩ := friend_system.effect_of hi.same_players hi.not_own
      (show (FriendOp.process_req_friend_add p name).Permitted w from hp) fun _ => nofun
    obtain ⟨e, rfl, hst⟩ := he.add_throws_of hc
    exact ⟨e, w1, hrun, hst⟩
  · obtain ⟨l, id, hl, hid, h0, hm, ha⟩ := hc
    obtain ⟨hf, _⟩ := name_looked_up r w name
    rcases remove_run_by (r := r) hi hp with ⟨e', he', _⟩ | ⟨id', res, w1, hid', hrem, hrun⟩
    · rw [hid] at he'
      cases he'
    · rw [hid] at hid'
      cases hid'
      obtain ⟨e, rfl, hst⟩ := hrem.throws_of (hf ▸ hl) h0 hm ha
      exact ⟨e, w1, hrun, hst⟩

/-- From every reachable world in which the lists agree with the table: a request
keeps that, and tells nobody of a change, unless its last statement throws; then
the player has been told, and the lists disagree with a table that nothing else
has changed. -/
theorem agreement_survives_iff (r : QueryReading) (h : (failingFriendMachine r).Reachable w) (ha : w.ListsAgree)
    (hp : w.online p) (hop : op = .process_req_friend_add p name ∨ op = .process_req_friend_remove p name) (env : Env) :
    (op.KeepsOnFailure r (w.begin env) ↔ ¬ op.ChangeThrows r (w.begin env)) ∧
    (op.ChangeThrows r (w.begin env) → ∃ e w', op.run_by r (w.begin env) = .error (.exception e) w' ∧
      (∃ n ∈ w'.notices, n.2.tells_change = true) ∧ (op.Plain → ¬ w'.ListsAgree)) := by
  have hb := (reachable_friends_ok h).begin env
  refine ⟨⟨fun hkeeps hc => ?_, fun hc e w' hr hst => ?_⟩, fun hc => ?_⟩
  · obtain ⟨e, w', hr, hst⟩ := fails_of_change_throws hb hp hop hc
    obtain ⟨_, ⟨n, hn, htells⟩, _⟩ := change_throws_of_fails hb hp ha hop hr hst
    exact Bool.false_ne_true (((hkeeps e w' hr hst).2 n hn).symm.trans htells)
  · exact absurd (change_throws_of_fails hb hp ha hop hr hst).1 hc
  · obtain ⟨e, w', hr, hst⟩ := fails_of_change_throws hb hp hop hc
    obtain ⟨_, htold⟩ := change_throws_of_fails hb hp ha hop hr hst
    exact ⟨e, w', hr, htold⟩

end failure

/-! ## Carol answers Bob, and the table cannot be written -/

/-- Bob has asked Carol. -/
def bob_waits : World := played (meeting.take 3)

theorem bob_waits_reachable (r : QueryReading) : bob_waits.ListsAgree ∧ (failingFriendMachine r).Reachable bob_waits := by
  have h : friendMachine.Reachable bob_waits :=
    meeting_run.reachable_pre (x := played_step 3 (.process_req_friend_add carol (ascii "bob"))) (.init fresh_init)
      (by simp [meeting_steps])
  have hread : (readMachine r).Reachable bob_waits :=
    (meeting_read r).1.reachable_pre (x := played_step 3 (.process_req_friend_add carol (ascii "bob")))
      (.init ⟨rfl, rfl⟩) (by simp [meeting_steps])
  refine ⟨(reachable_friend_inv h).agree, hread.of_steps (fun _ h0 => h0) fun w ev w' hs => ?_⟩
  cases ev with
  | call op =>
    obtain ⟨env, _, hop, hr⟩ := hs
    exact ⟨env, hop, .inl hr⟩
  | other_tables => exact hs
  | reorder => exact hs

def carols_answer : FriendOp := .process_req_friend_add carol (ascii "bob")

theorem carols_answer_throws :
    carols_answer.KeepsOnFailure injectable (bob_waits.begin ⟨0, 0, 0, []⟩) ∧
      ¬ carols_answer.KeepsOnFailure injectable (bob_waits.begin ⟨0, 0, 0, [some .other]⟩) := by
  have hop : carols_answer = .process_req_friend_add carol (ascii "bob") ∨
      carols_answer = .process_req_friend_remove carol (ascii "bob") := .inl rfl
  have honline : bob_waits.online carol := rfl
  have h := agreement_survives_iff injectable (bob_waits_reachable _).2 (bob_waits_reachable injectable).1 honline hop
  refine ⟨(h _).1.2 ?_, fun hk => (h _).1.1 hk ?_⟩
  · rintro ⟨q, l, _, _, _, _, _, ha⟩
    exact ha rfl
  · exact ⟨bob, ⟨carol, .empty⟩, rfl, by decide, rfl, by decide, .inl (by decide), by decide⟩

/-- Both are friends in memory, and have been told; the table does not say so. -/
theorem unwritten_friendship : (∀ r, (failingFriendMachine r).Reachable bob_waits) ∧ bob_waits.ListsAgree ∧
    bob_waits.online carol ∧
    ∃ w', (∀ r, carols_answer.run_by r (bob_waits.begin ⟨0, 0, 0, [some .other]⟩) = .error (.exception .other) w') ∧
      w'.statements.getLast? = some (.make_friends ⟨8, 9⟩) ∧ w'.notices =
        [(carol, .new_friendship (ascii "bob")), (bob, .new_friendship (ascii "carol"))] ∧ ¬ w'.ListsAgree := by
  obtain ⟨hagree, _⟩ := bob_waits_reachable injectable
  refine ⟨fun r => (bob_waits_reachable r).2, hagree, rfl, _, fun _ => rfl, rfl, rfl, fun h => ?_⟩
  have h8 := (h 8 _ rfl 9).1 (by decide)
  revert h8
  decide

end tejk_it_izi
