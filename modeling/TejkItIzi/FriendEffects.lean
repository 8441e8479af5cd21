import TejkItIzi.FriendSystem
/-!
# What the friend operations do

`friend_system.effect_of` sums up the operations: one case for each way a call
can go, with the world it leaves behind, whether it returns or a database call
throws. The theorems about friendships split on these cases.
-/

namespace tejk_it_izi

open ProgLib

/-- Returned, or left by the exception of a database call. -/
def finish : Option StdException → World → EStateM.Result Fault World Unit
  | none, w => .ok () w
  | some e, w => .error (.exception e) w

theorem finish_inj {res res' : Option StdException} {w w' : World} (h : finish res w = finish res' w') :
    res = res' ∧ w = w' := by
  cases res <;> cases res' <;> simp only [finish, reduceCtorEq, EStateM.Result.ok.injEq, EStateM.Result.error.injEq,
    Fault.exception.injEq, true_and] at h
  · exact ⟨rfl, h⟩
  · exact ⟨congrArg some h.1, h.2⟩

/-! ## Changes of the world -/

/-- The world with this friend system, after these packets. -/
def World.friended (w : World) (f : FriendSystem) (sent : List (EntityPtr × Packet)) : World :=
  { w with friends := f, notices := w.notices ++ sent }

/-- A statement that changes the tables to `db`, if it succeeds. -/
def World.committed (w : World) (st : Statement) (db : Database) : World :=
  { w.executed st with db := if w.db_answer = none then db else w.db }

def World.with_registry (w : World) (r : WorldRegistrar) : World := { w with registry := r }

section simp_lemmas

variable (w : World) (f : FriendSystem) (ns : List (EntityPtr × Packet)) (st : Statement) (db : Database)
  (r : WorldRegistrar)

@[simp] theorem World.friended_friends : (w.friended f ns).friends = f := rfl
@[simp] theorem World.friended_db : (w.friended f ns).db = w.db := rfl
@[simp] theorem World.friended_registry : (w.friended f ns).registry = w.registry := rfl
@[simp] theorem World.friended_chat : (w.friended f ns).chat = w.chat := rfl
@[simp] theorem World.friended_notices : (w.friended f ns).notices = w.notices ++ ns := rfl
@[simp] theorem World.friended_statements : (w.friended f ns).statements = w.statements := rfl
@[simp] theorem World.friended_env : (w.friended f ns).env = w.env := rfl
@[simp] theorem World.friended_answer : (w.friended f ns).db_answer = w.db_answer := rfl
@[simp] theorem World.executed_friends : (w.executed st).friends = w.friends := rfl
@[simp] theorem World.executed_db : (w.executed st).db = w.db := rfl
@[simp] theorem World.executed_registry : (w.executed st).registry = w.registry := rfl
@[simp] theorem World.executed_chat : (w.executed st).chat = w.chat := rfl
@[simp] theorem World.executed_notices : (w.executed st).notices = w.notices := rfl
@[simp] theorem World.executed_statements : (w.executed st).statements = w.statements ++ [st] := rfl
@[simp] theorem World.executed_now : (w.executed st).env.now = w.env.now := rfl
@[simp] theorem World.committed_friends : (w.committed st db).friends = w.friends := rfl
@[simp] theorem World.committed_registry : (w.committed st db).registry = w.registry := rfl
@[simp] theorem World.committed_chat : (w.committed st db).chat = w.chat := rfl
@[simp] theorem World.committed_notices : (w.committed st db).notices = w.notices := rfl
@[simp] theorem World.committed_statements : (w.committed st db).statements = w.statements ++ [st] := rfl
@[simp] theorem World.with_registry_friends : (w.with_registry r).friends = w.friends := rfl
@[simp] theorem World.with_registry_db : (w.with_registry r).db = w.db := rfl
@[simp] theorem World.with_registry_registry : (w.with_registry r).registry = r := rfl
@[simp] theorem World.with_registry_chat : (w.with_registry r).chat = w.chat := rfl
@[simp] theorem World.with_registry_notices : (w.with_registry r).notices = w.notices := rfl
@[simp] theorem World.with_registry_statements : (w.with_registry r).statements = w.statements := rfl

theorem World.committed_db (h : w.db_answer = none) : ((w.friended f ns).committed st db).db = db := if_pos h

@[simp] theorem World.friended_friended (f' : FriendSystem) (ns' : List (EntityPtr × Packet)) :
    (w.friended f ns).friended f' ns' = w.friended f' (ns ++ ns') := by
  simp [World.friended]

theorem World.friended_self : w.friended w.friends [] = w := by simp [World.friended]

end simp_lemmas

/-- What `p` and this friend hear when he comes. -/
def World.greeting (w : World) (p : EntityPtr) (friend_id : Nat) : List (EntityPtr × Packet) :=
  match w.friends.friendlist_of_id friend_id, w.registry.id_to_character friend_id with
  | some his_list, some q => [(p, .friend_online_while_you_login q.name), (his_list.backend, .friend_login p.name)]
  | _, _ => []

/-- What `p` and his online friends hear when he comes. -/
def World.greetings (w : World) (p : EntityPtr) (friend_ids : USet Nat) : List (EntityPtr × Packet) :=
  friend_ids.elems.flatMap (w.greeting p)

/-- What `p`'s online friends hear when he goes. -/
def World.goodbyes (w : World) (p : EntityPtr) (friend_ids : USet Nat) : List (EntityPtr × Packet) :=
  friend_ids.elems.flatMap fun friend_id =>
    match w.friends.friendlist_of_id friend_id with
    | some his_list => [(his_list.backend, .friend_leave p.name)]
    | none => []

def FriendSystem.with_pending (f : FriendSystem) (pending : PendingFriendRequests) : FriendSystem :=
  { f with pending_requests := pending }

/-- `friend_id` is put on the list of `p`. -/
def FriendSystem.add_friend (f : FriendSystem) (p : EntityPtr) (l : FriendList) (friend_id : Nat) : FriendSystem :=
  f.put p.id (some { l with friend_ids := l.friend_ids.insert friend_id })

def FriendSystem.drop_friend (f : FriendSystem) (p : EntityPtr) (l : FriendList) (friend_id : Nat) : FriendSystem :=
  f.put p.id (some { l with friend_ids := l.friend_ids.erase friend_id })

/-! ## The operations -/

/-- A call of `friend_system`; coming and going also enter and leave the player
registry, in the order of `ingame_state`. -/
inductive FriendOp where
  | register_me (p : EntityPtr)
  | unregister_me (p : EntityPtr)
  | process_req_friend_add (p : EntityPtr) (name : Bytes)
  | process_req_friend_remove (p : EntityPtr) (name : Bytes)
  | cleanup

def FriendOp.run : FriendOp → WorldM Unit
  | .register_me p => do
    friend_system.register_me p
    world_registrar.register_me p
  | .unregister_me p => do
    world_registrar.unregister_me p
    friend_system.unregister_me p
  | .process_req_friend_add p name => friend_system.process_req_friend_add p name
  | .process_req_friend_remove p name => friend_system.process_req_friend_remove p name
  | .cleanup => friend_system.cleanup

/-- The call, in a database that reads the text of a lookup like this. -/
def FriendOp.run_by (r : QueryReading) : FriendOp → WorldM Unit
  | .process_req_friend_remove p name =>
    friend_system.process_req_friend_remove_by (psql_facade.char_name_to_uid_by r) p name
  | op => op.run

/-- What the lookup of a name answers there, and the world it leaves. -/
def World.looked_up (w : World) (r : QueryReading) (name : Bytes) : Except StdException Nat × World :=
  match w.db_answer with
  | some e => (.error e, w.executed (.char_name_to_uid name))
  | none =>
    let (answer, db) := r.lookup (Statement.char_name_to_uid name).text w.db
    (answer, { w.executed (.char_name_to_uid name) with db := db })

/-- The name that is looked up, if one is, has no quote. -/
def FriendOp.Plain : FriendOp → Prop
  | .process_req_friend_remove _ name => quote ∉ name
  | _ => True

theorem lookup_exact_iff {name : Bytes} : (Statement.char_name_to_uid name).Exact ↔ quote ∉ name := by
  rw [Statement.exact_iff]
  simp only [Statement.splice, Option.some.injEq, Prod.mk.injEq]
  refine ⟨fun h => h _ _ _ ⟨rfl, rfl, rfl⟩, ?_⟩
  rintro h _ _ _ ⟨-, rfl, -⟩
  exact h

/-- Then all databases do the same. -/
theorem FriendOp.run_by_plain (r : QueryReading) {op : FriendOp} (h : op.Plain) : op.run_by r = op.run := by
  cases op with
  | process_req_friend_remove p name =>
    have hfind : psql_facade.char_name_to_uid_by r name = world_registrar.find_player_id_by_name_in_database name :=
      psql_facade.char_name_to_uid_by_exact r (lookup_exact_iff.2 h)
    simp only [run_by, run, friend_system.process_req_friend_remove, friend_system.process_req_friend_remove_by, hfind]
  | _ => rfl

/-- `p` is in the player registry. -/
def World.online (w : World) (p : EntityPtr) : Prop := w.registry.id_to_character p.id = some p

/-- The registry and the friend lists know the same players, each under his own
id and name. -/
structure SamePlayers (r : WorldRegistrar) (f : FriendSystem) : Prop where
  by_id : ∀ i p, r.id_to_character i = some p → p.id = i ∧ r.name_to_character p.name = some p
  by_name : ∀ n p, r.name_to_character n = some p → p.name = n ∧ r.id_to_character p.id = some p
  list_online : ∀ i l, f.friendlist_of_id i = some l → r.id_to_character i = some l.backend
  online_list : ∀ i p, r.id_to_character i = some p → (f.friendlist_of_id i).isSome

/-- Whoever is online has a list. -/
theorem SamePlayers.list_of_online {r : WorldRegistrar} {f : FriendSystem} {p : EntityPtr} (h : SamePlayers r f)
    (hp : r.id_to_character p.id = some p) : ∃ l, f.friendlist_of_id p.id = some l ∧ l.backend = p := by
  obtain ⟨l, hl⟩ := Option.isSome_iff_exists.1 (h.online_list p.id p hp)
  have hon := h.list_online p.id l hl
  rw [hp] at hon
  exact ⟨l, hl, (Option.some.inj hon).symm⟩

theorem SamePlayers.no_list {r : WorldRegistrar} {f : FriendSystem} {i : Nat} (h : SamePlayers r f)
    (hi : r.id_to_character i = none) : f.friendlist_of_id i = none := by
  cases hl : f.friendlist_of_id i with
  | none => rfl
  | some l =>
    rw [h.list_online i l hl] at hi
    cases hi

/-- Nobody registers whose id or name is in use; the rest is for online players. -/
def FriendOp.Permitted (w : World) : FriendOp → Prop
  | .register_me p => w.registry.id_to_character p.id = none ∧ w.registry.name_to_character p.name = none
  | .unregister_me p | .process_req_friend_add p _ | .process_req_friend_remove p _ => w.online p
  | .cleanup => True

/-- Why a request to be friends is turned down at once. -/
inductive AddFails (w : World) (p : EntityPtr) (l : FriendList) (name : Bytes) : FriendAddFailReason → Prop
  | player_not_online : w.registry.name_to_character name = none → AddFails w p l name .player_not_online
  | cannot_invite_self (q) : w.registry.name_to_character name = some q → q.id = p.id →
    AddFails w p l name .cannot_invite_self
  | already_friends (q) : w.registry.name_to_character name = some q → q.id ≠ p.id → q.id ∈ l.friend_ids →
    AddFails w p l name .already_friends

/-- The ways a removal can go on once the lookup has answered `id`. The remover is
told in any case, and the lists change before the statement. -/
inductive Removal (w : World) (p : EntityPtr) (name : Bytes) (id : Nat) : Option StdException → World → Prop
  | refused (l) : w.friends.friendlist_of_id p.id = some l → (id = 0 ∨ id ∉ l.friend_ids) →
    Removal w p name id none (w.friended w.friends [(p, .friend_removal_fail name)])
  | offline (l) : w.friends.friendlist_of_id p.id = some l → id ≠ 0 → id ∈ l.friend_ids →
    w.friends.friendlist_of_id id = none →
    Removal w p name id w.db_answer
      ((w.friended (w.friends.drop_friend p l id) [(p, .broken_friendship name)]).committed
        (.remove_friends (Database.ordered id p.id)) (w.db.remove_friends id p.id))
  | online (l q l') : w.friends.friendlist_of_id p.id = some l → q.id = id → q.id ≠ 0 → q.id ∈ l.friend_ids →
    q.id ≠ p.id → w.online q → w.friends.friendlist_of_id q.id = some l' →
    Removal w p name id w.db_answer
      ((w.friended ((w.friends.drop_friend p l q.id).drop_friend q l' p.id)
        [(p, .broken_friendship name), (q, .broken_friendship p.name)]).committed
          (.remove_friends (Database.ordered q.id p.id)) (w.db.remove_friends q.id p.id))

/-- The ways a call can go: how it ends, and the world it leaves. -/
inductive FriendEffect (w : World) : FriendOp → Option StdException → World → Prop
  -- Coming: the list is what the table says, unless it cannot be read. A player whom
  -- the table makes his own friend fails an assertion instead.
  | register_me (p) : w.db_answer = none → p.id ∉ w.db.get_friends_of p.id →
    FriendEffect w (.register_me p) none
      (((w.executed (.friends_of p.id)).friended
        (w.friends.put p.id (some ⟨p, w.db.get_friends_of p.id⟩))
        (w.greetings p (w.db.get_friends_of p.id))).with_registry (w.registry.add p))
  | register_me_fails (p e) : w.db_answer = some e →
    FriendEffect w (.register_me p) (some e) (w.executed (.friends_of p.id))
  -- Going: nothing is stored; the table has everything already.
  | unregister_me (p l) : w.friends.friendlist_of_id p.id = some l →
    FriendEffect w (.unregister_me p) none
      ((w.friended (w.friends.put p.id none) (w.goodbyes p l.friend_ids)).with_registry (w.registry.remove p))
  -- Asking: turned down, repeated, recorded, or an answer to the other's request.
  -- The lists change before the statement, and stay changed if it throws.
  | add_fail (p name l reason) : w.friends.friendlist_of_id p.id = some l → AddFails w p l name reason →
    FriendEffect w (.process_req_friend_add p name) none
      (w.friended w.friends [(p, .friend_add_fail reason name)])
  | add_waiting (p name q l) : w.friends.friendlist_of_id p.id = some l →
    w.registry.name_to_character name = some q → q.id ≠ p.id → q.id ∉ l.friend_ids →
    (w.friends.pending_requests.process_add_friend_request p.id q.id w.env.now).1 = .already_in_buffer →
    FriendEffect w (.process_req_friend_add p name) none
      (w.friended
        (w.friends.with_pending (w.friends.pending_requests.process_add_friend_request p.id q.id w.env.now).2)
        [(p, .friend_add_result .previous_still_waiting name)])
  | add_recorded (p name q l) : w.friends.friendlist_of_id p.id = some l →
    w.registry.name_to_character name = some q → q.id ≠ p.id → q.id ∉ l.friend_ids →
    (w.friends.pending_requests.process_add_friend_request p.id q.id w.env.now).1 = .succesfully_added →
    FriendEffect w (.process_req_friend_add p name) none
      (w.friended
        (w.friends.with_pending (w.friends.pending_requests.process_add_friend_request p.id q.id w.env.now).2)
        [(q, .friendship_request p.name), (p, .friend_add_result .sent_succesfully name)])
  | add_match (p name q l l') : w.friends.friendlist_of_id p.id = some l →
    w.registry.name_to_character name = some q → q.id ≠ p.id → q.id ∉ l.friend_ids →
    w.friends.friendlist_of_id q.id = some l' →
    (w.friends.pending_requests.process_add_friend_request p.id q.id w.env.now).1 = .that_was_a_match →
    FriendEffect w (.process_req_friend_add p name) w.db_answer
      ((w.friended
        (((w.friends.with_pending
          (w.friends.pending_requests.process_add_friend_request p.id q.id w.env.now).2).add_friend p l q.id).add_friend
            q l' p.id)
        [(p, .new_friendship name), (q, .new_friendship p.name)]).committed
          (.make_friends (Database.ordered q.id p.id)) (w.db.make_friends q.id p.id))
  -- Removing: looked up by name, and then one of the three ways.
  | remove_lookup_fails (p name e) : w.db_answer = some e →
    FriendEffect w (.process_req_friend_remove p name) (some e) (w.executed (.char_name_to_uid name))
  | remove_fail (p name l) : w.db_answer = none → w.friends.friendlist_of_id p.id = some l →
    (w.db.char_name_to_uid name = 0 ∨ w.db.char_name_to_uid name ∉ l.friend_ids) →
    FriendEffect w (.process_req_friend_remove p name) none
      ((w.executed (.char_name_to_uid name)).friended w.friends [(p, .friend_removal_fail name)])
  | remove_offline (p name l id) : w.db_answer = none → w.friends.friendlist_of_id p.id = some l →
    w.db.char_name_to_uid name = id → id ≠ 0 → id ∈ l.friend_ids → w.friends.friendlist_of_id id = none →
    FriendEffect w (.process_req_friend_remove p name) (w.executed (.char_name_to_uid name)).db_answer
      (((w.executed (.char_name_to_uid name)).friended (w.friends.drop_friend p l id)
        [(p, .broken_friendship name)]).committed
          (.remove_friends (Database.ordered id p.id)) (w.db.remove_friends id p.id))
  | remove_online (p name l q l') : w.db_answer = none → w.friends.friendlist_of_id p.id = some l →
    w.db.char_name_to_uid name = q.id → q.id ≠ 0 → q.id ∈ l.friend_ids → q.id ≠ p.id → w.online q →
    w.friends.friendlist_of_id q.id = some l' →
    FriendEffect w (.process_req_friend_remove p name) (w.executed (.char_name_to_uid name)).db_answer
      (((w.executed (.char_name_to_uid name)).friended
        ((w.friends.drop_friend p l q.id).drop_friend q l' p.id)
        [(p, .broken_friendship name), (q, .broken_friendship p.name)]).committed
          (.remove_friends (Database.ordered q.id p.id)) (w.db.remove_friends q.id p.id))
  | cleanup : FriendEffect w .cleanup none
      (w.friended (w.friends.with_pending w.friends.pending_requests.periodic_cleanup) [])

/-! ## They are what the programs do -/

namespace friend_system

variable {w : World} {p q : EntityPtr} {l l' : FriendList} {id : Nat}

theorem exec_run (w : World) (st : Statement) : psql_facade.exec st w = finish w.db_answer (w.executed st) := by
  unfold psql_facade.exec
  cases w.db_answer <;> rfl

theorem list_at_run (h : w.friends.friendlist_of_id id = some l) : list_at id w = .ok l w := by
  simp [list_at, h]

theorem list_at_friended {f : FriendSystem} {ns : List (EntityPtr × Packet)}
    (h : f.friendlist_of_id id = some l) : list_at id (w.friended f ns) = .ok l (w.friended f ns) := list_at_run h

/-- A statement that changes the tables, and its commit. -/
theorem commit_run (w : World) (st : Statement) (f : Database → Database) :
    (do
      psql_facade.exec st
      modify fun w => { w with db := f w.db } : WorldM Unit) w = finish w.db_answer (w.committed st (f w.db)) := by
  cases h : w.db_answer with
  | none =>
    have he : psql_facade.exec st w = .ok () (w.executed st) := by rw [exec_run, h]; rfl
    rw [bind_ok he]
    simp [finish, World.committed, h]
  | some e =>
    have he : psql_facade.exec st w = .error (.exception e) (w.executed st) := by rw [exec_run, h]; rfl
    rw [bind_error he]
    simp [finish, World.committed, h, World.executed]

theorem make_friends_run (w : World) (one other : Nat) : psql_facade.make_friends one other w =
    finish w.db_answer (w.committed (.make_friends (Database.ordered one other)) (w.db.make_friends one other)) :=
  commit_run w _ fun db => db.make_friends one other

theorem remove_friends_run (w : World) (one other : Nat) : psql_facade.remove_friends one other w =
    finish w.db_answer (w.committed (.remove_friends (Database.ordered one other)) (w.db.remove_friends one other)) :=
  commit_run w _ fun db => db.remove_friends one other

theorem greet_each_run (hs : ∀ i l, i ≠ p.id → w.friends.friendlist_of_id i = some l →
      (w.registry.id_to_character i).isSome) (ids : List Nat) (hids : ∀ i ∈ ids, i ≠ p.id) :
    forM ids (greet p) w = .ok () (w.friended w.friends (ids.flatMap (w.greeting p))) := by
  induction ids generalizing w with
  | nil => simp [World.friended_self]
  | cons i ids ih =>
    have h1 : greet p i w = .ok () (w.friended w.friends (w.greeting p i)) := by
      unfold greet World.greeting
      rw [get_bind]
      cases hl : w.friends.friendlist_of_id i with
      | none => simp [World.friended_self]
      | some l =>
        obtain ⟨q, hq⟩ := Option.isSome_iff_exists.1 (hs i l (hids i List.mem_cons_self) hl)
        have hfind : world_registrar.find_online_player_by_id i w = .ok (some q) w := by
          simp [world_registrar.find_online_player_by_id, hq]
        dsimp only
        rw [bind_ok hfind]
        simp [send_packet, World.friended, hq]
    rw [List.forM_cons, bind_ok h1]
    refine (ih (w := w.friended w.friends _) hs fun j hj => hids j (List.mem_cons_of_mem _ hj)).trans ?_
    have hsame : (w.friended w.friends (w.greeting p i)).greeting p = w.greeting p := rfl
    simp [hsame]

theorem say_goodbye_each_run (ids : List Nat) :
    forM ids (say_goodbye p) w = .ok () (w.friended w.friends (ids.flatMap fun friend_id =>
      match w.friends.friendlist_of_id friend_id with
      | some his_list => [(his_list.backend, .friend_leave p.name)]
      | none => [])) := by
  induction ids generalizing w with
  | nil => simp [World.friended_self]
  | cons i ids ih =>
    have h1 : say_goodbye p i w = .ok () (w.friended w.friends
        (match w.friends.friendlist_of_id i with
        | some his_list => [(his_list.backend, .friend_leave p.name)]
        | none => [])) := by
      unfold say_goodbye
      rw [get_bind]
      cases w.friends.friendlist_of_id i with
      | none => simp [World.friended_self]
      | some l => rfl
    rw [List.forM_cons, bind_ok h1]
    refine (ih (w := w.friended w.friends _)).trans ?_
    simp

/-- `p` has his list from the table, and these packets have been sent. -/
def listed (w : World) (p : EntityPtr) (ns : List (EntityPtr × Packet)) : World :=
  (w.executed (.friends_of p.id)).friended (w.friends.put p.id (some ⟨p, w.db.get_friends_of p.id⟩)) ns

/-- The world after a call of `friend_system::register_me` that returns. -/
def registered (w : World) (p : EntityPtr) : World := listed w p (w.greetings p (w.db.get_friends_of p.id))

theorem register_me_fails_run {e : StdException} (hp : w.friends.friendlist_of_id p.id = none)
    (ha : w.db_answer = some e) :
    register_me p w = .error (.exception e) (w.executed (.friends_of p.id)) := by
  have hexec := exec_run w (.friends_of p.id)
  rw [ha] at hexec
  have hq : psql_facade.get_friends_of p.id w = .error (.exception e) (w.executed (.friends_of p.id)) :=
    bind_error hexec _
  unfold register_me
  rw [get_bind, bind_ok (cpp_assert_run (by simp [hp]) w), bind_error hq]

/-- The list is loaded and stored; then `p` and his friends are greeted. -/
theorem register_me_loaded (hp : w.friends.friendlist_of_id p.id = none) (ha : w.db_answer = none) :
    register_me p w = forM (w.db.get_friends_of p.id).elems (greet p) (listed w p []) := by
  have hexec := exec_run w (.friends_of p.id)
  rw [ha] at hexec
  have hq : psql_facade.get_friends_of p.id w = .ok (w.db.get_friends_of p.id) (w.executed (.friends_of p.id)) :=
    bind_ok hexec _
  have hput : put_list p.id (some ⟨p, w.db.get_friends_of p.id⟩) (w.executed (.friends_of p.id)) =
      .ok () (listed w p []) := by
    simp [put_list, listed, World.friended]
  unfold register_me
  rw [get_bind, bind_ok (cpp_assert_run (by simp [hp]) w), bind_ok hq, bind_ok hput]

/-- Friends other than `p` are greeted. -/
theorem greet_listed_run (hs : SamePlayers w.registry w.friends) (ids : List Nat) (hids : ∀ i ∈ ids, i ≠ p.id) :
    forM ids (greet p) (listed w p []) = .ok () (listed w p (ids.flatMap (w.greeting p))) := by
  have hsome : ∀ i l, i ≠ p.id → (listed w p []).friends.friendlist_of_id i = some l →
      ((listed w p []).registry.id_to_character i).isSome := by
    intro i l hi hl
    rw [listed, World.friended_friends, FriendSystem.put_ne _ hi] at hl
    simp [listed, hs.list_online i l hl]
  refine (greet_each_run hsome ids hids).trans ?_
  simp only [listed, World.friended_friended, World.friended_friends, List.nil_append]
  refine congrArg (fun ns => EStateM.Result.ok () ((w.executed _).friended _ ns)) ?_
  refine List.flatMap_congr fun i hi => ?_
  simp only [World.greeting, World.friended_friends, World.friended_registry, World.executed_registry,
    FriendSystem.put_ne _ (hids i hi)]

theorem register_me_run (hs : SamePlayers w.registry w.friends) (hp : w.friends.friendlist_of_id p.id = none)
    (hself : p.id ∉ w.db.get_friends_of p.id) (ha : w.db_answer = none) :
    register_me p w = .ok () (registered w p) := by
  rw [register_me_loaded hp ha]
  refine greet_listed_run hs _ ?_
  rintro i hi rfl
  exact hself (USet.mem_elems.1 hi)

/-- Who is his own friend is found to have a list when he is not online yet. -/
theorem register_me_dies (hs : SamePlayers w.registry w.friends) (hp : w.friends.friendlist_of_id p.id = none)
    (hid : w.registry.id_to_character p.id = none) (hself : p.id ∈ w.db.get_friends_of p.id) (ha : w.db_answer = none) :
    ∃ ns, ns <+: w.greetings p (w.db.get_friends_of p.id) ∧
      register_me p w = .error .assertion_failed (listed w p ns) := by
  obtain ⟨before, after, hsplit, hbefore⟩ := List.eq_append_cons_of_mem (USet.mem_elems.2 hself)
  refine ⟨before.flatMap (w.greeting p), ⟨(p.id :: after).flatMap (w.greeting p), ?_⟩, ?_⟩
  · rw [World.greetings, hsplit, List.flatMap_append]
  rw [register_me_loaded hp ha, hsplit, List.forM_append,
    bind_ok (greet_listed_run hs before fun i hi h => hbefore (h ▸ hi)), List.forM_cons]
  refine bind_error ?_ _
  unfold greet
  rw [get_bind]
  simp only [listed, World.friended_friends, FriendSystem.put_self]
  have hfind : world_registrar.find_online_player_by_id p.id (listed w p (before.flatMap (w.greeting p))) =
      .ok none (listed w p (before.flatMap (w.greeting p))) := by
    simp [world_registrar.find_online_player_by_id, listed, hid]
  exact bind_ok hfind _

theorem unregister_me_run (hl : w.friends.friendlist_of_id p.id = some l) :
    unregister_me p w = .ok () (w.friended (w.friends.put p.id none) (w.goodbyes p l.friend_ids)) := by
  unfold unregister_me
  rw [get_bind, bind_ok (cpp_assert_run (by simp [hl]) w), bind_ok (list_at_run hl),
    bind_ok (say_goodbye_each_run l.friend_ids.elems)]
  simp [put_list, World.friended, World.goodbyes]

theorem find_by_name_run (w : World) (name : Bytes) : world_registrar.find_online_player_by_name name w =
    .ok (w.registry.name_to_character name) w := rfl

theorem send_packet_run (w : World) (p : EntityPtr) (pk : Packet) :
    send_packet p pk w = .ok () (w.friended w.friends [(p, pk)]) := rfl

theorem put_list_run (w : World) (id : Nat) (l : Option FriendList) :
    put_list id l w = .ok () (w.friended (w.friends.put id l) []) := by
  simp [put_list, World.friended]

theorem process_pending_run (w : World) (sender recipient : Nat) :
    process_pending sender recipient w =
      .ok (w.friends.pending_requests.process_add_friend_request sender recipient w.env.now).1
        (w.friended (w.friends.with_pending
          (w.friends.pending_requests.process_add_friend_request sender recipient w.env.now).2) []) := by
  simp only [process_pending, get_bind, World.friended, List.append_nil]
  rfl

theorem add_fail_run (hs : SamePlayers w.registry w.friends) (hl : w.friends.friendlist_of_id p.id = some l)
    (hb : l.backend = p) {name : Bytes} {reason : FriendAddFailReason} (h : AddFails w p l name reason) :
    process_req_friend_add p name w = .ok () (w.friended w.friends [(p, .friend_add_fail reason name)]) := by
  unfold process_req_friend_add
  rw [get_bind, bind_ok (cpp_assert_run (by simp [hl]) w), bind_ok (list_at_run hl), bind_ok (find_by_name_run w name)]
  cases h with
  | player_not_online hq => rw [hq, hb]; rfl
  | cannot_invite_self q hq hid =>
    rw [hq, hb]
    simp only [hid, if_true]
    rfl
  | already_friends q hq hid hf =>
    have hon := hs.online_list q.id q (hs.by_name name q hq).2
    rw [hq, hb]
    simp only [hid, if_false]
    rw [get_bind, bind_ok (cpp_assert_run hon w)]
    simp only [hf, if_true]
    rfl

/-- The request gets to the pending requests, which decide. -/
theorem add_pending_run (hl : w.friends.friendlist_of_id p.id = some l) (hb : l.backend = p) {name : Bytes}
    (hq : w.registry.name_to_character name = some q) (hne : q.id ≠ p.id) (hf : q.id ∉ l.friend_ids)
    (hl' : w.friends.friendlist_of_id q.id = some l') (hb' : l'.backend = q) :
    process_req_friend_add p name w =
      match w.friends.pending_requests.process_add_friend_request p.id q.id w.env.now with
      | (.already_in_buffer, pending) => .ok ()
        (w.friended (w.friends.with_pending pending) [(p, .friend_add_result .previous_still_waiting name)])
      | (.succesfully_added, pending) => .ok ()
        (w.friended (w.friends.with_pending pending)
          [(q, .friendship_request p.name), (p, .friend_add_result .sent_succesfully name)])
      | (.that_was_a_match, pending) => finish w.db_answer
        ((w.friended (((w.friends.with_pending pending).add_friend p l q.id).add_friend q l' p.id)
          [(p, .new_friendship name), (q, .new_friendship p.name)]).committed
            (.make_friends (Database.ordered q.id p.id)) (w.db.make_friends q.id p.id)) := by
  unfold process_req_friend_add
  rw [get_bind, bind_ok (cpp_assert_run (by simp [hl]) w), bind_ok (list_at_run hl),
    bind_ok (find_by_name_run w name), hq]
  simp only [hne, if_false]
  rw [get_bind, bind_ok (cpp_assert_run (by simp [hl']) w)]
  simp only [hf, if_false]
  rw [bind_ok (process_pending_run w p.id q.id)]
  obtain ⟨result, pending⟩ := w.friends.pending_requests.process_add_friend_request p.id q.id w.env.now
  cases result with
  | already_in_buffer => rw [hb]; simp [send_packet_run]
  | succesfully_added =>
    have hl2 : (w.friends.with_pending pending).friendlist_of_id q.id = some l' := hl'
    dsimp only
    rw [bind_ok (list_at_friended hl2), hb, hb', bind_ok (send_packet_run _ _ _)]
    simp [send_packet_run]
  | that_was_a_match =>
    have hl2 : ((w.friends.with_pending pending).put p.id
        (some { l with friend_ids := l.friend_ids.insert q.id })).friendlist_of_id q.id = some l' := by
      rw [FriendSystem.put_ne _ hne]
      exact hl'
    dsimp only
    rw [bind_ok (send_packet_run _ _ _), bind_ok (put_list_run _ _ _)]
    simp only [World.friended_friended, World.friended_friends]
    rw [bind_ok (list_at_friended hl2), bind_ok (send_packet_run _ _ _), bind_ok (put_list_run _ _ _)]
    refine (make_friends_run _ q.id p.id).trans ?_
    simp [hb, hb', FriendSystem.add_friend]

theorem lookup_run (name : Bytes) (ha : w.db_answer = none) :
    world_registrar.find_player_id_by_name_in_database name w =
      .ok (w.db.char_name_to_uid name) (w.executed (.char_name_to_uid name)) := by
  have hexec := exec_run w (.char_name_to_uid name)
  rw [ha] at hexec
  exact bind_ok hexec _

theorem lookup_fails_run (name : Bytes) {e : StdException} (ha : w.db_answer = some e) :
    world_registrar.find_player_id_by_name_in_database name w =
      .error (.exception e) (w.executed (.char_name_to_uid name)) := by
  have hexec := exec_run w (.char_name_to_uid name)
  rw [ha] at hexec
  exact bind_error hexec _

theorem looked_up_run (r : QueryReading) (w : World) (name : Bytes) : psql_facade.char_name_to_uid_by r name w =
    match w.looked_up r name with
    | (.ok id, w') => .ok id w'
    | (.error e, w') => .error (.exception e) w' := by
  have hexec := exec_run w (.char_name_to_uid name)
  unfold psql_facade.char_name_to_uid_by World.looked_up
  cases ha : w.db_answer with
  | some e =>
    rw [ha] at hexec
    exact bind_error hexec _
  | none =>
    rw [ha] at hexec
    rw [bind_ok hexec, get_bind, World.executed_db]
    obtain ⟨answer, db⟩ := r.lookup (Statement.char_name_to_uid name).text w.db
    cases answer <;> rfl

theorem looked_up_ok {r : QueryReading} {name : Bytes} {db : Database} (ha : w.db_answer = none)
    (h : r.lookup (Statement.char_name_to_uid name).text w.db = (.ok id, db)) :
    psql_facade.char_name_to_uid_by r name w = .ok id { w.executed (.char_name_to_uid name) with db := db } := by
  rw [looked_up_run, World.looked_up]
  simp only [ha, h]

section remove

variable {find : Bytes → WorldM Nat} {name : Bytes} {w1 : World}

/-- The name is looked up first; a lookup that throws ends the request. -/
theorem remove_lookup_fails_run (hl : w.friends.friendlist_of_id p.id = some l) {e : StdException}
    (hfind : find name w = .error (.exception e) w1) :
    process_req_friend_remove_by find p name w = .error (.exception e) w1 := by
  unfold process_req_friend_remove_by
  rw [get_bind, bind_ok (cpp_assert_run (by simp [hl]) w), bind_ok (list_at_run hl), bind_error hfind]

theorem remove_fail_run (hl : w.friends.friendlist_of_id p.id = some l) (hb : l.backend = p)
    (hfind : find name w = .ok id w1) (hf : id = 0 ∨ id ∉ l.friend_ids) :
    process_req_friend_remove_by find p name w = .ok () (w1.friended w1.friends [(p, .friend_removal_fail name)]) := by
  unfold process_req_friend_remove_by
  rw [get_bind, bind_ok (cpp_assert_run (by simp [hl]) w), bind_ok (list_at_run hl), bind_ok hfind, hb]
  by_cases h0 : id = world_registrar.invalid_id
  · simp only [h0, if_true]
    rfl
  · have hf' := hf.resolve_left h0
    simp only [h0, hf', if_false, not_false_iff, if_true]
    rfl

theorem remove_offline_run (hl : w.friends.friendlist_of_id p.id = some l) (hb : l.backend = p)
    (hfind : find name w = .ok id w1) (h0 : id ≠ 0) (hf : id ∈ l.friend_ids)
    (hne : id ≠ p.id) (hl' : w1.friends.friendlist_of_id id = none) :
    process_req_friend_remove_by find p name w = finish w1.db_answer
      ((w1.friended (w1.friends.drop_friend p l id) [(p, .broken_friendship name)]).committed
        (.remove_friends (Database.ordered id p.id)) (w1.db.remove_friends id p.id)) := by
  have h0' : id ≠ world_registrar.invalid_id := h0
  unfold process_req_friend_remove_by
  rw [get_bind, bind_ok (cpp_assert_run (by simp [hl]) w), bind_ok (list_at_run hl), bind_ok hfind, hb]
  simp only [h0', hf, if_false, not_true]
  rw [bind_ok (send_packet_run _ _ _), bind_ok (put_list_run _ _ _), get_bind]
  simp only [World.friended_friends, FriendSystem.put_ne _ hne, hl']
  refine (remove_friends_run _ id p.id).trans ?_
  simp [hb, FriendSystem.drop_friend]

theorem remove_online_run (hl : w.friends.friendlist_of_id p.id = some l) (hb : l.backend = p)
    (hfind : find name w = .ok q.id w1) (h0 : q.id ≠ 0) (hf : q.id ∈ l.friend_ids) (hne : q.id ≠ p.id)
    (hl' : w1.friends.friendlist_of_id q.id = some l') (hb' : l'.backend = q) :
    process_req_friend_remove_by find p name w = finish w1.db_answer
      ((w1.friended ((w1.friends.drop_friend p l q.id).drop_friend q l' p.id)
        [(p, .broken_friendship name), (q, .broken_friendship p.name)]).committed
          (.remove_friends (Database.ordered q.id p.id)) (w1.db.remove_friends q.id p.id)) := by
  have h0' : q.id ≠ world_registrar.invalid_id := h0
  unfold process_req_friend_remove_by
  rw [get_bind, bind_ok (cpp_assert_run (by simp [hl]) w), bind_ok (list_at_run hl), bind_ok hfind, hb]
  simp only [h0', hf, if_false, not_true]
  rw [bind_ok (send_packet_run _ _ _), bind_ok (put_list_run _ _ _), get_bind]
  simp only [World.friended_friends, FriendSystem.put_ne _ hne, hl']
  rw [bind_ok (send_packet_run _ _ _), bind_ok (put_list_run _ _ _)]
  refine (remove_friends_run _ q.id p.id).trans ?_
  simp [hb, hb', FriendSystem.drop_friend]

/-- Whatever the lookup answers, the removal goes one of the three ways. -/
theorem removal_run (hs : SamePlayers w.registry w.friends)
    (hown : ∀ i l, w.friends.friendlist_of_id i = some l → i ∉ l.friend_ids) (hp : w.online p)
    (hfind : find name w = .ok id w1) (hf1 : w1.friends = w.friends) (hr1 : w1.registry = w.registry) :
    ∃ res w', Removal w1 p name id res w' ∧ process_req_friend_remove_by find p name w = finish res w' := by
  obtain ⟨l, hl, hb⟩ := hs.list_of_online hp
  have hl1 : w1.friends.friendlist_of_id p.id = some l := hf1 ▸ hl
  by_cases hf : id = 0 ∨ id ∉ l.friend_ids
  · exact ⟨_, _, .refused l hl1 hf, remove_fail_run hl hb hfind hf⟩
  obtain ⟨h0, hm⟩ := not_or.1 hf
  rw [not_not] at hm
  have hne : id ≠ p.id := fun h => hown p.id l hl (h ▸ hm)
  cases hl' : w1.friends.friendlist_of_id id with
  | none => exact ⟨_, _, .offline l hl1 h0 hm hl', remove_offline_run hl hb hfind h0 hm hne hl'⟩
  | some l' =>
    have hon := hs.list_online _ l' (hf1 ▸ hl')
    obtain ⟨rfl, _⟩ := hs.by_id _ _ hon
    exact ⟨_, _, .online l l'.backend l' hl1 rfl h0 hm hne (by rw [World.online, hr1]; exact hon) hl',
      remove_online_run hl hb hfind h0 hm hne hl' rfl⟩

end remove

/-- A permitted call goes one of the ways listed. -/
theorem effect_of (hs : SamePlayers w.registry w.friends)
    (hown : ∀ i l, w.friends.friendlist_of_id i = some l → i ∉ l.friend_ids) {op : FriendOp} (hop : op.Permitted w)
    (hself : ∀ p, op = .register_me p → w.db_answer = none → p.id ∉ w.db.get_friends_of p.id) :
    ∃ res w', FriendEffect w op res w' ∧ op.run w = finish res w' := by
  cases op with
  | register_me p =>
    obtain ⟨hid, hname⟩ := hop
    have hnone := hs.no_list hid
    cases ha : w.db_answer with
    | none =>
      refine ⟨_, _, .register_me p ha (hself p rfl ha),
        (bind_ok (register_me_run hs hnone (hself p rfl ha) ha) _).trans ?_⟩
      exact world_registrar.register_me_eq (w := registered w p) hid hname
    | some e => exact ⟨_, _, .register_me_fails p e ha, bind_error (register_me_fails_run hnone ha) _⟩
  | unregister_me p =>
    obtain ⟨l, hl, _⟩ := hs.list_of_online hop
    have hname := (hs.by_id p.id p hop).2
    have hreg := world_registrar.unregister_me_eq (w := w) (p := p) (by rw [hop]; simp) (by rw [hname]; simp)
    refine ⟨_, _, .unregister_me p l hl, (bind_ok hreg _).trans ?_⟩
    exact unregister_me_run (w := w.with_registry (w.registry.remove p)) hl
  | process_req_friend_add p name =>
    obtain ⟨l, hl, hb⟩ := hs.list_of_online hop
    cases hq : w.registry.name_to_character name with
    | none =>
      have hf : AddFails w p l name .player_not_online := .player_not_online hq
      exact ⟨_, _, .add_fail p name l _ hl hf, add_fail_run hs hl hb hf⟩
    | some q =>
      by_cases hid : q.id = p.id
      · have hf : AddFails w p l name .cannot_invite_self := .cannot_invite_self q hq hid
        exact ⟨_, _, .add_fail p name l _ hl hf, add_fail_run hs hl hb hf⟩
      by_cases hm : q.id ∈ l.friend_ids
      · have hf : AddFails w p l name .already_friends := .already_friends q hq hid hm
        exact ⟨_, _, .add_fail p name l _ hl hf, add_fail_run hs hl hb hf⟩
      obtain ⟨l', hl', hb'⟩ := hs.list_of_online (hs.by_name name q hq).2
      have hrun := add_pending_run hl hb hq hid hm hl' hb'
      have hres := Prod.mk.eta (p := w.friends.pending_requests.process_add_friend_request p.id q.id w.env.now)
      cases hr : (w.friends.pending_requests.process_add_friend_request p.id q.id w.env.now).1 <;>
        rw [← hres, hr] at hrun
      case already_in_buffer => exact ⟨_, _, .add_waiting p name q l hl hq hid hm hr, hrun⟩
      case succesfully_added => exact ⟨_, _, .add_recorded p name q l hl hq hid hm hr, hrun⟩
      case that_was_a_match => exact ⟨_, _, .add_match p name q l l' hl hq hid hm hl' hr, hrun⟩
  | process_req_friend_remove p name =>
    cases ha : w.db_answer with
    | some e =>
      obtain ⟨l, hl, _⟩ := hs.list_of_online hop
      exact ⟨_, _, .remove_lookup_fails p name e ha, remove_lookup_fails_run hl (lookup_fails_run name ha)⟩
    | none =>
      obtain ⟨res, w', hr, hrun⟩ := removal_run hs hown hop (lookup_run name ha) rfl rfl
      refine ⟨res, w', ?_, hrun⟩
      cases hr with
      | refused l hl hf => exact .remove_fail p name l ha hl hf
      | offline l hl h0 hm hl' => exact .remove_offline p name l _ ha hl rfl h0 hm hl'
      | online l q l' hl hid h0 hm hne hon hl' => exact .remove_online p name l q l' ha hl hid.symm h0 hm hne hon hl'
  | cleanup => exact ⟨_, _, .cleanup, by simp [FriendOp.run, cleanup, finish, World.friended, FriendSystem.with_pending]⟩

end friend_system

end tejk_it_izi
