import TejkItIzi.ChatMembership
import TejkItIzi.FriendPresence
/-!
# Who is in the game

`ingame_state` registers its character with the chat, the friend lists and the
player registry, one after another, and takes it out of all three in its
destructor. Between handlers the three know the same characters (`WorldOk`).
-/

namespace tejk_it_izi

open ProgLib

/-- The chat and the friend lists are in order and know exactly the players of
the registry. -/
structure WorldOk (w : World) : Prop where
  consistent : w.chat.Consistent
  friends_ok : FriendsOk w
  players : ∀ p, (w.chat.entities p).isSome ↔ w.online p

variable {w w' : World} {p q : EntityPtr}

theorem WorldOk.registry_known (h : WorldOk w) (n : Bytes) (q : EntityPtr)
    (hq : w.registry.name_to_character n = some q) : (w.chat.entities q).isSome :=
  (h.players q).2 (h.friends_ok.same_players.by_name n q hq).2

theorem WorldOk.quiet (h : WorldOk w) : WorldOk w.quiet :=
  ⟨h.consistent, h.friends_ok.same rfl rfl, h.players⟩

theorem WorldOk.begin (h : WorldOk w) (env : Env) : WorldOk (w.begin env) :=
  ⟨h.consistent, h.friends_ok.same rfl rfl, h.players⟩

/-! ## Calls that register nobody -/

def ChatOp.registers : ChatOp → Prop
  | .register_me _ | .unregister_me _ => True
  | _ => False

def FriendOp.registers : FriendOp → Prop
  | .register_me _ | .unregister_me _ => True
  | _ => False

theorem ChatEffect.same_entities {op : ChatOp} {c : ChatSystem} {ns : List (EntityPtr × Packet)}
    (h : ChatEffect w op c ns) (hop : ¬ op.registers) (q : EntityPtr) :
    (c.entities q).isSome = (w.chat.entities q).isSome := by
  cases h with
  | register_me | unregister_me => exact absurd trivial hop
  | join p e R room r he hl hr hp =>
    by_cases hqp : q = p <;> simp [ChatSystem.enter, hqp, he]
  | join_new p e R room he hl hroom =>
    by_cases hqp : q = p <;> simp [ChatSystem.enter, ChatSystem.add_room, hqp, he]
  | leave p e R room r he hl hr hp =>
    by_cases hqp : q = p <;> simp [hqp, he]
  | _ => rfl

theorem WorldOk.of_chat (h : WorldOk w) {op : ChatOp} {c : ChatSystem} {ns : List (EntityPtr × Packet)}
    (he : ChatEffect w op c ns) (hop : ¬ op.registers) : WorldOk (w.after c ns) := by
  have hf := h.friends_ok
  refine ⟨he.consistent h.consistent, ⟨hf.same_players, hf.not_own⟩, fun q => ?_⟩
  rw [World.after_chat, he.same_entities hop]
  exact h.players q

theorem FriendEffect.same_chat {op : FriendOp} {res : Option StdException} (h : FriendEffect w op res w') :
    w'.chat = w.chat := by
  cases h <;> rfl

theorem FriendEffect.same_registry {op : FriendOp} {res : Option StdException} (h : FriendEffect w op res w')
    (hop : ¬ op.registers) : w'.registry = w.registry := by
  cases h with
  | register_me | register_me_fails | unregister_me => exact absurd trivial hop
  | _ => rfl

theorem WorldOk.of_friend (h : WorldOk w) {op : FriendOp} {res : Option StdException}
    (he : FriendEffect w op res w') (hop : op.Permitted w) (hreg : ¬ op.registers) : WorldOk w' := by
  refine ⟨?_, he.friends_ok h.friends_ok hop, fun q => ?_⟩
  · rw [he.same_chat]
    exact h.consistent
  · rw [he.same_chat, World.online, he.same_registry hreg]
    exact h.players q

theorem WorldOk.chat_effect (h : WorldOk w) (op : ChatOp) (hop : op.Permitted w) :
    ∃ c ns, ChatEffect w op c ns ∧ op.run w = .ok () (w.after c ns) :=
  chat_system.effect_of h.consistent h.registry_known hop

theorem WorldOk.friend_effect (h : WorldOk w) (op : FriendOp) (hop : op.Permitted w)
    (hself : ∀ p, op = .register_me p → w.db_answer = none → p.id ∉ w.db.get_friends_of p.id) :
    ∃ res w', FriendEffect w op res w' ∧ op.run w = finish res w' :=
  friend_system.effect_of h.friends_ok.same_players h.friends_ok.not_own hop hself

theorem WorldOk.with_db (h : WorldOk w) (db : Database) : WorldOk { w with db := db } :=
  ⟨h.consistent, h.friends_ok.same rfl rfl, h.players⟩

/-! ## Entering and leaving -/

/-- Registered with the chat only. -/
def World.in_chat (w : World) (p : EntityPtr) : World := w.after (w.chat.put_entity p (some ⟨.empty⟩)) []

theorem register_chat_run (hp : w.chat.entities p = none) :
    chat_system.register_me p w = .ok () (w.in_chat p) := by
  unfold chat_system.register_me
  rw [get_bind, bind_ok (cpp_assert_run (by simp [hp]) w)]
  exact chat_system.set_entity_run w p _

/-- The id and the name are free. -/
def World.free (w : World) (p : EntityPtr) : Prop :=
  w.registry.id_to_character p.id = none ∧ w.registry.name_to_character p.name = none

/-- The table has a row with the id of `p` on both sides. -/
def World.own_friend (w : World) (p : EntityPtr) : Prop := p.id ∈ w.db.get_friends_of p.id

theorem World.not_own_friend (h : w.db.FirstSmaller) (p : EntityPtr) : ¬ w.own_friend p := h.not_own_friend p.id

/-- Registering `p` fails an assertion: his id is in use; or, once his friends are
loaded, he is one of them himself, or his name is in use. -/
def World.clashes (w : World) (p : EntityPtr) : Prop :=
  w.registry.id_to_character p.id ≠ none ∨
    ((w.own_friend p ∨ w.registry.name_to_character p.name ≠ none) ∧ w.db_answer = none)

theorem WorldOk.in_chat_same (h : WorldOk w) (p : EntityPtr) :
    SamePlayers (w.in_chat p).registry (w.in_chat p).friends := h.friends_ok.same_players

theorem WorldOk.no_list (h : WorldOk w) (hid : w.registry.id_to_character p.id = none) :
    w.friends.friendlist_of_id p.id = none := h.friends_ok.same_players.no_list hid

/-- The world in which registering `p` has failed an assertion. -/
inductive World.Clash (w : World) (p : EntityPtr) : World → Prop
  | id_in_game : w.registry.id_to_character p.id ≠ none → w.Clash p (w.in_chat p)
  -- The friends before him have been greeted.
  | own_friend (ns) : w.registry.id_to_character p.id = none → w.own_friend p →
    ns <+: (w.in_chat p).greetings p (w.db.get_friends_of p.id) →
    w.Clash p (friend_system.listed (w.in_chat p) p ns)
  | name_in_game : w.registry.id_to_character p.id = none → ¬ w.own_friend p →
    w.registry.name_to_character p.name ≠ none → w.Clash p (friend_system.registered (w.in_chat p) p)

/-- Nothing is sent but greetings. -/
theorem World.Clash.notices (h : w.Clash p w') (hq : w.notices = []) :
    w'.notices <+: (w.in_chat p).greetings p (w.db.get_friends_of p.id) := by
  have hchat : (w.in_chat p).notices = [] := by simp [World.in_chat, hq]
  cases h with
  | id_in_game => rw [hchat]; exact List.nil_prefix
  | own_friend ns hid hself hns => simpa [friend_system.listed, hchat] using hns
  | name_in_game hid hself hname =>
    simp only [friend_system.registered, friend_system.listed, World.friended_notices, World.executed_notices, hchat,
      List.nil_append]
    exact List.prefix_rfl

theorem WorldOk.register_dies (h : WorldOk w) (hp : w.clashes p) :
    ∃ w', w.Clash p w' ∧ (FriendOp.register_me p).run (w.in_chat p) = .error .assertion_failed w' := by
  cases hid : w.registry.id_to_character p.id with
  | some q =>
    have hl : ¬ ((w.in_chat p).friends.friendlist_of_id p.id).isNone = true := by
      have := h.friends_ok.same_players.online_list p.id q hid
      show ¬ (w.friends.friendlist_of_id p.id).isNone = true
      rw [Option.isNone_iff_eq_none]
      intro hn
      rw [hn] at this
      cases this
    refine ⟨w.in_chat p, .id_in_game (by simp [hid]), bind_error ?_ _⟩
    unfold friend_system.register_me
    rw [get_bind, bind_error (cpp_assert_fail hl _)]
  | none =>
    rcases hp with hp | ⟨hp, ha⟩
    · exact absurd hid hp
    by_cases hself : w.own_friend p
    · obtain ⟨ns, hns, hrun⟩ :=
        friend_system.register_me_dies (w := w.in_chat p) (h.in_chat_same p) (h.no_list hid) hid hself ha
      exact ⟨_, .own_friend ns hid hself hns, bind_error hrun _⟩
    have hname := hp.resolve_left hself
    have hrun := friend_system.register_me_run (w := w.in_chat p) (h.in_chat_same p) (h.no_list hid) hself ha
    have hreg : (world_registrar.register_me p) (friend_system.registered (w.in_chat p) p) =
        .error .assertion_failed (friend_system.registered (w.in_chat p) p) := by
      unfold world_registrar.register_me
      rw [get_bind]
      exact (bind_ok (cpp_assert_run hid _) _).trans (bind_error (cpp_assert_fail hname _) _)
    exact ⟨_, .name_in_game hid hself hname, (bind_ok hrun _).trans hreg⟩

theorem WorldOk.register_throws (h : WorldOk w) {e : StdException} (hid : w.registry.id_to_character p.id = none)
    (ha : w.db_answer = some e) :
    (FriendOp.register_me p).run (w.in_chat p) =
      .error (.exception e) ((w.in_chat p).executed (.friends_of p.id)) :=
  bind_error (friend_system.register_me_fails_run (w := w.in_chat p) (h.no_list hid) ha) _

theorem WorldOk.register_returns (h : WorldOk w) (hp : w.free p) (hself : ¬ w.own_friend p) (ha : w.db_answer = none) :
    ∃ w', FriendEffect (w.in_chat p) (.register_me p) none w' ∧
      (FriendOp.register_me p).run (w.in_chat p) = .ok () w' := by
  obtain ⟨res, w', he, hrun⟩ := friend_system.effect_of (h.in_chat_same p) (w := w.in_chat p) h.friends_ok.not_own
    (show (FriendOp.register_me p).Permitted _ from hp) (by rintro q ⟨⟩ _; exact hself)
  have hres : res = none := by
    cases he with
    | register_me => rfl
    | register_me_fails _ e hans =>
      have ha' : (w.in_chat p).db_answer = none := ha
      rw [ha'] at hans
      cases hans
  subst hres
  exact ⟨w', he, hrun⟩

theorem WorldOk.enters (h : WorldOk w) (hp : w.chat.entities p = none) (hfree : w.free p)
    (he : FriendEffect (w.in_chat p) (.register_me p) none w') :
    WorldOk w' ∧ ∀ q, w'.online q ↔ w.online q ∨ q = p := by
  have hok : FriendsOk (w.in_chat p) := h.friends_ok.same rfl rfl
  have honline : ∀ q, w'.online q ↔ w.online q ∨ q = p := by
    cases he with
    | register_me _ ha => exact fun q => online_add hfree.1 q
  refine ⟨⟨?_, he.friends_ok hok hfree, fun q => ?_⟩, honline⟩
  · rw [he.same_chat]
    exact h.consistent.register hp
  · rw [honline q, he.same_chat, ← h.players q]
    by_cases hqp : q = p
    · simp [World.in_chat, hqp]
    · simp [World.in_chat, hqp]

/-- When the friend list cannot be loaded, the chat forgets the character, and
nothing remains but the statement. -/
theorem unregister_chat_run (h : w.chat.Consistent) (hp : w.chat.entities p = none) (st : Statement) :
    chat_system.unregister_me p ((w.in_chat p).executed st) = .ok () (w.executed st) := by
  have hc : (w.in_chat p).chat.Consistent := h.register hp
  have he : (w.in_chat p).chat.entities p = some ⟨.empty⟩ := by simp [World.in_chat]
  refine (chat_system.unregister_me_run (w := (w.in_chat p).executed st) hc he).trans ?_
  have hback : (w.chat.put_entity p (some ⟨.empty⟩)).put_entity p none = w.chat := by
    have hu : Function.update w.chat.entities p none = w.chat.entities := by rw [← hp, Function.update_eq_self]
    simp [ChatSystem.put_entity, hu]
  show EStateM.Result.ok () (((w.in_chat p).executed st).after
    ((w.chat.put_entity p (some ⟨.empty⟩)).put_entity p none) []) = _
  rw [hback]
  simp [World.after, World.executed, World.in_chat]

theorem WorldOk.executed (h : WorldOk w) (st : Statement) : WorldOk (w.executed st) :=
  ⟨h.consistent, h.friends_ok.same rfl rfl, h.players⟩

/-- Who is in the game can leave it. -/
theorem WorldOk.leaves (h : WorldOk w) (hp : w.online p) :
    ∃ w1 c ns, FriendEffect w (.unregister_me p) none w1 ∧ (FriendOp.unregister_me p).run w = .ok () w1 ∧
      ChatEffect w1.quiet (.unregister_me p) c ns ∧
      chat_system.unregister_me p w1.quiet = .ok () (w1.quiet.after c ns) := by
  obtain ⟨res, w1, he, hrun⟩ := h.friend_effect (.unregister_me p) hp fun _ => nofun
  have hres : res = none := by cases he; rfl
  subst hres
  obtain ⟨e, hent⟩ := Option.isSome_iff_exists.1 ((h.players p).2 hp)
  have hchat : w1.quiet.chat = w.chat := he.same_chat
  have hent1 : w1.quiet.chat.entities p = some e := by rw [hchat]; exact hent
  exact ⟨w1, _, _, he, hrun, .unregister_me p e hent1,
    chat_system.unregister_me_run (hchat ▸ h.consistent) hent1⟩

/-- The others stay. -/
theorem WorldOk.left (h : WorldOk w) (hp : w.online p) {w1 : World} {c : ChatSystem} {ns : List (EntityPtr × Packet)}
    (he : FriendEffect w (.unregister_me p) none w1) (hc : ChatEffect w1.quiet (.unregister_me p) c ns) :
    WorldOk (w1.quiet.after c ns) ∧ ∀ q, (w1.quiet.after c ns).online q ↔ w.online q ∧ q ≠ p := by
  have hok := he.friends_ok h.friends_ok hp
  have hchat : w1.quiet.chat = w.chat := he.same_chat
  have honline : ∀ q, w1.online q ↔ w.online q ∧ q ≠ p := by
    generalize (none : Option StdException) = res at he
    cases he with
    | unregister_me _ l hl => exact fun q => online_remove hp q
  refine ⟨⟨hc.consistent (hchat ▸ h.consistent), ⟨hok.same_players, hok.not_own⟩, fun q => ?_⟩,
    honline⟩
  have hq : (w1.quiet.after c ns).online q ↔ w.online q ∧ q ≠ p := honline q
  rw [hq, ← h.players q, ← hchat]
  cases hc with
  | unregister_me _ e hent => by_cases hqp : q = p <;> simp [hqp]

end tejk_it_izi
