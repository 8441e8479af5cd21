import TejkItIzi.ChatEffects
import TejkItIzi.Lib.Runs
/-!
# Chat membership over runs

The chat system under any sequence of calls by any players, with the player
registry kept as `ingame_state` keeps it and the hash containers reordered at
any time.
-/

namespace tejk_it_izi

open ProgLib

inductive ChatEvent where
  | call (op : ChatOp)
  | enter_registry (p : EntityPtr)
  | leave_registry (p : EntityPtr)
  | reorder

/-- `ingame_state` registers with the chat before it enters the player registry,
and leaves that first. -/
def chatMachine : Machine World ChatEvent where
  init w :=
    w.chat = ⟨fun _ => none, ∅, fun _ => none⟩ ∧ w.registry = ⟨fun _ => none, fun _ => none⟩
  step w ev w' := match ev with
    | .call op => ∃ env, op.Permitted (w.begin env) ∧ op.run (w.begin env) = .ok () w'
    | .enter_registry p =>
      (w.chat.entities p).isSome ∧ world_registrar.register_me p (w.begin w.env) = .ok () w'
    | .leave_registry p =>
      w.registry.id_to_character p.id = some p ∧ w.registry.name_to_character p.name = some p ∧
        world_registrar.unregister_me p (w.begin w.env) = .ok () w'
    | .reorder => w.Reorders w' ∧ w'.notices = []

/-! ## Reordering changes nothing that counts -/

section Reorders

variable {w w' : World} {p : EntityPtr} {room : RoomPtr}

theorem World.Reorders.lookup (h : w.Reorders w') (R : Bytes) :
    w'.chat.active_chatrooms.lookup R = w.chat.active_chatrooms.lookup R :=
  (AList.perm_lookup h.rooms_perm).symm

theorem World.Reorders.room_at (h : w.Reorders w') {r' : Chatroom} (hr : w'.chat.rooms room = some r') :
    ∃ r, w.chat.rooms room = some r ∧ r.room_name = r'.room_name ∧ r.participants.Reorders r'.participants := by
  have hrel := h.rooms room
  rw [hr] at hrel
  generalize w.chat.rooms room = x at hrel
  cases hrel with
  | some hx => exact ⟨_, rfl, hx⟩

theorem World.Reorders.room_isSome (h : w.Reorders w') (room : RoomPtr) :
    (w'.chat.rooms room).isSome = (w.chat.rooms room).isSome := by
  have hrel := h.rooms room
  generalize w.chat.rooms room = x at hrel
  generalize w'.chat.rooms room = y at hrel
  cases hrel <;> rfl

theorem World.Reorders.entity_isSome (h : w.Reorders w') (p : EntityPtr) :
    (w'.chat.entities p).isSome = (w.chat.entities p).isSome := by
  have hrel := h.entities p
  generalize w.chat.entities p = x at hrel
  generalize w'.chat.entities p = y at hrel
  cases hrel <;> rfl

theorem World.Reorders.im_in (h : w.Reorders w') : w'.chat.im_in p room ↔ w.chat.im_in p room := by
  have hrel := h.entities p
  unfold ChatSystem.im_in
  generalize w.chat.entities p = x at hrel
  generalize w'.chat.entities p = y at hrel
  cases hrel with
  | none => rfl
  | some hx => simpa using hx.mem

theorem World.Reorders.consistent (h : w.Reorders w') (hc : w.chat.Consistent) : w'.chat.Consistent where
  stored R room hl := by
    rw [h.lookup] at hl
    obtain ⟨r, hr, hn⟩ := hc.stored R room hl
    have hs : (w'.chat.rooms room).isSome := by rw [h.room_isSome, hr]; rfl
    obtain ⟨r', hr'⟩ := Option.isSome_iff_exists.1 hs
    obtain ⟨r0, hr0, hn0, _⟩ := h.room_at hr'
    rw [hr] at hr0
    cases hr0
    exact ⟨r', hr', hn0 ▸ hn⟩
  active room r' hr' := by
    obtain ⟨r, hr, hn, _⟩ := h.room_at hr'
    rw [h.lookup, ← hn]
    exact hc.active room r hr
  registered room r' q hr' hq := by
    obtain ⟨r, hr, _, hp⟩ := h.room_at hr'
    rw [h.entity_isSome]
    exact hc.registered room r q hr (hp.mem.1 hq)
  member_iff room r' q hr' := by
    obtain ⟨r, hr, _, hp⟩ := h.room_at hr'
    rw [h.im_in, hp.mem]
    exact hc.member_iff room r q hr
  live q room hi := by
    rw [h.room_isSome]
    exact hc.live q room (h.im_in.1 hi)
  no_empty_room room r' hr' := by
    obtain ⟨r, hr, _, hp⟩ := h.room_at hr'
    obtain ⟨q, hq⟩ := hc.no_empty_room room r hr
    exact ⟨q, hp.mem.2 hq⟩

end Reorders

/-! ## The invariant -/

/-- What every reachable world keeps: a consistent chat, and in the player
registry only players who are registered with the chat. -/
structure ChatInv (w : World) : Prop where
  consistent : w.chat.Consistent
  registry_known : ∀ n q, w.registry.name_to_character n = some q → (w.chat.entities q).isSome

theorem ChatEffect.consistent {w : World} {op : ChatOp} {c : ChatSystem} {ns : List (EntityPtr × Packet)}
    (h : ChatEffect w op c ns) (hc : w.chat.Consistent) : c.Consistent := by
  cases h with
  | register_me p hp => exact hc.register hp
  | unregister_me p e he => exact hc.unregister he
  | join p e R room r he hl hr hp => exact hc.enter he hr
  | join_new p e R room he hl hroom => exact hc.enter_new he hl hroom
  | leave p e R room r he hl hr hp => exact hc.leave he hr
  | _ => exact hc

/-- Only `unregister_me` takes anyone out of the chat. -/
theorem ChatEffect.registered {w : World} {op : ChatOp} {c : ChatSystem} {ns : List (EntityPtr × Packet)}
    (h : ChatEffect w op c ns) {q : EntityPtr} (hq : (w.chat.entities q).isSome) (hop : op ≠ .unregister_me q) :
    (c.entities q).isSome := by
  cases h with
  | register_me p hp =>
    by_cases hqp : q = p <;> simp [hqp, hq]
  | unregister_me p e he =>
    have hqp : q ≠ p := by rintro rfl; exact hop rfl
    simpa [hqp] using hq
  | join p e R room r he hl hr hp =>
    by_cases hqp : q = p <;> simp [ChatSystem.enter, hqp, hq]
  | join_new p e R room he hl hroom =>
    by_cases hqp : q = p <;> simp [ChatSystem.enter, ChatSystem.add_room, hqp, hq]
  | leave p e R room r he hl hr hp =>
    by_cases hqp : q = p <;> simp [hqp, hq]
  | _ => exact hq

theorem chat_inv_step {w w' : World} {ev : ChatEvent} (hi : ChatInv w) (hs : chatMachine.step w ev w') :
    ChatInv w' := by
  cases ev with
  | call op =>
    obtain ⟨env, hop, hr⟩ := hs
    obtain ⟨c, ns, he, hrun⟩ := chat_system.effect_of (w := w.begin env) hi.consistent hi.registry_known hop
    rw [hrun] at hr
    cases hr
    refine ⟨he.consistent hi.consistent, fun n q hq => he.registered (hi.registry_known n q hq) ?_⟩
    rintro rfl
    exact hop.2 n hq
  | enter_registry p =>
    obtain ⟨hp, hr⟩ := hs
    obtain ⟨_, _, rfl⟩ := world_registrar.register_me_ok hr
    refine ⟨hi.consistent, fun n q hq => ?_⟩
    by_cases hn : n = p.name
    · subst hn
      simp only [World.begin, WorldRegistrar.add, Function.update_self, Option.some.injEq] at hq
      exact hq ▸ hp
    · simp only [World.begin, WorldRegistrar.add, Function.update_of_ne hn] at hq
      exact hi.registry_known n q hq
  | leave_registry p =>
    obtain ⟨hid, hname, hr⟩ := hs
    have hrun := world_registrar.unregister_me_eq (w := w.begin w.env) (p := p) (by simp [World.begin, hid])
      (by simp [World.begin, hname])
    rw [hrun] at hr
    cases hr
    refine ⟨hi.consistent, fun n q hq => ?_⟩
    by_cases hn : n = p.name
    · subst hn
      simp [World.begin, WorldRegistrar.remove] at hq
    · simp only [World.begin, WorldRegistrar.remove, Function.update_of_ne hn] at hq
      exact hi.registry_known n q hq
  | reorder =>
    obtain ⟨h, _⟩ := hs
    refine ⟨h.consistent hi.consistent, fun n q hq => ?_⟩
    rw [h.registry] at hq
    rw [h.entity_isSome]
    exact hi.registry_known n q hq

theorem chat_inv_init {w : World} (h : chatMachine.init w) : ChatInv w := by
  obtain ⟨hc, hr⟩ := h
  refine ⟨?_, by simp [hr]⟩
  rw [hc]
  constructor
  · constructor <;> simp [ChatSystem.im_in]
  · simp [ChatSystem.NoEmptyRoom]

theorem reachable_chat_inv {w : World} (h : chatMachine.Reachable w) : ChatInv w :=
  h.keeps (fun _ => chat_inv_init) fun _ _ _ => chat_inv_step

/-- After every run each active room is stored under its own name and has a
participant, participants are registered, a player is in a room exactly when
the room is among his rooms, and the rooms of a player are active. So no
assertion fails in the next call and none of its lookups throws: it returns. -/
theorem chat_membership_consistent {w : World} (h : chatMachine.Reachable w) :
    (∀ R room, w.chat.active_chatrooms.lookup R = some room →
      ∃ r, w.chat.rooms room = some r ∧ r.room_name = R ∧ (∃ p, p ∈ r.participants) ∧
        ∀ p, p ∈ r.participants → (w.chat.entities p).isSome) ∧
    (∀ room r p, w.chat.rooms room = some r →
      (p ∈ r.participants ↔ ∃ e, w.chat.entities p = some e ∧ room ∈ e.chatrooms_im_in)) ∧
    (∀ p e room, w.chat.entities p = some e → room ∈ e.chatrooms_im_in →
      ∃ R, w.chat.active_chatrooms.lookup R = some room) ∧
    ∀ (op : ChatOp) (env : Env), op.Permitted (w.begin env) → ∃ w', op.run (w.begin env) = .ok () w' := by
  have hi := reachable_chat_inv h
  refine ⟨?_, hi.consistent.member_iff, ?_, ?_⟩
  · intro R room hl
    obtain ⟨r, hr, hn⟩ := hi.consistent.stored R room hl
    exact ⟨r, hr, hn, hi.consistent.no_empty_room room r hr, fun p => hi.consistent.registered room r p hr⟩
  · intro p e room he hroom
    obtain ⟨r, hr⟩ := Option.isSome_iff_exists.1 (hi.consistent.live p room ⟨e, he, hroom⟩)
    exact ⟨r.room_name, hi.consistent.active room r hr⟩
  · intro op env hop
    obtain ⟨c, ns, _, hrun⟩ := chat_system.effect_of (w := w.begin env) hi.consistent hi.registry_known hop
    exact ⟨_, hrun⟩

/-! Alice and Kate are in a room, and Alice is alone in another one. -/

def alice : EntityPtr := ⟨1, 7, ascii "alice", 0⟩

def kate : EntityPtr := ⟨4, 10, ascii "kate", 3⟩

/-- The next room is made at this address. -/
def room_at (room : RoomPtr) : Env := ⟨0, room, 0, []⟩

def World.after_chat_call (w : World) (op : ChatOp) (room : RoomPtr) : World := endState op.run (w.begin (room_at room))

def both_registered : World :=
  ((World.fresh .empty).after_chat_call (.register_me alice) 0).after_chat_call (.register_me kate) 0

def alice_in_hall : World := both_registered.after_chat_call (.join_chatroom alice (ascii "hall")) 0

def both_in_hall : World := alice_in_hall.after_chat_call (.join_chatroom kate (ascii "hall")) 1

def alice_in_den : World := both_in_hall.after_chat_call (.join_chatroom alice (ascii "den")) 1

def alice_has_spoken : World := alice_in_den.after_chat_call (.broadcast_message alice (ascii "hall") (ascii "hi")) 2

/-- Before Kate enters the room. -/
def before_kate : List (Taken World ChatEvent) :=
  [⟨World.fresh .empty, .call (.register_me alice), (World.fresh .empty).after_chat_call (.register_me alice) 0⟩,
    ⟨(World.fresh .empty).after_chat_call (.register_me alice) 0, .call (.register_me kate), both_registered⟩,
    ⟨both_registered, .call (.join_chatroom alice (ascii "hall")), alice_in_hall⟩]

def kate_enters : Taken World ChatEvent := ⟨alice_in_hall, .call (.join_chatroom kate (ascii "hall")), both_in_hall⟩

/-- What happens while she is there. -/
def kates_stay : List (Taken World ChatEvent) :=
  [⟨both_in_hall, .call (.join_chatroom alice (ascii "den")), alice_in_den⟩,
    ⟨alice_in_den, .call (.broadcast_message alice (ascii "hall") (ascii "hi")), alice_has_spoken⟩]

theorem both_run : chatMachine.Run (World.fresh .empty) (before_kate ++ kate_enters :: kates_stay) alice_has_spoken := by
  have step {tr : List (Taken World ChatEvent)} {w : World} (h : chatMachine.Run (World.fresh .empty) tr w) (op : ChatOp)
      (room : RoomPtr) (hop : op.Permitted (w.begin (room_at room)))
      (hr : op.run (w.begin (room_at room)) = .ok () (w.after_chat_call op room)) :
      chatMachine.Run (World.fresh .empty) (tr ++ [⟨w, .call op, w.after_chat_call op room⟩]) (w.after_chat_call op room) :=
    h.snoc ⟨room_at room, hop, hr⟩
  have h1 := step .nil (.register_me alice) 0 rfl rfl
  have h2 := step h1 (.register_me kate) 0 rfl rfl
  have h3 := step h2 (.join_chatroom alice (ascii "hall")) 0 ⟨rfl, rfl⟩ rfl
  have h4 := step h3 (.join_chatroom kate (ascii "hall")) 1 ⟨rfl, rfl⟩ rfl
  have h5 := step h4 (.join_chatroom alice (ascii "den")) 1 ⟨rfl, rfl⟩ rfl
  exact step h5 (.broadcast_message alice (ascii "hall") (ascii "hi")) 2 rfl rfl

theorem alice_has_spoken_reachable : chatMachine.Reachable alice_has_spoken :=
  (Machine.Reachable.init (M := chatMachine) (s := World.fresh .empty) ⟨rfl, rfl⟩).run both_run

/-- Both rooms have exactly the players who have it among their rooms, and Kate can
leave hers. -/
theorem both_rooms_consistent : ∃ hall den, alice_has_spoken.chat.rooms 0 = some hall ∧
    alice_has_spoken.chat.rooms 1 = some den ∧ hall.room_name = ascii "hall" ∧ den.room_name = ascii "den" ∧
    (∀ p, p ∈ hall.participants ↔ ∃ e, alice_has_spoken.chat.entities p = some e ∧ 0 ∈ e.chatrooms_im_in) ∧
    (∀ p, p ∈ den.participants ↔ ∃ e, alice_has_spoken.chat.entities p = some e ∧ 1 ∈ e.chatrooms_im_in) ∧
    ∃ w', (ChatOp.leave_chatroom kate (ascii "hall")).run (alice_has_spoken.begin (room_at 2)) = .ok () w' := by
  obtain ⟨hstored, hmember, _, hreturns⟩ := chat_membership_consistent alice_has_spoken_reachable
  obtain ⟨hall, hhall, hname, _⟩ := hstored (ascii "hall") 0 rfl
  obtain ⟨den, hden, hname', _⟩ := hstored (ascii "den") 1 rfl
  exact ⟨hall, den, hhall, hden, hname, hname', fun p => hmember 0 hall p hhall, fun p => hmember 1 den p hden,
    hreturns _ (room_at 2) rfl⟩

end tejk_it_izi
