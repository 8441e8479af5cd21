import TejkItIzi.ChatDelivery
import TejkItIzi.Statements
/-!
# Packets and their buffers

Every packet is written into a buffer of 2048 bytes, and nothing compares it
with the buffer. A packet that answers a request holds the strings of the
request and more, so it can be longer than the request was; `Fits` says when it
is not too long.
-/

namespace tejk_it_izi

open ProgLib

/-! ## Calls that fit -/

/-- The packets of the call have at most `B` bytes. -/
def ChatOp.Fits (B : Nat) (w : World) : ChatOp → Prop
  | .join_chatroom p R => p ∉ w.chat.members R → 9 + R.length + p.name.length ≤ B
  | .broadcast_message p R msg => p ∈ w.chat.members R → 13 + R.length + p.name.length + msg.length ≤ B
  | .whisper p recipient msg =>
    ∀ q, w.registry.name_to_character recipient = some q → q ≠ p → 9 + p.name.length + msg.length ≤ B
  | .periodic_broadcast =>
    -- The name of the room is also in the sender; the text ends with the number of participants.
    ∀ R, (w.chat.members R).Nonempty →
      69 + 2 * R.length + (Nat.toDigits 10 (w.chat.members R).card).length ≤ B
  | .register_me _ | .unregister_me _ | .leave_chatroom _ _ => True

/-- An invitation of somebody offline is answered with the name as it came. -/
def FriendOp.Fits (B : Nat) (w : World) : FriendOp → Prop
  | .process_req_friend_add _ name => w.registry.name_to_character name = none → 9 + name.length ≤ B
  | _ => True

/-- When a member leaves, the others can be told. -/
def World.RoomsFit (B : Nat) (w : World) : Prop := ∀ R p, p ∈ w.chat.members R → 9 + R.length + p.name.length ≤ B

section chat

variable {B : Nat} {w : World} {op : ChatOp} {c : ChatSystem} {ns : List (EntityPtr × Packet)} {p q : EntityPtr}
  {room : RoomPtr} {r : Chatroom}

theorem ChatSystem.Consistent.mem_members (h : w.chat.Consistent) (hr : w.chat.rooms room = some r) :
    p ∈ w.chat.members r.room_name ↔ p ∈ r.participants :=
  ChatSystem.mem_members (h.active room r hr) hr

theorem ChatEffect.rooms_fit (h : ChatEffect w op c ns) (hc : w.chat.Consistent) (hr : w.RoomsFit B)
    (hf : op.Fits B w) : (w.after c ns).RoomsFit B := by
  intro R q hq
  rw [World.after_chat, h.members hc] at hq
  cases op with
  | join_chatroom p R' =>
    simp only [ChatOp.act, Groups.next] at hq
    split at hq
    case isTrue hR =>
      subst hR
      rcases Finset.mem_insert.1 hq with rfl | hq
      · by_cases hin : q ∈ w.chat.members R
        · exact hr R q hin
        · exact hf hin
      · exact hr R q hq
    case isFalse => exact hr R q hq
  | leave_chatroom p R' =>
    simp only [ChatOp.act, Groups.next] at hq
    split at hq
    · exact hr R q (Finset.mem_of_mem_erase hq)
    · exact hr R q hq
  | unregister_me p => exact hr R q (Finset.mem_of_mem_erase hq)
  | register_me | broadcast_message | whisper | periodic_broadcast => exact hr R q hq

theorem farewell_sizes (hc : w.chat.Consistent) (hr : w.RoomsFit B) (hp : w.chat.im_in p room) :
    ∀ n ∈ w.chat.farewell p room, n.2.size ≤ B := by
  intro n hn
  unfold ChatSystem.farewell at hn
  cases hroom : w.chat.rooms room with
  | none => rw [hroom] at hn; cases hn
  | some r =>
    rw [hroom] at hn
    obtain ⟨q, _, rfl⟩ := List.mem_map.1 hn
    exact hr _ p ((hc.mem_members hroom).2 ((hc.member_iff room r p hroom).2 hp))

theorem size_announcement (R : Bytes) (n : Nat) :
    (packet_of R (.counted n) : Packet).size = 69 + 2 * R.length + (Nat.toDigits 10 n).length := by
  have h1 : (ascii "[[BROADCAST - ").length = 14 := by decide
  have h2 : (ascii "]]").length = 2 := by decide
  have h3 : (ascii "There are currently: ").length = 21 := by decide
  have h4 : (ascii " users on the chat!").length = 19 := by decide
  have h5 : (to_string n).length = (Nat.toDigits 10 n).length := List.length_map _
  simp only [packet_of, Packet.size, chat_system.broadcast_sender, chat_system.broadcast_text, List.length_append,
    h1, h2, h3, h4, h5]
  omega

theorem to_all_sizes {ps : USet EntityPtr} {pk : Packet} (hp : p ∈ ps) :
    (∀ n ∈ to_all ps pk, n.2.size ≤ B) ↔ pk.size ≤ B := by
  constructor
  · exact fun h => h (p, pk) (List.mem_map_of_mem (USet.mem_elems.2 hp))
  · rintro h n hn
    obtain ⟨q, _, rfl⟩ := List.mem_map.1 hn
    exact h

/-- What one room is told is as long as its name and its size make it. -/
theorem announcement_sizes (hc : w.chat.Consistent) (hr : w.chat.rooms room = some r) :
    (∀ n ∈ w.chat.announcement room, n.2.size ≤ B) ↔
      69 + 2 * r.room_name.length + (Nat.toDigits 10 (w.chat.members r.room_name).card).length ≤ B := by
  obtain ⟨p, hp⟩ := hc.no_empty_room room r hr
  have hcard : (w.chat.members r.room_name).card = r.participants.size := by
    simp [ChatSystem.members, ChatSystem.chatroom, hc.active room r hr, hr, USet.card_toFinset]
  rw [hcard, ← size_announcement]
  simp only [ChatSystem.announcement, hr]
  exact to_all_sizes hp

/-- Every room is announced to, and no other. -/
theorem announcements_sizes (hc : w.chat.Consistent) :
    (∀ n ∈ w.chat.active_chatrooms.entries.flatMap fun x => w.chat.announcement x.2, n.2.size ≤ B) ↔
      ChatOp.periodic_broadcast.Fits B w := by
  constructor
  · rintro h R ⟨p, hp⟩
    obtain ⟨room, r, hl, hr, _⟩ := ChatSystem.room_of_mem hp
    obtain rfl := hc.name_of_lookup hl hr
    exact (announcement_sizes hc hr).1 fun n hn =>
      h n (List.mem_flatMap.2 ⟨⟨_, room⟩, AList.mem_lookup_iff.1 hl, hn⟩)
  · intro h n hn
    obtain ⟨x, hx, hn⟩ := List.mem_flatMap.1 hn
    obtain ⟨r, hr, _⟩ := hc.stored x.1 x.2 (AList.mem_lookup_iff.2 hx)
    obtain ⟨p, hp⟩ := hc.no_empty_room x.2 r hr
    exact (announcement_sizes hc hr).2 (h _ ⟨p, (hc.mem_members hr).2 hp⟩) n hn

/-- The packets of a call are as long as `Fits` says. -/
theorem ChatEffect.sizes_iff (h : ChatEffect w op c ns) (hc : w.chat.Consistent) (hr : w.RoomsFit B) :
    (∀ n ∈ ns, n.2.size ≤ B) ↔ op.Fits B w := by
  cases h with
  | register_me p => simp [ChatOp.Fits]
  | unregister_me p e he =>
    refine iff_of_true (fun n hn => ?_) trivial
    obtain ⟨room, hroom, hn⟩ := List.mem_flatMap.1 hn
    exact farewell_sizes hc hr ((ChatSystem.im_in_iff he).2 (USet.mem_elems.1 hroom)) n hn
  | join_again p R hp => exact iff_of_true (by simp) fun h => absurd hp h
  | join p e R room r he hl hroom hp =>
    rw [to_all_sizes (USet.mem_insert.2 (.inl rfl))]
    rw [← ChatSystem.mem_members hl hroom] at hp
    exact ⟨fun h _ => h, fun h => h hp⟩
  | join_new p e R room he hl hroom =>
    rw [to_all_sizes (USet.mem_insert.2 (.inl rfl))]
    have hp : p ∉ w.chat.members R := by simp [ChatSystem.members_of_lookup_none hl]
    exact ⟨fun h _ => h, fun h => h hp⟩
  | leave_absent p R => exact iff_of_true (by simp) trivial
  | leave p e R room r he hl hroom hp =>
    exact iff_of_true (farewell_sizes hc hr ((hc.member_iff room r p hroom).1 hp)) trivial
  | broadcast_absent p R msg hp => exact iff_of_true (by simp) fun h => absurd h hp
  | broadcast p R msg room r hl hroom hp =>
    obtain rfl := hc.name_of_lookup hl hroom
    rw [to_all_sizes hp]
    rw [← ChatSystem.mem_members hl hroom] at hp
    exact ⟨fun h _ => h, fun h => h hp⟩
  | whisper_lost p recipient msg hq => exact iff_of_true (by simp) fun q hn hne => absurd (hq q hn) hne
  | whisper p recipient msg q hq hne =>
    simp only [List.forall_mem_singleton]
    constructor
    · intro h q' hq' _
      exact h
    · exact fun h => h q hq hne
  | periodic_broadcast => exact announcements_sizes hc

end chat

/-! ## Friends -/

def FriendOp.caller : FriendOp → Option EntityPtr
  | .register_me p | .unregister_me p | .process_req_friend_add p _ | .process_req_friend_remove p _ => some p
  | .cleanup => none

/-- The names of players are at most 20 bytes long. -/
def World.ShortNames (w : World) : Prop := ∀ p, w.online p → p.name.length ≤ 20

section friends

variable {B : Nat} {w w' : World} {op : FriendOp} {res : Option StdException} {p : EntityPtr} {name : Bytes}

theorem World.ShortNames.by_name (h : w.ShortNames) (hs : SamePlayers w.registry w.friends) {q : EntityPtr}
    (hq : w.registry.name_to_character name = some q) : name.length ≤ 20 := by
  obtain ⟨rfl, hon⟩ := hs.by_name name q hq
  exact h q hon

theorem greetings_sizes (hnames : w.ShortNames) (hs : SamePlayers w.registry w.friends) (hp : p.name.length ≤ 20)
    (ids : USet Nat) : ∀ n ∈ w.greetings p ids, n.2.size ≤ 25 := by
  intro n hn
  obtain ⟨i, _, hn⟩ := List.mem_flatMap.1 hn
  unfold World.greeting at hn
  split at hn
  case h_1 l q hl hq =>
    have hlen := hnames q (by rw [World.online, (hs.by_id i q hq).1]; exact hq)
    simp only [List.mem_cons, List.not_mem_nil, or_false] at hn
    rcases hn with rfl | rfl <;> simp only [Packet.size] <;> omega
  case h_2 => cases hn

theorem goodbyes_sizes (hp : p.name.length ≤ 20) (ids : USet Nat) : ∀ n ∈ w.goodbyes p ids, n.2.size ≤ 25 := by
  intro n hn
  obtain ⟨i, _, hn⟩ := List.mem_flatMap.1 hn
  split at hn
  case h_1 l hl =>
    rw [List.mem_singleton.1 hn]
    simp only [Packet.size]
    omega
  case h_2 => cases hn

/-- The packets of a call are as long as `Fits` says, if the name of a removal is
as short as one that came in a packet. -/
theorem FriendEffect.sizes_iff (h : FriendEffect w op res w') (hq : w.notices = []) (hB : 29 ≤ B)
    (hnames : w.ShortNames) (hs : SamePlayers w.registry w.friends) (hme : ∀ p ∈ op.caller, p.name.length ≤ 20)
    (hremove : ∀ p name, op = .process_req_friend_remove p name → 5 + name.length ≤ B) :
    (∀ n ∈ w'.notices, n.2.size ≤ B) ↔ op.Fits B w := by
  cases h with
  | register_me p =>
    refine iff_of_true (fun n hn => ?_) trivial
    simp only [World.with_registry_notices, World.friended_notices, World.executed_notices, hq, List.nil_append] at hn
    exact (greetings_sizes hnames hs (hme p rfl) _ n hn).trans (by omega)
  | unregister_me p l =>
    refine iff_of_true (fun n hn => ?_) trivial
    simp only [World.with_registry_notices, World.friended_notices, hq, List.nil_append] at hn
    exact (goodbyes_sizes (hme p rfl) _ n hn).trans (by omega)
  | register_me_fails p e => exact iff_of_true (by simp [hq]) trivial
  | add_fail p name l reason hl hf =>
    simp only [World.friended_notices, hq, List.nil_append, List.forall_mem_singleton, Packet.size]
    cases hf with
    | player_not_online hnone => exact ⟨fun h _ => h, fun h => h hnone⟩
    | cannot_invite_self q hsome | already_friends q hsome =>
      have := hnames.by_name hs hsome
      exact iff_of_true (by omega) fun hnone => by rw [hsome] at hnone; cases hnone
  | add_waiting p name q l hl hsome | add_recorded p name q l hl hsome | add_match p name q l l' hl hsome =>
    have h1 := hnames.by_name hs hsome
    have h2 := hme p rfl
    refine iff_of_true ?_ fun hnone => by rw [hsome] at hnone; cases hnone
    simp only [World.friended_notices, World.committed_notices, hq, List.nil_append, List.mem_cons,
      List.not_mem_nil, or_false, forall_eq_or_imp, forall_eq, Packet.size]
    omega
  | remove_lookup_fails p name e => exact iff_of_true (by simp [hq]) trivial
  | remove_fail p name l | remove_offline p name l =>
    have h1 := hremove p name rfl
    refine iff_of_true ?_ trivial
    simp only [World.friended_notices, World.committed_notices, World.executed_notices, hq, List.nil_append,
      List.forall_mem_singleton, Packet.size]
    exact h1
  | remove_online p name l q l' =>
    have h1 := hremove p name rfl
    have h2 := hme p rfl
    refine iff_of_true ?_ trivial
    simp only [World.friended_notices, World.committed_notices, World.executed_notices, hq, List.nil_append,
      List.mem_cons, List.not_mem_nil, or_false, forall_eq_or_imp, forall_eq, Packet.size]
    omega
  | cleanup => exact iff_of_true (by simp [hq]) trivial

end friends

/-! ## Handlers that fit -/

def IngameRequest.Fits (B : Nat) (w : World) (p : EntityPtr) (request : IngameRequest) : Prop :=
  (∀ op, request.chat_op p = some op → op.Fits B w) ∧ ∀ op, request.friend_op p = some op → op.Fits B w

/-- The packets of the handler have at most `B` bytes. Apart from the broadcast
only requests in the game and lists of characters can have too long ones. -/
def Handler.Fits (B : Nat) (s : Server) : Handler → Prop
  | .on_recv k data size => ∀ c p acc request, s.clients k = some c → c.current_state = .ingame_state p acc →
    ingame_state_recv_packet_factory.construct data size = .ok request → request.Fits B s.world p
  | .next_task => ∀ k chars rest, s.sync_strand = .lobby_chars_loaded k chars :: rest → 9 + characters_size chars ≤ B
  | .periodic_broadcast => ChatOp.periodic_broadcast.Fits B s.world
  | .on_accept _ | .on_error _ | .next_load | .periodic_cleanup => True

section lists

variable {l : List LobbyCharacter}

theorem characters_size_le (h : ∀ c ∈ l, c.name.length ≤ 20) : characters_size l ≤ 28 * l.length := by
  induction l with
  | nil => simp [characters_size]
  | cons c l ih =>
    have h1 := h c List.mem_cons_self
    have h2 := ih fun c' hc => h c' (List.mem_cons_of_mem _ hc)
    simp only [characters_size, List.map_cons, List.sum_cons, List.length_cons] at h2 ⊢
    omega

theorem characters_size_eraseP (q : LobbyCharacter → Bool) : characters_size (l.eraseP q) ≤ characters_size l := by
  induction l with
  | nil => simp
  | cons c l ih =>
    rw [List.eraseP_cons]
    simp only [characters_size] at ih ⊢
    cases q c <;> simp only [cond_true, cond_false, List.map_cons, List.sum_cons] <;> omega

end lists

section effects

variable {B : Nat} {k : SessionId} {c : MmoClient} {w w' : World} {g : Progress} {acc : AccountData}
  {chars : List LobbyCharacter} {p : EntityPtr} {ps : List (SessionId × Packet)}

theorem mails_sizes : (∀ m ∈ w.mails, m.2.size ≤ B) ↔ ∀ n ∈ w.notices, n.2.size ≤ B := by
  unfold World.mails
  constructor
  · exact fun h n hn => h _ (List.mem_map_of_mem hn)
  · intro h m hm
    obtain ⟨n, hn, rfl⟩ := List.mem_map.1 hm
    exact h n hn

theorem IngameRequest.one_op {request : IngameRequest} {op : ChatOp} {op' : FriendOp}
    (h : request.chat_op p = some op) (h' : request.friend_op p = some op') : False := by
  cases request <;> cases h <;> cases h'

theorem IngameEffect.sizes_iff {request : IngameRequest} (he : IngameEffect k c w p acc request g)
    (hB : buffer_size ≤ B) (hok : WorldOk w) (hq : w.notices = []) (hp : w.online p) (hrooms : w.RoomsFit B)
    (hnames : w.ShortNames) (hsized : request.Sized) :
    (∀ m ∈ g.packets, m.2.size ≤ B) ↔ request.Fits B w p := by
  have hfriends {op : FriendOp} {res : Option StdException} {w' : World} (hop : request.friend_op p = some op)
      (hef : FriendEffect w op res w') : (∀ m ∈ w'.mails, m.2.size ≤ B) ↔ request.Fits B w p := by
    have hme : ∀ q ∈ op.caller, q.name.length ≤ 20 := by
      cases request <;> cases hop <;> rintro q ⟨⟩ <;> exact hnames p hp
    have hremove : ∀ q name, op = .process_req_friend_remove q name → 5 + name.length ≤ B := by
      rintro q name rfl
      cases request <;> cases hop
      exact hsized.trans hB
    rw [mails_sizes, hef.sizes_iff hq ((by decide : 29 ≤ buffer_size).trans hB) hnames hok.friends_ok.same_players hme
      hremove]
    constructor
    · refine fun h => ⟨fun op' hop' => (IngameRequest.one_op hop' hop).elim, fun op' hop' => ?_⟩
      rw [hop] at hop'
      cases hop'
      exact h
    · exact fun h => h.2 op hop
  cases he with
  | ignored =>
    exact iff_of_true (by simp [Progress.waiting, Progress.start]) ⟨fun _ h => (by cases h), fun _ h => (by cases h)⟩
  | log_off =>
    exact iff_of_true (by simp [Progress.changing, Progress.start]) ⟨fun _ h => (by cases h), fun _ h => (by cases h)⟩
  | chat request op c' ns hop hperm hef =>
    have hmails : (∀ m ∈ (w.after c' ns).mails, m.2.size ≤ B) ↔ op.Fits B w := by
      rw [mails_sizes, World.after_notices, hq, List.nil_append, hef.sizes_iff hok.consistent hrooms]
    refine hmails.trans ⟨fun h => ⟨fun op' hop' => ?_, fun op' hop' => (IngameRequest.one_op hop hop').elim⟩,
      fun h => h.1 op hop⟩
    rw [hop] at hop'
    cases hop'
    exact h
  | friends request op w' hop hperm hef => exact hfriends hop hef
  | friends_fail request op e w' hop hperm hef => exact hfriends hop hef

theorem LobbyEffect.sizes {request : LobbyRequest} (he : LobbyEffect k c w acc chars request g) (hok : WorldOk w)
    (hq : w.notices = []) (hnames : w.ShortNames) (hchars : ∀ ch ∈ chars, valid_nickname ch.name)
    (hlist : 9 + characters_size chars ≤ buffer_size) : ∀ m ∈ g.packets, m.2.size ≤ buffer_size := by
  have hfound {name : Bytes} {ch : LobbyCharacter} (hf : chars.find? (·.name = name) = some ch) : ch.name.length ≤ 20 :=
    (valid_of_find hchars hf).2.1
  unfold buffer_size at *
  cases he with
  | ignored | log_off | select_absent | create_lookup_fails | create_fails | delete_absent | delete_fails =>
    simp [Progress.waiting, Progress.closing, Progress.start]
  | select_fails name ch e hf =>
    have := hfound hf
    simp only [Progress.closing, List.mem_cons, List.not_mem_nil, or_false, forall_eq_or_imp, forall_eq, Packet.size]
    omega
  | select name ch w' hf hfree hef =>
    have hlen := hfound hf
    have hs := hok.in_chat_same (w.newcomer k ch)
    rw [show ((⟨c, w'.quiet, (k, .character_selected ch) :: w'.mails, [], []⟩ : Progress).changing k
      (.ingame_state (w.newcomer k ch) acc)).packets = (k, .character_selected ch) :: w'.mails from rfl]
    refine List.forall_mem_cons.2 ⟨by simp only [Packet.size]; omega, mails_sizes.2 ?_⟩
    have hq' : (w.in_chat (w.newcomer k ch)).notices = [] := by simp [World.in_chat, hq]
    refine (hef.sizes_iff (B := 2048) hq' (by decide) hnames hs ?_ (by simp)).2 trivial
    rintro q ⟨⟩
    exact hlen
  | create_refused name reason | create_taken name =>
    simp [Progress.waiting, Packet.size]
  | create name hfull hname =>
    have := hname.2.1
    simp only [Progress.waiting, List.forall_mem_singleton, Packet.size]
    omega
  | delete name ch hf =>
    have := characters_size_eraseP (l := chars) (·.name = name)
    simp only [Progress.waiting, List.forall_mem_singleton, Packet.size]
    omega

theorem Destroyed.sizes {st : ClientState} (h : Destroyed k w st w' ps) (hok : WorldOk w) (hq : w.notices = [])
    (hst : ∀ p, st.holds p → w.online p) (hrooms : w.RoomsFit buffer_size) (hnames : w.ShortNames) :
    (∀ m ∈ ps, m.2.size ≤ buffer_size) ∧ w'.RoomsFit buffer_size := by
  cases h with
  | other => exact ⟨by simp, hrooms⟩
  | ingame_state p acc w1 c ns hf hc =>
    have hme : ∀ q ∈ (FriendOp.unregister_me p).caller, q.name.length ≤ 20 := by
      rintro q ⟨⟩
      exact hnames p (hst p rfl)
    have h1 := (hf.sizes_iff (B := buffer_size) hq (by decide) hnames hok.friends_ok.same_players hme (by simp)).2 trivial
    have hchat : w1.chat = w.chat := hf.same_chat
    have hcons : w1.quiet.chat.Consistent := by rw [show w1.quiet.chat = w.chat from hchat]; exact hok.consistent
    have hrooms' : w1.quiet.RoomsFit buffer_size := by
      intro R q hm
      rw [show w1.quiet.chat = w.chat from hchat] at hm
      exact hrooms R q hm
    have h2 := (hc.sizes_iff hcons hrooms').2 trivial
    refine ⟨fun m hm => ?_, hc.rooms_fit hcons hrooms' trivial⟩
    rcases List.mem_append.1 hm with hm | hm
    · rcases List.mem_append.1 hm with hm | hm
      · exact mails_sizes.2 h1 m hm
      · exact mails_sizes.2 h2 m hm
    · rw [List.mem_singleton.1 hm]
      simp [Packet.size, buffer_size]

/-- Before the login the answers have one byte. -/
theorem PreauthEffect.sizes {valid : Bytes → Bytes → Bool} {keys : Keys} (he : PreauthEffect k c w valid keys g) :
    ∀ m ∈ g.packets, m.2.size ≤ buffer_size := by
  cases he <;> simp [Progress.closing, Progress.changing, Progress.start, Packet.size, buffer_size]

theorem PacketDeath.sizes {data : Buffer} {len : Nat} {f : Fault} (he : PacketDeath k c w data len f g)
    (hok : WorldOk w) (hq : w.notices = []) (hnames : w.ShortNames)
    (hchars : ∀ acc chars, c.current_state = .lobby_state acc chars → ∀ ch ∈ chars, valid_nickname ch.name) :
    ∀ m ∈ g.packets, m.2.size ≤ buffer_size := by
  cases he with
  | preauth e g hcur he =>
    generalize preauth_state.read data len = keys at he
    cases he <;> simp [Progress.start, Packet.size, buffer_size]
  | select acc chars name ch w' hcur hr hf hclash =>
    have hlen := (valid_of_find (hchars acc chars hcur) hf).2.1
    refine List.forall_mem_cons.2 ⟨by simp only [Packet.size, buffer_size]; omega, mails_sizes.2 ?_⟩
    intro n hn
    exact (greetings_sizes (w := w.in_chat _) hnames (hok.in_chat_same _) hlen _ n
      ((hclash.notices hq).subset hn)).trans (by decide)

end effects

/-! ## Runs whose handlers fit -/

structure SizesOk (s : Server) : Prop where
  rooms : s.world.RoomsFit buffer_size
  lists : ∀ k c acc chars, s.clients k = some c → c.current_state = .lobby_state acc chars →
    9 + characters_size chars ≤ buffer_size

/-- What a handler leaves. -/
structure SizesKept (g : Progress) : Prop where
  rooms : g.world.RoomsFit buffer_size
  list : ∀ acc chars, g.client.current_state = .lobby_state acc chars → 9 + characters_size chars ≤ buffer_size

section steps

variable {s s' : Server} {k : SessionId} {c : MmoClient} {g : Progress} {B : Nat} {hd : Handler}

theorem SizesOk.progress {s0 : Server} (h : SizesOk s) (hclients : s0.clients = s.clients) (hg : SizesKept g) :
    SizesOk (s0.progress k g) where
  rooms := hg.rooms
  lists j c acc chars hc hst := by
    by_cases hj : j = k
    · subst hj
      rw [progress_client] at hc
      cases hc
      exact hg.list acc chars hst
    · rw [progress_client_ne hj, hclients] at hc
      exact h.lists j c acc chars hc hst

theorem NamesOk.short_names (h : NamesOk s) : s.world.ShortNames := fun p hp => (h.players p hp).2.1

theorem sent_sizes (hs : s.sent = []) :
    (∀ m ∈ (s.progress k g).sent, m.packet.size ≤ B) ↔ ∀ m ∈ g.packets, m.2.size ≤ B := by
  simp only [Server.progress, hs, List.nil_append]
  constructor
  · exact fun h m hm => h _ (List.mem_map_of_mem hm)
  · intro h m hm
    obtain ⟨n, hn, rfl⟩ := List.mem_map.1 hm
    exact h n hn

theorem world_sizes (hs : s.sent = []) {w : World} :
    (∀ m ∈ (s.put_world w).sent, m.packet.size ≤ B) ↔ ∀ m ∈ w.mails, m.2.size ≤ B := by
  simp only [Server.put_world, Server.emit, hs, List.nil_append]
  constructor
  · exact fun h m hm => h _ (List.mem_map_of_mem hm)
  · intro h m hm
    obtain ⟨n, hn, rfl⟩ := List.mem_map.1 hm
    exact h n hn

theorem World.RoomsFit.mono {w : World} {A : Nat} (h : w.RoomsFit A) (hB : A ≤ B) : w.RoomsFit B :=
  fun R p hp => (h R p hp).trans hB

theorem PacketEffect.sizes_iff {w : World} {valid : Bytes → Bytes → Bool} {data : Buffer} {len : Nat}
    (he : PacketEffect k c w valid data len g) (hB : buffer_size ≤ B) (hok : WorldOk w) (hq : w.notices = [])
    (hp : ∀ p, c.current_state.holds p → w.online p) (hrooms : w.RoomsFit B) (hnames : w.ShortNames)
    (hchars : ∀ acc chars, c.current_state = .lobby_state acc chars →
      (∀ ch ∈ chars, valid_nickname ch.name) ∧ 9 + characters_size chars ≤ buffer_size) :
    (∀ m ∈ g.packets, m.2.size ≤ B) ↔ ∀ p acc request, c.current_state = .ingame_state p acc →
      ingame_state_recv_packet_factory.construct data len = .ok request → request.Fits B w p := by
  cases he with
  | preauth g hcur he =>
    refine iff_of_true (fun m hm => (he.sizes m hm).trans hB) fun p acc request h => ?_
    rw [hcur] at h
    cases h
  | lobby_malformed acc chars e hcur hr =>
    refine iff_of_true (by simp [Progress.closing, Progress.start]) fun p acc request h => ?_
    rw [hcur] at h
    cases h
  | lobby acc chars request g hcur hr he =>
    obtain ⟨h1, h2⟩ := hchars acc chars hcur
    refine iff_of_true (fun m hm => (he.sizes hok hq hnames h1 h2 m hm).trans hB) fun p acc request h => ?_
    rw [hcur] at h
    cases h
  | ingame_malformed p acc e hcur hr =>
    refine iff_of_true (by simp [Progress.closing, Progress.start]) fun p acc request _ h => ?_
    rw [hr] at h
    cases h
  | ingame p acc request g hcur hr he =>
    rw [he.sizes_iff hB hok hq (hp p (by rw [hcur]; rfl)) hrooms hnames (ingame_request_sized hr)]
    constructor
    · intro h p' acc' request' hcur' hr'
      cases hcur.symm.trans hcur'
      cases hr.symm.trans hr'
      exact h
    · exact fun h => h p acc request hcur hr

/-- The packets of a handler are as long as `Fits` says. -/
theorem HandlerEffect.sizes_iff (he : HandlerEffect s hd s') (hB : buffer_size ≤ B) (hok : ServerOk s)
    (hn : NamesOk s) (hz : SizesOk s) (hq : s.world.notices = []) (hs : s.sent = []) :
    (∀ m ∈ s'.sent, m.packet.size ≤ B) ↔ hd.Fits B s := by
  have hnames := hn.short_names
  cases he with
  | on_accept k hk =>
    rw [sent_sizes hs]
    exact iff_of_true (by simp [Progress.start]) trivial
  | on_recv k data size c g hc hr hsize he =>
    rw [sent_sizes hs, he.sizes_iff hB hok.world hq (fun p hp => hok.held_online hc (.inl hp)) (hz.rooms.mono hB) hnames
      fun acc chars h => ⟨hn.lists k c acc chars hc h, hz.lists k c acc chars hc h⟩]
    constructor
    · intro h c' p acc request hc' hcur hreq
      rw [hc] at hc'
      cases hc'
      exact h p acc request hcur hreq
    · exact fun h p acc request hcur hreq => h c p acc request hc hcur hreq
  | on_error k c hc hr =>
    rw [sent_sizes hs]
    exact iff_of_true (by simp [Progress.closing, Progress.start]) trivial
  | transition k rest c st w ps hs' hc hst hd =>
    have hsizes := (hd.sizes hok.world hq (fun p hp => hok.held_online hc (.inl hp)) hz.rooms hnames).1
    rw [sent_sizes (s := { s with sync_strand := rest }) hs, started_packets]
    refine iff_of_true (fun m hm => (hsizes m hm).trans hB) fun j chars rest' h => ?_
    rw [hs'] at h
    cases h
  | finalize k rest c w ps hs' hc hd =>
    have hsizes := (hd.sizes hok.world hq (fun p hp => hok.held_online hc (.inl hp)) hz.rooms hnames).1
    rw [sent_sizes (s := { s with sync_strand := rest }) hs]
    refine iff_of_true (fun m hm => (hsizes m hm).trans hB) fun j chars rest' h => ?_
    rw [hs'] at h
    cases h
  | lobby_chars_loaded k rest chars c acc old hs' hc hst =>
    rw [sent_sizes (s := { s with sync_strand := rest }) hs]
    simp only [Progress.waiting, List.forall_mem_singleton, Packet.size]
    constructor
    · intro h j chars' rest' h'
      rw [hs'] at h'
      cases h'
      exact h
    · exact fun h => h k chars rest hs'
  | load k id rest c hs' hc =>
    rw [sent_sizes (s := { s with database_strand := rest }) hs]
    exact iff_of_true (by simp) trivial
  | periodic_broadcast c ns he =>
    rw [world_sizes hs, mails_sizes, World.after_notices, hq, List.nil_append]
    exact he.sizes_iff hok.world.consistent (hz.rooms.mono hB)
  | periodic_cleanup w he =>
    rw [world_sizes hs, mails_sizes]
    cases he
    exact iff_of_true (by simp [hq]) trivial

/-- A handler that leaves the rooms and the list alone. -/
theorem SizesKept.of_same {w : World} (hrooms : w.RoomsFit buffer_size)
    (hlist : ∀ acc chars, c.current_state = .lobby_state acc chars → 9 + characters_size chars ≤ buffer_size)
    (hchat : g.world.chat = w.chat) (hst : g.client.current_state = c.current_state) : SizesKept g where
  rooms R p hp := hrooms R p (hchat ▸ hp)
  list acc chars h := hlist acc chars (hst ▸ h)

theorem PacketEffect.sizes_kept {w : World} {valid : Bytes → Bytes → Bool} {data : Buffer} {len : Nat}
    (he : PacketEffect k c w valid data len g) (hok : WorldOk w) (hrooms : w.RoomsFit buffer_size)
    (hchars : ∀ acc chars, c.current_state = .lobby_state acc chars → ∀ ch ∈ chars, valid_nickname ch.name)
    (hlist : ∀ acc chars, c.current_state = .lobby_state acc chars → 9 + characters_size chars ≤ buffer_size)
    (hf : ∀ p acc request, c.current_state = .ingame_state p acc →
      ingame_state_recv_packet_factory.construct data len = .ok request → request.Fits buffer_size w p) :
    SizesKept g := by
  cases he with
  | preauth g hcur he =>
    refine .of_same hrooms hlist ?_ ?_
    · generalize preauth_state.read data len = keys at he
      cases he with
      | unknown_opcode | malformed | bad_keys => rfl
      | lookup_fails key login w' hv hl | login key login acc w' hv hl =>
        have hchat : (w.account_lookup login).2.chat = w.chat := by
          rcases account_lookup_world w login with h | ⟨id, h⟩ <;> rw [h] <;> rfl
        rw [hl] at hchat
        exact hchat
    · generalize preauth_state.read data len = keys at he
      cases he <;> rfl
  | lobby_malformed | ingame_malformed => exact .of_same hrooms hlist rfl rfl
  | lobby acc chars request g hcur hr he =>
    cases he with
    | select name ch w' hfind hfree hef =>
      have hmembers : w'.chat.members = w.chat.members := by
        rw [hef.same_chat]
        rfl
      exact ⟨fun R q hq => hrooms R q (hmembers ▸ hq), hlist⟩
    | create name hfull hname =>
      refine ⟨hrooms, fun acc' chars' h => ?_⟩
      cases h
      have hle : characters_size (chars ++ [⟨w.db.next_character_id, name⟩]) ≤ 28 * (chars.length + 1) := by
        refine (characters_size_le fun ch hch => ?_).trans (by simp)
        rcases List.mem_append.1 hch with hch | hch
        · exact (hchars acc chars hcur ch hch).2.1
        · rw [List.mem_singleton.1 hch]
          exact hname.2.1
      unfold buffer_size
      omega
    | delete name ch hfind =>
      refine ⟨hrooms, fun acc' chars' h => ?_⟩
      cases h
      have := characters_size_eraseP (l := chars) (·.name = name)
      have := hlist acc chars hcur
      omega
    | _ => exact .of_same hrooms hlist rfl rfl
  | ingame p acc request g hcur hr he =>
    have hfit := hf p acc request hcur hr
    cases he with
    | ignored | log_off => exact .of_same hrooms hlist rfl rfl
    | chat request op c' ns hop hperm hef =>
      exact ⟨hef.rooms_fit hok.consistent hrooms (hfit.1 op hop), hlist⟩
    | friends request op w' hop hperm hef => exact .of_same hrooms hlist hef.same_chat rfl
    | friends_fail request op e w' hop hperm hef => exact .of_same hrooms hlist hef.same_chat rfl

theorem HandlerEffect.sizes_ok (he : HandlerEffect s hd s') (hok : ServerOk s) (hn : NamesOk s) (hz : SizesOk s)
    (hq : s.world.notices = []) (hf : hd.Fits buffer_size s) : SizesOk s' := by
  cases he with
  | on_accept k hk =>
    exact hz.progress rfl (.of_same (c := .accepted) hz.rooms (by simp [MmoClient.accepted]) rfl rfl)
  | on_recv k data size c g hc hr hsize he =>
    exact hz.progress rfl (he.sizes_kept hok.world hz.rooms (hn.lists k c · · hc) (hz.lists k c · · hc)
      fun p acc request hcur hreq => hf c p acc request hc hcur hreq)
  | on_error k c hc hr => exact hz.progress rfl (.of_same hz.rooms (hz.lists k c · · hc) rfl rfl)
  | transition k rest c st w ps hs hc hst hd =>
    have hrooms := (hd.sizes hok.world hq (fun p hp => hok.held_online hc (.inl hp)) hz.rooms hn.short_names).2
    obtain ⟨_, _, hfollows⟩ := hok.follows hs hc hst
    refine hz.progress rfl ⟨by rw [started_world]; exact hrooms, fun acc chars hcur => ?_⟩
    rw [started_state] at hcur
    change st = .lobby_state acc chars at hcur
    generalize c.current_state = cur at hfollows
    subst hcur
    cases hfollows <;> simp [characters_size, buffer_size]
  | finalize k rest c w ps hs hc hd =>
    have hrooms := (hd.sizes hok.world hq (fun p hp => hok.held_online hc (.inl hp)) hz.rooms hn.short_names).2
    exact hz.progress rfl ⟨hrooms, by simp⟩
  | lobby_chars_loaded k rest chars c acc old hs hc hst =>
    refine hz.progress rfl ⟨hz.rooms, fun acc' chars' h => ?_⟩
    cases h
    exact hf k chars rest hs
  | load k id rest c hs hc => exact hz.progress rfl (.of_same hz.rooms (hz.lists k c · · hc) rfl rfl)
  | periodic_broadcast c ns he => exact ⟨he.rooms_fit hok.world.consistent hz.rooms hf, hz.lists⟩
  | periodic_cleanup w he => exact ⟨fun R p hp => hz.rooms R p (he.same_chat ▸ hp), hz.lists⟩

/-- What a packet can hold is never near 2^32 bytes. -/
theorem HandlerEffect.short (he : HandlerEffect s hd s') (hok : ServerOk s) (hn : NamesOk s) (hz : SizesOk s)
    (hq : s.world.notices = []) (hs : s.sent = [])
    (hmany : hd = .periodic_broadcast → ∀ R, (s.world.chat.members R).card < 2 ^ 64) :
    ∀ m ∈ s'.sent, m.packet.Short := by
  have hlarge (hf : hd.Fits (4 * buffer_size) s) : ∀ m ∈ s'.sent, m.packet.Short := fun m hm =>
    Packet.short_of_size (((he.sizes_iff (by decide) hok hn hz hq hs).2 hf m hm).trans_lt (by decide))
  cases hd with
  | on_accept | on_error | next_load | periodic_cleanup => exact hlarge trivial
  | on_recv k data size =>
    refine hlarge fun c p acc request hc hcur hreq => ?_
    have hp : p.name.length ≤ 20 := hn.short_names p (hok.held_online hc (.inl (by rw [hcur]; rfl)))
    have hsized := ingame_request_sized hreq
    unfold buffer_size
    constructor
    · intro op hop
      cases request <;> cases hop <;> simp only [IngameRequest.Sized, buffer_size] at hsized <;>
        simp only [ChatOp.Fits] <;> intros <;> omega
    · intro op hop
      cases request with
      | friend_add name =>
        cases hop
        simp only [IngameRequest.Sized, buffer_size] at hsized
        intro _
        omega
      | friend_remove name =>
        cases hop
        trivial
      | _ => cases hop
  | periodic_broadcast =>
    refine hlarge fun R ⟨p, hp⟩ => ?_
    have hR := hz.rooms R p hp
    have hdigits : (Nat.toDigits 10 (s.world.chat.members R).card).length ≤ 20 :=
      (Nat.length_toDigits_le_iff (by decide) (by decide)).2 ((hmany rfl R).trans (by decide))
    unfold buffer_size at *
    omega
  | next_task =>
    generalize hnext : Handler.next_task = hd at he hlarge
    cases he with
    | transition k rest c st w ps hs' => exact hlarge fun j chars rest' h => by rw [hs'] at h; cases h
    | finalize k rest c w ps hs' => exact hlarge fun j chars rest' h => by rw [hs'] at h; cases h
    | lobby_chars_loaded k rest chars c acc old hs' =>
      intro m hm
      have hm' : m ∈ s.sent ++ [⟨k, .character_list chars, _⟩] := hm
      rw [hs, List.nil_append, List.mem_singleton] at hm'
      rw [hm']
      intro text ht
      obtain ⟨ch, hch, rfl⟩ := List.mem_map.1 ht
      have := (hn.loaded k chars (by rw [hs']; exact List.mem_cons_self) ch hch).2.1
      omega
    | _ => cases hnext

/-- The server, as long as its packets fit. -/
def fittingMachine : Machine Server ServerEvent where
  init := serverMachine.init
  step s ev s' := serverMachine.step s ev s' ∧ ∀ hd, ev = .handler hd → hd.Fits buffer_size s

/-- The event brings no quote into a statement, and what it sends fits its buffers. -/
def Server.Tame (s : Server) (ev : ServerEvent) : Prop :=
  s.Plain ev ∧ ∀ hd, ev = .handler hd → hd.Fits buffer_size s

theorem fitting_of_tame (h : (serverMachine.only Server.Tame).Reachable s) : fittingMachine.Reachable s :=
  h.of_steps (fun _ h0 => h0) fun _ _ _ hs => ⟨hs.2, hs.1.2⟩

theorem fitting_is_server (h : fittingMachine.Reachable s) : serverMachine.Reachable s :=
  h.of_steps (fun _ h0 => h0) fun _ _ _ hs => hs.1

theorem sizes_ok_init (h : fittingMachine.init s) : SizesOk s := by
  obtain ⟨db, rfl, _⟩ := h
  exact ⟨by simp [World.RoomsFit, Server.fresh, World.fresh, ChatSystem.members, ChatSystem.chatroom],
    by simp [Server.fresh]⟩

theorem sizes_ok_step {ev : ServerEvent} (hr : serverMachine.Reachable s) (hz : SizesOk s)
    (hs : fittingMachine.step s ev s') : SizesOk s' := by
  obtain ⟨hs, hf⟩ := hs
  cases ev with
  | handler hd =>
    obtain ⟨o, ha, hrun⟩ := hs
    obtain ⟨hb, he⟩ := handler_effect (reachable_server_ok hr) ha hrun
    exact he.sizes_ok hb ((reachable_names_ok hr).begin o) ⟨hz.rooms, hz.lists⟩ rfl (hf hd rfl)
  | reorder =>
    obtain ⟨w, hre, _, rfl⟩ := hs
    exact ⟨fun R p hp => hz.rooms R p (hre.members ▸ hp), hz.lists⟩

theorem reachable_sizes_ok (h : fittingMachine.Reachable s) : SizesOk s :=
  h.keeps_over (fun _ => fitting_is_server) (fun _ => sizes_ok_init) fun _ _ _ => sizes_ok_step

theorem HandlerDeath.sizes (he : HandlerDeath s hd s') (hok : ServerOk s) (hn : NamesOk s)
    (hq : s.world.notices = []) (hs : s.sent = []) :
    (∀ m ∈ s'.sent, m.packet.size ≤ buffer_size) ∧ hd.Fits buffer_size s := by
  cases he with
  | on_recv k data size c f g hc hr hsize hdies he =>
    refine ⟨(sent_sizes hs).2 (he.sizes hok.world hq hn.short_names (hn.lists k c · · hc)),
      fun c' p acc request hc' hcur => ?_⟩
    rw [hc] at hc'
    cases hc'
    unfold PacketDies at hdies
    rw [show ({ c with receiving := false } : MmoClient).current_state = _ from hcur] at hdies
    exact hdies.elim
  | load k id rest c => exact ⟨(sent_sizes (s := { s with database_strand := rest }) hs).2 (by simp), trivial⟩

end steps

section fitting

variable {s s' : Server} {hd : Handler} {o : Outside}

/-- A handler that returns sends packets within the buffer just when it fits. -/
theorem sizes_of_fitting (h : fittingMachine.Reachable s) (he : HandlerEffect (s.begin o) hd s') :
    (∀ m ∈ s'.sent, m.packet.size ≤ buffer_size) ↔ hd.Fits buffer_size s := by
  have hz := reachable_sizes_ok h
  exact he.sizes_iff le_rfl ((reachable_server_ok (fitting_is_server h)).begin o)
    ((reachable_names_ok (fitting_is_server h)).begin o) ⟨hz.rooms, hz.lists⟩ rfl rfl

theorem in_buffer_of_fitting (h : fittingMachine.Reachable s) (he : HandlerEffect (s.begin o) hd s')
    (hf : hd.Fits buffer_size s) : ∀ m ∈ s'.sent, m.packet.serialize.InBuffer :=
  fun m hm => Packet.inBuffer_of_size ((sizes_of_fitting h he).2 hf m hm)

theorem fitting_of_in_buffer (h : fittingMachine.Reachable s) (he : HandlerEffect (s.begin o) hd s')
    (hmany : hd = .periodic_broadcast → ∀ R, (s.world.chat.members R).card < 2 ^ 64)
    (hall : ∀ m ∈ s'.sent, m.packet.serialize.InBuffer) : hd.Fits buffer_size s := by
  have hz := reachable_sizes_ok h
  have hshort := he.short ((reachable_server_ok (fitting_is_server h)).begin o)
    ((reachable_names_ok (fitting_is_server h)).begin o) ⟨hz.rooms, hz.lists⟩ rfl rfl hmany
  exact (sizes_of_fitting h he).1 fun m hm => (Packet.inBuffer_iff (hshort m hm)).1 (hall m hm)

end fitting

/-- In every state that a run reaches whose handlers fit, and for every handler
there: if it fits, then whatever it sends, and whether or not it returns, every
packet is written within its buffer. As long as no room has 2^64 members, only
handlers that fit do so. -/
theorem packets_in_buffer {s : Server} {hd : Handler} {o : Outside} (h : fittingMachine.Reachable s)
    (ha : hd.Admitted s o) :
    (hd.Fits buffer_size s → ∀ m ∈ (endState hd.run (s.begin o)).sent, m.packet.serialize.InBuffer) ∧
    ((∀ R, (s.world.chat.members R).card < 2 ^ 64) →
      (∀ m ∈ (endState hd.run (s.begin o)).sent, m.packet.serialize.InBuffer) → hd.Fits buffer_size s) := by
  have hok := reachable_server_ok (fitting_is_server h)
  have hn := reachable_names_ok (fitting_is_server h)
  rcases handler_ends hok ha with ⟨s', he, hrun⟩ | ⟨f, t, he, hrun⟩
  · rw [endState_ok hrun]
    exact ⟨in_buffer_of_fitting h he, fun hmany => fitting_of_in_buffer h he fun _ => hmany⟩
  · obtain ⟨hsizes, hf⟩ := he.sizes (hok.begin o) (hn.begin o) rfl rfl
    rw [endState_error hrun]
    exact ⟨fun _ m hm => Packet.inBuffer_of_size (hsizes m hm), fun _ _ => hf⟩

/-! Dora joins a room. -/

def join_packet (chatroom_name : Bytes) : Bytes := ingame_state_protocol.join_chat :: packed chatroom_name

theorem fits_outside_game {B : Nat} {s : Server} {k : SessionId} {c : MmoClient} {data : Buffer} {size : Nat}
    (hc : s.clients k = some c) (hst : ∀ p acc, c.current_state ≠ .ingame_state p acc) :
    (Handler.on_recv k data size).Fits B s := by
  intro c' p acc request hc' hcur
  rw [hc] at hc'
  cases hc'
  exact absurd hcur (hst p acc)

theorem fits_transition {B : Nat} {s : Server} {k : SessionId} {rest : List Task}
    (h : s.sync_strand = .transition k :: rest) : Handler.next_task.Fits B s := by
  intro j chars rest' h'
  rw [h] at h'
  cases h'

theorem fits_loaded {B : Nat} {s : Server} {k : SessionId} {chars : List LobbyCharacter} {rest : List Task}
    (h : s.sync_strand = .lobby_chars_loaded k chars :: rest) (hl : 9 + characters_size chars ≤ B) :
    Handler.next_task.Fits B s := by
  intro j chars' rest' h'
  rw [h] at h'
  cases h'
  exact hl

theorem play_fitting {s : Server} (address : Nat) (hd : Handler) (h : fittingMachine.Reachable s)
    (ha : hd.Admitted s (outside_at address))
    (hr : hd.run (s.begin (outside_at address)) = .ok () (s.played address hd)) (hf : hd.Fits buffer_size s) :
    fittingMachine.Reachable (s.played address hd) := by
  refine h.step (e := .handler hd) ⟨⟨_, ha, hr⟩, ?_⟩
  rintro _ ⟨⟩
  exact hf

theorem dora_in_game_fitting : fittingMachine.Reachable dora_in_game := by
  have hnobody {o : Outside} (p : EntityPtr) (h : ((fun _ => none : EntityPtr → Option EntityData) p).isSome) :
      p.address ≠ o.env.new_entity := by cases h
  have h1 := play_fitting 0 (.on_accept 0) (.init doras_tables_init) ⟨rfl, hnobody, rfl⟩ rfl trivial
  have h2 := play_fitting 0 (receive login_packet) h1 ⟨⟨⟨_, rfl, rfl⟩, by decide⟩, hnobody, rfl⟩ rfl
    (fits_outside_game rfl (c := .accepted) (by simp [MmoClient.accepted]))
  have h3 := play_fitting 0 .next_task h2 ⟨List.cons_ne_nil _ _, hnobody, rfl⟩ rfl (fits_transition rfl)
  have h4 := play_fitting 0 .next_load h3 ⟨List.cons_ne_nil _ _, hnobody, rfl⟩ rfl trivial
  have h5 := play_fitting 0 .next_task h4 ⟨List.cons_ne_nil _ _, hnobody, rfl⟩ rfl (fits_loaded rfl (by decide))
  have h6 := play_fitting 0 (receive select_packet) h5 ⟨⟨⟨_, rfl, rfl⟩, by decide⟩, hnobody, rfl⟩ rfl
    (fits_outside_game rfl fun p acc h => by cases h)
  exact play_fitting 1 .next_task h6 ⟨List.cons_ne_nil _ _, other_address rfl, rfl⟩ rfl (fits_transition rfl)

theorem short_room_fits : (receive (join_packet (ascii "hall"))).Fits buffer_size dora_in_game := by
  intro c p acc request hc hcur hr
  have hjoin : ingame_state_recv_packet_factory.construct (.of (join_packet (ascii "hall")))
      (join_packet (ascii "hall")).length = .ok (.join_chat (ascii "hall")) := by rfl
  cases hjoin.symm.trans hr
  obtain rfl : doras_session = c := Option.some.inj hc
  obtain rfl : dora = p := (ClientState.ingame_state.inj hcur).1
  refine ⟨fun op hop => ?_, fun op hop => by cases hop⟩
  cases hop
  intro _
  decide

/-- Joining a room with a short name fits. -/
theorem short_room_in_buffer :
    let sent := (endState (receive (join_packet (ascii "hall"))).run (dora_in_game.begin (outside_at 1))).sent
    sent = [⟨0, .user_joined_chat (ascii "hall") (ascii "Dora"), true⟩] ∧
      ∀ m ∈ sent, m.packet.serialize.InBuffer :=
  ⟨by decide +kernel,
    (packets_in_buffer dora_in_game_fitting (dora_in_game_receives _ (by decide))).1 short_room_fits⟩

/-- The longest name a packet can carry. -/
def longest_name : Bytes := List.replicate 2043 97

set_option maxRecDepth 4000 in
/-- Joining a room of that name sends a packet of 2056 bytes. -/
theorem long_room_overflows : serverMachine.Reachable dora_in_game ∧
    (receive (join_packet longest_name)).Admitted dora_in_game (outside_at 1) ∧
    ∃ m ∈ (endState (receive (join_packet longest_name)).run (dora_in_game.begin (outside_at 1))).sent,
      ¬ m.packet.serialize.InBuffer := by
  have hsent : (endState (receive (join_packet longest_name)).run (dora_in_game.begin (outside_at 1))).sent =
      [⟨0, .user_joined_chat longest_name (ascii "Dora"), true⟩] := by decide +kernel
  refine ⟨dora_in_game_reachable, dora_in_game_receives _ (by decide +kernel), ?_⟩
  rw [hsent]
  exact ⟨_, List.mem_singleton.2 rfl, by decide +kernel⟩

end tejk_it_izi
