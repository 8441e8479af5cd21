import TejkItIzi.Client
import TejkItIzi.FriendPresence
import TejkItIzi.Playing
/-!
# The client reads every packet with the right opcodes

A packet is written with the opcodes of one phase, and the client reads it with
those of the phase it is in. Other players' packets reach a session only while
it is in the game; its own packets take the client there and back.
-/

namespace tejk_it_izi

open ProgLib Handshake

/-- What the session has told its client of its phase, by its last packet. -/
def told_phase : Stage Phase → Option Phase
  | .closed => none
  | .serving ph => some ph
  | .switching => some .ingame

/-- A client in the first phase reads the packets, each with the opcodes it was
written with. -/
abbrev Decodes : Phase → List Packet → Phase → Prop := Reads Packet.phase fun cs p => cs_after cs p.opcode

theorem decodes_one (p : Packet) : Decodes p.phase [p] (p.changes.getD p.phase) := by
  rw [← cs_after_packet]
  exact .one p

theorem decodes_news {ps : List Packet} (h : ∀ p ∈ ps, p.News) : Decodes .ingame ps .ingame := by
  refine Reads.steady fun p hp => ?_
  obtain ⟨hphase, hchanges⟩ := h p hp
  have hafter := cs_after_packet p
  rw [hphase, hchanges] at hafter
  exact ⟨hphase, hafter⟩

theorem addressed_news {k : SessionId} {ps : List (SessionId × Packet)} (h : ∀ m ∈ ps, m.2.News) :
    ∀ p ∈ addressed k ps, p.News :=
  fun _ hp => h _ (mem_addressed.1 hp)

/-! ## News goes to players in the game -/

/-- News for a session that is in the game. -/
def NewsFor (w : World) (m : SessionId × Packet) : Prop := m.2.News ∧ ∃ p, p.my_session = m.1 ∧ w.online p

def OnlyNews (w : World) (j : SessionId) (ps : List (SessionId × Packet)) : Prop := ∀ m ∈ ps, m.1 ≠ j → NewsFor w m

section recipients

variable {w w' : World} {j : SessionId} {p : EntityPtr}

theorem ChatEffect.recipients {op : ChatOp} {c : ChatSystem} {ns : List (EntityPtr × Packet)}
    (h : ChatEffect w op c ns) (hw : w.chat.Consistent) :
    ∀ n ∈ ns, (w.chat.entities n.1).isSome ∨ ∃ name, w.registry.name_to_character name = some n.1 := by
  have hall {ps : USet EntityPtr} {pk : Packet} (hps : ∀ q ∈ ps, (w.chat.entities q).isSome) :
      ∀ n ∈ to_all ps pk, (w.chat.entities n.1).isSome := by
    intro n hn
    obtain ⟨q, hq, rfl⟩ := List.mem_map.1 hn
    exact hps q hq
  have hin {room : RoomPtr} {r : Chatroom} (hr : w.chat.rooms room = some r) :
      ∀ q ∈ r.participants, (w.chat.entities q).isSome := fun q hq => hw.registered room r q hr hq
  have hfarewell {room : RoomPtr} {p : EntityPtr} : ∀ n ∈ w.chat.farewell p room, (w.chat.entities n.1).isSome := by
    unfold ChatSystem.farewell
    split
    · simp
    · rename_i r hr
      exact hall fun q hq => hin hr q (USet.mem_erase.1 hq).2
  cases h with
  | unregister_me p e =>
    intro n hn
    obtain ⟨room, _, hn⟩ := List.mem_flatMap.1 hn
    exact .inl (hfarewell n hn)
  | join p e R room r he hl hr =>
    refine fun n hn => .inl (hall (fun q hq => ?_) n hn)
    rcases USet.mem_insert.1 hq with rfl | hq
    · exact Option.isSome_iff_exists.2 ⟨e, he⟩
    · exact hin hr q hq
  | join_new p e R room he =>
    refine fun n hn => .inl (hall (fun q hq => ?_) n hn)
    rcases USet.mem_insert.1 hq with rfl | hq
    · exact Option.isSome_iff_exists.2 ⟨e, he⟩
    · exact absurd hq (USet.not_mem_empty q)
  | leave => exact fun n hn => .inl (hfarewell n hn)
  | broadcast p R msg room r hl hr => exact fun n hn => .inl (hall (hin hr) n hn)
  | whisper p recipient msg q hq =>
    intro n hn
    rw [List.mem_singleton.1 hn]
    exact .inr ⟨recipient, hq⟩
  | periodic_broadcast =>
    intro n hn
    obtain ⟨x, _, hn⟩ := List.mem_flatMap.1 hn
    unfold ChatSystem.announcement at hn
    split at hn
    · cases hn
    · rename_i r hr
      exact .inl (hall (hin hr) n hn)
  | register_me | join_again | leave_absent | broadcast_absent | whisper_lost => simp

theorem chat_news {op : ChatOp} {c : ChatSystem} {ns : List (EntityPtr × Packet)} (hok : WorldOk w)
    (hq : w.notices = []) (h : ChatEffect w op c ns) : ∀ m ∈ (w.after c ns).mails, NewsFor w m := by
  intro m hm
  obtain ⟨n, hn, rfl⟩ := List.mem_map.1 hm
  have hn' : n ∈ ns := by simpa [hq] using hn
  refine ⟨h.news n hn', n.1, rfl, ?_⟩
  rcases h.recipients hok.consistent n hn' with hn | ⟨name, hn⟩
  · exact (hok.players n.1).1 hn
  · exact (hok.players n.1).1 (hok.registry_known name n.1 hn)

theorem friend_only_news {op : FriendOp} {res : Option StdException} (hok : FriendsOk w) (hq : w.notices = [])
    (hop : op.Permitted w) (hj : ∀ p, op = .register_me p → p.my_session = j) (h : FriendEffect w op res w') :
    OnlyNews w j w'.mails := by
  intro m hm hne
  obtain ⟨n, hn, rfl⟩ := List.mem_map.1 hm
  refine ⟨h.news hq n hn, n.1, rfl, ?_⟩
  exact (h.recipients hok.same_players hop hq n hn).resolve_right fun hr => hne (hj n.1 hr)

theorem IngameEffect.only_news {c : MmoClient} {acc : AccountData} {request : IngameRequest} {g : Progress}
    (h : IngameEffect j c w p acc request g) (hok : WorldOk w) (hq : w.notices = []) : OnlyNews w j g.packets := by
  cases h with
  | ignored | log_off => exact fun m hm => by cases hm
  | chat request op c' ns hop hperm he => exact fun m hm _ => chat_news hok hq he m hm
  | friends request op w' hop hperm he =>
    refine friend_only_news hok.friends_ok hq hperm ?_ he
    rintro q rfl
    cases request <;> cases hop
  | friends_fail request op e w' hop hperm he =>
    refine friend_only_news hok.friends_ok hq hperm ?_ he
    rintro q rfl
    cases request <;> cases hop

theorem PacketEffect.only_news {c : MmoClient} {valid : Bytes → Bytes → Bool} {data : Buffer} {len : Nat} {g : Progress}
    (h : PacketEffect j c w valid data len g) (hok : WorldOk w) (hq : w.notices = []) : OnlyNews w j g.packets := by
  have hown {ps : List (SessionId × Packet)} (hps : ∀ m ∈ ps, m.1 = j) : OnlyNews w j ps :=
    fun m hm hne => absurd (hps m hm) hne
  cases h with
  | preauth g hcur he =>
    generalize preauth_state.read data len = keys at he
    refine hown ?_
    cases he <;> simp [Progress.closing, Progress.changing, Progress.start]
  | lobby_malformed | ingame_malformed => exact fun m hm => by cases hm
  | lobby acc chars request g hcur hr he =>
    cases he with
    | select name ch w' hf hfree hef =>
      intro m hm hne
      rcases List.mem_cons.1 hm with rfl | hm
      · exact absurd rfl hne
      have hin : FriendsOk (w.in_chat (w.newcomer j ch)) := hok.friends_ok.same rfl rfl
      have hperm : (FriendOp.register_me (w.newcomer j ch)).Permitted (w.in_chat (w.newcomer j ch)) := hfree
      exact friend_only_news hin (by simp [World.in_chat, hq]) hperm (by rintro p ⟨⟩; rfl) hef m hm hne
    | ignored | log_off | select_absent | create_lookup_fails | create_fails | delete_absent | delete_fails =>
      exact fun m hm => by cases hm
    | select_fails | create_refused | create_taken | create | delete =>
      exact hown (by simp [Progress.closing, Progress.waiting])
  | ingame p acc request g hcur hr he => exact he.only_news hok hq

theorem Destroyed.only_news {st : ClientState} {ps : List (SessionId × Packet)} (h : Destroyed j w st w' ps)
    (hok : WorldOk w) (hq : w.notices = []) (hon : ∀ p, st.holds p → w.online p) : OnlyNews w j ps := by
  cases h with
  | ingame_state p acc w1 c ns hf hc =>
    have hchat : w1.quiet.chat = w.chat := hf.same_chat
    have hperm : (FriendOp.unregister_me p).Permitted w := hon p rfl
    obtain ⟨hleft, hstay⟩ := hok.left hperm hf hc
    intro m hm hne
    rcases List.mem_append.1 hm with hm | hm
    · rcases List.mem_append.1 hm with hm | hm
      · exact friend_only_news hok.friends_ok hq hperm (fun q h => by cases h) hf m hm hne
      · obtain ⟨n, hn, rfl⟩ := List.mem_map.1 hm
        have hn' : n ∈ ns := by simpa [World.quiet] using hn
        refine ⟨hc.news n hn', n.1, rfl, ?_⟩
        rcases hc.recipients (hchat ▸ hok.consistent) n hn' with h | ⟨name, h⟩
        · rw [hchat] at h
          exact (hok.players n.1).1 h
        · have hknown := hleft.registry_known name n.1 h
          exact ((hstay n.1).1 ((hleft.players n.1).1 hknown)).1
    · rw [List.mem_singleton.1 hm] at hne
      exact absurd rfl hne
  | other => exact fun m hm => by cases hm

end recipients

/-! ## A session's own packets -/

/-- A client in this phase reads what the handler of its session sends, and is in
the phase then that the session has come to. -/
def Progress.Tells (g : Progress) (k : SessionId) (ph : Phase) : Prop :=
  ∃ ph', Decodes ph (addressed k g.packets) ph' ∧ ∀ ph'' ∈ told_phase g.client.stage, ph'' = ph'

section own

variable {k : SessionId} {c : MmoClient} {w : World} {g : Progress} {ph ph' : Phase} {data : Buffer} {len : Nat}

theorem tells_closed (h : Decodes ph (addressed k g.packets) ph') (hclosed : g.client.is_open = false) : g.Tells k ph := by
  refine ⟨ph', h, fun ph'' hph => ?_⟩
  rw [stage_closed hclosed] at hph
  cases hph

theorem tells_serving (h : Decodes ph (addressed k g.packets) ph') (hst : g.client.stage = .serving ph') : g.Tells k ph := by
  refine ⟨ph', h, fun ph'' hph => ?_⟩
  rw [hst] at hph
  cases hph
  rfl

theorem decodes_own (p : Packet) : Decodes p.phase (addressed k [(k, p)]) (p.changes.getD p.phase) := by
  rw [addressed_own, addressed_nil]
  exact decodes_one p

theorem PreauthEffect.tells {valid : Bytes → Bytes → Bool} {keys : Keys} (h : PreauthEffect k c w valid keys g)
    (hopen : c.is_open = true) (hcur : c.current_state = .preauth_state) : g.Tells k .preauth := by
  cases h with
  | unknown_opcode | bad_keys => exact tells_closed (decodes_own .fuck_you_bad_keys) rfl
  | malformed => exact tells_closed (.nil _) rfl
  | lookup_fails => exact tells_closed (decodes_own .good_boy_good_keys) rfl
  | login key login acc w' =>
    exact tells_serving (decodes_own .good_boy_good_keys) (stage_logged_in hopen hcur)

/-- First the character, then what is new to him. -/
theorem decodes_select (ch : LobbyCharacter) {ps : List (SessionId × Packet)} (h : ∀ m ∈ ps, m.2.News) :
    Decodes .lobby (addressed k ((k, .character_selected ch) :: ps)) .ingame := by
  rw [addressed_own]
  exact .cons (Packet.character_selected ch) _ _ (decodes_news (addressed_news h))

theorem LobbyEffect.tells {acc : AccountData} {chars : List LobbyCharacter} {request : LobbyRequest}
    (h : LobbyEffect k c w acc chars request g) (hq : w.notices = []) (hready : c.Ready)
    (hcur : c.current_state = .lobby_state acc chars) : g.Tells k .lobby := by
  have hstage {st : ClientState} {acc' : AccountData} {chars' : List LobbyCharacter} (h : st = .lobby_state acc' chars') :
      ({ c with current_state := st, receiving := true } : MmoClient).stage = .serving .lobby :=
    stage_steady hready.is_open hready.no_transition (by rw [h]; rfl)
  cases h with
  | ignored => exact tells_serving (.nil _) (hstage hcur)
  | log_off | select_absent | create_lookup_fails | create_fails | delete_absent | delete_fails =>
    exact tells_closed (.nil _) rfl
  | select_fails name ch e =>
    have hback : Decodes .lobby (addressed k [(k, .character_selected ch), (k, .moved_to_lobby)]) .lobby := by
      rw [addressed_own, addressed_own, addressed_nil]
      exact .cons (Packet.character_selected ch) _ _ (decodes_one .moved_to_lobby)
    exact tells_closed hback rfl
  | select name ch w' hf hfree hef =>
    exact tells_serving (decodes_select ch (register_news hq hef)) (stage_selected hready.is_open hcur)
  | create_refused name reason => exact tells_serving (decodes_own (.character_creation_fail reason)) (hstage hcur)
  | create_taken name => exact tells_serving (decodes_own (.character_creation_fail .name_already_used)) (hstage hcur)
  | create name => exact tells_serving (decodes_own (.character_created _)) (hstage rfl)
  | delete name => exact tells_serving (decodes_own (.character_list _)) (hstage rfl)

theorem IngameEffect.tells {p : EntityPtr} {acc : AccountData} {request : IngameRequest}
    (h : IngameEffect k c w p acc request g) (hq : w.notices = []) (hready : c.Ready)
    (hcur : c.current_state = .ingame_state p acc) : g.Tells k .ingame := by
  have hnews := decodes_news (addressed_news (k := k) (h.news hq))
  have hstage : ({ c with receiving := true } : MmoClient).stage = .serving .ingame :=
    stage_steady hready.is_open hready.no_transition (by rw [hcur]; rfl)
  cases h with
  | ignored | chat | friends => exact tells_serving hnews hstage
  | friends_fail => exact tells_closed hnews rfl
  | log_off =>
    refine ⟨.ingame, hnews, fun ph'' hph => ?_⟩
    rw [Progress.start, stage_logged_off hready.is_open hcur] at hph
    cases hph
    rfl

theorem PacketEffect.tells {valid : Bytes → Bytes → Bool} (h : PacketEffect k c w valid data len g)
    (hq : w.notices = []) (hready : c.Ready) (hph : c.current_state.phase = some ph) : g.Tells k ph := by
  cases h with
  | preauth g hcur he =>
    rw [hcur] at hph
    cases hph
    exact he.tells hready.is_open hcur
  | lobby_malformed | ingame_malformed => exact tells_closed (.nil _) rfl
  | lobby acc chars request g hcur hr he =>
    rw [hcur] at hph
    cases hph
    exact he.tells hq hready hcur
  | ingame p acc request g hcur hr he =>
    rw [hcur] at hph
    cases hph
    exact he.tells hq hready hcur

end own

/-! ## What a handler sends to one client -/

/-- The handler that leads from `s` to `s'` sends session `k` nothing that its
client would misread. -/
structure Server.Tells (s s' : Server) (k : SessionId) : Prop where
  closed : told_phase (s.stage k) = none → s'.wire k = [] ∧ told_phase (s'.stage k) = none
  decodes : ∀ ph ∈ told_phase (s.stage k), ∃ ph', Decodes ph (s'.wire k) ph' ∧ ∀ ph'' ∈ told_phase (s'.stage k), ph'' = ph'

section handlers

variable {s s' s0 : Server} {k j : SessionId} {c : MmoClient} {g : Progress} {w : World} {ph : Phase} {st : ClientState}
  {ps : List (SessionId × Packet)}

/-- Who is in the game knows it. -/
theorem Outstanding.told_holds {ts : List Task} {ls : List (SessionId × Nat)} (h : Outstanding k c ts ls)
    {p : EntityPtr} (hp : c.Holds p) : told_phase c.stage = none ∨ told_phase c.stage = some .ingame := by
  cases h with
  | receive st =>
    rcases hp with hp | ⟨_, hp, _⟩
    · cases st <;> first | exact .inr rfl | cases hp
    · cases hp
  | transition st new_state hf =>
    cases hf with
    | login acc =>
      rcases hp with hp | ⟨_, h1, hp⟩
      · cases hp
      · cases h1
        cases hp
    | enter | leave => exact .inr rfl
  | load | loaded => rcases hp with hp | ⟨_, hp, _⟩ <;> cases hp
  | closing | closed => exact .inl rfl

theorem Outstanding.told_none {ts : List Task} {ls : List (SessionId × Nat)} (h : Outstanding k c ts ls)
    (hn : told_phase c.stage = none) : c.is_open = false := by
  cases h with
  | closing | closed => rfl
  | receive st _ hst => cases st <;> first | exact absurd rfl hst | cases hn
  | transition st st' hf => cases hf <;> cases hn
  | load | loaded => cases hn

theorem ServerOk.online_told (hok : ServerOk s) {p : EntityPtr} (hp : s.world.online p) :
    told_phase (s.stage p.my_session) = none ∨ told_phase (s.stage p.my_session) = some .ingame := by
  obtain ⟨c, hc, hholds⟩ := (hok.players p).1 hp
  rw [stage_of hc]
  exact (hok.outstanding _ c hc).told_holds hholds

theorem ServerOk.told_none (hok : ServerOk s) (h : told_phase (s.stage k) = none) : s.is_open k = false := by
  unfold Server.stage at h
  cases hc : s.clients k with
  | none =>
    rw [hc] at h
    cases h
  | some c =>
    rw [hc] at h
    rw [← is_open_of hc]
    exact (hok.outstanding k c hc).told_none h

/-- Who is waited for knows its phase. -/
theorem ServerOk.told_ready (hok : ServerOk s) (hc : s.clients k = some c) (hrecv : c.receiving = true) :
    MmoClient.Ready { c with receiving := false } ∧ s.is_open k = true ∧
      ∃ ph, c.current_state.phase = some ph ∧ told_phase (s.stage k) = some ph := by
  obtain ⟨_, _, hnull, hready⟩ := (hok.outstanding k c hc).of_receiving hrecv
  obtain ⟨ph, hphase, hstage⟩ := hready.stage hnull
  refine ⟨hready, (is_open_of hc).symm.trans hready.is_open, ph, hphase, ?_⟩
  rw [stage_of hc]
  exact congrArg told_phase hstage

/-- Another session's handler: news, or nothing. -/
theorem tells_news (hok : ServerOk s) (hnews : ∀ m ∈ ps, m.1 = k → NewsFor s.world m) (hst : s'.stage k = s.stage k)
    (hwire : s'.wire k = if s.is_open k = true then addressed k ps else []) : s.Tells s' k := by
  refine ⟨fun hnone => ?_, fun ph hph => ⟨ph, ?_, fun ph'' h => ?_⟩⟩
  · rw [hwire, hok.told_none hnone, hst]
    exact ⟨if_neg Bool.false_ne_true, hnone⟩
  · have hfor : ∀ p ∈ addressed k ps, p.News ∧ told_phase (s.stage k) = some .ingame := by
      intro p hp
      obtain ⟨hn, q, hq, hon⟩ := hnews _ (mem_addressed.1 hp) rfl
      have hq' : q.my_session = k := hq
      subst hq'
      refine ⟨hn, (hok.online_told hon).resolve_left fun hnone => ?_⟩
      rw [hnone] at hph
      cases hph
    rw [hwire]
    split
    · cases hps : addressed k ps with
      | nil => exact .nil ph
      | cons p rest =>
        rw [hps] at hfor
        have hingame := (hfor p List.mem_cons_self).2
        rw [hingame] at hph
        cases hph
        exact decodes_news fun p hp => (hfor p hp).1
    · exact .nil ph
  · rw [hst] at h
    rw [Option.mem_def.1 hph] at h
    exact (Option.some.inj h).symm

theorem tells_other (hok : ServerOk s) (hclients : s0.clients = s.clients) (hs : s0.sent = []) (hne : k ≠ j)
    (hnews : OnlyNews s.world j g.packets) : s.Tells (s0.progress j g) k := by
  refine tells_news hok (fun m hm hk => hnews m hm (hk ▸ hne)) ?_ ?_
  · rw [stage_progress_ne hne]
    unfold Server.stage
    rw [hclients]
  · rw [wire_progress hs]
    unfold Server.is_open
    rw [hclients]

theorem tells_own (hs : s0.sent = []) (hopen : s0.is_open k = true) (hph : told_phase (s.stage k) = some ph)
    (h : g.Tells k ph) : s.Tells (s0.progress k g) k := by
  obtain ⟨ph', hd, hafter⟩ := h
  refine ⟨fun hnone => ?_, fun ph0 hph0 => ⟨ph', ?_, ?_⟩⟩
  · rw [hph] at hnone
    cases hnone
  · rw [hph] at hph0
    cases hph0
    rwa [wire_progress hs, if_pos hopen]
  · rwa [stage_progress]

/-- The session says nothing and stays where it is. -/
theorem tells_nothing (hs : s0.sent = []) (hg : g.packets = []) (hst : g.client.stage = s.stage k) :
    s.Tells (s0.progress k g) k := by
  have hwire : (s0.progress k g).wire k = [] := by
    rw [wire_progress hs, hg, addressed_nil, ite_self]
  refine ⟨fun hnone => ⟨hwire, ?_⟩, fun ph hph => ⟨ph, ?_, fun ph'' h => ?_⟩⟩
  · rw [stage_progress, hst]
    exact hnone
  · rw [hwire]
    exact .nil ph
  · rw [stage_progress, hst, Option.mem_def.1 hph] at h
    exact (Option.some.inj h).symm

theorem tells_gone (hs : s0.sent = []) (hopen : s0.is_open k = false) (hst : s.stage k = .closed)
    (hclosed : g.client.is_open = false) : s.Tells (s0.progress k g) k := by
  refine ⟨fun _ => ⟨?_, ?_⟩, fun ph hph => ?_⟩
  · rw [wire_progress hs, hopen]
    exact if_neg Bool.false_ne_true
  · rw [stage_progress, stage_closed hclosed]
    rfl
  · rw [hst] at hph
    cases hph

theorem transition_tells {rest : List Task} (hok : ServerOk s) (hs : s.sent = []) (hq : s.world.notices = [])
    (hstrand : s.sync_strand = .transition k :: rest) (hc : s.clients k = some c)
    (hst : c.state_awaiting_transition = some st) (hd : Destroyed k s.world c.current_state w ps) :
    s.Tells (({ s with sync_strand := rest } : Server).progress k ((⟨c.entered st, w, ps, [], []⟩ : Progress).started k st))
      k := by
  obtain ⟨hopen, _, hf⟩ := hok.follows hstrand hc hst
  have hopen' : ({ s with sync_strand := rest } : Server).is_open k = true := (is_open_of hc).symm.trans hopen
  rcases transition_stage hopen hst hf hd hq with ⟨rfl, hstage⟩ | ⟨ms, rfl, hms, hbefore, hafter⟩
  · exact tells_nothing hs (by rw [started_packets]) (hstage.trans (stage_of hc).symm)
  · have htold : told_phase (s.stage k) = some .ingame := by
      rw [stage_of hc, hbefore]
      rfl
    have hback : Decodes .ingame (addressed k (ms ++ [(k, .moved_to_lobby)])) .lobby := by
      rw [addressed_append]
      exact (decodes_news (addressed_news hms)).append (decodes_own .moved_to_lobby)
    refine tells_own hs hopen' htold (tells_serving ?_ hafter)
    rw [started_packets]
    exact hback

theorem HandlerEffect.tells {hd : Handler} (he : HandlerEffect s hd s') (hok : ServerOk s) (hs : s.sent = [])
    (hq : s.world.notices = []) (k : SessionId) : s.Tells s' k := by
  have hnone {j : SessionId} : OnlyNews s.world j [] := fun m hm => by cases hm
  have hheld {j : SessionId} {c : MmoClient} (hc : s.clients j = some c) (p : EntityPtr)
      (hp : c.current_state.holds p) : s.world.online p := by
    refine (hok.players p).2 ⟨c, ?_, .inl hp⟩
    rwa [hok.own j c p hc (.inl hp)]
  cases he with
  | on_accept j hj =>
    by_cases hk : k = j
    · subst hk
      refine tells_nothing hs rfl ?_
      unfold Server.stage
      rw [hj]
      rfl
    · exact tells_other hok rfl hs hk hnone
  | on_recv j data size c g hc hrecv hsize he =>
    by_cases hk : k = j
    · subst hk
      obtain ⟨hready, hopen, ph, hphase, hph⟩ := hok.told_ready hc hrecv
      exact tells_own hs hopen hph (he.tells hq hready hphase)
    · exact tells_other hok rfl hs hk (he.only_news hok.world hq)
  | on_error j c hc hrecv =>
    by_cases hk : k = j
    · subst hk
      obtain ⟨_, hopen, ph, _, hph⟩ := hok.told_ready hc hrecv
      exact tells_own hs hopen hph (tells_closed (.nil ph) rfl)
    · exact tells_other hok rfl hs hk hnone
  | transition j rest c st w ps hstrand hc hst hd =>
    by_cases hk : k = j
    · subst hk
      exact transition_tells hok hs hq hstrand hc hst hd
    · refine tells_other hok rfl hs hk ?_
      rw [started_packets]
      exact hd.only_news hok.world hq (hheld hc)
  | finalize j rest c w ps hstrand hc hd =>
    by_cases hk : k = j
    · subst hk
      obtain ⟨hout, _⟩ := hok.only_task hstrand hc
      have hclosed := hout.of_finalize.2.2.1
      have hstage : s.stage k = .closed := (stage_of hc).trans (stage_closed hclosed)
      exact tells_gone hs ((is_open_of hc).symm.trans hclosed) hstage hclosed
    · exact tells_other hok rfl hs hk (hd.only_news hok.world hq (hheld hc))
  | lobby_chars_loaded j rest chars c acc old hstrand hc hst =>
    by_cases hk : k = j
    · subst hk
      obtain ⟨hout, _⟩ := hok.only_task hstrand hc
      obtain ⟨_, _, acc', old', rfl⟩ := hout.of_loaded
      have hph : told_phase (s.stage k) = some .lobby := by rw [stage_of hc]; rfl
      exact tells_own hs (is_open_of hc).symm hph (tells_serving (decodes_own (.character_list chars)) rfl)
    · refine tells_other hok rfl hs hk fun m hm hne => ?_
      rw [List.mem_singleton.1 hm] at hne
      exact absurd rfl hne
  | load j id rest c hstrand hc =>
    by_cases hk : k = j
    · subst hk
      exact tells_nothing hs rfl (stage_of hc).symm
    · exact tells_other hok rfl hs hk hnone
  | periodic_broadcast c ns he =>
    exact tells_news hok (fun m hm _ => chat_news hok.world hq he m hm) rfl (wire_put_world hs)
  | periodic_cleanup w he =>
    have hmails : w.mails = [] := by
      cases he
      simp [World.mails, hq]
    exact tells_news hok (fun m hm _ => by rw [hmails] at hm; cases hm) rfl (wire_put_world hs)

/-- The same for a handler that fails; its session goes nowhere. -/
structure Server.Readable (s s' : Server) (k : SessionId) : Prop where
  closed : told_phase (s.stage k) = none → s'.wire k = []
  decodes : ∀ ph ∈ told_phase (s.stage k), ∃ ph', Decodes ph (s'.wire k) ph'

theorem Server.Tells.readable (h : s.Tells s' k) : s.Readable s' k :=
  ⟨fun hnone => (h.closed hnone).1, fun ph hph => (h.decodes ph hph).imp fun _ h => h.1⟩

theorem clash_news {p : EntityPtr} {w w' : World} (h : w.Clash p w') (hok : WorldOk w) (hq : w.notices = []) :
    ∀ n ∈ w'.notices, n.2.News ∧ (w.online n.1 ∨ n.1 = p) := by
  intro n hn
  have hgreeting := (h.notices hq).subset hn
  exact ⟨(w.in_chat p).greetings_news p _ n hgreeting,
    (w.in_chat p).greetings_recipients hok.friends_ok.same_players p _ n hgreeting⟩

theorem PacketDeath.only_news {data : Buffer} {len : Nat} {f : Fault} (h : PacketDeath j c w data len f g)
    (hok : WorldOk w) (hq : w.notices = []) : OnlyNews w j g.packets := by
  cases h with
  | preauth e g hcur he =>
    generalize preauth_state.read data len = keys at he
    cases he with
    | no_opcode => exact fun m hm => by cases hm
    | lookup_throws =>
      intro m hm hne
      rw [List.mem_singleton.1 hm] at hne
      exact absurd rfl hne
  | select acc chars name ch w' hcur hr hfind hclash =>
    intro m hm hne
    rcases List.mem_cons.1 hm with rfl | hm
    · exact absurd rfl hne
    obtain ⟨n, hn, rfl⟩ := List.mem_map.1 hm
    obtain ⟨hnews, hto⟩ := clash_news hclash hok hq n hn
    refine ⟨hnews, n.1, rfl, hto.resolve_right fun h => hne ?_⟩
    rw [h]
    rfl

theorem PacketDeath.decodes {data : Buffer} {len : Nat} {f : Fault} (h : PacketDeath k c w data len f g)
    (hok : WorldOk w) (hq : w.notices = []) (hph : c.current_state.phase = some ph) :
    ∃ ph', Decodes ph (addressed k g.packets) ph' := by
  cases h with
  | preauth e g hcur he =>
    rw [hcur] at hph
    cases hph
    generalize preauth_state.read data len = keys at he
    cases he with
    | no_opcode => exact ⟨_, .nil _⟩
    | lookup_throws => exact ⟨_, decodes_own .good_boy_good_keys⟩
  | select acc chars name ch w' hcur hr hfind hclash =>
    rw [hcur] at hph
    cases hph
    exact ⟨_, decodes_select ch (mails_news fun n hn => (clash_news hclash hok hq n hn).1)⟩

theorem HandlerDeath.readable {hd : Handler} (he : HandlerDeath s hd s') (hok : ServerOk s) (hs : s.sent = [])
    (hq : s.world.notices = []) (k : SessionId) : s.Readable s' k := by
  cases he with
  | on_recv j data size c f g hc hrecv hsize hdies hdeath =>
    by_cases hk : k = j
    · subst hk
      obtain ⟨_, hopen, ph, hphase, htold⟩ := hok.told_ready hc hrecv
      obtain ⟨ph', hd⟩ := hdeath.decodes hok.world hq hphase
      refine ⟨fun hnone => ?_, fun ph0 hph0 => ⟨ph', ?_⟩⟩
      · rw [htold] at hnone
        cases hnone
      · rw [htold] at hph0
        cases hph0
        rwa [wire_progress hs, if_pos hopen]
    · exact (tells_other hok rfl hs hk (hdeath.only_news hok.world hq)).readable
  | load j id rest c hstrand hc =>
    refine Server.Tells.readable ?_
    by_cases hk : k = j
    · subst hk
      exact tells_nothing hs rfl (stage_of hc).symm
    · exact tells_other hok rfl hs hk fun m hm => by cases hm

end handlers

/-! ## Runs -/

/-- The server, and one client with the packets on their way to it. -/
structure Downlink where
  server : Server
  /-- No handler has failed. -/
  alive : Bool
  cs : Phase
  received : List Packet
  down : List Packet

inductive DownlinkEvent where
  | receive
  | server (ev : ServerEvent)
  | dies (hd : Handler)

/-- The client of session `k` receives its packets in order; what it sends is
among the events of the server, and may be anything. What a failing handler has
sent is received as well. -/
def downlinkMachine (k : SessionId) : Machine Downlink DownlinkEvent where
  init l := serverMachine.init l.server ∧ l = ⟨l.server, true, .preauth, [], []⟩
  step l ev l' := match ev with
    | .receive => ∃ p rest, l.down = p :: rest ∧
      l' = { l with cs := cs_after l.cs p.opcode, received := l.received ++ [p], down := rest }
    | .server ev => l.alive = true ∧ ∃ s, serverMachine.step l.server ev s ∧
      l' = { l with server := s, down := l.down ++ s.wire k }
    | .dies hd => l.alive = true ∧ ∃ o f s, hd.Admitted l.server o ∧ hd.run (l.server.begin o) = .error f s ∧
      l' = { l with server := s, alive := false, down := l.down ++ s.wire k }

/-- The client reads all there is, and is then in the phase the session has told
last. -/
structure DownlinkOk (k : SessionId) (l : Downlink) : Prop where
  received : Decodes .preauth l.received l.cs
  down : ∃ ph, Decodes l.cs l.down ph ∧ (l.alive = true → ∀ ph' ∈ told_phase (l.server.stage k), ph' = ph)
  server : l.alive = true → ServerOk l.server

section runs

variable {k : SessionId} {l l' : Downlink}

theorem downlink_ok_init (h : (downlinkMachine k).init l) : DownlinkOk k l := by
  obtain ⟨hs, hl⟩ := h
  have hok := server_ok_init hs
  obtain ⟨db, hfresh, _⟩ := hs
  rw [hl]
  refine ⟨.nil _, ⟨.preauth, .nil _, fun _ ph hph => ?_⟩, fun _ => hok⟩
  rw [hfresh] at hph
  cases hph
  rfl

theorem server_tells {s s' : Server} {ev : ServerEvent} (hok : ServerOk s) (hs : serverMachine.step s ev s') :
    s.Tells s' k := by
  cases ev with
  | handler hd =>
    obtain ⟨o, ha, hr⟩ := hs
    obtain ⟨hb, he⟩ := handler_effect hok ha hr
    exact ⟨(he.tells hb rfl rfl k).closed, (he.tells hb rfl rfl k).decodes⟩
  | reorder =>
    obtain ⟨w, _, _, rfl⟩ := hs
    refine ⟨fun hnone => ⟨rfl, hnone⟩, fun ph hph => ⟨ph, .nil ph, fun ph'' h => ?_⟩⟩
    exact (Option.some.inj (hph.symm.trans h)).symm

theorem server_dies_readable {s s' : Server} {hd : Handler} {o : Outside} {f : Fault} (hok : ServerOk s)
    (ha : hd.Admitted s o) (hr : hd.run (s.begin o) = .error f s') : s.Readable s' k := by
  rcases handler_ends hok ha with ⟨t, _, hrun⟩ | ⟨f', t, hdeath, hrun⟩
  · rw [hr] at hrun
    cases hrun
  · rw [hr] at hrun
    cases hrun
    exact ⟨(hdeath.readable (hok.begin o) rfl rfl k).closed, (hdeath.readable (hok.begin o) rfl rfl k).decodes⟩

theorem downlink_ok_step {ev : DownlinkEvent} (h : DownlinkOk k l) (hs : (downlinkMachine k).step l ev l') :
    DownlinkOk k l' := by
  obtain ⟨ph, hdown, hph⟩ := h.down
  cases ev with
  | receive =>
    obtain ⟨p, rest, hd, rfl⟩ := hs
    rw [hd] at hdown
    have hp := hdown.head
    refine ⟨h.received.append ?_, ⟨ph, hdown.tail, hph⟩, h.server⟩
    rw [← hp]
    exact .one p
  | server ev =>
    obtain ⟨halive, s, hs, rfl⟩ := hs
    have hok := h.server halive
    have ht := server_tells (k := k) hok hs
    refine ⟨h.received, ?_, fun _ => server_ok_step hok hs⟩
    cases htold : told_phase (l.server.stage k) with
    | none =>
      obtain ⟨hwire, hafter⟩ := ht.closed htold
      refine ⟨ph, ?_, fun _ ph' hph' => ?_⟩
      · rwa [hwire, List.append_nil]
      · rw [hafter] at hph'
        cases hph'
    | some ph0 =>
      obtain ⟨ph', hreads, hafter⟩ := ht.decodes ph0 htold
      rw [hph halive ph0 htold] at hreads
      exact ⟨ph', hdown.append hreads, fun _ => hafter⟩
  | dies hd =>
    obtain ⟨halive, o, f, s, ha, hr, rfl⟩ := hs
    obtain ⟨hnone, hsome⟩ := server_dies_readable (k := k) (h.server halive) ha hr
    refine ⟨h.received, ?_, fun hdead => by cases hdead⟩
    cases htold : told_phase (l.server.stage k) with
    | none =>
      refine ⟨ph, ?_, fun hdead => by cases hdead⟩
      rwa [hnone htold, List.append_nil]
    | some ph0 =>
      obtain ⟨ph', hreads⟩ := hsome ph0 htold
      rw [hph halive ph0 htold] at hreads
      exact ⟨ph', hdown.append hreads, fun hdead => by cases hdead⟩

theorem reachable_downlink_ok (h : (downlinkMachine k).Reachable l) : DownlinkOk k l :=
  h.keeps (fun _ => downlink_ok_init) fun _ _ _ => downlink_ok_step

/-- A client in the game has selected a character, and has not left since. -/
theorem decodes_ingame {ps : List Packet} (h : Decodes .preauth ps .ingame) :
    ∃ a c b, ps = a ++ .character_selected c :: b ∧ Packet.moved_to_lobby ∉ b := by
  obtain ⟨a, p, b, rfl, hphase, hnext, hb⟩ := h.entered (by simp)
  rw [cs_after_packet] at hnext
  refine ⟨a, ?_⟩
  cases p with
  | character_selected c =>
    refine ⟨c, b, rfl, fun hm => ?_⟩
    have := (hb _ hm).2
    cases this
  | _ => first | exact absurd rfl hphase | cases hnext

/-- The client reads every packet with the opcodes it was written with, and the
packets of the game lie between a `character_selected` and the next
`moved_to_lobby`. -/
theorem packets_read_in_phase (h : (downlinkMachine k).Reachable l) :
    (∀ p rest, l.down = p :: rest → p.phase = l.cs) ∧
      ∀ a p b, l.received ++ l.down = a ++ p :: b → p.phase = .ingame →
        ∃ a1 c a2, a = a1 ++ .character_selected c :: a2 ∧ Packet.moved_to_lobby ∉ a2 := by
  obtain ⟨hreceived, ⟨ph, hdown, _⟩, _⟩ := reachable_downlink_ok h
  refine ⟨fun p rest hd => ?_, fun a p b hab hp => ?_⟩
  · rw [hd] at hdown
    exact hdown.head
  · have hall := hreceived.append hdown
    rw [hab] at hall
    obtain ⟨ph1, ha, hb⟩ := hall.split
    have hph1 := hb.head
    rw [hp] at hph1
    rw [← hph1] at ha
    exact decodes_ingame ha

end runs

theorem play_down {l : Downlink} (address : Nat) (hd : Handler) (h : (downlinkMachine 0).Reachable l)
    (halive : l.alive = true) (ha : hd.Admitted l.server (outside_at address))
    (hr : hd.run (l.server.begin (outside_at address)) = .ok () (l.server.played address hd)) :
    (downlinkMachine 0).Reachable
      { l with server := l.server.played address hd, down := l.down ++ (l.server.played address hd).wire 0 } :=
  h.step (e := .server (.handler hd)) ⟨halive, _, play_step address hd ha hr, rfl⟩

theorem receive_down {l : Downlink} {p : Packet} {rest : List Packet} (h : (downlinkMachine 0).Reachable l)
    (hd : l.down = p :: rest) :
    (downlinkMachine 0).Reachable
      { l with cs := cs_after l.cs p.opcode, received := l.received ++ [p], down := rest } :=
  h.step (e := .receive) ⟨p, rest, hd, rfl⟩

def doras_packets : List Packet :=
  [.good_boy_good_keys, .character_list [⟨9, ascii "Dora"⟩], .character_selected ⟨9, ascii "Dora"⟩]

/-- Dora is on her way back to the lobby. -/
def dora_leaving : Downlink :=
  ⟨(dora_in_game.played 1 (receive [ingame_state_protocol.log_off_to_lobby])).played 1 .next_task, true, .ingame,
    doras_packets, [.moved_to_lobby]⟩

set_option maxRecDepth 8000 in
theorem dora_leaving_reachable : (downlinkMachine 0).Reachable dora_leaving := by
  have hnobody {o : Outside} (p : EntityPtr) (h : ((fun _ => none : EntityPtr → Option EntityData) p).isSome) :
      p.address ≠ o.env.new_entity := by cases h
  have h0 : (downlinkMachine 0).init ⟨Server.fresh doras_tables, true, .preauth, [], []⟩ := ⟨doras_tables_init, rfl⟩
  have h1 := play_down 0 (.on_accept 0) (.init h0) rfl ⟨rfl, hnobody, rfl⟩ rfl
  have h2 := play_down 0 (receive login_packet) h1 rfl ⟨⟨⟨_, rfl, rfl⟩, by decide⟩, hnobody, rfl⟩ rfl
  have h3 := play_down 0 .next_task h2 rfl ⟨List.cons_ne_nil _ _, hnobody, rfl⟩ rfl
  have h4 := play_down 0 .next_load h3 rfl ⟨List.cons_ne_nil _ _, hnobody, rfl⟩ rfl
  have h5 := play_down 0 .next_task h4 rfl ⟨List.cons_ne_nil _ _, hnobody, rfl⟩ rfl
  have h6 := play_down 0 (receive select_packet) h5 rfl ⟨⟨⟨_, rfl, rfl⟩, by decide⟩, hnobody, rfl⟩ rfl
  have h7 := play_down 1 .next_task h6 rfl ⟨List.cons_ne_nil _ _, other_address rfl, rfl⟩ rfl
  have h8 : (downlinkMachine 0).Reachable ⟨dora_in_game, true, .ingame, doras_packets, []⟩ :=
    receive_down (receive_down (receive_down h7 rfl) rfl) rfl
  have h9 := play_down 1 (receive [ingame_state_protocol.log_off_to_lobby]) h8 rfl
    (dora_in_game_receives _ (by decide)) rfl
  exact play_down 1 .next_task h9 rfl ⟨List.cons_ne_nil _ _, other_address rfl, rfl⟩ rfl

/-- The packet comes while she is in the game. -/
theorem dora_leaves_in_phase : Packet.moved_to_lobby.phase = dora_leaving.cs ∧
    ∃ a1 c a2, doras_packets = a1 ++ .character_selected c :: a2 ∧ Packet.moved_to_lobby ∉ a2 := by
  obtain ⟨hphase, hbetween⟩ := packets_read_in_phase dora_leaving_reachable
  exact ⟨hphase _ [] rfl, hbetween doras_packets .moved_to_lobby [] rfl rfl⟩

end tejk_it_izi
