import TejkItIzi.FriendPresence
import TejkItIzi.Selections
import TejkItIzi.ServerFriends
import TejkItIzi.SessionViews
/-!
# Which friends a client takes to be online

A client that empties its friend list when a character is selected, and adds and
removes names as the packets say, has the friends of its character who are in the
game, at every moment and for every session, as long as no statement fails and only
characters that are stored and idle are selected or deleted.
-/

namespace tejk_it_izi

open ProgLib

/-! ## The list of a client -/

/-- What a packet does to the list. A selection starts it afresh. -/
def note (view : Finset Bytes) : Packet → Finset Bytes
  | .character_selected _ => ∅
  | pk => see view pk

/-- Each packet fits the list its predecessors leave. -/
def AllFitList (view : Finset Bytes) : List Packet → Prop
  | [] => True
  | pk :: rest => Fits view pk ∧ AllFitList (note view pk) rest

/-- The list of the client of session `k` at the end of a run. -/
def list_of (k : SessionId) (tr : List (Taken Server ServerEvent)) : Finset Bytes :=
  (tr.flatMap fun x => x.post.wire k).foldl note ∅

section packets

variable {view : Finset Bytes} {pk : Packet} {ps qs : List Packet}

theorem see_other (view : Finset Bytes) (h : pk.of_friends = false) : see view pk = view ∧ Fits view pk := by
  cases pk <;> first | exact ⟨rfl, trivial⟩ | cases h

theorem note_other (view : Finset Bytes) (h : ∀ ch, pk ≠ .character_selected ch) : note view pk = see view pk := by
  cases pk <;> first | rfl | exact absurd rfl (h _)

theorem news_no_selection (h : pk.News) (ch : LobbyCharacter) : pk ≠ .character_selected ch := by
  rintro rfl
  cases h.1

/-- Only the packets of the friend system matter. -/
theorem note_friends (view : Finset Bytes) (h : ∀ pk ∈ ps, ∀ ch, pk ≠ .character_selected ch) :
    ps.foldl note view = (ps.filter Packet.of_friends).foldl see view ∧
      (AllFitList view ps ↔ AllFit view (ps.filter Packet.of_friends)) := by
  induction ps generalizing view with
  | nil => exact ⟨rfl, Iff.rfl⟩
  | cons pk ps ih =>
    have hpk := note_other view (h pk List.mem_cons_self)
    have hrest := ih (see view pk) fun q hq => h q (List.mem_cons_of_mem _ hq)
    rw [List.foldl_cons, AllFitList, hpk]
    cases hf : pk.of_friends with
    | true =>
      rw [List.filter_cons_of_pos hf, List.foldl_cons, AllFit]
      exact ⟨hrest.1, and_congr_right fun _ => hrest.2⟩
    | false =>
      obtain ⟨hsame, hfit⟩ := see_other view hf
      rw [hsame] at hrest ⊢
      rw [List.filter_cons_of_neg (by rw [hf]; exact Bool.false_ne_true)]
      exact ⟨hrest.1, (and_iff_right hfit).trans hrest.2⟩

end packets

/-! ## Names of characters -/

section naming

variable {db : Database}

/-- The name of a stored character; ids that are not stored get names nobody can have. -/
def Database.naming (db : Database) (id : Nat) : Bytes :=
  match db.characters.find? (·.id = id) with
  | some r => r.nickname
  | none => List.replicate (id + 1) 0

theorem naming_of_row (hk : db.table.Keyed) {r : CharacterRow} (hr : r ∈ db.characters) : db.naming r.id = r.nickname := by
  obtain ⟨r', hr'⟩ : ∃ r', db.characters.find? (·.id = r.id) = some r' :=
    Option.isSome_iff_exists.1 (List.find?_isSome.2 ⟨r, hr, by simp⟩)
  have hid : r'.id = r.id := by simpa using List.find?_some hr'
  rw [Database.naming, hr', hk.same_id (List.mem_of_find?_eq_some hr') hr hid]

theorem naming_cases (hk : db.table.Keyed) (id : Nat) :
    (∃ r ∈ db.characters, r.id = id ∧ db.naming id = r.nickname) ∨ db.naming id = List.replicate (id + 1) 0 := by
  cases hf : db.characters.find? (·.id = id) with
  | some r =>
    have hid : r.id = id := by simpa using List.find?_some hf
    have hr := List.mem_of_find?_eq_some hf
    exact .inl ⟨r, hr, hid, by rw [← hid]; exact naming_of_row hk hr⟩
  | none =>
    refine .inr ?_
    rw [Database.naming, hf]

theorem naming_injective (hk : db.table.Keyed) (hv : ∀ r ∈ db.characters, valid_nickname r.nickname) :
    Function.Injective db.naming := by
  -- A nickname has no zero byte.
  have hzero {r : CharacterRow} {id : Nat} (hr : r ∈ db.characters) : r.nickname ≠ List.replicate (id + 1) 0 := by
    intro h
    have halnum : isalnum 0 = true := (hv r hr).2.2 0 (by rw [h]; exact List.mem_replicate.2 ⟨by omega, rfl⟩)
    revert halnum
    decide
  intro a b hab
  rcases naming_cases hk a with ⟨r, hr, rfl, hn⟩ | hn <;> rcases naming_cases hk b with ⟨r', hr', rfl, hn'⟩ | hn'
  · rw [hn, hn'] at hab
    rw [hk.same_nickname hr hr' hab]
  · exact absurd (hn.symm.trans (hab.trans hn')) (hzero hr)
  · exact absurd (hn'.symm.trans (hab.symm.trans hn)) (hzero hr')
  · rw [hn, hn'] at hab
    have hlen := congrArg List.length hab
    simp only [List.length_replicate] at hlen
    omega

theorem naming_agrees (hk : db.table.Keyed) : AgreesWith db.naming db := by
  intro n hn
  unfold Database.char_name_to_uid at hn ⊢
  cases hf : db.characters.find? (·.nickname = n) with
  | none =>
    rw [hf] at hn
    exact absurd rfl hn
  | some r =>
    have hname : r.nickname = n := by simpa using List.find?_some hf
    exact (naming_of_row hk (List.mem_of_find?_eq_some hf)).trans hname

end naming

/-! ## The packets of a session -/

section wires

variable {s s' : Server} {hd : Handler} {k : SessionId} {p : EntityPtr} {pk : Packet}

theorem sent_of_wire (h : pk ∈ s.wire k) : ∃ m ∈ s.sent, m.session = k ∧ m.packet = pk := by
  obtain ⟨m, hm, h⟩ := List.mem_filterMap.1 h
  split at h
  · next hk => exact ⟨m, hm, hk.1, Option.some.inj h⟩
  · cases h

/-- What a handler hands to a session gets on the wire if the session is open. -/
theorem HandlerEffect.sent_as (he : HandlerEffect s hd s') (hs : s.sent = []) :
    ∃ ps : List (SessionId × Packet), s'.sent = ps.map fun m => ⟨m.1, m.2, s.is_open m.1⟩ := by
  cases he with
  | on_accept | on_recv | on_error => exact ⟨_, by rw [Server.progress, hs]; rfl⟩
  | transition k rest | finalize k rest | lobby_chars_loaded k rest | load k id rest =>
    exact ⟨_, by rw [Server.progress, hs]; rfl⟩
  | periodic_broadcast | periodic_cleanup => exact ⟨_, by rw [Server.put_world, Server.emit, hs]; rfl⟩

theorem HandlerEffect.wire_friends (he : HandlerEffect s hd s') (hs : s.sent = []) (hopen : s.is_open k = true) :
    (s'.wire k).filter Packet.of_friends = addressed k s'.friends_sent := by
  obtain ⟨ps, hps⟩ := he.sent_as hs
  rw [wire_of_sent hps, if_pos hopen, Server.friends_sent, hps, List.map_map]
  show _ = addressed k (friend_packets (ps.map id))
  rw [List.map_id, addressed, addressed, friend_packets, List.filter_filterMap, List.filterMap_filter]
  refine List.filterMap_congr fun m _ => ?_
  by_cases hm : m.1 = k
  · cases hf : m.2.of_friends <;> simp [hm, hf]
  · simp [hm]

theorem HandlerEffect.wire_closed (he : HandlerEffect s hd s') (hs : s.sent = []) (hclosed : s.is_open k = false) :
    s'.wire k = [] := by
  obtain ⟨ps, hps⟩ := he.sent_as hs
  rw [wire_of_sent hps, hclosed]
  exact if_neg Bool.false_ne_true

/-- Whoever is in the game already is not selected. -/
theorem HandlerEffect.no_selection (he : HandlerEffect s hd s') (hok : ServerOk s) (hs : s.sent = [])
    (hq : s.world.notices = []) (hp : s.world.online p) :
    ∀ pk ∈ s'.wire p.my_session, ∀ ch, pk ≠ .character_selected ch := by
  rintro _ hpk ch rfl
  obtain ⟨m, hm, hk, hsel⟩ := sent_of_wire hpk
  have hcaused := he.caused hok hs hq m hm
  rw [hsel, hk] at hcaused
  obtain ⟨c, hc, hholds⟩ := (hok.players p).1 hp
  cases hcaused with
  | character_selected chars _ hchooses _ =>
    obtain ⟨acc, data, size, ⟨rfl, c', hc', hst⟩, _⟩ := hchooses
    cases hc.symm.trans hc'
    cases he with
    | on_recv _ _ _ c' g hc' hrecv =>
      cases hc.symm.trans hc'
      obtain ⟨_, _, _, hready⟩ := (hok.outstanding _ c hc).of_receiving hrecv
      rcases hholds with h | ⟨st, h, _⟩
      · rw [hst] at h
        exact h
      · rw [hready.no_transition] at h
        cases h

/-- The client of a character that comes into the game is told so first. -/
def Entered (s s' : Server) (p : EntityPtr) : Prop :=
  s.is_open p.my_session = true ∧
    ∃ ch ps, s'.wire p.my_session = .character_selected ch :: ps ∧ ∀ pk ∈ ps, pk.News

theorem PacketEffect.enters {c : MmoClient} {data : Buffer} {size : Nat} {g : Progress} (hs : s.sent = [])
    (hq : s.world.notices = []) (hopen : s.is_open k = true)
    (he : PacketEffect k c s.world s.authenticator data size g)
    (hoff : ¬ s.world.online p) (hon : g.world.online p) : Entered s (s.progress k g) p := by
  cases he with
  | preauth g hst he =>
    generalize preauth_state.read data size = keys at he
    cases he with
    | lookup_fails key login w' hv hl | login key login acc w' hv hl =>
      refine absurd ((looked_up_same s.world login).2 p ?_) hoff
      rw [hl]
      exact hon
    | unknown_opcode | malformed | bad_keys => exact absurd hon hoff
  | lobby acc chars request g hst hr he =>
    cases he with
    | select name ch w' hf hfree hef =>
      obtain rfl : p = s.world.newcomer k ch := by
        rcases hef.online hfree hon with h | h
        · exact absurd h hoff
        · cases h
          rfl
      refine ⟨hopen, ch, addressed k w'.mails, ?_, addressed_news (register_news hq hef)⟩
      show (s.progress k _).wire k = _
      rw [wire_progress hs, if_pos hopen]
      exact addressed_own
    | _ => exact absurd hon hoff
  | ingame q acc request g hst hr he =>
    cases he with
    | friends request op w' hop hperm hef | friends_fail request op e w' hop hperm hef =>
      exact absurd (hef.online_of (IngameRequest.friend_op_quiet hop) hon) hoff
    | _ => exact absurd hon hoff
  | lobby_malformed | ingame_malformed => exact absurd hon hoff

theorem HandlerEffect.enters (he : HandlerEffect s hd s') (hok : ServerOk s) (hs : s.sent = [])
    (hq : s.world.notices = []) (hoff : ¬ s.world.online p) (hon : s'.world.online p) : Entered s s' p := by
  cases he with
  | on_recv k data size c g hc hrecv hsize he =>
    obtain ⟨_, _, _, hready⟩ := (hok.outstanding k c hc).of_receiving hrecv
    exact he.enters hs hq ((is_open_of hc).symm.trans hready.is_open) hoff hon
  | transition k rest c st w ps hstrand hc hst hd =>
    obtain ⟨_, hon'⟩ := hd.settled_owns (hok.owns hc) hok.world
    refine absurd ((hon' p).1 ?_).1 hoff
    rwa [show (({ s with sync_strand := rest } : Server).progress k
      ((⟨c.entered st, w, ps, [], []⟩ : Progress).started k st)).world = w from started_world _ k st] at hon
  | finalize k rest c w ps hstrand hc hd =>
    obtain ⟨_, hon'⟩ := hd.settled_owns (hok.owns hc) hok.world
    exact absurd ((hon' p).1 hon).1 hoff
  | periodic_cleanup w he => exact absurd (he.online_of id hon) hoff
  | _ => exact absurd hon hoff

end wires

/-! ## One step -/

section steps

variable {s s' : Server} {t : World} {ev : ServerEvent} {fev : FriendEvent} {k : SessionId} {p q : EntityPtr}
  {view : Finset Bytes}

structure PresenceOk (s : Server) : Prop where
  stored : StoredOk s
  names : NamesOk s
  friends : FriendInv s.world

theorem mail_addressed {ns : List (EntityPtr × Packet)} (h : ∀ n ∈ ns, n.1.my_session = p.my_session → n.1 = p) :
    mail p ns = addressed p.my_session (ns.map fun n => (n.1.my_session, n.2)) := by
  induction ns with
  | nil => rfl
  | cons n ns ih =>
    obtain ⟨q, pk⟩ := n
    have hrest := ih fun m hm => h m (List.mem_cons_of_mem _ hm)
    by_cases hq : q = p
    · subst hq
      rw [mail_cons_self, hrest, List.map_cons, addressed_own]
    · have hne : q.my_session ≠ p.my_session := fun hk => hq (h (q, pk) List.mem_cons_self hk)
      rw [mail_cons_ne hq, hrest, List.map_cons]
      simp [addressed, hne]

/-- A call of the friend system keeps the view of `p`. -/
theorem presence_call {op : FriendOp} (hok : PresenceOk s) (hok' : StoredOk s') (hsame : SameFriends s'.world t)
    (hstep : clockedMachine.step s.world (.call op) t) (hv : s.world.online p → Sees s.world p view) :
    (t.online p → Sees t p (look p view ⟨s.world, .call op, t⟩)) ∧
      (AllFit ((FriendEvent.call op).start p view) (mail p t.notices) ∨ BreaksOffline ⟨s.world, .call op, t⟩ p view) := by
  obtain ⟨env, hop, he⟩ := friend_call_effect hok.friends hstep.1
  have hk := hok.stored.keyed
  have hrows : t.db.characters = s.world.db.characters := he.same_characters
  have hnaming : t.db.naming = s.world.db.naming := by
    funext id
    rw [Database.naming, Database.naming, hrows]
  have hkt : t.db.table.Keyed := by
    rw [hsame.db]
    exact hok'.keyed
  have hinv : PresenceInv s.world.db.naming s.world := by
    refine ⟨hok.friends, naming_agrees hk, fun x hx => ?_⟩
    obtain ⟨_, a, _, _, _, hrow⟩ := hok.stored.row_of_online hx
    exact (naming_of_row hk hrow).symm
  refine presence_step (naming_injective hk hok.names.rows) hinv ⟨hstep.1, hnaming ▸ naming_agrees hkt, ?_⟩ hv
  rintro x ⟨⟩
  have hx : s'.world.online x := by
    rw [World.online, ← hsame.registry]
    cases he with
    | register_me _ ha => exact (online_add hop.1 x).2 (.inr rfl)
  obtain ⟨_, a, _, _, _, hrow⟩ := hok'.row_of_online hx
  rw [← hsame.db] at hrow
  rw [← hnaming]
  exact (naming_of_row hkt hrow).symm

/-- So does a step in which it is not called. -/
theorem presence_event (hok : PresenceOk s) (hok' : StoredOk s') (hsame : SameFriends s'.world t)
    (hstep : clockedMachine.step s.world fev t) (hv : s.world.online p → Sees s.world p view) :
    (t.online p → Sees t p (look p view ⟨s.world, fev, t⟩)) ∧
      (AllFit (fev.start p view) (mail p t.notices) ∨ BreaksOffline ⟨s.world, fev, t⟩ p view) := by
  cases fev with
  | call op => exact presence_call hok hok' hsame hstep hv
  | other_tables =>
    obtain ⟨db, hdb, rfl⟩ := hstep.1
    refine ⟨fun hp => (hv hp).same fun x => ?_, .inl trivial⟩
    simp only [World.friend_online, Database.mem_get_friends_of, hdb]
    rfl
  | reorder =>
    obtain ⟨h, hn, _⟩ := hstep.1
    unfold look
    simp only [hn, mail_nil, List.foldl_nil]
    refine ⟨fun hp => (hv ?_).same fun x => ?_, .inl trivial⟩
    · rw [World.online, h.registry] at hp
      exact hp
    · simp only [World.friend_online, World.online, h.registry, h.friends_of]

/-- Whoever comes into the game is registered. -/
theorem newcomer_registers (hi : FriendInv s.world) (hstep : clockedMachine.step s.world fev t)
    (hoff : ¬ s.world.online p) (hon : t.online p) : fev = .call (.register_me p) := by
  cases fev with
  | call op =>
    obtain ⟨env, hop, he⟩ := friend_call_effect hi hstep.1
    rcases he.online hop hon with h | rfl
    · exact absurd h hoff
    · rfl
  | other_tables =>
    obtain ⟨db, _, rfl⟩ := hstep.1
    exact absurd hon hoff
  | reorder =>
    rw [World.online, hstep.1.1.registry] at hon
    exact absurd hon hoff

/-- Nobody is registered who is in the game already. -/
theorem start_of_online (hi : FriendInv s.world) (hstep : clockedMachine.step s.world fev t) (hp : s.world.online p) :
    fev.start p view = view := by
  cases fev with
  | call op =>
    obtain ⟨env, hop, _⟩ := friend_call_effect hi hstep.1
    cases op with
    | register_me q =>
      refine if_neg ?_
      rintro rfl
      have hfree : s.world.registry.id_to_character q.id = none := hop.1
      rw [World.online, hfree] at hp
      cases hp
    | _ => rfl
  | other_tables | reorder => rfl

theorem registered_online (hi : FriendInv s.world) (hstep : clockedMachine.step s.world (.call (.register_me q)) t) :
    t.online p ↔ s.world.online p ∨ p = q := by
  obtain ⟨env, hop, he⟩ := friend_call_effect hi hstep.1
  cases he with
  | register_me _ ha => exact online_add hop.1 p

theorem friends_recipients (hi : FriendInv s.world) (hstep : clockedMachine.step s.world fev t) :
    ∀ n ∈ t.notices, s.world.online n.1 ∨ fev = .call (.register_me n.1) := by
  intro n hn
  cases fev with
  | call op =>
    obtain ⟨env, hop, he⟩ := friend_call_effect hi hstep.1
    exact (he.recipients (hi.begin env).same_players hop rfl n hn).imp id fun h => congrArg _ h
  | other_tables =>
    obtain ⟨db, _, rfl⟩ := hstep.1
    cases hn
  | reorder =>
    rw [hstep.1.2.1] at hn
    cases hn

/-- What the session of `p` is sent of the friend system is sent to `p`. -/
theorem friends_mail (hok : ServerOk s) (hok' : ServerOk s') (hi : FriendInv s.world) (hsame : SameFriends s'.world t)
    (hstep : clockedMachine.step s.world fev t) (hp : s.world.online p ∨ t.online p) :
    addressed p.my_session t.mails = mail p t.notices := by
  refine (mail_addressed fun n hn hsession => ?_).symm
  have hnext (x : EntityPtr) (hx : t.online x) : s'.world.online x := by
    rwa [World.online, hsame.registry] at hx
  -- A newcomer finds everybody still there.
  have hboth {x : EntityPtr} (hfev : fev = .call (.register_me x)) (h : s.world.online n.1 ∨ n.1 = x)
      (h' : s.world.online p ∨ p = x) : n.1 = p := by
    subst hfev
    exact hok'.same_session (hnext p ((registered_online hi hstep).2 h')) (hnext n.1 ((registered_online hi hstep).2 h))
      hsession
  rcases friends_recipients hi hstep n hn with hto | hto
  · by_cases hps : s.world.online p
    · exact hok.same_session hps hto hsession
    · exact hboth (newcomer_registers hi hstep hps (hp.resolve_left hps)) (.inl hto) (.inr rfl)
  · refine hboth hto (.inr rfl) (hp.elim .inl fun hpt => ?_)
    rw [hto] at hstep
    exact (registered_online hi hstep).1 hpt

/-- Session `k` removes a friend who is not in the game. -/
def RemovesAbsent (x : Taken Server ServerEvent) (k : SessionId) : Prop :=
  ∃ hd p name, x.event = .handler hd ∧ p.my_session = k ∧ x.pre.asks hd p (.friend_remove name) ∧
    x.pre.world.registry.id_to_character (x.pre.world.db.char_name_to_uid name) = none

theorem uid_of_row {db : Database} (hk : db.table.Keyed) {r : CharacterRow} (hr : r ∈ db.characters) :
    db.char_name_to_uid r.nickname = r.id := by
  obtain ⟨r', hr'⟩ : ∃ r', db.characters.find? (·.nickname = r.nickname) = some r' :=
    Option.isSome_iff_exists.1 (List.find?_isSome.2 ⟨r, hr, by simp⟩)
  have hname : r'.nickname = r.nickname := by simpa using List.find?_some hr'
  rw [Database.char_name_to_uid, hr', hk.same_nickname (List.mem_of_find?_eq_some hr') hr hname]

/-- Only his own request tells a client that it is no longer friends with somebody absent. -/
theorem removes_absent {hd : Handler} {name : Bytes} (hok : StoredOk s) (he : HandlerEffect s hd s') (hs : s.sent = [])
    (hq : s.world.notices = []) (hpk : .broken_friendship name ∈ s'.wire k)
    (habsent : s.world.registry.id_to_character (s.world.db.char_name_to_uid name) = none) :
    RemovesAbsent ⟨s, .handler hd, s'⟩ k := by
  obtain ⟨m, hm, hk, hbroken⟩ := sent_of_wire hpk
  have hcaused := he.caused hok.ok hs hq m hm
  rw [hbroken, hk] at hcaused
  cases hcaused with
  | friendship_ended p name hasks hsession => exact ⟨hd, p, name, rfl, hsession, hasks, habsent⟩
  | broken_friendship p name' hasks =>
    obtain ⟨acc, data, size, ⟨_, c, hc, hst⟩, _⟩ := hasks
    have hon : s.world.online p := hok.ok.held_online hc (.inl (by rw [hst]; rfl))
    obtain ⟨_, a, _, _, _, hrow⟩ := hok.row_of_online hon
    rw [uid_of_row hok.keyed hrow, show s.world.registry.id_to_character p.id = some p from hon] at habsent
    cases habsent

/-- The list of an open session has the friends of its character who are in the game. -/
def Server.ListExact (s : Server) (k : SessionId) (view : Finset Bytes) : Prop :=
  s.is_open k = true → ∀ p, s.world.online p → p.my_session = k → Sees s.world p view

theorem SameFriends.sees (h : SameFriends s.world t) (hs : Sees t p view) : Sees s.world p view :=
  hs.same fun x => by rw [World.friend_online, World.friend_online, World.online, World.online, h.registry, h.db]

theorem closed_stays (hok : ServerOk s) (hs : serverMachine.step s ev s') (hp : s.world.online p)
    (hclosed : s.is_open p.my_session = false) : s'.is_open p.my_session = false := by
  obtain ⟨c, hc, _⟩ := (hok.players p).1 hp
  have hview : s.view p.my_session = none := by
    rw [view_at hc]
    exact view_closed ((is_open_of hc).trans hclosed)
  exact (server_ok_step hok hs).view_none ((step_follows hok hs _).closed hview).2

/-- The client whose character is in the game already. -/
theorem list_step_online {hd : Handler} {o : Outside} (hok : PresenceOk s) (hok' : StoredOk s')
    (hb : ServerOk (s.begin o)) (he : HandlerEffect (s.begin o) hd s') (hstep : clockedMachine.step s.world fev t)
    (hsame : SameFriends s'.world t) (hmails : t.mails = s'.friends_sent) (hopen : s.is_open p.my_session = true)
    (hp : s.world.online p) (hv : Sees s.world p view) :
    s'.ListExact p.my_session ((s'.wire p.my_session).foldl note view) ∧
      (AllFitList view (s'.wire p.my_session) ∨ RemovesAbsent ⟨s, .handler hd, s'⟩ p.my_session) := by
  have hnone := he.no_selection hb rfl rfl hp
  obtain ⟨hfold, hfit⟩ := note_friends view hnone
  have hmail : (s'.wire p.my_session).filter Packet.of_friends = mail p t.notices := by
    rw [he.wire_friends rfl hopen, ← hmails]
    exact friends_mail hok.stored.ok hok'.ok hok.friends hsame hstep (.inl hp)
  obtain ⟨hsees, hfits⟩ := presence_event hok hok' hsame hstep fun _ => hv
  unfold look at hsees
  rw [start_of_online hok.friends hstep hp] at hsees hfits
  rw [hfold, hfit, hmail]
  refine ⟨fun _ x hx hk => ?_, hfits.imp id ?_⟩
  · by_cases hxs : s.world.online x
    · obtain rfl := hok.stored.ok.same_session hp hxs hk
      exact hsame.sees (hsees (by rw [World.online, hsame.registry]; exact hx))
    · obtain ⟨_, ch, ps, hwire, _⟩ := he.enters hb rfl rfl hxs hx
      rw [hk] at hwire
      exact absurd rfl (hnone _ (by rw [hwire]; exact List.mem_cons_self) ch)
  · rintro ⟨_, _, name, _, _, habsent, hbroken, _⟩
    have hokb : StoredOk (s.begin o) := ⟨hb, hok.stored.keyed, hok.stored.first_smaller, hok.stored.stored⟩
    have hmem : .broken_friendship name ∈ s'.wire p.my_session := by
      refine List.mem_of_mem_filter (p := Packet.of_friends) ?_
      rw [hmail, hbroken]
      exact List.mem_singleton_self _
    have hremoves : RemovesAbsent ⟨s.begin o, .handler hd, s'⟩ p.my_session :=
      removes_absent hokb he rfl rfl hmem habsent
    exact hremoves

/-- The client whose character comes into the game. -/
theorem list_step_enters {hd : Handler} {o : Outside} (hok : PresenceOk s) (hok' : StoredOk s')
    (hb : ServerOk (s.begin o)) (he : HandlerEffect (s.begin o) hd s') (hstep : clockedMachine.step s.world fev t)
    (hsame : SameFriends s'.world t) (hmails : t.mails = s'.friends_sent) (hoff : ¬ s.world.online p)
    (hp : s'.world.online p) :
    s'.ListExact p.my_session ((s'.wire p.my_session).foldl note view) ∧
      AllFitList view (s'.wire p.my_session) := by
  obtain ⟨hopen, ch, ps, hwire, hnews⟩ := he.enters hb rfl rfl hoff hp
  obtain ⟨hfold, hfit⟩ := note_friends ∅ fun pk hpk => news_no_selection (hnews pk hpk)
  have hpt : t.online p := by rwa [World.online, hsame.registry]
  have hfriends : ps.filter Packet.of_friends = mail p t.notices := by
    rw [← friends_mail hok.stored.ok hok'.ok hok.friends hsame hstep (.inr hpt), hmails, ← he.wire_friends rfl hopen,
      hwire]
    rfl
  have hfev := newcomer_registers hok.friends hstep hoff hpt
  obtain ⟨hsees, hfits⟩ := presence_event hok hok' hsame hstep fun h => (absurd h hoff : Sees s.world p ∅)
  have hstart : fev.start p ∅ = ∅ := by
    rw [hfev]
    exact if_pos rfl
  unfold look at hsees
  rw [hstart] at hsees hfits
  rw [hwire]
  show Server.ListExact s' p.my_session (ps.foldl note ∅) ∧ (True ∧ AllFitList ∅ ps)
  rw [hfold, hfit, hfriends]
  refine ⟨fun _ x hx hk => ?_, trivial, hfits.resolve_right ?_⟩
  · obtain rfl := hok'.ok.same_session hp hx hk
    exact hsame.sees (hsees hpt)
  · rintro ⟨_, hop, _, hremove, _⟩
    rw [hfev] at hop
    cases hop
    cases hremove

/-- Without friend packets the list stays. -/
theorem fits_without_friends {ps : List Packet} (h : ps.filter Packet.of_friends = []) : AllFitList view ps := by
  induction ps generalizing view with
  | nil => trivial
  | cons pk ps ih =>
    have hall := List.filter_eq_nil_iff.1 h
    refine ⟨(see_other _ (by simpa using hall pk List.mem_cons_self)).2, ih ?_⟩
    exact List.filter_eq_nil_iff.2 fun q hq => hall q (List.mem_cons_of_mem _ hq)

theorem list_step (hok : PresenceOk s) (hok' : StoredOk s') (hs : steadyMachine.step s ev s')
    (hv : s.ListExact k view) :
    s'.ListExact k ((s'.wire k).foldl note view) ∧ (AllFitList view (s'.wire k) ∨ RemovesAbsent ⟨s, ev, s'⟩ k) := by
  obtain ⟨fev, t, hstep, hsame, hmails, _⟩ := steady_step_friends hok.stored.ok hs (.self s.world)
  have hserver := steady_is_server hs
  cases ev with
  | handler hd =>
    obtain ⟨o, ha, _, _, hrun⟩ := hs
    obtain ⟨hb, he⟩ := handler_effect hok.stored.ok ha hrun
    by_cases hplayer : ∃ p, s.world.online p ∧ p.my_session = k
    · obtain ⟨p, hp, rfl⟩ := hplayer
      cases hopen : s.is_open p.my_session with
      | true => exact list_step_online hok hok' hb he hstep hsame hmails hopen hp (hv hopen p hp rfl)
      | false =>
        have hclosed := closed_stays hok.stored.ok hserver hp hopen
        rw [he.wire_closed rfl hopen]
        refine ⟨fun hopen' => ?_, .inl trivial⟩
        rw [hclosed] at hopen'
        cases hopen'
    by_cases hcomes : ∃ p, s'.world.online p ∧ p.my_session = k
    · obtain ⟨p, hp, rfl⟩ := hcomes
      have hoff : ¬ s.world.online p := fun h => hplayer ⟨p, h, rfl⟩
      exact (list_step_enters hok hok' hb he hstep hsame hmails hoff hp).imp id .inl
    · -- The session has nobody in the game.
      refine ⟨fun _ p hp hk => absurd ⟨p, hp, hk⟩ hcomes, .inl (fits_without_friends ?_)⟩
      cases hopen : s.is_open k with
      | true =>
        rw [he.wire_friends rfl hopen, ← hmails]
        refine List.filterMap_eq_nil_iff.2 fun m hm => if_neg fun hk => ?_
        obtain ⟨n, hn, hsession, _⟩ := mem_mails hm
        rcases friends_recipients hok.friends hstep n hn with h | rfl
        · exact hplayer ⟨n.1, h, hsession.trans hk⟩
        · refine hcomes ⟨n.1, ?_, hsession.trans hk⟩
          have hon := (registered_online hok.friends hstep).2 (.inr rfl)
          rwa [World.online, hsame.registry] at hon
      | false =>
        rw [he.wire_closed rfl hopen]
        rfl
  | reorder =>
    obtain ⟨w, hre, _, _, rfl⟩ := hs
    refine ⟨fun hopen p hp hk => ?_, .inl trivial⟩
    have hp' : s.world.online p := by
      rw [World.online, hre.registry] at hp
      exact hp
    refine (hv hopen p hp' hk).same fun x => ?_
    simp only [World.friend_online, World.online, hre.registry, hre.friends_of]

end steps

/-! ## Runs -/

section runs

variable {s0 s : Server} {tr : List (Taken Server ServerEvent)} {k : SessionId}

theorem presence_ok_run (h0 : steadyMachine.init s0) (hk : s0.world.db.table.Keyed) (h : steadyMachine.Run s0 tr s)
    (hidle : ∀ x ∈ tr, x.pre.TouchesIdle x.event) : PresenceOk s := by
  have hreach : steadyMachine.Reachable s := (Machine.Reachable.init h0).run h
  refine ⟨?_, reachable_names_ok (steady_reachable hreach), (reachable_consent_ok hreach).friends⟩
  refine Machine.Run.keeps (I := StoredOk) (C := fun s ev => s.TouchesIdle ev)
    (fun _ _ _ hi hc hs => stored_ok_step hi hc (steady_is_server hs)) h hidle ?_
  obtain ⟨⟨db, rfl, hnames⟩, hfirst⟩ := h0
  exact stored_ok_init ⟨db, rfl, hnames, hfirst, hk⟩

/-- In runs of `tameMachine` in which only characters that are stored and idle are
selected or deleted: the client of every open session whose character is in the game
lists exactly the friends of that character who are in the game. Every packet of the
run fits its list, but for the answer to a client that removes a friend who is not
in the game. -/
theorem client_lists_friends_online (h0 : tameMachine.init s0) (hk : s0.world.db.table.Keyed)
    (h : tameMachine.Run s0 tr s) (hidle : ∀ x ∈ tr, x.pre.TouchesIdle x.event) :
    (∀ c p, s.clients k = some c → c.is_open = true → c.Holds p → ∀ n, n ∈ list_of k tr ↔
      ∃ j c' q, s.clients j = some c' ∧ c'.Holds q ∧ q.name = n ∧ q.id ∈ s.world.db.get_friends_of p.id) ∧
    ∀ l x r, tr = l ++ x :: r → AllFitList (list_of k l) (x.post.wire k) ∨ RemovesAbsent x k := by
  replace h : steadyMachine.Run s0 tr s := h.of_only
  have hrun : s.ListExact k (list_of k tr) ∧
      ∀ l x r, tr = l ++ x :: r → AllFitList (list_of k l) (x.post.wire k) ∨ RemovesAbsent x k := by
    induction h with
    | nil =>
      obtain ⟨⟨db, rfl, _⟩, _⟩ := h0
      refine ⟨fun hopen => ?_, by simp⟩
      cases hopen
    | @snoc tr s1 ev s2 hr hs ih =>
      have hidle1 : ∀ x ∈ tr, x.pre.TouchesIdle x.event := fun x hx => hidle x (by simp [hx])
      obtain ⟨hexact, hfits⟩ := ih hidle1
      obtain ⟨hexact', hfit⟩ := list_step (presence_ok_run h0 hk hr hidle1)
        (presence_ok_run h0 hk (hr.snoc hs) hidle).stored hs hexact
      refine ⟨?_, fun l x r heq => ?_⟩
      · rw [list_of, List.flatMap_append, List.foldl_append, List.flatMap_singleton]
        exact hexact'
      · rcases List.eq_nil_or_concat r with rfl | ⟨r', y, rfl⟩
        · obtain ⟨rfl, hx⟩ := List.append_inj' heq rfl
          simp only [List.cons.injEq, and_true] at hx
          subst hx
          exact hfit
        · rw [List.concat_eq_append, ← List.cons_append, ← List.append_assoc] at heq
          exact hfits l x r' (List.append_inj' heq rfl).1
  have hok := (presence_ok_run h0 hk h hidle).stored.ok
  refine ⟨fun c p hc hopen hp n => ?_, hrun.2⟩
  have hsees := hrun.1 ((is_open_of hc).symm.trans hopen) p (hok.held_online hc hp) (hok.own k c p hc hp)
  rw [hsees n]
  constructor
  · rintro ⟨q, ⟨hon, hmem⟩, hn⟩
    obtain ⟨c', hc', hq⟩ := (hok.players q).1 hon
    exact ⟨_, c', q, hc', hq, hn, hmem⟩
  · rintro ⟨j, c', q, hc', hq, hn, hmem⟩
    exact ⟨q, ⟨hok.held_online hc' hq, hmem⟩, hn⟩

/-- Dora and Eve have become friends; Dora's client lists Eve. -/
theorem dora_lists_eve : ∃ tr s, tameMachine.Run (.fresh two_players) tr s ∧ ascii "Eve" ∈ list_of 0 tr := by
  have hkeyed : two_players.table.Keyed := by constructor <;> decide +kernel
  obtain ⟨s, hplay, hv⟩ := Option.map_eq_some_iff.1
    (show ((Server.fresh two_players).play [0, 1] (fun s => (s.world.env.now == 0 && s.roomy) && s.one_session_each [0, 1])
      (script (dora_asks_eve ++ [eve_answers]))).map (fun s =>
        ((s.clients 0).map fun c => (c.is_open, c.current_state.character),
          (s.clients 1).map fun c => c.current_state.character, decide (2 ∈ s.world.db.get_friends_of 1))) =
      some (some (true, some ⟨5, 1, ascii "Dora", 0⟩), some (some ⟨12, 2, ascii "Eve", 1⟩), true) by decide +kernel)
  simp only [Prod.mk.injEq, Option.map_eq_some_iff, decide_eq_true_eq] at hv
  obtain ⟨⟨c0, hc0, hopen, hdora⟩, ⟨c1, hc1, heve⟩, hfriends⟩ := hv
  obtain ⟨tr, hrun, _, hall⟩ := play_tame (.init two_players_tame.1) (fun _ _ => rfl)
    (fun s hs => (Bool.and_eq_true_iff.1 hs).1) (script_quiet (dora_asks_eve ++ [eve_answers]) (by decide +kernel)) hplay
  have hone : ∀ x ∈ tr, x.pre.OneSessionEach := fun x hx =>
    one_session_each_of (Bool.and_eq_true_iff.1 (hall x hx).2).2 (hall x hx).1
  have hschema : schemaMachine.Run (.fresh two_players) tr s := hrun.of_steps fun _ _ hs => steady_is_server hs.2
  have hidle := touches_idle_of_one_session two_players_init hschema hone
  have hlist := (client_lists_friends_online (k := 0) two_players_tame hkeyed hrun hidle).1 c0 ⟨5, 1, ascii "Dora", 0⟩ hc0
    hopen (.inl (holds_iff_character.2 hdora)) (ascii "Eve")
  exact ⟨tr, s, hrun, hlist.2 ⟨1, c1, ⟨12, 2, ascii "Eve", 1⟩, hc1, .inl (holds_iff_character.2 heve), rfl, hfriends⟩⟩

end runs

end tejk_it_izi
