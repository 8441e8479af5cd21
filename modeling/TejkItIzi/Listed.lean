import TejkItIzi.PacketPhases
/-!
# Characters on their way

The lists of the sessions and the packets show rows of the table, as they were when
they were read. What holds of every row all along holds of all that is shown.
-/

namespace tejk_it_izi

open ProgLib

variable {P : LobbyCharacter → Prop}

/-- Every row is like this. -/
def Database.Rows (P : LobbyCharacter → Prop) (db : Database) : Prop := ∀ r ∈ db.characters, P ⟨r.id, r.nickname⟩

/-- The characters that a packet tells of. -/
def Packet.characters : Packet → List LobbyCharacter
  | .character_list l => l
  | .character_selected ch | .character_created ch => [ch]
  | _ => []

def Packet.Shows (P : LobbyCharacter → Prop) (p : Packet) : Prop := ∀ ch ∈ p.characters, P ch

/-- Every character that a session lists, or will list, is like this. -/
structure Listed (P : LobbyCharacter → Prop) (s : Server) : Prop where
  lists : ∀ k c acc chars, s.clients k = some c → c.current_state = .lobby_state acc chars → ∀ ch ∈ chars, P ch
  loaded : ∀ k chars, Task.lobby_chars_loaded k chars ∈ s.sync_strand → ∀ ch ∈ chars, P ch

/-- What a handler leaves, and shows. -/
structure ListedKept (P : LobbyCharacter → Prop) (g : Progress) : Prop where
  list : ∀ acc chars, g.client.current_state = .lobby_state acc chars → ∀ ch ∈ chars, P ch
  loaded : ∀ k chars, Task.lobby_chars_loaded k chars ∈ g.tasks → ∀ ch ∈ chars, P ch
  shown : ∀ m ∈ g.packets, m.2.Shows P

section effects

variable {k : SessionId} {c : MmoClient} {w w' : World} {g : Progress} {acc : AccountData}
  {chars : List LobbyCharacter} {ps : List (SessionId × Packet)} {p : Packet}

@[simp] theorem shows_moved_to_lobby : Packet.moved_to_lobby.Shows P := fun _ h => absurd h List.not_mem_nil

@[simp] theorem shows_character_selected {ch : LobbyCharacter} : (Packet.character_selected ch).Shows P ↔ P ch :=
  List.forall_mem_singleton

@[simp] theorem shows_character_created {ch : LobbyCharacter} : (Packet.character_created ch).Shows P ↔ P ch :=
  List.forall_mem_singleton

theorem shows_news (h : p.News) : p.Shows P := by
  intro ch hch
  cases p with
  | character_list | character_selected | character_created => cases h.1
  | _ => cases hch

/-- The session keeps its list, and shows nothing of it. -/
theorem ListedKept.of_same (hlist : ∀ acc chars, c.current_state = .lobby_state acc chars → ∀ ch ∈ chars, P ch)
    (hst : g.client.current_state = c.current_state) (ht : ∀ k chars, Task.lobby_chars_loaded k chars ∉ g.tasks)
    (hshown : ∀ m ∈ g.packets, m.2.Shows P) : ListedKept P g where
  list acc chars h := hlist acc chars (hst ▸ h)
  loaded k chars h := absurd h (ht k chars)
  shown := hshown

theorem PreauthEffect.listed {valid : Bytes → Bytes → Bool} {keys : Keys} (he : PreauthEffect k c w valid keys g)
    (hlist : ∀ acc chars, c.current_state = .lobby_state acc chars → ∀ ch ∈ chars, P ch) : ListedKept P g := by
  cases he with
  | unknown_opcode | malformed | bad_keys | lookup_fails =>
    exact .of_same hlist rfl (by simp [Progress.closing, Progress.start])
      (by simp [Progress.closing, Progress.start, Packet.Shows, Packet.characters])
  | login =>
    exact .of_same hlist rfl (by simp [Progress.changing]) (by simp [Progress.changing, Packet.Shows, Packet.characters])

theorem LobbyEffect.listed {request : LobbyRequest} (he : LobbyEffect k c w acc chars request g)
    (hq : w.notices = []) (hst : c.current_state = .lobby_state acc chars) (hv : ∀ ch ∈ chars, P ch)
    (hrows : g.world.db.Rows P) : ListedKept P g := by
  have hlist : ∀ acc chars, c.current_state = .lobby_state acc chars → ∀ ch ∈ chars, P ch := by
    intro acc' chars' h
    rw [hst] at h
    cases h
    exact hv
  have hfound {name : Bytes} {ch : LobbyCharacter} (hf : chars.find? (·.name = name) = some ch) : P ch :=
    hv ch (List.mem_of_find?_eq_some hf)
  cases he with
  | select name ch w' hf hfree hef =>
    refine .of_same hlist rfl (by simp [Progress.changing]) fun m hm => ?_
    rcases List.mem_cons.1 hm with rfl | hm
    · exact shows_character_selected.2 (hfound hf)
    · exact shows_news (register_news hq hef m hm)
  | select_fails name ch e hf =>
    refine .of_same hlist rfl (by simp [Progress.closing]) fun m hm => ?_
    have hm' : m ∈ [(k, Packet.character_selected ch), (k, .moved_to_lobby)] := hm
    simp only [List.mem_cons, List.not_mem_nil, or_false] at hm'
    rcases hm' with rfl | rfl
    · exact shows_character_selected.2 (hfound hf)
    · exact shows_moved_to_lobby
  | create name hfull hname hfree =>
    -- The new character is the new row.
    have hnew : P ⟨w.db.next_character_id, name⟩ :=
      hrows ⟨w.db.next_character_id, acc.uid, name⟩ (List.mem_append_right _ (List.mem_singleton_self _))
    refine ⟨fun acc' chars' h ch hch => ?_, by simp [Progress.waiting], fun m hm => ?_⟩
    · cases h
      rcases List.mem_append.1 hch with hch | hch
      · exact hv ch hch
      · rw [List.mem_singleton.1 hch]
        exact hnew
    · rw [List.mem_singleton.1 hm]
      exact shows_character_created.2 hnew
  | delete name ch hf =>
    have hleft : ∀ ch ∈ chars.eraseP (·.name = name), P ch := fun ch hch => hv ch (List.mem_of_mem_eraseP hch)
    refine ⟨fun acc' chars' h ch hch => ?_, by simp [Progress.waiting], fun m hm ch hch => ?_⟩
    · cases h
      exact hleft ch hch
    · rw [List.mem_singleton.1 hm] at hch
      exact hleft ch hch
  | ignored | create_refused | create_taken =>
    exact .of_same hlist rfl (by simp [Progress.waiting, Progress.start])
      (by simp [Progress.waiting, Progress.start, Packet.Shows, Packet.characters])
  | log_off | select_absent | create_lookup_fails | create_fails | delete_absent | delete_fails =>
    exact .of_same hlist rfl (by simp [Progress.closing, Progress.start])
      (by simp [Progress.closing, Progress.start])

theorem IngameEffect.listed {p : EntityPtr} {request : IngameRequest} (he : IngameEffect k c w p acc request g)
    (hq : w.notices = []) (hlist : ∀ acc chars, c.current_state = .lobby_state acc chars → ∀ ch ∈ chars, P ch) :
    ListedKept P g := by
  have hnews : ∀ m ∈ g.packets, m.2.Shows P := fun m hm => shows_news (he.news hq m hm)
  cases he with
  | ignored | chat | friends => exact .of_same hlist rfl (by simp [Progress.waiting, Progress.start]) hnews
  | log_off => exact .of_same hlist rfl (by simp [Progress.changing, Progress.start]) hnews
  | friends_fail => exact .of_same hlist rfl (by simp [Progress.closing]) hnews

theorem PacketEffect.listed {valid : Bytes → Bytes → Bool} {data : Buffer} {len : Nat}
    (he : PacketEffect k c w valid data len g) (hq : w.notices = [])
    (hlist : ∀ acc chars, c.current_state = .lobby_state acc chars → ∀ ch ∈ chars, P ch)
    (hrows : g.world.db.Rows P) : ListedKept P g := by
  cases he with
  | preauth _ hst hp => exact hp.listed hlist
  | lobby acc chars request _ hst hr hl => exact hl.listed hq hst (hlist acc chars hst) hrows
  | ingame p acc request _ hst hr hl => exact hl.listed hq hlist
  | lobby_malformed | ingame_malformed =>
    exact .of_same hlist rfl (by simp [Progress.closing, Progress.start]) (by simp [Progress.closing, Progress.start])

theorem Destroyed.shown {st : ClientState} (h : Destroyed k w st w' ps) (hq : w.notices = []) :
    ∀ m ∈ ps, m.2.Shows P := by
  cases h with
  | ingame_state p acc w1 c ns hf hc =>
    intro m hm
    simp only [List.mem_append, List.mem_singleton] at hm
    rcases hm with (hm | hm) | rfl
    · exact shows_news (mails_news (hf.news hq) m hm)
    · exact shows_news (mails_news (fun n hn => hc.news n (by simpa [World.quiet] using hn)) m hm)
    · exact shows_moved_to_lobby
  | other => exact fun m hm => absurd hm List.not_mem_nil

theorem PacketDeath.shown {data : Buffer} {len : Nat} {f : Fault} (h : PacketDeath k c w data len f g) (hok : WorldOk w)
    (hq : w.notices = []) (hlist : ∀ acc chars, c.current_state = .lobby_state acc chars → ∀ ch ∈ chars, P ch) :
    ∀ m ∈ g.packets, m.2.Shows P := by
  cases h with
  | preauth e g hcur he =>
    generalize preauth_state.read data len = keys at he
    cases he with
    | no_opcode => exact fun m hm => absurd hm List.not_mem_nil
    | lookup_throws =>
      intro m hm
      rw [List.mem_singleton.1 hm]
      exact fun ch hch => absurd hch List.not_mem_nil
  | select acc chars name ch w' hcur hr hfind hclash =>
    intro m hm
    rcases List.mem_cons.1 hm with rfl | hm
    · exact shows_character_selected.2 (hlist acc chars hcur ch (List.mem_of_find?_eq_some hfind))
    · exact shows_news (mails_news (fun n hn => (clash_news hclash hok hq n hn).1) m hm)

end effects

/-! ## Every step -/

section steps

variable {s s' s0 : Server} {k : SessionId} {c : MmoClient} {g : Progress} {hd : Handler} {w : World}

theorem Listed.progress (h : Listed P s) (hclients : s0.clients = s.clients)
    (htasks : ∀ t ∈ s0.sync_strand, t ∈ s.sync_strand) (hg : ListedKept P g) : Listed P (s0.progress k g) where
  lists j c acc chars hc hst := by
    by_cases hj : j = k
    · subst hj
      rw [progress_client] at hc
      cases hc
      exact hg.list acc chars hst
    · rw [progress_client_ne hj, hclients] at hc
      exact h.lists j c acc chars hc hst
  loaded j chars hmem := by
    rcases List.mem_append.1 hmem with hmem | hmem
    · exact h.loaded j chars (htasks _ hmem)
    · exact hg.loaded j chars hmem

/-- A lobby is entered with no list. -/
theorem Follows.no_list {st : ClientState} {acc : AccountData} {chars : List LobbyCharacter}
    (h : Follows st (.lobby_state acc chars)) : chars = [] := by
  cases h with
  | login | leave => rfl

theorem shown_progress (hs : s.sent = []) (hg : ∀ m ∈ g.packets, m.2.Shows P) :
    ∀ m ∈ (s.progress k g).sent, m.packet.Shows P := fun m hm => hg _ (sent_progress hs m hm)

theorem shown_put_world (hs : s.sent = []) (hw : ∀ m ∈ w.mails, m.2.Shows P) :
    ∀ m ∈ (s.put_world w).sent, m.packet.Shows P := fun m hm => hw _ (sent_put_world hs m hm)

/-- The table is like this before and after the handler. -/
theorem HandlerEffect.listed (he : HandlerEffect s hd s') (h : ServerOk s) (hl : Listed P s) (hs : s.sent = [])
    (hq : s.world.notices = []) (hpre : s.world.db.Rows P) (hpost : s'.world.db.Rows P) :
    Listed P s' ∧ ∀ m ∈ s'.sent, m.packet.Shows P := by
  have kept {s0 : Server} {k : SessionId} {g : Progress} (hclients : s0.clients = s.clients)
      (htasks : ∀ t ∈ s0.sync_strand, t ∈ s.sync_strand) (hs0 : s0.sent = []) (hg : ListedKept P g) :
      Listed P (s0.progress k g) ∧ ∀ m ∈ (s0.progress k g).sent, m.packet.Shows P :=
    ⟨hl.progress hclients htasks hg, shown_progress hs0 hg.shown⟩
  have rest_of {t : Task} {rest : List Task} (hs' : s.sync_strand = t :: rest) : ∀ u ∈ rest, u ∈ s.sync_strand := by
    intro u hu
    rw [hs']
    exact List.mem_cons_of_mem _ hu
  cases he with
  | on_accept k hk =>
    exact kept rfl (fun t ht => ht) hs
      (.of_same (c := .accepted) (by simp [MmoClient.accepted]) rfl (by simp [Progress.start]) (by simp [Progress.start]))
  | on_recv k data size c g hc hr hsize he =>
    exact kept rfl (fun t ht => ht) hs (he.listed hq (hl.lists k c · · hc) hpost)
  | on_error k c hc hr =>
    exact kept rfl (fun t ht => ht) hs
      (.of_same (hl.lists k c · · hc) rfl (by simp [Progress.closing, Progress.start])
        (by simp [Progress.closing, Progress.start]))
  | transition k rest c st w ps hs' hc hst hd =>
    obtain ⟨_, _, hf⟩ := h.follows hs' hc hst
    refine kept rfl (rest_of hs') hs ⟨fun acc chars hcur => ?_, by simp, ?_⟩
    · rw [started_state] at hcur
      change st = .lobby_state acc chars at hcur
      subst hcur
      rw [hf.no_list]
      exact fun ch hch => absurd hch List.not_mem_nil
    · rw [started_packets]
      exact hd.shown hq
  | finalize k rest c w ps hs' hc hd =>
    exact kept rfl (rest_of hs') hs ⟨fun acc chars hcur => (by cases hcur), by simp, hd.shown hq⟩
  | lobby_chars_loaded k rest chars c acc old hs' hc hst =>
    have hchars := hl.loaded k chars (by rw [hs']; exact List.mem_cons_self)
    refine kept rfl (rest_of hs') hs ⟨fun acc' chars' hcur => ?_, by simp [Progress.waiting], fun m hm => ?_⟩
    · cases hcur
      exact hchars
    · rw [List.mem_singleton.1 hm]
      exact hchars
  | load k id rest c hs' hc =>
    refine kept rfl (fun t ht => ht) hs
      ⟨fun acc chars => hl.lists k c acc chars hc, fun j chars hmem ch hch => ?_, by simp⟩
    cases List.mem_singleton.1 hmem
    obtain ⟨r, hr, rfl⟩ := List.mem_map.1 hch
    exact hpre r (List.mem_filter.1 hr).1
  | periodic_broadcast c ns he =>
    refine ⟨⟨hl.lists, hl.loaded⟩, shown_put_world hs fun m hm => ?_⟩
    exact shows_news (mails_news (fun n hn => he.news n (by simpa [hq] using hn)) m hm)
  | periodic_cleanup w he =>
    exact ⟨⟨hl.lists, hl.loaded⟩, shown_put_world hs fun m hm => shows_news (mails_news (he.news hq) m hm)⟩

theorem HandlerDeath.shown (he : HandlerDeath s hd s') (hok : WorldOk s.world) (hl : Listed P s) (hs : s.sent = [])
    (hq : s.world.notices = []) : ∀ m ∈ s'.sent, m.packet.Shows P := by
  cases he with
  | on_recv k data size c f g hc hr hsize hdies hdeath =>
    exact shown_progress hs (hdeath.shown hok hq (hl.lists k c · · hc))
  | load k id rest c hs' hc => exact shown_progress (s := { s with database_strand := rest }) hs (by simp)

end steps

end tejk_it_izi
