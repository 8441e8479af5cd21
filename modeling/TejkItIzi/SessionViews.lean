import TejkItIzi.PacketPhases
/-!
# What a client can tell of its session

The packets of a session come in an order that makes sense: the list of characters
before anything about them, the game only after a character of that list. A client
that follows them knows what state its session is in, and the list to the letter.
-/

namespace tejk_it_izi

open ProgLib

/-! ## The view of a client -/

inductive View where
  | preauth
  /-- In the lobby, without the list yet. -/
  | loading
  | lobby (chars : List LobbyCharacter)
  | ingame
  | refused
  deriving DecidableEq

/-- What the next packet adds to it; `none` if no such packet comes then. -/
def View.next : View → Packet → Option View
  | .preauth, .good_boy_good_keys => some .loading
  | .preauth, .fuck_you_bad_keys => some .refused
  | .loading, .character_list l => some (.lobby l)
  | .lobby chars, .character_list l =>
    -- One character is gone.
    if ∃ ch ∈ chars, l = chars.eraseP (·.name = ch.name) then some (.lobby l) else none
  | .lobby chars, .character_created ch => if chars.length < 5 then some (.lobby (chars ++ [ch])) else none
  | .lobby chars, .character_creation_fail _ => some (.lobby chars)
  | .lobby chars, .character_selected ch => if ch ∈ chars then some .ingame else none
  | .ingame, .moved_to_lobby => some .loading
  | .ingame, p => if p.phase = .ingame ∧ p.changes = none then some .ingame else none
  | _, _ => none

/-- After all these packets. -/
def View.after (v : View) (ps : List Packet) : Option View := ps.foldlM View.next v

/-- What the client of an open session should think. -/
def MmoClient.view (c : MmoClient) : Option View :=
  if c.is_open = true then
    match c.current_state, c.state_awaiting_transition with
    | .null_state, _ => none
    | .preauth_state, none => some .preauth
    | .preauth_state, some _ => some .loading
    -- The list is sent before the first packet is waited for.
    | .lobby_state _ chars, none => some (if c.receiving = true then .lobby chars else .loading)
    | .lobby_state _ _, some _ => some .ingame
    | .ingame_state _ _, _ => some .ingame
  else none

def Server.view (s : Server) (k : SessionId) : Option View :=
  match s.clients k with
  | none => some .preauth
  | some c => c.view

section views

variable {v v' v'' : View} {p : Packet} {ps qs : List Packet} {k : SessionId} {c : MmoClient} {st : ClientState}
  {acc : AccountData} {chars : List LobbyCharacter}

@[simp] theorem after_nil : v.after [] = some v := rfl

@[simp] theorem after_cons : v.after (p :: ps) = (v.next p).bind (·.after ps) := List.foldlM_cons

theorem after_append (h : v.after ps = some v') : v.after (ps ++ qs) = v'.after qs := by
  unfold View.after at h ⊢
  rw [List.foldlM_append, h]
  rfl

theorem next_news (h : p.News) : View.ingame.next p = some .ingame := by
  cases p with
  | moved_to_lobby => cases h.2
  | _ => first | rfl | cases h.1

theorem after_news (h : ∀ p ∈ ps, p.News) : View.ingame.after ps = some .ingame := by
  induction ps with
  | nil => rfl
  | cons p ps ih =>
    rw [after_cons, next_news (h p List.mem_cons_self)]
    exact ih fun q hq => h q (List.mem_cons_of_mem _ hq)

theorem view_closed (h : c.is_open = false) : c.view = none := by
  unfold MmoClient.view
  rw [if_neg (by simp [h])]

theorem view_at {s : Server} (hc : s.clients k = some c) : s.view k = c.view := by
  unfold Server.view
  rw [hc]

/-- Who is in the game, or about to enter or leave it, thinks it is. -/
theorem Outstanding.view_holds {ts : List Task} {ls : List (SessionId × Nat)} (h : Outstanding k c ts ls)
    {p : EntityPtr} (hp : c.Holds p) : c.view = none ∨ c.view = some .ingame := by
  cases h with
  | receive st =>
    rcases hp with hp | ⟨_, hp, _⟩
    · cases st <;> first | exact .inr rfl | cases hp
    · cases hp
  | transition st new_state hf =>
    cases hf with
    | login acc =>
      rcases hp with hp | ⟨_, h1, hp⟩
      · cases hp
      · cases h1
        cases hp
    | enter | leave => exact .inr rfl
  | load | loaded => rcases hp with hp | ⟨_, hp, _⟩ <;> cases hp
  | closing | closed => exact .inl rfl

theorem Outstanding.view_none {ts : List Task} {ls : List (SessionId × Nat)} (h : Outstanding k c ts ls)
    (hn : c.view = none) : c.is_open = false := by
  cases h with
  | closing | closed => rfl
  | receive st _ hst => cases st <;> first | exact absurd rfl hst | cases hn
  | transition st st' hf => cases hf <;> cases hn
  | load | loaded => cases hn

end views

/-! ## The session's own handler -/

/-- A client with this view follows what the handler of its session sends, and has
the right view then. -/
def Progress.Follows (g : Progress) (k : SessionId) (v : View) : Prop :=
  ∃ v', v.after (addressed k g.packets) = some v' ∧ ∀ v'' ∈ g.client.view, v'' = v'

section own

variable {k : SessionId} {c : MmoClient} {w : World} {g : Progress} {u v : View} {data : Buffer} {len : Nat}
  {acc : AccountData} {chars : List LobbyCharacter}

theorem follows_closed (h : v.after (addressed k g.packets) = some u) (hclosed : g.client.is_open = false) :
    g.Follows k v := by
  refine ⟨u, h, fun v' hv => ?_⟩
  rw [view_closed hclosed] at hv
  cases hv

theorem follows_open (h : v.after (addressed k g.packets) = some u) (hview : g.client.view = some u) :
    g.Follows k v := by
  refine ⟨u, h, fun v' hv => ?_⟩
  rw [hview] at hv
  cases hv
  rfl

theorem PreauthEffect.follows {valid : Bytes → Bytes → Bool} {keys : Keys} (h : PreauthEffect k c w valid keys g)
    (hopen : c.is_open = true) (hcur : c.current_state = .preauth_state) : g.Follows k .preauth := by
  cases h with
  | unknown_opcode | bad_keys => exact follows_closed (u := .refused) (by simp [Progress.closing, View.next]) rfl
  | malformed => exact follows_closed (u := .preauth) rfl rfl
  | lookup_fails => exact follows_closed (u := .loading) (by simp [Progress.closing, View.next]) rfl
  | login key login acc w' =>
    refine follows_open (u := .loading) (by simp [Progress.changing, View.next]) ?_
    simp [MmoClient.view, Progress.changing, hopen, hcur]

theorem LobbyEffect.follows {request : LobbyRequest} (h : LobbyEffect k c w acc chars request g)
    (hq : w.notices = []) (hready : c.Ready) (hcur : c.current_state = .lobby_state acc chars) :
    g.Follows k (.lobby chars) := by
  have hlobby {st : ClientState} {acc' : AccountData} {chars' : List LobbyCharacter} (h : st = .lobby_state acc' chars') :
      ({ c with current_state := st, receiving := true } : MmoClient).view = some (.lobby chars') := by
    simp [MmoClient.view, hready.is_open, hready.no_transition, h]
  have hlisted {name : Bytes} {ch : LobbyCharacter} (hf : chars.find? (·.name = name) = some ch) :
      ch ∈ chars ∧ ch.name = name :=
    ⟨List.mem_of_find?_eq_some hf, by simpa using List.find?_some hf⟩
  cases h with
  | ignored => exact follows_open rfl (hlobby hcur)
  | log_off | select_absent | create_lookup_fails | create_fails | delete_absent | delete_fails =>
    exact follows_closed (u := .lobby chars) rfl rfl
  | select_fails name ch e hf =>
    refine follows_closed (u := .loading) ?_ rfl
    simp [Progress.closing, View.next, (hlisted hf).1]
  | select name ch w' hf hfree hef =>
    refine follows_open (u := .ingame) ?_ ?_
    · show View.after (.lobby chars) (addressed k ((k, .character_selected ch) :: w'.mails)) = _
      rw [addressed_own, after_cons]
      simp only [View.next, (hlisted hf).1, if_true, Option.bind_some]
      exact after_news (addressed_news (register_news hq hef))
    · simp [MmoClient.view, Progress.changing, hready.is_open, hcur]
  | create_refused name reason => exact follows_open (by simp [Progress.waiting, View.next]) (hlobby hcur)
  | create_taken name => exact follows_open (by simp [Progress.waiting, View.next]) (hlobby hcur)
  | create name hfew => exact follows_open (by simp [Progress.waiting, View.next, hfew]) (hlobby rfl)
  | delete name ch hf =>
    refine follows_open ?_ (hlobby rfl)
    have hgone : ∃ ch' ∈ chars, chars.eraseP (·.name = name) = chars.eraseP (·.name = ch'.name) :=
      ⟨ch, (hlisted hf).1, by rw [(hlisted hf).2]⟩
    simp only [Progress.waiting, addressed_own, addressed_nil, after_cons, View.next, if_pos hgone, Option.bind_some,
      after_nil]

theorem IngameEffect.follows {p : EntityPtr} {request : IngameRequest} (h : IngameEffect k c w p acc request g)
    (hq : w.notices = []) (hready : c.Ready) (hcur : c.current_state = .ingame_state p acc) : g.Follows k .ingame := by
  have hnews := after_news (addressed_news (k := k) (h.news hq))
  have hingame {st : Option ClientState} {status : AsyncOperationStatus} {receiving : Bool} :
      ({ c with state_awaiting_transition := st, async_state := status, receiving := receiving } : MmoClient).view =
        some .ingame := by
    simp [MmoClient.view, hready.is_open, hcur]
  cases h with
  | ignored | chat | friends | log_off => exact follows_open hnews hingame
  | friends_fail => exact follows_closed hnews rfl

theorem PacketEffect.follows {valid : Bytes → Bytes → Bool} (h : PacketEffect k c w valid data len g)
    (hq : w.notices = []) (hready : c.Ready)
    (hview : ({ c with receiving := true } : MmoClient).view = some v) : g.Follows k v := by
  unfold MmoClient.view at hview
  simp only [hready.is_open, if_true, hready.no_transition] at hview
  cases h with
  | preauth g hcur he =>
    rw [hcur] at hview
    cases hview
    exact he.follows hready.is_open hcur
  | lobby_malformed acc chars e hcur =>
    exact follows_closed (u := v) rfl rfl
  | ingame_malformed => exact follows_closed (u := v) rfl rfl
  | lobby acc chars request g hcur hr he =>
    rw [hcur] at hview
    cases hview
    exact he.follows hq hready hcur
  | ingame p acc request g hcur hr he =>
    rw [hcur] at hview
    cases hview
    exact he.follows hq hready hcur

end own

/-! ## Every handler -/

/-- The client of session `k`, whatever it thinks, follows the step from `s` to `s'`. -/
structure Server.Follows (s s' : Server) (k : SessionId) : Prop where
  closed : s.view k = none → s'.wire k = [] ∧ s'.view k = none
  follows : ∀ v ∈ s.view k, ∃ v', v.after (s'.wire k) = some v' ∧ ∀ v'' ∈ s'.view k, v'' = v'

section handlers

variable {s s' s0 : Server} {k j : SessionId} {c : MmoClient} {g : Progress} {w : World} {v : View} {st : ClientState}
  {ps : List (SessionId × Packet)}

theorem view_progress : (s.progress k g).view k = g.client.view := by
  unfold Server.view
  rw [progress_client]

theorem view_progress_ne (h : k ≠ j) : (s.progress j g).view k = s.view k := by
  unfold Server.view
  rw [progress_client_ne h]

theorem ServerOk.online_view (hok : ServerOk s) {p : EntityPtr} (hp : s.world.online p) :
    s.view p.my_session = none ∨ s.view p.my_session = some .ingame := by
  obtain ⟨c, hc, hholds⟩ := (hok.players p).1 hp
  rw [view_at hc]
  exact (hok.outstanding _ c hc).view_holds hholds

theorem ServerOk.view_none (hok : ServerOk s) (h : s.view k = none) : s.is_open k = false := by
  cases hc : s.clients k with
  | none =>
    unfold Server.view at h
    rw [hc] at h
    cases h
  | some c =>
    rw [view_at hc] at h
    rw [← is_open_of hc]
    exact (hok.outstanding k c hc).view_none h

/-- A session that waits for a packet is seen by its client. -/
theorem ServerOk.view_of_receiving (hok : ServerOk s) {k : SessionId} {c : MmoClient} (hc : s.clients k = some c)
    (hrecv : c.receiving = true) :
    ({ c with receiving := false } : MmoClient).Ready ∧ s.is_open k = true ∧ ∃ v, s.view k = some v := by
  obtain ⟨_, _, _, hready⟩ := (hok.outstanding k c hc).of_receiving hrecv
  have hopen : s.is_open k = true := (is_open_of hc).symm.trans hready.is_open
  refine ⟨hready, hopen, Option.ne_none_iff_exists'.1 fun hnone => ?_⟩
  rw [hok.view_none hnone] at hopen
  cases hopen

/-- A handler that is not the session's: news for a player, or nothing. -/
theorem follows_news (hok : ServerOk s) (hnews : ∀ m ∈ ps, m.1 = k → NewsFor s.world m) (hview : s'.view k = s.view k)
    (hwire : s'.wire k = if s.is_open k = true then addressed k ps else []) : s.Follows s' k := by
  refine ⟨fun hnone => ?_, fun v hv => ⟨v, ?_, fun v'' h => ?_⟩⟩
  · rw [hwire, hok.view_none hnone, hview]
    exact ⟨if_neg Bool.false_ne_true, hnone⟩
  · have hfor : ∀ p ∈ addressed k ps, p.News ∧ s.view k = some .ingame := by
      intro p hp
      obtain ⟨hn, q, hq, hon⟩ := hnews _ (mem_addressed.1 hp) rfl
      have hq' : q.my_session = k := hq
      subst hq'
      refine ⟨hn, (hok.online_view hon).resolve_left fun hnone => ?_⟩
      rw [hnone] at hv
      cases hv
    rw [hwire]
    split
    · cases hps : addressed k ps with
      | nil => rfl
      | cons p rest =>
        rw [hps] at hfor
        have hingame := (hfor p List.mem_cons_self).2
        rw [hingame] at hv
        cases hv
        exact after_news fun p hp => (hfor p hp).1
    · rfl
  · rw [hview, Option.mem_def.1 hv] at h
    exact (Option.some.inj h).symm

theorem follows_other (hok : ServerOk s) (hclients : s0.clients = s.clients) (hs : s0.sent = []) (hne : k ≠ j)
    (hnews : OnlyNews s.world j g.packets) : s.Follows (s0.progress j g) k := by
  refine follows_news hok (fun m hm hk => hnews m hm (hk ▸ hne)) ?_ ?_
  · rw [view_progress_ne hne]
    unfold Server.view
    rw [hclients]
  · rw [wire_progress hs]
    unfold Server.is_open
    rw [hclients]

theorem follows_own (hs : s0.sent = []) (hopen : s0.is_open k = true) (hv : s.view k = some v) (h : g.Follows k v) :
    s.Follows (s0.progress k g) k := by
  obtain ⟨v', hafter, hview⟩ := h
  refine ⟨fun hnone => ?_, fun v0 hv0 => ⟨v', ?_, ?_⟩⟩
  · rw [hv] at hnone
    cases hnone
  · rw [hv] at hv0
    cases hv0
    rwa [wire_progress hs, if_pos hopen]
  · rwa [view_progress]

/-- The session says nothing, and nothing changes for its client. -/
theorem follows_nothing (hs : s0.sent = []) (hg : g.packets = []) (hview : g.client.view = s.view k) :
    s.Follows (s0.progress k g) k := by
  have hwire : (s0.progress k g).wire k = [] := by
    rw [wire_progress hs, hg, addressed_nil, ite_self]
  refine ⟨fun hnone => ?_, fun v hv => ⟨v, ?_, fun v'' h => ?_⟩⟩
  · rw [hwire, view_progress, hview]
    exact ⟨rfl, hnone⟩
  · rw [hwire]
    rfl
  · rw [view_progress, hview, Option.mem_def.1 hv] at h
    exact (Option.some.inj h).symm

/-- A transition is silent, except for one that leaves the game. -/
theorem transition_follows {rest : List Task} (hok : ServerOk s) (hs : s.sent = []) (hq : s.world.notices = [])
    (hstrand : s.sync_strand = .transition k :: rest) (hc : s.clients k = some c)
    (hst : c.state_awaiting_transition = some st) (hd : Destroyed k s.world c.current_state w ps) :
    s.Follows (({ s with sync_strand := rest } : Server).progress k
      ((⟨c.entered st, w, ps, [], []⟩ : Progress).started k st)) k := by
  obtain ⟨hopen, _, hf⟩ := hok.follows hstrand hc hst
  have hopen' : ({ s with sync_strand := rest } : Server).is_open k = true := (is_open_of hc).symm.trans hopen
  have hview : s.view k = c.view := view_at hc
  have hnot : c.receiving = false := (hok.only_task hstrand hc).1.of_transition.2.2.2.1
  generalize hcur : c.current_state = cur at hf hd
  cases hf with
  | login acc =>
    obtain ⟨_, hps⟩ := (hd.phase hq).resolve_left (by rintro ⟨_, _, _, h, _⟩; cases h)
    refine follows_nothing hs (by rw [started_packets]; exact hps) ?_
    rw [hview]
    simp [MmoClient.view, Progress.started, MmoClient.entered, hopen, hcur, hst, hnot]
  | enter acc chars p =>
    obtain ⟨_, hps⟩ := (hd.phase hq).resolve_left (by rintro ⟨_, _, _, h, _⟩; cases h)
    refine follows_nothing hs (by rw [started_packets]; exact hps) ?_
    rw [hview]
    simp [MmoClient.view, Progress.started, Progress.waiting, MmoClient.entered, hopen, hcur, hst]
  | leave p acc =>
    obtain ⟨_, _, ms, _, hps, hms⟩ := (hd.phase hq).resolve_right fun h => h.1 p rfl
    have hingame : s.view k = some .ingame := by
      rw [hview]
      simp [MmoClient.view, hopen, hcur]
    refine follows_own hs hopen' hingame (follows_open (u := .loading) ?_ ?_)
    · rw [started_packets]
      show View.ingame.after (addressed k ps) = _
      rw [hps, addressed_append, after_append (after_news (addressed_news hms)), addressed_own, addressed_nil]
      rfl
    · simp [MmoClient.view, Progress.started, MmoClient.entered, hopen, hnot]

theorem HandlerEffect.follows {hd : Handler} (he : HandlerEffect s hd s') (hok : ServerOk s) (hs : s.sent = [])
    (hq : s.world.notices = []) (k : SessionId) : s.Follows s' k := by
  have hnone {j : SessionId} : OnlyNews s.world j [] := fun m hm => by cases hm
  have hheld {j : SessionId} {c : MmoClient} (hc : s.clients j = some c) (p : EntityPtr)
      (hp : c.current_state.holds p) : s.world.online p := by
    refine (hok.players p).2 ⟨c, ?_, .inl hp⟩
    rwa [hok.own j c p hc (.inl hp)]
  cases he with
  | on_accept j hj =>
    by_cases hk : k = j
    · subst hk
      refine follows_nothing hs rfl ?_
      unfold Server.view
      rw [hj]
      rfl
    · exact follows_other hok rfl hs hk hnone
  | on_recv j data size c g hc hrecv hsize he =>
    by_cases hk : k = j
    · subst hk
      obtain ⟨hready, hopen, v, hv⟩ := hok.view_of_receiving hc hrecv
      have hsame : ({ ({ c with receiving := false } : MmoClient) with receiving := true } : MmoClient) = c := by
        rw [← hrecv]
      refine follows_own hs hopen hv (he.follows hq hready ?_)
      rw [hsame, ← view_at hc, hv]
    · exact follows_other hok rfl hs hk (he.only_news hok.world hq)
  | on_error j c hc hrecv =>
    by_cases hk : k = j
    · subst hk
      obtain ⟨_, hopen, v, hv⟩ := hok.view_of_receiving hc hrecv
      exact follows_own hs hopen hv (follows_closed rfl rfl)
    · exact follows_other hok rfl hs hk hnone
  | transition j rest c st w ps hstrand hc hst hd =>
    by_cases hk : k = j
    · subst hk
      exact transition_follows hok hs hq hstrand hc hst hd
    · refine follows_other hok rfl hs hk ?_
      rw [started_packets]
      exact hd.only_news hok.world hq (hheld hc)
  | finalize j rest c w ps hstrand hc hd =>
    by_cases hk : k = j
    · subst hk
      obtain ⟨hout, _⟩ := hok.only_task hstrand hc
      have hclosed := hout.of_finalize.2.2.1
      have hgone : s.view k = none := (view_at hc).trans (view_closed hclosed)
      refine ⟨fun _ => ⟨?_, ?_⟩, fun v hv => ?_⟩
      · rw [wire_progress (s := { s with sync_strand := rest }) hs]
        exact if_neg (by rw [show ({ s with sync_strand := rest } : Server).is_open k = s.is_open k from rfl,
          ← is_open_of hc, hclosed]; exact Bool.false_ne_true)
      · rw [view_progress]
        exact view_closed hclosed
      · rw [hgone] at hv
        cases hv
    · exact follows_other hok rfl hs hk (hd.only_news hok.world hq (hheld hc))
  | lobby_chars_loaded j rest chars c acc old hstrand hc hst =>
    by_cases hk : k = j
    · subst hk
      obtain ⟨hout, _⟩ := hok.only_task hstrand hc
      obtain ⟨_, _, acc', old', rfl⟩ := hout.of_loaded
      have hloading : s.view k = some .loading := (view_at hc).trans rfl
      have hopen : s.is_open k = true := (is_open_of hc).symm
      exact follows_own hs hopen hloading (follows_open (u := .lobby chars) (by simp [Progress.waiting, View.next]) rfl)
    · refine follows_other hok rfl hs hk fun m hm hne => ?_
      rw [List.mem_singleton.1 hm] at hne
      exact absurd rfl hne
  | load j id rest c hstrand hc =>
    by_cases hk : k = j
    · subst hk
      exact follows_nothing hs rfl (view_at hc).symm
    · exact follows_other hok rfl hs hk hnone
  | periodic_broadcast c ns he =>
    exact follows_news hok (fun m hm _ => chat_news hok.world hq he m hm) rfl (wire_put_world hs)
  | periodic_cleanup w he =>
    have hmails : w.mails = [] := by
      cases he
      simp [World.mails, hq]
    exact follows_news hok (fun m hm _ => by rw [hmails] at hm; cases hm) rfl (wire_put_world hs)

theorem step_follows {ev : ServerEvent} (hok : ServerOk s) (hs : serverMachine.step s ev s') (k : SessionId) :
    s.Follows s' k := by
  cases ev with
  | handler hd =>
    obtain ⟨o, ha, hr⟩ := hs
    obtain ⟨hb, he⟩ := handler_effect hok ha hr
    exact ⟨(he.follows hb rfl rfl k).closed, (he.follows hb rfl rfl k).follows⟩
  | reorder =>
    obtain ⟨w, _, _, rfl⟩ := hs
    refine ⟨fun hnone => ⟨rfl, hnone⟩, fun v hv => ⟨v, rfl, fun v'' h => ?_⟩⟩
    exact (Option.some.inj (hv.symm.trans h)).symm

end handlers

/-! ## Runs -/

section runs

variable {s0 s : Server} {tr : List (Taken Server ServerEvent)} {k : SessionId}

/-- Over every run, all that is written for a session makes sense to a client that
knows nothing but these packets; and as long as the session is open the client is
right about the state it is in, and has the list of its characters. -/
theorem client_view_exact (h0 : serverMachine.init s0) (h : serverMachine.Run s0 tr s) :
    ∃ v, View.preauth.after (tr.flatMap fun x => x.post.wire k) = some v ∧ ∀ v' ∈ s.view k, v' = v := by
  induction h with
  | nil =>
    obtain ⟨db, rfl, _⟩ := h0
    refine ⟨.preauth, rfl, fun v' hv' => ?_⟩
    cases hv'
    rfl
  | @snoc tr s ev s' hr hs ih =>
    obtain ⟨v, hafter, hview⟩ := ih
    have hf := step_follows (reachable_server_ok ((Machine.Reachable.init h0).run hr)) hs k
    rw [List.flatMap_append, List.flatMap_singleton, after_append hafter]
    cases hv : s.view k with
    | none =>
      obtain ⟨hwire, hgone⟩ := hf.closed hv
      refine ⟨v, by rw [hwire]; rfl, fun v' hv' => ?_⟩
      rw [hgone] at hv'
      cases hv'
    | some v0 =>
      obtain rfl := hview v0 hv
      exact hf.follows v0 hv

/-- Dora's client knows that she has one character. -/
theorem dora_sees_her_list : ∃ s0 tr, serverMachine.init s0 ∧ serverMachine.Run s0 tr dora_listed ∧
    View.preauth.after (tr.flatMap fun x => x.post.wire 0) = some (.lobby [⟨9, ascii "Dora"⟩]) := by
  obtain ⟨s0, tr, h0, hr⟩ := dora_listed_reachable
  obtain ⟨v, hafter, hview⟩ := client_view_exact (k := 0) h0 hr
  have hv : .lobby [⟨9, ascii "Dora"⟩] = v := hview _ rfl
  exact ⟨s0, tr, h0, hr, hv ▸ hafter⟩

end runs

end tejk_it_izi
