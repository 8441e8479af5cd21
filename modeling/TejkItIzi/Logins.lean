import TejkItIzi.Playing
/-!
# Logins

A session gets into the lobby or the game by its first packet only, with a key
and a login that were accepted, and is of that login's account ever after. Its
lists name characters that were stored for the account, and so does a selection.
-/

namespace tejk_it_izi

open ProgLib

/-- In this step session `k` sends a key of 64 bytes and a login, the validator
accepts them, and the account of the login is `acc`. -/
def LogsIn (k : SessionId) (acc : AccountData) (x : Taken Server ServerEvent) : Prop :=
  ∃ data size key login o, x.event = .handler (.on_recv k data size) ∧
    (Handler.on_recv k data size).run (x.pre.begin o) = .ok () x.post ∧ preauth_state.read data size = .keys key login ∧
    key.length = 64 ∧ o.are_loginkey_and_username_valid key login = true ∧
    x.pre.world.db.get_account_data login = some acc

theorem preauth_read_key {data : Buffer} {len : Nat} {key login : Bytes}
    (h : preauth_state.read data len = .keys key login) : key.length = 64 := by
  unfold preauth_state.read at h
  split at h
  · cases h
  split at h
  case isFalse => cases h
  split at h
  · cases h
  split at h
  case isTrue => cases h
  next hlen =>
  cases h
  exact not_not.1 hlen

/-! ## What a move brings -/

section moves

variable {k : SessionId} {db : Database} {valid : Bytes → Bytes → Bool} {occasion : Occasion} {st st' : Seat}
  {t' : CharacterTable} {acc : AccountData}

/-- An account comes by a login, and stays. -/
theorem Move.account (hm : Move k db valid occasion st st' t') (h : st'.account = some acc) :
    st.account = some acc ∨ st = .vacant ∧ st' = .expecting acc ∧
      ∃ key login, occasion = .login key login ∧ valid key login = true ∧ db.get_account_data login = some acc := by
  cases hm with
  | login key login acc' hv hacc =>
    cases h
    exact .inr ⟨rfl, rfl, key, login, rfl, hv, hacc⟩
  | finalize => cases h
  | _ => exact .inl h

/-- A listed character was listed before, or is stored. -/
theorem Move.listed (hm : Move k db valid occasion st st' t') (h : st'.account = some acc) {ch : LobbyCharacter}
    (hch : ch ∈ st'.listed) : ch ∈ st.listed ∨ (⟨ch.uid, acc.uid, ch.name⟩ : CharacterRow) ∈ t'.rows := by
  cases hm with
  | stays | arrive => exact .inl hch
  | fetch acc' =>
    cases h
    exact .inr (CharacterTable.mem_of_account.1 hch)
  | create acc' chars name =>
    cases h
    rcases List.mem_append.1 hch with hch | hch
    · exact .inl hch
    · rw [List.mem_singleton.1 hch]
      exact .inr (List.mem_append_right _ (List.mem_singleton.2 rfl))
  | delete acc' chars name ch' hf => exact .inl (List.mem_of_mem_eraseP hch)
  | _ => cases hch

/-- A character in the game was there before, or listed. -/
theorem Move.character (hm : Move k db valid occasion st st' t') {p : EntityPtr} (hp : st'.character = some p) :
    st.character = some p ∨ (⟨p.id, p.name⟩ : LobbyCharacter) ∈ st.listed := by
  cases hm with
  | stays | enter | leave | close_game => exact .inl hp
  | select acc' chars name ch p' hf hid hname =>
    cases hp
    have hch : ch.name = name := by simpa using List.find?_some hf
    rw [hid, hname, ← hch]
    exact .inr (List.mem_of_find?_eq_some hf)
  | _ => cases hp

end moves

section sessions

variable {s s' : Server} {k : SessionId} {c : MmoClient} {acc : AccountData} {ev : ServerEvent}

/-! ## The first packet -/

/-- The session is new, or not yet there. -/
def Server.Unheard (s : Server) (k : SessionId) : Prop :=
  ∀ c, s.clients k = some c → c.current_state = .preauth_state ∧ c.state_awaiting_transition = none ∧ c.is_open = true

theorem PacketEffect.heard {w : World} {valid : Bytes → Bytes → Bool} {data : Buffer} {len : Nat} {g : Progress}
    (he : PacketEffect k c w valid data len g) :
    ¬ (g.client.current_state = .preauth_state ∧ g.client.state_awaiting_transition = none ∧ g.client.is_open = true) := by
  rintro ⟨hst, hawait, hopen⟩
  cases he with
  | preauth _ _ hp =>
    generalize preauth_state.read data len = keys at hp
    cases hp with
    | login => cases hawait
    | _ => cases hopen
  | lobby_malformed | ingame_malformed => cases hopen
  | lobby acc chars request _ hcur _ hl =>
    cases hl with
    | ignored | create_refused | create_taken => cases hcur.symm.trans hst
    | select => cases hawait
    | create | delete => cases hst
    | _ => cases hopen
  | ingame p acc request _ hcur _ hi =>
    cases hi with
    | log_off => cases hawait
    | friends_fail => cases hopen
    | _ => cases hcur.symm.trans hst

theorem HandlerEffect.unheard_back {hd : Handler} (he : HandlerEffect s hd s') (h : ServerOk s) (hu : s'.Unheard k) :
    s.Unheard k ∧ ∀ data size, hd ≠ .on_recv k data size := by
  have back {s0 : Server} (h0 : s0.clients = s.clients) {j : SessionId} {g : Progress}
      (hu : (s0.progress j g).Unheard k)
      (own : k = j → g.client.current_state = .preauth_state ∧ g.client.state_awaiting_transition = none ∧
        g.client.is_open = true → s.Unheard k) : s.Unheard k := by
    by_cases hkj : k = j
    · subst hkj
      exact own rfl (hu g.client progress_client)
    · intro c hc
      refine hu c ?_
      rw [progress_client_ne hkj, h0]
      exact hc
  -- The session's own handler leaves it new only by accepting it.
  cases he with
  | on_accept j hj =>
    refine ⟨back rfl hu ?_, by simp⟩
    rintro rfl _ c hc
    rw [hj] at hc
    cases hc
  | on_recv j data size c0 g hc0 hrecv hsize he =>
    refine ⟨back rfl hu fun _ hnew => absurd hnew he.heard, ?_⟩
    rintro _ _ ⟨⟩
    exact he.heard (hu g.client progress_client)
  | on_error j c0 =>
    refine ⟨back rfl hu fun _ hnew => ?_, by simp⟩
    cases hnew.2.2
  | transition j rest c0 st w ps hs hc0 hst hd =>
    refine ⟨back rfl hu fun hkj hnew => ?_, by simp⟩
    obtain ⟨_, _, hf⟩ := h.follows hs hc0 hst
    have hcur := hnew.1
    rw [started_state] at hcur
    obtain rfl : st = .preauth_state := hcur
    generalize c0.current_state = cur at hf
    cases hf
  | finalize j | lobby_chars_loaded j =>
    refine ⟨back rfl hu fun _ hnew => ?_, by simp⟩
    cases hnew.1
  | load j id rest c0 hs hc0 =>
    refine ⟨back rfl hu ?_, by simp⟩
    rintro rfl hnew c hc
    rw [hc0] at hc
    cases hc
    exact hnew
  | periodic_broadcast | periodic_cleanup => exact ⟨hu, by simp⟩

/-- A session that is new was new before, and has sent nothing. -/
theorem unheard_back (h : ServerOk s) (hs : schemaMachine.step s ev s') (hu : s'.Unheard k) :
    s.Unheard k ∧ ∀ data size, ev ≠ .handler (.on_recv k data size) := by
  cases ev with
  | reorder =>
    obtain ⟨w, _, _, rfl⟩ := hs
    exact ⟨hu, by simp⟩
  | handler hd =>
    obtain ⟨o, ha, hr⟩ := hs
    obtain ⟨hb, he⟩ := handler_effect h ha hr
    obtain ⟨hnew, hne⟩ := he.unheard_back hb hu
    refine ⟨hnew, ?_⟩
    rintro data size ⟨⟩
    exact hne data size rfl

theorem nothing_received {s0 : Server} {tr : List (Taken Server ServerEvent)} (h0 : schemaMachine.init s0)
    (hr : schemaMachine.Run s0 tr s) (hu : s.Unheard k) :
    ∀ y ∈ tr, ∀ data size, y.event ≠ .handler (.on_recv k data size) := by
  induction hr with
  | nil => simp
  | @snoc tr t e u hr hs ih =>
    obtain ⟨hu', he⟩ := unheard_back (schema_run_ok h0 hr) hs hu
    intro y hy
    rcases List.mem_append.1 hy with hy | hy
    · exact ih hu' y hy
    · rw [List.mem_singleton.1 hy]
      exact he

/-! ## Since the login -/

/-- Step `x` was the login of the session, and `r` the steps since then. -/
structure Since (k : SessionId) (acc : AccountData) (x : Taken Server ServerEvent) (r : List (Taken Server ServerEvent))
    (s : Server) : Prop where
  login : LogsIn k acc x
  account : ∀ y ∈ x :: r, (y.post.seat k).account = some acc
  listed : ∀ ch ∈ (s.seat k).listed,
    ∃ y ∈ x :: r, (⟨ch.uid, acc.uid, ch.name⟩ : CharacterRow) ∈ y.post.world.db.characters
  character : ∀ p, (s.seat k).character = some p → ∃ r1 y r2, x :: r = r1 ++ y :: r2 ∧ r2 ≠ [] ∧
    (⟨p.id, acc.uid, p.name⟩ : CharacterRow) ∈ y.post.world.db.characters

theorem Since.step {x : Taken Server ServerEvent} {r : List (Taken Server ServerEvent)} (h : Since k acc x r s)
    (hacc : (s'.seat k).account = some acc)
    (hlisted : ∀ ch ∈ (s'.seat k).listed, ch ∈ (s.seat k).listed ∨
      (⟨ch.uid, acc.uid, ch.name⟩ : CharacterRow) ∈ s'.world.db.characters)
    (hchar : ∀ p, (s'.seat k).character = some p → (s.seat k).character = some p ∨ ⟨p.id, p.name⟩ ∈ (s.seat k).listed) :
    Since k acc x (r ++ [⟨s, ev, s'⟩]) s' := by
  have before {row : CharacterRow} (h : ∃ y ∈ x :: r, row ∈ y.post.world.db.characters) :
      ∃ r1 y r2, x :: (r ++ [⟨s, ev, s'⟩]) = r1 ++ y :: r2 ∧ r2 ≠ [] ∧ row ∈ y.post.world.db.characters := by
    obtain ⟨y, hy, hrow⟩ := h
    obtain ⟨r1, r2, hr⟩ := List.append_of_mem hy
    exact ⟨r1, y, r2 ++ [⟨s, ev, s'⟩], by rw [← List.cons_append, hr]; simp, by simp, hrow⟩
  refine ⟨h.login, fun y hy => ?_, fun ch hch => ?_, fun p hp => ?_⟩
  · rw [← List.cons_append, List.mem_append, List.mem_singleton] at hy
    rcases hy with hy | rfl
    · exact h.account y hy
    · exact hacc
  · rcases hlisted ch hch with hold | hrow
    · obtain ⟨y, hy, hrow⟩ := h.listed ch hold
      exact ⟨y, by rw [← List.cons_append]; exact List.mem_append_left _ hy, hrow⟩
    · exact ⟨⟨s, ev, s'⟩, by simp, hrow⟩
  · rcases hchar p hp with hold | hold
    · obtain ⟨r1, y, r2, hr, _, hrow⟩ := h.character p hold
      exact before ⟨y, by rw [hr]; simp, hrow⟩
    · exact before (h.listed _ hold)

/-- A session that is logged in has a login in its past, and nothing before it. -/
theorem login_history {s0 : Server} {tr : List (Taken Server ServerEvent)} (h0 : schemaMachine.init s0)
    (hr : schemaMachine.Run s0 tr s) (hacc : (s.seat k).account = some acc) :
    ∃ l x r, tr = l ++ x :: r ∧ (∀ y ∈ l, ∀ data size, y.event ≠ .handler (.on_recv k data size)) ∧
      Since k acc x r s := by
  induction hr with
  | nil =>
    obtain ⟨db, rfl, _⟩ := h0
    cases hacc
  | @snoc tr t e u hr hs ih =>
    have hok := schema_run_ok h0 hr
    have later (hacc' : (t.seat k).account = some acc)
        (hlisted : ∀ ch ∈ (u.seat k).listed, ch ∈ (t.seat k).listed ∨
          (⟨ch.uid, acc.uid, ch.name⟩ : CharacterRow) ∈ u.world.db.characters)
        (hchar : ∀ p, (u.seat k).character = some p → (t.seat k).character = some p ∨ ⟨p.id, p.name⟩ ∈ (t.seat k).listed) :
        ∃ l x r, tr ++ [⟨t, e, u⟩] = l ++ x :: r ∧
          (∀ y ∈ l, ∀ data size, y.event ≠ .handler (.on_recv k data size)) ∧ Since k acc x r u := by
      obtain ⟨l, x, r, rfl, hfirst, hsince⟩ := ih hacc'
      exact ⟨l, x, r ++ [⟨t, e, u⟩], by simp, hfirst, hsince.step hacc hlisted hchar⟩
    have same (hseat : u.seat k = t.seat k) := later (hseat ▸ hacc) (fun ch hch => .inl (hseat ▸ hch))
      fun p hp => .inl (hseat ▸ hp)
    rcases schema_step hok hs with ⟨hd, o, rfl, ⟨_, hrun⟩, j, occasion, hasked, hm, hothers⟩ | ⟨hseat, _⟩
    swap
    · exact same (hseat k)
    by_cases hj : k = j
    swap
    · exact same (hothers k hj)
    subst hj
    rcases hm.account hacc with hacc' | ⟨hvacant, hexpect, key, login, rfl, hvalid, hdata⟩
    · exact later hacc' (fun ch hch => hm.listed hacc hch) fun p hp => hm.character hp
    · -- The login itself: the session was waiting for its first packet.
      obtain ⟨data, size, c, rfl, hc, hst, hread⟩ := hasked
      obtain ⟨⟨c', hc', hrecv⟩, _⟩ := ‹Handler.Admitted _ _ _›.enabled
      rw [hc] at hc'
      cases hc'
      have hout := hok.outstanding k c hc
      have hnew : t.Unheard k := by
        intro c' hc'
        rw [hc] at hc'
        cases hc'
        obtain ⟨_, _, _, hready⟩ := hout.of_receiving hrecv
        exact ⟨hst, hready.no_transition, hready.is_open⟩
      refine ⟨tr, ⟨t, _, u⟩, [], rfl, nothing_received h0 hr hnew,
        ⟨⟨data, size, key, login, o, rfl, hrun, hread, preauth_read_key hread, hvalid, hdata⟩, ?_, ?_, ?_⟩⟩
      · simpa using hacc
      · rw [hexpect]
        exact fun ch hch => absurd hch List.not_mem_nil
      · rw [hexpect]
        rintro p ⟨⟩

/-- A session that is in the lobby or the game, or on its way there, has logged in
with its first packet, is of the account it logged in with ever since, and has only
characters in the game that were, at an earlier moment since then, stored for that
account. -/
theorem authenticated_since_login {s0 : Server} {tr : List (Taken Server ServerEvent)} (h0 : schemaMachine.init s0)
    (hr : schemaMachine.Run s0 tr s) (hc : s.clients k = some c) (hlog : c.LoggedIn acc) :
    ∃ l x r, tr = l ++ x :: r ∧ LogsIn k acc x ∧ (∀ y ∈ l, ∀ data size, y.event ≠ .handler (.on_recv k data size)) ∧
      (∀ y ∈ x :: r, ∃ c', y.post.clients k = some c' ∧ ∀ a, c'.LoggedIn a ↔ a = acc) ∧
      ∀ p, c.Holds p → ∃ r1 y r2, x :: r = r1 ++ y :: r2 ∧ r2 ≠ [] ∧
        (⟨p.id, acc.uid, p.name⟩ : CharacterRow) ∈ y.post.world.db.characters := by
  have hok := schema_run_ok h0 hr
  obtain ⟨l, x, r, rfl, hfirst, hsince⟩ := login_history h0 hr ((hok.logged_in_iff hc).2 hlog)
  refine ⟨l, x, r, rfl, hsince.login, hfirst, fun y hy => ?_, fun p hp => hsince.character p ((hok.holds_iff hc).2 hp)⟩
  have hacc := hsince.account y hy
  obtain ⟨c', hc'⟩ := client_of_seat hacc
  have hmem : y ∈ l ++ x :: r := List.mem_append_right _ hy
  have hpost : ServerOk y.post := server_ok_step (schema_server_ok (hr.reachable_pre (.init h0) hmem)) (hr.step_of_mem hmem)
  refine ⟨c', hc', fun a => ?_⟩
  rw [← hpost.logged_in_iff hc', hacc]
  exact ⟨fun h => (Option.some.inj h).symm, fun h => congrArg some h.symm⟩

theorem dora_has_logged_in : ∃ tr s c, schemaMachine.Run (.fresh two_accounts) tr s ∧ s.clients 0 = some c ∧
    c.Holds ⟨5, 9, ascii "Dora", 0⟩ ∧ (∃ x ∈ tr, LogsIn 0 ⟨7, ascii "dora", [], [], 0⟩ x) ∧
    ∃ y ∈ tr, (⟨9, 7, ascii "Dora"⟩ : CharacterRow) ∈ y.post.world.db.characters := by
  obtain ⟨tr, s, hr, hv, _⟩ := play_fresh [0] (fun _ => true)
    (enters_lobby 0 (ascii "dora") ++ [selects 0 (ascii "Dora"), .next_task])
    (fun s => (s.clients 0).map (·.current_state))
    (some (.ingame_state ⟨5, 9, ascii "Dora", 0⟩ ⟨7, ascii "dora", [], [], 0⟩)) two_accounts_init
    (by decide +kernel)
  obtain ⟨c, hc, hst⟩ := Option.map_eq_some_iff.1 hv
  have hholds : c.Holds ⟨5, 9, ascii "Dora", 0⟩ := .inl (by rw [hst]; rfl)
  have hlog : c.LoggedIn ⟨7, ascii "dora", [], [], 0⟩ := .inl (by rw [hst]; rfl)
  obtain ⟨l, x, r, rfl, hlogin, _, _, hchars⟩ := authenticated_since_login two_accounts_init hr hc hlog
  obtain ⟨r1, y, r2, hsplit, _, hrow⟩ := hchars _ hholds
  exact ⟨_, s, c, hr, hc, hholds, ⟨x, by simp, hlogin⟩, y, by rw [hsplit]; simp, hrow⟩

end sessions

end tejk_it_izi
