import TejkItIzi.Nicknames
import TejkItIzi.PacketExceptions
/-!
# What the database is told

`psql_facade` puts a string between quotes as it is, and relies on its callers:
the validator knows only names of letters, a name is checked before a character
is created, and a character to be selected or deleted is on the list. A friend
to be removed is looked up by the name the packet gives, which nobody checks.
-/

namespace tejk_it_izi

open ProgLib

def LobbyRequest.supplied : LobbyRequest → Option Bytes
  | .request_character_select char_name => some char_name
  | .request_character_create char_name => some char_name
  | .request_character_delete char_name => some char_name
  | _ => none

def IngameRequest.supplied : IngameRequest → Option Bytes
  | .friend_add friend_name => some friend_name
  | .friend_remove friend_name => some friend_name
  | _ => none

/-- The string of a packet that can get into a statement: the login, or the name
the request is about. -/
def ClientState.supplied (data : Buffer) (size : Nat) : ClientState → Option Bytes
  | .null_state => none
  | .preauth_state => match preauth_state.read data size with
    | .keys _ account_login => some account_login
    | _ => none
  | .lobby_state _ _ => (lobby_state_recv_packet_factory.construct data size).toOption.bind LobbyRequest.supplied
  | .ingame_state _ _ => (ingame_state_recv_packet_factory.construct data size).toOption.bind IngameRequest.supplied

/-- The statement has this string in its literal. -/
def Statement.Carries (st : Statement) (value : Bytes) : Prop := ∃ before after, st.splice = some (before, value, after)

/-- Every statement the packet causes, whether or not its handler returns, is
read as it is meant, and its literal, if it has one, is the packet's string. -/
def StaysData (s : Server) (k : SessionId) (c : MmoClient) (data : Buffer) (size : Nat) : Prop :=
  ∀ st ∈ (endState (mmoclient.on_recv k data size) s).world.statements,
    st.Exact ∧ ∀ value, st.Carries value → c.current_state.supplied data size = some value

/-- In the game, a friend is to be removed whose name has a quote. -/
def RemovesQuotedFriend (c : MmoClient) (data : Buffer) (size : Nat) : Prop :=
  ∃ p acc name, c.current_state = .ingame_state p acc ∧
    ingame_state_recv_packet_factory.construct data size = .ok (.friend_remove name) ∧ quote ∈ name

/-- `isalpha` in the C locale. -/
def isalpha (c : UInt8) : Bool := (65 ≤ c && c ≤ 90) || (97 ≤ c && c ≤ 122)

/-- `dummy_validator`; it does not look at the key. -/
def dummy_validator.are_loginkey_and_username_valid (_loginkey login : Bytes) : Bool :=
  login == ascii "krzysztof" || login == ascii "mirek" || login == ascii "foo"

theorem dummy_validator_letters {loginkey login : Bytes}
    (h : dummy_validator.are_loginkey_and_username_valid loginkey login = true) : ∀ b ∈ login, isalpha b = true := by
  simp only [dummy_validator.are_loginkey_and_username_valid, Bool.or_eq_true, beq_iff_eq] at h
  rcases h with (rfl | rfl) | rfl <;> decide +kernel

theorem no_quote_of_letters {name : Bytes} (h : ∀ c ∈ name, isalpha c = true) : quote ∉ name := by
  intro hq
  have := h quote hq
  simp [isalpha, quote] at this

theorem no_quote_of_valid {name : Bytes} (h : valid_nickname name) : quote ∉ name := by
  intro hq
  have := h.2.2 quote hq
  simp [isalnum, quote] at this

theorem Statement.exact_iff_carries (st : Statement) : st.Exact ↔ ∀ value, st.Carries value → quote ∉ value := by
  rw [st.exact_iff]
  exact ⟨fun h value ⟨before, after, hs⟩ => h before value after hs,
    fun h before value after hs => h value ⟨before, after, hs⟩⟩

@[simp] theorem carries_erase {name value : Bytes} : (Statement.erase_character name).Carries value ↔ name = value := by
  simp [Statement.Carries, Statement.splice]

@[simp] theorem carries_lookup {name value : Bytes} : (Statement.char_name_to_uid name).Carries value ↔ name = value := by
  simp [Statement.Carries, Statement.splice]

@[simp] theorem carries_create {owner : Nat} {name value : Bytes} :
    (Statement.create_character owner name).Carries value ↔ name = value := by
  simp [Statement.Carries, Statement.splice]

@[simp] theorem carries_account {login value : Bytes} : (Statement.account login).Carries value ↔ login = value := by
  simp [Statement.Carries, Statement.splice]

/-- The other statements have no literal. -/
theorem carries_nothing {st : Statement} {value : Bytes} (h : st.splice = none) : ¬ st.Carries value := by
  simp [Statement.Carries, h]

section effects

variable {k : SessionId} {c : MmoClient} {w w' : World} {g : Progress} {acc : AccountData}
  {chars : List LobbyCharacter} {st : Statement} {data : Buffer} {len : Nat} {value : Bytes}

/-- The friend system puts one string into a statement, that of a removal. -/
theorem FriendEffect.carries {op : FriendOp} {res : Option StdException} (h : FriendEffect w op res w')
    (hw : w.statements = []) (hst : st ∈ w'.statements) (hv : st.Carries value) :
    ∃ p, op = .process_req_friend_remove p value := by
  cases h with
  | register_me p =>
    simp only [World.with_registry_statements, World.friended_statements, World.executed_statements, hw,
      List.nil_append, List.mem_singleton] at hst
    exact absurd hv (carries_nothing (hst ▸ rfl))
  | register_me_fails p e =>
    simp only [World.executed_statements, hw, List.nil_append, List.mem_singleton] at hst
    exact absurd hv (carries_nothing (hst ▸ rfl))
  | add_match p name q =>
    simp only [World.committed_statements, World.friended_statements, hw, List.nil_append, List.mem_singleton] at hst
    exact absurd hv (carries_nothing (hst ▸ rfl))
  | remove_lookup_fails p name e =>
    simp only [World.executed_statements, hw, List.nil_append, List.mem_singleton] at hst
    rw [hst, carries_lookup] at hv
    exact ⟨p, by rw [hv]⟩
  | remove_fail p name =>
    simp only [World.friended_statements, World.executed_statements, hw, List.nil_append, List.mem_singleton] at hst
    rw [hst, carries_lookup] at hv
    exact ⟨p, by rw [hv]⟩
  | remove_offline p name | remove_online p name =>
    simp only [World.committed_statements, World.friended_statements, World.executed_statements, hw, List.nil_append,
      List.cons_append, List.mem_cons, List.not_mem_nil, or_false] at hst
    rcases hst with rfl | rfl
    · rw [carries_lookup] at hv
      exact ⟨p, by rw [hv]⟩
    · exact absurd hv (carries_nothing rfl)
  | unregister_me | add_fail | add_waiting | add_recorded | cleanup =>
    simp only [World.with_registry_statements, World.friended_statements, hw, List.not_mem_nil] at hst

/-- A removal begins with the lookup. -/
theorem FriendEffect.looks_up {p : EntityPtr} {name : Bytes} {res : Option StdException}
    (h : FriendEffect w (.process_req_friend_remove p name) res w') : .char_name_to_uid name ∈ w'.statements := by
  cases h <;> simp

/-- The account lookup puts the login into a statement. -/
theorem lookup_carries {login : Bytes} (hw : w.statements = []) (hst : st ∈ (w.account_lookup login).2.statements)
    (hv : st.Carries value) : login = value := by
  rcases account_lookup_world w login with h | ⟨id, h⟩
  · rw [h, World.executed_statements, hw, List.nil_append, List.mem_singleton] at hst
    rw [hst, carries_account] at hv
    exact hv
  · rw [h, World.executed_statements, World.executed_statements, hw] at hst
    simp only [List.nil_append, List.cons_append, List.mem_cons, List.not_mem_nil, or_false] at hst
    rcases hst with rfl | rfl
    · exact carries_account.1 hv
    · exact absurd hv (carries_nothing rfl)

theorem PreauthEffect.carries {valid : Bytes → Bytes → Bool} {keys : Keys} (he : PreauthEffect k c w valid keys g)
    (hw : w.statements = []) (hst : st ∈ g.world.statements) (hv : st.Carries value) :
    ∃ key, keys = .keys key value ∧ valid key value = true := by
  cases he with
  | unknown_opcode | malformed | bad_keys => exact absurd (hw ▸ hst) List.not_mem_nil
  | lookup_fails key login w' hvalid hl =>
    obtain rfl : login = value := lookup_carries hw (by rw [hl]; exact hst) hv
    exact ⟨key, rfl, hvalid⟩
  | login key login acc w' hvalid hl =>
    obtain rfl : login = value := lookup_carries hw (by rw [hl]; exact hst) hv
    exact ⟨key, rfl, hvalid⟩

/-- In the lobby, a string that gets into a statement is a valid nickname. -/
theorem LobbyEffect.carries {request : LobbyRequest} (he : LobbyEffect k c w acc chars request g)
    (hchars : ∀ ch ∈ chars, valid_nickname ch.name) (hw : w.statements = []) (hst : st ∈ g.world.statements)
    (hv : st.Carries value) : request.supplied = some value ∧ valid_nickname value := by
  have herase {name : Bytes} {ch : LobbyCharacter} (hf : chars.find? (·.name = name) = some ch)
      (hst : st ∈ w.statements ++ [.erase_character ch.name]) : name = value ∧ valid_nickname value := by
    rw [hw, List.nil_append, List.mem_singleton] at hst
    rw [hst, carries_erase] at hv
    have hname : ch.name = name := by simpa using List.find?_some hf
    exact ⟨hname.symm.trans hv, hv ▸ valid_of_find hchars hf⟩
  cases he with
  | ignored | log_off | select_absent | create_refused | delete_absent => exact absurd (hw ▸ hst) List.not_mem_nil
  | select_fails name ch e =>
    have hst' : st ∈ w.statements ++ [.friends_of ch.uid] := hst
    rw [hw, List.nil_append, List.mem_singleton] at hst'
    exact absurd hv (carries_nothing (hst' ▸ rfl))
  | select name ch w' hf hfree hef =>
    obtain ⟨p, hp⟩ := hef.carries hw hst hv
    cases hp
  | create_taken name hfull hname | create_lookup_fails name hfull hname =>
    have hst' : st ∈ w.statements ++ [.char_name_to_uid name] := hst
    rw [hw, List.nil_append, List.mem_singleton] at hst'
    rw [hst', carries_lookup] at hv
    exact ⟨congrArg some hv, hv ▸ hname⟩
  | create_fails name hfull hname | create name hfull hname =>
    have hst' : st ∈ w.statements ++ [.char_name_to_uid name] ++ [.create_character acc.uid name] := hst
    rw [hw] at hst'
    simp only [List.nil_append, List.cons_append, List.mem_cons, List.not_mem_nil, or_false] at hst'
    have hval : name = value := by
      rcases hst' with rfl | rfl
      · exact carries_lookup.1 hv
      · exact carries_create.1 hv
    exact ⟨congrArg some hval, hval ▸ hname⟩
  | delete_fails name ch hf =>
    obtain ⟨h1, h2⟩ := herase hf hst
    exact ⟨congrArg some h1, h2⟩
  | delete name ch hf =>
    obtain ⟨h1, h2⟩ := herase hf hst
    exact ⟨congrArg some h1, h2⟩

theorem IngameEffect.carries {p : EntityPtr} {request : IngameRequest} (he : IngameEffect k c w p acc request g)
    (hw : w.statements = []) (hst : st ∈ g.world.statements) (hv : st.Carries value) :
    request = .friend_remove value := by
  have hremove {op : FriendOp} {res : Option StdException} {w' : World} (hop : IngameRequest.friend_op p request = some op)
      (hef : FriendEffect w op res w') (hst : st ∈ w'.statements) : request = .friend_remove value := by
    obtain ⟨q, rfl⟩ := hef.carries hw hst hv
    cases request <;> simp [IngameRequest.friend_op] at hop ⊢
    exact hop.2
  cases he with
  | ignored | log_off | chat => exact absurd (hw ▸ hst) List.not_mem_nil
  | friends request op w' hop hperm hef => exact hremove hop hef hst
  | friends_fail request op e w' hop hperm hef => exact hremove hop hef hst

theorem IngameEffect.looks_up {p : EntityPtr} {name : Bytes}
    (he : IngameEffect k c w p acc (.friend_remove name) g) : .char_name_to_uid name ∈ g.world.statements := by
  generalize hreq : IngameRequest.friend_remove name = request at he
  cases he with
  | ignored | log_off => cases hreq
  | chat request op c' ns hop => subst hreq; cases hop
  | friends request op w' hop hperm hef => subst hreq; cases hop; exact hef.looks_up
  | friends_fail request op e w' hop hperm hef => subst hreq; cases hop; exact hef.looks_up

/-- A string that gets into a statement is the packet's, and has no quote but in
one case. -/
theorem PacketEffect.carries {valid : Bytes → Bytes → Bool} (he : PacketEffect k c w valid data len g)
    (hlogin : c.current_state = .preauth_state →
      ∀ key login, preauth_state.read data len = .keys key login → valid key login = true → quote ∉ login)
    (hlist : ∀ acc chars, c.current_state = .lobby_state acc chars → ∀ ch ∈ chars, valid_nickname ch.name)
    (hw : w.statements = []) (hst : st ∈ g.world.statements) (hv : st.Carries value) :
    c.current_state.supplied data len = some value ∧ (quote ∈ value → RemovesQuotedFriend c data len) := by
  cases he with
  | preauth g hcur he =>
    obtain ⟨key, hread, hvalid⟩ := he.carries hw hst hv
    rw [hcur]
    exact ⟨by simp only [ClientState.supplied, hread], fun hq => absurd hq (hlogin hcur _ _ hread hvalid)⟩
  | lobby acc chars request g hcur hr he =>
    obtain ⟨h1, h2⟩ := he.carries (hlist acc chars hcur) hw hst hv
    rw [hcur]
    exact ⟨by simp only [ClientState.supplied, hr]; exact h1, fun hq => absurd hq (no_quote_of_valid h2)⟩
  | ingame p acc request g hcur hr he =>
    obtain rfl := he.carries hw hst hv
    rw [hcur]
    exact ⟨by simp only [ClientState.supplied, hr]; rfl, fun hq => ⟨p, acc, value, hcur, hr, hq⟩⟩
  | lobby_malformed | ingame_malformed => exact absurd (hw ▸ hst) List.not_mem_nil

/-- The same of a packet that ends the server. -/
theorem PacketDeath.carries {valid : Bytes → Bytes → Bool} {f : Fault} (he : PacketDeath k c w data len f g)
    (hd : PacketDies k c w valid data len)
    (hlogin : c.current_state = .preauth_state →
      ∀ key login, preauth_state.read data len = .keys key login → valid key login = true → quote ∉ login)
    (hw : w.statements = []) (hst : st ∈ g.world.statements) (hv : st.Carries value) :
    c.current_state.supplied data len = some value ∧ quote ∉ value := by
  unfold PacketDies at hd
  cases he with
  | preauth e g hcur he =>
    rw [hcur] at hd ⊢
    simp only at hd
    unfold ClientState.supplied
    generalize preauth_state.read data len = keys at he hd hlogin ⊢
    cases he with
    | no_opcode => exact absurd (hw ▸ hst) List.not_mem_nil
    | lookup_throws key login w' hl =>
      obtain rfl : login = value := lookup_carries hw (by rw [hl]; exact hst) hv
      exact ⟨rfl, hlogin hcur key login rfl hd.1⟩
  | select acc chars name ch w' hcur hr hf hclash =>
    refine absurd hv (carries_nothing ?_)
    cases hclash with
    | id_in_game => exact absurd (hw ▸ hst) List.not_mem_nil
    | own_friend | name_in_game =>
      have hst' : st ∈ w.statements ++ [.friends_of ch.uid] := hst
      rw [hw, List.nil_append, List.mem_singleton] at hst'
      rw [hst']
      rfl

end effects

/-- In every reachable state, for every packet of a session that waits for one,
every database and every validator that knows only names of letters: the bytes
stay data unless a friend is to be removed whose name has a quote. -/
theorem bytes_stay_data_iff {s : Server} {k : SessionId} {c : MmoClient} {data : Buffer} {size : Nat} {o : Outside}
    (h : serverMachine.Reachable s) (hc : s.clients k = some c) (ha : (Handler.on_recv k data size).Admitted s o)
    (hletters : ∀ key login, o.are_loginkey_and_username_valid key login = true → ∀ b ∈ login, isalpha b = true) :
    StaysData (s.begin o) k c data size ↔ ¬ RemovesQuotedFriend c data size := by
  have hnames := reachable_names_ok h
  have hb := (reachable_server_ok h).begin o
  have hlogin (_ : c.current_state = .preauth_state) (key login : Bytes)
      (_ : preauth_state.read data size = .keys key login) (hv : o.are_loginkey_and_username_valid key login = true) :
      quote ∉ login := no_quote_of_letters (hletters key login hv)
  obtain ⟨⟨c', hc', hrecv⟩, hsize⟩ := ha.enabled
  rw [hc] at hc'
  cases hc'
  rcases on_recv_run hb rfl hc hrecv ha.new_entity ha.new_room data size with ⟨_, g, he, hrun⟩ | ⟨hd, f, g, he, hrun⟩
  · unfold StaysData
    rw [endState_ok hrun]
    constructor
    · rintro hdata ⟨p, acc, name, hcur, hr, hq⟩
      cases he with
      | ingame p' acc' request g hcur' hr' he =>
        cases hr.symm.trans hr'
        obtain ⟨hexact, _⟩ := hdata _ he.looks_up
        exact (Statement.exact_iff_carries _).1 hexact name (carries_lookup.2 rfl) hq
      | ingame_malformed p' acc' e hcur' hr' => cases hr.symm.trans hr'
      | preauth _ h | lobby_malformed _ _ _ h | lobby _ _ _ _ h => cases hcur.symm.trans h
    · intro hno st hst
      have hcarry (value : Bytes) (hv : st.Carries value) :=
        he.carries hlogin (fun acc chars h => hnames.lists k c acc chars hc h) rfl hst hv
      exact ⟨(Statement.exact_iff_carries st).2 fun value hv hq => hno ((hcarry value hv).2 hq),
        fun value hv => (hcarry value hv).1⟩
  · unfold StaysData
    rw [endState_error hrun]
    refine iff_of_true (fun st hst => ?_) ?_
    · have hcarry (value : Bytes) (hv : st.Carries value) := he.carries hd hlogin rfl hst hv
      exact ⟨(Statement.exact_iff_carries st).2 fun value hv => (hcarry value hv).2,
        fun value hv => (hcarry value hv).1⟩
    · rintro ⟨p, acc, name, hcur, _⟩
      unfold PacketDies at hd
      rw [show ({ c with receiving := false } : MmoClient).current_state = _ from hcur] at hd
      exact hd

/-! ## Packets without a quote -/

/-- Where the packet's string gets into a statement unchecked, as a login the
validator accepts or as the name of a friend to be removed, it has no quote. -/
def ClientState.PlainPacket (data : Buffer) (size : Nat) : ClientState → Prop
  | .preauth_state => ∀ key login, preauth_state.read data size = .keys key login → quote ∉ login
  | .ingame_state _ _ => ∀ name, ingame_state_recv_packet_factory.construct data size = .ok (.friend_remove name) →
    quote ∉ name
  | _ => True

/-- A packet, if one comes, is so. -/
def Server.Plain (s : Server) (ev : ServerEvent) : Prop :=
  ∀ k data size c, ev = .handler (.on_recv k data size) → s.clients k = some c → c.current_state.PlainPacket data size

section plain

variable {s s' : Server} {k : SessionId} {w w' : World} {st : Statement}

theorem ClientState.PlainPacket.login {data : Buffer} {size : Nat} {cst : ClientState} {key login : Bytes}
    (h : cst.PlainPacket data size) (hcur : cst = .preauth_state)
    (hread : preauth_state.read data size = .keys key login) : quote ∉ login := by
  subst hcur
  exact h key login hread

theorem ClientState.PlainPacket.removal {data : Buffer} {size : Nat} {cst : ClientState} {p : EntityPtr}
    {acc : AccountData} {name : Bytes} (h : cst.PlainPacket data size) (hcur : cst = .ingame_state p acc)
    (hr : ingame_state_recv_packet_factory.construct data size = .ok (.friend_remove name)) : quote ∉ name := by
  subst hcur
  exact h name hr

theorem Destroyed.same_statements {cst : ClientState} {ps : List (SessionId × Packet)} (h : Destroyed k w cst w' ps) :
    w'.statements = w.statements := by
  cases h with
  | ingame_state p acc w1 c ns hf hc =>
    generalize (none : Option StdException) = res at hf
    cases hf
    rfl
  | other => rfl

theorem lobby_chars_exact (id : Nat) : (Statement.lobby_chars id).Exact :=
  (Statement.exact_iff_carries _).2 fun _ hv => absurd hv (carries_nothing rfl)

/-- Apart from packets, only the load of a list has a statement. -/
theorem HandlerEffect.exact {hd : Handler} (he : HandlerEffect s hd s') (hw : s.world.statements = [])
    (hno : ∀ k data size, hd ≠ .on_recv k data size) : ∀ st ∈ s'.world.statements, st.Exact := by
  intro st hst
  have absurd_of (h : s'.world.statements = s.world.statements) : st.Exact := by
    rw [h, hw] at hst
    cases hst
  cases he with
  | on_recv k data size => exact absurd rfl (hno k data size)
  | transition k rest c st' w ps hs hc hst' hd =>
    refine absurd_of ?_
    show (Progress.started _ k st').world.statements = _
    rw [started_world]
    exact hd.same_statements
  | finalize k rest c w ps hs hc hd => exact absurd_of hd.same_statements
  | load k id rest c =>
    have hst' : st ∈ s.world.statements ++ [.lobby_chars id] := hst
    rw [hw, List.nil_append, List.mem_singleton] at hst'
    exact hst' ▸ lobby_chars_exact id
  | periodic_cleanup w he =>
    refine absurd_of ?_
    generalize (none : Option StdException) = res at he
    cases he
    rfl
  | on_accept | on_error | lobby_chars_loaded | periodic_broadcast => exact absurd_of rfl

/-- If the packet is plain, every statement of the handler is read as it is meant. -/
theorem plain_exact {hd : Handler} {o : Outside} (h : serverMachine.Reachable s) (ha : hd.Admitted s o)
    (hp : s.Plain (.handler hd)) : ∀ st ∈ (endState hd.run (s.begin o)).world.statements, st.Exact := by
  have hnames := reachable_names_ok h
  have hok := reachable_server_ok h
  intro st hst
  rcases handler_ends hok ha with ⟨s', he, hrun⟩ | ⟨f, t, he, hrun⟩
  · rw [endState_ok hrun] at hst
    by_cases hrecv : ∃ k data size, hd = .on_recv k data size
    · obtain ⟨k, data, size, rfl⟩ := hrecv
      cases he with
      | on_recv _ _ _ c g hc _ _ he =>
        have hplain := hp k data size c rfl hc
        refine (Statement.exact_iff_carries st).2 fun value hv hq => ?_
        obtain ⟨p, acc, name, hcur, hr, hname⟩ := (he.carries (fun hcur key login hread _ => hplain.login hcur hread)
          (fun acc chars h => hnames.lists k c acc chars hc h) rfl hst hv).2 hq
        exact hplain.removal hcur hr hname
    · exact he.exact rfl (fun k data size h => hrecv ⟨k, data, size, h⟩) st hst
  · rw [endState_error hrun] at hst
    cases he with
    | on_recv k data size c f g hc _ _ hdies he =>
      have hplain := hp k data size c rfl hc
      refine (Statement.exact_iff_carries st).2 fun value hv => ?_
      exact (he.carries hdies (fun hcur key login hread _ => hplain.login hcur hread) rfl hst hv).2
    | load k id rest c =>
      obtain rfl : st = .lobby_chars id := List.mem_singleton.1 hst
      exact lobby_chars_exact id

/-- So it is in every run of plain packets. -/
theorem plain_run_exact {s0 : Server} {tr : List (Taken Server ServerEvent)} (h0 : serverMachine.init s0)
    (h : serverMachine.Run s0 tr s) (hplain : ∀ x ∈ tr, x.pre.Plain x.event) :
    ∀ x ∈ tr, ∀ st ∈ x.post.world.statements, x.event ≠ .reorder → st.Exact := by
  intro x hx st hst hev
  have hpre := h.reachable_pre (.init h0) hx
  have hstep := h.step_of_mem hx
  have hp := hplain x hx
  obtain ⟨pre, ev, post⟩ := x
  cases ev with
  | handler hd =>
    obtain ⟨o, ha, hrun⟩ := hstep
    exact plain_exact hpre ha hp st (by rw [endState_ok hrun]; exact hst)
  | reorder => exact absurd rfl hev

end plain

/-! ## A player in the game -/

def doras_tables : Database :=
  ⟨[⟨7, ascii "foo", [], []⟩], [], [⟨9, 7, ascii "Dora"⟩], [], 10⟩

/-- The allocator hands out this address. -/
def outside_at (address : Nat) : Outside :=
  ⟨⟨0, 0, address, []⟩, dummy_validator.are_loginkey_and_username_valid⟩

theorem outside_at_letters (address : Nat) (key login : Bytes)
    (h : (outside_at address).are_loginkey_and_username_valid key login = true) : ∀ b ∈ login, isalpha b = true :=
  dummy_validator_letters (show dummy_validator.are_loginkey_and_username_valid key login = true from h)

def login_packet : Bytes :=
  preauth_state_protocol.loginserver_keys :: packed (List.replicate 64 0) ++ packed (ascii "foo")

def select_packet : Bytes := lobby_state_protocol.select_character :: packed (ascii "Dora")

def friend_remove_packet (name : Bytes) : Bytes := ingame_state_protocol.friend_remove :: packed name

def receive (packet : Bytes) : Handler := .on_recv 0 (.of packet) packet.length

def Server.played (s : Server) (address : Nat) (hd : Handler) : Server := endState hd.run (s.begin (outside_at address))

/-- Foo logs in, gets the list of his characters, and selects Dora. -/
def dora_asked : Server := ((Server.fresh doras_tables).played 0 (.on_accept 0)).played 0 (receive login_packet)

def dora_listed : Server := ((dora_asked.played 0 .next_task).played 0 .next_load).played 0 .next_task

def dora_selected : Server := dora_listed.played 0 (receive select_packet)

def dora_in_game : Server := dora_selected.played 1 .next_task

def dora : EntityPtr := ⟨0, 9, ascii "Dora", 0⟩

def doras_session : MmoClient :=
  ⟨.ingame_state dora ⟨7, ascii "foo", [], [], 0⟩, none, .awaiting_packet_poll, true, true⟩

theorem play {s : Server} (address : Nat) (hd : Handler) (h : serverMachine.Reachable s)
    (ha : hd.Admitted s (outside_at address))
    (hr : hd.run (s.begin (outside_at address)) = .ok () (s.played address hd)) :
    serverMachine.Reachable (s.played address hd) := h.step (e := .handler hd) ⟨_, ha, hr⟩

theorem doras_tables_init : serverMachine.init (Server.fresh doras_tables) :=
  ⟨doras_tables, rfl, by decide +kernel⟩

theorem dora_listed_reachable : serverMachine.Reachable dora_listed := by
  have hnobody {o : Outside} (p : EntityPtr) (h : ((fun _ => none : EntityPtr → Option EntityData) p).isSome) :
      p.address ≠ o.env.new_entity := by cases h
  have h1 := play 0 (.on_accept 0) (.init doras_tables_init) ⟨rfl, hnobody, rfl⟩ rfl
  have h2 := play 0 (receive login_packet) h1 ⟨⟨⟨_, rfl, rfl⟩, by decide⟩, hnobody, rfl⟩ rfl
  have h3 := play 0 .next_task h2 ⟨List.cons_ne_nil _ _, hnobody, rfl⟩ rfl
  have h4 := play 0 .next_load h3 ⟨List.cons_ne_nil _ _, hnobody, rfl⟩ rfl
  exact play 0 .next_task h4 ⟨List.cons_ne_nil _ _, hnobody, rfl⟩ rfl

/-- Dora has the address 0. -/
theorem other_address {s : Server} (h : s.world.chat.entities = Function.update (fun _ => none) dora (some ⟨.empty⟩))
    (p : EntityPtr) (hp : (s.world.chat.entities p).isSome) : p.address ≠ (outside_at 1).env.new_entity := by
  rw [h] at hp
  by_cases hc : p = dora
  · subst hc
    decide
  · rw [Function.update_of_ne hc] at hp
    cases hp

theorem dora_in_game_reachable : serverMachine.Reachable dora_in_game := by
  have h1 := play 0 (receive select_packet) dora_listed_reachable
    ⟨⟨⟨_, rfl, rfl⟩, by decide⟩, fun p h => (by cases h), rfl⟩ rfl
  exact play 1 .next_task h1 ⟨List.cons_ne_nil _ _, other_address rfl, rfl⟩ rfl

theorem dora_in_game_receives (packet : Bytes) (h : packet.length ≤ buffer_size) :
    (receive packet).Admitted dora_in_game (outside_at 1) := ⟨⟨⟨doras_session, rfl, rfl⟩, h⟩, other_address rfl, rfl⟩

/-- Without a quote the name is read as it is meant. -/
theorem plain_name_stays_data : StaysData (dora_in_game.begin (outside_at 1)) 0 doras_session
    (.of (friend_remove_packet (ascii "Bob"))) (friend_remove_packet (ascii "Bob")).length := by
  refine (bytes_stay_data_iff dora_in_game_reachable rfl (dora_in_game_receives _ (by decide))
    (outside_at_letters 1)).2 ?_
  rintro ⟨p, acc, name, _, hr, hq⟩
  have hname : ingame_state_recv_packet_factory.construct (.of (friend_remove_packet (ascii "Bob")))
      (friend_remove_packet (ascii "Bob")).length = .ok (.friend_remove (ascii "Bob")) := by rfl
  cases hname.symm.trans hr
  revert hq
  decide

/-- With one it is not: this lookup asks for any character. -/
theorem quoted_name_is_code : serverMachine.Reachable dora_in_game ∧ dora_in_game.clients 0 = some doras_session ∧
    (receive (friend_remove_packet (ascii "' OR ''='"))).Admitted dora_in_game (outside_at 1) ∧
    (∀ key login, (outside_at 1).are_loginkey_and_username_valid key login = true → ∀ b ∈ login, isalpha b = true) ∧
    ¬ StaysData (dora_in_game.begin (outside_at 1)) 0 doras_session
      (.of (friend_remove_packet (ascii "' OR ''='"))) (friend_remove_packet (ascii "' OR ''='")).length := by
  refine ⟨dora_in_game_reachable, rfl, dora_in_game_receives _ (by decide),
    outside_at_letters 1, fun h => ?_⟩
  obtain ⟨hexact, _⟩ := h (.char_name_to_uid (ascii "' OR ''='")) (List.mem_singleton.2 rfl)
  revert hexact
  decide

end tejk_it_izi
