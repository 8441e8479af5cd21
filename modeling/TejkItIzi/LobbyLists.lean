import TejkItIzi.Playing
/-!
# The lists of the lobby

A lobby checks a request against its own list of characters, which is read once
and kept up to date by its own requests only. While every account has one
session, the list is what the table says; several sessions of an account have
lists that are out of date.
-/

namespace tejk_it_izi

open ProgLib

section lists

variable {k : SessionId} {db : Database} {valid : Bytes → Bytes → Bool} {occasion : Occasion} {st st' other : Seat}
  {t t' : CharacterTable} {uid : Nat}

/-! ## Whose the listed ids are -/

/-- A listed id is no longer stored, or stored for the same account. -/
def Seat.EntriesOwned (st : Seat) (t : CharacterTable) : Prop :=
  ∀ acc, st.account = some acc → ∀ ch ∈ st.listed, ch.uid < t.next_id ∧
    ∀ r ∈ t.rows, r.id = ch.uid → r.owner_account_id = acc.uid

theorem Seat.EntriesOwned.insert (h : st.EntriesOwned t) (name : Bytes) (owner : Nat) :
    st.EntriesOwned (t.insert name owner) := by
  intro acc hacc ch hch
  obtain ⟨hlt, hown⟩ := h acc hacc ch hch
  refine ⟨Nat.lt_succ_of_lt hlt, fun r hr hid => ?_⟩
  rcases List.mem_append.1 hr with hr | hr
  · exact hown r hr hid
  · obtain rfl := List.mem_singleton.1 hr
    exact absurd hid hlt.ne'

theorem Seat.EntriesOwned.remove (h : st.EntriesOwned t) (name : Bytes) : st.EntriesOwned (t.remove name) := by
  intro acc hacc ch hch
  obtain ⟨hlt, hown⟩ := h acc hacc ch hch
  exact ⟨hlt, fun r hr hid => hown r (List.mem_filter.1 hr).1 hid⟩

theorem Move.entries_other (hm : Move k db valid occasion st st' t') (h : other.EntriesOwned db.table) :
    other.EntriesOwned t' := by
  cases hm with
  | create acc chars name => exact h.insert name acc.uid
  | delete acc chars name => exact h.remove name
  | _ => exact h

theorem Move.entries_own (hm : Move k db valid occasion st st' t') (hk : db.table.Keyed)
    (h : st.EntriesOwned db.table) : st'.EntriesOwned t' := by
  have nothing {st : Seat} (hl : st.listed = []) : st.EntriesOwned db.table := by
    intro acc _ ch hch
    rw [hl] at hch
    cases hch
  cases hm with
  | stays => exact h
  | arrive acc chars => exact h
  | fetch acc =>
    intro acc' hacc ch hch
    cases hacc
    have hrow := CharacterTable.mem_of_account.1 hch
    exact ⟨(hk.serial _ hrow).2, fun r hr hid => by rw [hk.same_id hr hrow hid]⟩
  | create acc chars name h1 h2 h3 =>
    intro acc' hacc ch hch
    cases hacc
    rcases List.mem_append.1 hch with hch | hch
    · exact h.insert name acc.uid acc rfl ch hch
    · obtain rfl := List.mem_singleton.1 hch
      refine ⟨Nat.lt_succ_self _, fun r hr hid => ?_⟩
      rcases List.mem_append.1 hr with hr | hr
      · exact absurd hid (hk.serial r hr).2.ne
      · rw [List.mem_singleton.1 hr]
  | delete acc chars name ch hf =>
    intro acc' hacc c hc
    cases hacc
    exact h.remove name acc rfl c (List.mem_of_mem_eraseP hc)
  | _ => exact nothing rfl

/-! ## Lists that are up to date -/

/-- The list, loaded or on its way, is what the table says. -/
def Seat.Current (st : Seat) (t : CharacterTable) : Prop :=
  match st with
  | .fetched acc chars | .lobby acc chars => chars.Perm (t.of_account acc.uid)
  | _ => True

theorem Seat.Current.mono (h : other.Current t)
    (hsame : ∀ acc, other.account = some acc → t'.of_account acc.uid = t.of_account acc.uid) : other.Current t' := by
  cases other with
  | fetched acc chars | lobby acc chars =>
    have hacc := hsame acc rfl
    simp only [Seat.Current] at h ⊢
    rwa [hacc]
  | _ => trivial

/-- A listed name that is to be deleted is stored for the account. -/
theorem Seat.Current.stored {acc : AccountData} {chars : List LobbyCharacter} {name : Bytes} {ch : LobbyCharacter}
    (h : (Seat.lobby acc chars).Current t) (hf : chars.find? (·.name = name) = some ch) :
    (⟨ch.uid, acc.uid, name⟩ : CharacterRow) ∈ t.rows := by
  have hname : ch.name = name := by simpa using List.find?_some hf
  rw [← hname]
  exact CharacterTable.mem_of_account.1 (h.mem_iff.1 (List.mem_of_find?_eq_some hf))

theorem Move.current_other (hm : Move k db valid occasion st st' t') (hk : db.table.Keyed)
    (hst : st.Current db.table) (h : other.Current db.table) (ha : st.Apart other) : other.Current t' := by
  cases hm with
  | create acc chars name h1 h2 h3 =>
    refine h.mono fun acc' hacc => ?_
    rw [CharacterTable.of_account_insert, if_neg (ha acc acc' rfl hacc).symm]
  | delete acc chars name ch hf =>
    refine h.mono fun acc' hacc => CharacterTable.of_account_remove_other fun c hc hn => ?_
    have hrow := CharacterTable.mem_of_account.1 hc
    rw [hn] at hrow
    have := hk.same_nickname hrow (hst.stored hf) rfl
    exact ha acc acc' rfl hacc (congrArg (·.owner_account_id) this).symm
  | _ => exact h

theorem Move.current_own (hm : Move k db valid occasion st st' t') (hk : db.table.Keyed) (h : st.Current db.table) :
    st'.Current t' := by
  cases hm with
  | stays => exact h
  | arrive acc chars => exact h
  | fetch acc => exact .refl _
  | create acc chars name h1 h2 h3 =>
    simp only [Seat.Current, CharacterTable.of_account_insert, if_true] at h ⊢
    exact h.append_right _
  | delete acc chars name ch hf =>
    have hnodup : (chars.map (·.name)).Nodup := (h.map _).nodup_iff.2 (hk.names_of_account acc.uid)
    simp only [Seat.Current, CharacterTable.of_account_remove, eraseP_name hnodup] at h ⊢
    exact h.filter _
  | _ => trivial

/-! ## How many, and which names -/

/-- The number of an account's characters grows only by its own requests. -/
theorem Move.count (hm : Move k db valid occasion st st' t') (uid : Nat) :
    (t'.of_account uid).length ≤ (db.table.of_account uid).length ∨
      ∃ acc chars name, acc.uid = uid ∧ occasion = .request (.request_character_create name) ∧ st = .lobby acc chars ∧
        chars.length < 5 ∧ valid_nickname name ∧ db.char_name_to_uid name = 0 ∧
        (t'.of_account uid).length = (db.table.of_account uid).length + 1 := by
  cases hm with
  | create acc chars name h1 h2 h3 =>
    rw [CharacterTable.of_account_insert]
    split
    case isTrue h => exact .inr ⟨acc, chars, name, h.symm, rfl, rfl, h1, h2, h3, by simp⟩
    case isFalse => exact .inl le_rfl
  | delete acc chars name ch hf =>
    rw [CharacterTable.of_account_remove]
    exact .inl (List.length_filter_le _ _)
  | _ => exact .inl le_rfl

/-- Every row is one of the table before, or has a name that was checked. -/
theorem Move.rows (hm : Move k db valid occasion st st' t') {r : CharacterRow} (hr : r ∈ t'.rows) :
    r ∈ db.table.rows ∨ valid_nickname r.nickname := by
  cases hm with
  | create acc chars name h1 h2 h3 =>
    rcases List.mem_append.1 hr with hr | hr
    · exact .inl hr
    · rw [List.mem_singleton.1 hr]
      exact .inr h2
  | delete acc chars name ch hf => exact .inl (List.mem_filter.1 hr).1
  | _ => exact .inl hr

theorem of_account_perm (hp : t.rows.Perm t'.rows) (uid : Nat) : (t.of_account uid).Perm (t'.of_account uid) :=
  (hp.filter _).map _

theorem Seat.Current.perm (h : st.Current t) (hp : t.rows.Perm t'.rows) : st.Current t' := by
  cases st with
  | fetched acc chars | lobby acc chars => exact List.Perm.trans h (of_account_perm hp acc.uid)
  | _ => trivial

end lists

section accounts

variable {s s' : Server} {k : SessionId} {c : MmoClient} {acc : AccountData} {ev : ServerEvent}

/-! ## One session for each account -/

/-- What the lobbies have while each account has one session. -/
structure ListsOk (s : Server) : Prop where
  ok : ServerOk s
  keyed : s.world.db.table.Keyed
  current : ∀ k, (s.seat k).Current s.world.db.table

theorem lists_ok_init (h : schemaMachine.init s) : ListsOk s := by
  obtain ⟨db, rfl, _, _, hk⟩ := h
  exact ⟨server_ok_fresh db, hk, fun _ => trivial⟩

theorem lists_ok_step (h : ListsOk s) (hone : s.OneSessionEach) (hs : schemaMachine.step s ev s') : ListsOk s' := by
  refine ⟨server_ok_step h.ok hs, keyed_step h.ok h.keyed hs, ?_⟩
  rcases schema_step h.ok hs with ⟨hd, o, _, _, hm⟩ | ⟨hseat, hp, _⟩
  · exact hm.keeps (I := Seat.Current) (fun k _ _ _ _ hm => hm.current_own h.keyed (h.current k))
      fun k _ _ _ j _ hm hj => hm.current_other h.keyed (h.current k) (h.current j) (hone.apart h.ok hj)
  · intro k
    rw [hseat]
    exact (h.current k).perm hp

theorem run_lists_ok {s0 : Server} {tr : List (Taken Server ServerEvent)} (hr : schemaMachine.Run s0 tr s)
    (h0 : ListsOk s0) (hone : ∀ x ∈ tr, x.pre.OneSessionEach) : ListsOk s :=
  Machine.Run.keeps (M := schemaMachine) (C := fun s _ => s.OneSessionEach)
    (fun _ _ _ hi hone hs => lists_ok_step hi hone hs) hr hone h0

/-- The list a request in the lobby finds. -/
theorem ListsOk.listed (h : ListsOk s) {chars : List LobbyCharacter} (hseat : s.seat k = .lobby acc chars) :
    chars.Perm (s.world.db.get_lobby_chars acc.uid) := by
  have hcur := h.current k
  rw [hseat] at hcur
  exact hcur

theorem ListsOk.seat_of_executes (h : ListsOk s) (hok : ∀ hd, ev = .handler hd → ∃ o, hd.Admitted s o) {hd : Handler}
    {chars : List LobbyCharacter} {request : LobbyRequest} (hev : ev = .handler hd)
    (hexec : s.Executes hd k acc chars request) : s.seat k = .lobby acc chars := by
  obtain ⟨data, size, c, rfl, hc, hst, _⟩ := hexec
  obtain ⟨o, ha⟩ := hok _ hev
  obtain ⟨⟨c', hc', hr⟩, _⟩ := ha.enabled
  rw [hc] at hc'
  cases hc'
  exact h.ok.seat_lobby hc hr hst

/-- A row that has the nickname of a listed character to be deleted is that
character's. -/
def Server.DeletesListed (s : Server) (ev : ServerEvent) : Prop :=
  ∀ hd k acc chars name ch, ev = .handler hd → s.Executes hd k acc chars (.request_character_delete name) →
    chars.find? (·.name = name) = some ch → ∀ r ∈ s.world.db.characters, r.nickname = name → r.id = ch.uid

/-- A listed name finds the listed character. -/
theorem ListsOk.deletes_listed (h : ListsOk s) (hok : ∀ hd, ev = .handler hd → ∃ o, hd.Admitted s o) :
    s.DeletesListed ev := by
  intro hd k acc chars name ch hev hexec hf r hr hn
  have hcur := h.current k
  rw [h.seat_of_executes hok hev hexec] at hcur
  have hrow := hcur.stored hf
  rw [h.keyed.same_nickname hr hrow hn]

/-- A session that has listed fewer than five characters, and asks for one more
with a name that is in order and free, has fewer than five. -/
def Server.CreatesBelowLimit (s : Server) (ev : ServerEvent) : Prop :=
  ∀ hd k acc chars name, ev = .handler hd → s.Executes hd k acc chars (.request_character_create name) →
    chars.length < 5 → valid_nickname name → s.world.db.char_name_to_uid name = 0 →
    (s.world.db.get_lobby_chars acc.uid).length < 5

/-- A list that is what the table says is not too short. -/
theorem ListsOk.creates_below_limit (h : ListsOk s) (hok : ∀ hd, ev = .handler hd → ∃ o, hd.Admitted s o) :
    s.CreatesBelowLimit ev := by
  intro hd k acc chars name hev hexec hlt _ _
  rw [← (h.listed (h.seat_of_executes hok hev hexec)).length_eq]
  exact hlt

theorem admitted_of_step (hs : schemaMachine.step s ev s') {hd : Handler} (hev : ev = .handler hd) :
    ∃ o, hd.Admitted s o := by
  subst hev
  obtain ⟨o, ha, _⟩ := hs
  exact ⟨o, ha⟩

theorem run_lists_ok_pre {s0 : Server} {tr : List (Taken Server ServerEvent)} (h0 : schemaMachine.init s0)
    (hr : schemaMachine.Run s0 tr s) (hone : ∀ x ∈ tr, x.pre.OneSessionEach) {x : Taken Server ServerEvent}
    (hx : x ∈ tr) : ListsOk x.pre ∧ ∀ hd, x.event = .handler hd → ∃ o, hd.Admitted x.pre o := by
  have hs := hr.step_of_mem hx
  obtain ⟨l, r, rfl⟩ := List.append_of_mem hx
  obtain ⟨u, hl, hu⟩ := Machine.run_append.1 hr
  obtain ⟨rfl, _⟩ := Machine.run_cons.1 hu
  exact ⟨run_lists_ok hl (lists_ok_init h0) fun y hy => hone y (by simp [hy]), fun hd hev => admitted_of_step hs hev⟩

/-- One session for each account is enough for both. -/
theorem in_order_of_one_session {s0 : Server} {tr : List (Taken Server ServerEvent)} (h0 : schemaMachine.init s0)
    (hr : schemaMachine.Run s0 tr s) (hone : ∀ x ∈ tr, x.pre.OneSessionEach) :
    ∀ x ∈ tr, x.pre.DeletesListed x.event ∧ x.pre.CreatesBelowLimit x.event := by
  intro x hx
  obtain ⟨hok, hadm⟩ := run_lists_ok_pre h0 hr hone hx
  exact ⟨hok.deletes_listed hadm, hok.creates_below_limit hadm⟩

/-! ## Deleting -/

structure EntriesOk (s : Server) : Prop where
  ok : ServerOk s
  keyed : s.world.db.table.Keyed
  owned : ∀ k, (s.seat k).EntriesOwned s.world.db.table

theorem entries_ok_step (h : EntriesOk s) (hs : schemaMachine.step s ev s') : EntriesOk s' := by
  refine ⟨server_ok_step h.ok hs, keyed_step h.ok h.keyed hs, ?_⟩
  rcases schema_step h.ok hs with ⟨hd, o, _, _, hm⟩ | ⟨hseat, hp, hn⟩
  · exact hm.keeps (I := Seat.EntriesOwned) (fun k _ _ _ _ hm => hm.entries_own h.keyed (h.owned k))
      fun _ _ _ _ j _ hm _ => hm.entries_other (h.owned j)
  · intro k acc hacc ch hch
    rw [hseat] at hacc hch
    obtain ⟨hlt, hown⟩ := h.owned k acc hacc ch hch
    exact ⟨hn ▸ hlt, fun r hr => hown r (hp.mem_iff.2 hr)⟩

theorem schema_entries_ok (h : schemaMachine.Reachable s) : EntriesOk s :=
  Machine.Reachable.keeps (M := schemaMachine)
    (fun _ h0 => by
      obtain ⟨db, rfl, _, _, hk⟩ := h0
      exact ⟨server_ok_fresh db, hk, fun k acc hacc => by cases hacc⟩)
    (fun _ _ _ => entries_ok_step) h

/-- A request is executed in the lobby by one session only. -/
theorem Server.Executes.same {hd : Handler} {j : SessionId} {a b : AccountData} {chars chars' : List LobbyCharacter}
    {r r' : LobbyRequest} (h : s.Executes hd k a chars r) (h' : s.Executes hd j b chars' r') :
    k = j ∧ a = b ∧ chars = chars' ∧ r = r' := by
  obtain ⟨data, size, c, rfl, hc, hst, hr⟩ := h
  obtain ⟨data', size', c', he, hc', hst', hr'⟩ := h'
  cases he
  rw [hc] at hc'
  cases hc'
  rw [hst] at hst'
  cases hst'
  rw [hr] at hr'
  cases hr'
  exact ⟨rfl, rfl, rfl, rfl⟩

theorem Move.removed {db : Database} {valid : Bytes → Bytes → Bool} {occasion : Occasion} {st st' : Seat}
    {t : CharacterTable} (hm : Move k db valid occasion st st' t) {r : CharacterRow} (hr : r ∈ db.table.rows)
    (hr' : r ∉ t.rows) : ∃ acc chars name ch, st = .lobby acc chars ∧
      occasion = .request (.request_character_delete name) ∧ chars.find? (·.name = name) = some ch ∧
      r.nickname = name := by
  cases hm with
  | create acc chars name => exact absurd (List.mem_append.2 (.inl hr)) hr'
  | delete acc chars name ch hf =>
    refine ⟨acc, chars, name, ch, rfl, rfl, hf, by_contra fun hn => hr' ?_⟩
    exact List.mem_filter.2 ⟨hr, by simpa using hn⟩
  | _ => exact absurd hr hr'

/-- In a run in which no deletion meets a row that has the nickname of the listed
character and is not that character's, every deletion removes characters of its
own account only. -/
theorem deletes_own_characters {s0 : Server} {tr : List (Taken Server ServerEvent)} (h0 : schemaMachine.init s0)
    (hr : schemaMachine.Run s0 tr s) (hc : ∀ x ∈ tr, x.pre.DeletesListed x.event) :
    ∀ x ∈ tr, ∀ hd k acc chars name, x.event = .handler hd →
      x.pre.Executes hd k acc chars (.request_character_delete name) →
      ∀ r ∈ x.pre.world.db.characters, r ∉ x.post.world.db.characters → r.owner_account_id = acc.uid := by
  intro x hx hd k acc chars name hev hexec r hrow hgone
  have hpre := schema_entries_ok (hr.reachable_pre (.init h0) hx)
  rcases schema_step hpre.ok (hr.step_of_mem hx) with ⟨hd', o, hev', _, k', occasion, ha, hm, _⟩ | ⟨_, hp, _⟩
  · rw [hev] at hev'
    cases hev'
    obtain ⟨acc', chars', name', ch, hst, rfl, hf, hn⟩ := hm.removed hrow hgone
    have hexec' := executes_of_asked ha hst
    obtain ⟨_, rfl, _, _⟩ := hexec.same hexec'
    have hid := hc x hx hd k' acc chars' name' ch hev hexec' hf r hrow hn
    have hown := hpre.owned k'
    rw [hst] at hown
    exact (hown acc rfl ch (List.mem_of_find?_eq_some hf)).2 r hrow hid
  · exact absurd (hp.mem_iff.1 hrow) hgone

theorem dora_deletes_her_own : ∃ tr s, schemaMachine.Run (.fresh two_accounts) tr s ∧
    .handler (deletes 0 (ascii "Dora")) ∈ tr.map (·.event) ∧ s.world.db.characters = [] ∧
    ∀ x ∈ tr, ∀ hd k acc chars name, x.event = .handler hd →
      x.pre.Executes hd k acc chars (.request_character_delete name) →
      ∀ r ∈ x.pre.world.db.characters, r ∉ x.post.world.db.characters → r.owner_account_id = acc.uid := by
  obtain ⟨tr, s, hr, hrows, hevents, _, hone⟩ := play_one_session_each [0]
    (enters_lobby 0 (ascii "dora") ++ [deletes 0 (ascii "Dora")]) (·.world.db.characters) []
    two_accounts_init (by decide +kernel)
  refine ⟨tr, s, hr, by simp [hevents], hrows, ?_⟩
  exact deletes_own_characters two_accounts_init hr fun x hx => (in_order_of_one_session two_accounts_init hr hone x hx).1

/-- Two sessions of dora have listed Dora. The one deletes her, eve takes the
name, and the other one deletes eve's character. -/
theorem eves_dora_deleted : ∃ tr s s' acc chars, schemaMachine.init (.fresh two_accounts) ∧
    schemaMachine.Run (.fresh two_accounts) (tr ++ [⟨s, .handler (deletes 0 (ascii "Dora")), s'⟩]) s' ∧
    s.Executes (deletes 0 (ascii "Dora")) 0 acc chars (.request_character_delete (ascii "Dora")) ∧ acc.uid = 7 ∧
    s.world.db.characters = [⟨10, 8, ascii "Dora"⟩] ∧ s'.world.db.characters = [] := by
  obtain ⟨tr, s, hr, hv, _, honly, _⟩ := play_fresh [0, 1, 2] (fun _ => true)
    (enters_lobby 0 (ascii "dora") ++ enters_lobby 1 (ascii "dora") ++ enters_lobby 2 (ascii "eve") ++
      [deletes 1 (ascii "Dora"), creates 2 (ascii "Dora")])
    (fun s => (s.world.db.characters, (s.clients 0).map (·.current_state),
      s.outcome [0, 1, 2] (quiet 17) (deletes 0 (ascii "Dora")) (·.world.db.characters)))
    ([⟨10, 8, ascii "Dora"⟩], some (.lobby_state ⟨7, ascii "dora", [], [], 0⟩ [⟨9, ascii "Dora"⟩]), some (.ok []))
    two_accounts_init (by decide +kernel)
  simp only [Prod.mk.injEq, Option.map_eq_some_iff] at hv
  obtain ⟨hrows, ⟨c, hc, hst⟩, hout⟩ := hv
  obtain ⟨ha, s', hrun, hrows'⟩ := outcome_ok (schema_server_ok ⟨_, tr, two_accounts_init, hr⟩) honly hout
  exact ⟨tr, s, s', _, _, two_accounts_init, hr.snoc ⟨_, ha, hrun⟩, ⟨_, _, c, rfl, hc, hst, by decide +kernel⟩, rfl,
    hrows, hrows'⟩

/-! ## Creating -/

theorem count_step (hok : ServerOk s) (hs : schemaMachine.step s ev s') (hc : s.CreatesBelowLimit ev) {uid : Nat}
    (h : (s.world.db.get_lobby_chars uid).length ≤ 5) : (s'.world.db.get_lobby_chars uid).length ≤ 5 := by
  rcases schema_step hok hs with ⟨hd, o, hev, _, k, occasion, ha, hm, _⟩ | ⟨_, hp, _⟩
  · rcases hm.count uid with hle | ⟨acc, chars, name, rfl, rfl, hst, hlt, hname, hfree, hcount⟩
    · exact hle.trans h
    · have hbelow := hc hd k acc chars name hev (executes_of_asked ha hst) hlt hname hfree
      rw [CharacterTable.of_account_db] at hbelow ⊢
      omega
  · exact ((of_account_perm hp uid).length_eq).symm.trans_le h

/-- In a run in which no character is created from a list that is too short, every
account keeps to the limit of five. -/
theorem five_characters_kept {s0 : Server} {tr : List (Taken Server ServerEvent)} (h0 : schemaMachine.init s0)
    (hr : schemaMachine.Run s0 tr s) (hc : ∀ x ∈ tr, x.pre.CreatesBelowLimit x.event)
    (hlimit : ∀ uid, (s0.world.db.get_lobby_chars uid).length ≤ 5) :
    ∀ uid, (s.world.db.get_lobby_chars uid).length ≤ 5 := by
  intro uid
  have hkept := Machine.Run.keeps (M := schemaMachine) (C := fun s ev => s.CreatesBelowLimit ev)
    (I := fun s => ServerOk s ∧ (s.world.db.get_lobby_chars uid).length ≤ 5)
    (fun _ _ _ hi hc hs => ⟨server_ok_step hi.1 hs, count_step hi.1 hs hc hi.2⟩) hr hc
    ⟨schema_server_ok (.init h0), hlimit uid⟩
  exact hkept.2

/-- An account with four characters. -/
def four_characters : Database :=
  ⟨[⟨7, ascii "dora", [], []⟩], [],
    [⟨1, 7, ascii "Anna"⟩, ⟨2, 7, ascii "Berta"⟩, ⟨3, 7, ascii "Cilly"⟩, ⟨4, 7, ascii "Dora"⟩], [], 5⟩

theorem four_characters_init : schemaMachine.init (.fresh four_characters) :=
  ⟨four_characters, rfl, by decide +kernel, fun _ h => absurd h List.not_mem_nil, by constructor <;> decide +kernel⟩

theorem four_characters_limited (uid : Nat) : ((Server.fresh four_characters).world.db.get_lobby_chars uid).length ≤ 5 := by
  rw [CharacterTable.of_account_db, CharacterTable.of_account, List.length_map]
  exact (List.length_filter_le _ _).trans (by decide)

theorem dora_creates_a_fifth : ∃ tr s, schemaMachine.Run (.fresh four_characters) tr s ∧
    (s.world.db.get_lobby_chars 7).length = 5 ∧ ∀ uid, (s.world.db.get_lobby_chars uid).length ≤ 5 := by
  obtain ⟨tr, s, hr, hfive, _, _, hone⟩ := play_one_session_each [0]
    (enters_lobby 0 (ascii "dora") ++ [creates 0 (ascii "Emma"), creates 0 (ascii "Frieda")])
    (fun s => (s.world.db.get_lobby_chars 7).length) 5 four_characters_init (by decide +kernel)
  refine ⟨tr, s, hr, hfive, five_characters_kept four_characters_init hr (fun x hx => ?_) four_characters_limited⟩
  exact (in_order_of_one_session four_characters_init hr hone x hx).2

/-- Two sessions of dora have listed four characters, and each creates one more. -/
theorem dora_has_six : ∃ tr s, schemaMachine.init (.fresh four_characters) ∧
    (∀ uid, ((Server.fresh four_characters).world.db.get_lobby_chars uid).length ≤ 5) ∧
    schemaMachine.Run (.fresh four_characters) tr s ∧ (s.world.db.get_lobby_chars 7).length = 6 := by
  obtain ⟨tr, s, hr, hsix, _⟩ := play_fresh [0, 1] (fun _ => true)
    (enters_lobby 0 (ascii "dora") ++ enters_lobby 1 (ascii "dora") ++
      [creates 0 (ascii "Emma"), creates 1 (ascii "Frieda")])
    (fun s => (s.world.db.get_lobby_chars 7).length) 6 four_characters_init (by decide +kernel)
  exact ⟨tr, s, four_characters_init, four_characters_limited, hr, hsix⟩

/-! ## Requests that fail -/

/-- The names are those of the start, or were checked. -/
theorem rows_step (hok : ServerOk s) (hs : schemaMachine.step s ev s') {r : CharacterRow}
    (hr : r ∈ s'.world.db.characters) : r ∈ s.world.db.characters ∨ valid_nickname r.nickname := by
  rcases schema_step hok hs with ⟨hd, o, _, _, k, occasion, _, hm, _⟩ | ⟨_, hp, _⟩
  · exact hm.rows hr
  · exact .inl (hp.mem_iff.2 hr)

/-- The request of session `k` has failed: the session is closed, or its client
is told that no character was created. -/
def Server.RequestFailed (s : Server) (k : SessionId) : Prop :=
  s.is_open k = false ∨ ∃ reason on_wire, ⟨k, .character_creation_fail reason, on_wire⟩ ∈ s.sent

theorem LobbyEffect.unchanged {w : World} {chars : List LobbyCharacter} {request : LobbyRequest} {g : Progress}
    (he : LobbyEffect k c w acc chars request g) (hst : c.current_state = .lobby_state acc chars) (hopen : c.is_open = true)
    (hf : g.client.is_open = false ∨ ∃ reason, (k, .character_creation_fail reason) ∈ g.packets) :
    g.world.db = w.db ∧ g.client.current_state = .lobby_state acc chars := by
  cases he with
  | create name h1 h2 h3 =>
    rcases hf with hf | ⟨reason, hmem⟩
    · exact absurd hopen (by simpa [Progress.waiting] using hf)
    · simp [Progress.waiting] at hmem
  | delete name ch hfind =>
    rcases hf with hf | ⟨reason, hmem⟩
    · exact absurd hopen (by simpa [Progress.waiting] using hf)
    · simp [Progress.waiting] at hmem
  | select name ch w' hfind hfree hef =>
    refine ⟨?_, hst⟩
    show w'.db = w.db
    generalize (none : Option StdException) = res at hef
    cases hef with
    | register_me => rfl
    | register_me_fails => rfl
  | _ => exact ⟨rfl, hst⟩

theorem failed_request_unchanged {o : Outside} {data : Buffer} {size : Nat} {chars : List LobbyCharacter} (h : ServerOk s)
    (hc : s.clients k = some c) (hst : c.current_state = .lobby_state acc chars)
    (ha : (Handler.on_recv k data size).Admitted s o)
    (hr : (Handler.on_recv k data size).run (s.begin o) = .ok () s') (hf : s'.RequestFailed k) :
    s'.world.db = s.world.db ∧ ∃ c', s'.clients k = some c' ∧ c'.current_state = .lobby_state acc chars := by
  obtain ⟨hb, he⟩ := handler_effect h ha hr
  cases he with
  | on_recv _ _ _ c' g hc' hrecv hsize he =>
    have hcc : c = c' := Option.some.inj (hc.symm.trans hc')
    subst hcc
    obtain ⟨_, _, _, hready⟩ := (hb.outstanding k c hc').of_receiving hrecv
    have hfail : g.client.is_open = false ∨ ∃ reason, (k, .character_creation_fail reason) ∈ g.packets := by
      rcases hf with hf | ⟨reason, on_wire, hmem⟩
      · left
        simpa [Server.is_open] using hf
      · right
        obtain ⟨⟨j, pkt⟩, hp, he⟩ := List.mem_map.1 (show _ ∈ g.packets.map _ from hmem)
        cases he
        exact ⟨reason, hp⟩
    suffices hg : g.world.db = s.world.db ∧ g.client.current_state = .lobby_state acc chars from
      ⟨hg.1, g.client, progress_client, hg.2⟩
    cases he with
    | preauth _ hst' => cases hst.symm.trans hst'
    | lobby_malformed => exact ⟨rfl, hst⟩
    | lobby acc' chars' request _ hst' hp he =>
      cases hst.symm.trans hst'
      exact he.unchanged hst hready.is_open hfail
    | ingame_malformed _ _ _ hst' => cases hst.symm.trans hst'
    | ingame _ _ _ _ hst' => cases hst.symm.trans hst'

/-- While each account has one session: the list of a session that waits in the
lobby is what the table says, keeps to the limit of five if the account did at the
start, and has names of the start or checked ones; no two characters share a name;
and a request that fails leaves the list and the database as they were. -/
theorem lobby_list_is_table {s0 : Server} {tr : List (Taken Server ServerEvent)} (h0 : schemaMachine.init s0)
    (hr : schemaMachine.Run s0 tr s) (hone : ∀ x ∈ tr, x.pre.OneSessionEach) :
    (∀ k c acc chars, s.clients k = some c → c.receiving = true → c.current_state = .lobby_state acc chars →
      chars.Perm (s.world.db.get_lobby_chars acc.uid) ∧
      ((s0.world.db.get_lobby_chars acc.uid).length ≤ 5 → chars.length ≤ 5) ∧
      ∀ ch ∈ chars, (⟨ch.uid, acc.uid, ch.name⟩ : CharacterRow) ∈ s0.world.db.characters ∨ valid_nickname ch.name) ∧
    (s.world.db.characters.map (·.nickname)).Nodup ∧
    ∀ k c acc chars data size o s', s.clients k = some c → c.current_state = .lobby_state acc chars →
      (Handler.on_recv k data size).Admitted s o → (Handler.on_recv k data size).run (s.begin o) = .ok () s' →
      s'.RequestFailed k →
      s'.world.db = s.world.db ∧ ∃ c', s'.clients k = some c' ∧ c'.current_state = .lobby_state acc chars := by
  have hok := run_lists_ok hr (lists_ok_init h0) hone
  -- Both histories are carried along a run on which the lists are in order.
  have hcount (uid : Nat) (hstart : (s0.world.db.get_lobby_chars uid).length ≤ 5) :
      (s.world.db.get_lobby_chars uid).length ≤ 5 := by
    have hkept := Machine.Run.keeps (M := schemaMachine) (C := fun s _ => s.OneSessionEach)
      (I := fun s => ListsOk s ∧ (s.world.db.get_lobby_chars uid).length ≤ 5)
      (fun _ _ _ hi hone hs => ⟨lists_ok_step hi.1 hone hs,
        count_step hi.1.ok hs (hi.1.creates_below_limit fun _ hev => admitted_of_step hs hev) hi.2⟩)
      hr hone ⟨lists_ok_init h0, hstart⟩
    exact hkept.2
  have hrows : ∀ r ∈ s.world.db.characters, r ∈ s0.world.db.characters ∨ valid_nickname r.nickname := by
    have hkept := Machine.Run.keeps_over (M := schemaMachine)
      (J := fun s => ∀ r ∈ s.world.db.characters, r ∈ s0.world.db.characters ∨ valid_nickname r.nickname)
      (fun _ => schema_server_ok)
      (fun _ _ _ hok hj hs r hr => (rows_step hok hs hr).elim (hj r) .inr) hr (.init h0) fun r hr => .inl hr
    exact hkept
  refine ⟨fun k c acc chars hc hrecv hst => ?_, hok.keyed.nicknames, fun k c acc chars data size o s' hc hst ha hrun hf =>
    failed_request_unchanged hok.ok hc hst ha hrun hf⟩
  have hlist := hok.listed (hok.ok.seat_lobby hc hrecv hst)
  refine ⟨hlist, fun hstart => hlist.length_eq.trans_le (hcount acc.uid hstart), fun ch hch => ?_⟩
  exact hrows _ (CharacterTable.mem_of_account (t := s.world.db.table) |>.1 (hlist.mem_iff.1 hch))

/-- Dora is replaced by Elsa. -/
theorem elsa_is_listed : ∃ tr s c, schemaMachine.Run (.fresh two_accounts) tr s ∧ s.clients 0 = some c ∧
    c.current_state = .lobby_state ⟨7, ascii "dora", [], [], 0⟩ [⟨10, ascii "Elsa"⟩] ∧
    [⟨10, ascii "Elsa"⟩].Perm (s.world.db.get_lobby_chars 7) := by
  obtain ⟨tr, s, hr, hv, _, _, hone⟩ := play_one_session_each [0]
    (enters_lobby 0 (ascii "dora") ++ [deletes 0 (ascii "Dora"), creates 0 (ascii "Elsa")])
    (fun s => (s.clients 0).map fun c => (c.current_state, c.receiving))
    (some (.lobby_state ⟨7, ascii "dora", [], [], 0⟩ [⟨10, ascii "Elsa"⟩], true)) two_accounts_init
    (by decide +kernel)
  simp only [Option.map_eq_some_iff, Prod.mk.injEq] at hv
  obtain ⟨c, hc, hst, hrecv⟩ := hv
  have hlists := lobby_list_is_table two_accounts_init hr hone
  exact ⟨tr, s, c, hr, hc, hst, (hlists.1 0 c _ _ hc hrecv hst).1⟩

end accounts

end tejk_it_izi
