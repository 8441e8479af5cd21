import TejkItIzi.Database
/-!
# The table of characters

What `init_db.sql` has the database keep of the table `characters`, whatever is
inserted and removed: ids and nicknames are unique, and a new id is new.
-/

namespace tejk_it_izi

/-- The rows, and the next value of the serial `id`. -/
structure CharacterTable where
  rows : List CharacterRow
  next_id : Nat

def Database.table (db : Database) : CharacterTable := ⟨db.characters, db.next_character_id⟩

namespace CharacterTable

def of_account (t : CharacterTable) (uid : Nat) : List LobbyCharacter :=
  (t.rows.filter (·.owner_account_id = uid)).map fun r => ⟨r.id, r.nickname⟩

def insert (t : CharacterTable) (name : Bytes) (owner : Nat) : CharacterTable :=
  ⟨t.rows ++ [⟨t.next_id, owner, name⟩], t.next_id + 1⟩

def remove (t : CharacterTable) (name : Bytes) : CharacterTable :=
  { t with rows := t.rows.filter (·.nickname ≠ name) }

/-- `PRIMARY KEY`, `UNIQUE` and the serial, which starts at 1. -/
structure Keyed (t : CharacterTable) : Prop where
  ids : (t.rows.map (·.id)).Nodup
  nicknames : (t.rows.map (·.nickname)).Nodup
  serial : ∀ r ∈ t.rows, 0 < r.id ∧ r.id < t.next_id
  next : 0 < t.next_id

variable {t : CharacterTable} {r r' : CharacterRow} {name : Bytes} {owner uid : Nat} {ch : LobbyCharacter}

theorem of_account_db (db : Database) (uid : Nat) : db.get_lobby_chars uid = db.table.of_account uid := rfl

theorem mem_of_account : ch ∈ t.of_account uid ↔ (⟨ch.uid, uid, ch.name⟩ : CharacterRow) ∈ t.rows := by
  simp only [of_account, List.mem_map, List.mem_filter, decide_eq_true_eq]
  constructor
  · rintro ⟨r, ⟨hr, rfl⟩, rfl⟩
    exact hr
  · intro hr
    exact ⟨_, ⟨hr, rfl⟩, rfl⟩

theorem Keyed.same_id (h : t.Keyed) (hr : r ∈ t.rows) (hr' : r' ∈ t.rows) (hid : r.id = r'.id) : r = r' :=
  List.inj_on_of_nodup_map h.ids hr hr' hid

theorem Keyed.same_nickname (h : t.Keyed) (hr : r ∈ t.rows) (hr' : r' ∈ t.rows) (hn : r.nickname = r'.nickname) :
    r = r' := List.inj_on_of_nodup_map h.nicknames hr hr' hn

theorem Keyed.perm {t' : CharacterTable} (h : t.Keyed) (hp : t.rows.Perm t'.rows) (hn : t'.next_id = t.next_id) :
    t'.Keyed where
  ids := (hp.map _).nodup_iff.1 h.ids
  nicknames := (hp.map _).nodup_iff.1 h.nicknames
  serial r hr := hn ▸ h.serial r (hp.mem_iff.2 hr)
  next := hn ▸ h.next

/-- An id is never 0, so 0 says that the nickname is free. -/
theorem Keyed.free {db : Database} (h : db.table.Keyed) (h0 : db.char_name_to_uid name = 0) :
    ∀ r ∈ db.table.rows, r.nickname ≠ name := by
  intro r hr hn
  unfold Database.char_name_to_uid at h0
  cases hf : db.characters.find? (·.nickname = name) with
  | none =>
    have := List.find?_eq_none.1 hf r hr
    simp [hn] at this
  | some r' =>
    rw [hf] at h0
    exact (h.serial r' (List.mem_of_find?_eq_some hf)).1.ne' h0

theorem Keyed.insert (h : t.Keyed) (hfree : ∀ r ∈ t.rows, r.nickname ≠ name) (owner : Nat) :
    (t.insert name owner).Keyed where
  ids := by
    simp only [CharacterTable.insert, List.map_append, List.map_cons, List.map_nil]
    refine List.nodup_append.2 ⟨h.ids, by simp, ?_⟩
    intro i hi j hj
    obtain ⟨r, hr, rfl⟩ := List.mem_map.1 hi
    rw [List.mem_singleton.1 hj]
    exact (h.serial r hr).2.ne
  nicknames := by
    simp only [CharacterTable.insert, List.map_append, List.map_cons, List.map_nil]
    refine List.nodup_append.2 ⟨h.nicknames, by simp, ?_⟩
    intro n hn m hm
    obtain ⟨r, hr, rfl⟩ := List.mem_map.1 hn
    rw [List.mem_singleton.1 hm]
    exact hfree r hr
  serial r hr := by
    rcases List.mem_append.1 hr with hr | hr
    · have := h.serial r hr
      simp only [CharacterTable.insert]
      omega
    · rw [List.mem_singleton.1 hr]
      exact ⟨h.next, Nat.lt_succ_self _⟩
  next := Nat.succ_pos _

theorem Keyed.remove (h : t.Keyed) (name : Bytes) : (t.remove name).Keyed where
  ids := h.ids.sublist (List.filter_sublist.map _)
  nicknames := h.nicknames.sublist (List.filter_sublist.map _)
  serial r hr := h.serial r (List.mem_filter.1 hr).1
  next := h.next

theorem of_account_insert : (t.insert name owner).of_account uid =
    if uid = owner then t.of_account uid ++ [⟨t.next_id, name⟩] else t.of_account uid := by
  simp only [of_account, CharacterTable.insert, List.filter_append, List.map_append]
  split
  case isTrue h => simp [h]
  case isFalse h => simp [Ne.symm h]

theorem of_account_remove : (t.remove name).of_account uid = (t.of_account uid).filter (·.name ≠ name) := by
  simp only [of_account, CharacterTable.remove, List.filter_map, List.filter_filter]
  congr 1
  refine List.filter_congr fun r _ => ?_
  simp [Function.comp, Bool.and_comm]

/-- A nickname that none of its characters has changes nothing for an account. -/
theorem of_account_remove_other (h : ∀ ch ∈ t.of_account uid, ch.name ≠ name) :
    (t.remove name).of_account uid = t.of_account uid := by
  rw [of_account_remove]
  exact List.filter_eq_self.2 fun ch hch => by simpa using h ch hch

theorem Keyed.names_of_account (h : t.Keyed) (uid : Nat) : ((t.of_account uid).map (·.name)).Nodup := by
  simp only [of_account, List.map_map]
  exact h.nicknames.sublist (List.filter_sublist.map _)

end CharacterTable

/-- The first character of the name is the only one. -/
theorem eraseP_name {chars : List LobbyCharacter} {name : Bytes} (h : (chars.map (·.name)).Nodup) :
    chars.eraseP (·.name = name) = chars.filter (·.name ≠ name) := by
  induction chars with
  | nil => rfl
  | cons ch chars ih =>
    rw [List.map_cons, List.nodup_cons] at h
    by_cases hn : ch.name = name
    · have hrest : ∀ c ∈ chars, c.name ≠ name := fun c hc he => h.1 (by rw [hn, ← he]; exact List.mem_map_of_mem hc)
      rw [List.eraseP_cons_of_pos (by simpa using hn), List.filter_cons_of_neg (by simpa using hn)]
      exact (List.filter_eq_self.2 fun c hc => by simpa using hrest c hc).symm
    · rw [List.eraseP_cons_of_neg (by simpa using hn), List.filter_cons_of_pos (by simpa using hn), ih h.2]

end tejk_it_izi
