import TejkItIzi.Lib.Quoted
import TejkItIzi.Lib.USet
import TejkItIzi.Packets
/-!
# The database

The tables of `init_db.sql` that the server uses, what each statement of
`psql_facade` is meant to do to them, and its text. Rows of a table are a list;
the order stands for the order the database returns them in, which SQL leaves
open. `Statement.Exact` says that the text is read as it is meant.
-/

namespace tejk_it_izi

open ProgLib

structure AccountRow where
  id : Nat
  login : Bytes
  pass_hash : Bytes
  pass_salt : Bytes

structure AccessLevelRow where
  account_id : Nat
  privilege_level : Nat

structure CharacterRow where
  id : Nat
  owner_account_id : Nat
  nickname : Bytes
  deriving DecidableEq

structure FriendRow where
  character_id : Nat
  his_friend_id : Nat
  deriving DecidableEq

structure Database where
  accounts : List AccountRow
  access_level : List AccessLevelRow
  characters : List CharacterRow
  character_friends : List FriendRow
  /-- The next value of the serial `characters.id`. -/
  next_character_id : Nat

def Database.empty : Database := ⟨[], [], [], [], 1⟩

structure AccountData where
  uid : Nat
  login : Bytes
  pass_hash : Bytes
  salt : Bytes
  access_level : Nat
  deriving DecidableEq

/-! ## Queries and updates -/

namespace Database

def get_lobby_chars (db : Database) (account_uid : Nat) : List LobbyCharacter :=
  (db.characters.filter (·.owner_account_id = account_uid)).map fun r => ⟨r.id, r.nickname⟩

def erase_character (db : Database) (nickname : Bytes) : Database :=
  { db with characters := db.characters.filter (·.nickname ≠ nickname) }

/-- The id of the first row found, 0 if there is none. -/
def char_name_to_uid (db : Database) (nickname : Bytes) : Nat :=
  match db.characters.find? (·.nickname = nickname) with
  | some r => r.id
  | none => 0

def create_character (db : Database) (nickname : Bytes) (owner_acc_id : Nat) : Database :=
  { db with
    characters := db.characters ++ [⟨db.next_character_id, owner_acc_id, nickname⟩]
    next_character_id := db.next_character_id + 1 }

/-- The account's row and its access level; 0 when none is stored. -/
def get_account_data (db : Database) (login : Bytes) : Option AccountData :=
  (db.accounts.find? (·.login = login)).map fun r =>
    ⟨r.id, login, r.pass_hash, r.pass_salt,
      ((db.access_level.find? (·.account_id = r.id)).map (·.privilege_level)).getD 0⟩

/-- Both halves of the `UNION`, which leaves no duplicates. -/
def get_friends_of (db : Database) (char_id : Nat) : USet Nat :=
  USet.ofList ((db.character_friends.filter (·.his_friend_id = char_id)).map (·.character_id) ++
    (db.character_friends.filter (·.character_id = char_id)).map (·.his_friend_id))

/-- `if (one > other) std::swap(one, other)`. -/
def ordered (one other : Nat) : FriendRow := if one > other then ⟨other, one⟩ else ⟨one, other⟩

def make_friends (db : Database) (one other : Nat) : Database :=
  { db with character_friends := db.character_friends ++ [ordered one other] }

def remove_friends (db : Database) (one other : Nat) : Database :=
  { db with character_friends := db.character_friends.filter (· ≠ ordered one other) }

theorem mem_get_friends_of {db : Database} {a b : Nat} :
    b ∈ db.get_friends_of a ↔ ⟨a, b⟩ ∈ db.character_friends ∨ ⟨b, a⟩ ∈ db.character_friends := by
  simp only [get_friends_of, USet.mem_ofList, List.mem_append, List.mem_map, List.mem_filter, decide_eq_true_eq]
  constructor
  · rintro (⟨⟨x, y⟩, ⟨hr, rfl⟩, rfl⟩ | ⟨⟨x, y⟩, ⟨hr, rfl⟩, rfl⟩)
    · exact .inr hr
    · exact .inl hr
  · rintro (hr | hr)
    · exact .inr ⟨_, ⟨hr, rfl⟩, rfl⟩
    · exact .inl ⟨_, ⟨hr, rfl⟩, rfl⟩

theorem mem_get_friends_of_comm {db : Database} {a b : Nat} : b ∈ db.get_friends_of a ↔ a ∈ db.get_friends_of b := by
  rw [mem_get_friends_of, mem_get_friends_of, or_comm]

/-- The ordered row of two ids holds the two. -/
theorem ordered_eq_iff {a b x y : Nat} (hxy : x < y) :
    (⟨x, y⟩ : FriendRow) = ordered a b ↔ (x = a ∧ y = b) ∨ (x = b ∧ y = a) := by
  unfold ordered
  split <;> simp only [FriendRow.mk.injEq] <;> omega

/-- Every row of friends has the smaller id first. -/
def FirstSmaller (db : Database) : Prop := ∀ r ∈ db.character_friends, r.character_id < r.his_friend_id

theorem FirstSmaller.not_own_friend {db : Database} (h : db.FirstSmaller) (a : Nat) :
    ¬ a ∈ db.get_friends_of a := by
  rw [mem_get_friends_of, or_self]
  intro hr
  exact Nat.lt_irrefl _ (h _ hr)

/-- Making friends adds exactly the two to each other's friends. -/
theorem mem_friends_make {db : Database} {a b x y : Nat} :
    y ∈ (db.make_friends a b).get_friends_of x ↔
      y ∈ db.get_friends_of x ∨ (x = a ∧ y = b) ∨ (x = b ∧ y = a) := by
  simp only [mem_get_friends_of, make_friends, List.mem_append, List.mem_singleton, ordered]
  split <;> simp only [FriendRow.mk.injEq] <;> tauto

/-- Removing friends from ordered rows removes exactly the two from each other's
friends, however often their row was there. -/
theorem mem_friends_remove {db : Database} (h : db.FirstSmaller) {a b x y : Nat} :
    y ∈ (db.remove_friends a b).get_friends_of x ↔
      y ∈ db.get_friends_of x ∧ ¬ ((x = a ∧ y = b) ∨ (x = b ∧ y = a)) := by
  have key : ∀ u v, (⟨u, v⟩ : FriendRow) ∈ (db.remove_friends a b).character_friends ↔
      ⟨u, v⟩ ∈ db.character_friends ∧ ¬ ((u = a ∧ v = b) ∨ (u = b ∧ v = a)) := by
    intro u v
    simp only [remove_friends, List.mem_filter, decide_eq_true_eq]
    constructor
    · rintro ⟨hr, hn⟩
      exact ⟨hr, fun hc => hn ((ordered_eq_iff (h _ hr)).2 hc)⟩
    · rintro ⟨hr, hn⟩
      exact ⟨hr, fun hc => hn ((ordered_eq_iff (h _ hr)).1 hc)⟩
  simp only [mem_get_friends_of, key]
  tauto

theorem FirstSmaller.make_friends {db : Database} (h : db.FirstSmaller) {a b : Nat} (hab : a ≠ b) :
    (db.make_friends a b).FirstSmaller := by
  intro r hr
  rcases List.mem_append.1 hr with hr | hr
  · exact h r hr
  · rw [List.mem_singleton.1 hr]
    unfold ordered
    split <;> simp only <;> omega

theorem FirstSmaller.remove_friends {db : Database} (h : db.FirstSmaller) (a b : Nat) :
    (db.remove_friends a b).FirstSmaller := fun r hr => h r (List.mem_filter.1 hr).1

/-- Only new pairs are inserted, so no row comes twice. -/
theorem nodup_make_friends {db : Database} (h : db.character_friends.Nodup) {a b : Nat}
    (hn : ¬ b ∈ db.get_friends_of a) : (db.make_friends a b).character_friends.Nodup := by
  rw [mem_get_friends_of, not_or] at hn
  have hnew : ordered a b ∉ db.character_friends := by
    unfold ordered
    split
    · exact hn.2
    · exact hn.1
  refine List.nodup_append.2 ⟨h, by simp, ?_⟩
  intro r hr r' hr' he
  rw [List.mem_singleton] at hr'
  exact hnew (by rw [← hr', ← he]; exact hr)

theorem nodup_remove_friends {db : Database} (h : db.character_friends.Nodup) (a b : Nat) :
    (db.remove_friends a b).character_friends.Nodup := h.filter _

end Database

/-! ## Statements -/

/-- The statements `psql_facade` executes, with the values it puts in. -/
inductive Statement where
  | lobby_chars (account_uid : Nat)
  | erase_character (name : Bytes)
  | char_name_to_uid (nickname : Bytes)
  | create_character (owner_acc_id : Nat) (nickname : Bytes)
  | account (login : Bytes)
  | access_level (account_uid : Nat)
  | friends_of (char_id : Nat)
  | make_friends (row : FriendRow)
  | remove_friends (row : FriendRow)
  deriving DecidableEq

/-- `'`. -/
def quote : UInt8 := 39

/-- The text the facade puts together. -/
def Statement.text : Statement → Bytes
  | .lobby_chars uid => ascii "SELECT id, nickname FROM characters WHERE owner_account_id = " ++ to_string uid
  | .erase_character name => ascii "DELETE FROM characters WHERE nickname = '" ++ name ++ ascii "'"
  | .char_name_to_uid nickname => ascii "SELECT id FROM characters WHERE nickname = '" ++ nickname ++ ascii "'"
  | .create_character owner nickname =>
    ascii "INSERT INTO characters(owner_account_id, nickname) VALUES (" ++ to_string owner ++ ascii ", '" ++
      nickname ++ ascii "') RETURNING id"
  | .account login => ascii "SELECT id, pass_hash, pass_salt FROM accounts WHERE login = '" ++ login ++ ascii "'"
  | .access_level uid => ascii "SELECT privilege_level FROM access_level WHERE account_id = " ++ to_string uid
  | .friends_of id =>
    ascii "SELECT character_id as id FROM character_friends WHERE his_friend_id = " ++ to_string id ++
      ascii " UNION SELECT his_friend_id as id FROM character_friends WHERE character_id = " ++ to_string id
  | .make_friends row =>
    ascii "INSERT INTO character_friends(character_id, his_friend_id) VALUES (" ++ to_string row.character_id ++
      ascii ", " ++ to_string row.his_friend_id ++ ascii ")"
  | .remove_friends row =>
    ascii "DELETE FROM character_friends WHERE character_id = " ++ to_string row.character_id ++
      ascii " AND his_friend_id = " ++ to_string row.his_friend_id

/-- The one string a statement carries in a literal, and the text around it. -/
def Statement.splice : Statement → Option (Bytes × Bytes × Bytes)
  | .erase_character name => some (ascii "DELETE FROM characters WHERE nickname = ", name, [])
  | .char_name_to_uid nickname => some (ascii "SELECT id FROM characters WHERE nickname = ", nickname, [])
  | .create_character owner nickname =>
    some (ascii "INSERT INTO characters(owner_account_id, nickname) VALUES (" ++ to_string owner ++ ascii ", ",
      nickname, ascii ") RETURNING id")
  | .account login => some (ascii "SELECT id, pass_hash, pass_salt FROM accounts WHERE login = ", login, [])
  | _ => none

/-- What the statement is meant to be: one literal that denotes the string it
was given, or no literal at all. -/
def Statement.intended (st : Statement) : List (Quoted.Piece UInt8) :=
  match st.splice with
  | some (before, value, after) => [.plain before, .literal value] ++ Quoted.rest after
  | none => [.plain st.text]

/-- The database reads the statement as it is meant. -/
def Statement.Exact (st : Statement) : Prop := Quoted.lex quote st.text = some st.intended

instance (st : Statement) : Decidable st.Exact := inferInstanceAs (Decidable (_ = _))

theorem quote_not_mem_to_string (n : Nat) : quote ∉ to_string n := by
  simp only [to_string, List.mem_map, not_exists, not_and]
  intro c hc hq
  have hd := Nat.isDigit_of_mem_toDigits (by decide) (by decide) hc
  simp only [Char.isDigit, Bool.and_eq_true, decide_eq_true_eq] at hd
  have h1 : 48 ≤ c.toNat := hd.1
  have h2 : c.toNat ≤ 57 := hd.2
  have := congrArg UInt8.toNat hq
  simp [quote] at this
  omega

/-- A text that ends in a quote opens a literal. -/
theorem ascii_quote (text : String) (rest : Bytes) : ascii (text ++ "'") ++ rest = ascii text ++ quote :: rest := by
  simp [ascii, quote]

/-- The text is what the splice says. -/
theorem Statement.text_of_splice {st : Statement} {before value after : Bytes}
    (h : st.splice = some (before, value, after)) : st.text = before ++ quote :: value ++ quote :: after := by
  have hclose : ascii "'" = [quote] := by decide +kernel
  cases st <;> simp only [splice, Option.some.injEq, Prod.mk.injEq, reduceCtorEq] at h <;>
    obtain ⟨rfl, rfl, rfl⟩ := h
  case create_character owner nickname =>
    have hsep : ascii ", '" = ascii ", " ++ [quote] := by decide +kernel
    have hend : ascii "') RETURNING id" = quote :: ascii ") RETURNING id" := by decide +kernel
    simp only [text, hsep, hend, List.append_assoc, List.cons_append, List.nil_append]
  all_goals simp only [text, hclose, List.append_assoc, List.cons_append]
  case erase_character => exact ascii_quote "DELETE FROM characters WHERE nickname = " _
  case char_name_to_uid => exact ascii_quote "SELECT id FROM characters WHERE nickname = " _
  case account => exact ascii_quote "SELECT id, pass_hash, pass_salt FROM accounts WHERE login = " _

theorem Statement.quote_not_mem_around {st : Statement} {before value after : Bytes}
    (h : st.splice = some (before, value, after)) : quote ∉ before ∧ quote ∉ after := by
  cases st <;> simp only [splice, Option.some.injEq, Prod.mk.injEq, reduceCtorEq] at h <;>
    obtain ⟨rfl, rfl, rfl⟩ := h
  case create_character owner nickname =>
    refine ⟨?_, by decide +kernel⟩
    simp only [List.mem_append, quote_not_mem_to_string, or_false, not_or]
    exact ⟨by decide +kernel, by decide +kernel⟩
  all_goals exact ⟨by decide +kernel, by decide +kernel⟩

theorem Statement.quote_not_mem_text {st : Statement} (h : st.splice = none) : quote ∉ st.text := by
  cases st <;> simp only [splice, reduceCtorEq] at h <;>
    simp only [text, List.mem_append, quote_not_mem_to_string, or_false, not_or] <;>
    (try refine ⟨⟨?_, ?_⟩, ?_⟩) <;> (try refine ⟨?_, ?_⟩) <;> decide +kernel

/-- A statement reads as meant exactly when the string it carries has no quote. -/
theorem Statement.exact_iff (st : Statement) :
    st.Exact ↔ ∀ before value after, st.splice = some (before, value, after) → quote ∉ value := by
  unfold Exact intended
  cases h : st.splice with
  | none => simp [Quoted.lex_plain quote (quote_not_mem_text h)]
  | some v =>
    obtain ⟨before, value, after⟩ := v
    obtain ⟨hb, ha⟩ := quote_not_mem_around h
    rw [text_of_splice h]
    exact (Quoted.lex_splice_iff quote hb ha value).trans (by simp)

/-- What a database makes of the text of a lookup: its answer, and the tables it
leaves. A text that is not the one statement it is meant to be may do anything. -/
structure QueryReading where
  lookup : Bytes → Database → Except StdException Nat × Database
  exact : ∀ nickname db, (Statement.char_name_to_uid nickname).Exact →
    lookup (Statement.char_name_to_uid nickname).text db = (.ok (db.char_name_to_uid nickname), db)

/-- A database that does this with every other text. -/
def QueryReading.with_others (other : Bytes → Database → Except StdException Nat × Database) : QueryReading where
  lookup text db := match Quoted.lex quote text with
    | some [.plain _, .literal nickname] => (.ok (db.char_name_to_uid nickname), db)
    | _ => other text db
  exact nickname db h := by
    unfold Statement.Exact at h
    rw [h]
    rfl

theorem QueryReading.lookup_other {other : Bytes → Database → Except StdException Nat × Database} {text : Bytes}
    (h : Quoted.lex quote text = none) (db : Database) : (with_others other).lookup text db = other text db := by
  simp only [with_others, h]

end tejk_it_izi
