import TejkItIzi.Commands
import TejkItIzi.Lib.Words
/-!
# What the user types

The thread of `commandline_client` that reads `std::cin`: the username, then one
letter for each command, and behind it the words of the command. Which command a
letter stands for depends on `cs`, which another thread changes meanwhile. The user
is at a terminal: the input is what has been typed so far, and a read that needs more
waits. The source never tests `std::cin`, and what it sends once the input has ended
is not modelled.
-/

namespace tejk_it_izi

open ProgLib Words

/-! ## Reading `std::cin` -/

/-- `isspace` in the C locale. -/
def isspace (c : UInt8) : Bool := c == 32 || (9 ≤ c && c ≤ 13)

def newline : UInt8 := 10

/-- The command that is sent, if any, and the input behind it; `none` waits. -/
abbrev Turn := Option (Option ClientCommand × Bytes)

/-- One name behind the letter. -/
def cin_name (input : Bytes) (k : Bytes → ClientCommand) : Turn := do
  let (name, input) ← word isspace input
  return (some (k name), input)

/-- Nothing is sent for an unknown letter. -/
def handle_lobby_command (command : Char) (input : Bytes) : Turn :=
  match command with
  | 'c' => cin_name input .create_character
  | 'd' => cin_name input .delete_character
  | 's' => cin_name input .select_character
  | 'q' => some (some .log_off, input)
  | _ => some (none, input)

def handle_ingame_command (command : Char) (input : Bytes) : Turn :=
  match command with
  | 'w' => do
    let (name, input) ← word isspace input
    let (msg, input) ← word isspace input
    return (some (.send_whisper name msg), input)
  | 'a' => cin_name input .friend_add
  | 'r' => cin_name input .friend_remove
  | 'j' => cin_name input .join_chat
  | 'l' => cin_name input .leave_chat
  | 's' => do
    let (chatroom_name, input) ← word isspace input
    let (msg, input) ← line newline input
    return (some (.send_chat_msg chatroom_name msg), input)
  | 'q' => some (some .log_off_to_lobby, input)
  | _ => some (none, input)

/-- `switch (cs)`. -/
def handle_command (cs : Phase) (command : Char) (input : Bytes) : Turn :=
  match cs with
  -- "Still awaiting authentication".
  | .preauth => some (none, input)
  | .lobby => handle_lobby_command command input
  | .ingame => handle_ingame_command command input

/-- One turn of the loop. -/
def read_command (cs : Phase) (input : Bytes) : Turn := do
  let (command, input) ← symbol isspace input
  handle_command cs (Char.ofNat command.toNat) input

/-- The command is not written past the end of `sendbuf`. -/
def ClientCommand.InBuffer (command : ClientCommand) : Prop := command.written.length ≤ buffer_size

instance (command : ClientCommand) : Decidable command.InBuffer := inferInstanceAs (Decidable (_ ≤ _))

/-- The commands that are sent; `cs` has these values when the letters are read. The
source is undefined from the first command that does not fit `sendbuf`. -/
def command_loop : List Phase → Bytes → List ClientCommand
  | [], _ => []
  | cs :: later, input => match read_command cs input with
    | none => []
    | some (none, input) => command_loop later input
    | some (some command, input) => if command.InBuffer then command :: command_loop later input else []

def user_thread (css : List Phase) (input : Bytes) : List ClientCommand :=
  match word isspace input with
  | none => []
  | some (login, input) =>
    if (ClientCommand.loginserver_keys login).InBuffer then .loginserver_keys login :: command_loop css input else []

/-! ## What can be typed -/

/-- The phase the command is for. -/
def ClientCommand.phase : ClientCommand → Phase
  | .loginserver_keys _ => .preauth
  | .create_character _ | .delete_character _ | .select_character _ | .log_off => .lobby
  | _ => .ingame

/-- Names are words, and so is what is whispered. What is said in a room goes to the
end of the line, and begins with the blank that ends the room's name. -/
def ClientCommand.Typable : ClientCommand → Prop
  | .loginserver_keys _ => False
  | .create_character name | .delete_character name | .select_character name | .friend_add name | .friend_remove name
  | .join_chat name | .leave_chat name => IsWord isspace name
  | .send_whisper name msg => IsWord isspace name ∧ IsWord isspace msg
  | .send_chat_msg chatroom_name msg => IsWord isspace chatroom_name ∧ AtBlank isspace msg ∧ newline ∉ msg
  | .log_off | .log_off_to_lobby => True

def ClientCommand.letter : ClientCommand → Char
  | .create_character _ => 'c'
  | .delete_character _ => 'd'
  | .select_character _ | .send_chat_msg _ _ => 's'
  | .send_whisper _ _ => 'w'
  | .friend_add _ => 'a'
  | .friend_remove _ => 'r'
  | .join_chat _ => 'j'
  | .leave_chat _ | .loginserver_keys _ => 'l'
  | .log_off | .log_off_to_lobby => 'q'

/-- What is typed behind the letter. -/
def ClientCommand.words : ClientCommand → Bytes
  | .loginserver_keys name | .create_character name | .delete_character name | .select_character name
  | .friend_add name | .friend_remove name | .join_chat name | .leave_chat name => name
  | .send_whisper name msg => name ++ 32 :: msg
  | .send_chat_msg chatroom_name msg => chatroom_name ++ msg
  | .log_off | .log_off_to_lobby => []

/-- A line for the command. -/
def ClientCommand.typed (command : ClientCommand) : Bytes :=
  UInt8.ofNat command.letter.toNat :: 32 :: command.words ++ [newline]

section typed

variable {name msg input rest : Bytes} {command : ClientCommand} {cs : Phase} {css : List Phase}

theorem newline_blank : isspace newline = true := rfl

theorem at_newline : StopsAt isspace (newline :: rest) := .cons rfl

theorem word_typed (h : IsWord isspace name) (hrest : StopsAt isspace rest) :
    word isspace (32 :: (name ++ rest)) = some (name, rest) := by
  rw [word_congr (skip_blank rfl)]
  exact h.read hrest

theorem name_typed (h : IsWord isspace name) (k : Bytes → ClientCommand) :
    cin_name (32 :: (name ++ newline :: rest)) k = some (some (k name), newline :: rest) := by
  unfold cin_name
  rw [word_typed h at_newline]
  rfl

/-- The letter is what is read first. -/
theorem letter_typed : read_command cs (command.typed ++ rest) =
    handle_command cs command.letter (32 :: (command.words ++ newline :: rest)) := by
  have hletter : isspace (UInt8.ofNat command.letter.toNat) = false ∧
      Char.ofNat (UInt8.ofNat command.letter.toNat).toNat = command.letter := by
    cases command <;> exact ⟨rfl, rfl⟩
  have htyped : command.typed ++ rest =
      UInt8.ofNat command.letter.toNat :: 32 :: (command.words ++ newline :: rest) := by
    simp [ClientCommand.typed]
  unfold read_command
  rw [htyped, symbol_cons hletter.1]
  show handle_command cs (Char.ofNat (UInt8.ofNat command.letter.toNat).toNat) _ = _
  rw [hletter.2]

/-- A command that is typed in its phase is read; of its line at most the end is left. -/
theorem typed_read (h : command.Typable) (rest : Bytes) : ∃ left, read_command command.phase (command.typed ++ rest) =
    some (some command, left) ∧ skip isspace left = skip isspace rest := by
  have hline : skip isspace (newline :: rest) = skip isspace rest := skip_blank newline_blank
  rw [letter_typed]
  cases command with
  | loginserver_keys login => exact h.elim
  | create_character name | delete_character name | select_character name | friend_add name | friend_remove name
  | join_chat name | leave_chat name => exact ⟨newline :: rest, name_typed h _, hline⟩
  | send_whisper name msg =>
    refine ⟨newline :: rest, ?_, hline⟩
    obtain ⟨hname, hmsg⟩ := h
    have hwords : (ClientCommand.send_whisper name msg).words ++ newline :: rest =
        name ++ 32 :: (msg ++ newline :: rest) := by
      simp [ClientCommand.words]
    simp only [ClientCommand.phase, ClientCommand.letter, handle_command, handle_ingame_command]
    rw [hwords, word_typed hname (.cons rfl)]
    show (word isspace (32 :: (msg ++ newline :: rest)) >>= _) = _
    rw [word_typed hmsg at_newline]
    rfl
  | send_chat_msg chatroom_name msg =>
    refine ⟨rest, ?_, rfl⟩
    obtain ⟨hname, hblank, hnot⟩ := h
    have hwords : (ClientCommand.send_chat_msg chatroom_name msg).words ++ newline :: rest =
        chatroom_name ++ (msg ++ newline :: rest) := by
      simp [ClientCommand.words]
    simp only [ClientCommand.phase, ClientCommand.letter, handle_command, handle_ingame_command]
    rw [hwords, word_typed hname (hblank.stops newline_blank)]
    show (line newline (msg ++ newline :: rest) >>= _) = _
    rw [line_iff.2 ⟨rfl, hnot⟩]
    rfl
  | log_off | log_off_to_lobby =>
    exact ⟨32 :: newline :: rest, rfl, (skip_blank rfl).trans hline⟩

/-- The blanks in front do not matter. -/
theorem command_loop_congr (h : skip isspace input = skip isspace rest) :
    command_loop css input = command_loop css rest := by
  cases css with
  | nil => rfl
  | cons cs later =>
    unfold command_loop read_command
    rw [symbol_congr h]

theorem commands_read {commands : List ClientCommand} (h : ∀ command ∈ commands, command.Typable) :
    command_loop (commands.map ClientCommand.phase) (commands.flatMap ClientCommand.typed) =
      commands.takeWhile fun command => command.InBuffer := by
  induction commands with
  | nil => rfl
  | cons command commands ih =>
    obtain ⟨left, hread, hleft⟩ :=
      typed_read (h command List.mem_cons_self) (commands.flatMap ClientCommand.typed)
    have hlater := ih fun c hc => h c (List.mem_cons_of_mem _ hc)
    rw [List.map_cons, List.flatMap_cons, command_loop, hread]
    show (if command.InBuffer then command :: command_loop _ left else []) = _
    rw [command_loop_congr hleft, hlater]
    by_cases hfits : command.InBuffer
    · simp only [List.takeWhile_cons, hfits, decide_true, if_true]
    · simp only [List.takeWhile_cons, hfits, decide_false, Bool.false_eq_true, if_false]

/-! ## What is sent -/

theorem cin_name_spec {k : Bytes → ClientCommand} (h : cin_name input k = some (some command, rest)) :
    ∃ name, command = k name ∧ IsWord isspace name := by
  obtain ⟨⟨name, input⟩, hread, hturn⟩ := Option.bind_eq_some_iff.1 h
  cases hturn
  exact ⟨name, rfl, (word_spec hread).1⟩

theorem lobby_spec {letter : Char} (h : handle_lobby_command letter input = some (some command, rest)) :
    command.phase = .lobby ∧ command.Typable := by
  unfold handle_lobby_command at h
  split at h
  · obtain ⟨name, rfl, hname⟩ := cin_name_spec h
    exact ⟨rfl, hname⟩
  · obtain ⟨name, rfl, hname⟩ := cin_name_spec h
    exact ⟨rfl, hname⟩
  · obtain ⟨name, rfl, hname⟩ := cin_name_spec h
    exact ⟨rfl, hname⟩
  · cases h
    exact ⟨rfl, trivial⟩
  · cases h

theorem ingame_spec {letter : Char} (h : handle_ingame_command letter input = some (some command, rest)) :
    command.phase = .ingame ∧ command.Typable := by
  unfold handle_ingame_command at h
  split at h
  · obtain ⟨⟨name, input⟩, hname, h⟩ := Option.bind_eq_some_iff.1 h
    obtain ⟨⟨msg, input⟩, hmsg, hturn⟩ := Option.bind_eq_some_iff.1 h
    cases hturn
    exact ⟨rfl, (word_spec hname).1, (word_spec hmsg).1⟩
  · obtain ⟨name, rfl, hname⟩ := cin_name_spec h
    exact ⟨rfl, hname⟩
  · obtain ⟨name, rfl, hname⟩ := cin_name_spec h
    exact ⟨rfl, hname⟩
  · obtain ⟨name, rfl, hname⟩ := cin_name_spec h
    exact ⟨rfl, hname⟩
  · obtain ⟨name, rfl, hname⟩ := cin_name_spec h
    exact ⟨rfl, hname⟩
  · obtain ⟨⟨chatroom_name, input⟩, hname, h⟩ := Option.bind_eq_some_iff.1 h
    obtain ⟨⟨msg, input⟩, hmsg, hturn⟩ := Option.bind_eq_some_iff.1 h
    cases hturn
    obtain ⟨hword, hstops⟩ := word_spec hname
    exact ⟨rfl, hword, line_at_blank hstops hmsg, (line_iff.1 hmsg).2⟩
  · cases h
    exact ⟨rfl, trivial⟩
  · cases h

/-- What is read is for the phase, and can be typed. -/
theorem read_spec (h : read_command cs input = some (some command, rest)) : command.phase = cs ∧ command.Typable := by
  obtain ⟨⟨letter, input⟩, _, hread⟩ := Option.bind_eq_some_iff.1 h
  cases cs with
  | preauth => cases hread
  | lobby => exact lobby_spec hread
  | ingame => exact ingame_spec hread

theorem commands_sent (css : List Phase) (input : Bytes) :
    (∀ command ∈ command_loop css input, command.Typable ∧ command.InBuffer) ∧
      ((command_loop css input).map ClientCommand.phase).Sublist css := by
  induction css generalizing input with
  | nil => exact ⟨fun _ h => absurd h List.not_mem_nil, .slnil⟩
  | cons cs later ih =>
    rw [command_loop]
    split
    · exact ⟨fun _ h => absurd h List.not_mem_nil, List.nil_sublist _⟩
    · next rest hread => exact ⟨(ih rest).1, (ih rest).2.cons _⟩
    · next command rest hread =>
      obtain ⟨rfl, hcommand⟩ := read_spec hread
      split
      · next hfits => exact ⟨List.forall_mem_cons.2 ⟨⟨hcommand, hfits⟩, (ih rest).1⟩, (ih rest).2.cons_cons _⟩
      · exact ⟨fun _ h => absurd h List.not_mem_nil, List.nil_sublist _⟩

/-! ## Typing on -/

section typing_on

variable {letter : Char} {sent : Option ClientCommand} (more : Bytes)

theorem cin_name_append {k : Bytes → ClientCommand} (h : cin_name input k = some (sent, rest)) :
    cin_name (input ++ more) k = some (sent, rest ++ more) := by
  obtain ⟨⟨name, input⟩, hread, hturn⟩ := Option.bind_eq_some_iff.1 h
  cases hturn
  unfold cin_name
  rw [word_append hread more]
  rfl

theorem lobby_append (h : handle_lobby_command letter input = some (sent, rest)) :
    handle_lobby_command letter (input ++ more) = some (sent, rest ++ more) := by
  unfold handle_lobby_command at h ⊢
  split at h
  · exact cin_name_append more h
  · exact cin_name_append more h
  · exact cin_name_append more h
  · cases h
    rfl
  · cases h
    rfl

theorem ingame_append (h : handle_ingame_command letter input = some (sent, rest)) :
    handle_ingame_command letter (input ++ more) = some (sent, rest ++ more) := by
  unfold handle_ingame_command at h ⊢
  split at h
  · obtain ⟨⟨name, input⟩, hname, h⟩ := Option.bind_eq_some_iff.1 h
    obtain ⟨⟨msg, input⟩, hmsg, hturn⟩ := Option.bind_eq_some_iff.1 h
    cases hturn
    simp only [word_append hname more, word_append hmsg more, Option.bind_eq_bind, Option.bind_some]
    rfl
  · exact cin_name_append more h
  · exact cin_name_append more h
  · exact cin_name_append more h
  · exact cin_name_append more h
  · obtain ⟨⟨chatroom_name, input⟩, hname, h⟩ := Option.bind_eq_some_iff.1 h
    obtain ⟨⟨msg, input⟩, hmsg, hturn⟩ := Option.bind_eq_some_iff.1 h
    cases hturn
    simp only [word_append hname more, line_append hmsg more, Option.bind_eq_bind, Option.bind_some]
    rfl
  · cases h
    rfl
  · cases h
    rfl

/-- A turn that has been made does not depend on what is typed behind it. -/
theorem read_append (h : read_command cs input = some (sent, rest)) :
    read_command cs (input ++ more) = some (sent, rest ++ more) := by
  obtain ⟨⟨letter, input⟩, hletter, hread⟩ := Option.bind_eq_some_iff.1 h
  unfold read_command
  rw [symbol_append hletter more]
  cases cs with
  | preauth =>
    cases hread
    rfl
  | lobby => exact lobby_append more hread
  | ingame => exact ingame_append more hread

theorem command_loop_grows (later : List Phase) :
    command_loop css input <+: command_loop (css ++ later) (input ++ more) := by
  induction css generalizing input with
  | nil => exact List.nil_prefix
  | cons cs css ih =>
    rw [List.cons_append, command_loop, command_loop]
    split
    · exact List.nil_prefix
    · next rest hread =>
      rw [read_append more hread]
      exact ih
    · next command rest hread =>
      rw [read_append more hread]
      by_cases hfits : command.InBuffer
      · simp only [if_pos hfits]
        exact (List.prefix_cons_inj command).2 ih
      · simp only [if_neg hfits]
        exact List.nil_prefix

end typing_on

/-- Whatever commands a user types, one a line and each in its phase, the client sends
exactly these, each with its words, up to the first that does not fit its buffer;
whatever is typed and however the phase changes meanwhile, the client sends only such
commands, in the phases it was in; and what it has sent does not depend on what is
typed later. -/
theorem typed_is_sent :
    (∀ login commands, IsWord isspace login → (∀ command ∈ commands, command.Typable) →
      user_thread (commands.map ClientCommand.phase) (login ++ newline :: commands.flatMap ClientCommand.typed) =
        (.loginserver_keys login :: commands).takeWhile fun command => command.InBuffer) ∧
    (∀ css input, user_thread css input = [] ∨ ∃ login commands,
      user_thread css input = .loginserver_keys login :: commands ∧ IsWord isspace login ∧
      (∀ command ∈ commands, command.Typable) ∧ (commands.map ClientCommand.phase).Sublist css ∧
      ∀ command ∈ user_thread css input, command.InBuffer) ∧
    ∀ css later input more, user_thread css input <+: user_thread (css ++ later) (input ++ more) := by
  refine ⟨fun login commands hlogin hcommands => ?_, fun css input => ?_, fun css later input more => ?_⟩
  · unfold user_thread
    rw [hlogin.read at_newline]
    show (if _ then _ :: command_loop _ (newline :: _) else []) = _
    rw [command_loop_congr (skip_blank newline_blank), commands_read hcommands]
    by_cases hfits : (ClientCommand.loginserver_keys login).InBuffer
    · simp only [List.takeWhile_cons, hfits, decide_true, if_true]
    · simp only [List.takeWhile_cons, hfits, decide_false, Bool.false_eq_true, if_false]
  · unfold user_thread
    split
    · exact .inl rfl
    · next login rest hread =>
      split
      · next hfits =>
        obtain ⟨hcommands, hphases⟩ := commands_sent css rest
        exact .inr ⟨login, _, rfl, (word_spec hread).1, fun command h => (hcommands command h).1, hphases,
          List.forall_mem_cons.2 ⟨hfits, fun command h => (hcommands command h).2⟩⟩
      · exact .inl rfl
  · unfold user_thread
    split
    · exact List.nil_prefix
    · next login rest hread =>
      simp only [word_append hread more]
      split
      · exact (List.prefix_cons_inj _).2 (command_loop_grows more later)
      · exact List.nil_prefix

/-- What is said in a room begins with a blank; what is whispered is one word. -/
theorem dora_types : user_thread [.lobby, .ingame, .ingame]
      (ascii "dora" ++ newline :: (ascii "s Dora\n" ++ (ascii "s room hi all\n" ++ (ascii "w Eve hi\n" ++ [])))) =
    [.loginserver_keys (ascii "dora"), .select_character (ascii "Dora"),
      .send_chat_msg (ascii "room") (ascii " hi all"), .send_whisper (ascii "Eve") (ascii "hi")] := by
  have hword {w : Bytes} (hne : w ≠ []) (hw : w.all (fun c => !isspace c) = true) : IsWord isspace w :=
    ⟨hne, fun c hc => by simpa using List.all_eq_true.1 hw c hc⟩
  refine (typed_is_sent.1 (ascii "dora") [.select_character (ascii "Dora"),
    .send_chat_msg (ascii "room") (ascii " hi all"), .send_whisper (ascii "Eve") (ascii "hi")]
    (hword (by decide) (by decide)) fun command hcommand => ?_).trans (by decide)
  simp only [List.mem_cons, List.not_mem_nil, or_false] at hcommand
  rcases hcommand with rfl | rfl | rfl
  · exact hword (by decide) (by decide)
  · refine ⟨hword (by decide) (by decide), fun c hc => ?_, by decide⟩
    cases hc
    rfl
  · exact ⟨hword (by decide) (by decide), hword (by decide) (by decide)⟩

/-- The last word of this whisper is read as a command; the letter behind it waits for its name. -/
example : user_thread [.ingame, .ingame, .ingame] (ascii "dora\nw Eve hi ab\nj") =
    [.loginserver_keys (ascii "dora"), .send_whisper (ascii "Eve") (ascii "hi"), .friend_add (ascii "b")] := by
  decide +kernel

end typed

end tejk_it_izi
