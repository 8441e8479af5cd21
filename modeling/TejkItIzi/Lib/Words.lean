import Mathlib.Data.List.TakeWhile
import Mathlib.Tactic.Common
/-!
# Words and lines

Reading words, symbols and lines, one after another and over any alphabet, off an
input that goes on: what is known of it is its beginning, and a read that needs more
waits. Some symbols are blank; they end a word and are skipped before one. What is
written with a blank behind each word is read back, nothing but words is read, and
what has been read stays read when more input comes.
-/

namespace ProgLib.Words

variable {χ : Type}

section reading

variable (blank : χ → Bool)

def skip (input : List χ) : List χ := input.dropWhile blank

/-- What is in front of the first symbol that stops the read, and the input from there.
Without such a symbol the read waits. -/
def upTo (stop : χ → Bool) : List χ → Option (List χ × List χ)
  | [] => none
  | c :: rest => if stop c then some ([], c :: rest) else (upTo stop rest).map fun (w, rest) => (c :: w, rest)

/-- The next word, and the input behind it. -/
def word (input : List χ) : Option (List χ × List χ) := upTo blank (skip blank input)

/-- The next symbol that is not blank. -/
def symbol (input : List χ) : Option (χ × List χ) :=
  match skip blank input with
  | [] => none
  | c :: rest => some (c, rest)

/-- The rest of the line, and the input behind its end. -/
def line [DecidableEq χ] (newline : χ) (input : List χ) : Option (List χ × List χ) :=
  (upTo (fun c => c = newline) input).map fun (l, rest) => (l, rest.drop 1)

structure IsWord (w : List χ) : Prop where
  ne_nil : w ≠ []
  not_blank : ∀ c ∈ w, blank c = false

/-- A word ends here. -/
def StopsAt (stop : χ → Bool) (input : List χ) : Prop := ∃ c ∈ input.head?, stop c = true

/-- No word goes on here. -/
def AtBlank (input : List χ) : Prop := ∀ c ∈ input.head?, blank c = true

end reading

variable {blank stop : χ → Bool} {b c : χ} {w input rest : List χ}

/-! ## Up to a symbol -/

theorem StopsAt.cons (hb : stop b = true) : StopsAt stop (b :: rest) := ⟨b, rfl, hb⟩

/-- The message of a line may be empty, but its end follows. -/
theorem AtBlank.stops (h : AtBlank blank w) (hb : blank b = true) : StopsAt blank (w ++ b :: rest) := by
  cases w with
  | nil => exact .cons hb
  | cons c w => exact .cons (h c rfl)

theorem upTo_iff : upTo stop input = some (w, rest) ↔
    input = w ++ rest ∧ (∀ c ∈ w, stop c = false) ∧ StopsAt stop rest := by
  induction input generalizing w with
  | nil =>
    refine ⟨fun h => by simp [upTo] at h, fun ⟨hinput, _, c, hc, _⟩ => ?_⟩
    rw [(List.append_eq_nil_iff.1 hinput.symm).2] at hc
    cases hc
  | cons c input ih =>
    cases hstop : stop c with
    | true =>
      simp only [upTo, hstop, if_true, Option.some.injEq, Prod.mk.injEq]
      constructor
      · rintro ⟨rfl, rfl⟩
        exact ⟨rfl, fun _ h => absurd h List.not_mem_nil, .cons hstop⟩
      · rintro ⟨hinput, hw, hrest⟩
        cases w with
        | nil => exact ⟨rfl, hinput⟩
        | cons d w =>
          cases hinput
          rw [hw c List.mem_cons_self] at hstop
          cases hstop
    | false =>
      simp only [upTo, hstop, Bool.false_eq_true, if_false, Option.map_eq_some_iff, Prod.exists, Prod.mk.injEq]
      constructor
      · rintro ⟨w, rest, hread, rfl, rfl⟩
        obtain ⟨rfl, hw, hrest⟩ := ih.1 hread
        exact ⟨rfl, List.forall_mem_cons.2 ⟨hstop, hw⟩, hrest⟩
      · rintro ⟨hinput, hw, hrest⟩
        cases w with
        | nil =>
          obtain ⟨d, hd, hstop'⟩ := hrest
          rw [List.nil_append] at hinput
          rw [← hinput] at hd
          cases hd
          rw [hstop] at hstop'
          cases hstop'
        | cons d w =>
          cases hinput
          exact ⟨w, rest, ih.2 ⟨rfl, (List.forall_mem_cons.1 hw).2, hrest⟩, rfl, rfl⟩

theorem StopsAt.append (h : StopsAt stop input) (more : List χ) : StopsAt stop (input ++ more) := by
  obtain ⟨c, hc, hstop⟩ := h
  exact ⟨c, by rw [List.head?_append, hc]; rfl, hstop⟩

theorem upTo_append (h : upTo stop input = some (w, rest)) (more : List χ) :
    upTo stop (input ++ more) = some (w, rest ++ more) := by
  obtain ⟨rfl, hw, hrest⟩ := upTo_iff.1 h
  exact upTo_iff.2 ⟨List.append_assoc .., hw, hrest.append more⟩

/-! ## Blanks -/

theorem skip_blank (hb : blank b = true) : skip blank (b :: input) = skip blank input := List.dropWhile_cons_of_pos hb

theorem skip_symbol (hc : blank c = false) : skip blank (c :: input) = c :: input :=
  List.dropWhile_cons_of_neg (by simp [hc])

/-- Behind the blanks there is no blank. -/
theorem skip_head (h : c ∈ (skip blank input).head?) : blank c = false := by
  have hhead := List.head?_dropWhile_not blank input
  rw [show (input.dropWhile blank).head? = some c from h] at hhead
  simpa using hhead

theorem skip_append (h : skip blank input ≠ []) (more : List χ) :
    skip blank (input ++ more) = skip blank input ++ more := by
  unfold skip at h ⊢
  rw [List.dropWhile_append, if_neg (by simpa using h)]

/-! ## Symbols -/

/-- Only what is behind the blanks matters. -/
theorem symbol_congr (h : skip blank input = skip blank rest) : symbol blank input = symbol blank rest := by
  unfold symbol
  rw [h]

theorem symbol_cons (hc : blank c = false) : symbol blank (c :: input) = some (c, input) := by
  unfold symbol
  rw [skip_symbol hc]

theorem symbol_append (h : symbol blank input = some (c, rest)) (more : List χ) :
    symbol blank (input ++ more) = some (c, rest ++ more) := by
  unfold symbol at h ⊢
  split at h
  · cases h
  · next hskip =>
    cases h
    rw [skip_append (by rw [hskip]; exact List.cons_ne_nil _ _), hskip]
    rfl

/-! ## Words -/

theorem word_congr (h : skip blank input = skip blank rest) : word blank input = word blank rest := by
  unfold word
  rw [h]

/-- A word that has been written is read. -/
theorem IsWord.read (hw : IsWord blank w) (hrest : StopsAt blank rest) : word blank (w ++ rest) = some (w, rest) := by
  obtain ⟨hne, hnot⟩ := hw
  have hskip : skip blank (w ++ rest) = w ++ rest := by
    cases w with
    | nil => exact absurd rfl hne
    | cons c w => exact skip_symbol (hnot c List.mem_cons_self)
  unfold word
  rw [hskip]
  exact upTo_iff.2 ⟨rfl, hnot, hrest⟩

/-- Whatever is read is a word, and it has ended. -/
theorem word_spec (h : word blank input = some (w, rest)) : IsWord blank w ∧ StopsAt blank rest := by
  obtain ⟨hskip, hnot, hrest⟩ := upTo_iff.1 h
  refine ⟨⟨?_, hnot⟩, hrest⟩
  rintro rfl
  obtain ⟨c, hc, hblank⟩ := hrest
  rw [List.nil_append] at hskip
  rw [← hskip] at hc
  rw [skip_head hc] at hblank
  cases hblank

theorem word_append (h : word blank input = some (w, rest)) (more : List χ) :
    word blank (input ++ more) = some (w, rest ++ more) := by
  have hne : skip blank input ≠ [] := by
    intro hnil
    unfold word at h
    rw [hnil] at h
    cases h
  unfold word
  rw [skip_append hne]
  exact upTo_append h more

/-! ## Lines -/

section lines

variable [DecidableEq χ] {newline : χ} {l : List χ}

theorem line_iff : line newline input = some (l, rest) ↔ input = l ++ newline :: rest ∧ newline ∉ l := by
  have hstops {rest : List χ} (h : StopsAt (fun c => decide (c = newline)) rest) : rest = newline :: rest.drop 1 := by
    obtain ⟨c, hc, hnewline⟩ := h
    cases rest with
    | nil => cases hc
    | cons d rest =>
      cases hc
      rw [of_decide_eq_true hnewline]
      rfl
  have hnot : (∀ c ∈ l, decide (c = newline) = false) ↔ newline ∉ l := by
    simp only [decide_eq_false_iff_not]
    exact ⟨fun h hmem => h newline hmem rfl, fun h c hc heq => h (heq ▸ hc)⟩
  simp only [line, Option.map_eq_some_iff, Prod.exists, Prod.mk.injEq, upTo_iff]
  constructor
  · rintro ⟨l, input, ⟨rfl, hl, hrest⟩, rfl, rfl⟩
    exact ⟨congrArg _ (hstops hrest), hnot.1 hl⟩
  · rintro ⟨rfl, hl⟩
    exact ⟨l, newline :: rest, ⟨rfl, hnot.2 hl, .cons (by simp)⟩, rfl, rfl⟩

theorem line_append (h : line newline input = some (l, rest)) (more : List χ) :
    line newline (input ++ more) = some (l, rest ++ more) := by
  obtain ⟨rfl, hl⟩ := line_iff.1 h
  exact line_iff.2 ⟨by rw [List.append_assoc, List.cons_append], hl⟩

/-- A line that is read behind a word begins with a blank. -/
theorem line_at_blank (h : StopsAt blank input) (hline : line newline input = some (l, rest)) : AtBlank blank l := by
  obtain ⟨rfl, _⟩ := line_iff.1 hline
  obtain ⟨b, hb, hblank⟩ := h
  intro c hc
  rw [List.head?_append, hc] at hb
  cases hb
  exact hblank

end lines

end ProgLib.Words
