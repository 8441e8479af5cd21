import Mathlib.Tactic.Common
/-!
# Quoted literals in a text

A text in a language whose literals stand between single quote characters,
where a doubled quote inside a literal stands for one and every other character
stands for itself. `lex` cuts a text into plain pieces and literals.
`lex_render` shows that nothing is lost: the pieces spell the text they came
from. A literal built by putting quotes around a string denotes that string
exactly when the string has no quote in it (`lex_splice_iff`).
-/

namespace ProgLib.Quoted

variable {χ : Type}

/-- What a text consists of: text outside literals, and what literals denote. -/
inductive Piece (χ : Type) where
  | plain (s : List χ)
  | literal (s : List χ)
  deriving DecidableEq

/-- Where the lexer is: outside a literal, in one, or past a quote in one that
may be its end or the first half of a doubled quote. -/
inductive Mode (χ : Type) where
  | outside (s : List χ)
  | inside (s : List χ)
  | pastQuote (s : List χ)

variable [DecidableEq χ] (q : χ)

def advance : List (Piece χ) × Mode χ → χ → List (Piece χ) × Mode χ
  | (ps, .outside s), c => if c = q then (ps ++ [.plain s], .inside []) else (ps, .outside (s ++ [c]))
  | (ps, .inside s), c => if c = q then (ps, .pastQuote s) else (ps, .inside (s ++ [c]))
  | (ps, .pastQuote s), c =>
    if c = q then (ps, .inside (s ++ [q])) else (ps ++ [.literal s], .outside [c])

/-- The pieces at the end of the text; none inside a literal that is still open. -/
def finish : List (Piece χ) × Mode χ → Option (List (Piece χ))
  | (ps, .outside s) => some (ps ++ [.plain s])
  | (_, .inside _) => none
  | (ps, .pastQuote s) => some (ps ++ [.literal s])

def lex (t : List χ) : Option (List (Piece χ)) := finish (t.foldl (advance q) ([], .outside []))

/-! ## The pieces spell the text -/

/-- Double every quote. -/
def double (s : List χ) : List χ := s.flatMap fun c => if c = q then [q, q] else [c]

def Piece.spell : Piece χ → List χ
  | .plain s => s
  | .literal s => q :: double q s ++ [q]

def Mode.spell : Mode χ → List χ
  | .outside s => s
  | .inside s => q :: double q s
  | .pastQuote s => q :: double q s ++ [q]

theorem double_append (s t : List χ) : double q (s ++ t) = double q s ++ double q t := List.flatMap_append

theorem advance_spell (st : List (Piece χ) × Mode χ) (c : χ) :
    (advance q st c).1.flatMap (Piece.spell q) ++ Mode.spell q (advance q st c).2 =
      st.1.flatMap (Piece.spell q) ++ Mode.spell q st.2 ++ [c] := by
  obtain ⟨ps, m⟩ := st
  cases m with
  | outside s =>
    by_cases hc : c = q
    · simp [advance, hc, Piece.spell, Mode.spell, double]
    · simp [advance, hc, Mode.spell]
  | inside s =>
    by_cases hc : c = q
    · simp [advance, hc, Mode.spell]
    · simp [advance, hc, Mode.spell, double]
  | pastQuote s =>
    by_cases hc : c = q
    · simp [advance, hc, Mode.spell, double]
    · simp [advance, hc, Piece.spell, Mode.spell]

theorem foldl_spell (t : List χ) (st : List (Piece χ) × Mode χ) :
    (t.foldl (advance q) st).1.flatMap (Piece.spell q) ++ Mode.spell q (t.foldl (advance q) st).2 =
      st.1.flatMap (Piece.spell q) ++ Mode.spell q st.2 ++ t := by
  induction t generalizing st with
  | nil => simp
  | cons c t ih => rw [List.foldl_cons, ih, advance_spell, List.append_assoc, List.singleton_append]

/-- The pieces of a text, spelled out again, are the text. -/
theorem lex_render {t : List χ} {ps : List (Piece χ)} (h : lex q t = some ps) :
    ps.flatMap (Piece.spell q) = t := by
  have hs := foldl_spell q t ([], .outside [])
  unfold lex at h
  generalize t.foldl (advance q) ([], .outside []) = st at h hs
  obtain ⟨done, m⟩ := st
  cases m with
  | outside s =>
    simp only [finish, Option.some.injEq] at h
    subst h
    simpa [Mode.spell, Piece.spell] using hs
  | inside s => simp [finish] at h
  | pastQuote s =>
    simp only [finish, Option.some.injEq] at h
    subst h
    simpa [Mode.spell, Piece.spell] using hs

/-! ## Splicing a string into a text -/

theorem foldl_outside {t : List χ} (h : ¬ q ∈ t) (ps : List (Piece χ)) (s : List χ) :
    t.foldl (advance q) (ps, .outside s) = (ps, .outside (s ++ t)) := by
  induction t generalizing s with
  | nil => simp
  | cons c t ih =>
    simp only [List.mem_cons, not_or] at h
    rw [List.foldl_cons, advance, if_neg (Ne.symm h.1), ih h.2]
    simp

theorem foldl_inside {t : List χ} (h : ¬ q ∈ t) (ps : List (Piece χ)) (s : List χ) :
    t.foldl (advance q) (ps, .inside s) = (ps, .inside (s ++ t)) := by
  induction t generalizing s with
  | nil => simp
  | cons c t ih =>
    simp only [List.mem_cons, not_or] at h
    rw [List.foldl_cons, advance, if_neg (Ne.symm h.1), ih h.2]
    simp

/-- A text without quotes is one plain piece. -/
theorem lex_plain {t : List χ} (h : ¬ q ∈ t) : lex q t = some [.plain t] := by
  simp [lex, foldl_outside q h, finish]

/-- A doubled quote is longer than what it stands for. -/
theorem double_length (s : List χ) : (double q s).length = s.length + s.count q := by
  induction s with
  | nil => rfl
  | cons c s ih =>
    rw [← List.singleton_append, double_append, List.length_append, ih, List.singleton_append]
    by_cases hc : c = q
    · simp [double, hc]; omega
    · simp [double, hc]; omega

/-- The text between the pieces after a literal: nothing, or one plain piece. -/
def rest (t : List χ) : List (Piece χ) := if t = [] then [] else [.plain t]

theorem rest_spell (t : List χ) : (rest t).flatMap (Piece.spell q) = t := by
  unfold rest
  split
  · simp_all
  · simp [Piece.spell]

/-- A string put between quotes inside a text without quotes denotes itself
exactly when it has no quote. -/
theorem lex_splice_iff {a b : List χ} (ha : ¬ q ∈ a) (hb : ¬ q ∈ b) (s : List χ) :
    lex q (a ++ q :: s ++ q :: b) = some ([.plain a, .literal s] ++ rest b) ↔ ¬ q ∈ s := by
  constructor
  · intro h
    have hr := congrArg List.length (lex_render q h)
    simp only [List.flatMap_append, List.flatMap_cons, rest_spell, List.flatMap_nil, Piece.spell, List.length_append,
      List.length_cons, double_length, List.length_nil] at hr
    exact List.count_eq_zero.1 (by omega)
  · intro hs
    have ho : (a ++ q :: s).foldl (advance q) ([], .outside []) = ([.plain a], .inside s) := by
      rw [List.foldl_append, foldl_outside q ha, List.foldl_cons, advance, if_pos rfl, foldl_inside q hs]
      simp
    rw [lex, List.foldl_append, ho, List.foldl_cons, advance, if_pos rfl]
    cases b with
    | nil => simp [finish, rest]
    | cons c b =>
      simp only [List.mem_cons, not_or] at hb
      rw [List.foldl_cons, advance, if_neg (Ne.symm hb.1), foldl_outside q hb.2]
      simp [finish, rest]

end ProgLib.Quoted
