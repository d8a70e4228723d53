import Mathlib.Data.List.Infix

/-!
# Patterns of words

Patterns over an alphabet made of tests for one letter and of stars, and the removal of a word from
another one.

- `Glob`, `globMatch`: the pieces of a pattern, and the words that a pattern matches.
- `globMatch_literals`: a literal part of a pattern is a prefix of what it matches.
- `globMatch_star`: a star at the end matches everything.
- `removeWord`: every occurrence of a word is removed, from left to right;
  `removeWord_of_not_infix`: nothing is, where there is none.
-/

namespace Theory

variable {α : Type}

/-- A piece of a pattern. -/
inductive Glob (α : Type)
  | one (test : α → Bool)
  | star

/-- A word matches a pattern. -/
def globMatch : List (Glob α) → List α → Bool
  | [], word => word.isEmpty
  | .one test :: pattern, word =>
    match word with
    | [] => false
    | a :: word => test a && globMatch pattern word
  | .star :: pattern, word => word.tails.any (globMatch pattern)

section Match

variable {pattern : List (Glob α)} {word text : List α}

/-- A star alone matches every word. -/
theorem globMatch_star : globMatch [.star] word = true := by
  unfold globMatch
  rw [List.any_eq_true]
  exact ⟨[], (List.mem_tails _ _).mpr List.nil_suffix, rfl⟩

variable [DecidableEq α]

/-- The piece that one letter matches. -/
def Glob.letter (a : α) : Glob α := .one fun b => decide (b = a)

/-- A literal part comes first. -/
theorem globMatch_literals :
    globMatch (text.map Glob.letter ++ pattern) word = true ↔
      ∃ rest, word = text ++ rest ∧ globMatch pattern rest = true := by
  induction text generalizing word with
  | nil => exact ⟨fun h => ⟨word, rfl, h⟩, by rintro ⟨_, rfl, h⟩; exact h⟩
  | cons a text ih =>
    cases word with
    | nil => exact iff_of_false Bool.false_ne_true (by rintro ⟨_, h, -⟩; cases h)
    | cons b word =>
      change (decide (b = a) && globMatch (text.map Glob.letter ++ pattern) word) = true ↔ _
      rw [Bool.and_eq_true, decide_eq_true_iff, ih]
      constructor
      · rintro ⟨rfl, rest, rfl, h⟩
        exact ⟨rest, rfl, h⟩
      · rintro ⟨rest, h, hrest⟩
        obtain ⟨rfl, rfl⟩ := List.cons.inj h
        exact ⟨rfl, rest, rfl, hrest⟩

/-- A pattern without stars or tests matches itself. -/
theorem globMatch_literal : globMatch (text.map Glob.letter) word = true ↔ word = text := by
  have h : globMatch (text.map Glob.letter ++ []) word = true ↔ _ := globMatch_literals
  rw [List.append_nil] at h
  rw [h]
  constructor
  · rintro ⟨rest, rfl, hrest⟩
    rw [List.isEmpty_iff.mp hrest, List.append_nil]
  · rintro rfl
    exact ⟨[], (List.append_nil _).symm, rfl⟩

/-- A literal with a star matches what it is a prefix of. -/
theorem globMatch_literal_star :
    globMatch (text.map Glob.letter ++ [.star]) word = true ↔ text <+: word := by
  rw [globMatch_literals]
  constructor
  · rintro ⟨rest, rfl, -⟩
    exact List.prefix_append _ _
  · rintro ⟨rest, rfl⟩
    exact ⟨rest, rfl, globMatch_star⟩

end Match

/-! ## Removal -/

section Remove

variable [DecidableEq α]

/-- The occurrences of a word are removed from another one, without overlaps; `skip` letters are
still part of an occurrence. -/
def removeFrom (word : List α) : ℕ → List α → List α
  | _, [] => []
  | skip + 1, _ :: rest => removeFrom word skip rest
  | 0, a :: rest =>
    if word.isPrefixOf (a :: rest) then removeFrom word (word.length - 1) rest
    else a :: removeFrom word 0 rest

/-- Every occurrence of a word is removed. -/
def removeWord (word text : List α) : List α := removeFrom word 0 text

/-- A word is removed from the front of a text, and then from the rest. -/
theorem removeWord_append {word : List α} (hword : word ≠ []) (text : List α) :
    removeWord word (word ++ text) = removeWord word text := by
  have hskip (front : List α) : removeFrom word front.length (front ++ text) =
      removeFrom word 0 text := by
    induction front with
    | nil => rfl
    | cons a front ih => exact ih
  cases word with
  | nil => exact absurd rfl hword
  | cons a word =>
    have hprefix : (a :: word).isPrefixOf (a :: (word ++ text)) = true :=
      List.isPrefixOf_iff_prefix.mpr (List.prefix_append (a :: word) text)
    change removeFrom (a :: word) 0 (a :: (word ++ text)) = removeFrom (a :: word) 0 text
    rw [removeFrom, if_pos hprefix]
    exact hskip word

/-- Where the word does not occur, nothing is removed. -/
theorem removeWord_of_not_infix {word text : List α} (h : ¬ word <:+: text) :
    removeWord word text = text := by
  unfold removeWord
  induction text with
  | nil => rfl
  | cons a text ih =>
    have hprefix : ¬ word.isPrefixOf (a :: text) = true := fun hp =>
      h (List.isPrefixOf_iff_prefix.mp hp).isInfix
    rw [removeFrom, if_neg hprefix, ih fun hi => h (hi.trans (List.suffix_cons a text).isInfix)]

end Remove

end Theory
