import Notifyr.Runtime.JsonLoads

/-!
# Texts and numbers in JSON

How `json.dumps` writes a string, and how the scanner reads strings, numbers and words that are
followed by more of the document.

- `dumpsStr`: a string in ASCII letters; `scanString_dumpsStr`: the scanner reads it back, with
  pairs of surrogates joined.
- `IsNumber`: the parts of a number; `scanNumber_append`.
- `loads_intStr`: the text of an integer is a document, and denotes the integer.
- `scanFrom_word`: the words.
-/

namespace Notifyr

open Theory NestedDict

/-! ## Strings -/

/-- A hexadecimal digit, in lower case. -/
def hexLower (n : ℕ) : ℕ := if n < 10 then n + ord '0' else n - 10 + ord 'a'

/-- `\uXXXX`. -/
def escapeUnit (n : ℕ) : PyStr :=
  [ord '\\', ord 'u', hexLower (n / 4096 % 16), hexLower (n / 256 % 16), hexLower (n / 16 % 16),
    hexLower (n % 16)]

/-- `ESCAPE_DCT`: the letter after the backslash. -/
def shortEscape (c : ℕ) : Option ℕ :=
  if c = ord '"' ∨ c = ord '\\' then some c
  else if c = 8 then some (ord 'b')
  else if c = 12 then some (ord 'f')
  else if c = 10 then some (ord 'n')
  else if c = 13 then some (ord 'r')
  else if c = 9 then some (ord 't')
  else none

/-- A letter that stands for itself. -/
def isPlain (c : ℕ) : Bool := 32 ≤ c ∧ c ≤ 126 ∧ c ≠ ord '"' ∧ c ≠ ord '\\'

/-- The first and the second surrogate of a code point beyond the first 65536. -/
def highOf (c : ℕ) : ℕ := 0xD800 + (c - 0x10000) / 1024

def lowOf (c : ℕ) : ℕ := 0xDC00 + (c - 0x10000) % 1024

/-- A letter in a JSON text of ASCII letters. -/
def escapeLetter (c : ℕ) : PyStr :=
  match shortEscape c with
  | some e => [ord '\\', e]
  | none =>
    if isPlain c then [c]
    else if c < 0x10000 then escapeUnit c
    else escapeUnit (highOf c) ++ escapeUnit (lowOf c)

/-- `py_encode_basestring_ascii`. -/
def dumpsStr (s : PyStr) : PyStr := ord '"' :: (s.flatMap escapeLetter ++ [ord '"'])

/-- What the scanner reads of a letter. -/
def unitsOf (c : ℕ) : List (ℕ × Bool) :=
  if c < 0x10000 then [(c, (shortEscape c).isNone && !isPlain c)]
  else [(highOf c, true), (lowOf c, true)]

theorem hexValue_hexLower {n : ℕ} (h : n < 16) : hexValue (hexLower n) = some n := by
  revert n
  decide

theorem hex4_digits {n : ℕ} (h : n < 0x10000) :
    hex4 (hexLower (n / 4096 % 16)) (hexLower (n / 256 % 16)) (hexLower (n / 16 % 16))
      (hexLower (n % 16)) = some n := by
  unfold hex4
  rw [hexValue_hexLower (Nat.mod_lt _ (by decide)), hexValue_hexLower (Nat.mod_lt _ (by decide)),
    hexValue_hexLower (Nat.mod_lt _ (by decide)), hexValue_hexLower (Nat.mod_lt _ (by decide))]
  refine congrArg some ?_
  omega

theorem scanLetters_quote (rest : PyStr) : scanLetters (ord '"' :: rest) = some ([], rest) := by
  rw [scanLetters.eq_def]
  exact if_pos rfl

theorem scanLetters_plain {c : ℕ} (hquote : c ≠ ord '"') (hlow : ¬ c < 32) (hslash : c ≠ ord '\\')
    (s : PyStr) :
    scanLetters (c :: s) = (scanLetters s).map fun r => ((c, false) :: r.1, r.2) := by
  rw [scanLetters.eq_def]
  dsimp only
  rw [if_neg hquote, if_neg hlow, if_neg hslash]

theorem scanLetters_short {e : ℕ} (he : e ≠ ord 'u') (s : PyStr) :
    scanLetters (ord '\\' :: e :: s) =
      (backslash e).bind fun u => (scanLetters s).map fun r => ((u, false) :: r.1, r.2) := by
  rw [scanLetters.eq_def]
  dsimp only
  rw [if_neg (by decide), if_neg (by decide), if_pos rfl, if_neg he]

theorem scanLetters_unit (h₁ h₂ h₃ h₄ : ℕ) (s : PyStr) :
    scanLetters (ord '\\' :: ord 'u' :: h₁ :: h₂ :: h₃ :: h₄ :: s) =
      (hex4 h₁ h₂ h₃ h₄).bind fun u => (scanLetters s).map fun r => ((u, true) :: r.1, r.2) := by
  rw [scanLetters.eq_def]
  dsimp only
  rw [if_neg (by decide), if_neg (by decide), if_pos rfl, if_pos rfl]

theorem scanLetters_escapeUnit {n : ℕ} (h : n < 0x10000) (s : PyStr) :
    scanLetters (escapeUnit n ++ s) = (scanLetters s).map fun r => ((n, true) :: r.1, r.2) := by
  unfold escapeUnit
  simp only [List.cons_append, List.nil_append]
  rw [scanLetters_unit, hex4_digits h]
  rfl

theorem backslash_shortEscape {c e : ℕ} (h : shortEscape c = some e) :
    backslash e = some c ∧ e ≠ ord 'u' := by
  unfold shortEscape at h
  split at h
  · rename_i hc
    cases h
    rcases hc with rfl | rfl
    · decide
    · decide
  · repeat' split at h
    all_goals first
      | (cases h; subst_vars; decide)
      | cases h

theorem scanLetters_escapeLetter {c : ℕ} (hc : c < 0x110000) (s : PyStr) :
    scanLetters (escapeLetter c ++ s) =
      (scanLetters s).map fun r => (unitsOf c ++ r.1, r.2) := by
  unfold escapeLetter unitsOf
  cases hshort : shortEscape c with
  | some e =>
    obtain ⟨hback, he⟩ := backslash_shortEscape hshort
    have hlt : c < 0x10000 := by
      unfold shortEscape at hshort
      by_contra hlarge
      have hquote : ord '"' = 34 := rfl
      have hslash : ord '\\' = 92 := rfl
      rw [if_neg (by omega), if_neg (by omega), if_neg (by omega), if_neg (by omega),
        if_neg (by omega), if_neg (by omega)] at hshort
      cases hshort
    show scanLetters (ord '\\' :: e :: s) = _
    rw [if_pos hlt, scanLetters_short he, hback]
    rfl
  | none =>
    dsimp only
    by_cases hplain : isPlain c = true
    · have hbounds := hplain
      unfold isPlain at hbounds
      rw [decide_eq_true_eq] at hbounds
      obtain ⟨hlow, hhigh, hquote, hslash⟩ := hbounds
      rw [if_pos hplain, if_pos (by omega), hplain]
      show scanLetters (c :: s) = _
      rw [scanLetters_plain hquote (by omega) hslash]
      rfl
    · rw [if_neg hplain]
      rw [Bool.not_eq_true] at hplain
      by_cases hlt : c < 0x10000
      · rw [if_pos hlt, if_pos hlt, scanLetters_escapeUnit hlt, hplain]
        rfl
      · have hhigh : highOf c < 0x10000 := by
          unfold highOf
          omega
        have hlow : lowOf c < 0x10000 := by
          unfold lowOf
          omega
        rw [if_neg hlt, if_neg hlt, List.append_assoc, scanLetters_escapeUnit hhigh,
          scanLetters_escapeUnit hlow, Option.map_map]
        rfl

theorem scanLetters_dumpsStr {s : PyStr} (hs : ∀ c ∈ s, c < 0x110000) (rest : PyStr) :
    scanLetters (s.flatMap escapeLetter ++ ord '"' :: rest) = some (s.flatMap unitsOf, rest) := by
  induction s with
  | nil =>
    rw [List.flatMap_nil, List.flatMap_nil, List.nil_append, scanLetters_quote]
  | cons c s ih =>
    rw [List.flatMap_cons, List.append_assoc, scanLetters_escapeLetter (hs c List.mem_cons_self),
      ih fun d hd => hs d (List.mem_cons_of_mem _ hd)]
    rfl

/-- A surrogate that begins a pair, and one that ends it. -/
def IsHigh (c : ℕ) : Prop := 0xD800 ≤ c ∧ c ≤ 0xDBFF

def IsLow (c : ℕ) : Prop := 0xDC00 ≤ c ∧ c ≤ 0xDFFF

instance (c : ℕ) : Decidable (IsHigh c) := inferInstanceAs (Decidable (_ ∧ _))

instance (c : ℕ) : Decidable (IsLow c) := inferInstanceAs (Decidable (_ ∧ _))

/-- A text with its pairs of surrogates taken for one letter each. -/
def joined : PyStr → PyStr
  | [] => []
  | [c] => [c]
  | c :: c' :: rest =>
    if IsHigh c ∧ IsLow c' then (0x10000 + (c - 0xD800) * 1024 + (c' - 0xDC00)) :: joined rest
    else c :: joined (c' :: rest)

/-- Surrogates are always escaped. -/
theorem unitsOf_surrogate {c : ℕ} (h : IsHigh c ∨ IsLow c) : unitsOf c = [(c, true)] := by
  unfold IsHigh IsLow at h
  have hquote : ord '"' = 34 := rfl
  have hslash : ord '\\' = 92 := rfl
  have hshort : shortEscape c = none := by
    unfold shortEscape
    rw [if_neg (by omega), if_neg (by omega), if_neg (by omega), if_neg (by omega),
      if_neg (by omega), if_neg (by omega)]
  have hplain : isPlain c = false := by
    unfold isPlain
    rw [decide_eq_false_iff_not]
    omega
  unfold unitsOf
  rw [if_pos (by omega), hshort, hplain]
  rfl

/-- The first thing the scanner reads of a letter: the letter, or a high surrogate. -/
theorem unitsOf_head (c : ℕ) (hc : c < 0x110000) :
    ∃ u b us, unitsOf c = (u, b) :: us ∧ (u = c ∨ IsHigh u) := by
  unfold unitsOf
  split
  · exact ⟨c, _, [], rfl, .inl rfl⟩
  · refine ⟨highOf c, true, [(lowOf c, true)], rfl, .inr ?_⟩
    unfold IsHigh highOf
    omega

theorem joinPairs_large {c : ℕ} (hc : c < 0x110000) (hlarge : ¬ c < 0x10000)
    (units : List (ℕ × Bool)) : joinPairs (unitsOf c ++ units) = c :: joinPairs units := by
  have hhigh : 0xD800 ≤ highOf c ∧ highOf c ≤ 0xDBFF := by
    unfold highOf
    omega
  have hlow : 0xDC00 ≤ lowOf c ∧ lowOf c ≤ 0xDFFF := by
    unfold lowOf
    omega
  unfold unitsOf
  rw [if_neg hlarge]
  show joinPairs ((highOf c, true) :: (lowOf c, true) :: units) = _
  rw [joinPairs, if_pos ⟨rfl, rfl, hhigh, hlow⟩]
  refine congrArg (· :: joinPairs units) ?_
  show 0x10000 + (highOf c - 0xD800) * 1024 + (lowOf c - 0xDC00) = c
  unfold highOf lowOf
  omega

/-- The scanner joins the pairs of surrogates, and takes the other letters as they are. -/
theorem joinPairs_units {s : PyStr} (hs : ∀ c ∈ s, c < 0x110000) :
    joinPairs (s.flatMap unitsOf) = joined s := by
  fun_induction joined s with
  | case1 => rfl
  | case2 c =>
    have hc := hs c List.mem_cons_self
    rw [List.flatMap_cons, List.flatMap_nil]
    by_cases hlt : c < 0x10000
    · unfold unitsOf
      rw [if_pos hlt]
      rfl
    · exact joinPairs_large hc hlt []
  | case3 c c' rest hpair ih =>
    rw [List.flatMap_cons, List.flatMap_cons, unitsOf_surrogate (.inl hpair.1),
      unitsOf_surrogate (.inr hpair.2)]
    show joinPairs ((c, true) :: (c', true) :: rest.flatMap unitsOf) = _
    rw [joinPairs, if_pos ⟨rfl, rfl, hpair.1, hpair.2⟩,
      ih fun d hd => hs d (List.mem_cons_of_mem _ (List.mem_cons_of_mem _ hd))]
  | case4 c c' rest hpair ih =>
    have hc := hs c List.mem_cons_self
    rw [← ih fun d hd => hs d (List.mem_cons_of_mem _ hd), List.flatMap_cons]
    by_cases hlt : c < 0x10000
    · obtain ⟨u, b, us, hunits, hu⟩ :=
        unitsOf_head c' (hs c' (List.mem_cons_of_mem _ List.mem_cons_self))
      have hfirst : unitsOf c = [(c, (shortEscape c).isNone && !isPlain c)] := if_pos hlt
      rw [List.flatMap_cons, hfirst, hunits]
      show joinPairs (_ :: (u, b) :: (us ++ rest.flatMap unitsOf)) = _
      rw [joinPairs, if_neg]
      · rfl
      · -- the next unit ends no pair that this one begins
        rintro ⟨-, -, hhigh, hlow⟩
        rcases hu with rfl | hu
        · exact hpair ⟨hhigh, hlow⟩
        · exact absurd (hlow.1.trans hu.2) (by decide)
    · exact joinPairs_large hc hlt _

/-- A string is read back with its pairs of surrogates joined. -/
theorem scanString_dumpsStr {s : PyStr} (hs : ∀ c ∈ s, c < 0x110000) (rest : PyStr) :
    scanString (s.flatMap escapeLetter ++ ord '"' :: rest) = some (joined s, rest) := by
  unfold scanString
  rw [scanLetters_dumpsStr hs]
  exact congrArg (fun t => some (t, rest)) (joinPairs_units hs)

/-- No two letters are a pair of surrogates. -/
def NoPairs (s : PyStr) : Prop := s.IsChain fun c c' => ¬ (IsHigh c ∧ IsLow c')

theorem joined_length (s : PyStr) : (joined s).length ≤ s.length := by
  fun_induction joined s with
  | case1 => exact le_rfl
  | case2 => exact le_rfl
  | case3 c c' rest _ ih =>
    simp only [List.length_cons]
    omega
  | case4 c c' rest _ ih =>
    simp only [List.length_cons] at ih ⊢
    omega

/-- A text is read back as it is exactly if it has no pair of surrogates. -/
theorem joined_eq_iff (s : PyStr) : joined s = s ↔ NoPairs s := by
  unfold NoPairs
  fun_induction joined s with
  | case1 => simp
  | case2 c => simp
  | case3 c c' rest hpair =>
    have hlen := joined_length rest
    rw [List.isChain_cons_cons]
    refine iff_of_false ?_ fun h => h.1 hpair
    intro h
    have := congrArg List.length h
    simp only [List.length_cons] at this
    omega
  | case4 c c' rest hpair ih =>
    rw [List.isChain_cons_cons, ← ih]
    simp [hpair]

variable {φ : Type}

/-! ## Numbers and words -/

/-- What may follow a value: nothing, a comma or a closing bracket. -/
def Stops (rest : PyStr) : Prop := ∀ c ∈ rest.head?, c = ord ',' ∨ c = ord ']' ∨ c = ord '}'

/-- A text that does not go on with a digit. -/
def NoDigit (s : PyStr) : Prop := ∀ c ∈ s.head?, isDigit c = false

/-- The parts of a number. -/
structure IsNumber (sign ds frac exp : PyStr) : Prop where
  sign : sign = [] ∨ sign = [ord '-']
  digits : ∃ n, ds = natStr n
  frac : frac = [] ∨ ∃ fs, frac = ord '.' :: fs ∧ fs ≠ [] ∧ ∀ c ∈ fs, isDigit c = true
  exp : exp = [] ∨ ∃ e es fs, exp = e :: (es ++ fs) ∧ (e = ord 'e' ∨ e = ord 'E') ∧
    (es = [] ∨ es = [ord '+'] ∨ es = [ord '-']) ∧ fs ≠ [] ∧ ∀ c ∈ fs, isDigit c = true

theorem Stops.noDigit {rest : PyStr} (h : Stops rest) : NoDigit rest := by
  intro c hc
  rcases h c hc with rfl | rfl | rfl <;> decide

theorem takeWhile_digits {ds tail : PyStr} (hds : ∀ c ∈ ds, isDigit c = true)
    (htail : NoDigit tail) : (ds ++ tail).takeWhile isDigit = ds := by
  rw [List.takeWhile_append_of_pos hds]
  cases tail with
  | nil => rw [List.takeWhile_nil, List.append_nil]
  | cons c tail =>
    have hc : ¬ isDigit c = true := by simp [htail c rfl]
    rw [List.takeWhile_cons_of_neg hc, List.append_nil]

/-- The exponent begins with a letter, and what follows a number with none of its signs. -/
theorem head_exp_append {exp rest : PyStr} {sign ds frac : PyStr} (h : IsNumber sign ds frac exp)
    (hrest : Stops rest) :
    ∀ c ∈ (exp ++ rest).head?, c = ord 'e' ∨ c = ord 'E' ∨ c = ord ',' ∨ c = ord ']' ∨
      c = ord '}' := by
  intro c hc
  rcases h.exp with rfl | ⟨e, es, fs, rfl, he, -, -, -⟩
  · rw [List.nil_append] at hc
    exact .inr (.inr (hrest c hc))
  · cases hc
    rcases he with rfl | rfl
    · exact .inl rfl
    · exact .inr (.inl rfl)

theorem noDigit_exp_append {exp rest : PyStr} {sign ds frac : PyStr}
    (h : IsNumber sign ds frac exp) (hrest : Stops rest) : NoDigit (exp ++ rest) := by
  intro c hc
  rcases head_exp_append h hrest c hc with rfl | rfl | rfl | rfl | rfl <;> decide

theorem fraction_append {sign ds frac exp rest : PyStr} (h : IsNumber sign ds frac exp)
    (hrest : Stops rest) : fraction (frac ++ (exp ++ rest)) = frac := by
  rcases h.frac with rfl | ⟨fs, rfl, hne, hfs⟩
  · rw [List.nil_append]
    cases hexp : exp ++ rest with
    | nil => rfl
    | cons c tail =>
      have hc : c ≠ ord '.' := by
        rcases head_exp_append h hrest c (by rw [hexp]; rfl) with rfl | rfl | rfl | rfl | rfl <;>
          decide
      unfold fraction
      dsimp only
      exact if_neg fun hand => hc hand.1
  · rw [List.cons_append]
    unfold fraction
    dsimp only
    rw [takeWhile_digits hfs (noDigit_exp_append h hrest)]
    exact if_pos ⟨rfl, hne⟩

theorem exponentSign_append {es fs rest : PyStr}
    (hes : es = [] ∨ es = [ord '+'] ∨ es = [ord '-']) (hne : fs ≠ [])
    (hfs : ∀ c ∈ fs, isDigit c = true) : exponentSign (es ++ fs ++ rest) = es := by
  rcases hes with rfl | rfl | rfl
  · obtain ⟨c, fs, rfl⟩ := List.exists_cons_of_ne_nil hne
    have hc := isDigit_bounds (hfs c List.mem_cons_self)
    have hplus : ord '+' = 43 := rfl
    have hminus : ord '-' = 45 := rfl
    show exponentSign (c :: (fs ++ rest)) = []
    unfold exponentSign
    exact if_neg (by omega)
  · rfl
  · rfl

theorem exponent_append {sign ds frac exp rest : PyStr} (h : IsNumber sign ds frac exp)
    (hrest : Stops rest) : exponent (exp ++ rest) = exp := by
  rcases h.exp with rfl | ⟨e, es, fs, rfl, he, hes, hne, hfs⟩
  · rw [List.nil_append]
    cases rest with
    | nil => rfl
    | cons c rest =>
      have hc : ¬ (c = ord 'e' ∨ c = ord 'E') := by
        rcases hrest c rfl with rfl | rfl | rfl <;> decide
      unfold exponent
      dsimp only
      exact if_neg fun hand => hc hand.1
  · rw [List.cons_append]
    unfold exponent
    dsimp only
    rw [exponentSign_append hes hne hfs, List.append_assoc, List.drop_left,
      takeWhile_digits hfs hrest.noDigit]
    exact if_pos ⟨he, hne⟩

/-- A number is scanned to where it stops. -/
theorem scanNumber_append (env : JsonEnv φ) {sign ds frac exp rest : PyStr}
    (h : IsNumber sign ds frac exp) (hrest : Stops rest) :
    scanNumber env (sign ++ (ds ++ (frac ++ (exp ++ rest)))) =
      (numberValue env sign ds frac exp).map fun a => (.atom a, rest) := by
  obtain ⟨n, rfl⟩ := h.digits
  obtain ⟨d, ds, hd, hzero⟩ := exists_natStr_cons n
  have hdigits : ∀ c ∈ natStr n, isDigit c = true := fun c hc => isDigit_natStr hc
  have hnoDigit : NoDigit (frac ++ (exp ++ rest)) := by
    rcases h.frac with hfrac | ⟨fs, hfrac, -, -⟩
    · rw [hfrac, List.nil_append]
      exact noDigit_exp_append h hrest
    · rw [hfrac]
      rintro c ⟨⟩
      decide
  have hsign : minus (sign ++ (natStr n ++ (frac ++ (exp ++ rest)))) = sign := by
    rcases h.sign with rfl | rfl
    · have hbounds := isDigit_bounds (hdigits d (hd ▸ List.mem_cons_self))
      have hminus : ord '-' = 45 := rfl
      rw [hd]
      refine if_neg ?_
      intro heq
      cases heq
      omega
    · rfl
  have hint : intDigits (natStr n ++ (frac ++ (exp ++ rest))) = natStr n := by
    have htake := takeWhile_digits hdigits hnoDigit
    rw [hd] at htake ⊢
    unfold intDigits
    dsimp only [List.cons_append]
    split
    · rename_i hd0
      rw [hzero hd0]
    · exact htake
  have hne : natStr n ≠ [] := by
    rw [hd]
    exact List.cons_ne_nil _ _
  have hafter : (sign ++ (natStr n ++ (frac ++ (exp ++ rest)))).drop
      (sign.length + (natStr n).length) = frac ++ (exp ++ rest) := by
    rw [← List.drop_drop, List.drop_left, List.drop_left]
  have hleft : (frac ++ (exp ++ rest)).drop (frac.length + exp.length) = rest := by
    rw [← List.drop_drop, List.drop_left, List.drop_left]
  unfold scanNumber
  dsimp only
  rw [hsign, List.drop_left, hint, hafter, fraction_append h hrest, List.drop_left,
    exponent_append h hrest, if_neg hne, hleft]

/-- A number begins with a digit, or with a sign and a digit. -/
def StartsNumber (s : PyStr) : Prop :=
  ∃ d tail, isDigit d = true ∧ (s = d :: tail ∨ s = ord '-' :: d :: tail)

theorem IsNumber.startsNumber {sign ds frac exp : PyStr} (h : IsNumber sign ds frac exp)
    (rest : PyStr) : StartsNumber (sign ++ (ds ++ rest)) := by
  obtain ⟨n, rfl⟩ := h.digits
  obtain ⟨d, ds, hd, -⟩ := exists_natStr_cons n
  have hdigit : isDigit d = true := isDigit_natStr (n := n) (hd ▸ List.mem_cons_self)
  rw [hd]
  rcases h.sign with rfl | rfl
  · exact ⟨d, ds ++ rest, hdigit, .inl rfl⟩
  · exact ⟨d, ds ++ rest, hdigit, .inr rfl⟩

/-- No word of the scanner begins like a number. -/
theorem constant_number (env : JsonEnv φ) {s : PyStr} (h : StartsNumber s) :
    constant env s = none := by
  obtain ⟨d, tail, hd, hs⟩ := h
  have hbounds := isDigit_bounds hd
  unfold constant
  rw [Option.map_eq_none_iff, List.find?_eq_none]
  intro w hw
  have hwords : w.1 ∈ [pyText "null", pyText "true", pyText "false", pyText "NaN",
      pyText "Infinity", pyText "-Infinity"] := List.mem_map_of_mem (f := Prod.fst) hw
  have hheads : ∀ word ∈ [pyText "null", pyText "true", pyText "false", pyText "NaN",
      pyText "Infinity", pyText "-Infinity"],
      ∃ x y rest, word = x :: y :: rest ∧ (57 < x ∨ x = 45 ∧ 57 < y) := by
    intro word hword
    simp only [List.mem_cons, List.not_mem_nil, or_false] at hword
    rcases hword with rfl | rfl | rfl | rfl | rfl | rfl <;> exact ⟨_, _, _, rfl, by decide⟩
  have hminus : ord '-' = 45 := rfl
  rw [decide_eq_true_eq]
  obtain ⟨x, y, rest, hword, hxy⟩ := hheads w.1 hwords
  rw [hword]
  rintro ⟨t, ht⟩
  rcases hs with rfl | rfl
  · obtain ⟨rfl, -⟩ := List.cons.inj ht
    omega
  · obtain ⟨hx, ht⟩ := List.cons.inj ht
    obtain ⟨rfl, -⟩ := List.cons.inj ht
    omega

theorem scanFrom_number (env : JsonEnv φ) (inner : Option (PyStr → Scan (PyJson φ))) {s : PyStr}
    (h : StartsNumber s) : scanFrom env inner s = scanNumber env s := by
  have hconstant := constant_number env h
  obtain ⟨d, tail, hd, hs⟩ := h
  have hbounds := isDigit_bounds hd
  have hquote : ord '"' = 34 := rfl
  have hbrace : ord '{' = 123 := rfl
  have hbracket : ord '[' = 91 := rfl
  have hminus : ord '-' = 45 := rfl
  rcases hs with rfl | rfl
  · unfold scanFrom
    dsimp only
    rw [if_neg (by omega), if_neg (by omega), if_neg (by omega), hconstant]
  · unfold scanFrom
    dsimp only
    rw [if_neg (by omega), if_neg (by omega), if_neg (by omega), hconstant]

theorem scan_eq (env : JsonEnv φ) (depth : ℕ) :
    ∃ inner, scan env depth = scanFrom env inner := by
  cases depth with
  | zero => exact ⟨none, rfl⟩
  | succ depth => exact ⟨some (scan env depth), rfl⟩

/-! ## Integers denote themselves -/

theorem isNumber_int (n : ℤ) :
    IsNumber (if n < 0 then [ord '-'] else []) (natStr n.natAbs) [] [] where
  sign := by
    split
    · exact .inr rfl
    · exact .inl rfl
  digits := ⟨_, rfl⟩
  frac := .inl rfl
  exp := .inl rfl

theorem intStr_eq (n : ℤ) :
    intStr n = (if n < 0 then [ord '-'] else []) ++ (natStr n.natAbs ++ ([] ++ [])) := by
  unfold intStr
  split
  · simp
  · simp

theorem numberValue_int (env : JsonEnv φ) {n : ℤ}
    (hlimit : ¬ (env.intMaxStrDigits ≠ 0 ∧ env.intMaxStrDigits < (natStr n.natAbs).length)) :
    numberValue env (if n < 0 then [ord '-'] else []) (natStr n.natAbs) [] [] =
      .ok (.int n) := by
  unfold numberValue
  rw [if_pos ⟨rfl, rfl⟩, if_neg hlimit, ofDigits_natStr]
  refine congrArg (fun m => Except.ok (PyAtom.int m)) ?_
  by_cases hneg : n < 0
  · rw [if_pos hneg, if_neg (List.cons_ne_nil _ _)]
    omega
  · rw [if_neg hneg, if_pos rfl]
    omega

/-- **An integer denotes itself**, unless it is too long to be read. -/
theorem loads_intStr (env : JsonEnv φ) (n : ℤ)
    (hlimit : env.intMaxStrDigits = 0 ∨ (natStr n.natAbs).length ≤ env.intMaxStrDigits) :
    loads env (intStr n) = .ok (.atom (.int n)) := by
  have hnumber := isNumber_int n
  have hstarts : StartsNumber (intStr n) := intStr_eq n ▸ hnumber.startsNumber ([] ++ [])
  have hscan : scan env env.maxDepth (intStr n) = .ok (.atom (.int n), []) := by
    obtain ⟨inner, hinner⟩ := scan_eq env env.maxDepth
    have hstops : Stops [] := nofun
    rw [hinner, scanFrom_number env inner hstarts, intStr_eq]
    refine (scanNumber_append env hnumber hstops).trans ?_
    rw [numberValue_int env (by omega)]
    rfl
  obtain ⟨hskip, hbom⟩ : skipWs (intStr n) = intStr n ∧ (intStr n).head? ≠ some 0xFEFF := by
    obtain ⟨d, tail, hd, hs⟩ := hstarts
    have hbounds := isDigit_bounds hd
    rcases hs with hs | hs
    · rw [hs]
      refine ⟨skipWs_cons (by omega) tail, ?_⟩
      rintro ⟨⟩
      omega
    · rw [hs]
      refine ⟨skipWs_cons (by decide) (d :: tail), ?_⟩
      rintro ⟨⟩
  unfold loads
  rw [if_neg hbom, hskip, hscan]
  rfl

/-! ## Words -/

/-- The words, and what they denote. -/
def wordValue (env : JsonEnv φ) : List (PyStr × PyAtom φ) := [
  (pyText "null", .none), (pyText "true", .bool true), (pyText "false", .bool false),
  (pyText "NaN", .float (env.parseFloat (pyText "NaN"))),
  (pyText "Infinity", .float (env.parseFloat (pyText "Infinity"))),
  (pyText "-Infinity", .float (env.parseFloat (pyText "-Infinity")))]

theorem scanFrom_word (env : JsonEnv φ) (inner : Option (PyStr → Scan (PyJson φ)))
    {w : PyStr × PyAtom φ} (hw : w ∈ wordValue env) (rest : PyStr) :
    scanFrom env inner (w.1 ++ rest) = .ok (.atom w.2, rest) := by
  unfold wordValue at hw
  simp only [List.mem_cons, List.not_mem_nil, or_false] at hw
  rcases hw with rfl | rfl | rfl | rfl | rfl | rfl <;> rfl

end Notifyr
