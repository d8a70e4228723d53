import Mathlib.Data.List.TakeWhile
import Mathlib.Data.Nat.Digits.Lemmas
import Notifyr.Runtime.PyStr
import Notifyr.Theory.NestedDict

/-!
# Reading JSON in Python

`json.loads` on a `str`, with the default arguments, as the standard library's scanner does it.

- `PyAtom`, `PyJson`: the values; the floats are a parameter.
- `JsonEnv`: what the interpreter decides: `float(text)`, the longest integer, the deepest
  document.
- `scanString`, `scanNumber`, `scan`: the scanner; each gives a value and what is left.
- `loads`: the function. It raises `JSONDecodeError`, or, for what the interpreter refuses to
  hold, `ValueError` or `RecursionError`.
- `loads_ne_self`: no document is a text that denotes itself.
- `intStr`: `str(n)`.
-/

namespace Notifyr

open Theory

/-- A value without parts. -/
inductive PyAtom (φ : Type)
  | none
  | bool (b : Bool)
  | int (n : ℤ)
  | float (x : φ)
  | str (s : PyStr)
  deriving DecidableEq

/-- A value of a JSON document. -/
abbrev PyJson (φ : Type) := NestedDict PyStr (PyAtom φ)

/-- A text. -/
abbrev PyJson.str {φ : Type} (s : PyStr) : PyJson φ := .atom (.str s)

/-- What the interpreter decides. -/
structure JsonEnv (φ : Type) where
  /-- `float(text)` of a literal. -/
  parseFloat : PyStr → φ
  /-- `sys.get_int_max_str_digits()`; zero is no limit. -/
  intMaxStrDigits : ℕ
  /-- How deep the recursion limit lets containers be nested. -/
  maxDepth : ℕ

/-- How scanning ends without a value. -/
inductive JsonExc
  | jsonDecodeError
  | valueError
  | recursionError
  deriving DecidableEq

/-- A value and what is left of the document. -/
abbrev Scan (β : Type) := Except JsonExc (β × PyStr)

/-- Scanning that fails in the one usual way. -/
def orDecodeError {β : Type} : Option (β × PyStr) → Scan β
  | some r => .ok r
  | none => .error .jsonDecodeError

/-! ## Strings -/

/-- A hexadecimal digit. -/
def hexValue (c : ℕ) : Option ℕ :=
  if ord '0' ≤ c ∧ c ≤ ord '9' then some (c - ord '0')
  else if ord 'a' ≤ c ∧ c ≤ ord 'f' then some (c - ord 'a' + 10)
  else if ord 'A' ≤ c ∧ c ≤ ord 'F' then some (c - ord 'A' + 10)
  else none

/-- Four of them. -/
def hex4 (a b c d : ℕ) : Option ℕ := do
  return ((← hexValue a) * 4096 + (← hexValue b) * 256 + (← hexValue c) * 16 + (← hexValue d))

/-- `BACKSLASH`: the letter after a backslash. -/
def backslash (c : ℕ) : Option ℕ :=
  if c = ord '"' ∨ c = ord '\\' ∨ c = ord '/' then some c
  else if c = ord 'b' then some 8
  else if c = ord 'f' then some 12
  else if c = ord 'n' then some 10
  else if c = ord 'r' then some 13
  else if c = ord 't' then some 9
  else none

/-- The letters of a string after its opening quote, each with whether it was written as a
`\u` escape. -/
def scanLetters : PyStr → Option (List (ℕ × Bool) × PyStr)
  | [] => none
  | c :: rest =>
    if c = ord '"' then some ([], rest)
    else if c < 32 then none
    else if c = ord '\\' then
      match rest with
      | [] => none
      | e :: rest =>
        if e = ord 'u' then
          match rest with
          | h₁ :: h₂ :: h₃ :: h₄ :: rest =>
            (hex4 h₁ h₂ h₃ h₄).bind fun u =>
              (scanLetters rest).map fun r => ((u, true) :: r.1, r.2)
          | _ => none
        else
          (backslash e).bind fun u => (scanLetters rest).map fun r => ((u, false) :: r.1, r.2)
    else (scanLetters rest).map fun r => ((c, false) :: r.1, r.2)

/-- Two escapes that make one code point together are one. -/
def joinPairs : List (ℕ × Bool) → PyStr
  | [] => []
  | [c] => [c.1]
  | c :: c' :: rest =>
    if c.2 ∧ c'.2 ∧ (0xD800 ≤ c.1 ∧ c.1 ≤ 0xDBFF) ∧ (0xDC00 ≤ c'.1 ∧ c'.1 ≤ 0xDFFF) then
      (0x10000 + (c.1 - 0xD800) * 1024 + (c'.1 - 0xDC00)) :: joinPairs rest
    else c.1 :: joinPairs (c' :: rest)

/-- `scanstring`, after the opening quote. -/
def scanString (s : PyStr) : Option (PyStr × PyStr) :=
  (scanLetters s).map fun r => (joinPairs r.1, r.2)

/-! ## Numbers -/

/-- A decimal digit. -/
def isDigit (c : ℕ) : Bool := ord '0' ≤ c ∧ c ≤ ord '9'

/-- The number some digits denote. -/
def ofDigits (ds : PyStr) : ℕ := ds.foldl (fun n d => n * 10 + (d - ord '0')) 0

/-- The sign of a number. -/
def minus (s : PyStr) : PyStr := if s.head? = some (ord '-') then [ord '-'] else []

/-- The digits of the integer part: one zero, or digits that do not start with it. -/
def intDigits (s : PyStr) : PyStr :=
  match s with
  | [] => []
  | c :: _ => if c = ord '0' then [c] else s.takeWhile isDigit

/-- The fraction, which is nothing unless there is a digit in it. -/
def fraction (s : PyStr) : PyStr :=
  match s with
  | c :: rest =>
    let ds := rest.takeWhile isDigit
    if c = ord '.' ∧ ds ≠ [] then c :: ds else []
  | [] => []

/-- The sign of an exponent. -/
def exponentSign (s : PyStr) : PyStr :=
  match s with
  | c :: _ => if c = ord '+' ∨ c = ord '-' then [c] else []
  | [] => []

/-- The exponent, which is nothing unless there is a digit in it. -/
def exponent (s : PyStr) : PyStr :=
  match s with
  | c :: rest =>
    let sign := exponentSign rest
    let ds := (rest.drop sign.length).takeWhile isDigit
    if (c = ord 'e' ∨ c = ord 'E') ∧ ds ≠ [] then c :: sign ++ ds else []
  | [] => []

variable {φ : Type}

/-- The value of a number; without a fraction and an exponent it is an integer. -/
def numberValue (env : JsonEnv φ) (sign ds frac exp : PyStr) : Except JsonExc (PyAtom φ) :=
  if frac = [] ∧ exp = [] then
    if env.intMaxStrDigits ≠ 0 ∧ env.intMaxStrDigits < ds.length then .error .valueError
    else .ok (.int (if sign = [] then ofDigits ds else - ofDigits ds))
  else .ok (.float (env.parseFloat (sign ++ ds ++ frac ++ exp)))

/-- A number, as far as it goes. -/
def scanNumber (env : JsonEnv φ) (s : PyStr) : Scan (PyJson φ) :=
  let sign := minus s
  let ds := intDigits (s.drop sign.length)
  let rest := s.drop (sign.length + ds.length)
  let frac := fraction rest
  let exp := exponent (rest.drop frac.length)
  if ds = [] then .error .jsonDecodeError
  else (numberValue env sign ds frac exp).map fun a =>
    (.atom a, rest.drop (frac.length + exp.length))

/-! ## Documents -/

/-- Whitespace is passed. -/
def skipWs (s : PyStr) : PyStr :=
  s.dropWhile fun c => c = ord ' ' ∨ c = ord '\t' ∨ c = ord '\n' ∨ c = ord '\r'

/-- A word the document goes on with, and its value. -/
def constant (env : JsonEnv φ) (s : PyStr) : Option (PyJson φ × PyStr) :=
  let words : List (PyStr × PyAtom φ) := [
    (pyText "null", .none), (pyText "true", .bool true), (pyText "false", .bool false),
    (pyText "NaN", .float (env.parseFloat (pyText "NaN"))),
    (pyText "Infinity", .float (env.parseFloat (pyText "Infinity"))),
    (pyText "-Infinity", .float (env.parseFloat (pyText "-Infinity")))]
  (words.find? fun w => w.1 <+: s).map fun w => (.atom w.2, s.drop w.1.length)

/-- The items of an array or the members of an object, from the first one on to the closing
bracket. There are no more of them than letters. -/
def scanMany {β : Type} (close : ℕ) (item : PyStr → Scan β) :
    ℕ → PyStr → Except JsonExc (List β × PyStr)
  | 0, _ => .error .jsonDecodeError
  | n + 1, s => do
    let (b, left) ← item s
    match skipWs left with
    | [] => .error .jsonDecodeError
    | c :: left =>
      if c = close then return ([b], left)
      else if c = ord ',' then do
        let (bs, left) ← scanMany close item n (skipWs left)
        return (b :: bs, left)
      else .error .jsonDecodeError

/-- A container after its opening bracket: empty, or with items. -/
def scanContainer {β : Type} (close : ℕ) (item : PyStr → Scan β) (s : PyStr) : Scan (List β) :=
  let s := skipWs s
  if s.head? = some close then .ok ([], s.tail) else scanMany close item s.length s

/-- A member of an object. -/
def scanMember (value : PyStr → Scan (PyJson φ)) (s : PyStr) :
    Except JsonExc ((PyStr × PyJson φ) × PyStr) := do
  if s.head? ≠ some (ord '"') then .error .jsonDecodeError
  else
    let (key, left) ← orDecodeError (scanString s.tail)
    let left := skipWs left
    if left.head? ≠ some (ord ':') then .error .jsonDecodeError
    else
      let (v, left) ← value (skipWs left.tail)
      return ((key, v), left)

/-- A container where the recursion limit leaves room for one; `inner` scans what is in it. -/
def scanFrom (env : JsonEnv φ) (inner : Option (PyStr → Scan (PyJson φ))) (s : PyStr) :
    Scan (PyJson φ) :=
  match s with
  | [] => .error .jsonDecodeError
  | c :: rest =>
    if c = ord '"' then
      (orDecodeError (scanString rest)).map fun r => (.str r.1, r.2)
    else if c = ord '{' then
      match inner with
      | none => .error .recursionError
      | some inner => (scanContainer (ord '}') (scanMember inner) rest).map fun r =>
          (.dict (r.1.foldl (fun es e => NestedDict.insertKey es e.1 e.2) []), r.2)
    else if c = ord '[' then
      match inner with
      | none => .error .recursionError
      | some inner => (scanContainer (ord ']') inner rest).map fun r => (.list r.1, r.2)
    else
      match constant env s with
      | some r => .ok r
      | none => scanNumber env s

/-- `scan_once`. -/
def scan (env : JsonEnv φ) : ℕ → PyStr → Scan (PyJson φ)
  | 0 => scanFrom env none
  | depth + 1 => scanFrom env (some (scan env depth))

/-- `json.loads(s)`. -/
def loads (env : JsonEnv φ) (s : PyStr) : Except JsonExc (PyJson φ) := do
  if s.head? = some 0xFEFF then .error .jsonDecodeError
  else
    let (v, left) ← scan env env.maxDepth (skipWs s)
    if skipWs left = [] then return v else .error .jsonDecodeError

/-! ## No text denotes itself -/

/-- A letter in front of the others. -/
theorem letter_length {r : Option (List (ℕ × Bool) × PyStr)} {c : ℕ × Bool} {rest : PyStr}
    (ih : ∀ {letters left}, r = some (letters, left) →
      letters.length + left.length < rest.length)
    {letters : List (ℕ × Bool)} {left : PyStr}
    (h : (r.map fun r => (c :: r.1, r.2)) = some (letters, left)) :
    letters.length + left.length < rest.length + 1 := by
  obtain ⟨⟨letters', left'⟩, hr, heq⟩ := Option.map_eq_some_iff.mp h
  cases heq
  have hlen := ih hr
  show letters'.length + 1 + left'.length < rest.length + 1
  omega

theorem scanLetters_length {s : PyStr} {letters : List (ℕ × Bool)} {left : PyStr}
    (h : scanLetters s = some (letters, left)) : letters.length + left.length < s.length := by
  fun_induction scanLetters s generalizing letters left with
  | case1 => cases h
  | case2 rest =>
    cases h
    simp
  | case3 => cases h
  | case4 => cases h
  | case5 h₁ h₂ h₃ h₄ rest _ _ ih =>
    obtain ⟨u, -, h⟩ := Option.bind_eq_some_iff.mp h
    have hlen := letter_length ih h
    simp only [List.length_cons]
    omega
  | case6 => cases h
  | case7 e rest _ _ _ ih =>
    obtain ⟨u, -, h⟩ := Option.bind_eq_some_iff.mp h
    have hlen := letter_length ih h
    simp only [List.length_cons]
    omega
  | case8 c rest _ _ _ ih => exact letter_length ih h

theorem joinPairs_length (letters : List (ℕ × Bool)) :
    (joinPairs letters).length ≤ letters.length := by
  fun_induction joinPairs letters with
  | case1 => exact le_rfl
  | case2 => exact le_rfl
  | case3 c c' rest _ ih =>
    simp only [List.length_cons]
    omega
  | case4 c c' rest _ ih =>
    simp only [List.length_cons] at ih ⊢
    omega

/-- A string is shorter than what it is written as. -/
theorem scanString_length {s t left : PyStr} (h : scanString s = some (t, left)) :
    t.length < s.length := by
  obtain ⟨⟨letters, left'⟩, hscan, heq⟩ := Option.map_eq_some_iff.mp h
  cases heq
  have hletters := scanLetters_length hscan
  have hjoin := joinPairs_length letters
  show (joinPairs letters).length < s.length
  omega

theorem constant_ne_str {env : JsonEnv φ} {s t left : PyStr} :
    constant env s ≠ some (.str t, left) := by
  intro h
  obtain ⟨⟨word, a⟩, hfind, heq⟩ := Option.map_eq_some_iff.mp h
  have hmem := List.mem_of_find?_eq_some hfind
  have ha : a = .str t := by
    have := (Prod.mk.injEq _ _ _ _ ▸ heq).1
    exact NestedDict.atom.inj this
  subst ha
  simp at hmem

theorem numberValue_ne_str {env : JsonEnv φ} {sign ds frac exp t : PyStr} :
    numberValue env sign ds frac exp ≠ .ok (.str t) := by
  intro h
  unfold numberValue at h
  split at h
  · split at h
    · cases h
    · cases h
  · cases h

theorem scanNumber_ne_str {env : JsonEnv φ} {s t left : PyStr} :
    scanNumber env s ≠ .ok (.str t, left) := by
  intro h
  unfold scanNumber at h
  dsimp only at h
  split at h
  · cases h
  · obtain ⟨a, ha, heq⟩ := map_ok h
    cases heq
    exact numberValue_ne_str ha

theorem scanFrom_str_length {env : JsonEnv φ} {inner : Option (PyStr → Scan (PyJson φ))}
    {s t left : PyStr} (h : scanFrom env inner s = .ok (.str t, left)) : t.length < s.length := by
  unfold scanFrom at h
  cases s with
  | nil => cases h
  | cons c rest =>
    dsimp only at h
    split at h
    · -- a string: the only way to a text
      obtain ⟨⟨t', left'⟩, hscan, heq⟩ := map_ok h
      cases heq
      cases hstring : scanString rest with
      | none =>
        rw [hstring] at hscan
        cases hscan
      | some r =>
        rw [hstring] at hscan
        cases hscan
        have hlen : t'.length < rest.length := scanString_length hstring
        show t'.length < rest.length + 1
        omega
    · split at h
      · cases inner with
        | none => cases h
        | some inner =>
          obtain ⟨r, -, heq⟩ := map_ok h
          cases heq
      · split at h
        · cases inner with
          | none => cases h
          | some inner =>
            obtain ⟨r, -, heq⟩ := map_ok h
            cases heq
        · cases hconst : constant env (c :: rest) with
          | none =>
            rw [hconst] at h
            exact absurd h scanNumber_ne_str
          | some r =>
            rw [hconst] at h
            cases h
            exact absurd hconst constant_ne_str

theorem skipWs_length (s : PyStr) : (skipWs s).length ≤ s.length :=
  (List.dropWhile_sublist _).length_le

theorem loads_str_length {env : JsonEnv φ} {s t : PyStr} (h : loads env s = .ok (.str t)) :
    t.length < s.length := by
  unfold loads at h
  split at h
  · cases h
  · obtain ⟨⟨v, left⟩, hscan, h⟩ := bind_ok h
    dsimp only at h
    split at h
    · cases h
      have hws := skipWs_length s
      have hlen : t.length < (skipWs s).length := by
        cases hdepth : env.maxDepth with
        | zero =>
          rw [hdepth] at hscan
          exact scanFrom_str_length hscan
        | succ depth =>
          rw [hdepth] at hscan
          exact scanFrom_str_length hscan
      omega
    · cases h

/-- No document is a text that denotes itself. -/
theorem loads_ne_self (env : JsonEnv φ) (s : PyStr) : loads env s ≠ .ok (.str s) := by
  intro h
  exact absurd (loads_str_length h) (lt_irrefl _)

/-! ## The texts of integers -/

/-- `str(n)` of a natural number. -/
def natStr (n : ℕ) : PyStr :=
  if n = 0 then [ord '0'] else (Nat.digits 10 n).reverse.map (· + ord '0')

/-- `str(n)`. -/
def intStr (n : ℤ) : PyStr :=
  if n < 0 then ord '-' :: natStr n.natAbs else natStr n.natAbs

theorem isDigit_bounds {c : ℕ} (h : isDigit c = true) : 48 ≤ c ∧ c ≤ 57 := by
  have hzero : ord '0' = 48 := rfl
  have hnine : ord '9' = 57 := rfl
  unfold isDigit at h
  rw [hzero, hnine, decide_eq_true_eq] at h
  exact h

theorem isDigit_natStr {n c : ℕ} (h : c ∈ natStr n) : isDigit c = true := by
  unfold natStr at h
  split at h
  · rw [List.mem_singleton.mp h]
    decide
  · obtain ⟨d, hd, rfl⟩ := List.mem_map.mp h
    have hlt : d < 10 := Nat.digits_lt_base (by norm_num) (List.mem_reverse.mp hd)
    have hzero : ord '0' = 48 := rfl
    have hnine : ord '9' = 57 := rfl
    unfold isDigit
    rw [hzero, hnine, decide_eq_true_eq]
    omega

/-- The text of an integer is ASCII. -/
theorem isSome_text?_intStr (n : ℤ) : (intStr n).text?.isSome := by
  have hdigits : ∀ c ∈ natStr n.natAbs, c.isValidChar := by
    intro c hc
    have hbounds := isDigit_bounds (isDigit_natStr hc)
    exact .inl (by omega)
  refine isSome_text? ?_
  unfold intStr
  split
  · intro c hc
    rcases List.mem_cons.mp hc with rfl | hc
    · exact '-'.valid
    · exact hdigits c hc
  · exact hdigits

/-- The digits of a number, with its first digit apart. -/
theorem exists_natStr_cons (n : ℕ) :
    ∃ d ds, natStr n = d :: ds ∧ (d = ord '0' → ds = []) := by
  unfold natStr
  split
  · exact ⟨ord '0', [], rfl, fun _ => rfl⟩
  · rename_i hn
    have hne : Nat.digits 10 n ≠ [] := Nat.digits_ne_nil_iff_ne_zero.mpr hn
    have hrev : (Nat.digits 10 n).reverse ≠ [] := List.reverse_ne_nil_iff.mpr hne
    refine ⟨(Nat.digits 10 n).getLast hne + ord '0',
      ((Nat.digits 10 n).reverse.tail).map (· + ord '0'), ?_, ?_⟩
    · conv_lhs => rw [← List.cons_head_tail hrev, List.head_reverse]
      rfl
    · intro hzero
      have hlast := Nat.getLast_digit_ne_zero 10 hn
      omega

theorem ofDigits_natStr (n : ℕ) : ofDigits (natStr n) = n := by
  unfold natStr
  split
  · rename_i hn
    rw [hn]
    rfl
  · have hfold : ∀ ds : List ℕ, ds.foldr (fun d m => m * 10 + (d + ord '0' - ord '0')) 0 =
        Nat.ofDigits 10 ds := by
      intro ds
      induction ds with
      | nil => rfl
      | cons d ds ih =>
        rw [List.foldr_cons, ih, Nat.ofDigits_cons, Nat.add_sub_cancel]
        omega
    unfold ofDigits
    rw [List.foldl_map, List.foldl_reverse, hfold, Nat.ofDigits_digits]

theorem skipWs_cons {c : ℕ} (h : 32 < c) (s : PyStr) : skipWs (c :: s) = c :: s := by
  have htab : ord '\t' = 9 := rfl
  have hnl : ord '\n' = 10 := rfl
  have hcr : ord '\r' = 13 := rfl
  have hsp : ord ' ' = 32 := rfl
  unfold skipWs
  rw [List.dropWhile_cons_of_neg]
  rw [htab, hnl, hcr, hsp, decide_eq_true_eq]
  omega

end Notifyr
