import Notifyr.Runtime.JsonText

/-!
# Writing JSON in Python

`json.dumps` with the default arguments and a function for what JSON does not know, and what
`json.loads` makes of the text.

- `PyValue`: the values of Python that are not only documents: tuples, members of an `Enum`,
  dictionaries with any keys.
- `dumps`: the function.
- `decoded`: what a value comes back as; `loads_dumps`. The text is ASCII (`isAscii_dumps`).
- `PlainValue`: the values that come back as they were; `ofJson_decoded_iff`.
-/

namespace Notifyr

open Theory NestedDict

variable {φ : Type}

/-! ## Values -/

/-- A key of a dictionary; `other` is one that JSON has no text for. -/
inductive PyKey (φ : Type)
  | str (s : PyStr)
  | int (n : ℤ)
  | float (x : φ)
  | bool (b : Bool)
  | none
  | other

/-- A value of Python. An `object` is one that neither JSON nor the function for the rest knows. -/
inductive PyValue (φ : Type)
  | atom (a : PyAtom φ)
  | list (items : List (PyValue φ))
  | tuple (items : List (PyValue φ))
  | enum (name : PyStr) (value : PyValue φ)
  | dict (entries : List (PyKey φ × PyValue φ))
  | object

/-- The interpreter, with `float.__repr__`: a number or a word, which `float` reads back. -/
structure DumpsEnv (φ : Type) extends JsonEnv φ where
  floatRepr : φ → PyStr
  floatRepr_form : ∀ x, floatRepr x ∈ [pyText "NaN", pyText "Infinity", pyText "-Infinity"] ∨
    ∃ sign ds frac exp, IsNumber sign ds frac exp ∧ (frac ≠ [] ∨ exp ≠ []) ∧
      floatRepr x = sign ++ (ds ++ (frac ++ exp))
  parseFloat_floatRepr : ∀ x, parseFloat (floatRepr x) = x

/-- How writing fails. -/
inductive DumpsExc
  | typeError
  | valueError
  | recursionError

/-- `int.__repr__`, which refuses what is too long. -/
def reprInt (env : DumpsEnv φ) (n : ℤ) : Except DumpsExc PyStr :=
  if env.intMaxStrDigits ≠ 0 ∧ env.intMaxStrDigits < (natStr n.natAbs).length then
    .error .valueError
  else .ok (intStr n)

/-- The text of a boolean. -/
def boolText (b : Bool) : PyStr := if b then pyText "true" else pyText "false"

/-- A value without parts. -/
def dumpsAtom (env : DumpsEnv φ) : PyAtom φ → Except DumpsExc PyStr
  | .none => .ok (pyText "null")
  | .bool b => .ok (boolText b)
  | .int n => reprInt env n
  | .float x => .ok (env.floatRepr x)
  | .str s => .ok (dumpsStr s)

/-- A key as a string. -/
def keyText (env : DumpsEnv φ) : PyKey φ → Except DumpsExc PyStr
  | .str s => .ok s
  | .int n => reprInt env n
  | .float x => .ok (env.floatRepr x)
  | .bool b => .ok (boolText b)
  | .none => .ok (pyText "null")
  | .other => .error .typeError

/-- Texts between brackets, with the separator of items. -/
def bracketed (left right : Char) (parts : List PyStr) : PyStr :=
  ord left :: (PyStr.join (pyText ", ") parts ++ [ord right])

mutual

/-- `json.dumps(value, default=enum_encoder)`, where the recursion limit leaves room for so many
containers. A member of an `Enum` is written as its value. -/
def dumps (env : DumpsEnv φ) : ℕ → PyValue φ → Except DumpsExc PyStr
  | _, .atom a => dumpsAtom env a
  | 0, .list _ => .error .recursionError
  | depth + 1, .list items => do return bracketed '[' ']' (← dumpsItems env depth items)
  | 0, .tuple _ => .error .recursionError
  | depth + 1, .tuple items => do return bracketed '[' ']' (← dumpsItems env depth items)
  | 0, .enum _ _ => .error .recursionError
  | depth + 1, .enum _ value => dumps env depth value
  | 0, .dict _ => .error .recursionError
  | depth + 1, .dict entries => do return bracketed '{' '}' (← dumpsEntries env depth entries)
  | _, .object => .error .typeError

/-- The items of an array. -/
def dumpsItems (env : DumpsEnv φ) (depth : ℕ) : List (PyValue φ) → Except DumpsExc (List PyStr)
  | [] => .ok []
  | v :: items => do
    let t ← dumps env depth v
    return t :: (← dumpsItems env depth items)

/-- The members of an object. -/
def dumpsEntries (env : DumpsEnv φ) (depth : ℕ) :
    List (PyKey φ × PyValue φ) → Except DumpsExc (List PyStr)
  | [] => .ok []
  | (k, v) :: entries => do
    let key ← keyText env k
    let t ← dumps env depth v
    return (dumpsStr key ++ pyText ": " ++ t) :: (← dumpsEntries env depth entries)

end

/-- An atom as it comes back. -/
def decodedAtom : PyAtom φ → PyAtom φ
  | .str s => .str (joined s)
  | a => a

/-- A key as it comes back. -/
def decodedKey (env : DumpsEnv φ) (k : PyKey φ) : PyStr :=
  joined ((keyText env k).toOption.getD [])

mutual

/-- What a value comes back as. -/
def decoded (env : DumpsEnv φ) : PyValue φ → PyJson φ
  | .atom a => .atom (decodedAtom a)
  | .list items => .list (decodedItems env items)
  | .tuple items => .list (decodedItems env items)
  | .enum _ value => decoded env value
  | .dict entries => .dict (insertAll [] (decodedEntries env entries))
  | .object => .atom .none

/-- The items of an array. -/
def decodedItems (env : DumpsEnv φ) : List (PyValue φ) → List (PyJson φ)
  | [] => []
  | v :: items => decoded env v :: decodedItems env items

/-- The members of an object, as they are read; a later one for a key replaces an earlier one. -/
def decodedEntries (env : DumpsEnv φ) :
    List (PyKey φ × PyValue φ) → Entries PyStr (PyAtom φ)
  | [] => []
  | (k, v) :: entries => (decodedKey env k, decoded env v) :: decodedEntries env entries

end

/-- A text of code points. -/
def IsText (s : PyStr) : Prop := ∀ c ∈ s, c < 0x110000

/-- The same of a key. -/
def PyKey.IsText : PyKey φ → Prop
  | .str s => Notifyr.IsText s
  | _ => True

mutual

/-- The texts in a value are texts of code points, and no two entries of a dictionary in it are for
one key. -/
def PyValue.Valid : PyValue φ → Prop
  | .atom (.str s) => Notifyr.IsText s
  | .atom _ => True
  | .list items => ItemsValid items
  | .tuple items => ItemsValid items
  | .enum _ value => PyValue.Valid value
  | .dict entries => EntriesValid entries
  | .object => True

/-- The same of the items of a list. -/
def ItemsValid : List (PyValue φ) → Prop
  | [] => True
  | v :: items => PyValue.Valid v ∧ ItemsValid items

/-- The same of the entries of a dictionary. -/
def EntriesValid : List (PyKey φ × PyValue φ) → Prop
  | [] => True
  | (k, v) :: entries =>
    k.IsText ∧ (∀ e ∈ entries, e.1 ≠ k) ∧ PyValue.Valid v ∧ EntriesValid entries

end

/-! ## Reading what was written -/

/-- The text of a value begins with a letter that is neither a blank nor a closing bracket. -/
def Opens (t : PyStr) : Prop :=
  ∃ c s, t = c :: s ∧ 32 < c ∧ c < 127 ∧ c ≠ ord ']' ∧ c ≠ ord '}'

/-- A text is scanned to a value, whatever stops it. -/
def ScansTo {β : Type} (item : PyStr → Scan β) (t : PyStr) (v : β) : Prop :=
  ∀ rest, Stops rest → item (t ++ rest) = .ok (v, rest)

theorem Opens.ne_nil {t : PyStr} (h : Opens t) : t ≠ [] := by
  obtain ⟨c, s, rfl, -⟩ := h
  exact List.cons_ne_nil _ _

theorem Opens.skipWs_append {t : PyStr} (h : Opens t) (rest : PyStr) :
    skipWs (t ++ rest) = t ++ rest := by
  obtain ⟨c, s, rfl, hc, -⟩ := h
  exact skipWs_cons hc _

theorem stops_cons {c : ℕ} (h : c = ord ',' ∨ c = ord ']' ∨ c = ord '}') (rest : PyStr) :
    Stops (c :: rest) := by
  rintro d ⟨⟩
  exact h

theorem join_two (sep p q : PyStr) (ps : List PyStr) :
    PyStr.join sep (p :: q :: ps) = p ++ (sep ++ PyStr.join sep (q :: ps)) := by
  rw [PyStr.join, List.intercalate_cons_cons, List.append_assoc]
  rfl

theorem length_le_join {parts : List PyStr} (h : ∀ t ∈ parts, Opens t) (sep : PyStr) :
    parts.length ≤ (PyStr.join sep parts).length := by
  induction parts with
  | nil => exact Nat.zero_le _
  | cons t parts ih =>
    have hpos : 0 < t.length := List.length_pos_iff.mpr (h t List.mem_cons_self).ne_nil
    have hrest := ih fun u hu => h u (List.mem_cons_of_mem _ hu)
    cases parts with
    | nil =>
      rw [PyStr.join, List.intercalate_singleton]
      exact hpos
    | cons u parts =>
      rw [join_two, List.length_append, List.length_append]
      simp only [List.length_cons] at hrest ⊢
      omega

theorem skipWs_space (s : PyStr) : skipWs (ord ' ' :: s) = skipWs s := rfl

theorem skipWs_join {sep : PyStr} {parts : List PyStr} (hne : parts ≠ [])
    (h : ∀ t ∈ parts, Opens t) (rest : PyStr) :
    skipWs (PyStr.join sep parts ++ rest) = PyStr.join sep parts ++ rest := by
  obtain ⟨t, parts, rfl⟩ := List.exists_cons_of_ne_nil hne
  have ht := h t List.mem_cons_self
  cases parts with
  | nil =>
    rw [PyStr.join, List.intercalate_singleton]
    exact ht.skipWs_append rest
  | cons u parts =>
    rw [join_two, List.append_assoc]
    exact ht.skipWs_append _

theorem scanMany_close {β : Type} {close : ℕ} {item : PyStr → Scan β} {s left rest : PyStr} {b : β}
    (hitem : item s = .ok (b, left)) (hleft : skipWs left = close :: rest) (n : ℕ) :
    scanMany close item (n + 1) s = .ok ([b], rest) := by
  simp [scanMany, hitem, hleft, Bind.bind, Except.bind, Pure.pure, Except.pure]

theorem scanMany_comma {β : Type} {close : ℕ} {item : PyStr → Scan β} {s left rest : PyStr} {b : β}
    (hitem : item s = .ok (b, left)) (hleft : skipWs left = ord ',' :: rest)
    (hclose : ¬ ord ',' = close) (n : ℕ) :
    scanMany close item (n + 1) s =
      (scanMany close item n (skipWs rest)).map fun r => (b :: r.1, r.2) := by
  simp only [scanMany, hitem, hleft, Bind.bind, Except.bind, Pure.pure, Except.pure, if_neg hclose,
    if_true]
  cases scanMany close item n (skipWs rest) <;> rfl

/-- Items that are scanned one by one are scanned one after the other. -/
theorem scanMany_join {β : Type} {close : Char} (hclose : close = ']' ∨ close = '}')
    {item : PyStr → Scan β} {parts : List (PyStr × β)} (hne : parts ≠ [])
    (hopens : ∀ p ∈ parts, Opens p.1) (hitem : ∀ p ∈ parts, ScansTo item p.1 p.2) {fuel : ℕ}
    (hfuel : parts.length ≤ fuel) (rest : PyStr) :
    scanMany (ord close) item fuel
        (PyStr.join (pyText ", ") (parts.map Prod.fst) ++ ord close :: rest) =
      .ok (parts.map Prod.snd, rest) := by
  have hspace : 32 < ord close := by
    rcases hclose with rfl | rfl <;> decide
  have hcomma : ¬ ord ',' = ord close := by
    rcases hclose with rfl | rfl <;> decide
  induction parts generalizing fuel with
  | nil => exact absurd rfl hne
  | cons p parts ih =>
    obtain ⟨fuel, rfl⟩ : ∃ n, fuel = n + 1 := ⟨fuel - 1, by simp at hfuel; omega⟩
    cases parts with
    | nil =>
      have hstops : Stops (ord close :: rest) := by
        refine stops_cons ?_ rest
        rcases hclose with rfl | rfl <;> decide
      have hscan := hitem p List.mem_cons_self (ord close :: rest) hstops
      show scanMany _ item (fuel + 1) (PyStr.join _ [p.1] ++ _) = _
      rw [PyStr.join, List.intercalate_singleton,
        scanMany_close hscan (skipWs_cons hspace rest)]
      rfl
    | cons q parts =>
      have hscan := hitem p List.mem_cons_self
        (ord ',' :: ord ' ' :: (PyStr.join (pyText ", ") ((q :: parts).map Prod.fst) ++
          ord close :: rest)) (stops_cons (.inl rfl) _)
      have hfuel' : (q :: parts).length ≤ fuel := by
        simp at hfuel ⊢
        omega
      have hnext := ih (List.cons_ne_nil _ _)
        (fun r hr => hopens r (List.mem_cons_of_mem _ hr))
        (fun r hr => hitem r (List.mem_cons_of_mem _ hr)) hfuel'
      have hskip : skipWs (ord ' ' :: (PyStr.join (pyText ", ") ((q :: parts).map Prod.fst) ++
          ord close :: rest)) =
          PyStr.join (pyText ", ") ((q :: parts).map Prod.fst) ++ ord close :: rest :=
        (skipWs_space _).trans (skipWs_join (List.cons_ne_nil _ _)
          (fun t ht => by
            obtain ⟨r, hr, rfl⟩ := List.mem_map.mp (show t ∈ (q :: parts).map Prod.fst from ht)
            exact hopens r (List.mem_cons_of_mem _ hr)) _)
      have hsplit : PyStr.join (pyText ", ") ((p :: q :: parts).map Prod.fst) ++ ord close :: rest =
          p.1 ++ (ord ',' :: ord ' ' :: (PyStr.join (pyText ", ") ((q :: parts).map Prod.fst) ++
            ord close :: rest)) := by
        show PyStr.join _ (p.1 :: q.1 :: parts.map Prod.fst) ++ _ = _
        rw [join_two, List.append_assoc]
        rfl
      rw [hsplit, scanMany_comma hscan (skipWs_cons (by decide) _) hcomma, hskip, hnext]
      rfl

/-- A container is scanned to its items. -/
theorem scanContainer_join {β : Type} {close : Char} (hclose : close = ']' ∨ close = '}')
    {item : PyStr → Scan β} {parts : List (PyStr × β)} (hopens : ∀ p ∈ parts, Opens p.1)
    (hitem : ∀ p ∈ parts, ScansTo item p.1 p.2) (rest : PyStr) :
    scanContainer (ord close) item
        (PyStr.join (pyText ", ") (parts.map Prod.fst) ++ ord close :: rest) =
      .ok (parts.map Prod.snd, rest) := by
  have hspace : 32 < ord close := by
    rcases hclose with rfl | rfl <;> decide
  unfold scanContainer
  cases parts with
  | nil =>
    have hskip := skipWs_cons hspace rest
    rw [List.map_nil, PyStr.join, List.intercalate_nil, List.nil_append]
    simp [hskip]
  | cons p parts =>
    have hmap : ∀ t ∈ (p :: parts).map Prod.fst, Opens t := by
      intro t ht
      obtain ⟨q, hq, rfl⟩ := List.mem_map.mp ht
      exact hopens q hq
    have hskip : skipWs (PyStr.join (pyText ", ") ((p :: parts).map Prod.fst) ++
        ord close :: rest) =
        PyStr.join (pyText ", ") ((p :: parts).map Prod.fst) ++ ord close :: rest :=
      skipWs_join (List.cons_ne_nil _ _) hmap (ord close :: rest)
    dsimp only
    rw [hskip, if_neg, scanMany_join hclose (List.cons_ne_nil _ _) hopens hitem]
    · have hlen := length_le_join hmap (pyText ", ")
      rw [List.length_append]
      rw [List.length_map] at hlen
      omega
    · -- the first letter is that of the first item
      obtain ⟨c, s, hc, -, -, hbracket, hbrace⟩ := hopens p List.mem_cons_self
      have hhead : (PyStr.join (pyText ", ") ((p :: parts).map Prod.fst) ++
          ord close :: rest).head? = some c := by
        rw [List.map_cons, hc, join_cons]
        rfl
      rw [hhead]
      rintro ⟨⟩
      rcases hclose with rfl | rfl
      · exact hbracket rfl
      · exact hbrace rfl

theorem opens_dumpsStr (s : PyStr) : Opens (dumpsStr s) :=
  ⟨ord '"', _, rfl, by decide, by decide, by decide, by decide⟩

theorem opens_bracketed {left right : Char} (h : left = '[' ∨ left = '{') (parts : List PyStr) :
    Opens (bracketed left right parts) := by
  refine ⟨ord left, _, rfl, ?_⟩
  rcases h with rfl | rfl <;> decide

/-- A member of an object is scanned to its key and its value. -/
theorem scansTo_member {inner : PyStr → Scan (PyJson φ)} {key t : PyStr} {v : PyJson φ}
    (hkey : IsText key) (ht : Opens t) (hv : ScansTo inner t v) :
    ScansTo (scanMember inner) (dumpsStr key ++ pyText ": " ++ t) (joined key, v) := by
  intro rest hrest
  have htext : dumpsStr key ++ pyText ": " ++ t ++ rest =
      ord '"' :: (key.flatMap escapeLetter ++ ord '"' :: ord ':' :: ord ' ' :: (t ++ rest)) := by
    show ord '"' :: (key.flatMap escapeLetter ++ [ord '"']) ++ [ord ':', ord ' '] ++ t ++ rest = _
    simp
  rw [htext]
  unfold scanMember
  rw [if_neg (fun h => h rfl), List.tail_cons, scanString_dumpsStr hkey]
  have hcolon : skipWs (ord ':' :: ord ' ' :: (t ++ rest)) = ord ':' :: ord ' ' :: (t ++ rest) :=
    skipWs_cons (by decide) _
  simp only [orDecodeError, Bind.bind, Except.bind]
  rw [hcolon, if_neg (fun h => h rfl), List.tail_cons, skipWs_space, ht.skipWs_append,
    hv rest hrest]
  rfl

theorem scansTo_number (env : JsonEnv φ) (inner : Option (PyStr → Scan (PyJson φ)))
    {sign ds frac exp : PyStr} {a : PyAtom φ} (h : IsNumber sign ds frac exp)
    (ha : numberValue env sign ds frac exp = .ok a) :
    ScansTo (scanFrom env inner) (sign ++ (ds ++ (frac ++ exp))) (.atom a) := by
  intro rest hrest
  have htext : sign ++ (ds ++ (frac ++ exp)) ++ rest =
      sign ++ (ds ++ (frac ++ (exp ++ rest))) := by simp
  rw [htext, scanFrom_number env inner (h.startsNumber _), scanNumber_append env h hrest, ha]
  rfl

theorem opens_number {sign ds frac exp : PyStr} (h : IsNumber sign ds frac exp) :
    Opens (sign ++ (ds ++ (frac ++ exp))) := by
  obtain ⟨d, tail, hd, hs⟩ := h.startsNumber (frac ++ exp)
  have hbounds := isDigit_bounds hd
  have hbracket : ord ']' = 93 := rfl
  have hbrace : ord '}' = 125 := rfl
  rcases hs with hs | hs
  · exact ⟨d, tail, hs, by omega, by omega, by omega, by omega⟩
  · exact ⟨ord '-', d :: tail, hs, by decide, by decide, by decide, by decide⟩

theorem scansTo_reprInt (env : DumpsEnv φ) (inner : Option (PyStr → Scan (PyJson φ))) {n : ℤ}
    {t : PyStr} (h : reprInt env n = .ok t) :
    Opens t ∧ ScansTo (scanFrom env.toJsonEnv inner) t (.atom (.int n)) := by
  unfold reprInt at h
  split at h
  · cases h
  · rename_i hlimit
    cases h
    rw [intStr_eq]
    exact ⟨opens_number (isNumber_int n),
      scansTo_number _ inner (isNumber_int n) (numberValue_int _ hlimit)⟩

theorem scansTo_floatRepr (env : DumpsEnv φ) (inner : Option (PyStr → Scan (PyJson φ))) (x : φ) :
    Opens (env.floatRepr x) ∧
      ScansTo (scanFrom env.toJsonEnv inner) (env.floatRepr x) (.atom (.float x)) := by
  have hparse := env.parseFloat_floatRepr x
  rcases env.floatRepr_form x with hword | ⟨sign, ds, frac, exp, hnumber, hne, htext⟩
  · have hmem : (env.floatRepr x, PyAtom.float x) ∈ wordValue env.toJsonEnv := by
      unfold wordValue
      simp only [List.mem_cons, List.not_mem_nil, or_false] at hword
      rcases hword with h | h | h <;> rw [h] at hparse ⊢ <;> rw [hparse] <;> simp
    refine ⟨?_, fun rest _ => scanFrom_word env.toJsonEnv inner hmem rest⟩
    simp only [List.mem_cons, List.not_mem_nil, or_false] at hword
    rcases hword with h | h | h <;> rw [h] <;>
      exact ⟨_, _, rfl, by decide, by decide, by decide, by decide⟩
  · rw [htext] at hparse ⊢
    refine ⟨opens_number hnumber, scansTo_number _ inner hnumber ?_⟩
    unfold numberValue
    rw [if_neg (by tauto), List.append_assoc, List.append_assoc, hparse]

theorem scansTo_boolText (env : JsonEnv φ) (inner : Option (PyStr → Scan (PyJson φ))) (b : Bool) :
    Opens (boolText b) ∧ ScansTo (scanFrom env inner) (boolText b) (.atom (.bool b)) := by
  cases b with
  | true =>
    exact ⟨⟨_, _, rfl, by decide, by decide, by decide, by decide⟩,
      fun rest _ => scanFrom_word env inner (w := (pyText "true", .bool true)) (by simp [wordValue])
        rest⟩
  | false =>
    exact ⟨⟨_, _, rfl, by decide, by decide, by decide, by decide⟩,
      fun rest _ => scanFrom_word env inner (w := (pyText "false", .bool false))
        (by simp [wordValue]) rest⟩

theorem scansTo_dumpsAtom (env : DumpsEnv φ) (depth : ℕ) {a : PyAtom φ}
    (ha : (PyValue.atom a).Valid) {t : PyStr} (h : dumpsAtom env a = .ok t) :
    Opens t ∧ ScansTo (scan env.toJsonEnv depth) t (.atom (decodedAtom a)) := by
  obtain ⟨inner, hinner⟩ := scan_eq env.toJsonEnv depth
  rw [hinner]
  cases a with
  | none =>
    cases h
    exact ⟨⟨_, _, rfl, by decide, by decide, by decide, by decide⟩,
      fun rest _ => scanFrom_word env.toJsonEnv inner (w := (pyText "null", .none))
        (by simp [wordValue]) rest⟩
  | bool b =>
    cases h
    exact scansTo_boolText env.toJsonEnv inner b
  | int n => exact scansTo_reprInt env inner h
  | float x =>
    cases h
    exact scansTo_floatRepr env inner x
  | str s =>
    cases h
    refine ⟨opens_dumpsStr s, fun rest _ => ?_⟩
    have htext : dumpsStr s ++ rest = ord '"' :: (s.flatMap escapeLetter ++ ord '"' :: rest) := by
      unfold dumpsStr
      simp
    rw [htext]
    unfold scanFrom
    dsimp only
    rw [if_pos rfl, scanString_dumpsStr ha]
    rfl

/-- An array or an object, from its items. -/
theorem scansTo_container {β : Type} {open_ close : Char} (value : List β → PyJson φ)
    {env : JsonEnv φ} {depth : ℕ} {item : PyStr → Scan β} {parts : List (PyStr × β)}
    (hclose : close = ']' ∨ close = '}')
    (hscan : ∀ s, scan env (depth + 1) (ord open_ :: s) =
      (scanContainer (ord close) item s).map fun r => (value r.1, r.2))
    (hparts : ∀ p ∈ parts, Opens p.1 ∧ ScansTo item p.1 p.2) :
    ScansTo (scan env (depth + 1)) (bracketed open_ close (parts.map Prod.fst))
      (value (parts.map Prod.snd)) := by
  intro rest _
  have htext : bracketed open_ close (parts.map Prod.fst) ++ rest =
      ord open_ :: (PyStr.join (pyText ", ") (parts.map Prod.fst) ++ ord close :: rest) := by
    unfold bracketed
    simp
  rw [htext, hscan, scanContainer_join hclose (fun p hp => (hparts p hp).1)
    (fun p hp => (hparts p hp).2)]
  rfl

theorem scan_bracket (env : JsonEnv φ) (depth : ℕ) (s : PyStr) :
    scan env (depth + 1) (ord '[' :: s) =
      (scanContainer (ord ']') (scan env depth) s).map fun r => (.list r.1, r.2) := by
  show scanFrom env (some (scan env depth)) (ord '[' :: s) = _
  unfold scanFrom
  dsimp only
  rw [if_neg (by decide), if_neg (by decide), if_pos rfl]

theorem scan_brace (env : JsonEnv φ) (depth : ℕ) (s : PyStr) :
    scan env (depth + 1) (ord '{' :: s) =
      (scanContainer (ord '}') (scanMember (scan env depth)) s).map fun r =>
        (.dict (insertAll [] r.1), r.2) := by
  show scanFrom env (some (scan env depth)) (ord '{' :: s) = _
  unfold scanFrom
  dsimp only
  rw [if_neg (by decide), if_pos rfl]
  rfl

/-! ## ASCII -/

/-- A text of ASCII letters, none of which is NUL. -/
def IsAscii (s : PyStr) : Prop := ∀ c ∈ s, 0 < c ∧ c < 128

theorem IsAscii.isText {s : PyStr} (h : IsAscii s) : IsText s := by
  intro c hc
  have hbounds := h c hc
  omega

theorem IsAscii.append {s t : PyStr} (hs : IsAscii s) (ht : IsAscii t) : IsAscii (s ++ t) := by
  intro c hc
  rcases List.mem_append.mp hc with h | h
  · exact hs c h
  · exact ht c h

theorem isAscii_of_digits {s : PyStr} (h : ∀ c ∈ s, isDigit c = true) : IsAscii s := by
  intro c hc
  have hbounds := isDigit_bounds (h c hc)
  omega

theorem IsNumber.isAscii {sign ds frac exp : PyStr} (h : IsNumber sign ds frac exp) :
    IsAscii (sign ++ (ds ++ (frac ++ exp))) := by
  have hsign : IsAscii sign := by
    rcases h.sign with h | h <;> rw [h] <;> unfold IsAscii <;> decide
  have hdigits : IsAscii ds := by
    obtain ⟨n, hn⟩ := h.digits
    rw [hn]
    exact isAscii_of_digits fun c hc => isDigit_natStr hc
  have hfrac : IsAscii frac := by
    rcases h.frac with h | ⟨fs, h, -, hfs⟩
    · rw [h]
      exact fun _ hc => absurd hc List.not_mem_nil
    · rw [h]
      exact List.forall_mem_cons.mpr ⟨by decide, isAscii_of_digits hfs⟩
  have hexp : IsAscii exp := by
    rcases h.exp with h | ⟨e, es, fs, h, he, hes, -, hfs⟩
    · rw [h]
      exact fun _ hc => absurd hc List.not_mem_nil
    · rw [h]
      refine List.forall_mem_cons.mpr ⟨?_, IsAscii.append ?_ (isAscii_of_digits hfs)⟩
      · rcases he with he | he <;> rw [he] <;> decide
      · rcases hes with hes | hes | hes <;> rw [hes] <;> unfold IsAscii <;> decide
  exact hsign.append (hdigits.append (hfrac.append hexp))

theorem isAscii_reprInt {env : DumpsEnv φ} {n : ℤ} {t : PyStr} (h : reprInt env n = .ok t) :
    IsAscii t := by
  unfold reprInt at h
  split at h
  · cases h
  · cases h
    rw [intStr_eq]
    exact (isNumber_int n).isAscii

theorem isAscii_floatRepr (env : DumpsEnv φ) (x : φ) : IsAscii (env.floatRepr x) := by
  rcases env.floatRepr_form x with hword | ⟨sign, ds, frac, exp, hnumber, -, htext⟩
  · simp only [List.mem_cons, List.not_mem_nil, or_false] at hword
    rcases hword with h | h | h <;> rw [h] <;> unfold IsAscii <;> decide
  · rw [htext]
    exact hnumber.isAscii

theorem isAscii_boolText (b : Bool) : IsAscii (boolText b) := by
  cases b <;> unfold IsAscii <;> decide

theorem isAscii_escapeUnit (n : ℕ) : IsAscii (escapeUnit n) := by
  have hdigit : ∀ m, 0 < hexLower (m % 16) ∧ hexLower (m % 16) < 128 := by
    intro m
    have hlt : m % 16 < 16 := Nat.mod_lt _ (by decide)
    generalize m % 16 = d at hlt
    revert d
    decide
  simp only [IsAscii, escapeUnit, List.forall_mem_cons]
  exact ⟨by decide, by decide, hdigit _, hdigit _, hdigit _, hdigit _, nofun⟩

theorem isAscii_escapeLetter (c : ℕ) : IsAscii (escapeLetter c) := by
  unfold escapeLetter
  split
  · rename_i e he
    unfold shortEscape at he
    have hletter : 0 < e ∧ e < 128 := by
      split_ifs at he with h
      all_goals cases he
      all_goals try decide
      rcases h with rfl | rfl <;> decide
    exact List.forall_mem_cons.mpr ⟨by decide, List.forall_mem_cons.mpr ⟨hletter, nofun⟩⟩
  · split
    · rename_i hplain
      simp only [isPlain, decide_eq_true_eq] at hplain
      exact List.forall_mem_cons.mpr ⟨by omega, nofun⟩
    · split
      · exact isAscii_escapeUnit c
      · exact (isAscii_escapeUnit _).append (isAscii_escapeUnit _)

/-- A string is written in ASCII letters. -/
theorem isAscii_dumpsStr (s : PyStr) : IsAscii (dumpsStr s) := by
  refine List.forall_mem_cons.mpr ⟨by decide, IsAscii.append ?_ (by unfold IsAscii; decide)⟩
  intro c hc
  obtain ⟨d, -, hd⟩ := List.mem_flatMap.mp hc
  exact isAscii_escapeLetter d c hd

theorem isAscii_dumpsAtom {env : DumpsEnv φ} {a : PyAtom φ} {t : PyStr}
    (h : dumpsAtom env a = .ok t) : IsAscii t := by
  cases a with
  | none =>
    cases h
    unfold IsAscii
    decide
  | bool b =>
    cases h
    exact isAscii_boolText b
  | int n => exact isAscii_reprInt h
  | float x =>
    cases h
    exact isAscii_floatRepr env x
  | str s =>
    cases h
    exact isAscii_dumpsStr s

theorem isAscii_join {sep : PyStr} {parts : List PyStr} (hsep : IsAscii sep)
    (h : ∀ t ∈ parts, IsAscii t) : IsAscii (PyStr.join sep parts) := by
  intro c hc
  rcases of_mem_intercalate hc with hc | ⟨t, ht, hc⟩
  · exact hsep c hc
  · exact h t ht c hc

theorem isAscii_bracketed {left right : Char} {parts : List PyStr}
    (hleft : 0 < ord left ∧ ord left < 128) (hright : 0 < ord right ∧ ord right < 128)
    (h : ∀ t ∈ parts, IsAscii t) : IsAscii (bracketed left right parts) :=
  List.forall_mem_cons.mpr ⟨hleft, IsAscii.append (isAscii_join (by unfold IsAscii; decide) h)
    (List.forall_mem_cons.mpr ⟨hright, nofun⟩)⟩

mutual

/-- **`json.dumps` writes ASCII letters.** -/
theorem isAscii_dumps (env : DumpsEnv φ) (v : PyValue φ) {depth : ℕ} {t : PyStr}
    (h : dumps env depth v = .ok t) : IsAscii t := by
  cases v with
  | atom a =>
    rw [dumps] at h
    exact isAscii_dumpsAtom h
  | list items =>
    cases depth with
    | zero => cases h
    | succ depth =>
      rw [dumps] at h
      obtain ⟨ts, hts, h⟩ := bind_ok h
      cases h
      exact isAscii_bracketed (by decide) (by decide) (isAscii_dumpsItems env items hts)
  | tuple items =>
    cases depth with
    | zero => cases h
    | succ depth =>
      rw [dumps] at h
      obtain ⟨ts, hts, h⟩ := bind_ok h
      cases h
      exact isAscii_bracketed (by decide) (by decide) (isAscii_dumpsItems env items hts)
  | enum name value =>
    cases depth with
    | zero => cases h
    | succ depth =>
      rw [dumps] at h
      exact isAscii_dumps env value h
  | dict entries =>
    cases depth with
    | zero => cases h
    | succ depth =>
      rw [dumps] at h
      obtain ⟨ts, hts, h⟩ := bind_ok h
      cases h
      exact isAscii_bracketed (by decide) (by decide) (isAscii_dumpsEntries env entries hts)
  | object => cases depth <;> cases h

theorem isAscii_dumpsItems (env : DumpsEnv φ) (items : List (PyValue φ)) {depth : ℕ}
    {ts : List PyStr} (h : dumpsItems env depth items = .ok ts) : ∀ t ∈ ts, IsAscii t := by
  cases items with
  | nil =>
    cases h
    exact nofun
  | cons v items =>
    rw [dumpsItems] at h
    obtain ⟨t, ht, h⟩ := bind_ok h
    obtain ⟨ts', hts', h⟩ := bind_ok h
    cases h
    exact List.forall_mem_cons.mpr ⟨isAscii_dumps env v ht, isAscii_dumpsItems env items hts'⟩

theorem isAscii_dumpsEntries (env : DumpsEnv φ) (entries : List (PyKey φ × PyValue φ))
    {depth : ℕ} {ts : List PyStr} (h : dumpsEntries env depth entries = .ok ts) :
    ∀ t ∈ ts, IsAscii t := by
  cases entries with
  | nil =>
    cases h
    exact nofun
  | cons e entries =>
    obtain ⟨k, v⟩ := e
    rw [dumpsEntries] at h
    obtain ⟨key, -, h⟩ := bind_ok h
    obtain ⟨t, ht, h⟩ := bind_ok h
    obtain ⟨ts', hts', h⟩ := bind_ok h
    cases h
    have hcolon : IsAscii (pyText ": ") := by unfold IsAscii; decide
    exact List.forall_mem_cons.mpr
      ⟨((isAscii_dumpsStr key).append hcolon).append (isAscii_dumps env v ht),
        isAscii_dumpsEntries env entries hts'⟩

end

/-! ## Keys -/

/-- The text of a key is a text of code points, and comes back joined. -/
theorem isText_keyText {env : DumpsEnv φ} {k : PyKey φ} {key : PyStr} (hk : k.IsText)
    (h : keyText env k = .ok key) : IsText key ∧ decodedKey env k = joined key := by
  refine ⟨?_, by unfold decodedKey; rw [h]; rfl⟩
  cases k with
  | str s =>
    cases h
    exact hk
  | int n => exact (isAscii_reprInt h).isText
  | float x =>
    cases h
    exact (isAscii_floatRepr env x).isText
  | bool b =>
    cases h
    exact (isAscii_boolText b).isText
  | none =>
    cases h
    unfold IsText
    decide
  | other => cases h

/-- What is written for a container is scanned to it, if its parts are. -/
theorem scansTo_written {β : Type} (value : List β → PyJson φ) {open_ close : Char}
    (hopen : open_ = '[' ∨ open_ = '{') (hclose : close = ']' ∨ close = '}') {env : JsonEnv φ}
    {item : ℕ → PyStr → Scan β}
    (hscan : ∀ m s, scan env (m + 1) (ord open_ :: s) =
      (scanContainer (ord close) (item m) s).map fun r => (value r.1, r.2))
    {depth n : ℕ} (hn : depth + 1 ≤ n) {written : Except DumpsExc (List PyStr)} {t : PyStr}
    (h : (do return bracketed open_ close (← written)) = Except.ok t) {vs : List β}
    (hparts : ∀ m, depth ≤ m → ∀ ts, written = .ok ts →
      ∃ parts : List (PyStr × β), parts.map Prod.fst = ts ∧ parts.map Prod.snd = vs ∧
        ∀ p ∈ parts, Opens p.1 ∧ ScansTo (item m) p.1 p.2) :
    Opens t ∧ ScansTo (scan env n) t (value vs) := by
  obtain ⟨m, rfl⟩ := Nat.exists_eq_succ_of_ne_zero (Nat.ne_zero_of_lt hn)
  obtain ⟨ts, hts, h⟩ := bind_ok h
  cases h
  obtain ⟨parts, rfl, rfl, hscans⟩ := hparts m (Nat.le_of_succ_le_succ hn) ts hts
  exact ⟨opens_bracketed hopen _, scansTo_container value hclose (hscan m) hscans⟩

mutual

/-- **What `json.dumps` wrote is scanned to the value as it comes back**, where the scanner may
go at least as deep. -/
theorem scansTo_dumps (env : DumpsEnv φ) (v : PyValue φ) (hv : v.Valid) {depth n : ℕ}
    (hn : depth ≤ n) {t : PyStr} (h : dumps env depth v = .ok t) :
    Opens t ∧ ScansTo (scan env.toJsonEnv n) t (decoded env v) := by
  cases v with
  | atom a =>
    rw [dumps] at h
    rw [decoded]
    exact scansTo_dumpsAtom env n hv h
  | list items =>
    rw [PyValue.Valid] at hv
    cases depth with
    | zero => cases h
    | succ depth =>
      rw [dumps] at h
      rw [decoded]
      exact scansTo_written .list (.inl rfl) (.inl rfl) (scan_bracket env.toJsonEnv) hn h
        fun _ hm _ hts => scansTo_dumpsItems env items hv hm hts
  | tuple items =>
    rw [PyValue.Valid] at hv
    cases depth with
    | zero => cases h
    | succ depth =>
      rw [dumps] at h
      rw [decoded]
      exact scansTo_written .list (.inl rfl) (.inl rfl) (scan_bracket env.toJsonEnv) hn h
        fun _ hm _ hts => scansTo_dumpsItems env items hv hm hts
  | enum name value =>
    rw [PyValue.Valid] at hv
    cases depth with
    | zero => cases h
    | succ depth =>
      rw [dumps] at h
      rw [decoded]
      exact scansTo_dumps env value hv (Nat.le_of_succ_le hn) h
  | dict entries =>
    rw [PyValue.Valid] at hv
    cases depth with
    | zero => cases h
    | succ depth =>
      rw [dumps] at h
      rw [decoded]
      exact scansTo_written (fun es => .dict (insertAll [] es)) (.inr rfl) (.inr rfl)
        (scan_brace env.toJsonEnv) hn h
        fun _ hm _ hts => scansTo_dumpsEntries env entries hv hm hts
  | object => cases depth <;> cases h

theorem scansTo_dumpsItems (env : DumpsEnv φ) (items : List (PyValue φ)) (hv : ItemsValid items)
    {depth n : ℕ} (hn : depth ≤ n) {ts : List PyStr} (h : dumpsItems env depth items = .ok ts) :
    ∃ parts : List (PyStr × PyJson φ), parts.map Prod.fst = ts ∧
      parts.map Prod.snd = decodedItems env items ∧
      ∀ p ∈ parts, Opens p.1 ∧ ScansTo (scan env.toJsonEnv n) p.1 p.2 := by
  cases items with
  | nil =>
    cases h
    exact ⟨[], rfl, rfl, by simp⟩
  | cons v items =>
    rw [ItemsValid] at hv
    rw [dumpsItems] at h
    obtain ⟨t, ht, h⟩ := bind_ok h
    obtain ⟨ts', hts, h⟩ := bind_ok h
    cases h
    obtain ⟨parts, rfl, hsnd, hparts⟩ := scansTo_dumpsItems env items hv.2 hn hts
    refine ⟨(t, decoded env v) :: parts, rfl, ?_, ?_⟩
    · rw [List.map_cons, hsnd, decodedItems]
    · exact List.forall_mem_cons.mpr ⟨scansTo_dumps env v hv.1 hn ht, hparts⟩

theorem scansTo_dumpsEntries (env : DumpsEnv φ) (entries : List (PyKey φ × PyValue φ))
    (hv : EntriesValid entries) {depth n : ℕ} (hn : depth ≤ n) {ts : List PyStr}
    (h : dumpsEntries env depth entries = .ok ts) :
    ∃ parts : List (PyStr × (PyStr × PyJson φ)), parts.map Prod.fst = ts ∧
      parts.map Prod.snd = decodedEntries env entries ∧
      ∀ p ∈ parts, Opens p.1 ∧ ScansTo (scanMember (scan env.toJsonEnv n)) p.1 p.2 := by
  cases entries with
  | nil =>
    cases h
    exact ⟨[], rfl, rfl, by simp⟩
  | cons e entries =>
    obtain ⟨k, v⟩ := e
    rw [EntriesValid] at hv
    rw [dumpsEntries] at h
    obtain ⟨key, hkey, h⟩ := bind_ok h
    obtain ⟨t, ht, h⟩ := bind_ok h
    obtain ⟨ts', hts, h⟩ := bind_ok h
    cases h
    obtain ⟨parts, rfl, hsnd, hparts⟩ := scansTo_dumpsEntries env entries hv.2.2.2 hn hts
    obtain ⟨hopens, hscans⟩ := scansTo_dumps env v hv.2.2.1 hn ht
    obtain ⟨htext, hjoined⟩ := isText_keyText hv.1 hkey
    refine ⟨(_, (joined key, decoded env v)) :: parts, rfl, ?_, ?_⟩
    · rw [List.map_cons, hsnd, decodedEntries, hjoined]
    · refine List.forall_mem_cons.mpr ⟨⟨?_, scansTo_member htext hopens hscans⟩, hparts⟩
      exact ⟨ord '"', _, rfl, by decide, by decide, by decide, by decide⟩

end

/-- **What `json.dumps` wrote is read back** as what the value comes back as. -/
theorem loads_dumps (env : DumpsEnv φ) {v : PyValue φ} (hv : v.Valid) {t : PyStr}
    (h : dumps env env.maxDepth v = .ok t) : loads env.toJsonEnv t = .ok (decoded env v) := by
  obtain ⟨hopens, hscans⟩ := scansTo_dumps env v hv le_rfl h
  have hscan := hscans [] (fun _ hc => by cases hc)
  rw [List.append_nil] at hscan
  have hskip := hopens.skipWs_append []
  rw [List.append_nil] at hskip
  have hbom : t.head? ≠ some 0xFEFF := by
    obtain ⟨c, s, rfl, -, hlt, -⟩ := hopens
    rintro ⟨⟩
    omega
  unfold loads
  rw [if_neg hbom, hskip, hscan]
  rfl

/-! ## What comes back as it was -/

mutual

/-- A document as a value. -/
def ofJson : PyJson φ → PyValue φ
  | .atom a => .atom a
  | .list items => .list (ofItems items)
  | .dict es => .dict (ofEntries es)

/-- The items of an array. -/
def ofItems : List (PyJson φ) → List (PyValue φ)
  | [] => []
  | t :: items => ofJson t :: ofItems items

/-- The members of an object. -/
def ofEntries : Entries PyStr (PyAtom φ) → List (PyKey φ × PyValue φ)
  | [] => []
  | (k, t) :: es => (.str k, ofJson t) :: ofEntries es

end

mutual

/-- A value of the kinds that a document has, without a pair of surrogates in its texts. -/
def PlainValue : PyValue φ → Prop
  | .atom (.str s) => NoPairs s
  | .atom _ => True
  | .list items => PlainValues items
  | .tuple _ => False
  | .enum _ _ => False
  | .dict entries => PlainMembers entries
  | .object => False

/-- The same of the items of a list. -/
def PlainValues : List (PyValue φ) → Prop
  | [] => True
  | v :: items => PlainValue v ∧ PlainValues items

/-- The same of the entries of a dictionary, all of which are for texts. -/
def PlainMembers : List (PyKey φ × PyValue φ) → Prop
  | [] => True
  | (k, v) :: entries => (∃ s, k = .str s ∧ NoPairs s) ∧ PlainValue v ∧ PlainMembers entries

end

theorem length_ofEntries (es : Entries PyStr (PyAtom φ)) : (ofEntries es).length = es.length := by
  induction es with
  | nil => rfl
  | cons e es ih => rw [show e = (e.1, e.2) from rfl, ofEntries, List.length_cons, ih]; rfl

theorem length_decodedEntries (env : DumpsEnv φ) (entries : List (PyKey φ × PyValue φ)) :
    (decodedEntries env entries).length = entries.length := by
  induction entries with
  | nil => rfl
  | cons e entries ih =>
    rw [show e = (e.1, e.2) from rfl, decodedEntries, List.length_cons, ih]
    rfl

theorem length_insertKey (es : Entries PyStr (PyAtom φ)) (k : PyStr) (v : PyJson φ) :
    (insertKey es k v).length = es.length ∨ insertKey es k v = es ++ [(k, v)] := by
  induction es with
  | nil => exact .inr rfl
  | cons e es ih =>
    rw [show e = (e.1, e.2) from rfl, insertKey]
    split
    · exact .inl rfl
    · rcases ih with h | h
      · exact .inl (congrArg (· + 1) h)
      · exact .inr (congrArg _ h)

/-- Entries put in one after the other are all there exactly if none replaces another. -/
theorem insertAll_length (acc new : Entries PyStr (PyAtom φ)) :
    (insertAll acc new).length ≤ acc.length + new.length ∧
      ((insertAll acc new).length = acc.length + new.length → insertAll acc new = acc ++ new) := by
  induction new generalizing acc with
  | nil => exact ⟨le_rfl, fun _ => (List.append_nil acc).symm⟩
  | cons e new ih =>
    obtain ⟨hle, heq⟩ := ih (insertKey acc e.1 e.2)
    have hstep : insertAll acc (e :: new) = insertAll (insertKey acc e.1 e.2) new := rfl
    rw [hstep]
    rcases length_insertKey acc e.1 e.2 with h | h
    · rw [h] at hle
      rw [List.length_cons]
      exact ⟨by omega, fun hlen => by omega⟩
    · rw [h] at hle heq ⊢
      rw [List.length_append, List.length_singleton] at hle heq
      rw [List.length_cons]
      refine ⟨by omega, fun hlen => ?_⟩
      rw [heq (by omega), List.append_assoc]
      rfl

theorem mem_ofEntries {es : Entries PyStr (PyAtom φ)} {e : PyStr × PyJson φ} (he : e ∈ es) :
    (.str e.1, ofJson e.2) ∈ ofEntries es := by
  induction es with
  | nil => cases he
  | cons e' es ih =>
    rw [show e' = (e'.1, e'.2) from rfl, ofEntries]
    rcases List.mem_cons.mp he with rfl | he
    · exact List.mem_cons_self
    · exact List.mem_cons_of_mem _ (ih he)

theorem nodup_of_valid {es : Entries PyStr (PyAtom φ)} (h : EntriesValid (ofEntries es)) :
    (es.map Prod.fst).Nodup := by
  induction es with
  | nil => exact List.nodup_nil
  | cons e es ih =>
    rw [show e = (e.1, e.2) from rfl, ofEntries, EntriesValid] at h
    refine List.nodup_cons.mpr ⟨fun hmem => ?_, ih h.2.2.2⟩
    obtain ⟨e', he', hkey⟩ := List.mem_map.mp hmem
    exact h.2.1 _ (mem_ofEntries he') (congrArg PyKey.str hkey)

mutual

/-- **The values that come back as they were.** -/
theorem ofJson_decoded_iff (env : DumpsEnv φ) (v : PyValue φ) (hv : v.Valid) :
    ofJson (decoded env v) = v ↔ PlainValue v := by
  cases v with
  | atom a =>
    rw [decoded, ofJson]
    cases a with
    | str s =>
      rw [decodedAtom, PlainValue, ← joined_eq_iff, PyValue.atom.injEq, PyAtom.str.injEq]
    | none => exact iff_of_true rfl trivial
    | bool b => exact iff_of_true rfl trivial
    | int n => exact iff_of_true rfl trivial
    | float x => exact iff_of_true rfl trivial
  | list items =>
    rw [PyValue.Valid] at hv
    rw [decoded, ofJson, PlainValue, PyValue.list.injEq]
    exact ofItems_decodedItems_iff env items hv
  | tuple items =>
    rw [decoded, ofJson, PlainValue]
    exact iff_of_false (by simp) id
  | enum name value =>
    rw [decoded, PlainValue]
    refine iff_of_false ?_ id
    cases decoded env value <;> rw [ofJson] <;> simp
  | dict entries =>
    rw [PyValue.Valid] at hv
    rw [decoded, ofJson, PlainValue, PyValue.dict.injEq,
      ← ofEntries_decodedEntries_iff env entries hv]
    have hlen := length_decodedEntries env entries
    constructor
    · -- as many entries as before: none replaced another
      intro h
      have hall := insertAll_length [] (decodedEntries env entries)
      rw [List.nil_append, List.length_nil, Nat.zero_add] at hall
      rwa [hall.2 (by rw [← length_ofEntries, h, hlen])] at h
    · intro h
      have hnodup : ((decodedEntries env entries).map Prod.fst).Nodup :=
        nodup_of_valid (h.symm ▸ hv)
      have hall : insertAll [] (decodedEntries env entries) = decodedEntries env entries :=
        foldl_insertKey_of_nodup hnodup
      rw [hall, h]
  | object =>
    rw [decoded, ofJson, PlainValue]
    exact iff_of_false (by simp) id

theorem ofItems_decodedItems_iff (env : DumpsEnv φ) (items : List (PyValue φ))
    (hv : ItemsValid items) : ofItems (decodedItems env items) = items ↔ PlainValues items := by
  cases items with
  | nil =>
    rw [decodedItems, ofItems, PlainValues]
    exact iff_of_true rfl trivial
  | cons v items =>
    rw [ItemsValid] at hv
    rw [decodedItems, ofItems, PlainValues, List.cons.injEq, ofJson_decoded_iff env v hv.1,
      ofItems_decodedItems_iff env items hv.2]

theorem ofEntries_decodedEntries_iff (env : DumpsEnv φ) (entries : List (PyKey φ × PyValue φ))
    (hv : EntriesValid entries) :
    ofEntries (decodedEntries env entries) = entries ↔ PlainMembers entries := by
  cases entries with
  | nil =>
    rw [decodedEntries, ofEntries, PlainMembers]
    exact iff_of_true rfl trivial
  | cons e entries =>
    obtain ⟨k, v⟩ := e
    rw [EntriesValid] at hv
    rw [decodedEntries, ofEntries, PlainMembers, List.cons.injEq, Prod.mk.injEq,
      ofJson_decoded_iff env v hv.2.2.1, ofEntries_decodedEntries_iff env entries hv.2.2.2,
      and_assoc]
    have hkey : PyKey.str (decodedKey env k) = k ↔ ∃ s, k = .str s ∧ NoPairs s := by
      constructor
      · intro h
        cases k with
        | str s => exact ⟨s, rfl, (joined_eq_iff s).mp (PyKey.str.inj h)⟩
        | int n => cases h
        | float x => cases h
        | bool b => cases h
        | none => cases h
        | other => cases h
      · rintro ⟨s, rfl, hs⟩
        exact congrArg PyKey.str ((joined_eq_iff s).mpr hs)
    rw [hkey]

end

/-- An interpreter with one float. -/
def zeroEnv : DumpsEnv Unit where
  parseFloat := fun _ => ()
  intMaxStrDigits := 4300
  maxDepth := 1000
  floatRepr := fun _ => pyText "0.0"
  floatRepr_form := fun _ => .inr ⟨[], [ord '0'], [ord '.', ord '0'], [],
    { sign := .inl rfl
      digits := ⟨0, rfl⟩
      frac := .inr ⟨[ord '0'], rfl, List.cons_ne_nil _ _, by decide⟩
      exp := .inl rfl },
    .inl (List.cons_ne_nil _ _), rfl⟩
  parseFloat_floatRepr := fun _ => rfl

end Notifyr
