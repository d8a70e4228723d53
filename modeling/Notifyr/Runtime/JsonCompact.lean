import Notifyr.Runtime.JsonDumps

/-!
# Compact JSON in Python

`json.dumps(value, separators=(",", ":"), ensure_ascii=False)`, whose text is UTF-8 once encoded.

- `compact`: the function.
- `IsUnicode`: the texts that have an encoding.
- `brace_of_compact_dict`, `brace_of_loads_dict`: the text of a dictionary has a brace, whoever
  wrote it.
-/

namespace Notifyr

open Theory NestedDict

variable {φ : Type}

/-- A letter in a JSON text of any letters. -/
def compactLetter (c : ℕ) : PyStr :=
  match shortEscape c with
  | some e => [ord '\\', e]
  | none => if c < 32 then escapeUnit c else [c]

/-- `py_encode_basestring`. -/
def compactStr (s : PyStr) : PyStr := ord '"' :: (s.flatMap compactLetter ++ [ord '"'])

/-- A value without parts. -/
def compactAtom (env : DumpsEnv φ) : PyAtom φ → Except DumpsExc PyStr
  | .str s => .ok (compactStr s)
  | a => dumpsAtom env a

/-- Texts between brackets, without blanks. -/
def compactBracketed (left right : Char) (parts : List PyStr) : PyStr :=
  ord left :: (PyStr.join (pyText ",") parts ++ [ord right])

mutual

/-- `json.dumps(value, separators=(",", ":"), ensure_ascii=False)`, where the recursion limit leaves
room for so many containers. -/
def compact (env : DumpsEnv φ) : ℕ → PyValue φ → Except DumpsExc PyStr
  | _, .atom a => compactAtom env a
  | 0, .list _ => .error .recursionError
  | depth + 1, .list items => do return compactBracketed '[' ']' (← compactItems env depth items)
  | 0, .tuple _ => .error .recursionError
  | depth + 1, .tuple items => do return compactBracketed '[' ']' (← compactItems env depth items)
  | 0, .dict _ => .error .recursionError
  | depth + 1, .dict entries => do
    return compactBracketed '{' '}' (← compactEntries env depth entries)
  -- there is no `default`, so a member of an `Enum` is an object like any other
  | _, .enum _ _ => .error .typeError
  | _, .object => .error .typeError

/-- The items of an array. -/
def compactItems (env : DumpsEnv φ) (depth : ℕ) :
    List (PyValue φ) → Except DumpsExc (List PyStr)
  | [] => .ok []
  | v :: items => do
    let t ← compact env depth v
    return t :: (← compactItems env depth items)

/-- The members of an object. -/
def compactEntries (env : DumpsEnv φ) (depth : ℕ) :
    List (PyKey φ × PyValue φ) → Except DumpsExc (List PyStr)
  | [] => .ok []
  | (k, v) :: entries => do
    let key ← keyText env k
    let t ← compact env depth v
    return (compactStr key ++ pyText ":" ++ t) :: (← compactEntries env depth entries)

end

/-! ## Texts with an encoding -/

/-- A text without surrogates. -/
def IsUnicode (s : PyStr) : Prop := ∀ n ∈ s, n.isValidChar

theorem IsUnicode.append {s t : PyStr} (hs : IsUnicode s) (ht : IsUnicode t) :
    IsUnicode (s ++ t) := by
  intro n hn
  rcases List.mem_append.mp hn with h | h
  · exact hs n h
  · exact ht n h

theorem IsAscii.isUnicode {s : PyStr} (h : IsAscii s) : IsUnicode s := by
  intro n hn
  have hlt := (h n hn).2
  exact .inl (by omega)

theorem isUnicode_map_ord (cs : List Char) : IsUnicode (cs.map ord) := by
  intro n hn
  obtain ⟨c, -, rfl⟩ := List.mem_map.mp hn
  exact c.valid

/-- Its encoding. -/
theorem IsUnicode.encode {s : PyStr} (h : IsUnicode s) : ∃ b, s.encode = some b := by
  obtain ⟨t, ht⟩ := Option.isSome_iff_exists.mp (isSome_text? h)
  exact ⟨encodeUtf8 t, by rw [PyStr.encode, ht, Option.map_some]⟩

theorem isUnicode_compactLetter {c : ℕ} (h : c.isValidChar) : IsUnicode (compactLetter c) := by
  unfold compactLetter
  split
  · rename_i e he
    have hletter := isAscii_escapeLetter c
    unfold escapeLetter at hletter
    rw [he] at hletter
    exact hletter.isUnicode
  · split
    · exact (isAscii_escapeUnit c).isUnicode
    · exact List.forall_mem_singleton.mpr h

theorem isUnicode_compactStr {s : PyStr} (h : IsUnicode s) : IsUnicode (compactStr s) := by
  have hquote : IsUnicode [ord '"'] := isUnicode_map_ord ['"']
  refine hquote.append (IsUnicode.append ?_ hquote)
  intro n hn
  obtain ⟨c, hc, hn⟩ := List.mem_flatMap.mp hn
  exact isUnicode_compactLetter (h c hc) n hn

theorem isUnicode_compactBracketed (left right : Char) {parts : List PyStr}
    (h : ∀ p ∈ parts, IsUnicode p) : IsUnicode (compactBracketed left right parts) := by
  have hjoin : IsUnicode (PyStr.join (pyText ",") parts) := by
    intro n hn
    rcases of_mem_intercalate hn with hsep | ⟨p, hp, hmem⟩
    · exact isUnicode_map_ord _ n hsep
    · exact h p hp n hmem
  exact (isUnicode_map_ord [left]).append (hjoin.append (isUnicode_map_ord [right]))

/-! ## The brace of a dictionary -/

/-- The text of a dictionary has a brace. -/
theorem brace_of_compact_dict {env : DumpsEnv φ} {depth : ℕ} {entries : List (PyKey φ × PyValue φ)}
    {t : PyStr} (h : compact env depth (.dict entries) = .ok t) : ord '{' ∈ t := by
  cases depth with
  | zero => cases h
  | succ depth =>
    obtain ⟨parts, -, h⟩ := bind_ok h
    cases h
    exact List.mem_cons_self

theorem constant_ne_dict {env : JsonEnv φ} {s left : PyStr} {es : Entries PyStr (PyAtom φ)} :
    constant env s ≠ some (.dict es, left) := by
  intro h
  obtain ⟨w, -, hw⟩ := Option.map_eq_some_iff.mp h
  cases hw

theorem scanNumber_ne_dict {env : JsonEnv φ} {s left : PyStr} {es : Entries PyStr (PyAtom φ)} :
    scanNumber env s ≠ .ok (.dict es, left) := by
  intro h
  unfold scanNumber at h
  dsimp only at h
  split at h
  · cases h
  · obtain ⟨a, -, ha⟩ := map_ok h
    cases ha

/-- Only a brace begins a dictionary. -/
theorem brace_of_scanFrom_dict {env : JsonEnv φ} {inner : Option (PyStr → Scan (PyJson φ))}
    {s left : PyStr} {es : Entries PyStr (PyAtom φ)}
    (h : scanFrom env inner s = .ok (.dict es, left)) : ord '{' ∈ s := by
  unfold scanFrom at h
  cases s with
  | nil => cases h
  | cons c rest =>
    dsimp only at h
    by_cases hbrace : c = ord '{'
    · exact hbrace ▸ List.mem_cons_self
    · rw [if_neg hbrace] at h
      split_ifs at h with hquote hbracket
      · obtain ⟨r, -, hr⟩ := map_ok h
        cases hr
      · cases inner with
        | none => cases h
        | some inner =>
          obtain ⟨r, -, hr⟩ := map_ok h
          cases hr
      · cases hconst : constant env (c :: rest) with
        | none =>
          rw [hconst] at h
          exact absurd h scanNumber_ne_dict
        | some r =>
          rw [hconst] at h
          cases h
          exact absurd hconst constant_ne_dict

/-- A document that is a dictionary has a brace. -/
theorem brace_of_loads_dict {env : JsonEnv φ} {s : PyStr} {es : Entries PyStr (PyAtom φ)}
    (h : loads env s = .ok (.dict es)) : ord '{' ∈ s := by
  unfold loads at h
  split at h
  · cases h
  · obtain ⟨⟨v, left⟩, hscan, h⟩ := bind_ok h
    dsimp only at h
    split at h
    · cases h
      have hbrace : ord '{' ∈ skipWs s := by
        cases hdepth : env.maxDepth with
        | zero =>
          rw [hdepth] at hscan
          exact brace_of_scanFrom_dict hscan
        | succ depth =>
          rw [hdepth] at hscan
          exact brace_of_scanFrom_dict hscan
      exact (List.dropWhile_sublist _).subset hbrace
    · cases h

end Notifyr
