import Mathlib.Data.List.Basic
import Notifyr.Runtime.Python

/-!
# Cache keys

`KeyBuilder` (`app/utils/helper.py`) makes the function that builds the key of a cached object
from its parts.

- `StrOrList`: an argument annotated `str|list[str]`.
- `keyBuilder`: the checks and completions of `KeyBuilder`; what it leaves is `Keys`, the
  variables its closures see.
- `Keys.builder`: the closure `builder`.
- `builder_text`: with one character for a separator, a key reads as its prefixes and parts in
  turn, separated.
- `builder_head`: its first prefix can be read off, whatever the parts are.
- `builder_inj`: different prefixes or parts have different keys, as long as the separator
  occurs in none of them.
-/

namespace Notifyr

/-- A value given as a text or as a list of texts. -/
inductive StrOrList
  | str (s : String)
  | list (l : List String)
  deriving DecidableEq

/-- What `len` and iteration see of it: of a text, the characters. -/
def StrOrList.items : StrOrList → List String
  | .str s => s.toList.map String.singleton
  | .list l => l

/-- `[key]` for a text. -/
def StrOrList.parts : StrOrList → List String
  | .str s => [s]
  | .list l => l

/-- The variables of the closures of `KeyBuilder`. -/
structure Keys where
  prefixes : List String
  sep : List String

/-- `KeyBuilder`. -/
def keyBuilder : StrOrList → StrOrList → Py Keys
  | .list p, .list s =>
    if p = [] then .error .valueError
    else if s = [] then .error .valueError
    -- `s_len` is a number, which has no first element
    else if p.length < s.length then .error .typeError
    else .ok ⟨p, if p.length ≠ s.length then s.take p.length else s⟩
  | .list p, .str s => .ok ⟨p, List.replicate p.length s⟩
  | .str p, .str s => .ok ⟨[p], [s]⟩
  -- a text with a list of separators is left as it is
  | .str p, .list s => .ok ⟨StrOrList.items (.str p), s⟩

/-- The concatenation in the loop of `builder`. -/
def Keys.text (keys : Keys) (key : List String) : List Char :=
  (keys.prefixes.zip (key.zip keys.sep)).flatMap fun pks =>
    pks.1.toList ++ pks.2.2.toList ++ pks.2.1.toList ++ pks.2.2.toList

/-- `builder`. -/
def Keys.builder (keys : Keys) (key : StrOrList) : Py String :=
  if key.parts.length ≠ keys.prefixes.length then .error .valueError
  -- `temp[:-1]`: one character, whatever the separator
  else .ok (String.ofList (keys.text key.parts).dropLast)

/-! ## One character for a separator -/

/-- Prefixes and parts in turn. -/
def interleave : List String → List String → List (List Char)
  | p :: ps, k :: ks => p.toList :: k.toList :: interleave ps ks
  | _, _ => []

theorem interleave_inj : ∀ {ps ks ps' ks' : List String}, ps.length = ks.length →
    ps'.length = ks'.length → interleave ps ks = interleave ps' ks' → ps = ps' ∧ ks = ks'
  | [], [], [], [], _, _, _ => ⟨rfl, rfl⟩
  | [], [], _ :: _, _ :: _, _, _, h => by cases h
  | _ :: _, _ :: _, [], [], _, _, h => by cases h
  | p :: ps, k :: ks, p' :: ps', k' :: ks', hl, hl', h => by
    obtain ⟨hp, hrest⟩ := List.cons.inj h
    obtain ⟨hk, hrest⟩ := List.cons.inj hrest
    obtain ⟨hps, hks⟩ := interleave_inj (Nat.succ.inj hl) (Nat.succ.inj hl') hrest
    rw [String.toList_inj.mp hp, String.toList_inj.mp hk, hps, hks]
    exact ⟨rfl, rfl⟩

theorem mem_interleave : ∀ {ps ks : List String} {x : List Char}, x ∈ interleave ps ks →
    ∃ s ∈ ps ++ ks, x = s.toList
  | [], _, _, h => by cases h
  | _ :: _, [], _, h => by cases h
  | p :: ps, k :: ks, x, h => by
    rcases List.mem_cons.mp h with rfl | h
    · exact ⟨p, by simp, rfl⟩
    · rcases List.mem_cons.mp h with rfl | h
      · exact ⟨k, by simp, rfl⟩
      · obtain ⟨s, hs, hx⟩ := mem_interleave h
        rcases List.mem_append.mp hs with hs | hs
        · exact ⟨s, by simp [hs], hx⟩
        · exact ⟨s, by simp [hs], hx⟩

/-- The last separator is what `[:-1]` drops. -/
theorem dropLast_ended {α : Type} (c : α) (l : List (List α)) :
    (l.flatMap fun x => x ++ [c]).dropLast = [c].intercalate l := by
  induction l with
  | nil => rfl
  | cons x rest ih =>
    cases rest with
    | nil => simp
    | cons y rest =>
      rw [List.flatMap_cons, List.dropLast_append_of_ne_nil (by simp), ih,
        List.intercalate_cons_cons]

theorem text_eq (sep : Char) : ∀ (ps ks : List String), ps.length = ks.length →
    Keys.text ⟨ps, List.replicate ps.length (String.singleton sep)⟩ ks =
      (interleave ps ks).flatMap fun x => x ++ [sep]
  | [], [], _ => rfl
  | p :: ps, k :: ks, h => by
    have ih := text_eq sep ps ks (Nat.succ.inj h)
    unfold Keys.text at ih ⊢
    rw [List.length_cons, List.replicate_succ, List.zip_cons_cons, List.zip_cons_cons,
      List.flatMap_cons, ih]
    simp [interleave]

/-- A key reads as its prefixes and parts in turn, separated. -/
theorem builder_text {ps : List String} (sep : Char) {key : StrOrList} {text : String}
    (h : Keys.builder ⟨ps, List.replicate ps.length (String.singleton sep)⟩ key = .ok text) :
    key.parts.length = ps.length ∧ text.toList = [sep].intercalate (interleave ps key.parts) := by
  unfold Keys.builder at h
  split at h
  · cases h
  · rename_i hlen
    have hlen : key.parts.length = ps.length := not_not.mp hlen
    cases h
    refine ⟨hlen, ?_⟩
    rw [String.toList_ofList, text_eq sep _ _ hlen.symm, dropLast_ended]

/-- What a key begins with is its first prefix, whatever its parts are. -/
theorem builder_head {p : String} {ps : List String} (sep : Char) {key : StrOrList}
    {text : String} (hp : sep ∉ p.toList)
    (h : Keys.builder ⟨p :: ps, List.replicate (p :: ps).length (String.singleton sep)⟩ key =
      .ok text) :
    text.toList.takeWhile (· ≠ sep) = p.toList := by
  obtain ⟨hlen, htext⟩ := builder_text sep h
  have hall : ∀ c ∈ p.toList, decide (c ≠ sep) = true :=
    fun c hc => decide_eq_true fun heq => hp (heq ▸ hc)
  cases hparts : key.parts with
  | nil =>
    rw [hparts] at hlen
    cases hlen
  | cons k ks =>
    rw [htext, hparts, interleave, List.intercalate_cons_cons, List.append_assoc,
      List.takeWhile_append_of_pos hall]
    simp

/-- Different prefixes or different parts have different keys. -/
theorem builder_inj {ps ps' : List String} (sep : Char) (key key' : StrOrList) {text : String}
    (hsep : ∀ s ∈ ps ++ key.parts, sep ∉ s.toList)
    (hsep' : ∀ s ∈ ps' ++ key'.parts, sep ∉ s.toList)
    (hne : ps ≠ []) (hne' : ps' ≠ [])
    (h : Keys.builder ⟨ps, List.replicate ps.length (String.singleton sep)⟩ key = .ok text)
    (h' : Keys.builder ⟨ps', List.replicate ps'.length (String.singleton sep)⟩ key' = .ok text) :
    ps = ps' ∧ key.parts = key'.parts := by
  obtain ⟨hlen, htext⟩ := builder_text sep h
  obtain ⟨hlen', htext'⟩ := builder_text sep h'
  have hfree : ∀ {ps ks : List String}, (∀ s ∈ ps ++ ks, sep ∉ s.toList) →
      ∀ x ∈ interleave ps ks, sep ∉ x := by
    intro ps ks hall x hx
    obtain ⟨s, hs, rfl⟩ := mem_interleave hx
    exact hall s hs
  have hnil : ∀ {ps ks : List String}, ks.length = ps.length → ps ≠ [] →
      interleave ps ks ≠ [] := by
    intro ps ks hl hps hi
    cases ps with
    | nil => exact hps rfl
    | cons p ps =>
      cases ks with
      | nil => cases hl
      | cons k ks => cases hi
  refine interleave_inj hlen.symm hlen'.symm ?_
  -- splitting the text at the separator gives the fields back
  calc interleave ps key.parts
      = ([sep].intercalate (interleave ps key.parts)).splitOn sep :=
        (List.splitOn_intercalate sep (hfree hsep) (hnil hlen hne)).symm
    _ = ([sep].intercalate (interleave ps' key'.parts)).splitOn sep := by
        rw [← htext, ← htext']
    _ = interleave ps' key'.parts :=
        List.splitOn_intercalate sep (hfree hsep') (hnil hlen' hne')

end Notifyr
