import Mathlib.Data.List.Infix
import Notifyr.Runtime.Bytes

/-!
# Python strings

A Python `str` is a sequence of code points. Lone surrogates may be among them (`json.loads`
makes them from an escape), which no Unicode text has, so a `str` is not a `String` here.

- `PyStr`: the type; `pyText` is the `str` of a Unicode text.
- `PyStr.encode`, `decodeStr`: `s.encode()` and `b.decode()`; `decodeStr_encode`.
- `PyStr.split`: `s.split(sep)`; `join_split`, `not_infix_of_mem_split`, `split_join_of_free`.
-/

namespace Notifyr

/-- `str`, as its code points. -/
abbrev PyStr := List ℕ

instance : LawfulBEq PyStr := inferInstanceAs (LawfulBEq (List ℕ))

/-- `ord(c)`. -/
abbrev ord (c : Char) : ℕ := c.toNat

/-- The `str` of a Unicode text. -/
def pyText (s : String) : PyStr := s.toList.map ord

/-! ## UTF-8 -/

/-- A code point as a character; a surrogate is none. -/
def charOf (n : ℕ) : Option Char :=
  if h : n.isValidChar then some (Char.ofNatAux n h) else none

/-- The Unicode text with these code points. -/
def PyStr.text? (s : PyStr) : Option String := (s.mapM charOf).map String.ofList

theorem ord_mem_pyText {c : Char} {s : String} : ord c ∈ pyText s ↔ c ∈ s.toList :=
  List.mem_map_of_injective fun _ _ h => Char.toNat_inj.mp h

/-- `s.encode()`; nothing where it raises `UnicodeEncodeError`. -/
def PyStr.encode (s : PyStr) : Option Bytes := s.text?.map encodeUtf8

/-- `b.decode()`. -/
def decodeStr (b : Bytes) : Py PyStr := (decodeUtf8 b).map pyText

theorem ord_charOf {n : ℕ} {c : Char} (h : charOf n = some c) : ord c = n := by
  by_cases hn : n.isValidChar
  · have hchar : charOf n = some (Char.ofNatAux n hn) := dif_pos hn
    rw [hchar] at h
    cases h
    rfl
  · have hnone : charOf n = none := dif_neg hn
    rw [hnone] at h
    cases h

theorem charOf_ord (c : Char) : charOf (ord c) = some c := dif_pos c.valid

theorem map_ord_of_mapM {s : PyStr} {cs : List Char} (h : s.mapM charOf = some cs) :
    cs.map ord = s := by
  induction s generalizing cs with
  | nil =>
    cases h
    rfl
  | cons n s ih =>
    rw [List.mapM_cons] at h
    obtain ⟨c, hc, h⟩ := Option.bind_eq_some_iff.mp h
    obtain ⟨rest, hrest, h⟩ := Option.bind_eq_some_iff.mp h
    cases h
    rw [List.map_cons, ord_charOf hc, ih hrest]

theorem mapM_charOf (cs : List Char) : (cs.map ord).mapM charOf = some cs := by
  induction cs with
  | nil => rfl
  | cons c cs ih =>
    rw [List.map_cons, List.mapM_cons, charOf_ord, ih]
    rfl

/-- A `str` is a Unicode text if each of its code points is a character. -/
theorem isSome_text? {s : PyStr} (h : ∀ n ∈ s, n.isValidChar) : s.text?.isSome := by
  unfold PyStr.text?
  rw [Option.isSome_map]
  induction s with
  | nil => rfl
  | cons n s ih =>
    obtain ⟨cs, hcs⟩ := Option.isSome_iff_exists.mp
      (ih fun m hm => h m (List.mem_cons_of_mem n hm))
    rw [List.mapM_cons, charOf, dif_pos (h n List.mem_cons_self), hcs]
    rfl

theorem pyText_of_text? {s : PyStr} {t : String} (h : s.text? = some t) : pyText t = s := by
  obtain ⟨cs, hcs, rfl⟩ := Option.map_eq_some_iff.mp h
  show (String.ofList cs).toList.map ord = s
  rw [String.toList_ofList]
  exact map_ord_of_mapM hcs

/-- Every Unicode text is the text of its `str`. -/
@[simp] theorem text?_pyText (t : String) : (pyText t).text? = some t := by
  show ((t.toList.map ord).mapM charOf).map String.ofList = some t
  rw [mapM_charOf, Option.map_some, String.ofList_toList]

/-- Decoding what was encoded. -/
theorem decodeStr_encode {s : PyStr} {b : Bytes} (h : s.encode = some b) : decodeStr b = .ok s := by
  obtain ⟨t, ht, rfl⟩ := Option.map_eq_some_iff.mp h
  show (decodeUtf8 (encodeUtf8 t)).map pyText = .ok s
  rw [decodeUtf8_encodeUtf8]
  exact congrArg Except.ok (pyText_of_text? ht)

/-! ## Splitting -/

/-- The first part and the others; `skip` letters of a separator are still to be passed. -/
def PyStr.splitFrom (sep : PyStr) : ℕ → PyStr → PyStr × List PyStr
  | _, [] => ([], [])
  | skip + 1, _ :: rest => splitFrom sep skip rest
  | 0, c :: rest =>
    if sep <+: c :: rest then
      let parts := splitFrom sep (sep.length - 1) rest
      ([], parts.1 :: parts.2)
    else
      let parts := splitFrom sep 0 rest
      (c :: parts.1, parts.2)

-- its equations are derived here, once for all the proofs below
example (sep : PyStr) (skip : ℕ) : PyStr.splitFrom sep skip [] = ([], []) := by
  rw [PyStr.splitFrom]

/-- `s.split(sep)`, for a separator that is not empty. -/
def PyStr.split (sep s : PyStr) : List PyStr :=
  let parts := PyStr.splitFrom sep 0 s
  parts.1 :: parts.2

/-- `sep.join(parts)`. -/
def PyStr.join (sep : PyStr) (parts : List PyStr) : PyStr := List.intercalate sep parts

theorem join_cons (sep : PyStr) (n : ℕ) (p : PyStr) (ps : List PyStr) :
    PyStr.join sep ((n :: p) :: ps) = n :: PyStr.join sep (p :: ps) :=
  List.intercalate_cons_cons_left

/-- What stands in joined parts stands in the separator or in one of the parts. -/
theorem of_mem_intercalate {α : Type} {sep : List α} {parts : List (List α)} {a : α}
    (h : a ∈ sep.intercalate parts) : a ∈ sep ∨ ∃ p ∈ parts, a ∈ p := by
  induction parts with
  | nil => cases h
  | cons p parts ih =>
    cases parts with
    | nil =>
      rw [List.intercalate_singleton] at h
      exact .inr ⟨p, List.mem_cons_self, h⟩
    | cons q parts =>
      rw [List.intercalate_cons_cons, List.append_assoc] at h
      rcases List.mem_append.mp h with hp | h
      · exact .inr ⟨p, List.mem_cons_self, hp⟩
      · rcases List.mem_append.mp h with hsep | h
        · exact .inl hsep
        · refine (ih h).imp_right ?_
          rintro ⟨r, hr, ha⟩
          exact ⟨r, List.mem_cons_of_mem p hr, ha⟩

theorem join_splitFrom {sep : PyStr} (hsep : sep ≠ []) (skip : ℕ) (s : PyStr) :
    PyStr.join sep ((PyStr.splitFrom sep skip s).1 :: (PyStr.splitFrom sep skip s).2) =
      s.drop skip := by
  induction s generalizing skip with
  | nil =>
    cases skip <;> exact List.intercalate_singleton
  | cons c s ih =>
    cases skip with
    | succ skip => exact ih skip
    | zero =>
      rw [PyStr.splitFrom]
      split
      · rename_i hpre
        rw [PyStr.join, List.intercalate_cons_cons, ← PyStr.join, ih]
        obtain ⟨rest, hrest⟩ := hpre
        obtain ⟨d, sep', rfl⟩ := List.exists_cons_of_ne_nil hsep
        obtain ⟨rfl, rfl⟩ := List.cons.inj hrest
        simp
      · rw [join_cons, ih]
        rfl

/-- Joining the parts gives the string back. -/
theorem join_split {sep : PyStr} (hsep : sep ≠ []) (s : PyStr) :
    PyStr.join sep (PyStr.split sep s) = s := join_splitFrom hsep 0 s

theorem split_injective {sep : PyStr} (hsep : sep ≠ []) :
    Function.Injective (PyStr.split sep) := fun s t h => by
  rw [← join_split hsep s, h, join_split hsep t]

theorem split_ne_nil (sep s : PyStr) : PyStr.split sep s ≠ [] := List.cons_ne_nil _ _

theorem splitFrom_fst_prefix (sep s : PyStr) : (PyStr.splitFrom sep 0 s).1 <+: s := by
  induction s with
  | nil => exact List.prefix_rfl
  | cons c s ih =>
    rw [PyStr.splitFrom]
    split
    · exact List.nil_prefix
    · exact List.cons_prefix_cons.mpr ⟨rfl, ih⟩

/-- No part has the separator in it. -/
theorem not_infix_of_mem_split {sep s p : PyStr} (hsep : sep ≠ []) (h : p ∈ PyStr.split sep s) :
    ¬ sep <:+: p := by
  have hparts : ∀ (skip : ℕ) (s : PyStr), ¬ sep <:+: (PyStr.splitFrom sep skip s).1 ∧
      ∀ p ∈ (PyStr.splitFrom sep skip s).2, ¬ sep <:+: p := by
    intro skip s
    have hnil : ¬ sep <:+: [] := fun hin => hsep (List.infix_nil.mp hin)
    induction s generalizing skip with
    | nil => cases skip <;> exact ⟨hnil, nofun⟩
    | cons c s ih =>
      cases skip with
      | succ skip => exact ih skip
      | zero =>
        rw [PyStr.splitFrom]
        split
        · exact ⟨hnil, List.forall_mem_cons.mpr (ih _)⟩
        · rename_i hpre
          refine ⟨fun hin => ?_, (ih 0).2⟩
          rcases List.infix_cons_iff.mp hin with hstart | hlater
          · exact hpre (hstart.trans (List.cons_prefix_cons.mpr ⟨rfl, splitFrom_fst_prefix sep s⟩))
          · exact (ih 0).1 hlater
  rcases List.mem_cons.mp h with rfl | hmem
  · exact (hparts 0 s).1
  · exact (hparts 0 s).2 p hmem

/-- No end of a separator begins another one. -/
def Unbordered (sep : PyStr) : Prop := ∀ u v, u ≠ [] → v ≠ [] → u ++ v = sep → ¬ v <+: sep

theorem splitFrom_length_append (sep x s : PyStr) :
    PyStr.splitFrom sep x.length (x ++ s) = PyStr.splitFrom sep 0 s := by
  induction x with
  | nil => rfl
  | cons c x ih => exact ih

/-- A separator does not begin in a part that has none, before the next one or the end. -/
theorem not_prefix_of_free {sep : PyStr} (hborder : Unbordered sep) {c : ℕ} {p s : PyStr}
    (hfree : ¬ sep <:+: c :: p) (hs : s = [] ∨ sep <+: s) : ¬ sep <+: c :: (p ++ s) := by
  intro hpre
  rw [← List.cons_append] at hpre
  obtain ⟨t, ht⟩ := hpre
  rcases List.append_eq_append_iff.mp ht with ⟨a, h, -⟩ | ⟨v, hv, hvs⟩
  · exact hfree (h ▸ (List.prefix_append sep a).isInfix)
  · -- the separator ends with a beginning of what follows
    by_cases hnil : v = []
    · rw [hnil, List.append_nil] at hv
      exact hfree (hv ▸ List.infix_rfl)
    · rcases hs with rfl | hs
      · exact hnil (List.append_eq_nil_iff.mp hvs.symm).1
      · refine hborder (c :: p) v (List.cons_ne_nil _ _) hnil hv.symm ?_
        exact List.prefix_of_prefix_length_le (hvs ▸ List.prefix_append v t) hs (by
          rw [hv, List.length_append]
          omega)

/-- A part without the separator goes to the first part as it is. -/
theorem splitFrom_free {sep : PyStr} (hborder : Unbordered sep) {p s : PyStr}
    (hfree : ¬ sep <:+: p) (hs : s = [] ∨ sep <+: s) :
    PyStr.splitFrom sep 0 (p ++ s) =
      (p ++ (PyStr.splitFrom sep 0 s).1, (PyStr.splitFrom sep 0 s).2) := by
  induction p with
  | nil => rfl
  | cons c p ih =>
    rw [List.cons_append, PyStr.splitFrom, if_neg (not_prefix_of_free hborder hfree hs),
      ih fun h => hfree (h.trans (List.suffix_cons c p).isInfix)]
    rfl

theorem splitFrom_sep {sep : PyStr} (hsep : sep ≠ []) (s : PyStr) :
    PyStr.splitFrom sep 0 (sep ++ s) = ([], PyStr.split sep s) := by
  obtain ⟨c, rest, rfl⟩ := List.exists_cons_of_ne_nil hsep
  have hpre : c :: rest <+: c :: (rest ++ s) := List.prefix_append (c :: rest) s
  rw [List.cons_append, PyStr.splitFrom, if_pos hpre]
  simp only [List.length_cons, Nat.add_sub_cancel, splitFrom_length_append]
  rfl

/-- The parts of a joined string, where none has the separator in it. -/
theorem split_join_of_free {sep : PyStr} (hsep : sep ≠ []) (hborder : Unbordered sep)
    {parts : List PyStr} (hne : parts ≠ []) (hparts : ∀ p ∈ parts, ¬ sep <:+: p) :
    PyStr.split sep (PyStr.join sep parts) = parts := by
  induction parts with
  | nil => exact absurd rfl hne
  | cons p parts ih =>
    have hp := hparts p List.mem_cons_self
    cases parts with
    | nil =>
      have h := splitFrom_free hborder hp (.inl rfl)
      rw [List.append_nil] at h
      rw [PyStr.join, List.intercalate_singleton, PyStr.split, h]
      exact congrArg (· :: []) (List.append_nil p)
    | cons q parts =>
      have hrest := ih (List.cons_ne_nil _ _) fun r hr => hparts r (List.mem_cons_of_mem _ hr)
      rw [PyStr.join, List.intercalate_cons_cons, ← PyStr.join, List.append_assoc, PyStr.split,
        splitFrom_free hborder hp (.inr (List.prefix_append _ _)), splitFrom_sep hsep, hrest]
      exact congrArg (· :: _) (List.append_nil p)

theorem singleton_infix_iff {c : ℕ} {k : PyStr} : [c] <:+: k ↔ c ∈ k := by
  constructor
  · rintro ⟨s, t, rfl⟩
    simp
  · intro h
    obtain ⟨s, t, rfl⟩ := List.append_of_mem h
    exact ⟨s, t, by simp⟩

theorem unbordered_singleton (c : ℕ) : Unbordered [c] := by
  intro u v hu hv h
  have hlen := congrArg List.length h
  have hu' := List.length_pos_iff.mpr hu
  have hv' := List.length_pos_iff.mpr hv
  rw [List.length_append, List.length_singleton] at hlen
  omega

/-- Two different letters are such a separator. -/
theorem unbordered_pair {a b : ℕ} (h : a ≠ b) : Unbordered [a, b] := by
  intro u v hu hv huv hpre
  obtain ⟨x, u, rfl⟩ := List.exists_cons_of_ne_nil hu
  obtain ⟨y, v, rfl⟩ := List.exists_cons_of_ne_nil hv
  have hlen := congrArg List.length huv
  simp only [List.length_append, List.length_cons, List.length_nil] at hlen
  obtain rfl : u = [] := List.length_eq_zero_iff.mp (by omega)
  obtain rfl : v = [] := List.length_eq_zero_iff.mp (by omega)
  cases huv
  obtain ⟨rest, hrest⟩ := hpre
  cases hrest
  exact h rfl

theorem split_join {c : ℕ} {parts : List PyStr} (hne : parts ≠ []) (hparts : ∀ p ∈ parts, c ∉ p) :
    PyStr.split [c] (PyStr.join [c] parts) = parts :=
  split_join_of_free (List.cons_ne_nil c []) (unbordered_singleton c) hne
    fun p hp h => hparts p hp (singleton_infix_iff.mp h)

end Notifyr
