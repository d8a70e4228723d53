import Mathlib.Algebra.Order.BigOperators.Group.List
import Mathlib.Algebra.Order.Ring.Nat
import Mathlib.Data.List.Nodup
import Mathlib.Data.List.TakeWhile
import Notifyr.Theory.Dict
import Notifyr.Runtime.Percent
import Notifyr.Runtime.PyStr

/-!
# Query strings of the standard library

What `urllib.parse` does with the text after the `?` of a URL.

- `parseQsl`, `urlencode`: the pairs of a query string, blank values kept, and their encoder.
- `parseQsl_urlencode`: what the encoder writes is read back.
- `weight_parseQsl_le`: a query string has room for its pairs and the separators between them.
- `parseQsl_pasted` and the lemmas after it: values that are written without an encoder.
- `queryOf`, `baseOf`, `fragmentOf`, `queryParam`: the parts of a URL.
-/

namespace Notifyr

/-! ## The pairs of a query string -/

/-- One piece of a query string: `nv = name_value.split('=', 1)`, a missing value blank. -/
def parsePair (piece : UrlText) : UrlText × UrlText :=
  (unquotePlus (piece.takeWhile (· ≠ '=')), unquotePlus ((piece.dropWhile (· ≠ '=')).drop 1))

/-- `urllib.parse.parse_qsl(qs, keep_blank_values=True)`. -/
def parseQsl (qs : UrlText) : List (UrlText × UrlText) :=
  ((qs.splitOn '&').filter (· ≠ [])).map parsePair

/-- `urllib.parse.urlencode`. -/
def urlencode (pairs : List (UrlText × UrlText)) : UrlText :=
  ['&'].intercalate (pairs.map fun e => quotePlus e.1 ++ '=' :: quotePlus e.2)

/-- What stands in pairs that are joined by `&`. -/
theorem of_mem_joinedPairs {α : Type} {es : List α} {key value : α → UrlText} {c : Char}
    (hc : c ∈ ['&'].intercalate (es.map fun e => key e ++ '=' :: value e)) :
    c = '&' ∨ c = '=' ∨ ∃ e ∈ es, c ∈ key e ∨ c ∈ value e := by
  rcases of_mem_intercalate hc with hsep | ⟨piece, hpiece, hmem⟩
  · exact .inl (List.mem_singleton.mp hsep)
  · obtain ⟨e, he, rfl⟩ := List.mem_map.mp hpiece
    rcases List.mem_append.mp hmem with hkey | hvalue
    · exact .inr (.inr ⟨e, he, .inl hkey⟩)
    · rcases List.mem_cons.mp hvalue with heq | hvalue
      · exact .inr (.inl heq)
      · exact .inr (.inr ⟨e, he, .inr hvalue⟩)

theorem of_mem_urlencode {pairs : List (UrlText × UrlText)} {c : Char} (hc : c ∈ urlencode pairs) :
    c = '&' ∨ c = '=' ∨ ∃ e ∈ pairs, c ∈ quotePlus e.1 ∨ c ∈ quotePlus e.2 :=
  of_mem_joinedPairs hc

@[simp] theorem parseQsl_nil : parseQsl [] = [] := rfl

/-- The pairs of two query strings that are joined by `&`. -/
theorem parseQsl_append (s t : UrlText) : parseQsl (s ++ '&' :: t) = parseQsl s ++ parseQsl t := by
  unfold parseQsl
  rw [List.splitOn_append_cons_self, List.filter_append, List.map_append]

theorem parseQsl_of_not_mem {s : UrlText} (h : '&' ∉ s) (hne : s ≠ []) :
    parseQsl s = [parsePair s] := by
  unfold parseQsl
  rw [List.splitOn_eq_singleton h]
  simp [hne]

theorem takeWhile_of_not_mem {c : Char} {s : UrlText} (h : c ∉ s) (t : UrlText) :
    (s ++ c :: t).takeWhile (· ≠ c) = s := by
  rw [List.takeWhile_append_of_pos fun a ha => by
    simpa using fun e : a = c => h (e ▸ ha)]
  simp

theorem dropWhile_of_not_mem {c : Char} {s : UrlText} (h : c ∉ s) (t : UrlText) :
    (s ++ c :: t).dropWhile (· ≠ c) = c :: t := by
  rw [List.dropWhile_append_of_pos fun a ha => by
    simpa using fun e : a = c => h (e ▸ ha)]
  simp

/-- A key and its value, the key without an `=`. -/
theorem parsePair_append {k : UrlText} (h : '=' ∉ k) (v : UrlText) :
    parsePair (k ++ '=' :: v) = (unquotePlus k, unquotePlus v) := by
  unfold parsePair
  rw [takeWhile_of_not_mem h, dropWhile_of_not_mem h]
  rfl

/-- What the encoder writes is read back, whatever the keys and the values are. -/
theorem parseQsl_urlencode (pairs : List (UrlText × UrlText)) :
    parseQsl (urlencode pairs) = pairs := by
  have hpiece : ∀ e : UrlText × UrlText,
      '&' ∉ quotePlus e.1 ++ '=' :: quotePlus e.2 ∧ quotePlus e.1 ++ '=' :: quotePlus e.2 ≠ [] ∧
        parsePair (quotePlus e.1 ++ '=' :: quotePlus e.2) = e := by
    intro e
    have hkey : ∀ c, IsReserved c → c ∉ quotePlus e.1 := fun c hc hm =>
      not_isReserved_quotePlus hm hc
    have hvalue : ∀ c, IsReserved c → c ∉ quotePlus e.2 := fun c hc hm =>
      not_isReserved_quotePlus hm hc
    refine ⟨?_, by simp, ?_⟩
    · have hk := hkey '&' (.inl rfl)
      have hv := hvalue '&' (.inl rfl)
      simp [hk, hv]
    · rw [parsePair_append (hkey '=' (.inr (.inl rfl))), unquotePlus_quotePlus,
        unquotePlus_quotePlus]
  cases pairs with
  | nil => rfl
  | cons e rest =>
    unfold parseQsl urlencode
    rw [List.splitOn_intercalate]
    · rw [List.filter_eq_self.mpr, List.map_map]
      · refine (List.map_congr_left fun p _ => ?_).trans (List.map_id _)
        exact (hpiece p).2.2
      · intro piece hp
        obtain ⟨p, -, rfl⟩ := List.mem_map.mp hp
        exact decide_eq_true (hpiece p).2.1
    · intro piece hp
      obtain ⟨p, -, rfl⟩ := List.mem_map.mp hp
      exact (hpiece p).1
    · simp

/-! ## The room of the pairs -/

section Room

variable {z : Char → Bool}

/-- The room a pair takes in a query string. -/
def pairWeight (z : Char → Bool) (e : UrlText × UrlText) : ℕ := weight z e.1 + weight z e.2 + 1

theorem weight_takeWhile_dropWhile (s : UrlText) :
    weight z (s.takeWhile (· ≠ '=')) + weight z ((s.dropWhile (· ≠ '=')).drop 1) ≤ weight z s := by
  have hs := congrArg (weight z) (List.takeWhile_append_dropWhile (p := (· ≠ '=')) (l := s))
  have hdrop := weight_sublist (z := z) (List.drop_sublist 1 (s.dropWhile (· ≠ '=')))
  rw [weight_append] at hs
  omega

theorem weight_intercalate (hamp : z '&' = false) {pieces : List UrlText} (h : pieces ≠ []) :
    weight z (['&'].intercalate pieces) + 1 = (pieces.map fun p => weight z p + 1).sum := by
  induction pieces with
  | nil => exact absurd rfl h
  | cons p rest ih =>
    cases rest with
    | nil => simp
    | cons q rest =>
      have hrest := ih (List.cons_ne_nil q rest)
      have hone : weight z ['&'] = 1 := by
        rw [weight_cons, hamp]
        rfl
      rw [List.intercalate_cons_cons, weight_append, weight_append, hone]
      rw [List.map_cons, List.sum_cons]
      omega

variable (hz : Weightless z)

include hz

theorem weight_parsePair_le (piece : UrlText) :
    pairWeight z (parsePair piece) ≤ weight z piece + 1 := by
  have hkey := weight_unquotePlus_le hz (piece.takeWhile (· ≠ '='))
  have hvalue := weight_unquotePlus_le hz ((piece.dropWhile (· ≠ '=')).drop 1)
  have hsplit := weight_takeWhile_dropWhile (z := z) piece
  show weight z (unquotePlus (piece.takeWhile (· ≠ '='))) +
    weight z (unquotePlus ((piece.dropWhile (· ≠ '=')).drop 1)) + 1 ≤ _
  omega

variable (hamp : z '&' = false)

include hamp

/-- A query string has room for its pairs and the separators between them. -/
theorem weight_parseQsl_le (qs : UrlText) :
    ((parseQsl qs).map (pairWeight z)).sum ≤ weight z qs + 1 := by
  have hq := weight_intercalate hamp (List.splitOn_ne_nil '&' qs)
  rw [List.intercalate_splitOn] at hq
  rw [hq]
  unfold parseQsl
  generalize qs.splitOn '&' = pieces
  induction pieces with
  | nil => exact Nat.le_refl 0
  | cons p rest ih =>
    have hp := weight_parsePair_le hz p
    rw [List.filter_cons, List.map_cons, List.sum_cons]
    split
    · rw [List.map_cons, List.map_cons, List.sum_cons]
      omega
    · omega

/-- Different pairs of a query string share the room in it. -/
theorem weight_pairs_le {qs : UrlText} {es : List (UrlText × UrlText)} (hnd : es.Nodup)
    (h : es ⊆ parseQsl qs) : (es.map (pairWeight z)).sum ≤ weight z qs + 1 := by
  obtain ⟨es', hperm, hsub⟩ := List.subperm_of_subset hnd h
  calc (es.map (pairWeight z)).sum
      = (es'.map (pairWeight z)).sum := ((hperm.map (pairWeight z)).sum_eq).symm
    _ ≤ ((parseQsl qs).map (pairWeight z)).sum :=
        (hsub.map (pairWeight z)).sum_le_sum fun _ _ => Nat.zero_le _
    _ ≤ weight z qs + 1 := weight_parseQsl_le hz hamp qs

/-- No pair is larger than the query string. -/
theorem weight_le_of_mem_parseQsl {qs : UrlText} {e : UrlText × UrlText} (h : e ∈ parseQsl qs) :
    weight z e.1 + weight z e.2 ≤ weight z qs := by
  have hle := weight_pairs_le hz hamp (List.nodup_singleton e)
    (List.cons_subset.mpr ⟨h, List.nil_subset _⟩)
  rw [List.map_singleton, List.sum_singleton] at hle
  unfold pairWeight at hle
  omega

end Room

/-! ## Values that are pasted as they are -/

/-- A key that is written without an escape. -/
def PlainKey (k : UrlText) : Prop := '&' ∉ k ∧ '=' ∉ k ∧ '%' ∉ k ∧ '+' ∉ k

instance (k : UrlText) : Decidable (PlainKey k) := by
  unfold PlainKey
  infer_instance

theorem parsePair_of_plainKey {k : UrlText} (h : PlainKey k) (v : UrlText) :
    parsePair (k ++ '=' :: v) = (k, unquotePlus v) := by
  obtain ⟨-, heq, hpercent, hplus⟩ := h
  rw [parsePair_append heq, unquotePlus_of_not_mem hpercent hplus]

/-- A pasted value without a separator is one pair. -/
theorem parseQsl_pasted {k v : UrlText} (h : PlainKey k) (hv : '&' ∉ v) :
    parseQsl (k ++ '=' :: v) = [(k, unquotePlus v)] := by
  have hamp : '&' ∉ k ++ '=' :: v := by simp [h.1, hv]
  rw [parseQsl_of_not_mem hamp (by simp), parsePair_of_plainKey h]

/-- A pasted value is cut at its first separator. -/
theorem parseQsl_pasted_append {k v : UrlText} (h : PlainKey k) (hv : '&' ∉ v) (rest : UrlText) :
    parseQsl (k ++ '=' :: (v ++ '&' :: rest)) = (k, unquotePlus v) :: parseQsl rest := by
  have hsplit : k ++ '=' :: (v ++ '&' :: rest) = (k ++ '=' :: v) ++ '&' :: rest := by simp
  rw [hsplit, parseQsl_append, parseQsl_pasted h hv]
  rfl

theorem light_amp : light '&' = false := rfl

theorem light_hash : light '#' = false := rfl

section Value

variable {z : Char → Bool} (hz : Weightless z) (hamp : z '&' = false)

include hz hamp

/-- A pair of a string `k=v`, where the beginning `p` of `v` has no separator, is that of `k`, or
it is found behind a separator in the rest of `v`. -/
theorem mem_parseQsl_pasted {k p u : UrlText} {e : UrlText × UrlText} (h : PlainKey k)
    (hp : '&' ∉ p) (he : e ∈ parseQsl (k ++ '=' :: (p ++ u))) :
    e.1 = k ∨ weight z e.1 + weight z e.2 < weight z u := by
  by_cases hu : '&' ∈ u
  · obtain ⟨u₁, u₂, rfl, hu₁⟩ := List.eq_append_cons_of_mem hu
    have hv : '&' ∉ p ++ u₁ := by simp [hp, hu₁]
    rw [← List.append_assoc, parseQsl_pasted_append h hv] at he
    rcases List.mem_cons.mp he with rfl | he
    · exact .inl rfl
    · have hle := weight_le_of_mem_parseQsl hz hamp he
      rw [weight_append, weight_cons, hamp, if_neg Bool.false_ne_true]
      omega
  · have hv : '&' ∉ p ++ u := by simp [hp, hu]
    rw [parseQsl_pasted h hv, List.mem_singleton] at he
    exact .inl (congrArg Prod.fst he)

/-- A separator in a pasted value takes its room from every pair. -/
theorem weight_value_lt {k v : UrlText} {e : UrlText × UrlText} (h : PlainKey k) (hv : '&' ∈ v)
    (he : e ∈ parseQsl (k ++ '=' :: v)) : weight z e.2 < weight z v := by
  obtain ⟨v₁, v₂, rfl, hv₁⟩ := List.eq_append_cons_of_mem hv
  rw [weight_append, weight_cons, hamp, if_neg Bool.false_ne_true]
  rw [parseQsl_pasted_append h hv₁] at he
  rcases List.mem_cons.mp he with rfl | he
  · have hle := weight_unquotePlus_le hz v₁
    show weight z (unquotePlus v₁) < _
    omega
  · have hle := weight_le_of_mem_parseQsl hz hamp he
    omega

/-- No value is larger than the value that was pasted. -/
theorem weight_value_le {k v : UrlText} {e : UrlText × UrlText} (h : PlainKey k)
    (he : e ∈ parseQsl (k ++ '=' :: v)) : weight z e.2 ≤ weight z v := by
  by_cases hv : '&' ∈ v
  · exact Nat.le_of_lt (weight_value_lt hz hamp h hv he)
  · rw [parseQsl_pasted h hv, List.mem_singleton] at he
    rw [he]
    exact weight_unquotePlus_le hz v

end Value

/-- A text that comes back from a query string it was pasted into. -/
def Survives (s : UrlText) : Prop := '&' ∉ s ∧ '#' ∉ s ∧ unquotePlus s = s

/-! ## The parts of a URL -/

/-- The text before the fragment. -/
def beforeHash (url : UrlText) : UrlText := url.takeWhile (· ≠ '#')

/-- The fragment. -/
def fragmentOf (url : UrlText) : UrlText := (url.dropWhile (· ≠ '#')).drop 1

/-- The text before the query string. -/
def baseOf (url : UrlText) : UrlText := (beforeHash url).takeWhile (· ≠ '?')

/-- The query string. -/
def queryOf (url : UrlText) : UrlText := ((beforeHash url).dropWhile (· ≠ '?')).drop 1

/-- `request.query_params.get(key)`: of a repeated key the last value. -/
def queryParam (url key : UrlText) : Option UrlText :=
  (Theory.Dict.ofEntries (parseQsl (queryOf url))).get? key

theorem mem_of_queryParam {url key value : UrlText} (h : queryParam url key = some value) :
    (key, value) ∈ parseQsl (queryOf url) :=
  Theory.Dict.mem_of_ofEntries ((Theory.Dict.mem_entries_iff _ _ _).mpr h)

theorem queryParam_eq_none {url key : UrlText}
    (h : key ∉ (parseQsl (queryOf url)).map Prod.fst) : queryParam url key = none := by
  unfold queryParam
  rw [← Theory.Dict.not_mem_keys_iff, Theory.Dict.mem_keys_ofEntries]
  exact h

theorem queryParam_eq_some_iff {url : UrlText}
    (hnd : ((parseQsl (queryOf url)).map Prod.fst).Nodup) (key value : UrlText) :
    queryParam url key = some value ↔ (key, value) ∈ parseQsl (queryOf url) := by
  unfold queryParam
  rw [← Theory.Dict.mem_entries_iff, Theory.Dict.entries_ofEntries hnd]

theorem beforeHash_append {s : UrlText} (h : '#' ∉ s) (t : UrlText) :
    beforeHash (s ++ t) = s ++ beforeHash t := by
  unfold beforeHash
  exact List.takeWhile_append_of_pos fun a ha => by
    simpa using fun e : a = '#' => h (e ▸ ha)

theorem beforeHash_of_not_mem {s : UrlText} (h : '#' ∉ s) : beforeHash s = s := by
  have happ := beforeHash_append h []
  rwa [List.append_nil, show beforeHash [] = [] from rfl, List.append_nil] at happ

theorem fragmentOf_of_not_mem {s : UrlText} (h : '#' ∉ s) : fragmentOf s = [] := by
  have hall : s.dropWhile (· ≠ '#') = [] :=
    List.dropWhile_eq_nil_iff.mpr fun a ha => by
      simpa using fun e : a = '#' => h (e ▸ ha)
  unfold fragmentOf
  rw [hall]
  rfl

/-- What is appended to a text with a fragment is of the fragment. -/
theorem beforeHash_append_of_mem {s : UrlText} (h : '#' ∈ s) (t : UrlText) :
    beforeHash (s ++ t) = beforeHash s := by
  obtain ⟨a, b, rfl, ha⟩ := List.eq_append_cons_of_mem h
  rw [List.append_assoc, beforeHash_append ha, beforeHash_append ha]
  rfl

theorem weight_beforeHash_le {z : Char → Bool} (s : UrlText) :
    weight z (beforeHash s) ≤ weight z s := weight_sublist (List.takeWhile_sublist _)

/-- A fragment takes its room from the text before it. -/
theorem weight_beforeHash_lt {z : Char → Bool} (hz : z '#' = false) {s : UrlText} (h : '#' ∈ s) :
    weight z (beforeHash s) < weight z s := by
  obtain ⟨a, b, rfl, ha⟩ := List.eq_append_cons_of_mem h
  have hcut : beforeHash (a ++ '#' :: b) = a := by
    rw [beforeHash_append ha]
    exact List.append_nil a
  rw [hcut, weight_append, weight_cons, hz, if_neg Bool.false_ne_true]
  omega

/-- An address that a query string can be appended to. -/
def PlainAddress (address : UrlText) : Prop := '?' ∉ address ∧ '#' ∉ address

theorem baseOf_eq (url : UrlText) : baseOf url = url.takeWhile fun c => c ≠ '?' ∧ c ≠ '#' := by
  unfold baseOf beforeHash
  rw [List.takeWhile_takeWhile]
  simp

theorem baseOf_append {address : UrlText} (h : PlainAddress address) (rest : UrlText) :
    baseOf (address ++ rest) = address ++ baseOf rest := by
  rw [baseOf_eq, baseOf_eq]
  exact List.takeWhile_append_of_pos fun a ha => by
    simpa using ⟨fun e : a = '?' => h.1 (e ▸ ha), fun e : a = '#' => h.2 (e ▸ ha)⟩

theorem baseOf_of_plain {address : UrlText} (h : PlainAddress address) :
    baseOf address = address := by
  have happ := baseOf_append h []
  rwa [List.append_nil, show baseOf [] = [] from rfl, List.append_nil] at happ

/-- What is appended to an address with a query or a fragment is not of its host and path. -/
theorem baseOf_append_of_not_plain {url : UrlText} (h : ¬ PlainAddress url) (rest : UrlText) :
    baseOf (url ++ rest) = baseOf url ∧ (baseOf url).length < url.length := by
  have hlt : (baseOf url).length < url.length := by
    rw [baseOf_eq]
    refine Nat.lt_of_le_of_ne (List.takeWhile_sublist _).length_le ?_
    intro hlen
    have hall : ∀ c ∈ url, decide (c ≠ '?' ∧ c ≠ '#') = true := by
      have heq := (List.takeWhile_sublist fun c => decide (c ≠ '?' ∧ c ≠ '#')).eq_of_length hlen
      rw [← heq]
      exact fun c hc => List.all_eq_true.mp List.all_takeWhile c hc
    refine h ⟨fun hc => ?_, fun hc => ?_⟩
    · simpa using hall _ hc
    · simpa using hall _ hc
  refine ⟨?_, hlt⟩
  rw [baseOf_eq] at hlt ⊢
  rw [List.takeWhile_append, if_neg (Nat.ne_of_lt hlt), ← baseOf_eq]

/-- The query string that is appended to an address without one. -/
theorem queryOf_append {address : UrlText} (h : PlainAddress address) (rest : UrlText) :
    queryOf (address ++ '?' :: rest) = beforeHash rest := by
  unfold queryOf
  have hone : ∀ t : UrlText, beforeHash ('?' :: t) = '?' :: beforeHash t := fun t => rfl
  rw [beforeHash_append h.2, hone, dropWhile_of_not_mem h.1]
  rfl

theorem queryOf_of_plain {address : UrlText} (h : PlainAddress address) : queryOf address = [] := by
  have hall : (address ++ ([] : UrlText)).dropWhile (· ≠ '?') = [] :=
    List.dropWhile_append_of_pos fun a ha => by
      simpa using fun e : a = '?' => h.1 (e ▸ ha)
  rw [List.append_nil] at hall
  unfold queryOf
  rw [beforeHash_of_not_mem h.2, hall]
  rfl

end Notifyr
