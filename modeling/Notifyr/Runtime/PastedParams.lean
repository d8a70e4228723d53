import Mathlib.Data.List.Perm.Basic
import Notifyr.Runtime.Urllib

/-!
# Parameters that are written without an encoder

Groups of keys and values that are pasted as `key=value`, the pairs of a group joined by `&` and
the groups by nothing.

- `render`, `paste`: the text of a group and of several groups.
- `CleanPair`: a pair that comes back from the text it is pasted into.
- `parseQsl_render`: clean pairs are read back.
- `paste_iff`: pasted groups are read back exactly if at most one of them has pairs, none is
  missing and all are clean.
- `not_perm_extended`: text with a `?` that is pasted behind a query string is never read as more
  pairs of it.
-/

namespace Notifyr

/-- A key and a value. -/
abbrev Param := UrlText × UrlText

/-- `"&".join(f"{key}={value}" ...)`. -/
def render (es : List Param) : UrlText :=
  ['&'].intercalate (es.map fun e => e.1 ++ '=' :: e.2)

/-- The texts of several groups, one behind the other. -/
def paste (groups : List (List Param)) : UrlText := (groups.map render).flatten

/-- A pair that comes back from the text it is pasted into. -/
def CleanPair (e : Param) : Prop := '=' ∉ e.1 ∧ Survives e.1 ∧ Survives e.2

@[simp] theorem render_nil : render [] = [] := rfl

/-- The pair that a pasted pair is read as, where it is read as one. -/
def reread (e : Param) : Param := parsePair (e.1 ++ '=' :: e.2)

/-- Pairs without a separator are read one by one. -/
theorem parseQsl_render_eq {es : List Param} (h : ∀ e ∈ es, '&' ∉ e.1 ∧ '&' ∉ e.2) :
    parseQsl (render es) = es.map reread := by
  cases es with
  | nil => rfl
  | cons e rest =>
    unfold parseQsl render
    rw [List.splitOn_intercalate]
    · rw [List.filter_eq_self.mpr, List.map_map]
      · rfl
      · intro piece hpiece
        obtain ⟨p, -, rfl⟩ := List.mem_map.mp hpiece
        exact decide_eq_true (by simp)
    · intro piece hpiece
      obtain ⟨p, hp, rfl⟩ := List.mem_map.mp hpiece
      simp [h p hp]
    · simp

theorem reread_of_not_mem {e : Param} (h : '=' ∉ e.1) :
    reread e = (unquotePlus e.1, unquotePlus e.2) := parsePair_append h e.2

/-- Clean pairs are read back. -/
theorem parseQsl_render {es : List Param} (h : ∀ e ∈ es, CleanPair e) :
    parseQsl (render es) = es := by
  rw [parseQsl_render_eq fun e he => ⟨(h e he).2.1.1, (h e he).2.2.1⟩]
  refine (List.map_congr_left fun e he => ?_).trans (List.map_id es)
  obtain ⟨heq, ⟨-, -, hk⟩, -, -, hv⟩ := h e he
  rw [reread_of_not_mem heq, hk, hv]
  rfl

theorem mem_render {es : List Param} {e : Param} (he : e ∈ es) {c : Char}
    (hc : c ∈ e.1 ∨ c ∈ e.2) : c ∈ render es := by
  have hpiece : c ∈ e.1 ++ '=' :: e.2 := by
    rcases hc with hc | hc <;> simp [hc]
  induction es with
  | nil => cases he
  | cons e' es ih =>
    have hhead : ∀ rest : List UrlText, c ∈ e'.1 ++ '=' :: e'.2 →
        c ∈ ['&'].intercalate ((e'.1 ++ '=' :: e'.2) :: rest) := by
      intro rest hmem
      cases rest with
      | nil => simpa using hmem
      | cons p rest =>
        rw [List.intercalate_cons_cons]
        exact List.mem_append_left _ (List.mem_append_left _ hmem)
    rcases List.mem_cons.mp he with rfl | he
    · exact hhead _ hpiece
    · cases es with
      | nil => cases he
      | cons e'' es =>
        have hrest := ih he
        unfold render at hrest ⊢
        rw [List.map_cons, List.map_cons, List.intercalate_cons_cons]
        exact List.mem_append_right _ hrest

theorem of_mem_render {es : List Param} {c : Char} (hc : c ∈ render es) :
    c = '&' ∨ c = '=' ∨ ∃ e ∈ es, c ∈ e.1 ∨ c ∈ e.2 := of_mem_joinedPairs hc

/-- Clean pairs bring no fragment. -/
theorem hash_not_mem_paste {groups : List (List Param)}
    (h : ∀ e ∈ groups.flatten, CleanPair e) : '#' ∉ paste groups := by
  intro hmem
  obtain ⟨text, htext, hc⟩ := List.mem_flatten.mp hmem
  obtain ⟨es, hes, rfl⟩ := List.mem_map.mp htext
  rcases of_mem_render hc with hc | hc | ⟨e, he, hc⟩
  · cases hc
  · cases hc
  · obtain ⟨-, hkey, hvalue⟩ := h e (List.mem_flatten.mpr ⟨es, hes, he⟩)
    rcases hc with hc | hc
    · exact hkey.2.1 hc
    · exact hvalue.2.1 hc

/-! ## Sums over pairs -/

/-- The room of several pairs. -/
def pairsWeight (es : List Param) : ℕ := (es.map (pairWeight light)).sum

theorem pairsWeight_append (es es' : List Param) :
    pairsWeight (es ++ es') = pairsWeight es + pairsWeight es' := by
  unfold pairsWeight
  rw [List.map_append, List.sum_append]

theorem pairsWeight_perm {es es' : List Param} (h : es.Perm es') :
    pairsWeight es = pairsWeight es' := (h.map _).sum_eq

theorem pairsWeight_pos {es : List Param} (h : es ≠ []) : 0 < pairsWeight es := by
  cases es with
  | nil => exact absurd rfl h
  | cons e es =>
    show 0 < ((e :: es).map (pairWeight light)).sum
    rw [List.map_cons, List.sum_cons]
    unfold pairWeight
    omega

/-- Pairs among others take no more room, and as much only if they are all of them. -/
theorem pairsWeight_subperm {es es' : List Param} (h : es.Subperm es') :
    pairsWeight es ≤ pairsWeight es' ∧ (pairsWeight es' ≤ pairsWeight es → es.Perm es') := by
  obtain ⟨es'', hperm', hsub⟩ := h
  obtain ⟨rest, hrest⟩ := hsub.exists_perm_append
  have hperm : es'.Perm (es ++ rest) := hrest.trans (hperm'.append_right rest)
  have hsum := pairsWeight_perm hperm
  rw [pairsWeight_append] at hsum
  refine ⟨by omega, ?_⟩
  intro hle
  have hnil : rest = [] := by
    by_contra hne
    have hpos := pairsWeight_pos hne
    omega
  rw [hnil, List.append_nil] at hperm
  exact hperm.symm

theorem weight_pair (e : Param) :
    weight light (e.1 ++ '=' :: e.2) + 1 = pairWeight light e := by
  rw [weight_append, weight_cons, if_pos (by decide)]
  unfold pairWeight
  omega

theorem weight_render {es : List Param} (h : es ≠ []) :
    weight light (render es) + 1 = pairsWeight es := by
  unfold render pairsWeight
  rw [weight_intercalate light_amp (by simpa using h), List.map_map]
  exact congrArg List.sum (List.map_congr_left fun e _ => weight_pair e)

/-- The text of groups has a separator less for each group that has pairs. -/
theorem weight_paste (groups : List (List Param)) :
    weight light (paste groups) + (groups.filter (· ≠ [])).length = pairsWeight groups.flatten := by
  induction groups with
  | nil => rfl
  | cons g groups ih =>
    have hpaste : paste (g :: groups) = render g ++ paste groups := rfl
    rw [hpaste, weight_append, List.flatten_cons, pairsWeight_append, List.filter_cons]
    by_cases hg : g = []
    · subst hg
      have hnil : pairsWeight [] = 0 := rfl
      simp only [render_nil, weight_nil, hnil]
      simpa using ih
    · have hrender := weight_render hg
      rw [if_pos (by simpa using hg), List.length_cons]
      omega

/-! ## One group -/

theorem length_splitOn (c : Char) (s : UrlText) : (s.splitOn c).length = s.count c + 1 := by
  induction s with
  | nil => rfl
  | cons x s ih =>
    rw [List.splitOn_cons_eq_if_modifyHead, List.count_cons]
    by_cases hx : x = c
    · simp [hx, ih]
    · simp [hx, ih]

/-- Each empty piece of a query string leaves a separator without a pair. -/
theorem weight_parseQsl_count (qs : UrlText) :
    pairsWeight (parseQsl qs) + qs.count '&' ≤ weight light qs + (parseQsl qs).length := by
  have hlen := length_splitOn '&' qs
  have hq := weight_intercalate light_amp (List.splitOn_ne_nil '&' qs)
  rw [List.intercalate_splitOn] at hq
  have hpieces : pairsWeight (parseQsl qs) + (qs.splitOn '&').length ≤
      ((qs.splitOn '&').map fun p => weight light p + 1).sum + (parseQsl qs).length := by
    unfold parseQsl pairsWeight
    generalize qs.splitOn '&' = pieces
    induction pieces with
    | nil => exact Nat.le_refl 0
    | cons p rest ih =>
      have hp := weight_parsePair_le weightless_light p
      rw [List.filter_cons, List.map_cons (f := fun p => weight light p + 1), List.sum_cons,
        List.length_cons]
      split
      · rw [List.map_cons, List.map_cons, List.sum_cons, List.length_cons]
        omega
      · omega
  omega

theorem count_render {es : List Param} (h : es ≠ []) :
    (render es).count '&' + 1 =
      (es.map fun e => e.1.count '&' + e.2.count '&').sum + es.length := by
  unfold render
  induction es with
  | nil => exact absurd rfl h
  | cons e es ih =>
    have hone : (e.1 ++ '=' :: e.2).count '&' = e.1.count '&' + e.2.count '&' := by
      rw [List.count_append, List.count_cons_of_ne (by decide)]
    cases es with
    | nil => simp [hone]
    | cons e' es =>
      have hrest := ih (List.cons_ne_nil e' es)
      have hsep : ['&'].count '&' = 1 := rfl
      rw [List.map_cons, List.map_cons, List.intercalate_cons_cons, List.count_append,
        List.count_append, hone, hsep]
      rw [List.map_cons] at hrest
      rw [List.map_cons (f := fun e : Param => e.1.count '&' + e.2.count '&'), List.sum_cons,
        List.length_cons]
      omega

/-- Terms that are bounded one by one and have the same sum are the same. -/
theorem eq_of_sum_eq {α : Type} {l : List α} {f g : α → ℕ} (hle : ∀ a ∈ l, f a ≤ g a)
    (hsum : (l.map g).sum ≤ (l.map f).sum) : ∀ a ∈ l, f a = g a := by
  induction l with
  | nil => simp
  | cons a l ih =>
    rw [List.map_cons, List.map_cons, List.sum_cons, List.sum_cons] at hsum
    have ha := hle a List.mem_cons_self
    have hrest : (l.map f).sum ≤ (l.map g).sum :=
      List.sum_le_sum fun b hb => hle b (List.mem_cons_of_mem a hb)
    intro b hb
    rcases List.mem_cons.mp hb with rfl | hb
    · omega
    · exact ih (fun b hb => hle b (List.mem_cons_of_mem a hb)) (by omega) b hb

/-- A key that has an `=` is cut there. -/
theorem length_reread_key (e : Param) :
    (reread e).1.length ≤ e.1.length ∧ ((reread e).1.length = e.1.length → '=' ∉ e.1) := by
  by_cases heq : '=' ∈ e.1
  · obtain ⟨a, b, hab, ha⟩ := List.eq_append_cons_of_mem heq
    have hread : (reread e).1 = unquotePlus a := by
      unfold reread
      rw [hab, List.append_assoc, List.cons_append, parsePair_append ha]
    have hle := length_unquotePlus_le a
    rw [hread, hab, List.length_append, List.length_cons]
    constructor
    · omega
    · intro h
      omega
  · refine ⟨?_, fun _ => heq⟩
    rw [reread_of_not_mem heq]
    exact length_unquotePlus_le e.1

theorem length_replacePlus (s : UrlText) : (replacePlus s).length = s.length :=
  List.length_map _

theorem not_mem_replacePlus (s : UrlText) : '+' ∉ replacePlus s := by
  intro h
  obtain ⟨c, -, hc⟩ := List.mem_map.mp h
  by_cases hplus : c = '+'
  · rw [if_pos hplus] at hc
    cases hc
  · rw [if_neg hplus] at hc
    exact hplus hc

theorem unquotePlus_of_length {s : UrlText} (h : (unquotePlus s).length = s.length) :
    unquotePlus s = replacePlus s :=
  unquote_of_length (by rw [length_replacePlus]; exact Nat.le_of_eq h.symm)

/-- A group that is read back as its own pairs, in any order, has clean pairs: each pair would
have to gain what another one loses. -/
theorem clean_of_perm {es : List Param} (hhash : '#' ∉ render es)
    (h : (parseQsl (render es)).Perm es) : ∀ e ∈ es, CleanPair e := by
  by_cases hne : es = []
  · subst hne
    simp
  have hamp : ∀ e ∈ es, '&' ∉ e.1 ∧ '&' ∉ e.2 := by
    have hroom := weight_parseQsl_count (render es)
    have hrender := weight_render hne
    have hcount := count_render hne
    rw [pairsWeight_perm h, h.length_eq] at hroom
    have hzero : ∀ e ∈ es, 0 = e.1.count '&' + e.2.count '&' :=
      eq_of_sum_eq (fun e _ => Nat.zero_le _) (by omega)
    intro e he
    have h0 := hzero e he
    exact ⟨List.count_eq_zero.mp (by omega), List.count_eq_zero.mp (by omega)⟩
  rw [parseQsl_render_eq hamp] at h
  have hsum : ∀ f : Param → ℕ, (es.map f).sum = (es.map fun e => f (reread e)).sum := by
    intro f
    have hperm := (h.map f).sum_eq
    rw [List.map_map] at hperm
    exact hperm.symm
  have hkey : ∀ e ∈ es, '=' ∉ e.1 := by
    have hlen := eq_of_sum_eq (fun e _ => (length_reread_key e).1)
      (Nat.le_of_eq (hsum fun e => e.1.length))
    exact fun e he => (length_reread_key e).2 (hlen e he)
  have hread : ∀ e ∈ es, reread e = (unquotePlus e.1, unquotePlus e.2) :=
    fun e he => reread_of_not_mem (hkey e he)
  have hfirst : ∀ e ∈ es, unquotePlus e.1 = replacePlus e.1 := by
    have hlen := eq_of_sum_eq (fun e _ => (length_reread_key e).1)
      (Nat.le_of_eq (hsum fun e => e.1.length))
    intro e he
    have hl := hlen e he
    rw [hread e he] at hl
    exact unquotePlus_of_length hl
  have hsecond : ∀ e ∈ es, unquotePlus e.2 = replacePlus e.2 := by
    have hle : ∀ e ∈ es, (reread e).2.length ≤ e.2.length := by
      intro e he
      rw [hread e he]
      exact length_unquotePlus_le e.2
    have hlen := eq_of_sum_eq hle (Nat.le_of_eq (hsum fun e => e.2.length))
    intro e he
    have hl := hlen e he
    rw [hread e he] at hl
    exact unquotePlus_of_length hl
  have hplus : ∀ e ∈ es, '+' ∉ e.1 ∧ '+' ∉ e.2 := by
    have hnone : ∀ e ∈ es, (reread e).1.count '+' + (reread e).2.count '+' = 0 := by
      intro e he
      rw [hread e he]
      simp only [hfirst e he, hsecond e he]
      rw [List.count_eq_zero.mpr (not_mem_replacePlus _),
        List.count_eq_zero.mpr (not_mem_replacePlus _)]
    have hcount := eq_of_sum_eq (fun e he => (hnone e he).le.trans (Nat.zero_le _))
      (Nat.le_of_eq (hsum fun e => e.1.count '+' + e.2.count '+'))
    intro e he
    have h0 := (hcount e he).symm.trans (hnone e he)
    exact ⟨List.count_eq_zero.mp (by omega), List.count_eq_zero.mp (by omega)⟩
  intro e he
  refine ⟨hkey e he, ⟨(hamp e he).1, fun hc => hhash (mem_render he (.inl hc)), ?_⟩,
    (hamp e he).2, fun hc => hhash (mem_render he (.inr hc)), ?_⟩
  · rw [hfirst e he, replacePlus_of_not_mem (hplus e he).1]
  · rw [hsecond e he, replacePlus_of_not_mem (hplus e he).2]

/-! ## Several groups -/

theorem paste_of_flatten_nil {groups : List (List Param)} (h : groups.flatten = []) :
    paste groups = [] := by
  have hall : ∀ g ∈ groups, g = [] := List.flatten_eq_nil_iff.mp h
  unfold paste
  rw [List.flatten_eq_nil_iff]
  intro t ht
  obtain ⟨g, hg, rfl⟩ := List.mem_map.mp ht
  rw [hall g hg]
  rfl

/-- A single group with pairs is all there is. -/
theorem paste_of_one {groups : List (List Param)} (h : (groups.filter (· ≠ [])).length ≤ 1) :
    paste groups = render groups.flatten := by
  induction groups with
  | nil => rfl
  | cons g groups ih =>
    have hpaste : paste (g :: groups) = render g ++ paste groups := rfl
    rw [List.filter_cons] at h
    by_cases hg : g = []
    · subst hg
      rw [hpaste, List.flatten_cons, render_nil, List.nil_append, List.nil_append]
      exact ih (by simpa using h)
    · rw [if_pos (by simpa using hg), List.length_cons] at h
      have hnone : groups.filter (· ≠ []) = [] := List.length_eq_zero_iff.mp (by omega)
      have hflat : groups.flatten = [] := by
        rw [List.flatten_eq_nil_iff]
        intro g' hg'
        by_contra hne
        have hmem : g' ∈ groups.filter (· ≠ []) := List.mem_filter.mpr ⟨hg', by simpa using hne⟩
        rw [hnone] at hmem
        cases hmem
      rw [hpaste, List.flatten_cons, paste_of_flatten_nil hflat, hflat, List.append_nil,
        List.append_nil]

/-- Groups that are pasted one behind the other are read back as `es`, of which they are a part,
exactly if at most one group has pairs, none of `es` is missing and all of them are clean. -/
theorem paste_iff {groups : List (List Param)} {es : List Param}
    (hsub : groups.flatten.Subperm es) (hempty : groups.flatten = [] → es = []) :
    (parseQsl (beforeHash (paste groups))).Perm es ↔
      (groups.filter (· ≠ [])).length ≤ 1 ∧ groups.flatten.Perm es ∧ ∀ e ∈ es, CleanPair e := by
  have hpaste := weight_paste groups
  constructor
  · intro h
    have hroom := weight_parseQsl_le weightless_light light_amp (beforeHash (paste groups))
    have hperm := pairsWeight_perm h
    have hcut := weight_beforeHash_le (z := light) (paste groups)
    obtain ⟨hle, hall⟩ := pairsWeight_subperm hsub
    have hsum : pairsWeight es ≤ weight light (beforeHash (paste groups)) + 1 := by
      rw [← hperm]
      exact hroom
    have hone : (groups.filter (· ≠ [])).length ≤ 1 := by omega
    by_cases hnil : groups.flatten = []
    · refine ⟨hone, ?_, ?_⟩
      · rw [hnil, hempty hnil]
      · rw [hempty hnil]
        simp
    · have hrender := paste_of_one hone
      have hweight := weight_render hnil
      rw [hrender] at hpaste hcut hsum h
      have heq := hall (by omega)
      have hhash : '#' ∉ render groups.flatten := fun hc => by
        have hlt := weight_beforeHash_lt light_hash hc
        omega
      rw [beforeHash_of_not_mem hhash] at h
      have hclean := clean_of_perm hhash (h.trans heq.symm)
      exact ⟨hone, heq, fun e he => hclean e (heq.mem_iff.mpr he)⟩
  · rintro ⟨hone, heq, hclean⟩
    have hclean' : ∀ e ∈ groups.flatten, CleanPair e := fun e he => hclean e (heq.mem_iff.mp he)
    have hhash : '#' ∉ render groups.flatten := by
      intro hc
      rcases of_mem_render hc with h | h | ⟨e, he, h⟩
      · cases h
      · cases h
      · rcases h with h | h
        · exact (hclean' e he).2.1.2.1 h
        · exact (hclean' e he).2.2.2.1 h
    rw [paste_of_one hone, beforeHash_of_not_mem hhash, parseQsl_render hclean']
    exact heq

/-- The pairs of one group are all read back exactly if they are clean. -/
theorem render_subset_iff {es : List Param} (hnd : es.Nodup) :
    es ⊆ parseQsl (beforeHash (render es)) ↔ ∀ e ∈ es, CleanPair e := by
  have hpaste : paste [es] = render es := List.append_nil (render es)
  have hflat : [es].flatten = es := List.append_nil es
  have hiff := @paste_iff [es] es (by rw [hflat]) (by rw [hflat]; exact id)
  rw [hpaste, hflat] at hiff
  constructor
  · intro h
    have hsub := List.subperm_of_subset hnd h
    have hroom := weight_parseQsl_le weightless_light light_amp (beforeHash (render es))
    have hcut := weight_beforeHash_le (z := light) (render es)
    have hsum : pairsWeight (parseQsl (beforeHash (render es))) ≤
        weight light (beforeHash (render es)) + 1 := hroom
    by_cases hnil : es = []
    · subst hnil
      simp
    · have hweight := weight_render hnil
      have hperm := (pairsWeight_subperm hsub).2 (by omega)
      exact (hiff.mp hperm.symm).2.2
  · intro h
    have hone : ([es].filter (· ≠ [])).length ≤ 1 := List.length_filter_le _ _
    exact (hiff.mpr ⟨hone, List.Perm.refl es, h⟩).symm.subset

/-! ## Behind a query string -/

theorem delimiter_slash : Delimiter '/' := ⟨by decide, by decide, by decide, by decide⟩

theorem delimiter_question : Delimiter '?' := ⟨by decide, by decide, by decide, by decide⟩

/-- What a delimiter and more text behind a piece change in its pair: they go to its value, or to
its key if it has none. -/
theorem parsePair_extended {c : Char} (hc : Delimiter c) (hne : c ≠ '=') (piece w : UrlText) :
    (∃ k v, parsePair piece = (k, v) ∧ parsePair (piece ++ c :: w) = (k, v ++ c :: unquotePlus w)) ∨
      ∃ k, parsePair piece = (k, []) ∧ parsePair (piece ++ c :: w) =
        (k ++ c :: unquotePlus (w.takeWhile (· ≠ '=')),
          unquotePlus ((w.dropWhile (· ≠ '=')).drop 1)) := by
  by_cases heq : '=' ∈ piece
  · obtain ⟨k, v, rfl, hk⟩ := List.eq_append_cons_of_mem heq
    left
    refine ⟨unquotePlus k, unquotePlus v, parsePair_append hk v, ?_⟩
    rw [List.append_assoc, List.cons_append, parsePair_append hk, unquotePlus_append_cons hc]
  · right
    have hall : ∀ a ∈ piece, decide (a ≠ '=') = true := fun a ha => by
      simpa using fun e : a = '=' => heq (e ▸ ha)
    have htake := List.takeWhile_eq_self_iff.mpr hall
    have hdrop := List.dropWhile_eq_nil_iff.mpr hall
    have hcons : (c :: w).takeWhile (· ≠ '=') = c :: w.takeWhile (· ≠ '=') ∧
        (c :: w).dropWhile (· ≠ '=') = w.dropWhile (· ≠ '=') := by simp [hne]
    refine ⟨unquotePlus piece, ?_, ?_⟩
    · unfold parsePair
      rw [htake, hdrop]
      rfl
    · unfold parsePair
      rw [List.takeWhile_append_of_pos hall, List.dropWhile_append_of_pos hall, hcons.1, hcons.2,
        unquotePlus_append_cons hc]

theorem parsePair_extended_ne {c : Char} (hc : Delimiter c) (hne : c ≠ '=') (piece w : UrlText) :
    parsePair (piece ++ c :: w) ≠ parsePair piece := by
  intro h
  rcases parsePair_extended hc hne piece w with ⟨k, v, hbefore, hafter⟩ | ⟨k, hbefore, hafter⟩
  · rw [hbefore, hafter] at h
    have hlen := congrArg (fun e : Param => e.2.length) h
    simp at hlen
  · rw [hbefore, hafter] at h
    have hlen := congrArg (fun e : Param => e.1.length) h
    simp at hlen

theorem pairWeight_extended {c : Char} (hc : Delimiter c) (hne : c ≠ '=') (hlight : light c = true)
    (piece w : UrlText) : pairWeight light (parsePair (piece ++ c :: w)) ≤
      pairWeight light (parsePair piece) + weight light w := by
  rcases parsePair_extended hc hne piece w with ⟨k, v, hbefore, hafter⟩ | ⟨k, hbefore, hafter⟩
  · have hle := weight_unquotePlus_le weightless_light w
    rw [hbefore, hafter]
    show weight light k + weight light (v ++ c :: unquotePlus w) + 1 ≤
      weight light k + weight light v + 1 + _
    rw [weight_append, weight_cons, if_pos hlight]
    omega
  · have hkey := weight_unquotePlus_le weightless_light (w.takeWhile (· ≠ '='))
    have hvalue := weight_unquotePlus_le weightless_light ((w.dropWhile (· ≠ '=')).drop 1)
    have hsplit := weight_takeWhile_dropWhile (z := light) w
    rw [hbefore, hafter]
    show weight light (k ++ c :: unquotePlus (w.takeWhile (· ≠ '='))) +
      weight light (unquotePlus ((w.dropWhile (· ≠ '=')).drop 1)) + 1 ≤
        weight light k + weight light [] + 1 + _
    rw [weight_append, weight_cons, if_pos hlight, weight_nil]
    omega

/-- Text that is pasted behind the last piece of a query string brings room for itself only. -/
theorem pairsWeight_extended {c : Char} (hc : Delimiter c) (hne : c ≠ '=')
    (hlight : light c = true) {piece : UrlText} (hpiece : '&' ∉ piece) (w : UrlText) :
    pairsWeight (parseQsl (piece ++ c :: w)) ≤
      pairWeight light (parsePair piece) + weight light w := by
  have hcamp : c ≠ '&' := fun e => by
    rw [e, light_amp] at hlight
    cases hlight
  have hstart : ∀ w', '&' ∉ w' → parseQsl (piece ++ c :: w') = [parsePair (piece ++ c :: w')] := by
    intro w' hw'
    exact parseQsl_of_not_mem (by simp [hpiece, hw', hcamp.symm]) (by simp)
  by_cases hw : '&' ∈ w
  · obtain ⟨w₁, w₂, rfl, hw₁⟩ := List.eq_append_cons_of_mem hw
    have hfirst := pairWeight_extended hc hne hlight piece w₁
    have hrest := weight_parseQsl_le weightless_light light_amp w₂
    have hsplit : piece ++ c :: (w₁ ++ '&' :: w₂) = (piece ++ c :: w₁) ++ '&' :: w₂ := by simp
    rw [hsplit, parseQsl_append, hstart w₁ hw₁, pairsWeight_append, weight_append, weight_cons,
      if_neg (by decide)]
    have hone : pairsWeight [parsePair (piece ++ c :: w₁)] =
        pairWeight light (parsePair (piece ++ c :: w₁)) := List.sum_singleton
    have htwo : pairsWeight (parseQsl w₂) = ((parseQsl w₂).map (pairWeight light)).sum := rfl
    omega
  · have hfirst := pairWeight_extended hc hne hlight piece w
    rw [hstart w hw]
    show ([pairWeight light (parsePair (piece ++ c :: w))]).sum ≤ _
    rw [List.sum_singleton]
    exact hfirst

theorem count_intercalate {c : Char} (hamp : c ≠ '&') (pieces : List UrlText) :
    (['&'].intercalate pieces).count c = (pieces.map (List.count c)).sum := by
  induction pieces with
  | nil => rfl
  | cons p rest ih =>
    cases rest with
    | nil => simp
    | cons q rest =>
      have hsep : ['&'].count c = 0 := by
        rw [List.count_cons_of_ne hamp.symm]
        rfl
      have hcons : ((p :: q :: rest).map (List.count c)).sum =
          p.count c + ((q :: rest).map (List.count c)).sum := by
        rw [List.map_cons, List.sum_cons]
      rw [List.intercalate_cons_cons, List.count_append, List.count_append, ih, hsep, hcons]
      omega

/-- Decoding keeps every delimiter of the pairs. -/
theorem count_le_parseQsl {c : Char} (hc : Delimiter c) (hne : c ≠ '=') (hamp : c ≠ '&')
    (qs : UrlText) :
    qs.count c ≤ ((parseQsl qs).map fun e => e.1.count c + e.2.count c).sum := by
  have hpair : ∀ piece : UrlText,
      piece.count c ≤ (parsePair piece).1.count c + (parsePair piece).2.count c := by
    intro piece
    have hkey := count_le_unquotePlus hc (piece.takeWhile (· ≠ '='))
    have hvalue := count_le_unquotePlus hc ((piece.dropWhile (· ≠ '=')).drop 1)
    have hsplit := congrArg (List.count c)
      (List.takeWhile_append_dropWhile (p := (· ≠ '=')) (l := piece))
    have hdrop : (piece.dropWhile (· ≠ '=')).count c =
        ((piece.dropWhile (· ≠ '=')).drop 1).count c := by
      cases hd : piece.dropWhile (· ≠ '=') with
      | nil => rfl
      | cons x rest =>
        have hx : x = '=' := by
          have hhead := List.head?_dropWhile_not (· ≠ '=') piece
          rw [hd] at hhead
          simpa using hhead
        rw [hx, List.count_cons_of_ne hne.symm]
        rfl
    rw [List.count_append] at hsplit
    show _ ≤ (unquotePlus (piece.takeWhile (· ≠ '='))).count c +
      (unquotePlus ((piece.dropWhile (· ≠ '=')).drop 1)).count c
    omega
  have hpieces := count_intercalate hamp (qs.splitOn '&')
  rw [List.intercalate_splitOn] at hpieces
  rw [hpieces]
  unfold parseQsl
  generalize qs.splitOn '&' = pieces
  induction pieces with
  | nil => exact Nat.le_refl 0
  | cons p rest ih =>
    have hp := hpair p
    rw [List.filter_cons, List.map_cons, List.sum_cons]
    split
    · rw [List.map_cons, List.map_cons, List.sum_cons]
      omega
    · rename_i hnil
      have hp0 : p = [] := by simpa using hnil
      subst hp0
      rw [List.count_nil]
      omega

theorem count_question_render (es : List Param) :
    (render es).count '?' = (es.map fun e => e.1.count '?' + e.2.count '?').sum := by
  unfold render
  rw [count_intercalate (by decide), List.map_map]
  refine congrArg List.sum (List.map_congr_left fun e _ => ?_)
  show (e.1 ++ '=' :: e.2).count '?' = _
  rw [List.count_append, List.count_cons_of_ne (by decide)]

theorem one_le_groups {groups : List (List Param)} (h : groups.flatten ≠ []) :
    1 ≤ (groups.filter (· ≠ [])).length := by
  by_contra hnone
  have hrender : paste groups = render groups.flatten := paste_of_one (by omega)
  have hpaste := weight_paste groups
  have hweight := weight_render h
  rw [hrender] at hpaste
  omega

section Extended

variable {groups : List (List Param)} {es : List Param}

/-- Nothing is read from a `?` behind a separator but a key that begins with it. -/
theorem not_perm_slash (hsub : groups.flatten.Subperm es)
    (hempty : groups.flatten = [] → es = []) :
    ¬ (parseQsl ('/' :: '?' :: beforeHash (paste groups))).Perm es := by
  intro h
  have hpaste := weight_paste groups
  have hcut := weight_beforeHash_le (z := light) (paste groups)
  have hroom := weight_parseQsl_le weightless_light light_amp
    ('/' :: '?' :: beforeHash (paste groups))
  have hsum : ((parseQsl ('/' :: '?' :: beforeHash (paste groups))).map (pairWeight light)).sum =
      pairsWeight es := pairsWeight_perm h
  rw [hsum, weight_cons, weight_cons, if_pos (by decide), if_pos (by decide)] at hroom
  obtain ⟨hle, hall⟩ := pairsWeight_subperm hsub
  by_cases hnil : groups.flatten = []
  · rw [paste_of_flatten_nil hnil, hempty hnil] at h
    have hread := h.length_eq
    rw [show beforeHash [] = [] from rfl, parseQsl_of_not_mem (by decide) (by decide)] at hread
    cases hread
  · have hone := one_le_groups hnil
    have hrender : paste groups = render groups.flatten := paste_of_one (by omega)
    have hweight := weight_render hnil
    have hperm := hall (by omega)
    rw [hrender] at h hpaste hcut hroom
    have hhash : '#' ∉ render groups.flatten := fun hc => by
      have hlt := weight_beforeHash_lt light_hash hc
      omega
    rw [beforeHash_of_not_mem hhash] at h
    have hcount := count_le_parseQsl delimiter_question (by decide) (by decide)
      ('/' :: '?' :: render groups.flatten)
    rw [((h.trans hperm.symm).map _).sum_eq, List.count_cons_of_ne (by decide),
      List.count_cons_self, count_question_render] at hcount
    exact absurd hcount (Nat.not_succ_le_self _)

/-- The last piece of a query string takes what is pasted behind it into its own pair. -/
theorem not_perm_piece (hsub : groups.flatten.Subperm es)
    (hempty : groups.flatten = [] → es = []) {piece : UrlText} (hpiece : '&' ∉ piece)
    {c : Char} (hc : Delimiter c) (hne : c ≠ '=') (hlight : light c = true) {w : UrlText}
    (hw : weight light w = weight light (beforeHash (paste groups)))
    (hend : groups.flatten = [] → '&' ∉ w) :
    ¬ (parseQsl (piece ++ c :: w)).Perm (parsePair piece :: es) := by
  intro h
  have hroom := pairsWeight_extended hc hne hlight hpiece w
  have hsum : pairsWeight (parseQsl (piece ++ c :: w)) =
      pairWeight light (parsePair piece) + pairsWeight es := by
    rw [pairsWeight_perm h]
    exact List.sum_cons
  have hpaste := weight_paste groups
  have hcut := weight_beforeHash_le (z := light) (paste groups)
  have hle := (pairsWeight_subperm hsub).1
  by_cases hnil : groups.flatten = []
  · have hcamp : c ≠ '&' := fun e => by
      rw [e, light_amp] at hlight
      cases hlight
    have hamp : '&' ∉ piece ++ c :: w := by simp [hpiece, hend hnil, hcamp.symm]
    rw [hempty hnil, parseQsl_of_not_mem hamp (by simp)] at h
    have heq := List.singleton_perm_singleton.mp h
    exact parsePair_extended_ne hc hne piece w heq
  · have hone := one_le_groups hnil
    omega

/-- Text that is pasted behind a query string, after a `?` and after a `/` unless the string ends
in one, is never read as more pairs of it. -/
theorem not_perm_extended (hsub : groups.flatten.Subperm es)
    (hempty : groups.flatten = [] → es = []) {slash : UrlText} (y : UrlText)
    (hslash : slash = ['/'] ∨ slash = [] ∧ y.getLast? = some '/') :
    ¬ (parseQsl (y ++ (slash ++ '?' :: beforeHash (paste groups)))).Perm (parseQsl y ++ es) := by
  have hend : groups.flatten = [] → beforeHash (paste groups) = [] := by
    intro hnil
    rw [paste_of_flatten_nil hnil]
    rfl
  induction hn : y.length using Nat.strongRecOn generalizing y with
  | _ n ih =>
    by_cases hamp : '&' ∈ y
    · obtain ⟨a, b, rfl, ha⟩ := List.eq_append_cons_of_mem hamp
      rw [List.length_append, List.length_cons] at hn
      rw [List.append_assoc, List.cons_append, parseQsl_append, parseQsl_append, List.append_assoc,
        List.perm_append_left_iff]
      refine ih b.length (by omega) b ?_ rfl
      rcases hslash with h | ⟨h, hlast⟩
      · exact .inl h
      · right
        refine ⟨h, ?_⟩
        rw [List.getLast?_append, List.getLast?_cons] at hlast
        cases hb : b.getLast? with
        | none =>
          rw [hb] at hlast
          simp at hlast
        | some c =>
          rw [hb] at hlast
          simpa using hlast
    · by_cases hy : y = []
      · subst hy
        rcases hslash with rfl | ⟨-, hlast⟩
        · exact not_perm_slash hsub hempty
        · cases hlast
      · rw [parseQsl_of_not_mem hamp hy]
        rcases hslash with rfl | ⟨rfl, -⟩
        · refine not_perm_piece hsub hempty hamp delimiter_slash (by decide) rfl ?_ ?_
          · show weight light ('?' :: beforeHash (paste groups)) = _
            rw [weight_cons, if_pos (by decide)]
            rfl
          · intro hnil
            rw [hend hnil]
            decide
        · refine not_perm_piece hsub hempty hamp delimiter_question (by decide) rfl rfl ?_
          intro hnil
          rw [hend hnil]
          exact List.not_mem_nil

end Extended

end Notifyr
