import Mathlib.Data.List.Nodup

/-!
# Insertion-ordered dictionaries

The dictionaries of a language that iterates them in insertion order: a list of entries
without two entries for one key.

- `Dict`: the type; `get?`, `keys`, `set`, `ofEntries`.
- `set` replaces the value of a key in place, and appends a new key.
- `get?_set`, `mem_keys_set`: how `set` and the observations compose.
- `mem_entries_iff`: the entries are exactly the pairs `get?` answers.
-/

namespace Theory

/-- A dictionary, as its entries in the order the keys were inserted. -/
structure Dict (κ ν : Type) where
  entries : List (κ × ν)
  nodup : (entries.map Prod.fst).Nodup

namespace Dict

variable {κ ν : Type} [DecidableEq κ]

/-- The empty dictionary. -/
def empty : Dict κ ν := ⟨[], List.nodup_nil⟩

/-- The keys in order. -/
def keys (d : Dict κ ν) : List κ := d.entries.map Prod.fst

/-- `d.get(k)`. -/
def get? (d : Dict κ ν) (k : κ) : Option ν := d.entries.lookup k

theorem map_fst_replace (es : List (κ × ν)) (k : κ) (v : ν) :
    (es.map fun e => if e.1 = k then (k, v) else e).map Prod.fst = es.map Prod.fst := by
  induction es with
  | nil => rfl
  | cons e rest ih =>
    by_cases h : e.1 = k
    · simp [h, ih]
    · simp [h, ih]

/-- `d[k] = v`. -/
def set (d : Dict κ ν) (k : κ) (v : ν) : Dict κ ν :=
  if h : k ∈ d.keys then
    ⟨d.entries.map fun e => if e.1 = k then (k, v) else e, by
      rw [map_fst_replace]
      exact d.nodup⟩
  else
    ⟨d.entries ++ [(k, v)], by
      rw [List.map_append]
      exact List.nodup_append.mpr ⟨d.nodup, List.nodup_singleton _, by
        intro a ha b hb hab
        have hbk : b = k := by simpa using hb
        exact h (hbk ▸ hab ▸ ha)⟩⟩

theorem entries_set_of_mem (d : Dict κ ν) {k : κ} (v : ν) (h : k ∈ d.keys) :
    (d.set k v).entries = d.entries.map fun e => if e.1 = k then (k, v) else e := by
  unfold set
  rw [dif_pos h]

theorem entries_set_of_not_mem (d : Dict κ ν) {k : κ} (v : ν) (h : k ∉ d.keys) :
    (d.set k v).entries = d.entries ++ [(k, v)] := by
  unfold set
  rw [dif_neg h]

/-- `del d[k]`, where it is present. -/
def erase (d : Dict κ ν) (k : κ) : Dict κ ν :=
  ⟨d.entries.filter fun e => e.1 ≠ k, (List.filter_sublist.map Prod.fst).nodup d.nodup⟩

/-- A dictionary from entries, later entries replacing earlier ones. -/
def ofEntries (es : List (κ × ν)) : Dict κ ν := es.foldl (fun d e => d.set e.1 e.2) empty

@[simp] theorem get?_empty (k : κ) : (empty : Dict κ ν).get? k = none := rfl

omit [DecidableEq κ] in
@[simp] theorem keys_empty : (empty : Dict κ ν).keys = [] := rfl

/-- A key is present exactly if it is looked up. -/
theorem mem_keys_iff (d : Dict κ ν) (k : κ) : k ∈ d.keys ↔ ∃ v, d.get? k = some v := by
  rw [← Option.isSome_iff_exists]
  unfold keys get?
  rw [List.lookup_isSome_iff, List.mem_map]
  constructor
  · rintro ⟨e, he, rfl⟩
    exact ⟨e, he, beq_self_eq_true _⟩
  · rintro ⟨e, he, hk⟩
    exact ⟨e, he, (eq_of_beq hk).symm⟩

theorem not_mem_keys_iff (d : Dict κ ν) (k : κ) : k ∉ d.keys ↔ d.get? k = none := by
  rw [mem_keys_iff]
  cases d.get? k with
  | none => simp
  | some v => simp

theorem lookup_of_mem {es : List (κ × ν)} (hnd : (es.map Prod.fst).Nodup) {k : κ} {v : ν}
    (h : (k, v) ∈ es) : es.lookup k = some v := by
  induction es with
  | nil => cases h
  | cons e rest ih =>
    obtain ⟨k', v'⟩ := e
    obtain ⟨hnot, hrest⟩ := List.nodup_cons.mp hnd
    rcases List.mem_cons.mp h with heq | hmem
    · cases heq
      exact List.lookup_cons_self
    · have hne : k ≠ k' := fun hk => hnot (hk ▸ List.mem_map.mpr ⟨(k, v), hmem, rfl⟩)
      have hb : (k == k') = false := beq_eq_false_iff_ne.mpr hne
      rw [List.lookup_cons, hb]
      exact ih hrest hmem

/-- The entries are the pairs that are looked up. -/
theorem mem_entries_iff (d : Dict κ ν) (k : κ) (v : ν) :
    (k, v) ∈ d.entries ↔ d.get? k = some v :=
  ⟨lookup_of_mem d.nodup, fun h => by
    obtain ⟨l₁, l₂, hl, -⟩ := List.lookup_eq_some_iff.mp h
    rw [hl]
    exact List.mem_append_right _ List.mem_cons_self⟩

theorem lookup_replace (es : List (κ × ν)) (k : κ) (v : ν) (k' : κ) :
    (es.map fun e => if e.1 = k then (k, v) else e).lookup k' =
      if k' = k then (es.lookup k).map fun _ => v else es.lookup k' := by
  induction es with
  | nil => simp
  | cons e rest ih =>
    obtain ⟨ke, ve⟩ := e
    rw [List.map_cons, List.lookup_cons, List.lookup_cons, List.lookup_cons, ih]
    by_cases he : ke = k
    · subst he
      by_cases hk : k' = ke
      · simp [hk]
      · have hb : (k' == ke) = false := beq_eq_false_iff_ne.mpr hk
        simp [hb, hk]
    · have hb : (k == ke) = false := beq_eq_false_iff_ne.mpr (Ne.symm he)
      by_cases hk : k' = ke
      · subst hk
        simp [he]
      · have hb' : (k' == ke) = false := beq_eq_false_iff_ne.mpr hk
        simp [hb, hb', he]

/-- A key is looked up as it was last set. -/
theorem get?_set (d : Dict κ ν) (k : κ) (v : ν) (k' : κ) :
    (d.set k v).get? k' = if k' = k then some v else d.get? k' := by
  unfold set
  split
  · rename_i h
    obtain ⟨w, hw⟩ := (mem_keys_iff d k).mp h
    show (d.entries.map _).lookup k' = _
    rw [lookup_replace]
    have hw' : d.entries.lookup k = some w := hw
    rw [hw']
    rfl
  · rename_i h
    have hnone : d.entries.lookup k = none := (not_mem_keys_iff d k).mp h
    show (d.entries ++ [(k, v)]).lookup k' = if k' = k then some v else d.entries.lookup k'
    rw [List.lookup_append]
    by_cases hk : k' = k
    · subst hk
      simp [hnone]
    · have hb : (k' == k) = false := beq_eq_false_iff_ne.mpr hk
      rw [List.lookup_cons, hb]
      simp [hk]

@[simp] theorem get?_set_self (d : Dict κ ν) (k : κ) (v : ν) : (d.set k v).get? k = some v := by
  rw [get?_set, if_pos rfl]

theorem get?_set_ne (d : Dict κ ν) {k k' : κ} (v : ν) (h : k' ≠ k) :
    (d.set k v).get? k' = d.get? k' := by
  rw [get?_set, if_neg h]

theorem mem_keys_set (d : Dict κ ν) (k : κ) (v : ν) (k' : κ) :
    k' ∈ (d.set k v).keys ↔ k' = k ∨ k' ∈ d.keys := by
  simp only [mem_keys_iff, get?_set]
  by_cases h : k' = k
  · simp [h]
  · simp [h]

/-- What is set twice is as it was set last. -/
theorem entries_set_set (d : Dict κ ν) (k : κ) (v w : ν) :
    ((d.set k v).set k w).entries = (d.set k w).entries := by
  have hmem : k ∈ (d.set k v).keys := (mem_keys_set d k v k).mpr (.inl rfl)
  rw [entries_set_of_mem _ w hmem]
  by_cases hk : k ∈ d.keys
  · rw [entries_set_of_mem d v hk, entries_set_of_mem d w hk, List.map_map]
    refine List.map_congr_left fun e _ => ?_
    by_cases he : e.1 = k
    · simp [he]
    · simp [he]
  · have hother : ∀ e ∈ d.entries, (if e.1 = k then (k, w) else e) = e := fun e he =>
      if_neg fun heq : e.1 = k => hk (List.mem_map.mpr ⟨e, he, heq⟩)
    rw [entries_set_of_not_mem d v hk, entries_set_of_not_mem d w hk, List.map_append,
      List.map_singleton, if_pos rfl, List.map_congr_left hother, List.map_id']

theorem mem_keys_foldl_set (es : List (κ × ν)) (d : Dict κ ν) (k : κ) :
    k ∈ (es.foldl (fun d e => d.set e.1 e.2) d).keys ↔ k ∈ d.keys ∨ k ∈ es.map Prod.fst := by
  induction es generalizing d with
  | nil => exact (or_iff_left List.not_mem_nil).symm
  | cons e es ih =>
    rw [List.foldl_cons, ih, mem_keys_set, List.map_cons, List.mem_cons, or_comm (a := k = e.1),
      or_assoc]

theorem mem_keys_ofEntries (es : List (κ × ν)) (k : κ) :
    k ∈ (ofEntries es).keys ↔ k ∈ es.map Prod.fst :=
  (mem_keys_foldl_set es empty k).trans (or_iff_right List.not_mem_nil)

/-- Entries for different keys replace what was there. -/
theorem get?_foldl_set {es : List (κ × ν)} (hnd : (es.map Prod.fst).Nodup) (d : Dict κ ν) (k : κ) :
    (es.foldl (fun d e => d.set e.1 e.2) d).get? k = (es.lookup k).or (d.get? k) := by
  induction es generalizing d with
  | nil => rfl
  | cons e es ih =>
    obtain ⟨hnot, hes⟩ := List.nodup_cons.mp hnd
    rw [List.foldl_cons, ih hes, get?_set, List.lookup_cons]
    by_cases hk : k = e.1
    · have hnone : es.lookup k = none := by
        rw [← Option.not_isSome_iff_eq_none, List.lookup_isSome_iff]
        rintro ⟨e', he', heq⟩
        exact hnot (List.mem_map.mpr ⟨e', he', (hk.symm.trans (eq_of_beq heq)).symm⟩)
      rw [hnone, if_pos hk, hk, beq_self_eq_true]
      rfl
    · rw [if_neg hk, beq_eq_false_iff_ne.mpr hk]

/-- Entries for different keys are looked up as they are. -/
theorem get?_ofEntries {es : List (κ × ν)} (hnd : (es.map Prod.fst).Nodup) (k : κ) :
    (ofEntries es).get? k = es.lookup k := by
  unfold ofEntries
  rw [get?_foldl_set hnd, get?_empty, Option.or_none]

/-- Of entries that replace each other some are left. -/
theorem entries_foldl_set {es : List (κ × ν)} {d : Dict κ ν}
    (hnd : ((d.entries ++ es).map Prod.fst).Nodup) :
    (es.foldl (fun d e => d.set e.1 e.2) d).entries = d.entries ++ es := by
  induction es generalizing d with
  | nil => exact (List.append_nil _).symm
  | cons e es ih =>
    have hnew : e.1 ∉ d.keys := by
      rw [List.map_append, List.map_cons] at hnd
      intro hmem
      exact (List.nodup_append.mp hnd).2.2 _ hmem _ List.mem_cons_self rfl
    have hset : (d.set e.1 e.2).entries = d.entries ++ [e] := entries_set_of_not_mem d e.2 hnew
    have happend : d.entries ++ e :: es = (d.set e.1 e.2).entries ++ es := by
      rw [hset, List.append_assoc, List.singleton_append]
    rw [List.foldl_cons, happend]
    rw [happend] at hnd
    exact ih hnd

/-- Entries with different keys are the entries of the dictionary. -/
theorem entries_ofEntries {es : List (κ × ν)} (hnd : (es.map Prod.fst).Nodup) :
    (ofEntries es).entries = es := entries_foldl_set (d := empty) hnd

theorem mem_of_foldl_set {es : List (κ × ν)} {d : Dict κ ν} {e : κ × ν}
    (h : e ∈ (es.foldl (fun d e => d.set e.1 e.2) d).entries) : e ∈ d.entries ∨ e ∈ es := by
  induction es generalizing d with
  | nil => exact .inl h
  | cons e' es ih =>
    rcases ih h with h | h
    · rw [show e = (e.1, e.2) from rfl, mem_entries_iff, get?_set] at h
      split at h
      · rename_i hk
        refine .inr (List.mem_cons.mpr (.inl ?_))
        exact Prod.ext hk (Option.some.inj h).symm
      · exact .inl ((mem_entries_iff d e.1 e.2).mpr h)
    · exact .inr (List.mem_cons_of_mem _ h)

theorem mem_of_ofEntries {es : List (κ × ν)} {e : κ × ν} (h : e ∈ (ofEntries es).entries) :
    e ∈ es := (mem_of_foldl_set h).resolve_left List.not_mem_nil

theorem get?_erase (d : Dict κ ν) (k k' : κ) :
    (d.erase k).get? k' = if k' = k then none else d.get? k' := by
  refine Option.ext fun v => ?_
  rw [← mem_entries_iff]
  show (k', v) ∈ d.entries.filter _ ↔ _
  rw [List.mem_filter, mem_entries_iff, decide_eq_true_eq]
  by_cases h : k' = k
  · simp [h]
  · simp [h]

theorem get?_erase_ne (d : Dict κ ν) {k k' : κ} (h : k' ≠ k) :
    (d.erase k).get? k' = d.get? k' := by
  rw [get?_erase, if_neg h]

/-- Another key stays where one is taken out. -/
theorem mem_keys_erase (d : Dict κ ν) {k k' : κ} (h : k' ≠ k) :
    k' ∈ (d.erase k).keys ↔ k' ∈ d.keys := by
  rw [mem_keys_iff, mem_keys_iff, get?_erase_ne d h]

/-! ## Entry by entry -/

omit [DecidableEq κ] in
theorem map_fst_filterMap_sublist (f : κ → ν → Option ν) (es : List (κ × ν)) :
    ((es.filterMap fun e => (f e.1 e.2).map (e.1, ·)).map Prod.fst).Sublist (es.map Prod.fst) := by
  induction es with
  | nil => exact .slnil
  | cons e rest ih =>
    rw [List.filterMap_cons]
    cases f e.1 e.2 with
    | none => exact ih.cons _
    | some v => exact ih.cons_cons _

/-- Each value changed, or taken out. -/
def filterMapValues (d : Dict κ ν) (f : κ → ν → Option ν) : Dict κ ν :=
  ⟨d.entries.filterMap fun e => (f e.1 e.2).map (e.1, ·),
    (map_fst_filterMap_sublist f d.entries).nodup d.nodup⟩

theorem get?_filterMapValues (d : Dict κ ν) (f : κ → ν → Option ν) (k : κ) :
    (d.filterMapValues f).get? k = (d.get? k).bind (f k) := by
  refine Option.ext fun v => ?_
  rw [← mem_entries_iff, Option.bind_eq_some_iff]
  show (k, v) ∈ d.entries.filterMap _ ↔ _
  rw [List.mem_filterMap]
  constructor
  · rintro ⟨e, he, hv⟩
    obtain ⟨w, hw, hv⟩ := Option.map_eq_some_iff.mp hv
    cases hv
    exact ⟨e.2, (mem_entries_iff d e.1 e.2).mp he, hw⟩
  · rintro ⟨w, hw, hv⟩
    exact ⟨(k, w), (mem_entries_iff d k w).mpr hw, by rw [hv]; rfl⟩

/-! ## Order -/

/-- An entry can be put in front of the others. -/
theorem exists_front (d : Dict κ ν) {k : κ} {v : ν} (h : d.get? k = some v) :
    ∃ (d' : Dict κ ν) (rest : List (κ × ν)), d'.entries = (k, v) :: rest ∧
      ∀ k', d'.get? k' = d.get? k' := by
  have hnew : k ∉ (d.erase k).keys := by rw [not_mem_keys_iff, get?_erase, if_pos rfl]
  refine ⟨⟨(k, v) :: (d.erase k).entries, List.nodup_cons.mpr ⟨hnew, (d.erase k).nodup⟩⟩, _, rfl,
    fun k' => ?_⟩
  show List.lookup k' ((k, v) :: (d.erase k).entries) = _
  by_cases hk : k' = k
  · rw [hk, List.lookup_cons_self, h]
  · rw [List.lookup_cons, beq_eq_false_iff_ne.mpr hk]
    exact get?_erase_ne d hk

end Dict

end Theory
