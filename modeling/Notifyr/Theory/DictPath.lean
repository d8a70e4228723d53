import Notifyr.Theory.NestedDict

/-!
# Places in nested dictionaries

Walking into a nested dictionary as far as it goes, taking an entry out, and what an operation at
one place leaves as it was.

- `IsDictAt`: a path leads to a dictionary.
- `walked`: the part of a path that leads through dictionaries; `walked_eq_iff`.
- `removeAt`: the dictionary without the entry at a path.
- `OnlyAt`: two dictionaries differ at most at one place; `onlyAt_setAt`, `onlyAt_removeAt`.
-/

namespace Theory

namespace NestedDict

variable {κ α : Type} [DecidableEq κ]

/-! ## Walking -/

/-- A path leads to a dictionary. -/
def IsDictAt (es : Entries κ α) (p : List κ) : Prop :=
  ∃ inner, get? (.dict es) p = some (.dict inner)

/-- The keys of a path that lead from one dictionary to the next, up to the first that does not. -/
def walked : Entries κ α → List κ → List κ
  | _, [] => []
  | es, k :: ks =>
    match es.lookup k with
    | some (.dict inner) => k :: walked inner ks
    | _ => []

theorem isDictAt_nil (es : Entries κ α) : IsDictAt es [] := ⟨es, rfl⟩

theorem isDictAt_cons_iff (es : Entries κ α) (k : κ) (ks : List κ) :
    IsDictAt es (k :: ks) ↔ ∃ inner, es.lookup k = some (.dict inner) ∧ IsDictAt inner ks := by
  unfold IsDictAt
  rw [get?_cons]
  cases es.lookup k with
  | none => simp
  | some t =>
    cases t with
    | dict inner => simp
    | atom a => cases ks <;> simp [get?]
    | list items => cases ks <;> simp [get?]

/-- The entry at a key. -/
theorem get?_singleton (es : Entries κ α) (k : κ) : get? (.dict es) [k] = es.lookup k := by
  rw [get?_cons]
  cases es.lookup k with
  | none => rfl
  | some t => rfl

theorem get?_singleton_cons (j : κ) (v : NestedDict κ α) (es : Entries κ α) (k : κ) :
    get? (.dict ((j, v) :: es)) [k] = if k = j then some v else get? (.dict es) [k] := by
  rw [get?_singleton, get?_singleton, List.lookup_cons]
  by_cases h : k = j
  · simp [h]
  · have hb : (k == j) = false := beq_eq_false_iff_ne.mpr h
    rw [hb, if_neg h]

theorem get?_singleton_insertKey (es : Entries κ α) (j : κ) (v : NestedDict κ α) (k : κ) :
    get? (.dict (insertKey es j v)) [k] = if k = j then some v else get? (.dict es) [k] := by
  rw [get?_singleton, lookup_insertKey, get?_singleton]

/-- What lies before a value is a dictionary. -/
theorem isDictAt_of_get? {es : Entries κ α} {p : List κ} {k : κ} {t : NestedDict κ α}
    (h : get? (.dict es) (p ++ [k]) = some t) : IsDictAt es p := by
  rw [get?_append] at h
  obtain ⟨parent, hparent, hentry⟩ := Option.bind_eq_some_iff.mp h
  cases parent with
  | dict inner => exact ⟨inner, hparent⟩
  | atom a => cases hentry
  | list items => cases hentry

theorem isDictAt_walked (es : Entries κ α) (ks : List κ) : IsDictAt es (walked es ks) := by
  induction ks generalizing es with
  | nil => exact isDictAt_nil es
  | cons k ks ih =>
    rw [walked]
    split
    · rename_i inner hlookup
      exact (isDictAt_cons_iff es k _).mpr ⟨inner, hlookup, ih inner⟩
    · exact isDictAt_nil es

/-- The whole path is walked exactly if it leads to a dictionary. -/
theorem walked_eq_iff (es : Entries κ α) (ks : List κ) : walked es ks = ks ↔ IsDictAt es ks := by
  constructor
  · intro h
    rw [← h]
    exact isDictAt_walked es ks
  · intro h
    induction ks generalizing es with
    | nil => rfl
    | cons k ks ih =>
      obtain ⟨inner, hlookup, hinner⟩ := (isDictAt_cons_iff es k ks).mp h
      simp only [walked, hlookup]
      rw [ih inner hinner]

/-! ## Taking an entry out -/

/-- `d.pop(k)`. -/
def removeKey (es : Entries κ α) (k : κ) : Entries κ α := es.filter fun e => e.1 ≠ k

/-- `d[k₁]…[kₙ₋₁].pop(kₙ)`; nothing happens where the path leaves the dictionaries. -/
def removeAt : Entries κ α → List κ → Entries κ α
  | es, [] => es
  | es, [k] => removeKey es k
  | es, k :: k' :: ks =>
    match es.lookup k with
    | some (.dict inner) => insertKey es k (.dict (removeAt inner (k' :: ks)))
    | _ => es

theorem lookup_removeKey (es : Entries κ α) (k j : κ) :
    (removeKey es k).lookup j = if j = k then none else es.lookup j := by
  unfold removeKey
  induction es with
  | nil => simp
  | cons e es ih =>
    obtain ⟨k', t⟩ := e
    rw [List.filter_cons]
    by_cases hk : k' = k
    · rw [if_neg (by simp [hk]), ih, List.lookup_cons]
      by_cases hj : j = k
      · rw [if_pos hj, if_pos hj]
      · have hb : (j == k') = false := beq_eq_false_iff_ne.mpr (hk ▸ hj)
        rw [if_neg hj, if_neg hj, hb]
    · rw [if_pos (by simp [hk]), List.lookup_cons, List.lookup_cons, ih]
      by_cases hj : j = k'
      · subst hj
        simp [hk]
      · have hb : (j == k') = false := beq_eq_false_iff_ne.mpr hj
        rw [hb]

theorem get?_removeAt_self (es : Entries κ α) {p : List κ} (hp : p ≠ []) :
    get? (.dict (removeAt es p)) p = none := by
  induction p generalizing es with
  | nil => exact absurd rfl hp
  | cons k ks ih =>
    cases ks with
    | nil =>
      rw [removeAt, get?_cons, lookup_removeKey, if_pos rfl]
      rfl
    | cons k' ks =>
      rw [removeAt]
      split
      · rename_i inner _
        rw [get?_cons, lookup_insertKey, if_pos rfl]
        exact ih inner (List.cons_ne_nil _ _)
      · rename_i hnot
        rw [get?_cons]
        cases hlookup : es.lookup k with
        | none => rfl
        | some t =>
          cases t with
          | dict inner => exact absurd hlookup (hnot inner)
          | atom a => rfl
          | list items => rfl

theorem get?_removeAt_of_apart (es : Entries κ α) {p q : List κ} (h : Apart p q) :
    get? (.dict (removeAt es p)) q = get? (.dict es) q := by
  induction p generalizing es q with
  | nil => exact absurd List.nil_prefix h.1
  | cons k ks ih =>
    cases q with
    | nil => exact absurd List.nil_prefix h.2
    | cons j qs =>
      cases ks with
      | nil =>
        have hj : j ≠ k := by
          rintro rfl
          exact h.1 (List.cons_prefix_cons.mpr ⟨rfl, List.nil_prefix⟩)
        rw [removeAt, get?_cons, lookup_removeKey, if_neg hj, get?_cons]
      | cons k' ks =>
        rw [removeAt]
        split
        · rename_i inner hlookup
          rw [get?_cons, get?_cons, lookup_insertKey]
          by_cases hj : j = k
          · subst hj
            rw [if_pos rfl, hlookup]
            refine ih inner ⟨fun hpre => h.1 ?_, fun hpre => h.2 ?_⟩
            · exact List.cons_prefix_cons.mpr ⟨rfl, hpre⟩
            · exact List.cons_prefix_cons.mpr ⟨rfl, hpre⟩
          · rw [if_neg hj]
        · rfl

/-! ## One place -/

/-- Two dictionaries differ at most at and below one place, to which dictionaries still lead. -/
structure OnlyAt (p : List κ) (es es' : Entries κ α) : Prop where
  apart : ∀ q, Apart p q → get? (.dict es') q = get? (.dict es) q
  above : ∀ q, q <+: p → q ≠ p → IsDictAt es' q

theorem isDictAt_of_prefix {es : Entries κ α} {p q : List κ} (h : IsDictAt es p) (hq : q <+: p) :
    IsDictAt es q := by
  obtain ⟨rest, rfl⟩ := hq
  induction rest using List.reverseRecOn with
  | nil => rwa [List.append_nil] at h
  | append_singleton rest k ih =>
    obtain ⟨inner, hget⟩ := h
    rw [← List.append_assoc] at hget
    exact ih (isDictAt_of_get? hget)

omit [DecidableEq κ] in
/-- A path that is not the whole of another one that ends with `k` is before that end. -/
theorem prefix_of_prefix_concat {p q : List κ} {k : κ} (hq : q <+: p ++ [k]) (hne : q ≠ p ++ [k]) :
    q <+: p := (List.prefix_concat_iff.mp hq).resolve_left hne

theorem onlyAt_refl {es : Entries κ α} {p : List κ} {k : κ} (h : IsDictAt es p) :
    OnlyAt (p ++ [k]) es es where
  apart := fun _ _ => rfl
  above := fun _ hq hne => isDictAt_of_prefix h (prefix_of_prefix_concat hq hne)

theorem onlyAt_setAt (es : Entries κ α) (p : List κ) (k : κ) (v : NestedDict κ α) :
    OnlyAt (p ++ [k]) es (setAt es (p ++ [k]) v) where
  apart := fun _ hq => get?_setAt_of_apart es hq v
  above := by
    intro q hq hne
    have hself := get?_setAt_self es (List.append_ne_nil_of_right_ne_nil p (List.cons_ne_nil k []))
      v
    exact isDictAt_of_prefix (isDictAt_of_get? hself) (prefix_of_prefix_concat hq hne)

theorem isDictAt_removeAt {es : Entries κ α} {p : List κ} (h : IsDictAt es p) (k : κ) :
    IsDictAt (removeAt es (p ++ [k])) p := by
  induction p generalizing es with
  | nil => exact isDictAt_nil _
  | cons j p ih =>
    obtain ⟨inner, hlookup, hinner⟩ := (isDictAt_cons_iff es j p).mp h
    obtain ⟨j', ks, hks⟩ : ∃ j' ks, p ++ [k] = j' :: ks := List.exists_cons_of_ne_nil (by simp)
    refine (isDictAt_cons_iff _ j p).mpr ⟨removeAt inner (p ++ [k]), ?_, ih hinner⟩
    rw [List.cons_append, hks]
    simp only [removeAt, hlookup]
    rw [lookup_insertKey, if_pos rfl]

theorem onlyAt_removeAt {es : Entries κ α} {p : List κ} (h : IsDictAt es p) (k : κ) :
    OnlyAt (p ++ [k]) es (removeAt es (p ++ [k])) where
  apart := fun _ hq => get?_removeAt_of_apart es hq
  above := fun _ hq hne =>
    isDictAt_of_prefix (isDictAt_removeAt h k) (prefix_of_prefix_concat hq hne)

end NestedDict

end Theory
