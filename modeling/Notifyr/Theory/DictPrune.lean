import Notifyr.Theory.NestedDict

/-!
# Rebuilding nested dictionaries

What is built from the leaves of a nested dictionary, taken in order and changed one by one: the
dictionary with its leaves changed, in the same order, without the dictionaries that had none.

- `prune`: that dictionary.
- `build_leavesOf`: the theorem.
-/

namespace Theory

namespace NestedDict

variable {κ α β : Type}

mutual

/-- A value with its leaves changed; nothing where it has none. -/
def pruneItem (f : NestedDict κ α → NestedDict κ β) : NestedDict κ α → Option (NestedDict κ β)
  | .dict es =>
    match prune f es with
    | [] => none
    | e :: es' => some (.dict (e :: es'))
  | .atom a => some (f (.atom a))
  | .list items => some (f (.list items))

/-- The same of the entries of a dictionary. -/
def prune (f : NestedDict κ α → NestedDict κ β) : Entries κ α → Entries κ β
  | [] => []
  | (k, t) :: es =>
    match pruneItem f t with
    | none => prune f es
    | some t' => (k, t') :: prune f es

end

theorem prune_cons (f : NestedDict κ α → NestedDict κ β) (k : κ) (t : NestedDict κ α)
    (es : Entries κ α) :
    prune f ((k, t) :: es) = ((pruneItem f t).map (k, ·)).toList ++ prune f es := by
  rw [prune]
  cases pruneItem f t with
  | none => rfl
  | some t' => rfl

variable [DecidableEq κ]

theorem build_append (es : Entries κ β) (pairs pairs' : List (List κ × NestedDict κ β)) :
    build es (pairs ++ pairs') = build (build es pairs) pairs' := List.foldl_append

/-- Below a key that is the last one, everything is built into its dictionary. -/
theorem build_below_last {acc : Entries κ β} {k : κ} (hk : k ∉ acc.map Prod.fst)
    {pairs : List (List κ × NestedDict κ β)} (hne : ∀ e ∈ pairs, e.1 ≠ []) (cur : Entries κ β) :
    build (acc ++ [(k, .dict cur)]) (pairs.map fun e => (k :: e.1, e.2)) =
      acc ++ [(k, .dict (build cur pairs))] := by
  have hinsert : ∀ v w : NestedDict κ β, insertKey (acc ++ [(k, v)]) k w = acc ++ [(k, w)] := by
    intro v w
    clear hne
    induction acc with
    | nil => exact if_pos rfl
    | cons e acc ih =>
      rw [List.map_cons, List.mem_cons, not_or] at hk
      rw [List.cons_append, show e = (e.1, e.2) from rfl, insertKey, if_neg (Ne.symm hk.1),
        ih hk.2]
      rfl
  have hchild : ∀ cur : Entries κ β, child (acc ++ [(k, .dict cur)]) k = cur := by
    intro cur
    have hlookup : (acc ++ [(k, NestedDict.dict cur)]).lookup k = some (.dict cur) := by
      clear hne hinsert
      induction acc with
      | nil => exact List.lookup_cons_self
      | cons e acc ih =>
        rw [List.map_cons, List.mem_cons, not_or] at hk
        rw [List.cons_append, List.lookup_cons, beq_eq_false_iff_ne.mpr hk.1]
        exact ih hk.2
    rw [child, hlookup]
  induction pairs generalizing cur with
  | nil => rfl
  | cons e pairs ih =>
    obtain ⟨j, js, hj⟩ := List.exists_cons_of_ne_nil (hne e List.mem_cons_self)
    have hset : setAt (acc ++ [(k, .dict cur)]) (k :: e.1) e.2 =
        acc ++ [(k, .dict (setAt cur e.1 e.2))] := by
      rw [hj, setAt, hinsert, hchild]
    show build (setAt _ (k :: e.1) e.2) _ = _
    rw [hset]
    exact ih (fun e' he' => hne e' (List.mem_cons_of_mem _ he')) _

/-- Below a new key, everything is built into a dictionary there. -/
theorem build_below {acc : Entries κ β} {k : κ} (hk : k ∉ acc.map Prod.fst)
    {pairs : List (List κ × NestedDict κ β)} (hne : ∀ e ∈ pairs, e.1 ≠ []) :
    build acc (pairs.map fun e => (k :: e.1, e.2)) =
      if pairs = [] then acc else acc ++ [(k, .dict (build [] pairs))] := by
  cases pairs with
  | nil => rfl
  | cons e pairs =>
    obtain ⟨j, js, hj⟩ := List.exists_cons_of_ne_nil (hne e List.mem_cons_self)
    have hchild : child acc k = [] := by
      have hlookup : acc.lookup k = none := by
        rw [List.lookup_eq_none_iff]
        intro e he
        exact bne_iff_ne.mpr fun h => hk (List.mem_map.mpr ⟨e, he, h.symm⟩)
      rw [child, hlookup]
    have hset : setAt acc (k :: e.1) e.2 = acc ++ [(k, .dict (setAt [] e.1 e.2))] := by
      rw [hj, setAt, insertKey_of_not_mem hk, hchild]
    rw [if_neg (List.cons_ne_nil _ _)]
    show build (setAt _ (k :: e.1) e.2) _ = _
    rw [hset, build_below_last hk fun e' he' => hne e' (List.mem_cons_of_mem _ he')]
    rfl

theorem build_eq_nil_iff {pairs : List (List κ × NestedDict κ β)} (hne : ∀ e ∈ pairs, e.1 ≠ []) :
    build [] pairs = [] ↔ pairs = [] := by
  constructor
  · intro h
    by_contra hpairs
    have hcons : ∀ (es : Entries κ β) (pairs : List (List κ × NestedDict κ β)), es ≠ [] →
        (∀ e ∈ pairs, e.1 ≠ []) → build es pairs ≠ [] := by
      intro es pairs hes hne
      induction pairs generalizing es with
      | nil => exact hes
      | cons e pairs ih =>
        obtain ⟨j, js, hj⟩ := List.exists_cons_of_ne_nil (hne e List.mem_cons_self)
        refine ih (setAt es e.1 e.2) ?_ fun e' he' => hne e' (List.mem_cons_of_mem _ he')
        rw [hj]
        exact setAt_ne_nil es j js e.2
    obtain ⟨e, pairs, rfl⟩ := List.exists_cons_of_ne_nil hpairs
    obtain ⟨j, js, hj⟩ := List.exists_cons_of_ne_nil (hne e List.mem_cons_self)
    refine hcons (setAt [] e.1 e.2) pairs ?_ (fun e' he' => hne e' (List.mem_cons_of_mem _ he')) h
    rw [hj]
    exact setAt_ne_nil [] j js e.2
  · rintro rfl
    rfl

/-- The changed leaves of a value. -/
def leavesWith (f : NestedDict κ α → NestedDict κ β) (pairs : List (List κ × NestedDict κ α)) :
    List (List κ × NestedDict κ β) := pairs.map fun e => (e.1, f e.2)

omit [DecidableEq κ] in
theorem leavesWith_ne_nil (f : NestedDict κ α → NestedDict κ β) (es : Entries κ α) :
    ∀ e ∈ leavesWith f (leavesOf es), e.1 ≠ [] := by
  intro e he
  obtain ⟨e', he', rfl⟩ := List.mem_map.mp he
  obtain ⟨k, ks, hk, -⟩ := head_of_mem_leavesOf he'
  show e'.1 ≠ []
  rw [hk]
  exact List.cons_ne_nil _ _

mutual

theorem build_leaves (f : NestedDict κ α → NestedDict κ β) (t : NestedDict κ α) (ht : t.Keyed)
    {acc : Entries κ β} {k : κ} (hk : k ∉ acc.map Prod.fst) :
    build acc ((leavesWith f t.leaves).map fun e => (k :: e.1, e.2)) =
      acc ++ ((pruneItem f t).map (k, ·)).toList := by
  cases t with
  | atom a =>
    rw [leaves, pruneItem]
    exact insertKey_of_not_mem hk _
  | list items =>
    rw [leaves, pruneItem]
    exact insertKey_of_not_mem hk _
  | dict es =>
    rw [Keyed] at ht
    have hne := leavesWith_ne_nil f es
    have hbuild : build [] (leavesWith f (leavesOf es)) = [] ++ prune f es :=
      build_entries f es ht fun _ _ => List.not_mem_nil
    rw [List.nil_append] at hbuild
    rw [leaves, build_below hk hne, pruneItem]
    by_cases hnil : leavesWith f (leavesOf es) = []
    · have hempty : prune f es = [] := by
        rw [← hbuild, hnil]
        rfl
      rw [if_pos hnil, hempty]
      exact (List.append_nil acc).symm
    · rw [if_neg hnil, hbuild]
      obtain ⟨e, es', hes'⟩ := List.exists_cons_of_ne_nil fun h =>
        hnil ((build_eq_nil_iff hne).mp (hbuild.trans h))
      rw [hes']
      rfl

/-- The leaves of entries for new keys are built after what is there. -/
theorem build_entries (f : NestedDict κ α → NestedDict κ β) (es : Entries κ α)
    (hes : KeyedEntries es) {acc : Entries κ β}
    (hacc : ∀ k ∈ es.map Prod.fst, k ∉ acc.map Prod.fst) :
    build acc (leavesWith f (leavesOf es)) = acc ++ prune f es := by
  cases es with
  | nil => exact (List.append_nil acc).symm
  | cons e es =>
    obtain ⟨k, t⟩ := e
    rw [KeyedEntries] at hes
    obtain ⟨hk, ht, hes⟩ := hes
    have hsplit : leavesWith f (leavesOf ((k, t) :: es)) =
        (leavesWith f t.leaves).map (fun e => (k :: e.1, e.2)) ++ leavesWith f (leavesOf es) := by
      unfold leavesWith
      rw [leavesOf, List.map_append, List.map_map, List.map_map]
      rfl
    rw [hsplit, build_append, build_leaves f t ht (hacc k List.mem_cons_self),
      build_entries f es hes, List.append_assoc, ← prune_cons]
    intro j hj hmem
    rw [List.map_append, List.mem_append] at hmem
    rcases hmem with hmem | hmem
    · exact hacc j (List.mem_cons_of_mem _ hj) hmem
    · obtain ⟨e, he, rfl⟩ := List.mem_map.mp hj
      cases hitem : pruneItem f t with
      | none =>
        rw [hitem] at hmem
        cases hmem
      | some t' =>
        rw [hitem] at hmem
        exact hk e he (List.mem_singleton.mp hmem)

end

/-- **The changed leaves of a dictionary build the dictionary without what had no leaves.** -/
theorem build_leavesOf (f : NestedDict κ α → NestedDict κ β) {es : Entries κ α}
    (hes : KeyedEntries es) : build [] (leavesWith f (leavesOf es)) = prune f es := by
  have h : build [] (leavesWith f (leavesOf es)) = [] ++ prune f es :=
    build_entries f es hes fun _ _ => List.not_mem_nil
  rwa [List.nil_append] at h

end NestedDict

end Theory
