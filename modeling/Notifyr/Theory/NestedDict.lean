import Mathlib.Data.List.Infix
import Mathlib.Data.List.Nodup

/-!
# Nested dictionaries

Trees of dictionaries and lists over atoms, as a JSON document has them, and dictionaries that
are built one path at a time.

- `NestedDict`: the trees; `insertKey`, `setAt` write at a key and at a path, `get?` reads.
- `IsLeaf`: a value at a path that has nothing below it.
- `Nests`: the leaves of a dictionary are given by a list of pairs.
- `nests_build`: where no path leads through another, building gives the leaves that were
  written; `Nests.eq_of_prefix`: no dictionary has other ones.
- `leavesOf`: the leaves in order; `nests_leavesOf`.
-/

namespace Theory

/-- A tree of dictionaries and lists over atoms. -/
inductive NestedDict (κ α : Type)
  | atom (a : α)
  | list (items : List (NestedDict κ α))
  | dict (entries : List (κ × NestedDict κ α))

namespace NestedDict

/-- The entries of a dictionary. -/
abbrev Entries (κ α : Type) := List (κ × NestedDict κ α)

variable {κ α : Type} [DecidableEq κ]

/-! ## Writing and reading -/

/-- `d[k] = v`: in place, or at the end. -/
def insertKey : Entries κ α → κ → NestedDict κ α → Entries κ α
  | [], k, v => [(k, v)]
  | (k', v') :: es, k, v => if k' = k then (k, v) :: es else (k', v') :: insertKey es k v

/-- The dictionary at a key; an empty one if there is none. -/
def child (es : Entries κ α) (k : κ) : Entries κ α :=
  match es.lookup k with
  | some (.dict inner) => inner
  | _ => []

/-- `d[k₁]…[kₙ] = v`, making the dictionaries on the way. -/
def setAt : Entries κ α → List κ → NestedDict κ α → Entries κ α
  | es, [], _ => es
  | es, [k], v => insertKey es k v
  | es, k :: k' :: ks, v => insertKey es k (.dict (setAt (child es k) (k' :: ks) v))

/-- The value at a path. -/
def get? : NestedDict κ α → List κ → Option (NestedDict κ α)
  | t, [] => some t
  | .dict es, k :: ks =>
    match es.lookup k with
    | some t => get? t ks
    | none => none
  | _, _ :: _ => none

/-- The values that have nothing below them. -/
def Leafy (t : NestedDict κ α) : Prop := ∀ e es, t ≠ .dict (e :: es)

/-- A value at a path, with nothing below it. -/
structure IsLeaf (es : Entries κ α) (p : List κ) (v : NestedDict κ α) : Prop where
  path_ne : p ≠ []
  get : get? (.dict es) p = some v
  leafy : v.Leafy

/-- Writing one path after the other. -/
def build (es : Entries κ α) (pairs : List (List κ × NestedDict κ α)) : Entries κ α :=
  pairs.foldl (fun es e => setAt es e.1 e.2) es

/-- The leaves of a dictionary are these pairs. -/
def Nests (pairs : List (List κ × NestedDict κ α)) (es : Entries κ α) : Prop :=
  ∀ p v, IsLeaf es p v ↔ (p, v) ∈ pairs

/-- Neither path leads through the other. -/
def Apart (p q : List κ) : Prop := ¬ p <+: q ∧ ¬ q <+: p

theorem lookup_insertKey (es : Entries κ α) (k : κ) (v : NestedDict κ α) (k' : κ) :
    (insertKey es k v).lookup k' = if k' = k then some v else es.lookup k' := by
  induction es with
  | nil =>
    rw [insertKey, List.lookup_cons]
    by_cases h : k' = k
    · simp [h]
    · have hb : (k' == k) = false := beq_eq_false_iff_ne.mpr h
      simp [hb, h]
  | cons e es ih =>
    obtain ⟨j, w⟩ := e
    rw [insertKey]
    by_cases hj : j = k
    · subst hj
      rw [if_pos rfl, List.lookup_cons, List.lookup_cons]
      by_cases h : k' = j
      · simp [h]
      · have hb : (k' == j) = false := beq_eq_false_iff_ne.mpr h
        simp [hb, h]
    · rw [if_neg hj, List.lookup_cons, List.lookup_cons, ih]
      by_cases h : k' = j
      · subst h
        simp [hj]
      · have hb : (k' == j) = false := beq_eq_false_iff_ne.mpr h
        simp [hb]

theorem insertKey_ne_nil (es : Entries κ α) (k : κ) (v : NestedDict κ α) :
    insertKey es k v ≠ [] := by
  cases es with
  | nil => exact List.cons_ne_nil _ _
  | cons e es =>
    rw [insertKey]
    split
    · exact List.cons_ne_nil _ _
    · exact List.cons_ne_nil _ _

theorem setAt_ne_nil (es : Entries κ α) (k : κ) (ks : List κ) (v : NestedDict κ α) :
    setAt es (k :: ks) v ≠ [] := by
  cases ks with
  | nil => exact insertKey_ne_nil es k v
  | cons k' ks => exact insertKey_ne_nil es k _

theorem get?_cons (es : Entries κ α) (k : κ) (ks : List κ) :
    get? (.dict es) (k :: ks) = (es.lookup k).bind (get? · ks) := by
  rw [get?]
  cases es.lookup k with
  | none => rfl
  | some t => rfl

/-- There is nothing below a leaf. -/
theorem Leafy.get?_cons {t : NestedDict κ α} (h : t.Leafy) (k : κ) (ks : List κ) :
    t.get? (k :: ks) = none := by
  cases t with
  | atom a => rfl
  | list items => rfl
  | dict es =>
    cases es with
    | nil => rfl
    | cons e es => exact absurd rfl (h e es)

/-- Below a key its dictionary is read. -/
theorem get?_child (es : Entries κ α) (k j : κ) (ks : List κ) :
    get? (.dict (child es k)) (j :: ks) = get? (.dict es) (k :: j :: ks) := by
  rw [NestedDict.get?_cons es k, child]
  cases es.lookup k with
  | none => rfl
  | some t =>
    cases t with
    | atom a => rfl
    | list items => rfl
    | dict inner => rfl

theorem get?_append (t : NestedDict κ α) (p q : List κ) :
    t.get? (p ++ q) = (t.get? p).bind (get? · q) := by
  induction p generalizing t with
  | nil => rfl
  | cons k ks ih =>
    cases t with
    | atom a => rfl
    | list items => rfl
    | dict es =>
      rw [List.cons_append, NestedDict.get?_cons, NestedDict.get?_cons]
      cases es.lookup k with
      | none => rfl
      | some t => exact ih t

/-! ## Building -/

theorem get?_setAt_self (es : Entries κ α) {p : List κ} (hp : p ≠ []) (v : NestedDict κ α) :
    get? (.dict (setAt es p v)) p = some v := by
  induction p generalizing es with
  | nil => exact absurd rfl hp
  | cons k ks ih =>
    cases ks with
    | nil =>
      rw [setAt, NestedDict.get?_cons, lookup_insertKey, if_pos rfl]
      rfl
    | cons k' ks =>
      rw [setAt, NestedDict.get?_cons, lookup_insertKey, if_pos rfl]
      exact ih (child es k) (List.cons_ne_nil _ _)

theorem get?_setAt_of_apart (es : Entries κ α) {p q : List κ} (h : Apart p q) (v : NestedDict κ α) :
    get? (.dict (setAt es p v)) q = get? (.dict es) q := by
  induction p generalizing es q with
  | nil => exact absurd List.nil_prefix h.1
  | cons k ks ih =>
    cases q with
    | nil => exact absurd List.nil_prefix h.2
    | cons j qs =>
      by_cases hj : j = k
      · subst hj
        have hrest : Apart ks qs :=
          ⟨fun hpre => h.1 (List.cons_prefix_cons.mpr ⟨rfl, hpre⟩),
            fun hpre => h.2 (List.cons_prefix_cons.mpr ⟨rfl, hpre⟩)⟩
        cases ks with
        | nil => exact absurd List.nil_prefix hrest.1
        | cons k' ks =>
          cases qs with
          | nil => exact absurd List.nil_prefix hrest.2
          | cons i qs =>
            rw [setAt, NestedDict.get?_cons, lookup_insertKey, if_pos rfl]
            exact (ih (child es j) hrest).trans (get?_child es j i qs)
      · cases ks with
        | nil => rw [setAt, NestedDict.get?_cons, lookup_insertKey, if_neg hj, NestedDict.get?_cons]
        | cons k' ks =>
          rw [setAt, NestedDict.get?_cons, lookup_insertKey, if_neg hj, NestedDict.get?_cons]

/-- Writing a leaf makes one leaf and leaves only old ones beside it. -/
theorem isLeaf_setAt {es : Entries κ α} {p : List κ} {v : NestedDict κ α} (hv : v.Leafy)
    {q : List κ}
    {w : NestedDict κ α} (h : IsLeaf (setAt es p v) q w) : q = p ∧ w = v ∨ IsLeaf es q w := by
  induction p generalizing es q with
  | nil => exact .inr h
  | cons k ks ih =>
    obtain ⟨hq, hget, hw⟩ := h
    cases q with
    | nil => exact absurd rfl hq
    | cons j qs =>
      by_cases hj : j = k
      · subst hj
        cases ks with
        | nil =>
          rw [setAt, NestedDict.get?_cons, lookup_insertKey, if_pos rfl] at hget
          cases qs with
          | nil => exact .inl ⟨rfl, (Option.some.inj hget).symm⟩
          | cons i qs =>
            rw [Option.bind_some, hv.get?_cons] at hget
            cases hget
        | cons k' ks =>
          rw [setAt, NestedDict.get?_cons, lookup_insertKey, if_pos rfl, Option.bind_some] at hget
          cases qs with
          | nil =>
            -- the dictionary that was made on the way is not empty
            obtain ⟨e, es', he⟩ := List.exists_cons_of_ne_nil (setAt_ne_nil (child es j) k' ks v)
            rw [he] at hget
            exact absurd (Option.some.inj hget).symm (hw e es')
          | cons i qs =>
            rcases ih ⟨List.cons_ne_nil _ _, hget, hw⟩ with ⟨hpath, hval⟩ | hold
            · exact .inl ⟨congrArg (j :: ·) hpath, hval⟩
            · refine .inr ⟨List.cons_ne_nil _ _, ?_, hw⟩
              rw [← get?_child]
              exact hold.get
      · refine .inr ⟨List.cons_ne_nil _ _, ?_, hw⟩
        cases ks with
        | nil =>
          rw [setAt, NestedDict.get?_cons, lookup_insertKey, if_neg hj] at hget
          rw [NestedDict.get?_cons]
          exact hget
        | cons k' ks =>
          rw [setAt, NestedDict.get?_cons, lookup_insertKey, if_neg hj] at hget
          rw [NestedDict.get?_cons]
          exact hget

theorem get?_build_of_apart (es : Entries κ α) {pairs : List (List κ × NestedDict κ α)} {q : List κ}
    (h : ∀ e ∈ pairs, Apart e.1 q) : get? (.dict (build es pairs)) q = get? (.dict es) q := by
  induction pairs generalizing es with
  | nil => rfl
  | cons e pairs ih =>
    exact (ih (setAt es e.1 e.2) fun e' he' => h e' (List.mem_cons_of_mem _ he')).trans
      (get?_setAt_of_apart es (h e List.mem_cons_self) e.2)

/-- What was written at a path is read there, where no path leads through another. -/
theorem get?_build (es : Entries κ α) {pairs : List (List κ × NestedDict κ α)}
    (hne : ∀ e ∈ pairs, e.1 ≠ []) (hapart : pairs.Pairwise fun e e' => Apart e.1 e'.1)
    {e : List κ × NestedDict κ α} (he : e ∈ pairs) :
    get? (.dict (build es pairs)) e.1 = some e.2 := by
  induction pairs generalizing es with
  | nil => cases he
  | cons e' pairs ih =>
    obtain ⟨hfirst, hrest⟩ := List.pairwise_cons.mp hapart
    rcases List.mem_cons.mp he with rfl | hmem
    · refine (get?_build_of_apart (setAt es e.1 e.2) fun e'' he'' => ?_).trans
        (get?_setAt_self es (hne e List.mem_cons_self) e.2)
      exact ⟨(hfirst e'' he'').2, (hfirst e'' he'').1⟩
    · exact ih (setAt es e'.1 e'.2) (fun e'' he'' => hne e'' (List.mem_cons_of_mem _ he'')) hrest
        hmem

theorem isLeaf_build {es : Entries κ α} {pairs : List (List κ × NestedDict κ α)}
    (hleafy : ∀ e ∈ pairs, e.2.Leafy) {q : List κ} {w : NestedDict κ α}
    (h : IsLeaf (build es pairs) q w) : (q, w) ∈ pairs ∨ IsLeaf es q w := by
  induction pairs generalizing es with
  | nil => exact .inr h
  | cons e pairs ih =>
    rcases ih (fun e' he' => hleafy e' (List.mem_cons_of_mem _ he')) h with hmem | hleaf
    · exact .inl (List.mem_cons_of_mem _ hmem)
    · rcases isLeaf_setAt (hleafy e List.mem_cons_self) hleaf with ⟨rfl, rfl⟩ | hold
      · exact .inl List.mem_cons_self
      · exact .inr hold

/-- **Building gives the leaves that were written.** -/
theorem nests_build {pairs : List (List κ × NestedDict κ α)} (hne : ∀ e ∈ pairs, e.1 ≠ [])
    (hapart : pairs.Pairwise fun e e' => Apart e.1 e'.1) (hleafy : ∀ e ∈ pairs, e.2.Leafy) :
    Nests pairs (build [] pairs) := by
  intro p v
  constructor
  · intro h
    rcases isLeaf_build hleafy h with hmem | ⟨hp, hget, -⟩
    · exact hmem
    · obtain ⟨k, ks, rfl⟩ := List.exists_cons_of_ne_nil hp
      cases hget
  · intro hmem
    exact ⟨hne _ hmem, get?_build [] hne hapart hmem, hleafy _ hmem⟩

/-- No leaf lies on the way to another. -/
theorem Nests.eq_of_prefix {pairs : List (List κ × NestedDict κ α)} {es : Entries κ α}
    (h : Nests pairs es) {e e' : List κ × NestedDict κ α} (he : e ∈ pairs) (he' : e' ∈ pairs)
    (hpre : e.1 <+: e'.1) : e = e' := by
  have hleaf := (h e.1 e.2).mpr he
  have hleaf' := (h e'.1 e'.2).mpr he'
  obtain ⟨rest, hrest⟩ := hpre
  have hget := hleaf'.get
  rw [← hrest, get?_append, hleaf.get, Option.bind_some] at hget
  cases rest with
  | nil =>
    rw [List.append_nil] at hrest
    exact Prod.ext hrest (Option.some.inj hget)
  | cons k ks =>
    rw [hleaf.leafy.get?_cons] at hget
    cases hget

/-! ## The leaves in order -/

mutual

/-- The leaves of a value, with their paths from it; an empty dictionary has none. -/
def leaves : NestedDict κ α → List (List κ × NestedDict κ α)
  | .dict es => leavesOf es
  | .atom a => [([], .atom a)]
  | .list items => [([], .list items)]

/-- The leaves of a dictionary. -/
def leavesOf : Entries κ α → List (List κ × NestedDict κ α)
  | [] => []
  | (k, t) :: es => (leaves t).map (fun e => (k :: e.1, e.2)) ++ leavesOf es

end

mutual

/-- No two entries of a dictionary for one key, and no dictionary without entries. -/
def Full : NestedDict κ α → Prop
  | .dict es => es ≠ [] ∧ FullEntries es
  | .atom _ => True
  | .list _ => True

/-- The same of the entries of a dictionary, which may be none. -/
def FullEntries : Entries κ α → Prop
  | [] => True
  | (k, t) :: es => (∀ e ∈ es, e.1 ≠ k) ∧ Full t ∧ FullEntries es

end

theorem lookup_eq_none {es : Entries κ α} {k : κ} (h : ∀ e ∈ es, e.1 ≠ k) : es.lookup k = none := by
  rw [List.lookup_eq_none_iff]
  intro e he
  exact bne_iff_ne.mpr (h e he).symm

theorem isLeaf_cons_self (es : Entries κ α) (k : κ) (t : NestedDict κ α) (qs : List κ)
    (w : NestedDict κ α) : IsLeaf ((k, t) :: es) (k :: qs) w ↔ t.get? qs = some w ∧ w.Leafy := by
  have hget : get? (.dict ((k, t) :: es)) (k :: qs) = t.get? qs := by
    rw [NestedDict.get?_cons, List.lookup_cons_self]
    rfl
  constructor
  · intro h
    exact ⟨hget.symm.trans h.get, h.leafy⟩
  · rintro ⟨h, hw⟩
    exact ⟨List.cons_ne_nil _ _, hget.trans h, hw⟩

theorem isLeaf_cons_ne (es : Entries κ α) {k j : κ} (hj : j ≠ k) (t : NestedDict κ α) (qs : List κ)
    (w : NestedDict κ α) : IsLeaf ((k, t) :: es) (j :: qs) w ↔ IsLeaf es (j :: qs) w := by
  have hget : get? (.dict ((k, t) :: es)) (j :: qs) = get? (.dict es) (j :: qs) := by
    rw [NestedDict.get?_cons, NestedDict.get?_cons, List.lookup_cons, beq_eq_false_iff_ne.mpr hj]
  constructor
  · intro h
    exact ⟨List.cons_ne_nil _ _, hget.symm.trans h.get, h.leafy⟩
  · intro h
    exact ⟨List.cons_ne_nil _ _, hget.trans h.get, h.leafy⟩

mutual

theorem mem_leaves_iff (t : NestedDict κ α) (ht : t.Full) (q : List κ) (w : NestedDict κ α) :
    (q, w) ∈ t.leaves ↔ t.get? q = some w ∧ w.Leafy := by
  cases t with
  | atom a =>
    rw [leaves, List.mem_singleton, Prod.mk.injEq]
    constructor
    · rintro ⟨rfl, rfl⟩
      exact ⟨rfl, by intro e es h; cases h⟩
    · rintro ⟨hget, -⟩
      cases q with
      | nil => exact ⟨rfl, (Option.some.inj hget).symm⟩
      | cons k ks => cases hget
  | list items =>
    rw [leaves, List.mem_singleton, Prod.mk.injEq]
    constructor
    · rintro ⟨rfl, rfl⟩
      exact ⟨rfl, by intro e es h; cases h⟩
    · rintro ⟨hget, -⟩
      cases q with
      | nil => exact ⟨rfl, (Option.some.inj hget).symm⟩
      | cons k ks => cases hget
  | dict es =>
    rw [Full] at ht
    rw [leaves, mem_leavesOf_iff es ht.2]
    constructor
    · intro h
      exact ⟨h.get, h.leafy⟩
    · rintro ⟨hget, hw⟩
      refine ⟨?_, hget, hw⟩
      rintro rfl
      obtain ⟨e, es', rfl⟩ := List.exists_cons_of_ne_nil ht.1
      exact hw e es' (Option.some.inj hget).symm

/-- The leaves in order are the leaves. -/
theorem mem_leavesOf_iff (es : Entries κ α) (hes : FullEntries es) (q : List κ)
    (w : NestedDict κ α) :
    (q, w) ∈ leavesOf es ↔ IsLeaf es q w := by
  cases es with
  | nil =>
    refine iff_of_false List.not_mem_nil ?_
    rintro ⟨hq, hget, -⟩
    obtain ⟨k, ks, rfl⟩ := List.exists_cons_of_ne_nil hq
    cases hget
  | cons e es =>
    obtain ⟨k, t⟩ := e
    rw [FullEntries] at hes
    obtain ⟨hk, ht, hes⟩ := hes
    rw [leavesOf, List.mem_append, List.mem_map, mem_leavesOf_iff es hes]
    cases q with
    | nil =>
      refine iff_of_false ?_ fun h => h.path_ne rfl
      rintro (⟨e, -, he⟩ | h)
      · cases he
      · exact h.path_ne rfl
    | cons j qs =>
      by_cases hj : j = k
      · subst hj
        rw [isLeaf_cons_self, ← mem_leaves_iff t ht]
        have hnone : ¬ IsLeaf es (j :: qs) w := by
          intro h
          have hget := h.get
          rw [NestedDict.get?_cons, lookup_eq_none hk] at hget
          cases hget
        rw [or_iff_left hnone]
        constructor
        · rintro ⟨e, he, heq⟩
          cases heq
          exact he
        · intro h
          exact ⟨(qs, w), h, rfl⟩
      · rw [isLeaf_cons_ne es hj]
        refine or_iff_right ?_
        rintro ⟨e, -, heq⟩
        cases heq
        exact hj rfl

end

omit [DecidableEq κ] in
/-- A leaf lies below one of the keys. -/
theorem head_of_mem_leavesOf {es : Entries κ α} {e : List κ × NestedDict κ α}
    (he : e ∈ leavesOf es) : ∃ k ks, e.1 = k :: ks ∧ k ∈ es.map Prod.fst := by
  induction es with
  | nil => cases he
  | cons e' es ih =>
    obtain ⟨k, t⟩ := e'
    rw [leavesOf] at he
    rcases List.mem_append.mp he with h | h
    · obtain ⟨e₀, -, rfl⟩ := List.mem_map.mp h
      exact ⟨k, e₀.1, rfl, List.mem_cons_self⟩
    · obtain ⟨j, js, hj, hmem⟩ := ih h
      exact ⟨j, js, hj, List.mem_cons_of_mem _ hmem⟩

mutual

/-- No two entries of a dictionary in a value are for one key. -/
def Keyed : NestedDict κ α → Prop
  | .dict es => KeyedEntries es
  | .atom _ => True
  | .list _ => True

/-- The same of the entries of a dictionary. -/
def KeyedEntries : Entries κ α → Prop
  | [] => True
  | (k, t) :: es => (∀ e ∈ es, e.1 ≠ k) ∧ Keyed t ∧ KeyedEntries es

end

section

omit [DecidableEq κ]

mutual

theorem Full.keyed (t : NestedDict κ α) (ht : t.Full) : t.Keyed := by
  cases t with
  | atom a => trivial
  | list items => trivial
  | dict es =>
    rw [Full] at ht
    rw [Keyed]
    exact FullEntries.keyed es ht.2

theorem FullEntries.keyed (es : Entries κ α) (hes : FullEntries es) : KeyedEntries es := by
  cases es with
  | nil => trivial
  | cons e es =>
    obtain ⟨k, t⟩ := e
    rw [FullEntries] at hes
    rw [KeyedEntries]
    exact ⟨hes.1, Full.keyed t hes.2.1, FullEntries.keyed es hes.2.2⟩

end

mutual

theorem pairwise_apart_leaves (t : NestedDict κ α) (ht : t.Keyed) :
    t.leaves.Pairwise fun e e' => Apart e.1 e'.1 := by
  cases t with
  | atom a => exact List.pairwise_singleton _ _
  | list items => exact List.pairwise_singleton _ _
  | dict es =>
    rw [Keyed] at ht
    rw [leaves]
    exact pairwise_apart_leavesOf es ht

/-- No leaf lies on the way to another one that is listed. -/
theorem pairwise_apart_leavesOf (es : Entries κ α) (hes : KeyedEntries es) :
    (leavesOf es).Pairwise fun e e' => Apart e.1 e'.1 := by
  cases es with
  | nil => exact List.Pairwise.nil
  | cons e es =>
    obtain ⟨k, t⟩ := e
    rw [KeyedEntries] at hes
    obtain ⟨hk, ht, hes⟩ := hes
    rw [leavesOf]
    refine List.pairwise_append.mpr ⟨?_, pairwise_apart_leavesOf es hes, ?_⟩
    · refine List.pairwise_map.mpr ((pairwise_apart_leaves t ht).imp ?_)
      rintro e e' ⟨h, h'⟩
      exact ⟨fun hpre => h (List.cons_prefix_cons.mp hpre).2,
        fun hpre => h' (List.cons_prefix_cons.mp hpre).2⟩
    · -- the paths begin with different keys
      intro e he e' he'
      obtain ⟨e₀, -, rfl⟩ := List.mem_map.mp he
      obtain ⟨j, js, hj, hmem⟩ := head_of_mem_leavesOf he'
      obtain ⟨e'', he'', rfl⟩ := List.mem_map.mp hmem
      have hne : e''.1 ≠ k := hk e'' he''
      rw [hj]
      exact ⟨fun hpre => hne (List.cons_prefix_cons.mp hpre).1.symm,
        fun hpre => hne (List.cons_prefix_cons.mp hpre).1⟩

end

end

/-- The leaves of a full dictionary are those that are listed. -/
theorem nests_leavesOf {es : Entries κ α} (hes : FullEntries es) : Nests (leavesOf es) es :=
  fun p v => (mem_leavesOf_iff es hes p v).symm

/-- Two dictionaries with the same leaves at the same paths. -/
def SameLeaves (es es' : Entries κ α) : Prop := ∀ p v, IsLeaf es p v ↔ IsLeaf es' p v

theorem leafy_of_mem_leavesOf {es : Entries κ α} (hes : FullEntries es)
    {e : List κ × NestedDict κ α} (he : e ∈ leavesOf es) : e.1 ≠ [] ∧ e.2.Leafy := by
  have hleaf := (mem_leavesOf_iff es hes e.1 e.2).mp he
  exact ⟨hleaf.path_ne, hleaf.leafy⟩

/-- A full dictionary is built again from its leaves. -/
theorem sameLeaves_build {es : Entries κ α} (hes : FullEntries es) :
    SameLeaves (build [] (leavesOf es)) es := by
  have hbuild := nests_build (fun e he => (leafy_of_mem_leavesOf hes he).1)
    (pairwise_apart_leavesOf es (FullEntries.keyed es hes))
    fun e he => (leafy_of_mem_leavesOf hes he).2
  intro p v
  rw [hbuild p v, nests_leavesOf hes p v]

/-! ## New keys -/

theorem insertKey_of_not_mem {es : Entries κ α} {k : κ} (h : k ∉ es.map Prod.fst)
    (v : NestedDict κ α) : insertKey es k v = es ++ [(k, v)] := by
  induction es with
  | nil => rfl
  | cons e es ih =>
    have hne : ¬ e.1 = k := by
      rintro rfl
      exact h List.mem_cons_self
    have hes : k ∉ es.map Prod.fst := fun hmem => h (List.mem_cons_of_mem _ hmem)
    rw [show e = (e.1, e.2) from rfl, insertKey, if_neg hne, ih hes]
    rfl

/-- Entries for different new keys are appended. -/
theorem foldl_insertKey_of_nodup {es new : Entries κ α}
    (h : ((es ++ new).map Prod.fst).Nodup) :
    new.foldl (fun es e => insertKey es e.1 e.2) es = es ++ new := by
  induction new generalizing es with
  | nil => exact (List.append_nil es).symm
  | cons e new ih =>
    have hnew : e.1 ∉ es.map Prod.fst := by
      rw [List.map_append, List.map_cons] at h
      intro hmem
      exact (List.nodup_append.mp h).2.2 _ hmem _ List.mem_cons_self rfl
    rw [List.foldl_cons, insertKey_of_not_mem hnew]
    have happend : es ++ e :: new = (es ++ [(e.1, e.2)]) ++ new := by
      rw [List.append_assoc]
      rfl
    rw [happend] at h ⊢
    exact ih h

/-- What is in a dictionary after writing at a key. -/
theorem mem_insertKey_iff {es : Entries κ α} (hnd : (es.map Prod.fst).Nodup) (k : κ)
    (v : NestedDict κ α) (e : κ × NestedDict κ α) :
    e ∈ insertKey es k v ↔ e = (k, v) ∨ (e ∈ es ∧ e.1 ≠ k) := by
  induction es with
  | nil => simp [insertKey]
  | cons e' es ih =>
    obtain ⟨hnot, hrest⟩ := List.nodup_cons.mp hnd
    rw [show e' = (e'.1, e'.2) from rfl, insertKey]
    by_cases hk : e'.1 = k
    · -- the key is here, and not among the others
      have hothers : ∀ x ∈ es, x.1 ≠ k := by
        intro x hx heq
        exact hnot (List.mem_map.mpr ⟨x, hx, heq.trans hk.symm⟩)
      rw [if_pos hk, List.mem_cons, List.mem_cons]
      constructor
      · rintro (h | h)
        · exact .inl h
        · exact .inr ⟨.inr h, hothers e h⟩
      · rintro (h | ⟨rfl | h, hne⟩)
        · exact .inl h
        · exact absurd hk hne
        · exact .inr h
    · rw [if_neg hk, List.mem_cons, ih hrest, List.mem_cons]
      constructor
      · rintro (rfl | h | ⟨h, hne⟩)
        · exact .inr ⟨.inl rfl, hk⟩
        · exact .inl h
        · exact .inr ⟨.inr h, hne⟩
      · rintro (h | ⟨rfl | h, hne⟩)
        · exact .inr (.inl h)
        · exact .inl rfl
        · exact .inr (.inr ⟨h, hne⟩)

theorem nodup_insertKey {es : Entries κ α} (hnd : (es.map Prod.fst).Nodup) (k : κ)
    (v : NestedDict κ α) : ((insertKey es k v).map Prod.fst).Nodup := by
  induction es with
  | nil => exact List.nodup_singleton k
  | cons e es ih =>
    obtain ⟨hnot, hrest⟩ := List.nodup_cons.mp hnd
    rw [show e = (e.1, e.2) from rfl, insertKey]
    split
    · rename_i hk
      rw [List.map_cons, ← hk]
      exact hnd
    · rename_i hk
      refine List.nodup_cons.mpr ⟨?_, ih hrest⟩
      intro hmem
      obtain ⟨x, hx, hxk⟩ := List.mem_map.mp hmem
      rcases (mem_insertKey_iff hrest k v x).mp hx with rfl | ⟨hx, -⟩
      · exact hk hxk.symm
      · exact hnot (List.mem_map.mpr ⟨x, hx, hxk⟩)

/-- Entries put into a dictionary one after the other: `d.update(new)`. -/
def insertAll (acc new : Entries κ α) : Entries κ α :=
  new.foldl (fun es e => insertKey es e.1 e.2) acc

/-- An update keeps what it has no key for, and has the rest from the new entries. -/
theorem insertAll_spec {acc new : Entries κ α} (hacc : (acc.map Prod.fst).Nodup)
    (hnew : (new.map Prod.fst).Nodup) :
    ((insertAll acc new).map Prod.fst).Nodup ∧
      ∀ e, e ∈ insertAll acc new ↔ e ∈ new ∨ (e ∈ acc ∧ e.1 ∉ new.map Prod.fst) := by
  induction new generalizing acc with
  | nil =>
    refine ⟨hacc, fun e => ?_⟩
    show e ∈ acc ↔ _
    simp
  | cons x new ih =>
    obtain ⟨hnot, hrest⟩ := List.nodup_cons.mp hnew
    obtain ⟨hnd, hmem⟩ := ih (nodup_insertKey hacc x.1 x.2) hrest
    refine ⟨hnd, fun e => ?_⟩
    show e ∈ insertAll (insertKey acc x.1 x.2) new ↔ _
    rw [hmem, mem_insertKey_iff hacc, List.map_cons, List.mem_cons, List.mem_cons, not_or]
    constructor
    · rintro (h | ⟨rfl | ⟨h, hne⟩, hnot⟩)
      · exact .inl (.inr h)
      · exact .inl (.inl rfl)
      · exact .inr ⟨h, hne, hnot⟩
    · rintro ((rfl | h) | ⟨h, hne, hnot⟩)
      · exact .inr ⟨.inl rfl, hnot⟩
      · exact .inl h
      · exact .inr ⟨.inr ⟨h, hne⟩, hnot⟩

/-! ## Dictionaries by their entries -/

omit [DecidableEq κ] in
theorem fullEntries_iff (es : Entries κ α) :
    FullEntries es ↔ (es.map Prod.fst).Nodup ∧ ∀ e ∈ es, e.2.Full := by
  induction es with
  | nil =>
    rw [FullEntries]
    exact iff_of_true trivial ⟨List.nodup_nil, by simp⟩
  | cons e es ih =>
    rw [show e = (e.1, e.2) from rfl, FullEntries, ih, List.map_cons, List.nodup_cons,
      List.forall_mem_cons]
    have hkey : e.1 ∉ es.map Prod.fst ↔ ∀ x ∈ es, x.1 ≠ e.1 := by
      rw [List.mem_map]
      push Not
      exact Iff.rfl
    rw [hkey]
    tauto

omit [DecidableEq κ] in
theorem mem_leavesOf_iff_exists (es : Entries κ α) (leaf : List κ × NestedDict κ α) :
    leaf ∈ leavesOf es ↔ ∃ e ∈ es, ∃ rest ∈ e.2.leaves, leaf = (e.1 :: rest.1, rest.2) := by
  induction es with
  | nil => simp [leavesOf]
  | cons e es ih =>
    rw [show e = (e.1, e.2) from rfl, leavesOf, List.mem_append, ih, List.mem_map]
    constructor
    · rintro (⟨rest, hrest, rfl⟩ | ⟨x, hx, h⟩)
      · exact ⟨e, List.mem_cons_self, rest, hrest, rfl⟩
      · exact ⟨x, List.mem_cons_of_mem _ hx, h⟩
    · rintro ⟨x, hx, rest, hrest, rfl⟩
      rcases List.mem_cons.mp hx with rfl | hx
      · exact .inl ⟨rest, hrest, rfl⟩
      · exact .inr ⟨x, hx, rest, hrest, rfl⟩

section

omit [DecidableEq κ]

mutual

theorem leaves_ne_nil (t : NestedDict κ α) (ht : t.Full) : t.leaves ≠ [] := by
  cases t with
  | atom a =>
    rw [leaves]
    exact List.cons_ne_nil _ _
  | list items =>
    rw [leaves]
    exact List.cons_ne_nil _ _
  | dict es =>
    rw [Full] at ht
    rw [leaves]
    exact leavesOf_ne_nil es ht.2 ht.1

/-- A full dictionary with entries has leaves. -/
theorem leavesOf_ne_nil (es : Entries κ α) (hes : FullEntries es) (hne : es ≠ []) :
    leavesOf es ≠ [] := by
  cases es with
  | nil => exact absurd rfl hne
  | cons e es =>
    obtain ⟨k, t⟩ := e
    rw [FullEntries] at hes
    rw [leavesOf]
    intro h
    exact leaves_ne_nil t hes.2.1 (List.map_eq_nil_iff.mp (List.append_eq_nil_iff.mp h).1)

end

end

end NestedDict

end Theory
