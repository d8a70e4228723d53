import Mathlib.Data.List.Nodup
import Notifyr.Theory.Dict

/-!
# Dictionaries of lists

Dictionaries that collect values: a value is put behind those its key has already.

- `Dict.values`, `Dict.push`, `Dict.pushAll`: the values of a key, one more, and many of them.
- `values_pushAll`: the values of a key are those that were put under it, in order.
- `entries_pushAll_groups`: groups that are taken apart and collected again.
- `nodup_iff_values`: what is put in stands once if each key has it once.
-/

namespace Theory

namespace Dict

variable {κ ν : Type} [DecidableEq κ]

/-- The values of a key. -/
def values (d : Dict κ (List ν)) (k : κ) : List ν := (d.get? k).getD []

/-- One more value of a key. -/
def push (d : Dict κ (List ν)) (k : κ) (v : ν) : Dict κ (List ν) := d.set k (d.values k ++ [v])

/-- Values with their keys, one after the other. -/
def pushAll (d : Dict κ (List ν)) (es : List (κ × ν)) : Dict κ (List ν) :=
  es.foldl (fun d e => d.push e.1 e.2) d

@[simp] theorem values_empty (k : κ) : (empty : Dict κ (List ν)).values k = [] := rfl

theorem pushAll_cons (d : Dict κ (List ν)) (e : κ × ν) (es : List (κ × ν)) :
    d.pushAll (e :: es) = (d.push e.1 e.2).pushAll es := rfl

theorem pushAll_append (d : Dict κ (List ν)) (es es' : List (κ × ν)) :
    d.pushAll (es ++ es') = (d.pushAll es).pushAll es' := List.foldl_append

theorem values_of_not_mem {d : Dict κ (List ν)} {k : κ} (h : k ∉ d.keys) : d.values k = [] := by
  unfold values
  rw [(not_mem_keys_iff d k).mp h]
  rfl

theorem mem_keys_push (d : Dict κ (List ν)) (k : κ) (v : ν) (k' : κ) :
    k' ∈ (d.push k v).keys ↔ k' = k ∨ k' ∈ d.keys := mem_keys_set ..

theorem mem_keys_pushAll (d : Dict κ (List ν)) (es : List (κ × ν)) (k : κ) :
    k ∈ (d.pushAll es).keys ↔ k ∈ d.keys ∨ k ∈ es.map Prod.fst := by
  induction es generalizing d with
  | nil => exact (or_iff_left List.not_mem_nil).symm
  | cons e es ih =>
    rw [pushAll_cons, ih, mem_keys_push, List.map_cons, List.mem_cons, or_comm (a := k = e.1),
      or_assoc]

/-- A value is put behind the others of its key. -/
theorem values_push (d : Dict κ (List ν)) (k : κ) (v : ν) (k' : κ) :
    (d.push k v).values k' = if k' = k then d.values k ++ [v] else d.values k' := by
  unfold push
  rw [values, get?_set]
  by_cases hk : k' = k
  · rw [if_pos hk, if_pos hk]
    rfl
  · rw [if_neg hk, if_neg hk]
    rfl

/-- **The values of a key** are those that were there and those that were put under it. -/
theorem values_pushAll (d : Dict κ (List ν)) (es : List (κ × ν)) (k : κ) :
    (d.pushAll es).values k = d.values k ++ (es.filter (·.1 = k)).map Prod.snd := by
  induction es generalizing d with
  | nil => exact (List.append_nil _).symm
  | cons e es ih =>
    rw [pushAll_cons, ih, values_push, List.filter_cons]
    by_cases hk : e.1 = k
    · simp [hk]
    · simp [hk, Ne.symm hk]

theorem mem_values_pushAll {es : List (κ × ν)} {k : κ} {v : ν} :
    v ∈ ((empty : Dict κ (List ν)).pushAll es).values k ↔ (k, v) ∈ es := by
  rw [values_pushAll, values_empty, List.nil_append, List.mem_map]
  constructor
  · rintro ⟨⟨k', v'⟩, he, rfl⟩
    obtain ⟨hmem, hk⟩ := List.mem_filter.mp he
    obtain rfl : k' = k := by simpa using hk
    exact hmem
  · intro h
    exact ⟨(k, v), List.mem_filter.mpr ⟨h, by simp⟩, rfl⟩

/-- What is put in stands once if each key has it once. -/
theorem nodup_iff_values (es : List (κ × ν)) :
    es.Nodup ↔ ∀ k, (((empty : Dict κ (List ν)).pushAll es).values k).Nodup := by
  have hvalues : ∀ k, ((empty : Dict κ (List ν)).pushAll es).values k =
      (es.filter (·.1 = k)).map Prod.snd := by
    intro k
    rw [values_pushAll, values_empty, List.nil_append]
  simp only [hvalues]
  constructor
  · intro h k
    refine (h.filter _).map_on ?_
    rintro ⟨k₁, v₁⟩ h₁ ⟨k₂, v₂⟩ h₂ (rfl : v₁ = v₂)
    have hk₁ : k₁ = k := by simpa using (List.mem_filter.mp h₁).2
    have hk₂ : k₂ = k := by simpa using (List.mem_filter.mp h₂).2
    rw [hk₁, hk₂]
  · intro h
    clear hvalues
    induction es with
    | nil => exact List.nodup_nil
    | cons e es ih =>
      refine List.nodup_cons.mpr ⟨fun hmem => ?_, ih fun k => ?_⟩
      · have hnd := h e.1
        rw [List.filter_cons_of_pos (by simp), List.map_cons] at hnd
        refine (List.nodup_cons.mp hnd).1 (List.mem_map_of_mem (List.mem_filter.mpr ⟨hmem, ?_⟩))
        simp
      · exact (((List.sublist_cons_self e es).filter _).map _).nodup (h k)

/-! ## Groups -/

/-- The values of one key, behind others of it. -/
theorem entries_pushAll_same (d : Dict κ (List ν)) (k : κ) (before vs : List ν) :
    ((d.set k before).pushAll (vs.map (Prod.mk k))).entries =
      (d.set k (before ++ vs)).entries := by
  induction vs generalizing d before with
  | nil => rw [List.append_nil]; rfl
  | cons v vs ih =>
    have hpush : (d.set k before).push k v = (d.set k before).set k (before ++ [v]) := by
      unfold push values
      rw [get?_set_self]
      rfl
    rw [List.map_cons, pushAll_cons, hpush, ih, entries_set_set, List.append_assoc]
    rfl

/-- **Groups that are taken apart and collected again**, where each has a value and a key of its
own. -/
theorem entries_pushAll_groups {d : Dict κ (List ν)} {groups : List (κ × List ν)}
    (hnd : ((d.entries ++ groups).map Prod.fst).Nodup) (hvalues : ∀ g ∈ groups, g.2 ≠ []) :
    (d.pushAll (groups.flatMap fun g => g.2.map (Prod.mk g.1))).entries = d.entries ++ groups := by
  induction groups generalizing d with
  | nil => exact (List.append_nil _).symm
  | cons g groups ih =>
    obtain ⟨k, vs⟩ := g
    have hnew : k ∉ d.keys := by
      rw [List.map_append, List.map_cons] at hnd
      intro hmem
      exact (List.nodup_append.mp hnd).2.2 _ hmem _ List.mem_cons_self rfl
    obtain ⟨v, rest, rfl⟩ := List.exists_cons_of_ne_nil (hvalues _ List.mem_cons_self)
    have hfirst : d.push k v = d.set k [v] := by
      unfold push
      rw [values_of_not_mem hnew]
      rfl
    have hentries : (d.pushAll ((v :: rest).map (Prod.mk k))).entries =
        d.entries ++ [(k, v :: rest)] := by
      rw [List.map_cons, pushAll_cons, hfirst, entries_pushAll_same,
        entries_set_of_not_mem d _ hnew]
      rfl
    have hmore : d.entries ++ (k, v :: rest) :: groups =
        (d.pushAll ((v :: rest).map (Prod.mk k))).entries ++ groups := by
      rw [hentries, List.append_assoc, List.singleton_append]
    rw [List.flatMap_cons, pushAll_append, hmore]
    rw [hmore] at hnd
    exact ih hnd fun g hg => hvalues g (List.mem_cons_of_mem _ hg)

/-- Every key that is collected has a value. -/
theorem ne_nil_of_mem_pushAll {es : List (κ × ν)} {g : κ × List ν}
    (h : g ∈ ((empty : Dict κ (List ν)).pushAll es).entries) : g.2 ≠ [] := by
  have hkey : g.1 ∈ ((empty : Dict κ (List ν)).pushAll es).keys := List.mem_map_of_mem h
  rw [mem_keys_pushAll] at hkey
  obtain ⟨⟨k, v⟩, he, rfl : k = g.1⟩ := List.mem_map.mp (hkey.resolve_left List.not_mem_nil)
  have hvalues : ((empty : Dict κ (List ν)).pushAll es).values g.1 = g.2 := by
    unfold values
    rw [(mem_entries_iff _ g.1 g.2).mp h]
    rfl
  rw [← hvalues]
  exact List.ne_nil_of_mem (mem_values_pushAll.mpr he)

end Dict

end Theory
