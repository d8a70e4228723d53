import Mathlib.Data.List.TakeWhile
import Notifyr.Theory.Multimap

/-!
# Edge types between entities

`CustomService.to_edge_map` (`app/services/custom_service.py`), which collects the edge types of
each pair of entities.

- `toEdgeMap`: the function, with its two loops and the ways out of them.
- `visited`: the declarations that the loops come to; `toEdgeMap_eq`.
- `foldlM_addEdge_iff`: when no key is missing, and what is collected then.
- `EdgeMapRight`: each pair of known entities has the edge types that are declared for it.
- `edgeMapRight_iff`: for which declarations this is so.
-/

namespace Notifyr

open Theory

namespace CustomService

/-! ## The function -/

/-- `model_type`. -/
inductive ModelType | entity | edge
  deriving DecidableEq

/-- `CustomModel`. The validator `edge_map_pairs` leaves an edge type with pairs only. -/
structure CustomModel where
  modelType : ModelType
  edgeMap : List (List String)
  edge_map_pairs : modelType = .edge → ∀ edge ∈ edgeMap, edge.length = 2

/-- How the function fails. -/
inductive EdgeExc | valueError | keyError

/-- The edge types of each pair. -/
abbrev EdgeMap := Dict (String × String) (List String)

section Function

variable (models : Dict String CustomModel) (entities : List String)

/-- One edge type under a pair. The reverse of a pair counts as the pair, and is not the key. -/
def addEdge (edgeMap : EdgeMap) (edgesKey : String × String) (e : String) :
    Except EdgeExc EdgeMap :=
  if edgesKey ∉ edgeMap.keys ∧ edgesKey.swap ∉ edgeMap.keys then .ok (edgeMap.set edgesKey [e])
  else
    match edgeMap.get? edgesKey with
    | some es => .ok (edgeMap.set edgesKey (es ++ [e]))
    | none => .error .keyError

/-- The loop over the pairs of an edge type, which ends at the first unknown name. -/
def addEdges (e : String) : List (List String) → EdgeMap → Except EdgeExc EdgeMap
  | [], edgeMap => .ok edgeMap
  | [edge1, edge2] :: rest, edgeMap =>
    if edge1 ∉ models.keys then .ok edgeMap
    else if edge2 ∉ models.keys then .ok edgeMap
    else if edge1 ∉ entities then .ok edgeMap
    else if edge2 ∉ entities then .ok edgeMap
    else do
      let edgeMap ← addEdge edgeMap (edge1, edge2) e
      addEdges e rest edgeMap
  | _ :: _, _ => .error .valueError

/-- `to_edge_map`. The inner loop gives the name `edges` to its pairs, but the outer loop has begun
with its list. -/
def toEdgeMap (edges : List String) : Except EdgeExc EdgeMap :=
  edges.foldlM (fun edgeMap e =>
    match models.get? e with
    | none => .ok edgeMap
    | some m =>
      if m.modelType ≠ .edge then .ok edgeMap else addEdges models entities e m.edgeMap edgeMap)
    Dict.empty

/-! ## What the map owes -/

/-- An entity that is listed and has a model. -/
def Known (name : String) : Prop := name ∈ models.keys ∧ name ∈ entities

instance (name : String) : Decidable (Known models entities name) :=
  inferInstanceAs (Decidable (_ ∧ _))

/-- A listed edge type is declared for two known entities. -/
def Declared (edges : List String) (a b e : String) : Prop :=
  Known models entities a ∧ Known models entities b ∧ e ∈ edges ∧
    ∃ m, models.get? e = some m ∧ m.modelType = .edge ∧ [a, b] ∈ m.edgeMap

/-- The map is made, and has under each pair the edge types that are declared for it, each once. -/
def EdgeMapRight (edges : List String) : Prop :=
  ∃ edgeMap, toEdgeMap models entities edges = .ok edgeMap ∧
    (∀ a b e, e ∈ edgeMap.values (a, b) ↔ Declared models entities edges a b e) ∧
    ∀ pair, (edgeMap.values pair).Nodup

/-- The pairs of an edge type. -/
def CustomModel.pairs (m : CustomModel) : List (String × String) :=
  m.edgeMap.filterMap fun
    | [a, b] => some (a, b)
    | _ => none

/-- The pairs that an alias declares, which are none where it is not the alias of an edge type. -/
def declaredPairs (e : String) : List (String × String) :=
  match models.get? e with
  | none => []
  | some m => if m.modelType = .edge then m.pairs else []

/-- Two known entities. -/
def KnownPair (pair : String × String) : Prop :=
  Known models entities pair.1 ∧ Known models entities pair.2

instance (pair : String × String) : Decidable (KnownPair models entities pair) :=
  inferInstanceAs (Decidable (_ ∧ _))

/-- The pairs before the first with an unknown name. -/
def opening (e : String) : List (String × String) :=
  (declaredPairs models e).takeWhile fun pair => KnownPair models entities pair

/-- Declarations that the loops make the map of: no known pair stands behind an unknown one only, no
pair is declared twice, no edge type is listed twice, and no two pairs are each other's reverse. -/
structure Orderly (edges : List String) : Prop where
  early : ∀ e ∈ edges, ∀ pair ∈ declaredPairs models e, KnownPair models entities pair →
    pair ∈ opening models entities e
  distinct : ∀ e ∈ edges, (opening models entities e).Nodup
  listedOnce : (edges.filter fun e => opening models entities e ≠ []).Nodup
  oneWay : ∀ a b e e', Declared models entities edges a b e →
    Declared models entities edges b a e' → a = b

end Function

/-! ## One pair -/

/-- An edge type is put under its pair, unless the map has the reverse of the pair only. -/
theorem addEdge_eq (edgeMap : EdgeMap) (pair : String × String) (e : String) :
    addEdge edgeMap pair e =
      if pair.swap ∈ edgeMap.keys ∧ pair ∉ edgeMap.keys then .error .keyError
      else .ok (edgeMap.push pair e) := by
  unfold addEdge
  by_cases hmem : pair ∈ edgeMap.keys
  · obtain ⟨es, hes⟩ := (Dict.mem_keys_iff edgeMap pair).mp hmem
    rw [if_neg fun h => h.1 hmem, if_neg fun h => h.2 hmem, hes, Dict.push, Dict.values, hes]
    rfl
  · have hnone := (Dict.not_mem_keys_iff edgeMap pair).mp hmem
    by_cases hswap : pair.swap ∈ edgeMap.keys
    · rw [if_neg fun h => h.2 hswap, if_pos ⟨hswap, hmem⟩, hnone]
    · rw [if_pos ⟨hmem, hswap⟩, if_neg fun h => hswap h.1, Dict.push,
        Dict.values_of_not_mem hmem, List.nil_append]

/-- No pair is the reverse of another. -/
def OneWay (pairs : List (String × String)) : Prop :=
  ∀ pair ∈ pairs, pair.swap ∈ pairs → pair.swap = pair

/-- **What the loops collect**: everything, where no pair is the reverse of another one; else a key
is missing. -/
theorem foldlM_addEdge_iff {edgeMap : EdgeMap} {found : List ((String × String) × String)}
    {edgeMap' : EdgeMap} (h : OneWay edgeMap.keys) :
    found.foldlM (fun d x => addEdge d x.1 x.2) edgeMap = .ok edgeMap' ↔
      OneWay (edgeMap.keys ++ found.map Prod.fst) ∧ edgeMap' = edgeMap.pushAll found := by
  induction found generalizing edgeMap with
  | nil =>
    rw [List.map_nil, List.append_nil]
    constructor
    · rintro ⟨⟩
      exact ⟨h, rfl⟩
    · rintro ⟨-, rfl⟩
      rfl
  | cons x found ih =>
    obtain ⟨pair, e⟩ := x
    rw [List.foldlM_cons, addEdge_eq]
    by_cases hmissing : pair.swap ∈ edgeMap.keys ∧ pair ∉ edgeMap.keys
    · rw [if_pos hmissing]
      refine ⟨nofun, fun hall => ?_⟩
      have hswap := hall.1 pair (by simp) (List.mem_append_left _ hmissing.1)
      exact absurd (hswap ▸ hmissing.1) hmissing.2
    · rw [if_neg hmissing]
      have hkeys : OneWay (edgeMap.push pair e).keys := by
        intro p hp hswap
        rw [Dict.mem_keys_push] at hp hswap
        rcases hp with rfl | hp
        · rcases hswap with hswap | hswap
          · exact hswap
          · exact h p (by_contra fun hnot => hmissing ⟨hswap, hnot⟩) hswap
        · rcases hswap with hswap | hswap
          · have hpair : pair.swap = p := by rw [← hswap, Prod.swap_swap]
            have hmem : pair ∈ edgeMap.keys :=
              by_contra fun hnot => hmissing ⟨hpair ▸ hp, hnot⟩
            exact h p hp (hswap ▸ hmem)
          · exact h p hp hswap
      have hsame : OneWay ((edgeMap.push pair e).keys ++ found.map Prod.fst) ↔
          OneWay (edgeMap.keys ++ ((pair, e) :: found).map Prod.fst) := by
        have hmem : ∀ p, p ∈ (edgeMap.push pair e).keys ++ found.map Prod.fst ↔
            p ∈ edgeMap.keys ++ ((pair, e) :: found).map Prod.fst := by
          intro p
          rw [List.mem_append, Dict.mem_keys_push, List.map_cons, List.mem_append, List.mem_cons]
          tauto
        unfold OneWay
        simp only [hmem]
      rw [← hsame]
      exact ih hkeys

/-! ## The loops -/

section Loops

variable (models : Dict String CustomModel) (entities : List String)

/-- An edge type has pairs only. -/
theorem edgeMap_eq {m : CustomModel} (h : m.modelType = .edge) :
    m.edgeMap = m.pairs.map fun pair => [pair.1, pair.2] := by
  have hlists : ∀ edgeMap : List (List String), (∀ edge ∈ edgeMap, edge.length = 2) →
      edgeMap = (edgeMap.filterMap fun
        | [a, b] => some (a, b)
        | _ => none).map fun pair => [pair.1, pair.2] := by
    intro edgeMap hpairs
    induction edgeMap with
    | nil => rfl
    | cons edge edgeMap ih =>
      obtain ⟨a, b, rfl⟩ := List.length_eq_two.mp (hpairs edge List.mem_cons_self)
      have hrest := ih fun edge hedge => hpairs edge (List.mem_cons_of_mem _ hedge)
      rw [List.filterMap_cons, List.map_cons, ← hrest]
  exact hlists m.edgeMap (m.edge_map_pairs h)

theorem addEdges_cons (e a b : String) (rest : List (List String)) (edgeMap : EdgeMap) :
    addEdges models entities e ([a, b] :: rest) edgeMap =
      if KnownPair models entities (a, b) then
        addEdge edgeMap (a, b) e >>= addEdges models entities e rest
      else .ok edgeMap := by
  rw [addEdges]
  by_cases hknown : KnownPair models entities (a, b)
  · obtain ⟨⟨ha, ha'⟩, hb, hb'⟩ := id hknown
    rw [if_neg (not_not_intro ha), if_neg (not_not_intro hb), if_neg (not_not_intro ha'),
      if_neg (not_not_intro hb'), if_pos hknown]
  · rw [if_neg hknown]
    split_ifs with ha hb ha' hb'
    · exact absurd ⟨⟨ha, ha'⟩, hb, hb'⟩ hknown
    · rfl
    · rfl
    · rfl
    · rfl

/-- The loop over pairs comes to those before the first with an unknown name. -/
theorem addEdges_eq (e : String) (pairs : List (String × String)) (edgeMap : EdgeMap) :
    addEdges models entities e (pairs.map fun pair => [pair.1, pair.2]) edgeMap =
      ((pairs.takeWhile fun pair => KnownPair models entities pair).map fun pair =>
        (pair, e)).foldlM (fun d x => addEdge d x.1 x.2) edgeMap := by
  induction pairs generalizing edgeMap with
  | nil => rfl
  | cons pair pairs ih =>
    rw [List.map_cons, addEdges_cons, List.takeWhile_cons]
    by_cases hknown : KnownPair models entities pair
    · rw [if_pos hknown, if_pos (decide_eq_true hknown), List.map_cons, List.foldlM_cons]
      exact bind_congr ih
    · rw [if_neg hknown, if_neg (by simpa using hknown)]
      rfl

/-- The declarations that the loops come to. -/
def visited (edges : List String) : List ((String × String) × String) :=
  edges.flatMap fun e => (opening models entities e).map fun pair => (pair, e)

theorem toEdgeMap_eq (edges : List String) :
    toEdgeMap models entities edges =
      (visited models entities edges).foldlM (fun d x => addEdge d x.1 x.2) Dict.empty := by
  have hstep : ∀ (edges : List String) (edgeMap : EdgeMap),
      edges.foldlM (fun edgeMap e =>
        match models.get? e with
        | none => .ok edgeMap
        | some m =>
          if m.modelType ≠ .edge then .ok edgeMap
          else addEdges models entities e m.edgeMap edgeMap) edgeMap =
        (visited models entities edges).foldlM (fun d x => addEdge d x.1 x.2) edgeMap := by
    intro edges
    induction edges with
    | nil => exact fun _ => rfl
    | cons e edges ih =>
      intro edgeMap
      have hhead : (match models.get? e with
          | none => .ok edgeMap
          | some m =>
            if m.modelType ≠ .edge then .ok edgeMap
            else addEdges models entities e m.edgeMap edgeMap) =
          ((opening models entities e).map fun pair => (pair, e)).foldlM
            (fun d x => addEdge d x.1 x.2) edgeMap := by
        unfold opening declaredPairs
        cases models.get? e with
        | none => rfl
        | some m =>
          dsimp only
          by_cases htype : m.modelType = .edge
          · rw [if_neg (not_not_intro htype), if_pos htype, edgeMap_eq htype, addEdges_eq]
          · rw [if_pos htype, if_neg htype]
            rfl
      rw [List.foldlM_cons, hhead, visited, List.flatMap_cons, List.foldlM_append]
      exact bind_congr ih
  exact hstep edges Dict.empty

variable {models entities} {edges : List String}

/-- The pairs of an edge type are those its list has. -/
theorem mem_declaredPairs_iff {e a b : String} :
    (a, b) ∈ declaredPairs models e ↔
      ∃ m, models.get? e = some m ∧ m.modelType = .edge ∧ [a, b] ∈ m.edgeMap := by
  have hmem : ∀ {m : CustomModel}, m.modelType = .edge →
      ((a, b) ∈ m.pairs ↔ [a, b] ∈ m.edgeMap) := by
    intro m htype
    rw [edgeMap_eq htype, List.mem_map]
    constructor
    · exact fun h => ⟨(a, b), h, rfl⟩
    · rintro ⟨⟨a', b'⟩, h, heq⟩
      cases heq
      exact h
  unfold declaredPairs
  cases models.get? e with
  | none => exact ⟨nofun, fun ⟨m, hm, _⟩ => by cases hm⟩
  | some m =>
    dsimp only
    by_cases htype : m.modelType = .edge
    · rw [if_pos htype, hmem htype]
      constructor
      · exact fun h => ⟨m, rfl, htype, h⟩
      · rintro ⟨m', hm', -, h⟩
        cases hm'
        exact h
    · rw [if_neg htype]
      refine ⟨nofun, ?_⟩
      rintro ⟨m', hm', htype', -⟩
      cases hm'
      exact absurd htype' htype

theorem declared_iff {a b e : String} :
    Declared models entities edges a b e ↔
      KnownPair models entities (a, b) ∧ e ∈ edges ∧ (a, b) ∈ declaredPairs models e := by
  unfold Declared KnownPair
  rw [mem_declaredPairs_iff]
  tauto

theorem mem_visited_iff {pair : String × String} {e : String} :
    (pair, e) ∈ visited models entities edges ↔ e ∈ edges ∧ pair ∈ opening models entities e := by
  unfold visited
  rw [List.mem_flatMap]
  constructor
  · rintro ⟨e', he', hmem⟩
    obtain ⟨pair', hpair', heq⟩ := List.mem_map.mp hmem
    cases heq
    exact ⟨he', hpair'⟩
  · rintro ⟨he, hpair⟩
    exact ⟨e, he, List.mem_map_of_mem hpair⟩

/-- What the loops come to is declared. -/
theorem declared_of_visited {a b e : String} (h : ((a, b), e) ∈ visited models entities edges) :
    Declared models entities edges a b e := by
  obtain ⟨he, hpair⟩ := mem_visited_iff.mp h
  have hknown := List.mem_takeWhile_imp hpair
  exact declared_iff.mpr
    ⟨of_decide_eq_true hknown, he, (List.takeWhile_sublist _).subset hpair⟩

/-- The loops come to each declaration once. -/
theorem nodup_visited_iff :
    (visited models entities edges).Nodup ↔
      (∀ e ∈ edges, (opening models entities e).Nodup) ∧
        (edges.filter fun e => opening models entities e ≠ []).Nodup := by
  have hpart : ∀ e, ((opening models entities e).map fun pair => (pair, e)).Nodup ↔
      (opening models entities e).Nodup := fun e =>
    List.nodup_map_iff fun _ _ h => (Prod.mk.inj h).1
  have hdisjoint : ∀ e e', List.Disjoint ((opening models entities e).map fun pair => (pair, e))
      ((opening models entities e').map fun pair => (pair, e')) ↔
        (opening models entities e ≠ [] → opening models entities e' ≠ [] → e ≠ e') := by
    intro e e'
    constructor
    · rintro hdisjoint hne - rfl
      obtain ⟨pair, hpair⟩ := List.exists_mem_of_ne_nil _ hne
      exact hdisjoint (List.mem_map_of_mem hpair) (List.mem_map_of_mem hpair)
    · intro hne x hx hx'
      obtain ⟨pair, hpair, rfl⟩ := List.mem_map.mp hx
      obtain ⟨pair', hpair', heq⟩ := List.mem_map.mp hx'
      exact hne (List.ne_nil_of_mem hpair) (List.ne_nil_of_mem hpair') (Prod.mk.inj heq).2.symm
  have hfilter : (edges.filter fun e => opening models entities e ≠ []).Nodup ↔
      edges.Pairwise fun e e' =>
        opening models entities e ≠ [] → opening models entities e' ≠ [] → e ≠ e' := by
    unfold List.Nodup
    rw [List.pairwise_filter]
    simp only [decide_eq_true_eq]
  unfold visited
  rw [List.nodup_flatMap, hfilter]
  exact and_congr (forall₂_congr fun e _ => hpart e) (List.Pairwise.iff hdisjoint)

end Loops

/-- **When the map is right**: known pairs stand before unknown ones, nothing is declared twice, and
no two pairs are each other's reverse. -/
theorem edgeMapRight_iff (models : Dict String CustomModel) (entities edges : List String) :
    EdgeMapRight models entities edges ↔ Orderly models entities edges := by
  have hmade : ∀ edgeMap, toEdgeMap models entities edges = .ok edgeMap ↔
      OneWay ((visited models entities edges).map Prod.fst) ∧
        edgeMap = Dict.empty.pushAll (visited models entities edges) := by
    intro edgeMap
    have hempty : OneWay (Dict.empty : EdgeMap).keys := nofun
    rw [toEdgeMap_eq, foldlM_addEdge_iff hempty]
    rfl
  constructor
  · rintro ⟨edgeMap, hmap, hexact, hnodup⟩
    obtain ⟨honeWay, rfl⟩ := (hmade edgeMap).mp hmap
    simp only [Dict.mem_values_pushAll] at hexact
    obtain ⟨hdistinct, hlisted⟩ := nodup_visited_iff.mp ((Dict.nodup_iff_values _).mpr hnodup)
    exact {
      early := fun e he pair hpair hknown => (mem_visited_iff.mp
        ((hexact pair.1 pair.2 e).mpr (declared_iff.mpr ⟨hknown, he, hpair⟩))).2
      distinct := hdistinct
      listedOnce := hlisted
      oneWay := by
        intro a b e e' hab hba
        have hfirst := List.mem_map_of_mem (f := Prod.fst) ((hexact a b e).mpr hab)
        have hsecond := List.mem_map_of_mem (f := Prod.fst) ((hexact b a e').mpr hba)
        exact (Prod.mk.inj (honeWay (a, b) hfirst hsecond)).2 }
  · intro h
    have hdeclared : ∀ a b e, ((a, b), e) ∈ visited models entities edges ↔
        Declared models entities edges a b e := by
      intro a b e
      refine ⟨declared_of_visited, fun hab => ?_⟩
      obtain ⟨hknown, he, hpair⟩ := declared_iff.mp hab
      exact mem_visited_iff.mpr ⟨he, h.early e he (a, b) hpair hknown⟩
    have honeWay : OneWay ((visited models entities edges).map Prod.fst) := by
      rintro ⟨a, b⟩ hpair hswap
      obtain ⟨⟨pair, e⟩, hmem, rfl : pair = (a, b)⟩ := List.mem_map.mp hpair
      obtain ⟨⟨pair', e'⟩, hmem', rfl : pair' = (b, a)⟩ := List.mem_map.mp hswap
      obtain rfl : a = b :=
        h.oneWay a b e e' ((hdeclared a b e).mp hmem) ((hdeclared b a e').mp hmem')
      rfl
    refine ⟨_, (hmade _).mpr ⟨honeWay, rfl⟩, fun a b e => ?_, ?_⟩
    · exact Dict.mem_values_pushAll.trans (hdeclared a b e)
    · exact (Dict.nodup_iff_values _).mp (nodup_visited_iff.mpr ⟨h.distinct, h.listedOnce⟩)

/-- Two entities `A` and `B`, and an edge type `R` with some pairs. -/
def twoEntities (edgeMap : List (List String)) (h : ∀ edge ∈ edgeMap, edge.length = 2) :
    Dict String CustomModel :=
  .ofEntries [("A", ⟨.entity, [], nofun⟩), ("B", ⟨.entity, [], nofun⟩),
    ("R", ⟨.edge, edgeMap, fun _ => h⟩)]

/-- A pair that is declared in both directions has no key, and one behind an unknown name is left
out. -/
theorem not_edgeMapRight_examples :
    ¬ EdgeMapRight (twoEntities [["A", "B"], ["B", "A"]] (by decide)) ["A", "B"] ["R"] ∧
      ¬ EdgeMapRight (twoEntities [["A", "X"], ["A", "B"]] (by decide)) ["A", "B"] ["R"] := by
  constructor
  · rintro ⟨edgeMap, hmap, -⟩
    have hfails : toEdgeMap (twoEntities [["A", "B"], ["B", "A"]] (by decide)) ["A", "B"] ["R"] =
        .error .keyError := rfl
    rw [hfails] at hmap
    cases hmap
  · rintro ⟨edgeMap, hmap, hexact, -⟩
    have hempty : toEdgeMap (twoEntities [["A", "X"], ["A", "B"]] (by decide)) ["A", "B"] ["R"] =
        .ok Dict.empty := rfl
    rw [hempty] at hmap
    cases hmap
    have hmem := (hexact "A" "B" "R").mpr
      ⟨by decide, by decide, by decide, _, rfl, rfl, by decide⟩
    cases hmem

end CustomService

end Notifyr
