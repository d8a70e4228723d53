import Notifyr.Auth.Policies

/-!
# The fold over the policies' classes

The two nested loops of `get_combined_policies`, taken apart: plain unions for roles, profiles,
agents, blogs and assets, and one fold for the routes.

- `Mention`, `mentions`: the class entries of the policies, in the order the loop meets them.
- `mergeAll`: the inner loops as one fold over the mentions.
- `QuietFrom`: no class comes again, except with custom routes and after the class named
  `scope`, which the loop takes for a scope.
- `mergeAll_spec`: the lists the fold gets through without writing to a class that is already
  there are the quiet ones.
-/

namespace Notifyr

open Theory

/-! ## The loop as one fold -/

/-- A class entry of the policy at a position. -/
structure Mention where
  policy : Nat
  className : String
  permission : RoutePermission

/-- The entries of one policy. -/
def mentionsOf (i : Nat) (entries : List (String × RoutePermission)) : List Mention :=
  entries.map fun kr => ⟨i, kr.1, kr.2⟩

/-- The entries of the policies, numbered from `i`. -/
def mentions : Nat → List PolicyORM → List Mention
  | _, [] => []
  | i, p :: ps => mentionsOf i p.allowedRoutes.entries ++ mentions (i + 1) ps

/-- The classes mentioned. -/
abbrev classes (E : List Mention) : List String := E.map (·.className)

theorem classes_append (E E' : List Mention) : classes (E ++ E') = classes E ++ classes E' :=
  List.map_append

/-- The inner loops of `get_combined_policies` on all policies. -/
def mergeAll (acc : Dict String RouteValue) (E : List Mention) : Py (Dict String RouteValue) :=
  E.foldlM (fun acc e => mergeRoute e.policy acc e.className e.permission) acc

theorem mergeAll_append (acc : Dict String RouteValue) (E E' : List Mention) :
    mergeAll acc (E ++ E') = (mergeAll acc E >>= fun acc => mergeAll acc E') :=
  List.foldlM_append

/-- A set accumulated over the policies. -/
def unionOf {α : Type} [BEq α] (f : PolicyORM → List α) (s : List α) (ps : List PolicyORM) :
    List α :=
  ps.foldl (fun s p => s ∪ f p) s

theorem mem_unionOf {α : Type} [BEq α] [LawfulBEq α] (f : PolicyORM → List α) (s : List α)
    (ps : List PolicyORM) (x : α) : x ∈ unionOf f s ps ↔ x ∈ s ∨ ∃ p ∈ ps, x ∈ f p := by
  induction ps generalizing s with
  | nil => simp [unionOf]
  | cons p rest ih =>
    have h : unionOf f s (p :: rest) = unionOf f (s ∪ f p) rest := rfl
    rw [h, ih, List.mem_union_iff]
    simp [or_assoc]

/-- The outer loop: one fold for the routes, plain unions for the rest. -/
theorem combine_eq (i : Nat) (ps : List PolicyORM) (st : Combined) :
    (ps.zipIdx i).foldlM mergePolicy st =
      (mergeAll st.allowedRoutes (mentions i ps)).map fun allowedRoutes =>
        { policies := st.policies
          roles := unionOf (·.roles) st.roles ps
          allowedAssets := unionOf (·.allowedAssets) st.allowedAssets ps
          allowedProfiles := unionOf (·.allowedProfiles) st.allowedProfiles ps
          allowedBlogs := unionOf (·.allowedBlogs) st.allowedBlogs ps
          allowedRoutes
          allowedAgents := unionOf (·.allowedAgents) st.allowedAgents ps } := by
  induction ps generalizing i st with
  | nil => rfl
  | cons p rest ih =>
    rw [List.zipIdx_cons, List.foldlM_cons, mentions, mergeAll_append]
    have hinner : p.allowedRoutes.entries.foldlM
        (fun acc kr => mergeRoute i acc kr.1 kr.2) st.allowedRoutes =
        mergeAll st.allowedRoutes (mentionsOf i p.allowedRoutes.entries) := by
      unfold mergeAll mentionsOf
      rw [List.foldlM_map]
    unfold mergePolicy
    simp only [hinner]
    cases mergeAll st.allowedRoutes (mentionsOf i p.allowedRoutes.entries) with
    | error e => rfl
    | ok acc => exact ih (i + 1) _

/-! ## What the fold does -/

/-- Classes `seen` before, the fold meets nothing that makes it write to a class that is
already there, and finds `scope` whenever it looks for it. -/
def QuietFrom : List String → List Mention → Prop
  | _, [] => True
  | seen, e :: E =>
    (e.className ∈ seen → e.permission.scope = .custom ∧ "scope" ∈ seen) ∧
      QuietFrom (seen ++ [e.className]) E

theorem quietFrom_append (seen : List String) (E E' : List Mention) :
    QuietFrom seen (E ++ E') ↔ QuietFrom seen E ∧ QuietFrom (seen ++ classes E) E' := by
  induction E generalizing seen with
  | nil => simp [QuietFrom]
  | cons e E ih =>
    simp only [List.cons_append, QuietFrom, ih, List.map_cons, and_assoc, List.append_assoc,
      List.nil_append]

/-- The first mention of a class. -/
def firstMention (E : List Mention) (k : String) : Option Mention :=
  E.find? fun e => e.className == k

/-- The accumulator refers, for each class, to its first mention. -/
def RefersToFirst (acc : Dict String RouteValue) (E : List Mention) : Prop :=
  ∀ k, acc.get? k = (firstMention E k).map fun e => .permission e.policy e.className

theorem firstMention_append (E E' : List Mention) (k : String) :
    firstMention (E ++ E') k = (firstMention E k).or (firstMention E' k) := List.find?_append

theorem firstMention_isSome (E : List Mention) (k : String) :
    (∃ e, firstMention E k = some e) ↔ k ∈ classes E := by
  unfold firstMention
  rw [← Option.isSome_iff_exists, List.find?_isSome, List.mem_map]
  simp

theorem firstMention_spec {E : List Mention} {k : String} {e : Mention}
    (h : firstMention E k = some e) : e ∈ E ∧ e.className = k :=
  ⟨List.mem_of_find?_eq_some h, by
    have hbeq := List.find?_some h
    exact eq_of_beq hbeq⟩

theorem RefersToFirst.mem_keys {acc : Dict String RouteValue} {E : List Mention}
    (h : RefersToFirst acc E) (k : String) : k ∈ acc.keys ↔ k ∈ classes E := by
  rw [Dict.mem_keys_iff, h k, ← firstMention_isSome]
  cases firstMention E k with
  | none => simp
  | some e => simp

theorem firstMention_singleton (e : Mention) (k : String) :
    firstMention [e] k = if k = e.className then some e else none := by
  by_cases h : k = e.className
  · subst h
    simp [firstMention]
  · simp [firstMention, h, Ne.symm h]

/-- Another mention of a class that is there changes no first mention. -/
theorem RefersToFirst.snoc_old {acc : Dict String RouteValue} {P : List Mention} {e : Mention}
    (h : RefersToFirst acc P) (he : e.className ∈ classes P) : RefersToFirst acc (P ++ [e]) := by
  intro k
  rw [h k, firstMention_append, firstMention_singleton]
  by_cases hke : k = e.className
  · subst hke
    obtain ⟨f, hf⟩ := (firstMention_isSome P e.className).mpr he
    rw [hf]
    rfl
  · rw [if_neg hke, Option.or_none]

/-- The first mention of a new class is the new one. -/
theorem RefersToFirst.snoc_new {acc : Dict String RouteValue} {P : List Mention} {e : Mention}
    (h : RefersToFirst acc P) (he : e.className ∉ classes P) :
    RefersToFirst (acc.set e.className (.permission e.policy e.className)) (P ++ [e]) := by
  intro k
  rw [Dict.get?_set, firstMention_append, firstMention_singleton]
  by_cases hke : k = e.className
  · have hnone : firstMention P k = none := by
      cases hf : firstMention P k with
      | none => rfl
      | some f => exact absurd ((firstMention_isSome P k).mp ⟨f, hf⟩) (hke ▸ he)
    rw [if_pos hke, if_pos hke, hnone]
    rfl
  · rw [if_neg hke, if_neg hke, h k, Option.or_none]

/-- A new class is entered as a reference. -/
theorem mergeRoute_new {acc : Dict String RouteValue} {k : String} (i : Nat)
    (r : RoutePermission) (h : k ∉ acc.keys) :
    mergeRoute i acc k r = .ok (acc.set k (.permission i k)) := by
  unfold mergeRoute
  rw [if_pos h]

/-- A class that is there: the step fails unless a class named `scope` is there too. -/
theorem mergeRoute_keyError {acc : Dict String RouteValue} {k : String} (i : Nat)
    (r : RoutePermission) (h : k ∈ acc.keys) (hscope : acc.get? "scope" = none) :
    mergeRoute i acc k r = .error .keyError := by
  unfold mergeRoute
  rw [if_neg (by simpa using h)]
  cases r.scope <;> simp [getItem, hscope, bind, Except.bind]

/-- A class that is there, with custom routes: nothing happens. -/
theorem mergeRoute_custom {acc : Dict String RouteValue} {k : String} {v : RouteValue} (i : Nat)
    {r : RoutePermission} (h : k ∈ acc.keys) (hr : r.scope = .custom)
    (hscope : acc.get? "scope" = some v) (hv : v ≠ .text "custom") :
    mergeRoute i acc k r = .ok acc := by
  unfold mergeRoute
  rw [if_neg (by simpa using h), hr]
  simp [getItem, hscope, bind, Except.bind, hv, pure, Except.pure]

/-- The accumulator has lost the class named `scope` to a scope. -/
def ScopeLost (acc : Dict String RouteValue) : Prop := acc.get? "scope" = some (.text "all")

/-- A class that is there, with scope `all`: the class named `scope` is lost. -/
theorem mergeRoute_all {acc : Dict String RouteValue} {k : String} (i : Nat)
    {r : RoutePermission} (h : k ∈ acc.keys) (hr : r.scope = .all) {acc' : Dict String RouteValue}
    (hok : mergeRoute i acc k r = .ok acc') : ScopeLost acc' := by
  unfold mergeRoute at hok
  rw [if_neg (by simpa using h), hr] at hok
  simp only [getItem] at hok
  cases hscope : acc.get? "scope" with
  | none =>
    rw [hscope] at hok
    cases hok
  | some v =>
    rw [hscope] at hok
    by_cases hv : v = .text "all"
    · subst hv
      cases hok
      exact hscope
    · have heq : (acc.set "scope" (.text "all")).set "custom_routes" (.routes []) = acc' := by
        simpa [bind, Except.bind, hv, pure, Except.pure] using hok
      rw [← heq]
      unfold ScopeLost
      rw [Dict.get?_set_ne _ _ (by decide), Dict.get?_set_self]

/-- What is lost stays lost. -/
theorem mergeRoute_scopeLost {acc acc' : Dict String RouteValue} {i : Nat} {k : String}
    {r : RoutePermission} (h : ScopeLost acc) (hok : mergeRoute i acc k r = .ok acc') :
    ScopeLost acc' := by
  by_cases hk : k ∈ acc.keys
  · cases hr : r.scope with
    | all => exact mergeRoute_all i hk hr hok
    | custom =>
      rw [mergeRoute_custom i hk hr h (by decide)] at hok
      cases hok
      exact h
  · rw [mergeRoute_new i r hk] at hok
    cases hok
    have hne : "scope" ≠ k := by
      rintro rfl
      exact hk ((Dict.mem_keys_iff acc "scope").mpr ⟨_, h⟩)
    unfold ScopeLost
    rw [Dict.get?_set_ne _ _ hne]
    exact h

theorem mergeAll_scopeLost (E : List Mention) {acc acc' : Dict String RouteValue}
    (h : ScopeLost acc) (hok : mergeAll acc E = .ok acc') : ScopeLost acc' := by
  induction E generalizing acc with
  | nil =>
    cases hok
    exact h
  | cons e E ih =>
    unfold mergeAll at hok
    rw [List.foldlM_cons] at hok
    cases hstep : mergeRoute e.policy acc e.className e.permission with
    | error err =>
      rw [hstep] at hok
      cases hok
    | ok mid =>
      rw [hstep] at hok
      exact ih (mergeRoute_scopeLost h hstep) hok

/-- **The fold.** On a quiet list it ends, and every class refers to its first mention. On any
other list, if it ends at all, the class named `scope`, which was mentioned, is lost. -/
theorem mergeAll_spec (E P : List Mention) (acc : Dict String RouteValue)
    (hacc : RefersToFirst acc P) :
    (QuietFrom (classes P) E ∧ ∃ acc', mergeAll acc E = .ok acc' ∧ RefersToFirst acc' (P ++ E)) ∨
      (¬ QuietFrom (classes P) E ∧
        ∀ acc', mergeAll acc E = .ok acc' → ScopeLost acc' ∧ "scope" ∈ classes (P ++ E)) := by
  induction E generalizing P acc with
  | nil => exact .inl ⟨trivial, acc, rfl, by simpa using hacc⟩
  | cons e E ih =>
    have hcons : mergeAll acc (e :: E) =
        (mergeRoute e.policy acc e.className e.permission >>= fun acc => mergeAll acc E) :=
      List.foldlM_cons
    rw [hcons]
    unfold QuietFrom
    have hih := fun acc₁ => ih (P ++ [e]) acc₁
    rw [List.append_assoc, List.singleton_append, classes_append] at hih
    by_cases hk : e.className ∈ classes P
    · have hkeys : e.className ∈ acc.keys := (hacc.mem_keys _).mpr hk
      by_cases hscope : "scope" ∈ classes P
      · obtain ⟨f, hf⟩ := (firstMention_isSome P "scope").mpr hscope
        have hget : acc.get? "scope" = some (.permission f.policy f.className) := by
          rw [hacc "scope", hf]
          rfl
        cases hr : e.permission.scope with
        | custom =>
          rw [mergeRoute_custom _ hkeys hr hget (by simp)]
          -- nothing is written, so the first mentions are the same
          rcases hih acc (hacc.snoc_old hk) with ⟨hq, hok⟩ | ⟨hq, hlost⟩
          · exact .inl ⟨⟨fun _ => ⟨rfl, hscope⟩, hq⟩, hok⟩
          · exact .inr ⟨fun h => hq h.2, hlost⟩
        | all =>
          -- the scope is written over the class of that name, and nothing brings it back
          refine .inr ⟨fun h => (nomatch (h.1 hk).1), fun acc' hok => ⟨?_, ?_⟩⟩
          · cases hstep : mergeRoute e.policy acc e.className e.permission with
            | error err =>
              rw [hstep] at hok
              cases hok
            | ok acc₁ =>
              rw [hstep] at hok
              exact mergeAll_scopeLost E (mergeRoute_all _ hkeys hr hstep) hok
          · rw [classes_append]
            exact List.mem_append_left _ hscope
      · -- the loop looks for the scope under the name `scope`, which is no class
        have hnone : acc.get? "scope" = none := by
          rw [← Dict.not_mem_keys_iff, hacc.mem_keys]
          exact hscope
        rw [mergeRoute_keyError _ _ hkeys hnone]
        exact .inr ⟨fun h => hscope (h.1 hk).2, fun acc' hok => nomatch hok⟩
    · have hkeys : e.className ∉ acc.keys := fun h => hk ((hacc.mem_keys _).mp h)
      rw [mergeRoute_new _ _ hkeys]
      -- the class is new, and this is its first mention
      rcases hih _ (hacc.snoc_new hk) with ⟨hq, hok⟩ | ⟨hq, hlost⟩
      · exact .inl ⟨⟨fun h => absurd h hk, hq⟩, hok⟩
      · exact .inr ⟨fun h => hq h.2, hlost⟩

end Notifyr
