import Notifyr.Auth.Merge

/-!
# What combined policies grant

A combination is right if it grants exactly what the policies mapped to the client or to its
group grant, whatever the order of the mapping rows.

- `FirstWins`, `routesExact_iff`: when the fold's result grants what the policies grant.
- `Compatible`: two policies that may come in either order.
- `CombinesExactly`, `combinesExactly_iff`: the property and when it holds.
-/

namespace Notifyr

open Theory

/-! ## What the result grants -/

/-- A mention is an entry of the policy it names. -/
theorem mem_mentions {i : Nat} {ps : List PolicyORM} {e : Mention} (h : e ∈ mentions i ps) :
    ∃ j p, e.policy = i + j ∧ ps[j]? = some p ∧
      p.allowedRoutes.get? e.className = some e.permission := by
  induction ps generalizing i with
  | nil => cases h
  | cons p rest ih =>
    rcases List.mem_append.mp h with h | h
    · obtain ⟨kr, hkr, rfl⟩ := List.mem_map.mp h
      exact ⟨0, p, rfl, rfl, (Dict.mem_entries_iff _ _ _).mp hkr⟩
    · obtain ⟨j, q, hj, hq, hget⟩ := ih h
      exact ⟨j + 1, q, by omega, hq, hget⟩

/-- Every entry of every policy is mentioned. -/
theorem exists_mention (i : Nat) {ps : List PolicyORM} {p : PolicyORM} (hp : p ∈ ps) {k : String}
    {r : RoutePermission} (h : p.allowedRoutes.get? k = some r) :
    ∃ e ∈ mentions i ps, e.className = k ∧ e.permission = r := by
  induction ps generalizing i with
  | nil => cases hp
  | cons q rest ih =>
    rcases List.mem_cons.mp hp with rfl | hp
    · have hmem : (k, r) ∈ p.allowedRoutes.entries := (Dict.mem_entries_iff _ _ _).mpr h
      exact ⟨⟨i, k, r⟩, List.mem_append_left _ (List.mem_map.mpr ⟨(k, r), hmem, rfl⟩), rfl, rfl⟩
    · obtain ⟨e, he, hk⟩ := ih (i + 1) hp
      exact ⟨e, List.mem_append_right _ he, hk⟩

/-- What the policies grant, in terms of their mentions. -/
theorem exists_grants_iff (ps : List PolicyORM) (className operationId : String) :
    (∃ p ∈ ps, p.Grants className operationId) ↔
      ∃ e ∈ mentions 0 ps, e.className = className ∧ e.permission.Allows operationId := by
  constructor
  · rintro ⟨p, hp, r, hr, hop⟩
    obtain ⟨e, he, hk, rfl⟩ := exists_mention 0 hp hr
    exact ⟨e, he, hk, hop⟩
  · rintro ⟨e, he, rfl, hop⟩
    obtain ⟨j, p, -, hp, hget⟩ := mem_mentions he
    exact ⟨p, List.mem_of_getElem? hp, e.permission, hget, hop⟩

/-- A class that refers to its first mention grants what that mention allows. -/
theorem grants_iff_firstMention {auth : Combined}
    (h : RefersToFirst auth.allowedRoutes (mentions 0 auth.policies))
    (className operationId : String) :
    auth.Grants className operationId ↔
      ∃ e, firstMention (mentions 0 auth.policies) className = some e ∧
        e.permission.Allows operationId := by
  unfold Combined.Grants routeAllowed
  rw [h className]
  cases hf : firstMention (mentions 0 auth.policies) className with
  | none => simp
  | some e =>
    obtain ⟨hmem, rfl⟩ := firstMention_spec hf
    obtain ⟨j, p, hj, hp, hget⟩ := mem_mentions hmem
    have hj : e.policy = j := by omega
    simp only [Option.map_some, hj, hp, Option.bind_some, hget, Option.some.injEq,
      exists_eq_left']
    unfold RoutePermission.Allows
    by_cases hall : e.permission.scope = .all
    · simp [hall]
    · by_cases hop : operationId ∈ e.permission.customRoutes
      · simp [hall, hop]
      · simp [hall, hop]

/-- The first mention of a class allows what any mention of it allows. -/
def FirstWins (E : List Mention) : Prop :=
  ∀ e ∈ E, ∀ op, e.permission.Allows op →
    ∃ f, firstMention E e.className = some f ∧ f.permission.Allows op

/-- The routes of a result are exact if and only if the fold was quiet and first mentions
win. -/
theorem routesExact_iff (ps : List PolicyORM) :
    (∃ acc, mergeAll .empty (mentions 0 ps) = .ok acc ∧
      ∀ auth : Combined, auth.policies = ps → auth.allowedRoutes = acc →
        ∀ cls op, auth.Grants cls op ↔ ∃ p ∈ ps, p.Grants cls op) ↔
      QuietFrom [] (mentions 0 ps) ∧ FirstWins (mentions 0 ps) := by
  have hempty : RefersToFirst .empty [] := fun k => rfl
  rcases mergeAll_spec (mentions 0 ps) [] .empty hempty with ⟨hq, acc, hok, hacc⟩ | ⟨hq, hlost⟩
  · rw [List.nil_append] at hacc
    constructor
    · rintro ⟨acc', hok', hgr⟩
      refine ⟨hq, fun e he op hop => ?_⟩
      have heq : acc' = acc := by
        rw [hok] at hok'
        exact (Except.ok.inj hok').symm
      subst heq
      let auth : Combined := ⟨ps, [], [], [], [], acc', []⟩
      have hgrant : auth.Grants e.className op := (hgr auth rfl rfl _ _).mpr
        ((exists_grants_iff ps _ _).mpr ⟨e, he, rfl, hop⟩)
      have hacc : RefersToFirst auth.allowedRoutes (mentions 0 auth.policies) := hacc
      exact (grants_iff_firstMention hacc _ _).mp hgrant
    · rintro ⟨-, hfirst⟩
      refine ⟨acc, hok, ?_⟩
      rintro auth rfl rfl cls op
      rw [grants_iff_firstMention hacc, exists_grants_iff]
      constructor
      · rintro ⟨e, he, hop⟩
        obtain ⟨hmem, hcls⟩ := firstMention_spec he
        exact ⟨e, hmem, hcls, hop⟩
      · rintro ⟨e, hmem, rfl, hop⟩
        exact hfirst e hmem op hop
  · constructor
    · rintro ⟨acc, hok, hgr⟩
      -- `scope` was a class some policy grants, and is no longer readable as a permission
      obtain ⟨hscope, hmem⟩ := hlost acc hok
      obtain ⟨e, he, hcls⟩ := List.mem_map.mp hmem
      obtain ⟨op, hop⟩ := e.permission.exists_allows
      let auth : Combined := ⟨ps, [], [], [], [], acc, []⟩
      have hgrant : auth.Grants "scope" op := (hgr auth rfl rfl _ _).mpr
        ((exists_grants_iff ps _ _).mpr ⟨e, he, hcls, hop⟩)
      unfold Combined.Grants routeAllowed at hgrant
      rw [show auth.allowedRoutes.get? "scope" = some (.text "all") from hscope] at hgrant
      cases hgrant
    · rintro ⟨h, -⟩
      exact absurd h hq

/-! ## Every order of the policies -/

/-- The keys before `k`. -/
def keysBefore (p : PolicyORM) (k : String) : List String :=
  p.allowedRoutes.keys.takeWhile (· ≠ k)

/-- `q` may follow `p`: on a class they share both have the same custom routes, and a class
named `scope` has come up, in `p` or earlier in `q`. -/
def MayFollow (p q : PolicyORM) : Prop :=
  ∀ k r r', p.allowedRoutes.get? k = some r → q.allowedRoutes.get? k = some r' →
    r.scope = .custom ∧ r'.scope = .custom ∧
      (∀ op, op ∈ r.customRoutes ↔ op ∈ r'.customRoutes) ∧
      ("scope" ∈ p.allowedRoutes.keys ∨ "scope" ∈ keysBefore q k)

/-- Two policies in either order. -/
def Compatible (p q : PolicyORM) : Prop := MayFollow p q ∧ MayFollow q p

theorem Compatible.symm {p q : PolicyORM} (h : Compatible p q) : Compatible q p := ⟨h.2, h.1⟩

theorem takeWhile_ne_append {α : Type} [DecidableEq α] (l₁ l₂ : List α) {k : α} (h : k ∉ l₁) :
    (l₁ ++ k :: l₂).takeWhile (· ≠ k) = l₁ := by
  rw [List.takeWhile_append_of_pos]
  · simp
  · intro x hx
    have hxk : x ≠ k := by
      rintro rfl
      exact h hx
    simpa using hxk

/-- The keys before an entry. -/
theorem keysBefore_eq {p : PolicyORM} {l₁ l₂ : List (String × RoutePermission)} {k : String}
    {r : RoutePermission} (h : p.allowedRoutes.entries = l₁ ++ (k, r) :: l₂) :
    keysBefore p k = l₁.map Prod.fst ∧ k ∉ l₁.map Prod.fst := by
  have hnd := p.allowedRoutes.nodup
  rw [h, List.map_append, List.map_cons] at hnd
  have hnot : k ∉ l₁.map Prod.fst := by
    intro hk
    exact (List.nodup_append.mp hnd).2.2 k hk k List.mem_cons_self rfl
  refine ⟨?_, hnot⟩
  unfold keysBefore Dict.keys
  rw [h, List.map_append, List.map_cons]
  exact takeWhile_ne_append _ _ hnot

/-- One policy goes quietly after classes `seen` if each of its classes that was seen is fit
for it. -/
theorem quietFrom_mentionsOf {p : PolicyORM} (i : Nat) (seen : List String)
    (h : ∀ k r, p.allowedRoutes.get? k = some r → k ∈ seen →
      r.scope = .custom ∧ ("scope" ∈ seen ∨ "scope" ∈ keysBefore p k)) :
    QuietFrom seen (mentionsOf i p.allowedRoutes.entries) := by
  -- `done` are the entries the fold has already been through
  have hgen : ∀ todo done, p.allowedRoutes.entries = done ++ todo →
      QuietFrom (seen ++ done.map Prod.fst) (mentionsOf i todo) := by
    intro todo
    induction todo with
    | nil => exact fun _ _ => trivial
    | cons kr todo ih =>
      obtain ⟨k, r⟩ := kr
      intro done hsplit
      obtain ⟨hbefore, hnot⟩ := keysBefore_eq hsplit
      refine ⟨fun hk => ?_, ?_⟩
      · have hseen : k ∈ seen := by
          rcases List.mem_append.mp hk with hk | hk
          · exact hk
          · exact absurd hk hnot
        have hget : p.allowedRoutes.get? k = some r := by
          rw [← Dict.mem_entries_iff, hsplit]
          exact List.mem_append_right _ List.mem_cons_self
        obtain ⟨hr, hscope⟩ := h k r hget hseen
        refine ⟨hr, List.mem_append.mpr ?_⟩
        rw [hbefore] at hscope
        exact hscope
      · have hnext := ih (done ++ [(k, r)]) (by rw [hsplit, List.append_assoc]; rfl)
        rw [List.map_append, ← List.append_assoc] at hnext
        exact hnext
  have := hgen p.allowedRoutes.entries [] rfl
  rwa [List.map_nil, List.append_nil] at this

theorem classes_mentionsOf (i : Nat) (p : PolicyORM) :
    classes (mentionsOf i p.allowedRoutes.entries) = p.allowedRoutes.keys := by
  unfold classes mentionsOf Dict.keys
  rw [List.map_map]
  rfl

/-- Pairwise compatible policies go quietly after compatible ones. -/
theorem quietFrom_of_pairwise (i : Nat) (before ps : List PolicyORM) (seen : List String)
    (hseen : ∀ k, k ∈ seen ↔ ∃ p ∈ before, k ∈ p.allowedRoutes.keys)
    (hbefore : ∀ p ∈ before, ∀ q ∈ ps, MayFollow p q) (hps : ps.Pairwise Compatible) :
    QuietFrom seen (mentions i ps) := by
  induction ps generalizing i before seen with
  | nil => exact trivial
  | cons q rest ih =>
    obtain ⟨hq, hrest⟩ := List.pairwise_cons.mp hps
    rw [mentions, quietFrom_append, classes_mentionsOf]
    constructor
    · refine quietFrom_mentionsOf i seen fun k r' hget hk => ?_
      obtain ⟨p, hp, hkp⟩ := (hseen k).mp hk
      obtain ⟨r, hr⟩ := (Dict.mem_keys_iff _ _).mp hkp
      obtain ⟨-, hr', -, hscope⟩ := hbefore p hp q List.mem_cons_self k r r' hr hget
      refine ⟨hr', ?_⟩
      rcases hscope with h | h
      · exact .inl ((hseen "scope").mpr ⟨p, hp, h⟩)
      · exact .inr h
    · refine ih (i + 1) (before ++ [q]) _ ?_ ?_ hrest
      · intro k
        rw [List.mem_append, hseen]
        constructor
        · rintro (⟨p, hp, hk⟩ | hk)
          · exact ⟨p, List.mem_append_left _ hp, hk⟩
          · exact ⟨q, List.mem_append_right _ (List.mem_singleton.mpr rfl), hk⟩
        · rintro ⟨p, hp, hk⟩
          rcases List.mem_append.mp hp with hp | hp
          · exact .inl ⟨p, hp, hk⟩
          · exact .inr (List.mem_singleton.mp hp ▸ hk)
      · intro p hp p' hp'
        rcases List.mem_append.mp hp with hp | hp
        · exact hbefore p hp p' (List.mem_cons_of_mem _ hp')
        · rw [List.mem_singleton.mp hp]
          exact (hq p' hp').1

/-- Mentions of one class by pairwise compatible policies allow the same. -/
theorem allows_of_pairwise {i : Nat} {ps : List PolicyORM} (hps : ps.Pairwise Compatible)
    {e f : Mention} (he : e ∈ mentions i ps) (hf : f ∈ mentions i ps)
    (hcls : e.className = f.className) {op : String} (hop : e.permission.Allows op) :
    f.permission.Allows op := by
  induction ps generalizing i with
  | nil => cases he
  | cons p rest ih =>
    obtain ⟨hp, hrest⟩ := List.pairwise_cons.mp hps
    -- two mentions by different policies
    have hcross : ∀ {e f : Mention}, e ∈ mentionsOf i p.allowedRoutes.entries →
        f ∈ mentions (i + 1) rest → e.className = f.className →
        (e.permission.Allows op ↔ f.permission.Allows op) := by
      intro e f he hf hcls
      obtain ⟨kr, hkr, rfl⟩ := List.mem_map.mp he
      obtain ⟨j, q, -, hq, hget⟩ := mem_mentions hf
      have hpk : p.allowedRoutes.get? kr.1 = some kr.2 := (Dict.mem_entries_iff _ _ _).mp hkr
      have hqk : q.allowedRoutes.get? kr.1 = some f.permission := by
        rw [show kr.1 = f.className from hcls]
        exact hget
      obtain ⟨hr, hr', hsame, -⟩ :=
        (hp q (List.mem_of_getElem? hq)).1 kr.1 kr.2 f.permission hpk hqk
      unfold RoutePermission.Allows
      simp [hr, hr', hsame]
    rcases List.mem_append.mp he with he | he
    · rcases List.mem_append.mp hf with hf | hf
      · obtain ⟨kr, hkr, rfl⟩ := List.mem_map.mp he
        obtain ⟨kr', hkr', rfl⟩ := List.mem_map.mp hf
        have hsame : some kr.2 = some kr'.2 := by
          rw [← (Dict.mem_entries_iff p.allowedRoutes _ _).mp hkr,
            ← (Dict.mem_entries_iff p.allowedRoutes _ _).mp hkr']
          exact congrArg _ hcls
        rw [← Option.some.inj hsame]
        exact hop
      · exact (hcross he hf hcls).mp hop
    · rcases List.mem_append.mp hf with hf | hf
      · exact (hcross hf he hcls.symm).mpr hop
      · exact ih hrest he hf

/-- Pairwise compatible policies combine exactly. -/
theorem quiet_and_firstWins {ps : List PolicyORM} (hps : ps.Pairwise Compatible) :
    QuietFrom [] (mentions 0 ps) ∧ FirstWins (mentions 0 ps) := by
  constructor
  · exact quietFrom_of_pairwise 0 [] ps [] (by simp) (fun p hp => nomatch hp) hps
  · intro e he op hop
    have hin : e.className ∈ classes (mentions 0 ps) := List.mem_map.mpr ⟨e, he, rfl⟩
    obtain ⟨f, hf⟩ := (firstMention_isSome _ _).mpr hin
    obtain ⟨hmem, hcls⟩ := firstMention_spec hf
    exact ⟨f, hf, allows_of_pairwise hps he hmem hcls.symm hop⟩

/-- What the second of two policies shows about a class they share. -/
theorem second_of_quiet {p q : PolicyORM} {rest : List PolicyORM}
    (hq : QuietFrom [] (mentions 0 (p :: q :: rest))) (hf : FirstWins (mentions 0 (p :: q :: rest)))
    {k : String} {r r' : RoutePermission} (hr : p.allowedRoutes.get? k = some r)
    (hr' : q.allowedRoutes.get? k = some r') :
    r'.scope = .custom ∧ ("scope" ∈ p.allowedRoutes.keys ∨ "scope" ∈ keysBefore q k) ∧
      ∀ op, r'.Allows op → r.Allows op := by
  have hkp : k ∈ p.allowedRoutes.keys := (Dict.mem_keys_iff _ _).mpr ⟨r, hr⟩
  have hmem : (k, r') ∈ q.allowedRoutes.entries := (Dict.mem_entries_iff _ _ _).mpr hr'
  obtain ⟨l₁, l₂, hsplit⟩ := List.append_of_mem hmem
  have hquiet : QuietFrom (p.allowedRoutes.keys ++ l₁.map Prod.fst)
      (mentionsOf 1 ((k, r') :: l₂)) := by
    rw [mentions, mentions, quietFrom_append, quietFrom_append, classes_mentionsOf, hsplit] at hq
    have hq := hq.2.1
    unfold mentionsOf at hq
    rw [List.map_append, quietFrom_append] at hq
    have hcls : classes (l₁.map fun kr => (⟨0 + 1, kr.1, kr.2⟩ : Mention)) = l₁.map Prod.fst := by
      unfold classes
      rw [List.map_map]
      rfl
    rw [hcls, List.nil_append] at hq
    exact hq.2
  obtain ⟨hscope, hseen⟩ := hquiet.1 (List.mem_append_left _ hkp)
  refine ⟨hscope, ?_, fun op hop => ?_⟩
  · rw [(keysBefore_eq hsplit).1]
    exact List.mem_append.mp hseen
  · have he : (⟨1, k, r'⟩ : Mention) ∈ mentions 0 (p :: q :: rest) :=
      List.mem_append_right _ (List.mem_append_left _ (List.mem_map.mpr ⟨(k, r'), hmem, rfl⟩))
    obtain ⟨f, hfirst, hallow⟩ := hf _ he op hop
    -- the first mention of `k` is the one in `p`
    rw [mentions, firstMention_append] at hfirst
    have hin : k ∈ classes (mentionsOf 0 p.allowedRoutes.entries) := by
      rw [classes_mentionsOf]
      exact hkp
    obtain ⟨g, hg⟩ := (firstMention_isSome _ _).mpr hin
    obtain ⟨hgmem, hgk⟩ := firstMention_spec hg
    rw [hg] at hfirst
    have hgf : g = f := Option.some.inj hfirst
    subst hgf
    obtain ⟨kr, hkr, rfl⟩ := List.mem_map.mp hgmem
    have hget := (Dict.mem_entries_iff _ _ _).mp hkr
    rw [show kr.1 = k from hgk, hr] at hget
    rw [Option.some.inj hget]
    exact hallow

/-- Two policies that combine exactly in both orders, whatever follows them, are compatible. -/
theorem compatible_of_quiet {p q : PolicyORM} {rest rest' : List PolicyORM}
    (h : QuietFrom [] (mentions 0 (p :: q :: rest)) ∧ FirstWins (mentions 0 (p :: q :: rest)))
    (h' : QuietFrom [] (mentions 0 (q :: p :: rest')) ∧
      FirstWins (mentions 0 (q :: p :: rest'))) : Compatible p q := by
  have hboth : ∀ k r r', p.allowedRoutes.get? k = some r → q.allowedRoutes.get? k = some r' →
      r.scope = .custom ∧ r'.scope = .custom ∧
        (∀ op, op ∈ r.customRoutes ↔ op ∈ r'.customRoutes) ∧
        ("scope" ∈ p.allowedRoutes.keys ∨ "scope" ∈ keysBefore q k) ∧
        ("scope" ∈ q.allowedRoutes.keys ∨ "scope" ∈ keysBefore p k) := by
    intro k r r' hr hr'
    -- each order tells about the policy that comes second in it
    obtain ⟨hs', hq, hsub⟩ := second_of_quiet h.1 h.2 hr hr'
    obtain ⟨hs, hp, hsub'⟩ := second_of_quiet h'.1 h'.2 hr' hr
    refine ⟨hs, hs', fun op => ?_, hq, hp⟩
    unfold RoutePermission.Allows at hsub hsub'
    have h₁ := hsub op
    have h₂ := hsub' op
    simp only [hs, hs', reduceCtorEq, false_or] at h₁ h₂
    exact ⟨h₂, h₁⟩
  constructor
  · intro k r r' hr hr'
    obtain ⟨hs, hs', hsame, hscope, -⟩ := hboth k r r' hr hr'
    exact ⟨hs, hs', hsame, hscope⟩
  · intro k r' r hr' hr
    obtain ⟨hs, hs', hsame, -, hscope⟩ := hboth k r r' hr hr'
    exact ⟨hs', hs, fun op => (hsame op).symm, hscope⟩

/-! ## The property -/

/-- The policies mapped to a client or to its group. -/
def mappedPolicies (table : List PolicyMappingORM) (client : ClientRef) : List PolicyORM :=
  (table.filter fun m => m.clientId = some client.clientId ∨
    (m.groupId ≠ none ∧ m.groupId = client.group)).map (·.policy)

/-- A result stands for exactly these policies. -/
structure ExactFor (out : Combined) (ps : List PolicyORM) : Prop where
  routes : ∀ cls op, out.Grants cls op ↔ ∃ p ∈ ps, p.Grants cls op
  roles : ∀ x, x ∈ out.roles ↔ ∃ p ∈ ps, x ∈ p.roles
  profiles : ∀ x, x ∈ out.allowedProfiles ↔ ∃ p ∈ ps, x ∈ p.allowedProfiles
  agents : ∀ x, x ∈ out.allowedAgents ↔ ∃ p ∈ ps, x ∈ p.allowedAgents
  blogs : ∀ x, x ∈ out.allowedBlogs ↔ ∃ p ∈ ps, x ∈ p.allowedBlogs
  assets : ∀ path, Covers '/' out.allowedAssets path ↔ ∃ p ∈ ps, Covers '/' p.allowedAssets path

/-- The call returns, its result stands for the policies mapped to the client or its group, and
the policy objects are as they were loaded. -/
def CombinesExactly (order : SetOrder) (table : List PolicyMappingORM) (client : ClientRef) :
    Prop :=
  ∃ out, getCombinedPolicies order table client = .ok out ∧
    ExactFor out (mappedPolicies table client) ∧ out.policies = loadedPolicies table client

/-- A policy that allows nothing. -/
structure PolicyORM.Void (p : PolicyORM) : Prop where
  routes : p.allowedRoutes.entries = []
  roles : p.roles = []
  profiles : p.allowedProfiles = []
  agents : p.allowedAgents = []
  blogs : p.allowedBlogs = []
  assets : p.allowedAssets = []

/-- A client without a group needs compatible policies; a client in a group gets no policy at
all, which is right only if there is nothing to get. -/
def Combinable (table : List PolicyMappingORM) (client : ClientRef) : Prop :=
  match client.group with
  | none => (mappedPolicies table client).Pairwise Compatible
  | some _ => ∀ p ∈ mappedPolicies table client, p.Void

theorem getCombinedPolicies_eq (order : SetOrder) (table : List PolicyMappingORM)
    (client : ClientRef) :
    getCombinedPolicies order table client =
      (mergeAll .empty (mentions 0 (loadedPolicies table client))).map fun allowedRoutes =>
        let ps := loadedPolicies table client
        { policies := ps
          roles := order.enum (unionOf (·.roles) [] ps)
          allowedAssets := filterPaths (order.enum (unionOf (·.allowedAssets) [] ps)) '/'
          allowedProfiles := order.enum (unionOf (·.allowedProfiles) [] ps)
          allowedBlogs := order.enum (unionOf (·.allowedBlogs) [] ps)
          allowedRoutes
          allowedAgents := order.enum (unionOf (·.allowedAgents) [] ps) } := by
  unfold getCombinedPolicies
  simp only [combine_eq]
  cases mergeAll .empty (mentions 0 (loadedPolicies table client)) with
  | error e => rfl
  | ok acc => rfl

theorem covers_union (order : SetOrder) (ps : List PolicyORM) (path : String) :
    Covers '/' (filterPaths (order.enum (unionOf (·.allowedAssets) [] ps)) '/') path ↔
      ∃ p ∈ ps, Covers '/' p.allowedAssets path := by
  rw [covers_filterPaths, Covers.of_perm (order.mem_enum _)]
  unfold Covers
  simp only [mem_unionOf, List.not_mem_nil, false_or]
  constructor
  · rintro (⟨p, hp, h⟩ | ⟨d, ⟨p, hp, h⟩, hd⟩)
    · exact ⟨p, hp, .inl h⟩
    · exact ⟨p, hp, .inr ⟨d, h, hd⟩⟩
  · rintro ⟨p, hp, h | ⟨d, h, hd⟩⟩
    · exact .inl ⟨p, hp, h⟩
    · exact .inr ⟨d, ⟨p, hp, h⟩, hd⟩

/-- The result is exact for the loaded policies if and only if its routes are. -/
theorem exactFor_loaded_iff (order : SetOrder) (table : List PolicyMappingORM)
    (client : ClientRef) :
    (∃ out, getCombinedPolicies order table client = .ok out ∧
      ExactFor out (loadedPolicies table client) ∧ out.policies = loadedPolicies table client) ↔
      QuietFrom [] (mentions 0 (loadedPolicies table client)) ∧
        FirstWins (mentions 0 (loadedPolicies table client)) := by
  rw [← routesExact_iff, getCombinedPolicies_eq]
  generalize loadedPolicies table client = ps
  constructor
  · rintro ⟨out, hout, hexact, hps⟩
    cases hmerge : mergeAll .empty (mentions 0 ps) with
    | error e =>
      rw [hmerge] at hout
      cases hout
    | ok acc =>
      rw [hmerge] at hout
      refine ⟨acc, rfl, ?_⟩
      intro auth hauth hroutes cls op
      rw [← hexact.routes]
      have hsame : out.policies = auth.policies ∧ out.allowedRoutes = auth.allowedRoutes := by
        cases hout
        exact ⟨hauth.symm, hroutes.symm⟩
      unfold Combined.Grants routeAllowed
      rw [hsame.1, hsame.2]
  · rintro ⟨acc, hok, hgr⟩
    rw [hok]
    refine ⟨_, rfl, ⟨hgr _ rfl rfl, ?_, ?_, ?_, ?_, covers_union order ps⟩, rfl⟩
    all_goals
      intro x
      simp [mem_unionOf]

/-- For a client without a group, the rows the query selects are the rows mapped to it. -/
theorem loaded_eq_mapped (table : List PolicyMappingORM) {client : ClientRef}
    (h : client.group = none) : loadedPolicies table client = mappedPolicies table client := by
  unfold loadedPolicies mappedPolicies filterMapping
  rw [h]
  congr 1
  -- a row with this client has no group, and the client has none either
  refine List.filter_congr fun m _ => ?_
  rcases m.client_xor_group with ⟨hc, hg⟩ | ⟨hc, hg⟩
  · simp [hg]
  · simp [hc, hg]

/-- For a client in a group, no row passes the query: a row never has both a client and a
group. -/
theorem loaded_eq_nil (table : List PolicyMappingORM) {client : ClientRef} {g : String}
    (h : client.group = some g) : loadedPolicies table client = [] := by
  unfold loadedPolicies filterMapping
  rw [h, List.map_eq_nil_iff, List.filter_eq_nil_iff]
  intro m _
  rcases m.client_xor_group with ⟨hc, hg⟩ | ⟨hc, hg⟩
  · simp [hg]
  · simp [hc]

/-- A selection of rows in any order is the selection of a reordered table. -/
theorem exists_table {f : PolicyMappingORM → Bool} {table rows : List PolicyMappingORM}
    (h : rows.Perm (table.filter f)) :
    ∃ table' : List PolicyMappingORM, table'.Perm table ∧ table'.filter f = rows := by
  -- the selected rows first, then the others as they were
  refine ⟨rows ++ table.filter (fun m => !f m), ?_, ?_⟩
  · exact (h.append_right _).trans (List.filter_append_perm f table)
  · have hrows : rows.filter f = rows :=
      List.filter_eq_self.mpr fun m hm => (List.mem_filter.mp (h.mem_iff.mp hm)).2
    have hrest : (table.filter fun m => !f m).filter f = [] := by
      rw [List.filter_eq_nil_iff]
      intro m hm
      simpa using (List.mem_filter.mp hm).2
    rw [List.filter_append, hrows, hrest, List.append_nil]

theorem mappedPolicies_perm {table table' : List PolicyMappingORM} (client : ClientRef)
    (h : table'.Perm table) : (mappedPolicies table' client).Perm (mappedPolicies table client) :=
  (h.filter _).map _

/-- Any two of the mapped policies can come first, in either order. -/
theorem exists_order {table : List PolicyMappingORM} {client : ClientRef} {p q : PolicyORM}
    (h : List.Sublist [p, q] (mappedPolicies table client)) :
    ∃ rest, ∃ table₁ table₂ : List PolicyMappingORM, table₁.Perm table ∧ table₂.Perm table ∧
      mappedPolicies table₁ client = p :: q :: rest ∧
      mappedPolicies table₂ client = q :: p :: rest := by
  unfold mappedPolicies at *
  obtain ⟨pair, hsub, hpair⟩ := List.sublist_map_iff.mp h
  obtain ⟨rest, hperm⟩ := hsub.exists_perm_append
  match pair, hpair with
  | [m, m'], hpair =>
    obtain ⟨rfl, rfl⟩ : p = m.policy ∧ q = m'.policy := by simpa using hpair
    obtain ⟨table₁, h₁, hf₁⟩ := exists_table hperm.symm
    obtain ⟨table₂, h₂, hf₂⟩ := exists_table ((List.Perm.swap m m' rest).trans hperm.symm)
    exact ⟨rest.map (·.policy), table₁, table₂, h₁, h₂, by rw [hf₁]; rfl, by rw [hf₂]; rfl⟩

/-- A union is empty exactly if all its parts are. -/
theorem enum_nil_iff (order : SetOrder) (ps : List PolicyORM) {α : Type}
    (f : PolicyORM → List α) :
    (∀ x, x ∈ order.enum [] ↔ ∃ p ∈ ps, x ∈ f p) ↔ ∀ p ∈ ps, f p = [] := by
  simp only [order.mem_enum, List.not_mem_nil, false_iff]
  constructor
  · intro h p hp
    exact List.eq_nil_iff_forall_not_mem.mpr fun x hx => h x ⟨p, hp, hx⟩
  · rintro h x ⟨p, hp, hx⟩
    rw [h p hp] at hx
    cases hx

/-- Nothing at all is exact for policies that allow nothing, and for no others. -/
theorem exactFor_nothing_iff (order : SetOrder) (ps : List PolicyORM) {out : Combined}
    (hroles : out.roles = order.enum []) (hprofiles : out.allowedProfiles = order.enum [])
    (hagents : out.allowedAgents = order.enum []) (hblogs : out.allowedBlogs = order.enum [])
    (hassets : out.allowedAssets = filterPaths (order.enum []) '/')
    (hroutes : out.allowedRoutes = .empty) : ExactFor out ps ↔ ∀ p ∈ ps, p.Void := by
  have hgrants : ∀ cls op, ¬ out.Grants cls op := by
    intro cls op h
    unfold Combined.Grants routeAllowed at h
    rw [hroutes] at h
    cases h
  have hcovers : ∀ path, ¬ Covers '/' out.allowedAssets path := by
    intro path h
    rw [hassets, covers_filterPaths, Covers.of_perm (order.mem_enum _)] at h
    rcases h with h | ⟨d, h, -⟩
    · cases h
    · cases h
  have hunion : ∀ {α : Type} (l : List α) (f : PolicyORM → List α), l = order.enum [] →
      ((∀ x, x ∈ l ↔ ∃ p ∈ ps, x ∈ f p) ↔ ∀ p ∈ ps, f p = []) := by
    rintro α l f rfl
    exact enum_nil_iff order ps f
  constructor
  · intro h p hp
    refine ⟨?_, (hunion _ _ hroles).mp h.roles p hp, (hunion _ _ hprofiles).mp h.profiles p hp,
      (hunion _ _ hagents).mp h.agents p hp, (hunion _ _ hblogs).mp h.blogs p hp, ?_⟩
    · refine List.eq_nil_iff_forall_not_mem.mpr fun kr hkr => ?_
      obtain ⟨op, hop⟩ := kr.2.exists_allows
      exact hgrants kr.1 op
        ((h.routes kr.1 op).mpr ⟨p, hp, kr.2, (Dict.mem_entries_iff _ _ _).mp hkr, hop⟩)
    · refine List.eq_nil_iff_forall_not_mem.mpr fun path hpath => ?_
      exact hcovers path ((h.assets path).mpr ⟨p, hp, .inr ⟨path, hpath, .inl rfl⟩⟩)
  · intro h
    refine ⟨fun cls op => ?_, (hunion _ _ hroles).mpr fun p hp => (h p hp).roles,
      (hunion _ _ hprofiles).mpr fun p hp => (h p hp).profiles,
      (hunion _ _ hagents).mpr fun p hp => (h p hp).agents,
      (hunion _ _ hblogs).mpr fun p hp => (h p hp).blogs, fun path => ?_⟩
    · refine iff_of_false (hgrants cls op) ?_
      rintro ⟨p, hp, r, hr, -⟩
      have hmem := (Dict.mem_entries_iff _ _ _).mpr hr
      rw [(h p hp).routes] at hmem
      cases hmem
    · refine iff_of_false (hcovers path) ?_
      rintro ⟨p, hp, hc⟩
      rw [(h p hp).assets] at hc
      rcases hc with hc | ⟨d, hc, -⟩
      · cases hc
      · cases hc

/-- A client in a group is given an empty result, which is exact if there is nothing to give. -/
theorem exactFor_grouped_iff (order : SetOrder) (table : List PolicyMappingORM)
    {client : ClientRef} {g : String} (hg : client.group = some g) :
    (∃ out, getCombinedPolicies order table client = .ok out ∧
        ExactFor out (mappedPolicies table client) ∧
        out.policies = loadedPolicies table client) ↔
      ∀ p ∈ mappedPolicies table client, p.Void := by
  rw [getCombinedPolicies_eq, loaded_eq_nil table hg]
  constructor
  · rintro ⟨out, hout, hexact, -⟩
    cases hout
    exact (exactFor_nothing_iff order _ rfl rfl rfl rfl rfl rfl).mp hexact
  · intro h
    exact ⟨_, rfl, (exactFor_nothing_iff order _ rfl rfl rfl rfl rfl rfl).mpr h, rfl⟩

/-- A policy whose only content is the permission of one class for everything. -/
def PolicyORM.allOf (className : String) : PolicyORM where
  allowedProfiles := []
  allowedAgents := []
  allowedRoutes := .ofEntries [(className, ⟨.all, [], by simp⟩)]
  allowedAssets := []
  allowedBlogs := []
  roles := []

end Notifyr
