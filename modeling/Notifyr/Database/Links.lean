import Mathlib.Algebra.Ring.Int.Defs
import Mathlib.Data.Finset.Card
import Mathlib.Data.List.Nodup
import Notifyr.Theory.Runs
import Notifyr.Theory.Triggers

/-!
# The table of links

The table `Link` with its trigger `limit_links`, and `bulk_upsert_links_visits_counts`
(`database/links.sql`).

- `computeLimit`: the trigger, which PostgreSQL fires before it looks for a conflict.
- `bulkUpsertLinksVisitsCounts`: the visits of a batch, which are added all or not at all.
- `bulk_ok_iff`: which batches are added.
- `LimitsRight`: what the table is to keep in a run; `limitsRight_iff`: in which runs it does.
-/

namespace Notifyr.LinkTable

open Theory

/-- The numbers of a column `INT`. -/
def InInt4 (n : ℤ) : Prop := -2147483648 ≤ n ∧ n ≤ 2147483647

instance (n : ℤ) : Decidable (InInt4 n) := inferInstanceAs (Decidable (_ ∧ _))

/-- A row of `Link`. -/
structure Link (ι : Type) where
  linkId : ι
  linkName : Option String
  linkShortId : Option String
  linkUrl : Option String
  totalVisitCount : ℤ
  isPublic : Option Bool

variable {ι : Type} [DecidableEq ι]

/-- `SELECT COUNT(*) ... WHERE public = True`. -/
def publicCount (table : List (Link ι)) : ℕ := table.countP fun link => link.isPublic = some true

/-- `compute_limit`. Both branches of the test for public links return, so that the test for all
links, after it, is never made. -/
def computeLimit (table : List (Link ι)) (new : Link ι) : RowVerdict (Link ι) :=
  if 9 ≤ publicCount table then .raise "Public Links Limit Reached" else .proceed new

/-- Two rows have the same value in a column `UNIQUE`. -/
def Clash (link new : Link ι) : Prop :=
  link.linkId = new.linkId ∨
  (new.linkName ≠ none ∧ link.linkName = new.linkName) ∨
  (new.linkShortId ≠ none ∧ link.linkShortId = new.linkShortId) ∨
  (new.linkUrl ≠ none ∧ link.linkUrl = new.linkUrl)

instance (link new : Link ι) : Decidable (Clash link new) := inferInstanceAs (Decidable (_ ∨ _))

/-- The columns of a row that is inserted, against the other rows. -/
def checkLink (others : List (Link ι)) (new : Link ι) : Except String Unit :=
  if ¬ InInt4 new.totalVisitCount then .error "integer out of range"
  else if ∃ link ∈ others, Clash link new then
    .error "duplicate key value violates unique constraint"
  else .ok ()

/-- The table `Link`. -/
def linkRules : TableRules (Link ι) where
  beforeInsert := computeLimit
  beforeUpdate _ _ new := .proceed new
  beforeDelete _ old := .proceed old
  check := checkLink

/-- A row with the defaults of the columns. -/
def newLink (linkId : ι) (visits : ℤ) : Link ι where
  linkId := linkId
  linkName := none
  linkShortId := none
  linkUrl := none
  totalVisitCount := visits
  isPublic := some true

/-- `SET total_visit_count = Link.total_visit_count + EXCLUDED.total_visit_count`. -/
def addVisits (linkId : ι) (visits : ℤ) (link : Link ι) : Link ι :=
  if link.linkId = linkId then { link with totalVisitCount := link.totalVisitCount + visits }
  else link

/-- One `INSERT ... ON CONFLICT (link_id) DO UPDATE`. -/
def upsertVisits (table : List (Link ι)) (record : ι × ℤ) : Except String (List (Link ι)) :=
  -- the trigger is asked before it is known whether the row conflicts with one
  match computeLimit table (newLink record.1 record.2) with
  | .raise message => .error message
  | .skip => .ok table
  | .proceed new =>
    match table.find? (fun link => link.linkId = record.1) with
    | some link =>
      if InInt4 (link.totalVisitCount + record.2) then
        .ok (table.map (addVisits record.1 record.2))
      else .error "integer out of range"
    | none =>
      match checkLink table new with
      | .error e => .error e
      | .ok () => .ok (table ++ [new])

/-- `bulk_upsert_links_visits_counts`. -/
def bulkUpsertLinksVisitsCounts (table : List (Link ι)) (data : List (ι × ℤ)) :
    Except String (List (Link ι)) := data.foldlM upsertVisits table

/-- What happens to the table. -/
inductive LinkAction (ι : Type)
  | insert (link : Link ι)
  | delete (cond : Link ι → Bool)
  | upsert (data : List (ι × ℤ))

/-- A statement that raises changes nothing. -/
def linkStep (table : List (Link ι)) : LinkAction ι → List (Link ι)
  | .insert link => linkRules.step table (.insert [link])
  | .delete cond => linkRules.step table (.delete cond)
  | .upsert data =>
    match bulkUpsertLinksVisitsCounts table data with
    | .ok table' => table'
    | .error _ => table

/-! ## What the table is to keep -/

/-- The identifiers of the links. -/
def ids (table : List (Link ι)) : List ι := table.map Link.linkId

/-- The visits that a batch has for a link. -/
def visitsIn (linkId : ι) (data : List (ι × ℤ)) : ℤ :=
  (data.map fun record => if record.1 = linkId then record.2 else 0).sum

/-- What one step is to do: the limits are kept, and a batch for links that exist is added, each
count to its link. -/
def LinkStepRight (table : List (Link ι)) (action : LinkAction ι) : Prop :=
  (linkStep table action).length ≤ 15 ∧ publicCount (linkStep table action) ≤ 9 ∧
    ∀ data, action = .upsert data → (∀ record ∈ data, record.1 ∈ ids table) →
      bulkUpsertLinksVisitsCounts table data =
        .ok (table.map fun link =>
          { link with totalVisitCount := link.totalVisitCount + visitsIn link.linkId data })

/-- What a run is to do, from an empty table. -/
def LimitsRight (run : List (LinkAction ι)) : Prop := Always linkStep LinkStepRight [] run

/-! ## When it does -/

/-- The visits of a link. -/
def visits (table : List (Link ι)) (linkId : ι) : ℤ :=
  match table.find? (fun link => link.linkId = linkId) with
  | some link => link.totalVisitCount
  | none => 0

/-- How many links a batch brings that do not exist. -/
def newLinks (table : List (Link ι)) (data : List (ι × ℤ)) : ℕ :=
  ((data.map Prod.fst).toFinset \ (ids table).toFinset).card

/-- Some record of a batch comes when there are nine public links, those that the batch has brought
among them. -/
def Blocked (table : List (Link ι)) (data : List (ι × ℤ)) : Prop :=
  ∃ before record after, data = before ++ record :: after ∧
    9 ≤ publicCount table + newLinks table before

/-- No count of a batch leaves the numbers of its column. -/
def CountsFit (table : List (Link ι)) (data : List (ι × ℤ)) : Prop :=
  ∀ before record after, data = before ++ record :: after →
    InInt4 (visits table record.1 + visitsIn record.1 before + record.2)

/-- The steps that keep the limits: an insertion comes to fewer than fifteen links, or is refused;
a batch for links that exist comes to fewer than nine public links, and its sums fit; a batch brings
no more links than there is room for, or is refused. -/
def WithinLimits (table : List (Link ι)) : LinkAction ι → Prop
  | .insert link =>
    table.length < 15 ∨ 9 ≤ publicCount table ∨ ∃ e, checkLink table link = .error e
  | .delete _ => True
  | .upsert data =>
    ((∀ record ∈ data, record.1 ∈ ids table) → ¬ Blocked table data ∧ CountsFit table data) ∧
    (table.length + newLinks table data ≤ 15 ∨ Blocked table data ∨ ¬ CountsFit table data)

/-! ## One record -/

section Record

variable {table table' : List (Link ι)} {linkId : ι} {record : ι × ℤ}

theorem find?_eq_none_iff :
    table.find? (fun link => link.linkId = linkId) = none ↔ linkId ∉ ids table := by
  rw [List.find?_eq_none]
  constructor
  · intro h hmem
    obtain ⟨link, hlink, hid⟩ := List.mem_map.mp hmem
    exact h link hlink (decide_eq_true hid)
  · intro h link hlink hid
    exact h (List.mem_map.mpr ⟨link, hlink, of_decide_eq_true hid⟩)

theorem addVisits_linkId (visits : ℤ) (link : Link ι) :
    (addVisits linkId visits link).linkId = link.linkId := by
  unfold addVisits
  split <;> rfl

theorem addVisits_isPublic (visits : ℤ) (link : Link ι) :
    (addVisits linkId visits link).isPublic = link.isPublic := by
  unfold addVisits
  split <;> rfl

theorem ids_map_addVisits (visits : ℤ) : ids (table.map (addVisits linkId visits)) = ids table := by
  unfold ids
  rw [List.map_map]
  exact List.map_congr_left fun link _ => addVisits_linkId visits link

theorem publicCount_map_addVisits (visits : ℤ) :
    publicCount (table.map (addVisits linkId visits)) = publicCount table := by
  unfold publicCount
  rw [List.countP_map]
  refine List.countP_congr fun link _ => ?_
  show decide ((addVisits linkId visits link).isPublic = some true) = true ↔ _
  rw [addVisits_isPublic]

theorem visits_map_addVisits (n : ℤ) (hknown : linkId ∈ ids table) (linkId' : ι) :
    visits (table.map (addVisits linkId n)) linkId' =
      visits table linkId' + if linkId = linkId' then n else 0 := by
  unfold visits
  have hfind : (table.map (addVisits linkId n)).find? (fun link => link.linkId = linkId') =
      (table.find? fun link => link.linkId = linkId').map (addVisits linkId n) := by
    rw [List.find?_map]
    congr 2
    funext link
    show decide ((addVisits linkId n link).linkId = linkId') = _
    rw [addVisits_linkId]
  rw [hfind]
  cases hlink : table.find? (fun link => link.linkId = linkId') with
  | none =>
    have hne : linkId ≠ linkId' := by
      rintro rfl
      exact find?_eq_none_iff.mp hlink hknown
    rw [if_neg hne]
    rfl
  | some link =>
    have hid : link.linkId = linkId' := by
      have hfound : decide (link.linkId = linkId') = true :=
        List.find?_some (p := fun link : Link ι => decide (link.linkId = linkId')) hlink
      exact of_decide_eq_true hfound
    show (addVisits linkId n link).totalVisitCount = link.totalVisitCount + _
    unfold addVisits
    by_cases hsame : linkId = linkId'
    · rw [if_pos (hid.trans hsame.symm), if_pos hsame]
    · rw [if_neg (fun h => hsame (h.symm.trans hid)), if_neg hsame, Int.add_zero]

theorem visits_append_newLink (n : ℤ) (hnew : linkId ∉ ids table) (linkId' : ι) :
    visits (table ++ [newLink linkId n]) linkId' =
      visits table linkId' + if linkId = linkId' then n else 0 := by
  unfold visits
  rw [List.find?_append]
  cases hlink : table.find? (fun link => link.linkId = linkId') with
  | none =>
    rw [Option.none_or, List.find?_singleton]
    by_cases hsame : linkId = linkId'
    · have hlast : (if decide ((newLink linkId n).linkId = linkId') = true
          then some (newLink linkId n) else none) = some (newLink linkId n) :=
        if_pos (decide_eq_true hsame)
      rw [hlast, if_pos hsame, Int.zero_add]
      rfl
    · have hlast : (if decide ((newLink linkId n).linkId = linkId') = true
          then some (newLink linkId n) else none) = none :=
        if_neg (fun h => hsame (of_decide_eq_true h))
      rw [hlast, if_neg hsame]
      rfl
  | some link =>
    have hne : linkId ≠ linkId' := by
      rintro rfl
      rw [find?_eq_none_iff.mpr hnew] at hlink
      cases hlink
    rw [if_neg hne, Int.add_zero]
    rfl

/-- What a record that is added leaves. -/
structure Upserted (table : List (Link ι)) (record : ι × ℤ) (table' : List (Link ι)) : Prop where
  ids : ids table' = ids table ++ if record.1 ∈ ids table then [] else [record.1]
  visits : ∀ linkId, visits table' linkId =
    visits table linkId + if record.1 = linkId then record.2 else 0
  publicCount : publicCount table' =
    publicCount table + if record.1 ∈ LinkTable.ids table then 0 else 1
  known : record.1 ∈ LinkTable.ids table → table' = table.map (addVisits record.1 record.2)

theorem upsertVisits_blocked (h : 9 ≤ publicCount table) :
    upsertVisits table record = .error "Public Links Limit Reached" := by
  unfold upsertVisits computeLimit
  rw [if_pos h]

/-- A record that comes when the trigger lets it through. -/
theorem upsertVisits_open (h : publicCount table < 9) :
    (InInt4 (visits table record.1 + record.2) →
      ∃ table', upsertVisits table record = .ok table' ∧ Upserted table record table') ∧
    (¬ InInt4 (visits table record.1 + record.2) → ∃ e, upsertVisits table record = .error e) := by
  obtain ⟨linkId, n⟩ := record
  have hverdict : computeLimit table (newLink linkId n) = .proceed (newLink linkId n) :=
    if_neg (Nat.not_le.mpr h)
  cases hlink : table.find? (fun link => link.linkId = linkId) with
  | some link =>
    have hvisits : visits table linkId = link.totalVisitCount := by
      unfold visits
      rw [hlink]
    have hknown : linkId ∈ ids table := by
      by_contra hnew
      rw [find?_eq_none_iff.mpr hnew] at hlink
      cases hlink
    have hrow : upsertVisits table (linkId, n) =
        if InInt4 (link.totalVisitCount + n) then .ok (table.map (addVisits linkId n))
        else .error "integer out of range" := by
      unfold upsertVisits
      rw [hverdict]
      dsimp only
      rw [hlink]
    simp only [hvisits]
    rw [hrow]
    constructor
    · intro hfit
      refine ⟨_, if_pos hfit, ?_, visits_map_addVisits n hknown, ?_, fun _ => rfl⟩
      · rw [ids_map_addVisits, if_pos hknown, List.append_nil]
      · rw [publicCount_map_addVisits, if_pos hknown, Nat.add_zero]
    · intro hfit
      exact ⟨_, if_neg hfit⟩
  | none =>
    have hvisits : visits table linkId = 0 := by
      unfold visits
      rw [hlink]
    have hnew : linkId ∉ ids table := find?_eq_none_iff.mp hlink
    have hclash : ¬ ∃ link ∈ table, Clash link (newLink linkId n) := by
      rintro ⟨link, hmem, hid | ⟨hnone, -⟩ | ⟨hnone, -⟩ | ⟨hnone, -⟩⟩
      · exact hnew (List.mem_map.mpr ⟨link, hmem, hid⟩)
      · exact hnone rfl
      · exact hnone rfl
      · exact hnone rfl
    have hsum : visits table linkId + n = n := by rw [hvisits, Int.zero_add]
    unfold upsertVisits
    rw [hverdict]
    dsimp only
    rw [hlink, hsum]
    constructor
    · intro hfit
      have hcheck : checkLink table (newLink linkId n) = .ok () := by
        unfold checkLink
        have hrange : ¬ ¬ InInt4 (newLink linkId n).totalVisitCount := not_not.mpr hfit
        rw [if_neg hrange, if_neg hclash]
      rw [hcheck]
      refine ⟨_, rfl, ?_, visits_append_newLink n hnew, ?_, fun hknown => absurd hknown hnew⟩
      · rw [if_neg hnew]
        exact List.map_append
      · rw [if_neg hnew]
        unfold publicCount
        rw [List.countP_append]
        rfl
    · intro hfit
      have hcheck : checkLink table (newLink linkId n) = .error "integer out of range" :=
        if_pos hfit
      rw [hcheck]
      exact ⟨_, rfl⟩

/-- What is known of a record that was added. -/
theorem upserted_of_ok (h : upsertVisits table record = .ok table') :
    publicCount table < 9 ∧ InInt4 (visits table record.1 + record.2) ∧
      Upserted table record table' := by
  by_cases hblocked : 9 ≤ publicCount table
  · rw [upsertVisits_blocked hblocked] at h
    cases h
  have hopen := Nat.not_le.mp hblocked
  by_cases hfit : InInt4 (visits table record.1 + record.2)
  · obtain ⟨table'', hok, hspec⟩ := (upsertVisits_open hopen).1 hfit
    rw [h] at hok
    cases hok
    exact ⟨hopen, hfit, hspec⟩
  · obtain ⟨e, he⟩ := (upsertVisits_open hopen).2 hfit
    rw [h] at he
    cases he

end Record

/-! ## Batches -/

section Batch

variable {table table' : List (Link ι)} {record : ι × ℤ} {data : List (ι × ℤ)}

theorem bulk_cons :
    bulkUpsertLinksVisitsCounts table (record :: data) =
      upsertVisits table record >>= fun table' => bulkUpsertLinksVisitsCounts table' data :=
  List.foldlM_cons

@[simp] theorem newLinks_nil : newLinks table ([] : List (ι × ℤ)) = 0 := by
  unfold newLinks
  rw [List.map_nil, List.toFinset_nil, Finset.empty_sdiff, Finset.card_empty]

/-- A record that comes first. -/
theorem visits_first (table : List (Link ι)) (record : ι × ℤ) :
    visits table record.1 + visitsIn record.1 ([] : List (ι × ℤ)) + record.2 =
      visits table record.1 + record.2 := congrArg (· + record.2) (Int.add_zero _)

theorem visitsIn_cons (linkId : ι) :
    visitsIn linkId (record :: data) =
      (if record.1 = linkId then record.2 else 0) + visitsIn linkId data := by
  unfold visitsIn
  rw [List.map_cons, List.sum_cons]

theorem card_insert_eq_erase (a : ι) (s : Finset ι) :
    (insert a s).card = 1 + (s.erase a).card := by
  by_cases hmem : a ∈ s
  · have hcard := Finset.card_erase_add_one hmem
    rw [Finset.insert_eq_of_mem hmem]
    omega
  · rw [Finset.card_insert_of_notMem hmem, Finset.erase_eq_of_notMem hmem, Nat.add_comm]

/-- The links that a batch brings, with those of its first record. -/
theorem newLinks_cons (h : Upserted table record table') :
    newLinks table (record :: data) =
      (if record.1 ∈ ids table then 0 else 1) + newLinks table' data := by
  have hids := h.ids
  unfold newLinks
  rw [List.map_cons, List.toFinset_cons, hids]
  by_cases hknown : record.1 ∈ ids table
  · rw [if_pos hknown, if_pos hknown, List.append_nil, Nat.zero_add,
      Finset.insert_sdiff_of_mem _ (List.mem_toFinset.mpr hknown)]
  · have hnew : record.1 ∉ (ids table).toFinset := fun hmem => hknown (List.mem_toFinset.mp hmem)
    rw [if_neg hknown, if_neg hknown, Finset.insert_sdiff_of_notMem _ hnew, List.toFinset_append,
      List.toFinset_cons, List.toFinset_nil]
    have hrest : (data.map Prod.fst).toFinset \ ((ids table).toFinset ∪ insert record.1 ∅) =
        ((data.map Prod.fst).toFinset \ (ids table).toFinset).erase record.1 := by
      ext linkId
      simp only [Finset.mem_sdiff, Finset.mem_union, Finset.mem_insert, Finset.notMem_empty,
        or_false, Finset.mem_erase]
      tauto
    rw [hrest]
    exact card_insert_eq_erase record.1 _

theorem blocked_cons (h : Upserted table record table') :
    Blocked table (record :: data) ↔ 9 ≤ publicCount table ∨ Blocked table' data := by
  have hcount : ∀ before, publicCount table + newLinks table (record :: before) =
      publicCount table' + newLinks table' before := by
    intro before
    rw [newLinks_cons h, h.publicCount]
    omega
  constructor
  · rintro ⟨before, next, after, hsplit, hfull⟩
    cases before with
    | nil =>
      rw [newLinks_nil] at hfull
      exact Or.inl hfull
    | cons first before =>
      cases hsplit
      exact Or.inr ⟨before, next, after, rfl, hcount before ▸ hfull⟩
  · rintro (hfull | ⟨before, next, after, rfl, hfull⟩)
    · refine ⟨[], record, data, rfl, ?_⟩
      rw [newLinks_nil]
      exact hfull
    · exact ⟨record :: before, next, after, rfl, (hcount before).symm ▸ hfull⟩

theorem countsFit_cons (h : Upserted table record table') :
    CountsFit table (record :: data) ↔
      InInt4 (visits table record.1 + record.2) ∧ CountsFit table' data := by
  have hsum : ∀ linkId before, visits table linkId + visitsIn linkId (record :: before) =
      visits table' linkId + visitsIn linkId before := by
    intro linkId before
    rw [visitsIn_cons, h.visits]
    omega
  constructor
  · intro hfits
    refine ⟨?_, fun before next after hsplit => ?_⟩
    · have hfirst := hfits [] record data rfl
      rw [visits_first] at hfirst
      exact hfirst
    · rw [← hsum]
      exact hfits (record :: before) next after (congrArg (record :: ·) hsplit)
  · rintro ⟨hfirst, hrest⟩ before next after hsplit
    cases before with
    | nil =>
      cases hsplit
      rw [visits_first]
      exact hfirst
    | cons first before =>
      cases hsplit
      rw [hsum]
      exact hrest before next after rfl

/-- A batch is added if and only if none of its records is blocked and all sums fit. -/
theorem bulk_ok_iff :
    (∃ table', bulkUpsertLinksVisitsCounts table data = .ok table') ↔
      ¬ Blocked table data ∧ CountsFit table data := by
  -- both conditions are read at the table that the first record leaves
  induction data generalizing table with
  | nil =>
    refine iff_of_true ⟨table, rfl⟩ ⟨?_, ?_⟩
    · rintro ⟨before, next, after, hsplit, -⟩
      cases before <;> cases hsplit
    · intro before next after hsplit
      cases before <;> cases hsplit
  | cons record data ih =>
    rw [bulk_cons]
    constructor
    · rintro ⟨table', hok⟩
      cases hrow : upsertVisits table record with
      | error e =>
        rw [hrow] at hok
        cases hok
      | ok table'' =>
        rw [hrow] at hok
        obtain ⟨hopen, hfit, hspec⟩ := upserted_of_ok hrow
        obtain ⟨hblocked, hfits⟩ := ih.mp ⟨table', hok⟩
        rw [blocked_cons hspec, countsFit_cons hspec]
        exact ⟨fun h => h.elim (Nat.not_le.mpr hopen) hblocked, hfit, hfits⟩
    · rintro ⟨hblocked, hfits⟩
      have hopen : publicCount table < 9 := by
        refine Nat.not_le.mp fun hfull => hblocked ⟨[], record, data, rfl, ?_⟩
        rw [newLinks_nil]
        exact hfull
      have hfit : InInt4 (visits table record.1 + record.2) := by
        by_contra hbad
        have hfirst := hfits [] record data rfl
        rw [visits_first] at hfirst
        exact hbad hfirst
      obtain ⟨table', hrow, hspec⟩ := (upsertVisits_open hopen).1 hfit
      rw [hrow]
      refine ih.mpr ⟨fun h => hblocked ((blocked_cons hspec).mpr (Or.inr h)), ?_⟩
      exact ((countsFit_cons hspec).mp hfits).2

/-- What a batch that is added leaves. -/
structure BulkAdded (table : List (Link ι)) (data : List (ι × ℤ)) (table' : List (Link ι)) :
    Prop where
  nodup : (ids table).Nodup → (ids table').Nodup
  length : table'.length = table.length + newLinks table data
  publicCount : publicCount table' = publicCount table + newLinks table data
  visits : ∀ linkId, visits table' linkId = visits table linkId + visitsIn linkId data
  mem_ids : ∀ linkId, linkId ∈ ids table' ↔ linkId ∈ ids table ∨ linkId ∈ data.map Prod.fst
  known : (∀ record ∈ data, record.1 ∈ ids table) →
    table' = table.map fun link =>
      { link with totalVisitCount := link.totalVisitCount + visitsIn link.linkId data }

theorem bulkAdded_of_ok (h : bulkUpsertLinksVisitsCounts table data = .ok table') :
    BulkAdded table data table' := by
  induction data generalizing table with
  | nil =>
    cases h
    refine ⟨id, ?_, ?_, fun linkId => (Int.add_zero _).symm, fun linkId => ?_, fun _ => ?_⟩
    · rw [newLinks_nil, Nat.add_zero]
    · rw [newLinks_nil, Nat.add_zero]
    · rw [List.map_nil]
      exact ⟨Or.inl, fun hmem => hmem.resolve_right List.not_mem_nil⟩
    · -- nothing comes to the visits of any link
      conv_lhs => rw [← List.map_id table']
      refine List.map_congr_left fun link _ => ?_
      show link = { link with totalVisitCount := link.totalVisitCount + 0 }
      rw [Int.add_zero]
  | cons record data ih =>
    rw [bulk_cons] at h
    cases hrow : upsertVisits table record with
    | error e =>
      rw [hrow] at h
      cases h
    | ok table'' =>
      rw [hrow] at h
      obtain ⟨-, -, hspec⟩ := upserted_of_ok hrow
      have hrest := ih h
      have hlength : table''.length =
          table.length + if record.1 ∈ ids table then 0 else 1 := by
        have hids := congrArg List.length hspec.ids
        rw [List.length_append] at hids
        unfold ids at hids
        rw [List.length_map, List.length_map] at hids
        rw [hids]
        congr 1
        exact apply_ite List.length _ _ _
      refine ⟨fun hnodup => hrest.nodup ?_, ?_, ?_, fun linkId => ?_, fun linkId => ?_,
        fun hknown => ?_⟩
      · rw [hspec.ids]
        by_cases hknown : record.1 ∈ ids table
        · rw [if_pos hknown, List.append_nil]
          exact hnodup
        · rw [if_neg hknown]
          exact List.nodup_append.mpr ⟨hnodup, List.nodup_singleton _, by
            intro a ha b hb
            rw [List.mem_singleton.mp hb]
            rintro rfl
            exact hknown ha⟩
      · rw [hrest.length, hlength, newLinks_cons hspec, Nat.add_assoc]
      · rw [hrest.publicCount, hspec.publicCount, newLinks_cons hspec, Nat.add_assoc]
      · rw [hrest.visits, hspec.visits, visitsIn_cons, Int.add_assoc]
      · rw [hrest.mem_ids, hspec.ids, List.map_cons, List.mem_cons, List.mem_append]
        by_cases hknown : record.1 ∈ ids table
        · rw [if_pos hknown]
          constructor
          · rintro ((hold | hnone) | hdata)
            · exact Or.inl hold
            · cases hnone
            · exact Or.inr (Or.inr hdata)
          · rintro (hold | rfl | hdata)
            · exact Or.inl (Or.inl hold)
            · exact Or.inl (Or.inl hknown)
            · exact Or.inr hdata
        · rw [if_neg hknown, List.mem_singleton, or_assoc]
      · have hfirst := hknown record List.mem_cons_self
        have hids : ids table'' = ids table := by
          rw [hspec.ids, if_pos hfirst, List.append_nil]
        rw [hrest.known fun next hnext => hids ▸ hknown next (List.mem_cons_of_mem _ hnext),
          hspec.known hfirst, List.map_map]
        refine List.map_congr_left fun link _ => ?_
        show Link.mk (addVisits record.1 record.2 link).linkId _ _ _ _ _ = _
        rw [visitsIn_cons]
        unfold addVisits
        by_cases hid : link.linkId = record.1
        · rw [if_pos hid, if_pos hid.symm]
          show Link.mk _ _ _ _ (link.totalVisitCount + record.2 + visitsIn link.linkId data) _ = _
          rw [Int.add_assoc]
        · rw [if_neg hid, if_neg (fun h => hid h.symm), Int.zero_add]

end Batch

/-! ## The steps of a run -/

section Steps

variable {table : List (Link ι)}

/-- A deletion keeps the other rows. -/
theorem linkStep_delete (cond : Link ι → Bool) :
    linkStep table (.delete cond) = table.filter fun link => !cond link := by
  have hrest : (table.flatMap fun link => if cond link then [] else [link]) =
      table.filter fun link => !cond link := by
    induction table with
    | nil => rfl
    | cons link table ih =>
      rw [List.flatMap_cons, List.filter_cons, ih]
      cases cond link <;> rfl
  have hexec : linkRules.exec table (.delete cond) =
      .ok ([] ++ table.flatMap fun link => if cond link then [] else [link]) := by
    refine sweep_of_act fun link _ before after => ?_
    unfold TableRules.deleteRow
    cases cond link <;> rfl
  show linkRules.step table (.delete cond) = _
  unfold TableRules.step
  rw [hexec, List.nil_append]
  exact hrest

/-- What an insertion does, by the trigger and the constraints. -/
theorem linkStep_insert (link : Link ι) :
    ((9 ≤ publicCount table ∨ ∃ e, checkLink table link = .error e) ∧
      linkStep table (.insert link) = table) ∨
    (publicCount table < 9 ∧ checkLink table link = .ok () ∧
      linkStep table (.insert link) = table ++ [link]) := by
  have hrefused : ∀ e, linkRules.insertRow table link = .error e →
      linkStep table (.insert link) = table := by
    intro e he
    show linkRules.step table (.insert [link]) = table
    unfold TableRules.step
    rw [TableRules.exec_insert_singleton, he]
  by_cases hfull : 9 ≤ publicCount table
  · refine Or.inl ⟨Or.inl hfull, hrefused "Public Links Limit Reached" ?_⟩
    have hverdict : linkRules.beforeInsert table link = .raise "Public Links Limit Reached" :=
      if_pos hfull
    unfold TableRules.insertRow
    rw [hverdict]
  -- no other test is made by the trigger, so only the constraints can refuse the row
  have hverdict : linkRules.beforeInsert table link = .proceed link := if_neg hfull
  cases hcheck : linkRules.check table link with
  | error e =>
    refine Or.inl ⟨Or.inr ⟨e, hcheck⟩, hrefused e ?_⟩
    unfold TableRules.insertRow
    rw [hverdict]
    dsimp only
    rw [hcheck]
  | ok _ =>
    have hrow : linkRules.insertRow table link = .ok (table ++ [link]) := by
      unfold TableRules.insertRow
      rw [hverdict]
      dsimp only
      rw [hcheck]
    refine Or.inr ⟨Nat.not_le.mp hfull, hcheck, ?_⟩
    show linkRules.step table (.insert [link]) = _
    unfold TableRules.step
    rw [TableRules.exec_insert_singleton, hrow]

/-- The public links stay within their limit in a batch that is added. -/
theorem publicCount_bulk_le {data : List (ι × ℤ)} {table table' : List (Link ι)}
    (h : bulkUpsertLinksVisitsCounts table data = .ok table') (hle : publicCount table ≤ 9) :
    publicCount table' ≤ 9 := by
  induction data generalizing table with
  | nil =>
    cases h
    exact hle
  | cons record data ih =>
    rw [bulk_cons] at h
    cases hrow : upsertVisits table record with
    | error e =>
      rw [hrow] at h
      cases h
    | ok table'' =>
      rw [hrow] at h
      obtain ⟨hopen, -, hspec⟩ := upserted_of_ok hrow
      refine ih h ?_
      have hcount := hspec.publicCount
      split at hcount <;> omega

/-- The limits of the table. -/
def Limited (table : List (Link ι)) : Prop := table.length ≤ 15 ∧ publicCount table ≤ 9

theorem insert_right_iff (hlimited : Limited table) (link : Link ι) :
    LinkStepRight table (.insert link) ↔ WithinLimits table (.insert link) := by
  have hnone : ∀ data, (LinkAction.insert link : LinkAction ι) = .upsert data →
      (∀ record ∈ data, record.1 ∈ ids table) →
      bulkUpsertLinksVisitsCounts table data =
        .ok (table.map fun link =>
          { link with totalVisitCount := link.totalVisitCount + visitsIn link.linkId data }) := by
    intro data hdata
    cases hdata
  have hcases := @linkStep_insert _ _ table link
  rcases hcases with ⟨hrefused, hstep⟩ | ⟨hopen, hcheck, hstep⟩
  · refine iff_of_true ⟨?_, ?_, hnone⟩ (Or.inr hrefused)
    · rw [hstep]
      exact hlimited.1
    · rw [hstep]
      exact hlimited.2
  · have hpublic : publicCount (table ++ [link]) ≤ 9 := by
      have hone : publicCount [link] ≤ 1 := List.countP_le_length
      unfold publicCount at hone hopen ⊢
      rw [List.countP_append]
      omega
    unfold LinkStepRight
    rw [hstep, List.length_append]
    constructor
    · rintro ⟨hlen, -, -⟩
      exact Or.inl (by rw [List.length_singleton] at hlen; omega)
    · rintro (hlen | hfull | ⟨e, he⟩)
      · exact ⟨by rw [List.length_singleton]; omega, hpublic, hnone⟩
      · omega
      · rw [hcheck] at he
        cases he

theorem delete_right (hlimited : Limited table) (cond : Link ι → Bool) :
    LinkStepRight table (.delete cond) := by
  refine ⟨?_, ?_, ?_⟩
  · rw [linkStep_delete]
    exact (List.length_filter_le _ _).trans hlimited.1
  · rw [linkStep_delete]
    exact (List.Sublist.countP_le List.filter_sublist).trans hlimited.2
  · intro data hdata
    cases hdata

theorem upsert_right_iff (hlimited : Limited table) (data : List (ι × ℤ)) :
    LinkStepRight table (.upsert data) ↔ WithinLimits table (.upsert data) := by
  cases hbulk : bulkUpsertLinksVisitsCounts table data with
  | ok table' =>
    have hstep : linkStep table (.upsert data) = table' := by
      unfold linkStep
      dsimp only
      rw [hbulk]
    have hadded := bulkAdded_of_ok hbulk
    have hok := bulk_ok_iff.mp ⟨table', hbulk⟩
    unfold LinkStepRight
    rw [hstep, hadded.length]
    constructor
    · rintro ⟨hlen, -, -⟩
      exact ⟨fun _ => hok, Or.inl hlen⟩
    · rintro ⟨-, hlen | hblocked | hunfit⟩
      · refine ⟨hlen, publicCount_bulk_le hbulk hlimited.2, ?_⟩
        intro data' hdata hknown
        cases hdata
        rw [hbulk, hadded.known hknown]
      · exact absurd hblocked hok.1
      · exact absurd hok.2 hunfit
  | error e =>
    have hstep : linkStep table (.upsert data) = table := by
      unfold linkStep
      dsimp only
      rw [hbulk]
    have hnot : ¬ (¬ Blocked table data ∧ CountsFit table data) := by
      intro hok
      obtain ⟨table', htable'⟩ := bulk_ok_iff.mpr hok
      rw [hbulk] at htable'
      cases htable'
    unfold LinkStepRight
    rw [hstep]
    -- a batch that raises is right unless all of its links exist
    constructor
    · rintro ⟨-, -, hright⟩
      refine ⟨fun hknown => ?_, ?_⟩
      · have hok := hright data rfl hknown
        rw [hbulk] at hok
        cases hok
      · rw [not_and_or, not_not] at hnot
        exact Or.inr hnot
    · rintro ⟨hknown, -⟩
      refine ⟨hlimited.1, hlimited.2, ?_⟩
      intro data' hdata hall
      cases hdata
      exact absurd (hknown hall) hnot

theorem linkStepRight_iff (hlimited : Limited table) (action : LinkAction ι) :
    LinkStepRight table action ↔ WithinLimits table action := by
  cases action with
  | insert link => exact insert_right_iff hlimited link
  | delete cond => exact iff_of_true (delete_right hlimited cond) trivial
  | upsert data => exact upsert_right_iff hlimited data

end Steps

/-! ## Runs -/

/-- The runs in which the limits hold and the visits of links that exist are added. -/
theorem limitsRight_iff (run : List (LinkAction ι)) :
    LimitsRight run ↔ Always linkStep WithinLimits [] run :=
  always_congr_of_step (I := Limited) (fun _ _ _ hright => ⟨hright.1, hright.2.1⟩)
    (fun _ action hlimited => linkStepRight_iff hlimited action)
    ⟨Nat.zero_le _, Nat.zero_le _⟩

/-- A public link with no name. -/
def numbered (n : ℕ) : LinkAction ℕ := .insert (newLink n 0)

/-- Nine public links, and then one more visit of the first. -/
theorem ninth_link_blocks :
    ¬ LimitsRight ([0, 1, 2, 3, 4, 5, 6, 7, 8].map numbered ++ [.upsert [(0, 1)]]) := by
  intro h
  obtain ⟨-, -, hright⟩ := always_iff.mp h ([0, 1, 2, 3, 4, 5, 6, 7, 8].map numbered)
    (.upsert [(0, 1)]) [] rfl
  have hok := hright [(0, 1)] rfl (by decide)
  have herror : bulkUpsertLinksVisitsCounts
      (runFrom linkStep [] ([0, 1, 2, 3, 4, 5, 6, 7, 8].map numbered)) [(0, 1)] =
      .error "Public Links Limit Reached" := rfl
  rw [herror] at hok
  cases hok

end Notifyr.LinkTable
