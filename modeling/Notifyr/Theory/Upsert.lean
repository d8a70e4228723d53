import Mathlib.Data.List.Nodup

/-!
# Upserts

What `INSERT ... ON CONFLICT (key) DO UPDATE` does to a table whose rows are a key and a value, and
what a batch of such statements does, all of them or none.

- `UpsertRules`: the constraints of a table and what becomes of a value in a conflict.
- `upsertRow`, `bulkUpsert`: one row, and the rows of a batch.
- `total`: what the rows of one key come to, if each is added to the ones before.
- `upsertRow_ok_iff`: when one row is taken and every key still stands once;
  `bulkUpsert_ok_iff`: the same for a batch; `valueAt_bulkUpsert`: the totals after it.
- `bulkUpsert_ok_iff_of_indexed`: the same where no key has a null in it.
- `bulkUpsert_neutral`: a batch that adds nothing to rows that stand already.
-/

namespace Theory

variable {κ ν : Type}

/-- What a table asks of a row. `indexed` are the keys that the unique index compares: one with a
null in it conflicts with no other. -/
structure UpsertRules (κ ν : Type) where
  notNull : κ → Except String Unit
  indexed : κ → Bool
  references : κ → Except String Unit
  merge : ν → ν → ν
  fits : ν → Bool
  outOfRange : String

namespace UpsertRules

variable (rules : UpsertRules κ ν)

/-- A value that is to be stored. -/
def store (value : ν) : Except String ν :=
  if rules.fits value then .ok value else .error rules.outOfRange

variable {rules} in
theorem store_of_fits {value : ν} (h : rules.fits value = true) : rules.store value = .ok value :=
  if_pos h

variable {rules} in
theorem store_ok {value value' : ν} (h : rules.store value = .ok value') :
    rules.fits value = true ∧ value' = value := by
  unfold store at h
  split at h
  · next hfits =>
    cases h
    exact ⟨hfits, rfl⟩
  · cases h

variable [DecidableEq κ]

/-- The row of the key is updated, and added if there is none that conflicts with it. -/
def putRow (key : κ) (value : ν) : List (κ × ν) → Except String (List (κ × ν))
  | [] => do
    let value ← rules.store value
    rules.references key
    return [(key, value)]
  | row :: rows =>
    if row.1 = key ∧ rules.indexed key then do
      let value ← rules.store (rules.merge row.2 value)
      return (row.1, value) :: rows
    else do
      let rows ← putRow key value rows
      return row :: rows

/-- One statement. -/
def upsertRow (rows : List (κ × ν)) (record : κ × ν) : Except String (List (κ × ν)) := do
  rules.notNull record.1
  rules.putRow record.1 record.2 rows

/-- The statements of a batch. -/
def bulkUpsert (rows : List (κ × ν)) (records : List (κ × ν)) : Except String (List (κ × ν)) :=
  records.foldlM rules.upsertRow rows

/-- A batch in two parts. -/
theorem bulkUpsert_append (rows records records' : List (κ × ν)) :
    rules.bulkUpsert rows (records ++ records') =
      rules.bulkUpsert rows records >>= fun rows => rules.bulkUpsert rows records' :=
  List.foldlM_append

end UpsertRules

variable [DecidableEq κ]

/-- The value of the first row of a key. -/
def valueAt (rows : List (κ × ν)) (key : κ) : Option ν :=
  match rows with
  | [] => none
  | row :: rows => if row.1 = key then some row.2 else valueAt rows key

/-- The values that a batch has for a key. -/
def valuesFor (key : κ) (records : List (κ × ν)) : List ν :=
  records.filterMap fun record => if record.1 = key then some record.2 else none

/-- A value that comes to what there is. -/
def plus [Add ν] (old : Option ν) (value : ν) : ν :=
  match old with
  | none => value
  | some old => old + value

/-- What there is, and the values that come to it one after another. -/
def total [Add ν] (old : Option ν) (values : List ν) : Option ν :=
  values.foldl (fun old value => some (plus old value)) old

/-- Every key stands once. -/
def OnePerKey (rows : List (κ × ν)) : Prop := (rows.map Prod.fst).Nodup

/-! ## Values and totals -/

section Values

variable {rows : List (κ × ν)} {key : κ}

theorem valueAt_eq_none : valueAt rows key = none ↔ key ∉ rows.map Prod.fst := by
  induction rows with
  | nil => exact iff_of_true rfl List.not_mem_nil
  | cons row rows ih =>
    unfold valueAt
    rw [List.map_cons, List.mem_cons]
    by_cases hkey : row.1 = key
    · rw [if_pos hkey]
      exact iff_of_false (Option.some_ne_none _) (fun h => h (Or.inl hkey.symm))
    · rw [if_neg hkey, ih]
      constructor
      · rintro h (hsame | hrest)
        · exact hkey hsame.symm
        · exact h hrest
      · exact fun h hrest => h (Or.inr hrest)

theorem valueAt_append_of_none {rows' : List (κ × ν)} (h : valueAt rows key = none) :
    valueAt (rows ++ rows') key = valueAt rows' key := by
  induction rows with
  | nil => rfl
  | cons row rows ih =>
    unfold valueAt at h
    split at h
    · cases h
    · next hkey =>
      rw [List.cons_append]
      exact (if_neg hkey).trans (ih h)

theorem valueAt_append_of_some {rows' : List (κ × ν)} {value : ν}
    (h : valueAt rows key = some value) : valueAt (rows ++ rows') key = some value := by
  induction rows with
  | nil => cases h
  | cons row rows ih =>
    unfold valueAt at h
    split at h
    · next hkey =>
      rw [List.cons_append]
      exact (if_pos hkey).trans h
    · next hkey =>
      rw [List.cons_append]
      exact (if_neg hkey).trans (ih h)

theorem onePerKey_append {value : ν} :
    OnePerKey (rows ++ [(key, value)]) ↔ OnePerKey rows ∧ valueAt rows key = none := by
  unfold OnePerKey
  rw [List.map_append, List.nodup_append, valueAt_eq_none]
  constructor
  · rintro ⟨hone, -, hapart⟩
    exact ⟨hone, fun hmem => hapart key hmem key (List.mem_singleton_self key) rfl⟩
  · rintro ⟨hone, hnew⟩
    refine ⟨hone, List.nodup_singleton key, ?_⟩
    intro a ha b hb
    rintro rfl
    rw [List.map_cons, List.map_nil, List.mem_singleton] at hb
    subst hb
    exact hnew ha

theorem valuesFor_cons_self (value : ν) (records : List (κ × ν)) :
    valuesFor key ((key, value) :: records) = value :: valuesFor key records := by
  show List.filterMap _ _ = _
  rw [List.filterMap_cons, if_pos rfl]
  rfl

theorem valuesFor_cons_ne {key' : κ} (hne : key' ≠ key) (value : ν) (records : List (κ × ν)) :
    valuesFor key ((key', value) :: records) = valuesFor key records := by
  show List.filterMap _ _ = _
  rw [List.filterMap_cons, if_neg hne]
  rfl

theorem valuesFor_append (records records' : List (κ × ν)) :
    valuesFor key (records ++ records') = valuesFor key records ++ valuesFor key records' :=
  List.filterMap_append

variable [Add ν] {old : Option ν}

@[simp] theorem total_cons (value : ν) (values : List ν) :
    total old (value :: values) = total (some (plus old value)) values := rfl

theorem total_append (values values' : List ν) :
    total old (values ++ values') = total (total old values) values' := List.foldl_append

end Values

/-! ## One row -/

namespace UpsertRules

variable {rules : UpsertRules κ ν} {rows rows' : List (κ × ν)} {key : κ} {value : ν}

/-- A row that conflicts with none is added at the end. -/
theorem putRow_fresh (h : valueAt rows key = none ∨ rules.indexed key = false) :
    rules.putRow key value rows = do
      let value ← rules.store value
      rules.references key
      return rows ++ [(key, value)] := by
  induction rows with
  | nil => rfl
  | cons row rows ih =>
    -- a key with a null in it may stand here, and is passed over
    have hno : ¬ (row.1 = key ∧ rules.indexed key = true) := by
      rintro ⟨hkey, hindexed⟩
      rcases h with h | h
      · unfold valueAt at h
        rw [if_pos hkey] at h
        cases h
      · rw [h] at hindexed
        cases hindexed
    have hrest : valueAt rows key = none ∨ rules.indexed key = false := by
      refine h.imp_left fun hnone => ?_
      unfold valueAt at hnone
      split at hnone
      · cases hnone
      · exact hnone
    unfold putRow
    rw [if_neg hno, ih hrest]
    cases rules.store value with
    | error e => rfl
    | ok value =>
      cases rules.references key with
      | error e => rfl
      | ok _ => rfl

/-- A row that conflicts with one takes its place, with the value merged. -/
theorem putRow_conflict {old : ν} (hindexed : rules.indexed key = true)
    (hold : valueAt rows key = some old) :
    (rules.fits (rules.merge old value) = false → ∃ e, rules.putRow key value rows = .error e) ∧
    (rules.fits (rules.merge old value) = true →
      ∃ rows', rules.putRow key value rows = .ok rows' ∧
        rows'.map Prod.fst = rows.map Prod.fst ∧
        ∀ key', valueAt rows' key' =
          if key' = key then some (rules.merge old value) else valueAt rows key') := by
  -- the rows before the one of the key are kept, and so are those after it
  induction rows with
  | nil => cases hold
  | cons row rows ih =>
    unfold valueAt at hold
    by_cases hkey : row.1 = key
    · rw [if_pos hkey] at hold
      cases hold
      have hput : rules.putRow key value (row :: rows) = (do
          let value ← rules.store (rules.merge row.2 value)
          return (row.1, value) :: rows) := if_pos ⟨hkey, hindexed⟩
      rw [hput]
      constructor
      · intro hfits
        have herror : rules.store (rules.merge row.2 value) = .error rules.outOfRange :=
          if_neg (by rw [hfits]; exact Bool.false_ne_true)
        rw [herror]
        exact ⟨rules.outOfRange, rfl⟩
      · intro hfits
        rw [store_of_fits hfits]
        refine ⟨_, rfl, rfl, fun key' => ?_⟩
        show (if row.1 = key' then _ else valueAt rows key') =
          if key' = key then _ else if row.1 = key' then _ else valueAt rows key'
        by_cases hkey' : key' = key
        · rw [if_pos hkey', if_pos (hkey.trans hkey'.symm)]
        · rw [if_neg hkey', if_neg (fun h => hkey' (h.symm.trans hkey)),
            if_neg (fun h => hkey' (h.symm.trans hkey))]
    · rw [if_neg hkey] at hold
      obtain ⟨hbad, hgood⟩ := ih hold
      have hput : rules.putRow key value (row :: rows) = (do
          let rows ← rules.putRow key value rows
          return row :: rows) := if_neg (fun h => hkey h.1)
      rw [hput]
      constructor
      · intro hfits
        obtain ⟨e, he⟩ := hbad hfits
        rw [he]
        exact ⟨e, rfl⟩
      · intro hfits
        obtain ⟨rows', hok, hkeys, hvalues⟩ := hgood hfits
        rw [hok]
        refine ⟨row :: rows', rfl, ?_, fun key' => ?_⟩
        · rw [List.map_cons, List.map_cons, hkeys]
        · show (if row.1 = key' then some row.2 else valueAt rows' key') =
            if key' = key then _ else if row.1 = key' then some row.2 else valueAt rows key'
          rw [hvalues key']
          by_cases hkey' : key' = key
          · rw [if_pos hkey', if_neg (fun h => hkey (h.trans hkey')), if_pos hkey']
          · rw [if_neg hkey', if_neg hkey']

/-- What has become of the rows where one is taken: it was added, or the one of its key was
changed. -/
theorem putRow_ok (h : rules.putRow key value rows = .ok rows') :
    ((valueAt rows key = none ∨ rules.indexed key = false) ∧ rules.fits value = true ∧
        rules.references key = .ok () ∧ rows' = rows ++ [(key, value)]) ∨
      (rules.indexed key = true ∧ ∃ old, valueAt rows key = some old ∧
        rules.fits (rules.merge old value) = true ∧
        rows'.map Prod.fst = rows.map Prod.fst) := by
  by_cases hfresh : valueAt rows key = none ∨ rules.indexed key = false
  · -- nothing conflicts: the value is stored as it is, and the references are looked up
    rw [putRow_fresh hfresh] at h
    cases hstore : rules.store value with
    | error e =>
      rw [hstore] at h
      cases h
    | ok stored =>
      obtain ⟨hfits, rfl⟩ := store_ok hstore
      cases hreferences : rules.references key with
      | error e =>
        rw [hstore, hreferences] at h
        cases h
      | ok _ =>
        rw [hstore, hreferences] at h
        cases h
        exact Or.inl ⟨hfresh, hfits, rfl, rfl⟩
  · have hindexed : rules.indexed key = true := by
      cases hkey : rules.indexed key with
      | true => rfl
      | false => exact absurd (Or.inr hkey) hfresh
    obtain ⟨old, hold⟩ := Option.ne_none_iff_exists'.mp (fun hnone => hfresh (Or.inl hnone))
    cases hfits : rules.fits (rules.merge old value) with
    | false =>
      obtain ⟨e, he⟩ := (putRow_conflict hindexed hold).1 hfits
      rw [he] at h
      cases h
    | true =>
      obtain ⟨rows'', hok, hkeys, -⟩ := (putRow_conflict hindexed hold).2 hfits
      rw [hok] at h
      cases h
      exact Or.inr ⟨hindexed, old, hold, hfits, hkeys⟩

theorem upsertRow_ok {record : κ × ν} (h : rules.upsertRow rows record = .ok rows') :
    rules.notNull record.1 = .ok () ∧ rules.putRow record.1 record.2 rows = .ok rows' := by
  unfold upsertRow at h
  cases hnull : rules.notNull record.1 with
  | error e =>
    rw [hnull] at h
    cases h
  | ok _ =>
    rw [hnull] at h
    exact ⟨rfl, h⟩

end UpsertRules

/-- What a table asks of a record, where `old` is what it has for the key. -/
structure RecordMeets [Add ν] (rules : UpsertRules κ ν) (old : Option ν) (record : κ × ν) : Prop
    where
  notNull : rules.notNull record.1 = .ok ()
  indexed : old ≠ none → rules.indexed record.1 = true
  references : old = none → rules.references record.1 = .ok ()
  fits : rules.fits (plus old record.2) = true

section OneRow

variable [Add ν] {rules : UpsertRules κ ν} (hmerge : ∀ old value, rules.merge old value = old + value)
  {rows : List (κ × ν)} {record : κ × ν}

include hmerge

/-- A record that the table asks for no more of is taken, and its key still stands once. -/
theorem RecordMeets.upsertRow (h : RecordMeets rules (valueAt rows record.1) record)
    (hone : OnePerKey rows) :
    ∃ rows', rules.upsertRow rows record = .ok rows' ∧ OnePerKey rows' ∧
      ∀ key, valueAt rows' key =
        if key = record.1 then some (plus (valueAt rows record.1) record.2)
        else valueAt rows key := by
  obtain ⟨key, value⟩ := record
  obtain ⟨hnull, hindexed, hreferences, hfits⟩ := h
  have hrow : rules.upsertRow rows (key, value) = rules.putRow key value rows := by
    unfold UpsertRules.upsertRow
    rw [hnull]
    rfl
  rw [hrow]
  cases hold : valueAt rows key with
  | none =>
    have hreferences : rules.references key = .ok () := hreferences hold
    simp only [hold] at hfits
    have hstore : rules.store value = .ok value := UpsertRules.store_of_fits hfits
    refine ⟨rows ++ [(key, value)], ?_, ?_, fun key' => ?_⟩
    · rw [UpsertRules.putRow_fresh (Or.inl hold), hstore]
      show (rules.references key >>= fun _ => _) = _
      rw [hreferences]
      rfl
    · exact onePerKey_append.mpr ⟨hone, hold⟩
    · by_cases hkey' : key' = key
      · subst hkey'
        rw [if_pos rfl, valueAt_append_of_none hold]
        exact if_pos rfl
      · rw [if_neg hkey']
        cases hvalue : valueAt rows key' with
        | none =>
          rw [valueAt_append_of_none hvalue]
          exact if_neg (fun h => hkey' h.symm)
        | some value' => exact valueAt_append_of_some hvalue
  | some old =>
    have hindexed : rules.indexed key = true := by
      refine hindexed ?_
      show valueAt rows key ≠ none
      rw [hold]
      exact Option.some_ne_none old
    simp only [hold] at hfits
    have hsum : rules.fits (rules.merge old value) = true := by
      rw [hmerge]
      exact hfits
    obtain ⟨rows', hok, hkeys, hvalues⟩ := (UpsertRules.putRow_conflict hindexed hold).2 hsum
    refine ⟨rows', hok, ?_, fun key' => ?_⟩
    · unfold OnePerKey
      rw [hkeys]
      exact hone
    · rw [hvalues key', hmerge]
      rfl

/-- Where a record is taken and every key stands once, the table asked for no more. -/
theorem RecordMeets.of_upsertRow {rows' : List (κ × ν)}
    (hok : rules.upsertRow rows record = .ok rows') (hone : OnePerKey rows') :
    RecordMeets rules (valueAt rows record.1) record := by
  obtain ⟨hnull, hput⟩ := UpsertRules.upsertRow_ok hok
  rcases UpsertRules.putRow_ok hput with
    ⟨-, hfits, hreferences, rfl⟩ | ⟨hindexed, old, hold, hfits, -⟩
  · have hnone : valueAt rows record.1 = none := (onePerKey_append.mp hone).2
    refine ⟨hnull, fun h => absurd hnone h, fun _ => hreferences, ?_⟩
    rw [hnone]
    exact hfits
  · refine ⟨hnull, fun _ => hindexed, fun h => ?_, ?_⟩
    · rw [hold] at h
      cases h
    · rw [hold]
      show rules.fits (old + record.2) = true
      rw [← hmerge]
      exact hfits

end OneRow

/-! ## Batches -/

namespace UpsertRules

variable {rules : UpsertRules κ ν} {rows rows' : List (κ × ν)}

/-- No row is taken away, and no key of a row is changed. -/
theorem keys_prefix_upsertRow {record : κ × ν} (h : rules.upsertRow rows record = .ok rows') :
    rows.map Prod.fst <+: rows'.map Prod.fst := by
  rcases putRow_ok (upsertRow_ok h).2 with ⟨-, -, -, rfl⟩ | ⟨-, -, -, -, hkeys⟩
  · rw [List.map_append]
    exact List.prefix_append _ _
  · exact hkeys ▸ List.prefix_refl _

theorem bulkUpsert_cons {record : κ × ν} {records : List (κ × ν)}
    (h : rules.bulkUpsert rows (record :: records) = .ok rows') :
    ∃ rows'', rules.upsertRow rows record = .ok rows'' ∧
      rules.bulkUpsert rows'' records = .ok rows' := by
  unfold bulkUpsert at h
  rw [List.foldlM_cons] at h
  cases hrow : rules.upsertRow rows record with
  | error e =>
    rw [hrow] at h
    cases h
  | ok rows'' =>
    rw [hrow] at h
    exact ⟨rows'', rfl, h⟩

theorem keys_prefix_bulkUpsert {records : List (κ × ν)}
    (h : rules.bulkUpsert rows records = .ok rows') :
    rows.map Prod.fst <+: rows'.map Prod.fst := by
  induction records generalizing rows with
  | nil =>
    cases h
    exact List.prefix_refl _
  | cons record records ih =>
    obtain ⟨rows'', hrow, hrest⟩ := bulkUpsert_cons h
    exact (keys_prefix_upsertRow hrow).trans (ih hrest)

/-- If every key stands once after a batch, it did before. -/
theorem onePerKey_of_bulkUpsert {records : List (κ × ν)}
    (h : rules.bulkUpsert rows records = .ok rows') (hone : OnePerKey rows') : OnePerKey rows :=
  hone.sublist (keys_prefix_bulkUpsert h).sublist

end UpsertRules

/-- What a table asks of a batch: each record is asked for what the ones before it leave. -/
def RecordsMeet [Add ν] (rules : UpsertRules κ ν) (rows records : List (κ × ν)) : Prop :=
  ∀ before record after, records = before ++ record :: after →
    RecordMeets rules (total (valueAt rows record.1) (valuesFor record.1 before)) record

section Batch

variable [Add ν] {rules : UpsertRules κ ν} (hmerge : ∀ old value, rules.merge old value = old + value)
  {rows rows' : List (κ × ν)} {record : κ × ν} {records : List (κ × ν)}

/-- A value that is read after a first record. -/
theorem total_valuesFor_cons
    (hvalues : ∀ key, valueAt rows' key =
      if key = record.1 then some (plus (valueAt rows record.1) record.2) else valueAt rows key)
    (key : κ) (before : List (κ × ν)) :
    total (valueAt rows' key) (valuesFor key before) =
      total (valueAt rows key) (valuesFor key (record :: before)) := by
  obtain ⟨key', value⟩ := record
  rw [hvalues key]
  by_cases hkey : key = key'
  · subst hkey
    rw [if_pos rfl, valuesFor_cons_self, total_cons]
  · rw [if_neg hkey, valuesFor_cons_ne (fun h => hkey h.symm)]

theorem recordsMeet_cons
    (hvalues : ∀ key, valueAt rows' key =
      if key = record.1 then some (plus (valueAt rows record.1) record.2) else valueAt rows key) :
    RecordsMeet rules rows (record :: records) ↔
      RecordMeets rules (valueAt rows record.1) record ∧ RecordsMeet rules rows' records := by
  constructor
  · intro h
    refine ⟨h [] record records rfl, fun before next after hsplit => ?_⟩
    rw [total_valuesFor_cons hvalues]
    exact h (record :: before) next after (congrArg (record :: ·) hsplit)
  · rintro ⟨hfirst, hrest⟩ before next after hsplit
    cases before with
    | nil =>
      cases hsplit
      exact hfirst
    | cons first before =>
      cases hsplit
      rw [← total_valuesFor_cons hvalues]
      exact hrest before next after rfl

include hmerge

/-- What a batch leaves where it is met. -/
theorem RecordsMeet.bulkUpsert (h : RecordsMeet rules rows records) (hone : OnePerKey rows) :
    ∃ rows', rules.bulkUpsert rows records = .ok rows' ∧ OnePerKey rows' := by
  induction records generalizing rows with
  | nil => exact ⟨rows, rfl, hone⟩
  | cons record records ih =>
    obtain ⟨rows', hrow, hone', hvalues⟩ := (h [] record records rfl).upsertRow hmerge hone
    obtain ⟨rows'', hrest, hone''⟩ := ih ((recordsMeet_cons hvalues).mp h).2 hone'
    refine ⟨rows'', ?_, hone''⟩
    show (rules.upsertRow rows record >>= fun rows => rules.bulkUpsert rows records) = _
    rw [hrow]
    exact hrest

/-- The first record of a batch that was taken. -/
theorem upsertRow_of_bulkUpsert (hone : OnePerKey rows)
    (hok : rules.bulkUpsert rows (record :: records) = .ok rows') (hone' : OnePerKey rows') :
    ∃ rows'', rules.bulkUpsert rows'' records = .ok rows' ∧ OnePerKey rows'' ∧
      RecordMeets rules (valueAt rows record.1) record ∧ ∀ key, valueAt rows'' key =
        if key = record.1 then some (plus (valueAt rows record.1) record.2)
        else valueAt rows key := by
  obtain ⟨rows'', hrow, hrest⟩ := UpsertRules.bulkUpsert_cons hok
  have hone'' := UpsertRules.onePerKey_of_bulkUpsert hrest hone'
  have hmeets := RecordMeets.of_upsertRow hmerge hrow hone''
  obtain ⟨rows₁, hrow₁, -, hvalues⟩ := hmeets.upsertRow hmerge hone
  rw [hrow] at hrow₁
  cases hrow₁
  exact ⟨rows'', hrest, hone'', hmeets, hvalues⟩

/-- A batch is taken as a whole, and leaves every key once, if and only if it is met. -/
theorem bulkUpsert_ok_iff (hone : OnePerKey rows) :
    (∃ rows', rules.bulkUpsert rows records = .ok rows' ∧ OnePerKey rows') ↔
      RecordsMeet rules rows records := by
  refine ⟨?_, fun h => h.bulkUpsert hmerge hone⟩
  rintro ⟨rows', hok, hone'⟩
  -- that the keys stand once in the end gives it for every state before
  induction records generalizing rows with
  | nil =>
    intro before record after hsplit
    cases before <;> cases hsplit
  | cons record records ih =>
    obtain ⟨rows'', hrest, hone'', hmeets, hvalues⟩ :=
      upsertRow_of_bulkUpsert hmerge hone hok hone'
    exact (recordsMeet_cons hvalues).mpr ⟨hmeets, ih hone'' hrest⟩

/-- After a batch each key has what it had and the values of the batch. -/
theorem valueAt_bulkUpsert (hok : rules.bulkUpsert rows records = .ok rows')
    (hone' : OnePerKey rows') (key : κ) :
    valueAt rows' key = total (valueAt rows key) (valuesFor key records) := by
  induction records generalizing rows with
  | nil =>
    cases hok
    rfl
  | cons record records ih =>
    have hone := UpsertRules.onePerKey_of_bulkUpsert hok hone'
    obtain ⟨rows'', hrest, -, -, hvalues⟩ := upsertRow_of_bulkUpsert hmerge hone hok hone'
    rw [ih hrest]
    exact total_valuesFor_cons hvalues key records

end Batch

/-! ## Batches without nulls -/

namespace UpsertRules

variable {rules : UpsertRules κ ν} {rows rows' : List (κ × ν)}

theorem onePerKey_upsertRow {record : κ × ν} (hindexed : rules.indexed record.1 = true)
    (h : rules.upsertRow rows record = .ok rows') (hone : OnePerKey rows) : OnePerKey rows' := by
  rcases putRow_ok (upsertRow_ok h).2 with ⟨hfresh, -, -, rfl⟩ | ⟨-, -, -, -, hkeys⟩
  · refine onePerKey_append.mpr ⟨hone, ?_⟩
    rcases hfresh with hnone | hfalse
    · exact hnone
    · rw [hindexed] at hfalse
      cases hfalse
  · unfold OnePerKey
    rw [hkeys]
    exact hone

theorem onePerKey_bulkUpsert {records : List (κ × ν)}
    (hindexed : ∀ record ∈ records, rules.indexed record.1 = true)
    (h : rules.bulkUpsert rows records = .ok rows') (hone : OnePerKey rows) : OnePerKey rows' := by
  induction records generalizing rows with
  | nil =>
    cases h
    exact hone
  | cons record records ih =>
    obtain ⟨rows'', hrow, hrest⟩ := bulkUpsert_cons h
    exact ih (fun next hnext => hindexed next (List.mem_cons_of_mem _ hnext)) hrest
      (onePerKey_upsertRow (hindexed record List.mem_cons_self) hrow hone)

/-- A row whose value is not changed by the merge. -/
theorem putRow_neutral {key : κ} {value old : ν} (hindexed : rules.indexed key = true)
    (hold : valueAt rows key = some old) (hsame : rules.merge old value = old)
    (hfits : rules.fits old = true) : rules.putRow key value rows = .ok rows := by
  induction rows with
  | nil => cases hold
  | cons row rows ih =>
    obtain ⟨key', value'⟩ := row
    unfold valueAt at hold
    by_cases hkey : key' = key
    · rw [if_pos hkey] at hold
      cases hold
      have hput : rules.putRow key value ((key', value') :: rows) = (do
          let value ← rules.store (rules.merge value' value)
          return (key', value) :: rows) := if_pos ⟨hkey, hindexed⟩
      rw [hput, hsame, store_of_fits hfits]
      rfl
    · rw [if_neg hkey] at hold
      have hput : rules.putRow key value ((key', value') :: rows) = (do
          let rows ← rules.putRow key value rows
          return (key', value') :: rows) := if_neg (fun h => hkey h.1)
      rw [hput, ih hold]
      rfl

end UpsertRules

/-! ## Batches with one record for each key -/

section Distinct

variable {rules : UpsertRules κ ν} {rows records : List (κ × ν)} {record : κ × ν}

theorem valuesFor_of_notMem {key : κ} (h : key ∉ records.map Prod.fst) :
    valuesFor key records = [] := by
  refine List.filterMap_eq_nil_iff.mpr fun record hrecord => ?_
  exact if_neg (fun hkey => h (List.mem_map.mpr ⟨record, hrecord, hkey⟩))

theorem valuesFor_of_mem (hnodup : (records.map Prod.fst).Nodup) (hmem : record ∈ records) :
    valuesFor record.1 records = [record.2] := by
  induction records with
  | nil => cases hmem
  | cons first records ih =>
    rw [List.map_cons, List.nodup_cons] at hnodup
    rcases List.mem_cons.mp hmem with rfl | hrest
    · obtain ⟨key, value⟩ := record
      rw [valuesFor_cons_self, valuesFor_of_notMem hnodup.1]
    · have hne : first.1 ≠ record.1 := by
        intro hkey
        exact hnodup.1 (hkey ▸ List.mem_map.mpr ⟨record, hrest, rfl⟩)
      obtain ⟨key, value⟩ := first
      rw [valuesFor_cons_ne hne]
      exact ih hnodup.2 hrest

/-- Where no key comes twice, each record is asked for what the table has. -/
theorem recordsMeet_of_nodup [Add ν] (hnodup : (records.map Prod.fst).Nodup) :
    RecordsMeet rules rows records ↔
      ∀ record ∈ records, RecordMeets rules (valueAt rows record.1) record := by
  have hbefore : ∀ before record after, records = before ++ record :: after →
      valuesFor record.1 before = [] := by
    intro before record after hsplit
    refine valuesFor_of_notMem fun hmem => ?_
    rw [hsplit, List.map_append, List.nodup_append] at hnodup
    exact hnodup.2.2 record.1 hmem record.1 List.mem_cons_self rfl
  constructor
  · intro h record hrecord
    obtain ⟨before, after, hsplit⟩ := List.append_of_mem hrecord
    have hmeets := h before record after hsplit
    rw [hbefore before record after hsplit] at hmeets
    exact hmeets
  · intro h before record after hsplit
    rw [hbefore before record after hsplit]
    exact h record (hsplit ▸ List.mem_append_right before List.mem_cons_self)

end Distinct

section NoNulls

variable [Add ν] {rules : UpsertRules κ ν} (hmerge : ∀ old value, rules.merge old value = old + value)
  {rows : List (κ × ν)} {records : List (κ × ν)}

include hmerge

theorem bulkUpsert_ok_iff_of_indexed
    (hindexed : ∀ record ∈ records, rules.indexed record.1 = true) (hone : OnePerKey rows) :
    (∃ rows', rules.bulkUpsert rows records = .ok rows') ↔ RecordsMeet rules rows records := by
  rw [← bulkUpsert_ok_iff hmerge hone]
  constructor
  · rintro ⟨rows', h⟩
    exact ⟨rows', h, UpsertRules.onePerKey_bulkUpsert hindexed h hone⟩
  · rintro ⟨rows', h, -⟩
    exact ⟨rows', h⟩

/-- A batch that changes no value. -/
theorem bulkUpsert_neutral
    (hneutral : ∀ record ∈ records, rules.notNull record.1 = .ok () ∧
      rules.indexed record.1 = true ∧
      ∃ old, valueAt rows record.1 = some old ∧ old + record.2 = old ∧ rules.fits old = true) :
    rules.bulkUpsert rows records = .ok rows := by
  induction records with
  | nil => rfl
  | cons record records ih =>
    obtain ⟨hnull, hindexed, old, hold, hsame, hfits⟩ := hneutral record List.mem_cons_self
    have hrow : rules.upsertRow rows record = .ok rows := by
      unfold UpsertRules.upsertRow
      rw [hnull]
      exact UpsertRules.putRow_neutral hindexed hold ((hmerge _ _).trans hsame) hfits
    show (rules.upsertRow rows record >>= fun rows => rules.bulkUpsert rows records) = _
    rw [hrow]
    exact ih fun next hnext => hneutral next (List.mem_cons_of_mem _ hnext)

end NoNulls

end Theory
