import Mathlib.Data.Fintype.Defs
import Mathlib.Data.List.Nodup
import Notifyr.Theory.Runs

/-!
# Tables with foreign keys

Rows of several tables, with references from one to another, and what the deletion of a row does to
those that refer to it.

- `Schema`: the foreign keys, and what they do `ON DELETE`; what is deleted along with another row
  has no rows of its own.
- `Integrity`: keys stand once, and what is referred to is there.
- `delete`, `insertRow`, `update`: the statements; `delete_eq_ok_iff` says which deletions are
  accepted, and what is left.
- `delete_none`: nothing happens where no row is meant.
- `Integrity.insertRow`, `Integrity.update`, `Integrity.delete`: what each statement keeps.
-/

namespace Theory

/-- `ON DELETE`. -/
inductive OnDelete
  | cascade
  | setNull
  | noAction
  deriving DecidableEq, Repr

/-- Why a statement is refused. -/
inductive KeyViolation
  /-- The key of a new row is taken. -/
  | duplicateKey
  /-- What a new row refers to is not there, or has to be given and is not. -/
  | noReference
  /-- A row that would be left refers to one that would go. -/
  | stillReferenced
  deriving DecidableEq, Repr

/-- The foreign keys `F` between the tables `T`. -/
structure Schema (T F : Type) where
  child : F → T
  parent : F → T
  onDelete : F → OnDelete
  notNull : F → Bool
  /-- What is set null may be null. -/
  nullable : ∀ f, onDelete f = .setNull → notNull f = false
  /-- What is deleted along with another row has no rows of its own. -/
  flat : ∀ f g, onDelete f = .cascade → parent g ≠ child f

/-- A row: its table, its key, its references, and the rest. -/
structure DbRow (T F κ : Type) (ν : T → Type) where
  table : T
  id : κ
  refs : F → Option κ
  data : ν table

section Tables

variable {T F κ : Type} {ν : T → Type} [DecidableEq T] [DecidableEq κ] [Fintype F]
  (S : Schema T F)

/-- The tables of a database, together. -/
abbrev Db (T F κ : Type) (ν : T → Type) := List (DbRow T F κ ν)

/-- Under the foreign key `f`, `r` refers to one of the rows that are to go. -/
def Refers (db : Db T F κ ν) (gone : DbRow T F κ ν → Bool) (r : DbRow T F κ ν) (f : F) : Prop :=
  ∃ d ∈ db, gone d = true ∧ d.table = S.parent f ∧ r.refs f = some d.id

instance (db : Db T F κ ν) (gone : DbRow T F κ ν → Bool) (r : DbRow T F κ ν) (f : F) :
    Decidable (Refers S db gone r f) :=
  inferInstanceAs (Decidable (∃ d ∈ db, gone d = true ∧ _))

/-- A row goes along with one that it refers to. -/
def Cascades (db : Db T F κ ν) (gone : DbRow T F κ ν → Bool) (r : DbRow T F κ ν) : Prop :=
  ∃ f, S.onDelete f = .cascade ∧ Refers S db gone r f

instance (db : Db T F κ ν) (gone : DbRow T F κ ν → Bool) (r : DbRow T F κ ν) :
    Decidable (Cascades S db gone r) :=
  inferInstanceAs (Decidable (∃ f, S.onDelete f = _ ∧ _))

/-- The rows that a deletion leaves. -/
def kept (db : Db T F κ ν) (gone : DbRow T F κ ν → Bool) : Db T F κ ν :=
  db.filter fun r => gone r = false ∧ ¬ Cascades S db gone r

/-- What it makes of them. -/
def nulled (db : Db T F κ ν) (gone : DbRow T F κ ν → Bool) (r : DbRow T F κ ν) : DbRow T F κ ν :=
  { r with
    refs := fun f => if S.onDelete f = .setNull ∧ Refers S db gone r f then none else r.refs f }

/-- A row that is left holds on to one that is to go. -/
def Held (db : Db T F κ ν) (gone : DbRow T F κ ν → Bool) : Prop :=
  ∃ r ∈ kept S db gone, ∃ f, S.onDelete f = .noAction ∧ Refers S db gone r f

instance (db : Db T F κ ν) (gone : DbRow T F κ ν → Bool) : Decidable (Held S db gone) :=
  inferInstanceAs (Decidable (∃ r ∈ kept S db gone, _))

/-- `DELETE FROM t WHERE cond`. -/
def delete (t : T) (cond : DbRow T F κ ν → Bool) (db : Db T F κ ν) :
    Except KeyViolation (Db T F κ ν) :=
  let gone := fun r : DbRow T F κ ν => decide (r.table = t) && cond r
  if Held S db gone then .error .stillReferenced
  else .ok ((kept S db gone).map (nulled S db gone))

/-- One reference of a row: what it refers to is there. -/
def RefOk (db : Db T F κ ν) (r : DbRow T F κ ν) (f : F) : Option κ → Prop
  | some k => S.child f = r.table ∧ ∃ p ∈ db, p.table = S.parent f ∧ p.id = k
  | none => S.child f = r.table → S.notNull f = false

instance (db : Db T F κ ν) (r : DbRow T F κ ν) (f : F) : ∀ ref, Decidable (RefOk S db r f ref)
  | some k => inferInstanceAs (Decidable (_ ∧ ∃ p ∈ db, p.table = S.parent f ∧ p.id = k))
  | none => inferInstanceAs (Decidable (_ → _))

/-- What a row refers to is there. -/
def Refs (db : Db T F κ ν) (r : DbRow T F κ ν) : Prop := ∀ f, RefOk S db r f (r.refs f)

instance (db : Db T F κ ν) (r : DbRow T F κ ν) : Decidable (Refs S db r) :=
  inferInstanceAs (Decidable (∀ f, RefOk S db r f _))

/-- The key of a row, in its table. -/
def DbRow.key (r : DbRow T F κ ν) : T × κ := (r.table, r.id)

/-- `INSERT`. -/
def insertRow (r : DbRow T F κ ν) (db : Db T F κ ν) : Except KeyViolation (Db T F κ ν) :=
  if r.key ∈ db.map DbRow.key then .error .duplicateKey
  else if Refs S (db ++ [r]) r then .ok (db ++ [r])
  else .error .noReference

/-- `UPDATE` of columns that are no keys. -/
def update (t : T) (cond : DbRow T F κ ν → Bool) (set : ∀ t, ν t → ν t) (db : Db T F κ ν) :
    Db T F κ ν :=
  db.map fun r => if r.table = t ∧ cond r = true then { r with data := set r.table r.data } else r

/-- Keys stand once, and what is referred to is there. -/
structure Integrity (db : Db T F κ ν) : Prop where
  keys : (db.map DbRow.key).Nodup
  refs : ∀ r ∈ db, Refs S db r

/-! ## One statement -/

section Statements

variable {S} {db db' : Db T F κ ν} {t : T} {cond : DbRow T F κ ν → Bool} {r : DbRow T F κ ν}

/-- The rows that `DELETE FROM t WHERE cond` is for. -/
def goneOf (t : T) (cond : DbRow T F κ ν → Bool) (r : DbRow T F κ ν) : Bool :=
  decide (r.table = t) && cond r

omit [DecidableEq κ] [Fintype F] in
theorem goneOf_iff : goneOf t cond r = true ↔ r.table = t ∧ cond r = true := by
  simp [goneOf]

/-- **Which deletions are accepted**, and what they come to. -/
theorem delete_eq_ok_iff :
    delete S t cond db = .ok db' ↔ ¬ Held S db (goneOf t cond) ∧
      db' = (kept S db (goneOf t cond)).map (nulled S db (goneOf t cond)) := by
  have hdelete : delete S t cond db = if Held S db (goneOf t cond) then .error .stillReferenced
      else .ok ((kept S db (goneOf t cond)).map (nulled S db (goneOf t cond))) := rfl
  rw [hdelete]
  split_ifs with hheld
  · exact iff_of_false nofun fun h => h.1 hheld
  · rw [Except.ok.injEq]
    exact ⟨fun h => ⟨hheld, h.symm⟩, fun h => h.2.symm⟩

theorem delete_of_held (h : Held S db (goneOf t cond)) :
    delete S t cond db = .error .stillReferenced := if_pos h

theorem mem_kept_iff {gone : DbRow T F κ ν → Bool} :
    r ∈ kept S db gone ↔ r ∈ db ∧ gone r = false ∧ ¬ Cascades S db gone r := by
  unfold kept
  rw [List.mem_filter, decide_eq_true_iff]

omit [Fintype F] in
/-- What refers to no row that goes is left as it is. -/
theorem nulled_eq {gone : DbRow T F κ ν → Bool} (h : ∀ f, ¬ Refers S db gone r f) :
    nulled S db gone r = r := by
  unfold nulled
  simp [h]

omit [Fintype F] in
/-- What is not set null stays. -/
theorem nulled_refs {gone : DbRow T F κ ν → Bool} {f : F} (h : S.onDelete f ≠ .setNull) :
    (nulled S db gone r).refs f = r.refs f := if_neg fun hset => h hset.1

/-- Nothing happens where no row is meant. -/
theorem delete_none (h : ∀ r ∈ db, r.table = t → cond r = false) : delete S t cond db = .ok db := by
  have hgone : ∀ r ∈ db, goneOf t cond r = false := by
    intro r hr
    by_contra hg
    rw [Bool.not_eq_false, goneOf_iff] at hg
    rw [h r hr hg.1] at hg
    exact Bool.false_ne_true hg.2
  have hrefers : ∀ r f, ¬ Refers S db (goneOf t cond) r f := by
    rintro r f ⟨d, hd, hg, -⟩
    rw [hgone d hd] at hg
    exact Bool.false_ne_true hg
  have hkept : kept S db (goneOf t cond) = db := by
    refine List.filter_eq_self.mpr fun r hr => ?_
    rw [decide_eq_true_iff]
    exact ⟨hgone r hr, fun ⟨f, _, hf⟩ => hrefers r f hf⟩
  refine delete_eq_ok_iff.mpr ⟨fun ⟨r, _, f, _, hf⟩ => hrefers r f hf, ?_⟩
  rw [hkept, List.map_congr_left fun r _ => nulled_eq (hrefers r), List.map_id']

/-- What holds on to a row is not deleted along with one, and is in another table. -/
structure Schema.Apart (S : Schema T F) : Prop where
  cascade : ∀ f g, S.onDelete f = .noAction → S.onDelete g = .cascade → S.child f ≠ S.child g
  self : ∀ f, S.onDelete f = .noAction → S.child f ≠ S.parent f

omit [DecidableEq T] [DecidableEq κ] [Fintype F] in
/-- A reference is one that the table of its row has. -/
theorem Refs.child_eq {f : F} {k : κ} (h : Refs S db r) (hk : r.refs f = some k) :
    S.child f = r.table := by
  have href := h f
  rw [hk] at href
  exact href.1

/-- **What holds on to a row that is to go**: any row that refers to it under a key `NO ACTION`. -/
theorem held_iff (hapart : S.Apart) (hdb : ∀ r ∈ db, Refs S db r) :
    Held S db (goneOf t cond) ↔
      ∃ r ∈ db, ∃ f, S.onDelete f = .noAction ∧ Refers S db (goneOf t cond) r f := by
  constructor
  · rintro ⟨r, hr, hf⟩
    exact ⟨r, (mem_kept_iff.mp hr).1, hf⟩
  · rintro ⟨r, hr, f, hf, hrefers⟩
    obtain ⟨d, hd, hgone, htable, hk⟩ := hrefers
    have hchild : S.child f = r.table := (hdb r hr).child_eq hk
    refine ⟨r, mem_kept_iff.mpr ⟨hr, ?_, ?_⟩, f, hf, d, hd, hgone, htable, hk⟩
    · by_contra hg
      rw [Bool.not_eq_false, goneOf_iff] at hg
      have hparent : S.parent f = t := htable.symm.trans (goneOf_iff.mp hgone).1
      exact hapart.self f hf (hchild.trans (hg.1.trans hparent.symm))
    · rintro ⟨g, hg, e, -, -, -, he⟩
      exact hapart.cascade f g hf hg (hchild.trans ((hdb r hr).child_eq he).symm)

omit [Fintype F] in
/-- Who refers to the one row that is to go: whoever has its key. -/
theorem refers_key_iff {f : F} {k : κ} (hdb : ∀ r ∈ db, Refs S db r) (hr : r ∈ db) :
    Refers S db (goneOf t fun r => decide (r.id = k)) r f ↔
      S.parent f = t ∧ r.refs f = some k := by
  constructor
  · rintro ⟨d, -, hgone, htable, hk⟩
    obtain ⟨hdt, hdk⟩ := goneOf_iff.mp hgone
    exact ⟨htable.symm.trans hdt, hk.trans (congrArg some (of_decide_eq_true hdk))⟩
  · rintro ⟨hparent, hk⟩
    have href := hdb r hr f
    rw [hk] at href
    obtain ⟨-, p, hp, htable, hid⟩ := href
    refine ⟨p, hp, goneOf_iff.mpr ⟨htable.trans hparent, decide_eq_true hid⟩, htable, ?_⟩
    rw [hk, hid]

/-- What refers to a row that is left still finds it. -/
theorem refs_nulled {gone : DbRow T F κ ν → Bool} (hheld : ¬ Held S db gone)
    (hdb : ∀ r ∈ db, Refs S db r) (hr : r ∈ kept S db gone) :
    Refs S ((kept S db gone).map (nulled S db gone)) (nulled S db gone r) := by
  obtain ⟨hmem, -, hcascades⟩ := mem_kept_iff.mp hr
  intro f
  have href := hdb r hmem f
  by_cases hset : S.onDelete f = .setNull ∧ Refers S db gone r f
  · have hnull : (nulled S db gone r).refs f = none := if_pos hset
    rw [hnull]
    exact fun _ => S.nullable f hset.1
  · have hsame : (nulled S db gone r).refs f = r.refs f := if_neg hset
    rw [hsame]
    cases hk : r.refs f with
    | none =>
      rw [hk] at href
      exact href
    | some k =>
      rw [hk] at href
      obtain ⟨hchild, p, hp, htable, rfl⟩ := href
      -- the row that `f` refers to has not gone: else `r` had gone, been set null, or held it
      have hpkept : p ∈ kept S db gone := by
        refine mem_kept_iff.mpr ⟨hp, ?_, ?_⟩
        · by_contra hg
          rw [Bool.not_eq_false] at hg
          have hrefers : Refers S db gone r f := ⟨p, hp, hg, htable, hk⟩
          cases hf : S.onDelete f with
          | cascade => exact hcascades ⟨f, hf, hrefers⟩
          | setNull => exact hset ⟨hf, hrefers⟩
          | noAction => exact hheld ⟨r, hr, f, hf, hrefers⟩
        · rintro ⟨g, hg, d, hd, -, hdtable, hdk⟩
          have hgchild := hdb p hp g
          rw [hdk] at hgchild
          exact S.flat g f hg (htable.symm.trans hgchild.1.symm)
      exact ⟨hchild, _, List.mem_map_of_mem hpkept, htable, rfl⟩

/-- **A deletion keeps integrity.** -/
theorem Integrity.delete (h : Integrity S db) (hok : Theory.delete S t cond db = .ok db') :
    Integrity S db' := by
  obtain ⟨hheld, rfl⟩ := delete_eq_ok_iff.mp hok
  constructor
  · rw [List.map_map]
    exact (h.keys.sublist ((List.filter_sublist).map DbRow.key) :)
  · intro r' hr'
    obtain ⟨r, hr, rfl⟩ := List.mem_map.mp hr'
    exact refs_nulled hheld h.refs hr

omit [DecidableEq T] [DecidableEq κ] [Fintype F] in
/-- A row finds what it refers to in any database that has the same keys. -/
theorem Refs.of_keys (hkeys : ∀ k ∈ db.map DbRow.key, k ∈ db'.map DbRow.key)
    (h : Refs S db r) : Refs S db' r := by
  intro f
  have href := h f
  cases hk : r.refs f with
  | none =>
    rw [hk] at href
    exact href
  | some k =>
    rw [hk] at href
    obtain ⟨hchild, p, hp, htable, hid⟩ := href
    obtain ⟨q, hq, hkey⟩ := List.mem_map.mp (hkeys _ (List.mem_map_of_mem hp))
    obtain ⟨hqtable, hqid⟩ := Prod.mk.inj hkey
    exact ⟨hchild, q, hq, hqtable.trans htable, hqid.trans hid⟩

/-- Which insertions are accepted, and what they come to. -/
theorem insertRow_eq_ok_iff : insertRow S r db = .ok db' ↔
    r.key ∉ db.map DbRow.key ∧ Refs S (db ++ [r]) r ∧ db' = db ++ [r] := by
  have hinsert : insertRow S r db = if r.key ∈ db.map DbRow.key then .error .duplicateKey
      else if Refs S (db ++ [r]) r then .ok (db ++ [r]) else .error .noReference := rfl
  rw [hinsert]
  split_ifs with hkey hrefs
  · exact iff_of_false nofun fun h => h.1 hkey
  · rw [Except.ok.injEq]
    exact ⟨fun h => ⟨hkey, hrefs, h.symm⟩, fun h => h.2.2.symm⟩
  · exact iff_of_false nofun fun h => hrefs h.2.1

/-- **An insertion keeps integrity.** -/
theorem Integrity.insertRow (h : Integrity S db) (hok : Theory.insertRow S r db = .ok db') :
    Integrity S db' := by
  obtain ⟨hkey, hrefs, rfl⟩ := insertRow_eq_ok_iff.mp hok
  have hmap : (db ++ [r]).map DbRow.key = db.map DbRow.key ++ [r.key] := List.map_append
  constructor
  · rw [hmap, List.nodup_append]
    refine ⟨h.keys, List.nodup_singleton _, ?_⟩
    rintro a ha b hb rfl
    obtain rfl := List.mem_singleton.mp hb
    exact hkey ha
  · intro q hq
    rcases List.mem_append.mp hq with hq | hq
    · refine (h.refs q hq).of_keys fun k hk => ?_
      rw [hmap]
      exact List.mem_append_left _ hk
    · obtain rfl := List.mem_singleton.mp hq
      exact hrefs

omit [DecidableEq κ] [Fintype F] in
@[simp] theorem update_key {set : ∀ t, ν t → ν t} :
    (Theory.update t cond set db).map DbRow.key = db.map DbRow.key := by
  unfold Theory.update
  rw [List.map_map]
  refine List.map_congr_left fun r _ => ?_
  rw [Function.comp_apply]
  split_ifs <;> rfl

omit [DecidableEq κ] [Fintype F] in
/-- **An update keeps integrity.** -/
theorem Integrity.update {set : ∀ t, ν t → ν t} (h : Integrity S db) :
    Integrity S (Theory.update t cond set db) := by
  have hkeys : (Theory.update t cond set db).map DbRow.key = db.map DbRow.key := update_key
  refine ⟨hkeys ▸ h.keys, fun r' hr' => ?_⟩
  obtain ⟨r, hr, rfl⟩ := List.mem_map.mp hr'
  have href : Refs S (Theory.update t cond set db) r :=
    (h.refs r hr).of_keys fun k hk => hkeys ▸ hk
  split_ifs
  · exact href
  · exact href

omit [DecidableEq T] [DecidableEq κ] [Fintype F] in
theorem Integrity.nil : Integrity S ([] : Db T F κ ν) := ⟨List.nodup_nil, List.forall_mem_nil _⟩

/-! ## How many rows a table has -/

omit [DecidableEq κ] [Fintype F] in
theorem update_count {set : ∀ t, ν t → ν t} (t' : T) :
    (Theory.update t cond set db).countP (fun r => r.table = t') =
      db.countP fun r => r.table = t' := by
  unfold Theory.update
  rw [List.countP_map]
  refine List.countP_congr fun r _ => ?_
  rw [Function.comp_apply]
  split_ifs <;> rfl

/-- A deletion adds no rows. -/
theorem delete_count_le (hok : Theory.delete S t cond db = .ok db') (t' : T) :
    db'.countP (fun r => r.table = t') ≤ db.countP fun r => r.table = t' := by
  obtain ⟨-, rfl⟩ := delete_eq_ok_iff.mp hok
  rw [List.countP_map]
  exact List.filter_sublist.countP_le

end Statements

end Tables

end Theory
