import Mathlib.Data.List.Basic

/-!
# Statements on a table with triggers

A table as the list of its rows, with `BEFORE` triggers for each row and constraints, and what a
statement does to it. A trigger and a constraint see what the statement has done so far; an
exception undoes the whole statement.

- `RowVerdict`: what a trigger answers for a row.
- `TableRules`: the triggers and the constraints of a table.
- `Statement`, `TableRules.exec`: one statement, which is accepted or refused.
- `insertRow_ok`, `updateRow_ok`, `deleteRow_ok`: what an accepted statement does with a row.
- `sweep`: the rows of a table one after another; `sweep_ok` and `sweep_of_act` say what it makes of
  them, where what becomes of a row does not depend on the others.
- `exec_update_iff`: the updates that a trigger accepts which looks at the row only.
- `exec_insert_inv`: what every row that is inserted keeps.
-/

namespace Theory

variable {ρ : Type}

/-- What a trigger answers for a row: the row to go on with, that nothing happens to it, or an
exception. -/
inductive RowVerdict (ρ : Type)
  | proceed (row : ρ)
  | skip
  | raise (message : String)

namespace RowVerdict

/-- The row that a trigger returns, which may be null. -/
def ofRow : Option ρ → RowVerdict ρ
  | some row => proceed row
  | none => skip

/-- Another trigger for the same event. -/
def andThen (v : RowVerdict ρ) (next : ρ → RowVerdict ρ) : RowVerdict ρ :=
  match v with
  | proceed row => next row
  | skip => skip
  | raise message => raise message

end RowVerdict

/-- What guards a table. The first argument of each trigger is the table as it is then, that of
`check` the other rows. -/
structure TableRules (ρ : Type) where
  beforeInsert : List ρ → ρ → RowVerdict ρ
  beforeUpdate : List ρ → ρ → ρ → RowVerdict ρ
  beforeDelete : List ρ → ρ → RowVerdict ρ
  check : List ρ → ρ → Except String Unit

/-- A statement: the rows to insert, or a condition on the rows with what becomes of them. -/
inductive Statement (ρ : Type)
  | insert (rows : List ρ)
  | update (cond : ρ → Bool) (set : ρ → ρ)
  | delete (cond : ρ → Bool)

/-- The rows of a table in a row; `act` says what replaces one of them, between the rows that are
done and those that are not. -/
def sweep (act : List ρ → ρ → List ρ → Except String (List ρ)) :
    List ρ → List ρ → Except String (List ρ)
  | before, [] => .ok before
  | before, row :: after =>
    match act before row after with
    | .error e => .error e
    | .ok new => sweep act (before ++ new) after

namespace TableRules

variable (rules : TableRules ρ)

/-- One row is inserted. -/
def insertRow (table : List ρ) (row : ρ) : Except String (List ρ) :=
  match rules.beforeInsert table row with
  | .raise message => .error message
  | .skip => .ok table
  | .proceed row =>
    match rules.check table row with
    | .error e => .error e
    | .ok () => .ok (table ++ [row])

/-- Several rows are inserted. -/
def insertRows (table : List ρ) : List ρ → Except String (List ρ)
  | [] => .ok table
  | row :: rows =>
    match rules.insertRow table row with
    | .error e => .error e
    | .ok table => insertRows table rows

/-- What an update makes of one row. -/
def updateRow (cond : ρ → Bool) (set : ρ → ρ) (before : List ρ) (row : ρ) (after : List ρ) :
    Except String (List ρ) :=
  if cond row then
    match rules.beforeUpdate (before ++ row :: after) row (set row) with
    | .raise message => .error message
    | .skip => .ok [row]
    | .proceed new =>
      match rules.check (before ++ after) new with
      | .error e => .error e
      | .ok () => .ok [new]
  else .ok [row]

/-- What a deletion leaves of one row. -/
def deleteRow (cond : ρ → Bool) (before : List ρ) (row : ρ) (after : List ρ) :
    Except String (List ρ) :=
  if cond row then
    match rules.beforeDelete (before ++ row :: after) row with
    | .raise message => .error message
    | .skip => .ok [row]
    | .proceed _ => .ok []
  else .ok [row]

/-- A statement: the table after it, or the exception that refuses it. -/
def exec (table : List ρ) : Statement ρ → Except String (List ρ)
  | .insert rows => rules.insertRows table rows
  | .update cond set => sweep (rules.updateRow cond set) [] table
  | .delete cond => sweep (rules.deleteRow cond) [] table

/-- A statement that is refused leaves the table as it is. -/
def step (table : List ρ) (stmt : Statement ρ) : List ρ :=
  match rules.exec table stmt with
  | .ok table' => table'
  | .error _ => table

variable {rules} {table table' : List ρ} {stmt : Statement ρ}

/-- A statement is accepted, with what it leaves, or refused. -/
theorem step_cases (rules : TableRules ρ) (table : List ρ) (stmt : Statement ρ) :
    rules.exec table stmt = .ok (rules.step table stmt) ∨
      (∃ e, rules.exec table stmt = .error e) ∧ rules.step table stmt = table := by
  unfold step
  cases h : rules.exec table stmt with
  | ok table' => exact .inl rfl
  | error e => exact .inr ⟨⟨e, rfl⟩, rfl⟩

/-- The statement that inserts one row. -/
theorem exec_insert_singleton (rules : TableRules ρ) (table : List ρ) (row : ρ) :
    rules.exec table (.insert [row]) = rules.insertRow table row := by
  show rules.insertRows table [row] = _
  unfold insertRows
  cases rules.insertRow table row <;> rfl

end TableRules

/-! ## One row -/

namespace TableRules

variable {rules : TableRules ρ} {table table' before after new : List ρ} {row : ρ}
  {cond : ρ → Bool} {set : ρ → ρ}

/-- A row that is inserted, or skipped. -/
theorem insertRow_ok (h : rules.insertRow table row = .ok table') :
    (rules.beforeInsert table row = .skip ∧ table' = table) ∨
      ∃ row', rules.beforeInsert table row = .proceed row' ∧ table' = table ++ [row'] := by
  unfold insertRow at h
  cases hverdict : rules.beforeInsert table row with
  | raise message =>
    rw [hverdict] at h
    cases h
  | skip =>
    rw [hverdict] at h
    cases h
    exact .inl ⟨rfl, rfl⟩
  | proceed row' =>
    rw [hverdict] at h
    dsimp only at h
    cases hcheck : rules.check table row' with
    | error e =>
      rw [hcheck] at h
      cases h
    | ok =>
      rw [hcheck] at h
      cases h
      exact .inr ⟨row', rfl, rfl⟩

/-- A row that an update is not about, or skips, or replaces. -/
theorem updateRow_ok (h : rules.updateRow cond set before row after = .ok new) :
    (cond row = false ∧ new = [row]) ∨
      cond row = true ∧ ((rules.beforeUpdate (before ++ row :: after) row (set row) = .skip ∧
          new = [row]) ∨
        ∃ row', rules.beforeUpdate (before ++ row :: after) row (set row) = .proceed row' ∧
          new = [row']) := by
  unfold updateRow at h
  split_ifs at h with hcond
  case neg =>
    cases h
    exact .inl ⟨Bool.eq_false_iff.mpr hcond, rfl⟩
  refine .inr ⟨hcond, ?_⟩
  cases hverdict : rules.beforeUpdate (before ++ row :: after) row (set row) with
  | raise message =>
    rw [hverdict] at h
    cases h
  | skip =>
    rw [hverdict] at h
    cases h
    exact .inl ⟨rfl, rfl⟩
  | proceed row' =>
    rw [hverdict] at h
    dsimp only at h
    cases hcheck : rules.check (before ++ after) row' with
    | error e =>
      rw [hcheck] at h
      cases h
    | ok =>
      rw [hcheck] at h
      cases h
      exact .inr ⟨row', rfl, rfl⟩

/-- A row that a deletion is not about, or skips, or removes. -/
theorem deleteRow_ok (h : rules.deleteRow cond before row after = .ok new) :
    (cond row = false ∧ new = [row]) ∨
      cond row = true ∧ ((rules.beforeDelete (before ++ row :: after) row = .skip ∧ new = [row]) ∨
        ∃ row', rules.beforeDelete (before ++ row :: after) row = .proceed row' ∧ new = []) := by
  unfold deleteRow at h
  split_ifs at h with hcond
  case neg =>
    cases h
    exact .inl ⟨Bool.eq_false_iff.mpr hcond, rfl⟩
  refine .inr ⟨hcond, ?_⟩
  cases hverdict : rules.beforeDelete (before ++ row :: after) row with
  | raise message =>
    rw [hverdict] at h
    cases h
  | skip =>
    rw [hverdict] at h
    cases h
    exact .inl ⟨rfl, rfl⟩
  | proceed row' =>
    rw [hverdict] at h
    cases h
    exact .inr ⟨row', rfl, rfl⟩

end TableRules

/-! ## Sweeps -/

section Sweep

variable {act : List ρ → ρ → List ρ → Except String (List ρ)} {f : ρ → List ρ} {P : ρ → Prop}

/-- Where the sweep goes through, and what an action may leave of a row is known, so is the
table. -/
theorem sweep_ok (hact : ∀ before row after new,
      act before row after = .ok new → new = f row ∧ P row)
    {before rest table : List ρ} (h : sweep act before rest = .ok table) :
    table = before ++ rest.flatMap f ∧ ∀ row ∈ rest, P row := by
  induction rest generalizing before with
  | nil =>
    unfold sweep at h
    cases h
    exact ⟨(List.append_nil _).symm, fun _ hmem => (List.not_mem_nil hmem).elim⟩
  | cons row rest ih =>
    unfold sweep at h
    cases hrow : act before row rest with
    | error e =>
      rw [hrow] at h
      cases h
    | ok new =>
      rw [hrow] at h
      obtain ⟨rfl, hP⟩ := hact before row rest new hrow
      obtain ⟨htable, hrest⟩ := ih h
      refine ⟨by rw [htable, List.flatMap_cons, List.append_assoc], fun other hother => ?_⟩
      rcases List.mem_cons.mp hother with rfl | hmem
      · exact hP
      · exact hrest other hmem

/-- Where no action fails, the sweep goes through. -/
theorem sweep_of_act {before rest : List ρ}
    (hact : ∀ row ∈ rest, ∀ before after, act before row after = .ok (f row)) :
    sweep act before rest = .ok (before ++ rest.flatMap f) := by
  induction rest generalizing before with
  | nil =>
    unfold sweep
    rw [List.flatMap_nil, List.append_nil]
  | cons row rest ih =>
    unfold sweep
    rw [hact row List.mem_cons_self before rest]
    dsimp only
    rw [ih fun other hother => hact other (List.mem_cons_of_mem _ hother), List.flatMap_cons,
      List.append_assoc]

end Sweep

/-! ## Updates of each row by itself -/

/-- Where the trigger of an update looks at the row only, and there are no constraints, an update is
accepted exactly if the trigger lets through every row that it is about. -/
theorem TableRules.exec_update_iff {rules : TableRules ρ} {verdict : ρ → RowVerdict ρ}
    (hbefore : ∀ table old new, rules.beforeUpdate table old new = verdict new)
    (hverdict : ∀ new, verdict new = .proceed new ∨ ∃ message, verdict new = .raise message)
    (hcheck : ∀ others row, rules.check others row = .ok ()) {cond : ρ → Bool} {set : ρ → ρ}
    {table table' : List ρ} :
    rules.exec table (.update cond set) = .ok table' ↔
      table' = table.map (fun row => if cond row then set row else row) ∧
        ∀ row ∈ table, cond row = true → verdict (set row) = .proceed (set row) := by
  rw [List.map_eq_flatMap]
  constructor
  · intro h
    have hsweep : sweep _ [] table = .ok table' := h
    refine sweep_ok (fun before row after new hact => ?_) hsweep
    rcases updateRow_ok hact with ⟨hcond, rfl⟩ | ⟨hcond, hguard⟩
    · rw [hcond]
      exact ⟨rfl, fun hc => absurd hc Bool.false_ne_true⟩
    · rw [hbefore] at hguard
      rcases hverdict (set row) with hproceed | ⟨message, hraise⟩
      · rw [hproceed] at hguard
        rcases hguard with ⟨hskip, -⟩ | ⟨row', hrow', rfl⟩
        · cases hskip
        · cases hrow'
          rw [hcond]
          exact ⟨rfl, fun _ => hproceed⟩
      · rw [hraise] at hguard
        rcases hguard with ⟨hskip, -⟩ | ⟨row', hrow', -⟩
        · cases hskip
        · cases hrow'
  · rintro ⟨rfl, hpass⟩
    refine sweep_of_act fun row hrow before after => ?_
    unfold updateRow
    split_ifs with hcond
    · rw [hbefore, hpass row hrow hcond]
      dsimp only
      rw [hcheck]
    · rfl

/-! ## Inserted rows -/

/-- What each inserted row keeps, a statement that inserts rows keeps. -/
theorem TableRules.exec_insert_inv {rules : TableRules ρ} {I : List ρ → Prop}
    (hrow : ∀ table row table', I table → rules.insertRow table row = .ok table' → I table')
    {rows table table' : List ρ} (hI : I table) (h : rules.exec table (.insert rows) = .ok table') :
    I table' := by
  change rules.insertRows table rows = .ok table' at h
  induction rows generalizing table with
  | nil =>
    unfold insertRows at h
    cases h
    exact hI
  | cons row rows ih =>
    unfold insertRows at h
    cases hinsert : rules.insertRow table row with
    | error e =>
      rw [hinsert] at h
      cases h
    | ok between =>
      rw [hinsert] at h
      exact ih (hrow table row between hI hinsert) h

end Theory
