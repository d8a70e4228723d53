import Mathlib.Tactic.Linarith
import Mathlib.Tactic.Ring
import Notifyr.Ingest.Urls

/-!
# The values of a range

`process_values` and `subtract_stepped_ranges` (`app/classes/url.py`) on the range parameters that
the validators of `URLParam` accept.

- `Stepped`: the numbers of a range with a step, its end included.
- `mem_pyRange`, `pyRange_sorted`: what `range` gives.
- `RangeExact`: the values are those of the range which the excluded range does not have, in order.
- `rangeExact_iff`: for which parameters this is so.

The numbers of a parameter are its start, its step and its end; those of the excluded range are
unpacked as start, end and step.
-/

namespace Notifyr

open Theory

/-- A number of the range from `start` to `stop`, both included. -/
def Stepped (start step stop x : ℤ) : Prop :=
  ∃ k : ℕ, x = start + k * step ∧ (0 < step → x ≤ stop) ∧ (step < 0 → stop ≤ x)

section Stepped

variable {start step stop x : ℤ}

theorem stepped_iff (h : 0 < step) :
    Stepped start step stop x ↔ start ≤ x ∧ x ≤ stop ∧ step ∣ x - start := by
  constructor
  · rintro ⟨k, rfl, hstop, -⟩
    refine ⟨?_, hstop h, ⟨k, by ring⟩⟩
    have hnonneg : 0 ≤ (k : ℤ) * step := mul_nonneg (Int.natCast_nonneg k) h.le
    omega
  · rintro ⟨hstart, hstop, m, hm⟩
    have hpos : 0 ≤ m := by
      by_contra hneg
      have hlt := mul_neg_of_pos_of_neg h (not_le.1 hneg)
      omega
    obtain ⟨k, rfl⟩ := Int.eq_ofNat_of_zero_le hpos
    exact ⟨k, by rw [mul_comm, ← hm]; ring, fun _ => hstop, fun hneg => by omega⟩

/-- A range that goes down has its start, where this is not above its end. -/
theorem stepped_iff_of_neg (h : step < 0) (hle : start ≤ stop) :
    Stepped start step stop x ↔ x = start ∧ start = stop := by
  constructor
  · rintro ⟨k, rfl, -, hstop⟩
    have hneg : (k : ℤ) * step ≤ 0 := mul_nonpos_of_nonneg_of_nonpos (Int.natCast_nonneg k) h.le
    have hle' := hstop h
    omega
  · rintro ⟨rfl, rfl⟩
    exact ⟨0, by simp, fun _ => le_rfl, fun _ => le_rfl⟩

theorem pyRange_eq (start stop step : ℤ) : pyRange start stop step =
    (List.range (rangeLength start stop step)).map fun k : ℕ => start + k * step := by
  have hcast : ∀ l : List ℕ, (do let k ← l; pure (k : ℤ)) = l.map fun k : ℕ => (k : ℤ) :=
    List.flatMap_pure_eq_map _
  unfold pyRange
  rw [hcast, List.map_map]
  rfl

/-- The numbers of `range`. -/
theorem mem_pyRange (h : 0 < step) :
    x ∈ pyRange start stop step ↔ start ≤ x ∧ x < stop ∧ step ∣ x - start := by
  have hlength (k : ℕ) : k < rangeLength start stop step ↔ start + k * step < stop := by
    unfold rangeLength
    rw [if_pos h, Int.lt_toNat, Int.lt_iff_add_one_le, Int.le_ediv_iff_mul_le h, add_mul]
    omega
  rw [pyRange_eq, List.mem_map]
  constructor
  · rintro ⟨k, hk, rfl⟩
    have hnonneg : 0 ≤ (k : ℤ) * step := mul_nonneg (Int.natCast_nonneg k) h.le
    refine ⟨?_, (hlength k).1 (List.mem_range.1 hk), ⟨k, by ring⟩⟩
    omega
  · intro hx
    obtain ⟨k, rfl, -⟩ := (stepped_iff h).2 ⟨hx.1, hx.2.1.le, hx.2.2⟩
    exact ⟨k, List.mem_range.2 ((hlength k).2 hx.2.1), rfl⟩

theorem pyRange_sorted (h : 0 < step) : (pyRange start stop step).Pairwise (· < ·) := by
  rw [pyRange_eq, List.pairwise_map]
  refine List.pairwise_lt_range.imp fun {i j} hij => ?_
  have hlt := mul_lt_mul_of_pos_right (Int.ofNat_lt.2 hij) h
  omega

/-- A range that goes down to an end that is not below has no numbers. -/
theorem pyRange_of_neg (h : step < 0) (hle : start ≤ stop) : pyRange start stop step = [] := by
  have hlength : rangeLength start stop step = 0 := by
    unfold rangeLength
    rw [if_neg (by omega), Int.toNat_eq_zero]
    exact Int.le_of_lt_add_one (Int.ediv_lt_of_lt_mul (by omega) (by omega))
  rw [pyRange_eq, hlength]
  rfl

end Stepped

/-! ## What is accepted -/

namespace URLParam

/-- A range parameter as the validators leave it. -/
structure Accepted (param : URLParam) (start step stop : ℤ) : Prop where
  type : param.type = .range
  ordered : start ≤ stop
  step_ne : step ≠ 0
  exclude : param.exclude = none ∨ ∃ start' step' stop',
    param.exclude = some (mk (.tuple start' step' stop') .range none) ∧
      start' ≤ stop' ∧ step' ≠ 0 ∧ start ≤ start' ∧ stop' ≤ stop ∧ step ≤ step'

/-- What the first validator leaves of a range. -/
theorem validateRangeOrList_tuple {order : SetOrder} {given param : URLParam}
    (h : validateRangeOrList order given = .ok param) {start step stop : ℤ}
    (hvalues : param.values = .tuple start step stop) :
    param = mk (.tuple start step stop) .range given.exclude ∧ start ≤ stop ∧ step ≠ 0 := by
  obtain ⟨values, type, exclude⟩ := given
  cases values with
  | list items =>
    cases type with
    | list =>
      cases h
      cases hvalues
    | range => cases h
  | tuple a p b =>
    cases type with
    | list =>
      cases h
      cases hvalues
    | range =>
      rw [validateRangeOrList] at h
      split_ifs at h with hle hzero
      cases h
      cases hvalues
      exact ⟨rfl, not_lt.1 hle, hzero⟩

/-- What the second validator leaves of a range whose excluded parameter was accepted. -/
theorem accepted_of_validateExclude {given param : URLParam} {start step stop : ℤ}
    (hgiven : given = mk (.tuple start step stop) .range given.exclude) (hle : start ≤ stop)
    (hstep : step ≠ 0)
    (hexclude : ∀ exclude, given.exclude = some exclude → ∀ start' step' stop',
      exclude.values = .tuple start' step' stop' → start' ≤ stop' ∧ step' ≠ 0)
    (h : validateExclude given = .ok param) : Accepted param start step stop := by
  rw [hgiven] at h
  cases hsome : given.exclude with
  | none =>
    rw [hsome] at h
    cases h
    exact ⟨rfl, hle, hstep, .inl rfl⟩
  | some exclude =>
    obtain ⟨values', type', exclude'⟩ := exclude
    rw [hsome] at h
    cases type' with
    | list =>
      have hdropped : validateExclude (mk (.tuple start step stop) .range
          (some (mk values' .list exclude'))) = .ok (mk (.tuple start step stop) .range none) := by
        cases values' <;> simp [validateExclude]
      cases hdropped.symm.trans h
      exact ⟨rfl, hle, hstep, .inl rfl⟩
    | range =>
      cases values' with
      | list items =>
        simp [validateExclude] at h
      | tuple start' step' stop' =>
        simp only [validateExclude, reduceCtorEq, or_self, if_false] at h
        split_ifs at h with hstart hstop hsteps
        cases h
        obtain ⟨hle', hstep'⟩ := hexclude _ hsome _ _ _ rfl
        exact ⟨rfl, hle, hstep, .inr ⟨start', step', stop', rfl, hle', hstep',
          not_lt.1 hstart, not_lt.1 hstop, not_lt.1 hsteps⟩⟩

/-- The values of a parameter are not changed by the second validator. -/
theorem validateExclude_values {given param : URLParam} (h : validateExclude given = .ok param) :
    param.values = given.values := by
  obtain ⟨values, type, exclude⟩ := given
  cases exclude with
  | none =>
    cases h
    rfl
  | some exclude =>
    obtain ⟨values', type', exclude'⟩ := exclude
    cases values <;> cases values' <;> simp only [validateExclude] at h <;> split_ifs at h <;>
      cases h <;> rfl

/-- What both validators leave of a range whose excluded parameter was accepted. -/
theorem accepted_of_validators {order : SetOrder} {given param : URLParam} {start step stop : ℤ}
    (h : (validateRangeOrList order given >>= validateExclude) = .ok param)
    (hvalues : param.values = .tuple start step stop)
    (hexclude : ∀ exclude, given.exclude = some exclude → ∀ start' step' stop',
      exclude.values = .tuple start' step' stop' → start' ≤ stop' ∧ step' ≠ 0) :
    Accepted param start step stop := by
  obtain ⟨between, hfirst, hsecond⟩ := bind_ok h
  obtain ⟨hbetween, hle, hstep⟩ := validateRangeOrList_tuple hfirst
    ((validateExclude_values hsecond).symm.trans hvalues)
  subst hbetween
  refine accepted_of_validateExclude rfl hle hstep ?_ hsecond
  exact hexclude

/-- **What the validators accept of a range.** -/
theorem accepted_of_validate {order : SetOrder} (given : URLParam) {param : URLParam}
    {start step stop : ℤ} (h : given.validate order = .ok param)
    (hvalues : param.values = .tuple start step stop) : Accepted param start step stop := by
  match given, h with
  | mk values type none, h =>
    rw [validate] at h
    exact accepted_of_validators h hvalues nofun
  | mk values type (some exclude), h =>
    rw [validate] at h
    obtain ⟨exclude', hexclude, h⟩ := bind_ok h
    refine accepted_of_validators h hvalues ?_
    intro e he start' step' stop' hvalues'
    cases he
    have haccepted := accepted_of_validate exclude hexclude hvalues'
    exact ⟨haccepted.ordered, haccepted.step_ne⟩

end URLParam

/-! ## What is generated -/

/-- The excluded range has the number. -/
def ExcludedNumber : Option URLParam → ℤ → Prop
  | some (.mk (.tuple start step stop) _ _), x => Stepped start step stop x
  | _, _ => False

/-- The values of a range are, in order and each once, its numbers without the excluded ones. -/
def RangeExact (param : URLParam) (start step stop : ℤ) : Prop :=
  ∃ xs : List ℤ, processValues param = .ok (xs.map .int) ∧ xs.Pairwise (· < ·) ∧
    ∀ x, x ∈ xs ↔ Stepped start step stop x ∧ ¬ ExcludedNumber param.exclude x

/-- The numbers of an excluded range whose step is taken for its end and whose end is taken for
its step. -/
def Misread (start step stop x : ℤ) : Prop :=
  0 < stop ∧ start ≤ x ∧ x < step ∧ stop ∣ x - start

instance (start step stop x : ℤ) : Decidable (Misread start step stop x) :=
  inferInstanceAs (Decidable (_ ∧ _))

/-- When the values are right: a range by itself does not go down from its start to the same
number; and one with an excluded range goes down, or has its end excluded, if it has it, and below
its end the same numbers excluded when these are misread. -/
def RangeGuard (start step stop : ℤ) : Option URLParam → Prop
  | some (.mk (.tuple start' step' stop') _ _) => 0 < step →
    (Stepped start step stop stop → Stepped start' step' stop' stop) ∧
      ∀ x < stop, Stepped start step stop x →
        (Stepped start' step' stop' x ↔ Misread start' step' stop' x)
  | _ => 0 < step ∨ start < stop

/-- With a positive step in its second place an excluded range is tested as it is misread. -/
theorem inExcluded_eq {start step stop : ℤ} (hle : start ≤ stop) (hstep : 0 < step) (x : ℤ) :
    inExcluded start step stop x = .ok (decide (Misread start step stop x)) := by
  have hbounds : (if stop > 0 then start ≤ x ∧ x < step else step < x ∧ x ≤ start) ↔
      0 < stop ∧ start ≤ x ∧ x < step := by
    by_cases hstop : stop > 0
    · simp [hstop]
    · rw [if_neg hstop]
      omega
  unfold inExcluded
  by_cases h : 0 < stop ∧ start ≤ x ∧ x < step
  · obtain ⟨hstop, hx, hx'⟩ := h
    rw [if_pos (hbounds.2 ⟨hstop, hx, hx'⟩), if_neg (by omega)]
    refine congrArg Except.ok (Bool.eq_iff_iff.2 ?_)
    rw [beq_iff_eq, decide_eq_true_iff, Int.fmod_eq_emod_of_nonneg _ hstop.le,
      ← Int.dvd_iff_emod_eq_zero]
    exact ⟨fun hdvd => ⟨hstop, hx, hx', hdvd⟩, fun hmis => hmis.2.2.2⟩
  · rw [if_neg (mt hbounds.1 h)]
    refine congrArg Except.ok (Eq.symm (decide_eq_false fun hmis => h ?_))
    exact ⟨hmis.1, hmis.2.1, hmis.2.2.1⟩

theorem filterMapM_ok {α β : Type} (f : α → Py Bool) (g : α → Bool) (c : α → β) (l : List α)
    (h : ∀ a, f a = .ok (g a)) :
    (l.filterMapM fun a => do return if ← f a then none else some (c a)) =
      (.ok ((l.filter fun a => !g a).map c) : Py (List β)) := by
  induction l with
  | nil => rfl
  | cons a l ih =>
    rw [List.filterMapM_cons, ih, h a]
    cases hg : g a <;> simp [hg] <;> rfl

/-- What is generated of a range that goes up, with an excluded range. -/
theorem processValues_exclude {start step stop start' step' stop' : ℤ} (hstep : step ≠ 0)
    (hle : start' ≤ stop') (hstep' : 0 < step') :
    processValues (.mk (.tuple start step stop) .range
        (some (.mk (.tuple start' step' stop') .range none))) =
      .ok (((pyRange start stop step).filter
        fun x => !decide (Misread start' step' stop' x)).map .int) := by
  have hleft := filterMapM_ok (inExcluded start' step' stop')
    (fun x => decide (Misread start' step' stop' x)) ParamValue.int (pyRange start stop step)
    (inExcluded_eq hle hstep')
  simp only [processValues, URLParam.values, URLParam.exclude, subtractSteppedRanges,
    URLParam.type, if_neg hstep, hleft]

/-- What is generated of a range by itself. -/
theorem processValues_alone {start step stop : ℤ} (hstep : step ≠ 0) :
    processValues (.mk (.tuple start step stop) .range none) =
      .ok ((pyRange start (stop + 1) step).map .int) := by
  simp only [processValues, URLParam.values, URLParam.exclude, if_neg hstep]

theorem map_int_injective : Function.Injective (List.map ParamValue.int) :=
  List.map_injective_iff.2 fun _ _ h => ParamValue.int.inj h

variable {start step stop start' step' stop' : ℤ}

/-- The values are right when the numbers that are generated are. -/
theorem rangeExact_of_processValues {param : URLParam} {xs : List ℤ}
    (h : processValues param = .ok (xs.map .int)) (hsorted : xs.Pairwise (· < ·)) :
    RangeExact param start step stop ↔
      ∀ x, x ∈ xs ↔ Stepped start step stop x ∧ ¬ ExcludedNumber param.exclude x := by
  refine ⟨?_, fun hmem => ⟨xs, h, hsorted, hmem⟩⟩
  rintro ⟨ys, hys, -, hmem⟩
  obtain rfl := map_int_injective (Except.ok.inj (hys.symm.trans h))
  exact hmem

/-- A range by itself. -/
theorem rangeExact_alone (hle : start ≤ stop) (hstep : step ≠ 0) :
    RangeExact (.mk (.tuple start step stop) .range none) start step stop ↔
      0 < step ∨ start < stop := by
  have hvalues : processValues (.mk (.tuple start step stop) .range none) =
      .ok ((pyRange start (stop + 1) step).map .int) := processValues_alone hstep
  rcases lt_or_gt_of_ne hstep with hneg | hpos
  · rw [pyRange_of_neg hneg (by omega)] at hvalues
    rw [rangeExact_of_processValues hvalues .nil]
    simp only [List.not_mem_nil, false_iff, stepped_iff_of_neg hneg hle]
    constructor
    · intro h
      by_contra hnot
      have hsame : start = stop := by omega
      exact h start ⟨⟨rfl, hsame⟩, id⟩
    · rintro h x ⟨⟨-, hsame⟩, -⟩
      omega
  · rw [rangeExact_of_processValues hvalues (pyRange_sorted hpos)]
    refine iff_of_true (fun x => ?_) (.inl hpos)
    rw [mem_pyRange hpos, stepped_iff hpos, Int.lt_add_one_iff]
    exact (and_iff_left id).symm

/-- A range that goes down, with an excluded range. -/
theorem rangeExact_exclude_of_neg (hneg : step < 0) (hle : start ≤ stop)
    (hle' : start' ≤ stop') (hstart : start ≤ start') (hstop : stop' ≤ stop) :
    RangeExact (.mk (.tuple start step stop) .range
      (some (.mk (.tuple start' step' stop') .range none))) start step stop := by
  have hvalues : processValues (.mk (.tuple start step stop) .range
      (some (.mk (.tuple start' step' stop') .range none))) = .ok (([] : List ℤ).map .int) := by
    simp only [processValues, URLParam.values, URLParam.exclude, subtractSteppedRanges,
      URLParam.type, if_neg hneg.ne, pyRange_of_neg hneg hle]
    rfl
  rw [rangeExact_of_processValues hvalues .nil]
  simp only [List.not_mem_nil, false_iff, stepped_iff_of_neg hneg hle]
  rintro x ⟨⟨rfl, hsame⟩, hexcluded⟩
  -- start and end are the same number, which is the start of the excluded range too
  obtain rfl : x = start' := by omega
  exact hexcluded ⟨0, by simp, fun _ => hle', fun _ => by omega⟩

/-- A range that goes up, with an excluded range. -/
theorem rangeExact_exclude (hpos : 0 < step) (hle' : start' ≤ stop') (hstep' : 0 < step') :
    RangeExact (.mk (.tuple start step stop) .range
        (some (.mk (.tuple start' step' stop') .range none))) start step stop ↔
      (Stepped start step stop stop → Stepped start' step' stop' stop) ∧
        ∀ x < stop, Stepped start step stop x →
          (Stepped start' step' stop' x ↔ Misread start' step' stop' x) := by
  have hmem (x : ℤ) : (x ∈ (pyRange start stop step).filter
        fun x => !decide (Misread start' step' stop' x)) ↔
      (Stepped start step stop x ∧ x < stop) ∧ ¬ Misread start' step' stop' x := by
    rw [List.mem_filter, mem_pyRange hpos, stepped_iff hpos, Bool.not_eq_true',
      decide_eq_false_iff_not]
    refine and_congr_left fun _ => ⟨fun h => ⟨⟨h.1, h.2.1.le, h.2.2⟩, h.2.1⟩, fun h => ?_⟩
    exact ⟨h.1.1, h.2, h.1.2.2⟩
  rw [rangeExact_of_processValues (processValues_exclude hpos.ne' hle' hstep')
    ((pyRange_sorted hpos).filter _)]
  simp only [hmem, URLParam.exclude, ExcludedNumber]
  constructor
  · intro h
    refine ⟨fun hend => ?_, fun x hlt hx => ?_⟩
    · by_contra hkept
      exact lt_irrefl _ ((h stop).2 ⟨hend, hkept⟩).1.2
    · have hx' := h x
      tauto
  · rintro ⟨hend, hsame⟩ x
    by_cases hx : Stepped start step stop x
    · rcases ((stepped_iff hpos).1 hx).2.1.lt_or_eq with hlt | rfl
      · have hx' := hsame x hlt hx
        tauto
      · have hexcluded := hend hx
        exact iff_of_false (fun h => lt_irrefl _ h.1.2) fun h => h.2 hexcluded
    · exact iff_of_false (fun h => hx h.1.1) fun h => hx h.1

/-- **The values of an accepted range are right** exactly under the guard. -/
theorem rangeExact_iff {order : SetOrder} {given param : URLParam} {start step stop : ℤ}
    (h : given.validate order = .ok param) (hvalues : param.values = .tuple start step stop) :
    RangeExact param start step stop ↔ RangeGuard start step stop param.exclude := by
  obtain ⟨htype, hle, hstep, hexclude⟩ := URLParam.accepted_of_validate given h hvalues
  obtain ⟨values, type, exclude⟩ := param
  obtain rfl : values = .tuple start step stop := hvalues
  obtain rfl : type = .range := htype
  rcases hexclude with hnone | ⟨start', step', stop', hsome, hle', hstep', hstart, hstop, hsteps⟩
  · obtain rfl : exclude = none := hnone
    exact rangeExact_alone hle hstep
  · obtain rfl : exclude = some (.mk (.tuple start' step' stop') .range none) := hsome
    rcases lt_or_gt_of_ne hstep with hneg | hpos
    · refine iff_of_true (rangeExact_exclude_of_neg hneg hle hle' hstart hstop) ?_
      intro hpos
      omega
    · rw [rangeExact_exclude hpos hle' (hpos.trans_le hsteps)]
      exact (imp_iff_right hpos).symm

/-- The pages one to five. -/
theorem rangeExact_pages :
    RangeExact (.mk (.tuple 1 1 5) .range none) 1 1 5 :=
  (rangeExact_iff (show (URLParam.mk (.tuple 1 1 5) .range none).validate insertionOrder =
    .ok (.mk (.tuple 1 1 5) .range none) from rfl) rfl).2 (.inl one_pos)

/-- The numbers one to ten without those from three to five. -/
def tenWithoutThree : URLParam :=
  .mk (.tuple 1 1 10) .range (some (.mk (.tuple 3 1 5) .range none))

/-- **An excluded range is not excluded, and the end is missing.** -/
theorem not_rangeExact_exclude :
    tenWithoutThree.validate insertionOrder = .ok tenWithoutThree ∧
      processValues tenWithoutThree = .ok ([1, 2, 3, 4, 5, 6, 7, 8, 9].map .int) ∧
      ¬ RangeExact tenWithoutThree 1 1 10 := by
  have hvalues : processValues tenWithoutThree =
      .ok ([1, 2, 3, 4, 5, 6, 7, 8, 9].map .int) := rfl
  refine ⟨rfl, hvalues, fun h => ?_⟩
  have hmem := (rangeExact_of_processValues hvalues (by decide)).1 h 3
  exact (hmem.1 (by decide)).2 ⟨0, rfl, fun _ => by decide, fun h => absurd h (by decide)⟩

end Notifyr
