import Mathlib.Data.List.Sort
import Mathlib.Data.List.Perm.Subperm
import Notifyr.Utils.Paths

/-!
# What `filter_paths` keeps

- `pathComponents`, `LiesUnder`: paths by their components, and the directories above a path.
- `filterPaths_eq`: the loop keeps the paths that do not start with another one and the separator.
- `PathsFiltered`: one path for each directory, covering what was covered.
- `pathsFiltered_iff`: for which lists; `pathsFiltered_of_wellSpelled`: lists of well spelled paths
  without repetitions are among them.
-/

namespace Notifyr

/-! ## Components -/

/-- The components of a path: a leading separator is one, empty segments and `.` are none. -/
def pathComponents (sep : Char) (path : String) : List (List Char) :=
  (if path.toList.head? = some sep then [[sep]] else []) ++
    (path.toList.splitOn sep).filter fun s => s ≠ [] ∧ s ≠ ['.']

/-- `path` is `d`, or `d` is a directory above it. The root is above every path, also above those
that are spelled without it. -/
def LiesUnder (sep : Char) (d path : String) : Prop :=
  pathComponents sep d = [[sep]] ∨ pathComponents sep d <+: pathComponents sep path

instance (sep : Char) (d path : String) : Decidable (LiesUnder sep d path) :=
  inferInstanceAs (Decidable (_ ∨ _))

/-- One of the two is the other or a directory above it. -/
def Comparable (sep : Char) (p q : String) : Prop := LiesUnder sep p q ∨ LiesUnder sep q p

theorem comparable_comm {sep : Char} {p q : String} : Comparable sep p q ↔ Comparable sep q p :=
  or_comm

theorem components_of_startsWith {sep : Char} {d path : String}
    (h : startsWith path (d ++ String.singleton sep) = true) :
    pathComponents sep d <+: pathComponents sep path := by
  rw [startsWith_iff, String.toList_append, String.toList_singleton] at h
  obtain ⟨rest, hrest⟩ := h
  have hpath : path.toList = d.toList ++ sep :: rest := by
    rw [← hrest]
    simp
  unfold pathComponents
  rw [hpath, List.splitOn_append_cons_self, List.filter_append, ← List.append_assoc]
  cases hd : d.toList with
  | nil => simp [List.splitOn_nil]
  | cons c cs =>
    simp only [List.cons_append, List.head?_cons]
    exact List.prefix_append _ _

theorem Below.liesUnder {sep : Char} {d path : String}
    (h : Below (String.singleton sep) d path) : LiesUnder sep d path := by
  rcases h with rfl | h
  · exact .inr (List.prefix_refl _)
  · exact .inr (components_of_startsWith h)

theorem LiesUnder.trans {sep : Char} {c d path : String} (hcd : LiesUnder sep c d)
    (hdp : LiesUnder sep d path) : LiesUnder sep c path := by
  rcases hcd with hc | hcd
  · exact .inl hc
  · rcases hdp with hd | hdp
    · -- above the root there is the root, or nothing is said
      rw [hd] at hcd
      rcases List.prefix_cons_iff.mp hcd with h | ⟨t, h, ht⟩
      · exact .inr (h ▸ List.nil_prefix)
      · rw [List.prefix_nil.mp ht] at h
        exact .inl h
    · exact .inr (hcd.trans hdp)

/-! ## What is kept -/

/-- `path` starts with a path of the list and the separator. -/
def StartsBelow (sep : Char) (paths : List String) (path : String) : Prop :=
  ∃ d ∈ paths, startsWith path (d ++ String.singleton sep) = true

instance (sep : Char) (paths : List String) (path : String) :
    Decidable (StartsBelow sep paths path) := inferInstanceAs (Decidable (∃ _ ∈ _, _))

theorem StartsBelow.of_mem_iff {sep : Char} {ps qs : List String} (h : ∀ p, p ∈ ps ↔ p ∈ qs)
    (path : String) : StartsBelow sep ps path ↔ StartsBelow sep qs path := by
  simp only [StartsBelow, h]

/-- How deep `filter_paths` takes a path to be. -/
def depth (sep : Char) (path : String) : ℕ := path.toList.count sep

theorem depth_lt {sep : Char} {d path : String}
    (h : startsWith path (d ++ String.singleton sep) = true) : depth sep d < depth sep path := by
  rw [startsWith_iff, String.toList_append, String.toList_singleton] at h
  have hle := h.sublist.count_le sep
  rw [List.count_append, List.count_singleton_self] at hle
  exact hle

/-- The loop on paths that are sorted by depth: `done` are the paths it has seen. -/
theorem filterLoop_eq {sep : Char} {results done paths : List String}
    (hsorted : (done ++ paths).Pairwise fun p q => depth sep p ≤ depth sep q)
    (hsub : ∀ d ∈ results, d ∈ done)
    (hcov : ∀ p ∈ done, ∃ d ∈ results, Below (String.singleton sep) d p) :
    filterLoop (String.singleton sep) results paths =
      results ++ paths.filter fun p => ¬ StartsBelow sep (done ++ paths) p := by
  induction paths generalizing results done with
  | nil => simp [filterLoop]
  | cons path paths ih =>
    -- whatever `path` starts with was seen before, as it is less deep
    have hany : (results.any fun d => startsWith path (d ++ String.singleton sep)) = true ↔
        StartsBelow sep (done ++ path :: paths) path := by
      rw [List.any_eq_true]
      constructor
      · rintro ⟨d, hd, h⟩
        exact ⟨d, List.mem_append_left _ (hsub d hd), h⟩
      · rintro ⟨d, hd, h⟩
        have hlt := depth_lt h
        have hdone : d ∈ done := by
          rcases List.mem_append.mp hd with hd | hd
          · exact hd
          · have hle : depth sep path ≤ depth sep d := by
              rcases List.mem_cons.mp hd with rfl | hd
              · exact le_refl _
              · exact List.rel_of_pairwise_cons (List.pairwise_append.mp hsorted).2.1 hd
            omega
        obtain ⟨e, he, hed⟩ := hcov d hdone
        exact ⟨e, he, hed.startsWith h⟩
    have happ : done ++ path :: paths = (done ++ [path]) ++ paths := by simp
    rw [happ] at hsorted
    rw [List.filter_cons]
    by_cases hdrop : StartsBelow sep (done ++ path :: paths) path
    · have htrue := hany.mpr hdrop
      have hloop : filterLoop (String.singleton sep) results (path :: paths) =
          filterLoop (String.singleton sep) results paths := by
        rw [filterLoop, htrue]
        rfl
      rw [hloop, ih hsorted (fun d hd => List.mem_append_left _ (hsub d hd)), ← happ]
      · simp [hdrop]
      · intro p hp
        rcases List.mem_append.mp hp with hp | hp
        · exact hcov p hp
        · rw [List.mem_singleton.mp hp]
          obtain ⟨d, hd, h⟩ := List.any_eq_true.mp htrue
          exact ⟨d, hd, .inr h⟩
    · have hfalse := Bool.eq_false_iff.mpr fun h => hdrop (hany.mp h)
      have hloop : filterLoop (String.singleton sep) results (path :: paths) =
          filterLoop (String.singleton sep) (results ++ [path]) paths := by
        rw [filterLoop, hfalse]
        rfl
      rw [hloop, ih hsorted, ← happ]
      · simp [hdrop]
      · intro d hd
        rcases List.mem_append.mp hd with hd | hd
        · exact List.mem_append_left _ (hsub d hd)
        · exact List.mem_append_right _ hd
      · intro p hp
        rcases List.mem_append.mp hp with hp | hp
        · obtain ⟨d, hd, h⟩ := hcov p hp
          exact ⟨d, List.mem_append_left _ hd, h⟩
        · rw [List.mem_singleton.mp hp]
          exact ⟨path, List.mem_append_right _ (List.mem_singleton.mpr rfl), .inl rfl⟩

/-- The paths by depth. -/
def byDepth (sep : Char) (paths : List String) : List String :=
  paths.mergeSort fun p q => decide (depth sep p ≤ depth sep q)

theorem byDepth_perm (sep : Char) (paths : List String) : (byDepth sep paths).Perm paths :=
  List.mergeSort_perm paths _

theorem mem_byDepth {sep : Char} {paths : List String} {p : String} :
    p ∈ byDepth sep paths ↔ p ∈ paths := (byDepth_perm sep paths).mem_iff

theorem pairwise_byDepth (sep : Char) (paths : List String) :
    (byDepth sep paths).Pairwise fun p q => depth sep p ≤ depth sep q := by
  have h : (byDepth sep paths).Pairwise fun p q => decide (depth sep p ≤ depth sep q) = true :=
    List.pairwise_mergeSort (by simp; omega) (by simp; omega) paths
  simpa using h

theorem filterPaths_root {paths : List String} {sep : Char} (h : String.singleton sep ∈ paths) :
    filterPaths paths sep = [String.singleton sep] := by
  have hroot : (byDepth sep paths).contains (String.singleton sep) = true :=
    List.contains_iff_mem.mpr (mem_byDepth.mpr h)
  exact if_pos hroot

/-- Without the root the paths stay that start with no other path and the separator. -/
theorem filterPaths_eq {paths : List String} {sep : Char} (h : String.singleton sep ∉ paths) :
    filterPaths paths sep = (byDepth sep paths).filter fun p => ¬ StartsBelow sep paths p := by
  have hroot : ¬ (byDepth sep paths).contains (String.singleton sep) = true := fun hroot =>
    h (mem_byDepth.mp (List.contains_iff_mem.mp hroot))
  have hloop : filterLoop (String.singleton sep) [] (byDepth sep paths) =
      [] ++ (byDepth sep paths).filter fun p => ¬ StartsBelow sep ([] ++ byDepth sep paths) p :=
    filterLoop_eq (pairwise_byDepth sep paths) (by simp) (by simp)
  simp only [List.nil_append, StartsBelow.of_mem_iff fun _ => mem_byDepth] at hloop
  rw [← hloop]
  exact if_neg hroot

theorem mem_filterPaths {paths : List String} {sep : Char} (h : String.singleton sep ∉ paths)
    (p : String) : p ∈ filterPaths paths sep ↔ p ∈ paths ∧ ¬ StartsBelow sep paths p := by
  simp [filterPaths_eq h, mem_byDepth]

theorem filterPaths_subperm (paths : List String) (sep : Char) :
    (filterPaths paths sep).Subperm paths := by
  by_cases h : String.singleton sep ∈ paths
  · rw [filterPaths_root h]
    exact List.singleton_subperm_iff.mpr h
  · rw [filterPaths_eq h]
    exact List.filter_sublist.subperm.trans (byDepth_perm sep paths).subperm

/-- What is kept depends on the set of paths only. -/
theorem filterPaths_set {ps qs : List String} (sep : Char) (h : ∀ p, p ∈ ps ↔ p ∈ qs)
    (p : String) : p ∈ filterPaths ps sep ↔ p ∈ filterPaths qs sep := by
  by_cases hroot : String.singleton sep ∈ ps
  · rw [filterPaths_root hroot, filterPaths_root ((h _).mp hroot)]
  · rw [mem_filterPaths hroot, mem_filterPaths (mt (h _).mpr hroot), h p, StartsBelow.of_mem_iff h]

/-- Some path of the list is `path` or above it. -/
def LiesUnderSome (sep : Char) (paths : List String) (path : String) : Prop :=
  ∃ d ∈ paths, LiesUnder sep d path

theorem pathComponents_root (sep : Char) : pathComponents sep (String.singleton sep) = [[sep]] := by
  simp [pathComponents, List.splitOn, List.splitOnP_cons_eq_if_modifyHead]

theorem liesUnder_root (sep : Char) (path : String) : LiesUnder sep (String.singleton sep) path :=
  .inl (pathComponents_root sep)

theorem liesUnderSome_filterPaths (paths : List String) (sep : Char) (path : String) :
    LiesUnderSome sep (filterPaths paths sep) path ↔ LiesUnderSome sep paths path := by
  by_cases h : String.singleton sep ∈ paths
  · rw [filterPaths_root h]
    exact ⟨fun _ => ⟨_, h, liesUnder_root sep path⟩,
      fun _ => ⟨_, List.mem_singleton.mpr rfl, liesUnder_root sep path⟩⟩
  · constructor
    · rintro ⟨d, hd, hpath⟩
      exact ⟨d, ((mem_filterPaths h d).mp hd).1, hpath⟩
    · rintro ⟨d, hd, hpath⟩
      have hcovers := (covers_filterPaths paths sep d).mpr (.inr ⟨d, hd, .inl rfl⟩)
      rcases hcovers with hroot | ⟨e, he, hed⟩
      · exact absurd ((mem_filterPaths h _).mp hroot).1 h
      · exact ⟨e, he, hed.liesUnder.trans hpath⟩

/-- No two of the paths that are kept are comparable: of any two in the list that are, one starts
with a path of the list and the separator. -/
theorem pairwise_filterPaths_iff {paths : List String} {sep : Char}
    (h : String.singleton sep ∉ paths) :
    (filterPaths paths sep).Pairwise (fun p q => ¬ Comparable sep p q) ↔
      paths.Pairwise fun p q =>
        Comparable sep p q → StartsBelow sep paths p ∨ StartsBelow sep paths q := by
  rw [filterPaths_eq h, List.pairwise_filter, (byDepth_perm sep paths).pairwise_iff]
  · refine List.Pairwise.iff ?_
    intro p q
    simp only [decide_eq_true_eq]
    tauto
  · intro p q hpq hq hp hcomp
    exact hpq hp hq (comparable_comm.mp hcomp)

/-! ## `filter_paths` -/

/-- `filter_paths` returns some of its paths, none of which is another one or above it, that have
the same paths under them, and the choice does not depend on order and repetitions. -/
structure PathsFiltered (sep : Char) (paths : List String) : Prop where
  sub : (filterPaths paths sep).Subperm paths
  apart : (filterPaths paths sep).Pairwise fun p q => ¬ Comparable sep p q
  under : ∀ path, LiesUnderSome sep (filterPaths paths sep) path ↔ LiesUnderSome sep paths path
  set : ∀ qs, (∀ p, p ∈ qs ↔ p ∈ paths) →
    ∀ p, p ∈ filterPaths qs sep ↔ p ∈ filterPaths paths sep

theorem pathsFiltered_of_apart {sep : Char} {paths : List String}
    (h : (filterPaths paths sep).Pairwise fun p q => ¬ Comparable sep p q) :
    PathsFiltered sep paths :=
  ⟨filterPaths_subperm paths sep, h, liesUnderSome_filterPaths paths sep,
    fun _ hqs => filterPaths_set sep hqs⟩

/-- **Filtering is right if the root is there, or if of any two comparable paths one starts with a
path of the list and the separator.** -/
theorem pathsFiltered_iff (sep : Char) (paths : List String) :
    PathsFiltered sep paths ↔ String.singleton sep ∈ paths ∨
      paths.Pairwise fun p q =>
        Comparable sep p q → StartsBelow sep paths p ∨ StartsBelow sep paths q := by
  by_cases h : String.singleton sep ∈ paths
  · have hone : (filterPaths paths sep).Pairwise fun p q => ¬ Comparable sep p q := by
      rw [filterPaths_root h]
      exact List.pairwise_singleton _ _
    exact ⟨fun _ => .inl h, fun _ => pathsFiltered_of_apart hone⟩
  · rw [or_iff_right h, ← pairwise_filterPaths_iff h]
    exact ⟨PathsFiltered.apart, pathsFiltered_of_apart⟩

/-! ## Well spelled paths -/

/-- All segments of the path are components: no separator at an end, none after another one, and
no `.`. -/
def WellSpelled (sep : Char) (path : String) : Prop :=
  ∀ s ∈ path.toList.splitOn sep, s ≠ [] ∧ s ≠ ['.']

theorem WellSpelled.components {sep : Char} {path : String} (h : WellSpelled sep path) :
    pathComponents sep path = path.toList.splitOn sep := by
  have hhead : path.toList.head? ≠ some sep := by
    intro hhead
    obtain ⟨rest, hrest⟩ := List.head?_eq_some_iff.mp hhead
    refine (h [] ?_).1 rfl
    rw [hrest, List.splitOn_cons_eq_if_modifyHead]
    simp
  rw [pathComponents, if_neg hhead, List.nil_append, List.filter_eq_self]
  intro s hs
  exact decide_eq_true (h s hs)

theorem intercalate_append {α : Type} (x : α) {as bs : List (List α)} (ha : as ≠ [])
    (hb : bs ≠ []) :
    [x].intercalate (as ++ bs) = [x].intercalate as ++ x :: [x].intercalate bs := by
  induction as with
  | nil => exact absurd rfl ha
  | cons a as ih =>
    cases as with
    | nil => simp [List.intercalate_cons_of_ne_nil hb]
    | cons a' as => simpa using ih (List.cons_ne_nil _ _)

/-- Of two well spelled paths that are comparable one is the other, or starts with it and the
separator. -/
theorem WellSpelled.below {sep : Char} {p q : String} (hp : WellSpelled sep p)
    (hq : WellSpelled sep q) (h : LiesUnder sep p q) : Below (String.singleton sep) p q := by
  have hprefix : p.toList.splitOn sep <+: q.toList.splitOn sep := by
    rcases h with h | h
    · -- a well spelled path is not the root
      rw [hp.components] at h
      have hsplit : [sep].intercalate (p.toList.splitOn sep) = p.toList :=
        List.intercalate_splitOn sep
      rw [h, List.intercalate_singleton] at hsplit
      have hmem : [] ∈ p.toList.splitOn sep := by
        rw [← hsplit, List.splitOn_cons_eq_if_modifyHead]
        simp
      exact absurd rfl (hp [] hmem).1
    · rwa [hp.components, hq.components] at h
  obtain ⟨rest, hrest⟩ := hprefix
  have hsplit : [sep].intercalate (q.toList.splitOn sep) = q.toList :=
    List.intercalate_splitOn sep
  cases rest with
  | nil =>
    rw [← hrest, List.append_nil, List.intercalate_splitOn] at hsplit
    exact .inl (String.toList_injective hsplit.symm)
  | cons s rest =>
    rw [← hrest, intercalate_append sep (List.splitOn_ne_nil sep _) (List.cons_ne_nil _ _),
      List.intercalate_splitOn] at hsplit
    refine .inr ((startsWith_iff _ _).mpr ?_)
    rw [← hsplit, String.toList_append, String.toList_singleton]
    exact ⟨[sep].intercalate (s :: rest), by simp⟩

/-- Well spelled paths without repetitions are filtered right. -/
theorem pathsFiltered_of_wellSpelled {sep : Char} {paths : List String}
    (h : ∀ p ∈ paths, WellSpelled sep p) (hnodup : paths.Nodup) : PathsFiltered sep paths := by
  have hroot : String.singleton sep ∉ paths := by
    intro hroot
    refine (h _ hroot [] ?_).1 rfl
    simp [List.splitOn_cons_eq_if_modifyHead]
  refine pathsFiltered_of_apart ((pairwise_filterPaths_iff hroot).mpr ?_)
  refine List.Pairwise.imp_of_mem ?_ hnodup
  rintro p q hp hq hne (hpq | hqp)
  · rcases (h p hp).below (h q hq) hpq with rfl | hstart
    · exact absurd rfl hne
    · exact .inr ⟨p, hp, hstart⟩
  · rcases (h q hq).below (h p hp) hqp with rfl | hstart
    · exact absurd rfl hne
    · exact .inl ⟨q, hq, hstart⟩

/-- A path that is given twice is kept twice. -/
theorem not_pathsFiltered_twice : ¬ PathsFiltered '/' ["email", "email"] := by
  intro h
  have happart := (pairwise_filterPaths_iff (by decide)).mp h.apart
  have hdropped := List.rel_of_pairwise_cons happart (List.mem_singleton.mpr rfl)
    (.inl (.inr (List.prefix_refl _)))
  revert hdropped
  decide

end Notifyr
