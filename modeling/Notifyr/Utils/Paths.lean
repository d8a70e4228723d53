import Mathlib.Data.List.Sort
import Notifyr.Runtime.Python

/-!
# Path lists

`filter_paths` (`app/utils/helper.py`) drops from a list of paths those below another one.

- `startsWith`: `str.startswith`.
- `filterPaths`: the function; `filterLoop` is its loop.
- `Covers`: a path list covers a path that is in it or below a member, and everything if the
  separator itself is a member.
- `covers_filterPaths`: filtering keeps what is covered.
-/

namespace Notifyr

/-- `s.startswith(p)`. -/
def startsWith (s p : String) : Bool := p.toList.isPrefixOf s.toList

theorem startsWith_iff (s p : String) : startsWith s p = true ↔ p.toList <+: s.toList :=
  List.isPrefixOf_iff_prefix

/-- The loop of `filter_paths`. -/
def filterLoop (sep : String) : List String → List String → List String
  | results, [] => results
  | results, path :: paths =>
    if !(results.any fun d => startsWith path (d ++ sep)) then
      filterLoop sep (results ++ [path]) paths
    else filterLoop sep results paths

/-- `filter_paths`; `sep` is a single character, so `x.count(sep)` counts it. -/
def filterPaths (paths : List String) (sep : Char) : List String :=
  let paths := paths.mergeSort fun x y => decide (x.toList.count sep ≤ y.toList.count sep)
  if paths.contains (String.singleton sep) then [String.singleton sep]
  else filterLoop (String.singleton sep) [] paths

/-- `path` is `d` or lies below it. -/
def Below (sep : String) (d path : String) : Prop := path = d ∨ startsWith path (d ++ sep) = true

/-- The paths a list of paths stands for. -/
def Covers (sep : Char) (paths : List String) (path : String) : Prop :=
  String.singleton sep ∈ paths ∨ ∃ d ∈ paths, Below (String.singleton sep) d path

theorem Below.startsWith {sep d e path : String} (hde : Below sep d e)
    (hep : startsWith path (e ++ sep) = true) : startsWith path (d ++ sep) = true := by
  rw [startsWith_iff] at *
  rcases hde with rfl | hde
  · exact hep
  · rw [startsWith_iff] at hde
    have hpre : e.toList <+: (e ++ sep).toList := by
      rw [String.toList_append]
      exact List.prefix_append _ _
    exact (hde.trans hpre).trans hep

theorem Below.trans {sep d e path : String} (hde : Below sep d e) (hep : Below sep e path) :
    Below sep d path := by
  rcases hep with rfl | hep
  · exact hde
  · exact .inr (hde.startsWith hep)

/-- The loop keeps a sublist, and whatever it drops lies below something it keeps. -/
theorem filterLoop_spec (sep : String) (results paths : List String) :
    (∀ p ∈ filterLoop sep results paths, p ∈ results ∨ p ∈ paths) ∧
      ∀ p, p ∈ results ∨ p ∈ paths → ∃ d ∈ filterLoop sep results paths, Below sep d p := by
  induction paths generalizing results with
  | nil =>
    refine ⟨fun p hp => .inl hp, ?_⟩
    rintro p (hp | hp)
    · exact ⟨p, hp, .inl rfl⟩
    · cases hp
  | cons path paths ih =>
    unfold filterLoop
    split
    · obtain ⟨hsub, hcov⟩ := ih (results ++ [path])
      constructor
      · intro p hp
        rcases hsub p hp with h | h
        · rcases List.mem_append.mp h with h | h
          · exact .inl h
          · exact .inr (List.mem_cons.mpr (.inl (List.mem_singleton.mp h)))
        · exact .inr (List.mem_cons_of_mem _ h)
      · rintro p (hp | hp)
        · exact hcov p (.inl (List.mem_append_left _ hp))
        · rcases List.mem_cons.mp hp with rfl | hp
          · exact hcov p (.inl (List.mem_append_right _ (List.mem_singleton.mpr rfl)))
          · exact hcov p (.inr hp)
    · rename_i hdrop
      obtain ⟨hsub, hcov⟩ := ih results
      constructor
      · intro p hp
        rcases hsub p hp with h | h
        · exact .inl h
        · exact .inr (List.mem_cons_of_mem _ h)
      · rintro p (hp | hp)
        · exact hcov p (.inl hp)
        · rcases List.mem_cons.mp hp with rfl | hp
          · -- the dropped path lies below a result, which is itself covered
            have hany : (results.any fun d => startsWith p (d ++ sep)) = true := by
              simpa using hdrop
            obtain ⟨d, hd, hbelow⟩ := List.any_eq_true.mp hany
            obtain ⟨e, he, hed⟩ := hcov d (.inl hd)
            exact ⟨e, he, hed.trans (.inr hbelow)⟩
          · exact hcov p (.inr hp)

theorem Covers.of_perm {sep : Char} {ps qs : List String} (h : ∀ p, p ∈ ps ↔ p ∈ qs)
    (path : String) : Covers sep ps path ↔ Covers sep qs path := by
  unfold Covers
  simp only [h]

/-- **Filtering keeps what is covered.** -/
theorem covers_filterPaths (paths : List String) (sep : Char) (path : String) :
    Covers sep (filterPaths paths sep) path ↔ Covers sep paths path := by
  have hmem : ∀ p, p ∈ (paths.mergeSort fun x y =>
      decide (x.toList.count sep ≤ y.toList.count sep)) ↔ p ∈ paths :=
    fun p => (List.mergeSort_perm paths _).mem_iff
  rw [← Covers.of_perm hmem]
  unfold filterPaths
  generalize (paths.mergeSort fun x y =>
    decide (x.toList.count sep ≤ y.toList.count sep)) = sorted
  by_cases hroot : sorted.contains (String.singleton sep) = true
  · simp only [hroot, if_true]
    have hin : String.singleton sep ∈ sorted := by simpa using hroot
    exact ⟨fun _ => .inl hin, fun _ => .inl (List.mem_singleton.mpr rfl)⟩
  · simp only [hroot]
    have hout : String.singleton sep ∉ sorted := by simpa using hroot
    obtain ⟨hsub, hcov⟩ := filterLoop_spec (String.singleton sep) [] sorted
    constructor
    · rintro (h | ⟨d, hd, hbelow⟩)
      · rcases hsub _ h with h | h
        · cases h
        · exact absurd h hout
      · rcases hsub d hd with h | h
        · cases h
        · exact .inr ⟨d, h, hbelow⟩
    · rintro (h | ⟨d, hd, hbelow⟩)
      · exact absurd h hout
      · obtain ⟨e, he, hed⟩ := hcov d (.inr hd)
        exact .inr ⟨e, he, hed.trans hbelow⟩

end Notifyr
