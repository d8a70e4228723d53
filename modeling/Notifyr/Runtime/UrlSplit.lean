import Notifyr.Runtime.Urllib

/-!
# Hosts and paths of the standard library

What `urlsplit`, `urlparse` and `urlunparse` of `urllib.parse` do with a URL, as far as the links of
mails need it.

- `afterScheme`, `netlocOf`, `afterNetloc`: the text behind the scheme, the host, and the rest.
- `splitParams`: the parameters of the last segment of a path.
- `ownTarget`: path, parameters and query of a URL, without scheme, host and fragment.
- `ownTarget_relative`: this text is never the address of a host.
- `slash_not_mem_netlocOf`: a host has no slash.
-/

namespace Notifyr

/-! ## The scheme and the host -/

/-- What `urlsplit` removes: control characters and blanks at the beginning, and tabs and ends of
lines. -/
def stripUrl (url : UrlText) : UrlText :=
  (url.dropWhile fun c => c.toNat ≤ 32).filter fun c => c ≠ '\t' ∧ c ≠ '\r' ∧ c ≠ '\n'

/-- `scheme_chars`. -/
def isSchemeChar (c : Char) : Bool := c.isAlphanum || c = '+' || c = '-' || c = '.'

/-- The text behind the scheme, or all of it if it has none. -/
def afterScheme (url : UrlText) : UrlText :=
  let scheme := url.takeWhile (· ≠ ':')
  if ':' ∈ url ∧ scheme.head?.any Char.isAlpha ∧ scheme.all isSchemeChar then
    (url.dropWhile (· ≠ ':')).drop 1
  else url

/-- The characters that end a host. -/
def endsNetloc (c : Char) : Bool := c = '/' || c = '?' || c = '#'

/-- Whether a URL has a host. -/
def HasNetloc (url : UrlText) : Prop := (afterScheme (stripUrl url)).take 2 = ['/', '/']

instance (url : UrlText) : Decidable (HasNetloc url) := by
  unfold HasNetloc
  infer_instance

/-- `urlsplit(url).netloc`. -/
def netlocOf (url : UrlText) : UrlText :=
  if HasNetloc url then ((afterScheme (stripUrl url)).drop 2).takeWhile fun c => !endsNetloc c
  else []

/-- The text behind the host. -/
def afterNetloc (url : UrlText) : UrlText :=
  if HasNetloc url then ((afterScheme (stripUrl url)).drop 2).dropWhile fun c => !endsNetloc c
  else afterScheme (stripUrl url)

theorem slash_not_mem_netlocOf (url : UrlText) : '/' ∉ netlocOf url := by
  intro h
  unfold netlocOf at h
  split at h
  · have hp := List.all_eq_true.mp List.all_takeWhile _ h
    simp [endsNetloc] at hp
  · cases h

/-- The head of what is behind a host ends the host. -/
theorem head?_afterNetloc {url : UrlText} (h : HasNetloc url) {c : Char}
    (hc : (afterNetloc url).head? = some c) : endsNetloc c = true := by
  unfold afterNetloc at hc
  rw [if_pos h] at hc
  have hhead := List.head?_dropWhile_not (fun c => !endsNetloc c)
    ((afterScheme (stripUrl url)).drop 2)
  rw [hc] at hhead
  simpa using hhead

/-! ## The rest -/

/-- `_splitparams`: the path without the parameters of its last segment, and these. -/
def splitParams (path : UrlText) : UrlText × UrlText :=
  let segment := (path.reverse.takeWhile (· ≠ '/')).reverse
  let front := (path.reverse.dropWhile (· ≠ '/')).reverse
  if ';' ∈ segment then
    (front ++ segment.takeWhile (· ≠ ';'), (segment.dropWhile (· ≠ ';')).drop 1)
  else (path, [])

/-- `urlunparse` of the path, the parameters and the query that `urlparse` finds, for a scheme whose
paths have parameters. -/
def ownTarget (url : UrlText) : UrlText :=
  let parts := splitParams (baseOf (afterNetloc url))
  let query := queryOf (afterNetloc url)
  parts.1 ++ (if parts.2 = [] then [] else ';' :: parts.2) ++
    (if query = [] then [] else '?' :: query)

/-- A text without a scheme and a host. -/
def RelativeUrl (url : UrlText) : Prop :=
  url = [] ∨ url.head? = some '/' ∨ url.head? = some '?'

theorem front_append_segment (path : UrlText) :
    (path.reverse.dropWhile (· ≠ '/')).reverse ++ (path.reverse.takeWhile (· ≠ '/')).reverse =
      path := by
  rw [← List.reverse_append, List.takeWhile_append_dropWhile, List.reverse_reverse]

/-- A path that begins with a slash still does without its parameters. -/
theorem head?_splitParams {path : UrlText} (h : path.head? = some '/') :
    (splitParams path).1.head? = some '/' := by
  unfold splitParams
  dsimp only
  split
  · have hfront : (path.reverse.dropWhile (· ≠ '/')).reverse ≠ [] := by
      obtain ⟨rest, rfl⟩ := List.head?_eq_some_iff.mp h
      intro hnil
      have hall := List.dropWhile_eq_nil_iff.mp (List.reverse_eq_nil_iff.mp hnil)
      have hslash := hall '/' (by simp)
      simp at hslash
    have hpath := front_append_segment path
    rw [← hpath, List.head?_append_of_ne_nil _ hfront] at h
    rw [List.head?_append_of_ne_nil _ hfront]
    exact h
  · exact h

theorem baseOf_head? {rest : UrlText} :
    baseOf rest = [] ∨ (baseOf rest).head? = rest.head? := by
  rw [baseOf_eq]
  cases rest with
  | nil => exact .inl rfl
  | cons c rest =>
    rw [List.takeWhile_cons]
    split
    · exact .inr rfl
    · exact .inl rfl

/-- What is left of a URL without its host is never the address of a host. -/
theorem ownTarget_relative {url : UrlText} (h : HasNetloc url) : RelativeUrl (ownTarget url) := by
  have hquery : ∀ query : UrlText,
      RelativeUrl (if query = [] then [] else '?' :: query) := by
    intro query
    split
    · exact .inl rfl
    · exact .inr (.inr rfl)
  by_cases hbase : baseOf (afterNetloc url) = []
  · unfold ownTarget
    rw [hbase]
    exact hquery _
  · have hhead := baseOf_head?.resolve_left hbase
    obtain ⟨c, rest, hcons⟩ := List.exists_cons_of_ne_nil hbase
    have hc : (baseOf (afterNetloc url)).head? = some c := by
      rw [hcons]
      rfl
    have hends := head?_afterNetloc h (hhead.symm.trans hc)
    have hmem : c ∈ baseOf (afterNetloc url) := by
      rw [hcons]
      exact List.mem_cons_self
    have hslash : c = '/' := by
      rw [baseOf_eq] at hmem
      have hp := List.all_eq_true.mp List.all_takeWhile _ hmem
      simp [endsNetloc] at hends hp
      tauto
    rw [hslash] at hc
    have hparams := head?_splitParams hc
    obtain ⟨tail, htail⟩ := List.head?_eq_some_iff.mp hparams
    right
    left
    unfold ownTarget
    dsimp only
    rw [htail]
    rfl

end Notifyr
