import Notifyr.Theory.Multimap
import Notifyr.Runtime.Urllib

/-!
# Form fields

Forms whose fields have a value or several, as `urllib.parse` writes and reads them.

- `formPairs`: the pairs of `urlencode(fields, doseq=True)`.
- `parseForm`: `parse_qs`, which collects the values of each name.
- `parseForm_urlencode`: what is written is read back.
- `brace_not_mem_urlencode`: the text has no braces.
-/

namespace Notifyr

open Theory

/-- The pairs of the fields: one for each value, as `doseq` makes them. -/
def formPairs (fields : List (UrlText × List UrlText)) : List (UrlText × UrlText) :=
  fields.flatMap fun e => e.2.map (Prod.mk e.1)

/-- `urllib.parse.parse_qs(qs, keep_blank_values=True)`. -/
def parseForm (qs : UrlText) : Dict UrlText (List UrlText) := Dict.empty.pushAll (parseQsl qs)

/-- **A form is read back** if each of its fields has a value. -/
theorem parseForm_urlencode (form : Dict UrlText (List UrlText))
    (hvalues : ∀ e ∈ form.entries, e.2 ≠ []) :
    parseForm (urlencode (formPairs form.entries)) = form := by
  have hentries : (Dict.empty.pushAll (formPairs form.entries)).entries = [] ++ form.entries :=
    Dict.entries_pushAll_groups form.nodup hvalues
  unfold parseForm
  rw [parseQsl_urlencode]
  generalize Dict.empty.pushAll (formPairs form.entries) = read at hentries
  obtain ⟨es, hes⟩ := read
  obtain ⟨es', hes'⟩ := form
  cases (hentries : es = [] ++ es')
  rfl

/-- Each name that is read has a value. -/
theorem values_parseForm {qs : UrlText} {e : UrlText × List UrlText}
    (he : e ∈ (parseForm qs).entries) : e.2 ≠ [] := Dict.ne_nil_of_mem_pushAll he

/-! ## The letters of a form -/

theorem brace_not_mem_quotePlus (s : UrlText) : '{' ∉ quotePlus s := by
  intro hmem
  obtain ⟨b, -, hb⟩ := List.mem_flatMap.mp hmem
  have hdigit : ∀ n < 16, '{' ≠ hexUpper n := by decide
  have hlt := b.toNat_lt
  unfold quoteByte at hb
  split at hb
  · simp at hb
  · split at hb
    · rename_i _ h
      rw [List.mem_singleton] at hb
      have hnat := toNat_ofNat_byte b
      rw [← hb] at hnat
      have hbyte : b = 123 := UInt8.toNat_inj.mp hnat.symm
      rw [hbyte] at h
      exact absurd h (by decide)
    · simp only [List.mem_cons, List.not_mem_nil, or_false] at hb
      obtain h | h | h := hb
      · exact absurd h (by decide)
      · exact hdigit _ (by omega) h
      · exact hdigit _ (by omega) h

/-- The text of a form has no brace. -/
theorem brace_not_mem_urlencode (pairs : List (UrlText × UrlText)) : '{' ∉ urlencode pairs := by
  intro hmem
  rcases of_mem_urlencode hmem with h | h | ⟨e, -, hkey | hvalue⟩
  · exact absurd h (by decide)
  · exact absurd h (by decide)
  · exact brace_not_mem_quotePlus e.1 hkey
  · exact brace_not_mem_quotePlus e.2 hvalue

/-- A brace is one byte, which no other character has. -/
theorem brace_mem_encodeText_iff (s : UrlText) : (123 : UInt8) ∈ encodeText s ↔ '{' ∈ s := by
  unfold encodeText
  rw [List.mem_flatMap]
  constructor
  · rintro ⟨c, hc, hbyte⟩
    by_cases hascii : c.toNat < 128
    · rw [utf8EncodeChar_ascii hascii, List.mem_singleton] at hbyte
      have hnat := congrArg UInt8.toNat hbyte
      rw [UInt8.toNat_ofNat'] at hnat
      have hc123 : c.toNat = 123 := by
        rw [Nat.mod_eq_of_lt (by omega)] at hnat
        exact hnat.symm
      have hbrace : c = '{' := Char.toNat_inj.mp hc123
      exact hbrace ▸ hc
    · exact absurd (not_ascii_of_mem (Nat.le_of_not_lt hascii) hbyte) (by decide)
  · intro hbrace
    exact ⟨'{', hbrace, by decide⟩

end Notifyr
