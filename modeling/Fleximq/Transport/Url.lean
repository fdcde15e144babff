import Mathlib.Data.List.Infix
import Fleximq.Transport.Error

/-! # URLs

The URL parser of the url crate is a parameter. Its laws say what the transports
rely on: which scheme the URL standard reads from a text, and that a host ends
at the first slash.
-/
namespace Fleximq.Transport

/-- `str::starts_with`. -/
def startsWith (text pat : String) : Bool := pat.toList.isPrefixOf text.toList

/-- `str::strip_prefix`. -/
def stripPrefix (text pat : String) : Option String :=
  if startsWith text pat then some (String.ofList (text.toList.drop pat.length)) else none

theorem startsWith_iff {text pat : String} : startsWith text pat = true ↔ ∃ rest, text = pat ++ rest := by
  rw [startsWith, List.isPrefixOf_iff_prefix]
  constructor
  · rintro ⟨rest, hText⟩
    exact ⟨String.ofList rest, String.toList_inj.mp (by simp [← hText])⟩
  · rintro ⟨rest, rfl⟩
    exact ⟨rest.toList, by simp⟩

@[simp] theorem startsWith_append (pat rest : String) : startsWith (pat ++ rest) pat = true :=
  startsWith_iff.mpr ⟨rest, rfl⟩

@[simp] theorem stripPrefix_append (pat rest : String) : stripPrefix (pat ++ rest) pat = some rest := by
  rw [stripPrefix, if_pos (startsWith_append pat rest)]
  simp [← String.length_toList, String.ofList_toList]

/-! ## The parser -/

structure Url where
  scheme : String
  host : Option String
  path : String
  deriving DecidableEq

abbrev UrlParser := String → Except String Url

def isC0ControlOrSpace (c : Char) : Bool := c.val ≤ 0x20
def isTabOrNewline (c : Char) : Bool := c = '\t' || c = '\n' || c = '\r'

/-- The text before the first colon in lower case, less controls and spaces at its front and tabs and
newlines anywhere. -/
def schemeChars (text : List Char) : List Char :=
  (((text.dropWhile isC0ControlOrSpace).filter (!isTabOrNewline ·)).takeWhile (· ≠ ':')).map Char.toLower

def schemeOf (text : String) : String := String.ofList (schemeChars text.toList)

structure UrlStandard (parse : UrlParser) : Prop where
  scheme_eq : ∀ text url, parse text = .ok url → url.scheme = schemeOf text
  host_slash : ∀ text url host, parse text = .ok url → url.host = some host → '/' ∉ host.toList

/-- A parser that accepts the URLs of a table. -/
def tableParser (table : List (String × Url)) : UrlParser := fun text =>
  match table.lookup text with
  | some url => .ok url
  | none => .error "relative URL without a base"

theorem tableParser_standard {table : List (String × Url)}
    (hTable : ∀ entry ∈ table, entry.2.scheme = schemeOf entry.1 ∧ ∀ host ∈ entry.2.host, '/' ∉ host.toList) :
    UrlStandard (tableParser table) := by
  have hEntry (text : String) (url : Url) (hParse : tableParser table text = .ok url) : (text, url) ∈ table := by
    rw [tableParser] at hParse
    split at hParse
    next found hLookup =>
      cases hParse
      obtain ⟨before, after, rfl, -⟩ := List.lookup_eq_some_iff.mp hLookup
      simp
    next => cases hParse
  exact ⟨fun text url hParse => (hTable _ (hEntry text url hParse)).1,
    fun text url host hParse hHost => (hTable _ (hEntry text url hParse)).2 host hHost⟩

/-! ## The scheme of a text -/

/-- A character that the parser keeps as it is in a scheme. -/
def isSchemeChar (c : Char) : Bool := !isC0ControlOrSpace c && !isTabOrNewline c && c ≠ ':' && c.toLower = c

theorem schemeChars_append {scheme : List Char} (hScheme : ∀ c ∈ scheme, isSchemeChar c = true)
    (hSome : scheme ≠ []) (rest : List Char) : schemeChars (scheme ++ ':' :: rest) = scheme := by
  have hKept (c : Char) (hMem : c ∈ scheme) :
      isC0ControlOrSpace c = false ∧ isTabOrNewline c = false ∧ c ≠ ':' ∧ c.toLower = c := by
    simpa [isSchemeChar, and_assoc] using hScheme c hMem
  obtain ⟨first, others, rfl⟩ := List.exists_cons_of_ne_nil hSome
  have hFront : ((first :: others) ++ ':' :: rest).dropWhile isC0ControlOrSpace =
      (first :: others) ++ ':' :: rest := by
    rw [List.cons_append, List.dropWhile_cons_of_neg]
    rw [(hKept first List.mem_cons_self).1]
    decide
  have hTabs : (first :: others).filter (!isTabOrNewline ·) = first :: others := by
    apply List.filter_eq_self.mpr
    intro c hMem
    rw [(hKept c hMem).2.1]
    rfl
  have hColon : (':' :: rest).filter (!isTabOrNewline ·) = ':' :: rest.filter (!isTabOrNewline ·) := rfl
  rw [schemeChars, hFront, List.filter_append, hTabs, hColon, List.takeWhile_append_of_pos]
  · rw [List.takeWhile_cons_of_neg (by decide), List.append_nil]
    exact (List.map_congr_left fun c hMem => (hKept c hMem).2.2.2).trans (List.map_id _)
  · intro c hMem
    exact decide_eq_true (hKept c hMem).2.2.1

end Fleximq.Transport
