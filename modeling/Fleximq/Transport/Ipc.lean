import Fleximq.Foundation.Result
import Fleximq.Transport.Dispatch

/-! # The socket of an IPC URL

An IPC URL names a socket file, by an absolute path or by a name under `/tmp`.
`parse_path` joins the host and the path, strips one slash and puts `/tmp/` in
front of what no longer begins with one. It returns the text of the path, on
Unix.
-/
namespace Fleximq.Transport
open Foundation

/-- `PlatformAdapter::normalize_path`. -/
def normalizePath (path : String) : String := if startsWith path "/" then path else "/tmp/" ++ path

def IpcTransport.pathStr (parsed : Url) : String :=
  match parsed.host with
  | none => parsed.path
  | some host => if host = "" then parsed.path else host ++ parsed.path

def IpcTransport.normalizedPath (parsed : Url) : String :=
  (stripPrefix (pathStr parsed) "/").getD (pathStr parsed)

def IpcTransport.parsePath (parse : UrlParser) (url : String) : Except TransportError String := do
  let parsed ← checkUrl parse url
  if pathStr parsed = "" then .error (.invalidUrl "Missing path in IPC URL")
  else return normalizePath (normalizedPath parsed)

/-! ## What a URL names -/

def Url.hostOrEmpty (parsed : Url) : String := parsed.host.getD ""

/-- The socket file that an IPC URL names. -/
def Url.socket (parsed : Url) : String :=
  if parsed.hostOrEmpty = "" then parsed.path else "/tmp/" ++ (parsed.hostOrEmpty ++ parsed.path)

/-- An IPC URL with a host or an absolute path, and what the URL parser makes of it. -/
structure IpcUrl (parse : UrlParser) (url : String) (parsed : Url) : Prop where
  parse_eq : parse url = .ok parsed
  scheme_eq : parsed.scheme = "ipc"
  absolute : parsed.hostOrEmpty = "" → startsWith parsed.path "/" = true

/-- Both URLs resolve to the sockets they name, and two sockets are never one path. -/
structure ResolveApart (parse : UrlParser) (first second : String) (parsed parsed' : Url) : Prop where
  first_eq : IpcTransport.parsePath parse first = .ok parsed.socket
  second_eq : IpcTransport.parsePath parse second = .ok parsed'.socket
  apart : parsed.socket ≠ parsed'.socket →
    IpcTransport.parsePath parse first ≠ IpcTransport.parsePath parse second

/-- The texts are the same, but for `/tmp/` in front of one of them. -/
def Clash (path path' : String) : Prop :=
  path = path' ∨ (startsWith path "/" = false ∧ path' = "/tmp/" ++ path) ∨
    (startsWith path' "/" = false ∧ path = "/tmp/" ++ path')

/-! ## The normaliser -/

theorem normalizePath_absolute {path : String} (h : startsWith path "/" = true) : normalizePath path = path :=
  if_pos h

theorem normalizePath_relative {path : String} (h : startsWith path "/" = false) :
    normalizePath path = "/tmp/" ++ path := if_neg (by rw [h]; decide)

theorem startsWith_tmp (rest : String) : startsWith ("/tmp/" ++ rest) "/" = true :=
  startsWith_iff.mpr ⟨"tmp/" ++ rest, by rw [← String.append_assoc]; rfl⟩

theorem not_relative_tmp {path rest : String} (h : startsWith path "/" = false) : path ≠ "/tmp/" ++ rest := by
  rintro rfl
  rw [startsWith_tmp] at h
  cases h

theorem normalizePath_eq_iff {path path' : String} : normalizePath path = normalizePath path' ↔ Clash path path' := by
  rw [Clash]
  cases hPath : startsWith path "/" <;> cases hPath' : startsWith path' "/"
  · rw [normalizePath_relative hPath, normalizePath_relative hPath', String.append_right_inj]
    simp [not_relative_tmp hPath, not_relative_tmp hPath']
  · rw [normalizePath_relative hPath, normalizePath_absolute hPath']
    have hDiffer : path ≠ path' := fun hSame => absurd (hSame ▸ hPath) (by rw [hPath']; decide)
    simp [hDiffer, eq_comm]
  · rw [normalizePath_absolute hPath, normalizePath_relative hPath']
    have hDiffer : path ≠ path' := fun hSame => absurd (hSame ▸ hPath) (by rw [hPath']; decide)
    simp [hDiffer]
  · rw [normalizePath_absolute hPath, normalizePath_absolute hPath']
    simp

/-! ## One URL -/

theorem pathStr_of_host {parsed : Url} (h : parsed.hostOrEmpty ≠ "") :
    IpcTransport.pathStr parsed = parsed.hostOrEmpty ++ parsed.path := by
  rw [IpcTransport.pathStr]
  cases hHost : parsed.host with
  | none =>
    rw [Url.hostOrEmpty, hHost] at h
    exact absurd rfl h
  | some host =>
    rw [Url.hostOrEmpty, hHost] at h ⊢
    exact if_neg h

theorem pathStr_of_no_host {parsed : Url} (h : parsed.hostOrEmpty = "") :
    IpcTransport.pathStr parsed = parsed.path := by
  rw [IpcTransport.pathStr]
  cases hHost : parsed.host with
  | none => rfl
  | some host =>
    rw [Url.hostOrEmpty, hHost] at h
    exact if_pos h

theorem stripPrefix_of_not {text pat : String} (h : startsWith text pat = false) : stripPrefix text pat = none :=
  if_neg (by rw [h]; decide)

section
variable {parse : UrlParser} {url url' : String} {parsed parsed' : Url}

theorem pathStr_ne_empty (hUrl : IpcUrl parse url parsed) : IpcTransport.pathStr parsed ≠ "" := by
  by_cases hHost : parsed.hostOrEmpty = ""
  · rw [pathStr_of_no_host hHost]
    intro hEmpty
    have hAbsolute := hUrl.absolute hHost
    rw [hEmpty] at hAbsolute
    exact absurd hAbsolute (by decide)
  · rw [pathStr_of_host hHost]
    intro hEmpty
    exact hHost (String.append_eq_empty_iff.mp hEmpty).1

theorem parsePath_eq (hUrl : IpcUrl parse url parsed) :
    IpcTransport.parsePath parse url = .ok (normalizePath (IpcTransport.normalizedPath parsed)) := by
  have hCheck : IpcTransport.checkUrl parse url = .ok parsed := by
    rw [IpcTransport.checkUrl, expectScheme, hUrl.parse_eq]
    exact if_pos (beq_iff_eq.mpr hUrl.scheme_eq)
  rw [IpcTransport.parsePath]
  refine bind_eq_ok.mpr ⟨parsed, hCheck, ?_⟩
  exact if_neg (pathStr_ne_empty hUrl)

/-- A host ends before the first slash, so it does not begin with one. -/
theorem host_relative (hStandard : UrlStandard parse) (hUrl : IpcUrl parse url parsed)
    (hHost : parsed.hostOrEmpty ≠ "") : startsWith (parsed.hostOrEmpty ++ parsed.path) "/" = false := by
  rw [Url.hostOrEmpty] at hHost ⊢
  cases hSome : parsed.host with
  | none =>
    rw [hSome] at hHost
    exact absurd rfl hHost
  | some host =>
    rw [hSome, Option.getD_some] at hHost
    have hSlash := hStandard.host_slash url parsed host hUrl.parse_eq hSome
    obtain ⟨first, rest, hChars⟩ := List.exists_cons_of_ne_nil (String.toList_eq_nil_iff.not.mpr hHost)
    rw [hChars] at hSlash
    have hFirst : ('/' == first) = false := beq_eq_false_iff_ne.mpr (List.ne_of_not_mem_cons hSlash)
    rw [Option.getD_some, startsWith, String.toList_append, hChars]
    change ('/' == first && _) = false
    rw [hFirst, Bool.false_and]

/-- A URL resolves to the socket that it names exactly when it has a host. -/
theorem parsePath_eq_socket (hStandard : UrlStandard parse) (hUrl : IpcUrl parse url parsed) :
    IpcTransport.parsePath parse url = .ok parsed.socket ↔ parsed.hostOrEmpty ≠ "" := by
  rw [parsePath_eq hUrl, Except.ok.injEq, IpcTransport.normalizedPath, Url.socket]
  by_cases hHost : parsed.hostOrEmpty = ""
  · obtain ⟨rest, hPath⟩ := startsWith_iff.mp (hUrl.absolute hHost)
    rw [pathStr_of_no_host hHost, if_pos hHost, hPath, stripPrefix_append, Option.getD_some]
    refine iff_of_false ?_ (not_not.mpr hHost)
    intro hSame
    have hLength := congrArg String.length hSame
    cases hRest : startsWith rest "/" with
    | true =>
      rw [normalizePath_absolute hRest, String.length_append] at hLength
      change rest.length = 1 + rest.length at hLength
      omega
    | false =>
      rw [normalizePath_relative hRest, String.length_append, String.length_append] at hLength
      change 5 + rest.length = 1 + rest.length at hLength
      omega
  · have hRelative := host_relative hStandard hUrl hHost
    rw [pathStr_of_host hHost, if_neg hHost, stripPrefix_of_not hRelative, Option.getD_none,
      normalizePath_relative hRelative]
    exact iff_of_true rfl hHost

/-- Two URLs are kept apart exactly when what they say, less a slash in front, does not clash. -/
theorem parsePath_ne_iff (hUrl : IpcUrl parse url parsed) (hUrl' : IpcUrl parse url' parsed') :
    IpcTransport.parsePath parse url ≠ IpcTransport.parsePath parse url' ↔
      ¬ Clash (IpcTransport.normalizedPath parsed) (IpcTransport.normalizedPath parsed') := by
  rw [parsePath_eq hUrl, parsePath_eq hUrl', ne_eq, Except.ok.injEq, normalizePath_eq_iff]

/-- Two URLs resolve to the sockets they name, and apart, exactly when both have a host. -/
theorem resolveApart_iff (hStandard : UrlStandard parse) (hUrl : IpcUrl parse url parsed)
    (hUrl' : IpcUrl parse url' parsed') :
    ResolveApart parse url url' parsed parsed' ↔ parsed.hostOrEmpty ≠ "" ∧ parsed'.hostOrEmpty ≠ "" := by
  rw [← parsePath_eq_socket hStandard hUrl, ← parsePath_eq_socket hStandard hUrl']
  constructor
  · intro h
    exact ⟨h.first_eq, h.second_eq⟩
  · rintro ⟨hFirst, hSecond⟩
    refine ⟨hFirst, hSecond, ?_⟩
    intro hSockets hSame
    rw [hFirst, hSecond] at hSame
    exact hSockets (Except.ok.inj hSame)

end

def absoluteUrl : Url := ⟨"ipc", none, "/var/x"⟩
def hostUrl : Url := ⟨"ipc", some "var", "/x"⟩
def bareUrl : Url := ⟨"ipc", some "fleximq.sock", ""⟩

def socketUrls : List (String × Url) :=
  [("ipc:///var/x", absoluteUrl), ("ipc://var/x", hostUrl), ("ipc://fleximq.sock", bareUrl)]

theorem socketUrls_standard : UrlStandard (tableParser socketUrls) := tableParser_standard (by decide)

theorem ipcUrl_absolute : IpcUrl (tableParser socketUrls) "ipc:///var/x" absoluteUrl := ⟨rfl, rfl, fun _ => rfl⟩

theorem ipcUrl_host : IpcUrl (tableParser socketUrls) "ipc://var/x" hostUrl := ⟨rfl, rfl, fun _ => rfl⟩

theorem ipcUrl_bare : IpcUrl (tableParser socketUrls) "ipc://fleximq.sock" bareUrl :=
  ⟨rfl, rfl, fun h => absurd h (by decide)⟩

theorem resolveApart_iff_hosts :
    ResolveApart (tableParser socketUrls) "ipc://var/x" "ipc://fleximq.sock" hostUrl bareUrl :=
  (resolveApart_iff socketUrls_standard ipcUrl_host ipcUrl_bare).mpr ⟨by decide, by decide⟩

/-- An absolute path is moved under `/tmp`, onto the socket of the URL with its first directory as host. -/
theorem not_resolveApart_absolute :
    UrlStandard (tableParser socketUrls) ∧
      IpcUrl (tableParser socketUrls) "ipc:///var/x" absoluteUrl ∧
      IpcUrl (tableParser socketUrls) "ipc://var/x" hostUrl ∧
      absoluteUrl.socket = "/var/x" ∧ hostUrl.socket = "/tmp/var/x" ∧
      IpcTransport.parsePath (tableParser socketUrls) "ipc:///var/x" = .ok "/tmp/var/x" ∧
      IpcTransport.parsePath (tableParser socketUrls) "ipc://var/x" = .ok "/tmp/var/x" ∧
      ¬ ResolveApart (tableParser socketUrls) "ipc:///var/x" "ipc://var/x" absoluteUrl hostUrl := by
  refine ⟨socketUrls_standard, ipcUrl_absolute, ipcUrl_host, by decide, by decide, rfl, rfl, ?_⟩
  intro h
  exact absurd (Except.ok.inj h.first_eq) (by decide)

end Fleximq.Transport
