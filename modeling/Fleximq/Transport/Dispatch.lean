import Fleximq.Transport.Url

/-! # Which transport connects to a URL

The manager asks each registered transport whether the text of a URL begins with
its prefix. The transport itself parses the URL and tests the scheme; only stdio
goes by the text there too.
-/
namespace Fleximq.Transport

inductive BuiltinTransport where
  | tcp
  | ipc
  | stdio
  | webSocket
  | channel
  deriving DecidableEq, Repr

def BuiltinTransport.transportType : BuiltinTransport → String
  | .tcp => "tcp"
  | .ipc => "ipc"
  | .stdio => "stdio"
  | .webSocket => "websocket"
  | .channel => "chan"

def BuiltinTransport.supportsUrl (url : String) : BuiltinTransport → Bool
  | .tcp => startsWith url "tcp://"
  | .ipc => startsWith url "ipc://"
  | .stdio => startsWith url "stdio://"
  | .webSocket => startsWith url "ws://" || startsWith url "wss://"
  | .channel => startsWith url "chan://"

/-! ## The tests of the transports -/

def expectScheme (parse : UrlParser) (accepts : String → Bool) (refusal : String → TransportError)
    (url : String) : Except TransportError Url :=
  match parse url with
  | .error e => .error (.invalidUrl e)
  | .ok parsed => if accepts parsed.scheme then .ok parsed else .error (refusal parsed.scheme)

def TcpTransport.checkUrl (parse : UrlParser) : String → Except TransportError Url :=
  expectScheme parse (· == "tcp") fun scheme =>
    .invalidUrl ("Expected tcp:// scheme, got " ++ scheme ++ "://")

def IpcTransport.checkUrl (parse : UrlParser) : String → Except TransportError Url :=
  expectScheme parse (· == "ipc") fun scheme =>
    .invalidUrl ("Expected ipc:// scheme, got " ++ scheme ++ "://")

def WebSocketTransport.parseUrl (parse : UrlParser) : String → Except TransportError Url :=
  expectScheme parse (startsWith · "ws") fun scheme =>
    .invalidUrl ("Expected ws:// or wss:// scheme, got " ++ scheme ++ "://")

def ChannelTransport.checkUrl (parse : UrlParser) : String → Except TransportError Url :=
  expectScheme parse (· == "chan") fun scheme =>
    .unsupportedTransport ("invalid scheme for channel transport: " ++ scheme)

/-- The command that a stdio URL names, if it names one. -/
def StdioTransport.checkUrl (url : String) : Except TransportError (Option String) :=
  if url = "stdio://" then .ok none
  else
    match stripPrefix url "stdio://" with
    | some cmdPart => .ok (some cmdPart)
    | none =>
      .error (.invalidUrl ("Invalid STDIO URL scheme. Expected \"stdio://\" or \"stdio://command...\", got: " ++
        url))

def BuiltinTransport.passesSchemeCheck (parse : UrlParser) (url : String) : BuiltinTransport → Bool
  | .tcp => (TcpTransport.checkUrl parse url).isOk
  | .ipc => (IpcTransport.checkUrl parse url).isOk
  | .stdio => (StdioTransport.checkUrl url).isOk
  | .webSocket => (WebSocketTransport.parseUrl parse url).isOk
  | .channel => (ChannelTransport.checkUrl parse url).isOk

/-! ## The registry -/

/-- `register_transport`: the entry of a transport type is replaced. -/
def registerTransport (transports : List (String × BuiltinTransport)) (transport : BuiltinTransport) :
    List (String × BuiltinTransport) :=
  transports.filter (·.1 ≠ transport.transportType) ++ [(transport.transportType, transport)]

def registerDefaultTransports : List (String × BuiltinTransport) :=
  [BuiltinTransport.tcp, .ipc, .stdio, .webSocket, .channel].foldl registerTransport []

/-- The lookup over the entries of the registry, in the order in which it iterates over them. -/
def findTransportForUrl (transports : List (String × BuiltinTransport)) (url : String) : Option BuiltinTransport :=
  (transports.find? (·.2.supportsUrl url)).map Prod.snd

/-- Whatever the order, what is found is the one transport whose own test the URL passes. -/
structure Agrees (parse : UrlParser) (url : String) : Prop where
  order_irrelevant : ∀ order order', order.Perm registerDefaultTransports →
    order'.Perm registerDefaultTransports → findTransportForUrl order url = findTransportForUrl order' url
  own_test : ∀ order, order.Perm registerDefaultTransports → ∀ transport,
    findTransportForUrl order url = some transport ↔ transport.passesSchemeCheck parse url = true

/-- The URL begins with a prefix of the registry and the URL parser, which stdio does not ask, accepts
it; or it begins with none of them and the parser reads none of their schemes from it. -/
def Dispatchable (parse : UrlParser) (url : String) : Prop :=
  startsWith url "stdio://" = true ∨
  ((∃ pat ∈ ["tcp://", "ipc://", "ws://", "wss://", "chan://"], startsWith url pat = true) ∧
    ∃ parsed, parse url = .ok parsed) ∨
  ((∀ pat ∈ ["tcp://", "ipc://", "stdio://", "ws://", "wss://", "chan://"], startsWith url pat = false) ∧
    ∀ parsed, parse url = .ok parsed →
      schemeOf url ∉ ["tcp", "ipc", "chan"] ∧ startsWith (schemeOf url) "ws" = false)

/-! ## One transport at most -/

/-- The schemes in front of the prefixes of a transport. -/
def BuiltinTransport.schemes : BuiltinTransport → List String
  | .tcp => ["tcp"]
  | .ipc => ["ipc"]
  | .stdio => ["stdio"]
  | .webSocket => ["ws", "wss"]
  | .channel => ["chan"]

theorem supportsUrl_iff {url : String} {transport : BuiltinTransport} :
    transport.supportsUrl url = true ↔ ∃ scheme ∈ transport.schemes, startsWith url (scheme ++ "://") = true := by
  cases transport <;> simp [BuiltinTransport.supportsUrl, BuiltinTransport.schemes]

theorem schemeOf_eq {url scheme : String} (hPlain : scheme.toList.all isSchemeChar = true)
    (hSome : scheme.toList ≠ []) (h : startsWith url (scheme ++ "://") = true) : schemeOf url = scheme := by
  obtain ⟨rest, rfl⟩ := startsWith_iff.mp h
  have hText : (scheme ++ "://" ++ rest).toList = scheme.toList ++ ':' :: ('/' :: '/' :: rest.toList) := by
    simp
  rw [schemeOf, hText, schemeChars_append (List.all_eq_true.mp hPlain) hSome, String.ofList_toList]

theorem schemeOf_mem {url : String} {transport : BuiltinTransport} (h : transport.supportsUrl url = true) :
    schemeOf url ∈ transport.schemes := by
  obtain ⟨scheme, hScheme, hPrefix⟩ := supportsUrl_iff.mp h
  have hPlain : ∀ scheme ∈ transport.schemes, scheme.toList.all isSchemeChar = true ∧ scheme.toList ≠ [] := by
    cases transport <;> decide
  rwa [schemeOf_eq (hPlain scheme hScheme).1 (hPlain scheme hScheme).2 hPrefix]

theorem schemes_disjoint {first second : BuiltinTransport} {scheme : String} (hFirst : scheme ∈ first.schemes)
    (hSecond : scheme ∈ second.schemes) : first = second := by
  have hAll : ∀ scheme ∈ first.schemes, scheme ∈ second.schemes → first = second := by
    cases first <;> cases second <;> decide
  exact hAll scheme hFirst hSecond

theorem supportsUrl_unique {url : String} {first second : BuiltinTransport}
    (hFirst : first.supportsUrl url = true) (hSecond : second.supportsUrl url = true) : first = second :=
  schemes_disjoint (schemeOf_mem hFirst) (schemeOf_mem hSecond)

theorem mem_registerDefaultTransports (transport : BuiltinTransport) :
    (transport.transportType, transport) ∈ registerDefaultTransports := by
  cases transport <;> decide

/-- The order of the registry does not matter. -/
theorem findTransportForUrl_eq_some {order : List (String × BuiltinTransport)}
    (hOrder : order.Perm registerDefaultTransports) {url : String} {transport : BuiltinTransport} :
    findTransportForUrl order url = some transport ↔ transport.supportsUrl url = true := by
  rw [findTransportForUrl, Option.map_eq_some_iff]
  constructor
  · rintro ⟨entry, hFound, rfl⟩
    simpa using List.find?_some hFound
  · intro hSupports
    have hMem := hOrder.mem_iff.mpr (mem_registerDefaultTransports transport)
    cases hFound : order.find? (·.2.supportsUrl url) with
    | none => exact absurd hSupports (by simpa using List.find?_eq_none.mp hFound _ hMem)
    | some entry =>
      have hEntry : entry.2.supportsUrl url = true := by simpa using List.find?_some hFound
      exact ⟨entry, rfl, supportsUrl_unique hEntry hSupports⟩

theorem findTransportForUrl_perm {order order' : List (String × BuiltinTransport)}
    (hOrder : order.Perm registerDefaultTransports) (hOrder' : order'.Perm registerDefaultTransports)
    {url : String} : findTransportForUrl order url = findTransportForUrl order' url := by
  apply Option.ext
  intro transport
  rw [findTransportForUrl_eq_some hOrder, findTransportForUrl_eq_some hOrder']

/-! ## The test of the scheme -/

def BuiltinTransport.acceptsScheme (scheme : String) : BuiltinTransport → Bool
  | .tcp => scheme == "tcp"
  | .ipc => scheme == "ipc"
  | .stdio => false
  | .webSocket => startsWith scheme "ws"
  | .channel => scheme == "chan"

theorem expectScheme_isOk {parse : UrlParser} {accepts : String → Bool} {refusal : String → TransportError}
    {url : String} :
    (expectScheme parse accepts refusal url).isOk = true ↔
      ∃ parsed, parse url = .ok parsed ∧ accepts parsed.scheme = true := by
  rw [expectScheme]
  cases parse url with
  | error e => simp [Except.isOk, Except.toBool]
  | ok parsed =>
    dsimp only
    split
    next hAccepts => simpa [Except.isOk, Except.toBool] using hAccepts
    next hRefused => simpa [Except.isOk, Except.toBool] using hRefused

theorem stdio_passes_iff {parse : UrlParser} {url : String} :
    BuiltinTransport.stdio.passesSchemeCheck parse url = true ↔ startsWith url "stdio://" = true := by
  rw [BuiltinTransport.passesSchemeCheck, StdioTransport.checkUrl]
  split
  next hExact =>
    rw [hExact]
    decide
  next =>
    rw [stripPrefix]
    split <;> simp_all [Except.isOk, Except.toBool]

theorem passes_iff {parse : UrlParser} (hStandard : UrlStandard parse) {url : String}
    {transport : BuiltinTransport} (hTransport : transport ≠ .stdio) :
    transport.passesSchemeCheck parse url = true ↔
      (∃ parsed, parse url = .ok parsed) ∧ transport.acceptsScheme (schemeOf url) = true := by
  have hParsed : transport.passesSchemeCheck parse url = true ↔
      ∃ parsed, parse url = .ok parsed ∧ transport.acceptsScheme parsed.scheme = true := by
    cases transport with
    | stdio => exact absurd rfl hTransport
    | _ => exact expectScheme_isOk
  rw [hParsed]
  constructor
  · rintro ⟨parsed, hParse, hAccepts⟩
    rw [hStandard.scheme_eq url parsed hParse] at hAccepts
    exact ⟨⟨parsed, hParse⟩, hAccepts⟩
  · rintro ⟨⟨parsed, hParse⟩, hAccepts⟩
    rw [← hStandard.scheme_eq url parsed hParse] at hAccepts
    exact ⟨parsed, hParse, hAccepts⟩

/-! ## Both decisions -/

theorem agrees_iff_supports {parse : UrlParser} {url : String} :
    Agrees parse url ↔ ∀ transport : BuiltinTransport,
      transport.supportsUrl url = true ↔ transport.passesSchemeCheck parse url = true := by
  constructor
  · intro hAgrees transport
    rw [← findTransportForUrl_eq_some (List.Perm.refl _)]
    exact hAgrees.own_test _ (List.Perm.refl _) transport
  · intro hSame
    refine ⟨fun _ _ hOrder hOrder' => findTransportForUrl_perm hOrder hOrder', ?_⟩
    intro order hOrder transport
    rw [findTransportForUrl_eq_some hOrder]
    exact hSame transport

theorem prefixed_iff {url : String} :
    (∃ pat ∈ ["tcp://", "ipc://", "ws://", "wss://", "chan://"], startsWith url pat = true) ↔
      ∃ transport : BuiltinTransport, transport ≠ .stdio ∧ transport.supportsUrl url = true := by
  constructor
  · rintro ⟨pat, hPat, hPrefix⟩
    simp only [List.mem_cons, List.not_mem_nil, or_false] at hPat
    rcases hPat with rfl | rfl | rfl | rfl | rfl
    · exact ⟨.tcp, by decide, hPrefix⟩
    · exact ⟨.ipc, by decide, hPrefix⟩
    · exact ⟨.webSocket, by decide, Bool.or_eq_true_iff.mpr (.inl hPrefix)⟩
    · exact ⟨.webSocket, by decide, Bool.or_eq_true_iff.mpr (.inr hPrefix)⟩
    · exact ⟨.channel, by decide, hPrefix⟩
  · rintro ⟨transport, hTransport, hSupports⟩
    cases transport with
    | stdio => exact absurd rfl hTransport
    | webSocket =>
      rcases Bool.or_eq_true_iff.mp hSupports with hPrefix | hPrefix
      · exact ⟨"ws://", by decide, hPrefix⟩
      · exact ⟨"wss://", by decide, hPrefix⟩
    | tcp => exact ⟨"tcp://", by decide, hSupports⟩
    | ipc => exact ⟨"ipc://", by decide, hSupports⟩
    | channel => exact ⟨"chan://", by decide, hSupports⟩

theorem unprefixed_iff {url : String} :
    (∀ pat ∈ ["tcp://", "ipc://", "stdio://", "ws://", "wss://", "chan://"], startsWith url pat = false) ↔
      ∀ transport : BuiltinTransport, transport.supportsUrl url = false := by
  constructor
  · intro hNone transport
    cases transport <;> simp [BuiltinTransport.supportsUrl, hNone]
  · intro hNone pat hPat
    obtain ⟨hWs, hWss⟩ := Bool.or_eq_false_iff.mp (hNone .webSocket)
    simp only [List.mem_cons, List.not_mem_nil, or_false] at hPat
    rcases hPat with rfl | rfl | rfl | rfl | rfl | rfl
    · exact hNone .tcp
    · exact hNone .ipc
    · exact hNone .stdio
    · exact hWs
    · exact hWss
    · exact hNone .channel

theorem accepts_none_iff {scheme : String} :
    scheme ∉ ["tcp", "ipc", "chan"] ∧ startsWith scheme "ws" = false ↔
      ∀ transport : BuiltinTransport, transport.acceptsScheme scheme = false := by
  constructor
  · rintro ⟨hOther, hWs⟩ transport
    cases transport <;> simp_all [BuiltinTransport.acceptsScheme]
  · intro hNone
    have hTcp := hNone .tcp
    have hIpc := hNone .ipc
    have hChannel := hNone .channel
    simp only [BuiltinTransport.acceptsScheme, beq_eq_false_iff_ne] at hTcp hIpc hChannel
    exact ⟨by simp [hTcp, hIpc, hChannel], hNone .webSocket⟩

theorem accepts_own_iff {url : String} {own : BuiltinTransport} (hOwn : own.supportsUrl url = true)
    (transport : BuiltinTransport) :
    transport.acceptsScheme (schemeOf url) = true ↔ transport = own ∧ own ≠ .stdio := by
  have hAll : ∀ scheme ∈ own.schemes,
      (transport.acceptsScheme scheme = true ↔ transport = own ∧ own ≠ .stdio) := by
    cases own <;> cases transport <;> decide
  exact hAll _ (schemeOf_mem hOwn)

theorem agrees_of_supports {parse : UrlParser} (hStandard : UrlStandard parse) {url : String}
    {own : BuiltinTransport} (hOwn : own.supportsUrl url = true)
    (hParsed : own ≠ .stdio → ∃ parsed, parse url = .ok parsed) : Agrees parse url := by
  apply agrees_iff_supports.mpr
  intro transport
  have hSupports : transport.supportsUrl url = true ↔ transport = own :=
    ⟨fun hSupports => supportsUrl_unique hSupports hOwn, fun hSame => hSame ▸ hOwn⟩
  rw [hSupports]
  rcases eq_or_ne transport .stdio with rfl | hTransport
  · rw [stdio_passes_iff]
    exact hSupports.symm
  · rw [passes_iff hStandard hTransport, accepts_own_iff hOwn]
    constructor
    · rintro rfl
      exact ⟨hParsed hTransport, rfl, hTransport⟩
    · exact fun hPasses => hPasses.2.1

/-- The manager and the transports agree on a URL exactly when its text leaves no room for them to
differ. -/
theorem agrees_iff {parse : UrlParser} (hStandard : UrlStandard parse) (url : String) :
    Agrees parse url ↔ Dispatchable parse url := by
  rw [Dispatchable, prefixed_iff, unprefixed_iff]
  simp only [accepts_none_iff]
  constructor
  · intro hAgrees
    have hSame := agrees_iff_supports.mp hAgrees
    by_cases hSome : ∃ transport : BuiltinTransport, transport.supportsUrl url = true
    · obtain ⟨transport, hSupports⟩ := hSome
      rcases eq_or_ne transport .stdio with rfl | hTransport
      · exact .inl hSupports
      · have hPasses := (passes_iff hStandard hTransport).mp ((hSame transport).mp hSupports)
        exact .inr (.inl ⟨⟨transport, hTransport, hSupports⟩, hPasses.1⟩)
    · have hNone (transport : BuiltinTransport) : transport.supportsUrl url = false :=
        eq_false_of_ne_true fun hSupports => hSome ⟨transport, hSupports⟩
      refine .inr (.inr ⟨hNone, ?_⟩)
      intro parsed hParse transport
      by_contra hAccepts
      rcases eq_or_ne transport .stdio with rfl | hTransport
      · exact hAccepts rfl
      · have hPasses := (passes_iff hStandard hTransport).mpr ⟨⟨parsed, hParse⟩, eq_true_of_ne_false hAccepts⟩
        exact hSome ⟨transport, (hSame transport).mpr hPasses⟩
  · rintro (hStdio | ⟨⟨own, -, hOwn⟩, hParsed⟩ | ⟨hNone, hForeign⟩)
    · exact @agrees_of_supports _ hStandard _ .stdio hStdio fun hOther => absurd rfl hOther
    · exact agrees_of_supports hStandard hOwn fun _ => hParsed
    · apply agrees_iff_supports.mpr
      intro transport
      rw [hNone transport]
      refine ⟨fun hSupports => (nomatch hSupports), ?_⟩
      intro hPasses
      rcases eq_or_ne transport .stdio with rfl | hTransport
      · exact (hNone .stdio).symm.trans (stdio_passes_iff.mp hPasses)
      · obtain ⟨⟨parsed, hParse⟩, hAccepts⟩ := (passes_iff hStandard hTransport).mp hPasses
        exact (hForeign parsed hParse transport).symm.trans hAccepts

def localUrls : List (String × Url) :=
  [("tcp://127.0.0.1:8080", ⟨"tcp", some "127.0.0.1", ""⟩),
    ("TCP://127.0.0.1:8080", ⟨"tcp", some "127.0.0.1", ""⟩),
    ("wsx://127.0.0.1/", ⟨"wsx", some "127.0.0.1", "/"⟩)]

theorem localUrls_standard : UrlStandard (tableParser localUrls) := tableParser_standard (by decide)

theorem agrees_iff_lowerCase : Agrees (tableParser localUrls) "tcp://127.0.0.1:8080" :=
  (agrees_iff localUrls_standard _).mpr (.inr (.inl ⟨⟨"tcp://", by decide, by decide⟩, ⟨_, rfl⟩⟩))

/-- No transport is found for a URL whose scheme is in upper case, nor for one of the scheme `wsx`, and
TCP and WebSocket accept them. -/
theorem not_agrees_upperCase :
    UrlStandard (tableParser localUrls) ∧ ¬ Agrees (tableParser localUrls) "TCP://127.0.0.1:8080" ∧
      ¬ Agrees (tableParser localUrls) "wsx://127.0.0.1/" := by
  refine ⟨localUrls_standard, ?_, ?_⟩
  · intro hAgrees
    have hFound := (hAgrees.own_test _ (List.Perm.refl _) .tcp).mpr (by decide)
    exact absurd hFound (by decide)
  · intro hAgrees
    have hFound := (hAgrees.own_test _ (List.Perm.refl _) .webSocket).mpr (by decide)
    exact absurd hFound (by decide)

end Fleximq.Transport
