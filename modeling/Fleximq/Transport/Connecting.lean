import Fleximq.Transport.Manager

/-! # Connecting through the manager

A connect counts its attempt, looks for a transport, awaits its `connect` and
counts its success. Many calls run at a time, and transports are registered and
the statistics used between their steps. The lookup visits the entries of a
concurrent map one by one.
-/
namespace Fleximq.Transport.Connecting
open Foundation Fleximq.Protocol

/-- What the manager asks of a transport. -/
structure Dyn (T : Type) where
  transportType : T → String
  supportsUrl : T → String → Bool

def Dyn.builtin : Dyn BuiltinTransport := ⟨(·.transportType), fun transport url => transport.supportsUrl url⟩

variable {T : Type}

def insert (dyn : Dyn T) (transports : List (String × T)) (transport : T) : List (String × T) :=
  transports.filter (·.1 ≠ dyn.transportType transport) ++ [(dyn.transportType transport, transport)]

inductive Outcome (T : Type) where
  | missing
  | failed (transport : T) (e : TransportError)
  | connected (transport : T)

/-- What `connect` returns. -/
def Outcome.result (url : String) : Outcome T → Except TransportError T
  | .missing => .error (.unsupportedTransport ("No transport for URL: " ++ url))
  | .failed _ e => .error e
  | .connected transport => .ok transport

/-- What a call has returned. -/
structure Answer (T : Type) where
  id : Nat
  url : String
  outcome : Outcome T

/-- Where a call is. `pending` are the types that were registered at its start and that the lookup
has not visited; `connected` is after the await and before the success is counted. -/
inductive Phase (T : Type) where
  | idle
  | looking (url : String) (pending : List String)
  | connecting (url : String) (transport : T)
  | connected (url : String) (transport : T)

/-- The manager and the calls, with a record of the URLs asked for and of what was returned. The
statistics are those of `TransportManager`; `transports` is its registry. -/
structure State (T : Type) where
  transports : List (String × T)
  stats : ManagerState
  phase : Nat → Phase T
  attempted : List String
  completed : List (Answer T)

inductive Action (T : Type) where
  | start (id : Nat) (url : String)
  | visit (id : Nat) (transportType : String)
  | exhaust (id : Nat)
  | settle (id : Nat) (result : Except TransportError Unit)
  | finish (id : Nat)
  | cancel (id : Nat)
  | register (transport : T)
  | call (call : ManagerCall)

structure Event (T : Type) where
  elapsed : Nat
  action : Action T

def new (dyn : Dyn T) (cacheSize : Usize) (ttl : Duration) (defaults : List T) : State T where
  transports := defaults.foldl (insert dyn) []
  stats := .start cacheSize ttl
  phase _ := .idle
  attempted := []
  completed := []

/-- The methods that are there for every caller. -/
def isPublic : ManagerCall → Bool
  | .trackConnectionAttempt _ => false
  | .trackSuccessfulConnection _ => false
  | _ => true

namespace State

def turn (s : State T) (id : Nat) (phase : Phase T) : State T :=
  { s with phase := Function.update s.phase id phase }

def complete (s : State T) (id : Nat) (url : String) (outcome : Outcome T) : State T :=
  { s.turn id .idle with completed := s.completed ++ [⟨id, url, outcome⟩] }

def track (s : State T) (call : ManagerCall) : State T := { s with stats := s.stats.step ⟨0, call⟩ }

def wait (s : State T) (elapsed : Nat) : State T :=
  { s with stats := { s.stats with now := s.stats.now + elapsed } }

def act (dyn : Dyn T) (s : State T) : Action T → State T
  | .start id url =>
    match s.phase id with
    | .idle =>
      { (s.track (.trackConnectionAttempt url)).turn id (.looking url (s.transports.map Prod.fst)) with
        attempted := s.attempted ++ [url] }
    | _ => s
  | .visit id transportType =>
    match s.phase id, s.transports.lookup transportType with
    | .looking url pending, some transport =>
      if dyn.supportsUrl transport url then s.turn id (.connecting url transport)
      else s.turn id (.looking url (pending.filter (· ≠ transportType)))
    | _, _ => s
  | .exhaust id =>
    match s.phase id with
    | .looking url [] => s.complete id url .missing
    | _ => s
  | .settle id result =>
    match s.phase id with
    | .connecting url transport =>
      match result with
      | .ok _ => s.turn id (.connected url transport)
      | .error e => s.complete id url (.failed transport e)
    | _ => s
  | .finish id =>
    match s.phase id with
    | .connected url transport =>
      (s.track (.trackSuccessfulConnection url)).complete id url (.connected transport)
    | _ => s
  | .cancel id =>
    match s.phase id with
    | .connecting _ _ => s.turn id .idle
    | _ => s
  | .register transport => { s with transports := insert dyn s.transports transport }
  | .call call => if isPublic call then s.track call else s

/-- The calls for the URL that returned a stream. -/
def connections (s : State T) (url : String) : Nat :=
  s.completed.countP fun answer => answer.url = url && (answer.outcome.result answer.url).isOk

end State

def step (dyn : Dyn T) (s : State T) (event : Event T) : State T :=
  (s.wait event.elapsed).act dyn event.action

/-! ## What an action does -/

inductive Acts (dyn : Dyn T) (s : State T) : Action T → State T → Prop
  | stays (action : Action T) : Acts dyn s action s
  | starts {id : Nat} (url : String) (hPhase : s.phase id = .idle) :
    Acts dyn s (.start id url)
      { (s.track (.trackConnectionAttempt url)).turn id (.looking url (s.transports.map Prod.fst)) with
        attempted := s.attempted ++ [url] }
  | finds {id : Nat} {url transportType : String} {pending : List String} {transport : T}
    (hPhase : s.phase id = .looking url pending)
    (hLookup : s.transports.lookup transportType = some transport)
    (hSupports : dyn.supportsUrl transport url = true) :
    Acts dyn s (.visit id transportType) (s.turn id (.connecting url transport))
  | passes {id : Nat} {url transportType : String} {pending : List String} {transport : T}
    (hPhase : s.phase id = .looking url pending)
    (hLookup : s.transports.lookup transportType = some transport)
    (hSupports : dyn.supportsUrl transport url = false) :
    Acts dyn s (.visit id transportType)
      (s.turn id (.looking url (pending.filter (· ≠ transportType))))
  | exhausts {id : Nat} {url : String} (hPhase : s.phase id = .looking url []) :
    Acts dyn s (.exhaust id) (s.complete id url .missing)
  | settles {id : Nat} {url : String} {transport : T} (hPhase : s.phase id = .connecting url transport) :
    Acts dyn s (.settle id (.ok ())) (s.turn id (.connected url transport))
  | fails {id : Nat} {url : String} {transport : T} (e : TransportError)
    (hPhase : s.phase id = .connecting url transport) :
    Acts dyn s (.settle id (.error e)) (s.complete id url (.failed transport e))
  | finishes {id : Nat} {url : String} {transport : T} (hPhase : s.phase id = .connected url transport) :
    Acts dyn s (.finish id)
      ((s.track (.trackSuccessfulConnection url)).complete id url (.connected transport))
  | cancels {id : Nat} {url : String} {transport : T} (hPhase : s.phase id = .connecting url transport) :
    Acts dyn s (.cancel id) (s.turn id .idle)
  | registers (transport : T) :
    Acts dyn s (.register transport) { s with transports := insert dyn s.transports transport }
  | calls {call : ManagerCall} (hPublic : isPublic call = true) : Acts dyn s (.call call) (s.track call)

theorem act_cases (dyn : Dyn T) (s : State T) (action : Action T) : Acts dyn s action (s.act dyn action) := by
  cases action with
  | start id url =>
    rw [State.act]
    split
    · rename_i hPhase
      exact .starts url hPhase
    · exact .stays _
  | visit id transportType =>
    rw [State.act]
    split
    · rename_i url pending transport hPhase hLookup
      split
      · rename_i hSupports
        exact .finds hPhase hLookup hSupports
      · rename_i hSupports
        exact .passes hPhase hLookup (Bool.eq_false_of_not_eq_true hSupports)
    · exact .stays _
  | exhaust id =>
    rw [State.act]
    split
    · rename_i url hPhase
      exact .exhausts hPhase
    · exact .stays _
  | settle id result =>
    rw [State.act]
    split
    · rename_i url transport hPhase
      cases result with
      | ok _ => exact .settles hPhase
      | error e => exact .fails e hPhase
    · exact .stays _
  | finish id =>
    rw [State.act]
    split
    · rename_i url transport hPhase
      exact .finishes hPhase
    · exact .stays _
  | cancel id =>
    rw [State.act]
    split
    · rename_i url transport hPhase
      exact .cancels hPhase
    · exact .stays _
  | register transport => exact .registers transport
  | call call =>
    rw [State.act]
    split
    · rename_i hPublic
      exact .calls hPublic
    · exact .stays _

theorem turn_phase (s : State T) (id : Nat) (phase : Phase T) {other : Nat} {was : Phase T}
    (h : (s.turn id phase).phase other = was) : was = phase ∨ s.phase other = was := by
  by_cases hSame : other = id
  · subst hSame
    exact .inl (h.symm.trans (Function.update_self ..))
  · exact .inr ((Function.update_of_ne hSame ..).symm.trans h)

/-! ## Which transport is used -/

section
variable {dyn : Dyn T} {known : T → Prop} {s s' : State T} {action : Action T} {kind url : String}

def Outcome.transport : Outcome T → Option T
  | .missing => none
  | .failed transport _ => some transport
  | .connected transport => some transport

def Phase.transport : Phase T → Option (String × T)
  | .connecting url transport => some (url, transport)
  | .connected url transport => some (url, transport)
  | _ => none

theorem mem_of_lookup {transports : List (String × T)} {transport : T}
    (h : transports.lookup kind = some transport) : (kind, transport) ∈ transports := by
  obtain ⟨before, after, rfl, _⟩ := List.lookup_eq_some_iff.mp h
  simp

theorem mem_insert {transports : List (String × T)} {transport : T} {entry : String × T} :
    entry ∈ insert dyn transports transport ↔
      entry ∈ transports ∧ entry.1 ≠ dyn.transportType transport ∨
        entry = (dyn.transportType transport, transport) := by simp [insert]

/-- Every transport that a call uses is known and supports its URL. -/
structure Vouched (dyn : Dyn T) (known : T → Prop) (s : State T) : Prop where
  registered : ∀ entry ∈ s.transports, known entry.2
  chosen : ∀ id url transport, (s.phase id).transport = some (url, transport) →
    known transport ∧ dyn.supportsUrl transport url = true
  used : ∀ answer ∈ s.completed, ∀ transport, answer.outcome.transport = some transport →
    known transport ∧ dyn.supportsUrl transport answer.url = true

theorem Vouched.turn (h : Vouched dyn known s) (id : Nat) (phase : Phase T)
    (hPhase : ∀ url transport, phase.transport = some (url, transport) →
      known transport ∧ dyn.supportsUrl transport url = true) : Vouched dyn known (s.turn id phase) where
  registered := h.registered
  chosen other url transport hSome := by
    rcases turn_phase s id phase rfl with hNew | hOld
    · rw [hNew] at hSome
      exact hPhase url transport hSome
    · rw [← hOld] at hSome
      exact h.chosen other url transport hSome
  used := h.used

theorem Vouched.complete (h : Vouched dyn known s) (id : Nat) (url : String) (outcome : Outcome T)
    (hOutcome : ∀ transport, outcome.transport = some transport →
      known transport ∧ dyn.supportsUrl transport url = true) :
    Vouched dyn known (s.complete id url outcome) where
  registered := h.registered
  chosen := (h.turn id .idle fun _ _ hNone => by cases hNone).chosen
  used answer hMem transport hSome := by
    rcases List.mem_append.mp hMem with hOld | hNew
    · exact h.used answer hOld transport hSome
    · obtain rfl := List.mem_singleton.mp hNew
      exact hOutcome transport hSome

theorem Acts.vouched (h : Acts dyn s action s') (hKnown : ∀ transport, action = .register transport → known transport)
    (hVouched : Vouched dyn known s) : Vouched dyn known s' := by
  cases h with
  | stays => exact hVouched
  | @starts id url hPhase =>
    have hTurn := hVouched.turn id (.looking url (s.transports.map Prod.fst)) fun _ _ hNone => by
      cases hNone
    exact ⟨hTurn.registered, hTurn.chosen, hTurn.used⟩
  | @finds id url kind pending transport hPhase hLookup hSupports =>
    apply hVouched.turn
    intro _ _ hSame
    cases hSame
    exact ⟨hVouched.registered _ (mem_of_lookup hLookup), hSupports⟩
  | passes _ _ _ => exact hVouched.turn _ _ fun _ _ hNone => by cases hNone
  | exhausts _ => exact hVouched.complete _ _ _ fun _ hNone => by cases hNone
  | @settles id url transport hPhase =>
    apply hVouched.turn
    intro _ _ hSame
    cases hSame
    exact hVouched.chosen id url transport (by rw [hPhase]; rfl)
  | @fails id url transport e hPhase =>
    apply hVouched.complete
    intro _ hSame
    cases hSame
    exact hVouched.chosen id url transport (by rw [hPhase]; rfl)
  | @finishes id url transport hPhase =>
    have hChosen := hVouched.chosen id url transport (by rw [hPhase]; rfl)
    have hDone := hVouched.complete id url (.connected transport) fun _ hSame => by
      cases hSame
      exact hChosen
    exact ⟨hDone.registered, hDone.chosen, hDone.used⟩
  | cancels _ => exact hVouched.turn _ _ fun _ _ hNone => by cases hNone
  | registers transport =>
    refine ⟨?_, hVouched.chosen, hVouched.used⟩
    intro entry hMem
    rcases mem_insert.mp hMem with ⟨hOld, _⟩ | rfl
    · exact hVouched.registered entry hOld
    · exact hKnown transport rfl
  | calls _ => exact ⟨hVouched.registered, hVouched.chosen, hVouched.used⟩

theorem Acts.completed_isPrefix (h : Acts dyn s action s') : s.completed <+: s'.completed := by
  cases h with
  | exhausts _ => exact List.prefix_append _ _
  | fails e _ => exact List.prefix_append _ _
  | finishes _ => exact List.prefix_append _ _
  | _ => exact List.prefix_refl _

/-- There is a transport of this type, every one of them supports the URL, and the call `id` has not
passed the type in a lookup for the URL. `before` are the answers up to now. -/
structure Supplied (dyn : Dyn T) (kind url : String) (id : Nat) (before : List (Answer T)) (s : State T) :
    Prop where
  present : kind ∈ s.transports.map Prod.fst
  supports : ∀ entry ∈ s.transports, entry.1 = kind → dyn.supportsUrl entry.2 url = true
  pending : ∀ pending, s.phase id = .looking url pending → kind ∈ pending
  found : ∃ later, s.completed = before ++ later ∧
    ∀ answer ∈ later, answer.id = id → answer.url = url → answer.outcome.transport ≠ none

section
variable {own : Nat} {before : List (Answer T)}

theorem Supplied.turn (h : Supplied dyn kind url own before s) (id : Nat) (phase : Phase T)
    (hPhase : id = own → ∀ pending, phase = .looking url pending → kind ∈ pending) :
    Supplied dyn kind url own before (s.turn id phase) where
  present := h.present
  supports := h.supports
  pending pending hLooking := by
    change Function.update s.phase id phase own = _ at hLooking
    by_cases hOwn : id = own
    · subst hOwn
      rw [Function.update_self] at hLooking
      exact hPhase rfl pending hLooking
    · rw [Function.update_of_ne (Ne.symm hOwn)] at hLooking
      exact h.pending pending hLooking
  found := h.found

theorem Supplied.complete (h : Supplied dyn kind url own before s) (id : Nat) (other : String)
    (outcome : Outcome T) (hOutcome : id = own → outcome.transport = none → other ≠ url) :
    Supplied dyn kind url own before (s.complete id other outcome) where
  present := h.present
  supports := h.supports
  pending := (h.turn id .idle fun _ _ hNone => by cases hNone).pending
  found := by
    obtain ⟨later, hLater, hFound⟩ := h.found
    refine ⟨later ++ [⟨id, other, outcome⟩], ?_, ?_⟩
    · change s.completed ++ [_] = _
      rw [hLater, List.append_assoc]
    · intro answer hMem hId hUrl hNone
      rcases List.mem_append.mp hMem with hOld | hNew
      · exact hFound answer hOld hId hUrl hNone
      · obtain rfl := List.mem_singleton.mp hNew
        exact hOutcome hId hNone hUrl

theorem present_insert {transports : List (String × T)} (h : kind ∈ transports.map Prod.fst)
    (transport : T) : kind ∈ (insert dyn transports transport).map Prod.fst := by
  obtain ⟨entry, hMem, rfl⟩ := List.mem_map.mp h
  by_cases hSame : entry.1 = dyn.transportType transport
  · exact List.mem_map.mpr ⟨_, mem_insert.mpr (.inr rfl), hSame.symm⟩
  · exact List.mem_map.mpr ⟨entry, mem_insert.mpr (.inl ⟨hMem, hSame⟩), rfl⟩

theorem Acts.supplied (h : Acts dyn s action s')
    (hSupports : ∀ transport, action = .register transport → dyn.transportType transport = kind →
      dyn.supportsUrl transport url = true)
    (hSupplied : Supplied dyn kind url own before s) : Supplied dyn kind url own before s' := by
  cases h with
  | stays => exact hSupplied
  | @starts id other hPhase =>
    have hTurn := hSupplied.turn id (.looking other (s.transports.map Prod.fst)) fun _ pending hSame => by
      cases hSame
      exact hSupplied.present
    exact ⟨hTurn.present, hTurn.supports, hTurn.pending, hTurn.found⟩
  | finds _ _ _ => exact hSupplied.turn _ _ fun _ _ hNone => by cases hNone
  | @passes id other visited pending transport hPhase hLookup hRefused =>
    apply hSupplied.turn
    rintro rfl _ hSame
    cases hSame
    have hOther : kind ≠ visited := by
      rintro rfl
      cases hRefused.symm.trans (hSupplied.supports _ (mem_of_lookup hLookup) rfl)
    exact List.mem_filter.mpr ⟨hSupplied.pending pending hPhase, by simpa using hOther⟩
  | @exhausts id other hPhase =>
    apply hSupplied.complete
    rintro rfl _ rfl
    cases hSupplied.pending [] hPhase
  | settles _ => exact hSupplied.turn _ _ fun _ _ hNone => by cases hNone
  | fails e _ => exact hSupplied.complete _ _ _ fun _ hNone => by cases hNone
  | @finishes id other transport hPhase =>
    have hDone := hSupplied.complete id other (.connected transport) fun _ hNone => by
      cases hNone
    exact ⟨hDone.present, hDone.supports, hDone.pending, hDone.found⟩
  | cancels _ => exact hSupplied.turn _ _ fun _ _ hNone => by cases hNone
  | registers transport =>
    refine ⟨present_insert hSupplied.present transport, ?_, hSupplied.pending, hSupplied.found⟩
    intro entry hMem hKind
    rcases mem_insert.mp hMem with ⟨hOld, _⟩ | rfl
    · exact hSupplied.supports entry hOld hKind
    · exact hSupports transport rfl hKind
  | calls _ => exact ⟨hSupplied.present, hSupplied.supports, hSupplied.pending, hSupplied.found⟩

end

end

/-! ## Lookups over a run -/

section
variable {dyn : Dyn T} {known : T → Prop} {kind url : String} {cacheSize : Usize} {ttl : Duration}
  {defaults : List T} {events : List (Event T)}

/-- The transport was there from the start or is registered in the run. -/
def Registered (defaults : List T) (events : List (Event T)) (transport : T) : Prop :=
  transport ∈ defaults ∨ ∃ event ∈ events, event.action = .register transport

theorem mem_foldl_insert {transports : List (String × T)} {entry : String × T}
    (h : entry ∈ defaults.foldl (insert dyn) transports) :
    entry ∈ transports ∨ ∃ transport ∈ defaults, entry = (dyn.transportType transport, transport) := by
  induction defaults generalizing transports with
  | nil => exact .inl h
  | cons transport defaults ih =>
    rcases ih h with hMem | ⟨other, hOther, hEntry⟩
    · rcases mem_insert.mp hMem with ⟨hOld, _⟩ | hEntry
      · exact .inl hOld
      · exact .inr ⟨transport, List.mem_cons_self, hEntry⟩
    · exact .inr ⟨other, List.mem_cons_of_mem _ hOther, hEntry⟩

theorem present_foldl_insert {transports : List (String × T)}
    (h : kind ∈ transports.map Prod.fst ∨ ∃ transport ∈ defaults, dyn.transportType transport = kind) :
    kind ∈ (defaults.foldl (insert dyn) transports).map Prod.fst := by
  induction defaults generalizing transports with
  | nil => exact h.resolve_right fun ⟨_, hMem, _⟩ => nomatch hMem
  | cons transport defaults ih =>
    apply ih
    rcases h with hOld | ⟨other, hOther, hKind⟩
    · exact .inl (present_insert hOld transport)
    · rcases List.mem_cons.mp hOther with rfl | hLater
      · exact .inl (List.mem_map.mpr ⟨_, mem_insert.mpr (.inr rfl), hKind⟩)
      · exact .inr ⟨other, hLater, hKind⟩

theorem vouched_step (s : State T) (event : Event T) (h : Vouched dyn known s)
    (hKnown : ∀ transport, event.action = .register transport → known transport) :
    Vouched dyn known (step dyn s event) :=
  (act_cases dyn (s.wait event.elapsed) event.action).vouched hKnown ⟨h.registered, h.chosen, h.used⟩

theorem completed_isPrefix (s : State T) (events : List (Event T)) :
    s.completed <+: (Trace.run (step dyn) s events).completed := by
  refine @Trace.run_invariant _ _ (step dyn) (fun s' => s.completed <+: s'.completed) ?_ s (List.prefix_refl _) events
  intro s' event hBefore
  exact hBefore.trans (act_cases dyn (s'.wait event.elapsed) event.action).completed_isPrefix

theorem supplied_step {own : Nat} {before : List (Answer T)} (s : State T) (event : Event T)
    (h : Supplied dyn kind url own before s)
    (hSupports : ∀ transport, event.action = .register transport → dyn.transportType transport = kind →
      dyn.supportsUrl transport url = true) : Supplied dyn kind url own before (step dyn s event) :=
  (act_cases dyn (s.wait event.elapsed) event.action).supplied hSupports
    ⟨h.present, h.supports, h.pending, h.found⟩

theorem vouched_run (dyn : Dyn T) (cacheSize : Usize) (ttl : Duration) (defaults : List T)
    (events : List (Event T)) : Vouched dyn (Registered defaults events)
      (Trace.run (step dyn) (new dyn cacheSize ttl defaults) events) := by
  have hNew : Vouched dyn (Registered defaults events) (new dyn cacheSize ttl defaults) := by
    refine ⟨?_, fun _ _ _ hNone => (by cases hNone), fun _ hNone => (by cases hNone)⟩
    intro entry hMem
    rcases mem_foldl_insert hMem with hNone | ⟨transport, hDefault, rfl⟩
    · cases hNone
    · exact .inl hDefault
  refine Trace.run_invariant_of_forall vouched_step hNew ?_
  intro event hMem transport hRegister
  exact .inr ⟨event, hMem, hRegister⟩

/-- The transport is there for the type, or is registered for it in the run. -/
def Offered (dyn : Dyn T) (s : State T) (events : List (Event T)) (kind : String) (transport : T) : Prop :=
  (kind, transport) ∈ s.transports ∨
    ∃ event ∈ events, event.action = .register transport ∧ dyn.transportType transport = kind

/-- From where a call has not begun. -/
theorem supplied_run {s : State T} {own : Nat} (hIdle : s.phase own = .idle)
    (hPresent : kind ∈ s.transports.map Prod.fst)
    (hSupports : ∀ transport, Offered dyn s events kind transport → dyn.supportsUrl transport url = true) :
    Supplied dyn kind url own s.completed (Trace.run (step dyn) s events) := by
  have hStart : Supplied dyn kind url own s.completed s := by
    refine ⟨hPresent, ?_, ?_, [], (List.append_nil _).symm, fun _ hNone => (by cases hNone)⟩
    · rintro ⟨own, transport⟩ hMem rfl
      exact hSupports transport (.inl hMem)
    · intro pending hLooking
      cases hIdle.symm.trans hLooking
  refine Trace.run_invariant_of_forall supplied_step hStart ?_
  intro event hMem transport hRegister hKind
  exact hSupports transport (.inr ⟨event, hMem, hRegister, hKind⟩)

/-- A call uses a transport that was registered and supports its URL. It finds one when there are
transports of some type as it starts and those that there are and that are registered for the type
from then on support the URL, whatever else is registered while it looks. -/
theorem lookup_run (dyn : Dyn T) (cacheSize : Usize) (ttl : Duration) (defaults : List T)
    (before after : List (Event T)) :
    let s := Trace.run (step dyn) (new dyn cacheSize ttl defaults) before
    ∃ later, (Trace.run (step dyn) s after).completed = s.completed ++ later ∧
      ∀ answer ∈ later,
        (∀ transport, answer.outcome.transport = some transport →
          Registered defaults (before ++ after) transport ∧ dyn.supportsUrl transport answer.url = true) ∧
        ∀ kind, s.phase answer.id = .idle → kind ∈ s.transports.map Prod.fst →
          (∀ transport, Offered dyn s after kind transport → dyn.supportsUrl transport answer.url = true) →
          answer.outcome.transport ≠ none := by
  intro s
  obtain ⟨later, hLater⟩ := @completed_isPrefix T dyn s after
  refine ⟨later, hLater.symm, ?_⟩
  intro answer hMem
  have hVouched := vouched_run dyn cacheSize ttl defaults (before ++ after)
  rw [Trace.run_append] at hVouched
  refine ⟨hVouched.used answer (by rw [← hLater]; exact List.mem_append_right _ hMem), ?_⟩
  intro kind hIdle hPresent hSupports
  obtain ⟨found, hFound, hSome⟩ := (supplied_run hIdle hPresent hSupports).found
  obtain rfl := List.append_cancel_left (hLater.trans hFound)
  exact hSome answer hMem rfl rfl

theorem Offered.transportType_eq {transport : T}
    (h : Offered dyn (new dyn cacheSize ttl defaults) events kind transport) :
    dyn.transportType transport = kind := by
  rcases h with hMem | ⟨_, _, _, hKind⟩
  · rcases mem_foldl_insert hMem with hNone | ⟨_, _, hEntry⟩
    · cases hNone
    · obtain ⟨hKind, rfl⟩ := Prod.mk.inj hEntry
      exact hKind.symm
  · exact hKind

theorem builtin_ext {transport own : BuiltinTransport} (h : transport.transportType = own.transportType) :
    transport = own := by
  cases transport <;> cases own <;> first | rfl | exact absurd h (by decide)

/-- With the transports of the crate alone, the lookup in steps finds what the lookup at once does. -/
theorem builtin_run (cacheSize : Usize) (ttl : Duration) (events : List (Event BuiltinTransport)) :
    ∀ answer ∈ (Trace.run (step Dyn.builtin) (new Dyn.builtin cacheSize ttl
        [.tcp, .ipc, .stdio, .webSocket, .channel]) events).completed,
      answer.outcome.transport = findTransportForUrl registerDefaultTransports answer.url := by
  intro answer hMem
  have hVouched := (vouched_run Dyn.builtin cacheSize ttl
    [.tcp, .ipc, .stdio, .webSocket, .channel] events).used answer hMem
  cases hFound : findTransportForUrl registerDefaultTransports answer.url with
  | some own =>
    have hOwn := (findTransportForUrl_eq_some (List.Perm.refl _)).mp hFound
    have hPresent : own.transportType ∈ ((new Dyn.builtin cacheSize ttl
        [.tcp, .ipc, .stdio, .webSocket, .channel]).transports).map Prod.fst := by
      refine present_foldl_insert (.inr ⟨own, ?_, rfl⟩)
      cases own <;> decide
    have hSupports (transport : BuiltinTransport) (hOffered : Offered Dyn.builtin (new Dyn.builtin cacheSize ttl
        [.tcp, .ipc, .stdio, .webSocket, .channel]) events own.transportType transport) :
        transport.supportsUrl answer.url = true := by
      rw [builtin_ext hOffered.transportType_eq]
      exact hOwn
    obtain ⟨later, hLater, hSome⟩ := (@supplied_run _ Dyn.builtin own.transportType answer.url events
      (new Dyn.builtin cacheSize ttl [.tcp, .ipc, .stdio, .webSocket, .channel]) answer.id rfl hPresent
      hSupports).found
    obtain ⟨transport, hTransport⟩ := Option.ne_none_iff_exists'.mp
      (hSome answer (by rw [hLater] at hMem; exact hMem) rfl rfl)
    rw [hTransport]
    exact congrArg some (supportsUrl_unique (hVouched transport hTransport).2 hOwn)
  | none =>
    cases hTransport : answer.outcome.transport with
    | none => rfl
    | some transport =>
      have hSome := (findTransportForUrl_eq_some (List.Perm.refl _)).mpr (hVouched transport hTransport).2
      cases hFound.symm.trans hSome

end

/-- A type is registered while the first call looks, and before the second one starts. -/
def lateBefore : List (Event BuiltinTransport) :=
  [⟨0, .start 0 "tcp://127.0.0.1:80"⟩, ⟨0, .visit 0 "ipc"⟩, ⟨0, .register .tcp⟩]

def lateAfter : List (Event BuiltinTransport) :=
  [⟨1, .start 1 "tcp://127.0.0.1:80"⟩, ⟨0, .visit 1 "stdio"⟩, ⟨0, .register .webSocket⟩, ⟨0, .visit 0 "stdio"⟩,
    ⟨0, .exhaust 0⟩, ⟨0, .visit 1 "tcp"⟩, ⟨2, .settle 1 (.ok ())⟩, ⟨0, .finish 1⟩]

theorem lateAfter_completed :
    (Trace.run (step Dyn.builtin) (Trace.run (step Dyn.builtin) (new Dyn.builtin 1 (.fromSecs 300) [.ipc, .stdio])
        lateBefore) lateAfter).completed =
      [⟨0, "tcp://127.0.0.1:80", .missing⟩, ⟨1, "tcp://127.0.0.1:80", .connected .tcp⟩] := rfl

theorem lateAfter_lookup :
    Registered [.ipc, .stdio] (lateBefore ++ lateAfter) BuiltinTransport.tcp ∧
      (Outcome.connected BuiltinTransport.tcp).transport ≠ none := by
  obtain ⟨later, hLater, hLookup⟩ :=
    lookup_run Dyn.builtin 1 (.fromSecs 300) [.ipc, .stdio] lateBefore lateAfter
  rw [lateAfter_completed] at hLater
  have hMem : (⟨1, "tcp://127.0.0.1:80", .connected .tcp⟩ : Answer BuiltinTransport) ∈ later := by
    rw [← (show _ = later from hLater)]
    simp
  obtain ⟨hUses, hFinds⟩ := hLookup _ hMem
  refine ⟨(hUses .tcp rfl).1, hFinds "tcp" rfl (by decide) ?_⟩
  rintro transport (hThere | ⟨event, hEvent, hRegister, hKind⟩)
  · have hSome : transport = .tcp := by
      cases transport <;> first | rfl | exact absurd hThere (by decide)
    rw [hSome]
    rfl
  · cases transport <;> first | rfl | exact absurd hKind (by decide)

/-- Three calls for one URL, of which one is refused and one dropped. -/
def localEvents : List (Event BuiltinTransport) :=
  [⟨0, .start 0 "tcp://127.0.0.1:80"⟩, ⟨1, .start 1 "tcp://127.0.0.1:80"⟩, ⟨1, .visit 0 "tcp"⟩,
    ⟨0, .visit 1 "ipc"⟩, ⟨0, .register .tcp⟩, ⟨2, .visit 1 "tcp"⟩, ⟨0, .settle 1 (.ok ())⟩,
    ⟨0, .start 2 "tcp://127.0.0.1:80"⟩, ⟨0, .visit 2 "tcp"⟩, ⟨1, .cancel 2⟩,
    ⟨5, .settle 0 (.error .connectionClosed)⟩, ⟨1, .call .cacheStats⟩, ⟨1, .finish 1⟩]

theorem localEvents_completed :
    (Trace.run (step Dyn.builtin) (new Dyn.builtin 1 (.fromSecs 300)
        [.tcp, .ipc, .stdio, .webSocket, .channel]) localEvents).completed =
      [⟨0, "tcp://127.0.0.1:80", .failed .tcp .connectionClosed⟩, ⟨1, "tcp://127.0.0.1:80", .connected .tcp⟩] := rfl

theorem localEvents_builtin :
    (Outcome.failed BuiltinTransport.tcp .connectionClosed).transport =
      findTransportForUrl registerDefaultTransports "tcp://127.0.0.1:80" :=
  builtin_run 1 (.fromSecs 300) localEvents ⟨0, "tcp://127.0.0.1:80", .failed .tcp .connectionClosed⟩
    (by rw [localEvents_completed]; simp)

/-! ## Counts -/

theorem frequency_attempt {stats : ManagerState} {url : String}
    (hRoom : (stats.frequency url).isSome = true ∨
      stats.entries.length < stats.manager.connectionStats.cap) (other : String) :
    (stats.step ⟨0, .trackConnectionAttempt url⟩).frequency other =
      if other = url then some ((stats.frequency url).getD 0) else stats.frequency other := by
  rw [ManagerState.frequency_isSome] at hRoom
  rw [ManagerState.frequency, TransportManager.getConnectionFrequency, ManagerState.step,
    TransportManager.perform, TransportManager.trackConnectionAttempt, LruCache.getMut,
    ManagerState.frequency, ManagerState.frequency, TransportManager.getConnectionFrequency,
    TransportManager.getConnectionFrequency]
  cases hPeek : stats.manager.connectionStats.peek url with
  | none =>
    split_ifs with hOther
    · subst hOther
      exact congrArg (Option.map CacheEntry.connectionCount) (LruCache.peek_put_self _ _ _)
    · exact congrArg (Option.map CacheEntry.connectionCount) (LruCache.peek_put_of_room hRoom hOther)
  | some entry =>
    split_ifs with hOther
    · subst hOther
      exact congrArg (Option.map CacheEntry.connectionCount) (LruCache.peek_put_self _ _ _)
    · exact congrArg (Option.map CacheEntry.connectionCount) (LruCache.peek_put_of_room hRoom hOther)

theorem frequency_success {stats : ManagerState} {url : String}
    (hPresent : (stats.frequency url).isSome = true) (other : String) :
    (stats.step ⟨0, .trackSuccessfulConnection url⟩).frequency other =
      if other = url then (stats.frequency url).map (· + 1) else stats.frequency other := by
  have hRoom := ManagerState.frequency_isSome.mp hPresent
  rw [ManagerState.frequency, TransportManager.getConnectionFrequency, Option.isSome_map] at hPresent
  obtain ⟨entry, hPeek⟩ := Option.isSome_iff_exists.mp hPresent
  rw [ManagerState.frequency, TransportManager.getConnectionFrequency, ManagerState.step,
    TransportManager.perform, TransportManager.trackSuccessfulConnection, LruCache.getMut,
    ManagerState.frequency, ManagerState.frequency, TransportManager.getConnectionFrequency,
    TransportManager.getConnectionFrequency, hPeek]
  split_ifs with hOther
  · subst hOther
    exact congrArg (Option.map CacheEntry.connectionCount) (LruCache.peek_put_self _ _ _)
  · exact congrArg (Option.map CacheEntry.connectionCount) (LruCache.peek_put_of_room (.inl hRoom) hOther)

def Phase.url : Phase T → Option String
  | .idle => none
  | .looking url _ => some url
  | .connecting url _ => some url
  | .connected url _ => some url

/-- There is room for every URL asked for, and each has the count of its connections. -/
structure Counted (urls : List String) (s : State T) : Prop where
  room : urls.length ≤ s.stats.manager.connectionStats.cap
  asked : ∀ url ∈ s.attempted, url ∈ urls
  active : ∀ id url, (s.phase id).url = some url → url ∈ s.attempted
  frequency : ∀ url, s.stats.frequency url =
    if url ∈ s.attempted then some (UInt64.ofNat (s.connections url)) else none
  answered : ∀ answer ∈ s.completed, answer.url ∈ s.attempted

section
variable {urls : List String} {s s' : State T} {url : String} {dyn : Dyn T} {action : Action T}

theorem Counted.present (h : Counted urls s) :
    (s.stats.frequency url).isSome = true ↔ url ∈ s.attempted := by
  rw [h.frequency]
  split_ifs with hMem <;> simp [hMem]

theorem Counted.has_room (h : Counted urls s) (hUrl : url ∈ urls) :
    (s.stats.frequency url).isSome = true ∨
      s.stats.entries.length < s.stats.manager.connectionStats.cap := by
  rcases Bool.eq_false_or_eq_true (s.stats.frequency url).isSome with hSome | hNone
  · exact .inl hSome
  · right
    have hAbsent : url ∉ s.stats.entries.map Prod.fst := by
      intro hMem
      cases hNone.symm.trans (ManagerState.frequency_isSome.mpr hMem)
    have hSub : url :: s.stats.entries.map Prod.fst ⊆ urls := by
      intro other hMem
      rcases List.mem_cons.mp hMem with rfl | hOld
      · exact hUrl
      · exact h.asked other (h.present.mp (ManagerState.frequency_isSome.mpr hOld))
    have hNodup := List.nodup_cons.mpr ⟨hAbsent, s.stats.manager.connectionStats.distinct⟩
    have hLength := (List.subperm_of_subset hNodup hSub).length_le
    rw [List.length_cons, List.length_map] at hLength
    exact Nat.lt_of_lt_of_le hLength h.room

theorem connections_complete (s : State T) (id : Nat) (done : String) (outcome : Outcome T) (url : String) :
    (s.complete id done outcome).connections url =
      s.connections url + if done = url ∧ (outcome.result done).isOk = true then 1 else 0 := by
  change (s.completed ++ [(⟨id, done, outcome⟩ : Answer T)]).countP _ = _
  rw [List.countP_append, List.countP_singleton]
  simp [State.connections]

theorem Counted.turn (h : Counted urls s) (id : Nat) {phase : Phase T}
    (hPhase : ∀ url, phase.url = some url → url ∈ s.attempted) : Counted urls (s.turn id phase) where
  room := h.room
  asked := h.asked
  active other url hUrl := by
    rcases turn_phase s id phase rfl with hNew | hOld
    · rw [hNew] at hUrl
      exact hPhase url hUrl
    · rw [← hOld] at hUrl
      exact h.active other url hUrl
  frequency := h.frequency
  answered := h.answered

/-- A call that returns an error. -/
theorem Counted.fail (h : Counted urls s) (id : Nat) (hUrl : url ∈ s.attempted) {outcome : Outcome T}
    (hError : (outcome.result url).isOk = false) : Counted urls (s.complete id url outcome) where
  room := h.room
  asked := h.asked
  active := (h.turn id fun _ hNone => by cases hNone).active
  frequency other := by
    rw [connections_complete, hError,
      if_neg fun hBoth : url = other ∧ false = true => Bool.false_ne_true hBoth.2, Nat.add_zero]
    exact h.frequency other
  answered entry hMem := by
    rcases List.mem_append.mp hMem with hOld | hNew
    · exact h.answered entry hOld
    · cases List.mem_singleton.mp hNew
      exact hUrl

theorem Counted.start (h : Counted urls s) (id : Nat) (hUrl : url ∈ urls) (pending : List String) :
    Counted urls { (s.track (.trackConnectionAttempt url)).turn id (.looking url pending) with
      attempted := s.attempted ++ [url] } where
  room := by
    change _ ≤ (s.stats.manager.perform _ _).connectionStats.cap
    rw [TransportManager.perform_cap]
    exact h.room
  asked other hMem := by
    rcases List.mem_append.mp hMem with hOld | hNew
    · exact h.asked other hOld
    · rw [List.mem_singleton.mp hNew]
      exact hUrl
  active other asked hAsked := by
    dsimp only at hAsked
    rcases turn_phase (s.track (.trackConnectionAttempt url)) id (.looking url pending) rfl with hNew | hOld
    · rw [hNew] at hAsked
      cases hAsked
      simp
    · rw [← hOld] at hAsked
      exact List.mem_append_left _ (h.active other asked hAsked)
  frequency other := by
    change (s.stats.step _).frequency other = if other ∈ s.attempted ++ [url] then
      some (UInt64.ofNat (s.connections other)) else none
    rw [frequency_attempt (h.has_room hUrl)]
    by_cases hOther : other = url
    · subst hOther
      rw [if_pos rfl, if_pos (by simp), h.frequency]
      split_ifs with hMem
      · rfl
      · have hNone : s.connections other = 0 := by
          apply List.countP_eq_zero.mpr
          intro entry hEntry
          have hDone := h.answered entry hEntry
          have hNe : entry.url ≠ other := fun hSame => hMem (hSame ▸ hDone)
          simp [hNe]
        rw [hNone]
        rfl
    · rw [if_neg hOther, h.frequency]
      simp [hOther]
  answered entry hMem := List.mem_append_left _ (h.answered entry hMem)

theorem Counted.finish (h : Counted urls s) (id : Nat) (hUrl : url ∈ s.attempted) (transport : T) :
    Counted urls ((s.track (.trackSuccessfulConnection url)).complete id url (.connected transport)) where
  room := by
    change _ ≤ (s.stats.manager.perform _ _).connectionStats.cap
    rw [TransportManager.perform_cap]
    exact h.room
  asked := h.asked
  active := (h.turn id fun _ hNone => by cases hNone).active
  frequency other := by
    rw [connections_complete]
    change (s.stats.step _).frequency other = if other ∈ s.attempted then
      some (UInt64.ofNat (s.connections other + _)) else none
    rw [frequency_success (h.present.mpr hUrl)]
    by_cases hOther : other = url
    · subst hOther
      rw [if_pos rfl, h.frequency, if_pos hUrl, if_pos hUrl, if_pos ⟨rfl, rfl⟩, Option.map_some, UInt64.ofNat_add]
      rfl
    · have hNone : ¬ (url = other ∧ ((Outcome.connected transport).result url).isOk = true) :=
        fun hSame => hOther hSame.1.symm
      rw [if_neg hOther, h.frequency, if_neg hNone, Nat.add_zero]
  answered entry hMem := by
    rcases List.mem_append.mp hMem with hOld | hNew
    · exact h.answered entry hOld
    · cases List.mem_singleton.mp hNew
      exact hUrl

/-- The calls that drop entries. -/
def dropsEntries : ManagerCall → Bool
  | .cleanupExpiredEntries => true
  | .clearCache => true
  | _ => false

theorem track_kept {call : ManagerCall} (hPublic : isPublic call = true) (hKept : dropsEntries call = false) :
    s.track call = s := by
  cases call with
  | trackConnectionAttempt url => cases hPublic
  | trackSuccessfulConnection url => cases hPublic
  | cleanupExpiredEntries => cases hKept
  | clearCache => cases hKept
  | getConnectionFrequency url => rfl
  | isFrequentlyAccessed url => rfl
  | cacheStats => rfl

theorem Acts.counted (h : Acts dyn s action s') (hAsked : ∀ id url, action = .start id url → url ∈ urls)
    (hKept : ∀ call, action = .call call → dropsEntries call = false) (hCounted : Counted urls s) :
    Counted urls s' := by
  have hActive (id : Nat) (url : String) (phase : Phase T) (hPhase : s.phase id = phase)
      (hUrl : phase.url = some url) : url ∈ s.attempted :=
    hCounted.active id url (by rw [hPhase]; exact hUrl)
  cases h with
  | stays => exact hCounted
  | @starts id url hPhase => exact hCounted.start id (hAsked id url rfl) _
  | finds hPhase _ _ =>
    apply hCounted.turn
    intro _ hSame
    cases hSame
    exact hActive _ _ _ hPhase rfl
  | passes hPhase _ _ =>
    apply hCounted.turn
    intro _ hSame
    cases hSame
    exact hActive _ _ _ hPhase rfl
  | exhausts hPhase => exact hCounted.fail _ (hActive _ _ _ hPhase rfl) rfl
  | settles hPhase =>
    apply hCounted.turn
    intro _ hSame
    cases hSame
    exact hActive _ _ _ hPhase rfl
  | fails e hPhase => exact hCounted.fail _ (hActive _ _ _ hPhase rfl) rfl
  | finishes hPhase => exact hCounted.finish _ (hActive _ _ _ hPhase rfl) _
  | cancels _ => exact hCounted.turn _ fun _ hNone => by cases hNone
  | registers _ =>
    exact ⟨hCounted.room, hCounted.asked, hCounted.active, hCounted.frequency, hCounted.answered⟩
  | @calls call hPublic =>
    rw [track_kept hPublic (hKept call rfl)]
    exact hCounted

theorem counted_run {cacheSize : Usize} {ttl : Duration} {defaults : List T} {events : List (Event T)}
    (hRoom : urls.length ≤ max cacheSize.toNat 1)
    (hAsked : ∀ event ∈ events, ∀ id url, event.action = .start id url → url ∈ urls)
    (hKept : ∀ event ∈ events, ∀ call, event.action = .call call → dropsEntries call = false) :
    Counted urls (Trace.run (step dyn) (new dyn cacheSize ttl defaults) events) := by
  have hNew : Counted urls (new dyn cacheSize ttl defaults) :=
    ⟨hRoom, fun _ hNone => (by cases hNone), fun _ _ hNone => (by cases hNone), fun _ => rfl,
      fun _ hNone => (by cases hNone)⟩
  refine Trace.run_invariant_of_forall ?_ hNew fun event hMem => And.intro (hAsked event hMem) (hKept event hMem)
  intro s event h hEvent
  exact (act_cases dyn (s.wait event.elapsed) event.action).counted hEvent.1 hEvent.2
    ⟨h.room, h.asked, h.active, h.frequency, h.answered⟩

end

/-- While the URLs asked for fit in the cache and nobody drops entries, the frequency of a URL is the
number of its connects that returned a stream, whatever the calls do to each other, and the URL
counts as frequently accessed from the sixth on. -/
theorem connect_counts (dyn : Dyn T) {cacheSize : Usize} {ttl : Duration} {defaults : List T}
    {events : List (Event T)} {urls : List String} (hRoom : urls.length ≤ max cacheSize.toNat 1)
    (hAsked : ∀ event ∈ events, ∀ id url, event.action = .start id url → url ∈ urls)
    (hKept : ∀ event ∈ events, ∀ call, event.action = .call call → dropsEntries call = false)
    (url : String) :
    let s := Trace.run (step dyn) (new dyn cacheSize ttl defaults) events
    s.stats.manager.getConnectionFrequency url =
        (if url ∈ s.attempted then some (UInt64.ofNat (s.connections url)) else none) ∧
      (s.stats.manager.isFrequentlyAccessed url = true ↔ 5 < s.connections url % 2 ^ 64) := by
  intro s
  have hCounted : Counted urls s := counted_run hRoom hAsked hKept
  have hFrequency := hCounted.frequency url
  rw [ManagerState.frequency] at hFrequency
  refine ⟨hFrequency, ?_⟩
  rw [TransportManager.isFrequentlyAccessed, hFrequency]
  split_ifs with hMem
  · rw [Option.any_some, decide_eq_true_iff, UInt64.lt_iff_toNat_lt, UInt64.toNat_ofNat']
    rfl
  · have hNone : s.connections url = 0 := by
      apply List.countP_eq_zero.mpr
      intro entry hEntry
      have hNe : entry.url ≠ url := fun hSame => hMem (hSame ▸ hCounted.answered entry hEntry)
      simp [hNe]
    rw [hNone]
    simp

theorem localEvents_counts :
    (Trace.run (step Dyn.builtin) (new Dyn.builtin 1 (.fromSecs 300)
        [.tcp, .ipc, .stdio, .webSocket, .channel]) localEvents).stats.manager.getConnectionFrequency
      "tcp://127.0.0.1:80" = some 1 := by
  have hAsked : ∀ event ∈ localEvents, ∀ id url, event.action = .start id url → url ∈ ["tcp://127.0.0.1:80"] := by
    simp [localEvents]
  have hKept : ∀ event ∈ localEvents, ∀ call, event.action = .call call → dropsEntries call = false := by
    simp [localEvents, dropsEntries]
  exact (@connect_counts _ Dyn.builtin 1 (.fromSecs 300) [.tcp, .ipc, .stdio, .webSocket, .channel] localEvents
    ["tcp://127.0.0.1:80"] (by decide) hAsked hKept "tcp://127.0.0.1:80").1.trans (by decide)

end Fleximq.Transport.Connecting
