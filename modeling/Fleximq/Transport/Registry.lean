import Fleximq.Transport.Channel
import Fleximq.Transport.Dispatch

/-! # The channel registry

`CHANNEL_REGISTRY` holds the waiting endpoints of every name. Seen from one name a
run of the registry is a run of that name's channel alone, and the names share no
duplex.
-/
namespace Fleximq.Transport
open Foundation

/-- The name that `ChannelTransport::connect` looks up. -/
def ChannelTransport.channelName (parse : UrlParser) (url : String) : Except TransportError String :=
  match ChannelTransport.checkUrl parse url with
  | .error e => .error e
  | .ok parsed =>
    let name := parsed.host.getD ""
    if name.isEmpty then .error (.invalidUrl "channel name missing") else .ok name

structure ChannelStream where
  stream : Endpoint
  name : String
  deriving DecidableEq

/-- The waiting endpoints, the calls between their two steps, and what the others have returned. -/
structure Registry where
  waiting : String → List Endpoint
  inProgress : List (Nat × String)
  returned : List (Nat × Except TransportError ChannelStream)

inductive RegistryEvent where
  | lookup (call : Nat) (url : String)
  | push (call : Nat) (name : String)

namespace Registry

def init : Registry := ⟨fun _ => [], [], []⟩

def Started (s : Registry) (call : Nat) : Prop := call ∈ s.inProgress.map Prod.fst ++ s.returned.map Prod.fst

instance (s : Registry) (call : Nat) : Decidable (s.Started call) :=
  inferInstanceAs (Decidable (call ∈ s.inProgress.map Prod.fst ++ s.returned.map Prod.fst))

/-- `connect` up to the lookup, and then the push of a call that found nobody. -/
def step (parse : UrlParser) (s : Registry) : RegistryEvent → Registry
  | .lookup call url =>
    if s.Started call then s
    else
      match ChannelTransport.channelName parse url with
      | .error e => { s with returned := s.returned ++ [(call, .error e)] }
      | .ok name =>
        match s.waiting name with
        | stream :: waiting =>
          { s with
            waiting := Function.update s.waiting name waiting
            returned := s.returned ++ [(call, .ok ⟨stream, name⟩)] }
        | [] => { s with inProgress := s.inProgress ++ [(call, name)] }
  | .push call name =>
    if (call, name) ∈ s.inProgress then
      { waiting := Function.update s.waiting name (s.waiting name ++ [⟨call, .a⟩])
        inProgress := s.inProgress.erase (call, name)
        returned := s.returned ++ [(call, .ok ⟨⟨call, .b⟩, name⟩)] }
    else s

/-! ## One name -/

def servedOn (name : String) : Nat × Except TransportError ChannelStream → Option (Nat × Endpoint)
  | (call, .ok stream) => if stream.name = name then some (call, stream.stream) else none
  | (_, .error _) => none

/-- The registry as the callers of one name see it. -/
def channel (s : Registry) (name : String) : Channel where
  waiting := s.waiting name
  inProgress := (s.inProgress.filter (·.2 = name)).map Prod.fst
  returned := s.returned.filterMap (servedOn name)

def eventOn (parse : UrlParser) (name : String) (s : Registry) : RegistryEvent → Option ChannelEvent
  | .lookup call url =>
    if s.Started call then none
    else
      match ChannelTransport.channelName parse url with
      | .error _ => none
      | .ok name' => if name' = name then some (.lookup call) else none
  | .push call name' => if name' = name then some (.push call) else none

/-- The events of a run that concern the name. -/
def eventsOn (parse : UrlParser) (name : String) : Registry → List RegistryEvent → List ChannelEvent
  | _, [] => []
  | s, event :: events => (eventOn parse name s event).toList ++ eventsOn parse name (s.step parse event) events

variable {parse : UrlParser} {name : String}

theorem servedOn_eq_some {result : Nat × Except TransportError ChannelStream} {call : Nat} {e : Endpoint} :
    servedOn name result = some (call, e) ↔ result = (call, .ok ⟨e, name⟩) := by
  obtain ⟨call', error | ⟨stream, name'⟩⟩ := result
  · simp [servedOn]
  · by_cases hName : name' = name
    · subst hName
      simp [servedOn]
    · simp [servedOn, hName]

theorem mem_channel_returned {s : Registry} {call : Nat} {e : Endpoint} :
    (call, e) ∈ (s.channel name).returned ↔ (call, .ok ⟨e, name⟩) ∈ s.returned := by
  simp [channel, List.mem_filterMap, servedOn_eq_some]

theorem mem_channel_inProgress {s : Registry} {call : Nat} :
    call ∈ (s.channel name).inProgress ↔ (call, name) ∈ s.inProgress := by
  simp [channel]

theorem started_of_channel {s : Registry} {call : Nat} (h : (s.channel name).Started call) : s.Started call := by
  rcases List.mem_append.mp h with hProgress | hReturned
  · exact List.mem_append_left _ (List.mem_map_of_mem (mem_channel_inProgress.mp hProgress))
  · obtain ⟨⟨call', e⟩, hMem, rfl⟩ := List.mem_map.mp hReturned
    exact List.mem_append_right _ (List.mem_map_of_mem (mem_channel_returned.mp hMem))

theorem erase_inProgress (inProgress : List (Nat × String)) (call : Nat) (name : String) :
    ((inProgress.erase (call, name)).filter (·.2 = name)).map Prod.fst =
      ((inProgress.filter (·.2 = name)).map Prod.fst).erase call := by
  induction inProgress with
  | nil => rfl
  | cons first rest ih =>
    obtain ⟨call', name'⟩ := first
    by_cases hName : name' = name
    · subst hName
      by_cases hCall : call' = call
      · subst hCall
        simp
      · simp [hCall, ih]
    · simp [hName, ih]

theorem erase_inProgress_other (inProgress : List (Nat × String)) (call : Nat) {name' : String}
    (hOther : name' ≠ name) :
    (inProgress.erase (call, name')).filter (·.2 = name) = inProgress.filter (·.2 = name) := by
  induction inProgress with
  | nil => rfl
  | cons first rest ih =>
    by_cases hFirst : first = (call, name')
    · subst hFirst
      simp [hOther]
    · rw [List.erase_cons_tail (by simpa using hFirst), List.filter_cons, List.filter_cons, ih]

/-- What an event does to the channel of a name. -/
theorem channel_step (s : Registry) (event : RegistryEvent) :
    (s.step parse event).channel name =
      match eventOn parse name s event with
      | some own => (s.channel name).step own
      | none => s.channel name := by
  cases event with
  | lookup call url =>
    rw [step, eventOn]
    by_cases hStarted : s.Started call
    · rw [if_pos hStarted, if_pos hStarted]
    · rw [if_neg hStarted, if_neg hStarted]
      cases hName : ChannelTransport.channelName parse url with
      | error e => simp [channel, servedOn]
      | ok name' =>
        dsimp only
        by_cases hSame : name' = name
        · subst hSame
          have hFresh : ¬ (s.channel name').Started call := fun h => hStarted (started_of_channel h)
          rw [if_pos rfl]
          dsimp only
          rw [Channel.step, if_neg hFresh]
          cases hWaiting : s.waiting name' with
          | nil => simp [channel, hWaiting]
          | cons stream waiting => simp [channel, hWaiting, servedOn]
        · rw [if_neg hSame]
          cases s.waiting name' with
          | nil => simp [channel, hSame]
          | cons stream waiting =>
            simp [channel, servedOn, hSame, Function.update_of_ne (Ne.symm hSame)]
  | push call name' =>
    rw [step, eventOn]
    by_cases hSame : name' = name
    · subst hSame
      rw [if_pos rfl]
      dsimp only
      rw [Channel.step]
      by_cases hMem : (call, name') ∈ s.inProgress
      · rw [if_pos hMem, if_pos (mem_channel_inProgress.mpr hMem)]
        simp [channel, servedOn, erase_inProgress]
      · rw [if_neg hMem, if_neg fun h => hMem (mem_channel_inProgress.mp h)]
    · rw [if_neg hSame]
      dsimp only
      split
      · simp [channel, servedOn, hSame, erase_inProgress_other _ _ hSame,
          Function.update_of_ne (Ne.symm hSame)]
      · rfl

/-- Whatever the calls on other names do in between, each name has the run of its own calls. -/
theorem channel_run (parse : UrlParser) (name : String) (s : Registry) (events : List RegistryEvent) :
    (Trace.run (step parse) s events).channel name =
      Trace.run Channel.step (s.channel name) (eventsOn parse name s events) := by
  induction events generalizing s with
  | nil => rfl
  | cons event events ih =>
    have hOne : Trace.run Channel.step (s.channel name) (eventOn parse name s event).toList =
        (s.step parse event).channel name := by
      rw [channel_step]
      cases eventOn parse name s event <;> rfl
    rw [eventsOn, Trace.run_append, hOne, ← ih]
    rfl

/-! ## All names together -/

def CallsOnce (s : Registry) : Prop := (s.inProgress.map Prod.fst ++ s.returned.map Prod.fst).Nodup

theorem CallsOnce.append {s : Registry} (h : s.CallsOnce) {call : Nat} (hStarted : ¬ s.Started call) :
    (s.inProgress.map Prod.fst ++ s.returned.map Prod.fst ++ [call]).Nodup := by
  rw [List.nodup_append_comm, List.singleton_append]
  exact List.nodup_cons.mpr ⟨hStarted, h⟩

theorem callsOnce_step (s : Registry) (event : RegistryEvent) (h : s.CallsOnce) :
    (s.step parse event).CallsOnce := by
  cases event with
  | lookup call url =>
    rw [step]
    split
    · exact h
    · rename_i hStarted
      have hReturned (result : Except TransportError ChannelStream) :
          (s.inProgress.map Prod.fst ++ (s.returned ++ [(call, result)]).map Prod.fst).Nodup := by
        rw [List.map_append, ← List.append_assoc]
        exact h.append hStarted
      split
      · exact hReturned _
      · rename_i name' _
        split
        · exact hReturned _
        · have hMoved : ((s.inProgress ++ [(call, name')]).map Prod.fst ++ s.returned.map Prod.fst).Perm
              (s.inProgress.map Prod.fst ++ s.returned.map Prod.fst ++ [call]) := by
            rw [List.map_append, List.append_assoc, List.append_assoc]
            exact List.perm_append_comm.append_left _
          exact hMoved.nodup_iff.mpr (h.append hStarted)
  | push call name' =>
    rw [step]
    split
    · rename_i hMem
      have hCalls : ((s.inProgress.erase (call, name')).map Prod.fst ++
          (s.returned ++ [(call, Except.ok (ChannelStream.mk ⟨call, .b⟩ name'))]).map Prod.fst).Perm
          (s.inProgress.map Prod.fst ++ s.returned.map Prod.fst) := by
        rw [List.map_append, ← List.append_assoc]
        refine (List.perm_append_singleton _ _).trans ?_
        exact ((List.perm_cons_erase hMem).symm.map Prod.fst).append_right _
      exact hCalls.nodup_iff.mpr h
    · exact h

/-- What a call looks up and returns is the channel that its own URL names. -/
structure Resolves (parse : UrlParser) (events : List RegistryEvent) (s : Registry) : Prop where
  inProgress : ∀ call name, (call, name) ∈ s.inProgress →
    ∃ url, .lookup call url ∈ events ∧ ChannelTransport.channelName parse url = .ok name
  returned : ∀ call result, (call, result) ∈ s.returned →
    ∃ url, .lookup call url ∈ events ∧ ChannelTransport.channelName parse url = result.map ChannelStream.name

theorem resolves_run (parse : UrlParser) (events : List RegistryEvent) :
    Resolves parse events (Trace.run (step parse) init events) := by
  induction events using List.reverseRecOn with
  | nil => exact ⟨fun _ _ hMem => absurd hMem List.not_mem_nil, fun _ _ hMem => absurd hMem List.not_mem_nil⟩
  | append_singleton events event ih =>
    rw [Trace.run_append]
    generalize Trace.run (step parse) init events = s at ih
    have hOld : Resolves parse (events ++ [event]) s := by
      refine ⟨fun call name hMem => ?_, fun call result hMem => ?_⟩
      · obtain ⟨url, hUrl, hName⟩ := ih.inProgress call name hMem
        exact ⟨url, List.mem_append_left _ hUrl, hName⟩
      · obtain ⟨url, hUrl, hName⟩ := ih.returned call result hMem
        exact ⟨url, List.mem_append_left _ hUrl, hName⟩
    have hReturn {call : Nat} {result : Except TransportError ChannelStream}
        (hUrl : ∃ url, .lookup call url ∈ events ++ [event] ∧
          ChannelTransport.channelName parse url = result.map ChannelStream.name) :
        ∀ call' result', (call', result') ∈ s.returned ++ [(call, result)] →
          ∃ url, .lookup call' url ∈ events ++ [event] ∧
            ChannelTransport.channelName parse url = result'.map ChannelStream.name := by
      intro call' result' hMem
      rcases List.mem_append.mp hMem with hMem | hMem
      · exact hOld.returned call' result' hMem
      · cases List.mem_singleton.mp hMem
        exact hUrl
    change Resolves parse (events ++ [event]) (s.step parse event)
    cases event with
    | lookup call url =>
      have hHere : .lookup call url ∈ events ++ [RegistryEvent.lookup call url] := by simp
      rw [step]
      split
      · exact hOld
      · split
        · rename_i hName
          exact ⟨hOld.inProgress, hReturn ⟨url, hHere, hName⟩⟩
        · rename_i name' hName
          split
          · exact ⟨hOld.inProgress, hReturn ⟨url, hHere, hName⟩⟩
          · refine ⟨fun call' name'' hMem => ?_, hOld.returned⟩
            rcases List.mem_append.mp hMem with hMem | hMem
            · exact hOld.inProgress call' name'' hMem
            · cases List.mem_singleton.mp hMem
              exact ⟨url, hHere, hName⟩
    | push call name' =>
      rw [step]
      split
      · rename_i hMem
        exact ⟨fun call' name'' hLeft => hOld.inProgress call' name'' (List.mem_of_mem_erase hLeft),
          hReturn (hOld.inProgress call name' hMem)⟩
      · exact hOld

/-- No endpoint is handed out twice or while it waits, and the two halves of a duplex go to callers of
one name. -/
structure Isolated (parse : UrlParser) (events : List RegistryEvent) (s : Registry) : Prop where
  resolves : ∀ call result, (call, result) ∈ s.returned →
    ∃ url, .lookup call url ∈ events ∧ ChannelTransport.channelName parse url = result.map ChannelStream.name
  once : ∀ call call' stream stream', (call, .ok stream) ∈ s.returned → (call', .ok stream') ∈ s.returned →
    stream.stream = stream'.stream → call = call'
  apart : ∀ call call' stream stream', (call, .ok stream) ∈ s.returned → (call', .ok stream') ∈ s.returned →
    stream.stream.duplex = stream'.stream.duplex → stream.name = stream'.name
  waiting : ∀ call stream name, (call, .ok stream) ∈ s.returned → stream.stream ∉ s.waiting name

theorem consistent_channel (parse : UrlParser) (events : List RegistryEvent) (name : String) :
    ((Trace.run (step parse) init events).channel name).Consistent := by
  rw [channel_run]
  exact Channel.consistent_run _

theorem isolated_run (parse : UrlParser) (events : List RegistryEvent) :
    Isolated parse events (Trace.run (step parse) init events) := by
  have hResolves := resolves_run parse events
  have hCalls : (Trace.run (step parse) init events).CallsOnce :=
    Trace.run_invariant callsOnce_step (show init.CallsOnce from List.nodup_nil) events
  have hChannel := consistent_channel parse events
  generalize Trace.run (step parse) init events = s at hResolves hCalls hChannel
  have hReturned := (List.nodup_append.mp hCalls).2.1
  -- the call that made a duplex was one on the name under which its halves are known
  have hMaker {name : String} {e : Endpoint} (hMem : e ∈ (s.channel name).endpoints) :
      ∃ made, (e.duplex, .ok ⟨made, name⟩) ∈ s.returned := by
    obtain ⟨⟨call, made⟩, hMade, hSame⟩ := List.mem_map.mp ((hChannel name).made e hMem)
    refine ⟨made, ?_⟩
    rw [← hSame]
    exact mem_channel_returned.mp hMade
  have hEndpoint {call : Nat} {stream : ChannelStream} (hMem : (call, .ok stream) ∈ s.returned) :
      stream.stream ∈ (s.channel stream.name).endpoints :=
    List.mem_append_right _ (List.mem_map_of_mem (mem_channel_returned.mpr hMem))
  have hName {name name' : String} {e e' : Endpoint} (hMem : e ∈ (s.channel name).endpoints)
      (hMem' : e' ∈ (s.channel name').endpoints) (hDuplex : e.duplex = e'.duplex) : name = name' := by
    obtain ⟨made, hMade⟩ := hMaker hMem
    obtain ⟨made', hMade'⟩ := hMaker hMem'
    have hSame := congrArg Prod.snd (List.inj_on_of_nodup_map hReturned hMade hMade' hDuplex)
    exact (ChannelStream.mk.inj (Except.ok.inj hSame)).2
  refine ⟨hResolves.returned, ?_, ?_, ?_⟩
  · intro call call' stream stream' hMem hMem' hSame
    have hNames := hName (hEndpoint hMem) (hEndpoint hMem') (congrArg Endpoint.duplex hSame)
    obtain ⟨e, name⟩ := stream
    obtain ⟨e', name'⟩ := stream'
    obtain rfl : name = name' := hNames
    have hDistinct := (List.nodup_append.mp (hChannel name).distinct).2.1
    have hPair := List.inj_on_of_nodup_map hDistinct (mem_channel_returned.mpr hMem)
      (mem_channel_returned.mpr hMem') hSame
    exact congrArg Prod.fst hPair
  · intro call call' stream stream' hMem hMem' hDuplex
    exact hName (hEndpoint hMem) (hEndpoint hMem') hDuplex
  · intro call stream name hMem hWaits
    have hNames : stream.name = name := hName (hEndpoint hMem) (List.mem_append_left _ hWaits) rfl
    subst hNames
    have hDisjoint := List.disjoint_of_nodup_append (hChannel stream.name).distinct
    exact hDisjoint hWaits (List.mem_map_of_mem (mem_channel_returned.mpr hMem))

end Registry
end Fleximq.Transport
