import Fleximq.Transport.Channel

/-! # Callers that leave

The registry keeps a stored endpoint also when the caller that stored it drops its
stream. A later call of the name is given that endpoint, and the other end of what
it is given is closed already.
-/
namespace Fleximq.Transport
open Foundation

/-- The registry entry of a name, the calls whose stream is dropped, the stored endpoints whose caller
left while they waited, and those that were handed out when the other end was gone. -/
structure Rendezvous where
  channel : Channel
  dropped : List Nat
  abandoned : List Endpoint
  misled : List Endpoint

inductive RendezvousEvent where
  | connect (event : ChannelEvent)
  | drop (call : Nat)

/-- The call that holds the other end has dropped it. -/
def OtherGone (dropped : List Nat) (returned : List (Nat × Endpoint)) (e : Endpoint) : Prop :=
  ∃ call ∈ dropped, (call, e.other) ∈ returned

instance (dropped : List Nat) (returned : List (Nat × Endpoint)) (e : Endpoint) :
    Decidable (OtherGone dropped returned e) :=
  inferInstanceAs (Decidable (∃ call ∈ dropped, (call, e.other) ∈ returned))

def goneAmong (dropped : List Nat) (returned : List (Nat × Endpoint)) (endpoints : List Endpoint) : List Endpoint :=
  endpoints.filter fun e => OtherGone dropped returned e

/-- The waiting endpoint that a lookup takes. -/
def Channel.taken (s : Channel) : ChannelEvent → List Endpoint
  | .lookup call => if s.Started call then [] else s.waiting.take 1
  | .push _ => []

namespace Rendezvous

def init : Rendezvous := ⟨Channel.init, [], [], []⟩

def step (s : Rendezvous) : RendezvousEvent → Rendezvous
  | .connect event =>
    { s with
      channel := s.channel.step event
      misled := s.misled ++ goneAmong s.dropped s.channel.returned (s.channel.taken event) }
  | .drop call =>
    match s.channel.returned.find? (·.1 = call) with
    | none => s
    | some (_, stream) =>
      if call ∈ s.dropped then s
      else
        { s with
          dropped := s.dropped ++ [call]
          abandoned := if stream.other ∈ s.channel.waiting then s.abandoned ++ [stream.other] else s.abandoned }

/-- The waiting endpoints whose other end is gone. -/
def stale (s : Rendezvous) : List Endpoint := goneAmong s.dropped s.channel.returned s.channel.waiting

/-! ## What drops change -/

section
variable {dropped : List Nat} {returned : List (Nat × Endpoint)} {endpoints : List Endpoint} {call : Nat}
variable {e : Endpoint}

theorem goneAmong_nil : goneAmong dropped returned [] = [] := rfl

theorem goneAmong_append_returned (hHere : call ∉ dropped) (stream : Endpoint) :
    goneAmong dropped (returned ++ [(call, stream)]) endpoints = goneAmong dropped returned endpoints := by
  apply List.filter_congr
  intro e _
  apply decide_eq_decide.mpr
  constructor
  · rintro ⟨other, hDropped, hReturned⟩
    refine ⟨other, hDropped, ?_⟩
    rcases List.mem_append.mp hReturned with hOld | hNew
    · exact hOld
    · obtain ⟨rfl, -⟩ := Prod.mk.inj (List.mem_singleton.mp hNew)
      exact absurd hDropped hHere
  · rintro ⟨other, hDropped, hReturned⟩
    exact ⟨other, hDropped, List.mem_append_left _ hReturned⟩

theorem other_other (e : Endpoint) : e.other.other = e := by
  obtain ⟨duplex, half⟩ := e
  cases half <;> rfl

/-- The drop concerns the other end of the dropped stream alone. -/
theorem otherGone_drop (hCalls : (returned.map Prod.fst).Nodup) {stream : Endpoint}
    (hReturned : (call, stream) ∈ returned) :
    OtherGone (dropped ++ [call]) returned e ↔ OtherGone dropped returned e ∨ e = stream.other := by
  constructor
  · rintro ⟨other, hDropped, hHolds⟩
    rcases List.mem_append.mp hDropped with hOld | hNew
    · exact .inl ⟨other, hOld, hHolds⟩
    · obtain rfl := List.mem_singleton.mp hNew
      have hSame : e.other = stream :=
        congrArg Prod.snd (List.inj_on_of_nodup_map hCalls hHolds hReturned rfl)
      right
      rw [← hSame, other_other]
  · rintro (⟨other, hDropped, hHolds⟩ | rfl)
    · exact ⟨other, List.mem_append_left _ hDropped, hHolds⟩
    · refine ⟨call, List.mem_append_right _ (List.mem_singleton.mpr rfl), ?_⟩
      rwa [other_other]

theorem mem_goneAmong : e ∈ goneAmong dropped returned endpoints ↔ e ∈ endpoints ∧ OtherGone dropped returned e := by
  rw [goneAmong, List.mem_filter, decide_eq_true_eq]

theorem goneAmong_drop_other (hCalls : (returned.map Prod.fst).Nodup) {stream : Endpoint}
    (hReturned : (call, stream) ∈ returned) (hElsewhere : stream.other ∉ endpoints) :
    goneAmong (dropped ++ [call]) returned endpoints = goneAmong dropped returned endpoints := by
  apply List.filter_congr
  intro e hMem
  apply decide_eq_decide.mpr
  rw [otherGone_drop hCalls hReturned]
  refine ⟨fun hGone => hGone.resolve_right ?_, .inl⟩
  rintro rfl
  exact hElsewhere hMem

theorem goneAmong_drop (hCalls : (returned.map Prod.fst).Nodup) (hStreams : (returned.map Prod.snd).Nodup)
    (hEndpoints : endpoints.Nodup) {stream : Endpoint} (hReturned : (call, stream) ∈ returned)
    (hHere : call ∉ dropped) (hWaits : stream.other ∈ endpoints) :
    (goneAmong (dropped ++ [call]) returned endpoints).Perm
      (goneAmong dropped returned endpoints ++ [stream.other]) := by
  have hThere : stream.other ∉ goneAmong dropped returned endpoints := by
    intro hMem
    obtain ⟨other, hDropped, hHolds⟩ := (mem_goneAmong.mp hMem).2
    rw [other_other] at hHolds
    have hSame : other = call :=
      congrArg Prod.fst (List.inj_on_of_nodup_map hStreams hHolds hReturned rfl)
    exact hHere (hSame ▸ hDropped)
  have hNodup : (goneAmong dropped returned endpoints ++ [stream.other]).Nodup := by
    rw [List.nodup_append_comm, List.singleton_append]
    exact List.nodup_cons.mpr ⟨hThere, hEndpoints.filter _⟩
  apply (List.perm_ext_iff_of_nodup (hEndpoints.filter _) hNodup).mpr
  intro e
  rw [List.mem_append, List.mem_singleton]
  change e ∈ goneAmong (dropped ++ [call]) returned endpoints ↔ _
  rw [mem_goneAmong, mem_goneAmong, otherGone_drop hCalls hReturned, and_or_left]
  refine or_congr Iff.rfl ⟨And.right, ?_⟩
  rintro rfl
  exact ⟨hWaits, rfl⟩

end

/-! ## Every run -/

/-- Every abandoned endpoint waits or was handed out, and no other that is given to a caller is dead. -/
structure Balanced (s : Rendezvous) : Prop where
  consistent : s.channel.Consistent
  held : ∀ call ∈ s.dropped, call ∈ s.channel.returned.map Prod.fst
  misled_sublist : s.misled.Sublist (s.channel.returned.map Prod.snd)
  balance : (s.misled ++ s.stale).Perm s.abandoned

theorem balanced_init : init.Balanced :=
  ⟨Channel.consistent_init, List.forall_mem_nil _, List.Sublist.refl _, List.Perm.refl _⟩

theorem Balanced.not_dropped {s : Rendezvous} (h : s.Balanced) {call : Nat} (hStarted : ¬ s.channel.Started call) :
    call ∉ s.dropped :=
  fun hDropped => hStarted (List.mem_append_right _ (h.held call hDropped))

theorem Balanced.connect {s : Rendezvous} (h : s.Balanced) (event : ChannelEvent) :
    (s.step (.connect event)).Balanced := by
  have hConsistent := Channel.consistent_step s.channel event h.consistent
  rw [step]
  rcases s.channel.step_cases event with ⟨hSame, hStarted⟩ | hHappens
  · have hTaken : s.channel.taken event = [] := by
      cases event with
      | lookup call => exact if_pos (hStarted call rfl)
      | push _ => rfl
    rw [hSame, hTaken, goneAmong_nil, List.append_nil]
    exact h
  · generalize s.channel.step event = next at hHappens hConsistent
    cases hHappens with
    | @pops call stream waiting hStarted hWaiting =>
      have hHere := h.not_dropped hStarted
      have hTaken : s.channel.taken (.lookup call) = [stream] := by
        rw [Channel.taken, if_neg hStarted, hWaiting]
        rfl
      rw [hTaken]
      refine ⟨hConsistent, fun other hOther => ?_, ?_, ?_⟩
      · rw [List.map_append]
        exact List.mem_append_left _ (h.held other hOther)
      · rw [List.map_append]
        exact h.misled_sublist.append List.filter_sublist
      · have hBefore := h.balance
        rw [stale, hWaiting, ← List.singleton_append, goneAmong, List.filter_append, ← List.append_assoc] at hBefore
        rw [stale]
        dsimp only
        rw [goneAmong_append_returned hHere]
        exact hBefore
    | @misses call hStarted hWaiting =>
      have hTaken : s.channel.taken (.lookup call) = [] := by
        rw [Channel.taken, if_neg hStarted, hWaiting]
        rfl
      rw [hTaken, goneAmong_nil, List.append_nil]
      exact ⟨hConsistent, h.held, h.misled_sublist, h.balance⟩
    | @stores call hMem =>
      have hHere : call ∉ s.dropped := fun hDropped =>
        List.disjoint_of_nodup_append h.consistent.calls hMem (h.held call hDropped)
      -- the caller of the new endpoint has its stream still
      have hLive : goneAmong s.dropped s.channel.returned [⟨call, .a⟩] = [] := by
        apply List.eq_nil_iff_forall_not_mem.mpr
        intro e hGone
        obtain ⟨hNew, other, -, hHolds⟩ := mem_goneAmong.mp hGone
        obtain rfl := List.mem_singleton.mp hNew
        exact h.consistent.fresh hMem .b (List.mem_append_right _ (List.mem_map_of_mem hHolds))
      have hTaken : s.channel.taken (.push call) = [] := rfl
      rw [hTaken, goneAmong_nil, List.append_nil]
      refine ⟨hConsistent, fun other hOther => ?_, ?_, ?_⟩
      · rw [List.map_append]
        exact List.mem_append_left _ (h.held other hOther)
      · rw [List.map_append]
        exact h.misled_sublist.trans (List.sublist_append_left _ _)
      · rw [stale]
        dsimp only
        rw [goneAmong_append_returned hHere]
        have hSplit : goneAmong s.dropped s.channel.returned (s.channel.waiting ++ [⟨call, .a⟩]) = s.stale := by
          rw [goneAmong, List.filter_append]
          exact (congrArg (s.stale ++ ·) hLive).trans (List.append_nil _)
        rw [hSplit]
        exact h.balance

theorem Balanced.drop {s : Rendezvous} (h : s.Balanced) (call : Nat) : (s.step (.drop call)).Balanced := by
  rw [step]
  split
  next => exact h
  next found stream hFound =>
    split
    next => exact h
    next hHere =>
      have hMem : (call, stream) ∈ s.channel.returned := by
        have hCall : found = call := by simpa using List.find?_some hFound
        exact hCall ▸ List.mem_of_find?_eq_some hFound
      have hCalls := (List.nodup_append.mp h.consistent.calls).2.1
      have hStreams := (List.nodup_append.mp h.consistent.distinct).2.1
      have hWaiting := (List.nodup_append.mp h.consistent.distinct).1
      refine ⟨h.consistent, ?_, h.misled_sublist, ?_⟩
      · intro other hOther
        rcases List.mem_append.mp hOther with hOld | hNew
        · exact h.held other hOld
        · obtain rfl := List.mem_singleton.mp hNew
          exact List.mem_map_of_mem hMem
      · rw [stale]
        dsimp only
        split
        next hWaits =>
          have hMore := goneAmong_drop hCalls hStreams hWaiting hMem hHere hWaits
          refine (hMore.append_left s.misled).trans ?_
          rw [← List.append_assoc]
          exact h.balance.append_right _
        next hElsewhere =>
          rw [goneAmong_drop_other hCalls hMem hElsewhere]
          exact h.balance

theorem balanced_step (s : Rendezvous) (event : RendezvousEvent) (h : s.Balanced) : (s.step event).Balanced := by
  cases event with
  | connect event => exact h.connect event
  | drop call => exact h.drop call

/-- Each caller that leaves while its endpoint waits misleads one later call: in every run the abandoned
endpoints are, each once, those that were handed out dead and those that still wait. -/
theorem misled_run (events : List RendezvousEvent) :
    ((Trace.run step init events).misled ++ (Trace.run step init events).stale).Perm
        (Trace.run step init events).abandoned ∧
      (Trace.run step init events).abandoned.Nodup ∧
      ∀ e ∈ (Trace.run step init events).misled, ∃ call, (call, e) ∈ (Trace.run step init events).channel.returned := by
  have hBalanced := Trace.run_invariant balanced_step balanced_init events
  refine ⟨hBalanced.balance, ?_, ?_⟩
  · rw [← hBalanced.balance.nodup_iff, List.nodup_append_comm]
    exact List.Nodup.sublist (List.filter_sublist.append hBalanced.misled_sublist) hBalanced.consistent.distinct
  · intro e hMem
    obtain ⟨⟨call, stream⟩, hReturned, rfl⟩ := List.mem_map.mp (hBalanced.misled_sublist.subset hMem)
    exact ⟨call, hReturned⟩

end Rendezvous
end Fleximq.Transport
