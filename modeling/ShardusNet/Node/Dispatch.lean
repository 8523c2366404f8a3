import ShardusNet.Node.Instance
import Mathlib.Data.List.Count
import Mathlib.Data.List.Nodup
/-!
# Dispatch of incoming messages

Which of the user's functions an incoming message reaches, over every run of one instance.

A request is *open* when neither its `onResponse` nor its `onTimeout` has been called. The invariant
`Inv` says that `responseUUIDMapping` holds exactly the open requests, under their UUIDs. So a
message is a response exactly when its UUID is that of an open request, whatever its `msgDir`
(`dispatch`).
-/

namespace ShardusNet.Node
open Runs

variable {D H : Type*} {opts : Options}

/-- The request whose callback is called. -/
def UserCall.request : UserCall D H → Option ℕ
  | .onResponse request _ _ => some request
  | .onTimeout request => some request
  | .handleData _ _ _ => none

namespace Sn

/-- How often the callbacks of a request have been called. -/
def called (s : Sn D H) (t : ℕ) : ℕ := s.calls.countP fun c => c.request = some t

/-- A request with this UUID none of whose callbacks has been called. -/
def Open (s : Sn D H) (t : ℕ) (u : String) : Prop := (t, u) ∈ s.requests ∧ s.called t = 0

/-- The mapping holds exactly the open requests; their numbers and UUIDs are their own; timers that
    are armed are those of open requests; nothing is called twice. -/
structure Inv (s : Sn D H) : Prop where
  mapping : ∀ t u, (∃ m, s.responseUUIDMapping u = some m ∧ m.timer = t) ↔ s.Open t u
  armed : ∀ t u, (t, u) ∈ s.timers → s.Open t u
  once : ∀ t, s.called t ≤ 1
  numbered : ∀ t u, (t, u) ∈ s.requests → t < s.nextTimer
  calledNumbered : ∀ t, s.called t ≠ 0 → t < s.nextTimer
  ids : ∀ t u u', (t, u) ∈ s.requests → (t, u') ∈ s.requests → u = u'
  uuids : ∀ t t' u, (t, u) ∈ s.requests → (t', u) ∈ s.requests → t = t'
  used : ∀ t u, (t, u) ∈ s.requests → u ∈ s.used
  names : ∀ t u, (t, u) ∈ s.requests → u ∉ objectPrototypeNames

/-- A fresh instance has no requests. -/
lemma inv_init : (init : Sn D H).Inv where
  mapping t u := by simp [init, Open]
  armed t u h := by cases h
  once t := Nat.zero_le 1
  numbered t u h := by cases h
  calledNumbered t h := absurd rfl h
  ids t u u' h := by cases h
  uuids t t' u h := by cases h
  used t u h := by cases h
  names t u h := by cases h

/-- One call more. -/
lemma called_append {s s' : Sn D H} {c : UserCall D H} (h : s'.calls = s.calls ++ [c]) (t : ℕ) :
    s'.called t = s.called t + if c.request = some t then 1 else 0 := by
  rw [called, h, List.countP_append]
  simp [called, List.countP_cons]

/-- The requests that are open after one call more. -/
lemma open_append {s s' : Sn D H} {c : UserCall D H} (hr : s'.requests = s.requests)
    (h : s'.calls = s.calls ++ [c]) {t u} :
    s'.Open t u ↔ s.Open t u ∧ c.request ≠ some t := by
  rw [Open, Open, hr, called_append h]
  split <;> simp_all

/-- At most one open request has a UUID. -/
lemma Inv.open_unique {s : Sn D H} (hi : s.Inv) {t t' u} (h : s.Open t u) (h' : s.Open t' u) : t = t' :=
  hi.uuids t t' u h.1 h'.1

/-- An open request is in the mapping. -/
lemma Inv.mapping_of_open {s : Sn D H} (hi : s.Inv) {t u} (h : s.Open t u) :
    ∃ m, s.responseUUIDMapping u = some m ∧ m.timer = t := (hi.mapping t u).mpr h

/-- What is in the mapping is an open request. -/
lemma Inv.open_of_mapping {s : Sn D H} (hi : s.Inv) {u m} (h : s.responseUUIDMapping u = some m) :
    s.Open m.timer u := (hi.mapping m.timer u).mp ⟨m, h, rfl⟩

/-- The invariant is about the mapping, the timers, the requests and how often they were called. -/
lemma Inv.of_eq {s s' : Sn D H} (hi : s.Inv) (hm : s'.responseUUIDMapping = s.responseUUIDMapping)
    (ht : s'.timers = s.timers) (hn : s'.nextTimer = s.nextTimer) (hr : s'.requests = s.requests)
    (hu : s'.used = s.used) (hcalled : ∀ t, s'.called t = s.called t) : s'.Inv := by
  have hopen : ∀ t u, s'.Open t u ↔ s.Open t u := fun t u => by rw [Open, Open, hr, hcalled]
  refine ⟨?_, ?_, ?_, ?_, ?_, ?_, ?_, ?_, ?_⟩
  · intro t u
    rw [hm, hopen]
    exact hi.mapping t u
  · intro t u h
    rw [hopen]
    exact hi.armed t u (ht ▸ h)
  · intro t
    rw [hcalled]
    exact hi.once t
  · intro t u h
    rw [hn]
    exact hi.numbered t u (hr ▸ h)
  · intro t h
    rw [hn]
    exact hi.calledNumbered t (hcalled t ▸ h)
  · intro t u u' h h'
    exact hi.ids t u u' (hr ▸ h) (hr ▸ h')
  · intro t t' u h h'
    exact hi.uuids t t' u (hr ▸ h) (hr ▸ h')
  · intro t u h
    rw [hu]
    exact hi.used t u (hr ▸ h)
  · intro t u h
    exact hi.names t u (hr ▸ h)

/-- A call of a callback of an open request closes it: its entry and its timer go. -/
lemma Inv.close {s s' : Sn D H} (hi : s.Inv) {t u c} (ho : s.Open t u) (hcr : c.request = some t)
    (hm : s'.responseUUIDMapping = Function.update s.responseUUIDMapping u none)
    (ht : s'.timers = s.timers.filter (·.1 ≠ t)) (hn : s'.nextTimer = s.nextTimer)
    (hr : s'.requests = s.requests) (hu : s'.used = s.used) (hc : s'.calls = s.calls ++ [c]) :
    s'.Inv := by
  have hopen : ∀ t' u', s'.Open t' u' ↔ s.Open t' u' ∧ t ≠ t' := by
    intro t' u'
    rw [open_append hr hc, hcr, Ne, Option.some_inj]
  have hcalled : ∀ t', s'.called t' = s.called t' + if t = t' then 1 else 0 := by
    intro t'
    rw [called_append hc, hcr]
    simp only [Option.some.injEq]
  refine ⟨?_, ?_, ?_, ?_, ?_, ?_, ?_, ?_, ?_⟩
  · intro t' u'
    rw [hm, hopen, Function.update_apply]
    by_cases hu' : u' = u
    · subst hu'
      simp only [if_pos, reduceCtorEq, false_and, exists_false, false_iff, not_and, not_not]
      exact fun h' => hi.open_unique ho h'
    · rw [if_neg hu', hi.mapping t' u']
      refine ⟨fun h' => ⟨h', ?_⟩, And.left⟩
      rintro rfl
      exact hu' (hi.ids t u' u h'.1 ho.1)
  · intro t' u' h
    rw [ht, List.mem_filter] at h
    rw [hopen]
    have hne : t' ≠ t := by simpa using h.2
    exact ⟨hi.armed t' u' h.1, hne.symm⟩
  · intro t'
    rw [hcalled]
    split
    case isTrue e =>
      subst e
      exact Nat.le_of_eq (by rw [ho.2])
    case isFalse => exact hi.once t'
  · intro t' u' h
    rw [hn]
    exact hi.numbered t' u' (hr ▸ h)
  · intro t' h
    rw [hn]
    rw [hcalled] at h
    by_cases e : t = t'
    · exact e ▸ hi.numbered t u ho.1
    · rw [if_neg e] at h
      exact hi.calledNumbered t' h
  · intro t' u' u'' h h'
    exact hi.ids t' u' u'' (hr ▸ h) (hr ▸ h')
  · intro t' t'' u' h h'
    exact hi.uuids t' t'' u' (hr ▸ h) (hr ▸ h')
  · intro t' u' h
    rw [hu]
    exact hi.used t' u' (hr ▸ h)
  · intro t' u' h
    exact hi.names t' u' (hr ▸ h)

/-- A send that is refused, or that expects no response, changes nothing for the requests. -/
lemma sendAug_cases (s : Sn D H) (destinations withHeader) (augData : AugmentedData D) (timeout env) :
    s.sendAug destinations withHeader augData timeout env = s ∨
      timeout = 0 ∧ s.sendAug destinations withHeader augData timeout env =
        { s with sent := s.sent ++ [⟨destinations, withHeader, augData⟩] } ∨
      timeout ≠ 0 ∧ s.sendAug destinations withHeader augData timeout env =
        { s with
          sent := s.sent ++ [⟨destinations, withHeader, augData⟩]
          timers := (s.nextTimer, augData.UUID) :: s.timers
          nextTimer := s.nextTimer + 1
          responseUUIDMapping :=
            Function.update s.responseUUIDMapping augData.UUID (some ⟨s.nextTimer, env.now⟩)
          requests := s.requests ++ [(s.nextTimer, augData.UUID)] } := by
  unfold sendAug
  split
  case isTrue => exact .inl rfl
  case isFalse =>
    split
    case isTrue => exact .inl rfl
    case isFalse =>
      simp only
      split
      case isTrue h => exact .inr (.inl ⟨h, rfl⟩)
      case isFalse h => exact .inr (.inr ⟨h, rfl⟩)

/-- A send uses up its UUID, and makes a request of it when it is accepted with a timeout. -/
lemma send_cases (s : Sn D H) (args : SendArgs D) (UUID env) : ∃ sent,
    s.send opts args UUID env = { s with used := UUID :: s.used, sent } ∨
      args.timeout ≠ 0 ∧ s.send opts args UUID env =
        { s with
          used := UUID :: s.used
          sent
          timers := (s.nextTimer, UUID) :: s.timers
          nextTimer := s.nextTimer + 1
          responseUUIDMapping :=
            Function.update s.responseUUIDMapping UUID (some ⟨s.nextTimer, env.now⟩)
          requests := s.requests ++ [(s.nextTimer, UUID)] } := by
  rcases sendAug_cases { s with used := UUID :: s.used } args.destinations args.withHeader
    (newAugData args.data UUID opts.PORT opts.ADDRESS args.timeout
      (if args.onResponse then .ask else .tell) env.now) args.timeout env with h | ⟨_, h⟩ | ⟨ht, h⟩
  · exact ⟨_, .inl h⟩
  · exact ⟨_, .inl h⟩
  · exact ⟨_, .inr ⟨ht, h⟩⟩

/-- A response is sent without a timeout, or not at all. -/
lemma respond_cases (s : Sn D H) (augData : AugmentedData D) (remote receivedTime data env) :
    ∃ sent, s.respond augData remote receivedTime data env = { s with sent } := by
  unfold respond
  extract_lets replyTime late sendData
  by_cases hlate : late = true
  · exact ⟨_, if_pos hlate⟩
  · rw [if_neg hlate]
    rcases sendAug_cases s [(augData.PORT, remote.address)] true sendData 0 env with
      h | ⟨_, h⟩ | ⟨h, _⟩
    · exact ⟨_, h⟩
    · exact ⟨_, h⟩
    · exact absurd rfl h

/-- A request that is sent under a new UUID is open, and the others stay as they were. -/
lemma Inv.request {s s' : Sn D H} (hi : s.Inv) {u} {now : ℤ} (hnew : u ∉ s.used)
    (hname : u ∉ objectPrototypeNames)
    (hm : s'.responseUUIDMapping = Function.update s.responseUUIDMapping u (some ⟨s.nextTimer, now⟩))
    (ht : s'.timers = (s.nextTimer, u) :: s.timers) (hn : s'.nextTimer = s.nextTimer + 1)
    (hr : s'.requests = s.requests ++ [(s.nextTimer, u)]) (hu : s'.used = u :: s.used)
    (hc : s'.calls = s.calls) : s'.Inv := by
  have hcalled : ∀ t, s'.called t = s.called t := fun t => by rw [called, hc, called]
  have hmem : ∀ t u', (t, u') ∈ s'.requests ↔ (t, u') ∈ s.requests ∨ t = s.nextTimer ∧ u' = u := by
    intro t u'
    rw [hr, List.mem_append, List.mem_singleton, Prod.mk.injEq]
  have hzero : s.called s.nextTimer = 0 := by
    by_contra h
    exact absurd (hi.calledNumbered _ h) (Nat.lt_irrefl _)
  have hopen : ∀ t u', s'.Open t u' ↔ s.Open t u' ∨ t = s.nextTimer ∧ u' = u := by
    intro t u'
    rw [Open, Open, hmem, hcalled]
    constructor
    · rintro ⟨h | ⟨rfl, rfl⟩, hz⟩
      · exact .inl ⟨h, hz⟩
      · exact .inr ⟨rfl, rfl⟩
    · rintro (⟨h, hz⟩ | ⟨rfl, rfl⟩)
      · exact ⟨.inl h, hz⟩
      · exact ⟨.inr ⟨rfl, rfl⟩, hzero⟩
  refine ⟨?_, ?_, ?_, ?_, ?_, ?_, ?_, ?_, ?_⟩
  · intro t u'
    rw [hm, hopen, Function.update_apply]
    by_cases hu' : u' = u
    · subst hu'
      have hnot : ¬ s.Open t u' := fun h => hnew (hi.used t u' h.1)
      simp only [if_pos, Option.some.injEq, exists_eq_left', hnot, false_or, and_true]
      exact eq_comm
    · rw [if_neg hu', hi.mapping t u']
      simp [hu']
  · intro t u' h
    rw [ht, List.mem_cons, Prod.mk.injEq] at h
    rw [hopen]
    exact h.symm.imp_left (hi.armed t u')
  · intro t
    rw [hcalled]
    exact hi.once t
  · intro t u' h
    rw [hn]
    rcases (hmem t u').mp h with h | ⟨rfl, _⟩
    · exact Nat.lt_succ_of_lt (hi.numbered t u' h)
    · exact Nat.lt_succ_self _
  · intro t h
    rw [hn]
    exact Nat.lt_succ_of_lt (hi.calledNumbered t (hcalled t ▸ h))
  · intro t u₁ u₂ h₁ h₂
    rcases (hmem t u₁).mp h₁ with h₁ | ⟨e₁, rfl⟩ <;> rcases (hmem t u₂).mp h₂ with h₂ | ⟨e₂, rfl⟩
    · exact hi.ids t u₁ u₂ h₁ h₂
    · exact absurd (hi.numbered t u₁ h₁) (by omega)
    · exact absurd (hi.numbered t u₂ h₂) (by omega)
    · rfl
  · intro t₁ t₂ u' h₁ h₂
    rcases (hmem t₁ u').mp h₁ with h₁ | ⟨rfl, rfl⟩ <;> rcases (hmem t₂ u').mp h₂ with h₂ | ⟨rfl, e⟩
    · exact hi.uuids t₁ t₂ u' h₁ h₂
    · exact absurd (hi.used t₁ u' h₁) (e ▸ hnew)
    · exact absurd (hi.used t₂ _ h₂) hnew
    · rfl
  · intro t u' h
    rw [hu, List.mem_cons]
    rcases (hmem t u').mp h with h | ⟨_, rfl⟩
    · exact .inr (hi.used t u' h)
    · exact .inl rfl
  · intro t u' h
    rcases (hmem t u').mp h with h | ⟨_, rfl⟩
    · exact hi.names t u' h
    · exact hname

/-- A UUID that is used up by a send that makes no request. -/
lemma Inv.use {s s' : Sn D H} (hi : s.Inv) {u} (hm : s'.responseUUIDMapping = s.responseUUIDMapping)
    (ht : s'.timers = s.timers) (hn : s'.nextTimer = s.nextTimer) (hr : s'.requests = s.requests)
    (hu : s'.used = u :: s.used) (hc : s'.calls = s.calls) : s'.Inv := by
  have hi' : ({ s' with used := s.used } : Sn D H).Inv :=
    hi.of_eq hm ht hn hr rfl fun t => by simp only [called, hc]
  exact { hi' with used := fun t u' h => hu ▸ List.mem_cons_of_mem _ (hi'.used t u' h) }

/-- The callback of a request's timer ends early, or closes the request. -/
lemma onTimer_cases (s : Sn D H) (t u now stringifies) :
    (s.netVerbose = true ∧ ((s.responseUUIDMapping u).isNone = true ∨ stringifies = false) ∧
      s.onTimer t u now stringifies = { s with
        timers := s.timers.filter (·.1 ≠ t)
        timedOutUUIDMapping := s.timedOutUUIDMapping.set u
          ⟨now, ((s.responseUUIDMapping u).map Mapping.timestamp).getD 0⟩
          retainTimedOutEntriesForMillis true now }) ∨
    (¬ (s.netVerbose = true ∧ ((s.responseUUIDMapping u).isNone = true ∨ stringifies = false)) ∧
      s.onTimer t u now stringifies = { s with
        timers := s.timers.filter (·.1 ≠ t)
        timedOutUUIDMapping := s.timedOutUUIDMapping.set u
          ⟨now, ((s.responseUUIDMapping u).map Mapping.timestamp).getD 0⟩
          retainTimedOutEntriesForMillis true now
        responseUUIDMapping := Function.update s.responseUUIDMapping u none
        calls := s.calls ++ [.onTimeout t] }) := by
  unfold onTimer
  simp only
  split
  case isTrue h =>
    simp only [Bool.and_eq_true, Bool.or_eq_true, Bool.not_eq_true'] at h
    exact .inl ⟨h.1, h.2, rfl⟩
  case isFalse h =>
    simp only [Bool.and_eq_true, Bool.or_eq_true, Bool.not_eq_true'] at h
    exact .inr ⟨h, rfl⟩

/-- A timer that is no longer armed. -/
lemma Inv.disarm {s s' : Sn D H} (hi : s.Inv) {t}
    (hm : s'.responseUUIDMapping = s.responseUUIDMapping)
    (ht : s'.timers = s.timers.filter (·.1 ≠ t)) (hn : s'.nextTimer = s.nextTimer)
    (hr : s'.requests = s.requests) (hu : s'.used = s.used) (hc : s'.calls = s.calls) : s'.Inv := by
  have hi' : ({ s' with timers := s.timers } : Sn D H).Inv :=
    hi.of_eq hm rfl hn hr hu fun t => by simp only [called, hc]
  refine { hi' with armed := fun t' u' h => hi'.armed t' u' ?_ }
  rw [ht, List.mem_filter] at h
  exact h.1

/-- A message whose UUID is that of an open request fires its `onResponse`, one whose UUID every
    object has throws, any other is handed to `handleData`. -/
lemma extractUUIDHandleData_cases (s : Sn D H) (augData : AugmentedData D) (remote header now) :
    (∃ m, s.responseUUIDMapping augData.UUID = some m ∧
      s.extractUUIDHandleData augData remote header now = { s with
        responseUUIDMapping := Function.update s.responseUUIDMapping augData.UUID none
        timers := s.timers.filter (·.1 ≠ m.timer)
        calls := s.calls ++ [.onResponse m.timer augData.data header] }) ∨
    (s.responseUUIDMapping augData.UUID = none ∧ augData.UUID ∈ objectPrototypeNames ∧
      s.extractUUIDHandleData augData remote header now = s) ∨
    (s.responseUUIDMapping augData.UUID = none ∧ augData.UUID ∉ objectPrototypeNames ∧
      ∃ timedOut : TTLMap TimedOut,
        (∀ k, timedOut.map k = s.timedOutUUIDMapping.map k ∨ timedOut.map k = none) ∧
        s.extractUUIDHandleData augData remote header now = { s with
          timedOutUUIDMapping := timedOut
          calls := s.calls ++ [.handleData augData remote header] }) := by
  unfold extractUUIDHandleData readProperty
  cases hm : s.responseUUIDMapping augData.UUID with
  | some m => exact .inl ⟨m, rfl, rfl⟩
  | none =>
    by_cases hname : augData.UUID ∈ objectPrototypeNames
    · exact .inr (.inl ⟨rfl, hname, by simp [hname]⟩)
    · refine .inr (.inr ⟨rfl, hname, _, ?_, by rw [if_neg hname]⟩)
      intro k
      have hget := s.timedOutUUIDMapping.get_map augData.UUID now k
      split
      case isTrue =>
        rw [TTLMap.delete_map]
        split
        case isTrue => exact .inr rfl
        case isFalse => exact hget.imp_right And.right
      case isFalse => exact hget.imp_right And.right

/-- One event keeps the invariant. -/
lemma inv_step {s s' : Sn D H} {e} (hi : s.Inv) (h : Step opts s e s') : s'.Inv := by
  cases h with
  | @send args UUID env hnew hname =>
    obtain ⟨_, h | ⟨_, h⟩⟩ := send_cases s args UUID env
    · rw [h]
      exact hi.use rfl rfl rfl rfl rfl rfl
    · rw [h]
      exact hi.request hnew hname rfl rfl rfl rfl rfl rfl
  | @respond augData remote receivedTime data env =>
    obtain ⟨_, h⟩ := respond_cases s augData remote receivedTime data env
    rw [h]
    exact hi.of_eq rfl rfl rfl rfl rfl fun _ => rfl
  | @arrive augData remote header now =>
    rcases extractUUIDHandleData_cases s augData remote header now with
      ⟨m, hm, h⟩ | ⟨_, _, h⟩ | ⟨_, _, _, _, h⟩
    · rw [h]
      exact hi.close (hi.open_of_mapping hm) rfl rfl rfl rfl rfl rfl rfl
    · rw [h]
      exact hi
    · rw [h]
      -- `handleData` is no callback of a request
      exact hi.of_eq rfl rfl rfl rfl rfl fun t => (called_append rfl t).trans (Nat.add_zero _)
  | malformed => exact hi
  | @timer t u now stringifies harmed =>
    rcases onTimer_cases s t u now stringifies with ⟨_, _, h⟩ | ⟨_, h⟩
    · rw [h]
      exact hi.disarm rfl rfl rfl rfl rfl rfl
    · rw [h]
      exact hi.close (hi.armed t u harmed) rfl rfl rfl rfl rfl rfl rfl
  | expire => exact hi.of_eq rfl rfl rfl rfl rfl fun _ => rfl
  | setLogFlags => exact hi.of_eq rfl rfl rfl rfl rfl fun _ => rfl

/-- The invariant holds in every run. -/
lemma inv_run {es : List (Event D H)} {s : Sn D H} (r : Run (Step opts) init es s) : s.Inv :=
  r.invariant inv_init inv_step

end Sn

/-- An event that is no arrival calls nothing, or one `onTimeout`. -/
lemma Step.calls {s s' : Sn D H} {e} (h : Step opts s e s')
    (he : ∀ augData remote header now, e ≠ .arrive augData remote header now) :
    s'.calls = s.calls ∨ ∃ t, s'.calls = s.calls ++ [.onTimeout t] := by
  cases h with
  | @send args UUID env =>
    obtain ⟨_, h | ⟨_, h⟩⟩ := s.send_cases args UUID env <;> exact .inl (by rw [h])
  | @respond augData remote receivedTime data env =>
    obtain ⟨_, h⟩ := s.respond_cases augData remote receivedTime data env
    exact .inl (by rw [h])
  | @arrive augData remote header now => exact absurd rfl (he augData remote header now)
  | malformed => exact .inl rfl
  | @timer t u now stringifies =>
    rcases s.onTimer_cases t u now stringifies with ⟨_, _, h⟩ | ⟨_, h⟩
    · rw [h]
      exact .inl rfl
    · rw [h]
      exact .inr ⟨t, rfl⟩
  | expire => exact .inl rfl
  | setLogFlags => exact .inl rfl

section Sample

/-- A node that sends to itself. -/
def sampleOptions : Options := ⟨9001, "127.0.0.1"⟩

/-- A UUID. -/
def sampleUUID : String := "6ba7b810-9dad-11d1-80b4-00c04fd430c8"

/-- The arguments of an ask that the node sends to itself. -/
def sampleArgs : SendArgs ℕ := ⟨[(9001, "127.0.0.1")], false, 7, 1000, true⟩

/-- The state after it was sent. -/
def sampleSent : Sn ℕ Unit := Sn.init.send sampleOptions sampleArgs sampleUUID ⟨0, true, true⟩

/-- The run up to the send. -/
lemma run_sampleSent :
    Run (Step sampleOptions) Sn.init [.send sampleArgs sampleUUID ⟨0, true, true⟩] sampleSent :=
  Run.single (.send (List.not_mem_nil) (by decide +kernel))

end Sample

end ShardusNet.Node
