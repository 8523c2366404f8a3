import ShardusNet.Node.Dispatch
/-!
# Pending requests

The life of a request that was sent with a timeout, over every run of one instance: it is in
`responseUUIDMapping` exactly while its timer is armed, never in `timedOutUUIDMapping` at the same
time, and one of its callbacks is called at most once.

The callback of the timer enters the UUID in `timedOutUUIDMapping` first and takes it out of
`responseUUIDMapping` last; with `net_verbose` it prints `JSON.stringify(augData)` in between. A
request whose data cannot be stringified that way (sent through a custom stringifier, or changed
since) stays in both maps, its timer gone and its `onTimeout` never called. `pending` says that
nothing else goes wrong.
-/

namespace ShardusNet.Node
open Runs

variable {D H : Type*} {opts : Options}

namespace Sn

/-- What is promised of every request that was sent with a timeout. -/
def Pending (s : Sn D H) : Prop :=
  ∀ t u, (t, u) ∈ s.requests →
    s.called t ≤ 1 ∧
    (s.responseUUIDMapping u ≠ none ↔ (t, u) ∈ s.timers) ∧
    ¬ (s.responseUUIDMapping u ≠ none ∧ s.timedOutUUIDMapping.map u ≠ none)

/-- No timer fires with `net_verbose` on while the data of its request cannot be stringified. -/
def Quiet (s : Sn D H) (e : Event D H) : Prop :=
  ∀ t u now stringifies, e = .timer t u now stringifies → s.netVerbose = true → stringifies = true

/-- A UUID in the mapping has its timer armed and has not timed out; what timed out was sent. -/
structure Synced (s : Sn D H) : Prop where
  armed : ∀ u m, s.responseUUIDMapping u = some m → (m.timer, u) ∈ s.timers
  apart : ∀ u m, s.responseUUIDMapping u = some m → s.timedOutUUIDMapping.map u = none
  timedOutUsed : ∀ u, s.timedOutUUIDMapping.map u ≠ none → u ∈ s.used

/-- A fresh instance. -/
lemma synced_init : (init : Sn D H).Synced where
  armed u m h := by cases h
  apart u m h := by cases h
  timedOutUsed u h := absurd rfl h

/-- Entries that expire, UUIDs that are used. -/
lemma Synced.of_subset {s s' : Sn D H} (hs : s.Synced)
    (hm : s'.responseUUIDMapping = s.responseUUIDMapping) (ht : s'.timers = s.timers)
    (ho : ∀ k, s'.timedOutUUIDMapping.map k = s.timedOutUUIDMapping.map k ∨
      s'.timedOutUUIDMapping.map k = none) (hu : s.used ⊆ s'.used) : s'.Synced := by
  refine ⟨?_, ?_, ?_⟩
  · intro u m h
    rw [ht]
    exact hs.armed u m (hm ▸ h)
  · intro u m h
    rcases ho u with e | e
    · exact e.trans (hs.apart u m (hm ▸ h))
    · exact e
  · intro u h
    rcases ho u with e | e
    · exact hu (hs.timedOutUsed u (e ▸ h))
    · exact absurd e h

/-- A request that is sent under a new UUID. -/
lemma Synced.request {s s' : Sn D H} (hs : s.Synced) {u} {now : ℤ} (hnew : u ∉ s.used)
    (hm : s'.responseUUIDMapping = Function.update s.responseUUIDMapping u (some ⟨s.nextTimer, now⟩))
    (ht : s'.timers = (s.nextTimer, u) :: s.timers)
    (ho : s'.timedOutUUIDMapping = s.timedOutUUIDMapping) (hu : s'.used = u :: s.used) :
    s'.Synced := by
  have hfresh : s.timedOutUUIDMapping.map u = none := by
    by_contra h
    exact hnew (hs.timedOutUsed u h)
  refine ⟨?_, ?_, ?_⟩
  · intro u' m h
    rw [hm, Function.update_apply] at h
    rw [ht]
    split at h
    case isTrue e =>
      cases h
      exact List.mem_cons.mpr (.inl (by rw [e]))
    case isFalse => exact List.mem_cons_of_mem _ (hs.armed u' m h)
  · intro u' m h
    rw [hm, Function.update_apply] at h
    rw [ho]
    split at h
    case isTrue e => exact e ▸ hfresh
    case isFalse => exact hs.apart u' m h
  · intro u' h
    rw [hu]
    exact List.mem_cons_of_mem _ (hs.timedOutUsed u' (ho ▸ h))

/-- A request that is closed: its entry and its timer go, and it may have timed out. -/
lemma Synced.close {s s' : Sn D H} (hi : s.Inv) (hs : s.Synced) {t u} (hopen : s.Open t u)
    (hm : s'.responseUUIDMapping = Function.update s.responseUUIDMapping u none)
    (ht : s'.timers = s.timers.filter (·.1 ≠ t))
    (ho : ∀ k, k ≠ u → s'.timedOutUUIDMapping.map k = s.timedOutUUIDMapping.map k)
    (hu : s'.used = s.used) : s'.Synced := by
  have hother : ∀ u' m, s'.responseUUIDMapping u' = some m →
      u' ≠ u ∧ s.responseUUIDMapping u' = some m := by
    intro u' m h
    rw [hm, Function.update_apply] at h
    split at h
    case isTrue => cases h
    case isFalse e => exact ⟨e, h⟩
  refine ⟨?_, ?_, ?_⟩
  · intro u' m h
    obtain ⟨hne, h⟩ := hother u' m h
    rw [ht, List.mem_filter]
    refine ⟨hs.armed u' m h, ?_⟩
    -- two requests with one timer would have one UUID
    have htimer : m.timer ≠ t := by
      rintro rfl
      exact hne (hi.ids m.timer u' u (hi.open_of_mapping h).1 hopen.1)
    simpa using htimer
  · intro u' m h
    obtain ⟨hne, h⟩ := hother u' m h
    rw [ho u' hne]
    exact hs.apart u' m h
  · intro u' h
    rw [hu]
    by_cases e : u' = u
    · exact e ▸ hi.used t u hopen.1
    · exact hs.timedOutUsed u' (ho u' e ▸ h)

/-- One quiet event keeps it. -/
lemma synced_step {s s' : Sn D H} {e} (hi : s.Inv) (hs : s.Synced) (h : Step opts s e s')
    (hq : s.Quiet e) : s'.Synced := by
  cases h with
  | @send args UUID env hnew _ =>
    obtain ⟨_, h | ⟨_, h⟩⟩ := send_cases s args UUID env
    · rw [h]
      exact hs.of_subset rfl rfl (fun _ => .inl rfl) (List.subset_cons_self _ _)
    · rw [h]
      exact hs.request hnew rfl rfl rfl rfl
  | @respond augData remote receivedTime data env =>
    obtain ⟨_, h⟩ := respond_cases s augData remote receivedTime data env
    rw [h]
    exact hs.of_subset rfl rfl (fun _ => .inl rfl) fun _ hu => hu
  | @arrive augData remote header now =>
    rcases extractUUIDHandleData_cases s augData remote header now with
      ⟨m, hm, h⟩ | ⟨_, _, h⟩ | ⟨_, _, _, hsub, h⟩
    · rw [h]
      exact hs.close hi (hi.open_of_mapping hm) rfl rfl (fun _ _ => rfl) rfl
    · rw [h]
      exact hs
    · rw [h]
      exact hs.of_subset rfl rfl hsub fun _ hu => hu
  | malformed => exact hs
  | @timer t u now stringifies harmed =>
    have hopen : s.Open t u := hi.armed t u harmed
    rcases onTimer_cases s t u now stringifies with ⟨hverbose, hthrows, _⟩ | ⟨_, h⟩
    · -- the mapping is there, and what is printed can be stringified
      obtain ⟨m, hm, _⟩ := hi.mapping_of_open hopen
      rw [hm, hq t u now stringifies rfl hverbose] at hthrows
      simp at hthrows
    · rw [h]
      refine hs.close hi hopen rfl rfl ?_ rfl
      intro k hk
      rw [TTLMap.set_map, if_neg hk]
  | @expire timer =>
    refine hs.of_subset rfl rfl ?_ fun _ hu => hu
    intro k
    rw [TTLMap.fire_map]
    split
    case isTrue => exact .inr rfl
    case isFalse => exact .inl rfl
  | setLogFlags => exact hs.of_subset rfl rfl (fun _ => .inl rfl) fun _ hu => hu

/-- What the two invariants say of a request. -/
lemma pending_of_synced {s : Sn D H} (hi : s.Inv) (hs : s.Synced) : s.Pending := by
  intro t u hreq
  refine ⟨hi.once t, ⟨?_, ?_⟩, ?_⟩
  · intro h
    obtain ⟨m, hm⟩ := Option.ne_none_iff_exists'.mp h
    rw [hi.uuids t m.timer u hreq (hi.open_of_mapping hm).1]
    exact hs.armed u m hm
  · intro h
    obtain ⟨m, hm, _⟩ := hi.mapping_of_open (hi.armed t u h)
    rw [hm]
    exact Option.some_ne_none m
  · rintro ⟨h, h'⟩
    obtain ⟨m, hm⟩ := Option.ne_none_iff_exists'.mp h
    exact h' (hs.apart u m hm)

/-- A timer that fires with `net_verbose` on, for data that cannot be stringified, leaves its
    request in the mapping with no timer. -/
lemma not_pending_of_not_quiet {s s' : Sn D H} {e} (hi : s.Inv) (h : Step opts s e s')
    (hq : ¬ s.Quiet e) : ¬ s'.Pending := by
  unfold Quiet at hq
  push Not at hq
  obtain ⟨t, u, now, stringifies, rfl, hverbose, hthrows⟩ := hq
  cases h with
  | timer harmed =>
    have hopen : s.Open t u := hi.armed t u harmed
    rcases onTimer_cases s t u now stringifies with ⟨_, _, h⟩ | ⟨hquiet, _⟩
    · rw [h]
      intro hp
      obtain ⟨m, hm, _⟩ := hi.mapping_of_open hopen
      have hin : (t, u) ∈ s.timers.filter (·.1 ≠ t) := by
        apply (hp t u hopen.1).2.1.mp
        show s.responseUUIDMapping u ≠ none
        rw [hm]
        exact Option.some_ne_none m
      simp at hin
    · refine absurd ?_ hquiet
      exact ⟨hverbose, .inr (by simpa using hthrows)⟩

end Sn

/-- An event before which no timer fires that cannot print its request. -/
def QuietStep (opts : Options) (s : Sn D H) (e : Event D H) (s' : Sn D H) : Prop :=
  Step opts s e s' ∧ s.Quiet e

/-- The invariants of a quiet run. -/
lemma synced_run {es : List (Event D H)} {s : Sn D H} (r : Run (QuietStep opts) .init es s) :
    s.Inv ∧ s.Synced := by
  refine r.invariant (I := fun s => s.Inv ∧ s.Synced) ⟨Sn.inv_init, Sn.synced_init⟩ ?_
  rintro s' e s'' ⟨hi, hs⟩ ⟨h, hq⟩
  exact ⟨Sn.inv_step hi h, Sn.synced_step hi hs h hq⟩

/-- **Pending requests.** In every state of a run all of whose events are quiet, each request sent
    with a timeout has had at most one of its callbacks called, is in `responseUUIDMapping` exactly
    while its timer is armed, and is never in both maps; the next event keeps that exactly when it
    is quiet. -/
theorem pending {es : List (Event D H)} {s : Sn D H} (r : Run (QuietStep opts) .init es s) :
    s.Pending ∧ ∀ e s', Step opts s e s' → (s'.Pending ↔ s.Quiet e) := by
  obtain ⟨hi, hs⟩ := synced_run r
  refine ⟨Sn.pending_of_synced hi hs, ?_⟩
  intro e s' h
  constructor
  · intro hp
    by_contra hq
    exact Sn.not_pending_of_not_quiet hi h hq hp
  · intro hq
    exact Sn.pending_of_synced (Sn.inv_step hi h) (Sn.synced_step hi hs h hq)

/-- The sample request times out. -/
theorem pending_sampleSent :
    (sampleSent.onTimer 0 sampleUUID 1000 true).Pending := by
  have r : Run (QuietStep sampleOptions) Sn.init
      [.send sampleArgs sampleUUID ⟨0, true, true⟩, .timer 0 sampleUUID 1000 true]
      (sampleSent.onTimer 0 sampleUUID 1000 true) := by
    have hsend : QuietStep sampleOptions Sn.init (.send sampleArgs sampleUUID ⟨0, true, true⟩) sampleSent := by
      refine ⟨.send List.not_mem_nil (by decide +kernel), ?_⟩
      intro t u now stringifies h
      cases h
    refine (Run.single hsend).tail ⟨.timer (List.mem_singleton.mpr rfl), ?_⟩
    intro t u now stringifies h hverbose
    cases hverbose
  exact (pending r).1

/-- With `net_verbose` on, a request whose data cannot be stringified times out: its UUID is in both
    maps, no timer is left, and nothing is called. -/
theorem pending_fails_netVerbose : ∃ s : Sn ℕ Unit,
    Run (Step sampleOptions) .init
      [.setLogFlags true, .send sampleArgs sampleUUID ⟨0, true, true⟩, .timer 0 sampleUUID 1000 false] s ∧
    s.requests = [(0, sampleUUID)] ∧ s.timers = [] ∧ s.calls = [] ∧
    s.responseUUIDMapping sampleUUID = some ⟨0, 0⟩ ∧
    (s.timedOutUUIDMapping.map sampleUUID).isSome = true ∧ ¬ s.Pending := by
  refine ⟨_, ((Run.refl.tail .setLogFlags).tail (.send List.not_mem_nil (by decide +kernel))).tail
    (.timer (List.mem_singleton.mpr rfl)), rfl, rfl, rfl, by decide +kernel, by decide +kernel, ?_⟩
  intro hp
  have hmapped := (hp 0 sampleUUID (List.mem_singleton.mpr rfl)).2.1.mp (by decide +kernel)
  cases hmapped

end ShardusNet.Node
