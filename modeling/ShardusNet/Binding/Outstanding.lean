import ShardusNet.Binding.Calls
import ShardusNet.Binding.Stats
import ShardusNet.Lib.Runs
import Mathlib.Algebra.BigOperators.Group.List.Basic
/-!
# Outstanding sends and receives

The counters of `shardus_net/src/stats.rs` over whole runs of the binding of
`shardus_net/src/lib.rs`: calls from JavaScript, results of the sender, received messages, and the
callbacks on the JavaScript thread that uncount them. Calls and callbacks run one at a time on that
thread; results and received messages come from other tasks in any order.

* `Accounted`: the counter of outstanding sends is the sends that will be uncounted and those that
  never will, modulo `2 ^ 64`.
* `outstandingSends_eq_zero`: after calls that are all balanced, the counter is 0 whenever nothing
  is outstanding.
* `decrement_ne_zero`: no counter is decremented at 0, unless there have been `2 ^ 64` increments.
-/

namespace ShardusNet.Binding
open Runs

/-- What happens to a binding. -/
inductive Event where
  /-- a call of `send`; no arguments when one is not of its type -/
  | send (args : Option SendArgs) (resolve : Resolve)
  /-- a call of `send_with_header` -/
  | sendWithHeader (args : Option SendWithHeaderArgs) (resolve : Resolve)
  /-- a call of `multi_send_with_header` -/
  | multiSendWithHeader (args : Option MultiSendWithHeaderArgs) (resolve : Resolve)
  /-- a queued send is finished, and the task on its channel passes the result on if it is
      awaited -/
  | finish (tx : ℕ)
  /-- the callback of a completion on the JavaScript thread -/
  | complete (tx : ℕ)
  /-- the task of `listen` gets a message -/
  | receive
  /-- the callback of a received message on the JavaScript thread -/
  | deliver (elapsed : ℕ)

/-- A binding: its statistics, the number of the next completion channel, the queued sends that are
    not finished with whether their completion is processed, the completions and the received
    messages that wait for the JavaScript thread. -/
structure State where
  stats : Stats
  nextTx : ℕ
  unfinished : List (ℕ × Bool)
  completions : List ℕ
  deliveries : ℕ

/-- A binding at its creation. -/
def State.init : State := ⟨.new, 0, [], [], 0⟩

/-- The binding after a call. -/
def State.call (s : State) (c : Call) : State :=
  { s with
    stats := s.stats.incrementOutstandingSendsTimes c.increments
    nextTx := s.nextTx + c.channels.length
    unfinished := s.unfinished ++ c.queued }

section
variable (cfg : Config)

/-- The call that an event is, with its completion channels numbered from `tx` on. -/
def Event.call (tx : ℕ) : Event → Option Call
  | .send args resolve => some (args.elim .badArgument fun args => Binding.send resolve args tx)
  | .sendWithHeader args resolve =>
    some (args.elim .badArgument fun args => Binding.sendWithHeader cfg resolve args tx)
  | .multiSendWithHeader args resolve =>
    some (args.elim .badArgument fun args => Binding.multiSendWithHeader cfg resolve args tx)
  | _ => none

/-- One event. -/
def step (s : State) (e : Event) : Option State :=
  match e.call cfg s.nextTx with
  | some c => some (s.call c)
  | none =>
    match e with
    | .finish tx =>
      match s.unfinished.find? (·.1 = tx) with
      | none => none
      | some (_, awaitProcessing) =>
        some { s with
          unfinished := s.unfinished.erase (tx, awaitProcessing)
          completions := if awaitProcessing then s.completions ++ [tx] else s.completions }
    | .complete tx =>
      if tx ∈ s.completions then
        some { s with
          completions := s.completions.erase tx
          stats := s.stats.decrementOutstandingSends }
      else none
    | .receive =>
      some { s with
        stats := s.stats.incrementOutstandingReceives
        deliveries := s.deliveries + 1 }
    | .deliver elapsed =>
      if s.deliveries = 0 then none
      else
        some { s with
          stats := s.stats.decrementOutstandingReceives.putElapsedReceive elapsed
          deliveries := s.deliveries - 1 }
    | _ => none

/-- One event, as a relation. -/
def Step (s : State) (e : Event) (s' : State) : Prop := step cfg s e = some s'

/-- The call uncounts what it counts. -/
def Event.Balanced : Event → Prop
  | .send args resolve => ∀ a ∈ args, a.Balanced resolve
  | .sendWithHeader args resolve => ∀ a ∈ args, a.Balanced cfg resolve
  | .multiSendWithHeader args resolve => ∀ a ∈ args, a.Balanced cfg resolve
  | _ => True

/-- How many sends a call counts. -/
def Event.counted : Event → ℕ
  | .send args _ => args.elim 0 fun _ => 1
  | .sendWithHeader args _ => args.elim 0 fun _ => 1
  | .multiSendWithHeader args _ => args.elim 0 fun a => a.ports.length
  | _ => 0

/-- How many messages are received. -/
def Event.received : Event → ℕ
  | .receive => 1
  | _ => 0

/-- The sends that will be uncounted: queued sends whose completion is processed, and completions
    that wait. -/
def State.live (s : State) : ℕ := s.unfinished.countP Prod.snd + s.completions.length

/-- What a call event does: it never uncounts more than it counts, it uncounts as many exactly when
    it is balanced, and it queues nothing when it throws. -/
lemma Event.call_spec {e : Event} {tx c} (h : e.call cfg tx = some c) :
    c.Covered ∧ (c.leak = 0 ↔ e.Balanced cfg) ∧ c.Atomic ∧ c.increments = e.counted := by
  have hbad : Call.badArgument.Covered ∧ Call.badArgument.leak = 0 ∧ Call.badArgument.Atomic :=
    ⟨Nat.le_refl 0, rfl, fun _ _ => rfl⟩
  cases e with
  | send args resolve =>
    cases h
    cases args with
    | none => exact ⟨hbad.1, by simp [Balanced, hbad.2.1], hbad.2.2, rfl⟩
    | some a =>
      refine ⟨send_leak.1, ?_, send_atomic, ?_⟩
      · simpa [Balanced] using send_leak.2
      · simp only [Option.elim, Binding.send, counted]
        split <;> rfl
  | sendWithHeader args resolve =>
    cases h
    cases args with
    | none => exact ⟨hbad.1, by simp [Balanced, hbad.2.1], hbad.2.2, rfl⟩
    | some a =>
      refine ⟨sendWithHeader_leak.1, ?_, sendWithHeader_atomic, ?_⟩
      · simpa [Balanced] using sendWithHeader_leak.2
      · simp only [Option.elim, Binding.sendWithHeader, counted]
        repeat' split
        all_goals rfl
  | multiSendWithHeader args resolve =>
    cases h
    cases args with
    | none => exact ⟨hbad.1, by simp [Balanced, hbad.2.1], hbad.2.2, rfl⟩
    | some a =>
      refine ⟨multiSendWithHeader_leak.1, ?_, multiSendWithHeader_atomic, ?_⟩
      · simpa [Balanced] using multiSendWithHeader_leak.2
      · simp only [Option.elim, Binding.multiSendWithHeader, counted]
        repeat' split
        all_goals rfl
  | finish _ => cases h
  | complete _ => cases h
  | receive => cases h
  | deliver _ => cases h

/-- The steps: a call, a send that finishes, a completion, a received message, a delivery. -/
lemma step_cases {s s' : State} {e : Event} (h : Step cfg s e s') :
    (∃ c, e.call cfg s.nextTx = some c ∧ s' = s.call c) ∨
    (∃ tx awaitProcessing, e = .finish tx ∧ (tx, awaitProcessing) ∈ s.unfinished ∧
      s' = { s with
        unfinished := s.unfinished.erase (tx, awaitProcessing)
        completions := if awaitProcessing then s.completions ++ [tx] else s.completions }) ∨
    (∃ tx, e = .complete tx ∧ tx ∈ s.completions ∧
      s' = { s with
        completions := s.completions.erase tx
        stats := s.stats.decrementOutstandingSends }) ∨
    (e = .receive ∧
      s' = { s with
        stats := s.stats.incrementOutstandingReceives
        deliveries := s.deliveries + 1 }) ∨
    ∃ elapsed, e = .deliver elapsed ∧ s.deliveries ≠ 0 ∧
      s' = { s with
        stats := s.stats.decrementOutstandingReceives.putElapsedReceive elapsed
        deliveries := s.deliveries - 1 } := by
  unfold Step step at h
  split at h
  case h_1 c hc =>
    cases h
    exact .inl ⟨c, hc, rfl⟩
  case h_2 hc =>
    split at h
    case h_1 tx =>
      split at h
      case h_1 => cases h
      case h_2 tx' awaitProcessing hfind =>
        cases h
        have htx : tx' = tx := by simpa using List.find?_some hfind
        subst htx
        exact .inr (.inl ⟨tx', awaitProcessing, rfl, List.mem_of_find?_eq_some hfind, rfl⟩)
    case h_2 tx =>
      split at h
      case isTrue hmem =>
        cases h
        exact .inr (.inr (.inl ⟨tx, rfl, hmem, rfl⟩))
      case isFalse => cases h
    case h_3 =>
      cases h
      exact .inr (.inr (.inr (.inl ⟨rfl, rfl⟩)))
    case h_4 elapsed =>
      split at h
      case isTrue => cases h
      case isFalse hne =>
        cases h
        exact .inr (.inr (.inr (.inr ⟨elapsed, rfl, hne, rfl⟩)))
    case h_5 => cases h

/-- Only the events of `live` change it: calls by what they will uncount, completions by one. -/
lemma live_call (s : State) (c : Call) : (s.call c).live = s.live + c.processed := by
  simp only [State.live, State.call, List.countP_append, Call.processed]
  omega

/-- A finished send is one that waits for the JavaScript thread, or one that will not be
    uncounted. -/
lemma live_finish {s : State} {tx awaitProcessing} (h : (tx, awaitProcessing) ∈ s.unfinished) :
    State.live { s with
      unfinished := s.unfinished.erase (tx, awaitProcessing)
      completions := if awaitProcessing then s.completions ++ [tx] else s.completions } = s.live := by
  have hcount := (List.perm_cons_erase h).countP_eq Prod.snd
  rw [List.countP_cons] at hcount
  simp only [State.live, hcount]
  cases awaitProcessing with
  | false => simp
  | true =>
    simp only [if_true, List.length_append, List.length_singleton]
    omega

/-- A completion is one send less. -/
lemma live_complete {s : State} {tx} (h : tx ∈ s.completions) :
    s.live = s.unfinished.countP Prod.snd + (s.completions.erase tx).length + 1 := by
  have hpos := List.length_pos_of_mem h
  rw [State.live, List.length_erase_of_mem h]
  omega

/-- The counter of outstanding sends is the sends that will be uncounted and `n` more that never
    will, none after balanced calls. -/
def Accounted (es : List Event) (s : State) : Prop :=
  ∃ n, s.stats.outstandingSends = UInt64.ofNat (s.live + n) ∧
    s.live + n ≤ (es.map Event.counted).sum ∧ ((∀ e ∈ es, e.Balanced cfg) → n = 0)

/-- One event more adds its own count. -/
lemma sum_concat (f : Event → ℕ) (es : List Event) (e : Event) :
    ((es ++ [e]).map f).sum = (es.map f).sum + f e := by
  simp

/-- Every step keeps the account. -/
lemma accounted_step {es s e s'} (ha : Accounted cfg es s) (h : Step cfg s e s') :
    Accounted cfg (es ++ [e]) s' := by
  obtain ⟨n, hcounter, hle, hbal⟩ := ha
  have hbal' : (∀ e' ∈ es ++ [e], e'.Balanced cfg) → n = 0 ∧ e.Balanced cfg := fun hb =>
    ⟨hbal fun e' he' => hb e' (List.mem_append_left _ he'), hb e (by simp)⟩
  unfold Accounted
  rw [sum_concat]
  rcases step_cases cfg h with ⟨c, hc, rfl⟩ | ⟨tx, aw, rfl, hmem, rfl⟩ | ⟨tx, rfl, hmem, rfl⟩ |
    ⟨rfl, rfl⟩ | ⟨elapsed, rfl, hne, rfl⟩
  · obtain ⟨hcovered, hleak, _, hinc⟩ := Event.call_spec cfg hc
    have hsplit : c.increments = c.processed + c.leak := by
      rw [Call.leak]
      rw [Call.Covered] at hcovered
      omega
    refine ⟨n + c.leak, ?_, ?_, fun hb => ?_⟩
    · have e : s.live + c.processed + (n + c.leak) = s.live + n + c.increments := by omega
      rw [live_call, e, UInt64.ofNat_add, ← hcounter]
      simp [State.call]
    · rw [live_call]
      omega
    · obtain ⟨hn, hb⟩ := hbal' hb
      rw [hn, hleak.mpr hb]
  · refine ⟨n, ?_, ?_, fun hb => (hbal' hb).1⟩
    · rw [live_finish hmem]
      exact hcounter
    · rw [live_finish hmem]
      exact Nat.le_add_right_of_le hle
  · rw [live_complete hmem] at hcounter hle
    refine ⟨n, ?_, ?_, fun hb => (hbal' hb).1⟩
    · have e : ∀ k : ℕ, UInt64.ofNat (k + 1 + n) - 1 = UInt64.ofNat (k + n) := by
        intro k
        rw [Nat.add_right_comm, UInt64.ofNat_add]
        exact UInt64.add_sub_cancel _ _
      simp only [State.live, Stats.decrementOutstandingSends_sends, hcounter, e]
    · simp only [State.live]
      omega
  · refine ⟨n, hcounter, Nat.le_add_right_of_le hle, fun hb => (hbal' hb).1⟩
  · refine ⟨n, hcounter, Nat.le_add_right_of_le hle, fun hb => (hbal' hb).1⟩

/-- After every run the counter of outstanding sends is accounted for. -/
lemma accounted {es s} (r : Run (Step cfg) State.init es s) : Accounted cfg es s := by
  refine r.invariant_along ⟨0, rfl, Nat.le_refl _, fun _ => rfl⟩ ?_
  intro es s e s' ha h
  exact accounted_step cfg ha h

/-- The counter of outstanding receives is the messages that wait for the JavaScript thread. -/
lemma accounted_receives {es s} (r : Run (Step cfg) State.init es s) :
    s.stats.outstandingReceives = UInt64.ofNat s.deliveries ∧
      s.deliveries ≤ (es.map Event.received).sum := by
  refine r.invariant_along (I := fun es s => s.stats.outstandingReceives = UInt64.ofNat s.deliveries ∧
    s.deliveries ≤ (es.map Event.received).sum) ⟨rfl, Nat.le_refl _⟩ ?_
  intro es s e s' ⟨hcounter, hle⟩ h
  rw [sum_concat]
  rcases step_cases cfg h with ⟨c, hc, rfl⟩ | ⟨tx, aw, rfl, hmem, rfl⟩ | ⟨tx, rfl, hmem, rfl⟩ |
    ⟨rfl, rfl⟩ | ⟨elapsed, rfl, hne, rfl⟩
  · exact ⟨by simpa [State.call] using hcounter, Nat.le_add_right_of_le hle⟩
  · exact ⟨hcounter, Nat.le_add_right_of_le hle⟩
  · exact ⟨by simpa using hcounter, Nat.le_add_right_of_le hle⟩
  · refine ⟨?_, Nat.add_le_add_right hle 1⟩
    simp only [Stats.incrementOutstandingReceives_receives, hcounter, UInt64.ofNat_add]
    rfl
  · obtain ⟨k, hk⟩ := Nat.exists_eq_succ_of_ne_zero hne
    refine ⟨?_, ?_⟩
    · simp only [Stats.putElapsedReceive_receives, Stats.decrementOutstandingReceives_receives,
        hcounter, hk, Nat.succ_eq_add_one, UInt64.ofNat_add, Nat.add_sub_cancel]
      exact UInt64.add_sub_cancel _ _
    · simp only
      omega

/-- Nothing is outstanding: no queued send is unfinished and no completion waits. -/
def State.Quiet (s : State) : Prop := s.unfinished = [] ∧ s.completions = []

/-- After calls that are all balanced, the counter of outstanding sends is 0 whenever nothing is
    outstanding, and a balanced call that throws leaves it as it was. -/
theorem outstandingSends_eq_zero {es s} (r : Run (Step cfg) State.init es s)
    (hb : ∀ e ∈ es, e.Balanced cfg) :
    (s.Quiet → s.stats.outstandingSends = 0) ∧
      ∀ (e : Event) (c : Call) (t : Thrown), e.Balanced cfg → e.call cfg s.nextTx = some c → c.outcome = .error t →
        (s.call c).stats.outstandingSends = s.stats.outstandingSends := by
  refine ⟨?_, ?_⟩
  · rintro ⟨hunfinished, hcompletions⟩
    obtain ⟨n, hcounter, _, hn⟩ := accounted cfg r
    rw [hn hb, State.live, hunfinished, hcompletions] at hcounter
    exact hcounter
  · intro e c t hbe hc ht
    obtain ⟨hcovered, hleak, hatomic, _⟩ := Event.call_spec cfg hc
    have hprocessed : c.processed = 0 := by
      rw [Call.processed, hatomic t ht]
      rfl
    have hincrements : c.increments = 0 := by
      have := hleak.mpr hbe
      rw [Call.leak] at this
      omega
    simp [State.call, hincrements]

/-- A counter that is 0 stands for nothing or for at least `2 ^ 64`. -/
lemma ofNat_ne_zero {n : ℕ} (hpos : 0 < n) (hlt : n < 2 ^ 64) : UInt64.ofNat n ≠ 0 := by
  intro hzero
  have := congrArg UInt64.toNat hzero
  rw [UInt64.toNat_ofNat', Nat.mod_eq_of_lt hlt] at this
  exact absurd this (Nat.ne_of_gt hpos)

/-- No counter is decremented at 0, as long as there have been fewer than `2 ^ 64` increments of
    it. -/
theorem decrement_ne_zero {es s e s'} (r : Run (Step cfg) State.init es s) (h : Step cfg s e s') :
    ((es.map Event.counted).sum < 2 ^ 64 → ∀ tx, e = .complete tx → s.stats.outstandingSends ≠ 0) ∧
      ((es.map Event.received).sum < 2 ^ 64 →
        ∀ elapsed, e = .deliver elapsed → s.stats.outstandingReceives ≠ 0) := by
  refine ⟨?_, ?_⟩
  · rintro hlt tx rfl
    obtain ⟨n, hcounter, hle, _⟩ := accounted cfg r
    rcases step_cases cfg h with ⟨c, hc, _⟩ | ⟨_, _, e, _⟩ | ⟨_, e, hmem, _⟩ | ⟨e, _⟩ | ⟨_, e, _⟩
    · cases hc
    · cases e
    · cases e
      have hpos : 0 < s.live + n := by
        rw [live_complete hmem]
        omega
      rw [hcounter]
      exact ofNat_ne_zero hpos (Nat.lt_of_le_of_lt hle hlt)
    · cases e
    · cases e
  · rintro hlt elapsed rfl
    obtain ⟨hcounter, hle⟩ := accounted_receives cfg r
    rcases step_cases cfg h with ⟨c, hc, _⟩ | ⟨_, _, e, _⟩ | ⟨_, e, _, _⟩ | ⟨e, _⟩ | ⟨_, e, hne, _⟩
    · cases hc
    · cases e
    · cases e
    · cases e
    · rw [hcounter]
      exact ofNat_ne_zero (Nat.pos_of_ne_zero hne) (Nat.lt_of_le_of_lt hle hlt)

end

/-! ## Runs of a sample binding -/

/-- A binding over the stand-in crates. -/
def sampleConfig : Config where
  crates := Wire.standIn fun _ _ => true
  crypto := Wire.standInCrypto
  keyPair := Wire.standInKeyPair
  fromStr := Wire.standInFromStr

/-- A resolver that knows one address. -/
def sampleResolve : Resolve := fun _ _ => some [Wire.sampleAddr]

/-- A send that goes out. -/
def sampleSend : Event := .send (some ⟨44444, "127.0.0.1", "hi"⟩) sampleResolve

/-- A send with a header of version 0, which does not parse. -/
def unparsableSend : Event := .sendWithHeader (some ⟨44444, "127.0.0.1", 0, "", "hi"⟩) sampleResolve

/-- The binding after a send. -/
def State.afterSend (s : State) : State :=
  s.call (send sampleResolve ⟨44444, "127.0.0.1", "hi"⟩ s.nextTx)

/-- The binding when a send is finished. -/
def State.afterFinish (s : State) : State := { s with unfinished := [], completions := [0] }

/-- The binding when the completion of the send is processed. -/
def State.afterComplete (s : State) : State :=
  { s with completions := [], stats := s.stats.decrementOutstandingSends }

/-- A send from a binding with nothing outstanding, up to its completion. -/
lemma run_sampleSend {es} {s : State} (r : Run (Step sampleConfig) State.init es s)
    (hs : s.nextTx = 0 ∧ s.unfinished = [] ∧ s.completions = []) :
    Run (Step sampleConfig) State.init (es ++ [sampleSend] ++ [.finish 0]) s.afterSend.afterFinish := by
  obtain ⟨stats, nextTx, unfinished, completions, deliveries⟩ := s
  obtain ⟨rfl, rfl, rfl⟩ := hs
  have hsend : Step sampleConfig ⟨stats, 0, [], [], deliveries⟩ sampleSend
      (State.afterSend ⟨stats, 0, [], [], deliveries⟩) := rfl
  have hfinish : Step sampleConfig (State.afterSend ⟨stats, 0, [], [], deliveries⟩) (.finish 0)
      (State.afterSend ⟨stats, 0, [], [], deliveries⟩).afterFinish := rfl
  exact (r.tail hsend).tail hfinish

/-- The completion of the only send. -/
lemma step_complete (s : State) :
    Step sampleConfig s.afterSend.afterFinish (.complete 0) s.afterSend.afterFinish.afterComplete := rfl

/-- The call awaits its only send. -/
lemma sampleSend_balanced : sampleSend.Balanced sampleConfig := by
  intro a _
  exact ⟨_, _, rfl⟩

/-- After one send and its completion nothing is counted. -/
theorem outstandingSends_eq_zero_sampleSend :
    ∃ s, Run (Step sampleConfig) State.init [sampleSend, .finish 0, .complete 0] s ∧ s.Quiet ∧
      s.stats.outstandingSends = 0 := by
  have r := (run_sampleSend .refl ⟨rfl, rfl, rfl⟩).tail (step_complete _)
  have hb : ∀ e ∈ [sampleSend, .finish 0, .complete 0], e.Balanced sampleConfig := by
    intro e he
    simp only [List.mem_cons, List.not_mem_nil, or_false] at he
    rcases he with rfl | rfl | rfl
    · exact sampleSend_balanced
    · exact trivial
    · exact trivial
  exact ⟨_, r, ⟨rfl, rfl⟩, (outstandingSends_eq_zero sampleConfig r hb).1 ⟨rfl, rfl⟩⟩

/-- A header that does not parse leaves the counter at 1 with nothing outstanding. -/
theorem outstandingSends_unparsableSend :
    ∃ s, Run (Step sampleConfig) State.init [unparsableSend] s ∧ s.Quiet ∧
      s.stats.outstandingSends ≠ 0 :=
  ⟨_, .single rfl, ⟨rfl, rfl⟩, by decide⟩

/-- The completion of one send is not at 0. -/
theorem decrement_ne_zero_sampleSend :
    State.init.afterSend.afterFinish.stats.outstandingSends ≠ 0 := by
  have r := run_sampleSend .refl ⟨rfl, rfl, rfl⟩
  exact (decrement_ne_zero sampleConfig r (step_complete _)).1 (by decide) 0 rfl

/-- Headers that do not parse are counted and change nothing else. -/
lemma run_unparsableSends (n : ℕ) :
    Run (Step sampleConfig) State.init (List.replicate n unparsableSend)
      { State.init with stats := Stats.incrementOutstandingSendsTimes .new n } := by
  induction n with
  | zero => exact .refl
  | succ n ih =>
    rw [List.replicate_succ']
    refine ih.tail ?_
    have e : Stats.incrementOutstandingSendsTimes .new (n + 1) =
        (Stats.incrementOutstandingSendsTimes .new n).incrementOutstandingSends :=
      Function.iterate_succ_apply' _ _ _
    rw [e]
    rfl

/-- After `2 ^ 64 - 1` headers that do not parse, the completion of a send is at 0. -/
theorem decrement_at_zero_unparsableSends :
    ∃ es s s', Run (Step sampleConfig) State.init es s ∧ Step sampleConfig s (.complete 0) s' ∧
      s.stats.outstandingSends = 0 := by
  have r := run_sampleSend (run_unparsableSends (2 ^ 64 - 1)) ⟨rfl, rfl, rfl⟩
  refine ⟨_, _, _, r, step_complete _, ?_⟩
  simp only [State.afterFinish, State.afterSend, State.call,
    Stats.incrementOutstandingSendsTimes_sends]
  decide

end ShardusNet.Binding
