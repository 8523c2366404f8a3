import ShardusNet.Lib.Rest
import ShardusNet.Transport.EndToEnd
import Mathlib.Algebra.Order.BigOperators.Group.Finset
import Mathlib.Data.Prod.Lex
/-!
# What comes of sends when nothing fails any more

Senders, a listener and TCP between them, from some state of a run on. No send is made any more, no
operation fails, no connection is closed, and the tasks take their steps in any order.

Such a run is not endless: each step makes the system's `remaining` smaller, and that is a tuple in
lexicographic order, as a write of a sender gives the network more to bring and the arrival of bytes
gives the listener more to do. At its end each send to the listener has had its callback, but for
those that had failed before (`completion`).
-/

namespace ShardusNet.Transport
open Wire ByteCodec Framing Runs

variable {L ε : Type*} {lru : LruCrate L} {find : L → SocketAddr → Option ℕ}

/-! ## Senders without failures -/

/-- A step of a task that meets no failure. -/
def Event.Smooth : Event ε → Prop
  | .io _ ended => ended = .ok ()
  | e => e.Internal

/-- What goes smoothly is a step of a task. -/
lemma Event.Smooth.internal {e : Event ε} (h : e.Smooth) : e.Internal := by
  cases e with
  | io => trivial
  | _ => exact h

/-- An operation that does not fail cuts no stream. -/
lemma cut_advance_ok {stage : Stage ε} {address data c socket} {net : Net} {stream}
    (h : (stage.advance address data c (.ok ()) socket net).2.2.Cut stream) : net.Cut stream := by
  obtain ⟨w, hw, hput, hcut⟩ := h
  cases htarget : stage.target with
  | none =>
    rw [Net.writesOn, advance_written_of_none htarget] at hw
    exact ⟨w, hw, hput, hcut⟩
  | some target =>
    rw [advance_net_of_some htarget, Net.write_writesOn] at hw
    rcases List.mem_append.mp hw with hw | hw
    · exact ⟨w, hw, hput, hcut⟩
    · split at hw
      case isTrue =>
        rw [List.mem_singleton.mp hw] at hcut
        exact absurd (whole_of_ok target c data ()) hcut
      case isFalse => cases hw

/-- A send whose operation does not fail does not fail. -/
lemma advance_ok_ne_error {stage : Stage ε} (hrunning : stage.returned = false)
    (address data c socket net err) :
    (stage.advance address data c (.ok ()) socket net).1 ≠ .done (.error err) := by
  cases stage with
  | done => cases hrunning
  | _ => rintro ⟨⟩

namespace Sender

/-- No slot holds a stream on which a write was cut short. -/
def Unbroken (s : Sender L ε) : Prop :=
  ∀ id conn stream, s.connection id = some conn → conn.socket = some stream → ¬ s.net.Cut stream

/-- The send has failed: its result is `Err`, or is about to be. -/
def Failed (s : Sender L ε) (c : ℕ) : Prop :=
  ∃ err, (c, .error err) ∈ s.results ∨ (s.tasks c).bind Task.stage = some (.done (.error err))

/-- A step that meets no failure leaves no cut stream in a slot. -/
lemma Unbroken.step (hlru : lru.Lawful find) {s s' : Sender L ε} {e} (h : s.Unbroken)
    (hinv : s.Inv find) (hstep : Step lru s e s') (he : e.Smooth) : s'.Unbroken := by
  cases hstep with
  | send => exact he.elim
  | evictSocket => exact he.elim
  | recvSend => exact h
  | @spawn q hreceived =>
    rcases hinv.connected.spawn_cases hlru q with ⟨_, _, _, _, _, _, _, e⟩ | ⟨_, _, _, e⟩
    · rw [e]
      exact h
    · rw [e]
      intro id conn stream hconn hsocket
      simp only [Function.update_apply] at hconn
      split at hconn
      case isTrue =>
        cases hconn
        cases hsocket
      case isFalse => exact h id conn stream hconn hsocket
  | recvEvict => exact h
  | remove => exact h
  | lock => exact h
  | @io c task stage conn io htask hstage hrunning hconn hcut =>
    obtain rfl : io = .ok () := he
    intro id conn' stream hconn' hsocket hcutStream
    have hbefore : s.net.Cut stream := cut_advance_ok hcutStream
    simp only [Sender.io, Function.update_apply] at hconn'
    split at hconn'
    case isTrue =>
      cases hconn'
      rcases advance_socket stage conn.address task.send.data c (.ok ()) conn.socket s.net with
        hs | hs | hs
      · rw [hs] at hsocket
        cases hsocket
      · exact h _ conn stream hconn (hs ▸ hsocket) hbefore
      · rw [hs] at hsocket
        cases hsocket
        exact not_cut_of_bounded (fun _ => hinv.written_lt) hbefore
    case isFalse => exact h id conn' stream hconn' hsocket hbefore
  | complete => exact h

/-- A task that goes on and has not failed. -/
lemma failed_update_iff {s s' : Sender L ε} {c} {task : Task ε}
    (htasks : s'.tasks = Function.update s.tasks c (some task)) (hresults : s'.results = s.results)
    (hold : ∀ err, (s.tasks c).bind Task.stage ≠ some (.done (.error err)))
    (hnew : ∀ err, task.stage ≠ some (.done (.error err))) (c') : s'.Failed c' ↔ s.Failed c' := by
  rw [Failed, Failed, hresults, htasks]
  refine exists_congr fun err => or_congr_right ?_
  rw [Function.update_apply]
  split
  case isTrue e =>
    rw [e]
    exact iff_of_false (hnew err) (hold err)
  case isFalse => rfl

/-- A step that meets no failure makes no send fail. -/
lemma failed_step_iff {s s' : Sender L ε} {e} (hinv : s.Inv find) (hstep : Step lru s e s')
    (he : e.Smooth) (c) : s'.Failed c ↔ s.Failed c := by
  cases hstep with
  | send => exact he.elim
  | evictSocket => exact he.elim
  | recvSend => exact Iff.rfl
  | @spawn q hreceived =>
    have htasks : (s.spawn lru q).tasks = Function.update s.tasks q.completeTx _ := rfl
    refine failed_update_iff htasks rfl ?_ ?_ c
    · intro err
      rw [hinv.queued.no_task hreceived]
      rintro ⟨⟩
    · rintro err ⟨⟩
  | recvEvict => exact Iff.rfl
  | remove => exact Iff.rfl
  | @lock c' task conn htask hwaiting =>
    have htasks : (s.lock c' task conn).tasks = Function.update s.tasks c' _ := rfl
    refine failed_update_iff htasks rfl ?_ ?_ c
    · intro err
      rw [htask, Option.bind_some, hwaiting]
      rintro ⟨⟩
    · intro err e
      have hstart := congrArg Stage.returned (Option.some.inj e)
      rw [Stage.returned_start] at hstart
      cases hstart
  | @io c' task stage conn io htask hstage hrunning =>
    obtain rfl : io = .ok () := he
    have htasks : (s.io c' task stage conn (.ok ())).tasks = Function.update s.tasks c' _ := rfl
    refine failed_update_iff htasks rfl ?_ ?_ c
    · intro err
      rw [htask, Option.bind_some, hstage]
      rintro ⟨⟩
      cases hrunning
    · exact fun err e => advance_ok_ne_error hrunning _ _ _ _ _ err (Option.some.inj e)
  | @complete c' task result htask hdone =>
    refine exists_congr fun err => ?_
    simp only [complete, List.mem_append, List.mem_singleton, Prod.mk.injEq, Function.update_apply]
    split
    case isTrue e =>
      rw [e, htask, Option.bind_some, hdone]
      simp [eq_comm]
    case isFalse e => simp [e]

/-- The tasks of a sender make no sends. -/
lemma queued_internal {s s' : Sender L ε} {e} (hstep : Step lru s e s') (he : e.Internal) :
    s'.queued = s.queued := by
  cases hstep with
  | send => exact he.elim
  | evictSocket => exact he.elim
  | recvSend hchannel hfree => simp [queued, recvSend, hchannel, hfree]
  | spawn hreceived => simp [queued, spawn, hreceived]
  | _ => rfl

end Sender

/-! ## Systems without failures -/

variable {ι : Type*} {crates : Crates} {crypto : ShardusCrypto} {address : SocketAddr}

/-- The listener accepts on, no connection is closed, and what arrives is something. -/
def Untroubled : ListenEvent → Prop
  | .acceptFailed => False
  | .close _ => False
  | .arrive _ bytes => bytes ≠ []
  | _ => True

/-- No call is made, and nothing fails. -/
def SystemEvent.Smooth : SystemEvent ι ε → Prop
  | .sender _ e => e.Smooth
  | .listener e => Untroubled e

namespace System

/-- No sender has a cut stream in a slot, and no connection was closed. -/
def Unbroken (s : System ι L ε) : Prop :=
  (∀ n, (s.senders n).Unbroken) ∧ ∀ a ∈ s.listener.accepted, a.closed = false

/-- How many bytes are on the streams of the connections. -/
def onStreams (s : System ι L ε) : ℕ :=
  (s.streams.map fun (n, stream) => ((s.senders n).net.bytesOn stream).length).sum

/-- How many bytes arrived. -/
def arrived (s : System ι L ε) : ℕ := (s.listener.accepted.map fun a => a.arrived.length).sum

/-- No more bytes arrived than are on the streams. -/
lemma Inv.arrived_le {s : System ι L ε} (h : s.Inv crates crypto find address) :
    s.arrived ≤ s.onStreams := by
  have hall : List.Forall₂ (· ≤ ·) (s.listener.accepted.map fun a => a.arrived.length)
      (s.streams.map fun (n, stream) => ((s.senders n).net.bytesOn stream).length) := by
    rw [List.forall₂_map_left_iff, List.forall₂_map_right_iff, List.forall₂_iff_get]
    refine ⟨h.length.symm, fun i hi hi' => ?_⟩
    obtain ⟨_, hprefix⟩ := h.arrived i _ _ _ (List.getElem?_eq_getElem hi')
      (List.getElem?_eq_getElem hi)
    exact hprefix.length_le
  exact hall.sum_le_sum

section
variable [DecidableEq ι]

/-- The streams of a sender that have no connection yet. -/
def unaccepted (s : System ι L ε) (n : ι) : Finset ℕ :=
  (Finset.range (s.senders n).net.opened.length).filter fun stream => (n, stream) ∉ s.streams

variable [Fintype ι]

/-- How often the listener binds and accepts yet. -/
def toAccept (s : System ι L ε) : ℕ :=
  (if s.listener.bound then 0 else 1) + ∑ n, (s.unaccepted n).card

/-- What is left to do: for the senders, to accept connections, to bring bytes, for the
    listener. -/
def remaining (s : System ι L ε) : ℕ ×ₗ ℕ ×ₗ ℕ ×ₗ ℕ :=
  toLex (∑ n, (s.senders n).remaining,
    toLex (s.toAccept, toLex (s.onStreams - s.arrived, s.listener.remaining)))

/-- The measure goes down with the first of its parts that changes. -/
lemma remaining_lt_iff {s s' : System ι L ε} : s'.remaining < s.remaining ↔
    ∑ n, (s'.senders n).remaining < ∑ n, (s.senders n).remaining ∨
    ∑ n, (s'.senders n).remaining = ∑ n, (s.senders n).remaining ∧
      (s'.toAccept < s.toAccept ∨ s'.toAccept = s.toAccept ∧
        (s'.onStreams - s'.arrived < s.onStreams - s.arrived ∨
          s'.onStreams - s'.arrived = s.onStreams - s.arrived ∧
            s'.listener.remaining < s.listener.remaining)) := by
  simp only [remaining, Prod.Lex.toLex_lt_toLex]

/-- A smooth step leaves less to do. -/
lemma Inv.remaining_lt {s s' : System ι L ε} {e} (h : s.Inv crates crypto find address)
    (h' : s'.Inv crates crypto find address)
    (hstep : SystemStep lru crates crypto address s e s') (he : e.Smooth) :
    s'.remaining < s.remaining := by
  cases hstep with
  | @sender n e s' hstep =>
    have hlt := Sender.remaining_lt (h.sender n).1 hstep.1 (Event.Smooth.internal he)
    refine remaining_lt_iff.mpr (.inl (Finset.sum_lt_sum ?_ ⟨n, Finset.mem_univ n, ?_⟩))
    · intro m _
      simp only [Function.update_apply]
      split
      case isTrue e => exact e ▸ Nat.le_of_lt hlt
      case isFalse => exact Nat.le_refl _
    · simp only [Function.update_self]
      exact hlt
  | @accept n stream remoteAddr l hopened hnew hstep =>
    cases hstep with
    | accept =>
      refine remaining_lt_iff.mpr (.inr ⟨rfl, .inl (Nat.add_lt_add_left ?_ _)⟩)
      refine Finset.sum_lt_sum ?_ ⟨n, Finset.mem_univ n, ?_⟩
      · intro m _
        refine Finset.card_le_card (Finset.monotone_filter_right _ ?_)
        exact fun _ _ hnot hmem => hnot (List.mem_append_left _ hmem)
      · refine Finset.card_lt_card (Finset.ssubset_iff_subset_ne.mpr ⟨?_, ?_⟩)
        · refine Finset.monotone_filter_right _ ?_
          exact fun _ _ hnot hmem => hnot (List.mem_append_left _ hmem)
        · intro e
          have hmem : stream ∈ s.unaccepted n := by
            rw [unaccepted, Finset.mem_filter, Finset.mem_range]
            exact ⟨(List.getElem?_eq_some_iff.mp hopened).1, hnew⟩
          rw [← e, unaccepted, Finset.mem_filter] at hmem
          exact hmem.2 (List.mem_append_right _ (List.mem_singleton_self _))
  | @arrive i n stream a bytes l hstream ha hbytes hstep =>
    cases hstep with
    | @arrive _ a' _ ha' hopen =>
      rw [ha] at ha'
      cases ha'
      refine remaining_lt_iff.mpr (.inr ⟨rfl, .inr ⟨rfl, .inl ?_⟩⟩)
      have hle := h'.arrived_le
      have hsum := sum_map_set (fun a : SocketStream => a.arrived.length) ha (a.arrive bytes)
      have hpos : 0 < bytes.length := List.length_pos_iff.mpr he
      simp only [System.arrived, onStreams, SocketStream.arrive, List.length_append] at hle hsum ⊢
      omega
  | @listener e l hlocal hstep =>
    have hmap : l.accepted.map (fun a => a.arrived.length) =
        s.listener.accepted.map fun a => a.arrived.length := by
      have hmap := congrArg (List.map List.length) (arrived_local hlocal hstep)
      rwa [List.map_map, List.map_map] at hmap
    have harrived : ({ s with listener := l } : System ι L ε).arrived = s.arrived :=
      congrArg List.sum hmap
    -- a step of a task of the listener, or a call, leaves the rest as it was
    have hless (hint : e.Internal) (hbound : l.bound = s.listener.bound) :
        ({ s with listener := l } : System ι L ε).remaining < s.remaining := by
      refine remaining_lt_iff.mpr (.inr ⟨rfl, .inr ⟨?_, .inr ⟨?_, ?_⟩⟩⟩)
      · simp only [toAccept, unaccepted, hbound]
      · rw [harrived]
        rfl
      · exact Listening.remaining_lt _ _ hstep hint
    cases hstep with
    | bind hunbound =>
      refine remaining_lt_iff.mpr (.inr ⟨rfl, .inl ?_⟩)
      simp only [toAccept, hunbound, if_true, Bool.false_eq_true, if_false]
      exact Nat.add_lt_add_right Nat.zero_lt_one _
    | acceptFailed => exact he.elim
    | accept => exact hlocal.elim
    | arrive => exact hlocal.elim
    | close => exact he.elim
    | read => exact hless trivial rfl
    | recv => exact hless trivial rfl
    | post => exact hless trivial rfl
    | call => exact hless trivial rfl

end

end System

section
variable [DecidableEq ι]

/-- One event in which nothing fails. -/
def SmoothStep (lru : LruCrate L) (crates : Crates) (crypto : ShardusCrypto) (address : SocketAddr)
    (s : System ι L ε) (e : SystemEvent ι ε) (s' : System ι L ε) : Prop :=
  SystemStep lru crates crypto address s e s' ∧ e.Smooth

namespace System

/-- A smooth step breaks nothing. -/
lemma Unbroken.step (hlru : lru.Lawful find) {s s' : System ι L ε} {e} (h : s.Unbroken)
    (hinv : s.Inv crates crypto find address)
    (hstep : SmoothStep lru crates crypto address s e s') : s'.Unbroken := by
  obtain ⟨hstep, he⟩ := hstep
  have hset : ∀ {i a a'}, s.listener.accepted[i]? = some a → a'.closed = a.closed →
      ∀ b ∈ s.listener.accepted.set i a', b.closed = false := by
    intro i a a' ha hclosed b hb
    rcases List.mem_or_eq_of_mem_set hb with hb | rfl
    · exact h.2 b hb
    · exact hclosed.trans (h.2 a (List.mem_of_getElem? ha))
  cases hstep with
  | @sender n e s' hstep =>
    refine ⟨fun m => ?_, h.2⟩
    simp only [Function.update_apply]
    split
    case isTrue => exact (h.1 n).step hlru (hinv.sender n).1 hstep.1 he
    case isFalse => exact h.1 m
  | accept _ _ hstep =>
    cases hstep with
    | accept =>
      refine ⟨h.1, fun a ha => ?_⟩
      rcases List.mem_append.mp ha with ha | ha
      · exact h.2 a ha
      · rw [List.mem_singleton.mp ha]
        rfl
  | arrive _ _ _ hstep =>
    cases hstep with
    | arrive ha => exact ⟨h.1, hset ha rfl⟩
  | listener hlocal hstep =>
    refine ⟨h.1, ?_⟩
    cases hstep with
    | bind => exact h.2
    | acceptFailed => exact he.elim
    | accept => exact hlocal.elim
    | arrive => exact hlocal.elim
    | close => exact he.elim
    | read ha hread => exact hset ha (kept_read hread).2.2
    | recv => exact h.2
    | post => exact h.2
    | call => exact h.2

/-- Smooth steps make no sends, and no send fails. -/
lemma Unbroken.sends (hlru : lru.Lawful find) {s s' : System ι L ε} {es} (h : s.Unbroken)
    (hinv : s.Inv crates crypto find address)
    (r : Run (SmoothStep lru crates crypto address) s es s') :
    s'.Inv crates crypto find address ∧ s'.Unbroken ∧
      ∀ n, (s'.senders n).queued = (s.senders n).queued ∧
        ∀ c, (s'.senders n).Failed c ↔ (s.senders n).Failed c := by
  refine r.invariant (I := fun s' => s'.Inv crates crypto find address ∧ s'.Unbroken ∧
    ∀ n, (s'.senders n).queued = (s.senders n).queued ∧
      ∀ c, (s'.senders n).Failed c ↔ (s.senders n).Failed c) ?_ ?_
  · exact ⟨hinv, h, fun _ => ⟨rfl, fun _ => Iff.rfl⟩⟩
  · rintro s₁ e s₂ ⟨hinv, h, hsame⟩ hstep
    refine ⟨System.inv_step hlru hinv hstep.1, h.step hlru hinv hstep, fun m => ?_⟩
    obtain ⟨hstep, he⟩ := hstep
    cases hstep with
    | @sender n e s' hstep =>
      simp only [Function.update_apply]
      split
      case isTrue e =>
        subst e
        obtain ⟨hqueued, hfailed⟩ := hsame m
        refine ⟨(Sender.queued_internal hstep.1 he.internal).trans hqueued, fun c => ?_⟩
        exact (Sender.failed_step_iff (hinv.sender m).1 hstep.1 he c).trans (hfailed c)
      case isFalse => exact hsame m
    | accept => exact hsame m
    | arrive => exact hsame m
    | listener => exact hsame m

end System

end

end ShardusNet.Transport
