import ShardusNet.Lib.Pieces
import ShardusNet.Lib.Window
import ShardusNet.Wire.Listening
/-!
# The order of the callbacks

`listen` gives each item to a blocking task of its own, and these post to the JavaScript thread as
they come. The runtime starts its blocking tasks in the order in which they were spawned, and runs so
many of them at a time: `PooledStep` is `ListenStep` with this bound, which is a parameter, since
`Runtime::new` leaves it to the runtime.

* `PooledStep.taken_run`: with so many threads, each item is posted among the first that are left.
* `exists_sent`: a run for each order in which the connections can send their items.
* `called_iff`: so which lists of calls there are. While the items are not more than the threads, it
  is any selection of them in any order, also of those for one connection.
-/

namespace ShardusNet.Wire
open ByteCodec Pieces Runs Window

section
variable (crates : Crates) (crypto : ShardusCrypto)

/-- The addresses of the connections and what has arrived on them. -/
def Listening.received (s : Listening) : List (SocketAddr × Bytes) :=
  s.accepted.map fun a => (a.remoteAddr, a.arrived)

/-- What `receive` delivers from each of some connections. -/
def deliveries (received : List (SocketAddr × Bytes)) : List (ℕ × Delivery) :=
  (received.mapIdx fun i c => (receive crates crypto c.1 receiverHeld c.2).delivered.map (i, ·)).flatten

/-- All that `receive` delivers from each of some connections, in an order in which they can send it:
    what comes on one connection comes in its order. -/
structure Interleaved (received : List (SocketAddr × Bytes)) (sent : List (ℕ × Delivery)) : Prop where
  known : ∀ item ∈ sent, item.1 < received.length
  inOrder : ∀ i c, received[i]? = some c →
    (sent.filter (·.1 = i)).map Prod.snd = (receive crates crypto c.1 receiverHeld c.2).delivered

/-- A listener with some connections, on which all bytes arrived and none was read. -/
def Listening.unread (received : List (SocketAddr × Bytes)) : Listening :=
  { Listening.new with
    bound := true
    accepted := received.map fun c => (SocketStream.new c.1).arrive c.2 }

/-- One event, with so many threads for the blocking tasks: a task that posts has been started, so
    that fewer tasks were spawned before it and have not posted yet. -/
inductive PooledStep (threads : ℕ) : Listening → ListenEvent → Listening → Prop
  | post {s pre item post} (hblocking : s.blocking = pre ++ item :: post)
    (hstarted : pre.length < threads) :
    PooledStep threads s (.post item) { s with blocking := pre ++ post, queue := s.queue ++ [item] }
  | other {s e s'} (h : ListenStep crates crypto s e s') (hother : ∀ item, e ≠ .post item) :
    PooledStep threads s e s'

end

section
variable {crates : Crates} {crypto : ShardusCrypto} {threads : ℕ}

/-- It is one event. -/
lemma PooledStep.step {s s' : Listening} {e} (h : PooledStep crates crypto threads s e s') :
    ListenStep crates crypto s e s' := by
  cases h with
  | post hblocking => exact .post hblocking
  | other h => exact h

/-- A run with so many threads is a run. -/
lemma PooledStep.run {s s' : Listening} {es} (r : Run (PooledStep crates crypto threads) s es s') :
    Run (ListenStep crates crypto) s es s' := by
  obtain ⟨_, r', rfl⟩ := r.simulate (I := Eq) rfl fun _ e h => ⟨_, e ▸ h.step, rfl⟩
  exact r'

/-! ## What is called back -/

/-- One event takes no item, or the posted one among those whose tasks have been started. -/
lemma PooledStep.taken_step {s s' : Listening} {e}
    (h : Taken threads s.sent (s.called ++ s.queue) (s.blocking ++ s.channel))
    (hstep : PooledStep crates crypto threads s e s') :
    Taken threads s'.sent (s'.called ++ s'.queue) (s'.blocking ++ s'.channel) := by
  cases hstep with
  | @post pre item post hblocking hstarted =>
    rw [hblocking, List.append_assoc, List.cons_append] at h
    have htaken := h.concat hstarted
    rwa [List.append_assoc, ← List.append_assoc pre] at htaken
  | other hstep hother =>
    cases hstep with
    | bind => exact h
    | acceptFailed => exact h
    | accept => exact h
    | arrive => exact h
    | close => exact h
    | @read i _ _ item =>
      have hmore := h.append (item.toList.map (i, ·))
      rwa [List.append_assoc] at hmore
    | recv hchannel =>
      rw [hchannel] at h
      show Taken _ _ _ (s.blocking ++ [_] ++ _)
      rwa [List.append_assoc]
    | post => exact absurd rfl (hother _)
    | call hqueue =>
      rw [hqueue] at h
      show Taken _ _ (s.called ++ [_] ++ _) _
      rwa [List.append_assoc]

/-- With so many threads, each item was posted among the first that were left. -/
lemma PooledStep.taken_run {s : Listening} {es}
    (r : Run (PooledStep crates crypto threads) .new es s) :
    Taken threads s.sent (s.called ++ s.queue) (s.blocking ++ s.channel) :=
  r.invariant (.nil []) PooledStep.taken_step

namespace Listening

/-- Where all that arrived was read, all that `receive` delivers was sent. -/
lemma Inv.interleaved {s : Listening} (h : s.Inv crates crypto)
    (hread : ∀ a ∈ s.accepted, a.read crates crypto = none) :
    Interleaved crates crypto s.received s.sent where
  known item hitem := by
    rw [received, List.length_map]
    exact h.known item hitem
  inOrder i c hc := by
    rw [received, List.getElem?_map] at hc
    obtain ⟨a, ha, rfl⟩ := Option.map_eq_some_iff.mp hc
    exact (h.held i a ha).of_read_eq_none crates crypto (hread a (List.mem_of_getElem? ha))

end Listening

/-- What is sent is all that `receive` delivers. -/
lemma Interleaved.perm {received sent} (h : Interleaved crates crypto received sent) :
    sent.Perm (deliveries crates crypto received) := by
  refine (perm_flatMap_filter Prod.fst h.known).trans ?_
  rw [deliveries, List.flatMap_def]
  apply List.Perm.of_eq
  congr 1
  apply List.ext_getElem
  · simp
  · intro i hi _
    rw [List.length_map, List.length_range] at hi
    have hsame : ∀ item ∈ sent.filter (·.1 = i), ((i, ·) ∘ Prod.snd) item = item := by
      intro item hitem
      obtain rfl := of_decide_eq_true (List.mem_filter.mp hitem).2
      rfl
    have hsent := h.inOrder i _ (List.getElem?_eq_getElem hi)
    rw [List.getElem_map, List.getElem_range, List.getElem_mapIdx, ← hsent, List.map_map,
      List.map_congr_left hsame, List.map_id']

/-! ## A run for each order -/

namespace Listening

/-- Nothing but what was read, and what this sent to the channel, differs. -/
structure OnlyRead (s s' : Listening) : Prop where
  received : s'.received = s.received
  blocking : s'.blocking = s.blocking
  queue : s'.queue = s.queue
  called : s'.called = s.called
  sent : s.sent <+: s'.sent

/-- Nothing was read. -/
lemma OnlyRead.refl (s : Listening) : s.OnlyRead s := ⟨rfl, rfl, rfl, rfl, List.prefix_refl _⟩

/-- What is read after what was read. -/
lemma OnlyRead.trans {s s' s'' : Listening} (h : s.OnlyRead s') (h' : s'.OnlyRead s'') :
    s.OnlyRead s'' :=
  ⟨h'.received.trans h.received, h'.blocking.trans h.blocking, h'.queue.trans h.queue,
    h'.called.trans h.called, h.sent.trans h'.sent⟩

/-- A step of a `receive` task reads. -/
lemma onlyRead_read {s : Listening} {i a a' item} (ha : s.accepted[i]? = some a)
    (hread : a.read crates crypto = some (a', item)) : s.OnlyRead (s.read i a' item) := by
  obtain ⟨haddr, harrived, _⟩ := kept_read hread
  exact ⟨map_set_eq (fun a => (a.remoteAddr, a.arrived)) ha (by rw [haddr, harrived]), rfl, rfl, rfl,
    List.prefix_append _ _⟩

/-- Unread connections have received what arrived. -/
lemma received_unread (received) : (unread received).received = received := by
  rw [Listening.received, unread, List.map_map]
  exact List.map_id received

variable (crates crypto threads)

/-- A step of a `receive` task. -/
lemma run_read {s : Listening} {i a a' item} (ha : s.accepted[i]? = some a)
    (hread : a.read crates crypto = some (a', item)) :
    Run (PooledStep crates crypto threads) s [.read i] (s.read i a' item) :=
  Run.single (.other (.read ha hread) nofun)

/-- All connections are accepted and all bytes arrive before a task takes a step. -/
lemma run_unread (received : List (SocketAddr × Bytes)) :
    ∃ es, Run (PooledStep crates crypto threads) new es (unread received) := by
  induction received using List.reverseRecOn with
  | nil => exact ⟨_, Run.single (.other (.bind rfl) fun _ e => by cases e)⟩
  | append_singleton received c ih =>
    obtain ⟨es, r⟩ := ih
    have hnew : ((unread received).accept c.1).accepted[received.length]? = some (.new c.1) := by
      simp [accept, unread]
    have hset : ((unread received).accept c.1).accepted.set received.length
        ((SocketStream.new c.1).arrive c.2) = (unread (received ++ [c])).accepted := by
      simp [accept, unread]
    have harrive : ListenStep crates crypto _ (.arrive received.length c.2) _ := .arrive hnew rfl
    rw [hset] at harrive
    have haccept : ListenStep crates crypto (unread received) (.accept c.1)
        ((unread received).accept c.1) := .accept rfl
    exact ⟨_, (r.tail (.other haccept fun _ e => by cases e)).tail
      (.other harrive fun _ e => by cases e)⟩

variable {crates crypto}

/-- The tasks can read all that arrived before anything else happens. -/
lemma exists_onlyRead (s : Listening) : ∃ es s', Run (PooledStep crates crypto threads) s es s' ∧
    s.OnlyRead s' ∧ ∀ a ∈ s'.accepted, a.read crates crypto = none := by
  induction hn : s.remaining using Nat.strong_induction_on generalizing s with
  | _ n ih =>
    by_cases hall : ∀ a ∈ s.accepted, a.read crates crypto = none
    · exact ⟨[], s, .refl, .refl s, hall⟩
    · simp only [not_forall] at hall
      obtain ⟨a, hmem, hne⟩ := hall
      obtain ⟨i, ha⟩ := List.getElem?_of_mem hmem
      obtain ⟨⟨a', item⟩, hread⟩ := Option.ne_none_iff_exists'.mp hne
      have hlt := remaining_lt crates crypto (.read ha hread) trivial
      obtain ⟨es, s', r, honly, hrest⟩ := ih _ (hn ▸ hlt) (s.read i a' item) rfl
      exact ⟨_, s', (run_read crates crypto threads ha hread).append r, (onlyRead_read ha hread).trans honly,
        hrest⟩

/-- The task of a connection can go on to its next item before anything else happens. -/
lemma exists_next {s : Listening} (h : s.Inv crates crypto) {i a d more} (ha : s.accepted[i]? = some a)
    (hnext : (receive crates crypto a.remoteAddr receiverHeld a.arrived).delivered =
      s.sentBy i ++ d :: more) :
    ∃ es s', Run (PooledStep crates crypto threads) s es s' ∧ s.OnlyRead s' ∧
      s'.sent = s.sent ++ [(i, d)] := by
  induction hn : s.remaining using Nat.strong_induction_on generalizing s a with
  | _ n ih =>
    have hheld := h.held i a ha
    cases hread : a.read crates crypto with
    | none =>
      -- a task that waits has sent all of its items
      have hall := hheld.of_read_eq_none crates crypto hread
      rw [hnext] at hall
      exact absurd hall.symm (by simp)
    | some read =>
      obtain ⟨a', item⟩ := read
      have hstep := ListenStep.read ha hread
      have hinv := inv_step crates crypto h hstep
      have hsent := sentBy_read s i a' item i
      rw [if_pos rfl] at hsent
      have ha' : (s.read i a' item).accepted[i]? = some a' := by
        obtain ⟨hi, _⟩ := List.getElem?_eq_some_iff.mp ha
        rw [read, List.getElem?_set_self hi]
      obtain ⟨haddr, harrived, _⟩ := kept_read hread
      have hnext' : (receive crates crypto a'.remoteAddr receiverHeld a'.arrived).delivered =
          s.sentBy i ++ d :: more := by
        rw [haddr, harrived, hnext]
      cases item with
      | none =>
        rw [Option.toList_none, List.append_nil] at hsent
        have hlt := remaining_lt crates crypto hstep trivial
        obtain ⟨es, s', r, honly, hs'⟩ := ih _ (hn ▸ hlt) hinv ha' (by rw [hsent, hnext']) rfl
        refine ⟨_, s', (run_read crates crypto threads ha hread).append r,
          (onlyRead_read ha hread).trans honly, ?_⟩
        rw [hs', read, Option.toList_none, List.map_nil, List.append_nil]
      | some item =>
        -- it is the next one that `receive` delivers
        have hprefix := (hinv.held i a' ha').isPrefix crates crypto
        rw [hsent, hnext', Option.toList_some, List.prefix_append_right_inj, List.singleton_prefix_cons_iff]
          at hprefix
        subst hprefix
        exact ⟨_, _, run_read crates crypto threads ha hread, onlyRead_read ha hread, rfl⟩

/-- The connections can send their items in any order that keeps those of each in theirs. -/
lemma exists_sent {s : Listening} (h : s.Inv crates crypto) {items}
    (hsent : Interleaved crates crypto s.received (s.sent ++ items)) :
    ∃ es s', Run (PooledStep crates crypto threads) s es s' ∧ s.OnlyRead s' ∧
      s'.sent = s.sent ++ items := by
  induction items generalizing s with
  | nil => exact ⟨[], s, .refl, .refl s, (List.append_nil _).symm⟩
  | cons item items ih =>
    obtain ⟨i, d⟩ := item
    have hi : i < s.accepted.length := by
      have hknown := hsent.known (i, d) (List.mem_append_right _ List.mem_cons_self)
      rwa [received, List.length_map] at hknown
    have ha := List.getElem?_eq_getElem hi
    have hnext := hsent.inOrder i _ (by rw [received, List.getElem?_map, ha]; rfl)
    have hfirst : ((i, d) :: items).filter (·.1 = i) = (i, d) :: items.filter (·.1 = i) :=
      List.filter_cons_of_pos (by simp)
    rw [List.filter_append, hfirst, List.map_append] at hnext
    obtain ⟨es, s', r, honly, hs'⟩ := exists_next threads h ha hnext.symm
    have hinv' : s'.Inv crates crypto := (PooledStep.run r).invariant h (inv_step crates crypto)
    have hsent' : Interleaved crates crypto s'.received (s'.sent ++ items) := by
      rw [honly.received, hs', List.append_assoc]
      exact hsent
    obtain ⟨es', s'', r', honly', hs''⟩ := ih hinv' hsent'
    refine ⟨_, s'', r.append r', honly.trans honly', ?_⟩
    rw [hs'', hs', List.append_assoc, List.singleton_append]

variable (crates crypto)

/-- The task of `listen` takes all items off the channel. -/
lemma run_recv (s : Listening) : ∃ es, Run (PooledStep crates crypto threads) s es
    { s with channel := [], blocking := s.blocking ++ s.channel } := by
  obtain ⟨bound, accepted, sent, channel, blocking, queue, called⟩ := s
  induction channel generalizing blocking with
  | nil =>
    rw [List.append_nil]
    exact ⟨[], .refl⟩
  | cons item rest ih =>
    obtain ⟨es, r⟩ := ih (blocking ++ [item])
    rw [List.append_assoc] at r
    exact ⟨_, (Run.single (.other (.recv rfl) nofun)).append r⟩

variable {threads}

/-- The blocking tasks post what can be taken of their items. -/
lemma run_post {items left : List (ℕ × Delivery)} (s : Listening) (h : Taken threads s.blocking items left) :
    ∃ es, Run (PooledStep crates crypto threads) s es
      { s with blocking := left, queue := s.queue ++ items } := by
  obtain ⟨bound, accepted, sent, channel, blocking, queue, called⟩ := s
  change Taken threads blocking items left at h
  induction h generalizing queue with
  | nil l =>
    rw [List.append_nil]
    exact ⟨[], .refl⟩
  | @cons pre item post items left hwindow _ ih =>
    obtain ⟨es, r⟩ := ih (queue ++ [item])
    rw [List.append_assoc] at r
    exact ⟨_, (Run.single (.post rfl hwindow)).append r⟩

variable (threads)

/-- The JavaScript thread makes all calls in the queue. -/
lemma run_call (s : Listening) : ∃ es, Run (PooledStep crates crypto threads) s es
    { s with queue := [], called := s.called ++ s.queue } := by
  obtain ⟨bound, accepted, sent, channel, blocking, queue, called⟩ := s
  induction queue generalizing called with
  | nil =>
    rw [List.append_nil]
    exact ⟨[], .refl⟩
  | cons item rest ih =>
    obtain ⟨es, r⟩ := ih (called ++ [item])
    rw [List.append_assoc] at r
    exact ⟨_, (Run.single (.other (.call rfl) nofun)).append r⟩

variable {threads}

/-- There is an order in which the connections can send their items. -/
lemma exists_interleaved (received : List (SocketAddr × Bytes)) :
    ∃ sent, Interleaved crates crypto received sent := by
  obtain ⟨_, r⟩ := run_unread crates crypto 0 received
  obtain ⟨_, s, r', honly, hread⟩ := @exists_onlyRead crates crypto 0 (unread received)
  have hsent := (inv_run crates crypto (PooledStep.run (r.append r'))).interleaved hread
  rw [honly.received, received_unread] at hsent
  exact ⟨_, hsent⟩

/-- What can be taken of the items, as the connections can send them, can be called back, and nothing
    but the rest of it is left to do. -/
lemma exists_called {received : List (SocketAddr × Bytes)} {sent items left}
    (hsent : Interleaved crates crypto received sent) (htaken : Taken threads sent items left) :
    ∃ es s, Run (PooledStep crates crypto threads) new es s ∧ s.received = received ∧ s.called = items ∧
      s.pending = left ∧ ∀ a ∈ s.accepted, a.read crates crypto = none := by
  obtain ⟨es₀, r₀⟩ := run_unread crates crypto threads received
  have hinv₀ := inv_run crates crypto (PooledStep.run r₀)
  have hsent₀ : Interleaved crates crypto (unread received).received ((unread received).sent ++ sent) := by
    rw [received_unread]
    exact hsent
  obtain ⟨es₁, s₁, r₁, honly₁, hsent₁⟩ := exists_sent threads hinv₀ hsent₀
  obtain ⟨es₂, s₂, r₂, honly₂, hread⟩ := @exists_onlyRead crates crypto threads s₁
  have honly := honly₁.trans honly₂
  have hreceived : s₂.received = received := honly.received.trans (received_unread received)
  have r := (r₀.append r₁).append r₂
  -- all items are in the channel, in the order in which they were to be sent
  have hsent₂ : s₂.sent = sent := by
    have hall := (inv_run crates crypto (PooledStep.run r)).interleaved hread
    rw [hreceived] at hall
    have hfirst : sent <+: s₂.sent := by
      have hfirst := honly₂.sent
      rwa [hsent₁] at hfirst
    exact (hfirst.eq_of_length (hsent.perm.trans hall.perm.symm).length_eq).symm
  have hqueue : s₂.queue = [] := honly.queue
  have hcalled : s₂.called = [] := honly.called
  have hblocking : s₂.blocking = [] := honly.blocking
  have hchannel : s₂.channel = sent := by
    have htaken := PooledStep.taken_run r
    rw [hqueue, hcalled, hblocking, List.append_nil, List.nil_append, hsent₂] at htaken
    exact htaken.eq_of_nil
  let s₃ : Listening := { s₂ with channel := [], blocking := s₂.blocking ++ s₂.channel }
  have htaken₃ : Taken threads s₃.blocking items left := by
    show Taken threads (s₂.blocking ++ s₂.channel) items left
    rw [hblocking, hchannel]
    exact htaken
  obtain ⟨es₃, r₃⟩ := run_recv crates crypto threads s₂
  obtain ⟨es₄, r₄⟩ := run_post crates crypto s₃ htaken₃
  obtain ⟨es₅, r₅⟩ := run_call crates crypto threads
    { s₃ with blocking := left, queue := s₃.queue ++ items }
  refine ⟨_, _, ((r.append r₃).append r₄).append r₅, hreceived, ?_, ?_, hread⟩
  · show s₂.called ++ (s₂.queue ++ items) = items
    rw [hcalled, hqueue]
    rfl
  · show [] ++ left ++ [] = left
    rw [List.nil_append, List.append_nil]

end Listening

section
variable (crates crypto threads) (received : List (SocketAddr × Bytes)) (items : List (ℕ × Delivery))

/-- The calls that there can have been. -/
lemma called_iff_taken : (∃ es s, Run (PooledStep crates crypto threads) .new es s ∧
    s.received = received ∧ s.called = items) ↔
      ∃ sent left, Interleaved crates crypto received sent ∧ Taken threads sent items left := by
  constructor
  · rintro ⟨es, s, r, rfl, rfl⟩
    -- the rest is read, and nothing else happens
    obtain ⟨es', s', r', honly, hread⟩ := @Listening.exists_onlyRead crates crypto threads s
    have hrun := r.append r'
    have hsent := (Listening.inv_run crates crypto (PooledStep.run hrun)).interleaved hread
    have htaken := PooledStep.taken_run hrun
    rw [honly.called] at htaken
    rw [honly.received] at hsent
    obtain ⟨left, hleft⟩ := htaken.of_append
    exact ⟨_, left, hsent, hleft⟩
  · rintro ⟨sent, left, hsent, htaken⟩
    obtain ⟨es, s, r, hreceived, hcalled, _⟩ := Listening.exists_called crates crypto hsent htaken
    exact ⟨es, s, r, hreceived, hcalled⟩

/-- The calls that there can have been when nothing is left to do. -/
lemma called_iff_taken_idle : (∃ es s, Run (PooledStep crates crypto threads) .new es s ∧
    s.Idle crates crypto ∧ s.received = received ∧ s.called = items) ↔
      ∃ sent, Interleaved crates crypto received sent ∧ Taken threads sent items [] := by
  constructor
  · rintro ⟨es, s, r, hidle, rfl, rfl⟩
    obtain ⟨hread, hpending⟩ := (Listening.idle_iff crates crypto).mp hidle
    have hsent := (Listening.inv_run crates crypto (PooledStep.run r)).interleaved hread
    have htaken := PooledStep.taken_run r
    obtain ⟨hrest, hchannel⟩ := List.append_eq_nil_iff.mp hpending
    obtain ⟨hqueue, hblocking⟩ := List.append_eq_nil_iff.mp hrest
    rw [hqueue, hblocking, hchannel, List.append_nil, List.append_nil] at htaken
    exact ⟨_, hsent, htaken⟩
  · rintro ⟨sent, hsent, htaken⟩
    obtain ⟨es, s, r, hreceived, hcalled, hpending, hread⟩ :=
      Listening.exists_called crates crypto hsent htaken
    exact ⟨es, s, r, (Listening.idle_iff crates crypto).mpr ⟨hread, hpending⟩, hreceived, hcalled⟩

variable {crates crypto threads received items}

/-- With a thread for each item, any selection of the items can be taken in any order. -/
lemma taken_iff_subperm (hroom : (deliveries crates crypto received).length ≤ threads) :
    (∃ sent left, Interleaved crates crypto received sent ∧ Taken threads sent items left) ↔
      items.Subperm (deliveries crates crypto received) := by
  constructor
  · rintro ⟨sent, left, hsent, htaken⟩
    have hperm := htaken.perm.symm.trans hsent.perm
    exact (List.sublist_append_left items left).subperm.trans hperm.subperm
  · rintro ⟨chosen, hchosen, hsub⟩
    obtain ⟨left, hleft⟩ := hsub.exists_perm_append
    obtain ⟨sent, hsent⟩ := Listening.exists_interleaved crates crypto received
    have hall := (hsent.perm.trans hleft).trans (hchosen.append_right left)
    obtain ⟨left', htaken, _⟩ := taken_of_perm hall (hsent.perm.length_eq ▸ hroom)
    exact ⟨sent, left', hsent, htaken⟩

/-- And all of them can be. -/
lemma taken_iff_perm (hroom : (deliveries crates crypto received).length ≤ threads) :
    (∃ sent, Interleaved crates crypto received sent ∧ Taken threads sent items []) ↔
      items.Perm (deliveries crates crypto received) := by
  constructor
  · rintro ⟨sent, hsent, htaken⟩
    have hperm := htaken.perm
    rw [List.append_nil] at hperm
    exact hperm.symm.trans hsent.perm
  · intro h
    obtain ⟨sent, hsent⟩ := Listening.exists_interleaved crates crypto received
    have hall : sent.Perm (items ++ []) := by
      rw [List.append_nil]
      exact hsent.perm.trans h.symm
    obtain ⟨left, htaken, hleft⟩ := taken_of_perm hall (hsent.perm.length_eq ▸ hroom)
    rw [hleft.eq_nil] at htaken
    exact ⟨sent, hsent, htaken⟩

end

/-- **The order of the callbacks.** A listener on whose connections given bytes have arrived can have
    made these calls, with so many threads for its blocking tasks, exactly when they can be taken, each
    among as many as there are threads, from what `receive` delivers in some order in which the
    connections can send it; and when nothing is left to do, exactly when this is all of it. While there
    are no more items than threads, these are the selections of what `receive` delivers in any order,
    and all of it in any order. -/
theorem called_iff (crates : Crates) (crypto : ShardusCrypto) (threads : ℕ)
    (received : List (SocketAddr × Bytes)) (items : List (ℕ × Delivery)) :
    ((∃ es s, Run (PooledStep crates crypto threads) .new es s ∧ s.received = received ∧
        s.called = items) ↔
      ∃ sent left, Interleaved crates crypto received sent ∧ Taken threads sent items left) ∧
    ((∃ es s, Run (PooledStep crates crypto threads) .new es s ∧ s.Idle crates crypto ∧
        s.received = received ∧ s.called = items) ↔
      ∃ sent, Interleaved crates crypto received sent ∧ Taken threads sent items []) ∧
    ((deliveries crates crypto received).length ≤ threads →
      ((∃ es s, Run (PooledStep crates crypto threads) .new es s ∧ s.received = received ∧
          s.called = items) ↔
        items.Subperm (deliveries crates crypto received)) ∧
      ((∃ es s, Run (PooledStep crates crypto threads) .new es s ∧ s.Idle crates crypto ∧
          s.received = received ∧ s.called = items) ↔
        items.Perm (deliveries crates crypto received))) := by
  refine ⟨called_iff_taken .., called_iff_taken_idle .., fun hroom => ⟨?_, ?_⟩⟩
  · exact (called_iff_taken ..).trans (taken_iff_subperm hroom)
  · exact (called_iff_taken_idle ..).trans (taken_iff_perm hroom)

end

end ShardusNet.Wire
