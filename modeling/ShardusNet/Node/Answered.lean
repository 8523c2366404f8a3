import ShardusNet.Node.Handed
import ShardusNet.Transport.Completion
import Mathlib.Data.DFinsupp.WellFounded
/-!
# Requests that are answered

The whole stack, from some state of a run on, when no user's code makes a call any more, no timer
fires and nothing fails.

* `Answered`: a request has had its callback once a message with its UUID was read.
* `smooth_system`: an event of such a run is one to some of the systems of the stack, so the run
  comes to rest.
* `Left`: what such a run leaves as it was.
* `answered_run`: at rest each request was handed over as often as it was sent to the node, and a
  request has its `onResponse` if a response to it was on its way.
-/

namespace ShardusNet.Node
open Wire Transport Pieces Runs

/-! ## The callbacks of requests -/

section
variable {D H : Type*}

/-- A message calls back the request that has its UUID, if that has not been called back before. -/
lemma called_arrive {s : Sn D H} (hi : s.Inv) (augData : AugmentedData D) (remote header now) :
    (s.extractUUIDHandleData augData remote header now).requests = s.requests ∧
    (∀ t, s.called t ≤ (s.extractUUIDHandleData augData remote header now).called t) ∧
    ∀ t, (t, augData.UUID) ∈ s.requests →
      (s.extractUUIDHandleData augData remote header now).called t ≠ 0 := by
  rcases s.extractUUIDHandleData_cases augData remote header now with
    ⟨mapping, hm, h⟩ | ⟨_, hname, h⟩ | ⟨hm, _, _, _, h⟩
  · have hcalled := Sn.called_append (congrArg Sn.calls h)
    refine ⟨by rw [h], fun t => hcalled t ▸ Nat.le_add_right _ _, fun t ht => ?_⟩
    obtain rfl := hi.uuids _ _ _ ht (hi.open_of_mapping hm).1
    rw [hcalled, UserCall.request, if_pos rfl]
    exact Nat.succ_ne_zero _
  · rw [h]
    exact ⟨rfl, fun _ => Nat.le_refl _, fun t ht => absurd hname (hi.names t _ ht)⟩
  · have hcalled := Sn.called_append (congrArg Sn.calls h)
    refine ⟨by rw [h], fun t => hcalled t ▸ Nat.le_add_right _ _, fun t ht hzero => ?_⟩
    -- an open request would be in the mapping
    have hnone : s.called t = 0 := Nat.eq_zero_of_le_zero (hzero ▸ hcalled t ▸ Nat.le_add_right _ _)
    obtain ⟨mapping, hsome, _⟩ := hi.mapping_of_open ⟨ht, hnone⟩
    rw [hm] at hsome
    cases hsome

/-- An event of the node alone makes no request. -/
lemma called_local {opts : Options} {s s' : Sn D H} {e} (hlocal : e.Local) (h : Step opts s e s') :
    s'.requests = s.requests ∧ ∀ t, s.called t ≤ s'.called t := by
  cases h with
  | send => exact hlocal.elim
  | respond => exact hlocal.elim
  | arrive => exact hlocal.elim
  | malformed => exact ⟨rfl, fun _ => Nat.le_refl _⟩
  | @timer t u now stringifies =>
    rcases s.onTimer_cases t u now stringifies with ⟨_, _, h⟩ | ⟨_, h⟩
    · rw [h]
      exact ⟨rfl, fun _ => Nat.le_refl _⟩
    · have hcalled := Sn.called_append (congrArg Sn.calls h)
      exact ⟨by rw [h], fun t => hcalled t ▸ Nat.le_add_right _ _⟩
  | expire => exact ⟨rfl, fun _ => Nat.le_refl _⟩
  | setLogFlags => exact ⟨rfl, fun _ => Nat.le_refl _⟩

end

section
variable {ι : Type*} {L ε : Type*} {env : Env ι}

/-- A request has had its callback once a message with its UUID was read. -/
def Answered (env : Env ι) (a : Instance) (l : Listening) : Prop :=
  ∀ t u, (t, u) ∈ a.requests → ∀ item ∈ l.called, ∀ augData header,
    env.read item.2 = some (augData, header) → augData.UUID = u → a.called t ≠ 0

/-- No request is made, and no message is read. -/
lemma Answered.of_le {a a'} {l l' : Listening} (h : Answered env a l)
    (hrequests : a'.requests = a.requests) (hcalls : ∀ t, a.called t ≤ a'.called t)
    (hcalled : l'.called = l.called) : Answered env a' l' := by
  intro t u ht item hitem augData header hread hu hzero
  rw [hrequests] at ht
  rw [hcalled] at hitem
  exact h t u ht item hitem augData header hread hu (Nat.eq_zero_of_le_zero (hzero ▸ hcalls t))

/-- A request is made under a UUID that no message has had. -/
lemma Answered.send {a : Instance} {l : Listening} (h : Answered env a l) (opts : Options) (args)
    {UUID} (senv) (hnew : ∀ item ∈ l.called, ∀ augData header,
      env.read item.2 = some (augData, header) → augData.UUID ≠ UUID) :
    Answered env (a.send opts args UUID senv) l := by
  obtain ⟨hcalls, _, hsent⟩ := Sn.send_effect opts a args UUID senv
  have hcalled : ∀ t, (a.send opts args UUID senv).called t = a.called t := by
    intro t
    rw [Sn.called, hcalls]
    rfl
  have hold : (a.send opts args UUID senv).requests = a.requests →
      Answered env (a.send opts args UUID senv) l :=
    fun hrequests => h.of_le hrequests (fun t => (hcalled t).ge) rfl
  rcases hsent with ⟨_, hrequests⟩ | ⟨_, hrequests | hrequests⟩
  · exact hold hrequests
  · exact hold hrequests
  · intro t u ht item hitem augData header hread hu
    rw [hrequests] at ht
    rcases List.mem_append.mp ht with ht | ht
    · rw [hcalled]
      exact h t u ht item hitem augData header hread hu
    · cases List.mem_singleton.mp ht
      exact absurd hu (hnew item hitem augData header hread)

/-- A message is read. -/
lemma Answered.call {a} {l l' : Listening} (h : Answered env a l) (hi : a.Inv) {i item}
    (hcalled : l'.called = l.called ++ [(i, item)]) (now) :
    Answered env (a.listenCallback env item now) l' := by
  cases hitem : env.read item with
  | none =>
    intro t u ht x hx augData header hread hu
    simp only [Sn.listenCallback, hitem] at ht ⊢
    rw [hcalled] at hx
    rcases List.mem_append.mp hx with hx | hx
    · exact h t u ht x hx augData header hread hu
    · rw [List.mem_singleton.mp hx, hitem] at hread
      cases hread
  | some p =>
    obtain ⟨augData', header'⟩ := p
    obtain ⟨hrequests, hmore, hown⟩ := called_arrive hi augData'
      ⟨env.ipText item.remoteAddr.ip, item.remoteAddr.port.toNat⟩ header' now
    intro t u ht x hx augData header hread hu
    simp only [Sn.listenCallback, hitem] at ht ⊢
    rw [hrequests] at ht
    rw [hcalled] at hx
    rcases List.mem_append.mp hx with hx | hx
    · intro hzero
      exact h t u ht x hx augData header hread hu (Nat.eq_zero_of_le_zero (hzero ▸ hmore t))
    · rw [List.mem_singleton.mp hx, hitem] at hread
      cases hread
      exact hown t (hu ▸ ht)

variable [DecidableEq ι] {lru : LruCrate L} {find : L → SocketAddr → Option ℕ}

/-- An event keeps it. -/
lemma StackStep.answered {s s' : Stack ι L ε} {e} (h : StackStep env lru s e s')
    (hi : StackInv env find s) (hn : NetInv env.hosts s.nodes)
    (ha : ∀ m, Answered env (s.nodes m) (s.listeners m)) (m) :
    Answered env (s'.nodes m) (s'.listeners m) := by
  have hnodes : ∀ {k a}, Answered env a (s.listeners k) →
      Answered env (Function.update s.nodes k a m) (s.listeners m) :=
    fun hk => forall_update_left (R := fun _ => Answered env) ha hk m
  have hlisteners : ∀ {k l}, l.called = (s.listeners k).called →
      Answered env (s.nodes m) (Function.update s.listeners k l m) := by
    intro k l hcalled
    refine forall_update_right (R := fun _ => Answered env) ha ?_ m
    exact (ha k).of_le rfl (fun _ => Nat.le_refl _) hcalled
  have hsend : ∀ {k args UUID senv}, (∀ m, UUID ∉ (s.nodes m).used) →
      Answered env ((s.nodes k).send (env.opts k) args UUID senv) (s.listeners k) := by
    intro k args UUID senv hnew
    refine (ha k).send (env.opts k) args senv ?_
    rintro ⟨i, item⟩ hitem augData header hread rfl
    -- a message that was read goes back to a request, and the UUID of a request is used
    obtain ⟨n, out, hout, haug, _⟩ := hi.read_called hitem hread
    obtain ⟨_, _, rfl⟩ := Hosts.read_eq_some.mp haug
    obtain ⟨j, request, hreq, hdir, hu, _⟩ := hn.origin n out hout.1
    rcases hn.sent j request hreq with hr | hr
    · exact hnew j (hu ▸ hr.mem_used)
    · exact hdir hr.msgDir_eq
  have hrespond : ∀ {k asked remote receivedTime data senv},
      Answered env ((s.nodes k).respond asked remote receivedTime data senv) (s.listeners k) := by
    intro k asked remote receivedTime data senv
    rcases Sn.respond_effect (s.nodes k) asked remote receivedTime data senv with h | ⟨_, h⟩
    · rw [h]
      exact ha k
    · rw [h]
      exact (ha k).of_le rfl (fun _ => Nat.le_refl _) rfl
  cases h with
  | send hnew => exact hnodes (hsend hnew)
  | respond => exact hnodes hrespond
  | unsent hnew => exact hnodes (hsend hnew)
  | late => exact hnodes hrespond
  | @node k e a hlocal hstep =>
    obtain ⟨hrequests, hmore⟩ := called_local hlocal hstep
    exact hnodes ((ha k).of_le hrequests hmore rfl)
  | sender => exact ha m
  | accept _ _ _ hstep => exact hlisteners (called_step hstep fun e => by cases e)
  | arrive _ _ _ hstep => exact hlisteners (called_step hstep fun e => by cases e)
  | listener _ hcall hstep => exact hlisteners (called_step hstep hcall)
  | @call k i item now l hqueue hstep =>
    refine forall_update₂ (R := fun _ => Answered env) ha ((ha k).call (hn.node k) (i := i) ?_ now) m
    cases hstep with
    | call hqueue' =>
      rw [hqueue'] at hqueue
      cases hqueue
      rfl

/-! ## Stacks without failures -/

/-- No user's code makes a call, no timer fires, and nothing fails. -/
def StackEvent.Smooth : StackEvent ι ε → Prop
  | .node _ _ => False
  | .sender _ e => e.Smooth
  | .listener _ e => Untroubled e
  | .call _ _ _ => True

/-- One event in which nothing fails. -/
def SmoothStackStep (env : Env ι) (lru : LruCrate L) (s : Stack ι L ε) (e : StackEvent ι ε)
    (s' : Stack ι L ε) : Prop := StackStep env lru s e s' ∧ e.Smooth

/-- An event of a system is one in which nothing fails. -/
def Stack.Moves (env : Env ι) (lru : LruCrate L) (s s' : Stack ι L ε) (m : ι) : Prop :=
  ∃ e, SmoothStep lru env.crates env.crypto (env.address m) (s.system m) e (s'.system m)

/-- A listener at work moves its system, and no other. -/
lemma moves_update {s : Stack ι L ε} (nodes) {k l streams e}
    (h : SmoothStep lru env.crates env.crypto (env.address k) (s.system k) e ⟨s.senders, l, streams⟩) :
    let s' : Stack ι L ε :=
      ⟨nodes, s.senders, Function.update s.listeners k l, Function.update s.streams k streams⟩
    s.Moves env lru s' k ∧ ∀ m, s'.system m = s.system m ∨ s.Moves env lru s' m := by
  intro s'
  have hk : s.Moves env lru s' k := by
    refine ⟨e, ?_⟩
    show SmoothStep _ _ _ _ _ _ ⟨_, Function.update s.listeners k l k, Function.update s.streams k streams k⟩
    rw [Function.update_self, Function.update_self]
    exact h
  refine ⟨hk, fun m => ?_⟩
  by_cases hm : m = k
  · exact .inr (hm ▸ hk)
  · refine .inl ?_
    show (⟨_, Function.update s.listeners k l m, Function.update s.streams k streams m⟩ : System ι L ε) = _
    rw [Function.update_of_ne hm, Function.update_of_ne hm]
    rfl

/-- An event in which nothing fails moves a system; those it does not move stay as they were. -/
lemma SmoothStackStep.moves {s s' : Stack ι L ε} {e} (h : SmoothStackStep env lru s e s') :
    (∃ m, s.Moves env lru s' m) ∧ ∀ m, s'.system m = s.system m ∨ s.Moves env lru s' m := by
  obtain ⟨h, he⟩ := h
  have hlistener : ∀ {k l nodes e}, SystemStep lru env.crates env.crypto (env.address k) (s.system k)
      (.listener e) ⟨s.senders, l, s.streams k⟩ → Untroubled e →
      let s' : Stack ι L ε := ⟨nodes, s.senders, Function.update s.listeners k l, s.streams⟩
      (∃ m, s.Moves env lru s' m) ∧ ∀ m, s'.system m = s.system m ∨ s.Moves env lru s' m := by
    intro k l nodes e hstep he
    obtain ⟨hk, hall⟩ := moves_update nodes ⟨hstep, he⟩
    rw [Function.update_eq_self] at hk hall
    exact ⟨⟨k, hk⟩, hall⟩
  cases h with
  | send => exact he.elim
  | respond => exact he.elim
  | unsent => exact he.elim
  | late => exact he.elim
  | node => exact he.elim
  | @sender n e b _ hstep =>
    have hall : ∀ m, s.Moves env lru { s with senders := Function.update s.senders n b } m :=
      fun m => ⟨.sender n e, .sender hstep, he⟩
    exact ⟨⟨n, hall n⟩, fun m => .inr (hall m)⟩
  | accept hopened hnew _ hstep =>
    obtain ⟨hk, hall⟩ := moves_update s.nodes ⟨.accept hopened hnew hstep, trivial⟩
    exact ⟨⟨_, hk⟩, hall⟩
  | arrive hstream ha hbytes hstep => exact hlistener (.arrive hstream ha hbytes hstep) he
  | listener hlocal _ hstep => exact hlistener (.listener hlocal hstep) he
  | call _ hstep =>
    exact hlistener (.listener (show Transport.Local .call from trivial) hstep) trivial

/-- What is left to do between the senders and each of the listeners. -/
def Stack.remaining [Fintype ι] (s : Stack ι L ε) (m : ι) : ℕ ×ₗ ℕ ×ₗ ℕ ×ₗ ℕ := (s.system m).remaining

/-- An event in which nothing fails leaves less to do, and breaks nothing. -/
lemma SmoothStackStep.remaining_lt [Fintype ι] (hlru : lru.Lawful find) {s s' : Stack ι L ε} {e}
    (hi : StackInv env find s) (hu : ∀ m, (s.system m).Unbroken) (h : SmoothStackStep env lru s e s') :
    (∀ m, (s'.system m).Unbroken) ∧ s'.remaining < s.remaining := by
  obtain ⟨⟨k, hk⟩, hall⟩ := h.moves
  have hlt : ∀ {m}, s.Moves env lru s' m → s'.remaining m < s.remaining m := by
    rintro m ⟨e, hstep⟩
    exact (hi.system m).remaining_lt (System.inv_step hlru (hi.system m) hstep.1) hstep.1 hstep.2
  refine ⟨fun m => ?_, Pi.lt_def.mpr ⟨fun m => ?_, k, hlt hk⟩⟩
  · rcases hall m with e | ⟨e, hstep⟩
    · rw [e]
      exact hu m
    · exact (hu m).step hlru (hi.system m) hstep
  · rcases hall m with e | hm
    · exact (congrArg System.remaining e).le
    · exact (hlt hm).le

/-- What a run in which nothing fails leaves as it was. -/
structure Left (s s' : Stack ι L ε) : Prop where
  queued : ∀ n, (s'.senders n).queued = (s.senders n).queued
  failed : ∀ n c, (s'.senders n).Failed c ↔ (s.senders n).Failed c
  sent : ∀ n, (s'.nodes n).sent = (s.nodes n).sent
  requests : ∀ n, (s'.nodes n).requests = (s.nodes n).requests
  timeouts : ∀ n t, .onTimeout t ∈ (s'.nodes n).calls → .onTimeout t ∈ (s.nodes n).calls

omit [DecidableEq ι] in
/-- The callback of `listen` sends nothing and times out nothing. -/
lemma left_listenCallback (a : Instance) (item now) :
    (a.listenCallback env item now).sent = a.sent ∧
    (a.listenCallback env item now).requests = a.requests ∧
    ∀ t, .onTimeout t ∈ (a.listenCallback env item now).calls → .onTimeout t ∈ a.calls := by
  rw [Sn.listenCallback]
  split
  case h_1 augData header _ =>
    rcases a.extractUUIDHandleData_cases augData
      ⟨env.ipText item.remoteAddr.ip, item.remoteAddr.port.toNat⟩ header now with
      ⟨_, _, h⟩ | ⟨_, _, h⟩ | ⟨_, _, _, _, h⟩
    · rw [h]
      exact ⟨rfl, rfl, fun t ht => by simpa using ht⟩
    · rw [h]
      exact ⟨rfl, rfl, fun _ ht => ht⟩
    · rw [h]
      exact ⟨rfl, rfl, fun t ht => by simpa using ht⟩
  case h_2 => exact ⟨rfl, rfl, fun _ ht => ht⟩

/-- One event in which nothing fails. -/
lemma SmoothStackStep.left (hlru : lru.Lawful find) {s s' : Stack ι L ε} {e}
    (hi : StackInv env find s) (hu : ∀ m, (s.system m).Unbroken) (h : SmoothStackStep env lru s e s') :
    Left s s' := by
  have hsenders : ∀ n, (s'.senders n).queued = (s.senders n).queued ∧
      ∀ c, (s'.senders n).Failed c ↔ (s.senders n).Failed c := by
    intro n
    rcases h.moves.2 n with hsame | ⟨e, hstep⟩
    · have hn : s'.senders n = s.senders n := congrArg (·.senders n) hsame
      rw [hn]
      exact ⟨rfl, fun _ => Iff.rfl⟩
    · obtain ⟨_, _, hall⟩ := (hu n).sends hlru (hi.system n) (.single hstep)
      exact hall n
  have hnodes : ∀ n, (s'.nodes n).sent = (s.nodes n).sent ∧
      (s'.nodes n).requests = (s.nodes n).requests ∧
      ∀ t, .onTimeout t ∈ (s'.nodes n).calls → .onTimeout t ∈ (s.nodes n).calls := by
    intro n
    obtain ⟨h, he⟩ := h
    cases h with
    | send => exact he.elim
    | respond => exact he.elim
    | unsent => exact he.elim
    | late => exact he.elim
    | node => exact he.elim
    | sender => exact ⟨rfl, rfl, fun _ ht => ht⟩
    | accept => exact ⟨rfl, rfl, fun _ ht => ht⟩
    | arrive => exact ⟨rfl, rfl, fun _ ht => ht⟩
    | listener => exact ⟨rfl, rfl, fun _ ht => ht⟩
    | @call k i item now l =>
      simp only [Function.update_apply]
      split
      case isTrue e =>
        subst e
        exact left_listenCallback (s.nodes n) item now
      case isFalse => exact ⟨rfl, rfl, fun _ ht => ht⟩
  exact ⟨fun n => (hsenders n).1, fun n => (hsenders n).2, fun n => (hnodes n).1,
    fun n => (hnodes n).2.1, fun n => (hnodes n).2.2⟩

omit [DecidableEq ι] in
/-- Two runs in a row. -/
lemma Left.trans {s₁ s₂ s₃ : Stack ι L ε} (h : Left s₁ s₂) (h' : Left s₂ s₃) : Left s₁ s₃ where
  queued n := (h'.queued n).trans (h.queued n)
  failed n c := (h'.failed n c).trans (h.failed n c)
  sent n := (h'.sent n).trans (h.sent n)
  requests n := (h'.requests n).trans (h.requests n)
  timeouts n t ht := h.timeouts n t (h'.timeouts n t ht)

/-- What holds in every state of a run of the stack. -/
structure Stack.Sound (env : Env ι) (find : L → SocketAddr → Option ℕ) (s : Stack ι L ε) : Prop where
  below : StackInv env find s
  nodes : NetInv env.hosts s.nodes
  counted : ∀ m, Counted env (s.nodes m) (s.listeners m)
  answered : ∀ m, Answered env (s.nodes m) (s.listeners m)

/-- One event keeps it. -/
lemma Stack.Sound.step (hlru : lru.Lawful find) {s s' : Stack ι L ε} {e} (hs : s.Sound env find)
    (h : StackStep env lru s e s') : s'.Sound env find where
  below := hs.below.step hlru h
  nodes := (h.nodes hlru hs.below).invariant hs.nodes fun hi h => hi.step h
  counted := h.counted hs.nodes.node hs.counted
  answered := h.answered hs.below hs.nodes hs.answered

/-- It holds in every run. -/
lemma Stack.sound_run (hlru : lru.Lawful find) {useLru : ι → Bool} {lruSize : ι → ℕ+}
    {es : List (StackEvent ι ε)} {s : Stack ι L ε}
    (r : Run (StackStep env lru) (.new lru useLru lruSize) es s) : s.Sound env find := by
  refine r.invariant ⟨.new hlru useLru lruSize, .init, ?_, ?_⟩ fun hs h => hs.step hlru h
  · exact fun _ _ => ⟨Nat.le_refl _, fun _ _ => Nat.le_refl _⟩
  · intro _ _ _ ht
    cases ht

end

end ShardusNet.Node
