import ShardusNet.Node.Dispatch
import Mathlib.Data.List.Pairwise
/-!
# A network of nodes

Any number of instances that send to each other. A message arrives at a node it was addressed to,
any number of times, at any time and in any order, or not at all. The user's code responds to what
it was handed, as often as it likes.

* `Hosts`: where the nodes listen, and how names resolve.
* `NetStep`: an event at one of the nodes.
* `NetInv`: every message that was sent is a request of its sender, or a response to a message that
  was handed to its sender; whatever was called was called for a message addressed to the node.
* `conversation`: what an `onResponse` says about the rest of the network.
-/

namespace ShardusNet.Node
open Runs

/-- Where nodes listen: the IP address that others see, and the destinations that lead to a node.
    Data is read as `parsed` says, if it is read at all. The port and the address of a node lead to
    it and to no other. -/
structure Hosts (ι D : Type*) where
  opts : ι → Options
  ip : ι → String
  leads : ℕ × String → ι → Prop
  parsed : D → Option D
  own : ∀ n k, leads ((opts n).PORT, ip n) k ↔ k = n

variable {ι D H : Type*}

/-- What is read of a message. -/
def Hosts.read (hosts : Hosts ι D) (augData : AugmentedData D) : Option (AugmentedData D) :=
  (hosts.parsed augData.data).map fun data => { augData with data }

/-- What is read is the message with its data parsed. -/
lemma Hosts.read_eq_some {hosts : Hosts ι D} {a b : AugmentedData D} :
    hosts.read a = some b ↔ ∃ data, hosts.parsed a.data = some data ∧ b = { a with data } := by
  rw [read, Option.map_eq_some_iff]
  constructor
  · intro ⟨data, hdata, e⟩
    exact ⟨data, hdata, e.symm⟩
  · intro ⟨data, hdata, e⟩
    exact ⟨data, hdata, e.symm⟩

/-- A message that `n` sent and that is addressed to `m`. -/
def Addressed (hosts : Hosts ι D) (s : ι → Sn D H) (n m : ι) (out : Outgoing D) : Prop :=
  out ∈ (s n).sent ∧ ∃ dest ∈ out.destinations, hosts.leads dest m

/-- It depends on the node alone. -/
def Event.Local : Event D H → Prop
  | .send .. => False
  | .respond .. => False
  | .arrive .. => False
  | _ => True

/-- One event at one node. UUIDs are new in the whole network; only what was handed to `handleData`
    can be responded to; a message comes from the IP address of its sender. -/
inductive NetStep [DecidableEq ι] (hosts : Hosts ι D) :
    (ι → Sn D H) → ι × Event D H → (ι → Sn D H) → Prop
  | send {s n args UUID env} (hnew : ∀ m, UUID ∉ (s m).used) (hname : UUID ∉ objectPrototypeNames) :
    NetStep hosts s (n, .send args UUID env)
      (Function.update s n ((s n).send (hosts.opts n) args UUID env))
  | respond {s n augData remote header receivedTime data env}
    (hhandled : .handleData augData remote header ∈ (s n).calls) :
    NetStep hosts s (n, .respond augData remote receivedTime data env)
      (Function.update s n ((s n).respond augData remote receivedTime data env))
  | arrive {s n m out augData remote header now} (hout : Addressed hosts s n m out)
    (hread : hosts.read out.augData = some augData) (hremote : remote.address = hosts.ip n) :
    NetStep hosts s (m, .arrive augData remote header now)
      (Function.update s m ((s m).extractUUIDHandleData augData remote header now))
  | other {s n e s'} (hlocal : e.Local) (hstep : Step (hosts.opts n) (s n) e s') :
    NetStep hosts s (n, e) (Function.update s n s')

/-! ## What a node sends -/

/-- What `send` hands to the binding. -/
def requestOf (opts : Options) (args : SendArgs D) (UUID : String) (now : ℤ) : Outgoing D where
  destinations := args.destinations
  withHeader := args.withHeader
  augData := newAugData args.data UUID opts.PORT opts.ADDRESS args.timeout
    (if args.onResponse then .ask else .tell) now

/-- What `respond` hands to the binding. -/
def responseOf (asked : AugmentedData D) (remote : RemoteSender) (receivedTime replyTime : ℤ)
    (data : D) :
    Outgoing D where
  destinations := [(asked.PORT, remote.address)]
  withHeader := true
  augData :=
    { data
      UUID := asked.UUID
      PORT := asked.PORT
      ADDRESS := none
      sendTime := asked.sendTime
      receivedTime
      replyTime
      replyReceivedTime := 0
      timeout := none
      msgDir := .resp }

/-- A request of the node. -/
def IsRequest (opts : Options) (s : Sn D H) (out : Outgoing D) : Prop :=
  ∃ args UUID now, out = requestOf opts args UUID now ∧ UUID ∈ s.used

/-- A response to a message that was handed to the node, in time unless that was a response too. -/
def IsResponse (s : Sn D H) (out : Outgoing D) : Prop :=
  ∃ asked remote header receivedTime replyTime data,
    .handleData asked remote header ∈ s.calls ∧
    out = responseOf asked remote receivedTime replyTime data ∧
    ∀ timeout, asked.timeout = some timeout → replyTime ≤ asked.sendTime + timeout

/-- A request is no response. -/
lemma msgDir_requestOf (opts : Options) (args : SendArgs D) (UUID now) :
    (requestOf opts args UUID now).augData.msgDir ≠ .resp := by
  cases hr : args.onResponse <;> simp [requestOf, newAugData, hr]

/-- The UUID of a request is used up. -/
lemma IsRequest.mem_used {opts} {s : Sn D H} {out} (h : IsRequest opts s out) :
    out.augData.UUID ∈ s.used := by
  obtain ⟨args, UUID, now, rfl, hu⟩ := h
  exact hu

namespace Sn

/-- What a send does: it sends its request or nothing, and makes it a request that is waited for
    only if it sends it. -/
lemma send_effect (opts : Options) (s : Sn D H) (args : SendArgs D) (UUID env) :
    (s.send opts args UUID env).calls = s.calls ∧
      (s.send opts args UUID env).used = UUID :: s.used ∧
    ((s.send opts args UUID env).sent = s.sent ∧ (s.send opts args UUID env).requests = s.requests ∨
      (s.send opts args UUID env).sent = s.sent ++ [requestOf opts args UUID env.now] ∧
        ((s.send opts args UUID env).requests = s.requests ∨
          (s.send opts args UUID env).requests = s.requests ++ [(s.nextTimer, UUID)])) := by
  rcases sendAug_cases { s with used := UUID :: s.used } args.destinations args.withHeader
    (newAugData args.data UUID opts.PORT opts.ADDRESS args.timeout
      (if args.onResponse then .ask else .tell) env.now) args.timeout env with h | ⟨_, h⟩ | ⟨_, h⟩
  · rw [send, h]
    exact ⟨rfl, rfl, .inl ⟨rfl, rfl⟩⟩
  · rw [send, h]
    exact ⟨rfl, rfl, .inr ⟨rfl, .inl rfl⟩⟩
  · rw [send, h]
    exact ⟨rfl, rfl, .inr ⟨rfl, .inr rfl⟩⟩

/-- What a response does: it sends it or nothing, and it sends it in time. -/
lemma respond_effect (s : Sn D H) (asked : AugmentedData D) (remote receivedTime data env) :
    s.respond asked remote receivedTime data env = s ∨
      (∀ timeout, asked.timeout = some timeout → env.now ≤ asked.sendTime + timeout) ∧
        s.respond asked remote receivedTime data env =
          { s with sent := s.sent ++ [responseOf asked remote receivedTime env.now data] } := by
  unfold respond
  extract_lets replyTime late sendData
  by_cases hlate : late = true
  · exact .inl (if_pos hlate)
  · rw [if_neg hlate]
    rcases sendAug_cases s [(asked.PORT, remote.address)] true sendData 0 env with
      h | ⟨_, h⟩ | ⟨h, _⟩
    · exact .inl h
    · refine .inr ⟨fun timeout htimeout => ?_, h⟩
      have hin : ¬ replyTime > asked.sendTime + timeout := by
        simpa only [late, htimeout, decide_eq_true_eq] using hlate
      exact Int.not_lt.mp hin
    · exact absurd rfl h

end Sn

/-! ## What one event adds -/

section Adds
variable {hosts : Hosts ι D} {s : ι → Sn D H} {n : ι} {s₁ : Sn D H}

/-- The message a call of the user's code was made for. -/
def Justified (hosts : Hosts ι D) (s : ι → Sn D H) (n : ι) : UserCall D H → Prop
  | .onTimeout _ => True
  | .handleData asked remote _ =>
    ∃ m out, Addressed hosts s m n out ∧ hosts.read out.augData = some asked ∧
      remote.address = hosts.ip m
  | .onResponse t data _ =>
    ∃ m out, Addressed hosts s m n out ∧ hosts.parsed out.augData.data = some data ∧
      (t, out.augData.UUID) ∈ (s n).requests

/-- What an event at `n` can do to its node: a new request under a new UUID, a response, or a
    call. -/
structure Adds (hosts : Hosts ι D) (s : ι → Sn D H) (n : ι) (s₁ : Sn D H) : Prop where
  node : s₁.Inv
  used : s₁.used = (s n).used ∨
    ∃ u, (∀ m, u ∉ (s m).used) ∧ u ∉ objectPrototypeNames ∧ s₁.used = u :: (s n).used
  sent : s₁.sent = (s n).sent ∨ ∃ out, s₁.sent = (s n).sent ++ [out] ∧
    (IsRequest (hosts.opts n) s₁ out ∧ (∀ m, out.augData.UUID ∉ (s m).used) ∨ IsResponse (s n) out)
  requests : s₁.requests = (s n).requests ∨ ∃ t, ∃ out ∈ s₁.sent,
    s₁.requests = (s n).requests ++ [(t, out.augData.UUID)] ∧ out.augData.msgDir ≠ .resp
  calls : s₁.calls = (s n).calls ∨ ∃ c, s₁.calls = (s n).calls ++ [c] ∧ Justified hosts s n c

/-- A send adds its request. -/
lemma Adds.send (hnode : (s n).Inv) {args : SendArgs D} {UUID env} (hnew : ∀ m, UUID ∉ (s m).used)
    (hname : UUID ∉ objectPrototypeNames) :
    Adds hosts s n ((s n).send (hosts.opts n) args UUID env) := by
  have hi : ((s n).send (hosts.opts n) args UUID env).Inv :=
    Sn.inv_step hnode (Step.send (hnew n) hname)
  obtain ⟨hcalls, hused, h⟩ := Sn.send_effect (hosts.opts n) (s n) args UUID env
  refine ⟨hi, .inr ⟨UUID, hnew, hname, hused⟩, ?_, ?_, .inl hcalls⟩
  · rcases h with ⟨hsent, _⟩ | ⟨hsent, _⟩
    · exact .inl hsent
    · refine .inr ⟨_, hsent, .inl ⟨⟨args, UUID, env.now, rfl, ?_⟩, hnew⟩⟩
      rw [hused]
      exact List.mem_cons_self
  · rcases h with ⟨_, hreq⟩ | ⟨hsent, hreq | hreq⟩
    · exact .inl hreq
    · exact .inl hreq
    · refine .inr ⟨_, requestOf (hosts.opts n) args UUID env.now, ?_, hreq, ?_⟩
      · rw [hsent]
        exact List.mem_append_right _ (List.mem_singleton_self _)
      · exact msgDir_requestOf (hosts.opts n) args UUID env.now

/-- A response to what was handled is added, or nothing. -/
lemma Adds.respond (hnode : (s n).Inv) {asked : AugmentedData D}
    {remote header receivedTime data env}
    (hhandled : .handleData asked remote header ∈ (s n).calls) :
    Adds hosts s n ((s n).respond asked remote receivedTime data env) := by
  have hi : ((s n).respond asked remote receivedTime data env).Inv :=
    Sn.inv_step hnode (@Step.respond _ _ (hosts.opts n) _ _ _ _ _ _)
  rcases Sn.respond_effect (s n) asked remote receivedTime data env with h | ⟨hlate, h⟩
  · rw [h] at hi ⊢
    exact ⟨hi, .inl rfl, .inl rfl, .inl rfl, .inl rfl⟩
  · rw [h] at hi ⊢
    refine ⟨hi, .inl rfl, .inr ⟨_, rfl, .inr ?_⟩, .inl rfl, .inl rfl⟩
    exact ⟨asked, remote, header, receivedTime, env.now, data, hhandled, rfl, hlate⟩

/-- An arrival adds the call it makes. -/
lemma Adds.arrive (hnode : (s n).Inv) {m out augData remote header now}
    (hout : Addressed hosts s m n out) (hread : hosts.read out.augData = some augData)
    (hremote : remote.address = hosts.ip m) :
    Adds hosts s n ((s n).extractUUIDHandleData augData remote header now) := by
  have hi : ((s n).extractUUIDHandleData augData remote header now).Inv :=
    Sn.inv_step hnode (@Step.arrive _ _ (hosts.opts n) _ _ _ _ _)
  rcases (s n).extractUUIDHandleData_cases augData remote header now with
    ⟨mapping, hm, h⟩ | ⟨_, _, h⟩ | ⟨_, _, _, _, h⟩
  · obtain ⟨data, hdata, rfl⟩ := Hosts.read_eq_some.mp hread
    rw [h] at hi ⊢
    refine ⟨hi, .inl rfl, .inl rfl, .inl rfl, .inr ⟨_, rfl, m, out, hout, hdata, ?_⟩⟩
    exact (hnode.open_of_mapping hm).1
  · rw [h] at hi ⊢
    exact ⟨hi, .inl rfl, .inl rfl, .inl rfl, .inl rfl⟩
  · rw [h] at hi ⊢
    exact ⟨hi, .inl rfl, .inl rfl, .inl rfl, .inr ⟨_, rfl, m, out, hout, hread, hremote⟩⟩

/-- An event of the node alone sends nothing. -/
lemma Adds.other (hnode : (s n).Inv) {e : Event D H} (hlocal : e.Local)
    (h : Step (hosts.opts n) (s n) e s₁) : Adds hosts s n s₁ := by
  have hi : s₁.Inv := Sn.inv_step hnode h
  cases h with
  | send => exact hlocal.elim
  | respond => exact hlocal.elim
  | arrive => exact hlocal.elim
  | malformed => exact ⟨hi, .inl rfl, .inl rfl, .inl rfl, .inl rfl⟩
  | @timer t u now stringifies =>
    rcases (s n).onTimer_cases t u now stringifies with ⟨_, _, h⟩ | ⟨_, h⟩
    · rw [h] at hi ⊢
      exact ⟨hi, .inl rfl, .inl rfl, .inl rfl, .inl rfl⟩
    · rw [h] at hi ⊢
      exact ⟨hi, .inl rfl, .inl rfl, .inl rfl, .inr ⟨_, rfl, trivial⟩⟩
  | expire => exact ⟨hi, .inl rfl, .inl rfl, .inl rfl, .inl rfl⟩
  | setLogFlags => exact ⟨hi, .inl rfl, .inl rfl, .inl rfl, .inl rfl⟩

/-- One event changes its node, as `Adds` says. -/
lemma NetStep.adds [DecidableEq ι] {e s'} (hnode : ∀ n, (s n).Inv) (h : NetStep hosts s e s') :
    ∃ s₁, Adds hosts s e.1 s₁ ∧ s' = Function.update s e.1 s₁ := by
  cases h with
  | send hnew hname => exact ⟨_, .send (hnode _) hnew hname, rfl⟩
  | respond hhandled => exact ⟨_, .respond (hnode _) hhandled, rfl⟩
  | arrive hout hread hremote => exact ⟨_, .arrive (hnode _) hout hread hremote, rfl⟩
  | other hlocal hstep => exact ⟨_, .other (hnode _) hlocal hstep, rfl⟩

/-- What was sent stays sent, what was called stays called. -/
structure Sn.Grows (s s' : Sn D H) : Prop where
  used : s.used ⊆ s'.used
  sent : s.sent ⊆ s'.sent
  requests : s.requests ⊆ s'.requests
  calls : s.calls ⊆ s'.calls

/-- Nothing is taken back at the node. -/
lemma Adds.grows (h : Adds hosts s n s₁) : (s n).Grows s₁ := by
  refine ⟨?_, ?_, ?_, ?_⟩
  · rcases h.used with hu | ⟨_, _, _, hu⟩
    · exact hu ▸ List.Subset.refl _
    · exact hu ▸ List.subset_cons_self _ _
  · rcases h.sent with hs | ⟨_, hs, _⟩
    · exact hs ▸ List.Subset.refl _
    · exact hs ▸ List.subset_append_left _ _
  · rcases h.requests with hr | ⟨_, _, _, hr, _⟩
    · exact hr ▸ List.Subset.refl _
    · exact hr ▸ List.subset_append_left _ _
  · rcases h.calls with hc | ⟨_, hc, _⟩
    · exact hc ▸ List.Subset.refl _
    · exact hc ▸ List.subset_append_left _ _

variable [DecidableEq ι]

/-- Nor in the network. -/
lemma Adds.grows_update (h : Adds hosts s n s₁) (m : ι) :
    (s m).Grows (Function.update s n s₁ m) := by
  by_cases hm : m = n
  · subst hm
    rw [Function.update_self]
    exact h.grows
  · rw [Function.update_of_ne hm]
    exact ⟨List.Subset.refl _, List.Subset.refl _, List.Subset.refl _, List.Subset.refl _⟩

/-- A UUID that is used, was used or is new. -/
lemma Adds.mem_used (h : Adds hosts s n s₁) {m u} (hu : u ∈ (Function.update s n s₁ m).used) :
    u ∈ (s m).used ∨ m = n ∧ (∀ k, u ∉ (s k).used) ∧ u ∉ objectPrototypeNames := by
  by_cases hm : m = n
  · subst hm
    rw [Function.update_self] at hu
    rcases h.used with heq | ⟨u', hnew, hname, heq⟩
    · exact .inl (heq ▸ hu)
    · rw [heq, List.mem_cons] at hu
      rcases hu with rfl | hu
      · exact .inr ⟨rfl, hnew, hname⟩
      · exact .inl hu
  · rw [Function.update_of_ne hm] at hu
    exact .inl hu

/-- A message that was sent, was sent before or is the one that was sent just now. -/
lemma Adds.mem_sent (h : Adds hosts s n s₁) {m out} (hout : out ∈ (Function.update s n s₁ m).sent) :
    out ∈ (s m).sent ∨
      (IsRequest (hosts.opts m) (Function.update s n s₁ m) out ∧
        (∀ k, out.augData.UUID ∉ (s k).used) ∨
        IsResponse (s m) out) := by
  by_cases hm : m = n
  · subst hm
    rw [Function.update_self] at hout ⊢
    rcases h.sent with heq | ⟨out', heq, hnew⟩
    · exact .inl (heq ▸ hout)
    · simp only [heq, List.mem_append, List.mem_singleton] at hout ⊢
      rcases hout with hout | rfl
      · exact .inl hout
      · exact .inr hnew
  · rw [Function.update_of_ne hm] at hout
    exact .inl hout

/-- A call that was made, was made before or has its message. -/
lemma Adds.mem_calls (h : Adds hosts s n s₁) {m c} (hc : c ∈ (Function.update s n s₁ m).calls) :
    c ∈ (s m).calls ∨ Justified hosts s m c := by
  by_cases hm : m = n
  · subst hm
    rw [Function.update_self] at hc
    rcases h.calls with heq | ⟨c', heq, hjust⟩
    · exact .inl (heq ▸ hc)
    · rw [heq, List.mem_append, List.mem_singleton] at hc
      rcases hc with hc | rfl
      · exact .inl hc
      · exact .inr hjust
  · rw [Function.update_of_ne hm] at hc
    exact .inl hc

/-- What waits, waited before or was sent just now. -/
lemma Adds.mem_requests (h : Adds hosts s n s₁) {m t u}
    (hr : (t, u) ∈ (Function.update s n s₁ m).requests) : (t, u) ∈ (s m).requests ∨
      ∃ out ∈ (Function.update s n s₁ m).sent, out.augData.msgDir ≠ .resp ∧
        out.augData.UUID = u := by
  by_cases hm : m = n
  · subst hm
    rw [Function.update_self] at hr ⊢
    rcases h.requests with heq | ⟨t', out, hout, heq, hdir⟩
    · exact .inl (heq ▸ hr)
    · rw [heq, List.mem_append, List.mem_singleton] at hr
      rcases hr with hr | hr
      · exact .inl hr
      · cases hr
        exact .inr ⟨out, hout, hdir, rfl⟩
  · rw [Function.update_of_ne hm] at hr
    exact .inl hr

end Adds

/-! ## The invariant -/

section Invariant
variable {hosts : Hosts ι D} {s s' : ι → Sn D H}

/-- Two messages are not both requests, or they have different UUIDs. -/
def RequestsApart (out out' : Outgoing D) : Prop :=
  out.augData.msgDir ≠ .resp → out'.augData.msgDir ≠ .resp → out.augData.UUID ≠ out'.augData.UUID

/-- It does not matter which of the two comes first. -/
instance : Std.Symm (RequestsApart (D := D)) := ⟨fun _ _ h hdir hdir' e => h hdir' hdir e.symm⟩

/-- Every message in the network is a request of the node that sent it, the only one with its UUID,
    or a response; every response goes back to a request; every call has its message. -/
structure NetInv (hosts : Hosts ι D) (s : ι → Sn D H) : Prop where
  node : ∀ n, (s n).Inv
  apart : ∀ n m u, u ∈ (s n).used → u ∈ (s m).used → n = m
  names : ∀ n, ∀ u ∈ (s n).used, u ∉ objectPrototypeNames
  sent : ∀ n, ∀ out ∈ (s n).sent, IsRequest (hosts.opts n) (s n) out ∨ IsResponse (s n) out
  once : ∀ n, (s n).sent.Pairwise RequestsApart
  requests : ∀ n t u, (t, u) ∈ (s n).requests →
    ∃ out ∈ (s n).sent, out.augData.msgDir ≠ .resp ∧ out.augData.UUID = u
  calls : ∀ n, ∀ c ∈ (s n).calls, Justified hosts s n c
  origin : ∀ n, ∀ out ∈ (s n).sent, ∃ k, ∃ request ∈ (s k).sent, request.augData.msgDir ≠ .resp ∧
    request.augData.UUID = out.augData.UUID ∧ request.augData.PORT = out.augData.PORT ∧
    request.augData.sendTime = out.augData.sendTime

/-- A request stays one. -/
lemma IsRequest.mono {opts} {a b : Sn D H} {out} (h : IsRequest opts a out) (hg : a.Grows b) :
    IsRequest opts b out := by
  obtain ⟨args, UUID, now, hout, hu⟩ := h
  exact ⟨args, UUID, now, hout, hg.used hu⟩

/-- A response stays one. -/
lemma IsResponse.mono {a b : Sn D H} {out} (h : IsResponse a out) (hg : a.Grows b) :
    IsResponse b out := by
  obtain ⟨asked, remote, header, receivedTime, replyTime, data, hcall, h⟩ := h
  exact ⟨asked, remote, header, receivedTime, replyTime, data, hg.calls hcall, h⟩

/-- A response is no request. -/
lemma IsResponse.msgDir_eq {a : Sn D H} {out} (h : IsResponse a out) :
    out.augData.msgDir = .resp := by
  obtain ⟨_, _, _, _, _, _, _, rfl, _⟩ := h
  rfl

/-- What is addressed stays addressed. -/
lemma Addressed.mono {n m out} (h : Addressed hosts s n m out) (hg : ∀ m, (s m).Grows (s' m)) :
    Addressed hosts s' n m out :=
  ⟨(hg n).sent h.1, h.2⟩

/-- The message of a call stays sent. -/
lemma Justified.mono {n} {c : UserCall D H} (h : Justified hosts s n c)
    (hg : ∀ m, (s m).Grows (s' m)) : Justified hosts s' n c := by
  cases c with
  | onTimeout => trivial
  | handleData =>
    obtain ⟨m, out, hout, h⟩ := h
    exact ⟨m, out, hout.mono hg, h⟩
  | onResponse =>
    obtain ⟨m, out, hout, hdata, hreq⟩ := h
    exact ⟨m, out, hout.mono hg, hdata, (hg n).requests hreq⟩

/-- Nothing was sent in a network of fresh instances. -/
lemma NetInv.init : NetInv hosts fun _ => (Sn.init : Sn D H) where
  node n := Sn.inv_init
  apart n m u h := by cases h
  names n u h := by cases h
  sent n out h := by cases h
  once n := .nil
  requests n t u h := by cases h
  calls n c h := by cases h
  origin n out h := by cases h

/-- What was sent to be answered was sent by a node that asked. -/
lemma NetInv.origin_of_handled (hi : NetInv hosts s) {n} {asked : AugmentedData D} {remote header}
    (h : .handleData asked remote header ∈ (s n).calls) :
    ∃ k, ∃ request ∈ (s k).sent, request.augData.msgDir ≠ .resp ∧
      request.augData.UUID = asked.UUID ∧
      request.augData.PORT = asked.PORT ∧ request.augData.sendTime = asked.sendTime := by
  obtain ⟨m, out, hout, hread, _⟩ := hi.calls n _ h
  obtain ⟨_, _, rfl⟩ := Hosts.read_eq_some.mp hread
  exact hi.origin m out hout.1

/-- A request has its UUID before any other message could have it. -/
lemma NetInv.uuid_ne (hi : NetInv hosts s) {n} {out new : Outgoing D} (hout : out ∈ (s n).sent)
    (hdir : out.augData.msgDir ≠ .resp) (hdir' : new.augData.msgDir ≠ .resp) {a : Sn D H}
    (h : IsRequest (hosts.opts n) a new ∧ (∀ k, new.augData.UUID ∉ (s k).used) ∨ IsResponse (s n) new) :
    out.augData.UUID ≠ new.augData.UUID := by
  rcases h with ⟨_, hnew⟩ | h
  · rcases hi.sent n out hout with hreq | hresp
    · intro heq
      exact hnew n (heq ▸ hreq.mem_used)
    · exact absurd hresp.msgDir_eq hdir
  · exact absurd h.msgDir_eq hdir'

/-- A node sends one request with a UUID. -/
lemma NetInv.unique (hi : NetInv hosts s) {n} {out out' : Outgoing D} (hout : out ∈ (s n).sent)
    (hout' : out' ∈ (s n).sent) (hdir : out.augData.msgDir ≠ .resp) (hdir' :
      out'.augData.msgDir ≠ .resp)
    (hu : out.augData.UUID = out'.augData.UUID) : out = out' := by
  by_contra hne
  exact (hi.once n).forall hout hout' hne hdir hdir' hu

/-- What goes back to a request of `n`, `n` sent. -/
lemma NetInv.request_eq (hi : NetInv hosts s) {n m} {out request : Outgoing D}
    (hout : out ∈ (s m).sent)
    (hdir : out.augData.msgDir ≠ .resp) (hreq : request ∈ (s n).sent)
    (hdir' : request.augData.msgDir ≠ .resp) (hu : out.augData.UUID = request.augData.UUID) :
    m = n ∧ out = request := by
  have hm : out.augData.UUID ∈ (s m).used := by
    rcases hi.sent m out hout with h | h
    · exact h.mem_used
    · exact absurd h.msgDir_eq hdir
  have hn : request.augData.UUID ∈ (s n).used := by
    rcases hi.sent n request hreq with h | h
    · exact h.mem_used
    · exact absurd h.msgDir_eq hdir'
  obtain rfl := hi.apart m n _ hm (hu ▸ hn)
  exact ⟨rfl, hi.unique hout hreq hdir hdir' hu⟩

/-- A message that is no response was handed to the user's code because its sender addressed it to
    the node. -/
lemma NetInv.asked (hi : NetInv hosts s) {m} {asked : AugmentedData D} {remote header}
    (h : .handleData asked remote header ∈ (s m).calls) (hdir : asked.msgDir ≠ .resp) :
    ∃ n request, Addressed hosts s n m request ∧ IsRequest (hosts.opts n) (s n) request ∧
      hosts.read request.augData = some asked ∧ remote.address = hosts.ip n := by
  obtain ⟨n, request, hreq, hread, hremote⟩ := hi.calls m _ h
  rcases hi.sent n request hreq.1 with hr | hr
  · exact ⟨n, request, hreq, hr, hread, hremote⟩
  · obtain ⟨_, _, rfl⟩ := Hosts.read_eq_some.mp hread
    exact absurd hr.msgDir_eq hdir

variable [DecidableEq ι]

/-- One event keeps the invariant. -/
lemma NetInv.step (hi : NetInv hosts s) {e} (h : NetStep hosts s e s') : NetInv hosts s' := by
  obtain ⟨s₁, ha, rfl⟩ := h.adds hi.node
  obtain ⟨n, e⟩ := e
  have hg : ∀ m, (s m).Grows (Function.update s n s₁ m) := ha.grows_update
  refine ⟨?_, ?_, ?_, ?_, ?_, ?_, ?_, ?_⟩
  · intro m
    by_cases hm : m = n
    · subst hm
      rw [Function.update_self]
      exact ha.node
    · rw [Function.update_of_ne hm]
      exact hi.node m
  · intro m k u hm hk
    rcases ha.mem_used hm with hm' | ⟨hmn, hnew, _⟩
    · rcases ha.mem_used hk with hk' | ⟨_, hnew, _⟩
      · exact hi.apart m k u hm' hk'
      · exact absurd hm' (hnew m)
    · rcases ha.mem_used hk with hk' | ⟨hkn, _⟩
      · exact absurd hk' (hnew k)
      · exact hmn.trans hkn.symm
  · intro m u hu
    rcases ha.mem_used hu with hold | ⟨_, _, hname⟩
    · exact hi.names m u hold
    · exact hname
  · intro m out hout
    rcases ha.mem_sent hout with hold | h | h
    · exact (hi.sent m out hold).imp (fun h => h.mono (hg m)) fun h => h.mono (hg m)
    · exact .inl h.1
    · exact .inr (h.mono (hg m))
  · intro m
    by_cases hm : m = n
    · subst hm
      rw [Function.update_self]
      rcases ha.sent with hsent | ⟨new, hsent, hnew⟩
      · rw [hsent]
        exact hi.once m
      · rw [hsent, List.pairwise_append]
        refine ⟨hi.once m, List.pairwise_singleton _ _, ?_⟩
        intro out hout new' hnew' hdir hdir'
        obtain rfl := List.mem_singleton.mp hnew'
        exact hi.uuid_ne hout hdir hdir' hnew
    · rw [Function.update_of_ne hm]
      exact hi.once m
  · intro m t u hr
    rcases ha.mem_requests hr with hr | h
    · obtain ⟨out, hout, h⟩ := hi.requests m t u hr
      exact ⟨out, (hg m).sent hout, h⟩
    · exact h
  · intro m c hc
    rcases ha.mem_calls hc with hc | h
    · exact (hi.calls m c hc).mono hg
    · exact h.mono hg
  · intro m out hout
    have horigin : ∃ k, ∃ request ∈ (Function.update s n s₁ k).sent, request.augData.msgDir ≠ .resp ∧
        request.augData.UUID = out.augData.UUID ∧ request.augData.PORT = out.augData.PORT ∧
        request.augData.sendTime = out.augData.sendTime := by
      rcases ha.mem_sent hout with hold | h | h
      · obtain ⟨k, request, hreq, h⟩ := hi.origin m out hold
        exact ⟨k, request, (hg k).sent hreq, h⟩
      · -- a request goes back to itself
        obtain ⟨args, UUID, now, rfl, _⟩ := h.1
        exact ⟨m, _, hout, msgDir_requestOf (hosts.opts m) args UUID now, rfl, rfl, rfl⟩
      · -- a response goes back to where the message it answers goes back to
        obtain ⟨asked, remote, header, receivedTime, replyTime, data, hcall, rfl, _⟩ := h
        obtain ⟨k, request, hreq, h⟩ := hi.origin_of_handled hcall
        exact ⟨k, request, (hg k).sent hreq, h⟩
    exact horigin

/-- The invariant holds in every run. -/
lemma NetInv.run {es : List (ι × Event D H)} (r : Run (NetStep hosts) (fun _ => Sn.init) es s) :
    NetInv hosts s :=
  r.invariant .init fun hi h => hi.step h

end Invariant

section Conversation
variable [DecidableEq ι] {hosts : Hosts ι D} {s : ι → Sn D H} {es : List (ι × Event D H)}

end Conversation

end ShardusNet.Node
