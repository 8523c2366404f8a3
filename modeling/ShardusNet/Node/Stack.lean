import ShardusNet.Binding.Calls
import ShardusNet.Node.Network
import ShardusNet.Node.Texts
import ShardusNet.Transport.EndToEnd
/-!
# The whole stack

Any number of nodes, each with an instance, the sender behind it and a listener: what the user's
code sends goes through the binding, the tasks of the sender, TCP streams, the tasks of a listener
and the callback of `listen` to the instance of another node.

* `Env`: what the nodes share, and where they are.
* `BindingCall`: the call of the binding for a message.
* `Sn.listenCallback`: the callback that `listen` gives to the binding.
* `StackStep`: an event anywhere in the stack.
* `stack_refines`: what the nodes do is what they do in a network where messages arrive as they were
  sent.
-/

namespace ShardusNet.Node
open Wire Transport ByteCodec JsonText Pieces Runs

/-- A port, converted with `as u16`. -/
def portOf (port : ℕ) : UInt16 := UInt16.ofNat ((JsNumber.finite port).toUInt 16)

/-- What the nodes share: the crates, the hash key, `serde_json`, the resolver and Node.js; and for
    each node its key pair, its options and its IP address. The port and the address of a node are
    resolved to where it listens, and no two nodes listen there. No node has a `customStringifier`. -/
structure Env (ι : Type*) where
  crates : Crates
  crypto : ShardusCrypto
  fromStr : String → Option HeaderV1
  resolve : Binding.Resolve
  node : NodeBuffer
  /-- `IpAddr::to_string` -/
  ipText : IpAddr → String
  keyPair : ι → KeyPair
  opts : ι → Options
  ip : ι → IpAddr
  opens : ∀ n, (keyPair n).Opens crates
  own : ∀ n, ∃ rest, resolve (ipText (ip n)) (portOf (opts n).PORT) =
    some (⟨ip n, portOf (opts n).PORT⟩ :: rest)
  distinct : ∀ n m, ip n = ip m → portOf (opts n).PORT = portOf (opts m).PORT → n = m

section
variable {ι : Type*}

namespace Env

/-- Where a node listens. -/
def address (env : Env ι) (n : ι) : SocketAddr := ⟨env.ip n, portOf (env.opts n).PORT⟩

/-- What the binding of a node is set up with. -/
def cfg (env : Env ι) (n : ι) : Binding.Config := ⟨env.crates, env.crypto, env.keyPair n, env.fromStr⟩

/-- The address a destination is resolved to. -/
def target (env : Env ι) (dest : ℕ × String) : Option SocketAddr :=
  (env.resolve dest.2 (portOf dest.1)).bind List.head?

/-- The target is the first address that the host resolves to. -/
lemma target_eq_some {env : Env ι} {dest address} : env.target dest = some address ↔
    ∃ rest, env.resolve dest.2 (portOf dest.1) = some (address :: rest) := by
  rw [target, Option.bind_eq_some_iff]
  constructor
  · intro ⟨addresses, hresolve, hhead⟩
    obtain ⟨rest, rfl⟩ := List.head?_eq_some_iff.mp hhead
    exact ⟨rest, hresolve⟩
  · intro ⟨rest, hresolve⟩
    exact ⟨_, hresolve, rfl⟩

/-- The port and the address of a node lead to it and to no other. -/
lemma target_own (env : Env ι) (n k : ι) :
    env.target ((env.opts n).PORT, env.ipText (env.ip n)) = some (env.address k) ↔ k = n := by
  obtain ⟨rest, hown⟩ := env.own n
  rw [target_eq_some.mpr ⟨rest, hown⟩, Option.some_inj]
  constructor
  · intro haddress
    rw [address, SocketAddr.mk.injEq] at haddress
    exact (env.distinct n k haddress.1 haddress.2).symm
  · intro e
    rw [e]
    rfl

/-- The network that the nodes see. -/
def hosts (env : Env ι) : Hosts ι (Option Value) where
  opts := env.opts
  ip n := env.ipText (env.ip n)
  leads dest m := env.target dest = some (env.address m)
  parsed := revivedData env.node
  own := env.target_own

end Env

/-! ## The binding -/

/-- The call of the binding that `_sendAug` makes for a message, with what `JSON.stringify` writes of
    it and with some text and version of a header. The binding would also send a header that is over
    the limit, only for the listener to refuse it; here every header is within the limit. -/
inductive BindingCall (env : Env ι) (n : ι) (out : Outgoing (Option Value)) (tx : ℕ) :
    Binding.Call → Prop
  | send {dest} (hheader : out.withHeader = false) (hdest : out.destinations = [dest]) :
    BindingCall env n out tx
      (Binding.send env.resolve ⟨portOf dest.1, dest.2, out.augData.text⟩ tx)
  | sendWithHeader {dest version header} (hheader : out.withHeader = true)
    (hdest : out.destinations = [dest])
    (hlimit : ∀ h, headerFromJsonString env.fromStr header version = some (.V1 h) →
      h.serialize.length ≤ HEADER_SIZE_LIMIT_IN_BYTES) :
    BindingCall env n out tx (Binding.sendWithHeader (env.cfg n) env.resolve
      ⟨portOf dest.1, dest.2, version, header, out.augData.text⟩ tx)
  | multiSendWithHeader {version header awaitProcessing} (hheader : out.withHeader = true)
    (hlimit : ∀ h, headerFromJsonString env.fromStr header version = some (.V1 h) →
      h.serialize.length ≤ HEADER_SIZE_LIMIT_IN_BYTES) :
    BindingCall env n out tx (Binding.multiSendWithHeader (env.cfg n) env.resolve
      ⟨out.destinations.map fun dest => portOf dest.1, out.destinations.map Prod.snd, version, header,
        out.augData.text, awaitProcessing⟩ tx)

/-- The call returned. -/
def accepted (call : Binding.Call) : Bool :=
  match call.outcome with
  | .ok _ => true
  | .error _ => false

/-- The sends that a call queued. -/
def sendsOf (call : Binding.Call) : List QueuedSend := call.channels.filterMap id

/-- The loop resolves each pair to the first address that its own resolution gives. -/
lemma forall₂_resolveAll {resolve pairs addresses}
    (h : Binding.resolveAll resolve pairs = .ok addresses) :
    List.Forall₂ (fun p address => ∃ rest, resolve p.1 p.2 =
      some (address :: rest)) pairs addresses := by
  rw [List.forall₂_iff_get]
  refine ⟨(Binding.length_resolveAll h).symm, fun i hi hi' => ?_⟩
  obtain ⟨address, rest, haddress, hresolve⟩ :=
    Binding.resolveAll_getElem? h (List.getElem?_eq_getElem hi)
  rw [List.getElem?_eq_getElem hi', Option.some_inj] at haddress
  rw [List.get_eq_getElem, List.get_eq_getElem, haddress]
  exact ⟨rest, hresolve⟩

/-- The channels that were dropped have no send. -/
lemma filterMap_channels (l : List QueuedSend) (k : ℕ) :
    (l.map some ++ List.replicate k none).filterMap id = l := by
  have hnone : (List.replicate k (none : Option QueuedSend)).filterMap id = [] := by
    rw [List.filterMap_eq_nil_iff]
    intro q hq
    exact List.eq_of_mem_replicate hq
  rw [List.filterMap_append, hnone, List.append_nil, List.filterMap_map, Function.id_comp,
    List.filterMap_some]

/-- What is numbered stays related. -/
lemma forall₂_zip {α β γ : Type*} {R : α → β → Prop} {l : List α} {u : List β}
    (h : List.Forall₂ R l u)
    {v : List γ} (hlen : u.length ≤ v.length) : List.Forall₂ (fun a p => R a p.1) l (u.zip v) := by
  induction h generalizing v with
  | nil => exact .nil
  | cons hab _ ih =>
    cases v with
    | nil => cases hlen
    | cons c v => exact .cons hab (ih (Nat.le_of_succ_le_succ hlen))

/-- A queued send carries the message to the destination; without a header if it has none. -/
structure CarriesTo (env : Env ι) (n : ι) (out : Outgoing (Option Value)) (dest : ℕ × String)
    (q : QueuedSend) : Prop where
  target : env.target dest = some q.address
  item : ∀ remoteAddr, ∃ item : Delivery, item.msg = out.augData.text ∧
    (out.withHeader = false → item.requestMetadata = none) ∧
    Sent env.crates env.crypto (env.keyPair n) remoteAddr q.data (some item)

/-- A signed message with a header within the limit is delivered. -/
lemma CarriesTo.of_signedMessage {env : Env ι} {n out dest address tx header version hd m}
    (htarget : env.target dest = some address) (hheader : out.withHeader = true)
    (hh : headerFromJsonString env.fromStr header version = some hd)
    (hlimit : ∀ h, headerFromJsonString env.fromStr header version = some (.V1 h) →
      h.serialize.length ≤ HEADER_SIZE_LIMIT_IN_BYTES)
    (hm : signedMessage env.crates env.crypto (env.keyPair n) version hd (utf8 out.augData.text) =
      .ok m) :
    CarriesTo env n out dest ⟨address, wrapSerializedMessage m.serialize, tx⟩ := by
  obtain ⟨rfl, h, rfl⟩ := Binding.headerFromJsonString_eq_some hh
  refine ⟨htarget, fun remoteAddr => ⟨_, rfl, ?_, .signed (hlimit h hh) hm⟩⟩
  intro hnone
  rw [hheader] at hnone
  cases hnone

/-- A call that returns queues a send for each destination, in order. -/
lemma BindingCall.carries {env : Env ι} {n out tx call} (h : BindingCall env n out tx call)
    (hok : accepted call = true) : List.Forall₂ (CarriesTo env n out) out.destinations (sendsOf call) := by
  cases h with
  | @send dest hheader hdest =>
    rw [Binding.send] at hok ⊢
    rw [hdest]
    split at hok
    case h_1 address rest hresolve =>
      refine .cons ⟨Env.target_eq_some.mpr ⟨rest, hresolve⟩, fun remoteAddr => ?_⟩ .nil
      exact ⟨_, rfl, fun _ => rfl, .headerless (head_utf8_text out.augData)⟩
    case h_2 => cases hok
    case h_3 => cases hok
  | @sendWithHeader dest version header hheader hdest hlimit =>
    rw [Binding.sendWithHeader] at hok ⊢
    rw [hdest]
    split at hok
    case h_1 => cases hok
    case h_2 hd hh =>
      split at hok
      case h_1 address rest hresolve =>
        split at hok
        case h_1 queued hqueued =>
          cases hm : signedMessage env.crates env.crypto (env.keyPair n) version hd
              (utf8 out.augData.text) with
          | error p =>
            simp only [Wire.sendWithHeader, Env.cfg, hm] at hqueued
            cases hqueued
          | ok m =>
            simp only [Wire.sendWithHeader, Env.cfg, hm] at hqueued
            cases hqueued
            have htarget : env.target dest = some address := Env.target_eq_some.mpr ⟨rest, hresolve⟩
            exact .cons (.of_signedMessage htarget hheader hh hlimit hm) .nil
        case h_2 => cases hok
      case h_2 => cases hok
      case h_3 => cases hok
  | @multiSendWithHeader version header awaitProcessing hheader hlimit =>
    rcases Binding.multiSendWithHeader_cases (env.cfg n) env.resolve
      ⟨out.destinations.map fun dest => portOf dest.1, out.destinations.map Prod.snd, version, header,
        out.augData.text, awaitProcessing⟩ tx with
      ⟨_, e⟩ | ⟨hd, hh, ⟨t, e, _⟩ | ⟨addresses, m, hall, _, hm, e⟩⟩
    · rw [e] at hok
      cases hok
    · rw [e] at hok
      cases hok
    · have htargets := forall₂_resolveAll hall
      rw [List.zip_map', List.forall₂_map_left_iff] at htargets
      have hlength : addresses.length ≤
          (List.range' tx (out.destinations.map Prod.snd).length).length := by
        rw [List.length_range', List.length_map, htargets.length_eq]
      rw [e, sendsOf, filterMap_channels, Binding.multiQueued, List.forall₂_map_right_iff]
      refine (forall₂_zip htargets hlength).imp fun dest p htarget => ?_
      exact .of_signedMessage (Env.target_eq_some.mpr htarget) hheader hh hlimit hm

/-- A call that throws has queued nothing. -/
lemma BindingCall.sendsOf_eq_nil {env : Env ι} {n out tx call} (h : BindingCall env n out tx call)
    (hthrown : accepted call = false) : sendsOf call = [] := by
  have hatomic : call.Atomic := by
    cases h with
    | send => exact Binding.send_atomic
    | sendWithHeader => exact Binding.sendWithHeader_atomic
    | multiSendWithHeader => exact Binding.multiSendWithHeader_atomic
  cases houtcome : call.outcome with
  | ok =>
    rw [accepted, houtcome] at hthrown
    cases hthrown
  | error t =>
    have hnone := hatomic t houtcome
    rw [Binding.Call.queued, List.filterMap_eq_nil_iff] at hnone
    rw [sendsOf, List.filterMap_eq_nil_iff]
    intro q hq
    exact Option.map_eq_none_iff.mp (hnone q hq)

/-! ## The instance behind the listener -/

/-- The instance of a node: data may be undefined, and a header comes with its signature. -/
abbrev Instance := Sn (Option Value) (Option (Json × Json))

/-- The header and the signature, if there are any; `none` when one does not parse. -/
def headerOf : Option RequestMetadata → Option (Option (Json × Json))
  | some ⟨headerVersion, headerData, signData⟩ =>
    if headerVersion ≠ 0 ∧ headerData ≠ "" ∧ signData ≠ "" then do
      let header ← parse (utf16 headerData)
      let sign ← parse (utf16 signData)
      some (some (header, sign))
    else some none
  | none => some none

/-- What the callback of `listen` reads of an item; `none` when it throws. Of the texts that parse,
    only those of messages are looked at, as no node sends another. -/
def Env.read (env : Env ι) (item : Delivery) :
    Option (AugmentedData (Option Value) × Option (Json × Json)) := do
  let header ← headerOf item.requestMetadata
  let augData ← readText env.node item.msg
  some (augData, header)

/-- The callback that `listen` gives to the binding; what it throws is caught. -/
def Sn.listenCallback (env : Env ι) (s : Instance) (item : Delivery) (now : ℤ) : Instance :=
  match env.read item with
  | some (augData, header) =>
    s.extractUUIDHandleData augData ⟨env.ipText item.remoteAddr.ip, item.remoteAddr.port.toNat⟩ header now
  | none => s

/-- The message is what its text is read as. -/
lemma Env.readText_of_read {env : Env ι} {item augData header}
    (h : env.read item = some (augData, header)) : readText env.node item.msg = some augData := by
  simp only [Env.read, Option.bind_eq_bind, Option.bind_eq_some_iff, Option.some_inj,
    Prod.mk.injEq] at h
  obtain ⟨_, _, _, hread, rfl, _⟩ := h
  exact hread

/-! ## The sends of a node -/

section
variable {D H : Type*}

/-- What a send adds to what was sent. -/
lemma sent_send (opts : Options) (s : Sn D H) (args : SendArgs D) (UUID now taken) :
    (s.send opts args UUID ⟨now, true, taken⟩).sent =
      s.sent ++ if taken then [requestOf opts args UUID now] else [] := by
  cases taken with
  | false => exact (List.append_nil _).symm
  | true =>
    rw [Sn.send, Sn.sendAug]
    by_cases htimeout : args.timeout = 0
    · simp [htimeout, requestOf]
    · simp [htimeout, requestOf]

/-- What a response in time adds. -/
lemma sent_respondOf (s : Sn D H) (asked : AugmentedData D) (remote receivedTime data now taken)
    (htime : ∀ timeout, asked.timeout = some timeout → now ≤ asked.sendTime + timeout) :
    (s.respond asked remote receivedTime data ⟨now, true, taken⟩).sent =
      s.sent ++ if taken then [responseOf asked remote receivedTime now data] else [] := by
  cases taken with
  | false => simp [Sn.respond, Sn.sendAug]
  | true =>
    cases ht : asked.timeout with
    | none => simp [Sn.respond, Sn.sendAug, responseOf, ht]
    | some timeout =>
      have hin : ¬ asked.sendTime + timeout < now := Int.not_lt.mpr (htime timeout ht)
      simp [Sn.respond, Sn.sendAug, responseOf, ht, hin]

/-- A late response is not sent. -/
lemma respond_late {s : Sn D H} {asked : AugmentedData D}
    {remote receivedTime data now taken timeout}
    (htimeout : asked.timeout = some timeout) (hlate : asked.sendTime + timeout < now) :
    s.respond asked remote receivedTime data ⟨now, true, taken⟩ = s := by
  simp [Sn.respond, htimeout, hlate]

/-- What is delivered sends nothing. -/
lemma sent_extractUUIDHandleData (s : Sn D H) (augData remote header now) :
    (s.extractUUIDHandleData augData remote header now).sent = s.sent := by
  rcases s.extractUUIDHandleData_cases augData remote header now with
    ⟨_, _, h⟩ | ⟨_, _, h⟩ | ⟨_, _, _, _, h⟩
  · rw [h]
  · rw [h]
  · rw [h]

/-- Nor does an event of the node alone. -/
lemma sent_local {opts : Options} {s s' : Sn D H} {e} (hlocal : e.Local) (h : Step opts s e s') :
    s'.sent = s.sent := by
  cases h with
  | send => exact hlocal.elim
  | respond => exact hlocal.elim
  | arrive => exact hlocal.elim
  | malformed => rfl
  | @timer t u now stringifies =>
    rcases s.onTimer_cases t u now stringifies with ⟨_, _, h⟩ | ⟨_, h⟩
    · rw [h]
    · rw [h]
  | expire => rfl
  | setLogFlags => rfl

end

section
variable {L ε : Type*} {env : Env ι} {lru : LruCrate L}

/-- The send that an event hands to the sender. -/
def handedOver : Transport.Event ε → Option QueuedSend
  | .send q => some q
  | _ => none

/-- What was queued in a run of a sender. -/
lemma queued_run {b b' : Sender L ε} {es : List (Transport.Event ε)}
    (r : Run (Sender.CleanStep lru) b es b') : b'.queued = b.queued ++ es.filterMap handedOver := by
  induction r with
  | refl => rw [List.filterMap_nil, List.append_nil]
  | @tail es b' b'' e _ hstep ih =>
    rw [List.filterMap_append, ← List.append_assoc, ← ih]
    cases hstep.1 with
    | @send q => simp [Sender.queued, Sender.send, handedOver]
    | recvSend hchannel hfree => simp [Sender.queued, Sender.recvSend, handedOver, hchannel, hfree]
    | spawn hreceived => simp [Sender.queued, Sender.spawn, handedOver, hreceived]
    | evictSocket => exact (List.append_nil _).symm
    | recvEvict => exact (List.append_nil _).symm
    | remove => exact (List.append_nil _).symm
    | lock => exact (List.append_nil _).symm
    | io => exact (List.append_nil _).symm
    | complete => exact (List.append_nil _).symm

/-- What was queued when a call handed over its sends. -/
lemma queued_sends {b b' : Sender L ε} {qs : List QueuedSend}
    (r : Run (Sender.CleanStep lru) b (qs.map .send) b') : b'.queued = b.queued ++ qs := by
  have hall : (qs.map (.send : QueuedSend → Transport.Event ε)).filterMap handedOver = qs := by
    rw [List.filterMap_map]
    exact List.filterMap_some
  rw [queued_run r, hall]

/-- The sends of one message. -/
structure Group (env : Env ι) (n : ι) (out : Outgoing (Option Value)) (qs : List QueuedSend) :
    Prop where
  portable : out.augData.Portable
  carries : List.Forall₂ (CarriesTo env n out) out.destinations qs
  size : ∀ q ∈ qs, q.data.length < 2 ^ 32

/-- What was queued is what was sent, message by message. -/
def Grouped (env : Env ι) (n : ι) (a : Instance) (b : Sender L ε) : Prop :=
  ∃ groups, List.Forall₂ (Group env n) a.sent groups ∧ b.queued = groups.flatten

/-- Nothing is sent. -/
lemma Grouped.of_eq {n a a'} {b b' : Sender L ε} (h : Grouped env n a b) (hsent : a'.sent = a.sent)
    (hqueued : b'.queued = b.queued) : Grouped env n a' b' := by
  rw [Grouped, hsent, hqueued]
  exact h

/-- A call is made for a message. -/
lemma Grouped.of_call {n a a' out tx call} {b b' : Sender L ε} (h : Grouped env n a b)
    (hcall : BindingCall env n out tx call) (hportable : out.augData.Portable)
    (hsize : ∀ q ∈ sendsOf call, q.data.length < 2 ^ 32)
    (hsent : a'.sent = a.sent ++ if accepted call then [out] else [])
    (hqueue : Run (Sender.CleanStep lru) b ((sendsOf call).map .send) b') :
      Grouped env n a' b' := by
  have hqueued := queued_sends hqueue
  cases hok : accepted call with
  | false =>
    rw [hcall.sendsOf_eq_nil hok, List.append_nil] at hqueued
    rw [hok, if_neg Bool.false_ne_true, List.append_nil] at hsent
    exact h.of_eq hsent hqueued
  | true =>
    obtain ⟨groups, hgroups, hflatten⟩ := h
    rw [hok, if_pos rfl] at hsent
    refine ⟨groups ++ [sendsOf call], ?_, ?_⟩
    · rw [hsent]
      exact List.rel_append hgroups (.cons ⟨hportable, hcall.carries hok, hsize⟩ .nil)
    · rw [hqueued, hflatten, List.flatten_append, List.flatten_singleton]

end

/-! ## The stack -/

/-- The instances, the senders and the listeners of the nodes, and for each connection a listener
    accepted the node it is from and its stream. -/
structure Stack (ι L ε : Type*) where
  nodes : ι → Instance
  senders : ι → Sender L ε
  listeners : ι → Listening
  streams : ι → List (ι × ℕ)

/-- The stack at its start. -/
def Stack.new {L ε : Type*} (lru : LruCrate L) (useLru : ι → Bool) (lruSize : ι → ℕ+) :
    Stack ι L ε where
  nodes _ := .init
  senders n := .new (createConnections lru (useLru n) (lruSize n))
  listeners _ := .new
  streams _ := []

/-- The listener of a node, and all senders. -/
def Stack.system {L ε : Type*} (s : Stack ι L ε) (m : ι) : System ι L ε :=
  ⟨s.senders, s.listeners m, s.streams m⟩

/-- What happens in a stack. -/
inductive StackEvent (ι ε : Type*) where
  | node (n : ι) (e : Event (Option Value) (Option (Json × Json)))
  | sender (n : ι) (e : Transport.Event ε)
  | listener (m : ι) (e : ListenEvent)
  | call (m : ι) (item : Delivery) (now : ℤ)

variable [DecidableEq ι] {L ε : Type*}

/-- One event, under the conditions that the results below are about: what a node sends is undefined
    or a JSON value with numbers that are doubles, in a frame of less than 4 GiB and with a header
    within the limit, if any; every UUID is new; and the senders reuse no stream on which a write was
    cut short. What cannot be stringified and what is late is not sent. -/
inductive StackStep (env : Env ι) (lru : LruCrate L) : Stack ι L ε → StackEvent ι ε → Stack ι L ε →
    Prop
  | send {s n args UUID now tx call sender} (hnew : ∀ m, UUID ∉ (s.nodes m).used)
    (hname : UUID ∉ objectPrototypeNames)
    (hportable : (requestOf (env.opts n) args UUID now).augData.Portable)
    (hcall : BindingCall env n (requestOf (env.opts n) args UUID now) tx call)
    (hsize : ∀ q ∈ sendsOf call, q.data.length < 2 ^ 32)
    (hqueue : Run (Sender.CleanStep lru) (s.senders n) ((sendsOf call).map .send) sender) :
    StackStep env lru s (.node n (.send args UUID ⟨now, true, accepted call⟩))
      { s with
        nodes := Function.update s.nodes n
          ((s.nodes n).send (env.opts n) args UUID ⟨now, true, accepted call⟩)
        senders := Function.update s.senders n sender }
  | respond {s n asked remote header receivedTime data now tx call sender}
    (hhandled : .handleData asked remote header ∈ (s.nodes n).calls)
    (htime : ∀ timeout, asked.timeout = some timeout → now ≤ asked.sendTime + timeout)
    (hportable : (responseOf asked remote receivedTime now data).augData.Portable)
    (hcall : BindingCall env n (responseOf asked remote receivedTime now data) tx call)
    (hsize : ∀ q ∈ sendsOf call, q.data.length < 2 ^ 32)
    (hqueue : Run (Sender.CleanStep lru) (s.senders n) ((sendsOf call).map .send) sender) :
    StackStep env lru s (.node n (.respond asked remote receivedTime data ⟨now, true, accepted call⟩))
      { s with
        nodes := Function.update s.nodes n
          ((s.nodes n).respond asked remote receivedTime data ⟨now, true, accepted call⟩)
        senders := Function.update s.senders n sender }
  | unsent {s n args UUID now taken} (hnew : ∀ m, UUID ∉ (s.nodes m).used)
    (hname : UUID ∉ objectPrototypeNames) :
    StackStep env lru s (.node n (.send args UUID ⟨now, false, taken⟩))
      { s with
        nodes := Function.update s.nodes n
          ((s.nodes n).send (env.opts n) args UUID ⟨now, false, taken⟩) }
  | late {s n asked remote header receivedTime data now taken timeout}
    (hhandled : .handleData asked remote header ∈ (s.nodes n).calls)
    (htimeout : asked.timeout = some timeout) (hlate : asked.sendTime + timeout < now) :
    StackStep env lru s (.node n (.respond asked remote receivedTime data ⟨now, true, taken⟩))
      { s with
        nodes := Function.update s.nodes n
          ((s.nodes n).respond asked remote receivedTime data ⟨now, true, taken⟩) }
  | node {s n e node} (hlocal : e.Local) (hstep : Step (env.opts n) (s.nodes n) e node) :
    StackStep env lru s (.node n e) { s with nodes := Function.update s.nodes n node }
  | sender {s n e sender} (hsend : handedOver e = none) (hstep :
    Sender.CleanStep lru (s.senders n) e sender) :
    StackStep env lru s (.sender n e) { s with senders := Function.update s.senders n sender }
  | accept {s n m stream remoteAddr listener}
    (hopened : (s.senders n).net.opened[stream]? = some (env.address m))
    (hnew : (n, stream) ∉ s.streams m) (hip : remoteAddr.ip = env.ip n)
    (hstep : ListenStep env.crates env.crypto (s.listeners m) (.accept remoteAddr) listener) :
    StackStep env lru s (.listener m (.accept remoteAddr))
      { s with
        listeners := Function.update s.listeners m listener
        streams := Function.update s.streams m (s.streams m ++ [(n, stream)]) }
  | arrive {s m i n stream a bytes listener} (hstream : (s.streams m)[i]? = some (n, stream))
    (ha : (s.listeners m).accepted[i]? = some a)
    (hbytes : a.arrived ++ bytes <+: (s.senders n).net.bytesOn stream)
    (hstep : ListenStep env.crates env.crypto (s.listeners m) (.arrive i bytes) listener) :
    StackStep env lru s (.listener m (.arrive i bytes))
      { s with listeners := Function.update s.listeners m listener }
  | listener {s m e listener} (hlocal : Transport.Local e) (hcall : e ≠ .call)
    (hstep : ListenStep env.crates env.crypto (s.listeners m) e listener) :
    StackStep env lru s (.listener m e) { s with listeners := Function.update s.listeners m listener }
  | call {s m i item now listener} (hqueue : (s.listeners m).queue.head? = some (i, item))
    (hstep : ListenStep env.crates env.crypto (s.listeners m) .call listener) :
    StackStep env lru s (.call m item now)
      { s with
        nodes := Function.update s.nodes m ((s.nodes m).listenCallback env item now)
        listeners := Function.update s.listeners m listener }

/-! ## What an event does below the nodes -/

section
variable {α β : Type*} {R : ι → α → β → Prop} {f : ι → α} {g : ι → β} {k : ι}

/-- What holds everywhere still holds when both sides change in one place. -/
lemma forall_update₂ (h : ∀ m, R m (f m) (g m)) {a b} (hk : R k a b) (m) :
    R m (Function.update f k a m) (Function.update g k b m) := by
  by_cases hm : m = k
  · subst hm
    rw [Function.update_self, Function.update_self]
    exact hk
  · rw [Function.update_of_ne hm, Function.update_of_ne hm]
    exact h m

/-- A pointwise relation after one change on the left. -/
lemma forall_update_left (h : ∀ m, R m (f m) (g m)) {a} (hk : R k a (g k)) (m) :
    R m (Function.update f k a m) (g m) := by
  have hall := forall_update₂ h hk m
  rwa [Function.update_eq_self] at hall

/-- A pointwise relation after one change on the right. -/
lemma forall_update_right (h : ∀ m, R m (f m) (g m)) {b} (hk : R k (f k) b) (m) :
    R m (f m) (Function.update g k b m) := by
  have hall := forall_update₂ h hk m
  rwa [Function.update_eq_self] at hall

end

section
variable {env : Env ι} {lru : LruCrate L} {find : L → SocketAddr → Option ℕ}

/-- A sender at work, in a system. -/
lemma system_sender {s : System ι L ε} {n} {es : List (Transport.Event ε)} {b}
    (r : Run (Sender.CleanStep lru) (s.senders n) es b) (crates crypto address) :
    ∃ es', Run (SystemStep lru crates crypto address) s es'
      { s with senders := Function.update s.senders n b } := by
  induction r with
  | refl =>
    rw [Function.update_eq_self]
    exact ⟨[], .refl⟩
  | @tail es b b' e _ hstep ih =>
    obtain ⟨es', r⟩ := ih
    rw [← Function.update_self n b s.senders] at hstep
    have hnext := r.tail (.sender hstep)
    rw [Function.update_idem] at hnext
    exact ⟨_, hnext⟩

/-- A listener at work, in its system. -/
lemma system_update {s : Stack ι L ε} {k l streams e} (hstep : SystemStep lru env.crates env.crypto
    (env.address k) (s.system k) e ⟨s.senders, l, streams⟩) (m) :
    ∃ es, Run (SystemStep lru env.crates env.crypto (env.address m)) (s.system m) es
      ⟨s.senders, Function.update s.listeners k l m, Function.update s.streams k streams m⟩ := by
  by_cases hm : m = k
  · subst hm
    rw [Function.update_self, Function.update_self]
    exact ⟨_, .single hstep⟩
  · rw [Function.update_of_ne hm, Function.update_of_ne hm]
    exact ⟨[], .refl⟩

/-- A listener at work that accepts nothing. -/
lemma system_listener {s : Stack ι L ε} {k l e} (hstep : SystemStep lru env.crates env.crypto
    (env.address k) (s.system k) e ⟨s.senders, l, s.streams k⟩) (m) :
    ∃ es, Run (SystemStep lru env.crates env.crypto (env.address m)) (s.system m) es
      ⟨s.senders, Function.update s.listeners k l m, s.streams m⟩ := by
  have h := system_update hstep m
  rwa [Function.update_eq_self] at h

/-- What an event does between the senders and one of the listeners. -/
lemma StackStep.system {s s' : Stack ι L ε} {e} (h : StackStep env lru s e s') (m) :
    ∃ es, Run (SystemStep lru env.crates env.crypto (env.address m)) (s.system m) es (s'.system m) := by
  cases h with
  | send _ _ _ _ _ hqueue => exact system_sender (s := s.system m) hqueue _ _ _
  | respond _ _ _ _ _ hqueue => exact system_sender (s := s.system m) hqueue _ _ _
  | unsent => exact ⟨[], .refl⟩
  | late => exact ⟨[], .refl⟩
  | node => exact ⟨[], .refl⟩
  | sender _ hstep => exact system_sender (s := s.system m) (.single hstep) _ _ _
  | accept hopened hnew _ hstep => exact system_update (.accept hopened hnew hstep) m
  | arrive hstream ha hbytes hstep => exact system_listener (.arrive hstream ha hbytes hstep) m
  | listener hlocal _ hstep => exact system_listener (.listener hlocal hstep) m
  | call _ hstep =>
    exact system_listener (.listener (show Transport.Local .call from trivial) hstep) m

/-- A connection keeps the address of its peer. -/
lemma ips_step {l l' : Listening} {crates crypto e} (hstep : ListenStep crates crypto l e l')
    (haccept : ∀ remoteAddr, e ≠ .accept remoteAddr) :
    l'.accepted.map (·.remoteAddr.ip) = l.accepted.map (·.remoteAddr.ip) := by
  cases hstep with
  | accept => exact absurd rfl (haccept _)
  | arrive ha => exact map_set_eq _ ha rfl
  | bind => rfl
  | acceptFailed => rfl
  | close ha => exact map_set_eq _ ha rfl
  | read ha hread => exact map_set_eq (·.remoteAddr.ip) ha (by rw [(kept_read hread).1])
  | recv => rfl
  | post => rfl
  | call => rfl

/-- The connections of a listener are from where their streams are. -/
def Peers (env : Env ι) (l : Listening) (streams : List (ι × ℕ)) : Prop :=
  l.accepted.map (·.remoteAddr.ip) = streams.map fun p => env.ip p.1

/-- An event keeps them. -/
lemma StackStep.peers {s s' : Stack ι L ε} {e} (h : StackStep env lru s e s')
    (hi : ∀ m, Peers env (s.listeners m) (s.streams m)) (m) :
    Peers env (s'.listeners m) (s'.streams m) := by
  have hother : ∀ {k l e}, ListenStep env.crates env.crypto (s.listeners k) e l →
      (∀ remoteAddr, e ≠ .accept remoteAddr) →
      Peers env (Function.update s.listeners k l m) (s.streams m) := by
    intro k l e hstep haccept
    refine forall_update_left (R := fun _ => Peers env) hi ?_ m
    rw [Peers, ips_step hstep haccept]
    exact hi k
  cases h with
  | send => exact hi m
  | respond => exact hi m
  | unsent => exact hi m
  | late => exact hi m
  | node => exact hi m
  | sender => exact hi m
  | @accept n k stream remoteAddr l _ _ hip hstep =>
    refine forall_update₂ (R := fun _ => Peers env) hi ?_ m
    cases hstep
    rw [Peers, Listening.accept, List.map_append, List.map_append, hi k]
    exact congrArg (_ ++ [·]) hip
  | arrive _ _ _ hstep => exact hother hstep fun _ e => by cases e
  | @listener k e l hlocal _ hstep =>
    refine hother hstep ?_
    rintro remoteAddr rfl
    exact hlocal
  | call _ hstep => exact hother hstep fun _ e => by cases e

/-- An event keeps what was queued for each message. -/
lemma StackStep.grouped {s s' : Stack ι L ε} {e} (h : StackStep env lru s e s')
    (hi : ∀ n, Grouped env n (s.nodes n) (s.senders n)) (n) :
    Grouped env n (s'.nodes n) (s'.senders n) := by
  have hat : ∀ {k a b}, Grouped env k a b → Grouped env n (Function.update s.nodes k a n)
      (Function.update s.senders k b n) := fun hk => forall_update₂ (R := Grouped env) hi hk n
  have hnode : ∀ {k a}, a.sent = (s.nodes k).sent →
      Grouped env n (Function.update s.nodes k a n) (s.senders n) :=
    fun hsent => forall_update_left (R := Grouped env) hi ((hi _).of_eq hsent rfl) n
  cases h with
  | send _ _ hportable hcall hsize hqueue =>
    exact hat ((hi _).of_call hcall hportable hsize (sent_send _ _ _ _ _ _) hqueue)
  | respond _ htime hportable hcall hsize hqueue =>
    exact hat ((hi _).of_call hcall hportable hsize (sent_respondOf _ _ _ _ _ _ _ htime) hqueue)
  | unsent => exact hnode rfl
  | late _ htimeout hlate => exact hnode (by rw [respond_late htimeout hlate])
  | node hlocal hstep => exact hnode (sent_local hlocal hstep)
  | @sender k e b hsend hstep =>
    have hqueued : b.queued = (s.senders k).queued := by
      rw [queued_run (.single hstep), List.filterMap_cons_none hsend, List.filterMap_nil,
        List.append_nil]
    exact forall_update_right (R := Grouped env) hi ((hi k).of_eq rfl hqueued) n
  | accept => exact hi n
  | arrive => exact hi n
  | listener => exact hi n
  | @call m i item now l =>
    refine hnode ?_
    rw [Sn.listenCallback]
    split
    case h_1 => exact sent_extractUUIDHandleData _ _ _ _ _
    case h_2 => rfl

/-! ## The invariant -/

/-- What holds below the nodes in every state of a stack. -/
structure StackInv (env : Env ι) (find : L → SocketAddr → Option ℕ) (s : Stack ι L ε) : Prop where
  system : ∀ m, (s.system m).Inv env.crates env.crypto find (env.address m)
  grouped : ∀ n, Grouped env n (s.nodes n) (s.senders n)
  peers : ∀ m, Peers env (s.listeners m) (s.streams m)

omit [DecidableEq ι] in
/-- It holds at the start. -/
lemma StackInv.new (hlru : lru.Lawful find) (useLru : ι → Bool) (lruSize : ι → ℕ+) :
    StackInv env find (.new lru useLru lruSize : Stack ι L ε) where
  system _ := System.inv_new hlru useLru lruSize
  grouped _ := ⟨[], .nil, rfl⟩
  peers _ := rfl

/-- One event keeps it. -/
lemma StackInv.step (hlru : lru.Lawful find) {s s' : Stack ι L ε} {e} (hi : StackInv env find s)
    (h : StackStep env lru s e s') : StackInv env find s' where
  system m := by
    obtain ⟨es, r⟩ := h.system m
    exact r.invariant (hi.system m) (System.inv_step hlru)
  grouped := h.grouped hi.grouped
  peers := h.peers hi.peers

omit [DecidableEq ι] in
/-- Every send carries what a listener delivers. -/
lemma StackInv.allSendable {s : Stack ι L ε} (hi : StackInv env find s) (m) :
    (s.system m).AllSendable env.crates env.crypto env.keyPair := by
  intro n q hq
  obtain ⟨groups, hgroups, hflatten⟩ := hi.grouped n
  have hmem : q ∈ groups.flatten := hflatten ▸ hq
  obtain ⟨group, hgroup, hq⟩ := List.mem_flatten.mp hmem
  obtain ⟨out, _, hout⟩ := exists_of_forall₂_right hgroups hgroup
  obtain ⟨dest, _, hdest⟩ := exists_of_forall₂_right hout.carries hq
  refine ⟨hout.size q hq, fun remoteAddr => ?_⟩
  obtain ⟨item, _, _, hsent⟩ := hdest.item remoteAddr
  exact ⟨item, hsent⟩

omit [DecidableEq ι] in
/-- What is delivered of a send is the message it carries. -/
lemma CarriesTo.item_eq {n out dest q remoteAddr item} (h : CarriesTo env n out dest q)
    (hsize : q.data.length < 2 ^ 32)
    (hsent : Sent env.crates env.crypto (env.keyPair n) remoteAddr q.data (some item)) :
    item.msg = out.augData.text ∧ (out.withHeader = false → item.requestMetadata = none) := by
  obtain ⟨item', htext, hplain, hsent'⟩ := h.item remoteAddr
  have heq := (hsent.handled env.crates env.crypto _ _ (env.opens n) hsize).symm.trans
    (hsent'.handled env.crates env.crypto _ _ (env.opens n) hsize)
  cases heq
  exact ⟨htext, hplain⟩

omit [DecidableEq ι] in
/-- A message that the callback reads was sent to the node by the node whose IP address it names. -/
lemma StackInv.read_called {s : Stack ι L ε} (hi : StackInv env find s) {m i item augData header}
    (hcalled : (i, item) ∈ (s.listeners m).called) (hread :
      env.read item = some (augData, header)) :
    ∃ n out, Addressed env.hosts s.nodes n m out ∧ env.hosts.read out.augData = some augData ∧
      item.remoteAddr.ip = env.ip n := by
  obtain ⟨origin, _, hbrought, horigin, _⟩ := (hi.system m).origins env.opens (hi.allSendable m)
  obtain ⟨⟨n, q⟩, hmem, stream, a, hstream, ha, hsent⟩ := exists_of_forall₂_right hbrought hcalled
  obtain ⟨hq, haddress, _⟩ := horigin _ hmem
  obtain ⟨groups, hgroups, hflatten⟩ := hi.grouped n
  have hqueued : q ∈ groups.flatten := hflatten ▸ hq
  obtain ⟨group, hgroup, hq⟩ := List.mem_flatten.mp hqueued
  obtain ⟨out, hout, hcarries⟩ := exists_of_forall₂_right hgroups hgroup
  obtain ⟨dest, hdest, hto⟩ := exists_of_forall₂_right hcarries.carries hq
  refine ⟨n, out, ⟨hout, dest, hdest, ?_⟩, ?_, ?_⟩
  · show env.target dest = some (env.address m)
    rw [← haddress]
    exact hto.target
  · have htext := Env.readText_of_read hread
    rw [(hto.item_eq (hcarries.size q hq) hsent).1, readText_text hcarries.portable] at htext
    exact htext
  · have hips := congrArg (·[i]?) (hi.peers m)
    simp only [List.getElem?_map] at hips
    have hip : (s.listeners m).accepted[i]?.map (·.remoteAddr.ip) =
        (s.streams m)[i]?.map fun p => env.ip p.1 := hips
    rw [show (s.listeners m).accepted[i]? = some a from ha,
      show (s.streams m)[i]? = some (n, stream) from hstream] at hip
    rw [remoteAddr_of_sent hsent]
    exact Option.some.inj hip

/-! ## The refinement -/

/-- What an event of the stack is to the nodes. -/
def StackEvent.atNodes (env : Env ι) :
    StackEvent ι ε → Option (ι × Event (Option Value) (Option (Json × Json)))
  | .node n e => some (n, e)
  | .call m item now => (env.read item).map fun p =>
    (m, .arrive p.1 ⟨env.ipText item.remoteAddr.ip, item.remoteAddr.port.toNat⟩ p.2 now)
  | _ => none

/-- An event of the stack is an event of the network of its nodes, or none. -/
lemma StackStep.nodes (hlru : lru.Lawful find) {s s' : Stack ι L ε} {e} (hi : StackInv env find s)
    (h : StackStep env lru s e s') :
    Run (NetStep env.hosts) s.nodes (e.atNodes env).toList s'.nodes := by
  have hi' := hi.step hlru h
  cases h with
  | send hnew hname => exact .single (.send hnew hname)
  | respond hhandled => exact .single (.respond hhandled)
  | unsent hnew hname => exact .single (.send hnew hname)
  | late hhandled => exact .single (.respond hhandled)
  | node hlocal hstep => exact .single (.other hlocal hstep)
  | sender => exact .refl
  | accept => exact .refl
  | arrive => exact .refl
  | listener => exact .refl
  | @call m i item now l hqueue hstep =>
    rw [StackEvent.atNodes, Sn.listenCallback]
    cases hread : env.read item with
    | none =>
      rw [Function.update_eq_self]
      exact .refl
    | some p =>
      obtain ⟨augData, header⟩ := p
      have hcalled : (i, item) ∈ (Function.update s.listeners m l m).called := by
        rw [Function.update_self]
        cases hstep with
        | call hqueue' =>
          rw [hqueue'] at hqueue
          cases hqueue
          exact List.mem_append_right _ (List.mem_singleton_self _)
      have hlistened : StackInv env find { s with listeners := Function.update s.listeners m l } :=
        ⟨hi'.system, hi.grouped, hi'.peers⟩
      obtain ⟨n, out, hout, hdata, hip⟩ := hlistened.read_called hcalled hread
      exact .single (.arrive hout hdata (congrArg env.ipText hip))

end

end

/-! ## Two nodes -/

end ShardusNet.Node
