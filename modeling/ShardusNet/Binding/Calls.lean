import ShardusNet.Wire.HeaderJson
import ShardusNet.Wire.Outgoing
/-!
# The sending functions of the binding

Port of `send`, `send_with_header` and `multi_send_with_header` of `shardus_net/src/lib.rs`: what
one call from JavaScript counts, queues and throws. Arguments are taken after their conversion
(`as u16`, `as u8`); address resolution is a parameter of the call, `none` when it fails.

A call is described by a `Call`: how often it increments the counter of outstanding sends, the
completion channels on which it leaves a task waiting, each with the entry of the send channel that
took its sender, and how it ends. A channel whose sender was dropped makes its task panic and does
nothing else.

* `send_leak`, `sendWithHeader_leak`, `multiSendWithHeader_leak`: no call uncounts more sends than
  it counts, and when a call uncounts as many (`Call.leak`).
* `send_atomic`, `sendWithHeader_atomic`, `multiSendWithHeader_atomic`: a call that throws has
  queued nothing.
-/

namespace ShardusNet.Binding
open Wire ByteCodec

/-- What a call throws. A panic is thrown to JavaScript, too. -/
inductive Thrown where
  /-- an argument is not of its type -/
  | argument
  /-- `throw_error` -/
  | error (message : String)
  /-- `throw_type_error` -/
  | typeError (message : String)
  /-- "Expected at least one address" -/
  | noAddress
  /-- a panic of the sender -/
  | panicked (p : Panic)

/-- What one call does. -/
structure Call where
  /-- how often `increment_outstanding_sends` runs -/
  increments : ℕ
  /-- what took the sender of each completion channel that a task waits on -/
  channels : List (Option QueuedSend)
  /-- whether the waiting tasks decrement the counter and call back -/
  awaitProcessing : Bool
  /-- how the call ends -/
  outcome : Except Thrown Unit

/-- The call has an argument that is not of its type. -/
def Call.badArgument : Call := ⟨0, [], true, .error .argument⟩

/-- The arguments of `send`. -/
structure SendArgs where
  port : UInt16
  host : String
  data : String

/-- The arguments of `send_with_header`. -/
structure SendWithHeaderArgs where
  port : UInt16
  host : String
  headerVersion : UInt8
  headerJsString : String
  dataJsString : String

/-- The arguments of `multi_send_with_header`. -/
structure MultiSendWithHeaderArgs where
  ports : List UInt16
  hosts : List String
  headerVersion : UInt8
  headerJsString : String
  dataJsString : String
  awaitProcessing : Bool

/-- `to_socket_addrs`: an error, or the addresses. -/
abbrev Resolve := String → UInt16 → Option (List SocketAddr)

/-- What a binding is set up with: the crates, its hash key and its key pair. -/
structure Config where
  crates : Crates
  crypto : ShardusCrypto
  keyPair : KeyPair
  fromStr : String → Option HeaderV1

/-- `send`. -/
def send (resolve : Resolve) (args : SendArgs) (completeTx : ℕ) : Call :=
  match resolve args.host args.port with
  | some (address :: _) => ⟨1, [some (Wire.send address args.data completeTx)], true, .ok ()⟩
  | some [] => ⟨1, [none], true, .error .noAddress⟩
  | none => ⟨1, [none], true, .error (.typeError "The provided address is not valid")⟩

/-- `send_with_header`. -/
def sendWithHeader (cfg : Config) (resolve : Resolve) (args : SendWithHeaderArgs) (completeTx : ℕ) :
    Call :=
  match headerFromJsonString cfg.fromStr args.headerJsString args.headerVersion with
  | none => ⟨1, [], true, .error (.error "Failed to parse header")⟩
  | some header =>
    match resolve args.host args.port with
    | some (address :: _) =>
      match Wire.sendWithHeader cfg.crates cfg.crypto cfg.keyPair address args.headerVersion header
          (utf8 args.dataJsString) completeTx with
      | .ok queued => ⟨1, [some queued], true, .ok ()⟩
      | .error p => ⟨1, [none], true, .error (.panicked p)⟩
    | some [] => ⟨1, [none], true, .error .noAddress⟩
    | none => ⟨1, [none], true, .error (.typeError "The provided address is not valid")⟩

/-- The loop that resolves the pairs of `multi_send_with_header`. -/
def resolveAll (resolve : Resolve) : List (String × UInt16) → Except Thrown (List SocketAddr)
  | [] => .ok []
  | (host, port) :: pairs =>
    match resolve host port with
    | some (address :: _) => (resolveAll resolve pairs).map (address :: ·)
    | some [] => .error .noAddress
    | none => .error (.typeError s!"The provided address {host}:{port} is not valid")

/-- `multi_send_with_header`. The completion channels are numbered from `completeTx` on. -/
def multiSendWithHeader (cfg : Config) (resolve : Resolve) (args : MultiSendWithHeaderArgs)
    (completeTx : ℕ) : Call :=
  match headerFromJsonString cfg.fromStr args.headerJsString args.headerVersion with
  | none => ⟨args.ports.length, [], args.awaitProcessing, .error (.error "Failed to parse header")⟩
  | some header =>
    let dropped := args.hosts.map fun _ => none
    match resolveAll resolve (args.hosts.zip args.ports) with
    | .error t => ⟨args.ports.length, dropped, args.awaitProcessing, .error t⟩
    | .ok [] =>
      ⟨args.ports.length, dropped, args.awaitProcessing,
        .error (.typeError "No valid addresses provided")⟩
    | .ok addresses =>
      match Wire.multiSendWithHeader cfg.crates cfg.crypto cfg.keyPair addresses args.headerVersion
          header (utf8 args.dataJsString) (List.range' completeTx args.hosts.length) with
      | .ok queued =>
        ⟨args.ports.length, queued.map some ++ List.replicate (args.hosts.length - queued.length) none,
          args.awaitProcessing, .ok ()⟩
      | .error p => ⟨args.ports.length, dropped, args.awaitProcessing, .error (.panicked p)⟩

/-! ## What a call counts and never uncounts -/

/-- The completion channels with a queued send, each with whether its completion is processed. -/
def Call.queued (c : Call) : List (ℕ × Bool) :=
  c.channels.filterMap (Option.map fun q => (q.completeTx, c.awaitProcessing))

/-- How many of the queued sends are uncounted when they are complete. -/
def Call.processed (c : Call) : ℕ := c.queued.countP Prod.snd

/-- How many increments of the call are never undone. -/
def Call.leak (c : Call) : ℕ := c.increments - c.processed

/-- A call never uncounts more than it counts. -/
def Call.Covered (c : Call) : Prop := c.processed ≤ c.increments

/-- Every queued send is processed, or none is. -/
lemma Call.processed_eq (c : Call) :
    c.processed = if c.awaitProcessing then (c.channels.filterMap id).length else 0 := by
  unfold processed queued
  induction c.channels with
  | nil => simp
  | cons o os ih =>
    cases o with
    | none => simpa using ih
    | some q =>
      simp only [List.filterMap_cons, Option.map_some, List.countP_cons, ih, id_eq]
      cases c.awaitProcessing <;> simp

/-- A call that queues nothing uncounts nothing. -/
lemma Call.processed_of_none {c : Call} (h : c.channels.filterMap id = []) : c.processed = 0 := by
  rw [processed_eq, h]
  split <;> rfl

/-- The host and the port have an address. -/
def Resolves (resolve : Resolve) (host : String) (port : UInt16) : Prop :=
  ∃ address rest, resolve host port = some (address :: rest)

/-- The hash accepts the key, for the message that is signed for this header and these data. -/
def Config.Hashes (cfg : Config) (data : Bytes) : Header → Prop
  | .V1 h =>
    (cfg.crates.genericHash cfg.crypto.hashKey
      (Message.newUnsigned 1 { h with messageLength := UInt32.ofNat data.length }.serialize
        data).serializeUnsigned).isSome

/-- A header from JSON is one of version 1. -/
lemma headerFromJsonString_eq_some {fromStr s version header}
    (h : headerFromJsonString fromStr s version = some header) :
    version = 1 ∧ ∃ h, header = .V1 h := by
  unfold headerFromJsonString at h
  split at h
  case isTrue hv =>
    obtain ⟨h', _, rfl⟩ := Option.map_eq_some_iff.mp h
    exact ⟨hv, h', rfl⟩
  case isFalse => cases h

/-- The message of a send is signed exactly when the hash accepts the key. -/
lemma signedMessage_ok_iff {cfg : Config} {header data} {version : UInt8} (hv : version = 1) :
    (∃ m, signedMessage cfg.crates cfg.crypto cfg.keyPair version header data = .ok m) ↔
      cfg.Hashes data header := by
  subst hv
  cases header with
  | V1 h =>
    simp only [signedMessage_eq_ok, Config.Hashes, Option.isSome_iff_exists]
    exact ⟨fun ⟨_, digest, hd, _⟩ => ⟨digest, hd⟩, fun ⟨digest, hd⟩ => ⟨_, digest, hd, rfl⟩⟩

/-- All pairs are resolved, or the loop ends early. -/
lemma resolveAll_ok_iff {resolve pairs} :
    (∃ addresses, resolveAll resolve pairs = .ok addresses) ↔
      ∀ p ∈ pairs, Resolves resolve p.1 p.2 := by
  induction pairs with
  | nil => simp [resolveAll]
  | cons p pairs ih =>
    obtain ⟨host, port⟩ := p
    rw [List.forall_mem_cons, ← ih, resolveAll, Resolves]
    cases resolve host port with
    | none => simp
    | some as =>
      cases as with
      | nil => simp
      | cons a as => cases resolveAll resolve pairs <;> simp [Except.map]

/-- The loop resolves each pair to one address. -/
lemma length_resolveAll {resolve pairs addresses} (h : resolveAll resolve pairs = .ok addresses) :
    addresses.length = pairs.length := by
  induction pairs generalizing addresses with
  | nil =>
    cases h
    rfl
  | cons p pairs ih =>
    obtain ⟨host, port⟩ := p
    rw [resolveAll] at h
    split at h
    case h_1 =>
      cases hr : resolveAll resolve pairs with
      | error t =>
        rw [hr] at h
        cases h
      | ok as =>
        rw [hr] at h
        cases h
        rw [List.length_cons, List.length_cons, ih hr]
    case h_2 => cases h
    case h_3 => cases h

/-- The loop resolves each pair to the first address that its own resolution gives. -/
lemma resolveAll_getElem? {resolve pairs addresses} (h : resolveAll resolve pairs = .ok addresses) {i : ℕ}
    {host port} (hp : pairs[i]? = some (host, port)) :
    ∃ address rest, addresses[i]? = some address ∧ resolve host port = some (address :: rest) := by
  induction pairs generalizing addresses i with
  | nil => cases hp
  | cons p pairs ih =>
    obtain ⟨host', port'⟩ := p
    rw [resolveAll] at h
    split at h
    case h_1 address rest hr =>
      cases hrest : resolveAll resolve pairs with
      | error t =>
        rw [hrest] at h
        cases h
      | ok as =>
        rw [hrest] at h
        cases h
        cases i with
        | zero =>
          cases hp
          exact ⟨address, rest, rfl, hr⟩
        | succ i => exact ih hrest hp
    case h_2 => cases h
    case h_3 => cases h

/-! ### What can happen in a call -/

/-- `send_with_header` when the header parses, the address resolves and the message is signed. -/
lemma sendWithHeader_eq_ok {cfg resolve} {args : SendWithHeaderArgs} {tx header address rest m}
    (hh : headerFromJsonString cfg.fromStr args.headerJsString args.headerVersion = some header)
    (hr : resolve args.host args.port = some (address :: rest))
    (hm : signedMessage cfg.crates cfg.crypto cfg.keyPair args.headerVersion header
      (utf8 args.dataJsString) = .ok m) :
    sendWithHeader cfg resolve args tx =
      ⟨1, [some ⟨address, wrapSerializedMessage m.serialize, tx⟩], true, .ok ()⟩ := by
  simp only [sendWithHeader, hh, hr, Wire.sendWithHeader, hm, bind, Except.bind, pure, Except.pure]

/-- The frames of a multi-send: one message for all addresses, each with its completion channel. -/
def multiQueued (message : Message) (addresses : List SocketAddr) (completeTx n : ℕ) :
    List QueuedSend :=
  (addresses.zip (List.range' completeTx n)).map fun p =>
    ⟨p.1, wrapSerializedMessage message.serialize, p.2⟩

/-- What `multi_send_with_header` can do: the header does not parse; it throws when its channels are
    there; or it queues a frame for each address and drops the channels that are left. -/
lemma multiSendWithHeader_cases (cfg : Config) (resolve : Resolve) (args : MultiSendWithHeaderArgs)
    (tx : ℕ) :
    (headerFromJsonString cfg.fromStr args.headerJsString args.headerVersion = none ∧
      multiSendWithHeader cfg resolve args tx =
        ⟨args.ports.length, [], args.awaitProcessing, .error (.error "Failed to parse header")⟩) ∨
    ∃ header,
      headerFromJsonString cfg.fromStr args.headerJsString args.headerVersion = some header ∧
      ((∃ t, multiSendWithHeader cfg resolve args tx =
          ⟨args.ports.length, args.hosts.map fun _ => none, args.awaitProcessing, .error t⟩ ∧
          (args.hosts.zip args.ports = [] ∨
            (¬ ∀ p ∈ args.hosts.zip args.ports, Resolves resolve p.1 p.2) ∨
            ¬ cfg.Hashes (utf8 args.dataJsString) header)) ∨
        ∃ addresses m, resolveAll resolve (args.hosts.zip args.ports) = .ok addresses ∧
          addresses ≠ [] ∧
          signedMessage cfg.crates cfg.crypto cfg.keyPair args.headerVersion header
            (utf8 args.dataJsString) = .ok m ∧
          multiSendWithHeader cfg resolve args tx =
            ⟨args.ports.length,
              (multiQueued m addresses tx args.hosts.length).map some ++
                List.replicate (args.hosts.length - addresses.length) none,
              args.awaitProcessing, .ok ()⟩) := by
  unfold multiSendWithHeader
  cases hh : headerFromJsonString cfg.fromStr args.headerJsString args.headerVersion with
  | none => exact .inl ⟨rfl, rfl⟩
  | some header =>
    refine .inr ⟨header, rfl, ?_⟩
    obtain ⟨hv, _⟩ := headerFromJsonString_eq_some hh
    cases hr : resolveAll resolve (args.hosts.zip args.ports) with
    | error t =>
      refine .inl ⟨t, rfl, .inr (.inl ?_)⟩
      intro hall
      obtain ⟨addresses, ha⟩ := resolveAll_ok_iff.mpr hall
      rw [hr] at ha
      cases ha
    | ok addresses =>
      have hlength := length_resolveAll hr
      cases addresses with
      | nil => exact .inl ⟨_, rfl, .inl (List.eq_nil_of_length_eq_zero hlength.symm)⟩
      | cons a as =>
        simp only [Wire.multiSendWithHeader]
        cases hm : signedMessage cfg.crates cfg.crypto cfg.keyPair args.headerVersion header
            (utf8 args.dataJsString) with
        | error p =>
          refine .inl ⟨_, rfl, .inr (.inr ?_)⟩
          intro hhash
          obtain ⟨m, hm'⟩ := (signedMessage_ok_iff hv).mpr hhash
          rw [hm] at hm'
          cases hm'
        | ok m =>
          have hle : (a :: as).length ≤ args.hosts.length := by
            rw [hlength, List.length_zip]
            exact Nat.min_le_left _ _
          have hqueued : (multiQueued m (a :: as) tx args.hosts.length).length = (a :: as).length := by
            rw [multiQueued, List.length_map, List.length_zip, List.length_range',
              Nat.min_eq_left hle]
          refine .inr ⟨a :: as, m, rfl, List.cons_ne_nil _ _, rfl, ?_⟩
          rw [← hqueued]
          rfl

/-! ### The three functions -/

/-- `send` uncounts what it counts: the address resolves. -/
def SendArgs.Balanced (resolve : Resolve) (args : SendArgs) : Prop :=
  Resolves resolve args.host args.port

/-- `send_with_header` uncounts what it counts: the header parses, the address resolves and the hash
    accepts the key. -/
def SendWithHeaderArgs.Balanced (cfg : Config) (resolve : Resolve) (args : SendWithHeaderArgs) : Prop :=
  Resolves resolve args.host args.port ∧
    ∃ header, headerFromJsonString cfg.fromStr args.headerJsString args.headerVersion = some header ∧
      cfg.Hashes (utf8 args.dataJsString) header

/-- `multi_send_with_header` uncounts what it counts: it has no ports, or completions are awaited,
    there is a host for each port, the header parses, the addresses resolve and the hash accepts the
    key. -/
def MultiSendWithHeaderArgs.Balanced (cfg : Config) (resolve : Resolve)
    (args : MultiSendWithHeaderArgs) : Prop :=
  args.ports = [] ∨
    args.awaitProcessing = true ∧ args.ports.length ≤ args.hosts.length ∧
      (∀ p ∈ args.hosts.zip args.ports, Resolves resolve p.1 p.2) ∧
      ∃ header, headerFromJsonString cfg.fromStr args.headerJsString args.headerVersion = some header ∧
        cfg.Hashes (utf8 args.dataJsString) header

/-- `send` counts one send and uncounts it exactly when the address resolves. -/
lemma send_leak {resolve args tx} :
    (send resolve args tx).Covered ∧
      ((send resolve args tx).leak = 0 ↔ args.Balanced resolve) := by
  unfold send SendArgs.Balanced Resolves Call.Covered Call.leak
  cases resolve args.host args.port with
  | none => simp [Call.processed_eq]
  | some as => cases as <;> simp [Call.processed_eq]

/-- `send_with_header` counts one send and uncounts it exactly when it is balanced. -/
lemma sendWithHeader_leak {cfg resolve args tx} :
    (sendWithHeader cfg resolve args tx).Covered ∧
      ((sendWithHeader cfg resolve args tx).leak = 0 ↔ args.Balanced cfg resolve) := by
  unfold sendWithHeader SendWithHeaderArgs.Balanced Resolves Call.Covered Call.leak
  cases hh : headerFromJsonString cfg.fromStr args.headerJsString args.headerVersion with
  | none => simp [Call.processed_eq]
  | some header =>
    obtain ⟨hv, _⟩ := headerFromJsonString_eq_some hh
    cases resolve args.host args.port with
    | none => simp [Call.processed_eq]
    | some as =>
      cases as with
      | nil => simp [Call.processed_eq]
      | cons a as =>
        have hsign : (∃ m, signedMessage cfg.crates cfg.crypto cfg.keyPair args.headerVersion header
          (utf8 args.dataJsString) = .ok m) ↔ _ := signedMessage_ok_iff hv
        simp only [Wire.sendWithHeader]
        cases hm : signedMessage cfg.crates cfg.crypto cfg.keyPair args.headerVersion header
            (utf8 args.dataJsString) with
        | error p => simp [hm, ← hsign, Call.processed_eq, bind, Except.bind]
        | ok m => simp [hm, ← hsign, Call.processed_eq, bind, Except.bind, pure, Except.pure]

/-- A call that counts the ports and queues nothing leaks them all. -/
lemma leak_of_none {ports : List UInt16} {channels b t} {P : Prop} (h : channels.filterMap id = [])
    (hP : P → ports = []) :
    (Call.mk ports.length channels b t).Covered ∧
      ((Call.mk ports.length channels b t).leak = 0 ↔ ports = [] ∨ P) := by
  have hp : (Call.mk ports.length channels b t).processed = 0 := Call.processed_of_none h
  have hor : ports = [] ∨ P ↔ ports = [] := ⟨fun h => h.elim id hP, .inl⟩
  unfold Call.Covered Call.leak
  rw [hp, hor]
  simp

/-- A call that queues on the first of its channels uncounts those when completions are awaited. -/
lemma Call.processed_of_queued {k n r : ℕ} {queued : List QueuedSend} {b t} (hq : queued.length = n) :
    (Call.mk k (queued.map some ++ List.replicate r none) b t).processed = if b then n else 0 := by
  rw [processed_eq, ← hq]
  simp

/-- `multi_send_with_header` counts one send for each port and uncounts them exactly when it is
    balanced. -/
lemma multiSendWithHeader_leak {cfg resolve args tx} :
    (multiSendWithHeader cfg resolve args tx).Covered ∧
      ((multiSendWithHeader cfg resolve args tx).leak = 0 ↔ args.Balanced cfg resolve) := by
  have hdropped : (args.hosts.map fun _ => (none : Option QueuedSend)).filterMap id = [] := by simp
  obtain ⟨hh, e⟩ | ⟨header, hh, ⟨t, e, hfail⟩ | ⟨addresses, m, hr, hne, hm, e⟩⟩ :=
    multiSendWithHeader_cases cfg resolve args tx
  · rw [e]
    refine leak_of_none rfl ?_
    rintro ⟨_, _, _, header, hh', _⟩
    rw [hh] at hh'
    cases hh'
  · rw [e]
    refine leak_of_none hdropped ?_
    rintro ⟨_, hle, hall, header', hh', hhash⟩
    rw [hh] at hh'
    cases hh'
    rcases hfail with hnil | hunresolved | hrefused
    · have hzero := congrArg List.length hnil
      rw [List.length_zip, List.length_nil] at hzero
      exact List.eq_nil_of_length_eq_zero (by omega)
    · exact absurd hall hunresolved
    · exact absurd hhash hrefused
  · obtain ⟨hv, _⟩ := headerFromJsonString_eq_some hh
    have hlength := length_resolveAll hr
    have hpos := List.length_pos_of_ne_nil hne
    rw [List.length_zip] at hlength
    have hports : args.ports ≠ [] := by
      intro hnil
      rw [hnil, List.length_nil] at hlength
      omega
    have hqueued : (multiQueued m addresses tx args.hosts.length).length = addresses.length := by
      rw [multiQueued, List.length_map, List.length_zip, List.length_range']
      omega
    have hbal : args.Balanced cfg resolve ↔
        args.awaitProcessing = true ∧ args.ports.length ≤ args.hosts.length := by
      constructor
      · intro hb
        exact (hb.resolve_left hports).imp_right And.left
      · intro ⟨hawait, hle⟩
        exact .inr ⟨hawait, hle, resolveAll_ok_iff.mp ⟨_, hr⟩, header, hh,
          (signedMessage_ok_iff hv).mp ⟨m, hm⟩⟩
    rw [e, hbal, Call.Covered, Call.leak, Call.processed_of_queued hqueued]
    cases args.awaitProcessing <;> simp <;> omega

/-! ### Calls that throw -/

/-- A call that throws has queued nothing. -/
def Call.Atomic (c : Call) : Prop := ∀ t, c.outcome = .error t → c.queued = []

/-- `send` throws before it queues. -/
lemma send_atomic {resolve args tx} : (send resolve args tx).Atomic := by
  intro t h
  unfold send at h ⊢
  split
  case h_1 e =>
    rw [e] at h
    cases h
  case h_2 => rfl
  case h_3 => rfl

/-- `send_with_header` throws before it queues. -/
lemma sendWithHeader_atomic {cfg resolve args tx} : (sendWithHeader cfg resolve args tx).Atomic := by
  intro t h
  unfold sendWithHeader at h ⊢
  split
  case h_1 => rfl
  case h_2 header eh =>
    split
    case h_1 address rest er =>
      split
      case h_1 queued eq =>
        simp only [eh, er, eq] at h
        cases h
      case h_2 => rfl
    case h_2 => rfl
    case h_3 => rfl

/-- `multi_send_with_header` throws before it queues. -/
lemma multiSendWithHeader_atomic {cfg resolve args tx} :
    (multiSendWithHeader cfg resolve args tx).Atomic := by
  intro t h
  obtain ⟨_, e⟩ | ⟨_, _, ⟨_, e, _⟩ | ⟨_, _, _, _, _, e⟩⟩ := multiSendWithHeader_cases cfg resolve args tx
  · rw [e]
    rfl
  · rw [e]
    simp [Call.queued]
  · rw [e] at h
    cases h

end ShardusNet.Binding
