import ShardusNet.Binding.Agreement
import ShardusNet.Node.Respond
import ShardusNet.Transport.Cache
/-!
# The instances of a process

Port of what `Sn` of `src/src/index.ts` and `create_shardus_net` of `shardus_net/src/lib.rs` do to
make an instance, and of the statics of `shardus_net/src/shardus_crypto.rs`, which the instances of
a process share. What a call finds outside of the process is a parameter of the call (`Host`).

* `statics_run`: the first call whose options are accepted decides what the statics are, for good.
* `sn_eq_ok`: which calls of `Sn` make an instance, in a process in any state.
* `process_run`: the instances that a process has after any calls, and that each reads what the
  others send, whatever hash keys they were given.
-/

namespace ShardusNet.Node
open Wire Binding Transport ByteCodec

/-! ## The statics -/

/-- Why `Sn` throws. A panic is thrown to JavaScript, too. -/
inductive CreateError where
  /-- an error of `validateSnOpts` -/
  | options (message : String)
  /-- "Failed to initialize sodiumoxide" -/
  | sodium
  /-- "Cannot initialize shardus crypto because hash key is not valid hex" -/
  | hashKey
  /-- "ShardusCrypto instance already initialized" -/
  | alreadyInitialized
  /-- "ShardusCrypto instance not initialized" -/
  | notInitialized
  /-- "Once instance has previously been poisoned" -/
  | poisoned
  /-- a panic of `get_key_pair_using_sk` -/
  | keyPair (p : Panic)
  /-- `throw_type_error` -/
  | typeError (message : String)
  /-- the `unwrap` of a `NonZeroUsize` -/
  | lruSize
  /-- "Hash table capacity overflow" -/
  | capacity

/-- What a call finds: whether `sodiumoxide::init` succeeds, where names lead, and for which
    capacities `LruCache::new` can reserve a table. -/
structure Host where
  sodium : Bool
  resolve : Resolve
  reserves : ℕ+ → Bool

/-- `std::sync::Once`. -/
inductive Once where
  | incomplete
  | poisoned
  | complete
  deriving DecidableEq

/-- The statics of `shardus_crypto.rs`. -/
structure Statics where
  init : Once
  shardusCryptoInstance : Option ShardusCrypto

/-- `ShardusCrypto::new`. -/
def newShardusCrypto (host : Host) (key : String) : Except CreateError ShardusCrypto :=
  if host.sodium then
    match hexDecode key with
    | some hashKey => .ok ⟨hashKey⟩
    | none => .error .hashKey
  else .error .sodium

namespace Statics

/-- The statics at the start of the process. -/
def start : Statics := ⟨.incomplete, none⟩

/-- `initialize_shardus_crypto_instance`. A panic in `call_once` poisons the `Once`. -/
def initializeShardusCryptoInstance (s : Statics) (host : Host) (hexKey : String) :
    Except CreateError Unit × Statics :=
  match s.init with
  | .complete => (.ok (), s)
  | .poisoned => (.error .poisoned, s)
  | .incomplete =>
    match s.shardusCryptoInstance with
    | some _ => (.error .alreadyInitialized, { s with init := .poisoned })
    | none =>
      match newShardusCrypto host hexKey with
      | .ok crypto => (.ok (), ⟨.complete, some crypto⟩)
      | .error e => (.error e, { s with init := .poisoned })

/-- `get_shardus_crypto_instance`. -/
def getShardusCryptoInstance (s : Statics) : Except CreateError ShardusCrypto :=
  match s.shardusCryptoInstance with
  | some crypto => .ok crypto
  | none => .error .notInitialized

end Statics

/-! ## The binding -/

/-- What `create_shardus_net` puts into its object: the address of the listener, and the
    connections and the key pair of the sender. -/
structure NetObject (L : Type) where
  listener : SocketAddr
  connections : ConnectionCache L
  keyPair : KeyPair

section
variable {L : Type} (crates : Crates) (lru : LruCrate L)

/-- `create_shardus_net_listener`. -/
def createShardusNetListener (host : Host) (port : JsNumber) (address : String) :
    Except CreateError SocketAddr :=
  match host.resolve address (UInt16.ofNat (port.toUInt 16)) with
  | some (address :: _) => .ok address
  | _ => .error (.typeError "The provided address is not valid")

/-- `NonZeroUsize::new(..).unwrap()`. -/
def nonZeroUsize (n : ℕ) : Except CreateError ℕ+ :=
  if h : 0 < n then .ok (n.toPNat h) else .error .lruSize

/-- `create_shardus_net_sender`, but for the sender itself. -/
def createShardusNetSender (host : Host) (useLru : Bool) (lruSize : ℕ+) :
    Except CreateError (ConnectionCache L) :=
  if useLru && !host.reserves lruSize then .error .capacity
  else .ok (createConnections lru useLru lruSize)

/-- What `create_shardus_net` does when it has the crypto of the process. -/
def createNetObject (host : Host) (port : JsNumber) (address : String) (useLru : Bool)
    (lruSize : JsNumber) (hexSigningSk : String) : Except CreateError (NetObject L) := do
  let keyPair ← (ShardusCrypto.getKeyPairUsingSk crates (.hex hexSigningSk)).mapError .keyPair
  let listener ← createShardusNetListener host port address
  let lruSize ← nonZeroUsize (lruSize.toUInt 64)
  let connections ← createShardusNetSender lru host useLru lruSize
  return ⟨listener, connections, keyPair⟩

/-- `create_shardus_net`. -/
def createShardusNet (host : Host) (s : Statics) (port : JsNumber) (address : String) (useLru : Bool)
    (lruSize : JsNumber) (hashKey hexSigningSk : String) :
    Except CreateError (NetObject L) × Statics :=
  let (initialized, s) := s.initializeShardusCryptoInstance host hashKey
  (do
    initialized
    let _ ← s.getShardusCryptoInstance
    createNetObject crates lru host port address useLru lruSize hexSigningSk, s)

end

/-! ## The instances -/

section
variable {D : Type*}

/-- `USE_LRU_CACHE`. -/
def SnOpts.useLru (opts : SnOpts D) : Bool :=
  match opts.senderOpts with
  | some senderOpts => senderOpts.useLruCache.getD false
  | none => false

/-- `LRU_SIZE`. -/
def SnOpts.lruSize (opts : SnOpts D) : JsNumber :=
  match opts.senderOpts with
  | some senderOpts => if senderOpts.lruSize.truthy then senderOpts.lruSize else .finite 1028
  | none => .finite 1028

/-- The process: the statics, and the instances that were made, in order. -/
structure Process (D : Type*) (L : Type) where
  statics : Statics
  instances : List (SnOpts D × NetObject L)

variable {L : Type} (crates : Crates) (lru : LruCrate L)

/-- `net.Sn(PORT, ADDRESS, USE_LRU_CACHE, LRU_SIZE, HASH_KEY, SIGNING_SECRET_KEY_HEX)`. -/
def SnOpts.net (opts : SnOpts D) (host : Host) (s : Statics) :
    Except CreateError (NetObject L) × Statics :=
  createShardusNet crates lru host s opts.port opts.listenAddress opts.useLru opts.lruSize
    opts.crypto.hashKey opts.crypto.signingSecretKeyHex

namespace Process

/-- The process at its start. -/
def start : Process D L := ⟨.start, []⟩

/-- `Sn`: what it gives, and the process after it. -/
def sn (p : Process D L) (host : Host) (opts : SnOpts D) :
    Except CreateError (NetObject L) × Process D L :=
  match validateSnOpts opts with
  | .error message => (.error (.options message), p)
  | .ok _ =>
    match opts.net crates lru host p.statics with
    | (.ok net, statics) => (.ok net, ⟨statics, p.instances ++ [(opts, net)]⟩)
    | (.error e, statics) => (.error e, ⟨statics, p.instances⟩)

/-- The process after calls of `Sn`. -/
def run (p : Process D L) (calls : List (Host × SnOpts D)) : Process D L :=
  calls.foldl (fun p call => (p.sn crates lru call.1 call.2).2) p

/-- What a send or a listener of an instance works with: the crypto is the one of the process. -/
def config (p : Process D L) (fromStr : String → Option HeaderV1) (net : NetObject L) :
    Except CreateError Config := do
  let crypto ← p.statics.getShardusCryptoInstance
  return ⟨crates, crypto, net.keyPair, fromStr⟩

end Process

end

section
variable {D : Type*} {L : Type} {crates : Crates} {lru : LruCrate L} {host : Host} {opts : SnOpts D}

/-! ## The first call -/

/-- The options of a call are accepted. -/
def validOpts (call : Host × SnOpts D) : Bool := (validateSnOpts call.2).isOk

/-- The statics that the first call with accepted options leaves. -/
def staticsOf : Option (Host × SnOpts D) → Statics
  | none => .start
  | some (host, opts) =>
    match newShardusCrypto host opts.crypto.hashKey with
    | .ok crypto => ⟨.complete, some crypto⟩
    | .error _ => ⟨.poisoned, none⟩

/-- Only the first call initializes. -/
lemma initialize_staticsOf (first : Option (Host × SnOpts D)) (host opts) :
    ((staticsOf first).initializeShardusCryptoInstance host opts.crypto.hashKey).2 =
      staticsOf (first.or (some (host, opts))) := by
  cases first with
  | none =>
    simp only [staticsOf, Statics.start, Statics.initializeShardusCryptoInstance, Option.none_or]
    cases newShardusCrypto host opts.crypto.hashKey <;> rfl
  | some call =>
    simp only [staticsOf, Statics.initializeShardusCryptoInstance, Option.some_or]
    cases newShardusCrypto call.1 call.2.crypto.hashKey <;> rfl

/-- What a call does to the statics. -/
lemma Process.statics_sn (p : Process D L) : (p.sn crates lru host opts).2.statics =
    if validOpts (host, opts) then
      (p.statics.initializeShardusCryptoInstance host opts.crypto.hashKey).2
    else p.statics := by
  cases hvalid : validateSnOpts opts with
  | error message =>
    simp only [Process.sn, validOpts, hvalid]
    rfl
  | ok _ =>
    simp only [Process.sn, validOpts, hvalid]
    have hstatics : (opts.net crates lru host p.statics).2 =
        (p.statics.initializeShardusCryptoInstance host opts.crypto.hashKey).2 := rfl
    rw [← hstatics]
    rcases opts.net crates lru host p.statics with ⟨_ | _, _⟩
    · rfl
    · rfl

/-- One call more. -/
lemma Process.run_concat (p : Process D L) (calls call) :
    p.run crates lru (calls ++ [call]) = ((p.run crates lru calls).sn crates lru call.1 call.2).2 := by
  rw [run, run, List.foldl_append]
  rfl

/-- The statics of a process are those that its first call with accepted options left. -/
lemma statics_run (calls : List (Host × SnOpts D)) :
    ((Process.start : Process D L).run crates lru calls).statics =
      staticsOf (calls.find? validOpts) := by
  induction calls using List.reverseRecOn with
  | nil => rfl
  | append_singleton calls call ih =>
    rw [Process.run_concat, Process.statics_sn, ih, List.find?_append]
    cases hcall : validOpts call with
    | true =>
      rw [List.find?_singleton, hcall]
      exact initialize_staticsOf _ _ _
    | false =>
      rw [List.find?_singleton, hcall, if_neg Bool.false_ne_true, if_neg Bool.false_ne_true,
        Option.or_none]

/-- The hash key of the process after these calls, if it has one. -/
def firstKey (calls : List (Host × SnOpts D)) : Option Bytes :=
  (calls.find? validOpts).bind fun call =>
    if call.1.sodium then hexDecode call.2.crypto.hashKey else none

/-- The crypto of the process has this key. -/
lemma getShardusCryptoInstance_eq_ok (calls : List (Host × SnOpts D)) {crypto} :
    (staticsOf (calls.find? validOpts)).getShardusCryptoInstance = .ok crypto ↔
      firstKey calls = some crypto.hashKey := by
  have hinstance : (staticsOf (calls.find? validOpts)).shardusCryptoInstance =
      (firstKey calls).map ShardusCrypto.mk := by
    rw [firstKey]
    cases calls.find? validOpts with
    | none => rfl
    | some call =>
      rw [Option.bind_some, staticsOf, newShardusCrypto]
      cases call.1.sodium with
      | false => rfl
      | true => cases hexDecode call.2.crypto.hashKey <;> rfl
  rw [Statics.getShardusCryptoInstance, hinstance]
  cases firstKey calls with
  | none => exact ⟨fun h => (by cases h), fun h => (by cases h)⟩
  | some key => exact ⟨fun h => (by cases h; rfl), fun h => (by cases h; rfl)⟩

/-- A call after one whose options are accepted leaves the key. -/
lemma firstKey_append {calls : List (Host × SnOpts D)} (h : ∃ call ∈ calls, validOpts call = true)
    (later : List (Host × SnOpts D)) : firstKey (calls ++ later) = firstKey calls := by
  have hfirst : (calls.find? validOpts).isSome := by
    rw [List.find?_isSome]
    exact h
  obtain ⟨first, hfirst⟩ := Option.isSome_iff_exists.mp hfirst
  rw [firstKey, firstKey, List.find?_append, hfirst, Option.some_or]

/-- Where there is a key, there was a call whose options are accepted. -/
lemma exists_validOpts {calls : List (Host × SnOpts D)} {key} (h : firstKey calls = some key) :
    ∃ call ∈ calls, validOpts call = true := by
  obtain ⟨first, hfirst, _⟩ := Option.bind_eq_some_iff.mp h
  exact ⟨first, List.mem_of_find?_eq_some hfirst, List.find?_some hfirst⟩

/-! ## Which calls make an instance -/

/-- What a call of `Sn` makes where the process has a crypto. -/
structure Makes (crates : Crates) (lru : LruCrate L) (host : Host) (opts : SnOpts D)
    (net : NetObject L) : Prop where
  valid : validateSnOpts opts = .ok ()
  keyPair : ShardusCrypto.getKeyPairUsingSk crates (.hex opts.crypto.signingSecretKeyHex) =
    .ok net.keyPair
  listener : ∃ rest, host.resolve opts.listenAddress (UInt16.ofNat (opts.port.toUInt 16)) =
    some (net.listener :: rest)
  connections : ∃ lruSize : ℕ+, (lruSize : ℕ) = opts.lruSize.toUInt 64 ∧
    (opts.useLru = true → host.reserves lruSize = true) ∧
    net.connections = createConnections lru opts.useLru lruSize

/-- Options of an instance that is made are accepted. -/
lemma Makes.validOpts {net : NetObject L} (h : Makes crates lru host opts net) :
    validOpts (host, opts) = true := by
  rw [Node.validOpts, h.valid]
  rfl

/-- What a bind gives. -/
lemma bind_eq_ok {α β E : Type} {x : Except E α} {f : α → Except E β} {b : β} :
    (x >>= f) = .ok b ↔ ∃ a, x = .ok a ∧ f a = .ok b := by
  cases x with
  | error e => exact ⟨nofun, nofun⟩
  | ok a => exact ⟨fun h => ⟨a, rfl, h⟩, fun ⟨_, e, h⟩ => by cases e; exact h⟩

/-- A listener is made when its address resolves, at the first of the addresses. -/
lemma createShardusNetListener_eq_ok {port : JsNumber} {address : String} {a} :
    createShardusNetListener host port address = .ok a ↔
      ∃ rest, host.resolve address (UInt16.ofNat (port.toUInt 16)) = some (a :: rest) := by
  rw [createShardusNetListener]
  split
  case h_1 a' rest h =>
    constructor
    · intro e
      cases e
      exact ⟨rest, h⟩
    · rintro ⟨rest', h'⟩
      cases h.symm.trans h'
      rfl
  case h_2 h =>
    refine ⟨nofun, ?_⟩
    rintro ⟨rest, h'⟩
    exact absurd h' (h a rest)

/-- The size is not 0. -/
lemma nonZeroUsize_eq_ok {n : ℕ} {size : ℕ+} : nonZeroUsize n = .ok size ↔ (size : ℕ) = n := by
  rw [nonZeroUsize]
  split
  case isTrue h =>
    rw [Except.ok.injEq]
    exact ⟨fun e => by rw [← e]; rfl, fun e => PNat.eq e.symm⟩
  case isFalse h =>
    refine ⟨nofun, ?_⟩
    rintro rfl
    exact absurd size.pos h

/-- A sender is made when there is room for its cache. -/
lemma createShardusNetSender_eq_ok {useLru : Bool} {lruSize : ℕ+} {connections} :
    createShardusNetSender lru host useLru lruSize = .ok connections ↔
      (useLru = true → host.reserves lruSize = true) ∧
        connections = createConnections lru useLru lruSize := by
  rw [createShardusNetSender]
  cases useLru with
  | false =>
    rw [Bool.false_and, if_neg Bool.false_ne_true, Except.ok.injEq]
    exact ⟨fun e => ⟨nofun, e.symm⟩, fun h => h.2.symm⟩
  | true =>
    cases hreserves : host.reserves lruSize with
    | false => exact ⟨nofun, fun h => absurd (h.1 rfl) Bool.false_ne_true⟩
    | true => exact ⟨fun e => by cases e; exact ⟨fun _ => rfl, rfl⟩, fun h => by rw [h.2]; rfl⟩

/-- What the options make where the process has a crypto. -/
lemma createNetObject_eq_ok (hvalid : validateSnOpts opts = .ok ()) {net : NetObject L} :
    createNetObject crates lru host opts.port opts.listenAddress opts.useLru opts.lruSize
      opts.crypto.signingSecretKeyHex = .ok net ↔ Makes crates lru host opts net := by
  simp only [createNetObject, bind_eq_ok, createShardusNetListener_eq_ok, nonZeroUsize_eq_ok,
    createShardusNetSender_eq_ok]
  constructor
  · rintro ⟨keyPair, hkeyPair, listener, hlistener, lruSize, hsize, connections, hconnections, e⟩
    cases e
    obtain ⟨hreserves, rfl⟩ := hconnections
    refine ⟨hvalid, ?_, hlistener, lruSize, hsize, hreserves, rfl⟩
    cases hget : ShardusCrypto.getKeyPairUsingSk crates (.hex opts.crypto.signingSecretKeyHex) with
    | error p =>
      rw [hget] at hkeyPair
      cases hkeyPair
    | ok keyPair' =>
      rw [hget] at hkeyPair
      cases hkeyPair
      rfl
  · rintro ⟨_, hkeyPair, hlistener, lruSize, hsize, hreserves, hconnections⟩
    refine ⟨net.keyPair, ?_, net.listener, hlistener, lruSize, hsize, net.connections,
      ⟨hreserves, hconnections⟩, rfl⟩
    rw [hkeyPair]
    rfl

/-- The initialization succeeds when the process has a crypto after it. -/
lemma initialize_eq_ok (first : Option (Host × SnOpts D)) (host : Host) (opts : SnOpts D) :
    ((staticsOf first).initializeShardusCryptoInstance host opts.crypto.hashKey).1 = .ok () ↔
      ∃ crypto, (staticsOf (first.or (some (host, opts)))).getShardusCryptoInstance = .ok crypto := by
  cases first with
  | none =>
    simp only [staticsOf, Statics.start, Statics.initializeShardusCryptoInstance, Option.none_or]
    cases newShardusCrypto host opts.crypto.hashKey with
    | error e => exact ⟨fun h => (by cases h), fun ⟨_, h⟩ => (by cases h)⟩
    | ok crypto => exact ⟨fun _ => ⟨crypto, rfl⟩, fun _ => rfl⟩
  | some call =>
    simp only [staticsOf, Statics.initializeShardusCryptoInstance, Option.some_or]
    cases newShardusCrypto call.1 call.2.crypto.hashKey with
    | error e => exact ⟨fun h => (by cases h), fun ⟨_, h⟩ => (by cases h)⟩
    | ok crypto => exact ⟨fun _ => ⟨crypto, rfl⟩, fun _ => rfl⟩

/-- What `net.Sn` makes of options that are accepted. -/
lemma net_eq_ok (first : Option (Host × SnOpts D)) (hvalid : validateSnOpts opts = .ok ())
    {net : NetObject L} :
    (opts.net crates lru host (staticsOf first)).1 = .ok net ↔
      Makes crates lru host opts net ∧
        ∃ crypto,
          (staticsOf (first.or (some (host, opts)))).getShardusCryptoInstance = .ok crypto := by
  simp only [SnOpts.net, createShardusNet, bind_eq_ok, initialize_staticsOf,
    createNetObject_eq_ok hvalid]
  constructor
  · rintro ⟨_, _, crypto, hget, hmakes⟩
    exact ⟨hmakes, crypto, hget⟩
  · rintro ⟨hmakes, crypto, hget⟩
    exact ⟨(), (initialize_eq_ok first host opts).mpr ⟨crypto, hget⟩, crypto, hget, hmakes⟩

/-- What a call of `Sn` whose options are accepted gives is what the binding gives. -/
lemma Process.sn_fst (p : Process D L) (hvalid : validateSnOpts opts = .ok ()) :
    (p.sn crates lru host opts).1 = (opts.net crates lru host p.statics).1 := by
  simp only [Process.sn, hvalid]
  rcases opts.net crates lru host p.statics with ⟨_ | _, _⟩
  · rfl
  · rfl

/-- Which calls of `Sn` make an instance, after any calls before. -/
lemma sn_eq_ok (calls : List (Host × SnOpts D)) (host : Host) (opts : SnOpts D) {net : NetObject L} :
    ((Process.start.run crates lru calls).sn crates lru host opts).1 = .ok net ↔
      Makes crates lru host opts net ∧ ∃ key, firstKey (calls ++ [(host, opts)]) = some key := by
  cases hvalid : validateSnOpts opts with
  | error message =>
    rw [Process.sn, hvalid]
    refine ⟨fun h => (by cases h), ?_⟩
    rintro ⟨hmakes, _⟩
    cases hvalid.symm.trans hmakes.valid
  | ok _ =>
    have hvalidOpts : validOpts (host, opts) = true := by
      rw [validOpts, hvalid]
      rfl
    have hfind : (calls.find? validOpts).or (some (host, opts)) =
        (calls ++ [(host, opts)]).find? validOpts := by
      rw [List.find?_append, List.find?_singleton, if_pos hvalidOpts]
    rw [Process.sn_fst _ hvalid, statics_run, net_eq_ok _ hvalid, hfind]
    simp only [getShardusCryptoInstance_eq_ok]
    constructor
    · rintro ⟨hmakes, crypto, hkey⟩
      exact ⟨hmakes, crypto.hashKey, hkey⟩
    · rintro ⟨hmakes, key, hkey⟩
      exact ⟨hmakes, ⟨key⟩, hkey⟩

/-- A call adds the instance it gives. -/
lemma Process.mem_instances_sn (p : Process D L) {instance_ : SnOpts D × NetObject L} :
    instance_ ∈ (p.sn crates lru host opts).2.instances ↔ instance_ ∈ p.instances ∨
      instance_.1 = opts ∧ (p.sn crates lru host opts).1 = .ok instance_.2 := by
  simp only [Process.sn]
  cases hvalid : validateSnOpts opts with
  | error message => exact ⟨.inl, fun h => h.resolve_right fun h => (by cases h.2)⟩
  | ok _ =>
    rcases opts.net crates lru host p.statics with ⟨e | net, statics⟩
    · exact ⟨.inl, fun h => h.resolve_right fun h => (by cases h.2)⟩
    · simp only [List.mem_append, List.mem_singleton, Prod.ext_iff, Except.ok.injEq, eq_comm]

/-- The instances of a process are those that its calls make, if it has a key. -/
lemma mem_instances_run (calls : List (Host × SnOpts D)) {opts : SnOpts D} {net : NetObject L} :
    (opts, net) ∈ (Process.start.run crates lru calls).instances ↔
      (∃ key, firstKey calls = some key) ∧
        ∃ host, (host, opts) ∈ calls ∧ Makes crates lru host opts net := by
  induction calls using List.reverseRecOn with
  | nil => exact ⟨nofun, fun h => by obtain ⟨_, _, h, _⟩ := h; cases h⟩
  | append_singleton calls call ih =>
    rw [Process.run_concat, Process.mem_instances_sn, sn_eq_ok, ih]
    constructor
    · rintro (⟨⟨key, hkey⟩, host, hcall, hmakes⟩ | ⟨rfl, hmakes, hkey⟩)
      · refine ⟨⟨key, ?_⟩, host, List.mem_append_left _ hcall, hmakes⟩
        rw [firstKey_append (exists_validOpts hkey)]
        exact hkey
      · exact ⟨hkey, call.1, List.mem_append_right _ (List.mem_singleton_self _), hmakes⟩
    · rintro ⟨hkey, host, hcall, hmakes⟩
      rcases List.mem_append.mp hcall with hcall | hcall
      · rw [firstKey_append ⟨_, hcall, hmakes.validOpts⟩] at hkey
        exact .inl ⟨hkey, host, hcall, hmakes⟩
      · cases List.mem_singleton.mp hcall
        exact .inr ⟨rfl, hmakes, hkey⟩

/-- The sends and the listeners of an instance work with its own key pair and the key of the process,
    now and after any calls that follow. -/
lemma config_run {calls : List (Host × SnOpts D)} {key} (hkey : firstKey calls = some key)
    (later : List (Host × SnOpts D)) (fromStr : String → Option HeaderV1) (net : NetObject L) :
    ((Process.start : Process D L).run crates lru (calls ++ later)).config crates fromStr net =
      .ok ⟨crates, ⟨key⟩, net.keyPair, fromStr⟩ := by
  have hget : ((Process.start : Process D L).run crates lru
      (calls ++ later)).statics.getShardusCryptoInstance = .ok ⟨key⟩ := by
    rw [statics_run, getShardusCryptoInstance_eq_ok, firstKey_append (exists_validOpts hkey)]
    exact hkey
  rw [Process.config, hget]
  rfl

/-- The instances of a process, after any calls of `Sn`: they are those that the calls make, if the
    first call whose options are accepted has given a key, and else there are none. A call makes one
    under the same condition. Each has its own key pair and the first call's key, and what it sends
    with a header is read by the listeners of all instances, those of later calls too. -/
theorem process_run (crates : Crates) (lru : LruCrate L) (fromStr : String → Option HeaderV1)
    (calls : List (Host × SnOpts D)) :
    (∀ host opts net, ((Process.start.run crates lru calls).sn crates lru host opts).1 = .ok net ↔
      Makes crates lru host opts net ∧ ∃ key, firstKey (calls ++ [(host, opts)]) = some key) ∧
    (∀ opts net, (opts, net) ∈ (Process.start.run crates lru calls).instances ↔
      (∃ key, firstKey calls = some key) ∧
        ∃ host, (host, opts) ∈ calls ∧ Makes crates lru host opts net) ∧
    ∀ opts net, (opts, net) ∈ (Process.start.run crates lru calls).instances →
      ∃ endpoint : Endpoint D, endpoint.opts = opts ∧
        (Process.start.run crates lru calls).config crates fromStr net = .ok endpoint.cfg ∧
        firstKey calls = some endpoint.cfg.crypto.hashKey ∧
        (endpoint.cfg.keyPair.Opens crates →
          ∀ {headerVersion headerJsString dataJsString call q},
          SendsWithHeader endpoint.cfg headerVersion headerJsString dataJsString call →
          some q ∈ call.channels → q.data.length < 2 ^ 32 →
          HeaderWithinLimit endpoint.cfg headerVersion headerJsString →
          ∀ later peer remoteAddr, (Process.start.run crates lru
            (calls ++ later)).statics.getShardusCryptoInstance = .ok peer →
          ∃ metadata, handleFrame crates peer remoteAddr q.data =
            .ok (some ⟨dataJsString, remoteAddr, some metadata⟩)) := by
  refine ⟨fun host opts _ => sn_eq_ok calls host opts, fun _ _ => mem_instances_run calls, ?_⟩
  intro opts net hmem
  obtain ⟨⟨key, hkey⟩, host, _, hmakes⟩ := (mem_instances_run calls).mp hmem
  have hconfig := @config_run D L crates lru _ _ hkey [] fromStr net
  rw [List.append_nil] at hconfig
  let endpoint : Endpoint D :=
    ⟨opts, ⟨crates, ⟨key⟩, net.keyPair, fromStr⟩, hmakes.valid, hmakes.keyPair⟩
  refine ⟨endpoint, rfl, hconfig, hkey, ?_⟩
  intro hopens headerVersion headerJsString dataJsString call q hcall hq hlen hwithin later peer
    remoteAddr hpeer
  rw [statics_run, getShardusCryptoInstance_eq_ok, firstKey_append (exists_validOpts hkey),
    hkey] at hpeer
  cases hpeer
  exact (hcall.carries hq).delivered remoteAddr hopens hlen hwithin

/-- A host of one address. -/
def sampleHost : Host := ⟨true, loopbackResolve, fun _ => true⟩

/-- Options with this hash key. -/
def keyOpts (hashKey : String) : SnOpts String :=
  ⟨.finite 9001, none, none, none, none,
    ⟨hashKey, String.ofList (Hex.encode (List.replicate 64 7))⟩⟩

/-- What they make. -/
def sampleNet : NetObject (ℕ+ × List (SocketAddr × ℕ)) :=
  ⟨⟨.V4 0x7f000001#32, UInt16.ofNat ((JsNumber.finite 9001).toUInt 16)⟩, .hashMap fun _ => none,
    standInKeyPair⟩

/-- An instance is made with these options, where there is a hash key. -/
lemma makes_keyOpts (hashKey : String) (h : hashKey ≠ "") :
    Makes (standIn fun _ _ => true) listLru sampleHost (keyOpts hashKey) sampleNet where
  valid := by
    have hport : ¬ (!(JsNumber.finite 9001).truthy) = true := by decide
    exact (if_neg hport).trans (if_neg h)
  keyPair := getKeyPairUsingSk_encode
  listener := ⟨[], rfl⟩
  connections := by
    refine ⟨1028, ?_, nofun, rfl⟩
    apply Eq.symm
    exact (JsNumber.toUInt_eq_iff (by decide) (by norm_num)).mpr
      ⟨1028, rfl, by norm_num, by norm_num⟩

/-- The text of the key of the examples. -/
def hexKey : String := String.ofList (Hex.encode standInCrypto.hashKey)

/-- The first of two calls gives the key. -/
lemma firstKey_twoKeys (later : List (Host × SnOpts String)) :
    firstKey ((sampleHost, keyOpts hexKey) :: later) = some standInCrypto.hashKey := by
  have hvalid : validOpts (sampleHost, keyOpts hexKey) = true := by decide
  have hdecode : hexDecode hexKey = some standInCrypto.hashKey := by
    rw [hexDecode, hexKey, String.toList_ofList, Hex.decode_encode]
  rw [firstKey, List.find?_cons_of_pos hvalid]
  exact hdecode

/-- The second of two calls makes an instance though its key is not hex; it works with the key of the
    first, and the listeners of the process read what it sends. -/
theorem process_run_twoKeys :
    ∃ endpoint : Endpoint String, endpoint.opts = keyOpts "key" ∧
      (Process.start.run (standIn fun _ _ => true) listLru
        [(sampleHost, keyOpts hexKey), (sampleHost, keyOpts "key")]).config (standIn fun _ _ => true)
          standInFromStr sampleNet = .ok endpoint.cfg ∧ endpoint.cfg.crypto = standInCrypto ∧
      ∃ q metadata,
        (Binding.sendWithHeader endpoint.cfg sampleResolve (Binding.sampleArgs sampleHeader) 0).channels =
          [some q] ∧
        handleFrame (standIn fun _ _ => true) standInCrypto sampleAddr q.data =
          .ok (some ⟨"ok", sampleAddr, some metadata⟩) := by
  obtain ⟨_, hinstances, hendpoints⟩ := process_run (standIn fun _ _ => true) listLru standInFromStr
    [(sampleHost, keyOpts hexKey), (sampleHost, keyOpts "key")]
  have hmem := (hinstances (keyOpts "key") sampleNet).mpr ⟨⟨_, firstKey_twoKeys _⟩, sampleHost,
    List.mem_cons_of_mem _ List.mem_cons_self, makes_keyOpts "key" (by decide)⟩
  obtain ⟨endpoint, hopts, hconfig, hfirst, hdelivers⟩ := hendpoints _ _ hmem
  -- its configuration is the one of the examples
  have hcfg : endpoint.cfg = sampleConfig := by
    have hrun := @config_run String _ (standIn fun _ _ => true) listLru _ _ (firstKey_twoKeys
      [(sampleHost, keyOpts "key")]) [] standInFromStr sampleNet
    rw [List.append_nil, hconfig] at hrun
    exact Except.ok.inj hrun
  refine ⟨endpoint, hopts, hconfig, by rw [hcfg]; rfl, ?_⟩
  rw [hcfg] at hdelivers ⊢
  have hclean : sampleHeader.Clean := ⟨by decide, by decide, by decide⟩
  obtain ⟨q, _, hq, hlen⟩ := sendWithHeader_sample hclean
  have hshort : sampleHeader.serialize.length = 40 := rfl
  have hwithin : HeaderWithinLimit sampleConfig 1 sampleHeader.toJsonString :=
    ⟨_, headerFromJsonString_sample hclean, by decide⟩
  have hchannel : some q ∈
      (Binding.sendWithHeader sampleConfig sampleResolve (Binding.sampleArgs sampleHeader) 0).channels := by
    rw [hq]
    exact List.mem_singleton_self _
  have hpeer : (Process.start.run (standIn fun _ _ => true) listLru
      ([(sampleHost, keyOpts hexKey), (sampleHost, keyOpts "key")] ++
        [(sampleHost, keyOpts "another")])).statics.getShardusCryptoInstance = .ok standInCrypto := by
    rw [statics_run, getShardusCryptoInstance_eq_ok]
    exact firstKey_twoKeys _
  obtain ⟨metadata, hdelivered⟩ := hdelivers standInKeyPair_opens
    (.one sampleResolve 44444 "127.0.0.1" 0) hchannel (by omega) hwithin _ standInCrypto sampleAddr hpeer
  exact ⟨q, metadata, hq, hdelivered⟩

/-- A first key that is not hex leaves the process without one. -/
example : firstKey [(sampleHost, keyOpts "key"), (sampleHost, keyOpts hexKey)] = none := by decide

end

end ShardusNet.Node
