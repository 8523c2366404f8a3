import ShardusNet.Lib.Runs
import ShardusNet.Node.TTLMap
/-!
# One instance

Port of `Sn` in `src/index.ts`, above the native binding: sends, the dispatch of incoming messages
and the timers of requests. Everything here runs on the JavaScript thread, one callback at a time;
what user code does inside a callback happens at its end and is a later event.

A request is named by the number of its timer; its `onResponse`, its `onTimeout` and the callback in
`responseUUIDMapping` close over it. What the user's code is called with is kept in `calls`, the
requests sent with a timeout in `requests`: neither is read by the code.

Left out: the histogram, the texts of log messages and the promise of a send. Of the log flags only
`net_verbose` matters: the messages it prints in the timer callback can throw.
-/

namespace ShardusNet.Node

/-- `msgDir`. -/
inductive MsgDir where
  | ask
  | tell
  | resp
  deriving DecidableEq, Repr

/-- `AugmentedData`. A response has no `timeout` and no `ADDRESS`. -/
structure AugmentedData (D : Type*) where
  data : D
  UUID : String
  PORT : ℕ
  ADDRESS : Option String
  sendTime : ℤ
  receivedTime : ℤ
  replyTime : ℤ
  replyReceivedTime : ℤ
  timeout : Option ℤ
  msgDir : MsgDir
  deriving DecidableEq

/-- `NewAugData`. -/
def newAugData {D : Type*} (data : D) (UUID : String) (port : ℕ) (address : String) (timeoutInMs : ℤ)
    (msgDir : MsgDir) (now : ℤ) : AugmentedData D :=
  { data
    UUID
    PORT := port
    ADDRESS := some address
    sendTime := now
    receivedTime := 0
    replyTime := 0
    replyReceivedTime := 0
    timeout := some timeoutInMs
    msgDir }

/-- `RemoteSender`. -/
structure RemoteSender where
  address : String
  port : ℕ
  deriving DecidableEq

/-- A value of `responseUUIDMapping`: its callback clears the timer and calls `onResponse`. -/
structure Mapping where
  timer : ℕ
  timestamp : ℤ
  deriving DecidableEq

/-- A value of `timedOutUUIDMapping`. -/
structure TimedOut where
  timedOutAt : ℤ
  requestCreatedAt : ℤ
  deriving DecidableEq

/-- A call of the user's code. -/
inductive UserCall (D H : Type*) where
  | onResponse (request : ℕ) (data : D) (header : H)
  | onTimeout (request : ℕ)
  | handleData (augData : AugmentedData D) (remote : RemoteSender) (header : H)
  deriving DecidableEq

/-- What `_sendAug` hands to the binding: the destinations, whether with a header, and the data. -/
structure Outgoing (D : Type*) where
  destinations : List (ℕ × String)
  withHeader : Bool
  augData : AugmentedData D

/-- The options of an instance that its messages carry. -/
structure Options where
  PORT : ℕ
  ADDRESS : String

/-- The state of an instance: the log flag, the timers of requests that are neither fired nor
    cleared, each with the UUID of its request, and the two maps; then what was sent and called so
    far. -/
structure Sn (D H : Type*) where
  netVerbose : Bool
  nextTimer : ℕ
  timers : List (ℕ × String)
  responseUUIDMapping : String → Option Mapping
  timedOutUUIDMapping : TTLMap TimedOut
  sent : List (Outgoing D)
  requests : List (ℕ × String)
  used : List String
  calls : List (UserCall D H)

/-- A property read off a plain object: its own, one of `Object.prototype`, or none. -/
inductive Property (V : Type*) where
  | own (value : V)
  | inherited
  | absent

/-- The properties of `Object.prototype`. -/
def objectPrototypeNames : List String :=
  ["constructor", "__defineGetter__", "__defineSetter__", "hasOwnProperty", "__lookupGetter__",
    "__lookupSetter__", "isPrototypeOf", "propertyIsEnumerable", "toString", "valueOf", "__proto__",
    "toLocaleString"]

/-- A property of a plain object, read by name. -/
def readProperty {V : Type*} (m : String → Option V) (name : String) : Property V :=
  match m name with
  | some v => .own v
  | none => if name ∈ objectPrototypeNames then .inherited else .absent

/-- `retainTimedOutEntriesForMillis`. -/
def retainTimedOutEntriesForMillis : ℤ := 1000 * 60

/-- What a send meets: the time, whether the data and the header can be stringified, and whether the
    binding takes the message. -/
structure SendEnv where
  now : ℤ
  stringifies : Bool
  accepted : Bool

/-- The arguments of `send`, `sendWithHeader` and `multiSendWithHeader`. -/
structure SendArgs (D : Type*) where
  destinations : List (ℕ × String)
  withHeader : Bool
  data : D
  timeout : ℤ
  /-- whether there is an `onResponse` -/
  onResponse : Bool

namespace Sn
variable {D H : Type*}

/-- An instance at its creation. -/
def init : Sn D H where
  netVerbose := false
  nextTimer := 0
  timers := []
  responseUUIDMapping := fun _ => none
  timedOutUUIDMapping := .empty
  sent := []
  requests := []
  used := []
  calls := []

/-- `_sendAug`. -/
def sendAug (s : Sn D H) (destinations : List (ℕ × String)) (withHeader : Bool)
    (augData : AugmentedData D) (timeout : ℤ) (env : SendEnv) : Sn D H :=
  if !env.stringifies then s
  else if !env.accepted then s
  else
    let s := { s with sent := s.sent ++ [⟨destinations, withHeader, augData⟩] }
    if timeout = 0 then s
    else
      { s with
        timers := (s.nextTimer, augData.UUID) :: s.timers
        nextTimer := s.nextTimer + 1
        responseUUIDMapping :=
          Function.update s.responseUUIDMapping augData.UUID (some ⟨s.nextTimer, env.now⟩)
        requests := s.requests ++ [(s.nextTimer, augData.UUID)] }

/-- `send`, `sendWithHeader` and `multiSendWithHeader`, with the UUID that was generated. -/
def send (opts : Options) (s : Sn D H) (args : SendArgs D) (UUID : String) (env : SendEnv) : Sn D H :=
  let msgDir := if args.onResponse then .ask else .tell
  let augData := newAugData args.data UUID opts.PORT opts.ADDRESS args.timeout msgDir env.now
  sendAug { s with used := UUID :: s.used } args.destinations args.withHeader augData args.timeout env

/-- `respond`, for a message that was received at `receivedTime`. A missing `timeout` makes the
    comparison false. -/
def respond (s : Sn D H) (augData : AugmentedData D) (remote : RemoteSender) (receivedTime : ℤ) (data : D)
    (env : SendEnv) : Sn D H :=
  let replyTime := env.now
  let late := match augData.timeout with
    | some timeout => decide (replyTime > augData.sendTime + timeout)
    | none => false
  if late then s
  else
    let sendData : AugmentedData D :=
      { data
        UUID := augData.UUID
        PORT := augData.PORT
        ADDRESS := none
        sendTime := augData.sendTime
        receivedTime
        replyTime
        replyReceivedTime := 0
        timeout := none
        msgDir := .resp }
    s.sendAug [(augData.PORT, remote.address)] true sendData 0 env

/-- The callback of a request's timer. With `net_verbose` it prints the time since the mapping's
    timestamp and the stringified data, and ends there when one of these throws. -/
def onTimer (s : Sn D H) (timer : ℕ) (UUID : String) (now : ℤ) (stringifies : Bool) : Sn D H :=
  let mapping := s.responseUUIDMapping UUID
  let s :=
    { s with
      timers := s.timers.filter (·.1 ≠ timer)
      timedOutUUIDMapping := s.timedOutUUIDMapping.set UUID
        ⟨now, (mapping.map Mapping.timestamp).getD 0⟩ retainTimedOutEntriesForMillis true now }
  if s.netVerbose && (mapping.isNone || !stringifies) then s
  else
    { s with
      responseUUIDMapping := Function.update s.responseUUIDMapping UUID none
      calls := s.calls ++ [.onTimeout timer] }

/-- `extractUUIDHandleData`, for a message that parsed. A property of `Object.prototype` has no
    callback to call, so the call throws, and `listen` catches it. -/
def extractUUIDHandleData (s : Sn D H) (augData : AugmentedData D) (remote : RemoteSender) (header : H)
    (now : ℤ) : Sn D H :=
  match readProperty s.responseUUIDMapping augData.UUID with
  | .own mapping =>
    { s with
      responseUUIDMapping := Function.update s.responseUUIDMapping augData.UUID none
      timers := s.timers.filter (·.1 ≠ mapping.timer)
      calls := s.calls ++ [.onResponse mapping.timer augData.data header] }
  | .inherited => s
  | .absent =>
    let got := s.timedOutUUIDMapping.get augData.UUID now
    let timedOutUUIDMapping := if got.1.isSome then got.2.delete augData.UUID else got.2
    { s with
      timedOutUUIDMapping
      calls := s.calls ++ [.handleData augData remote header] }

end Sn

/-- What happens to an instance. -/
inductive Event (D H : Type*) where
  /-- a send of any kind, under a new UUID -/
  | send (args : SendArgs D) (UUID : String) (env : SendEnv)
  /-- a call of the `respond` of a received message -/
  | respond (augData : AugmentedData D) (remote : RemoteSender) (receivedTime : ℤ) (data : D)
    (env : SendEnv)
  /-- a message that parses arrives -/
  | arrive (augData : AugmentedData D) (remote : RemoteSender) (header : H) (now : ℤ)
  /-- a message arrives that does not parse, which `listen` catches -/
  | malformed
  /-- the timer of a request fires -/
  | timer (timer : ℕ) (UUID : String) (now : ℤ) (stringifies : Bool)
  /-- a timer of `timedOutUUIDMapping` fires -/
  | expire (timer : ExpiryTimer TimedOut)
  /-- `setLogFlags` -/
  | setLogFlags (netVerbose : Bool)

/-- One event. Generated UUIDs are new and name no property of `Object.prototype`; only timers that
    are neither fired nor cleared fire. -/
inductive Step {D H : Type*} (opts : Options) : Sn D H → Event D H → Sn D H → Prop
  | send {s args UUID env} (hnew : UUID ∉ s.used) (hname : UUID ∉ objectPrototypeNames) :
    Step opts s (.send args UUID env) (s.send opts args UUID env)
  | respond {s augData remote receivedTime data env} :
    Step opts s (.respond augData remote receivedTime data env)
      (s.respond augData remote receivedTime data env)
  | arrive {s augData remote header now} :
    Step opts s (.arrive augData remote header now) (s.extractUUIDHandleData augData remote header now)
  | malformed {s} : Step opts s .malformed s
  | timer {s timer UUID now stringifies} (harmed : (timer, UUID) ∈ s.timers) :
    Step opts s (.timer timer UUID now stringifies) (s.onTimer timer UUID now stringifies)
  | expire {s timer} (harmed : timer ∈ s.timedOutUUIDMapping.timers) :
    Step opts s (.expire timer)
      { s with timedOutUUIDMapping := (s.timedOutUUIDMapping.fire timer).2 }
  | setLogFlags {s netVerbose} : Step opts s (.setLogFlags netVerbose) { s with netVerbose }

end ShardusNet.Node
