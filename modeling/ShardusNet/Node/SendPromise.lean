import ShardusNet.Binding.MultiSend
import ShardusNet.Lib.Runs
import ShardusNet.Transport.Connection
/-!
# The promise of a send

Port of the promise in `_sendAug` and `_wrappedSendAug` of `src/index.ts`, over the completions that
a call of the binding brings about. The native side calls `sendCallback` once for each completion,
in the order in which they arrive, on the JavaScript thread; a multi-send has one promise for all of
them.

* `Promise`: settled once, by `resolve` or by a throw.
* `Sending.Step`: one completion arrives. `promise_eq` says what the promise is after any run: what
  the first completion made of it.
* `multiSend_reports_iff`: when every completion of a multi-send has arrived, the promise reports
  its failures exactly when nothing failed or the first completion is a failure.
-/

namespace ShardusNet.Node
open Binding Transport Wire Runs

/-- A promise, with the message of the error it was rejected with. -/
inductive Promise (α : Type*) where
  | pending
  | fulfilled (value : α)
  | rejected (message : String)
  deriving DecidableEq

/-- `resolve`: only a pending promise is settled. -/
def Promise.resolve {α : Type*} (value : α) : Promise α → Promise α
  | .pending => .fulfilled value
  | p => p

/-- The value of the promise in `_sendAug`. -/
structure SendAugResult where
  success : Bool
  error : Option String
  deriving DecidableEq

section
variable {ε : Type*} (debugError : ε → String) (debugAddress : SocketAddr → String)

/-- The derived `Debug` text of a variant. -/
def debugVariant (name fields : String) : String := name ++ "(" ++ fields ++ ")"

/-- The `Debug` text of a `SenderError`. -/
def debugSenderError : SenderError ε → String
  | .ConnectionFailedError error address =>
    debugVariant "ConnectionFailedError" (debugError error ++ ", " ++ debugAddress address)
  | .SendFailedError error address =>
    debugVariant "SendFailedError" (debugError error ++ ", " ++ debugAddress address)

/-- The argument that the native side calls the callback with; none for a success. -/
def completeArg : SendResult ε → Option String
  | .ok () => none
  | .error err => some (debugSenderError debugError debugAddress err)

/-- `if (error)`: there is one, and it is not the empty string. -/
def truthy : Option String → Bool
  | some error => !error.isEmpty
  | none => false

/-- `sendCallback`. -/
def sendCallback (error : Option String) (p : Promise SendAugResult) : Promise SendAugResult :=
  if truthy error then p.resolve ⟨false, error⟩ else p.resolve ⟨true, none⟩

/-- `_wrappedSendAug`, and so `multiSendWithHeader`, after `await _sendAug`. -/
def wrappedSendAug (UUID : String) : Promise SendAugResult → Promise Unit
  | .pending => .pending
  | .rejected message => .rejected message
  | .fulfilled res =>
    if !res.success then
      .rejected (s!"_wrappedSendAug: request id {UUID}: failed with error " ++ res.error.getD "undefined")
    else .fulfilled ()

/-! ## Completions -/

/-- A send whose call has returned: the completion channels that still bring about a callback, and
    the promise. -/
structure Sending where
  unfinished : List ℕ
  promise : Promise SendAugResult

/-- The send after the call of the binding. A call that throws rejects the promise. -/
def Sending.start (call : Call) (message : Thrown → String) : Sending where
  unfinished := (call.queued.filter Prod.snd).map Prod.fst
  promise :=
    match call.outcome with
    | .ok () => .pending
    | .error t => .rejected (message t)

/-- The completion on one of the channels arrives. -/
inductive Sending.Step (result : ℕ → SendResult ε) : Sending → ℕ → Sending → Prop
  | complete {s tx} (h : tx ∈ s.unfinished) :
    Sending.Step result s tx
      { unfinished := s.unfinished.erase tx
        promise := sendCallback (completeArg debugError debugAddress (result tx)) s.promise }

/-- The send has failed. -/
def Failed (r : SendResult ε) : Prop := ∃ err, r = .error err

/-- The promise rejects if one of the sends has failed, and resolves if all have succeeded. -/
def Reports (result : ℕ → SendResult ε) (txs : List ℕ) (UUID : String) (p : Promise SendAugResult) :
    Prop :=
  ((∃ tx ∈ txs, Failed (result tx)) → ∃ message, wrappedSendAug UUID p = .rejected message) ∧
    ((∀ tx ∈ txs, result tx = .ok ()) → wrappedSendAug UUID p = .fulfilled ())

/-! ### One completion -/

/-- The text of a variant is not empty. -/
lemma truthy_debugVariant (name fields : String) : truthy (some (debugVariant name fields)) = true := by
  rw [truthy, Bool.not_eq_true', Bool.eq_false_iff]
  intro h
  rw [String.isEmpty_iff, debugVariant, String.append_eq_empty_iff] at h
  exact absurd h.2 (by decide)

/-- The text of an error is not empty. -/
lemma truthy_debugSenderError (err : SenderError ε) :
    truthy (some (debugSenderError debugError debugAddress err)) = true := by
  cases err with
  | ConnectionFailedError error address => exact truthy_debugVariant _ _
  | SendFailedError error address => exact truthy_debugVariant _ _

/-- A completion settles a pending promise by its own result. -/
lemma sendCallback_pending (r : SendResult ε) :
    sendCallback (completeArg debugError debugAddress r) .pending =
      match r with
      | .ok () => .fulfilled ⟨true, none⟩
      | .error err => .fulfilled ⟨false, some (debugSenderError debugError debugAddress err)⟩ := by
  cases r with
  | ok u => rfl
  | error err =>
    rw [completeArg, sendCallback, if_pos (truthy_debugSenderError debugError debugAddress err)]
    rfl

/-- A settled promise stays as it is. -/
lemma sendCallback_settled {p : Promise SendAugResult} (hp : p ≠ .pending) (error) :
    sendCallback error p = p := by
  cases p with
  | pending => exact absurd rfl hp
  | fulfilled value => unfold sendCallback; split <;> rfl
  | rejected message => unfold sendCallback; split <;> rfl

/-- A completion settles the promise. -/
lemma sendCallback_ne_pending (error) (p : Promise SendAugResult) : sendCallback error p ≠ .pending := by
  cases p <;> unfold sendCallback <;> split <;> simp [Promise.resolve]

/-! ### Runs -/

variable {debugError debugAddress} {result : ℕ → SendResult ε} {s₀ s : Sending} {es : List ℕ}

/-- The completions that have arrived and those that have not are those of the start, in some
    order. -/
lemma arrived_perm (r : Run (Sending.Step debugError debugAddress result) s₀ es s) :
    (es ++ s.unfinished).Perm s₀.unfinished := by
  refine r.invariant_along (I := fun es s => (es ++ s.unfinished).Perm s₀.unfinished) (.refl _) ?_
  intro es s tx s' ih h
  cases h with
  | complete htx =>
    rw [List.append_assoc, List.singleton_append]
    exact ((List.perm_cons_erase htx).symm.append_left es).trans ih

/-- After any run the promise is what the first completion has made of it. -/
lemma promise_eq (r : Run (Sending.Step debugError debugAddress result) s₀ es s) (hp : s₀.promise = .pending) :
    s.promise =
      match es.head? with
      | none => .pending
      | some tx => sendCallback (completeArg debugError debugAddress (result tx)) .pending := by
  refine r.invariant_along (I := fun es s => s.promise = match es.head? with
    | none => .pending
    | some tx => sendCallback (completeArg debugError debugAddress (result tx)) .pending) hp ?_
  intro es s tx s' ih h
  cases h with
  | complete htx =>
    cases es with
    | nil =>
      rw [List.head?_nil] at ih
      rw [ih]
      rfl
    | cons first es =>
      rw [List.head?_cons] at ih
      rw [List.cons_append, List.head?_cons]
      rw [ih]
      exact sendCallback_settled (sendCallback_ne_pending _ _) _

/-- When all completions have arrived, the promise reports the failures exactly when there is none
    or the first completion is one. -/
lemma reports_iff (r : Run (Sending.Step debugError debugAddress result) s₀ es s) (hp : s₀.promise = .pending)
    (hne : s₀.unfinished ≠ []) (hdone : s.unfinished = []) (UUID : String) :
    Reports result s₀.unfinished UUID s.promise ↔
      (∀ tx ∈ s₀.unfinished, result tx = .ok ()) ∨ ∃ tx, es.head? = some tx ∧ Failed (result tx) := by
  have hperm := arrived_perm r
  rw [hdone, List.append_nil] at hperm
  obtain ⟨first, rest, rfl⟩ : ∃ first rest, es = first :: rest := by
    cases es with
    | nil => exact absurd (List.nil_perm.mp hperm) hne
    | cons first rest => exact ⟨first, rest, rfl⟩
  have hfirst : first ∈ s₀.unfinished := hperm.mem_iff.mp List.mem_cons_self
  have hpromise := promise_eq r hp
  rw [List.head?_cons] at hpromise ⊢
  simp only [sendCallback_pending] at hpromise
  rw [hpromise]
  cases hr : result first with
  | ok u =>
    -- the promise resolves, so a failure that arrives later is lost
    constructor
    · rintro ⟨hreject, _⟩
      refine .inl ?_
      intro tx htx
      cases htxr : result tx with
      | ok u => rfl
      | error err =>
        obtain ⟨message, hm⟩ := hreject ⟨tx, htx, err, htxr⟩
        cases hm
    · rintro (hall | ⟨tx, e, err, herr⟩)
      · refine ⟨?_, fun _ => rfl⟩
        rintro ⟨tx, htx, err, herr⟩
        rw [hall tx htx] at herr
        cases herr
      · cases e
        rw [hr] at herr
        cases herr
  | error err =>
    constructor
    · intro _
      exact .inr ⟨first, rfl, err, hr⟩
    · intro _
      refine ⟨fun _ => ⟨_, rfl⟩, ?_⟩
      intro hall
      rw [hall first hfirst] at hr
      cases hr

end

/-! ## Multi-sends -/

variable {cfg : Config} {resolve : Resolve} {args : MultiSendWithHeaderArgs} {tx : ℕ}

/-- A multi-send that returns and has a port for each host waits for one completion for each
    host. -/
lemma start_multiSend (message) (hok : (multiSendWithHeader cfg resolve args tx).outcome = .ok ())
    (hlen : args.hosts.length = args.ports.length) (hawait : args.awaitProcessing = true) :
    args.hosts ≠ [] ∧
      Sending.start (multiSendWithHeader cfg resolve args tx) message =
        ⟨List.range' tx args.hosts.length, .pending⟩ := by
  obtain ⟨_, e⟩ | ⟨_, _, ⟨_, e, _⟩ | ⟨addresses, m, hr, hne, _, e⟩⟩ :=
    multiSendWithHeader_cases cfg resolve args tx
  · rw [e] at hok
    cases hok
  · rw [e] at hok
    cases hok
  · have hlength := length_resolveAll hr
    rw [List.length_zip, ← hlen, Nat.min_self] at hlength
    have hhosts : args.hosts ≠ [] := by
      intro hnil
      rw [hnil] at hlength
      exact hne (List.eq_nil_of_length_eq_zero hlength)
    refine ⟨hhosts, ?_⟩
    have hchannels : (multiSendWithHeader cfg resolve args tx).channels =
        (multiQueued m addresses tx args.hosts.length).map some := by
      rw [e, hlength, Nat.sub_self, List.replicate_zero, List.append_nil]
    have hqueued := Call.queued_eq hchannels
    rw [multiQueued_completeTx hlength] at hqueued
    rw [Sending.start, hqueued, e, hawait, List.filter_map, List.map_map]
    simp [Function.comp_def]

/-- For a multi-send to one or more destinations with `awaitProcessing`, and any order in which the
    completions arrive: the promise rejects if a destination has failed and resolves if all have
    succeeded, exactly when none has failed or the first completion to arrive is a failure. -/
theorem multiSend_reports_iff {ε : Type*} (debugError : ε → String) (debugAddress : SocketAddr → String)
    (cfg : Config) (resolve : Resolve) (args : MultiSendWithHeaderArgs) (tx : ℕ)
    (message : Thrown → String) (UUID : String)
    (hok : (multiSendWithHeader cfg resolve args tx).outcome = .ok ())
    (hlen : args.hosts.length = args.ports.length) (hawait : args.awaitProcessing = true)
    (result : ℕ → SendResult ε) {arrivals : List ℕ} {s : Sending}
    (r : Run (Sending.Step debugError debugAddress result)
      (.start (multiSendWithHeader cfg resolve args tx) message) arrivals s)
    (hdone : s.unfinished = []) :
    Reports result (List.range' tx args.hosts.length) UUID s.promise ↔
      (∀ i < args.hosts.length, result (tx + i) = .ok ()) ∨
        ∃ first, arrivals.head? = some first ∧ Failed (result first) := by
  obtain ⟨hhosts, e⟩ := start_multiSend message hok hlen hawait
  rw [e] at r
  have hne : List.range' tx args.hosts.length ≠ [] := by
    simpa using hhosts
  rw [reports_iff r rfl hne hdone UUID]
  have hall : (∀ i ∈ List.range' tx args.hosts.length, result i = .ok ()) ↔
      ∀ i < args.hosts.length, result (tx + i) = .ok () := by
    simp only [List.mem_range'_1]
    constructor
    · intro h i hi
      exact h (tx + i) ⟨by omega, by omega⟩
    · intro h i hi
      obtain ⟨k, rfl⟩ := Nat.exists_eq_add_of_le hi.1
      exact h k (by omega)
  rw [hall]

/-! ## A success and a failure -/

/-- The first destination takes the message and the second refuses the connection. -/
def sampleResult (tx : ℕ) : SendResult String :=
  if tx = 0 then .ok () else .error (.ConnectionFailedError "Connection refused" sampleAddr)

/-- A multi-send to two destinations. -/
def twoDestinations : MultiSendWithHeaderArgs :=
  sampleMultiArgs [44444, 44445] ["127.0.0.1", "127.0.0.2"]

/-- The call to the two destinations returns. -/
lemma twoDestinations_returns :
    (multiSendWithHeader sampleConfig sampleResolve twoDestinations 0).outcome = .ok () := by
  have hne : ["127.0.0.1", "127.0.0.2"].zip [(44444 : UInt16), 44445] ≠ [] := List.cons_ne_nil _ _
  obtain ⟨addresses, m, _, e⟩ := multiSendWithHeader_sample hne
  rw [twoDestinations, e]

/-- Both completions arrive, that of `a` first. -/
lemma run_twoDestinations {a b : ℕ} (hab : [0, 1].Perm [a, b]) :
    Run (Sending.Step id (fun _ => "") sampleResult)
      (.start (multiSendWithHeader sampleConfig sampleResolve twoDestinations 0) fun _ => "") [a, b]
      ⟨[], sendCallback (completeArg id (fun _ => "") (sampleResult b))
        (sendCallback (completeArg id (fun _ => "") (sampleResult a)) .pending)⟩ := by
  have hstart : Sending.start (multiSendWithHeader sampleConfig sampleResolve twoDestinations 0)
      (fun _ => "") = ⟨[0, 1], .pending⟩ := (start_multiSend _ twoDestinations_returns rfl rfl).2
  rw [hstart]
  have ha : a ∈ [0, 1] := hab.mem_iff.mpr (.head _)
  have herase : ([0, 1] : List ℕ).erase a = [b] := by
    have h := hab.erase a
    rw [List.erase_cons_head] at h
    exact List.perm_singleton.mp h
  have first : Sending.Step id (fun _ => "") sampleResult ⟨[0, 1], .pending⟩ a
      ⟨[b], sendCallback (completeArg id (fun _ => "") (sampleResult a)) .pending⟩ := by
    rw [← herase]
    exact .complete ha
  have second : Sending.Step id (fun _ => "") sampleResult
      ⟨[b], sendCallback (completeArg id (fun _ => "") (sampleResult a)) .pending⟩ b
      ⟨[], sendCallback (completeArg id (fun _ => "") (sampleResult b))
        (sendCallback (completeArg id (fun _ => "") (sampleResult a)) .pending)⟩ := by
    have h : Sending.Step id (fun _ => "") sampleResult
        ⟨[b], sendCallback (completeArg id (fun _ => "") (sampleResult a)) .pending⟩ b _ :=
      .complete (List.mem_singleton_self b)
    rw [List.erase_cons_head] at h
    exact h
  exact (Run.single first).append (.single second)

/-- The failure arrives first, and the promise rejects. -/
theorem multiSend_reports_failureFirst :
    Reports sampleResult (List.range' 0 2) "u"
      (sendCallback (completeArg id (fun _ => "") (sampleResult 0))
        (sendCallback (completeArg id (fun _ => "") (sampleResult 1)) .pending)) := by
  have r := run_twoDestinations (.swap 1 0 [])
  have h := multiSend_reports_iff id (fun _ => "") sampleConfig sampleResolve twoDestinations 0
    (fun _ => "") "u" twoDestinations_returns rfl rfl sampleResult r rfl
  exact h.mpr (.inr ⟨1, rfl, _, rfl⟩)

/-- The success arrives first: the promise resolves although the second destination has failed. -/
theorem multiSend_reports_fails_successFirst :
    ∃ s, Run (Sending.Step id (fun _ => "") sampleResult)
        (.start (multiSendWithHeader sampleConfig sampleResolve twoDestinations 0) fun _ => "")
        [0, 1] s ∧
      s.unfinished = [] ∧ Failed (sampleResult 1) ∧ wrappedSendAug "u" s.promise = .fulfilled () ∧
      ¬ Reports sampleResult (List.range' 0 2) "u" s.promise := by
  refine ⟨_, run_twoDestinations (.refl _), rfl, ⟨_, rfl⟩, rfl, ?_⟩
  rintro ⟨hreject, _⟩
  obtain ⟨message, h⟩ := hreject ⟨1, by decide, _, rfl⟩
  cases h

end ShardusNet.Node
