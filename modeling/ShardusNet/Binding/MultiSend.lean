import ShardusNet.Binding.Agreement
/-!
# One multi-send and many sends

`multi_send_with_header` against `send_with_header` called once for each host with the port at its
position. The multi-send signs once and pairs addresses, frames and completion channels by position.

* `OneByOne`: what a caller may expect of the pairing. A call that throws has queued nothing; a call
  that returns has queued, for each host, the frame of the single send on the channel at its
  position; and no channel is dropped.
* `OneByOneWhen`, `oneByOne_iff`: the inputs on which this holds. Where ports are missing the `zip`s
  drop the channels of the last hosts, and a call that throws when its channels are there drops them
  all.
-/

namespace ShardusNet.Binding
open Wire ByteCodec

section
variable (cfg : Config) (resolve : Resolve) (args : MultiSendWithHeaderArgs) (completeTx : ℕ)

/-- The single send to one of the hosts of a multi-send. -/
def MultiSendWithHeaderArgs.single (port : UInt16) (host : String) : SendWithHeaderArgs :=
  ⟨port, host, args.headerVersion, args.headerJsString, args.dataJsString⟩

/-- Each host is sent, on the completion channel at its position, what a single send to it would
    have been sent. -/
def SentLikeSingles (call : Call) : Prop :=
  call.channels.length = args.hosts.length ∧
    ∀ i host, args.hosts[i]? = some host → ∃ port q, args.ports[i]? = some port ∧
      call.channels[i]? = some (some q) ∧ q.completeTx = completeTx + i ∧
      (sendWithHeader cfg resolve (args.single port host) (completeTx + i)).outcome = .ok () ∧
      (sendWithHeader cfg resolve (args.single port host) (completeTx + i)).channels = [some q]

/-- A multi-send throws and has queued nothing, or sends like the single sends; and it drops none of
    its completion channels. -/
def OneByOne (call : Call) : Prop :=
  ((∃ t, call.outcome = .error t) ∧ call.queued = [] ∨
    call.outcome = .ok () ∧ SentLikeSingles cfg resolve args completeTx call) ∧
    none ∉ call.channels

/-- The header does not parse, or there are no hosts, or there is a port for each host, the
    addresses resolve and the hash accepts the key. -/
def OneByOneWhen : Prop :=
  headerFromJsonString cfg.fromStr args.headerJsString args.headerVersion = none ∨ args.hosts = [] ∨
    args.hosts.length ≤ args.ports.length ∧
      (∀ p ∈ args.hosts.zip args.ports, Resolves resolve p.1 p.2) ∧
      ∃ header, headerFromJsonString cfg.fromStr args.headerJsString args.headerVersion = some header ∧
        cfg.Hashes (utf8 args.dataJsString) header

end

variable {cfg : Config} {resolve : Resolve} {args : MultiSendWithHeaderArgs} {tx : ℕ}

/-- The frame at a position of a multi-send. -/
lemma multiQueued_getElem? {m addresses n i address} (ha : addresses[i]? = some address) (hi : i < n) :
    (multiQueued m addresses tx n)[i]? =
      some ⟨address, wrapSerializedMessage m.serialize, tx + i⟩ := by
  have hrange : (List.range' tx n)[i]? = some (tx + i) := by
    rw [List.getElem?_range' hi]
    simp
  have hzip : (addresses.zip (List.range' tx n))[i]? = some (address, tx + i) :=
    List.getElem?_zip_eq_some.mpr ⟨ha, hrange⟩
  rw [multiQueued, List.getElem?_map, hzip]
  rfl

/-- Each address has its send. -/
lemma length_multiQueued {m addresses n} (h : addresses.length ≤ n) :
    (multiQueued m addresses tx n).length = addresses.length := by
  rw [multiQueued, List.length_map, List.length_zip, List.length_range', Nat.min_eq_left h]

/-- The completion channels of the frames of a multi-send. -/
lemma multiQueued_completeTx {m addresses n} (h : addresses.length = n) :
    (multiQueued m addresses tx n).map QueuedSend.completeTx = List.range' tx n := by
  have hsnd : (addresses.zip (List.range' tx n)).map Prod.snd = List.range' tx n := by
    apply List.map_snd_zip
    rw [List.length_range', h]
  rw [multiQueued, List.map_map]
  exact hsnd

/-- A call whose channels are all taken has these sends unfinished. -/
lemma Call.queued_eq {c : Call} {queued : List QueuedSend} (h : c.channels = queued.map some) :
    c.queued = (queued.map QueuedSend.completeTx).map fun tx => (tx, c.awaitProcessing) := by
  rw [Call.queued, h]
  clear h
  induction queued with
  | nil => rfl
  | cons q queued ih =>
    rw [List.map_cons, List.filterMap_cons, List.map_cons, List.map_cons, ← ih]
    rfl

/-- A multi-send with a port for each host sends like the single sends. -/
lemma sentLikeSingles {header addresses m}
    (hh : headerFromJsonString cfg.fromStr args.headerJsString args.headerVersion = some header)
    (hr : resolveAll resolve (args.hosts.zip args.ports) = .ok addresses)
    (hm : signedMessage cfg.crates cfg.crypto cfg.keyPair args.headerVersion header
      (utf8 args.dataJsString) = .ok m)
    (hle : args.hosts.length ≤ args.ports.length) {call : Call}
    (hcall : call.channels = (multiQueued m addresses tx args.hosts.length).map some) :
    SentLikeSingles cfg resolve args tx call := by
  have hlength : addresses.length = args.hosts.length := by
    rw [length_resolveAll hr, List.length_zip, Nat.min_eq_left hle]
  refine ⟨?_, ?_⟩
  · rw [hcall, List.length_map, length_multiQueued (Nat.le_of_eq hlength), hlength]
  · intro i host hhost
    have hi : i < args.hosts.length := (List.getElem?_eq_some_iff.mp hhost).1
    have hport : args.ports[i]? = some args.ports[i] := List.getElem?_eq_getElem (by omega)
    obtain ⟨address, rest, ha, haddr⟩ :=
      resolveAll_getElem? hr (List.getElem?_zip_eq_some.mpr ⟨hhost, hport⟩)
    have hsingle : sendWithHeader cfg resolve (args.single args.ports[i] host) (tx + i) =
        ⟨1, [some ⟨address, wrapSerializedMessage m.serialize, tx + i⟩], true, .ok ()⟩ :=
      sendWithHeader_eq_ok hh haddr hm
    refine ⟨args.ports[i], ⟨address, wrapSerializedMessage m.serialize, tx + i⟩, hport, ?_, rfl, ?_, ?_⟩
    · rw [hcall, List.getElem?_map, multiQueued_getElem? ha hi]
      rfl
    · rw [hsingle]
    · rw [hsingle]

/-- The pairing is one by one under the condition. -/
lemma oneByOne_of_when (h : OneByOneWhen cfg resolve args) :
    OneByOne cfg resolve args tx (multiSendWithHeader cfg resolve args tx) := by
  obtain ⟨hh, e⟩ | ⟨header, hh, ⟨t, e, hfail⟩ | ⟨addresses, m, hr, hne, hm, e⟩⟩ :=
    multiSendWithHeader_cases cfg resolve args tx
  · rw [e]
    exact ⟨.inl ⟨⟨_, rfl⟩, rfl⟩, List.not_mem_nil⟩
  · -- it throws with channels, so there are no hosts
    have hhosts : args.hosts = [] := by
      rcases h with hnone | hnil | ⟨hle, hall, header', hh', hhash⟩
      · rw [hh] at hnone
        cases hnone
      · exact hnil
      · rw [hh] at hh'
        cases hh'
        rcases hfail with hzip | hunresolved | hrefused
        · have hzero := congrArg List.length hzip
          rw [List.length_zip, List.length_nil] at hzero
          exact List.eq_nil_of_length_eq_zero (by omega)
        · exact absurd hall hunresolved
        · exact absurd hhash hrefused
    rw [e, hhosts]
    exact ⟨.inl ⟨⟨_, rfl⟩, rfl⟩, List.not_mem_nil⟩
  · -- it returns, so there are hosts, and a port for each
    have hlength := length_resolveAll hr
    have hpos := List.length_pos_of_ne_nil hne
    rw [List.length_zip] at hlength
    have hle : args.hosts.length ≤ args.ports.length := by
      rcases h with hnone | hnil | ⟨hle, _⟩
      · rw [hh] at hnone
        cases hnone
      · rw [hnil, List.length_nil] at hlength
        omega
      · exact hle
    have hchannels : (multiSendWithHeader cfg resolve args tx).channels =
        (multiQueued m addresses tx args.hosts.length).map some := by
      have hzero : args.hosts.length - addresses.length = 0 := by omega
      rw [e, hzero, List.replicate_zero, List.append_nil]
    refine ⟨.inr ⟨by rw [e], sentLikeSingles hh hr hm hle hchannels⟩, ?_⟩
    rw [hchannels]
    simp

/-- The condition holds where no channel is dropped. -/
lemma when_of_oneByOne
    (h : OneByOne cfg resolve args tx (multiSendWithHeader cfg resolve args tx)) :
    OneByOneWhen cfg resolve args := by
  obtain ⟨_, hdropped⟩ := h
  obtain ⟨hh, _⟩ | ⟨header, hh, ⟨t, e, _⟩ | ⟨addresses, m, hr, hne, hm, e⟩⟩ :=
    multiSendWithHeader_cases cfg resolve args tx
  · exact .inl hh
  · refine .inr (.inl ?_)
    rw [e] at hdropped
    by_contra hhosts
    obtain ⟨host, hosts, ehosts⟩ := List.exists_cons_of_ne_nil hhosts
    apply hdropped
    rw [ehosts]
    exact List.mem_cons_self
  · obtain ⟨hv, _⟩ := headerFromJsonString_eq_some hh
    have hlength := length_resolveAll hr
    rw [List.length_zip] at hlength
    refine .inr (.inr ⟨?_, resolveAll_ok_iff.mp ⟨_, hr⟩, header, hh,
      (signedMessage_ok_iff hv).mp ⟨m, hm⟩⟩)
    by_contra hlt
    apply hdropped
    rw [e]
    apply List.mem_append_right
    exact List.mem_replicate.mpr ⟨by omega, rfl⟩

/-- A multi-send is its single sends in one call exactly when the header does not parse, or there
    are no hosts, or there is a port for each host, the addresses resolve and the hash accepts the
    key. -/
theorem oneByOne_iff (cfg : Config) (resolve : Resolve) (args : MultiSendWithHeaderArgs) (tx : ℕ) :
    OneByOne cfg resolve args tx (multiSendWithHeader cfg resolve args tx) ↔
      OneByOneWhen cfg resolve args :=
  ⟨when_of_oneByOne, oneByOne_of_when⟩

/-! ## Sample calls -/

/-- A call to these hosts and ports, with the header used in examples. -/
def sampleMultiArgs (ports : List UInt16) (hosts : List String) : MultiSendWithHeaderArgs :=
  ⟨ports, hosts, 1, sampleHeader.toJsonString, "ok", true⟩

/-- A sample call with a port and a host queues a frame for each pair and returns. -/
lemma multiSendWithHeader_sample {ports hosts} (hne : hosts.zip ports ≠ []) :
    ∃ addresses m, resolveAll sampleResolve (hosts.zip ports) = .ok addresses ∧
      multiSendWithHeader sampleConfig sampleResolve (sampleMultiArgs ports hosts) 0 =
        ⟨ports.length, (multiQueued m addresses 0 hosts.length).map some ++
          List.replicate (hosts.length - addresses.length) none, true, .ok ()⟩ := by
  have hc : sampleHeader.Clean := ⟨by decide, by decide, by decide⟩
  obtain ⟨h, _⟩ | ⟨header, hh, ⟨t, _, hfail⟩ | ⟨addresses, m, hr, _, _, e⟩⟩ :=
    multiSendWithHeader_cases sampleConfig sampleResolve (sampleMultiArgs ports hosts) 0
  · rw [sampleMultiArgs, headerFromJsonString_sample hc] at h
    cases h
  · rw [sampleMultiArgs, headerFromJsonString_sample hc] at hh
    cases hh
    rcases hfail with hnil | hunresolved | hrefused
    · exact absurd hnil hne
    · exact absurd (fun p _ => ⟨sampleAddr, [], rfl⟩) hunresolved
    · exact absurd rfl hrefused
  · exact ⟨addresses, m, hr, e⟩

/-- Two hosts and one port: the call returns; the second host is sent nothing, and its channel is
    dropped. -/
theorem oneByOne_fails_missingPort :
    (multiSendWithHeader sampleConfig sampleResolve
        (sampleMultiArgs [44444] ["127.0.0.1", "127.0.0.2"]) 0).outcome = .ok () ∧
      (multiSendWithHeader sampleConfig sampleResolve
        (sampleMultiArgs [44444] ["127.0.0.1", "127.0.0.2"]) 0).channels[1]? = some none ∧
      ¬ OneByOne sampleConfig sampleResolve (sampleMultiArgs [44444] ["127.0.0.1", "127.0.0.2"]) 0
        (multiSendWithHeader sampleConfig sampleResolve
          (sampleMultiArgs [44444] ["127.0.0.1", "127.0.0.2"]) 0) := by
  have hne : ["127.0.0.1", "127.0.0.2"].zip [(44444 : UInt16)] ≠ [] := List.cons_ne_nil _ _
  obtain ⟨addresses, m, hr, e⟩ := multiSendWithHeader_sample hne
  cases hr
  refine ⟨by rw [e], by rw [e]; rfl, ?_⟩
  rintro ⟨_, hdropped⟩
  apply hdropped
  rw [e]
  exact .tail _ (.head _)

end ShardusNet.Binding
