import ShardusNet.Wire.Listener
/-!
# When the receive loop panics

The loop panics on bytes a peer chooses: a body that does not parse as a message, an owner that is
not 32 bytes long, a verified message whose version or header is not one the factory reads.

* `WellFormed`: the condition on one frame under which no `expect` on the path fails.
* `EndsLoop`: the loop ends at this frame with `ParseDataAsUtf8Error`, so later frames do not
  matter.
* `receive_returns_iff`: the loop ends only by returning, whatever the state of the receiving side,
  exactly when every frame up to the first that ends the loop is well formed.
-/

namespace ShardusNet.Wire
open ByteCodec Framing

section
variable (crates : Crates) (crypto : ShardusCrypto) (remoteAddr : SocketAddr)

/-- Unless its header is over the size limit, a message has a hash and a 32-byte owner, and if it
    verifies then version 1 and a header. -/
def Message.Safe (m : Message) : Prop :=
  m.header.length ≤ HEADER_SIZE_LIMIT_IN_BYTES →
    (crates.genericHash crypto.hashKey m.serializeUnsigned).isSome ∧ m.sign.owner.length = 32 ∧
      (m.verify crates crypto = .ok true →
        m.headerVersion = 1 ∧ (HeaderV1.deserialize m.header).isSome)

/-- A frame that says a header is present parses as a safe message. -/
def WellFormed (body : Bytes) : Prop :=
  body.head? = some 1 →
    ∃ m rest, Message.deserialize body.tail = some (m, rest) ∧ m.Safe crates crypto

/-- The text of the frame is not UTF-8: the whole body of a headerless frame, the data of a message
    that passes every check. -/
def EndsLoop (body : Bytes) : Prop :=
  if body.head? = some 1 then
    ∃ m rest h rest', Message.deserialize body.tail = some (m, rest) ∧
      m.header.length ≤ HEADER_SIZE_LIMIT_IN_BYTES ∧ m.verify crates crypto = .ok true ∧
      headerDeserializeFactory m.headerVersion m.header = some (h, rest') ∧
      h.validate m.data = true ∧ fromUtf8 m.data = none
  else fromUtf8 body = none

/-- The factory fails exactly on other versions and on headers that do not parse. -/
lemma headerDeserializeFactory_eq_none {version c} :
    headerDeserializeFactory version c = none ↔
      ¬ (version = 1 ∧ (HeaderV1.deserialize c).isSome) := by
  unfold headerDeserializeFactory
  split
  case isTrue hv => simp [hv]
  case isFalse hv => simp [hv]

/-- A message makes the loop panic exactly when it is not safe. -/
lemma handleParsed_panics_iff {m} :
    (∃ p, handleParsed crates crypto remoteAddr m = .error (.panicked p)) ↔
      ¬ m.Safe crates crypto := by
  have herr : (∃ p, m.verify crates crypto = .error p) ↔ ¬ ∃ b, m.verify crates crypto = .ok b := by
    cases m.verify crates crypto <;> simp
  rw [handleParsed_panics, herr, Message.verify_returns, headerDeserializeFactory_eq_none,
    Message.Safe]
  tauto

/-- A frame makes the loop panic exactly when it is not well formed. -/
lemma handleFrame_panics_iff {body} :
    (∃ p, handleFrame crates crypto remoteAddr body = .error (.panicked p)) ↔
      ¬ WellFormed crates crypto body := by
  unfold handleFrame WellFormed
  split
  case isFalse h => cases fromUtf8 body <;> simp [h]
  case isTrue h =>
    cases hm : Message.deserialize body.tail with
    | none => simp [handleMessage, hm, h]
    | some mr =>
      obtain ⟨m, rest⟩ := mr
      have e : handleMessage crates crypto remoteAddr body.tail =
          handleParsed crates crypto remoteAddr m := by
        rw [handleMessage, hm]
      rw [e, handleParsed_panics_iff]
      simp [h]

/-- A frame makes the loop return an error exactly when it ends the loop. -/
lemma handleFrame_error_iff {body} :
    (∃ e, handleFrame crates crypto remoteAddr body = .error (.error e)) ↔
      EndsLoop crates crypto body := by
  unfold handleFrame EndsLoop
  split
  case isFalse h => cases fromUtf8 body <;> simp
  case isTrue h =>
    cases hm : Message.deserialize body.tail with
    | none => simp [handleMessage, hm]
    | some mr =>
      obtain ⟨m, rest⟩ := mr
      have e : handleMessage crates crypto remoteAddr body.tail =
          handleParsed crates crypto remoteAddr m := by
        rw [handleMessage, hm]
      rw [e, handleParsed_error]
      constructor
      · rintro ⟨hl, hv, h, rest', hf, hval, ht⟩
        exact ⟨m, rest, h, rest', rfl, hl, hv, hf, hval, ht⟩
      · rintro ⟨m', _, h, rest', em, hl, hv, hf, hval, ht⟩
        cases em
        exact ⟨hl, hv, h, rest', hf, hval, ht⟩

/-- No frame ends the loop by `Ok`. -/
lemma handleFrame_ne_ok {body} : handleFrame crates crypto remoteAddr body ≠ .error .ok := by
  unfold handleFrame
  split
  case isFalse h => cases fromUtf8 body <;> simp
  case isTrue h =>
    unfold handleMessage
    split
    case h_1 => simp
    case h_2 => exact handleParsed_ne_ok crates crypto remoteAddr

/-! ## Runs of the loop -/

/-- The loop over frames panics exactly when some frame is not well formed and no frame before it
    ends the loop. -/
lemma run_panics_iff {last sent bodies} (hlast : ∀ p, last ≠ .panicked p) :
    (∃ p, (run crates crypto remoteAddr receiverHeld last sent bodies).exit = .panicked p) ↔
      ∃ pre body post, bodies = pre ++ body :: post ∧ (∀ f ∈ pre, ¬ EndsLoop crates crypto f) ∧
        ¬ WellFormed crates crypto body := by
  induction bodies generalizing sent with
  | nil => simp [run, hlast]
  | cons b bs ih =>
    have hsent : receiverHeld sent = false := rfl
    -- the first frame decides, unless the loop goes on past it
    have hstep : (∃ pre body post, b :: bs = pre ++ body :: post ∧
          (∀ f ∈ pre, ¬ EndsLoop crates crypto f) ∧ ¬ WellFormed crates crypto body) ↔
        ¬ WellFormed crates crypto b ∨ ¬ EndsLoop crates crypto b ∧
          ∃ pre body post, bs = pre ++ body :: post ∧ (∀ f ∈ pre, ¬ EndsLoop crates crypto f) ∧
            ¬ WellFormed crates crypto body := by
      constructor
      · rintro ⟨pre, body, post, e, hpre, hwf⟩
        cases pre with
        | nil => cases e; exact .inl hwf
        | cons f pre =>
          cases e
          obtain ⟨hf, hpre⟩ := List.forall_mem_cons.mp hpre
          exact .inr ⟨hf, pre, body, post, rfl, hpre, hwf⟩
      · rintro (hwf | ⟨hf, pre, body, post, rfl, hpre, hwf⟩)
        · exact ⟨[], b, bs, rfl, by simp, hwf⟩
        · exact ⟨b :: pre, body, post, rfl, List.forall_mem_cons.mpr ⟨hf, hpre⟩, hwf⟩
    rw [hstep, ← handleFrame_panics_iff crates crypto remoteAddr,
      ← handleFrame_error_iff crates crypto remoteAddr, run]
    cases hb : handleFrame crates crypto remoteAddr b with
    | error e =>
      cases e with
      | ok => exact absurd hb (handleFrame_ne_ok crates crypto remoteAddr)
      | error e => simp
      | panicked p => simp
    | ok o =>
      cases o with
      | none => simpa using ih
      | some item => simpa [hsent, Received.cons] using ih

/-- A receiving side that goes away makes the loop return earlier and panic no more. -/
lemma run_panics_of_dropped {rxDropped last sent bodies p}
    (h : (run crates crypto remoteAddr rxDropped last sent bodies).exit = .panicked p) :
    (run crates crypto remoteAddr receiverHeld last sent bodies).exit = .panicked p := by
  induction bodies generalizing sent with
  | nil => exact h
  | cons b bs ih =>
    have hsent : receiverHeld sent = false := rfl
    rw [run] at h ⊢
    cases hb : handleFrame crates crypto remoteAddr b with
    | error e => rw [hb] at h; exact h
    | ok o =>
      rw [hb] at h
      cases o with
      | none => exact ih h
      | some item =>
        simp only [hsent, Bool.false_eq_true, if_false]
        cases hd : rxDropped sent with
        | true => simp [hd] at h
        | false =>
          simp only [hd, Bool.false_eq_true, if_false] at h
          exact ih h

/-- The loop ends only by returning, whatever the state of the receiving side, exactly when every
    whole frame of the stream, up to the first that ends the loop, is well formed. -/
theorem receive_returns_iff (stream : Bytes) :
    (∀ rxDropped p, (receive crates crypto remoteAddr rxDropped stream).exit ≠ .panicked p) ↔
      ∀ pre body post, frames stream = pre ++ body :: post →
        (∀ f ∈ pre, ¬ EndsLoop crates crypto f) → WellFormed crates crypto body := by
  have hpanics : (∃ p, (run crates crypto remoteAddr receiverHeld (endOf (leftover stream)) 0
      (frames stream)).exit = .panicked p) ↔ _ :=
    run_panics_iff crates crypto remoteAddr (endOf_ne_panicked (leftover stream))
  constructor
  · intro h pre body post e hpre
    by_contra hwf
    obtain ⟨p, hp⟩ := hpanics.mpr ⟨pre, body, post, e, hpre, hwf⟩
    rw [← receive_eq_run] at hp
    exact h receiverHeld p hp
  · intro h rxDropped p hp
    rw [receive_eq_run] at hp
    obtain ⟨pre, body, post, e, hpre, hwf⟩ :=
      hpanics.mp ⟨p, run_panics_of_dropped crates crypto remoteAddr hp⟩
    exact hwf (h pre body post e hpre)

end

/-- Five bytes make the loop panic: a frame whose body is the header marker alone. -/
theorem receive_panics_on_marker :
    (receive (standIn fun _ _ => true) standInCrypto sampleAddr receiverHeld [0, 0, 0, 1, 1]).exit =
      .panicked .deserializeMessage := by
  have h : frames [0, 0, 0, 1, 1] = [[1]] := by
    have e : ([0, 0, 0, 1, 1] : Bytes) = frame [1] ++ [] := rfl
    rw [e, frames_frame_append (by decide), frames_of_next_none rfl]
  rw [receive_eq_run, h]
  rfl

end ShardusNet.Wire
