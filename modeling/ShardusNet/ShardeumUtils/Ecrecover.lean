import ShardusNet.Lib.Checked
/-!
# The sender of a transaction

Port of `ecrecover` in `shardeum_utils/src/lib.rs` and of the part of `get_sender_address` in
`shardus_net/src/lib.rs` that calls it, up to the public key. The arithmetic on `u64` is that of
either build, with overflow checks or without. The `secp256k1` crate is a parameter; of a
transaction that `ethers` has decoded only the fields that are read here are kept, and the hash that
is signed.

* `Admissible`: the values of `v` and `s` that a signature may have, in unbounded integers.
* `admits_iff`: when a recovery is attempted for these only, all others are an error, and no
  operation wraps or panics.
-/

namespace ShardusNet.ShardeumUtils
open Checked

/-- The functions of the `secp256k1` crate that are used. -/
structure Secp256k1 where
  RecoveryId : Type
  RecoverableSignature : Type
  PublicKey : Type
  Error : Type
  fromI32 : BitVec 32 → Except Error RecoveryId
  toI32 : RecoveryId → BitVec 32
  fromCompact : List (BitVec 8) → RecoveryId → Except Error RecoverableSignature
  recover : List (BitVec 8) → RecoverableSignature → Except Error PublicKey
  InvalidRecoveryId : Error
  InvalidSignature : Error

/-- A recovery id has the number that it was made of. -/
def Secp256k1.Lawful (secp : Secp256k1) : Prop := ∀ i id, secp.fromI32 i = .ok id → secp.toI32 id = i

/-- `U256::to_big_endian`. -/
def toBigEndian (x : BitVec 256) : List (BitVec 8) :=
  (List.range 32).map fun i => (x >>> (8 * (31 - i))).setWidth 8

/-- The order of the group. -/
def secp256k1n : BitVec 256 := 0xFFFFFFFFFFFFFFFFFFFFFFFFFFFFFFFEBAAEDCE6AF48A03BBFD25E8CD0364141

section
variable (secp : Secp256k1) (checks : Bool)

/-- `v_standard`. -/
def vStandard (v : BitVec 64) (chainid : Option (BitVec 256)) : Outcome (BitVec 64) :=
  if v = 0 ∨ v = 1 then pure v
  else
    match chainid with
    | some chainid => do
      let chainid ← narrow 64 chainid
      let doubled ← mul checks 2 chainid
      let offset ← add checks doubled 35
      sub checks v offset
    | none => sub checks v 27

/-- The checks of `ecrecover`, with the recovery id that passes them. -/
def recoveryId (v_standard : BitVec 64) (s : BitVec 256) : Except secp.Error secp.RecoveryId :=
  if v_standard ≠ 0 ∧ v_standard ≠ 1 then .error secp.InvalidRecoveryId
  else do
    let recovery_id ← secp.fromI32 (v_standard.setWidth 32)
    if s > secp256k1n / 2 then .error secp.InvalidSignature
    else return recovery_id

/-- `ecrecover`. -/
def ecrecover (sigHash : List (BitVec 8)) (v : BitVec 64) (r s : BitVec 256)
    (chainid : Option (BitVec 256)) : Outcome (Except secp.Error secp.PublicKey) := do
  let v_standard ← vStandard checks v chainid
  return do
    let recovery_id ← recoveryId secp v_standard s
    let signature ← secp.fromCompact (toBigEndian r ++ toBigEndian s) recovery_id
    secp.recover sigHash signature

end

/-- `ethers::types::Transaction`, with the hash of its typed form. -/
structure Transaction where
  transactionType : Option (BitVec 64)
  v : BitVec 64
  r : BitVec 256
  s : BitVec 256
  chainId : Option (BitVec 256)
  sighash : List (BitVec 8)

namespace Transaction
variable (secp : Secp256k1) (checks : Bool) (tx : Transaction)

/-- The `v` and the chain id that `get_sender_address` gives to `ecrecover`. -/
def recoveryArgs : Outcome (BitVec 64 × Option (BitVec 256)) :=
  match tx.transactionType with
  | some _ => do
    let v ← add checks tx.v 27
    return (v, none)
  | none => return (tx.v, tx.chainId)

/-- The call of `ecrecover` in `get_sender_address`. -/
def pubkey : Outcome (Except secp.Error secp.PublicKey) := do
  let (v, chainid) ← tx.recoveryArgs checks
  ecrecover secp checks tx.sighash v tx.r tx.s chainid

/-- The recovery id with which a recovery is attempted in it. -/
def attempt : Outcome (Except secp.Error secp.RecoveryId) := do
  let (v, chainid) ← tx.recoveryArgs checks
  let v_standard ← vStandard checks v chainid
  return recoveryId secp v_standard tx.s

/-- The `v` and `s` of a signature with this parity, in unbounded integers. -/
def Admissible (b : ℕ) : Prop :=
  b ≤ 1 ∧ tx.s.toNat ≤ secp256k1n.toNat / 2 ∧
    match tx.transactionType, tx.chainId with
    | some _, _ => tx.v.toNat = b
    | none, none => tx.v.toNat = b ∨ tx.v.toNat = 27 + b
    | none, some chainid => tx.v.toNat = b ∨ tx.v.toNat = 2 * chainid.toNat + 35 + b

/-- A recovery is attempted for what is admissible only, the rest is an error, and no operation
    wraps or panics. -/
def Admits : Prop :=
  (∃ result, (tx.pubkey secp checks).Exact result) ∧
  (∀ id wrapped, tx.attempt secp checks = .value (.ok id) wrapped → tx.Admissible (secp.toI32 id).toNat) ∧
  ((∀ b, ¬ tx.Admissible b) → ∃ e wrapped, tx.pubkey secp checks = .value (.error e) wrapped)

/-- The `v` for which the arithmetic fits. -/
def InRange : Prop :=
  match tx.transactionType, tx.chainId with
  | some _, _ => tx.v.toNat < 2 ^ 64 - 27
  | none, none => tx.v.toNat ≤ 1 ∨ 27 ≤ tx.v.toNat
  | none, some chainid => tx.v.toNat ≤ 1 ∨ 2 * chainid.toNat + 35 ≤ tx.v.toNat

end Transaction

/-! ## The arithmetic -/

/-- The value of `v_standard`, where the arithmetic is exact. -/
lemma vStandard_exact {checks v chainid w} :
    (vStandard checks v chainid).Exact w ↔
      (v.toNat ≤ 1 ∧ w = v) ∨
        1 < v.toNat ∧ w.toNat + (match chainid with
          | some chainid => 2 * chainid.toNat + 35
          | none => 27) = v.toNat := by
  have hsmall : (v = 0 ∨ v = 1) ↔ v.toNat ≤ 1 := by
    rw [← BitVec.toNat_inj, ← BitVec.toNat_inj]
    show v.toNat = 0 ∨ v.toNat = 1 ↔ _
    omega
  unfold vStandard
  split
  case isTrue h =>
    have h := hsmall.mp h
    rw [Outcome.exact_pure]
    constructor
    · rintro rfl
      exact .inl ⟨h, rfl⟩
    · rintro (⟨_, rfl⟩ | ⟨hlt, _⟩)
      · rfl
      · omega
  case isFalse h =>
    have h : 1 < v.toNat := by
      rw [hsmall] at h
      omega
    have hfalse : ¬ (v.toNat ≤ 1 ∧ w = v) := by omega
    simp only [hfalse, h, false_or, true_and]
    cases chainid with
    | none => exact sub_exact
    | some chainid =>
      simp only [Outcome.exact_bind, narrow_exact, mul_exact, add_exact, sub_exact]
      constructor
      · rintro ⟨c, hc, doubled, hdoubled, offset, hoffset, hw⟩
        have h2 : (2 : BitVec 64).toNat = 2 := rfl
        have h35 : (35 : BitVec 64).toNat = 35 := rfl
        rw [h2, hc] at hdoubled
        rw [h35] at hoffset
        omega
      · intro hw
        have hv := v.isLt
        refine ⟨.ofNat 64 chainid.toNat, ?_, .ofNat 64 (2 * chainid.toNat), ?_,
          .ofNat 64 (2 * chainid.toNat + 35), ?_, ?_⟩
        all_goals simp only [BitVec.toNat_ofNat, BitVec.ofNat_eq_ofNat]
        all_goals omega

namespace Transaction
variable {secp : Secp256k1} {checks : Bool} {tx : Transaction}

/-- `v_standard` for a transaction. -/
def vStandard (checks : Bool) (tx : Transaction) : Outcome (BitVec 64) := do
  let (v, chainid) ← tx.recoveryArgs checks
  ShardeumUtils.vStandard checks v chainid

/-- After `v_standard` there is no more arithmetic. -/
lemma pubkey_eq : tx.pubkey secp checks = (do
    let v_standard ← tx.vStandard checks
    return do
      let recovery_id ← recoveryId secp v_standard tx.s
      let signature ← secp.fromCompact (toBigEndian tx.r ++ toBigEndian tx.s) recovery_id
      secp.recover tx.sighash signature) := by
  rw [pubkey, vStandard, bind_assoc]
  rfl

/-- The attempt is in the checks after `v_standard`. -/
lemma attempt_eq : tx.attempt secp checks = (do
    let v_standard ← tx.vStandard checks
    return recoveryId secp v_standard tx.s) := by
  rw [attempt, vStandard, bind_assoc]

/-- The value of `v_standard` for a transaction, where the arithmetic is exact. -/
lemma exact_vStandard {w : BitVec 64} : (tx.vStandard checks).Exact w ↔
    match tx.transactionType, tx.chainId with
    | some _, _ => tx.v.toNat < 2 ^ 64 - 27 ∧ w.toNat = tx.v.toNat
    | none, none => tx.v.toNat ≤ 1 ∧ w = tx.v ∨ 1 < tx.v.toNat ∧ w.toNat + 27 = tx.v.toNat
    | none, some chainid => tx.v.toNat ≤ 1 ∧ w = tx.v ∨
        1 < tx.v.toNat ∧ w.toNat + (2 * chainid.toNat + 35) = tx.v.toNat := by
  rw [vStandard, Outcome.exact_bind]
  cases htype : tx.transactionType with
  | some type =>
    simp only [recoveryArgs, htype, Outcome.exact_bind, Outcome.exact_pure, add_exact]
    constructor
    · rintro ⟨_, ⟨v, hv, rfl⟩, hw⟩
      have h27 : (27 : BitVec 64).toNat = 27 := rfl
      have hlt := v.isLt
      rcases vStandard_exact.mp hw with ⟨hle, _⟩ | ⟨_, hw⟩
      · simp only at hle
        omega
      · simp only at hw
        omega
    · rintro ⟨hlt, hw⟩
      have h27 : (27 : BitVec 64).toNat = 27 := rfl
      have hv : (BitVec.ofNat 64 (tx.v.toNat + 27)).toNat = tx.v.toNat + 27 := by
        rw [BitVec.toNat_ofNat, Nat.mod_eq_of_lt (by omega)]
      refine ⟨_, ⟨.ofNat 64 (tx.v.toNat + 27), ?_, rfl⟩, vStandard_exact.mpr (.inr ⟨?_, ?_⟩)⟩
      · rw [hv, h27]
      · rw [hv]
        omega
      · rw [hv, hw]
  | none =>
    simp only [recoveryArgs, htype, Outcome.exact_pure]
    constructor
    · rintro ⟨_, rfl, hw⟩
      have hw := vStandard_exact.mp hw
      cases hchain : tx.chainId with
      | none => simpa only [hchain] using hw
      | some chainid => simpa only [hchain] using hw
    · intro hw
      refine ⟨_, rfl, vStandard_exact.mpr ?_⟩
      cases hchain : tx.chainId with
      | none => simpa only [hchain] using hw
      | some chainid => simpa only [hchain] using hw

/-- The arithmetic is exact where it fits. -/
lemma inRange_iff (checks : Bool) : tx.InRange ↔ ∃ w, (tx.vStandard checks).Exact w := by
  simp only [exact_vStandard, InRange]
  have hlt := tx.v.isLt
  have hofNat : ∀ n, n ≤ tx.v.toNat → (BitVec.ofNat 64 n).toNat = n := by
    intro n hn
    rw [BitVec.toNat_ofNat, Nat.mod_eq_of_lt (Nat.lt_of_le_of_lt hn hlt)]
  split
  case h_1 =>
    constructor
    · intro h
      exact ⟨tx.v, h, rfl⟩
    · rintro ⟨_, h, _⟩
      exact h
  case h_2 =>
    constructor
    · intro h
      by_cases hle : tx.v.toNat ≤ 1
      · exact ⟨tx.v, .inl ⟨hle, rfl⟩⟩
      · exact ⟨.ofNat 64 (tx.v.toNat - 27), .inr ⟨by omega, by rw [hofNat _ (by omega)]; omega⟩⟩
    · rintro ⟨w, ⟨hle, _⟩ | ⟨_, hw⟩⟩
      · exact .inl hle
      · exact .inr (by omega)
  case h_3 chainid _ _ =>
    constructor
    · intro h
      by_cases hle : tx.v.toNat ≤ 1
      · exact ⟨tx.v, .inl ⟨hle, rfl⟩⟩
      · exact ⟨.ofNat 64 (tx.v.toNat - (2 * chainid.toNat + 35)), .inr ⟨by omega, by
          rw [hofNat _ (by omega)]
          omega⟩⟩
    · rintro ⟨w, ⟨hle, _⟩ | ⟨_, hw⟩⟩
      · exact .inl hle
      · exact .inr (by omega)

/-! ## The checks -/

/-- What passes the checks. -/
lemma recoveryId_eq_ok (h : secp.Lawful) {w : BitVec 64} {s : BitVec 256} {id}
    (hid : recoveryId secp w s = .ok id) :
    w.toNat ≤ 1 ∧ (secp.toI32 id).toNat = w.toNat ∧ s.toNat ≤ secp256k1n.toNat / 2 := by
  unfold recoveryId at hid
  split at hid
  case isTrue => cases hid
  case isFalse hw =>
    have hw : w.toNat ≤ 1 := by
      rcases Decidable.not_and_iff_not_or_not.mp hw with hw | hw
      · rw [Decidable.not_not.mp hw]
        decide
      · rw [Decidable.not_not.mp hw]
        decide
    cases hi32 : secp.fromI32 (w.setWidth 32) with
    | error e =>
      rw [hi32] at hid
      cases hid
    | ok id' =>
      rw [hi32] at hid
      change (if s > secp256k1n / 2 then _ else _) = Except.ok id at hid
      split at hid
      case isTrue => cases hid
      case isFalse hs =>
        cases hid
        refine ⟨hw, ?_, ?_⟩
        · rw [h _ _ hi32, BitVec.toNat_setWidth, Nat.mod_eq_of_lt (by omega)]
        · have hs : s.toNat ≤ (secp256k1n / 2).toNat := Nat.not_lt.mp hs
          rw [BitVec.toNat_udiv] at hs
          exact hs

/-- What passes the checks after an exact `v_standard` is admissible. -/
lemma admissible_of_ok (h : secp.Lawful) {w id} (hw : (tx.vStandard checks).Exact w)
    (hid : recoveryId secp w tx.s = .ok id) : tx.Admissible (secp.toI32 id).toNat := by
  obtain ⟨hle, htoI32, hs⟩ := recoveryId_eq_ok h hid
  rw [exact_vStandard] at hw
  rw [htoI32]
  refine ⟨hle, hs, ?_⟩
  split
  case h_1 htype =>
    simp only [htype] at hw
    exact hw.2.symm
  case h_2 htype hchain =>
    simp only [htype, hchain] at hw
    rcases hw with ⟨_, rfl⟩ | ⟨_, hw⟩
    · exact .inl rfl
    · exact .inr (by omega)
  case h_3 chainid htype hchain =>
    simp only [htype, hchain] at hw
    rcases hw with ⟨_, rfl⟩ | ⟨_, hw⟩
    · exact .inl rfl
    · exact .inr (by omega)

/-- In both builds, a recovery is attempted for admissible signatures only, with all others an error
    and no operation that wraps or panics, exactly where the arithmetic on `v` fits. -/
theorem admits_iff (h : secp.Lawful) (checks : Bool) (tx : Transaction) :
    tx.Admits secp checks ↔ tx.InRange := by
  rw [inRange_iff checks]
  constructor
  · rintro ⟨⟨result, hresult⟩, _, _⟩
    rw [pubkey_eq, Outcome.exact_bind] at hresult
    obtain ⟨w, hw, _⟩ := hresult
    exact ⟨w, hw⟩
  · rintro ⟨w, hw⟩
    have hpubkey : tx.pubkey secp checks = .value (do
        let recovery_id ← recoveryId secp w tx.s
        let signature ← secp.fromCompact (toBigEndian tx.r ++ toBigEndian tx.s) recovery_id
        secp.recover tx.sighash signature) false := by
      rw [pubkey_eq]
      exact Outcome.exact_bind.mpr ⟨w, hw, rfl⟩
    have hattempt : tx.attempt secp checks = .value (recoveryId secp w tx.s) false := by
      rw [attempt_eq]
      exact Outcome.exact_bind.mpr ⟨w, hw, rfl⟩
    refine ⟨⟨_, hpubkey⟩, ?_, ?_⟩
    · intro id wrapped hid
      rw [hattempt] at hid
      exact admissible_of_ok h hw (Outcome.value.inj hid).1
    · intro hnone
      cases hid : recoveryId secp w tx.s with
      | error e =>
        rw [hid] at hpubkey
        exact ⟨e, false, hpubkey⟩
      | ok id => exact absurd (admissible_of_ok h hw hid) (hnone _)

end Transaction

/-! ## Examples -/

/-- A crate whose recovery ids are their numbers, and that recovers a public key without content from
    every signature of 64 bytes on a hash of 32. -/
def recoveringSecp : Secp256k1 where
  RecoveryId := BitVec 32
  RecoverableSignature := Unit
  PublicKey := Unit
  Error := Bool
  fromI32 i := if i.toNat ≤ 3 then .ok i else .error true
  toI32 id := id
  fromCompact data _ := if data.length = 64 then .ok () else .error false
  recover hash _ := if hash.length = 32 then .ok () else .error false
  InvalidRecoveryId := true
  InvalidSignature := false

/-- It gives the ids their numbers. -/
lemma lawful_recoveringSecp : recoveringSecp.Lawful := by
  intro i id hid
  simp only [recoveringSecp] at hid
  split at hid
  case isTrue =>
    cases hid
    rfl
  case isFalse => cases hid

/-- A hash of a transaction. -/
def sampleHash : List (BitVec 8) := .replicate 32 7

namespace Transaction

/-- A legacy transaction of chain 8082 with odd parity is admitted as it should be, in both
    builds. -/
theorem admits_iff_legacy :
    Admits recoveringSecp false ⟨none, 16200, 1, 1, some 8082, sampleHash⟩ ∧
      Admits recoveringSecp true ⟨none, 16200, 1, 1, some 8082, sampleHash⟩ := by
  have hrange : InRange ⟨none, 16200, 1, 1, some 8082, sampleHash⟩ := .inr (by decide)
  exact ⟨(admits_iff lawful_recoveringSecp false _).mpr hrange,
    (admits_iff lawful_recoveringSecp true _).mpr hrange⟩

/-- A legacy transaction without a chain id. -/
def oldLegacy : Transaction := ⟨none, 26, 1, 1, none, sampleHash⟩

/-- A typed transaction with a `v` that wraps to 0. -/
def wrappingTyped : Transaction := ⟨some 1, 0xFFFFFFFFFFFFFFE5, 1, 1, some 8082, sampleHash⟩

/-- A legacy transaction with a chain id that doubles to 0. -/
def wrappingLegacy : Transaction := ⟨none, 35, 1, 1, some 0x8000000000000000, sampleHash⟩

/-- A legacy transaction without a chain id and a `v` of 26 is an error only because the subtraction
    wraps, and panics where it is checked. A typed one with a `v` of `2 ^ 64 - 27` goes to recovery with
    even parity where the addition wraps, and panics where it is checked; and a legacy one of chain
    `2 ^ 63` with a `v` of 35 goes to recovery where the multiplication wraps. -/
theorem admits_fails :
    (oldLegacy.pubkey recoveringSecp false = .value (.error recoveringSecp.InvalidRecoveryId) true ∧
      oldLegacy.pubkey recoveringSecp true = .panic ∧
      ¬ oldLegacy.Admits recoveringSecp false ∧ ¬ oldLegacy.Admits recoveringSecp true) ∧
    (∃ id, wrappingTyped.attempt recoveringSecp false = .value (.ok id) true ∧
      ¬ wrappingTyped.Admissible (recoveringSecp.toI32 id).toNat) ∧
    wrappingTyped.pubkey recoveringSecp true = .panic ∧
    ∃ id, wrappingLegacy.attempt recoveringSecp false = .value (.ok id) true ∧
      ¬ wrappingLegacy.Admissible (recoveringSecp.toI32 id).toNat := by
  have hid : recoveryId recoveringSecp 0 1 = .ok (0 : BitVec 32) := rfl
  have hwraps : oldLegacy.vStandard false = .value 0xFFFFFFFFFFFFFFFF true := by decide +kernel
  have hchecked : oldLegacy.vStandard true = .panic := by decide +kernel
  have htyped : wrappingTyped.vStandard false = .value 0 true := by decide +kernel
  have hpanic : wrappingTyped.vStandard true = .panic := by decide +kernel
  have hlegacy : wrappingLegacy.vStandard false = .value 0 true := by decide +kernel
  have hrelease : oldLegacy.pubkey recoveringSecp false =
      .value (.error recoveringSecp.InvalidRecoveryId) true := by
    rw [pubkey_eq, hwraps]
    rfl
  have hdebug : oldLegacy.pubkey recoveringSecp true = .panic := by
    rw [pubkey_eq, hchecked]
    rfl
  refine ⟨⟨hrelease, hdebug, ?_, ?_⟩, ⟨(0 : BitVec 32), ?_, ?_⟩, ?_, (0 : BitVec 32), ?_, ?_⟩
  · rintro ⟨⟨result, hexact⟩, _, _⟩
    rw [hrelease] at hexact
    cases hexact
  · rintro ⟨⟨result, hexact⟩, _, _⟩
    rw [hdebug] at hexact
    cases hexact
  · rw [attempt_eq, htyped]
    show Outcome.value (recoveryId recoveringSecp 0 1) true = _
    rw [hid]
  · rintro ⟨_, _, h⟩
    change (0xFFFFFFFFFFFFFFE5 : BitVec 64).toNat = 0 at h
    exact absurd h (by decide)
  · rw [pubkey_eq, hpanic]
    rfl
  · rw [attempt_eq, hlegacy]
    show Outcome.value (recoveryId recoveringSecp 0 1) true = _
    rw [hid]
  · rintro ⟨_, _, h⟩
    change (35 : BitVec 64).toNat = 0 ∨
      (35 : BitVec 64).toNat = 2 * (0x8000000000000000 : BitVec 256).toNat + 35 + 0 at h
    exact absurd h (by decide)

end Transaction

end ShardusNet.ShardeumUtils
