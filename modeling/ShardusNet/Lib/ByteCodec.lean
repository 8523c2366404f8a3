import Mathlib.Tactic
/-!
# Byte codecs

Byte strings, fixed-width integers in both byte orders, and readers that consume a byte string from
the front. A reader returns the value together with the bytes it left unread, or `none` where the
input is too short.

* `le`/`be` and `ofLe`/`ofBe`: the `k` low-order bytes of a number, and back.
* `readExact`, `readLe`, `readBe`, `readSized`: the readers, each with its `*_eq_some` lemma, which
  says on exactly which inputs the reader succeeds and with what.
* `utf8`/`fromUtf8`: the UTF-8 bytes of a string, and back.

The `*_eq_some` lemmas are all of the shape `read c = some (x, r) ↔ P x ∧ c = enc x ++ r`, so that
the exactness of a record codec is a chain of rewrites. `Exact` names that shape; `Exact.decodes_at`
and `Exact.refuses` read it off at a position of a byte string.
-/

namespace ByteCodec

/-- A byte string. -/
abbrev Bytes := List UInt8

/-! ## Fixed-width integers -/

/-- The `k` low-order bytes of `n`, least significant first. -/
def le : ℕ → ℕ → Bytes
  | 0, _ => []
  | k + 1, n => UInt8.ofNat n :: le k (n / 256)

/-- The number a little-endian byte string denotes. -/
def ofLe : Bytes → ℕ
  | [] => 0
  | b :: bs => b.toNat + 256 * ofLe bs

/-- The `k` low-order bytes of `n`, most significant first. -/
def be (k n : ℕ) : Bytes := (le k n).reverse

/-- The number a big-endian byte string denotes. -/
def ofBe (bs : Bytes) : ℕ := ofLe bs.reverse

/-- A `k`-byte little-endian number has `k` bytes. -/
@[simp] lemma length_le (k n) : (le k n).length = k := by
  induction k generalizing n with
  | zero => rfl
  | succ k ih => simp [le, ih]

/-- A number of `k` bytes has `k` bytes. -/
@[simp] lemma length_be (k n) : (be k n).length = k := by
  simp [be]

/-- Reading back `k` bytes gives the number modulo `256 ^ k`. -/
lemma ofLe_le (k n) : ofLe (le k n) = n % 256 ^ k := by
  induction k generalizing n with
  | zero => simp [le, ofLe, Nat.mod_one]
  | succ k ih =>
    have hb : (UInt8.ofNat n).toNat = n % 256 := by simp
    rw [le, ofLe, ih, hb, pow_succ', Nat.mod_mul]

/-- A little-endian number is below `256 ^ k`. -/
lemma ofLe_lt (bs) : ofLe bs < 256 ^ bs.length := by
  induction bs with
  | nil => simp [ofLe]
  | cons b bs ih =>
    have hb : b.toNat < 256 := b.toNat_lt
    rw [ofLe, List.length_cons, pow_succ']
    omega

/-- Writing back what was read gives the same bytes. -/
lemma le_ofLe (bs) : le bs.length (ofLe bs) = bs := by
  induction bs with
  | nil => rfl
  | cons b bs ih =>
    have hb : b.toNat < 256 := b.toNat_lt
    have hmod : UInt8.ofNat (b.toNat + 256 * ofLe bs) = b := by
      apply UInt8.toNat_inj.mp
      simp
    have hdiv : (b.toNat + 256 * ofLe bs) / 256 = ofLe bs := by omega
    rw [ofLe, List.length_cons, le, hmod, hdiv, ih]

/-- A number that fits is read back. -/
lemma ofLe_le_of_lt {k n} (h : n < 256 ^ k) : ofLe (le k n) = n := by
  rw [ofLe_le, Nat.mod_eq_of_lt h]

/-- Numbers that fit are told apart by their bytes. -/
lemma le_inj {k m n} (hm : m < 256 ^ k) (hn : n < 256 ^ k) (e : le k m = le k n) : m = n := by
  rw [← ofLe_le_of_lt hm, ← ofLe_le_of_lt hn, e]

/-! ## Readers -/

/-- Takes `n` bytes from the front. -/
def readExact (n : ℕ) (c : Bytes) : Option (Bytes × Bytes) :=
  if n ≤ c.length then some (c.take n, c.drop n) else none

/-- Takes a `k`-byte little-endian number from the front. -/
def readLe (k : ℕ) (c : Bytes) : Option (ℕ × Bytes) :=
  (readExact k c).map fun (x, r) => (ofLe x, r)

/-- Takes a `k`-byte big-endian number from the front. -/
def readBe (k : ℕ) (c : Bytes) : Option (ℕ × Bytes) :=
  (readExact k c).map fun (x, r) => (ofBe x, r)

/-- A byte string behind its four-byte little-endian length. -/
def sized (x : Bytes) : Bytes := le 4 x.length ++ x

/-- Takes a byte string behind its four-byte little-endian length from the front. -/
def readSized (c : Bytes) : Option (Bytes × Bytes) := do
  let (n, c) ← readLe 4 c
  readExact n c

/-- `readExact` succeeds exactly on inputs with `n` bytes in front. -/
lemma readExact_eq_some {n c x r} :
    readExact n c = some (x, r) ↔ x.length = n ∧ c = x ++ r := by
  unfold readExact
  constructor
  · intro h
    split at h
    case isTrue hn =>
      cases h
      exact ⟨List.length_take_of_le hn, (List.take_append_drop n c).symm⟩
    case isFalse => cases h
  · rintro ⟨rfl, rfl⟩
    simp

/-- Reading fails exactly when there are too few bytes. -/
lemma readExact_eq_none {n c} : readExact n c = none ↔ c.length < n := by
  unfold readExact
  split <;> simp_all

/-- `readLe` succeeds exactly on inputs with an encoded number in front. -/
lemma readLe_eq_some {k c v r} :
    readLe k c = some (v, r) ↔ v < 256 ^ k ∧ c = le k v ++ r := by
  unfold readLe
  constructor
  · intro h
    obtain ⟨⟨x, r'⟩, hx, e⟩ := Option.map_eq_some_iff.mp h
    obtain ⟨hlen, rfl⟩ := readExact_eq_some.mp hx
    cases e
    subst hlen
    exact ⟨ofLe_lt x, by rw [le_ofLe]⟩
  · rintro ⟨hv, rfl⟩
    have hx : readExact k (le k v ++ r) = some (le k v, r) :=
      readExact_eq_some.mpr ⟨length_le k v, rfl⟩
    simp only [hx, Option.map_some, ofLe_le_of_lt hv]

/-- `readBe` succeeds exactly on inputs with an encoded number in front. -/
lemma readBe_eq_some {k c v r} :
    readBe k c = some (v, r) ↔ v < 256 ^ k ∧ c = be k v ++ r := by
  unfold readBe
  constructor
  · intro h
    obtain ⟨⟨x, r'⟩, hx, e⟩ := Option.map_eq_some_iff.mp h
    obtain ⟨hlen, rfl⟩ := readExact_eq_some.mp hx
    cases e
    have hlen' : x.reverse.length = k := by rw [List.length_reverse, hlen]
    subst hlen'
    refine ⟨ofLe_lt x.reverse, ?_⟩
    rw [be, ofBe, le_ofLe, List.reverse_reverse]
  · rintro ⟨hv, rfl⟩
    have hx : readExact k (be k v ++ r) = some (be k v, r) :=
      readExact_eq_some.mpr ⟨length_be k v, rfl⟩
    have hv' : ofBe (be k v) = v := by rw [ofBe, be, List.reverse_reverse, ofLe_le_of_lt hv]
    simp only [hx, Option.map_some, hv']

/-- Reading a number fails exactly when there are too few bytes. -/
lemma readBe_eq_none {k c} : readBe k c = none ↔ c.length < k := by
  rw [readBe, Option.map_eq_none_iff, readExact_eq_none]

/-- `readSized` succeeds exactly on inputs with a length-prefixed byte string in front. -/
lemma readSized_eq_some {c x r} :
    readSized c = some (x, r) ↔ x.length < 2 ^ 32 ∧ c = sized x ++ r := by
  simp only [readSized, Option.bind_eq_bind, Option.bind_eq_some_iff, Prod.exists, readLe_eq_some,
    readExact_eq_some, sized, List.append_assoc]
  constructor
  · rintro ⟨n, c', ⟨hn, rfl⟩, rfl, rfl⟩
    exact ⟨hn, rfl⟩
  · rintro ⟨hx, rfl⟩
    exact ⟨x.length, x ++ r, ⟨hx, rfl⟩, rfl, rfl⟩

/-- A length takes four bytes. -/
@[simp] lemma length_sized (x) : (sized x).length = x.length + 4 := by
  simp [sized, Nat.add_comm]

/-- Length-prefixed byte strings below `2 ^ 32` split an input in one way only. -/
lemma sized_append_inj {x y r s} (hx : x.length < 2 ^ 32) (hy : y.length < 2 ^ 32)
    (e : sized x ++ r = sized y ++ s) : x = y ∧ r = s := by
  have h := readSized_eq_some.mpr ⟨hx, e.symm⟩
  rw [readSized_eq_some.mpr ⟨hy, rfl⟩] at h
  cases h
  exact ⟨rfl, rfl⟩

/-! ## Exact codecs -/

section
variable {α : Type*} {decode : Bytes → Option (α × Bytes)} {encode : α → Bytes} {Fits : α → Prop}

/-- `cursor` holds the unread bytes of `b` at position `n`. -/
def CursorAt (b : Bytes) (n : ℕ) (cursor : Bytes) : Prop := n ≤ b.length ∧ cursor = b.drop n

/-- `decode` accepts the encodings of the values that fit, with any bytes after them, and nothing
    else. -/
def Exact (decode : Bytes → Option (α × Bytes)) (encode : α → Bytes) (Fits : α → Prop) : Prop :=
  ∀ c x r, decode c = some (x, r) ↔ Fits x ∧ c = encode x ++ r

/-- An exact decoder stops at the end of the one encoding that stands in front. -/
lemma Exact.decodes_at (ex : Exact decode encode Fits) {b n x} :
    (∃ cursor, decode b = some (x, cursor) ∧ CursorAt b n cursor) ↔
      n ≤ b.length ∧ b.take n = encode x ∧ Fits x := by
  constructor
  · rintro ⟨_, h, hn, rfl⟩
    obtain ⟨hx, e⟩ := (ex _ _ _).mp h
    refine ⟨hn, ?_, hx⟩
    apply (List.append_left_inj (b.drop n)).mp
    rw [List.take_append_drop, ← e]
  · rintro ⟨hn, e, hx⟩
    refine ⟨b.drop n, (ex _ _ _).mpr ⟨hx, ?_⟩, hn, rfl⟩
    rw [← e, List.take_append_drop]

/-- A cursor that an exact decoder leaves behind stands somewhere in the input. -/
lemma Exact.cursorAt (ex : Exact decode encode Fits) {b x cursor}
    (h : decode b = some (x, cursor)) : CursorAt b (encode x).length cursor := by
  obtain ⟨_, rfl⟩ := (ex _ _ _).mp h
  refine ⟨?_, ?_⟩
  · rw [List.length_append]
    omega
  · rw [List.drop_left]

/-- An exact decoder refuses what starts with no encoding. -/
lemma Exact.refuses (ex : Exact decode encode Fits) {b} :
    decode b = none ↔ ∀ n x, n ≤ b.length → b.take n = encode x → ¬ Fits x := by
  constructor
  · intro h n x hn e hx
    obtain ⟨cursor, hd, _⟩ := ex.decodes_at.mpr ⟨hn, e, hx⟩
    rw [h] at hd
    cases hd
  · intro h
    cases hd : decode b with
    | none => rfl
    | some y =>
      obtain ⟨hn, e, hx⟩ := ex.decodes_at.mp ⟨y.2, hd, ex.cursorAt hd⟩
      exact absurd hx (h _ _ hn e)

end

/-! ## UTF-8 -/

/-- The UTF-8 bytes of a string. -/
def utf8 (s : String) : Bytes := s.toUTF8.data.toList

/-- The string whose UTF-8 bytes these are. -/
def fromUtf8 (b : Bytes) : Option String := String.fromUTF8? ⟨b.toArray⟩

/-- Decoding succeeds exactly on the UTF-8 bytes of the result. -/
lemma fromUtf8_eq_some {b s} : fromUtf8 b = some s ↔ b = utf8 s := by
  unfold fromUtf8 utf8 String.fromUTF8?
  constructor
  · intro h
    split at h
    case isTrue => cases h; rfl
    case isFalse => cases h
  · rintro rfl
    have h : ByteArray.IsValidUTF8 ⟨s.toUTF8.data.toList.toArray⟩ := s.isValidUTF8
    rw [dif_pos h]
    rfl

/-- The bytes of a string are read back. -/
@[simp] lemma fromUtf8_utf8 (s) : fromUtf8 (utf8 s) = some s := fromUtf8_eq_some.mpr rfl

/-- The bytes of a string are those of its first character, then the rest. -/
lemma utf8_ofList_cons (c : Char) (cs : List Char) :
    utf8 (String.ofList (c :: cs)) = utf8 (String.ofList [c]) ++ utf8 (String.ofList cs) := by
  have hbytes : ∀ cs : List Char, utf8 (String.ofList cs) = cs.utf8Encode.data.toList := by
    intro cs
    show (String.ofList cs).toByteArray.data.toList = _
    rw [String.toByteArray_ofList]
  rw [hbytes, hbytes, hbytes, List.utf8Encode_cons, ByteArray.data_append, Array.toList_append]

/-- The number of bytes of one character over and over. -/
lemma length_utf8_replicate (n : ℕ) (c : Char) :
    (utf8 (String.ofList (List.replicate n c))).length = n * c.utf8Size := by
  have e : ∀ l : List Char, l.utf8Encode.size = (l.map Char.utf8Size).sum := by
    intro l
    induction l with
    | nil => rfl
    | cons d l ih =>
      rw [List.utf8Encode_cons, ByteArray.size_append, ih, List.utf8Encode_singleton]
      simp
  show (String.ofList (List.replicate n c)).toByteArray.data.toList.length = _
  rw [String.toByteArray_ofList, Array.length_toList]
  show (List.replicate n c).utf8Encode.size = _
  rw [e, List.map_replicate, List.sum_replicate, smul_eq_mul]

end ByteCodec
