import ShardusNet.Lib.Entries
import ShardusNet.Lib.JsNumberText
import ShardusNet.Lib.JsonWrite
/-!
# Reviving buffers

Port of `src/util/Encoding.ts`: `base64BufferReviver`, with which the data of a message is parsed.

The text of a JSON value, parsed with the reviver, is the value with its base64 objects replaced by
their bytes exactly when the value is `Judged` (`revived_iff`): no object has an own
`hasOwnProperty`, and each object that is not a base64 object has no `dataType` or one that is not
loosely equal to `"bh"`. Other objects can be taken for base64 objects, because `["bh"] == "bh"`,
and because the type of `data` is not looked at. Inside an object that is replaced this is not
noticed, as long as nothing throws there (`Quiet`).
-/

open JsonText
namespace ShardusNet.Node

/-- The values that `JSON.parse` gives with this reviver. The members of an object are its own
    properties, in order. JavaScript lists names that are array indices first and in ascending order,
    so that only the lists that have them so stand for objects. -/
inductive Value where
  | null
  | bool (b : Bool)
  | num (x : JsNumber)
  | str (s : Str)
  | arr (elements : List Value)
  | obj (members : List (Str × Value))
  | buffer (bytes : List UInt8)

/-- What Node.js does with buffers. -/
structure NodeBuffer where
  /-- `Buffer.from(s, 'base64')` -/
  fromBase64 : Str → List UInt8
  /-- `Buffer.from(value, 'base64')` for anything that is not a string, if it does not throw -/
  fromOther : Option Value → Option (List UInt8)
  /-- `toString()` -/
  text : List UInt8 → Str

/-! ## JSON texts -/

mutual

/-- What `JSON.stringify` writes of a value. -/
def Value.json : Value → Json
  | .null => .null
  | .bool b => .bool b
  | .num (.finite q) => .num (JsNumber.finite q).toText
  | .num _ => .null
  | .str s => .str s
  | .arr vs => .arr (jsonElements vs)
  | .obj ms => .obj (jsonMembers ms)
  | .buffer bytes =>
    .obj [(utf16 "type", .str (utf16 "Buffer")),
      (utf16 "data", .arr (bytes.map fun b => .num (utf16 (toString b.toNat))))]

/-- What is written of the elements of an array. -/
def jsonElements : List Value → List Json
  | [] => []
  | v :: vs => v.json :: jsonElements vs

/-- What is written of the members of an object. -/
def jsonMembers : List (Str × Value) → List (Str × Json)
  | [] => []
  | (name, v) :: ms => (name, v.json) :: jsonMembers ms

end

/-- `JSON.stringify`. -/
def stringify (v : Value) : Str := write v.json

mutual

/-- The value that is parsed, before it is revived. -/
def parsed : Json → Value
  | .null => .null
  | .bool b => .bool b
  | .num w => .num (JsNumber.ofRat ((number w).getD 0))
  | .str s => .str s
  | .arr vs => .arr (parsedElements vs)
  | .obj ms => .obj (Entries.setAll [] (parsedMembers ms))

/-- The elements of an array. -/
def parsedElements : List Json → List Value
  | [] => []
  | v :: vs => parsed v :: parsedElements vs

/-- The members of an object, repeated names included. -/
def parsedMembers : List (Str × Json) → List (Str × Value)
  | [] => []
  | (name, v) :: ms => (name, parsed v) :: parsedMembers ms

end

/-! ## The reviver -/

/-- What counts as true in a condition. -/
def Value.truthy : Value → Bool
  | .null => false
  | .bool b => b
  | .num x => x.truthy
  | .str s => s ≠ []
  | _ => true

section
variable (node : NodeBuffer)

mutual

/-- The string that a value is converted to, if that does not throw: an object is when it has an own
    `toString`, as no parsed value is a function. -/
def Value.text : Value → Option Str
  | .null => some (utf16 "null")
  | .bool true => some (utf16 "true")
  | .bool false => some (utf16 "false")
  | .num x => some x.toText
  | .str s => some s
  | .arr vs => (joined vs).map fun ss => [0x2c].intercalate ss
  | .obj ms =>
    if (Entries.get (utf16 "toString") ms).isSome then none else some (utf16 "[object Object]")
  | .buffer bytes => some (node.text bytes)

/-- The strings that `join` puts together: nothing for `null`. -/
def joined : List Value → Option (List Str)
  | [] => some []
  | .null :: vs => (joined vs).map fun ss => [] :: ss
  | v :: vs => v.text.bind fun s => (joined vs).map fun ss => s :: ss

end

/-- `value == 'bh'`, if it does not throw: numbers and booleans are compared as numbers, which
    `'bh'` is not, and everything else as a string. -/
def Value.equalsBh : Value → Option Bool
  | .null => some false
  | .bool _ => some false
  | .num _ => some false
  | v => (v.text node).map fun s => s = utf16 "bh"

/-- `isObject`. -/
def isObject : Value → Bool
  | .obj _ => true
  | .buffer _ => true
  | _ => false

/-- The own property of that name. -/
def Value.own (name : Str) : Value → Option Value
  | .obj ms => Entries.get name ms
  | _ => none

/-- `value.hasOwnProperty(name)`, if it does not throw: it does when the object has a property of
    that name, as no parsed value is a function. -/
def Value.hasOwnProperty (name : Str) (value : Value) : Option Bool :=
  if (value.own (utf16 "hasOwnProperty")).isSome then none else some (value.own name).isSome

/-- `Buffer.from(data, 'base64')`. -/
def NodeBuffer.bufferFrom (data : Option Value) : Option (List UInt8) :=
  match data with
  | some (.str s) => some (node.fromBase64 s)
  | data => node.fromOther data

/-- `base64BufferReviver`, which does not look at the key. -/
def base64BufferReviver (value : Value) : Option Value :=
  if isObject value then
    (value.hasOwnProperty (utf16 "dataType")).bind fun has =>
      match has, value.own (utf16 "dataType") with
      | true, some dataType =>
        if dataType.truthy then
          (dataType.equalsBh node).bind fun eq =>
            if eq then (node.bufferFrom (value.own (utf16 "data"))).map .buffer else some value
        else some value
      | _, _ => some value
  else some value

mutual

/-- The reviver is called for the elements and members of a value, and then for the value. -/
def revive : Value → Option Value
  | .arr vs => (reviveElements vs).bind fun vs => base64BufferReviver node (.arr vs)
  | .obj ms => (reviveMembers ms).bind fun ms => base64BufferReviver node (.obj ms)
  | .null => base64BufferReviver node .null
  | .bool b => base64BufferReviver node (.bool b)
  | .num x => base64BufferReviver node (.num x)
  | .str s => base64BufferReviver node (.str s)
  | .buffer bytes => base64BufferReviver node (.buffer bytes)

/-- The elements of an array, each revived. -/
def reviveElements : List Value → Option (List Value)
  | [] => some []
  | v :: vs => (revive v).bind fun v => (reviveElements vs).map fun vs => v :: vs

/-- The members of an object, each revived. -/
def reviveMembers : List (Str × Value) → Option (List (Str × Value))
  | [] => some []
  | (name, v) :: ms => (revive v).bind fun v => (reviveMembers ms).map fun ms => (name, v) :: ms

end

/-- `JSON.parse(text, base64BufferReviver)`. -/
def parseText (text : Str) : Option Value := (parse text).bind fun j => revive node (parsed j)

end

/-! ## What is meant -/

/-- JSON values: their numbers are finite, and the names of the members of an object are
    distinct. Members in an order that no JavaScript object has are allowed: nothing below needs the
    order. -/
inductive IsJson : Value → Prop
  | null : IsJson .null
  | bool (b) : IsJson (.bool b)
  | num {q} (hq : JsNumber.IsDouble q) : IsJson (.num (.finite q))
  | str (s) : IsJson (.str s)
  | arr {vs} (h : ∀ v ∈ vs, IsJson v) : IsJson (.arr vs)
  | obj {ms} (h : ∀ m ∈ ms, IsJson m.2) (hnodup : (ms.map Prod.fst).Nodup) : IsJson (.obj ms)

/-- The value of a unit of a base64 string. -/
def base64Value (u : UInt16) : Option ℕ :=
  if 0x41 ≤ u ∧ u ≤ 0x5a then some (u.toNat - 0x41)
  else if 0x61 ≤ u ∧ u ≤ 0x7a then some (u.toNat - 0x61 + 26)
  else if 0x30 ≤ u ∧ u ≤ 0x39 then some (u.toNat - 0x30 + 52)
  else if u = 0x2b then some 62
  else if u = 0x2f then some 63
  else none

/-- The bytes that a base64 string stands for: four units for three bytes, with `=` in place of the
    units that are missing at the end. -/
def base64 : Str → Option (List UInt8)
  | [] => some []
  | a :: b :: c :: d :: s => do
    let a ← base64Value a
    let b ← base64Value b
    let first := UInt8.ofNat (a * 4 + b / 16)
    if s = [] ∧ c = 0x3d ∧ d = 0x3d then some [first]
    else
      let c ← base64Value c
      let second := UInt8.ofNat (b % 16 * 16 + c / 4)
      if s = [] ∧ d = 0x3d then some [first, second]
      else
        let d ← base64Value d
        let bytes ← base64 s
        some (first :: second :: UInt8.ofNat (c % 4 * 64 + d) :: bytes)
  | _ => none

/-- The bytes of a base64 object: its `dataType` is the string `"bh"`, and its `data` a base64
    string. -/
def base64Object (ms : List (Str × Value)) : Option (List UInt8) :=
  match Entries.get (utf16 "dataType") ms, Entries.get (utf16 "data") ms with
  | some (.str dataType), some (.str data) => if dataType = utf16 "bh" then base64 data else none
  | _, _ => none

mutual

/-- The value with its base64 objects replaced by their bytes. -/
def replaced : Value → Value
  | .arr vs => .arr (replacedElements vs)
  | .obj ms =>
    match base64Object ms with
    | some bytes => .buffer bytes
    | none => .obj (replacedMembers ms)
  | .null => .null
  | .bool b => .bool b
  | .num x => .num x
  | .str s => .str s
  | .buffer bytes => .buffer bytes

/-- The elements of an array, with their base64 objects replaced. -/
def replacedElements : List Value → List Value
  | [] => []
  | v :: vs => replaced v :: replacedElements vs

/-- The members of an object, with their base64 objects replaced. -/
def replacedMembers : List (Str × Value) → List (Str × Value)
  | [] => []
  | (name, v) :: ms => (name, replaced v) :: replacedMembers ms

end

/-- No object in the value has a `dataType` that is the string `"bh"`. -/
inductive NoBh : Value → Prop
  | null : NoBh .null
  | bool (b) : NoBh (.bool b)
  | num (x) : NoBh (.num x)
  | str (s) : NoBh (.str s)
  | buffer (bytes) : NoBh (.buffer bytes)
  | arr {vs} (h : ∀ v ∈ vs, NoBh v) : NoBh (.arr vs)
  | obj {ms} (h : ∀ m ∈ ms, NoBh m.2)
    (hne : Entries.get (utf16 "dataType") ms ≠ some (.str (utf16 "bh"))) :
    NoBh (.obj ms)

/-- The text of the value is parsed as the value with its base64 objects replaced, and so as the
    value itself when there are none. -/
def Revived (node : NodeBuffer) (d : Value) : Prop :=
  parseText node (stringify d) = some (replaced d) ∧
    (NoBh d → parseText node (stringify d) = some d)

section
variable (node : NodeBuffer)

/-- An object that is taken for a base64 object is one whose `dataType` is loosely equal to
    `"bh"`. -/
def takenObject (ms : List (Str × Value)) : Value :=
  match Entries.get (utf16 "dataType") ms with
  | some dataType =>
    if dataType.equalsBh node = some true then
      .buffer ((node.bufferFrom (Entries.get (utf16 "data") ms)).getD [])
    else .obj ms
  | none => .obj ms

mutual

/-- The value with the objects replaced that are taken for base64 objects, whether they are or
    not. -/
def taken : Value → Value
  | .arr vs => .arr (takenElements vs)
  | .obj ms => takenObject node (takenMembers ms)
  | .null => .null
  | .bool b => .bool b
  | .num x => .num x
  | .str s => .str s
  | .buffer bytes => .buffer bytes

/-- The elements of an array, as the reviver takes them. -/
def takenElements : List Value → List Value
  | [] => []
  | v :: vs => taken v :: takenElements vs

/-- The members of an object, as the reviver takes them. -/
def takenMembers : List (Str × Value) → List (Str × Value)
  | [] => []
  | (name, v) :: ms => (name, taken v) :: takenMembers ms

end

/-- Nothing in the value throws: no object has an own `hasOwnProperty`, each `dataType` can be
    compared, and what is taken for base64 data can be decoded. -/
inductive Quiet : Value → Prop
  | null : Quiet .null
  | bool (b) : Quiet (.bool b)
  | num (x) : Quiet (.num x)
  | str (s) : Quiet (.str s)
  | arr {vs} (h : ∀ v ∈ vs, Quiet v) : Quiet (.arr vs)
  | obj {ms} (hown : Entries.get (utf16 "hasOwnProperty") ms = none) (h : ∀ m ∈ ms, Quiet m.2)
    (hcompared : ∀ dataType, Entries.get (utf16 "dataType") ms = some dataType →
      ∃ eq, (taken node dataType).equalsBh node = some eq ∧
        (eq = true → (node.bufferFrom ((Entries.get (utf16 "data") ms).map (taken node))).isSome)) :
    Quiet (.obj ms)

end

/-- The reviver judges each object as it is meant. -/
inductive Judged (node : NodeBuffer) : Value → Prop
  | null : Judged node .null
  | bool (b) : Judged node (.bool b)
  | num (x) : Judged node (.num x)
  | str (s) : Judged node (.str s)
  | arr {vs} (h : ∀ v ∈ vs, Judged node v) : Judged node (.arr vs)
  | replaced {ms} (hbytes : (base64Object ms).isSome)
    (hown : Entries.get (utf16 "hasOwnProperty") ms = none)
    (h : ∀ m ∈ ms, Quiet node m.2) : Judged node (.obj ms)
  | kept {ms} (hbytes : base64Object ms = none)
    (hown : Entries.get (utf16 "hasOwnProperty") ms = none)
    (h : ∀ m ∈ ms, Judged node m.2)
    (hdiffers : ∀ dataType, Entries.get (utf16 "dataType") ms = some dataType →
      (replaced dataType).equalsBh node = some false) : Judged node (.obj ms)

/-! ## The text of a JSON value -/

/-- Each element is written by itself. -/
lemma jsonElements_eq (vs) : jsonElements vs = vs.map Value.json := by
  induction vs with
  | nil => rfl
  | cons v vs ih => rw [jsonElements, ih, List.map_cons]

/-- Each member is written by itself. -/
lemma jsonMembers_eq (ms) : jsonMembers ms = ms.map fun m => (m.1, m.2.json) := by
  induction ms with
  | nil => rfl
  | cons m ms ih => rw [jsonMembers, ih, List.map_cons]

/-- Each element is parsed by itself. -/
lemma parsedElements_eq (vs) : parsedElements vs = vs.map parsed := by
  induction vs with
  | nil => rfl
  | cons v vs ih => rw [parsedElements, ih, List.map_cons]

/-- Each member is parsed by itself. -/
lemma parsedMembers_eq (ms) : parsedMembers ms = ms.map fun m => (m.1, parsed m.2) := by
  induction ms with
  | nil => rfl
  | cons m ms ih => rw [parsedMembers, ih, List.map_cons]

/-- The numbers of a JSON value are written as numbers. -/
lemma IsJson.lexical {d} (h : IsJson d) : d.json.Lexical := by
  induction h with
  | null => exact .null
  | bool b => exact .bool b
  | num hq =>
    exact .num (JsNumber.toText_ne_nil hq) (fun u hu => JsNumber.isWord_of_mem_toText hq hu)
      (JsNumber.wordToken_toText hq)
  | str s => exact .str s
  | arr _ ih =>
    rw [Value.json, jsonElements_eq]
    exact .arr (List.forall_mem_map.mpr ih)
  | obj _ _ ih =>
    rw [Value.json, jsonMembers_eq]
    exact .obj (List.forall_mem_map.mpr ih)

/-- A JSON value is read back, but for the reviver. -/
lemma IsJson.parsed_json {d} (h : IsJson d) : parsed d.json = d := by
  induction h with
  | null => rfl
  | bool b => rfl
  | num hq =>
    obtain ⟨r, hr, hround⟩ := JsNumber.number_toText hq
    rw [Value.json, parsed, hr, Option.getD_some, hround]
  | str s => rfl
  | @arr vs _ ih =>
    rw [Value.json, parsed, jsonElements_eq, parsedElements_eq, List.map_map]
    congr 1
    exact (List.map_congr_left fun v hv => ih v hv).trans (List.map_id _)
  | @obj ms _ hnodup ih =>
    have hmembers : parsedMembers (jsonMembers ms) = ms := by
      rw [jsonMembers_eq, parsedMembers_eq, List.map_map]
      refine (List.map_congr_left (g := id) fun m hm => ?_).trans (List.map_id _)
      exact Prod.ext rfl (ih m hm)
    rw [Value.json, parsed, hmembers, Entries.setAll_of_nodup [] (by exact hnodup)]
    rfl

/-- The text of a JSON value is parsed to the value, revived. -/
lemma parseText_stringify (node) {d} (h : IsJson d) :
    parseText node (stringify d) = revive node d := by
  rw [parseText, stringify, parse_write h.lexical, Option.bind_some, h.parsed_json]

/-! ## What the reviver does -/

/-- Each element has its base64 objects replaced. -/
lemma replacedElements_eq (vs) : replacedElements vs = vs.map replaced := by
  induction vs with
  | nil => rfl
  | cons v vs ih => rw [replacedElements, ih, List.map_cons]

/-- Each member has its base64 objects replaced. -/
lemma replacedMembers_eq (ms) : replacedMembers ms = ms.map fun m => (m.1, replaced m.2) := by
  induction ms with
  | nil => rfl
  | cons m ms ih => rw [replacedMembers, ih, List.map_cons]

/-- Without a `dataType` that is the string `"bh"`, nothing is replaced. -/
theorem replaced_of_noBh {v} (h : NoBh v) : replaced v = v := by
  induction h with
  | null => rfl
  | bool b => rfl
  | num x => rfl
  | str s => rfl
  | buffer bytes => rfl
  | arr _ ih =>
    rw [replaced, replacedElements_eq]
    congr 1
    exact (List.map_congr_left ih).trans (List.map_id _)
  | @obj ms _ hne ih =>
    have hnone : base64Object ms = none := by
      unfold base64Object
      split
      case h_1 dataType _ hdataType _ =>
        rw [if_neg]
        rintro rfl
        exact hne hdataType
      case h_2 => rfl
    simp only [replaced, hnone, replacedMembers_eq]
    congr 1
    refine (List.map_congr_left (g := id) fun m hm => ?_).trans (List.map_id _)
    exact Prod.ext rfl (ih m hm)

section
variable {node : NodeBuffer}

/-- Each element is taken by itself. -/
lemma takenElements_eq (vs) : takenElements node vs = vs.map (taken node) := by
  induction vs with
  | nil => rfl
  | cons v vs ih => rw [takenElements, ih, List.map_cons]

/-- Each member is taken by itself. -/
lemma takenMembers_eq (ms) : takenMembers node ms = ms.map fun m => (m.1, taken node m.2) := by
  induction ms with
  | nil => rfl
  | cons m ms ih => rw [takenMembers, ih, List.map_cons]

/-- What does not count as true is not equal to `"bh"`, so that the reviver need not ask. -/
lemma equalsBh_of_not_truthy {v : Value} (h : v.truthy = false) : v.equalsBh node = some false := by
  cases v with
  | null => rfl
  | bool b => rfl
  | num x => rfl
  | str s =>
    rw [Value.truthy, decide_eq_false_iff_not, not_not] at h
    rw [h]
    rfl
  | arr vs => cases h
  | obj ms => cases h
  | buffer bytes => cases h

/-- The elements are revived exactly when each of them is. -/
lemma reviveElements_eq_iff {vs} {f : Value → Value} :
    reviveElements node vs = some (vs.map f) ↔ ∀ v ∈ vs, revive node v = some (f v) := by
  induction vs with
  | nil => exact ⟨fun _ => nofun, fun _ => rfl⟩
  | cons v vs ih =>
    rw [reviveElements, List.map_cons, List.forall_mem_cons, ← ih]
    cases hv : revive node v with
    | none => simp
    | some w =>
      rw [Option.bind_some, Option.map_eq_some_iff]
      simp [and_comm]

/-- The members are revived exactly when each of them is. -/
lemma reviveMembers_eq_iff {ms} {f : Value → Value} :
    reviveMembers node ms = some (ms.map fun m => (m.1, f m.2)) ↔
      ∀ m ∈ ms, revive node m.2 = some (f m.2) := by
  induction ms with
  | nil => exact ⟨fun _ => nofun, fun _ => rfl⟩
  | cons m ms ih =>
    rw [reviveMembers, List.map_cons, List.forall_mem_cons, ← ih]
    cases hm : revive node m.2 with
    | none => simp
    | some w =>
      rw [Option.bind_some, Option.map_eq_some_iff]
      simp [and_comm]

/-- What the reviver makes of an object. -/
lemma reviver_obj (ms) :
    base64BufferReviver node (.obj ms) =
      if Entries.get (utf16 "hasOwnProperty") ms = none then
        match Entries.get (utf16 "dataType") ms with
        | none => some (.obj ms)
        | some dataType => (dataType.equalsBh node).bind fun eq =>
          if eq then (node.bufferFrom (Entries.get (utf16 "data") ms)).map .buffer else some (.obj ms)
      else none := by
  have hobject : isObject (.obj ms) = true := rfl
  have hown : ∀ name, (Value.obj ms).own name = Entries.get name ms := fun _ => rfl
  rw [base64BufferReviver, if_pos hobject]
  simp only [Value.hasOwnProperty, hown]
  cases Entries.get (utf16 "hasOwnProperty") ms with
  | some v => rfl
  | none =>
    cases Entries.get (utf16 "dataType") ms with
    | none => rfl
    | some dataType =>
      cases htruthy : dataType.truthy with
      | true => simp [htruthy]
      | false => simp [htruthy, equalsBh_of_not_truthy htruthy]

/-- An object is kept as it is when it can be told that it is not a base64 object. -/
lemma reviver_kept_iff {ms ms'} :
    base64BufferReviver node (.obj ms) = some (.obj ms') ↔
      ms = ms' ∧ Entries.get (utf16 "hasOwnProperty") ms = none ∧
        ∀ dataType, Entries.get (utf16 "dataType") ms = some dataType →
          dataType.equalsBh node = some false := by
  rw [reviver_obj]
  cases Entries.get (utf16 "hasOwnProperty") ms with
  | some v => simp
  | none =>
    cases Entries.get (utf16 "dataType") ms with
    | none => simp
    | some dataType =>
      cases heq : dataType.equalsBh node with
      | none => simp [heq]
      | some eq => cases eq <;> simp [heq]

/-- The reviver replaces a base64 object, unless it has an own `hasOwnProperty`. -/
lemma reviver_replaced (hnode : ∀ s bytes, base64 s = some bytes → node.fromBase64 s = bytes)
    {ms bytes} (h : base64Object ms = some bytes) :
    base64BufferReviver node (.obj ms) =
      if Entries.get (utf16 "hasOwnProperty") ms = none then some (.buffer bytes) else none := by
  unfold base64Object at h
  split at h
  case h_1 dataType data hdataType hdata =>
    split at h
    case isTrue e =>
      subst e
      rw [reviver_obj, hdataType, hdata, NodeBuffer.bufferFrom, hnode _ _ h]
      rfl
    case isFalse => cases h
  case h_2 => cases h

/-- The base64 object is known by strings, which are revived as they are. -/
lemma base64Object_map {ms bytes} {f : Value → Value}
    (hf : ∀ m ∈ ms, revive node m.2 = some (f m.2))
    (h : base64Object ms = some bytes) :
    base64Object (ms.map fun m => (m.1, f m.2)) = some bytes := by
  have hstr : ∀ {name s}, Entries.get name ms = some (.str s) → f (.str s) = .str s := by
    intro name s hget
    exact (Option.some_inj.mp (hf _ (Entries.mem_of_get hget))).symm
  unfold base64Object at h
  split at h
  case h_1 dataType data hdataType hdata =>
    rw [base64Object, Entries.get_map, Entries.get_map, hdataType, hdata, Option.map_some,
      Option.map_some, hstr hdataType, hstr hdata]
    exact h
  case h_2 => cases h

/-- Where an array is revived, nothing throws in an element. -/
lemma isSome_of_reviveElements {vs vs'} (h : reviveElements node vs = some vs') :
    ∀ v ∈ vs, (revive node v).isSome := by
  induction vs generalizing vs' with
  | nil => nofun
  | cons v vs ih =>
    obtain ⟨w, hw, h⟩ := Option.bind_eq_some_iff.mp h
    obtain ⟨vs'', hvs, _⟩ := Option.map_eq_some_iff.mp h
    exact List.forall_mem_cons.mpr ⟨by rw [hw]; rfl, ih hvs⟩

/-- Where the members are revived, nothing throws in any of them. -/
lemma isSome_of_reviveMembers {ms ms'} (h : reviveMembers node ms = some ms') :
    ∀ m ∈ ms, (revive node m.2).isSome := by
  induction ms generalizing ms' with
  | nil => nofun
  | cons m ms ih =>
    obtain ⟨v, hv, h⟩ := Option.bind_eq_some_iff.mp h
    obtain ⟨ms'', hms, _⟩ := Option.map_eq_some_iff.mp h
    exact List.forall_mem_cons.mpr ⟨by rw [hv]; rfl, ih hms⟩

/-- An array is revived element by element. -/
lemma revive_arr (vs) : revive node (.arr vs) = (reviveElements node vs).map .arr := by
  rw [revive]
  cases reviveElements node vs <;> rfl

/-- What is quiet is revived as it is taken. -/
lemma Quiet.revive_eq {v} (h : Quiet node v) : revive node v = some (taken node v) := by
  induction h with
  | null => rfl
  | bool b => rfl
  | num x => rfl
  | str s => rfl
  | arr _ ih =>
    rw [revive_arr, reviveElements_eq_iff.mpr ih, taken, takenElements_eq, Option.map_some]
  | @obj ms hown _ hcompared ih =>
    rw [revive, reviveMembers_eq_iff.mpr ih, Option.bind_some, taken, takenMembers_eq, reviver_obj,
      takenObject, Entries.get_map, Entries.get_map, Entries.get_map, hown, if_pos (Option.map_none _)]
    cases hdataType : Entries.get (utf16 "dataType") ms with
    | none => rfl
    | some dataType =>
      obtain ⟨eq, hequals, hdecoded⟩ := hcompared dataType hdataType
      simp only [Option.map_some, hequals, Option.bind_some]
      cases eq with
      | false => rfl
      | true =>
        obtain ⟨bytes, hbytes⟩ := Option.isSome_iff_exists.mp (hdecoded rfl)
        simp [hbytes]

/-- A JSON value is quiet when it is revived. -/
lemma IsJson.quiet {v} (h : IsJson v) (hrevived : (revive node v).isSome) : Quiet node v := by
  induction h with
  | null => exact .null
  | bool b => exact .bool b
  | num _ => exact .num _
  | str s => exact .str s
  | @arr vs _ ih =>
    rw [revive_arr, Option.isSome_map] at hrevived
    obtain ⟨vs', helements⟩ := Option.isSome_iff_exists.mp hrevived
    exact .arr fun v hv => ih v hv (isSome_of_reviveElements helements v hv)
  | @obj ms _ _ ih =>
    obtain ⟨w, hw⟩ := Option.isSome_iff_exists.mp hrevived
    rw [revive, Option.bind_eq_some_iff] at hw
    obtain ⟨ms', hmembers, hreviver⟩ := hw
    have hquiet : ∀ m ∈ ms, Quiet node m.2 :=
      fun m hm => ih m hm (isSome_of_reviveMembers hmembers m hm)
    -- the members are taken as they are, so that the reviver compares what is taken
    rw [reviveMembers_eq_iff.mpr fun m hm => (hquiet m hm).revive_eq, Option.some_inj] at hmembers
    rw [← hmembers, reviver_obj, Entries.get_map, Entries.get_map, Entries.get_map] at hreviver
    split at hreviver
    case isFalse => cases hreviver
    case isTrue hown =>
      refine .obj (Option.map_eq_none_iff.mp hown) hquiet ?_
      intro dataType hdataType
      rw [hdataType, Option.map_some] at hreviver
      obtain ⟨eq, hequals, hreviver⟩ := Option.bind_eq_some_iff.mp hreviver
      refine ⟨eq, hequals, ?_⟩
      rintro rfl
      obtain ⟨bytes, hbytes, _⟩ := Option.map_eq_some_iff.mp hreviver
      rw [hbytes]
      rfl

/-- A base64 object whose members are quiet is replaced by its bytes. -/
lemma revive_replaced (hnode : ∀ s bytes, base64 s = some bytes → node.fromBase64 s = bytes)
    {ms bytes} (hbytes : base64Object ms = some bytes) (h : ∀ m ∈ ms, Quiet node m.2) :
    revive node (.obj ms) =
      if Entries.get (utf16 "hasOwnProperty") ms = none then some (.buffer bytes) else none := by
  have hf : ∀ m ∈ ms, revive node m.2 = some (taken node m.2) := fun m hm => (h m hm).revive_eq
  rw [revive, reviveMembers_eq_iff.mpr hf, Option.bind_some,
    reviver_replaced hnode (base64Object_map hf hbytes)]
  simp only [Entries.get_map, Option.map_eq_none_iff]

/-- A value is revived as it is meant exactly when it is judged so. -/
lemma revive_eq_iff (hnode : ∀ s bytes, base64 s = some bytes → node.fromBase64 s = bytes) {d}
    (h : IsJson d) : revive node d = some (replaced d) ↔ Judged node d := by
  induction h with
  | null => exact ⟨fun _ => .null, fun _ => rfl⟩
  | bool b => exact ⟨fun _ => .bool b, fun _ => rfl⟩
  | num _ => exact ⟨fun _ => .num _, fun _ => rfl⟩
  | str s => exact ⟨fun _ => .str s, fun _ => rfl⟩
  | @arr vs _ ih =>
    rw [revive_arr, replaced, replacedElements_eq, Option.map_eq_some_iff]
    simp only [Value.arr.injEq, exists_eq_right]
    rw [reviveElements_eq_iff]
    constructor
    · intro h
      exact .arr fun v hv => (ih v hv).mp (h v hv)
    · intro h v hv
      cases h with
      | arr h => exact (ih v hv).mpr (h v hv)
  | @obj ms hjson _ ih =>
    cases hbytes : base64Object ms with
    | some bytes =>
      have hreplaced : replaced (.obj ms) = .buffer bytes := by simp only [replaced, hbytes]
      rw [hreplaced]
      constructor
      · intro h
        have hrevive := h
        rw [revive] at hrevive
        obtain ⟨ms', hmembers, _⟩ := Option.bind_eq_some_iff.mp hrevive
        have hquiet : ∀ m ∈ ms, Quiet node m.2 :=
          fun m hm => (hjson m hm).quiet (isSome_of_reviveMembers hmembers m hm)
        rw [revive_replaced hnode hbytes hquiet] at h
        split at h
        case isTrue hown => exact .replaced (by rw [hbytes]; rfl) hown hquiet
        case isFalse => cases h
      · intro h
        cases h with
        | replaced _ hown hquiet => rw [revive_replaced hnode hbytes hquiet, if_pos hown]
        | kept hnone => cases hbytes.symm.trans hnone
    | none =>
      have hreplaced : replaced (.obj ms) = .obj (ms.map fun m => (m.1, replaced m.2)) := by
        simp only [replaced, hbytes, replacedMembers_eq]
      rw [hreplaced, revive, Option.bind_eq_some_iff]
      constructor
      · rintro ⟨ms', hmembers, hreviver⟩
        obtain ⟨rfl, hown, hdiffers⟩ := reviver_kept_iff.mp hreviver
        rw [Entries.get_map, Option.map_eq_none_iff] at hown
        have hrevived := reviveMembers_eq_iff.mp hmembers
        refine .kept hbytes hown (fun m hm => (ih m hm).mp (hrevived m hm)) ?_
        intro dataType hget
        refine hdiffers _ ?_
        rw [Entries.get_map, hget, Option.map_some]
      · intro h
        cases h with
        | replaced hsome => cases hbytes ▸ hsome
        | kept _ hown h hdiffers =>
          refine ⟨_, reviveMembers_eq_iff.mpr fun m hm => (ih m hm).mpr (h m hm), ?_⟩
          refine reviver_kept_iff.mpr ⟨rfl, ?_, fun dataType hget => ?_⟩
          · rw [Entries.get_map, hown, Option.map_none]
          · rw [Entries.get_map] at hget
            obtain ⟨dataType', hget', rfl⟩ := Option.map_eq_some_iff.mp hget
            exact hdiffers dataType' hget'

end

/-- The text of a JSON value is parsed with the reviver as it is meant exactly when each object is
    judged as it is meant. -/
theorem revived_iff {node : NodeBuffer}
    (hnode : ∀ s bytes, base64 s = some bytes → node.fromBase64 s = bytes)
    {d : Value} (h : IsJson d) :
    Revived node d ↔ Judged node d := by
  rw [Revived, parseText_stringify node h, ← revive_eq_iff hnode h]
  constructor
  · intro hrevived
    exact hrevived.1
  · intro hrevive
    refine ⟨hrevive, fun hd => ?_⟩
    rw [hrevive, replaced_of_noBh hd]

/-- Buffers that read base64 and write a unit for each byte. -/
def asciiBuffer : NodeBuffer where
  fromBase64 s := (base64 s).getD []
  fromOther _ := none
  text bytes := bytes.map fun b => UInt16.ofNat b.toNat

/-- They read the bytes of a base64 string. -/
lemma asciiBuffer_base64 (s bytes) (h : base64 s = some bytes) :
    asciiBuffer.fromBase64 s = bytes := by
  show (base64 s).getD [] = bytes
  rw [h, Option.getD_some]

/-- A message with a number and a buffer. -/
def message : Value :=
  .obj [(utf16 "n", .arr [.num (.finite (1 / 2)), .null]),
    (utf16 "b", .obj [(utf16 "dataType", .str (utf16 "bh")), (utf16 "data", .str (utf16 "YWI="))])]

/-- The message is a JSON value. -/
lemma message_isJson : IsJson message := by
  refine .obj (List.forall_mem_cons.mpr ⟨.arr ?_,
    List.forall_mem_singleton.mpr (.obj ?_ (by decide))⟩) (by decide)
  · exact List.forall_mem_cons.mpr ⟨.num (by decide +kernel), List.forall_mem_singleton.mpr .null⟩
  · exact List.forall_mem_cons.mpr ⟨.str _, List.forall_mem_singleton.mpr (.str _)⟩

/-- The message with bytes in it is revived exactly as it is judged. -/
theorem revived_iff_message :
    (∀ s bytes, base64 s = some bytes → asciiBuffer.fromBase64 s = bytes) ∧ IsJson message ∧
      (Revived asciiBuffer message ↔ Judged asciiBuffer message) :=
  ⟨asciiBuffer_base64, message_isJson, revived_iff asciiBuffer_base64 message_isJson⟩

/-- An object with a property `hasOwnProperty` makes the parser throw, and one whose `dataType` is
    the array `["bh"]` is replaced. -/
theorem revived_fails_shapes :
    (IsJson (.obj [(utf16 "hasOwnProperty", .null)]) ∧
        ¬Revived asciiBuffer (.obj [(utf16 "hasOwnProperty", .null)])) ∧
      IsJson (.obj [(utf16 "dataType", .arr [.str (utf16 "bh")]),
        (utf16 "data", .str (utf16 "YQ=="))]) ∧
        ¬Revived asciiBuffer
          (.obj [(utf16 "dataType", .arr [.str (utf16 "bh")]),
            (utf16 "data", .str (utf16 "YQ=="))]) := by
  have hown : IsJson (.obj [(utf16 "hasOwnProperty", .null)]) :=
    .obj (List.forall_mem_singleton.mpr .null) (by decide)
  have harray : IsJson (.obj [(utf16 "dataType", .arr [.str (utf16 "bh")]),
      (utf16 "data", .str (utf16 "YQ=="))]) :=
    .obj (List.forall_mem_cons.mpr ⟨.arr (List.forall_mem_singleton.mpr (.str _)),
      List.forall_mem_singleton.mpr (.str _)⟩) (by decide)
  refine ⟨⟨hown, fun h => ?_⟩, harray, fun h => ?_⟩
  · have hparse := h.1
    rw [parseText_stringify _ hown] at hparse
    cases hparse
  · have hparse := h.1
    rw [parseText_stringify _ harray] at hparse
    cases hparse

end ShardusNet.Node
