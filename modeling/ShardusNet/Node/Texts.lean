import ShardusNet.Lib.ByteCodec
import ShardusNet.Lib.Utf16
import ShardusNet.Node.Instance
import ShardusNet.Node.Reviver
/-!
# Messages as texts

What `_sendAug` makes of an `AugmentedData` and what `extractUUIDHandleData` makes of it again: the
object with its properties, written by `JSON.stringify`, converted to a string of the binding and
back, and parsed with `base64BufferReviver`. Data may be undefined; it is a JSON value else.

* `readText_text`: a message is read from its text as it was, with its data revived.
-/

namespace ShardusNet.Node
open JsonText ByteCodec

/-- The text of a `msgDir`. -/
def MsgDir.text : MsgDir → String
  | .ask => "ask"
  | .tell => "tell"
  | .resp => "resp"

/-- The properties that are not undefined. -/
def defined (ps : List (String × Option Value)) : List (Str × Value) :=
  ps.filterMap fun p => p.2.map fun v => (utf16 p.1, v)

/-- `JSON.stringify` of an object with these properties, as the binding takes it. -/
def stringifyProperties (ps : List (String × Option Value)) : String :=
  ofUtf16 (stringify (.obj (defined ps)))

namespace AugmentedData

/-- The properties, in the order of `NewAugData` and of the `sendData` of a response. -/
def properties (a : AugmentedData (Option Value)) : List (String × Option Value) :=
  [("data", a.data),
    ("UUID", some (.str (utf16 a.UUID))),
    ("PORT", some (.num (.finite a.PORT))),
    ("ADDRESS", a.ADDRESS.map fun s => .str (utf16 s)),
    ("sendTime", some (.num (.finite a.sendTime))),
    ("receivedTime", some (.num (.finite a.receivedTime))),
    ("replyTime", some (.num (.finite a.replyTime))),
    ("replyReceivedTime", some (.num (.finite a.replyReceivedTime))),
    ("timeout", a.timeout.map fun t : ℤ => .num (.finite t)),
    ("msgDir", some (.str (utf16 a.msgDir.text)))]

/-- The object. -/
def value (a : AugmentedData (Option Value)) : Value := .obj (defined a.properties)

/-- `stringifyData` without a custom stringifier, as the binding takes it. -/
def text (a : AugmentedData (Option Value)) : String := ofUtf16 (stringify a.value)

end AugmentedData

/-- A property that is a string. -/
def stringOf : Value → Option String
  | .str s => some (ofUtf16 s)
  | _ => none

/-- A property that is an integer. -/
def intOf : Value → Option ℤ
  | .num (.finite q) => if q.den = 1 then some q.num else none
  | _ => none

/-- A property that is a natural number. -/
def natOf (v : Value) : Option ℕ := (intOf v).bind fun n => if 0 ≤ n then some n.toNat else none

/-- A property that is a `msgDir`. -/
def msgDirOf (v : Value) : Option MsgDir :=
  (stringOf v).bind fun s => [MsgDir.ask, .tell, .resp].find? (·.text = s)

/-- A property that may be undefined. -/
def orUndefined {α : Type*} (f : Value → Option α) : Option Value → Option (Option α)
  | none => some none
  | some v => (f v).map some

/-- What is read of an object that has the properties of an `AugmentedData`. -/
def augDataOf : Value → Option (AugmentedData (Option Value))
  | .obj ms => do
    let own name := Entries.get (utf16 name) ms
    let UUID ← (own "UUID").bind stringOf
    let PORT ← (own "PORT").bind natOf
    let ADDRESS ← orUndefined stringOf (own "ADDRESS")
    let sendTime ← (own "sendTime").bind intOf
    let receivedTime ← (own "receivedTime").bind intOf
    let replyTime ← (own "replyTime").bind intOf
    let replyReceivedTime ← (own "replyReceivedTime").bind intOf
    let timeout ← orUndefined intOf (own "timeout")
    let msgDir ← (own "msgDir").bind msgDirOf
    some { data := own "data", UUID, PORT, ADDRESS, sendTime, receivedTime, replyTime,
           replyReceivedTime, timeout, msgDir }
  | _ => none

/-- The message of a text of the binding. -/
def readText (node : NodeBuffer) (text : String) : Option (AugmentedData (Option Value)) :=
  (parseText node (utf16 text)).bind augDataOf

/-- What becomes of data that may be undefined; `none` when the parser throws. -/
def revivedData (node : NodeBuffer) : Option Value → Option (Option Value)
  | none => some none
  | some v => (revive node v).map some

/-- What becomes of properties; `none` when the parser throws. -/
def revivedProperties (node : NodeBuffer) :
    List (String × Option Value) → Option (List (String × Option Value))
  | [] => some []
  | (name, v) :: ps =>
    (revivedData node v).bind fun v => (revivedProperties node ps).map fun ps => (name, v) :: ps

namespace AugmentedData

/-- The message with the data that the other side gets. -/
def revived (node : NodeBuffer) (a : AugmentedData (Option Value)) :
    Option (AugmentedData (Option Value)) :=
  (revivedData node a.data).map fun data => { a with data }

/-- The data is a JSON value, and the numbers are doubles. -/
structure Portable (a : AugmentedData (Option Value)) : Prop where
  data : ∀ v, a.data = some v → IsJson v
  PORT : JsNumber.IsDouble a.PORT
  sendTime : JsNumber.IsDouble a.sendTime
  receivedTime : JsNumber.IsDouble a.receivedTime
  replyTime : JsNumber.IsDouble a.replyTime
  replyReceivedTime : JsNumber.IsDouble a.replyReceivedTime
  timeout : ∀ t, a.timeout = some t → JsNumber.IsDouble t

end AugmentedData

/-! ## Objects with properties -/

/-- Strings are told apart by their units. -/
lemma utf16_injective {s t : String} (h : utf16 s = utf16 t) : s = t := by
  rw [← ofUtf16_utf16 s, h, ofUtf16_utf16]

/-- A property is written when it has a value. -/
lemma defined_cons (name : String) (v : Option Value) (ps) :
    defined ((name, v) :: ps) = (v.map fun v => (utf16 name, v)).toList ++ defined ps := by
  cases v <;> rfl

/-- Only what is named has a name. -/
lemma defined_sublist (ps : List (String × Option Value)) :
    ((defined ps).map Prod.fst).Sublist ((ps.map Prod.fst).map utf16) := by
  induction ps with
  | nil => exact .slnil
  | cons p ps ih =>
    obtain ⟨name, v⟩ := p
    cases v with
    | none => exact ih.cons _
    | some v => exact ih.cons_cons _

/-- A property that is not named is undefined. -/
lemma get_defined_eq_none {ps : List (String × Option Value)} {name} (h : name ∉ ps.map Prod.fst) :
    Entries.get (utf16 name) (defined ps) = none := by
  apply Entries.get_eq_none
  intro hin
  obtain ⟨name', hname', e⟩ := List.mem_map.mp ((defined_sublist ps).subset hin)
  exact h (utf16_injective e ▸ hname')

/-- The value of a property. -/
lemma get_defined {ps : List (String × Option Value)} (hnodup : (ps.map Prod.fst).Nodup) {name v}
    (h : (name, v) ∈ ps) : Entries.get (utf16 name) (defined ps) = v := by
  induction ps with
  | nil => cases h
  | cons p ps ih =>
    obtain ⟨name', v'⟩ := p
    obtain ⟨hnot, hps⟩ := List.nodup_cons.mp hnodup
    rcases List.mem_cons.mp h with e | hmem
    · cases e
      rw [defined_cons]
      cases v with
      | none => exact get_defined_eq_none hnot
      | some v =>
        show Entries.get (utf16 name) ((utf16 name, v) :: defined ps) = some v
        rw [Entries.get_cons, if_pos rfl]
    · have hne : name' ≠ name := by
        intro e
        exact hnot (List.mem_map.mpr ⟨_, hmem, e.symm⟩)
      rw [defined_cons]
      cases v' with
      | none => exact ih hps hmem
      | some v' =>
        show Entries.get (utf16 name) ((utf16 name', v') :: defined ps) = v
        rw [Entries.get_cons, if_neg fun e => hne (utf16_injective e)]
        exact ih hps hmem

/-- Distinct names stay distinct. -/
lemma nodup_defined {ps : List (String × Option Value)} (hnodup : (ps.map Prod.fst).Nodup) :
    ((defined ps).map Prod.fst).Nodup := by
  exact (hnodup.map fun _ _ => utf16_injective).sublist (defined_sublist ps)

/-- What holds of the values of all properties. -/
lemma forall_defined {P : Value → Prop} {ps : List (String × Option Value)}
    (h : ∀ p ∈ ps, ∀ v, p.2 = some v → P v) : ∀ m ∈ defined ps, P m.2 := by
  intro m hm
  obtain ⟨p, hp, hm⟩ := List.mem_filterMap.mp hm
  obtain ⟨v, hv, rfl⟩ := Option.map_eq_some_iff.mp hm
  exact h p hp v hv

/-- Properties that are JSON values make a JSON value. -/
lemma isJson_defined {ps : List (String × Option Value)} (hnodup : (ps.map Prod.fst).Nodup)
    (h : ∀ p ∈ ps, ∀ v, p.2 = some v → IsJson v) : IsJson (.obj (defined ps)) :=
  .obj (forall_defined h) (nodup_defined hnodup)

section
variable {node : NodeBuffer} {ps ps' : List (String × Option Value)}

/-- The members of an object are revived as its properties are. -/
lemma reviveMembers_defined (ps : List (String × Option Value)) :
    reviveMembers node (defined ps) = (revivedProperties node ps).map defined := by
  induction ps with
  | nil => rfl
  | cons p ps ih =>
    obtain ⟨name, v⟩ := p
    rw [defined_cons, revivedProperties]
    cases v with
    | none =>
      show reviveMembers node (defined ps) = _
      rw [ih, revivedData, Option.bind_some, Option.map_map]
      congr 1
    | some v =>
      show ((revive node v).bind fun v => (reviveMembers node (defined ps)).map fun ms =>
        (utf16 name, v) :: ms) = _
      rw [ih, revivedData]
      cases revive node v with
      | none => rfl
      | some v' =>
        rw [Option.bind_some, Option.map_some, Option.bind_some, Option.map_map, Option.map_map]
        rfl

/-- Their names stay. -/
lemma map_fst_revivedProperties (h : revivedProperties node ps = some ps') :
    ps'.map Prod.fst = ps.map Prod.fst := by
  induction ps generalizing ps' with
  | nil =>
    cases h
    rfl
  | cons p ps ih =>
    obtain ⟨v, _, h⟩ := Option.bind_eq_some_iff.mp h
    obtain ⟨ps'', hps, rfl⟩ := Option.map_eq_some_iff.mp h
    rw [List.map_cons, List.map_cons, ih hps]

/-- Properties that the reviver keeps. -/
lemma revivedProperties_kept (h : ∀ p ∈ ps, ∀ v, p.2 = some v → revive node v = some v) :
    revivedProperties node ps = some ps := by
  induction ps with
  | nil => rfl
  | cons p ps ih =>
    obtain ⟨hp, hps⟩ := List.forall_mem_cons.mp h
    have hdata : revivedData node p.2 = some p.2 := by
      cases hv : p.2 with
      | none => rfl
      | some v => rw [revivedData, hp v hv, Option.map_some]
    rw [revivedProperties, hdata, ih hps]
    rfl

/-- An object is revived as its properties are, when none of them means something to the reviver. -/
lemma revive_defined (hdataType : "dataType" ∉ ps.map Prod.fst)
    (hown : "hasOwnProperty" ∉ ps.map Prod.fst) :
    revive node (.obj (defined ps)) =
      (revivedProperties node ps).map fun ps => .obj (defined ps) := by
  rw [revive, reviveMembers_defined]
  cases hps : revivedProperties node ps with
  | none => rfl
  | some ps' =>
    have hnames := map_fst_revivedProperties hps
    refine reviver_kept_iff.mpr ⟨rfl, get_defined_eq_none (by rwa [hnames]), ?_⟩
    intro dataType hget
    rw [get_defined_eq_none (by rwa [hnames])] at hget
    cases hget

end

namespace AugmentedData

/-- The names of the fields, in their order. -/
lemma map_fst_properties (a : AugmentedData (Option Value)) : a.properties.map Prod.fst =
    ["data", "UUID", "PORT", "ADDRESS", "sendTime", "receivedTime", "replyTime", "replyReceivedTime",
      "timeout", "msgDir"] := rfl

/-- No name is there twice. -/
lemma nodup_properties (a : AugmentedData (Option Value)) : (a.properties.map Prod.fst).Nodup := by
  rw [map_fst_properties]
  decide

end AugmentedData

/-- A string is read back. -/
lemma stringOf_str (s : String) : stringOf (.str (utf16 s)) = some s := by
  rw [stringOf, ofUtf16_utf16]

/-- An integer is read back. -/
lemma intOf_intCast (n : ℤ) : intOf (.num (.finite n)) = some n := by
  rw [intOf, if_pos (Rat.den_intCast n), Rat.num_intCast]

/-- A natural number is read back. -/
lemma natOf_natCast (n : ℕ) : natOf (.num (.finite n)) = some n := by
  have hint := intOf_intCast n
  rw [Int.cast_natCast] at hint
  rw [natOf, hint, Option.bind_some, if_pos (Int.natCast_nonneg n), Int.toNat_natCast]

/-- A direction is read back. -/
lemma msgDirOf_text (d : MsgDir) : msgDirOf (.str (utf16 d.text)) = some d := by
  rw [msgDirOf, stringOf_str, Option.bind_some]
  cases d <;> decide

/-- A field that may be undefined is read back, where its values are. -/
lemma orUndefined_map {α : Type*} {f : Value → Option α} {g : α → Value} (h : ∀ x, f (g x) = some x)
    (o : Option α) : orUndefined f (o.map g) = some o := by
  cases o with
  | none => rfl
  | some x => rw [Option.map_some, orUndefined, h, Option.map_some]

/-- The object of a message is read as the message. -/
lemma augDataOf_value (a : AugmentedData (Option Value)) : augDataOf a.value = some a := by
  have hown : ∀ p ∈ a.properties, Entries.get (utf16 p.1) (defined a.properties) = p.2 :=
    fun p hp => get_defined a.nodup_properties hp
  rw [AugmentedData.value]
  generalize defined a.properties = ms at hown
  simp only [AugmentedData.properties, List.forall_mem_cons] at hown
  obtain ⟨hdata, hUUID, hPORT, hADDRESS, hsend, hreceived, hreply, hreplyReceived, htimeout, hdir, _⟩ := hown
  simp only [augDataOf, hdata, hUUID, hPORT, hADDRESS, hsend, hreceived, hreply, hreplyReceived,
    htimeout, hdir, Option.bind_some, stringOf_str, natOf_natCast, intOf_intCast, msgDirOf_text,
    orUndefined_map stringOf_str, orUndefined_map intOf_intCast, Option.bind_eq_bind]

/-! ## The round trip -/

section
variable {node : NodeBuffer} {a : AugmentedData (Option Value)}

/-- The object of a message is a JSON value. -/
lemma AugmentedData.Portable.isJson (h : a.Portable) : IsJson a.value := by
  have hsome : ∀ {v : Value}, IsJson v → ∀ v', some v = some v' → IsJson v' :=
    fun hv _ e => Option.some.inj e ▸ hv
  refine isJson_defined a.nodup_properties ?_
  simp only [properties, List.forall_mem_cons]
  refine ⟨h.data, hsome (.str _), hsome (.num h.PORT), ?_, hsome (.num h.sendTime),
    hsome (.num h.receivedTime), hsome (.num h.replyTime), hsome (.num h.replyReceivedTime), ?_,
    hsome (.str _), nofun⟩
  · intro v e
    obtain ⟨s, _, rfl⟩ := Option.map_eq_some_iff.mp e
    exact .str _
  · intro v e
    obtain ⟨t, ht, rfl⟩ := Option.map_eq_some_iff.mp e
    exact .num (h.timeout t ht)

/-- Of a message, the reviver changes the data. -/
lemma revive_value (a : AugmentedData (Option Value)) :
    revive node a.value = (a.revived node).map AugmentedData.value := by
  have hrest : revivedProperties node a.properties.tail = some a.properties.tail := by
    have hsome : ∀ {v : Value}, revive node v = some v → ∀ v', some v = some v' →
        revive node v' = some v' := fun hv _ e => Option.some.inj e ▸ hv
    apply revivedProperties_kept
    simp only [AugmentedData.properties, List.tail_cons, List.forall_mem_cons]
    refine ⟨hsome rfl, hsome rfl, ?_, hsome rfl, hsome rfl, hsome rfl, hsome rfl, ?_, hsome rfl,
      nofun⟩
    · intro v e
      obtain ⟨s, _, rfl⟩ := Option.map_eq_some_iff.mp e
      rfl
    · intro v e
      obtain ⟨t, _, rfl⟩ := Option.map_eq_some_iff.mp e
      rfl
  have hproperties : revivedProperties node a.properties =
      (revivedData node a.data).map fun data => AugmentedData.properties { a with data } := by
    show ((revivedData node a.data).bind fun v =>
      (revivedProperties node a.properties.tail).map fun ps => ("data", v) :: ps) = _
    rw [hrest]
    cases revivedData node a.data <;> rfl
  have hdataType : "dataType" ∉ a.properties.map Prod.fst := by
    rw [a.map_fst_properties]
    decide
  have hown : "hasOwnProperty" ∉ a.properties.map Prod.fst := by
    rw [a.map_fst_properties]
    decide
  rw [AugmentedData.value, revive_defined hdataType hown, hproperties, AugmentedData.revived,
    Option.map_map, Option.map_map]
  rfl

/-- The binding takes the text of an object as it was written. -/
lemma utf16_stringifyProperties {ps : List (String × Option Value)} (h : IsJson (.obj (defined ps))) :
    utf16 (stringifyProperties ps) = stringify (.obj (defined ps)) :=
  WellFormed.utf16_ofUtf16 (wellFormed_write h.lexical)

/-- **Messages as texts.** A message with numbers that are doubles, whose data is undefined or a
    JSON value, is read from its text as it was, but for its data, which is revived; the parser
    throws exactly when it does for the data. -/
lemma readText_text (h : a.Portable) : readText node a.text = a.revived node := by
  have htext : utf16 a.text = stringify a.value := utf16_stringifyProperties h.isJson
  rw [readText, htext, parseText_stringify node h.isJson, revive_value, Option.bind_map]
  cases a.revived node with
  | none => rfl
  | some b => exact augDataOf_value b

/-- No text of a message begins with the byte that marks a header. -/
lemma head_utf8_text (a : AugmentedData (Option Value)) : (utf8 a.text).head? ≠ some 1 := by
  have htext : ∃ s, a.text = String.ofList ('\x7b' :: s) := by
    have hwrite : ∀ ms, ∃ s, write (.obj ms) = charUnits '\x7b' ++ s := fun ms => ⟨_, rfl⟩
    obtain ⟨s, hs⟩ := hwrite (jsonMembers (defined a.properties))
    refine ⟨toChars s, ?_⟩
    rw [AugmentedData.text, ofUtf16, stringify, AugmentedData.value, Value.json, hs,
      toChars_charUnits]
  obtain ⟨s, hs⟩ := htext
  have hbrace : utf8 (String.ofList ['\x7b']) = [0x7b] := by decide
  rw [hs, utf8_ofList_cons, hbrace]
  show some (0x7b : UInt8) ≠ some 1
  decide

end

end ShardusNet.Node
