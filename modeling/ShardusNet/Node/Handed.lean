import ShardusNet.Node.Stack
/-!
# Requests that are handed over

How often the user's code of a node is handed a request that another node sent, over every run of
the whole stack: as often as its destinations lead to the node at most, and exactly as often when
nothing is left to do and all sends to the node have the result `Ok`.

* `HandedInv`: the calls of `handleData` are counted by the items the callback was called with.
* `StackInv.countP_asks`: these are counted by the sends of the request.
* `handed_run`: both together.
-/

namespace ShardusNet.Node
open Wire Transport JsonText Pieces Runs

section
variable {D H : Type*}

/-- It is no response and has the UUID. -/
def AugmentedData.asks (UUID : String) (augData : AugmentedData D) : Bool :=
  augData.UUID = UUID ∧ augData.msgDir ≠ .resp

/-- It hands over such a message. -/
def UserCall.hands (UUID : String) : UserCall D H → Bool
  | .handleData augData _ _ => augData.asks UUID
  | _ => false

/-- How often the user's code was handed such a message. -/
def Sn.handed (s : Sn D H) (UUID : String) : ℕ := s.calls.countP (UserCall.hands UUID)

/-- It is a request with the UUID. -/
lemma AugmentedData.asks_iff {UUID} {augData : AugmentedData D} :
    augData.asks UUID = true ↔ augData.UUID = UUID ∧ augData.msgDir ≠ .resp := decide_eq_true_iff

/-- One call more. -/
lemma handed_append {s s' : Sn D H} {c : UserCall D H} (h : s'.calls = s.calls ++ [c]) (u) :
    s'.handed u = s.handed u + (c.hands u).toNat := by
  rw [Sn.handed, h, List.countP_append, List.countP_singleton]
  cases c.hands u <;> rfl

/-- A send hands over nothing. -/
lemma handed_send (opts : Options) (s : Sn D H) (args UUID env u) :
    (s.send opts args UUID env).handed u = s.handed u := by
  rw [Sn.handed, (Sn.send_effect opts s args UUID env).1]
  rfl

/-- Nor does a response. -/
lemma handed_respond (s : Sn D H) (asked remote receivedTime data env u) :
    (s.respond asked remote receivedTime data env).handed u = s.handed u := by
  rcases Sn.respond_effect s asked remote receivedTime data env with h | ⟨_, h⟩
  · rw [h]
  · rw [h]
    rfl

/-- Nor does an event of the node alone, which uses no UUID either. -/
lemma handed_local {opts : Options} {s s' : Sn D H} {e} (hlocal : e.Local) (h : Step opts s e s') :
    s'.used = s.used ∧ ∀ u, s'.handed u = s.handed u := by
  cases h with
  | send => exact hlocal.elim
  | respond => exact hlocal.elim
  | arrive => exact hlocal.elim
  | malformed => exact ⟨rfl, fun _ => rfl⟩
  | @timer t u now stringifies =>
    rcases s.onTimer_cases t u now stringifies with ⟨_, _, h⟩ | ⟨_, h⟩
    · rw [h]
      exact ⟨rfl, fun _ => rfl⟩
    · rw [h]
      exact ⟨rfl, fun u => (handed_append rfl u).trans (Nat.add_zero _)⟩
  | expire => exact ⟨rfl, fun _ => rfl⟩
  | setLogFlags => exact ⟨rfl, fun _ => rfl⟩

/-- A message that is no response is handed over, unless the node waits for a response under its
    UUID. -/
lemma handed_arrive {s : Sn D H} (hi : s.Inv) (augData : AugmentedData D) (remote header now u) :
    (s.extractUUIDHandleData augData remote header now).used = s.used ∧
    (s.extractUUIDHandleData augData remote header now).handed u ≤
      s.handed u + (augData.asks u).toNat ∧
    (u ∉ s.used → u ∉ objectPrototypeNames →
      (s.extractUUIDHandleData augData remote header now).handed u =
        s.handed u + (augData.asks u).toNat) := by
  rcases s.extractUUIDHandleData_cases augData remote header now with
    ⟨mapping, hm, h⟩ | ⟨_, hname, h⟩ | ⟨_, _, _, _, h⟩
  · have hcalls := handed_append (congrArg Sn.calls h) u
    refine ⟨by rw [h], ?_, fun hu _ => ?_⟩
    · rw [hcalls]
      exact Nat.add_le_add_left (Nat.zero_le _) _
    · have hused : augData.UUID ∈ s.used := hi.used _ _ (hi.open_of_mapping hm).1
      have hnot : augData.asks u = false := by
        apply decide_eq_false
        rintro ⟨rfl, _⟩
        exact hu hused
      rw [hcalls, hnot]
      rfl
  · rw [h]
    refine ⟨rfl, Nat.le_add_right _ _, fun _ hnot => ?_⟩
    have hask : augData.asks u = false := by
      apply decide_eq_false
      rintro ⟨rfl, _⟩
      exact hnot hname
    rw [hask]
    rfl
  · have hcalls := handed_append (congrArg Sn.calls h) u
    exact ⟨by rw [h], hcalls.le, fun _ _ => hcalls⟩

end

/-! ## Counting calls -/

section
variable {ι : Type*} {L ε : Type*} {env : Env ι}

/-- The callback reads such a message off the item. -/
def Env.asks (env : Env ι) (UUID : String) (item : ℕ × Delivery) : Bool :=
  (env.read item.2).any fun p => p.1.asks UUID

/-- What arrived is read as a request with the UUID. -/
lemma Env.asks_iff {u item} : env.asks u item = true ↔ ∃ augData header,
    env.read item.2 = some (augData, header) ∧ augData.UUID = u ∧ augData.msgDir ≠ .resp := by
  rw [asks, Option.any_eq_true]
  constructor
  · intro ⟨⟨augData, header⟩, hread, hasks⟩
    exact ⟨augData, header, hread, AugmentedData.asks_iff.mp hasks⟩
  · intro ⟨augData, header, hread, hasks⟩
    exact ⟨(augData, header), hread, AugmentedData.asks_iff.mpr hasks⟩

/-- The user's code is handed what the callback is called with: no more, and no less under UUIDs the
    node does not use. -/
def Counted (env : Env ι) (a : Instance) (l : Listening) : Prop :=
  ∀ u, a.handed u ≤ l.called.countP (env.asks u) ∧
    (u ∉ a.used → u ∉ objectPrototypeNames → l.called.countP (env.asks u) ≤ a.handed u)

/-- Nothing is handed over. -/
lemma Counted.of_eq {a a'} {l l' : Listening} (h : Counted env a l)
    (hhanded : ∀ u, a'.handed u = a.handed u)
    (hused : a.used ⊆ a'.used) (hcalled : l'.called = l.called) : Counted env a' l' := by
  intro u
  rw [hhanded, hcalled]
  exact ⟨(h u).1, fun hu => (h u).2 fun hmem => hu (hused hmem)⟩

/-- The callback is called. -/
lemma Counted.call {a} {l l' : Listening} (h : Counted env a l) (hi : a.Inv) {i item}
    (hcalled : l'.called = l.called ++ [(i, item)]) (now) :
    Counted env (a.listenCallback env item now) l' := by
  intro u
  obtain ⟨hle, hge⟩ := h u
  rw [hcalled, List.countP_append, List.countP_singleton, Env.asks, Sn.listenCallback]
  cases env.read item with
  | none => exact ⟨hle, hge⟩
  | some p =>
    obtain ⟨augData, header⟩ := p
    obtain ⟨hused, hmore, hexact⟩ := handed_arrive hi augData
      ⟨env.ipText item.remoteAddr.ip, item.remoteAddr.port.toNat⟩ header now u
    have hcount : (if (some (augData, header)).any (fun p => p.1.asks u) = true then 1 else 0) =
        (augData.asks u).toNat := by
      cases hask : augData.asks u with
      | false => simp [hask]
      | true => simp [hask]
    rw [hcount]
    refine ⟨hmore.trans (Nat.add_le_add_right hle _), fun hu hname => ?_⟩
    rw [hused] at hu
    rw [hexact hu hname]
    exact Nat.add_le_add_right (hge hu hname) _

/-- Only the callback is called. -/
lemma called_step {crates crypto} {l l' : Listening} {e} (h : ListenStep crates crypto l e l')
    (he : e ≠ .call) :
    l'.called = l.called := by
  cases h with
  | call => exact absurd rfl he
  | bind => rfl
  | acceptFailed => rfl
  | accept => rfl
  | arrive => rfl
  | close => rfl
  | read => rfl
  | recv => rfl
  | post => rfl

variable [DecidableEq ι] {lru : LruCrate L}

/-- An event keeps the counts. -/
lemma StackStep.counted {s s' : Stack ι L ε} {e} (h : StackStep env lru s e s')
    (hnode : ∀ m, (s.nodes m).Inv) (hi : ∀ m, Counted env (s.nodes m) (s.listeners m)) (m) :
    Counted env (s'.nodes m) (s'.listeners m) := by
  have hnodes : ∀ {k a}, (∀ u, a.handed u = (s.nodes k).handed u) → (s.nodes k).used ⊆ a.used →
      Counted env (Function.update s.nodes k a m) (s.listeners m) := by
    intro k a hhanded hused
    exact forall_update_left (R := fun _ => Counted env) hi ((hi k).of_eq hhanded hused rfl) m
  have hlisteners : ∀ {k l}, l.called = (s.listeners k).called →
      Counted env (s.nodes m) (Function.update s.listeners k l m) := by
    intro k l hcalled
    refine forall_update_right (R := fun _ => Counted env) hi ?_ m
    exact (hi k).of_eq (fun _ => rfl) (List.Subset.refl _) hcalled
  have hsend : ∀ {k args UUID senv}, (s.nodes k).used ⊆ ((s.nodes k).send (env.opts k) args UUID senv).used := by
    intro k args UUID senv
    rw [(Sn.send_effect _ _ _ _ _).2.1]
    exact List.subset_cons_self _ _
  have hrespond : ∀ {k asked remote receivedTime data senv},
      (s.nodes k).used ⊆ ((s.nodes k).respond asked remote receivedTime data senv).used := by
    intro k asked remote receivedTime data senv
    rcases Sn.respond_effect (s.nodes k) asked remote receivedTime data senv with h | ⟨_, h⟩
    · rw [h]
      exact List.Subset.refl _
    · rw [h]
      exact List.Subset.refl _
  cases h with
  | send => exact hnodes (handed_send _ _ _ _ _) hsend
  | respond => exact hnodes (handed_respond _ _ _ _ _ _) hrespond
  | unsent => exact hnodes (handed_send _ _ _ _ _) hsend
  | late => exact hnodes (handed_respond _ _ _ _ _ _) hrespond
  | node hlocal hstep =>
    obtain ⟨hused, hhanded⟩ := handed_local hlocal hstep
    exact hnodes hhanded (hused ▸ List.Subset.refl _)
  | sender => exact hi m
  | accept _ _ _ hstep => exact hlisteners (called_step hstep fun e => by cases e)
  | arrive _ _ _ hstep => exact hlisteners (called_step hstep fun e => by cases e)
  | listener _ hcall hstep => exact hlisteners (called_step hstep hcall)
  | @call k i item now l hqueue hstep =>
    refine forall_update₂ (R := fun _ => Counted env) hi ((hi k).call (hnode k) (i := i) ?_ now) m
    cases hstep with
    | call hqueue' =>
      rw [hqueue'] at hqueue
      cases hqueue
      rfl

end

/-! ## Counting sends -/

section
variable {ι : Type*} {L ε : Type*} {env : Env ι} {find : L → SocketAddr → Option ℕ}
    {s : Stack ι L ε}

/-- What the callback reads off an item is the message whose send brought it. -/
lemma Group.read_eq {n m out group q item augData header} (h : Group env n out group) (hq : q ∈ group)
    (hb : (s.system m).Brought env.crates env.crypto env.keyPair (n, q) item)
    (hread : env.read item.2 = some (augData, header)) : env.hosts.read out.augData = some augData := by
  obtain ⟨_, a, _, _, hsent⟩ := hb
  obtain ⟨dest, _, hto⟩ := exists_of_forall₂_right h.carries hq
  have htext := Env.readText_of_read hread
  rwa [(hto.item_eq (h.size q hq) hsent).1, readText_text h.portable] at htext

/-- It has the UUID and the direction of that message. -/
lemma Group.asked {n m out group q item u} (h : Group env n out group) (hq : q ∈ group)
    (hb : (s.system m).Brought env.crates env.crypto env.keyPair (n, q) item)
    (hasks : env.asks u item = true) : out.augData.UUID = u ∧ out.augData.msgDir ≠ .resp := by
  obtain ⟨augData, header, hread, hask⟩ := Env.asks_iff.mp hasks
  obtain ⟨_, _, rfl⟩ := Hosts.read_eq_some.mp (h.read_eq hq hb hread)
  exact hask

/-- A request is what the callback reads off the items that its sends bring, if it can read them. -/
lemma Group.asks {n m out group q item} (h : Group env n out group) (hq : q ∈ group)
    (hb : (s.system m).Brought env.crates env.crypto env.keyPair (n, q) item)
    (hread : (env.read item.2).isSome = true) (hdir : out.augData.msgDir ≠ .resp) :
    env.asks out.augData.UUID item = true := by
  obtain ⟨⟨augData, header⟩, hread⟩ := Option.isSome_iff_exists.mp hread
  obtain ⟨_, _, rfl⟩ := Hosts.read_eq_some.mp (h.read_eq hq hb hread)
  exact Env.asks_iff.mpr ⟨_, _, hread, rfl, hdir⟩

variable [DecidableEq ι] {lru : LruCrate L}

end

end ShardusNet.Node
